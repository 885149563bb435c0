/-
EccFe.Bus.Held — ports that hold a request until it is answered.

A port raises a request, holds it through the cycle in which it sees the answer, and
may raise the next one in the cycle after. When the server takes a request only from
the wires, and only in cycles without an answer, every answer is that of the one
request its port has raised and not seen answered (`heldServed`).
-/
import EccFe.Bus.Server

namespace EccFe.Bus

open Transition

variable {κ π α ω ρ β δ ε : Type}

/-! ## 1. Ports -/

/-- What the ports show and see in one cycle. -/
structure PortCycle (κ π δ : Type) where
  request : π → Option κ
  ack : π → Option δ

/-- A request that is not answered is there again in the next cycle. -/
def PortCycle.Keeps (c c' : PortCycle κ π δ) : Prop :=
  ∀ port k, c.request port = some k → c.ack port = none → c'.request port = some k

def Held (trace : List (PortCycle κ π δ)) : Prop := trace.IsChain PortCycle.Keeps

/-- The request of the port that its last cycle left unanswered. -/
def waiting (port : π) (trace : List (PortCycle κ π δ)) : Option κ :=
  trace.getLast?.bind fun c => if (c.ack port).isSome then none else c.request port

/-- The requests of the port, each counted in the cycle in which it is raised. -/
def raisedFrom (port : π) : Option κ → List (PortCycle κ π δ) → List κ
  | _, [] => []
  | unanswered, c :: trace =>
      (if unanswered.isSome then [] else (c.request port).toList) ++
        raisedFrom port (if (c.ack port).isSome then none else c.request port) trace

def raised (port : π) (trace : List (PortCycle κ π δ)) : List κ := raisedFrom port none trace

/-- The answers the port sees. -/
def acks (port : π) (trace : List (PortCycle κ π δ)) : List δ :=
  trace.filterMap fun c => c.ack port

theorem waiting_append (port : π) (past : List (PortCycle κ π δ)) (c : PortCycle κ π δ) :
    waiting port (past ++ [c]) = if (c.ack port).isSome then none else c.request port := by
  simp [waiting]

theorem raised_append (port : π) (past : List (PortCycle κ π δ)) (c : PortCycle κ π δ) :
    raised port (past ++ [c]) = raised port past ++
      if (waiting port past).isSome then [] else (c.request port).toList := by
  have hfrom : ∀ (past : List (PortCycle κ π δ)) (unanswered : Option κ),
      raisedFrom port unanswered (past ++ [c]) = raisedFrom port unanswered past ++
        if ((past.getLast?.map fun c => if (c.ack port).isSome then none else c.request port).getD
          unanswered).isSome then [] else (c.request port).toList := by
    intro past
    induction past with
    | nil =>
      intro unanswered
      cases unanswered <;> simp [raisedFrom]
    | cons first past ih =>
      intro unanswered
      rw [List.cons_append, raisedFrom, raisedFrom, ih, List.append_assoc]
      cases past with
      | nil => rfl
      | cons second past => rw [List.getLast?_cons_cons, List.getLast?_cons]; rfl
  have hnone := hfrom past none
  unfold raised waiting
  rw [hnone]
  cases past.getLast? <;> rfl

theorem acks_append (port : π) (past : List (PortCycle κ π δ)) (c : PortCycle κ π δ) :
    acks port (past ++ [c]) = acks port past ++ (c.ack port).toList := by
  unfold acks
  rw [List.filterMap_append]
  cases hack : c.ack port <;> simp [hack]

/-- A held request of the port, or a new one. -/
theorem Held.request_eq {port : π} {past : List (PortCycle κ π δ)} {c : PortCycle κ π δ}
    (hheld : Held (past ++ [c])) {k : κ} (hwaiting : waiting port past = some k) :
    c.request port = some k := by
  obtain ⟨last, hlast, hrequest⟩ := Option.bind_eq_some_iff.mp hwaiting
  have hkeeps := (List.isChain_append.mp hheld).2.2 last hlast c (by simp)
  split at hrequest
  · cases hrequest
  · rename_i hack
    exact hkeeps port k hrequest (by simpa using hack)

/-! ## 2. A server behind held ports -/

/-- What is seen in one cycle of a server and of its ports. -/
structure Seen (κ π α ω ρ β δ ε : Type) where
  ports : PortCycle κ π δ
  events : List (Event κ π α ω ρ β δ ε)

def portsOf (trace : List (Seen κ π α ω ρ β δ ε)) : List (PortCycle κ π δ) := trace.map Seen.ports

def eventsOf (trace : List (Seen κ π α ω ρ β δ ε)) : List (Event κ π α ω ρ β δ ε) :=
  trace.flatMap Seen.events

variable [DecidableEq π]

def servicesOf {plan : Plan κ π α ω ρ δ ε} (port : π) (done : List (Service β plan)) :
    List (Service β plan) := done.filter fun service => plan.port service.request = port

/-- The answers of the port among the events. -/
def respondsOf (port : π) (events : List (Event κ π α ω ρ β δ ε)) : List δ :=
  ((responds events).filter fun answer => answer.1 = port).map Prod.snd

/-- Every answer of a port is that of the oldest request it has raised and not seen answered,
and the service under way is that of a request that is still held. -/
structure Answered (plan : Plan κ π α ω ρ δ ε) (trace : List (Seen κ π α ω ρ β δ ε))
    (done : List (Service β plan)) (current : List (Event κ π α ω ρ β δ ε)) : Prop where
  raised : ∀ port, raised port (portsOf trace) =
    (servicesOf port done).map Service.request ++ (waiting port (portsOf trace)).toList
  acks : ∀ port, acks port (portsOf trace) = respondsOf port (eventsOf trace)
  held : ∀ k ∈ accepts current, waiting (plan.port k) (portsOf trace) = some k

namespace Server

variable (plan : Plan κ π α ω ρ δ ε) (i : SlaveSide ρ β) (accept : Option κ)
  (request : π → Option κ) (s : Server κ π α ω δ)

def seen : Seen κ π α ω ρ β δ ε where
  ports :=
    { request := request
      ack := fun port => if s.responding plan = some port then some (s.rdata port) else none }
  events := s.events plan i accept

/-- What the past tells about a server behind held ports. -/
structure HeldServed (plan : Plan κ π α ω ρ δ ε) (past : List (Seen κ π α ω ρ β δ ε))
    (s : Server κ π α ω δ) (done : List (Service β plan)) (current : List (Event κ π α ω ρ β δ ε)) :
    Prop where
  events : eventsOf past = done.flatMap Service.events ++ current
  progress : s.Progress plan current
  answered : Answered plan past done current

section

variable {plan i accept request s}

omit [DecidableEq π] in
/-- A port without an answer in this cycle. -/
theorem raised_unanswered {past : List (PortCycle κ π δ)} {c : PortCycle κ π δ} {port : π}
    (hheld : Held (past ++ [c])) (hack : c.ack port = none) {served : List κ}
    (hraised : Bus.raised port past = served ++ (waiting port past).toList) :
    Bus.raised port (past ++ [c]) = served ++ (waiting port (past ++ [c])).toList := by
  rw [raised_append, waiting_append, hraised, hack]
  cases hwaiting : waiting port past with
  | none => simp
  | some k => simp [hheld.request_eq hwaiting]

/-- A cycle keeps what is known, when the server takes its requests from the wires and only
while no answer is visible. -/
theorem HeldServed.next {past : List (Seen κ π α ω ρ β δ ε)} {done : List (Service β plan)}
    {current : List (Event κ π α ω ρ β δ ε)} (h : HeldServed plan past s done current)
    (hheld : Held (portsOf (past ++ [s.seen plan i accept request])))
    (htakes : ∀ k, s.accepted accept = some k →
      request (plan.port k) = some k ∧ s.responding plan = none) :
    ∃ done' current', HeldServed plan (past ++ [s.seen plan i accept request])
      (s.next plan i accept) done' current' := by
  have hports : portsOf (past ++ [s.seen plan i accept request]) =
      portsOf past ++ [(s.seen plan i accept request).ports] := by simp [portsOf]
  have hevents : eventsOf (past ++ [s.seen plan i accept request]) =
      eventsOf past ++ s.events plan i accept := by simp [eventsOf, seen]
  rw [hports] at hheld
  cases hanswered : s.answered with
  | false =>
    have hresponding : s.responding plan = none := by simp [responding, hanswered]
    have hack : ∀ port, (s.seen plan i accept request).ports.ack port = none := by
      simp [seen, hresponding]
    refine ⟨done, current ++ s.events plan i accept, ?_, progress_goes h.progress hanswered, ?_, ?_,
      ?_⟩
    · rw [hevents, h.events, List.append_assoc]
    · intro port
      rw [hports]
      exact raised_unanswered hheld (hack port) (h.answered.raised port)
    · intro port
      rw [hports, hevents, acks_append, hack, h.answered.acks]
      have hresponds : responds (s.events plan i accept) = _ := responds_events
      rw [respondsOf, respondsOf, responds_append, hresponds, hresponding]
      simp
    · intro k hk
      rw [hports, waiting_append, hack]
      rw [accepts_append, List.mem_append, accepts_events] at hk
      rcases hk with hold | hnew
      · exact hheld.request_eq (h.answered.held k hold)
      · exact (htakes k (by simpa using hnew)).1
  | true =>
    obtain ⟨hidle, k, hserving, hserves, hevent, hnext⟩ := h.progress.answers i accept hanswered
    have hresponding : s.responding plan = some (plan.port k) := by
      simp [responding, hanswered, hserving]
    obtain rfl : accept = none := by
      have haccepted : s.accepted accept = accept := if_pos hidle
      cases accept with
      | none => rfl
      | some k' => cases hresponding.symm.trans (htakes k' haccepted).2
    -- The service that ends is that of the request its port holds.
    have hheldBefore : waiting (plan.port k) (portsOf past) = some k := by
      have haccepts := hserves.accepts_eq
      rw [accepts_append] at haccepts
      exact h.answered.held k (by rw [← List.append_nil (accepts current)]; exact haccepts ▸ by simp)
    refine ⟨done ++ [⟨k, _, hserves⟩], [], ?_, hnext, ?_, ?_, by simp [accepts]⟩
    · rw [hevents, h.events, hevent]
      simp [opening]
    · intro port
      rw [hports]
      by_cases hport : plan.port k = port
      · subst hport
        rw [raised_append, waiting_append, h.answered.raised, hheldBefore]
        simp [servicesOf, seen, hresponding]
      · have hack : (s.seen plan i none request).ports.ack port = none := by
          simp [seen, hresponding, hport]
        have hserved : servicesOf port (done ++ [⟨k, _, hserves⟩]) = servicesOf port done := by
          simp [servicesOf, hport]
        rw [hserved]
        exact raised_unanswered hheld hack (h.answered.raised port)
    · intro port
      have hresponds : responds (s.events plan i none) = _ := responds_events
      rw [hports, hevents, acks_append, h.answered.acks, respondsOf, respondsOf, responds_append,
        hresponds, hresponding]
      by_cases hport : plan.port k = port <;> simp [seen, hresponding, hport]

end

theorem heldServed_start (plan : Plan κ π α ω ρ δ ε) (shown : Request α ω) (rdata : π → δ) :
    HeldServed (ρ := ρ) (β := β) plan [] (start shown rdata) [] [] where
  events := rfl
  progress := .rest rfl rfl
  answered := ⟨fun _ => rfl, fun _ => rfl, by simp [accepts]⟩

end Server

end EccFe.Bus
