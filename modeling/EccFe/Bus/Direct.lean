/-
EccFe.Bus.Direct — a server that answers in the cycle of the last beat.

It is the server of `Bus.Server` whose response is not registered: what that one would
show in the next cycle its port sees in this one. Behind ports that hold a request until
it is answered, every answer is that of the one request its port has raised and not seen
answered (`directServed`), also when a request is accepted and answered at once.
-/
import EccFe.Bus.Held

namespace EccFe.Bus

variable {κ π α ω ρ β δ ε : Type} {plan : Plan κ π α ω ρ δ ε}

/-- Only a read fixes the data of its response. -/
theorem Serves.respond_other {k : κ} {events : List (Event κ π α ω ρ β δ ε)} {port : π} {data : δ}
    (h : Serves plan k (events ++ [.respond port data])) {data' : δ}
    (hread : plan.effect? k = none → (plan.request k).write = false → data' = data) :
    Serves plan k (events ++ [.respond port data']) := by
  generalize hall : events ++ [.respond port data] = all at h
  cases h with
  | @effect e heffect d =>
    have hsplit : events ++ [Event.respond port data] =
        [Event.accept k, Event.effect e] ++ [Event.respond (plan.port k) d] := hall
    obtain ⟨rfl, hlast⟩ := List.append_inj' hsplit rfl
    cases hlast
    exact .effect heffect data'
  | read heffect hwrite r =>
    have hsplit : events ++ [Event.respond port data] =
        [Event.accept k, Event.beat (.ar (plan.request k).ar), Event.beat (.r r)] ++
          [Event.respond (plan.port k) (plan.reads k r)] := hall
    obtain ⟨rfl, hlast⟩ := List.append_inj' hsplit rfl
    cases hlast
    rw [hread heffect hwrite]
    exact .read heffect hwrite r
  | @write heffect hwrite x y hbeats b d =>
    have hsplit : events ++ [Event.respond port data] =
        [Event.accept k, Event.beat x, Event.beat y, Event.beat (.b b)] ++
          [Event.respond (plan.port k) d] := hall
    obtain ⟨rfl, hlast⟩ := List.append_inj' hsplit rfl
    cases hlast
    exact .write heffect hwrite hbeats b data'

namespace Server

variable [DecidableEq π] (plan : Plan κ π α ω ρ δ ε) (i : SlaveSide ρ β) (accept : Option κ)
  (s : Server κ π α ω δ)

/-- The port answered in this cycle. -/
def completing : Option π := (s.next plan i accept).responding plan

/-- The next state, with the response already seen. -/
def directNext : Server κ π α ω δ := { s.next plan i accept with answered := false }

/-- The events of a cycle; a port that is answered sees `data`. -/
def directEvents (data : δ) : List (Event κ π α ω ρ β δ ε) :=
  s.events plan i accept ++ ((s.completing plan i accept).map fun port => .respond port data).toList

/-- What is seen of a cycle and its ports. -/
def directSeen (request : π → Option κ) (data : δ) : Seen κ π α ω ρ β δ ε where
  ports :=
    { request := request
      ack := fun port => if s.completing plan i accept = some port then some data else none }
  events := s.directEvents plan i accept data

/-- The data of an answered read is that of its beat. -/
def ShowsBeat (data : δ) : Prop :=
  s.master.phase = .readData → i.rvalid = true → ∀ k, s.serving = some k → data = plan.reads k i.r

section

variable {plan i accept s}

/-- An answer to a read is that of the beat of this cycle. -/
theorem Progress.answered_read {current : List (Event κ π α ω ρ β δ ε)}
    (h : s.Progress plan current) {k : κ} (hanswered : (s.next plan i accept).answered = true)
    (hserving : (s.next plan i accept).serving = some k) (heffect : plan.effect? k = none)
    (hread : (plan.request k).write = false) :
    s.master.phase = .readData ∧ i.rvalid = true ∧ s.serving = some k := by
  by_cases hidle : s.master.phase = .idle
  · rw [next_idle hidle] at hanswered hserving
    obtain ⟨k', rfl, hk'⟩ := (Option.any_eq_true _ _).mp hanswered
    cases hserving
    rw [heffect] at hk'
    cases hk'
  · have hserving' : s.serving = some k := by simpa [next, accepted, hidle] using hserving
    by_cases hbeat : s.master.phase = .readData ∧ i.rvalid = true
    · exact ⟨hbeat.1, hbeat.2, hserving'⟩
    · by_cases hresp : s.master.phase = .writeResp ∧ i.bvalid = true
      · -- The transfer that a response ends is a write.
        cases h with
        | rest hrest => exact absurd hrest hidle
        | answered hrest => exact absurd hrest hidle
        | readAddr hc => exact absurd (hresp.1.symm.trans hc.phase) (by decide)
        | readData hc => exact absurd (hresp.1.symm.trans hc.phase) (by decide)
        | writeAddrData hc => exact absurd (hresp.1.symm.trans hc.phase) (by decide)
        | writeResp hc =>
          obtain rfl := Option.some.inj (hserving'.symm.trans hc.serving)
          exact absurd (hread.symm.trans hc.write) (by decide)
      · rw [next_goes hidle hbeat hresp] at hanswered
        cases hanswered

/-- A cycle of a direct server goes on with the service under way, or ends it. -/
theorem progress_direct {current : List (Event κ π α ω ρ β δ ε)} (h : s.Progress plan current)
    (hquiet : s.answered = false) {data : δ} (hdata : s.ShowsBeat plan i data) :
    (s.completing plan i accept = none ∧
        (s.directNext plan i accept).Progress plan (current ++ s.directEvents plan i accept data)) ∨
      ∃ k, s.completing plan i accept = some (plan.port k) ∧
        Serves plan k (current ++ s.directEvents plan i accept data) ∧
        (s.directNext plan i accept).Progress plan ([] : List (Event κ π α ω ρ β δ ε)) := by
  have hnext : (s.next plan i accept).Progress plan (current ++ s.events plan i accept) :=
    progress_goes h hquiet
  unfold directEvents completing directNext responding
  cases hanswered : (s.next plan i accept).answered with
  | false =>
    have hsame : { s.next plan i accept with answered := false } = s.next plan i accept := by
      rw [← hanswered]
    rw [hsame]
    exact .inl ⟨rfl, by simpa using hnext⟩
  | true =>
    generalize hevents : current ++ s.events plan i accept = events at hnext
    cases hnext with
    | rest _ hno => exact absurd (hanswered.symm.trans hno) (by decide)
    | readAddr hc => exact absurd (hanswered.symm.trans hc.answered) (by decide)
    | readData hc => exact absurd (hanswered.symm.trans hc.answered) (by decide)
    | writeAddrData hc => exact absurd (hanswered.symm.trans hc.answered) (by decide)
    | writeResp hc => exact absurd (hanswered.symm.trans hc.answered) (by decide)
    | @answered k _ hidle _ hserving hserves =>
      refine .inr ⟨k, by simp [hserving], ?_, .rest hidle rfl⟩
      rw [← List.append_assoc, hevents]
      simp only [hserving, if_true, Option.map_some, Option.toList_some]
      refine hserves.respond_other fun heffect hread => ?_
      obtain ⟨hphase, hvalid, hserving'⟩ := h.answered_read hanswered hserving heffect hread
      rw [hdata hphase hvalid k hserving', next_read hphase hvalid hserving']
      exact (Function.update_self (plan.port k) (plan.reads k i.r) s.rdata).symm

omit [DecidableEq π] in
theorem responding_quiet (hquiet : s.answered = false) : s.responding plan = none := by
  simp [responding, hquiet]

theorem accepts_directEvents {data : δ} :
    accepts (s.directEvents plan i accept data) = (s.accepted accept).toList := by
  unfold directEvents
  rw [accepts_append, accepts_events]
  cases s.completing plan i accept <;> simp [accepts, Event.accept?]

theorem responds_directEvents (hquiet : s.answered = false) {data : δ} :
    responds (s.directEvents plan i accept data) =
      ((s.completing plan i accept).map fun port => (port, data)).toList := by
  unfold directEvents
  rw [responds_append, responds_events, responding_quiet hquiet]
  cases s.completing plan i accept <;> simp [responds, Event.respond?]

/-- What the past tells about a direct server behind held ports. -/
structure DirectServed (plan : Plan κ π α ω ρ δ ε) (past : List (Seen κ π α ω ρ β δ ε))
    (s : Server κ π α ω δ) (done : List (Service β plan)) (current : List (Event κ π α ω ρ β δ ε)) :
    Prop where
  events : eventsOf past = done.flatMap Service.events ++ current
  progress : s.Progress plan current
  quiet : s.answered = false
  answered : Answered plan past done current

/-- A cycle keeps what is known, when the server takes its requests from the wires. -/
theorem DirectServed.next {past : List (Seen κ π α ω ρ β δ ε)} {done : List (Service β plan)}
    {current : List (Event κ π α ω ρ β δ ε)} {request : π → Option κ} {data : δ}
    (h : DirectServed plan past s done current)
    (hheld : Held (portsOf (past ++ [s.directSeen plan i accept request data])))
    (hdata : s.ShowsBeat plan i data)
    (htakes : ∀ k, s.accepted accept = some k → request (plan.port k) = some k) :
    ∃ done' current', DirectServed plan (past ++ [s.directSeen plan i accept request data])
      (s.directNext plan i accept) done' current' := by
  have hports : portsOf (past ++ [s.directSeen plan i accept request data]) =
      portsOf past ++ [(s.directSeen plan i accept request data).ports] := by simp [portsOf]
  have hevents : eventsOf (past ++ [s.directSeen plan i accept request data]) =
      eventsOf past ++ s.directEvents plan i accept data := by simp [eventsOf, directSeen]
  have hresponds : responds (s.directEvents plan i accept data) = _ :=
    responds_directEvents h.quiet
  rw [hports] at hheld
  rcases (progress_direct h.progress h.quiet hdata : s.completing plan i accept = none ∧ _ ∨ _) with
    ⟨hnone, hnext⟩ | ⟨k, hsome, hserves, hnext⟩
  · have hack : ∀ port, (s.directSeen plan i accept request data).ports.ack port = none := by
      simp [directSeen, hnone]
    refine ⟨done, current ++ s.directEvents plan i accept data, ?_, hnext, rfl, ?_, ?_, ?_⟩
    · rw [hevents, h.events, List.append_assoc]
    · intro port
      rw [hports]
      exact raised_unanswered hheld (hack port) (h.answered.raised port)
    · intro port
      rw [hports, hevents, acks_append, hack, h.answered.acks, respondsOf, respondsOf,
        responds_append, hresponds, hnone]
      simp
    · intro k hk
      rw [hports, waiting_append, hack]
      rw [accepts_append, List.mem_append, accepts_directEvents] at hk
      rcases hk with hold | hnew
      · exact hheld.request_eq (h.answered.held k hold)
      · exact htakes k (by simpa using hnew)
  · -- The port that is answered holds, or has just raised, the request that is served.
    have hrequest : Bus.raised (plan.port k)
        (portsOf past ++ [(s.directSeen plan i accept request data).ports]) =
        (servicesOf (plan.port k) done).map Service.request ++ [k] := by
      have haccepts := hserves.accepts_eq
      rw [accepts_append, accepts_directEvents] at haccepts
      rw [raised_append, h.answered.raised]
      cases haccepted : s.accepted accept with
      | none =>
        rw [haccepted, Option.toList_none, List.append_nil] at haccepts
        have hwaiting := h.answered.held k (haccepts ▸ List.mem_singleton_self k)
        simp [hwaiting]
      | some k' =>
        rw [haccepted] at haccepts
        have hk' : k' = k := by
          have hlast := congrArg List.getLast? haccepts
          simpa using hlast
        subst hk'
        have hwire := htakes k' haccepted
        cases hwaiting : waiting (plan.port k') (portsOf past) with
        | none => simp [directSeen, hwire]
        | some held =>
          have hsame := hheld.request_eq hwaiting
          obtain rfl := Option.some.inj (hsame.symm.trans hwire)
          simp
    refine ⟨done ++ [⟨k, _, hserves⟩], [], ?_, hnext, rfl, ?_, ?_, by simp [accepts]⟩
    · rw [hevents, h.events]
      simp
    · intro port
      rw [hports]
      by_cases hport : plan.port k = port
      · subst hport
        rw [hrequest, waiting_append]
        simp [servicesOf, directSeen, hsome]
      · have hack : (s.directSeen plan i accept request data).ports.ack port = none := by
          simp [directSeen, hsome, hport]
        have hserved : servicesOf port (done ++ [⟨k, _, hserves⟩]) = servicesOf port done := by
          simp [servicesOf, hport]
        rw [hserved]
        exact raised_unanswered hheld hack (h.answered.raised port)
    · intro port
      rw [hports, hevents, acks_append, h.answered.acks, respondsOf, respondsOf, responds_append,
        hresponds, hsome]
      by_cases hport : plan.port k = port <;> simp [directSeen, hsome, hport]

end

theorem directServed_start (plan : Plan κ π α ω ρ δ ε) (shown : Request α ω) (rdata : π → δ) :
    DirectServed (ρ := ρ) (β := β) plan [] (start shown rdata) [] [] where
  events := rfl
  progress := .rest rfl rfl
  quiet := rfl
  answered := ⟨fun _ => rfl, fun _ => rfl, by simp [accepts]⟩

end Server

end EccFe.Bus
