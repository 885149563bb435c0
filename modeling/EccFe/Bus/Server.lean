/-
EccFe.Bus.Server — serving the requests of several ports one at a time.

The server takes a request when its master is idle, carries it out as one transfer or
as a local effect, and shows the response in the cycle after. What it does is recorded
as events; `Server.exactlyOnce`: the events of any run are those of complete services
in a row, and of at most one service under way.
-/
import EccFe.Bus.Master
import Mathlib.Logic.Function.Basic

namespace EccFe.Bus

open Transition

/-! ## 1. Services -/

/-- What is to be done for a request of type `κ`. -/
structure Plan (κ π α ω ρ δ ε : Type) where
  port : κ → π
  /-- The effect of a request that needs no transfer. -/
  effect? : κ → Option ε
  /-- The transfer of any other request. -/
  request : κ → Request α ω
  /-- What the port is shown of a read beat. -/
  reads : κ → ρ → δ

inductive Event (κ π α ω ρ β δ ε : Type) where
  | accept (k : κ)
  | effect (e : ε)
  | beat (b : Beat α ω ρ β)
  | respond (port : π) (data : δ)

variable {κ π α ω ρ β δ ε : Type}

/-- The events of one request, from its acceptance to its response. -/
inductive Serves (plan : Plan κ π α ω ρ δ ε) : κ → List (Event κ π α ω ρ β δ ε) → Prop
  | effect {k : κ} {e : ε} (heffect : plan.effect? k = some e) (data : δ) :
      Serves plan k [.accept k, .effect e, .respond (plan.port k) data]
  | read {k : κ} (heffect : plan.effect? k = none) (hread : (plan.request k).write = false) (r : ρ) :
      Serves plan k [.accept k, .beat (.ar (plan.request k).ar), .beat (.r r),
        .respond (plan.port k) (plan.reads k r)]
  | write {k : κ} (heffect : plan.effect? k = none) (hwrite : (plan.request k).write = true)
      {x y : Beat α ω ρ β}
      (hbeats : [x, y].Perm [.aw (plan.request k).aw, .w (plan.request k).w]) (b : β) (data : δ) :
      Serves plan k [.accept k, .beat x, .beat y, .beat (.b b), .respond (plan.port k) data]

/-- A request with the events that served it. -/
structure Service (β : Type) (plan : Plan κ π α ω ρ δ ε) where
  request : κ
  events : List (Event κ π α ω ρ β δ ε)
  serves : Serves plan request events

def Event.accept? : Event κ π α ω ρ β δ ε → Option κ
  | accept k => some k
  | effect _ | beat _ | respond .. => none

def Event.respond? : Event κ π α ω ρ β δ ε → Option (π × δ)
  | respond port data => some (port, data)
  | accept _ | effect _ | beat _ => none

/-- The requests accepted, in order. -/
def accepts (events : List (Event κ π α ω ρ β δ ε)) : List κ := events.filterMap Event.accept?

/-- The responses, in order. -/
def responds (events : List (Event κ π α ω ρ β δ ε)) : List (π × δ) :=
  events.filterMap Event.respond?

theorem accepts_append (a b : List (Event κ π α ω ρ β δ ε)) :
    accepts (a ++ b) = accepts a ++ accepts b := List.filterMap_append

theorem responds_append (a b : List (Event κ π α ω ρ β δ ε)) :
    responds (a ++ b) = responds a ++ responds b := List.filterMap_append

theorem accepts_beats (beats : List (Beat α ω ρ β)) :
    accepts (beats.map Event.beat : List (Event κ π α ω ρ β δ ε)) = [] := by
  induction beats with
  | nil => rfl
  | cons _ _ ih => exact ih

theorem responds_beats (beats : List (Beat α ω ρ β)) :
    responds (beats.map Event.beat : List (Event κ π α ω ρ β δ ε)) = [] := by
  induction beats with
  | nil => rfl
  | cons _ _ ih => exact ih

/-- The beginning of a service, without its response. -/
def Begun (plan : Plan κ π α ω ρ δ ε) (events : List (Event κ π α ω ρ β δ ε)) : Prop :=
  events = [] ∨ ∃ (service : Service β plan) (rest : List (Event κ π α ω ρ β δ ε)),
    rest ≠ [] ∧ service.events = events ++ rest

/-- The events are those of complete services in a row, and of at most one under way; the
responses are those of the complete ones, in the order of acceptance. -/
structure ExactlyOnce (plan : Plan κ π α ω ρ δ ε) (trace : List (Event κ π α ω ρ β δ ε))
    (done : List (Service β plan)) (current : List (Event κ π α ω ρ β δ ε)) : Prop where
  events : trace = done.flatMap Service.events ++ current
  begun : Begun plan current
  accepted : accepts trace = done.map Service.request ++ accepts current
  outstanding : (accepts current).length ≤ 1
  responded : (responds trace).map Prod.fst = done.map fun service => plan.port service.request

section

variable {plan : Plan κ π α ω ρ δ ε} {k : κ} {events : List (Event κ π α ω ρ β δ ε)}

/-- A service accepts its one request. -/
theorem Serves.accepts_eq (h : Serves plan k events) : accepts events = [k] := by
  cases h with
  | effect => rfl
  | read => rfl
  | write => rfl

/-- A service answers its one port. -/
theorem Serves.responds_eq (h : Serves plan k events) :
    (responds events).map Prod.fst = [plan.port k] := by
  cases h with
  | effect => rfl
  | read => rfl
  | write => rfl

/-- The response is the last event. -/
theorem Serves.responds_dropLast (h : Serves plan k events) : responds events.dropLast = [] := by
  cases h with
  | effect => rfl
  | read => rfl
  | write => rfl

/-- A service that has begun accepted one request at most. -/
theorem Begun.accepts_le (h : Begun plan events) : (accepts events).length ≤ 1 := by
  rcases h with rfl | ⟨service, rest, -, heq⟩
  · exact Nat.zero_le _
  · have haccepts := service.serves.accepts_eq
    rw [heq, accepts_append] at haccepts
    have hlength := congrArg List.length haccepts
    rw [List.length_append, List.length_singleton] at hlength
    omega

/-- A service that has begun has not answered yet. -/
theorem Begun.responds_nil (h : Begun plan events) : responds events = [] := by
  rcases h with rfl | ⟨service, rest, hrest, heq⟩
  · rfl
  · have hresponds := service.serves.responds_dropLast
    rw [heq, List.dropLast_append_of_ne_nil hrest, responds_append, List.append_eq_nil_iff]
      at hresponds
    exact hresponds.1

/-- Services accept their requests in order. -/
theorem accepts_services (done : List (Service β plan)) :
    accepts (done.flatMap Service.events) = done.map Service.request := by
  induction done with
  | nil => rfl
  | cons service done ih =>
    rw [List.flatMap_cons, accepts_append, ih, service.serves.accepts_eq]
    rfl

/-- Services answer their ports in order. -/
theorem responds_services (done : List (Service β plan)) :
    (responds (done.flatMap Service.events)).map Prod.fst =
      done.map fun service => plan.port service.request := by
  induction done with
  | nil => rfl
  | cons service done ih =>
    rw [List.flatMap_cons, responds_append, List.map_append, ih, service.serves.responds_eq]
    rfl

/-- The other fields follow from the shape of the events. -/
theorem ExactlyOnce.of_events {done : List (Service β plan)}
    {current : List (Event κ π α ω ρ β δ ε)} (hbegun : Begun plan current) :
    ExactlyOnce plan (done.flatMap Service.events ++ current) done current where
  events := rfl
  begun := hbegun
  accepted := by rw [accepts_append, accepts_services]
  outstanding := hbegun.accepts_le
  responded := by rw [responds_append, hbegun.responds_nil, List.append_nil, responds_services]

end

/-! ## 2. The server -/

structure Server (κ π α ω δ : Type) where
  master : Master α ω
  /-- The request accepted last. -/
  serving : Option κ
  /-- Its response is visible in this cycle. -/
  answered : Bool
  rdata : π → δ

namespace Server

variable [DecidableEq π] (plan : Plan κ π α ω ρ δ ε) (i : SlaveSide ρ β) (accept : Option κ)
  (s : Server κ π α ω δ)

/-- The request accepted in this cycle. -/
def accepted : Option κ := if s.master.phase = .idle then accept else none

/-- The port that sees a response in this cycle. -/
def responding : Option π := if s.answered then s.serving.map plan.port else none

/-- The transfer started in this cycle. -/
def started : Option (Request α ω) :=
  (s.accepted accept).bind fun k =>
    match plan.effect? k with
    | some _ => none
    | none => some (plan.request k)

def next : Server κ π α ω δ where
  master := s.master.next i (s.started plan accept)
  serving := (s.accepted accept).or s.serving
  answered :=
    (s.accepted accept).any (fun k => (plan.effect? k).isSome) ||
      (s.master.phase == .readData && i.rvalid) || (s.master.phase == .writeResp && i.bvalid)
  rdata :=
    if s.master.phase == .readData && i.rvalid then
      s.serving.elim s.rdata fun k => Function.update s.rdata (plan.port k) (plan.reads k i.r)
    else s.rdata

def events : List (Event κ π α ω ρ β δ ε) :=
  ((s.responding plan).map fun port => Event.respond port (s.rdata port)).toList ++
    ((s.accepted accept).map Event.accept).toList ++
    (((s.accepted accept).bind plan.effect?).map Event.effect).toList ++
    (s.master.cycle i).beats.map Event.beat

def machine (β : Type) (plan : Plan κ π α ω ρ δ ε) :
    Machine (Server κ π α ω δ) (SlaveSide ρ β × Option κ) (List (Event κ π α ω ρ β δ ε)) where
  next i := next plan i.1 i.2
  out i := events plan i.1 i.2

def start (shown : Request α ω) (rdata : π → δ) : Server κ π α ω δ :=
  ⟨.start shown, none, false, rdata⟩

section

variable {plan i accept s}

theorem next_idle (hidle : s.master.phase = .idle) : s.next plan i accept =
    { master := s.master.next i (accept.bind fun k =>
        match plan.effect? k with
        | some _ => none
        | none => some (plan.request k))
      serving := accept.or s.serving
      answered := accept.any fun k => (plan.effect? k).isSome
      rdata := s.rdata } := by
  have hread : (Phase.idle == Phase.readData) = false := rfl
  have hwrite : (Phase.idle == Phase.writeResp) = false := rfl
  simp [next, started, accepted, hidle, hread, hwrite]

/-- The cycle of the read beat. -/
theorem next_read {k : κ} (hphase : s.master.phase = .readData) (hvalid : i.rvalid = true)
    (hserving : s.serving = some k) : s.next plan i accept =
      { master := s.master.next i none
        serving := some k
        answered := true
        rdata := Function.update s.rdata (plan.port k) (plan.reads k i.r) } := by
  simp [next, started, accepted, hphase, hvalid, hserving]

/-- The cycle of the write response. -/
theorem next_response (hphase : s.master.phase = .writeResp) (hvalid : i.bvalid = true) :
    s.next plan i accept =
      { master := s.master.next i none
        serving := s.serving
        answered := true
        rdata := s.rdata } := by
  have hread : (Phase.writeResp == Phase.readData) = false := rfl
  simp [next, started, accepted, hphase, hvalid, hread]

/-- Any other cycle of a transfer. -/
theorem next_goes (hbusy : s.master.phase ≠ .idle)
    (hread : ¬(s.master.phase = .readData ∧ i.rvalid = true))
    (hwrite : ¬(s.master.phase = .writeResp ∧ i.bvalid = true)) : s.next plan i accept =
      { master := s.master.next i none
        serving := s.serving
        answered := false
        rdata := s.rdata } := by
  have hrvalid : (s.master.phase == .readData && i.rvalid) = false := by simpa using hread
  have hbvalid : (s.master.phase == .writeResp && i.bvalid) = false := by simpa using hwrite
  simp only [next, started, accepted, if_neg hbusy, hrvalid, hbvalid]
  rfl

end

/-! ## 3. Progress -/

/-- The beats of a write that were taken. -/
def taken (q : Request α ω) (aw w : Bool) : List (Beat α ω ρ β) :=
  (if aw then [.aw q.aw] else []) ++ (if w then [.w q.w] else [])

theorem taken_append (q : Request α ω) (aw w aw' w' : Bool) :
    (taken q aw w ++ taken q (!aw && aw') (!w && w') : List (Beat α ω ρ β)).Perm
      (taken q (aw || aw') (w || w')) := by
  cases aw <;> cases w <;> cases aw' <;> cases w' <;> simp [taken, List.Perm.swap]

/-- The master carries out the transfer of `k`. -/
structure Carries (k : κ) (phase : Phase) (write : Bool) : Prop where
  phase : s.master.phase = phase
  serving : s.serving = some k
  answered : s.answered = false
  shown : s.master.shown = plan.request k
  effect : plan.effect? k = none
  write : (plan.request k).write = write

/-- The events of the service under way. -/
inductive Progress : List (Event κ π α ω ρ β δ ε) → Prop
  | rest (hidle : s.master.phase = .idle) (hanswered : s.answered = false) : Progress []
  | answered {k : κ} {events : List (Event κ π α ω ρ β δ ε)} (hidle : s.master.phase = .idle)
      (hanswered : s.answered = true) (hserving : s.serving = some k)
      (hserves : Serves plan k (events ++ [.respond (plan.port k) (s.rdata (plan.port k))])) :
      Progress events
  | readAddr {k : κ} (h : s.Carries plan k .readAddr false) : Progress [.accept k]
  | readData {k : κ} (h : s.Carries plan k .readData false) :
      Progress [.accept k, .beat (.ar (plan.request k).ar)]
  | writeAddrData {k : κ} {beats : List (Beat α ω ρ β)} (h : s.Carries plan k .writeAddrData true)
      (hbeats : beats.Perm (taken (plan.request k) s.master.awDone s.master.wDone)) :
      Progress (.accept k :: beats.map .beat)
  | writeResp {k : κ} {x y : Beat α ω ρ β} (h : s.Carries plan k .writeResp true)
      (hbeats : [x, y].Perm [.aw (plan.request k).aw, .w (plan.request k).w]) :
      Progress [.accept k, .beat x, .beat y]

section

variable {plan i accept s}

/-- The events of an acceptance. -/
def opening (plan : Plan κ π α ω ρ δ ε) (accept : Option κ) : List (Event κ π α ω ρ β δ ε) :=
  (accept.map Event.accept).toList ++ ((accept.bind plan.effect?).map Event.effect).toList

omit [DecidableEq π] in
theorem accepts_events : accepts (s.events plan i accept) = (s.accepted accept).toList := by
  unfold events
  rw [accepts_append, accepts_append, accepts_append, accepts_beats]
  cases s.responding plan <;> cases s.accepted accept with
  | none => rfl
  | some k =>
    rw [Option.bind_some]
    cases plan.effect? k <;> rfl

omit [DecidableEq π] in
theorem responds_events : responds (s.events plan i accept) =
    ((s.responding plan).map fun port => (port, s.rdata port)).toList := by
  unfold events
  rw [responds_append, responds_append, responds_append, responds_beats]
  cases s.responding plan <;> cases s.accepted accept with
  | none => rfl
  | some k =>
    rw [Option.bind_some]
    cases plan.effect? k <;> rfl

omit [DecidableEq π] in
/-- An idle socket answers, and may accept. -/
theorem events_idle (hidle : s.master.phase = .idle) : s.events plan i accept =
    ((s.responding plan).map fun port => Event.respond port (s.rdata port)).toList ++
      opening plan accept := by
  unfold events accepted opening
  rw [if_pos hidle, Master.beats_cycle, hidle]
  simp

omit [DecidableEq π] in
/-- During a transfer the events are its handshakes. -/
theorem Carries.events_eq {k : κ} {phase : Phase} {write : Bool} (h : s.Carries plan k phase write)
    (hbusy : phase ≠ .idle) :
    s.events plan i accept = (s.master.cycle i).beats.map Event.beat := by
  have hphase : s.master.phase ≠ .idle := h.phase ▸ hbusy
  simp [events, accepted, responding, hphase, h.answered]

/-- An idle cycle opens the service of what it accepts. -/
theorem progress_opening (hidle : s.master.phase = .idle) :
    (s.next plan i accept).Progress plan (opening plan accept : List (Event κ π α ω ρ β δ ε)) := by
  cases accept with
  | none =>
    refine .rest ?_ ?_
    · simp [next, started, accepted, Master.next, hidle]
    · simp [next, accepted, hidle]
  | some k =>
    cases heffect : plan.effect? k with
    | some e =>
      have hopening : opening plan (some k) =
          ([.accept k, .effect e] : List (Event κ π α ω ρ β δ ε)) := by
        simp [opening, heffect]
      rw [hopening]
      refine .answered ?_ ?_ ?_ (.effect heffect _)
      · simp [next, started, accepted, Master.next, hidle, heffect]
      · simp [next, accepted, hidle, heffect]
      · simp [next, accepted, hidle]
    | none =>
      have hopening : opening plan (some k) = ([.accept k] : List (Event κ π α ω ρ β δ ε)) := by
        simp [opening, heffect]
      have hnext : s.master.next i (s.started plan (some k)) =
          ⟨if (plan.request k).write then .writeAddrData else .readAddr, plan.request k, false,
            false⟩ := by
        simp [started, accepted, Master.next, hidle, heffect]
      rw [hopening]
      cases hwrite : (plan.request k).write with
      | true =>
        rw [hwrite] at hnext
        show Progress plan _ (.accept k :: ([] : List (Beat α ω ρ β)).map .beat)
        refine .writeAddrData ⟨?_, ?_, ?_, ?_, heffect, hwrite⟩ ?_
        all_goals simp [next, accepted, hnext, hidle, heffect, taken]
      | false =>
        rw [hwrite] at hnext
        refine .readAddr ⟨?_, ?_, ?_, ?_, heffect, hwrite⟩
        all_goals simp [next, accepted, hnext, hidle, heffect]

/-- The part of a cycle of a transfer that does not end it. -/
theorem Carries.next {k : κ} {phase phase' : Phase} {write : Bool} (h : s.Carries plan k phase write)
    (hbusy : phase ≠ .idle) (hphase : (s.master.next i (s.started plan accept)).phase = phase')
    (hread : ¬(phase = .readData ∧ i.rvalid)) (hwrite : ¬(phase = .writeResp ∧ i.bvalid)) :
    (s.next plan i accept).Carries plan k phase' write where
  phase := hphase
  serving := by simp [Server.next, accepted, h.phase, hbusy, h.serving]
  answered := by
    have hrvalid : (s.master.phase == .readData && i.rvalid) = false := by
      simpa [h.phase] using hread
    have hbvalid : (s.master.phase == .writeResp && i.bvalid) = false := by
      simpa [h.phase] using hwrite
    unfold Server.next accepted
    rw [if_neg (h.phase ▸ hbusy), hrvalid, hbvalid]
    rfl
  shown := by
    rw [← h.shown]
    unfold Server.next Master.next
    rw [h.phase]
    cases phase with
    | idle => exact absurd rfl hbusy
    | readAddr => cases i.arready <;> rfl
    | readData => cases i.rvalid <;> rfl
    | writeAddrData => rfl
    | writeResp => cases i.bvalid <;> rfl
  effect := h.effect
  write := h.write

/-- A cycle without a response goes on with the service under way, or begins one. -/
theorem progress_goes {current : List (Event κ π α ω ρ β δ ε)} (h : s.Progress plan current)
    (hquiet : s.answered = false) :
    (s.next plan i accept).Progress plan (current ++ s.events plan i accept) := by
  cases h with
  | rest hidle hanswered =>
    rw [events_idle hidle]
    simpa [responding, hanswered] using progress_opening hidle
  | answered _ hanswered =>
    rw [hquiet] at hanswered
    cases hanswered
  | @readAddr k h =>
    have hevents : s.events plan i accept = _ := h.events_eq (by decide)
    rw [Master.beats_cycle, h.phase] at hevents
    cases hready : i.arready with
    | true =>
      rw [hready, h.shown] at hevents
      rw [hevents]
      refine .readData (h.next ?_ ?_ ?_ ?_)
      all_goals simp [Master.next, h.phase, hready]
    | false =>
      rw [hready] at hevents
      rw [hevents]
      refine .readAddr (h.next ?_ ?_ ?_ ?_)
      all_goals simp [Master.next, h.phase, hready]
  | @readData k h =>
    have hevents : s.events plan i accept = _ := h.events_eq (by decide)
    rw [Master.beats_cycle, h.phase] at hevents
    cases hvalid : i.rvalid with
    | true =>
      rw [hvalid] at hevents
      rw [hevents]
      refine .answered (k := k) ?_ ?_ ?_ ?_
      · simp [next, Master.next, h.phase, hvalid]
      · simp [next, h.phase, hvalid]
      · simp [next, accepted, h.phase, h.serving]
      · have hrdata : (s.next plan i accept).rdata (plan.port k) = plan.reads k i.r := by
          simp [next, h.phase, hvalid, h.serving]
        rw [hrdata]
        exact .read h.effect h.write i.r
    | false =>
      rw [hvalid] at hevents
      rw [hevents]
      refine .readData (h.next ?_ ?_ ?_ ?_)
      all_goals simp [Master.next, h.phase, hvalid]
  | @writeAddrData k beats h hbeats =>
    have hevents : s.events plan i accept = _ := h.events_eq (by decide)
    rw [Master.beats_cycle, h.phase, h.shown] at hevents
    change _ = (taken (plan.request k) (!s.master.awDone && i.awready)
      (!s.master.wDone && i.wready)).map Event.beat at hevents
    have hbeats' := (hbeats.append_right _).trans
      (taken_append (plan.request k) s.master.awDone s.master.wDone i.awready i.wready)
    rw [hevents, List.cons_append, ← List.map_append]
    cases hboth : (s.master.awDone || i.awready) && (s.master.wDone || i.wready) with
    | true =>
      -- AW and W are both through.
      rw [Bool.and_eq_true] at hboth
      rw [hboth.1, hboth.2] at hbeats'
      obtain ⟨x, y, hxy⟩ := List.length_eq_two.mp hbeats'.length_eq
      rw [hxy] at hbeats' ⊢
      refine .writeResp (h.next ?_ ?_ ?_ ?_) hbeats'
      all_goals simp [Master.next, h.phase, hboth.1, hboth.2]
    | false =>
      refine .writeAddrData (h.next ?_ ?_ ?_ ?_) ?_
      · decide
      · simp only [Master.next, h.phase, hboth]
        rfl
      · simp
      · simp
      · simpa [next, Master.next, h.phase] using hbeats'
  | @writeResp k x y h hbeats =>
    have hevents : s.events plan i accept = _ := h.events_eq (by decide)
    rw [Master.beats_cycle, h.phase] at hevents
    cases hvalid : i.bvalid with
    | true =>
      rw [hvalid] at hevents
      rw [hevents]
      refine .answered (k := k) ?_ ?_ ?_ ?_
      · simp [next, Master.next, h.phase, hvalid]
      · simp [next, h.phase, hvalid]
      · simp [next, accepted, h.phase, h.serving]
      · exact .write h.effect h.write hbeats i.b _
    | false =>
      rw [hvalid] at hevents
      rw [hevents]
      refine .writeResp (h.next ?_ ?_ ?_ ?_) hbeats
      all_goals simp [Master.next, h.phase, hvalid]

/-- A cycle with a response ends the service under way, and may begin another one. -/
theorem Progress.answers {current : List (Event κ π α ω ρ β δ ε)} (h : s.Progress plan current)
    (i : SlaveSide ρ β) (accept : Option κ) (hanswered : s.answered = true) : s.master.phase = .idle ∧ ∃ k, s.serving = some k ∧
      Serves plan k (current ++ [.respond (plan.port k) (s.rdata (plan.port k))]) ∧
      s.events plan i accept =
        .respond (plan.port k) (s.rdata (plan.port k)) :: opening plan accept ∧
      (s.next plan i accept).Progress plan
        (opening plan accept : List (Event κ π α ω ρ β δ ε)) := by
  cases h with
  | rest _ hquiet =>
    rw [hanswered] at hquiet
    cases hquiet
  | answered hidle _ hserving hserves =>
    refine ⟨hidle, _, hserving, hserves, ?_, progress_opening hidle⟩
    rw [events_idle hidle]
    simp [responding, hanswered, hserving]
  | readAddr h => exact absurd (hanswered.symm.trans h.answered) (by decide)
  | readData h => exact absurd (hanswered.symm.trans h.answered) (by decide)
  | writeAddrData h => exact absurd (hanswered.symm.trans h.answered) (by decide)
  | writeResp h => exact absurd (hanswered.symm.trans h.answered) (by decide)

omit [DecidableEq π] in
/-- Nothing is under way in an idle server without a response. -/
theorem Progress.eq_nil {current : List (Event κ π α ω ρ β δ ε)} (h : s.Progress plan current)
    (hidle : s.master.phase = .idle) (hresponding : s.responding plan = none) : current = [] := by
  cases h with
  | rest => rfl
  | answered _ hanswered hserving =>
    simp [responding, hanswered, hserving] at hresponding
  | readAddr h => exact absurd (hidle.symm.trans h.phase) (by decide)
  | readData h => exact absurd (hidle.symm.trans h.phase) (by decide)
  | writeAddrData h => exact absurd (hidle.symm.trans h.phase) (by decide)
  | writeResp h => exact absurd (hidle.symm.trans h.phase) (by decide)

/-- A cycle goes on with the service under way, or ends it and may begin another one. -/
theorem progress_next {current : List (Event κ π α ω ρ β δ ε)} (h : s.Progress plan current) :
    ∃ (done : List (Service β plan)) (current' : List (Event κ π α ω ρ β δ ε)),
      current ++ s.events plan i accept = done.flatMap Service.events ++ current' ∧
        (s.next plan i accept).Progress plan current' := by
  cases hanswered : s.answered with
  | false => exact ⟨[], _, rfl, progress_goes h hanswered⟩
  | true =>
    obtain ⟨-, k, -, hserves, hevents, hnext⟩ := h.answers i accept hanswered
    refine ⟨[⟨k, _, hserves⟩], opening plan accept, ?_, hnext⟩
    simp [hevents]

/-! ## 4. Runs -/

omit [DecidableEq π] in
/-- What is under way can still become a service. -/
theorem Progress.begun [Inhabited ρ] [Inhabited β] {current : List (Event κ π α ω ρ β δ ε)}
    (h : s.Progress plan current) : Begun plan current := by
  cases h with
  | rest => exact .inl rfl
  | answered _ _ _ hserves => exact .inr ⟨⟨_, _, hserves⟩, _, by simp, rfl⟩
  | readAddr h => exact .inr ⟨⟨_, _, .read h.effect h.write default⟩, _, List.cons_ne_nil _ _, rfl⟩
  | readData h => exact .inr ⟨⟨_, _, .read h.effect h.write default⟩, _, List.cons_ne_nil _ _, rfl⟩
  | @writeAddrData k beats h hbeats =>
    -- The beats still to come, in the order AW, W.
    have hrest := (hbeats.append_right _).trans
      (taken_append (plan.request k) s.master.awDone s.master.wDone true true)
    rw [Bool.or_true, Bool.or_true] at hrest
    obtain ⟨x, y, hxy⟩ := List.length_eq_two.mp hrest.length_eq
    rw [hxy] at hrest
    refine .inr ⟨⟨k, _, .write h.effect h.write hrest default (s.rdata (plan.port k))⟩,
      (taken (plan.request k) (!s.master.awDone && true) (!s.master.wDone && true)).map .beat ++
        [.beat (.b default), .respond (plan.port k) (s.rdata (plan.port k))], by simp, ?_⟩
    rw [List.cons_append, ← List.append_assoc, ← List.map_append, hxy]
    rfl
  | @writeResp k x y h hbeats =>
    exact .inr ⟨⟨k, _, .write h.effect h.write hbeats default (s.rdata (plan.port k))⟩, _,
      List.cons_ne_nil _ _, rfl⟩

/-- What the past events tell about the state. -/
def Served (plan : Plan κ π α ω ρ δ ε) (past : List (List (Event κ π α ω ρ β δ ε)))
    (s : Server κ π α ω δ) : Prop :=
  ∃ (done : List (Service β plan)) (current : List (Event κ π α ω ρ β δ ε)),
    past.flatten = done.flatMap Service.events ++ current ∧ s.Progress plan current

/-- Every run leaves complete services behind it, and at most one under way. -/
theorem served (plan : Plan κ π α ω ρ δ ε) (shown : Request α ω) (rdata : π → δ)
    (inputs : List (SlaveSide ρ β × Option κ)) :
    Served plan ((machine β plan).trace (start shown rdata) inputs)
      ((machine β plan).run (start shown rdata) inputs) := by
  refine (machine β plan).trace_induct ?_ ⟨[], [], rfl, .rest rfl rfl⟩ inputs
  rintro past s i ⟨done, current, hpast, hprogress⟩
  obtain ⟨more, current', hevents, hnext⟩ : ∃ (more : List (Service β plan)) (current' : _),
      current ++ s.events plan i.1 i.2 = more.flatMap Service.events ++ current' ∧
        (s.next plan i.1 i.2).Progress plan current' := progress_next hprogress
  refine ⟨done ++ more, current', ?_, hnext⟩
  have hout : (machine β plan).out i s = s.events plan i.1 i.2 := rfl
  rw [List.flatten_append, hpast, List.flatten_singleton, hout, List.append_assoc, hevents,
    List.flatMap_append, List.append_assoc]

/-- Every run does exactly what its accepted requests ask for. -/
theorem exactlyOnce [Inhabited ρ] [Inhabited β] (plan : Plan κ π α ω ρ δ ε) (shown : Request α ω)
    (rdata : π → δ) (inputs : List (SlaveSide ρ β × Option κ)) :
    ∃ done current, ExactlyOnce plan ((machine β plan).trace (start shown rdata) inputs).flatten
      done current := by
  obtain ⟨done, current, hevents, hprogress⟩ := served (β := β) plan shown rdata inputs
  refine ⟨done, current, ?_⟩
  rw [hevents]
  exact .of_events hprogress.begun

end

/-- The server seen from the slave only. -/
def socketMachine (ρ β : Type) (plan : Plan κ π α ω ρ δ ε) :
    Machine (Server κ π α ω δ) (SlaveSide ρ β × Option κ) (Cycle α ω ρ β) where
  next i := next plan i.1 i.2
  out i s := s.master.cycle i.1

/-- The master in a socket behaves as the master alone. -/
theorem socket_simulates (plan : Plan κ π α ω ρ δ ε) : (socketMachine ρ β plan).Simulates
    (Master.machine α ω ρ β) (fun s m => s.master = m) (fun s i => (i.1, s.started plan i.2)) where
  out := by
    rintro s m i rfl
    rfl
  next := by
    rintro s m i rfl
    rfl

/-- A server keeps the rules of a master. -/
theorem safe (plan : Plan κ π α ω ρ δ ε) (shown : Request α ω) (rdata : π → δ)
    (inputs : List (SlaveSide ρ β × Option κ)) :
    MasterSafe ((socketMachine ρ β plan).trace (start shown rdata) inputs) := by
  have hstart : (start shown rdata : Server κ π α ω δ).master = .start shown := rfl
  rw [(Machine.trace_of_simulates (socket_simulates plan) hstart inputs).1]
  exact Master.safe _ _

end Server

end EccFe.Bus
