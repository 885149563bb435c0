/-
EccFe.Bus.Master — a master that carries out one single-beat transfer at a time.

It takes a request when it is idle, shows it until it is taken, and waits for the
answer. `Master.safe`: whatever the requests and the slave do, it keeps the rules of
`Bus.Axi`.
-/
import EccFe.Bus.Axi
import EccFe.Transition.Machine

namespace EccFe.Bus

open Transition

inductive Phase where
  | idle
  | readAddr
  | readData
  | writeAddrData
  | writeResp
  deriving DecidableEq

/-- A transfer, and what the channels carry from then on. -/
structure Request (α ω : Type) where
  write : Bool
  ar : α
  aw : α
  w : ω
  deriving DecidableEq

structure Master (α ω : Type) where
  phase : Phase
  shown : Request α ω
  awDone : Bool
  wDone : Bool

structure SlaveSide (ρ β : Type) where
  awready : Bool
  wready : Bool
  bvalid : Bool
  b : β
  arready : Bool
  rvalid : Bool
  r : ρ

variable {α ω ρ β : Type}

namespace Master

def start (shown : Request α ω) : Master α ω := ⟨.idle, shown, false, false⟩

def cycle (i : SlaveSide ρ β) (s : Master α ω) : Cycle α ω ρ β where
  awvalid := s.phase == .writeAddrData && !s.awDone
  awready := i.awready
  aw := s.shown.aw
  wvalid := s.phase == .writeAddrData && !s.wDone
  wready := i.wready
  w := s.shown.w
  bvalid := i.bvalid
  bready := s.phase == .writeResp
  b := i.b
  arvalid := s.phase == .readAddr
  arready := i.arready
  ar := s.shown.ar
  rvalid := i.rvalid
  rready := s.phase == .readData
  r := i.r

/-- The next state; a request counts only when the master is idle. -/
def next (i : SlaveSide ρ β) (request : Option (Request α ω)) (s : Master α ω) : Master α ω :=
  match s.phase with
  | .idle =>
      match request with
      | none => { s with awDone := false, wDone := false }
      | some q => ⟨if q.write then .writeAddrData else .readAddr, q, false, false⟩
  | .readAddr => if i.arready then { s with phase := .readData } else s
  | .readData => if i.rvalid then { s with phase := .idle } else s
  | .writeAddrData =>
      let awDone := s.awDone || i.awready
      let wDone := s.wDone || i.wready
      { s with
        phase := if awDone && wDone then .writeResp else .writeAddrData
        awDone := awDone
        wDone := wDone }
  | .writeResp => if i.bvalid then { s with phase := .idle } else s

def machine (α ω ρ β : Type) :
    Machine (Master α ω) (SlaveSide ρ β × Option (Request α ω)) (Cycle α ω ρ β) where
  next i := next i.1 i.2
  out i := cycle i.1

/-! ## 1. History -/

/-- The read beats of the transfer under way. -/
def reads (s : Master α ω) : List ReadBeat := if s.phase = .readData then [.ar] else []

/-- The write beats of the transfer under way, in some order. -/
def writes (s : Master α ω) : List WriteBeat :=
  match s.phase with
  | .writeAddrData => (if s.awDone then [.aw] else []) ++ (if s.wDone then [.w] else [])
  | .writeResp => [.aw, .w]
  | _ => []

/-- What the past cycles tell about the state. -/
structure History (past : List (Cycle α ω ρ β)) (s : Master α ω) : Prop where
  holds : past.IsChain Cycle.Holds
  /-- What the last cycle left open is shown again. -/
  shows : ∀ c ∈ past.getLast?, ∀ i : SlaveSide ρ β, c.Holds (s.cycle i)
  reads : ∃ n, readBeats past = (List.replicate n [.ar, .r]).flatten ++ s.reads
  writes : ∃ (rounds : List (List WriteBeat)) (last : List WriteBeat),
    writeBeats past = (rounds.map (· ++ [.b])).flatten ++ last ∧
      (∀ round ∈ rounds, round.Perm [.aw, .w]) ∧ last.Perm s.writes
  apart : ∀ before c rest, past = before ++ c :: rest →
    ¬(ReadOutstanding before c ∧ WriteOutstanding before c)

theorem history_start (shown : Request α ω) :
    History ([] : List (Cycle α ω ρ β)) (start shown) where
  holds := .nil
  shows := by simp
  reads := ⟨0, rfl⟩
  writes := ⟨[], [], rfl, by simp, .refl _⟩
  apart := by simp

/-! ## 2. One cycle -/

section

variable (i : SlaveSide ρ β) (request : Option (Request α ω)) (s : Master α ω)

/-- The handshakes of a cycle, phase by phase. -/
theorem beats_cycle : (s.cycle i).beats =
    match s.phase with
    | .idle => []
    | .readAddr => if i.arready then [.ar s.shown.ar] else []
    | .readData => if i.rvalid then [.r i.r] else []
    | .writeAddrData =>
        (if !s.awDone && i.awready then [.aw s.shown.aw] else []) ++
          (if !s.wDone && i.wready then [.w s.shown.w] else [])
    | .writeResp => if i.bvalid then [.b i.b] else [] := by
  unfold Cycle.beats cycle
  cases s.phase <;> simp

theorem readBeats_cycle : readBeats [s.cycle i] =
    match s.phase with
    | .readAddr => if i.arready then [.ar] else []
    | .readData => if i.rvalid then [.r] else []
    | _ => [] := by
  rw [readBeats, beats_singleton, beats_cycle]
  cases s.phase with
  | idle => rfl
  | readAddr => cases i.arready <;> rfl
  | readData => cases i.rvalid <;> rfl
  | writeAddrData => cases s.awDone <;> cases s.wDone <;> cases i.awready <;> cases i.wready <;> rfl
  | writeResp => cases i.bvalid <;> rfl

theorem writeBeats_cycle : writeBeats [s.cycle i] =
    match s.phase with
    | .writeAddrData =>
        (if !s.awDone && i.awready then [.aw] else []) ++
          (if !s.wDone && i.wready then [.w] else [])
    | .writeResp => if i.bvalid then [.b] else []
    | _ => [] := by
  rw [writeBeats, beats_singleton, beats_cycle]
  cases s.phase with
  | idle => rfl
  | readAddr => cases i.arready <;> rfl
  | readData => cases i.rvalid <;> rfl
  | writeAddrData => cases s.awDone <;> cases s.wDone <;> cases i.awready <;> cases i.wready <;> rfl
  | writeResp => cases i.bvalid <;> rfl

/-- What is shown and not taken is shown in the next cycle. -/
theorem cycle_holds (i' : SlaveSide ρ β) : (s.cycle i).Holds ((s.next i request).cycle i') where
  aw := by
    intro hvalid hready
    simp only [cycle, Bool.and_eq_true, beq_iff_eq, Bool.not_eq_true'] at hvalid hready
    simp [cycle, next, hvalid.1, hvalid.2, hready]
  w := by
    intro hvalid hready
    simp only [cycle, Bool.and_eq_true, beq_iff_eq, Bool.not_eq_true'] at hvalid hready
    simp [cycle, next, hvalid.1, hvalid.2, hready]
  ar := by
    intro hvalid hready
    simp only [cycle, beq_iff_eq] at hvalid hready
    simp [cycle, next, hvalid, hready]

/-- A cycle goes on with the read under way, or ends it. -/
theorem reads_next : ∃ n, s.reads ++ readBeats [s.cycle i] =
    (List.replicate n [.ar, .r]).flatten ++ (s.next i request).reads := by
  rw [readBeats_cycle]
  unfold reads next
  cases hphase : s.phase with
  | idle =>
    refine ⟨0, ?_⟩
    cases request with
    | none => simp
    | some q => cases hwrite : q.write <;> simp [hwrite]
  | readAddr =>
    refine ⟨0, ?_⟩
    cases hready : i.arready <;> simp [hphase]
  | readData =>
    cases hvalid : i.rvalid with
    | true => exact ⟨1, by simp⟩
    | false => exact ⟨0, by simp [hphase]⟩
  | writeAddrData =>
    refine ⟨0, ?_⟩
    cases s.awDone || i.awready <;> cases s.wDone || i.wready <;> rfl
  | writeResp =>
    refine ⟨0, ?_⟩
    cases hvalid : i.bvalid <;> simp [hphase]

/-- A cycle without B adds to the write under way. -/
theorem writes_next (h : ¬(s.phase = .writeResp ∧ i.bvalid)) :
    (s.writes ++ writeBeats [s.cycle i]).Perm (s.next i request).writes := by
  rw [writeBeats_cycle]
  unfold writes next
  cases hphase : s.phase with
  | idle =>
    cases request with
    | none => exact .refl _
    | some q => cases hwrite : q.write <;> simp [hwrite]
  | readAddr => cases hready : i.arready <;> simp [hphase]
  | readData => cases hvalid : i.rvalid <;> simp [hphase]
  | writeAddrData =>
    cases s.awDone <;> cases s.wDone <;> cases i.awready <;> cases i.wready <;>
      simp [List.Perm.swap]
  | writeResp =>
    have hvalid : i.bvalid = false := by
      simpa [hphase] using h
    simp [hphase, hvalid]

end

/-- A master that writes after a busy cycle did so before it. -/
theorem write_of_next {i : SlaveSide ρ β} {request : Option (Request α ω)} {s : Master α ω}
    (hbusy : s.phase ≠ .idle)
    (h : (s.next i request).phase = .writeAddrData ∨ (s.next i request).phase = .writeResp) :
    s.phase = .writeAddrData ∨ s.phase = .writeResp := by
  unfold next at h
  cases hphase : s.phase with
  | idle => exact absurd hphase hbusy
  | readAddr => cases hready : i.arready <;> simp [hphase, hready] at h
  | readData => cases hvalid : i.rvalid <;> simp [hphase, hvalid] at h
  | writeAddrData => exact .inl rfl
  | writeResp => exact .inr rfl

/-! ## 3. Runs -/

theorem count_rounds {rounds : List (List WriteBeat)} (hrounds : ∀ round ∈ rounds, round.Perm [.aw, .w])
    (beat : WriteBeat) : (rounds.map (· ++ [.b])).flatten.count beat = rounds.length := by
  induction rounds with
  | nil => rfl
  | cons round rounds ih =>
    have hround := (hrounds round (by simp)).count_eq beat
    have hrest := ih fun round' h => hrounds round' (by simp [h])
    rw [List.map_cons, List.flatten_cons, List.count_append, List.count_append, hrest, hround]
    cases beat <;> simp [Nat.add_comm]

namespace History

variable {past : List (Cycle α ω ρ β)} {s : Master α ω}

theorem readOutstanding (h : History past s) {i : SlaveSide ρ β}
    (hout : ReadOutstanding past (s.cycle i)) : s.phase = .readAddr ∨ s.phase = .readData := by
  obtain ⟨n, hreads⟩ := h.reads
  rcases hout with hvalid | hcount
  · exact .inl (by simpa [cycle] using hvalid)
  · by_contra hphase
    rw [not_or] at hphase
    rw [hreads, Master.reads, if_neg hphase.2] at hcount
    simp [List.count_flatten] at hcount

theorem writeOutstanding (h : History past s) {i : SlaveSide ρ β}
    (hout : WriteOutstanding past (s.cycle i)) :
    s.phase = .writeAddrData ∨ s.phase = .writeResp := by
  obtain ⟨rounds, last, hwrites, hrounds, hlast⟩ := h.writes
  by_contra hphase
  rw [not_or] at hphase
  have hnone : s.writes = [] := by
    unfold Master.writes
    cases hp : s.phase with
    | writeAddrData => exact absurd hp hphase.1
    | writeResp => exact absurd hp hphase.2
    | _ => rfl
  rw [hnone, List.perm_nil] at hlast
  rw [hlast, List.append_nil] at hwrites
  unfold WriteOutstanding at hout
  rw [hwrites, count_rounds hrounds, count_rounds hrounds, count_rounds hrounds] at hout
  simp [cycle, hphase.1] at hout

/-- A cycle keeps the history. -/
theorem next (h : History past s) (i : SlaveSide ρ β) (request : Option (Request α ω)) :
    History (past ++ [s.cycle i]) (s.next i request) where
  holds := by
    rw [List.isChain_append]
    refine ⟨h.holds, .singleton _, fun c hc c' hc' => ?_⟩
    cases hc'
    exact h.shows c hc i
  shows := by
    intro c hc i'
    rw [List.getLast?_concat] at hc
    cases hc
    exact s.cycle_holds i request i'
  reads := by
    obtain ⟨n, hreads⟩ := h.reads
    obtain ⟨k, hnext⟩ := s.reads_next i request
    refine ⟨n + k, ?_⟩
    rw [readBeats_append, hreads, List.append_assoc, hnext, List.replicate_add, List.flatten_append,
      List.append_assoc]
  writes := by
    obtain ⟨rounds, last, hwrites, hrounds, hlast⟩ := h.writes
    by_cases hanswer : s.phase = .writeResp ∧ i.bvalid
    · -- B ends the round under way.
      refine ⟨rounds ++ [last], [], ?_, ?_, ?_⟩
      · rw [writeBeats_append, hwrites, writeBeats_cycle]
        simp [hanswer.1, hanswer.2]
      · intro round hround
        rcases List.mem_append.mp hround with hold | hnew
        · exact hrounds round hold
        · rw [List.mem_singleton.mp hnew]
          simpa [Master.writes, hanswer.1] using hlast
      · simp [Master.writes, Master.next, hanswer.1, hanswer.2]
    · refine ⟨rounds, last ++ writeBeats [s.cycle i], ?_, hrounds, ?_⟩
      · rw [writeBeats_append, hwrites, List.append_assoc]
      · exact (hlast.append_right _).trans (s.writes_next i request hanswer)
  apart := by
    intro before c rest heq ⟨hread, hwrite⟩
    rcases List.eq_nil_or_concat rest with rfl | ⟨rest, c', rfl⟩
    · obtain ⟨rfl, hc⟩ := List.append_inj' heq rfl
      cases hc
      rcases h.readOutstanding hread with hp | hp <;>
        rcases h.writeOutstanding hwrite with hp' | hp' <;> rw [hp] at hp' <;> cases hp'
    · rw [List.concat_eq_append, ← List.cons_append, ← List.append_assoc] at heq
      obtain ⟨heq, -⟩ := List.append_inj' heq rfl
      exact h.apart before c rest heq ⟨hread, hwrite⟩

theorem masterSafe (h : History past s) : MasterSafe past where
  holds := h.holds
  reads := by
    obtain ⟨n, hreads⟩ := h.reads
    refine ⟨n, ?_⟩
    rw [hreads, Master.reads]
    split
    · exact .inr rfl
    · exact .inl (List.append_nil _)
  writes := by
    obtain ⟨rounds, last, hwrites, hrounds, hlast⟩ := h.writes
    refine ⟨rounds, last, hwrites, hrounds, hlast.subperm.trans ?_⟩
    unfold Master.writes
    split
    · cases s.awDone <;> cases s.wDone <;> decide
    · exact .refl _
    · exact List.nil_subperm
  apart := h.apart

end History

/-- Whatever is requested and whatever the slave does, the rules are kept. -/
theorem safe (shown : Request α ω) (inputs : List (SlaveSide ρ β × Option (Request α ω))) :
    MasterSafe ((machine α ω ρ β).trace (start shown) inputs) := by
  have h : History ((machine α ω ρ β).trace (start shown) inputs) _ :=
    (machine α ω ρ β).trace_induct (fun _ _ i h => h.next i.1 i.2) (history_start shown) inputs
  exact h.masterSafe

end Master

end EccFe.Bus
