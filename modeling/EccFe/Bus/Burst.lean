/-
EccFe.Bus.Burst — a slave that serves one read burst and one write burst at a time.

`Rules` says of a burst its id, the index of its last beat and the address of each beat. `Reads`
and `Writes` follow the two directions event by event; `Reads.bursts` and `Writes.bursts` say what
was served when they hold: whole bursts in a row, every beat at its address, and at most one burst
under way.
-/
import Mathlib.Tactic.Common

namespace EccFe.Bus

/-- What happens on the channels, and which access to the memory goes with it. `κ` is a burst, `α`
an address, `ι` an id, `δ` the data of a read beat and `ω` the data of a write beat. -/
inductive BurstEvent (κ α ι δ ω : Type) where
  | ar (burst : κ)
  | load (addr : α) (data : δ)
  | r (id : ι) (data : δ) (last : Bool)
  | aw (burst : κ)
  | w (beat : ω) (last : Bool)
  | store (addr : α) (beat : ω)
  | b (id : ι)

structure BurstRules (κ α ι : Type) where
  id : κ → ι
  /-- The index of the last beat. -/
  last : κ → Nat
  addr : κ → Nat → α

variable {κ α ι δ ω : Type}

def BurstEvent.isRead : BurstEvent κ α ι δ ω → Bool
  | .ar _ | .load _ _ | .r _ _ _ => true
  | .aw _ | .w _ _ | .store _ _ | .b _ => false

variable (rules : BurstRules κ α ι)

/-! ## 1. Reads -/

/-- The beats of a read burst from index `k` on: each is loaded, then taken. -/
def burstReads (burst : κ) (k : Nat) : List δ → List (BurstEvent κ α ι δ ω)
  | [] => []
  | data :: rest =>
      .load (rules.addr burst k) data ::
        .r (rules.id burst) data (k == rules.last burst) :: burstReads burst (k + 1) rest

structure ReadBurst (rules : BurstRules κ α ι) (δ : Type) where
  burst : κ
  data : List δ
  length : data.length = rules.last burst + 1

variable {rules} in
def ReadBurst.events (r : ReadBurst rules δ) : List (BurstEvent κ α ι δ ω) :=
  .ar r.burst :: burstReads rules r.burst 0 r.data

/-- The read events so far, and the beat that is shown: its burst, its index and its data. -/
inductive Reads : List (BurstEvent κ α ι δ ω) → Option (κ × Nat × δ) → Prop
  | nil : Reads [] none
  | start {events} (burst : κ) (data : δ) (h : Reads events none) :
      Reads (events ++ [.ar burst, .load (rules.addr burst 0) data]) (some (burst, 0, data))
  | next {events} {burst : κ} {k : Nat} {data : δ} (data' : δ)
      (h : Reads events (some (burst, k, data))) (hk : k ≠ rules.last burst) :
      Reads (events ++ [.r (rules.id burst) data false, .load (rules.addr burst (k + 1)) data'])
        (some (burst, k + 1, data'))
  | done {events} {burst : κ} {k : Nat} {data : δ}
      (h : Reads events (some (burst, k, data))) (hk : k = rules.last burst) :
      Reads (events ++ [.r (rules.id burst) data true]) none

/-- The beats of the burst under way: `taken`, and the one that is shown. -/
def ReadsUnderWay (events : List (BurstEvent κ α ι δ ω)) : Option (κ × Nat × δ) → Prop
  | none => events = []
  | some (burst, k, data) => k ≤ rules.last burst ∧ ∃ taken : List δ, taken.length = k ∧
      events = .ar burst :: burstReads rules burst 0 taken ++ [.load (rules.addr burst k) data]

theorem burstReads_append (burst : κ) (k : Nat) (first rest : List δ) :
    burstReads (ω := ω) rules burst k (first ++ rest) =
      burstReads rules burst k first ++ burstReads rules burst (k + first.length) rest := by
  induction first generalizing k with
  | nil => simp [burstReads]
  | cons data first ih =>
    simp only [List.cons_append, burstReads, ih, List.length_cons]
    rw [Nat.add_right_comm, ← Nat.add_assoc]

/-- Whole read bursts, then the one under way. -/
theorem Reads.bursts {events : List (BurstEvent κ α ι δ ω)} {shown : Option (κ × Nat × δ)}
    (h : Reads rules events shown) : ∃ (served : List (ReadBurst rules δ)) (rest : _),
      events = served.flatMap ReadBurst.events ++ rest ∧ ReadsUnderWay rules rest shown := by
  induction h with
  | nil => exact ⟨[], [], rfl, rfl⟩
  | start burst data _ ih =>
    obtain ⟨served, rest, rfl, rfl⟩ := ih
    exact ⟨served, [.ar burst, .load (rules.addr burst 0) data], by rw [List.append_nil],
      Nat.zero_le _, [], rfl, rfl⟩
  | @next _ burst k data data' _ hk ih =>
    obtain ⟨served, rest, rfl, hle, taken, rfl, rfl⟩ := ih
    refine ⟨served, _, List.append_assoc .., by omega, taken ++ [data], by simp, ?_⟩
    rw [burstReads_append]
    simp [burstReads, hk]
  | @done _ burst k data _ hk ih =>
    obtain ⟨served, rest, rfl, _, taken, htaken, rfl⟩ := ih
    refine ⟨served ++ [⟨burst, taken ++ [data], by simp [htaken, hk]⟩], [], ?_, rfl⟩
    rw [List.flatMap_append, List.append_nil, List.append_assoc]
    congr 1
    simp [ReadBurst.events, burstReads_append, burstReads, htaken, hk]

/-! ## 2. Writes -/

/-- The beats of a write burst from index `k` on: each is taken and stored at once. -/
def burstWrites (burst : κ) (k : Nat) : List (ω × Bool) → List (BurstEvent κ α ι δ ω)
  | [] => []
  | (beat, last) :: rest =>
      .w beat last :: .store (rules.addr burst k) beat :: burstWrites burst (k + 1) rest

/-- The beats before the last one do not end the burst. -/
def GoesOn (burst : κ) (beats : List (ω × Bool)) : Prop :=
  beats.length ≤ rules.last burst ∧ ∀ beat ∈ beats, beat.2 = false

/-- A write burst: it ends at its last index or where the master says so. -/
structure WriteBurst (rules : BurstRules κ α ι) (ω : Type) where
  burst : κ
  beats : List (ω × Bool)
  final : ω × Bool
  goesOn : GoesOn rules burst beats
  ends : beats.length = rules.last burst ∨ final.2 = true

variable {rules} in
/-- The events of a write burst before its response. -/
def WriteBurst.events (w : WriteBurst rules ω) : List (BurstEvent κ α ι δ ω) :=
  .aw w.burst :: burstWrites rules w.burst 0 (w.beats ++ [w.final])

variable {rules} in
def WriteBurst.answered (w : WriteBurst rules ω) : List (BurstEvent κ α ι δ ω) :=
  w.events ++ [.b (rules.id w.burst)]

/-- Where the write direction is. -/
inductive WriteStage (κ : Type) where
  | idle
  | data (burst : κ) (k : Nat)
  | response (burst : κ)

inductive Writes : List (BurstEvent κ α ι δ ω) → WriteStage κ → Prop
  | nil : Writes [] .idle
  | start {events} (burst : κ) (h : Writes events .idle) :
      Writes (events ++ [.aw burst]) (.data burst 0)
  | next {events} {burst : κ} {k : Nat} (beat : ω) (h : Writes events (.data burst k))
      (hk : k ≠ rules.last burst) :
      Writes (events ++ [.w beat false, .store (rules.addr burst k) beat]) (.data burst (k + 1))
  | final {events} {burst : κ} {k : Nat} (beat : ω) (last : Bool) (h : Writes events (.data burst k))
      (hk : k = rules.last burst ∨ last = true) :
      Writes (events ++ [.w beat last, .store (rules.addr burst k) beat]) (.response burst)
  | done {events} {burst : κ} (h : Writes events (.response burst)) :
      Writes (events ++ [.b (rules.id burst)]) .idle

/-- The events of the burst under way. -/
def WritesUnderWay (events : List (BurstEvent κ α ι δ ω)) : WriteStage κ → Prop
  | .idle => events = []
  | .data burst k => ∃ beats, GoesOn rules burst beats ∧ beats.length = k ∧
      events = .aw burst :: burstWrites rules burst 0 beats
  | .response burst => ∃ w : WriteBurst rules ω, w.burst = burst ∧ events = w.events

theorem burstWrites_append (burst : κ) (k : Nat) (first rest : List (ω × Bool)) :
    burstWrites (δ := δ) rules burst k (first ++ rest) =
      burstWrites rules burst k first ++ burstWrites rules burst (k + first.length) rest := by
  induction first generalizing k with
  | nil => simp [burstWrites]
  | cons beat first ih =>
    simp only [List.cons_append, burstWrites, ih, List.length_cons]
    rw [Nat.add_right_comm, ← Nat.add_assoc]

/-- Whole write bursts with their responses, then the one under way. -/
theorem Writes.bursts {events : List (BurstEvent κ α ι δ ω)} {stage : WriteStage κ}
    (h : Writes rules events stage) : ∃ (served : List (WriteBurst rules ω)) (rest : _),
      events = served.flatMap WriteBurst.answered ++ rest ∧ WritesUnderWay rules rest stage := by
  induction h with
  | nil => exact ⟨[], [], rfl, rfl⟩
  | start burst _ ih =>
    obtain ⟨served, rest, rfl, rfl⟩ := ih
    exact ⟨served, [.aw burst], by rw [List.append_nil], [], ⟨Nat.zero_le _, by simp⟩, rfl, rfl⟩
  | @next _ burst k beat _ hk ih =>
    obtain ⟨served, rest, rfl, beats, ⟨hle, hgo⟩, rfl, rfl⟩ := ih
    refine ⟨served, _, List.append_assoc .., beats ++ [(beat, false)], ⟨?_, ?_⟩, by simp, ?_⟩
    · rw [List.length_append, List.length_singleton]
      omega
    · simpa [List.mem_append, or_imp, forall_and] using hgo
    · rw [burstWrites_append]
      simp [burstWrites]
  | @final _ burst k beat last _ hk ih =>
    obtain ⟨served, rest, rfl, beats, hgo, rfl, rfl⟩ := ih
    refine ⟨served, _, List.append_assoc .., ⟨burst, beats, (beat, last), hgo, hk⟩, rfl, ?_⟩
    simp [WriteBurst.events, burstWrites_append, burstWrites]
  | @done _ burst _ ih =>
    obtain ⟨served, rest, rfl, w, rfl, rfl⟩ := ih
    refine ⟨served ++ [w], [], ?_, rfl⟩
    rw [List.flatMap_append, List.append_nil, List.append_assoc]
    simp [WriteBurst.answered]

end EccFe.Bus
