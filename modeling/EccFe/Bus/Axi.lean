/-
EccFe.Bus.Axi — what an AXI master with single-beat transfers must keep.

A run is a list of cycles, each with the handshake signals of the five channels and
their payloads. The rules are those of a master that has one transfer at a time.
-/
import Mathlib.Data.List.Chain
import Mathlib.Data.List.Perm.Subperm

namespace EccFe.Bus

/-! ## 1. Cycles -/

/-- The channels in one cycle: `α` is the payload of AR and AW, `ω` of W, `ρ` of R and
`β` of B. -/
structure Cycle (α ω ρ β : Type) where
  awvalid : Bool
  awready : Bool
  aw : α
  wvalid : Bool
  wready : Bool
  w : ω
  bvalid : Bool
  bready : Bool
  b : β
  arvalid : Bool
  arready : Bool
  ar : α
  rvalid : Bool
  rready : Bool
  r : ρ

/-- A handshake with its payload. -/
inductive Beat (α ω ρ β : Type) where
  | ar (address : α)
  | r (data : ρ)
  | aw (address : α)
  | w (data : ω)
  | b (response : β)
  deriving DecidableEq

inductive ReadBeat where
  | ar
  | r
  deriving DecidableEq

inductive WriteBeat where
  | aw
  | w
  | b
  deriving DecidableEq

variable {α ω ρ β : Type}

namespace Cycle

/-- The handshakes of a cycle. -/
def beats (c : Cycle α ω ρ β) : List (Beat α ω ρ β) :=
  (if c.arvalid && c.arready then [.ar c.ar] else []) ++
    (if c.rvalid && c.rready then [.r c.r] else []) ++
    (if c.awvalid && c.awready then [.aw c.aw] else []) ++
    (if c.wvalid && c.wready then [.w c.w] else []) ++
    (if c.bvalid && c.bready then [.b c.b] else [])

/-- What the master shows in one cycle it still shows in the next one, unless it was taken. -/
structure Holds (c c' : Cycle α ω ρ β) : Prop where
  aw : c.awvalid → ¬c.awready → c'.awvalid ∧ c'.aw = c.aw
  w : c.wvalid → ¬c.wready → c'.wvalid ∧ c'.w = c.w
  ar : c.arvalid → ¬c.arready → c'.arvalid ∧ c'.ar = c.ar

end Cycle

def Beat.read? : Beat α ω ρ β → Option ReadBeat
  | ar _ => some .ar
  | r _ => some .r
  | aw _ | w _ | b _ => none

def Beat.write? : Beat α ω ρ β → Option WriteBeat
  | aw _ => some .aw
  | w _ => some .w
  | b _ => some .b
  | ar _ | r _ => none

def beats (trace : List (Cycle α ω ρ β)) : List (Beat α ω ρ β) := trace.flatMap Cycle.beats

def readBeats (trace : List (Cycle α ω ρ β)) : List ReadBeat := (beats trace).filterMap Beat.read?

def writeBeats (trace : List (Cycle α ω ρ β)) : List WriteBeat :=
  (beats trace).filterMap Beat.write?

/-! ## 2. Rules -/

/-- AR and R strictly alternate, AR first. -/
def Alternate (reads : List ReadBeat) : Prop :=
  ∃ n, reads = (List.replicate n [.ar, .r]).flatten ∨
    reads = (List.replicate n [.ar, .r]).flatten ++ [.ar]

/-- Before every B there are one AW and one W since the B before it. -/
def Rounds (writes : List WriteBeat) : Prop :=
  ∃ (rounds : List (List WriteBeat)) (last : List WriteBeat),
    writes = (rounds.map (· ++ [.b])).flatten ++ last ∧
    (∀ round ∈ rounds, round.Perm [.aw, .w]) ∧ last.Subperm [.aw, .w]

/-- In the cycle after `past` a read is requested, or taken and not answered. -/
def ReadOutstanding (past : List (Cycle α ω ρ β)) (c : Cycle α ω ρ β) : Prop :=
  c.arvalid ∨ (readBeats past).count .r < (readBeats past).count .ar

/-- In the cycle after `past` a write is requested, or taken in part and not answered. -/
def WriteOutstanding (past : List (Cycle α ω ρ β)) (c : Cycle α ω ρ β) : Prop :=
  c.awvalid ∨ c.wvalid ∨ (writeBeats past).count .b < (writeBeats past).count .aw ∨
    (writeBeats past).count .b < (writeBeats past).count .w

/-- The rules of a master that has one transfer at a time. -/
structure MasterSafe (trace : List (Cycle α ω ρ β)) : Prop where
  holds : trace.IsChain Cycle.Holds
  reads : Alternate (readBeats trace)
  writes : Rounds (writeBeats trace)
  apart : ∀ past c rest, trace = past ++ c :: rest →
    ¬(ReadOutstanding past c ∧ WriteOutstanding past c)

/-! ## 3. Beats of an append -/

theorem beats_append (a b : List (Cycle α ω ρ β)) : beats (a ++ b) = beats a ++ beats b :=
  List.flatMap_append

theorem beats_singleton (c : Cycle α ω ρ β) : beats [c] = c.beats := by
  simp [beats]

theorem readBeats_append (a b : List (Cycle α ω ρ β)) :
    readBeats (a ++ b) = readBeats a ++ readBeats b := by
  rw [readBeats, beats_append, List.filterMap_append]
  rfl

theorem writeBeats_append (a b : List (Cycle α ω ρ β)) :
    writeBeats (a ++ b) = writeBeats a ++ writeBeats b := by
  rw [writeBeats, beats_append, List.filterMap_append]
  rfl

end EccFe.Bus
