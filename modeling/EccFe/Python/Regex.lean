/-
EccFe.Python.Regex — a backtracking matcher with the meaning of Python's `re`.

`ends r c` lists the places where a match of `r` that starts at `c` can stop, the
one `re` tries first in front. So the match `re` finds is the head of the list,
greedy and lazy repetition differ in the order alone, and what holds of every
match is read off membership (`mem_ends_seq`, `mem_ends_group`, …).

A repetition passes over rounds that match nothing, so it takes at most one round
for each character left; that number is the fuel of `repeatEnds`.

Assertions look at the character before and the text after. `\b` needs to know
which characters are word characters: `wordBoundary` takes the class.
-/
import EccFe.Python.Text

namespace EccFe.Python

/-! ## 1. Patterns -/

inductive Regex where
  | empty
  | char (p : Char → Bool)
  | seq (r s : Regex)
  | alt (r s : Regex)
  | star (greedy : Bool) (r : Regex)
  | group (name : String) (r : Regex)
  | assertion (p : Option Char → List Char → Bool)

/-- A place in the text, with what the groups matched on the way there. -/
structure Cursor where
  before : Option Char
  rest : List Char
  groups : List (String × List Char)

namespace Regex

/-- `step` any number of times, at most `fuel`. -/
def repeatEnds (greedy : Bool) (step : Cursor → List Cursor) : Nat → Cursor → List Cursor
  | 0, c => [c]
  | fuel + 1, c =>
      let more := ((step c).filter fun d => d.rest.length < c.rest.length).flatMap
        (repeatEnds greedy step fuel)
      if greedy then more ++ [c] else c :: more

def ends : Regex → Cursor → List Cursor
  | .empty, c => [c]
  | .char p, c =>
      match c.rest with
      | x :: rest => if p x then [{ c with before := some x, rest := rest }] else []
      | [] => []
  | .seq r s, c => (ends r c).flatMap (ends s)
  | .alt r s, c => ends r c ++ ends s c
  | .star greedy r, c => repeatEnds greedy (ends r) c.rest.length c
  | .group name r, c =>
      (ends r c).map fun d =>
        { d with groups := (name, c.rest.take (c.rest.length - d.rest.length)) :: d.groups }
  | .assertion p, c => if p c.before c.rest then [c] else []

/-! ## 2. The usual notation -/

/-- The sequence of the patterns. -/
def cat (rs : List Regex) : Regex := rs.foldr .seq .empty

def text (s : String) : Regex := cat (s.toList.map fun c => .char (· == c))

def plus (r : Regex) : Regex := .seq r (.star true r)

/-- `(?:r)?` -/
def maybe (r : Regex) : Regex := .alt r .empty

/-- Alternatives, tried in order. -/
def oneOf (rs : List Regex) : Regex := rs.foldr .alt (.assertion fun _ _ => false)

def space : Regex := .char isSpace

def digit : Regex := .char isDigit

/-- `.` -/
def any : Regex := .char (· != '\n')

def wordBoundary (isWord : Char → Bool) : Regex :=
  .assertion fun before rest => before.any isWord != rest.head?.any isWord

/-- `^` and `$` with `re.MULTILINE`. -/
def lineStart : Regex := .assertion fun before _ => before.all (· == '\n')

def lineEnd : Regex := .assertion fun _ rest => rest.head?.all (· == '\n')

/-- `^` without it. -/
def textStart : Regex := .assertion fun before _ => before.isNone

/-- One character for each class of case variants that has an ASCII letter. -/
def foldCase (c : Char) : Char :=
  if 'A' ≤ c && c ≤ 'Z' then Char.ofNat (c.toNat + 32)
  else if c.toNat == 0x212A then 'k'
  else if c.toNat == 0x130 || c.toNat == 0x131 then 'i'
  else if c.toNat == 0x17F then 's'
  else c

/-- `text` under `re.IGNORECASE`, for an ASCII text. -/
def textIgnoreCase (s : String) : Regex :=
  cat (s.toList.map fun c => .char (foldCase · == foldCase c))

/-! ## 3. Searching -/

/-- A match, and the text passed over before it. -/
structure Found where
  skipped : List Char
  matched : List Char
  stop : Cursor

def Found.group (m : Found) (name : String) : Option (List Char) := m.stop.groups.lookup name

def Found.of (rest : List Char) (stop : Cursor) : Found where
  skipped := []
  matched := rest.take (rest.length - stop.rest.length)
  stop := stop

/-- `pattern.search`, from a place with `before` in front of it. -/
def findFrom (r : Regex) (before : Option Char) (rest : List Char) : Option Found :=
  match ends r ⟨before, rest, []⟩ with
  | stop :: _ => some (.of rest stop)
  | [] =>
      match rest with
      | [] => none
      | x :: rest => (findFrom r (some x) rest).map fun m => { m with skipped := x :: m.skipped }

def find (r : Regex) (cs : List Char) : Option Found := findFrom r none cs

/-- `pattern.search(text) is not None`. -/
def hits (r : Regex) (cs : List Char) : Bool := (find r cs).isSome

/-- `pattern.match(text)`. -/
def matchStart (r : Regex) (cs : List Char) : Option Found :=
  (ends r ⟨none, cs, []⟩).head?.map (.of cs)

/-- `pattern.fullmatch(text)`. -/
def matchFull (r : Regex) (cs : List Char) : Option Found :=
  ((ends r ⟨none, cs, []⟩).find? (·.rest.isEmpty)).map (.of cs)

/-- `pattern.finditer`, for a pattern that matches no empty text. -/
def findAllFrom (r : Regex) : Nat → Option Char → List Char → List Found
  | 0, _, _ => []
  | fuel + 1, before, rest =>
      match findFrom r before rest with
      | none => []
      | some m => m :: findAllFrom r fuel m.stop.before m.stop.rest

def findAll (r : Regex) (cs : List Char) : List Found := findAllFrom r cs.length none cs

def sub (r : Regex) (replacement cs : List Char) : List Char :=
  let found := findAll r cs
  found.flatMap (fun m => m.skipped ++ replacement) ++ (found.getLast?.map (·.stop.rest)).getD cs

/-! ## 4. What every match does -/

@[simp] theorem mem_ends_empty {c d : Cursor} : d ∈ ends .empty c ↔ d = c := List.mem_singleton

theorem mem_ends_char {p : Char → Bool} {c d : Cursor} :
    d ∈ ends (.char p) c ↔
      ∃ x rest, c.rest = x :: rest ∧ p x = true ∧ d = ⟨some x, rest, c.groups⟩ := by
  rw [ends]
  cases hrest : c.rest with
  | nil => simp
  | cons x rest => by_cases hp : p x = true <;> simp [hp]

theorem mem_ends_seq {r s : Regex} {c e : Cursor} :
    e ∈ ends (.seq r s) c ↔ ∃ d ∈ ends r c, e ∈ ends s d := List.mem_flatMap

theorem mem_ends_alt {r s : Regex} {c d : Cursor} :
    d ∈ ends (.alt r s) c ↔ d ∈ ends r c ∨ d ∈ ends s c := List.mem_append

theorem mem_ends_assertion {p : Option Char → List Char → Bool} {c d : Cursor} :
    d ∈ ends (.assertion p) c ↔ p c.before c.rest = true ∧ d = c := by
  change d ∈ (if p c.before c.rest then [c] else []) ↔ _
  split
  · simp [*]
  · simp [*]

theorem mem_ends_group {name : String} {r : Regex} {c d : Cursor} :
    d ∈ ends (.group name r) c ↔ ∃ e ∈ ends r c,
      d = ⟨e.before, e.rest,
        (name, c.rest.take (c.rest.length - e.rest.length)) :: e.groups⟩ := by
  refine List.mem_map.trans ?_
  constructor
  · rintro ⟨e, he, rfl⟩
    exact ⟨e, he, rfl⟩
  · rintro ⟨e, he, rfl⟩
    exact ⟨e, he, rfl⟩

/-- A property kept by each round of a repetition is kept by the repetition. -/
theorem repeatEnds_induct {greedy : Bool} {step : Cursor → List Cursor} {P : Cursor → Prop}
    (hstep : ∀ c d, P c → d ∈ step c → P d) :
    ∀ (fuel : Nat) {c d : Cursor}, P c → d ∈ repeatEnds greedy step fuel c → P d
  | 0, c, d, hc, hd => by
      obtain rfl := List.mem_singleton.mp hd
      exact hc
  | fuel + 1, c, d, hc, hd => by
      have hsplit : d ∈ ((step c).filter fun d => d.rest.length < c.rest.length).flatMap
          (repeatEnds greedy step fuel) ∨ d = c := by
        rw [repeatEnds] at hd
        split at hd
        · simpa using hd
        · exact (List.mem_cons.mp hd).symm
      rcases hsplit with hmore | rfl
      · obtain ⟨e, he, hde⟩ := List.mem_flatMap.mp hmore
        exact repeatEnds_induct hstep fuel (hstep c e hc (List.mem_filter.mp he).1) hde
      · exact hc

example : hits (cat [wordBoundary isDigit, plus digit, text "px"]) "w=10px".toList = true := by decide
example : sub (cat [text "/*", .star false (.char fun _ => true), text "*/"]) [] "a/*b*/c*/".toList =
    "ac*/".toList := by decide

end Regex

end EccFe.Python
