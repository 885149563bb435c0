/-
EccFe.Python.Number — `int(value)` and `int(text, 0)`.

A text is read after its blanks are stripped and its decimal digits, of whatever
script, are replaced by ASCII ones. A single `_` may stand between two digits. A
decimal text of more than 4300 digits is refused; hexadecimal, octal and binary
texts are not limited.
-/
import EccFe.Python.Json
import Mathlib.Data.Rat.Floor

namespace EccFe.Python

/-! ## 1. Texts -/

/-- The zero digit of each script with decimal digits, ASCII left out. -/
def decimalZeros : List Nat :=
  [0x660, 0x6F0, 0x7C0, 0x966, 0x9E6, 0xA66, 0xAE6, 0xB66, 0xBE6, 0xC66, 0xCE6, 0xD66, 0xDE6,
    0xE50, 0xED0, 0xF20, 0x1040, 0x1090, 0x17E0, 0x1810, 0x1946, 0x19D0, 0x1A80, 0x1A90, 0x1B50,
    0x1BB0, 0x1C40, 0x1C50, 0xA620, 0xA8D0, 0xA900, 0xA9D0, 0xA9F0, 0xAA50, 0xABF0, 0xFF10,
    0x104A0, 0x10D30, 0x11066, 0x110F0, 0x11136, 0x111D0, 0x112F0, 0x11450, 0x114D0, 0x11650,
    0x116C0, 0x11730, 0x118E0, 0x11950, 0x11C50, 0x11D50, 0x11DA0, 0x16A60, 0x16AC0, 0x16B50,
    0x1D7CE, 0x1D7D8, 0x1D7E2, 0x1D7EC, 0x1D7F6, 0x1E140, 0x1E2F0, 0x1E950, 0x1FBF0]

def asciiDigit (c : Char) : Char :=
  match decimalZeros.find? fun z => z ≤ c.toNat && c.toNat < z + 10 with
  | some z => Char.ofNat ('0'.toNat + (c.toNat - z))
  | none => c

/-- The value of a digit below `base`, in either case. -/
def digitBelow (base : Nat) (c : Char) : Option Nat :=
  let value :=
    if isDigit c then c.toNat - '0'.toNat
    else if 'a' ≤ c && c ≤ 'z' then c.toNat - 'a'.toNat + 10
    else if 'A' ≤ c && c ≤ 'Z' then c.toNat - 'A'.toNat + 10
    else 36
  if value < base then some value else none

/-- One or more digits, with single underscores between them. -/
def digitRun (base : Nat) : List Char → Option (List Nat)
  | [] => none
  | [c] => (digitBelow base c).map ([·])
  | c :: '_' :: rest =>
      match digitBelow base c, digitRun base rest with
      | some d, some ds => some (d :: ds)
      | _, _ => none
  | c :: rest =>
      match digitBelow base c, digitRun base rest with
      | some d, some ds => some (d :: ds)
      | _, _ => none

def ofDigits (base : Nat) (ds : List Nat) : Nat := ds.foldl (fun n d => base * n + d) 0

def maxStrDigits : Nat := 4300

def decimalNat (cs : List Char) : Option Nat :=
  match digitRun 10 cs with
  | some ds => if maxStrDigits < ds.length then none else some (ofDigits 10 ds)
  | none => none

def splitSign : List Char → Bool × List Char
  | '-' :: rest => (true, rest)
  | '+' :: rest => (false, rest)
  | cs => (false, cs)

def signed (negative : Bool) (n : Nat) : Int := if negative then -n else n

/-- `int(text)`; `none` is the `ValueError`. -/
def intOfText (text : String) : Option Int :=
  let (negative, body) := splitSign ((stripBy isSpace text.toList).map asciiDigit)
  (decimalNat body).map (signed negative)

/-- `0x_1f`: an underscore may follow the prefix. -/
def prefixedNat (base : Nat) : List Char → Option Nat
  | '_' :: rest => (digitRun base rest).map (ofDigits base)
  | rest => (digitRun base rest).map (ofDigits base)

/-- The digits of a base-0 text: the prefix names the base, and a decimal number
other than zero has no leading zero. -/
def literalNat (cs : List Char) : Option Nat :=
  match cs with
  | '0' :: 'x' :: rest => prefixedNat 16 rest
  | '0' :: 'X' :: rest => prefixedNat 16 rest
  | '0' :: 'o' :: rest => prefixedNat 8 rest
  | '0' :: 'O' :: rest => prefixedNat 8 rest
  | '0' :: 'b' :: rest => prefixedNat 2 rest
  | '0' :: 'B' :: rest => prefixedNat 2 rest
  | '0' :: _ =>
      match decimalNat cs with
      | some 0 => some 0
      | _ => none
  | _ => decimalNat cs

/-- `int(text, 0)`; `none` is the `ValueError`. -/
def intOfLiteral (text : String) : Option Int :=
  let (negative, body) := splitSign ((stripBy isSpace text.toList).map asciiDigit)
  (literalNat body).map (signed negative)

/-! ### Decimal texts -/

theorem isDigit_iff {c : Char} : isDigit c = true ↔ 48 ≤ c.toNat ∧ c.toNat ≤ 57 := by
  rw [isDigit, Bool.and_eq_true, decide_eq_true_eq, decide_eq_true_eq, Char.le_def, Char.le_def,
    UInt32.le_iff_toNat_le, UInt32.le_iff_toNat_le]
  rfl

theorem isSpace_of_isDigit {c : Char} (h : isDigit c = true) : isSpace c = false := by
  have hbounds := isDigit_iff.mp h
  simp only [isSpace, Bool.or_eq_false_iff, Bool.and_eq_false_iff, decide_eq_false_iff_not,
    beq_eq_false_iff_ne]
  omega

theorem asciiDigit_of_isDigit {c : Char} (h : isDigit c = true) : asciiDigit c = c := by
  have hzeros : ∀ z ∈ decimalZeros, 58 ≤ z := by decide
  have hnone : (decimalZeros.find? fun z => z ≤ c.toNat && c.toNat < z + 10) = none := by
    rw [List.find?_eq_none]
    intro z hz
    have hz' := hzeros z hz
    have hc := (isDigit_iff.mp h).2
    simp only [Bool.and_eq_true, decide_eq_true_eq, not_and]
    omega
  rw [asciiDigit, hnone]

theorem digitBelow_of_isDigit {c : Char} (h : isDigit c = true) :
    digitBelow 10 c = some (digitValue c) := by
  have hbounds := isDigit_iff.mp h
  have hzero : '0'.toNat = 48 := rfl
  simp only [digitBelow, h, if_true, digitValue, hzero]
  rw [if_pos (by omega)]

theorem digitRun_of_isDigit : ∀ {cs : List Char}, cs ≠ [] → cs.all isDigit = true →
    digitRun 10 cs = some (cs.map digitValue)
  | [], h, _ => absurd rfl h
  | [c], _, h => by
      rw [List.all_cons, Bool.and_eq_true] at h
      rw [digitRun, digitBelow_of_isDigit h.1]
      rfl
  | c :: d :: rest, _, h => by
      rw [List.all_cons, Bool.and_eq_true] at h
      have hd : isDigit d = true := by
        have hall := h.2
        rw [List.all_cons, Bool.and_eq_true] at hall
        exact hall.1
      have hunderscore : d ≠ '_' := by
        intro heq
        rw [heq] at hd
        revert hd
        decide
      have ih := digitRun_of_isDigit (List.cons_ne_nil d rest) h.2
      rw [digitRun.eq_4 _ _ _ (by simp) (by simpa using hunderscore), digitBelow_of_isDigit h.1, ih]
      rfl

/-- Of a text of decimal digits nothing is stripped, and no sign is read. -/
theorem splitSign_of_isDigit {cs : List Char} (h : cs.all isDigit = true) :
    splitSign ((stripBy isSpace cs).map asciiDigit) = (false, cs) := by
  have hall := List.all_eq_true.mp h
  have hstrip : stripBy isSpace cs = cs := stripBy_of_forall fun c hc => isSpace_of_isDigit (hall c hc)
  have hascii : cs.map asciiDigit = cs := by
    rw [List.map_congr_left fun c hc => asciiDigit_of_isDigit (hall c hc), List.map_id']
  rw [hstrip, hascii]
  cases cs with
  | nil => rfl
  | cons c rest =>
    have hc := hall c List.mem_cons_self
    have hminus : c ≠ '-' := fun heq => by
      rw [heq] at hc
      exact absurd hc (by decide)
    have hplus : c ≠ '+' := fun heq => by
      rw [heq] at hc
      exact absurd hc (by decide)
    exact splitSign.eq_3 _ (fun _ => by simp [hminus]) (fun _ => by simp [hplus])

/-- A text of decimal digits is read as its value. -/
theorem intOfText_of_isDigit {cs : List Char} (hne : cs ≠ []) (h : cs.all isDigit = true)
    (hlength : cs.length ≤ maxStrDigits) :
    intOfText (String.ofList cs) = some (digitsValue cs : Int) := by
  have hvalue : ofDigits 10 (cs.map digitValue) = digitsValue cs := by
    rw [ofDigits, digitsValue, List.foldl_map]
  rw [intOfText, String.toList_ofList, splitSign_of_isDigit h]
  dsimp only
  rw [decimalNat, digitRun_of_isDigit hne h]
  dsimp only
  rw [if_neg (by rw [List.length_map]; omega), hvalue]
  rfl

/-- A text of decimal digits names no negative number. -/
theorem intOfText_nonneg {cs : List Char} (h : cs.all isDigit = true) {n : Int}
    (hn : intOfText (String.ofList cs) = some n) : 0 ≤ n := by
  rw [intOfText, String.toList_ofList, splitSign_of_isDigit h] at hn
  obtain ⟨m, -, rfl⟩ := Option.map_eq_some_iff.mp hn
  exact Int.natCast_nonneg m

/-! ## 2. Values -/

inductive NumberError where
  | typeError
  | valueError
  | overflowError
  deriving DecidableEq

/-- Towards zero, as `int(x)` of a float. -/
def truncRat (q : ℚ) : Int := if q < 0 then -⌊-q⌋ else ⌊q⌋

/-- `int(value)`. -/
def Json.toInt : Json → Except NumberError Int
  | .int n => .ok n
  | .bool b => .ok (if b then 1 else 0)
  | .float x =>
      match x.toRat? with
      | some q => .ok (truncRat q)
      | none => .error (if x.text = "NaN" then .valueError else .overflowError)
  | .str s =>
      match intOfText s with
      | some n => .ok n
      | none => .error .valueError
  | .null | .arr _ | .obj _ => .error .typeError

/-- `int(value)` where `TypeError` and `ValueError` are caught. -/
def Json.toIntCaught (default : Int) (v : Json) : Except NumberError Int :=
  match v.toInt with
  | .ok n => .ok n
  | .error .overflowError => .error .overflowError
  | .error _ => .ok default

/-! ## 3. Calls that may raise -/

theorem bind_eq_ok {ε α β : Type} {x : Except ε α} {f : α → Except ε β} {b : β} :
    x >>= f = .ok b ↔ ∃ a, x = .ok a ∧ f a = .ok b := by
  cases x with
  | error e => exact ⟨fun h => (by cases h), fun ⟨a, h, _⟩ => (by cases h)⟩
  | ok a => exact ⟨fun h => ⟨a, rfl, h⟩, fun ⟨a', ha, h⟩ => (by cases ha; exact h)⟩

theorem map_eq_ok {ε α β : Type} {x : Except ε α} {f : α → β} {b : β} :
    x.map f = .ok b ↔ ∃ a, x = .ok a ∧ f a = b := by
  cases x with
  | error e => simp [Except.map]
  | ok a => simp [Except.map]

example : intOfText " -1_000 " = some (-1000) := by decide
example : intOfLiteral "0x80" = some 128 := by decide
example : intOfLiteral "012" = none := by decide

end EccFe.Python
