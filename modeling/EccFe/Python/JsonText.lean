/-
EccFe.Python.JsonText — `json.dumps(value, sort_keys=True, separators=(",", ":"))`
and why it tells two values apart.

`render` writes a value as it stands and `dumps` sorts the keys of every dict
first. Fingerprints hash the text, so "equal fingerprints, equal values" needs
the text to determine the value; `dumps_inj` is that fact, up to the order of
dict items, which `sortKeys` removes.

The proof reads the text back one lexeme at a time and never parses:

* a quoted string is a run of escape units, and `unescape` inverts one unit;
* every other scalar is a maximal run of characters outside the punctuation, so
  two scalars followed by punctuation are the same run (`atom_run`);
* brackets and quotes start lexemes that no scalar can start.
-/
import EccFe.Python.Json
import Mathlib.Data.List.Sort
import Mathlib.Data.Nat.Digits.Lemmas
import Mathlib.Tactic.IntervalCases

namespace EccFe.Python

/-! ## 1. Writing -/

/-- Four lower-case hexadecimal digits. -/
def hex4 (n : Nat) : List Char :=
  [Nat.digitChar (n / 4096 % 16), Nat.digitChar (n / 256 % 16), Nat.digitChar (n / 16 % 16),
    Nat.digitChar (n % 16)]

/-- `ensure_ascii=True`: everything outside the printable ASCII range is written
as `\uXXXX`, beyond the basic plane as a surrogate pair. -/
def escapeChar (c : Char) : List Char :=
  if c = '"' then ['\\', '"']
  else if c = '\\' then ['\\', '\\']
  else if c = '\n' then ['\\', 'n']
  else if c = '\r' then ['\\', 'r']
  else if c = '\t' then ['\\', 't']
  else if c.toNat = 12 then ['\\', 'f']
  else if c.toNat = 8 then ['\\', 'b']
  else if 32 ≤ c.toNat ∧ c.toNat ≤ 126 then [c]
  else if c.toNat < 0x10000 then '\\' :: 'u' :: hex4 c.toNat
  else
    '\\' :: 'u' :: hex4 (0xD800 + (c.toNat - 0x10000) / 1024) ++
      '\\' :: 'u' :: hex4 (0xDC00 + (c.toNat - 0x10000) % 1024)

def escapeText (cs : List Char) : List Char := cs.flatMap escapeChar

def renderString (s : String) : List Char := '"' :: escapeText s.toList ++ ['"']

mutual

def render : Json → List Char
  | .null => "null".toList
  | .bool true => "true".toList
  | .bool false => "false".toList
  | .int n => intText n
  | .float x => x.text.toList
  | .str s => renderString s
  | .arr items => '[' :: renderItems items ++ [']']
  | .obj fields => '{' :: renderFields fields ++ ['}']

def renderItems : List Json → List Char
  | [] => []
  | v :: rest => render v ++ renderMoreItems rest

/-- The items after the first, each with its comma. -/
def renderMoreItems : List Json → List Char
  | [] => []
  | v :: rest => ',' :: (render v ++ renderMoreItems rest)

def renderFields : List (String × Json) → List Char
  | [] => []
  | (k, v) :: rest => renderString k ++ ':' :: (render v ++ renderMoreFields rest)

def renderMoreFields : List (String × Json) → List Char
  | [] => []
  | (k, v) :: rest => ',' :: (renderString k ++ ':' :: (render v ++ renderMoreFields rest))

end

def keyLe (a b : String × Json) : Prop := a.1 ≤ b.1

instance : DecidableRel keyLe := fun a b => inferInstanceAs (Decidable (a.1 ≤ b.1))

mutual

/-- The value with the items of every dict in key order. -/
def sortKeys : Json → Json
  | .arr items => .arr (sortItems items)
  | .obj fields => .obj ((sortFields fields).insertionSort keyLe)
  | v => v

def sortItems : List Json → List Json
  | [] => []
  | v :: rest => sortKeys v :: sortItems rest

def sortFields : List (String × Json) → List (String × Json)
  | [] => []
  | (k, v) :: rest => (k, sortKeys v) :: sortFields rest

end

def dumps (v : Json) : List Char := render (sortKeys v)

example : dumps (.arr [.int 1, .obj [("b", .null), ("a", .str "\n")]]) =
    "[1,\x7b\"a\":\"\\n\",\"b\":null\x7d]".toList := by
  decide

/-! ## 2. Strings -/

def hexValue (c : Char) : Nat :=
  if isDigit c then c.toNat - 48 else c.toNat - 87

def hex4Value (a b c d : Char) : Nat :=
  4096 * hexValue a + 256 * hexValue b + 16 * hexValue c + hexValue d

/-- The character the first escape unit of a text stands for, and what follows. -/
def unescape : List Char → Option (Nat × List Char)
  | '\\' :: 'u' :: a :: b :: c :: d :: rest =>
      let high := hex4Value a b c d
      if 0xD800 ≤ high ∧ high < 0xDC00 then
        match rest with
        | '\\' :: 'u' :: e :: f :: g :: h :: rest =>
            some (0x10000 + 1024 * (high - 0xD800) + (hex4Value e f g h - 0xDC00), rest)
        | _ => none
      else some (high, rest)
  | '\\' :: 'n' :: rest => some (10, rest)
  | '\\' :: 'r' :: rest => some (13, rest)
  | '\\' :: 't' :: rest => some (9, rest)
  | '\\' :: 'f' :: rest => some (12, rest)
  | '\\' :: 'b' :: rest => some (8, rest)
  | '\\' :: c :: rest => some (c.toNat, rest)
  | c :: rest => some (c.toNat, rest)
  | [] => none

theorem hexValue_digitChar {n : Nat} (h : n < 16) : hexValue (Nat.digitChar n) = n := by
  interval_cases n <;> decide

theorem hex4Value_hex4 {n : Nat} (h : n < 65536) :
    hex4Value (Nat.digitChar (n / 4096 % 16)) (Nat.digitChar (n / 256 % 16))
      (Nat.digitChar (n / 16 % 16)) (Nat.digitChar (n % 16)) = n := by
  rw [hex4Value, hexValue_digitChar (by omega), hexValue_digitChar (by omega),
    hexValue_digitChar (by omega), hexValue_digitChar (by omega)]
  omega

/-- Code points are below U+110000 and none is a surrogate. -/
theorem char_bounds (c : Char) :
    c.toNat < 0xD800 ∨ (0xDFFF < c.toNat ∧ c.toNat < 0x110000) := c.valid

/-- A character is written in one of four ways: with a letter that `unescape` knows, as itself, as
one escape unit or as a surrogate pair. -/
theorem escapeChar_cases (c : Char) :
    (∃ d, escapeChar c = ['\\', d] ∧ d.toNat < 128 ∧
      ∀ rest, unescape ('\\' :: d :: rest) = some (c.toNat, rest)) ∨
    (escapeChar c = [c] ∧ c ≠ '"' ∧ c ≠ '\\' ∧ c.toNat ≤ 126) ∨
    (escapeChar c = '\\' :: 'u' :: hex4 c.toNat ∧ c.toNat < 0x10000) ∨
    (escapeChar c = '\\' :: 'u' :: hex4 (0xD800 + (c.toNat - 0x10000) / 1024) ++
      '\\' :: 'u' :: hex4 (0xDC00 + (c.toNat - 0x10000) % 1024) ∧ 0x10000 ≤ c.toNat) := by
  delta escapeChar
  by_cases hquote : c = '"'
  · subst hquote
    exact .inl ⟨'"', if_pos rfl, by decide, fun _ => rfl⟩
  rw [if_neg hquote]
  by_cases hslash : c = '\\'
  · subst hslash
    exact .inl ⟨'\\', if_pos rfl, by decide, fun _ => rfl⟩
  rw [if_neg hslash]
  by_cases hnewline : c = '\n'
  · subst hnewline
    exact .inl ⟨'n', if_pos rfl, by decide, fun _ => rfl⟩
  rw [if_neg hnewline]
  by_cases hreturn : c = '\r'
  · subst hreturn
    exact .inl ⟨'r', if_pos rfl, by decide, fun _ => rfl⟩
  rw [if_neg hreturn]
  by_cases htab : c = '\t'
  · subst htab
    exact .inl ⟨'t', if_pos rfl, by decide, fun _ => rfl⟩
  rw [if_neg htab]
  by_cases hfeed : c.toNat = 12
  · exact .inl ⟨'f', if_pos hfeed, by decide, fun _ => by rw [hfeed]; rfl⟩
  rw [if_neg hfeed]
  by_cases hback : c.toNat = 8
  · exact .inl ⟨'b', if_pos hback, by decide, fun _ => by rw [hback]; rfl⟩
  rw [if_neg hback]
  by_cases hprint : 32 ≤ c.toNat ∧ c.toNat ≤ 126
  · exact .inr (.inl ⟨if_pos hprint, hquote, hslash, hprint.2⟩)
  rw [if_neg hprint]
  by_cases hbasic : c.toNat < 0x10000
  · exact .inr (.inr (.inl ⟨if_pos hbasic, hbasic⟩))
  · exact .inr (.inr (.inr ⟨if_neg hbasic, not_lt.mp hbasic⟩))

/-- A character other than the backslash stands for itself. -/
theorem unescape_cons {c : Char} (h : c ≠ '\\') (rest : List Char) :
    unescape (c :: rest) = some (c.toNat, rest) := by
  rw [unescape.eq_def]
  split <;> simp_all

/-- An escaped character is read back. -/
theorem unescape_escapeChar (c : Char) (rest : List Char) :
    unescape (escapeChar c ++ rest) = some (c.toNat, rest) := by
  have hc := char_bounds c
  obtain ⟨d, hescaped, -, hd⟩ | ⟨hescaped, -, hslash, -⟩ | ⟨hescaped, hbasic⟩ |
    ⟨hescaped, hbeyond⟩ := escapeChar_cases c
  · rw [hescaped]
    exact hd rest
  · rw [hescaped]
    exact unescape_cons hslash rest
  · rw [hescaped]
    simp only [hex4, List.cons_append, List.nil_append, unescape]
    rw [hex4Value_hex4 (by omega), if_neg (by omega)]
  · rw [hescaped]
    simp only [hex4, List.cons_append, List.nil_append, unescape]
    rw [hex4Value_hex4 (n := 0xD800 + (c.toNat - 0x10000) / 1024) (by omega),
      hex4Value_hex4 (n := 0xDC00 + (c.toNat - 0x10000) % 1024) (by omega), if_pos (by omega)]
    simp only [Option.some.injEq, Prod.mk.injEq, and_true]
    omega

/-- No escape unit starts with the closing quote. -/
theorem escapeChar_head (c : Char) (rest tail : List Char) :
    escapeChar c ++ rest ≠ '"' :: tail := by
  intro h
  obtain ⟨d, hescaped, -⟩ | ⟨hescaped, hquote, -⟩ | ⟨hescaped, -⟩ | ⟨hescaped, -⟩ :=
    escapeChar_cases c
  all_goals
    rw [hescaped] at h
    have hhead := (List.cons.inj h).1
  · exact absurd hhead (by decide)
  · exact hquote hhead
  · exact absurd hhead (by decide)
  · exact absurd hhead (by decide)

/-- The text up to the closing quote determines the string. -/
theorem escapeText_inj : ∀ (cs ds r s : List Char),
    escapeText cs ++ '"' :: r = escapeText ds ++ '"' :: s → cs = ds ∧ r = s
  | [], [], r, s, h => by simpa [escapeText] using h
  | [], d :: ds, r, s, h => by
      simp only [escapeText, List.flatMap_cons, List.append_assoc, List.flatMap_nil,
        List.nil_append] at h
      exact absurd h.symm (escapeChar_head d _ _)
  | c :: cs, [], r, s, h => by
      simp only [escapeText, List.flatMap_cons, List.append_assoc, List.flatMap_nil,
        List.nil_append] at h
      exact absurd h (escapeChar_head c _ _)
  | c :: cs, d :: ds, r, s, h => by
      have hunit := congrArg unescape h
      simp only [escapeText, List.flatMap_cons, List.append_assoc, unescape_escapeChar,
        Option.some.injEq, Prod.mk.injEq] at hunit
      obtain ⟨hcs, hr⟩ := escapeText_inj cs ds r s hunit.2
      exact ⟨by rw [Char.toNat_inj.mp hunit.1, hcs], hr⟩

/-- A string ends where its text says, so its text determines it. -/
theorem renderString_inj {a b : String} {r s : List Char}
    (h : renderString a ++ r = renderString b ++ s) : a = b ∧ r = s := by
  simp only [renderString, List.cons_append, List.append_assoc, List.nil_append,
    List.cons.injEq, true_and] at h
  obtain ⟨hab, hr⟩ := escapeText_inj _ _ _ _ h
  exact ⟨String.toList_inj.mp hab, hr⟩

/-! ## 3. Scalars that are not strings -/

/-- Characters of `null`, `true`, `false` and the numbers: no punctuation. -/
def isAtomChar (c : Char) : Bool :=
  c != ',' && c != ':' && c != ']' && c != '}' && c != '"' && c != '[' && c != '{'

/-- What may follow a value: nothing, or punctuation. -/
def AtEnd (cs : List Char) : Prop := ∀ c ∈ cs.head?, isAtomChar c = false

/-- Two runs of scalar characters with punctuation after them are one run. -/
theorem atom_run {t u r s : List Char} (ht : t.all isAtomChar = true)
    (hu : u.all isAtomChar = true) (hr : AtEnd r) (hs : AtEnd s) (h : t ++ r = u ++ s) :
    t = u ∧ r = s := by
  have htake : ∀ {t r : List Char}, t.all isAtomChar = true → AtEnd r →
      (t ++ r).takeWhile isAtomChar = t := by
    intro t r ht hr
    rw [List.takeWhile_append_of_pos (by simpa [List.all_eq_true] using ht)]
    cases r with
    | nil => simp
    | cons c rest => simp [hr c (by simp)]
  have htu : t = u := by rw [← htake ht hr, h, htake hu hs]
  subst htu
  exact ⟨rfl, List.append_cancel_left h⟩

theorem isDigit_digit {d : Nat} (h : d < 10) : isDigit (Char.ofNat (d + 48)) = true := by
  interval_cases d <;> decide

theorem natText_isDigit (n : Nat) : (natText n).all isDigit = true := by
  rw [natText]
  split
  · decide
  · rw [List.all_map, List.all_reverse, List.all_eq_true]
    intro d hd
    exact isDigit_digit (Nat.digits_lt_base (by norm_num) hd)

theorem natText_ne_nil (n : Nat) : natText n ≠ [] := by
  rw [natText]
  split
  · simp
  · rename_i h
    simp [Nat.digits_ne_nil_iff_ne_zero, h]

theorem digitValue_digit {d : Nat} (h : d < 10) : digitValue (Char.ofNat (d + 48)) = d := by
  interval_cases d <;> decide

theorem digitsValue_digits : ∀ (l : List Nat), (∀ d ∈ l, d < 10) →
    digitsValue (l.reverse.map fun d => Char.ofNat (d + 48)) = Nat.ofDigits 10 l
  | [], _ => rfl
  | d :: l, h => by
      have ih := digitsValue_digits l fun e he => h e (List.mem_cons_of_mem d he)
      rw [List.reverse_cons, List.map_append, digitsValue, List.foldl_append, ← digitsValue, ih,
        Nat.ofDigits_cons]
      simp [digitValue_digit (h d (by simp)), Nat.add_comm]

/-- The decimal text of a number reads back as the number. -/
theorem digitsValue_natText (n : Nat) : digitsValue (natText n) = n := by
  rw [natText]
  split
  · rename_i h; subst h; rfl
  · rw [digitsValue_digits _ fun d hd => Nat.digits_lt_base (by norm_num) hd, Nat.ofDigits_digits]

/-- A number is determined by its digits. -/
theorem natText_inj {m n : Nat} (h : natText m = natText n) : m = n := by
  rw [← digitsValue_natText m, h, digitsValue_natText]

/-- `int(text)` for the texts `intText` writes. -/
def intValue : List Char → Int
  | '-' :: cs => -(digitsValue cs : Int)
  | cs => digitsValue cs

theorem natText_ne_minus (k : Nat) (cs : List Char) : natText k ≠ '-' :: cs := by
  intro hk
  have hall := natText_isDigit k
  rw [hk, List.all_cons] at hall
  simp [isDigit] at hall

/-- An integer is read back from its text. -/
theorem intValue_intText (n : Int) : intValue (intText n) = n := by
  rw [intText]
  split
  · rw [intValue, digitsValue_natText]
    omega
  · rw [intValue.eq_2 _ (natText_ne_minus _), digitsValue_natText]
    omega

/-- The text of a value that is not a string, list or dict. -/
def atomText : Json → Option (List Char)
  | .null => some "null".toList
  | .bool true => some "true".toList
  | .bool false => some "false".toList
  | .int n => some (intText n)
  | .float x => some x.text.toList
  | _ => none

theorem isAtomChar_of_digit {c : Char} (h : isDigit c = true) : isAtomChar c = true := by
  simp only [isDigit, Bool.and_eq_true, decide_eq_true_eq] at h
  have hne : ∀ d : Char, ¬ ('0' ≤ d ∧ d ≤ '9') → c ≠ d := fun d hd he => hd (he ▸ h)
  simp [isAtomChar, hne]

/-- The text of an integer has no separator. -/
theorem intText_isAtomChar (n : Int) : (intText n).all isAtomChar = true := by
  have hnat : (natText n.natAbs).all isAtomChar = true := by
    rw [List.all_eq_true]
    exact fun c hc => isAtomChar_of_digit (List.all_eq_true.mp (natText_isDigit _) c hc)
  rw [intText]
  split
  · rw [List.all_cons, hnat]; decide
  · exact hnat

theorem floatText_isAtomChar (x : PyFloat) : x.text.toList.all isAtomChar = true := by
  have hx := x.valid
  simp only [isFloatText, Bool.or_eq_true, Bool.and_eq_true, beq_iff_eq] at hx
  rcases hx with ((hx | hx) | hx) | hx
  · rw [hx]; decide
  · rw [hx]; decide
  · rw [hx]; decide
  · rw [List.all_eq_true]
    intro c hc
    have hcls := List.all_eq_true.mp hx.1.1 c hc
    simp only [Bool.or_eq_true, beq_iff_eq] at hcls
    rcases hcls with (((hd | rfl) | rfl) | rfl) | rfl
    · exact isAtomChar_of_digit hd
    all_goals decide

theorem atomText_isAtomChar {v : Json} {t : List Char} (h : atomText v = some t) :
    t.all isAtomChar = true := by
  unfold atomText at h
  split at h <;> cases h
  · decide
  · decide
  · decide
  · exact intText_isAtomChar _
  · exact floatText_isAtomChar _

theorem intText_digits (n : Int) : (intText n).all (fun c => isDigit c || c == '-') = true := by
  have hnat : (natText n.natAbs).all (fun c => isDigit c || c == '-') = true := by
    rw [List.all_eq_true]
    intro c hc
    simp [List.all_eq_true.mp (natText_isDigit _) c hc]
  rw [intText]
  split
  · rw [List.all_cons, hnat]; decide
  · exact hnat

/-- A float text is no integer text: it has a point, an exponent or a letter. -/
theorem floatText_ne_intText (x : PyFloat) (n : Int) : x.text.toList ≠ intText n := by
  intro h
  have hint := intText_digits n
  have hx := x.valid
  rw [h] at hx
  simp only [isFloatText, Bool.or_eq_true, Bool.and_eq_true, beq_iff_eq] at hx
  rcases hx with ((hx | hx) | hx) | hx
  · rw [hx] at hint; exact absurd hint (by decide)
  · rw [hx] at hint; exact absurd hint (by decide)
  · rw [hx] at hint; exact absurd hint (by decide)
  · obtain ⟨c, hc, hcls⟩ := List.any_eq_true.mp hx.1.2
    have hdig := List.all_eq_true.mp hint c hc
    simp only [Bool.or_eq_true, beq_iff_eq] at hcls hdig
    rcases hcls with rfl | rfl
    · exact absurd hdig (by decide)
    · exact absurd hdig (by decide)

/-- An integer is not written as a float. -/
theorem isFloatText_intText (n : Int) : isFloatText (intText n) = false := by
  cases h : isFloatText (intText n) with
  | false => rfl
  | true =>
    exact absurd String.toList_ofList
      (floatText_ne_intText ⟨String.ofList (intText n), by rwa [String.toList_ofList]⟩ n)

theorem intText_ne_word (n : Int) {cs : List Char}
    (h : cs.all (fun c => isDigit c || c == '-') = false) : intText n ≠ cs := by
  intro he
  have hint : (intText n).all (fun c => isDigit c || c == '-') = true := intText_digits n
  rw [he, h] at hint
  exact absurd hint (by decide)

/-- Reads back what `atomText` writes. -/
def readAtom (t : List Char) : Json :=
  if t = "null".toList then .null
  else if t = "true".toList then .bool true
  else if t = "false".toList then .bool false
  else if h : isFloatText t = true then
    .float ⟨String.ofList t, by rw [String.toList_ofList]; exact h⟩
  else .int (intValue t)

/-- A value that is no string and no container is read back from its text. -/
theorem readAtom_atomText {v : Json} {t : List Char} (h : atomText v = some t) :
    readAtom t = v := by
  unfold atomText at h
  split at h <;> cases h
  · rfl
  · rfl
  · rfl
  · rename_i n
    rw [readAtom, if_neg (intText_ne_word n (by decide)), if_neg (intText_ne_word n (by decide)),
      if_neg (intText_ne_word n (by decide)), dif_neg (by simp [isFloatText_intText]),
      intValue_intText]
  · rename_i x
    have hword : ∀ s : String, isFloatText s.toList = false → x.text.toList ≠ s.toList := by
      intro s hs he
      have hx := x.valid
      rw [he, hs] at hx
      exact absurd hx (by decide)
    rw [readAtom, if_neg (hword _ (by decide)), if_neg (hword _ (by decide)),
      if_neg (hword _ (by decide)), dif_pos x.valid]
    simp

/-! ## 4. The text determines the value -/

theorem render_of_atom {v : Json} {t : List Char} (h : atomText v = some t) : render v = t := by
  unfold atomText at h
  split at h <;> cases h <;> rfl

/-- What a value's text starts with when the value is no scalar run. -/
def opening : Json → Option Char
  | .str _ => some '"'
  | .arr _ => some '['
  | .obj _ => some '{'
  | _ => none

theorem render_of_opening {v : Json} {c : Char} (h : opening v = some c) :
    ∃ t, render v = c :: t := by
  unfold opening at h
  split at h <;> cases h
  · exact ⟨_, rfl⟩
  · exact ⟨_, rfl⟩
  · exact ⟨_, rfl⟩

/-- A value is an atom or begins with its own opening character. -/
theorem atom_or_opening (v : Json) : (∃ t, atomText v = some t) ∨ ∃ c, opening v = some c := by
  cases v with
  | bool b => cases b <;> exact .inl ⟨_, rfl⟩
  | null => exact .inl ⟨_, rfl⟩
  | int n => exact .inl ⟨_, rfl⟩
  | float x => exact .inl ⟨_, rfl⟩
  | str s => exact .inr ⟨_, rfl⟩
  | arr items => exact .inr ⟨_, rfl⟩
  | obj fields => exact .inr ⟨_, rfl⟩

/-- No atom begins with an opening character. -/
theorem opening_not_atom {v : Json} {c : Char} (h : opening v = some c) :
    isAtomChar c = false := by
  unfold opening at h
  split at h <;> cases h <;> decide

theorem atomText_ne_nil {v : Json} {t : List Char} (h : atomText v = some t) : t ≠ [] := by
  unfold atomText at h
  split at h <;> cases h
  · decide
  · decide
  · decide
  · rw [intText]
    split
    · simp
    · exact natText_ne_nil _
  · rename_i x
    intro he
    have hx := x.valid
    rw [he] at hx
    exact absurd hx (by decide)

/-- A scalar run is not the start of a string, list or dict. -/
theorem atom_ne_opening {v w : Json} {t : List Char} {c : Char} (hv : atomText v = some t)
    (hw : opening w = some c) (r s : List Char) : render v ++ r ≠ render w ++ s := by
  obtain ⟨u, hu⟩ := render_of_opening hw
  rw [render_of_atom hv, hu]
  have hall := atomText_isAtomChar hv
  cases t with
  | nil => exact absurd rfl (atomText_ne_nil hv)
  | cons d t =>
    rw [List.cons_append, List.cons_append]
    intro h
    rw [List.all_cons, (List.cons.inj h).1, opening_not_atom hw] at hall
    simp at hall

theorem atEnd_cons {c : Char} {cs : List Char} (h : isAtomChar c = false) : AtEnd (c :: cs) := by
  intro d hd
  simp only [List.head?_cons, Option.mem_some_iff] at hd
  rwa [← hd]

/-- No text of a value begins with a closing character or a separator. -/
theorem render_ne_closing (v : Json) (rest : List Char) {c : Char} {tail : List Char}
    (hc : isAtomChar c = false ∧ c ≠ '"' ∧ c ≠ '[' ∧ c ≠ '{') : render v ++ rest ≠ c :: tail := by
  rcases atom_or_opening v with ⟨t, ht⟩ | ⟨d, hd⟩
  · rw [render_of_atom ht]
    cases t with
    | nil => exact absurd rfl (atomText_ne_nil ht)
    | cons e t =>
      intro h
      have hall := atomText_isAtomChar ht
      rw [List.all_cons, (List.cons.inj h).1, hc.1] at hall
      simp at hall
  · obtain ⟨t, ht⟩ := render_of_opening hd
    rw [ht]
    intro h
    have hcd : d = c := (List.cons.inj h).1
    subst hcd
    unfold opening at hd
    split at hd <;> cases hd
    · exact absurd rfl hc.2.1
    · exact absurd rfl hc.2.2.1
    · exact absurd rfl hc.2.2.2

/-- After an item comes a separator. -/
theorem moreItems_atEnd (items : List Json) (r : List Char) :
    AtEnd (renderMoreItems items ++ ']' :: r) := by
  cases items with
  | nil => exact atEnd_cons (by decide)
  | cons v rest => exact atEnd_cons (by decide)

/-- After a field comes a separator. -/
theorem moreFields_atEnd (fields : List (String × Json)) (r : List Char) :
    AtEnd (renderMoreFields fields ++ '}' :: r) := by
  cases fields with
  | nil => exact atEnd_cons (by decide)
  | cons kv rest => exact atEnd_cons (by decide)

mutual

theorem render_inj : ∀ (v w : Json) (r s : List Char), AtEnd r → AtEnd s →
    render v ++ r = render w ++ s → v = w ∧ r = s := by
  intro v w r s hr hs h
  rcases atom_or_opening v with ⟨t, ht⟩ | ⟨c, hc⟩
  · rcases atom_or_opening w with ⟨u, hu⟩ | ⟨d, hd⟩
    · rw [render_of_atom ht, render_of_atom hu] at h
      obtain ⟨htu, hrs⟩ := atom_run (atomText_isAtomChar ht) (atomText_isAtomChar hu) hr hs h
      exact ⟨by rw [← readAtom_atomText ht, htu, readAtom_atomText hu], hrs⟩
    · exact absurd h (atom_ne_opening ht hd r s)
  · rcases atom_or_opening w with ⟨u, hu⟩ | ⟨d, hd⟩
    · exact absurd h.symm (atom_ne_opening hu hc s r)
    · cases v <;> cases w <;> simp only [opening, reduceCtorEq] at hc hd <;>
        simp only [render, renderString, List.cons_append, List.cons.injEq, List.append_assoc,
          List.nil_append, Char.reduceEq, false_and, true_and] at h
      case str.str a b =>
        obtain ⟨hab, hrs⟩ := escapeText_inj _ _ _ _ h
        exact ⟨by rw [String.toList_inj.mp hab], hrs⟩
      case arr.arr a b =>
        obtain ⟨hab, hrs⟩ := renderItems_inj a b r s h
        exact ⟨by rw [hab], hrs⟩
      case obj.obj a b =>
        obtain ⟨hab, hrs⟩ := renderFields_inj a b r s h
        exact ⟨by rw [hab], hrs⟩

theorem renderItems_inj : ∀ (as bs : List Json) (r s : List Char),
    renderItems as ++ ']' :: r = renderItems bs ++ ']' :: s → as = bs ∧ r = s
  | [], [], r, s, h => by simpa [renderItems] using h
  | [], b :: bs, r, s, h => by
      rw [renderItems, renderItems, List.append_assoc] at h
      exact absurd h.symm (render_ne_closing b _ (by decide))
  | a :: as, [], r, s, h => by
      rw [renderItems, renderItems, List.append_assoc] at h
      exact absurd h (render_ne_closing a _ (by decide))
  | a :: as, b :: bs, r, s, h => by
      rw [renderItems, renderItems, List.append_assoc, List.append_assoc] at h
      obtain ⟨hab, htail⟩ := render_inj a b _ _ (moreItems_atEnd as r) (moreItems_atEnd bs s) h
      obtain ⟨has, hrs⟩ := renderMoreItems_inj as bs r s htail
      exact ⟨by rw [hab, has], hrs⟩

theorem renderMoreItems_inj : ∀ (as bs : List Json) (r s : List Char),
    renderMoreItems as ++ ']' :: r = renderMoreItems bs ++ ']' :: s → as = bs ∧ r = s
  | [], [], r, s, h => by simpa [renderMoreItems] using h
  | [], b :: bs, r, s, h => by simp [renderMoreItems] at h
  | a :: as, [], r, s, h => by simp [renderMoreItems] at h
  | a :: as, b :: bs, r, s, h => by
      simp only [renderMoreItems, List.cons_append, List.append_assoc, List.cons.injEq,
        true_and] at h
      obtain ⟨hab, htail⟩ := render_inj a b _ _ (moreItems_atEnd as r) (moreItems_atEnd bs s) h
      obtain ⟨has, hrs⟩ := renderMoreItems_inj as bs r s htail
      exact ⟨by rw [hab, has], hrs⟩

theorem renderFields_inj : ∀ (as bs : List (String × Json)) (r s : List Char),
    renderFields as ++ '}' :: r = renderFields bs ++ '}' :: s → as = bs ∧ r = s
  | [], [], r, s, h => by simpa [renderFields] using h
  | [], (l, b) :: bs, r, s, h => by simp [renderFields, renderString] at h
  | (k, a) :: as, [], r, s, h => by simp [renderFields, renderString] at h
  | (k, a) :: as, (l, b) :: bs, r, s, h => by
      simp only [renderFields, List.append_assoc, List.cons_append] at h
      obtain ⟨hkl, hcolon⟩ := renderString_inj h
      obtain ⟨hab, htail⟩ := render_inj a b _ _ (moreFields_atEnd as r) (moreFields_atEnd bs s)
        (List.cons.inj hcolon).2
      obtain ⟨has, hrs⟩ := renderMoreFields_inj as bs r s htail
      exact ⟨by rw [hkl, hab, has], hrs⟩

theorem renderMoreFields_inj : ∀ (as bs : List (String × Json)) (r s : List Char),
    renderMoreFields as ++ '}' :: r = renderMoreFields bs ++ '}' :: s → as = bs ∧ r = s
  | [], [], r, s, h => by simpa [renderMoreFields] using h
  | [], (l, b) :: bs, r, s, h => by simp [renderMoreFields] at h
  | (k, a) :: as, [], r, s, h => by simp [renderMoreFields] at h
  | (k, a) :: as, (l, b) :: bs, r, s, h => by
      simp only [renderMoreFields, List.append_assoc, List.cons_append, List.cons.injEq,
        true_and] at h
      obtain ⟨hkl, hcolon⟩ := renderString_inj h
      obtain ⟨hab, htail⟩ := render_inj a b _ _ (moreFields_atEnd as r) (moreFields_atEnd bs s)
        (List.cons.inj hcolon).2
      obtain ⟨has, hrs⟩ := renderMoreFields_inj as bs r s htail
      exact ⟨by rw [hkl, hab, has], hrs⟩

end

/-- Equal texts come from values equal up to the order of dict items. -/
theorem dumps_inj {v w : Json} (h : dumps v = dumps w) : sortKeys v = sortKeys w := by
  have hnil : AtEnd [] := by intro c hc; simp at hc
  exact (render_inj _ _ [] [] hnil hnil (by rw [List.append_nil, List.append_nil]; exact h)).1

/-! ## 5. Reading a dict back through the key order -/

theorem sortFields_eq_map (fields : Dict) :
    sortFields fields = fields.map fun kv => (kv.1, sortKeys kv.2) := by
  induction fields with
  | nil => rfl
  | cons kv rest ih => rw [sortFields, ih, List.map_cons]

theorem sortFields_keys (fields : Dict) : Dict.keys (sortFields fields) = Dict.keys fields := by
  rw [sortFields_eq_map, Dict.keys, Dict.keys, List.map_map]
  rfl

/-- Sorting the keys keeps what they hold. -/
theorem get_sortFields (fields : Dict) (key : String) :
    Dict.get (sortFields fields) key = (Dict.get fields key).map sortKeys := by
  induction fields with
  | nil => rfl
  | cons kv rest ih =>
    by_cases h : kv.1 = key <;> simp [sortFields, Dict.get, h, ih]

/-- With distinct keys, `get` does not depend on the order of the items. -/
theorem get_perm {d e : Dict} (hp : d.Perm e) (hnodup : d.keys.Nodup) (key : String) :
    d.get key = e.get key := by
  induction hp with
  | nil => rfl
  | cons kv _ ih =>
    simp only [Dict.keys, List.map_cons, List.nodup_cons] at hnodup
    simp [Dict.get, ih hnodup.2]
  | swap a b l =>
    simp only [Dict.keys, List.map_cons, List.nodup_cons, List.mem_cons, not_or] at hnodup
    by_cases ha : a.1 = key <;> by_cases hb : b.1 = key <;> simp [Dict.get, ha, hb]
    exact absurd (hb.trans ha.symm) hnodup.1.1
  | trans hp _ ih₁ ih₂ =>
    exact (ih₁ hnodup).trans (ih₂ ((hp.map _).nodup_iff.mp hnodup))

/-- Two dicts equal up to dict order agree, up to dict order, on every key. -/
theorem get_of_sortKeys_eq {d e : Dict} (hd : d.keys.Nodup) (he : e.keys.Nodup)
    (h : sortKeys (.obj d) = sortKeys (.obj e)) (key : String) :
    (d.get key).map sortKeys = (e.get key).map sortKeys := by
  have hsort := h
  simp only [sortKeys, Json.obj.injEq] at hsort
  have hget : ∀ {d : Dict}, d.keys.Nodup →
      Dict.get ((sortFields d).insertionSort keyLe) key = (d.get key).map sortKeys := by
    intro d hd
    have hperm := List.perm_insertionSort keyLe (sortFields d)
    rw [← get_sortFields]
    refine get_perm hperm ?_ key
    exact (hperm.map _).nodup_iff.mpr (by rw [← Dict.keys, sortFields_keys]; exact hd)
  rw [← hget hd, hsort, hget he]

/-! ## 6. The first character `repr` writes -/

/-- A character the text of a value other than a string can start with. -/
def isReprHead (c : Char) : Bool :=
  isDigit c || ['N', 'T', 'F', 'I', '-', 'n', 'i', '[', '{'].contains c

theorem Json.repr_head (v : Json) (hv : ∀ s, v ≠ .str s) :
    ∃ c rest, v.repr = c :: rest ∧ isReprHead c = true := by
  cases v with
  | null => exact ⟨'N', "one".toList, by decide, by decide⟩
  | bool b =>
    cases b with
    | false => exact ⟨'F', "alse".toList, by decide, by decide⟩
    | true => exact ⟨'T', "rue".toList, by decide, by decide⟩
  | int n =>
    cases ht : intText n with
    | nil => exact absurd ht (by rw [intText]; split <;> simp [natText_ne_nil])
    | cons c rest =>
      have hc := intText_digits n
      rw [ht, List.all_cons, Bool.and_eq_true, Bool.or_eq_true, beq_iff_eq] at hc
      refine ⟨c, rest, by rw [Json.repr, ht], ?_⟩
      rcases hc.1 with h | rfl
      · simp [isReprHead, h]
      · decide
  | float x =>
    have hx := x.valid
    simp only [isFloatText, Bool.or_eq_true, beq_iff_eq, Bool.and_eq_true] at hx
    rw [Json.repr]
    split_ifs with hnan hinf hneg
    · exact ⟨'n', "an".toList, by decide, by decide⟩
    · exact ⟨'i', "nf".toList, by decide, by decide⟩
    · exact ⟨'-', "inf".toList, by decide, by decide⟩
    · rcases hx with ((h | h) | h) | ⟨-, h⟩
      · exact absurd (String.ext_iff.mpr h) hnan
      · exact absurd (String.ext_iff.mpr h) hinf
      · exact absurd (String.ext_iff.mpr h) hneg
      · cases ht : x.text.toList with
        | nil => simp [ht] at h
        | cons c rest =>
          simp only [ht, List.head?_cons, Option.any_some, Bool.or_eq_true, beq_iff_eq] at h
          refine ⟨c, rest, rfl, ?_⟩
          rcases h with h | rfl
          · simp [isReprHead, h]
          · decide
  | str s => exact absurd rfl (hv s)
  | arr items => exact ⟨'[', _, by rw [Json.repr]; rfl, by decide⟩
  | obj fields => exact ⟨'{', _, by rw [Json.repr]; rfl, by decide⟩

/-- A text no other value is written as is the `str` of itself alone. -/
theorem Json.pyStr_eq_iff {v : Json} {s : String} {c : Char} {cs : List Char}
    (hs : s.toList = c :: cs) (hc : isReprHead c = false) : v.pyStr = s ↔ v = .str s := by
  constructor
  · intro h
    by_cases hv : ∃ t, v = .str t
    · obtain ⟨t, rfl⟩ := hv
      rw [← h, Json.pyStr_str]
    · obtain ⟨d, rest, hrepr, hd⟩ := v.repr_head fun t ht => hv ⟨t, ht⟩
      have hpy : v.pyStr.toList = v.repr := by
        cases v <;> simp [Json.pyStr] at hv ⊢
      rw [h, hs, hrepr, List.cons.injEq] at hpy
      rw [hpy.1, hd] at hc
      cases hc
  · rintro rfl
    rfl

/-! ## 7. The text is ASCII -/

def isAscii (c : Char) : Bool := c.toNat < 128

theorem isAscii_digitChar {n : Nat} (h : n < 16) : isAscii (Nat.digitChar n) = true := by
  interval_cases n <;> decide

theorem hex4_isAscii (n : Nat) : (hex4 n).all isAscii = true := by
  have h : ∀ k, isAscii (Nat.digitChar (k % 16)) = true :=
    fun k => isAscii_digitChar (Nat.mod_lt k (by norm_num))
  simp [hex4, h]

theorem escapeChar_isAscii (c : Char) : (escapeChar c).all isAscii = true := by
  have hslash : isAscii '\\' = true := by decide
  have hu : isAscii 'u' = true := by decide
  obtain ⟨d, hescaped, hd, -⟩ | ⟨hescaped, -, -, hprint⟩ | ⟨hescaped, -⟩ | ⟨hescaped, -⟩ :=
    escapeChar_cases c
  · rw [hescaped, List.all_cons, List.all_cons, hslash, isAscii, decide_eq_true hd]
    rfl
  · rw [hescaped, List.all_cons, isAscii, decide_eq_true (by omega)]
    rfl
  · rw [hescaped, List.all_cons, List.all_cons, hslash, hu, hex4_isAscii]
    rfl
  · rw [hescaped, List.cons_append, List.cons_append, List.all_cons, List.all_cons, List.all_append,
      List.all_cons, List.all_cons, hslash, hu, hex4_isAscii, hex4_isAscii]
    rfl

/-- `ensure_ascii`: every character beyond ASCII is escaped. -/
theorem renderString_isAscii (s : String) : (renderString s).all isAscii = true := by
  have h : (escapeText s.toList).all isAscii = true := by
    rw [escapeText, List.all_flatMap, List.all_eq_true]
    exact fun c _ => escapeChar_isAscii c
  rw [renderString, List.cons_append, List.all_cons, List.all_append, h]
  decide

theorem isAscii_of_digit {c : Char} (h : isDigit c = true) : isAscii c = true := by
  simp only [isDigit, Bool.and_eq_true, decide_eq_true_eq] at h
  simp only [isAscii, decide_eq_true_eq]
  exact lt_of_le_of_lt (UInt32.le_iff_toNat_le.mp h.2) (by decide)

theorem intText_isAscii (n : Int) : (intText n).all isAscii = true := by
  rw [List.all_eq_true]
  intro c hc
  have hdigit := List.all_eq_true.mp (intText_digits n) c hc
  rw [Bool.or_eq_true, beq_iff_eq] at hdigit
  rcases hdigit with h | rfl
  · exact isAscii_of_digit h
  · decide

theorem floatText_isAscii (x : PyFloat) : x.text.toList.all isAscii = true := by
  have hx := x.valid
  simp only [isFloatText, Bool.or_eq_true, Bool.and_eq_true, beq_iff_eq] at hx
  rcases hx with ((hx | hx) | hx) | hx
  · rw [hx]; decide
  · rw [hx]; decide
  · rw [hx]; decide
  · rw [List.all_eq_true]
    intro c hc
    have hcls := List.all_eq_true.mp hx.1.1 c hc
    simp only [Bool.or_eq_true, beq_iff_eq] at hcls
    rcases hcls with (((hd | rfl) | rfl) | rfl) | rfl
    · exact isAscii_of_digit hd
    all_goals decide

mutual

theorem render_isAscii : ∀ v : Json, (render v).all isAscii = true
  | .null => by decide
  | .bool true => by decide
  | .bool false => by decide
  | .int n => by rw [render]; exact intText_isAscii n
  | .float x => by rw [render]; exact floatText_isAscii x
  | .str s => by rw [render]; exact renderString_isAscii s
  | .arr items => by
      rw [render, List.cons_append, List.all_cons, List.all_append, renderItems_isAscii items]
      decide
  | .obj fields => by
      rw [render, List.cons_append, List.all_cons, List.all_append, renderFields_isAscii fields]
      decide

theorem renderItems_isAscii : ∀ items : List Json, (renderItems items).all isAscii = true
  | [] => by rw [renderItems]; rfl
  | v :: rest => by
      rw [renderItems, List.all_append, render_isAscii v, renderMoreItems_isAscii rest]
      rfl

theorem renderMoreItems_isAscii : ∀ items : List Json, (renderMoreItems items).all isAscii = true
  | [] => by rw [renderMoreItems]; rfl
  | v :: rest => by
      rw [renderMoreItems, List.all_cons, List.all_append, render_isAscii v,
        renderMoreItems_isAscii rest]
      decide

theorem renderFields_isAscii :
    ∀ fields : List (String × Json), (renderFields fields).all isAscii = true
  | [] => by rw [renderFields]; rfl
  | (k, v) :: rest => by
      rw [renderFields, List.all_append, List.all_cons, List.all_append, renderString_isAscii,
        render_isAscii v, renderMoreFields_isAscii rest]
      decide

theorem renderMoreFields_isAscii :
    ∀ fields : List (String × Json), (renderMoreFields fields).all isAscii = true
  | [] => by rw [renderMoreFields]; rfl
  | (k, v) :: rest => by
      rw [renderMoreFields, List.all_cons, List.all_append, List.all_cons, List.all_append,
        renderString_isAscii, render_isAscii v, renderMoreFields_isAscii rest]
      decide

end

/-- `json.dumps` writes ASCII. -/
theorem dumps_isAscii (v : Json) : (dumps v).all isAscii = true := render_isAscii (sortKeys v)

end EccFe.Python
