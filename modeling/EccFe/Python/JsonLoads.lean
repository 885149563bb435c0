/-
EccFe.Python.JsonLoads — `json.loads` and `json.dumps(ensure_ascii=False)`.

Unlike `EccFe.Python.Json`, whose strings are Lean's, a `JsonValue` holds Python
strings as code points, because the reader makes lone surrogates out of escapes.
The scanner goes through the text once, from the left, and raises at the first
place where it cannot go on: a syntax error, a container nested too deep, or an
integer of too many digits. What depends on the interpreter is in `Interpreter`.

The scanner has fuel; `scanOnce_fuel` says that the fuel `loads` gives is enough.
-/
import EccFe.Python.JsonText
import EccFe.Python.Number
import EccFe.Python.Unicode

namespace EccFe.Python

/-- A value with strings of code points. -/
inductive JsonValue where
  | null
  | bool (b : Bool)
  | int (n : Int)
  | float (x : PyFloat)
  | str (s : PyStr)
  | arr (items : List JsonValue)
  | obj (fields : List (PyStr × JsonValue))

/-- The items of a `dict`, in insertion order. -/
abbrev Fields := List (PyStr × JsonValue)

namespace Fields

def get (fields : Fields) (key : PyStr) : Option JsonValue := fields.lookup key

def keys (fields : Fields) : List PyStr := fields.map (·.1)

/-- `d[key] = value`. -/
def set : Fields → PyStr → JsonValue → Fields
  | [], key, value => [(key, value)]
  | (k, v) :: rest, key, value => if k = key then (k, value) :: rest else (k, v) :: set rest key value

end Fields

/-- What differs between interpreters. -/
structure Interpreter where
  /-- The depth of containers at which `json.loads` raises `RecursionError`. -/
  loadsDepth : Nat
  /-- The depth of containers at which `json.dumps` raises it. -/
  dumpsDepth : Nat
  /-- `float(text)`. -/
  floatOfText : List Char → PyFloat
  /-- `str` of the `JSONDecodeError` raised for a text. -/
  decodeErrorText : List Char → String

/-! ## 1. Reading -/

inductive LoadsError where
  /-- `JSONDecodeError`. -/
  | decodeError
  | recursionError
  /-- `int(text)` refuses the number of digits. -/
  | valueError
  deriving DecidableEq

def isJsonBlank (c : Char) : Bool := c == ' ' || c == '\t' || c == '\n' || c == '\r'

def skipBlanks (cs : List Char) : List Char := cs.dropWhile isJsonBlank

def hexDigit? (c : Char) : Option Nat :=
  if '0' ≤ c && c ≤ '9' then some (c.toNat - '0'.toNat)
  else if 'a' ≤ c && c ≤ 'f' then some (c.toNat - 'a'.toNat + 10)
  else if 'A' ≤ c && c ≤ 'F' then some (c.toNat - 'A'.toNat + 10)
  else none

/-- Four hexadecimal digits. -/
def scanHex4 : List Char → Option (Nat × List Char)
  | a :: b :: c :: d :: rest => do
      let a ← hexDigit? a
      let b ← hexDigit? b
      let c ← hexDigit? c
      let d ← hexDigit? d
      some (((a * 16 + b) * 16 + c) * 16 + d, rest)
  | _ => none

def codePoint (n : Nat) : CodePoint := Fin.ofNat 0x110000 n

/-- The second half of a surrogate pair, when an escape with one comes next. -/
def scanLowSurrogate (cs : List Char) : Option (Nat × List Char) :=
  match cs with
  | '\\' :: 'u' :: rest =>
      match scanHex4 rest with
      | some (low, rest) => if 0xDC00 ≤ low ∧ low ≤ 0xDFFF then some (low, rest) else none
      | none => none
  | _ => none

/-- The character after `\u`. -/
def scanUnicodeEscape (cs : List Char) : Option (CodePoint × List Char) :=
  match scanHex4 cs with
  | none => none
  | some (n, rest) =>
      if 0xD800 ≤ n ∧ n ≤ 0xDBFF then
        match scanLowSurrogate rest with
        | some (low, rest) => some (codePoint (0x10000 + (n - 0xD800) * 0x400 + (low - 0xDC00)), rest)
        | none => some (codePoint n, rest)
      else some (codePoint n, rest)

/-- The character after a backslash. -/
def scanEscape : List Char → Option (CodePoint × List Char)
  | 'u' :: rest => scanUnicodeEscape rest
  | c :: rest =>
      (([('"', '"'), ('\\', '\\'), ('/', '/'), ('b', '\x08'), ('f', '\x0c'), ('n', '\n'), ('r', '\r'),
        ('t', '\t')] : List (Char × Char)).lookup c).map fun d => (codePointOf d, rest)
  | [] => none

/-- `scanstring`, after the opening quote; `none` when it raises. -/
def scanString : Nat → List Char → Option (PyStr × List Char)
  | 0, _ => none
  | fuel + 1, cs =>
      match cs with
      | [] => none
      | '"' :: rest => some ([], rest)
      | '\\' :: rest =>
          match scanEscape rest with
          | none => none
          | some (c, rest) => (scanString fuel rest).map fun (s, rest) => (c :: s, rest)
      | c :: rest =>
          if c.toNat < 0x20 then none
          else (scanString fuel rest).map fun (s, rest) => (codePointOf c :: s, rest)

/-- The digits of a number before its point. -/
def scanWhole : List Char → List Char
  | '0' :: _ => ['0']
  | cs => cs.takeWhile isDigit

/-- A point with digits after it, or nothing. -/
def scanFraction : List Char → List Char
  | '.' :: rest => if rest.takeWhile isDigit = [] then [] else '.' :: rest.takeWhile isDigit
  | _ => []

/-- An exponent with digits, or nothing. -/
def scanExponent : List Char → List Char
  | e :: rest =>
      if e == 'e' || e == 'E' then
        let sign := match rest with
          | c :: _ => if c == '+' || c == '-' then [c] else []
          | [] => []
        let digits := (rest.drop sign.length).takeWhile isDigit
        if digits = [] then [] else e :: sign ++ digits
      else []
  | [] => []

/-- The sign of a number and what comes after it. -/
def scanMinus : List Char → List Char × List Char
  | '-' :: rest => (['-'], rest)
  | cs => ([], cs)

section

variable (interp : Interpreter)

/-- `_match_number`. -/
def scanNumber (cs : List Char) : Except LoadsError (JsonValue × List Char) :=
  let (minus, body) := scanMinus cs
  let whole := scanWhole body
  if whole = [] then .error .decodeError
  else
    let afterWhole := body.drop whole.length
    let fraction := scanFraction afterWhole
    let afterFraction := afterWhole.drop fraction.length
    let exponent := scanExponent afterFraction
    let rest := afterFraction.drop exponent.length
    if fraction = [] ∧ exponent = [] then
      if maxStrDigits < whole.length then .error .valueError
      else
        .ok (.int (if minus = [] then (digitsValue whole : Int) else -(digitsValue whole : Int)), rest)
    else .ok (.float (interp.floatOfText (minus ++ whole ++ fraction ++ exponent)), rest)

/-- The constants, with the texts they are written as. -/
def jsonWords : List (String × JsonValue) :=
  [("null", .null), ("true", .bool true), ("false", .bool false), ("NaN", .float ⟨"NaN", by decide⟩),
    ("Infinity", .float ⟨"Infinity", by decide⟩), ("-Infinity", .float ⟨"-Infinity", by decide⟩)]

/-- A constant or a number. -/
def scanAtom (cs : List Char) : Except LoadsError (JsonValue × List Char) :=
  match jsonWords.find? fun word => word.1.toList.isPrefixOf cs with
  | some (word, v) => .ok (v, cs.drop word.length)
  | none => scanNumber interp cs

mutual

/-- `scan_once` at the head of the text, with `depth` levels left. -/
def scanOnce : Nat → Nat → List Char → Except LoadsError (JsonValue × List Char)
  | 0, _, _ => .error .decodeError
  | fuel + 1, depth, cs =>
      match cs with
      | '"' :: rest =>
          match scanString (rest.length + 1) rest with
          | some (s, rest) => .ok (.str s, rest)
          | none => .error .decodeError
      | '{' :: rest =>
          if depth = 0 then .error .recursionError
          else
            match skipBlanks rest with
            | '}' :: rest => .ok (.obj [], rest)
            | rest => scanMembers fuel (depth - 1) [] rest
      | '[' :: rest =>
          if depth = 0 then .error .recursionError
          else
            match skipBlanks rest with
            | ']' :: rest => .ok (.arr [], rest)
            | rest => scanItems fuel (depth - 1) [] rest
      | cs => scanAtom interp cs

/-- The members of an object, from the first quote on. -/
def scanMembers : Nat → Nat → Fields → List Char → Except LoadsError (JsonValue × List Char)
  | 0, _, _, _ => .error .decodeError
  | fuel + 1, depth, fields, cs =>
      match cs with
      | '"' :: rest =>
          match scanString (rest.length + 1) rest with
          | none => .error .decodeError
          | some (key, rest) =>
              match skipBlanks rest with
              | ':' :: rest =>
                  match scanOnce fuel depth (skipBlanks rest) with
                  | .error e => .error e
                  | .ok (v, rest) =>
                      match skipBlanks rest with
                      | '}' :: rest => .ok (.obj (fields.set key v), rest)
                      | ',' :: rest => scanMembers fuel depth (fields.set key v) (skipBlanks rest)
                      | _ => .error .decodeError
              | _ => .error .decodeError
      | _ => .error .decodeError

def scanItems : Nat → Nat → List JsonValue → List Char → Except LoadsError (JsonValue × List Char)
  | 0, _, _, _ => .error .decodeError
  | fuel + 1, depth, items, cs =>
      match scanOnce fuel depth cs with
      | .error e => .error e
      | .ok (v, rest) =>
          match skipBlanks rest with
          | ']' :: rest => .ok (.arr (items ++ [v]), rest)
          | ',' :: rest => scanItems fuel depth (items ++ [v]) (skipBlanks rest)
          | _ => .error .decodeError

end

def loads (text : List Char) : Except LoadsError JsonValue :=
  if text.head? = some '\uFEFF' then .error .decodeError
  else
    match scanOnce interp (2 * text.length + 2) interp.loadsDepth (skipBlanks text) with
    | .error e => .error e
    | .ok (v, rest) => if skipBlanks rest = [] then .ok v else .error .decodeError

end

/-! ## 2. Fuel -/

theorem skipBlanks_length (cs : List Char) : (skipBlanks cs).length ≤ cs.length :=
  (List.dropWhile_suffix isJsonBlank).length_le

theorem scanHex4_length {cs rest : List Char} {n : Nat} (h : scanHex4 cs = some (n, rest)) :
    rest.length < cs.length := by
  unfold scanHex4 at h
  split at h
  · simp only [bind, Option.bind_eq_some_iff, Option.some.injEq, Prod.mk.injEq] at h
    obtain ⟨-, -, -, -, -, -, -, -, -, rfl⟩ := h
    simp only [List.length_cons]
    omega
  · cases h

theorem scanLowSurrogate_length {cs rest : List Char} {n : Nat}
    (h : scanLowSurrogate cs = some (n, rest)) : rest.length < cs.length := by
  unfold scanLowSurrogate at h
  split at h
  · split at h
    · rename_i hhex
      split at h
      · obtain ⟨rfl, rfl⟩ := Prod.mk.inj (Option.some.inj h)
        have hlength := scanHex4_length hhex
        simp only [List.length_cons]
        omega
      · cases h
    · cases h
  · cases h

theorem scanUnicodeEscape_length {cs rest : List Char} {c : CodePoint}
    (h : scanUnicodeEscape cs = some (c, rest)) : rest.length < cs.length := by
  unfold scanUnicodeEscape at h
  split at h
  · cases h
  · rename_i n rest' hhex
    have hlength := scanHex4_length hhex
    split at h
    · split at h
      · rename_i hlow
        obtain ⟨-, rfl⟩ := Prod.mk.inj (Option.some.inj h)
        have hlow := scanLowSurrogate_length hlow
        omega
      · obtain ⟨-, rfl⟩ := Prod.mk.inj (Option.some.inj h)
        exact hlength
    · obtain ⟨-, rfl⟩ := Prod.mk.inj (Option.some.inj h)
      exact hlength

theorem scanEscape_length {cs rest : List Char} {c : CodePoint}
    (h : scanEscape cs = some (c, rest)) : rest.length < cs.length := by
  unfold scanEscape at h
  split at h
  · have hlength := scanUnicodeEscape_length h
    simp only [List.length_cons]
    omega
  · obtain ⟨d, -, hpair⟩ := Option.map_eq_some_iff.mp h
    obtain ⟨-, rfl⟩ := Prod.mk.inj hpair
    exact Nat.lt_succ_self _
  · cases h

/-- A string takes its quote at least off the text. -/
theorem scanString_length : ∀ {fuel : Nat} {cs rest : List Char} {s : PyStr},
    scanString fuel cs = some (s, rest) → rest.length < cs.length
  | 0, _, _, _, h => by cases h
  | fuel + 1, cs, rest, s, h => by
      unfold scanString at h
      split at h
      · cases h
      · obtain ⟨-, rfl⟩ := Prod.mk.inj (Option.some.inj h)
        exact Nat.lt_succ_self _
      · split at h
        · cases h
        · rename_i c rest' hescape
          obtain ⟨⟨t, rest''⟩, hrec, hpair⟩ := Option.map_eq_some_iff.mp h
          obtain ⟨-, rfl⟩ := Prod.mk.inj hpair
          have hshort := scanEscape_length hescape
          have ih := scanString_length hrec
          simp only [List.length_cons]
          omega
      · split at h
        · cases h
        · obtain ⟨⟨t, rest''⟩, hrec, hpair⟩ := Option.map_eq_some_iff.mp h
          obtain ⟨-, rfl⟩ := Prod.mk.inj hpair
          have ih := scanString_length hrec
          simp only [List.length_cons]
          omega

/-- More fuel than characters is enough for a string. -/
theorem scanString_fuel : ∀ (fuel fuel' : Nat) (cs : List Char), cs.length < fuel →
    cs.length < fuel' → scanString fuel cs = scanString fuel' cs
  | 0, _, _, h, _ => absurd h (Nat.not_lt_zero _)
  | _, 0, _, _, h => absurd h (Nat.not_lt_zero _)
  | fuel + 1, fuel' + 1, cs, h, h' => by
      unfold scanString
      split
      · rfl
      · rfl
      · split
        · rfl
        · rename_i c rest' hescape
          have hshort := scanEscape_length hescape
          simp only [List.length_cons] at h h'
          rw [scanString_fuel fuel fuel' rest' (by omega) (by omega)]
      · rename_i rest _ _
        simp only [List.length_cons] at h h'
        rw [scanString_fuel fuel fuel' rest (by omega) (by omega)]

theorem scanMinus_length (cs : List Char) : (scanMinus cs).2.length ≤ cs.length := by
  unfold scanMinus
  split
  · exact Nat.le_succ _
  · exact Nat.le_refl _

theorem scanWhole_length (cs : List Char) : (scanWhole cs).length ≤ cs.length := by
  unfold scanWhole
  split
  · simp
  · exact (List.takeWhile_prefix isDigit).length_le

section

variable {interp : Interpreter}

/-- A number takes a character at least off the text. -/
theorem scanNumber_length {cs rest : List Char} {v : JsonValue}
    (h : scanNumber interp cs = .ok (v, rest)) : rest.length < cs.length := by
  have hminus := scanMinus_length cs
  have hwhole := scanWhole_length (scanMinus cs).2
  have hdropped : ∀ m n : Nat, scanWhole (scanMinus cs).2 ≠ [] →
      ((((scanMinus cs).2.drop (scanWhole (scanMinus cs).2).length).drop m).drop n).length <
        cs.length := by
    intro m n hne
    have hpos := List.length_pos_of_ne_nil hne
    simp only [List.length_drop]
    omega
  unfold scanNumber at h
  dsimp only at h
  split at h
  · cases h
  · rename_i hne
    split at h
    · split at h
      · cases h
      · obtain ⟨-, rfl⟩ := Prod.mk.inj (Except.ok.inj h)
        exact hdropped _ _ hne
    · obtain ⟨-, rfl⟩ := Prod.mk.inj (Except.ok.inj h)
      exact hdropped _ _ hne

/-- So does an atom. -/
theorem scanAtom_length {cs rest : List Char} {v : JsonValue}
    (h : scanAtom interp cs = .ok (v, rest)) : rest.length < cs.length := by
  unfold scanAtom at h
  split at h
  · rename_i word w hfind
    obtain ⟨-, rfl⟩ := Prod.mk.inj (Except.ok.inj h)
    have hword : 0 < word.length := by
      have hall : jsonWords.all (fun word => 0 < word.1.length) = true := by decide
      have hmem := List.all_eq_true.mp hall _ (List.mem_of_find?_eq_some hfind)
      simpa using hmem
    have hpre : word.toList <+: cs := by simpa using List.find?_some hfind
    have hlength := hpre.length_le
    rw [String.length_toList] at hlength
    rw [List.length_drop]
    omega
  · exact scanNumber_length h

/-- What the scanner has read is gone from the text. -/
theorem scan_length : ∀ fuel : Nat,
    (∀ {depth cs v rest}, scanOnce interp fuel depth cs = .ok (v, rest) →
      rest.length < cs.length) ∧
    (∀ {depth fields cs v rest}, scanMembers interp fuel depth fields cs = .ok (v, rest) →
      rest.length < cs.length) ∧
    ∀ {depth items cs v rest}, scanItems interp fuel depth items cs = .ok (v, rest) →
      rest.length < cs.length := by
  intro fuel
  induction fuel with
  | zero =>
    refine ⟨fun h => ?_, fun h => ?_, fun h => ?_⟩
    · rw [scanOnce] at h
      cases h
    · rw [scanMembers] at h
      cases h
    · rw [scanItems] at h
      cases h
  | succ fuel ih =>
    obtain ⟨ihOnce, ihMembers, ihItems⟩ := ih
    refine ⟨fun {depth cs v rest} h => ?_, fun {depth fields cs v rest} h => ?_,
      fun {depth items cs v rest} h => ?_⟩
    · unfold scanOnce at h
      split at h
      · split at h
        · rename_i hstring
          obtain ⟨-, rfl⟩ := Prod.mk.inj (Except.ok.inj h)
          exact (scanString_length hstring).trans (Nat.lt_succ_self _)
        · cases h
      · rename_i body
        have hblanks := skipBlanks_length body
        split at h
        · cases h
        · split at h
          · rename_i hclose
            obtain ⟨-, rfl⟩ := Prod.mk.inj (Except.ok.inj h)
            rw [hclose, List.length_cons] at hblanks
            simp only [List.length_cons]
            omega
          · have hmembers := ihMembers h
            simp only [List.length_cons]
            omega
      · rename_i body
        have hblanks := skipBlanks_length body
        split at h
        · cases h
        · split at h
          · rename_i hclose
            obtain ⟨-, rfl⟩ := Prod.mk.inj (Except.ok.inj h)
            rw [hclose, List.length_cons] at hblanks
            simp only [List.length_cons]
            omega
          · have hitems := ihItems h
            simp only [List.length_cons]
            omega
      · exact scanAtom_length h
    · unfold scanMembers at h
      split at h
      · rename_i body
        split at h
        · cases h
        · rename_i key afterKey hkey
          have hkeyLength := scanString_length hkey
          have hblanks := skipBlanks_length afterKey
          split at h
          · rename_i afterColon hcolon
            rw [hcolon, List.length_cons] at hblanks
            have hblanks' := skipBlanks_length afterColon
            split at h
            · cases h
            · rename_i value afterValue hvalue
              have hvalueLength := ihOnce hvalue
              have hblanks'' := skipBlanks_length afterValue
              split at h
              · rename_i hclose
                obtain ⟨-, rfl⟩ := Prod.mk.inj (Except.ok.inj h)
                rw [hclose, List.length_cons] at hblanks''
                simp only [List.length_cons]
                omega
              · rename_i afterComma hcomma
                rw [hcomma, List.length_cons] at hblanks''
                have hmore := ihMembers h
                have hblanks3 := skipBlanks_length afterComma
                simp only [List.length_cons]
                omega
              · cases h
          · cases h
      · cases h
    · unfold scanItems at h
      split at h
      · cases h
      · rename_i value afterValue hvalue
        have hvalueLength := ihOnce hvalue
        have hblanks := skipBlanks_length afterValue
        split at h
        · rename_i hclose
          obtain ⟨-, rfl⟩ := Prod.mk.inj (Except.ok.inj h)
          rw [hclose, List.length_cons] at hblanks
          omega
        · rename_i afterComma hcomma
          rw [hcomma, List.length_cons] at hblanks
          have hmore := ihItems h
          have hblanks' := skipBlanks_length afterComma
          omega
        · cases h

/-- Two calls for each character left are enough fuel. -/
theorem scan_fuel : ∀ fuel fuel' : Nat,
    (∀ depth cs, 2 * cs.length < fuel → 2 * cs.length < fuel' →
      scanOnce interp fuel depth cs = scanOnce interp fuel' depth cs) ∧
    (∀ depth fields cs, 2 * cs.length + 1 < fuel → 2 * cs.length + 1 < fuel' →
      scanMembers interp fuel depth fields cs = scanMembers interp fuel' depth fields cs) ∧
    ∀ depth items cs, 2 * cs.length + 1 < fuel → 2 * cs.length + 1 < fuel' →
      scanItems interp fuel depth items cs = scanItems interp fuel' depth items cs := by
  intro fuel
  induction fuel with
  | zero => exact fun _ => ⟨fun _ _ h => absurd h (Nat.not_lt_zero _),
      fun _ _ _ h => absurd h (Nat.not_lt_zero _), fun _ _ _ h => absurd h (Nat.not_lt_zero _)⟩
  | succ fuel ih =>
    intro fuel'
    cases fuel' with
    | zero => exact ⟨fun _ _ _ h => absurd h (Nat.not_lt_zero _),
        fun _ _ _ _ h => absurd h (Nat.not_lt_zero _), fun _ _ _ _ h => absurd h (Nat.not_lt_zero _)⟩
    | succ fuel' =>
      obtain ⟨ihOnce, ihMembers, ihItems⟩ := ih fuel'
      refine ⟨fun depth cs h h' => ?_, fun depth fields cs h h' => ?_, fun depth items cs h h' => ?_⟩
      · unfold scanOnce
        split
        · rfl
        · rename_i body
          have hblanks := skipBlanks_length body
          simp only [List.length_cons] at h h'
          split
          · rfl
          · split
            · rfl
            · exact ihMembers _ _ _ (by omega) (by omega)
        · rename_i body
          have hblanks := skipBlanks_length body
          simp only [List.length_cons] at h h'
          split
          · rfl
          · split
            · rfl
            · exact ihItems _ _ _ (by omega) (by omega)
        · rfl
      · unfold scanMembers
        split
        · rename_i body
          simp only [List.length_cons] at h h'
          split
          · rfl
          · rename_i key afterKey hkey
            have hkeyLength := scanString_length hkey
            have hblanks := skipBlanks_length afterKey
            split
            · rename_i afterColon hcolon
              rw [hcolon, List.length_cons] at hblanks
              have hblanks' := skipBlanks_length afterColon
              rw [ihOnce _ _ (by omega) (by omega)]
              split
              · rfl
              · rename_i value afterValue hvalue
                have hvalueLength := (scan_length fuel').1 hvalue
                have hblanks'' := skipBlanks_length afterValue
                split
                · rfl
                · rename_i afterComma hcomma
                  rw [hcomma, List.length_cons] at hblanks''
                  have hblanks3 := skipBlanks_length afterComma
                  exact ihMembers _ _ _ (by omega) (by omega)
                · rfl
            · rfl
        · rfl
      · unfold scanItems
        rw [ihOnce _ _ (by omega) (by omega)]
        split
        · rfl
        · rename_i value afterValue hvalue
          have hvalueLength := (scan_length fuel').1 hvalue
          have hblanks := skipBlanks_length afterValue
          split
          · rfl
          · rename_i afterComma hcomma
            rw [hcomma, List.length_cons] at hblanks
            have hblanks' := skipBlanks_length afterComma
            exact ihItems _ _ _ (by omega) (by omega)
          · rfl

/-- The fuel of `loads` is enough: more does not change what is scanned. -/
theorem scanOnce_fuel (text : List Char) {fuel : Nat} (h : 2 * text.length + 2 ≤ fuel)
    (depth : Nat) :
    scanOnce interp fuel depth (skipBlanks text) =
      scanOnce interp (2 * text.length + 2) depth (skipBlanks text) := by
  have hblanks := skipBlanks_length text
  exact (scan_fuel _ _).1 depth _ (by omega) (by omega)

end

/-! ## 3. Writing -/

/-- `ESCAPE_DCT`, and `\u00XX` for the other control characters. -/
def escapePoint (c : CodePoint) : PyStr :=
  if c.val = 0x22 then pyStr "\\\""
  else if c.val = 0x5C then pyStr "\\\\"
  else if c.val = 0x0A then pyStr "\\n"
  else if c.val = 0x0D then pyStr "\\r"
  else if c.val = 0x09 then pyStr "\\t"
  else if c.val = 0x0C then pyStr "\\f"
  else if c.val = 0x08 then pyStr "\\b"
  else if c.val < 0x20 then pyStrOf ('\\' :: 'u' :: hex4 c.val)
  else [c]

def quotedText (s : PyStr) : PyStr := pyStr "\"" ++ s.flatMap escapePoint ++ pyStr "\""

mutual

/-- The text of a value with the separators `","` and `":"`. -/
def JsonValue.text : JsonValue → PyStr
  | .null => pyStr "null"
  | .bool true => pyStr "true"
  | .bool false => pyStr "false"
  | .int n => pyStrOf (intText n)
  | .float x => pyStr x.text
  | .str s => quotedText s
  | .arr items => pyStr "[" ++ itemsText items ++ pyStr "]"
  | .obj fields => pyStr "\x7b" ++ fieldsText fields ++ pyStr "\x7d"

def itemsText : List JsonValue → PyStr
  | [] => []
  | v :: rest => v.text ++ moreItemsText rest

def moreItemsText : List JsonValue → PyStr
  | [] => []
  | v :: rest => pyStr "," ++ v.text ++ moreItemsText rest

def fieldsText : List (PyStr × JsonValue) → PyStr
  | [] => []
  | (k, v) :: rest => quotedText k ++ pyStr ":" ++ v.text ++ moreFieldsText rest

def moreFieldsText : List (PyStr × JsonValue) → PyStr
  | [] => []
  | (k, v) :: rest => pyStr "," ++ quotedText k ++ pyStr ":" ++ v.text ++ moreFieldsText rest

end

mutual

/-- How deep the containers of a value are nested. -/
def JsonValue.depth : JsonValue → Nat
  | .arr items => itemsDepth items + 1
  | .obj fields => fieldsDepth fields + 1
  | .null | .bool _ | .int _ | .float _ | .str _ => 0

def itemsDepth : List JsonValue → Nat
  | [] => 0
  | v :: rest => max v.depth (itemsDepth rest)

def fieldsDepth : List (PyStr × JsonValue) → Nat
  | [] => 0
  | (_, v) :: rest => max v.depth (fieldsDepth rest)

end

mutual

/-- The values without containers, and the keys, in the order they are written. -/
def JsonValue.leaves : JsonValue → List JsonValue
  | .arr items => itemsLeaves items
  | .obj fields => fieldsLeaves fields
  | .null => [.null]
  | .bool b => [.bool b]
  | .int n => [.int n]
  | .float x => [.float x]
  | .str s => [.str s]

def itemsLeaves : List JsonValue → List JsonValue
  | [] => []
  | v :: rest => v.leaves ++ itemsLeaves rest

def fieldsLeaves : List (PyStr × JsonValue) → List JsonValue
  | [] => []
  | (k, v) :: rest => .str k :: (v.leaves ++ fieldsLeaves rest)

end

/-- `str(n)` accepts the number of digits. -/
def JsonValue.printable : JsonValue → Bool
  | .int n => (natText n.natAbs).length ≤ maxStrDigits
  | _ => true

/-- The string holds a surrogate. -/
def JsonValue.leafSurrogate : JsonValue → Bool
  | .str s => s.any isSurrogate
  | _ => false

/-- Some string or key of the value holds a surrogate. -/
def JsonValue.hasSurrogate (v : JsonValue) : Bool := v.leaves.any JsonValue.leafSurrogate

/-- `json.dumps(v, ensure_ascii=False, separators=(",", ":"))`; `none` when it raises. -/
def dumpsText (interp : Interpreter) (v : JsonValue) : Option PyStr :=
  if v.depth ≤ interp.dumpsDepth ∧ v.leaves.all JsonValue.printable = true then some v.text else none

/-- The fields of a dict are as deep as the deepest value. -/
theorem fieldsDepth_le {n bound : Nat} : ∀ {fields : Fields}, n + fieldsDepth fields ≤ bound ↔
    n ≤ bound ∧ ∀ kv ∈ fields, n + kv.2.depth ≤ bound
  | [] => by simp [fieldsDepth]
  | kv :: rest => by
      rw [fieldsDepth, List.forall_mem_cons, and_left_comm, ← fieldsDepth_le]
      omega

/-- The items of a list are as deep as the deepest one. -/
theorem itemsDepth_le {n bound : Nat} : ∀ {items : List JsonValue}, n + itemsDepth items ≤ bound ↔
    n ≤ bound ∧ ∀ v ∈ items, n + v.depth ≤ bound
  | [] => by simp [itemsDepth]
  | v :: rest => by
      rw [itemsDepth, List.forall_mem_cons, and_left_comm, ← itemsDepth_le]
      omega

/-- The leaves of a dict are its keys and the leaves of its values. -/
theorem mem_fieldsLeaves {leaf : JsonValue} : ∀ {fields : Fields}, leaf ∈ fieldsLeaves fields ↔
    ∃ kv ∈ fields, leaf = .str kv.1 ∨ leaf ∈ kv.2.leaves
  | [] => by simp [fieldsLeaves]
  | kv :: rest => by
      rw [fieldsLeaves, List.mem_cons, List.mem_append, mem_fieldsLeaves, List.exists_mem_cons_iff,
        or_assoc]

/-- The leaves of a list are those of its items. -/
theorem mem_itemsLeaves {leaf : JsonValue} : ∀ {items : List JsonValue}, leaf ∈ itemsLeaves items ↔
    ∃ v ∈ items, leaf ∈ v.leaves
  | [] => by simp [itemsLeaves]
  | v :: rest => by
      rw [itemsLeaves, List.mem_append, mem_itemsLeaves, List.exists_mem_cons_iff]

theorem any_isSurrogate_pyStr (s : String) : (pyStr s).any isSurrogate = false :=
  any_isSurrogate_pyStrOf _

/-- An escape keeps a surrogate, and makes none. -/
theorem any_isSurrogate_escapePoint (c : CodePoint) :
    (escapePoint c).any isSurrogate = isSurrogate c := by
  have hsmall : c.val < 0x80 → isSurrogate c = false := by
    intro hlt
    rw [isSurrogate, Bool.and_eq_false_iff]
    exact .inl (decide_eq_false (by omega))
  unfold escapePoint
  split_ifs with h₁ h₂ h₃ h₄ h₅ h₆ h₇ h₈
  · rw [any_isSurrogate_pyStr, hsmall (by omega)]
  · rw [any_isSurrogate_pyStr, hsmall (by omega)]
  · rw [any_isSurrogate_pyStr, hsmall (by omega)]
  · rw [any_isSurrogate_pyStr, hsmall (by omega)]
  · rw [any_isSurrogate_pyStr, hsmall (by omega)]
  · rw [any_isSurrogate_pyStr, hsmall (by omega)]
  · rw [any_isSurrogate_pyStr, hsmall (by omega)]
  · rw [any_isSurrogate_pyStrOf, hsmall (by omega)]
  · rw [List.any_cons, List.any_nil, Bool.or_false]

theorem any_isSurrogate_quotedText (s : PyStr) :
    (quotedText s).any isSurrogate = s.any isSurrogate := by
  rw [quotedText, List.any_append, List.any_append, any_isSurrogate_pyStr, Bool.false_or,
    Bool.or_false, List.any_flatMap]
  simp only [any_isSurrogate_escapePoint]

mutual

/-- The text of a value holds a surrogate exactly when the value does. -/
theorem any_isSurrogate_text : ∀ v : JsonValue,
    v.text.any isSurrogate = v.leaves.any JsonValue.leafSurrogate
  | .null => any_isSurrogate_pyStr _
  | .bool true => any_isSurrogate_pyStr _
  | .bool false => any_isSurrogate_pyStr _
  | .int n => any_isSurrogate_pyStrOf _
  | .float x => any_isSurrogate_pyStr _
  | .str s => by
      rw [JsonValue.text, JsonValue.leaves, any_isSurrogate_quotedText]
      simp [JsonValue.leafSurrogate]
  | .arr items => by
      rw [JsonValue.text, JsonValue.leaves, List.any_append, List.any_append, any_isSurrogate_pyStr,
        any_isSurrogate_pyStr, any_isSurrogate_itemsText, Bool.false_or, Bool.or_false]
  | .obj fields => by
      rw [JsonValue.text, JsonValue.leaves, List.any_append, List.any_append, any_isSurrogate_pyStr,
        any_isSurrogate_pyStr, any_isSurrogate_fieldsText, Bool.false_or, Bool.or_false]

theorem any_isSurrogate_itemsText : ∀ items : List JsonValue,
    (itemsText items).any isSurrogate = (itemsLeaves items).any JsonValue.leafSurrogate
  | [] => rfl
  | v :: rest => by
      rw [itemsText, itemsLeaves, List.any_append, List.any_append, any_isSurrogate_text v,
        any_isSurrogate_moreItemsText rest]

theorem any_isSurrogate_moreItemsText : ∀ items : List JsonValue,
    (moreItemsText items).any isSurrogate = (itemsLeaves items).any JsonValue.leafSurrogate
  | [] => rfl
  | v :: rest => by
      rw [moreItemsText, itemsLeaves, List.any_append, List.any_append, List.any_append,
        any_isSurrogate_pyStr, any_isSurrogate_text v, any_isSurrogate_moreItemsText rest,
        Bool.false_or]

theorem any_isSurrogate_fieldsText : ∀ fields : List (PyStr × JsonValue),
    (fieldsText fields).any isSurrogate = (fieldsLeaves fields).any JsonValue.leafSurrogate
  | [] => rfl
  | (k, v) :: rest => by
      rw [fieldsText, fieldsLeaves, List.any_cons]
      simp only [List.any_append, any_isSurrogate_pyStr, any_isSurrogate_quotedText,
        any_isSurrogate_text v, any_isSurrogate_moreFieldsText rest, JsonValue.leafSurrogate,
        Bool.or_false, Bool.or_assoc]

theorem any_isSurrogate_moreFieldsText : ∀ fields : List (PyStr × JsonValue),
    (moreFieldsText fields).any isSurrogate = (fieldsLeaves fields).any JsonValue.leafSurrogate
  | [] => rfl
  | (k, v) :: rest => by
      rw [moreFieldsText, fieldsLeaves, List.any_cons]
      simp only [List.any_append, any_isSurrogate_pyStr, any_isSurrogate_quotedText,
        any_isSurrogate_text v, any_isSurrogate_moreFieldsText rest, JsonValue.leafSurrogate,
        Bool.or_false, Bool.false_or, Bool.or_assoc]

end

end EccFe.Python
