/-
EccFe.Python.Text — the parts of Python's `str` the development reads text with.

Text is scanned as `List Char`; the functions a caller applies to a whole `str`
come in a `String` version that wraps the scan. White space, line boundaries and
lower case follow Python's own tables, which are wider than ASCII:

* `isSpace` is `str.isspace`, the class `str.strip()` removes.
* `isLineBreak` is the set of characters `str.splitlines` breaks at. It differs
  from `isSpace` (a no-break space is white space and breaks no line, U+001F too).
* `lower` maps ASCII letters and the two other letters whose lower case contains
  an ASCII letter. Every other letter lowers to a non-ASCII one and stays as it
  is here: callers only compare the result with ASCII text.
-/
import Mathlib.Data.List.Basic
import Mathlib.Data.List.DropRight

namespace EccFe.Python

/-! ## 1. Character classes -/

def isSpace (c : Char) : Bool :=
  let n := c.toNat
  (9 ≤ n && n ≤ 13) || (28 ≤ n && n ≤ 32) || n == 0x85 || n == 0xA0 || n == 0x1680 ||
    (0x2000 ≤ n && n ≤ 0x200A) || n == 0x2028 || n == 0x2029 || n == 0x202F ||
    n == 0x205F || n == 0x3000

/-- `\n`, `\r`, `\v`, `\f`, U+001C to U+001E, U+0085, U+2028 and U+2029. -/
def isLineBreak (c : Char) : Bool :=
  let n := c.toNat
  (10 ≤ n && n ≤ 13) || (28 ≤ n && n ≤ 30) || n == 0x85 || n == 0x2028 || n == 0x2029

def isDigit (c : Char) : Bool := '0' ≤ c && c ≤ '9'

/-- A fact about the characters of a text is decided by going through the text, not through all
characters. -/
instance decidableForallChars (p : Char → Prop) [DecidablePred p] (cs : List Char) : Decidable (∀ c ∈ cs, p c) :=
  decidable_of_iff (cs.all fun c => decide (p c)) (by simp)

instance decidableForallChar? (p : Char → Prop) [DecidablePred p] (o : Option Char) : Decidable (∀ c ∈ o, p c) :=
  decidable_of_iff (o.all fun c => decide (p c)) (by cases o <;> simp)

/-! ## 2. Stripping -/

/-- `str.lstrip` for an arbitrary character class. -/
def lstripBy (p : Char → Bool) (cs : List Char) : List Char := cs.dropWhile p

def rstripBy (p : Char → Bool) (cs : List Char) : List Char := cs.rdropWhile p

def stripBy (p : Char → Bool) (cs : List Char) : List Char := rstripBy p (lstripBy p cs)

def strip (s : String) : String := String.ofList (stripBy isSpace s.toList)

/-- Both quote characters, the argument of the `strip("\"'")` calls. -/
def isQuote (c : Char) : Bool := c == '"' || c == '\''

def stripQuotes (s : String) : String := String.ofList (stripBy isQuote s.toList)

theorem dropWhile_eq_self {p : Char → Bool} {cs : List Char}
    (h : ∀ c ∈ cs.head?, p c = false) : cs.dropWhile p = cs := by
  cases cs with
  | nil => rfl
  | cons c rest => simp [h c (by simp)]

/-- Text whose first and last characters are outside the class is not stripped. -/
theorem stripBy_eq_self {p : Char → Bool} {cs : List Char}
    (hhead : ∀ c ∈ cs.head?, p c = false) (hlast : ∀ c ∈ cs.getLast?, p c = false) :
    stripBy p cs = cs := by
  rw [stripBy, lstripBy, dropWhile_eq_self hhead, rstripBy, List.rdropWhile,
    dropWhile_eq_self (by rw [List.head?_reverse]; exact hlast), List.reverse_reverse]

/-- Text with no character of the class is not stripped. -/
theorem stripBy_of_forall {p : Char → Bool} {cs : List Char}
    (h : ∀ c ∈ cs, p c = false) : stripBy p cs = cs :=
  stripBy_eq_self (fun c hc => h c (List.mem_of_mem_head? hc))
    (fun c hc => h c (List.mem_of_mem_getLast? hc))

/-- Stripping at the end stops at a character outside the class. -/
theorem rstripBy_append {p : Char → Bool} {c : Char} (h : p c = false) (cs ds : List Char) :
    rstripBy p (cs ++ c :: ds) = cs ++ c :: rstripBy p ds := by
  unfold rstripBy
  induction ds using List.reverseRecOn with
  | nil => exact List.rdropWhile_concat_neg p cs c (by simp [h])
  | append_singleton ds d ih =>
    rw [← List.cons_append, ← List.append_assoc]
    by_cases hd : p d = true
    · rw [List.rdropWhile_concat_pos _ _ _ hd, List.rdropWhile_concat_pos _ _ _ hd, ih]
    · rw [List.rdropWhile_concat_neg _ _ _ hd, List.rdropWhile_concat_neg _ _ _ hd,
        List.append_assoc]
      rfl

/-- A first character outside the class stays. -/
theorem stripBy_cons {p : Char → Bool} {c : Char} (h : p c = false) (cs : List Char) :
    stripBy p (c :: cs) = c :: rstripBy p cs := by
  rw [stripBy, lstripBy, dropWhile_eq_self (by simpa using h)]
  exact rstripBy_append h [] cs

/-- One character of the class is stripped at each end. -/
theorem stripBy_between {p : Char → Bool} {a b : Char} {cs : List Char} (ha : p a = true)
    (hb : p b = true) (hne : cs ≠ []) (hhead : ∀ c ∈ cs.head?, p c = false)
    (hlast : ∀ c ∈ cs.getLast?, p c = false) : stripBy p (a :: cs ++ [b]) = cs := by
  have hstart : lstripBy p (a :: cs ++ [b]) = cs ++ [b] := by
    rw [lstripBy, List.cons_append, List.dropWhile_cons_of_pos ha]
    refine dropWhile_eq_self fun c hc => hhead c ?_
    rwa [List.head?_append_of_ne_nil _ hne] at hc
  rw [stripBy, hstart, rstripBy, List.rdropWhile_concat_pos _ _ _ hb, List.rdropWhile,
    dropWhile_eq_self (by rw [List.head?_reverse]; exact hlast), List.reverse_reverse]

theorem head_stripBy {p : Char → Bool} {cs : List Char} :
    ∀ c ∈ (stripBy p cs).head?, p c = false := by
  intro c hc
  have hpre : stripBy p cs <+: lstripBy p cs := List.rdropWhile_prefix p _
  have hhead : (lstripBy p cs).head? = some c := by
    obtain ⟨t, ht⟩ := hpre
    cases hs : stripBy p cs with
    | nil => simp [hs] at hc
    | cons d ds =>
      rw [hs] at hc ht
      rw [← ht]
      simpa using hc
  rw [lstripBy] at hhead
  have hne := List.head?_dropWhile_not p cs
  rw [hhead] at hne
  simpa using hne

theorem last_stripBy {p : Char → Bool} {cs : List Char} :
    ∀ c ∈ (stripBy p cs).getLast?, p c = false := by
  intro c hc
  rw [stripBy, rstripBy, List.rdropWhile, List.getLast?_reverse] at hc
  have hne := List.head?_dropWhile_not p (lstripBy p cs).reverse
  rw [Option.mem_def.mp hc] at hne
  simpa using hne

theorem stripBy_idem (p : Char → Bool) (cs : List Char) :
    stripBy p (stripBy p cs) = stripBy p cs := stripBy_eq_self head_stripBy last_stripBy

theorem strip_idem (s : String) : strip (strip s) = strip s := by
  rw [strip, strip, String.toList_ofList, stripBy_idem]

theorem strip_of_forall {s : String} (h : ∀ c ∈ s.toList, isSpace c = false) :
    strip s = s := by
  rw [strip, stripBy_of_forall h, String.ofList_toList]

/-- A character outside the class leaves something. -/
theorem stripBy_ne_nil {p : Char → Bool} {cs : List Char} {c : Char} (hc : c ∈ cs)
    (h : p c = false) : stripBy p cs ≠ [] := by
  intro hempty
  have hnil : List.rdropWhile p (cs.dropWhile p) = [] := hempty
  rw [List.rdropWhile_eq_nil_iff] at hnil
  have hsuffix := List.head?_dropWhile_not p cs
  cases hrest : cs.dropWhile p with
  | nil =>
    have hall := List.dropWhile_eq_nil_iff.mp hrest c hc
    rw [h] at hall
    cases hall
  | cons d ds =>
    rw [hrest] at hsuffix hnil
    simp [hnil d (by simp)] at hsuffix

theorem strip_ne_empty {s : String} {c : Char} (hc : c ∈ s.toList) (h : isSpace c = false) :
    strip s ≠ "" := by
  intro hempty
  exact stripBy_ne_nil hc h (by simpa [strip] using hempty)

/-! ## 3. Lines -/

/-- Text-mode reading turns `\r\n` and `\r` into `\n`. -/
def universalNewlines : List Char → List Char
  | [] => []
  | '\r' :: '\n' :: rest => '\n' :: universalNewlines rest
  | '\r' :: rest => '\n' :: universalNewlines rest
  | c :: rest => c :: universalNewlines rest

/-- `str.splitlines()`: no line keeps its break, and a final break opens no line. -/
def splitlines : List Char → List (List Char)
  | [] => []
  | '\r' :: '\n' :: rest => [] :: splitlines rest
  | c :: rest =>
      if isLineBreak c then [] :: splitlines rest
      else
        match splitlines rest with
        | [] => [[c]]
        | line :: lines => (c :: line) :: lines

/-! ## 4. Searching and comparing -/

def startsWith (cs : List Char) (pre : String) : Bool := pre.toList.isPrefixOf cs

theorem startsWith_of_append {cs : List Char} {a b : String} (h : startsWith cs (a ++ b) = true) :
    startsWith cs a = true := by
  rw [startsWith, List.isPrefixOf_iff_prefix] at h ⊢
  rw [String.toList_append] at h
  exact (List.prefix_append _ _).trans h

def endsWith (cs : List Char) (suf : String) : Bool := suf.toList.isSuffixOf cs

/-- `needle in text`. -/
def contains (needle : List Char) : List Char → Bool
  | [] => needle.isEmpty
  | c :: rest => needle.isPrefixOf (c :: rest) || contains needle rest

def lowerChar (c : Char) : List Char :=
  if 'A' ≤ c && c ≤ 'Z' then [Char.ofNat (c.toNat + 32)]
  else if c.toNat == 0x212A then ['k']
  else if c.toNat == 0x130 then ['i', Char.ofNat 0x307]
  else [c]

def lowerText (cs : List Char) : List Char := cs.flatMap lowerChar

def lower (s : String) : String := String.ofList (lowerText s.toList)

/-- `text.split("+")` and its like: cut at every occurrence of `sep`. -/
def splitOnChar (sep : Char) (cs : List Char) : List (List Char) := cs.splitOn sep

theorem not_mem_splitOnChar {sep : Char} {cs piece : List Char}
    (h : piece ∈ splitOnChar sep cs) : sep ∉ piece := by
  unfold splitOnChar at h
  induction cs generalizing piece with
  | nil =>
    rw [List.splitOn_nil, List.mem_singleton] at h
    rw [h]
    exact List.not_mem_nil
  | cons c cs ih =>
    obtain ⟨first, pieces, hsplit⟩ := List.exists_cons_of_ne_nil (List.splitOn_ne_nil sep cs)
    rw [List.splitOn_cons_eq_if_modifyHead, hsplit] at h
    rw [hsplit] at ih
    split at h
    · rcases List.mem_cons.mp h with rfl | hmem
      · exact List.not_mem_nil
      · exact ih hmem
    · rename_i hc
      rcases List.mem_cons.mp h with rfl | hmem
      · rw [List.mem_cons, not_or]
        exact ⟨fun heq => hc (by simp [heq]), ih List.mem_cons_self⟩
      · exact ih (List.mem_cons_of_mem _ hmem)

/-- A character other than the separator is in one of the pieces. -/
theorem exists_mem_splitOnChar {sep c : Char} {cs : List Char} (hc : c ∈ cs) (hne : c ≠ sep) :
    ∃ piece ∈ splitOnChar sep cs, c ∈ piece := by
  unfold splitOnChar
  induction cs with
  | nil => cases hc
  | cons d cs ih =>
    obtain ⟨first, pieces, hsplit⟩ := List.exists_cons_of_ne_nil (List.splitOn_ne_nil sep cs)
    rw [List.splitOn_cons_eq_if_modifyHead]
    rw [hsplit] at ih ⊢
    rcases List.mem_cons.mp hc with rfl | hmem
    · rw [if_neg (by simpa using hne)]
      exact ⟨c :: first, List.mem_cons_self, List.mem_cons_self⟩
    · obtain ⟨piece, hpiece, hcp⟩ := ih hmem
      split
      · exact ⟨piece, List.mem_cons_of_mem _ hpiece, hcp⟩
      · rcases List.mem_cons.mp hpiece with rfl | hrest
        · exact ⟨d :: piece, List.mem_cons_self, List.mem_cons_of_mem d hcp⟩
        · exact ⟨piece, List.mem_cons_of_mem _ hrest, hcp⟩

example : strip " \ta b\n" = "a b" := by decide
example : splitlines "a\r\nb\n\nc".toList = [['a'], ['b'], [], ['c']] := by decide

end EccFe.Python
