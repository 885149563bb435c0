/-
EccFe.Python.Shlex — `shlex.split(text, comments=True, posix=True)`.

The scanner is the one of the standard library with `whitespace_split` on: its
state is what `shlex.state` holds, and a token is given out when a blank, a
comment or the end of the text ends it. `none` is the `ValueError` raised for an
open quotation or a trailing backslash.
-/
import EccFe.Python.Text

namespace EccFe.Python

inductive ShlexState where
  | blank
  | word
  | quote (q : Char)
  /-- After a backslash; `inQuote` is the quotation it was met in. -/
  | escape (inQuote : Option Char)
  | comment
  deriving DecidableEq

/-- `shlex.whitespace`: not the class `str.strip` removes. -/
def isShlexSpace (c : Char) : Bool := c == ' ' || c == '\t' || c == '\r' || c == '\n'

def ShlexState.afterEscape : Option Char → ShlexState
  | some q => .quote q
  | none => .word

/-- `token` is the text of the token being read. -/
def shlexScan : ShlexState → List Char → List Char → Option (List (List Char))
  | .blank, _, [] => some []
  | .comment, _, [] => some []
  | .word, token, [] => some [token]
  | .quote _, _, [] => none
  | .escape _, _, [] => none
  | .blank, token, c :: rest =>
      if isShlexSpace c then shlexScan .blank token rest
      else if c = '#' then shlexScan .comment [] rest
      else if c = '\\' then shlexScan (.escape none) [] rest
      else if isQuote c then shlexScan (.quote c) [] rest
      else shlexScan .word [c] rest
  | .comment, token, c :: rest =>
      if c = '\n' then shlexScan .blank token rest else shlexScan .comment token rest
  | .quote q, token, c :: rest =>
      if c = q then shlexScan .word token rest
      else if c = '\\' ∧ q = '"' then shlexScan (.escape (some q)) token rest
      else shlexScan (.quote q) (token ++ [c]) rest
  | .escape inQuote, token, c :: rest =>
      -- inside quotes only the quote and the backslash itself can be escaped
      let kept := if inQuote.isSome ∧ c ≠ '\\' ∧ some c ≠ inQuote then ['\\'] else []
      shlexScan (.afterEscape inQuote) (token ++ kept ++ [c]) rest
  | .word, token, c :: rest =>
      if isShlexSpace c then (shlexScan .blank [] rest).map (token :: ·)
      else if c = '#' then (shlexScan .comment [] rest).map (token :: ·)
      else if isQuote c then shlexScan (.quote c) token rest
      else if c = '\\' then shlexScan (.escape none) token rest
      else shlexScan .word (token ++ [c]) rest

def shlexSplit (text : List Char) : Option (List (List Char)) := shlexScan .blank [] text

example : shlexSplit "-f 'a b'.f # c".toList = some ["-f".toList, "a b.f".toList] := by decide
example : shlexSplit "a\"b".toList = none := by decide

/-- `str.split()`: maximal runs of characters that are not white space. -/
def splitSpaces : List Char → List (List Char)
  | [] => []
  | c :: rest =>
      if isSpace c then splitSpaces rest
      else
        match rest, splitSpaces rest with
        | d :: _, token :: tokens => if isSpace d then [c] :: token :: tokens else (c :: token) :: tokens
        | _, tokens => [c] :: tokens

example : splitSpaces " ab  c".toList = ["ab".toList, "c".toList] := by decide

/-! ## 2. Quoting -/

/-- The characters `shlex.quote` leaves bare. -/
def isShellSafe (c : Char) : Bool :=
  ('a' ≤ c && c ≤ 'z') || ('A' ≤ c && c ≤ 'Z') || ('0' ≤ c && c ≤ '9') ||
    "_@%+=:,./-".toList.contains c

/-- The text inside the quotes: a quote is closed, written in double quotes, and opened again. -/
def quoteBody (cs : List Char) : List Char :=
  cs.flatMap fun c => if c = '\'' then "'\"'\"'".toList else [c]

/-- `shlex.quote(text)`. -/
def shlexQuote (cs : List Char) : List Char :=
  if cs = [] then ['\'', '\'']
  else if cs.all isShellSafe then cs
  else '\'' :: quoteBody cs ++ ['\'']

example : shlexQuote "it's".toList = "'it'\"'\"'s'".toList := by decide

/-- A bare character has no meaning of its own. -/
theorem plain_of_isShellSafe {c : Char} (h : isShellSafe c = true) :
    isSpace c = false ∧ isShlexSpace c = false ∧ c ≠ '#' ∧ c ≠ '\\' ∧ isQuote c = false := by
  have hlt : c.toNat < 128 := by
    by_contra hge
    have hle : ∀ d : Char, d.toNat < 128 → ¬c ≤ d := fun d hd hcd =>
      hge (Nat.lt_of_le_of_lt (Char.le_def.mp hcd) hd)
    have hne : ∀ d : Char, d.toNat < 128 → c ≠ d := fun d hd hcd => hge (hcd ▸ hd)
    revert h
    simp [isShellSafe, hle, hne]
  have hall : ∀ n < 128, isShellSafe (Char.ofNat n) = true →
      isSpace (Char.ofNat n) = false ∧ isShlexSpace (Char.ofNat n) = false ∧ Char.ofNat n ≠ '#' ∧
        Char.ofNat n ≠ '\\' ∧ isQuote (Char.ofNat n) = false := by decide +kernel
  have hc := hall c.toNat hlt
  rw [Char.ofNat_toNat] at hc
  exact hc h

theorem quoteBody_cons (c : Char) (cs : List Char) :
    quoteBody (c :: cs) = (if c = '\'' then "'\"'\"'".toList else [c]) ++ quoteBody cs :=
  List.flatMap_cons

/-- The scanner reads the body of a quotation as the text that was quoted. -/
theorem shlexScan_quoteBody (token cs rest : List Char) :
    shlexScan (.quote '\'') token (quoteBody cs ++ rest) =
      shlexScan (.quote '\'') (token ++ cs) rest := by
  induction cs generalizing token with
  | nil => rw [List.append_nil]; rfl
  | cons c cs ih =>
    rw [quoteBody_cons]
    by_cases hc : c = '\''
    · subst hc
      rw [if_pos rfl, List.append_assoc]
      show shlexScan (.quote '\'') (token ++ ['\'']) (quoteBody cs ++ rest) = _
      rw [ih, List.append_assoc]
      rfl
    · rw [if_neg hc, List.singleton_append, List.cons_append, shlexScan, if_neg hc,
        if_neg (by rintro ⟨-, h⟩; exact absurd h (by decide)), ih, List.append_assoc]
      rfl

/-- Quoted text is one word, also after the beginning of a word. -/
theorem shlexScan_word_quote (token cs : List Char) :
    shlexScan .word token (shlexQuote cs) = some [token ++ cs] := by
  unfold shlexQuote
  split
  · rename_i h
    subst h
    rw [List.append_nil]
    rfl
  split
  · rename_i _ hsafe
    rw [List.all_eq_true] at hsafe
    clear * - hsafe
    induction cs generalizing token with
    | nil => rw [List.append_nil]; rfl
    | cons c cs ih =>
      obtain ⟨-, hspace, hcomment, hescape, hquote⟩ := plain_of_isShellSafe (hsafe c (by simp))
      rw [shlexScan, hspace, if_neg Bool.false_ne_true, if_neg hcomment, hquote,
        if_neg Bool.false_ne_true, if_neg hescape, ih _ fun d hd => hsafe d (by simp [hd]),
        List.append_assoc]
      rfl
  · show shlexScan (.quote '\'') token (quoteBody cs ++ ['\'']) = _
    rw [shlexScan_quoteBody]
    rfl

/-- Splitting gives the quoted text back. -/
theorem shlexSplit_quote (cs : List Char) : shlexSplit (shlexQuote cs) = some [cs] := by
  have hword : shlexScan .word [] (shlexQuote cs) = some [cs] := shlexScan_word_quote [] cs
  rw [← hword, shlexSplit]
  unfold shlexQuote
  split
  · rfl
  split
  · rename_i hne hsafe
    obtain ⟨c, cs, rfl⟩ := List.exists_cons_of_ne_nil hne
    rw [List.all_eq_true] at hsafe
    obtain ⟨-, hspace, hcomment, hescape, hquote⟩ := plain_of_isShellSafe (hsafe c (by simp))
    rw [shlexScan, shlexScan, hspace, hquote]
    simp only [if_neg hcomment, if_neg hescape, Bool.false_eq_true, if_false, List.nil_append]
  · rfl

/-- A quotation that is not closed is refused. -/
theorem shlexScan_open (token cs : List Char) :
    shlexScan (.quote '\'') token (quoteBody cs) = none := by
  rw [← List.append_nil (quoteBody cs), shlexScan_quoteBody]
  rfl

/-- White space at the ends is inside the quotation. -/
theorem stripBy_quote (cs : List Char) : stripBy isSpace (shlexQuote cs) = shlexQuote cs := by
  refine stripBy_eq_self ?_ ?_
  · unfold shlexQuote
    split
    · decide
    split
    · rename_i hsafe
      rw [List.all_eq_true] at hsafe
      exact fun c hc => (plain_of_isShellSafe (hsafe c (List.mem_of_mem_head? hc))).1
    · simp [isSpace]
  · unfold shlexQuote
    split
    · decide
    split
    · rename_i hsafe
      rw [List.all_eq_true] at hsafe
      exact fun c hc => (plain_of_isShellSafe (hsafe c (List.mem_of_mem_getLast? hc))).1
    · rw [List.getLast?_concat]
      decide

/-- The body of a quotation that a line break cuts, stripped, is a body again. -/
theorem rstrip_quoteBody (cs : List Char) :
    (quoteBody cs).rdropWhile isSpace = quoteBody (cs.rdropWhile isSpace) := by
  induction cs using List.reverseRecOn with
  | nil => rfl
  | append_singleton cs c ih =>
    have hbody : quoteBody (cs ++ [c]) =
        quoteBody cs ++ if c = '\'' then "'\"'\"'".toList else [c] := by
      unfold quoteBody
      rw [List.flatMap_append, List.flatMap_singleton]
    by_cases hc : c = '\''
    · subst hc
      rw [List.rdropWhile_concat_neg _ _ _ (by decide), hbody, if_pos rfl]
      have hquote : "'\"'\"'".toList = "'\"'\"".toList ++ ['\''] := rfl
      rw [hquote, ← List.append_assoc, List.rdropWhile_concat_neg _ _ _ (by decide)]
    · rw [hbody, if_neg hc]
      by_cases hspace : isSpace c = true
      · rw [List.rdropWhile_concat_pos _ _ _ hspace, List.rdropWhile_concat_pos _ _ _ hspace, ih]
      · rw [List.rdropWhile_concat_neg _ _ _ hspace, List.rdropWhile_concat_neg _ _ _ hspace, hbody,
          if_neg hc]

theorem shlexQuote_ne_nil (cs : List Char) : shlexQuote cs ≠ [] := by
  unfold shlexQuote
  split
  · simp
  split
  · assumption
  · simp

theorem quoteBody_of_not_mem {cs : List Char} (h : '\'' ∉ cs) : quoteBody cs = cs := by
  induction cs with
  | nil => rfl
  | cons c cs ih =>
    rw [List.mem_cons, not_or] at h
    rw [quoteBody_cons, if_neg (Ne.symm h.1), ih h.2]
    rfl

theorem mem_quoteBody {c : Char} {cs : List Char} (h : c ∈ cs) : c ∈ quoteBody cs := by
  refine List.mem_flatMap.mpr ⟨c, h, ?_⟩
  split
  · rename_i hc
    rw [hc]
    decide
  · exact List.mem_singleton_self c

theorem mem_shlexQuote {c : Char} {cs : List Char} (h : c ∈ cs) : c ∈ shlexQuote cs := by
  unfold shlexQuote
  split
  · rename_i hnil
    rw [hnil] at h
    cases h
  split
  · exact h
  · exact List.mem_append_left _ (List.mem_cons_of_mem _ (mem_quoteBody h))

theorem mem_of_mem_shlexQuote {c : Char} {cs : List Char} (h : c ∈ shlexQuote cs)
    (hc : isQuote c = false) : c ∈ cs := by
  have hbody : c ∈ quoteBody cs → c ∈ cs := by
    intro hmem
    obtain ⟨d, hd, hmem⟩ := List.mem_flatMap.mp hmem
    split at hmem
    · have hall : ∀ c ∈ "'\"'\"'".toList, isQuote c = true := by decide
      rw [hall c hmem] at hc
      cases hc
    · rwa [List.mem_singleton.mp hmem]
  unfold shlexQuote at h
  split at h
  · have hall : ∀ c ∈ ['\'', '\''], isQuote c = true := by decide
    rw [hall c h] at hc
    cases hc
  split at h
  · exact h
  · rw [List.mem_append, List.mem_cons, List.mem_singleton] at h
    rcases h with (rfl | hmem) | rfl
    · cases hc
    · exact hbody hmem
    · cases hc

/-- A quote inside makes the quotation longer than the text. -/
theorem length_quoteBody {cs : List Char} (h : '\'' ∈ cs) : cs.length < (quoteBody cs).length := by
  have hle : ∀ cs : List Char, cs.length ≤ (quoteBody cs).length := by
    intro cs
    induction cs with
    | nil => exact Nat.le_refl _
    | cons c cs ih =>
      rw [quoteBody_cons, List.length_append, List.length_cons]
      have hone : 1 ≤ (if c = '\'' then "'\"'\"'".toList else [c]).length := by
        split
        · decide
        · exact Nat.le_refl _
      omega
  obtain ⟨init, rest, rfl⟩ := List.append_of_mem h
  have hsplit : quoteBody (init ++ '\'' :: rest) =
      quoteBody init ++ ("'\"'\"'".toList ++ quoteBody rest) := by
    rw [← List.append_assoc]
    unfold quoteBody
    rw [List.flatMap_append, List.flatMap_cons, if_pos rfl, List.append_assoc]
  rw [hsplit]
  simp only [List.length_append, List.length_cons]
  have hinit := hle init
  have hrest := hle rest
  have hfive : "'\"'\"'".toList.length = 5 := rfl
  omega

/-! ## 3. Words that lose nothing -/

/-- A character that stands for itself outside quotations. -/
def isShlexPlain (c : Char) : Bool :=
  !isShlexSpace c && !(c == '#') && !(c == '\\') && !isQuote c

theorem isShlexPlain_iff {c : Char} : isShlexPlain c = true ↔
    isShlexSpace c = false ∧ c ≠ '#' ∧ c ≠ '\\' ∧ isQuote c = false := by
  simp [isShlexPlain, and_assoc]

theorem shlexScan_word_plain (token : List Char) {cs : List Char}
    (h : ∀ c ∈ cs, isShlexPlain c = true) : shlexScan .word token cs = some [token ++ cs] := by
  induction cs generalizing token with
  | nil => rw [List.append_nil]; rfl
  | cons c cs ih =>
    obtain ⟨hspace, hcomment, hescape, hquote⟩ := isShlexPlain_iff.mp (h c List.mem_cons_self)
    rw [shlexScan, hspace, if_neg Bool.false_ne_true, if_neg hcomment, hquote,
      if_neg Bool.false_ne_true, if_neg hescape, ih _ fun d hd => h d (List.mem_cons_of_mem c hd),
      List.append_assoc]
    rfl

/-- Once a word is begun, there is one. -/
theorem shlexScan_ne_nil : ∀ (cs : List Char) (state : ShlexState) (token : List Char),
    state ≠ .blank → state ≠ .comment → shlexScan state token cs ≠ some []
  | [], state, token, hblank, hcomment => by
      cases state with
      | blank => exact absurd rfl hblank
      | comment => exact absurd rfl hcomment
      | word | quote q | escape q => simp [shlexScan]
  | c :: cs, state, token, hblank, hcomment => by
      have hword := fun token => shlexScan_ne_nil cs .word token (by simp) (by simp)
      have hquote := fun q token => shlexScan_ne_nil cs (.quote q) token (by simp) (by simp)
      have hescape := fun q token => shlexScan_ne_nil cs (.escape q) token (by simp) (by simp)
      cases state with
      | blank => exact absurd rfl hblank
      | comment => exact absurd rfl hcomment
      | quote q =>
        rw [shlexScan]
        split
        · exact hword token
        split
        · exact hescape (some q) token
        · exact hquote q _
      | escape inQuote =>
        rw [shlexScan]
        cases inQuote with
        | none => exact hword _
        | some q => exact hquote q _
      | word =>
        rw [shlexScan]
        split
        · simp
        split
        · simp
        split
        · exact hquote c token
        split
        · exact hescape none token
        · exact hword _

/-- What the word being read becomes, from a token: it starts with the token, and a quotation and
a comment take characters away, while an escape gives back the backslash it took. -/
def ShlexState.Bounds (word token cs : List Char) : ShlexState → Prop
  | .word => token <+: word ∧ word.length ≤ token.length + cs.length ∧
      (word.length = token.length + cs.length → ∀ c ∈ cs, isShlexPlain c = true)
  | .quote _ => token <+: word ∧ word.length < token.length + cs.length
  | .escape _ => token <+: word ∧ word.length ≤ token.length + cs.length
  | .blank => True
  | .comment => True

theorem shlexScan_bounds {word : List Char} {words : List (List Char)} :
    ∀ (cs : List Char) (state : ShlexState) (token : List Char),
      shlexScan state token cs = some (word :: words) → state.Bounds word token cs
  | [], state, token, h => by
      cases state with
      | word =>
        cases h
        exact ⟨List.prefix_refl _, Nat.le_refl _, by simp⟩
      | blank | comment => trivial
      | quote q | escape q => cases h
  | c :: cs, state, token, h => by
      have hlength : (c :: cs).length = cs.length + 1 := List.length_cons
      cases state with
      | blank | comment => trivial
      | quote q =>
        rw [shlexScan] at h
        split at h
        · obtain ⟨hpre, hword, -⟩ := shlexScan_bounds cs .word token h
          exact ⟨hpre, by omega⟩
        split at h
        · obtain ⟨hpre, hescape⟩ := shlexScan_bounds cs (.escape (some q)) token h
          exact ⟨hpre, by omega⟩
        · obtain ⟨hpre, hquote⟩ := shlexScan_bounds cs (.quote q) (token ++ [c]) h
          rw [List.length_append, List.length_singleton] at hquote
          exact ⟨(List.prefix_append _ _).trans hpre, by omega⟩
      | escape inQuote =>
        rw [shlexScan, List.append_assoc] at h
        cases inQuote with
        | none =>
          obtain ⟨hpre, hword, -⟩ := shlexScan_bounds cs .word _ h
          simp only [Option.isSome_none, Bool.false_eq_true, false_and, if_false, List.nil_append,
            List.length_append, List.length_singleton] at hword
          exact ⟨(List.prefix_append _ _).trans hpre, by omega⟩
        | some q =>
          -- the backslash that is kept was counted when the scanner met it
          obtain ⟨hpre, hquote⟩ := shlexScan_bounds cs (.quote q) _ h
          have hkept : ∀ p : Prop, [Decidable p] → (if p then ['\\'] else []).length ≤ 1 := by
            intro p _
            split <;> decide
          have hone := hkept ((some q).isSome ∧ c ≠ '\\' ∧ some c ≠ some q)
          rw [List.length_append, List.length_append, List.length_singleton] at hquote
          exact ⟨(List.prefix_append _ _).trans hpre, by omega⟩
      | word =>
        rw [shlexScan] at h
        have hended : ∀ {rest : Option (List (List Char))},
            rest.map (token :: ·) = some (word :: words) → word = token := by
          intro rest hrest
          obtain ⟨_, _, heq⟩ := Option.map_eq_some_iff.mp hrest
          cases heq
          rfl
        have hless : token <+: word → word.length < token.length + (c :: cs).length →
            ShlexState.Bounds word token (c :: cs) .word := fun hpre hlt =>
          ⟨hpre, Nat.le_of_lt hlt, fun heq => absurd heq (Nat.ne_of_lt hlt)⟩
        split at h
        · exact hless (hended h ▸ List.prefix_refl _) (by rw [hended h]; omega)
        rename_i hspace
        split at h
        · exact hless (hended h ▸ List.prefix_refl _) (by rw [hended h]; omega)
        rename_i hcomment
        split at h
        · obtain ⟨hpre, hquote⟩ := shlexScan_bounds cs (.quote c) token h
          exact hless hpre (by omega)
        rename_i hquote
        split at h
        · obtain ⟨hpre, hescape⟩ := shlexScan_bounds cs (.escape none) token h
          exact hless hpre (by omega)
        rename_i hescape
        obtain ⟨hpre, hle, heq⟩ := shlexScan_bounds cs .word (token ++ [c]) h
        rw [List.length_append, List.length_singleton] at hle heq
        refine ⟨(List.prefix_append _ _).trans hpre, by omega, fun hall d hd => ?_⟩
        rcases List.mem_cons.mp hd with rfl | hd
        · exact isShlexPlain_iff.mpr ⟨by simpa using hspace, hcomment, hescape, by simpa using hquote⟩
        · exact heq (by omega) d hd

theorem shlexSplit_cons {c : Char} (h : isShlexPlain c = true) (cs : List Char) :
    shlexSplit (c :: cs) = shlexScan .word [c] cs := by
  obtain ⟨hspace, hcomment, hescape, hquote⟩ := isShlexPlain_iff.mp h
  rw [shlexSplit, shlexScan, hspace, if_neg Bool.false_ne_true, if_neg hcomment, if_neg hescape,
    hquote, if_neg Bool.false_ne_true]

/-- A text that starts with a plain character has a first word, and the word starts there. -/
theorem exists_of_shlexSplit_cons {c : Char} (h : isShlexPlain c = true) {cs : List Char}
    {words : List (List Char)} (hsplit : shlexSplit (c :: cs) = some words) :
    ∃ first rest, words = (c :: first) :: rest ∧ first.length ≤ cs.length ∧
      (first.length = cs.length → ∀ d ∈ cs, isShlexPlain d = true) := by
  rw [shlexSplit_cons h] at hsplit
  cases words with
  | nil => exact absurd hsplit (shlexScan_ne_nil cs .word [c] (by simp) (by simp))
  | cons word rest =>
    obtain ⟨⟨first, rfl⟩, hle, hall⟩ := shlexScan_bounds cs .word [c] hsplit
    rw [List.singleton_append, List.length_cons, List.length_singleton] at hle hall
    exact ⟨first, rest, rfl, by omega, fun heq => hall (by omega)⟩

end EccFe.Python
