/-
EccFe.Tools.SvDirectives — `_apply_sv_conditional_directives` against the preprocessor.

The code walks the lines with a stack of flags. The preprocessor is given by recursion over the nested
source (`Block.run`): what is not selected is never looked at. A line is read by a pattern that does not
end the keyword, so a use of a macro whose name goes on after a keyword is taken for a directive, and
the text of a macro that goes on over several lines is taken for source.
-/
import EccFe.Python.RegexRuns
import EccFe.Tools.SvModule
import Mathlib.Data.List.Flatten

namespace EccFe.Tools.SvModule

open Python

/-! ## 1. Reading a line -/

def directiveKeywords : List String :=
  ["ifdef", "ifndef", "elsif", "else", "endif", "define", "undef"]

/-- What follows the backtick the line starts with. -/
def afterBacktick? (line : List Char) : Option (List Char) :=
  match line.dropWhile isSpace with
  | '`' :: rest => some rest
  | _ => none

/-- The name after white space. -/
def nameAfter (rest : List Char) : List Char :=
  if rest.head?.any isSpace ∧ (rest.dropWhile isSpace).head?.any isIdentifierStart then
    (rest.dropWhile isSpace).takeWhile isIdentifierChar
  else []

/-- The keyword and the name `directivePattern` finds. -/
def readDirective? (line : List Char) : Option (String × String) :=
  match afterBacktick? line with
  | none => none
  | some rest =>
      (directiveKeywords.find? fun keyword => keyword.toList <+: rest).map fun keyword =>
        (keyword, String.ofList (nameAfter (rest.drop keyword.toList.length)))

/-- No keyword starts another one. -/
theorem keyword_eq_of_starts {k keyword : String} (hk : k ∈ directiveKeywords)
    (hkeyword : keyword ∈ directiveKeywords) (h : k.toList <+: keyword.toList) : k = keyword := by
  have hcheck : ∀ k ∈ directiveKeywords, ∀ keyword ∈ directiveKeywords,
      k.toList <+: keyword.toList → k = keyword := by decide +kernel
  exact hcheck k hk keyword hkeyword h

/-- A text begins with one keyword at most. -/
theorem keyword_unique {k keyword : String} (hk : k ∈ directiveKeywords)
    (hkeyword : keyword ∈ directiveKeywords) {rest : List Char} (hkrest : k.toList <+: rest)
    (hrest : keyword.toList <+: rest) : k = keyword := by
  rcases List.prefix_or_prefix_of_prefix hkrest hrest with h | h
  · exact keyword_eq_of_starts hk hkeyword h
  · exact (keyword_eq_of_starts hkeyword hk h).symm

/-! ## 2. The pattern -/

/-- The places where the keyword of a directive stops. -/
theorem ends_oneOf_text (c : Cursor) : ∀ ks : List String,
    Regex.ends (Regex.oneOf (ks.map .text)) c =
      (ks.filter fun k => k.toList <+: c.rest).map fun k => c.advance k.toList.length
  | [] => rfl
  | k :: ks => by
      have ih := ends_oneOf_text c ks
      rw [Regex.oneOf] at ih
      simp only [Regex.oneOf, List.map_cons, List.foldr_cons, Regex.ends, Regex.ends_text, ih,
        List.filter_cons]
      by_cases hk : k.toList <+: c.rest <;> simp [hk]

theorem filter_keywords {keyword : String} (hkeyword : keyword ∈ directiveKeywords)
    {rest : List Char} (hrest : keyword.toList <+: rest) :
    directiveKeywords.filter (fun k => k.toList <+: rest) = [keyword] := by
  have hfilter : directiveKeywords.filter (fun k => k.toList <+: rest) =
      directiveKeywords.filter (· = keyword) := by
    refine List.filter_congr fun k hk => ?_
    rw [decide_eq_decide]
    constructor
    · intro hkrest
      exact keyword_unique hk hkeyword hkrest hrest
    · rintro rfl
      exact hrest
  have hcheck : ∀ keyword ∈ directiveKeywords, directiveKeywords.filter (· = keyword) = [keyword] := by
    decide +kernel
  rw [hfilter, hcheck keyword hkeyword]

theorem find_keywords {keyword : String} (hkeyword : keyword ∈ directiveKeywords)
    {rest : List Char} (hrest : keyword.toList <+: rest) :
    directiveKeywords.find? (fun k => k.toList <+: rest) = some keyword := by
  rw [← List.head?_filter, filter_keywords hkeyword hrest, List.head?_cons]

/-- The longest name comes first. -/
theorem head_ends_identifier (c : Cursor) :
    (Regex.ends identifier c).head? =
      if c.rest.head?.any isIdentifierStart then some (c.afterRun isIdentifierChar) else none := by
  cases hrest : c.rest with
  | nil => simp [identifier, Regex.ends_char_neg, hrest]
  | cons x rest =>
    by_cases hx : isIdentifierStart x = true
    · have hchar : isIdentifierChar x = true := by simp [isIdentifierChar, hx]
      obtain ⟨shorter, heq, -⟩ := Regex.ends_run isIdentifierChar ⟨some x, rest, c.groups⟩
      simp [identifier, Regex.ends_char_pos hrest hx, heq, hx, Cursor.afterRun_cons hrest hchar]
    · simp [identifier, Regex.ends_char_neg, hrest, hx]

def namePart : Regex := .seq (.plus .space) (.group "name" identifier)

theorem head_ends_namePart (c : Cursor) :
    ((Regex.ends (.maybe namePart) c).head?.map (·.groups)) =
      some (if nameAfter c.rest = [] then c.groups else ("name", nameAfter c.rest) :: c.groups) := by
  have houtside : Regex.StartsOutside isSpace (.group "name" identifier) :=
    .group (.seq (Regex.startsOutside_char fun _ => identifierStart_of_space) _) "name"
  have hname := Regex.ends_plus_seq houtside c
  have hhead := head_ends_identifier (c.afterRun isSpace)
  rw [Cursor.rest_afterRun] at hhead
  rw [Regex.maybe, Regex.ends, namePart, Regex.space, hname, nameAfter]
  by_cases hgap : c.rest.head?.any isSpace = true
  · by_cases hstart : (c.rest.dropWhile isSpace).head?.any isIdentifierStart = true
    · rw [if_pos hstart] at hhead
      have hne : (c.rest.dropWhile isSpace).takeWhile isIdentifierChar ≠ [] := by
        cases hrest : c.rest.dropWhile isSpace with
        | nil => simp [hrest] at hstart
        | cons x rest =>
          have hx : isIdentifierChar x = true := by
            simp only [hrest, List.head?_cons, Option.any_some] at hstart
            simp [isIdentifierChar, hstart]
          simp [hx]
      simp [hgap, hstart, hne, hhead, List.head?_append, Regex.ends_group, Cursor.take_run]
    · rw [if_neg hstart, List.head?_eq_none_iff] at hhead
      simp [hgap, hstart, hhead, Regex.ends_group]
  · simp [hgap]

/-- What follows the white space and the backtick. -/
def keywordPart : Regex :=
  .seq (.group "kind" (Regex.oneOf (directiveKeywords.map .text))) (.seq (.maybe namePart) .empty)

/-- A line without a backtick in front matches nothing. -/
theorem ends_directivePattern (line : List Char) :
    Regex.ends directivePattern ⟨none, line, []⟩ =
      match afterBacktick? line with
      | none => []
      | some _ =>
          Regex.ends keywordPart ((Cursor.afterRun isSpace ⟨none, line, []⟩).advance 1) := by
  have houtside : Regex.StartsOutside isSpace (.seq (.text "`") keywordPart) :=
    .seq (Regex.startsOutside_text rfl rfl) _
  have hrun := Regex.ends_run_seq houtside ⟨none, line, []⟩
  have hstart : Regex.ends directivePattern ⟨none, line, []⟩ =
      Regex.ends (.seq (.star true (.char isSpace)) (.seq (.text "`") keywordPart))
        ⟨none, line, []⟩ := by
    have hcursor : Regex.ends Regex.textStart ⟨none, line, []⟩ = [⟨none, line, []⟩] := rfl
    change (Regex.ends Regex.textStart ⟨none, line, []⟩).flatMap (Regex.ends _) = _
    rw [hcursor, List.flatMap_cons, List.flatMap_nil, List.append_nil]
    rfl
  rw [hstart, hrun, Regex.ends_text_seq, Cursor.rest_afterRun, afterBacktick?]
  cases hrest : line.dropWhile isSpace with
  | nil => simp
  | cons x rest =>
    by_cases hx : x = '`'
    · subst hx
      simp
    · have hx' : ¬ '`' = x := fun h => hx h.symm
      simp [hx, hx']

theorem dropWhile_of_afterBacktick {line rest : List Char} (h : afterBacktick? line = some rest) :
    line.dropWhile isSpace = '`' :: rest := by
  unfold afterBacktick? at h
  split at h
  · rename_i heq
    rw [heq, Option.some.inj h]
  · cases h

/-- What the pattern captures is the directive that is read. -/
theorem groups_directivePattern (line : List Char) :
    (Regex.ends directivePattern ⟨none, line, []⟩).head?.map (·.groups) =
      (readDirective? line).map fun (keyword, name) =>
        if name = "" then [("kind", keyword.toList)]
        else [("name", name.toList), ("kind", keyword.toList)] := by
  rw [ends_directivePattern, readDirective?]
  have hafter : ∀ rest, afterBacktick? line = some rest →
      ((Cursor.afterRun isSpace ⟨none, line, []⟩).advance 1).rest = rest := by
    intro rest hline
    rw [Cursor.rest_advance, Cursor.rest_afterRun, dropWhile_of_afterBacktick hline]
    rfl
  cases hline : afterBacktick? line with
  | none => rfl
  | some rest =>
    have hrest := hafter rest hline
    generalize hcursor : (Cursor.afterRun isSpace ⟨none, line, []⟩).advance 1 = c at hrest
    have hgroups : c.groups = [] := by rw [← hcursor]; rfl
    dsimp only
    rw [keywordPart, Regex.ends_seq, Regex.ends_group, ends_oneOf_text, hrest]
    by_cases hkeyword : ∃ keyword ∈ directiveKeywords, keyword.toList <+: rest
    · obtain ⟨keyword, hmem, hprefix⟩ := hkeyword
      have hkind : rest.take (rest.length - (rest.drop keyword.toList.length).length) =
          keyword.toList := by
        have hlength := hprefix.length_le
        rw [List.length_drop, Nat.sub_sub_self hlength]
        exact (List.prefix_iff_eq_take.mp hprefix).symm
      have hname := head_ends_namePart ⟨(c.advance keyword.toList.length).before,
        rest.drop keyword.toList.length, [("kind", keyword.toList)]⟩
      rw [filter_keywords hmem hprefix, find_keywords hmem hprefix, List.map_cons, List.map_nil,
        List.map_cons, List.map_nil, List.flatMap_cons, List.flatMap_nil, List.append_nil,
        Regex.ends_seq_empty, Cursor.rest_advance, Cursor.groups_advance, hrest, hgroups, hkind, hname]
      by_cases hempty : nameAfter (rest.drop keyword.toList.length) = []
      · simp [hempty]
      · simp [hempty]
    · have hnone : directiveKeywords.filter (fun k => k.toList <+: rest) = [] := by
        rw [List.filter_eq_nil_iff]
        intro k hk hprefix
        exact hkeyword ⟨k, hk, of_decide_eq_true hprefix⟩
      rw [hnone, ← List.head?_filter, hnone]
      rfl

/-- The code acts on what the line reads as. -/
theorem conditionalLine_eq (st : DirectiveState) (line : List Char) :
    conditionalLine st line =
      match readDirective? line with
      | none => if st.active then { st with output := st.output ++ line } else st
      | some (keyword, name) => directiveLine st keyword name := by
  have hgroups := groups_directivePattern line
  rw [conditionalLine, Regex.matchStart]
  cases hstop : (Regex.ends directivePattern ⟨none, line, []⟩).head? with
  | none =>
    rw [hstop, Option.map_none] at hgroups
    rw [Option.map_eq_none_iff.mp hgroups.symm]
    rfl
  | some stop =>
    rw [hstop, Option.map_some] at hgroups
    obtain ⟨⟨keyword, name⟩, hread, hstopGroups⟩ := Option.map_eq_some_iff.mp hgroups.symm
    rw [hread]
    simp only [Option.map_some, Regex.Found.group, Regex.Found.of, ← hstopGroups]
    by_cases hname : name = ""
    · simp [hname, List.lookup_cons]
    · simp [hname, List.lookup_cons]

/-- The pattern takes the line for a directive. -/
theorem matchStart_isSome (line : List Char) :
    (directivePattern.matchStart line).isSome = (readDirective? line).isSome := by
  have hgroups := congrArg Option.isSome (groups_directivePattern line)
  rwa [Option.isSome_map, Option.isSome_map, ← Option.isSome_map (f := Regex.Found.of line)] at hgroups

/-! ## 3. Lines of the source -/

/-- The name that follows the backtick. -/
def directiveWord? (line : List Char) : Option (List Char) :=
  (afterBacktick? line).map (·.takeWhile isIdentifierChar)

/-- The name is one of the seven keywords. -/
def IsDirective (line : List Char) : Prop :=
  ∃ keyword ∈ directiveKeywords, directiveWord? line = some keyword.toList

instance (line : List Char) : Decidable (IsDirective line) :=
  inferInstanceAs (Decidable (∃ keyword ∈ directiveKeywords, _))

/-- The name goes on after one of the keywords. -/
def StretchesKeyword (line : List Char) : Prop :=
  ∃ keyword ∈ directiveKeywords, ∃ word,
    directiveWord? line = some word ∧ keyword.toList <+: word ∧ word ≠ keyword.toList

instance (line : List Char) : Decidable (StretchesKeyword line) :=
  decidable_of_iff (∃ keyword ∈ directiveKeywords, (directiveWord? line).any fun word =>
    decide (keyword.toList <+: word ∧ word ≠ keyword.toList)) (by
      simp [StretchesKeyword, Option.any_eq_true])

theorem isIdentifierChar_keyword {keyword : String} (h : keyword ∈ directiveKeywords) :
    ∀ c ∈ keyword.toList, isIdentifierChar c = true := by
  have hcheck : ∀ keyword ∈ directiveKeywords, ∀ c ∈ keyword.toList, isIdentifierChar c = true := by
    decide +kernel
  exact hcheck keyword h

theorem prefix_takeWhile_iff {p : Char → Bool} {cs rest : List Char} (h : ∀ c ∈ cs, p c = true) :
    cs <+: rest.takeWhile p ↔ cs <+: rest := by
  constructor
  · intro hprefix
    exact hprefix.trans (List.takeWhile_prefix p)
  · rintro ⟨after, rfl⟩
    rw [List.takeWhile_append_of_pos h]
    exact List.prefix_append _ _

/-- The lines the pattern takes for directives. -/
theorem readDirective_isSome_iff {line : List Char} :
    (readDirective? line).isSome ↔ IsDirective line ∨ StretchesKeyword line := by
  rw [readDirective?, IsDirective, StretchesKeyword, directiveWord?]
  cases afterBacktick? line with
  | none => simp
  | some rest =>
    simp only [Option.isSome_map, List.find?_isSome, decide_eq_true_eq, Option.map_some,
      Option.some.injEq]
    constructor
    · rintro ⟨keyword, hmem, hprefix⟩
      have hword := (prefix_takeWhile_iff (isIdentifierChar_keyword hmem)).mpr hprefix
      by_cases heq : rest.takeWhile isIdentifierChar = keyword.toList
      · exact .inl ⟨keyword, hmem, heq⟩
      · exact .inr ⟨keyword, hmem, _, rfl, hword, heq⟩
    · rintro (⟨keyword, hmem, heq⟩ | ⟨keyword, hmem, word, rfl, hword, -⟩)
      · exact ⟨keyword, hmem, heq ▸ List.takeWhile_prefix _⟩
      · exact ⟨keyword, hmem, hword.trans (List.takeWhile_prefix _)⟩

/-- A longer word than a keyword is no directive. -/
theorem not_isDirective_of_stretches {line : List Char} (h : StretchesKeyword line) :
    ¬ IsDirective line := by
  obtain ⟨keyword, hmem, word, hword, hprefix, hne⟩ := h
  rintro ⟨keyword', hmem', hword'⟩
  obtain rfl : word = keyword'.toList := Option.some.inj (hword.symm.trans hword')
  exact hne (by rw [keyword_eq_of_starts hmem hmem' hprefix])

/-- White space, a backtick, the keyword, and `rest`. -/
def Starts (keyword : String) (line rest : List Char) : Prop :=
  ∃ blanks, (∀ c ∈ blanks, isSpace c = true) ∧ line = blanks ++ '`' :: (keyword.toList ++ rest)

/-- White space and a macro name, before `tail`. -/
structure Names (name : String) (rest tail : List Char) : Prop where
  split : ∃ gap, gap ≠ [] ∧ (∀ c ∈ gap, isSpace c = true) ∧ rest = gap ++ (name.toList ++ tail)
  start : name.toList.head?.any isIdentifierStart = true
  chars : ∀ c ∈ name.toList, isIdentifierChar c = true
  stops : ∀ c ∈ tail.head?, isIdentifierChar c = false

theorem afterBacktick_of_starts {keyword : String} {line rest : List Char}
    (h : Starts keyword line rest) : afterBacktick? line = some (keyword.toList ++ rest) := by
  obtain ⟨blanks, hblanks, rfl⟩ := h
  have htick : isSpace '`' = false := rfl
  rw [afterBacktick?, List.dropWhile_append_of_pos hblanks,
    List.dropWhile_cons_of_neg (by simp [htick])]
  rfl

/-- A line that starts with a directive is read as it. -/
theorem readDirective_of_starts {keyword : String} (hmem : keyword ∈ directiveKeywords)
    {line rest : List Char} (h : Starts keyword line rest) :
    readDirective? line = some (keyword, String.ofList (nameAfter rest)) := by
  rw [readDirective?, afterBacktick_of_starts h]
  simp only [find_keywords hmem (List.prefix_append _ rest), Option.map_some, List.drop_left]

/-- The name after a keyword is read in full. -/
theorem nameAfter_of_names {name : String} {rest tail : List Char} (h : Names name rest tail) :
    String.ofList (nameAfter rest) = name := by
  obtain ⟨⟨gap, hne, hgap, rfl⟩, hstart, hchars, hstops⟩ := h
  have hdrop : (gap ++ (name.toList ++ tail)).dropWhile isSpace = name.toList ++ tail := by
    rw [List.dropWhile_append_of_pos hgap]
    refine dropWhile_eq_self fun c hc => ?_
    cases hname : name.toList with
    | nil => simp [hname] at hstart
    | cons x cs =>
      simp only [hname, List.cons_append, List.head?_cons, Option.mem_def, Option.some.injEq] at hc
      subst hc
      by_contra hspace
      simp [hname, identifierStart_of_space (Bool.not_eq_false _ ▸ hspace)] at hstart
  have hhead : (gap ++ (name.toList ++ tail)).head?.any isSpace = true := by
    cases gap with
    | nil => exact absurd rfl hne
    | cons x gap => simpa using hgap x (by simp)
  have htail : tail.takeWhile isIdentifierChar = [] := by
    cases tail with
    | nil => rfl
    | cons x tail => simp [hstops x rfl]
  have hname : (name.toList ++ tail).head?.any isIdentifierStart = true := by
    cases hcs : name.toList with
    | nil => simp [hcs] at hstart
    | cons x cs => simpa [hcs] using hstart
  rw [nameAfter, hdrop, if_pos ⟨hhead, hname⟩, List.takeWhile_append_of_pos hchars, htail,
    List.append_nil, String.ofList_toList]

theorem nameAfter_of_blank {rest : List Char} (h : ∀ c ∈ rest, isSpace c = true) :
    String.ofList (nameAfter rest) = "" := by
  have hdrop : rest.dropWhile isSpace = [] := List.dropWhile_eq_nil_iff.mpr h
  rw [nameAfter, hdrop]
  simp

/-! ## 4. The source -/

structure OrdinaryLine where
  text : List Char
  ordinary : ¬ IsDirective text

/-- `ifdef NAME` and the like, alone on the line. -/
structure NamedLine (keyword : String) where
  text : List Char
  name : String
  shape : ∃ rest tail, Starts keyword text rest ∧ Names name rest tail ∧ ∀ c ∈ tail, isSpace c = true

/-- `else` or `endif`, alone on the line. -/
structure BareLine (keyword : String) where
  text : List Char
  shape : ∃ tail, Starts keyword text tail ∧ ∀ c ∈ tail, isSpace c = true

/-- A backslash before the end of the line: it goes on in the next one. -/
def Continues (line : List Char) : Prop :=
  line.getLast?.any isLineBreak = true ∧ (rstripBy isLineBreak line).getLast? = some '\\'

instance (line : List Char) : Decidable (Continues line) := inferInstanceAs (Decidable (_ ∧ _))

/-- `define NAME …`, with the lines its macro text goes on over. -/
structure Definition where
  text : List Char
  name : String
  continued : List OrdinaryLine
  shape : ∃ rest tail, Starts "define" text rest ∧ Names name rest tail
  continues : ∀ line ∈ (text :: continued.map (·.text)).dropLast, Continues line
  ends : ∀ line ∈ (text :: continued.map (·.text)).getLast?, ¬ Continues line

mutual

/-- Properly nested source. -/
inductive Block where
  | done
  | ordinary (line : OrdinaryLine) (rest : Block)
  | define (line : Definition) (rest : Block)
  | undef (line : NamedLine "undef") (rest : Block)
  | ifdef (line : NamedLine "ifdef") (body : Block) (branches : Branches) (rest : Block)
  | ifndef (line : NamedLine "ifndef") (body : Block) (branches : Branches) (rest : Block)

/-- What follows the first branch. -/
inductive Branches where
  | endif (line : BareLine "endif")
  | otherwise (line : BareLine "else") (body : Block) (endif : BareLine "endif")
  | elsif (line : NamedLine "elsif") (body : Block) (next : Branches)

end

def Definition.lines (line : Definition) : List (List Char) :=
  line.text :: line.continued.map (·.text)

mutual

def Block.lines : Block → List (List Char)
  | .done => []
  | .ordinary line rest => line.text :: rest.lines
  | .define line rest => line.lines ++ rest.lines
  | .undef line rest => line.text :: rest.lines
  | .ifdef line body branches rest => line.text :: (body.lines ++ (branches.lines ++ rest.lines))
  | .ifndef line body branches rest => line.text :: (body.lines ++ (branches.lines ++ rest.lines))

def Branches.lines : Branches → List (List Char)
  | .endif line => [line.text]
  | .otherwise line body endif => line.text :: (body.lines ++ [endif.text])
  | .elsif line body next => line.text :: (body.lines ++ next.lines)

end

/-! ## 5. The preprocessor -/

abbrev Macros := String → Bool

def Macros.define (m : Macros) (name : String) : Macros := fun n => n == name || m n

def Macros.undef (m : Macros) (name : String) : Macros := fun n => n != name && m n

/-- A line of active code that is no directive. -/
inductive ActiveLine where
  | source (text : List Char)
  /-- It goes on with the text of a macro. -/
  | macroText (text : List Char)

def ActiveLine.text : ActiveLine → List Char
  | source text | macroText text => text

def ActiveLine.isSource : ActiveLine → Bool
  | source _ => true
  | macroText _ => false

mutual

/-- The lines that are active, and the macros after them. -/
def Block.run (m : Macros) : Block → List ActiveLine × Macros
  | .done => ([], m)
  | .ordinary line rest => (.source line.text :: (rest.run m).1, (rest.run m).2)
  | .define line rest =>
      let after := rest.run (m.define line.name)
      (line.continued.map (fun next => .macroText next.text) ++ after.1, after.2)
  | .undef line rest => rest.run (m.undef line.name)
  | .ifdef line body branches rest =>
      let selected := if m line.name then body.run m else branches.run m
      let after := rest.run selected.2
      (selected.1 ++ after.1, after.2)
  | .ifndef line body branches rest =>
      let selected := if !m line.name then body.run m else branches.run m
      let after := rest.run selected.2
      (selected.1 ++ after.1, after.2)

/-- The same, where no branch was selected so far. -/
def Branches.run (m : Macros) : Branches → List ActiveLine × Macros
  | .endif _ => ([], m)
  | .otherwise _ body _ => body.run m
  | .elsif line body next => if m line.name then body.run m else next.run m

end

/-- The lines the preprocessor keeps. -/
def Block.kept (m : Macros) (source : Block) : List (List Char) :=
  ((source.run m).1.filter ActiveLine.isSource).map ActiveLine.text

/-! ## 6. The stack of flags -/

def Macros.of (macros : List String) : Macros := fun n => decide (n ∈ macros)

/-- `define` adds a macro. -/
theorem Macros.of_cons (macros : List String) (name : String) :
    Macros.of (name :: macros) = (Macros.of macros).define name := by
  funext n
  by_cases hn : n = name <;> simp [Macros.of, Macros.define, hn]

/-- `undef` removes a macro. -/
theorem Macros.of_filter (macros : List String) (name : String) :
    Macros.of (macros.filter (· ≠ name)) = (Macros.of macros).undef name := by
  funext n
  by_cases hn : n = name <;> simp [Macros.of, Macros.undef, hn]

/-- A line with a name is read with it. -/
theorem NamedLine.read {keyword : String} (line : NamedLine keyword)
    (hmem : keyword ∈ directiveKeywords) : readDirective? line.text = some (keyword, line.name) := by
  obtain ⟨rest, tail, hstarts, hnames, -⟩ := line.shape
  rw [readDirective_of_starts hmem hstarts, nameAfter_of_names hnames]

/-- A line without a name is read without one. -/
theorem BareLine.read {keyword : String} (line : BareLine keyword)
    (hmem : keyword ∈ directiveKeywords) : readDirective? line.text = some (keyword, "") := by
  obtain ⟨tail, hstarts, htail⟩ := line.shape
  rw [readDirective_of_starts hmem hstarts, nameAfter_of_blank htail]

/-- A definition is read with its macro. -/
theorem Definition.read (line : Definition) :
    readDirective? line.text = some ("define", line.name) := by
  obtain ⟨rest, tail, hstarts, hnames⟩ := line.shape
  rw [readDirective_of_starts (by decide) hstarts, nameAfter_of_names hnames]

/-- Any other line is no directive. -/
theorem OrdinaryLine.read (line : OrdinaryLine) (h : ¬ StretchesKeyword line.text) :
    readDirective? line.text = none := by
  rw [← Option.not_isSome_iff_eq_none, readDirective_isSome_iff]
  rintro (hdirective | hstretches)
  · exact line.ordinary hdirective
  · exact h hstretches

theorem NamedLine.name_ne_empty {keyword : String} (line : NamedLine keyword) : line.name ≠ "" := by
  obtain ⟨rest, tail, -, hnames, -⟩ := line.shape
  intro hname
  have hstart := hnames.start
  simp [hname] at hstart

theorem Definition.name_ne_empty (line : Definition) : line.name ≠ "" := by
  obtain ⟨rest, tail, -, hnames⟩ := line.shape
  intro hname
  have hstart := hnames.start
  simp [hname] at hstart

/-- An ordinary line is kept in an active branch. -/
theorem ordinary_line (st : DirectiveState) (line : OrdinaryLine) (h : ¬ StretchesKeyword line.text) :
    conditionalLine st line.text =
      if st.active then { st with output := st.output ++ line.text } else st := by
  rw [conditionalLine_eq, line.read h]

/-- Ordinary lines are kept in active code. -/
theorem ordinary_lines (st : DirectiveState) (lines : List OrdinaryLine)
    (h : ∀ line ∈ lines, ¬ StretchesKeyword line.text) :
    (lines.map (·.text)).foldl conditionalLine st =
      if st.active then { st with output := st.output ++ (lines.map (·.text)).flatten } else st := by
  induction lines generalizing st with
  | nil => cases hactive : st.active <;> simp
  | cons line lines ih =>
    rw [List.map_cons, List.foldl_cons, ordinary_line st line (h line (by simp)),
      ih _ (fun l hl => h l (by simp [hl]))]
    cases hactive : st.active with
    | true =>
      have hstill : DirectiveState.active { st with output := st.output ++ line.text } = true := hactive
      simp [hstill]
    | false => simp [hactive]

section

variable (st : DirectiveState)

/-- A definition counts in an active branch. -/
theorem define_line (line : Definition) :
    conditionalLine st line.text =
      if st.active then { st with macros := line.name :: st.macros } else st := by
  rw [conditionalLine_eq, line.read]
  cases hactive : st.active <;> simp [directiveLine, hactive, line.name_ne_empty]

/-- An `undef` counts in an active branch. -/
theorem undef_line (line : NamedLine "undef") :
    conditionalLine st line.text =
      if st.active then { st with macros := st.macros.filter (· ≠ line.name) } else st := by
  rw [conditionalLine_eq, line.read (by decide)]
  cases hactive : st.active <;> simp [directiveLine, hactive, line.name_ne_empty]

/-- The state inside a first branch. -/
def DirectiveState.enter (matched : Bool) : DirectiveState :=
  { st with stack := ⟨st.active, matched, st.active && matched⟩ :: st.stack }

/-- `ifdef` opens a branch for a defined macro. -/
theorem ifdef_line (line : NamedLine "ifdef") :
    conditionalLine st line.text = st.enter (Macros.of st.macros line.name) := by
  rw [conditionalLine_eq, line.read (by decide)]
  simp [directiveLine, DirectiveState.enter, Macros.of]

/-- `ifndef` opens a branch for an undefined one. -/
theorem ifndef_line (line : NamedLine "ifndef") :
    conditionalLine st line.text = st.enter (!Macros.of st.macros line.name) := by
  rw [conditionalLine_eq, line.read (by decide)]
  simp [directiveLine, DirectiveState.enter, Macros.of]

variable {st} {frame : DirectiveFrame} {below : List DirectiveFrame} (hstack : st.stack = frame :: below)

include hstack

/-- `elsif` opens a branch for a defined macro unless one was taken. -/
theorem elsif_line (line : NamedLine "elsif") :
    conditionalLine st line.text =
      let matched := !frame.branchTaken && Macros.of st.macros line.name
      { st with stack := frame.branch matched (frame.branchTaken || matched) :: below } := by
  rw [conditionalLine_eq, line.read (by decide)]
  cases htaken : frame.branchTaken <;> simp [directiveLine, hstack, Macros.of, htaken]

/-- `else` opens a branch unless one was taken. -/
theorem else_line (line : BareLine "else") :
    conditionalLine st line.text =
      { st with stack := frame.branch (!frame.branchTaken) true :: below } := by
  rw [conditionalLine_eq, line.read (by decide)]
  simp [directiveLine, hstack]

/-- `endif` closes the innermost branch. -/
theorem endif_line (line : BareLine "endif") :
    conditionalLine st line.text = { st with stack := below } := by
  rw [conditionalLine_eq, line.read (by decide)]
  simp [directiveLine, hstack]

end

/-! ## 7. Code that is skipped -/

/-- No line is misread. -/
def NoneStretched (lines : List (List Char)) : Prop := ∀ line ∈ lines, ¬ StretchesKeyword line

theorem NoneStretched.parts {lines more : List (List Char)} (h : NoneStretched (lines ++ more)) :
    NoneStretched lines ∧ NoneStretched more :=
  ⟨fun line hline => h line (by simp [hline]), fun line hline => h line (by simp [hline])⟩

theorem NoneStretched.tail {line : List Char} {lines : List (List Char)}
    (h : NoneStretched (line :: lines)) : NoneStretched lines :=
  fun l hl => h l (by simp [hl])

theorem continued_noneStretched {line : Definition} {lines : List (List Char)}
    (h : NoneStretched (line.lines ++ lines)) :
    ∀ next ∈ line.continued, ¬ StretchesKeyword next.text :=
  fun next hnext => h next.text (by simpa [Definition.lines] using .inr (.inl ⟨next, hnext, rfl⟩))

/-- In an inactive branch nothing becomes active. -/
theorem skip_enter {st : DirectiveState} (hactive : st.active = false) (matched : Bool) :
    st.enter matched = { st with stack := ⟨false, matched, false⟩ :: st.stack } := by
  simp [DirectiveState.enter, hactive]

mutual

/-- Nothing in inactive code counts. -/
theorem skip_block : ∀ (block : Block) {st : DirectiveState}, NoneStretched block.lines →
    st.active = false → block.lines.foldl conditionalLine st = st
  | .done, _, _, _ => rfl
  | .ordinary line rest, st, hread, hactive => by
      rw [Block.lines, List.foldl_cons, ordinary_line st line (hread _ (by simp [Block.lines])),
        hactive]
      exact skip_block rest hread.tail hactive
  | .define line rest, st, hread, hactive => by
      have hlines := ordinary_lines st line.continued (continued_noneStretched hread)
      rw [hactive] at hlines
      rw [Block.lines, List.foldl_append, Definition.lines, List.foldl_cons, define_line, hactive]
      simp only [Bool.false_eq_true, if_false] at hlines ⊢
      rw [hlines]
      exact skip_block rest hread.parts.2 hactive
  | .undef line rest, st, hread, hactive => by
      rw [Block.lines, List.foldl_cons, undef_line, hactive]
      exact skip_block rest hread.tail hactive
  | .ifdef line body branches rest, st, hread, hactive => by
      obtain ⟨hbody, hafter⟩ := hread.tail.parts
      rw [Block.lines, List.foldl_cons, ifdef_line, skip_enter hactive, List.foldl_append,
        skip_block body hbody rfl, List.foldl_append, skip_branches branches hafter.parts.1 rfl rfl]
      exact skip_block rest hafter.parts.2 hactive
  | .ifndef line body branches rest, st, hread, hactive => by
      obtain ⟨hbody, hafter⟩ := hread.tail.parts
      rw [Block.lines, List.foldl_cons, ifndef_line, skip_enter hactive, List.foldl_append,
        skip_block body hbody rfl, List.foldl_append, skip_branches branches hafter.parts.1 rfl rfl]
      exact skip_block rest hafter.parts.2 hactive

/-- So do the branches of a conditional that is inactive or has one selected. -/
theorem skip_branches : ∀ (branches : Branches) {st : DirectiveState} {frame : DirectiveFrame}
    {below : List DirectiveFrame}, NoneStretched branches.lines → st.stack = frame :: below →
    (frame.parentActive && !frame.branchTaken) = false →
    branches.lines.foldl conditionalLine st = { st with stack := below }
  | .endif line, st, frame, below, _, hstack, _ => endif_line hstack line
  | .otherwise line body endif, st, frame, below, hread, hstack, hskip => by
      rw [Branches.lines, List.foldl_cons, else_line hstack, List.foldl_append,
        skip_block body hread.tail.parts.1]
      · exact endif_line rfl endif
      · exact hskip
  | .elsif line body next, st, frame, below, hread, hstack, hskip => by
      rw [Branches.lines, List.foldl_cons, elsif_line hstack, List.foldl_append,
        skip_block body hread.tail.parts.1, skip_branches next hread.tail.parts.2 rfl]
      · cases hparent : frame.parentActive <;> cases htaken : frame.branchTaken <;>
          simp_all [DirectiveFrame.branch]
      · cases hparent : frame.parentActive <;> cases htaken : frame.branchTaken <;>
          simp_all [DirectiveFrame.branch, DirectiveState.active]

end

/-! ## 8. Code that is active -/

/-- `st'` has the result of some active lines after `st`, and the stack `stack`. -/
structure Ran (st : DirectiveState) (stack : List DirectiveFrame)
    (result : List ActiveLine × Macros) (st' : DirectiveState) : Prop where
  stack : st'.stack = stack
  output : st'.output = st.output ++ result.1.flatMap ActiveLine.text
  macros : Macros.of st'.macros = result.2

theorem Ran.active {st st' : DirectiveState} {result : List ActiveLine × Macros}
    (h : Ran st st.stack result st') (hactive : st.active = true) : st'.active = true := by
  rwa [DirectiveState.active, h.stack]

/-- The source after a part that has run. -/
theorem Ran.andThen {st st₁ st₂ : DirectiveState} {first : List ActiveLine × Macros} {rest : Block}
    (h : Ran st st.stack first st₁) (h' : Ran st₁ st₁.stack (rest.run (.of st₁.macros)) st₂) :
    Ran st st.stack (first.1 ++ (rest.run first.2).1, (rest.run first.2).2) st₂ := by
  rw [h.stack, h.macros] at h'
  exact ⟨h'.stack, by rw [h'.output, h.output, List.append_assoc, List.flatMap_append], h'.macros⟩

section

variable {st : DirectiveState} (hactive : st.active = true)

include hactive

/-- A run over an ordinary line. -/
theorem ran_ordinary (line : OrdinaryLine) (h : ¬ StretchesKeyword line.text) :
    Ran st st.stack ([.source line.text], .of st.macros) (conditionalLine st line.text) := by
  rw [ordinary_line st line h, if_pos hactive]
  exact ⟨rfl, by simp [ActiveLine.text], rfl⟩

/-- A run over a definition and the lines it continues on. -/
theorem ran_define (line : Definition) (h : ∀ next ∈ line.continued, ¬ StretchesKeyword next.text) :
    Ran st st.stack
      (line.continued.map fun next => .macroText next.text, (Macros.of st.macros).define line.name)
      (line.lines.foldl conditionalLine st) := by
  have hstill : DirectiveState.active { st with macros := line.name :: st.macros } = true := hactive
  rw [Definition.lines, List.foldl_cons, define_line, if_pos hactive, ordinary_lines _ line.continued h,
    if_pos hstill]
  refine ⟨rfl, ?_, Macros.of_cons st.macros line.name⟩
  rw [List.flatMap_map]
  rfl

/-- A run over an `undef`. -/
theorem ran_undef (line : NamedLine "undef") :
    Ran st st.stack ([], (Macros.of st.macros).undef line.name) (conditionalLine st line.text) := by
  rw [undef_line, if_pos hactive]
  exact ⟨rfl, by simp, Macros.of_filter st.macros line.name⟩

end

/-- The state inside a branch of active code, with or without one selected. -/
def DirectiveState.inside (st : DirectiveState) (below : List DirectiveFrame) (matched : Bool) :
    DirectiveState :=
  { st with stack := ⟨true, matched, matched⟩ :: below }

theorem enter_of_active {st : DirectiveState} (hactive : st.active = true) (matched : Bool) :
    st.enter matched = st.inside st.stack matched := by
  simp [DirectiveState.enter, DirectiveState.inside, hactive]

/-- A branch and the branches after it. -/
theorem ran_branch (st : DirectiveState) (below : List DirectiveFrame) (matched : Bool) {body : Block}
    {branches : Branches} (hbranches : NoneStretched branches.lines)
    (hbody : Ran (st.inside below true) (st.inside below true).stack (body.run (.of st.macros))
      (body.lines.foldl conditionalLine (st.inside below true)))
    (hskip : body.lines.foldl conditionalLine (st.inside below false) = st.inside below false)
    (hnext : Ran (st.inside below false) below (branches.run (.of st.macros))
      (branches.lines.foldl conditionalLine (st.inside below false))) :
    Ran st below (if matched then body.run (.of st.macros) else branches.run (.of st.macros))
      ((body.lines ++ branches.lines).foldl conditionalLine (st.inside below matched)) := by
  rw [List.foldl_append]
  cases matched with
  | true =>
    rw [skip_branches branches hbranches hbody.stack rfl]
    exact ⟨rfl, hbody.output, hbody.macros⟩
  | false =>
    rw [hskip]
    exact ⟨hnext.stack, hnext.output, hnext.macros⟩

mutual

/-- In active code the code does what the preprocessor does, and keeps continued macro texts. -/
theorem run_block : ∀ (block : Block) {st : DirectiveState}, NoneStretched block.lines →
    st.active = true →
    Ran st st.stack (block.run (.of st.macros)) (block.lines.foldl conditionalLine st)
  | .done, st, _, _ => ⟨rfl, by simp [Block.run, Block.lines], rfl⟩
  | .ordinary line rest, st, hread, hactive => by
      have hline := ran_ordinary hactive line (hread _ (by simp [Block.lines]))
      rw [Block.lines, List.foldl_cons]
      exact hline.andThen (run_block rest hread.tail (hline.active hactive))
  | .define line rest, st, hread, hactive => by
      have hline := ran_define hactive line (continued_noneStretched hread)
      rw [Block.lines, List.foldl_append]
      exact hline.andThen (run_block rest hread.parts.2 (hline.active hactive))
  | .undef line rest, st, hread, hactive => by
      have hline := ran_undef hactive line
      rw [Block.lines, List.foldl_cons]
      exact hline.andThen (run_block rest hread.tail (hline.active hactive))
  | .ifdef line body branches rest, st, hread, hactive => by
      obtain ⟨hbody, hafter⟩ := hread.tail.parts
      obtain ⟨hbranches, hrest⟩ := hafter.parts
      have hchosen := ran_branch st st.stack (Macros.of st.macros line.name) hbranches
        (run_block body hbody rfl) (skip_block body hbody rfl)
        (run_branches branches hbranches rfl)
      rw [Block.lines, List.foldl_cons, ifdef_line, enter_of_active hactive, ← List.append_assoc,
        List.foldl_append]
      exact hchosen.andThen (run_block rest hrest (hchosen.active hactive))
  | .ifndef line body branches rest, st, hread, hactive => by
      obtain ⟨hbody, hafter⟩ := hread.tail.parts
      obtain ⟨hbranches, hrest⟩ := hafter.parts
      have hchosen := ran_branch st st.stack (!Macros.of st.macros line.name) hbranches
        (run_block body hbody rfl) (skip_block body hbody rfl)
        (run_branches branches hbranches rfl)
      rw [Block.lines, List.foldl_cons, ifndef_line, enter_of_active hactive, ← List.append_assoc,
        List.foldl_append]
      exact hchosen.andThen (run_block rest hrest (hchosen.active hactive))

/-- The branches of an active conditional with none selected so far. -/
theorem run_branches : ∀ (branches : Branches) {st : DirectiveState} {below : List DirectiveFrame},
    NoneStretched branches.lines → st.stack = ⟨true, false, false⟩ :: below →
    Ran st below (branches.run (.of st.macros)) (branches.lines.foldl conditionalLine st)
  | .endif line, st, below, _, hstack => by
      rw [Branches.lines, List.foldl_cons, endif_line hstack]
      exact ⟨rfl, by simp [Branches.run], rfl⟩
  | .otherwise line body endif, st, below, hread, hstack => by
      have hbody : Ran (st.inside below true) (st.inside below true).stack
          (body.run (.of st.macros)) (body.lines.foldl conditionalLine (st.inside below true)) :=
        run_block body hread.tail.parts.1 rfl
      rw [Branches.lines, List.foldl_cons, else_line hstack, List.foldl_append, List.foldl_cons]
      change Ran st below _ (conditionalLine
        (body.lines.foldl conditionalLine (st.inside below true)) endif.text)
      rw [endif_line hbody.stack]
      exact ⟨rfl, hbody.output, hbody.macros⟩
  | .elsif line body next, st, below, hread, hstack => by
      obtain ⟨hbody, hnext⟩ := hread.tail.parts
      have hchosen := ran_branch st below (Macros.of st.macros line.name) hnext
        (run_block body hbody rfl) (skip_block body hbody rfl) (run_branches next hnext rfl)
      rw [Branches.lines, List.foldl_cons, elsif_line hstack]
      exact hchosen

end

/-! ## 9. Selecting the source -/

/-- `_apply_sv_conditional_directives(text, defined_macros)`. -/
def applyConditionalDirectives (definedMacros : List String) (text : List Char) : List Char :=
  ((splitlinesKeep text).foldl conditionalLine ⟨definedMacros, [], []⟩).output

theorem applySvConditionalDirectives_eq :
    applySvConditionalDirectives = applyConditionalDirectives [] := rfl

/-- What the code keeps of a text is the active lines of its block. -/
theorem applyConditionalDirectives_eq {definedMacros : List String} {text : List Char}
    {source : Block} (hlines : splitlinesKeep text = source.lines)
    (hread : NoneStretched (splitlinesKeep text)) :
    applyConditionalDirectives definedMacros text =
      (source.run (.of definedMacros)).1.flatMap ActiveLine.text := by
  rw [hlines] at hread
  have hran : Ran ⟨definedMacros, [], []⟩ _ _ _ := run_block source hread rfl
  rw [applyConditionalDirectives, hlines, hran.output, List.nil_append]

theorem noneStretched_iff {lines : List (List Char)} :
    (∀ line ∈ lines, (directivePattern.matchStart line).isSome → IsDirective line) ↔
      NoneStretched lines := by
  refine forall₂_congr fun line _ => ?_
  rw [matchStart_isSome, readDirective_isSome_iff]
  constructor
  · intro h hstretches
    exact not_isDirective_of_stretches hstretches (h (.inr hstretches))
  · rintro h (hdirective | hstretches)
    · exact hdirective
    · exact absurd hstretches h

mutual

/-- Only lines of the source are active. -/
theorem mem_lines_of_run : ∀ (block : Block) {m : Macros},
    ∀ line ∈ (block.run m).1, line.text ∈ block.lines
  | .done, _, _, h => nomatch h
  | .ordinary line rest, m, active, h => by
      rcases List.mem_cons.mp h with rfl | h
      · exact List.mem_cons_self ..
      · exact List.mem_cons_of_mem _ (mem_lines_of_run rest active h)
  | .define line rest, m, active, h => by
      rcases List.mem_append.mp h with h | h
      · obtain ⟨next, hnext, rfl⟩ := List.mem_map.mp h
        exact List.mem_append_left _ (List.mem_cons_of_mem _ (List.mem_map_of_mem hnext))
      · exact List.mem_append_right _ (mem_lines_of_run rest active h)
  | .undef line rest, m, active, h => List.mem_cons_of_mem _ (mem_lines_of_run rest active h)
  | .ifdef line body branches rest, m, active, h => by
      have hmem : active.text ∈ body.lines ∨ active.text ∈ branches.lines ∨
          active.text ∈ rest.lines := by
        rcases List.mem_append.mp h with h | h
        · by_cases hname : (m line.name) = true
          · rw [if_pos hname] at h
            exact .inl (mem_lines_of_run body active h)
          · rw [if_neg hname] at h
            exact .inr (.inl (mem_lines_of_runBranches branches active h))
        · exact .inr (.inr (mem_lines_of_run rest active h))
      simpa [Block.lines] using .inr hmem
  | .ifndef line body branches rest, m, active, h => by
      have hmem : active.text ∈ body.lines ∨ active.text ∈ branches.lines ∨
          active.text ∈ rest.lines := by
        rcases List.mem_append.mp h with h | h
        · by_cases hname : (!m line.name) = true
          · rw [if_pos hname] at h
            exact .inl (mem_lines_of_run body active h)
          · rw [if_neg hname] at h
            exact .inr (.inl (mem_lines_of_runBranches branches active h))
        · exact .inr (.inr (mem_lines_of_run rest active h))
      simpa [Block.lines] using .inr hmem

theorem mem_lines_of_runBranches : ∀ (branches : Branches) {m : Macros},
    ∀ line ∈ (branches.run m).1, line.text ∈ branches.lines
  | .endif _, _, _, h => nomatch h
  | .otherwise line body endif, m, active, h =>
      List.mem_cons_of_mem _ (List.mem_append_left _ (mem_lines_of_run body active h))
  | .elsif line body next, m, active, h => by
      have hmem : active.text ∈ body.lines ∨ active.text ∈ next.lines := by
        rw [Branches.run] at h
        split at h
        · exact .inl (mem_lines_of_run body active h)
        · exact .inr (mem_lines_of_runBranches next active h)
      simpa [Branches.lines] using .inr hmem

end

theorem splitlinesKeep_ne_nil (text : List Char) : ∀ line ∈ splitlinesKeep text, line ≠ [] := by
  fun_induction splitlinesKeep text with
  | case1 => simp
  | case2 rest ih => simpa using ih
  | case3 c rest hcr hbreak ih => simpa using ih
  | case4 c rest hcr hbreak hnil ih => simp
  | case5 c rest hcr hbreak line lines heq ih =>
    intro l hl
    rcases List.mem_cons.mp hl with rfl | hl
    · exact List.cons_ne_nil _ _
    · exact ih l (heq ▸ List.mem_cons_of_mem _ hl)

/-- Leaving out lines that are not empty shortens the text. -/
theorem isSource_of_flatten {lines : List ActiveLine} (hne : ∀ line ∈ lines, line.text ≠ [])
    (h : lines.flatMap ActiveLine.text =
      ((lines.filter ActiveLine.isSource).map ActiveLine.text).flatten) :
    ∀ line ∈ lines, line.isSource = true := by
  have hshorter : ∀ lines : List ActiveLine,
      ((lines.filter ActiveLine.isSource).map ActiveLine.text).flatten.length ≤
        (lines.flatMap ActiveLine.text).length := fun lines => by
    rw [List.flatMap_def]
    exact (List.filter_sublist.map _).flatten.length_le
  induction lines with
  | nil => simp
  | cons line lines ih =>
    cases line with
    | source text =>
      have htail : lines.flatMap ActiveLine.text =
          ((lines.filter ActiveLine.isSource).map ActiveLine.text).flatten := by
        simpa [List.filter_cons, ActiveLine.isSource, ActiveLine.text] using h
      intro l hl
      rcases List.mem_cons.mp hl with rfl | hl
      · rfl
      · exact ih (fun l hl => hne l (List.mem_cons_of_mem _ hl)) htail l hl
    | macroText text =>
      have hpos : 0 < text.length :=
        List.length_pos_of_ne_nil (hne (.macroText text) (List.mem_cons_self ..))
      have hlength := congrArg List.length h
      have hle := hshorter lines
      simp [ActiveLine.isSource, ActiveLine.text] at hlength hle
      omega

/-- The code keeps what the preprocessor keeps exactly when no macro name goes on after a keyword at
the start of a line and no active macro text goes on over several lines. -/
theorem conditionals_iff (definedMacros : List String) (text : List Char) (source : Block)
    (hlines : splitlinesKeep text = source.lines) :
    ((∀ line ∈ splitlinesKeep text,
          (directivePattern.matchStart line).isSome → IsDirective line) ∧
        applyConditionalDirectives definedMacros text =
          (source.kept (.of definedMacros)).flatten) ↔
      (∀ line ∈ splitlinesKeep text, ¬ StretchesKeyword line) ∧
        ∀ line ∈ (source.run (.of definedMacros)).1, line.isSource = true := by
  rw [noneStretched_iff]
  refine and_congr_right fun hread => ?_
  rw [applyConditionalDirectives_eq hlines hread, Block.kept]
  constructor
  · refine isSource_of_flatten fun line hline => splitlinesKeep_ne_nil text line.text ?_
    rw [hlines]
    exact mem_lines_of_run source line hline
  · intro hsource
    rw [List.filter_eq_self.mpr hsource, List.flatMap_def]

/-- `keyword NAME`. -/
def namedLine (keyword name : String) (hstart : name.toList.head?.any isIdentifierStart = true)
    (hchars : ∀ c ∈ name.toList, isIdentifierChar c = true) : NamedLine keyword where
  text := '`' :: (keyword.toList ++ ' ' :: (name.toList ++ ['\n']))
  name := name
  shape := ⟨_, ['\n'], ⟨[], nofun, rfl⟩, ⟨⟨[' '], nofun, by decide, rfl⟩, hstart, hchars, by decide⟩,
    by decide⟩

def bareLine (keyword : String) : BareLine keyword where
  text := '`' :: (keyword.toList ++ ['\n'])
  shape := ⟨['\n'], ⟨[], nofun, rfl⟩, by decide⟩

def ordinaryLine (text : String) (h : ¬ IsDirective text.toList) : OrdinaryLine := ⟨text.toList, h⟩

def threeBranches : Block :=
  .ifdef (namedLine "ifdef" "FPGA" (by decide) (by decide))
    (.ordinary (ordinaryLine "wire a;\n" (by decide)) .done)
    (.elsif (namedLine "elsif" "SIM" (by decide) (by decide))
      (.ordinary (ordinaryLine "wire b;\n" (by decide)) .done)
      (.otherwise (bareLine "else") (.ordinary (ordinaryLine "wire c;\n" (by decide)) .done)
        (bareLine "endif")))
    .done

theorem conditionals_select :
    applyConditionalDirectives ["SIM"]
      "`ifdef FPGA\nwire a;\n`elsif SIM\nwire b;\n`else\nwire c;\n`endif\n".toList =
      "wire b;\n".toList :=
  ((conditionals_iff ["SIM"] _ threeBranches (by decide +kernel)).mpr
    ⟨by decide +kernel, by decide +kernel⟩).2.trans (by decide +kernel)

/-- A macro whose name starts like a keyword. -/
def stretchedSource : Block :=
  .ifdef (namedLine "ifdef" "FPGA" (by decide) (by decide))
    (.ordinary (ordinaryLine "`elsewhere\n" (by decide))
      (.ordinary (ordinaryLine "wire a;\n" (by decide)) .done))
    (.endif (bareLine "endif")) .done

/-- A macro text of two lines. -/
def continuedSource : Block :=
  .define ⟨"`define WIRES wire a; \\\n".toList, "WIRES", [ordinaryLine "wire b;\n" (by decide)],
      ⟨_, " wire a; \\\n".toList, ⟨[], nofun, rfl⟩,
        ⟨⟨[' '], nofun, by decide, rfl⟩, by decide, by decide, by decide⟩⟩, by decide, by decide⟩
    (.ordinary (ordinaryLine "wire c;\n" (by decide)) .done)

/-- Source of an inactive branch is kept behind such a macro use, and lines of a macro text are kept. -/
theorem conditionals_misread :
    (splitlinesKeep "`ifdef FPGA\n`elsewhere\nwire a;\n`endif\n".toList = stretchedSource.lines ∧
        applyConditionalDirectives [] "`ifdef FPGA\n`elsewhere\nwire a;\n`endif\n".toList =
          "wire a;\n".toList ∧
        stretchedSource.kept (.of []) = []) ∧
      splitlinesKeep "`define WIRES wire a; \\\nwire b;\nwire c;\n".toList =
          continuedSource.lines ∧
        applyConditionalDirectives [] "`define WIRES wire a; \\\nwire b;\nwire c;\n".toList =
          "wire b;\nwire c;\n".toList ∧
        continuedSource.kept (.of []) = ["wire c;\n".toList] := by
  refine ⟨⟨?_, ?_, ?_⟩, ?_, ?_, ?_⟩ <;> decide +kernel

end EccFe.Tools.SvModule
