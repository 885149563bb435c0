/-
EccFe.Tools.SvComments — `strip_sv_comments` against the comments of SystemVerilog.

The code takes out all `/*…*/` of a text, then all `//…` of what is left. The language reads one
lexeme after the other: a comment opens nothing inside another comment or inside a string. Both are
compared by the positions they take out (`stripMask_eq_iff`).
-/
import EccFe.Python.RegexRuns
import EccFe.Search.Lexemes
import EccFe.Tools.SvModule

namespace EccFe.Tools.SvModule

open Python Search

/-! ## 1. Where comments stop -/

/-- What follows a slash and `second` at the start of the text. -/
def opened? (second : Char) : List Char → Option (List Char)
  | a :: b :: rest => if a = '/' ∧ b = second then some rest else none
  | _ => none

/-- What follows the next `*/`. -/
def afterClose? : List Char → Option (List Char)
  | [] => none
  | c :: rest => if c = '*' ∧ rest.head? = some '/' then some rest.tail else afterClose? rest

/-- What follows the `/*…*/` at the start. -/
def blockStop? (cs : List Char) : Option (List Char) := (opened? '*' cs).bind afterClose?

/-- What follows the `//…` at the start. -/
def lineStop? (cs : List Char) : Option (List Char) :=
  (opened? '/' cs).map fun rest => rest.dropWhile (· != '\n')

/-- A comment is opened by its two characters. -/
theorem opened_eq_some {second : Char} {cs rest : List Char} :
    opened? second cs = some rest ↔ cs = '/' :: second :: rest := by
  unfold opened?
  split
  · rename_i a b tail
    by_cases h : a = '/' ∧ b = second
    · obtain ⟨rfl, rfl⟩ := h
      simp
    · simp only [h, if_false, List.cons.injEq]
      constructor
      · nofun
      · rintro ⟨rfl, rfl, rfl⟩
        exact absurd ⟨rfl, rfl⟩ h
  · rename_i hshort
    constructor
    · nofun
    · rintro rfl
      exact absurd rfl (hshort _ _ _)

theorem opened_eq_none {second : Char} {cs : List Char} :
    opened? second cs = none ↔ ¬ ['/', second] <+: cs := by
  rw [Option.eq_none_iff_forall_ne_some]
  constructor
  · rintro h ⟨rest, rfl⟩
    exact h rest (opened_eq_some.mpr rfl)
  · rintro h rest hrest
    obtain rfl := opened_eq_some.mp hrest
    exact h ⟨rest, rfl⟩

/-- What follows a comment is a part of the text. -/
theorem afterClose_suffix : ∀ {cs after : List Char}, afterClose? cs = some after → after <:+ cs
  | [], after, h => nomatch h
  | c :: rest, after, h => by
      rw [afterClose?] at h
      split at h
      · obtain rfl := Option.some.inj h
        exact (List.tail_suffix rest).trans (List.suffix_cons c rest)
      · exact (afterClose_suffix h).trans (List.suffix_cons c rest)

theorem blockStop_suffix {x : Char} {cs after : List Char} (h : blockStop? (x :: cs) = some after) :
    after <:+ cs := by
  obtain ⟨rest, hopened, hclose⟩ := Option.bind_eq_some_iff.mp h
  obtain ⟨rfl, rfl⟩ := List.cons.inj (opened_eq_some.mp hopened)
  exact (afterClose_suffix hclose).trans (List.suffix_cons _ rest)

theorem lineStop_suffix {x : Char} {cs after : List Char} (h : lineStop? (x :: cs) = some after) :
    after <:+ cs := by
  obtain ⟨rest, hopened, rfl⟩ := Option.map_eq_some_iff.mp h
  obtain ⟨rfl, rfl⟩ := List.cons.inj (opened_eq_some.mp hopened)
  exact (List.dropWhile_suffix _).trans (List.suffix_cons _ rest)

/-! ## 2. The two patterns -/

def blockComment : Regex :=
  Regex.cat [.text "/*", .star false (.char fun _ => true), .text "*/"]

def lineComment : Regex := Regex.cat [.text "//", .star true .any]

theorem stripSvComments_eq (text : List Char) :
    stripSvComments text = lineComment.sub [] (blockComment.sub [] text) := rfl

/-- The lazy part stops at the first `*/`. -/
theorem rest_blockBody : ∀ (rest : List Char) (c : Cursor), c.rest = rest →
    (Regex.ends (.seq (.star false (.char fun _ => true)) (.seq (.text "*/") .empty)) c).head?.map
      (·.rest) = afterClose? rest
  | [], c, h => by
      rw [Regex.head_lazy_seq, Regex.ends_seq_empty, Regex.ends_text, h]
      rfl
  | x :: rest, c, h => by
      have ih := rest_blockBody rest ⟨some x, rest, c.groups⟩ rfl
      rw [Regex.head_lazy_seq, Regex.ends_seq_empty, Regex.ends_text, h, afterClose?]
      by_cases hclose : x = '*' ∧ rest.head? = some '/'
      · obtain ⟨rfl, hslash⟩ := hclose
        obtain ⟨tail, rfl⟩ := List.head?_eq_some_iff.mp hslash
        simp [h]
      · have hopen : ¬ "*/".toList <+: x :: rest := by
          rintro ⟨tail, htail⟩
          obtain ⟨rfl, rfl⟩ := List.cons.inj htail
          exact hclose ⟨rfl, rfl⟩
        simp only [hopen, hclose, if_false, List.head?_nil, Option.none_or, if_true]
        exact ih

/-- The pattern of a block comment stops where one closes. -/
theorem blockComment_stops : Regex.Stops blockComment blockStop? where
  stop before cs := by
    change (Regex.ends (.seq (.text "/*") _) ⟨before, cs, []⟩).head?.map (·.rest) = _
    rw [Regex.ends_text_seq, blockStop?, show "/*".toList = ['/', '*'] from rfl]
    by_cases hopen : ['/', '*'] <+: cs
    · obtain ⟨rest, rfl⟩ := hopen
      rw [if_pos ⟨rest, rfl⟩]
      exact rest_blockBody rest _ rfl
    · rw [if_neg hopen, opened_eq_none.mpr hopen]
      rfl
  shorter x cs after h := blockStop_suffix h
  nil := rfl

/-- The pattern of a line comment stops at the end of the line. -/
theorem lineComment_stops : Regex.Stops lineComment lineStop? where
  stop before cs := by
    change (Regex.ends (.seq (.text "//") (.seq (.star true (.char (· != '\n'))) .empty))
      ⟨before, cs, []⟩).head?.map (·.rest) = _
    rw [Regex.ends_text_seq, lineStop?, Regex.ends_seq_empty,
      show "//".toList = ['/', '/'] from rfl]
    by_cases hopen : ['/', '/'] <+: cs
    · obtain ⟨rest, rfl⟩ := hopen
      obtain ⟨shorter, heq, -⟩ := Regex.ends_run (· != '\n')
        (Cursor.advance ['/', '/'].length ⟨before, ['/', '/'] ++ rest, []⟩)
      rw [if_pos ⟨rest, rfl⟩, heq, List.head?_cons, Option.map_some, Cursor.rest_afterRun]
      rfl
    · rw [if_neg hopen, opened_eq_none.mpr hopen]
      rfl
  shorter x cs after h := lineStop_suffix h
  nil := rfl

/-! ## 3. What the code takes out -/

/-- Takes out what a pattern matches. -/
def eraser (stop? : List Char → Option (List Char))
    (h : ∀ {x cs after}, stop? (x :: cs) = some after → after <:+ cs) : Lexer Char Bool where
  read cs := ((stop? cs).map fun after => (false, after)).getD (true, cs.tail)
  suffix x cs := by
    cases hstop : stop? (x :: cs) with
    | none => simp
    | some after => simpa using h hstop

def blocks : Lexer Char Bool := eraser blockStop? blockStop_suffix

def lines : Lexer Char Bool := eraser lineStop? lineStop_suffix

section

variable {stop? : List Char → Option (List Char)}
  {h : ∀ {x cs after}, stop? (x :: cs) = some after → after <:+ cs}

theorem eraser_none {x : Char} {cs : List Char} (hstop : stop? (x :: cs) = none) :
    (eraser stop? h).kinds (x :: cs) = true :: (eraser stop? h).kinds cs := by
  have hread : (eraser stop? h).read ([x] ++ cs) = (true, cs) := by simp [eraser, hstop]
  exact (eraser stop? h).kinds_append (List.cons_ne_nil _ _) hread

/-- An erased stretch is marked from end to end. -/
theorem eraser_some {cs after : List Char} (hne : cs ≠ []) (hstop : stop? (cs ++ after) = some after) :
    (eraser stop? h).kinds (cs ++ after) =
      List.replicate cs.length false ++ (eraser stop? h).kinds after :=
  (eraser stop? h).kinds_append hne (by simp [eraser, hstop])

theorem eraser_head {x : Char} {cs after : List Char} (hstop : stop? (x :: cs) = some after) :
    ((eraser stop? h).kinds (x :: cs))[0]? = some false := by
  obtain ⟨before, rfl⟩ := h hstop
  rw [← List.cons_append, eraser_some (List.cons_ne_nil _ _) hstop]
  rfl

/-- Substitution by nothing keeps the marked positions. -/
theorem sub_eq_select {r : Regex} (hstops : r.Stops stop?) (cs : List Char) :
    r.sub [] cs = select ((eraser stop? h).kinds cs) cs := by
  refine @Regex.sub_nil_unique r stop? hstops (fun cs => select ((eraser stop? h).kinds cs) cs) rfl
    (fun x cs hstop => ?_) (fun cs after hstop => ?_) cs
  · rw [eraser_none hstop, select]
  · cases cs with
    | nil => rw [hstops.nil] at hstop; cases hstop
    | cons x cs =>
      obtain ⟨before, rfl⟩ := hstops.shorter x cs after hstop
      have hlength : (List.replicate (x :: before).length false).length = (x :: before).length := by simp
      rw [← List.cons_append, eraser_some (List.cons_ne_nil _ _) hstop, select_append hlength,
        select_replicate_false, List.nil_append]

end

/-- What is left of the block comments. -/
def withoutBlocks (text : List Char) : List Char := select (blocks.kinds text) text

/-- The positions `strip_sv_comments` keeps. -/
def stripMask (text : List Char) : List Bool :=
  compose (blocks.kinds text) (lines.kinds (withoutBlocks text))

/-- The mask of the stripper keeps what it keeps. -/
theorem select_stripMask (text : List Char) :
    select (stripMask text) text = stripSvComments text := by
  have hlength : (blocks.kinds text).length = text.length := blocks.length_kinds text
  rw [stripSvComments_eq, sub_eq_select (h := @blockStop_suffix) blockComment_stops,
    sub_eq_select (h := lineStop_suffix) lineComment_stops, stripMask, select_compose _ _ _ hlength]
  rfl

/-! ## 4. The language -/

inductive Kind where
  | code
  | string
  | comment
  deriving DecidableEq

/-- What follows the quote that closes a string. -/
def afterString : List Char → List Char
  | [] => []
  | c :: rest =>
      if c = '"' then rest
      else if c = '\\' then
        match rest with
        | [] => []
        | _ :: rest => afterString rest
      else afterString rest

theorem afterString_suffix : ∀ rest : List Char, afterString rest <:+ rest
  | [] => List.suffix_refl _
  | [c] => by
      rw [afterString]
      split
      · simp
      · split <;> simp [afterString]
  | c :: d :: rest => by
      rw [afterString]
      split
      · exact List.suffix_cons c _
      · split
        · exact (afterString_suffix rest).trans ((List.suffix_cons d rest).trans (List.suffix_cons c _))
        · exact (afterString_suffix (d :: rest)).trans (List.suffix_cons c _)

/-- A comment, a string with its quotes, or one character. -/
def svRead (cs : List Char) : Kind × List Char :=
  match lineStop? cs, blockStop? cs with
  | some after, _ => (.comment, after)
  | none, some after => (.comment, after)
  | none, none => if cs.head? = some '"' then (.string, afterString cs.tail) else (.code, cs.tail)

def sv : Lexer Char Kind where
  read := svRead
  suffix x cs := by
    cases hline : lineStop? (x :: cs) with
    | some after => simpa [svRead, hline] using lineStop_suffix hline
    | none =>
      cases hblock : blockStop? (x :: cs) with
      | some after => simpa [svRead, hline, hblock] using blockStop_suffix hblock
      | none =>
        by_cases hquote : x = '"'
        · subst hquote
          simpa [svRead, hline, hblock] using afterString_suffix cs
        · simp [svRead, hline, hblock, hquote]

/-- The positions outside comments. -/
def svMask (text : List Char) : List Bool := (sv.kinds text).map (· ≠ .comment)

/-! ## 5. Lexemes the code reads right -/

/-- No comment that ends opens here. -/
def Plain (cs : List Char) : Prop := opened? '/' cs = none ∧ blockStop? cs = none

/-- The line of a comment without the `/*…*/` in it, where `after` comes after the line; `none` if one
of them goes on after the line. -/
def leftOfLine (after : List Char) : Nat → List Char → Option (List Char)
  | 0, _ => some []
  | _, [] => some []
  | fuel + 1, c :: line =>
      match blockStop? (c :: (line ++ after)) with
      | none => (leftOfLine after fuel line).map (c :: ·)
      | some stop =>
          if stop.length < after.length then none
          else leftOfLine after fuel (stop.take (stop.length - after.length))

/-- The lexeme at the start of the text is one the code takes out, or keeps, as the language does. -/
def Clear (text : List Char) : Prop :=
  match svRead text with
  | (.code, _) => True
  | (.string, after) => ∀ cs, cs <:+ text → after.length < cs.length → Plain cs
  | (.comment, after) =>
      (lineStop? text).isSome → ∃ left,
        leftOfLine after text.length (text.take (text.length - after.length)) = some left ∧
          ['/', '/'] <+: left

/-- A lexeme is masked by its kind. -/
theorem svMask_append {lexeme after : List Char} {kind : Kind} (hne : lexeme ≠ [])
    (hread : svRead (lexeme ++ after) = (kind, after)) :
    svMask (lexeme ++ after) = List.replicate lexeme.length (kind ≠ .comment : Bool) ++ svMask after := by
  rw [svMask, sv.kinds_append hne hread, List.map_append, List.map_replicate]
  rfl

theorem withoutBlocks_cons {c : Char} {rest : List Char} (h : blockStop? (c :: rest) = none) :
    withoutBlocks (c :: rest) = c :: withoutBlocks rest := by
  rw [withoutBlocks, blocks, eraser_none h, select]
  rfl

theorem opened_of_ne (second : Char) {c : Char} {rest : List Char} (h : c ≠ '/') :
    opened? second (c :: rest) = none := by
  rw [opened_eq_none, List.cons_prefix_cons]
  rintro ⟨rfl, -⟩
  exact h rfl

theorem blockStop_of_ne {c : Char} {rest : List Char} (h : c ≠ '/') : blockStop? (c :: rest) = none := by
  rw [blockStop?, opened_of_ne '*' h]
  rfl

theorem lineStop_of_ne {c : Char} {rest : List Char} (h : c ≠ '/') : lineStop? (c :: rest) = none := by
  rw [lineStop?, opened_of_ne '/' h]
  rfl

/-- Taking blocks out puts no slash at the start. -/
theorem head_withoutBlocks {rest : List Char} (h : rest.head? ≠ some '/') :
    (withoutBlocks rest).head? ≠ some '/' := by
  cases rest with
  | nil => exact h
  | cons c rest =>
    have hc : c ≠ '/' := fun heq => h (by rw [heq, List.head?_cons])
    rw [withoutBlocks_cons (blockStop_of_ne hc)]
    exact h

theorem opened_slash_eq_none {c : Char} {rest : List Char} :
    opened? '/' (c :: rest) = none ↔ ¬ (c = '/' ∧ rest.head? = some '/') := by
  rw [opened_eq_none, List.cons_prefix_cons, List.head?_eq_some_iff]
  refine not_congr (and_congr eq_comm ?_)
  constructor
  · rintro ⟨tail, rfl⟩
    exact ⟨tail, rfl⟩
  · rintro ⟨tail, rfl⟩
    exact ⟨tail, rfl⟩

/-- A character that starts no comment for either pattern is kept. -/
theorem stripMask_kept {c : Char} {rest : List Char} (hblock : blockStop? (c :: rest) = none)
    (hline : ¬ (c = '/' ∧ (withoutBlocks rest).head? = some '/')) :
    stripMask (c :: rest) = true :: stripMask rest := by
  have hstop : lineStop? (c :: withoutBlocks rest) = none := by
    rw [lineStop?, Option.map_eq_none_iff, opened_slash_eq_none]
    exact hline
  rw [stripMask, withoutBlocks_cons hblock, blocks, eraser_none hblock, lines, eraser_none hstop,
    compose]
  rfl

theorem stripMask_plain {c : Char} {rest : List Char} (h : Plain (c :: rest)) :
    stripMask (c :: rest) = true :: stripMask rest := by
  refine stripMask_kept h.2 ?_
  rintro ⟨hc, hhead⟩
  by_cases hrest : rest.head? = some '/'
  · exact opened_slash_eq_none.mp h.1 ⟨hc, hrest⟩
  · exact head_withoutBlocks hrest hhead

/-- Where a comment opens, one of the two characters is taken out. -/
theorem stripMask_not_plain {cs : List Char} (h : ¬ Plain cs) (mask : List Bool) :
    stripMask cs ≠ true :: true :: mask := by
  intro heq
  cases cs with
  | nil => exact h ⟨rfl, rfl⟩
  | cons c rest =>
    cases hblock : blockStop? (c :: rest) with
    | some after =>
      have hread : (blocks.kinds (c :: rest))[0]? = some false := eraser_head hblock
      exact getElem?_compose_false hread (by rw [← stripMask, heq]; rfl)
    | none =>
      obtain ⟨rfl, hhead⟩ := not_not.mp (mt opened_slash_eq_none.mpr fun hopened => h ⟨hopened, hblock⟩)
      obtain ⟨tail, rfl⟩ := List.head?_eq_some_iff.mp hhead
      cases hsecond : blockStop? ('/' :: tail) with
      | some after =>
        have hread : (blocks.kinds ('/' :: '/' :: tail))[1]? = some false := by
          have hhead := eraser_head (h := blockStop_suffix) hsecond
          rw [blocks, eraser_none hblock, List.getElem?_cons_succ, hhead]
        exact getElem?_compose_false hread (by rw [← stripMask, heq]; rfl)
      | none =>
        have hline : lineStop? ('/' :: '/' :: withoutBlocks tail) =
            some ((withoutBlocks tail).dropWhile (· != '\n')) := by
          rw [lineStop?, opened_eq_some.mpr rfl, Option.map_some]
        have hhead := eraser_head (h := lineStop_suffix) hline
        rw [stripMask, withoutBlocks_cons hblock, withoutBlocks_cons hsecond, blocks,
          eraser_none hblock] at heq
        change compose (true :: _) (lines.kinds ('/' :: '/' :: withoutBlocks tail)) = _ at heq
        cases hkinds : lines.kinds ('/' :: '/' :: withoutBlocks tail) with
        | nil => simp [hkinds, compose] at heq
        | cons b inner =>
          rw [← lines, hkinds, List.getElem?_cons_zero] at hhead
          simp [hkinds, Option.some.inj hhead, compose] at heq

/-- A string is kept when no comment opens in it. -/
theorem strips_string {lexeme after : List Char}
    (hlast : ∀ c, lexeme.getLast? = some c → Plain (c :: after)) {mask : List Bool} :
    stripMask (lexeme ++ after) = List.replicate lexeme.length true ++ mask ↔
      (∀ cs, cs <:+ lexeme ++ after → after.length < cs.length → Plain cs) ∧
        stripMask after = mask := by
  induction lexeme with
  | nil =>
    have hnone : ∀ cs, cs <:+ after → after.length < cs.length → Plain cs :=
      fun cs hsuffix hlt => absurd hsuffix.length_le (by omega)
    simpa using fun _ => hnone
  | cons c lexeme ih =>
    have hself : c :: (lexeme ++ after) <:+ c :: lexeme ++ after := List.suffix_refl _
    have hlonger : after.length < (c :: (lexeme ++ after)).length := by
      simp only [List.length_cons, List.length_append]
      omega
    by_cases hplain : Plain (c :: (lexeme ++ after))
    · have hlast' : ∀ d, lexeme.getLast? = some d → Plain (d :: after) := by
        intro d hd
        refine hlast d ?_
        rw [List.getLast?_cons, hd]
        rfl
      rw [List.cons_append, stripMask_plain hplain, List.length_cons, List.replicate_succ,
        List.cons_append, List.cons_inj_right, ih hlast']
      refine and_congr_left fun _ => forall_congr' fun cs => ?_
      rw [List.suffix_cons_iff]
      constructor
      · rintro h (rfl | hsuffix) hlt
        · exact hplain
        · exact h hsuffix hlt
      · intro h hsuffix
        exact h (.inr hsuffix)
    · constructor
      · intro heq
        cases lexeme with
        | nil => exact absurd (hlast c rfl) hplain
        | cons d lexeme => exact absurd heq (stripMask_not_plain hplain _)
      · rintro ⟨hall, -⟩
        exact absurd (hall _ hself hlonger) hplain

/-- A block comment is taken out. -/
theorem strips_block {lexeme after : List Char} (hne : lexeme ≠ [])
    (hstop : blockStop? (lexeme ++ after) = some after) :
    stripMask (lexeme ++ after) = List.replicate lexeme.length false ++ stripMask after := by
  have hkinds := eraser_some (h := blockStop_suffix) hne hstop
  have hleft : withoutBlocks (lexeme ++ after) = withoutBlocks after := by
    rw [withoutBlocks, blocks, hkinds, select_append (by simp), select_replicate_false]
    rfl
  rw [stripMask, hleft, blocks, hkinds, compose_replicate]
  rfl

/-- A block that stays in the line. -/
theorem exists_rest_of_line {c : Char} {line after stop : List Char}
    (hstop : blockStop? (c :: (line ++ after)) = some stop) (hle : after.length ≤ stop.length) :
    ∃ block line', line = block ++ line' ∧ stop = line' ++ after := by
  obtain ⟨line', rfl⟩ := List.suffix_of_suffix_length_le (List.suffix_append line after)
    (blockStop_suffix hstop) hle
  obtain ⟨block, hblock⟩ := blockStop_suffix hstop
  refine ⟨block, line', ?_, rfl⟩
  rw [← List.append_assoc] at hblock
  exact (List.append_cancel_right hblock).symm

/-- Blocks that stay in the line take out positions of the line. -/
theorem leftOfLine_some {after : List Char} : ∀ {fuel : Nat} {line left : List Char},
    line.length ≤ fuel → leftOfLine after fuel line = some left →
    ∃ mask, mask.length = line.length ∧ blocks.kinds (line ++ after) = mask ++ blocks.kinds after ∧
      select mask line = left
  | fuel, [], left, _, h => by
      have hleft : left = [] := by cases fuel <;> simpa [leftOfLine] using h.symm
      exact ⟨[], rfl, rfl, by rw [hleft]; rfl⟩
  | fuel + 1, c :: line, left, hfuel, h => by
      rw [List.length_cons] at hfuel
      rw [leftOfLine] at h
      cases hstop : blockStop? (c :: (line ++ after)) with
      | none =>
        rw [hstop] at h
        obtain ⟨left', hleft', rfl⟩ := Option.map_eq_some_iff.mp h
        obtain ⟨mask, hlength, hkinds, hselect⟩ := leftOfLine_some (by omega) hleft'
        refine ⟨true :: mask, by rw [List.length_cons, List.length_cons, hlength], ?_, ?_⟩
        · rw [List.cons_append, blocks, eraser_none hstop]
          exact congrArg _ hkinds
        · rw [select, hselect]
      | some stop =>
        rw [hstop] at h
        dsimp only at h
        split at h
        · cases h
        · rename_i hle
          obtain ⟨block, line', rfl, rfl⟩ := exists_rest_of_line hstop (by omega)
          rw [List.length_append, Nat.add_sub_cancel, List.take_left] at h
          rw [List.length_append] at hfuel
          obtain ⟨mask, hlength, hkinds, hselect⟩ := leftOfLine_some (by omega) h
          have hblock : (List.replicate (c :: block).length false).length = (c :: block).length := by
            simp
          rw [List.append_assoc, ← List.cons_append] at hstop
          refine ⟨List.replicate (c :: block).length false ++ mask, ?_, ?_, ?_⟩
          · simp only [List.length_append, List.length_replicate, List.length_cons, hlength]
            omega
          · have hfirst := eraser_some (h := blockStop_suffix) (List.cons_ne_nil c block) hstop
            rw [← List.cons_append, List.append_assoc, blocks, hfirst, List.append_assoc]
            exact congrArg _ hkinds
          · rw [← List.cons_append, select_append hblock, select_replicate_false, hselect,
              List.nil_append]

/-- A block that goes on after the line takes out the end of the line. -/
theorem leftOfLine_none {after : List Char} : ∀ {fuel : Nat} {line : List Char},
    leftOfLine after fuel line = none →
    (blocks.kinds (line ++ after))[line.length]? = some false
  | 0, line, h => nomatch h
  | fuel + 1, [], h => nomatch h
  | fuel + 1, c :: line, h => by
      rw [leftOfLine] at h
      cases hstop : blockStop? (c :: (line ++ after)) with
      | none =>
        rw [hstop] at h
        have ih := leftOfLine_none (Option.map_eq_none_iff.mp h)
        rw [List.cons_append, blocks, eraser_none hstop, List.length_cons, List.getElem?_cons_succ]
        exact ih
      | some stop =>
        rw [hstop] at h
        dsimp only at h
        split at h
        · rename_i hlt
          obtain ⟨block, hblock⟩ := blockStop_suffix hstop
          have hlength := congrArg List.length hblock
          rw [List.length_append, List.length_append] at hlength
          rw [← hblock, ← List.cons_append] at hstop
          have hkinds := eraser_some (h := blockStop_suffix) (List.cons_ne_nil c block) hstop
          rw [List.cons_append, ← hblock, ← List.cons_append, blocks, hkinds,
            List.getElem?_append_left (by simp; omega), List.getElem?_replicate, if_pos (by simp; omega)]
        · rename_i hle
          obtain ⟨block, line', rfl, rfl⟩ := exists_rest_of_line hstop (by omega)
          rw [List.length_append, Nat.add_sub_cancel, List.take_left] at h
          have ih := leftOfLine_none h
          rw [List.append_assoc, ← List.cons_append] at hstop
          have hkinds := eraser_some (h := blockStop_suffix) (List.cons_ne_nil c block) hstop
          rw [← List.cons_append, List.append_assoc, blocks, hkinds,
            List.getElem?_append_right (by simp), ← ih]
          congr 1
          simp

structure LineComment (line after : List Char) : Prop where
  starts : ∃ text, line = '/' :: '/' :: text
  inside : ∀ c ∈ line, c ≠ '\n'
  ends : after = [] ∨ ∃ rest, after = '\n' :: rest

theorem lineComment_of_stop {line after : List Char} (hne : line ≠ [])
    (hstop : lineStop? (line ++ after) = some after) : LineComment line after := by
  obtain ⟨rest, hopened, hafter⟩ := Option.map_eq_some_iff.mp hstop
  have hsplit : line ++ after = '/' :: '/' :: rest.takeWhile (· != '\n') ++ after := by
    rw [opened_eq_some.mp hopened, ← hafter, List.cons_append, List.cons_append,
      List.takeWhile_append_dropWhile]
  obtain rfl := List.append_cancel_right hsplit
  refine ⟨⟨_, rfl⟩, fun c hc => ?_, ?_⟩
  · rcases List.mem_cons.mp hc with rfl | hc
    · decide
    · rcases List.mem_cons.mp hc with rfl | hc
      · decide
      · simpa using List.mem_takeWhile_imp hc
  · cases hrest : rest.dropWhile (· != '\n') with
    | nil => exact .inl (hafter.symm.trans hrest)
    | cons c tail =>
      have hc := List.head_dropWhile_not (· != '\n') (show rest.dropWhile (· != '\n') ≠ [] by simp [hrest])
      simp only [hrest, List.head_cons, bne_eq_false_iff_eq] at hc
      exact .inr ⟨tail, by rw [← hafter, hrest, hc]⟩

theorem LineComment.head_after {line after : List Char} (h : LineComment line after) :
    after.head? ≠ some '/' := by
  rcases h.ends with rfl | ⟨rest, rfl⟩ <;> simp

theorem svMask_newline (rest : List Char) : svMask ('\n' :: rest) = true :: svMask rest := by
  have hne : '\n' ≠ '/' := by decide
  have hread : svRead (['\n'] ++ rest) = (.code, rest) := by
    simp [svRead, lineStop_of_ne hne, blockStop_of_ne hne]
  exact svMask_append (List.cons_ne_nil _ _) hread

theorem withoutBlocks_line {line after left : List Char} {mask : List Bool}
    (hlength : mask.length = line.length)
    (hkinds : blocks.kinds (line ++ after) = mask ++ blocks.kinds after)
    (hselect : select mask line = left) :
    withoutBlocks (line ++ after) = left ++ withoutBlocks after := by
  rw [withoutBlocks, hkinds, select_append hlength, hselect]
  rfl

/-- Blocks that stay in the line leave a comment. -/
theorem strips_line_of_left {line after left : List Char} (h : LineComment line after) {fuel : Nat}
    (hfuel : line.length ≤ fuel) (hleft : leftOfLine after fuel line = some left)
    (hopens : ['/', '/'] <+: left) :
    stripMask (line ++ after) = List.replicate line.length false ++ stripMask after := by
  obtain ⟨mask, hlength, hkinds, hselect⟩ := leftOfLine_some hfuel hleft
  have hblocks := withoutBlocks_line hlength hkinds hselect
  have hinside : ∀ c ∈ left, c ≠ '\n' := by
    rw [← hselect]
    exact fun c hc => h.inside c ((select_sublist mask line).subset hc)
  have hstop : lineStop? (left ++ withoutBlocks after) = some (withoutBlocks after) := by
    obtain ⟨text, rfl⟩ := hopens
    have htext : ∀ c ∈ text, (c != '\n') = true := fun c hc => by
      simpa using hinside c (by simp [hc])
    have hafter : (withoutBlocks after).dropWhile (· != '\n') = withoutBlocks after := by
      rcases h.ends with rfl | ⟨rest, rfl⟩
      · rfl
      · rw [withoutBlocks_cons (blockStop_of_ne (by decide)), List.dropWhile_cons_of_neg (by simp)]
    have hopened : opened? '/' (['/', '/'] ++ text ++ withoutBlocks after) =
        some (text ++ withoutBlocks after) := opened_eq_some.mpr rfl
    rw [lineStop?, hopened, Option.map_some, List.dropWhile_append_of_pos htext, hafter]
  have hlines : lines.kinds (left ++ withoutBlocks after) =
      List.replicate left.length false ++ lines.kinds (withoutBlocks after) :=
    eraser_some (by rintro rfl; simp at hopens) hstop
  rw [stripMask, hkinds, hblocks, hlines, compose_append hlength (by simp [hselect]), ← hselect,
    compose_replicate_false hlength, hlength]
  rfl

/-- A comment that does not stay one keeps its first slash. -/
theorem opens_of_strips {line after left : List Char} (h : LineComment line after) {fuel : Nat}
    (hfuel : line.length ≤ fuel) (hleft : leftOfLine after fuel line = some left)
    (heq : stripMask (line ++ after) = List.replicate line.length false ++ svMask after) :
    ['/', '/'] <+: left := by
  obtain ⟨mask, hlength, hkinds, hselect⟩ := leftOfLine_some hfuel hleft
  obtain ⟨text, rfl⟩ := h.starts
  have hblock : blockStop? ('/' :: ('/' :: text ++ after)) = none := by
    rw [blockStop?, opened_eq_none.mpr]
    · rfl
    · rintro ⟨rest, hrest⟩
      simp at hrest
  have hblocks : '/' :: withoutBlocks ('/' :: text ++ after) = left ++ withoutBlocks after := by
    rw [← withoutBlocks_cons hblock]
    exact withoutBlocks_line hlength hkinds hselect
  have hafter := head_withoutBlocks h.head_after
  by_cases hhead : (withoutBlocks ('/' :: text ++ after)).head? = some '/'
  · obtain ⟨tail, htail⟩ := List.head?_eq_some_iff.mp hhead
    rw [htail] at hblocks
    match left, hblocks with
    | [], hblocks => exact absurd (by rw [← List.nil_append (withoutBlocks after), ← hblocks]; rfl) hafter
    | [c], hblocks =>
      rw [List.singleton_append] at hblocks
      exact absurd (by rw [← (List.cons.inj hblocks).2]; rfl) hafter
    | c :: d :: left, hblocks =>
      obtain ⟨rfl, hrest⟩ := List.cons.inj hblocks
      obtain ⟨rfl, -⟩ := List.cons.inj hrest
      exact ⟨left, rfl⟩
  · have hkept : stripMask ('/' :: ('/' :: text ++ after)) = true :: _ :=
      stripMask_kept hblock fun hslash => hhead hslash.2
    change stripMask ('/' :: ('/' :: text ++ after)) = _ at heq
    rw [hkept] at heq
    cases heq

/-- A comment that does not stay one is not taken out. -/
theorem strips_line {line after : List Char} (h : LineComment line after) {fuel : Nat}
    (hfuel : line.length ≤ fuel) :
    stripMask (line ++ after) = List.replicate line.length false ++ svMask after ↔
      (∃ left, leftOfLine after fuel line = some left ∧ ['/', '/'] <+: left) ∧
        stripMask after = svMask after := by
  constructor
  · intro heq
    cases hleft : leftOfLine after fuel line with
    | none =>
      have hout : (stripMask (line ++ after))[line.length]? ≠ some true :=
        getElem?_compose_false (leftOfLine_none hleft)
      have hin : line.length < (line ++ after).length := by
        rw [← blocks.length_kinds (line ++ after)]
        exact (List.getElem?_eq_some_iff.mp (leftOfLine_none hleft)).1
      rcases h.ends with rfl | ⟨rest, rfl⟩
      · simp at hin
      · rw [heq, svMask_newline, List.getElem?_append_right (by simp)] at hout
        simp at hout
    | some left =>
      have hopens : ['/', '/'] <+: left := opens_of_strips h hfuel hleft heq
      rw [strips_line_of_left h hfuel hleft hopens] at heq
      exact ⟨⟨left, rfl, hopens⟩, List.append_cancel_left heq⟩
  · rintro ⟨⟨left, hleft, hopens⟩, hafter⟩
    rw [strips_line_of_left h hfuel hleft hopens, hafter]

/-! ## 6. Agreement -/

theorem plain_of_ne {c : Char} {rest : List Char} (h : c ≠ '/') : Plain (c :: rest) :=
  ⟨opened_of_ne '/' h, blockStop_of_ne h⟩

/-- A string that does not end the text ends in a quote. -/
theorem afterString_split : ∀ {rest : List Char}, afterString rest ≠ [] →
    ∃ body, rest = body ++ '"' :: afterString rest
  | [], h => absurd rfl h
  | [c], h => by
      rw [afterString] at h
      split at h
      · exact absurd rfl h
      · split at h
        · exact absurd rfl h
        · exact absurd rfl h
  | c :: d :: rest, h => by
      rw [afterString] at h ⊢
      split
      · rename_i hquote
        exact ⟨[], by rw [hquote]; rfl⟩
      · rename_i hquote
        rw [if_neg hquote] at h
        split
        · rename_i hescape
          rw [if_pos hescape] at h
          obtain ⟨body, hbody⟩ := afterString_split h
          exact ⟨c :: d :: body, by rw [List.cons_append, List.cons_append, ← hbody]⟩
        · rename_i hescape
          rw [if_neg hescape] at h
          obtain ⟨body, hbody⟩ := afterString_split h
          exact ⟨c :: body, by rw [List.cons_append, ← hbody]⟩

theorem last_of_string {cs lexeme : List Char} (h : '"' :: cs = lexeme ++ afterString cs) :
    ∀ c, lexeme.getLast? = some c → Plain (c :: afterString cs) := by
  intro c hc
  by_cases hne : afterString cs = []
  · rw [hne]
    exact ⟨rfl, rfl⟩
  · obtain ⟨body, hbody⟩ := afterString_split hne
    have hlexeme : lexeme = '"' :: body ++ ['"'] := by
      refine List.append_cancel_right (h.symm.trans ?_)
      conv_lhs => rw [hbody]
      simp
    rw [hlexeme, List.getLast?_concat] at hc
    obtain rfl := Option.some.inj hc
    exact plain_of_ne (by decide)

/-- What a lexeme is. -/
theorem svRead_cases {cs after : List Char} {kind : Kind} (h : svRead cs = (kind, after)) :
    (kind = .comment ∧ lineStop? cs = some after) ∨
      (kind = .comment ∧ lineStop? cs = none ∧ blockStop? cs = some after) ∨
      (kind = .string ∧ Plain cs ∧ cs.head? = some '"' ∧ after = afterString cs.tail) ∨
      (kind = .code ∧ Plain cs ∧ after = cs.tail) := by
  cases hline : lineStop? cs with
  | some stop =>
    simp only [svRead, hline, Prod.mk.injEq] at h
    obtain ⟨rfl, rfl⟩ := h
    exact .inl ⟨rfl, rfl⟩
  | none =>
    cases hblock : blockStop? cs with
    | some stop =>
      simp only [svRead, hline, hblock, Prod.mk.injEq] at h
      obtain ⟨rfl, rfl⟩ := h
      exact .inr (.inl ⟨rfl, rfl, rfl⟩)
    | none =>
      have hplain : Plain cs := ⟨Option.map_eq_none_iff.mp hline, hblock⟩
      by_cases hquote : cs.head? = some '"'
      · simp only [svRead, hline, hblock, hquote, if_true, Prod.mk.injEq] at h
        obtain ⟨rfl, rfl⟩ := h
        exact .inr (.inr (.inl ⟨rfl, hplain, hquote, rfl⟩))
      · simp only [svRead, hline, hblock, hquote, if_false, Prod.mk.injEq] at h
        obtain ⟨rfl, rfl⟩ := h
        exact .inr (.inr (.inr ⟨rfl, hplain, rfl⟩))

/-- One lexeme and what comes after it. -/
theorem strips_lexeme {lexeme after : List Char} {kind : Kind} (hne : lexeme ≠ [])
    (hread : svRead (lexeme ++ after) = (kind, after)) :
    stripMask (lexeme ++ after) = svMask (lexeme ++ after) ↔
      Clear (lexeme ++ after) ∧ stripMask after = svMask after := by
  rw [svMask_append hne hread, Clear, hread]
  rcases svRead_cases hread with ⟨rfl, hline⟩ | ⟨rfl, hnone, hblock⟩ |
    ⟨rfl, hplain, hquote, hafter⟩ | ⟨rfl, hplain, hafter⟩
  · have hlength : lexeme.length ≤ lexeme.length + after.length := Nat.le_add_right _ _
    simpa [hline] using strips_line (lineComment_of_stop hne hline) hlength
  · rw [strips_block hne hblock]
    simp [hnone]
  · cases lexeme with
    | nil => exact absurd rfl hne
    | cons c before =>
      obtain rfl : c = '"' := by simpa using hquote
      rw [List.cons_append, List.tail_cons] at hafter
      have hlexeme : '"' :: (before ++ after) = '"' :: before ++ afterString (before ++ after) := by
        rw [← hafter]
        rfl
      have hlast := last_of_string hlexeme
      rw [← hafter] at hlast
      have hstrips := @strips_string _ _ hlast (svMask after)
      simpa using hstrips
  · cases lexeme with
    | nil => exact absurd rfl hne
    | cons c before =>
      obtain rfl : before = [] := by simpa using hafter
      rw [List.singleton_append] at hplain ⊢
      rw [stripMask_plain hplain]
      simp

/-- The code takes out the comments of the language exactly when every lexeme is clear. -/
theorem stripMask_eq_iff (text : List Char) :
    stripMask text = svMask text ↔ ∀ place ∈ sv.places text, Clear place := by
  induction text using sv.induct_lexeme with
  | hnil => simp [stripMask, svMask, withoutBlocks, compose, select]
  | happend lexeme after kind hne hread ih =>
    rw [sv.places_append hne hread, List.forall_mem_cons, ← ih]
    exact strips_lexeme hne hread

end EccFe.Tools.SvModule
