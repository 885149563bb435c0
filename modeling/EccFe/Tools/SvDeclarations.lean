/-
EccFe.Tools.SvDeclarations — module declarations outside comments and strings.

`module_definitions` looks for `module NAME` in what `strip_sv_comments` leaves. A comment that is taken
out stands for white space, and a string is one token: the declarations of a text are those of
`outside text`.
-/
import EccFe.Tools.SvComments

namespace EccFe.Tools.SvModule

open Python Search

section

variable (env : Env)

/-! ## 1. Occurrences of a declaration -/

/-- A module name: a simple identifier. -/
structure SimpleName (name : String) : Prop where
  start : name.toList.head?.any isIdentifierStart = true
  chars : ∀ c ∈ name.toList, isIdentifierChar c = true

/-- `module NAME`. -/
def IsDeclaration (name : String) (text : List Char) : Prop :=
  ∃ gap, gap ≠ [] ∧ (∀ c ∈ gap, isSpace c = true) ∧ text = "module".toList ++ (gap ++ name.toList)

/-- The pattern matches somewhere: a declaration between two word boundaries. -/
def Occurs (name : String) (text : List Char) : Prop :=
  ∃ before found after, text = before ++ (found ++ after) ∧ IsDeclaration name found ∧
    before.getLast?.any env.isWord = false ∧
      (name.toList.getLast?.any env.isWord != after.head?.any env.isWord) = true

variable {env}

theorem SimpleName.ne_nil {name : String} (h : SimpleName name) : name.toList ≠ [] := by
  intro hnil
  have hstart := h.start
  simp [hnil] at hstart

/-- A name begins with no blank. -/
theorem isSpace_of_start {c : Char} (h : isIdentifierStart c = true) : isSpace c = false := by
  by_contra hspace
  rw [identifierStart_of_space (by simpa using hspace)] at h
  cases h

theorem ends_wordEdge_seq (s : Regex) (c : Cursor) :
    Regex.ends (.seq (wordEdge env) s) c =
      if c.before.any env.isWord != c.rest.head?.any env.isWord then Regex.ends s c else [] := by
  rw [Regex.ends_seq, wordEdge, Regex.wordBoundary, Regex.ends]
  split <;> simp

theorem isWord_letter : env.isWord 'm' = true := by
  simp [Env.isWord]

/-- The character before the place after the name. -/
theorem getLast_of_advance {name : String} (hname : SimpleName name) {after rest : List Char}
    (hrest : name.toList ++ after = rest) (c : Cursor) (hc : c.rest = rest) :
    (c.advance name.toList.length).before = name.toList.getLast? := by
  have hlast : (name.toList.getLast?).isSome := by
    simpa using hname.ne_nil
  rw [Cursor.advance, hc, ← hrest, List.take_left]
  obtain ⟨x, hx⟩ := Option.isSome_iff_exists.mp hlast
  rw [hx]
  rfl

/-- The pattern from a place on. -/
theorem ends_modulePattern_iff {name : String} (hname : SimpleName name) {before : Option Char}
    {rest : List Char} :
    Regex.ends (modulePattern env name) ⟨before, rest, []⟩ ≠ [] ↔
      ∃ found after, rest = found ++ after ∧ IsDeclaration name found ∧
        before.any env.isWord = false ∧
          (name.toList.getLast?.any env.isWord != after.head?.any env.isWord) = true := by
  obtain ⟨x, cs, hcs⟩ := List.exists_cons_of_ne_nil hname.ne_nil
  have hx : isSpace x = false := isSpace_of_start (by simpa [hcs] using hname.start)
  have houtside : Regex.StartsOutside isSpace (.seq (.text name) (.seq (wordEdge env) .empty)) :=
    .seq (Regex.startsOutside_text hcs hx) _
  change Regex.ends (.seq (wordEdge env) (.seq (.text "module") (.seq (.plus (.char isSpace))
    (.seq (.text name) (.seq (wordEdge env) .empty))))) _ ≠ [] ↔ _
  rw [ends_wordEdge_seq, Regex.ends_text_seq, Regex.ends_plus_seq houtside, Regex.ends_text_seq,
    ends_wordEdge_seq]
  simp only [ne_eq, ite_eq_right_iff, Classical.not_imp, Cursor.rest_advance, Cursor.rest_afterRun,
    Regex.ends_empty, List.cons_ne_nil, not_false_eq_true, and_true]
  constructor
  · rintro ⟨hstart, ⟨tail, rfl⟩, hspace, ⟨after, hafter⟩, hend⟩
    rw [List.drop_left] at hspace hafter hend
    rw [← hafter, List.drop_left] at hend
    have hlast := getLast_of_advance hname hafter
      ((Cursor.advance "module".toList.length ⟨before, "module".toList ++ tail, []⟩).afterRun isSpace)
      (by rw [Cursor.rest_afterRun, Cursor.rest_advance, List.drop_left])
    refine ⟨"module".toList ++ (tail.takeWhile isSpace ++ name.toList), after, ?_,
      ⟨tail.takeWhile isSpace, ?_, fun c hc => List.mem_takeWhile_imp hc, rfl⟩, ?_, ?_⟩
    · rw [List.append_assoc, List.append_assoc, hafter, List.takeWhile_append_dropWhile]
    · cases tail with
      | nil => simp at hspace
      | cons c tail => simp [show isSpace c = true by simpa using hspace]
    · simpa [isWord_letter] using hstart
    · rw [← hlast]
      exact hend
  · rintro ⟨found, after, rfl, ⟨gap, hgap, hspaces, rfl⟩, hbefore, hafter⟩
    have hdrop : (gap ++ (name.toList ++ after)).dropWhile isSpace = name.toList ++ after := by
      rw [List.dropWhile_append_of_pos hspaces, hcs, List.cons_append,
        List.dropWhile_cons_of_neg (by simp [hx])]
    have hlast := @getLast_of_advance name hname after _ rfl
      ((Cursor.advance "module".toList.length
        ⟨before, "module".toList ++ (gap ++ (name.toList ++ after)), []⟩).afterRun isSpace)
      (by rw [Cursor.rest_afterRun, Cursor.rest_advance, List.drop_left, hdrop])
    rw [List.append_assoc, List.append_assoc]
    refine ⟨by simp [isWord_letter, hbefore], List.prefix_append _ _, ?_, ?_, ?_⟩
    · rw [List.drop_left]
      cases gap with
      | nil => exact absurd rfl hgap
      | cons c gap => simpa using hspaces c (by simp)
    · rw [List.drop_left, hdrop]
      exact List.prefix_append _ _
    · rw [List.drop_left, hdrop, List.drop_left, hlast]
      exact hafter

/-- The pattern finds what declares the module. -/
theorem hits_modulePattern_iff {name : String} (hname : SimpleName name) {text : List Char} :
    (modulePattern env name).hits text = true ↔ Occurs env name text := by
  rw [Regex.hits_iff]
  constructor
  · rintro ⟨before, rest, rfl, hends⟩
    obtain ⟨found, after, rfl, hfound, hbefore, hafter⟩ := (ends_modulePattern_iff hname).mp hends
    exact ⟨before, found, after, rfl, hfound, hbefore, hafter⟩
  · rintro ⟨before, found, after, rfl, hfound, hbefore, hafter⟩
    exact ⟨before, found ++ after, rfl,
      (ends_modulePattern_iff hname).mpr ⟨found, after, rfl, hfound, hbefore, hafter⟩⟩

/-! ## 2. White space between tokens -/

variable (env) in
/-- A character of a name. -/
def isTokenChar (c : Char) : Bool := env.isWord c || c == '$'

theorem isTokenChar_of_identifier {c : Char} (h : isIdentifierChar c = true) :
    isTokenChar env c = true := by
  have hword : c.toNat < 128 → c.isAlphanum = true ∨ c = '_' → isTokenChar env c = true := by
    rintro hlt hc
    simp [isTokenChar, Env.isWord, hlt]
    tauto
  simp only [isIdentifierChar, isIdentifierStart, isDigit, Bool.or_eq_true, Bool.and_eq_true,
    decide_eq_true_eq, beq_iff_eq, Char.le_def, UInt32.le_iff_toNat_le] at h
  rcases h with (((hupper | hlower) | rfl) | hdigit) | rfl
  · have hrange : 65 ≤ c.toNat ∧ c.toNat ≤ 90 := by simpa using hupper
    refine hword (by omega) (.inl ?_)
    show (c.isUpper || c.isLower || c.isDigit) = true
    have hupper' : c.isUpper = true := by
      refine decide_eq_true (?_ : c.val ≥ 'A'.val ∧ c.val ≤ 'Z'.val)
      simpa [UInt32.le_iff_toNat_le] using hrange
    rw [hupper', Bool.true_or, Bool.true_or]
  · have hrange : 97 ≤ c.toNat ∧ c.toNat ≤ 122 := by simpa using hlower
    refine hword (by omega) (.inl ?_)
    show (c.isUpper || c.isLower || c.isDigit) = true
    have hlower' : c.isLower = true := by
      show (decide (c.val ≥ 'a'.val) && decide (c.val ≤ 'z'.val)) = true
      simpa [UInt32.le_iff_toNat_le] using hrange
    rw [hlower', Bool.or_true, Bool.true_or]
  · exact hword (by decide) (.inr rfl)
  · have hrange : 48 ≤ c.toNat ∧ c.toNat ≤ 57 := by simpa using hdigit
    refine hword (by omega) (.inl ?_)
    simp [Char.isAlphanum, Char.isDigit, UInt32.le_iff_toNat_le, hrange]
  · simp [isTokenChar]

theorem isTokenChar_module : ∀ c ∈ "module".toList, isTokenChar env c = true := by
  intro c hc
  refine isTokenChar_of_identifier ?_
  have hcheck : ∀ c ∈ "module".toList, isIdentifierChar c = true := by decide +kernel
  exact hcheck c hc

theorem isWord_blank : env.isWord ' ' = false := by simp [Env.isWord]

theorem isWord_quote : env.isWord '"' = false := by simp [Env.isWord]

variable (env) in
/-- A place inside a declaration is inside a name or in the white space. -/
theorem IsDeclaration.split {name : String} (hname : SimpleName name) {u v : List Char}
    (h : IsDeclaration name (u ++ v)) :
    (u.getLast?.any (isTokenChar env) = true ∧ v.head?.any (isTokenChar env) = true) ∨
      u = [] ∨ v = [] ∨
      ∃ g₁ g₂, u = "module".toList ++ g₁ ∧ v = g₂ ++ name.toList ∧ g₁ ++ g₂ ≠ [] ∧
        ∀ c ∈ g₁ ++ g₂, isSpace c = true := by
  have htoken : ∀ {cs u v : List Char}, (∀ c ∈ cs, isTokenChar env c = true) → cs = u ++ v →
      u ≠ [] → v ≠ [] → u.getLast?.any (isTokenChar env) = true ∧
        v.head?.any (isTokenChar env) = true := by
    rintro cs u v hcs rfl hu hv
    rw [List.getLast?_eq_some_getLast hu, List.head?_eq_some_head hv]
    exact ⟨hcs _ (List.mem_append_left _ (List.getLast_mem hu)),
      hcs _ (List.mem_append_right _ (List.head_mem hv))⟩
  by_cases hu : u = []
  · exact .inr (.inl hu)
  by_cases hv : v = []
  · exact .inr (.inr (.inl hv))
  obtain ⟨gap, hgap, hspaces, hsplit⟩ := h
  rcases List.append_eq_append_iff.mp hsplit with ⟨m, hmodule, rfl⟩ | ⟨g₁, rfl, hrest⟩
  · -- the place is in the keyword
    cases m with
    | nil =>
      rw [List.append_nil] at hmodule
      exact .inr (.inr (.inr ⟨[], gap, by rw [hmodule, List.append_nil], rfl, hgap, hspaces⟩))
    | cons c m =>
      have hin := htoken isTokenChar_module hmodule hu (List.cons_ne_nil c m)
      exact .inl ⟨hin.1, hin.2⟩
  · rcases List.append_eq_append_iff.mp hrest with ⟨n, rfl, hname'⟩ | ⟨g₂, rfl, rfl⟩
    · -- the place is in the name
      cases n with
      | nil =>
        rw [List.append_nil]
        exact .inr (.inr (.inr ⟨gap, [], rfl, hname'.symm, by simpa using hgap, by simpa using hspaces⟩))
      | cons c n =>
        have hin := htoken (fun c hc => isTokenChar_of_identifier (hname.chars c hc)) hname'
          (List.cons_ne_nil c n) hv
        refine .inl ⟨?_, hin.2⟩
        rw [← List.append_assoc, List.getLast?_append_of_ne_nil _ (List.cons_ne_nil c n)]
        exact hin.1
    · exact .inr (.inr (.inr ⟨g₁, g₂, rfl, rfl, hgap, hspaces⟩))

/-- A declaration begins with the `m` of `module`. -/
theorem IsDeclaration.head {name : String} {found : List Char} (h : IsDeclaration name found) :
    ∃ rest, found = 'm' :: rest := by
  obtain ⟨gap, -, -, rfl⟩ := h
  exact ⟨_, rfl⟩

/-- A declaration ends with the name. -/
theorem IsDeclaration.last {name : String} (hname : SimpleName name) {found : List Char}
    (h : IsDeclaration name found) (before : List Char) :
    (before ++ found).getLast? = name.toList.getLast? := by
  obtain ⟨gap, -, -, rfl⟩ := h
  rw [← List.append_assoc, ← List.append_assoc, List.getLast?_append_of_ne_nil _ hname.ne_nil]

theorem SimpleName.last_token {name : String} (h : SimpleName name) :
    name.toList.getLast?.any (isTokenChar env) = true := by
  rw [List.getLast?_eq_some_getLast h.ne_nil]
  exact isTokenChar_of_identifier (h.chars _ (List.getLast_mem h.ne_nil))

theorem isWord_of_not_token {o : Option Char} (h : o.any (isTokenChar env) = false) :
    o.any env.isWord = false := by
  cases o with
  | none => rfl
  | some c =>
    simp only [Option.any_some, isTokenChar, Bool.or_eq_false_iff] at h
    exact h.1

/-- The two sides of the place are not one token. -/
def Apart (env : Env) (a b : List Char) : Prop :=
  ¬ (a.getLast?.any (isTokenChar env) = true ∧ b.head?.any (isTokenChar env) = true)

/-- After a word comes none of its characters. -/
theorem Apart.head {a b : List Char} (h : Apart env a b)
    (ha : a.getLast?.any (isTokenChar env) = true) : b.head?.any env.isWord = false := by
  refine isWord_of_not_token ?_
  by_contra hb
  exact h ⟨ha, by simpa using hb⟩

/-- Before a word comes none of its characters. -/
theorem Apart.last {a b : List Char} (h : Apart env a b)
    (hb : b.head?.any (isTokenChar env) = true) : a.getLast?.any env.isWord = false := by
  refine isWord_of_not_token ?_
  by_contra ha
  exact h ⟨by simpa using ha, hb⟩

theorem token_m (rest : List Char) : ('m' :: rest).head?.any (isTokenChar env) = true :=
  @isTokenChar_module env 'm' (by decide)

section

variable {name : String} (hname : SimpleName name) {a b : List Char} (hapart : Apart env a b)

include hname hapart

/-- The end of a name before the place. -/
theorem edge_head (hlast : a.getLast? = name.toList.getLast?) :
    b.head?.any env.isWord = (some ' ').any env.isWord := by
  have ha : a.getLast?.any (isTokenChar env) = true := by
    rw [hlast]
    exact hname.last_token
  rw [hapart.head ha]
  exact isWord_blank.symm

/-- A blank between two parts that are apart hides no declaration. -/
theorem occurs_insert (h : Occurs env name (a ++ b)) : Occurs env name (a ++ ' ' :: b) := by
  obtain ⟨before, found, after, heq, hfound, hbefore, hafter⟩ := h
  rcases List.append_eq_append_iff.mp heq with ⟨as, rfl, rfl⟩ | ⟨bs, rfl, hrest⟩
  · refine ⟨a ++ ' ' :: as, found, after, by simp, hfound, ?_, hafter⟩
    cases as with
    | nil => simpa using isWord_blank
    | cons c as =>
      rw [List.getLast?_append_of_ne_nil _ (List.cons_ne_nil c as)] at hbefore
      rw [List.getLast?_append_of_ne_nil _ (List.cons_ne_nil _ _), List.getLast?_cons_cons]
      exact hbefore
  · have hend : ∀ {cs}, bs = found ++ cs → after = cs ++ b →
        Occurs env name (before ++ bs ++ ' ' :: b) := by
      rintro cs rfl rfl
      refine ⟨before, found, cs ++ ' ' :: b, by simp, hfound, hbefore, ?_⟩
      cases cs with
      | nil =>
        have hlast : (before ++ (found ++ [])).getLast? = name.toList.getLast? := by
          rw [List.append_nil]
          exact hfound.last hname before
        rw [List.nil_append] at hafter ⊢
        rwa [List.head?_cons, ← edge_head hname hapart hlast]
      | cons c cs => exact hafter
    rcases List.append_eq_append_iff.mp hrest with ⟨cs, hbs, hcs⟩ | ⟨cs, rfl, rfl⟩
    · exact hend hbs hcs
    · rcases hfound.split env hname with ⟨hu, hv⟩ | rfl | rfl | ⟨g₁, g₂, rfl, rfl, hne, hspaces⟩
      · refine absurd ⟨?_, ?_⟩ hapart
        · have hbs : bs ≠ [] := by
            rintro rfl
            simp at hu
          rwa [List.getLast?_append_of_ne_nil _ hbs]
        · have hcs : cs ≠ [] := by
            rintro rfl
            simp at hv
          rwa [List.head?_append_of_ne_nil _ hcs]
      · refine ⟨before ++ [' '], cs, after, by simp, hfound, ?_, hafter⟩
        rw [List.getLast?_concat]
        exact isWord_blank
      · exact @hend [] (by simp) (by simp)
      · refine ⟨before, "module".toList ++ ((g₁ ++ ' ' :: g₂) ++ name.toList), after, by simp,
          ⟨g₁ ++ ' ' :: g₂, by simp, fun c hc => ?_, rfl⟩, hbefore, hafter⟩
        rcases List.mem_append.mp hc with hc | hc
        · exact hspaces c (List.mem_append_left _ hc)
        · rcases List.mem_cons.mp hc with rfl | hc
          · rfl
          · exact hspaces c (List.mem_append_right _ hc)

/-- Nor does it make one. -/
theorem occurs_remove (h : Occurs env name (a ++ ' ' :: b)) : Occurs env name (a ++ b) := by
  obtain ⟨before, found, after, heq, hfound, hbefore, hafter⟩ := h
  rcases List.append_eq_append_iff.mp heq with ⟨as, rfl, hb⟩ | ⟨bs, rfl, hrest⟩
  · obtain ⟨rest, hm⟩ := hfound.head
    cases as with
    | nil =>
      rw [hm] at hb
      cases hb
    | cons c as =>
      obtain ⟨rfl, rfl⟩ := List.cons.inj hb
      refine ⟨a ++ as, found, after, by simp, hfound, ?_, hafter⟩
      cases as with
      | nil =>
        rw [List.append_nil]
        refine hapart.last ?_
        rw [hm]
        exact token_m _
      | cons c as =>
        rw [List.getLast?_append_of_ne_nil _ (List.cons_ne_nil _ _), List.getLast?_cons_cons] at hbefore
        rwa [List.getLast?_append_of_ne_nil _ (List.cons_ne_nil c as)]
  · have hend : ∀ {cs}, bs = found ++ cs → after = cs ++ ' ' :: b →
        Occurs env name (before ++ bs ++ b) := by
      rintro cs rfl rfl
      refine ⟨before, found, cs ++ b, by simp, hfound, hbefore, ?_⟩
      cases cs with
      | nil =>
        have hlast : (before ++ (found ++ [])).getLast? = name.toList.getLast? := by
          rw [List.append_nil]
          exact hfound.last hname before
        rw [List.nil_append] at hafter ⊢
        rwa [List.head?_cons, ← edge_head hname hapart hlast] at hafter
      | cons c cs => exact hafter
    rcases List.append_eq_append_iff.mp hrest with ⟨cs, hbs, hcs⟩ | ⟨cs, rfl, hcs⟩
    · exact hend hbs hcs
    · cases cs with
      | nil => exact @hend [] (by simp) (by simpa using hcs.symm)
      | cons c cs =>
        obtain ⟨rfl, rfl⟩ := List.cons.inj hcs
        have hfound' : IsDeclaration name ((bs ++ [' ']) ++ cs) := by simpa using hfound
        rcases hfound'.split env hname with ⟨hu, -⟩ | hnil | rfl | ⟨g₁, g₂, hu, rfl, hne, hspaces⟩
        · simp [isTokenChar, isWord_blank] at hu
        · simp at hnil
        · have hlast := hfound'.last hname []
          have htoken := @SimpleName.last_token env name hname
          rw [← hlast] at htoken
          simp [isTokenChar, isWord_blank] at htoken
        · obtain ⟨g, rfl, rfl⟩ : ∃ g, g₁ = g ++ [' '] ∧ bs = "module".toList ++ g := by
            rcases List.eq_nil_or_concat' g₁ with rfl | ⟨g, c, rfl⟩
            · exact absurd (congrArg List.getLast? hu) (by simp)
            · rw [← List.append_assoc] at hu
              obtain ⟨rfl, hc⟩ := List.append_inj' hu rfl
              obtain rfl := List.singleton_inj.mp hc
              exact ⟨g, rfl, rfl⟩
          refine ⟨before, "module".toList ++ ((g ++ g₂) ++ name.toList), after, by simp,
            ⟨g ++ g₂, ?_, fun c hc => ?_, rfl⟩, hbefore, hafter⟩
          · intro hnil
            obtain ⟨rfl, rfl⟩ := List.append_eq_nil_iff.mp hnil
            refine hapart ⟨?_, ?_⟩
            · rw [List.append_nil, List.getLast?_append_of_ne_nil _ (by decide)]
              exact isTokenChar_module _ (by decide)
            · obtain ⟨x, xs, hxs⟩ := List.exists_cons_of_ne_nil hname.ne_nil
              simpa [hxs] using isTokenChar_of_identifier (hname.chars x (by simp [hxs]))
          · refine hspaces c ?_
            rcases List.mem_append.mp hc with hc | hc <;> simp [hc]

end

/-- A declaration holds no string. -/
theorem quote_not_mem {name : String} (hname : SimpleName name) {found : List Char}
    (h : IsDeclaration name found) : '"' ∉ found := by
  obtain ⟨gap, -, hspaces, rfl⟩ := h
  intro hmem
  rcases List.mem_append.mp hmem with hmem | hmem
  · exact absurd hmem (by decide)
  · rcases List.mem_append.mp hmem with hmem | hmem
    · exact absurd (hspaces _ hmem) (by decide)
    · exact absurd (hname.chars _ hmem) (by decide)

/-- A quote is in no declaration. -/
theorem occurs_quote_iff {name : String} (hname : SimpleName name) {a b : List Char} :
    Occurs env name (a ++ '"' :: b) ↔ Occurs env name a ∨ Occurs env name b := by
  constructor
  · rintro ⟨before, found, after, heq, hfound, hbefore, hafter⟩
    have hquote := quote_not_mem hname hfound
    rcases List.append_eq_append_iff.mp heq with ⟨as, rfl, hb⟩ | ⟨bs, rfl, hrest⟩
    · cases as with
      | nil =>
        obtain ⟨rest, rfl⟩ := hfound.head
        cases hb
      | cons c as =>
        obtain ⟨rfl, rfl⟩ := List.cons.inj hb
        refine .inr ⟨as, found, after, rfl, hfound, ?_, hafter⟩
        cases as with
        | nil => rfl
        | cons c as =>
          rwa [List.getLast?_append_of_ne_nil _ (List.cons_ne_nil _ _),
            List.getLast?_cons_cons] at hbefore
    · rcases List.append_eq_append_iff.mp hrest with ⟨cs, rfl, rfl⟩ | ⟨cs, rfl, hcs⟩
      · refine .inl ⟨before, found, cs, rfl, hfound, hbefore, ?_⟩
        cases cs with
        | nil => simpa [isWord_quote] using hafter
        | cons c cs => exact hafter
      · cases cs with
        | nil =>
          rw [List.nil_append] at hcs
          rw [← hcs] at hafter
          exact .inl ⟨before, bs, [], by simp, by simpa using hfound, hbefore,
            by simpa [isWord_quote] using hafter⟩
        | cons c cs =>
          obtain ⟨rfl, -⟩ := List.cons.inj hcs
          exact absurd (by simp) hquote
  · rintro (⟨before, found, after, rfl, hfound, hbefore, hafter⟩ |
      ⟨before, found, after, rfl, hfound, hbefore, hafter⟩)
    · refine ⟨before, found, after ++ '"' :: b, by simp, hfound, hbefore, ?_⟩
      cases after with
      | nil => simpa [isWord_quote] using hafter
      | cons c after => exact hafter
    · refine ⟨a ++ '"' :: before, found, after, by simp, hfound, ?_, hafter⟩
      cases before with
      | nil =>
        rw [List.getLast?_concat]
        exact isWord_quote
      | cons c before =>
        rwa [List.getLast?_append_of_ne_nil _ (List.cons_ne_nil _ _), List.getLast?_cons_cons]

theorem not_occurs_nil {name : String} : ¬ Occurs env name [] := by
  rintro ⟨before, found, after, heq, hfound, -⟩
  obtain ⟨rest, rfl⟩ := hfound.head
  simp at heq

/-! ## 3. The text outside comments and strings -/

/-- The lexeme a text starts with. -/
def lexeme (text : List Char) : List Char := text.take (text.length - (svRead text).2.length)

/-- A blank for a comment, an empty string for a string. -/
def outsidePart (first : List Char) : Kind → List Char
  | .code => first
  | .string => ['"', '"']
  | .comment => [' ']

def blankedPart (first : List Char) : Kind → List Char
  | .code | .string => first
  | .comment => [' ']

/-- The text outside its comments and strings. -/
def outside (text : List Char) : List Char :=
  (sv.places text).flatMap fun place => outsidePart (lexeme place) (svRead place).1

def blanked (text : List Char) : List Char :=
  (sv.places text).flatMap fun place => blankedPart (lexeme place) (svRead place).1

/-- The strings, with their quotes. -/
def strings (text : List Char) : List (List Char) :=
  ((sv.places text).filter fun place => (svRead place).1 = .string).map lexeme

/-- No two characters that make one token stand on the two sides of what is taken out. `last` is the
last character kept, `gap` says that some were taken out after it. -/
def separated (joins : Char → Char → Bool) : Option Char → Bool → List Bool → List Char → Bool
  | last, gap, true :: mask, c :: text =>
      !(gap && last.any (joins · c)) && separated joins (some c) false mask text
  | last, _, false :: mask, _ :: text => separated joins last true mask text
  | _, _, _, _ => true

section

variable {first after : List Char} {kind : Kind} (hne : first ≠ [])
  (hread : svRead (first ++ after) = (kind, after))

include hread

theorem lexeme_append : lexeme (first ++ after) = first := by
  rw [lexeme, hread]
  simp

include hne

theorem outside_append : outside (first ++ after) = outsidePart first kind ++ outside after := by
  rw [outside, sv.places_append hne hread, List.flatMap_cons, lexeme_append hread, hread]
  rfl

theorem blanked_append : blanked (first ++ after) = blankedPart first kind ++ blanked after := by
  rw [blanked, sv.places_append hne hread, List.flatMap_cons, lexeme_append hread, hread]
  rfl

theorem strings_append :
    strings (first ++ after) = if kind = .string then first :: strings after else strings after := by
  rw [strings, sv.places_append hne hread, List.filter_cons, hread]
  by_cases hkind : kind = .string
  · simp [hkind, lexeme_append hread, strings]
  · simp [hkind, strings]

end

section

variable {joins : Char → Char → Bool}

/-- After a stretch that is kept, the last of its characters stands before what follows. -/
theorem separated_true {gap : Bool} : ∀ {first after : List Char} {mask : List Bool}
    {last : Option Char}, first ≠ [] →
    separated joins last gap (List.replicate first.length true ++ mask) (first ++ after) = true →
    separated joins first.getLast? false mask after = true
  | [c], after, mask, last, _, h => by
      simp only [List.length_singleton, List.replicate_one, List.singleton_append, separated,
        Bool.and_eq_true] at h
      exact h.2
  | c :: d :: first, after, mask, last, _, h => by
      rw [List.length_cons, List.replicate_succ, List.cons_append, List.cons_append, separated,
        Bool.and_eq_true] at h
      have htail := separated_true (List.cons_ne_nil d first) h.2
      rwa [List.getLast?_cons_cons]

/-- After a stretch that is taken out, what follows stands behind a gap. -/
theorem separated_false {last : Option Char} : ∀ {first after : List Char} {mask : List Bool}
    {gap : Bool}, first ≠ [] →
    separated joins last gap (List.replicate first.length false ++ mask) (first ++ after) = true →
    separated joins last true mask after = true
  | [c], after, mask, gap, _, h => by
      simpa only [List.length_singleton, List.replicate_one, List.singleton_append, separated] using h
  | c :: d :: first, after, mask, gap, _, h => by
      rw [List.length_cons, List.replicate_succ, List.cons_append, List.cons_append, separated] at h
      exact separated_false (List.cons_ne_nil d first) h

/-- What comes next is not joined to the last character before a gap. -/
theorem joins_of_separated {last next : Char} : ∀ {mask : List Bool} {text : List Char},
    separated joins (some last) true mask text = true → (select mask text).head? = some next →
    joins last next = false
  | true :: mask, c :: text, h, hnext => by
      simp only [separated, select, List.head?_cons, Option.some.injEq, Option.any_some,
        Bool.true_and, Bool.and_eq_true, Bool.not_eq_true'] at h hnext
      exact hnext ▸ h.1
  | false :: mask, c :: text, h, hnext => by
      simp only [separated, select] at h hnext
      exact joins_of_separated h hnext
  | [], _, _, hnext => by simp [select] at hnext
  | true :: _, [], _, hnext => by simp [select] at hnext
  | false :: _, [], _, hnext => by simp [select] at hnext

/-- Token characters next to each other make one token. -/
def JoinsTokens (env : Env) (joins : Char → Char → Bool) : Prop :=
  ∀ a b, isTokenChar env a = true → isTokenChar env b = true → joins a b = true

/-- Where comments separate, taking them out is as good as a blank. -/
theorem occurs_blanked_iff (hjoins : JoinsTokens env joins) {name : String}
    (hname : SimpleName name) (text : List Char) :
    ∀ (before : List Char) (last : Option Char) (gap : Bool),
      (before.getLast? = if gap then some ' ' else last) →
      separated joins last gap (svMask text) text = true →
      (Occurs env name (before ++ select (svMask text) text) ↔
        Occurs env name (before ++ blanked text)) := by
  induction text using sv.induct_lexeme with
  | hnil => intros; rfl
  | happend first after kind hne hread ih =>
    intro before last gap hlast hsep
    rw [svMask_append hne hread] at hsep ⊢
    rw [blanked_append hne hread, select_append (by simp)]
    have hkept : kind ≠ .comment →
        (Occurs env name (before ++ (first ++ select (svMask after) after)) ↔
          Occurs env name (before ++ (first ++ blanked after))) := by
      intro hkind
      rw [show decide (kind ≠ .comment) = true by simpa using hkind] at hsep
      rw [← List.append_assoc, ← List.append_assoc]
      refine ih (before ++ first) first.getLast? false ?_ (separated_true hne hsep)
      rw [List.getLast?_append_of_ne_nil _ hne]
      rfl
    cases kind with
    | code => simpa [select_replicate_true, blankedPart] using hkept (by decide)
    | string => simpa [select_replicate_true, blankedPart] using hkept (by decide)
    | comment =>
      have hafter := separated_false hne hsep
      have hapart : Apart env before (select (svMask after) after) := by
        rintro ⟨hbefore, hnext⟩
        rw [hlast] at hbefore
        cases gap with
        | true => simp [isTokenChar, isWord_blank] at hbefore
        | false =>
          obtain ⟨a, rfl, ha⟩ := (Option.any_eq_true _ _).mp hbefore
          obtain ⟨b, hb, hbtoken⟩ := (Option.any_eq_true _ _).mp hnext
          have hjoin := joins_of_separated hafter hb
          rw [hjoins a b ha hbtoken] at hjoin
          cases hjoin
      have hblank := ih (before ++ [' ']) last true (by simp) hafter
      have hx : Occurs env name (before ++ ' ' :: select (svMask after) after) ↔
          Occurs env name (before ++ select (svMask after) after) :=
        ⟨occurs_remove hname hapart, occurs_insert hname hapart⟩
      simpa [select_replicate_false, blankedPart, ← hx] using hblank

end

/-- The two ends of a string. -/
theorem string_ends {first after : List Char} (hne : first ≠ [])
    (hread : svRead (first ++ after) = (.string, after)) :
    ∃ body, first = '"' :: body ∧ (after = [] ∨ ∃ inside, body = inside ++ ['"']) := by
  rcases svRead_cases hread with ⟨hkind, -⟩ | ⟨hkind, -⟩ | ⟨-, -, hquote, hafter⟩ | ⟨hkind, -⟩
  · cases hkind
  · cases hkind
  · cases first with
    | nil => exact absurd rfl hne
    | cons c body =>
      obtain rfl : c = '"' := by simpa using hquote
      rw [List.cons_append, List.tail_cons] at hafter
      refine ⟨body, rfl, ?_⟩
      by_cases hnil : after = []
      · exact .inl hnil
      · rw [hafter] at hnil
        obtain ⟨inside, hinside⟩ := afterString_split hnil
        rw [← hafter] at hinside
        refine .inr ⟨inside, (List.append_left_inj after).mp ?_⟩
        simpa using hinside
  · cases hkind

/-- Occurrences in strings and outside. -/
theorem occurs_outside_iff {name : String} (hname : SimpleName name) (text : List Char) :
    ∀ before : List Char,
      Occurs env name (before ++ blanked text) ↔
        Occurs env name (before ++ outside text) ∨ ∃ cs ∈ strings text, Occurs env name cs := by
  induction text using sv.induct_lexeme with
  | hnil => simp [blanked, outside, strings]
  | happend first after kind hne hread ih =>
    intro before
    rw [blanked_append hne hread, outside_append hne hread, strings_append hne hread]
    cases kind with
    | code => simpa [blankedPart, outsidePart] using ih (before ++ first)
    | comment => simpa [blankedPart, outsidePart] using ih (before ++ [' '])
    | string =>
      obtain ⟨body, rfl, hend⟩ := string_ends hne hread
      have hbefore : ∀ cs, Occurs env name (before ++ '"' :: cs) ↔
          Occurs env name before ∨ Occurs env name cs := fun cs => occurs_quote_iff hname
      have hquote : ∀ cs, Occurs env name ('"' :: cs) ↔ Occurs env name cs := fun cs => by
        have hiff := @occurs_quote_iff env name hname [] cs
        simpa [not_occurs_nil] using hiff
      have hafter := ih []
      rw [List.nil_append, List.nil_append] at hafter
      have hbody : Occurs env name (body ++ blanked after) ↔
          Occurs env name body ∨ Occurs env name (blanked after) := by
        rcases hend with rfl | ⟨inside, rfl⟩
        · simp [blanked, not_occurs_nil]
        · have hopen := @occurs_quote_iff env name hname inside []
          rw [List.append_assoc, List.singleton_append, occurs_quote_iff hname, hopen]
          simp [not_occurs_nil]
      have hstrings : (∃ cs ∈ ('"' :: body) :: strings after, Occurs env name cs) ↔
          Occurs env name body ∨ ∃ cs ∈ strings after, Occurs env name cs := by
        rw [List.exists_mem_cons_iff, hquote]
      simp only [blankedPart, outsidePart, if_true, List.cons_append, List.nil_append, hbefore, hquote,
        hbody, hafter, hstrings]
      generalize Occurs env name body = inBody
      generalize (∃ cs ∈ strings after, Occurs env name cs) = inLater
      simp only [or_assoc, or_left_comm]

/-! ## 4. Declarations -/

/-- `pattern.search(strip_sv_comments(text))`. -/
def findsModule (env : Env) (name : String) (text : List Char) : Bool :=
  (modulePattern env name).hits (stripSvComments text)

theorem definesModule_eq {name : String} {p : AbsPath} {text : List Char}
    (h : readText? env p = some text) : definesModule env name p = findsModule env name text := by
  rw [definesModule, h]
  rfl

/-- The module is declared outside comments and strings. -/
def Declares (env : Env) (name : String) (text : List Char) : Prop :=
  Occurs env name (outside text)

/-- Where the mask is the right one, the stripped text shows the declarations of the source. -/
theorem findsModule_iff {joins : Char → Char → Bool} (hjoins : JoinsTokens env joins)
    {text : List Char} (hmask : stripMask text = svMask text)
    (hsep : separated joins none false (svMask text) text = true) {name : String}
    (hname : SimpleName name) :
    findsModule env name text = true ↔
      Declares env name text ∨ ∃ cs ∈ strings text, Occurs env name cs := by
  have hblanked := occurs_blanked_iff hjoins hname text [] none false rfl hsep
  have houtside := @occurs_outside_iff env name hname text []
  rw [findsModule, hits_modulePattern_iff hname, ← select_stripMask, hmask]
  simpa [Declares] using hblanked.trans houtside

/-- The comments of the text are taken out as the language has them: no other position, no token made
of two, and the declarations found are those outside comments and strings. -/
structure StripsRight (env : Env) (joins : Char → Char → Bool) (text : List Char) : Prop where
  mask : stripMask text = svMask text
  separated : separated joins none false (stripMask text) text = true
  declarations : ∀ name, SimpleName name → (findsModule env name text = true ↔ Declares env name text)

/-- Exactly when every lexeme is clear, no comment alone separates two tokens, and what a string
declares is declared outside too. -/
theorem stripsRight_iff {joins : Char → Char → Bool} (hjoins : JoinsTokens env joins)
    (text : List Char) :
    StripsRight env joins text ↔
      (∀ place ∈ sv.places text, Clear place) ∧
        separated joins none false (svMask text) text = true ∧
          ∀ name, SimpleName name → ∀ cs ∈ strings text, Occurs env name cs →
            Declares env name text := by
  rw [← stripMask_eq_iff]
  constructor
  · rintro ⟨hmask, hsep, hdeclarations⟩
    rw [hmask] at hsep
    refine ⟨hmask, hsep, fun name hname cs hcs hoccurs => ?_⟩
    exact (hdeclarations name hname).mp
      ((findsModule_iff hjoins hmask hsep hname).mpr (.inr ⟨cs, hcs, hoccurs⟩))
  · rintro ⟨hmask, hsep, hstrings⟩
    refine ⟨hmask, by rwa [hmask], fun name hname => ?_⟩
    rw [findsModule_iff hjoins hmask hsep hname]
    constructor
    · rintro (hdeclares | ⟨cs, hcs, hoccurs⟩)
      · exact hdeclares
      · exact hstrings name hname cs hcs hoccurs
    · exact .inl

end

/-- Adjacent characters of names make one token. -/
def joinsNames (a b : Char) : Bool := isTokenChar (Env.ofNodes []) a && isTokenChar (Env.ofNodes []) b

theorem joinsNames_tokens : JoinsTokens (Env.ofNodes []) joinsNames := by
  intro a b ha hb
  rw [joinsNames, ha, hb]
  rfl

theorem stripsRight_closed_block :
    StripsRight (Env.ofNodes []) joinsNames "// a /* b */ c\nm".toList := by
  refine (stripsRight_iff joinsNames_tokens _).mpr ⟨fun place hplace => ?_, by decide +kernel, ?_⟩
  · have hplaces : sv.places "// a /* b */ c\nm".toList =
        ["// a /* b */ c\nm".toList, "\nm".toList, "m".toList] := by decide +kernel
    rw [hplaces] at hplace
    simp only [List.mem_cons, List.not_mem_nil, or_false] at hplace
    rcases hplace with rfl | rfl | rfl
    · exact fun _ => ⟨"// a  c".toList, by decide +kernel, by decide⟩
    · trivial
    · trivial
  · have hstrings : strings "// a /* b */ c\nm".toList = [] := by decide +kernel
    rw [hstrings]
    intro name _ s hmem
    exact absurd hmem List.not_mem_nil

/-- A `/*` in a line comment hides a declaration, a string declares, and two names become one. -/
theorem strips_wrong :
    (findsModule (Env.ofNodes []) "top" "// rtl/*.sv\nmodule top;\n/* end */".toList = false ∧
        Declares (Env.ofNodes []) "top" "// rtl/*.sv\nmodule top;\n/* end */".toList) ∧
      (findsModule (Env.ofNodes []) "top" "x = \"module top\";".toList = true ∧
        ¬ Declares (Env.ofNodes []) "top" "x = \"module top\";".toList) ∧
      stripSvComments "wire/* a */b;".toList = "wireb;".toList := by
  have hname : SimpleName "top" := ⟨by decide, by decide⟩
  simp only [Declares, ← hits_modulePattern_iff hname]
  refine ⟨⟨?_, ?_⟩, ⟨?_, ?_⟩, ?_⟩ <;> decide +kernel

end EccFe.Tools.SvModule
