/-
EccFe.Python.RegexRuns — where patterns made of runs and fixed texts stop.

A greedy run of a character class stops after the longest run; the other stops leave a character of
the class to read. So a pattern that reads none of them after the run has one stop (`ends_run_seq`).
-/
import EccFe.Python.Regex

namespace EccFe.Python

/-- The place `n` characters on. -/
def Cursor.advance (n : Nat) (c : Cursor) : Cursor :=
  ⟨(c.rest.take n).getLast?.or c.before, c.rest.drop n, c.groups⟩

/-- The place after the longest run. -/
def Cursor.afterRun (p : Char → Bool) (c : Cursor) : Cursor :=
  c.advance (c.rest.takeWhile p).length

namespace Cursor

@[simp] theorem advance_zero (c : Cursor) : c.advance 0 = c := rfl

@[simp] theorem rest_advance (n : Nat) (c : Cursor) : (c.advance n).rest = c.rest.drop n := rfl

@[simp] theorem groups_advance (n : Nat) (c : Cursor) : (c.advance n).groups = c.groups := rfl

@[simp] theorem groups_afterRun (p : Char → Bool) (c : Cursor) : (c.afterRun p).groups = c.groups :=
  rfl

theorem drop_takeWhile {p : Char → Bool} :
    ∀ cs : List Char, cs.drop (cs.takeWhile p).length = cs.dropWhile p
  | [] => rfl
  | x :: cs => by
      by_cases hx : p x = true
      · simp [hx, drop_takeWhile cs]
      · simp [hx]

/-- What a run has read. -/
theorem take_run (p : Char → Bool) (cs : List Char) :
    cs.take (cs.length - (cs.dropWhile p).length) = cs.takeWhile p := by
  have hsplit : cs.takeWhile p ++ cs.dropWhile p = cs := List.takeWhile_append_dropWhile
  have hlength : cs.length - (cs.dropWhile p).length = (cs.takeWhile p).length := by
    have hsum := congrArg List.length hsplit
    rw [List.length_append] at hsum
    omega
  rw [hlength]
  exact (List.prefix_iff_eq_take.mp (List.takeWhile_prefix p)).symm

/-- After a run comes the first character that is not in it. -/
@[simp] theorem rest_afterRun (p : Char → Bool) (c : Cursor) :
    (c.afterRun p).rest = c.rest.dropWhile p := drop_takeWhile c.rest

/-- An advance goes over one character at a time. -/
theorem advance_succ {c : Cursor} {x : Char} {rest : List Char} (h : c.rest = x :: rest) (n : Nat) :
    c.advance (n + 1) = Cursor.advance n ⟨some x, rest, c.groups⟩ := by
  simp only [advance, h, List.take_succ_cons, List.drop_succ_cons, List.getLast?_cons]
  cases (rest.take n).getLast? <;> rfl

theorem afterRun_cons {p : Char → Bool} {c : Cursor} {x : Char} {rest : List Char}
    (hrest : c.rest = x :: rest) (hx : p x = true) :
    c.afterRun p = Cursor.afterRun p ⟨some x, rest, c.groups⟩ := by
  rw [afterRun, hrest, List.takeWhile_cons_of_pos hx, List.length_cons, advance_succ hrest]
  rfl

end Cursor

namespace Regex

/-! ## 1. Sequences -/

/-- A sequence goes on from each end of its first part. -/
@[simp] theorem ends_seq (r s : Regex) (c : Cursor) :
    ends (.seq r s) c = (ends r c).flatMap (ends s) := rfl

@[simp] theorem ends_empty (c : Cursor) : ends .empty c = [c] := rfl

theorem ends_group (name : String) (r : Regex) (c : Cursor) :
    ends (.group name r) c = (ends r c).map fun d =>
      { d with groups := (name, c.rest.take (c.rest.length - d.rest.length)) :: d.groups } := rfl

theorem ends_seq_empty (r : Regex) (c : Cursor) : ends (.seq r .empty) c = ends r c := by
  simp [ends]

theorem ends_char_pos {p : Char → Bool} {c : Cursor} {x : Char} {rest : List Char}
    (hrest : c.rest = x :: rest) (hx : p x = true) :
    ends (.char p) c = [⟨some x, rest, c.groups⟩] := by
  simp [ends, hrest, hx]

theorem ends_char_neg {p : Char → Bool} {c : Cursor} (h : ∀ x ∈ c.rest.head?, p x = false) :
    ends (.char p) c = [] := by
  cases hrest : c.rest with
  | nil => simp [ends, hrest]
  | cons x rest => simp [ends, hrest, h x (by simp [hrest])]

/-! ## 2. Runs -/

/-- A repetition of a class stops after the run, or with more of it to read. -/
theorem repeatEnds_run (p : Char → Bool) : ∀ (fuel : Nat) (c : Cursor), c.rest.length ≤ fuel →
    ∃ shorter, repeatEnds true (ends (.char p)) fuel c = c.afterRun p :: shorter ∧
      ∀ d ∈ shorter, ∃ x rest, d.rest = x :: rest ∧ p x = true
  | 0, c, hfuel => by
      have hnil : c.rest = [] := List.length_eq_zero_iff.mp (by omega)
      exact ⟨[], by simp [repeatEnds, Cursor.afterRun, hnil], nofun⟩
  | fuel + 1, c, hfuel => by
      cases hrest : c.rest with
      | nil => exact ⟨[], by simp [repeatEnds, ends, Cursor.afterRun, hrest], nofun⟩
      | cons x rest =>
        by_cases hx : p x = true
        · obtain ⟨shorter, heq, hshorter⟩ := repeatEnds_run p fuel ⟨some x, rest, c.groups⟩ (by
            rw [hrest, List.length_cons] at hfuel
            exact Nat.le_of_succ_le_succ hfuel)
          refine ⟨shorter ++ [c], ?_, fun d hd => ?_⟩
          · have hstep := ends_char_pos hrest hx
            simp [repeatEnds, hstep, hrest, heq, Cursor.afterRun_cons hrest hx]
          · rcases List.mem_append.mp hd with hd | hd
            · exact hshorter d hd
            · obtain rfl := List.mem_singleton.mp hd
              exact ⟨x, rest, hrest, hx⟩
        · exact ⟨[], by simp [repeatEnds, ends, Cursor.afterRun, hrest, hx], nofun⟩

/-- A greedy run ends furthest first. -/
theorem ends_run (p : Char → Bool) (c : Cursor) :
    ∃ shorter, ends (.star true (.char p)) c = c.afterRun p :: shorter ∧
      ∀ d ∈ shorter, ∃ x rest, d.rest = x :: rest ∧ p x = true :=
  repeatEnds_run p _ c (Nat.le_refl _)

/-- The pattern cannot start at a character of the class. -/
def StartsOutside (p : Char → Bool) (s : Regex) : Prop :=
  ∀ c x rest, c.rest = x :: rest → p x = true → ends s c = []

/-- What starts outside a run goes on from the end of the longest one. -/
theorem ends_run_seq {p : Char → Bool} {s : Regex} (hs : StartsOutside p s) (c : Cursor) :
    ends (.seq (.star true (.char p)) s) c = ends s (c.afterRun p) := by
  obtain ⟨shorter, heq, hshorter⟩ := ends_run p c
  have hnone : shorter.flatMap (ends s) = [] := by
    rw [List.flatMap_eq_nil_iff]
    intro d hd
    obtain ⟨x, rest, hrest, hx⟩ := hshorter d hd
    exact hs d x rest hrest hx
  rw [ends_seq, heq, List.flatMap_cons, hnone, List.append_nil]

/-- The same for a run of at least one. -/
theorem ends_plus_seq {p : Char → Bool} {s : Regex} (hs : StartsOutside p s) (c : Cursor) :
    ends (.seq (.plus (.char p)) s) c =
      if c.rest.head?.any p then ends s (c.afterRun p) else [] := by
  cases hrest : c.rest with
  | nil => simp [plus, ends_char_neg, hrest]
  | cons x rest =>
    by_cases hx : p x = true
    · have hrun := ends_run_seq hs ⟨some x, rest, c.groups⟩
      rw [ends_seq, ← Cursor.afterRun_cons hrest hx] at hrun
      simp [plus, ends_char_pos hrest hx, hrun, hx]
    · simp [plus, ends_char_neg, hrest, hx]

theorem StartsOutside.seq {p : Char → Bool} {r : Regex} (hr : StartsOutside p r) (s : Regex) :
    StartsOutside p (.seq r s) := by
  intro c x rest hrest hx
  rw [ends_seq, hr c x rest hrest hx, List.flatMap_nil]

theorem StartsOutside.group {p : Char → Bool} {r : Regex} (hr : StartsOutside p r) (name : String) :
    StartsOutside p (.group name r) := by
  intro c x rest hrest hx
  rw [ends, hr c x rest hrest hx, List.map_nil]

theorem startsOutside_char {p q : Char → Bool} (h : ∀ x, p x = true → q x = false) :
    StartsOutside p (.char q) := by
  intro c x rest hrest hx
  simp [ends, hrest, h x hx]

/-! ## 3. Fixed texts -/

theorem ends_chars : ∀ (cs : List Char) (c : Cursor),
    ends (cat (cs.map fun x => .char (· == x))) c =
      if cs <+: c.rest then [c.advance cs.length] else []
  | [], c => by simp [cat]
  | x :: cs, c => by
      have ih := ends_chars cs
      rw [cat] at ih
      cases hrest : c.rest with
      | nil => simp [cat, ends, hrest]
      | cons y rest =>
        by_cases hy : y = x
        · subst hy
          simp [cat, ends, hrest, ih, Cursor.advance_succ hrest]
        · have hx : ¬ x = y := fun h => hy h.symm
          simp [cat, ends, hrest, hy, hx]

/-- A text ends after it, if it is there. -/
theorem ends_text (s : String) (c : Cursor) :
    ends (text s) c = if s.toList <+: c.rest then [c.advance s.toList.length] else [] :=
  ends_chars s.toList c

/-- A text stops at most once. -/
theorem ends_text_seq (t : String) (s : Regex) (c : Cursor) :
    ends (.seq (text t) s) c =
      if t.toList <+: c.rest then ends s (c.advance t.toList.length) else [] := by
  rw [ends_seq, ends_text]
  split <;> simp

theorem startsOutside_text {p : Char → Bool} {x : Char} {cs : List Char} {t : String}
    (ht : t.toList = x :: cs) (hx : p x = false) : StartsOutside p (text t) := by
  intro c y rest hrest hy
  have hne : ¬ t.toList <+: c.rest := by
    rw [ht, hrest, List.cons_prefix_cons]
    rintro ⟨rfl, -⟩
    exact absurd hy (by simp [hx])
  rw [ends_text, if_neg hne]

/-! ## 4. Lazy runs -/

/-- A lazy run goes on as long as nothing after it matches. -/
theorem head_lazy_seq (p : Char → Bool) (s : Regex) (c : Cursor) :
    (ends (.seq (.star false (.char p)) s) c).head? =
      (ends s c).head?.or
        (match c.rest with
        | [] => none
        | x :: rest =>
            if p x then (ends (.seq (.star false (.char p)) s) ⟨some x, rest, c.groups⟩).head?
            else none) := by
  cases hrest : c.rest with
  | nil => simp [ends, hrest, repeatEnds]
  | cons x rest =>
    by_cases hx : p x = true
    · have hstep := ends_char_pos hrest hx
      rw [ends_seq, ends, hrest, List.length_cons, repeatEnds, hstep]
      simp [hrest, hx, ends, List.head?_append]
    · have hstep : ends (.char p) c = [] := ends_char_neg (by simpa [hrest] using hx)
      rw [ends_seq, ends, hrest, List.length_cons, repeatEnds, hstep]
      simp [hx]

/-! ## 5. Taking matches out -/

/-- What a substitution by nothing leaves of the text from a place on. -/
def keptFrom (r : Regex) (fuel : Nat) (before : Option Char) (cs : List Char) : List Char :=
  (findAllFrom r fuel before cs).flatMap (·.skipped) ++
    ((findAllFrom r fuel before cs).getLast?.map (·.stop.rest)).getD cs

theorem sub_nil_eq (r : Regex) (cs : List Char) : sub r [] cs = keptFrom r cs.length none cs := by
  simp [sub, findAll, keptFrom]

/-- Where the match at the start of a text stops, for a pattern that looks at nothing before it. -/
structure Stops (r : Regex) (stop? : List Char → Option (List Char)) : Prop where
  stop : ∀ before cs, (ends r ⟨before, cs, []⟩).head?.map (·.rest) = stop? cs
  shorter : ∀ x cs after, stop? (x :: cs) = some after → after <:+ cs
  nil : stop? [] = none

/-- Where the pattern does not stop, a character is kept. -/
theorem keptFrom_none {r : Regex} {stop? : List Char → Option (List Char)} (h : Stops r stop?)
    (fuel : Nat) (before : Option Char) {x : Char} {cs : List Char} (hstop : stop? (x :: cs) = none) :
    keptFrom r fuel before (x :: cs) = x :: keptFrom r fuel (some x) cs := by
  have hends : ends r ⟨before, x :: cs, []⟩ = [] := by
    have hhead := h.stop before (x :: cs)
    rwa [hstop, Option.map_eq_none_iff, List.head?_eq_none_iff] at hhead
  cases fuel with
  | zero => rfl
  | succ fuel =>
    rw [keptFrom, keptFrom, findAllFrom, findAllFrom, findFrom, hends]
    cases findFrom r (some x) cs with
    | none => rfl
    | some m =>
      cases hlater : findAllFrom r fuel m.stop.before m.stop.rest <;>
        simp [hlater, List.getLast?_cons]

/-- Where it stops, the match is dropped. -/
theorem keptFrom_some {r : Regex} {stop? : List Char → Option (List Char)} (h : Stops r stop?)
    (fuel : Nat) (before : Option Char) {cs after : List Char} (hstop : stop? cs = some after) :
    ∃ before', keptFrom r (fuel + 1) before cs = keptFrom r fuel before' after := by
  have hhead := h.stop before cs
  rw [hstop] at hhead
  obtain ⟨stop, hstop, hrest⟩ := Option.map_eq_some_iff.mp hhead
  have hends : findFrom r before cs = some (.of cs stop) := by
    unfold findFrom
    cases hends : ends r ⟨before, cs, []⟩ with
    | nil => rw [hends] at hstop; cases hstop
    | cons d ds =>
      rw [hends, List.head?_cons] at hstop
      rw [Option.some.inj hstop]
  refine ⟨stop.before, ?_⟩
  rw [keptFrom, keptFrom, findAllFrom, hends]
  subst hrest
  cases hlater : findAllFrom r fuel stop.before stop.rest <;>
    simp [hlater, Found.of, List.getLast?_cons]

/-- A substitution by nothing, by where matches stop. -/
theorem sub_nil_unique {r : Regex} {stop? : List Char → Option (List Char)} (h : Stops r stop?)
    {target : List Char → List Char} (hnil : target [] = [])
    (hnone : ∀ x cs, stop? (x :: cs) = none → target (x :: cs) = x :: target cs)
    (hsome : ∀ cs after, stop? cs = some after → target cs = target after) (cs : List Char) :
    sub r [] cs = target cs := by
  have hkept : ∀ (fuel : Nat) (before : Option Char) (cs : List Char), cs.length ≤ fuel →
      keptFrom r fuel before cs = target cs := by
    intro fuel
    induction fuel with
    | zero =>
      intro before cs hfuel
      obtain rfl := List.length_eq_zero_iff.mp (Nat.le_zero.mp hfuel)
      rw [hnil]
      rfl
    | succ fuel ih =>
      intro before cs
      induction cs generalizing before with
      | nil =>
        intro _
        have hfind : findFrom r before [] = none := by
          have hhead := h.stop before []
          rw [h.nil, Option.map_eq_none_iff, List.head?_eq_none_iff] at hhead
          simp [findFrom, hhead]
        simp [keptFrom, findAllFrom, hfind, hnil]
      | cons x cs ihcs =>
        intro hfuel
        cases hstop : stop? (x :: cs) with
        | none =>
          rw [keptFrom_none h _ _ hstop, hnone x cs hstop, ihcs _ (by rw [List.length_cons] at hfuel; omega)]
        | some after =>
          have hle := (h.shorter x cs after hstop).length_le
          obtain ⟨before', heq⟩ := keptFrom_some h fuel before hstop
          rw [List.length_cons] at hfuel
          rw [heq, ih _ _ (by omega), hsome _ _ hstop]
  rw [sub_nil_eq, hkept _ _ _ (Nat.le_refl _)]

/-! ## 6. Searching -/

/-- A search finds something exactly when the pattern matches at some place. -/
theorem findFrom_isSome_iff (r : Regex) : ∀ (before : Option Char) (rest : List Char),
    (findFrom r before rest).isSome ↔
      ∃ passed after, rest = passed ++ after ∧ ends r ⟨passed.getLast?.or before, after, []⟩ ≠ []
  | before, rest => by
      cases hends : ends r ⟨before, rest, []⟩ with
      | cons stop stops =>
        have hfind : findFrom r before rest = some (.of rest stop) := by
          unfold findFrom
          rw [hends]
        rw [hfind]
        exact iff_of_true rfl ⟨[], rest, rfl, by rw [List.getLast?_nil, Option.none_or, hends]; nofun⟩
      | nil =>
        cases rest with
        | nil =>
          refine iff_of_false (by simp [findFrom, hends]) ?_
          rintro ⟨passed, after, hsplit, hne⟩
          obtain ⟨rfl, rfl⟩ := List.append_eq_nil_iff.mp hsplit.symm
          exact hne hends
        | cons x rest =>
          rw [findFrom, hends]
          simp only [Option.isSome_map]
          rw [findFrom_isSome_iff r (some x) rest]
          constructor
          · rintro ⟨passed, after, rfl, hne⟩
            refine ⟨x :: passed, after, rfl, ?_⟩
            rw [List.getLast?_cons]
            cases hlast : passed.getLast? <;> simpa [hlast] using hne
          · rintro ⟨passed, after, hsplit, hne⟩
            cases passed with
            | nil =>
              rw [List.nil_append] at hsplit
              subst hsplit
              exact absurd hends hne
            | cons y passed =>
              obtain ⟨rfl, rfl⟩ := List.cons.inj hsplit
              refine ⟨passed, after, rfl, ?_⟩
              rw [List.getLast?_cons] at hne
              cases hlast : passed.getLast? <;> simpa [hlast] using hne

/-- A search hits where some split of the text matches. -/
theorem hits_iff {r : Regex} {cs : List Char} :
    hits r cs = true ↔
      ∃ passed after, cs = passed ++ after ∧ ends r ⟨passed.getLast?, after, []⟩ ≠ [] := by
  rw [hits, find, findFrom_isSome_iff]
  simp only [Option.or_none]

end Regex

end EccFe.Python
