/-
EccFe.Python.RegexGroups — what the groups of a match hold.

`GroupIs name P r` is read off the pattern: below every group of that name stands a
pattern whose matches all satisfy `P`. Then what `match.group(name)` returns does too
(`group_of_find`, `group_of_findAll`).
-/
import EccFe.Python.Regex

namespace EccFe.Python.Regex

/-! ## 1. The text a match takes -/

/-- Every match takes a text with the property. -/
def Takes (P : List Char → Prop) (r : Regex) : Prop :=
  ∀ c d, d ∈ ends r c → ∃ taken, c.rest = taken ++ d.rest ∧ P taken

/-- A run of a class takes characters of the class. -/
theorem takes_run (p : Char → Bool) (greedy : Bool) :
    Takes (fun taken => ∀ x ∈ taken, p x = true) (.star greedy (.char p)) := by
  intro c d hd
  refine repeatEnds_induct (P := fun d => ∃ taken, c.rest = taken ++ d.rest ∧ ∀ x ∈ taken, p x = true)
    (fun d e hd he => ?_) c.rest.length ⟨[], rfl, by simp⟩ hd
  obtain ⟨taken, htaken, hall⟩ := hd
  obtain ⟨x, rest, hrest, hx, rfl⟩ := mem_ends_char.mp he
  refine ⟨taken ++ [x], by simp [htaken, hrest], ?_⟩
  rw [List.forall_mem_append, List.forall_mem_singleton]
  exact ⟨hall, hx⟩

/-- A run of characters takes only those. -/
theorem takes_plus (p : Char → Bool) :
    Takes (fun taken => ∀ x ∈ taken, p x = true) (plus (.char p)) := by
  intro c e he
  obtain ⟨d, hd, he⟩ := mem_ends_seq.mp he
  obtain ⟨x, rest, hrest, hx, rfl⟩ := mem_ends_char.mp hd
  obtain ⟨taken, htaken, hall⟩ := takes_run p true _ _ he
  exact ⟨x :: taken, hrest.trans (congrArg (x :: ·) htaken), List.forall_mem_cons.mpr ⟨hx, hall⟩⟩

/-! ## 2. The groups of a pattern -/

/-- The patterns under the group all take texts with the property. -/
def GroupIs (name : String) (P : List Char → Prop) : Regex → Prop
  | .empty | .char _ | .assertion _ => True
  | .seq r s | .alt r s => GroupIs name P r ∧ GroupIs name P s
  | .star _ r => GroupIs name P r
  | .group other r => if other = name then Takes P r else GroupIs name P r

section

variable {name : String} {P : List Char → Prop}

/-- A sequence sets the group so when both parts do. -/
@[simp] theorem groupIs_seq {r s : Regex} :
    GroupIs name P (.seq r s) ↔ GroupIs name P r ∧ GroupIs name P s := Iff.rfl

/-- An alternative sets the group so when both parts do. -/
@[simp] theorem groupIs_alt {r s : Regex} :
    GroupIs name P (.alt r s) ↔ GroupIs name P r ∧ GroupIs name P s := Iff.rfl

@[simp] theorem groupIs_star {greedy : Bool} {r : Regex} :
    GroupIs name P (.star greedy r) ↔ GroupIs name P r := Iff.rfl

@[simp] theorem groupIs_empty : GroupIs name P .empty := trivial

@[simp] theorem groupIs_char (p : Char → Bool) : GroupIs name P (.char p) := trivial

@[simp] theorem groupIs_assertion (p : Option Char → List Char → Bool) :
    GroupIs name P (.assertion p) := trivial

/-- A group of the name takes what its inside takes. -/
@[simp] theorem groupIs_group {other : String} {r : Regex} :
    GroupIs name P (.group other r) ↔ if other = name then Takes P r else GroupIs name P r := Iff.rfl

@[simp] theorem groupIs_cat {rs : List Regex} :
    GroupIs name P (cat rs) ↔ ∀ r ∈ rs, GroupIs name P r := by
  induction rs with
  | nil => simp [cat]
  | cons r rs ih =>
    rw [List.forall_mem_cons, ← ih]
    exact groupIs_seq

@[simp] theorem groupIs_oneOf {rs : List Regex} :
    GroupIs name P (oneOf rs) ↔ ∀ r ∈ rs, GroupIs name P r := by
  induction rs with
  | nil => simp [oneOf]
  | cons r rs ih =>
    rw [List.forall_mem_cons, ← ih]
    exact groupIs_alt

@[simp] theorem groupIs_text (s : String) : GroupIs name P (text s) := by
  rw [text, groupIs_cat, List.forall_mem_map]
  exact fun _ _ => trivial

@[simp] theorem groupIs_textIgnoreCase (s : String) : GroupIs name P (textIgnoreCase s) := by
  rw [textIgnoreCase, groupIs_cat, List.forall_mem_map]
  exact fun _ _ => trivial

@[simp] theorem groupIs_plus {r : Regex} : GroupIs name P (plus r) ↔ GroupIs name P r := by
  rw [plus, groupIs_seq, groupIs_star, and_self]

/-- A match keeps the property of the group. -/
theorem groups_of_mem_ends : ∀ (r : Regex), GroupIs name P r → ∀ {c d : Cursor}, d ∈ ends r c →
    (∀ v, c.groups.lookup name = some v → P v) → ∀ v, d.groups.lookup name = some v → P v
  | .empty, _, c, d, hd, hc => by
      rw [mem_ends_empty.mp hd]
      exact hc
  | .char p, _, c, d, hd, hc => by
      obtain ⟨x, rest, -, -, rfl⟩ := mem_ends_char.mp hd
      exact hc
  | .assertion p, _, c, d, hd, hc => by
      rw [(mem_ends_assertion.mp hd).2]
      exact hc
  | .seq r s, h, c, e, he, hc => by
      obtain ⟨d, hd, he⟩ := mem_ends_seq.mp he
      exact groups_of_mem_ends s h.2 he (groups_of_mem_ends r h.1 hd hc)
  | .alt r s, h, c, d, hd, hc => by
      rcases mem_ends_alt.mp hd with hd | hd
      · exact groups_of_mem_ends r h.1 hd hc
      · exact groups_of_mem_ends s h.2 hd hc
  | .star greedy r, h, c, d, hd, hc =>
      repeatEnds_induct (fun _ _ hd he => groups_of_mem_ends r h he hd) _ hc hd
  | .group other r, h, c, d, hd, hc => by
      obtain ⟨e, he, rfl⟩ := mem_ends_group.mp hd
      intro v hv
      rw [groupIs_group] at h
      by_cases hname : other = name
      · rw [if_pos hname] at h
        subst hname
        rw [List.lookup_cons_self, Option.some.injEq] at hv
        obtain ⟨taken, htaken, hP⟩ := h c e he
        rwa [← hv, htaken, List.length_append, Nat.add_sub_cancel, List.take_left]
      · rw [if_neg hname] at h
        rw [List.lookup_cons, beq_eq_false_iff_ne.mpr (Ne.symm hname)] at hv
        exact groups_of_mem_ends r h he hc v hv

/-! ## 3. What is found -/

theorem group_of_findFrom {r : Regex} (h : GroupIs name P r) :
    ∀ (rest : List Char) {before : Option Char} {m : Found} {v : List Char},
      findFrom r before rest = some m → m.group name = some v → P v
  | rest, before, m, v, hm, hv => by
      rw [findFrom.eq_def] at hm
      cases hends : ends r ⟨before, rest, []⟩ with
      | cons stop others =>
        rw [hends] at hm
        cases hm
        exact groups_of_mem_ends r h (hends ▸ List.mem_cons_self) (fun _ hnone => by cases hnone) v hv
      | nil =>
        rw [hends] at hm
        cases rest with
        | nil => cases hm
        | cons x rest =>
          obtain ⟨m', hm', rfl⟩ := Option.map_eq_some_iff.mp hm
          exact group_of_findFrom h rest hm' hv

/-- What a match has for the group is something the group takes. -/
theorem group_of_find {r : Regex} (h : GroupIs name P r) {cs : List Char} {m : Found}
    {v : List Char} (hm : find r cs = some m) (hv : m.group name = some v) : P v :=
  group_of_findFrom h cs hm hv

/-- So has each of all matches. -/
theorem group_of_findAll {r : Regex} (h : GroupIs name P r) {cs : List Char} {m : Found}
    {v : List Char} (hm : m ∈ findAll r cs) (hv : m.group name = some v) : P v := by
  revert hm
  rw [findAll]
  generalize cs.length = fuel, (none : Option Char) = before
  intro hm
  induction fuel generalizing before cs with
  | zero => cases hm
  | succ fuel ih =>
    rw [findAllFrom] at hm
    split at hm
    · cases hm
    · rename_i found hfound
      rcases List.mem_cons.mp hm with rfl | hm
      · exact group_of_findFrom h _ hfound hv
      · exact ih _ hm

end

end EccFe.Python.Regex
