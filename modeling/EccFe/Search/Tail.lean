/-
EccFe.Search.Tail — the last records of a sequence, seen through a window at its end.

A record ends with a separator; the last one may lack it. A window of a fixed length cuts the
sequence anywhere, so its reader drops everything up to the first separator (`afterFirst`). The
last records are still there when the window is longer than they are (`afterFirst_ended`). A
window that is exactly as long starts with a whole record, and that one is dropped.
-/
import Mathlib.Data.List.Basic
import Mathlib.Data.List.TakeWhile

namespace EccFe.Search

/-! ## 1. Records -/

section Records

variable {α : Type} [DecidableEq α] (sep : α)

/-- The records of a sequence, each with its separator. -/
def records : List α → List (List α)
  | [] => []
  | x :: xs =>
      if x = sep then [x] :: records xs
      else
        match records xs with
        | [] => [[x]]
        | r :: rs => (x :: r) :: rs

/-- A record without its separator. -/
def body (record : List α) : List α := record.takeWhile fun x => decide (x ≠ sep)

/-- The sequence is empty or ends with a separator. -/
def Ended (xs : List α) : Prop := xs = [] ∨ ∃ ys, xs = ys ++ [sep]

variable {sep}

theorem flatten_records (xs : List α) : (records sep xs).flatten = xs := by
  induction xs with
  | nil => rfl
  | cons x xs ih =>
    rw [records]
    split
    · simp [ih]
    · split
      · rename_i hnil
        rw [hnil] at ih
        simp [← ih]
      · rename_i r rs hcons
        rw [hcons] at ih
        simpa using ih

theorem records_of_not_mem {xs : List α} (h : sep ∉ xs) (hne : xs ≠ []) :
    records sep xs = [xs] := by
  induction xs with
  | nil => exact absurd rfl hne
  | cons x xs ih =>
    have hx : x ≠ sep := fun heq => h (by simp [heq])
    rw [records, if_neg hx]
    cases xs with
    | nil => rfl
    | cons y ys => rw [ih (fun hmem => h (List.mem_cons_of_mem x hmem)) (by simp)]

theorem records_line {line : List α} (h : sep ∉ line) (rest : List α) :
    records sep (line ++ sep :: rest) = (line ++ [sep]) :: records sep rest := by
  induction line with
  | nil => simp [records]
  | cons x line ih =>
    have hx : x ≠ sep := fun heq => h (by simp [heq])
    rw [List.cons_append, records, if_neg hx, ih fun hmem => h (List.mem_cons_of_mem x hmem)]
    rfl

variable (sep) in
/-- A sequence is empty, or one record without a separator, or a record and the others. -/
theorem recordsInduction {motive : List α → Prop} (nil : motive [])
    (last : ∀ xs, xs ≠ [] → sep ∉ xs → motive xs)
    (line : ∀ line rest, sep ∉ line → motive rest → motive (line ++ sep :: rest)) :
    ∀ xs, motive xs := by
  intro xs
  induction hlen : xs.length using Nat.strongRecOn generalizing xs with
  | ind n ih =>
    by_cases hmem : sep ∈ xs
    · obtain ⟨pre, rest, rfl, hpre⟩ := List.eq_append_cons_of_mem hmem
      refine line pre rest hpre (ih rest.length ?_ rest rfl)
      rw [← hlen, List.length_append, List.length_cons]
      omega
    · by_cases hnil : xs = []
      · rw [hnil]
        exact nil
      · exact last xs hnil hmem

theorem body_of_not_mem {line : List α} (h : sep ∉ line) : body sep line = line := by
  unfold body
  rw [List.takeWhile_eq_self_iff]
  intro x hx
  exact decide_eq_true fun heq => h (heq ▸ hx)

theorem body_line {line : List α} (h : sep ∉ line) : body sep (line ++ [sep]) = line := by
  unfold body
  rw [List.takeWhile_append, show line.takeWhile (fun x => decide (x ≠ sep)) = line from
    body_of_not_mem h]
  simp

/-! ## 2. The last records -/

/-- What comes before the last records ends with a separator. -/
theorem ended_of_records {xs : List α} {before after : List (List α)}
    (h : records sep xs = before ++ after) (hne : after ≠ []) : Ended sep before.flatten := by
  induction xs using recordsInduction sep generalizing before with
  | nil => exact absurd (List.append_eq_nil_iff.mp h.symm).2 hne
  | last xs hnil hmem =>
    rw [records_of_not_mem hmem hnil] at h
    cases before with
    | nil => exact .inl rfl
    | cons b before => exact absurd (List.append_eq_nil_iff.mp (List.cons.inj h).2.symm).2 hne
  | line line rest hline ih =>
    rw [records_line hline] at h
    cases before with
    | nil => exact .inl rfl
    | cons b before =>
      obtain ⟨hb, hrest⟩ := List.cons.inj h
      subst hb
      rcases ih hrest with hnil | ⟨ys, hys⟩
      · exact .inr ⟨line, by simp [hnil]⟩
      · exact .inr ⟨line ++ sep :: ys, by simp [hys]⟩

/-- The last records are the records of their own text. -/
theorem records_flatten_of_records {xs : List α} {before after : List (List α)}
    (h : records sep xs = before ++ after) : records sep after.flatten = after := by
  induction xs using recordsInduction sep generalizing before with
  | nil =>
    obtain ⟨-, rfl⟩ := List.append_eq_nil_iff.mp h.symm
    rfl
  | last xs hnil hmem =>
    cases before with
    | nil => rw [← show records sep xs = after from h, flatten_records]
    | cons b before =>
      rw [records_of_not_mem hmem hnil] at h
      obtain ⟨-, rfl⟩ := List.append_eq_nil_iff.mp (List.cons.inj h).2.symm
      rfl
  | line line rest hline ih =>
    cases before with
    | nil => rw [← show records sep _ = after from h, flatten_records]
    | cons b before =>
      rw [records_line hline] at h
      exact ih (List.cons.inj h).2

/-! ## 3. The window -/

variable (sep) in
/-- What follows the first separator, `none` without one. -/
def afterFirst : List α → Option (List α)
  | [] => none
  | x :: xs => if x = sep then some xs else afterFirst xs

theorem afterFirst_line {line : List α} (h : sep ∉ line) (rest : List α) :
    afterFirst sep (line ++ sep :: rest) = some rest := by
  induction line with
  | nil => simp [afterFirst]
  | cons x line ih =>
    have hx : x ≠ sep := fun heq => h (by simp [heq])
    rw [List.cons_append, afterFirst, if_neg hx, ih fun hmem => h (List.mem_cons_of_mem x hmem)]

theorem afterFirst_of_not_mem {xs : List α} (h : sep ∉ xs) : afterFirst sep xs = none := by
  induction xs with
  | nil => rfl
  | cons x xs ih =>
    rw [afterFirst, if_neg fun heq => h (by simp [heq]),
      ih fun hmem => h (List.mem_cons_of_mem x hmem)]

/-- A window that starts before the last records loses nothing of them. -/
theorem afterFirst_ended (ys rest : List α) :
    ∃ pre, afterFirst sep (ys ++ [sep] ++ rest) = some (pre ++ rest) ∧ Ended sep pre := by
  induction ys with
  | nil => exact ⟨[], by simp [afterFirst], .inl rfl⟩
  | cons y ys ih =>
    rw [List.cons_append, List.cons_append, afterFirst]
    split
    · exact ⟨ys ++ [sep], rfl, .inr ⟨ys, rfl⟩⟩
    · exact ih

/-- A window that starts with a record loses that one. -/
theorem afterFirst_records {xs : List α} {r : List α} {rs : List (List α)}
    (h : records sep xs = r :: rs) :
    afterFirst sep xs = some rs.flatten ∨ (afterFirst sep xs = none ∧ rs = []) := by
  by_cases hmem : sep ∈ xs
  · obtain ⟨line, rest, rfl, hline⟩ := List.eq_append_cons_of_mem hmem
    rw [records_line hline] at h
    rw [afterFirst_line hline, ← (List.cons.inj h).2, flatten_records]
    exact .inl rfl
  · have hnil : xs ≠ [] := by
      intro hnil
      rw [hnil] at h
      cases h
    rw [records_of_not_mem hmem hnil] at h
    exact .inr ⟨afterFirst_of_not_mem hmem, (List.cons.inj h).2.symm⟩

/-- Nothing is left behind the first separator when there is none before the last item. -/
theorem afterFirst_empty_iff (xs : List α) :
    (∀ rest ∈ afterFirst sep xs, rest = []) ↔ sep ∉ xs.dropLast := by
  by_cases hmem : sep ∈ xs
  · obtain ⟨line, rest, rfl, hline⟩ := List.eq_append_cons_of_mem hmem
    rw [afterFirst_line hline]
    cases rest with
    | nil => simpa using hline
    | cons x rest => simp
  · rw [afterFirst_of_not_mem hmem]
    simpa using fun h => hmem (List.dropLast_subset xs h)

end Records

/-! ## 4. The last items of a list -/

section Last

variable {α : Type}

def takeLast (count : Nat) (xs : List α) : List α := xs.drop (xs.length - count)

theorem takeLast_append (xs : List α) {ys : List α} {count : Nat} (hle : ys.length ≤ count)
    (hall : ys.length < count → xs = []) : takeLast count (xs ++ ys) = ys := by
  unfold takeLast
  rw [List.length_append]
  rcases Nat.lt_or_eq_of_le hle with hlt | heq
  · rw [hall hlt, List.nil_append, List.length_nil, Nat.zero_add, Nat.sub_eq_zero_of_le hle,
      List.drop_zero]
  · rw [← heq, Nat.add_sub_cancel, List.drop_left]

/-- A list is what comes before its last items and these, which are all when they are fewer. -/
theorem exists_append_takeLast (count : Nat) (xs : List α) :
    ∃ before, xs = before ++ takeLast count xs ∧ (takeLast count xs).length ≤ count ∧
      ((takeLast count xs).length < count → before = []) := by
  refine ⟨xs.take (xs.length - count), (List.take_append_drop _ _).symm, ?_, ?_⟩
  · unfold takeLast
    rw [List.length_drop]
    omega
  · unfold takeLast
    rw [List.length_drop]
    intro h
    rw [show xs.length - count = 0 by omega, List.take_zero]

theorem takeLast_subset (count : Nat) (xs : List α) : takeLast count xs ⊆ xs := by
  unfold takeLast
  exact List.drop_subset _ _

end Last

end EccFe.Search
