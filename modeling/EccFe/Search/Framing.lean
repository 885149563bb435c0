/-
EccFe.Search.Framing — records of two fields, each field closed by one separator.

A name never holds the separator, a content may. Then the first name can always be read off,
and nothing more: a content can hold what looks like the end of its record and the records
after it (`frames_merge`). Without separators in the contents the records are determined
(`frames_inj`).
-/
import Mathlib.Data.List.Basic

namespace EccFe.Search

variable {α : Type} (sep : α)

/-- A name, the separator, a content, the separator. -/
def frame (record : List α × List α) : List α := record.1 ++ sep :: (record.2 ++ [sep])

def frames (records : List (List α × List α)) : List α := records.flatMap (frame sep)

variable {sep}

theorem frames_cons (name content : List α) (records : List (List α × List α)) :
    frames sep ((name, content) :: records) =
      name ++ sep :: (content ++ sep :: frames sep records) := by
  rw [frames, List.flatMap_cons, frame]
  simp [frames]

theorem frames_append (records more : List (List α × List α)) :
    frames sep (records ++ more) = frames sep records ++ frames sep more := List.flatMap_append

theorem frames_eq_nil {records : List (List α × List α)} : frames sep records = [] ↔ records = [] := by
  cases records with
  | nil => simp [frames]
  | cons record records =>
    obtain ⟨name, content⟩ := record
    simp [frames_cons]

/-- Framed records end in the separator. -/
theorem exists_frames_eq_concat {records : List (List α × List α)} (h : records ≠ []) :
    ∃ body, frames sep records = body ++ [sep] := by
  obtain ⟨init, ⟨name, content⟩, rfl⟩ := (List.eq_nil_or_concat' records).resolve_left h
  refine ⟨frames sep init ++ (name ++ sep :: content), ?_⟩
  rw [frames_append, frames_cons]
  simp [frames]

/-- Two texts cut at their first separator. -/
theorem cut_inj : ∀ {xs ys rest rest' : List α}, sep ∉ xs → sep ∉ ys →
    xs ++ sep :: rest = ys ++ sep :: rest' → xs = ys ∧ rest = rest'
  | [], [], _, _, _, _, h => ⟨rfl, (List.cons.inj h).2⟩
  | [], y :: ys, _, _, _, hys, h => absurd (List.mem_cons.mpr (.inl (List.cons.inj h).1)) hys
  | x :: xs, [], _, _, hxs, _, h => absurd (List.mem_cons.mpr (.inl (List.cons.inj h).1.symm)) hxs
  | x :: xs, y :: ys, _, _, hxs, hys, h => by
      obtain ⟨rfl, htail⟩ := List.cons.inj h
      obtain ⟨rfl, hrest⟩ := cut_inj (fun hmem => hxs (List.mem_cons_of_mem x hmem))
        (fun hmem => hys (List.mem_cons_of_mem x hmem)) htail
      exact ⟨rfl, hrest⟩

/-- The first name and what comes after it are read off. -/
theorem frames_cons_inj {name name' content content' : List α}
    {records records' : List (List α × List α)} (hname : sep ∉ name) (hname' : sep ∉ name')
    (h : frames sep ((name, content) :: records) = frames sep ((name', content') :: records')) :
    name = name' ∧ content ++ sep :: frames sep records = content' ++ sep :: frames sep records' := by
  rw [frames_cons, frames_cons] at h
  exact cut_inj hname hname' h

/-- Without separators in the fields the records are read off. -/
theorem frames_inj : ∀ {records records' : List (List α × List α)},
    (∀ record ∈ records, sep ∉ record.1 ∧ sep ∉ record.2) →
    (∀ record ∈ records', sep ∉ record.1 ∧ sep ∉ record.2) →
      frames sep records = frames sep records' → records = records'
  | [], records', _, _, h => (frames_eq_nil.mp h.symm).symm
  | record :: records, [], _, _, h => frames_eq_nil.mp h
  | (name, content) :: records, (name', content') :: records', hfree, hfree', h => by
      have hhead := hfree _ List.mem_cons_self
      have hhead' := hfree' _ List.mem_cons_self
      obtain ⟨rfl, hrest⟩ := frames_cons_inj hhead.1 hhead'.1 h
      obtain ⟨rfl, hrecords⟩ := cut_inj hhead.2 hhead'.2 hrest
      rw [frames_inj (fun record hr => hfree record (List.mem_cons_of_mem _ hr))
        (fun record hr => hfree' record (List.mem_cons_of_mem _ hr)) hrecords]

/-- One record whose content holds the records after the first. -/
theorem frames_merge (name content : List α) {records : List (List α × List α)}
    (h : records ≠ []) :
    ∃ body, frames sep records = body ++ [sep] ∧
      frames sep [(name, content ++ sep :: body)] = frames sep ((name, content) :: records) := by
  obtain ⟨body, hbody⟩ := exists_frames_eq_concat h
  refine ⟨body, hbody, ?_⟩
  rw [frames_cons, frames_cons, hbody]
  simp [frames]

end EccFe.Search
