/-
EccFe.Cli.LogTail — the last lines of a log file, as `ecc-fe log` shows them.

`_read_log_tail` reads at most the last 4 MiB of the file, drops the line this cuts and splits
the rest. The lines of a log end with a newline. `readLogTail_iff` says when its last lines are
read, given that they fit: none of them holds another line break, and they do not fill the window
to the byte, since a window that starts at a line boundary loses its first line.
-/
import EccFe.Python.LineBytes

namespace EccFe.Cli.LogTail

open EccFe.Python EccFe.Search

/-! ## 1. The reader -/

def logTailMaxBytes : Nat := 4 * 1024 * 1024

/-- `values[-count:]`. -/
def lastSlice {α : Type} (count : Nat) (values : List α) : List α :=
  if count = 0 then values else takeLast count values

/-- What `_read_log_tail` reads of a file with this content. -/
def window (maxBytes : Nat) (file : List UInt8) : List UInt8 :=
  (file.drop (file.length - maxBytes)).take maxBytes

/-- `_read_log_tail(path, line_count)`, `maxBytes` in place of `_LOG_TAIL_MAX_BYTES`. -/
def readLogTailOf (maxBytes : Nat) (file : List UInt8) (lineCount : Nat) : List (List Char) :=
  let start := file.length - maxBytes
  let content := window maxBytes file
  if start ≠ 0 then
    match afterFirst newline content with
    | none => []
    | some content => lastSlice lineCount (splitlines (decodeReplace content))
  else lastSlice lineCount (splitlines (decodeReplace content))

def readLogTail : List UInt8 → Nat → List (List Char) := readLogTailOf logTailMaxBytes

/-! ## 2. The last lines of the file -/

/-- The last lines of a file, all of them if there are fewer, each with its newline. -/
def lastLines (count : Nat) (file : List UInt8) : List (List UInt8) :=
  takeLast count (byteLines file)

/-- The bytes of the last lines are no more than the reader is willing to read. -/
def Fits (maxBytes : Nat) (file : List UInt8) (count : Nat) : Prop :=
  (lastLines count file).flatten.length ≤ maxBytes

instance (maxBytes : Nat) (file : List UInt8) (count : Nat) : Decidable (Fits maxBytes file count) :=
  inferInstanceAs (Decidable (_ ≤ _))

/-- The last lines are returned. -/
def ReadsLines (maxBytes : Nat) (file : List UInt8) (count : Nat) : Prop :=
  readLogTailOf maxBytes file count = (lastLines count file).map lineText

/-- When the last lines are returned: no line has a line break of its own, the lines do not begin
where the window does, and no line is asked for only when the window has none. -/
structure Readable (maxBytes : Nat) (file : List UInt8) (count : Nat) : Prop where
  unbroken : ∀ line ∈ lastLines count file, OneLine (lineText line)
  inside : maxBytes < file.length → (lastLines count file).flatten.length ≠ maxBytes
  some_line : count = 0 →
    if file.length ≤ maxBytes then file = [] else newline ∉ (window maxBytes file).dropLast

/-! ## 3. The window -/

theorem window_of_le {maxBytes : Nat} {file : List UInt8} (h : file.length ≤ maxBytes) :
    window maxBytes file = file := by
  rw [window, Nat.sub_eq_zero_of_le h, List.drop_zero, List.take_of_length_le h]

/-- The window of a longer file ends with what fits into it. -/
theorem window_append {maxBytes : Nat} {xs ys : List UInt8} (hfits : ys.length ≤ maxBytes)
    (h : maxBytes < (xs ++ ys).length) :
    ∃ zs, window maxBytes (xs ++ ys) = zs ++ ys ∧ zs <:+ xs ∧ zs.length + ys.length = maxBytes := by
  rw [List.length_append] at h
  refine ⟨xs.drop (xs.length + ys.length - maxBytes), ?_, List.drop_suffix _ _, ?_⟩
  · rw [window, List.length_append, List.drop_append_of_le_length (by omega)]
    refine List.take_of_length_le ?_
    rw [List.length_append, List.length_drop]
    omega
  · rw [List.length_drop]
    omega

theorem ended_suffix {xs zs : List UInt8} (h : Ended newline xs) (hsuffix : zs <:+ xs)
    (hne : zs ≠ []) : ∃ ys, zs = ys ++ [newline] := by
  rcases h with rfl | ⟨ys, rfl⟩
  · exact absurd (List.suffix_nil.mp hsuffix) hne
  · rcases List.suffix_concat_iff.mp hsuffix with hnil | ⟨zs', hzs, -⟩
    · exact absurd hnil hne
    · exact ⟨zs', hzs⟩

/-! ## 4. What is read -/

theorem lastSlice_subset {α : Type} (count : Nat) (values : List α) :
    lastSlice count values ⊆ values := by
  unfold lastSlice
  split
  · exact List.Subset.refl _
  · exact takeLast_subset count values

/-- What is returned never holds a line break. -/
theorem oneLine_of_mem_readLogTail {maxBytes count : Nat} {file : List UInt8} {line : List Char}
    (h : line ∈ readLogTailOf maxBytes file count) : OneLine line := by
  unfold readLogTailOf at h
  dsimp only at h
  split at h
  · split at h
    · exact absurd h List.not_mem_nil
    · exact oneLine_of_mem_splitlines _ _ (lastSlice_subset _ _ h)
  · exact oneLine_of_mem_splitlines _ _ (lastSlice_subset _ _ h)

/-- Lines behind a whole number of lines are the last ones that are split off. -/
theorem takeLast_splitlines {pre : List UInt8} {lines : List (List UInt8)} {count : Nat}
    (hpre : Ended newline pre) (hlines : byteLines lines.flatten = lines)
    (hone : ∀ line ∈ lines, OneLine (lineText line)) (hle : lines.length ≤ count)
    (hall : lines.length < count → pre = []) :
    takeLast count (splitlines (decodeReplace (pre ++ lines.flatten))) = lines.map lineText := by
  have hrest : splitlines (decodeReplace lines.flatten) = lines.map lineText := by
    rw [splitlines_decodeReplace (by rw [hlines]; exact hone), hlines]
  rcases hpre with rfl | ⟨ys, rfl⟩
  · rw [List.nil_append, hrest]
    exact takeLast_append [] (by simpa using hle) (fun _ => rfl)
  · rw [List.append_assoc, List.singleton_append, decodeReplace_newline]
    obtain ⟨first, more, hsplit⟩ := splitlines_newline (decodeReplace ys) (decodeReplace lines.flatten)
    rw [hsplit, hrest]
    refine takeLast_append _ (by simpa using hle) fun hlt => ?_
    exact absurd (hall (by simpa using hlt)) (by simp)

/-! ## 5. When the last lines are returned -/

section Exact

variable {maxBytes count : Nat} {file : List UInt8}

/-- The file is what comes before its last lines and these. -/
theorem exists_lastLines (hcount : 0 < count) (file : List UInt8) :
    ∃ before, file = before ++ (lastLines count file).flatten ∧ Ended newline before ∧
      byteLines (lastLines count file).flatten = lastLines count file ∧
      (lastLines count file).length ≤ count ∧
      ((lastLines count file).length < count → before = []) := by
  obtain ⟨before, hsplit, hle, hall⟩ := exists_append_takeLast count (byteLines file)
  have hempty : (lastLines count file).length < count → before.flatten = [] := by
    intro hlt
    rw [hall hlt]
    rfl
  refine ⟨before.flatten, ?_, ?_, records_flatten_of_records hsplit, hle, hempty⟩
  · rw [← List.flatten_append, lastLines, ← hsplit]
    exact (flatten_records file).symm
  · by_cases hnil : lastLines count file = []
    · exact .inl (hempty (by rw [hnil]; exact hcount))
    · exact ended_of_records hsplit hnil

/-- Nothing is returned for no lines exactly when there is no line to return. -/
theorem readLogTailOf_zero (maxBytes : Nat) (file : List UInt8) :
    readLogTailOf maxBytes file 0 = [] ↔
      if file.length ≤ maxBytes then file = [] else newline ∉ (window maxBytes file).dropLast := by
  have hempty : ∀ bytes : List UInt8, splitlines (decodeReplace bytes) = [] ↔ bytes = [] := by
    intro bytes
    constructor
    · intro h
      by_contra hne
      exact splitlines_ne_nil (decodeReplace_ne_nil hne) h
    · rintro rfl
      rfl
  unfold readLogTailOf
  dsimp only [lastSlice]
  by_cases hle : file.length ≤ maxBytes
  · rw [if_neg (by omega), if_pos rfl, window_of_le hle, if_pos hle]
    exact hempty file
  · rw [if_pos (by omega), if_neg hle, ← afterFirst_empty_iff]
    cases afterFirst newline (window maxBytes file) with
    | none => simp
    | some content => simpa using hempty content

/-- Unbroken lines that do not begin where the window does are returned. -/
theorem readsLines_of_inside (hcount : 0 < count)
    (hone : ∀ line ∈ lastLines count file, OneLine (lineText line))
    (hfits : Fits maxBytes file count)
    (hinside : maxBytes < file.length → (lastLines count file).flatten.length ≠ maxBytes) :
    ReadsLines maxBytes file count := by
  obtain ⟨before, hfile, hended, hlines, hle, hall⟩ := exists_lastLines hcount file
  unfold Fits at hfits
  unfold ReadsLines readLogTailOf
  dsimp only [lastSlice]
  generalize lastLines count file = lines at *
  subst hfile
  by_cases hshort : (before ++ lines.flatten).length ≤ maxBytes
  · rw [if_neg (by omega), if_neg (by omega), window_of_le hshort]
    exact takeLast_splitlines hended hlines hone hle hall
  · obtain ⟨zs, hwindow, hsuffix, hlength⟩ := window_append hfits (Nat.lt_of_not_le hshort)
    have hne : zs ≠ [] := by
      rintro rfl
      exact hinside (Nat.lt_of_not_le hshort) (by simpa using hlength)
    obtain ⟨ys, rfl⟩ := ended_suffix hended hsuffix hne
    obtain ⟨pre, hafter, hpre⟩ := @afterFirst_ended _ _ newline ys lines.flatten
    rw [if_pos (by omega), hwindow, hafter]
    dsimp only
    rw [if_neg (by omega)]
    refine takeLast_splitlines hpre hlines hone hle fun hlt => ?_
    rw [hall hlt] at hsuffix
    exact absurd (List.suffix_nil.mp hsuffix) hne

/-- A window that begins with the last lines loses the first of them. -/
theorem not_readsLines_of_boundary (hmax : 0 < maxBytes) (hcount : 0 < count)
    (hone : ∀ line ∈ lastLines count file, OneLine (lineText line))
    (hlong : maxBytes < file.length)
    (hboundary : (lastLines count file).flatten.length = maxBytes) :
    ¬ReadsLines maxBytes file count := by
  obtain ⟨before, hfile, -, hlines, hle, -⟩ := exists_lastLines hcount file
  unfold ReadsLines readLogTailOf
  dsimp only [lastSlice]
  generalize lastLines count file = lines at *
  subst hfile
  obtain ⟨zs, hwindow, -, hlength⟩ := window_append (Nat.le_of_eq hboundary) hlong
  obtain rfl : zs = [] := List.length_eq_zero_iff.mp (by omega)
  cases lines with
  | nil => simp at hboundary; omega
  | cons r rs =>
    rw [if_pos (by omega), hwindow, List.nil_append]
    rcases afterFirst_records hlines with hafter | ⟨hafter, -⟩
    · have hrest : byteLines rs.flatten = rs :=
        records_flatten_of_records (show records newline _ = [r] ++ rs from hlines)
      rw [hafter]
      dsimp only
      rw [if_neg (by omega), ← List.nil_append rs.flatten, takeLast_splitlines (.inl rfl) hrest
        (fun line hline => hone line (List.mem_cons_of_mem r hline))
        (Nat.le_of_succ_le hle) (fun _ => rfl)]
      intro h
      simpa using congrArg List.length h
    · rw [hafter]
      simp

/-- A line with a line break of its own is not returned. -/
theorem oneLine_of_readsLines (h : ReadsLines maxBytes file count) :
    ∀ line ∈ lastLines count file, OneLine (lineText line) := by
  intro line hline
  have hread : lineText line ∈ readLogTailOf maxBytes file count := by
    rw [show readLogTailOf maxBytes file count = _ from h]
    exact List.mem_map_of_mem hline
  exact oneLine_of_mem_readLogTail hread

theorem readsLines_iff (hmax : 0 < maxBytes) (hfits : Fits maxBytes file count) :
    ReadsLines maxBytes file count ↔ Readable maxBytes file count := by
  rcases Nat.eq_zero_or_pos count with rfl | hcount
  · have hnone : lastLines 0 file = [] := by simp [lastLines, takeLast]
    have hempty : (lastLines 0 file).flatten.length ≠ maxBytes := by
      rw [hnone, List.flatten_nil, List.length_nil]
      omega
    unfold ReadsLines
    rw [hnone, List.map_nil, readLogTailOf_zero]
    constructor
    · intro h
      exact ⟨by simp [hnone], fun _ => hempty, fun _ => h⟩
    · intro h
      exact h.some_line rfl
  · constructor
    · intro h
      have hone := oneLine_of_readsLines h
      refine ⟨hone, fun hlong hboundary => ?_, fun hzero => absurd hzero (by omega)⟩
      exact not_readsLines_of_boundary hmax hcount hone hlong hboundary h
    · intro h
      exact readsLines_of_inside hcount h.unbroken hfits h.inside

end Exact

/-- The last lines of a log file, when they fit into what is read, are returned exactly under
`Readable`. -/
theorem readLogTail_iff {file : List UInt8} {count : Nat} (hfits : Fits logTailMaxBytes file count) :
    readLogTail file count = (lastLines count file).map lineText ↔
      Readable logTailMaxBytes file count :=
  readsLines_iff (by decide) hfits

/-- Two lines of a short log are read. -/
theorem readLogTail_short :
    (readLogTail (asciiBytes "discarded\nlast-one\nlast-two\n") 2 =
        (lastLines 2 (asciiBytes "discarded\nlast-one\nlast-two\n")).map lineText ↔
      Readable logTailMaxBytes (asciiBytes "discarded\nlast-one\nlast-two\n") 2) :=
  readLogTail_iff (by decide +kernel)

/-- A log whose second line fills a window by itself. -/
def boundaryLog (maxBytes : Nat) : List UInt8 :=
  newline :: (List.replicate (maxBytes - 1) 120 ++ [newline])

theorem lastLines_boundaryLog (maxBytes : Nat) :
    lastLines 1 (boundaryLog maxBytes) = [List.replicate (maxBytes - 1) 120 ++ [newline]] := by
  have hline : newline ∉ List.replicate (maxBytes - 1) (120 : UInt8) := by
    intro h
    exact absurd (List.eq_of_mem_replicate h) (by decide)
  have hrecords : byteLines (boundaryLog maxBytes) =
      [[newline], List.replicate (maxBytes - 1) 120 ++ [newline]] := by
    rw [byteLines, boundaryLog, records, if_pos rfl, records_line hline]
    rfl
  rw [lastLines, hrecords]
  rfl

theorem length_boundaryLine {maxBytes : Nat} (h : 0 < maxBytes) :
    (lastLines 1 (boundaryLog maxBytes)).flatten.length = maxBytes := by
  rw [lastLines_boundaryLog, List.flatten_singleton, List.length_append, List.length_replicate,
    List.length_singleton]
  omega

theorem length_boundaryLog (maxBytes : Nat) : maxBytes < (boundaryLog maxBytes).length := by
  rw [boundaryLog, List.length_cons, List.length_append, List.length_replicate,
    List.length_singleton]
  omega

/-- One line that fills the window is lost, and so is the part of a line before a carriage
return. -/
theorem readLogTail_drops :
    (Fits logTailMaxBytes (boundaryLog logTailMaxBytes) 1 ∧
      readLogTail (boundaryLog logTailMaxBytes) 1 ≠
        (lastLines 1 (boundaryLog logTailMaxBytes)).map lineText) ∧
    (Fits logTailMaxBytes (asciiBytes "a\rb\n") 1 ∧
      readLogTail (asciiBytes "a\rb\n") 1 ≠
        (lastLines 1 (asciiBytes "a\rb\n")).map lineText) := by
  have hmax : 0 < logTailMaxBytes := by decide
  have hfits : Fits logTailMaxBytes (boundaryLog logTailMaxBytes) 1 :=
    Nat.le_of_eq (length_boundaryLine hmax)
  refine ⟨⟨hfits, fun h => ?_⟩, by decide +kernel, by decide +kernel⟩
  exact ((readsLines_iff hmax hfits).mp h).inside (length_boundaryLog _) (length_boundaryLine hmax)

end EccFe.Cli.LogTail
