/-
EccFe.Python.LineBytes — the lines of bytes that are decoded with `errors="replace"`.

A newline byte is part of no other character, malformed ones included: bytes are decoded line by
line (`decodeReplace_newline`). `str.splitlines` then finds the lines of the bytes, and more of
them where a line holds another line break.
-/
import EccFe.Python.TextFile
import EccFe.Python.Words
import EccFe.Search.Tail

namespace EccFe.Python

open EccFe.Search

/-! ## 1. Decoding -/

/-- `bytes.decode("utf-8", errors="replace")`. -/
def decodeReplace (bytes : List UInt8) : List Char := decodeReplaceFrom 0 bytes

def newline : UInt8 := 10

theorem utf8Head_newline (b : UInt8) (pre rest : List UInt8) :
    utf8Head b (pre ++ newline :: rest) = utf8Head b pre := by
  unfold utf8Head
  extract_lets cont low ofNat
  have hcont : cont newline = false := rfl
  -- how a code point is read does not matter
  clear_value ofNat
  rcases pre with _ | ⟨x, _ | ⟨y, _ | ⟨z, pre⟩⟩⟩
  · rcases rest with _ | ⟨r, _ | ⟨s, rest⟩⟩ <;> simp [hcont]
  · cases rest <;> simp [hcont]
  · simp [hcont]
  · rfl

theorem malformedLength_newline (b : UInt8) (pre rest : List UInt8) :
    malformedLength b (pre ++ newline :: rest) = malformedLength b pre := by
  rcases pre with _ | ⟨x, _ | ⟨y, pre⟩⟩
  · cases rest <;> simp [malformedLength, newline]
  · simp [malformedLength, newline]
  · rfl

theorem utf8Head_length {b : UInt8} {rest : List UInt8} {c : Char} {k : Nat}
    (h : utf8Head b rest = some (c, k)) : k ≤ rest.length := by
  unfold utf8Head at h
  extract_lets cont low ofNat at h
  have hofNat : ∀ lo n k c' k', ofNat lo n k = some (c', k') → k' = k := by
    intro lo n k c' k' hk
    by_cases hvalid : n.isValidChar ∧ lo ≤ n
    · rw [show ofNat lo n k = some (Char.ofNatAux n hvalid.1, k) from dif_pos hvalid] at hk
      cases hk
      rfl
    · rw [show ofNat lo n k = none from dif_neg hvalid] at hk
      cases hk
  clear_value ofNat
  repeat' split at h
  all_goals first | cases h | (cases hofNat _ _ _ _ _ h; simp)

theorem malformedLength_le (b : UInt8) (rest : List UInt8) :
    malformedLength b rest - 1 ≤ rest.length := by
  unfold malformedLength
  dsimp only
  repeat' split
  all_goals simp

theorem decodeReplaceFrom_newline (rest : List UInt8) : ∀ (skip : Nat) (pre : List UInt8),
    skip ≤ pre.length →
    decodeReplaceFrom skip (pre ++ newline :: rest) =
      decodeReplaceFrom skip pre ++ '\n' :: decodeReplaceFrom 0 rest
  | 0, [], _ => by
      have hhead : utf8Head 10 rest = some ('\n', 0) := by
        unfold utf8Head
        rfl
      simp only [List.nil_append, newline, decodeReplaceFrom, hhead]
  | skip + 1, [], h => absurd h (by simp)
  | skip + 1, _ :: pre, h =>
      decodeReplaceFrom_newline rest skip pre (Nat.le_of_succ_le_succ h)
  | 0, b :: pre, _ => by
      rw [List.cons_append, decodeReplaceFrom, decodeReplaceFrom, utf8Head_newline,
        malformedLength_newline]
      cases hhead : utf8Head b pre with
      | some found =>
        obtain ⟨c, k⟩ := found
        dsimp only
        rw [decodeReplaceFrom_newline rest k pre (utf8Head_length hhead), List.cons_append]
      | none =>
        dsimp only
        rw [decodeReplaceFrom_newline rest _ pre (malformedLength_le b pre), List.cons_append]

/-- Bytes are decoded line by line. -/
theorem decodeReplace_newline (pre rest : List UInt8) :
    decodeReplace (pre ++ newline :: rest) = decodeReplace pre ++ '\n' :: decodeReplace rest :=
  decodeReplaceFrom_newline rest 0 pre (Nat.zero_le _)

theorem decodeReplace_ne_nil {bytes : List UInt8} (h : bytes ≠ []) : decodeReplace bytes ≠ [] := by
  cases bytes with
  | nil => exact absurd rfl h
  | cons b rest =>
    rw [decodeReplace, decodeReplaceFrom]
    cases utf8Head b rest <;> simp

/-! ## 2. Splitting -/

theorem oneLine_cons {c : Char} {line : List Char} (hc : isLineBreak c = false)
    (hline : OneLine line) : OneLine (c :: line) := by
  intro d hd
  rcases List.mem_cons.mp hd with rfl | hmem
  · exact hc
  · exact hline d hmem

theorem oneLine_nil : OneLine [] := fun _ h => absurd h List.not_mem_nil

/-- No line of `splitlines` holds a line break. -/
theorem oneLine_of_mem_splitlines (cs : List Char) : ∀ line ∈ splitlines cs, OneLine line := by
  induction cs using splitlines.induct with
  | case1 => simp [splitlines]
  | case2 rest ih =>
    intro line h
    rcases List.mem_cons.mp (by simpa [splitlines] using h) with rfl | hmem
    · exact oneLine_nil
    · exact ih line hmem
  | case3 c rest hreturn hbreak ih =>
    intro line h
    rw [splitlines, if_pos hbreak] at h
    · rcases List.mem_cons.mp h with rfl | hmem
      · exact oneLine_nil
      · exact ih line hmem
    · exact hreturn
  | case4 c rest hreturn hbreak hnil ih =>
    intro line h
    rw [splitlines, if_neg hbreak, hnil] at h
    · rw [List.mem_singleton.mp h]
      exact oneLine_cons (by simpa using hbreak) oneLine_nil
    · exact hreturn
  | case5 c rest hreturn hbreak first lines hcons ih =>
    intro line h
    rw [splitlines, if_neg hbreak, hcons] at h
    · rw [hcons] at ih
      rcases List.mem_cons.mp h with rfl | hmem
      · exact oneLine_cons (by simpa using hbreak) (ih first List.mem_cons_self)
      · exact ih line (List.mem_cons_of_mem first hmem)
    · exact hreturn

theorem splitlines_of_oneLine {cs : List Char} (h : OneLine cs) (hne : cs ≠ []) :
    splitlines cs = [cs] := by
  induction cs with
  | nil => exact absurd rfl hne
  | cons c cs ih =>
    have hc := h c List.mem_cons_self
    rw [splitlines, hc]
    · cases cs with
      | nil => rfl
      | cons d cs => rw [ih (fun e he => h e (List.mem_cons_of_mem c he)) (by simp)]; rfl
    · rintro rest rfl -
      exact absurd hc (by decide)

theorem splitlines_ne_nil {cs : List Char} (h : cs ≠ []) : splitlines cs ≠ [] := by
  induction cs using splitlines.induct with
  | case1 => exact absurd rfl h
  | case2 rest ih => simp [splitlines]
  | case3 c rest hreturn hbreak ih =>
    rw [splitlines, if_pos hbreak]
    · simp
    · exact hreturn
  | case4 c rest hreturn hbreak hnil ih =>
    rw [splitlines, if_neg hbreak, hnil]
    · simp
    · exact hreturn
  | case5 c rest hreturn hbreak first lines hcons ih =>
    rw [splitlines, if_neg hbreak, hcons]
    · simp
    · exact hreturn

/-- What comes after a newline is split by itself. -/
theorem splitlines_newline (pre rest : List Char) :
    ∃ first lines, splitlines (pre ++ '\n' :: rest) = first :: lines ++ splitlines rest := by
  have hletter : ∀ (c : Char) (pre : List Char), ¬isLineBreak c = true →
      (∃ first lines, splitlines (pre ++ '\n' :: rest) = first :: lines ++ splitlines rest) →
      ∃ first lines, splitlines (c :: pre ++ '\n' :: rest) = first :: lines ++ splitlines rest := by
    intro c pre hc ⟨first, lines, hlines⟩
    refine ⟨c :: first, lines, ?_⟩
    rw [List.cons_append, splitlines, if_neg hc, hlines]
    · rfl
    · rintro rest' rfl -
      exact hc rfl
  induction pre using splitlines.induct with
  | case1 => exact ⟨[], [], by simp [splitlines, isLineBreak]⟩
  | case2 pre ih =>
    obtain ⟨first, lines, hlines⟩ := ih
    exact ⟨[], first :: lines, by simp [splitlines, hlines]⟩
  | case3 c pre hreturn hbreak ih =>
    obtain ⟨first, lines, hlines⟩ := ih
    by_cases hcr : c = '\r' ∧ pre = []
    · -- the newline belongs to the carriage return before it
      obtain ⟨rfl, rfl⟩ := hcr
      exact ⟨[], [], by simp [splitlines]⟩
    · refine ⟨[], first :: lines, ?_⟩
      rw [List.cons_append, splitlines, if_pos hbreak, hlines]
      · rfl
      · intro rest' hc heq
        cases pre with
        | nil => exact hcr ⟨hc, rfl⟩
        | cons d pre =>
          obtain ⟨rfl, -⟩ := List.cons.inj heq
          exact hreturn pre hc rfl
  | case4 c pre hreturn hbreak hnil ih => exact hletter c pre hbreak ih
  | case5 c pre hreturn hbreak first lines hcons ih => exact hletter c pre hbreak ih

/-! ## 3. The lines of bytes -/

/-- The lines of bytes are cut at newlines only, each with its newline. -/
def byteLines (bytes : List UInt8) : List (List UInt8) := records newline bytes

/-- The text of a line, without its newline. -/
def lineText (line : List UInt8) : List Char := decodeReplace (body newline line)

/-- `splitlines` finds the lines of the bytes when no other character breaks them. -/
theorem splitlines_decodeReplace {bytes : List UInt8}
    (h : ∀ line ∈ byteLines bytes, OneLine (lineText line)) :
    splitlines (decodeReplace bytes) = (byteLines bytes).map lineText := by
  unfold byteLines at *
  induction bytes using recordsInduction newline with
  | nil => rfl
  | last bytes hne hmem =>
    rw [records_of_not_mem hmem hne] at h ⊢
    have hone := h bytes List.mem_cons_self
    rw [List.map_cons, List.map_nil, lineText, body_of_not_mem hmem]
    rw [lineText, body_of_not_mem hmem] at hone
    exact splitlines_of_oneLine hone (decodeReplace_ne_nil hne)
  | line line rest hline ih =>
    rw [records_line hline] at h ⊢
    have hone := h _ List.mem_cons_self
    have htext : lineText (line ++ [newline]) = decodeReplace line := by
      rw [lineText, body_line hline]
    rw [htext] at hone
    rw [decodeReplace_newline, splitlines_break hone rfl (by decide), List.map_cons, htext,
      ih fun line' hline' => h line' (List.mem_cons_of_mem _ hline')]

end EccFe.Python
