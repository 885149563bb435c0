/-
EccFe.Python.TextFile — what `path.write_text(text, encoding="utf-8")` leaves to be read.

`decode_encode`: text written as UTF-8 is read back. `textLines_append` reads a
written line by itself: a line without a line break is read as it was written, and a
line with one is cut there.
-/
import EccFe.Python.Path

namespace EccFe.Python

/-! ## 1. UTF-8 -/

def encode (cs : List Char) : List UInt8 := cs.flatMap String.utf8EncodeChar

theorem toNat_ofNat {n : Nat} (h : n < 256) : (UInt8.ofNat n).toNat = n :=
  UInt8.toNat_ofNat_of_lt' h

/-- The code point of a character gives the character back. -/
theorem ofNatAux_val {c : Char} {n lo : Nat} (hn : n = c.val.toNat) (hlo : lo ≤ n) (k : Nat) :
    (if h : n.isValidChar ∧ lo ≤ n then some (Char.ofNatAux n h.1, k) else none) = some (c, k) := by
  subst hn
  rw [dif_pos ⟨c.valid, hlo⟩]
  refine congrArg (fun d => some (d, k)) (Char.ext ?_)
  exact UInt32.toNat_inj.mp rfl

/-- The range a byte of known value is in. -/
theorem between_ofNat {n : Nat} (h : n < 256) (lo hi : UInt8) :
    ((lo ≤ UInt8.ofNat n : Bool) && (UInt8.ofNat n < hi : Bool)) =
      decide (lo.toNat ≤ n ∧ n < hi.toNat) := by
  rw [Bool.eq_iff_iff]
  simp [UInt8.le_iff_toNat_le, UInt8.lt_iff_toNat_lt, Nat.mod_eq_of_lt h]

theorem cont_ofNat (n : Nat) :
    ((0x80 ≤ UInt8.ofNat (n % 64 + 128) : Bool) && (UInt8.ofNat (n % 64 + 128) < 0xC0 : Bool)) =
      true := by
  rw [between_ofNat (by omega)]
  exact decide_eq_true ⟨Nat.le_add_left _ _, Nat.add_lt_add_right (Nat.mod_lt n (by decide)) 128⟩

theorem low_ofNat (n : Nat) : (UInt8.ofNat (n % 64 + 128)).toNat % 64 = n % 64 := by
  rw [toNat_ofNat (by omega)]
  omega

/-- A character is read back from its bytes. -/
theorem utf8Head_encodeChar (c : Char) (rest : List UInt8) :
    ∃ b bytes, String.utf8EncodeChar c = b :: bytes ∧
      utf8Head b (bytes ++ rest) = some (c, bytes.length) := by
  have hlt : c.val.toNat < 0x110000 := by
    rcases c.valid with h | h
    · exact Nat.lt_trans h (by decide)
    · exact h.2
  have hascii : ∀ n, 128 ≤ n → n < 256 → ¬UInt8.ofNat n < 0x80 := by
    intro n hlo hhi
    rw [UInt8.lt_iff_toNat_lt, toNat_ofNat hhi]
    exact Nat.not_lt.mpr hlo
  unfold String.utf8EncodeChar
  generalize hv : c.val.toNat = v at *
  by_cases h1 : v ≤ 127
  · refine ⟨.ofNat v, [], by simp [h1], ?_⟩
    have hb : (UInt8.ofNat v).toNat = v := toNat_ofNat (by omega)
    unfold utf8Head
    rw [if_pos (by rw [UInt8.lt_iff_toNat_lt, hb]; exact Nat.lt_succ_of_le h1), hb]
    exact ofNatAux_val hv.symm (Nat.zero_le _) 0
  by_cases h2 : v ≤ 2047
  · refine ⟨.ofNat (v / 64 % 32 + 192), [.ofNat (v % 64 + 128)], by simp [h1, h2], ?_⟩
    unfold utf8Head
    rw [if_neg (hascii _ (by omega) (by omega)), between_ofNat (by omega),
      if_pos (decide_eq_true ⟨show 194 ≤ _ by omega, show _ < 224 by omega⟩)]
    dsimp only [List.singleton_append]
    rw [if_pos (cont_ofNat v), low_ofNat, toNat_ofNat (by omega)]
    exact ofNatAux_val (by omega) (by omega) 1
  by_cases h3 : v ≤ 65535
  · refine ⟨.ofNat (v / 4096 % 16 + 224), [.ofNat (v / 64 % 64 + 128), .ofNat (v % 64 + 128)],
      by simp [h1, h2, h3], ?_⟩
    unfold utf8Head
    rw [if_neg (hascii _ (by omega) (by omega)), between_ofNat (by omega),
      if_neg (by rw [decide_eq_true_eq]; exact fun h => absurd (show _ < 224 from h.2) (by omega)),
      between_ofNat (by omega),
      if_pos (decide_eq_true ⟨show 224 ≤ _ by omega, show _ < 240 by omega⟩)]
    dsimp only [List.cons_append, List.nil_append]
    rw [if_pos (Bool.and_eq_true_iff.mpr ⟨cont_ofNat _, cont_ofNat v⟩), low_ofNat, low_ofNat,
      toNat_ofNat (by omega)]
    exact ofNatAux_val (by omega) (by omega) 2
  · refine ⟨.ofNat (v / 262144 % 8 + 240),
      [.ofNat (v / 4096 % 64 + 128), .ofNat (v / 64 % 64 + 128), .ofNat (v % 64 + 128)],
      by simp [h1, h2, h3], ?_⟩
    unfold utf8Head
    rw [if_neg (hascii _ (by omega) (by omega)), between_ofNat (by omega),
      if_neg (by rw [decide_eq_true_eq]; exact fun h => absurd (show _ < 224 from h.2) (by omega)),
      between_ofNat (by omega),
      if_neg (by rw [decide_eq_true_eq]; exact fun h => absurd (show _ < 240 from h.2) (by omega)),
      between_ofNat (by omega),
      if_pos (decide_eq_true ⟨show 240 ≤ _ by omega, show _ < 245 by omega⟩)]
    dsimp only [List.cons_append, List.nil_append]
    rw [if_pos (Bool.and_eq_true_iff.mpr
        ⟨Bool.and_eq_true_iff.mpr ⟨cont_ofNat _, cont_ofNat _⟩, cont_ofNat v⟩),
      low_ofNat, low_ofNat, low_ofNat, toNat_ofNat (by omega)]
    exact ofNatAux_val (by omega) (by omega) 3

theorem decodeFrom_skip (bytes rest : List UInt8) :
    decodeFrom bytes.length (bytes ++ rest) = decodeFrom 0 rest := by
  induction bytes with
  | nil => rfl
  | cons b bytes ih => exact ih

/-- What was written as UTF-8 is read back. -/
theorem decode_encode (cs : List Char) : decode (encode cs) = some cs := by
  induction cs with
  | nil => rfl
  | cons c cs ih =>
    obtain ⟨b, bytes, hchar, hhead⟩ := utf8Head_encodeChar c (encode cs)
    have hencode : encode (c :: cs) = b :: (bytes ++ encode cs) := by
      rw [encode, List.flatMap_cons, hchar]
      rfl
    rw [hencode, decode, decodeFrom, hhead]
    show (decodeFrom bytes.length (bytes ++ encode cs)).map (c :: ·) = some (c :: cs)
    rw [decodeFrom_skip, ← decode, ih]
    rfl

/-- `ByteArray.toList` copies the bytes from the left. -/
theorem toList_loop (bs : ByteArray) : ∀ (n i : Nat) (r : List UInt8), bs.size - i = n →
    ByteArray.toList.loop bs i r = r.reverse ++ bs.data.toList.drop i
  | 0, i, r, h => by
      rw [ByteArray.toList.loop, if_neg (by omega)]
      have hle : bs.data.toList.length ≤ i := by
        rw [Array.length_toList]
        have hsize : bs.data.size = bs.size := rfl
        omega
      rw [List.drop_eq_nil_of_le hle, List.append_nil]
  | n + 1, i, r, h => by
      have hi : i < bs.size := by omega
      rw [ByteArray.toList.loop, if_pos hi, toList_loop bs n (i + 1) _ (by omega)]
      have hi' : i < bs.data.toList.length := by
        rw [Array.length_toList]
        exact hi
      have hbyte : bs.get! i = bs.data.toList[i] := by
        rw [ByteArray.get!, Array.getElem_toList]
        exact getElem!_pos bs.data i hi
      rw [List.drop_eq_getElem_cons hi', List.reverse_cons, List.append_assoc, hbyte]
      rfl

/-- Lean's encoder and `encode`. -/
theorem toUTF8_toList (s : String) : s.toUTF8.toList = encode s.toList := by
  rw [ByteArray.toList, toList_loop _ _ _ _ rfl, String.toUTF8_eq_toByteArray,
    ← String.utf8Encode_toList]
  simp [List.utf8Encode, encode]

/-- Only the NUL character has a zero byte. -/
theorem zero_mem_encodeChar (c : Char) : 0 ∈ String.utf8EncodeChar c ↔ c = '\x00' := by
  have hlt : c.val.toNat < 0x110000 := by
    rcases c.valid with h | h
    · exact Nat.lt_trans h (by decide)
    · exact h.2
  have hzero : ∀ n, n < 256 → ((0 : UInt8) = UInt8.ofNat n ↔ n = 0) := by
    intro n hn
    rw [← UInt8.toNat_inj, toNat_ofNat hn]
    exact eq_comm
  have hc : c = '\x00' ↔ c.val.toNat = 0 := by
    rw [Char.ext_iff, ← UInt32.toNat_inj]; rfl
  rw [hc]
  unfold String.utf8EncodeChar
  generalize c.val.toNat = v at *
  dsimp only
  split_ifs <;> simp only [List.mem_cons, List.not_mem_nil, or_false] <;>
    simp (disch := omega) only [hzero] <;> omega

/-! ## 2. Lines -/

/-- `"\n".join(lines) + "\n"`. -/
def joinLines (lines : List (List Char)) : List Char := ['\n'].intercalate lines ++ ['\n']

/-- The text has no character that ends a line. -/
def OneLine (cs : List Char) : Prop := ∀ c ∈ cs, isLineBreak c = false

theorem joinLines_singleton (line : List Char) : joinLines [line] = line ++ ['\n'] := by
  simp [joinLines]

theorem joinLines_cons (line : List Char) {lines : List (List Char)} (h : lines ≠ []) :
    joinLines (line :: lines) = line ++ '\n' :: joinLines lines := by
  obtain ⟨next, lines, rfl⟩ := List.exists_cons_of_ne_nil h
  simp [joinLines, List.intercalate_cons_cons]

theorem universalNewlines_append {pre : List Char} (h : OneLine pre) (cs : List Char) :
    universalNewlines (pre ++ cs) = pre ++ universalNewlines cs := by
  induction pre with
  | nil => rfl
  | cons c pre ih =>
    have hreturn : c ≠ '\r' := by
      rintro rfl
      exact absurd (h '\r' List.mem_cons_self) (by decide)
    have hrest := ih fun d hd => h d (List.mem_cons_of_mem c hd)
    rw [List.cons_append, universalNewlines, hrest]
    · rfl
    · rintro cs' heq -
      exact hreturn heq
    · intro heq
      exact hreturn heq

/-- A line break is read as one that ends the line by itself. -/
theorem universalNewlines_break {c : Char} (hc : isLineBreak c = true) (cs : List Char) :
    ∃ d rest, universalNewlines (c :: cs) = d :: universalNewlines rest ∧ isLineBreak d = true ∧
      d ≠ '\r' := by
  by_cases hreturn : c = '\r'
  · subst hreturn
    cases cs with
    | nil => exact ⟨'\n', [], rfl, rfl, by decide⟩
    | cons d rest =>
      by_cases hnewline : d = '\n'
      · subst hnewline
        exact ⟨'\n', rest, rfl, rfl, by decide⟩
      · refine ⟨'\n', d :: rest, ?_, rfl, by decide⟩
        rw [universalNewlines]
        intro rest' heq
        cases heq
        exact hnewline rfl
  · refine ⟨c, cs, ?_, hc, hreturn⟩
    rw [universalNewlines]
    · rintro cs' heq -
      exact hreturn heq
    · intro heq
      exact hreturn heq

theorem splitlines_break {pre : List Char} (h : OneLine pre) {d : Char}
    (hd : isLineBreak d = true) (hreturn : d ≠ '\r') (rest : List Char) :
    splitlines (pre ++ d :: rest) = pre :: splitlines rest := by
  induction pre with
  | nil =>
    rw [List.nil_append, splitlines, if_pos hd]
    rintro rest' heq -
    exact hreturn heq
  | cons c pre ih =>
    have hc := h c List.mem_cons_self
    have hrest := ih fun d hd => h d (List.mem_cons_of_mem c hd)
    rw [List.cons_append, splitlines, hrest, hc]
    · rfl
    · rintro rest' rfl -
      exact absurd hc (by decide)

/-- The text up to a break is the first line, and reading goes on somewhere after it. -/
theorem textLines_break {pre : List Char} (h : OneLine pre) {c : Char} (hc : isLineBreak c = true)
    (cs : List Char) : ∃ rest, textLines (pre ++ c :: cs) = pre :: textLines rest := by
  obtain ⟨d, rest, hbreak, hd, hreturn⟩ := universalNewlines_break hc cs
  refine ⟨rest, ?_⟩
  rw [textLines, universalNewlines_append h, hbreak, splitlines_break h hd hreturn]
  rfl

/-- A line without a break is read as it was written. -/
theorem textLines_line {line : List Char} (h : OneLine line) (rest : List Char) :
    textLines (line ++ '\n' :: rest) = line :: textLines rest := by
  rw [textLines, universalNewlines_append h]
  show splitlines (line ++ '\n' :: universalNewlines rest) = _
  rw [splitlines_break h rfl (by decide)]
  rfl

/-- Lines without breaks are read back. -/
theorem textLines_joinLines {lines : List (List Char)} (hne : lines ≠ [])
    (h : ∀ line ∈ lines, OneLine line) : textLines (joinLines lines) = lines := by
  induction lines with
  | nil => exact absurd rfl hne
  | cons line lines ih =>
    have hline := h line List.mem_cons_self
    cases lines with
    | nil =>
      rw [joinLines_singleton, textLines_line hline]
      rfl
    | cons next lines =>
      rw [joinLines_cons line (by simp), textLines_line hline,
        ih (by simp) fun line' hline' => h line' (List.mem_cons_of_mem line hline')]

/-- A break cuts the first line that has one, and the lines before it are read as written. -/
theorem textLines_joinLines_cut {before : List (List Char)} {pre post : List Char} {c : Char}
    {after : List (List Char)} (hbefore : ∀ line ∈ before, OneLine line) (hpre : OneLine pre)
    (hc : isLineBreak c = true) :
    ∃ rest, textLines (joinLines (before ++ (pre ++ c :: post) :: after)) = before ++ pre :: rest := by
  induction before with
  | nil =>
    cases after with
    | nil =>
      rw [List.nil_append, joinLines_singleton, List.append_assoc, List.cons_append]
      obtain ⟨rest, hrest⟩ := textLines_break hpre hc (post ++ ['\n'])
      exact ⟨_, hrest⟩
    | cons next after =>
      rw [List.nil_append, joinLines_cons _ (by simp), List.append_assoc, List.cons_append]
      obtain ⟨rest, hrest⟩ := textLines_break hpre hc (post ++ '\n' :: joinLines (next :: after))
      exact ⟨_, hrest⟩
  | cons line before ih =>
    obtain ⟨rest, hrest⟩ := ih fun line' hline' => hbefore line' (List.mem_cons_of_mem line hline')
    refine ⟨rest, ?_⟩
    rw [List.cons_append, joinLines_cons _ (by simp),
      textLines_line (hbefore line List.mem_cons_self), hrest]
    rfl

/-- The part of a text before its first line break. -/
def firstLine (cs : List Char) : List Char := cs.takeWhile fun c => !isLineBreak c

theorem oneLine_firstLine (cs : List Char) : OneLine (firstLine cs) := by
  intro c hc
  simpa using List.mem_takeWhile_imp hc

theorem firstLine_of_oneLine {cs : List Char} (h : OneLine cs) : firstLine cs = cs := by
  unfold firstLine
  rw [List.takeWhile_eq_self_iff]
  intro c hc
  rw [h c hc]
  rfl

theorem firstLine_append {pre : List Char} (h : OneLine pre) {c : Char} (hc : isLineBreak c = true)
    (post : List Char) : firstLine (pre ++ c :: post) = pre := by
  have hself : pre.takeWhile (fun c => !isLineBreak c) = pre := firstLine_of_oneLine h
  rw [firstLine, List.takeWhile_append, hself, if_pos rfl, List.takeWhile_cons_of_neg (by simp [hc]),
    List.append_nil]

/-- A text with a break goes on with the break. -/
theorem exists_break {cs : List Char} (h : ¬OneLine cs) :
    ∃ c post, cs = firstLine cs ++ c :: post ∧ isLineBreak c = true := by
  cases hrest : cs.dropWhile fun c => !isLineBreak c with
  | nil =>
    refine absurd (fun c hc => ?_) h
    have hall := List.dropWhile_eq_nil_iff.mp hrest c hc
    simpa using hall
  | cons c post =>
    refine ⟨c, post, ?_, ?_⟩
    · rw [← hrest]
      exact List.takeWhile_append_dropWhile.symm
    · have hnot := List.head?_dropWhile_not (fun c => !isLineBreak c) cs
      rw [hrest] at hnot
      simpa using hnot

/-- When a written line has a break, the beginning of such a line is read by itself. -/
theorem mem_textLines_cut {lines : List (List Char)} (h : ¬∀ line ∈ lines, OneLine line) :
    ∃ line ∈ lines, ¬OneLine line ∧ firstLine line ∈ textLines (joinLines lines) := by
  have hsplit : ∃ before line after, lines = before ++ line :: after ∧
      (∀ line ∈ before, OneLine line) ∧ ¬OneLine line := by
    induction lines with
    | nil => exact absurd (by simp) h
    | cons line lines ih =>
      by_cases hline : OneLine line
      · obtain ⟨before, cut, after, rfl, hbefore, hcut⟩ := ih fun hall => h (by simpa [hline] using hall)
        exact ⟨line :: before, cut, after, rfl, by simpa [hline] using hbefore, hcut⟩
      · exact ⟨[], line, lines, rfl, by simp, hline⟩
  obtain ⟨before, line, after, rfl, hbefore, hline⟩ := hsplit
  obtain ⟨c, post, hcut, hc⟩ := exists_break hline
  obtain ⟨rest, hrest⟩ := @textLines_joinLines_cut before (firstLine line) post c after
    hbefore (oneLine_firstLine line) hc
  refine ⟨line, by simp, hline, ?_⟩
  rw [← hcut] at hrest
  rw [hrest]
  simp

/-! ## 3. Paths as text -/

/-- A part of a canonical path. -/
structure IsName (part : String) : Prop where
  nonempty : part ≠ ""
  noDot : part ≠ "."
  noSlash : '/' ∉ part.toList

instance (part : String) : Decidable (IsName part) :=
  decidable_of_iff (part ≠ "" ∧ part ≠ "." ∧ '/' ∉ part.toList)
    ⟨fun h => ⟨h.1, h.2.1, h.2.2⟩, fun h => ⟨h.nonempty, h.noDot, h.noSlash⟩⟩

theorem toList_absText (p : AbsPath) :
    (PurePath.absText p).toList = '/' :: ['/'].intercalate (p.map String.toList) := by
  rw [PurePath.absText, String.toList_append, String.toList_intercalate]
  rfl

/-- The text of a path is read as the path. -/
theorem ofText_absText {p : AbsPath} (h : ∀ part ∈ p, IsName part) :
    PurePath.ofText (PurePath.absText p) = ⟨true, p⟩ := by
  have hparts : ((splitOnChar '/' (PurePath.absText p).toList).map String.ofList).filter
      (fun part => part ≠ "" ∧ part ≠ ".") = p := by
    rw [toList_absText]
    cases p with
    | nil => decide
    | cons first rest =>
      have hjoin : '/' :: ['/'].intercalate ((first :: rest).map String.toList) =
          ['/'].intercalate ([] :: (first :: rest).map String.toList) := by
        rw [List.map_cons, List.intercalate_cons_cons]
        rfl
      rw [hjoin, splitOnChar, List.splitOn_intercalate]
      · rw [List.map_cons, List.map_map, List.filter_cons_of_neg (by decide)]
        have hid : (first :: rest).map (String.ofList ∘ String.toList) = first :: rest :=
          (List.map_congr_left fun part _ => String.ofList_toList).trans (List.map_id' _)
        rw [hid, List.filter_eq_self]
        exact fun part hpart => decide_eq_true ⟨(h part hpart).nonempty, (h part hpart).noDot⟩
      · intro chars hchars
        rcases List.mem_cons.mp hchars with rfl | hmem
        · simp
        · obtain ⟨part, hpart, rfl⟩ := List.mem_map.mp hmem
          exact (h part hpart).noSlash
      · simp
  unfold PurePath.ofText
  rw [hparts, toList_absText]
  rfl

/-- The parts of a path that is read from text. -/
theorem isName_of_mem_parts {text part : String} (h : part ∈ (PurePath.ofText text).parts) :
    IsName part := by
  obtain ⟨hmem, hne⟩ := List.mem_filter.mp h
  obtain ⟨piece, hpiece, rfl⟩ := List.mem_map.mp hmem
  have hkept := of_decide_eq_true hne
  refine ⟨hkept.1, hkept.2, ?_⟩
  rw [String.toList_ofList]
  exact not_mem_splitOnChar hpiece

/-- The text of a path, absolute or not, is read as the path. -/
theorem ofText_text {p : PurePath} (h : ∀ part ∈ p.parts, IsName part) :
    PurePath.ofText p.text = p := by
  obtain ⟨absolute, parts⟩ := p
  rw [PurePath.text]
  split
  · rename_i habsolute
    obtain rfl : absolute = true := habsolute
    exact ofText_absText h
  rename_i hrelative
  obtain rfl : absolute = false := by simpa using hrelative
  split
  · rename_i hnil
    obtain rfl : parts = [] := hnil
    decide
  rename_i hne
  have hchars : ("/".intercalate parts).toList = ['/'].intercalate (parts.map String.toList) := by
    rw [String.toList_intercalate]
    rfl
  obtain ⟨first, rest, rfl⟩ := List.exists_cons_of_ne_nil hne
  have hfirst := h first List.mem_cons_self
  have hsplit : ((splitOnChar '/' ("/".intercalate (first :: rest)).toList).map String.ofList).filter
      (fun part => part ≠ "" ∧ part ≠ ".") = first :: rest := by
    rw [hchars, splitOnChar, List.splitOn_intercalate]
    · rw [List.map_map]
      have hid : (first :: rest).map (String.ofList ∘ String.toList) = first :: rest :=
        (List.map_congr_left fun part _ => String.ofList_toList).trans (List.map_id' _)
      rw [hid, List.filter_eq_self]
      exact fun part hpart => decide_eq_true ⟨(h part hpart).nonempty, (h part hpart).noDot⟩
    · intro chars hmem
      obtain ⟨part, hpart, rfl⟩ := List.mem_map.mp hmem
      exact (h part hpart).noSlash
    · simp
  have hhead : (("/".intercalate (first :: rest)).toList.head? == some '/') = false := by
    rw [hchars, List.map_cons]
    cases hcs : first.toList with
    | nil => exact absurd (String.toList_eq_nil_iff.mp hcs) hfirst.nonempty
    | cons c cs =>
      have hc : c ≠ '/' := fun heq => hfirst.noSlash (by rw [hcs, heq]; exact List.mem_cons_self)
      cases rest with
      | nil => simp [List.intercalate_singleton, hc]
      | cons next rest => simp [List.intercalate_cons_cons, hc]
  unfold PurePath.ofText
  rw [hsplit, hhead]

/-- A character of joined words is one of a word or of what joins them. -/
theorem mem_intercalate {sep : List Char} {c : Char} {words : List (List Char)}
    (h : c ∈ sep.intercalate words) : c ∈ sep ∨ ∃ word ∈ words, c ∈ word := by
  induction words with
  | nil => cases h
  | cons word words ih =>
    cases words with
    | nil =>
      rw [List.intercalate_singleton] at h
      exact .inr ⟨word, List.mem_cons_self, h⟩
    | cons next words =>
      rw [List.intercalate_cons_cons, List.append_assoc, List.mem_append, List.mem_append] at h
      rcases h with h | h | h
      · exact .inr ⟨word, List.mem_cons_self, h⟩
      · exact .inl h
      · exact (ih h).imp_right fun ⟨other, hmem, hc⟩ => ⟨other, List.mem_cons_of_mem _ hmem, hc⟩

/-- Joined words end in the last one. -/
theorem suffix_intercalate_concat (sep : List Char) (words : List (List Char)) (last : List Char) :
    last <:+ sep.intercalate (words ++ [last]) := by
  induction words with
  | nil => simp [List.intercalate_singleton]
  | cons word words ih =>
    rw [List.cons_append, List.intercalate_cons_of_ne_nil (by simp)]
    exact ih.trans (List.suffix_append _ _)

theorem mem_intercalate_concat {sep : List Char} {c : Char} {words : List (List Char)}
    (last : List Char) (h : c ∈ sep.intercalate words) : c ∈ sep.intercalate (words ++ [last]) := by
  induction words with
  | nil => cases h
  | cons word words ih =>
    rw [List.cons_append, List.intercalate_cons_of_ne_nil (by simp)]
    cases words with
    | nil =>
      rw [List.intercalate_singleton] at h
      exact List.mem_append_left _ (List.mem_append_left _ h)
    | cons next words =>
      rw [List.intercalate_cons_of_ne_nil (by simp)] at h
      rcases List.mem_append.mp h with hleft | hright
      · exact List.mem_append_left _ hleft
      · exact List.mem_append_right _ (ih hright)

/-- The text of a parent is part of the text of the path. -/
theorem mem_absText_parent {p : AbsPath} {c : Char}
    (h : c ∈ (PurePath.absText p.parent).toList) : c ∈ (PurePath.absText p).toList := by
  rw [toList_absText] at *
  rcases List.eq_nil_or_concat p with rfl | ⟨init, last, rfl⟩
  · exact h
  · rw [List.concat_eq_append] at *
    have hparent : AbsPath.parent (init ++ [last]) = init := List.dropLast_concat
    rw [hparent] at h
    rcases List.mem_cons.mp h with rfl | hmem
    · exact List.mem_cons_self
    · rw [List.map_append]
      exact List.mem_cons_of_mem _ (mem_intercalate_concat last.toList hmem)

/-! ## 4. Creating a file -/

namespace FileSystem

/-- The nodes are those of a directory tree, under canonical paths. -/
structure IsTree (fs : FileSystem) : Prop where
  names : ∀ node ∈ fs.nodes, ∀ part ∈ node.1, IsName part
  parent : ∀ node ∈ fs.nodes,
    fs.realpath node.1.parent = node.1.parent ∧ fs.exists? node.1.parent = true

/-- After `path.parent.mkdir(parents=True, exist_ok=True)` and `path.write_bytes(content)`. -/
def create (fs : FileSystem) (p : AbsPath) (content : List UInt8) : FileSystem where
  realpath := fs.realpath
  realpath_idem := fs.realpath_idem
  nodes := (fs.realpath p, .file content 0) :: fs.nodes ++
    p.parent.inits.map fun dir => (fs.realpath dir, .directory)

theorem lookup_append_of_isSome {key : AbsPath} {nodes more : List (AbsPath × Node)}
    (h : (lookup key nodes).isSome = true) : lookup key (nodes ++ more) = lookup key nodes := by
  induction nodes with
  | nil => cases h
  | cons node nodes ih =>
    obtain ⟨p, n⟩ := node
    rw [List.cons_append, lookup, lookup]
    rw [lookup] at h
    split
    · rfl
    · rename_i hp
      rw [if_neg hp] at h
      exact ih h

theorem mem_of_lookup {key : AbsPath} {nodes : List (AbsPath × Node)} {n : Node}
    (h : lookup key nodes = some n) : (key, n) ∈ nodes := by
  induction nodes with
  | nil => cases h
  | cons node nodes ih =>
    obtain ⟨p, m⟩ := node
    rw [lookup] at h
    split at h
    · rename_i hp
      cases h
      rw [hp]
      exact List.mem_cons_self
    · exact List.mem_cons_of_mem _ (ih h)

section

variable {fs : FileSystem} {p q : AbsPath} {content : List UInt8}

theorem exists_create (h : fs.exists? q = true) : (fs.create p content).exists? q = true := by
  unfold exists? node at *
  show (lookup (fs.realpath q) ((fs.realpath p, .file content 0) :: fs.nodes ++ _)).isSome = true
  rw [List.cons_append, lookup]
  split
  · rfl
  · rw [lookup_append_of_isSome h]
    exact h

theorem readBytes_create : (fs.create p content).readBytes p = some content := by
  have hnode : (fs.create p content).node p = some (.file content 0) := by
    show lookup (fs.realpath p) ((fs.realpath p, .file content 0) :: fs.nodes ++ _) = _
    rw [List.cons_append, lookup, if_pos rfl]
  rw [readBytes, hnode]

/-- A canonical path that exists is made of names. -/
theorem IsTree.names_of_exists (h : fs.IsTree) (hreal : fs.realpath q = q)
    (hexists : fs.exists? q = true) : ∀ part ∈ q, IsName part := by
  obtain ⟨n, hn⟩ := Option.isSome_iff_exists.mp hexists
  rw [node, hreal] at hn
  exact h.names (q, n) (mem_of_lookup hn)

theorem IsTree.parent_of_exists (h : fs.IsTree) (hreal : fs.realpath q = q)
    (hexists : fs.exists? q = true) :
    fs.realpath q.parent = q.parent ∧ fs.exists? q.parent = true := by
  obtain ⟨n, hn⟩ := Option.isSome_iff_exists.mp hexists
  rw [node, hreal] at hn
  exact h.parent (q, n) (mem_of_lookup hn)

end

end FileSystem

end EccFe.Python
