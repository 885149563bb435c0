/-
EccFe.Runtime.LengthHeader — which headers `_parse_content_length` accepts
(`fecompiler/runtime/transport.py`).

A header is read as lines between CRLF; a line is blank or a name and a value
around the first colon. The one Content-Length value goes, stripped, through
`int`, whose syntax is wider than a run of digits: a sign, underscores between
digits, and at most 4300 digits. `splitCrLf_iff`, `lengthValues_iff` and
`intOfText_iff` say so for the three steps.
-/
import EccFe.Runtime.Transport

namespace EccFe.Runtime.Transport

open Python

/-! ## 1. Lines -/

def crlf : List Char := ['\r', '\n']

/-- Text without a CRLF in it. -/
def IsLine (cs : List Char) : Prop := ¬crlf <:+: cs

theorem IsLine.tail {c : Char} {cs : List Char} (h : IsLine (c :: cs)) : IsLine cs := fun hin =>
  h (hin.trans (List.suffix_cons c cs).isInfix)

theorem IsLine.not_crlf {cs : List Char} : ¬IsLine ('\r' :: '\n' :: cs) := fun h =>
  h ⟨[], cs, rfl⟩

theorem isLine_nil : IsLine [] := by
  intro h
  have hlength := h.length_le
  simp [crlf] at hlength

theorem isLine_cons {c : Char} {cs : List Char} (h : IsLine cs)
    (hne : c = '\r' → ∀ rest, cs ≠ '\n' :: rest) : IsLine (c :: cs) := by
  intro hin
  rcases List.infix_cons_iff.mp hin with ⟨tail, htail⟩ | hrest
  · simp only [crlf, List.cons_append, List.nil_append, List.cons.injEq] at htail
    exact hne htail.1.symm tail htail.2.symm
  · exact h hrest

/-- A line in front of a CRLF is cut off there. -/
theorem splitCrLf_line : ∀ {line : List Char}, IsLine line → ∀ rest : List Char,
    splitCrLf (line ++ crlf ++ rest) = line :: splitCrLf rest
  | [], _, rest => rfl
  | [c], _, rest => by
      have hne : ∀ tail, c = '\r' → '\r' :: '\n' :: rest = '\n' :: tail → False := by
        intro tail _ htail
        cases htail
      change splitCrLf (c :: '\r' :: '\n' :: rest) = _
      rw [splitCrLf.eq_3 _ _ hne]
      rfl
  | c :: d :: line, h, rest => by
      have ih := splitCrLf_line h.tail rest
      have hne : ∀ tail, c = '\r' → d :: line ++ crlf ++ rest = '\n' :: tail → False := by
        intro tail hc htail
        rw [List.cons_append, List.cons_append, List.cons.injEq] at htail
        rw [hc, htail.1] at h
        exact IsLine.not_crlf h
      rw [List.cons_append, List.cons_append, splitCrLf.eq_3 _ _ hne, ih]

/-- A single line is one piece. -/
theorem splitCrLf_last : ∀ {line : List Char}, IsLine line → splitCrLf line = [line]
  | [], _ => rfl
  | c :: line, h => by
      have hne : ∀ tail, c = '\r' → line = '\n' :: tail → False := by
        intro tail hc htail
        rw [hc, htail] at h
        exact IsLine.not_crlf h
      rw [splitCrLf.eq_3 _ _ hne, splitCrLf_last h.tail]

/-- What `split` returns: lines that give the text back. -/
theorem splitCrLf_spec (cs : List Char) : splitCrLf cs ≠ [] ∧ (∀ line ∈ splitCrLf cs, IsLine line) ∧
    crlf.intercalate (splitCrLf cs) = cs := by
  induction cs using splitCrLf.induct with
  | case1 => exact ⟨by simp [splitCrLf], by simp [splitCrLf, isLine_nil], rfl⟩
  | case2 rest ih =>
    obtain ⟨hne, hlines, hjoin⟩ := ih
    obtain ⟨line, lines, hsplit⟩ := List.exists_cons_of_ne_nil hne
    rw [splitCrLf]
    refine ⟨by simp, fun line' hmem => ?_, ?_⟩
    · rcases List.mem_cons.mp hmem with rfl | hmem
      · exact isLine_nil
      · exact hlines line' hmem
    · rw [hsplit, List.intercalate_cons_cons, ← hsplit, hjoin]
      rfl
  | case4 c rest _ hnil ih => exact absurd hnil ih.1
  | case3 c rest hne line lines hsplit ih =>
    obtain ⟨-, hlines, hjoin⟩ := ih
    rw [splitCrLf.eq_3 _ _ hne, hsplit]
    rw [hsplit] at hlines hjoin
    have hstart : ∃ more, rest = line ++ more := by
      rw [← hjoin]
      cases lines with
      | nil => exact ⟨[], by simp⟩
      | cons next lines =>
        refine ⟨crlf ++ crlf.intercalate (next :: lines), ?_⟩
        rw [List.intercalate_cons_cons, List.append_assoc]
    obtain ⟨more, hmore⟩ := hstart
    refine ⟨by simp, fun line' hmem => ?_, ?_⟩
    · rcases List.mem_cons.mp hmem with rfl | hmem
      · refine isLine_cons (hlines line List.mem_cons_self) fun hc tail htail => ?_
        rw [htail] at hmore
        exact hne (tail ++ more) hc hmore
      · exact hlines line' (List.mem_cons_of_mem _ hmem)
    · cases lines with
      | nil =>
        rw [← hjoin]
        simp
      | cons next lines =>
        rw [List.intercalate_cons_cons, ← hjoin, List.intercalate_cons_cons]
        simp

/-- Lines are split where they were joined. -/
theorem splitCrLf_intercalate : ∀ {lines : List (List Char)}, lines ≠ [] →
    (∀ line ∈ lines, IsLine line) → splitCrLf (crlf.intercalate lines) = lines
  | [], h, _ => absurd rfl h
  | [line], _, h => by
      rw [List.intercalate_singleton]
      exact splitCrLf_last (h line List.mem_cons_self)
  | line :: next :: lines, _, h => by
      rw [List.intercalate_cons_cons, splitCrLf_line (h line List.mem_cons_self),
        splitCrLf_intercalate (List.cons_ne_nil next lines)
          fun line' hmem => h line' (List.mem_cons_of_mem _ hmem)]

/-- The lines of a text are the one way to cut it at CRLF. -/
theorem splitCrLf_iff {cs : List Char} {lines : List (List Char)} : splitCrLf cs = lines ↔
    lines ≠ [] ∧ (∀ line ∈ lines, IsLine line) ∧ cs = crlf.intercalate lines := by
  constructor
  · intro h
    obtain ⟨hne, hlines, hjoin⟩ := splitCrLf_spec cs
    rw [h] at hne hlines hjoin
    exact ⟨hne, hlines, hjoin.symm⟩
  · intro h
    obtain ⟨hne, hlines, hjoin⟩ := h
    rw [hjoin]
    exact splitCrLf_intercalate hne hlines

/-! ## 2. Fields -/

inductive HeaderLine where
  | blank
  | field (name value : List Char)

namespace HeaderLine

def text : HeaderLine → List Char
  | blank => []
  | field name value => name ++ ':' :: value

/-- The name ends at the first colon. -/
def Named : HeaderLine → Prop
  | blank => True
  | field name _ => ':' ∉ name

/-- The stripped value of a Content-Length field. -/
def length? : HeaderLine → Option (List Char)
  | blank => none
  | field name value =>
      if lowerText name = "content-length".toList then some (stripBy isSpace value) else none

/-- The line that a text is. -/
def read (piece : List Char) : Option HeaderLine :=
  if piece = [] then some blank
  else (partitionColon piece).map fun (name, value) => field name value

end HeaderLine

/-- A name goes up to the first colon. -/
theorem partitionColon_field {name : List Char} (h : ':' ∉ name) (value : List Char) :
    partitionColon (name ++ ':' :: value) = some (name, value) := by
  have hall : ∀ c ∈ name, decide (c ≠ ':') = true := by
    intro c hc
    have hne : c ≠ ':' := fun heq => h (heq ▸ hc)
    simpa using hne
  rw [partitionColon, if_pos (by simp), List.takeWhile_append_of_pos hall,
    List.dropWhile_append_of_pos hall]
  simp

theorem partitionColon_eq_some {line name value : List Char}
    (h : partitionColon line = some (name, value)) : ':' ∉ name ∧ line = name ++ ':' :: value := by
  rw [partitionColon] at h
  split at h
  · rename_i hmem
    obtain ⟨rfl, rfl⟩ := Prod.mk.inj (Option.some.inj h)
    refine ⟨fun hcolon => ?_, ?_⟩
    · simpa using List.mem_takeWhile_imp hcolon
    · have hcut := List.takeWhile_append_dropWhile (p := fun c => decide (c ≠ ':')) (l := line)
      have hhead := List.head?_dropWhile_not (fun c => decide (c ≠ ':')) line
      cases hdrop : line.dropWhile (fun c => decide (c ≠ ':')) with
      | nil =>
        have hall := List.dropWhile_eq_nil_iff.mp hdrop ':' hmem
        simp at hall
      | cons c rest =>
        rw [hdrop] at hhead hcut
        obtain rfl : c = ':' := by simpa using hhead
        exact hcut.symm
  · cases h

/-- A piece is read as the line whose text it is. -/
theorem read_eq_some_iff {piece : List Char} {line : HeaderLine} :
    HeaderLine.read piece = some line ↔ line.Named ∧ line.text = piece := by
  rw [HeaderLine.read]
  constructor
  · intro h
    split at h
    · rename_i hblank
      obtain rfl := Option.some.inj h
      exact ⟨trivial, hblank.symm⟩
    · obtain ⟨⟨name, value⟩, hpartition, rfl⟩ := Option.map_eq_some_iff.mp h
      obtain ⟨hname, htext⟩ := partitionColon_eq_some hpartition
      exact ⟨hname, htext.symm⟩
  · intro h
    obtain ⟨hnamed, rfl⟩ := h
    cases line with
    | blank => rfl
    | field name value =>
      rw [HeaderLine.text, if_neg (by simp), partitionColon_field hnamed]
      rfl

/-- The pieces of a header are its lines. -/
theorem mapM_read_iff : ∀ {pieces : List (List Char)} {lines : List HeaderLine},
    pieces.mapM HeaderLine.read = some lines ↔
      (∀ line ∈ lines, line.Named) ∧ lines.map HeaderLine.text = pieces
  | [], lines => by
      constructor
      · intro h
        obtain rfl : [] = lines := by simpa using h
        exact ⟨by simp, rfl⟩
      · intro h
        rw [List.map_eq_nil_iff.mp h.2]
        rfl
  | piece :: pieces, lines => by
      rw [List.mapM_cons]
      constructor
      · intro h
        obtain ⟨line, hline, h⟩ := Option.bind_eq_some_iff.mp h
        obtain ⟨rest, hrest, h⟩ := Option.bind_eq_some_iff.mp h
        obtain rfl := Option.some.inj h
        obtain ⟨hnamed, htext⟩ := read_eq_some_iff.mp hline
        obtain ⟨hall, htexts⟩ := mapM_read_iff.mp hrest
        refine ⟨fun line' hmem => ?_, by rw [List.map_cons, htext, htexts]⟩
        rcases List.mem_cons.mp hmem with rfl | hmem
        · exact hnamed
        · exact hall line' hmem
      · intro h
        obtain ⟨hall, htexts⟩ := h
        cases lines with
        | nil => cases htexts
        | cons line rest =>
          rw [List.map_cons, List.cons.injEq] at htexts
          have hline := read_eq_some_iff.mpr ⟨hall line List.mem_cons_self, htexts.1⟩
          have hrest := mapM_read_iff.mpr ⟨fun line' hmem => hall line' (List.mem_cons_of_mem _ hmem),
            htexts.2⟩
          rw [hline, hrest]
          rfl

/-- The lengths of a text that is read line by line. -/
theorem lengthValues_eq (pieces : List (List Char)) : lengthValues pieces =
    match pieces.mapM HeaderLine.read with
    | some lines => .ok ((lines.filterMap HeaderLine.length?).map String.ofList)
    | none => .error .malformedHeaderLine := by
  induction pieces with
  | nil => rfl
  | cons piece pieces ih =>
    rw [lengthValues, List.mapM_cons, HeaderLine.read]
    by_cases hblank : piece = []
    · rw [if_pos hblank, if_pos hblank, ih]
      cases pieces.mapM HeaderLine.read with
      | none => rfl
      | some lines => rfl
    · rw [if_neg hblank, if_neg hblank]
      cases partitionColon piece with
      | none => rfl
      | some cut =>
        obtain ⟨name, value⟩ := cut
        dsimp only
        rw [ih]
        cases pieces.mapM HeaderLine.read with
        | none =>
          split
          · rfl
          · rfl
        | some lines =>
          by_cases hname : lowerText name = "content-length".toList
          · have hlength : (HeaderLine.field name value).length? = some (stripBy isSpace value) :=
              if_pos hname
            rw [if_pos hname]
            dsimp only [Option.map_some, Option.bind_some, bind, pure]
            rw [List.filterMap_cons_some hlength, Except.map, List.map_cons, strip,
              String.toList_ofList]
          · have hlength : (HeaderLine.field name value).length? = none := if_neg hname
            rw [if_neg hname]
            dsimp only [Option.map_some, Option.bind_some, bind, pure]
            rw [List.filterMap_cons_none hlength]

/-! ## 3. Integers -/

/-- Runs of digits with single underscores between them. -/
structure DigitGroups (cs : List Char) (groups : List (List Char)) : Prop where
  nonempty : groups ≠ []
  digits : ∀ group ∈ groups, group ≠ [] ∧ group.all isDigit = true
  joined : cs = ['_'].intercalate groups

theorem digitBelow_ten_iff {c : Char} {d : Nat} :
    digitBelow 10 c = some d ↔ isDigit c = true ∧ d = digitValue c := by
  constructor
  · intro h
    by_cases hdigit : isDigit c = true
    · rw [digitBelow_of_isDigit hdigit] at h
      exact ⟨hdigit, (Option.some.inj h).symm⟩
    · have hletter : ¬(if ('a' ≤ c && c ≤ 'z') = true then c.toNat - 'a'.toNat + 10
          else if ('A' ≤ c && c ≤ 'Z') = true then c.toNat - 'A'.toNat + 10 else 36) < 10 := by
        split
        · omega
        · split
          · omega
          · omega
      simp only [digitBelow, if_neg hdigit] at h
      rw [if_neg hletter] at h
      cases h
  · intro h
    rw [h.2]
    exact digitBelow_of_isDigit h.1

/-- A run of digits in front of an underscore. -/
theorem digitRun_group : ∀ {group : List Char}, group ≠ [] → group.all isDigit = true →
    ∀ rest : List Char, digitRun 10 (group ++ '_' :: rest) =
      (digitRun 10 rest).map fun ds => group.map digitValue ++ ds
  | [], h, _, _ => absurd rfl h
  | [c], _, h, rest => by
      rw [List.all_cons, Bool.and_eq_true] at h
      rw [List.singleton_append, digitRun, digitBelow_of_isDigit h.1]
      cases digitRun 10 rest with
      | none => rfl
      | some ds => rfl
  | c :: d :: group, _, h, rest => by
      rw [List.all_cons, Bool.and_eq_true] at h
      have hunderscore : d ≠ '_' := by
        intro heq
        have hall := h.2
        rw [heq, List.all_cons, Bool.and_eq_true] at hall
        exact absurd hall.1 (by decide)
      have ih := digitRun_group (List.cons_ne_nil d group) h.2 rest
      rw [List.cons_append, List.cons_append,
        digitRun.eq_4 _ _ _ (by simp) (by simpa using hunderscore), digitBelow_of_isDigit h.1,
        ← List.cons_append, ih]
      cases digitRun 10 rest with
      | none => rfl
      | some ds => rfl

/-- Groups of digits between single underscores are read. -/
theorem digitRun_of_groups : ∀ {groups : List (List Char)}, groups ≠ [] →
    (∀ group ∈ groups, group ≠ [] ∧ group.all isDigit = true) →
      digitRun 10 (['_'].intercalate groups) = some (groups.flatten.map digitValue)
  | [], h, _ => absurd rfl h
  | [group], _, h => by
      obtain ⟨hne, hdigits⟩ := h group List.mem_cons_self
      rw [List.intercalate_singleton, digitRun_of_isDigit hne hdigits]
      simp
  | group :: next :: groups, _, h => by
      obtain ⟨hne, hdigits⟩ := h group List.mem_cons_self
      have ih := digitRun_of_groups (List.cons_ne_nil next groups)
        fun group' hmem => h group' (List.mem_cons_of_mem _ hmem)
      rw [List.intercalate_cons_cons, List.append_assoc, List.singleton_append,
        digitRun_group hne hdigits, ih, Option.map_some, List.flatten_cons (l := group), List.map_append]

/-- What is read are groups of digits between single underscores. -/
theorem groups_of_digitRun : ∀ {cs : List Char} {ds : List Nat}, digitRun 10 cs = some ds →
    ∃ groups, DigitGroups cs groups ∧ ds = groups.flatten.map digitValue
  | [], _, h => by cases h
  | [c], _, h => by
      rw [digitRun] at h
      obtain ⟨d, hd, rfl⟩ := Option.map_eq_some_iff.mp h
      obtain ⟨hdigit, rfl⟩ := digitBelow_ten_iff.mp hd
      exact ⟨[[c]], ⟨by simp, by simp [hdigit], by simp⟩, by simp⟩
  | c :: d :: rest, ds, h => by
      by_cases hunderscore : d = '_'
      · rw [hunderscore, digitRun] at h
        split at h
        · rename_i value values hvalue hrest
          obtain rfl := Option.some.inj h
          obtain ⟨hdigit, rfl⟩ := digitBelow_ten_iff.mp hvalue
          obtain ⟨groups, hgroups, rfl⟩ := groups_of_digitRun hrest
          obtain ⟨group, groups, rfl⟩ := List.exists_cons_of_ne_nil hgroups.nonempty
          refine ⟨[c] :: group :: groups, ⟨by simp, fun group' hmem => ?_, ?_⟩, by simp⟩
          · rcases List.mem_cons.mp hmem with rfl | hmem
            · exact ⟨by simp, by simp [hdigit]⟩
            · exact hgroups.digits group' hmem
          · rw [List.intercalate_cons_cons, ← hgroups.joined, hunderscore]
            rfl
        · cases h
      · rw [digitRun.eq_4 _ _ _ (by simp) (by simpa using hunderscore)] at h
        split at h
        · rename_i value values hvalue hrest
          obtain rfl := Option.some.inj h
          obtain ⟨hdigit, rfl⟩ := digitBelow_ten_iff.mp hvalue
          obtain ⟨groups, hgroups, rfl⟩ := groups_of_digitRun hrest
          obtain ⟨group, groups, rfl⟩ := List.exists_cons_of_ne_nil hgroups.nonempty
          refine ⟨(c :: group) :: groups, ⟨by simp, fun group' hmem => ?_, ?_⟩, by simp⟩
          · rcases List.mem_cons.mp hmem with rfl | hmem
            · have hgroup := hgroups.digits group List.mem_cons_self
              refine ⟨by simp, ?_⟩
              rw [List.all_cons, hdigit, hgroup.2]
              rfl
            · exact hgroups.digits group' (List.mem_cons_of_mem _ hmem)
          · rw [hgroups.joined]
            cases groups with
            | nil => simp
            | cons next groups =>
              rw [List.intercalate_cons_cons, List.intercalate_cons_cons]
              simp
        · cases h

/-- A body of `int(text)`: its digits and their number. -/
theorem decimalNat_iff {cs : List Char} {n : Nat} : decimalNat cs = some n ↔
    ∃ groups, DigitGroups cs groups ∧ groups.flatten.length ≤ maxStrDigits ∧
      n = digitsValue groups.flatten := by
  have hvalue : ∀ digits : List Char, ofDigits 10 (digits.map digitValue) = digitsValue digits := by
    intro digits
    rw [ofDigits, digitsValue, List.foldl_map]
  rw [decimalNat]
  constructor
  · intro h
    split at h
    · rename_i ds hrun
      obtain ⟨groups, hgroups, rfl⟩ := groups_of_digitRun hrun
      split at h
      · cases h
      · rename_i hshort
        rw [List.length_map] at hshort
        rw [hvalue] at h
        exact ⟨groups, hgroups, by omega, (Option.some.inj h).symm⟩
    · cases h
  · intro h
    obtain ⟨groups, hgroups, hshort, rfl⟩ := h
    rw [hgroups.joined, digitRun_of_groups hgroups.nonempty hgroups.digits]
    dsimp only
    rw [if_neg (by rw [List.length_map]; omega), hvalue]

/-- The text of an integer: a sign or none, and groups of at most 4300 digits in all. -/
def IntText (cs : List Char) (n : Int) : Prop :=
  ∃ sign body groups, cs = sign ++ body ∧ DigitGroups body groups ∧
    groups.flatten.length ≤ maxStrDigits ∧
      ((sign = [] ∨ sign = ['+']) ∧ n = digitsValue groups.flatten ∨
        sign = ['-'] ∧ n = -digitsValue groups.flatten)

theorem DigitGroups.head {cs : List Char} {groups : List (List Char)} (h : DigitGroups cs groups) :
    ∃ c rest, cs = c :: rest ∧ isDigit c = true := by
  obtain ⟨group, groups, rfl⟩ := List.exists_cons_of_ne_nil h.nonempty
  obtain ⟨hne, hdigits⟩ := h.digits group List.mem_cons_self
  obtain ⟨c, group, rfl⟩ := List.exists_cons_of_ne_nil hne
  rw [List.all_cons, Bool.and_eq_true] at hdigits
  have hjoined := h.joined
  cases groups with
  | nil => exact ⟨c, group, by simpa using hjoined, hdigits.1⟩
  | cons next groups =>
    rw [List.intercalate_cons_cons] at hjoined
    exact ⟨c, _, hjoined, hdigits.1⟩

/-- A number begins with a minus, a plus or neither. -/
theorem splitSign_cases (cs : List Char) : (∃ rest, cs = '-' :: rest ∧ splitSign cs = (true, rest)) ∨
    (∃ rest, cs = '+' :: rest ∧ splitSign cs = (false, rest)) ∨ splitSign cs = (false, cs) := by
  unfold splitSign
  split
  · exact .inl ⟨_, rfl, rfl⟩
  · exact .inr (.inl ⟨_, rfl, rfl⟩)
  · exact .inr (.inr rfl)

theorem splitSign_digits {cs : List Char} {groups : List (List Char)} (h : DigitGroups cs groups) :
    splitSign cs = (false, cs) := by
  obtain ⟨c, rest, rfl, hdigit⟩ := h.head
  have hminus : c ≠ '-' := fun heq => by
    rw [heq] at hdigit
    exact absurd hdigit (by decide)
  have hplus : c ≠ '+' := fun heq => by
    rw [heq] at hdigit
    exact absurd hdigit (by decide)
  exact splitSign.eq_3 _ (fun _ => by simp [hminus]) (fun _ => by simp [hplus])

/-- What `int(text)` reads of a stripped text without digits above ASCII. -/
theorem intOfText_iff {cs : List Char} {n : Int} (hstrip : stripBy isSpace cs = cs)
    (hascii : cs.map asciiDigit = cs) : intOfText (String.ofList cs) = some n ↔ IntText cs n := by
  rw [intOfText, String.toList_ofList, hstrip, hascii]
  constructor
  · intro h
    have hread : ∀ {negative : Bool} {body : List Char}, splitSign cs = (negative, body) →
        ∃ groups, DigitGroups body groups ∧ groups.flatten.length ≤ maxStrDigits ∧
          n = signed negative (digitsValue groups.flatten) := by
      intro negative body hsplit
      rw [hsplit] at h
      obtain ⟨value, hvalue, hsigned⟩ := Option.map_eq_some_iff.mp h
      obtain ⟨groups, hgroups, hshort, rfl⟩ := decimalNat_iff.mp hvalue
      exact ⟨groups, hgroups, hshort, hsigned.symm⟩
    rcases splitSign_cases cs with ⟨rest, hcs, hsplit⟩ | ⟨rest, hcs, hsplit⟩ | hsplit
    · obtain ⟨groups, hgroups, hshort, hvalue⟩ := hread hsplit
      exact ⟨['-'], rest, groups, hcs, hgroups, hshort, .inr ⟨rfl, hvalue⟩⟩
    · obtain ⟨groups, hgroups, hshort, hvalue⟩ := hread hsplit
      exact ⟨['+'], rest, groups, hcs, hgroups, hshort, .inl ⟨.inr rfl, hvalue⟩⟩
    · obtain ⟨groups, hgroups, hshort, hvalue⟩ := hread hsplit
      exact ⟨[], cs, groups, rfl, hgroups, hshort, .inl ⟨.inl rfl, hvalue⟩⟩
  · intro h
    obtain ⟨sign, body, groups, rfl, hgroups, hshort, hvalue⟩ := h
    have hbody := decimalNat_iff.mpr ⟨groups, hgroups, hshort, rfl⟩
    rcases hvalue with ⟨rfl | rfl, rfl⟩ | ⟨rfl, rfl⟩
    · rw [List.nil_append, splitSign_digits hgroups]
      exact congrArg (Option.map (signed false)) hbody
    · exact congrArg (Option.map (signed false)) hbody
    · exact congrArg (Option.map (signed true)) hbody

/-! ## 4. Headers -/

/-- The lines of a header. -/
structure HeaderOf (header : List Char) (lines : List HeaderLine) : Prop where
  nonempty : lines ≠ []
  named : ∀ line ∈ lines, line.Named
  cut : ∀ line ∈ lines, IsLine line.text
  joined : header = crlf.intercalate (lines.map HeaderLine.text)

/-- The header has lines with a colon, or blank ones, and exactly one Content-Length
among them, whose value is the text of the integer `n` between 0 and the maximum. -/
def HasLength (maxPayloadSize : Int) (header : List Char) (n : Nat) : Prop :=
  ∃ lines value, HeaderOf header lines ∧ lines.filterMap HeaderLine.length? = [value] ∧
    IntText value n ∧ (n : Int) ≤ maxPayloadSize

/-- The values are those of the lines named Content-Length. -/
theorem lengthValues_iff {header : List Char} {values : List String} :
    lengthValues (splitCrLf header) = .ok values ↔ ∃ lines, HeaderOf header lines ∧
      (lines.filterMap HeaderLine.length?).map String.ofList = values := by
  rw [lengthValues_eq]
  obtain ⟨hne, hlines, hjoin⟩ := splitCrLf_spec header
  constructor
  · intro h
    split at h
    · rename_i lines hread
      obtain ⟨hnamed, htexts⟩ := mapM_read_iff.mp hread
      refine ⟨lines, ⟨fun hnil => ?_, hnamed, fun line hmem => ?_, ?_⟩, Except.ok.inj h⟩
      · rw [hnil] at htexts
        exact hne htexts.symm
      · refine hlines _ ?_
        rw [← htexts]
        exact List.mem_map_of_mem hmem
      · rw [htexts, hjoin]
    · cases h
  · intro h
    obtain ⟨lines, hheader, hvalues⟩ := h
    have hsplit : splitCrLf header = lines.map HeaderLine.text := by
      rw [splitCrLf_iff]
      refine ⟨by simpa using hheader.nonempty, fun piece hmem => ?_, hheader.joined⟩
      obtain ⟨line, hmem', rfl⟩ := List.mem_map.mp hmem
      exact hheader.cut line hmem'
    rw [mapM_read_iff.mpr ⟨hheader.named, hsplit.symm⟩]
    exact congrArg Except.ok hvalues

/-- The characters of a header decoded as ASCII. -/
theorem asciiDigit_decodeAscii {header : Bytes} : ∀ c ∈ decodeAscii header, asciiDigit c = c := by
  intro c hc
  obtain ⟨b, -, rfl⟩ := List.mem_map.mp hc
  have hall : ∀ n < 128, asciiDigit (Char.ofNat n) = Char.ofNat n := by decide +kernel
  split
  · rename_i hlt
    rw [UInt8.lt_iff_toNat_lt] at hlt
    exact hall b.toNat hlt
  · decide

theorem mem_intercalate {c : Char} {piece : List Char} : ∀ {pieces : List (List Char)},
    piece ∈ pieces → c ∈ piece → c ∈ crlf.intercalate pieces
  | [], h, _ => by simp at h
  | [first], h, hc => by
      rw [List.intercalate_singleton, ← List.mem_singleton.mp h]
      exact hc
  | first :: next :: rest, h, hc => by
      rw [List.intercalate_cons_cons]
      rcases List.mem_cons.mp h with rfl | hmem
      · exact List.mem_append_left _ (List.mem_append_left _ hc)
      · exact List.mem_append_right _ (mem_intercalate hmem hc)

/-- The length values are parts of the header. -/
theorem mem_of_length {header value : List Char} {lines : List HeaderLine}
    (hheader : HeaderOf header lines) (hvalue : value ∈ lines.filterMap HeaderLine.length?) :
    stripBy isSpace value = value ∧ ∀ c ∈ value, c ∈ header := by
  obtain ⟨line, hmem, hlength⟩ := List.mem_filterMap.mp hvalue
  cases line with
  | blank => cases hlength
  | field name raw =>
    rw [HeaderLine.length?] at hlength
    split at hlength
    · obtain rfl := Option.some.inj hlength
      refine ⟨stripBy_idem isSpace raw, fun c hc => ?_⟩
      have hraw : c ∈ (HeaderLine.field name raw).text := by
        have hin : c ∈ raw :=
          (List.dropWhile_suffix _).mem ((List.rdropWhile_prefix _ _).mem hc)
        rw [HeaderLine.text]
        simp [hin]
      rw [hheader.joined]
      exact mem_intercalate (List.mem_map_of_mem hmem) hraw
    · cases hlength

theorem asciiDigit_of_mem {header : Bytes} {cs : List Char}
    (h : ∀ c ∈ cs, c ∈ decodeAscii header) : cs.map asciiDigit = cs := by
  rw [List.map_congr_left fun c hc => asciiDigit_decodeAscii c (h c hc), List.map_id']

/-- What the header has to be for a length. -/
theorem parseContentLength_eq_ok {maxPayloadSize : Int} {header : List Char} {n : Nat} :
    parseContentLength maxPayloadSize header = .ok n ↔
      ∃ value, lengthValues (splitCrLf header) = .ok [value] ∧ intOfText value = some (n : Int) ∧
        (n : Int) ≤ maxPayloadSize := by
  rw [parseContentLength, bind_eq_ok]
  constructor
  · intro h
    obtain ⟨values, hvalues, h⟩ := h
    split at h
    · rename_i value
      split at h
      · cases h
      · rename_i contentLength hint
        split at h
        · cases h
        · rename_i hnonneg
          split at h
          · cases h
          · rename_i hmax
            obtain rfl := Except.ok.inj h
            have hcast : (contentLength.toNat : Int) = contentLength := Int.toNat_of_nonneg (by omega)
            exact ⟨value, hvalues, by rw [hcast, hint], by omega⟩
    · cases h
  · intro h
    obtain ⟨value, hvalues, hint, hmax⟩ := h
    refine ⟨[value], hvalues, ?_⟩
    dsimp only
    rw [hint]
    dsimp only
    rw [if_neg (by omega), if_neg (by omega), Int.toNat_natCast]

/-- Every header is read as the grammar says, and every other one is refused. -/
theorem parseContentLength_iff (maxPayloadSize : Int) (header : Bytes) :
    (∀ n, parseContentLength maxPayloadSize (decodeAscii header) = .ok n ↔
      HasLength maxPayloadSize (decodeAscii header) n) ∧
    ((¬∃ n, HasLength maxPayloadSize (decodeAscii header) n) →
      ∃ e, parseContentLength maxPayloadSize (decodeAscii header) = .error e) := by
  have hread : ∀ n, parseContentLength maxPayloadSize (decodeAscii header) = .ok n ↔
      HasLength maxPayloadSize (decodeAscii header) n := by
    intro n
    rw [parseContentLength_eq_ok]
    constructor
    · intro h
      obtain ⟨value, hvalues, hint, hmax⟩ := h
      obtain ⟨lines, hheader, hlengths⟩ := lengthValues_iff.mp hvalues
      obtain ⟨chars, hchars, rfl⟩ : ∃ chars, lines.filterMap HeaderLine.length? = [chars] ∧
          String.ofList chars = value := by
        obtain ⟨chars, hchars, hvalue⟩ := List.map_eq_singleton_iff.mp hlengths
        exact ⟨chars, hchars, hvalue⟩
      refine ⟨lines, chars, hheader, hchars, ?_, hmax⟩
      obtain ⟨hstrip, hmem⟩ := mem_of_length hheader (hchars ▸ List.mem_singleton_self chars)
      exact (intOfText_iff hstrip (asciiDigit_of_mem hmem)).mp hint
    · intro h
      obtain ⟨lines, chars, hheader, hchars, htext, hmax⟩ := h
      obtain ⟨hstrip, hmem⟩ := mem_of_length hheader (hchars ▸ List.mem_singleton_self chars)
      refine ⟨String.ofList chars, lengthValues_iff.mpr ⟨lines, hheader, ?_⟩,
        (intOfText_iff hstrip (asciiDigit_of_mem hmem)).mpr htext, hmax⟩
      rw [hchars]
      rfl
  refine ⟨hread, fun hnone => ?_⟩
  cases hparse : parseContentLength maxPayloadSize (decodeAscii header) with
  | error e => exact ⟨e, rfl⟩
  | ok n => exact absurd ⟨n, (hread n).mp hparse⟩ hnone

/-- The same with a run of digits for a value. -/
def HasDigits (maxPayloadSize : Int) (header : List Char) (n : Nat) : Prop :=
  ∃ lines value, HeaderOf header lines ∧ lines.filterMap HeaderLine.length? = [value] ∧
    value ≠ [] ∧ value.all isDigit = true ∧ n = digitsValue value ∧ (n : Int) ≤ maxPayloadSize

/-- A signed length is accepted. -/
theorem parseContentLength_signed :
    ¬∀ (maxPayloadSize : Int) (header : Bytes) (n : Nat),
      parseContentLength maxPayloadSize (decodeAscii header) = .ok n ↔
        HasDigits maxPayloadSize (decodeAscii header) n := by
  intro hall
  have hparse : parseContentLength defaultMaxPayloadSize
      (decodeAscii (asciiBytes "Content-Length: +5")) = .ok 5 := by decide +kernel
  have hvalues : lengthValues (splitCrLf (decodeAscii (asciiBytes "Content-Length: +5"))) =
      .ok ["+5"] := by decide +kernel
  obtain ⟨lines, value, hheader, hlength, -, hdigits, -, -⟩ := (hall _ _ _).mp hparse
  have hsame := lengthValues_iff.mpr ⟨lines, hheader, rfl⟩
  rw [hvalues, hlength, Except.ok.injEq, List.map_singleton, List.singleton_inj] at hsame
  have hchars : "+5".toList = value := by rw [hsame, String.toList_ofList]
  rw [← hchars] at hdigits
  exact absurd hdigits (by decide)

end EccFe.Runtime.Transport
