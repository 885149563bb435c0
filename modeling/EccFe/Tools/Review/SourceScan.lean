/-
EccFe.Tools.Review.SourceScan — `_scan_source` of `fecompiler/tools/review/analyzer.py`, and the
lines its issues name.

Two scans report lines. One goes through the lines of `str.splitlines` and counts them. The other
searches the text without its comments for assignments and counts the newlines before each. Both
count something else than the newlines of the file: a form feed ends a line for the first, and a
block comment takes its newlines along for the second (`scan_names_lines_iff`).
-/
import EccFe.Tools.Review.Report
import EccFe.Tools.SvComments

namespace EccFe.Tools.Review

open Python Engine Search SvModule

/-! ## 1. Issues -/

/-- `_issue(severity, category, title, detail, path, line, evidence=..., recommendation=...)`. -/
def sourceIssue (severity category title detail recommendation source : String) (line : Nat)
    (evidence : Dict) : Dict :=
  [("severity", .str severity), ("category", .str category), ("title", .str title),
    ("detail", .str detail), ("source", .str source), ("line", .int line),
    ("column", .int (if line = 0 then 0 else 1)), ("evidence", .obj evidence),
    ("recommendation", .str recommendation), ("origin", .str "source_heuristic"),
    ("confidence", .str (if severity = "info" then "low" else "medium")), ("ownership", .str "cpu")]

/-- An issue, and where in the text the construct it is about begins. -/
structure Finding where
  place : Nat
  issue : Dict

/-- A check of one line: the evidence when the line has the construct. `following` are the lines
from this one on, `clean` is the line without the white space around it. -/
structure LineCheck where
  severity : String
  category : String
  title : String
  detail : String
  recommendation : String
  evidence : (following : List (List Char)) → (clean : List Char) → Option Dict

/-- A check of a continuous assignment: the evidence when its right side has the construct. -/
structure AssignCheck where
  title : String
  detail : String
  recommendation : String
  evidence : (rhs : List Char) → Option Dict

/-! ## 2. The checks -/

def operatorCount (text : List Char) : Nat :=
  let operator := Regex.oneOf
    ((["&&", "||", "==", "!=", "<=", ">=", "<<", ">>"].map Regex.text) ++
      [.char fun c => c ∈ "+-*/%&|^~?:<>".toList])
  (operator.findAll text).length

/-- `"\n".join(lines)`. -/
def joined (lines : List (List Char)) : List Char := ['\n'].intercalate lines

/-- No evidence but the line itself. -/
def found (found : Bool) : Option Dict := if found then some [] else none

section

variable (env : Env)

def word : Regex := .star true (.char env.isWord)

def spaces : Regex := .star true .space

/-- `\bassign\s+\w*clk\w*\s*=` with `re.I`. -/
def generatedClock : Regex :=
  .cat [wordEdge env, .textIgnoreCase "assign", .plus .space, word env, .textIgnoreCase "clk", word env,
    spaces, .text "="]

/-- `\b(?:clk|clock)\w*\s*=` with `re.I`. -/
def assignedClock : Regex :=
  .cat [wordEdge env, .alt (.textIgnoreCase "clk") (.textIgnoreCase "clock"), word env, spaces,
    .text "="]

/-- `\bif\s*\([^)]*(?:clk|clock)[^)]*\)` with `re.I`. -/
def clockCondition : Regex :=
  .cat [wordEdge env, .textIgnoreCase "if", spaces, .text "(", .star true (.char (· != ')')),
    .alt (.textIgnoreCase "clk") (.textIgnoreCase "clock"), .star true (.char (· != ')')), .text ")"]

/-- `(posedge|negedge)` -/
def edge : Regex := .alt (.text "posedge") (.text "negedge")

/-- `\b(posedge|negedge)\s+.*\b(posedge|negedge)\b` -/
def twoEdges : Regex :=
  .cat [wordEdge env, edge, .plus .space, .star true .any, wordEdge env, edge, wordEdge env]

/-- `\b(?:rst|reset)\w*\s*(?:&|\||\^)` with `re.I`. -/
def gatedReset : Regex :=
  .cat [wordEdge env, .alt (.textIgnoreCase "rst") (.textIgnoreCase "reset"), word env, spaces,
    .char fun c => c ∈ "&|^".toList]

/-- `\balways\s*@\s*\*` -/
def alwaysStar : Regex := .cat [wordEdge env, .text "always", spaces, .text "@", spaces, .text "*"]

/-- `\bif\s*\(` -/
def plainIf : Regex := .cat [wordEdge env, .text "if", spaces, .text "("]

/-- `\belse\b` -/
def plainElse : Regex := .cat [wordEdge env, .text "else", wordEdge env]

/-- `\bcase[zx]?\s*\(` -/
def plainCase : Regex :=
  .cat [wordEdge env, .text "case", .maybe (.char fun c => c == 'z' || c == 'x'), spaces, .text "("]

/-- The checks of a line, in the order of the loop body. -/
def lineChecks : List LineCheck :=
  [{ severity := "error", category := "clock", title := "Clock generated by RTL logic"
     detail := "Generated or gated clocks make STA, CDC, and clock routing fragile."
     recommendation := "Use clock-enable logic, or route generated clocks through explicit clocking resources and constraints."
     evidence := fun _ clean => found ((generatedClock env).hits clean) },
   { severity := "warning", category := "clock"
     title := "Clock-like signal assigned in sequential logic"
     detail := "Clock-like nets should not be treated as ordinary data without a clear generated-clock plan."
     recommendation := "Review whether this is really a clock; prefer clock enables for datapath control."
     evidence := fun _ clean => found ((assignedClock env).hits clean &&
       !contains "assign".toList (lowerText clean) && contains "<=".toList clean) },
   { severity := "warning", category := "clock", title := "Clock used in data condition"
     detail := "Clock signals used as boolean data can hide CDC or generated-clock intent."
     recommendation := "Keep clocks in event controls and constraints; avoid using clocks as datapath conditions."
     evidence := fun _ clean => found ((clockCondition env).hits clean) },
   { severity := "warning", category := "reset", title := "Sequential block has multiple edge controls"
     detail := "Async reset is legal, but reset release must be synchronized and constrained."
     recommendation := "Document async reset intent, synchronize reset release per clock domain, and add RDC checks."
     evidence := fun _ clean => found ((twoEdges env).hits clean) },
   { severity := "warning", category := "reset", title := "Reset participates in combinational logic"
     detail := "Reset gating can create recovery/removal and RDC risks."
     recommendation := "Prefer a clean reset tree and local synchronized reset release."
     evidence := fun _ clean => found ((gatedReset env).hits clean) },
   { severity := "warning", category := "combinational", title := "Combinational if without visible else"
     detail := "Incomplete combinational assignments may infer latches or create stale values."
     recommendation := "Assign defaults at block entry or cover all branches with else."
     evidence := fun following clean =>
       let block := joined (following.take 29)
       found ((alwaysStar env).hits clean && (plainIf env).hits block && !(plainElse env).hits block) },
   { severity := "warning", category := "state-machine"
     title := "Case statement lacks a visible default branch"
     detail := "Uncovered cases can infer latches, trap FSMs, or hide illegal states."
     recommendation := "Add an explicit default branch or prove full coverage with unique/priority semantics."
     evidence := fun following clean =>
       found ((plainCase env).hits clean && !contains "default".toList (joined (following.take 61))) },
   { severity := "info", category := "timing"
     title := "Dense expression may create a long combinational path"
     detail := "Many operators on one line often mean a deep logic cone."
     recommendation := "Consider staging this expression or splitting the control/data cones."
     evidence := fun _ clean =>
       if 10 ≤ operatorCount clean then some [("operators", .int (operatorCount clean))] else none },
   { severity := "info", category := "style", title := "Very long RTL line"
     detail := "Long lines are harder to review and often hide wide mux or arithmetic logic."
     recommendation := "Break the expression into named intermediate signals."
     evidence := fun _ clean =>
       if 180 < clean.length then some [("characters", .int clean.length)] else none }]

/-- `\bassign\s+[^=]+=\s*([^;]+);` -/
def assignRegex : Regex :=
  .cat [wordEdge env, .text "assign", .plus .space, .plus (.char (· != '=')), .text "=", spaces,
    .group "rhs" (.plus (.char (· != ';'))), .text ";"]

end

def assignChecks : List AssignCheck :=
  [{ title := "Nested ternary mux chain"
     detail := "Deep mux chains can dominate timing and implementation mapping levels."
     recommendation := "Review mux structure; consider one-hot selects, staged muxing, or registered boundaries."
     evidence := fun rhs =>
       if 3 ≤ rhs.count '?' then some [("ternary_levels", .int (rhs.count '?'))] else none },
   { title := "Large continuous assignment cone"
     detail := "A wide assign expression may become a long critical path."
     recommendation := "Pipeline or factor the expression if it sits on a clock-to-clock path."
     evidence := fun rhs =>
       if 18 ≤ operatorCount rhs then some [("operators", .int (operatorCount rhs))] else none }]

/-! ## 3. The scans -/

/-- The lines of `str.splitlines`, each with the place where it begins. -/
def placedLines : Nat → List Char → List (Nat × List Char)
  | _, [] => []
  | start, '\r' :: '\n' :: rest => (start, []) :: placedLines (start + 2) rest
  | start, c :: rest =>
      if isLineBreak c then (start, []) :: placedLines (start + 1) rest
      else
        match placedLines (start + 1) rest with
        | [] => [(start, [c])]
        | (_, line) :: lines => (start, c :: line) :: lines

/-- The matches of `pattern.finditer`, each with the place where it begins. -/
def placedMatches (start : Nat) : List Regex.Found → List (Nat × Regex.Found)
  | [] => []
  | m :: rest =>
      (start + m.skipped.length, m) ::
        placedMatches (start + m.skipped.length + m.matched.length) rest

section

variable (env : Env) (source : String)

/-- The issues of the line with the number `idx`. -/
def lineIssues (idx : Nat) (following : List (List Char)) (line : List Char) : List Dict :=
  let clean := stripBy isSpace line
  if clean = [] then []
  else
    (lineChecks env).filterMap fun check =>
      (check.evidence following clean).map
        (sourceIssue check.severity check.category check.title check.detail check.recommendation source
          idx)

/-- The first loop, from the line with the number `idx` on. -/
def scanLines (idx : Nat) : List (Nat × List Char) → List Finding
  | [] => []
  | (place, line) :: rest =>
      (lineIssues env source idx (line :: rest.map Prod.snd) line).map (Finding.mk place) ++
        scanLines (idx + 1) rest

def lineFindings (text : List Char) : List Finding := scanLines env source 1 (placedLines 0 text)

/-- The issues of an assignment, on the line with the number `line`. -/
def assignIssues (line : Nat) (m : Regex.Found) : List Dict :=
  assignChecks.filterMap fun check =>
    (check.evidence ((m.group "rhs").getD [])).map
      (sourceIssue "warning" "timing" check.title check.detail check.recommendation source line)

/-- The second loop, over the text without its comments. -/
def assignFindings (text : List Char) : List Finding :=
  let strippedText := stripSvComments text
  (placedMatches 0 ((assignRegex env).findAll strippedText)).flatMap fun (start, m) =>
    (assignIssues source ((strippedText.take start).count '\n' + 1) m).map
      (Finding.mk (keptPlace (stripMask text) start))

def scanSource (text : List Char) : List Finding :=
  lineFindings env source text ++ assignFindings env source text

end

/-! ## 4. The lines of the file -/

/-- The line of the file that a place is on. -/
def lineOf (text : List Char) (place : Nat) : Nat := (text.take place).count '\n' + 1

/-- The issue names the line of the file its construct is on. -/
def Finding.NamesLine (text : List Char) (f : Finding) : Prop :=
  intAt f.issue "line" = some (lineOf text f.place : Int)

instance (text : List Char) (f : Finding) : Decidable (f.NamesLine text) :=
  inferInstanceAs (Decidable (_ = _))

/-- Every line ends with a newline, which may follow a carriage return. -/
def newlinesOnly : List Char → Bool
  | [] => true
  | '\r' :: '\n' :: rest => newlinesOnly rest
  | c :: rest => (c == '\n' || !isLineBreak c) && newlinesOnly rest

/-- The text before a place that `_strip_comments` takes out. -/
def removedBefore (text : List Char) (place : Nat) : List Char :=
  select (((stripMask text).take place).map not) (text.take place)

theorem intAt_sourceIssue (severity category title detail recommendation source : String)
    (line : Nat) (evidence : Dict) :
    intAt (sourceIssue severity category title detail recommendation source line evidence) "line" =
      some (line : Int) := by
  have hget : Dict.getD (sourceIssue severity category title detail recommendation source line evidence)
      "line" (.int 0) = .int line := rfl
  unfold intAt
  rw [hget]
  cases line with
  | zero => rfl
  | succ n => rfl

/-- The first loop goes through the lines of `str.splitlines`. -/
theorem map_placedLines (start : Nat) (cs : List Char) :
    (placedLines start cs).map Prod.snd = splitlines cs := by
  induction cs using splitlines.induct generalizing start with
  | case1 => rfl
  | case2 rest ih => simp [placedLines, splitlines, ih]
  | case3 c rest hreturn hbreak ih =>
    rw [placedLines, splitlines, if_pos hbreak, if_pos hbreak, List.map_cons, ih]
    · exact hreturn
    · exact hreturn
  | case4 c rest hreturn hbreak hnil ih =>
    have hplaced : placedLines (start + 1) rest = [] := by
      rw [← List.map_eq_nil_iff, ih, hnil]
    rw [placedLines, splitlines, if_neg hbreak, if_neg hbreak, hnil, hplaced]
    · rfl
    · exact hreturn
    · exact hreturn
  | case5 c rest hreturn hbreak first lines hcons ih =>
    obtain ⟨⟨place, line⟩, more, hplaced, hline, hmore⟩ := List.map_eq_cons_iff.mp (hcons ▸ ih (start + 1))
    rw [placedLines, splitlines, if_neg hbreak, if_neg hbreak, hcons, hplaced]
    · simp [← hmore, show line = first from hline]
    · exact hreturn
    · exact hreturn

theorem newlinesOnly_cons {c : Char} {rest : List Char}
    (hreturn : ∀ rest', c = '\r' → rest = '\n' :: rest' → False) :
    newlinesOnly (c :: rest) = ((c == '\n' || !isLineBreak c) && newlinesOnly rest) := by
  rw [newlinesOnly]
  exact hreturn

/-- What is before the line with the number `k`, which is `length` characters. -/
structure LinesBefore (cs : List Char) (k length : Nat) : Prop where
  le : (cs.take length).count '\n' ≤ k
  iff : (cs.take length).count '\n' = k ↔ newlinesOnly (cs.take length) = true

theorem LinesBefore.zero (cs : List Char) : LinesBefore cs 0 0 :=
  ⟨by simp, by simp [newlinesOnly]⟩

theorem LinesBefore.crlf {rest : List Char} {k length : Nat} (h : LinesBefore rest k length) :
    LinesBefore ('\r' :: '\n' :: rest) (k + 1) (length + 2) := by
  obtain ⟨hle, hiff⟩ := h
  refine ⟨?_, ?_⟩
  · simpa using hle
  · simpa [newlinesOnly] using hiff

theorem LinesBefore.cons {c : Char} {rest : List Char} {k length : Nat}
    (hreturn : ∀ rest', c = '\r' → rest = '\n' :: rest' → False) (h : LinesBefore rest k length) :
    LinesBefore (c :: rest) (if isLineBreak c then k + 1 else k) (length + 1) := by
  obtain ⟨hle, hiff⟩ := h
  have htake : ∀ rest', c = '\r' → rest.take length = '\n' :: rest' → False := by
    intro rest' hc hrest
    cases rest with
    | nil => simp at hrest
    | cons d rest =>
      cases length with
      | zero => simp at hrest
      | succ length =>
        obtain ⟨rfl, -⟩ := List.cons.inj (List.take_succ_cons ▸ hrest)
        exact hreturn rest hc rfl
  refine ⟨?_, ?_⟩ <;> rw [List.take_succ_cons, List.count_cons]
  · by_cases hc : c = '\n'
    · simp [hc, isLineBreak, hle]
    · simp only [beq_iff_eq, hc, if_false]
      split <;> omega
  · rw [newlinesOnly_cons htake]
    by_cases hc : c = '\n'
    · simp [hc, isLineBreak, hiff]
    · cases hbreak : isLineBreak c with
      | false => simpa [hc] using hiff
      | true =>
        have hlt : (rest.take length).count '\n' ≠ k + 1 := by omega
        simpa [hc] using hlt

/-- The lines before a line are its number. The newlines before it are no more, and as many exactly
when these lines end with newlines alone. -/
theorem placedLines_before (start : Nat) (cs : List Char) {k place : Nat} {line : List Char}
    (h : (placedLines start cs)[k]? = some (place, line)) :
    ∃ length, place = start + length ∧ LinesBefore cs k length := by
  induction cs using splitlines.induct generalizing start k line with
  | case1 => simp [placedLines] at h
  | case2 rest ih =>
    rw [placedLines] at h
    cases k with
    | zero =>
      obtain ⟨rfl, -⟩ := Prod.mk.inj (Option.some.inj h)
      exact ⟨0, rfl, .zero _⟩
    | succ k =>
      obtain ⟨length, rfl, hbefore⟩ := ih (start + 2) h
      exact ⟨length + 2, by omega, hbefore.crlf⟩
  | case3 c rest hreturn hbreak ih =>
    rw [placedLines, if_pos hbreak] at h
    · cases k with
      | zero =>
        obtain ⟨rfl, -⟩ := Prod.mk.inj (Option.some.inj h)
        exact ⟨0, rfl, .zero _⟩
      | succ k =>
        obtain ⟨length, rfl, hbefore⟩ := ih (start + 1) h
        have hcons := hbefore.cons hreturn
        rw [if_pos hbreak] at hcons
        exact ⟨length + 1, by omega, hcons⟩
    · exact hreturn
  | case4 c rest hreturn hbreak hnil ih =>
    have hplaced : placedLines (start + 1) rest = [] := by
      rw [← List.map_eq_nil_iff, map_placedLines, hnil]
    rw [placedLines, if_neg hbreak, hplaced] at h
    · cases k with
      | zero =>
        obtain ⟨rfl, -⟩ := Prod.mk.inj (Option.some.inj h)
        exact ⟨0, rfl, .zero _⟩
      | succ k => simp at h
    · exact hreturn
  | case5 c rest hreturn hbreak first lines hcons ih =>
    obtain ⟨⟨place', line'⟩, more, hplaced, -, -⟩ :=
      List.map_eq_cons_iff.mp (hcons ▸ map_placedLines (start + 1) rest)
    rw [placedLines, if_neg hbreak, hplaced] at h
    · cases k with
      | zero =>
        obtain ⟨rfl, -⟩ := Prod.mk.inj (Option.some.inj h)
        exact ⟨0, rfl, .zero _⟩
      | succ k =>
        have hnext : (placedLines (start + 1) rest)[k + 1]? = some (place, line) := by
          rw [hplaced]
          exact h
        obtain ⟨length, rfl, hbefore⟩ := ih (start + 1) hnext
        have hcons := hbefore.cons hreturn
        rw [if_neg hbreak] at hcons
        exact ⟨length + 1, by omega, hcons⟩
    · exact hreturn

/-- A finding of the first loop is on one of its lines and has the number of that line. -/
theorem mem_scanLines {env : Env} {source : String} {f : Finding} :
    ∀ (idx : Nat) (lines : List (Nat × List Char)), f ∈ scanLines env source idx lines →
      ∃ k line, lines[k]? = some (f.place, line) ∧ intAt f.issue "line" = some ((idx + k : Nat) : Int)
  | idx, [], h => absurd h List.not_mem_nil
  | idx, (place, line) :: rest, h => by
      rw [scanLines, List.mem_append] at h
      rcases h with h | h
      · obtain ⟨issue, hissue, rfl⟩ := List.mem_map.mp h
        refine ⟨0, line, rfl, ?_⟩
        unfold lineIssues at hissue
        dsimp only at hissue
        split at hissue
        · exact absurd hissue List.not_mem_nil
        · obtain ⟨check, -, hcheck⟩ := List.mem_filterMap.mp hissue
          obtain ⟨evidence, -, rfl⟩ := Option.map_eq_some_iff.mp hcheck
          exact intAt_sourceIssue _ _ _ _ _ _ _ _
      · obtain ⟨k, line', hline, hint⟩ := mem_scanLines (idx + 1) rest h
        refine ⟨k + 1, line', hline, ?_⟩
        rw [hint]
        congr 2
        omega

/-- An issue of the first loop names its line when newlines alone end the lines before it. -/
theorem lineFinding_names_iff {env : Env} {source : String} {text : List Char} {f : Finding}
    (h : f ∈ lineFindings env source text) :
    f.NamesLine text ↔ newlinesOnly (text.take f.place) = true := by
  obtain ⟨k, line, hline, hint⟩ := mem_scanLines 1 _ h
  obtain ⟨length, hplace, hbefore⟩ := placedLines_before 0 text hline
  rw [Nat.zero_add] at hplace
  rw [Finding.NamesLine, hint, hplace, ← hbefore.iff, lineOf, Option.some.injEq]
  omega

theorem length_stripMask (text : List Char) : (stripMask text).length = text.length := by
  have hblocks := blocks.length_kinds text
  rw [stripMask, length_compose hblocks (lines.length_kinds (withoutBlocks text)).symm, hblocks]

/-- An issue of the second loop names its line when no newline before it is taken out. -/
theorem assignFinding_names_iff {env : Env} {source : String} {text : List Char} {f : Finding}
    (h : f ∈ assignFindings env source text) :
    f.NamesLine text ↔ '\n' ∉ removedBefore text f.place := by
  unfold assignFindings at h
  obtain ⟨⟨start, m⟩, -, hmem⟩ := List.mem_flatMap.mp h
  obtain ⟨issue, hissue, rfl⟩ := List.mem_map.mp hmem
  obtain ⟨check, -, hcheck⟩ := List.mem_filterMap.mp hissue
  obtain ⟨evidence, -, rfl⟩ := Option.map_eq_some_iff.mp hcheck
  have hlength := length_stripMask text
  rw [Finding.NamesLine, intAt_sourceIssue, Option.some.injEq, ← select_stripMask,
    take_select _ _ _ hlength, lineOf]
  have hcount := count_select '\n' ((stripMask text).take (keptPlace (stripMask text) start))
    (text.take (keptPlace (stripMask text) start)) (by simp [hlength])
  rw [removedBefore, ← List.count_eq_zero]
  dsimp only
  omega

/-- Every issue names the line of the file its construct is on exactly when newlines alone end the
lines before the constructs of the first scan, and no comment that is taken out before an
assignment of the second has a newline. -/
theorem scan_names_lines_iff (env : Env) (source : String) (text : List Char) :
    (∀ f ∈ scanSource env source text, f.NamesLine text) ↔
      (∀ f ∈ lineFindings env source text, newlinesOnly (text.take f.place) = true) ∧
        ∀ f ∈ assignFindings env source text, '\n' ∉ removedBefore text f.place := by
  have hline : ∀ f ∈ lineFindings env source text,
      (f.NamesLine text ↔ newlinesOnly (text.take f.place) = true) :=
    fun f hf => lineFinding_names_iff hf
  have hassign : ∀ f ∈ assignFindings env source text,
      (f.NamesLine text ↔ '\n' ∉ removedBefore text f.place) :=
    fun f hf => assignFinding_names_iff hf
  rw [← forall₂_congr hline, ← forall₂_congr hassign]
  simp only [scanSource, List.mem_append, or_imp, forall_and]

/-- A comment of two lines before a multiplexer chain. -/
def commentedChain : List Char := "/*\n*/assign y = a ? b : c ? d : e ? f : g;\n".toList

/-- A form feed before a block with two edges. -/
def pagedBlock : List Char := "\x0c\nalways @(posedge clk or negedge rst_n)\n".toList

/-- The chain is on the second line and reported on the first, the block is on the second line and
reported on the third. -/
theorem scan_misnames_lines :
    (∃ f ∈ scanSource (.ofNodes []) "cpu.v" commentedChain, ¬f.NamesLine commentedChain) ∧
      ∃ f ∈ scanSource (.ofNodes []) "cpu.v" pagedBlock, ¬f.NamesLine pagedBlock := by
  decide +kernel

end EccFe.Tools.Review
