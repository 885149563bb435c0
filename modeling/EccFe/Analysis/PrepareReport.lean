/-
EccFe.Analysis.PrepareReport — the report of the prepare step, from the step that writes it to the
quality record that reads it.

`PrepareStep` builds its readiness facts from whatever record the check of the top leaves, and
`_prepare_readiness_score` drops facts that do not add up. `facts_coherent` says of any record when
they do: the missing and mismatched ports are no more than the expected ones. The records of the
checks have that (`topOutcome_record`), also when a contract names a port twice, so that the score
is never dropped and the facts say how the step ended (`prepareReport_scored`).
-/
import EccFe.Analysis.QualityGate
import EccFe.Tools.InputDigest
import EccFe.Tools.Prepare.Report
import EccFe.Tools.Prepare.Rerun

namespace EccFe.Analysis

open Python Engine Tools.Prepare Tools.RtlInputs Tools.RtlOwnership
open Tools.SvModule (Port PortDifferences comparePortContracts portNames portMismatch?
  moduleDefinitions modulePortContractFromFiles)

/-! ## 1. Ports are counted once -/

theorem length_portNames_le (ports : List Port) : (portNames ports).length ≤ ports.length := by
  have hsub : portNames ports ⊆ ports.map (·.name) := by
    intro name hname
    exact (List.mem_filter.mp (mem_distinctTexts.mp hname)).1
  have hperm := (nodup_distinctTexts _).subperm hsub
  exact hperm.length_le.trans (List.length_map _).le

/-- A name is missing or has a mismatch, not both, and counts once. -/
theorem missing_mismatches_le (expected actual : List Port) :
    (comparePortContracts expected actual).missing.length +
      (comparePortContracts expected actual).mismatches.length ≤ expected.length := by
  have hsplit := List.length_eq_length_filter_add (l := portNames expected)
    fun name => decide (name ∈ portNames actual)
  have hfound : (comparePortContracts expected actual).mismatches.length ≤
      ((portNames expected).filter (· ∈ portNames actual)).length := by
    rw [comparePortContracts, List.length_mergeSort]
    exact List.length_filterMap_le _ _
  have hmissing : (comparePortContracts expected actual).missing.length =
      ((portNames expected).filter (fun name => !decide (name ∈ portNames actual))).length := by
    simp [comparePortContracts]
  have hnames := length_portNames_le expected
  omega

/-! ## 2. The facts, read back -/

/-- What `_prepare_readiness_score` reads off the facts. -/
def recordedReadiness (env : Env) (inputs : ReportInputs) (contract : Dict)
    (required persisted inInputs : Bool) : Readiness where
  rtlTotal := inputs.rtlFiles.length
  rtlResolved := inputs.rtlFiles.countP env.fs.isFile
  incdirTotal := inputs.incdirs.length
  incdirResolved := inputs.incdirs.countP env.fs.isDir
  topRequired := required
  topDefinitions := topDefinitions contract
  topSourceInInputs := inInputs
  interfaceApplicable := interfaceApplicable contract
  interfaceVerified := decide (0 < expectedPorts contract)
  expectedPorts := expectedPorts contract
  matchedPorts := expectedPorts contract - (differenceItems contract "missing").length -
    (differenceItems contract "mismatches").length
  missingPorts := (differenceItems contract "missing").length
  extraPorts := (differenceItems contract "extra").length
  mismatchedPorts := (differenceItems contract "mismatches").length
  inputFingerprint := strip (Json.obj inputs.sourceFingerprint).pyStr != ""
  mergedFilelist := persisted
  preparedManifest := persisted

section

variable {env : Env} {homeless : String → Bool} {inputs : ReportInputs} {contract facts : Dict}
  {required persisted : Bool}

/-- The facts a report records are read back by the checks. -/
theorem readiness?_facts
    (h : buildReadinessFacts env homeless inputs contract required persisted = .ok facts) :
    ∃ inInputs, readiness? (.obj facts) =
      some (recordedReadiness env inputs contract required persisted inInputs) := by
  unfold buildReadinessFacts at h
  cases hin : sourceInInputs env homeless inputs.rtlFiles contract with
  | error e =>
    rw [hin] at h
    cases h
  | ok inInputs =>
    rw [hin] at h
    cases h
    refine ⟨inInputs, ?_⟩
    simp [readiness?, recordedReadiness, countAt?, booleanAt?, Json.asDict, Dict.dictAt, Dict.getD,
      Dict.get, count?, boolean?, equalsInt]

/-- The ports that the record names as missing or different are among the expected ones. -/
def PortsAddUp (contract : Dict) : Prop :=
  (differenceItems contract "missing").length + (differenceItems contract "mismatches").length ≤
    expectedPorts contract

/-- The facts add up exactly when the ports of the record do. -/
theorem facts_coherent (inInputs : Bool) :
    (recordedReadiness env inputs contract required persisted inInputs).coherent = true ↔
      inputs.rtlFiles ≠ [] ∧ PortsAddUp contract := by
  rw [Readiness.coherent_iff, PortsAddUp, ← List.length_pos_iff]
  have hrtl : inputs.rtlFiles.countP env.fs.isFile ≤ inputs.rtlFiles.length := List.countP_le_length
  have hincdirs : inputs.incdirs.countP env.fs.isDir ≤ inputs.incdirs.length :=
    List.countP_le_length
  simp only [recordedReadiness, decide_eq_true_eq, decide_eq_false_iff_not]
  constructor
  · intro h
    obtain ⟨htotal, -, -, -, hverified, hunverified⟩ := h
    refine ⟨htotal, ?_⟩
    by_cases hexpected : 0 < expectedPorts contract
    · have := (hverified hexpected).2
      omega
    · have := hunverified hexpected
      omega
  · intro h
    obtain ⟨htotal, hports⟩ := h
    refine ⟨htotal, hrtl, hincdirs, by omega, fun hexpected => ⟨hexpected, by omega⟩, fun hnone => ?_⟩
    omega

end

/-! ## 3. Sources resolve -/

section

variable {env : Env} {homeless : String → Bool} {workspace : Workspace}

theorem isSpace_slash : isSpace '/' = false := by decide

/-- The text of an absolute path loses blanks at its end only. -/
theorem toList_strip_absText (p : AbsPath) : ∃ rest, (strip (PurePath.absText p)).toList = '/' :: rest := by
  rw [strip, String.toList_ofList, toList_absText, stripBy_cons isSpace_slash]
  exact ⟨_, rfl⟩

theorem unknownHome_of_slash {text : String} {rest : List Char} (h : text.toList = '/' :: rest) :
    unknownHome homeless text = false := by
  have habsolute : (PurePath.ofText text).absolute = true := by
    simp [PurePath.ofText, h]
  have htilde : tildeUser? text = none := by
    unfold tildeUser?
    dsimp only
    rw [habsolute]
  rw [unknownHome, htilde, Option.any_none]

theorem mem_stripBy {p : Char → Bool} {c : Char} {cs : List Char} (hc : c ∈ cs) (h : p c = false) :
    c ∈ stripBy p cs := by
  obtain ⟨before, behind, rfl⟩ := List.append_of_mem hc
  rw [stripBy, lstripBy]
  have hdrop : ∃ kept, (before ++ c :: behind).dropWhile p = kept ++ c :: behind := by
    clear hc
    induction before with
    | nil => exact ⟨[], by simp [h]⟩
    | cons d before ih =>
      by_cases hd : p d = true
      · simpa [hd] using ih
      · exact ⟨d :: before, by simp [hd]⟩
  obtain ⟨kept, hkept⟩ := hdrop
  rw [hkept, rstripBy_append h]
  simp

/-- A path that could be classified resolves, and so does its text without blanks. -/
theorem resolves_of_classified {label : String} {p : AbsPath} {answer : AbsPath × String}
    (h : classified env homeless workspace label p = .ok answer) :
    Resolves homeless (PurePath.absText p) ∧ Resolves homeless (strip (PurePath.absText p)) := by
  have hok := (classified_eq_ok.mp h).1
  obtain ⟨rest, hstart⟩ := toList_strip_absText p
  have hne : strip (PurePath.absText p) ≠ "" := by
    intro hempty
    rw [hempty] at hstart
    cases hstart
  unfold classifyRtlSource at hok
  dsimp only at hok
  rw [if_neg hne] at hok
  cases hpath : resolvePath env homeless (strip (PurePath.absText p)) with
  | error e =>
    rw [hpath] at hok
    cases hok
  | ok path =>
    have hresolves := (resolvePath_eq_ok.mp hpath).1
    refine ⟨⟨unknownHome_of_slash (toList_absText p), ?_⟩, hresolves⟩
    have hplain := hresolves.2
    rw [List.contains_eq_mem, decide_eq_false_iff_not] at hplain ⊢
    intro hnul
    refine hplain ?_
    rw [strip, String.toList_ofList]
    exact mem_stripBy hnul (by decide)

/-- The collected sources are there, and they resolve. -/
theorem collected_resolves {collected : Collected}
    (h : collectInputs env homeless workspace = .ok collected) :
    collected.rtlFiles ≠ [] ∧ ∀ p ∈ collected.rtlFiles, Resolves homeless (PurePath.absText p) ∧
      Resolves homeless (strip (PurePath.absText p)) := by
  obtain ⟨groups, sources, -, hne, hsources, rfl⟩ := collectInputs_eq_ok.mp h
  refine ⟨hne, fun p hp => ?_⟩
  obtain ⟨source, hsource⟩ := Tools.RtlOwnership.mapM_isOk.mp ⟨sources, hsources⟩ p hp
  cases hfallback : classified env homeless workspace "" p with
  | error e =>
    rw [rtlSource, hfallback] at hsource
    cases hsource
  | ok answer => exact resolves_of_classified hfallback

/-- Every record whose source is empty or one of the inputs has facts. -/
theorem buildReadinessFacts_isOk {inputs : ReportInputs} {contract : Dict} (required persisted : Bool)
    (hresolves : ∀ p ∈ inputs.rtlFiles, Resolves homeless (PurePath.absText p))
    (hsource : topSource contract = "" ∨ Resolves homeless (topSource contract)) :
    ∃ facts, buildReadinessFacts env homeless inputs contract required persisted = .ok facts := by
  have hin : ∃ inInputs, sourceInInputs env homeless inputs.rtlFiles contract = .ok inInputs := by
    obtain ⟨sources, hsources⟩ := Tools.RtlOwnership.mapM_isOk.mpr fun p hp =>
      (⟨_, resolvePath_eq_ok.mpr ⟨hresolves p hp, rfl⟩⟩ :
        ∃ path, resolvePath env homeless (PurePath.absText p) = .ok path)
    rw [sourceInInputs, hsources]
    by_cases hempty : topSource contract = ""
    · exact ⟨false, by simp [hempty, bind, Except.bind, pure, Except.pure]⟩
    · obtain hblank | hok := hsource
      · exact absurd hblank hempty
      · exact ⟨_, by simp [hempty, resolvePath_eq_ok.mpr ⟨hok, rfl⟩, bind, Except.bind, pure,
          Except.pure]; rfl⟩
  obtain ⟨inInputs, hinInputs⟩ := hin
  rw [buildReadinessFacts, hinInputs]
  exact ⟨_, rfl⟩

end

/-! ## 4. Collecting writes no report -/

/-- An error of the computation leaves no report. -/
def Quiet {α : Type} (x : Except PrepareFailure α) : Prop :=
  ∀ failure, x = .error failure → failure.reports = false

section

variable {α β : Type}

theorem quiet_ok (a : α) : Quiet (.ok a : Except PrepareFailure α) := fun _ h => by cases h

theorem quiet_error {failure : PrepareFailure} (h : failure.reports = false) :
    Quiet (.error failure : Except PrepareFailure α) := by
  intro other hother
  cases hother
  exact h

/-- A run whose parts fail without a report does. -/
theorem quiet_bind {x : Except PrepareFailure α} {f : α → Except PrepareFailure β} (hx : Quiet x)
    (hf : ∀ a, Quiet (f a)) : Quiet (x >>= f) := by
  cases x with
  | error failure => exact quiet_error (hx failure rfl)
  | ok a => exact hf a

theorem quiet_mapError {ε : Type} (x : Except ε α) {f : ε → PrepareFailure}
    (hf : ∀ e, (f e).reports = false) : Quiet (x.mapError f) := by
  cases x with
  | error e => exact quiet_error (hf e)
  | ok a => exact quiet_ok a

/-- A loop whose steps fail without a report does. -/
theorem quiet_mapM {f : α → Except PrepareFailure β} (hf : ∀ a, Quiet (f a)) (items : List α) :
    Quiet (items.mapM f) := by
  induction items with
  | nil => exact quiet_ok []
  | cons a rest ih =>
    rw [List.mapM_cons]
    exact quiet_bind (hf a) fun _ => quiet_bind ih fun _ => quiet_ok _

end

section

variable (env : Env) (homeless : String → Bool) (workspace : Workspace)

theorem quiet_classified (label : String) (p : AbsPath) :
    Quiet (classified env homeless workspace label p) := by
  unfold classified
  split
  · exact quiet_ok _
  · exact quiet_error rfl

/-- No filelist that cannot be read leads to a report. -/
theorem quiet_inputGroups : Quiet (inputGroups env homeless workspace) := by
  unfold inputGroups
  split
  · unfold originGroups
    dsimp only
    split
    · exact quiet_ok _
    · exact quiet_bind (quiet_classified env homeless workspace _ _) fun _ => quiet_ok _
  · refine quiet_mapM (fun input => ?_) _
    exact quiet_bind (quiet_mapError _ fun _ => rfl) fun root =>
      quiet_bind (quiet_mapError _ fun _ => rfl) fun entries =>
        quiet_bind (quiet_mapM (quiet_classified env homeless workspace _) _) fun _ => quiet_ok _

/-- Collecting the inputs fails without a report. -/
theorem quiet_collectInputs : Quiet (collectInputs env homeless workspace) := by
  refine quiet_bind (quiet_inputGroups env homeless workspace) fun groups => ?_
  dsimp only
  split
  · exact quiet_error rfl
  · exact quiet_bind (quiet_mapM (fun p =>
      quiet_bind (quiet_classified env homeless workspace _ p) fun _ => quiet_ok _) _) fun _ =>
        quiet_ok _

end

/-! ## 5. The records of the checks -/

/-- The record of a check that passed; `required` says whether a top is looked for. -/
structure PassedRecord (required : Bool) (contract : Dict) : Prop where
  passing : PassingContract contract
  definitions : required = true → topDefinitions contract = 1
  same : ∀ field ∈ ["missing", "extra", "mismatches"], differenceItems contract field = []

structure FailedRecord (contract : Dict) : Prop where
  valid : validPrepareContract contract = true
  fails : contractFails contract = true
  ports : PortsAddUp contract
  cause : topDefinitions contract ≠ 1 ∨
    ∃ field ∈ ["missing", "extra", "mismatches"], differenceItems contract field ≠ []

/-- The source that a record names, if it names one, is the text of a source without blanks. -/
def SourceAmong (rtlFiles : List AbsPath) (contract : Dict) : Prop :=
  topSource contract = "" ∨ ∃ p ∈ rtlFiles, topSource contract = strip (PurePath.absText p)

/-- The outcome, against the check of the step. -/
inductive Records (rtlFiles : List AbsPath) (required : Bool) :
    TopOutcome → Except PrepareFailure TopContract → Prop
  | passed {contract : Dict} {top : TopContract} (hrecord : PassedRecord required contract)
      (hsource : SourceAmong rtlFiles contract) : Records rtlFiles required (.passed contract) (.ok top)
  | failed {contract : Dict} {failure : PrepareFailure} (hreports : failure.reports = true)
      (hrecord : FailedRecord contract) (hsource : SourceAmong rtlFiles contract) :
      Records rtlFiles required (.failed contract) (.error failure)
  | raised {failure : PrepareFailure} (hreports : failure.reports = false) :
      Records rtlFiles required .raised (.error failure)

/-- Ports differ when one is missing, is extra or does not match. -/
theorem any_differences (d : PortDifferences) : d.any = true ↔
    d.missing ≠ [] ∨ d.extra ≠ [] ∨ d.mismatches ≠ [] := by
  simp [PortDifferences.any, or_assoc]

section

variable {env : Env} {workspace : Workspace} {rtlFiles : List AbsPath}

theorem differenceItems_of_null {contract : Dict} (h : contract.getD "differences" .null = .null)
    (field : String) : differenceItems contract field = [] := by
  rw [differenceItems, Dict.dictAt, h]
  rfl

/-- A contract with an id and a failure is one that the gates read. -/
theorem failed_valid {contract : Dict} (id : String) (hid : strip id ≠ "")
    (hidAt : contract.getD "id" .null = .str id)
    (hstatus : contract.getD "status" .null = .str "failed") :
    validPrepareContract contract = true ∧ contractFails contract = true := by
  rw [validPrepareContract, contractFails, textAt_of_getD hstatus, hidAt, hstatus]
  refine ⟨?_, by decide⟩
  simp [text?, hid, show lower (strip "failed") = "failed" by decide, failingContractStatuses]

/-- A check that ends before the ports are read. -/
theorem failedRecord_of_count {contract : Dict} (id : String) (hid : strip id ≠ "")
    (hidAt : contract.getD "id" .null = .str id)
    (hstatus : contract.getD "status" .null = .str "failed")
    (hports : contract.getD "differences" .null = .null)
    (hcount : topDefinitions contract ≠ 1) : FailedRecord contract where
  valid := (failed_valid id hid hidAt hstatus).1
  fails := (failed_valid id hid hidAt hstatus).2
  ports := by
    simp [PortsAddUp, differenceItems_of_null hports]
  cause := .inl hcount

theorem topSource_of_getD {contract : Dict} {source : String}
    (h : contract.getD "source" (.str "") = .str source) : topSource contract = strip source := by
  rw [topSource, Dict.textAt, h, Json.pyStr]

/-- The count of a record is read as it is. -/
theorem topDefinitions_of_count {contract : Dict} {count : Int}
    (h : contract.getD "count" .null = .int count) : topDefinitions contract = count.toNat := by
  rw [topDefinitions, h]

/-- Without a count, the record of a named source counts one definition. -/
theorem topDefinitions_of_source {contract : Dict} (h : contract.getD "count" .null = .null) :
    topDefinitions contract = if topSource contract = "" then 0 else 1 := by
  rw [topDefinitions, h]

/-- A failing record that names no source. -/
theorem sourceless_failed {contract : Dict} (id : String) (hid : strip id ≠ "")
    (hidAt : contract.getD "id" .null = .str id)
    (hstatus : contract.getD "status" .null = .str "failed")
    (hports : contract.getD "differences" .null = .null)
    (hsource : contract.getD "source" (.str "") = .str "")
    (hcount : contract.getD "count" .null = .null ∨
      ∃ count : Int, contract.getD "count" .null = .int count ∧ count.toNat ≠ 1) :
    FailedRecord contract ∧ SourceAmong rtlFiles contract := by
  have hempty : topSource contract = "" := by
    rw [topSource_of_getD hsource]
    decide
  refine ⟨failedRecord_of_count id hid hidAt hstatus hports ?_, .inl hempty⟩
  obtain hnone | ⟨count, hcount, hne⟩ := hcount
  · rw [topDefinitions_of_source hnone, if_pos hempty]
    decide
  · rw [topDefinitions_of_count hcount]
    exact hne

/-- The failing records of both checks, before the ports are read. -/
theorem failCpuTop_named (message name : String) :
    FailedRecord (failCpuTopContract message [("module", .str name)]) ∧
      SourceAmong rtlFiles (failCpuTopContract message [("module", .str name)]) :=
  sourceless_failed "cpu_top" (by decide) rfl rfl rfl rfl (.inl rfl)

/-- A top that is not found, or found several times, leaves the record of a failure. -/
theorem failCpuTop_counted (message name : String) {files : Json} {count : Nat} (hcount : count ≠ 1) :
    FailedRecord (failCpuTopContract message
        [("module", .str name), ("count", .int count), ("files", files)]) ∧
      SourceAmong rtlFiles (failCpuTopContract message
        [("module", .str name), ("count", .int count), ("files", files)]) :=
  sourceless_failed "cpu_top" (by decide) rfl rfl rfl rfl (.inr ⟨count, rfl, hcount⟩)

/-- A generic top without a valid name leaves the record of a failure. -/
theorem failGenericTop_named (message name : String) :
    FailedRecord (failGenericTopContract message [("module", .str name)]) ∧
      SourceAmong rtlFiles (failGenericTopContract message [("module", .str name)]) :=
  sourceless_failed "design_top" (by decide) rfl rfl rfl rfl (.inl rfl)

/-- So does a generic top that is not found once. -/
theorem failGenericTop_counted (message name : String) {files : Json} (count : Nat)
    (hcount : count ≠ 1) :
    FailedRecord (failGenericTopContract message
        [("module", .str name), ("count", .int count), ("files", files)]) ∧
      SourceAmong rtlFiles (failGenericTopContract message
        [("module", .str name), ("count", .int count), ("files", files)]) :=
  sourceless_failed "design_top" (by decide) rfl rfl rfl rfl (.inr ⟨count, rfl, hcount⟩)

theorem strip_absText_ne_empty (p : AbsPath) : strip (PurePath.absText p) ≠ "" := by
  obtain ⟨rest, hrest⟩ := toList_strip_absText p
  intro hempty
  rw [hempty] at hrest
  cases hrest

theorem sourceAmong_absText {contract : Dict} {p : AbsPath} (hp : p ∈ rtlFiles)
    (hsource : topSource contract = strip (PurePath.absText p)) : SourceAmong rtlFiles contract :=
  .inr ⟨p, hp, hsource⟩

/-- One source is found where one defines the module. -/
theorem source_or_head (name : String) (p : AbsPath) :
    (modulePortContractFromFiles env [p] name).1.or [p].head? = some p := by
  unfold modulePortContractFromFiles
  cases hfound : moduleDefinitions env [p] name with
  | nil => rfl
  | cons q rest =>
    have hq : q ∈ moduleDefinitions env [p] name := by simp [hfound]
    rw [List.mem_singleton.mp (List.mem_filter.mp hq).1]
    rfl

section

variable {name : String} {p : AbsPath} {expected actual : List Port}

theorem topDefinitions_cpuTopResult :
    topDefinitions (cpuTopResult name (some p) expected actual) = 1 := by
  rw [topDefinitions_of_source rfl, topSource_of_getD rfl]
  exact if_neg (strip_absText_ne_empty p)

/-- Ports are not compared without a contract. -/
theorem moduleOnly_passed (required : Bool) :
    PassedRecord required (cpuTopResult name (some p) [] actual) where
  passing := ⟨⟨"cpu_top", rfl, by decide⟩, ⟨"module_only", rfl, by decide⟩⟩
  definitions _ := topDefinitions_cpuTopResult
  same _ _ := differenceItems_of_null rfl _

/-- The record with the ports that differ. -/
def comparedResult (name : String) (p : AbsPath) (expected actual : List Port) : Dict :=
  (cpuTopResult name (some p) expected actual).set "differences"
    (differencesJson (comparePortContracts expected actual))

/-- Ports that match leave the record of a check that passed. -/
theorem samePorts_passed (required : Bool) (hne : expected ≠ [])
    (hsame : (comparePortContracts expected actual).any ≠ true) :
    PassedRecord required (comparedResult name p expected actual) where
  passing := by
    refine ⟨⟨"cpu_top", rfl, by decide⟩, ⟨"pass", ?_, by decide⟩⟩
    show Json.str (if expected = [] then "module_only" else "pass") = .str "pass"
    rw [if_neg hne]
  definitions _ := topDefinitions_cpuTopResult
  same := by
    rw [Ne, any_differences, not_or, not_or, not_not, not_not, not_not] at hsame
    obtain ⟨hmissing, hextra, hmismatches⟩ := hsame
    have hitems : ∀ field, differenceItems (comparedResult name p expected actual) field =
        (Dict.getD [("missing", .arr []), ("extra", .arr []), ("mismatches", .arr [])] field
          .null).items := by
      intro field
      show (Dict.getD (differencesJson (comparePortContracts expected actual)).asDict field
        .null).items = _
      rw [differencesJson, hmissing, hextra, hmismatches]
      rfl
    intro field hfield
    rw [hitems]
    simp only [List.mem_cons, List.not_mem_nil, or_false] at hfield
    obtain rfl | rfl | rfl := hfield <;> rfl

/-- Ports that differ leave the record of a failure. -/
theorem portsDiffer_failed (message : String)
    (hdiffer : (comparePortContracts expected actual).any = true) :
    FailedRecord (failCpuTopContract message (comparedResult name p expected actual)) where
  valid := (failed_valid "cpu_top" (by decide) rfl rfl).1
  fails := (failed_valid "cpu_top" (by decide) rfl rfl).2
  ports := by
    have hle := missing_mismatches_le expected actual
    show List.length (List.map _ _) + List.length (List.map _ _) ≤ expected.length
    rw [List.length_map, List.length_map]
    exact hle
  cause := by
    refine .inr ?_
    obtain hmissing | hextra | hmismatches := any_differences _ |>.mp hdiffer
    · exact ⟨"missing", by simp, fun h => hmissing (List.map_eq_nil_iff.mp h)⟩
    · exact ⟨"extra", by simp, fun h => hextra (List.map_eq_nil_iff.mp h)⟩
    · exact ⟨"mismatches", by simp, fun h => hmismatches (List.map_eq_nil_iff.mp h)⟩

end

/-- Comparing the ports of a CPU top leaves the record of what it finds. -/
theorem compareCpuTop_record {required : Bool} {name : String} {p : AbsPath} (hp : p ∈ rtlFiles)
    (expected : List Port) :
    Records rtlFiles required (compareCpuTop env name [p] expected)
      (match checkCpuTopPorts env name [p] expected with
        | .ok contract => .ok (.cpuTop contract)
        | .error failure => .error (.cpuTop failure)) := by
  unfold compareCpuTop checkCpuTopPorts
  have hsource := @source_or_head env name p
  cases hfound : modulePortContractFromFiles env [p] name with
  | mk source actual =>
  rw [hfound] at hsource
  dsimp only at hsource ⊢
  rw [hsource]
  by_cases hnone : expected = []
  · rw [if_pos hnone, if_pos hnone, hnone]
    exact .passed (moduleOnly_passed required) (sourceAmong_absText hp rfl)
  · rw [if_neg hnone, if_neg hnone]
    by_cases hdiffer : (comparePortContracts expected actual).any = true
    · rw [if_pos hdiffer, if_pos hdiffer]
      exact .failed rfl (portsDiffer_failed _ hdiffer) (sourceAmong_absText hp rfl)
    · rw [if_neg hdiffer, if_neg hdiffer]
      exact .passed (samePorts_passed required hnone hdiffer) (sourceAmong_absText hp rfl)

/-- The check of a generic top leaves the record of its outcome. -/
theorem designTopOutcome_record :
    Records rtlFiles (requiresFrontendCpuTop workspace) (designTopOutcome env workspace rtlFiles)
      (validateGenericDesignTop env workspace rtlFiles) := by
  unfold designTopOutcome validateGenericDesignTop
  by_cases hsimple : Tools.SvModule.isSimpleSvIdentifier (fieldText workspace "top_module") = true
  · rw [if_neg (by simp [hsimple]), if_neg (by simp [hsimple])]
    cases hmatching : moduleDefinitions env rtlFiles (fieldText workspace "top_module") with
    | nil =>
      obtain ⟨hrecord, hsource⟩ := failGenericTop_counted _ _ 0 (by decide)
      exact .failed rfl hrecord hsource
    | cons source rest =>
      cases rest with
      | nil =>
        have hmem : source ∈ moduleDefinitions env rtlFiles (fieldText workspace "top_module") := by
          simp [hmatching]
        have hone : topDefinitions [("id", .str "design_top"), ("status", .str "module_only"),
            ("module", .str (fieldText workspace "top_module")),
            ("source", .str (PurePath.absText source)), ("count", .int 1),
            ("interface_applicable", .bool false)] = 1 := rfl
        exact .passed
          { passing := ⟨⟨"design_top", rfl, by decide⟩, ⟨"module_only", rfl, by decide⟩⟩
            definitions := fun _ => hone
            same := fun _ _ => differenceItems_of_null rfl _ }
          (sourceAmong_absText (List.mem_filter.mp hmem).1 rfl)
      | cons other rest =>
        obtain ⟨hrecord, hsource⟩ := failGenericTop_counted _ _ (rest.length + 2) (by omega)
        exact .failed rfl hrecord hsource
  · rw [if_pos (by simp [hsimple]), if_pos (by simp [hsimple])]
    obtain ⟨hrecord, hsource⟩ := failGenericTop_named _ _
    exact .failed rfl hrecord hsource

/-- The check of a CPU top leaves the record of its outcome. -/
theorem cpuTopOutcome_record :
    Records rtlFiles (requiresFrontendCpuTop workspace) (cpuTopOutcome env workspace rtlFiles)
      (match validateFrontendCpuTop env workspace rtlFiles with
        | .ok contract => .ok (.cpuTop contract)
        | .error failure => .error (.cpuTop failure)) := by
  unfold cpuTopOutcome validateFrontendCpuTop
  by_cases hrequires : requiresFrontendCpuTop workspace = true
  · have hlooked : ¬(!requiresFrontendCpuTop workspace) = true := by simp [hrequires]
    rw [if_neg hlooked, if_neg hlooked]
    by_cases hsimple : Tools.SvModule.isSimpleSvIdentifier (requiredTop workspace) = true
    · have hnamed : ¬(!Tools.SvModule.isSimpleSvIdentifier (requiredTop workspace)) = true := by
        simp [hsimple]
      dsimp only
      rw [if_neg hnamed, if_neg hnamed]
      by_cases hone : (moduleDefinitions env rtlFiles (requiredTop workspace)).length ≠ 1
      · rw [if_pos hone, if_pos hone]
        obtain ⟨hrecord, hsource⟩ := failCpuTop_counted _ _ hone
        exact .failed rfl hrecord hsource
      · rw [if_neg hone, if_neg hone]
        obtain ⟨p, hp⟩ := List.length_eq_one_iff.mp (not_not.mp hone)
        have hmem : p ∈ moduleDefinitions env rtlFiles (requiredTop workspace) := by simp [hp]
        cases hexpected : expectedCpuTopContract workspace with
        | error e => exact .raised rfl
        | ok expected =>
          rw [hp]
          exact compareCpuTop_record (List.mem_filter.mp hmem).1 expected
    · have hnamed : (!Tools.SvModule.isSimpleSvIdentifier (requiredTop workspace)) = true := by
        simp [hsimple]
      dsimp only
      rw [if_pos hnamed, if_pos hnamed]
      obtain ⟨hrecord, hsource⟩ := failCpuTop_named _ _
      exact .failed rfl hrecord hsource
  · have hlooked : (!requiresFrontendCpuTop workspace) = true := by simp [hrequires]
    rw [if_pos hlooked, if_pos hlooked]
    exact .passed
      { passing := ⟨⟨"cpu_top", rfl, by decide⟩, ⟨"not_required", rfl, by decide⟩⟩
        definitions := fun h => absurd h hrequires
        same := fun _ _ => differenceItems_of_null rfl _ }
      (.inl rfl)

/-- The records are those of the check, for every kind of design. -/
theorem topOutcome_record (kind : DesignKind) :
    Records rtlFiles (requiresFrontendCpuTop workspace) (topOutcome env workspace rtlFiles kind)
      (validateFrontendTop env workspace kind rtlFiles) := by
  cases kind with
  | GENERIC_RTL =>
    have hrecord := @designTopOutcome_record env workspace rtlFiles
    simpa only [topOutcome, validateFrontendTop] using hrecord
  | CPU_CORE =>
    have hrecord := @cpuTopOutcome_record env workspace rtlFiles
    simp only [topOutcome, validateFrontendTop]
    cases hcheck : validateFrontendCpuTop env workspace rtlFiles with
    | ok contract =>
      rw [hcheck] at hrecord
      exact hrecord
    | error failure =>
      rw [hcheck] at hrecord
      exact hrecord

end

/-! ## 6. The report -/

/-- The facts ask for nothing more: the top is found and no port is missing, new or different. -/
def TopIsFine (r : Readiness) : Prop :=
  (r.topRequired = true → r.topDefinitions = 1) ∧ r.missingPorts = 0 ∧ r.extraPorts = 0 ∧
    r.mismatchedPorts = 0

/-- The report has a score, and its facts are `r`. -/
structure Scored (report : Dict) (r : Readiness) : Prop where
  facts : readiness? (report.getD "readiness" .null) = some r
  score : ∃ s, prepareReadinessScore .double (report.getD "readiness" .null) = .ok (some s) ∧
    s.WellFormed .double
  ports : r.matchedPorts + r.missingPorts + r.mismatchedPorts = r.expectedPorts

section

variable {env : Env} {homeless : String → Bool} {inputs : ReportInputs} {contract facts : Dict}
  {required persisted : Bool} {verdict : String}

/-- A report with ports that add up is scored. -/
theorem scored_report (hne : inputs.rtlFiles ≠ []) (hports : PortsAddUp contract)
    (h : buildReadinessFacts env homeless inputs contract required persisted = .ok facts) :
    ∃ inInputs, Scored (stepReport verdict inputs contract facts)
      (recordedReadiness env inputs contract required persisted inInputs) := by
  obtain ⟨inInputs, hread⟩ := readiness?_facts h
  have hcoherent : (recordedReadiness env inputs contract required persisted inInputs).coherent = true :=
    (facts_coherent inInputs).mpr ⟨hne, hports⟩
  refine ⟨inInputs, hread, ?_, ?_⟩
  · exact prepareReadinessScore_of_coherent FloatModel.double_lawful hread hcoherent
  unfold PortsAddUp at hports
  simp only [recordedReadiness]
  omega

theorem counts_report : validCountFields (stepReport verdict inputs contract facts)
    ["rtl_files", "incdirs", "defines"] = true := by
  simp [validCountFields, countAt?, stepReport, Dict.getD, Dict.get, count?]

theorem contracts_report : (stepReport verdict inputs contract facts).getD "contracts" .null =
    .arr ([contract].map .obj) := rfl

/-- The gate of the report follows the record of the contract. -/
theorem qualityStatus_report (F : FloatModel) (workspace : Workspace) (success : Bool)
    (hvalid : validPrepareContract contract = true) :
    writeStepQor F workspace "prepare" (some (stepReport verdict inputs contract facts)) success =
      some (if contractFails contract then "blocked" else if success then "pass" else "incomplete") := by
  have hrecords : allRecords? ((stepReport verdict inputs contract facts).getD "contracts" .null) =
      some [contract] := allRecords?_eq_some.2 contracts_report
  have hread : records ((stepReport verdict inputs contract facts).getD "contracts" .null) =
      [contract] := by rw [contracts_report, records_map]
  show some ((prepareQor _).qualityStatus success) = _
  unfold prepareQor
  rw [counts_report, hrecords, hread]
  cases hfails : contractFails contract <;> cases success <;>
    simp [QorResult.qualityStatus, gateOf, hvalid, hfails]

end

section

variable {env after : Env} {homeless : String → Bool} {outputDir : AbsPath} {workspace : Workspace}

theorem PassedRecord.portsAddUp {required : Bool} {contract : Dict}
    (h : PassedRecord required contract) : PortsAddUp contract := by
  simp [PortsAddUp, h.same "missing" (by simp), h.same "mismatches" (by simp)]

/-- A check that passed is one the facts call fine. -/
theorem PassedRecord.topIsFine {inputs : ReportInputs} {required persisted inInputs : Bool}
    {contract : Dict} (h : PassedRecord required contract) :
    TopIsFine (recordedReadiness env inputs contract required persisted inInputs) := by
  refine ⟨h.definitions, ?_, ?_, ?_⟩ <;> simp [recordedReadiness, h.same]

/-- A check that failed is not. -/
theorem FailedRecord.not_topIsFine {inputs : ReportInputs} {persisted inInputs : Bool}
    {contract : Dict} (h : FailedRecord contract) :
    ¬TopIsFine (recordedReadiness env inputs contract true persisted inInputs) := by
  intro hfine
  obtain ⟨htop, hmissing, hextra, hmismatches⟩ := hfine
  obtain hcount | ⟨field, hfield, hitems⟩ := h.cause
  · exact hcount (htop rfl)
  · simp only [List.mem_cons, List.not_mem_nil, or_false] at hfield
    obtain rfl | rfl | rfl := hfield
    · exact hitems (List.length_eq_zero_iff.mp hmissing)
    · exact hitems (List.length_eq_zero_iff.mp hextra)
    · exact hitems (List.length_eq_zero_iff.mp hmismatches)

/-- The source that a record names resolves. -/
theorem SourceAmong.resolves {rtlFiles : List AbsPath} {contract : Dict}
    (h : SourceAmong rtlFiles contract)
    (hresolves : ∀ p ∈ rtlFiles, Resolves homeless (PurePath.absText p) ∧
      Resolves homeless (strip (PurePath.absText p))) :
    topSource contract = "" ∨ Resolves homeless (topSource contract) := by
  obtain hempty | ⟨p, hp, hsource⟩ := h
  · exact .inl hempty
  · rw [hsource]
    exact .inr (hresolves p hp).2

/-- Once the inputs are collected the run is the check of the top. -/
theorem prepare_of_collected {collected : Collected} {kind : DesignKind}
    (hcollect : collectInputs env homeless workspace = .ok collected)
    (hkind : designKind workspace = .ok kind) :
    prepare env homeless outputDir workspace =
        (validateFrontendTop env workspace kind collected.rtlFiles).map
          (PrepareRun.of env outputDir workspace collected kind) := by
  cases htop : validateFrontendTop env workspace kind collected.rtlFiles with
  | ok top => exact prepare_eq_ok.mpr ⟨collected, kind, top, hcollect, hkind, htop, rfl⟩
  | error failure => simp [prepare, hcollect, hkind, htop, bind, Except.bind, Except.mapError,
      Except.map]

/-- A run that does not get to the top reports nothing. -/
theorem prepare_of_not_collected (hnone : ∀ collected kind,
      collectInputs env homeless workspace = .ok collected → designKind workspace ≠ .ok kind) :
    prepareReport env homeless after workspace = .raised ∧
      ∃ failure, prepare env homeless outputDir workspace = .error failure ∧
        failure.reports = false := by
  unfold prepareReport prepare
  cases hcollect : collectInputs env homeless workspace with
  | error failure => exact ⟨rfl, failure, rfl, quiet_collectInputs env homeless workspace _ hcollect⟩
  | ok collected =>
    cases hkind : designKind workspace with
    | error e => exact ⟨rfl, .path e, rfl, rfl⟩
    | ok kind => exact absurd hkind (hnone collected kind hcollect)

variable (env after homeless outputDir workspace)

/-- **The report of every run that reaches the top has a score, and its gate says how the run
ended**: `pass` when the top passed and the step succeeded, `blocked` when the top failed. The facts
themselves say it too. -/
theorem prepareReport_scored (F : FloatModel) (reader : Workspace) :
    (∀ run, prepare env homeless outputDir workspace = .ok run → ∃ report r,
      prepareReport env homeless after workspace = .passed report ∧ Scored report r ∧ TopIsFine r ∧
        ∀ success, writeStepQor F reader "prepare" (some report) success =
          some (if success then "pass" else "incomplete")) ∧
    (∀ failure, prepare env homeless outputDir workspace = .error failure →
      failure.reports = true → ∃ report r,
        prepareReport env homeless after workspace = .failed report ∧ Scored report r ∧
          ¬TopIsFine r ∧ ∀ success,
            writeStepQor F reader "prepare" (some report) success = some "blocked") ∧
    (∀ failure, prepare env homeless outputDir workspace = .error failure →
      failure.reports = false → prepareReport env homeless after workspace = .raised) := by
  by_cases hreach : ∃ collected kind, collectInputs env homeless workspace = .ok collected ∧
      designKind workspace = .ok kind
  · obtain ⟨collected, kind, hcollect, hkind⟩ := hreach
    obtain ⟨hne, hresolves⟩ := collected_resolves hcollect
    have htop := @topOutcome_record env workspace collected.rtlFiles kind
    rw [prepare_of_collected hcollect hkind]
    unfold prepareReport
    rw [hcollect, hkind]
    dsimp only
    generalize validateFrontendTop env workspace kind collected.rtlFiles = check at htop ⊢
    generalize topOutcome env workspace collected.rtlFiles kind = outcome at htop ⊢
    cases htop with
    | raised hquiet =>
      refine ⟨fun _ h => ?_, fun failure hfailure hreports => ?_, fun _ _ _ => rfl⟩
      · cases h
      · cases hfailure
        rw [hquiet] at hreports
        cases hreports
    | passed hrecord hsource =>
      refine ⟨fun _ _ => ?_, fun _ h _ => (by cases h), fun _ h _ => (by cases h)⟩
      obtain ⟨facts, hfacts⟩ := @buildReadinessFacts_isOk after homeless
        (collected.reportInputs env workspace (manifestDefines workspace kind collected.defines)) _
        (requiresFrontendCpuTop workspace) true (fun p hp => (hresolves p hp).1)
        (hsource.resolves hresolves)
      obtain ⟨inInputs, hscored⟩ := scored_report hne hrecord.portsAddUp hfacts
      obtain ⟨hvalid, hpasses⟩ := (passingContract_iff _).mp hrecord.passing
      dsimp only
      rw [hfacts]
      refine ⟨_, _, rfl, hscored, hrecord.topIsFine, fun success => ?_⟩
      rw [qualityStatus_report F reader success hvalid, hpasses]
      rfl
    | failed hreports hrecord hsource =>
      refine ⟨fun _ h => ?_, fun failure hfailure _ => ?_, fun failure hfailure hquiet => ?_⟩
      · cases h
      · obtain ⟨facts, hfacts⟩ := @buildReadinessFacts_isOk env homeless
          (collected.reportInputs env workspace collected.defines) _ true false (fun p hp => (hresolves p hp).1)
          (hsource.resolves hresolves)
        obtain ⟨inInputs, hscored⟩ := scored_report hne hrecord.ports hfacts
        dsimp only
        rw [hfacts]
        refine ⟨_, _, rfl, hscored, hrecord.not_topIsFine, fun success => ?_⟩
        rw [qualityStatus_report F reader success hrecord.valid, hrecord.fails]
        rfl
      · cases hfailure
        rw [hquiet] at hreports
        cases hreports
  · have hnone : ∀ collected kind, collectInputs env homeless workspace = .ok collected →
        designKind workspace ≠ .ok kind := fun collected kind hcollect hkind =>
      hreach ⟨collected, kind, hcollect, hkind⟩
    obtain ⟨hraised, failure, hfailure, hquiet⟩ :=
      @prepare_of_not_collected env after homeless outputDir workspace hnone
    refine ⟨fun run hrun => ?_, fun other hother hreports => ?_, fun _ _ _ => hraised⟩
    · rw [hfailure] at hrun
      cases hrun
    · rw [hfailure] at hother
      cases hother
      rw [hquiet] at hreports
      cases hreports

end

end EccFe.Analysis
