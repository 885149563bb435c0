/-
EccFe.Catalog.Compatibility — which CPU runs on which SoC
(`fecompiler/catalog/schema.py`, `fecompiler/catalog/compatibility.py`).

The GUI offers a pair by its compatibility entry. A pair has issues for its ISA, its CPU socket,
its reset vector and the wrappers that are missing; a pair without issues lists the test suites
both sides run. A declaration that is missing excludes nothing.

`str.lower` is the parameter `strLower`, since ISA names and reset vectors are any text.
-/
import EccFe.Catalog.UserFilelist

namespace EccFe.Catalog

open Python

/-! ## 1. Entries -/

/-- `[str(item).strip() for item in data.get(key, []) if str(item).strip()]`. -/
def strippedTexts (data : Dict) (key : String) : List String :=
  ((data.getD key (.arr [])).items.map fun item => strip item.pyStr).filter (· ≠ "")

/-- `str(raw.get(key, default)).strip() or default`. -/
def textOr (data : Dict) (key default : String) : String :=
  let text := strip (data.getD key (.str default)).pyStr
  if text = "" then default else text

namespace CatalogEntry

def fromDict (raw : Dict) : CatalogEntry := ⟨strip (raw.textAt "id"), raw⟩

variable (entry : CatalogEntry)

def name : String := strip (Dict.textAt entry.data "name")

def status : String := textOr entry.data "status" "planned"

def integrationLevel : String := textOr entry.data "integration_level" "metadata_only"

def isa : List String := strippedTexts entry.data "isa"

/-- `supported_test_suites`, as declared. -/
def declaredTestSuites : List String := strippedTexts entry.data "supported_test_suites"

def capabilityOrder : List (String × Int) :=
  [("metadata_only", 0), ("filelist_ready", 1), ("lint_ready", 2), ("elab_ready", 3), ("sim_ready", 4)]

def supports (capability : String) : Bool :=
  (capabilityOrder.lookup entry.integrationLevel).getD (-1) ≥
    (capabilityOrder.lookup capability).getD 10

def simReady : Bool := entry.supports "sim_ready"

def filelistReady : Bool :=
  entry.supports "filelist_ready" || (Dict.getD entry.data "cpu_filelist" .null).truthy

end CatalogEntry

/-! ## 2. The checks of a pair -/

variable (strLower : String → String)

/-- What one ISA name adds to `_expanded_isa_set`. -/
def expandedIsa (value : String) : List String :=
  let lowered := strLower value
  lowered :: (["rv32", "rv64", "loongarch32", "loongarch64"].filter fun base =>
    startsWith lowered.toList base)

def expandedIsaSet (values : List String) : List String := values.flatMap (expandedIsa strLower)

def intersection (a b : List String) : List String := a.filter (· ∈ b)

/-- `_isa_compatible(core, soc)` of compatibility.py. -/
def pairIsaCompatible (core soc : CatalogEntry) : Bool :=
  let coreIsa := expandedIsaSet strLower core.isa
  let socIsa := expandedIsaSet strLower soc.isa
  coreIsa = [] || socIsa = [] || intersection coreIsa socIsa ≠ []

/-- Two declared texts agree; a missing one agrees with all. -/
def declaredAgree (a b : String) : Bool := a = "" || b = "" || a = b

def cpuSocketCompatible (core soc : CatalogEntry) : Bool :=
  declaredAgree (strip (Dict.textAt core.data "cpu_socket_contract"))
    (strip (Dict.textAt soc.data "cpu_socket_contract"))

def resetVectorCompatible (core soc : CatalogEntry) : Bool :=
  declaredAgree (strLower (strip (Dict.textAt core.data "cpu_reset_vector")))
    (strLower (strip (Dict.textAt soc.data "cpu_reset_vector")))

/-! ## 3. The suites of a pair -/

/-- `implemented` of `_supported_test_suites`. -/
def implementedSuites (testSuites : List CatalogEntry) : List String :=
  (testSuites.filter fun suite => suite.status ≠ "planned").map (·.id)

def entrySupportedTestSuites (entry : CatalogEntry) (implemented : List String) : List String :=
  if entry.declaredTestSuites ≠ [] then implemented.filter (· ∈ entry.declaredTestSuites)
  else if entry.simReady then implemented
  else []

def supportedTestSuites (core soc : CatalogEntry) (testSuites : List CatalogEntry) : List String :=
  let implemented := implementedSuites testSuites
  implemented.filter fun suiteId =>
    suiteId ∈ entrySupportedTestSuites core implemented ∧
      suiteId ∈ entrySupportedTestSuites soc implemented

/-! ## 4. The compatibility entry -/

structure CompatibilityIssue where
  code : String
  message : String
  deriving DecidableEq

structure CompatibilityEntry where
  coreId : String
  socHarnessId : String
  canCreateWorkspace : Bool
  supportLevel : String
  status : String
  summary : String
  supportedTestSuites : List String
  issues : List CompatibilityIssue
  requiresCpuFilelist : Bool
  deriving DecidableEq

/-- The issues before the suites are looked at. -/
def pairIssues (core soc : CatalogEntry) : List CompatibilityIssue :=
  (if pairIsaCompatible strLower core soc then []
    else [⟨"isa_not_compatible", "CPU and SoC harness do not share a compatible ISA."⟩]) ++
  (if cpuSocketCompatible core soc then []
    else [⟨"socket_not_compatible", "CPU wrapper and SoC harness use different CPU socket contracts."⟩]) ++
  (if resetVectorCompatible strLower core soc then []
    else [⟨"reset_vector_not_compatible",
      "CPU reset vector does not match the SoC harness boot address contract."⟩]) ++
  (if core.simReady then []
    else [⟨"core_sim_adapter_not_ready", core.name ++ " is " ++ core.integrationLevel ++
      "; a simulation CPU wrapper is still required."⟩]) ++
  (if soc.simReady then []
    else [⟨"soc_sim_adapter_not_ready", soc.name ++ " is " ++ soc.integrationLevel ++
      "; a simulation SoC wrapper is still required."⟩])

def noCommonTestSuite : CompatibilityIssue :=
  ⟨"no_common_test_suite", "CPU and SoC harness do not have a common implemented test suite."⟩

def bothStable (core soc : CatalogEntry) : Bool := core.status = "stable" && soc.status = "stable"

/-- `_support_level(core, soc, can_create)`. -/
def pairSupportLevel (core soc : CatalogEntry) (canCreate : Bool) : String :=
  if !canCreate then "unsupported" else if bothStable core soc then "supported" else "experimental"

/-- `_status(core, soc, can_create)`. -/
def pairStatus (core soc : CatalogEntry) (canCreate : Bool) : String :=
  if canCreate then
    if requiresFilelist core then "requires_filelist"
    else if bothStable core soc then "ready"
    else "experimental"
  else if core.filelistReady && !core.simReady then "needs_cpu_adapter"
  else if soc.filelistReady && !soc.simReady then "needs_soc_adapter"
  else "planned"

/-- `_summary(core, soc, support_level, suites, issues)`. -/
def pairSummary (core soc : CatalogEntry) (supportLevel : String) (suites : List String)
    (issues : List CompatibilityIssue) : String :=
  match issues with
  | issue :: _ => issue.message
  | [] =>
      let suitesText := if suites = [] then "no tests" else ", ".intercalate suites
      if supportLevel = "supported" then
        core.name ++ " can run " ++ suitesText ++ " on " ++ soc.name ++ "."
      else core.name ++ " can experimentally run " ++ suitesText ++ " on " ++ soc.name ++ "."

/-- `suites` of `compatibility_for_pair`. -/
def pairSuites (core soc : CatalogEntry) (testSuites : List CatalogEntry) : List String :=
  if pairIssues strLower core soc = [] then supportedTestSuites core soc testSuites else []

/-- `issues` of `compatibility_for_pair`. -/
def allPairIssues (core soc : CatalogEntry) (testSuites : List CatalogEntry) :
    List CompatibilityIssue :=
  pairIssues strLower core soc ++
    (if core.simReady && soc.simReady && pairSuites strLower core soc testSuites = [] then
      [noCommonTestSuite] else [])

def compatibilityForPair (core soc : CatalogEntry) (testSuites : List CatalogEntry) :
    CompatibilityEntry :=
  let suites := pairSuites strLower core soc testSuites
  let issues := allPairIssues strLower core soc testSuites
  let canCreate := issues.isEmpty
  let supportLevel := pairSupportLevel core soc canCreate
  { coreId := core.id
    socHarnessId := soc.id
    canCreateWorkspace := canCreate
    supportLevel := supportLevel
    status := pairStatus core soc canCreate
    summary := pairSummary core soc supportLevel suites issues
    supportedTestSuites := suites
    issues := issues
    requiresCpuFilelist := requiresFilelist core }

def compatibilityMatrix (cores socHarnesses testSuites : List CatalogEntry) :
    List CompatibilityEntry :=
  cores.flatMap fun core => socHarnesses.map fun soc => compatibilityForPair strLower core soc testSuites

/-! ## 5. What an entry says -/

variable {strLower} {core soc : CatalogEntry} {testSuites : List CatalogEntry}

/-- A pair can be created exactly when it has no issue, the missing suite included. -/
theorem canCreate_iff :
    (compatibilityForPair strLower core soc testSuites).canCreateWorkspace = true ↔
      allPairIssues strLower core soc testSuites = [] :=
  List.isEmpty_iff

theorem pairIssues_eq_nil_iff :
    pairIssues strLower core soc = [] ↔ pairIsaCompatible strLower core soc = true ∧
      cpuSocketCompatible core soc = true ∧ resetVectorCompatible strLower core soc = true ∧
      core.simReady = true ∧ soc.simReady = true := by
  simp only [pairIssues, List.append_eq_nil_iff, ite_eq_left_iff, reduceCtorEq, imp_false,
    Bool.not_eq_true, Bool.not_eq_false, and_assoc]

theorem pairIssues_of_canCreate
    (h : (compatibilityForPair strLower core soc testSuites).canCreateWorkspace = true) :
    pairIssues strLower core soc = [] :=
  (List.append_eq_nil_iff.mp (canCreate_iff.mp h)).1

theorem mem_implementedSuites {suiteId : String} :
    suiteId ∈ implementedSuites testSuites ↔
      ∃ suite ∈ testSuites, suite.status ≠ "planned" ∧ suite.id = suiteId := by
  simp only [implementedSuites, List.mem_map, List.mem_filter, decide_eq_true_eq, and_assoc]

/-- A suite an entry supports is declared there, unless nothing is. -/
theorem declared_of_mem_entrySupported {entry : CatalogEntry} {implemented : List String}
    {suiteId : String} (h : suiteId ∈ entrySupportedTestSuites entry implemented) :
    entry.declaredTestSuites = [] ∨ suiteId ∈ entry.declaredTestSuites := by
  unfold entrySupportedTestSuites at h
  split at h
  · exact .inr (of_decide_eq_true (List.mem_filter.mp h).2)
  · rename_i hnone
    exact .inl (not_not.mp hnone)

theorem mem_supportedTestSuites {suiteId : String} :
    suiteId ∈ supportedTestSuites core soc testSuites ↔
      suiteId ∈ implementedSuites testSuites ∧
        suiteId ∈ entrySupportedTestSuites core (implementedSuites testSuites) ∧
        suiteId ∈ entrySupportedTestSuites soc (implementedSuites testSuites) := by
  simp only [supportedTestSuites, List.mem_filter, decide_eq_true_eq]

/-- The suites a pair lists. -/
theorem mem_entry_suites {suiteId : String} :
    suiteId ∈ (compatibilityForPair strLower core soc testSuites).supportedTestSuites ↔
      pairIssues strLower core soc = [] ∧ suiteId ∈ supportedTestSuites core soc testSuites := by
  show suiteId ∈ pairSuites strLower core soc testSuites ↔ _
  rw [pairSuites]
  split <;> simp [*]

theorem mem_compatibilityMatrix {cores socHarnesses : List CatalogEntry} {entry : CompatibilityEntry} :
    entry ∈ compatibilityMatrix strLower cores socHarnesses testSuites ↔
      ∃ core ∈ cores, ∃ soc ∈ socHarnesses,
        compatibilityForPair strLower core soc testSuites = entry := by
  simp only [compatibilityMatrix, List.mem_flatMap, List.mem_map]

end EccFe.Catalog
