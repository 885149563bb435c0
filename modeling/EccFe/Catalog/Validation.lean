/-
EccFe.Catalog.Validation — `validate_frontend_config` of `fecompiler/catalog/registry.py`, the gate
of workspace creation.

The gate looks its four entries up by id, checks the user's CPU filelist, takes the compatibility
entry of the pair in, and makes the ISA and suite checks again in its own way. Both agree: what the
gate accepts is offered (`offered_of_accepted`), and what is offered is accepted
(`accepted_of_offered`), for entries a configuration can name. `_read_id` rewrites some ids, so an
entry with such an id is never found (`renamed_soc_is_refused`).
-/
import Mathlib.Data.List.Nodup
import EccFe.Catalog.Compatibility

namespace EccFe.Catalog

open Python Search Resources Tools

/-! ## 1. The catalog -/

/-- `_catalog()`: entries read from dicts, with distinct ids in each category. -/
structure CatalogData where
  cores : List CatalogEntry
  socHarnesses : List CatalogEntry
  toolchains : List CatalogEntry
  testSuites : List CatalogEntry
  fromDicts : ∀ entry ∈ cores ++ socHarnesses ++ toolchains ++ testSuites,
    entry = .fromDict entry.data
  nodupCores : (cores.map (·.id)).Nodup
  nodupSocHarnesses : (socHarnesses.map (·.id)).Nodup
  nodupTestSuites : (testSuites.map (·.id)).Nodup
  nodupToolchains : (toolchains.map (·.id)).Nodup

/-- `_find(entries, entry_id)`. -/
def findEntry (entries : List CatalogEntry) (entryId : String) : Option CatalogEntry :=
  entries.find? (·.id = entryId)

/-- The ids of a configuration. -/
inductive IdField where
  | core
  | socHarness
  | toolchain
  | testSuite
  deriving DecidableEq

namespace IdField

def name : IdField → String
  | core => "core_id"
  | socHarness => "soc_harness_id"
  | toolchain => "toolchain_id"
  | testSuite => "test_suite_id"

/-- `aliases` of `_read_id`. -/
def keys : IdField → List String
  | core => ["core_id", "coreId", "frontend_core_id"]
  | socHarness => ["soc_harness_id", "socHarnessId", "soc_id", "soc_variant"]
  | toolchain => ["toolchain_id", "toolchainId"]
  | testSuite => ["test_suite_id", "testSuiteId", "sim_test_suite"]

def fallback : IdField → String
  | core => "custom-filelist"
  | socHarness => "ysyx-am-soc"
  | toolchain => "riscv32-unknown-elf"
  | testSuite => "cpu-tests"

end IdField

/-- The keys of `variant_map`. -/
def socVariants : List String :=
  ["SoC", "SoC2", "SoC3", "soc1", "soc2", "soc3", "ysyx-am-soc-alt", "ysyx-am-soc-extended"]

def normalizeSocId (value : String) : String := if value ∈ socVariants then "ysyx-am-soc" else value

/-- What `_read_id` makes of a text. -/
def normalizeId (field : IdField) (value : String) : String :=
  match field with
  | .socHarness => normalizeSocId value
  | .testSuite => if value = "cpu_tests" then "cpu-tests" else value
  | .core | .toolchain => value

def readId (config : Dict) (field : IdField) : String :=
  match (field.keys.map fun key => strip (config.textAt key)).find? (· ≠ "") with
  | some value => normalizeId field value
  | none => field.fallback

/-! ## 2. The CPU top and its filelist -/

variable (env : Env)

/-- `Path(text).expanduser()`, from the working directory. -/
def configPath (text : String) : AbsPath := env.host.cwd.join (env.host.expanduser (.ofText text))

def cpuTopIssues (core : Option CatalogEntry) (requestedCpuTop : String) : List ValidationIssue :=
  (if requestedCpuTop ≠ "" ∧ core.any (·.id ≠ "custom-filelist") then
    [⟨"error", "builtin_core_does_not_accept_cpu_top_module",
      "CPU top module can only be set when My CPU Top is selected.", "cpu_top_module"⟩] else []) ++
  (if requestedCpuTop ≠ "" ∧ SvModule.isSimpleSvIdentifier requestedCpuTop = false then
    [⟨"error", "invalid_cpu_top_module",
      "CPU top module is not a valid SystemVerilog identifier: " ++ requestedCpuTop,
      "cpu_top_module"⟩] else [])

def filelistNotFound (filelist : String) : ValidationIssue :=
  ⟨"error", "cpu_filelist_not_found", "CPU filelist not found: " ++ filelist, "cpu_filelist"⟩

/-- The checks of a CPU filelist the user gives. -/
def userFilelistIssues (core : Option CatalogEntry) (userCpuFilelist requiredCpuTop : String) :
    Except NumberError (List ValidationIssue) :=
  if userCpuFilelist = "" then .ok []
  else if env.fs.exists? (configPath env userCpuFilelist) = false then
    .ok [filelistNotFound userCpuFilelist]
  else
    match core with
    | none => .ok []
    | some core =>
        if requiresFilelist core then
          validateUserCpuFilelistContract env core (configPath env userCpuFilelist) requiredCpuTop
        else
          .ok [⟨"error", "builtin_core_does_not_accept_cpu_filelist",
            "Built-in CPUs use their bundled RTL. Select My CPU Top to provide a CPU filelist.",
            "cpu_filelist"⟩]

/-- A core that requires a filelist has no other than the user's. -/
def effectiveFilelistIssues (core : Option CatalogEntry) (userCpuFilelist : String) :
    List ValidationIssue :=
  match core with
  | none => []
  | some core =>
      if requiresFilelist core then
        if userCpuFilelist = "" then
          [⟨"error", "missing_cpu_filelist", "CPU filelist is required.", "cpu_filelist"⟩]
        else []
      else []

/-! ## 3. The combination -/

variable (strLower : String → String)

/-- `_isa_compatible(*entries)` of registry.py. -/
def isaCompatible (entries : List CatalogEntry) : Bool :=
  match (entries.filter (·.isa ≠ [])).map fun entry => expandedIsaSet strLower entry.isa with
  | [] => true
  | first :: rest => rest.foldl intersection first ≠ []

def suiteSupportedByHarness (testSuite soc : CatalogEntry) : Bool :=
  if soc.declaredTestSuites ≠ [] then testSuite.id ∈ soc.declaredTestSuites
  else
    let requirements := (Dict.getD testSuite.data "requires" (.arr [])).items.map Json.pyStr
    requirements = [] || soc.id ∈ requirements ||
      ("sim_ready_harness" ∈ requirements && soc.simReady) ||
      ("ysyx-am-soc" ∈ requirements && startsWith soc.id.toList "ysyx-am-soc") ||
      !requirements.any fun req => endsWith req.toList "-soc" || req = "sim_ready_harness"

def suiteSupportedByCore (testSuite core : CatalogEntry) : Bool :=
  core.declaredTestSuites = [] || testSuite.id ∈ core.declaredTestSuites

def coreAdapterMessage (core soc : CatalogEntry) : String :=
  if core.filelistReady then
    core.name ++ " has a built-in RTL filelist, but it does not yet have a simulation adapter for " ++
      soc.name ++ "."
  else
    core.name ++ " is listed as " ++ core.status ++
      "; use it as metadata until an adapter is implemented."

def wrapperContractIssue (core soc : CatalogEntry) : ValidationIssue :=
  ⟨"error", "catalog_wrapper_contract_violation",
    "Internal catalog error: CPU wrapper " ++ core.name ++ " declares " ++
      (Dict.getD core.data "cpu_socket_contract" (.str "unknown CPU socket")).pyStr ++
      ", but SoC wrapper " ++ soc.name ++ " declares " ++
      (Dict.getD soc.data "cpu_socket_contract" (.str "unknown CPU socket")).pyStr ++
      ". Wrapper authors must keep this contract consistent.", "catalog"⟩

/-- A suite the SoC does not have: an error where the SoC declares its suites, else a warning. -/
def harnessSuiteIssue (soc testSuite : CatalogEntry) : ValidationIssue :=
  if soc.declaredTestSuites ≠ [] then
    ⟨"error", "soc_test_suite_not_supported",
      testSuite.name ++ " is not declared for " ++ soc.name ++ ".", "test_suite_id"⟩
  else
    ⟨"warning", "suite_harness_contract",
      testSuite.name ++ " is not declared for " ++ soc.name ++ ".", "test_suite_id"⟩

/-- The issues of four entries that were found. -/
def combinationIssues (core soc toolchain testSuite : CatalogEntry)
    (compatibility : CompatibilityEntry) : List ValidationIssue :=
  (if isaCompatible strLower [core, soc, toolchain, testSuite] then []
    else [⟨"error", "isa_not_compatible",
      "Selected CPU, SoC harness, toolchain, and test suite do not share a compatible ISA.",
      "isa"⟩]) ++
  (if compatibility.canCreateWorkspace then []
    else compatibility.issues.map fun issue =>
      ⟨"error", issue.code, issue.message, "compatibility"⟩) ++
  (if cpuSocketCompatible core soc then [] else [wrapperContractIssue core soc]) ++
  (if core.simReady then []
    else [⟨"error", "core_sim_adapter_not_implemented", coreAdapterMessage core soc, "core_id"⟩]) ++
  (if soc.simReady then []
    else [⟨"error", "soc_adapter_not_implemented",
      soc.name ++ " is listed as " ++ soc.status ++ "; simulation is not wired yet.",
      "soc_harness_id"⟩]) ++
  (if suiteSupportedByHarness testSuite soc then [] else [harnessSuiteIssue soc testSuite]) ++
  (if testSuite.id ∈ compatibility.supportedTestSuites then []
    else [⟨"error", "combination_test_suite_not_supported",
      testSuite.name ++ " is not ready for " ++ core.name ++ " on " ++ soc.name ++ ".",
      "test_suite_id"⟩]) ++
  (if suiteSupportedByCore testSuite core then []
    else [⟨"error", "core_test_suite_not_supported",
      core.name ++ " does not support " ++ testSuite.name ++ " in the current ECOS adapter.",
      "test_suite_id"⟩]) ++
  (if testSuite.status = "planned" then
    [⟨"error", "test_suite_not_implemented",
      testSuite.name ++ " is listed as planned; its runner is not wired yet.", "test_suite_id"⟩]
    else [])

/-! ## 4. The gate -/

structure ValidationResult where
  ok : Bool
  supportLevel : String
  summary : String
  issues : List ValidationIssue
  deriving DecidableEq

def unknownIssue (field : IdField) (entryId : String) (entry : Option CatalogEntry) :
    List ValidationIssue :=
  if entry.isSome then []
  else [⟨"error", "unknown_catalog_id", "Unknown " ++ field.name ++ ": " ++ entryId, field.name⟩]

def summaryFor (supportLevel : String) (core soc testSuite : Option CatalogEntry) : String :=
  if supportLevel = "supported" then
    match core, soc, testSuite with
    | some core, some soc, some suite =>
        core.name ++ " can run " ++ suite.name ++ " on " ++ soc.name ++ "."
    | _, _, _ => "Configuration is supported."
  else if supportLevel = "experimental" then
    match core, soc, testSuite with
    | some core, some soc, some suite =>
        core.name ++ " can run " ++ suite.name ++ " on " ++ soc.name ++ " with experimental support."
    | _, _, _ => "Configuration is usable with experimental support."
  else if core.any fun core => core.filelistReady && !core.simReady then
    (core.map CatalogEntry.name).getD "" ++
      " RTL filelist is ready, but simulation workspace creation still needs a SoC adapter."
  else "Configuration is not ready to create a frontend workspace."

variable (catalog : CatalogData)

/-- The compatibility entry and the issues of the combination, once all four entries are found. -/
def combination (core soc toolchain testSuite : Option CatalogEntry) :
    Option CompatibilityEntry × List ValidationIssue :=
  match core, soc, toolchain, testSuite with
  | some core, some soc, some toolchain, some testSuite =>
      let compatibility := compatibilityForPair strLower core soc catalog.testSuites
      (some compatibility, combinationIssues strLower core soc toolchain testSuite compatibility)
  | _, _, _, _ => (none, [])

/-- The result for the issues found. -/
def validationResult (issues : List ValidationIssue) (compatibility : Option CompatibilityEntry)
    (core soc testSuite : Option CatalogEntry) : ValidationResult :=
  let hasErrors := issues.any (·.severity = "error")
  let supportLevel :=
    if hasErrors then "unsupported"
    else if issues.any (·.severity = "warning") then "experimental"
    else (compatibility.map (·.supportLevel)).getD "supported"
  { ok := !hasErrors, supportLevel := supportLevel,
    summary := summaryFor supportLevel core soc testSuite, issues := issues }

def validateFrontendConfig (config : Dict) : Except NumberError ValidationResult :=
  let core := findEntry catalog.cores (readId config .core)
  let soc := findEntry catalog.socHarnesses (readId config .socHarness)
  let toolchain := findEntry catalog.toolchains (readId config .toolchain)
  let testSuite := findEntry catalog.testSuites (readId config .testSuite)
  let requestedCpuTop := strip (config.textAt "cpu_top_module")
  let requiredCpuTop := (core.map fun core => requiredUserCpuTopModule core requestedCpuTop).getD ""
  let userCpuFilelist := strip (config.textAt "cpu_filelist")
  (userFilelistIssues env core userCpuFilelist requiredCpuTop).map fun filelistIssues =>
    let (compatibility, combined) := combination strLower catalog core soc toolchain testSuite
    validationResult
      (unknownIssue .core (readId config .core) core ++
        unknownIssue .socHarness (readId config .socHarness) soc ++
        unknownIssue .toolchain (readId config .toolchain) toolchain ++
        unknownIssue .testSuite (readId config .testSuite) testSuite ++
        cpuTopIssues core requestedCpuTop ++ filelistIssues ++
        effectiveFilelistIssues core userCpuFilelist ++ combined)
      compatibility core soc testSuite

/-! ## 5. Results without errors -/

def NoErrors (issues : List ValidationIssue) : Prop := ∀ issue ∈ issues, issue.severity ≠ "error"

theorem noErrors_append {a b : List ValidationIssue} : NoErrors (a ++ b) ↔ NoErrors a ∧ NoErrors b := by
  simp only [NoErrors, List.mem_append]
  constructor
  · exact fun h => ⟨fun i hi => h i (.inl hi), fun i hi => h i (.inr hi)⟩
  · exact fun h i hi => hi.elim (h.1 i) (h.2 i)

theorem noErrors_nil : NoErrors [] := fun _ h => absurd h List.not_mem_nil

theorem noErrors_singleton {issue : ValidationIssue} :
    NoErrors [issue] ↔ issue.severity ≠ "error" := by
  simp [NoErrors]

theorem validationResult_ok {issues : List ValidationIssue} {compatibility : Option CompatibilityEntry}
    {core soc testSuite : Option CatalogEntry} :
    (validationResult issues compatibility core soc testSuite).ok = true ↔ NoErrors issues := by
  simp only [validationResult, Bool.not_eq_true', List.any_eq_false, decide_eq_true_eq, NoErrors]

/-- A check that reports an error passed. -/
theorem of_noErrors_ite {p : Bool} {issue : ValidationIssue} (hissue : issue.severity = "error")
    (h : NoErrors (if p then [] else [issue])) : p = true := by
  cases p with
  | true => rfl
  | false => exact absurd hissue (noErrors_singleton.mp h)

/-! ## 6. Entries by id -/

theorem findEntry_of_mem {entries : List CatalogEntry} (hnodup : (entries.map (·.id)).Nodup)
    {entry : CatalogEntry} (hentry : entry ∈ entries) : findEntry entries entry.id = some entry := by
  cases hfind : findEntry entries entry.id with
  | none =>
    have hnone := List.find?_eq_none.mp hfind entry hentry
    simp at hnone
  | some other =>
    have hid : other.id = entry.id := by simpa using List.find?_some hfind
    rw [List.inj_on_of_nodup_map hnodup (List.mem_of_find?_eq_some hfind) hentry hid]

theorem id_of_findEntry {entries : List CatalogEntry} {entryId : String} {entry : CatalogEntry}
    (h : findEntry entries entryId = some entry) : entry ∈ entries ∧ entry.id = entryId :=
  ⟨List.mem_of_find?_eq_some h, by simpa using List.find?_some h⟩

theorem exists_of_unknownIssue {field : IdField} {entryId : String} {entry : Option CatalogEntry}
    (h : NoErrors (unknownIssue field entryId entry)) : ∃ found, entry = some found :=
  Option.isSome_iff_exists.mp (of_noErrors_ite rfl h)

/-- An id that a configuration can name. -/
def Nameable (field : IdField) (entry : CatalogEntry) : Prop :=
  entry.id ≠ "" ∧ normalizeId field entry.id = entry.id

/-- The configuration that names four entries. -/
def namingConfig (core soc toolchain testSuite : CatalogEntry) : Dict :=
  [("core_id", .str core.id), ("soc_harness_id", .str soc.id),
    ("toolchain_id", .str toolchain.id), ("test_suite_id", .str testSuite.id)]

theorem readId_of_first {config : Dict} {field : IdField} {entry : CatalogEntry}
    (hnameable : Nameable field entry) (hstrip : strip entry.id = entry.id)
    (hkey : config.textAt field.name = entry.id) : readId config field = entry.id := by
  have hfind : (field.keys.map fun key => strip (config.textAt key)).find? (· ≠ "") = some entry.id := by
    cases field <;>
      (rw [IdField.keys, List.map_cons, List.find?_cons]
       simp only [IdField.name] at hkey
       simp [hkey, hstrip, hnameable.1])
  rw [readId, hfind]
  exact hnameable.2

/-! ## 7. The ISA of four entries -/

/-- The ISA sets that are declared have a common element. -/
def CommonIsa (strLower : String → String) (entries : List CatalogEntry) : Prop :=
  ∃ isa, ∀ entry ∈ entries, entry.isa ≠ [] → isa ∈ expandedIsaSet strLower entry.isa

theorem mem_foldl_intersection {x : String} : ∀ {sets : List (List String)} {first : List String},
    x ∈ sets.foldl intersection first ↔ x ∈ first ∧ ∀ s ∈ sets, x ∈ s
  | [], first => by simp
  | s :: rest, first => by
      rw [List.foldl_cons, mem_foldl_intersection, intersection, List.mem_filter, decide_eq_true_eq,
        List.forall_mem_cons, and_assoc]

theorem isaCompatible_of_common {entries : List CatalogEntry} (h : CommonIsa strLower entries) :
    isaCompatible strLower entries = true := by
  obtain ⟨isa, hisa⟩ := h
  have hall : ∀ s ∈ (entries.filter (·.isa ≠ [])).map fun entry => expandedIsaSet strLower entry.isa,
      isa ∈ s := by
    intro s hs
    obtain ⟨entry, hentry, rfl⟩ := List.mem_map.mp hs
    obtain ⟨hmem, hne⟩ := List.mem_filter.mp hentry
    exact hisa entry hmem (of_decide_eq_true hne)
  unfold isaCompatible
  split
  · rfl
  · rename_i first rest heq
    rw [heq] at hall
    have hmem : isa ∈ rest.foldl intersection first :=
      mem_foldl_intersection.mpr ⟨hall first List.mem_cons_self, fun s hs =>
        hall s (List.mem_cons_of_mem _ hs)⟩
    exact decide_eq_true (List.ne_nil_of_mem hmem)

/-! ## 8. The combination and the entry -/

section

variable {strLower} {core soc toolchain testSuite : CatalogEntry} {testSuites : List CatalogEntry}

/-- A combination without errors is offered, with its suite. -/
theorem offered_of_noErrors (h : NoErrors (combinationIssues strLower core soc toolchain testSuite
      (compatibilityForPair strLower core soc testSuites))) :
    (compatibilityForPair strLower core soc testSuites).canCreateWorkspace = true ∧
      testSuite.id ∈ (compatibilityForPair strLower core soc testSuites).supportedTestSuites := by
  simp only [combinationIssues, noErrors_append] at h
  obtain ⟨⟨⟨⟨⟨⟨⟨⟨-, hpair⟩, -⟩, -⟩, -⟩, -⟩, hsuite⟩, -⟩, -⟩ := h
  constructor
  · by_contra hcannot
    rw [if_neg hcannot] at hpair
    refine hcannot (canCreate_iff.mpr (List.eq_nil_iff_forall_not_mem.mpr fun issue hissue => ?_))
    exact hpair _ (List.mem_map_of_mem hissue) rfl
  · by_contra hnot
    rw [if_neg hnot] at hsuite
    exact noErrors_singleton.mp hsuite rfl

/-- What an offered combination is checked for, it passes; a suite its SoC does not require is at
most a warning. -/
theorem noErrors_of_offered
    (hoffered : (compatibilityForPair strLower core soc testSuites).canCreateWorkspace = true)
    (hsuite : testSuite.id ∈ (compatibilityForPair strLower core soc testSuites).supportedTestSuites)
    (himplemented : testSuite.status ≠ "planned")
    (hisa : CommonIsa strLower [core, soc, toolchain, testSuite]) :
    NoErrors (combinationIssues strLower core soc toolchain testSuite
      (compatibilityForPair strLower core soc testSuites)) := by
  obtain ⟨-, hsocket, -, hcore, hsoc⟩ := pairIssues_eq_nil_iff.mp (pairIssues_of_canCreate hoffered)
  obtain ⟨-, hcoreSuite, hsocSuite⟩ := mem_supportedTestSuites.mp (mem_entry_suites.mp hsuite).2
  have hbyCore : suiteSupportedByCore testSuite core = true := by
    rcases declared_of_mem_entrySupported hcoreSuite with h | h <;> simp [suiteSupportedByCore, h]
  have hharness : NoErrors (if suiteSupportedByHarness testSuite soc then []
      else [harnessSuiteIssue soc testSuite]) := by
    by_cases hdeclared : soc.declaredTestSuites = []
    · split
      · exact noErrors_nil
      · rw [harnessSuiteIssue, if_neg (by simp [hdeclared]), noErrors_singleton]
        have hwarning : "warning" ≠ "error" := by decide
        exact hwarning
    · have hmem := (declared_of_mem_entrySupported hsocSuite).resolve_left hdeclared
      rw [suiteSupportedByHarness, if_pos hdeclared, if_pos (decide_eq_true hmem)]
      exact noErrors_nil
  simp only [combinationIssues, noErrors_append, isaCompatible_of_common strLower hisa, hoffered,
    hsocket, hcore, hsoc, hsuite, hbyCore, himplemented, if_true, if_false, noErrors_nil, and_true,
    true_and]
  exact hharness

/-- With distinct ids a suite that is listed is implemented. -/
theorem implemented_of_listed (hnodup : (testSuites.map (·.id)).Nodup) (hmem : testSuite ∈ testSuites)
    (hlisted : testSuite.id ∈ (compatibilityForPair strLower core soc testSuites).supportedTestSuites) :
    testSuite.status ≠ "planned" := by
  obtain ⟨himplemented, -, -⟩ := mem_supportedTestSuites.mp (mem_entry_suites.mp hlisted).2
  obtain ⟨other, hother, hstatus, hid⟩ := mem_implementedSuites.mp himplemented
  rwa [← List.inj_on_of_nodup_map hnodup hother hmem hid]

end

/-! ## 9. The gate and the offers -/

section

variable {env strLower catalog}

/-- What the gate accepts was found and has no errors in any part. -/
theorem parts_of_accepted {config : Dict} {result : ValidationResult}
    (hresult : validateFrontendConfig env strLower catalog config = .ok result)
    (hok : result.ok = true) :
    ∃ core soc toolchain testSuite,
      findEntry catalog.cores (readId config .core) = some core ∧
      findEntry catalog.socHarnesses (readId config .socHarness) = some soc ∧
      findEntry catalog.toolchains (readId config .toolchain) = some toolchain ∧
      findEntry catalog.testSuites (readId config .testSuite) = some testSuite ∧
      NoErrors (combinationIssues strLower core soc toolchain testSuite
        (compatibilityForPair strLower core soc catalog.testSuites)) := by
  rw [validateFrontendConfig, map_eq_ok] at hresult
  obtain ⟨filelistIssues, -, rfl⟩ := hresult
  rw [validationResult_ok] at hok
  simp only [noErrors_append] at hok
  obtain ⟨⟨⟨⟨⟨⟨⟨hcore, hsoc⟩, htoolchain⟩, hsuite⟩, -⟩, -⟩, -⟩, hcombined⟩ := hok
  obtain ⟨core, hcore⟩ := exists_of_unknownIssue hcore
  obtain ⟨soc, hsoc⟩ := exists_of_unknownIssue hsoc
  obtain ⟨toolchain, htoolchain⟩ := exists_of_unknownIssue htoolchain
  obtain ⟨testSuite, hsuite⟩ := exists_of_unknownIssue hsuite
  rw [hcore, hsoc, htoolchain, hsuite] at hcombined
  exact ⟨core, soc, toolchain, testSuite, hcore, hsoc, htoolchain, hsuite, hcombined⟩

/-- What the gate accepts is offered: the one entry of the pair lists the suite. -/
theorem offered_of_accepted {config : Dict} {result : ValidationResult}
    (hresult : validateFrontendConfig env strLower catalog config = .ok result)
    (hok : result.ok = true) :
    ∃ entry ∈ compatibilityMatrix strLower catalog.cores catalog.socHarnesses catalog.testSuites,
      (entry.coreId = readId config .core ∧ entry.socHarnessId = readId config .socHarness) ∧
      entry.canCreateWorkspace = true ∧ readId config .testSuite ∈ entry.supportedTestSuites ∧
      ∀ other ∈ compatibilityMatrix strLower catalog.cores catalog.socHarnesses catalog.testSuites,
        other.coreId = readId config .core → other.socHarnessId = readId config .socHarness →
          other = entry := by
  obtain ⟨core, soc, toolchain, testSuite, hcore, hsoc, -, hsuite, hnone⟩ :=
    parts_of_accepted hresult hok
  obtain ⟨hcoreMem, hcoreId⟩ := id_of_findEntry hcore
  obtain ⟨hsocMem, hsocId⟩ := id_of_findEntry hsoc
  obtain ⟨hcan, hlists⟩ := offered_of_noErrors hnone
  refine ⟨_, mem_compatibilityMatrix.mpr ⟨core, hcoreMem, soc, hsocMem, rfl⟩, ⟨hcoreId, hsocId⟩, hcan,
    ?_, ?_⟩
  · rw [← (id_of_findEntry hsuite).2]
    exact hlists
  · intro other hother hotherCore hotherSoc
    obtain ⟨core', hcore', soc', hsoc', rfl⟩ := mem_compatibilityMatrix.mp hother
    rw [List.inj_on_of_nodup_map catalog.nodupCores hcore' hcoreMem (hotherCore.trans hcoreId.symm),
      List.inj_on_of_nodup_map catalog.nodupSocHarnesses hsoc' hsocMem (hotherSoc.trans hsocId.symm)]

theorem strip_id (entry : CatalogEntry) (hread : entry = .fromDict entry.data) :
    strip entry.id = entry.id := by
  rw [hread]
  exact strip_idem _

/-- What is offered is accepted. -/
theorem accepted_of_offered {core soc toolchain testSuite : CatalogEntry}
    (hcore : core ∈ catalog.cores) (hsoc : soc ∈ catalog.socHarnesses)
    (htoolchain : toolchain ∈ catalog.toolchains) (hsuite : testSuite ∈ catalog.testSuites)
    (hoffered : (compatibilityForPair strLower core soc catalog.testSuites).canCreateWorkspace = true)
    (hfilelist : (compatibilityForPair strLower core soc catalog.testSuites).requiresCpuFilelist = false)
    (hlisted : testSuite.id ∈
      (compatibilityForPair strLower core soc catalog.testSuites).supportedTestSuites)
    (hisa : CommonIsa strLower [core, soc, toolchain, testSuite])
    (hnames : Nameable .core core ∧ Nameable .socHarness soc ∧ Nameable .toolchain toolchain ∧
      Nameable .testSuite testSuite) :
    ∃ result, validateFrontendConfig env strLower catalog (namingConfig core soc toolchain testSuite) =
      .ok result ∧ result.ok = true := by
  obtain ⟨hnameCore, hnameSoc, hnameToolchain, hnameSuite⟩ := hnames
  have hread := catalog.fromDicts
  have hcoreId : readId (namingConfig core soc toolchain testSuite) .core = core.id :=
    readId_of_first hnameCore (strip_id core (hread core (by simp [hcore]))) rfl
  have hsocId : readId (namingConfig core soc toolchain testSuite) .socHarness = soc.id :=
    readId_of_first hnameSoc (strip_id soc (hread soc (by simp [hsoc]))) rfl
  have htoolchainId : readId (namingConfig core soc toolchain testSuite) .toolchain = toolchain.id :=
    readId_of_first hnameToolchain (strip_id toolchain (hread toolchain (by simp [htoolchain]))) rfl
  have hsuiteId : readId (namingConfig core soc toolchain testSuite) .testSuite = testSuite.id :=
    readId_of_first hnameSuite (strip_id testSuite (hread testSuite (by simp [hsuite]))) rfl
  have htop : strip (Dict.textAt (namingConfig core soc toolchain testSuite) "cpu_top_module") = "" := by
    show strip "" = ""
    decide
  have huser : strip (Dict.textAt (namingConfig core soc toolchain testSuite) "cpu_filelist") = "" := by
    show strip "" = ""
    decide
  have hrequires : requiresFilelist core = false := hfilelist
  have hcombined := noErrors_of_offered hoffered hlisted
    (implemented_of_listed catalog.nodupTestSuites hsuite hlisted) hisa
  rw [validateFrontendConfig, hcoreId, hsocId, htoolchainId, hsuiteId, htop, huser,
    findEntry_of_mem catalog.nodupCores hcore, findEntry_of_mem catalog.nodupSocHarnesses hsoc,
    findEntry_of_mem catalog.nodupToolchains htoolchain,
    findEntry_of_mem catalog.nodupTestSuites hsuite]
  refine ⟨_, rfl, ?_⟩
  rw [validationResult_ok]
  simp only [noErrors_append, unknownIssue, cpuTopIssues, effectiveFilelistIssues, hrequires,
    Option.isSome_some, if_true, if_false, ne_eq, not_true_eq_false, false_and, noErrors_nil,
    Bool.false_eq_true, true_and]
  exact hcombined

end

/-- The gate and the offers agree, for entries a configuration can name. -/
theorem gate_agrees_with_offers (env : Env) (strLower : String → String) (catalog : CatalogData) :
    (∀ config result, validateFrontendConfig env strLower catalog config = .ok result →
      result.ok = true →
      ∃ entry ∈ compatibilityMatrix strLower catalog.cores catalog.socHarnesses catalog.testSuites,
        (entry.coreId = readId config .core ∧ entry.socHarnessId = readId config .socHarness) ∧
        entry.canCreateWorkspace = true ∧ readId config .testSuite ∈ entry.supportedTestSuites ∧
        ∀ other ∈ compatibilityMatrix strLower catalog.cores catalog.socHarnesses catalog.testSuites,
          other.coreId = readId config .core → other.socHarnessId = readId config .socHarness →
            other = entry) ∧
      ∀ core ∈ catalog.cores, ∀ soc ∈ catalog.socHarnesses, ∀ toolchain ∈ catalog.toolchains,
        ∀ testSuite ∈ catalog.testSuites,
        (compatibilityForPair strLower core soc catalog.testSuites).canCreateWorkspace = true →
        (compatibilityForPair strLower core soc catalog.testSuites).requiresCpuFilelist = false →
        testSuite.id ∈
          (compatibilityForPair strLower core soc catalog.testSuites).supportedTestSuites →
        CommonIsa strLower [core, soc, toolchain, testSuite] →
        Nameable .core core ∧ Nameable .socHarness soc ∧ Nameable .toolchain toolchain ∧
          Nameable .testSuite testSuite →
        ∃ result, validateFrontendConfig env strLower catalog
          (namingConfig core soc toolchain testSuite) = .ok result ∧ result.ok = true :=
  ⟨fun _ _ hresult hok => offered_of_accepted hresult hok,
    fun _ hcore _ hsoc _ htoolchain _ hsuite hoffered hfilelist hlisted hisa hnames =>
      accepted_of_offered hcore hsoc htoolchain hsuite hoffered hfilelist hlisted hisa hnames⟩

def readyCore : CatalogEntry := .fromDict [("id", .str "gcd"), ("integration_level", .str "sim_ready")]

def readySoc (id : String) : CatalogEntry :=
  .fromDict [("id", .str id), ("integration_level", .str "sim_ready"), ("isa", .arr [.str "RV32IM"])]

def gccToolchain : CatalogEntry := .fromDict [("id", .str "gcc"), ("isa", .arr [.str "rv32imac"])]

def plainSuite : CatalogEntry := .fromDict [("id", .str "smoke"), ("status", .str "stable")]

/-- A catalog with one entry of each category, all ready. -/
def readyCatalog (socId : String) : CatalogData where
  cores := [readyCore]
  socHarnesses := [readySoc socId]
  toolchains := [gccToolchain]
  testSuites := [plainSuite]
  fromDicts := by
    intro entry hentry
    simp only [List.cons_append, List.nil_append, List.mem_cons, List.not_mem_nil, or_false] at hentry
    rcases hentry with rfl | rfl | rfl | rfl <;> rfl
  nodupCores := List.nodup_singleton _
  nodupSocHarnesses := List.nodup_singleton _
  nodupTestSuites := List.nodup_singleton _
  nodupToolchains := List.nodup_singleton _

theorem gate_accepts_ready :
    ∃ result, validateFrontendConfig (Env.ofNodes []) lower (readyCatalog "demo-soc")
      (namingConfig readyCore (readySoc "demo-soc") gccToolchain plainSuite) = .ok result ∧
        result.ok = true :=
  (gate_agrees_with_offers (Env.ofNodes []) lower (readyCatalog "demo-soc")).2
    readyCore List.mem_cons_self (readySoc "demo-soc") List.mem_cons_self gccToolchain
    List.mem_cons_self plainSuite List.mem_cons_self (by decide +kernel) (by decide +kernel)
    (by decide +kernel) ⟨"rv32", by decide +kernel⟩
    ⟨⟨by decide +kernel, by decide +kernel⟩, ⟨by decide +kernel, by decide +kernel⟩,
      ⟨by decide +kernel, by decide +kernel⟩, ⟨by decide +kernel, by decide +kernel⟩⟩

/-- A SoC called `soc1` is offered, and no configuration finds it. -/
theorem renamed_soc_is_refused :
    (compatibilityForPair lower readyCore (readySoc "soc1") [plainSuite]).canCreateWorkspace = true ∧
      (compatibilityForPair lower readyCore (readySoc "soc1") [plainSuite]).requiresCpuFilelist =
        false ∧
      plainSuite.id ∈
        (compatibilityForPair lower readyCore (readySoc "soc1") [plainSuite]).supportedTestSuites ∧
      CommonIsa lower [readyCore, readySoc "soc1", gccToolchain, plainSuite] ∧
      (validateFrontendConfig (Env.ofNodes []) lower (readyCatalog "soc1")
        (namingConfig readyCore (readySoc "soc1") gccToolchain plainSuite)).toOption.map (·.ok) =
        some false :=
  ⟨by decide +kernel, by decide +kernel, by decide +kernel, ⟨"rv32", by decide +kernel⟩,
    by decide +kernel⟩

end EccFe.Catalog
