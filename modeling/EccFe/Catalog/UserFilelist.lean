/-
EccFe.Catalog.UserFilelist — the checks `fecompiler/catalog/registry.py` makes on a
user's CPU filelist before a workspace is created.

`parseUserCpuFilelist` is the catalog's own reader of the filelist language. It
looks at every word of a line, relocates third-party paths, knows `-fX`, and
reports what is missing instead of raising. `validateUserCpuFilelistContract`
counts the definitions of the required top among the files it found and compares
the ports of the first one with the interface the core declares.
-/
import EccFe.Tools.SvModule

namespace EccFe.Catalog

open Python Search Resources Tools
open RtlInputs (isFilelistOption attachedFilelist?)
open SvModule (Port declaredPorts portByName moduleDefinitions modulePortContractFromFiles)

/-- The fields of a catalog entry the checks read. -/
structure CatalogEntry where
  id : String
  data : Dict

structure ValidationIssue where
  severity : String
  code : String
  message : String
  field : String
  deriving DecidableEq

/-! ## 1. The catalog's filelist reader -/

inductive UserEntry where
  | file (path : AbsPath)
  | missing (path : AbsPath)
  | define (text : String)
  deriving DecidableEq

def rtlSuffixes : List String := [".v", ".sv", ".vh", ".svh"]

def filelistTokens (raw : List Char) : List String :=
  let line := stripBy isSpace raw
  if line.isEmpty || startsWith line "#" || startsWith line "//" || startsWith line "`" then []
  else ((shlexSplit line).getD (splitSpaces line)).map String.ofList

def isRtlPathToken (token : String) : Bool :=
  if startsWith token.toList "+" || startsWith token.toList "-" || startsWith token.toList "$" then
    false
  else lower (PurePath.ofText token).suffix ∈ rtlSuffixes

def resolveFilelistToken (env : Env) (base : AbsPath) (token : String) : AbsPath :=
  resolveThirdpartyPath env (base.join (env.host.expanduser (.ofText (stripQuotes token))))

def nestedItems (env : Env) (base : AbsPath) (nested : String) :
    List (Item AbsPath UserEntry Empty) :=
  if nested = "" then []
  else
    let path := resolveFilelistToken env base nested
    if env.fs.isFile path then [.child path] else [.emit (.missing path)]

def defineItems (token : String) : List (Item AbsPath UserEntry Empty) :=
  let payload := token.toList.drop "+define+".length
  (((splitOnChar '+' payload).map fun piece => strip (String.ofList piece)).filter (· ≠ "")).map
    fun define => .emit (.define define)

/-- A word that names no nested list. -/
def plainItems (env : Env) (base : AbsPath) (token : String) : List (Item AbsPath UserEntry Empty) :=
  if startsWith token.toList "+define+" then defineItems token
  else if !isRtlPathToken token then []
  else
    let path := resolveFilelistToken env base token
    if env.fs.isFile path then [.emit (.file path)] else [.emit (.missing path)]

/-- A word that is not followed by the name of a nested list. -/
def singleItems (env : Env) (base : AbsPath) (token : String) :
    List (Item AbsPath UserEntry Empty) :=
  match attachedFilelist? token with
  | some nested => nestedItems env base nested
  | none => plainItems env base token

/-- The loop over the words of a line. -/
def tokenItems (env : Env) (base : AbsPath) : List String → List (Item AbsPath UserEntry Empty)
  | [] => []
  | [token] => singleItems env base token
  | token :: value :: rest =>
      if isFilelistOption token then nestedItems env base value ++ tokenItems env base rest
      else singleItems env base token ++ tokenItems env base (value :: rest)

def userLine (env : Env) (base : AbsPath) (raw : List Char) : List (Item AbsPath UserEntry Empty) :=
  tokenItems env base (filelistTokens raw)

/-- One call on the resolved path of a filelist. -/
def userItems (env : Env) (path : AbsPath) : List (Item AbsPath UserEntry Empty) :=
  match env.fs.readBytes path with
  | none => [.emit (.missing path)]
  | some bytes => (textLines (decodeIgnore bytes)).flatMap (userLine env path.parent)

/-- What the reader returns, in order. -/
structure UserCpuFilelist where
  files : List AbsPath
  missing : List AbsPath
  defines : List String

def UserCpuFilelist.ofEntries (entries : List UserEntry) : UserCpuFilelist where
  files := entries.filterMap fun
    | .file path => some path
    | _ => none
  missing := entries.filterMap fun
    | .missing path => some path
    | _ => none
  defines := entries.filterMap fun
    | .define text => some text
    | _ => none

def parseUserCpuFilelist (env : Env) (filelistPath : AbsPath) : UserCpuFilelist :=
  match expandFrom (userItems env) env.fs.files (env.fs.realpath filelistPath) with
  | .ok (entries, _) => .ofEntries entries
  | .error _ => .ofEntries []

theorem mem_files_iff {entries : List UserEntry} {p : AbsPath} :
    p ∈ (UserCpuFilelist.ofEntries entries).files ↔ .file p ∈ entries := by
  rw [UserCpuFilelist.ofEntries, List.mem_filterMap]
  constructor
  · rintro ⟨entry, hmem, heq⟩
    cases entry with
    | file path =>
      cases heq
      exact hmem
    | missing _ | define _ => cases heq
  · exact fun h => ⟨.file p, h, rfl⟩

theorem mem_missing_iff {entries : List UserEntry} {p : AbsPath} :
    p ∈ (UserCpuFilelist.ofEntries entries).missing ↔ .missing p ∈ entries := by
  rw [UserCpuFilelist.ofEntries, List.mem_filterMap]
  constructor
  · rintro ⟨entry, hmem, heq⟩
    cases entry with
    | missing path =>
      cases heq
      exact hmem
    | file _ | define _ => cases heq
  · exact fun h => ⟨.missing p, h, rfl⟩

theorem child_nestedItems_iff {env : Env} {base : AbsPath} {nested : String} {c : AbsPath} :
    .child c ∈ nestedItems env base nested ↔ nested ≠ "" ∧ env.fs.isFile c = true ∧
      c = resolveFilelistToken env base nested := by
  rw [nestedItems]
  split
  · simp [*]
  · rename_i hnested
    dsimp only
    split
    · rename_i hfile
      rw [List.mem_singleton, Item.child.injEq]
      constructor
      · rintro rfl
        exact ⟨hnested, hfile, rfl⟩
      · exact fun h => h.2.2
    · rename_i hfile
      simp only [List.mem_singleton, reduceCtorEq, false_iff]
      rintro ⟨-, hc, rfl⟩
      exact hfile hc

theorem child_not_mem_plainItems {env : Env} {base : AbsPath} {token : String} {c : AbsPath} :
    .child c ∉ plainItems env base token := by
  rw [plainItems]
  split
  · simp [defineItems]
  split
  · simp
  · dsimp only
    split <;> simp

/-- Nested lists are named by canonical paths. -/
theorem realpath_tokenItems_child {env : Env} {base c : AbsPath} : ∀ tokens : List String,
    .child c ∈ tokenItems env base tokens → env.fs.realpath c = c := by
  have hnested : ∀ nested, .child c ∈ nestedItems env base nested → env.fs.realpath c = c := by
    intro nested h
    obtain ⟨-, -, rfl⟩ := child_nestedItems_iff.mp h
    exact realpath_resolveThirdpartyPath env _
  have hsingle : ∀ token, .child c ∈ singleItems env base token → env.fs.realpath c = c := by
    intro token h
    rw [singleItems] at h
    split at h
    · exact hnested _ h
    · exact absurd h child_not_mem_plainItems
  intro tokens
  induction tokens using tokenItems.induct with
  | case1 => intro h; simp [tokenItems] at h
  | case2 token => exact hsingle token
  | case3 token value rest hoption ih =>
    intro h
    rw [tokenItems, if_pos hoption, List.mem_append] at h
    exact h.elim (hnested value) ih
  | case4 token value rest hoption ih =>
    intro h
    rw [tokenItems, if_neg hoption, List.mem_append] at h
    exact h.elim (hsingle token) ih

theorem line_of_includes {env : Env} {x c : AbsPath} (h : Includes (userItems env) x c) :
    ∃ bytes, env.fs.readBytes x = some bytes ∧ env.fs.realpath c = c := by
  rw [Includes, userItems] at h
  split at h
  · simp at h
  · rename_i bytes hread
    obtain ⟨raw, -, hmem⟩ := List.mem_flatMap.mp h
    exact ⟨bytes, hread, realpath_tokenItems_child _ hmem⟩

theorem realpath_of_reaches {env : Env} {root x : AbsPath}
    (h : Reaches (userItems env) (env.fs.realpath root) x) : env.fs.realpath x = x := by
  rcases Relation.ReflTransGen.cases_tail h with rfl | ⟨y, -, hyx⟩
  · exact env.fs.realpath_idem root
  · exact (line_of_includes hyx).choose_spec.2

/-- The reader returns. -/
theorem parseUserCpuFilelist_eq (env : Env) (root : AbsPath) :
    ∃ entries opened, expandFrom (userItems env) env.fs.files (env.fs.realpath root) =
        .ok (entries, opened) ∧
      parseUserCpuFilelist env root = .ofEntries entries := by
  have hleaf : ∀ x, Reaches (userItems env) (env.fs.realpath root) x →
      ∀ c, Includes (userItems env) x c → x ∈ env.fs.files := by
    intro x hx c hc
    obtain ⟨bytes, hread, -⟩ := line_of_includes hc
    rw [← realpath_of_reaches hx]
    exact FileSystem.mem_files_of_readBytes hread
  obtain ⟨⟨entries, opened⟩, hrun⟩ := (expandFrom_ok_iff hleaf).mpr fun x _ e => e.elim
  exact ⟨entries, opened, hrun, by rw [parseUserCpuFilelist, hrun]⟩

/-! ## 2. The interface a core requires -/

def requiresFilelist (core : CatalogEntry) : Bool :=
  (Dict.getD core.data "requires_filelist" .null).truthy

def requiredUserCpuTopModule (core : CatalogEntry) (requestedTop : String) : String :=
  if !requiresFilelist core then ""
  else if core.id = "custom-filelist" ∧ requestedTop ≠ "" then requestedTop
  else
    let named := (["required_cpu_top_module", "cpu_wrapper_top"].map fun field =>
      Dict.getD core.data field .null).find? Json.truthy
    strip ((named.getD (.str "cpu_top")).pyStr)

def requiredUserCpuTopPorts (core : CatalogEntry) : List String :=
  if !requiresFilelist core then []
  else ((Dict.getD core.data "required_cpu_top_ports" .null).items.map fun port =>
    strip port.pyStr).filter (· ≠ "")

def requiredUserCpuTopPortContract (core : CatalogEntry) : Except NumberError (List Port) :=
  if !requiresFilelist core then .ok []
  else declaredPorts (Dict.getD core.data "required_cpu_top_port_contract" .null).items

/-! ## 3. The validation -/

def filelistIssue (code message : String) : ValidationIssue :=
  ⟨"error", code, message, "cpu_filelist"⟩

def missingIssue (path : AbsPath) : ValidationIssue :=
  filelistIssue "cpu_filelist_rtl_not_found"
    ("RTL file referenced by CPU filelist was not found: " ++ PurePath.absText path)

def topCountIssue (requiredTop : String) (topCount : Nat) : ValidationIssue :=
  filelistIssue (if topCount = 0 then "cpu_top_module_not_found" else "cpu_top_module_count_mismatch")
    ("CPU filelist must define exactly one CPU top module " ++ requiredTop ++ "; found " ++
      String.ofList (natText topCount) ++ ".")

def portNamesIssue (requiredTop : String) (missing extra : List String) : ValidationIssue :=
  let detail := (if missing = [] then [] else ["missing: " ++ ", ".intercalate missing]) ++
    (if extra = [] then [] else ["extra: " ++ ", ".intercalate extra])
  filelistIssue "cpu_top_ports_mismatch" ("CPU top module " ++ requiredTop ++
    " ports must match the required interface (" ++ "; ".intercalate detail ++ ").")

def portMismatchTexts (requiredPorts : List String) (expected found : List Port) : List String :=
  requiredPorts.filterMap fun name =>
    match portByName expected name, portByName found name with
    | some e, some a =>
        if e.direction ≠ a.direction ∨ e.width ≠ a.width then some (SvModule.portMismatchText name e a)
        else none
    | _, _ => none

def portContractIssue (requiredTop : String) (mismatches : List String) : ValidationIssue :=
  filelistIssue "cpu_top_port_contract_mismatch" ("CPU top module " ++ requiredTop ++
    " port direction/width mismatch (" ++ "; ".intercalate mismatches ++ ").")

/-- The port part of the validation, for the ports found. -/
def portIssues (core : CatalogEntry) (requiredTop : String) (found : List Port) :
    Except NumberError (List ValidationIssue) :=
  let requiredPorts := requiredUserCpuTopPorts core
  if requiredPorts = [] then .ok []
  else
    let foundPorts := found.map (·.name)
    let missing := requiredPorts.filter (· ∉ foundPorts)
    let extra := foundPorts.filter (· ∉ requiredPorts)
    if missing ≠ [] ∨ extra ≠ [] then .ok [portNamesIssue requiredTop missing extra]
    else
      (requiredUserCpuTopPortContract core).map fun expected =>
        let mismatches := portMismatchTexts requiredPorts expected found
        if mismatches = [] then [] else [portContractIssue requiredTop mismatches]

def validateUserCpuFilelistContract (env : Env) (core : CatalogEntry) (filelistPath : AbsPath)
    (requiredTop : String) : Except NumberError (List ValidationIssue) :=
  if requiredTop = "" then .ok []
  else
    let parsed := parseUserCpuFilelist env filelistPath
    let issues := parsed.missing.map missingIssue
    let topCount := (moduleDefinitions env parsed.files requiredTop).length
    if topCount ≠ 1 then .ok (issues ++ [topCountIssue requiredTop topCount])
    else
      let found := (modulePortContractFromFiles env parsed.files requiredTop).2
      (portIssues core requiredTop found).map fun more => issues ++ more

end EccFe.Catalog
