/-
EccFe.Tools.RtlOwnership — `fecompiler/tools/common/rtl_ownership.py`: whose RTL a
source file is.

The prepare step's manifest names the owner of the sources it knows; any other path
is classified by where it lies. Resolving a path can raise: `expanduser` knows no
home directory for a user, and `resolve` refuses a NUL. `rtl_ownership_map` catches
the second on the manifest's own paths and `rtl_source_ownership` catches neither.
-/
import EccFe.Engine.Step
import EccFe.Tools.RtlInputs
import EccFe.Python.Number

namespace EccFe.Tools.RtlOwnership

open Python Engine RtlInputs

inductive OwnershipError where
  /-- A path with a NUL, or an unsupported design kind. -/
  | valueError
  /-- `Could not determine home directory.` -/
  | runtimeError
  /-- A workspace value that is no text where a path is read. -/
  | typeError
  /-- A path that is there but is no readable file. -/
  | osError
  deriving DecidableEq

def rtlOwnerships : List String :=
  ["cpu", "design", "adapter", "soc", "generated", "third_party", "tool", "unknown"]

/-- `normalize_frontend_design_kind(value)`; `none` when it raises. -/
def normalizeFrontendDesignKind (value : Json) : Option DesignKind :=
  let normalized := String.ofList ((lower (strip value.textOrEmpty)).toList.map fun c =>
    if c == '-' then '_' else c)
  if normalized = "" then some .CPU_CORE
  else if normalized = "cpu_core" then some .CPU_CORE
  else if normalized = "generic_rtl" then some .GENERIC_RTL
  else none

def designKind (workspace : Workspace) : Except OwnershipError DesignKind :=
  match normalizeFrontendDesignKind (workspace.getD "frontend_design_kind" .null) with
  | some kind => .ok kind
  | none => .error .valueError

def ownershipOf : DesignKind → String
  | .GENERIC_RTL => "design"
  | .CPU_CORE => "cpu"

def userRtlOwnership (workspace : Workspace) : Except OwnershipError String :=
  (designKind workspace).map ownershipOf

def isActionableRtlOwnership (workspace : Workspace) (ownership : String) :
    Except OwnershipError Bool :=
  (userRtlOwnership workspace).map fun user => ownership == user

section

variable (env : Env) (homeless : String → Bool)

/-- The user whose home directory `expanduser` looks up. -/
def tildeUser? (text : String) : Option String :=
  let p := PurePath.ofText text
  match p.absolute, p.parts with
  | false, first :: _ =>
      match first.toList with
      | '~' :: user => some (String.ofList user)
      | _ => none
  | _, _ => none

/-- `Path(text).expanduser().resolve()`. -/
def resolvePath (text : String) : Except OwnershipError AbsPath :=
  if (tildeUser? text).any fun user => homeless user && !user.toList.contains '\x00' then
    .error .runtimeError
  else if text.toList.contains '\x00' then .error .valueError
  else .ok (env.host.resolveText text)

def preparedRtlSources (workspace : Workspace) : List Dict :=
  let manifest := strip (workspace.textAt "prepared_manifest")
  let path := env.host.resolve (.ofText manifest)
  if manifest = "" ∨ manifest.toList.contains '\x00' ∨ env.fs.isFile path = false then []
  else
    match env.jsonRead path with
    | .obj data => (Dict.getD data "rtl_sources" .null).items.filterMap fun record =>
        match record with
        | .obj fields => some fields
        | _ => none
    | _ => []

/-- What one record of the manifest adds: the path it resolves to, and the owner. -/
def ownershipRecord? (record : Dict) : Except OwnershipError (Option (AbsPath × String)) :=
  match resolvePath env homeless (record.textAt "path") with
  | .error .valueError => .ok none
  | .error error => .error error
  | .ok path =>
      let ownership := strip (record.textAt "ownership")
      .ok (some (path, if ownership ∈ rtlOwnerships then ownership else "unknown"))

def ownershipRecords : List Dict → Except OwnershipError (List (AbsPath × String))
  | [] => .ok []
  | record :: rest => do
      let entry ← ownershipRecord? env homeless record
      let entries ← ownershipRecords rest
      return entry.toList ++ entries

/-- `rtl_ownership_map(workspace)`: the entries in order, the last one of a path counts. -/
def rtlOwnershipMap (workspace : Workspace) : Except OwnershipError (List (AbsPath × String)) :=
  ownershipRecords env homeless (preparedRtlSources env workspace)

/-- `_is_relative_to(path, root)` for resolved paths. -/
def isRelativeTo (path root : AbsPath) : Bool := root.isPrefixOf path

def underWorkspaceRoot (path : AbsPath) (workspace : Workspace) (field : String) :
    Except OwnershipError Bool :=
  let filelist := strip (workspace.textAt field)
  if filelist = "" then .ok false
  else (resolvePath env homeless filelist).map fun root => isRelativeTo path root.parent

def isGeneratedPath (path : AbsPath) (workspace : Workspace) : Except OwnershipError Bool :=
  let directory := strip (workspace.textAt "directory")
  if directory = "" then .ok false
  else (resolvePath env homeless directory).map fun root =>
    isRelativeTo path root && path.any fun part =>
      ["_fe", "_slang", "_verilator"].any fun suffix => endsWith part.toList suffix

def isWorkspaceFile (path : AbsPath) (workspace : Workspace) (field : String) :
    Except OwnershipError Bool :=
  let value := strip (workspace.textAt field)
  if value = "" then .ok false
  else (resolvePath env homeless value).map fun root => path = root

/-- The last tests of `classify_rtl_source`, which read the workspace's own paths. -/
def classifyByFields (path : AbsPath) (workspace : Workspace) (kind : DesignKind) :
    Except OwnershipError String := do
  if ← underWorkspaceRoot env homeless path workspace "soc_filelist" then return "soc"
  if ← isGeneratedPath env homeless path workspace then return "generated"
  if ← underWorkspaceRoot env homeless path workspace "cpu_filelist" then return "cpu"
  if ← isWorkspaceFile env homeless path workspace "origin_verilog" then return ownershipOf kind
  return "unknown"

/-- The places that settle a path's owner before any workspace field is read. -/
def toolOwner? (path : AbsPath) : Option String :=
  if isRelativeTo path (env.fs.realpath (env.frontendRepoRoot ++ ["fecompiler", "adapters"])) then
    some "adapter"
  else if path.any fun part => lower part = "thirdparty" then some "third_party"
  else none

def classifyRtlSource (rawPath sourceGroup : String) (workspace : Workspace) :
    Except OwnershipError String := do
  let pathText := strip rawPath
  if pathText = "" then return "unknown"
  let path ← resolvePath env homeless pathText
  let group := lower (strip sourceGroup)
  let kind ← designKind workspace
  if group = "soc_filelist" then return "soc"
  if group = "generated" then return "generated"
  match toolOwner? env path with
  | some owner => return owner
  | none =>
      if group ∈ ["input_filelist", "origin_verilog"] ∧ kind = .GENERIC_RTL then return "design"
      if group ∈ ["cpu_filelist", "input_filelist", "origin_verilog", "cpu"] then return "cpu"
      classifyByFields env homeless path workspace kind

def rtlSourceOwnership (workspace : Workspace) (rawPath : String)
    (ownershipByPath : List (AbsPath × String)) : Except OwnershipError String := do
  let pathText := strip rawPath
  if pathText = "" then return "unknown"
  let path ← resolvePath env homeless pathText
  match ownershipByPath.reverse.lookup path with
  | some ownership => return ownership
  | none => classifyRtlSource env homeless (PurePath.absText path) "" workspace

end

/-! ## What has to resolve -/

/-- `expanduser` finds no home directory for the path. -/
def unknownHome (homeless : String → Bool) (text : String) : Bool :=
  (tildeUser? text).any fun user => homeless user && !user.toList.contains '\x00'

/-- `Path(text).expanduser().resolve()` raises nothing. -/
def Resolves (homeless : String → Bool) (text : String) : Prop :=
  unknownHome homeless text = false ∧ text.toList.contains '\x00' = false

section

variable (env : Env) (homeless : String → Bool) (workspace : Workspace)

/-- The manifest names the path. -/
def Listed (path : AbsPath) : Prop :=
  ∃ record ∈ preparedRtlSources env workspace,
    Resolves homeless (record.textAt "path") ∧ env.host.resolveText (record.textAt "path") = path

variable {env homeless workspace}

theorem resolvePath_eq (text : String) :
    resolvePath env homeless text =
      if unknownHome homeless text then .error .runtimeError
      else if text.toList.contains '\x00' then .error .valueError
      else .ok (env.host.resolveText text) := rfl

theorem resolvePath_eq_ok {text : String} {path : AbsPath} :
    resolvePath env homeless text = .ok path ↔
      Resolves homeless text ∧ env.host.resolveText text = path := by
  rw [resolvePath_eq, Resolves]
  cases unknownHome homeless text with
  | true => simp only [if_true, reduceCtorEq, Bool.true_eq_false, false_and]
  | false =>
    cases text.toList.contains '\x00' with
    | true => simp only [Bool.false_eq_true, if_true, if_false, reduceCtorEq, Bool.true_eq_false,
        false_and, and_false]
    | false => simp only [Bool.false_eq_true, if_false, Except.ok.injEq, true_and]

theorem bind_isOk {ε α β : Type} {x : Except ε α} {f : α → Except ε β} :
    (∃ b, x >>= f = .ok b) ↔ ∃ a, x = .ok a ∧ ∃ b, f a = .ok b := by
  cases x with
  | error e => simp [bind, Except.bind]
  | ok a => simp [bind, Except.bind]

theorem mapM_isOk {ε α β : Type} {f : α → Except ε β} : ∀ {items : List α},
    (∃ results, items.mapM f = .ok results) ↔ ∀ a ∈ items, ∃ b, f a = .ok b
  | [] => by simp [pure, Except.pure]
  | a :: rest => by
      rw [List.forall_mem_cons, ← mapM_isOk, List.mapM_cons]
      simp only [bind_isOk]
      constructor
      · rintro ⟨b, hb, results, hresults, -⟩
        exact ⟨⟨b, hb⟩, results, hresults⟩
      · rintro ⟨⟨b, hb⟩, results, hresults⟩
        exact ⟨b, hb, results, hresults, _, rfl⟩

theorem designKind_isOk :
    (∃ kind, designKind workspace = .ok kind) ↔
      (normalizeFrontendDesignKind (workspace.getD "frontend_design_kind" .null)).isSome = true := by
  delta designKind
  cases normalizeFrontendDesignKind (workspace.getD "frontend_design_kind" .null) with
  | none => simp
  | some kind => simp

end

end EccFe.Tools.RtlOwnership
