/-
EccFe.Tools.RtlInputs — `fecompiler/tools/common/rtl_inputs.py`: what a workspace
fingerprint covers.

`filelistTreeFiles` is the reader behind `_filelist_tree_sha256`. It is one of
three readers of the same filelist language (the others are the prepare step's
and the catalog's), and it is the lenient one: a line it cannot split as shell
words is split at blanks, unreadable files have no lines, and nothing fails.

`filesSha256` hashes, for each file once, its path, a NUL, its bytes, a NUL.

Every name resolves here and a field that is no list has no items; where reading
raises instead is `InputErrors`.
-/
import EccFe.Resources
import EccFe.Python.Shlex
import EccFe.Search.Expand

namespace EccFe.Tools.RtlInputs

open Python Search

/-- A step workspace as the flow passes it around. -/
abbrev Workspace := Dict

/-! ## 1. The filelist reader of the fingerprint -/

/-- `shlex.split(line, comments=True, posix=True)`, `line.split()` when it raises. -/
def filelistTokens (line : List Char) : List String :=
  ((shlexSplit line).getD (splitSpaces line)).map String.ofList

def resolveFilelistPath (env : Env) (base : AbsPath) (value : String) : AbsPath :=
  let path := env.host.expanduser (.ofText (stripQuotes value))
  env.fs.realpath (base.join path)

def isFilelistOption (token : String) : Bool := token == "-f" || token == "-F"

/-- `-fX` and `-FX` in one word. -/
def attachedFilelist? (token : String) : Option String :=
  if (startsWith token.toList "-f" || startsWith token.toList "-F") && 2 < token.toList.length then
    some (String.ofList (token.toList.drop 2))
  else none

def hashedSuffixes : List String := [".v", ".sv", ".vh", ".svh"]

/-- What one line of a filelist adds: a nested filelist, a source, or nothing. -/
def fingerprintLine (env : Env) (base : AbsPath) (line : List Char) :
    List (Item AbsPath AbsPath Empty) :=
  match filelistTokens line with
  | [] => []
  | first :: rest =>
      match isFilelistOption first, rest with
      | true, value :: _ => [.child (resolveFilelistPath env base value)]
      | _, _ =>
          match attachedFilelist? first with
          | some value => [.child (resolveFilelistPath env base value)]
          | none =>
              let token := stripQuotes first
              if lower (PurePath.ofText token).suffix ∈ hashedSuffixes then
                [.emit (resolveFilelistPath env base token)]
              else []

/-- One `visit(filelist)`: the filelist itself, then its lines in order. -/
def fingerprintItems (env : Env) (path : AbsPath) : List (Item AbsPath AbsPath Empty) :=
  .emit path ::
    match env.fs.readBytes path with
    | none => []
    | some bytes => (textLines (decodeIgnore bytes)).flatMap (fingerprintLine env path.parent)

/-- The paths `_filelist_tree_sha256(root)` hashes, in order. -/
def filelistTreeFiles (env : Env) (root : AbsPath) : List AbsPath :=
  match expandFrom (fingerprintItems env) env.fs.files (env.fs.realpath root) with
  | .ok (files, _) => files
  | .error _ => []

/-! ## 2. Hashing -/

/-- `str(path).encode("utf-8")`. -/
def pathBytes (p : AbsPath) : List UInt8 := (PurePath.absText p).toUTF8.toList

/-- One file's part of the digest input. -/
def digestEntry (env : Env) (p : AbsPath) : List UInt8 :=
  pathBytes p ++ [0] ++ (env.fs.readBytes p).getD (asciiBytes "<missing>") ++ [0]

/-- The distinct resolved paths, in order. -/
def distinctPaths (env : Env) (paths : List AbsPath) : List AbsPath :=
  (paths.map env.fs.realpath).foldl (fun seen p => if p ∈ seen then seen else seen ++ [p]) []

def filesDigestInput (env : Env) (paths : List AbsPath) : List UInt8 :=
  (distinctPaths env paths).flatMap (digestEntry env)

def filesSha256 (env : Env) (paths : List AbsPath) : String :=
  env.sha256 (filesDigestInput env paths)

def filelistTreeSha256 (env : Env) (root : AbsPath) : String :=
  filesSha256 env (filelistTreeFiles env root)

/-! ## 3. The workspace fingerprint -/

def fingerprintSourcePathFields : List String :=
  ["cpu_filelist", "soc_filelist", "filelist", "origin_verilog"]

def fingerprintTextFields : List String :=
  ["cpu_wrapper_top", "soc_wrapper_id", "soc_harness_id", "soc_wrapper_top", "top_module",
    "cpu_socket_contract", "required_cpu_top_module"]

/-- The path fields a workspace's fingerprint covers. -/
def fingerprintPathFields (workspace : Workspace) : List String :=
  if strip (workspace.textAt "frontend_design_kind") = "generic_rtl" then
    fingerprintSourcePathFields ++ ["input_filelist"]
  else fingerprintSourcePathFields

/-- The file a path field names; `none` for an empty field. -/
def fieldPath? (env : Env) (workspace : Workspace) (field : String) : Option AbsPath :=
  let text := strip (workspace.textOrEmptyAt field)
  if text = "" then none else some (env.host.resolveText text)

def normalizedPathText (env : Env) (workspace : Workspace) (field : String) : String :=
  match fieldPath? env workspace field with
  | none => ""
  | some path => PurePath.absText path

def isFilelistField (field : String) : Bool :=
  field ∈ ["cpu_filelist", "soc_filelist", "input_filelist", "filelist"]

/-- The paths whose content a path field's fingerprint covers. -/
def fieldFiles (env : Env) (field : String) (path : AbsPath) : List AbsPath :=
  if isFilelistField field then filelistTreeFiles env path else [path]

/-- `_input_content_sha256(field, path)`. -/
def inputContentSha256 (env : Env) (workspace : Workspace) (field : String) : String :=
  match fieldPath? env workspace field with
  | none => ""
  | some path => filesSha256 env (fieldFiles env field path)

def pathFieldItems (env : Env) (workspace : Workspace) (field : String) : Dict :=
  [(field, .str (normalizedPathText env workspace field)),
    (field ++ "_content_sha256", .str (inputContentSha256 env workspace field))]

def textFieldItem (workspace : Workspace) (field : String) : String × Json :=
  (field, .str (strip (workspace.textOrEmptyAt field)))

def workspaceInputFingerprint (env : Env) (workspace : Workspace) : Dict :=
  (fingerprintPathFields workspace).flatMap (pathFieldItems env workspace) ++
    fingerprintTextFields.map (textFieldItem workspace)

/-! ## 4. Prepared inputs -/

def usesExplicitFrontendInputs (workspace : Workspace) : Bool :=
  ["cpu_filelist", "soc_filelist"].any fun field => strip (workspace.textOrEmptyAt field) ≠ ""

/-- `str(workspace.get("prepared_manifest", "")).strip()` as a path. -/
def preparedManifest? (env : Env) (workspace : Workspace) : Option AbsPath :=
  let text := strip (workspace.textAt "prepared_manifest")
  if text = "" then none else some (env.host.resolve (.ofText text))

/-- The manifest's fingerprint agrees with the workspace's on every field. -/
def fingerprintMatches (expected : Dict) (actual : Dict) : Bool :=
  expected.all fun kv =>
    match actual.get kv.1 with
    | none => kv.2 == .str ""
    | some value => value.pyStr == kv.2.pyStr

def preparedInputsCurrent (env : Env) (workspace : Workspace) (data : Dict) : Bool :=
  match data.get "source_fingerprint" with
  | some (.obj actual) => fingerprintMatches (workspaceInputFingerprint env workspace) actual
  | _ => !usesExplicitFrontendInputs workspace

/-- The manifest `prepared_inputs` returns, when it is there and current. -/
def preparedInputs? (env : Env) (workspace : Workspace) : Option Dict :=
  match preparedManifest? env workspace with
  | none => none
  | some manifest =>
      if env.fs.exists? manifest then
        match env.jsonRead manifest with
        | .obj data =>
            if (Dict.getD data "rtl_files" .null).truthy && preparedInputsCurrent env workspace data then
              some data
            else none
        | _ => none
      else none

/-- `[str(p) for p in data.get(field, [])]`. -/
def textItems (data : Dict) (field : String) : List String :=
  (Dict.getD data field .null).items.map Json.pyStr

/-- Append the texts not seen yet, in order. -/
def distinctTexts (texts : List String) : List String :=
  texts.foldl (fun seen text => if text ∈ seen then seen else seen ++ [text]) []

/-- `rtl_files(workspace)` where `data` is the current manifest. -/
def rtlFiles (data : Dict) : List String := textItems data "rtl_files"

/-- `incdirs(workspace)` where `data` is the current manifest. -/
def incdirs (env : Env) (data : Dict) : List String :=
  let prepared := ((textItems data "incdirs").map strip).filter (· ≠ "")
  let parents := (rtlFiles data).map fun rtl => PurePath.absText (env.host.resolveText rtl).parent
  distinctTexts (prepared ++ parents)

end EccFe.Tools.RtlInputs
