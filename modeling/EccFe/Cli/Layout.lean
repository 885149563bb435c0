/-
EccFe.Cli.Layout — where a project's runs live (`fecompiler/cli/project/layout.py`), and what
`run --overwrite` removes.

The guard compares spelled paths and real paths. It resolves the project directory and the
target, but takes the runs container and the template to lie below the resolved project, also
when they are links to somewhere else.
-/
import EccFe.Python.Path

namespace EccFe.Cli

open Python

/-! ## 1. Spelled paths -/

/-- An absolute path without `.` and `..` as text has it; a text can have two slashes in front. -/
structure Spelled where
  doubleRoot : Bool
  parts : AbsPath
  deriving DecidableEq

namespace Spelled

def text (p : Spelled) : String :=
  (if p.doubleRoot then "//" else "/") ++ "/".intercalate p.parts

def join (p : Spelled) (parts : List String) : Spelled := { p with parts := p.parts ++ parts }

end Spelled

/-- A text with two slashes in front, and not three. -/
def isDoubleRoot (text : String) : Bool :=
  startsWith text.toList "//" && !startsWith text.toList "///"

/-- `os.path.abspath(os.path.expanduser(text))`. -/
def absSpelled (host : Host) (text : String) : Spelled :=
  let path := host.expanduser (.ofText text)
  ⟨isDoubleRoot text,
    FileSystem.normalize (if path.absolute then path.parts else host.cwd ++ path.parts)⟩

/-- `resolve_run_dir(project_dir, run_id)`, as `execute_command` normalizes it. -/
def resolveRunDir (host : Host) (project : Spelled) (runId : Option String) : Spelled :=
  match runId with
  | none => project.join ["runs", "default"]
  | some runId =>
      if runId = "" ∨ runId = "default" then project.join ["runs", "default"]
      else
        let candidate := host.expanduser (.ofText runId)
        if candidate.absolute then ⟨isDoubleRoot runId, FileSystem.normalize candidate.parts⟩
        else if runId.toList.contains '/' then
          { project with parts := FileSystem.normalize (project.parts ++ candidate.parts) }
        else
          { project with
            parts := FileSystem.normalize (project.parts ++ "runs" :: (PurePath.ofText runId).parts) }

def templateRelative : List String := [".ecc-fe", "template"]

/-! ## 2. The guards -/

/-- `os.path.islink(path)`: the last name is not where it is written. -/
def isSymlink (fs : FileSystem) (p : AbsPath) : Bool :=
  match p.getLast? with
  | none => false
  | some name => fs.realpath p != fs.realpath p.dropLast ++ [name]

def lexists (fs : FileSystem) (p : AbsPath) : Bool := isSymlink fs p || fs.exists? p

def workspaceMarkers (fs : FileSystem) (directory : AbsPath) : List AbsPath :=
  let home := fs.realpath directory ++ ["home"]
  [home ++ ["parameters.json"], home ++ ["flow.json"], home ++ ["home.json"]]

def isWorkspace (fs : FileSystem) (directory : AbsPath) : Bool :=
  (workspaceMarkers fs directory).all fs.isFile

/-- `is_safe_run_directory(path)`; `listDir` is `os.listdir`, `none` when it raises. -/
def isSafeRunDirectory (fs : FileSystem) (listDir : AbsPath → Option (List String))
    (target : AbsPath) : Bool :=
  if !fs.isDir target || isSymlink fs target then false
  else
    match listDir target with
    | none => false
    | some [] => true
    | some _ =>
        if isSymlink fs (target ++ ["home"]) then false
        else (workspaceMarkers fs target).all fun marker => !isSymlink fs marker && fs.isFile marker

/-- `os.path.join(base, tail)`. -/
def joinText (base tail : String) : String :=
  if startsWith tail.toList "/" then tail
  else if base = "" ∨ endsWith base.toList "/" then base ++ tail
  else base ++ "/" ++ tail

def resolvesAsSpelled (fs : FileSystem) (path project : Spelled) : Bool :=
  let spelled := path.text
  let anchor := project.text
  let real := PurePath.absText (fs.realpath path.parts)
  let realAnchor := PurePath.absText (fs.realpath project.parts)
  if spelled = anchor then real == realAnchor
  else if startsWith spelled.toList (anchor ++ "/") then
    real == joinText realAnchor (String.ofList (spelled.toList.drop (anchor.length + 1)))
  else real == spelled

/-- `_contains(directory, candidate)` of real paths: `directory` is `candidate` or above it. -/
def contains (directory candidate : AbsPath) : Bool := directory.isPrefixOf candidate

/-- `_contains(directory, candidate)` of spelled paths. -/
def containsSpelled (directory candidate : Spelled) : Bool :=
  directory.doubleRoot == candidate.doubleRoot && contains directory.parts candidate.parts

def isProtectedRunTarget (fs : FileSystem) (path project : Spelled) : Bool :=
  let runs := project.join ["runs"]
  let template := project.join templateRelative
  let real := fs.realpath path.parts
  let realProject := fs.realpath project.parts
  let realRuns := realProject ++ ["runs"]
  let realTemplate := realProject ++ templateRelative
  containsSpelled path project || path == runs || containsSpelled path template ||
    containsSpelled template path || contains real realProject || real == realRuns ||
    contains real realTemplate || contains realTemplate real

/-! ## 3. The run command -/

structure ProjectConfig where
  usesProjectLayout : Bool
  /-- `config.run_id`; `none` when it raises. -/
  runId : Option String

/-- The machine a command runs on. -/
structure Site where
  host : Host
  listDir : AbsPath → Option (List String)
  /-- The reader and the checks of `load_project_config`; `none` when they raise. -/
  parseConfig : List UInt8 → Option ProjectConfig

structure RunInput where
  /-- `--project`, `.` without it. -/
  project : String
  projectGiven : Bool
  runId : Option String
  overwrite : Bool
  /-- One of the flow selectors is set. -/
  selects : Bool
  /-- Every `--set` is valid. -/
  overridesValid : Bool

def projectConfigPath (fs : FileSystem) (project : Spelled) : AbsPath :=
  fs.realpath project.parts ++ ["ecc-fe.toml"]

/-- `load_project_config(directory)`; the outer `none` when it raises. -/
def loadProjectConfig (site : Site) (project : Spelled) : Option (Option ProjectConfig) :=
  let path := projectConfigPath site.host.fs project
  if !site.host.fs.isFile path then some none
  else
    match site.host.fs.readBytes path with
    | none => none
    | some bytes => (site.parseConfig bytes).map some

/-- The run id `execute_command` selects. -/
def selectedRunId (config : Option ProjectConfig) (runId : Option String) : Option String :=
  match runId, config with
  | some runId, _ => some runId
  | none, none => none
  | none, some config =>
      let configured := config.runId.getD "default"
      if configured = "default" then none else some configured

/-- What `ecc-fe run` without `--workspace` removes: the target of `shutil.rmtree` in
`_run_project`, when it comes to it. -/
def removed (site : Site) (input : RunInput) : Option Spelled :=
  let fs := site.host.fs
  let project := absSpelled site.host input.project
  let config := (loadProjectConfig site project).getD none
  let projectLayout := input.runId.isSome || (config.map (·.usesProjectLayout)).getD false ||
    fs.isDir (project.parts ++ templateRelative)
  if isWorkspace fs project.parts && !projectLayout then none
  else if !(projectLayout || input.projectGiven) then none
  else
    let runDir := resolveRunDir site.host project (selectedRunId config input.runId)
    if input.selects then none
    else
      match loadProjectConfig site project with
      | some (some config) =>
          if !config.usesProjectLayout || !input.overridesValid then none
          else if isProtectedRunTarget fs runDir project then none
          else if !lexists fs runDir.parts || !input.overwrite then none
          else if !resolvesAsSpelled fs runDir project ||
              !isSafeRunDirectory fs site.listDir runDir.parts then none
          else some runDir
      | _ => none

/-! ## 4. What is spared -/

/-- What the guards of a removal have found. -/
structure Guarded (fs : FileSystem) (project target : AbsPath) : Prop where
  own : ¬fs.realpath target <+: fs.realpath project
  runs : fs.realpath target ≠ fs.realpath project ++ ["runs"]
  template : ¬fs.realpath target <+: fs.realpath project ++ templateRelative
  inTemplate : ¬fs.realpath project ++ templateRelative <+: fs.realpath target
  isDir : fs.isDir target = true
  config : fs.isFile (fs.realpath project ++ ["ecc-fe.toml"]) = true

/-- A directory is no file. -/
theorem not_isFile_of_isDir {fs : FileSystem} {p : AbsPath} (h : fs.isDir p = true) :
    fs.isFile p = false := by
  rw [FileSystem.isDir, beq_iff_eq] at h
  rw [FileSystem.isFile, h]

theorem prefix_concat_iff {target project : AbsPath} {name : String} :
    target <+: project ++ [name] ↔ target <+: project ∨ target = project ++ [name] := by
  rw [List.prefix_concat_iff, or_comm]

/-- What is spared, whatever the links are. -/
theorem Guarded.entries {fs : FileSystem} {project target : AbsPath}
    (h : Guarded fs project target) : ∀ place ∈ [["ecc-fe.toml"], ["runs"], templateRelative],
      ¬fs.realpath target <+: fs.realpath project ++ place := by
  have htoml : ¬fs.realpath target <+: fs.realpath project ++ ["ecc-fe.toml"] := by
    rw [prefix_concat_iff, not_or]
    refine ⟨h.own, fun heq => ?_⟩
    -- the configuration was read, so it is no directory
    have hdir : fs.isDir (fs.realpath project ++ ["ecc-fe.toml"]) = true := by
      rw [← heq, FileSystem.isDir, fs.node_realpath]
      exact h.isDir
    have hfile := h.config
    rw [not_isFile_of_isDir hdir] at hfile
    cases hfile
  have hruns : ¬fs.realpath target <+: fs.realpath project ++ ["runs"] := by
    rw [prefix_concat_iff, not_or]
    exact ⟨h.own, h.runs⟩
  simp only [List.forall_mem_cons, List.not_mem_nil, false_implies, implies_true, and_true]
  exact ⟨htoml, hruns, h.template⟩

end EccFe.Cli
