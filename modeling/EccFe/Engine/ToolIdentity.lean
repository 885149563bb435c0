/-
EccFe.Engine.ToolIdentity — the executable a step's record names, and the one its runner
starts.

The record looks the tool up on PATH (`_tool_identity`). The runners of slang and verilator
ask environment variables first; the structural probe of the review step asks variables, the
directories of an OSS CAD suite and the cache of a Bazel build before PATH. A command without
a slash is looked up again by the system when it is started.
-/
import EccFe.Engine.Signature
import EccFe.Engine.Step
import EccFe.Tools.Prepare.Generated

namespace EccFe

/-- The machine with another file at a canonical path. -/
def Env.replaced (env : Env) (file : Python.AbsPath) (content : List UInt8) (mtimeNs : Nat) : Env :=
  { env with
    host := { env.host with
      fs := { env.host.fs with nodes := (file, .file content mtimeNs) :: env.host.fs.nodes } } }

end EccFe

namespace EccFe.Engine

open Python Tools.RtlInputs

/-! ## 1. Commands and files -/

/-- `os.path.join(dir, name)` for a name without a slash. -/
def osJoin (dir name : String) : String :=
  if dir = "" then name
  else if endsWith dir.toList "/" then dir ++ name
  else dir ++ "/" ++ name

/-- The text does not end in a slash or a dot: the system starts no other name. -/
def namesEntry (text : String) : Bool :=
  let last := (splitOnChar '/' text.toList).getLast?.getD []
  last ≠ [] && last ≠ ['.']

/-- The file a text names from the directory `cwd`, when `test` holds of it. -/
def leadsTo (fs : FileSystem) (test : AbsPath → Bool) (cwd : AbsPath) (text : String) :
    Option AbsPath :=
  let file := fs.realpath (cwd.join (.ofText text))
  if namesEntry text && test file then some file else none

/-- The directories of a PATH; without one, those of `os.defpath`. -/
def searchDirs (path : Option String) : List String :=
  (splitOnChar ':' (path.getD "/bin:/usr/bin").toList).map String.ofList

/-- `shutil.which(name)` for a name without a slash. -/
def shutilWhich (host : Host) (accessible : AbsPath → Bool) (path : Option String)
    (name : String) : Option String :=
  if path = some "" then none
  else ((searchDirs path).map (osJoin · name)).find? fun text =>
    (leadsTo host.fs accessible host.cwd text).isSome

/-- The process that runs a step. -/
structure Process where
  env : Env
  /-- `os.environ.get(name)`. -/
  environ : String → Option String
  /-- `path.glob(pattern)`, in no particular order. -/
  glob : PurePath → String → List PurePath
  /-- `os.access(path, os.X_OK)`, for what is no directory. -/
  accessible : AbsPath → Bool
  /-- The system starts the file. -/
  starts : AbsPath → Bool
  accessible_of_starts : ∀ file, starts file = true → accessible file = true
  which_eq : ∀ name, '/' ∉ name.toList →
    env.which name = shutilWhich env.host accessible (environ "PATH") name

namespace Process

variable (p : Process)

/-- The values of environment variables that are not blank. -/
def values (names : List String) : List String :=
  names.filterMap fun name =>
    let value := strip ((p.environ name).getD "")
    if value = "" then none else some value

/-! ## 2. The commands of the runners -/

/-- `_slang_cmd` and `_verilator_cmd`: a variable, PATH, the bare name. -/
def overriddenCmd (names : List String) (tool : String) : String :=
  (p.values names).head?.getD ((p.env.which tool).getD tool)

def slangCmd : String := p.overriddenCmd ["ECOS_SLANG", "SLANG"] "slang"

def verilatorCmd : String := p.overriddenCmd ["ECOS_VERILATOR", "VERILATOR"] "verilator"

def ossCadVariables : List String :=
  ["CHIPCOMPILER_OSS_CAD_DIR", "ECOS_ELECTRON_OSS_CAD_DIR", "ECOS_OSS_CAD_DIR"]

/-- The roots of `_bazel_oss_cad_yosys_candidates`. -/
def bazelRoots : List PurePath :=
  let cache : PurePath := ⟨true, p.env.host.home "" ++ [".cache", "bazel"]⟩
  (p.values ["BAZEL_OUTPUT_BASE"]).map .ofText ++
    [cache.join (.ofText ("_bazel_" ++ (p.environ "USER").getD "")), cache]

/-- The patterns of `_bazel_oss_cad_yosys_candidates`. -/
def bazelPatterns (executableName : String) : List String :=
  ["*/external/*oss_cad_suite*/oss-cad-suite/bin/" ++ executableName,
    "*/external/*oss-cad-suite*/oss-cad-suite/bin/" ++ executableName,
    "*/external/*oss_cad_suite*/bin/" ++ executableName,
    "*/external/*oss-cad-suite*/bin/" ++ executableName]

/-- `_bazel_oss_cad_yosys_candidates(executable_name)`: the first eight files. -/
def bazelOssCadYosysCandidates (executableName : String) : List String :=
  let roots := p.bazelRoots.filter fun root => p.env.fs.exists? (p.env.host.resolve root)
  let found := roots.flatMap fun root => (bazelPatterns executableName).flatMap fun pattern =>
    (p.glob root pattern).filter fun path => p.env.fs.isFile (p.env.host.resolve path)
  (firstSeen (found.map PurePath.text)).take 8

def yosysCandidatePaths : List String :=
  firstSeen (p.values ["YOSYS", "ECOS_YOSYS", "ECOS_OSS_CAD_BIN"] ++
    (p.values ossCadVariables).map (fun value =>
      ((PurePath.ofText value).join ⟨false, ["bin", "yosys"]⟩).text) ++
    p.bazelOssCadYosysCandidates "yosys")

/-- The candidate that `_resolve_yosys` takes. -/
def yosysCandidate : Option String :=
  p.yosysCandidatePaths.find? fun candidate =>
    candidate ≠ "" && p.env.fs.exists? (p.env.host.resolve (.ofText candidate))

/-- `_resolve_yosys()`; empty when there is none. -/
def resolveYosys : String := p.yosysCandidate.getD ((p.env.which "yosys").getD "")

def yosysRootFromEnv : Option PurePath := (p.values ossCadVariables).head?.map .ofText

/-- The PATH of `_yosys_runtime_env(yosys)`. -/
def yosysRuntimePath (yosys : String) : Option String :=
  let path := PurePath.ofText yosys
  let root :=
    if p.env.fs.exists? (p.env.host.resolve path) ∧ path.parts.dropLast.getLast? = some "bin" then
      some { path with parts := path.parts.dropLast.dropLast }
    else p.yosysRootFromEnv
  match root with
  | none => p.environ "PATH"
  | some root =>
      let binDir := (root.join ⟨false, ["bin"]⟩).text
      let current := (p.environ "PATH").getD ""
      if binDir ∈ (splitOnChar ':' current.toList).map String.ofList then p.environ "PATH"
      else some (String.ofList (rstripBy (· == ':') (binDir ++ ":" ++ current).toList))

/-! ## 3. What is started, and what is recorded -/

/-- The command of a `subprocess.run`, with the directory and the PATH of the child. -/
structure Invocation where
  command : String
  cwd : AbsPath
  path : Option String

/-- What the runner of a step invokes; the probe of the review step runs in `scriptDir`. -/
def invocation (scriptDir : AbsPath) : StepEnum → Option Invocation
  | .PREPARE => none
  | .REVIEW =>
      let yosys := p.resolveYosys
      if yosys = "" then none else some ⟨yosys, scriptDir, p.yosysRuntimePath yosys⟩
  | .ELAB => some ⟨p.slangCmd, p.env.host.cwd, p.environ "PATH"⟩
  | .LINT | .SIM => some ⟨p.verilatorCmd, p.env.host.cwd, p.environ "PATH"⟩

/-- The file the system starts for a command. -/
def startedFile (invocation : Invocation) : Option AbsPath :=
  if invocation.command.toList.contains '/' then
    leadsTo p.env.fs p.starts invocation.cwd invocation.command
  else (searchDirs invocation.path).findSome? fun dir =>
    leadsTo p.env.fs p.starts invocation.cwd (osJoin dir invocation.command)

/-- The executable that a step starts. -/
def invoked (scriptDir : AbsPath) (step : StepEnum) : Option AbsPath :=
  (p.invocation scriptDir step).bind p.startedFile

/-- The file whose size and time `_path_identity` records for a tool. -/
def recorded (tool : String) : Option AbsPath :=
  let path := p.env.host.expanduser (.ofText ((p.env.which tool).getD tool))
  if path.absolute then some (p.env.host.resolve path) else none

/-- The tool a step's record names. -/
def toolName (step : StepEnum) : String := (stepExecutables step.value).head?.getD ""

end Process

/-! ## 4. Replacing a file -/

/-- The record of the step names the file, and every other file put in its place, of another size
or time, changes the signature. -/
structure Identifies (p : Process) (step : StepEnum) (file : AbsPath) : Prop where
  recorded : p.recorded (Process.toolName step) = some file
  changes : ∀ old oldMtime content mtimeNs, p.env.fs.node file = some (.file old oldMtime) →
    (content.length, mtimeNs) ≠ (old.length, oldMtime) →
    ∀ workspace tool upstream,
      expectedSignature (p.env.replaced file content mtimeNs) workspace step.value tool upstream ≠
        expectedSignature p.env workspace step.value tool upstream

section

variable {env : Env} {file : AbsPath} {content old : List UInt8} {mtimeNs oldMtime : Nat}

theorem replaced_node_self (hreal : env.fs.realpath file = file) :
    (env.replaced file content mtimeNs).fs.node file = some (.file content mtimeNs) := by
  show FileSystem.lookup (env.fs.realpath file) ((file, .file content mtimeNs) :: env.fs.nodes) = _
  rw [hreal, FileSystem.lookup, if_pos rfl]

theorem replaced_expanduser (path : PurePath) :
    (env.replaced file content mtimeNs).host.expanduser path = env.host.expanduser path := rfl

/-- Replacing a file moves no link. -/
theorem replaced_resolve (path : PurePath) :
    (env.replaced file content mtimeNs).host.resolve path = env.host.resolve path := rfl

/-- The identity of a path that leads to the file. -/
theorem pathIdentity_of_node {rawPath : String}
    (habsolute : (env.host.expanduser (.ofText rawPath)).absolute = true)
    (hfile : env.host.resolve (env.host.expanduser (.ofText rawPath)) = file)
    (hnode : env.fs.node file = some (.file content mtimeNs)) :
    pathIdentity env rawPath =
      [("path", .str (PurePath.absText file)), ("available", .bool true),
        ("size", .int content.length), ("mtime_ns", .int mtimeNs)] := by
  have hisFile : env.fs.isFile file = true := by
    rw [FileSystem.isFile, hnode]
  unfold pathIdentity
  simp only [habsolute, Bool.not_true, Bool.false_eq_true, if_false, hfile, hnode, hisFile]
  rfl

/-- The tools part of two records is equal only when the identities of the executables are. -/
theorem executables_of_provenanceTools {env' : Env} {parameters parameters' : Dict}
    {stepName tool : String}
    (h : sortKeys (provenanceTools env' parameters' stepName tool) =
      sortKeys (provenanceTools env parameters stepName tool)) :
    sortKeys (.obj (executableIdentities env' stepName)) =
      sortKeys (.obj (executableIdentities env stepName)) := by
  have htools := get_of_sortKeys_eq (by simp [Dict.keys]) (by simp [Dict.keys]) h "tools"
  simp only [Dict.get, String.reduceEq, if_false, if_true, Option.map_some, Option.some.injEq]
    at htools
  have hexecutables := get_of_sortKeys_eq (by simp [toolIdentity, Dict.keys])
    (by simp [toolIdentity, Dict.keys]) htools "executables"
  simpa [toolIdentity, Dict.get] using hexecutables

/-- Another size or time of the recorded file changes the signature. -/
theorem expectedSignature_replaced_ne (hinj : env.CollisionFree) {stepName name : String}
    (hname : stepExecutables stepName = [name])
    (habsolute : (env.host.expanduser (.ofText ((env.which name).getD name))).absolute = true)
    (hfile : env.host.resolve (env.host.expanduser (.ofText ((env.which name).getD name))) = file)
    (hnode : env.fs.node file = some (.file old oldMtime))
    (hne : (content.length, mtimeNs) ≠ (old.length, oldMtime)) (workspace : Workspace)
    (tool : String) (upstream : Option Dict) :
    expectedSignature (env.replaced file content mtimeNs) workspace stepName tool upstream ≠
      expectedSignature env workspace stepName tool upstream := by
  have hsha : (env.replaced file content mtimeNs).sha256 = env.sha256 := rfl
  rw [ne_eq, expectedSignature_eq_iff hinj hsha]
  rintro ⟨-, -, htools⟩
  have hreal : env.fs.realpath file = file := by
    rw [← hfile]
    exact env.host.realpath_resolve _
  have hexecutables := executables_of_provenanceTools htools
  have hnew := pathIdentity_of_node (by rwa [replaced_expanduser])
    (by rwa [replaced_expanduser, replaced_resolve])
    (@replaced_node_self env file content mtimeNs hreal)
  have hold := pathIdentity_of_node habsolute hfile hnode
  have hwhich : (env.replaced file content mtimeNs).which = env.which := rfl
  rw [executableIdentities, executableIdentities, hname, List.map_singleton, List.map_singleton,
    hold, hwhich, hnew] at hexecutables
  have hidentity := get_of_sortKeys_eq (by simp [Dict.keys]) (by simp [Dict.keys]) hexecutables name
  simp only [Dict.get, if_true, Option.map_some, Option.some.injEq] at hidentity
  have hget := get_of_sortKeys_eq (by simp [Dict.keys]) (by simp [Dict.keys]) hidentity
  have hsize := hget "size"
  have htime := hget "mtime_ns"
  simp [Dict.get, sortKeys] at hsize htime
  exact hne (by rw [hsize, htime])

end

/-! ## 5. When the two agree -/

namespace Process

section

variable (p : Process) (scriptDir : AbsPath) (step : StepEnum)

/-- What sends the command of a step past the lookup of its tool. -/
def redirection : StepEnum → Option String
  | .PREPARE => none
  | .REVIEW => p.yosysCandidate
  | .ELAB => (p.values ["ECOS_SLANG", "SLANG"]).head?
  | .LINT | .SIM => (p.values ["ECOS_VERILATOR", "VERILATOR"]).head?

/-- A command as the step starts it. -/
def inStep (command : String) : Invocation :=
  match step with
  | .REVIEW => ⟨command, scriptDir, p.yosysRuntimePath command⟩
  | _ => ⟨command, p.env.host.cwd, p.environ "PATH"⟩

/-- The lookup of the step's tool on PATH leads to the file. -/
def FoundAt (file : AbsPath) : Prop :=
  ∃ found, p.env.which (toolName step) = some found ∧
    (p.env.host.expanduser (.ofText found)).absolute = true ∧
    p.env.host.resolve (p.env.host.expanduser (.ofText found)) = file

/-- The place a text names from a directory. -/
def placeOf (cwd : AbsPath) (text : String) : AbsPath := p.env.fs.realpath (cwd.join (.ofText text))

/-- What the text names from a directory can be started. -/
def CanStart (cwd : AbsPath) (text : String) : Prop :=
  namesEntry text = true ∧ p.starts (p.placeOf cwd text) = true

/-- The command names the tool that the lookup finds. A text with a slash names one place; a bare
name is tried in the directories of the child's PATH, and the first where it can be started
counts. -/
def NamesTool (command : Invocation) : Prop :=
  if command.command.toList.contains '/' then
    p.CanStart command.cwd command.command →
      p.FoundAt step (p.placeOf command.cwd command.command)
  else ∀ before dir after, searchDirs command.path = before ++ dir :: after →
    (∀ earlier ∈ before, ¬p.CanStart command.cwd (osJoin earlier command.command)) →
    p.CanStart command.cwd (osJoin dir command.command) →
      p.FoundAt step (p.placeOf command.cwd (osJoin dir command.command))

/-- What redirects the command names the tool that the lookup finds. Without a redirection, the
lookup finds an absolute path, or a relative one that names the same tool as a command; and when
it finds none because PATH is empty, no such tool can be started from the current directory. -/
def Agrees : Prop :=
  match p.redirection step with
  | some text => p.NamesTool step (p.inStep scriptDir step text)
  | none =>
      match p.env.which (toolName step) with
      | some found => (PurePath.ofText found).absolute = true ∨
          p.NamesTool step (p.inStep scriptDir step found)
      | none => step ∈ [.ELAB, .LINT, .SIM] → p.environ "PATH" = some "" →
          ¬p.CanStart p.env.host.cwd (toolName step)

end

variable {p : Process} {scriptDir : AbsPath} {step : StepEnum} {file : AbsPath}

/-- The steps that start a tool, with its name. -/
theorem toolName_of_ne (h : step ≠ .PREPARE) : stepExecutables step.value = [toolName step] ∧
    toolName step ∈ ["yosys", "slang", "verilator"] := by
  cases step with
  | PREPARE => exact absurd rfl h
  | REVIEW | ELAB | LINT | SIM => decide

theorem plain_toolName (h : step ≠ .PREPARE) :
    '/' ∉ (toolName step).toList ∧ toolName step ≠ "" ∧
      (p.env.host.expanduser (.ofText (toolName step))).absolute = false := by
  have hmem := (toolName_of_ne h).2
  simp only [List.mem_cons, List.not_mem_nil, or_false] at hmem
  rcases hmem with htool | htool | htool <;> rw [htool] <;> exact ⟨by decide, by decide, by rfl⟩

/-- The recorded file is the one that `which` finds. -/
theorem recorded_eq_some (h : step ≠ .PREPARE) :
    p.recorded (toolName step) = some file ↔ p.FoundAt step file := by
  unfold recorded FoundAt
  cases hwhich : p.env.which (toolName step) with
  | none =>
    have hrelative := (@plain_toolName p step h).2.2
    simp only [Option.getD_none, hrelative, Bool.false_eq_true, if_false]
    simp
  | some found =>
    simp only [Option.getD_some, Option.some.injEq, exists_eq_left']
    by_cases habsolute : (p.env.host.expanduser (.ofText found)).absolute = true <;>
      simp [habsolute]

/-- A command that is redirected. -/
theorem invocation_of_redirection {text : String} (h : p.redirection step = some text) :
    p.invocation scriptDir step = some (p.inStep scriptDir step text) := by
  cases step with
  | PREPARE => cases h
  | REVIEW =>
    have hyosys : p.resolveYosys = text := by
      rw [resolveYosys, show p.yosysCandidate = some text from h]
      rfl
    have hne : text ≠ "" := by
      have hfound : p.yosysCandidate = some text := h
      rw [yosysCandidate] at hfound
      have hcandidate := List.find?_some hfound
      rw [Bool.and_eq_true, decide_eq_true_eq] at hcandidate
      exact hcandidate.1
    simp only [invocation, hyosys, if_neg hne]
    rfl
  | ELAB =>
    have hcommand : p.slangCmd = text := by
      rw [slangCmd, overriddenCmd, show (p.values ["ECOS_SLANG", "SLANG"]).head? = some text from h]
      rfl
    simp only [invocation, hcommand]
    rfl
  | LINT | SIM =>
    have hcommand : p.verilatorCmd = text := by
      rw [verilatorCmd, overriddenCmd,
        show (p.values ["ECOS_VERILATOR", "VERILATOR"]).head? = some text from h]
      rfl
    simp only [invocation, hcommand]
    rfl

/-- A command that is looked up, and found. -/
theorem invocation_of_found (hstep : step ≠ .PREPARE) (h : p.redirection step = none)
    {found : String} (hfound : p.env.which (toolName step) = some found) (hne : found ≠ "") :
    p.invocation scriptDir step = some (p.inStep scriptDir step found) := by
  cases step with
  | PREPARE => exact absurd rfl hstep
  | REVIEW =>
    have hyosys : p.resolveYosys = found := by
      rw [resolveYosys, show p.yosysCandidate = none from h,
        show p.env.which "yosys" = some found from hfound]
      rfl
    simp only [invocation, hyosys, if_neg hne]
    rfl
  | ELAB =>
    have hcommand : p.slangCmd = found := by
      rw [slangCmd, overriddenCmd, show (p.values ["ECOS_SLANG", "SLANG"]).head? = none from h,
        show p.env.which "slang" = some found from hfound]
      rfl
    simp only [invocation, hcommand]
    rfl
  | LINT | SIM =>
    have hcommand : p.verilatorCmd = found := by
      rw [verilatorCmd, overriddenCmd,
        show (p.values ["ECOS_VERILATOR", "VERILATOR"]).head? = none from h,
        show p.env.which "verilator" = some found from hfound]
      rfl
    simp only [invocation, hcommand]
    rfl

/-- A command that is looked up, and not found, is the bare name; the probe starts nothing. -/
theorem invocation_of_missing (hstep : step ≠ .PREPARE) (h : p.redirection step = none)
    (hfound : p.env.which (toolName step) = none) :
    p.invocation scriptDir step =
      if step = .REVIEW then none else some (p.inStep scriptDir step (toolName step)) := by
  cases step with
  | PREPARE => exact absurd rfl hstep
  | REVIEW =>
    have hyosys : p.resolveYosys = "" := by
      rw [resolveYosys, show p.yosysCandidate = none from h,
        show p.env.which "yosys" = none from hfound]
      rfl
    simp only [invocation, hyosys, if_true]
  | ELAB =>
    have hcommand : p.slangCmd = "slang" := by
      rw [slangCmd, overriddenCmd, show (p.values ["ECOS_SLANG", "SLANG"]).head? = none from h,
        show p.env.which "slang" = none from hfound]
      rfl
    simp only [invocation, hcommand]
    rfl
  | LINT | SIM =>
    have hcommand : p.verilatorCmd = "verilator" := by
      rw [verilatorCmd, overriddenCmd,
        show (p.values ["ECOS_VERILATOR", "VERILATOR"]).head? = none from h,
        show p.env.which "verilator" = none from hfound]
      rfl
    simp only [invocation, hcommand]
    rfl

/-! ### What the lookup finds -/

/-- Where a text leads, spelled out. -/
theorem leadsTo_eq_some {fs : FileSystem} {test : AbsPath → Bool} {cwd : AbsPath} {text : String} :
    leadsTo fs test cwd text = some file ↔
      namesEntry text = true ∧ test file = true ∧ fs.realpath (cwd.join (.ofText text)) = file := by
  unfold leadsTo
  dsimp only
  split
  · rename_i h
    rw [Bool.and_eq_true] at h
    constructor
    · intro heq
      obtain rfl := Option.some.inj heq
      exact ⟨h.1, h.2, rfl⟩
    · rintro ⟨-, -, rfl⟩
      rfl
  · rename_i h
    rw [Bool.and_eq_true] at h
    simp only [reduceCtorEq, false_iff]
    rintro ⟨hname, htest, rfl⟩
    exact h ⟨hname, htest⟩

/-- A text leads to the file that can be started there. -/
theorem leadsTo_starts {cwd : AbsPath} {text : String} :
    leadsTo p.env.fs p.starts cwd text = some file ↔ p.CanStart cwd text ∧ p.placeOf cwd text = file := by
  rw [leadsTo_eq_some, CanStart, placeOf, and_assoc]
  refine and_congr_right fun _ => and_congr_left fun hplace => ?_
  rw [hplace]

theorem leadsTo_starts_eq_none {cwd : AbsPath} {text : String} :
    leadsTo p.env.fs p.starts cwd text = none ↔ ¬p.CanStart cwd text := by
  rw [Option.eq_none_iff_forall_ne_some]
  simp only [ne_eq, leadsTo_starts, not_and]
  exact ⟨fun h hcan => h _ hcan rfl, fun h _ hcan => absurd hcan h⟩

/-- The file a command starts is the one the lookup finds exactly when the command names that
tool. -/
theorem namesTool_iff {command : Invocation} :
    (∀ file, p.startedFile command = some file → p.FoundAt step file) ↔ p.NamesTool step command := by
  unfold startedFile NamesTool
  split
  · simp only [leadsTo_starts, and_imp]
    constructor
    · exact fun h hcan => h _ hcan rfl
    · rintro h file hcan rfl
      exact h hcan
  · simp only [List.findSome?_eq_some_iff, leadsTo_starts, leadsTo_starts_eq_none]
    constructor
    · intro h before dir after hdirs hbefore hdir
      exact h _ ⟨before, dir, after, hdirs, ⟨hdir, rfl⟩, hbefore⟩
    · rintro h file ⟨before, dir, after, hdirs, ⟨hdir, rfl⟩, hbefore⟩
      exact h before dir after hdirs hbefore hdir

/-- Nothing is found, so nothing of that name is started. -/
theorem startedFile_of_missing {tool : String} (hname : '/' ∉ tool.toList)
    (hfound : p.env.which tool = none) (hpath : p.environ "PATH" ≠ some "") :
    p.startedFile ⟨tool, p.env.host.cwd, p.environ "PATH"⟩ = none := by
  rw [p.which_eq tool hname, shutilWhich, if_neg hpath] at hfound
  unfold startedFile
  rw [if_neg (by simpa using hname), List.findSome?_eq_none_iff]
  intro dir hdir
  have hmissing := List.find?_eq_none.mp hfound (osJoin dir tool) (List.mem_map_of_mem hdir)
  cases hstart : leadsTo p.env.fs p.starts p.env.host.cwd (osJoin dir tool) with
  | none => rfl
  | some file =>
    obtain ⟨hentry, hstarts, hreal⟩ := leadsTo_eq_some.mp hstart
    have hleads : leadsTo p.env.fs p.accessible p.env.host.cwd (osJoin dir tool) = some file :=
      leadsTo_eq_some.mpr ⟨hentry, p.accessible_of_starts file hstarts, hreal⟩
    rw [show leadsTo p.env.host.fs p.accessible p.env.host.cwd (osJoin dir tool) = some file
      from hleads] at hmissing
    exact absurd rfl hmissing

/-- With an empty PATH a bare name is looked up in the current directory. -/
theorem startedFile_of_empty {tool : String} (hname : '/' ∉ tool.toList)
    (hpath : p.environ "PATH" = some "") :
    p.startedFile ⟨tool, p.env.host.cwd, p.environ "PATH"⟩ =
      leadsTo p.env.fs p.starts p.env.host.cwd tool := by
  unfold startedFile
  rw [if_neg (by simpa using hname), hpath, show searchDirs (some "") = [""] by decide,
    List.findSome?_singleton, osJoin, if_pos rfl]

theorem found_ne_empty {tool found : String} (hname : '/' ∉ tool.toList) (hne : tool ≠ "")
    (hfound : p.env.which tool = some found) : found ≠ "" := by
  rw [p.which_eq tool hname, shutilWhich] at hfound
  split at hfound
  · cases hfound
  · obtain ⟨dir, -, rfl⟩ := List.mem_map.mp (List.mem_of_find?_eq_some hfound)
    unfold osJoin
    split
    · exact hne
    split <;> simp [hne]

/-- An absolute path is started and recorded as the same file. -/
theorem foundAt_of_absolute {found : String} {invocation : Invocation}
    (hfound : p.env.which (toolName step) = some found)
    (habsolute : (PurePath.ofText found).absolute = true) (hcommand : invocation.command = found)
    (hstart : p.startedFile invocation = some file) : p.FoundAt step file := by
  have hslash : found.toList.contains '/' = true := by
    have hhead : found.toList.head? = some '/' := by simpa [PurePath.ofText] using habsolute
    exact List.contains_iff_mem.mpr (List.mem_of_mem_head? hhead)
  have hexpand : p.env.host.expanduser (.ofText found) = .ofText found := by
    unfold Host.expanduser
    rw [habsolute]
  unfold startedFile at hstart
  simp only [hcommand, hslash, if_true] at hstart
  obtain ⟨-, -, hreal⟩ := leadsTo_eq_some.mp hstart
  refine ⟨found, hfound, by rw [hexpand, habsolute], ?_⟩
  rw [hexpand, Host.resolve, ← hreal, AbsPath.join, if_pos habsolute, if_pos habsolute]

/-- Without a redirection and with absolute directories on PATH the two agree. -/
theorem agrees_of_plain (hstep : step ≠ .PREPARE) (h : p.redirection step = none)
    (hpath : p.environ "PATH" ≠ some "")
    (hdirs : ∀ dir ∈ searchDirs (p.environ "PATH"), dir.toList.head? = some '/') :
    p.Agrees scriptDir step := by
  unfold Agrees
  rw [h]
  cases hfound : p.env.which (toolName step) with
  | none => exact fun _ hempty => absurd hempty hpath
  | some found =>
    refine .inl ?_
    rw [p.which_eq _ (@plain_toolName p step hstep).1, shutilWhich, if_neg hpath] at hfound
    obtain ⟨dir, hdir, rfl⟩ := List.mem_map.mp (List.mem_of_find?_eq_some hfound)
    have hhead : ∀ rest : List Char, (dir.toList ++ rest).head? = some '/' := by
      intro rest
      rw [List.head?_append, hdirs dir hdir]
      rfl
    have hne : dir ≠ "" := by
      rintro rfl
      cases hdirs "" hdir
    show ((osJoin dir (toolName step)).toList.head? == some '/') = true
    unfold osJoin
    rw [if_neg hne, beq_iff_eq]
    split
    · rw [String.toList_append]
      exact hhead _
    · rw [String.toList_append, String.toList_append, List.append_assoc]
      exact hhead _

/-- The record of a file that the lookup finds identifies it. -/
theorem identifies_of_foundAt (hinj : p.env.CollisionFree) (hstep : step ≠ .PREPARE)
    (h : p.FoundAt step file) : Identifies p step file where
  recorded := (recorded_eq_some hstep).mpr h
  changes := by
    intro old oldMtime content mtimeNs hnode hne workspace tool upstream
    obtain ⟨found, hfound, habsolute, hfile⟩ := h
    refine expectedSignature_replaced_ne hinj (toolName_of_ne hstep).1 ?_ ?_ hnode hne _ _ _
    · rwa [hfound]
    · rwa [hfound]

/-- The file a step starts is the one its record identifies, exactly when what decides the
command agrees with the lookup. -/
theorem identifies_iff (p : Process) (hinj : p.env.CollisionFree) (scriptDir : AbsPath)
    (step : StepEnum) (hstep : step ∈ [StepEnum.REVIEW, .ELAB, .LINT, .SIM]) :
    (∀ file, p.invoked scriptDir step = some file → Identifies p step file) ↔
      p.Agrees scriptDir step := by
  have hne : step ≠ .PREPARE := by
    rintro rfl
    exact absurd hstep (by decide)
  have hname := (@plain_toolName p step hne).1
  have hfoundAt : ∀ file, Identifies p step file ↔ p.FoundAt step file := fun file =>
    ⟨fun h => (recorded_eq_some hne).mp h.recorded, identifies_of_foundAt hinj hne⟩
  simp only [hfoundAt]
  unfold invoked Agrees
  cases hredirection : p.redirection step with
  | some text => rw [invocation_of_redirection hredirection, Option.bind_some, namesTool_iff]
  | none =>
    cases hfound : p.env.which (toolName step) with
    | some found =>
      have hnonempty := found_ne_empty hname (@plain_toolName p step hne).2.1 hfound
      rw [invocation_of_found hne hredirection hfound hnonempty, Option.bind_some]
      have hcommand : (p.inStep scriptDir step found).command = found := by
        cases step <;> rfl
      dsimp only
      rw [← namesTool_iff]
      constructor
      · exact .inr
      · rintro (habsolute | hstart) file hfile
        · exact foundAt_of_absolute hfound habsolute hcommand hfile
        · exact hstart file hfile
    | none =>
      rw [invocation_of_missing hne hredirection hfound]
      have hnotFound : ∀ file, ¬p.FoundAt step file := by
        rintro file ⟨found, hsome, -⟩
        rw [hfound] at hsome
        cases hsome
      by_cases hreview : step = .REVIEW
      · subst hreview
        simp
      · have hstarts : step ∈ [StepEnum.ELAB, .LINT, .SIM] := (List.mem_cons.mp hstep).resolve_left hreview
        have hinStep : p.inStep scriptDir step (toolName step) =
            ⟨toolName step, p.env.host.cwd, p.environ "PATH"⟩ := by
          cases step with
          | REVIEW => exact absurd rfl hreview
          | PREPARE | ELAB | LINT | SIM => rfl
        rw [if_neg hreview, Option.bind_some]
        constructor
        · intro hall _ hpath hcan
          refine hnotFound (p.placeOf p.env.host.cwd (toolName step)) (hall _ ?_)
          rw [hinStep, startedFile_of_empty hname hpath]
          exact leadsTo_starts.mpr ⟨hcan, rfl⟩
        · intro hempty file hfile
          by_cases hpath : p.environ "PATH" = some ""
          · rw [hinStep, startedFile_of_empty hname hpath] at hfile
            exact absurd (leadsTo_starts.mp hfile).1 (hempty hstarts hpath)
          · rw [hinStep, startedFile_of_missing hname hfound hpath] at hfile
            cases hfile

end Process

/-! ### Two environments -/

def slangEnv : Env := .ofNodes [(["bin", "slang"], .file [] 1), (["opt", "slang"], .file [] 2)]

def isSlang (file : AbsPath) : Bool := file == ["bin", "slang"] || file == ["opt", "slang"]

/-- A process with PATH `/bin`, where slang is installed, and the value of `ECOS_SLANG`. -/
def slangProcess (ecosSlang : String) : Process where
  env := { slangEnv with which := shutilWhich slangEnv.host isSlang (some "/bin") }
  environ := fun name =>
    if name = "PATH" then some "/bin" else if name = "ECOS_SLANG" then some ecosSlang else none
  glob := fun _ _ => []
  accessible := isSlang
  starts := isSlang
  accessible_of_starts := fun _ h => h
  which_eq := fun _ _ => rfl

/-- Without an override the started slang is the recorded one. -/
theorem slangProcess_identifies : Identifies (slangProcess " ") .ELAB ["bin", "slang"] :=
  (Process.identifies_iff (slangProcess " ") (Env.ofNodes_collisionFree []) ["ws"] .ELAB
    (by decide)).mpr (Process.agrees_of_plain (by decide) (by decide) (by decide) (by decide)) _
    (by decide)

/-- With `ECOS_SLANG=/opt/slang` the step starts one slang and records another. -/
theorem slangProcess_override :
    (slangProcess "/opt/slang").env.CollisionFree ∧
      ¬∀ file, (slangProcess "/opt/slang").invoked ["ws"] .ELAB = some file →
        Identifies (slangProcess "/opt/slang") .ELAB file := by
  refine ⟨Env.ofNodes_collisionFree [], fun hall => ?_⟩
  have hrecorded := (hall ["opt", "slang"] (by decide)).recorded
  exact absurd hrecorded (by decide)

end EccFe.Engine
