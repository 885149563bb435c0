/-
EccFe.Engine.CacheSoundness — the source files of a design against the files a
signature covers.

`Consumes` says what the tools read: headers found through the include
directories, and the C++ sources of the simulation. What a signature covers is
`hashedFiles`. Rewriting a source file changes the signature exactly when it is
one of those, whether or not a tool reads it (`expectedSignature_write_eq_iff`).
-/
import EccFe.Engine.Signature
import EccFe.Engine.Step
import EccFe.Tools.InputDigest
import EccFe.Tools.Verilator.Sources

namespace EccFe.Engine

open Python Search Tools.RtlInputs Tools.Verilator

/-! ## 1. What the tools read -/

/-- The directive that includes `name`. -/
def includeDirective (name : String) : List Char := "`include \"".toList ++ name.toList ++ ['"']

/-- `p` is included by a prepared RTL file and found in an include directory. -/
def IncludedHeader (env : Env) (data : Dict) (p : AbsPath) : Prop :=
  ∃ dir ∈ incdirs env data, ∃ rtl ∈ rtlFiles data, ∃ name content,
    env.fs.readBytes (env.host.resolveText rtl) = some content ∧
      contains (includeDirective name) (decodeIgnore content) = true ∧
      env.host.resolve ((PurePath.ofText dir).join (.ofText name)) = p

/-- The step's tool reads the source file `p`. -/
inductive Consumes (env : Env) (workspace : Workspace) (p : AbsPath) : StepEnum → Prop
  | header (data : Dict) (step : StepEnum) : preparedInputs? env workspace = some data →
      IncludedHeader env data p → step ∈ [StepEnum.ELAB, .LINT, .SIM] → Consumes env workspace p step
  | cppSource (data : Dict) (source : String) : preparedInputs? env workspace = some data →
      source ∈ simCppSources workspace → env.host.resolve (.ofText source) = p →
      Consumes env workspace p .SIM

/-! ## 2. Source files and the other files of a signature -/

def parametersFile? (env : Env) (workspace : Workspace) : Option AbsPath :=
  let path := strip (workspace.textAt "parameters_path")
  if path = "" then none else some (env.host.resolve (.ofText path))

def runnerSourceFile (env : Env) (relative : List String) : AbsPath :=
  env.fs.realpath (env.frontendRepoRoot ++ "fecompiler" :: relative)

def executableFile (env : Env) (name : String) : AbsPath :=
  env.host.resolve (env.host.expanduser (.ofText ((env.which name).getD name)))

/-- `p` is a source of the design: no filelist, and none of the program's own files. -/
structure DesignSource (env : Env) (workspace : Workspace) (p : AbsPath) (stepName : String) :
    Prop where
  notFilelist : ¬OpenedAsFilelist env workspace p
  notParameters : parametersFile? env workspace ≠ some p
  notRunner : ∀ relative ∈ stepSourceFiles stepName ++ commonStepSourceFiles,
    runnerSourceFile env relative ≠ p
  notExecutable : ∀ name ∈ stepExecutables stepName, executableFile env name ≠ p

section

variable {env : Env} {workspace : Workspace} {p : AbsPath} (content : List UInt8)

theorem workspaceParameters_write (h : parametersFile? env workspace ≠ some p) :
    workspaceParameters (env.write p content) workspace = workspaceParameters env workspace := by
  rw [parametersFile?] at h
  rw [workspaceParameters, workspaceParameters]
  split
  · rfl
  · rename_i hpath
    rw [if_neg hpath, ne_eq, Option.some.injEq] at h
    rw [Env.write_resolve, Env.jsonRead, Env.jsonRead, env.write_readBytes_ne]
    · rfl
    · rw [env.host.realpath_resolve]
      exact h

theorem runnerSources_write {stepName : String}
    (h : ∀ relative ∈ stepSourceFiles stepName ++ commonStepSourceFiles,
      runnerSourceFile env relative ≠ p) :
    runnerSources (env.write p content) stepName = runnerSources env stepName := by
  rw [runnerSources, runnerSources]
  refine List.map_congr_left fun relative hmem => ?_
  have hread : fileSha256 (env.write p content) (env.frontendRepoRoot ++ "fecompiler" :: relative) =
      fileSha256 env (env.frontendRepoRoot ++ "fecompiler" :: relative) := by
    rw [fileSha256, fileSha256, env.write_readBytes_ne p content (h relative hmem)]
    rfl
  rw [← hread]
  rfl

theorem pathIdentity_write {rawPath : String}
    (h : env.host.resolve (env.host.expanduser (.ofText rawPath)) ≠ p) :
    pathIdentity (env.write p content) rawPath = pathIdentity env rawPath := by
  have hnode : (env.write p content).fs.node
      (env.host.resolve (env.host.expanduser (.ofText rawPath))) =
        env.fs.node (env.host.resolve (env.host.expanduser (.ofText rawPath))) := by
    show (env.fs.write p content).node _ = _
    rw [FileSystem.node_write, env.host.realpath_resolve]
    cases env.fs.node (env.host.resolve (env.host.expanduser (.ofText rawPath))) with
    | none => rfl
    | some n => cases n <;> simp [h]
  have hisFile : (env.write p content).fs.isFile
      (env.host.resolve (env.host.expanduser (.ofText rawPath))) =
        env.fs.isFile (env.host.resolve (env.host.expanduser (.ofText rawPath))) :=
    FileSystem.isFile_write _ _ _ _
  simp only [pathIdentity, Env.write_expanduser, Env.write_resolve, hnode, hisFile]

theorem toolIdentity_write {stepName : String} (h : DesignSource env workspace p stepName)
    (tool : String) :
    toolIdentity (env.write p content) stepName tool = toolIdentity env stepName tool := by
  have hexec : executableIdentities (env.write p content) stepName =
      executableIdentities env stepName := by
    rw [executableIdentities, executableIdentities]
    refine List.map_congr_left fun name hname => ?_
    rw [← pathIdentity_write content (h.notExecutable name hname)]
    rfl
  rw [toolIdentity, toolIdentity, runnerSources_write content h.notRunner, hexec]
  rfl

/-- Rewriting a source file keeps the signature unless the fingerprint hashes it. -/
theorem expectedSignature_write_eq_iff (hinj : env.CollisionFree) {old : List UInt8}
    (hfile : env.fs.readBytes p = some old) (hne : content ≠ old) {stepName : String}
    (h : DesignSource env workspace p stepName) (tool : String) (upstream : Option Dict) :
    expectedSignature (env.write p content) workspace stepName tool upstream =
        expectedSignature env workspace stepName tool upstream ↔
      p ∉ hashedFiles env workspace := by
  rw [expectedSignature_eq_iff hinj (env.write_sha256 p content), provenanceInputs_eq_iff,
    workspaceInputFingerprint_write_eq_iff env workspace content hinj hfile hne h.notFilelist,
    workspaceParameters_write content h.notParameters, provenanceTools, provenanceTools,
    toolIdentity_write content h]
  exact ⟨fun h => h.1, fun h => ⟨h, rfl, rfl⟩⟩

/-! ## 3. Soundness of the cache for one file -/

variable (env workspace p)

/-- No step that reads `p` keeps its signature when the content of `p` changes. -/
def CacheSound : Prop :=
  ∀ step, Consumes env workspace p step → ∀ (tool : String) (upstream : Option Dict)
    (content : List UInt8), env.fs.readBytes p ≠ some content →
      expectedSignature (env.write p content) workspace step.value tool upstream ≠
        expectedSignature env workspace step.value tool upstream

/-- The cache is sound for a file the tools read exactly when the workspace fingerprint
hashes that file. -/
theorem cacheSound_iff (hinj : env.CollisionFree) (hfile : env.fs.isFile p = true)
    (hdesign : ∀ step, Consumes env workspace p step → DesignSource env workspace p step.value)
    (hconsumed : ∃ step, Consumes env workspace p step) :
    CacheSound env workspace p ↔ p ∈ hashedFiles env workspace := by
  obtain ⟨old, hold⟩ := FileSystem.isFile_iff.mp hfile
  constructor
  · intro h
    obtain ⟨step, hstep⟩ := hconsumed
    by_contra hnot
    have hne : old ++ [0] ≠ old := by simp
    refine h step hstep "" none (old ++ [0]) ?_ ?_
    · rw [hold, ne_eq, Option.some.injEq]
      exact hne.symm
    · exact (expectedSignature_write_eq_iff _ hinj hold hne (hdesign step hstep) _ _).mpr hnot
  · intro hmem step hstep tool upstream content hcontent heq
    have hne : content ≠ old := by
      rintro rfl
      exact hcontent hold
    exact (expectedSignature_write_eq_iff _ hinj hold hne (hdesign step hstep) _ _).mp heq hmem

end

/-! ## 4. A header the fingerprint does not hash -/

def headerManifest : Dict :=
  [("rtl_files", .arr [.str "/d/top.v"]), ("incdirs", .arr [.str "/d/inc"])]

def headerWorkspace : Workspace :=
  [("origin_verilog", .str "/d/top.v"), ("prepared_manifest", .str "/d/m.json")]

def headerFile : AbsPath := ["d", "inc", "w.vh"]

/-- A design of one file that includes one header. -/
def headerEnv : Env :=
  let manifest := asciiText (dumps (.obj headerManifest))
  { Env.ofNodes [(["d", "top.v"], .file (asciiBytes "`include \"w.vh\"\n") 0),
      (headerFile, .file (asciiBytes "`define W 8\n") 0), (["d", "m.json"], .file manifest 0)] with
    jsonLoad := fun bytes => if bytes = manifest then some (.obj headerManifest) else none }

theorem headerEnv_consumes : Consumes headerEnv headerWorkspace headerFile .ELAB := by
  refine .header headerManifest .ELAB (by decide) ?_ (by decide)
  exact ⟨"/d/inc", by decide, "/d/top.v", by decide, "w.vh", asciiBytes "`include \"w.vh\"\n",
    by decide, by decide, by decide⟩

theorem headerEnv_design (step : StepEnum) :
    DesignSource headerEnv headerWorkspace headerFile step.value where
  notFilelist := by
    rintro ⟨field, hfield, hlist, path, hpath, -⟩
    have hnone : ∀ field ∈ fingerprintPathFields headerWorkspace, isFilelistField field = true →
        fieldPath? headerEnv headerWorkspace field = none := by decide
    rw [hnone field hfield hlist] at hpath
    cases hpath
  notParameters := by decide
  notRunner := by cases step <;> decide
  notExecutable := by cases step <;> decide

theorem headerEnv_collisionFree : headerEnv.CollisionFree := Env.ofNodes_collisionFree []

theorem cacheSound_iff_header :
    CacheSound headerEnv headerWorkspace headerFile ↔
      headerFile ∈ hashedFiles headerEnv headerWorkspace :=
  cacheSound_iff headerEnv headerWorkspace headerFile headerEnv_collisionFree (by decide)
    (fun step _ => headerEnv_design step) ⟨.ELAB, headerEnv_consumes⟩

/-- The header is read by elaboration, and doubling the width it defines changes no
signature. -/
theorem headerEnv_stale :
    headerEnv.CollisionFree ∧ Consumes headerEnv headerWorkspace headerFile .ELAB ∧
      ¬CacheSound headerEnv headerWorkspace headerFile := by
  refine ⟨headerEnv_collisionFree, headerEnv_consumes, fun h => ?_⟩
  have hne : headerEnv.fs.readBytes headerFile ≠ some (asciiBytes "`define W 16\n") := by decide
  refine h .ELAB headerEnv_consumes "slang" none (asciiBytes "`define W 16\n") hne ?_
  refine (expectedSignature_write_eq_iff _ headerEnv_collisionFree
    (show headerEnv.fs.readBytes headerFile = some (asciiBytes "`define W 8\n") by decide)
    (by decide) (headerEnv_design .ELAB) _ _).mpr (by decide)

end EccFe.Engine
