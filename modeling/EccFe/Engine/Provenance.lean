/-
EccFe.Engine.Provenance — `fecompiler/engine/provenance.py`: the record a
successful step leaves behind, and the signature a later check recomputes.

A record names its inputs (the workspace fingerprint and the identity of the
step before), the configuration the step reads, the resource versions and the
tools. Three of them are hashed, and the signature hashes the three hashes with
the step's name.
-/
import EccFe.Tools.RtlInputs
import EccFe.Python.JsonText
import Mathlib.Data.List.Dedup

namespace EccFe.Engine

open Python Tools.RtlInputs

/-! ## 1. What each step reads -/

def schemaVersion : Int := 1

def stepConfigFields : String → List String
  | "prepare" =>
      ["top_module", "cpu_wrapper_id", "cpu_wrapper_contract", "cpu_socket_contract",
        "cpu_wrapper_top", "required_cpu_top_module", "required_cpu_top_ports",
        "required_cpu_top_port_contract", "cpu_reset_vector", "soc_cpu_reset_vector",
        "soc_wrapper_id", "soc_wrapper_contract", "soc_wrapper_top"]
  | "review" => ["review_waivers"]
  | "elab" => ["top_module"]
  | "lint" => ["top_module", "lint_profile", "lint_baseline", "lint_waivers"]
  | _ => []

def simConfigFields : List String :=
  ["testbench", "frequency_max", "Frequency max [MHz]", "cpu_supports_difftest",
    "soc_supports_difftest"]

def stepSourceFiles : String → List (List String)
  | "prepare" => [["tools", "prepare", "runner.py"]]
  | "review" =>
      [["tools", "review", "runner.py"], ["tools", "review", "analyzer.py"],
        ["tools", "review", "structural_probe.py"]]
  | "elab" => [["tools", "slang", "runner.py"]]
  | "lint" => [["tools", "verilator", "runner.py"]]
  | "sim" => [["tools", "verilator", "runner.py"]]
  | _ => []

def commonStepSourceFiles : List (List String) := [["analysis", "qor.py"]]

def stepExecutables : String → List String
  | "review" => ["yosys"]
  | "elab" => ["slang"]
  | "lint" => ["verilator"]
  | "sim" => ["verilator"]
  | _ => []

/-! ## 2. Fingerprints -/

/-- The bytes of an ASCII text as characters. -/
def asciiText (cs : List Char) : List UInt8 := cs.map fun c => UInt8.ofNat c.toNat

/-- `hashlib.sha256(json.dumps(value, sort_keys=True, ...).encode("utf-8")).hexdigest()`. -/
def stableFingerprint (env : Env) (value : Json) : String := env.sha256 (asciiText (dumps value))

/-- `_normalize_value`: dict items in key order at every level. JSON has no `Path`
and no other type, so the remaining branches of the source are the identity. -/
def normalizeValue (v : Json) : Json := sortKeys v

/-- `_file_sha256(path)`: empty for a file that cannot be read. -/
def fileSha256 (env : Env) (path : AbsPath) : String :=
  match env.fs.readBytes path with
  | none => ""
  | some bytes => env.sha256 bytes

/-! ## 3. The parts of a record -/

def workspaceParameters (env : Env) (workspace : Workspace) : Dict :=
  let path := strip (workspace.textAt "parameters_path")
  if path = "" then [] else (env.jsonRead (env.host.resolve (.ofText path))).asDict

/-- The parameters file with the workspace's own values over it. -/
def mergedParameters (workspace : Workspace) (parameters : Dict) : Dict :=
  parameters.update workspace

/-- The fields of the merged parameters one step's configuration is made of. -/
def configurationFields (merged : Dict) (stepName : String) : List String :=
  if stepName = "sim" then
    stepConfigFields stepName ++ simConfigFields ++
      (merged.keys.filter fun key => startsWith key.toList "sim_").insertionSort (· ≤ ·)
  else stepConfigFields stepName

/-- One item of a configuration; an absent field has none. -/
def configurationItem (merged : Dict) (field : String) : Option (String × Json) :=
  (merged.get field).map fun value => (field, normalizeValue value)

def configurationOf (merged : Dict) (stepName : String) : Dict :=
  (configurationFields merged stepName).dedup.filterMap (configurationItem merged)

def stepConfiguration (workspace : Workspace) (parameters : Dict) (stepName : String) : Dict :=
  configurationOf (mergedParameters workspace parameters) stepName

def resourceVersions (parameters : Dict) : Json :=
  match parameters.get "resource_versions" with
  | some (.obj fields) => normalizeValue (.obj fields)
  | some (.arr items) => normalizeValue (.arr items)
  | _ => .obj []

def pathIdentity (env : Env) (rawPath : String) : Dict :=
  let path := env.host.expanduser (.ofText rawPath)
  if !path.absolute then [("path", .str rawPath), ("available", .bool false)]
  else
    let resolved := env.host.resolve path
    let identity : Dict :=
      [("path", .str (PurePath.absText resolved)), ("available", .bool (env.fs.isFile resolved))]
    match env.fs.node resolved with
    | some (.file content mtimeNs) =>
        identity ++ [("size", .int content.length), ("mtime_ns", .int mtimeNs)]
    | _ => identity

def runnerSources (env : Env) (stepName : String) : Dict :=
  (stepSourceFiles stepName ++ commonStepSourceFiles).map fun relative =>
    ("/".intercalate ("fecompiler" :: relative),
      .str (fileSha256 env (env.frontendRepoRoot ++ "fecompiler" :: relative)))

def executableIdentities (env : Env) (stepName : String) : Dict :=
  (stepExecutables stepName).map fun name =>
    (name, .obj (pathIdentity env ((env.which name).getD name)))

def toolIdentity (env : Env) (stepName tool : String) : Dict :=
  [("runner", .str tool), ("runtime_root", .str (PurePath.absText env.frontendRepoRoot)),
    ("runner_sources", .obj (runnerSources env stepName)),
    ("executables", .obj (executableIdentities env stepName))]

/-- What a record keeps of the step before: three texts, empty without one. -/
def upstreamIdentity (upstream : Option Dict) : Dict :=
  let previous := upstream.getD []
  [("step", .str (previous.textAt "step")), ("signature", .str (previous.textAt "signature")),
    ("output_fingerprint", .str (previous.textAt "output_fingerprint"))]

def provenanceInputs (env : Env) (workspace : Workspace) (upstream : Option Dict) : Json :=
  .obj [("source", .obj (workspaceInputFingerprint env workspace)),
    ("upstream", .obj (upstreamIdentity upstream))]

def provenanceTools (env : Env) (parameters : Dict) (stepName tool : String) : Json :=
  .obj [("resources", resourceVersions parameters),
    ("tools", .obj (toolIdentity env stepName tool))]

/-! ## 4. The record -/

/-- The hash of the step's name and the three fingerprints. -/
def signatureOf (env : Env) (stepName inputFingerprint configFingerprint toolFingerprint : String) :
    String :=
  stableFingerprint env (.obj [("schema_version", .int schemaVersion), ("step", .str stepName),
    ("input_fingerprint", .str inputFingerprint), ("config_fingerprint", .str configFingerprint),
    ("tool_fingerprint", .str toolFingerprint)])

def buildStepProvenance (env : Env) (workspace : Workspace) (stepName tool : String)
    (upstream : Option Dict) : Dict :=
  let parameters := workspaceParameters env workspace
  let inputs := provenanceInputs env workspace upstream
  let configuration := Json.obj (stepConfiguration workspace parameters stepName)
  let tools := provenanceTools env parameters stepName tool
  let inputFingerprint := stableFingerprint env inputs
  let configFingerprint := stableFingerprint env configuration
  let toolFingerprint := stableFingerprint env tools
  [("schema_version", .int schemaVersion), ("step", .str stepName), ("tool", .str tool),
    ("inputs", inputs), ("configuration", configuration),
    ("resources", resourceVersions parameters), ("tools", .obj (toolIdentity env stepName tool)),
    ("input_fingerprint", .str inputFingerprint), ("config_fingerprint", .str configFingerprint),
    ("tool_fingerprint", .str toolFingerprint),
    ("signature", .str (signatureOf env stepName inputFingerprint configFingerprint toolFingerprint))]

/-- The signature of the record a step would get now. -/
def expectedSignature (env : Env) (workspace : Workspace) (stepName tool : String)
    (upstream : Option Dict) : String :=
  (buildStepProvenance env workspace stepName tool upstream).textAt "signature"

def outputFingerprint (env : Env) (paths : List String) : String :=
  let named := (paths.filter fun path => strip path ≠ "").dedup.insertionSort (· ≤ ·)
  env.sha256 ((named.map env.host.resolveText).flatMap (digestEntry env))

@[simp] theorem textAt_signature_build (env : Env) (workspace : Workspace)
    (stepName tool : String) (upstream : Option Dict) :
    (buildStepProvenance env workspace stepName tool upstream).textAt "signature" =
      signatureOf env stepName
        (stableFingerprint env (provenanceInputs env workspace upstream))
        (stableFingerprint env
          (.obj (stepConfiguration workspace (workspaceParameters env workspace) stepName)))
        (stableFingerprint env
          (provenanceTools env (workspaceParameters env workspace) stepName tool)) := rfl

end EccFe.Engine
