/-
EccFe.Data.Workspace — `load_workspace` of `fecompiler/data/workspace.py`.

A workspace dict is what the tools read. Loading builds it from parameters.json:
lists of texts are stripped, booleans are read from several spellings, every
other runtime field becomes a stripped text, and four fields are kept as JSON.
`loadedField` is that conversion for one field.
-/
import EccFe.Resources
import EccFe.Tools.RtlInputs
import Mathlib.Data.List.Sort

namespace EccFe.Data

open Python
open Tools.RtlInputs (Workspace)

/-! ## 1. The fields -/

def runtimeListParameterFields : List String :=
  ["sim_cpp_sources", "sim_cflags", "sim_ldflags", "sim_run_args", "sim_images",
    "sim_program_names", "sim_program_sources", "sim_compile_extra_cflags",
    "core_supported_test_suites", "soc_supported_test_suites"]

def listParameterFields : List String := runtimeListParameterFields ++ ["required_cpu_top_ports"]

def boolParameterFields : List String :=
  ["sim_all_tests", "sim_build_all_programs", "cpu_supports_difftest", "soc_supports_difftest",
    "sim_coremark_has_float", "sim_coremark_use_difftest"]

def strParameterFields : List String :=
  ["frontend_design_kind", "cpu_filelist", "soc_filelist", "prepared_manifest", "testbench",
    "sim_tests_dir", "sim_programs_dir", "sim_tests_out_dir", "sim_soc_root",
    "sim_build_test_script", "sim_program_link_base", "sim_compile_preset",
    "sim_compile_opt_level", "sim_compile_march", "sim_compile_mabi", "sim_coremark_iterations",
    "sim_coremark_total_data_size", "sim_coremark_max_cycles", "soc_variant", "soc_wrapper_id",
    "soc_wrapper_contract", "soc_wrapper_top", "cpu_wrapper_id", "cpu_wrapper_contract",
    "cpu_socket_contract", "cpu_wrapper_top", "cpu_reset_vector", "soc_cpu_reset_vector",
    "soc_default_program_link_base", "soc_bootloader_payload_link_base", "frontend_core_id",
    "required_cpu_top_module"]

def jsonParameterFields : List String :=
  ["required_cpu_top_port_contract", "review_waivers", "lint_waivers", "resource_versions"]

/-! ## 2. Conversions -/

def toStrList : Json → List String
  | .arr items => (items.map fun item => strip item.pyStr).filter (· ≠ "")
  | .str s => [strip s].filter (· ≠ "")
  | _ => []

def toBool : Json → Bool
  | .bool b => b
  | .int n => (Json.int n).truthy
  | .float x => (Json.float x).truthy
  | .str s => lower (strip s) ∈ ["1", "true", "yes", "on"]
  | _ => false

def defaultBoolParameter (field : String) : Bool :=
  field ∈ ["cpu_supports_difftest", "soc_supports_difftest"]

def defaultJsonParameter (field : String) : Json :=
  if endsWith field.toList "_waivers" || endsWith field.toList "_contract" then .arr [] else .obj []

def textList (texts : List String) : Json := .arr (texts.map .str)

/-- The conversion of one field, for the value parameters.json has under it. -/
def loadedField (field : String) (raw : Option Json) : Json :=
  if field ∈ listParameterFields then textList (toStrList (raw.getD (.arr [])))
  else if field ∈ boolParameterFields then
    .bool (toBool (raw.getD (.bool (defaultBoolParameter field))))
  else if field ∈ strParameterFields then .str (strip (raw.getD (.str "")).pyStr)
  else raw.getD (defaultJsonParameter field)

/-! ## 3. Loading -/

inductive LoadError where
  | osError (path : AbsPath)
  | invalidJson (path : AbsPath)
  /-- The file holds no JSON object, and `.get` raises. -/
  | notAnObject (path : AbsPath)
  deriving DecidableEq

def readJson (env : Env) (path : AbsPath) : Except LoadError Dict :=
  if !env.fs.exists? path then .ok []
  else
    match env.fs.readBytes path with
    | none => .error (.osError path)
    | some bytes =>
        match env.jsonLoad bytes with
        | some (.obj fields) => .ok fields
        | some _ => .error (.notAnObject path)
        | none => .error (.invalidJson path)

def pickFirst (env : Env) (originDir : AbsPath) (suffixes : List String) : Option String :=
  suffixes.findSome? fun suffix =>
    (((env.listDir originDir).filter fun name => endsWith name.toList suffix).insertionSort
      (· ≤ ·)).head?.map fun name => PurePath.absText (originDir ++ [name])

def parametersPath (projectDir : AbsPath) : AbsPath := projectDir ++ ["home", "parameters.json"]

/-- `str(base / text)`. -/
def pathTextIn (base : AbsPath) (text : String) : String :=
  PurePath.text (PurePath.join ⟨true, base⟩ (.ofText text))

/-- The filelist the parameters name, or the first one in origin/. -/
def inputFilelist (env : Env) (originDir : AbsPath) (parameters : Dict) : String :=
  let named := strip (parameters.textAt "input_filelist")
  if named ≠ "" ∧ env.fs.exists? (env.host.resolve (.ofText named)) = true then named
  else (pickFirst env originDir [".f", ".fl", ".filelist"]).getD ""

def baseFields (env : Env) (projectDir : AbsPath) (parameters : Dict) : Workspace :=
  let design := (parameters.getD "Design" (.str (projectDir.getLast?.getD ""))).pyStr
  let originDir := projectDir ++ ["origin"]
  [("directory", .str (PurePath.absText projectDir)), ("design", .str design),
    ("top_module", .str (parameters.getD "Top module" (.str "top")).pyStr),
    ("parameters_path", .str (PurePath.absText (parametersPath projectDir))),
    ("flow_path", .str (PurePath.absText (projectDir ++ ["home", "flow.json"]))),
    ("home_path", .str (PurePath.absText (projectDir ++ ["home", "home.json"]))),
    ("origin_def", .str ((pickFirst env originDir [".def", ".def.gz"]).getD
      (pathTextIn originDir (design ++ ".def")))),
    ("origin_verilog", .str ((pickFirst env originDir [".sv", ".v", ".sv.gz", ".v.gz"]).getD
      (pathTextIn originDir (design ++ ".v")))),
    ("input_filelist", .str (inputFilelist env originDir parameters))]

def loadedFields (fields : List String) (parameters : Dict) : Workspace :=
  fields.map fun field => (field, loadedField field (parameters.get field))

/-- The workspace dict made of the parameters. -/
def workspaceOf (env : Env) (projectDir : AbsPath) (parameters : Dict) : Workspace :=
  let listed := (baseFields env projectDir parameters).update
    (loadedFields listParameterFields parameters)
  let flagged := Dict.update listed (loadedFields boolParameterFields parameters)
  let named := Dict.update flagged (loadedFields strParameterFields parameters)
  Dict.update named (loadedFields jsonParameterFields parameters)

/-- `load_workspace(directory)`; `none` when there is no such directory. -/
def loadWorkspace (env : Env) (directory : String) : Except LoadError (Option Workspace) :=
  let projectDir := env.host.resolveText directory
  if !env.fs.exists? projectDir then .ok none
  else
    (readJson env (parametersPath projectDir)).map fun parameters =>
      some (workspaceOf env projectDir parameters)

/-! ## 4. The loaded dict -/

def parameterFields : List String :=
  listParameterFields ++ boolParameterFields ++ strParameterFields ++ jsonParameterFields

section

variable (env : Env) (projectDir : AbsPath) (parameters : Dict)

theorem keys_loadedFields (fields : List String) :
    Dict.keys (loadedFields fields parameters) = fields := by
  rw [Dict.keys, loadedFields, List.map_map]
  exact List.map_id fields

theorem get_loadedFields {fields : List String} {field : String} (h : field ∈ fields) :
    Dict.get (loadedFields fields parameters) field =
      some (loadedField field (Dict.get parameters field)) := by
  induction fields with
  | nil => simp at h
  | cons f rest ih =>
    rw [loadedFields, List.map_cons, Dict.get_cons]
    by_cases hf : f = field
    · rw [if_pos hf, hf]
    · rw [if_neg hf]
      exact ih (by simpa [Ne.symm hf] using h)

theorem get_loadedFields_of_not_mem {fields : List String} {field : String} (h : field ∉ fields) :
    Dict.get (loadedFields fields parameters) field = none :=
  Dict.get_eq_none_of_not_mem _ _ (by rwa [keys_loadedFields])

theorem get_update_loadedFields (d : Dict) {fields : List String} (hnodup : fields.Nodup)
    (field : String) :
    Dict.get (Dict.update d (loadedFields fields parameters)) field =
      if field ∈ fields then some (loadedField field (Dict.get parameters field))
      else Dict.get d field := by
  rw [Dict.get_update _ (by rwa [keys_loadedFields])]
  split
  · rename_i h
    rw [get_loadedFields _ h, Option.some_or]
  · rename_i h
    rw [get_loadedFields_of_not_mem _ h, Option.none_or]

/-- A field of a loaded workspace. -/
theorem get_workspaceOf (field : String) :
    Dict.get (workspaceOf env projectDir parameters) field =
      if field ∈ parameterFields then some (loadedField field (Dict.get parameters field))
      else Dict.get (baseFields env projectDir parameters) field := by
  simp only [workspaceOf]
  rw [get_update_loadedFields _ _ (by decide), get_update_loadedFields _ _ (by decide),
    get_update_loadedFields _ _ (by decide), get_update_loadedFields _ _ (by decide)]
  by_cases hlist : field ∈ listParameterFields <;> by_cases hbool : field ∈ boolParameterFields <;>
    by_cases hstr : field ∈ strParameterFields <;> by_cases hjson : field ∈ jsonParameterFields <;>
      simp [parameterFields, hlist, hbool, hstr, hjson]

/-- Every loaded workspace has the same keys, in the same order. -/
theorem keys_workspaceOf (env' : Env) (projectDir' : AbsPath) (parameters' : Dict) :
    Dict.keys (workspaceOf env projectDir parameters) =
      Dict.keys (workspaceOf env' projectDir' parameters') := by
  have hfields : ∀ fields, Dict.keys (loadedFields fields parameters) =
      Dict.keys (loadedFields fields parameters') := fun fields => by
    rw [keys_loadedFields, keys_loadedFields]
  simp only [workspaceOf]
  refine Dict.keys_update_congr (hfields _) _ _ ?_
  refine Dict.keys_update_congr (hfields _) _ _ ?_
  refine Dict.keys_update_congr (hfields _) _ _ ?_
  refine Dict.keys_update_congr (hfields _) _ _ ?_
  simp only [baseFields, Dict.keys, List.map_cons, List.map_nil]

theorem nodup_keys_workspaceOf : (Dict.keys (workspaceOf env projectDir parameters)).Nodup := by
  have hbase : (Dict.keys (baseFields env projectDir parameters)).Nodup := by
    simp [baseFields, Dict.keys]
  exact Dict.nodup_keys_update _ _ (Dict.nodup_keys_update _ _ (Dict.nodup_keys_update _ _
    (Dict.nodup_keys_update _ _ hbase)))

end

end EccFe.Data
