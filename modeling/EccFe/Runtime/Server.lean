/-
EccFe.Runtime.Server — `fecompiler/runtime/server.py`: JSON-RPC dispatch.

A payload is decoded, parsed, validated and handed to a method of the workspace API;
every failure on the way is to become a JSON-RPC error. The API is a parameter: what a
handler returns or raises, on any state.
-/
import EccFe.Python.JsonLoads
import EccFe.Runtime.Transport

namespace EccFe.Runtime.Server

open Python Transport

/-! ## 1. Methods -/

inductive RuntimeMethod where
  | catalogList
  | validateConfig
  | createWorkspace
  | openWorkspace
  | recoverInterrupted
  | closeWorkspace
  | workspaceHome
  | workspaceInfo
  | refreshConfig
  | syncConfig
  | resetFlow
  | flowRun
  | flowRunStep
  deriving DecidableEq

namespace RuntimeMethod

def all : List RuntimeMethod :=
  [catalogList, validateConfig, createWorkspace, openWorkspace, recoverInterrupted, closeWorkspace,
    workspaceHome, workspaceInfo, refreshConfig, syncConfig, resetFlow, flowRun, flowRunStep]

def name : RuntimeMethod → String
  | catalogList => "frontend.catalog"
  | validateConfig => "frontend.validate_config"
  | createWorkspace => "workspace.create"
  | openWorkspace => "workspace.open"
  | recoverInterrupted => "workspace.recover_interrupted"
  | closeWorkspace => "workspace.close"
  | workspaceHome => "workspace.home"
  | workspaceInfo => "workspace.info"
  | refreshConfig => "workspace.refresh_config"
  | syncConfig => "workspace.sync_config"
  | resetFlow => "workspace.reset_flow"
  | flowRun => "flow.run"
  | flowRunStep => "flow.run_step"

/-- `_METHOD_FIELDS`. -/
def fields : RuntimeMethod → List String
  | catalogList => []
  | validateConfig =>
      ["core_id", "cpu_top_module", "soc_harness_id", "toolchain_id", "test_suite_id", "cpu_filelist",
        "cpu_rtl_files"]
  | createWorkspace =>
      ["core_id", "cpu_top_module", "cpu_filelist", "cpu_rtl_files", "directory", "designTool",
        "filelist", "frontend_design_kind", "origin_def", "origin_verilog", "parameters", "pdk",
        "pdk_root", "rtl_list", "sim_all_tests", "sim_build_all_programs", "sim_build_test_script",
        "sim_cflags", "sim_compile_extra_cflags", "sim_compile_mabi", "sim_compile_march",
        "sim_compile_opt_level", "sim_compile_preset", "sim_coremark_has_float",
        "sim_coremark_iterations", "sim_coremark_max_cycles", "sim_coremark_total_data_size",
        "sim_cpp_sources", "sim_images", "sim_ldflags", "sim_program_link_base",
        "sim_program_names", "sim_program_sources", "sim_programs_dir", "sim_run_args",
        "sim_soc_root", "sim_tests_dir", "sim_tests_out_dir", "soc_filelist", "soc_harness_id",
        "soc_variant", "test_suite_id", "testbench", "toolchain_id", "top_module"]
  | openWorkspace => ["directory"]
  | recoverInterrupted => ["workspace_id", "operation_id"]
  | closeWorkspace | workspaceHome | refreshConfig | resetFlow => ["workspace_id"]
  | workspaceInfo => ["workspace_id", "step", "info_id"]
  | syncConfig => ["workspace_id", "config_path"]
  | flowRun => ["workspace_id", "rerun", "operation_id"]
  | flowRunStep =>
      ["workspace_id", "step", "rerun", "operation_id", "sim_test_suite", "sim_cpu_test_mode",
        "sim_cpu_test_cases", "sim_compile_preset", "sim_compile_opt_level", "sim_compile_march",
        "sim_compile_mabi", "sim_compile_extra_cflags", "sim_coremark_iterations",
        "sim_coremark_total_data_size", "sim_coremark_max_cycles", "sim_coremark_has_float"]

/-- `self._handlers.get(method)`. -/
def ofName (method : PyStr) : Option RuntimeMethod := all.find? fun m => pyStr m.name == method

end RuntimeMethod

def commonAliases : List (PyStr × PyStr) :=
  [("cpuRtlFiles", "cpu_rtl_files"), ("frontendDesignKind", "frontend_design_kind"),
    ("configPath", "config_path"), ("id", "info_id"), ("infoId", "info_id"),
    ("simCompileExtraCflags", "sim_compile_extra_cflags"),
    ("simCpuTestCases", "sim_cpu_test_cases"), ("workspaceId", "workspace_id"),
    ("operationId", "operation_id")].map fun (other, field) => (pyStr other, pyStr field)

/-- A value whose strings are literals of the source. -/
def textValue (s : String) : JsonValue := .str (pyStr s)

structure JsonRpcFault where
  code : Int
  message : PyStr
  data : Fields

/-- A fault whose data is one message. -/
def faultOf (code : Int) (message : String) (text : PyStr) : JsonRpcFault :=
  ⟨code, pyStr message, [(pyStr "message", .str text)]⟩

/-! ## 2. Parameters -/

def rejectUnknownFields (params : Fields) (allowed : List String) : Except JsonRpcFault Unit :=
  let unknown := params.keys.filter fun key => !(allowed.map pyStr).contains key
  match (unknown.mergeSort fun a b => decide (a ≤ b)).head? with
  | some field => .error (faultOf (-32602) "invalid_request" (pyStr "unknown field: " ++ field))
  | none => .ok ()

/-- The loop of `_normalize_params`. -/
def renameParams : Fields → Fields → Except JsonRpcFault Fields
  | [], normalized => .ok normalized
  | (key, value) :: rest, normalized =>
      let normalizedKey := (commonAliases.lookup key).getD key
      if normalizedKey ∈ normalized.keys then
        .error (faultOf (-32602) "invalid_request" (pyStr "duplicate field: " ++ normalizedKey))
      else renameParams rest (normalized ++ [(normalizedKey, value)])

def normalizeParams (method : RuntimeMethod) (params : Fields) : Except JsonRpcFault Fields := do
  let normalized ← renameParams params []
  rejectUnknownFields normalized method.fields
  return normalized

/-! ## 3. Requests -/

/-- How a handler ends. -/
inductive HandlerOutcome where
  | returned (result : JsonValue)
  | runtimeApiError (code message : PyStr) (data : Fields)
  /-- Any other `Exception`, with its `str`. -/
  | exception (text : PyStr)

/-- The workspace API, over the states it keeps. -/
structure RuntimeApi (σ : Type) where
  call : RuntimeMethod → Fields → σ → HandlerOutcome × σ
  /-- `sessions.close_all()`. -/
  closeAll : σ → σ
  /-- `_package_version()`. -/
  packageVersion : String

structure RuntimeServer (σ : Type) where
  api : σ
  shouldExit : Bool

/-- `ERROR_CODES.get(code, -32000)`. -/
def errorCode (code : PyStr) : Int :=
  if code = pyStr "workspace_session_not_found" then -32010
  else if code = pyStr "command_failed" then -32020
  else if code = pyStr "invalid_request" then -32602
  else -32000

/-- What `_dispatch_request` makes of the end of a handler. -/
def HandlerOutcome.answer : HandlerOutcome → Except JsonRpcFault JsonValue
  | returned result => .ok result
  | runtimeApiError code message data =>
      .error ⟨errorCode code, code,
        data.foldl (fun fields kv => fields.set kv.1 kv.2) [(pyStr "message", .str message)]⟩
  | exception text => .error (faultOf (-32020) "command_failed" text)

def protocolVersion : Int := 1

/-- `value == 1`. -/
def isVersionOne : JsonValue → Bool
  | .int n => n == 1
  | .bool b => b
  | .float x => x.toRat? == some 1
  | _ => false

def capabilities : List String :=
  ["rpc.hello", "rpc.ping", "rpc.shutdown"] ++ RuntimeMethod.all.map (·.name)

/-- `{"ok": True}`. -/
def okResult : JsonValue := .obj [(pyStr "ok", .bool true)]

section

variable {σ : Type} (api : RuntimeApi σ)

def hello (params : Fields) : Except JsonRpcFault JsonValue := do
  rejectUnknownFields params ["version"]
  let requested := (params.get (pyStr "version")).getD .null
  if isVersionOne requested then
    return .obj [(pyStr "version", .int protocolVersion),
      (pyStr "eccFeVersion", textValue api.packageVersion),
      (pyStr "capabilities", .arr (capabilities.map textValue))]
  else
    .error ⟨-32001, pyStr "unsupported_version",
      [(pyStr "requestedVersion", requested), (pyStr "supportedVersion", .int protocolVersion)]⟩

/-- `_dispatch_request` once the request is valid. -/
def dispatchMethod (method : PyStr) (params : Fields) (server : RuntimeServer σ) :
    Except JsonRpcFault JsonValue × RuntimeServer σ :=
  if method = pyStr "rpc.hello" then (hello api params, server)
  else if method = pyStr "rpc.ping" then
    (do rejectUnknownFields params []; return okResult, server)
  else if method = pyStr "rpc.shutdown" then
    match rejectUnknownFields params [] with
    | .error fault => (.error fault, server)
    | .ok () => (.ok okResult, ⟨api.closeAll server.api, true⟩)
  else
    match RuntimeMethod.ofName method with
    | none => (.error ⟨-32601, pyStr "method_not_found", [(pyStr "method", .str method)]⟩, server)
    | some m =>
        match normalizeParams m params with
        | .error fault => (.error fault, server)
        | .ok normalized =>
            let (outcome, state) := api.call m normalized server.api
            (outcome.answer, { server with api := state })

/-- `request.get("jsonrpc") == "2.0"`. -/
def isVersionTwo (request : Fields) : Bool :=
  match request.get (pyStr "jsonrpc") with
  | some (.str s) => s == pyStr "2.0"
  | _ => false

/-- `request.get("method")` when it is a text that is not empty. -/
def methodOf (request : Fields) : Option PyStr :=
  match request.get (pyStr "method") with
  | some (.str s) => if s = [] then none else some s
  | _ => none

def dispatchRequest (request : Fields) (server : RuntimeServer σ) :
    Except JsonRpcFault JsonValue × RuntimeServer σ :=
  if !isVersionTwo request then
    (.error (faultOf (-32600) "invalid_request" (pyStr "jsonrpc must be 2.0")), server)
  else
    match methodOf request with
    | none => (.error (faultOf (-32600) "invalid_request" (pyStr "method is required")), server)
    | some method =>
        match (request.get (pyStr "params")).getD (.obj []) with
        | .obj params => dispatchMethod api method params server
        | _ => (.error (faultOf (-32602) "invalid_request" (pyStr "params must be an object")), server)

/-! ## 4. Dispatch -/

/-- An exception that leaves `dispatch`. -/
inductive Escaped where
  | unicodeDecodeError
  | recursionError
  | valueError
  /-- `json.dumps` raises on the reply. -/
  | unwritable
  deriving DecidableEq

/-- What is raised while a request is parsed. -/
inductive Raised where
  | fault (f : JsonRpcFault)
  | escaped (e : Escaped)

def replyObject (id : JsonValue) (body : PyStr × JsonValue) : JsonValue :=
  .obj [(pyStr "jsonrpc", textValue "2.0"), (pyStr "id", id), body]

/-- The `error` member of a fault. -/
def errorObject (fault : JsonRpcFault) : JsonValue :=
  .obj ([(pyStr "code", .int fault.code), (pyStr "message", .str fault.message)] ++
    if fault.data = [] then [] else [(pyStr "data", .obj fault.data)])

variable (interp : Interpreter)

/-- `_parse_request(payload)` on bytes. -/
def parseRequest (payload : Bytes) : Except Raised Fields :=
  match decodeUtf8 payload with
  | none => .error (.escaped .unicodeDecodeError)
  | some text =>
      match loads interp text with
      | .error .decodeError =>
          .error (.fault (faultOf (-32700) "parse_error" (pyStr (interp.decodeErrorText text))))
      | .error .recursionError => .error (.escaped .recursionError)
      | .error .valueError => .error (.escaped .valueError)
      | .ok (.obj request) => .ok request
      | .ok _ =>
          .error (.fault (faultOf (-32600) "invalid_request" (pyStr "request must be an object")))

def encodeJson (v : JsonValue) : Except Escaped PyStr :=
  match dumpsText interp v with
  | some text => .ok text
  | none => .error .unwritable

/-- `except JsonRpcFault`. -/
def answerFault (requestId : Option JsonValue) (fault : JsonRpcFault) : Except Escaped PyStr :=
  if requestId.isNone ∧ fault.code ≠ -32700 ∧ fault.code ≠ -32600 then .ok []
  else encodeJson interp (replyObject (requestId.getD .null) (pyStr "error", errorObject fault))

def dispatch (payload : Bytes) (server : RuntimeServer σ) :
    Except Escaped PyStr × RuntimeServer σ :=
  match parseRequest interp payload with
  | .error (.escaped e) => (.error e, server)
  | .error (.fault fault) => (answerFault interp none fault, server)
  | .ok request =>
      let requestId := request.get (pyStr "id")
      match dispatchRequest api request server with
      | (.error fault, server) => (answerFault interp requestId fault, server)
      | (.ok result, server) =>
          (match requestId with
            | none => .ok []
            | some id => encodeJson interp (replyObject id (pyStr "result", result)), server)

/-! ## 5. The contract -/

/-- The payload is a JSON object. -/
def requestOf (payload : Bytes) : Option Fields :=
  match parseRequest interp payload with
  | .ok request => some request
  | .error _ => none

/-- The id a reply echoes: null when there is none to read. -/
def idOf (payload : Bytes) : JsonValue :=
  ((requestOf interp payload).bind fun request => request.get (pyStr "id")).getD .null

/-- The checks that make a request invalid: the version and the method. -/
def PassesValidation (request : Fields) : Prop :=
  isVersionTwo request = true ∧ (methodOf request).isSome = true

/-- A JSON-RPC object with the id and exactly one of result and error. -/
def IsReply (id v : JsonValue) : Prop :=
  ∃ name content, (name = "result" ∨ name = "error") ∧ v = replyObject id (pyStr name, content)

/-- What the result of a dispatch has to be. -/
structure Answers (payload : Bytes) (text : PyStr) : Prop where
  framed : ∃ bytes, encodeUtf8 text = some bytes ∧ (encodeContentLengthFrame bytes).isSome = true
  empty : text = [] → ∃ request, requestOf interp payload = some request ∧
    request.get (pyStr "id") = none ∧ PassesValidation request
  reply : text ≠ [] → ∃ v, dumpsText interp v = some text ∧ IsReply (idOf interp payload) v

/-- The dispatch returns, and what it returns is right. -/
def Dispatches (payload : Bytes) (server : RuntimeServer σ) : Prop :=
  ∃ text, (dispatch api interp payload server).1 = .ok text ∧ Answers interp payload text

/-- The value can be sent: `json.dumps` writes it, and the frame's encoder takes the text. -/
structure Sendable (v : JsonValue) : Prop where
  depth : v.depth ≤ interp.dumpsDepth
  digits : v.leaves.all JsonValue.printable = true
  noSurrogate : v.hasSurrogate = false
  /-- The length of the frame is written in at most 4300 digits. -/
  length : ∀ bytes, encodeUtf8 v.text = some bytes → (natText bytes.length).length ≤ maxStrDigits

/-- The reply a request is owed, given how it is answered. -/
def owedReply (request : Fields) : Except JsonRpcFault JsonValue → Option JsonValue
  | .ok result =>
      (request.get (pyStr "id")).map fun id => replyObject id (pyStr "result", result)
  | .error fault =>
      match request.get (pyStr "id") with
      | some id => some (replyObject id (pyStr "error", errorObject fault))
      | none =>
          if isVersionTwo request && (methodOf request).isSome then none
          else some (replyObject .null (pyStr "error", errorObject fault))

/-- The reply a payload is owed. -/
def owed (payload : Bytes) (server : RuntimeServer σ) : Option JsonValue :=
  match parseRequest interp payload with
  | .ok request => owedReply request (dispatchRequest api request server).1
  | .error (.fault fault) => some (replyObject .null (pyStr "error", errorObject fault))
  | .error (.escaped _) => none

/-! ### What a reply quotes -/

/-- A value can be written and framed under that many containers of a reply. -/
structure Fits (containers : Nat) (v : JsonValue) : Prop where
  depth : containers + v.depth ≤ interp.dumpsDepth
  digits : v.leaves.all JsonValue.printable = true
  noSurrogate : v.hasSurrogate = false

/-- An error can be written around the values it quotes: the reply, the error and its data. -/
def ErrorFits (quoted : List JsonValue) : Prop :=
  3 ≤ interp.dumpsDepth ∧ ∀ v ∈ quoted, Fits interp 3 v

/-- `{"message": exc.message, **exc.data}`. -/
def errorData (message : PyStr) (data : Fields) : Fields :=
  data.foldl (fun fields kv => fields.set kv.1 kv.2) [(pyStr "message", .str message)]

/-- What the handler returns or raises can be written. -/
def HandlerOutcome.AnswerFits : HandlerOutcome → Prop
  | returned result => Fits interp 1 result
  | runtimeApiError code message data =>
      ErrorFits interp (.str code :: (errorData message data).flatMap fun kv => [.str kv.1, kv.2])
  | exception text => ErrorFits interp [.str text]

/-- The field an `unknown field` names. -/
def unknownField? (keys : List PyStr) (allowed : List String) : Option PyStr :=
  ((keys.filter fun key => !(allowed.map pyStr).contains key).mergeSort fun a b =>
    decide (a ≤ b)).head?

/-- The field a `duplicate field` names: the first that has been seen. -/
def duplicateField? : List PyStr → List PyStr → Option PyStr
  | _, [] => none
  | seen, key :: rest => if key ∈ seen then some key else duplicateField? (seen ++ [key]) rest

/-- The parameters under the names of the handlers. -/
def renamed (params : Fields) : Fields :=
  params.map fun kv => ((commonAliases.lookup kv.1).getD kv.1, kv.2)

/-- The field for which a call is refused. -/
def refusedField? (method : RuntimeMethod) (params : Fields) : Option PyStr :=
  (duplicateField? [] (renamed params).keys).or (unknownField? (renamed params).keys method.fields)

/-- The answer to a method can be written: what it quotes of the request, or what the handler
ends with. -/
def MethodFits (method : PyStr) (params : Fields) (server : RuntimeServer σ) : Prop :=
  if method = pyStr "rpc.hello" then
    match unknownField? params.keys ["version"] with
    | some field => ErrorFits interp [.str field]
    | none =>
        let requested := (params.get (pyStr "version")).getD .null
        if isVersionOne requested then 3 ≤ interp.dumpsDepth else ErrorFits interp [requested]
  else if method = pyStr "rpc.ping" ∨ method = pyStr "rpc.shutdown" then
    match unknownField? params.keys [] with
    | some field => ErrorFits interp [.str field]
    | none => 2 ≤ interp.dumpsDepth
  else
    match RuntimeMethod.ofName method with
    | none => ErrorFits interp [.str method]
    | some m =>
        match refusedField? m params with
        | some field => ErrorFits interp [.str field]
        | none => (api.call m (renamed params) server.api).1.AnswerFits interp

/-- The answer to a request can be written. -/
def RequestFits (request : Fields) (server : RuntimeServer σ) : Prop :=
  if !isVersionTwo request then ErrorFits interp []
  else
    match methodOf request with
    | none => ErrorFits interp []
    | some method =>
        match (request.get (pyStr "params")).getD (.obj []) with
        | .obj params => MethodFits api interp method params server
        | _ => ErrorFits interp []

/-- A reply that is owed can be written. -/
def ReplyFits (request : Fields) (server : RuntimeServer σ) : Prop :=
  match request.get (pyStr "id") with
  | some id => Fits interp 1 id ∧ RequestFits api interp request server
  | none => PassesValidation request ∨ 3 ≤ interp.dumpsDepth

/-- Decoding and parsing raise nothing but faults, and what a reply quotes can be written. -/
structure Dispatchable (payload : Bytes) (server : RuntimeServer σ) : Prop where
  decodes : (decodeUtf8 payload).isSome = true
  parses : ∀ text, decodeUtf8 payload = some text →
    loads interp text ≠ .error .recursionError ∧ loads interp text ≠ .error .valueError
  /-- The reply to a text that is no JSON object quotes nothing. -/
  refuses : requestOf interp payload = none → 3 ≤ interp.dumpsDepth
  sends : ∀ request, requestOf interp payload = some request → ReplyFits api interp request server
  /-- The length of the frame is written in at most 4300 digits. -/
  length : ∀ v bytes, owed api interp payload server = some v → encodeUtf8 v.text = some bytes →
    (natText bytes.length).length ≤ maxStrDigits

end

end EccFe.Runtime.Server
