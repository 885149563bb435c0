/-
EccFe.Tools.SvModule — `fecompiler/tools/common/sv_module.py`: finding a module in
SystemVerilog text and reading its ports.

The catalog and the prepare step both rest on it. It is no parser: comments and
the branches of `ifdef` that are off are cut away, then the module header is cut
at its top-level commas. Widths are read off literal ranges; any other range has
width 0.
-/
import EccFe.Resources
import EccFe.Python.Regex
import EccFe.Python.Shlex
import EccFe.Python.Number
import EccFe.Tools.RtlInputs

namespace EccFe.Tools.SvModule

open Python

structure Port where
  name : String
  direction : String
  width : Int
  deriving DecidableEq

/-! ## 1. Identifiers -/

def isIdentifierStart (c : Char) : Bool :=
  ('A' ≤ c && c ≤ 'Z') || ('a' ≤ c && c ≤ 'z') || c == '_'

def isIdentifierChar (c : Char) : Bool := isIdentifierStart c || isDigit c || c == '$'

theorem identifierStart_of_space {x : Char} (hx : isSpace x = true) : isIdentifierStart x = false := by
  by_contra hstart
  simp only [Bool.not_eq_false, isIdentifierStart, Bool.or_eq_true, Bool.and_eq_true,
    decide_eq_true_eq, beq_iff_eq, Char.le_def, UInt32.le_iff_toNat_le] at hstart
  simp only [isSpace, Bool.or_eq_true, Bool.and_eq_true, decide_eq_true_eq,
    beq_iff_eq] at hx
  rcases hstart with (hstart | hstart) | rfl
  · simp at hstart
    omega
  · simp at hstart
    omega
  · simp at hx

def identifier : Regex := .seq (.char isIdentifierStart) (.star true (.char isIdentifierChar))

def systemverilogReservedWords : List String :=
  ["accept_on", "alias", "always", "always_comb", "always_ff", "always_latch", "and", "assert",
    "assign", "assume", "automatic", "before", "begin", "bind", "bins", "binsof", "bit", "break",
    "buf", "bufif0", "bufif1", "byte", "case", "casex", "casez", "cell", "chandle", "checker",
    "class", "clocking", "cmos", "config", "const", "constraint", "context", "continue", "cover",
    "covergroup", "coverpoint", "cross", "deassign", "default", "defparam", "design", "disable",
    "dist", "do", "edge", "else", "end", "endchecker", "endclass", "endclocking", "endconfig",
    "endfunction", "endgenerate", "endgroup", "endinterface", "endmodule", "endpackage",
    "endprimitive", "endprogram", "endproperty", "endspecify", "endsequence", "endtable",
    "endtask", "enum", "event", "eventually", "expect", "export", "extends", "extern", "final",
    "first_match", "for", "force", "foreach", "forever", "fork", "forkjoin", "function",
    "generate", "genvar", "global", "highz0", "highz1", "if", "iff", "ifnone", "ignore_bins",
    "illegal_bins", "implements", "implies", "import", "incdir", "include", "initial", "inout",
    "input", "inside", "int", "integer", "interconnect", "intersect", "join", "join_any",
    "join_none", "large", "let", "liblist", "library", "local", "localparam", "logic", "longint",
    "macromodule", "matches", "medium", "modport", "module", "nand", "negedge", "nettype", "new",
    "nexttime", "nmos", "nor", "noshowcancelled", "not", "notif0", "notif1", "null", "or",
    "output", "package", "packed", "parameter", "pmos", "posedge", "primitive", "priority",
    "program", "property", "protected", "pull0", "pull1", "pulldown", "pullup",
    "pulsestyle_ondetect", "pulsestyle_onevent", "pure", "rand", "randc", "randcase",
    "randsequence", "rcmos", "real", "realtime", "ref", "reg", "reject_on", "release", "repeat",
    "restrict", "return", "rnmos", "rpmos", "rtran", "rtranif0", "rtranif1", "s_always",
    "s_eventually", "s_nexttime", "s_until", "s_until_with", "scalared", "sequence", "shortint",
    "shortreal", "showcancelled", "signed", "small", "solve", "specify", "specparam", "static",
    "string", "strong", "strong0", "strong1", "struct", "super", "supply0", "supply1",
    "sync_accept_on", "sync_reject_on", "table", "tagged", "task", "this", "throughout", "time",
    "timeprecision", "timeunit", "tran", "tranif0", "tranif1", "tri", "tri0", "tri1", "triand",
    "trior", "trireg", "type", "typedef", "union", "unique", "unique0", "unsigned", "until",
    "until_with", "untyped", "use", "uwire", "var", "vectored", "virtual", "void", "wait",
    "wait_order", "wand", "weak", "weak0", "weak1", "while", "wildcard", "wire", "with",
    "within", "wor", "xnor", "xor"]

def isSimpleSvIdentifier (value : String) : Bool :=
  let normalized := strip value
  (identifier.matchFull normalized.toList).isSome && normalized ∉ systemverilogReservedWords

/-! ## 2. Text -/

def stripSvComments (text : List Char) : List Char :=
  let blockComment := Regex.cat [.text "/*", .star false (.char fun _ => true), .text "*/"]
  let lineComment := Regex.cat [.text "//", .star true .any]
  lineComment.sub [] (blockComment.sub [] text)

/-- `str.splitlines(keepends=True)`. -/
def splitlinesKeep : List Char → List (List Char)
  | [] => []
  | '\r' :: '\n' :: rest => ['\r', '\n'] :: splitlinesKeep rest
  | c :: rest =>
      if isLineBreak c then [c] :: splitlinesKeep rest
      else
        match splitlinesKeep rest with
        | [] => [[c]]
        | line :: lines => (c :: line) :: lines

def directivePattern : Regex :=
  Regex.cat [.textStart, .star true .space, .text "`",
    .group "kind" (Regex.oneOf (["ifdef", "ifndef", "elsif", "else", "endif", "define",
      "undef"].map .text)),
    .maybe (.seq (.plus .space) (.group "name" identifier))]

/-- One `ifdef`: whether the text around it is on, whether a branch was taken, and
whether the branch being read is on. -/
structure DirectiveFrame where
  parentActive : Bool
  branchTaken : Bool
  active : Bool

structure DirectiveState where
  macros : List String
  stack : List DirectiveFrame
  output : List Char

def DirectiveState.active (st : DirectiveState) : Bool := st.stack.head?.all (·.active)

/-- The frame of an `elsif` or `else` in place of the top one. -/
def DirectiveFrame.branch (frame : DirectiveFrame) (matched : Bool) (taken : Bool) :
    DirectiveFrame where
  parentActive := frame.parentActive
  branchTaken := taken
  active := frame.parentActive && matched

def directiveLine (st : DirectiveState) (kind name : String) : DirectiveState :=
  if kind = "define" ∨ kind = "undef" then
    if st.active && name ≠ "" then
      if kind = "define" then { st with macros := name :: st.macros }
      else { st with macros := st.macros.filter (· ≠ name) }
    else st
  else if kind = "ifdef" ∨ kind = "ifndef" then
    let matched := if kind = "ifndef" then name ∉ st.macros else name ∈ st.macros
    { st with stack := ⟨st.active, matched, st.active && matched⟩ :: st.stack }
  else
    match st.stack with
    | [] => st
    | frame :: below =>
        if kind = "elsif" then
          let matched := !frame.branchTaken && name ∈ st.macros
          { st with stack := frame.branch matched (frame.branchTaken || matched) :: below }
        else if kind = "else" then
          { st with stack := frame.branch (!frame.branchTaken) true :: below }
        else { st with stack := below }

def conditionalLine (st : DirectiveState) (line : List Char) : DirectiveState :=
  match directivePattern.matchStart line with
  | none => if st.active then { st with output := st.output ++ line } else st
  | some found =>
      directiveLine st (String.ofList ((found.group "kind").getD []))
        (String.ofList ((found.group "name").getD []))

def applySvConditionalDirectives (text : List Char) : List Char :=
  ((splitlinesKeep text).foldl conditionalLine ⟨[], [], []⟩).output

/-! ## 3. Lists and declarations -/

/-- The text up to the parenthesis that closes `depth` open ones, and what follows. -/
def closeParen : Nat → List Char → Option (List Char × List Char)
  | _, [] => none
  | depth, c :: rest =>
      let next := fun depth => (closeParen depth rest).map fun (inside, after) => (c :: inside, after)
      if c = '(' then next (depth + 1)
      else if c = ')' then if depth = 1 then some ([], rest) else next (depth - 1)
      else next depth

/-- Open brackets of the three kinds. -/
structure Depths where
  paren : Nat
  bracket : Nat
  brace : Nat

def Depths.read (d : Depths) (c : Char) : Depths :=
  if c = '(' then { d with paren := d.paren + 1 }
  else if c = '[' then { d with bracket := d.bracket + 1 }
  else if c = '{' then { d with brace := d.brace + 1 }
  else if c = ')' then { d with paren := d.paren - 1 }
  else if c = ']' then { d with bracket := d.bracket - 1 }
  else if c = '}' then { d with brace := d.brace - 1 }
  else d

def Depths.isTop (d : Depths) : Bool := d.paren == 0 && d.bracket == 0 && d.brace == 0

/-- `_split_top_level_sv_list`, with `part` read so far. -/
def splitTopLevel (d : Depths) (part : List Char) : List Char → List (List Char)
  | [] => [part]
  | c :: rest =>
      if c = ',' ∧ d.isTop then part :: splitTopLevel d [] rest
      else splitTopLevel (d.read c) (part ++ [c]) rest

def splitTopLevelSvList (text : List Char) : List (List Char) := splitTopLevel ⟨0, 0, 0⟩ [] text

def rangePattern : Regex :=
  Regex.cat [.text "[", .group "range" (.plus (.char (· != ']'))), .text "]"]

/-- The width of `[a:b]`; any other range has none. -/
def rangeWidth? (range : List Char) : Option Nat :=
  let bound (name : String) := Regex.seq (.star true .space) (.seq (.group name (.plus .digit))
    (.star true .space))
  match (Regex.cat [bound "left", .text ":", bound "right"]).matchFull range with
  | none => none
  | some found =>
      let left := digitsValue ((found.group "left").getD [])
      let right := digitsValue ((found.group "right").getD [])
      some (Int.natAbs (left - right : Int) + 1)

def packedWidth (declaration : List Char) : Int :=
  let ranges := (rangePattern.findAll declaration).map fun found => (found.group "range").getD []
  if ranges.all fun range => (rangeWidth? range).isSome then
    ((ranges.filterMap rangeWidth?).prod : Nat)
  else 0

def portDeclName (rawPort : List Char) : String :=
  let text := stripBy isSpace rawPort
  let keywords := ["input", "output", "inout", "wire", "reg", "logic", "signed", "unsigned"]
  let tokens := (splitSpaces (rangePattern.sub [' '] text)).filter fun token =>
    String.ofList token ∉ keywords
  match tokens.getLast? with
  | none => ""
  | some token => strip (String.ofList (token.takeWhile (· != '=')))

section

variable (env : Env)

def wordEdge : Regex := .wordBoundary env.isWord

/-- `\b(input|output|inout)\b`. -/
def directionPattern : Regex :=
  Regex.cat [wordEdge env, .group "direction" (Regex.oneOf (["input", "output", "inout"].map .text)),
    wordEdge env]

def modulePattern (moduleName : String) : Regex :=
  Regex.cat [wordEdge env, .text "module", .plus .space, .text moduleName, wordEdge env]

/-- The text after `module NAME`. -/
def afterModule? (text : List Char) (moduleName : String) : Option (List Char) :=
  ((modulePattern env moduleName).find text).map (·.stop.rest)

/-- `_module_port_header`: the text between the parentheses of the port list. -/
def modulePortHeader (text : List Char) (moduleName : String) : Option (List Char) :=
  let portList (rest : List Char) : Option (List Char) :=
    match rest.dropWhile isSpace with
    | '(' :: inside => (closeParen 1 inside).map (·.1)
    | ';' :: _ => some []
    | _ => none
  match afterModule? env text moduleName with
  | none => none
  | some rest =>
      match rest.dropWhile isSpace with
      | '#' :: parameters =>
          match parameters.dropWhile isSpace with
          | '(' :: inside =>
              match closeParen 1 inside with
              | some (_, after) => portList after
              | none => none
          | _ => none
      | _ => portList rest

def moduleBody (text : List Char) (moduleName : String) : List Char :=
  match afterModule? env text moduleName with
  | none => []
  | some rest =>
      match (Regex.cat [wordEdge env, .text "endmodule", wordEdge env]).find rest with
      | some found => found.skipped
      | none => rest

/-- `_legacy_port_declarations`, a later declaration of a name before an earlier one. -/
def legacyPortDeclarations (text : List Char) (moduleName : String) : List Port :=
  let pattern := Regex.cat [directionPattern env, .group "body" (.star true (.char (· != ';'))),
    .text ";"]
  ((pattern.findAll (moduleBody env text moduleName)).flatMap fun found =>
    let direction := String.ofList ((found.group "direction").getD [])
    let declaration := (found.group "body").getD []
    ((splitTopLevelSvList declaration).map portDeclName).filterMap fun name =>
      if name = "" then none else some ⟨name, direction, packedWidth declaration⟩).reverse

/-- The ports of a header in order; `direction` and `width` are the last ones read. -/
def headerPorts (direction : String) (width : Int) : List (List Char) → List Port
  | [] => []
  | rawPort :: rest =>
      let found := (directionPattern env).find rawPort
      let direction := match found with
        | some m => String.ofList ((m.group "direction").getD [])
        | none => direction
      let width := if found.isSome then packedWidth rawPort else width
      let name := portDeclName rawPort
      let ports := headerPorts direction width rest
      if name = "" then ports else ⟨name, direction, width⟩ :: ports

def modulePortContract (text : List Char) (moduleName : String) : List Port :=
  let stripped := stripSvComments (applySvConditionalDirectives text)
  match modulePortHeader env stripped moduleName with
  | none => []
  | some header =>
      let ports := headerPorts env "" 1 (splitTopLevelSvList header)
      if ports.any fun port => port.direction = "" then
        let declarations := legacyPortDeclarations env stripped moduleName
        ports.map fun port => (declarations.find? (·.name = port.name)).getD port
      else ports

/-! ## 4. Files -/

/-- `path.read_text(encoding="utf-8", errors="ignore")`; `none` is the `OSError`. -/
def readText? (p : AbsPath) : Option (List Char) :=
  (env.fs.readBytes p).map fun bytes => universalNewlines (decodeIgnore bytes)

def definesModule (moduleName : String) (p : AbsPath) : Bool :=
  (readText? env p).any fun text => (modulePattern env moduleName).hits (stripSvComments text)

def moduleDefinitions (files : List AbsPath) (moduleName : String) : List AbsPath :=
  files.filter (definesModule env moduleName)

def modulePortContractFromFiles (files : List AbsPath) (moduleName : String) :
    Option AbsPath × List Port :=
  match moduleDefinitions env files moduleName with
  | [] => (none, [])
  | p :: _ => (some p, modulePortContract env ((readText? env p).getD []) moduleName)

end

/-! ## 5. Declared contracts -/

def portDirections : List String := ["input", "output", "inout"]

/-- One entry of a port contract; an entry that declares no port is passed over. -/
def declaredPort? : Json → Except NumberError (Option Port)
  | .obj rawPort =>
      let name := strip (Dict.textAt rawPort "name")
      let direction := lower (strip (Dict.textAt rawPort "direction"))
      (Dict.getD rawPort "width" (.int 0)).toIntCaught 0 |>.map fun width =>
        if name ≠ "" ∧ direction ∈ portDirections ∧ 0 < width then some ⟨name, direction, width⟩
        else none
  | _ => .ok none

/-- The loop both readers of a port contract run. An infinite width raises. -/
def declaredPorts : List Json → Except NumberError (List Port)
  | [] => .ok []
  | rawPort :: rest =>
      match declaredPort? rawPort, declaredPorts rest with
      | .ok none, .ok ports => .ok ports
      | .ok (some port), .ok ports => .ok (port :: ports)
      | .error e, _ => .error e
      | .ok _, .error e => .error e

/-! ## 6. Comparing contracts -/

/-- The names of the ports, the empty one left out. -/
def portNames (ports : List Port) : List String :=
  RtlInputs.distinctTexts ((ports.map (·.name)).filter (· ≠ ""))

/-- The port a dict by name holds: the last one. -/
def portByName (ports : List Port) (name : String) : Option Port :=
  ports.reverse.find? (·.name = name)

structure PortMismatch where
  name : String
  expected : Port
  actual : Port

structure PortDifferences where
  missing : List String
  extra : List String
  mismatches : List PortMismatch

def PortDifferences.any (d : PortDifferences) : Bool :=
  !d.missing.isEmpty || !d.extra.isEmpty || !d.mismatches.isEmpty

def portMismatch? (expected actual : List Port) (name : String) : Option PortMismatch :=
  match portByName expected name, portByName actual name with
  | some e, some a =>
      if e.direction ≠ a.direction ∨ e.width ≠ a.width then some ⟨name, e, a⟩ else none
  | _, _ => none

def comparePortContracts (expected actual : List Port) : PortDifferences where
  missing := (portNames expected).filter (· ∉ portNames actual)
  extra := (portNames actual).filter (· ∉ portNames expected)
  mismatches :=
    (((portNames expected).filter (· ∈ portNames actual)).filterMap
      (portMismatch? expected actual)).mergeSort fun a b => a.name ≤ b.name

/-- How both checks report a port of the wrong direction or width. -/
def portMismatchText (name : String) (expected actual : Port) : String :=
  name ++ ": expected " ++ expected.direction ++ "[" ++ String.ofList (intText expected.width) ++
    "], found " ++ (if actual.direction = "" then "unknown" else actual.direction) ++ "[" ++
    (if actual.width = 0 then "unknown" else String.ofList (intText actual.width)) ++ "]"

end EccFe.Tools.SvModule
