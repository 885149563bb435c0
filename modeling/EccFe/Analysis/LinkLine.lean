/-
EccFe.Analysis.LinkLine — the link flags of a simulation in its comparison record,
`_normalized_shell_link_flags` of `fecompiler/analysis/qor.py`.

A link line nests: a `-Wl,` group holds arguments of the linker, a `@file` holds arguments of
either kind, and both may be inside the other. Four walkers go through the structure, each on its
own: one for the search directories, one for a global `-static`, one that toggles the static state
and hashes libraries and files. The linker sees none of this; it reads one flat line.

`flatten` is that line and `lineLeaves` what the record should hold, argument by argument. The
code agrees with it where no option is cut off from its value (`link_flags_follow_line`). In
`-Wl,-Map -Wl,out.map` one is, and the map file is hashed (`link_flags_cut_map`).
-/
import Mathlib.Data.List.Perm.Subperm
import EccFe.Python.Words
import EccFe.Resources

namespace EccFe.Analysis.LinkLine

open Python

/-! ## 1. Files and libraries -/

/-- What the link flags are read against. -/
structure LinkEnv where
  env : Env
  /-- `str(base_directory or "").strip()`. -/
  baseDirectory : String
  /-- `os.getenv("BUILD_WORKSPACE_DIRECTORY", "").strip()`. -/
  buildWorkspace : String
  /-- `os.environ.get("LIBRARY_PATH", "")`. -/
  libraryPath : String
  /-- Return code and output of the link command with `-print-file-name=...`; `none` when it raises. -/
  printFileName : String → Option (Int × String)
  /-- `_directory_identity(path)`. -/
  directoryIdentity : AbsPath → List (String × String)

/-- `_path_argument_identity` of an argument. -/
inductive PathIdentity where
  | output
  | file (sha256 : String)
  | directory
  | contents (files : List (String × String))
  | missing (name : String)
  deriving DecidableEq

inductive PathKind where
  | output
  | file
  | searchDirectory
  | directory
  deriving DecidableEq

/-- `_library_argument_identity` of a library, `none` for an unresolved one. -/
structure LibraryIdentity where
  name : String
  static : Bool
  sha256 : Option String
  deriving DecidableEq

namespace LinkEnv

variable (link : LinkEnv)

def resolvedPath (value : String) : AbsPath :=
  let host := link.env.host
  let path := host.expanduser (.ofText value)
  if path.absolute then host.resolve path
  else
    let configured := if link.baseDirectory ≠ "" then link.baseDirectory else link.buildWorkspace
    let root := if configured ≠ "" then host.expanduser (.ofText configured) else ⟨true, host.cwd⟩
    host.resolve (root.join path)

def isFile (path : AbsPath) : Bool := link.env.fs.isFile path

/-- `_file_sha256(path)`. -/
def fileSha256 (path : AbsPath) : String :=
  match link.env.fs.readBytes path with
  | some bytes => link.env.sha256 bytes
  | none => ""

def pathArgumentIdentity (value : String) (kind : PathKind) : PathIdentity :=
  let path := link.resolvedPath value
  let missing := .missing (path.getLast?.getD "")
  match kind with
  | .output => .output
  | .file => if link.isFile path then .file (link.fileSha256 path) else missing
  | .searchDirectory => if link.env.fs.isDir path then .directory else missing
  | .directory => if link.env.fs.isDir path then .contents (link.directoryIdentity path) else missing

def readResponseFile (path : AbsPath) : Option (List String) :=
  (link.env.fs.readBytes path).bind fun bytes => shlexWords (readTextReplace bytes)

def compilerLibraryFile : List String → Option AbsPath
  | [] => none
  | filename :: filenames =>
      match link.printFileName filename with
      | none => none
      | some (returncode, stdout) =>
          let resolved := strip stdout
          if returncode ≠ 0 ∨ resolved = "" ∨ resolved = filename then compilerLibraryFile filenames
          else if link.isFile (link.resolvedPath resolved) then some (link.resolvedPath resolved)
          else compilerLibraryFile filenames

/-- The file names `_library_argument_identity` looks for. -/
def libraryFilenames (name : String) (static : Bool) : List String :=
  if startsWith name.toList ":" then [String.ofList (name.toList.drop 1)]
  else if static then [s!"lib{name}.a"]
  else [s!"lib{name}.so", s!"lib{name}.a"]

/-- `directory / filename`. -/
def inDirectory (directory : AbsPath) (filename : String) : AbsPath :=
  directory.join (.ofText filename)

def libraryArgumentIdentity (name : String) (libraryDirectories : List AbsPath) (static : Bool) :
    LibraryIdentity :=
  let filenames := libraryFilenames name static
  let library := (libraryDirectories.flatMap fun directory => filenames.map (inDirectory directory)).find?
    link.isFile
  ⟨name, static, (library.or (link.compilerLibraryFile filenames)).map link.fileSha256⟩

end LinkEnv

/-! ## 2. Arguments -/

def linkerPathOptions : List (String × PathKind) :=
  [("--dynamic-list", .file), ("--just-symbols", .file), ("--output", .output),
    ("--retain-symbols-file", .file), ("--script", .file), ("--version-script", .file), ("-Map", .output),
    ("-T", .file), ("-o", .output), ("-rpath", .searchDirectory), ("-rpath-link", .searchDirectory)]

/-- The options that take the next argument as a path, with what it names. -/
def pathOptions : List (String × PathKind) :=
  ("--sysroot", .directory) :: ("-L", .searchDirectory) :: linkerPathOptions

/-- The options an argument may start with: the linker's sorted by length, the longest first. -/
def attachedOptions : List String :=
  ["--sysroot", "-L", "--retain-symbols-file", "--version-script", "--dynamic-list", "--just-symbols",
    "-rpath-link", "--output", "--script", "-rpath", "-Map", "-T", "-o"]

def globalStaticLinkArguments : List String := ["--static", "-static"]

def positionalStaticLinkArguments : List String :=
  ["--static", "-Bstatic", "-dn", "-non_shared", "-static"]

def positionalDynamicLinkArguments : List String := ["-Bdynamic", "-call_shared", "-dy"]

/-- Who reads an argument: the compiler driver, or the linker behind `-Wl,`. -/
inductive Level where
  | driver
  | linker
  deriving DecidableEq

/-- What an argument is taken for. -/
inductive Reading where
  /-- A `-Wl,` group. -/
  | group (pieces : List String)
  | static
  | dynamic
  | pushState
  | popState
  /-- An option whose value is the next argument. -/
  | valued (option value : String)
  /-- `-l` and the next argument. -/
  | libraryNext (name : String)
  | library (name : String)
  /-- An option whose value follows in the same argument. -/
  | attached (option value : String)
  | response (value : String)
  | plain
  deriving DecidableEq

/-- `argument[len("-Wl,"):].split(",")`. -/
def groupPieces? (argument : String) : Option (List String) :=
  if startsWith argument.toList "-Wl," then
    some ((splitOnChar ',' (argument.toList.drop 4)).map String.ofList)
  else none

/-- `@file`, without the `@`. -/
def responseValue? (argument : String) : Option String :=
  match argument.toList with
  | '@' :: c :: rest => some (String.ofList (c :: rest))
  | _ => none

/-- `argument[len(option):].removeprefix("=")`. -/
def attachedValue (option argument : String) : String :=
  let value := argument.toList.drop option.length
  String.ofList (if startsWith value "=" then value.drop 1 else value)

/-- The option an argument starts with. -/
def attachedOption? (argument : String) : Option String :=
  attachedOptions.find? fun option =>
    startsWith argument.toList (option ++ "=") ||
      (startsWith option.toList "-" && !startsWith option.toList "--" &&
        startsWith argument.toList option && option.length < argument.length)

/-- An argument that does not take the next one. -/
def readAlone (argument : String) : Reading :=
  if startsWith argument.toList "-l" ∧ argument ≠ "-l" then
    .library (String.ofList (argument.toList.drop 2))
  else
    match attachedOption? argument with
    | some option => .attached option (attachedValue option argument)
    | none =>
        match responseValue? argument with
        | some value => .response value
        | none => .plain

/-- What `_normalize_link_arguments` takes an argument for, with the argument after it. -/
def readArgument (level : Level) (argument : String) (next : Option String) : Reading :=
  match level, groupPieces? argument with
  | .driver, some pieces => .group pieces
  | _, _ =>
      if argument ∈ positionalStaticLinkArguments then .static
      else if argument ∈ positionalDynamicLinkArguments then .dynamic
      else if argument = "--push-state" then .pushState
      else if argument = "--pop-state" then .popState
      else
        match next with
        | some value =>
            if argument ∈ pathOptions.map (·.1) then .valued argument value
            else if argument = "-l" then .libraryNext value
            else readAlone argument
        | none => readAlone argument

/-- `_LINKER_PATH_OPTIONS[option]`, or the kind of `--sysroot` and `-L`. -/
def optionKind (option : String) : PathKind := (pathOptions.lookup option).getD .file

structure LinkState where
  static : Bool
  stack : List Bool
  deriving DecidableEq

/-- The state after an argument. -/
def LinkState.after (state : LinkState) (level : Level) (argument : String) : Reading → LinkState
  | .static =>
      if level = .linker ∨ argument ∉ globalStaticLinkArguments then { state with static := true } else state
  | .dynamic => { state with static := false }
  | .pushState => { state with stack := state.static :: state.stack }
  | .popState =>
      match state.stack with
      | top :: stack => ⟨top, stack⟩
      | [] => state
  | _ => state

/-! ## 3. The record -/

/-- What one argument leaves in the record. -/
inductive Leaf where
  | raw (argument : String)
  | option (option : String) (value : PathIdentity)
  | library (identity : LibraryIdentity)
  /-- A response file that is not expanded. -/
  | response (value : PathIdentity)
  | file (value : PathIdentity)
  deriving DecidableEq

/-- An item of the normalized list. -/
inductive Normalized where
  | leaf (leaf : Leaf)
  /-- `{"option": "-Wl", "arguments": ...}` -/
  | group (arguments : List Normalized)
  /-- `{"option": "@", "value": ..., "cycle": True}`; an expanded file has its arguments. -/
  | response (value : PathIdentity) (cycle : Bool) (arguments : Option (List Normalized))

namespace LinkEnv

variable (link : LinkEnv)

/-- The response file an argument names, when it can be read and is not being expanded. -/
def response? (visited : List AbsPath) (argument : String) : Option (AbsPath × List String) :=
  match responseValue? argument with
  | none => none
  | some value =>
      let path := link.resolvedPath value
      if path ∈ visited then none else (link.readResponseFile path).map fun tokens => (path, tokens)

/-- `add` of `_link_search_directories`. -/
def addDirectory (directories : List AbsPath) (value : String) : List AbsPath :=
  let directory := link.resolvedPath value
  if link.env.fs.isDir directory && directory ∉ directories then directories ++ [directory]
  else directories

/-- The leaf of an argument that is not nested. -/
def leafOf (libraryDirectories : List AbsPath) (state : LinkState) (argument : String) : Reading → Leaf
  | .valued option value | .attached option value =>
      .option option (link.pathArgumentIdentity value (optionKind option))
  | .libraryNext name | .library name =>
      .library (link.libraryArgumentIdentity name libraryDirectories state.static)
  | .response value => .response (link.pathArgumentIdentity value .file)
  | .plain =>
      if !startsWith argument.toList "-" && link.isFile (link.resolvedPath argument) then
        .file (link.pathArgumentIdentity argument .file)
      else .raw argument
  | _ => .raw argument

/-- The loop of `_normalize_link_arguments`; `nested` goes through a group or a response file. -/
def normalizeLoop (libraryDirectories : List AbsPath)
    (nested : List AbsPath → Level → List String → LinkState → List Normalized × LinkState)
    (visited : List AbsPath) (level : Level) : List String → LinkState → List Normalized × LinkState
  | [], state => ([], state)
  | argument :: rest, state =>
      let reading := readArgument level argument rest.head?
      let leaf := .leaf (link.leafOf libraryDirectories state argument reading)
      match reading with
      | .group pieces =>
          let (arguments, inner) := nested visited .linker pieces state
          let (items, last) := normalizeLoop libraryDirectories nested visited level rest inner
          (.group arguments :: items, last)
      | .valued _ _ | .libraryNext _ =>
          match rest with
          | _ :: after =>
              let (items, last) := normalizeLoop libraryDirectories nested visited level after state
              (leaf :: items, last)
          | [] => ([leaf], state)
      | .response value =>
          let path := link.resolvedPath value
          let identity := link.pathArgumentIdentity value .file
          if !link.isFile path then
            let (items, last) := normalizeLoop libraryDirectories nested visited level rest state
            (.response identity false none :: items, last)
          else if path ∈ visited then
            let (items, last) := normalizeLoop libraryDirectories nested visited level rest state
            (.response identity true none :: items, last)
          else
            match link.readResponseFile path with
            | none =>
                let (items, last) := normalizeLoop libraryDirectories nested visited level rest state
                (.response identity false none :: items, last)
            | some tokens =>
                let (arguments, inner) := nested (path :: visited) level tokens state
                let (items, last) := normalizeLoop libraryDirectories nested visited level rest inner
                (.response identity false (some arguments) :: items, last)
      | reading =>
          let (items, last) := normalizeLoop libraryDirectories nested visited level rest
            (state.after level argument reading)
          (leaf :: items, last)

/-- `_normalize_link_arguments`, through `fuel` levels of groups and response files. -/
def normalizeLinkArguments (libraryDirectories : List AbsPath) :
    Nat → List AbsPath → Level → List String → LinkState → List Normalized × LinkState
  | 0 => fun _ _ _ state => ([], state)
  | fuel + 1 => link.normalizeLoop libraryDirectories (normalizeLinkArguments libraryDirectories fuel)

/-- The loop of `visit` in `_link_search_directories`; `add` appends to the directories found. -/
def visitLoop (visit : List AbsPath → List String → List AbsPath → List AbsPath)
    (visited : List AbsPath) : List String → List AbsPath → List AbsPath
  | [], directories => directories
  | token :: rest, directories =>
      match groupPieces? token, responseValue? token with
      | some pieces, _ => visitLoop visit visited rest (visit visited pieces directories)
      | none, some _ =>
          match link.response? visited token with
          | some (path, tokens) => visitLoop visit visited rest (visit (path :: visited) tokens directories)
          | none => visitLoop visit visited rest directories
      | none, none =>
          if token = "-L" then
            match rest with
            | value :: after => visitLoop visit visited after (link.addDirectory directories value)
            | [] => directories
          else if startsWith token.toList "-L" then
            visitLoop visit visited rest (link.addDirectory directories (attachedValue "-L" token))
          else visitLoop visit visited rest directories

def visit : Nat → List AbsPath → List String → List AbsPath → List AbsPath
  | 0 => fun _ _ directories => directories
  | fuel + 1 => link.visitLoop (visit fuel)

def libraryPathValues : List String :=
  ((splitOnChar ':' link.libraryPath.toList).map String.ofList).filter fun value => strip value ≠ ""

def linkSearchDirectories (fuel : Nat) (arguments : List String) : List AbsPath :=
  link.libraryPathValues.foldl link.addDirectory (link.visit fuel [] arguments [])

def linkHasGlobalStatic : Nat → List AbsPath → List String → Bool
  | 0, _, _ => false
  | fuel + 1, visited, arguments =>
      arguments.any fun argument =>
        argument ∈ globalStaticLinkArguments ||
          match link.response? visited argument with
          | some (path, tokens) => linkHasGlobalStatic fuel (path :: visited) tokens
          | none => false

end LinkEnv

/-- `_shell_flag_tokens(value)` of a list of strings. -/
def shellFlagTokens (flags : List String) : List String :=
  flags.flatMap fun flag => (shlexWords flag).getD [flag]

namespace LinkEnv

variable (link : LinkEnv)

def normalizedShellLinkFlags (fuel : Nat) (flags : List String) : List Normalized :=
  let arguments := shellFlagTokens flags
  (link.normalizeLinkArguments (link.linkSearchDirectories fuel arguments) fuel [] .driver arguments
    ⟨link.linkHasGlobalStatic fuel [] arguments, []⟩).1

end LinkEnv

mutual

/-- What the arguments leave in the record, whatever group or file they were in. -/
def Normalized.leaves : Normalized → List Leaf
  | .leaf leaf => [leaf]
  | .group arguments => leavesOf arguments
  | .response value _ none => [.response value]
  | .response _ _ (some arguments) => leavesOf arguments

def leavesOf : List Normalized → List Leaf
  | [] => []
  | item :: items => item.leaves ++ leavesOf items

end

/-! ## 4. The line the linker reads -/

/-- An argument of the flat line, with who reads it. -/
abbrev Token := Level × String

namespace LinkEnv

variable (link : LinkEnv)

/-- The flat line: groups and readable response files in place, through `fuel` levels. -/
def flatten : Nat → List AbsPath → Level → List String → List Token
  | 0, _, _, _ => []
  | fuel + 1, visited, level, arguments =>
      arguments.flatMap fun argument =>
        match groupPieces? argument, link.response? visited argument with
        | some pieces, _ => flatten fuel visited .linker pieces
        | none, some (path, tokens) => flatten fuel (path :: visited) level tokens
        | none, none => [(level, argument)]

/-- More levels than any line has: a response file is open once, a group has no group. -/
def depth : Nat := 2 * link.env.fs.files.length + 2

def flatLine (arguments : List String) : List Token := link.flatten link.depth [] .driver arguments

end LinkEnv

/-- An argument of the flat line and what it is taken for. -/
structure Item where
  level : Level
  argument : String
  reading : Reading

def Reading.takesNext : Reading → Bool
  | .valued _ _ | .libraryNext _ => true
  | _ => false

/-- The options with their values and the arguments that stand alone. -/
def parseLine : List Token → List Item
  | [] => []
  | (level, argument) :: rest =>
      let reading := readArgument .linker argument (rest.head?.map (·.2))
      ⟨level, argument, reading⟩ ::
        match reading.takesNext, rest with
        | true, _ :: after => parseLine after
        | _, rest => parseLine rest

def Item.searchValue? (item : Item) : Option String :=
  match item.reading with
  | .valued option value | .attached option value => if option = "-L" then some value else none
  | _ => none

/-- A static link is asked for outside every group. -/
def startsStatic (line : List Token) : Bool :=
  line.any fun (level, argument) => level = .driver && argument ∈ globalStaticLinkArguments

namespace LinkEnv

variable (link : LinkEnv)

/-- The existing directories of every `-L` of the line, then those of `LIBRARY_PATH`. -/
def lineDirectories (items : List Item) : List AbsPath :=
  ((items.filterMap Item.searchValue? ++ link.libraryPathValues).map link.resolvedPath).filter
    link.env.fs.isDir

/-- The leaves of a line, with the state after it. -/
def runItems (directories : List AbsPath) : List Item → LinkState → List Leaf × LinkState
  | [], state => ([], state)
  | item :: items, state =>
      let (leaves, last) := runItems directories items (state.after item.level item.argument item.reading)
      (link.leafOf directories state item.argument item.reading :: leaves, last)

/-- What the record of a line should hold. -/
def lineLeaves (line : List Token) : List Leaf :=
  (link.runItems (link.lineDirectories (parseLine line)) (parseLine line) ⟨startsStatic line, []⟩).1

end LinkEnv

/-- The options whose value is the next argument. -/
def TakesValue (argument : String) : Prop := argument ∈ "-l" :: pathOptions.map (·.1)

instance (argument : String) : Decidable (TakesValue argument) := inferInstanceAs (Decidable (_ ∈ _))

/-- No option is cut off from its value: the value is the next argument of the same list, and no
group, no open response file and, but for `-L` itself, no `-L` argument. Groups stand outside
groups. -/
inductive LinkEnv.Closed (link : LinkEnv) : List AbsPath → Level → List String → Prop
  | nil {visited : List AbsPath} {level : Level} : Closed link visited level []
  | group {visited : List AbsPath} {argument : String} {pieces rest : List String}
      (hgroup : groupPieces? argument = some pieces) (inner : Closed link visited .linker pieces)
      (outer : Closed link visited .driver rest) : Closed link visited .driver (argument :: rest)
  | response {visited : List AbsPath} {level : Level} {argument : String} {path : AbsPath}
      {tokens rest : List String} (hresponse : link.response? visited argument = some (path, tokens))
      (inner : Closed link (path :: visited) level tokens) (outer : Closed link visited level rest) :
      Closed link visited level (argument :: rest)
  | valued {visited : List AbsPath} {level : Level} {option value : String} {rest : List String}
      (hoption : TakesValue option) (hgroup : groupPieces? value = none)
      (hresponse : link.response? visited value = none)
      (hvalue : option = "-L" ∨ startsWith value.toList "-L" = false)
      (outer : Closed link visited level rest) : Closed link visited level (option :: value :: rest)
  | alone {visited : List AbsPath} {level : Level} {argument : String} {rest : List String}
      (hoption : ¬TakesValue argument) (hgroup : groupPieces? argument = none)
      (hresponse : link.response? visited argument = none)
      (outer : Closed link visited level rest) : Closed link visited level (argument :: rest)

/-! ## 5. What an argument is taken for -/

theorem groupPieces?_of_response {argument value : String} (h : responseValue? argument = some value) :
    groupPieces? argument = none := by
  unfold responseValue? at h
  split at h
  next c rest hchars => simp [groupPieces?, startsWith, hchars, List.isPrefixOf]
  next => cases h

/-- Only a `-Wl` group reads differently before the driver and the linker. -/
theorem readArgument_level {argument : String} (hgroup : groupPieces? argument = none) (level : Level)
    (next : Option String) : readArgument level argument next = readArgument .linker argument next := by
  cases level <;> simp [readArgument, hgroup]

theorem readArgument_group {argument : String} {pieces : List String}
    (hgroup : groupPieces? argument = some pieces) (next : Option String) :
    readArgument .driver argument next = .group pieces := by
  simp [readArgument, hgroup]

/-- An option without a value of its own does not look at the next argument. -/
theorem readArgument_alone {argument : String} (hoption : ¬TakesValue argument) (level : Level)
    (next : Option String) : readArgument level argument next = readArgument level argument none := by
  rw [TakesValue, List.mem_cons, not_or] at hoption
  cases next with
  | none => rfl
  | some value => simp [readArgument, hoption.1, hoption.2]

/-- An option with a value takes the next argument. -/
theorem readArgument_takesValue {option : String} (hoption : TakesValue option) (value : String) :
    readArgument .linker option (some value) =
      if option = "-l" then .libraryNext value else .valued option value := by
  simp only [TakesValue, pathOptions, linkerPathOptions, List.map_cons, List.map_nil, List.mem_cons,
    List.not_mem_nil, or_false] at hoption
  rcases hoption with rfl | rfl | rfl | rfl | rfl | rfl | rfl | rfl | rfl | rfl | rfl | rfl | rfl | rfl <;> rfl

/-- The options with values all begin with a dash. -/
theorem takesValue_dash : ∀ option ∈ "-l" :: pathOptions.map (·.1), option.toList.head? = some '-' := by
  decide

theorem positional_dash : ∀ option ∈ "--push-state" :: "--pop-state" ::
    (positionalStaticLinkArguments ++ positionalDynamicLinkArguments), option.toList.head? = some '-' := by
  decide

theorem attached_dash : ∀ option ∈ attachedOptions, option.toList.head? = some '-' := by decide

theorem startsWith_dash {cs : List Char} {c : Char} {option : String}
    (hoption : option.toList.head? = some '-') (hc : c ≠ '-') : startsWith (c :: cs) option = false := by
  obtain ⟨tail, htail⟩ : ∃ tail, option.toList = '-' :: tail := by
    cases hchars : option.toList with
    | nil => simp [hchars] at hoption
    | cons d tail => exact ⟨tail, by simpa [hchars] using hoption⟩
  simp [startsWith, htail, List.isPrefixOf, Ne.symm hc]

/-- A response file is no option. -/
theorem not_mem_of_response {argument value : String} (h : responseValue? argument = some value)
    {options : List String} (hoptions : ∀ option ∈ options, option.toList.head? = some '-') :
    argument ∉ options := by
  intro hmem
  have hdash := hoptions argument hmem
  unfold responseValue? at h
  split at h
  next c rest hchars => simp [hchars] at hdash
  next => cases h

/-- A response file is no option with a value. -/
theorem not_takesValue_of_response {argument value : String} (h : responseValue? argument = some value) :
    ¬TakesValue argument := not_mem_of_response h takesValue_dash

theorem attachedOption?_of_response {argument value : String} (h : responseValue? argument = some value) :
    attachedOption? argument = none := by
  unfold responseValue? at h
  split at h
  next c rest hchars =>
    rw [attachedOption?, List.find?_eq_none]
    intro option hmem
    have hdash := attached_dash option hmem
    have hequals : (option ++ "=").toList.head? = some '-' := by
      rw [String.toList_append, List.head?_append, hdash]
      rfl
    simp [hchars, startsWith_dash hdash, startsWith_dash hequals]
  next => cases h

/-- A response file is read as one. -/
theorem readArgument_response {argument value : String} (h : responseValue? argument = some value)
    (next : Option String) : readArgument .linker argument next = .response value := by
  have hpositional := not_mem_of_response h positional_dash
  simp only [List.mem_cons, List.mem_append, not_or] at hpositional
  obtain ⟨hpush, hpop, hstatic, hdynamic⟩ := hpositional
  have hlibrary : startsWith argument.toList "-l" = false := by
    unfold responseValue? at h
    split at h
    next c rest hchars =>
      rw [hchars]
      exact startsWith_dash rfl (by decide)
    next => cases h
  rw [readArgument_alone (not_takesValue_of_response h)]
  simp [readArgument, hstatic, hdynamic, hpush, hpop, readAlone, hlibrary, attachedOption?_of_response h, h]

/-- What an attached option is written with. -/
theorem startsWith_of_attached {argument option : String} (h : attachedOption? argument = some option) :
    startsWith argument.toList option = true := by
  have hfound := List.find?_some h
  simp only [Bool.or_eq_true, Bool.and_eq_true] at hfound
  obtain hequals | ⟨⟨-, hplain⟩, -⟩ := hfound
  · exact startsWith_of_append hequals
  · exact hplain

/-- `-L` with its directory attached. -/
theorem readArgument_search {argument : String} (hne : argument ≠ "-L")
    (hsearch : startsWith argument.toList "-L" = true) :
    readArgument .linker argument none = .attached "-L" (attachedValue "-L" argument) := by
  obtain ⟨tail, htail⟩ := List.isPrefixOf_iff_prefix.mp hsearch
  have hchars : argument.toList = '-' :: 'L' :: tail := htail.symm
  obtain ⟨c, rest, rfl⟩ : ∃ c rest, tail = c :: rest := by
    cases tail with
    | nil => exact absurd (String.toList_inj.mp hchars) hne
    | cons c rest => exact ⟨c, rest, rfl⟩
  have hoptions : ∀ option ∈ "--push-state" :: "--pop-state" ::
      (positionalStaticLinkArguments ++ positionalDynamicLinkArguments), argument ≠ option := by
    rintro option hoption rfl
    have hsecond : ∀ option ∈ "--push-state" :: "--pop-state" ::
        (positionalStaticLinkArguments ++ positionalDynamicLinkArguments), option.toList[1]? ≠ some 'L' := by
      decide
    exact hsecond _ hoption (by simp [hchars])
  have hpositional : argument ∉ "--push-state" :: "--pop-state" ::
      (positionalStaticLinkArguments ++ positionalDynamicLinkArguments) := fun hmem => hoptions _ hmem rfl
  simp only [List.mem_cons, List.mem_append, not_or] at hpositional
  obtain ⟨hpush, hpop, hstatic, hdynamic⟩ := hpositional
  have hattached : attachedOption? argument = some "-L" := by
    have hlength : "-L".length < argument.length := by
      rw [← String.length_toList, ← String.length_toList, hchars]
      simp
    rw [attachedOption?, attachedOptions, List.find?_cons_of_neg, List.find?_cons_of_pos]
    · have hdash : startsWith "-L".toList "-" && !startsWith "-L".toList "--" := by decide
      simp only [hdash, hsearch, hlength, decide_true, Bool.and_true, Bool.or_true]
    · simp [startsWith, hchars, List.isPrefixOf]
  have hlibrary : startsWith argument.toList "-l" = false := by
    simp [startsWith, hchars, List.isPrefixOf]
  simp [readArgument, hstatic, hdynamic, hpush, hpop, readAlone, hlibrary, hattached]

/-- Only what starts with `-L` is one. -/
theorem searchValue?_alone {argument : String} (hsearch : startsWith argument.toList "-L" = false)
    (level : Level) :
    (Item.mk level argument (readArgument .linker argument none)).searchValue? = none := by
  have halone : (Item.mk level argument (readAlone argument)).searchValue? = none := by
    unfold readAlone
    split
    · rfl
    · split
      next option hattached =>
        have hne : option ≠ "-L" := by
          rintro rfl
          rw [startsWith_of_attached hattached] at hsearch
          cases hsearch
        simp [Item.searchValue?, hne]
      next => split <;> rfl
  unfold readArgument
  simp only
  split_ifs <;> first | rfl | exact halone

theorem readArgument_linker_ne_group (argument : String) (pieces : List String) :
    readArgument .linker argument none ≠ .group pieces := by
  have halone : readAlone argument ≠ .group pieces := by
    unfold readAlone
    split
    · simp
    · split
      · simp
      · split <;> simp
  unfold readArgument
  simp only
  split_ifs <;> first | exact halone | simp

/-- What is read as a response file is one. -/
theorem responseValue?_of_reading {argument value : String}
    (h : readArgument .linker argument none = .response value) : responseValue? argument = some value := by
  have halone : readAlone argument = .response value → responseValue? argument = some value := by
    intro hreading
    unfold readAlone at hreading
    split at hreading
    · cases hreading
    · split at hreading
      · cases hreading
      · split at hreading
        next found hfound => rw [hfound, Reading.response.inj hreading]
        next => cases hreading
  unfold readArgument at h
  simp only at h
  split_ifs at h
  exact halone h

/-! ## 6. One argument of a line -/

section

variable (link : LinkEnv) (fuel : Nat) (visited : List AbsPath) (level : Level)

/-- A response file that is expanded names a file that is not open already. -/
theorem response?_eq_some {link : LinkEnv} {visited : List AbsPath} {argument : String} {path : AbsPath}
    {tokens : List String} (h : link.response? visited argument = some (path, tokens)) :
    ∃ value, responseValue? argument = some value ∧ path = link.resolvedPath value ∧ path ∉ visited ∧
      link.readResponseFile path = some tokens := by
  unfold LinkEnv.response? at h
  split at h
  next => cases h
  next value hvalue =>
    simp only [Option.ite_none_left_eq_some, Option.map_eq_some_iff] at h
    obtain ⟨hnew, tokens', hread, hpair⟩ := h
    cases hpair
    exact ⟨value, hvalue, rfl, hnew, hread⟩

/-- Only files are read. -/
theorem isFile_of_readResponseFile {link : LinkEnv} {path : AbsPath} {tokens : List String}
    (h : link.readResponseFile path = some tokens) : link.isFile path = true := by
  obtain ⟨bytes, hbytes, -⟩ := Option.bind_eq_some_iff.mp h
  exact FileSystem.isFile_iff.mpr ⟨bytes, hbytes⟩

/-- The line of an argument and the rest: a group in pieces, a response file by its tokens. -/
theorem flatten_cons (argument : String) (rest : List String) :
    link.flatten (fuel + 1) visited level (argument :: rest) =
      (match groupPieces? argument, link.response? visited argument with
        | some pieces, _ => link.flatten fuel visited .linker pieces
        | none, some (path, tokens) => link.flatten fuel (path :: visited) level tokens
        | none, none => [(level, argument)]) ++ link.flatten (fuel + 1) visited level rest := rfl

theorem flatten_group {argument : String} {pieces : List String} (rest : List String)
    (hgroup : groupPieces? argument = some pieces) :
    link.flatten (fuel + 1) visited level (argument :: rest) =
      link.flatten fuel visited .linker pieces ++ link.flatten (fuel + 1) visited level rest := by
  simp only [flatten_cons, hgroup]

theorem flatten_response {argument : String} {path : AbsPath} {tokens : List String} (rest : List String)
    (hresponse : link.response? visited argument = some (path, tokens)) :
    link.flatten (fuel + 1) visited level (argument :: rest) =
      link.flatten fuel (path :: visited) level tokens ++ link.flatten (fuel + 1) visited level rest := by
  obtain ⟨value, hvalue, -⟩ := response?_eq_some hresponse
  simp only [flatten_cons, groupPieces?_of_response hvalue, hresponse]

theorem flatten_alone {argument : String} (rest : List String) (hgroup : groupPieces? argument = none)
    (hresponse : link.response? visited argument = none) :
    link.flatten (fuel + 1) visited level (argument :: rest) =
      (level, argument) :: link.flatten (fuel + 1) visited level rest := by
  simp only [flatten_cons, hgroup, hresponse, List.singleton_append]

theorem groupPieces?_of_takesValue : ∀ {option : String}, TakesValue option → groupPieces? option = none := by
  unfold TakesValue
  intro option hoption
  revert option
  decide

theorem responseValue?_of_takesValue :
    ∀ option ∈ "-l" :: pathOptions.map (·.1), responseValue? option = none := by decide

theorem response?_of_takesValue {option : String} (hoption : TakesValue option) :
    link.response? visited option = none := by
  rw [LinkEnv.response?, responseValue?_of_takesValue option hoption]

/-- An option takes its value off the line. -/
theorem parseLine_valued {option : String} (value : String) (line : List Token)
    (hoption : TakesValue option) :
    parseLine ((level, option) :: (level, value) :: line) =
      ⟨level, option, readArgument .linker option (some value)⟩ :: parseLine line := by
  have htakes : (readArgument .linker option (some value)).takesNext = true := by
    rw [readArgument_takesValue hoption]
    split <;> rfl
  rw [parseLine.eq_def]
  simp [htakes]

theorem takesNext_alone {argument : String} (hoption : ¬TakesValue argument) (next : Option String) :
    (readArgument .linker argument next).takesNext = false := by
  have halone : (readAlone argument).takesNext = false := by
    unfold readAlone
    split
    · rfl
    · split
      · rfl
      · split <;> rfl
  rw [readArgument_alone hoption]
  unfold readArgument
  simp only
  split_ifs <;> first | rfl | exact halone

/-- An option without a value stands alone on the line. -/
theorem parseLine_alone {argument : String} (line : List Token) (hoption : ¬TakesValue argument) :
    parseLine ((level, argument) :: line) =
      ⟨level, argument, readArgument .linker argument none⟩ :: parseLine line := by
  rw [parseLine.eq_def]
  simp only [takesNext_alone hoption, readArgument_alone hoption]

end

/-! ## 7. The walkers agree with the line -/

section

variable {link : LinkEnv} {visited : List AbsPath} {level : Level} {arguments : List String}

/-- A closed list ends where its line ends. -/
theorem parseLine_append (h : link.Closed visited level arguments) (fuel : Nat) (tail : List Token) :
    parseLine (link.flatten fuel visited level arguments ++ tail) =
      parseLine (link.flatten fuel visited level arguments) ++ parseLine tail := by
  induction h generalizing fuel tail with
  | nil => cases fuel <;> rfl
  | @group visited argument pieces rest hgroup inner outer ihinner ihouter =>
    cases fuel with
    | zero => rfl
    | succ fuel =>
      rw [flatten_group link fuel visited .driver rest hgroup, List.append_assoc, ihinner, ihouter,
        ihinner, List.append_assoc]
  | @response visited level argument path tokens rest hresponse inner outer ihinner ihouter =>
    cases fuel with
    | zero => rfl
    | succ fuel =>
      rw [flatten_response link fuel visited level rest hresponse, List.append_assoc, ihinner, ihouter,
        ihinner, List.append_assoc]
  | @valued visited level option value rest hoption hgroup hresponse hvalue outer ih =>
    cases fuel with
    | zero => rfl
    | succ fuel =>
      rw [flatten_alone link fuel visited level _ (groupPieces?_of_takesValue hoption)
          (response?_of_takesValue link visited hoption),
        flatten_alone link fuel visited level rest hgroup hresponse, List.cons_append, List.cons_append,
        parseLine_valued level value _ hoption, parseLine_valued level value _ hoption, ih,
        List.cons_append]
  | @alone visited level argument rest hoption hgroup hresponse outer ih =>
    cases fuel with
    | zero => rfl
    | succ fuel =>
      rw [flatten_alone link fuel visited level rest hgroup hresponse, List.cons_append,
        parseLine_alone level _ hoption, parseLine_alone level _ hoption, ih, List.cons_append]

/-- The items of a closed list. -/
theorem parseLine_group {argument : String} {pieces rest : List String}
    (hgroup : groupPieces? argument = some pieces) (inner : link.Closed visited .linker pieces) (fuel : Nat) :
    parseLine (link.flatten (fuel + 1) visited level (argument :: rest)) =
      parseLine (link.flatten fuel visited .linker pieces) ++
        parseLine (link.flatten (fuel + 1) visited level rest) := by
  rw [flatten_group link fuel visited level rest hgroup, parseLine_append inner]

/-- A response file whose options end inside it parses on its own. -/
theorem parseLine_response {argument : String} {path : AbsPath} {tokens rest : List String}
    (hresponse : link.response? visited argument = some (path, tokens))
    (inner : link.Closed (path :: visited) level tokens) (fuel : Nat) :
    parseLine (link.flatten (fuel + 1) visited level (argument :: rest)) =
      parseLine (link.flatten fuel (path :: visited) level tokens) ++
        parseLine (link.flatten (fuel + 1) visited level rest) := by
  rw [flatten_response link fuel visited level rest hresponse, parseLine_append inner]

theorem parseLine_flatten_valued {option value : String} {rest : List String} (hoption : TakesValue option)
    (hgroup : groupPieces? value = none) (hresponse : link.response? visited value = none) (fuel : Nat) :
    parseLine (link.flatten (fuel + 1) visited level (option :: value :: rest)) =
      ⟨level, option, readArgument .linker option (some value)⟩ ::
        parseLine (link.flatten (fuel + 1) visited level rest) := by
  rw [flatten_alone link fuel visited level _ (groupPieces?_of_takesValue hoption)
      (response?_of_takesValue link visited hoption),
    flatten_alone link fuel visited level rest hgroup hresponse, parseLine_valued level value _ hoption]

theorem parseLine_flatten_alone {argument : String} {rest : List String} (hoption : ¬TakesValue argument)
    (hgroup : groupPieces? argument = none) (hresponse : link.response? visited argument = none)
    (fuel : Nat) :
    parseLine (link.flatten (fuel + 1) visited level (argument :: rest)) =
      ⟨level, argument, readArgument .linker argument none⟩ ::
        parseLine (link.flatten (fuel + 1) visited level rest) := by
  rw [flatten_alone link fuel visited level rest hgroup hresponse, parseLine_alone level _ hoption]

/-- A line is run from the state its first part leaves. -/
theorem runItems_append (directories : List AbsPath) (first second : List Item) (state : LinkState) :
    link.runItems directories (first ++ second) state =
      ((link.runItems directories first state).1 ++
          (link.runItems directories second (link.runItems directories first state).2).1,
        (link.runItems directories second (link.runItems directories first state).2).2) := by
  induction first generalizing state with
  | nil => rfl
  | cons item first ih => simp [LinkEnv.runItems, ih]

@[simp] theorem leavesOf_nil : leavesOf [] = [] := rfl

@[simp] theorem leavesOf_cons (item : Normalized) (items : List Normalized) :
    leavesOf (item :: items) = item.leaves ++ leavesOf items := rfl

@[simp] theorem leaves_leaf (leaf : Leaf) : (Normalized.leaf leaf).leaves = [leaf] := rfl

@[simp] theorem leaves_group (arguments : List Normalized) :
    (Normalized.group arguments).leaves = leavesOf arguments := rfl

@[simp] theorem leaves_unexpanded (value : PathIdentity) (cycle : Bool) :
    (Normalized.response value cycle none).leaves = [.response value] := rfl

@[simp] theorem leaves_expanded (value : PathIdentity) (cycle : Bool) (arguments : List Normalized) :
    (Normalized.response value cycle (some arguments)).leaves = leavesOf arguments := rfl

section

variable (directories : List AbsPath)
  (nested : List AbsPath → Level → List String → LinkState → List Normalized × LinkState)

/-- The walker goes into a group as the linker does. -/
theorem normalizeLoop_group {argument : String} {pieces rest : List String}
    (hgroup : groupPieces? argument = some pieces) (state : LinkState) :
    link.normalizeLoop directories nested visited .driver (argument :: rest) state =
      let (arguments, inner) := nested visited .linker pieces state
      let (items, last) := link.normalizeLoop directories nested visited .driver rest inner
      (.group arguments :: items, last) := by
  rw [LinkEnv.normalizeLoop.eq_def]
  simp only [readArgument_group hgroup]

/-- The walker goes into a response file with the arguments of the file. -/
theorem normalizeLoop_response {argument : String} {path : AbsPath} {tokens : List String} (level : Level)
    (rest : List String) (hresponse : link.response? visited argument = some (path, tokens))
    (state : LinkState) :
    ∃ identity, link.normalizeLoop directories nested visited level (argument :: rest) state =
      let (arguments, inner) := nested (path :: visited) level tokens state
      let (items, last) := link.normalizeLoop directories nested visited level rest inner
      (.response identity false (some arguments) :: items, last) := by
  obtain ⟨value, hvalue, rfl, hnew, hread⟩ := response?_eq_some hresponse
  refine ⟨link.pathArgumentIdentity value .file, ?_⟩
  rw [LinkEnv.normalizeLoop.eq_def]
  simp [readArgument_level (groupPieces?_of_response hvalue) level, readArgument_response hvalue,
    isFile_of_readResponseFile hread, hnew, hread]

theorem normalizeLoop_valued {option : String} (value : String) (rest : List String)
    (hoption : TakesValue option) (state : LinkState) :
    link.normalizeLoop directories nested visited level (option :: value :: rest) state =
      let (items, last) := link.normalizeLoop directories nested visited level rest state
      (.leaf (link.leafOf directories state option (readArgument .linker option (some value))) :: items,
        last) := by
  rw [LinkEnv.normalizeLoop.eq_def]
  simp only [readArgument_level (groupPieces?_of_takesValue hoption) level, List.head?_cons]
  by_cases hlibrary : option = "-l"
  · simp only [readArgument_takesValue hoption, if_pos hlibrary]
  · simp only [readArgument_takesValue hoption, if_neg hlibrary]

/-- An argument on its own; a response file that is not expanded leaves its identity. -/
theorem normalizeLoop_alone {argument : String} (level : Level) (rest : List String) (hoption : ¬TakesValue argument)
    (hgroup : groupPieces? argument = none) (hresponse : link.response? visited argument = none)
    (state : LinkState) :
    ∃ item : Normalized,
      item.leaves = [link.leafOf directories state argument (readArgument .linker argument none)] ∧
      link.normalizeLoop directories nested visited level (argument :: rest) state =
        let (items, last) := link.normalizeLoop directories nested visited level rest
          (state.after level argument (readArgument .linker argument none))
        (item :: items, last) := by
  rw [LinkEnv.normalizeLoop.eq_def]
  have hnext := takesNext_alone hoption none
  simp only [readArgument_level hgroup level, readArgument_alone hoption]
  cases hreading : readArgument .linker argument none with
  | group pieces => exact absurd hreading (readArgument_linker_ne_group argument pieces)
  | valued option value => simp [hreading, Reading.takesNext] at hnext
  | libraryNext name => simp [hreading, Reading.takesNext] at hnext
  | response value =>
    have hunread : ∀ tokens, link.resolvedPath value ∉ visited →
        link.readResponseFile (link.resolvedPath value) ≠ some tokens := by
      intro tokens hnew hread
      have hvalue := responseValue?_of_reading hreading
      simp [LinkEnv.response?, hvalue, hnew, hread] at hresponse
    simp only
    split_ifs with hfile hvisited
    · exact ⟨.response _ false none, by simp [LinkEnv.leafOf], rfl⟩
    · exact ⟨.response _ true none, by simp [LinkEnv.leafOf], rfl⟩
    · cases hread : link.readResponseFile (link.resolvedPath value) with
      | none => exact ⟨.response _ false none, by simp [LinkEnv.leafOf], rfl⟩
      | some tokens => exact absurd hread (hunread tokens hvisited)
  | static => exact ⟨.leaf _, leaves_leaf _, rfl⟩
  | dynamic => exact ⟨.leaf _, leaves_leaf _, rfl⟩
  | pushState => exact ⟨.leaf _, leaves_leaf _, rfl⟩
  | popState => exact ⟨.leaf _, leaves_leaf _, rfl⟩
  | library name => exact ⟨.leaf _, leaves_leaf _, rfl⟩
  | attached option value => exact ⟨.leaf _, leaves_leaf _, rfl⟩
  | plain => exact ⟨.leaf _, leaves_leaf _, rfl⟩

end

/-- `_normalize_link_arguments` leaves what the line leaves, and ends in the state of the line. -/
theorem normalize_eq_run (h : link.Closed visited level arguments) (fuel : Nat) (directories : List AbsPath)
    (state : LinkState) :
    (leavesOf (link.normalizeLinkArguments directories fuel visited level arguments state).1,
        (link.normalizeLinkArguments directories fuel visited level arguments state).2) =
      link.runItems directories (parseLine (link.flatten fuel visited level arguments)) state := by
  induction h generalizing fuel state with
  | nil => cases fuel <;> simp [LinkEnv.normalizeLinkArguments, LinkEnv.normalizeLoop, LinkEnv.flatten,
      parseLine, LinkEnv.runItems]
  | @group visited argument pieces rest hgroup inner outer ihinner ihouter =>
    cases fuel with
    | zero => simp [LinkEnv.normalizeLinkArguments, LinkEnv.flatten, parseLine, LinkEnv.runItems]
    | succ fuel =>
      rw [parseLine_group hgroup inner, runItems_append, ← ihinner, ← ihouter]
      simp [LinkEnv.normalizeLinkArguments, normalizeLoop_group directories _ hgroup]
  | @response visited level argument path tokens rest hresponse inner outer ihinner ihouter =>
    cases fuel with
    | zero => simp [LinkEnv.normalizeLinkArguments, LinkEnv.flatten, parseLine, LinkEnv.runItems]
    | succ fuel =>
      rw [parseLine_response hresponse inner, runItems_append, ← ihinner, ← ihouter]
      obtain ⟨identity, hloop⟩ := normalizeLoop_response directories
        (link.normalizeLinkArguments directories fuel) level rest hresponse state
      simp [LinkEnv.normalizeLinkArguments, hloop]
  | @valued visited level option value rest hoption hgroup hresponse hvalue outer ih =>
    cases fuel with
    | zero => simp [LinkEnv.normalizeLinkArguments, LinkEnv.flatten, parseLine, LinkEnv.runItems]
    | succ fuel =>
      have hafter : state.after level option (readArgument .linker option (some value)) = state := by
        rw [readArgument_takesValue hoption]
        split <;> rfl
      rw [parseLine_flatten_valued hoption hgroup hresponse, LinkEnv.runItems, hafter, ← ih]
      simp [LinkEnv.normalizeLinkArguments, normalizeLoop_valued directories _ value rest hoption]
  | @alone visited level argument rest hoption hgroup hresponse outer ih =>
    cases fuel with
    | zero => simp [LinkEnv.normalizeLinkArguments, LinkEnv.flatten, parseLine, LinkEnv.runItems]
    | succ fuel =>
      obtain ⟨item, hleaves, hloop⟩ := normalizeLoop_alone directories
        (link.normalizeLinkArguments directories fuel) level rest hoption hgroup hresponse state
      rw [parseLine_flatten_alone hoption hgroup hresponse, LinkEnv.runItems, ← ih]
      simp [LinkEnv.normalizeLinkArguments, hloop, hleaves]

end

section

variable {link : LinkEnv} {visited : List AbsPath} {level : Level} {arguments : List String}

theorem not_search_of_takesValue : ∀ {option : String}, TakesValue option → option ≠ "-L" →
    startsWith option.toList "-L" = false := by
  unfold TakesValue
  intro option hoption
  revert option
  decide

/-- The walker for directories passes over what names none. -/
theorem visitLoop_skip (inner : List AbsPath → List String → List AbsPath → List AbsPath) {token : String}
    (rest : List String) (hgroup : groupPieces? token = none) (hresponse : link.response? visited token = none)
    (hsearch : startsWith token.toList "-L" = false) (directories : List AbsPath) :
    link.visitLoop inner visited (token :: rest) directories = link.visitLoop inner visited rest directories := by
  have hne : token ≠ "-L" := by
    rintro rfl
    revert hsearch
    decide
  rw [LinkEnv.visitLoop.eq_def]
  cases hvalue : responseValue? token with
  | none => simp [hgroup, hvalue, hne, hsearch]
  | some value => simp [hgroup, hvalue, hresponse]

/-- `_link_search_directories` visits the `-L` values of the line. -/
theorem visit_eq_foldl (h : link.Closed visited level arguments) (fuel : Nat) (directories : List AbsPath) :
    link.visit fuel visited arguments directories =
      ((parseLine (link.flatten fuel visited level arguments)).filterMap Item.searchValue?).foldl
        link.addDirectory directories := by
  induction h generalizing fuel directories with
  | nil => cases fuel <;> simp [LinkEnv.visit, LinkEnv.visitLoop, LinkEnv.flatten, parseLine]
  | @group visited argument pieces rest hgroup inner outer ihinner ihouter =>
    cases fuel with
    | zero => simp [LinkEnv.visit, LinkEnv.flatten, parseLine]
    | succ fuel =>
      rw [parseLine_group hgroup inner, List.filterMap_append, List.foldl_append, ← ihinner, ← ihouter,
        LinkEnv.visit, LinkEnv.visitLoop.eq_def]
      simp only [hgroup]
  | @response visited level argument path tokens rest hresponse inner outer ihinner ihouter =>
    cases fuel with
    | zero => simp [LinkEnv.visit, LinkEnv.flatten, parseLine]
    | succ fuel =>
      obtain ⟨value, hvalue, -⟩ := response?_eq_some hresponse
      rw [parseLine_response hresponse inner, List.filterMap_append, List.foldl_append, ← ihinner, ← ihouter,
        LinkEnv.visit, LinkEnv.visitLoop.eq_def]
      simp only [groupPieces?_of_response hvalue, hvalue, hresponse]
  | @valued visited level option value rest hoption hgroup hresponse hvalue outer ih =>
    cases fuel with
    | zero => simp [LinkEnv.visit, LinkEnv.flatten, parseLine]
    | succ fuel =>
      rw [parseLine_flatten_valued hoption hgroup hresponse, readArgument_takesValue hoption]
      by_cases hsearch : option = "-L"
      · subst hsearch
        have hitem : (Item.mk level "-L"
            (if "-L" = "-l" then .libraryNext value else .valued "-L" value)).searchValue? = some value := rfl
        rw [List.filterMap_cons_some hitem, List.foldl_cons, ← ih, LinkEnv.visit, LinkEnv.visitLoop.eq_def]
        simp [groupPieces?_of_takesValue hoption, responseValue?_of_takesValue _ hoption]
      · have hskip : ∀ level, (Item.mk level option
            (if option = "-l" then .libraryNext value else .valued option value)).searchValue? = none := by
          intro level
          split <;> simp [Item.searchValue?, hsearch]
        rw [List.filterMap_cons_none (hskip level), ← ih, LinkEnv.visit,
          visitLoop_skip _ _ (groupPieces?_of_takesValue hoption) (response?_of_takesValue link visited hoption)
            (not_search_of_takesValue hoption hsearch),
          visitLoop_skip _ _ hgroup hresponse (hvalue.resolve_left hsearch)]
  | @alone visited level argument rest hoption hgroup hresponse outer ih =>
    cases fuel with
    | zero => simp [LinkEnv.visit, LinkEnv.flatten, parseLine]
    | succ fuel =>
      rw [parseLine_flatten_alone hoption hgroup hresponse]
      cases hsearch : startsWith argument.toList "-L" with
      | false =>
        rw [List.filterMap_cons_none (searchValue?_alone hsearch level), ← ih, LinkEnv.visit,
          visitLoop_skip _ _ hgroup hresponse hsearch]
      | true =>
        have hne : argument ≠ "-L" := by
          rintro rfl
          exact hoption (by decide)
        have hnone : responseValue? argument = none := by
          cases hvalue : responseValue? argument with
          | none => rfl
          | some value =>
            have := readArgument_response hvalue none
            rw [readArgument_search hne hsearch] at this
            cases this
        have hitem : (Item.mk level argument (.attached "-L" (attachedValue "-L" argument))).searchValue? =
            some (attachedValue "-L" argument) := rfl
        rw [readArgument_search hne hsearch, List.filterMap_cons_some hitem, List.foldl_cons, ← ih,
          LinkEnv.visit, LinkEnv.visitLoop.eq_def]
        simp [hgroup, hnone, hne, hsearch]

/-- Behind `-Wl,` everything is the linker's. -/
theorem linker_of_mem_flatten (fuel : Nat) (visited : List AbsPath) (arguments : List String) :
    ∀ token ∈ link.flatten fuel visited .linker arguments, token.1 = .linker := by
  induction fuel generalizing visited arguments with
  | zero => simp [LinkEnv.flatten]
  | succ fuel ih =>
    intro token hmem
    rw [LinkEnv.flatten, List.mem_flatMap] at hmem
    obtain ⟨argument, -, hmem⟩ := hmem
    split at hmem
    · exact ih _ _ _ hmem
    · exact ih _ _ _ hmem
    · rw [List.mem_singleton.mp hmem]

/-- A line starts a static link when one of its parts does. -/
theorem startsStatic_append (first second : List Token) :
    startsStatic (first ++ second) = (startsStatic first || startsStatic second) := List.any_append

/-- Inside a group nothing starts a static link. -/
theorem startsStatic_linker {line : List Token} (h : ∀ token ∈ line, token.1 = .linker) :
    startsStatic line = false := by
  rw [startsStatic, List.any_eq_false]
  intro token hmem
  simp [h token hmem]

theorem groupPieces?_global : ∀ argument ∈ globalStaticLinkArguments, groupPieces? argument = none := by decide

theorem responseValue?_global : ∀ argument ∈ globalStaticLinkArguments, responseValue? argument = none := by
  decide

/-- `_link_has_global_static` looks for what makes the line start static. -/
theorem linkHasGlobalStatic_eq (fuel : Nat) (visited : List AbsPath) (arguments : List String) :
    link.linkHasGlobalStatic fuel visited arguments =
      startsStatic (link.flatten fuel visited .driver arguments) := by
  induction fuel generalizing visited arguments with
  | zero => rfl
  | succ fuel ih =>
    induction arguments with
    | nil => rfl
    | cons argument rest ihrest =>
      have hcons : link.linkHasGlobalStatic (fuel + 1) visited (argument :: rest) =
          ((argument ∈ globalStaticLinkArguments ||
            match link.response? visited argument with
            | some (path, tokens) => link.linkHasGlobalStatic fuel (path :: visited) tokens
            | none => false) || link.linkHasGlobalStatic (fuel + 1) visited rest) := by
        simp [LinkEnv.linkHasGlobalStatic]
      rw [hcons, ihrest]
      cases hgroup : groupPieces? argument with
      | some pieces =>
        have hglobal : argument ∉ globalStaticLinkArguments := fun hmem => by
          rw [groupPieces?_global argument hmem] at hgroup
          cases hgroup
        have hresponse : link.response? visited argument = none := by
          cases hresponse : link.response? visited argument with
          | none => rfl
          | some found =>
            obtain ⟨value, hvalue, -⟩ := response?_eq_some hresponse
            rw [groupPieces?_of_response hvalue] at hgroup
            cases hgroup
        rw [flatten_group link fuel visited .driver rest hgroup, startsStatic_append,
          startsStatic_linker (linker_of_mem_flatten fuel visited pieces)]
        simp [hglobal, hresponse]
      | none =>
        cases hresponse : link.response? visited argument with
        | none => simp [flatten_alone link fuel visited .driver rest hgroup hresponse, startsStatic]
        | some found =>
          obtain ⟨path, tokens⟩ := found
          obtain ⟨value, hvalue, -⟩ := response?_eq_some hresponse
          have hglobal : argument ∉ globalStaticLinkArguments := fun hmem => by
            rw [responseValue?_global argument hmem] at hvalue
            cases hvalue
          rw [flatten_response link fuel visited .driver rest hresponse, startsStatic_append, ← ih]
          simp [hglobal]

/-! ## 8. Directories -/

/-- A directory that was found before changes nothing in a search. -/
theorem find?_foldl_addDirectory {files : AbsPath → List AbsPath} {found : AbsPath → Bool}
    (values : List String) (directories : List AbsPath) :
    ((values.foldl link.addDirectory directories).flatMap files).find? found =
      ((directories ++ (values.map link.resolvedPath).filter link.env.fs.isDir).flatMap files).find? found := by
  induction values generalizing directories with
  | nil => simp
  | cons value values ih =>
    rw [List.foldl_cons, ih, List.map_cons]
    unfold LinkEnv.addDirectory
    cases hdir : link.env.fs.isDir (link.resolvedPath value) with
    | false => simp [hdir]
    | true =>
      by_cases hold : link.resolvedPath value ∈ directories
      · have hsame : ((directories ++ [link.resolvedPath value]).flatMap files).find? found =
            (directories.flatMap files).find? found := by
          rw [List.flatMap_append, List.find?_append]
          cases hfirst : (directories.flatMap files).find? found with
          | some file => rfl
          | none =>
            rw [Option.none_or, List.find?_eq_none]
            intro file hfile
            exact List.find?_eq_none.mp hfirst file
              (List.mem_flatMap.mpr ⟨_, hold, by simpa using hfile⟩)
        rw [List.filter_cons_of_pos hdir, List.append_cons]
        simp only [hold, not_true, decide_false, Bool.and_false, Bool.false_eq_true, if_false]
        rw [List.flatMap_append, List.find?_append, ← hsame, ← List.find?_append, ← List.flatMap_append]
      · simp [hdir, hold]

/-- A library is found by the first directory that has it, in whatever way the directories are
listed. -/
theorem libraryArgumentIdentity_congr {first second : List AbsPath}
    (h : ∀ files : AbsPath → List AbsPath,
      (first.flatMap files).find? link.isFile = (second.flatMap files).find? link.isFile)
    (name : String) (static : Bool) :
    link.libraryArgumentIdentity name first static = link.libraryArgumentIdentity name second static := by
  simp only [LinkEnv.libraryArgumentIdentity, h]

theorem runItems_congr {first second : List AbsPath}
    (h : ∀ files : AbsPath → List AbsPath,
      (first.flatMap files).find? link.isFile = (second.flatMap files).find? link.isFile)
    (items : List Item) (state : LinkState) :
    link.runItems first items state = link.runItems second items state := by
  induction items generalizing state with
  | nil => rfl
  | cons item items ih =>
    have hleaf : link.leafOf first state item.argument item.reading =
        link.leafOf second state item.argument item.reading := by
      unfold LinkEnv.leafOf
      split <;> simp only [libraryArgumentIdentity_congr h]
    rw [LinkEnv.runItems, LinkEnv.runItems, ih, hleaf]

/-! ## 9. Enough levels -/

/-- A piece of a group is no group. -/
theorem groupPieces?_piece {argument : String} {pieces : List String}
    (hgroup : groupPieces? argument = some pieces) : ∀ piece ∈ pieces, groupPieces? piece = none := by
  unfold groupPieces? at hgroup
  split at hgroup
  · cases hgroup
    intro piece hmem
    obtain ⟨chars, hchars, rfl⟩ := List.mem_map.mp hmem
    have hcomma := not_mem_splitOnChar hchars
    rw [groupPieces?, if_neg]
    intro hstart
    rw [String.toList_ofList, startsWith, List.isPrefixOf_iff_prefix] at hstart
    exact hcomma (hstart.subset (by decide))
  · cases hgroup

/-- The files being expanded are files of the host, each open once. -/
def Opened (link : LinkEnv) (visited : List AbsPath) : Prop :=
  visited.Nodup ∧ visited ⊆ link.env.fs.files

/-- No more response files are open than there are files. -/
theorem Opened.length_le (h : Opened link visited) : visited.length ≤ link.env.fs.files.length :=
  (List.Nodup.subperm h.1 h.2).length_le

/-- A resolved path has no links left. -/
theorem realpath_resolvedPath (value : String) :
    link.env.fs.realpath (link.resolvedPath value) = link.resolvedPath value := by
  unfold LinkEnv.resolvedPath
  simp only
  split_ifs <;> exact Host.realpath_resolve _ _

/-- A response file that is expanded joins the open ones. -/
theorem Opened.cons {argument : String} {path : AbsPath} {tokens : List String} (h : Opened link visited)
    (hresponse : link.response? visited argument = some (path, tokens)) : Opened link (path :: visited) := by
  obtain ⟨value, -, rfl, hnew, hread⟩ := response?_eq_some hresponse
  obtain ⟨bytes, hbytes, -⟩ := Option.bind_eq_some_iff.mp hread
  have hfile := FileSystem.mem_files_of_readBytes hbytes
  rw [realpath_resolvedPath] at hfile
  exact ⟨List.nodup_cons.mpr ⟨hnew, h.1⟩, List.cons_subset.mpr ⟨hfile, h.2⟩⟩

/-- One level more changes nothing. -/
theorem flatten_succ (fuel : Nat) (hopened : Opened link visited)
    (hfuel : 2 * (link.env.fs.files.length - visited.length) + 2 ≤ fuel ∨
      2 * (link.env.fs.files.length - visited.length) + 1 ≤ fuel ∧
        ∀ argument ∈ arguments, groupPieces? argument = none) :
    link.flatten (fuel + 1) visited level arguments = link.flatten fuel visited level arguments := by
  induction fuel generalizing visited level arguments with
  | zero => omega
  | succ fuel ih =>
    rw [LinkEnv.flatten, LinkEnv.flatten]
    refine List.flatMap_congr fun argument hmem => ?_
    cases hgroup : groupPieces? argument with
    | some pieces =>
      refine ih hopened (.inr ⟨?_, groupPieces?_piece hgroup⟩)
      obtain hfuel | ⟨-, hnone⟩ := hfuel
      · omega
      · rw [hnone argument hmem] at hgroup
        cases hgroup
    | none =>
      cases hresponse : link.response? visited argument with
      | none => rfl
      | some found =>
        obtain ⟨path, tokens⟩ := found
        have hcons := hopened.cons hresponse
        have hlength := hcons.length_le
        rw [List.length_cons] at hlength
        refine ih hcons (.inl ?_)
        rw [List.length_cons]
        omega

/-- A line has no more levels than `depth`. -/
theorem flatten_of_depth_le {fuel : Nat} (h : link.depth ≤ fuel) (arguments : List String) :
    link.flatten fuel [] .driver arguments = link.flatLine arguments := by
  induction fuel, h using Nat.le_induction with
  | base => rfl
  | succ fuel hle ih =>
    rw [flatten_succ fuel ⟨List.nodup_nil, List.nil_subset _⟩ (.inl hle), ih]

/-! ## 10. The record follows the line -/

/-- The first library file is found in the directories of the line, however often they are named. -/
theorem lineDirectories_eq (items : List Item) (files : AbsPath → List AbsPath) :
    ((link.libraryPathValues.foldl link.addDirectory
        ((items.filterMap Item.searchValue?).foldl link.addDirectory [])).flatMap files).find? link.isFile =
      ((link.lineDirectories items).flatMap files).find? link.isFile := by
  rw [← List.foldl_append, find?_foldl_addDirectory, List.nil_append]
  rfl

/-- No option cut off from its value: the record holds what the flat line asks for. -/
theorem link_flags_follow_line {flags : List String} (h : link.Closed [] .driver (shellFlagTokens flags))
    {fuel : Nat} (hfuel : link.depth ≤ fuel) :
    leavesOf (link.normalizedShellLinkFlags fuel flags) =
      link.lineLeaves (link.flatLine (shellFlagTokens flags)) := by
  have hrun := congrArg Prod.fst (normalize_eq_run h fuel
    (link.linkSearchDirectories fuel (shellFlagTokens flags))
    ⟨link.linkHasGlobalStatic fuel [] (shellFlagTokens flags), []⟩)
  rw [linkHasGlobalStatic_eq, flatten_of_depth_le hfuel] at hrun
  rw [LinkEnv.normalizedShellLinkFlags, linkHasGlobalStatic_eq, flatten_of_depth_le hfuel]
  refine hrun.trans ?_
  rw [LinkEnv.lineLeaves, runItems_congr]
  intro files
  rw [LinkEnv.linkSearchDirectories, visit_eq_foldl h, flatten_of_depth_le hfuel, lineDirectories_eq]

end

/-- Every option of the line has its value, attached or next. -/
def Supplied (line : List Token) : Prop :=
  ∀ item ∈ parseLine line, TakesValue item.argument → item.reading.takesNext = true

instance (line : List Token) : Decidable (Supplied line) :=
  inferInstanceAs (Decidable (∀ item ∈ parseLine line,
    TakesValue item.argument → item.reading.takesNext = true))

/-- A build directory with a map of an earlier link, both kinds of one library and a response file. -/
def demoLink : LinkEnv where
  env := .ofNodes [(["work", "out.map"], .file (asciiBytes "map") 0), (["work", "lib"], .directory),
    (["work", "lib", "libfoo.a"], .file (asciiBytes "archive") 0),
    (["work", "lib", "libfoo.so"], .file (asciiBytes "shared") 0),
    (["work", "more.rsp"], .file (asciiBytes "-Wl,-Bdynamic -lfoo") 0)]
  baseDirectory := "/work"
  buildWorkspace := ""
  libraryPath := ""
  printFileName := fun _ => none
  directoryIdentity := fun _ => []

/-- `-Map` in one group and its file in the next: the file is hashed. -/
theorem link_flags_cut_map :
    ¬∀ (link : LinkEnv) (flags : List String), Supplied (link.flatLine (shellFlagTokens flags)) →
      ∀ fuel, link.depth ≤ fuel →
        leavesOf (link.normalizedShellLinkFlags fuel flags) =
          link.lineLeaves (link.flatLine (shellFlagTokens flags)) := by
  intro hclaim
  have hcode : leavesOf (demoLink.normalizedShellLinkFlags demoLink.depth ["-Wl,-Map -Wl,out.map"]) =
      [.raw "-Map", .file (.file "map")] := by decide +kernel
  have hline : demoLink.lineLeaves (demoLink.flatLine (shellFlagTokens ["-Wl,-Map -Wl,out.map"])) =
      [.option "-Map" .output] := by decide +kernel
  have hcase := hclaim demoLink ["-Wl,-Map -Wl,out.map"] (by decide +kernel) demoLink.depth le_rfl
  rw [hcode, hline] at hcase
  cases hcase

theorem link_flags_follow_demo :
    leavesOf (demoLink.normalizedShellLinkFlags demoLink.depth
        ["-L lib -Wl,-Bstatic,-Map,out.map -lfoo @more.rsp"]) =
      demoLink.lineLeaves (demoLink.flatLine (shellFlagTokens
        ["-L lib -Wl,-Bstatic,-Map,out.map -lfoo @more.rsp"])) := by
  have htokens : shellFlagTokens ["-L lib -Wl,-Bstatic,-Map,out.map -lfoo @more.rsp"] =
      ["-L", "lib", "-Wl,-Bstatic,-Map,out.map", "-lfoo", "@more.rsp"] := by decide +kernel
  have hclosed : demoLink.Closed [] .driver
      ["-L", "lib", "-Wl,-Bstatic,-Map,out.map", "-lfoo", "@more.rsp"] :=
    .valued (by decide) (by decide) (by decide) (.inl rfl)
      (.group (by decide +kernel : groupPieces? "-Wl,-Bstatic,-Map,out.map" =
          some ["-Bstatic", "-Map", "out.map"])
        (.alone (by decide) (by decide) (by decide)
          (.valued (by decide) (by decide) (by decide) (.inr (by decide)) .nil))
        (.alone (by decide) (by decide) (by decide)
          (.response (by decide +kernel : demoLink.response? [] "@more.rsp" =
              some (["work", "more.rsp"], ["-Wl,-Bdynamic", "-lfoo"]))
            (.group (by decide +kernel : groupPieces? "-Wl,-Bdynamic" = some ["-Bdynamic"])
              (.alone (by decide) (by decide) (by decide) .nil)
              (.alone (by decide) (by decide) (by decide) .nil))
            .nil)))
  exact link_flags_follow_line (htokens ▸ hclosed) le_rfl

end EccFe.Analysis.LinkLine
