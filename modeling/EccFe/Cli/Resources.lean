/-
EccFe.Cli.Resources — the resource manifest of `fecompiler/resources.py`: how it is read, which
tools it lists, and whether a listed tool is healthy.

The manifest is shared with other programs. Its entries and their paths are whatever these
wrote, so every field is read with the coercion of the source.
-/
import EccFe.Python.Json
import EccFe.Python.Path

namespace EccFe.Cli

open Python

/-- What a process finds on its machine: files, access bits, and the homes of XDG. -/
structure Disk where
  host : Host
  /-- `os.access(path, os.X_OK)`. -/
  executable : AbsPath → Bool
  dataHome : PurePath
  stateHome : PurePath

def manifestSchemaVersion : Int := 3

def emptyResourceManifest (disk : Disk) : Dict :=
  let dataHome := disk.dataHome.join (.ofText "ecos-studio")
  let resourcesDir := disk.stateHome.join (.ofText "ecos-studio/resources")
  [("schema_version", .int manifestSchemaVersion),
    ("resources_dir", .str resourcesDir.text),
    ("tools_dir", .str (dataHome.join (.ofText "tools")).text),
    ("pdks_dir", .str (dataHome.join (.ofText "pdks")).text),
    ("mpcs_dir", .str (dataHome.join (.ofText "mpcs")).text),
    ("required_resources", .arr []),
    ("installed", .obj []),
    ("pdk_references", .arr [])]

/-- `read_resource_manifest(path, strict=True)` of a file with the given bytes, `none` when it is
missing; `loads` is `json.loads` of the decoded bytes, `none` when it raises. -/
def readResourceManifest (loads : List UInt8 → Option Json) (disk : Disk) :
    Option (List UInt8) → Except String Dict
  | none => .ok (emptyResourceManifest disk)
  | some bytes =>
      match loads bytes with
      | some (.obj value) =>
          if (Dict.getD value "installed" (.obj [])).isDict then .ok value
          else .error "manifest root and installed field must be objects"
      | some _ => .error "manifest root and installed field must be objects"
      | none => .error "ValueError"

/-- `installed_tool_entries(manifest)`: the last entry of a name stands. An empty manifest is
falsy, and the default one is read in its place. -/
def installedToolEntries (default manifest : Dict) : List (String × Dict) :=
  let source := if manifest = [] then default else manifest
  (source.dictAt "installed").foldl (fun tools item =>
    match item.2 with
    | .obj rawEntry =>
        if Dict.get rawEntry "type" = some (.str "tool") then
          let name := Dict.textOrEmptyAt rawEntry "name"
          let key := item.1.toList
          let own := if startsWith key "tool:" then String.ofList (key.drop 5) else item.1
          (if name = "" then own else name, rawEntry) :: tools
        else tools
    | _ => tools) []

/-- `installed_tool_entries(manifest).get(name)`. -/
def installedToolEntry (default manifest : Dict) (name : String) : Option Dict :=
  (installedToolEntries default manifest).lookup name

inductive MarkerKind where
  | executable
  | file
  | directory
  deriving DecidableEq

def toolHealthMarkers : List (String × List (String × MarkerKind)) := [
  ("slang", [("bin/slang", .executable)]),
  ("verilator", [("bin/verilator", .executable), ("bin/verilator_bin", .executable),
    ("share/verilator/include/verilated.cpp", .file)]),
  ("yosys", [("bin/yosys", .executable)]),
  ("riscv-toolchain", [("bin/riscv64-unknown-elf-gcc", .executable),
    ("bin/riscv64-unknown-elf-ld", .executable),
    ("bin/riscv64-unknown-elf-objdump", .executable),
    ("bin/riscv64-unknown-elf-objcopy", .executable)]),
  ("ecc-fe", [("bin/ecc-fe", .executable), ("fecompiler", .directory)]),
  ("ecc-fe-soc-ysyx-am", [("manifest.json", .file), ("catalog.json", .file),
    ("filelist.soc.f", .file), ("driver/main.cpp", .file)]),
  ("ecc-fe-cpu-rtl", [("thirdparty/README", .file), ("thirdparty/cv32e40p", .directory),
    ("thirdparty/cva6", .directory), ("thirdparty/darkriscv", .directory),
    ("thirdparty/ibex", .directory), ("thirdparty/learn-fpga", .directory),
    ("thirdparty/picorv32", .directory), ("thirdparty/scr1", .directory),
    ("thirdparty/serv", .directory), ("thirdparty/vexriscv", .directory)]),
  ("ecc-fe-difftest-ref", [("tools/riscv32-spike-so", .file)]),
  ("ecc-fe-examples", [("examples/ysyx_00000000/filelist.cpu.f", .file),
    ("examples/ysyx_00000000/rtl/ysyx_00000000.sv", .file),
    ("examples/ysyx_00000000/rtl/ysyx_00000000_difftest.sv", .file)]),
  ("surfer", [("index.html", .file), ("integration.js", .file), ("surfer.js", .file),
    ("surfer_bg.wasm", .file)])]

def requiredToolHealthMarkers (name : String) : List (String × MarkerKind) :=
  let normalized := lower (strip name)
  if startsWith normalized.toList "ecc-fe-cpu-" ∧ normalized ≠ "ecc-fe-cpu-rtl" then
    [("thirdparty", .directory)]
  else if startsWith normalized.toList "ecc-fe-test-" then [("tests", .directory)]
  else (toolHealthMarkers.lookup normalized).getD []

inductive Health where
  | missing (markers : List String)
  | invalid (missing : List String)
  | ok
  deriving DecidableEq

namespace Disk

variable (disk : Disk)

/-- Is the marker there, below `root`? -/
def present (root : PurePath) (marker : String × MarkerKind) : Bool :=
  let candidate := disk.host.resolve (root.join (.ofText marker.1))
  match marker.2 with
  | .directory => disk.host.fs.isDir candidate
  | .file => disk.host.fs.isFile candidate
  | .executable => disk.host.fs.isFile candidate && disk.executable candidate

def toolEntryHealth (entry : Dict) : Health :=
  let root := disk.host.expanduser (.ofText (entry.textAt "path"))
  let markers := requiredToolHealthMarkers (lower (strip (entry.textAt "name")))
  if disk.host.fs.isDir (disk.host.resolve root) then
    match (markers.filter fun marker => !disk.present root marker).map (·.1) with
    | [] => .ok
    | missing => .invalid missing
  else .missing (markers.map (·.1))

end Disk

end EccFe.Cli
