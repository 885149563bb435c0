/-
EccFe.Resources — `fecompiler/resources.py`: where third-party RTL may live.

A release can keep its third-party RTL outside the source tree. A path that does
not exist but has a `thirdparty` part is looked up again under each third-party
root; `resolveThirdpartyPath` is that search.

`Env` is what the program finds when it starts: the machine, the environment
variables the resource search reads, and what the development does not look
inside of the library (`shutil.which`, `hashlib.sha256`, `json.load`, the table of
letters above ASCII) and of directories.
-/
import EccFe.Python.Path
import EccFe.Python.Json

namespace EccFe

open Python

structure Env where
  host : Host
  /-- `ECOS_FE_RESOURCE_ROOTS`, cut at `os.pathsep`. -/
  resourceRootsVar : List String
  /-- `ECOS_FE_SOC_ROOT`. -/
  socRootVar : String
  /-- `frontend_repo_root()`. -/
  frontendRepoRoot : AbsPath
  /-- `shutil.which(name)`. -/
  which : String → Option String
  /-- `hashlib.sha256(data).hexdigest()`. -/
  sha256 : List UInt8 → String
  /-- `json.load` of a file's bytes; `none` when it raises. -/
  jsonLoad : List UInt8 → Option Json
  /-- `str.isalnum` of a character above ASCII. -/
  isAlnum : Char → Bool
  /-- `os.listdir(path)`, in no particular order; empty for what is no directory. -/
  listDir : AbsPath → List String

/-- `\w`. -/
def Env.isWord (env : Env) (c : Char) : Bool :=
  if c.toNat < 128 then c.isAlphanum || c == '_' else env.isAlnum c

/-- No two byte strings have the same digest. -/
def Env.CollisionFree (env : Env) : Prop := Function.Injective env.sha256

abbrev Env.fs (env : Env) : FileSystem := env.host.fs

/-- The same program on a machine where one regular file has other content. -/
def Env.write (env : Env) (p : AbsPath) (content : List UInt8) : Env :=
  { env with host := { env.host with fs := env.host.fs.write p content } }

section

variable (env : Env) (p : AbsPath) (content : List UInt8)

@[simp] theorem Env.write_realpath (q : AbsPath) :
    (env.write p content).fs.realpath q = env.fs.realpath q := rfl

@[simp] theorem Env.write_sha256 : (env.write p content).sha256 = env.sha256 := rfl

@[simp] theorem Env.write_expanduser (q : PurePath) :
    (env.write p content).host.expanduser q = env.host.expanduser q := rfl

@[simp] theorem Env.write_resolve (q : PurePath) :
    (env.write p content).host.resolve q = env.host.resolve q := rfl

@[simp] theorem Env.write_resolveText (text : String) :
    (env.write p content).host.resolveText text = env.host.resolveText text := rfl

theorem Env.write_readBytes_ne {q : AbsPath} (h : env.fs.realpath q ≠ p) :
    (env.write p content).fs.readBytes q = env.fs.readBytes q :=
  env.fs.readBytes_write_ne content h

end

/-- A machine that holds `nodes` and nothing else: no links, no installed tools, no
resource roots. Its digest writes the bytes out, so it has no collisions. -/
def Env.ofNodes (nodes : List (AbsPath × Node)) : Env where
  host := { fs := .plain nodes, home := fun _ => ["home"], cwd := ["work"] }
  resourceRootsVar := []
  socRootVar := ""
  frontendRepoRoot := ["opt", "ecc-fe"]
  which := fun _ => none
  sha256 := fun bytes => String.ofList (bytes.map fun b => Char.ofNat b.toNat)
  jsonLoad := fun _ => none
  isAlnum := fun _ => false
  listDir := fun dir => nodes.filterMap fun (p, _) => if p.dropLast = dir then p.getLast? else none

theorem charOfByte_inj {a b : UInt8} (h : Char.ofNat a.toNat = Char.ofNat b.toNat) : a = b := by
  have hval : ∀ c : UInt8, (Char.ofNat c.toNat).toNat = c.toNat := by
    intro c
    have hc : c.toNat.isValidChar := .inl (lt_of_lt_of_le c.toNat_lt (by norm_num))
    rw [Char.ofNat, dif_pos hc]
    rfl
  rw [← UInt8.toNat_inj, ← hval a, ← hval b, h]

theorem Env.ofNodes_collisionFree (nodes : List (AbsPath × Node)) :
    (Env.ofNodes nodes).CollisionFree := by
  intro xs ys h
  have hmap := congrArg String.toList h
  simp only [Env.ofNodes, String.toList_ofList] at hmap
  exact List.map_injective_iff.mpr (fun _ _ => charOfByte_inj) hmap

/-- `json_read(path)`: `{}` for a file that is missing or malformed. -/
def Env.jsonRead (env : Env) (p : AbsPath) : Json :=
  match env.fs.readBytes p with
  | none => .obj []
  | some bytes => (env.jsonLoad bytes).getD (.obj [])

namespace Resources

def appendRoot (env : Env) (requireExists : Bool) (roots : List AbsPath) (root : AbsPath) :
    List AbsPath :=
  let resolved := env.fs.realpath root
  if requireExists && !env.fs.exists? resolved then roots
  else if resolved ∈ roots then roots
  else roots ++ [resolved]

/-- The directory a value of an environment variable names. -/
def rootOfText (env : Env) (text : String) : AbsPath := env.host.resolveText text

def resourceRoots (env : Env) : List AbsPath :=
  let listed := (env.resourceRootsVar.filter fun item => strip item ≠ "").map (rootOfText env)
  let socRoot := strip env.socRootVar
  let candidates := if socRoot = "" then listed else listed ++ [rootOfText env socRoot]
  candidates.foldl (appendRoot env true) []

def dedupeCandidates (env : Env) (roots : List AbsPath) : List AbsPath :=
  roots.foldl (appendRoot env false) []

def thirdpartyRoots (env : Env) : List AbsPath :=
  let external := (resourceRoots env).flatMap fun root =>
    [root ++ ["thirdparty"], root ++ ["fecompiler", "thirdparty"], root]
  dedupeCandidates env (external ++ [env.frontendRepoRoot ++ ["fecompiler", "thirdparty"]])

/-- The parts after the first `thirdparty`. -/
def thirdpartyRelative (p : AbsPath) : AbsPath := (p.dropWhile (· != "thirdparty")).drop 1

/-- Resolve a path that may have moved into an external third-party bundle. -/
def resolveThirdpartyPath (env : Env) (path : AbsPath) : AbsPath :=
  let resolved := env.fs.realpath path
  if env.fs.exists? resolved then resolved
  else
    let rel := thirdpartyRelative resolved
    if rel = [] then resolved
    else
      let candidates := (thirdpartyRoots env).map fun root => env.fs.realpath (root ++ rel)
      (candidates.find? env.fs.exists?).getD resolved

def resolveDifftestReferenceModel (env : Env) (socRoot : AbsPath) : AbsPath :=
  let name := "riscv32-spike-so"
  let own := env.fs.realpath (socRoot ++ ["tools", name])
  let candidates := own :: (resourceRoots env).flatMap fun root =>
    [["tools", name], ["difftest", name], ["thirdparty", "SoC", "tools", name],
      ["fecompiler", "thirdparty", "SoC", "tools", name]].map fun rel => env.fs.realpath (root ++ rel)
  (candidates.find? env.fs.exists?).getD own

theorem realpath_resolveThirdpartyPath (env : Env) (path : AbsPath) :
    env.fs.realpath (resolveThirdpartyPath env path) = resolveThirdpartyPath env path := by
  have hid := env.fs.realpath_idem
  simp only [resolveThirdpartyPath]
  split
  · exact hid path
  split
  · exact hid path
  · cases hfind : (List.map (fun root =>
        env.fs.realpath (root ++ thirdpartyRelative (env.fs.realpath path)))
        (thirdpartyRoots env)).find? env.fs.exists? with
    | none => exact hid path
    | some candidate =>
      obtain ⟨root, _, rfl⟩ := List.mem_map.mp (List.mem_of_find?_eq_some hfind)
      exact hid _

/-- A path that exists is not looked up elsewhere. -/
theorem resolveThirdpartyPath_of_exists {env : Env} {path : AbsPath}
    (h : env.fs.exists? path = true) :
    resolveThirdpartyPath env path = env.fs.realpath path := by
  have hres : env.fs.exists? (env.fs.realpath path) = true := by
    rwa [FileSystem.exists?, FileSystem.node_realpath, ← FileSystem.exists?]
  simp only [resolveThirdpartyPath, hres, if_true]

end Resources

end EccFe
