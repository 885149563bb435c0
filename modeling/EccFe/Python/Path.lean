/-
EccFe.Python.Path — `pathlib.Path` and the file system it reads.

A pure path is what `Path(text)` keeps of a text: whether it is absolute, and its
parts without empty ones and `.`; `..` stays. A leading `//` is read as `/`.

A file system is finite and is seen through `os.path.realpath`: an absolute path
goes to its canonical form, and the nodes are stored under canonical paths only.
How symbolic links lead there is left open, except that a canonical path is its
own canonical form. `FileSystem.plain` is the file system without links.

`Host` adds what the interpreter asks the machine for: the working directory and
the home directories `expanduser` substitutes. Every user has a home directory.
-/
import EccFe.Python.Text

namespace EccFe.Python

/-! ## 1. Pure paths -/

/-- The parts of an absolute path, the root left out. -/
abbrev AbsPath := List String

instance AbsPath.lawfulBEq : LawfulBEq AbsPath := inferInstance

structure PurePath where
  absolute : Bool
  parts : List String
  deriving DecidableEq

namespace PurePath

/-- `Path(text)`. -/
def ofText (text : String) : PurePath where
  absolute := text.toList.head? == some '/'
  parts := ((splitOnChar '/' text.toList).map String.ofList).filter fun p => p ≠ "" ∧ p ≠ "."

def name (p : PurePath) : String := p.parts.getLast?.getD ""

/-- The extension of a file name: from the last dot on, unless that dot is the
first or the last character. -/
def suffixOf (name : List Char) : List Char :=
  let tail := (name.reverse.takeWhile (· != '.')).reverse
  if tail.length < name.length ∧ tail ≠ [] ∧ tail.length + 1 ≠ name.length then '.' :: tail else []

def suffix (p : PurePath) : String := String.ofList (suffixOf p.name.toList)

/-- `str(path)` of an absolute path. -/
def absText (p : AbsPath) : String := "/" ++ "/".intercalate p

/-- `str(path)`. -/
def text (p : PurePath) : String :=
  if p.absolute then absText p.parts else if p.parts = [] then "." else "/".intercalate p.parts

def withName (p : PurePath) (name : String) : PurePath :=
  { p with parts := p.parts.dropLast ++ [name] }

def stem (p : PurePath) : String :=
  let name := p.name.toList
  String.ofList (name.take (name.length - (suffixOf name).length))

/-- `path.with_suffix(suffix)`; `none` for the `ValueError` of a path without a name. -/
def withSuffix (p : PurePath) (suffix : String) : Option PurePath :=
  if p.name = "" then none else some (p.withName (p.stem ++ suffix))

/-- `path / other` for a relative `other`. -/
def join (p other : PurePath) : PurePath :=
  if other.absolute then other else { p with parts := p.parts ++ other.parts }

end PurePath

/-- `base / path` for an absolute `base`. -/
def AbsPath.join (base : AbsPath) (p : PurePath) : AbsPath :=
  if p.absolute then p.parts else base ++ p.parts

def AbsPath.parent (p : AbsPath) : AbsPath := p.dropLast

/-! ## 2. File systems -/

inductive Node where
  | file (content : List UInt8) (mtimeNs : Nat)
  | directory
  deriving DecidableEq

structure FileSystem where
  realpath : AbsPath → AbsPath
  realpath_idem : ∀ p, realpath (realpath p) = realpath p
  nodes : List (AbsPath × Node)

namespace FileSystem

def lookup (key : AbsPath) : List (AbsPath × Node) → Option Node
  | [] => none
  | (p, n) :: rest => if p = key then some n else lookup key rest

def node (fs : FileSystem) (p : AbsPath) : Option Node := lookup (fs.realpath p) fs.nodes

def exists? (fs : FileSystem) (p : AbsPath) : Bool := (fs.node p).isSome

def isFile (fs : FileSystem) (p : AbsPath) : Bool :=
  match fs.node p with
  | some (.file _ _) => true
  | _ => false

def isDir (fs : FileSystem) (p : AbsPath) : Bool := fs.node p == some .directory

/-- `path.read_bytes()`, `none` for the `OSError` of a directory or a missing file. -/
def readBytes (fs : FileSystem) (p : AbsPath) : Option (List UInt8) :=
  match fs.node p with
  | some (.file content _) => some content
  | _ => none

/-- The regular files, by canonical path. -/
def files (fs : FileSystem) : List AbsPath :=
  fs.nodes.filterMap fun
    | (p, .file _ _) => some p
    | (_, .directory) => none

/-- The same file system with other content in one regular file. -/
def write (fs : FileSystem) (p : AbsPath) (content : List UInt8) : FileSystem where
  realpath := fs.realpath
  realpath_idem := fs.realpath_idem
  nodes := fs.nodes.map fun
    | (q, .file old mtime) => if q = p then (q, .file content mtime) else (q, .file old mtime)
    | (q, .directory) => (q, .directory)

/-- Removes `..` the way `os.path.normpath` does. -/
def normalize (p : AbsPath) : AbsPath :=
  p.foldl (fun acc part => if part = ".." then acc.dropLast else acc ++ [part]) []

theorem normalize_of_not_mem : ∀ (p acc : AbsPath), ".." ∉ p →
    p.foldl (fun acc part => if part = ".." then acc.dropLast else acc ++ [part]) acc = acc ++ p
  | [], acc, _ => by simp
  | part :: rest, acc, h => by
      simp only [List.mem_cons, not_or] at h
      rw [List.foldl_cons, if_neg (Ne.symm h.1), normalize_of_not_mem rest _ h.2]
      simp

theorem dotdot_not_mem_foldl : ∀ (p acc : AbsPath), ".." ∉ acc →
    ".." ∉ p.foldl (fun acc part => if part = ".." then acc.dropLast else acc ++ [part]) acc
  | [], acc, h => h
  | part :: rest, acc, h => by
      rw [List.foldl_cons]
      refine dotdot_not_mem_foldl rest _ ?_
      split
      · exact fun hmem => h ((List.dropLast_sublist acc).mem hmem)
      · rename_i hne
        simp [h, Ne.symm hne]

theorem normalize_idem (p : AbsPath) : normalize (normalize p) = normalize p := by
  have h : ".." ∉ normalize p := dotdot_not_mem_foldl p [] (by simp)
  exact (normalize_of_not_mem (normalize p) [] h).trans (List.nil_append _)

/-- A file system without symbolic links. -/
def plain (nodes : List (AbsPath × Node)) : FileSystem where
  realpath := normalize
  realpath_idem := normalize_idem
  nodes := nodes

theorem node_realpath (fs : FileSystem) (p : AbsPath) : fs.node (fs.realpath p) = fs.node p := by
  rw [node, fs.realpath_idem, ← node]

theorem mem_files_of_lookup {key : AbsPath} {content : List UInt8} {mtime : Nat} :
    ∀ {nodes : List (AbsPath × Node)}, lookup key nodes = some (.file content mtime) →
      key ∈ nodes.filterMap fun
        | (p, .file _ _) => some p
        | (_, .directory) => none
  | [], h => by simp [lookup] at h
  | (p, n) :: rest, h => by
      rw [lookup] at h
      split at h
      · rename_i hp
        cases h
        simp [hp]
      · have ih := mem_files_of_lookup h
        cases n with
        | file c m => exact List.mem_cons_of_mem _ ih
        | directory => exact ih

/-- What can be read is one of the regular files. -/
theorem mem_files_of_readBytes {fs : FileSystem} {p : AbsPath} {content : List UInt8}
    (h : fs.readBytes p = some content) : fs.realpath p ∈ fs.files := by
  rw [readBytes] at h
  split at h
  · rename_i hnode
    exact mem_files_of_lookup hnode
  · cases h

theorem isFile_iff {fs : FileSystem} {p : AbsPath} :
    fs.isFile p = true ↔ ∃ content, fs.readBytes p = some content := by
  rw [isFile, readBytes]
  cases fs.node p with
  | none => simp
  | some n => cases n <;> simp

theorem exists_of_readBytes {fs : FileSystem} {p : AbsPath} {content : List UInt8}
    (h : fs.readBytes p = some content) : fs.exists? p = true := by
  rw [readBytes] at h
  rw [exists?]
  cases hnode : fs.node p with
  | none => simp [hnode] at h
  | some n => rfl

/-! ### One file rewritten -/

theorem lookup_write (p : AbsPath) (content : List UInt8) (key : AbsPath) :
    ∀ nodes : List (AbsPath × Node),
      lookup key (nodes.map fun
        | (q, .file old mtime) => if q = p then (q, .file content mtime) else (q, .file old mtime)
        | (q, .directory) => (q, .directory)) =
      (lookup key nodes).map fun
        | .file old mtime => if key = p then .file content mtime else .file old mtime
        | .directory => .directory
  | [] => rfl
  | (q, n) :: rest => by
      have ih := lookup_write p content key rest
      cases n with
      | directory =>
        rw [List.map_cons, lookup, lookup]
        split
        · rfl
        · exact ih
      | file old mtime =>
        by_cases hqp : q = p <;> by_cases hqk : q = key <;>
          simp_all [lookup]

theorem node_write (fs : FileSystem) (p : AbsPath) (content : List UInt8) (q : AbsPath) :
    (fs.write p content).node q = (fs.node q).map fun
      | .file old mtime =>
          if fs.realpath q = p then .file content mtime else .file old mtime
      | .directory => .directory :=
  lookup_write p content (fs.realpath q) fs.nodes

theorem exists_write (fs : FileSystem) (p : AbsPath) (content : List UInt8) (q : AbsPath) :
    (fs.write p content).exists? q = fs.exists? q := by
  simp [exists?, node_write]

theorem readBytes_write_ne (fs : FileSystem) {p q : AbsPath} (content : List UInt8)
    (h : fs.realpath q ≠ p) : (fs.write p content).readBytes q = fs.readBytes q := by
  rw [readBytes, readBytes, node_write]
  cases fs.node q with
  | none => rfl
  | some n => cases n <;> simp [h]

theorem readBytes_write_eq (fs : FileSystem) {p q : AbsPath} (content : List UInt8)
    (h : fs.realpath q = p) :
    (fs.write p content).readBytes q = (fs.readBytes q).map fun _ => content := by
  rw [readBytes, readBytes, node_write]
  cases fs.node q with
  | none => rfl
  | some n => cases n <;> simp [h]

theorem isFile_write (fs : FileSystem) (p : AbsPath) (content : List UInt8) (q : AbsPath) :
    (fs.write p content).isFile q = fs.isFile q := by
  rw [isFile, isFile, node_write]
  cases fs.node q with
  | none => rfl
  | some n =>
    cases n with
    | directory => rfl
    | file old mtime => by_cases h : fs.realpath q = p <;> simp [h]

end FileSystem

/-! ## 3. Text files -/

/-- The character a UTF-8 text starts with and how many bytes after the first it
takes; `none` for a malformed start (overlong and surrogate forms included). -/
def utf8Head (b : UInt8) (rest : List UInt8) : Option (Char × Nat) :=
  let cont (x : UInt8) : Bool := 0x80 ≤ x && x < 0xC0
  let low (x : UInt8) : Nat := x.toNat % 64
  let ofNat (lo n k : Nat) : Option (Char × Nat) :=
    if h : n.isValidChar ∧ lo ≤ n then some (Char.ofNatAux n h.1, k) else none
  if b < 0x80 then ofNat 0 b.toNat 0
  else if 0xC2 ≤ b && b < 0xE0 then
    match rest with
    | x :: _ => if cont x then ofNat 0x80 (b.toNat % 32 * 64 + low x) 1 else none
    | _ => none
  else if 0xE0 ≤ b && b < 0xF0 then
    match rest with
    | x :: y :: _ =>
        if cont x && cont y then ofNat 0x800 (b.toNat % 16 * 4096 + low x * 64 + low y) 2
        else none
    | _ => none
  else if 0xF0 ≤ b && b < 0xF5 then
    match rest with
    | x :: y :: z :: _ =>
        if cont x && cont y && cont z then
          ofNat 0x10000 (b.toNat % 8 * 262144 + low x * 4096 + low y * 64 + low z) 3
        else none
    | _ => none
  else none

/-- `bytes.decode("utf-8")`; `skip` counts the bytes of the last character still to pass. -/
def decodeFrom : Nat → List UInt8 → Option (List Char)
  | _, [] => some []
  | skip + 1, _ :: rest => decodeFrom skip rest
  | 0, b :: rest =>
      match utf8Head b rest with
      | some (c, k) => (decodeFrom k rest).map (c :: ·)
      | none => none

/-- The same with `errors="ignore"`: a byte that starts no character is dropped. -/
def decodeIgnoreFrom : Nat → List UInt8 → List Char
  | _, [] => []
  | skip + 1, _ :: rest => decodeIgnoreFrom skip rest
  | 0, b :: rest =>
      match utf8Head b rest with
      | some (c, k) => c :: decodeIgnoreFrom k rest
      | none => decodeIgnoreFrom 0 rest

def decode (bytes : List UInt8) : Option (List Char) := decodeFrom 0 bytes

def decodeIgnore (bytes : List UInt8) : List Char := decodeIgnoreFrom 0 bytes

theorem decodeIgnoreFrom_of_decodeFrom : ∀ (skip : Nat) (bytes : List UInt8) {cs : List Char},
    decodeFrom skip bytes = some cs → decodeIgnoreFrom skip bytes = cs
  | skip, [], cs, h => by
      cases skip <;> simpa [decodeFrom, decodeIgnoreFrom] using h
  | skip + 1, _ :: rest, cs, h => decodeIgnoreFrom_of_decodeFrom skip rest h
  | 0, b :: rest, cs, h => by
      rw [decodeFrom] at h
      rw [decodeIgnoreFrom]
      split at h
      · rename_i c k hhead
        obtain ⟨ds, hds, rfl⟩ := Option.map_eq_some_iff.mp h
        rw [decodeIgnoreFrom_of_decodeFrom k rest hds]
      · cases h

/-- Valid UTF-8 reads the same with either error handler. -/
theorem decodeIgnore_of_decode {bytes : List UInt8} {cs : List Char} (h : decode bytes = some cs) :
    decodeIgnore bytes = cs := decodeIgnoreFrom_of_decodeFrom 0 bytes h

/-- `path.read_text(encoding="utf-8").splitlines()` of the content. -/
def textLines (cs : List Char) : List (List Char) := splitlines (universalNewlines cs)

/-- The bytes of an ASCII text. -/
def asciiBytes (s : String) : List UInt8 := s.toList.map fun c => UInt8.ofNat c.toNat

/-! ## 4. The machine -/

structure Host where
  fs : FileSystem
  home : String → AbsPath
  cwd : AbsPath

namespace Host

/-- `path.expanduser()`: only a relative path whose first part starts with `~`. -/
def expanduser (host : Host) (p : PurePath) : PurePath :=
  match p.absolute, p.parts with
  | false, first :: rest =>
      match first.toList with
      | '~' :: user => ⟨true, host.home (String.ofList user) ++ rest⟩
      | _ => p
  | _, _ => p

def resolve (host : Host) (p : PurePath) : AbsPath :=
  host.fs.realpath (if p.absolute then p.parts else host.cwd ++ p.parts)

/-- `Path(text).expanduser().resolve()`. -/
def resolveText (host : Host) (text : String) : AbsPath :=
  host.resolve (host.expanduser (.ofText text))

theorem realpath_resolve (host : Host) (p : PurePath) :
    host.fs.realpath (host.resolve p) = host.resolve p := host.fs.realpath_idem _

theorem resolve_absolute (host : Host) (p : AbsPath) : host.resolve ⟨true, p⟩ = host.fs.realpath p :=
  rfl

end Host

example : (PurePath.ofText "rtl/./top.sv").suffix = ".sv" := by decide
example : (PurePath.ofText "rtl/.v").suffix = "" := by decide
example : (PurePath.ofText "out/add.soc.bin").stem = "add.soc" := by decide
example : decode (asciiBytes "a.v") = some "a.v".toList := by decide

end EccFe.Python
