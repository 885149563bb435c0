/-
EccFe.Tools.ContentDigest — what the digests of `_files_sha256` and `output_fingerprint` determine.

Both hash, for each path, its text, a NUL, its bytes (or `<missing>`) and a NUL. A path holds no
NUL, but the bytes of a file may, so the hashed text does not say where a file ends:

* two lists of files without NULs, none of which reads `<missing>`, have different digests
  unless they are the same (`entries_eq_of_digestInput`);
* a list is told from every other list only when it is empty, or one readable file whose bytes
  do not look like the end of a file and the beginning of another (`pinned_iff`).
-/
import EccFe.Engine.Provenance
import EccFe.Tools.InputDigest
import EccFe.Python.TextFile
import EccFe.Search.Framing
import Mathlib.Data.String.Basic

namespace EccFe.Tools.ContentDigest

open Python Search RtlInputs

/-! ## 1. Calls -/

/-- The parts of a path that the system hands out. -/
structure IsCanonical (p : AbsPath) : Prop where
  names : ∀ part ∈ p, IsName part
  noUp : ".." ∉ p
  noNul : ∀ part ∈ p, '\x00' ∉ part.toList

instance (p : AbsPath) : Decidable (IsCanonical p) :=
  decidable_of_iff
    ((∀ part ∈ p, IsName part) ∧ ".." ∉ p ∧ ∀ part ∈ p, '\x00' ∉ part.toList)
    ⟨fun h => ⟨h.1, h.2.1, h.2.2⟩, fun h => ⟨h.names, h.noUp, h.noNul⟩⟩

/-- A machine, and paths on it as a caller spells them. -/
structure Listing (ι : Type) (resolve : Host → ι → AbsPath) where
  host : Host
  paths : List ι
  canonical : ∀ path ∈ paths, IsCanonical (resolve host path)

namespace Listing

variable {ι : Type} {resolve : Host → ι → AbsPath}

def resolved (x : Listing ι resolve) : List AbsPath := x.paths.map (resolve x.host)

end Listing

/-- The argument of `_files_sha256`. -/
abbrev PathListing := Listing PurePath fun host path => host.resolve (host.expanduser path)

/-- The argument of `output_fingerprint`. -/
abbrev TextListing := Listing String Host.resolveText

/-- The same process on another machine. -/
def onHost (env : Env) (host : Host) : Env := { env with host := host }

/-- A resolved path, and the bytes read there. -/
abbrev Entry := AbsPath × Option (List UInt8)

def readEntry (host : Host) (p : AbsPath) : Entry := (p, host.fs.readBytes p)

variable (env : Env)

/-- `_files_sha256(paths)`. -/
def filesDigest (x : PathListing) : String := filesSha256 (onHost env x.host) x.resolved

/-- The distinct resolved paths, in order, with what is read there. -/
def filesEntries (x : PathListing) : List Entry :=
  (distinctPaths (onHost env x.host) x.resolved).map (readEntry x.host)

/-- `output_fingerprint(paths)`. -/
def outputDigest (x : TextListing) : String := Engine.outputFingerprint (onHost env x.host) x.paths

/-- `sorted({str(path) for path in paths if str(path).strip()})`. -/
def sortedPaths (paths : List String) : List String :=
  (paths.filter fun path => strip path ≠ "").dedup.insertionSort (· ≤ ·)

/-- The sorted paths, resolved, with what is read there. -/
def outputEntries (x : TextListing) : List Entry :=
  ((sortedPaths x.paths).map x.host.resolveText).map (readEntry x.host)

/-! ## 2. The hashed text -/

def missing : List UInt8 := asciiBytes "<missing>"

/-- The two fields of an entry. -/
def fields (entry : Entry) : List UInt8 × List UInt8 :=
  (pathBytes entry.1, entry.2.getD missing)

def digestInput (entries : List Entry) : List UInt8 := frames 0 (entries.map fields)

/-- What is hashed for a path is one frame of its record. -/
theorem digestEntry_eq_frame (p : AbsPath) :
    digestEntry env p = frame 0 (fields (readEntry env.host p)) := by
  rw [digestEntry, frame, List.append_assoc, List.append_assoc]
  rfl

/-- The input of a digest is the frames of its entries. -/
theorem flatMap_digestEntry (paths : List AbsPath) :
    paths.flatMap (digestEntry env) = digestInput (paths.map (readEntry env.host)) := by
  rw [digestInput, frames, List.map_map, List.flatMap_map]
  exact List.flatMap_congr fun p _ => digestEntry_eq_frame env p

/-- The digest of files is the hash of the frames of their entries. -/
theorem filesDigest_eq (x : PathListing) :
    filesDigest env x = env.sha256 (digestInput (filesEntries env x)) := by
  rw [filesDigest, filesSha256, filesDigestInput, flatMap_digestEntry]
  rfl

/-- The digest of outputs is the hash of the frames of their entries. -/
theorem outputDigest_eq (x : TextListing) :
    outputDigest env x = env.sha256 (digestInput (outputEntries x)) := by
  rw [outputDigest, Engine.outputFingerprint, flatMap_digestEntry]
  rfl

/-! ## 3. Paths in the text -/

theorem pathBytes_eq_encode (p : AbsPath) : pathBytes p = encode (PurePath.absText p).toList :=
  toUTF8_toList _

/-- A canonical path holds no NUL. -/
theorem zero_not_mem_pathBytes {p : AbsPath} (h : IsCanonical p) : 0 ∉ pathBytes p := by
  rw [pathBytes_eq_encode, encode, List.mem_flatMap]
  rintro ⟨c, hc, hzero⟩
  rw [zero_mem_encodeChar] at hzero
  subst hzero
  rw [toList_absText, List.mem_cons] at hc
  rcases hc with hslash | hc
  · exact absurd hslash (by decide)
  rcases mem_intercalate hc with hslash | ⟨word, hword, hmem⟩
  · exact absurd hslash (by decide)
  · obtain ⟨part, hpart, rfl⟩ := List.mem_map.mp hword
    exact h.noNul part hpart hmem

/-- A canonical path is determined by its bytes. -/
theorem pathBytes_inj {p q : AbsPath} (hp : IsCanonical p) (hq : IsCanonical q)
    (h : pathBytes p = pathBytes q) : p = q := by
  rw [pathBytes_eq_encode, pathBytes_eq_encode] at h
  have htext : PurePath.absText p = PurePath.absText q := by
    rw [← String.toList_inj, ← Option.some_inj, ← decode_encode, ← decode_encode, h]
  have hparts := congrArg PurePath.ofText htext
  rw [ofText_absText hp.names, ofText_absText hq.names] at hparts
  exact congrArg PurePath.parts hparts

/-! ## 4. Files without NULs -/

/-- Readable entries hold no NUL and do not read like a missing file. -/
def Plain (entries : List Entry) : Prop :=
  ∀ p content, (p, some content) ∈ entries → 0 ∉ content ∧ content ≠ missing

/-- Every path is one the system hands out. -/
def Canonical (entries : List Entry) : Prop := ∀ entry ∈ entries, IsCanonical entry.1

variable {env} {entries entries' : List Entry}

/-- Plain entries have records without NULs. -/
theorem zero_not_mem_fields (hcanonical : Canonical entries) (hplain : Plain entries) :
    ∀ record ∈ entries.map fields, 0 ∉ record.1 ∧ 0 ∉ record.2 := by
  intro record hrecord
  obtain ⟨⟨p, content⟩, hmem, rfl⟩ := List.mem_map.mp hrecord
  refine ⟨zero_not_mem_pathBytes (hcanonical _ hmem), ?_⟩
  cases content with
  | none =>
    show 0 ∉ missing
    decide
  | some content => exact (hplain p content hmem).1

/-- An entry is determined by its record, but for a file that reads like a missing one. -/
theorem eq_of_fields {entry entry' : Entry} (hcanonical : IsCanonical entry.1)
    (hcanonical' : IsCanonical entry'.1) (hne : entry.2 ≠ some missing)
    (hne' : entry'.2 ≠ some missing) (h : fields entry = fields entry') : entry = entry' := by
  obtain ⟨p, content⟩ := entry
  obtain ⟨q, content'⟩ := entry'
  obtain ⟨hpath, hcontent⟩ := Prod.mk.inj h
  obtain rfl := pathBytes_inj hcanonical hcanonical' hpath
  cases content with
  | none =>
    cases content' with
    | none => rfl
    | some content' => exact absurd (congrArg some hcontent.symm) hne'
  | some content =>
    cases content' with
    | none => exact absurd (congrArg some hcontent) hne
    | some content' => exact congrArg (fun bytes => (p, some bytes)) hcontent

theorem eq_of_map_eq {α β : Type} {f : α → β} : ∀ {xs ys : List α},
    (∀ x ∈ xs, ∀ y ∈ ys, f x = f y → x = y) → xs.map f = ys.map f → xs = ys
  | [], [], _, _ => rfl
  | [], _ :: _, _, h => nomatch h
  | _ :: _, [], _, h => nomatch h
  | x :: xs, y :: ys, hinj, h => by
      obtain ⟨hhead, htail⟩ := List.cons.inj h
      rw [hinj x List.mem_cons_self y List.mem_cons_self hhead, eq_of_map_eq (fun a ha b hb =>
        hinj a (List.mem_cons_of_mem x ha) b (List.mem_cons_of_mem y hb)) htail]

/-- Lists of plain files are determined by the hashed text. -/
theorem entries_eq_of_digestInput (hcanonical : Canonical entries)
    (hcanonical' : Canonical entries') (hplain : Plain entries) (hplain' : Plain entries')
    (h : digestInput entries = digestInput entries') : entries = entries' := by
  have hfields := frames_inj (zero_not_mem_fields hcanonical hplain)
    (zero_not_mem_fields hcanonical' hplain') h
  have hne : ∀ {entries : List Entry}, Plain entries → ∀ entry ∈ entries,
      entry.2 ≠ some missing := by
    rintro entries hplain ⟨p, content⟩ hmem rfl
    exact (hplain p missing hmem).2 rfl
  refine eq_of_map_eq (fun entry hmem entry' hmem' => ?_) hfields
  exact eq_of_fields (hcanonical _ hmem) (hcanonical' _ hmem') (hne hplain _ hmem)
    (hne hplain' _ hmem')

/-! ## 5. The lists that are told from every other -/

/-- `content`, then `count` times the end of a file, the path and `content` again. -/
def repeated (p : AbsPath) (content : List UInt8) : Nat → List UInt8
  | 0 => content
  | count + 1 => content ++ 0 :: (pathBytes p ++ 0 :: repeated p content count)

/-- The bytes of a file at `p` do not read as those of a missing file, nor as the end of a file
and another path. -/
structure Alone (p : AbsPath) (content : List UInt8) : Prop where
  ne_missing : content ≠ missing
  no_path : ∀ before q after, IsCanonical q → q ≠ p →
    content ≠ before ++ 0 :: (pathBytes q ++ 0 :: after)

/-- No other list of distinct paths has the hashed text. -/
def Pinned (entries : List Entry) : Prop :=
  entries = [] ∨ ∃ p content, entries = [(p, some content)] ∧ Alone p content

/-- No other list has the hashed text, and a path may stand in it again. -/
def PinnedAgain (entries : List Entry) : Prop :=
  entries = [] ∨ ∃ p content, entries = [(p, some content)] ∧ Alone p content ∧
    ∀ again count, 0 < count → content ≠ repeated p again count

/-- One path, one content. -/
def Consistent (entries : List Entry) : Prop :=
  ∀ p content content', (p, content) ∈ entries → (p, content') ∈ entries → content = content'

/-- Paths that differ do not contradict each other. -/
theorem consistent_of_nodup (h : (entries.map Prod.fst).Nodup) : Consistent entries := by
  intro p content content' hmem hmem'
  exact congrArg Prod.snd (List.inj_on_of_nodup_map h hmem hmem' rfl)

theorem Consistent.tail {entry : Entry} (h : Consistent (entry :: entries)) : Consistent entries :=
  fun p content content' hmem hmem' =>
    h p content content' (List.mem_cons_of_mem _ hmem) (List.mem_cons_of_mem _ hmem')

/-- Framed text that follows a content ends in a NUL. -/
theorem exists_append_frames (content : List UInt8) (records : List (List UInt8 × List UInt8)) :
    ∃ body, content ++ 0 :: frames 0 records = body ++ [0] := by
  by_cases h : records = []
  · exact ⟨content, by rw [h]; rfl⟩
  · obtain ⟨body, hbody⟩ := @exists_frames_eq_concat _ (0 : UInt8) _ h
    exact ⟨content ++ 0 :: body, by rw [hbody]; simp⟩

/-- Another path among the entries after the first stands in the content of the one file. -/
theorem exists_path_in_content {content first : List UInt8} {q : AbsPath}
    {before after : List Entry} {bytes : Option (List UInt8)}
    (h : content ++ [0] = first ++ 0 :: digestInput (before ++ (q, bytes) :: after)) :
    ∃ pre post, content = pre ++ 0 :: (pathBytes q ++ 0 :: post) := by
  rw [digestInput, List.map_append, frames_append, List.map_cons, fields, frames_cons] at h
  obtain ⟨pre, hpre⟩ := exists_append_frames first (before.map fields)
  obtain ⟨post, hpost⟩ := exists_append_frames (bytes.getD missing) (after.map fields)
  refine ⟨pre, post, @List.append_cancel_right _ _ [0] _ ?_⟩
  rw [h, hpost, ← List.cons_append, ← List.append_assoc, hpre]
  simp

/-- The same path and content again and again. -/
theorem content_of_replicate (p : AbsPath) (bytes : Option (List UInt8)) (count : Nat) :
    bytes.getD missing ++ 0 :: digestInput (List.replicate count (p, bytes)) =
      repeated p (bytes.getD missing) count ++ [0] := by
  induction count with
  | zero => rfl
  | succ count ih =>
    rw [List.replicate_succ, digestInput, List.map_cons, fields, frames_cons, repeated, ← digestInput,
      ih]
    simp

/-- A list that frames like a pinned one is that list. -/
theorem eq_of_alone {p : AbsPath} {content : List UInt8} (hp : IsCanonical p)
    (halone : Alone p content) (hcanonical : Canonical entries) (hconsistent : Consistent entries)
    (hagain : (entries.map Prod.fst).Nodup ∨ ∀ again count, 0 < count → content ≠ repeated p again count)
    (h : digestInput entries = digestInput [(p, some content)]) : entries = [(p, some content)] := by
  cases entries with
  | nil => exact absurd (frames_eq_nil.mp h.symm) (List.cons_ne_nil _ _)
  | cons entry rest =>
    obtain ⟨p', bytes⟩ := entry
    have hp' : IsCanonical p' := hcanonical _ List.mem_cons_self
    obtain ⟨hpath, hcontent⟩ :=
      frames_cons_inj (zero_not_mem_pathBytes hp') (zero_not_mem_pathBytes hp) h
    obtain rfl := pathBytes_inj hp' hp hpath
    -- every later entry has the same path
    have hsame : ∀ entry ∈ rest, entry.1 = p' := by
      rintro ⟨q, bytes'⟩ hmem
      by_contra hne
      obtain ⟨before, after, rfl⟩ := List.append_of_mem hmem
      obtain ⟨pre, post, hsplit⟩ := exists_path_in_content hcontent.symm
      exact halone.no_path pre q post (hcanonical _ (List.mem_cons_of_mem _ hmem)) hne hsplit
    have hreplicate : rest = List.replicate rest.length (p', bytes) := by
      refine List.eq_replicate_length.mpr fun entry hmem => ?_
      obtain ⟨q, bytes'⟩ := entry
      obtain rfl : q = p' := hsame _ hmem
      rw [hconsistent q bytes' bytes (List.mem_cons_of_mem _ hmem) List.mem_cons_self]
    have hcontent : content = repeated p' (bytes.getD missing) rest.length := by
      refine @List.append_cancel_right _ _ [0] _ ?_
      rw [← content_of_replicate, ← hreplicate]
      exact hcontent.symm
    cases rest with
    | nil =>
      cases bytes with
      | none => exact absurd hcontent halone.ne_missing
      | some bytes => rw [hcontent]; rfl
    | cons entry rest =>
      rcases hagain with hnodup | hagain
      · -- the paths are distinct
        refine absurd (hsame entry List.mem_cons_self) fun heq => ?_
        rw [List.map_cons, List.map_cons, heq, List.nodup_cons] at hnodup
        exact hnodup.1 List.mem_cons_self
      · exact absurd hcontent (hagain _ _ (Nat.succ_pos _))

/-! ## 6. Lists with the same text -/

/-- The files of the readable entries. -/
def nodesOf (entries : List Entry) : List (AbsPath × Node) :=
  entries.filterMap fun entry => entry.2.map fun content => (entry.1, .file content 0)

theorem nodesOf_some (p : AbsPath) (content : List UInt8) (entries : List Entry) :
    nodesOf ((p, some content) :: entries) = (p, .file content 0) :: nodesOf entries := rfl

theorem nodesOf_none (p : AbsPath) (entries : List Entry) :
    nodesOf ((p, none) :: entries) = nodesOf entries := rfl

theorem lookup_nodesOf_none : ∀ {entries : List Entry} {p : AbsPath},
    (∀ bytes, (p, some bytes) ∉ entries) → FileSystem.lookup p (nodesOf entries) = none
  | [], _, _ => rfl
  | (q, none) :: entries, p, h => by
      rw [nodesOf_none]
      exact lookup_nodesOf_none fun bytes hmem => h bytes (List.mem_cons_of_mem _ hmem)
  | (q, some bytes) :: entries, p, h => by
      rw [nodesOf_some, FileSystem.lookup, if_neg]
      · exact lookup_nodesOf_none fun bytes hmem => h bytes (List.mem_cons_of_mem _ hmem)
      · rintro rfl
        exact h bytes List.mem_cons_self

/-- A machine that holds them. -/
def hostOf (entries : List Entry) : Host where
  fs := .plain (nodesOf entries)
  home := fun _ => []
  cwd := []

/-- A file system built from entries reads them back. -/
theorem lookup_nodesOf : ∀ {entries : List Entry} {p : AbsPath} {content : Option (List UInt8)},
    Consistent entries → (p, content) ∈ entries →
      FileSystem.lookup p (nodesOf entries) = content.map fun bytes => .file bytes 0
  | (q, bytes) :: entries, p, content, hconsistent, hmem => by
      have hlater : q = p → content = bytes := by
        rintro rfl
        exact hconsistent q content bytes hmem List.mem_cons_self
      by_cases hrest : (p, content) ∈ entries
      · have ih := lookup_nodesOf hconsistent.tail hrest
        cases bytes with
        | none => exact ih
        | some bytes =>
          rw [nodesOf_some, FileSystem.lookup]
          split
          · rename_i hq
            rw [hlater hq]
            rfl
          · exact ih
      · obtain ⟨rfl, rfl⟩ := Prod.mk.inj ((List.mem_cons.mp hmem).resolve_right hrest)
        cases content with
        | none =>
          -- no later entry has the path
          have hnone : ∀ bytes, (p, some bytes) ∉ entries := by
            intro bytes hbytes
            have hsame := hconsistent p none (some bytes) hmem (List.mem_cons_of_mem _ hbytes)
            cases hsame
          rw [nodesOf_none]
          exact lookup_nodesOf_none hnone
        | some bytes =>
          rw [nodesOf_some, FileSystem.lookup, if_pos rfl]
          rfl

theorem normalize_canonical {p : AbsPath} (h : IsCanonical p) : FileSystem.normalize p = p :=
  (FileSystem.normalize_of_not_mem p [] h.noUp).trans (List.nil_append p)

/-- A host built from entries reads each of them back. -/
theorem readEntry_hostOf (hcanonical : Canonical entries) (hconsistent : Consistent entries)
    {entry : Entry} (hmem : entry ∈ entries) : readEntry (hostOf entries) entry.1 = entry := by
  obtain ⟨p, content⟩ := entry
  have hnode : (hostOf entries).fs.node p = content.map fun bytes => .file bytes 0 := by
    have hreal : (hostOf entries).fs.realpath p = p := normalize_canonical (hcanonical _ hmem)
    rw [FileSystem.node, hreal]
    exact lookup_nodesOf hconsistent hmem
  rw [readEntry, FileSystem.readBytes, hnode]
  cases content <;> rfl

theorem map_readEntry_hostOf (hcanonical : Canonical entries) (hconsistent : Consistent entries) :
    (entries.map Prod.fst).map (readEntry (hostOf entries)) = entries := by
  rw [List.map_map]
  conv_rhs => rw [← List.map_id entries]
  exact List.map_congr_left fun entry hmem => readEntry_hostOf hcanonical hconsistent hmem

/-- Every list of entries with distinct canonical paths is the list of some call of
`_files_sha256`. -/
theorem exists_pathListing (env : Env) (hcanonical : Canonical entries)
    (hnodup : (entries.map Prod.fst).Nodup) : ∃ y : PathListing, filesEntries env y = entries := by
  have hresolve : ∀ path ∈ entries.map (fun entry => PurePath.mk true entry.1),
      (hostOf entries).resolve ((hostOf entries).expanduser path) = path.parts := by
    intro path hpath
    obtain ⟨entry, hmem, rfl⟩ := List.mem_map.mp hpath
    exact normalize_canonical (hcanonical entry hmem)
  have hcanon : ∀ path ∈ entries.map (fun entry => PurePath.mk true entry.1),
      IsCanonical ((hostOf entries).resolve ((hostOf entries).expanduser path)) := by
    intro path hpath
    rw [hresolve path hpath]
    obtain ⟨entry, hmem, rfl⟩ := List.mem_map.mp hpath
    exact hcanonical entry hmem
  refine ⟨⟨hostOf entries, entries.map fun entry => ⟨true, entry.1⟩, hcanon⟩, ?_⟩
  have hparts : (entries.map fun entry => PurePath.mk true entry.1).map PurePath.parts =
      entries.map Prod.fst := by rw [List.map_map]; rfl
  have hreal : ∀ p ∈ entries.map Prod.fst, (hostOf entries).fs.realpath p = p := by
    intro p hp
    obtain ⟨entry, hmem, rfl⟩ := List.mem_map.mp hp
    exact normalize_canonical (hcanonical entry hmem)
  have hmap : (entries.map Prod.fst).map (onHost env (hostOf entries)).fs.realpath =
      entries.map Prod.fst := (List.map_congr_left hreal).trans (List.map_id' _)
  have hdistinct : distinctPaths (onHost env (hostOf entries)) (entries.map Prod.fst) =
      entries.map Prod.fst := by
    rw [distinctPaths, hmap]
    exact foldl_distinct_of_nodup _ [] hnodup
  rw [filesEntries, Listing.resolved, List.map_congr_left hresolve, hparts, hdistinct,
    map_readEntry_hostOf hcanonical (consistent_of_nodup hnodup)]

/-- The `i`-th spelling of a path: later spellings sort later. -/
def spelling (i : Nat) (p : AbsPath) : String :=
  PurePath.absText (String.ofList (List.replicate (i + 1) '0') :: ".." :: p)

def spellings : Nat → List Entry → List String
  | _, [] => []
  | i, entry :: entries => spelling i entry.1 :: spellings (i + 1) entries

theorem spelling_toList (i : Nat) (p : AbsPath) :
    ∃ rest, (spelling i p).toList = '/' :: (List.replicate (i + 1) '0' ++ '/' :: rest) := by
  rw [spelling, toList_absText]
  refine ⟨['/'].intercalate ((".." :: p).map String.toList), ?_⟩
  rw [List.map_cons, List.map_cons, List.intercalate_cons_cons, String.toList_ofList]
  simp

theorem replicate_lt (rest rest' : List Char) : ∀ {i j : Nat}, i < j →
    List.replicate i '0' ++ '/' :: rest < List.replicate j '0' ++ '/' :: rest'
  | 0, j + 1, _ => by
      rw [List.replicate_succ, List.replicate_zero, List.nil_append, List.cons_append]
      exact List.cons_lt_cons_iff.mpr (.inl (by decide))
  | i + 1, j + 1, h => by
      rw [List.replicate_succ, List.replicate_succ, List.cons_append, List.cons_append]
      exact List.cons_lt_cons_iff.mpr (.inr ⟨rfl, replicate_lt rest rest' (Nat.lt_of_succ_lt_succ h)⟩)

/-- The spellings of entries sort in the order of the list. -/
theorem spelling_lt {i j : Nat} (h : i < j) (p q : AbsPath) : spelling i p < spelling j q := by
  obtain ⟨rest, hrest⟩ := spelling_toList i p
  obtain ⟨rest', hrest'⟩ := spelling_toList j q
  rw [String.lt_iff_toList_lt, hrest, hrest']
  exact List.cons_lt_cons_iff.mpr (.inr ⟨rfl, replicate_lt rest rest' (Nat.succ_lt_succ h)⟩)

theorem mem_spellings : ∀ {i : Nat} {entries : List Entry} {text : String},
    text ∈ spellings i entries → ∃ j ≥ i, ∃ entry ∈ entries, text = spelling j entry.1
  | i, entry :: entries, text, h => by
      rcases List.mem_cons.mp h with rfl | h
      · exact ⟨i, Nat.le_refl i, entry, List.mem_cons_self, rfl⟩
      · obtain ⟨j, hj, entry', hmem, rfl⟩ := mem_spellings h
        exact ⟨j, Nat.le_of_succ_le hj, entry', List.mem_cons_of_mem _ hmem, rfl⟩

/-- The spellings of a list are sorted. -/
theorem pairwise_spellings : ∀ (i : Nat) (entries : List Entry),
    (spellings i entries).Pairwise (· < ·)
  | _, [] => List.Pairwise.nil
  | i, entry :: entries => by
      refine List.Pairwise.cons (fun text htext => ?_) (pairwise_spellings (i + 1) entries)
      obtain ⟨j, hj, entry', -, rfl⟩ := mem_spellings htext
      exact spelling_lt hj entry.1 entry'.1

/-- Sorting the spellings changes nothing. -/
theorem sortedPaths_spellings (entries : List Entry) :
    sortedPaths (spellings 0 entries) = spellings 0 entries := by
  have hsorted := pairwise_spellings 0 entries
  have hnodup : (spellings 0 entries).Nodup := hsorted.imp fun h => ne_of_lt h
  have hfilter : (spellings 0 entries).filter (fun path => strip path ≠ "") = spellings 0 entries := by
    refine List.filter_eq_self.mpr fun text htext => decide_eq_true ?_
    obtain ⟨j, -, entry, -, rfl⟩ := mem_spellings htext
    obtain ⟨rest, hrest⟩ := spelling_toList j entry.1
    exact strip_ne_empty (c := '/') (by rw [hrest]; exact List.mem_cons_self) (by decide)
  rw [sortedPaths, hfilter, hnodup.dedup]
  exact (hsorted.imp fun h => le_of_lt h).insertionSort_eq

theorem isName_zeros (i : Nat) : IsName (String.ofList (List.replicate (i + 1) '0')) where
  nonempty heq := absurd (congrArg String.toList heq) (by simp)
  noDot heq := absurd (congrArg String.toList heq) (by simp [List.replicate_succ])
  noSlash hmem := by
    rw [String.toList_ofList] at hmem
    exact absurd (List.eq_of_mem_replicate hmem) (by decide)

/-- A spelling leads to the path it spells. -/
theorem resolveText_spelling (host : Host) (hreal : host.fs.realpath = FileSystem.normalize) (i : Nat)
    {p : AbsPath} (h : IsCanonical p) : host.resolveText (spelling i p) = p := by
  have hnames : ∀ part ∈ String.ofList (List.replicate (i + 1) '0') :: ".." :: p, IsName part := by
    intro part hpart
    rcases List.mem_cons.mp hpart with rfl | hpart
    · exact isName_zeros i
    rcases List.mem_cons.mp hpart with rfl | hpart
    · decide
    · exact h.names part hpart
  rw [Host.resolveText, spelling, ofText_absText hnames, Host.expanduser, Host.resolve, hreal,
    if_pos rfl]
  have hzeros : String.ofList (List.replicate (i + 1) '0') ≠ ".." := fun heq =>
    absurd (congrArg String.toList heq) (by rw [String.toList_ofList]; simp [List.replicate_succ])
  rw [FileSystem.normalize, List.foldl_cons, if_neg hzeros, List.foldl_cons, if_pos rfl]
  exact normalize_canonical h

theorem map_resolveText_spellings : ∀ (i : Nat) {entries : List Entry} (host : Host),
    host.fs.realpath = FileSystem.normalize → Canonical entries →
      (spellings i entries).map host.resolveText = entries.map Prod.fst
  | _, [], _, _, _ => rfl
  | i, entry :: entries, host, hreal, hcanonical => by
      rw [spellings, List.map_cons, List.map_cons, map_resolveText_spellings (i + 1) host hreal
          fun entry hmem => hcanonical entry (List.mem_cons_of_mem _ hmem),
        resolveText_spelling host hreal i (hcanonical entry List.mem_cons_self)]

/-- Every consistent list of entries with canonical paths is the list of some call of
`output_fingerprint`. -/
theorem exists_textListing (hcanonical : Canonical entries) (hconsistent : Consistent entries) :
    ∃ y : TextListing, outputEntries y = entries := by
  have hreal : (hostOf entries).fs.realpath = FileSystem.normalize := rfl
  have hcanon : ∀ path ∈ spellings 0 entries, IsCanonical ((hostOf entries).resolveText path) := by
    intro path hpath
    obtain ⟨j, -, entry, hmem, rfl⟩ := mem_spellings hpath
    rw [resolveText_spelling _ hreal j (hcanonical entry hmem)]
    exact hcanonical entry hmem
  refine ⟨⟨hostOf entries, spellings 0 entries, hcanon⟩, ?_⟩
  show ((sortedPaths (spellings 0 entries)).map (hostOf entries).resolveText).map _ = entries
  rw [sortedPaths_spellings, map_resolveText_spellings 0 _ hreal hcanonical]
  exact map_readEntry_hostOf hcanonical hconsistent

/-! ## 7. What the digests determine -/

theorem canonical_pair {p q : AbsPath} {content content' : Option (List UInt8)}
    (hp : IsCanonical p) (hq : IsCanonical q) : Canonical [(p, content), (q, content')] := by
  intro entry hentry
  rcases List.mem_cons.mp hentry with rfl | hentry
  · exact hp
  · rw [List.mem_singleton.mp hentry]
    exact hq

theorem canonical_singleton {p : AbsPath} {content : Option (List UInt8)} (hp : IsCanonical p) :
    Canonical [(p, content)] := fun _ hentry => List.mem_singleton.mp hentry ▸ hp

/-- A list that is not pinned frames like another one. -/
theorem exists_of_not_pinned (hcanonical : Canonical entries) (h : ¬Pinned entries) :
    ∃ entries', Canonical entries' ∧ (entries'.map Prod.fst).Nodup ∧ entries' ≠ entries ∧
      digestInput entries' = digestInput entries := by
  rw [Pinned, not_or] at h
  obtain ⟨hne, hsingle⟩ := h
  cases entries with
  | nil => exact absurd rfl hne
  | cons entry rest =>
    obtain ⟨p, content⟩ := entry
    have hp : IsCanonical p := hcanonical _ List.mem_cons_self
    have hnodup : ∀ bytes : Option (List UInt8), ([(p, bytes)].map Prod.fst).Nodup :=
      fun _ => List.nodup_singleton p
    by_cases hrest : rest = []
    · subst hrest
      cases content with
      | none => exact ⟨[(p, some missing)], canonical_singleton hp, hnodup (some missing), by simp, rfl⟩
      | some content =>
        by_cases hmissing : content = missing
        · subst hmissing
          exact ⟨[(p, none)], canonical_singleton hp, hnodup none, by simp, rfl⟩
        · -- the content holds the end of a file and another path
          have hpath : ¬∀ before q after, IsCanonical q → q ≠ p →
              content ≠ before ++ 0 :: (pathBytes q ++ 0 :: after) :=
            fun hpath => hsingle ⟨p, content, rfl, hmissing, hpath⟩
          push Not at hpath
          obtain ⟨before, q, after, hq, hqp, rfl⟩ := hpath
          refine ⟨[(p, some before), (q, some after)], canonical_pair hp hq, ?_, by simp, ?_⟩
          · exact List.nodup_cons.mpr ⟨by simpa using Ne.symm hqp, List.nodup_singleton q⟩
          · simp [digestInput, fields, frames_cons]
    · -- the first file takes in the others
      obtain ⟨body, -, hmerge⟩ := @frames_merge _ (0 : UInt8) (pathBytes p)
        (content.getD missing) (rest.map fields) (by simpa using hrest)
      refine ⟨[(p, some (content.getD missing ++ 0 :: body))], canonical_singleton hp, hnodup _, ?_,
        hmerge⟩
      intro heq
      exact hrest (List.cons.inj heq).2.symm

/-- A list of `output_fingerprint` that is not pinned frames like another one. -/
theorem exists_of_not_pinnedAgain (hcanonical : Canonical entries) (h : ¬PinnedAgain entries) :
    ∃ entries', Canonical entries' ∧ Consistent entries' ∧ entries' ≠ entries ∧
      digestInput entries' = digestInput entries := by
  by_cases hpinned : Pinned entries
  · rcases hpinned with rfl | ⟨p, content, rfl, halone⟩
    · exact absurd (.inl rfl) h
    · -- the content repeats itself
      have hagain : ¬∀ again count, 0 < count → content ≠ repeated p again count :=
        fun hagain => h (.inr ⟨p, content, rfl, halone, hagain⟩)
      push Not at hagain
      obtain ⟨again, count, hcount, rfl⟩ := hagain
      have hp : IsCanonical p := hcanonical _ List.mem_cons_self
      refine ⟨List.replicate (count + 1) (p, some again), ?_, ?_, ?_, ?_⟩
      · intro entry hentry
        rw [List.eq_of_mem_replicate hentry]
        exact hp
      · intro q content content' hmem hmem'
        cases List.eq_of_mem_replicate hmem
        cases List.eq_of_mem_replicate hmem'
        rfl
      · intro heq
        have hlength := congrArg List.length heq
        rw [List.length_replicate] at hlength
        exact absurd (Nat.succ.inj hlength) (Nat.pos_iff_ne_zero.mp hcount)
      · have hcontent := content_of_replicate p (some again) count
        rw [digestInput, List.replicate_succ, List.map_cons, fields, frames_cons, ← digestInput]
        rw [hcontent, Option.getD_some, digestInput, List.map_singleton, fields, frames_cons]
        rfl
  · obtain ⟨entries', hcanon, hnodup, hne, heq⟩ := exists_of_not_pinned hcanonical hpinned
    exact ⟨entries', hcanon, consistent_of_nodup hnodup, hne, heq⟩

theorem filesEntries_paths (env : Env) (x : PathListing) :
    (filesEntries env x).map Prod.fst = distinctPaths (onHost env x.host) x.resolved := by
  rw [filesEntries, List.map_map]
  exact List.map_id' _

/-- The paths of listed files are resolved. -/
theorem canonical_filesEntries (env : Env) (x : PathListing) : Canonical (filesEntries env x) := by
  intro entry hentry
  have hmem : entry.1 ∈ distinctPaths (onHost env x.host) x.resolved := by
    rw [← filesEntries_paths]
    exact List.mem_map_of_mem hentry
  obtain ⟨p, hp, heq⟩ := List.mem_map.mp ((mem_distinctPaths _ _ _).mp hmem)
  obtain ⟨path, hpath, rfl⟩ := List.mem_map.mp hp
  rw [← heq]
  show IsCanonical (x.host.fs.realpath _)
  rw [Host.realpath_resolve]
  exact x.canonical path hpath

/-- Each listed file has one entry. -/
theorem nodup_filesEntries (env : Env) (x : PathListing) :
    ((filesEntries env x).map Prod.fst).Nodup := by
  rw [filesEntries_paths]
  exact distinctPaths_nodup _ _

theorem canonical_outputEntries (x : TextListing) : Canonical (outputEntries x) := by
  intro entry hentry
  rw [outputEntries, List.map_map] at hentry
  obtain ⟨text, htext, rfl⟩ := List.mem_map.mp hentry
  refine x.canonical text ?_
  rw [sortedPaths, List.mem_insertionSort, List.mem_dedup, List.mem_filter] at htext
  exact htext.1

/-- An output that is named twice is read the same. -/
theorem consistent_outputEntries (x : TextListing) : Consistent (outputEntries x) := by
  intro p content content' hmem hmem'
  obtain ⟨q, -, hq⟩ := List.mem_map.mp hmem
  obtain ⟨q', -, hq'⟩ := List.mem_map.mp hmem'
  cases hq
  cases hq'
  rfl

/-- `_files_sha256` determines a list of files exactly when it is pinned. -/
theorem filesDigest_determines_iff {env : Env} (hcf : env.CollisionFree) (x : PathListing) :
    (∀ y : PathListing, filesDigest env y = filesDigest env x →
      filesEntries env y = filesEntries env x) ↔ Pinned (filesEntries env x) := by
  have hdigest : ∀ y : PathListing, filesDigest env y = filesDigest env x ↔
      digestInput (filesEntries env y) = digestInput (filesEntries env x) := by
    intro y
    rw [filesDigest_eq, filesDigest_eq]
    exact hcf.eq_iff
  constructor
  · intro hdetermines
    by_contra hpinned
    obtain ⟨entries, hcanonical, hnodup, hne, heq⟩ :=
      exists_of_not_pinned (canonical_filesEntries env x) hpinned
    obtain ⟨y, rfl⟩ := exists_pathListing env hcanonical hnodup
    exact hne (hdetermines y ((hdigest y).mpr heq))
  · intro hpinned y hy
    have heq := (hdigest y).mp hy
    rcases hpinned with hnil | ⟨p, content, hsingle, halone⟩
    · rw [hnil] at heq ⊢
      exact List.map_eq_nil_iff.mp (frames_eq_nil.mp heq)
    · have hp : IsCanonical p :=
        canonical_filesEntries env x (p, some content) (hsingle ▸ List.mem_cons_self)
      rw [hsingle] at heq ⊢
      exact eq_of_alone hp halone (canonical_filesEntries env y)
        (consistent_of_nodup (nodup_filesEntries env y)) (.inl (nodup_filesEntries env y)) heq

/-- `output_fingerprint` determines a list of files exactly when it is pinned. -/
theorem outputDigest_determines_iff {env : Env} (hcf : env.CollisionFree) (x : TextListing) :
    (∀ y : TextListing, outputDigest env y = outputDigest env x →
      outputEntries y = outputEntries x) ↔ PinnedAgain (outputEntries x) := by
  have hdigest : ∀ y : TextListing, outputDigest env y = outputDigest env x ↔
      digestInput (outputEntries y) = digestInput (outputEntries x) := by
    intro y
    rw [outputDigest_eq, outputDigest_eq]
    exact hcf.eq_iff
  constructor
  · intro hdetermines
    by_contra hpinned
    obtain ⟨entries, hcanonical, hconsistent, hne, heq⟩ :=
      exists_of_not_pinnedAgain (canonical_outputEntries x) hpinned
    obtain ⟨y, rfl⟩ := exists_textListing hcanonical hconsistent
    exact hne (hdetermines y ((hdigest y).mpr heq))
  · intro hpinned y hy
    have heq := (hdigest y).mp hy
    rcases hpinned with hnil | ⟨p, content, hsingle, halone, hagain⟩
    · rw [hnil] at heq ⊢
      exact List.map_eq_nil_iff.mp (frames_eq_nil.mp heq)
    · have hp : IsCanonical p :=
        canonical_outputEntries x (p, some content) (hsingle ▸ List.mem_cons_self)
      rw [hsingle] at heq ⊢
      exact eq_of_alone hp halone (canonical_outputEntries y) (consistent_outputEntries y)
        (.inr hagain) heq

/-- What the two digests determine: exactly the pinned lists, and every list among the plain
ones. -/
theorem contentDigests_determine {env : Env} (hcf : env.CollisionFree) :
    (∀ x : PathListing,
      (∀ y : PathListing, filesDigest env y = filesDigest env x →
        filesEntries env y = filesEntries env x) ↔ Pinned (filesEntries env x)) ∧
    (∀ x y : PathListing, Plain (filesEntries env x) → Plain (filesEntries env y) →
      filesDigest env x = filesDigest env y → filesEntries env x = filesEntries env y) ∧
    (∀ x : TextListing,
      (∀ y : TextListing, outputDigest env y = outputDigest env x →
        outputEntries y = outputEntries x) ↔ PinnedAgain (outputEntries x)) ∧
    (∀ x y : TextListing, Plain (outputEntries x) → Plain (outputEntries y) →
      outputDigest env x = outputDigest env y → outputEntries x = outputEntries y) := by
  refine ⟨filesDigest_determines_iff hcf, fun x y hx hy h => ?_, outputDigest_determines_iff hcf,
    fun x y hx hy h => ?_⟩
  · rw [filesDigest_eq, filesDigest_eq, hcf.eq_iff] at h
    exact entries_eq_of_digestInput (canonical_filesEntries env x) (canonical_filesEntries env y)
      hx hy h
  · rw [outputDigest_eq, outputDigest_eq, hcf.eq_iff] at h
    exact entries_eq_of_digestInput (canonical_outputEntries x) (canonical_outputEntries y) hx hy h

theorem isCanonical_a : IsCanonical ["a"] := by decide

theorem isCanonical_b : IsCanonical ["b"] := by decide

/-- `/a` with the given bytes. -/
def oneFile (content : List UInt8) : PathListing where
  host := hostOf [(["a"], some content)]
  paths := [⟨true, ["a"]⟩]
  canonical _ hpath := List.mem_singleton.mp hpath ▸ isCanonical_a

/-- `/a` with `x` and `/b` with `y`. -/
def twoFiles : PathListing where
  host := hostOf [(["a"], some [120]), (["b"], some [121])]
  paths := [⟨true, ["a"]⟩, ⟨true, ["b"]⟩]
  canonical path hpath := by
    rcases List.mem_cons.mp hpath with rfl | hpath
    · exact isCanonical_a
    · exact List.mem_singleton.mp hpath ▸ isCanonical_b

/-- The same files for `output_fingerprint`. -/
def oneOutput (content : List UInt8) : TextListing where
  host := hostOf [(["a"], some content)]
  paths := ["/a"]
  canonical _ hpath := List.mem_singleton.mp hpath ▸ isCanonical_a

def twoOutputs : TextListing where
  host := hostOf [(["a"], some [120]), (["b"], some [121])]
  paths := ["/a", "/b"]
  canonical path hpath := by
    rcases List.mem_cons.mp hpath with rfl | hpath
    · exact isCanonical_a
    · exact List.mem_singleton.mp hpath ▸ isCanonical_b

/-- `/a` with `x` is pinned, and `/a` with `y` has another digest. -/
theorem contentDigests_determine_one : Pinned (filesEntries (Env.ofNodes []) (oneFile [120])) ∧
    filesDigest (Env.ofNodes []) (oneFile [121]) ≠ filesDigest (Env.ofNodes []) (oneFile [120]) := by
  have hentries : filesEntries (Env.ofNodes []) (oneFile [120]) = [(["a"], some [120])] := by rfl
  have hpinned : Pinned (filesEntries (Env.ofNodes []) (oneFile [120])) := by
    refine .inr ⟨["a"], [120], hentries, by decide, fun before q after _ _ heq => ?_⟩
    have hzero : (0 : UInt8) ∈ [(120 : UInt8)] := by
      rw [heq]
      exact List.mem_append_right _ List.mem_cons_self
    exact absurd hzero (by decide)
  refine ⟨hpinned, fun hdigest => ?_⟩
  have heq := ((contentDigests_determine (Env.ofNodes_collisionFree [])).1 (oneFile [120])).mpr
    hpinned (oneFile [121]) hdigest
  have hother : filesEntries (Env.ofNodes []) (oneFile [121]) = [(["a"], some [121])] := by rfl
  rw [hentries, hother] at heq
  exact absurd heq (by decide)

/-- `/a` with `x`, NUL, `/b`, NUL, `y` is not told from `/a` with `x` and `/b` with `y`. -/
theorem contentDigests_collide :
    (¬∀ env : Env, env.CollisionFree → ∀ x y : PathListing, filesDigest env x = filesDigest env y →
      filesEntries env x = filesEntries env y) ∧
    ¬∀ env : Env, env.CollisionFree → ∀ x y : TextListing, outputDigest env x = outputDigest env y →
      outputEntries x = outputEntries y := by
  have hcf := Env.ofNodes_collisionFree []
  have hb : pathBytes ["b"] = [47, 98] := by
    rw [pathBytes_eq_encode]
    decide
  have htext : digestInput [(["a"], some [120, 0, 47, 98, 0, 121])] =
      digestInput [(["a"], some [120]), (["b"], some [121])] := by
    simp [digestInput, fields, frames_cons, hb]
  have hfiles : filesEntries (Env.ofNodes []) (oneFile [120, 0, 47, 98, 0, 121]) =
      [(["a"], some [120, 0, 47, 98, 0, 121])] := by rfl
  have hfiles' : filesEntries (Env.ofNodes []) twoFiles =
      [(["a"], some [120]), (["b"], some [121])] := by rfl
  have houtput : outputEntries (oneOutput [120, 0, 47, 98, 0, 121]) =
      [(["a"], some [120, 0, 47, 98, 0, 121])] := by decide
  have houtput' : outputEntries twoOutputs = [(["a"], some [120]), (["b"], some [121])] := by decide
  constructor
  · intro h
    have heq := h _ hcf (oneFile [120, 0, 47, 98, 0, 121]) twoFiles
      (by rw [filesDigest_eq, filesDigest_eq, hfiles, hfiles', htext])
    rw [hfiles, hfiles'] at heq
    exact absurd (congrArg List.length heq) (by decide)
  · intro h
    have heq := h _ hcf (oneOutput [120, 0, 47, 98, 0, 121]) twoOutputs
      (by rw [outputDigest_eq, outputDigest_eq, houtput, houtput', htext])
    rw [houtput, houtput'] at heq
    exact absurd (congrArg List.length heq) (by decide)

end EccFe.Tools.ContentDigest
