/-
EccFe.Tools.InputDigest — what the workspace fingerprint depends on.

One regular file is rewritten. If no filelist reader opens it, the set of hashed
files stays the same (`filelistTreeFiles_write`), so the fingerprint changes
exactly when the file is one of them: its bytes stand in the digest input
between two parts that do not change.
-/
import EccFe.Tools.RtlInputs
import EccFe.Python.JsonText

namespace EccFe.Tools.RtlInputs

open Python Search

/-! ## 1. The hashed files -/

/-- The files of a path field, each once. -/
def fieldHashedFiles (env : Env) (workspace : Workspace) (field : String) : List AbsPath :=
  match fieldPath? env workspace field with
  | none => []
  | some path => distinctPaths env (fieldFiles env field path)

/-- Every file whose content the workspace fingerprint covers. -/
def hashedFiles (env : Env) (workspace : Workspace) : List AbsPath :=
  (fingerprintPathFields workspace).flatMap (fieldHashedFiles env workspace)

/-- `p` is read as a filelist, not only hashed. -/
def OpenedAsFilelist (env : Env) (workspace : Workspace) (p : AbsPath) : Prop :=
  ∃ field ∈ fingerprintPathFields workspace, isFilelistField field = true ∧
    ∃ path, fieldPath? env workspace field = some path ∧
      Reaches (fingerprintItems env) (env.fs.realpath path) p

/-! ## 2. Files and digests after a write -/

theorem files_write (fs : FileSystem) (p : AbsPath) (content : List UInt8) :
    (fs.write p content).files = fs.files := by
  rw [FileSystem.files, FileSystem.files, FileSystem.write, List.filterMap_map]
  refine List.filterMap_congr fun qn _ => ?_
  obtain ⟨q, n⟩ := qn
  cases n with
  | directory => rfl
  | file old mtime => by_cases h : q = p <;> simp [h]

section

variable (env : Env) (workspace : Workspace) {p : AbsPath} (content : List UInt8)

theorem resolveFilelistPath_write (base : AbsPath) (value : String) :
    resolveFilelistPath (env.write p content) base value = resolveFilelistPath env base value := by
  simp only [resolveFilelistPath, Env.write_expanduser, Env.write_realpath]

theorem fingerprintLine_write :
    fingerprintLine (env.write p content) = fingerprintLine env := by
  funext base line
  simp only [fingerprintLine, resolveFilelistPath_write]

/-- A write to one file leaves what other files include. -/
theorem fingerprintItems_write {q : AbsPath} (h : env.fs.realpath q ≠ p) :
    fingerprintItems (env.write p content) q = fingerprintItems env q := by
  rw [fingerprintItems, fingerprintItems, env.write_readBytes_ne p content h,
    fingerprintLine_write]

theorem fieldPath_write (field : String) :
    fieldPath? (env.write p content) workspace field = fieldPath? env workspace field := by
  simp only [fieldPath?, Env.write_resolveText]

theorem normalizedPathText_write (field : String) :
    normalizedPathText (env.write p content) workspace field =
      normalizedPathText env workspace field := by
  rw [normalizedPathText, normalizedPathText, fieldPath_write]

/-- A write to one file leaves the digests of others. -/
theorem digestEntry_write_ne {q : AbsPath} (h : env.fs.realpath q ≠ p) :
    digestEntry (env.write p content) q = digestEntry env q := by
  rw [digestEntry, digestEntry, env.write_readBytes_ne p content h]

/-- A resolved name has no links left. -/
theorem realpath_resolveFilelistPath (base : AbsPath) (value : String) :
    env.fs.realpath (resolveFilelistPath env base value) = resolveFilelistPath env base value :=
  env.fs.realpath_idem _

/-- Every filelist a reader opens is named by its canonical path. -/
theorem realpath_of_reaches {root x : AbsPath}
    (h : Reaches (fingerprintItems env) (env.fs.realpath root) x) : env.fs.realpath x = x := by
  rcases Relation.ReflTransGen.cases_tail h with rfl | ⟨y, -, hxy⟩
  · exact env.fs.realpath_idem root
  · rw [Includes, fingerprintItems, List.mem_cons] at hxy
    rcases hxy with hxy | hxy
    · cases hxy
    · split at hxy
      · simp at hxy
      · obtain ⟨line, _, hline⟩ := List.mem_flatMap.mp hxy
        unfold fingerprintLine at hline
        split at hline
        · simp at hline
        · split at hline
          · obtain rfl : x = _ := by simpa using hline
            exact realpath_resolveFilelistPath env _ _
          · split at hline
            · obtain rfl : x = _ := by simpa using hline
              exact realpath_resolveFilelistPath env _ _
            · dsimp only at hline
              split at hline <;> simp at hline

/-- A file that is included is one of the tree. -/
theorem mem_files_of_includes {root x c : AbsPath}
    (h : Reaches (fingerprintItems env) (env.fs.realpath root) x)
    (hc : Includes (fingerprintItems env) x c) : x ∈ env.fs.files := by
  rw [Includes, fingerprintItems, List.mem_cons] at hc
  rcases hc with hc | hc
  · cases hc
  · split at hc
    · simp at hc
    · rename_i bytes hread
      rw [← realpath_of_reaches env h]
      exact FileSystem.mem_files_of_readBytes hread

/-- The hashed files of a filelist tree: what the reachable filelists emit. -/
theorem mem_filelistTreeFiles_iff (root q : AbsPath) :
    q ∈ filelistTreeFiles env root ↔
      ∃ x, Reaches (fingerprintItems env) (env.fs.realpath root) x ∧
        .emit q ∈ fingerprintItems env x := by
  rw [filelistTreeFiles]
  cases h : expandFrom (fingerprintItems env) env.fs.files (env.fs.realpath root) with
  | ok r => exact mem_output_iff h q
  | error err =>
    cases err with
    | tooDeep =>
      exact absurd h (expandFrom_ne_tooDeep fun x hx c hc => mem_files_of_includes env hx hc)
    | raised e => exact e.elim

/-- A file no reader opens does not change which files are hashed. -/
theorem filelistTreeFiles_write {root : AbsPath}
    (h : ¬Reaches (fingerprintItems env) (env.fs.realpath root) p) :
    filelistTreeFiles (env.write p content) root = filelistTreeFiles env root := by
  have hcongr : expandFrom (fingerprintItems env) env.fs.files (env.fs.realpath root) =
      expandFrom (fingerprintItems (env.write p content)) env.fs.files (env.fs.realpath root) := by
    refine expandFrom_congr _ _ fun x hx => (fingerprintItems_write env content ?_).symm
    rw [realpath_of_reaches env hx]
    rintro rfl
    exact h hx
  rw [filelistTreeFiles, filelistTreeFiles, Env.write_realpath, hcongr]
  rw [show (env.write p content).fs.files = env.fs.files from files_write env.fs p content]

/-! ## 3. One file in a digest -/

theorem mem_foldl_distinct {α : Type} [BEq α] [LawfulBEq α] : ∀ (paths seen : List α) (q : α),
    q ∈ paths.foldl (fun seen p => if p ∈ seen then seen else seen ++ [p]) seen ↔
      q ∈ seen ∨ q ∈ paths
  | [], seen, q => by simp
  | r :: rest, seen, q => by
      rw [List.foldl_cons, mem_foldl_distinct rest]
      split
      · rename_i hr
        rw [List.mem_cons]
        constructor
        · rintro (h | h)
          · exact .inl h
          · exact .inr (.inr h)
        · rintro (h | rfl | h)
          · exact .inl h
          · exact .inl hr
          · exact .inr h
      · simp only [List.mem_append, List.mem_cons, List.not_mem_nil, or_false, or_assoc]

theorem nodup_foldl_distinct {α : Type} [BEq α] [LawfulBEq α] : ∀ (paths seen : List α), seen.Nodup →
    (paths.foldl (fun seen p => if p ∈ seen then seen else seen ++ [p]) seen).Nodup
  | [], _, h => h
  | r :: rest, seen, h => by
      rw [List.foldl_cons]
      refine nodup_foldl_distinct rest _ ?_
      split
      · exact h
      · rename_i hr
        rw [List.nodup_append]
        exact ⟨h, List.nodup_singleton r, by rintro a ha b hb rfl; simp at hb; exact hr (hb ▸ ha)⟩

theorem foldl_distinct_of_nodup {α : Type} [BEq α] [LawfulBEq α] : ∀ (items seen : List α),
    (seen ++ items).Nodup →
      items.foldl (fun seen x => if x ∈ seen then seen else seen ++ [x]) seen = seen ++ items
  | [], seen, _ => (List.append_nil seen).symm
  | x :: items, seen, h => by
      have hx : x ∉ seen := fun hmem =>
        (List.nodup_append.mp h).2.2 x hmem x List.mem_cons_self rfl
      rw [List.foldl_cons, if_neg hx, foldl_distinct_of_nodup items _ (by simpa using h)]
      simp

theorem mem_distinctTexts {text : String} {texts : List String} :
    text ∈ distinctTexts texts ↔ text ∈ texts := by
  rw [distinctTexts, mem_foldl_distinct]
  simp

theorem nodup_distinctTexts (texts : List String) : (distinctTexts texts).Nodup :=
  nodup_foldl_distinct texts [] List.nodup_nil

/-- Distinct texts stay as they are. -/
theorem distinctTexts_of_nodup {texts : List String} (h : texts.Nodup) :
    distinctTexts texts = texts :=
  foldl_distinct_of_nodup texts [] h

theorem mem_distinctPaths (paths : List AbsPath) (q : AbsPath) :
    q ∈ distinctPaths env paths ↔ q ∈ paths.map env.fs.realpath := by
  rw [distinctPaths, mem_foldl_distinct]
  simp

/-- Each place is hashed once. -/
theorem distinctPaths_nodup (paths : List AbsPath) : (distinctPaths env paths).Nodup :=
  nodup_foldl_distinct _ [] List.nodup_nil

theorem realpath_of_mem_distinctPaths {paths : List AbsPath} {q : AbsPath}
    (h : q ∈ distinctPaths env paths) : env.fs.realpath q = q := by
  obtain ⟨r, _, rfl⟩ := List.mem_map.mp ((mem_distinctPaths env paths q).mp h)
  exact env.fs.realpath_idem r

/-- A write to a file that is not hashed changes no digest. -/
theorem filesDigestInput_write_of_not_mem {paths : List AbsPath}
    (h : p ∉ distinctPaths env paths) :
    filesDigestInput (env.write p content) paths = filesDigestInput env paths := by
  show (distinctPaths env paths).flatMap _ = _
  rw [filesDigestInput]
  refine List.flatMap_congr fun q hq => digestEntry_write_ne env content ?_
  rw [realpath_of_mem_distinctPaths env hq]
  rintro rfl
  exact h hq

/-- The bytes of a hashed file can be read off the digest input. -/
theorem filesDigestInput_write_of_mem {paths : List AbsPath} {old : List UInt8}
    (hfile : env.fs.readBytes p = some old) (hmem : p ∈ distinctPaths env paths)
    (h : filesDigestInput (env.write p content) paths = filesDigestInput env paths) :
    content = old := by
  have hreal := realpath_of_mem_distinctPaths env hmem
  have hnodup := distinctPaths_nodup env paths
  have hlist : distinctPaths (env.write p content) paths = distinctPaths env paths := rfl
  rw [filesDigestInput, filesDigestInput, hlist] at h
  obtain ⟨pre, post, hsplit⟩ := List.append_of_mem hmem
  have hother : ∀ q ∈ pre ++ post, digestEntry (env.write p content) q = digestEntry env q := by
    intro q hq
    have hq' : q ∈ distinctPaths env paths := by
      rw [hsplit]
      rcases List.mem_append.mp hq with h | h <;> simp [h]
    refine digestEntry_write_ne env content ?_
    rw [realpath_of_mem_distinctPaths env hq']
    rintro rfl
    rw [hsplit, List.nodup_middle, List.nodup_cons] at hnodup
    exact hnodup.1 hq
  rw [hsplit, List.flatMap_append, List.flatMap_append, List.flatMap_cons, List.flatMap_cons,
    List.flatMap_congr fun q hq => hother q (List.mem_append_left _ hq),
    List.flatMap_congr fun q hq => hother q (List.mem_append_right _ hq)] at h
  have hentry := List.append_cancel_right (List.append_cancel_left h)
  have hread : (env.write p content).fs.readBytes p = some content := by
    rw [show (env.write p content).fs = env.fs.write p content from rfl,
      FileSystem.readBytes_write_eq env.fs content hreal, hfile]
    rfl
  rw [digestEntry, digestEntry, hread, hfile, Option.getD_some, Option.getD_some] at hentry
  exact List.append_cancel_left (List.append_cancel_right hentry)

/-! ## 4. The workspace fingerprint -/

/-- A write to a file that is not opened changes no list of files. -/
theorem fieldFiles_write {field : String} {path : AbsPath}
    (h : isFilelistField field = true → ¬Reaches (fingerprintItems env) (env.fs.realpath path) p) :
    fieldFiles (env.write p content) field path = fieldFiles env field path := by
  rw [fieldFiles, fieldFiles]
  split
  · rename_i hfield
    exact filelistTreeFiles_write env content (h hfield)
  · rfl

theorem not_reaches_of_not_opened (h : ¬OpenedAsFilelist env workspace p) {field : String}
    (hfield : field ∈ fingerprintPathFields workspace) {path : AbsPath}
    (hpath : fieldPath? env workspace field = some path) (hlist : isFilelistField field = true) :
    ¬Reaches (fingerprintItems env) (env.fs.realpath path) p :=
  fun hreach => h ⟨field, hfield, hlist, path, hpath, hreach⟩

/-- A field's digest changes with the files it covers and with no other. -/
theorem inputContentSha256_write_eq_iff_of_not_reaches (hinj : env.CollisionFree)
    {old : List UInt8} (hfile : env.fs.readBytes p = some old) (hne : content ≠ old)
    {field : String} {path : AbsPath} (hpath : fieldPath? env workspace field = some path)
    (hopened : isFilelistField field = true →
      ¬Reaches (fingerprintItems env) (env.fs.realpath path) p) :
    inputContentSha256 (env.write p content) workspace field =
        inputContentSha256 env workspace field ↔
      p ∉ fieldHashedFiles env workspace field := by
  have hfiles := fieldFiles_write env content hopened
  rw [inputContentSha256, inputContentSha256, fieldPath_write, fieldHashedFiles, hpath]
  dsimp only
  rw [hfiles, filesSha256, filesSha256, Env.write_sha256, hinj.eq_iff]
  constructor
  · exact fun h hmem => hne (filesDigestInput_write_of_mem env content hfile hmem h)
  · exact filesDigestInput_write_of_not_mem env content

/-- A digest stays the same exactly when the written file is not hashed. -/
theorem inputContentSha256_write_eq_iff (hinj : env.CollisionFree) {old : List UInt8}
    (hfile : env.fs.readBytes p = some old) (hne : content ≠ old)
    (hopened : ¬OpenedAsFilelist env workspace p) {field : String}
    (hfield : field ∈ fingerprintPathFields workspace) :
    inputContentSha256 (env.write p content) workspace field =
        inputContentSha256 env workspace field ↔
      p ∉ fieldHashedFiles env workspace field := by
  cases hpath : fieldPath? env workspace field with
  | none =>
    rw [inputContentSha256, inputContentSha256, fieldPath_write, fieldHashedFiles, hpath]
    simp
  | some path =>
    exact inputContentSha256_write_eq_iff_of_not_reaches env workspace content hinj hfile hne hpath
      (not_reaches_of_not_opened env workspace hopened hfield hpath)

theorem keys_workspaceInputFingerprint :
    Dict.keys (workspaceInputFingerprint env workspace) =
      (fingerprintPathFields workspace).flatMap (fun field => [field, field ++ "_content_sha256"]) ++
        fingerprintTextFields := by
  rw [workspaceInputFingerprint, Dict.keys, List.map_append, List.map_flatMap, List.map_map]
  have htext : (fun kv : String × Json => kv.1) ∘ textFieldItem workspace = id := rfl
  have hpath : (fun field => (pathFieldItems env workspace field).map fun kv => kv.1) =
      fun field => [field, field ++ "_content_sha256"] := rfl
  rw [htext, hpath, List.map_id]

/-- Each field is in the fingerprint once. -/
theorem keys_workspaceInputFingerprint_nodup :
    (Dict.keys (workspaceInputFingerprint env workspace)).Nodup := by
  rw [keys_workspaceInputFingerprint, fingerprintPathFields]
  split <;> decide

theorem get_content_sha256 {field : String} (hfield : field ∈ fingerprintPathFields workspace) :
    Dict.get (workspaceInputFingerprint env workspace) (field ++ "_content_sha256") =
      some (.str (inputContentSha256 env workspace field)) := by
  refine Dict.get_of_mem (keys_workspaceInputFingerprint_nodup env workspace) ?_
  rw [workspaceInputFingerprint]
  exact List.mem_append_left _ (List.mem_flatMap.mpr ⟨field, hfield, by simp [pathFieldItems]⟩)

/-- A write to a file that is not hashed keeps the fingerprint. -/
theorem workspaceInputFingerprint_write_of_not_mem (hinj : env.CollisionFree) {old : List UInt8}
    (hfile : env.fs.readBytes p = some old) (hne : content ≠ old)
    (hopened : ¬OpenedAsFilelist env workspace p) (h : p ∉ hashedFiles env workspace) :
    workspaceInputFingerprint (env.write p content) workspace =
      workspaceInputFingerprint env workspace := by
  have hitems : ∀ field ∈ fingerprintPathFields workspace,
      pathFieldItems (env.write p content) workspace field = pathFieldItems env workspace field := by
    intro field hmem
    have hsame := (inputContentSha256_write_eq_iff env workspace content hinj hfile hne hopened
      hmem).mpr fun hp => h (List.mem_flatMap.mpr ⟨field, hmem, hp⟩)
    rw [pathFieldItems, pathFieldItems, hsame, normalizedPathText_write]
  rw [workspaceInputFingerprint, workspaceInputFingerprint, List.flatMap_congr hitems]

/-- A write that keeps the fingerprint is to a file that is not hashed. -/
theorem not_mem_of_workspaceInputFingerprint_write (hinj : env.CollisionFree) {old : List UInt8}
    (hfile : env.fs.readBytes p = some old) (hne : content ≠ old)
    (hopened : ¬OpenedAsFilelist env workspace p)
    (h : sortKeys (.obj (workspaceInputFingerprint (env.write p content) workspace)) =
      sortKeys (.obj (workspaceInputFingerprint env workspace))) :
    p ∉ hashedFiles env workspace := by
  rw [hashedFiles, List.mem_flatMap]
  rintro ⟨field, hmem, hp⟩
  have hget := get_of_sortKeys_eq (keys_workspaceInputFingerprint_nodup _ _)
    (keys_workspaceInputFingerprint_nodup _ _) h (field ++ "_content_sha256")
  rw [get_content_sha256 _ _ hmem, get_content_sha256 _ _ hmem] at hget
  simp only [Option.map_some, sortKeys, Option.some.injEq, Json.str.injEq] at hget
  exact (inputContentSha256_write_eq_iff env workspace content hinj hfile hne hopened hmem).mp
    hget hp

/-- The fingerprint changes with the hashed files and with no other. -/
theorem workspaceInputFingerprint_write_eq_iff (hinj : env.CollisionFree) {old : List UInt8}
    (hfile : env.fs.readBytes p = some old) (hne : content ≠ old)
    (hopened : ¬OpenedAsFilelist env workspace p) :
    sortKeys (.obj (workspaceInputFingerprint (env.write p content) workspace)) =
        sortKeys (.obj (workspaceInputFingerprint env workspace)) ↔
      p ∉ hashedFiles env workspace := by
  constructor
  · exact not_mem_of_workspaceInputFingerprint_write env workspace content hinj hfile hne hopened
  · intro h
    rw [workspaceInputFingerprint_write_of_not_mem env workspace content hinj hfile hne hopened h]

end

end EccFe.Tools.RtlInputs
