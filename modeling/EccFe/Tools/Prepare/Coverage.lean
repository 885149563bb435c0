/-
EccFe.Tools.Prepare.Coverage — the prepare step's reader against the fingerprint's.

A line is plain when the outer blanks of the line and of a nested name are no part of a word, the
path exists as it is written and starts in no home directory, and a source is more than its
suffix and not spelled like an option. On plain lines the two readers take the same
(`readAlike_of_plain`), so in a tree of plain lines the fingerprint hashes all that the prepare
step opened and returned. A returned source that is opened as a filelist too can change the list
of hashed files; when no hashed file holds a NUL, the digest tells the two lists apart.
-/
import EccFe.Tools.ContentDigest
import EccFe.Tools.Prepare.Filelist

namespace EccFe.Tools.Prepare

open Python Search Resources RtlInputs

/-! ## 1. One line -/

/-- The line names a nested list. -/
def NamesList (raw : List Char) (option value : List Char) : Prop :=
  (∃ rest, ReadAs raw (option :: value :: rest)) ∧ isNestedOption option = true ∧
    strip (String.ofList value) ≠ ""

def NamesSource (raw : List Char) (first : List Char) : Prop :=
  (∃ rest, ReadAs raw (first :: rest)) ∧ isNestedOption first = false ∧
    startsWith (stripBy isSpace raw) "+" = false ∧ startsWith (stripBy isSpace raw) "-" = false ∧
    isSourceToken (stripQuotes (String.ofList first)) = true

/-- `Path(text)` does not start in a home directory. -/
def HomeFree (text : String) : Prop :=
  (PurePath.ofText text).absolute = true ∨
    ∀ first ∈ (PurePath.ofText text).parts.head?, first.toList.head? ≠ some '~'

/-- The text names what exists at its own place. -/
structure InPlace (env : Env) (base : AbsPath) (text : String) : Prop where
  homeFree : HomeFree text
  present : env.fs.exists? (base.join (.ofText text)) = true

/-- The line as it stands has these first words too. -/
def StartsWithWords (raw : List Char) (words : List (List Char)) : Prop :=
  ∃ rest, shlexSplit raw = some (words ++ rest)

/-- The names of the line are spelled plainly. -/
structure PlainLine (env : Env) (base : AbsPath) (raw : List Char) : Prop where
  nested : ∀ option value, NamesList raw option value →
    StartsWithWords raw [option, value] ∧
      strip (String.ofList value) = String.ofList value ∧
      InPlace env base (stripQuotes (String.ofList value))
  source : ∀ first, NamesSource raw first →
    StartsWithWords raw [first] ∧ attachedFilelist? (String.ofList first) = none ∧
      lower (PurePath.ofText (stripQuotes (String.ofList first))).suffix ∈ hashedSuffixes ∧
      InPlace env base (stripQuotes (String.ofList first))

/-- What the prepare step takes from the line, the fingerprint reader takes too. -/
structure ReadAlike (env : Env) (path : AbsPath) (raw : List Char) : Prop where
  nested : ∀ p, .child p ∈ svLine env path raw → .child p ∈ fingerprintLine env path.parent raw
  source : ∀ p, .emit (.rtl p) ∈ svLine env path raw →
    .emit p ∈ fingerprintLine env path.parent raw

theorem stripQuotes_idem (s : String) : stripQuotes (stripQuotes s) = stripQuotes s := by
  rw [stripQuotes, stripQuotes, String.toList_ofList, stripBy_idem]

/-- A name outside home directories stays as it is. -/
theorem expanduser_of_homeFree (host : Host) {text : String} (h : HomeFree text) :
    host.expanduser (.ofText text) = .ofText text := by
  rw [HomeFree] at h
  generalize PurePath.ofText text = p at h ⊢
  obtain ⟨absolute, parts⟩ := p
  cases absolute with
  | true => rfl
  | false =>
    cases parts with
    | nil => rfl
    | cons first rest =>
      have hfirst := h.resolve_left (by simp) first rfl
      simp only [Host.expanduser]
      split
      · rename_i user huser
        rw [huser] at hfirst
        exact absurd rfl hfirst
      · rfl

/-- What exists at its own place is found there by both readers. -/
theorem resolveFilelistPath_of_inPlace {env : Env} {base : AbsPath} {text : String}
    (h : InPlace env base (stripQuotes text)) :
    resolveFilelistPath env base text = resolveEntry env base (stripQuotes text) := by
  rw [resolveFilelistPath, expanduser_of_homeFree env.host h.homeFree, resolveEntry,
    resolveThirdpartyPath_of_exists h.present]

theorem isFilelistOption_ofList (option : List Char) :
    isFilelistOption (String.ofList option) = isNestedOption option := by
  have h : ∀ s : String, (String.ofList option == s) = (option == s.toList) := by
    intro s
    rw [Bool.eq_iff_iff, beq_iff_eq, beq_iff_eq]
    constructor
    · rintro rfl
      rw [String.toList_ofList]
    · rintro rfl
      rw [String.ofList_toList]
  rw [isFilelistOption, isNestedOption, h, h]

/-- Words at the start of a line are its first tokens. -/
theorem filelistTokens_of_startsWithWords {raw : List Char} {words : List (List Char)}
    (h : StartsWithWords raw words) :
    ∃ rest, filelistTokens raw = words.map String.ofList ++ rest := by
  obtain ⟨rest, hrest⟩ := h
  exact ⟨rest.map String.ofList, by rw [filelistTokens, hrest, Option.getD_some, List.map_append]⟩

/-- A plain line is read alike by both readers. -/
theorem readAlike_of_plain {env : Env} {path : AbsPath} {raw : List Char}
    (h : PlainLine env path.parent raw) : ReadAlike env path raw where
  nested p hp := by
    obtain ⟨option, value, rest, hread, hoption, href, rfl⟩ := child_svLine_iff.mp hp
    obtain ⟨hwords, hstrip, hplace⟩ := h.nested option value ⟨⟨rest, hread⟩, hoption, href⟩
    obtain ⟨more, htokens⟩ := filelistTokens_of_startsWithWords hwords
    rw [fingerprintLine, htokens, hstrip, ← resolveFilelistPath_of_inPlace hplace]
    simp only [List.map_cons, List.cons_append, isFilelistOption_ofList, hoption]
    exact List.mem_singleton_self _
  source p hp := by
    obtain ⟨first, rest, hread, hoption, hadd, hminus, htoken, -, rfl⟩ := rtl_svLine_iff.mp hp
    obtain ⟨hwords, hattached, hsuffix, hplace⟩ :=
      h.source first ⟨⟨rest, hread⟩, hoption, hadd, hminus, htoken⟩
    obtain ⟨more, htokens⟩ := filelistTokens_of_startsWithWords hwords
    have hresolve : resolveFilelistPath env path.parent (stripQuotes (String.ofList first)) =
        resolveEntry env path.parent (stripQuotes (String.ofList first)) := by
      rw [resolveFilelistPath_of_inPlace ((stripQuotes_idem _).symm ▸ hplace), stripQuotes_idem]
    rw [fingerprintLine, htokens]
    simp only [List.map_cons, List.cons_append, isFilelistOption_ofList, hoption, hattached]
    rw [if_pos hsuffix, hresolve]
    exact List.mem_singleton_self _

/-! ## 2. The whole tree -/

def filelistLines (env : Env) (path : AbsPath) : List (List Char) :=
  textLines (decodeIgnore ((env.fs.readBytes path).getD []))

/-- Every line of a filelist the prepare step finds below `root` is plain. -/
def TreePlain (env : Env) (root : AbsPath) : Prop :=
  ∀ x, Reaches (svItems env) (env.fs.realpath root) x → ∀ raw ∈ filelistLines env x,
    PlainLine env x.parent raw

section

variable {env : Env} {root : AbsPath}

theorem mem_filelistLines {x : AbsPath} {bytes : List UInt8} {text : List Char}
    (hread : env.fs.readBytes x = some bytes) (htext : decode bytes = some text) :
    filelistLines env x = textLines text := by
  rw [filelistLines, hread, Option.getD_some, decodeIgnore_of_decode htext]

theorem mem_fingerprintItems {x : AbsPath} {raw : List Char} {bytes : List UInt8}
    (hread : env.fs.readBytes x = some bytes) (hraw : raw ∈ filelistLines env x)
    {item : Item AbsPath AbsPath Empty} (hitem : item ∈ fingerprintLine env x.parent raw) :
    item ∈ fingerprintItems env x := by
  rw [filelistLines, hread, Option.getD_some] at hraw
  rw [fingerprintItems, hread]
  exact List.mem_cons_of_mem _ (List.mem_flatMap.mpr ⟨raw, hraw, hitem⟩)

/-- The fingerprint reader opens every filelist the prepare step opens. -/
theorem reaches_fingerprint (h : TreePlain env root) {x : AbsPath}
    (hx : Reaches (svItems env) (env.fs.realpath root) x) :
    Reaches (fingerprintItems env) (env.fs.realpath root) x := by
  induction hx with
  | refl => exact .refl
  | tail hxy hyz ih =>
    obtain ⟨bytes, text, hread, htext, raw, hraw, hchild⟩ := readBytes_of_includes hyz
    rw [← mem_filelistLines hread htext] at hraw
    exact ih.tail (mem_fingerprintItems hread hraw
      ((readAlike_of_plain (h _ hxy raw hraw)).nested _ hchild))

/-- A source comes from a line of its filelist. -/
theorem rtl_of_mem_svItems {x p : AbsPath} (h : .emit (.rtl p) ∈ svItems env x) :
    ∃ bytes, env.fs.readBytes x = some bytes ∧
      ∃ raw ∈ filelistLines env x, .emit (.rtl p) ∈ svLine env x raw := by
  rw [svItems] at h
  split at h
  · simp at h
  · split at h
    · simp at h
    · rename_i bytes hread
      split at h
      · simp at h
      · rename_i text htext
        obtain ⟨raw, hraw, hmem⟩ := List.mem_flatMap.mp h
        exact ⟨bytes, hread, raw, by rw [mem_filelistLines hread htext]; exact hraw, hmem⟩

variable {entries : List SvEntry} {opened : List AbsPath}

/-- In a plain tree each opened filelist is hashed. -/
theorem opened_mem_filelistTreeFiles (h : TreePlain env root)
    (hok : parseSvFilelist env root = .ok (entries, opened)) :
    ∀ x ∈ opened, x ∈ filelistTreeFiles env root := by
  intro x hx
  rw [mem_filelistTreeFiles_iff]
  have hreach := (mem_opened_iff hok x).mp hx
  exact ⟨x, reaches_fingerprint h hreach, List.mem_cons_self⟩

/-- In a plain tree each source is hashed. -/
theorem rtl_mem_filelistTreeFiles (h : TreePlain env root)
    (hok : parseSvFilelist env root = .ok (entries, opened)) :
    ∀ p ∈ rtlFilesOf entries, p ∈ filelistTreeFiles env root := by
  intro p hp
  obtain ⟨x, hx, hemit⟩ := (mem_output_iff hok _).mp (mem_rtlFilesOf.mp hp)
  obtain ⟨bytes, hread, raw, hraw, hline⟩ := rtl_of_mem_svItems hemit
  rw [mem_filelistTreeFiles_iff]
  exact ⟨x, reaches_fingerprint h hx,
    mem_fingerprintItems hread hraw ((readAlike_of_plain (h x hx raw hraw)).source p hline)⟩

/-- The files of the tree are hashed for the field. -/
theorem mem_fieldHashedFiles_of_tree {workspace : Workspace} {field : String} {p : AbsPath}
    (hlist : isFilelistField field = true) (hpath : fieldPath? env workspace field = some root)
    (hreal : env.fs.realpath p = p) (h : p ∈ filelistTreeFiles env root) :
    p ∈ fieldHashedFiles env workspace field := by
  rw [fieldHashedFiles, hpath]
  show p ∈ distinctPaths env (fieldFiles env field root)
  rw [fieldFiles, if_pos hlist, mem_distinctPaths]
  exact List.mem_map.mpr ⟨p, h, hreal⟩

/-- The hashed files of the field are paths the system hands out, and hold no NUL. -/
def HashedText (env : Env) (workspace : Workspace) (field : String) : Prop :=
  ∀ q ∈ fieldHashedFiles env workspace field,
    ContentDigest.IsCanonical q ∧ ∀ bytes, env.fs.readBytes q = some bytes → 0 ∉ bytes

/-- The hashed files hold no NUL. -/
theorem zero_not_mem_hashed {workspace : Workspace} {field : String}
    (h : HashedText env workspace field) :
    ∀ record ∈ (fieldHashedFiles env workspace field).map
        (ContentDigest.fields ∘ ContentDigest.readEntry env.host), 0 ∉ record.1 ∧ 0 ∉ record.2 := by
  intro record hrecord
  obtain ⟨q, hq, rfl⟩ := List.mem_map.mp hrecord
  obtain ⟨hcanonical, hbytes⟩ := h q hq
  refine ⟨ContentDigest.zero_not_mem_pathBytes hcanonical, ?_⟩
  show 0 ∉ (env.fs.readBytes q).getD ContentDigest.missing
  cases hread : env.fs.readBytes q with
  | none => decide
  | some bytes => exact hbytes bytes hread

/-- What is hashed is the frames of the files. -/
theorem filesDigestInput_eq_frames {workspace : Workspace} {field : String}
    (hpath : fieldPath? env workspace field = some root) :
    filesDigestInput env (fieldFiles env field root) =
      frames 0 ((fieldHashedFiles env workspace field).map
        (ContentDigest.fields ∘ ContentDigest.readEntry env.host)) := by
  rw [filesDigestInput, ContentDigest.flatMap_digestEntry, ContentDigest.digestInput, List.map_map,
    fieldHashedFiles, hpath]

/-- A rewritten file of texts shows in the digest, whatever the list of files becomes. -/
theorem inputContentSha256_write_ne (hinj : env.CollisionFree) {workspace : Workspace}
    {field : String} (hpath : fieldPath? env workspace field = some root) {p : AbsPath}
    {old content : List UInt8} (hfile : env.fs.readBytes p = some old) (hne : content ≠ old)
    (hmem : p ∈ fieldHashedFiles env workspace field) (htext : HashedText env workspace field)
    (htext' : HashedText (env.write p content) workspace field) :
    inputContentSha256 (env.write p content) workspace field ≠
      inputContentSha256 env workspace field := by
  intro heq
  have hpath' : fieldPath? (env.write p content) workspace field = some root := by
    rw [fieldPath_write, hpath]
  rw [inputContentSha256, inputContentSha256, hpath, hpath'] at heq
  have hinput := hinj heq
  rw [filesDigestInput_eq_frames hpath, filesDigestInput_eq_frames hpath'] at hinput
  have hrecords := frames_inj (zero_not_mem_hashed htext') (zero_not_mem_hashed htext) hinput
  -- The record of `p` stands in the list of the rewritten machine too.
  have hrecord := List.mem_map_of_mem
    (f := ContentDigest.fields ∘ ContentDigest.readEntry env.host) hmem
  rw [← hrecords] at hrecord
  obtain ⟨q, hq, hfields⟩ := List.mem_map.mp hrecord
  obtain ⟨hname, hcontent⟩ := Prod.mk.inj hfields
  obtain rfl := ContentDigest.pathBytes_inj (htext' q hq).1 (htext p hmem).1 hname
  have hread : (env.write q content).fs.readBytes q = some content := by
    have hreal : env.fs.realpath q = q := by
      rw [fieldHashedFiles, hpath] at hmem
      exact realpath_of_mem_distinctPaths env hmem
    rw [show (env.write q content).fs = env.fs.write q content from rfl,
      FileSystem.readBytes_write_eq env.fs content hreal, hfile]
    rfl
  change ((env.write q content).fs.readBytes q).getD _ = (env.fs.readBytes q).getD _ at hcontent
  rw [hread, hfile] at hcontent
  exact hne hcontent

/-- In a tree of plain lines what the prepare step opens and returns is hashed, so rewriting a
returned source changes the workspace fingerprint; a source that is opened as a filelist too must
lie among texts before and after. -/
theorem prepared_hashed (hinj : env.CollisionFree) {workspace : Workspace} {field : String}
    (hfield : field ∈ fingerprintPathFields workspace) (hlist : isFilelistField field = true)
    (hpath : fieldPath? env workspace field = some root)
    (hok : parseSvFilelist env root = .ok (entries, opened)) (hplain : TreePlain env root) :
    (∀ x ∈ opened, x ∈ filelistTreeFiles env root) ∧
      ∀ p ∈ rtlFilesOf entries, p ∈ filelistTreeFiles env root ∧
        ∀ old content, env.fs.readBytes p = some old → content ≠ old →
          (Reaches (fingerprintItems env) (env.fs.realpath root) p →
            HashedText env workspace field ∧
              HashedText (env.write p content) workspace field) →
          workspaceInputFingerprint (env.write p content) workspace ≠
            workspaceInputFingerprint env workspace := by
  refine ⟨opened_mem_filelistTreeFiles hplain hok, fun p hp => ?_⟩
  have hmem := rtl_mem_filelistTreeFiles hplain hok p hp
  refine ⟨hmem, fun old content hfile hne htext heq => ?_⟩
  obtain ⟨x, -, hemit⟩ := (mem_output_iff hok _).mp (mem_rtlFilesOf.mp hp)
  obtain ⟨-, -, raw, -, hline⟩ := rtl_of_mem_svItems hemit
  have hhashed := mem_fieldHashedFiles_of_tree hlist hpath (realpath_rtl hline) hmem
  have hdigest : inputContentSha256 (env.write p content) workspace field =
      inputContentSha256 env workspace field := by
    have hget := get_content_sha256 (env.write p content) workspace hfield
    rw [heq, get_content_sha256 env workspace hfield] at hget
    exact (Json.str.inj (Option.some.inj hget)).symm
  by_cases hopened : Reaches (fingerprintItems env) (env.fs.realpath root) p
  · obtain ⟨hbefore, hafter⟩ := htext hopened
    exact inputContentSha256_write_ne hinj hpath hfile hne hhashed hbefore hafter hdigest
  · exact (inputContentSha256_write_eq_iff_of_not_reaches env workspace content hinj hfile hne hpath
      (fun _ => hopened)).mp hdigest hhashed

end

/-! ## 3. A plain tree, and a relocated source -/

/-- The source is also read as a filelist. -/
def plainEnv : Env :=
  .ofNodes [(["p", "cpu.f"], .file (asciiBytes "-f a.v\na.v\n") 0),
    (["p", "a.v"], .file (asciiBytes "// a\n") 0)]

def cpuFilelistWorkspace : Workspace := [("cpu_filelist", .str "/p/cpu.f")]

theorem plainLine_nested : PlainLine plainEnv ["p"] "-f a.v".toList where
  nested option value h := by
    obtain ⟨⟨rest, hread⟩, -, -⟩ := h
    have hsplit : shlexSplit (stripBy isSpace "-f a.v".toList) =
        some ["-f".toList, "a.v".toList] := by decide
    rw [hread.split] at hsplit
    simp only [Option.some.injEq, List.cons.injEq] at hsplit
    obtain ⟨rfl, rfl, -⟩ := hsplit
    exact ⟨⟨[], by decide⟩, by decide, .inr (by decide), by decide⟩
  source first h := absurd h.2.2.2.1 (by decide)

theorem plainLine_source : PlainLine plainEnv ["p"] "a.v".toList where
  nested option value h := by
    obtain ⟨⟨rest, hread⟩, -, -⟩ := h
    have hsplit : shlexSplit (stripBy isSpace "a.v".toList) = some ["a.v".toList] := by decide
    rw [hread.split] at hsplit
    simp at hsplit
  source first h := by
    obtain ⟨⟨rest, hread⟩, -⟩ := h
    have hsplit : shlexSplit (stripBy isSpace "a.v".toList) = some ["a.v".toList] := by decide
    rw [hread.split] at hsplit
    simp only [Option.some.injEq, List.cons.injEq] at hsplit
    obtain ⟨rfl, -⟩ := hsplit
    exact ⟨⟨[], by decide⟩, by decide, by decide, .inr (by decide), by decide⟩

theorem plainLine_comment : PlainLine plainEnv ["p"] "// a".toList where
  nested option value h := by
    obtain ⟨⟨rest, hread⟩, -, -⟩ := h
    exact absurd hread.notIgnored (by decide)
  source first h := by
    obtain ⟨⟨rest, hread⟩, -⟩ := h
    exact absurd hread.notIgnored (by decide)

theorem plainEnv_reads : parseSvFilelist plainEnv ["p", "cpu.f"] =
    .ok ([.rtl ["p", "a.v"]], [["p", "a.v"], ["p", "cpu.f"]]) := rfl

theorem plainEnv_plain : TreePlain plainEnv ["p", "cpu.f"] := by
  intro x hx raw hraw
  have hopened := (mem_opened_iff plainEnv_reads x).mpr hx
  have hlist : filelistLines plainEnv ["p", "cpu.f"] = ["-f a.v".toList, "a.v".toList] := by decide
  have hsource : filelistLines plainEnv ["p", "a.v"] = ["// a".toList] := by decide
  simp only [List.mem_cons, List.not_mem_nil, or_false] at hopened
  rcases hopened with rfl | rfl
  · rw [hsource, List.mem_singleton] at hraw
    exact hraw ▸ plainLine_comment
  · rw [hlist, List.mem_cons, List.mem_singleton] at hraw
    rcases hraw with rfl | rfl
    · exact plainLine_nested
    · exact plainLine_source

theorem prepared_hashed_plain :
    workspaceInputFingerprint (plainEnv.write ["p", "a.v"] (asciiBytes "// b\n"))
        cpuFilelistWorkspace ≠
      workspaceInputFingerprint plainEnv cpuFilelistWorkspace := by
  have hhashed : ∀ env : Env, fieldHashedFiles env cpuFilelistWorkspace "cpu_filelist" =
      [["p", "cpu.f"], ["p", "a.v"]] →
      (∀ q ∈ [["p", "cpu.f"], ["p", "a.v"]], ∀ bytes ∈ env.fs.readBytes q, 0 ∉ bytes) →
        HashedText env cpuFilelistWorkspace "cpu_filelist" := by
    intro env hfiles hbytes q hq
    rw [hfiles] at hq
    refine ⟨?_, hbytes q hq⟩
    have hcanonical : ∀ q ∈ [["p", "cpu.f"], ["p", "a.v"]], ContentDigest.IsCanonical q := by decide
    exact hcanonical q hq
  exact (prepared_hashed (Env.ofNodes_collisionFree _)
    (show "cpu_filelist" ∈ fingerprintPathFields cpuFilelistWorkspace by decide) (by decide)
    (by decide) plainEnv_reads plainEnv_plain).2 ["p", "a.v"] (by decide) |>.2 (asciiBytes "// a\n")
      (asciiBytes "// b\n") (by decide) (by decide)
      fun _ => ⟨hhashed plainEnv (by decide) (by decide), hhashed _ (by decide) (by decide)⟩

/-- A source that moved into a third-party root. -/
def movedEnv : Env :=
  { Env.ofNodes [(["p", "cpu.f"], .file (asciiBytes "/old/thirdparty/ip/a.v\n") 0),
      (["res"], .directory), (["res", "thirdparty", "ip", "a.v"], .file [] 0)] with
    resourceRootsVar := ["/res"] }

/-- The relocated source is prepared and not hashed: rewriting it changes no fingerprint. -/
theorem movedEnv_not_hashed :
    parseSvFilelist movedEnv ["p", "cpu.f"] =
        .ok ([.rtl ["res", "thirdparty", "ip", "a.v"]], [["p", "cpu.f"]]) ∧
      ["res", "thirdparty", "ip", "a.v"] ∉ filelistTreeFiles movedEnv ["p", "cpu.f"] ∧
      workspaceInputFingerprint (movedEnv.write ["res", "thirdparty", "ip", "a.v"] [0])
          cpuFilelistWorkspace =
        workspaceInputFingerprint movedEnv cpuFilelistWorkspace := by
  refine ⟨rfl, by decide, ?_⟩
  have hopened : ¬OpenedAsFilelist movedEnv cpuFilelistWorkspace
      ["res", "thirdparty", "ip", "a.v"] := by
    rintro ⟨field, hfield, hlist, path, hpath, hreach⟩
    have hroot : ∀ field ∈ fingerprintPathFields cpuFilelistWorkspace,
        fieldPath? movedEnv cpuFilelistWorkspace field = none ∨
          fieldPath? movedEnv cpuFilelistWorkspace field = some ["p", "cpu.f"] := by decide
    obtain rfl : path = ["p", "cpu.f"] := by
      rcases hroot field hfield with hnone | hsome
      · rw [hnone] at hpath
        cases hpath
      · rw [hsome] at hpath
        exact (Option.some.inj hpath).symm
    have hrun : expandFrom (fingerprintItems movedEnv) movedEnv.fs.files
        (movedEnv.fs.realpath ["p", "cpu.f"]) =
          .ok ([["p", "cpu.f"], ["old", "thirdparty", "ip", "a.v"]], [["p", "cpu.f"]]) := rfl
    have hmem := (mem_opened_iff hrun _).mpr hreach
    revert hmem
    decide
  exact workspaceInputFingerprint_write_of_not_mem movedEnv cpuFilelistWorkspace [0]
    (Env.ofNodes_collisionFree []) (show movedEnv.fs.readBytes _ = some [] by decide) (by decide)
    hopened (by decide)

end EccFe.Tools.Prepare
