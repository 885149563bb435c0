/-
EccFe.Tools.Prepare.Rerun — a second prepare step on what the first one left.

The second run starts from the workspace that the first run persisted, on a machine
where the sources of the first run are unchanged and its merged filelist is in place.
-/
import EccFe.Tools.Prepare.Runner

namespace EccFe

open Python

/-- The same machine with other files. -/
def Env.withFs (env : Env) (fs : FileSystem) : Env := { env with host := { env.host with fs := fs } }

namespace Tools.Prepare

open Search RtlInputs RtlOwnership Engine SvModule

/-! ## 1. What the step reads of a workspace -/

/-- The fields of the workspace that the step reads and never writes. -/
def readFields : List String :=
  ["cpu_filelist", "soc_filelist", "origin_verilog", "frontend_design_kind", "directory",
    "top_module", "required_cpu_top_module", "required_cpu_top_port_contract", "soc_wrapper_id",
    "soc_harness_id", "soc_wrapper_top", "cpu_socket_contract", "frontend_core_id",
    "cpu_wrapper_id"]

def SameFields (w w' : Workspace) : Prop := ∀ field ∈ readFields, w'.get field = w.get field

section

variable {env : Env} {fs : FileSystem} {homeless : String → Bool} {w w' : Workspace}

theorem SameFields.getD (h : SameFields w w') {field : String} (hfield : field ∈ readFields)
    (default : Json) : w'.getD field default = w.getD field default := by
  rw [Dict.getD, Dict.getD, h field hfield]

theorem SameFields.textAt (h : SameFields w w') {field : String} (hfield : field ∈ readFields) :
    w'.textAt field = w.textAt field := by
  rw [Dict.textAt, Dict.textAt, h.getD hfield]

theorem SameFields.fieldText (h : SameFields w w') {field : String} (hfield : field ∈ readFields) :
    fieldText w' field = fieldText w field := by
  rw [Prepare.fieldText, Prepare.fieldText, h.textAt hfield]

/-- The design kind is among the fields that are read. -/
theorem SameFields.designKind (h : SameFields w w') : designKind w' = designKind w := by
  delta RtlOwnership.designKind
  rw [h.getD (by decide)]

theorem withFs_resolveText (hreal : fs.realpath = env.fs.realpath) (text : String) :
    (env.withFs fs).host.resolveText text = env.host.resolveText text := by
  show fs.realpath _ = env.fs.realpath _
  rw [hreal]
  rfl

/-- Where a path leads depends on the links of the file system only. -/
theorem withFs_resolvePath (hreal : fs.realpath = env.fs.realpath) (text : String) :
    resolvePath (env.withFs fs) homeless text = resolvePath env homeless text := by
  rw [resolvePath, resolvePath, withFs_resolveText hreal]

theorem withFs_classifyByFields (hreal : fs.realpath = env.fs.realpath) (h : SameFields w w')
    (path : AbsPath) (kind : DesignKind) :
    classifyByFields (env.withFs fs) homeless path w' kind =
      classifyByFields env homeless path w kind := by
  have hunder : ∀ field ∈ readFields, underWorkspaceRoot (env.withFs fs) homeless path w' field =
      underWorkspaceRoot env homeless path w field := by
    intro field hfield
    rw [underWorkspaceRoot, underWorkspaceRoot, h.textAt hfield, withFs_resolvePath hreal]
  have hgenerated : isGeneratedPath (env.withFs fs) homeless path w' =
      isGeneratedPath env homeless path w := by
    rw [isGeneratedPath, isGeneratedPath, h.textAt (by decide), withFs_resolvePath hreal]
  have hfile : isWorkspaceFile (env.withFs fs) homeless path w' "origin_verilog" =
      isWorkspaceFile env homeless path w "origin_verilog" := by
    rw [isWorkspaceFile, isWorkspaceFile, h.textAt (by decide), withFs_resolvePath hreal]
  rw [classifyByFields, classifyByFields, hunder _ (by decide), hgenerated,
    hunder "cpu_filelist" (by decide), hfile]

theorem withFs_classified (hreal : fs.realpath = env.fs.realpath) (h : SameFields w w')
    (label : String) (path : AbsPath) :
    classified (env.withFs fs) homeless w' label path = classified env homeless w label path := by
  have htool : ∀ p, toolOwner? (env.withFs fs) p = toolOwner? env p := by
    intro p
    have hroot : (env.withFs fs).fs.realpath = env.fs.realpath := hreal
    rw [toolOwner?, toolOwner?, hroot]
    rfl
  have hclass : classifyRtlSource (env.withFs fs) homeless (PurePath.absText path) label w' =
      classifyRtlSource env homeless (PurePath.absText path) label w := by
    simp only [classifyRtlSource, withFs_resolvePath hreal, h.designKind, htool,
      withFs_classifyByFields hreal h]
  rw [classified, classified, hclass]

/-- The top check reads the sources alone. -/
theorem withFs_moduleDefinitions {files : List AbsPath}
    (hread : ∀ p ∈ files, fs.readBytes p = env.fs.readBytes p) (moduleName : String) :
    moduleDefinitions (env.withFs fs) files moduleName = moduleDefinitions env files moduleName := by
  unfold moduleDefinitions
  refine List.filter_congr fun p hp => ?_
  have htext : readText? (env.withFs fs) p = readText? env p := by
    show (fs.readBytes p).map _ = (env.fs.readBytes p).map _
    rw [hread p hp]
  rw [definesModule, definesModule, htext]
  rfl

theorem withFs_headerPorts (direction : String) (width : Int) (parts : List (List Char)) :
    headerPorts (env.withFs fs) direction width parts = headerPorts env direction width parts := by
  have hpattern : directionPattern (env.withFs fs) = directionPattern env := rfl
  induction parts generalizing direction width with
  | nil => rfl
  | cons part parts ih => simp only [headerPorts, hpattern, ih]

theorem withFs_modulePortContract (text : List Char) (moduleName : String) :
    modulePortContract (env.withFs fs) text moduleName = modulePortContract env text moduleName := by
  have hafter : ∀ text, afterModule? (env.withFs fs) text moduleName =
      afterModule? env text moduleName := fun _ => rfl
  have hheader : ∀ text, modulePortHeader (env.withFs fs) text moduleName =
      modulePortHeader env text moduleName := by
    intro text
    simp only [modulePortHeader, hafter]
  have hbody : ∀ text, moduleBody (env.withFs fs) text moduleName =
      moduleBody env text moduleName := by
    intro text
    have hedge : wordEdge (env.withFs fs) = wordEdge env := rfl
    simp only [moduleBody, hafter, hedge]
  have hlegacy : ∀ text, legacyPortDeclarations (env.withFs fs) text moduleName =
      legacyPortDeclarations env text moduleName := by
    intro text
    have hpattern : directionPattern (env.withFs fs) = directionPattern env := rfl
    simp only [legacyPortDeclarations, hbody, hpattern]
  simp only [modulePortContract, hheader, withFs_headerPorts, hlegacy]

/-- A port contract depends on the files it is read from. -/
theorem withFs_modulePortContractFromFiles {files : List AbsPath}
    (hread : ∀ p ∈ files, fs.readBytes p = env.fs.readBytes p) (moduleName : String) :
    modulePortContractFromFiles (env.withFs fs) files moduleName =
      modulePortContractFromFiles env files moduleName := by
  unfold modulePortContractFromFiles
  rw [withFs_moduleDefinitions hread]
  cases hfound : moduleDefinitions env files moduleName with
  | nil => rfl
  | cons p rest =>
    have hp : p ∈ files := (List.mem_filter.mp (hfound ▸ List.mem_cons_self)).1
    have htext : readText? (env.withFs fs) p = readText? env p := by
      show (fs.readBytes p).map _ = (env.fs.readBytes p).map _
      rw [hread p hp]
    simp only [htext, withFs_modulePortContract]

/-- The top check is the one of the first run. -/
theorem withFs_validateFrontendTop (h : SameFields w w') {files : List AbsPath}
    (hread : ∀ p ∈ files, fs.readBytes p = env.fs.readBytes p) (kind : DesignKind) :
    validateFrontendTop (env.withFs fs) w' kind files = validateFrontendTop env w kind files := by
  have htop : requiredTop w' = requiredTop w := by
    rw [requiredTop, requiredTop, h.textAt (by decide)]
  have hrequires : requiresFrontendCpuTop w' = requiresFrontendCpuTop w := by
    simp only [requiresFrontendCpuTop, List.any_cons, List.any_nil,
      h.textAt (show "top_module" ∈ readFields by decide),
      h.textAt (show "soc_wrapper_top" ∈ readFields by decide),
      h.textAt (show "cpu_socket_contract" ∈ readFields by decide),
      h.textAt (show "soc_wrapper_id" ∈ readFields by decide),
      h.textAt (show "soc_harness_id" ∈ readFields by decide),
      h.textAt (show "required_cpu_top_module" ∈ readFields by decide)]
  have hexpected : expectedCpuTopContract w' = expectedCpuTopContract w := by
    rw [expectedCpuTopContract, expectedCpuTopContract, h.getD (by decide)]
  cases kind with
  | GENERIC_RTL =>
    simp only [validateFrontendTop, validateGenericDesignTop,
      h.fieldText (show "top_module" ∈ readFields by decide), withFs_moduleDefinitions hread]
  | CPU_CORE =>
    have hports : ∀ (required : String) (expected : List Port),
        checkCpuTopPorts (env.withFs fs) required (moduleDefinitions env files required) expected =
          checkCpuTopPorts env required (moduleDefinitions env files required) expected := by
      intro required expected
      have hmatching : ∀ p ∈ moduleDefinitions env files required,
          fs.readBytes p = env.fs.readBytes p := fun p hp => hread p (List.mem_filter.mp hp).1
      rw [checkCpuTopPorts, checkCpuTopPorts, withFs_modulePortContractFromFiles hmatching]
    simp only [validateFrontendTop, validateFrontendCpuTop, hrequires, htop, hexpected,
      withFs_moduleDefinitions hread, hports]

end

/-! ## 2. The pieces of a run -/

section

variable {env : Env} {homeless : String → Bool} {outputDir : AbsPath} {w : Workspace}

/-- What is collected from the groups. -/
def Collected.of (groups : List InputGroup) (sources : List RtlSource) : Collected where
  rtlFiles := firstSeen ((groups.flatMap (·.rtl)).map (·.1))
  rtlSources := sources
  incdirs := firstSeen (groups.flatMap (·.incdirs))
  defines := firstSeen (groups.flatMap (·.defines))
  opened := groups.flatMap (·.opened)

/-- What a run collects, spelled out. -/
theorem collectInputs_eq_ok {c : Collected} : collectInputs env homeless w = .ok c ↔
    ∃ groups sources, inputGroups env homeless w = .ok groups ∧
      firstSeen ((groups.flatMap (·.rtl)).map (·.1)) ≠ [] ∧
      (firstSeen ((groups.flatMap (·.rtl)).map (·.1))).mapM (rtlSource env homeless w groups) =
        .ok sources ∧
      c = .of groups sources := by
  cases hgroups : inputGroups env homeless w with
  | error e => simp [collectInputs, hgroups, bind, Except.bind]
  | ok groups =>
    by_cases hnil : firstSeen ((groups.flatMap (·.rtl)).map (·.1)) = []
    · simp [collectInputs, hgroups, bind, Except.bind, hnil, throw, throwThe, MonadExceptOf.throw]
    · cases hsources : (firstSeen ((groups.flatMap (·.rtl)).map (·.1))).mapM
          (rtlSource env homeless w groups) with
      | error e =>
        have hrun : collectInputs env homeless w = .error e := by
          simp [collectInputs, hgroups, bind, Except.bind, hnil, hsources]
        simp [hrun, hsources]
      | ok sources =>
        have hrun : collectInputs env homeless w = .ok (.of groups sources) := by
          simp [collectInputs, hgroups, bind, Except.bind, hnil, hsources, pure, Except.pure,
            Collected.of]
        rw [hrun]
        constructor
        · intro h
          cases h
          exact ⟨groups, sources, rfl, hnil, hsources, rfl⟩
        · rintro ⟨groups', sources', hgroups', -, hsources', rfl⟩
          cases hgroups'
          rw [hsources] at hsources'
          cases hsources'
          rfl

/-- The run that comes of what was collected. -/
def PrepareRun.of (env : Env) (outputDir : AbsPath) (w : Workspace) (c : Collected)
    (kind : DesignKind) (top : TopContract) : PrepareRun where
  prepared :=
    { rtlFiles := c.rtlFiles
      rtlSources := c.rtlSources
      ownership := ownershipSummary c.rtlSources
      incdirs := c.incdirs
      defines := manifestDefines w kind c.defines
      sourceFingerprint := workspaceInputFingerprint env w
      topContract := top }
  collectedDefines := c.defines
  opened := c.opened
  mergedLines := Prepare.mergedLines c.rtlFiles
  workspace := persistWorkspaceInputFilelist w kind outputDir

theorem PrepareRun.of_defines {c : Collected} {kind : DesignKind} {top : TopContract} :
    (PrepareRun.of env outputDir w c kind top).prepared.defines = manifestDefines w kind c.defines :=
  rfl

/-- A run is its inputs, its design kind and its top. -/
theorem prepare_eq_ok {run : PrepareRun} : prepare env homeless outputDir w = .ok run ↔
    ∃ c kind top, collectInputs env homeless w = .ok c ∧ designKind w = .ok kind ∧
      validateFrontendTop env w kind c.rtlFiles = .ok top ∧ run = .of env outputDir w c kind top := by
  unfold prepare
  cases hcollect : collectInputs env homeless w with
  | error e => simp [bind, Except.bind]
  | ok c =>
    cases hkind : designKind w with
    | error e => simp [bind, Except.bind, Except.mapError]
    | ok kind =>
      cases htop : validateFrontendTop env w kind c.rtlFiles with
      | error e => simp [bind, Except.bind, Except.mapError, htop]
      | ok top =>
        simp [bind, Except.bind, Except.mapError, htop, pure, Except.pure, PrepareRun.of, eq_comm]

/-- What one filelist adds, spelled out. -/
theorem addFilelist_eq_ok {label text : String} {group : InputGroup} :
    addFilelist env homeless w label text = .ok group ↔
      ∃ root entries opened rtl, resolvePath env homeless text = .ok root ∧
        parseSvFilelist env root = .ok (entries, opened) ∧
        (rtlFilesOf entries).mapM (classified env homeless w label) = .ok rtl ∧
        group = ⟨label, rtl, incdirsOf entries, definesOf entries, opened⟩ := by
  unfold addFilelist
  cases hroot : resolvePath env homeless text with
  | error e => simp [bind, Except.bind, Except.mapError]
  | ok root =>
    cases hparse : parseSvFilelist env root with
    | error e => simp [bind, Except.bind, Except.mapError, hparse]
    | ok answer =>
      obtain ⟨entries, opened⟩ := answer
      cases hrtl : (rtlFilesOf entries).mapM (classified env homeless w label) with
      | error e => simp [bind, Except.bind, Except.mapError, hparse, hrtl]
      | ok rtl =>
        simp [bind, Except.bind, Except.mapError, hparse, hrtl, pure, Except.pure, eq_comm]

end

/-! ## 3. Unchanged sources -/

/-- The merged filelist is there, and the lists and sources of the first run say what they said:
each list it opened has the same lines, with the same files behind them. -/
structure Unchanged (env : Env) (fs : FileSystem) (outputDir : AbsPath) (w : Workspace)
    (first : PrepareRun) : Prop where
  realpath : fs.realpath = env.fs.realpath
  filelists : ∀ x ∈ first.opened, svItems (env.withFs fs) x = svItems env x
  named : designKind w = .ok .GENERIC_RTL → ∀ field ∈ ["input_filelist", "origin_verilog"],
    textExists (env.withFs fs) (fieldText w field) = textExists env (fieldText w field)
  sources : ∀ p ∈ first.prepared.rtlFiles,
    fs.readBytes p = env.fs.readBytes p ∧ fs.exists? p = true
  merged : fs.readBytes (mergedFilelistPath outputDir) = some (encode (joinLines first.mergedLines))

section

variable {env : Env} {fs : FileSystem} {homeless : String → Bool} {w w' : Workspace}

theorem mapM_eq_ok {α β ε : Type} {f : α → Except ε β} {l : List α} {bs : List β} :
    l.mapM f = .ok bs ↔ List.Forall₂ (fun a b => f a = .ok b) l bs := by
  induction l generalizing bs with
  | nil => cases bs <;> simp [pure, Except.pure]
  | cons a l ih =>
    rw [List.mapM_cons]
    cases ha : f a with
    | error e => cases bs <;> simp [bind, Except.bind, ha]
    | ok b =>
      cases hl : l.mapM f with
      | error e => cases bs <;> simp [bind, Except.bind, ← ih, hl, ha]
      | ok rest => cases bs <;> simp [bind, Except.bind, pure, Except.pure, ← ih, hl, ha]

theorem mapM_ok_congr {α β ε : Type} {f f' : α → Except ε β} {l : List α} {bs : List β}
    (h : l.mapM f = .ok bs) (hcongr : ∀ a, ∀ b ∈ bs, f a = .ok b → f' a = .ok b) :
    l.mapM f' = .ok bs := by
  rw [mapM_eq_ok] at h ⊢
  induction h with
  | nil => exact .nil
  | cons ha _ ih =>
    exact .cons (hcongr _ _ List.mem_cons_self ha)
      (ih fun a b hb => hcongr a b (List.mem_cons_of_mem _ hb))

/-- A reader that opens the same lists gives the same answer. -/
theorem withFs_parseSvFilelist (hreal : fs.realpath = env.fs.realpath) {root : AbsPath}
    {entries : List SvEntry} {opened : List AbsPath}
    (hparse : parseSvFilelist env root = .ok (entries, opened))
    (hsame : ∀ x ∈ opened, svItems (env.withFs fs) x = svItems env x) :
    parseSvFilelist (env.withFs fs) root = .ok (entries, opened) := by
  have hroot : (env.withFs fs).fs.realpath root = env.fs.realpath root := congrFun hreal root
  unfold parseSvFilelist at *
  rw [hroot]
  have hreach : ∀ x, Reaches (svItems env) (env.fs.realpath root) x →
      svItems env x = svItems (env.withFs fs) x := fun x hx =>
    (hsame x ((mem_opened_iff hparse x).mpr hx)).symm
  have hrun : expandFrom (svItems (env.withFs fs)) env.fs.files (env.fs.realpath root) =
      .ok (entries, opened) := by
    rw [← expandFrom_congr _ _ hreach, hparse]
  rw [← hrun]
  refine expandFrom_nodes (expandFrom_ne_tooDeep fun x hx c hc => ?_) (by rw [hrun]; simp)
  obtain ⟨bytes, -, hread, -⟩ := readBytes_of_includes hc
  have hcanonical : (env.withFs fs).fs.realpath (env.fs.realpath root) = env.fs.realpath root := by
    rw [← hroot]
    exact (env.withFs fs).fs.realpath_idem root
  rw [← realpath_of_reaches hcanonical hx]
  exact FileSystem.mem_files_of_readBytes hread

/-- A filelist adds the same while the files it opens read the same. -/
theorem withFs_addFilelist (hreal : fs.realpath = env.fs.realpath) (hfields : SameFields w w')
    {label text : String} {group : InputGroup}
    (h : addFilelist env homeless w label text = .ok group)
    (hsame : ∀ x ∈ group.opened, svItems (env.withFs fs) x = svItems env x) :
    addFilelist (env.withFs fs) homeless w' label text = .ok group := by
  obtain ⟨root, entries, opened, rtl, hroot, hparse, hrtl, rfl⟩ := addFilelist_eq_ok.mp h
  refine addFilelist_eq_ok.mpr ⟨root, entries, opened, rtl, ?_, ?_, ?_, rfl⟩
  · rw [withFs_resolvePath hreal, hroot]
  · exact withFs_parseSvFilelist hreal hparse hsame
  · have hclass : classified (env.withFs fs) homeless w' label = classified env homeless w label :=
      funext fun p => withFs_classified hreal hfields label p
    rw [hclass, hrtl]

/-- The groups are those of the first run, when the same places are read. -/
theorem withFs_inputGroups (hreal : fs.realpath = env.fs.realpath) (hfields : SameFields w w')
    {groups : List InputGroup} (h : inputGroups env homeless w = .ok groups)
    (hinputs : filelistInputs (env.withFs fs) w' = filelistInputs env w)
    (horigin : filelistInputs env w = [] → textExists (env.withFs fs) (fieldText w "origin_verilog") =
      textExists env (fieldText w "origin_verilog"))
    (hsame : ∀ group ∈ groups, ∀ x ∈ group.opened, svItems (env.withFs fs) x = svItems env x) :
    inputGroups (env.withFs fs) homeless w' = .ok groups := by
  unfold inputGroups at *
  rw [hinputs]
  cases hlist : filelistInputs env w with
  | nil =>
    rw [hlist] at h
    have hresolve : (env.withFs fs).host.resolve (.ofText (fieldText w "origin_verilog")) =
        env.host.resolve (.ofText (fieldText w "origin_verilog")) := by
      show fs.realpath _ = env.fs.realpath _
      rw [hreal]
      rfl
    have hgroups : originGroups (env.withFs fs) homeless w' = originGroups env homeless w := by
      unfold originGroups
      simp only [hfields.fieldText (show "origin_verilog" ∈ readFields by decide), horigin hlist,
        hresolve, withFs_classified hreal hfields]
    exact hgroups.trans h
  | cons input inputs =>
    rw [hlist] at h
    exact mapM_ok_congr h fun a group hgroup ha =>
      withFs_addFilelist hreal hfields ha (hsame group hgroup)

theorem withFs_rtlSource (hreal : fs.realpath = env.fs.realpath) (hfields : SameFields w w')
    (groups : List InputGroup) (p : AbsPath) :
    rtlSource (env.withFs fs) homeless w' groups p = rtlSource env homeless w groups p := by
  unfold rtlSource
  rw [withFs_classified hreal hfields]

/-- A second run on the same groups is the first one. -/
theorem withFs_collectInputs (hreal : fs.realpath = env.fs.realpath) (hfields : SameFields w w')
    {c : Collected} {groups : List InputGroup} {sources : List RtlSource}
    (hgroups : inputGroups (env.withFs fs) homeless w' = .ok groups)
    (hne : firstSeen ((groups.flatMap (·.rtl)).map (·.1)) ≠ [])
    (hsources : (firstSeen ((groups.flatMap (·.rtl)).map (·.1))).mapM
      (rtlSource env homeless w groups) = .ok sources) (hc : c = .of groups sources) :
    collectInputs (env.withFs fs) homeless w' = .ok c := by
  have hrecord : rtlSource (env.withFs fs) homeless w' groups = rtlSource env homeless w groups :=
    funext fun p => withFs_rtlSource hreal hfields groups p
  exact collectInputs_eq_ok.mpr ⟨groups, sources, hgroups, hne, by rw [hrecord, hsources], hc⟩

end

/-! ## 4. The lines of the merged filelist -/

/-- The name the reader takes from the bare text of a path. -/
def backWord (p : AbsPath) : Option String :=
  match shlexSplit (stripBy isSpace (PurePath.absText p).toList) with
  | some (first :: _) => some (stripQuotes (String.ofList first))
  | _ => none

/-- The text of the path is one word for a shell, and names a source. -/
structure BarePlain (p : AbsPath) : Prop where
  plain : ∀ c ∈ (PurePath.absText p).toList, isShlexPlain c = true
  suffix : isSourceToken (PurePath.absText p) = true

/-- The text is cut to another name, and a link leads from that name to the source. -/
def LinkedWord (env : Env) (base p : AbsPath) : Prop :=
  ∃ word, backWord p = some word ∧ word ≠ PurePath.absText p ∧ isSourceToken word = true ∧
    resolveEntry env base word = p

/-- The entries of the line of a source. -/
def lineEntries (env : Env) (base p : AbsPath) : List SvEntry :=
  match backWord p with
  | some word => if isSourceToken word then [.rtl (resolveEntry env base word)] else []
  | none => []

section

variable {env : Env} {path p : AbsPath}

theorem slash_plain : isShlexPlain '/' = true := by decide

/-- The stripped text of a path starts with its slash. -/
theorem strip_absText (p : AbsPath) : stripBy isSpace (PurePath.absText p).toList =
    '/' :: rstripBy isSpace (PurePath.absText p).toList.tail := by
  rw [toList_absText, stripBy_cons (by decide)]
  rfl

theorem backWord_plain (h : BarePlain p) : backWord p = some (PurePath.absText p) := by
  have hstrip : stripBy isSpace (PurePath.absText p).toList = (PurePath.absText p).toList := by
    rw [toList_absText]
    refine stripBy_eq_self (by simp [isSpace]) fun c hc => ?_
    rw [← toList_absText] at hc
    have hlast : c = 'v' := last_of_isSourceToken h.suffix hc
    rw [hlast]
    rfl
  have hsplit : shlexSplit (PurePath.absText p).toList = some [(PurePath.absText p).toList] := by
    have hplain := h.plain
    rw [toList_absText] at hplain ⊢
    rw [shlexSplit_cons slash_plain,
      shlexScan_word_plain _ fun c hc => hplain c (List.mem_cons_of_mem _ hc)]
    rfl
  rw [backWord, hstrip, hsplit]
  show some (stripQuotes (String.ofList (PurePath.absText p).toList)) = _
  rw [String.ofList_toList]
  exact congrArg some (sourceName_of_token h.suffix)

/-- A stripped text is not longer, and of the same length only when nothing was stripped. -/
theorem stripBy_sublist (q : Char → Bool) (cs : List Char) : (stripBy q cs).Sublist cs :=
  (List.rdropWhile_prefix q _).sublist.trans (List.dropWhile_sublist q)

/-- Only the text of a plain path is read as itself. -/
theorem plain_of_backWord (hword : backWord p = some (PurePath.absText p)) :
    ∀ c ∈ (PurePath.absText p).toList, isShlexPlain c = true := by
  unfold backWord at hword
  split at hword
  · rename_i first rest hsplit
    rw [strip_absText] at hsplit
    obtain ⟨first', _, hwords, hle, hplain⟩ := exists_of_shlexSplit_cons slash_plain hsplit
    cases hwords
    have hquotes : (PurePath.absText p).toList = stripBy isQuote ('/' :: first') := by
      rw [← Option.some.inj hword, stripQuotes, String.toList_ofList, String.toList_ofList]
    have hlength := (stripBy_sublist isQuote ('/' :: first')).length_le
    have hspace := (stripBy_sublist isSpace (PurePath.absText p).toList)
    rw [← hquotes, List.length_cons] at hlength
    rw [strip_absText] at hspace
    have hstrip := hspace.length_le
    rw [List.length_cons] at hstrip
    -- nothing was taken away at any of the three steps
    have htext := hspace.eq_of_length_le (by rw [List.length_cons]; omega)
    intro c hc
    rw [← htext] at hc
    rcases List.mem_cons.mp hc with rfl | hc
    · exact slash_plain
    · exact hplain (by omega) c hc
  · cases hword

/-- The merged line of a file is read back as that file. -/
theorem backLine_iff (hexisting : Existing env p) {base : AbsPath} :
    BarePlain p ∨ LinkedWord env base p ↔ lineEntries env base p = [.rtl p] := by
  unfold lineEntries
  constructor
  · rintro (hplain | ⟨word, hword, -, htoken, hback⟩)
    · rw [backWord_plain hplain]
      simp only [hplain.suffix, if_true]
      rw [resolveEntry_absText hexisting.names hexisting.canonical hexisting.exists?]
    · rw [hword]
      simp only [htoken, if_true, hback]
  · intro h
    split at h
    · rename_i word hword
      split at h
      · rename_i htoken
        by_cases htext : word = PurePath.absText p
        · subst htext
          exact .inl ⟨plain_of_backWord hword, htoken⟩
        · have hback : resolveEntry env base word = p := by simpa using h
          exact .inr ⟨word, hword, htext, htoken, hback⟩
      · cases h
    · cases h

/-- The line of a source is read by its first word. -/
theorem svLine_bare (hnames : ∀ part ∈ p, IsName part) :
    (backWord p = none ∧ ∃ e, svLine env path (PurePath.absText p).toList = [.fail e]) ∨
      ∃ first, backWord p = some (stripQuotes (String.ofList first)) ∧
        svLine env path (PurePath.absText p).toList = sourceItems env path path.parent
          (stripBy isSpace (PurePath.absText p).toList) first := by
  obtain ⟨rest, htext, hhead⟩ := absText_head hnames
  have hstrip := strip_absText p
  rw [htext, List.tail_cons] at hstrip
  have hslash : (rstripBy isSpace rest).head? ≠ some '/' := by
    obtain ⟨more, hmore⟩ := List.rdropWhile_prefix isSpace rest
    intro hnext
    rw [← hmore, List.head?_append, show List.head? (rest.rdropWhile isSpace) = some '/' from hnext]
      at hhead
    exact hhead rfl
  have hignored : isIgnoredLine ('/' :: rstripBy isSpace rest) = false := by
    have hcomment : startsWith ('/' :: rstripBy isSpace rest) "//" = false := by
      cases hrest : rstripBy isSpace rest with
      | nil => rfl
      | cons d more =>
        rw [hrest] at hslash
        have hd : d ≠ '/' := fun heq => hslash (congrArg some heq)
        simp [startsWith, List.isPrefixOf, Ne.symm hd]
    rw [isIgnoredLine, hcomment]
    rfl
  unfold backWord
  rw [htext, svLine, hstrip]
  simp only [hignored, Bool.false_eq_true, if_false]
  cases hsplit : shlexSplit ('/' :: rstripBy isSpace rest) with
  | none => exact .inl ⟨rfl, _, rfl⟩
  | some words =>
    obtain ⟨first, others, rfl, -, -⟩ := exists_of_shlexSplit_cons slash_plain hsplit
    refine .inr ⟨'/' :: first, rfl, ?_⟩
    exact wordItems_of_source env path path.parent others rfl rfl rfl

/-- A line that does not fail gives its entries. -/
theorem svLine_bare_emits (hnames : ∀ part ∈ p, IsName part)
    (hfail : ∀ e, .fail e ∉ svLine env path (PurePath.absText p).toList) :
    svLine env path (PurePath.absText p).toList =
      (lineEntries env path.parent p).map .emit := by
  rcases @svLine_bare env path p hnames with ⟨-, e, hline⟩ | ⟨first, hword, hline⟩
  · exact absurd (by rw [hline]; exact List.mem_singleton_self _) (hfail e)
  · rw [hline, sourceItems] at hfail ⊢
    rw [lineEntries, hword]
    dsimp only at hfail ⊢
    cases htoken : isSourceToken (stripQuotes (String.ofList first)) with
    | false => rfl
    | true =>
      rw [htoken] at hfail
      by_cases hexists : env.fs.exists? (resolveEntry env path.parent
          (stripQuotes (String.ofList first))) = true
      · simp [hexists]
      · simp [hexists] at hfail

/-- The line of a source that comes back does not fail. -/
theorem svLine_bare_back (hexisting : Existing env p)
    (h : lineEntries env path.parent p = [.rtl p]) :
    svLine env path (PurePath.absText p).toList = [.emit (.rtl p)] := by
  unfold lineEntries at h
  rcases @svLine_bare env path p hexisting.names with
    ⟨hnone, -⟩ | ⟨first, hword, hline⟩
  · rw [hnone] at h
    cases h
  · rw [hword] at h
    dsimp only at h
    split at h
    · rename_i htoken
      have hback : resolveEntry env path.parent (stripQuotes (String.ofList first)) = p := by
        simpa using h
      rw [hline, sourceItems]
      simp only [htoken, Bool.not_true, Bool.false_eq_true, if_false, hback, hexisting.exists?,
        if_true]
    · cases h

end

/-! ## 5. The whole merged filelist -/

section

variable {env : Env} {path : AbsPath} {files : List AbsPath}

/-- The merged filelist is read line by line. -/
theorem svItems_merged (hholds : Holds env path (mergedLines files)) (hne : files ≠ [])
    (hlines : ∀ p ∈ files, OneLine (PurePath.absText p).toList) :
    svItems env path = files.flatMap fun p => svLine env path (PurePath.absText p).toList := by
  have hclean : ∀ line ∈ mergedLines files, OneLine line := by
    intro line hline
    obtain ⟨p, hp, rfl⟩ := List.mem_map.mp hline
    exact hlines p hp
  have hnonempty : mergedLines files ≠ [] := fun hnil => hne (List.map_eq_nil_iff.mp hnil)
  rw [svItems_of_holds hholds, textLines_joinLines hnonempty hclean, mergedLines, List.flatMap_map]

/-- Every source comes back. -/
theorem svItems_merged_back (hholds : Holds env path (mergedLines files)) (hne : files ≠ [])
    (hlines : ∀ p ∈ files, OneLine (PurePath.absText p).toList)
    (hexisting : ∀ p ∈ files, Existing env p)
    (hback : ∀ p ∈ files, lineEntries env path.parent p = [.rtl p]) :
    svItems env path = (files.map .rtl).map .emit := by
  rw [svItems_merged hholds hne hlines,
    List.flatMap_congr fun p hp => svLine_bare_back (hexisting p hp) (hback p hp)]
  simp [← List.map_eq_flatMap]

/-- A merged filelist that does not fail gives what its lines give. -/
theorem svItems_merged_emits (hholds : Holds env path (mergedLines files)) (hne : files ≠ [])
    (hlines : ∀ p ∈ files, OneLine (PurePath.absText p).toList)
    (hexisting : ∀ p ∈ files, Existing env p) (hfail : ∀ e, .fail e ∉ svItems env path) :
    svItems env path = (files.flatMap (lineEntries env path.parent)).map .emit := by
  rw [svItems_merged hholds hne hlines] at hfail ⊢
  rw [List.map_flatMap]
  refine List.flatMap_congr fun p hp => svLine_bare_emits (hexisting p hp).names fun e he => ?_
  exact hfail e (List.mem_flatMap.mpr ⟨p, hp, he⟩)

variable {base : AbsPath}

/-- The lines give sources only. -/
theorem of_lineEntries (files : List AbsPath) :
    incdirsOf (files.flatMap (lineEntries env base)) = [] ∧
      definesOf (files.flatMap (lineEntries env base)) = [] := by
  have hline : ∀ p, incdirsOf (lineEntries env base p) = [] ∧
      definesOf (lineEntries env base p) = [] := by
    intro p
    unfold lineEntries
    split
    · split <;> exact ⟨rfl, rfl⟩
    · exact ⟨rfl, rfl⟩
  rw [incdirsOf_flatMap, definesOf_flatMap]
  simp [hline]

/-- A function that gives at most one thing for an element gives each element, when the whole is
the list itself. -/
theorem flatMap_eq_self_of_le {α : Type} {f : α → List α} (hle : ∀ x, (f x).length ≤ 1) :
    ∀ {l : List α}, l.flatMap f = l → ∀ x ∈ l, f x = [x]
  | [], _ => by simp
  | x :: l, h => by
      have hlength : ∀ l : List α, (l.flatMap f).length ≤ l.length := by
        intro l
        induction l with
        | nil => exact Nat.le_refl _
        | cons y l ih =>
          rw [List.flatMap_cons, List.length_append, List.length_cons]
          have hy := hle y
          omega
      rw [List.flatMap_cons] at h
      cases hx : f x with
      | nil =>
        have hrest := hlength l
        have hall := congrArg List.length h
        rw [hx, List.nil_append, List.length_cons] at hall
        omega
      | cons y ys =>
        have hone := hle x
        rw [hx, List.length_cons] at hone
        obtain rfl : ys = [] := List.length_eq_zero_iff.mp (by omega)
        rw [hx, List.singleton_append] at h
        obtain ⟨rfl, hl⟩ := List.cons.inj h
        intro z hz
        rcases List.mem_cons.mp hz with rfl | hz
        · exact hx
        · exact flatMap_eq_self_of_le hle hl z hz

/-- The merged filelist gives the sources back only when each line does. -/
theorem lineEntries_of_firstSeen (hback : firstSeen (Prepare.rtlFilesOf
    (files.flatMap (lineEntries env base))) = files) :
    ∀ p ∈ files, lineEntries env base p = [.rtl p] := by
  have hone : ∀ p, (Prepare.rtlFilesOf (lineEntries env base p)).length ≤ 1 := by
    intro p
    unfold lineEntries
    split
    · split <;> simp [Prepare.rtlFilesOf]
    · simp [Prepare.rtlFilesOf]
  rw [rtlFilesOf_flatMap] at hback
  have hlength : ∀ l : List AbsPath,
      (l.flatMap fun p => Prepare.rtlFilesOf (lineEntries env base p)).length ≤ l.length := by
    intro l
    induction l with
    | nil => exact Nat.le_refl _
    | cons p l ih =>
      rw [List.flatMap_cons, List.length_append, List.length_cons]
      have hp := hone p
      omega
  have hself := firstSeen_eq_of_length (le_of_le_of_eq (hlength files) (congrArg List.length hback).symm)
  rw [hself] at hback
  intro p hp
  have hline := flatMap_eq_self_of_le hone hback p hp
  unfold lineEntries at hline ⊢
  split
  · split
    · rename_i word hword htoken
      simpa [hword, htoken, Prepare.rtlFilesOf] using hline
    · rename_i word hword htoken
      simp [hword, htoken, Prepare.rtlFilesOf] at hline
  · rename_i hword
    simp [hword, Prepare.rtlFilesOf] at hline

end

/-! ## 6. What the first run collects -/

/-- A filelist that the step reads. -/
def ReadsList (env : Env) (homeless : String → Bool) (w : Workspace) (x : AbsPath) : Prop :=
  ∃ input ∈ filelistInputs env w, ∃ root, resolvePath env homeless input.2 = .ok root ∧
    Reaches (svItems env) (env.fs.realpath root) x

/-- The filelists that the step reads name the entry. -/
def Named (env : Env) (homeless : String → Bool) (w : Workspace) (entry : SvEntry) : Prop :=
  ∃ x, ReadsList env homeless w x ∧ .emit entry ∈ svItems env x

/-- A source of the step. -/
def IsSource (env : Env) (homeless : String → Bool) (w : Workspace) (p : AbsPath) : Prop :=
  Named env homeless w (.rtl p) ∨
    filelistInputs env w = [] ∧ p = env.host.resolve (.ofText (fieldText w "origin_verilog"))

def InputGroup.Has (group : InputGroup) : SvEntry → Prop
  | .rtl p => p ∈ group.rtl.map (·.1)
  | .incdir dir => dir ∈ group.incdirs
  | .define text => text ∈ group.defines

section

variable {env : Env} {homeless : String → Bool} {w : Workspace}

/-- A source keeps its place and gets an owner. -/
theorem classified_eq_ok {label : String} {p : AbsPath} {answer : AbsPath × String} :
    classified env homeless w label p = .ok answer ↔
      classifyRtlSource env homeless (PurePath.absText p) label w = .ok answer.2 ∧ answer.1 = p := by
  unfold classified
  cases hclass : classifyRtlSource env homeless (PurePath.absText p) label w with
  | error e => simp
  | ok owner => simp [Prod.ext_iff, eq_comm, and_comm]

theorem map_fst_classified {label : String} {files : List AbsPath} {rtl : List (AbsPath × String)}
    (h : files.mapM (classified env homeless w label) = .ok rtl) : rtl.map (·.1) = files := by
  rw [mapM_eq_ok] at h
  induction h with
  | nil => rfl
  | cons ha _ ih => rw [List.map_cons, ih, (classified_eq_ok.mp ha).2]

/-- The include directories of an answer are its entries of that kind. -/
theorem mem_incdirsOf {entries : List SvEntry} {dir : AbsPath} :
    dir ∈ incdirsOf entries ↔ .incdir dir ∈ entries := by
  rw [incdirsOf, List.mem_filterMap]
  constructor
  · rintro ⟨entry, hmem, heq⟩
    cases entry with
    | incdir path =>
      cases heq
      exact hmem
    | rtl _ | define _ => cases heq
  · exact fun h => ⟨.incdir dir, h, rfl⟩

/-- The defines of an answer are its entries of that kind. -/
theorem mem_definesOf {entries : List SvEntry} {text : String} :
    text ∈ definesOf entries ↔ .define text ∈ entries := by
  rw [definesOf, List.mem_filterMap]
  constructor
  · rintro ⟨entry, hmem, heq⟩
    cases entry with
    | define other =>
      cases heq
      exact hmem
    | rtl _ | incdir _ => cases heq
  · exact fun h => ⟨.define text, h, rfl⟩

/-- The group of a filelist has what the lists reachable from it name. -/
theorem addFilelist_has {label text : String} {group : InputGroup}
    (h : addFilelist env homeless w label text = .ok group) (entry : SvEntry) :
    group.Has entry ↔ ∃ root, resolvePath env homeless text = .ok root ∧
      ∃ x, Reaches (svItems env) (env.fs.realpath root) x ∧ .emit entry ∈ svItems env x := by
  obtain ⟨root, entries, opened, rtl, hroot, hparse, hrtl, rfl⟩ := addFilelist_eq_ok.mp h
  have hhas : InputGroup.Has ⟨label, rtl, incdirsOf entries, definesOf entries, opened⟩ entry ↔
      entry ∈ entries := by
    cases entry with
    | rtl p =>
      show p ∈ rtl.map (·.1) ↔ _
      rw [map_fst_classified hrtl, Prepare.mem_rtlFilesOf]
    | incdir dir => exact mem_incdirsOf
    | define text => exact mem_definesOf
  rw [hhas, mem_output_iff hparse, hroot]
  simp

/-- What the groups have is what the filelists of the workspace name. -/
theorem inputGroups_has {groups : List InputGroup} (h : inputGroups env homeless w = .ok groups)
    (hinputs : filelistInputs env w ≠ []) (entry : SvEntry) :
    (∃ group ∈ groups, group.Has entry) ↔ Named env homeless w entry := by
  have hmap : (filelistInputs env w).mapM
      (fun input => addFilelist env homeless w input.1 input.2) = .ok groups := by
    unfold inputGroups at h
    split at h
    · rename_i hnil
      exact absurd hnil hinputs
    · exact h
  unfold Named ReadsList
  rw [mapM_eq_ok] at hmap
  clear h hinputs
  generalize filelistInputs env w = inputs at hmap
  induction hmap with
  | nil => simp
  | cons ha _ ih =>
    have hhead := addFilelist_has ha entry
    constructor
    · rintro ⟨group, hgroup, hhas⟩
      rcases List.mem_cons.mp hgroup with rfl | hgroup
      · obtain ⟨root, hroot, x, hx, hmem⟩ := hhead.mp hhas
        exact ⟨x, ⟨_, List.mem_cons_self, root, hroot, hx⟩, hmem⟩
      · obtain ⟨x, ⟨input, hinput, hrest⟩, hmem⟩ := ih.mp ⟨group, hgroup, hhas⟩
        exact ⟨x, ⟨input, List.mem_cons_of_mem _ hinput, hrest⟩, hmem⟩
    · rintro ⟨x, ⟨input, hinput, root, hroot, hx⟩, hmem⟩
      rcases List.mem_cons.mp hinput with rfl | hinput
      · exact ⟨_, List.mem_cons_self, hhead.mpr ⟨root, hroot, x, hx, hmem⟩⟩
      · obtain ⟨group, hgroup, hhas⟩ := ih.mpr ⟨x, ⟨input, hinput, root, hroot, hx⟩, hmem⟩
        exact ⟨group, List.mem_cons_of_mem _ hgroup, hhas⟩

/-- Without filelists nothing is named. -/
theorem not_named_of_nil (h : filelistInputs env w = []) (entry : SvEntry) :
    ¬Named env homeless w entry := by
  rintro ⟨x, ⟨input, hinput, -⟩, -⟩
  rw [h] at hinput
  cases hinput

/-- The sources, include directories and defines of the step, from its inputs. -/
theorem collected_iff {c : Collected} (h : collectInputs env homeless w = .ok c) :
    (∀ p, p ∈ c.rtlFiles ↔ IsSource env homeless w p) ∧
      (∀ dir, dir ∈ c.incdirs ↔ Named env homeless w (.incdir dir)) ∧
      ∀ text, text ∈ c.defines ↔ Named env homeless w (.define text) := by
  obtain ⟨groups, sources, hgroups, hne, -, rfl⟩ := collectInputs_eq_ok.mp h
  have hrtl : ∀ p, p ∈ firstSeen ((groups.flatMap (·.rtl)).map (·.1)) ↔
      ∃ group ∈ groups, group.Has (.rtl p) := by
    intro p
    rw [mem_firstSeen, List.map_flatMap, List.mem_flatMap]
    rfl
  have hincdirs : ∀ dir, dir ∈ firstSeen (groups.flatMap (·.incdirs)) ↔
      ∃ group ∈ groups, group.Has (.incdir dir) := by
    intro dir
    rw [mem_firstSeen, List.mem_flatMap]
    rfl
  have hdefines : ∀ text, text ∈ firstSeen (groups.flatMap (·.defines)) ↔
      ∃ group ∈ groups, group.Has (.define text) := by
    intro text
    rw [mem_firstSeen, List.mem_flatMap]
    rfl
  by_cases hinputs : filelistInputs env w = []
  · have hnot : ∀ entry, ¬Named env homeless w entry := not_named_of_nil hinputs
    rw [inputGroups, hinputs] at hgroups
    have horigin : originGroups env homeless w = .ok groups := hgroups
    unfold originGroups at horigin
    dsimp only at horigin
    split at horigin
    · cases horigin
      exact absurd rfl hne
    · cases hclass : classified env homeless w "origin_verilog"
          (env.host.resolve (.ofText (fieldText w "origin_verilog"))) with
      | error e =>
        rw [hclass] at horigin
        cases horigin
      | ok answer =>
        rw [hclass] at horigin
        cases horigin
        obtain ⟨path, owner⟩ := answer
        have hpath : path = _ := (classified_eq_ok.mp hclass).2
        refine ⟨fun p => (hrtl p).trans ?_, fun dir => (hincdirs dir).trans ?_,
          fun text => (hdefines text).trans ?_⟩
        · simp [InputGroup.Has, IsSource, hnot, hinputs, ← hpath]
        · simp [InputGroup.Has, hnot]
        · simp [InputGroup.Has, hnot]
  · have hhas := inputGroups_has hgroups hinputs
    refine ⟨fun p => (hrtl p).trans ((hhas _).trans ?_), fun dir => (hincdirs dir).trans (hhas _),
      fun text => (hdefines text).trans (hhas _)⟩
    simp [IsSource, hinputs]

/-- The sources are canonical paths that exist. -/
theorem existing_of_isSource {p : AbsPath} {c : Collected}
    (h : collectInputs env homeless w = .ok c) (hp : p ∈ c.rtlFiles) :
    env.fs.realpath p = p ∧ env.fs.exists? p = true := by
  rcases ((collected_iff h).1 p).mp hp with ⟨x, -, hmem⟩ | ⟨hinputs, rfl⟩
  · have hline : ∃ raw, .emit (.rtl p) ∈ svLine env x raw := by
      rw [svItems] at hmem
      split at hmem
      · simp at hmem
      · split at hmem
        · simp at hmem
        · split at hmem
          · simp at hmem
          · obtain ⟨raw, -, hraw⟩ := List.mem_flatMap.mp hmem
            exact ⟨raw, hraw⟩
    obtain ⟨raw, hraw⟩ := hline
    obtain ⟨_, _, _, _, _, _, _, hexists, _⟩ := rtl_svLine_iff.mp hraw
    exact ⟨realpath_rtl hraw, hexists⟩
  · refine ⟨env.host.realpath_resolve _, ?_⟩
    obtain ⟨groups, sources, hgroups, hne, -, rfl⟩ := collectInputs_eq_ok.mp h
    unfold inputGroups originGroups at hgroups
    rw [hinputs] at hgroups
    dsimp only at hgroups
    by_cases hexists : textExists env (fieldText w "origin_verilog") = true
    · unfold textExists at hexists
      rw [Bool.and_eq_true] at hexists
      exact hexists.2
    · rw [Bool.not_eq_true] at hexists
      rw [hexists] at hgroups
      cases hgroups
      exact absurd rfl hne

end

/-! ## 7. The second run -/

/-- The workspace of the second run has what the first one persisted. -/
def Persisted (first : PrepareRun) (w' : Workspace) : Prop :=
  ∀ field ∈ "input_filelist" :: readFields, w'.get field = first.workspace.get field

/-- A run that succeeded, and what a second one starts from: `fs` are the files and `w'` is the
workspace. -/
structure Rerun (env : Env) (fs : FileSystem) (homeless : String → Bool) (outputDir : AbsPath)
    (w w' : Workspace) (first : PrepareRun) : Prop where
  ran : prepare env homeless outputDir w = .ok first
  tree : env.fs.IsTree
  output : ∀ part ∈ outputDir, IsName part ∧ '\x00' ∉ part.toList
  unchanged : Unchanged env fs outputDir w first
  persisted : Persisted first w'

/-- The second run succeeds with the inputs of the first one. -/
def RunsAlike (env : Env) (fs : FileSystem) (homeless : String → Bool) (outputDir : AbsPath)
    (w' : Workspace) (first : PrepareRun) : Prop :=
  ∃ second, prepare (env.withFs fs) homeless outputDir w' = .ok second ∧
    second.prepared.rtlFiles = first.prepared.rtlFiles ∧
    second.prepared.incdirs = first.prepared.incdirs ∧
    second.prepared.defines = first.prepared.defines

/-- The step does not read the field it overwrites, or does not overwrite it. -/
def KeepsInputs (w : Workspace) : Prop :=
  designKind w = .ok .GENERIC_RTL ∨ fieldText w "cpu_filelist" ≠ "" ∨ fieldText w "soc_filelist" ≠ ""

/-- Bare lines carry the inputs: no include directory, no define that the manifest keeps, and
every source comes back from its own line. -/
structure CarriesOver (env : Env) (fs : FileSystem) (homeless : String → Bool)
    (outputDir : AbsPath) (w : Workspace) : Prop where
  noIncdir : ∀ dir, ¬Named env homeless w (.incdir dir)
  noDefine : ∀ text, Named env homeless w (.define text) →
    requiresCustomDefine w = true ∧ keptDefines [text] = []
  sources : ∀ p, IsSource env homeless w p → OneLine (PurePath.absText p).toList ∧
    (BarePlain p ∨
      LinkedWord (env.withFs fs) (env.fs.realpath (mergedFilelistPath outputDir)).parent p)

section

variable {env : Env} {fs : FileSystem} {homeless : String → Bool} {outputDir : AbsPath}
  {w w' : Workspace} {first : PrepareRun}

/-- The step writes none of the fields it reads. -/
theorem get_persist {kind : DesignKind} {field : String} (hfield : field ∈ readFields) :
    (persistWorkspaceInputFilelist w kind outputDir).get field = w.get field := by
  have hwritten : ∀ written ∈ ["prepared_filelist", "prepared_manifest", "input_filelist"],
      written ≠ field := by
    rintro written hmem rfl
    revert hmem hfield
    clear * -
    revert written
    decide
  unfold persistWorkspaceInputFilelist
  cases kind with
  | GENERIC_RTL =>
    rw [Dict.get_set_ne _ _ (hwritten _ (by simp)), Dict.get_set_ne _ _ (hwritten _ (by simp))]
  | CPU_CORE =>
    rw [Dict.get_set_ne _ _ (hwritten _ (by simp)), Dict.get_set_ne _ _ (hwritten _ (by simp)),
      Dict.get_set_ne _ _ (hwritten _ (by simp))]

/-- Only a CPU core gets the merged filelist as its input. -/
theorem get_persist_input {kind : DesignKind} :
    (persistWorkspaceInputFilelist w kind outputDir).get "input_filelist" =
      match kind with
      | .GENERIC_RTL => w.get "input_filelist"
      | .CPU_CORE => some (.str (PurePath.absText (mergedFilelistPath outputDir))) := by
  unfold persistWorkspaceInputFilelist
  cases kind with
  | GENERIC_RTL => rw [Dict.get_set_ne _ _ (by decide), Dict.get_set_ne _ _ (by decide)]
  | CPU_CORE => exact Dict.get_set_self _ _ _

/-- A workspace after the step has the fields from before. -/
theorem Persisted.sameFields {c : Collected} {kind : DesignKind} {top : TopContract}
    (h : Persisted (.of env outputDir w c kind top) w') : SameFields w w' := fun field hfield =>
  (h field (List.mem_cons_of_mem _ hfield)).trans (get_persist hfield)

theorem SameFields.manifestDefines (h : SameFields w w') (kind : DesignKind)
    (defines : List String) :
    manifestDefines w' kind defines = manifestDefines w kind defines := by
  cases kind with
  | GENERIC_RTL => rfl
  | CPU_CORE =>
    have hrequires : requiresCustomDefine w' = requiresCustomDefine w := by
      simp only [requiresCustomDefine, List.map_cons, List.map_nil,
        h.getD (show "frontend_core_id" ∈ readFields by decide),
        h.getD (show "cpu_wrapper_id" ∈ readFields by decide),
        h.fieldText (show "required_cpu_top_module" ∈ readFields by decide)]
    simp only [Prepare.manifestDefines, injectCustomCpuTopDefine, hrequires,
      h.fieldText (show "required_cpu_top_module" ∈ readFields by decide)]

/-- Collecting the same gives the same. -/
theorem runsAlike_of_collect {c c' : Collected} {kind : DesignKind} {top : TopContract}
    (hfields : SameFields w w') (hkind : designKind w = .ok kind)
    (htop : validateFrontendTop env w kind c.rtlFiles = .ok top)
    (hread : ∀ p ∈ c.rtlFiles, fs.readBytes p = env.fs.readBytes p)
    (hcollect : collectInputs (env.withFs fs) homeless w' = .ok c') (hrtl : c'.rtlFiles = c.rtlFiles)
    (hincdirs : c'.incdirs = c.incdirs)
    (hdefines : manifestDefines w kind c'.defines = manifestDefines w kind c.defines) :
    RunsAlike env fs homeless outputDir w' (.of env outputDir w c kind top) := by
  refine ⟨.of (env.withFs fs) outputDir w' c' kind top, ?_, hrtl, hincdirs, ?_⟩
  · refine prepare_eq_ok.mpr ⟨c', kind, top, hcollect, hfields.designKind.trans hkind, ?_, rfl⟩
    rw [hrtl, withFs_validateFrontendTop hfields hread, htop]
  · exact (hfields.manifestDefines kind c'.defines).trans hdefines

/-- A workspace that keeps its inputs collects them again. -/
theorem collectInputs_of_keepsInputs {c : Collected} {kind : DesignKind} {top : TopContract}
    (hkeeps : KeepsInputs w) (hkind : designKind w = .ok kind)
    (hcollect : collectInputs env homeless w = .ok c)
    (hunchanged : Unchanged env fs outputDir w (.of env outputDir w c kind top))
    (hpersisted : Persisted (.of env outputDir w c kind top) w') :
    collectInputs (env.withFs fs) homeless w' = .ok c := by
  have hfields := hpersisted.sameFields
  have hcpu := hfields.fieldText (show "cpu_filelist" ∈ readFields by decide)
  have hsoc := hfields.fieldText (show "soc_filelist" ∈ readFields by decide)
  obtain ⟨groups, sources, hgroups, hne, hsources, hc⟩ := collectInputs_eq_ok.mp hcollect
  have hsame : ∀ group ∈ groups, ∀ x ∈ group.opened, svItems (env.withFs fs) x = svItems env x := by
    intro group hgroup x hx
    refine hunchanged.filelists x ?_
    show x ∈ c.opened
    rw [hc]
    exact List.mem_flatMap.mpr ⟨group, hgroup, hx⟩
  refine withFs_collectInputs hunchanged.realpath hfields
    (withFs_inputGroups hunchanged.realpath hfields hgroups ?_ ?_ hsame) hne hsources hc
  · unfold filelistInputs
    simp only [hcpu, hsoc]
    by_cases hlists : fieldText w "cpu_filelist" ≠ "" ∨ fieldText w "soc_filelist" ≠ ""
    · rw [if_pos hlists, if_pos hlists]
    · have hgeneric : designKind w = .ok .GENERIC_RTL := hkeeps.resolve_right hlists
      obtain rfl : kind = .GENERIC_RTL := by
        rw [hkind] at hgeneric
        exact Except.ok.inj hgeneric
      have hinput : fieldText w' "input_filelist" = fieldText w "input_filelist" := by
        have hget : w'.get "input_filelist" = w.get "input_filelist" :=
          (hpersisted _ List.mem_cons_self).trans (@get_persist_input outputDir w .GENERIC_RTL)
        rw [fieldText, fieldText, Dict.textAt, Dict.textAt, Dict.getD, Dict.getD, hget]
      have hnamed := hunchanged.named hgeneric "input_filelist" (by simp)
      rw [if_neg hlists, if_neg hlists, hinput, hnamed]
  · intro hnil
    by_cases hgeneric : designKind w = .ok .GENERIC_RTL
    · exact hunchanged.named hgeneric "origin_verilog" (by simp)
    · -- a list that is given is read, so there is an input
      have hlists := hkeeps.resolve_left hgeneric
      unfold filelistInputs at hnil
      simp only [if_pos hlists] at hnil
      rcases hlists with hcpu | hsoc
      · simp [hcpu] at hnil
      · by_cases hcpu : fieldText w "cpu_filelist" = "" <;> simp [hcpu, hsoc] at hnil

/-! ### A run on the merged filelist -/

theorem absText_merged (hnames : ∀ part ∈ outputDir, IsName part) :
    PurePath.ofText (PurePath.absText (mergedFilelistPath outputDir)) =
      ⟨true, mergedFilelistPath outputDir⟩ := by
  refine ofText_absText fun part hpart => ?_
  rcases List.mem_append.mp hpart with hpart | hpart
  · exact hnames part hpart
  · rw [List.mem_singleton.mp hpart]
    decide

theorem no_nul_merged (hnul : ∀ part ∈ outputDir, '\x00' ∉ part.toList) :
    '\x00' ∉ (PurePath.absText (mergedFilelistPath outputDir)).toList := by
  rw [toList_absText, List.mem_cons, not_or]
  refine ⟨by decide, fun hmem => ?_⟩
  rcases mem_intercalate hmem with hslash | ⟨word, hword, hchar⟩
  · revert hslash
    decide
  obtain ⟨part, hpart, rfl⟩ := List.mem_map.mp hword
  rcases List.mem_append.mp hpart with hpart | hpart
  · exact hnul part hpart hchar
  · rw [List.mem_singleton.mp hpart] at hchar
    revert hchar
    decide

theorem strip_merged (outputDir : AbsPath) :
    strip (PurePath.absText (mergedFilelistPath outputDir)) =
      PurePath.absText (mergedFilelistPath outputDir) := by
  have hlast : (PurePath.absText (mergedFilelistPath outputDir)).toList.getLast? = some 'f' := by
    obtain ⟨init, hinit⟩ : "merged_rtl.f".toList <:+
        (PurePath.absText (mergedFilelistPath outputDir)).toList := by
      rw [toList_absText, mergedFilelistPath, List.map_append]
      exact (suffix_intercalate_concat _ _ _).trans (List.suffix_cons _ _)
    rw [← hinit, List.getLast?_append_of_ne_nil _ (by decide)]
    decide
  rw [strip, stripBy_eq_self (by rw [head_absText]; decide) (by rw [hlast]; decide),
    String.ofList_toList]

/-- The second run reads the merged filelist and nothing else. -/
theorem inputGroups_merged (hnot : ¬KeepsInputs w) {c : Collected} {top : TopContract}
    (hoverwritten : Persisted (.of env outputDir w c .CPU_CORE top) w')
    (hread : fs.readBytes (mergedFilelistPath outputDir) ≠ none)
    (hnames : ∀ part ∈ outputDir, IsName part)
    (hnul : ∀ part ∈ outputDir, '\x00' ∉ part.toList) :
    inputGroups (env.withFs fs) homeless w' =
      [("input_filelist", PurePath.absText (mergedFilelistPath outputDir))].mapM
        fun input => addFilelist (env.withFs fs) homeless w' input.1 input.2 := by
  have hfields := hoverwritten.sameFields
  rw [KeepsInputs, not_or, not_or, not_not, not_not] at hnot
  have hinput : fieldText w' "input_filelist" =
      PurePath.absText (mergedFilelistPath outputDir) := by
    have hget : w'.get "input_filelist" =
        some (.str (PurePath.absText (mergedFilelistPath outputDir))) :=
      (hoverwritten _ List.mem_cons_self).trans (@get_persist_input outputDir w .CPU_CORE)
    rw [fieldText, Dict.textAt, Dict.getD, hget]
    exact strip_merged outputDir
  have hexists : textExists (env.withFs fs) (PurePath.absText (mergedFilelistPath outputDir)) =
      true := by
    obtain ⟨bytes, hbytes⟩ := Option.ne_none_iff_exists'.mp hread
    have hfile : (env.withFs fs).fs.exists? ((env.withFs fs).fs.realpath
        (mergedFilelistPath outputDir)) = true := by
      rw [FileSystem.exists?, FileSystem.node_realpath, ← FileSystem.exists?]
      exact FileSystem.exists_of_readBytes hbytes
    have hne : PurePath.absText (mergedFilelistPath outputDir) ≠ "" := fun hnil =>
      absText_ne_nil _ (by rw [hnil]; rfl)
    have hplain := no_nul_merged hnul
    rw [textExists, absText_merged hnames, Host.resolve_absolute, hfile]
    simp [hne, hplain]
  have hlist : filelistInputs (env.withFs fs) w' =
      [("input_filelist", PurePath.absText (mergedFilelistPath outputDir))] := by
    unfold filelistInputs
    simp only [hfields.fieldText (show "cpu_filelist" ∈ readFields by decide),
      hfields.fieldText (show "soc_filelist" ∈ readFields by decide), hnot.2.1, hnot.2.2, hinput,
      hexists, ne_eq, not_true_eq_false, or_self, if_false, if_true]
  rw [inputGroups, hlist]

/-- The path of the merged filelist resolves. -/
theorem resolvePath_merged (hnames : ∀ part ∈ outputDir, IsName part)
    (hnul : ∀ part ∈ outputDir, '\x00' ∉ part.toList) :
    resolvePath env homeless (PurePath.absText (mergedFilelistPath outputDir)) =
      .ok (env.fs.realpath (mergedFilelistPath outputDir)) := by
  have htilde : tildeUser? (PurePath.absText (mergedFilelistPath outputDir)) = none := by
    rw [tildeUser?, absText_merged hnames]
  have hplain := no_nul_merged hnul
  have hresolve : env.host.resolveText (PurePath.absText (mergedFilelistPath outputDir)) =
      env.fs.realpath (mergedFilelistPath outputDir) := by
    rw [Host.resolveText, absText_merged hnames]
    rfl
  rw [resolvePath, htilde, hresolve]
  simp [hplain]

/-- A path that has an owner without a group has one in the group of the input filelist. -/
theorem classified_input {label : String} {p : AbsPath} {answer : AbsPath × String}
    (h : classified env homeless w label p = .ok answer) :
    ∃ owner, classified env homeless w "input_filelist" p = .ok (p, owner) := by
  have hclass : ∃ owner, classifyRtlSource env homeless (PurePath.absText p) "input_filelist" w =
      .ok owner := by
    have hok := (classified_eq_ok.mp h).1
    unfold classifyRtlSource at hok ⊢
    dsimp only at hok ⊢
    split
    · exact ⟨_, rfl⟩
    rename_i htext
    rw [if_neg htext] at hok
    cases hpath : resolvePath env homeless (strip (PurePath.absText p)) with
    | error e =>
      rw [hpath] at hok
      cases hok
    | ok path =>
      cases hkind : designKind w with
      | error e =>
        rw [hpath, hkind] at hok
        cases hok
      | ok kind =>
        have hgroup : lower (strip "input_filelist") = "input_filelist" := by decide
        cases howner : toolOwner? env path with
        | some owner => exact ⟨owner, by simp [bind, Except.bind, howner, hgroup, pure, Except.pure]⟩
        | none =>
          cases kind with
          | GENERIC_RTL =>
            exact ⟨"design", by simp [bind, Except.bind, howner, hgroup, pure, Except.pure]⟩
          | CPU_CORE =>
            exact ⟨"cpu", by simp [bind, Except.bind, howner, hgroup, pure, Except.pure]⟩
  obtain ⟨owner, howner⟩ := hclass
  exact ⟨owner, classified_eq_ok.mpr ⟨howner, rfl⟩⟩

theorem keptDefines_eq_nil {defines : List String} :
    keptDefines defines = [] ↔ ∀ text ∈ defines, keptDefines [text] = [] := by
  simp [keptDefines, List.filter_eq_nil_iff]

/-- No define is lost when there is none that the manifest keeps. -/
theorem manifestDefines_nil_iff {defines : List String} :
    manifestDefines w .CPU_CORE [] = manifestDefines w .CPU_CORE defines ↔
      ∀ text ∈ defines, requiresCustomDefine w = true ∧ keptDefines [text] = [] := by
  unfold manifestDefines injectCustomCpuTopDefine
  by_cases hcustom : requiresCustomDefine w = true
  · rw [if_pos hcustom, if_pos hcustom, List.append_left_inj, eq_comm]
    show keptDefines defines = [] ↔ _
    rw [keptDefines_eq_nil]
    simp only [hcustom, true_and]
  · rw [if_neg hcustom, if_neg hcustom]
    constructor
    · rintro rfl
      simp
    · intro hall
      cases defines with
      | nil => rfl
      | cons text rest => exact absurd (hall text List.mem_cons_self).1 hcustom

/-- The merged filelist is still what the step wrote. -/
theorem holds_merged {c : Collected} {kind : DesignKind} {top : TopContract}
    (hunchanged : Unchanged env fs outputDir w (.of env outputDir w c kind top)) :
    Holds (env.withFs fs) (fs.realpath (mergedFilelistPath outputDir)) (mergedLines c.rtlFiles) := by
  refine ⟨fs.realpath_idem _, ?_⟩
  show fs.readBytes (fs.realpath (mergedFilelistPath outputDir)) = _
  rw [FileSystem.readBytes, FileSystem.node_realpath, ← FileSystem.readBytes]
  exact hunchanged.merged

/-- The sources of a run that is unchanged still exist. -/
theorem existing_merged {c : Collected} {kind : DesignKind} {top : TopContract}
    (htree : env.fs.IsTree) (hcollect : collectInputs env homeless w = .ok c)
    (hunchanged : Unchanged env fs outputDir w (.of env outputDir w c kind top)) :
    ∀ p ∈ c.rtlFiles, Existing (env.withFs fs) p := by
  intro p hp
  obtain ⟨hreal, hexists⟩ := existing_of_isSource hcollect hp
  refine ⟨htree.names_of_exists hreal hexists, ?_, (hunchanged.sources p hp).2⟩
  exact (congrFun hunchanged.realpath p).trans hreal

/-- The owner of each source is found again. -/
theorem classified_again {c : Collected} {kind : DesignKind} {top : TopContract}
    (hcollect : collectInputs env homeless w = .ok c) (hfields : SameFields w w')
    (hunchanged : Unchanged env fs outputDir w (.of env outputDir w c kind top)) :
    ∀ p ∈ c.rtlFiles, ∃ answer, classified (env.withFs fs) homeless w' "" p = .ok answer := by
  obtain ⟨groups, sources, -, -, hsources, rfl⟩ := collectInputs_eq_ok.mp hcollect
  intro p hp
  obtain ⟨source, hsource⟩ := mapM_isOk.mp ⟨sources, hsources⟩ p hp
  rw [withFs_classified hunchanged.realpath hfields]
  unfold rtlSource at hsource
  cases hfallback : classified env homeless w "" p with
  | error e =>
    rw [hfallback] at hsource
    cases hsource
  | ok answer => exact ⟨answer, rfl⟩

theorem collectInputs_of_carriesOver {c : Collected} {top : TopContract} (htree : env.fs.IsTree)
    (houtput : ∀ part ∈ outputDir, IsName part ∧ '\x00' ∉ part.toList) (hnot : ¬KeepsInputs w)
    (hcarries : CarriesOver env fs homeless outputDir w)
    (hcollect : collectInputs env homeless w = .ok c)
    (hunchanged : Unchanged env fs outputDir w (.of env outputDir w c .CPU_CORE top))
    (hpersisted : Persisted (.of env outputDir w c .CPU_CORE top) w') :
    ∃ c', collectInputs (env.withFs fs) homeless w' = .ok c' ∧ c'.rtlFiles = c.rtlFiles ∧
      c'.incdirs = [] ∧ c'.defines = [] := by
  have hfields := hpersisted.sameFields
  have hnames := fun part hpart => (houtput part hpart).1
  have hnul := fun part hpart => (houtput part hpart).2
  have hexisting := existing_merged htree hcollect hunchanged
  have hagain := classified_again hcollect hfields hunchanged
  have hreal : fs.realpath (mergedFilelistPath outputDir) =
      env.fs.realpath (mergedFilelistPath outputDir) := congrFun hunchanged.realpath _
  have hsource : ∀ p ∈ c.rtlFiles, IsSource env homeless w p := fun p hp =>
    ((collected_iff hcollect).1 p).mp hp
  have hne : c.rtlFiles ≠ [] := by
    obtain ⟨_, _, -, hne, -, rfl⟩ := collectInputs_eq_ok.mp hcollect
    exact hne
  have hnodup : firstSeen c.rtlFiles = c.rtlFiles := by
    obtain ⟨_, _, -, -, -, rfl⟩ := collectInputs_eq_ok.mp hcollect
    exact firstSeen_of_nodup (nodup_firstSeen _)
  have hitems := svItems_merged_back (holds_merged hunchanged) hne
    (fun p hp => (hcarries.sources p (hsource p hp)).1) hexisting fun p hp => by
      rw [hreal]
      exact (backLine_iff (hexisting p hp)).mp (hcarries.sources p (hsource p hp)).2
  have hparse := parse_of_emits (holds_merged hunchanged).canonical hitems
  have hrtlFiles : Prepare.rtlFilesOf (c.rtlFiles.map SvEntry.rtl) = c.rtlFiles := by
    simp [Prepare.rtlFilesOf, List.filterMap_map]
  have hincdirs : incdirsOf (c.rtlFiles.map SvEntry.rtl) = [] := by
    simp [incdirsOf, List.filterMap_map]
  have hdefines : definesOf (c.rtlFiles.map SvEntry.rtl) = [] := by
    simp [definesOf, List.filterMap_map]
  obtain ⟨rtl, hrtl⟩ : ∃ rtl, c.rtlFiles.mapM
      (classified (env.withFs fs) homeless w' "input_filelist") = .ok rtl :=
    mapM_isOk.mpr fun p hp => by
      obtain ⟨answer, hanswer⟩ := hagain p hp
      obtain ⟨owner, howner⟩ := classified_input hanswer
      exact ⟨_, howner⟩
  have hgroup : addFilelist (env.withFs fs) homeless w' "input_filelist"
      (PurePath.absText (mergedFilelistPath outputDir)) =
        .ok ⟨"input_filelist", rtl, [], [], [fs.realpath (mergedFilelistPath outputDir)]⟩ :=
    addFilelist_eq_ok.mpr ⟨_, _, _, rtl, resolvePath_merged hnames hnul, hparse,
      by rw [hrtlFiles, hrtl], by rw [hincdirs, hdefines]⟩
  have hread : fs.readBytes (mergedFilelistPath outputDir) ≠ none := by
    rw [hunchanged.merged]
    simp
  have hgroups : inputGroups (env.withFs fs) homeless w' =
      .ok [⟨"input_filelist", rtl, [], [], [fs.realpath (mergedFilelistPath outputDir)]⟩] := by
    rw [inputGroups_merged hnot hpersisted hread hnames hnul, mapM_eq_ok]
    exact .cons hgroup .nil
  have hmerged : firstSeen (([InputGroup.mk "input_filelist" rtl [] []
      [fs.realpath (mergedFilelistPath outputDir)]].flatMap (·.rtl)).map (·.1)) = c.rtlFiles := by
    rw [List.flatMap_singleton, map_fst_classified hrtl, hnodup]
  obtain ⟨sources, hsources⟩ : ∃ sources, c.rtlFiles.mapM (rtlSource (env.withFs fs) homeless w'
      [⟨"input_filelist", rtl, [], [], [fs.realpath (mergedFilelistPath outputDir)]⟩]) =
        .ok sources :=
    mapM_isOk.mpr fun p hp => by
      obtain ⟨answer, hanswer⟩ := hagain p hp
      unfold rtlSource
      rw [hanswer]
      exact ⟨_, rfl⟩
  refine ⟨_, collectInputs_eq_ok.mpr ⟨_, sources, hgroups, by rw [hmerged]; exact hne,
    by rw [hmerged]; exact hsources, rfl⟩, hmerged, rfl, rfl⟩

/-- A second run with the same inputs shows that bare lines carry them. -/
theorem carriesOver_of_collect {c c' : Collected} {top : TopContract} (htree : env.fs.IsTree)
    (houtput : ∀ part ∈ outputDir, IsName part ∧ '\x00' ∉ part.toList) (hnot : ¬KeepsInputs w)
    (hlines : ∀ p ∈ c.rtlFiles, OneLine (PurePath.absText p).toList)
    (hcollect : collectInputs env homeless w = .ok c)
    (hunchanged : Unchanged env fs outputDir w (.of env outputDir w c .CPU_CORE top))
    (hpersisted : Persisted (.of env outputDir w c .CPU_CORE top) w')
    (hcollect' : collectInputs (env.withFs fs) homeless w' = .ok c')
    (hrtl : c'.rtlFiles = c.rtlFiles) (hincdirs : c'.incdirs = c.incdirs)
    (hdefines : manifestDefines w .CPU_CORE c'.defines = manifestDefines w .CPU_CORE c.defines) :
    CarriesOver env fs homeless outputDir w := by
  have hnames := fun part hpart => (houtput part hpart).1
  have hnul := fun part hpart => (houtput part hpart).2
  have hexisting := existing_merged htree hcollect hunchanged
  have hreal : fs.realpath (mergedFilelistPath outputDir) =
      env.fs.realpath (mergedFilelistPath outputDir) := congrFun hunchanged.realpath _
  have hread : fs.readBytes (mergedFilelistPath outputDir) ≠ none := by
    rw [hunchanged.merged]
    simp
  have hne : c.rtlFiles ≠ [] := by
    obtain ⟨_, _, -, hne, -, rfl⟩ := collectInputs_eq_ok.mp hcollect
    exact hne
  obtain ⟨groups, sources, hgroups, -, -, rfl⟩ := collectInputs_eq_ok.mp hcollect'
  rw [inputGroups_merged hnot hpersisted hread hnames hnul, mapM_eq_ok] at hgroups
  cases hgroups with
  | cons hgroup hrest =>
    cases hrest
    obtain ⟨root, entries, opened, rtl, hroot, hparse, hclass, rfl⟩ := addFilelist_eq_ok.mp hgroup
    rw [resolvePath_merged hnames hnul] at hroot
    cases hroot
    have hfail := no_fail_of_parse (holds_merged hunchanged).canonical hparse
    have hitems := svItems_merged_emits (holds_merged hunchanged) hne hlines hexisting hfail
    have hanswer := (parse_of_emits (holds_merged hunchanged).canonical hitems).symm.trans hparse
    cases hanswer
    obtain ⟨hnoIncdir, hnoDefine⟩ := @of_lineEntries (env.withFs fs)
      (fs.realpath (mergedFilelistPath outputDir)).parent c.rtlFiles
    have hfirst : firstSeen (Prepare.rtlFilesOf (c.rtlFiles.flatMap (lineEntries (env.withFs fs)
        (fs.realpath (mergedFilelistPath outputDir)).parent))) = c.rtlFiles := by
      rw [← map_fst_classified hclass]
      refine Eq.trans ?_ hrtl
      simp [Collected.of]
    have hincdirsNil : c.incdirs = [] := by
      refine hincdirs.symm.trans ?_
      simp [Collected.of, hnoIncdir, firstSeen]
    have hdefinesNil : manifestDefines w .CPU_CORE [] = manifestDefines w .CPU_CORE c.defines := by
      refine Eq.trans ?_ hdefines
      simp [Collected.of, hnoDefine, firstSeen]
    obtain ⟨hsource, hincdir, hdefine⟩ := collected_iff hcollect
    refine ⟨fun dir hdir => ?_, fun text htext => ?_, fun p hp => ?_⟩
    · have hmem := (hincdir dir).mpr hdir
      rw [hincdirsNil] at hmem
      cases hmem
    · exact manifestDefines_nil_iff.mp hdefinesNil text ((hdefine text).mpr htext)
    · have hmem := (hsource p).mpr hp
      refine ⟨hlines p hmem, ?_⟩
      rw [← hreal]
      exact (backLine_iff (hexisting p hmem)).mpr (lineEntries_of_firstSeen hfirst p hmem)

/-- A second run gives the inputs of the first one when the step keeps its inputs or bare lines
carry them, and only then when no path of a source has a line break. -/
theorem prepare_again_iff (h : Rerun env fs homeless outputDir w w' first) :
    (KeepsInputs w ∨ CarriesOver env fs homeless outputDir w →
        RunsAlike env fs homeless outputDir w' first) ∧
      ((∀ p ∈ first.prepared.rtlFiles, OneLine (PurePath.absText p).toList) →
        RunsAlike env fs homeless outputDir w' first →
          KeepsInputs w ∨ CarriesOver env fs homeless outputDir w) := by
  obtain ⟨hran, htree, houtput, hunchanged, hpersisted⟩ := h
  obtain ⟨c, kind, top, hcollect, hkind, htop, rfl⟩ := prepare_eq_ok.mp hran
  have hfields := hpersisted.sameFields
  have hread : ∀ p ∈ c.rtlFiles, fs.readBytes p = env.fs.readBytes p := fun p hp =>
    (hunchanged.sources p hp).1
  have hcpu : ¬KeepsInputs w → kind = .CPU_CORE := by
    intro hnot
    cases kind with
    | CPU_CORE => rfl
    | GENERIC_RTL => exact absurd (.inl hkind) hnot
  constructor
  · intro hcond
    by_cases hkeeps : KeepsInputs w
    · exact runsAlike_of_collect hfields hkind htop hread
        (collectInputs_of_keepsInputs hkeeps hkind hcollect hunchanged hpersisted) rfl rfl rfl
    · obtain rfl := hcpu hkeeps
      have hcarries := hcond.resolve_left hkeeps
      obtain ⟨-, hincdir, hdefine⟩ := collected_iff hcollect
      obtain ⟨c', hcollect', hrtl, hincdirs, hdefines⟩ := collectInputs_of_carriesOver htree houtput
        hkeeps hcarries hcollect hunchanged hpersisted
      refine runsAlike_of_collect hfields hkind htop hread hcollect' hrtl ?_ ?_
      · rw [hincdirs, eq_comm, List.eq_nil_iff_forall_not_mem]
        exact fun dir hdir => hcarries.noIncdir dir ((hincdir dir).mp hdir)
      · rw [hdefines]
        exact manifestDefines_nil_iff.mpr fun text htext =>
          hcarries.noDefine text ((hdefine text).mp htext)
  · rintro hlines ⟨second, hsecond, hrtl, hincdirs, hdefines⟩
    by_cases hkeeps : KeepsInputs w
    · exact .inl hkeeps
    · obtain rfl := hcpu hkeeps
      obtain ⟨c', kind', top', hcollect', hkind', -, rfl⟩ := prepare_eq_ok.mp hsecond
      obtain rfl : kind' = .CPU_CORE := by
        rw [hfields.designKind, hkind] at hkind'
        exact (Except.ok.inj hkind').symm
      rw [PrepareRun.of_defines, PrepareRun.of_defines, hfields.manifestDefines] at hdefines
      exact .inr (carriesOver_of_collect htree houtput hkeeps hlines hcollect hunchanged hpersisted
        hcollect' hrtl hincdirs hdefines)

end

/-! ### Two workspaces with one input filelist -/

/-- The files before the first run: a list and a source. -/
def listEnv (text : String) : Env :=
  .ofNodes [([], .directory), (["p"], .directory), (["p", "cpu.f"], .file (asciiBytes text) 0),
    (["p", "cpu.v"], .file [] 0)]

/-- The files after it. -/
def listFs (text : String) : FileSystem :=
  (listEnv text).fs.create ["ws", "merged_rtl.f"] (encode "/p/cpu.v\n".toList)

def listWorkspace : Workspace := [("input_filelist", .str "/p/cpu.f")]

/-- What the first run collects. -/
def listCollected (incdirs : List AbsPath) : Collected :=
  ⟨[["p", "cpu.v"]], [⟨["p", "cpu.v"], "cpu", "input_filelist"⟩], incdirs, [], [["p", "cpu.f"]]⟩

def listRun (text : String) (incdirs : List AbsPath) : PrepareRun :=
  .of (listEnv text) ["ws"] listWorkspace (listCollected incdirs) .CPU_CORE
    (.cpuTop ⟨"not_required", "", none, [], 0, none⟩)

theorem rerun_list {text : String} {incdirs : List AbsPath}
    {items : List (Item AbsPath SvEntry PrepareError)}
    (hcollect : collectInputs (listEnv text) (fun _ => false) listWorkspace =
      .ok (listCollected incdirs))
    (htree : (listEnv text).fs.IsTree)
    (hlist : svItems (listEnv text) ["p", "cpu.f"] = items)
    (hagain : svItems ((listEnv text).withFs (listFs text)) ["p", "cpu.f"] = items)
    (hread : (listFs text).readBytes ["p", "cpu.v"] = (listEnv text).fs.readBytes ["p", "cpu.v"])
    (hexists : (listFs text).exists? ["p", "cpu.v"] = true) :
    Rerun (listEnv text) (listFs text) (fun _ => false) ["ws"] listWorkspace
      (listRun text incdirs).workspace (listRun text incdirs) where
  ran := prepare_eq_ok.mpr ⟨_, .CPU_CORE, _, hcollect, by decide, rfl, rfl⟩
  tree := htree
  output := by decide
  unchanged :=
    { realpath := rfl
      filelists := fun x hx => by
        obtain rfl : x = ["p", "cpu.f"] := List.mem_singleton.mp hx
        exact hagain.trans hlist.symm
      named := fun hgeneric => absurd hgeneric (by decide)
      sources := fun p hp => by
        obtain rfl : p = ["p", "cpu.v"] := List.mem_singleton.mp hp
        exact ⟨hread, hexists⟩
      merged := FileSystem.readBytes_create }
  persisted := fun _ _ => rfl

/-- A bare list of plain names is prepared alike. -/
theorem prepare_again_plain :
    RunsAlike (listEnv "cpu.v\n") (listFs "cpu.v\n") (fun _ => false) ["ws"]
      (listRun "cpu.v\n" []).workspace (listRun "cpu.v\n" []) := by
  have hcollect : collectInputs (listEnv "cpu.v\n") (fun _ => false) listWorkspace =
      .ok (listCollected []) := by rfl
  have hlist : svItems (listEnv "cpu.v\n") ["p", "cpu.f"] = [.emit (.rtl ["p", "cpu.v"])] := by rfl
  have hagain : svItems ((listEnv "cpu.v\n").withFs (listFs "cpu.v\n")) ["p", "cpu.f"] =
      [.emit (.rtl ["p", "cpu.v"])] := by rfl
  have hrerun := rerun_list hcollect ⟨by decide, by decide⟩ hlist hagain (by decide) (by decide)
  obtain ⟨hsource, hincdir, hdefine⟩ := collected_iff hcollect
  refine (prepare_again_iff hrerun).1 (.inr ⟨fun dir hdir => ?_, fun text htext => ?_, ?_⟩)
  · exact absurd ((hincdir dir).mpr hdir) List.not_mem_nil
  · exact absurd ((hdefine text).mpr htext) List.not_mem_nil
  · intro p hp
    obtain rfl : p = ["p", "cpu.v"] := List.mem_singleton.mp ((hsource p).mpr hp)
    exact ⟨by unfold OneLine; decide, .inl ⟨by decide, by decide⟩⟩

/-- An include directory is lost. -/
theorem prepare_again_loses_incdir :
    Rerun (listEnv "+incdir+inc\ncpu.v\n") (listFs "+incdir+inc\ncpu.v\n") (fun _ => false) ["ws"]
        listWorkspace (listRun "+incdir+inc\ncpu.v\n" [["p", "inc"]]).workspace
        (listRun "+incdir+inc\ncpu.v\n" [["p", "inc"]]) ∧
      ¬RunsAlike (listEnv "+incdir+inc\ncpu.v\n") (listFs "+incdir+inc\ncpu.v\n") (fun _ => false)
        ["ws"] (listRun "+incdir+inc\ncpu.v\n" [["p", "inc"]]).workspace
        (listRun "+incdir+inc\ncpu.v\n" [["p", "inc"]]) := by
  have hcollect : collectInputs (listEnv "+incdir+inc\ncpu.v\n") (fun _ => false) listWorkspace =
      .ok (listCollected [["p", "inc"]]) := by rfl
  have hlist : svItems (listEnv "+incdir+inc\ncpu.v\n") ["p", "cpu.f"] =
      [.emit (.incdir ["p", "inc"]), .emit (.rtl ["p", "cpu.v"])] := by rfl
  have hagain : svItems ((listEnv "+incdir+inc\ncpu.v\n").withFs
      (listFs "+incdir+inc\ncpu.v\n")) ["p", "cpu.f"] =
        [.emit (.incdir ["p", "inc"]), .emit (.rtl ["p", "cpu.v"])] := by rfl
  refine ⟨rerun_list hcollect ⟨by decide, by decide⟩ hlist hagain (by decide) (by decide), ?_⟩
  rintro ⟨second, hrun, -, hincdirs, -⟩
  obtain ⟨c', _, _, hcollect', -, -, rfl⟩ := prepare_eq_ok.mp hrun
  have hsecond : collectInputs ((listEnv "+incdir+inc\ncpu.v\n").withFs
      (listFs "+incdir+inc\ncpu.v\n")) (fun _ => false)
      (listRun "+incdir+inc\ncpu.v\n" [["p", "inc"]]).workspace =
        .ok ⟨[["p", "cpu.v"]], [⟨["p", "cpu.v"], "cpu", "input_filelist"⟩], [], [],
          [["ws", "merged_rtl.f"]]⟩ := by rfl
  rw [hsecond] at hcollect'
  cases hcollect'
  have hlost : ([] : List AbsPath) = [["p", "inc"]] := hincdirs
  cases hlost

end Tools.Prepare

end EccFe
