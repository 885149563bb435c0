/-
EccFe.Tools.Verilator.Programs — the programs a simulation builds and the images it runs
(`fecompiler/tools/verilator/runner.py`).

Sources come from three lists: explicit paths, the files of the programs directory, and names. They
are told apart by their paths, and each is built under its stem. The image of a source is known by
the stem alone: `/a/t.c` and `/b/t.c` are built into one file, the second over the first, and one
case runs (`sources_share_image`).

The build script is a parameter. `WritesImages` is what is relied on: a build that succeeds leaves a
regular file under the output directory, named by the stem, and touches no other image.
-/
import EccFe.Tools.Verilator.SimCases
import Mathlib.Data.List.Perm.Subperm
import Mathlib.Data.List.Sort

namespace EccFe.Tools.Verilator

open Python Tools.RtlInputs

/-! ## 1. Paths -/

structure RunEnv where
  env : Env
  /-- `os.getenv("BUILD_WORKSPACE_DIRECTORY", "").strip()`. -/
  buildWorkspace : String

namespace RunEnv

variable (r : RunEnv)

abbrev fs : FileSystem := r.env.fs

def invocationRoot : AbsPath :=
  if r.buildWorkspace = "" then r.fs.realpath r.env.host.cwd
  else r.env.host.resolveText r.buildWorkspace

/-- `_resolve_path(path_text, base=base)`. -/
def resolveFrom (base : AbsPath) (text : String) : AbsPath :=
  r.fs.realpath (base.join (r.env.host.expanduser (.ofText text)))

def resolvePath (text : String) : AbsPath := r.resolveFrom r.invocationRoot text

/-- `str(workspace.get(key, "")).strip()`, resolved; `none` for an empty text. -/
def pathAt (workspace : Workspace) (key : String) : Option AbsPath :=
  let text := strip (workspace.textAt key)
  if text = "" then none else some (r.resolvePath text)

def workspaceSocRoot (workspace : Workspace) : Option AbsPath :=
  let explicit := (r.pathAt workspace "sim_soc_root").filter r.fs.exists?
  let filelist := ((r.pathAt workspace "soc_filelist").filter r.fs.exists?).map AbsPath.parent
  let candidate := r.invocationRoot ++ ["fecompiler", "thirdparty", "SoC"]
  explicit.or (filelist.or
    (if r.fs.exists? candidate then some (r.fs.realpath candidate) else none))

/-- A directory or file of the SoC, under the invocation root when there is no SoC. -/
def socPath (workspace : Workspace) (parts : List String) : AbsPath :=
  (r.workspaceSocRoot workspace).getD r.invocationRoot ++ parts

def socTestsOutDir (workspace : Workspace) : AbsPath :=
  (r.pathAt workspace "sim_tests_out_dir").getD (r.socPath workspace ["tests", "out"])

def programsDir (workspace : Workspace) : AbsPath :=
  (r.pathAt workspace "sim_programs_dir").getD (r.socPath workspace ["tests", "programs"])

def buildTestScript (workspace : Workspace) : AbsPath :=
  (r.pathAt workspace "sim_build_test_script").getD
    (r.socPath workspace ["scripts", "build_test.sh"])

/-- `sorted(dir.glob("*" + suffix))`. -/
def sortedGlob (dir : AbsPath) (suffix : String) : List AbsPath :=
  (((r.env.listDir dir).filter fun name => endsWith name.toList suffix).insertionSort
    fun a b => a ≤ b).map fun name => dir ++ [name]

end RunEnv

variable (r : RunEnv)

/-! ## 2. Sources and images -/

/-- The paths not seen yet, in order. -/
def distinctPathsOf (paths : List AbsPath) : List AbsPath :=
  paths.foldl (fun seen path => if path ∈ seen then seen else seen ++ [path]) []

/-- `str(item).strip()` of the items of a list, empty ones left out. -/
def strippedItems (workspace : Workspace) (key : String) : List String :=
  ((workspace.getD key .null).items.map fun item => strip item.pyStr).filter (· ≠ "")

def stemOf (path : AbsPath) : String := (PurePath.mk true path).stem

def benchmarkProgramNames : List String := ["coremark"]

/-- The source of a program name; `none` for the `ValueError` of a name such as `.`. -/
def namedSource (workspace : Workspace) (name : String) : Option AbsPath :=
  let p := PurePath.ofText name
  let source := if p.suffix = ".c" then some p else p.withSuffix ".c"
  source.map fun p => r.resolveFrom (r.programsDir workspace) p.text

def programSourcesToBuild (workspace : Workspace) : Option (List AbsPath) :=
  let explicit := (strippedItems workspace "sim_program_sources").map r.resolvePath
  let all :=
    if (workspace.getD "sim_build_all_programs" .null).truthy then
      (r.sortedGlob (r.programsDir workspace) ".c").filter (stemOf · ∉ benchmarkProgramNames)
    else []
  ((strippedItems workspace "sim_program_names").mapM (namedSource r workspace)).map fun named =>
    distinctPathsOf (explicit ++ all ++ named)

/-- `_sim_images(workspace)`. A resolved path stands for its text. -/
def simImages (workspace : Workspace) : List AbsPath :=
  let listed := (strippedItems workspace "sim_images").map r.resolvePath
  let tests :=
    if (workspace.getD "sim_all_tests" .null).truthy then
      (r.sortedGlob ((r.pathAt workspace "sim_tests_dir").getD (r.socTestsOutDir workspace))
        ".soc.bin").map r.fs.realpath
    else []
  distinctPathsOf (listed ++ tests)

def imageFromRunArgs (args : List String) : String :=
  let image := optionValue args "--image"
  if image = "" then "" else PurePath.absText (r.resolvePath image)

def effectiveSimCases (images : List AbsPath) (runArgs : List String) : List SimCase :=
  let cases := simCasesFromImages r.env (images.map PurePath.absText) runArgs
  if cases ≠ [] then cases
  else
    let image := imageFromRunArgs r runArgs
    [{ name := if image = "" then "default" else baseName r.env image, image := image,
       args := runArgs }]

/-! ## 3. The build loop -/

/-- `_build_program_command(build_script, src, name, out_dir)`. A path stands for its text. -/
structure BuildCommand where
  buildScript : AbsPath
  src : AbsPath
  name : String
  outDir : AbsPath

/-- `subprocess.run(cmd)`: the file system after it and the return code; 1 for an `OSError`. -/
abbrev Run := FileSystem → BuildCommand → FileSystem × Int

/-- `out_dir` of a source: one directory for all, or one for each case. -/
def outDirOf (workspace : Workspace) (caseOutputRoot : Option AbsPath) (name : String) : AbsPath :=
  match r.pathAt workspace "sim_tests_out_dir", caseOutputRoot with
  | some dir, _ => dir
  | none, some root => caseDir root (safeCaseName r.env (name ++ ".soc"))
  | none, none => r.socTestsOutDir workspace

structure BuildState where
  fs : FileSystem
  images : List AbsPath
  ok : Bool

variable (run : Run) (workspace : Workspace) (caseOutputRoot : Option AbsPath)

/-- One turn of the loop of `_prepare_sim_images`. -/
def buildStep (st : BuildState) (src : AbsPath) : BuildState :=
  let name := stemOf src
  let outDir := outDirOf r workspace caseOutputRoot name
  let result := run st.fs ⟨r.buildTestScript workspace, src, name, outDir⟩
  let image := outDir ++ [name ++ ".soc.bin"]
  if result.2 = 0 ∧ result.1.exists? image = true then
    let canonical := result.1.realpath image
    { fs := result.1, ok := st.ok,
      images := if canonical ∈ st.images then st.images else st.images ++ [canonical] }
  else { fs := result.1, images := st.images, ok := false }

/-- `_prepare_sim_images(workspace, case_output_root=...)`; `none` when it raises. -/
def prepareSimImages : Option BuildState :=
  (programSourcesToBuild r workspace).map fun sources =>
    if sources = [] then { fs := r.fs, images := simImages r workspace, ok := true }
    else if r.fs.exists? (r.buildTestScript workspace) = false then
      { fs := r.fs, images := [], ok := false }
    else sources.foldl (buildStep r run workspace caseOutputRoot) ⟨r.fs, [], true⟩

/-! ## 4. What is relied on, and what is claimed -/

/-- The build script writes `image src` under `out_dir`, as a regular file named by the stem, and
leaves every other image as it is. Directories and links stay. -/
structure WritesImages (run : Run) (image : AbsPath → List UInt8) : Prop where
  links : ∀ fs cmd, (run fs cmd).1.realpath = fs.realpath
  entry : ∀ fs cmd, (run fs cmd).2 = 0 →
    fs.realpath (cmd.outDir ++ [cmd.name ++ ".soc.bin"]) =
      fs.realpath cmd.outDir ++ [cmd.name ++ ".soc.bin"]
  content : ∀ fs cmd, (run fs cmd).2 = 0 →
    (run fs cmd).1.readBytes (cmd.outDir ++ [cmd.name ++ ".soc.bin"]) =
      some (image (fs.realpath cmd.src))
  others : ∀ fs cmd dir name, name ≠ cmd.name →
    fs.realpath (dir ++ [name ++ ".soc.bin"]) = dir ++ [name ++ ".soc.bin"] →
    (run fs cmd).1.readBytes (dir ++ [name ++ ".soc.bin"]) =
      fs.readBytes (dir ++ [name ++ ".soc.bin"])

/-- The image of a program name. -/
def imageNamed (name : String) : AbsPath :=
  r.fs.realpath (outDirOf r workspace caseOutputRoot name) ++ [name ++ ".soc.bin"]

def imageOf (src : AbsPath) : AbsPath := imageNamed r workspace caseOutputRoot (stemOf src)

/-- Every source has a case and an image of its own, built from it. -/
structure EachHasItsCase (image : AbsPath → List UInt8) (sources : List AbsPath) (st : BuildState) :
    Prop where
  cased : ∀ s ∈ sources, ∃ c ∈ effectiveSimCases r st.images (simRunArgs workspace),
    c.image = PurePath.absText (imageOf r workspace caseOutputRoot s)
  built : ∀ s ∈ sources,
    st.fs.readBytes (imageOf r workspace caseOutputRoot s) = some (image (r.fs.realpath s))
  distinct : ∀ files : List AbsPath, files ⊆ sources → (files.map r.fs.realpath).Nodup →
    (files.map (imageOf r workspace caseOutputRoot)).Nodup ∧
      files.length ≤ (effectiveSimCases r st.images (simRunArgs workspace)).length

/-! ## 5. The loop -/

theorem imageOf_congr {s t : AbsPath} (h : stemOf s = stemOf t) :
    imageOf r workspace caseOutputRoot s = imageOf r workspace caseOutputRoot t := by
  rw [imageOf, imageOf, h]

theorem stemOf_eq_of_imageOf_eq {s t : AbsPath}
    (h : imageOf r workspace caseOutputRoot s = imageOf r workspace caseOutputRoot t) :
    stemOf s = stemOf t := by
  have hlast := congrArg List.getLast? h
  simp only [imageOf, imageNamed, List.getLast?_append, List.getLast?_singleton, Option.some_or,
    Option.some.injEq] at hlast
  simpa using hlast

theorem ok_of_ok_foldl : ∀ (sources : List AbsPath) (st : BuildState),
    (sources.foldl (buildStep r run workspace caseOutputRoot) st).ok = true → st.ok = true
  | [], _, h => h
  | src :: rest, st, h => by
      have hstep := ok_of_ok_foldl rest _ h
      unfold buildStep at hstep
      dsimp only at hstep
      split at hstep
      · exact hstep
      · cases hstep

/-- A turn that succeeds: the build left an image, and the image is listed. -/
theorem buildStep_of_ok {st : BuildState} {src : AbsPath}
    (hok : (buildStep r run workspace caseOutputRoot st src).ok = true) :
    let cmd : BuildCommand :=
      ⟨r.buildTestScript workspace, src, stemOf src, outDirOf r workspace caseOutputRoot (stemOf src)⟩
    (run st.fs cmd).2 = 0 ∧ (buildStep r run workspace caseOutputRoot st src).fs = (run st.fs cmd).1 ∧
      (run st.fs cmd).1.realpath (cmd.outDir ++ [cmd.name ++ ".soc.bin"]) ∈
        (buildStep r run workspace caseOutputRoot st src).images ∧
      st.images ⊆ (buildStep r run workspace caseOutputRoot st src).images := by
  unfold buildStep at hok ⊢
  dsimp only at hok ⊢
  split at hok
  · rename_i h
    rw [if_pos h]
    refine ⟨h.1, rfl, ?_⟩
    dsimp only
    split
    · rename_i hmem
      exact ⟨hmem, List.Subset.refl _⟩
    · exact ⟨List.mem_append_right _ List.mem_cons_self, List.subset_append_left _ _⟩
  · cases hok

/-- After some of the sources: each of them has its image, listed and built from it. -/
structure BuiltSoFar (image : AbsPath → List UInt8) (done : List AbsPath) (st : BuildState) : Prop where
  links : st.fs.realpath = r.fs.realpath
  listed : ∀ s ∈ done, imageOf r workspace caseOutputRoot s ∈ st.images
  entry : ∀ s ∈ done, r.fs.realpath (imageOf r workspace caseOutputRoot s) =
    imageOf r workspace caseOutputRoot s
  built : ∀ s ∈ done,
    st.fs.readBytes (imageOf r workspace caseOutputRoot s) = some (image (r.fs.realpath s))

theorem readBytes_realpath (fs : FileSystem) (p : AbsPath) :
    fs.readBytes (fs.realpath p) = fs.readBytes p := by
  rw [FileSystem.readBytes, FileSystem.readBytes, FileSystem.node_realpath]

variable {r run workspace caseOutputRoot} {image : AbsPath → List UInt8}

theorem builtSoFar_step (hscript : WritesImages run image) {done : List AbsPath} {st : BuildState}
    {src : AbsPath}
    (hfree : ∀ s ∈ done, r.fs.realpath s ≠ r.fs.realpath src → stemOf s ≠ stemOf src)
    (h : BuiltSoFar r workspace caseOutputRoot image done st)
    (hok : (buildStep r run workspace caseOutputRoot st src).ok = true) :
    BuiltSoFar r workspace caseOutputRoot image (done ++ [src])
      (buildStep r run workspace caseOutputRoot st src) := by
  obtain ⟨hrc, hfs, hlisted, hsub⟩ := buildStep_of_ok r run workspace caseOutputRoot hok
  have hlinks : (buildStep r run workspace caseOutputRoot st src).fs.realpath = r.fs.realpath := by
    rw [hfs, hscript.links, h.links]
  have hentry : r.fs.realpath (outDirOf r workspace caseOutputRoot (stemOf src) ++
      [stemOf src ++ ".soc.bin"]) = imageOf r workspace caseOutputRoot src := by
    have hentry := hscript.entry _ _ hrc
    dsimp only at hentry
    rw [h.links] at hentry
    exact hentry
  have hself : r.fs.realpath (imageOf r workspace caseOutputRoot src) =
      imageOf r workspace caseOutputRoot src := by
    rw [← hentry, r.fs.realpath_idem]
  have hcontent : (buildStep r run workspace caseOutputRoot st src).fs.readBytes
      (imageOf r workspace caseOutputRoot src) = some (image (r.fs.realpath src)) := by
    rw [← hentry, ← hlinks, readBytes_realpath, hfs, hscript.content _ _ hrc,
      hscript.links, h.links]
  have hothers : ∀ s ∈ done, stemOf s ≠ stemOf src →
      (buildStep r run workspace caseOutputRoot st src).fs.readBytes
        (imageOf r workspace caseOutputRoot s) = some (image (r.fs.realpath s)) := by
    intro s hs hstem
    rw [← h.built s hs, hfs]
    refine hscript.others _ _ _ _ hstem ?_
    rw [h.links]
    exact h.entry s hs
  refine ⟨hlinks, ?_, ?_, ?_⟩
  · intro s hs
    rcases List.mem_append.mp hs with hs | hs
    · exact hsub (h.listed s hs)
    · dsimp only at hlisted
      rw [hscript.links, h.links, hentry] at hlisted
      rw [List.mem_singleton.mp hs]
      exact hlisted
  · intro s hs
    rcases List.mem_append.mp hs with hs | hs
    · exact h.entry s hs
    · rw [List.mem_singleton.mp hs]
      exact hself
  · intro s hs
    rcases List.mem_append.mp hs with hs | hs
    · by_cases hstem : stemOf s = stemOf src
      · have hfile : r.fs.realpath s = r.fs.realpath src := by
          by_contra hne
          exact hfree s hs hne hstem
        rw [imageOf_congr r workspace caseOutputRoot hstem, hcontent, hfile]
      · exact hothers s hs hstem
    · rw [List.mem_singleton.mp hs]
      exact hcontent

theorem builtSoFar_foldl (hscript : WritesImages run image) : ∀ (rest done : List AbsPath)
    (st : BuildState),
    (∀ s ∈ done ++ rest, ∀ t ∈ done ++ rest,
      r.fs.realpath s ≠ r.fs.realpath t → stemOf s ≠ stemOf t) →
    BuiltSoFar r workspace caseOutputRoot image done st →
    (rest.foldl (buildStep r run workspace caseOutputRoot) st).ok = true →
    BuiltSoFar r workspace caseOutputRoot image (done ++ rest)
      (rest.foldl (buildStep r run workspace caseOutputRoot) st)
  | [], done, st, _, h, _ => by rwa [List.append_nil]
  | src :: rest, done, st, hfree, h, hok => by
      have hsplit : done ++ src :: rest = done ++ [src] ++ rest := by simp
      rw [hsplit] at hfree ⊢
      rw [List.foldl_cons] at hok ⊢
      refine builtSoFar_foldl hscript rest (done ++ [src]) _ hfree ?_ hok
      refine builtSoFar_step hscript ?_ h (ok_of_ok_foldl r run workspace caseOutputRoot rest _ hok)
      exact fun s hs => hfree s (by simp [hs]) src (by simp)

theorem effectiveSimCases_of_ne_nil (r : RunEnv) {images : List AbsPath} (hne : images ≠ [])
    (runArgs : List String) :
    (effectiveSimCases r images runArgs).map (·.image) = images.map PurePath.absText := by
  have hmap := map_image_simCasesFromImages r.env (images.map PurePath.absText) runArgs
  have hcases : simCasesFromImages r.env (images.map PurePath.absText) runArgs ≠ [] := by
    intro hnil
    rw [hnil] at hmap
    exact hne (List.map_eq_nil_iff.mp hmap.symm)
  rw [effectiveSimCases, if_pos hcases, hmap]

/-- The sources of a build have cases and images of their own exactly when different files have
different stems. -/
theorem sources_cased_iff (r : RunEnv) (run : Run) (workspace : Workspace)
    (caseOutputRoot : Option AbsPath) (image : AbsPath → List UInt8) (sources : List AbsPath)
    (st : BuildState) (hscript : WritesImages run image)
    (hsources : programSourcesToBuild r workspace = some sources)
    (hst : prepareSimImages r run workspace caseOutputRoot = some st) (hok : st.ok = true) :
    EachHasItsCase r workspace caseOutputRoot image sources st ↔
      ∀ s ∈ sources, ∀ t ∈ sources, r.fs.realpath s ≠ r.fs.realpath t → stemOf s ≠ stemOf t := by
  constructor
  · intro h s hs t ht hne hstem
    have hnodup := (h.distinct [s, t] (by simp [hs, ht]) (by simpa using hne)).1
    exact absurd (imageOf_congr r workspace caseOutputRoot hstem) (by simpa using hnodup)
  · intro hfree
    rw [prepareSimImages, hsources, Option.map_some, Option.some.injEq] at hst
    have hinjective : ∀ files ⊆ sources, (files.map r.fs.realpath).Nodup →
        (files.map (imageOf r workspace caseOutputRoot)).Nodup := by
      intro files hsub hnodup
      refine hnodup.of_map.map_on fun s hs t ht heq => ?_
      by_contra hne
      have hfiles : r.fs.realpath s ≠ r.fs.realpath t :=
        fun hreal => hne (List.inj_on_of_nodup_map hnodup hs ht hreal)
      exact hfree s (hsub hs) t (hsub ht) hfiles
        (stemOf_eq_of_imageOf_eq r workspace caseOutputRoot heq)
    by_cases hnil : sources = []
    · subst hnil
      refine ⟨by simp, by simp, fun files hsub hnodup => ⟨hinjective files hsub hnodup, ?_⟩⟩
      rw [List.subset_nil.mp hsub]
      exact Nat.zero_le _
    rw [if_neg hnil] at hst
    split at hst
    · rw [← hst] at hok
      cases hok
    · have hstart : BuiltSoFar r workspace caseOutputRoot image [] ⟨r.fs, [], true⟩ :=
        ⟨rfl, by simp, by simp, by simp⟩
      have hbuilt := builtSoFar_foldl hscript sources [] _ (by simpa using hfree) hstart
        (by rw [hst]; exact hok)
      rw [hst, List.nil_append] at hbuilt
      have hne : st.images ≠ [] := by
        obtain ⟨src, hsrc⟩ := List.exists_mem_of_ne_nil sources hnil
        exact List.ne_nil_of_mem (hbuilt.listed src hsrc)
      have hcases := effectiveSimCases_of_ne_nil r hne (simRunArgs workspace)
      refine ⟨fun s hs => ?_, hbuilt.built, fun files hsub hnodup =>
        ⟨hinjective files hsub hnodup, ?_⟩⟩
      · have hmem : PurePath.absText (imageOf r workspace caseOutputRoot s) ∈
            (effectiveSimCases r st.images (simRunArgs workspace)).map (·.image) := by
          rw [hcases]
          exact List.mem_map_of_mem (hbuilt.listed s hs)
        exact List.mem_map.mp hmem
      · have hlength := congrArg List.length hcases
        rw [List.length_map, List.length_map] at hlength
        rw [hlength, ← List.length_map (imageOf r workspace caseOutputRoot)]
        refine ((hinjective files hsub hnodup).subperm fun p hp => ?_).length_le
        obtain ⟨s, hs, rfl⟩ := List.mem_map.mp hp
        exact hbuilt.listed s (hsub hs)

/-! ## 6. A script that copies -/

/-- A build script whose image of a source is the text of its path. -/
def copyRun : Run := fun fs cmd =>
  let image := fs.realpath cmd.outDir ++ [cmd.name ++ ".soc.bin"]
  if fs.realpath (cmd.outDir ++ [cmd.name ++ ".soc.bin"]) = image then
    ({ fs with nodes :=
        (image, .file (asciiBytes (PurePath.absText (fs.realpath cmd.src))) 0) :: fs.nodes }, 0)
  else (fs, 1)

theorem copyRun_writesImages : WritesImages copyRun fun src => asciiBytes (PurePath.absText src) where
  links := by
    intro fs cmd
    unfold copyRun
    dsimp only
    split <;> rfl
  entry := by
    intro fs cmd h
    unfold copyRun at h
    dsimp only at h
    split at h
    · assumption
    · cases h
  content := by
    intro fs cmd h
    unfold copyRun at h ⊢
    dsimp only at h ⊢
    split at h
    · rename_i hentry
      rw [if_pos hentry, FileSystem.readBytes, FileSystem.node, hentry, FileSystem.lookup, if_pos rfl]
    · cases h
  others := by
    intro fs cmd dir name hname hcanonical
    unfold copyRun
    dsimp only
    split
    · have hne : ¬ fs.realpath cmd.outDir ++ [cmd.name ++ ".soc.bin"] = dir ++ [name ++ ".soc.bin"] := by
        intro heq
        have hlast := congrArg List.getLast? heq
        simp only [List.getLast?_append, List.getLast?_singleton, Option.some_or,
          Option.some.injEq] at hlast
        exact hname (by simpa using hlast.symm)
      rw [FileSystem.readBytes, FileSystem.node, hcanonical, FileSystem.lookup, if_neg hne,
        FileSystem.readBytes, FileSystem.node, hcanonical]
    · rfl

/-- A machine with two directories of programs and a build script. -/
def programsEnv : RunEnv where
  env := .ofNodes [(["a", "t.c"], .file [] 0), (["b", "t.c"], .file [] 0), (["b", "u.c"], .file [] 0),
    (["soc", "build_test.sh"], .file [] 0)]
  buildWorkspace := ""

def programsWorkspace (sources : List String) : Workspace :=
  [("sim_program_sources", .arr (sources.map .str)),
    ("sim_build_test_script", .str "/soc/build_test.sh")]

/-- The state after the build of `sources` under `/cases`. -/
def builtPrograms (sources : List AbsPath) (texts : List String) : BuildState :=
  sources.foldl (buildStep programsEnv copyRun (programsWorkspace texts) (some ["cases"]))
    ⟨programsEnv.fs, [], true⟩

theorem sources_cased_distinct_stems :
    EachHasItsCase programsEnv (programsWorkspace ["/a/t.c", "/b/u.c"]) (some ["cases"])
      (fun src => asciiBytes (PurePath.absText src)) [["a", "t.c"], ["b", "u.c"]]
      (builtPrograms [["a", "t.c"], ["b", "u.c"]] ["/a/t.c", "/b/u.c"]) :=
  have hsources : programSourcesToBuild programsEnv (programsWorkspace ["/a/t.c", "/b/u.c"]) =
      some [["a", "t.c"], ["b", "u.c"]] := by decide +kernel
  (sources_cased_iff programsEnv copyRun _ _ _ _ _ copyRun_writesImages hsources
    (by rw [prepareSimImages, hsources, Option.map_some, if_neg (by decide),
          if_neg (by decide +kernel)]
        rfl)
    (by decide +kernel)).mpr (by decide +kernel)

/-- `/a/t.c` and `/b/t.c` are both built, and one image is left for the two. -/
theorem sources_share_image :
    WritesImages copyRun (fun src => asciiBytes (PurePath.absText src)) ∧
      programSourcesToBuild programsEnv (programsWorkspace ["/a/t.c", "/b/t.c"]) =
        some [["a", "t.c"], ["b", "t.c"]] ∧
      ∃ st, prepareSimImages programsEnv copyRun (programsWorkspace ["/a/t.c", "/b/t.c"])
          (some ["cases"]) = some st ∧
        st.ok = true ∧
        ¬ EachHasItsCase programsEnv (programsWorkspace ["/a/t.c", "/b/t.c"]) (some ["cases"])
          (fun src => asciiBytes (PurePath.absText src)) [["a", "t.c"], ["b", "t.c"]] st := by
  have hsources : programSourcesToBuild programsEnv (programsWorkspace ["/a/t.c", "/b/t.c"]) =
      some [["a", "t.c"], ["b", "t.c"]] := by decide +kernel
  refine ⟨copyRun_writesImages, hsources,
    builtPrograms [["a", "t.c"], ["b", "t.c"]] ["/a/t.c", "/b/t.c"], ?_, by decide +kernel, ?_⟩
  · rw [prepareSimImages, hsources, Option.map_some, if_neg (by decide), if_neg (by decide +kernel)]
    rfl
  · intro h
    have hnodup := (h.distinct [["a", "t.c"], ["b", "t.c"]] (List.Subset.refl _) (by decide +kernel)).1
    exact absurd hnodup (by decide +kernel)

end EccFe.Tools.Verilator
