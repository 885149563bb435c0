/-
EccFe.Tools.Prepare.Expansion — what `PrepareStep._parse_sv_filelist` makes of filelists that
include each other.

The reader shares one set of visited filelists between all its calls. It returns on every file
system, and its answer is the textual expansion of the root: a filelist is expanded where it
occurs first, depth first, and contributes nothing where it occurs again.
-/
import EccFe.Search.Textual
import EccFe.Tools.Prepare.Generated

namespace EccFe.Tools.Prepare

open Python Search Resources

/-- The answer of `_parse_sv_filelist`. -/
structure SvFilelist where
  rtlFiles : List AbsPath
  incdirs : List AbsPath
  defines : List String
  deriving DecidableEq

/-- The entries of each kind, in their order. -/
def SvFilelist.ofEntries (entries : List SvEntry) : SvFilelist :=
  ⟨rtlFilesOf entries, incdirsOf entries, definesOf entries⟩

/-- `_parse_sv_filelist(filelist_path)`. -/
def svFilelist (env : Env) (filelistPath : String) : Except (ExpandError PrepareError) SvFilelist :=
  (parseSvFilelist env (env.host.resolveText filelistPath)).map fun (entries, _) =>
    SvFilelist.ofEntries entries

theorem mem_files_of_svItems {env : Env} {root x c : AbsPath} (hroot : env.fs.realpath root = root)
    (hx : Reaches (svItems env) root x) (hc : Includes (svItems env) x c) : x ∈ env.fs.files := by
  obtain ⟨bytes, -, hread, -⟩ := readBytes_of_includes hc
  rw [← realpath_of_reaches hroot hx]
  exact FileSystem.mem_files_of_readBytes hread

theorem parseSvFilelist_ne_tooDeep (env : Env) (root : AbsPath) :
    parseSvFilelist env root ≠ .error .tooDeep :=
  expandFrom_ne_tooDeep fun _ hx _ hc => mem_files_of_svItems (env.fs.realpath_idem root) hx hc

/-- The reader returns on every file system, and what it returns are the entries of the textual
expansion of the root. -/
theorem sv_filelist_expands (env : Env) (filelistPath : String) :
    svFilelist env filelistPath ≠ .error .tooDeep ∧
      ∀ answer, svFilelist env filelistPath = .ok answer →
        (∃ entries, Textual (svItems env) (env.host.resolveText filelistPath) entries) ∧
          ∀ entries, Textual (svItems env) (env.host.resolveText filelistPath) entries →
            answer = SvFilelist.ofEntries entries := by
  have hroot : env.fs.realpath (env.host.resolveText filelistPath) =
      env.host.resolveText filelistPath := env.host.realpath_resolve _
  unfold svFilelist
  constructor
  · cases hparse : parseSvFilelist env (env.host.resolveText filelistPath) with
    | ok result => simp [Except.map]
    | error e =>
      cases e with
      | tooDeep => exact absurd hparse (parseSvFilelist_ne_tooDeep env _)
      | raised e => simp [Except.map]
  · intro answer h
    cases hparse : parseSvFilelist env (env.host.resolveText filelistPath) with
    | error e =>
      rw [hparse] at h
      cases h
    | ok result =>
      obtain ⟨entries, opened⟩ := result
      rw [hparse] at h
      rw [parseSvFilelist, expandFrom, hroot] at hparse
      have htext := textual_of_expand hparse
      refine ⟨⟨entries, htext⟩, fun entries' htext' => ?_⟩
      rw [← htext.unique htext']
      exact (Except.ok.inj h).symm

/-- Two filelists that include each other, and one of them twice. -/
def cyclicFilelists : Env :=
  .ofNodes [(["w", "a.f"], .file (asciiBytes "-f b.f\na.v\n-f b.f\n") 0),
    (["w", "b.f"], .file (asciiBytes "b.v\n-f a.f\n+define+B\n") 0),
    (["w", "a.v"], .file [] 0), (["w", "b.v"], .file [] 0)]

example : (svFilelist cyclicFilelists "/w/a.f").toOption =
    some ⟨[["w", "b.v"], ["w", "a.v"]], [], ["B"]⟩ := by
  decide +kernel

end EccFe.Tools.Prepare
