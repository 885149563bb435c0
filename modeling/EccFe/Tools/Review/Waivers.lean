/-
EccFe.Tools.Review.Waivers — which issues one waiver entry reaches.

An entry waives every issue with its fingerprint. The fingerprint has the path of a source below
the directory of the CPU filelist, but only the bare name of a source that lies elsewhere: two
files of one name outside the directory are one file to it, and so are a file outside and the file
of its name directly in the directory (`fingerprint_ne_iff`).
-/
import EccFe.Engine.Signature
import EccFe.Python.TextFile
import EccFe.Tools.Review.Report

namespace EccFe.Tools.Review

open Python Engine RtlInputs RtlOwnership

/-! ## 1. Sources -/

section

variable (env : Env) (workspace : Workspace)

def cpuFilelist : String := strip (workspace.textAt "cpu_filelist")

def cpuDirectory : AbsPath := (env.host.resolve (.ofText (cpuFilelist workspace))).parent

/-- The file lies in the directory of the CPU filelist or below it. -/
def Inside (file : AbsPath) : Prop :=
  '\x00' ∉ (cpuFilelist workspace).toList ∧ cpuDirectory env workspace <+: file

/-- An issue about a file, as `Path(source).resolve()` finds it. -/
structure Located (issue : Dict) (file : AbsPath) : Prop where
  named : strip (issue.textAt "source") ≠ ""
  noNul : '\x00' ∉ (strip (issue.textAt "source")).toList
  resolves : env.host.resolve (.ofText (strip (issue.textAt "source"))) = file
  names : ∀ part ∈ file, IsName part

/-- The last part of the source as the issue spells it. -/
def spelledName (issue : Dict) : String := (PurePath.ofText (strip (issue.textAt "source"))).name

/-- Two files the fingerprint does not tell apart, as two issues spell them. -/
def SharesKey (a b : Dict) (fileA fileB : AbsPath) : Prop :=
  (¬Inside env workspace fileA ∧ ¬Inside env workspace fileB ∧ spelledName a = spelledName b) ∨
    (¬Inside env workspace fileA ∧ Inside env workspace fileB ∧
      fileB = cpuDirectory env workspace ++ [spelledName a]) ∨
    (Inside env workspace fileA ∧ ¬Inside env workspace fileB ∧
      fileA = cpuDirectory env workspace ++ [spelledName b])

/-- The two issues differ in a text or a number of the identity besides the source. -/
def DifferApart (a b : Dict) : Prop :=
  identityTexts a ≠ identityTexts b ∨ intAt a "line" ≠ intAt b "line"

end

section

variable {env : Env} {workspace : Workspace} {a b issue : Dict} {file fileA fileB : AbsPath}

/-- Without a CPU filelist the source stands for itself. -/
theorem sourceKey_blank (h : cpuFilelist workspace = "") (source : String) :
    sourceKey env workspace source = source := by
  unfold sourceKey
  exact if_pos (.inr h)

theorem sourceKey_inside (hlist : cpuFilelist workspace ≠ "") (hlocated : Located env issue file)
    (h : Inside env workspace file) :
    sourceKey env workspace (strip (issue.textAt "source")) =
      PurePath.text ⟨false, file.drop (cpuDirectory env workspace).length⟩ := by
  have hsource : (strip (issue.textAt "source")).toList.contains '\x00' = false := by
    simpa using hlocated.noNul
  have hfilelist : (cpuFilelist workspace).toList.contains '\x00' = false := by
    simpa using h.1
  have hprefix : (cpuDirectory env workspace).isPrefixOf file = true := List.isPrefixOf_iff_prefix.mpr h.2
  unfold sourceKey
  dsimp only
  rw [← cpuFilelist, if_neg (not_or.mpr ⟨hlocated.named, hlist⟩), hsource, hfilelist, hlocated.resolves,
    ← cpuDirectory, relativePosix, if_pos hprefix, Bool.or_self, if_neg Bool.false_ne_true,
    Option.getD_some]

theorem sourceKey_outside (hlist : cpuFilelist workspace ≠ "") (hlocated : Located env issue file)
    (h : ¬Inside env workspace file) :
    sourceKey env workspace (strip (issue.textAt "source")) = spelledName issue := by
  have hsource : (strip (issue.textAt "source")).toList.contains '\x00' = false := by
    simpa using hlocated.noNul
  unfold sourceKey
  dsimp only
  rw [← cpuFilelist, if_neg (not_or.mpr ⟨hlocated.named, hlist⟩), hsource, hlocated.resolves,
    ← cpuDirectory, Bool.false_or]
  by_cases hnul : (cpuFilelist workspace).toList.contains '\x00' = true
  · rw [if_pos hnul, Option.getD_none, spelledName]
  · have hprefix : (cpuDirectory env workspace).isPrefixOf file = false := by
      rw [Bool.eq_false_iff]
      exact fun hp => h ⟨by simpa using hnul, List.isPrefixOf_iff_prefix.mp hp⟩
    rw [if_neg hnul, relativePosix, hprefix, if_neg Bool.false_ne_true, Option.getD_none, spelledName]

/-- The text of a relative path, read back. -/
theorem text_inj {p q : List String} (hp : ∀ part ∈ p, IsName part) (hq : ∀ part ∈ q, IsName part) :
    PurePath.text ⟨false, p⟩ = PurePath.text ⟨false, q⟩ ↔ p = q := by
  constructor
  · intro h
    have hread := congrArg PurePath.ofText h
    rw [ofText_text hp, ofText_text hq] at hread
    exact congrArg PurePath.parts hread
  · exact fun h => by rw [h]

/-- A bare name is the text of a path that has no other part. -/
theorem name_eq_text_iff (source : String) {p : List String} (hp : ∀ part ∈ p, IsName part) :
    (PurePath.ofText source).name = PurePath.text ⟨false, p⟩ ↔ p = [(PurePath.ofText source).name] := by
  have hnames : ∀ part ∈ (PurePath.ofText source).parts, IsName part := fun part => isName_of_mem_parts
  rw [PurePath.name]
  cases hlast : (PurePath.ofText source).parts.getLast? with
  | none =>
    have hne : PurePath.text ⟨false, p⟩ ≠ "" := by
      intro hempty
      have hread := ofText_text hp (p := ⟨false, p⟩)
      rw [hempty] at hread
      have hnil : p = [] := congrArg PurePath.parts hread.symm
      rw [hnil] at hempty
      revert hempty
      decide
    constructor
    · exact fun h => absurd h.symm hne
    · intro h
      exact absurd rfl (hp "" (by rw [h]; exact List.mem_singleton_self _)).nonempty
  | some name =>
    have hname : IsName name := hnames name (List.mem_of_getLast? hlast)
    have hsingle : PurePath.text ⟨false, [name]⟩ = name := rfl
    rw [Option.getD_some, ← hsingle, text_inj (by simpa using hname) hp, hsingle]
    exact eq_comm

theorem drop_eq_iff {directory : AbsPath} (h : directory <+: file) {rest : List String} :
    file.drop directory.length = rest ↔ file = directory ++ rest := by
  obtain ⟨tail, rfl⟩ := h
  simp

theorem Inside.drop_names (hlocated : Located env issue file) {n : Nat} : ∀ part ∈ file.drop n, IsName part :=
  fun part hpart => hlocated.names part (List.mem_of_mem_drop hpart)

/-- Two sources stand for the same exactly when the files share their key. -/
theorem sourceKey_eq_iff (hlist : cpuFilelist workspace ≠ "") (ha : Located env a fileA)
    (hb : Located env b fileB) (hne : fileA ≠ fileB) :
    sourceKey env workspace (strip (a.textAt "source")) =
        sourceKey env workspace (strip (b.textAt "source")) ↔
      SharesKey env workspace a b fileA fileB := by
  unfold SharesKey
  by_cases hinA : Inside env workspace fileA
  · rw [sourceKey_inside hlist ha hinA]
    by_cases hinB : Inside env workspace fileB
    · rw [sourceKey_inside hlist hb hinB, text_inj (Inside.drop_names ha) (Inside.drop_names hb)]
      have hdiffer : fileA.drop (cpuDirectory env workspace).length ≠
          fileB.drop (cpuDirectory env workspace).length := by
        intro h
        rw [drop_eq_iff hinA.2, ← (drop_eq_iff hinB.2).mp rfl] at h
        exact hne h
      simp [hdiffer, hinA, hinB]
    · rw [sourceKey_outside hlist hb hinB, eq_comm, spelledName,
        name_eq_text_iff _ (Inside.drop_names ha), drop_eq_iff hinA.2, ← spelledName]
      simp [hinA, hinB]
  · rw [sourceKey_outside hlist ha hinA]
    by_cases hinB : Inside env workspace fileB
    · rw [sourceKey_inside hlist hb hinB, spelledName, name_eq_text_iff _ (Inside.drop_names hb),
        drop_eq_iff hinB.2, ← spelledName]
      simp [hinA, hinB]
    · rw [sourceKey_outside hlist hb hinB]
      simp [hinA, hinB]

theorem nodup_identity (issue : Dict) (source line : Json) :
    (identityTexts issue ++ [("source", source), ("line", line)]).keys.Nodup :=
  (by decide : ["origin", "severity", "category", "title", "source", "line"].Nodup)

theorem text_of_sortKeys {s t : String} (h : (some (Json.str s)).map sortKeys = (some (.str t)).map sortKeys) :
    s = t := by
  simpa [sortKeys] using h

/-- Without collisions a fingerprint is the identity under it. -/
theorem fingerprint_eq_iff (hinj : env.CollisionFree) {fingerprintA fingerprintB : String}
    (ha : issueFingerprint env workspace a = some fingerprintA)
    (hb : issueFingerprint env workspace b = some fingerprintB) :
    fingerprintA = fingerprintB ↔ ¬DifferApart a b ∧
      sourceKey env workspace (strip (a.textAt "source")) =
        sourceKey env workspace (strip (b.textAt "source")) := by
  obtain ⟨identityA, hidentityA, rfl⟩ := Option.map_eq_some_iff.mp ha
  obtain ⟨identityB, hidentityB, rfl⟩ := Option.map_eq_some_iff.mp hb
  obtain ⟨lineA, hlineA, rfl⟩ := Option.map_eq_some_iff.mp hidentityA
  obtain ⟨lineB, hlineB, rfl⟩ := Option.map_eq_some_iff.mp hidentityB
  rw [stableFingerprint_eq_iff hinj rfl, DifferApart, hlineA, hlineB]
  constructor
  · intro h
    have hget := get_of_sortKeys_eq (nodup_identity a _ _) (nodup_identity b _ _) h
    have horigin : a.textAt "origin" = b.textAt "origin" := text_of_sortKeys (hget "origin")
    have hseverity : a.textAt "severity" = b.textAt "severity" := text_of_sortKeys (hget "severity")
    have hcategory : a.textAt "category" = b.textAt "category" := text_of_sortKeys (hget "category")
    have htitle : a.textAt "title" = b.textAt "title" := text_of_sortKeys (hget "title")
    have hsource : sourceKey env workspace (strip (a.textAt "source")) =
        sourceKey env workspace (strip (b.textAt "source")) := text_of_sortKeys (hget "source")
    have hline : lineA = lineB := by simpa [Dict.get, identityTexts, sortKeys] using hget "line"
    refine ⟨not_or.mpr ⟨not_not.mpr ?_, not_not.mpr (congrArg some hline)⟩, hsource⟩
    simp only [identityTexts, List.map_cons, List.map_nil, horigin, hseverity, hcategory, htitle]
  · rintro ⟨hsame, hsource⟩
    rw [not_or, not_not, not_not] at hsame
    rw [hsame.1, Option.some.inj hsame.2, hsource]

/-! ## 2. Entries -/

/-- Issues in different files have different fingerprints exactly when no CPU filelist is set, or the
fingerprint tells the files apart, or the issues differ in something else it is made of. Then an entry
for the one does not waive the other. -/
theorem fingerprint_ne_iff (hinj : env.CollisionFree) {fingerprintA fingerprintB : String}
    (ha : issueFingerprint env workspace a = some fingerprintA)
    (hb : issueFingerprint env workspace b = some fingerprintB)
    (hfileA : Located env a fileA) (hfileB : Located env b fileB) (hne : fileA ≠ fileB) :
    (fingerprintA ≠ fingerprintB ↔
      cpuFilelist workspace = "" ∨ ¬SharesKey env workspace a b fileA fileB ∨ DifferApart a b) ∧
    ∀ (waivers : Json) (known : String → Bool) (issue : Dict), fingerprintA ≠ fingerprintB →
      (∀ fingerprint ∈ (validWaivers waivers).valid.keys, fingerprint = fingerprintA) →
      issue.textAt "fingerprint" = fingerprintB →
      isWaived (annotate known (validWaivers waivers).valid issue) = false := by
  constructor
  · rw [ne_eq, fingerprint_eq_iff hinj ha hb]
    by_cases hlist : cpuFilelist workspace = ""
    · have hsources : sourceKey env workspace (strip (a.textAt "source")) ≠
          sourceKey env workspace (strip (b.textAt "source")) := by
        rw [sourceKey_blank hlist, sourceKey_blank hlist]
        intro hsame
        rw [← hfileA.resolves, ← hfileB.resolves, hsame] at hne
        exact hne rfl
      exact ⟨fun _ => .inl hlist, fun _ hsame => hsources hsame.2⟩
    · rw [sourceKey_eq_iff hlist hfileA hfileB hne]
      simp only [hlist, false_or]
      rw [not_and_or, not_not, or_comm]
  · intro waivers known issue hdiffer hentries hissue
    rw [isWaived_annotate, hissue, Dict.has, Dict.get_eq_none_of_not_mem]
    · rfl
    · exact fun hmem => hdiffer (hentries _ hmem).symm

end

/-- A workspace whose filelist lies in `/p/cpu`. -/
def filelistWorkspace : Workspace := [("cpu_filelist", .str "/p/cpu/cpu.f")]

def issueAt (source : String) : Dict :=
  [("severity", .str "warning"), ("title", .str "t"), ("source", .str source), ("line", .int 3)]

/-- Two files of one name outside the directory of the filelist have one fingerprint. -/
theorem fingerprint_collides : ¬ ∀ (env : Env) (workspace : Workspace) (a b : Dict)
    (fileA fileB : AbsPath), env.CollisionFree → Located env a fileA → Located env b fileB →
    fileA ≠ fileB → issueFingerprint env workspace a ≠ issueFingerprint env workspace b := by
  intro hclaim
  have hlocated : ∀ dir ∈ ["a", "b"],
      Located (.ofNodes []) (issueAt ("/" ++ dir ++ "/alu.v")) [dir, "alu.v"] := by
    intro dir hdir
    simp only [List.mem_cons, List.not_mem_nil, or_false] at hdir
    rcases hdir with rfl | rfl <;> exact ⟨by decide, by decide, by decide, by decide⟩
  refine hclaim (.ofNodes []) filelistWorkspace (issueAt "/a/alu.v") (issueAt "/b/alu.v")
    ["a", "alu.v"] ["b", "alu.v"] (Env.ofNodes_collisionFree []) (hlocated "a" (by decide))
    (hlocated "b" (by decide)) (by decide) ?_
  decide +kernel

/-- Below that directory the fingerprints differ. -/
theorem fingerprint_ne_below : ∃ fingerprintA fingerprintB,
    issueFingerprint (.ofNodes []) filelistWorkspace (issueAt "/p/cpu/a/alu.v") = some fingerprintA ∧
    issueFingerprint (.ofNodes []) filelistWorkspace (issueAt "/p/cpu/b/alu.v") = some fingerprintB ∧
    fingerprintA ≠ fingerprintB := by
  have hreturns : ∀ dir ∈ ["a", "b"], (issueFingerprint (.ofNodes []) filelistWorkspace
      (issueAt ("/p/cpu/" ++ dir ++ "/alu.v"))).isSome = true := by decide +kernel
  obtain ⟨fingerprintA, ha⟩ := Option.isSome_iff_exists.mp (hreturns "a" (by decide))
  obtain ⟨fingerprintB, hb⟩ := Option.isSome_iff_exists.mp (hreturns "b" (by decide))
  have hinside : Inside (.ofNodes []) filelistWorkspace ["p", "cpu", "a", "alu.v"] :=
    ⟨by decide, ["a", "alu.v"], by decide⟩
  have hinside' : Inside (.ofNodes []) filelistWorkspace ["p", "cpu", "b", "alu.v"] :=
    ⟨by decide, ["b", "alu.v"], by decide⟩
  have hlocated : Located (.ofNodes []) (issueAt "/p/cpu/a/alu.v") ["p", "cpu", "a", "alu.v"] :=
    ⟨by decide, by decide, by decide, by decide⟩
  have hlocated' : Located (.ofNodes []) (issueAt "/p/cpu/b/alu.v") ["p", "cpu", "b", "alu.v"] :=
    ⟨by decide, by decide, by decide, by decide⟩
  refine ⟨fingerprintA, fingerprintB, ha, hb, ?_⟩
  refine (fingerprint_ne_iff (Env.ofNodes_collisionFree []) ha hb hlocated hlocated' (by decide)).1.mpr ?_
  exact .inr (.inl fun h => by simp [SharesKey, hinside, hinside'] at h)

end EccFe.Tools.Review
