/-
EccFe.Tools.Verilator.SimCases — the cases of a simulation and their names
(`fecompiler/tools/verilator/runner.py`).

A case is named after the stem of its image. The second image of a name gets `_2`, the third
`_3`. Logs, output directories and the tables of a regression go by the name, and nothing compares
a numbered name with the names that were never numbered: `a_2.bin` takes the name of the second
`a.bin` (`simCases_share_name`). No other two names meet (`caseNameOf_eq`).
-/
import Mathlib.Data.List.Nodup
import EccFe.Tools.Verilator.RunArgs

namespace EccFe.Tools.Verilator

open Python

variable (env : Env)

/-! ## 1. Names -/

/-- `ch.isalnum() or ch in ("-", "_", ".")`. -/
def isNameChar (c : Char) : Bool := env.isWord c || c == '-' || c == '.'

def isNameEdge (c : Char) : Bool := c == '.' || c == '_'

/-- `token` of `_safe_case_name`, after `strip("._")`. -/
def caseToken (name : String) : List Char :=
  stripBy isNameEdge (name.toList.map fun c => if isNameChar env c then c else '_')

def safeCaseName (name : String) : String :=
  if caseToken env name = [] then "case" else String.ofList (caseToken env name)

/-- `_safe_case_name(Path(image).stem)`. -/
def baseName (image : String) : String := safeCaseName env (PurePath.ofText image).stem

/-- The name of the image that finds `idx` images of its base name before it. -/
def caseNameOf (base : String) (idx : Nat) : String :=
  if idx = 0 then base else base ++ "_" ++ Nat.repr (idx + 1)

/-! ## 2. Cases -/

structure SimCase where
  name : String
  image : String
  args : List String
  deriving DecidableEq

/-- The loop of `_sim_cases_from_images`; `seen` is `seen.get(base_name, 0)`. -/
def simCasesFrom (baseArgs : List String) : (String → Nat) → List String → List SimCase
  | _, [] => []
  | seen, image :: rest =>
      let base := baseName env image
      { name := caseNameOf base (seen base), image := image,
        args := "--image" :: image :: baseArgs } ::
        simCasesFrom baseArgs (Function.update seen base (seen base + 1)) rest

def simCasesFromImages (images runArgs : List String) : List SimCase :=
  simCasesFrom env (stripOptionWithValue "--image" runArgs) (fun _ => 0) images

/-- `output_cases_root / case_name`. -/
def caseDir (root : AbsPath) (name : String) : AbsPath := root.join (.ofText name)

/-- `{str(item["name"]): item for item in cases}`. -/
def byName (cases : List SimCase) (name : String) : Option SimCase :=
  cases.reverse.find? (·.name = name)

/-- No two cases share a name, a directory or an entry of a table. -/
structure KeptApart (cases : List SimCase) : Prop where
  names : (cases.map (·.name)).Nodup
  dirs : ∀ root, (cases.map fun c => caseDir root c.name).Nodup
  table : ∀ c ∈ cases, byName cases c.name = some c

/-! ## 3. A name is one part of a path -/

theorem head_safeCaseName (name : String) : ∀ c ∈ (safeCaseName env name).toList.head?, c ≠ '.' := by
  intro c hc
  unfold safeCaseName at hc
  split at hc
  · have hcase : c = 'c' := by simpa using hc.symm
    rw [hcase]
    decide
  · rw [String.toList_ofList] at hc
    have hedge := head_stripBy c hc
    rintro rfl
    simp [isNameEdge] at hedge

theorem safeCaseName_ne_empty (name : String) : safeCaseName env name ≠ "" := by
  unfold safeCaseName
  split
  · decide
  · rename_i hne
    exact fun h => hne (by simpa using congrArg String.toList h)

theorem slash_not_mem_safeCaseName (name : String) : '/' ∉ (safeCaseName env name).toList := by
  unfold safeCaseName
  split
  · decide
  · rw [String.toList_ofList]
    intro hmem
    have hsub := ((List.rdropWhile_prefix isNameEdge _).sublist.trans
      (List.dropWhile_suffix isNameEdge).sublist).mem hmem
    obtain ⟨c, -, hc⟩ := List.mem_map.mp hsub
    split at hc
    · rename_i hname
      subst hc
      simp [isNameChar, Env.isWord] at hname
    · exact absurd hc (by decide)

theorem caseNameOf_toList (base : String) (idx : Nat) :
    ∃ tail, (caseNameOf base idx).toList = base.toList ++ tail ∧ '/' ∉ tail := by
  unfold caseNameOf
  split
  · exact ⟨[], by simp⟩
  · refine ⟨'_' :: Nat.toDigits 10 (idx + 1), by simp [Nat.repr], ?_⟩
    rw [List.mem_cons, not_or]
    refine ⟨by decide, fun hmem => ?_⟩
    exact absurd (Nat.isDigit_of_mem_toDigits (by decide) (by decide) hmem) (by decide)

theorem ofText_single {text : String} (hslash : '/' ∉ text.toList) (hne : text ≠ "")
    (hdot : text ≠ ".") : PurePath.ofText text = ⟨false, [text]⟩ := by
  have hsplit : splitOnChar '/' text.toList = [text.toList] := by
    have h : (['/'].intercalate [text.toList]).splitOn '/' = [text.toList] :=
      List.splitOn_intercalate '/' (by simpa using hslash) (by simp)
    simpa [splitOnChar, List.intercalate] using h
  have habs : (text.toList.head? == some '/') = false := by
    rw [beq_eq_false_iff_ne]
    exact fun h => hslash (List.mem_of_mem_head? h)
  unfold PurePath.ofText
  rw [hsplit, habs]
  simp [hne, hdot]

theorem caseDir_eq (root : AbsPath) (image : String) (idx : Nat) :
    caseDir root (caseNameOf (baseName env image) idx) =
      root ++ [caseNameOf (baseName env image) idx] := by
  obtain ⟨tail, htoList, htail⟩ := caseNameOf_toList (baseName env image) idx
  have hbase : (baseName env image).toList ≠ [] := by
    simpa [baseName] using safeCaseName_ne_empty env (PurePath.ofText image).stem
  have hslash : '/' ∉ (caseNameOf (baseName env image) idx).toList := by
    rw [htoList, List.mem_append, not_or]
    exact ⟨slash_not_mem_safeCaseName env _, htail⟩
  have hne : caseNameOf (baseName env image) idx ≠ "" := by
    intro h
    rw [h] at htoList
    exact hbase (List.append_eq_nil_iff.mp htoList.symm).1
  have hdot : caseNameOf (baseName env image) idx ≠ "." := by
    intro h
    rw [h] at htoList
    obtain ⟨c, rest, hcons⟩ := List.exists_cons_of_ne_nil hbase
    rw [hcons, List.cons_append] at htoList
    have hc : '.' = c := (List.cons.inj htoList).1
    exact head_safeCaseName env (PurePath.ofText image).stem c
      (by show c ∈ (baseName env image).toList.head?; rw [hcons]; rfl) hc.symm
  rw [caseDir, ofText_single hslash hne hdot]
  rfl

theorem caseDir_inj {root : AbsPath} {imageA imageB : String} {j k : Nat}
    (h : caseDir root (caseNameOf (baseName env imageA) j) =
      caseDir root (caseNameOf (baseName env imageB) k)) :
    caseNameOf (baseName env imageA) j = caseNameOf (baseName env imageB) k := by
  rw [caseDir_eq, caseDir_eq] at h
  exact (List.cons.inj (List.append_cancel_left h)).1

/-! ## 4. When two names meet -/

theorem numbered_inj {a b : String} {m n : Nat} (h : a ++ "_" ++ Nat.repr m = b ++ "_" ++ Nat.repr n) :
    a = b ∧ m = n := by
  have hlist : a.toList ++ '_' :: Nat.toDigits 10 m = b.toList ++ '_' :: Nat.toDigits 10 n := by
    simpa [Nat.repr] using congrArg String.toList h
  have hdigits : ∀ (cs : List Char) (k : Nat),
      (cs ++ '_' :: Nat.toDigits 10 k).reverse.takeWhile (· != '_') = (Nat.toDigits 10 k).reverse := by
    intro cs k
    rw [List.reverse_append, List.reverse_cons, List.append_assoc, List.takeWhile_append_of_pos]
    · simp
    · intro c hc
      rw [bne_iff_ne]
      rintro rfl
      exact Nat.underscore_not_in_toDigits (List.mem_reverse.mp hc)
  have heq : Nat.toDigits 10 m = Nat.toDigits 10 n := by
    rw [← List.reverse_inj, ← hdigits a.toList m, hlist, hdigits]
  constructor
  · rw [heq] at hlist
    exact String.toList_inj.mp (List.append_cancel_right hlist)
  · simpa [Nat.ofDigitChars_toDigits] using congrArg (fun ds => Nat.ofDigitChars 10 ds 0) heq

/-- Two different images have one name only where a numbered name is a base name. -/
theorem caseNameOf_eq {a b : String} {j k : Nat} (h : caseNameOf a j = caseNameOf b k) :
    (a = b ∧ j = k) ∨ (j = 0 ∧ k ≠ 0 ∧ a = b ++ "_" ++ Nat.repr (k + 1)) ∨
      (k = 0 ∧ j ≠ 0 ∧ b = a ++ "_" ++ Nat.repr (j + 1)) := by
  unfold caseNameOf at h
  by_cases hj : j = 0 <;> by_cases hk : k = 0
  · rw [if_pos hj, if_pos hk] at h
    exact .inl ⟨h, hj.trans hk.symm⟩
  · rw [if_pos hj, if_neg hk] at h
    exact .inr (.inl ⟨hj, hk, h⟩)
  · rw [if_neg hj, if_pos hk] at h
    exact .inr (.inr ⟨hk, hj, h.symm⟩)
  · rw [if_neg hj, if_neg hk] at h
    obtain ⟨hab, hjk⟩ := numbered_inj h
    exact .inl ⟨hab, by omega⟩

/-! ## 5. The loop -/

/-- Base name and number of every case. -/
def numbered : (String → Nat) → List String → List (String × Nat)
  | _, [] => []
  | seen, base :: rest => (base, seen base) :: numbered (Function.update seen base (seen base + 1)) rest

theorem mem_numbered {b : String} {k : Nat} : ∀ {seen : String → Nat} {bases : List String},
    (b, k) ∈ numbered seen bases ↔ seen b ≤ k ∧ k < seen b + bases.count b
  | seen, [] => by
      rw [numbered, List.count_nil]
      simp only [List.not_mem_nil, false_iff]
      omega
  | seen, base :: rest => by
      rw [numbered, List.mem_cons, mem_numbered, List.count_cons]
      by_cases hb : b = base
      · subst hb
        simp only [Function.update_self, Prod.mk.injEq, true_and, beq_self_eq_true, if_true]
        omega
      · rw [Function.update_of_ne hb, if_neg (by simpa using Ne.symm hb)]
        simp [hb]

theorem nodup_numbered : ∀ (seen : String → Nat) (bases : List String), (numbered seen bases).Nodup
  | _, [] => List.nodup_nil
  | seen, base :: rest => by
      rw [numbered, List.nodup_cons]
      refine ⟨fun hmem => ?_, nodup_numbered _ rest⟩
      rw [mem_numbered, Function.update_self] at hmem
      omega

theorem map_name_simCasesFrom (baseArgs : List String) {α : Type} (f : String → α) :
    ∀ (seen : String → Nat) (images : List String),
    (simCasesFrom env baseArgs seen images).map (fun c => f c.name) =
      (numbered seen (images.map (baseName env))).map fun p => f (caseNameOf p.1 p.2)
  | _, [] => rfl
  | seen, image :: rest => by
      rw [simCasesFrom, List.map_cons, List.map_cons, numbered, List.map_cons,
        map_name_simCasesFrom baseArgs f _ rest]

theorem map_image_simCasesFrom (baseArgs : List String) : ∀ (seen : String → Nat)
    (images : List String), (simCasesFrom env baseArgs seen images).map (·.image) = images
  | _, [] => rfl
  | seen, image :: rest => by
      rw [simCasesFrom, List.map_cons, map_image_simCasesFrom baseArgs _ rest]

/-- Every image has its case, in order. -/
theorem map_image_simCasesFromImages (images runArgs : List String) :
    (simCasesFromImages env images runArgs).map (·.image) = images :=
  map_image_simCasesFrom env _ _ images

theorem byName_of_nodup {cases : List SimCase} (h : (cases.map (·.name)).Nodup) {c : SimCase}
    (hc : c ∈ cases) : byName cases c.name = some c := by
  cases hfind : byName cases c.name with
  | none =>
    have hnone := List.find?_eq_none.mp hfind c (List.mem_reverse.mpr hc)
    simp at hnone
  | some d =>
    have hname : d.name = c.name := by simpa using List.find?_some hfind
    have hd : d ∈ cases := List.mem_reverse.mp (List.mem_of_find?_eq_some hfind)
    rw [List.inj_on_of_nodup_map h hd hc hname]

/-- The cases are kept apart exactly when no base name is a numbered name that is given out. -/
theorem simCases_apart_iff (images runArgs : List String) :
    KeptApart (simCasesFromImages env images runArgs) ↔
      ∀ a ∈ images.map (baseName env), ∀ b ∈ images.map (baseName env), ∀ n,
        2 ≤ n → n ≤ (images.map (baseName env)).count b → a ≠ b ++ "_" ++ Nat.repr n := by
  have hnames := map_name_simCasesFrom env (stripOptionWithValue "--image" runArgs) id (fun _ => 0) images
  have hmem : ∀ {b k}, (b, k) ∈ numbered (fun _ => 0) (images.map (baseName env)) ↔
      k < (images.map (baseName env)).count b := by
    intro b k
    rw [mem_numbered]
    omega
  constructor
  · intro hapart a ha b _ n htwo hcount heq
    have hnodup := hapart.names
    rw [simCasesFromImages, show (simCasesFrom env (stripOptionWithValue "--image" runArgs) (fun _ => 0)
      images).map (·.name) = _ from hnames] at hnodup
    have hbase : (a, 0) ∈ numbered (fun _ => 0) (images.map (baseName env)) :=
      hmem.mpr (List.count_pos_iff.mpr ha)
    have hnumbered : (b, n - 1) ∈ numbered (fun _ => 0) (images.map (baseName env)) :=
      hmem.mpr (by omega)
    have hsame := List.inj_on_of_nodup_map hnodup hbase hnumbered (by
      show caseNameOf a 0 = caseNameOf b (n - 1)
      rw [caseNameOf, if_pos rfl, caseNameOf, if_neg (by omega), show n - 1 + 1 = n by omega]
      exact heq)
    have hzero : 0 = n - 1 := congrArg Prod.snd hsame
    omega
  · intro hfree
    have hapart : ∀ p ∈ numbered (fun _ => 0) (images.map (baseName env)),
        ∀ q ∈ numbered (fun _ => 0) (images.map (baseName env)),
        caseNameOf p.1 p.2 = caseNameOf q.1 q.2 → p = q := by
      intro ⟨a, j⟩ hp ⟨b, k⟩ hq heq
      have hj := hmem.mp hp
      have hk := hmem.mp hq
      have ha : a ∈ images.map (baseName env) := List.count_pos_iff.mp (by omega)
      have hb : b ∈ images.map (baseName env) := List.count_pos_iff.mp (by omega)
      rcases caseNameOf_eq heq with ⟨rfl, rfl⟩ | ⟨-, hne, hab⟩ | ⟨-, hne, hba⟩
      · rfl
      · exact absurd hab (hfree a ha b hb (k + 1) (by omega) (by omega))
      · exact absurd hba (hfree b hb a ha (j + 1) (by omega) (by omega))
    have hnodup : ((simCasesFromImages env images runArgs).map (·.name)).Nodup := by
      rw [simCasesFromImages, show (simCasesFrom env (stripOptionWithValue "--image" runArgs)
        (fun _ => 0) images).map (·.name) = _ from hnames]
      exact (nodup_numbered _ _).map_on hapart
    refine ⟨hnodup, fun root => ?_, fun c hc => byName_of_nodup hnodup hc⟩
    rw [simCasesFromImages, map_name_simCasesFrom env _ (caseDir root)]
    refine (nodup_numbered _ _).map_on fun p hp q hq heq => hapart p hp q hq ?_
    obtain ⟨a, j⟩ := p
    obtain ⟨b, k⟩ := q
    obtain ⟨imageA, -, rfl⟩ := List.mem_map.mp (List.count_pos_iff.mp (Nat.zero_lt_of_lt (hmem.mp hp)))
    obtain ⟨imageB, -, rfl⟩ := List.mem_map.mp (List.count_pos_iff.mp (Nat.zero_lt_of_lt (hmem.mp hq)))
    dsimp only at heq ⊢
    exact caseDir_inj env heq

/-- `y/a.bin` is the second `a`, and `z/a_2.bin` is `a_2` by itself. -/
theorem simCases_share_name :
    ¬ KeptApart (simCasesFromImages (Env.ofNodes [])
      ["/x/a.bin", "/y/a.bin", "/z/a_2.bin"] []) :=
  fun h => absurd h.names (by decide +kernel)

end EccFe.Tools.Verilator
