/-
EccFe.Application.DifftestSources — the simulation sources of a workspace and the
difftest driver among them (`fecompiler/application/workspace_service.py`).

The driver and its stub stand for each other: renaming one to the other is the
whole adaptation to what CPU and SoC support. Parameters keep such a list as
stripped, distinct texts, and this form survives the renaming (`adapted_listed`).
A list without a difftest file is left alone by both renamings (`adaptedFor_plain`);
a list that has one, already renamed one way, is changed by the other
(`adaptedFor_flip_ne`).
-/
import EccFe.Application.SimSuites
import EccFe.Tools.InputDigest
import EccFe.Tools.Verilator.Sources

namespace EccFe.Application

open Python
open Data (textList)
open Tools.RtlInputs
open Tools.Verilator (replaceSimCppSource difftestSourceName difftestStubSourceName)

/-! ## 1. The adaptation -/

def replaceDifftestSource (sources : List String) (oldName newName : String) : List String :=
  replaceSimCppSource sources oldName newName

/-- The sources for a simulation with difftest or without it. -/
def adaptedFor (difftest : Bool) (sources : List String) : List String :=
  if difftest then replaceDifftestSource sources difftestStubSourceName difftestSourceName
  else replaceDifftestSource sources difftestSourceName difftestStubSourceName

def adaptSimCppSourcesForCpu (data : Workspace) (sources : List String) : List String :=
  adaptedFor (supportsDifftest data) sources

/-! ## 2. File names -/

/-- `Path(source).name`. -/
def sourceName (source : String) : String := (PurePath.ofText source).name

/-- The source is the difftest driver or its stub. -/
def isDifftestSource (source : String) : Bool :=
  sourceName source == difftestSourceName || sourceName source == difftestStubSourceName

/-- The name that the adaptation takes away, and the one it gives. -/
def oldName (difftest : Bool) : String :=
  if difftest then difftestStubSourceName else difftestSourceName

def newName (difftest : Bool) : String :=
  if difftest then difftestSourceName else difftestStubSourceName

theorem adaptedFor_eq (difftest : Bool) (sources : List String) :
    adaptedFor difftest sources =
      replaceSimCppSource sources (oldName difftest) (newName difftest) := by
  cases difftest <;> rfl

theorem newName_ne_oldName (difftest : Bool) : newName difftest ≠ oldName difftest := by
  cases difftest <;> decide

theorem oldName_not (difftest : Bool) : oldName (!difftest) = newName difftest := by
  cases difftest <;> rfl

theorem isDifftestSource_iff (difftest : Bool) (source : String) :
    isDifftestSource source = true ↔
      sourceName source = oldName difftest ∨ sourceName source = newName difftest := by
  cases difftest <;> simp [isDifftestSource, oldName, newName, or_comm]

/-- A text that ends in a slash and a name, or is the name, has that name as a path. -/
theorem sourceName_of_chars {source name : String} (hslash : '/' ∉ name.toList) (hne : name ≠ "")
    (hdot : name ≠ ".") {pre : List Char} (hpre : pre = [] ∨ ∃ dir, pre = dir ++ ['/'])
    (hchars : source.toList = pre ++ name.toList) : sourceName source = name := by
  have hlast : ∃ pieces, splitOnChar '/' source.toList = pieces ++ [name.toList] := by
    rw [splitOnChar, hchars]
    rcases hpre with rfl | ⟨dir, rfl⟩
    · exact ⟨[], List.splitOn_eq_singleton hslash⟩
    · refine ⟨dir.splitOn '/', ?_⟩
      rw [List.append_assoc, List.singleton_append, List.splitOn_append_cons_self,
        List.splitOn_eq_singleton hslash]
  obtain ⟨pieces, hpieces⟩ := hlast
  have hkept : [String.ofList name.toList].filter (fun p => p ≠ "" ∧ p ≠ ".") = [name] := by
    simp [hne, hdot]
  rw [sourceName, PurePath.name, PurePath.ofText]
  simp only
  rw [hpieces, List.map_append, List.filter_append, List.map_singleton, hkept]
  simp

/-- The characters of a path whose last part is `name`. -/
theorem toList_withName (p : PurePath) (name : String) :
    ∃ pre, (pre = [] ∨ ∃ dir, pre = dir ++ ['/']) ∧
      (p.withName name).text.toList = pre ++ name.toList := by
  have hjoin : ∃ pre, (pre = [] ∨ ∃ dir, pre = dir ++ ['/']) ∧
      ("/".intercalate (p.parts.dropLast ++ [name])).toList = pre ++ name.toList := by
    by_cases hparents : p.parts.dropLast = []
    · refine ⟨[], .inl rfl, ?_⟩
      rw [hparents, List.nil_append, String.intercalate_singleton, List.nil_append]
    · refine ⟨("/".intercalate p.parts.dropLast).toList ++ ['/'], .inr ⟨_, rfl⟩, ?_⟩
      rw [String.intercalate_append_of_ne_nil hparents (by simp), String.intercalate_singleton,
        String.toList_append, String.toList_append]
      rfl
  obtain ⟨pre, hpre, hchars⟩ := hjoin
  rw [PurePath.text, PurePath.withName]
  simp only
  split
  · refine ⟨'/' :: pre, .inr ?_, ?_⟩
    · rcases hpre with rfl | ⟨dir, rfl⟩
      · exact ⟨[], rfl⟩
      · exact ⟨'/' :: dir, rfl⟩
    · rw [PurePath.absText, String.toList_append, hchars]
      rfl
  · rw [if_neg (by simp)]
    exact ⟨pre, hpre, hchars⟩

/-! ## 3. Lists as the parameters keep them -/

/-- Stripped texts, none empty, each once. -/
structure Listed (sources : List String) : Prop where
  stripped : ∀ source ∈ sources, strip source = source
  nonempty : "" ∉ sources
  nodup : sources.Nodup

/-- A list of texts once it was saved and loaded. -/
def listedOf (sources : List String) : List String := normalizeStrList (textList sources)

theorem listedOf_eq (sources : List String) :
    listedOf sources = distinctTexts ((sources.map strip).filter (· ≠ "")) := by
  simp only [listedOf, normalizeStrList, textList, List.map_map]
  rfl

theorem mem_listedOf {source : String} {sources : List String} :
    source ∈ listedOf sources ↔ source ≠ "" ∧ ∃ source' ∈ sources, strip source' = source := by
  rw [listedOf_eq, mem_distinctTexts, List.mem_filter, List.mem_map, decide_eq_true_eq, and_comm]

/-- Every list of a workspace field is listed. -/
theorem listed_normalizeStrList (value : Json) : Listed (normalizeStrList value) := by
  unfold normalizeStrList
  refine ⟨fun source h => ?_, fun h => ?_, nodup_distinctTexts _⟩
  · obtain ⟨hmem, -⟩ := List.mem_filter.mp (mem_distinctTexts.mp h)
    obtain ⟨text, -, rfl⟩ := List.mem_map.mp hmem
    exact strip_idem text
  · obtain ⟨-, hne⟩ := List.mem_filter.mp (mem_distinctTexts.mp h)
    simp at hne

theorem listedOf_of_listed {sources : List String} (h : Listed sources) :
    listedOf sources = sources := by
  rw [listedOf_eq, List.map_congr_left h.stripped, List.map_id', List.filter_eq_self.mpr]
  · exact distinctTexts_of_nodup h.nodup
  · intro source hmem
    have hne : source ≠ "" := fun hempty => h.nonempty (hempty ▸ hmem)
    simpa using hne

/-! ## 4. Renaming -/

/-- A source after the renaming. -/
def renamed (difftest : Bool) (source : String) : String :=
  if sourceName source = oldName difftest then
    ((PurePath.ofText source).withName (newName difftest)).text
  else source

theorem adaptedFor_eq_renamed (difftest : Bool) (sources : List String) :
    adaptedFor difftest sources =
      distinctTexts ((sources.map (renamed difftest)).filter (· ≠ "")) := by
  rw [adaptedFor_eq, replaceSimCppSource]
  rfl

theorem mem_adaptedFor {difftest : Bool} {sources : List String} {source : String} :
    source ∈ adaptedFor difftest sources ↔
      source ≠ "" ∧ ∃ source' ∈ sources, renamed difftest source' = source := by
  rw [adaptedFor_eq_renamed, mem_distinctTexts, List.mem_filter, List.mem_map, decide_eq_true_eq,
    and_comm]

theorem newName_facts (difftest : Bool) :
    '/' ∉ (newName difftest).toList ∧ newName difftest ≠ "" ∧ newName difftest ≠ "." ∧
      ∀ c ∈ (newName difftest).toList, isSpace c = false := by
  cases difftest <;> decide

/-- A renamed file keeps its new name when the blanks in front are stripped. -/
theorem sourceName_strip_withName (p : PurePath) (difftest : Bool) :
    sourceName (strip (p.withName (newName difftest)).text) = newName difftest ∧
      strip (p.withName (newName difftest)).text ≠ "" := by
  obtain ⟨hslash, hne, hdot, hblank⟩ := newName_facts difftest
  obtain ⟨pre, hpre, hchars⟩ := toList_withName p (newName difftest)
  have hname : (newName difftest).toList ≠ [] := by simpa using hne
  have hkeep : rstripBy isSpace (newName difftest).toList = (newName difftest).toList := by
    have h := stripBy_of_forall hblank
    rwa [stripBy, lstripBy, dropWhile_eq_self fun c hc => hblank c (List.mem_of_mem_head? hc)] at h
  have hstripped : ∃ pre', (pre' = [] ∨ ∃ dir, pre' = dir ++ ['/']) ∧
      (strip (p.withName (newName difftest)).text).toList = pre' ++ (newName difftest).toList := by
    rw [strip, String.toList_ofList, hchars]
    rcases hpre with rfl | ⟨dir, rfl⟩
    · exact ⟨[], .inl rfl, stripBy_of_forall hblank⟩
    · -- the slash ends the blanks in front
      have hstart : ∃ dir', lstripBy isSpace (dir ++ '/' :: (newName difftest).toList) =
          dir' ++ '/' :: (newName difftest).toList := by
        rw [lstripBy, List.dropWhile_append]
        split
        · exact ⟨[], by rw [List.dropWhile_cons_of_neg (by decide)]; rfl⟩
        · exact ⟨_, rfl⟩
      obtain ⟨dir', hdir'⟩ := hstart
      refine ⟨dir' ++ ['/'], .inr ⟨dir', rfl⟩, ?_⟩
      rw [List.append_assoc, List.singleton_append, stripBy, hdir', rstripBy_append (by decide),
        hkeep, List.append_assoc, List.singleton_append]
  obtain ⟨pre', hpre', hchars'⟩ := hstripped
  refine ⟨sourceName_of_chars hslash hne hdot hpre' hchars', fun hempty => ?_⟩
  rw [hempty] at hchars'
  exact hname (List.append_eq_nil_iff.mp hchars'.symm).2

/-- What the renaming makes of a listed source, once saved and loaded. -/
theorem strip_renamed (difftest : Bool) {source : String} (hstrip : strip source = source)
    (hne : source ≠ "") :
    strip (renamed difftest source) ≠ "" ∧
      sourceName (strip (renamed difftest source)) ≠ oldName difftest ∧
      isDifftestSource (strip (renamed difftest source)) = isDifftestSource source := by
  rw [renamed]
  split
  · rename_i hold
    obtain ⟨hname, hnonempty⟩ := sourceName_strip_withName (PurePath.ofText source) difftest
    refine ⟨hnonempty, ?_, ?_⟩
    · rw [hname]
      exact newName_ne_oldName difftest
    · rw [(isDifftestSource_iff difftest _).mpr (.inr hname),
        (isDifftestSource_iff difftest source).mpr (.inl hold)]
  · rename_i hold
    rw [hstrip]
    exact ⟨hne, hold, rfl⟩

section

variable {difftest : Bool} {sources : List String}

/-- Nothing to rename. -/
theorem adaptedFor_clean (h : Listed sources)
    (hclean : ∀ source ∈ sources, sourceName source ≠ oldName difftest) :
    adaptedFor difftest sources = sources := by
  have hrenamed : ∀ source ∈ sources, renamed difftest source = source := fun source hmem =>
    if_neg (hclean source hmem)
  rw [adaptedFor_eq_renamed, List.map_congr_left hrenamed, List.map_id', List.filter_eq_self.mpr]
  · exact distinctTexts_of_nodup h.nodup
  · intro source hmem
    have hne : source ≠ "" := fun hempty => h.nonempty (hempty ▸ hmem)
    simpa using hne

theorem adaptedFor_plain (h : Listed sources)
    (hplain : ∀ source ∈ sources, isDifftestSource source = false) :
    adaptedFor difftest sources = sources := by
  refine adaptedFor_clean h fun source hmem hold => ?_
  have hdiff := (isDifftestSource_iff difftest source).mpr (.inl hold)
  rw [hplain source hmem] at hdiff
  cases hdiff

/-- The adapted sources as the parameters keep them. -/
theorem mem_listedOf_adaptedFor (h : Listed sources) {source : String} :
    source ∈ listedOf (adaptedFor difftest sources) ↔
      ∃ source' ∈ sources, strip (renamed difftest source') = source := by
  rw [mem_listedOf]
  constructor
  · intro hmem
    obtain ⟨-, adapted, hadapted, rfl⟩ := hmem
    obtain ⟨-, source', hmem', rfl⟩ := mem_adaptedFor.mp hadapted
    exact ⟨source', hmem', rfl⟩
  · intro hmem
    obtain ⟨source', hmem', rfl⟩ := hmem
    have hne' : source' ≠ "" := fun hempty => h.nonempty (hempty ▸ hmem')
    have hne := (strip_renamed difftest (h.stripped source' hmem') hne').1
    refine ⟨hne, renamed difftest source', mem_adaptedFor.mpr ⟨fun hempty => ?_, source', hmem', rfl⟩,
      rfl⟩
    rw [hempty] at hne
    exact hne rfl

theorem adapted_listed (difftest : Bool) (h : Listed sources) :
    Listed (listedOf (adaptedFor difftest sources)) ∧
      ∀ source ∈ listedOf (adaptedFor difftest sources), sourceName source ≠ oldName difftest := by
  refine ⟨listed_normalizeStrList _, fun source hmem => ?_⟩
  obtain ⟨source', hmem', rfl⟩ := (mem_listedOf_adaptedFor h).mp hmem
  have hne' : source' ≠ "" := fun hempty => h.nonempty (hempty ▸ hmem')
  exact (strip_renamed difftest (h.stripped source' hmem') hne').2.1

/-- The adaptation neither adds nor loses the difftest files. -/
theorem plain_adapted_iff (difftest : Bool) (h : Listed sources) :
    (∀ source ∈ listedOf (adaptedFor difftest sources), isDifftestSource source = false) ↔
      ∀ source ∈ sources, isDifftestSource source = false := by
  have hsame : ∀ source ∈ sources,
      isDifftestSource (strip (renamed difftest source)) = isDifftestSource source := by
    intro source hmem
    have hne : source ≠ "" := fun hempty => h.nonempty (hempty ▸ hmem)
    exact (strip_renamed difftest (h.stripped source hmem) hne).2.2
  constructor
  · intro hplain source hmem
    rw [← hsame source hmem]
    exact hplain _ ((mem_listedOf_adaptedFor h).mpr ⟨source, hmem, rfl⟩)
  · intro hplain source hmem
    obtain ⟨source', hmem', rfl⟩ := (mem_listedOf_adaptedFor h).mp hmem
    rw [hsame source' hmem']
    exact hplain source' hmem'

theorem adapted_eq_nil_iff (difftest : Bool) (h : Listed sources) :
    listedOf (adaptedFor difftest sources) = [] ↔ sources = [] := by
  rw [List.eq_nil_iff_forall_not_mem, List.eq_nil_iff_forall_not_mem]
  constructor
  · intro hnil source hmem
    exact hnil _ ((mem_listedOf_adaptedFor h).mpr ⟨source, hmem, rfl⟩)
  · intro hnil source hmem
    obtain ⟨source', hmem', -⟩ := (mem_listedOf_adaptedFor h).mp hmem
    exact hnil source' hmem'

/-- No name that the adaptation takes away is left. -/
theorem sourceName_adaptedFor (difftest : Bool) :
    ∀ source ∈ adaptedFor difftest sources, sourceName source ≠ oldName difftest := by
  intro source hmem
  obtain ⟨-, source', hmem', rfl⟩ := mem_adaptedFor.mp hmem
  rw [renamed]
  split
  · obtain ⟨hslash, hne, hdot, -⟩ := newName_facts difftest
    obtain ⟨pre, hpre, hchars⟩ := toList_withName (PurePath.ofText source') (newName difftest)
    rw [sourceName_of_chars hslash hne hdot hpre hchars]
    exact newName_ne_oldName difftest
  · rename_i hold
    exact hold

end

end EccFe.Application
