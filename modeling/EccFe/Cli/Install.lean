/-
EccFe.Cli.Install — `install` and `install_required` of `fecompiler/cli/resource_manager.py`.

An install walks the dependency graph of the registry depth first, without remembering where it
has been: a resource that several others need is met once for each path, and each meeting asks
the manifest whether it is there already. So a call is the run of an unfolded graph
(`Search.runEvents`), and what it returns is read off the visits. Termination, cycles, order and
the list of resources are right for every registry; the status of a resource that is met twice
is that of the last meeting, which finds what the first one installed.
-/
import EccFe.Cli.Registry
import EccFe.Cli.Resources
import EccFe.Search.Unfold
import Mathlib.Data.List.Nodup

namespace EccFe.Cli

open Python Search

/-! ## 1. The calls -/

inductive InstallStatus where
  | installed
  | alreadyInstalled
  deriving DecidableEq

structure InstallRecord where
  resourceId : String
  status : InstallStatus
  version : String
  path : Option String
  deriving DecidableEq

/-- What the release metadata of a URL turns out to be. -/
inductive Fetched where
  | value (json : Json)
  /-- An `OSError` or a `ValueError`. -/
  | unreadable (error : String)
  /-- Any other exception. -/
  | raised (name : String)

/-- What an install meets outside the registry, with `σ` the state of all of it. -/
structure World (σ : Type) where
  /-- `current_registry_platform()`. -/
  platformName : String
  fetch : String → σ → Fetched × σ
  /-- `read_resource_manifest(self.manifest_path, strict=True)`. -/
  manifest : σ → Except String Dict
  /-- `read_resource_manifest()`. -/
  defaultManifest : σ → Dict
  disk : σ → Disk
  /-- From the creation of the directories to the end of `_install_one`: the directory that holds
  the new version, or the exception. -/
  installFresh : String → RegistryVersion → σ → Except String String × σ
  /-- `_record_required_resources(resource_ids)`. -/
  recordRequired : List String → σ → Except String Unit × σ

/-- The checks of `_resolve_metadata` on what was read. -/
def checkMetadata (asset : RegistryAsset) : Fetched → Except ResourceError RegistryAsset
  | .unreadable error => .error (.manager s!"Unable to read release metadata: {error}")
  | .raised name => .error (.other name)
  | .value (.obj metadata) =>
      let sha256 := lower (Dict.textAt metadata "sha256")
      match positiveInt (Dict.getD metadata "size" .null) with
      | .error e => .error e
      | .ok none => .error (.manager "Release metadata is missing SHA256 or size")
      | .ok (some size) =>
          if !validSha256 sha256 then
            .error (.manager "Release metadata is missing SHA256 or size")
          else if sha256 ≠ asset.sha256 ∨ size ≠ asset.size then
            .error (.manager "Release metadata does not match the registry SHA256 and size lock")
          else .ok asset
  | .value _ => .error (.manager "Release metadata must be an object")

/-- `by_resource[record["resource_id"]] = record` in the order of a dict. -/
def putRecord (records : List InstallRecord) (record : InstallRecord) : List InstallRecord :=
  if records.any fun old => old.resourceId = record.resourceId then
    records.map fun old => if old.resourceId = record.resourceId then record else old
  else records ++ [record]

def dedupeInstallRecords (records : List InstallRecord) : List InstallRecord :=
  records.foldl putRecord []

def cycleMessage (visiting : List String) (normalized : String) : String :=
  "Resource dependency cycle detected: " ++
    " -> ".intercalate (visiting.mergeSort (fun a b => decide (a ≤ b)) ++ [normalized])

namespace World

variable {σ : Type} (world : World σ)

def resolveMetadata (asset : RegistryAsset) (s : σ) : Except ResourceError RegistryAsset × σ :=
  match asset.metadataUrl with
  | none => (.ok asset, s)
  | some url => (checkMetadata asset (world.fetch url s).1, (world.fetch url s).2)

/-- The entry of the manifest that makes an install unnecessary. -/
def existing (name : String) (selected : RegistryVersion) (s : σ) : Except String (Option Dict) :=
  match world.manifest s with
  | .error error => .error error
  | .ok manifest =>
      .ok ((installedToolEntry (world.defaultManifest s) manifest name).filter fun entry =>
        (Dict.getD entry "version" .null).pyStr = selected.version ∧
          lower (Dict.textAt entry "sha256") = selected.asset.sha256 ∧
          (world.disk s).toolEntryHealth entry = .ok)

def installOne (name : String) (selected : RegistryVersion) (s : σ) :
    Except ResourceError InstallRecord × σ :=
  andThen (world.resolveMetadata selected.asset s) fun asset s =>
    match world.existing name { selected with asset } s with
    | .error error => (.error (.other error), s)
    | .ok (some entry) =>
        (.ok ⟨"tool:" ++ name, .alreadyInstalled, selected.version, optionalText entry "path"⟩, s)
    | .ok none =>
        match world.installFresh name { selected with asset } s with
        | (.error error, s) => (.error (.other error), s)
        | (.ok path, s) => (.ok ⟨"tool:" ++ name, .installed, selected.version, some path⟩, s)

/-- `for resource_id in ids: records.extend(install(resource_id))`. -/
def installEach (install : String → σ → Except ResourceError (List InstallRecord) × σ) :
    List String → σ → Except ResourceError (List InstallRecord) × σ
  | [], s => (.ok [], s)
  | resourceId :: ids, s =>
      andThen (install resourceId s) fun records s =>
        andThen (installEach install ids s) fun more s => (.ok (records ++ more), s)

/-- `install(resource_id, version=version, registry=registry, _visiting=visiting)`; the
interpreter follows `fuel` nested calls. -/
def install (registry : Dict) : Nat → List String → String → Option String → σ →
    Except ResourceError (List InstallRecord) × σ
  | 0, _, _, _, s => (.error .recursionError, s)
  | fuel + 1, visiting, resourceId, version, s =>
      match normalizeResourceId resourceId with
      | .error e => (.error e, s)
      | .ok normalized =>
          if normalized ∈ visiting then (.error (.cycle (cycleMessage visiting normalized)), s)
          else
            match resolveVersion world.platformName registry (toolName normalized) version with
            | .error e => (.error e, s)
            | .ok selected =>
                andThen (installEach
                    (fun dependency => install registry fuel (normalized :: visiting) dependency none)
                    selected.requires s) fun records s =>
                  andThen (world.installOne (toolName normalized) selected s) fun record s =>
                    (.ok (dedupeInstallRecords (records ++ [record])), s)

/-- `install_required()`, after the registry is read. -/
def installRequired (registry : Dict) (fuel : Nat) (s : σ) :
    Except ResourceError (List InstallRecord) × σ :=
  match resolveVersion world.platformName registry "ecc-fe" none with
  | .error e => (.error e, s)
  | .ok selected =>
      match world.recordRequired selected.requires s with
      | (.error error, s) => (.error (.other error), s)
      | (.ok (), s) =>
          andThen (installEach (fun id => world.install registry fuel [] id none) selected.requires s)
            fun records s => (.ok (dedupeInstallRecords records), s)

end World

/-! ## 2. De-duplication -/

def recordIds (records : List InstallRecord) : List String := records.map (·.resourceId)

theorem putRecord_of_not_mem {records : List InstallRecord} {record : InstallRecord}
    (h : record.resourceId ∉ recordIds records) : putRecord records record = records ++ [record] := by
  rw [putRecord, if_neg]
  simpa [recordIds] using h

theorem putRecord_of_mem {records : List InstallRecord} {record : InstallRecord}
    (h : record.resourceId ∈ recordIds records) : putRecord records record =
      records.map fun old => if old.resourceId = record.resourceId then record else old := by
  rw [putRecord, if_pos]
  simpa [recordIds] using h

/-- Putting a record keeps the ids and adds a new one at the end. -/
theorem recordIds_putRecord (records : List InstallRecord) (record : InstallRecord) :
    recordIds (putRecord records record) =
      if record.resourceId ∈ recordIds records then recordIds records
      else recordIds records ++ [record.resourceId] := by
  split
  · rename_i h
    rw [putRecord_of_mem h, recordIds, List.map_map]
    refine List.map_congr_left fun old _ => ?_
    rw [Function.comp_apply]
    split
    · rename_i hold
      exact hold.symm
    · rfl
  · rename_i h
    rw [putRecord_of_not_mem h, recordIds, List.map_append]
    rfl

theorem mem_recordIds_putRecord {records : List InstallRecord} {record : InstallRecord} {id : String} :
    id ∈ recordIds (putRecord records record) ↔ id ∈ recordIds records ∨ id = record.resourceId := by
  rw [recordIds_putRecord]
  split
  · rename_i h
    exact ⟨.inl, fun hid => hid.elim (fun hold => hold) fun heq => heq ▸ h⟩
  · rw [List.mem_append, List.mem_singleton]

theorem nodup_putRecord {records : List InstallRecord} {record : InstallRecord}
    (h : (recordIds records).Nodup) : (recordIds (putRecord records record)).Nodup := by
  rw [recordIds_putRecord]
  split
  · exact h
  · rename_i hnew
    exact h.append (List.nodup_singleton _) (List.disjoint_singleton.mpr hnew)

theorem nodup_foldl_putRecord (records : List InstallRecord) : ∀ {table : List InstallRecord},
    (recordIds table).Nodup → (recordIds (records.foldl putRecord table)).Nodup := by
  induction records with
  | nil => exact fun h => h
  | cons record records ih => exact fun h => ih (nodup_putRecord h)

/-- After the deduplication each id is there once. -/
theorem nodup_dedupe (records : List InstallRecord) :
    (recordIds (dedupeInstallRecords records)).Nodup :=
  nodup_foldl_putRecord records (show (recordIds []).Nodup from List.nodup_nil)

theorem mem_recordIds_foldl (records : List InstallRecord) : ∀ {table : List InstallRecord} {id : String},
    id ∈ recordIds (records.foldl putRecord table) ↔ id ∈ recordIds table ∨ id ∈ recordIds records := by
  induction records with
  | nil => simp [recordIds]
  | cons record records ih =>
    intro table id
    rw [List.foldl_cons, ih, mem_recordIds_putRecord, or_assoc]
    simp [recordIds]

/-- The deduplication loses no id. -/
theorem mem_recordIds_dedupe {records : List InstallRecord} {id : String} :
    id ∈ recordIds (dedupeInstallRecords records) ↔ id ∈ recordIds records := by
  rw [dedupeInstallRecords, mem_recordIds_foldl]
  simp [recordIds]

/-- A record put over one of its id. -/
theorem putRecord_putRecord_same (table : List InstallRecord) {q r : InstallRecord}
    (h : q.resourceId = r.resourceId) : putRecord (putRecord table q) r = putRecord table r := by
  have hmem : r.resourceId ∈ recordIds (putRecord table q) :=
    mem_recordIds_putRecord.mpr (.inr h.symm)
  rw [putRecord_of_mem hmem]
  by_cases hq : q.resourceId ∈ recordIds table
  · rw [putRecord_of_mem hq, putRecord_of_mem (h ▸ hq), List.map_map]
    refine List.map_congr_left fun old _ => ?_
    by_cases hold : old.resourceId = r.resourceId
    · simp [hold, h]
    · simp [hold, h]
  · rw [putRecord_of_not_mem hq, putRecord_of_not_mem (h ▸ hq), List.map_append]
    simp only [List.map_cons, List.map_nil, h, if_true]
    congr 1
    refine (List.map_congr_left fun old hold => ?_).trans (List.map_id _)
    refine if_neg fun heq => hq ?_
    rw [h, ← heq]
    exact List.mem_map_of_mem hold

/-- Records of two ids, of which the second is there already. -/
theorem putRecord_comm {table : List InstallRecord} {q r : InstallRecord}
    (hne : q.resourceId ≠ r.resourceId) (hr : r.resourceId ∈ recordIds table) :
    putRecord (putRecord table q) r = putRecord (putRecord table r) q := by
  have hr' : r.resourceId ∈ recordIds (putRecord table q) := mem_recordIds_putRecord.mpr (.inl hr)
  rw [putRecord_of_mem hr']
  by_cases hq : q.resourceId ∈ recordIds table
  · rw [putRecord_of_mem hq, putRecord_of_mem (mem_recordIds_putRecord.mpr (.inl hq)),
      putRecord_of_mem hr, List.map_map, List.map_map]
    refine List.map_congr_left fun old _ => ?_
    by_cases hold : old.resourceId = q.resourceId
    · simp [hold, hne]
    · by_cases hold' : old.resourceId = r.resourceId
      · simp [hold', hne.symm]
      · simp [hold, hold']
  · have hq' : q.resourceId ∉ recordIds (putRecord table r) := by
      rw [mem_recordIds_putRecord, not_or]
      exact ⟨hq, hne⟩
    rw [putRecord_of_not_mem hq, putRecord_of_not_mem hq', putRecord_of_mem hr, List.map_append]
    simp [hne]

/-- A record may be put last when its id is put over anyway. -/
theorem putRecord_foldl : ∀ {records table : List InstallRecord} {r : InstallRecord},
    r.resourceId ∉ recordIds records → r.resourceId ∈ recordIds table →
      putRecord (records.foldl putRecord table) r = records.foldl putRecord (putRecord table r)
  | [], _, _, _, _ => rfl
  | q :: records, table, r, hnot, hmem => by
      simp only [recordIds, List.map_cons, List.mem_cons, not_or] at hnot
      rw [List.foldl_cons, List.foldl_cons, putRecord_foldl hnot.2 (mem_recordIds_putRecord.mpr (.inl hmem)),
        putRecord_comm (Ne.symm hnot.1) hmem]

/-- Putting records of which the last was put in order. -/
theorem foldl_putRecord_snoc {records table : List InstallRecord} (r : InstallRecord)
    (hnodup : (recordIds records).Nodup) :
    (putRecord records r).foldl putRecord table = putRecord (records.foldl putRecord table) r := by
  by_cases hmem : r.resourceId ∈ recordIds records
  · obtain ⟨q, hq, hid⟩ := List.mem_map.mp hmem
    obtain ⟨before, after, rfl⟩ := List.append_of_mem hq
    rw [recordIds, List.map_append, List.map_cons, List.nodup_append, List.nodup_cons] at hnodup
    obtain ⟨hbefore, ⟨hafter, -⟩, hapart⟩ := hnodup
    have hkeep : ∀ rest : List InstallRecord, r.resourceId ∉ recordIds rest →
        rest.map (fun old => if old.resourceId = r.resourceId then r else old) = rest := by
      intro rest hrest
      refine (List.map_congr_left fun old hold => ?_).trans (List.map_id _)
      exact if_neg fun heq => hrest (List.mem_map.mpr ⟨old, hold, heq⟩)
    have hb : r.resourceId ∉ recordIds before := fun h =>
      hapart _ h _ List.mem_cons_self hid.symm
    have ha : r.resourceId ∉ recordIds after := hid ▸ hafter
    rw [putRecord_of_mem hmem, List.map_append, List.map_cons, if_pos hid, hkeep before hb, hkeep after ha,
      List.foldl_append, List.foldl_append, List.foldl_cons, List.foldl_cons,
      putRecord_foldl ha (mem_recordIds_putRecord.mpr (.inr hid.symm)), putRecord_putRecord_same _ hid]
  · rw [putRecord_of_not_mem hmem, List.foldl_append]
    rfl

/-- Two lists put the same records into every table. -/
def Alike (records trace : List InstallRecord) : Prop :=
  ∀ table : List InstallRecord, (recordIds table).Nodup →
    records.foldl putRecord table = trace.foldl putRecord table

/-- Lists that are alike stay so one after the other. -/
theorem Alike.append {records trace records' trace' : List InstallRecord} (h : Alike records trace)
    (h' : Alike records' trace') : Alike (records ++ records') (trace ++ trace') := by
  intro table hnodup
  rw [List.foldl_append, List.foldl_append, h table hnodup, h' _ (nodup_foldl_putRecord trace hnodup)]

/-- A deduplicated list is like the list. -/
theorem alike_dedupe (records : List InstallRecord) : Alike (dedupeInstallRecords records) records := by
  intro table _
  induction records using List.reverseRecOn with
  | nil => rfl
  | append_singleton records r ih =>
    rw [dedupeInstallRecords, List.foldl_append, List.foldl_append, List.foldl_cons, List.foldl_nil]
    exact (foldl_putRecord_snoc r (nodup_dedupe records)).trans (congrArg (putRecord · r) ih)

/-- Lists that are alike have one deduplication. -/
theorem Alike.dedupe_eq {records trace : List InstallRecord} (h : Alike records trace) :
    dedupeInstallRecords records = dedupeInstallRecords trace := h [] List.nodup_nil

/-- The record that stands for an id is its last one. -/
theorem mem_dedupe_iff {records : List InstallRecord} {r : InstallRecord} :
    r ∈ dedupeInstallRecords records ↔
      ∃ before after, records = before ++ r :: after ∧ r.resourceId ∉ recordIds after := by
  induction records using List.reverseRecOn with
  | nil => simp [dedupeInstallRecords]
  | append_singleton records last ih =>
    have hput : dedupeInstallRecords (records ++ [last]) = putRecord (dedupeInstallRecords records) last := by
      rw [dedupeInstallRecords, List.foldl_append]
      rfl
    have hmem : r ∈ putRecord (dedupeInstallRecords records) last ↔
        r = last ∨ (r.resourceId ≠ last.resourceId ∧ r ∈ dedupeInstallRecords records) := by
      by_cases hlast : last.resourceId ∈ recordIds (dedupeInstallRecords records)
      · rw [putRecord_of_mem hlast, List.mem_map]
        constructor
        · rintro ⟨old, hold, rfl⟩
          split
          · exact .inl rfl
          · rename_i hne
            exact .inr ⟨hne, hold⟩
        · rintro (rfl | ⟨hne, hr⟩)
          · obtain ⟨old, hold, hid⟩ := List.mem_map.mp hlast
            exact ⟨old, hold, if_pos hid⟩
          · exact ⟨r, hr, if_neg hne⟩
      · rw [putRecord_of_not_mem hlast, List.mem_append, List.mem_singleton]
        constructor
        · rintro (hr | rfl)
          · exact .inr ⟨fun heq => hlast (heq ▸ List.mem_map_of_mem hr), hr⟩
          · exact .inl rfl
        · rintro (rfl | ⟨-, hr⟩)
          · exact .inr rfl
          · exact .inl hr
    rw [hput, hmem, ih]
    constructor
    · rintro (rfl | ⟨hne, before, after, rfl, hafter⟩)
      · exact ⟨records, [], rfl, by simp [recordIds]⟩
      · refine ⟨before, after ++ [last], by simp, ?_⟩
        rw [recordIds, List.map_append, List.mem_append, not_or]
        exact ⟨hafter, by simpa using hne⟩
    · rintro ⟨before, after, hsplit, hafter⟩
      induction after using List.reverseRecOn with
      | nil => exact .inl (List.append_singleton_inj.mp hsplit).2.symm
      | append_singleton after last' _ =>
        rw [← List.cons_append, ← List.append_assoc] at hsplit
        obtain ⟨rfl, rfl⟩ := List.append_singleton_inj.mp hsplit
        rw [recordIds, List.map_append, List.mem_append, not_or] at hafter
        exact .inr ⟨by simpa using hafter.2, before, after, rfl, hafter.1⟩

/-! ## 3. A call is the run of an unfolded graph -/

/-- Two results with lists that put the same records, or the same error. -/
inductive AlikeResult {σ : Type} :
    Except ResourceError (List InstallRecord) × σ → Except ResourceError (List InstallRecord) × σ → Prop
  | ok {records trace : List InstallRecord} {s : σ} :
      Alike records trace → AlikeResult (.ok records, s) (.ok trace, s)
  | error (e : ResourceError) (s : σ) : AlikeResult (.error e, s) (.error e, s)

section

variable {σ : Type} {world : World σ} {registry : Dict}

/-- Runs that end alike stay so when one thing follows. -/
theorem AlikeResult.andThen {x y : Except ResourceError (List InstallRecord) × σ}
    {f g : List InstallRecord → σ → Except ResourceError (List InstallRecord) × σ}
    (h : AlikeResult x y)
    (hfg : ∀ records trace s, Alike records trace → AlikeResult (f records s) (g trace s)) :
    AlikeResult (Search.andThen x f) (Search.andThen y g) := by
  cases h with
  | ok halike => exact hfg _ _ _ halike
  | error e s => exact .error e s

/-- Runs that end alike raise the same. -/
theorem AlikeResult.error_iff {x y : Except ResourceError (List InstallRecord) × σ} (h : AlikeResult x y)
    (e : ResourceError) : x.1 = .error e ↔ ∃ s, y = (.error e, s) := by
  cases h with
  | ok _ => simp
  | error e' s => simp

theorem AlikeResult.exists_of_ok {x y : Except ResourceError (List InstallRecord) × σ}
    {records : List InstallRecord} (h : AlikeResult x y) (hx : x.1 = .ok records) :
    ∃ trace, y = (.ok trace, x.2) ∧ Alike records trace := by
  cases h with
  | ok halike =>
    cases hx
    exact ⟨_, rfl, halike⟩
  | error e s => cases hx

theorem AlikeResult.installEach {visit : String → σ → Except ResourceError InstallRecord × σ}
    {again : List String → String → ResourceError} {cut : ResourceError}
    {install : String → σ → Except ResourceError (List InstallRecord) × σ}
    {events : String → List (Event String ResourceError)} : ∀ {ids : List String},
    (∀ id ∈ ids, ∀ s, AlikeResult (install id s) (runEvents visit again cut (events id) s)) →
      ∀ s, AlikeResult (World.installEach install ids s)
        (runEvents visit again cut (ids.flatMap events) s)
  | [], _, s => .ok fun _ _ => rfl
  | id :: ids, h, s => by
      rw [World.installEach, List.flatMap_cons, runEvents_append]
      refine (h id List.mem_cons_self s).andThen fun records trace s halike => ?_
      refine (installEach (fun id hid => h id (List.mem_cons_of_mem _ hid)) s).andThen
        fun more trace' s halike' => ?_
      exact .ok (halike.append halike')

theorem AlikeResult.deduped {x y : Except ResourceError (List InstallRecord) × σ} (h : AlikeResult x y) :
    AlikeResult (Search.andThen x fun records s => (.ok (dedupeInstallRecords records), s)) y := by
  cases h with
  | @ok records trace s halike =>
    exact .ok fun table hnodup => (alike_dedupe records table hnodup).trans (halike table hnodup)
  | error e s => exact .error e s

/-- What an id requires, by the version that is selected for it. -/
def dependencies (select : String → Except ResourceError RegistryVersion) (id : String) :
    Except ResourceError (List String) :=
  match select id with
  | .error e => .error e
  | .ok selected => .ok selected.requires

/-- The install of an id whose dependencies are done. -/
def World.visitOne (world : World σ) (select : String → Except ResourceError RegistryVersion)
    (id : String) (s : σ) : Except ResourceError InstallRecord × σ :=
  match select id with
  | .error e => (.error e, s)
  | .ok selected => world.installOne (toolName id) selected s

/-- What an install of `id` does, event by event. -/
def World.runInstalls (world : World σ) (select : String → Except ResourceError RegistryVersion)
    (events : List (Event String ResourceError)) (s : σ) :
    Except ResourceError (List InstallRecord) × σ :=
  runEvents (world.visitOne select) (fun path id => .cycle (cycleMessage path id)) .recursionError
    events s

/-- An install runs the unfolded graph, up to records that are put over later. -/
theorem install_alike {select : String → Except ResourceError RegistryVersion} (fuel : Nat) :
    ∀ (path : List String) (resourceId : String) (version : Option String) (id : String),
      normalizeResourceId resourceId = .ok id →
      (id ∉ path → resolveVersion world.platformName registry (toolName id) version = select id) →
      (∀ other ∉ id :: path,
        resolveVersion world.platformName registry (toolName other) none = select other) →
      ∀ s, AlikeResult (world.install registry fuel path resourceId version s)
        (world.runInstalls select (unfold (dependencies select) fuel path id) s) := by
  induction fuel with
  | zero =>
    intro path resourceId version id hid hselect hothers s
    exact .error .recursionError s
  | succ fuel ih =>
    intro path resourceId version id hid hselect hothers s
    rw [World.install, hid]
    dsimp only
    by_cases hpath : id ∈ path
    · rw [if_pos hpath, unfold, if_pos hpath]
      exact .error _ s
    rw [if_neg hpath, hselect hpath]
    cases hselected : select id with
    | error e =>
      rw [unfold, if_neg hpath, dependencies, hselected]
      exact .error e s
    | ok selected =>
      have hnext : dependencies select id = .ok selected.requires := by rw [dependencies, hselected]
      have hnormalized := normalized_of_resolveVersion ((hselect hpath).trans hselected)
      rw [unfold_of_ok hpath hnext, World.runInstalls, runEvents_append]
      refine AlikeResult.andThen (AlikeResult.installEach (fun dependency hdependency s => ?_) s)
        fun records trace s halike => ?_
      · refine ih (id :: path) dependency none dependency
          (hnormalized dependency hdependency) (fun hnot => hothers dependency hnot) (fun other hnot => ?_) s
        exact hothers other fun hmem => hnot (List.mem_cons_of_mem _ hmem)
      · rw [runEvents, World.visitOne, hselected]
        dsimp only
        rcases world.installOne (toolName id) selected s with ⟨e | record, s'⟩
        · exact .error e s'
        · exact .ok fun table hnodup =>
            (alike_dedupe (records ++ [record]) table hnodup).trans
              (halike.append (fun _ _ => rfl : Alike [record] [record]) table hnodup)

end

/-! ## 4. One visit -/

/-- An id with the prefix is put together again. -/
theorem tool_append_toolName {id : String} (h : startsWith id.toList "tool:" = true) :
    "tool:" ++ toolName id = id := by
  obtain ⟨rest, hrest⟩ := List.isPrefixOf_iff_prefix.mp h
  have hdrop : id.toList.drop 5 = rest := by
    rw [← hrest]
    rfl
  rw [toolName, if_pos h, hdrop]
  apply String.toList_injective
  rw [String.toList_append, show (String.ofList rest).toList = rest from String.toList_ofList, hrest]

section

variable {σ : Type} {world : World σ} {registry : Dict}
  {select : String → Except ResourceError RegistryVersion}

/-- The version that an install selects for an id, asked for with `asked id`. -/
def World.selectVersion (world : World σ) (registry : Dict) (asked : String → Option String)
    (id : String) : Except ResourceError RegistryVersion :=
  resolveVersion world.platformName registry (toolName id) (asked id)

/-- The manifest has the selected version of the tool, and its files are there. -/
def World.holds (world : World σ) (name : String) (selected : RegistryVersion) (s : σ) : Bool :=
  match world.existing name selected s with
  | .ok (some _) => true
  | _ => false

/-- The resource is present and healthy in the state `s`. -/
def World.present (world : World σ) (select : String → Except ResourceError RegistryVersion)
    (id : String) (s : σ) : Bool :=
  match select id with
  | .ok selected => world.holds (toolName id) selected s
  | .error _ => false

/-- The resource is found present and healthy when it is met in the state `s`: the release
metadata is read before the manifest. -/
def World.found (world : World σ) (select : String → Except ResourceError RegistryVersion)
    (id : String) (s : σ) : Bool :=
  match select id with
  | .ok selected => world.holds (toolName id) selected (world.resolveMetadata selected.asset s).2
  | .error _ => false

/-- Metadata that is checked is unchanged. -/
theorem checkMetadata_ok {asset asset' : RegistryAsset} {fetched : Fetched}
    (h : checkMetadata asset fetched = .ok asset') : asset' = asset := by
  unfold checkMetadata at h
  dsimp only at h
  repeat' split at h
  all_goals cases h
  rfl

/-- An error of the metadata is none of the walk. -/
theorem checkMetadata_plain {asset : RegistryAsset} {fetched : Fetched} {e : ResourceError}
    (h : checkMetadata asset fetched = .error e) : e.ofWalk = false := by
  unfold checkMetadata at h
  dsimp only at h
  repeat' split at h
  all_goals cases h
  all_goals first
    | rfl
    | exact positiveInt_plain ‹_›

theorem resolveMetadata_ok {asset asset' : RegistryAsset} {s s' : σ}
    (h : world.resolveMetadata asset s = (.ok asset', s')) :
    asset' = asset ∧ s' = (world.resolveMetadata asset s).2 := by
  refine ⟨?_, (congrArg Prod.snd h).symm⟩
  unfold World.resolveMetadata at h
  split at h
  · cases h
    rfl
  · exact checkMetadata_ok (Prod.mk.inj h).1

theorem resolveMetadata_plain {asset : RegistryAsset} {s s' : σ} {e : ResourceError}
    (h : world.resolveMetadata asset s = (.error e, s')) : e.ofWalk = false := by
  unfold World.resolveMetadata at h
  split at h
  · cases h
  · exact checkMetadata_plain (Prod.mk.inj h).1

/-- What a visit records. -/
theorem visitOne_ok {id : String} {s s' : σ} {record : InstallRecord}
    (h : world.visitOne select id s = (.ok record, s')) :
    record.resourceId = "tool:" ++ toolName id ∧
      (record.status = .alreadyInstalled ↔ world.found select id s = true) := by
  unfold World.visitOne at h
  cases hselect : select id with
  | error e =>
    rw [hselect] at h
    cases h
  | ok selected =>
    rw [hselect] at h
    obtain ⟨asset, s₁, hmetadata, h⟩ := andThen_eq_ok_iff.mp h
    obtain ⟨rfl, rfl⟩ := resolveMetadata_ok hmetadata
    rw [World.found, hselect]
    dsimp only at h ⊢
    rw [World.holds]
    split at h
    · cases h
    · rename_i entry hexisting
      cases h
      simp [hexisting]
    · rename_i hexisting
      split at h
      · cases h
      · cases h
        simp [hexisting]

/-- No visit raises an error of the walk. -/
theorem visitOne_plain (hplain : ∀ id e, select id = .error e → e.ofWalk = false) {id : String}
    {s s' : σ} {e : ResourceError} (h : world.visitOne select id s = (.error e, s')) :
    e.ofWalk = false := by
  unfold World.visitOne at h
  cases hselect : select id with
  | error e' =>
    rw [hselect] at h
    cases h
    exact hplain id _ hselect
  | ok selected =>
    rw [hselect] at h
    rcases andThen_eq_error_iff.mp h with h | ⟨asset, s₁, -, h⟩
    · exact resolveMetadata_plain h
    · repeat' split at h
      all_goals cases h
      all_goals rfl

end

/-! ## 5. Statuses -/

/-- A visit that was done: the id, the state it was met in, and the record. -/
abbrev Visited (σ : Type) : Type := String × σ × InstallRecord

section

variable {σ : Type} (world : World σ) (select : String → Except ResourceError RegistryVersion)

/-- Every record says `installed` if the call installed the resource, and `already_installed` only
if the resource was present and healthy when the call began. -/
def StatusesRight (began : σ) (steps : List (Visited σ)) (records : List InstallRecord) : Prop :=
  ∀ record ∈ records,
    ((∃ step ∈ steps, step.1 = record.resourceId ∧ step.2.2.status = .installed) →
      record.status = .installed) ∧
    (record.status = .alreadyInstalled → world.present select record.resourceId began = true)

/-- A resource that is found present and healthy on the last path to it was so on every path, and
when the call began. -/
def FoundFromTheStart (began : σ) (steps : List (Visited σ)) : Prop :=
  ∀ before id s record after, steps = before ++ (id, s, record) :: after →
    id ∉ after.map (·.1) → world.found select id s = true →
      world.present select id began = true ∧
        ∀ step ∈ before, step.1 = id → world.found select id step.2.1 = true

/-- An install makes its resource present and healthy and leaves the other resources of `ids` as
they are; so does what happens between the begin of the call and its first install. -/
structure Settled (ids : List String) (began start : σ) : Prop where
  start : ∀ id ∈ ids, world.present select id start = world.present select id began
  found : ∀ id ∈ ids, ∀ s, world.found select id s = world.present select id s
  visit : ∀ id ∈ ids, ∀ s record s', world.visitOne select id s = (.ok record, s') →
    ∀ other ∈ ids, world.present select other s' = (world.present select other s || (other == id))

variable {world select}

/-- Ids and statuses of performed visits, by their states. -/
theorem performed_records {s s' : σ} {steps : List (Visited σ)}
    (h : Performed (world.visitOne select) s steps s') : ∀ step ∈ steps,
      step.2.2.resourceId = "tool:" ++ toolName step.1 ∧
        (step.2.2.status = .alreadyInstalled ↔ world.found select step.1 step.2.1 = true) := by
  induction h with
  | nil s => simp
  | cons hvisit _ ih =>
    intro step hstep
    rcases List.mem_cons.mp hstep with rfl | hstep
    · exact visitOne_ok hvisit
    · exact ih step hstep

theorem InstallStatus.eq_installed_iff {status : InstallStatus} :
    status = .installed ↔ status ≠ .alreadyInstalled := by
  cases status <;> decide

/-- The records that stay are those of the last visits. -/
theorem statusesRight_iff {began s s' : σ} {steps : List (Visited σ)}
    (hperformed : Performed (world.visitOne select) s steps s')
    (hids : ∀ step ∈ steps, "tool:" ++ toolName step.1 = step.1) :
    StatusesRight world select began steps (dedupeInstallRecords (steps.map (·.2.2))) ↔
      FoundFromTheStart world select began steps := by
  have hrecords := performed_records hperformed
  have hid : ∀ step ∈ steps, step.2.2.resourceId = step.1 := fun step hstep =>
    (hrecords step hstep).1.trans (hids step hstep)
  have hrecordIds : ∀ rest : List (Visited σ), (∀ step ∈ rest, step ∈ steps) →
      recordIds (rest.map (·.2.2)) = rest.map (·.1) := by
    intro rest hrest
    rw [recordIds, List.map_map]
    exact List.map_congr_left fun step hstep => hid step (hrest step hstep)
  constructor
  · rintro hright before id s₁ record after rfl hlast hfound
    have hstep : (id, s₁, record) ∈ before ++ (id, s₁, record) :: after :=
      List.mem_append_right _ List.mem_cons_self
    have hown : record.resourceId = id := hid _ hstep
    have hmem : record ∈ dedupeInstallRecords
        ((before ++ (id, s₁, record) :: after).map (·.2.2)) := by
      refine mem_dedupe_iff.mpr ⟨before.map (·.2.2), after.map (·.2.2), by simp, ?_⟩
      rw [hrecordIds after fun step hafter => List.mem_append_right _ (List.mem_cons_of_mem _ hafter), hown]
      exact hlast
    have hstatus : record.status = .alreadyInstalled := (hrecords _ hstep).2.mpr hfound
    obtain ⟨hinstalled, halready⟩ := hright record hmem
    rw [hown] at hinstalled halready
    refine ⟨halready hstatus, fun step hbefore hsame => ?_⟩
    by_contra hnot
    have hin : step ∈ before ++ (id, s₁, record) :: after := List.mem_append_left _ hbefore
    have hfresh : step.2.2.status = .installed := by
      rw [InstallStatus.eq_installed_iff, Ne, (hrecords step hin).2, hsame]
      exact hnot
    exact absurd (hinstalled ⟨step, hin, hsame, hfresh⟩) (by rw [hstatus]; decide)
  · intro hfound record hrecord
    obtain ⟨before, after, hsplit, hlast⟩ := mem_dedupe_iff.mp hrecord
    obtain ⟨before, rest, rfl, rfl, hrest⟩ := List.map_eq_append_iff.mp hsplit
    obtain ⟨⟨id, s₁, record'⟩, after, rfl, rfl, rfl⟩ := List.map_eq_cons_iff.mp hrest
    have hstep : (id, s₁, record') ∈ before ++ (id, s₁, record') :: after :=
      List.mem_append_right _ List.mem_cons_self
    have hown : record'.resourceId = id := hid _ hstep
    rw [hrecordIds after fun step hafter => List.mem_append_right _ (List.mem_cons_of_mem _ hafter)] at hlast
    dsimp only at hown hlast ⊢
    rw [hown] at hlast ⊢
    constructor
    · rintro ⟨step, hin, hsame, hfresh⟩
      rw [InstallStatus.eq_installed_iff]
      intro hstatus
      have hall := (hfound before id s₁ record' after rfl hlast ((hrecords _ hstep).2.mp hstatus)).2
      rcases List.mem_append.mp hin with hbefore | hin
      · have hthere := hall step hbefore hsame
        rw [← hsame] at hthere
        rw [(hrecords step (List.mem_append_left _ hbefore)).2.mpr hthere] at hfresh
        cases hfresh
      rcases List.mem_cons.mp hin with rfl | hafter
      · rw [hstatus] at hfresh
        cases hfresh
      · exact hlast (List.mem_map.mpr ⟨step, hafter, hsame⟩)
    · intro hstatus
      exact (hfound before id s₁ record' after rfl hlast ((hrecords _ hstep).2.mp hstatus)).1

/-- Where installs settle, a resource is found exactly when it was there or was met before. -/
theorem found_of_settled {ids : List String} {began start s' : σ}
    (hsettled : Settled world select ids began start) {before after : List (Visited σ)}
    {step : Visited σ} (h : Performed (world.visitOne select) start (before ++ step :: after) s')
    (hids : ∀ other ∈ before ++ step :: after, other.1 ∈ ids) :
    world.found select step.1 step.2.1 =
      (world.present select step.1 began || (before.map (·.1)).contains step.1) := by
  have hpresent : ∀ (before : List (Visited σ)) (s s₁ : σ), (∀ other ∈ before, other.1 ∈ ids) →
      Performed (world.visitOne select) s before s₁ → ∀ id ∈ ids, world.present select id s₁ =
        (world.present select id s || (before.map (·.1)).contains id) := by
    intro before s s₁ hbefore hperformed id hid
    induction hperformed with
    | nil s => simp
    | cons hvisit _ ih =>
      rw [ih fun other hother => hbefore other (List.mem_cons_of_mem _ hother),
        hsettled.visit _ (hbefore _ List.mem_cons_self) _ _ _ hvisit id hid, List.map_cons,
        List.contains_cons, Bool.or_assoc]
  have hid : step.1 ∈ ids := hids step (List.mem_append_right _ List.mem_cons_self)
  rw [hsettled.found _ hid, hpresent before start step.2.1
    (fun other hother => hids other (List.mem_append_left _ hother)) h.split.1 step.1 hid,
    hsettled.start _ hid]

/-- Where an element of a list stands last. -/
theorem exists_last_of_mem {α : Type} {a : α} {xs : List α} (h : a ∈ xs) :
    ∃ before after, xs = before ++ a :: after ∧ a ∉ after := by
  obtain ⟨before, after, hsplit, hnot⟩ := List.eq_append_cons_of_mem (List.mem_reverse.mpr h)
  refine ⟨after.reverse, before.reverse, ?_, fun hmem => hnot (List.mem_reverse.mp hmem)⟩
  rw [← List.reverse_reverse xs, hsplit]
  simp

/-- Where installs settle, the statuses are right exactly when each resource that was not there is
met once. -/
theorem foundFromTheStart_iff {ids : List String} {began start s' : σ}
    (hsettled : Settled world select ids began start) {steps : List (Visited σ)}
    (hperformed : Performed (world.visitOne select) start steps s')
    (hids : ∀ step ∈ steps, step.1 ∈ ids) :
    FoundFromTheStart world select began steps ↔
      ∀ id ∈ steps.map (·.1), world.present select id began = false →
        (steps.map (·.1)).count id = 1 := by
  constructor
  · intro hfound id hid habsent
    obtain ⟨before, after, hsplit, hlast⟩ := exists_last_of_mem hid
    obtain ⟨before, rest, rfl, rfl, hrest⟩ := List.map_eq_append_iff.mp hsplit
    obtain ⟨⟨id, s, record⟩, after, rfl, rfl, rfl⟩ := List.map_eq_cons_iff.mp hrest
    have hearlier := found_of_settled hsettled hperformed hids
    have hnotBefore : id ∉ before.map (·.1) := by
      intro hbefore
      have hfound' := hearlier.trans (by rw [List.contains_iff_mem.mpr hbefore, Bool.or_true])
      rw [(hfound before id s record after rfl hlast hfound').1] at habsent
      cases habsent
    rw [List.map_append, List.map_cons, List.count_append, List.count_cons_self,
      List.count_eq_zero.mpr hnotBefore, List.count_eq_zero.mpr hlast]
  · rintro hcount before id s record after rfl hlast hfound
    have hin : id ∈ (before ++ (id, s, record) :: after).map (·.1) := by simp
    have hthere : world.present select id began = true := by
      by_contra habsent
      have hone := hcount id hin (by simpa using habsent)
      have hearlier := found_of_settled hsettled hperformed hids
      rw [hfound, show world.present select id began = false by simpa using habsent, Bool.false_or,
        eq_comm, List.contains_iff_mem] at hearlier
      have hpositive := List.count_pos_iff.mpr hearlier
      rw [List.map_append, List.map_cons, List.count_append] at hone
      dsimp only at hone hpositive
      rw [List.count_cons_self] at hone
      omega
    refine ⟨hthere, fun step hbefore hsame => ?_⟩
    obtain ⟨first, rest, rfl⟩ := List.append_of_mem hbefore
    rw [List.append_assoc, List.cons_append] at hperformed hids
    rw [← hsame, found_of_settled hsettled hperformed hids, hsame, hthere, Bool.true_or]

end

/-! ## 6. Calls -/

section

variable {σ : Type} (world : World σ) (registry : Dict)

/-- What the walk from the requested resources meets. -/
def callEvents (select : String → Except ResourceError RegistryVersion) (fuel : Nat)
    (roots : List String) : List (Event String ResourceError) :=
  roots.flatMap (unfold (dependencies select) fuel [])

/-- What a call for `roots` has to be: `began` is the state it is made in, `start` the one its
installs start from, and `asked` the version it asks for of each id. -/
structure Sound (asked : String → Option String) (fuel : Nat) (roots : List String) (began start : σ)
    (result : Except ResourceError (List InstallRecord) × σ) : Prop where
  terminates : (registryTools registry).length < fuel → result.1 ≠ .error .recursionError
  cycle : (∃ message, result.1 = .error (.cycle message)) ↔
    ∃ before path id after steps s,
      callEvents (world.selectVersion registry asked) fuel roots = before ++ .again path id :: after ∧
        Returns (world.visitOne (world.selectVersion registry asked)) before start steps s
  reachable : (registryTools registry).length < fuel →
    ((∃ path id, .again path id ∈ callEvents (world.selectVersion registry asked) fuel roots) ↔
      ∃ root ∈ roots, CycleFrom (dependencies (world.selectVersion registry asked)) root)
  returned : ∀ records, result.1 = .ok records → ∃ steps : List (Visited σ),
    Performed (world.visitOne (world.selectVersion registry asked)) start steps result.2 ∧
    (∀ before step after, steps = before ++ step :: after → ∀ id,
      Edge (dependencies (world.selectVersion registry asked)) step.1 id → ∃ done ∈ before, done.1 = id) ∧
    (recordIds records).Nodup ∧
    (∀ id, id ∈ recordIds records ↔ ∃ root ∈ roots,
      Relation.ReflTransGen (Edge (dependencies (world.selectVersion registry asked))) root id) ∧
    (∀ record ∈ records, ∃ step ∈ steps, step.1 = record.resourceId ∧ step.2.2 = record) ∧
    (StatusesRight world (world.selectVersion registry asked) began steps records ↔
      FoundFromTheStart world (world.selectVersion registry asked) began steps) ∧
    (Settled world (world.selectVersion registry asked) (recordIds records) began start →
      (StatusesRight world (world.selectVersion registry asked) began steps records ↔
        ∀ id ∈ recordIds records, world.present (world.selectVersion registry asked) id began = false →
          (visits (callEvents (world.selectVersion registry asked) fuel roots)).count id = 1))

variable {world registry} {asked : String → Option String}

/-- An unknown version is no error of the walk. -/
theorem selectVersion_plain (id : String) (e : ResourceError)
    (h : world.selectVersion registry asked id = .error e) : e.ofWalk = false :=
  resolveVersion_plain h

/-- A normalized id is one of a tool. -/
theorem startsWith_of_normalized {resourceId id : String} (h : normalizeResourceId resourceId = .ok id) :
    startsWith id.toList "tool:" = true := by
  have hself := normalizeResourceId_idem h
  unfold normalizeResourceId at h
  dsimp only at h
  split at h
  · cases h
  split at h
  · cases h
    rw [startsWith, String.toList_append, List.isPrefixOf_iff_prefix]
    exact List.prefix_append _ _
  split at h
  · cases h
  · rename_i hprefixed
    cases h
    simpa using hprefixed

/-- The walk meets normalized ids only, and those with successors are tools of the registry. -/
theorem mem_tools_of_dependencies {id : String} {successors : List String}
    (hid : startsWith id.toList "tool:" = true)
    (h : dependencies (world.selectVersion registry asked) id = .ok successors) :
    id ∈ ((registryTools registry).filterMap fun tool =>
        match tool.get "name" with
        | some (.str text) => some text
        | _ => none).map ("tool:" ++ ·) ∧
      ∀ other ∈ successors, startsWith other.toList "tool:" = true := by
  unfold dependencies at h
  split at h
  · cases h
  rename_i selected hselected
  cases h
  refine ⟨List.mem_map.mpr ⟨toolName id, mem_of_resolveVersion hselected, tool_append_toolName hid⟩, ?_⟩
  exact fun other hother =>
    startsWith_of_normalized (normalized_of_resolveVersion hselected other hother)

/-- Tools depend on tools. -/
theorem reachable_startsWith {root id : String} (hroot : startsWith root.toList "tool:" = true)
    (h : Relation.ReflTransGen (Edge (dependencies (world.selectVersion registry asked))) root id) :
    startsWith id.toList "tool:" = true := by
  induction h with
  | refl => exact hroot
  | tail _ hedge ih =>
    obtain ⟨successors, hnext, hmem⟩ := hedge
    exact (mem_tools_of_dependencies ih hnext).2 _ hmem

/-- The walk is not cut when the interpreter follows one call more than the registry has tools. -/
theorem cut_not_mem_callEvents {fuel : Nat} {roots : List String}
    (hroots : ∀ root ∈ roots, startsWith root.toList "tool:" = true)
    (hfuel : (registryTools registry).length < fuel) :
    .cut ∉ callEvents (world.selectVersion registry asked) fuel roots := by
  intro hcut
  obtain ⟨root, hroot, hcut⟩ := List.mem_flatMap.mp hcut
  refine cut_not_mem_unfold (fun id successors hid hnext => mem_tools_of_dependencies hid hnext) fuel [] root
    (hroots root hroot) List.nodup_nil (List.nil_subset _) ?_ hcut
  rw [List.length_map, List.length_nil, Nat.zero_add]
  exact lt_of_le_of_lt (List.length_filterMap_le _ _) hfuel

/-- Which error of the walk an event stops a run with. -/
theorem stopsAt_ofWalk {fuel : Nat} {roots : List String} {event : Event String ResourceError}
    {s s' : σ} {e : ResourceError}
    (hevent : event ∈ callEvents (world.selectVersion registry asked) fuel roots)
    (h : StopsAt (world.visitOne (world.selectVersion registry asked))
      (fun path id => .cycle (cycleMessage path id)) .recursionError event s e s')
    (he : e.ofWalk = true) :
    (∃ path id, event = .again path id ∧ e = .cycle (cycleMessage path id)) ∨
      event = .cut ∧ e = .recursionError := by
  rcases h with ⟨id, rfl, hvisit⟩ | ⟨hstop, -⟩
  · rw [visitOne_plain selectVersion_plain hvisit] at he
    cases he
  cases event with
  | visit id => cases hstop
  | again path id =>
    cases hstop
    exact .inl ⟨path, id, rfl, rfl⟩
  | cut =>
    cases hstop
    exact .inr ⟨rfl, rfl⟩
  | fail e' =>
    cases hstop
    obtain ⟨root, -, hfail⟩ := List.mem_flatMap.mp hevent
    obtain ⟨id, hid⟩ := exists_of_fail_mem_unfold hfail
    unfold dependencies at hid
    split at hid
    · rename_i hselected
      cases hid
      rw [selectVersion_plain _ _ hselected] at he
      cases he
    · cases hid

/-- A call that is the run of its events, up to de-duplication, is sound. -/
theorem sound_of_run {fuel : Nat} {roots : List String} {began start : σ}
    {result : Except ResourceError (List InstallRecord) × σ}
    (hroots : ∀ root ∈ roots, startsWith root.toList "tool:" = true)
    (halike : AlikeResult result (world.runInstalls (world.selectVersion registry asked)
      (callEvents (world.selectVersion registry asked) fuel roots) start))
    (hdeduped : ∀ records, result.1 = .ok records → dedupeInstallRecords records = records) :
    Sound world registry asked fuel roots began start result := by
  have hwalk : ∀ e, e.ofWalk = true → result.1 = .error e →
      ∃ before event after steps s₁, callEvents (world.selectVersion registry asked) fuel roots =
          before ++ event :: after ∧
        Returns (world.visitOne (world.selectVersion registry asked)) before start steps s₁ ∧
        ((∃ path id, event = .again path id ∧ e = .cycle (cycleMessage path id)) ∨
          event = .cut ∧ e = .recursionError) := by
    intro e he hresult
    obtain ⟨s, hrun⟩ := (halike.error_iff e).mp hresult
    obtain ⟨before, event, after, steps, s₁, hsplit, hreturns, hstops⟩ := runEvents_eq_error_iff.mp hrun
    exact ⟨before, event, after, steps, s₁, hsplit, hreturns,
      stopsAt_ofWalk (hsplit ▸ List.mem_append_right _ List.mem_cons_self) hstops he⟩
  refine ⟨fun hfuel hresult => ?_, ⟨?_, ?_⟩, fun hfuel => ?_, fun records hresult => ?_⟩
  · obtain ⟨before, event, after, _, _, hsplit, -, ⟨path, id, -, hcycle⟩ | ⟨rfl, -⟩⟩ := hwalk _ rfl hresult
    · cases hcycle
    · exact cut_not_mem_callEvents hroots hfuel (hsplit ▸ List.mem_append_right _ List.mem_cons_self)
  · rintro ⟨message, hresult⟩
    obtain ⟨before, event, after, steps, s₁, hsplit, hreturns, ⟨path, id, rfl, -⟩ | ⟨-, hcut⟩⟩ :=
      hwalk _ rfl hresult
    · exact ⟨before, path, id, after, steps, s₁, hsplit, hreturns⟩
    · cases hcut
  · rintro ⟨before, path, id, after, steps, s₁, hsplit, hreturns⟩
    refine ⟨cycleMessage path id, (halike.error_iff _).mpr ⟨s₁, runEvents_eq_error_iff.mpr ?_⟩⟩
    exact ⟨before, _, after, steps, s₁, hsplit, hreturns, .inr ⟨rfl, rfl⟩⟩
  · have hcut : ∀ root ∈ roots,
        .cut ∉ unfold (dependencies (world.selectVersion registry asked)) fuel [] root :=
      fun root hroot hmem => cut_not_mem_callEvents hroots hfuel (List.mem_flatMap.mpr ⟨root, hroot, hmem⟩)
    constructor
    · rintro ⟨path, id, hmem⟩
      obtain ⟨root, hroot, hmem⟩ := List.mem_flatMap.mp hmem
      exact ⟨root, hroot, (again_mem_unfold_iff (hcut root hroot)).mp ⟨path, id, hmem⟩⟩
    · rintro ⟨root, hroot, hcycle⟩
      obtain ⟨path, id, hmem⟩ := (again_mem_unfold_iff (hcut root hroot)).mpr hcycle
      exact ⟨path, id, List.mem_flatMap.mpr ⟨root, hroot, hmem⟩⟩
  · obtain ⟨trace, hrun, hsame⟩ := halike.exists_of_ok hresult
    obtain ⟨steps, ⟨hcomplete, hperformed, hsteps⟩, rfl⟩ := runEvents_eq_ok_iff.mp hrun
    have hrecords : records = dedupeInstallRecords (steps.map (·.2.2)) :=
      (hdeduped records hresult).symm.trans hsame.dedupe_eq
    have hmet : ∀ id, id ∈ steps.map (·.1) ↔ ∃ root ∈ roots,
        Relation.ReflTransGen (Edge (dependencies (world.selectVersion registry asked))) root id := fun id => by
      rw [hsteps]
      exact mem_visits_flatMap_iff hcomplete
    have hids : ∀ step ∈ steps, "tool:" ++ toolName step.1 = step.1 := by
      intro step hstep
      obtain ⟨root, hroot, hreach⟩ := (hmet step.1).mp (List.mem_map_of_mem hstep)
      exact tool_append_toolName (reachable_startsWith (hroots root hroot) hreach)
    have hown : ∀ step ∈ steps, step.2.2.resourceId = step.1 := fun step hstep =>
      (performed_records hperformed step hstep).1.trans (hids step hstep)
    have hlisted : ∀ id, id ∈ recordIds records ↔ id ∈ steps.map (·.1) := by
      intro id
      rw [hrecords, mem_recordIds_dedupe, recordIds, List.map_map]
      exact iff_of_eq (congrArg (id ∈ ·) (List.map_congr_left hown))
    have hright : StatusesRight world (world.selectVersion registry asked) began steps records ↔
        FoundFromTheStart world (world.selectVersion registry asked) began steps :=
      hrecords ▸ statusesRight_iff hperformed hids
    refine ⟨steps, hperformed, ?_, hrecords ▸ nodup_dedupe _, fun id => (hlisted id).trans (hmet id), ?_, hright,
      fun hsettled => ?_⟩
    · rintro before step after rfl id hedge
      rw [List.map_append, List.map_cons] at hsteps
      obtain ⟨done, hdone, hid⟩ := List.mem_map.mp (successors_before_flatMap hcomplete hsteps.symm hedge)
      exact ⟨done, hdone, hid⟩
    · intro record hrecord
      rw [hrecords] at hrecord
      obtain ⟨before, after, hsplit, -⟩ := mem_dedupe_iff.mp hrecord
      obtain ⟨step, hstep, rfl⟩ := List.mem_map.mp (hsplit ▸ List.mem_append_right _ List.mem_cons_self)
      exact ⟨step, hstep, (hown step hstep).symm, rfl⟩
    · rw [hright, foundFromTheStart_iff hsettled hperformed
        fun step hstep => (hlisted _).mpr (List.mem_map_of_mem hstep), hsteps]
      exact forall_congr' fun id => by rw [hlisted, hsteps]

/-- An install returns de-duplicated records. -/
theorem dedupe_install {fuel : Nat} {path : List String} {resourceId : String} {version : Option String}
    {s : σ} {records : List InstallRecord}
    (h : (world.install registry fuel path resourceId version s).1 = .ok records) :
    ∃ trace, records = dedupeInstallRecords trace := by
  cases fuel with
  | zero => cases h
  | succ fuel =>
    rw [World.install] at h
    split at h
    · cases h
    split at h
    · cases h
    split at h
    · cases h
    · obtain ⟨_, s₁, -, h⟩ := andThen_eq_ok_iff.mp (Prod.ext h rfl)
      obtain ⟨_, s₂, -, h⟩ := andThen_eq_ok_iff.mp h
      cases h
      exact ⟨_, rfl⟩

/-- **Installs.** For every registry, resource and world: a call ends, it raises the cycle error
exactly when the walk meets a cycle before anything else goes wrong, and otherwise it installs
each reachable resource after its dependencies and returns one record for each. The records have
the right statuses if and only if no resource is found present and healthy on the last path to it
that was not so on every path and when the call began; where installs settle, if and only if every
resource that was not there is reached on one path only. -/
theorem install_sound (world : World σ) (registry : Dict) (fuel : Nat) (s : σ) :
    (∀ resourceId version id, normalizeResourceId resourceId = .ok id →
      Sound world registry (fun other => if other = id then version else none) fuel [id] s s
        (world.install registry fuel [] resourceId version s)) ∧
    (∀ selected s', resolveVersion world.platformName registry "ecc-fe" none = .ok selected →
      world.recordRequired selected.requires s = (.ok (), s') →
      Sound world registry (fun _ => none) fuel selected.requires s s'
        (world.installRequired registry fuel s)) := by
  constructor
  · intro resourceId version id hid
    refine sound_of_run (fun root hroot => List.mem_singleton.mp hroot ▸ startsWith_of_normalized hid) ?_ ?_
    · rw [callEvents, List.flatMap_cons, List.flatMap_nil, List.append_nil]
      refine install_alike fuel [] resourceId version id hid (fun _ => ?_) (fun other hnot => ?_) s
      · rw [World.selectVersion, if_pos rfl]
      · rw [World.selectVersion, if_neg (List.ne_of_not_mem_cons hnot)]
    · intro records hrecords
      obtain ⟨trace, rfl⟩ := dedupe_install hrecords
      exact (alike_dedupe trace).dedupe_eq
  · intro selected s' hselected hrecorded
    have hrun : world.installRequired registry fuel s = andThen
        (World.installEach (fun id => world.install registry fuel [] id none) selected.requires s')
        fun records s => (.ok (dedupeInstallRecords records), s) := by
      rw [World.installRequired, hselected]
      dsimp only
      rw [hrecorded]
    have hnormalized := normalized_of_resolveVersion hselected
    refine sound_of_run (fun root hroot => startsWith_of_normalized (hnormalized root hroot)) ?_ ?_
    · rw [hrun]
      refine AlikeResult.deduped (AlikeResult.installEach (fun id hid s => ?_) s')
      exact install_alike fuel [] id none id (hnormalized id hid) (fun _ => rfl) (fun _ _ => rfl) s
    · intro records hrecords
      rw [hrun] at hrecords
      obtain ⟨trace, s₁, -, heq⟩ := andThen_eq_ok_iff.mp (Prod.ext hrecords rfl)
      cases heq
      exact (alike_dedupe trace).dedupe_eq

end

/-! ## 7. A registry of three tools -/

/-- Which of the tools `a`, `b` and `c` are installed. -/
structure Demo where
  a : Bool
  b : Bool
  c : Bool

/-- The manifest key of an installed tool, and its entry. -/
def demoEntry (name : String) : String × Json :=
  ("tool:" ++ name, .obj [("type", .str "tool"), ("name", .str name), ("version", .str "1"),
    ("path", .str ("/t/" ++ name ++ "/1")), ("sha256", .str (String.ofList (List.replicate 64 '0')))])

def Demo.names (s : Demo) : List String :=
  (if s.a then ["a"] else []) ++ (if s.b then ["b"] else []) ++ (if s.c then ["c"] else [])

def demoDisk (s : Demo) : Disk where
  host := {
    fs := .plain (s.names.map fun name => (["t", name, "1"], .directory))
    home := fun _ => []
    cwd := [] }
  executable := fun _ => false
  dataHome := ⟨true, []⟩
  stateHome := ⟨true, []⟩

def demoWorld : World Demo where
  platformName := "linux-x86_64"
  fetch := fun _ s => (.unreadable "offline", s)
  manifest := fun s => .ok [("installed", .obj (s.names.map demoEntry))]
  defaultManifest := fun _ => []
  disk := demoDisk
  installFresh := fun name _ s =>
    (.ok ("/t/" ++ name ++ "/1"), ⟨s.a || name == "a", s.b || name == "b", s.c || name == "c"⟩)
  recordRequired := fun _ s => (.ok (), s)

def demoTool (name : String) (requires : List String) : Json :=
  .obj [("name", .str name), ("versions", .arr [.obj [("version", .str "1"),
    ("requires", .arr (requires.map .str)),
    ("platforms", .obj [("all-platform", .obj [("url", .str "http://t"),
      ("sha256", .str (String.ofList (List.replicate 64 '0'))), ("size", .int 1)])])]])]

/-- `a` needs `b` and `c`, which needs `b` too. -/
def triangle : Dict :=
  [("schema_version", .int 2),
    ("tools", .arr [demoTool "a" ["b", "c"], demoTool "b" [], demoTool "c" ["b"]])]

/-- Nothing is installed. -/
def bare : Demo := ⟨false, false, false⟩

/-- In the triangle `b` is met again after it was installed, and is returned as already installed. -/
theorem install_triangle : ¬∀ (σ : Type) (world : World σ) (registry : Dict) (fuel : Nat)
    (resourceId : String) (s : σ) (records : List InstallRecord),
    (world.install registry fuel [] resourceId none s).1 = .ok records →
      ∀ record ∈ records, record.status = .alreadyInstalled →
        world.present (world.selectVersion registry fun _ => none) record.resourceId s = true := by
  intro h
  have hpresent := h Demo demoWorld triangle 5 "a" bare [
      ⟨"tool:b", .alreadyInstalled, "1", some "/t/b/1"⟩, ⟨"tool:c", .installed, "1", some "/t/c/1"⟩,
      ⟨"tool:a", .installed, "1", some "/t/a/1"⟩] (by rfl) _ List.mem_cons_self rfl
  have habsent : demoWorld.present (demoWorld.selectVersion triangle fun _ => none) "tool:b" bare = false := by
    decide +kernel
  rw [habsent] at hpresent
  cases hpresent

end EccFe.Cli
