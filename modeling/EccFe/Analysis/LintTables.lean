/-
EccFe.Analysis.LintTables — the tables of a lint summary against its diagnostics.

Rules, files and ownership are three ways to group one list of diagnostics. `Partitions` says
what a table owes to the list: one row for each key, and in each row the numbers of the
diagnostics with that key. What the rows add up to follows from it (`Partitions.sum_eq`).

A file row is marked actionable when one of its diagnostics is; a diagnostic of the tool about
the same file is none (`file_rows_overcount`).
-/
import Mathlib.Algebra.BigOperators.Group.List.Basic
import EccFe.Analysis.Acceptance
import EccFe.Tools.InputDigest

namespace EccFe.Analysis.LintTables

open Python Engine Tools.RtlInputs Tools.RtlOwnership Tools.ToolLog Tools.Verilator.Lint

/-! ## 1. Tables -/

/-- The rows of a table of the record. -/
def rowsOf (record : Dict) (table : String) : List Dict :=
  (record.getD table .null).items.map Json.asDict

def countAt (row : Dict) (field : String) : Nat :=
  match row.get field with
  | some (.int n) => n.toNat
  | _ => 0

def isActionable (item : Dict) : Bool := item.get "actionable" == some (.bool true)

def columnSum (field : String) (rows : List Dict) : Nat := (rows.map fun row => countAt row field).sum

/-- What a count of a row is about: all diagnostics, the errors or the warnings. -/
def counted (field : String) (item : Dict) : Bool :=
  match field with
  | "errors" => item.textAt "severity" == "error"
  | "warnings" => item.textAt "severity" == "warning"
  | _ => true

def countFields : List String := ["errors", "warnings", "total"]

theorem forall_countFields {p : String → Prop} (herrors : p "errors") (hwarnings : p "warnings")
    (htotal : p "total") : ∀ field ∈ countFields, p field := by
  simp [countFields, herrors, hwarnings, htotal]

/-- The rows of a table group the diagnostics that have a key. -/
structure Partitions (rowKey : Dict → String) (key : Dict → Option String) (rows items : List Dict) :
    Prop where
  /-- No two rows have one key. -/
  distinct : (rows.map rowKey).Nodup
  covered : ∀ item ∈ items, ∀ k, key item = some k → k ∈ rows.map rowKey
  counts : ∀ field ∈ countFields, ∀ row ∈ rows,
    countAt row field = items.countP fun item => key item = some (rowKey row) && counted field item

/-- Among distinct keys a key is counted once, when it is there. -/
theorem sum_ite_eq {κ : Type} [DecidableEq κ] {k : κ} {keys : List κ} (hnodup : keys.Nodup) :
    (keys.map fun other => if k = other then 1 else 0).sum = if k ∈ keys then 1 else 0 := by
  induction keys with
  | nil => rfl
  | cons other keys ih =>
    rw [List.nodup_cons] at hnodup
    rw [List.map_cons, List.sum_cons, ih hnodup.2]
    by_cases heq : k = other
    · subst heq
      simp [hnodup.1]
    · simp [heq]

/-- Distinct keys count every item that has one of them once. -/
theorem sum_countP_keys {α κ : Type} [DecidableEq κ] (key : α → Option κ) (p : α → Bool)
    {keys : List κ} (hnodup : keys.Nodup) (items : List α) :
    (keys.map fun k => items.countP fun item => key item = some k && p item).sum =
      items.countP fun item => (key item).any (· ∈ keys) && p item := by
  induction items with
  | nil => simp
  | cons item items ih =>
    have hone : (keys.map fun k => if (key item = some k && p item) = true then 1 else 0).sum =
        if ((key item).any (· ∈ keys) && p item) = true then 1 else 0 := by
      cases hkey : key item with
      | none => simp
      | some k =>
        have hsum := sum_ite_eq (k := k) hnodup
        cases hp : p item with
        | false => simp
        | true => simpa using hsum
    simp only [List.countP_cons]
    rw [List.sum_map_add, ih, hone]

section

variable {rowKey : Dict → String} {key : Dict → Option String} {rows items : List Dict}

/-- Some diagnostic with the key of this one is actionable. -/
def sharesAction (key : Dict → Option String) (items : List Dict) (item : Dict) : Bool :=
  (key item).any fun k => items.any fun other => key other = some k && isActionable other

/-- The rows' number of diagnostics with `p`, added up over some of the rows. -/
theorem Partitions.sum_rows (h : Partitions rowKey key rows items) (flag p : Dict → Bool) :
    ((rows.filter flag).map fun row =>
      items.countP fun item => key item = some (rowKey row) && p item).sum =
      items.countP fun item => (key item).any (· ∈ (rows.filter flag).map rowKey) && p item := by
  have hnodup : ((rows.filter flag).map rowKey).Nodup :=
    h.distinct.sublist (List.filter_sublist.map rowKey)
  rw [← sum_countP_keys key p hnodup items, List.map_map]
  rfl

/-- The counts of the rows add up to those of the diagnostics that have a key. -/
theorem Partitions.sum_eq (h : Partitions rowKey key rows items) {field : String}
    (hfield : field ∈ countFields) :
    columnSum field rows = items.countP fun item => (key item).isSome && counted field item := by
  have hall : rows.filter (fun _ => true) = rows := List.filter_eq_self.mpr fun _ _ => rfl
  have hsum := h.sum_rows (fun _ => true) (counted field)
  rw [hall] at hsum
  rw [columnSum, List.map_congr_left fun row hrow => h.counts field hfield row hrow, hsum]
  refine List.countP_congr fun item hitem => ?_
  cases hkey : key item with
  | none => simp
  | some k =>
    have hrow := List.mem_map.mp (h.covered item hitem k hkey)
    simp [hrow]

/-- The rows marked actionable count the diagnostics that share a key with an actionable one. -/
theorem Partitions.sum_flagged (h : Partitions rowKey key rows items)
    (hflag : ∀ row ∈ rows, isActionable row = true ↔
      ∃ item ∈ items, key item = some (rowKey row) ∧ isActionable item = true) :
    columnSum "total" (rows.filter isActionable) = items.countP (sharesAction key items) := by
  have hcounts : ∀ row ∈ rows.filter isActionable, countAt row "total" =
      items.countP fun item => key item = some (rowKey row) && true := fun row hrow =>
    h.counts "total" (by decide) row (List.mem_of_mem_filter hrow)
  rw [columnSum, List.map_congr_left hcounts, h.sum_rows isActionable fun _ => true]
  refine List.countP_congr fun item hitem => ?_
  cases hkey : key item with
  | none => simp [sharesAction, hkey]
  | some k =>
    obtain ⟨row, hrow, hk⟩ := List.mem_map.mp (h.covered item hitem k hkey)
    have hkeys : k ∈ (rows.filter isActionable).map rowKey ↔
        ∃ other ∈ items, key other = some k ∧ isActionable other = true := by
      rw [← hk, ← hflag row hrow]
      constructor
      · intro hmem
        obtain ⟨row', hrow', hsame⟩ := List.mem_map.mp hmem
        obtain ⟨hmem', hactionable⟩ := List.mem_filter.mp hrow'
        rwa [← List.inj_on_of_nodup_map h.distinct hmem' hrow hsame]
      · exact fun hactionable => List.mem_map_of_mem (List.mem_filter.mpr ⟨hrow, hactionable⟩)
    simp [sharesAction, hkey, hkeys]

end

/-! ## 2. Groups -/

section

variable (key : OwnedDiagnostic → String) (diagnostics : List OwnedDiagnostic)

theorem mem_groupedBy {group : (Nat × Nat × String) × List OwnedDiagnostic} :
    group ∈ groupedBy key diagnostics ↔ ∃ value ∈ diagnostics.map key,
      group.2 = diagnostics.filter (fun d => key d == value) ∧
        group.1 = (severityCount "error" group.2, severityCount "warning" group.2, value) := by
  rw [groupedBy, (List.mergeSort_perm _ _).mem_iff, List.mem_map]
  constructor
  · rintro ⟨value, hvalue, rfl⟩
    rw [distinctTexts, mem_foldl_distinct] at hvalue
    exact ⟨value, hvalue.resolve_left List.not_mem_nil, rfl, rfl⟩
  · rintro ⟨value, hvalue, hitems, hcounts⟩
    refine ⟨value, ?_, ?_⟩
    · rw [distinctTexts, mem_foldl_distinct]
      exact .inr hvalue
    · rw [← hitems]
      exact Prod.ext hcounts.symm rfl

theorem key_mem_groupedBy {d : OwnedDiagnostic} (hd : d ∈ diagnostics) :
    key d ∈ (groupedBy key diagnostics).map (·.1.2.2) := by
  let items := diagnostics.filter fun other => key other == key d
  have hgroup : ((severityCount "error" items, severityCount "warning" items, key d), items) ∈
      groupedBy key diagnostics :=
    (mem_groupedBy key diagnostics).mpr ⟨key d, List.mem_map_of_mem hd, rfl, rfl⟩
  exact List.mem_map.mpr ⟨_, hgroup, rfl⟩

/-- Every value of the key has one group. -/
theorem nodup_groupedBy : ((groupedBy key diagnostics).map (·.1.2.2)).Nodup := by
  have hperm := (List.mergeSort_perm ((distinctTexts (diagnostics.map key)).map fun value =>
    let items := diagnostics.filter fun d => key d == value
    ((severityCount "error" items, severityCount "warning" items, value), items))
      (fun a b => hotBefore a.1 b.1)).map fun group => group.1.2.2
  rw [groupedBy, hperm.nodup_iff, List.map_map]
  have hkeys : (distinctTexts (diagnostics.map key)).Nodup := nodup_foldl_distinct _ [] List.nodup_nil
  simpa [Function.comp_def] using hkeys

end

/-! ## 3. The tables of a summary -/

/-- `str(item.get("code") or item.get("severity") or "UNKNOWN")` of a diagnostic of the record. -/
def recordRule (item : Dict) : Option String :=
  some (if item.textAt "code" ≠ "" then item.textAt "code"
    else if item.textAt "severity" ≠ "" then item.textAt "severity" else "UNKNOWN")

def recordSource (item : Dict) : Option String :=
  if strip (item.textAt "source") = "" then none else some (strip (item.textAt "source"))

def recordOwner (item : Dict) : Option String := some (item.textAt "ownership")

section

variable (diagnostics : List OwnedDiagnostic)

theorem countP_record (p : Dict → Bool) :
    (diagnostics.map OwnedDiagnostic.record).countP p = diagnostics.countP fun d => p d.record :=
  List.countP_map

theorem severityCount_filter (severity : String) (p : OwnedDiagnostic → Bool) :
    severityCount severity (diagnostics.filter p) =
      diagnostics.countP fun d => p d && d.severity == severity := by
  rw [severityCount, List.countP_filter]
  exact List.countP_congr fun d _ => by rw [Bool.and_comm]

/-- A count of a row made of a group is that of the group. -/
theorem countAt_group {key : OwnedDiagnostic → String} {group : (Nat × Nat × String) × List OwnedDiagnostic}
    {value : String} (hitems : group.2 = diagnostics.filter (fun d => key d == value))
    (hcounts : group.1 = (severityCount "error" group.2, severityCount "warning" group.2, value))
    {row : Dict} (hrow : ∀ field ∈ countFields, row.get field = Dict.get (groupCounts group) field) :
    ∀ field ∈ countFields,
      countAt row field = diagnostics.countP fun d => key d == value && counted field d.record := by
  have hgroup : ∀ field ∈ countFields, countAt row field = countAt (groupCounts group) field :=
    fun field hfield => by rw [countAt, hrow field hfield, countAt]
  have herrors : group.1.1 = severityCount "error" group.2 := by rw [hcounts]
  have hwarnings : group.1.2.1 = severityCount "warning" group.2 := by rw [hcounts]
  refine fun field hfield => (hgroup field hfield).trans (forall_countFields (p := fun field =>
    countAt (groupCounts group) field =
      diagnostics.countP fun d => key d == value && counted field d.record) ?_ ?_ ?_ field hfield)
  · show group.1.1 = _
    rw [herrors, hitems, severityCount_filter]
    rfl
  · show group.1.2.1 = _
    rw [hwarnings, hitems, severityCount_filter]
    rfl
  · show group.2.length = _
    rw [hitems, ← List.countP_eq_length_filter]
    exact List.countP_congr fun d _ => by simp [counted]

/-- A table with one row for each group of the diagnostics that have a key. -/
theorem partitions_of_groups (key : OwnedDiagnostic → String) (rowKey : Dict → String)
    (recordKey : Dict → Option String) {kept : List OwnedDiagnostic}
    {row : (Nat × Nat × String) × List OwnedDiagnostic → Dict}
    (hkept : diagnostics.filter (fun d => (recordKey d.record).isSome) = kept)
    (hkey : ∀ d ∈ diagnostics, ∀ k, recordKey d.record = some k → key d = k)
    (hrowKey : ∀ group, rowKey (row group) = group.1.2.2)
    (hrow : ∀ f ∈ countFields, ∀ group, (row group).get f = Dict.get (groupCounts group) f) :
    Partitions rowKey recordKey ((groupedBy key kept).map row)
      (diagnostics.map OwnedDiagnostic.record) := by
  have hkeys : ((groupedBy key kept).map row).map rowKey = (groupedBy key kept).map (·.1.2.2) := by
    rw [List.map_map]
    exact List.map_congr_left fun group _ => hrowKey group
  constructor
  · rw [hkeys]
    exact nodup_groupedBy key _
  · intro item hitem k hk
    obtain ⟨d, hd, rfl⟩ := List.mem_map.mp hitem
    have hmem : d ∈ kept := by
      rw [← hkept, List.mem_filter]
      exact ⟨hd, by rw [hk]; rfl⟩
    rw [hkeys, ← hkey d hd k hk]
    exact key_mem_groupedBy key kept hmem
  · intro field hfield r hr
    obtain ⟨group, hgroup, rfl⟩ := List.mem_map.mp hr
    obtain ⟨value, -, hitems, hcounts⟩ := (mem_groupedBy key _).mp hgroup
    have hvalue : group.1.2.2 = value := by rw [hcounts]
    rw [countAt_group _ hitems hcounts (fun f hf => hrow f hf group) field hfield, countP_record, ← hkept,
      List.countP_filter, hrowKey, hvalue]
    refine List.countP_congr fun d hd => ?_
    cases hrecord : recordKey d.record with
    | none => simp
    | some k => simp [hkey d hd k hrecord]

theorem rowsOf_map {α : Type} {record : Dict} {table : String} {row : α → Dict} {groups : List α}
    (h : record.get table = some (.arr (groups.map fun group => .obj (row group)))) :
    rowsOf record table = groups.map row := by
  rw [rowsOf, Dict.getD, h]
  show (groups.map _).map Json.asDict = _
  rw [List.map_map]
  rfl

theorem rules_partition {record : Dict}
    (hrules : record.get "rules" = some (.arr (lintRuleBreakdown diagnostics))) :
    Partitions (Dict.textAt · "code") recordRule (rowsOf record "rules")
      (diagnostics.map OwnedDiagnostic.record) := by
  rw [rowsOf_map hrules]
  exact partitions_of_groups diagnostics ruleOf (Dict.textAt · "code") recordRule
    (List.filter_eq_self.mpr fun _ _ => rfl) (fun _ _ _ hk => Option.some.inj hk) (fun _ => rfl)
    (forall_countFields (fun _ => rfl) (fun _ => rfl) (fun _ => rfl))

theorem files_partition {record : Dict}
    (hfiles : record.get "files" = some (.arr (lintFileHotspots diagnostics))) :
    Partitions (Dict.textAt · "path") recordSource (rowsOf record "files")
      (diagnostics.map OwnedDiagnostic.record) := by
  have hsource : ∀ d : OwnedDiagnostic, recordSource d.record =
      if strip d.source = "" then none else some (strip d.source) := fun _ => rfl
  rw [rowsOf_map hfiles]
  refine partitions_of_groups diagnostics (fun d => strip d.source) (Dict.textAt · "path") recordSource
    (List.filter_congr fun d _ => ?_) (fun d _ k hk => ?_) (fun _ => rfl)
    (forall_countFields (fun _ => rfl) (fun _ => rfl) (fun _ => rfl))
  · rw [hsource]
    by_cases h : strip d.source = ""
    · simp [h]
    · simp [h]
  · rw [hsource] at hk
    split at hk
    · cases hk
    · exact Option.some.inj hk

/-- The owners of the table are the known ones in turn. -/
theorem ownership_partition {record : Dict}
    (hknown : ∀ d ∈ diagnostics, d.ownership ∈ rtlOwnerships)
    (hownership : record.get "ownership" = some (.arr (lintOwnershipBreakdown diagnostics))) :
    Partitions (Dict.textAt · "ownership") recordOwner (rowsOf record "ownership")
      (diagnostics.map OwnedDiagnostic.record) := by
  rw [rowsOf_map hownership]
  constructor
  · rw [List.map_map]
    show (List.map id _).Nodup
    rw [List.map_id]
    exact (by decide : rtlOwnerships.Nodup).filter _
  · intro item hitem k hk
    obtain ⟨d, hd, rfl⟩ := List.mem_map.mp hitem
    obtain rfl : d.ownership = k := Option.some.inj hk
    have hmem : d ∈ ownedBy d.ownership diagnostics := List.mem_filter.mpr ⟨hd, beq_self_eq_true _⟩
    rw [List.map_map, List.mem_map]
    refine ⟨d.ownership, List.mem_filter.mpr ⟨hknown d hd, ?_⟩, rfl⟩
    cases hitems : ownedBy d.ownership diagnostics with
    | nil => simp [hitems] at hmem
    | cons _ _ => rfl
  · intro field hfield r hr
    obtain ⟨owner, -, rfl⟩ := List.mem_map.mp hr
    let items := ownedBy owner diagnostics
    rw [countP_record]
    refine (@countAt_group diagnostics (·.ownership)
      ((severityCount "error" items, severityCount "warning" items, owner), items) owner rfl rfl _
      ?_ field hfield).trans ?_
    · exact forall_countFields rfl rfl rfl
    · exact List.countP_congr fun d _ => by
        show (d.ownership == owner && _) = true ↔ (decide (some d.ownership = some owner) && _) = true
        simp

end

/-! ## 4. Owners -/

section

variable {env : Env} {homeless : String → Bool} {workspace : Workspace}

theorem ownershipOf_mem (kind : DesignKind) : ownershipOf kind ∈ rtlOwnerships := by
  cases kind <;> decide

/-- The manifest names known owners only. -/
theorem ownershipRecords_known : ∀ {records : List Dict} {entries : List (AbsPath × String)},
    ownershipRecords env homeless records = .ok entries → ∀ entry ∈ entries, entry.2 ∈ rtlOwnerships
  | [], entries, h => by
      cases h
      simp
  | record :: rest, entries, h => by
      rw [ownershipRecords] at h
      obtain ⟨entry, hentry, h⟩ := bind_eq_ok.mp h
      obtain ⟨others, hothers, h⟩ := bind_eq_ok.mp h
      cases h
      intro other hother
      rcases List.mem_append.mp hother with hhead | htail
      · obtain rfl := Option.mem_toList.mp hhead
        delta ownershipRecord? at hentry
        split at hentry
        · cases hentry
        · cases hentry
        · cases hentry
          dsimp only
          split
          · assumption
          · decide
      · exact ownershipRecords_known hothers other htail

theorem classifyByFields_known {path : AbsPath} {kind : DesignKind} {owner : String}
    (h : classifyByFields env homeless path workspace kind = .ok owner) : owner ∈ rtlOwnerships := by
  obtain ⟨soc, -, h⟩ := bind_eq_ok.mp h
  cases soc with
  | true => cases h; decide
  | false =>
    obtain ⟨generated, -, h⟩ := bind_eq_ok.mp h
    cases generated with
    | true => cases h; decide
    | false =>
      obtain ⟨cpu, -, h⟩ := bind_eq_ok.mp h
      cases cpu with
      | true => cases h; decide
      | false =>
        obtain ⟨origin, -, h⟩ := bind_eq_ok.mp h
        cases origin with
        | true => cases h; exact ownershipOf_mem kind
        | false => cases h; decide

theorem classifyRtlSource_known {text : String} {owner : String}
    (h : classifyRtlSource env homeless text "" workspace = .ok owner) : owner ∈ rtlOwnerships := by
  have hgroup : lower (strip "") = "" := by decide
  unfold classifyRtlSource at h
  rw [hgroup] at h
  dsimp only at h
  split at h
  · cases h
    decide
  · obtain ⟨path, -, h⟩ := bind_eq_ok.mp h
    obtain ⟨kind, -, h⟩ := bind_eq_ok.mp h
    simp only [String.reduceEq, if_false, List.mem_cons, List.not_mem_nil, or_self, false_and] at h
    split at h
    · rename_i htool
      cases h
      unfold toolOwner? at htool
      split at htool
      · cases htool
        decide
      · split at htool
        · cases htool
          decide
        · cases htool
    · exact classifyByFields_known h

/-- A source without a text is nobody's; any other has a known owner. -/
theorem rtlSourceOwnership_known {owners : List (AbsPath × String)} {text owner : String}
    (howners : ∀ entry ∈ owners, entry.2 ∈ rtlOwnerships)
    (h : rtlSourceOwnership env homeless workspace text owners = .ok owner) :
    owner ∈ rtlOwnerships ∧ (strip text = "" → owner = "unknown") := by
  unfold rtlSourceOwnership at h
  dsimp only at h
  split at h
  · cases h
    exact ⟨by decide, fun _ => rfl⟩
  · rename_i hblank
    refine ⟨?_, fun hempty => absurd hempty hblank⟩
    obtain ⟨path, -, h⟩ := bind_eq_ok.mp h
    split at h
    · rename_i hlookup
      cases h
      obtain ⟨before, after, hentries, -⟩ := List.lookup_eq_some_iff.mp hlookup
      have hmem : (path, owner) ∈ owners.reverse := hentries ▸ List.mem_append_right _ List.mem_cons_self
      exact howners _ (List.mem_reverse.mp hmem)
    · exact classifyRtlSource_known h

/-- A diagnostic of a summary has a known owner, and a source when it is the user's. -/
theorem withOwner_known {owners : List (AbsPath × String)} {d : LintDiagnostic} {kind : DesignKind}
    {owned : OwnedDiagnostic} (howners : ∀ entry ∈ owners, entry.2 ∈ rtlOwnerships)
    (huser : userRtlOwnership workspace = .ok (ownershipOf kind))
    (h : withOwner env homeless workspace owners d = some owned) :
    owned.ownership ∈ rtlOwnerships ∧ (owned.actionable = true → strip owned.source ≠ "") := by
  have hactionable := (Linted.withOwner_eq huser h).2
  simp only [withOwner, Option.bind_eq_bind, Option.bind_eq_some_iff] at h
  obtain ⟨owner, howner, actionable, -, howned⟩ := h
  obtain rfl := Option.some.inj howned
  have hkind : ∀ other ∈ ["tool", "unknown"], other ≠ ownershipOf kind := by
    cases kind <;> decide
  have hknown : owner ∈ rtlOwnerships ∧ (strip d.source = "" → owner ∈ ["tool", "unknown"]) := by
    unfold diagnosticOwner at howner
    split at howner
    · cases howner
      exact ⟨by decide, fun _ => by decide⟩
    · obtain ⟨hmem, hblank⟩ := rtlSourceOwnership_known howners (toOption_eq_some.mp howner)
      refine ⟨hmem, fun hempty => ?_⟩
      rw [hblank hempty]
      decide
  refine ⟨hknown.1, fun htrue hblank => ?_⟩
  rw [hactionable] at htrue
  exact hkind owner (hknown.2 hblank) (eq_of_beq htrue)

end

/-! ## 5. The counts of the tables -/

/-- The count a counter of owners has for one of them. -/
theorem get_counter {keys : List String} {count : String → Json} {key : String} :
    Dict.get (keys.map fun k => (k, count k)) key = if key ∈ keys then some (count key) else none := by
  induction keys with
  | nil => rfl
  | cons k keys ih =>
    rw [List.map_cons, Dict.get_cons, ih]
    by_cases hkey : k = key
    · subst hkey
      simp
    · simp [hkey, Ne.symm hkey]

theorem countAt_ownershipCounter (items : List OwnedDiagnostic) (user : String) :
    countAt (ownershipCounter items).asDict user = (ownedBy user items).length := by
  have hget : Dict.get (ownershipCounter items).asDict user =
      if user ∈ (distinctTexts (items.map (·.ownership))).mergeSort (fun a b => decide (a ≤ b)) then
        some (.int (ownedBy user items).length) else none := get_counter
  have hmem : user ∈ (distinctTexts (items.map (·.ownership))).mergeSort (fun a b => decide (a ≤ b)) ↔
      user ∈ items.map (·.ownership) := by
    rw [(List.mergeSort_perm _ _).mem_iff, distinctTexts, Tools.RtlInputs.mem_foldl_distinct]
    simp
  rw [countAt, hget]
  by_cases huser : user ∈ items.map (·.ownership)
  · rw [if_pos (hmem.mpr huser)]
    rfl
  · have hnone : ownedBy user items = [] := List.filter_eq_nil_iff.mpr fun d hd heq =>
      huser (List.mem_map.mpr ⟨d, hd, eq_of_beq heq⟩)
    rw [if_neg fun h => huser (hmem.mp h), hnone]
    rfl

/-- What the diagnostics of a summary satisfy: known owners, the user's ones are actionable, and
those have a source. -/
structure Sound (user : String) (diagnostics : List OwnedDiagnostic) : Prop where
  known : ∀ d ∈ diagnostics, d.ownership ∈ rtlOwnerships
  actionable : ∀ d ∈ diagnostics, d.actionable = (d.ownership == user)
  located : ∀ d ∈ diagnostics, d.actionable = true → strip d.source ≠ ""

section

variable {user : String} {diagnostics : List OwnedDiagnostic} {record : Dict}

theorem isActionable_eq {row : Dict} {flag : Bool} (h : row.get "actionable" = some (.bool flag)) :
    isActionable row = flag := by
  rw [isActionable, h]
  cases flag <;> rfl

theorem isActionable_record (d : OwnedDiagnostic) : isActionable d.record = d.actionable :=
  isActionable_eq rfl

/-- The numbers the rules have for the user's diagnostics add up to all of these. -/
theorem sum_rule_owners (h : Sound user diagnostics)
    (hrules : record.get "rules" = some (.arr (lintRuleBreakdown diagnostics))) :
    ((rowsOf record "rules").map fun row => countAt (row.dictAt "ownership") user).sum =
      diagnostics.countP (·.actionable) := by
  have hcount : ∀ group ∈ groupedBy ruleOf diagnostics,
      countAt (ownershipCounter group.2).asDict user =
        diagnostics.countP fun d => some (ruleOf d) = some group.1.2.2 && d.ownership == user := by
    intro group hgroup
    obtain ⟨value, -, hitems, hcounts⟩ := (mem_groupedBy ruleOf _).mp hgroup
    rw [countAt_ownershipCounter, ownedBy, hitems, hcounts, List.filter_filter,
      ← List.countP_eq_length_filter]
    exact List.countP_congr fun d _ => by simp [and_comm]
  have hsum := sum_countP_keys (fun d => some (ruleOf d)) (fun d => d.ownership == user)
    (nodup_groupedBy ruleOf diagnostics) diagnostics
  rw [List.map_map] at hsum
  rw [rowsOf_map hrules, List.map_map]
  refine (congrArg List.sum (List.map_congr_left hcount)).trans (hsum.trans ?_)
  refine List.countP_congr fun d hd => ?_
  have hmem := key_mem_groupedBy ruleOf diagnostics hd
  simp [hmem, h.actionable d hd]

/-- A row is marked actionable when one of its diagnostics is. -/
theorem files_flag (hfiles : record.get "files" = some (.arr (lintFileHotspots diagnostics))) :
    ∀ row ∈ rowsOf record "files", isActionable row = true ↔
      ∃ item ∈ diagnostics.map OwnedDiagnostic.record,
        recordSource item = some (row.textAt "path") ∧ isActionable item = true := by
  intro row hrow
  rw [rowsOf_map hfiles] at hrow
  obtain ⟨group, hgroup, rfl⟩ := List.mem_map.mp hrow
  obtain ⟨value, hvalue, hitems, hcounts⟩ := (mem_groupedBy _ _).mp hgroup
  have hsource : ∀ d : OwnedDiagnostic, recordSource d.record =
      if strip d.source = "" then none else some (strip d.source) := fun _ => rfl
  have hne : value ≠ "" := by
    obtain ⟨d, hd, rfl⟩ := List.mem_map.mp hvalue
    simpa using (List.mem_filter.mp hd).2
  rw [isActionable_eq rfl, hitems, List.any_eq_true]
  show _ ↔ ∃ item ∈ _, recordSource item = some group.1.2.2 ∧ _
  rw [hcounts]
  simp only [List.mem_filter, List.mem_map, bne_iff_ne, beq_iff_eq]
  constructor
  · rintro ⟨d, ⟨⟨hd, hlocated⟩, hkey⟩, hactionable⟩
    exact ⟨d.record, ⟨d, hd, rfl⟩, by rw [hsource, if_neg hlocated, hkey],
      (isActionable_record d).trans hactionable⟩
  · rintro ⟨item, ⟨d, hd, rfl⟩, hkey, hactionable⟩
    rw [hsource] at hkey
    rw [isActionable_record] at hactionable
    split at hkey
    · cases hkey
    · rename_i hlocated
      exact ⟨d, ⟨⟨hd, hlocated⟩, Option.some.inj hkey⟩, hactionable⟩

theorem ownership_flag
    (hownership : record.get "ownership" = some (.arr (lintOwnershipBreakdown diagnostics))) :
    ∀ row ∈ rowsOf record "ownership", isActionable row = true ↔
      ∃ item ∈ diagnostics.map OwnedDiagnostic.record,
        recordOwner item = some (row.textAt "ownership") ∧ isActionable item = true := by
  intro row hrow
  rw [rowsOf_map hownership] at hrow
  obtain ⟨owner, -, rfl⟩ := List.mem_map.mp hrow
  rw [isActionable_eq rfl, List.any_eq_true]
  show _ ↔ ∃ item ∈ _, recordOwner item = some owner ∧ _
  simp only [ownedBy, List.mem_filter, List.mem_map, beq_iff_eq]
  constructor
  · rintro ⟨d, ⟨hd, howner⟩, hactionable⟩
    exact ⟨d.record, ⟨d, hd, rfl⟩, congrArg some howner, (isActionable_record d).trans hactionable⟩
  · rintro ⟨item, ⟨d, hd, rfl⟩, howner, hactionable⟩
    exact ⟨d, ⟨hd, Option.some.inj howner⟩, (isActionable_record d).symm.trans hactionable⟩

/-- Who shares an owner with an actionable diagnostic is actionable. -/
theorem sharesAction_owner (h : Sound user diagnostics) :
    (diagnostics.map OwnedDiagnostic.record).countP
      (sharesAction recordOwner (diagnostics.map OwnedDiagnostic.record)) =
      diagnostics.countP (·.actionable) := by
  rw [countP_record]
  refine List.countP_congr fun d hd => ?_
  have howner : ∀ d : OwnedDiagnostic, recordOwner d.record = some d.ownership := fun _ => rfl
  simp only [sharesAction, howner, Option.any_some, List.any_map, List.any_eq_true,
    Function.comp_apply, Option.some.injEq, Bool.and_eq_true, decide_eq_true_eq, isActionable_record]
  constructor
  · rintro ⟨other, hother, hsame, hactionable⟩
    rwa [h.actionable d hd, ← hsame, ← h.actionable other hother]
  · exact fun hactionable => ⟨d, hd, rfl, hactionable⟩

/-- An actionable diagnostic has a source, which it shares with itself. -/
theorem sharesAction_of_actionable (h : Sound user diagnostics) {item : Dict}
    (hitem : item ∈ diagnostics.map OwnedDiagnostic.record) (hactionable : isActionable item = true) :
    sharesAction recordSource (diagnostics.map OwnedDiagnostic.record) item = true := by
  obtain ⟨d, hd, rfl⟩ := List.mem_map.mp hitem
  have hlocated := h.located d hd ((isActionable_record d).symm.trans hactionable)
  have hsource : recordSource d.record = some (strip d.source) := if_neg hlocated
  rw [sharesAction, hsource]
  exact List.any_eq_true.mpr ⟨d.record, hitem, by simp [hsource, hactionable]⟩

end

/-! ## 6. Conservation -/

/-- Where the counts of two predicates agree, when one implies the other. -/
theorem countP_eq_iff {α : Type} {p q : α → Bool} : ∀ {items : List α},
    (∀ item ∈ items, p item = true → q item = true) →
    (items.countP p = items.countP q ↔ ∀ item ∈ items, q item = true → p item = true)
  | [], _ => by simp
  | item :: rest, h => by
      have hrest := fun other hother => h other (List.mem_cons_of_mem item hother)
      have hle := List.countP_mono_left hrest
      have ih := countP_eq_iff hrest
      have hitem := h item List.mem_cons_self
      rw [List.forall_mem_cons, ← ih, List.countP_cons, List.countP_cons]
      cases hp : p item <;> cases hq : q item <;> simp_all
      omega

section

variable {env : Env} {homeless : String → Bool} {workspace : Workspace} {runInfo : RunInfo}
  {logContent : List Char} {summaryPath : String} {record : Dict}

/-- The parts of a summary that are lists of its diagnostics, its tables and its counts. -/
theorem tables_of_build
    (h : buildLintSummary env homeless workspace runInfo logContent summaryPath = some record) :
    ∃ user diagnostics, Sound user diagnostics ∧
      rowsOf record "diagnostics" = diagnostics.map OwnedDiagnostic.record ∧
      record.get "rules" = some (.arr (lintRuleBreakdown diagnostics)) ∧
      record.get "files" = some (.arr (lintFileHotspots diagnostics)) ∧
      record.get "ownership" = some (.arr (lintOwnershipBreakdown diagnostics)) ∧
      (record.dictAt "summary").textAt "actionable_ownership" = user ∧
      countAt (record.dictAt "summary") "errors" = severityCount "error" diagnostics ∧
      countAt (record.dictAt "summary") "warnings" = severityCount "warning" diagnostics ∧
      countAt (record.dictAt "summary") "diagnostics" = diagnostics.length ∧
      countAt (record.dictAt "summary") "actionable_diagnostics" =
        diagnostics.countP (·.actionable) := by
  simp only [buildLintSummary, Option.bind_eq_bind, Option.bind_eq_some_iff] at h
  obtain ⟨found, -, owners, howners, diagnostics, hdiagnostics, incdirs, -, defines, -, user,
    hread, hrecord⟩ := h
  obtain rfl := Option.some.inj hrecord
  refine ⟨user, diagnostics, ?_, rowsOf_map rfl, rfl, rfl, rfl, rfl, rfl, rfl, rfl, rfl⟩
  have huser := toOption_eq_some.mp hread
  obtain ⟨kind, -, rfl⟩ := map_eq_ok.mp huser
  have hknown := ownershipRecords_known (toOption_eq_some.mp howners)
  constructor
  · intro d hd
    obtain ⟨parsed, -, hparsed⟩ := mem_of_mapM hdiagnostics hd
    exact (withOwner_known hknown huser hparsed).1
  · intro d hd
    obtain ⟨parsed, -, hparsed⟩ := mem_of_mapM hdiagnostics hd
    exact (Linted.withOwner_eq huser hparsed).2
  · intro d hd
    obtain ⟨parsed, -, hparsed⟩ := mem_of_mapM hdiagnostics hd
    exact (withOwner_known hknown huser hparsed).2

/-- A table whose key every diagnostic has adds up to the totals of the summary. -/
theorem sum_totals {rowKey : Dict → String} {key : Dict → Option String} {rows : List Dict}
    {diagnostics : List OwnedDiagnostic}
    (h : Partitions rowKey key rows (diagnostics.map OwnedDiagnostic.record))
    (hkey : ∀ item, (key item).isSome = true) :
    columnSum "errors" rows = severityCount "error" diagnostics ∧
      columnSum "warnings" rows = severityCount "warning" diagnostics ∧
      columnSum "total" rows = diagnostics.length := by
  have hsum : ∀ field ∈ countFields, columnSum field rows =
      diagnostics.countP fun d => counted field d.record := by
    intro field hfield
    rw [h.sum_eq hfield, countP_record]
    exact List.countP_congr fun d _ => by rw [hkey, Bool.true_and]
  refine ⟨hsum "errors" (by decide), hsum "warnings" (by decide), ?_⟩
  rw [hsum "total" (by decide), ← List.countP_true]
  rfl

/-- Every diagnostic of a lint summary is in one row of the rules and in one of the owners, and in
one of the files when it has a source; the rows' counts add up to the totals. The actionable
diagnostics are those of the owners marked so, and those the rules have under the user. A marked
file also counts its diagnostics of the tool. -/
theorem lint_tables_conserve
    (h : buildLintSummary env homeless workspace runInfo logContent summaryPath = some record) :
    let items := rowsOf record "diagnostics"
    let summary := record.dictAt "summary"
    (Partitions (Dict.textAt · "code") recordRule (rowsOf record "rules") items ∧
      Partitions (Dict.textAt · "ownership") recordOwner (rowsOf record "ownership") items ∧
      Partitions (Dict.textAt · "path") recordSource (rowsOf record "files") items) ∧
    (∀ table ∈ ["rules", "ownership"],
      columnSum "errors" (rowsOf record table) = countAt summary "errors" ∧
      columnSum "warnings" (rowsOf record table) = countAt summary "warnings" ∧
      columnSum "total" (rowsOf record table) = countAt summary "diagnostics") ∧
    (∀ field ∈ countFields, columnSum field (rowsOf record "files") =
      items.countP fun item => (recordSource item).isSome && counted field item) ∧
    columnSum "total" ((rowsOf record "ownership").filter isActionable) =
      countAt summary "actionable_diagnostics" ∧
    ((rowsOf record "rules").map fun row =>
      countAt (row.dictAt "ownership") (summary.textAt "actionable_ownership")).sum =
      countAt summary "actionable_diagnostics" ∧
    countAt summary "actionable_diagnostics" ≤
      columnSum "total" ((rowsOf record "files").filter isActionable) ∧
    (columnSum "total" ((rowsOf record "files").filter isActionable) =
        countAt summary "actionable_diagnostics" ↔
      ∀ item ∈ items, sharesAction recordSource items item = true → isActionable item = true) := by
  obtain ⟨user, diagnostics, hsound, hitems, hrules, hfiles, hownership, huser, herrors, hwarnings,
    hcount, hactionable⟩ := tables_of_build h
  have hruleRows := rules_partition diagnostics hrules
  have hfileRows := files_partition diagnostics hfiles
  have hownerRows := ownership_partition diagnostics hsound.known hownership
  have hshared : diagnostics.countP (·.actionable) =
      (diagnostics.map OwnedDiagnostic.record).countP isActionable := by
    rw [countP_record]
    exact List.countP_congr fun d _ => by rw [isActionable_record]
  have hmono : ∀ item ∈ diagnostics.map OwnedDiagnostic.record, isActionable item = true →
      sharesAction recordSource (diagnostics.map OwnedDiagnostic.record) item = true :=
    fun item => sharesAction_of_actionable hsound
  dsimp only
  rw [hitems, huser, herrors, hwarnings, hcount, hactionable]
  refine ⟨⟨hruleRows, hownerRows, hfileRows⟩, ?_, fun field hfield => hfileRows.sum_eq hfield, ?_,
    sum_rule_owners hsound hrules, ?_, ?_⟩
  · simp only [List.forall_mem_cons]
    exact ⟨sum_totals hruleRows fun _ => rfl, sum_totals hownerRows fun _ => rfl, by simp⟩
  · rw [hownerRows.sum_flagged (ownership_flag hownership), sharesAction_owner hsound]
  · rw [hfileRows.sum_flagged (files_flag hfiles), hshared]
    exact List.countP_mono_left hmono
  · rw [hfileRows.sum_flagged (files_flag hfiles), hshared, eq_comm]
    exact countP_eq_iff hmono

end

/-- A warning about the user's file, and one the tool's words claim. -/
def mixedLog : List Char :=
  "%Warning-UNUSED: /w/c.v:1:1: a\n%Warning-WIDTH: /w/c.v:2:1: non-zero b".toList

def mixedWorkspace : Workspace := [("origin_verilog", .str "/w/c.v")]

def mixedRun : RunInfo := ⟨["/w/c.v"], 0, "top", ["verilator"], "/w/log.txt"⟩

theorem mixedLog_summary : (buildLintSummary (.ofNodes []) (fun _ => false) mixedWorkspace mixedRun
    mixedLog "/w/lint.json").map (fun record =>
      (columnSum "total" ((rowsOf record "files").filter isActionable),
        countAt (record.dictAt "summary") "actionable_diagnostics")) = some (2, 1) := by
  decide +kernel

/-- The marked file counts two diagnostics, of which one is actionable. -/
theorem file_rows_overcount : ¬ ∀ (env : Env) (homeless : String → Bool) (workspace : Workspace)
    (runInfo : RunInfo) (logContent : List Char) (summaryPath : String) (record : Dict),
    buildLintSummary env homeless workspace runInfo logContent summaryPath = some record →
    columnSum "total" ((rowsOf record "files").filter isActionable) =
      countAt (record.dictAt "summary") "actionable_diagnostics" := by
  intro hclaim
  obtain ⟨record, hrecord, hcounts⟩ := Option.map_eq_some_iff.mp mixedLog_summary
  have hequal := hclaim _ _ _ _ _ _ record hrecord
  rw [Prod.mk.injEq] at hcounts
  omega

/-- On that log the owners and the rules agree with the summary. -/
theorem lint_tables_conserve_mixed : ∃ record, buildLintSummary (.ofNodes []) (fun _ => false)
    mixedWorkspace mixedRun mixedLog "/w/lint.json" = some record ∧
    columnSum "total" ((rowsOf record "ownership").filter isActionable) =
      countAt (record.dictAt "summary") "actionable_diagnostics" ∧
    columnSum "total" (rowsOf record "rules") = countAt (record.dictAt "summary") "diagnostics" := by
  obtain ⟨record, hrecord, -⟩ := Option.map_eq_some_iff.mp mixedLog_summary
  have h := lint_tables_conserve hrecord
  exact ⟨record, hrecord, h.2.2.2.1, (h.2.1 "rules" (by decide)).2.2⟩

end EccFe.Analysis.LintTables
