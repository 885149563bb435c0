/-
EccFe.Tools.Review.Delta — the counts of a review report, and the report of a second run.

The second run reads back the issues the first one annotated. Decorating them again gives the
fingerprints they have (`decorateIssue_again`), so every issue is known and none is resolved.
-/
import EccFe.Tools.Review.Report

namespace EccFe.Tools.Review

open Python Engine RtlInputs RtlOwnership

/-! ## 1. Issues by fingerprint -/

theorem mem_keys_set {d : Dict} {key k : String} {value : Json} :
    k ∈ (d.set key value).keys ↔ k ∈ d.keys ∨ k = key := by
  rw [Dict.keys_set]
  split
  · rename_i hkey
    constructor
    · exact .inl
    · rintro (h | rfl)
      · exact h
      · exact hkey
  · rw [List.mem_append, List.mem_singleton]

theorem mem_of_mem_set {d : Dict} {key : String} {value : Json} {entry : String × Json}
    (h : entry ∈ d.set key value) : entry ∈ d ∨ entry = (key, value) := by
  induction d with
  | nil => exact .inr (List.mem_singleton.mp h)
  | cons kv rest ih =>
    rw [Dict.set_cons] at h
    split at h
    · rename_i hkey
      rcases List.mem_cons.mp h with rfl | hrest
      · exact .inr (by rw [hkey])
      · exact .inl (List.mem_cons_of_mem _ hrest)
    · rcases List.mem_cons.mp h with rfl | hrest
      · exact .inl List.mem_cons_self
      · exact (ih hrest).imp_left (List.mem_cons_of_mem _)

/-- The keys are the fingerprints, and each entry is an issue under its own. -/
theorem issuesById_spec (issues : List Dict) :
    (∀ k, k ∈ (issuesById issues).keys ↔ k ∈ issues.map (Dict.textAt · "fingerprint")) ∧
      ∀ entry ∈ issuesById issues, ∃ issue ∈ issues, entry = (issue.textAt "fingerprint", .obj issue) := by
  suffices h : ∀ (rest done : List Dict) (byId : Dict),
      (∀ k, k ∈ byId.keys ↔ k ∈ done.map (Dict.textAt · "fingerprint")) →
      (∀ entry ∈ byId, ∃ issue ∈ done, entry = (issue.textAt "fingerprint", .obj issue)) →
      (∀ k, k ∈ (rest.foldl (fun (byId : Dict) (issue : Dict) =>
        byId.set (issue.textAt "fingerprint") (.obj issue)) byId).keys ↔
          k ∈ (done ++ rest).map (Dict.textAt · "fingerprint")) ∧
      ∀ entry ∈ rest.foldl (fun (byId : Dict) (issue : Dict) =>
        byId.set (issue.textAt "fingerprint") (.obj issue)) byId,
          ∃ issue ∈ done ++ rest, entry = (issue.textAt "fingerprint", .obj issue) from
    h issues [] [] (by simp [Dict.keys]) (by simp)
  intro rest
  induction rest with
  | nil =>
    intro done byId hkeys hentries
    rw [List.append_nil]
    exact ⟨hkeys, hentries⟩
  | cons issue rest ih =>
    intro done byId hkeys hentries
    have hsplit : done ++ issue :: rest = (done ++ [issue]) ++ rest := by simp
    rw [hsplit]
    refine ih (done ++ [issue]) _ (fun k => ?_) fun entry hentry => ?_
    · rw [mem_keys_set, hkeys]
      simp [or_comm, eq_comm]
    · rcases mem_of_mem_set hentry with hentry | rfl
      · obtain ⟨other, hother, heq⟩ := hentries entry hentry
        exact ⟨other, List.mem_append_left _ hother, heq⟩
      · exact ⟨issue, List.mem_append_right _ List.mem_cons_self, rfl⟩

theorem has_issuesById (issues : List Dict) (k : String) :
    (issuesById issues).has k = true ↔ k ∈ issues.map (Dict.textAt · "fingerprint") := by
  rw [← (issuesById_spec issues).1, Dict.mem_keys_iff, Dict.has, Option.isSome_iff_exists]

/-! ### Entries that waive -/

/-- The entry waives the fingerprint: it names it, and gives a reason. -/
def Waives (raw : Dict) (fingerprint : String) : Prop :=
  lower (strip (raw.textAt "fingerprint")) = fingerprint ∧ isFingerprint fingerprint = true ∧
    strip (raw.textAt "reason") ≠ ""

/-- A waiver that is added is valid for its fingerprint. -/
theorem mem_keys_addWaiver (found : Waivers) (index : Nat) (entry : Json) (fingerprint : String) :
    fingerprint ∈ (addWaiver found index entry).valid.keys ↔
      fingerprint ∈ found.valid.keys ∨ ∃ raw, entry = .obj raw ∧ Waives raw fingerprint := by
  cases entry with
  | obj raw =>
    simp only [addWaiver, Waives]
    split
    · rename_i hvalid
      rw [Bool.and_eq_true, bne_iff_ne] at hvalid
      rw [mem_keys_set]
      refine or_congr_right ⟨?_, ?_⟩
      · rintro rfl
        exact ⟨raw, rfl, rfl, hvalid⟩
      · rintro ⟨other, hother, hfingerprint, -⟩
        cases hother
        exact hfingerprint.symm
    · rename_i hinvalid
      rw [Bool.and_eq_true, bne_iff_ne] at hinvalid
      refine (or_iff_left ?_).symm
      rintro ⟨other, hother, rfl, hvalid⟩
      cases hother
      exact hinvalid hvalid
  | _ => simp [addWaiver]

/-- The valid entries are those of the list that waive something. -/
theorem has_validWaivers (waivers : Json) (fingerprint : String) :
    (validWaivers waivers).valid.has fingerprint = true ↔
      ∃ raw, Json.obj raw ∈ waivers.items ∧ Waives raw fingerprint := by
  have hfold : ∀ (entries : List (Json × Nat)) (found : Waivers),
      fingerprint ∈ (entries.foldl (fun found entry => addWaiver found entry.2 entry.1)
        found).valid.keys ↔ fingerprint ∈ found.valid.keys ∨
          ∃ raw, Json.obj raw ∈ entries.map Prod.fst ∧ Waives raw fingerprint := by
    intro entries
    induction entries with
    | nil => simp
    | cons entry entries ih =>
      intro found
      rw [List.foldl_cons, ih, mem_keys_addWaiver, or_assoc]
      simp only [List.map_cons, List.mem_cons, or_and_right, exists_or, eq_comm]
  rw [Dict.has, Option.isSome_iff_exists, ← Dict.mem_keys_iff, validWaivers, hfold,
    List.zipIdx_map_fst]
  simp [Dict.keys]

/-! ## 2. What a report says -/

/-- The issues of a final report. -/
def issuesOf (report : Dict) : List Dict := (report.getD "issues" .null).items.map Json.asDict

def resolvedOf (report : Dict) : List Dict :=
  (report.getD "resolved_issues" .null).items.map Json.asDict

def summaryCount (report : Dict) (field : String) : Option Json := (report.dictAt "summary").get field

/-- The user's issues that no entry waives. -/
def isActionable (user : String) (issue : Dict) : Bool :=
  !isWaived issue && (issue.getD "ownership" .null).pyStr == user

/-- Those of one severity. -/
def isOpen (user severity : String) (issue : Dict) : Bool :=
  !isWaived issue && (issue.getD "ownership" .null).pyStr == user &&
    textOr issue "severity" "info" == severity

/-- Counting the actionable issues of a severity counts those that are open. -/
theorem severityCount_actionable (user severity : String) (issues : List Dict) :
    severityCount severity (actionableIssues user issues) = issues.countP (isOpen user severity) := by
  rw [severityCount, actionableIssues, List.countP_filter]
  exact List.countP_congr fun issue _ => by rw [isOpen, Bool.and_comm]

section

variable {env : Env} {homeless : String → Bool} {workspace : Workspace} {user : String}
  {report : Dict} {previous : Option Dict} {waivers : Json} {out : Dict}

/-- What the report says about the current and the resolved issues. -/
structure Says (user : String) (current resolved : List Dict) (out : Dict) : Prop where
  issues : issuesOf out = sortIssues current
  items : out.get "issues" = some (.arr ((sortIssues current).map .obj))
  resolvedIssues : resolvedOf out = resolved
  newIssues : summaryCount out "new_issues" = some (.int (statusCount "new" current))
  existingIssues : summaryCount out "existing_issues" = some (.int (statusCount "existing" current))
  resolvedCount : summaryCount out "resolved_issues" = some (.int resolved.length)
  actionable : summaryCount out "actionable_issues" = some (.int (current.countP (isActionable user)))
  errors : summaryCount out "actionable_errors" = some (.int (current.countP (isOpen user "error")))
  warnings : summaryCount out "actionable_warnings" =
    some (.int (current.countP (isOpen user "warning")))
  delta : out.dictAt "delta" = [("baseline", (out.dictAt "delta").getD "baseline" .null),
    ("new", .int (statusCount "new" current)), ("existing", .int (statusCount "existing" current)),
    ("resolved", .int resolved.length)]

theorem asDict_obj (issues : List Dict) : (issues.map Json.obj).map Json.asDict = issues := by
  rw [List.map_map]
  exact List.map_id issues

theorem says_of_items {baseline status : String} {found : Waivers} {current resolved : List Dict}
    {summary : Dict} : Says user current resolved (report.update (finalItems baseline found current
      resolved ((summary.update (deltaCounts current resolved (actionableIssues user current))).set
        "status" (.str status)))) := by
  have hitems : (finalItems baseline found current resolved ((summary.update (deltaCounts current
      resolved (actionableIssues user current))).set "status" (.str status))).keys.Nodup :=
    (by decide : ["issues", "resolved_issues", "delta", "waivers", "summary"].Nodup)
  have hcounts : (deltaCounts current resolved (actionableIssues user current)).keys.Nodup :=
    (by decide : ["new_issues", "existing_issues", "resolved_issues", "waived_issues",
      "actionable_issues", "actionable_errors", "actionable_warnings"].Nodup)
  have hcount : ∀ field, "status" ≠ field → summaryCount (report.update (finalItems baseline found
      current resolved ((summary.update (deltaCounts current resolved
        (actionableIssues user current))).set "status" (.str status)))) field =
      ((deltaCounts current resolved (actionableIssues user current)).get field).or
        (summary.get field) := by
    intro field hfield
    rw [summaryCount, Dict.dictAt, Dict.getD, Dict.get_update _ hitems]
    show (Dict.set _ _ _).get field = _
    rw [Dict.get_set_ne _ _ hfield, Dict.get_update _ hcounts]
  constructor
  · rw [issuesOf, Dict.getD, Dict.get_update _ hitems]
    exact asDict_obj _
  · rw [Dict.get_update _ hitems]
    rfl
  · rw [resolvedOf, Dict.getD, Dict.get_update _ hitems]
    exact asDict_obj _
  · rw [hcount _ (by decide)]
    rfl
  · rw [hcount _ (by decide)]
    rfl
  · rw [hcount _ (by decide)]
    rfl
  · rw [hcount _ (by decide), List.countP_eq_length_filter]
    rfl
  · rw [hcount _ (by decide), ← severityCount_actionable]
    rfl
  · rw [hcount _ (by decide), ← severityCount_actionable]
    rfl
  · rw [Dict.dictAt, Dict.getD, Dict.get_update _ hitems]
    rfl

/-- With every issue waived there is no actionable one, whoever the user is. -/
theorem findActionable_eq (huser : userRtlOwnership workspace = .ok user) (current : List Dict) :
    findActionable workspace current = some (actionableIssues user current) := by
  unfold findActionable
  split
  · rename_i hall
    refine congrArg some (List.filter_eq_nil_iff.mpr fun issue hissue => ?_).symm
    simp [List.all_eq_true.mp hall issue hissue]
  · rw [huser]
    rfl

/-- What a run that returns has gone through, and what its report says. -/
theorem says_of_finalize (huser : userRtlOwnership workspace = .ok user)
    (h : finalizeReviewReport env homeless workspace report previous waivers = some out) :
    ∃ owners before decorated, (rtlOwnershipMap env homeless workspace).toOption = some owners ∧
      decoratedIssues env homeless workspace owners (previous.getD []) = some before ∧
      decoratedIssues env homeless workspace owners report = some decorated ∧
      (∃ summary, dictOf (report.getD "summary" (.obj [])) = some summary) ∧
      (∃ toolLimit, anyToolLimit (decorated.map
        (annotate (issuesById before).has (validWaivers waivers).valid)) = some toolLimit) ∧
      Says user (decorated.map (annotate (issuesById before).has (validWaivers waivers).valid))
        (resolvedIssues (issuesById before)
          (decorated.map (annotate (issuesById before).has (validWaivers waivers).valid))) out := by
  simp only [finalizeReviewReport, findActionable_eq huser, Option.bind_eq_bind,
    Option.bind_eq_some_iff] at h
  obtain ⟨owners, howners, before, hbefore, decorated, hdecorated, actionable, hactionable, summary,
    hsummary, toolLimit, htool, hout⟩ := h
  obtain rfl := Option.some.inj hactionable
  obtain rfl := Option.some.inj hout
  exact ⟨owners, before, decorated, howners, hbefore, hdecorated, ⟨summary, hsummary⟩,
    ⟨toolLimit, htool⟩, says_of_items⟩

/-- For a known owner the report is finished. -/
theorem finalize_returns (huser : userRtlOwnership workspace = .ok user)
    {owners : List (AbsPath × String)} {before decorated : List Dict} {summary : Dict} {toolLimit : Bool}
    (howners : (rtlOwnershipMap env homeless workspace).toOption = some owners)
    (hbefore : decoratedIssues env homeless workspace owners (previous.getD []) = some before)
    (hdecorated : decoratedIssues env homeless workspace owners report = some decorated)
    (hsummary : dictOf (report.getD "summary" (.obj [])) = some summary)
    (htool : anyToolLimit (decorated.map
      (annotate (issuesById before).has (validWaivers waivers).valid)) = some toolLimit) :
    ∃ out, finalizeReviewReport env homeless workspace report previous waivers = some out := by
  simp only [finalizeReviewReport, findActionable_eq huser, howners, hbefore, hdecorated, hsummary, htool,
    Option.bind_eq_bind, Option.bind_some]
  exact ⟨_, rfl⟩

/-! ## 3. One run -/

/-- An issue that is reported is new or was there before. -/
theorem statusCount_add (known : String → Bool) (found : Dict) (decorated : List Dict) :
    statusCount "new" (decorated.map (annotate known found)) +
      statusCount "existing" (decorated.map (annotate known found)) = decorated.length := by
  induction decorated with
  | nil => rfl
  | cons issue rest ih =>
    have hstatus := status_annotate known found issue
    simp only [statusCount, List.map_cons, List.countP_cons, List.length_cons] at ih ⊢
    rw [hstatus, ← ih]
    cases known (issue.textAt "fingerprint")
    · simp only [Bool.false_eq_true, if_false, beq_self_eq_true, if_true]
      rw [if_neg (by decide)]
      omega
    · simp only [if_true, beq_self_eq_true]
      rw [if_neg (by decide)]
      omega

theorem fingerprint_annotate (known : String → Bool) (found issue : Dict) :
    (annotate known found issue).textAt "fingerprint" = issue.textAt "fingerprint" :=
  textOr_congr (get_annotate known found issue (by decide))

theorem fingerprints_annotate (known : String → Bool) (found : Dict) (decorated : List Dict) :
    (decorated.map (annotate known found)).map (Dict.textAt · "fingerprint") =
      decorated.map (Dict.textAt · "fingerprint") := by
  rw [List.map_map]
  exact List.map_congr_left fun issue _ => fingerprint_annotate known found issue

/-- A resolved issue keeps its fingerprint. -/
theorem fingerprint_resolvedIssue (issue : Dict) :
    (resolvedIssue issue).textAt "fingerprint" = issue.textAt "fingerprint" := by
  refine textOr_congr ?_
  unfold resolvedIssue
  rw [Dict.get_pop_ne _ (by decide), Dict.get_set_ne _ _ (by decide), Dict.get_set_ne _ _ (by decide)]

/-- The resolved issues are those of the report before that no current issue has the fingerprint of. -/
theorem mem_resolvedIssues {before current : List Dict} {issue : Dict}
    (h : issue ∈ resolvedIssues (issuesById before) current) :
    issue.textAt "fingerprint" ∈ before.map (Dict.textAt · "fingerprint") ∧
      issue.textAt "fingerprint" ∉ current.map (Dict.textAt · "fingerprint") := by
  unfold resolvedIssues sortIssues at h
  rw [(List.mergeSort_perm _ _).mem_iff, List.mem_map] at h
  obtain ⟨entry, hentry, rfl⟩ := h
  obtain ⟨hmem, habsent⟩ := List.mem_filter.mp hentry
  obtain ⟨other, hother, rfl⟩ := (issuesById_spec before).2 entry hmem
  rw [fingerprint_resolvedIssue]
  exact ⟨List.mem_map_of_mem hother, of_decide_eq_true habsent⟩

/-- Nothing is resolved when every issue is still there. -/
theorem resolvedIssues_eq_nil {before current : List Dict}
    (h : ∀ k ∈ before.map (Dict.textAt · "fingerprint"), k ∈ current.map (Dict.textAt · "fingerprint")) :
    resolvedIssues (issuesById before) current = [] := by
  refine List.eq_nil_iff_forall_not_mem.mpr fun issue hissue => ?_
  obtain ⟨hbefore, hcurrent⟩ := mem_resolvedIssues hissue
  exact hcurrent (h _ hbefore)

/-- Whether an issue is open does not depend on what the run before knew. -/
theorem isOpen_annotate (known known' : String → Bool) (found issue : Dict) (severity : String) :
    isOpen user severity (annotate known found issue) =
      isOpen user severity (annotate known' found issue) := by
  have howner : ∀ known : String → Bool, (annotate known found issue).getD "ownership" .null =
      issue.getD "ownership" .null := fun known => by
    rw [Dict.getD, get_annotate _ _ _ (by decide), ← Dict.getD]
  have hseverity : ∀ known : String → Bool, textOr (annotate known found issue) "severity" "info" =
      textOr issue "severity" "info" := fun known => textOr_congr (get_annotate _ _ _ (by decide))
  rw [isOpen, isOpen, isWaived_annotate, isWaived_annotate, howner, howner, hseverity, hseverity]

/-- Annotating the issues hides no tool limit. -/
theorem anyToolLimit_annotate (known : String → Bool) (found : Dict) (decorated : List Dict) :
    anyToolLimit (decorated.map (annotate known found)) = anyToolLimit decorated := by
  induction decorated with
  | nil => rfl
  | cons issue rest ih =>
    have hget : ∀ field ∉ annotationFields, (annotate known found issue).getD field .null =
        issue.getD field .null := fun field hfield => by
      rw [Dict.getD, get_annotate _ _ _ hfield, ← Dict.getD]
    rw [List.map_cons, anyToolLimit, anyToolLimit, hget "ownership" (by decide),
      hget "severity" (by decide), ih]

/-! ## 4. The run after it -/

/-- Every issue of the list goes through, and keeps what `g` reads off it. -/
theorem mapM_again {α β γ : Type} {f : α → Option β} {g : α → γ} {g' : β → γ} : ∀ {items : List α},
    (∀ a ∈ items, ∃ b, f a = some b ∧ g' b = g a) →
    ∃ results, items.mapM f = some results ∧ results.map g' = items.map g
  | [], _ => ⟨[], rfl, rfl⟩
  | a :: rest, h => by
      obtain ⟨b, hb, hg⟩ := h a List.mem_cons_self
      obtain ⟨results, hresults, hmap⟩ := mapM_again fun other hother =>
        h other (List.mem_cons_of_mem _ hother)
      refine ⟨b :: results, ?_, ?_⟩
      · rw [List.mapM_cons, hb, hresults]
        rfl
      · rw [List.map_cons, List.map_cons, hg, hmap]

/-- Every result of a list of calls is the result of one of them. -/
theorem exists_of_mapM {α β : Type} {f : α → Option β} : ∀ {items : List α} {results : List β},
    items.mapM f = some results → results.length = items.length ∧ ∀ b ∈ results, ∃ a, f a = some b
  | [], results, h => by
      obtain rfl := Option.some.inj h
      exact ⟨rfl, fun b hb => absurd hb List.not_mem_nil⟩
  | a :: items, results, h => by
      simp only [List.mapM_cons, Option.bind_eq_bind, Option.bind_eq_some_iff] at h
      obtain ⟨c, hc, rest, hrest, hresults⟩ := h
      obtain rfl := Option.some.inj hresults
      obtain ⟨hlength, hfrom⟩ := exists_of_mapM hrest
      refine ⟨by rw [List.length_cons, List.length_cons, hlength], ?_⟩
      rw [List.forall_mem_cons]
      exact ⟨⟨a, hc⟩, hfrom⟩

/-- The annotated issues of a report, read back and decorated, have the fingerprints they had. -/
theorem decoratedIssues_again (huser : userRtlOwnership workspace = .ok user) (hne : user ≠ "tool")
    {owners : List (AbsPath × String)} {decorated resolved : List Dict} {known : String → Bool}
    {found : Dict}
    (hdecorated : decoratedIssues env homeless workspace owners report = some decorated)
    (hcounts : Says user (decorated.map (annotate known found)) resolved out) :
    ∃ again, decoratedIssues env homeless workspace owners out = some again ∧
      again.map (Dict.textAt · "fingerprint") =
        (sortIssues decorated).map (Dict.textAt · "fingerprint") := by
  have hitems : dictItems (out.getD "issues" (.arr [])) =
      some ((sortIssues decorated).map (annotate known found)) := by
    rw [Dict.getD, hcounts.items, sortIssues_annotate]
    show some (List.filterMap _ (List.map _ _)) = _
    rw [List.filterMap_map]
    exact congrArg some (List.filterMap_some)
  have heach : ∀ issue ∈ sortIssues decorated, Decorated env homeless workspace owners issue := by
    intro issue hissue
    rw [sortIssues, (List.mergeSort_perm _ _).mem_iff] at hissue
    obtain ⟨raw, -, hmap⟩ := Option.bind_eq_some_iff.mp hdecorated
    obtain ⟨before, hbefore⟩ := (exists_of_mapM hmap).2 issue hissue
    exact decorated_of_decorateIssue huser hne hbefore
  have hagain : ∀ issue ∈ (sortIssues decorated).map (annotate known found), ∃ again,
      decorateIssue env homeless workspace owners issue = some again ∧
        again.textAt "fingerprint" = issue.textAt "fingerprint" := by
    intro issue hissue
    obtain ⟨before, hbefore, rfl⟩ := List.mem_map.mp hissue
    have hfields : ∀ field ∈ identityFields,
        (annotate known found before).get field = before.get field := by
      intro field hfield
      refine get_annotate known found before ?_
      revert hfield
      revert field
      decide
    obtain ⟨again, heq, hfingerprint⟩ := decorateIssue_again (heach before hbefore) hfields
      (get_annotate known found before (by decide))
    refine ⟨again, heq, ?_⟩
    rw [fingerprint_annotate]
    exact textOr_congr hfingerprint
  obtain ⟨again, hmap, hfingerprints⟩ := mapM_again hagain
  refine ⟨again, ?_, ?_⟩
  · rw [decoratedIssues, hitems]
    exact hmap
  · rw [hfingerprints, fingerprints_annotate]

/-- What the second run has in common with the first, and that it finds nothing new. -/
structure SameFindings (out again : Dict) : Prop where
  noneNew : summaryCount again "new_issues" = some (.int 0)
  allExisting : summaryCount again "existing_issues" = some (.int (issuesOf out).length)
  noneResolved : summaryCount again "resolved_issues" = some (.int 0) ∧ resolvedOf again = []
  fingerprints : (issuesOf again).map (Dict.textAt · "fingerprint") =
    (issuesOf out).map (Dict.textAt · "fingerprint")
  waived : (issuesOf again).map isWaived = (issuesOf out).map isWaived
  errors : summaryCount again "actionable_errors" = summaryCount out "actionable_errors"
  warnings : summaryCount again "actionable_warnings" = summaryCount out "actionable_warnings"

/-- The second run over the same raw issues returns and finds the same. -/
theorem finalize_again (huser : userRtlOwnership workspace = .ok user) (hne : user ≠ "tool")
    (h : finalizeReviewReport env homeless workspace report previous waivers = some out) :
    ∃ again, finalizeReviewReport env homeless workspace report (some out) waivers = some again ∧
      SameFindings out again := by
  obtain ⟨owners, before, decorated, howners, -, hdecorated, ⟨summary, hsummary⟩, ⟨toolLimit, htool⟩,
    hcounts⟩ := says_of_finalize huser h
  obtain ⟨readBack, hreadBack, hfingerprints⟩ := decoratedIssues_again huser hne hdecorated hcounts
  rw [anyToolLimit_annotate] at htool
  have hprevious : decoratedIssues env homeless workspace owners ((some out).getD []) = some readBack :=
    hreadBack
  obtain ⟨again, hagain⟩ := finalize_returns huser howners hprevious hdecorated hsummary
    ((anyToolLimit_annotate (issuesById readBack).has (validWaivers waivers).valid decorated).trans htool)
  refine ⟨again, hagain, ?_⟩
  obtain ⟨owners', readBack', decorated', howners', hreadBack', hdecorated', -, -, hcounts'⟩ :=
    says_of_finalize huser hagain
  obtain rfl := Option.some.inj (howners.symm.trans howners')
  obtain rfl := Option.some.inj (hreadBack.symm.trans hreadBack')
  obtain rfl := Option.some.inj (hdecorated.symm.trans hdecorated')
  -- What was read back has the fingerprints of the current issues.
  have hids : ∀ k, k ∈ readBack.map (Dict.textAt · "fingerprint") ↔
      k ∈ decorated.map (Dict.textAt · "fingerprint") := fun k => by
    rw [hfingerprints]
    exact ((List.mergeSort_perm decorated _).map _).mem_iff
  have hresolved : resolvedIssues (issuesById readBack)
      (decorated.map (annotate (issuesById readBack).has (validWaivers waivers).valid)) = [] :=
    resolvedIssues_eq_nil fun k hk => by
      rw [fingerprints_annotate]
      exact (hids k).mp hk
  have hnew : statusCount "new"
      (decorated.map (annotate (issuesById readBack).has (validWaivers waivers).valid)) = 0 := by
    rw [statusCount, List.countP_eq_zero]
    intro issue hissue
    obtain ⟨d, hd, rfl⟩ := List.mem_map.mp hissue
    have hknown : (issuesById readBack).has (d.textAt "fingerprint") = true :=
      (has_issuesById _ _).mpr ((hids _).mpr (List.mem_map_of_mem hd))
    rw [status_annotate, hknown]
    decide
  have hexisting := statusCount_add (issuesById readBack).has (validWaivers waivers).valid decorated
  rw [hnew, Nat.zero_add] at hexisting
  have hlength : (issuesOf out).length = decorated.length := by
    rw [hcounts.issues, sortIssues, List.length_mergeSort, List.length_map]
  have hopen : ∀ severity, (decorated.map (annotate (issuesById readBack).has
        (validWaivers waivers).valid)).countP (isOpen user severity) =
      (decorated.map (annotate (issuesById before).has
        (validWaivers waivers).valid)).countP (isOpen user severity) := by
    intro severity
    rw [List.countP_map, List.countP_map]
    exact List.countP_congr fun issue _ => by
      rw [Function.comp_apply, Function.comp_apply, isOpen_annotate]
  constructor
  · rw [hcounts'.newIssues, hnew]
    rfl
  · rw [hcounts'.existingIssues, hexisting, hlength]
  · rw [hcounts'.resolvedCount, hcounts'.resolvedIssues, hresolved]
    exact ⟨rfl, rfl⟩
  · rw [hcounts'.issues, hcounts.issues, sortIssues_annotate, sortIssues_annotate, fingerprints_annotate,
      fingerprints_annotate]
  · rw [hcounts'.issues, hcounts.issues, sortIssues_annotate, sortIssues_annotate, List.map_map,
      List.map_map]
    exact List.map_congr_left fun issue _ => by
      rw [Function.comp_apply, Function.comp_apply, isWaived_annotate, isWaived_annotate]
  · rw [hcounts'.errors, hcounts.errors, hopen]
  · rw [hcounts'.warnings, hcounts.warnings, hopen]

/-- The counts of a report are those of its issues: every one is new or existing, none is resolved,
those are waived whose fingerprint an entry of the list waives, and the actionable ones are the
user's issues that are not waived. A second run over the same raw
issues, with this report as the one before, returns, and finds nothing new and nothing resolved. -/
theorem finalize_review_report_counts
    (hkind : (normalizeFrontendDesignKind (workspace.getD "frontend_design_kind" .null)).isSome = true)
    (h : finalizeReviewReport env homeless workspace report previous waivers = some out) :
    ∃ user, userRtlOwnership workspace = .ok user ∧
      (∃ raw, dictItems (report.getD "issues" (.arr [])) = some raw ∧
        (issuesOf out).length = raw.length) ∧
      (∃ new existing : Nat, summaryCount out "new_issues" = some (.int new) ∧
        summaryCount out "existing_issues" = some (.int existing) ∧
        (out.dictAt "delta").get "new" = some (.int new) ∧
        (out.dictAt "delta").get "existing" = some (.int existing) ∧
        new + existing = (issuesOf out).length) ∧
      (∀ issue ∈ issuesOf out, ∀ gone ∈ resolvedOf out,
        gone.textAt "fingerprint" ≠ issue.textAt "fingerprint") ∧
      (∀ issue ∈ issuesOf out, isWaived issue = true ↔
        ∃ raw, Json.obj raw ∈ waivers.items ∧ Waives raw (issue.textAt "fingerprint")) ∧
      summaryCount out "actionable_issues" =
        some (.int ((issuesOf out).countP (isActionable user))) ∧
      summaryCount out "actionable_errors" =
        some (.int ((issuesOf out).countP (isOpen user "error"))) ∧
      summaryCount out "actionable_warnings" =
        some (.int ((issuesOf out).countP (isOpen user "warning"))) ∧
      ∃ again, finalizeReviewReport env homeless workspace report (some out) waivers = some again ∧
        SameFindings out again := by
  obtain ⟨kind, hkind⟩ := designKind_isOk.mpr hkind
  have huser : userRtlOwnership workspace = .ok (ownershipOf kind) := map_eq_ok.mpr ⟨kind, hkind, rfl⟩
  have hne : ownershipOf kind ≠ "tool" := by
    cases kind <;> decide
  obtain ⟨owners, before, decorated, -, -, hdecorated, -, -, hcounts⟩ := says_of_finalize huser h
  have hperm : (issuesOf out).Perm (decorated.map
      (annotate (issuesById before).has (validWaivers waivers).valid)) := by
    rw [hcounts.issues]
    exact List.mergeSort_perm _ _
  have hlength : (issuesOf out).length = decorated.length := by
    rw [hperm.length_eq, List.length_map]
  refine ⟨ownershipOf kind, huser, ?_, ?_, ?_, fun issue hissue => ?_, ?_, ?_, ?_,
    finalize_again huser hne h⟩
  · obtain ⟨raw, hraw, hmap⟩ := Option.bind_eq_some_iff.mp hdecorated
    exact ⟨raw, hraw, hlength.trans (exists_of_mapM hmap).1⟩
  · refine ⟨_, _, hcounts.newIssues, hcounts.existingIssues, ?_, ?_, ?_⟩
    · rw [hcounts.delta]
      rfl
    · rw [hcounts.delta]
      rfl
    · rw [statusCount_add, hlength]
  · intro issue hissue gone hgone heq
    rw [hcounts.resolvedIssues] at hgone
    have habsent := (mem_resolvedIssues hgone).2
    rw [heq] at habsent
    exact habsent (List.mem_map_of_mem (hperm.mem_iff.mp hissue))
  · obtain ⟨issue, -, rfl⟩ := List.mem_map.mp (hperm.mem_iff.mp hissue)
    rw [isWaived_annotate, has_validWaivers, fingerprint_annotate]
  · rw [hcounts.actionable, hperm.countP_eq]
  · rw [hcounts.errors, hperm.countP_eq]
  · rw [hcounts.warnings, hperm.countP_eq]

end

/-- A report with a warning about a file and an error of the tool. -/
def demoReport : Dict :=
  [("issues", .arr [.obj [("severity", .str "warning"), ("title", .str "t"), ("source", .str "/w/c.v"),
    ("line", .int 3)], .obj [("severity", .str "error"), ("ownership", .str "tool")]])]

/-- Digests of two values: the warning and the error have different fingerprints. -/
def demoEnv : Env :=
  { Env.ofNodes [] with
    sha256 := fun bytes => String.ofList (List.replicate 64 (if bytes.length % 2 = 0 then 'a' else 'b')) }

/-- An entry that waives the warning. -/
def demoWaivers : Json :=
  .arr [.obj [("fingerprint", .str (String.ofList (List.replicate 64 'b'))), ("reason", .str "known")]]

/-- The warning is waived, and nothing is left to do for the user in either run. -/
theorem finalize_review_report_counts_demo : ∃ out again,
    finalizeReviewReport demoEnv (fun _ => false) [] demoReport none demoWaivers = some out ∧
    finalizeReviewReport demoEnv (fun _ => false) [] demoReport (some out) demoWaivers = some again ∧
    (summaryCount out "waived_issues" = some (.int 1) ∧
      summaryCount out "actionable_warnings" = some (.int 0)) ∧
    (∀ issue ∈ issuesOf out, isWaived issue = true →
      ∃ raw, Json.obj raw ∈ demoWaivers.items ∧ Waives raw (issue.textAt "fingerprint")) ∧
    SameFindings out again := by
  have hreturns : (finalizeReviewReport demoEnv (fun _ => false) [] demoReport none demoWaivers).map
      (fun out => (summaryCount out "waived_issues", summaryCount out "actionable_warnings")) =
        some (some (.int 1), some (.int 0)) := by decide +kernel
  obtain ⟨out, hout, hwaived⟩ := Option.map_eq_some_iff.mp hreturns
  obtain ⟨user, -, -, -, -, hwaives, -, -, -, again, hagain, hsame⟩ :=
    finalize_review_report_counts (by decide) hout
  exact ⟨out, again, hout, hagain, Prod.mk.inj hwaived, fun issue hissue => (hwaives issue hissue).mp,
    hsame⟩

end EccFe.Tools.Review
