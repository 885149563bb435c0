/-
EccFe.Tools.Review.Report — `merge_structural_probe` and `finalize_review_report` of
`fecompiler/tools/review/analyzer.py`: the report of a review run, with the findings of the
Yosys precheck in it, compared with the report of the run before.

An issue is identified by its fingerprint, which is made of six of its fields (`issueFingerprint`).
`none` is a call that raises: a line that is no number, an owner no set can look up, a path
without a home directory, an unsupported design kind.
-/
import EccFe.Engine.Provenance
import EccFe.Tools.RtlOwnership

namespace EccFe.Tools.Review

open Python Engine RtlInputs RtlOwnership

/-! ## 1. Reading a report -/

/-- `int(d.get(key, 0) or 0)`. -/
def intAt (d : Dict) (key : String) : Option Int :=
  let value := d.getD key (.int 0)
  if value.truthy then value.toInt.toOption else some 0

/-- `for item in value` where an item that is no dict is passed over. -/
def dictItems : Json → Option (List Dict)
  | .arr items => some (items.filterMap fun
      | .obj fields => some fields
      | _ => none)
  | .str _ | .obj _ => some []
  | _ => none

/-- `list(value)` where every item has to be a dict. -/
def dictList : Json → Option (List Dict)
  | .arr items => items.mapM fun
      | .obj fields => some fields
      | _ => none
  | .str "" | .obj [] => some []
  | _ => none

/-- The key and the value `dict(pairs)` takes from one item. -/
def pairOf : Json → Option (String × Json)
  | .arr [.str key, value] => some (key, value)
  | .str text =>
      match text.toList with
      | [a, b] => some (String.ofList [a], .str (String.ofList [b]))
      | _ => none
  | .obj [(key, _), (value, _)] => some (key, .str value)
  | _ => none

/-- `dict(value)`, for text keys. -/
def dictOf : Json → Option Dict
  | .obj fields => some fields
  | .arr items => (items.mapM pairOf).map fun pairs => Dict.update [] pairs
  | .str "" => some []
  | _ => none

def setDefault (d : Dict) (key : String) (value : Json) : Dict :=
  if d.has key then d else d.set key value

/-! ## 2. The order of the issues -/

/-- `severity_rank.get(severity, 3)`. -/
def severityRank (severity : String) : Nat :=
  if severity = "error" then 0
  else if severity = "warning" then 1
  else if severity = "info" then 2
  else 3

/-- `str(d.get(key, default))`. -/
def textOr (d : Dict) (key default : String) : String := (d.getD key (.str default)).pyStr

/-- `_issue_sort_key(issue)`, for an issue whose line is a number. -/
structure SortKey where
  rank : Nat
  category : String
  source : String
  line : Int
  titleLength : Nat

def issueSortKey (issue : Dict) : SortKey where
  rank := severityRank (textOr issue "severity" "info")
  category := issue.textAt "category"
  source := issue.textAt "source"
  line := (intAt issue "line").getD 0
  titleLength := (issue.textAt "title").length

/-- The order of tuples. -/
def SortKey.le (a b : SortKey) : Bool :=
  decide (a.rank < b.rank ∨ a.rank = b.rank ∧ (a.category < b.category ∨ a.category = b.category ∧
    (a.source < b.source ∨ a.source = b.source ∧ (a.line < b.line ∨ a.line = b.line ∧
      a.titleLength ≤ b.titleLength))))

/-- `sorted(issues, key=_issue_sort_key)`. -/
def sortIssues (issues : List Dict) : List Dict :=
  issues.mergeSort fun a b => (issueSortKey a).le (issueSortKey b)

/-! ## 3. The precheck in the report -/

def normalizeProbeIssue (issue : Dict) : Option Dict := do
  let line ← intAt issue "line"
  let column ← intAt issue "column"
  let severity := textOr issue "severity" "info"
  let category := textOr issue "category" "structural"
  return [
    ("severity", .str (if severity ∈ ["error", "warning", "info"] then severity else "info")),
    ("category", .str category), ("title", .str (textOr issue "title" "Yosys precheck issue")),
    ("detail", .str (issue.textAt "detail")), ("source", .str (issue.textAt "source")),
    ("line", .int line), ("column", .int column), ("evidence", .obj (issue.dictAt "evidence")),
    ("recommendation", .str (issue.textAt "recommendation")), ("origin", .str "yosys_structural"),
    ("confidence", .str "high"),
    ("ownership", .str (if category ∈ ["tool", "tooling", "tool-limit"] then "tool" else "cpu"))]

/-- How many of the issues have the severity. -/
def severityCount (severity : String) (issues : List Dict) : Nat :=
  issues.countP fun issue => textOr issue "severity" "info" == severity

/-- `dict(sorted(category_counts.items()))`. -/
def categoryCounts (issues : List Dict) : Dict :=
  let categories := issues.map fun issue => textOr issue "category" "other"
  ((distinctTexts categories).mergeSort fun a b => decide (a ≤ b)).map fun category =>
    (category, .int (categories.count category))

/-- `_summary(issues, metrics)`. -/
def issueSummary (issues : List Dict) (metrics : Dict) : Dict :=
  [("status", .str (if severityCount "error" issues ≠ 0 ∨ severityCount "warning" issues ≠ 0 then
      "needs_attention" else "clean")),
    ("errors", .int (severityCount "error" issues)),
    ("warnings", .int (severityCount "warning" issues)),
    ("infos", .int (severityCount "info" issues)), ("total_issues", .int issues.length),
    ("category_counts", .obj (categoryCounts issues)),
    ("source_files", metrics.getD "source_files" (.int 0)),
    ("modules", metrics.getD "modules" (.int 0)),
    ("total_lines", metrics.getD "total_lines" (.int 0))]

def precheckSummary (probe : Dict) : Dict :=
  let metrics := probe.dictAt "metrics"
  [("status", probe.getD "status" (.str "")), ("tool", probe.getD "tool" (.str "")),
    ("reason", probe.getD "reason" (.str "")), ("cells", metrics.getD "cells" (.int 0)),
    ("wires", metrics.getD "wires" (.int 0)), ("modules", metrics.getD "modules" (.int 0)),
    ("diagnostics", .int (probe.getD "diagnostics" (.arr [])).items.length),
    ("module_risks", .int (probe.getD "module_risks" (.arr [])).items.length)]

def mergeStructuralProbe (report probe : Dict) : Option Dict :=
  if probe = [] then some report
  else do
    let merged := (report.set "structural_probe" (.obj probe)).set "yosys_precheck" (.obj probe)
    let issues ← dictList (merged.getD "issues" (.arr []))
    let found ← (← dictItems (probe.getD "issues" (.arr []))).mapM normalizeProbeIssue
    let issues := issues ++ found
    -- The sort key of every issue reads its line.
    let _ ← issues.mapM fun issue => intAt issue "line"
    let metrics ← dictOf (merged.getD "metrics" (.obj []))
    let metrics := match probe.getD "metrics" (.obj []) with
      | .obj fields => metrics.set "structural" (.obj fields)
      | _ => metrics
    let summary := issueSummary (sortIssues issues) metrics
    let summary := (summary.set "structural_probe" (.obj (precheckSummary probe))).set
      "yosys_precheck" (.obj (precheckSummary probe))
    return ((merged.set "issues" (.arr ((sortIssues issues).map .obj))).set "metrics"
      (.obj metrics)).set "summary" (.obj summary)

/-! ## 4. The identity of an issue -/

section

variable (env : Env) (homeless : String → Bool) (workspace : Workspace)

/-- `path.relative_to(directory).as_posix()`; `none` when the path is not below it. -/
def relativePosix (path directory : AbsPath) : Option String :=
  if directory.isPrefixOf path then some (PurePath.text ⟨false, path.drop directory.length⟩) else none

/-- What stands for the source of an issue: its path below the directory of the CPU filelist, and
its bare name elsewhere or when a path cannot be resolved. -/
def sourceKey (source : String) : String :=
  let cpuFilelist := strip (workspace.textAt "cpu_filelist")
  if source = "" ∨ cpuFilelist = "" then source
  else
    let placed :=
      if source.toList.contains '\x00' || cpuFilelist.toList.contains '\x00' then none
      else relativePosix (env.host.resolve (.ofText source))
        (env.host.resolve (.ofText cpuFilelist)).parent
    placed.getD (PurePath.ofText source).name

/-- The texts that identify an issue. -/
def identityTexts (issue : Dict) : Dict :=
  ["origin", "severity", "category", "title"].map fun field => (field, .str (issue.textAt field))

/-- `identity`. -/
def issueIdentity (issue : Dict) : Option Dict :=
  (intAt issue "line").map fun line => identityTexts issue ++
    [("source", .str (sourceKey env workspace (strip (issue.textAt "source")))), ("line", .int line)]

def issueFingerprint (issue : Dict) : Option String :=
  (issueIdentity env workspace issue).map fun identity => stableFingerprint env (.obj identity)

/-- The user in place of no owner and of `cpu`. -/
def namedOwner (owner : Json) : Option Json :=
  match owner with
  | .null | .str "" | .str "cpu" => (userRtlOwnership workspace).toOption.map .str
  | .arr _ | .obj _ => none
  | owner => some owner

/-- But for what the tool owns, the owner of a source. -/
def placedOwner (owners : List (AbsPath × String)) (source owner : Json) : Option Json :=
  if source.truthy ∧ owner ≠ .str "tool" then
    (rtlSourceOwnership env homeless workspace source.pyStr owners).toOption.map .str
  else some owner

/-- The `ownership` that `_decorate_issue` leaves. -/
def issueOwner (owners : List (AbsPath × String)) (issue : Dict) : Option Json := do
  let owner ← namedOwner workspace (issue.getD "ownership" .null)
  placedOwner env homeless workspace owners (issue.getD "source" .null) owner

/-- The origin and the confidence of an issue that does not name them. -/
def withOrigin (issue : Dict) : Dict :=
  let issue := setDefault issue "origin" (.str "source_heuristic")
  setDefault issue "confidence"
    (.str (if issue.getD "severity" .null = .str "info" then "low" else "medium"))

def decorateIssue (owners : List (AbsPath × String)) (issue : Dict) : Option Dict := do
  let owner ← issueOwner env homeless workspace owners (withOrigin issue)
  let decorated := (withOrigin issue).set "ownership" owner
  let fingerprint ← issueFingerprint env workspace decorated
  return decorated.set "fingerprint" (.str fingerprint)

/-! ## 5. Waivers -/

/-- `re.fullmatch(r"[0-9a-f]{64}", fingerprint)`. -/
def isFingerprint (text : String) : Bool :=
  text.length == 64 && text.toList.all fun c => isDigit c || ('a' ≤ c && c ≤ 'f')

/-- The entries that waive a fingerprint, and what is wrong with the others. -/
structure Waivers where
  valid : Dict
  invalid : List Json

def invalidWaiver (index : Nat) (reason : String) : Json :=
  .obj [("index", .int index), ("reason", .str reason)]

/-- One entry of the list. -/
def addWaiver (waivers : Waivers) (index : Nat) : Json → Waivers
  | .obj raw =>
      let fingerprint := lower (strip (Dict.textAt raw "fingerprint"))
      let reason := strip (Dict.textAt raw "reason")
      let entry : Json := .obj [("fingerprint", .str fingerprint), ("reason", .str reason)]
      if isFingerprint fingerprint && reason != "" then
        ⟨waivers.valid.set fingerprint entry, waivers.invalid⟩
      else
        ⟨waivers.valid, waivers.invalid ++ [invalidWaiver index
          "waiver requires a 64-character fingerprint and non-empty reason"]⟩
  | _ => ⟨waivers.valid, waivers.invalid ++ [invalidWaiver index "waiver must be an object"]⟩

def validWaivers (waivers : Json) : Waivers :=
  waivers.items.zipIdx.foldl (fun found entry => addWaiver found entry.2 entry.1) ⟨[], []⟩

/-! ## 6. The final report -/

/-- An issue with the status and the waiver it gets. -/
def annotate (known : String → Bool) (waivers : Dict) (issue : Dict) : Dict :=
  let fingerprint := issue.textAt "fingerprint"
  let issue := issue.set "status" (.str (if known fingerprint then "existing" else "new"))
  match waivers.get fingerprint with
  | some waiver => (issue.set "waived" (.bool true)).set "waiver" waiver
  | none => issue.set "waived" (.bool false)

/-- An issue of the report before that this one has no more. -/
def resolvedIssue (issue : Dict) : Dict :=
  ((issue.set "status" (.str "resolved")).set "waived" (.bool false)).pop "waiver"

def isWaived (issue : Dict) : Bool := (issue.getD "waived" .null).truthy

/-- The issues of the user that no entry waives. -/
def actionableIssues (user : String) (issues : List Dict) : List Dict :=
  issues.filter fun issue => !isWaived issue && (issue.getD "ownership" .null).pyStr == user

/-- The actionable issues; the user is asked for as soon as an issue is not waived. -/
def findActionable (issues : List Dict) : Option (List Dict) :=
  if issues.all isWaived then some []
  else (userRtlOwnership workspace).toOption.map fun user => actionableIssues user issues

/-- `any(... "tool" ... in {"error", "warning"} ...)`: a severity no set can look up raises. -/
def anyToolLimit : List Dict → Option Bool
  | [] => some false
  | issue :: rest =>
      if issue.getD "ownership" .null = .str "tool" then
        match issue.getD "severity" .null with
        | .arr _ | .obj _ => none
        | severity =>
            if severity = .str "error" ∨ severity = .str "warning" then some true
            else anyToolLimit rest
      else anyToolLimit rest

/-- The issues of a report in turn, decorated. -/
def decoratedIssues (owners : List (AbsPath × String)) (report : Dict) : Option (List Dict) := do
  let issues ← dictItems (report.getD "issues" (.arr []))
  issues.mapM (decorateIssue env homeless workspace owners)

/-- `{fingerprint: issue}` for the issues in turn. -/
def issuesById (issues : List Dict) : Dict :=
  issues.foldl (fun (byId : Dict) (issue : Dict) =>
    byId.set (issue.textAt "fingerprint") (.obj issue)) []

/-- The issues of the report before whose fingerprint no current issue has. -/
def resolvedIssues (previousById : Dict) (current : List Dict) : List Dict :=
  let currentIds := current.map (Dict.textAt · "fingerprint")
  sortIssues ((previousById.filter fun entry => entry.1 ∉ currentIds).map fun entry =>
    resolvedIssue entry.2.asDict)

def statusCount (status : String) (issues : List Dict) : Nat :=
  issues.countP fun issue => issue.textAt "status" == status

/-- What the summary of the report gains. -/
def deltaCounts (current resolved actionable : List Dict) : Dict :=
  [("new_issues", .int (statusCount "new" current)),
    ("existing_issues", .int (statusCount "existing" current)),
    ("resolved_issues", .int resolved.length), ("waived_issues", .int (current.countP isWaived)),
    ("actionable_issues", .int actionable.length),
    ("actionable_errors", .int (severityCount "error" actionable)),
    ("actionable_warnings", .int (severityCount "warning" actionable))]

/-- The status of the summary. -/
def finalStatus (actionable : List Dict) (toolLimit : Bool) : String :=
  if severityCount "error" actionable ≠ 0 ∨ severityCount "warning" actionable ≠ 0 then
    "needs_attention"
  else if toolLimit then "tool_limited"
  else "clean"

/-- What the report gains. -/
def finalItems (baseline : String) (found : Waivers) (current resolved : List Dict)
    (summary : Dict) : Dict :=
  [("issues", .arr ((sortIssues current).map .obj)),
    ("resolved_issues", .arr (resolved.map .obj)),
    ("delta", .obj [("baseline", .str baseline), ("new", .int (statusCount "new" current)),
      ("existing", .int (statusCount "existing" current)), ("resolved", .int resolved.length)]),
    ("waivers", .obj [("configured", .int found.valid.length),
      ("applied", .int (current.countP isWaived)), ("invalid", .arr found.invalid)]),
    ("summary", .obj summary)]

def finalizeReviewReport (report : Dict) (previous : Option Dict) (waivers : Json) :
    Option Dict := do
  let owners ← (rtlOwnershipMap env homeless workspace).toOption
  let before ← decoratedIssues env homeless workspace owners (previous.getD [])
  let previousById := issuesById before
  let decorated ← decoratedIssues env homeless workspace owners report
  let found := validWaivers waivers
  let current := decorated.map (annotate previousById.has found.valid)
  let resolved := resolvedIssues previousById current
  let actionable ← findActionable workspace current
  let summary ← dictOf (report.getD "summary" (.obj []))
  let toolLimit ← anyToolLimit current
  let summary := (summary.update (deltaCounts current resolved actionable)).set "status"
    (.str (finalStatus actionable toolLimit))
  let baseline := if previous.getD [] = [] then "none" else "previous_run"
  return report.update (finalItems baseline found current resolved summary)

end

/-! ## 7. What a decorated issue is -/

/-- The fields a fingerprint is made of. -/
def identityFields : List String := ["origin", "severity", "category", "title", "source", "line"]

/-- The fields a run sets on an issue after its fingerprint. -/
def annotationFields : List String := ["status", "waived", "waiver"]

theorem get_setDefault_ne (d : Dict) {key other : String} (value : Json) (h : key ≠ other) :
    (setDefault d key value).get other = d.get other := by
  unfold setDefault
  split
  · rfl
  · exact Dict.get_set_ne d value h

theorem has_setDefault (d : Dict) (key : String) (value : Json) :
    ((setDefault d key value).get key).isSome = true := by
  unfold setDefault
  split
  · assumption
  · rw [Dict.get_set_self]
    rfl

theorem setDefault_of_has {d : Dict} {key : String} (value : Json) (h : (d.get key).isSome = true) :
    setDefault d key value = d := if_pos h

theorem textOr_congr {a b : Dict} {key default : String} (h : a.get key = b.get key) :
    textOr a key default = textOr b key default := by
  rw [textOr, textOr, Dict.getD, Dict.getD, h]

theorem intAt_congr {a b : Dict} {key : String} (h : a.get key = b.get key) :
    intAt a key = intAt b key := by
  have hvalue : a.getD key (.int 0) = b.getD key (.int 0) := by rw [Dict.getD, Dict.getD, h]
  unfold intAt
  rw [hvalue]

section

variable {env : Env} {homeless : String → Bool} {workspace : Workspace}
  {owners : List (AbsPath × String)}

/-- A fingerprint reads the six fields of the identity and nothing else. -/
theorem issueFingerprint_congr {a b : Dict} (h : ∀ field ∈ identityFields, a.get field = b.get field) :
    issueFingerprint env workspace a = issueFingerprint env workspace b := by
  have htext : ∀ field ∈ identityFields, a.textAt field = b.textAt field := fun field hfield =>
    textOr_congr (h field hfield)
  have htexts : identityTexts a = identityTexts b := by
    refine List.map_congr_left fun field hfield => ?_
    rw [htext field (by revert hfield; revert field; decide)]
  rw [issueFingerprint, issueFingerprint, issueIdentity, issueIdentity, htexts,
    htext "source" (by decide), intAt_congr (h "line" (by decide))]

theorem issueOwner_congr {a b : Dict} (howner : a.get "ownership" = b.get "ownership")
    (hsource : a.get "source" = b.get "source") :
    issueOwner env homeless workspace owners a = issueOwner env homeless workspace owners b := by
  unfold issueOwner Dict.getD
  rw [howner, hsource]

theorem namedOwner_text {user : String} (huser : userRtlOwnership workspace = .ok user) (owner : String) :
    namedOwner workspace (.str owner) = some (.str (if owner = "" ∨ owner = "cpu" then user else owner)) := by
  unfold namedOwner
  rw [huser]
  split
  · simp_all
  · simp_all [Except.toOption]
  · simp_all [Except.toOption]
  · simp_all
  · simp_all
  · simp_all

theorem namedOwner_again {user : String} (huser : userRtlOwnership workspace = .ok user)
    {value owner : Json} (h : namedOwner workspace value = some owner) :
    namedOwner workspace owner = some owner := by
  have hself : namedOwner workspace (.str user) = some (.str user) := by
    rw [namedOwner_text huser, ite_self]
  unfold namedOwner at h
  rw [huser] at h
  split at h
  · cases h; exact hself
  · cases h; exact hself
  · cases h; exact hself
  · cases h
  · cases h
  · cases h
    rename_i h1 h2 h3 h4 h5
    unfold namedOwner
    split
    · exact absurd rfl h1
    · exact absurd rfl h2
    · exact absurd rfl h3
    · exact absurd rfl (h4 _)
    · exact absurd rfl (h5 _)
    · rfl

/-- Decorating an issue again finds the owner it has. -/
theorem issueOwner_again {issue again : Dict} {user : String} {owner : Json}
    (huser : userRtlOwnership workspace = .ok user) (hne : user ≠ "tool")
    (h : issueOwner env homeless workspace owners issue = some owner)
    (howner : again.get "ownership" = some owner) (hsource : again.get "source" = issue.get "source") :
    issueOwner env homeless workspace owners again = some owner := by
  obtain ⟨named, hnamed, hplaced⟩ := Option.bind_eq_some_iff.mp h
  unfold issueOwner
  rw [Dict.getD, howner, Dict.getD, hsource, ← Dict.getD]
  show (namedOwner workspace owner).bind _ = _
  unfold placedOwner at hplaced ⊢
  split at hplaced
  · rename_i hcase
    obtain ⟨text, htext, rfl⟩ := Option.map_eq_some_iff.mp hplaced
    rw [namedOwner_text huser, Option.bind_some]
    by_cases htool : Json.str (if text = "" ∨ text = "cpu" then user else text) = .str "tool"
    · rw [if_neg fun h => h.2 htool]
      have hcases : (if text = "" ∨ text = "cpu" then user else text) = "tool" := Json.str.inj htool
      split at hcases
      · exact absurd hcases hne
      · rw [htool, hcases]
    · rw [if_pos ⟨hcase.1, htool⟩, htext]
      rfl
  · rename_i hcase
    obtain rfl := Option.some.inj hplaced
    rw [namedOwner_again huser hnamed, Option.bind_some, if_neg hcase]

/-- A decorated issue: decorating it again changes neither owner nor fingerprint. -/
structure Decorated (env : Env) (homeless : String → Bool) (workspace : Workspace)
    (owners : List (AbsPath × String)) (issue : Dict) : Prop where
  origin : (issue.get "origin").isSome = true
  owner : ∃ owner, issue.get "ownership" = some owner ∧
    issueOwner env homeless workspace owners issue = some owner
  fingerprint : ∃ fingerprint, issue.get "fingerprint" = some (.str fingerprint) ∧
    issueFingerprint env workspace issue = some fingerprint

/-- `withOrigin` sets what is missing only. -/
theorem get_withOrigin {issue : Dict} (horigin : (issue.get "origin").isSome = true) {field : String}
    (h : "confidence" ≠ field) : (withOrigin issue).get field = issue.get field := by
  unfold withOrigin
  rw [get_setDefault_ne _ _ h, setDefault_of_has _ horigin]

theorem decorated_of_decorateIssue {issue decorated : Dict} {user : String}
    (huser : userRtlOwnership workspace = .ok user) (hne : user ≠ "tool")
    (h : decorateIssue env homeless workspace owners issue = some decorated) :
    Decorated env homeless workspace owners decorated := by
  simp only [decorateIssue, Option.bind_eq_bind, Option.bind_eq_some_iff] at h
  obtain ⟨owner, howner, fingerprint, hfingerprint, h⟩ := h
  obtain rfl := Option.some.inj h
  constructor
  · rw [Dict.get_set_ne _ _ (by decide), Dict.get_set_ne _ _ (by decide)]
    unfold withOrigin
    rw [get_setDefault_ne _ _ (by decide)]
    exact has_setDefault issue _ _
  · have hget : (((withOrigin issue).set "ownership" owner).set "fingerprint"
        (.str fingerprint)).get "ownership" = some owner := by
      rw [Dict.get_set_ne _ _ (by decide), Dict.get_set_self]
    refine ⟨owner, hget, issueOwner_again huser hne howner hget ?_⟩
    rw [Dict.get_set_ne _ _ (by decide), Dict.get_set_ne _ _ (by decide)]
  · refine ⟨fingerprint, Dict.get_set_self _ _ _, ?_⟩
    rw [← hfingerprint]
    refine issueFingerprint_congr fun field hfield => Dict.get_set_ne _ _ ?_
    rintro rfl
    revert hfield
    decide

/-- An issue with the fields of a decorated one is decorated with the same fingerprint. -/
theorem decorateIssue_again {issue again : Dict} (h : Decorated env homeless workspace owners issue)
    (hidentity : ∀ field ∈ identityFields, again.get field = issue.get field)
    (howner : again.get "ownership" = issue.get "ownership") :
    ∃ decorated, decorateIssue env homeless workspace owners again = some decorated ∧
      decorated.get "fingerprint" = issue.get "fingerprint" := by
  obtain ⟨owner, hget, hfound⟩ := h.owner
  obtain ⟨fingerprint, hgetFingerprint, hfingerprint⟩ := h.fingerprint
  have horigin : (again.get "origin").isSome = true := by
    rw [hidentity "origin" (by decide)]
    exact h.origin
  have hfields : ∀ field ∈ identityFields, (withOrigin again).get field = issue.get field := by
    intro field hfield
    rw [get_withOrigin horigin, hidentity field hfield]
    rintro rfl
    revert hfield
    decide
  have hownerAgain : issueOwner env homeless workspace owners (withOrigin again) = some owner := by
    rw [← hfound]
    refine issueOwner_congr ?_ (hfields "source" (by decide))
    rw [get_withOrigin horigin (by decide), howner]
  have hfingerprintAgain : issueFingerprint env workspace ((withOrigin again).set "ownership" owner) =
      some fingerprint := by
    rw [← hfingerprint]
    refine issueFingerprint_congr fun field hfield => ?_
    rw [Dict.get_set_ne, hfields field hfield]
    rintro rfl
    revert hfield
    decide
  refine ⟨((withOrigin again).set "ownership" owner).set "fingerprint" (.str fingerprint), ?_, ?_⟩
  · rw [decorateIssue, hownerAgain]
    show (issueFingerprint env workspace _).bind _ = _
    rw [hfingerprintAgain]
    rfl
  · rw [Dict.get_set_self, hgetFingerprint]

/-! ## 8. Annotations -/

/-- What a run sets on an issue leaves the other fields. -/
theorem get_annotate (known : String → Bool) (waivers issue : Dict) {field : String}
    (h : field ∉ annotationFields) : (annotate known waivers issue).get field = issue.get field := by
  simp only [annotationFields, List.mem_cons, List.not_mem_nil, or_false, not_or] at h
  obtain ⟨hstatus, hwaived, hwaiver⟩ := h
  unfold annotate
  dsimp only
  split
  · rw [Dict.get_set_ne _ _ (Ne.symm hwaiver), Dict.get_set_ne _ _ (Ne.symm hwaived),
      Dict.get_set_ne _ _ (Ne.symm hstatus)]
  · rw [Dict.get_set_ne _ _ (Ne.symm hwaived), Dict.get_set_ne _ _ (Ne.symm hstatus)]

theorem status_annotate (known : String → Bool) (waivers issue : Dict) :
    (annotate known waivers issue).textAt "status" =
      if known (issue.textAt "fingerprint") then "existing" else "new" := by
  have hget : (annotate known waivers issue).get "status" =
      some (.str (if known (issue.textAt "fingerprint") then "existing" else "new")) := by
    unfold annotate
    dsimp only
    split
    · rw [Dict.get_set_ne _ _ (by decide), Dict.get_set_ne _ _ (by decide), Dict.get_set_self]
    · rw [Dict.get_set_ne _ _ (by decide), Dict.get_set_self]
  rw [Dict.textAt, Dict.getD, hget]
  rfl

theorem isWaived_annotate (known : String → Bool) (waivers issue : Dict) :
    isWaived (annotate known waivers issue) = waivers.has (issue.textAt "fingerprint") := by
  unfold annotate Dict.has
  dsimp only
  cases waivers.get (issue.textAt "fingerprint") with
  | some waiver =>
    rw [isWaived, Dict.getD, Dict.get_set_ne _ _ (by decide), Dict.get_set_self]
    rfl
  | none =>
    rw [isWaived, Dict.getD, Dict.get_set_self]
    rfl

theorem issueSortKey_annotate (known : String → Bool) (waivers issue : Dict) :
    issueSortKey (annotate known waivers issue) = issueSortKey issue := by
  have hget : ∀ field ∉ annotationFields, (annotate known waivers issue).get field = issue.get field :=
    fun field hfield => get_annotate known waivers issue hfield
  have htext : ∀ field ∉ annotationFields, ∀ default,
      textOr (annotate known waivers issue) field default = textOr issue field default :=
    fun field hfield default => textOr_congr (hget field hfield)
  have htitle : (annotate known waivers issue).textAt "title" = issue.textAt "title" :=
    htext "title" (by decide) ""
  unfold issueSortKey
  rw [htext "severity" (by decide), intAt_congr (hget "line" (by decide)), htitle,
    show (annotate known waivers issue).textAt "category" = issue.textAt "category" from
      htext "category" (by decide) "",
    show (annotate known waivers issue).textAt "source" = issue.textAt "source" from
      htext "source" (by decide) ""]

/-- Sorting does not look at the annotations. -/
theorem sortIssues_annotate (known : String → Bool) (waivers : Dict) (issues : List Dict) :
    sortIssues (issues.map (annotate known waivers)) =
      (sortIssues issues).map (annotate known waivers) := by
  refine (List.map_mergeSort fun a _ b _ => ?_).symm
  rw [issueSortKey_annotate, issueSortKey_annotate]

end

end EccFe.Tools.Review
