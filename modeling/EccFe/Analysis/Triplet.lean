/-
EccFe.Analysis.Triplet — the files `fecompiler/analysis/qor.py` publishes for a
step, and the write that replaces all three quality files or none.

Every operation of the write can raise. A `TripletPlan` says which one does, so
a statement about all plans is a statement about every point of failure. An
`Exception` enters the roll-back; an interruption (`KeyboardInterrupt`) does not,
and leaves the files published so far in place: the caller clears them.

Temporary files are not part of the state here. They live beside the three
destinations under names nothing else reads.
-/
import EccFe.Resources
import EccFe.Python.JsonText

namespace EccFe.Analysis

open Python

/-- How a call can leave other than by returning. -/
inductive Raised where
  | exception
  | interruption
  deriving DecidableEq

/-- The files `clear_step_qor` removes from a step directory. -/
inductive ArtifactFile where
  | qorMetrics
  | qorSummary
  | qorHotspots
  | frontendDetail
  deriving DecidableEq

/-- The content of each file of one step directory, `none` when it is absent. -/
abbrev Artifacts := ArtifactFile → Option Dict

def Artifacts.absent : Artifacts := fun _ => none

/-- The files with one of them replaced, or removed. -/
def Artifacts.put (files : Artifacts) (file : ArtifactFile) (content : Option Dict) : Artifacts :=
  fun other => if other = file then content else files other

/-- The files with every entry stored. -/
def Artifacts.store (files : Artifacts) (entries : List (ArtifactFile × Dict)) : Artifacts :=
  entries.foldl (fun files entry => files.put entry.1 (some entry.2)) files

/-- The three files of the quality triplet, in the order they are written. -/
def triplet : List ArtifactFile := [.qorMetrics, .qorSummary, .qorHotspots]

/-! ## 1. The atomic write -/

inductive PublishOutcome where
  | done
  | raised (r : Raised)
  /-- `os.replace` took effect and the interruption came right after it. -/
  | interruptedAfter

inductive RestoreOutcome where
  | done
  /-- An `OSError`, collected; the roll-back goes on. -/
  | osError
  | raised (r : Raised)

structure TripletPlan where
  stage : ArtifactFile → Option Raised
  publish : ArtifactFile → PublishOutcome
  restore : ArtifactFile → RestoreOutcome

/-- The first loop: read the original, stage the new content. -/
def stageAll (plan : TripletPlan) : List (ArtifactFile × Dict) → Option Raised
  | [] => none
  | (destination, _) :: rest =>
      match plan.stage destination with
      | some r => some r
      | none => stageAll plan rest

/-- The second loop: the files after it, the destinations published (last first),
and what was raised. -/
def publishAll (plan : TripletPlan) :
    List (ArtifactFile × Dict) → Artifacts → List ArtifactFile →
      Artifacts × List ArtifactFile × Option Raised
  | [], files, published => (files, published, none)
  | (destination, payload) :: rest, files, published =>
      match plan.publish destination with
      | .done =>
          publishAll plan rest (files.put destination (some payload)) (destination :: published)
      | .raised r => (files, published, some r)
      | .interruptedAfter =>
          (files.put destination (some payload), published, some .interruption)

/-- The roll-back loop over `reversed(published)`. -/
def rollback (plan : TripletPlan) (originals : Artifacts) :
    List ArtifactFile → Artifacts → Artifacts × Option Raised
  | [], files => (files, none)
  | destination :: rest, files =>
      match plan.restore destination with
      | .done =>
          rollback plan originals rest (files.put destination (originals destination))
      | .osError => rollback plan originals rest files
      | .raised r => (files, some r)

/-- `_write_qor_triplet_atomic(entries)`: the files after it and what it raised. -/
def writeQorTripletAtomic (plan : TripletPlan) (entries : List (ArtifactFile × Dict))
    (files : Artifacts) : Artifacts × Option Raised :=
  let (after, published, raised) :=
    match stageAll plan entries with
    | some r => (files, [], some r)
    | none => publishAll plan entries files []
  match raised with
  | none => (after, none)
  | some .interruption => (after, some .interruption)
  | some .exception =>
      let (restored, inRollback) := rollback plan files published after
      -- the roll-back ends by raising `OSError`
      (restored, some (inRollback.getD .exception))

/-! ## 2. One step's quality write -/

/-- One call of `write_step_qor`: the payloads it builds, and where it raises.
`build` covers the report reader, the builder and the generation hash. -/
structure QorWrite where
  build : Option Raised
  metrics : Dict
  summary : Dict
  hotspots : Dict
  plan : TripletPlan

def qorGeneration (env : Env) (metrics summary hotspots : Dict) : String :=
  env.sha256 ((dumps (.arr [.obj metrics, .obj summary, .obj hotspots])).map
    fun c => UInt8.ofNat c.toNat)

def QorWrite.generation (env : Env) (write : QorWrite) : String :=
  qorGeneration env write.metrics write.summary write.hotspots

def QorWrite.entries (env : Env) (write : QorWrite) : List (ArtifactFile × Dict) :=
  let generation := Json.str (write.generation env)
  [(.qorMetrics, write.metrics.set "generation" generation),
    (.qorSummary, write.summary.set "generation" generation),
    (.qorHotspots, write.hotspots.set "generation" generation)]

/-- `write_step_qor(step, workspace, success)` on the files of the step. -/
def QorWrite.run (env : Env) (write : QorWrite) (files : Artifacts) : Artifacts × Option Raised :=
  match write.build with
  | some r => (files, some r)
  | none => writeQorTripletAtomic write.plan (write.entries env) files

/-- No operation of the write is interrupted. -/
def TripletPlan.NoInterruption (plan : TripletPlan) : Prop :=
  ∀ file, plan.stage file ≠ some .interruption ∧ plan.publish file ≠ .raised .interruption ∧
    plan.publish file ≠ .interruptedAfter ∧ plan.restore file ≠ .raised .interruption

def QorWrite.NoInterruption (write : QorWrite) : Prop :=
  write.build ≠ some .interruption ∧ write.plan.NoInterruption

/-- A write of three empty payloads in which nothing is raised. -/
def QorWrite.undisturbed : QorWrite where
  build := none
  metrics := []
  summary := []
  hotspots := []
  plan := { stage := fun _ => none, publish := fun _ => .done, restore := fun _ => .done }

theorem QorWrite.undisturbed_noInterruption : QorWrite.undisturbed.NoInterruption :=
  ⟨by simp [undisturbed], fun _ => by simp [undisturbed]⟩

/-- All three quality files are absent, or all are there with one generation. -/
def Consistent (files : Artifacts) : Prop :=
  (∀ file ∈ triplet, files file = none) ∨
    ∃ generation, ∀ file ∈ triplet,
      ∃ content, files file = some content ∧ content.get "generation" = some generation

/-! ## 3. What a write leaves -/

theorem consistent_absent : Consistent Artifacts.absent := .inl fun _ _ => rfl

theorem stageAll_noInterruption {plan : TripletPlan} (h : plan.NoInterruption) :
    ∀ entries, stageAll plan entries ≠ some .interruption
  | [] => by simp [stageAll]
  | (destination, _) :: rest => by
      rw [stageAll]
      split
      · rename_i r hr
        exact fun he => (h destination).1 (hr.trans he)
      · exact stageAll_noInterruption h rest

theorem publishAll_noInterruption {plan : TripletPlan} (h : plan.NoInterruption) :
    ∀ entries files published, (publishAll plan entries files published).2.2 ≠ some .interruption
  | [], _, _ => by simp [publishAll]
  | (destination, payload) :: rest, files, published => by
      rw [publishAll]
      split
      · exact publishAll_noInterruption h rest _ _
      · rename_i r hr
        intro he
        exact (h destination).2.1 (by rw [hr, Option.some.inj he])
      · rename_i hr
        exact absurd hr (h destination).2.2.1

theorem rollback_noInterruption {plan : TripletPlan} (h : plan.NoInterruption)
    (originals : Artifacts) :
    ∀ published files, (rollback plan originals published files).2 ≠ some .interruption
  | [], _ => by simp [rollback]
  | destination :: rest, files => by
      rw [rollback]
      split
      · exact rollback_noInterruption h originals rest _
      · exact rollback_noInterruption h originals rest _
      · rename_i r hr
        intro he
        exact (h destination).2.2.2 (by rw [hr, Option.some.inj he])

theorem writeQorTripletAtomic_noInterruption {plan : TripletPlan} (h : plan.NoInterruption)
    (entries : List (ArtifactFile × Dict)) (files : Artifacts) :
    (writeQorTripletAtomic plan entries files).2 ≠ some .interruption := by
  have hstage := stageAll_noInterruption h entries
  have hpublish := publishAll_noInterruption h entries files []
  rw [writeQorTripletAtomic]
  cases hst : stageAll plan entries with
  | some r =>
    cases r with
    | interruption => exact absurd hst hstage
    | exception => simp [rollback]
  | none =>
    cases hpub : (publishAll plan entries files []).2.2 with
    | none => simp [hpub]
    | some r =>
      cases r with
      | interruption => exact absurd hpub hpublish
      | exception =>
        have hroll := rollback_noInterruption h files (publishAll plan entries files []).2.1
          (publishAll plan entries files []).1
        simp only [hpub]
        cases hr : (rollback plan files (publishAll plan entries files []).2.1
            (publishAll plan entries files []).1).2 with
        | none => simp
        | some r =>
          cases r with
          | interruption => exact absurd hr hroll
          | exception => simp

theorem QorWrite.run_noInterruption (env : Env) {write : QorWrite} (h : write.NoInterruption)
    (files : Artifacts) : (write.run env files).2 ≠ some .interruption := by
  rw [QorWrite.run]
  split
  · rename_i r hr
    exact fun he => h.1 (hr.trans he)
  · exact writeQorTripletAtomic_noInterruption h.2 _ _

/-- A publishing loop that raises nothing stores every entry. -/
theorem publishAll_returned {plan : TripletPlan} :
    ∀ entries files published, (publishAll plan entries files published).2.2 = none →
      (publishAll plan entries files published).1 = files.store entries
  | [], _, _, _ => rfl
  | (destination, payload) :: rest, files, published, h => by
      rw [publishAll] at h ⊢
      split at h
      · exact publishAll_returned rest _ _ h
      · cases h
      · cases h

/-- A write that returns has stored all three payloads. -/
theorem writeQorTripletAtomic_returned {plan : TripletPlan}
    {entries : List (ArtifactFile × Dict)} {files : Artifacts}
    (h : (writeQorTripletAtomic plan entries files).2 = none) :
    (writeQorTripletAtomic plan entries files).1 = files.store entries := by
  rw [writeQorTripletAtomic] at h ⊢
  cases hst : stageAll plan entries with
  | some r => cases r <;> simp [hst] at h
  | none =>
    cases hpub : (publishAll plan entries files []).2.2 with
    | none =>
      simp only [hpub]
      exact publishAll_returned entries files [] hpub
    | some r => cases r <;> simp [hst, hpub] at h

/-- A quality write that returns leaves the three files with one generation. -/
theorem QorWrite.consistent_of_returned (env : Env) (write : QorWrite) (files : Artifacts)
    (h : (write.run env files).2 = none) : Consistent (write.run env files).1 := by
  rw [QorWrite.run] at h ⊢
  split at h
  · cases h
  · rw [writeQorTripletAtomic_returned h]
    refine .inr ⟨.str (write.generation env), ?_⟩
    intro file hfile
    simp only [triplet, List.mem_cons, List.not_mem_nil, or_false] at hfile
    rcases hfile with rfl | rfl | rfl
    · exact ⟨write.metrics.set "generation" (.str (write.generation env)),
        by simp [QorWrite.entries, Artifacts.store, Artifacts.put], Dict.get_set_self _ _ _⟩
    · exact ⟨write.summary.set "generation" (.str (write.generation env)),
        by simp [QorWrite.entries, Artifacts.store, Artifacts.put], Dict.get_set_self _ _ _⟩
    · exact ⟨write.hotspots.set "generation" (.str (write.generation env)),
        by simp [QorWrite.entries, Artifacts.store, Artifacts.put], Dict.get_set_self _ _ _⟩

end EccFe.Analysis
