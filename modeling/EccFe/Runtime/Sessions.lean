/-
EccFe.Runtime.Sessions — `fecompiler/runtime/sessions.py`: the open workspaces.

The registry keeps two maps, from ids to sessions and from resolved directories to
ids. They stay inverse to each other, and an id is issued once: the counter only
grows, so an id that left the maps never comes back (`registry_safe`).
-/
import EccFe.Python.Path
import EccFe.Python.JsonText
import Mathlib.Data.List.AList

namespace EccFe.Runtime.Sessions

open Python

/-! ## 1. The registry -/

structure WorkspaceSession where
  workspaceId : String
  directory : AbsPath
  deriving DecidableEq

structure WorkspaceSessionRegistry where
  nextId : Nat
  sessions : AList fun _ : String => WorkspaceSession
  sessionsByDirectory : AList fun _ : AbsPath => String

def WorkspaceSessionRegistry.new : WorkspaceSessionRegistry := ⟨1, ∅, ∅⟩

/-- `f"workspace-{n}"`. -/
def workspaceIdOf (n : Nat) : String := "workspace-" ++ String.ofList (natText n)

inductive Call where
  | createSession (directory : String)
  | openSession (directory : String)
  | closeSession (workspaceId : String)
  | closeAll
  | getSession (workspaceId : String)

inductive Reply where
  | session (s : WorkspaceSession)
  | done
  /-- `WorkspaceSessionNotFound(workspace_id)`. -/
  | notFound (workspaceId : String)
  /-- The `KeyError` of `self._sessions[existing_id]`. -/
  | keyError (workspaceId : String)

namespace WorkspaceSessionRegistry

/-- `_create_session(directory)`. -/
def create (r : WorkspaceSessionRegistry) (directory : AbsPath) :
    WorkspaceSession × WorkspaceSessionRegistry :=
  let session : WorkspaceSession := ⟨workspaceIdOf r.nextId, directory⟩
  (session,
    { nextId := r.nextId + 1
      sessions := r.sessions.insert session.workspaceId session
      sessionsByDirectory := r.sessionsByDirectory.insert directory session.workspaceId })

/-- `_remove_session(workspace_id)`; `none` when it raises. -/
def remove (r : WorkspaceSessionRegistry) (workspaceId : String) :
    Option WorkspaceSessionRegistry :=
  (r.sessions.lookup workspaceId).map fun session =>
    { r with
      sessions := r.sessions.erase workspaceId
      sessionsByDirectory := r.sessionsByDirectory.erase session.directory }

/-- `create_session` of a resolved directory. -/
def createSession (r : WorkspaceSessionRegistry) (resolved : AbsPath) :
    Reply × WorkspaceSessionRegistry :=
  match r.sessionsByDirectory.lookup resolved with
  | none => ((r.create resolved).map .session id)
  | some existingId =>
      match r.remove existingId with
      | none => (.notFound existingId, r)
      | some r => ((r.create resolved).map .session id)

/-- `open_session` of a resolved directory. -/
def openSession (r : WorkspaceSessionRegistry) (resolved : AbsPath) :
    Reply × WorkspaceSessionRegistry :=
  match r.sessionsByDirectory.lookup resolved with
  | none => ((r.create resolved).map .session id)
  | some existingId =>
      match r.sessions.lookup existingId with
      | some session => (.session session, r)
      | none => (.keyError existingId, r)

/-- One call; the host resolves directories. -/
def step (host : Host) (r : WorkspaceSessionRegistry) : Call → Reply × WorkspaceSessionRegistry
  | .createSession directory => r.createSession (host.resolveText directory)
  | .openSession directory => r.openSession (host.resolveText directory)
  | .closeSession workspaceId =>
      match r.remove workspaceId with
      | none => (.notFound workspaceId, r)
      | some r => (.done, r)
  | .closeAll => (.done, { r with sessions := ∅, sessionsByDirectory := ∅ })
  | .getSession workspaceId =>
      match r.sessions.lookup workspaceId with
      | some session => (.session session, r)
      | none => (.notFound workspaceId, r)

/-- The registry after a sequence of calls; directories may resolve differently over time. -/
def run (r : WorkspaceSessionRegistry) (calls : List (Host × Call)) : WorkspaceSessionRegistry :=
  calls.foldl (fun r call => (r.step call.1 call.2).2) r

/-! ## 2. The two maps -/

/-- The maps are inverse to each other, and every id was issued before. -/
structure Inverse (r : WorkspaceSessionRegistry) : Prop where
  byId : ∀ workspaceId session, r.sessions.lookup workspaceId = some session →
    session.workspaceId = workspaceId ∧
      r.sessionsByDirectory.lookup session.directory = some workspaceId
  byDirectory : ∀ directory workspaceId,
    r.sessionsByDirectory.lookup directory = some workspaceId →
      ∃ session, r.sessions.lookup workspaceId = some session ∧ session.directory = directory
  issued : ∀ workspaceId ∈ r.sessions, ∃ n, n < r.nextId ∧ workspaceId = workspaceIdOf n

theorem workspaceIdOf_inj {m n : Nat} (h : workspaceIdOf m = workspaceIdOf n) : m = n := by
  have htext := congrArg String.toList h
  simp only [workspaceIdOf, String.toList_append, String.toList_ofList, List.append_cancel_left_eq]
    at htext
  exact natText_inj htext

theorem inverse_new : Inverse .new where
  byId := by simp [new]
  byDirectory := by simp [new]
  issued := by simp [new]

section

variable {r : WorkspaceSessionRegistry}

/-- The next id is not in use. -/
theorem Inverse.fresh (h : r.Inverse) : workspaceIdOf r.nextId ∉ r.sessions := by
  intro hmem
  obtain ⟨n, hn, heq⟩ := h.issued _ hmem
  have := workspaceIdOf_inj heq
  omega

theorem Inverse.create (h : r.Inverse) {directory : AbsPath}
    (hfree : r.sessionsByDirectory.lookup directory = none) :
    (r.create directory).2.Inverse where
  byId := by
    intro workspaceId session hlookup
    by_cases hid : workspaceId = workspaceIdOf r.nextId
    · subst hid
      rw [WorkspaceSessionRegistry.create] at hlookup
      rw [AList.lookup_insert] at hlookup
      cases hlookup
      exact ⟨rfl, AList.lookup_insert _⟩
    · rw [WorkspaceSessionRegistry.create] at hlookup
      rw [AList.lookup_insert_ne hid] at hlookup
      obtain ⟨heq, hdirectory⟩ := h.byId _ _ hlookup
      have hne : session.directory ≠ directory := fun heq => by
        rw [heq, hfree] at hdirectory
        cases hdirectory
      exact ⟨heq, (AList.lookup_insert_ne hne).trans hdirectory⟩
  byDirectory := by
    intro directory' workspaceId hlookup
    by_cases hdirectory : directory' = directory
    · subst hdirectory
      rw [WorkspaceSessionRegistry.create] at hlookup
      rw [AList.lookup_insert] at hlookup
      cases hlookup
      exact ⟨_, AList.lookup_insert _, rfl⟩
    · rw [WorkspaceSessionRegistry.create] at hlookup
      rw [AList.lookup_insert_ne hdirectory] at hlookup
      obtain ⟨session, hsession, heq⟩ := h.byDirectory _ _ hlookup
      have hne : workspaceId ≠ workspaceIdOf r.nextId := fun hid =>
        h.fresh (hid ▸ AList.lookup_isSome.mp (by rw [hsession]; rfl))
      exact ⟨session, (AList.lookup_insert_ne hne).trans hsession, heq⟩
  issued := by
    intro workspaceId hmem
    rcases (AList.mem_insert _).mp hmem with rfl | hmem
    · exact ⟨r.nextId, Nat.lt_succ_self _, rfl⟩
    · obtain ⟨n, hn, heq⟩ := h.issued _ hmem
      exact ⟨n, Nat.lt_succ_of_lt hn, heq⟩

theorem Inverse.remove (h : r.Inverse) {workspaceId : String} {r' : WorkspaceSessionRegistry}
    (hremove : r.remove workspaceId = some r') : r'.Inverse := by
  obtain ⟨session, hsession, rfl⟩ := Option.map_eq_some_iff.mp hremove
  have hdirectory := (h.byId _ _ hsession).2
  refine ⟨fun id other hlookup => ?_, fun directory id hlookup => ?_, fun id hmem => ?_⟩
  · have hne : id ≠ workspaceId := fun heq => by
      rw [heq, AList.lookup_erase] at hlookup
      cases hlookup
    rw [AList.lookup_erase_ne hne] at hlookup
    obtain ⟨heq, hother⟩ := h.byId _ _ hlookup
    refine ⟨heq, ?_⟩
    -- two sessions of one directory would share the id
    have hdiff : other.directory ≠ session.directory := fun hsame => by
      rw [hsame, hdirectory] at hother
      exact hne (Option.some.inj hother).symm
    exact (AList.lookup_erase_ne hdiff).trans hother
  · have hne : directory ≠ session.directory := fun heq => by
      rw [heq, AList.lookup_erase] at hlookup
      cases hlookup
    rw [AList.lookup_erase_ne hne] at hlookup
    obtain ⟨other, hother, heq⟩ := h.byDirectory _ _ hlookup
    have hid : id ≠ workspaceId := fun hid => by
      rw [hid, hsession] at hother
      exact hne (heq.symm.trans (congrArg _ (Option.some.inj hother).symm))
    exact ⟨other, (AList.lookup_erase_ne hid).trans hother, heq⟩
  · exact h.issued _ (AList.mem_erase.mp hmem).2

/-- A removed session leaves its directory free. -/
theorem Inverse.remove_directory (h : r.Inverse) {resolved : AbsPath} {existingId : String}
    (hexisting : r.sessionsByDirectory.lookup resolved = some existingId) :
    ∃ r', r.remove existingId = some r' ∧ r'.sessionsByDirectory.lookup resolved = none ∧
      existingId ∉ r'.sessions := by
  obtain ⟨session, hsession, heq⟩ := h.byDirectory _ _ hexisting
  refine ⟨_, by rw [WorkspaceSessionRegistry.remove, hsession]; rfl, ?_, ?_⟩
  · subst heq
    exact AList.lookup_erase _ _
  · exact fun hmem => (AList.mem_erase.mp hmem).1 rfl

/-- A directory that is free has no session. -/
theorem Inverse.createSession_eq (h : r.Inverse) (resolved : AbsPath) :
    ∃ r₀ : WorkspaceSessionRegistry, r₀.Inverse ∧ r₀.nextId = r.nextId ∧
      (∀ id ∈ r₀.sessions, id ∈ r.sessions) ∧ r₀.sessionsByDirectory.lookup resolved = none ∧
      (∀ id, r.sessionsByDirectory.lookup resolved = some id → id ∉ r₀.sessions) ∧
      r.createSession resolved = (.session (r₀.create resolved).1, (r₀.create resolved).2) := by
  rw [createSession]
  cases hlookup : r.sessionsByDirectory.lookup resolved with
  | none => exact ⟨r, h, rfl, fun _ hid => hid, hlookup, by simp, rfl⟩
  | some existingId =>
    obtain ⟨r', hremove, hfree, hgone⟩ := h.remove_directory hlookup
    obtain ⟨session, hsession, heq⟩ := Option.map_eq_some_iff.mp hremove
    refine ⟨r', h.remove hremove, by rw [← heq], ?_, hfree, ?_, by simp only [hremove]; rfl⟩
    · intro id hid
      rw [← heq] at hid
      exact (AList.mem_erase.mp hid).2
    · rintro id ⟨rfl⟩
      exact hgone

/-- Creating a session leaves other directories their sessions. -/
theorem Inverse.directory_createSession (h : r.Inverse) {resolved directory : AbsPath}
    (hne : directory ≠ resolved) :
    (r.createSession resolved).2.sessionsByDirectory.lookup directory =
      r.sessionsByDirectory.lookup directory := by
  rw [createSession]
  cases hexisting : r.sessionsByDirectory.lookup resolved with
  | none => exact AList.lookup_insert_ne hne
  | some existingId =>
    obtain ⟨existing, hlookup, heq⟩ := h.byDirectory _ _ hexisting
    have hremove : r.remove existingId = some
        { r with
          sessions := r.sessions.erase existingId
          sessionsByDirectory := r.sessionsByDirectory.erase existing.directory } := by
      rw [WorkspaceSessionRegistry.remove, hlookup]
      rfl
    dsimp only
    rw [hremove]
    exact (AList.lookup_insert_ne hne).trans (AList.lookup_erase_ne (heq ▸ hne))

/-- So does opening one. -/
theorem Inverse.directory_openSession (h : r.Inverse) {resolved directory : AbsPath}
    (hne : directory ≠ resolved) :
    (r.openSession resolved).2.sessionsByDirectory.lookup directory =
      r.sessionsByDirectory.lookup directory := by
  rw [openSession]
  cases hexisting : r.sessionsByDirectory.lookup resolved with
  | none => exact AList.lookup_insert_ne hne
  | some existingId =>
    obtain ⟨existing, hlookup, -⟩ := h.byDirectory _ _ hexisting
    simp only [hlookup]

/-- Removing a session gives no directory another one. -/
theorem directory_of_remove {other id : String} {r' : WorkspaceSessionRegistry} {directory : AbsPath}
    (hremove : r.remove other = some r')
    (hlookup : r'.sessionsByDirectory.lookup directory = some id) :
    r.sessionsByDirectory.lookup directory = some id := by
  obtain ⟨session, -, rfl⟩ := Option.map_eq_some_iff.mp hremove
  by_cases hsame : directory = session.directory
  · subst hsame
    rw [AList.lookup_erase] at hlookup
    cases hlookup
  · exact (AList.lookup_erase_ne hsame).symm.trans hlookup

/-- What one call does to the ids: none comes back. -/
structure Grows (r r' : WorkspaceSessionRegistry) : Prop where
  nextId : r.nextId ≤ r'.nextId
  sessions : ∀ id ∈ r'.sessions,
    id ∈ r.sessions ∨ ∃ n, r.nextId ≤ n ∧ n < r'.nextId ∧ id = workspaceIdOf n

theorem Grows.refl (r : WorkspaceSessionRegistry) : Grows r r := ⟨le_rfl, fun _ h => .inl h⟩

theorem Grows.trans {r' r'' : WorkspaceSessionRegistry} (h : Grows r r') (h' : Grows r' r'') :
    Grows r r'' where
  nextId := h.nextId.trans h'.nextId
  sessions := by
    intro id hid
    rcases h'.sessions id hid with hid | ⟨n, hlow, hhigh, heq⟩
    · rcases h.sessions id hid with hid | ⟨n, hlow, hhigh, heq⟩
      · exact .inl hid
      · exact .inr ⟨n, hlow, lt_of_lt_of_le hhigh h'.nextId, heq⟩
    · exact .inr ⟨n, h.nextId.trans hlow, hhigh, heq⟩

theorem Grows.create (r : WorkspaceSessionRegistry) (directory : AbsPath) :
    Grows r (r.create directory).2 where
  nextId := Nat.le_succ _
  sessions := by
    intro id hid
    rcases (AList.mem_insert _).mp hid with rfl | hid
    · exact .inr ⟨r.nextId, le_rfl, Nat.lt_succ_self _, rfl⟩
    · exact .inl hid

theorem Grows.remove {id : String} {r' : WorkspaceSessionRegistry} (h : r.remove id = some r') :
    Grows r r' := by
  obtain ⟨session, -, rfl⟩ := Option.map_eq_some_iff.mp h
  exact ⟨le_rfl, fun other hother => .inl (AList.mem_erase.mp hother).2⟩

/-- An issued id that is not live stays away. -/
theorem Grows.not_mem {r' : WorkspaceSessionRegistry} (h : Grows r r') {n : Nat}
    (hn : n < r.nextId) (hid : workspaceIdOf n ∉ r.sessions) : workspaceIdOf n ∉ r'.sessions := by
  intro hmem
  rcases h.sessions _ hmem with hmem | ⟨m, hlow, -, heq⟩
  · exact hid hmem
  · have := workspaceIdOf_inj heq
    omega

/-! ## 3. Runs -/

theorem step_spec (h : r.Inverse) (host : Host) (call : Call) :
    (r.step host call).2.Inverse ∧ Grows r (r.step host call).2 := by
  cases call with
  | createSession directory =>
    obtain ⟨r₀, hinverse, hnext, hsub, hfree, -, heq⟩ := h.createSession_eq (host.resolveText directory)
    rw [step, heq]
    refine ⟨hinverse.create hfree, Grows.trans ⟨hnext.ge, ?_⟩ (Grows.create r₀ _)⟩
    exact fun id hid => .inl (hsub id hid)
  | openSession directory =>
    rw [step, openSession]
    cases hlookup : r.sessionsByDirectory.lookup (host.resolveText directory) with
    | none => exact ⟨h.create hlookup, Grows.create r _⟩
    | some existingId =>
      dsimp only
      cases r.sessions.lookup existingId with
      | some session => exact ⟨h, Grows.refl r⟩
      | none => exact ⟨h, Grows.refl r⟩
  | closeSession id =>
    rw [step]
    cases hremove : r.remove id with
    | none => exact ⟨h, Grows.refl r⟩
    | some r' => exact ⟨h.remove hremove, Grows.remove hremove⟩
  | closeAll =>
    rw [step]
    refine ⟨⟨?_, ?_, ?_⟩, ⟨le_rfl, ?_⟩⟩ <;> simp
  | getSession id =>
    rw [step]
    cases r.sessions.lookup id with
    | some session => exact ⟨h, Grows.refl r⟩
    | none => exact ⟨h, Grows.refl r⟩

theorem run_spec (calls : List (Host × Call)) : ∀ {r : WorkspaceSessionRegistry}, r.Inverse →
    (r.run calls).Inverse ∧ Grows r (r.run calls) := by
  induction calls with
  | nil => exact fun h => ⟨h, Grows.refl _⟩
  | cons call calls ih =>
    intro r h
    obtain ⟨hinverse, hgrows⟩ := step_spec h call.1 call.2
    obtain ⟨hlast, hrest⟩ := ih hinverse
    exact ⟨hlast, hgrows.trans hrest⟩

theorem run_append (r : WorkspaceSessionRegistry) (calls more : List (Host × Call)) :
    r.run (calls ++ more) = (r.run calls).run more := List.foldl_append

/-- A call ends the life of an id: it closes its session, or replaces it by a new one. -/
def Ends (r : WorkspaceSessionRegistry) (host : Host) (id : String) : Call → Prop
  | .createSession directory =>
      r.sessionsByDirectory.lookup (host.resolveText directory) = some id
  | .closeSession workspaceId => workspaceId = id ∧ id ∈ r.sessions
  | .closeAll => id ∈ r.sessions
  | .openSession _ | .getSession _ => False

theorem Ends.not_mem (h : r.Inverse) {host : Host} {id : String} {call : Call}
    (hends : r.Ends host id call) :
    (∃ n, n < r.nextId ∧ id = workspaceIdOf n) ∧ id ∉ (r.step host call).2.sessions := by
  cases call with
  | createSession directory =>
    obtain ⟨session, hsession, -⟩ := h.byDirectory _ _ hends
    have hissued := h.issued id (AList.lookup_isSome.mp (by rw [hsession]; rfl))
    obtain ⟨r₀, -, hnext, -, -, hgone, heq⟩ := h.createSession_eq (host.resolveText directory)
    refine ⟨hissued, ?_⟩
    rw [step, heq]
    intro hmem
    rcases (AList.mem_insert _).mp hmem with heq | hmem
    · obtain ⟨n, hn, hid⟩ := hissued
      rw [hid, hnext] at heq
      have := workspaceIdOf_inj heq
      omega
    · exact hgone id hends hmem
  | closeSession workspaceId =>
    obtain ⟨rfl, hmem⟩ := hends
    refine ⟨h.issued _ hmem, ?_⟩
    obtain ⟨session, hsession⟩ := Option.isSome_iff_exists.mp (AList.lookup_isSome.mpr hmem)
    rw [step, remove, hsession]
    exact fun hmem => (AList.mem_erase.mp hmem).1 rfl
  | closeAll => exact ⟨h.issued _ hends, AList.notMem_empty _⟩
  | openSession _ => exact hends.elim
  | getSession _ => exact hends.elim

/-- The id a call issues: the one of a session it returns and that was not live. -/
def issuedBy (r : WorkspaceSessionRegistry) (host : Host) (call : Call) : List String :=
  match (r.step host call).1 with
  | .session session => if session.workspaceId ∈ r.sessions then [] else [session.workspaceId]
  | _ => []

/-- The ids a sequence of calls issues, in order. -/
def issuedIds (r : WorkspaceSessionRegistry) : List (Host × Call) → List String
  | [] => []
  | call :: calls => r.issuedBy call.1 call.2 ++ (r.step call.1 call.2).2.issuedIds calls

/-- A call issues the next id and counts it, or none. -/
theorem issuedBy_cases (h : r.Inverse) (host : Host) (call : Call) :
    r.issuedBy host call = [] ∨
      r.issuedBy host call = [workspaceIdOf r.nextId] ∧
        r.nextId < (r.step host call).2.nextId := by
  have hif : ∀ (c : Prop) [Decidable c] (id : String), (if c then [] else [id]) = [] ∨
      (if c then [] else [id]) = [id] := by
    intro c _ id
    split <;> simp
  cases call with
  | createSession directory =>
    obtain ⟨r₀, -, hnext, -, -, -, heq⟩ := h.createSession_eq (host.resolveText directory)
    rw [issuedBy, step, heq]
    rcases hif (workspaceIdOf r₀.nextId ∈ r.sessions) (workspaceIdOf r₀.nextId) with hnone | hsome
    · exact .inl hnone
    · refine .inr ⟨hsome.trans (by rw [hnext]), ?_⟩
      show r.nextId < r₀.nextId + 1
      omega
  | openSession directory =>
    rw [issuedBy, step, openSession]
    cases hlookup : r.sessionsByDirectory.lookup (host.resolveText directory) with
    | none =>
      rcases hif (workspaceIdOf r.nextId ∈ r.sessions) (workspaceIdOf r.nextId) with hnone | hsome
      · exact .inl hnone
      · exact .inr ⟨hsome, Nat.lt_succ_self _⟩
    | some existingId =>
      obtain ⟨session, hsession, -⟩ := h.byDirectory _ _ hlookup
      have hid := (h.byId _ _ hsession).1
      dsimp only
      rw [hsession]
      refine .inl (if_pos ?_)
      rw [hid]
      exact AList.lookup_isSome.mp (by rw [hsession]; rfl)
  | closeSession id =>
    rw [issuedBy, step]
    cases r.remove id <;> exact .inl rfl
  | closeAll => exact .inl rfl
  | getSession id =>
    rw [issuedBy, step]
    cases hlookup : r.sessions.lookup id with
    | none => exact .inl rfl
    | some session =>
      refine .inl (if_pos ?_)
      rw [(h.byId _ _ hlookup).1]
      exact AList.lookup_isSome.mp (by rw [hlookup]; rfl)

/-- The ids issued are distinct and not below the counter. -/
theorem issuedIds_spec (calls : List (Host × Call)) : ∀ {r : WorkspaceSessionRegistry}, r.Inverse →
    (r.issuedIds calls).Nodup ∧
      ∀ id ∈ r.issuedIds calls, ∃ n, r.nextId ≤ n ∧ id = workspaceIdOf n := by
  induction calls with
  | nil => exact fun _ => ⟨List.nodup_nil, fun id hid => by cases hid⟩
  | cons call calls ih =>
    intro r h
    obtain ⟨hinverse, hgrows⟩ := step_spec h call.1 call.2
    obtain ⟨hnodup, hlow⟩ := ih hinverse
    have hlow' : ∀ id ∈ (r.step call.1 call.2).2.issuedIds calls,
        ∃ n, r.nextId ≤ n ∧ id = workspaceIdOf n := by
      intro id hid
      obtain ⟨n, hn, heq⟩ := hlow id hid
      exact ⟨n, hgrows.nextId.trans hn, heq⟩
    rw [issuedIds]
    rcases issuedBy_cases h call.1 call.2 with hnone | ⟨hsome, hlt⟩
    · rw [hnone]
      exact ⟨hnodup, hlow'⟩
    · rw [hsome, List.singleton_append, List.nodup_cons, List.forall_mem_cons]
      refine ⟨⟨fun hmem => ?_, hnodup⟩, ⟨r.nextId, le_rfl, rfl⟩, hlow'⟩
      obtain ⟨n, hn, heq⟩ := hlow _ hmem
      have := workspaceIdOf_inj heq
      omega

end

/-- What a sequence of calls on a new registry guarantees. -/
structure Safe (calls : List (Host × Call)) : Prop where
  /-- The two maps are inverse to each other. -/
  inverse : (run .new calls).Inverse
  /-- A directory has at most one live session. -/
  oneSession : ∀ id session id' session',
    (run .new calls).sessions.lookup id = some session →
    (run .new calls).sessions.lookup id' = some session' →
    session.directory = session'.directory → id = id'
  /-- No id is issued twice. -/
  issuedOnce : (issuedIds .new calls).Nodup
  /-- An id that was closed or replaced does not resolve any more. -/
  ended : ∀ pre host call post id, calls = pre ++ (host, call) :: post →
    (run .new pre).Ends host id call →
    ∀ host', ((run .new calls).step host' (.getSession id)).1 = .notFound id

theorem registry_safe (calls : List (Host × Call)) : Safe calls where
  inverse := (run_spec calls inverse_new).1
  oneSession := by
    intro id session id' session' hlookup hlookup' hdirectory
    have hinverse := (run_spec calls inverse_new).1
    have hid := (hinverse.byId _ _ hlookup).2
    have hid' := (hinverse.byId _ _ hlookup').2
    rw [← hdirectory, hid] at hid'
    exact Option.some.inj hid'
  issuedOnce := (issuedIds_spec calls inverse_new).1
  ended := by
    rintro pre host call post id rfl hends host'
    have hinverse := (run_spec pre inverse_new).1
    obtain ⟨⟨n, hn, rfl⟩, hgone⟩ := hends.not_mem hinverse
    obtain ⟨hstep, hgrows⟩ := step_spec hinverse host call
    have hlast : workspaceIdOf n ∉ (run .new (pre ++ (host, call) :: post)).sessions := by
      rw [run_append]
      exact (run_spec post hstep).2.not_mem (lt_of_lt_of_le hn hgrows.nextId) hgone
    rw [step, AList.lookup_eq_none.mpr hlast]

end WorkspaceSessionRegistry

end EccFe.Runtime.Sessions
