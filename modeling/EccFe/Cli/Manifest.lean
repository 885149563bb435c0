/-
EccFe.Cli.Manifest — `_record_install` and `_record_required_resources` of
`fecompiler/cli/resource_manager.py`, run by any number of processes.

A call reads the whole manifest, changes it and writes it anew. It holds an exclusive lock on a
second file all the while; that file is opened by name and never replaced, so every process locks
the same one. The new text is written to a temporary file, which takes the manifest's name when it
is complete. A reader takes no lock: it opens the manifest and reads, chunk by chunk, the file it
has opened.

`manifest_updates`: in every interleaving the manifest is what the updates make of it one after
the other, and a reader has read one of these texts, whole.
-/
import EccFe.Cli.Resources
import EccFe.Python.Number
import EccFe.Transition.System
import Mathlib.Logic.Function.Basic

namespace EccFe.Cli.Manifest

open Python Transition Function

/-! ## 1. Updates -/

/-- What a process knows: its environment, `self.tools_dir` and `self.manifest_path.parent`. -/
structure Manager where
  disk : Disk
  toolsDir : String
  manifestDir : String

inductive Update where
  /-- `_record_install(name, entry)`. -/
  | install (name : String) (entry : Dict)
  /-- `_record_required_resources(resource_ids)`. -/
  | required (resourceIds : List String)

def setDefault (d : Dict) (key : String) (value : Json) : Dict :=
  if d.has key then d else d.set key value

/-- The keys that both updates set; `none` when the schema version is no number. -/
def stamped (manager : Manager) (manifest : Dict) : Option Dict :=
  match (manifest.getD "schema_version" (.int 1)).toInt with
  | .error _ => none
  | .ok version =>
      let defaults := emptyResourceManifest manager.disk
      let versioned := manifest.set "schema_version" (.int (max version manifestSchemaVersion))
      let placed := (versioned.set "resources_dir" (.str manager.manifestDir)).set "tools_dir"
        (.str manager.toolsDir)
      some (setDefault (setDefault placed "pdks_dir" (defaults.getD "pdks_dir" .null)) "mpcs_dir"
        (defaults.getD "mpcs_dir" .null))

/-- `list(dict.fromkeys(resource_ids))`. -/
def distinctIds (resourceIds : List String) : List String :=
  resourceIds.foldl (fun seen id => if id ∈ seen then seen else seen ++ [id]) []

/-- The manifest after an update. -/
def Update.apply (manager : Manager) (manifest : Dict) : Update → Option Dict
  | .install name entry => do
      let manifest ← stamped manager manifest
      let manifest := setDefault (setDefault manifest "required_resources" (.arr [])) "pdk_references"
        (.arr [])
      let manifest := setDefault manifest "installed" (.obj [])
      match manifest.get "installed" with
      | some (.obj installed) =>
          some (manifest.set "installed" (.obj (Dict.set installed ("tool:" ++ name) (.obj entry))))
      | _ => none
  | .required resourceIds => do
      let manifest ← stamped manager manifest
      let manifest := setDefault (setDefault manifest "pdk_references" (.arr [])) "installed" (.obj [])
      some (manifest.set "required_resources" (.arr ((distinctIds resourceIds).map .str)))

/-- `json.loads` of a file's bytes, and `json.dump(value, indent=2, ensure_ascii=False)` with the line
break after it, in UTF-8. Either may raise. -/
structure Codec where
  loads : List UInt8 → Option Json
  dumps : Dict → Option (List UInt8)
  loads_dumps : ∀ value bytes, dumps value = some bytes → loads bytes = some (.obj value)

structure Call where
  manager : Manager
  update : Update

variable (codec : Codec)

/-- The text a call writes when it finds `file`. -/
def Call.commit (call : Call) (file : Option (List UInt8)) : Option (List UInt8) :=
  match readResourceManifest codec.loads call.manager.disk file with
  | .error _ => none
  | .ok manifest => (call.update.apply call.manager manifest).bind codec.dumps

/-- The manifest after the calls, one after the other. -/
def replay (file : Option (List UInt8)) (calls : List Call) : Option (List UInt8) :=
  calls.foldl (fun file call => (call.commit codec file).or file) file

/-- Calls are replayed one after the other. -/
theorem replay_append (file : Option (List UInt8)) (calls more : List Call) :
    replay codec file (calls ++ more) = replay codec (replay codec file calls) more :=
  List.foldl_append

/-! ## 2. Processes -/

/-- `path.with_suffix(path.suffix + ".lock")`, the name in the manifest's directory. -/
def lockName (manifest : String) : String := manifest ++ ".lock"

/-- What `mkstemp` makes of `prefix`, its own characters and `suffix`. -/
def tempName (manifest random : String) : String := "." ++ manifest ++ "." ++ random ++ ".tmp"

theorem lockName_ne (manifest : String) : lockName manifest ≠ manifest := by
  intro h
  have hlength := congrArg String.length h
  rw [lockName, String.length_append] at hlength
  exact absurd hlength (by simp)

theorem tempName_ne (manifest random : String) : tempName manifest random ≠ manifest := by
  intro h
  have hlength := congrArg String.length h
  simp only [tempName, String.length_append] at hlength
  have htmp : ".tmp".length = 4 := by decide
  omega

theorem tempName_ne_lockName (manifest random : String) :
    tempName manifest random ≠ lockName manifest := by
  intro h
  have hlast := congrArg (fun text => text.toList.getLast?) h
  rw [tempName, lockName, String.toList_append, List.getLast?_append_of_ne_nil _ (by decide),
    String.toList_append, List.getLast?_append_of_ne_nil _ (by decide)] at hlast
  exact absurd hlast (by decide)

/-- Where a process is in its call; `lock` is the file it has opened to lock. -/
inductive Task where
  | opened (call : Call) (lock : Nat)
  | locked (call : Call) (lock : Nat)
  /-- The manifest is opened, `none` when it is missing. -/
  | reading (call : Call) (lock : Nat) (inode : Option Nat)
  /-- The text to write is ready. -/
  | staged (call : Call) (lock : Nat) (text : List UInt8)
  /-- The temporary file holds all but `rest`. -/
  | writing (call : Call) (lock : Nat) (temp : String) (inode : Nat) (rest : List UInt8)
  | replaced (call : Call) (lock : Nat)

namespace Task

def lock : Task → Nat
  | opened _ lock | locked _ lock | reading _ lock _ | staged _ lock _ | writing _ lock _ _ _
  | replaced _ lock => lock

/-- Is the lock held? -/
def holds : Task → Bool
  | opened _ _ => false
  | _ => true

end Task

/-- A reader: the file it has opened, and what it has read of it. -/
structure Reading where
  inode : Nat
  got : List UInt8

/-- The manifest's directory and everybody at work in it. Files are numbered; a name leads to one. -/
structure Site where
  files : String → Option Nat
  contents : Nat → List UInt8
  /-- No file has this number or a later one. -/
  fresh : Nat
  /-- Who has locked a file. -/
  holder : Nat → Option Nat
  tasks : Nat → Option Task
  readers : Nat → Option Reading
  /-- The calls that have replaced the manifest, in order. -/
  log : List Call
  /-- The calls that have returned, in order. -/
  returned : List Call
  /-- What readers have read to the end, `none` for a missing file. -/
  seen : List (Option (List UInt8))

/-- One step of a process, or of a reader. -/
inductive Label where
  | openLock (call : Call)
  /-- `fcntl.flock(lock.fileno(), fcntl.LOCK_EX)`. -/
  | flock
  | openManifest
  /-- Read the manifest and compute the new text; a failure ends the call. -/
  | readManifest
  | createTemp (random : String)
  | write (count : Nat)
  /-- `os.replace(temp_path, path)`. -/
  | replace
  | release
  /-- An exception or the death of the process, with or without its clean-up. -/
  | abort (unlinks : Bool)
  | readerOpen
  | readerRead (count : Nat)
  /-- The end of the file is reached. -/
  | readerClose

namespace Site

variable (manifest : String)

def setTask (s : Site) (process : Nat) (task : Option Task) : Site :=
  { s with tasks := update s.tasks process task }

/-- Close the locked file, which frees its lock. -/
def unlocked (s : Site) (process lock : Nat) : Site :=
  { s with holder := update s.holder lock none, tasks := update s.tasks process none }

/-- A new empty file under a name. -/
def create (s : Site) (name : String) : Site :=
  { s with
    files := update s.files name (some s.fresh)
    contents := update s.contents s.fresh []
    fresh := s.fresh + 1 }

/-- The manifest as a name lookup finds it. -/
def published (s : Site) : Option (List UInt8) := (s.files manifest).map s.contents

/-- One step, `none` when it is not possible. -/
def step (s : Site) (move : Nat × Label) : Option Site :=
  let process := move.1
  match s.tasks process, move.2 with
  | none, .openLock call =>
      match s.files (lockName manifest) with
      | some lock => some (s.setTask process (some (.opened call lock)))
      | none =>
          some ((s.create (lockName manifest)).setTask process (some (.opened call s.fresh)))
  | some (.opened call lock), .flock =>
      if s.holder lock = none then
        some { s.setTask process (some (.locked call lock)) with
          holder := update s.holder lock (some process) }
      else none
  | some (.locked call lock), .openManifest =>
      some (s.setTask process (some (.reading call lock (s.files manifest))))
  | some (.reading call lock inode), .readManifest =>
      match call.commit codec (inode.map s.contents) with
      | some text => some (s.setTask process (some (.staged call lock text)))
      | none => some (s.unlocked process lock)
  | some (.staged call lock text), .createTemp random =>
      if s.files (tempName manifest random) = none then
        some ((s.create (tempName manifest random)).setTask process
          (some (.writing call lock (tempName manifest random) s.fresh text)))
      else none
  | some (.writing call lock temp inode rest), .write count =>
      some { s.setTask process (some (.writing call lock temp inode (rest.drop count))) with
        contents := update s.contents inode (s.contents inode ++ rest.take count) }
  | some (.writing call lock temp inode []), .replace =>
      some { s.setTask process (some (.replaced call lock)) with
        files := update (update s.files manifest (some inode)) temp none
        log := s.log ++ [call] }
  | some (.replaced call lock), .release =>
      some { s.unlocked process lock with returned := s.returned ++ [call] }
  | some (.opened _ _), .abort _ => some (s.setTask process none)
  | some (.writing _ lock temp _ _), .abort true =>
      some { s.unlocked process lock with files := update s.files temp none }
  | some task, .abort _ => some (s.unlocked process task.lock)
  | _, .readerOpen =>
      match s.files manifest with
      | none => some { s with seen := s.seen ++ [none] }
      | some inode => some { s with readers := update s.readers process (some ⟨inode, []⟩) }
  | _, .readerRead count =>
      (s.readers process).map fun reading =>
        { s with
          readers := update s.readers process
            (some ⟨reading.inode, reading.got ++ ((s.contents reading.inode).drop reading.got.length).take count⟩) }
  | _, .readerClose =>
      match s.readers process with
      | some reading =>
          if (s.contents reading.inode).length ≤ reading.got.length then
            some { s with
              readers := update s.readers process none
              seen := s.seen ++ [some reading.got] }
          else none
      | none => none
  | _, _ => none

end Site

/-! ## 3. The invariant -/

section

variable (manifest : String) (start : Option (List UInt8))

/-- Each call found a manifest that it could update. -/
inductive Committed : List Call → Prop
  | nil : Committed []
  | snoc {log : List Call} {call : Call} : Committed log →
      (call.commit codec (replay codec start log)).isSome → Committed (log ++ [call])

/-- What a process in the middle of its call may rely on. -/
def Task.Agrees (s : Site) : Task → Prop
  | .opened _ _ | .locked _ _ => True
  | .reading _ _ inode => inode = s.files manifest
  | .staged call _ text => call.commit codec (replay codec start s.log) = some text
  | .writing call _ temp inode rest =>
      call.commit codec (replay codec start s.log) = some (s.contents inode ++ rest) ∧
        (∃ random, temp = tempName manifest random) ∧ s.files temp = some inode ∧
        (∀ name, s.files name = some inode → name = temp) ∧
        ∀ reader reading, s.readers reader = some reading → reading.inode ≠ inode
  | .replaced call _ => (s.returned ++ [call]).Sublist s.log

/-- A reader has opened a text that was complete when it was published. -/
structure Reading.Agrees (s : Site) (reading : Reading) : Prop where
  known : reading.inode < s.fresh
  part : reading.got <+: s.contents reading.inode
  whole : ∃ k ≤ s.log.length, some (s.contents reading.inode) = replay codec start (s.log.take k)

structure Consistent (s : Site) : Prop where
  fresh : ∀ name inode, s.files name = some inode → inode < s.fresh
  lock : ∀ process task, s.tasks process = some task → s.files (lockName manifest) = some task.lock
  holder : ∀ process task, s.tasks process = some task → task.holds = true →
    s.holder task.lock = some process
  published : s.published manifest = replay codec start s.log
  task : ∀ process task, s.tasks process = some task → task.Agrees codec manifest start s
  reader : ∀ reader reading, s.readers reader = some reading → reading.Agrees codec start s
  seen : ∀ text ∈ s.seen, ∃ k ≤ s.log.length, text = replay codec start (s.log.take k)
  returned : s.returned.Sublist s.log
  committed : Committed codec start s.log

variable {codec manifest start} {s : Site}

theorem take_of_isPrefix {α : Type} {xs ys : List α} (h : xs <+: ys) {k : Nat} (hk : k ≤ xs.length) :
    ys.take k = xs.take k := by
  obtain ⟨more, rfl⟩ := h
  exact List.take_append_of_le_length hk

/-- Later updates leave a reader's file alone. -/
theorem Reading.Agrees.mono {reading : Reading} (h : reading.Agrees codec start s) {s' : Site}
    (hfresh : s.fresh ≤ s'.fresh) (hcontents : s'.contents reading.inode = s.contents reading.inode)
    (hlog : s.log <+: s'.log) : reading.Agrees codec start s' where
  known := lt_of_lt_of_le h.known hfresh
  part := hcontents ▸ h.part
  whole := by
    obtain ⟨k, hk, heq⟩ := h.whole
    refine ⟨k, hk.trans hlog.length_le, ?_⟩
    rw [hcontents, heq, take_of_isPrefix hlog hk]

/-- Two processes do not hold the lock at once. -/
theorem Consistent.holds_unique (h : Consistent codec manifest start s) {process other : Nat}
    {task task' : Task} (htask : s.tasks process = some task) (hholds : task.holds = true)
    (htask' : s.tasks other = some task') (hholds' : task'.holds = true) : other = process := by
  have hlock : some task.lock = some task'.lock :=
    (h.lock process task htask).symm.trans (h.lock other task' htask')
  have hholder := h.holder process task htask hholds
  rw [Option.some.inj hlock, h.holder other task' htask' hholds'] at hholder
  exact Option.some.inj hholder

/-- While one process holds the lock every other one is at most about to lock. -/
theorem Consistent.others_agree (h : Consistent codec manifest start s) {process : Nat} {task : Task}
    (htask : s.tasks process = some task) (hholds : task.holds = true) (s' : Site) {other : Nat}
    (hother : other ≠ process) {task' : Task} (htask' : s.tasks other = some task') :
    task'.Agrees codec manifest start s' := by
  cases task' with
  | opened call lock => trivial
  | _ => exact absurd (h.holds_unique htask hholds htask' rfl) hother

/-- A task that is not there or has been set. -/
theorem setTask_cases {process other : Nat} {task : Option Task} {task' : Task}
    (h : (s.setTask process task).tasks other = some task') :
    (other = process ∧ task = some task') ∨ (other ≠ process ∧ s.tasks other = some task') := by
  by_cases hother : other = process
  · subst hother
    exact .inl ⟨rfl, by simpa [Site.setTask] using h⟩
  · exact .inr ⟨hother, by simpa [Site.setTask, update_of_ne hother] using h⟩

/-- A process goes on with the lock file it has opened. -/
theorem Consistent.keepLock (h : Consistent codec manifest start s) (s' : Site) {process : Nat}
    {task : Task} (task' : Task) (htask : s.tasks process = some task) (hlock : task'.lock = task.lock)
    (hholds : task'.holds = true → task.holds = true)
    (htasks : s'.tasks = update s.tasks process (some task'))
    (hfile : s'.files (lockName manifest) = s.files (lockName manifest)) (hholder : s'.holder = s.holder) :
    (∀ other task, s'.tasks other = some task → s'.files (lockName manifest) = some task.lock) ∧
      ∀ other task, s'.tasks other = some task → task.holds = true → s'.holder task.lock = some other := by
  have hcases : ∀ {other task''}, s'.tasks other = some task'' →
      (other = process ∧ task'' = task') ∨ s.tasks other = some task'' := by
    intro other task'' hother
    rw [htasks] at hother
    rcases setTask_cases (s := s) hother with ⟨hsame, hsome⟩ | ⟨-, hother⟩
    · exact .inl ⟨hsame, (Option.some.inj hsome).symm⟩
    · exact .inr hother
  rw [hfile, hholder]
  constructor
  · intro other task'' hother
    rcases hcases hother with ⟨rfl, rfl⟩ | hother
    · exact hlock ▸ h.lock _ _ htask
    · exact h.lock _ _ hother
  · intro other task'' hother hheld
    rcases hcases hother with ⟨rfl, rfl⟩ | hother
    · exact hlock ▸ h.holder _ _ htask (hholds hheld)
    · exact h.holder _ _ hother hheld

/-- A process goes on without touching a file. -/
theorem Consistent.setTask (h : Consistent codec manifest start s) {process : Nat} {task task' : Task}
    (htask : s.tasks process = some task) (hlock : task'.lock = task.lock)
    (hholds : task'.holds = true → task.holds = true)
    (hagrees : task'.Agrees codec manifest start (s.setTask process (some task'))) :
    Consistent codec manifest start (s.setTask process (some task')) := by
  obtain ⟨hlockFile, hholder⟩ := h.keepLock (s.setTask process (some task')) task' htask hlock hholds rfl rfl rfl
  refine ⟨h.fresh, hlockFile, hholder, h.published, fun other task'' hother => ?_, fun reader reading hreading =>
    (h.reader reader reading hreading).mono le_rfl rfl (List.prefix_refl s.log), h.seen, h.returned, h.committed⟩
  rcases setTask_cases hother with ⟨rfl, hsome⟩ | ⟨-, hother⟩
  · cases hsome
    exact hagrees
  · have := h.task _ _ hother
    cases task'' <;> exact this

/-- A process ends its call and frees the lock. -/
theorem Consistent.unlocked (h : Consistent codec manifest start s) {process : Nat} {task : Task}
    (htask : s.tasks process = some task) (hholds : task.holds = true) :
    Consistent codec manifest start (s.unlocked process task.lock) := by
  have hcases : ∀ {other task'}, (s.unlocked process task.lock).tasks other = some task' →
      other ≠ process ∧ s.tasks other = some task' := by
    intro other task' hother
    by_cases hsame : other = process
    · subst hsame
      simp [Site.unlocked] at hother
    · exact ⟨hsame, by simpa [Site.unlocked, update_of_ne hsame] using hother⟩
  refine ⟨h.fresh, fun other task' hother => h.lock _ _ (hcases hother).2, ?_, h.published, ?_,
    fun reader reading hreading =>
      (h.reader reader reading hreading).mono le_rfl rfl (List.prefix_refl s.log), h.seen, h.returned, h.committed⟩
  · intro other task' hother hheld
    exact absurd (h.holds_unique htask hholds (hcases hother).2 hheld) (hcases hother).1
  · intro other task' hother
    exact h.others_agree htask hholds _ (hcases hother).1 (hcases hother).2

/-- A name appears for a new empty file. -/
theorem Consistent.create (h : Consistent codec manifest start s) {name : String} (hname : s.files name = none)
    (hne : name ≠ manifest) : Consistent codec manifest start (s.create name) := by
  have hfiles : ∀ {other inode}, (s.create name).files other = some inode →
      (other = name ∧ inode = s.fresh) ∨ s.files other = some inode := by
    intro other inode hother
    by_cases hsame : other = name
    · subst hsame
      exact .inl ⟨rfl, by simpa [Site.create, eq_comm] using hother⟩
    · exact .inr (by simpa [Site.create, update_of_ne hsame] using hother)
  have hcontents : ∀ {inode}, inode < s.fresh → (s.create name).contents inode = s.contents inode :=
    fun hlt => update_of_ne hlt.ne _ _
  have hkeeps : ∀ {other inode}, s.files other = some inode → (s.create name).files other = some inode := by
    intro other inode hother
    rw [Site.create]
    exact (update_of_ne (by rintro rfl; rw [hname] at hother; cases hother) _ _).trans hother
  refine ⟨?_, fun process task htask => hkeeps (h.lock process task htask), h.holder, ?_, ?_, ?_, h.seen,
    h.returned, h.committed⟩
  · intro other inode hother
    rcases hfiles hother with ⟨-, rfl⟩ | hother
    · exact Nat.lt_succ_self _
    · exact (h.fresh _ _ hother).trans (Nat.lt_succ_self _)
  · refine Eq.trans ?_ h.published
    rw [Site.published, Site.published,
      show (s.create name).files manifest = s.files manifest from update_of_ne hne.symm _ _]
    cases hmanifest : s.files manifest with
    | none => rfl
    | some inode => exact congrArg some (hcontents (h.fresh _ _ hmanifest))
  · intro process task htask
    have hagrees := h.task process task htask
    cases task with
    | opened call lock => trivial
    | locked call lock => trivial
    | reading call lock inode => exact hagrees.trans (update_of_ne hne.symm _ _).symm
    | staged call lock text => exact hagrees
    | replaced call lock => exact hagrees
    | writing call lock temp inode rest =>
      obtain ⟨hcommit, htemp, hfile, honly, hreaders⟩ := hagrees
      have hlt := h.fresh _ _ hfile
      refine ⟨by rw [hcontents hlt]; exact hcommit, htemp, hkeeps hfile, fun other hother => ?_, hreaders⟩
      rcases hfiles hother with ⟨-, rfl⟩ | hother
      · exact absurd hlt (lt_irrefl _)
      · exact honly other hother
  · intro reader reading hreading
    have hagrees := h.reader reader reading hreading
    exact hagrees.mono (Nat.le_succ _) (hcontents hagrees.known) (List.prefix_refl s.log)

/-- A process starts its call on the lock file. -/
theorem Consistent.opened (h : Consistent codec manifest start s) {process lock : Nat}
    (call : Call) (htask : s.tasks process = none) (hlock : s.files (lockName manifest) = some lock) :
    Consistent codec manifest start (s.setTask process (some (.opened call lock))) where
  fresh := h.fresh
  lock := by
    intro other task hother
    rcases setTask_cases hother with ⟨rfl, hsome⟩ | ⟨-, hother⟩
    · cases hsome
      exact hlock
    · exact h.lock _ _ hother
  holder := by
    intro other task hother hheld
    rcases setTask_cases hother with ⟨rfl, hsome⟩ | ⟨-, hother⟩
    · cases hsome
      cases hheld
    · exact h.holder _ _ hother hheld
  published := h.published
  task := by
    intro other task hother
    rcases setTask_cases hother with ⟨rfl, hsome⟩ | ⟨-, hother⟩
    · cases hsome
      trivial
    · have := h.task _ _ hother
      cases task <;> exact this
  reader reader reading hreading :=
    (h.reader reader reading hreading).mono le_rfl rfl (List.prefix_refl s.log)
  seen := h.seen
  returned := h.returned
  committed := h.committed

/-- The lock is granted when nobody holds it. -/
theorem Consistent.flock (h : Consistent codec manifest start s) {process lock : Nat} {call : Call}
    (htask : s.tasks process = some (.opened call lock)) (hfree : s.holder lock = none) :
    Consistent codec manifest start { s.setTask process (some (.locked call lock)) with
      holder := update s.holder lock (some process) } where
  fresh := h.fresh
  lock := by
    intro other task hother
    rcases setTask_cases hother with ⟨rfl, hsome⟩ | ⟨-, hother⟩
    · cases hsome
      exact h.lock _ (.opened call lock) htask
    · exact h.lock _ _ hother
  holder := by
    intro other task hother hheld
    rcases setTask_cases hother with ⟨rfl, hsome⟩ | ⟨-, hother⟩
    · cases hsome
      exact update_self _ _ _
    · have hsame : task.lock = lock :=
        Option.some.inj ((h.lock _ _ hother).symm.trans (h.lock _ _ htask))
      have hholder := h.holder _ _ hother hheld
      rw [hsame, hfree] at hholder
      cases hholder
  published := h.published
  task := by
    intro other task hother
    rcases setTask_cases hother with ⟨rfl, hsome⟩ | ⟨-, hother⟩
    · cases hsome
      trivial
    · have := h.task _ _ hother
      cases task <;> exact this
  reader reader reading hreading :=
    (h.reader reader reading hreading).mono le_rfl rfl (List.prefix_refl s.log)
  seen := h.seen
  returned := h.returned
  committed := h.committed

/-- A chunk goes to the temporary file, which nobody else has opened. -/
theorem Consistent.write (h : Consistent codec manifest start s) {process lock inode : Nat} {call : Call}
    {temp : String} {rest : List UInt8} (count : Nat)
    (htask : s.tasks process = some (.writing call lock temp inode rest)) :
    Consistent codec manifest start { s.setTask process (some (.writing call lock temp inode (rest.drop count))) with
      contents := update s.contents inode (s.contents inode ++ rest.take count) } := by
  obtain ⟨hcommit, ⟨random, rfl⟩, hfile, honly, hreaders⟩ := h.task _ _ htask
  obtain ⟨hlockFile, hholder⟩ := h.keepLock
    { s.setTask process (some (.writing call lock (tempName manifest random) inode (rest.drop count))) with
      contents := update s.contents inode (s.contents inode ++ rest.take count) }
    (.writing call lock (tempName manifest random) inode (rest.drop count)) htask rfl id rfl rfl rfl
  have hmanifest : s.files manifest ≠ some inode := fun heq =>
    tempName_ne manifest random (honly manifest heq).symm
  refine ⟨h.fresh, hlockFile, hholder, ?_, fun other task hother => ?_, fun reader reading hreading => ?_, h.seen,
    h.returned, h.committed⟩
  · refine Eq.trans ?_ h.published
    rw [Site.published, Site.published]
    cases hfiles : s.files manifest with
    | none => rw [show (s.setTask process _).files manifest = none from hfiles]; rfl
    | some other =>
      have hother : other ≠ inode := by
        rintro rfl
        exact hmanifest hfiles
      rw [show (s.setTask process _).files manifest = some other from hfiles]
      exact congrArg some (update_of_ne hother _ _)
  · rcases setTask_cases (s := s) hother with ⟨rfl, hsome⟩ | ⟨hne, hother⟩
    · cases hsome
      refine ⟨hcommit.trans ?_, ⟨random, rfl⟩, hfile, honly, hreaders⟩
      simp
    · exact h.others_agree htask rfl _ hne hother
  · exact (h.reader reader reading hreading).mono le_rfl
      (update_of_ne (hreaders reader reading hreading) _ _) (List.prefix_refl s.log)

/-- The complete temporary file takes the manifest's name. -/
theorem Consistent.replace (h : Consistent codec manifest start s) {process lock inode : Nat} {call : Call}
    {temp : String} (htask : s.tasks process = some (.writing call lock temp inode [])) :
    Consistent codec manifest start { s.setTask process (some (.replaced call lock)) with
      files := update (update s.files manifest (some inode)) temp none
      log := s.log ++ [call] } := by
  obtain ⟨hcommit, ⟨random, rfl⟩, hfile, honly, -⟩ := h.task _ _ htask
  rw [List.append_nil] at hcommit
  have hreplay : replay codec start (s.log ++ [call]) = some (s.contents inode) := by
    rw [replay_append]
    show (call.commit codec (replay codec start s.log)).or (replay codec start s.log) = _
    rw [hcommit, Option.some_or]
  have hnext : ∀ k ≤ s.log.length, (s.log ++ [call]).take k = s.log.take k := fun k hk =>
    take_of_isPrefix (List.prefix_append _ _) hk
  have hlockName : ∀ other : String, other ≠ tempName manifest random → other ≠ manifest →
      update (update s.files manifest (some inode)) (tempName manifest random) none other = s.files other :=
    fun other hne hne' => (update_of_ne hne _ _).trans (update_of_ne hne' _ _)
  obtain ⟨hlockFile, hholder⟩ := h.keepLock { s.setTask process (some (.replaced call lock)) with
    files := update (update s.files manifest (some inode)) (tempName manifest random) none
    log := s.log ++ [call] } (.replaced call lock) htask rfl (fun _ => rfl) rfl
    (hlockName _ (tempName_ne_lockName manifest random).symm (lockName_ne manifest)) rfl
  refine ⟨?_, hlockFile, hholder, ?_, fun other task hother => ?_, fun reader reading hreading => ?_, ?_, ?_,
    h.committed.snoc (by rw [hcommit]; rfl)⟩
  · intro name other hother
    by_cases htemp : name = tempName manifest random
    · subst htemp
      simp at hother
    · by_cases hname : name = manifest
      · subst hname
        simp only [update_of_ne htemp, update_self, Option.some.injEq] at hother
        exact hother ▸ h.fresh _ _ hfile
      · exact h.fresh _ _ ((hlockName name htemp hname).symm.trans hother)
  · rw [hreplay, Site.published]
    simp [update_of_ne (tempName_ne manifest random).symm, Site.setTask]
  · rcases setTask_cases (s := s) hother with ⟨rfl, hsome⟩ | ⟨hne, hother⟩
    · cases hsome
      exact h.returned.append_right [call]
    · exact h.others_agree htask rfl _ hne hother
  · exact (h.reader reader reading hreading).mono le_rfl rfl (List.prefix_append _ _)
  · intro text htext
    obtain ⟨k, hk, heq⟩ := h.seen text htext
    refine ⟨k, hk.trans (by simp), ?_⟩
    rw [heq, hnext k hk]
  · exact h.returned.trans (List.sublist_append_left _ _)

/-- A call that has replaced the manifest returns. -/
theorem Consistent.release (h : Consistent codec manifest start s) {process lock : Nat} {call : Call}
    (htask : s.tasks process = some (.replaced call lock)) :
    Consistent codec manifest start { s.unlocked process lock with returned := s.returned ++ [call] } := by
  have hunlocked := h.unlocked htask rfl
  refine ⟨hunlocked.fresh, hunlocked.lock, hunlocked.holder, hunlocked.published, fun other task hother => ?_,
    fun reader reading hreading =>
      (h.reader reader reading hreading).mono le_rfl rfl (List.prefix_refl s.log), h.seen, h.task _ _ htask,
    h.committed⟩
  by_cases hsame : other = process
  · subst hsame
    simp [Site.unlocked] at hother
  · exact h.others_agree htask rfl _ hsame (by simpa [Site.unlocked, update_of_ne hsame] using hother)

/-- A call that fails removes its temporary file. -/
theorem Consistent.unlink (h : Consistent codec manifest start s) {process lock inode : Nat} {call : Call}
    {temp : String} {rest : List UInt8} (htask : s.tasks process = some (.writing call lock temp inode rest)) :
    Consistent codec manifest start
      { s.unlocked process lock with files := update s.files temp none } := by
  obtain ⟨-, ⟨random, rfl⟩, -, -, -⟩ := h.task _ _ htask
  have hunlocked := h.unlocked htask rfl
  have hkeeps : ∀ name : String, name ≠ tempName manifest random →
      update s.files (tempName manifest random) none name = s.files name := fun name hne => update_of_ne hne _ _
  refine ⟨fun name other hother => ?_, fun other task hother => ?_, hunlocked.holder, ?_, fun other task hother => ?_,
    fun reader reading hreading =>
      (h.reader reader reading hreading).mono le_rfl rfl (List.prefix_refl s.log), h.seen, h.returned, h.committed⟩
  · by_cases htemp : name = tempName manifest random
    · subst htemp
      simp at hother
    · exact h.fresh _ _ ((hkeeps name htemp).symm.trans hother)
  · exact (hkeeps _ (tempName_ne_lockName manifest random).symm).trans (hunlocked.lock other task hother)
  · refine Eq.trans ?_ h.published
    rw [Site.published, Site.published]
    exact congrArg (Option.map s.contents) (hkeeps _ (tempName_ne manifest random).symm)
  · by_cases hsame : other = process
    · subst hsame
      simp [Site.unlocked] at hother
    · exact h.others_agree htask rfl _ hsame (by simpa [Site.unlocked, update_of_ne hsame] using hother)

/-- A reader goes on, or is done. -/
theorem Consistent.setReader (h : Consistent codec manifest start s) (reader : Nat) (next : Option Reading)
    (hnext : ∀ reading, next = some reading → reading.Agrees codec start s ∧
      ∀ process call lock temp inode rest, s.tasks process = some (.writing call lock temp inode rest) →
        reading.inode ≠ inode) :
    Consistent codec manifest start { s with readers := update s.readers reader next } := by
  have hcases : ∀ {other reading}, update s.readers reader next other = some reading →
      next = some reading ∨ s.readers other = some reading := by
    intro other reading hother
    by_cases hsame : other = reader
    · subst hsame
      exact .inl (by simpa using hother)
    · exact .inr (by simpa [update_of_ne hsame] using hother)
  refine ⟨h.fresh, h.lock, h.holder, h.published, fun process task htask => ?_, fun other reading hother => ?_,
    h.seen, h.returned, h.committed⟩
  · have hagrees := h.task process task htask
    cases task with
    | writing call lock temp inode rest =>
      obtain ⟨hcommit, htemp, hfile, honly, hreaders⟩ := hagrees
      refine ⟨hcommit, htemp, hfile, honly, fun other reading hother => ?_⟩
      rcases hcases hother with hother | hother
      · exact (hnext reading hother).2 process call lock temp inode rest htask
      · exact hreaders other reading hother
    | _ => exact hagrees
  · have hagrees : reading.Agrees codec start s := by
      rcases hcases hother with hother | hother
      · exact (hnext reading hother).1
      · exact h.reader other reading hother
    exact hagrees.mono le_rfl rfl (List.prefix_refl s.log)

/-- A reader has read to the end. -/
theorem Consistent.see (h : Consistent codec manifest start s) {text : Option (List UInt8)}
    (htext : ∃ k ≤ s.log.length, text = replay codec start (s.log.take k)) :
    Consistent codec manifest start { s with seen := s.seen ++ [text] } := by
  refine ⟨h.fresh, h.lock, h.holder, h.published, fun process task htask => ?_, fun reader reading hreading =>
    (h.reader reader reading hreading).mono le_rfl rfl (List.prefix_refl s.log), fun other hother => ?_, h.returned, h.committed⟩
  · have hagrees := h.task process task htask
    cases task <;> exact hagrees
  · rcases List.mem_append.mp hother with hother | hother
    · exact h.seen other hother
    · cases List.mem_singleton.mp hother
      exact htext

/-- The file under the manifest's name is not being written. -/
theorem Consistent.ne_of_manifest (h : Consistent codec manifest start s) {inode : Nat}
    (hinode : s.files manifest = some inode) {process lock inode' : Nat} {call : Call} {temp : String}
    {rest : List UInt8} (htask : s.tasks process = some (.writing call lock temp inode' rest)) :
    inode ≠ inode' := by
  obtain ⟨-, ⟨random, rfl⟩, -, honly, -⟩ := h.task _ _ htask
  rintro rfl
  exact tempName_ne manifest random (honly manifest hinode).symm

/-- A process that holds no lock ends its call. -/
theorem Consistent.dropTask (h : Consistent codec manifest start s) (process : Nat) :
    Consistent codec manifest start (s.setTask process none) := by
  have hcases : ∀ {other task}, (s.setTask process none).tasks other = some task →
      s.tasks other = some task := by
    intro other task hother
    rcases setTask_cases hother with ⟨-, hnone⟩ | ⟨-, hother⟩
    · cases hnone
    · exact hother
  refine ⟨h.fresh, fun other task hother => h.lock _ _ (hcases hother),
    fun other task hother => h.holder _ _ (hcases hother), h.published, fun other task hother => ?_,
    fun reader reading hreading =>
      (h.reader reader reading hreading).mono le_rfl rfl (List.prefix_refl s.log), h.seen, h.returned, h.committed⟩
  have hagrees := h.task _ _ (hcases hother)
  cases task <;> exact hagrees

/-- **Step lemma.** -/
theorem consistent_step (h : Consistent codec manifest start s) {move : Nat × Label} {s' : Site}
    (hstep : s.step codec manifest move = some s') : Consistent codec manifest start s' := by
  have hnow : ∃ k ≤ s.log.length, s.published manifest = replay codec start (s.log.take k) :=
    ⟨s.log.length, le_rfl, by rw [h.published, List.take_length]⟩
  unfold Site.step at hstep
  dsimp only at hstep
  split at hstep
  · -- the lock file is opened
    rename_i call htask _
    split at hstep
    · rename_i lock hlock
      cases hstep
      exact h.opened call htask hlock
    · rename_i hlock
      cases hstep
      exact (h.create hlock (lockName_ne manifest)).opened call htask (update_self _ _ _)
  · rename_i call lock htask _
    split at hstep
    · rename_i hfree
      cases hstep
      exact h.flock htask hfree
    · cases hstep
  · rename_i call lock htask _
    cases hstep
    exact h.setTask htask rfl id rfl
  · -- the manifest is read
    rename_i call lock inode htask _
    have hread : inode.map s.contents = replay codec start s.log := by
      rw [← h.published, Site.published, ← show inode = s.files manifest from h.task _ _ htask]
    rw [hread] at hstep
    split at hstep
    · rename_i text hcommit
      cases hstep
      exact h.setTask htask rfl id hcommit
    · cases hstep
      exact h.unlocked htask rfl
  · rename_i call lock text random htask _
    split at hstep
    · rename_i hname
      cases hstep
      have hcreated := h.create hname (tempName_ne manifest random)
      refine hcreated.setTask (show (s.create _).tasks move.1 = some (.staged call lock text) from htask) rfl id ?_
      refine ⟨?_, ⟨random, rfl⟩, update_self _ _ _, fun other hother => ?_, fun reader reading hreading => ?_⟩
      · show call.commit codec (replay codec start s.log) = some (update s.contents s.fresh [] s.fresh ++ text)
        rw [update_self]
        exact h.task _ _ htask
      · by_contra hne
        exact lt_irrefl _ (h.fresh other s.fresh
          ((update_of_ne hne _ _ : (s.create (tempName manifest random)).files other = _) ▸ hother))
      · exact (h.reader reader reading hreading).known.ne
    · cases hstep
  · rename_i call lock temp inode rest count htask _
    cases hstep
    exact h.write count htask
  · rename_i call lock temp inode htask _
    cases hstep
    exact h.replace htask
  · rename_i call lock htask _
    cases hstep
    exact h.release htask
  · cases hstep
    exact h.dropTask _
  · rename_i call lock temp inode rest htask _
    cases hstep
    exact h.unlink htask
  · rename_i task unlinks hopened _ htask _
    cases hstep
    refine h.unlocked htask ?_
    cases task with
    | opened call lock => exact absurd rfl (hopened call lock)
    | _ => rfl
  · -- a reader opens the manifest
    split at hstep
    · rename_i hmissing
      cases hstep
      refine h.see ?_
      rwa [Site.published, hmissing] at hnow
    · rename_i inode hinode
      cases hstep
      refine h.setReader move.1 (some ⟨inode, []⟩) fun reading hreading => ?_
      cases hreading
      rw [Site.published, hinode] at hnow
      exact ⟨⟨h.fresh _ _ hinode, List.nil_prefix, hnow⟩, fun _ _ _ _ _ _ htask => h.ne_of_manifest hinode htask⟩
  · -- and reads on
    cases hreader : s.readers move.1 with
    | none =>
      rw [hreader] at hstep
      cases hstep
    | some reading =>
      rw [hreader] at hstep
      cases hstep
      have hagrees := h.reader _ _ hreader
      refine h.setReader move.1 _ fun next hnext => ?_
      cases hnext
      refine ⟨⟨hagrees.known, ?_, hagrees.whole⟩, fun process call lock temp inode rest htask => ?_⟩
      · obtain ⟨more, hmore⟩ := hagrees.part
        rw [← hmore, List.drop_left]
        exact (List.prefix_append_right_inj _).mpr (List.take_prefix _ _)
      · obtain ⟨-, -, -, -, hreaders⟩ := h.task _ _ htask
        exact hreaders move.1 reading hreader
  · split at hstep
    · rename_i reading hreader
      split at hstep
      · rename_i hend
        cases hstep
        have hagrees := h.reader _ _ hreader
        have hwhole : reading.got = s.contents reading.inode := hagrees.part.eq_of_length_le hend
        refine Consistent.see (h.setReader move.1 none (by simp)) ?_
        rw [hwhole]
        exact hagrees.whole
      · cases hstep
    · cases hstep
  · cases hstep

end

/-! ## 4. What the manifest holds -/

/-- The keys an update may set. -/
def managedKeys : List String :=
  ["schema_version", "resources_dir", "tools_dir", "pdks_dir", "mpcs_dir", "required_resources", "installed",
    "pdk_references"]

/-- The entry under a key of the installed table. -/
def installedAt (manifest : Dict) (key : String) : Option Json := Dict.get (manifest.dictAt "installed") key

/-- The manifest a file holds. -/
def view (file : Option (List UInt8)) : Dict :=
  match file.bind codec.loads with
  | some (.obj value) => value
  | _ => []

/-- The entry of the last install of a key. -/
def lastEntry (log : List Call) (key : String) : Option Dict :=
  log.foldl (fun last call =>
    match call.update with
    | .install name entry => if "tool:" ++ name = key then some entry else last
    | .required _ => last) none

/-- The list of the last update of the required resources. -/
def lastRequired (log : List Call) : Option (List String) :=
  log.foldl (fun last call =>
    match call.update with
    | .install _ _ => last
    | .required resourceIds => some (distinctIds resourceIds)) none

theorem get_setDefault (d : Dict) (key other : String) (value : Json) :
    (setDefault d key value).get other =
      if other = key then some ((d.get key).getD value) else d.get other := by
  unfold setDefault Dict.has
  by_cases hother : other = key
  · subst hother
    cases h : d.get other with
    | none => simp
    | some old => simp [h]
  · rw [if_neg hother]
    split
    · rfl
    · exact Dict.get_set_ne d value (Ne.symm hother)

theorem get_stamped {manager : Manager} {d d' : Dict} (h : stamped manager d = some d') {key : String}
    (hkey : key ∉ ["schema_version", "resources_dir", "tools_dir", "pdks_dir", "mpcs_dir"]) :
    d'.get key = d.get key := by
  simp only [List.mem_cons, List.not_mem_nil, or_false, not_or] at hkey
  obtain ⟨h1, h2, h3, h4, h5⟩ := hkey
  unfold stamped at h
  split at h
  · cases h
  · cases h
    rw [get_setDefault, if_neg h5, get_setDefault, if_neg h4, Dict.get_set_ne _ _ (Ne.symm h3),
      Dict.get_set_ne _ _ (Ne.symm h2), Dict.get_set_ne _ _ (Ne.symm h1)]

/-- The entry under a key after an update. -/
def Update.entryAfter (key : String) (old : Option Json) : Update → Option Json
  | .install name entry => if "tool:" ++ name = key then some (.obj entry) else old
  | .required _ => old

def Update.requiredAfter (old : Json) : Update → Json
  | .install _ _ => old
  | .required resourceIds => .arr ((distinctIds resourceIds).map .str)

/-- What an update leaves under the keys that other programs, or other updates, may have set. -/
structure Updated (d d' : Dict) (update : Update) : Prop where
  installed : ∀ key, installedAt d' key = update.entryAfter key (installedAt d key)
  required : d'.getD "required_resources" (.arr []) =
    update.requiredAfter (d.getD "required_resources" (.arr []))
  other : ∀ key ∉ managedKeys, d'.get key = d.get key

theorem installedAt_eq (d : Dict) (key : String) :
    installedAt d key = Dict.get ((d.get "installed").getD (.obj [])).asDict key := by
  unfold installedAt Dict.dictAt Dict.getD
  cases d.get "installed" <;> rfl

/-- An install updates its own entry. -/
theorem updated_install {manager : Manager} {name : String} {entry d d' : Dict}
    (h : (Update.install name entry).apply manager d = some d') : Updated d d' (.install name entry) := by
  obtain ⟨stampedManifest, hstamped, h⟩ := Option.bind_eq_some_iff.mp h
  have hget : ∀ key, key ∉ ["schema_version", "resources_dir", "tools_dir", "pdks_dir", "mpcs_dir"] →
      stampedManifest.get key = d.get key := fun key hkey => get_stamped hstamped hkey
  dsimp only at h
  rw [get_setDefault, if_pos rfl, get_setDefault, if_neg (by decide), get_setDefault, if_neg (by decide),
    hget "installed" (by decide)] at h
  split at h
  · rename_i installed hinstalled
    cases h
    refine ⟨fun key => ?_, ?_, fun key hkey => ?_⟩
    · rw [installedAt_eq, installedAt_eq, Dict.get_set_self, Option.some.inj hinstalled]
      dsimp only [Option.getD_some, Json.asDict, Update.entryAfter]
      split
      · rename_i hkey
        rw [← hkey, Dict.get_set_self]
      · rename_i hkey
        exact Dict.get_set_ne _ _ hkey
    · rw [Dict.getD, Dict.get_set_ne _ _ (by decide), get_setDefault, if_neg (by decide), get_setDefault,
        if_neg (by decide), get_setDefault, if_pos rfl, hget "required_resources" (by decide)]
      rfl
    · simp only [managedKeys, List.mem_cons, List.not_mem_nil, or_false, not_or] at hkey
      obtain ⟨h1, h2, h3, h4, h5, h6, h7, h8⟩ := hkey
      rw [Dict.get_set_ne _ _ (Ne.symm h7), get_setDefault, if_neg h7, get_setDefault, if_neg h8,
        get_setDefault, if_neg h6, hget key (by simp [h1, h2, h3, h4, h5])]
  · cases h

/-- A requirement updates the list of required resources. -/
theorem updated_required {manager : Manager} {resourceIds : List String} {d d' : Dict}
    (h : (Update.required resourceIds).apply manager d = some d') : Updated d d' (.required resourceIds) := by
  obtain ⟨stampedManifest, hstamped, h⟩ := Option.bind_eq_some_iff.mp h
  have hget : ∀ key, key ∉ ["schema_version", "resources_dir", "tools_dir", "pdks_dir", "mpcs_dir"] →
      stampedManifest.get key = d.get key := fun key hkey => get_stamped hstamped hkey
  cases h
  refine ⟨fun key => ?_, by rw [Dict.getD, Dict.get_set_self]; rfl, fun key hkey => ?_⟩
  · rw [installedAt_eq, installedAt_eq, Dict.get_set_ne _ _ (by decide), get_setDefault, if_pos rfl,
      get_setDefault, if_neg (by decide), hget "installed" (by decide)]
    rfl
  · simp only [managedKeys, List.mem_cons, List.not_mem_nil, or_false, not_or] at hkey
    obtain ⟨h1, h2, h3, h4, h5, h6, h7, h8⟩ := hkey
    rw [Dict.get_set_ne _ _ (Ne.symm h6), get_setDefault, if_neg h7, get_setDefault, if_neg h8,
      hget key (by simp [h1, h2, h3, h4, h5])]

/-- A call updates what it is about and nothing else. -/
theorem updated_apply {manager : Manager} {update : Update} {d d' : Dict}
    (h : update.apply manager d = some d') : Updated d d' update := by
  cases update with
  | install name entry => exact updated_install h
  | required resourceIds => exact updated_required h

variable {codec}

/-- A commit updates what the file holds, and writes it whole. -/
theorem updated_commit {call : Call} {file : Option (List UInt8)} {text : List UInt8}
    (h : call.commit codec file = some text) : ∃ d d', codec.dumps d' = some text ∧ view codec (some text) = d' ∧
      Updated d d' call.update ∧ (∀ key, installedAt d key = installedAt (view codec file) key) ∧
      d.getD "required_resources" (.arr []) = (view codec file).getD "required_resources" (.arr []) ∧
      ∀ key ∉ managedKeys, d.get key = (view codec file).get key := by
  unfold Call.commit at h
  split at h
  · cases h
  rename_i d hread
  obtain ⟨d', happly, hdumps⟩ := Option.bind_eq_some_iff.mp h
  have hview : view codec (some text) = d' := by
    rw [view, Option.bind_some, codec.loads_dumps d' text hdumps]
  refine ⟨d, d', hdumps, hview, updated_apply happly, ?_⟩
  cases file with
  | none =>
    cases hread
    refine ⟨fun key => rfl, rfl, fun key hkey => ?_⟩
    exact Dict.get_eq_none_of_not_mem _ _ hkey
  | some bytes =>
    have hd : view codec (some bytes) = d := by
      dsimp only [readResourceManifest] at hread
      rw [view, Option.bind_some]
      split at hread
      · split at hread
        · cases hread
          rename_i hloads _
          rw [hloads]
        · cases hread
      · cases hread
      · cases hread
    rw [hd]
    exact ⟨fun _ => rfl, rfl, fun _ _ => rfl⟩

variable (codec) in
/-- What the manifest holds after the calls of `log`. -/
structure Merged (start : Option (List UInt8)) (log : List Call) : Prop where
  installed : ∀ key, installedAt (view codec (replay codec start log)) key =
    ((lastEntry log key).map .obj).or (installedAt (view codec start) key)
  required : (view codec (replay codec start log)).getD "required_resources" (.arr []) =
    match lastRequired log with
    | some resourceIds => .arr (resourceIds.map .str)
    | none => (view codec start).getD "required_resources" (.arr [])
  other : ∀ key ∉ managedKeys,
    (view codec (replay codec start log)).get key = (view codec start).get key

/-- A committed manifest has every update merged. -/
theorem merged_of_committed {start : Option (List UInt8)} {log : List Call} (h : Committed codec start log) :
    Merged codec start log := by
  induction h with
  | nil => exact ⟨fun _ => rfl, rfl, fun _ _ => rfl⟩
  | @snoc log call _ hsome ih =>
    obtain ⟨text, hcommit⟩ := Option.isSome_iff_exists.mp hsome
    obtain ⟨d, d', -, hview, hupdated, hinstalled, hrequired, hother⟩ := updated_commit hcommit
    have hreplay : replay codec start (log ++ [call]) = some text := by
      rw [replay_append]
      show (call.commit codec (replay codec start log)).or _ = _
      rw [hcommit, Option.some_or]
    have hentry : ∀ key, (lastEntry (log ++ [call]) key).map Json.obj =
        call.update.entryAfter key ((lastEntry log key).map .obj) := by
      intro key
      rw [lastEntry, List.foldl_append, List.foldl_cons, List.foldl_nil, ← lastEntry]
      cases call.update with
      | install name entry => exact apply_ite _ _ _ _
      | required resourceIds => rfl
    have hlast : lastRequired (log ++ [call]) =
        match call.update with
        | .install _ _ => lastRequired log
        | .required resourceIds => some (distinctIds resourceIds) := List.foldl_append
    refine ⟨fun key => ?_, ?_, fun key hkey => ?_⟩
    · rw [hreplay, hview, hupdated.installed, hentry, hinstalled, ih.installed]
      cases call.update with
      | install name entry =>
        dsimp only [Update.entryAfter]
        split <;> rfl
      | required resourceIds => rfl
    · rw [hreplay, hview, hupdated.required, hrequired, ih.required, hlast]
      cases call.update with
      | install name entry => rfl
      | required resourceIds => rfl
    · rw [hreplay, hview, hupdated.other key hkey, hother key hkey, ih.other key hkey]

/-! ## 5. Runs -/

/-- A directory before the first call. -/
structure Quiet (site : Site) : Prop where
  fresh : ∀ name inode, site.files name = some inode → inode < site.fresh
  tasks : ∀ process, site.tasks process = none
  readers : ∀ reader, site.readers reader = none
  log : site.log = []
  returned : site.returned = []
  seen : site.seen = []

/-- Where no process runs, the site is consistent. -/
theorem Quiet.consistent {manifest : String} {site : Site} (h : Quiet site) :
    Consistent codec manifest (site.published manifest) site where
  fresh := h.fresh
  lock process task htask := by simp [h.tasks process] at htask
  holder process task htask := by simp [h.tasks process] at htask
  published := by rw [h.log]; rfl
  task process task htask := by simp [h.tasks process] at htask
  reader reader reading hreading := by simp [h.readers reader] at hreading
  seen := by simp [h.seen]
  returned := by rw [h.returned]; exact List.nil_sublist _
  committed := by rw [h.log]; exact .nil

/-- A text that was published is the first one, or the whole of a manifest. -/
theorem whole_of_committed {start : Option (List UInt8)} {log : List Call} (h : Committed codec start log) (k : Nat) :
    replay codec start (log.take k) = start ∨
      ∃ value bytes, replay codec start (log.take k) = some bytes ∧ codec.dumps value = some bytes := by
  induction h with
  | nil => exact .inl (by simp [replay])
  | @snoc log call hcommitted hsome ih =>
    by_cases hk : k ≤ log.length
    · rwa [List.take_append_of_le_length hk]
    · obtain ⟨text, hcommit⟩ := Option.isSome_iff_exists.mp hsome
      obtain ⟨d, d', hdumps, -⟩ := updated_commit hcommit
      refine .inr ⟨d', text, ?_, hdumps⟩
      rw [List.take_of_length_le (by simp; omega), replay_append]
      show (call.commit codec (replay codec start log)).or _ = _
      rw [hcommit, Option.some_or]

/-! ## 6. The calls of a run -/

def Task.call : Task → Call
  | opened call _ | locked call _ | reading call _ _ | staged call _ _ | writing call _ _ _ _
  | replaced call _ => call

/-- The call a process has opened, after a step. -/
def opens (calls : Nat → Option Call) : Nat × Label → Nat → Option Call
  | (process, .openLock call) => update calls process (some call)
  | _ => calls

def Label.replaces : Label → Bool
  | replace => true
  | _ => false

def Label.returns : Label → Bool
  | release => true
  | _ => false

/-- The calls whose processes take the steps of a kind, in order. -/
def callsAt (kind : Label → Bool) (calls : Nat → Option Call) : List (Nat × Label) → List Call
  | [] => []
  | move :: moves =>
      (if kind move.2 then (calls move.1).toList else []) ++ callsAt kind (opens calls move) moves

/-- A process is in the call it has opened last. -/
def InCall (calls : Nat → Option Call) (s : Site) : Prop :=
  ∀ process task, s.tasks process = some task → calls process = some task.call

section

variable {codec : Codec} {manifest : String} {calls : Nat → Option Call} {s s' : Site}

theorem InCall.setTask (h : InCall calls s) {process : Nat} {task : Option Task}
    (htask : ∀ t, task = some t → calls process = some t.call) (htasks : s'.tasks = update s.tasks process task) :
    InCall calls s' := by
  intro other t ht
  rw [htasks, update_apply] at ht
  split at ht
  · rename_i hother
    rw [hother]
    exact htask t ht
  · exact h other t ht

/-- One step: the process stays in its call, and the two lists grow with the steps they are for. -/
theorem inCall_step {move : Nat × Label} (h : InCall calls s)
    (hstep : Site.step codec manifest s move = some s') :
    InCall (opens calls move) s' ∧
      s'.log = s.log ++ (if move.2.replaces then (calls move.1).toList else []) ∧
      s'.returned = s.returned ++ (if move.2.returns then (calls move.1).toList else []) := by
  have hkept : s.log = s.log ++ [] ∧ s.returned = s.returned ++ [] :=
    ⟨(List.append_nil _).symm, (List.append_nil _).symm⟩
  have hnone : ∀ t, (none : Option Task) = some t → calls move.1 = some t.call := fun t ht => by cases ht
  have hstays : ∀ {task next : Task}, s.tasks move.1 = some task → next.call = task.call →
      ∀ t, some next = some t → calls move.1 = some t.call := by
    intro task next htask hcall t ht
    cases ht
    rw [hcall]
    exact h move.1 task htask
  obtain ⟨process, label⟩ := move
  unfold Site.step at hstep
  dsimp only at hstep hstays hnone
  split at hstep
  · rename_i call htask
    have hopened : ∀ lock (t : Task), some (Task.opened call lock) = some t →
        opens calls (process, .openLock call) process = some t.call := by
      intro lock t ht
      cases ht
      exact update_self _ _ _
    have hothers : InCall (opens calls (process, .openLock call)) s := by
      intro other t ht
      have hne : other ≠ process := by
        rintro rfl
        rw [htask] at ht
        cases ht
      exact (update_of_ne hne _ _).trans (h other t ht)
    split at hstep
    · cases hstep
      exact ⟨hothers.setTask (hopened _) rfl, hkept⟩
    · cases hstep
      exact ⟨hothers.setTask (hopened _) rfl, hkept⟩
  · rename_i htask
    split at hstep
    · cases hstep
      refine ⟨h.setTask ?_ rfl, hkept⟩
      exact hstays htask rfl
    · cases hstep
  · rename_i htask
    cases hstep
    refine ⟨h.setTask ?_ rfl, hkept⟩
    exact hstays htask rfl
  · rename_i htask
    split at hstep
    · cases hstep
      refine ⟨h.setTask ?_ rfl, hkept⟩
      exact hstays htask rfl
    · cases hstep
      exact ⟨h.setTask hnone rfl, hkept⟩
  · rename_i htask
    split at hstep
    · cases hstep
      refine ⟨h.setTask ?_ rfl, hkept⟩
      exact hstays htask rfl
    · cases hstep
  · rename_i htask
    cases hstep
    refine ⟨h.setTask ?_ rfl, hkept⟩
    exact hstays htask rfl
  · rename_i htask
    cases hstep
    refine ⟨h.setTask ?_ rfl, ?_, hkept.2⟩
    · exact hstays htask rfl
    · rw [h process _ htask]
      rfl
  · rename_i htask
    cases hstep
    refine ⟨h.setTask hnone rfl, hkept.1, ?_⟩
    rw [h process _ htask]
    rfl
  · cases hstep
    exact ⟨h.setTask hnone rfl, hkept⟩
  · cases hstep
    exact ⟨h.setTask hnone rfl, hkept⟩
  · cases hstep
    exact ⟨h.setTask hnone rfl, hkept⟩
  · split at hstep
    · cases hstep
      exact ⟨h, hkept⟩
    · cases hstep
      exact ⟨h, hkept⟩
  · obtain ⟨reading, -, rfl⟩ := Option.map_eq_some_iff.mp hstep
    exact ⟨h, hkept⟩
  · split at hstep
    · split at hstep
      · cases hstep
        exact ⟨h, hkept⟩
      · cases hstep
    · cases hstep
  · cases hstep

/-- The two lists of a run are the calls of its `replace` and of its `release` steps. -/
theorem calls_of_run {labels : List (Nat × Label)}
    (hrun : Run (Site.step codec manifest) (fun _ _ => True) s labels s') :
    ∀ {calls}, InCall calls s → s'.log = s.log ++ callsAt Label.replaces calls labels ∧
      s'.returned = s.returned ++ callsAt Label.returns calls labels := by
  induction hrun with
  | nil => exact fun _ => ⟨(List.append_nil _).symm, (List.append_nil _).symm⟩
  | cons _ hstep _ ih =>
    intro calls h
    obtain ⟨hcalls, hlog, hreturned⟩ := inCall_step h hstep
    obtain ⟨hlog', hreturned'⟩ := ih hcalls
    rw [hlog', hreturned', hlog, hreturned, List.append_assoc, List.append_assoc]
    exact ⟨rfl, rfl⟩

end

/-- Where no process runs, no call is open. -/
theorem Quiet.inCall {site : Site} (h : Quiet site) : InCall (fun _ => none) site := by
  intro process task htask
  rw [h.tasks process] at htask
  cases htask

/-- **No lost update.** Any number of processes, each with any number of calls, and readers without
a lock, in any interleaving: the calls that replaced the manifest, which are those of the `replace`
steps of the run, did so one after the other; the calls that returned, those of its `release` steps,
are among them and in this order; the manifest has for every resource the entry
of the last install of it and else the one it had, the list of the last update of the required
resources, and every other key as it was; and what a reader has read is the manifest between two
of the calls, which is the first one or a whole text of `json.dump`. -/
theorem manifest_updates (codec : Codec) (manifest : String) {init s : Site} (hquiet : Quiet init)
    {labels : List (Nat × Label)} (hrun : Run (Site.step codec manifest) (fun _ _ => True) init labels s) :
    (s.log = callsAt Label.replaces (fun _ => none) labels ∧
      s.returned = callsAt Label.returns (fun _ => none) labels) ∧
    s.published manifest = replay codec (init.published manifest) s.log ∧
      Committed codec (init.published manifest) s.log ∧ s.returned.Sublist s.log ∧
      Merged codec (init.published manifest) s.log ∧
      ∀ text ∈ s.seen, ∃ k ≤ s.log.length,
        text = replay codec (init.published manifest) (s.log.take k) ∧
          (text = init.published manifest ∨
            ∃ value bytes, text = some bytes ∧ codec.dumps value = some bytes) := by
  have h : Consistent codec manifest (init.published manifest) s :=
    hrun.invariant (fun _ _ _ hs _ hstep => consistent_step hs hstep) hquiet.consistent
  have hcalls := calls_of_run hrun hquiet.inCall
  rw [hquiet.log, hquiet.returned, List.nil_append, List.nil_append] at hcalls
  refine ⟨hcalls, h.published, h.committed, h.returned, merged_of_committed h.committed, fun text htext => ?_⟩
  obtain ⟨k, hk, rfl⟩ := h.seen text htext
  exact ⟨k, hk, rfl, whole_of_committed h.committed k⟩

/-- Environment and directories of a process. -/
def demoManager : Manager where
  disk := {
    host := { fs := .plain [], home := fun _ => [], cwd := [] }
    executable := fun _ => false
    dataHome := ⟨true, ["d"]⟩
    stateHome := ⟨true, ["s"]⟩ }
  toolsDir := "/t"
  manifestDir := "/m"

/-- The manifest that the first call of `_record_required_resources(("tool:a",))` makes. -/
def demoManifest : Dict :=
  [("schema_version", .int 3), ("resources_dir", .str "/m"), ("tools_dir", .str "/t"),
    ("pdks_dir", .str "/d/ecos-studio/pdks"), ("mpcs_dir", .str "/d/ecos-studio/mpcs"),
    ("required_resources", .arr [.str "tool:a"]), ("installed", .obj []), ("pdk_references", .arr [])]

def demoText : List UInt8 :=
  asciiBytes <| "\x7b\n  \"schema_version\": 3,\n  \"resources_dir\": \"/m\",\n  \"tools_dir\": \"/t\",\n" ++
    "  \"pdks_dir\": \"/d/ecos-studio/pdks\",\n  \"mpcs_dir\": \"/d/ecos-studio/mpcs\",\n" ++
    "  \"required_resources\": [\n    \"tool:a\"\n  ],\n  \"installed\": \x7b\x7d,\n" ++
    "  \"pdk_references\": []\n\x7d\n"

def demoCodec : Codec where
  loads bytes := if bytes = demoText then some (.obj demoManifest) else none
  dumps value := if value = demoManifest then some demoText else none
  loads_dumps value bytes h := by
    split at h
    · rename_i hvalue
      rw [← Option.some.inj h, if_pos rfl, hvalue]
    · cases h

/-- An empty directory. -/
def demoSite : Site where
  files := fun _ => none
  contents := fun _ => []
  fresh := 0
  holder := fun _ => none
  tasks := fun _ => none
  readers := fun _ => none
  log := []
  returned := []
  seen := []

set_option maxRecDepth 20000 in
/-- One call, with a reader before it and one that opens the new manifest before it returns. -/
theorem manifest_updates_required : ∃ s : Site,
    exec (Site.step demoCodec "manifest.json") demoSite [(1, .readerOpen),
      (0, .openLock ⟨demoManager, .required ["tool:a"]⟩), (0, .flock), (0, .openManifest), (0, .readManifest),
      (0, .createTemp "x"), (0, .write 7), (0, .write 1000), (0, .replace), (1, .readerOpen), (0, .release)] = some s ∧ Merged demoCodec none s.log := by
  have hrun : (exec (Site.step demoCodec "manifest.json") demoSite [(1, .readerOpen),
      (0, .openLock ⟨demoManager, .required ["tool:a"]⟩), (0, .flock), (0, .openManifest),
      (0, .readManifest), (0, .createTemp "x"), (0, .write 7), (0, .write 1000), (0, .replace),
      (1, .readerOpen), (0, .release)]).isSome = true := by
    decide +kernel
  obtain ⟨s, hs⟩ := Option.isSome_iff_exists.mp hrun
  have hquiet : Quiet demoSite := ⟨nofun, fun _ => rfl, fun _ => rfl, rfl, rfl, rfl⟩
  exact ⟨s, hs, (manifest_updates demoCodec "manifest.json" hquiet (run_of_exec hs)).2.2.2.2.1⟩

end EccFe.Cli.Manifest
