/-
EccFe.Analysis.TripletFiles — `_write_qor_triplet_atomic` with its temporary files.

`EccFe.Analysis.Triplet` is the write as its callers see it. Here every path is part of the
state, so that "no temporary file is left" can be said: after a failure all paths are as they
were, after a return all but the destinations.

An operation raises where the plan says so. Nothing is assumed of `mkstemp` but what it
promises: it creates the file it names, and the name is no destination's.
-/
import EccFe.Python.Path
import Mathlib.Logic.Function.Basic
import Mathlib.Data.List.Nodup

namespace EccFe.Analysis.TripletFiles

open Python Function

/-- The bytes of each file, by path. -/
abbrev Files := AbsPath → Option (List UInt8)

/-- `tempfile.mkstemp(dir=destination.parent, prefix=..., suffix=suffix)`; `none` when it raises. -/
structure TempFiles (destinations : List AbsPath) where
  mkstemp : Files → AbsPath → String → Option AbsPath
  /-- `O_EXCL`. -/
  absent : ∀ {files destination suffix temporary},
    mkstemp files destination suffix = some temporary → files temporary = none
  apart : ∀ {files destination suffix temporary},
    mkstemp files destination suffix = some temporary → temporary ∉ destinations

/-- Where the staging of one file raises. -/
inductive StageFault where
  /-- `is_file` or `read_bytes` of the destination. -/
  | read
  | mkdir
  | fdopen
  /-- `json.dump`, `flush`, `fsync` or `close`, and what the file holds then. -/
  | write (written : List UInt8)

/-- Where the call raises, and which roll-back writes raise `OSError`. -/
structure Plan where
  stage : AbsPath → Option StageFault
  replace : AbsPath → Bool
  restore : AbsPath → Bool

variable {π : Type} {destinations : List AbsPath} (temps : TempFiles destinations)
  (serialize : π → Except (List UInt8) (List UInt8)) (plan : Plan)

def unlink (path : AbsPath) (files : Files) : Files := update files path none

def replace (source destination : AbsPath) (files : Files) : Files :=
  update (update files destination (files source)) source none

/-- `_stage_json(destination, payload)`; `serialize` is `json.dump(..., indent=2,
ensure_ascii=False)` in UTF-8, or what it has written when it raises. -/
def stageJson (destination : AbsPath) (payload : π) (files : Files) : Option AbsPath × Files :=
  match plan.stage destination with
  | some .mkdir => (none, files)
  | fault =>
      match temps.mkstemp files destination ".tmp" with
      | none => (none, files)
      | some temporary =>
          let created := update files temporary (some [])
          match fault, serialize payload with
          | some .fdopen, _ => (none, unlink temporary created)
          | some (.write written), _ | _, .error written =>
              (none, unlink temporary (update created temporary (some written)))
          | _, .ok content => (some temporary, update created temporary (some content))

/-- A staged file and its destination. -/
abbrev Staged := AbsPath × AbsPath

/-- The first loop. The originals are read before the file is staged. -/
def stageAll : List (AbsPath × π) → List Staged → List (AbsPath × Option (List UInt8)) → Files →
    Bool × List Staged × List (AbsPath × Option (List UInt8)) × Files
  | [], staged, originals, files => (true, staged, originals, files)
  | (destination, payload) :: entries, staged, originals, files =>
      match plan.stage destination with
      | some .read => (false, staged, originals, files)
      | _ =>
          let originals := (destination, files destination) :: originals
          match stageJson temps serialize plan destination payload files with
          | (none, files) => (false, staged, originals, files)
          | (some temporary, files) =>
              stageAll entries (staged ++ [(destination, temporary)]) originals files

/-- The second loop; the published destinations are last first. -/
def publishAll : List Staged → List AbsPath → Files → Bool × List AbsPath × Files
  | [], published, files => (true, published, files)
  | (destination, temporary) :: staged, published, files =>
      if plan.replace destination then (false, published, files)
      else publishAll staged (destination :: published) (replace temporary destination files)

/-- `_restore_bytes(destination, content)`; `false` when it raises. -/
def restoreBytes (destination : AbsPath) (content : List UInt8) (files : Files) : Bool × Files :=
  match temps.mkstemp files destination ".rollback" with
  | none => (false, files)
  | some temporary =>
      let staged := update files temporary (some content)
      if plan.restore destination then (false, unlink temporary staged)
      else (true, unlink temporary (replace temporary destination staged))

/-- The roll-back over `reversed(published)`; `true` when it has collected no error. -/
def rollback (originals : List (AbsPath × Option (List UInt8))) :
    List AbsPath → Files → Bool × Files
  | [], files => (true, files)
  | destination :: published, files =>
      let (done, files) :=
        match originals.lookup destination with
        | some (some content) => restoreBytes temps plan destination content files
        | _ => if plan.restore destination then (false, files) else (true, unlink destination files)
      let (rest, files) := rollback originals published files
      (done && rest, files)

/-- The clean-up of `finally`. -/
def cleanup (staged : List Staged) (files : Files) : Files :=
  staged.foldl (fun files item => unlink item.2 files) files

/-- What `_write_qor_triplet_atomic` raises, if it does. -/
def message (rollbackDone : Bool) : String :=
  "failed to persist QoR artifact triplet" ++ if rollbackDone then "" else "; rollback also failed"

/-- `_write_qor_triplet_atomic(entries)`: the message of its `OSError`, and the files after it. -/
def writeQorTripletAtomic (entries : List (AbsPath × π)) (files : Files) : Option String × Files :=
  let (stagedAll, staged, originals, files) := stageAll temps serialize plan entries [] [] files
  let (publishedAll, published, files) :=
    if stagedAll then publishAll plan staged [] files else (false, [], files)
  if publishedAll then (none, cleanup staged files)
  else
    let (done, files) := rollback temps plan originals published files
    (some (message done), cleanup staged files)

/-! ## 1. One step of each loop -/

variable {temps serialize plan}

/-- A published file is moved. -/
theorem replace_apply (source destination : AbsPath) (files : Files) (path : AbsPath) : replace source destination files path =
      if path = source then none else if path = destination then files source else files path := by
  rw [replace, update_apply, update_apply]

/-- The staged file of an entry holds its payload. -/
def Holds (serialize : π → Except (List UInt8) (List UInt8)) (files : Files)
    (entry : AbsPath × π) (item : Staged) : Prop :=
  item.1 = entry.1 ∧ ∃ content, serialize entry.2 = .ok content ∧ files item.2 = some content

theorem exists_holds {files : Files} {item : Staged} : ∀ {entries : List (AbsPath × π)}
    {staged : List Staged}, List.Forall₂ (Holds serialize files) entries staged → item ∈ staged →
      ∃ entry ∈ entries, Holds serialize files entry item
  | _, _, .cons (a := entry) hholds hrest, hitem => by
      rcases List.mem_cons.mp hitem with rfl | hitem
      · exact ⟨entry, List.mem_cons_self, hholds⟩
      · obtain ⟨entry', hmem, hholds'⟩ := exists_holds hrest hitem
        exact ⟨entry', List.mem_cons_of_mem _ hmem, hholds'⟩

theorem forall₂_of_mem_right {α β : Type} {r r' : α → β → Prop} : ∀ {as : List α} {bs : List β},
    List.Forall₂ r as bs → (∀ a, ∀ b ∈ bs, r a b → r' a b) → List.Forall₂ r' as bs
  | _, _, .nil, _ => .nil
  | _, _, .cons hhead htail, h => .cons (h _ _ List.mem_cons_self hhead)
      (forall₂_of_mem_right htail fun a b hb => h a b (List.mem_cons_of_mem _ hb))

/-- The state between two rounds of the first loop. -/
structure Staging (destinations : List AbsPath) (serialize : π → Except (List UInt8) (List UInt8))
    (original : Files) (done : List (AbsPath × π)) (staged : List Staged)
    (originals : List (AbsPath × Option (List UInt8))) (files : Files) : Prop where
  fresh : ∀ item ∈ staged, original item.2 = none ∧ item.2 ∉ destinations
  nodup : (staged.map Prod.snd).Nodup
  others : ∀ path, path ∉ staged.map Prod.snd → files path = original path
  held : List.Forall₂ (Holds serialize files) done staged
  remembered : ∀ destination content, originals.lookup destination = some content →
    content = original destination
  known : ∀ item ∈ staged, (originals.lookup item.1).isSome

namespace Staging

variable {original files : Files} {done : List (AbsPath × π)} {staged : List Staged}
  {originals : List (AbsPath × Option (List UInt8))}

theorem apart (h : Staging destinations serialize original done staged originals files)
    {destination : AbsPath} (hmem : destination ∈ destinations) :
    destination ∉ staged.map Prod.snd := by
  intro hstaged
  obtain ⟨item, hitem, rfl⟩ := List.mem_map.mp hstaged
  exact (h.fresh item hitem).2 hmem

/-- A staged file stays there. -/
theorem held_isSome (h : Staging destinations serialize original done staged originals files)
    {item : Staged} (hitem : item ∈ staged) : (files item.2).isSome := by
  obtain ⟨entry, -, -, content, -, hcontent⟩ := exists_holds h.held hitem
  rw [hcontent]
  rfl

/-- An entry is staged. -/
theorem stage (h : Staging destinations serialize original done staged originals files)
    {destination temporary : AbsPath} {payload : π} {content : List UInt8}
    (habsent : files temporary = none) (hapart : temporary ∉ destinations)
    (hserialize : serialize payload = .ok content) (hknown : (originals.lookup destination).isSome) :
    Staging destinations serialize original (done ++ [(destination, payload)])
      (staged ++ [(destination, temporary)]) originals
      (update files temporary (some content)) := by
  have hnew : temporary ∉ staged.map Prod.snd := by
    intro hmem
    obtain ⟨item, hitem, rfl⟩ := List.mem_map.mp hmem
    have hsome := h.held_isSome hitem
    rw [habsent] at hsome
    cases hsome
  constructor
  case fresh =>
    intro item hitem
    rcases List.mem_append.mp hitem with hitem | hitem
    · exact h.fresh item hitem
    · rw [List.mem_singleton.mp hitem]
      exact ⟨(h.others temporary hnew).symm.trans habsent, hapart⟩
  case nodup =>
    rw [List.map_append, List.map_singleton]
    refine List.nodup_append.mpr ⟨h.nodup, List.nodup_singleton _, ?_⟩
    rintro a ha b hb rfl
    rw [List.mem_singleton.mp hb] at ha
    exact hnew ha
  case others =>
    intro path hpath
    rw [List.map_append, List.map_singleton, List.mem_append, List.mem_singleton, not_or] at hpath
    rw [update_of_ne hpath.2]
    exact h.others path hpath.1
  case held =>
    refine List.rel_append (h.held.imp fun entry item hholds => ?_)
      (.cons ⟨rfl, content, hserialize, update_self ..⟩ .nil)
    obtain ⟨hdest, bytes, hbytes, hfile⟩ := hholds
    refine ⟨hdest, bytes, hbytes, ?_⟩
    rw [update_of_ne, hfile]
    rintro rfl
    rw [habsent] at hfile
    cases hfile
  case remembered => exact h.remembered
  case known =>
    intro item hitem
    rcases List.mem_append.mp hitem with hitem | hitem
    · exact h.known item hitem
    · rw [List.mem_singleton.mp hitem]
      exact hknown

end Staging

/-- The state between two rounds of the second loop. -/
structure Publishing (destinations : List AbsPath)
    (serialize : π → Except (List UInt8) (List UInt8)) (original : Files)
    (done rest : List (AbsPath × π)) (pending : List Staged) (files : Files) : Prop where
  fresh : ∀ item ∈ pending, original item.2 = none ∧ item.2 ∉ destinations
  nodup : (pending.map Prod.snd).Nodup
  held : List.Forall₂ (Holds serialize files) rest pending
  stored : ∀ entry ∈ done, ∃ content, serialize entry.2 = .ok content ∧
    files entry.1 = some content
  others : ∀ path, path ∉ done.map Prod.fst → path ∉ pending.map Prod.snd →
    files path = original path

/-- One file is published. -/
theorem Publishing.publish {original files : Files} {done rest : List (AbsPath × π)}
    {entry : AbsPath × π} {pending : List Staged} {item : Staged}
    (h : Publishing destinations serialize original done (entry :: rest) (item :: pending) files)
    (hmem : ∀ entry' ∈ done ++ entry :: rest, entry'.1 ∈ destinations)
    (hnodup : ((done ++ entry :: rest).map Prod.fst).Nodup) :
    Publishing destinations serialize original (done ++ [entry]) rest pending
      (replace item.2 item.1 files) := by
  obtain ⟨⟨hdest, content, hserialize, hcontent⟩, hheld⟩ := List.forall₂_cons.mp h.held
  have hitem := h.fresh item List.mem_cons_self
  have hpending : ∀ {other : Staged}, other ∈ pending → other.2 ∉ destinations :=
    fun hother => (h.fresh _ (List.mem_cons_of_mem _ hother)).2
  have hentry : entry.1 ∈ destinations :=
    hmem entry (List.mem_append_right _ List.mem_cons_self)
  have hne : ∀ {path : AbsPath}, path ∈ destinations → path ≠ item.2 := by
    rintro path hpath rfl
    exact hitem.2 hpath
  constructor
  case fresh => exact fun other hother => h.fresh other (List.mem_cons_of_mem _ hother)
  case nodup => exact (List.nodup_cons.mp h.nodup).2
  case held =>
    refine forall₂_of_mem_right hheld fun entry' other hother hholds => ?_
    obtain ⟨hdest', bytes, hbytes, hfile⟩ := hholds
    refine ⟨hdest', bytes, hbytes, ?_⟩
    have htemp : other.2 ≠ item.2 := by
      intro heq
      exact (List.nodup_cons.mp h.nodup).1 (heq ▸ List.mem_map_of_mem hother)
    have hother' : other.2 ≠ item.1 := by
      rintro heq
      rw [hdest] at heq
      exact hpending hother (heq ▸ hentry)
    rw [replace_apply, if_neg htemp, if_neg hother', hfile]
  case stored =>
    intro entry' hentry'
    rcases List.mem_append.mp hentry' with hdone | hlast
    · obtain ⟨bytes, hbytes, hfile⟩ := h.stored entry' hdone
      refine ⟨bytes, hbytes, ?_⟩
      have hfirst : entry'.1 ≠ item.1 := by
        rw [hdest]
        rw [List.map_append, List.map_cons] at hnodup
        exact fun heq => (List.nodup_append.mp hnodup).2.2 _ (List.mem_map_of_mem hdone) _
          List.mem_cons_self heq
      rw [replace_apply, if_neg (hne (hmem entry' (List.mem_append_left _ hdone))), if_neg hfirst,
        hfile]
    · rw [List.mem_singleton.mp hlast]
      exact ⟨content, hserialize, by rw [replace_apply, if_neg (hne hentry), if_pos hdest.symm,
        hcontent]⟩
  case others =>
    intro path hdone hpath
    rw [List.map_append, List.mem_append, List.map_singleton, List.mem_singleton, not_or] at hdone
    rw [replace_apply]
    by_cases htemp : path = item.2
    · rw [if_pos htemp, htemp, hitem.1]
    · rw [if_neg htemp, if_neg (by rw [hdest]; exact hdone.2)]
      refine h.others path hdone.1 ?_
      rw [List.map_cons, List.mem_cons, not_or]
      exact ⟨htemp, hpath⟩

/-- `mkstemp` can give the name to a staged file. -/
def IsStaged (temps : TempFiles destinations) (path : AbsPath) : Prop :=
  ∃ files, ∃ destination ∈ destinations, temps.mkstemp files destination ".tmp" = some path

/-- The call has changed destinations and staged files only. -/
def Touched (temps : TempFiles destinations) (original files : Files) : Prop :=
  ∀ path, files path = original path ∨ path ∈ destinations ∨ IsStaged temps path

section

variable {original files : Files}

theorem Touched.update (h : Touched temps original files) {path : AbsPath}
    (hpath : path ∈ destinations ∨ IsStaged temps path) (content : Option (List UInt8)) :
    Touched temps original (update files path content) := by
  intro other
  by_cases hother : other = path
  · rw [hother]
    exact .inr hpath
  · rw [update_of_ne hother]
    exact h other

end

/-! ## 6. All or nothing -/

end EccFe.Analysis.TripletFiles
