/-
EccFe.Cli.Archive — `_extract_archive` of `fecompiler/cli/resource_manager.py`, on a tree with
symbolic links.

Every member is written where its name leads, through the links that earlier members made. The
check before it is lexical: no name and no link target may be absolute or have a `..`. So a link
only ever leads further down from where it stands, and the walk from the destination never
leaves it (`walk_inside`); that is the invariant of both extraction loops.

`tarfile` writes members as its documentation says: missing parents are created, a file is
written through a link at its place, a symbolic link replaces what is there, and a link that
cannot be made is replaced by a copy of the member that it names.
-/
import EccFe.Python.TextFile
import Mathlib.Logic.Function.Basic

namespace EccFe.Cli.Archive

open Python Function

/-! ## 1. Trees with links -/

inductive Entry where
  | file
  | directory
  | link (target : PurePath)
  deriving DecidableEq

abbrev Tree := AbsPath → Option Entry

/-- Where `parts` lead from `place`, every link followed; `none` when the system gives up. -/
def walk (tree : Tree) : Nat → AbsPath → List String → Option AbsPath
  | _, place, [] => some place
  | 0, _, _ :: _ => none
  | fuel + 1, place, part :: rest =>
      if part = ".." then walk tree fuel place.dropLast rest
      else
        match tree (place ++ [part]) with
        | some (.link target) =>
            walk tree fuel (if target.absolute then [] else place) (target.parts ++ rest)
        | _ => walk tree fuel (place ++ [part]) rest

/-- Is a directory there, links followed? -/
def isDirAt (tree : Tree) (fuel : Nat) (place : AbsPath) (parts : List String) : Bool :=
  match walk tree fuel place parts with
  | some target => tree target == some .directory
  | none => false

/-- `os.makedirs`: the tree, and the directory the parts lead to. -/
def makeDirs (fuel : Nat) : Tree → AbsPath → List String → Option (Tree × AbsPath)
  | tree, place, [] => some (tree, place)
  | tree, place, part :: rest =>
      match tree (place ++ [part]) with
      | none =>
          makeDirs fuel (update tree (place ++ [part]) (some .directory)) (place ++ [part]) rest
      | some .directory => makeDirs fuel tree (place ++ [part]) rest
      | some .file => none
      | some (.link _) =>
          match walk tree fuel place [part] with
          | none => none
          | some target =>
              if tree target = some .directory then makeDirs fuel tree target rest else none

/-- `open(path, "wb")` for a name in the directory `parent`. -/
def writeFile (fuel : Nat) (tree : Tree) (parent : AbsPath) (name : String) : Option Tree :=
  match walk tree fuel parent [name] with
  | none => none
  | some target =>
      if tree target = some .directory ∨ tree target.dropLast ≠ some .directory then none
      else some (update tree target (some .file))

/-! ## 2. The checks -/

/-- `_safe_relative_path(value)`; `none` when it raises. -/
def safeRelativePath (value : String) : Option PurePath :=
  let path := PurePath.ofText value
  if path.absolute ∨ ".." ∈ path.parts then none else some path

structure ZipMember where
  filename : String
  /-- `external_attr >> 16`. -/
  mode : Nat

def ZipMember.isDir (member : ZipMember) : Bool := endsWith member.filename.toList "/"

/-- `stat.S_ISLNK(mode)`. -/
def ZipMember.isLink (member : ZipMember) : Bool := member.mode &&& 0o170000 == 0o120000

inductive TarKind where
  | file
  | directory
  | symlink
  | hardlink
  | special
  deriving DecidableEq

structure TarMember where
  name : String
  kind : TarKind
  linkname : String

inductive Bundle where
  | zip (members : List ZipMember)
  | tar (members : List TarMember)

/-- The body of the loop that checks a tar member before anything is written. -/
def checkTarMember (member : TarMember) : Bool :=
  match safeRelativePath member.name with
  | none => false
  | some relative =>
      match member.kind with
      | .file | .directory => true
      | .symlink | .hardlink =>
          let linkParent : PurePath := { relative with parts := relative.parts.dropLast }
          let linkTarget := linkParent.join (.ofText member.linkname)
          (safeRelativePath linkTarget.text).isSome
      | .special => false

/-! ## 3. Extraction -/

section

variable (fuel : Nat) (destination : AbsPath)

def extractZipMember (tree : Tree) (member : ZipMember) : Option Tree :=
  match safeRelativePath member.filename with
  | none => none
  | some relative =>
      if member.isDir then (makeDirs fuel tree destination relative.parts).map Prod.fst
      else if member.isLink then none
      else
        match relative.parts.getLast? with
        | none => none
        | some name =>
            match makeDirs fuel tree destination relative.parts.dropLast with
            | none => none
            | some (tree, parent) => writeFile fuel tree parent name

def tarParts (name : String) : List String := (PurePath.ofText name).parts

/-- `_find_link_target(member)`: a symbolic link is looked up in the whole archive, a hard link
among the members before it; the last one of the name is taken. -/
def findLinkTarget (all before : List TarMember) (member : TarMember) : Option TarMember :=
  match member.kind with
  | .symlink =>
      let parts := (tarParts member.name).dropLast ++ tarParts member.linkname
      all.reverse.find? fun other => tarParts other.name = parts
  | _ => before.reverse.find? fun other => tarParts other.name = tarParts member.linkname

/-- What a member puts at a name of the directory `parent`; `none` when the link cannot be made. -/
inductive Made where
  | done (tree : Tree)
  | raised
  /-- `makelink` falls back on a copy; `unlinked` when an `OSError` brought it there. -/
  | fallback (tree : Tree) (osError : Bool)

/-- `_extract_member` below the upper directories. `known` says that `extractall` has set
`_link_target`. -/
def makeMember (known : Bool) (tree : Tree) (parent : AbsPath) (name : String)
    (member : TarMember) : Made :=
  let place := parent ++ [name]
  match member.kind with
  | .file =>
      match writeFile fuel tree parent name with
      | some tree => .done tree
      | none => .raised
  | .directory =>
      match tree place with
      | none => .done (update tree place (some .directory))
      | some _ => if isDirAt tree fuel parent [name] then .done tree else .raised
  | .symlink =>
      if tree place = some .directory then .fallback tree true
      else if member.linkname = "" then .fallback (update tree place none) true
      else .done (update tree place (some (.link (.ofText member.linkname))))
  | .hardlink =>
      let target := tarParts member.linkname
      if !known then .fallback tree true
      else if (walk tree fuel destination target).bind tree = none then .fallback tree false
      else
        -- `os.link` does not follow a link at the last name
        match walk tree fuel destination target.dropLast, target.getLast? with
        | some directory, some last =>
            match tree (directory ++ [last]), tree place with
            | some .directory, _ | none, _ | _, some _ => .fallback tree true
            | some entry, none => .done (update tree place (some entry))
        | _, _ => .fallback tree true
  | .special => .raised

/-- `_extract_member(member, targetpath)`. An `ExtractError` is not fatal: the member is left
out. -/
def extractTarMember (all before : List TarMember) :
    Nat → Bool → Tree → TarMember → List String → Option Tree
  | 0, _, _, _, _ => none
  | depth + 1, known, tree, member, target =>
      let copy (tree : Tree) (osError : Bool) : Option Tree :=
        match findLinkTarget all before member with
        | none => if osError then some tree else none
        | some found => extractTarMember all before depth false tree found target
      match target.getLast? with
      | none =>
          -- the destination itself
          match member.kind with
          | .directory => some tree
          | .file | .special => none
          | .symlink | .hardlink => copy tree true
      | some name =>
          match makeDirs fuel tree destination target.dropLast with
          | none => none
          | some (tree, parent) =>
              match makeMember fuel destination known tree parent name member with
              | .done tree => some tree
              | .raised => none
              | .fallback tree osError => copy tree osError

def extractAll (depth : Nat) (all : List TarMember) : List TarMember → List TarMember → Tree →
    Option Tree
  | _, [], tree => some tree
  | before, member :: rest, tree =>
      match extractTarMember fuel destination all before depth true tree member
          (tarParts member.name) with
      | none => none
      | some tree => extractAll depth all (before ++ [member]) rest tree

/-- `_extract_archive(archive, destination)`; `none` when it raises. -/
def extractArchive (depth : Nat) (archive : Bundle) (tree : Tree) : Option Tree :=
  match archive with
  | .zip members => members.foldlM (extractZipMember fuel destination) tree
  | .tar members =>
      if members.all checkTarMember then extractAll fuel destination depth members [] members tree
      else none

end

/-! ## 4. Inside the destination -/

/-- A path that only leads further down. -/
structure Down (path : PurePath) : Prop where
  relative : path.absolute = false
  noUp : ".." ∉ path.parts

/-- Outside the destination nothing has changed, and every link inside leads down. -/
structure Contained (destination : AbsPath) (original tree : Tree) : Prop where
  root : tree destination = some .directory
  outside : ∀ place, ¬destination <+: place → tree place = original place
  down : ∀ place target, destination <+: place → tree place = some (.link target) → Down target

theorem walk_inside {destination : AbsPath} {original tree : Tree}
    (h : Contained destination original tree) : ∀ (fuel : Nat) (place : AbsPath)
    (parts : List String) {target : AbsPath}, destination <+: place → ".." ∉ parts →
      walk tree fuel place parts = some target → destination <+: target
  | fuel, place, [], target, hplace, _, hwalk => by
      rw [walk] at hwalk
      exact Option.some.inj hwalk ▸ hplace
  | 0, place, part :: rest, target, _, _, hwalk => by
      rw [walk] at hwalk
      cases hwalk
  | fuel + 1, place, part :: rest, target, hplace, hparts, hwalk => by
      have hpart : part ≠ ".." := fun heq => hparts (heq ▸ List.mem_cons_self)
      have hrest : ".." ∉ rest := fun hmem => hparts (List.mem_cons_of_mem part hmem)
      have hnext : destination <+: place ++ [part] := hplace.trans (List.prefix_append _ _)
      rw [walk, if_neg hpart] at hwalk
      split at hwalk
      · rename_i link hlink
        have hdown := h.down _ link hnext hlink
        rw [hdown.relative, if_neg Bool.false_ne_true] at hwalk
        refine walk_inside h fuel place _ hplace ?_ hwalk
        rw [List.mem_append, not_or]
        exact ⟨hdown.noUp, hrest⟩
      · exact walk_inside h fuel _ rest hnext hrest hwalk

theorem append_ne_destination {destination place : AbsPath} (h : destination <+: place) (name : String) :
    place ++ [name] ≠ destination := by
  intro heq
  have hle := h.length_le
  rw [← heq, List.length_append, List.length_singleton] at hle
  omega

/-- An entry inside the destination is put or removed. -/
theorem Contained.put {destination : AbsPath} {original tree : Tree}
    (h : Contained destination original tree) {place : AbsPath} (hplace : destination <+: place)
    (hne : place ≠ destination) {entry : Option Entry} (hdown : ∀ target, entry = some (.link target) → Down target) :
    Contained destination original (update tree place entry) where
  root := by rw [update_of_ne hne.symm, h.root]
  outside other hother := by
    have hne : other ≠ place := by
      rintro rfl
      exact hother hplace
    rw [update_of_ne hne]
    exact h.outside other hother
  down other target hother hlink := by
    by_cases heq : other = place
    · subst heq
      rw [update_self] at hlink
      exact hdown target hlink
    · rw [update_of_ne heq] at hlink
      exact h.down other target hother hlink

/-! ## 5. Each operation stays inside -/

section

variable {fuel : Nat} {destination : AbsPath} {original : Tree}

theorem makeDirs_inside : ∀ (parts : List String) {tree tree' : Tree} {place target : AbsPath},
    Contained destination original tree → destination <+: place → ".." ∉ parts →
      makeDirs fuel tree place parts = some (tree', target) →
        Contained destination original tree' ∧ destination <+: target
  | [], tree, tree', place, target, h, hplace, _, hmake => by
      rw [makeDirs] at hmake
      cases hmake
      exact ⟨h, hplace⟩
  | part :: rest, tree, tree', place, target, h, hplace, hparts, hmake => by
      have hpart : ".." ∉ [part] := fun hmem =>
        hparts (List.mem_cons.mpr (.inl (List.mem_singleton.mp hmem)))
      have hrest : ".." ∉ rest := fun hmem => hparts (List.mem_cons_of_mem part hmem)
      have hnext : destination <+: place ++ [part] := hplace.trans (List.prefix_append _ _)
      rw [makeDirs] at hmake
      split at hmake
      · exact makeDirs_inside rest (h.put hnext (append_ne_destination hplace part) (by simp)) hnext hrest hmake
      · exact makeDirs_inside rest h hnext hrest hmake
      · cases hmake
      · split at hmake
        · cases hmake
        · rename_i linked hwalk
          split at hmake
          · exact makeDirs_inside rest h (walk_inside h fuel place _ hplace hpart hwalk) hrest hmake
          · cases hmake

theorem writeFile_inside {tree tree' : Tree} {parent : AbsPath} {name : String}
    (h : Contained destination original tree) (hparent : destination <+: parent)
    (hname : name ≠ "..") (hwrite : writeFile fuel tree parent name = some tree') :
    Contained destination original tree' := by
  have hparts : ".." ∉ [name] := fun hmem => hname (List.mem_singleton.mp hmem).symm
  rw [writeFile] at hwrite
  split at hwrite
  · cases hwrite
  · rename_i target hwalk
    split at hwrite
    · cases hwrite
    · rename_i hfree
      cases hwrite
      refine h.put (walk_inside h fuel parent _ hparent hparts hwalk) (fun heq => ?_) nofun
      exact hfree (.inl (heq ▸ h.root))

/-- A checked name, and the last part of it. -/
theorem safeRelativePath_eq_some {value : String} {path : PurePath}
    (h : safeRelativePath value = some path) : path = PurePath.ofText value ∧ Down path := by
  unfold safeRelativePath at h
  dsimp only at h
  split at h
  · cases h
  · rename_i hsafe
    cases h
    rw [not_or, Bool.not_eq_true] at hsafe
    exact ⟨rfl, hsafe.1, hsafe.2⟩

theorem not_mem_dropLast {parts : List String} (h : ".." ∉ parts) : ".." ∉ parts.dropLast :=
  fun hmem => h (List.dropLast_subset parts hmem)

theorem ne_of_getLast {parts : List String} {name : String} (h : ".." ∉ parts)
    (hname : parts.getLast? = some name) : name ≠ ".." := by
  rintro rfl
  exact h (List.mem_of_getLast? hname)

theorem extractZipMember_inside {tree tree' : Tree} {member : ZipMember}
    (h : Contained destination original tree)
    (hextract : extractZipMember fuel destination tree member = some tree') :
    Contained destination original tree' := by
  rw [extractZipMember] at hextract
  split at hextract
  · cases hextract
  rename_i relative hsafe
  obtain ⟨-, hdown⟩ := safeRelativePath_eq_some hsafe
  split at hextract
  · obtain ⟨⟨made, place⟩, hmake, rfl⟩ := Option.map_eq_some_iff.mp hextract
    exact (makeDirs_inside _ h (List.prefix_refl _) hdown.noUp hmake).1
  split at hextract
  · cases hextract
  split at hextract
  · cases hextract
  rename_i name hname
  split at hextract
  · cases hextract
  rename_i made parent hmake
  obtain ⟨hmade, hparent⟩ :=
    makeDirs_inside _ h (List.prefix_refl _) (not_mem_dropLast hdown.noUp) hmake
  exact writeFile_inside hmade hparent (ne_of_getLast hdown.noUp hname) hextract

/-- A member whose name and link target lead down. -/
structure SafeMember (member : TarMember) : Prop where
  name : Down (.ofText member.name)
  link : member.kind = .symlink ∨ member.kind = .hardlink → Down (.ofText member.linkname)
  kind : member.kind ≠ .special

theorem safeMember_of_check {member : TarMember} (h : checkTarMember member = true) :
    SafeMember member := by
  unfold checkTarMember at h
  split at h
  · cases h
  rename_i relative hsafe
  obtain ⟨rfl, hdown⟩ := safeRelativePath_eq_some hsafe
  have hlink : ∀ {linkname : String},
      (safeRelativePath (PurePath.text (PurePath.join
        { PurePath.ofText member.name with parts := (PurePath.ofText member.name).parts.dropLast }
        (.ofText linkname)))).isSome = true → Down (.ofText linkname) := by
    intro linkname hsome
    obtain ⟨path, hpath⟩ := Option.isSome_iff_exists.mp hsome
    obtain ⟨rfl, hjoined⟩ := safeRelativePath_eq_some hpath
    have hnames : ∀ part ∈ (PurePath.join
        { PurePath.ofText member.name with parts := (PurePath.ofText member.name).parts.dropLast }
        (.ofText linkname)).parts, IsName part := by
      intro part hpart
      rw [PurePath.join] at hpart
      split at hpart
      · exact isName_of_mem_parts hpart
      · rcases List.mem_append.mp hpart with hpart | hpart
        · exact isName_of_mem_parts (List.dropLast_subset _ hpart)
        · exact isName_of_mem_parts hpart
    rw [ofText_text hnames] at hjoined
    obtain ⟨hrelative, hup⟩ := hjoined
    rw [PurePath.join] at hrelative hup
    split at hrelative
    · rename_i habsolute
      rw [habsolute] at hrelative
      cases hrelative
    · rename_i habsolute
      rw [if_neg habsolute] at hup
      exact ⟨by simpa using habsolute, fun hmem => hup (List.mem_append_right _ hmem)⟩
  split at h
  case h_1 hkind => exact ⟨hdown, by simp [hkind], by simp [hkind]⟩
  case h_2 hkind => exact ⟨hdown, by simp [hkind], by simp [hkind]⟩
  case h_3 hkind => exact ⟨hdown, fun _ => hlink h, by simp [hkind]⟩
  case h_4 hkind => exact ⟨hdown, fun _ => hlink h, by simp [hkind]⟩
  case h_5 => cases h

/-- The tree that an attempt leaves. -/
def Made.tree? : Made → Option Tree
  | .done tree | .fallback tree _ => some tree
  | .raised => none

theorem makeMember_inside {known : Bool} {tree tree' : Tree} {parent : AbsPath} {name : String}
    {member : TarMember} (h : Contained destination original tree)
    (hparent : destination <+: parent) (hname : name ≠ "..") (hsafe : SafeMember member)
    (hmade : (makeMember fuel destination known tree parent name member).tree? = some tree') :
    Contained destination original tree' := by
  have hplace : destination <+: parent ++ [name] := hparent.trans (List.prefix_append _ _)
  have hne : parent ++ [name] ≠ destination := append_ne_destination hparent name
  unfold makeMember at hmade
  dsimp only at hmade
  split at hmade
  case h_1 =>
    split at hmade
    · rename_i written hwrite
      cases hmade
      exact writeFile_inside h hparent hname hwrite
    · cases hmade
  case h_2 =>
    split at hmade
    · cases hmade
      exact h.put hplace hne nofun
    · split at hmade <;> cases hmade
      exact h
  case h_3 hkind =>
    split at hmade
    · cases hmade
      exact h
    split at hmade <;> cases hmade
    · exact h.put hplace hne nofun
    · refine h.put hplace hne fun target heq => ?_
      cases heq
      exact hsafe.link (.inl hkind)
  case h_4 hkind =>
    have hdown := hsafe.link (.inr hkind)
    split at hmade
    · cases hmade
      exact h
    split at hmade
    · cases hmade
      exact h
    split at hmade
    · rename_i directory last hwalk hlast
      split at hmade
      case h_4 entry _ hentry _ =>
        cases hmade
        refine h.put hplace hne fun target heq => ?_
        have hdirectory : destination <+: directory :=
          walk_inside h fuel _ _ (List.prefix_refl _) (not_mem_dropLast hdown.noUp) hwalk
        exact h.down _ target (hdirectory.trans (List.prefix_append _ _)) (hentry.trans heq)
      all_goals
        cases hmade
        exact h
    · cases hmade
      exact h
  case h_5 => cases hmade

/-- A member is extracted inside, by itself or as a copy of one that is safe too. -/
theorem extractTarMember_inside {all before : List TarMember}
    (hall : ∀ member ∈ all, SafeMember member) (hbefore : before ⊆ all) :
    ∀ (depth : Nat) {known : Bool} {tree tree' : Tree} {member : TarMember} {target : List String},
      Contained destination original tree → SafeMember member → ".." ∉ target →
        extractTarMember fuel destination all before depth known tree member target = some tree' →
          Contained destination original tree'
  | 0, _, _, _, _, _, _, _, _, hextract => by
      rw [extractTarMember] at hextract
      cases hextract
  | depth + 1, known, tree, tree', member, target, h, hsafe, htarget, hextract => by
      -- the copy that a link falls back on
      have hcopy : ∀ {tree : Tree} {osError : Bool}, Contained destination original tree →
          (match findLinkTarget all before member with
            | none => if osError then some tree else none
            | some found => extractTarMember fuel destination all before depth false tree found
                target) = some tree' → Contained destination original tree' := by
        intro tree osError htree hmatch
        split at hmatch
        · split at hmatch <;> cases hmatch
          exact htree
        · rename_i found hfound
          have hmem : found ∈ all := by
            unfold findLinkTarget at hfound
            split at hfound
            · exact List.mem_reverse.mp (List.mem_of_find?_eq_some hfound)
            · exact hbefore (List.mem_reverse.mp (List.mem_of_find?_eq_some hfound))
          exact extractTarMember_inside hall hbefore depth htree (hall found hmem) htarget hmatch
      rw [extractTarMember] at hextract
      dsimp only at hextract
      split at hextract
      · split at hextract
        · cases hextract
          exact h
        · cases hextract
        · cases hextract
        · exact hcopy h hextract
        · exact hcopy h hextract
      rename_i name hname
      split at hextract
      · cases hextract
      rename_i made parent hmake
      obtain ⟨hmade, hparent⟩ :=
        makeDirs_inside _ h (List.prefix_refl _) (not_mem_dropLast htarget) hmake
      have hinside := @makeMember_inside fuel destination original known made
      split at hextract
      · rename_i done hdone
        cases hextract
        exact hinside hmade hparent (ne_of_getLast htarget hname) hsafe (by rw [hdone]; rfl)
      · cases hextract
      · rename_i left osError hleft
        exact hcopy (hinside hmade hparent (ne_of_getLast htarget hname) hsafe (by rw [hleft]; rfl))
          hextract

theorem extractAll_inside {depth : Nat} {all : List TarMember}
    (hall : ∀ member ∈ all, SafeMember member) : ∀ (rest before : List TarMember)
    {tree tree' : Tree}, before ++ rest = all → Contained destination original tree →
      extractAll fuel destination depth all before rest tree = some tree' →
        Contained destination original tree'
  | [], _, _, _, _, h, hextract => by
      rw [extractAll] at hextract
      cases hextract
      exact h
  | member :: rest, before, tree, tree', hsplit, h, hextract => by
      have hmember : SafeMember member :=
        hall member (hsplit ▸ List.mem_append_right _ List.mem_cons_self)
      have hbefore : before ⊆ all := hsplit ▸ List.subset_append_left _ _
      rw [extractAll] at hextract
      split at hextract
      · cases hextract
      · rename_i made hmade
        have hmade := extractTarMember_inside hall hbefore depth h hmember hmember.name.noUp hmade
        exact extractAll_inside hall rest (before ++ [member]) (by simpa using hsplit) hmade hextract

theorem foldlM_zip_inside : ∀ (members : List ZipMember) {tree tree' : Tree},
    Contained destination original tree →
      members.foldlM (extractZipMember fuel destination) tree = some tree' →
        Contained destination original tree'
  | [], _, _, h, hextract => by
      cases hextract
      exact h
  | member :: members, tree, tree', h, hextract => by
      rw [List.foldlM_cons] at hextract
      obtain ⟨made, hmade, hrest⟩ := Option.bind_eq_some_iff.mp hextract
      exact foldlM_zip_inside members (extractZipMember_inside h hmade) hrest

/-! ## 6. What an accepted archive leaves -/

/-- No member can lead out of a destination. -/
def Bundle.Safe : Bundle → Prop
  | .zip members => ∀ member ∈ members, Down (.ofText member.filename) ∧
      (member.isLink = true → member.isDir = true)
  | .tar members => ∀ member ∈ members, SafeMember member

theorem safe_zipMember {tree tree' : Tree} {member : ZipMember}
    (h : extractZipMember fuel destination tree member = some tree') :
    Down (.ofText member.filename) ∧ (member.isLink = true → member.isDir = true) := by
  rw [extractZipMember] at h
  split at h
  · cases h
  rename_i relative hsafe
  obtain ⟨rfl, hdown⟩ := safeRelativePath_eq_some hsafe
  refine ⟨hdown, fun hlink => ?_⟩
  by_contra hdir
  rw [if_neg hdir, if_pos hlink] at h
  cases h

theorem safe_of_foldlM_zip : ∀ (members : List ZipMember) {tree tree' : Tree},
    members.foldlM (extractZipMember fuel destination) tree = some tree' →
      (Bundle.zip members).Safe
  | [], _, _, _ => by simp [Bundle.Safe]
  | member :: members, tree, tree', hextract => by
      rw [List.foldlM_cons] at hextract
      obtain ⟨made, hmade, hrest⟩ := Option.bind_eq_some_iff.mp hextract
      exact List.forall_mem_cons.mpr ⟨safe_zipMember hmade, safe_of_foldlM_zip members hrest⟩

end

/-- An archive that is accepted, extracted into an empty directory: nothing outside has changed,
whatever is reached from the directory is inside it, every link points inside it, and every
member is one that cannot lead out. -/
theorem extractArchive_contained {fuel depth : Nat} {destination : AbsPath} {archive : Bundle}
    {tree tree' : Tree} (hempty : ∀ place, destination <+: place → place ≠ destination →
      tree place = none) (hdirectory : tree destination = some .directory)
    (h : extractArchive fuel destination depth archive tree = some tree') :
    (∀ place, ¬destination <+: place → tree' place = tree place) ∧
    (∀ limit parts target, ".." ∉ parts → walk tree' limit destination parts = some target →
      destination <+: target) ∧
    (∀ place link, destination <+: place → tree' place = some (.link link) →
      link.absolute = false ∧ ∀ limit target,
        walk tree' limit place.dropLast link.parts = some target → destination <+: target) ∧
    archive.Safe := by
  have hstart : Contained destination tree tree := by
    refine ⟨hdirectory, fun _ _ => rfl, fun place target hplace hlink => ?_⟩
    by_cases heq : place = destination
    · rw [heq, hdirectory] at hlink
      cases hlink
    · rw [hempty place hplace heq] at hlink
      cases hlink
  have hend : Contained destination tree tree' ∧ archive.Safe := by
    cases archive with
    | zip members => exact ⟨foldlM_zip_inside members hstart h, safe_of_foldlM_zip members h⟩
    | tar members =>
      rw [extractArchive] at h
      split at h
      · rename_i hcheck
        have hall : ∀ member ∈ members, SafeMember member :=
          fun member hmem => safeMember_of_check (List.all_eq_true.mp hcheck member hmem)
        exact ⟨extractAll_inside hall members [] rfl hstart h, hall⟩
      · cases h
  obtain ⟨hcontained, hsafe⟩ := hend
  refine ⟨hcontained.outside, fun limit parts target hparts hwalk => ?_,
    fun place link hplace hlink => ?_, hsafe⟩
  · exact walk_inside hcontained limit destination parts (List.prefix_refl _) hparts hwalk
  · have hdown := hcontained.down place link hplace hlink
    refine ⟨hdown.relative, fun limit target hwalk => ?_⟩
    refine walk_inside hcontained limit _ _ ?_ hdown.noUp hwalk
    have hne : place ≠ destination := by
      rintro rfl
      rw [hcontained.root] at hlink
      cases hlink
    obtain ⟨rest, rfl⟩ := hplace
    have hrest : rest ≠ [] := by
      rintro rfl
      exact hne (List.append_nil _)
    rw [List.dropLast_append_of_ne_nil hrest]
    exact List.prefix_append _ _

/-- A link chain, and a file written through it: all of it lies inside. -/
theorem extractArchive_contained_chain :
    let archive : Bundle := .tar [⟨"lib/real", .directory, ""⟩, ⟨"lib/a", .symlink, "real"⟩,
      ⟨"b", .symlink, "lib/a"⟩, ⟨"b/x", .file, ""⟩, ⟨"y", .hardlink, "lib/real/x"⟩]
    let tree : Tree := fun place => if place = ["stage"] then some .directory else none
    ∃ tree', extractArchive 9 ["stage"] 9 archive tree = some tree' ∧
      tree' ["lib"] = none ∧ tree' ["real", "x"] = none := by
  intro archive tree
  obtain ⟨tree', h⟩ := Option.isSome_iff_exists.mp
    (by decide : (extractArchive 9 ["stage"] 9 archive tree).isSome = true)
  have hempty : ∀ place, ["stage"] <+: place → place ≠ ["stage"] → tree place = none :=
    fun place _ hne => if_neg hne
  have houtside := (extractArchive_contained hempty (if_pos rfl) h).1
  exact ⟨tree', h, houtside ["lib"] (by decide), houtside ["real", "x"] (by decide)⟩

example : ((extractArchive 9 ["stage"] 9 (.tar [⟨"lib/real", .directory, ""⟩,
    ⟨"lib/a", .symlink, "real"⟩, ⟨"b", .symlink, "lib/a"⟩, ⟨"b/x", .file, ""⟩])
    fun place => if place = ["stage"] then some .directory else none).bind
      fun tree => tree ["stage", "lib", "real", "x"]) = some .file := by decide

end EccFe.Cli.Archive
