/-
EccFe.Cli.Registry — the resource registry of `fecompiler/cli/resource_manager.py`: resource
ids, and the version of a tool that an install selects.

The registry is the JSON a server sends. Everything in it is text of somebody else: a name, a
version or a prefix is checked for nothing here.
-/
import EccFe.Python.Json
import EccFe.Python.Number

namespace EccFe.Cli

open Python

/-- What `install` raises. -/
inductive ResourceError where
  /-- `ResourceManagerError`. -/
  | manager (message : String)
  /-- The `ResourceManagerError` of a dependency cycle. -/
  | cycle (message : String)
  /-- A value of the registry that is not iterable. -/
  | typeError
  /-- `int` of an infinite float. -/
  | overflowError
  /-- The call is too deep for the interpreter. -/
  | recursionError
  /-- Any other exception. -/
  | other (name : String)
  deriving DecidableEq

def normalizeResourceId (resourceId : String) : Except ResourceError String :=
  let value := strip resourceId
  if value = "" then .error (.manager "Resource id must not be empty")
  else if !value.toList.contains ':' then .ok ("tool:" ++ value)
  else if !startsWith value.toList "tool:" then
    .error (.manager "ECC-FE CLI currently installs tool resources only")
  else .ok value

/-- `normalized.removeprefix("tool:")`. -/
def toolName (normalized : String) : String :=
  if startsWith normalized.toList "tool:" then String.ofList (normalized.toList.drop 5)
  else normalized

def positiveInt (value : Json) : Except ResourceError (Option Int) :=
  match value with
  | .bool _ => .ok none
  | value =>
      match value.toInt with
      | .ok number => .ok (if 0 < number then some number else none)
      | .error .overflowError => .error .overflowError
      | .error _ => .ok none

/-- `_valid_sha256(value)`. -/
def validSha256 (value : String) : Bool :=
  value.length == 64 && value.toList.all fun c => "0123456789abcdef".toList.contains c

/-- `for item in value`. -/
def iterate : Json → Except ResourceError (List Json)
  | .arr items => .ok items
  | .obj fields => .ok (fields.map fun field => .str field.1)
  | .str text => .ok (text.toList.map fun c => .str (String.singleton c))
  | _ => .error .typeError

def dictItems (items : List Json) : List Dict :=
  items.filterMap fun
    | .obj fields => some fields
    | _ => none

structure RegistryAsset where
  url : String
  sha256 : String
  size : Int
  stripPrefix : Option String
  metadataUrl : Option String
  supplementalAssets : List Dict
  postInstall : List Dict

structure RegistryVersion where
  version : String
  requires : List String
  asset : RegistryAsset
  platform : String

/-- `str(value or "") or None`. -/
def optionalText (d : Dict) (key : String) : Option String :=
  let text := d.textOrEmptyAt key
  if text = "" then none else some text

/-- The asset of a version, with its checks. -/
def registryAsset (name : String) (raw : Dict) : Except ResourceError RegistryAsset := do
  let url := raw.textAt "url"
  let sha256 := lower (raw.textAt "sha256")
  let size ← positiveInt (raw.getD "size" .null)
  let supplemental ← iterate (raw.getD "supplemental_assets" (.arr []))
  let postInstall ← iterate (raw.getD "post_install" (.arr []))
  match size with
  | some size =>
      if url ≠ "" ∧ validSha256 sha256 = true then
        return ⟨url, sha256, size, optionalText raw "strip_prefix", optionalText raw "metadata_url",
          dictItems supplemental, dictItems postInstall⟩
      else
        .error (.manager s!"Tool '{name}' is missing its URL, SHA256 checksum, or size lock")
  | none =>
      .error (.manager s!"Tool '{name}' is missing its URL, SHA256 checksum, or size lock")

/-- The ids a version requires; blank ones are left out. -/
def requirements (raw : Dict) : Except ResourceError (List String) := do
  let items ← iterate (raw.getD "requires" (.arr []))
  (items.filter fun item => strip item.pyStr ≠ "").mapM fun item => normalizeResourceId item.pyStr

/-- `registry.get("tools", [])`, the dicts of it. -/
def registryTools (registry : Dict) : List Dict := dictItems (registry.getD "tools" (.arr [])).items

/-- `resolve_version(registry, name, requested_version)` on the platform `platformName`. -/
def resolveVersion (platformName : String) (registry : Dict) (name : String)
    (requestedVersion : Option String) : Except ResourceError RegistryVersion := do
  let some tool := (registryTools registry).find? fun tool => tool.get "name" = some (.str name)
    | .error (.manager s!"Tool '{name}' was not found in the registry")
  let versions := (tool.getD "versions" (.arr [])).items
  if versions = [] then .error (.manager s!"Tool '{name}' has no available versions")
  let some raw := (dictItems versions).find? fun item =>
      requestedVersion = none ∨ item.get "version" = requestedVersion.map .str
    | .error (.manager ("Version '" ++ requestedVersion.getD "None" ++ "' was not found for " ++ name))
  let .obj platforms := raw.getD "platforms" (.obj [])
    | .error (.manager s!"Tool '{name}' has invalid platform assets")
  let own := Dict.getD platforms platformName .null
  let .obj rawAsset := if own.truthy then own else Dict.getD platforms "all-platform" .null
    | .error (.manager s!"Tool '{name}' is unavailable on {platformName}")
  let asset ← registryAsset name rawAsset
  let requires ← requirements raw
  return ⟨raw.textAt "version", requires, asset,
    if Dict.has platforms platformName then platformName else "all-platform"⟩

/-- A name that resolves is one of the registry. -/
theorem mem_of_resolveVersion {platformName : String} {registry : Dict} {name : String}
    {requestedVersion : Option String} {selected : RegistryVersion}
    (h : resolveVersion platformName registry name requestedVersion = .ok selected) :
    name ∈ (registryTools registry).filterMap fun tool =>
      match tool.get "name" with
      | some (.str text) => some text
      | _ => none := by
  unfold resolveVersion at h
  cases hfind : (registryTools registry).find? fun tool => tool.get "name" = some (.str name) with
  | none =>
    rw [hfind] at h
    cases h
  | some tool =>
    have hname := List.find?_some hfind
    rw [decide_eq_true_eq] at hname
    exact List.mem_filterMap.mpr ⟨tool, List.mem_of_find?_eq_some hfind, by rw [hname]⟩

/-- A normalized id is stripped, has a colon and starts with `tool:`. -/
theorem normalizeResourceId_eq_self {normalized : String} (hstrip : strip normalized = normalized)
    (hprefixed : startsWith normalized.toList "tool:" = true) :
    normalizeResourceId normalized = .ok normalized := by
  have hcolon : normalized.toList.contains ':' = true := by
    obtain ⟨rest, hrest⟩ := List.isPrefixOf_iff_prefix.mp hprefixed
    rw [← hrest, List.contains_iff_mem]
    exact List.mem_append_left _ (by decide)
  have hne : normalized ≠ "" := by
    rintro rfl
    exact absurd hprefixed (by decide)
  rw [normalizeResourceId, hstrip]
  simp only [if_neg hne, hcolon, hprefixed, Bool.not_true, Bool.false_eq_true, if_false]

theorem normalizeResourceId_idem {resourceId normalized : String}
    (h : normalizeResourceId resourceId = .ok normalized) :
    normalizeResourceId normalized = .ok normalized := by
  unfold normalizeResourceId at h
  dsimp only at h
  split at h
  · cases h
  rename_i hne
  split at h
  · -- the prefix is put before a stripped text
    cases h
    have hnonempty : (strip resourceId).toList ≠ [] := fun hnil =>
      hne (String.toList_eq_nil_iff.mp hnil)
    have hlast : ∀ c ∈ ("tool:" ++ strip resourceId).toList.getLast?, isSpace c = false := by
      rw [String.toList_append, List.getLast?_append_of_ne_nil _ hnonempty, strip,
        String.toList_ofList]
      exact last_stripBy
    have hhead : ∀ c ∈ ("tool:" ++ strip resourceId).toList.head?, isSpace c = false := by
      rw [String.toList_append]
      show ∀ c ∈ some 't', isSpace c = false
      decide
    refine normalizeResourceId_eq_self ?_ ?_
    · rw [strip, stripBy_eq_self hhead hlast, String.ofList_toList]
    · rw [startsWith, String.toList_append, List.isPrefixOf_iff_prefix]
      exact List.prefix_append _ _
  split at h
  · cases h
  · rename_i hprefixed
    cases h
    exact normalizeResourceId_eq_self (strip_idem resourceId) (by simpa using hprefixed)

/-! ## Errors and requirements -/

/-- What a mapped list holds comes from an element. -/
theorem exists_of_mapM_eq_ok {α β ε : Type} {f : α → Except ε β} : ∀ {xs : List α} {ys : List β},
    xs.mapM f = .ok ys → ∀ y ∈ ys, ∃ x ∈ xs, f x = .ok y
  | [], ys, h, y, hy => by
      cases h
      cases hy
  | x :: xs, ys, h, y, hy => by
      rw [List.mapM_cons] at h
      cases hx : f x with
      | error e =>
        rw [hx] at h
        cases h
      | ok first =>
        cases hxs : xs.mapM f with
        | error e =>
          rw [hx, hxs] at h
          cases h
        | ok rest =>
          rw [hx, hxs] at h
          cases h
          rcases List.mem_cons.mp hy with rfl | hy
          · exact ⟨x, List.mem_cons_self, hx⟩
          · obtain ⟨z, hz, hfz⟩ := exists_of_mapM_eq_ok hxs y hy
            exact ⟨z, List.mem_cons_of_mem x hz, hfz⟩

/-- A list that is not mapped has an element that is not. -/
theorem mapM_eq_error {α β ε : Type} {f : α → Except ε β} {e : ε} : ∀ {xs : List α},
    xs.mapM f = .error e → ∃ x ∈ xs, f x = .error e
  | [], h => by cases h
  | x :: xs, h => by
      rw [List.mapM_cons] at h
      cases hx : f x with
      | error e' =>
        rw [hx] at h
        cases h
        exact ⟨x, List.mem_cons_self, hx⟩
      | ok y =>
        cases hxs : xs.mapM f with
        | error e' =>
          rw [hx, hxs] at h
          cases h
          obtain ⟨z, hz, hfz⟩ := mapM_eq_error hxs
          exact ⟨z, List.mem_cons_of_mem x hz, hfz⟩
        | ok ys =>
          rw [hx, hxs] at h
          cases h

/-- The errors that the walk over the dependencies raises itself. -/
def ResourceError.ofWalk : ResourceError → Bool
  | .cycle _ | .recursionError => true
  | _ => false

theorem positiveInt_plain {value : Json} {e : ResourceError} (h : positiveInt value = .error e) :
    e.ofWalk = false := by
  unfold positiveInt at h
  split at h
  · cases h
  · split at h
    · cases h
    · cases h
      rfl
    · cases h

theorem iterate_plain {value : Json} {e : ResourceError} (h : iterate value = .error e) :
    e.ofWalk = false := by
  cases value <;> cases h <;> rfl

theorem normalizeResourceId_plain {id : String} {e : ResourceError}
    (h : normalizeResourceId id = .error e) : e.ofWalk = false := by
  unfold normalizeResourceId at h
  dsimp only at h
  split at h
  · cases h
    rfl
  split at h
  · cases h
  split at h
  · cases h
    rfl
  · cases h

theorem registryAsset_plain {name : String} {raw : Dict} {e : ResourceError}
    (h : registryAsset name raw = .error e) : e.ofWalk = false := by
  unfold registryAsset at h
  simp only [bind, Except.bind, pure, Except.pure] at h
  split at h
  · rename_i hsize
    cases h
    exact positiveInt_plain hsize
  split at h
  · rename_i hitems
    cases h
    exact iterate_plain hitems
  split at h
  · rename_i hitems
    cases h
    exact iterate_plain hitems
  split at h
  · split at h
    · cases h
    · cases h
      rfl
  · cases h
    rfl

theorem requirements_plain {raw : Dict} {e : ResourceError} (h : requirements raw = .error e) :
    e.ofWalk = false := by
  unfold requirements at h
  simp only [bind, Except.bind] at h
  split at h
  · rename_i hitems
    cases h
    exact iterate_plain hitems
  · obtain ⟨item, -, hitem⟩ := mapM_eq_error h
    exact normalizeResourceId_plain hitem

/-- No version is selected with an error of the walk. -/
theorem resolveVersion_plain {platformName : String} {registry : Dict} {name : String}
    {requestedVersion : Option String} {e : ResourceError}
    (h : resolveVersion platformName registry name requestedVersion = .error e) :
    e.ofWalk = false := by
  unfold resolveVersion at h
  simp only [bind, Except.bind, pure, Except.pure] at h
  repeat' split at h
  all_goals cases h
  all_goals first
    | rfl
    | exact registryAsset_plain ‹_›
    | exact requirements_plain ‹_›

/-- What a selected version requires was read by `requirements`. -/
theorem requires_of_resolveVersion {platformName : String} {registry : Dict} {name : String}
    {requestedVersion : Option String} {selected : RegistryVersion}
    (h : resolveVersion platformName registry name requestedVersion = .ok selected) :
    ∃ raw, requirements raw = .ok selected.requires := by
  unfold resolveVersion at h
  simp only [bind, Except.bind, pure, Except.pure] at h
  repeat' split at h
  all_goals cases h
  all_goals exact ⟨_, by assumption⟩

/-- Every id that a selected version requires is normalized. -/
theorem normalized_of_resolveVersion {platformName : String} {registry : Dict} {name : String}
    {requestedVersion : Option String} {selected : RegistryVersion}
    (h : resolveVersion platformName registry name requestedVersion = .ok selected) :
    ∀ id ∈ selected.requires, normalizeResourceId id = .ok id := by
  obtain ⟨raw, hraw⟩ := requires_of_resolveVersion h
  unfold requirements at hraw
  simp only [bind, Except.bind] at hraw
  split at hraw
  · cases hraw
  intro id hid
  obtain ⟨item, -, hitem⟩ := exists_of_mapM_eq_ok hraw id hid
  exact normalizeResourceId_idem hitem

end EccFe.Cli
