/-
EccFe.Cli.Project.Config — project parameters and parameters.json
(`fecompiler/cli/project/config.py`).

A parameter's value is looked up in four places: the command line, the `params` and the `defaults`
table of ecc-fe.toml, the schema. `applyProjectOverrides` writes it to parameters.json, unless what
is stored there already reads as it: a stored `"1"` is left for a `1`
(`equal_text_is_left`). Afterwards nothing is pending (`overrides_applied`).

parameters.json is the dict read from it; a write that fails raises and is left out. The tables of
ecc-fe.toml hold normal values, since they come out of `validatedParameterTable`.
-/
import EccFe.Cli.Project.Params

namespace EccFe.Cli.Project

open Python

variable (reader : FloatReader)

/-! ## 1. Tables -/

/-- Values by parameter name, each in normal form. -/
structure NormalTable where
  items : Dict
  normal : ∀ schema ∈ parameters, ∀ value, items.get schema.param = some value →
    Normal reader schema value

structure ProjectConfig where
  defaults : NormalTable reader
  overrides : NormalTable reader

inductive ProjectConfigError where
  | nestedTable
  | unknownParameter (param : String)
  | invalid (param : String)
  | overflow
  deriving DecidableEq

/-- The loop of `_validated_parameter_table`. -/
def validatedItems : Dict → Except ProjectConfigError Dict
  | [] => .ok []
  | (param, value) :: rest =>
      match lookupParameter param with
      | none => .error (.unknownParameter param)
      | some schema =>
          match normalizeStoredValue reader value schema with
          | .error .overflowError => .error .overflow
          | .error _ => .error (.invalid param)
          | .ok normalized => (validatedItems rest).map fun items => (param, normalized) :: items

theorem lookupParameter_param : ∀ schema ∈ parameters, lookupParameter schema.param = some schema := by
  decide +kernel

/-- Parameters are told apart by their names. -/
theorem eq_of_param {name : String} {schema other : ParameterSchema}
    (hname : lookupParameter name = some schema) (hother : other ∈ parameters)
    (hparam : other.param = schema.param) : schema = other := by
  have hschema := lookupParameter_param schema (List.mem_of_find?_eq_some hname)
  rw [← hparam, lookupParameter_param other hother] at hschema
  exact (Option.some.inj hschema).symm

/-- Validated values are in normal form. -/
theorem validatedItems_normal : ∀ {raw items : Dict}, validatedItems reader raw = .ok items →
    ∀ schema ∈ parameters, ∀ value, items.get schema.param = some value → Normal reader schema value
  | [], items, h, _, _, _, hget => by
      cases h
      cases hget
  | (param, raw) :: rest, items, h, schema, hschema, value, hget => by
      rw [validatedItems] at h
      split at h
      · cases h
      · rename_i found hfound
        split at h
        · cases h
        · cases h
        · rename_i normalized hnormalized
          obtain ⟨tail, htail, rfl⟩ := map_eq_ok.mp h
          rw [Dict.get_cons] at hget
          split at hget
          · rename_i hparam
            cases hget
            rw [hparam, lookupParameter_param schema hschema] at hfound
            cases hfound
            exact normal_of_normalize hschema hnormalized
          · exact validatedItems_normal htail schema hschema value hget

def isDict : Json → Bool
  | .obj _ => true
  | _ => false

/-- `_validated_parameter_table(raw, key, path)` of the table under the key. -/
def validatedParameterTable (raw : Dict) : Except ProjectConfigError (NormalTable reader) :=
  if raw.any fun item => isDict item.2 then .error .nestedTable
  else
    match h : validatedItems reader raw with
    | .error e => .error e
    | .ok items => .ok ⟨items, validatedItems_normal reader h⟩

/-- The parameter tables of `load_project_config`. -/
def loadProjectConfig (defaults params : Dict) : Except ProjectConfigError (ProjectConfig reader) :=
  match validatedParameterTable reader defaults with
  | .error e => .error e
  | .ok defaults => (validatedParameterTable reader params).map fun overrides => ⟨defaults, overrides⟩

theorem normal_set {items : Dict} {param : String} {value : Json}
    (hvalue : ∀ schema ∈ parameters, schema.param = param → Normal reader schema value)
    (h : ∀ schema ∈ parameters, ∀ v, items.get schema.param = some v → Normal reader schema v) :
    ∀ schema ∈ parameters, ∀ v, (items.set param value).get schema.param = some v →
      Normal reader schema v := by
  intro schema hschema v hget
  by_cases hparam : param = schema.param
  · rw [← hparam, Dict.get_set_self, Option.some.injEq] at hget
    rw [← hget]
    exact hvalue schema hschema hparam.symm
  · rw [Dict.get_set_ne _ _ hparam] at hget
    exact h schema hschema v hget

/-- One assignment of `parse_cli_overrides`; one that is refused adds nothing. -/
def addOverride (jsonLoads : String → Option Json) (overrides : NormalTable reader)
    (assignment : String) : NormalTable reader :=
  let key := strip (String.ofList (assignment.toList.takeWhile (· != '=')))
  let raw := String.ofList ((assignment.toList.dropWhile (· != '=')).drop 1)
  if assignment.toList.contains '=' ∧ key ≠ "" then
    match hkey : lookupParameter key with
    | none => overrides
    | some schema =>
        match hvalue : parseCliValue reader jsonLoads raw schema with
        | .error _ => overrides
        | .ok value =>
            { items := overrides.items.set schema.param value
              normal := normal_set reader (fun _ hother hparam =>
                eq_of_param hkey hother hparam ▸ normal_of_parseCliValue hvalue) overrides.normal }
  else overrides

def parseCliOverrides (jsonLoads : String → Option Json) (values : List String) : NormalTable reader :=
  values.foldl (addOverride reader jsonLoads) ⟨[], fun _ _ _ h => by cases h⟩

/-! ## 2. Targets and changes -/

variable {reader} (config : ProjectConfig reader) (extra : NormalTable reader)

/-- `runtime_overrides.get(key, config.overrides.get(key, config.defaults.get(key, schema.default)))`. -/
def targetValue (schema : ParameterSchema) : Json :=
  extra.items.getD schema.param
    (config.overrides.items.getD schema.param
      (config.defaults.items.getD schema.param schema.default))

/-- The test that keeps a parameter from being skipped. -/
def responsible (stored : Dict) (schema : ParameterSchema) : Bool :=
  extra.items.has schema.param || config.overrides.items.has schema.param ||
    stored.has schema.parameterKey

variable (reader) in
def normalizedCurrent (stored : Dict) (schema : ParameterSchema) : Except NumberError Json :=
  let current := stored.getD schema.parameterKey .null
  match normalizeStoredValue reader current schema with
  | .ok value => .ok value
  | .error .overflowError => .error .overflowError
  | .error _ => .ok current

/-- The loop of `_project_override_state`. -/
def changedFrom (stored : Dict) : List ParameterSchema → Except NumberError (List String)
  | [] => .ok []
  | schema :: rest =>
      if responsible config extra stored schema then
        match normalizedCurrent reader stored schema with
        | .error e => .error e
        | .ok current =>
            (changedFrom stored rest).map fun changed =>
              if current.eqPy (targetValue config extra schema) then changed
              else schema.param :: changed
      else changedFrom stored rest

def pendingProjectOverrides (stored : Dict) : Except NumberError (List String) :=
  changedFrom config extra stored parameters

/-- The loop of `apply_project_overrides`. -/
def writeTargets (stored : Dict) (changed : List String) : Dict :=
  changed.foldl (fun stored key =>
    match lookupParameter key with
    | some schema => stored.set schema.parameterKey (targetValue config extra schema)
    | none => stored) stored

/-- `apply_project_overrides`: parameters.json after the call, and what changed. -/
def applyProjectOverrides (stored : Dict) : Except NumberError (Dict × List String) :=
  (pendingProjectOverrides config extra stored).map fun changed =>
    (writeTargets config extra stored changed, changed)

variable (reader) in
/-- What is stored for the parameter, read and normalised, equals `value` in Python's sense. -/
def ReadsAs (stored : Dict) (schema : ParameterSchema) (value : Json) : Prop :=
  ∃ current, normalizedCurrent reader stored schema = .ok current ∧ current.eqPy value = true

/-! ## 3. What changes -/

instance (stored : Dict) (schema : ParameterSchema) (value : Json) :
    Decidable (ReadsAs reader stored schema value) :=
  match h : normalizedCurrent reader stored schema with
  | .error _ => isFalse fun ⟨_, hok, _⟩ => by rw [h] at hok; cases hok
  | .ok current =>
      decidable_of_iff (current.eqPy value = true)
        ⟨fun heq => ⟨current, h, heq⟩, fun ⟨_, hok, heq⟩ => by rw [h] at hok; cases hok; exact heq⟩

/-- The parameters that are written: those that do not read as their target. -/
def changedSchemas (stored : Dict) (schemas : List ParameterSchema) : List ParameterSchema :=
  schemas.filter fun schema => responsible config extra stored schema = true ∧
    ¬ ReadsAs reader stored schema (targetValue config extra schema)

/-- The changed parameters are those whose target differs. -/
theorem changedFrom_eq_ok {stored : Dict} : ∀ {schemas : List ParameterSchema} {changed : List String},
    changedFrom config extra stored schemas = .ok changed ↔
      changed = (changedSchemas config extra stored schemas).map (·.param) ∧
        ∀ schema ∈ schemas, responsible config extra stored schema = true →
          ∃ current, normalizedCurrent reader stored schema = .ok current
  | [], changed => by
      refine ⟨fun h => ?_, fun h => ?_⟩
      · cases h
        exact ⟨rfl, fun _ hmem => absurd hmem List.not_mem_nil⟩
      · rw [h.1]
        rfl
  | schema :: rest, changed => by
      have ih := @changedFrom_eq_ok stored rest
      rw [changedFrom, changedSchemas]
      by_cases hresponsible : responsible config extra stored schema = true
      · rw [if_pos hresponsible]
        cases hcurrent : normalizedCurrent reader stored schema with
        | error e =>
          refine ⟨(fun h => by cases h), fun h => ?_⟩
          obtain ⟨current, hok⟩ := h.2 schema List.mem_cons_self hresponsible
          rw [hcurrent] at hok
          cases hok
        | ok current =>
          have hreads : ReadsAs reader stored schema (targetValue config extra schema) ↔
              current.eqPy (targetValue config extra schema) = true := by
            constructor
            · rintro ⟨other, hother, heq⟩
              rw [hcurrent] at hother
              cases hother
              exact heq
            · exact fun heq => ⟨current, hcurrent, heq⟩
          dsimp only
          rw [map_eq_ok]
          constructor
          · rintro ⟨tail, htail, rfl⟩
            obtain ⟨rfl, hall⟩ := ih.mp htail
            refine ⟨?_, ?_⟩
            · by_cases heq : current.eqPy (targetValue config extra schema) = true
              · rw [if_pos heq, List.filter_cons_of_neg (by simp [hreads, heq]), changedSchemas]
              · rw [if_neg heq, List.filter_cons_of_pos (by simp [hreads, heq, hresponsible]),
                  List.map_cons, changedSchemas]
            · intro other hother hresp
              rcases List.mem_cons.mp hother with rfl | hrest
              · exact ⟨current, hcurrent⟩
              · exact hall other hrest hresp
          · rintro ⟨rfl, hall⟩
            refine ⟨_, ih.mpr ⟨rfl, fun other hother => hall other (List.mem_cons_of_mem _ hother)⟩, ?_⟩
            by_cases heq : current.eqPy (targetValue config extra schema) = true
            · rw [if_pos heq, List.filter_cons_of_neg (by simp [hreads, heq]), changedSchemas]
            · rw [if_neg heq, List.filter_cons_of_pos (by simp [hreads, heq, hresponsible]),
                List.map_cons, changedSchemas]
      · rw [if_neg hresponsible, ih, List.filter_cons_of_neg (by simp [hresponsible]), changedSchemas]
        refine and_congr_right fun _ => ⟨fun hall other hother hresp => ?_, fun hall other hother =>
          hall other (List.mem_cons_of_mem _ hother)⟩
        rcases List.mem_cons.mp hother with rfl | hrest
        · exact absurd hresp hresponsible
        · exact hall other hrest hresp

/-! ## 4. What is written -/

/-- A target is in normal form. -/
theorem targetValue_normal {schema : ParameterSchema} (hschema : schema ∈ parameters) :
    Normal reader schema (targetValue config extra schema) := by
  unfold targetValue
  simp only [Dict.getD]
  cases hextra : extra.items.get schema.param with
  | some value => exact extra.normal schema hschema value hextra
  | none =>
    cases hover : config.overrides.items.get schema.param with
    | some value => exact config.overrides.normal schema hschema value hover
    | none =>
      cases hdefault : config.defaults.items.get schema.param with
      | some value => exact config.defaults.normal schema hschema value hdefault
      | none => exact normal_default schema hschema

/-- The writes, by schema. -/
def setAll (stored : Dict) (schemas : List ParameterSchema) : Dict :=
  schemas.foldl (fun d schema => d.set schema.parameterKey (targetValue config extra schema)) stored

/-- Writing the targets sets the changed parameters. -/
theorem writeTargets_eq : ∀ (schemas : List ParameterSchema) (stored : Dict),
    (∀ schema ∈ schemas, schema ∈ parameters) →
    writeTargets config extra stored (schemas.map (·.param)) = setAll config extra stored schemas
  | [], _, _ => rfl
  | schema :: rest, stored, h => by
      have hlookup := lookupParameter_param schema (h schema List.mem_cons_self)
      rw [List.map_cons, writeTargets, List.foldl_cons, hlookup, setAll, List.foldl_cons]
      exact writeTargets_eq rest _ fun other hother => h other (List.mem_cons_of_mem _ hother)

theorem get_setAll_of_not_mem {key : String} : ∀ {schemas : List ParameterSchema} {stored : Dict},
    key ∉ schemas.map (·.parameterKey) →
    (setAll config extra stored schemas).get key = stored.get key
  | [], _, _ => rfl
  | schema :: rest, stored, h => by
      rw [List.map_cons, List.mem_cons, not_or] at h
      rw [setAll, List.foldl_cons, ← setAll, get_setAll_of_not_mem h.2,
        Dict.get_set_ne _ _ (Ne.symm h.1)]

/-- A parameter that is set has its target. -/
theorem get_setAll_of_mem {schema : ParameterSchema} : ∀ {schemas : List ParameterSchema} {stored : Dict},
    (schemas.map (·.parameterKey)).Nodup → schema ∈ schemas →
    (setAll config extra stored schemas).get schema.parameterKey = some (targetValue config extra schema)
  | first :: rest, stored, hnodup, hmem => by
      rw [List.map_cons, List.nodup_cons] at hnodup
      rw [setAll, List.foldl_cons, ← setAll]
      rcases List.mem_cons.mp hmem with rfl | hrest
      · rw [get_setAll_of_not_mem config extra hnodup.1, Dict.get_set_self]
      · exact get_setAll_of_mem hnodup.2 hrest

theorem nodup_parameterKeys : (parameters.map (·.parameterKey)).Nodup := by decide

/-- Two parameters with one key are one parameter. -/
theorem eq_of_parameterKey {schema other : ParameterSchema} (hschema : schema ∈ parameters)
    (hother : other ∈ parameters) (h : schema.parameterKey = other.parameterKey) : schema = other :=
  List.inj_on_of_nodup_map nodup_parameterKeys hschema hother h

/-- What a call that returns leaves: the targets of the changed parameters, set. -/
theorem applyProjectOverrides_eq_ok {stored after : Dict} {changed : List String} :
    applyProjectOverrides config extra stored = .ok (after, changed) ↔
      pendingProjectOverrides config extra stored = .ok changed ∧
        after = setAll config extra stored (changedSchemas config extra stored parameters) := by
  rw [applyProjectOverrides, map_eq_ok]
  have hwrite : ∀ changed, pendingProjectOverrides config extra stored = .ok changed →
      writeTargets config extra stored changed =
        setAll config extra stored (changedSchemas config extra stored parameters) := by
    intro changed h
    rw [((changedFrom_eq_ok config extra).mp h).1]
    exact writeTargets_eq config extra _ _ fun schema hmem => (List.mem_filter.mp hmem).1
  constructor
  · rintro ⟨found, hfound, heq⟩
    obtain ⟨rfl, rfl⟩ := Prod.mk.inj heq
    exact ⟨hfound, hwrite _ hfound⟩
  · rintro ⟨hpending, rfl⟩
    exact ⟨changed, hpending, by rw [hwrite _ hpending]⟩

section

variable {config extra} {stored after : Dict}

theorem get_after_of_changed (hafter : after = setAll config extra stored
      (changedSchemas config extra stored parameters)) {schema : ParameterSchema}
    (hmem : schema ∈ changedSchemas config extra stored parameters) :
    after.get schema.parameterKey = some (targetValue config extra schema) := by
  rw [hafter]
  refine get_setAll_of_mem config extra ?_ hmem
  exact nodup_parameterKeys.sublist ((List.filter_sublist).map _)

theorem get_after_of_not_changed (hafter : after = setAll config extra stored
      (changedSchemas config extra stored parameters)) {key : String}
    (hkey : ∀ schema ∈ changedSchemas config extra stored parameters, schema.parameterKey ≠ key) :
    after.get key = stored.get key := by
  rw [hafter]
  refine get_setAll_of_not_mem config extra fun hmem => ?_
  obtain ⟨schema, hschema, heq⟩ := List.mem_map.mp hmem
  exact hkey schema hschema heq

theorem get_after_of_unchanged (hafter : after = setAll config extra stored
      (changedSchemas config extra stored parameters)) {schema : ParameterSchema}
    (hschema : schema ∈ parameters)
    (hnot : schema ∉ changedSchemas config extra stored parameters) :
    after.get schema.parameterKey = stored.get schema.parameterKey := by
  refine get_after_of_not_changed hafter fun other hother heq => hnot ?_
  rwa [← eq_of_parameterKey (List.mem_filter.mp hother).1 hschema heq]

/-- A target that is stored reads as itself. -/
theorem normalizedCurrent_of_target {schema : ParameterSchema} (hschema : schema ∈ parameters)
    (h : after.get schema.parameterKey = some (targetValue config extra schema)) :
    normalizedCurrent reader after schema = .ok (targetValue config extra schema) := by
  have hnormal : normalizeStoredValue reader (targetValue config extra schema) schema =
      .ok (targetValue config extra schema) := targetValue_normal config extra hschema
  rw [normalizedCurrent, Dict.getD, h, Option.getD_some, hnormal]

theorem normalizedCurrent_congr {schema : ParameterSchema}
    (h : after.get schema.parameterKey = stored.get schema.parameterKey) :
    normalizedCurrent reader after schema = normalizedCurrent reader stored schema := by
  rw [normalizedCurrent, normalizedCurrent, Dict.getD, Dict.getD, h]

/-- A call makes no parameter its business that was not. -/
theorem responsible_after (hafter : after = setAll config extra stored
      (changedSchemas config extra stored parameters)) {schema : ParameterSchema}
    (hschema : schema ∈ parameters) :
    responsible config extra after schema = responsible config extra stored schema := by
  by_cases hmem : schema ∈ changedSchemas config extra stored parameters
  · have hresponsible := (of_decide_eq_true (List.mem_filter.mp hmem).2).1
    rw [hresponsible, responsible, Dict.has, Dict.has, Dict.has, get_after_of_changed hafter hmem]
    simp
  · rw [responsible, responsible, Dict.has, Dict.has, Dict.has, Dict.has,
      get_after_of_unchanged hafter hschema hmem]

/-- Every parameter of the call reads as its target afterwards. -/
theorem readsAs_after (hafter : after = setAll config extra stored
      (changedSchemas config extra stored parameters)) {schema : ParameterSchema}
    (hschema : schema ∈ parameters)
    (hresponsible : responsible config extra stored schema = true) :
    ReadsAs reader after schema (targetValue config extra schema) := by
  by_cases hmem : schema ∈ changedSchemas config extra stored parameters
  · exact ⟨_, normalizedCurrent_of_target hschema (get_after_of_changed hafter hmem),
      eqPy_self_of_normal (targetValue_normal config extra hschema)⟩
  · have hreads : ReadsAs reader stored schema (targetValue config extra schema) := by
      by_contra hnot
      exact hmem (List.mem_filter.mpr ⟨hschema, decide_eq_true ⟨hresponsible, hnot⟩⟩)
    obtain ⟨current, hcurrent, heq⟩ := hreads
    exact ⟨current, (normalizedCurrent_congr
      (get_after_of_unchanged hafter hschema hmem)).trans hcurrent, heq⟩

/-- After the overrides nothing is pending. -/
theorem pending_after (hafter : after = setAll config extra stored
      (changedSchemas config extra stored parameters)) :
    pendingProjectOverrides config extra after = .ok [] := by
  refine (changedFrom_eq_ok config extra).mpr ⟨?_, fun schema hschema hresponsible => ?_⟩
  · have hnone : changedSchemas config extra after parameters = [] := by
      rw [changedSchemas, List.filter_eq_nil_iff]
      intro schema hschema hmem
      obtain ⟨hresponsible, hnot⟩ := of_decide_eq_true hmem
      rw [responsible_after hafter hschema] at hresponsible
      exact hnot (readsAs_after hafter hschema hresponsible)
    rw [hnone]
    rfl
  · rw [responsible_after hafter hschema] at hresponsible
    obtain ⟨current, hcurrent, -⟩ := readsAs_after hafter hschema hresponsible
    exact ⟨current, hcurrent⟩

end

/-- The precedence of values, what is left alone, and a second call. -/
theorem overrides_applied (reader : FloatReader) (config : ProjectConfig reader)
    (extra : NormalTable reader) (stored after : Dict) (changed : List String)
    (h : applyProjectOverrides config extra stored = .ok (after, changed)) :
    (∀ schema ∈ parameters, responsible config extra stored schema = true →
      ReadsAs reader after schema (targetValue config extra schema) ∧
        after.get schema.parameterKey =
          if ReadsAs reader stored schema (targetValue config extra schema) then
            stored.get schema.parameterKey
          else some (targetValue config extra schema)) ∧
      (∀ key, (∀ schema ∈ parameters, responsible config extra stored schema = true →
        schema.parameterKey ≠ key) → after.get key = stored.get key) ∧
      pendingProjectOverrides config extra after = .ok [] ∧
      applyProjectOverrides config extra after = .ok (after, []) := by
  obtain ⟨-, hafter⟩ := (applyProjectOverrides_eq_ok config extra).mp h
  refine ⟨fun schema hschema hresponsible => ⟨readsAs_after hafter hschema hresponsible, ?_⟩,
    fun key hkey => ?_, pending_after hafter, ?_⟩
  · split
    · rename_i hreads
      refine get_after_of_unchanged hafter hschema fun hmem => ?_
      exact (of_decide_eq_true (List.mem_filter.mp hmem).2).2 hreads
    · rename_i hnot
      exact get_after_of_changed hafter
        (List.mem_filter.mpr ⟨hschema, decide_eq_true ⟨hresponsible, hnot⟩⟩)
  · refine get_after_of_not_changed hafter fun schema hmem => ?_
    obtain ⟨hschema, hchanged⟩ := List.mem_filter.mp hmem
    exact hkey schema hschema (of_decide_eq_true hchanged).1
  · refine (applyProjectOverrides_eq_ok config extra).mpr ⟨pending_after hafter, ?_⟩
    have hnone := (changedFrom_eq_ok config extra).mp (pending_after hafter)
    rw [List.map_eq_nil_iff.mp hnone.1.symm]
    rfl

/-- Values given on the command line, with the plain reader. -/
def cliTable (values : List String) : NormalTable plainReader :=
  parseCliOverrides plainReader (fun _ => none) values

theorem overrides_applied_params :
    applyProjectOverrides ⟨cliTable [], cliTable ["sim.coremark_iterations=5"]⟩ (cliTable [])
        [("Design", .str "gcd"), ("sim_coremark_iterations", .str "7")] =
      .ok ([("Design", .str "gcd"), ("sim_coremark_iterations", .int 5)], ["sim.coremark_iterations"]) ∧
    applyProjectOverrides ⟨cliTable [], cliTable ["sim.coremark_iterations=5"]⟩ (cliTable [])
        [("Design", .str "gcd"), ("sim_coremark_iterations", .int 5)] =
      .ok ([("Design", .str "gcd"), ("sim_coremark_iterations", .int 5)], []) :=
  have h : applyProjectOverrides ⟨cliTable [], cliTable ["sim.coremark_iterations=5"]⟩ (cliTable [])
      [("Design", .str "gcd"), ("sim_coremark_iterations", .str "7")] =
    .ok ([("Design", .str "gcd"), ("sim_coremark_iterations", .int 5)],
      ["sim.coremark_iterations"]) := by decide +kernel
  ⟨h, (overrides_applied _ _ _ _ _ _ h).2.2.2⟩

/-- A stored `"1"` is no `1`, reads as one and stays. -/
theorem equal_text_is_left :
    applyProjectOverrides ⟨cliTable [], cliTable []⟩ (cliTable [])
        [("sim_coremark_iterations", .str "1")] = .ok ([("sim_coremark_iterations", .str "1")], []) ∧
      ∃ schema ∈ parameters, schema.parameterKey = "sim_coremark_iterations" ∧
        targetValue ⟨cliTable [], cliTable []⟩ (cliTable []) schema = .int 1 ∧
        Json.eqPy (.str "1") (.int 1) = false := by
  refine ⟨by decide +kernel, ?_⟩
  decide +kernel

end EccFe.Cli.Project
