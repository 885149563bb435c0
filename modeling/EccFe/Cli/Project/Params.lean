/-
EccFe.Cli.Project.Params — the parameters of a project (`fecompiler/cli/project/params.py`).

A parameter has a dotted name, the key parameters.json has for it, a type and a default.
`normalizeStoredValue` is how every value comes in: a text is read as the type's number or truth
value, then type, choices and bounds are checked. What it returns it returns again
(`normal_of_normalize`).

`float(text)` and `float(n)` are a parameter, `FloatReader`. Bounds are compared as decimal
numbers; the shortest texts of two floats are in the order of the floats.
-/
import EccFe.Python.Equality
import EccFe.Python.JsonText
import EccFe.Python.Number

namespace EccFe.Cli.Project

open Python

/-! ## 1. The schema -/

inductive ValueType where
  | string
  | integer
  | float
  | boolean
  | stringList
  deriving DecidableEq

structure ParameterSchema where
  param : String
  parameterKey : String
  valueType : ValueType
  default : Json
  choices : List String
  minimum : Option ℚ
  maximum : Option ℚ
  deriving DecidableEq

def parameters : List ParameterSchema :=
  [⟨"design.frequency_mhz", "Frequency max [MHz]", .float, .float ⟨"100.0", by decide⟩, [],
      some (1 / 1000000), some 10000⟩,
    ⟨"sim.compile_preset", "sim_compile_preset", .string, .str "balanced",
      ["debug", "balanced", "speed", "size", "custom"], none, none⟩,
    ⟨"sim.compile_opt_level", "sim_compile_opt_level", .string, .str "-O2",
      ["-O0", "-O1", "-O2", "-O3", "-Os", "-Og"], none, none⟩,
    ⟨"sim.compile_march", "sim_compile_march", .string, .str "rv32im_zicsr", [], none, none⟩,
    ⟨"sim.compile_mabi", "sim_compile_mabi", .string, .str "ilp32",
      ["ilp32", "ilp32e", "ilp32f", "ilp32d"], none, none⟩,
    ⟨"sim.compile_extra_cflags", "sim_compile_extra_cflags", .stringList, .arr [], [], none, none⟩,
    ⟨"sim.coremark_iterations", "sim_coremark_iterations", .integer, .int 1, [], some 1,
      some 1000000000⟩,
    ⟨"sim.coremark_total_data_size", "sim_coremark_total_data_size", .integer, .int 2000, [],
      some 1, some 1000000000⟩,
    ⟨"sim.coremark_max_cycles", "sim_coremark_max_cycles", .integer, .int 200000000, [], some 1,
      some 1000000000000⟩,
    ⟨"sim.coremark_has_float", "sim_coremark_has_float", .boolean, .bool true, [], none, none⟩,
    ⟨"sim.coremark_use_difftest", "sim_coremark_use_difftest", .boolean, .bool false, [], none,
      none⟩]

def lookupParameter (name : String) : Option ParameterSchema :=
  parameters.find? (·.param = strip name)

/-! ## 2. Normalisation -/

/-- What Python makes of a text or an integer that becomes a `float`. -/
structure FloatReader where
  /-- `float(text)`; `none` for the `ValueError`. -/
  ofText : String → Option PyFloat
  /-- `float(n)`; `none` for the `OverflowError`. -/
  ofInt : Int → Option PyFloat
  /-- Small integers are floats. -/
  ofInt_exact : ∀ n, 1 ≤ n → n ≤ 10000 → ∃ x, ofInt n = some x ∧ x.toRat? = some (n : ℚ)

variable (reader : FloatReader)

/-- `isinstance(item, str)`. -/
def isText : Json → Bool
  | .str _ => true
  | _ => false

/-- The type check of `validate_value`. -/
def validType (valueType : ValueType) (value : Json) : Except NumberError Bool :=
  match valueType, value with
  | .string, .str s => .ok (strip s ≠ "")
  | .integer, .int _ => .ok true
  | .float, .int n =>
      match reader.ofInt n with
      | some x => .ok x.toRat?.isSome
      | none => .error .overflowError
  | .float, .float x => .ok x.toRat?.isSome
  | .boolean, .bool _ => .ok true
  | .stringList, .arr items => .ok (items.all isText)
  | _, _ => .ok false

/-- `not schema.choices or value in schema.choices`. -/
def validChoice (schema : ParameterSchema) (value : Json) : Bool :=
  schema.choices.isEmpty || (schema.choices.map Json.str).contains value

/-- The bounds an `int` or a `float` is held to. -/
def withinBounds (schema : ParameterSchema) (value : Json) : Bool :=
  match value with
  | .int _ | .float _ =>
      match value.rat? with
      | some q => schema.minimum.all (· ≤ q) && schema.maximum.all (q ≤ ·)
      | none => true
  | _ => true

def validateValue (value : Json) (schema : ParameterSchema) : Except NumberError Unit :=
  match validType reader schema.valueType value with
  | .error e => .error e
  | .ok valid =>
      if valid && validChoice schema value && withinBounds schema value then .ok ()
      else .error .valueError

/-- The value a text stands for, by the type. -/
def readText (valueType : ValueType) (value : Json) : Except NumberError Json :=
  match valueType, value with
  | .integer, .str s =>
      match intOfText s with
      | some n => .ok (.int n)
      | none => .error .valueError
  | .float, .str s =>
      match reader.ofText s with
      | some x => .ok (.float x)
      | none => .error .valueError
  | .boolean, .str s =>
      let normalized := lower (strip s)
      .ok (if normalized ∈ ["1", "true", "yes", "on"] then .bool true
        else if normalized ∈ ["0", "false", "no", "off"] then .bool false
        else .str s)
  | _, v => .ok v

/-- `float(value) if schema.value_type == "float" else value`. -/
def toFloat (valueType : ValueType) (value : Json) : Except NumberError Json :=
  match valueType, value with
  | .float, .int n =>
      match reader.ofInt n with
      | some x => .ok (.float x)
      | none => .error .overflowError
  | _, v => .ok v

def normalizeStoredValue (value : Json) (schema : ParameterSchema) : Except NumberError Json :=
  match readText reader schema.valueType value with
  | .error e => .error e
  | .ok read =>
      match validateValue reader read schema with
      | .error e => .error e
      | .ok () => toFloat reader schema.valueType read

/-- `value` is what normalisation makes of it. -/
def Normal (schema : ParameterSchema) (value : Json) : Prop :=
  normalizeStoredValue reader value schema = .ok value

/-- `parse_cli_value(raw, schema)`; `jsonLoads` is `json.loads`. -/
def parseCliValue (jsonLoads : String → Option Json) (raw : String) (schema : ParameterSchema) :
    Except NumberError Json :=
  let read : Option Json :=
    match schema.valueType with
    | .string => some (.str (strip raw))
    | .integer => (intOfText raw).map .int
    | .float => (reader.ofText raw).map .float
    | .boolean =>
        let normalized := lower (strip raw)
        if normalized ∈ ["1", "true", "yes", "on"] then some (.bool true)
        else if normalized ∈ ["0", "false", "no", "off"] then some (.bool false)
        else none
    | .stringList => jsonLoads raw
  match read with
  | none => .error .valueError
  | some value => (validateValue reader value schema).map fun _ => value

/-- `effective_default(parameters, schema)`; an `OverflowError` is not caught. -/
def effectiveDefault (stored : Dict) (schema : ParameterSchema) : Except NumberError Json :=
  match stored.getD schema.parameterKey .null with
  | .null | .str "" => .ok schema.default
  | raw =>
      match normalizeStoredValue reader raw schema with
      | .error .overflowError => .error .overflowError
      | .error _ => .ok schema.default
      | .ok value => .ok value

/-! ## 3. Normal values -/

variable {reader}

theorem normalize_eq_ok {schema : ParameterSchema} {value w : Json} :
    normalizeStoredValue reader value schema = .ok w ↔
      ∃ read, readText reader schema.valueType value = .ok read ∧
        validateValue reader read schema = .ok () ∧ toFloat reader schema.valueType read = .ok w := by
  unfold normalizeStoredValue
  cases hread : readText reader schema.valueType value with
  | error e => simp
  | ok read =>
    cases hvalid : validateValue reader read schema with
    | error e => simp [hvalid]
    | ok u => simp [hvalid]

theorem validate_eq_ok {schema : ParameterSchema} {value : Json} :
    validateValue reader value schema = .ok () ↔
      validType reader schema.valueType value = .ok true ∧ validChoice schema value = true ∧
        withinBounds schema value = true := by
  unfold validateValue
  cases hvalid : validType reader schema.valueType value with
  | error e => simp
  | ok valid =>
    cases valid <;> simp [Bool.and_eq_true]

/-- A value that has its type is a text, a truth value, a number or a list of texts. -/
inductive HasType : ValueType → Json → Prop where
  | string (s : String) : HasType .string (.str s)
  | integer (n : Int) : HasType .integer (.int n)
  | floatInt (n : Int) : HasType .float (.int n)
  | float (x : PyFloat) (h : x.toRat?.isSome = true) : HasType .float (.float x)
  | boolean (b : Bool) : HasType .boolean (.bool b)
  | stringList (items : List Json) (h : items.all isText = true) : HasType .stringList (.arr items)

theorem hasType_of_validType {valueType : ValueType} {value : Json}
    (h : validType reader valueType value = .ok true) : HasType valueType value := by
  unfold validType at h
  split at h
  · exact .string _
  · exact .integer _
  · exact .floatInt _
  · exact .float _ (by simpa using h)
  · exact .boolean _
  · exact .stringList _ (by simpa using h)
  · cases h

/-- Bounds under which every integer is a float. -/
def SmallBounds (schema : ParameterSchema) : Prop :=
  schema.choices = [] ∧ ∃ lo hi, schema.minimum = some lo ∧ schema.maximum = some hi ∧ 0 < lo ∧ hi ≤ 10000

theorem smallBounds_of_float : ∀ schema ∈ parameters, schema.valueType = .float →
    SmallBounds schema := by
  intro schema hschema hfloat
  simp only [parameters, List.mem_cons, List.not_mem_nil, or_false] at hschema
  rcases hschema with rfl | rfl | rfl | rfl | rfl | rfl | rfl | rfl | rfl | rfl | rfl
  · exact ⟨rfl, _, _, rfl, rfl, by norm_num, le_refl _⟩
  all_goals cases hfloat

/-- What passed the checks is normal once `float` was applied. -/
theorem toFloat_normal {schema : ParameterSchema} (hbounds : schema.valueType = .float → SmallBounds schema)
    {read w : Json} (hvalid : validateValue reader read schema = .ok ())
    (hfloat : toFloat reader schema.valueType read = .ok w) : Normal reader schema w := by
  obtain ⟨htype, hchoice, hwithin⟩ := validate_eq_ok.mp hvalid
  have hshape := hasType_of_validType htype
  rw [Normal, normalize_eq_ok]
  generalize hkind : schema.valueType = kind at hshape htype hfloat
  cases hshape with
  | floatInt n =>
    obtain ⟨hnoChoices, lo, hi, hmin, hmax, hlo, hhi⟩ := hbounds hkind
    simp only [withinBounds, Json.rat?, hmin, hmax, Option.all_some, Bool.and_eq_true,
      decide_eq_true_eq] at hwithin
    have hone : 1 ≤ n := by
      have : (0 : ℚ) < n := lt_of_lt_of_le hlo hwithin.1
      exact_mod_cast this
    have hten : n ≤ 10000 := by
      have : (n : ℚ) ≤ 10000 := hwithin.2.trans hhi
      exact_mod_cast this
    obtain ⟨x, hx, hrat⟩ := reader.ofInt_exact n hone hten
    simp only [toFloat, hx, Except.ok.injEq] at hfloat
    subst hfloat
    refine ⟨.float x, rfl, validate_eq_ok.mpr ⟨?_, ?_, ?_⟩, rfl⟩
    · rw [hkind, validType, hrat]
      rfl
    · simp [validChoice, hnoChoices]
    · simp only [withinBounds, Json.rat?, hrat, hmin, hmax, Option.all_some, Bool.and_eq_true,
        decide_eq_true_eq]
      exact hwithin
  | string s | integer n | float x h | boolean b | stringList items h =>
    obtain rfl : _ = w := by simpa [toFloat] using hfloat
    exact ⟨_, rfl, hvalid, rfl⟩

/-- What normalisation returns, it returns again. -/
theorem normal_of_normalize {schema : ParameterSchema} (hschema : schema ∈ parameters)
    {value w : Json} (h : normalizeStoredValue reader value schema = .ok w) : Normal reader schema w := by
  obtain ⟨read, -, hvalid, hfloat⟩ := normalize_eq_ok.mp h
  exact toFloat_normal (smallBounds_of_float schema hschema) hvalid hfloat

theorem normal_of_parseCliValue {jsonLoads : String → Option Json} {raw : String}
    {schema : ParameterSchema} {value : Json}
    (h : parseCliValue reader jsonLoads raw schema = .ok value) : Normal reader schema value := by
  unfold parseCliValue at h
  dsimp only at h
  split at h
  · cases h
  · rename_i read hread
    obtain ⟨_, hvalid, rfl⟩ := map_eq_ok.mp h
    refine normalize_eq_ok.mpr ⟨read, ?_, hvalid, ?_⟩
    all_goals
      cases hkind : schema.valueType with
      | stringList => rfl
      | string =>
        simp only [hkind, Option.some.injEq] at hread
        rw [← hread]
        rfl
      | integer =>
        simp only [hkind, Option.map_eq_some_iff] at hread
        obtain ⟨n, -, rfl⟩ := hread
        rfl
      | float =>
        simp only [hkind, Option.map_eq_some_iff] at hread
        obtain ⟨x, -, rfl⟩ := hread
        rfl
      | boolean =>
        simp only [hkind] at hread
        split at hread
        · cases hread
          rfl
        · split at hread
          · cases hread
            rfl
          · cases hread

theorem normal_default : ∀ schema ∈ parameters, Normal reader schema schema.default := by
  intro schema hschema
  simp only [parameters, List.mem_cons, List.not_mem_nil, or_false] at hschema
  have hhundred : PyFloat.toRat? ⟨"100.0", by decide⟩ = some 100 := by decide +kernel
  rcases hschema with rfl | rfl | rfl | rfl | rfl | rfl | rfl | rfl | rfl | rfl | rfl
  · refine normalize_eq_ok.mpr ⟨_, rfl, validate_eq_ok.mpr ⟨?_, rfl, ?_⟩, rfl⟩
    · rw [validType, hhundred]
      rfl
    · simp only [withinBounds, Json.rat?, hhundred]
      decide +kernel
  all_goals
    refine normalize_eq_ok.mpr ⟨_, rfl, validate_eq_ok.mpr ⟨?_, by decide +kernel, by decide +kernel⟩, rfl⟩
    exact congrArg Except.ok (by decide +kernel)

/-- A normal value equals itself, so it is no `NaN`. -/
theorem eqPy_self_of_normal {schema : ParameterSchema} {value : Json} (h : Normal reader schema value) :
    Json.eqPy value value = true := by
  obtain ⟨read, -, hvalid, hfloat⟩ := normalize_eq_ok.mp h
  have htype := (validate_eq_ok.mp hvalid).1
  have hshape := hasType_of_validType htype
  generalize schema.valueType = kind at hshape htype hfloat
  cases hshape with
  | floatInt n =>
    rw [validType] at htype
    rw [toFloat] at hfloat
    cases hx : reader.ofInt n with
    | none => simp [hx] at hfloat
    | some x =>
      simp only [hx, Except.ok.injEq] at htype hfloat
      rw [← hfloat]
      exact Json.eqPy_float_self htype
  | float x hx =>
    obtain rfl : _ = value := by simpa [toFloat] using hfloat
    exact Json.eqPy_float_self hx
  | string s =>
    obtain rfl : _ = value := by simpa [toFloat] using hfloat
    exact Json.eqPy_str_self s
  | integer n =>
    obtain rfl : _ = value := by simpa [toFloat] using hfloat
    exact Json.eqPy_int_self n
  | boolean b =>
    obtain rfl : _ = value := by simpa [toFloat] using hfloat
    exact Json.eqPy_bool_self b
  | stringList items hitems =>
    obtain rfl : _ = value := by simpa [toFloat] using hfloat
    rw [Json.eqPy]
    refine Json.eqItems_self fun v hv => ?_
    have htext := List.all_eq_true.mp hitems v hv
    cases v with
    | str s => exact Json.eqPy_str_self s
    | _ => cases htext

/-! ## 4. Whole floats -/

def wholeText (n : Nat) : List Char := natText n ++ ['.', '0']

theorem isDigit_of_mem_natText {n : Nat} {c : Char} (h : c ∈ natText n) : isDigit c = true :=
  List.all_eq_true.mp (natText_isDigit n) c h

theorem isFloatText_wholeText (n : Nat) :
    isFloatText (String.ofList (wholeText n)).toList = true := by
  rw [String.toList_ofList]
  have hall : (wholeText n).all (fun c => isDigit c || c == '.' || c == 'e' || c == '-' || c == '+') =
      true := by
    rw [wholeText, List.all_append, Bool.and_eq_true]
    refine ⟨List.all_eq_true.mpr fun c hc => ?_, by decide⟩
    simp [isDigit_of_mem_natText hc]
  have hany : (wholeText n).any (fun c => c == '.' || c == 'e') = true := by
    rw [wholeText, List.any_append, Bool.or_eq_true]
    exact .inr (by decide)
  have hhead : (wholeText n).head?.any (fun c => isDigit c || c == '-') = true := by
    obtain ⟨c, rest, hcons⟩ := List.exists_cons_of_ne_nil (natText_ne_nil n)
    have hc : isDigit c = true := isDigit_of_mem_natText (by rw [hcons]; exact List.mem_cons_self)
    rw [wholeText, hcons]
    simp [hc]
  simp [isFloatText, hall, hany, hhead]

/-- `float(n)` of a natural number small enough to be written out. -/
def wholeFloat (n : Nat) : PyFloat := ⟨String.ofList (wholeText n), isFloatText_wholeText n⟩

theorem toRat?_wholeFloat (n : Nat) : (wholeFloat n).toRat? = some (n : ℚ) := by
  obtain ⟨c, rest, hcons⟩ := List.exists_cons_of_ne_nil (natText_ne_nil n)
  have hc : isDigit c = true := isDigit_of_mem_natText (by rw [hcons]; exact List.mem_cons_self)
  have hhead : (wholeText n).head? = some c := by rw [wholeText, hcons]; rfl
  have hname : ∀ s : String, (s.toList.head?.any isDigit) = false → (wholeFloat n).text ≠ s := by
    rintro s hs rfl
    rw [wholeFloat, String.toList_ofList, hhead] at hs
    simp [hc] at hs
  have hminus : ∀ rest, (wholeFloat n).text.toList ≠ '-' :: rest := by
    intro rest h
    rw [wholeFloat, String.toList_ofList] at h
    rw [h] at hhead
    cases hhead
    exact absurd hc (by decide)
  have hnodot : ∀ d ∈ natText n, (d != '.') = true := by
    intro d hd
    rw [bne_iff_ne]
    rintro rfl
    exact absurd (isDigit_of_mem_natText hd) (by decide)
  have hnoe : ∀ d ∈ wholeText n, (d != 'e') = true := by
    intro d hd
    rw [bne_iff_ne]
    rintro rfl
    rcases List.mem_append.mp hd with hd | hd
    · exact absurd (isDigit_of_mem_natText hd) (by decide)
    · exact absurd hd (by decide)
  unfold PyFloat.toRat?
  rw [if_neg (by simp only [not_or]; exact ⟨hname _ (by decide), hname _ (by decide), hname _ (by decide)⟩)]
  split
  rename_i neg body hbody
  split at hbody
  · rename_i h
    exact absurd h (hminus _)
  · obtain ⟨rfl, rfl⟩ := Prod.mk.inj hbody
    have htext : (wholeFloat n).text.toList = wholeText n := String.toList_ofList
    have hwhole : (wholeText n).takeWhile (· != '.') = natText n := by
      rw [wholeText, List.takeWhile_append_of_pos hnodot]
      simp
    have hfraction : ((wholeText n).dropWhile (· != '.')).drop 1 = ['0'] := by
      rw [wholeText, List.dropWhile_append_of_pos hnodot]
      rfl
    have htake : (wholeText n).takeWhile (· != 'e') = wholeText n := List.takeWhile_eq_self_iff.mpr hnoe
    have hdrop : ((wholeText n).dropWhile (· != 'e')).drop 1 = [] := by
      rw [List.dropWhile_eq_nil_iff.mpr hnoe]
      rfl
    have hvalue : digitsValue (natText n ++ ['0']) = 10 * n := by
      rw [digitsValue, List.foldl_append, ← digitsValue, digitsValue_natText]
      rfl
    simp only [htext, htake, hdrop, hwhole, hfraction, hvalue]
    norm_num [digitsValue]
/-- A reader that takes a text as it is and writes integers out. -/
def plainReader : FloatReader where
  ofText text := if h : isFloatText text.toList = true then some ⟨text, h⟩ else none
  ofInt n := some (wholeFloat n.natAbs)
  ofInt_exact n hone _ := by
    refine ⟨_, rfl, ?_⟩
    rw [toRat?_wholeFloat, Option.some.injEq]
    have hcast : ((n.natAbs : ℤ) : ℚ) = (n : ℚ) := by rw [Int.natAbs_of_nonneg (by omega)]
    rw [← hcast]
    rfl

end EccFe.Cli.Project
