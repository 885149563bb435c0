/-
EccFe.Python.Json — the values `json.load` returns, as Python handles them.

`Json` keeps the distinctions Python makes and JSON text does not always show:
`1`, `1.0` and `true` are three different values, and `bool` is not `int` even
though `isinstance(True, int)` holds. A `float` is identified with the text
`float.__repr__` prints for it, which is what Python itself uses to tell two
floats apart when it writes them back; `PyFloat.toRat?` reads the number off.

A `dict` is the list of its items in insertion order. The operations below are
the ones the flow, provenance and quality code use on it: `get`, item
assignment, `pop`, `update` and `key in d`.
-/
import EccFe.Python.Text
import Mathlib.Data.Nat.Digits.Defs
import Mathlib.Data.Rat.Defs

namespace EccFe.Python

/-! ## 1. Numbers -/

/-- The texts `json.dumps` writes for a float: the three special names, or
digits with a point or an exponent. -/
def isFloatText (cs : List Char) : Bool :=
  cs == "NaN".toList || cs == "Infinity".toList || cs == "-Infinity".toList ||
    (cs.all (fun c => isDigit c || c == '.' || c == 'e' || c == '-' || c == '+') &&
      cs.any (fun c => c == '.' || c == 'e') &&
      cs.head?.any (fun c => isDigit c || c == '-'))

structure PyFloat where
  text : String
  valid : isFloatText text.toList = true
  deriving DecidableEq

def digitValue (c : Char) : Nat := c.toNat - '0'.toNat

/-- Decimal digits read as a number. -/
def digitsValue (cs : List Char) : Nat := cs.foldl (fun n c => 10 * n + digitValue c) 0

/-- The finite value of a float text, `none` for `NaN` and the infinities. -/
def PyFloat.toRat? (x : PyFloat) : Option ℚ :=
  if x.text = "NaN" ∨ x.text = "Infinity" ∨ x.text = "-Infinity" then none
  else
    let (neg, body) := match x.text.toList with
      | '-' :: rest => (true, rest)
      | cs => (false, cs)
    let mantissa := body.takeWhile (· != 'e')
    let exponent := (body.dropWhile (· != 'e')).drop 1
    let whole := mantissa.takeWhile (· != '.')
    let fraction := (mantissa.dropWhile (· != '.')).drop 1
    let magnitude : ℚ := digitsValue (whole ++ fraction) / 10 ^ fraction.length
    let scale : ℚ := match exponent with
      | '-' :: ds => 1 / 10 ^ digitsValue ds
      | '+' :: ds => 10 ^ digitsValue ds
      | ds => 10 ^ digitsValue ds
    some (if neg then -(magnitude * scale) else magnitude * scale)

/-- `str(n)` for a natural number. -/
def natText (n : Nat) : List Char :=
  if n = 0 then ['0'] else (Nat.digits 10 n).reverse.map fun d => Char.ofNat (d + 48)

/-- `str(n)` for an integer. -/
def intText (n : Int) : List Char :=
  if n < 0 then '-' :: natText n.natAbs else natText n.natAbs

/-! ## 2. Values -/

inductive Json where
  | null
  | bool (b : Bool)
  | int (n : Int)
  | float (x : PyFloat)
  | str (s : String)
  | arr (items : List Json)
  | obj (fields : List (String × Json))

mutual

/-- Structural equality: a dict equals a dict with the same items in the same order. -/
def Json.same : Json → Json → Bool
  | .null, .null => true
  | .bool a, .bool b => a == b
  | .int a, .int b => a == b
  | .float a, .float b => a == b
  | .str a, .str b => a == b
  | .arr a, .arr b => Json.sameItems a b
  | .obj a, .obj b => Json.sameFields a b
  | _, _ => false

def Json.sameItems : List Json → List Json → Bool
  | [], [] => true
  | a :: as, b :: bs => Json.same a b && Json.sameItems as bs
  | _, _ => false

def Json.sameFields : List (String × Json) → List (String × Json) → Bool
  | [], [] => true
  | (k, a) :: as, (l, b) :: bs => k == l && Json.same a b && Json.sameFields as bs
  | _, _ => false

end

mutual

theorem Json.same_iff : ∀ a b : Json, Json.same a b = true ↔ a = b
  | .null, b => by cases b <;> simp [Json.same]
  | .bool _, b => by cases b <;> simp [Json.same]
  | .int _, b => by cases b <;> simp [Json.same]
  | .float _, b => by cases b <;> simp [Json.same]
  | .str _, b => by cases b <;> simp [Json.same]
  | .arr items, b => by
      cases b with
      | arr other => simpa [Json.same] using Json.sameItems_iff items other
      | _ => simp [Json.same]
  | .obj fields, b => by
      cases b with
      | obj other => simpa [Json.same] using Json.sameFields_iff fields other
      | _ => simp [Json.same]

theorem Json.sameItems_iff : ∀ as bs : List Json, Json.sameItems as bs = true ↔ as = bs
  | [], bs => by cases bs <;> simp [Json.sameItems]
  | a :: as, [] => by simp [Json.sameItems]
  | a :: as, b :: bs => by
      simp [Json.sameItems, Json.same_iff a b, Json.sameItems_iff as bs]

theorem Json.sameFields_iff :
    ∀ as bs : List (String × Json), Json.sameFields as bs = true ↔ as = bs
  | [], bs => by cases bs <;> simp [Json.sameFields]
  | (k, a) :: as, [] => by simp [Json.sameFields]
  | (k, a) :: as, (l, b) :: bs => by
      simp [Json.sameFields, Json.same_iff a b, Json.sameFields_iff as bs]

end

instance : DecidableEq Json := fun a b => decidable_of_iff (Json.same a b = true) (Json.same_iff a b)

/-- A Python `dict` with `str` keys, items in insertion order. -/
abbrev Dict := List (String × Json)

namespace Dict

/-- `d.get(key)`: `none` when the key is absent. -/
def get (d : Dict) (key : String) : Option Json :=
  match d with
  | [] => none
  | (k, v) :: rest => if k = key then some v else get rest key

/-- `d.get(key, default)`. -/
def getD (d : Dict) (key : String) (default : Json) : Json := (d.get key).getD default

/-- `key in d`. -/
def has (d : Dict) (key : String) : Bool := (d.get key).isSome

/-- `d[key] = value`: a present key keeps its place, a new one goes last. -/
def set (d : Dict) (key : String) (value : Json) : Dict :=
  match d with
  | [] => [(key, value)]
  | (k, v) :: rest => if k = key then (k, value) :: rest else (k, v) :: set rest key value

def pop (d : Dict) (key : String) : Dict := d.filter fun kv => kv.1 ≠ key

def update (d : Dict) (items : Dict) : Dict := items.foldl (fun d kv => d.set kv.1 kv.2) d

def keys (d : Dict) : List String := d.map (·.1)

@[simp] theorem get_nil (key : String) : get [] key = none := rfl

theorem get_cons (k key : String) (v : Json) (rest : Dict) :
    get ((k, v) :: rest) key = if k = key then some v else get rest key := rfl

theorem set_cons (k key : String) (v value : Json) (rest : Dict) :
    set ((k, v) :: rest) key value =
      if k = key then (k, value) :: rest else (k, v) :: set rest key value := rfl

@[simp] theorem get_set_self (d : Dict) (key : String) (value : Json) :
    (d.set key value).get key = some value := by
  induction d with
  | nil => exact (get_cons key key value []).trans (if_pos rfl)
  | cons kv rest ih =>
    obtain ⟨k, v⟩ := kv
    rw [set_cons]
    by_cases h : k = key
    · rw [if_pos h, get_cons, if_pos h]
    · rw [if_neg h, get_cons, if_neg h, ih]

theorem get_set_ne (d : Dict) {key other : String} (value : Json) (h : key ≠ other) :
    (d.set key value).get other = d.get other := by
  induction d with
  | nil => exact (get_cons key other value []).trans (if_neg h)
  | cons kv rest ih =>
    obtain ⟨k, v⟩ := kv
    rw [set_cons, get_cons]
    by_cases hk : k = key
    · subst hk
      rw [if_pos rfl, get_cons, if_neg h, if_neg h]
    · rw [if_neg hk, get_cons, ih]

@[simp] theorem get_pop_self (d : Dict) (key : String) : (d.pop key).get key = none := by
  induction d with
  | nil => rfl
  | cons kv rest ih =>
    obtain ⟨k, v⟩ := kv
    simp only [pop, List.filter_cons] at ih ⊢
    split
    · rename_i h
      rw [get_cons, if_neg (of_decide_eq_true h), ih]
    · exact ih

theorem get_pop_ne (d : Dict) {key other : String} (h : key ≠ other) :
    (d.pop key).get other = d.get other := by
  induction d with
  | nil => rfl
  | cons kv rest ih =>
    obtain ⟨k, v⟩ := kv
    rw [pop] at ih
    rw [pop, List.filter_cons, get_cons]
    split
    · rw [get_cons, ih]
    · rename_i hk
      have hkey : k = key := by simpa using hk
      rw [ih, if_neg (by rw [hkey]; exact h)]

/-- A key the second dict does not have is read from the first. -/
theorem get_update_of_get_none (d items : Dict) (key : String) (h : items.get key = none) :
    (d.update items).get key = d.get key := by
  induction items generalizing d with
  | nil => rfl
  | cons kv rest ih =>
    obtain ⟨k, v⟩ := kv
    rw [get_cons] at h
    split at h
    · cases h
    · rename_i hk
      rw [update, List.foldl_cons, ← update, ih _ h, get_set_ne _ _ hk]

theorem get_eq_none_of_not_mem (d : Dict) (key : String) (h : key ∉ d.keys) :
    d.get key = none := by
  induction d with
  | nil => rfl
  | cons kv rest ih =>
    obtain ⟨k, v⟩ := kv
    simp only [keys, List.map_cons, List.mem_cons, not_or] at h
    rw [get_cons, if_neg (Ne.symm h.1), ih h.2]

theorem mem_of_get {d : Dict} {key : String} {value : Json} (h : d.get key = some value) :
    (key, value) ∈ d := by
  induction d with
  | nil => cases h
  | cons kv rest ih =>
    obtain ⟨k, v⟩ := kv
    rw [get_cons] at h
    split at h
    · rename_i hk
      cases h
      rw [hk]
      exact List.mem_cons_self
    · exact List.mem_cons_of_mem _ (ih h)

theorem mem_keys_iff {d : Dict} {key : String} : key ∈ d.keys ↔ ∃ value, d.get key = some value := by
  induction d with
  | nil => simp [keys]
  | cons kv rest ih =>
    obtain ⟨k, v⟩ := kv
    rw [keys, List.map_cons, List.mem_cons, get_cons, ← keys]
    by_cases h : k = key
    · simp [h]
    · rw [if_neg h, ← ih]
      simp [Ne.symm h]

/-- With distinct keys every item is found under its key. -/
theorem get_of_mem {d : Dict} (hnodup : d.keys.Nodup) {key : String} {value : Json}
    (h : (key, value) ∈ d) : d.get key = some value := by
  induction d with
  | nil => simp at h
  | cons kv rest ih =>
    rw [keys, List.map_cons, List.nodup_cons] at hnodup
    rcases List.mem_cons.mp h with rfl | hrest
    · rw [get_cons, if_pos rfl]
    · have hne : kv.1 ≠ key := fun he => hnodup.1 (List.mem_map.mpr ⟨_, hrest, he.symm⟩)
      rw [get_cons, if_neg hne]
      exact ih hnodup.2 hrest

/-- A key the second dict has once is read from it. -/
theorem get_update_of_get_some (d items : Dict) (key : String) (value : Json)
    (hnodup : items.keys.Nodup) (h : items.get key = some value) :
    (d.update items).get key = some value := by
  induction items generalizing d with
  | nil => cases h
  | cons kv rest ih =>
    obtain ⟨k, v⟩ := kv
    rw [keys, List.map_cons, List.nodup_cons] at hnodup
    rw [get_cons] at h
    rw [update, List.foldl_cons, ← update]
    split at h
    · rename_i hk
      cases h
      rw [get_update_of_get_none _ _ _ (get_eq_none_of_not_mem rest key (hk ▸ hnodup.1)), hk,
        get_set_self]
    · exact ih _ hnodup.2 h

/-- What `update` leaves under a key, for items with distinct keys. -/
theorem get_update (d : Dict) {items : Dict} (hnodup : items.keys.Nodup) (key : String) :
    (d.update items).get key = (items.get key).or (d.get key) := by
  cases h : items.get key with
  | none => rw [get_update_of_get_none d items key h, Option.none_or]
  | some value => rw [get_update_of_get_some d items key value hnodup h, Option.some_or]

theorem keys_set (d : Dict) (key : String) (value : Json) :
    (d.set key value).keys = if key ∈ d.keys then d.keys else d.keys ++ [key] := by
  induction d with
  | nil => exact (if_neg List.not_mem_nil).symm
  | cons kv rest ih =>
    obtain ⟨k, v⟩ := kv
    rw [keys] at ih
    by_cases hk : k = key
    · simp [set_cons, keys, hk]
    · have hne : ¬key = k := fun h => hk h.symm
      simp only [set_cons, keys, hk, if_false, List.map_cons, ih, List.mem_cons, hne, false_or]
      split <;> simp [*]

theorem nodup_keys_set (d : Dict) (key : String) (value : Json) (h : d.keys.Nodup) :
    (d.set key value).keys.Nodup := by
  rw [keys_set]
  split
  · exact h
  · rename_i hkey
    rw [List.nodup_append]
    refine ⟨h, by simp, fun k hk other hother => ?_⟩
    rw [List.mem_singleton.mp hother]
    exact fun heq => hkey (heq ▸ hk)

theorem nodup_keys_update (items : Dict) : ∀ d : Dict, d.keys.Nodup → (d.update items).keys.Nodup := by
  induction items with
  | nil => exact fun _ h => h
  | cons kv rest ih => exact fun d h => ih _ (nodup_keys_set d kv.1 kv.2 h)

/-- Items under keys the dict has leave the keys as they are. -/
theorem keys_update_of_subset (items : Dict) : ∀ d : Dict, items.keys ⊆ d.keys →
    (d.update items).keys = d.keys := by
  induction items with
  | nil => exact fun _ _ => rfl
  | cons kv rest ih =>
    intro d hsub
    have hkey : (d.set kv.1 kv.2).keys = d.keys := by
      rw [keys_set, if_pos (hsub (by simp [keys]))]
    have hrest : keys rest ⊆ (d.set kv.1 kv.2).keys := by
      rw [hkey]
      exact fun key hmem => hsub (List.mem_cons_of_mem _ hmem)
    rw [update, List.foldl_cons, ← update, ih _ hrest, hkey]

/-- The keys of a dict after an update depend on the two key lists alone. -/
theorem keys_update_congr {items items' : Dict} (h : items.keys = items'.keys) :
    ∀ d d' : Dict, d.keys = d'.keys → (d.update items).keys = (d'.update items').keys := by
  induction items generalizing items' with
  | nil =>
    cases items' with
    | nil => exact fun _ _ hd => hd
    | cons _ _ => simp [keys] at h
  | cons kv rest ih =>
    cases items' with
    | nil => simp [keys] at h
    | cons kv' rest' =>
      intro d d' hd
      simp only [keys, List.map_cons, List.cons.injEq] at h
      rw [update, update, List.foldl_cons, List.foldl_cons]
      refine ih h.2 _ _ ?_
      rw [keys_set, keys_set, hd, h.1]

end Dict

namespace Json

/-! ## 3. Type tests and coercions -/

/-- `bool(value)`. -/
def truthy : Json → Bool
  | null => false
  | bool b => b
  | int n => n != 0
  | float x => x.toRat? != some 0
  | str s => s != ""
  | arr items => !items.isEmpty
  | obj fields => !fields.isEmpty

/-- `value if isinstance(value, dict) else {}`. -/
def asDict : Json → Dict
  | obj fields => fields
  | _ => []

/-- `isinstance(value, dict)`. -/
def isDict : Json → Bool
  | obj _ => true
  | _ => false

/-- How `repr` writes one character of a string delimited by `'`. Every character
from U+00A1 on counts as printable. -/
def reprChar (c : Char) : List Char :=
  if c == '\\' then ['\\', '\\']
  else if c == '\n' then ['\\', 'n']
  else if c == '\r' then ['\\', 'r']
  else if c == '\t' then ['\\', 't']
  else if c.toNat < 32 || (127 ≤ c.toNat && c.toNat ≤ 160) then
    ['\\', 'x', Nat.digitChar (c.toNat / 16), Nat.digitChar (c.toNat % 16)]
  else [c]

/-- `repr(s)`: single quotes unless the text has a `'` and no `"`. -/
def reprText (s : String) : List Char :=
  let cs := s.toList
  if cs.contains '\'' && !cs.contains '"' then '"' :: cs.flatMap reprChar ++ ['"']
  else
    '\'' :: cs.flatMap (fun c => if c == '\'' then ['\\', '\''] else reprChar c) ++ ['\'']

mutual

def repr : Json → List Char
  | null => "None".toList
  | bool true => "True".toList
  | bool false => "False".toList
  | int n => intText n
  | float x =>
      if x.text = "NaN" then "nan".toList
      else if x.text = "Infinity" then "inf".toList
      else if x.text = "-Infinity" then "-inf".toList
      else x.text.toList
  | str s => reprText s
  | arr items => '[' :: reprItems items ++ [']']
  | obj fields => '{' :: reprFields fields ++ ['}']

def reprItems : List Json → List Char
  | [] => []
  | [v] => repr v
  | v :: rest => repr v ++ ", ".toList ++ reprItems rest

def reprFields : List (String × Json) → List Char
  | [] => []
  | [(k, v)] => reprText k ++ ": ".toList ++ repr v
  | (k, v) :: rest => reprText k ++ ": ".toList ++ repr v ++ ", ".toList ++ reprFields rest

end

/-- `str(value)`. -/
def pyStr : Json → String
  | str s => s
  | v => String.ofList (repr v)

/-- `str(value or "")`. -/
def textOrEmpty (v : Json) : String := if v.truthy then v.pyStr else ""

/-- The items of a list value; a step workspace keeps its lists as lists. -/
def items : Json → List Json
  | arr items => items
  | _ => []

/-- `value is True`. -/
def isTrue (v : Json) : Bool := v == bool true

@[simp] theorem pyStr_str (s : String) : (str s).pyStr = s := rfl

@[simp] theorem textOrEmpty_str (s : String) : (str s).textOrEmpty = s := by
  by_cases h : s = "" <;> simp [textOrEmpty, truthy, h]

end Json

namespace Dict

/-- `str(d.get(key, ""))`. -/
def textAt (d : Dict) (key : String) : String := (d.getD key (.str "")).pyStr

/-- `str(d.get(key) or "")`. -/
def textOrEmptyAt (d : Dict) (key : String) : String := (d.getD key .null).textOrEmpty

/-- `d.get(key)` read as a dict, `{}` when it is not one. -/
def dictAt (d : Dict) (key : String) : Dict := (d.getD key .null).asDict

end Dict

example : (Json.arr [.int (-12), .str "it's", .bool true]).pyStr = "[-12, \"it's\", True]" := by
  decide

end EccFe.Python
