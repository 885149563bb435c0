/-
EccFe.Analysis.RegressionReport — the regression record a simulation run writes, against the check
that reads it.

The lists of names always pass: both sides take the last case of a name. A change of the cycle count
passes when the count of the previous run is not negative and the percentage is finite
(`simulationRegression_accepted`); nothing in the step checks the counts of the file it reads, and
the quotient of two integers can be too large for a float.
-/
import EccFe.Analysis.Acceptance
import EccFe.Analysis.SimulationScore
import EccFe.Tools.Verilator.Regression
import Mathlib.Data.List.Find
import Mathlib.Data.List.ReduceOption

namespace EccFe.Analysis

open Python Tools.Verilator Tools.ToolLog

/-! ## 1. Current cases -/

/-- What the checks read of a case is as `_run_simulate` writes it. -/
structure CurrentCase (item : Dict) : Prop where
  named : ∃ name, item.getD "name" .null = .str name ∧ name ≠ ""
  verdict : ∃ b, item.getD "ok" .null = .bool b
  image : ∃ image, item.getD "image_sha256" .null = .str image ∧
    (image = "" ∨ isSha256Text image = true)
  cycles : ∀ n, caseCycles item = some n → 0 ≤ n

theorem getD_of_getD {d : Dict} {key : String} {value default : Json}
    (h : d.getD key .null = value) (hne : value ≠ .null) : d.getD key default = value := by
  unfold Dict.getD at h ⊢
  cases hget : d.get key with
  | none =>
    rw [hget] at h
    exact absurd h.symm hne
  | some v =>
    rw [hget] at h
    exact h

namespace CurrentCase

variable {item : Dict} (h : CurrentCase item)

include h

theorem caseName_eq : caseName item = item.textAt "name" ∧ caseName item ≠ "" := by
  obtain ⟨name, hname, hne⟩ := h.named
  have htext : item.textAt "name" = name := by
    rw [Dict.textAt, getD_of_getD hname (by simp), Json.pyStr_str]
  rw [htext, caseName, hname]
  exact ⟨rfl, hne⟩

theorem casePassed_eq : item.getD "ok" .null = .bool (casePassed item) := by
  obtain ⟨b, hb⟩ := h.verdict
  rw [casePassed, hb]
  rfl

theorem image_eq : item.getD "image_sha256" .null = .str (item.textAt "image_sha256") ∧
    (item.textAt "image_sha256" ≠ "" → isSha256Text (item.textAt "image_sha256") = true) := by
  obtain ⟨image, himage, hvalid⟩ := h.image
  have htext : item.textAt "image_sha256" = image := by
    rw [Dict.textAt, getD_of_getD himage (by simp), Json.pyStr_str]
  rw [htext, himage]
  exact ⟨rfl, fun hne => hvalid.resolve_left hne⟩

end CurrentCase

section

variable {current : List Dict}

/-- The check looks a case up as the step does. -/
theorem caseNamed?_eq_named? (hcurrent : ∀ item ∈ current, CurrentCase item) (name : String) :
    caseNamed? current name = named? current name := by
  unfold caseNamed? named?
  split
  · rename_i hempty
    rw [List.find?_eq_none]
    intro item hitem
    obtain ⟨-, hne⟩ := (hcurrent item (List.mem_reverse.mp hitem)).caseName_eq
    rw [hempty, beq_iff_eq]
    exact hne
  · refine List.find?_congr fun item hitem => ?_
    rw [(hcurrent item (List.mem_reverse.mp hitem)).caseName_eq.1]

theorem mem_names_of_named? (hcurrent : ∀ item ∈ current, CurrentCase item) {name : String}
    {item : Dict} (h : named? current name = some item) : name ∈ current.map caseName := by
  obtain ⟨hmem, hname, -⟩ := of_named? h
  exact List.mem_map.mpr ⟨item, hmem, (hcurrent item hmem).caseName_eq.1.trans hname⟩

theorem mem_failedNames (hcurrent : ∀ item ∈ current, CurrentCase item) {name : String} :
    name ∈ failedNames current ↔
      ∃ item, named? current name = some item ∧ casePassed item = false := by
  rw [failedNames, List.mem_filter, caseNamed?_eq_named? hcurrent, Option.any_eq_true]
  constructor
  · intro h
    obtain ⟨-, item, hitem, hok⟩ := h
    rw [(hcurrent item (of_named? hitem).1).casePassed_eq] at hok
    exact ⟨item, hitem, by simpa using hok⟩
  · intro h
    obtain ⟨item, hitem, hfailed⟩ := h
    refine ⟨mem_names_of_named? hcurrent hitem, item, hitem, ?_⟩
    rw [(hcurrent item (of_named? hitem).1).casePassed_eq, hfailed]
    exact beq_self_eq_true _

theorem mem_passedNames (hcurrent : ∀ item ∈ current, CurrentCase item) {name : String}
    {item : Dict} (hitem : named? current name = some item) (hpassed : casePassed item = true) :
    name ∈ passedNames current := by
  rw [passedNames, List.mem_filter]
  refine ⟨mem_names_of_named? hcurrent hitem, ?_⟩
  have hnot : name ∉ failedNames current := by
    intro hfailed
    obtain ⟨other, hother, hfalse⟩ := (mem_failedNames hcurrent).mp hfailed
    rw [hitem] at hother
    cases hother
    rw [hpassed] at hfalse
    cases hfalse
  simpa using hnot

end

/-! ## 2. The lists of names -/

theorem names?_textList {names : List String} (hne : ∀ name ∈ names, name ≠ "")
    (hnodup : names.Nodup) : names? (textList names) = some names := by
  rw [names?, allTexts?_textList, Option.bind_some, if_pos]
  simpa [hnodup] using hne

theorem names?_namesWhere (cases : List Dict) (p : String → Dict → Bool) :
    names? (textList (namesWhere cases p)) = some (namesWhere cases p) :=
  names?_textList (fun _ h => ne_empty_of_mem_namesWhere h) (nodup_namesWhere cases p)

section

variable {F : FloatModel} {repr : Option ℚ → PyFloat} {previous : Dict} {current : List Dict}
  {r : Regression}

/-- A record is read back as it was written. -/
theorem regression?_regressionDict (h : simulationRegression F repr previous current = .ok r) :
    regression? (.obj (regressionDict r)) = some r := by
  have hchanges : allRecords? (.arr (r.cycleChanges.map .obj)) = some r.cycleChanges :=
    allRecords?_eq_some.mpr rfl
  by_cases hprevious : previous = []
  · subst hprevious
    cases h
    rfl
  · obtain ⟨changes, -, hr⟩ := simulationRegression_eq hprevious h
    have hnames : ∀ names ∈ [r.newFailures, r.persistentFailures, r.fixed, r.added, r.removed],
        names? (textList names) = some names := by
      rw [hr]
      simp [names?_namesWhere]
    simp only [List.forall_mem_cons] at hnames
    obtain ⟨hnew, hpersistent, hfixed, hadded, hremoved, -⟩ := hnames
    simp [regression?, regressionDict, Json.isDict, Json.asDict, Dict.getD, Dict.get, booleanAt?,
      boolean?, text?, hnew, hpersistent, hfixed, hadded, hremoved, hchanges]

/-- The lists of names fit the current cases. -/
theorem setsAgree_of_build (hcurrent : ∀ item ∈ current, CurrentCase item)
    (h : simulationRegression F repr previous current = .ok r) : r.setsAgree current = true := by
  by_cases hprevious : previous = []
  · subst hprevious
    cases h
    rfl
  obtain ⟨changes, -, rfl⟩ := simulationRegression_eq hprevious h
  generalize records (previous.getD "cases" .null) = before
  simp only [Regression.setsAgree, Bool.and_eq_true, Bool.or_eq_true, List.all_eq_true, sameNames,
    Bool.not_true, Bool.false_eq_true, false_or, List.contains_iff_mem, List.mem_append]
  refine ⟨⟨⟨⟨?_, ?_⟩, ?_⟩, ?_⟩, ?_⟩
  · intro name hname
    rw [mem_failedNames hcurrent]
    obtain hnew | hpersistent := hname
    · obtain ⟨item, hitem, hp⟩ := mem_namesWhere.mp hnew
      exact ⟨item, hitem, (Bool.not_eq_true' _).mp (Bool.and_eq_true _ _ ▸ hp).1⟩
    · obtain ⟨item, hitem, hp⟩ := mem_namesWhere.mp hpersistent
      exact ⟨item, hitem, (Bool.not_eq_true' _).mp (Bool.and_eq_true _ _ ▸ hp).1⟩
  · intro name hname
    obtain ⟨item, hitem, hfailed⟩ := (mem_failedNames hcurrent).mp hname
    rw [mem_namesWhere, mem_namesWhere]
    cases hbefore : named? before name with
    | none => exact .inl ⟨item, hitem, by simp [hfailed]⟩
    | some old =>
      cases hold : casePassed old with
      | true => exact .inl ⟨item, hitem, by simp [hfailed, hold]⟩
      | false => exact .inr ⟨item, hitem, by simp [hfailed, hold]⟩
  · intro name hname
    obtain ⟨item, hitem, hp⟩ := mem_namesWhere.mp hname
    rw [Bool.not_eq_true', ← Bool.not_eq_true, List.contains_iff_mem, mem_namesWhere]
    intro hpersistent
    obtain ⟨other, -, hother⟩ := hpersistent
    cases hbefore : named? before name with
    | none => simp [hbefore] at hother
    | some old =>
      rw [hbefore] at hp hother
      cases hold : casePassed old <;> simp [hold] at hp hother
  · intro name hname
    obtain ⟨item, hitem, hp⟩ := mem_namesWhere.mp hname
    exact mem_passedNames hcurrent hitem (Bool.and_eq_true _ _ ▸ hp).1
  · intro name hname
    obtain ⟨item, hitem, -⟩ := mem_namesWhere.mp hname
    exact mem_names_of_named? hcurrent hitem

end

/-! ## 3. The changes of the cycle counts -/

/-- A case of both runs with one image and a cycle count in each. -/
structure Comparable (before current : List Dict) (name : String) (previous cycles : Int)
    (old new : Dict) : Prop where
  namedBefore : named? before name = some old
  namedNow : named? current name = some new
  image : new.textAt "image_sha256" ≠ "" ∧
    new.textAt "image_sha256" = old.textAt "image_sha256"
  cyclesBefore : caseCycles old = some previous
  cyclesNow : caseCycles new = some cycles

theorem Comparable.unique {before current : List Dict} {name : String} {previous cycles : Int}
    {old new : Dict} (h : Comparable before current name previous cycles old new)
    {previous' cycles' : Int} {old' new' : Dict}
    (h' : Comparable before current name previous' cycles' old' new') :
    previous = previous' ∧ cycles = cycles' := by
  have hold := h.namedBefore.symm.trans h'.namedBefore
  have hnew := h.namedNow.symm.trans h'.namedNow
  cases hold
  cases hnew
  exact ⟨Option.some.inj (h.cyclesBefore.symm.trans h'.cyclesBefore),
    Option.some.inj (h.cyclesNow.symm.trans h'.cyclesNow)⟩

/-- The entry of a comparable case. -/
def changeEntry (name image : String) (previous cycles : Int) (percent : Json) : Dict :=
  [("name", .str name), ("image_sha256", .str image), ("previous", .int previous),
    ("current", .int cycles), ("delta", .int (cycles - previous)), ("delta_percent", percent)]

section

variable {F : FloatModel} {repr : Option ℚ → PyFloat} {before current : List Dict} {name : String}

/-- A name has an entry exactly when its cases can be compared. -/
theorem cycleChangeOf_cases (F : FloatModel) (repr : Option ℚ → PyFloat) (before current : List Dict)
    (name : String) :
    ((∀ previous cycles old new, ¬Comparable before current name previous cycles old new) ∧
      cycleChangeOf F repr before current name = .ok none) ∨
    ∃ previous cycles old new, Comparable before current name previous cycles old new ∧
      cycleChangeOf F repr before current name = (F.percent? previous cycles).map fun percent =>
        some (changeEntry name (new.textAt "image_sha256") previous cycles
          (percentJson repr percent)) := by
  unfold cycleChangeOf
  cases hold : named? before name with
  | none =>
    refine .inl ⟨fun _ _ _ _ h => ?_, rfl⟩
    rw [h.namedBefore] at hold
    cases hold
  | some old =>
    cases hnew : named? current name with
    | none =>
      refine .inl ⟨fun _ _ _ _ h => ?_, rfl⟩
      rw [h.namedNow] at hnew
      cases hnew
    | some new =>
      dsimp only
      by_cases himage : new.textAt "image_sha256" = "" ∨
          new.textAt "image_sha256" ≠ old.textAt "image_sha256"
      · rw [if_pos himage]
        refine .inl ⟨fun _ _ _ _ h => ?_, rfl⟩
        have hold' := hold.symm.trans h.namedBefore
        have hnew' := hnew.symm.trans h.namedNow
        cases hold'
        cases hnew'
        obtain hempty | hne := himage
        · exact h.image.1 hempty
        · exact hne h.image.2
      · rw [if_neg himage]
        rw [not_or, ne_eq, not_not] at himage
        cases hprevious : caseCycles old with
        | none =>
          refine .inl ⟨fun _ _ _ _ h => ?_, rfl⟩
          have hold' := hold.symm.trans h.namedBefore
          cases hold'
          rw [h.cyclesBefore] at hprevious
          cases hprevious
        | some previous =>
          cases hcycles : caseCycles new with
          | none =>
            refine .inl ⟨fun _ _ _ _ h => ?_, rfl⟩
            have hnew' := hnew.symm.trans h.namedNow
            cases hnew'
            rw [h.cyclesNow] at hcycles
            cases hcycles
          | some cycles =>
            refine .inr ⟨previous, cycles, old, new, ⟨hold, hnew, himage, hprevious, hcycles⟩, ?_⟩
            dsimp only
            generalize F.percent? previous cycles = percent
            cases percent <;> rfl

theorem eq_int_of_integer? {v : Json} {n : Int} (h : integer? v = some n) : v = .int n := by
  cases v with
  | int m =>
    cases h
    rfl
  | _ => cases h

/-- The numbers of an entry agree, unless the percentage is infinite. -/
theorem agrees_entry {item : Dict} {previous cycles : Int} {percent : Option (Option ℚ)}
    (hprevious : 0 ≤ previous) (hcycles : 0 ≤ cycles)
    (hmetric : (item.dictAt "metrics").getD "cycles" .null = .int cycles)
    (hpercent : F.percent? previous cycles = .ok percent)
    (hrepr : ∀ q, percent = some (some q) → F.floatValue? (repr (some q)) = some q) :
    CycleChange.agrees F ⟨item, previous.toNat, cycles.toNat, cycles - previous,
      percentJson repr percent⟩ = .ok (decide (percent ≠ some none)) := by
  have hdelta : (equalsInt (Json.int cycles) cycles) = true := by simp [equalsInt]
  simp only [CycleChange.agrees, Int.toNat_of_nonneg hprevious, Int.toNat_of_nonneg hcycles, hpercent,
    hmetric, hdelta, bind, Except.bind, Bool.not_true, Bool.false_or, bne_self_eq_false,
    Bool.false_eq_true, if_false]
  cases percent with
  | none => rfl
  | some finite =>
    cases finite with
    | none =>
      simp only [percentAgrees, percentJson, FloatModel.number?, bind, Except.bind]
      cases F.floatValue? (repr none) <;> rfl
    | some q =>
      simp [percentAgrees, percentJson, FloatModel.number?, hrepr q rfl, FloatModel.isClose_self, bind,
        Except.bind, pure, Except.pure]

/-- The check of an entry stops at a count below zero and at an infinite percentage. -/
theorem changesAgree_entry {previous cycles : Int} {old new : Dict} {percent : Option (Option ℚ)}
    {seen : List String} {rest : List Dict} (hcurrent : ∀ item ∈ current, CurrentCase item)
    (h : Comparable before current name previous cycles old new) (hseen : name ∉ seen)
    (hpercent : F.percent? previous cycles = .ok percent)
    (hrepr : ∀ q, percent = some (some q) → F.floatValue? (repr (some q)) = some q) :
    changesAgree F current seen (changeEntry name (new.textAt "image_sha256") previous cycles
        (percentJson repr percent) :: rest) = .ok true ↔
      0 ≤ previous ∧ percent ≠ some none ∧
        changesAgree F current (seen ++ [name]) rest = .ok true := by
  have hitem : caseNamed? current name = some new :=
    (caseNamed?_eq_named? hcurrent name).trans h.namedNow
  have hcase := hcurrent new (of_named? h.namedNow).1
  obtain ⟨himage, hsha⟩ := hcase.image_eq
  have hget : (new.get "image_sha256").getD .null = .str (new.textAt "image_sha256") := himage
  have hcycles : 0 ≤ cycles := hcase.cycles cycles h.cyclesNow
  have hmetric : (new.dictAt "metrics").getD "cycles" .null = .int cycles :=
    eq_int_of_integer? h.cyclesNow
  by_cases hprevious : 0 ≤ previous
  · have hchange : cycleChange? current seen (changeEntry name (new.textAt "image_sha256") previous
        cycles (percentJson repr percent)) = some (name,
          ⟨new, previous.toNat, cycles.toNat, cycles - previous, percentJson repr percent⟩) := by
      simp [cycleChange?, changeEntry, Dict.getD, Dict.get, text?, hitem, hseen, hsha h.image.1,
        countAt?, count?, hprevious, hcycles, integer?, hget]
    rw [changesAgree, hchange]
    dsimp only
    rw [agrees_entry hprevious hcycles hmetric hpercent hrepr]
    by_cases hfinite : percent = some none <;> simp [hfinite, hprevious, bind, Except.bind, pure,
      Except.pure]
  · have hchange : cycleChange? current seen (changeEntry name (new.textAt "image_sha256") previous
        cycles (percentJson repr percent)) = none := by
      simp [cycleChange?, changeEntry, Dict.getD, Dict.get, text?, countAt?, count?, hprevious]
    rw [changesAgree, hchange]
    constructor
    · intro hok
      cases hok
    · intro hok
      exact absurd hok.1 hprevious

/-- The count of the previous run is not negative and the percentage is a number. -/
def Reportable (F : FloatModel) (previous cycles : Int) : Prop :=
  0 ≤ previous ∧ ∃ percent, F.percent? previous cycles = .ok percent ∧ percent ≠ some none

/-- Writing a percentage and reading it back gives the same float. -/
def ReadsBack (F : FloatModel) (repr : Option ℚ → PyFloat) (previous cycles : Int) : Prop :=
  ∀ q, F.percent? previous cycles = .ok (some (some q)) → F.floatValue? (repr (some q)) = some q

theorem mapM_cons_eq_ok {ε α β : Type} {f : α → Except ε β} {a : α} {as : List α} {bs : List β} :
    (a :: as).mapM f = .ok bs ↔ ∃ b rest, f a = .ok b ∧ as.mapM f = .ok rest ∧ bs = b :: rest := by
  simp [List.mapM_cons, bind_eq_ok, pure, Except.pure, eq_comm (b := bs)]

/-- The loop of the check over the entries of `names`. -/
theorem changesAgree_iff (hcurrent : ∀ item ∈ current, CurrentCase item)
    (hrepr : ∀ name previous cycles old new, Comparable before current name previous cycles old new →
      ReadsBack F repr previous cycles) :
    ∀ (names seen : List String), names.Nodup → (∀ name ∈ names, name ∉ seen) →
    ((∃ changes, names.mapM (cycleChangeOf F repr before current) = .ok changes ∧
        changesAgree F current seen changes.reduceOption = .ok true) ↔
      ∀ name ∈ names, ∀ previous cycles old new,
        Comparable before current name previous cycles old new → Reportable F previous cycles)
  | [], seen, _, _ => by
      refine ⟨fun _ _ h => absurd h List.not_mem_nil, fun _ => ⟨[], rfl, rfl⟩⟩
  | name :: names, seen, hnodup, hseen => by
      obtain ⟨hname, hnodup⟩ := List.nodup_cons.mp hnodup
      obtain ⟨hnew, hrest⟩ := List.forall_mem_cons.mp hseen
      rw [List.forall_mem_cons]
      obtain ⟨hnone, hchange⟩ | ⟨previous, cycles, old, new, hcomparable, hchange⟩ :=
        cycleChangeOf_cases F repr before current name
      · have ih := changesAgree_iff hcurrent hrepr names seen hnodup hrest
        rw [← ih, and_iff_right fun previous cycles old new h => absurd h (hnone previous cycles old new)]
        constructor
        · intro h
          obtain ⟨changes, hchanges, hagree⟩ := h
          obtain ⟨change, rest, hhead, htail, rfl⟩ := mapM_cons_eq_ok.mp hchanges
          rw [hchange] at hhead
          cases hhead
          exact ⟨rest, htail, hagree⟩
        · intro h
          obtain ⟨rest, htail, hagree⟩ := h
          exact ⟨none :: rest, mapM_cons_eq_ok.mpr ⟨none, rest, hchange, htail, rfl⟩, hagree⟩
      · have hseen : ∀ other ∈ names, other ∉ seen ++ [name] := by
          intro other hother hmem
          obtain hmem | hmem := List.mem_append.mp hmem
          · exact hrest other hother hmem
          · rw [List.mem_singleton.mp hmem] at hother
            exact hname hother
        have ih := changesAgree_iff hcurrent hrepr names (seen ++ [name]) hnodup hseen
        rw [← ih]
        constructor
        · intro h
          obtain ⟨changes, hchanges, hagree⟩ := h
          obtain ⟨change, rest, hhead, htail, rfl⟩ := mapM_cons_eq_ok.mp hchanges
          rw [hchange] at hhead
          cases hpercent : F.percent? previous cycles with
          | error e =>
            rw [hpercent] at hhead
            cases hhead
          | ok percent =>
            rw [hpercent] at hhead
            cases hhead
            rw [List.reduceOption_cons_of_some, changesAgree_entry hcurrent hcomparable hnew hpercent
              fun q hq => hrepr _ _ _ _ _ hcomparable q (hq ▸ hpercent)] at hagree
            refine ⟨fun previous' cycles' old' new' h => ?_, rest, htail, hagree.2.2⟩
            obtain ⟨rfl, rfl⟩ := hcomparable.unique h
            exact ⟨hagree.1, percent, hpercent, hagree.2.1⟩
        · intro h
          obtain ⟨hreport, rest, htail, hagree⟩ := h
          obtain ⟨hnonneg, percent, hpercent, hfinite⟩ := hreport _ _ _ _ hcomparable
          rw [hpercent] at hchange
          refine ⟨_, mapM_cons_eq_ok.mpr ⟨_, rest, hchange, htail, rfl⟩, ?_⟩
          rw [List.reduceOption_cons_of_some, changesAgree_entry hcurrent hcomparable hnew hpercent
            fun q hq => hrepr _ _ _ _ _ hcomparable q (hq ▸ hpercent)]
          exact ⟨hnonneg, hfinite, hagree⟩

end

/-! ## 4. The record -/

section

variable {F : FloatModel} {repr : Option ℚ → PyFloat} {previous : Dict} {current : List Dict}

/-- The record fits the runs it was made from, or says that there was none. -/
theorem baselineAgrees_of_build {r : Regression}
    (h : simulationRegression F repr previous current = .ok r) :
    r.baselineAgrees = true ↔ (previous ≠ [] → previous.textAt "run_id" ≠ "") := by
  by_cases hprevious : previous = []
  · subst hprevious
    cases h
    exact ⟨fun _ hne => absurd rfl hne, fun _ => rfl⟩
  · obtain ⟨changes, -, rfl⟩ := simulationRegression_eq hprevious h
    simp [Regression.baselineAgrees, hprevious]

/-- **The record of a run passes the check exactly when** the previous run has an id, and every case
of both runs whose counts are compared had a count that is not negative and a change that a float can
hold. No condition falls on the names, the verdicts or the images of either run. -/
theorem simulationRegression_accepted (F : FloatModel) (repr : Option ℚ → PyFloat) (previous : Dict)
    (current : List Dict) (hcurrent : ∀ item ∈ current, CurrentCase item)
    (hrepr : ∀ name previousCycles cycles old new,
      Comparable (records (previous.getD "cases" .null)) current name previousCycles cycles old new →
        ReadsBack F repr previousCycles cycles) :
    (∃ r, simulationRegression F repr previous current = .ok r ∧
        validSimRegression F (.obj (regressionDict r)) current = .ok true) ↔
      previous = [] ∨ previous.textAt "run_id" ≠ "" ∧ ∀ name previousCycles cycles old new,
        Comparable (records (previous.getD "cases" .null)) current name previousCycles cycles old new →
          Reportable F previousCycles cycles := by
  have hvalid : ∀ r, simulationRegression F repr previous current = .ok r →
      (validSimRegression F (.obj (regressionDict r)) current = .ok true ↔
        changesAgree F current [] r.cycleChanges = .ok true ∧ r.baselineAgrees = true) := by
    intro r hr
    rw [validSimRegression, regression?_regressionDict hr]
    dsimp only
    rw [if_pos (setsAgree_of_build hcurrent hr)]
    cases changesAgree F current [] r.cycleChanges with
    | error e => simp [bind, Except.bind]
    | ok b => simp [bind, Except.bind, pure, Except.pure]
  by_cases hprevious : previous = []
  · subst hprevious
    refine ⟨fun _ => .inl rfl, fun _ => ⟨_, rfl, (hvalid _ rfl).mpr ⟨rfl, rfl⟩⟩⟩
  · set before := records (previous.getD "cases" .null) with hbefore
    have hcommon : ∀ {name previousCycles cycles old new},
        Comparable before current name previousCycles cycles old new →
          name ∈ namesWhere current fun name _ => (named? before name).isSome := by
      intro name previousCycles cycles old new h
      exact mem_namesWhere.mpr ⟨new, h.namedNow, by rw [h.namedBefore]; rfl⟩
    have hloop := changesAgree_iff hcurrent hrepr
      (namesWhere current fun name _ => (named? before name).isSome) []
      (nodup_namesWhere _ _) fun _ _ => List.not_mem_nil
    rw [or_iff_right hprevious]
    constructor
    · intro h
      obtain ⟨r, hr, hok⟩ := h
      obtain ⟨hagree, hbaseline⟩ := (hvalid r hr).mp hok
      refine ⟨(baselineAgrees_of_build hr).mp hbaseline hprevious, ?_⟩
      obtain ⟨changes, hchanges, hreq⟩ := simulationRegression_eq hprevious hr
      rw [hreq] at hagree
      intro name previousCycles cycles old new h
      exact hloop.mp ⟨changes, hchanges, hagree⟩ name (hcommon h) _ _ _ _ h
    · intro h
      obtain ⟨hid, hreport⟩ := h
      obtain ⟨changes, hchanges, hagree⟩ := hloop.mpr fun name _ => hreport name
      have hbuild : ∃ r, simulationRegression F repr previous current = .ok r := by
        have hfalse : previous.isEmpty = false := by simpa using hprevious
        unfold simulationRegression
        rw [hfalse, ← hbefore]
        dsimp only [bind, Except.bind]
        rw [hchanges]
        exact ⟨_, rfl⟩
      obtain ⟨r, hr⟩ := hbuild
      refine ⟨r, hr, (hvalid r hr).mpr ⟨?_, (baselineAgrees_of_build hr).mpr fun _ => hid⟩⟩
      obtain ⟨changes', hchanges', hreq⟩ := simulationRegression_eq hprevious hr
      rw [← hbefore, hchanges] at hchanges'
      cases hchanges'
      rw [hreq]
      exact hagree

end

/-- A case `hello` of the image `aa…a`. -/
def helloCase (cycles : Int) : Dict :=
  [("name", .str "hello"), ("ok", .bool true),
    ("image_sha256", .str (String.ofList (List.replicate 64 'a'))),
    ("metrics", .obj [("cycles", .int cycles)])]

def helloRun (cycles : Int) : Dict :=
  [("suite", .str "cpu-tests"), ("run_id", .str "20260101_000000_000000"),
    ("cases", .arr [.obj (helloCase cycles)])]

theorem helloCase_current (cycles : Nat) : CurrentCase (helloCase cycles) where
  named := ⟨"hello", rfl, by decide⟩
  verdict := ⟨true, rfl⟩
  image := ⟨_, rfl, .inr (by decide)⟩
  cycles n hn := by
    obtain rfl : (cycles : Int) = n := Option.some.inj hn
    omega

/-- A case of 100 cycles that takes 125 in the next run: the change is 25 %. -/
theorem simulationRegression_accepted_quarter :
    ∃ r, simulationRegression .double (fun _ => ⟨"25.0", by decide⟩) (helloRun 100) [helloCase 125] =
        .ok r ∧
      validSimRegression .double (.obj (regressionDict r)) [helloCase 125] = .ok true := by
  have hpercent : FloatModel.double.percent? 100 125 = .ok (some (some 25)) := by decide +kernel
  have hread : FloatModel.double.floatValue? ⟨"25.0", by decide⟩ = some 25 := by decide +kernel
  have hcounts : ∀ {name previousCycles cycles old new},
      Comparable (records ((helloRun 100).getD "cases" .null)) [helloCase 125] name previousCycles
        cycles old new → previousCycles = 100 ∧ cycles = 125 := by
    intro name previousCycles cycles old new h
    obtain rfl : old = helloCase 100 := List.mem_singleton.mp (of_named? h.namedBefore).1
    obtain rfl : new = helloCase 125 := List.mem_singleton.mp (of_named? h.namedNow).1
    exact ⟨(Option.some.inj h.cyclesBefore).symm, (Option.some.inj h.cyclesNow).symm⟩
  refine (simulationRegression_accepted .double (fun _ => ⟨"25.0", by decide⟩) (helloRun 100)
    [helloCase 125] ?_ ?_).mpr (.inr ⟨by decide, ?_⟩)
  · intro item hitem
    rw [List.mem_singleton.mp hitem]
    exact helloCase_current 125
  · intro name previousCycles cycles old new h q hq
    obtain ⟨rfl, rfl⟩ := hcounts h
    rw [hpercent] at hq
    cases hq
    exact hread
  · intro name previousCycles cycles old new h
    obtain ⟨rfl, rfl⟩ := hcounts h
    exact ⟨by decide, _, hpercent, by simp⟩

end EccFe.Analysis
