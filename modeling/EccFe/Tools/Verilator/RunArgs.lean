/-
EccFe.Tools.Verilator.RunArgs — the arguments of a simulation run
(`fecompiler/tools/verilator/runner.py`).

Three readers go through the same list. `_arg_present` and `_option_value` know an option in both
of its forms, `--ref so` and `--ref=so`; so does `_strip_option_with_value`, which takes the image
out. `_strip_difftest_args` knows the first form only.

`roles` says what each argument is, with both forms. The stripper leaves exactly the arguments that
are no difftest option, and the options that carry their value (`stripDifftestArgs_eq`).
-/
import EccFe.Tools.Verilator.Sources

namespace EccFe.Tools.Verilator

open Python Tools.RtlInputs

/-! ## 1. Reading an option -/

/-- `arg.startswith(f"{option}=")`. -/
def attaches (option arg : String) : Bool := startsWith arg.toList (option ++ "=")

def argPresent (args : List String) (option : String) : Bool :=
  args.contains option || args.any (attaches option)

/-- `arg.split("=", 1)[1]`. -/
def attachedValue (arg : String) : String :=
  String.ofList (arg.toList.dropWhile (· != '=')).tail

def optionValue : List String → String → String
  | [], _ => ""
  | [arg], option => if attaches option arg then attachedValue arg else ""
  | arg :: next :: rest, option =>
      if arg = option then next
      else if attaches option arg then attachedValue arg
      else optionValue (next :: rest) option

def stripOptionWithValue (option : String) : List String → List String
  | [] => []
  | [arg] => if arg = option ∨ attaches option arg then [] else [arg]
  | arg :: next :: rest =>
      if arg = option then stripOptionWithValue option rest
      else if attaches option arg then stripOptionWithValue option (next :: rest)
      else arg :: stripOptionWithValue option (next :: rest)

/-! ## 2. The arguments without difftest -/

def difftestArgValueOptions : List String := ["--ref", "--diff-image-offset", "--diff-reset-vector"]

/-- The loop of `_strip_difftest_args`, from a value of `skip_next` on. -/
def stripDifftestFrom : Bool → List String → List String
  | _, [] => []
  | true, _ :: rest => stripDifftestFrom false rest
  | false, arg :: rest =>
      if arg = "--diff" then stripDifftestFrom false rest
      else if arg ∈ difftestArgValueOptions then stripDifftestFrom true rest
      else arg :: stripDifftestFrom false rest

def stripDifftestArgs (args : List String) : List String := stripDifftestFrom false args

/-- The texts of `sim_run_args`. -/
def listedRunArgs (workspace : Workspace) : List String :=
  (workspace.getD "sim_run_args" .null).items.map Json.pyStr

def simRunArgs (workspace : Workspace) : List String :=
  if simDifftestSupported workspace then listedRunArgs workspace
  else stripDifftestArgs (listedRunArgs workspace)

/-! ## 3. What each argument is -/

def difftestOptions : List String := "--diff" :: difftestArgValueOptions

/-- What an argument of a run is to difftest. -/
inductive Role where
  /-- `--diff`. -/
  | flag
  /-- An option whose value is the next argument. -/
  | option
  /-- The argument after such an option, whatever it looks like. -/
  | value
  /-- An option with its value, `--ref=so`. -/
  | attached
  | other
  deriving DecidableEq

def roleOf (arg : String) : Role :=
  if arg = "--diff" then .flag
  else if arg ∈ difftestArgValueOptions then .option
  else if difftestOptions.any (attaches · arg) then .attached
  else .other

/-- The arguments with their roles; `pending` after an option that waits for its value. -/
def roles : Bool → List String → List (String × Role)
  | _, [] => []
  | true, arg :: rest => (arg, .value) :: roles false rest
  | false, arg :: rest => (arg, roleOf arg) :: roles (roleOf arg == .option) rest

/-- The arguments that are neither a difftest option nor the value of one. -/
def otherArgs (args : List String) : List String :=
  ((roles false args).filter fun p => p.2 = .other).map Prod.fst

/-- No difftest option can be read from `out`, and all other arguments of `args` are there. -/
structure FreeOfDifftest (args out : List String) : Prop where
  absent : ∀ option ∈ difftestOptions, argPresent out option = false
  noValue : ∀ option ∈ difftestOptions, optionValue out option = ""
  kept : (otherArgs args).Sublist out

/-! ## 4. Roles and readers -/

theorem optionValue_of_absent {option : String} : ∀ {args : List String},
    argPresent args option = false → optionValue args option = ""
  | [], _ => rfl
  | [arg], h => by
      have hattach : attaches option arg = false := by
        simp only [argPresent, List.any_cons, List.any_nil, Bool.or_eq_false_iff] at h
        exact h.2.1
      rw [optionValue, if_neg (by simp [hattach])]
  | arg :: next :: rest, h => by
      simp only [argPresent, List.contains_cons, List.any_cons, Bool.or_eq_false_iff] at h
      obtain ⟨⟨hne, hnext, hrest⟩, hattach, hnextAttach, hrestAttach⟩ := h
      have hne' : arg ≠ option := fun heq => by simp [heq] at hne
      have htail : argPresent (next :: rest) option = false := by
        simp only [argPresent, List.contains_cons, List.any_cons, Bool.or_eq_false_iff]
        exact ⟨⟨hnext, hrest⟩, hnextAttach, hrestAttach⟩
      rw [optionValue, if_neg hne', if_neg (by simp [hattach])]
      exact optionValue_of_absent htail

theorem roleOf_eq_other {arg : String} (h : roleOf arg = .other) :
    arg ∉ difftestOptions ∧ ∀ option ∈ difftestOptions, attaches option arg = false := by
  unfold roleOf at h
  split at h
  · cases h
  · rename_i hflag
    split at h
    · cases h
    · rename_i hoption
      split at h
      · cases h
      · rename_i hattach
        simp only [List.any_eq_true, not_exists, not_and, Bool.not_eq_true] at hattach
        exact ⟨by simp [difftestOptions, hflag, hoption], hattach⟩

theorem roleOf_eq_attached {arg : String} (h : roleOf arg = .attached) :
    ∃ option ∈ difftestOptions, attaches option arg = true := by
  unfold roleOf at h
  split at h
  · cases h
  · split at h
    · cases h
    · split at h
      · rename_i hattach
        exact List.any_eq_true.mp hattach
      · cases h

/-- An argument that is listed as `attached` or `other` is one by its own text. -/
theorem roleOf_of_mem_roles {arg : String} {role : Role} (hne : role ≠ .value) :
    ∀ {pending : Bool} {args : List String}, (arg, role) ∈ roles pending args → roleOf arg = role
  | _, [], h => by simp [roles] at h
  | true, first :: rest, h => by
      rcases List.mem_cons.mp h with heq | hrest
      · exact absurd (congrArg Prod.snd heq) hne
      · exact roleOf_of_mem_roles hne hrest
  | false, first :: rest, h => by
      rcases List.mem_cons.mp h with heq | hrest
      · obtain ⟨rfl, rfl⟩ := Prod.mk.inj heq
        rfl
      · exact roleOf_of_mem_roles hne hrest

/-! ## 5. What the stripper leaves -/

/-- The stripper drops flags, options and values, and nothing else. -/
theorem stripDifftestFrom_eq : ∀ (pending : Bool) (args : List String),
    stripDifftestFrom pending args =
      ((roles pending args).filter fun p => p.2 = .attached ∨ p.2 = .other).map Prod.fst
  | _, [] => by simp [stripDifftestFrom, roles]
  | true, arg :: rest => by
      rw [stripDifftestFrom, stripDifftestFrom_eq false rest, roles]
      rfl
  | false, arg :: rest => by
      rw [stripDifftestFrom, roles]
      by_cases hflag : arg = "--diff"
      · have hrole : roleOf arg = .flag := by rw [roleOf, if_pos hflag]
        rw [if_pos hflag, hrole, stripDifftestFrom_eq false rest]
        rfl
      by_cases hoption : arg ∈ difftestArgValueOptions
      · have hrole : roleOf arg = .option := by rw [roleOf, if_neg hflag, if_pos hoption]
        rw [if_neg hflag, if_pos hoption, hrole, stripDifftestFrom_eq true rest]
        rfl
      have hrole : roleOf arg = .attached ∨ roleOf arg = .other := by
        rw [roleOf, if_neg hflag, if_neg hoption]
        split <;> simp
      have hnext : (roleOf arg == Role.option) = false := by
        rcases hrole with hrole | hrole <;> rw [hrole] <;> rfl
      rw [if_neg hflag, if_neg hoption, hnext, stripDifftestFrom_eq false rest,
        List.filter_cons_of_pos (by simpa using hrole), List.map_cons]

theorem stripDifftestArgs_eq (args : List String) :
    stripDifftestArgs args =
      ((roles false args).filter fun p => p.2 = .attached ∨ p.2 = .other).map Prod.fst :=
  stripDifftestFrom_eq false args

theorem otherArgs_sublist (args : List String) :
    (otherArgs args).Sublist (stripDifftestArgs args) := by
  rw [stripDifftestArgs_eq]
  refine List.Sublist.map _ (List.monotone_filter_right _ ?_)
  intro p hp
  simp only [decide_eq_true_eq] at hp ⊢
  exact .inr hp

theorem absent_of_roles {args : List String} (h : ∀ p ∈ roles false args, p.2 ≠ .attached)
    {option : String} (hoption : option ∈ difftestOptions) :
    argPresent (stripDifftestArgs args) option = false := by
  have hother : ∀ arg ∈ stripDifftestArgs args, roleOf arg = .other := by
    intro arg harg
    rw [stripDifftestArgs_eq] at harg
    obtain ⟨⟨_, role⟩, hmem, rfl⟩ := List.mem_map.mp harg
    obtain ⟨hmem, hrole⟩ := List.mem_filter.mp hmem
    have hrole : role = .other := by simpa [h _ hmem] using hrole
    subst hrole
    exact roleOf_of_mem_roles (by decide) hmem
  rw [argPresent, Bool.or_eq_false_iff]
  constructor
  · rw [← Bool.not_eq_true, List.contains_iff_mem]
    exact fun hmem => (roleOf_eq_other (hother _ hmem)).1 hoption
  · rw [List.any_eq_false]
    intro arg harg
    simp [(roleOf_eq_other (hother arg harg)).2 option hoption]

/-- A CPU or a SoC without difftest: the run is free of it exactly when no option carries its value. -/
theorem simRunArgs_free_iff (workspace : Workspace) (h : simDifftestSupported workspace = false) :
    FreeOfDifftest (listedRunArgs workspace) (simRunArgs workspace) ↔
      ∀ p ∈ roles false (listedRunArgs workspace), p.2 ≠ .attached := by
  rw [simRunArgs, h, if_neg Bool.false_ne_true]
  constructor
  · intro hfree ⟨arg, role⟩ hmem hrole
    simp only at hrole
    subst hrole
    obtain ⟨option, hoption, hattach⟩ := roleOf_eq_attached (roleOf_of_mem_roles (by decide) hmem)
    have hleft : arg ∈ stripDifftestArgs (listedRunArgs workspace) := by
      rw [stripDifftestArgs_eq]
      exact List.mem_map.mpr ⟨_, List.mem_filter.mpr ⟨hmem, by simp⟩, rfl⟩
    have habsent := hfree.absent option hoption
    rw [argPresent, Bool.or_eq_false_iff, List.any_eq_false] at habsent
    exact habsent.2 arg hleft hattach
  · intro hroles
    exact ⟨fun option hoption => absent_of_roles hroles hoption,
      fun option hoption => optionValue_of_absent (absent_of_roles hroles hoption),
      otherArgs_sublist _⟩

def ibexRun (args : List String) : Workspace :=
  [("cpu_wrapper_id", .str "ibex"), ("sim_run_args", .arr (args.map .str))]

theorem simRunArgs_free_separate :
    simDifftestSupported (ibexRun ["--diff", "--ref", "--max-cycles", "--max-cycles", "90"]) = false ∧
      FreeOfDifftest ["--diff", "--ref", "--max-cycles", "--max-cycles", "90"] ["--max-cycles", "90"] :=
  ⟨by decide, (simRunArgs_free_iff (ibexRun ["--diff", "--ref", "--max-cycles", "--max-cycles", "90"])
    (by decide)).mpr (by decide)⟩

/-- `--ref=ref.so` stays among the arguments of a core without difftest. -/
theorem simRunArgs_keep_attached :
    simDifftestSupported (ibexRun ["--ref=ref.so"]) = false ∧
      optionValue (simRunArgs (ibexRun ["--ref=ref.so"])) "--ref" = "ref.so" ∧
      ¬ FreeOfDifftest (listedRunArgs (ibexRun ["--ref=ref.so"]))
        (simRunArgs (ibexRun ["--ref=ref.so"])) :=
  ⟨by decide, by decide, fun h => absurd (h.absent "--ref" (by decide)) (by decide)⟩

end EccFe.Tools.Verilator
