/-
EccFe.Analysis.ResponseFiles — the response file expansions of `fecompiler/analysis/qor.py` return.

Four walkers expand `@file` arguments, and a file may hold `@file` arguments of its own, behind
`-Wl,` too. Here each walker is a program that calls itself and has no answer when its levels of
calls are used up. A call opens one more file of the host, or the pieces of a `-Wl,` argument, and
these hold no further `-Wl,` argument (`rank_lt_of_opens`). So every call has one answer, which
`LinkEnv.depth` levels give (`response_files_terminate`). The answers are those of
`EccFe.Analysis.LinkLine`.
-/
import EccFe.Analysis.LinkLine
import EccFe.Search.Recursion

namespace EccFe.Analysis.LinkLine

open Python Search

instance : Inhabited LinkState := ⟨⟨false, []⟩⟩

/-! ## 1. Calls -/

/-- A call of a walker: the response files that are being expanded, its arguments and what else it
gets. -/
structure Call (σ : Type) where
  visited : List AbsPath
  arguments : List String
  input : σ

namespace LinkEnv

variable (link : LinkEnv)

/-- A call expands a `-Wl,` argument or a response file of the call it is made in. -/
def Opens {σ : Type} (c c' : Call σ) : Prop :=
  ∃ argument ∈ c.arguments,
    (groupPieces? argument = some c'.arguments ∧ c'.visited = c.visited) ∨
      ∃ path, link.response? c.visited argument = some (path, c'.arguments) ∧
        c'.visited = path :: c.visited

/-- Two calls for each file that is not open, and one for a `-Wl,` argument. -/
def rank {σ : Type} (c : Call σ) : Nat :=
  2 * (link.env.fs.files.length - c.visited.length) +
    if ∃ argument ∈ c.arguments, groupPieces? argument ≠ none then 1 else 0

/-! ## 2. The walkers -/

def responseFileIdentity? {σ : Type} (value : String) (visited : List AbsPath) (state : σ)
    (normalizeArguments : List String → List AbsPath → Option (List Normalized × σ)) :
    Option (Normalized × σ) :=
  let path := link.resolvedPath value
  let identity := link.pathArgumentIdentity value .file
  if !link.isFile path then some (.response identity false none, state)
  else if path ∈ visited then some (.response identity true none, state)
  else
    match link.readResponseFile path with
    | none => some (.response identity false none, state)
    | some arguments => do
        let (items, last) ← normalizeArguments arguments (path :: visited)
        some (.response identity false (some items), last)

/-- The loop of `_normalize_link_arguments`. -/
def normalizeLoop? (libraryDirectories : List AbsPath)
    (self : Call (Level × LinkState) → Option (List Normalized × LinkState))
    (visited : List AbsPath) (level : Level) :
    List String → LinkState → Option (List Normalized × LinkState)
  | [], state => some ([], state)
  | argument :: rest, state =>
      let reading := readArgument level argument rest.head?
      let leaf := .leaf (link.leafOf libraryDirectories state argument reading)
      match reading with
      | .group pieces => do
          let (arguments, inner) ← self ⟨visited, pieces, .linker, state⟩
          let (items, last) ← normalizeLoop? libraryDirectories self visited level rest inner
          some (.group arguments :: items, last)
      | .valued _ _ | .libraryNext _ =>
          match rest with
          | _ :: after => do
              let (items, last) ← normalizeLoop? libraryDirectories self visited level after state
              some (leaf :: items, last)
          | [] => some ([leaf], state)
      | .response value => do
          let (item, inner) ← link.responseFileIdentity? value visited state
            fun nested opened => self ⟨opened, nested, level, state⟩
          let (items, last) ← normalizeLoop? libraryDirectories self visited level rest inner
          some (item :: items, last)
      | reading => do
          let (items, last) ← normalizeLoop? libraryDirectories self visited level rest
            (state.after level argument reading)
          some (leaf :: items, last)

def normalizeLinkArguments? (libraryDirectories : List AbsPath) :
    Nat → Call (Level × LinkState) → Option (List Normalized × LinkState) :=
  run fun self c =>
    link.normalizeLoop? libraryDirectories self c.visited c.input.1 c.arguments c.input.2

/-- The loop of `visit` in `_link_search_directories`. -/
def visitLoop? (self : Call (List AbsPath) → Option (List AbsPath)) (visited : List AbsPath) :
    List String → List AbsPath → Option (List AbsPath)
  | [], directories => some directories
  | token :: rest, directories =>
      match groupPieces? token, responseValue? token with
      | some pieces, _ => do
          let found ← self ⟨visited, pieces, directories⟩
          visitLoop? self visited rest found
      | none, some _ =>
          match link.response? visited token with
          | some (path, tokens) => do
              let found ← self ⟨path :: visited, tokens, directories⟩
              visitLoop? self visited rest found
          | none => visitLoop? self visited rest directories
      | none, none =>
          if token = "-L" then
            match rest with
            | value :: after => visitLoop? self visited after (link.addDirectory directories value)
            | [] => some directories
          else if startsWith token.toList "-L" then
            visitLoop? self visited rest (link.addDirectory directories (attachedValue "-L" token))
          else visitLoop? self visited rest directories

def visit? : Nat → Call (List AbsPath) → Option (List AbsPath) :=
  run fun self c => link.visitLoop? self c.visited c.arguments c.input

def linkSearchDirectories? (fuel : Nat) (arguments : List String) : Option (List AbsPath) :=
  (link.visit? fuel ⟨[], arguments, []⟩).map fun directories =>
    link.libraryPathValues.foldl link.addDirectory directories

/-- The loop of `_link_has_global_static`, which ends at the first static argument. -/
def globalStaticLoop? (self : Call Unit → Option Bool) (visited : List AbsPath) :
    List String → Option Bool
  | [] => some false
  | argument :: rest =>
      if argument ∈ globalStaticLinkArguments then some true
      else
        match link.response? visited argument with
        | some (path, tokens) => do
            let found ← self ⟨path :: visited, tokens, ()⟩
            if found then some true else globalStaticLoop? self visited rest
        | none => globalStaticLoop? self visited rest

def linkHasGlobalStatic? : Nat → Call Unit → Option Bool :=
  run fun self c => link.globalStaticLoop? self c.visited c.arguments

end LinkEnv

/-- The options of `_normalize_compile_arguments` that have a path, with what it names. -/
def compilePathOptions : List (String × PathKind) :=
  [("--sysroot", .directory), ("-B", .directory), ("-I", .searchDirectory),
    ("-L", .searchDirectory), ("-include", .file), ("-iquote", .searchDirectory),
    ("-isystem", .searchDirectory)]

/-- The same options sorted by length, the longest first. -/
def compileAttachedOptions : List String :=
  ["--sysroot", "-include", "-isystem", "-iquote", "-B", "-I", "-L"]

/-- The option a compiler argument starts with. -/
def compileAttached? (argument : String) : Option String :=
  compileAttachedOptions.find? fun option =>
    startsWith argument.toList (option ++ "=") ||
      (startsWith option.toList "-" && !startsWith option.toList "--" &&
        startsWith argument.toList option && option.length < argument.length)

namespace LinkEnv

variable (link : LinkEnv)

/-- A compiler argument that does not take the next one. -/
def compileAlone (argument : String) : Normalized :=
  match compileAttached? argument with
  | some option =>
      .leaf (.option option (link.pathArgumentIdentity (attachedValue option argument)
        ((compilePathOptions.lookup option).getD .file)))
  | none => .leaf (.raw argument)

/-- The loop of `_normalize_path_arguments` as `_normalize_compile_arguments` calls it. -/
def compileLoop? (self : Call Unit → Option (List Normalized)) (visited : List AbsPath) :
    List String → Option (List Normalized)
  | [] => some []
  | argument :: rest =>
      match responseValue? argument with
      | some value => do
          let (item, ()) ← link.responseFileIdentity? value visited () fun nested opened =>
            (self ⟨opened, nested, ()⟩).map fun items => (items, ())
          let items ← compileLoop? self visited rest
          some (item :: items)
      | none =>
          match compilePathOptions.lookup argument with
          | some kind =>
              match rest with
              | value :: after => do
                  let items ← compileLoop? self visited after
                  some (.leaf (.option argument (link.pathArgumentIdentity value kind)) :: items)
              | [] => some [link.compileAlone argument]
          | none => do
              let items ← compileLoop? self visited rest
              some (link.compileAlone argument :: items)

def normalizeCompileArguments? : Nat → Call Unit → Option (List Normalized) :=
  run fun self c => link.compileLoop? self c.visited c.arguments

end LinkEnv

/-! ## 3. Calls go down -/

section

variable {link : LinkEnv} {σ : Type} {c c' : Call σ}

theorem Opened.of_opens (h : Opened link c.visited) (hopens : link.Opens c c') :
    Opened link c'.visited := by
  obtain ⟨argument, -, ⟨-, hvisited⟩ | ⟨path, hresponse, hvisited⟩⟩ := hopens
  · rw [hvisited]
    exact h
  · rw [hvisited]
    exact h.cons hresponse

/-- What a call opens is of a lower rank. -/
theorem rank_lt_of_opens (h : Opened link c.visited) (hopens : link.Opens c c') :
    link.rank c' < link.rank c := by
  have hopened := h.of_opens hopens
  obtain ⟨argument, hmem, ⟨hgroup, hvisited⟩ | ⟨path, hresponse, hvisited⟩⟩ := hopens
  · -- the pieces of a group have no comma, so none of them is a group
    have hpieces : ¬∃ piece ∈ c'.arguments, groupPieces? piece ≠ none := by
      intro ⟨piece, hpiece, hne⟩
      exact hne (groupPieces?_piece hgroup piece hpiece)
    have hgroups : ∃ argument ∈ c.arguments, groupPieces? argument ≠ none :=
      ⟨argument, hmem, by rw [hgroup]; exact Option.some_ne_none _⟩
    rw [LinkEnv.rank, LinkEnv.rank, if_neg hpieces, if_pos hgroups, hvisited]
    omega
  · have hlength := hopened.length_le
    rw [hvisited, List.length_cons] at hlength
    unfold LinkEnv.rank
    rw [hvisited, List.length_cons]
    split <;> split <;> omega

theorem rank_lt_depth (c : Call σ) : link.rank c < link.depth := by
  unfold LinkEnv.rank LinkEnv.depth
  split <;> omega

/-- An expansion opens a file of the host, and goes down. -/
theorem opens_descends (c c' : Call σ) (h : Opened link c.visited) (hopens : link.Opens c c') :
    Opened link c'.visited ∧ link.rank c' < link.rank c :=
  ⟨h.of_opens hopens, rank_lt_of_opens h hopens⟩

/-- A walker whose calls are expansions has one answer to each call. -/
theorem walker_total {ρ : Type} [Nonempty ρ] {body : (Call σ → Option ρ) → Call σ → Option ρ}
    (hbody : ∀ (answer : Call σ → ρ) (c : Call σ), ∃ r, ∀ self : Call σ → Option ρ,
      (∀ c', link.Opens c c' → self c' = some (answer c')) → body self c = some r)
    (h : Opened link c.visited) :
    ∃ r, ∀ fuel, link.depth ≤ fuel → run body fuel c = some r := by
  obtain ⟨r, hr⟩ := run_total opens_descends hbody h
  exact ⟨r, fun fuel hfuel => hr fuel (Nat.lt_of_lt_of_le (rank_lt_depth c) hfuel)⟩

/-- It agrees with a walker that is defined for every fuel. -/
theorem walker_eq {ρ : Type} {body : (Call σ → Option ρ) → Call σ → Option ρ}
    {loop : (Call σ → ρ) → Call σ → ρ} (total : Nat → Call σ → ρ)
    (hbody : ∀ (answer : Call σ → ρ) (c : Call σ) (self : Call σ → Option ρ),
      (∀ c', link.Opens c c' → self c' = some (answer c')) → body self c = some (loop answer c))
    (htotal : ∀ fuel c, total (fuel + 1) c = loop (total fuel) c) (h : Opened link c.visited)
    {fuel : Nat} (hfuel : link.depth ≤ fuel) : run body fuel c = some (total fuel c) :=
  run_eq opens_descends hbody htotal h (Nat.lt_of_lt_of_le (rank_lt_depth c) hfuel)

theorem opens_tail {visited : List AbsPath} {argument : String} {rest : List String} {input : σ}
    (input' : σ) (h : link.Opens ⟨visited, rest, input⟩ c') :
    link.Opens ⟨visited, argument :: rest, input'⟩ c' := by
  obtain ⟨found, hmem, hopens⟩ := h
  exact ⟨found, List.mem_cons_of_mem argument hmem, hopens⟩

theorem opens_group {visited : List AbsPath} {argument : String} {pieces : List String}
    (hgroup : groupPieces? argument = some pieces) (rest : List String) (input input' : σ) :
    link.Opens ⟨visited, argument :: rest, input⟩ ⟨visited, pieces, input'⟩ :=
  ⟨argument, List.mem_cons_self, .inl ⟨hgroup, rfl⟩⟩

theorem opens_response {visited : List AbsPath} {argument : String} {path : AbsPath}
    {tokens : List String} (hresponse : link.response? visited argument = some (path, tokens))
    (rest : List String) (input input' : σ) :
    link.Opens ⟨visited, argument :: rest, input⟩ ⟨path :: visited, tokens, input'⟩ :=
  ⟨argument, List.mem_cons_self, .inr ⟨path, hresponse, rfl⟩⟩

end

/-! ## 4. Each walker answers when its calls do -/

/-- The options are read before anything else of an argument that is no group. -/
theorem readArgument_next (argument : String) (next : Option String) :
    readArgument .linker argument next = readArgument .linker argument none ∨
      (∃ value, next = some value) ∧ TakesValue argument := by
  by_cases hoption : TakesValue argument
  · cases next with
    | none => exact .inl rfl
    | some value => exact .inr ⟨⟨value, rfl⟩, hoption⟩
  · exact .inl (readArgument_alone hoption .linker next)

theorem readArgument_linker_group {argument : String} {next : Option String} {pieces : List String} :
    readArgument .linker argument next ≠ .group pieces := by
  rcases readArgument_next argument next with heq | ⟨⟨value, rfl⟩, hoption⟩
  · rw [heq]
    exact readArgument_linker_ne_group argument pieces
  · rw [readArgument_takesValue hoption]
    split <;> simp

/-- Only a `-Wl,` argument is taken for a group. -/
theorem groupPieces?_of_reading {level : Level} {argument : String} {next : Option String}
    {pieces : List String} (h : readArgument level argument next = .group pieces) :
    groupPieces? argument = some pieces := by
  cases hgroup : groupPieces? argument with
  | none => exact absurd (readArgument_level hgroup level next ▸ h) readArgument_linker_group
  | some found =>
    cases level with
    | linker => exact absurd h readArgument_linker_group
    | driver =>
      rw [readArgument_group hgroup] at h
      rw [Reading.group.inj h]

/-- Only a `@file` argument is taken for a response file. -/
theorem responseValue?_of_response {level : Level} {argument : String} {next : Option String}
    {value : String} (h : readArgument level argument next = .response value) :
    responseValue? argument = some value := by
  have hlinker : readArgument .linker argument next = .response value := by
    cases hgroup : groupPieces? argument with
    | none => exact readArgument_level hgroup level next ▸ h
    | some found =>
      cases level with
      | linker => exact h
      | driver =>
        rw [readArgument_group hgroup] at h
        cases h
  rcases readArgument_next argument next with heq | ⟨⟨next, rfl⟩, hoption⟩
  · exact responseValue?_of_reading (heq ▸ hlinker)
  · rw [readArgument_takesValue hoption] at hlinker
    split at hlinker <;> cases hlinker

section

variable {link : LinkEnv}

/-- A response file is expanded by one call at most. -/
theorem responseFileIdentity?_total {σ : Type} {argument value : String}
    (hvalue : responseValue? argument = some value) (visited : List AbsPath) (state : σ)
    (answer : List String → List AbsPath → List Normalized × σ) :
    ∃ r, ∀ normalizeArguments : List String → List AbsPath → Option (List Normalized × σ),
      (∀ path tokens, link.response? visited argument = some (path, tokens) →
        normalizeArguments tokens (path :: visited) = some (answer tokens (path :: visited))) →
      link.responseFileIdentity? value visited state normalizeArguments = some r := by
  unfold LinkEnv.responseFileIdentity?
  dsimp only
  split
  · exact ⟨_, fun _ _ => rfl⟩
  split
  · exact ⟨_, fun _ _ => rfl⟩
  rename_i hvisited
  cases hread : link.readResponseFile (link.resolvedPath value) with
  | none => exact ⟨_, fun _ _ => rfl⟩
  | some tokens =>
    have hresponse : link.response? visited argument = some (link.resolvedPath value, tokens) := by
      simp [LinkEnv.response?, hvalue, hvisited, hread]
    refine ⟨(.response (link.pathArgumentIdentity value .file) false
      (some (answer tokens (link.resolvedPath value :: visited)).1),
      (answer tokens (link.resolvedPath value :: visited)).2), fun normalizeArguments hanswer => ?_⟩
    simp only [hanswer _ _ hresponse]
    rfl

theorem compileLoop?_total (answer : Call Unit → List Normalized) (visited : List AbsPath) :
    ∀ arguments : List String, ∃ r, ∀ self : Call Unit → Option (List Normalized),
      (∀ c', link.Opens ⟨visited, arguments, ()⟩ c' → self c' = some (answer c')) →
        link.compileLoop? self visited arguments = some r
  | [] => ⟨[], fun _ _ => rfl⟩
  | argument :: rest => by
      obtain ⟨items, hitems⟩ := compileLoop?_total answer visited rest
      cases hvalue : responseValue? argument with
      | some value =>
        obtain ⟨item, hitem⟩ := @responseFileIdentity?_total link Unit argument value hvalue visited ()
          fun nested opened => (answer ⟨opened, nested, ()⟩, ())
        refine ⟨item.1 :: items, fun self hself => ?_⟩
        rw [LinkEnv.compileLoop?]
        simp only [hvalue]
        rw [hitem _ fun path tokens hresponse => ?_]
        · rw [hitems self fun c' hopens => hself c' (opens_tail () hopens)]
          rfl
        · rw [hself _ (opens_response hresponse rest () ())]
          rfl
      | none =>
        cases hkind : compilePathOptions.lookup argument with
        | none =>
          refine ⟨link.compileAlone argument :: items, fun self hself => ?_⟩
          rw [LinkEnv.compileLoop?]
          simp only [hvalue, hkind]
          rw [hitems self fun c' hopens => hself c' (opens_tail () hopens)]
          rfl
        | some kind =>
          cases rest with
          | nil =>
            refine ⟨[link.compileAlone argument], fun self hself => ?_⟩
            rw [LinkEnv.compileLoop?]
            simp only [hvalue, hkind]
          | cons value after =>
            obtain ⟨items, hitems⟩ := compileLoop?_total answer visited after
            refine ⟨.leaf (.option argument (link.pathArgumentIdentity value kind)) :: items,
              fun self hself => ?_⟩
            rw [LinkEnv.compileLoop?]
            simp only [hvalue, hkind]
            rw [hitems self fun c' hopens => hself c' (opens_tail () (opens_tail () hopens))]
            rfl

theorem globalStaticLoop?_eq (answer : Call Unit → Bool) (visited : List AbsPath)
    (self : Call Unit → Option Bool) : ∀ arguments : List String,
      (∀ c', link.Opens ⟨visited, arguments, ()⟩ c' → self c' = some (answer c')) →
        link.globalStaticLoop? self visited arguments = some (arguments.any fun argument =>
          argument ∈ globalStaticLinkArguments ||
            match link.response? visited argument with
            | some (path, tokens) => answer ⟨path :: visited, tokens, ()⟩
            | none => false)
  | [], _ => rfl
  | argument :: rest, hself => by
      have hrest := globalStaticLoop?_eq answer visited self rest fun c' hopens =>
        hself c' (opens_tail () hopens)
      rw [LinkEnv.globalStaticLoop?, List.any_cons, hrest]
      by_cases hstatic : argument ∈ globalStaticLinkArguments
      · rw [if_pos hstatic, decide_eq_true hstatic]
        rfl
      rw [if_neg hstatic, decide_eq_false hstatic]
      cases hresponse : link.response? visited argument with
      | none => rfl
      | some opened =>
        obtain ⟨path, tokens⟩ := opened
        dsimp only
        rw [hself _ (opens_response hresponse rest () ())]
        cases answer ⟨path :: visited, tokens, ()⟩ <;> rfl

theorem visitLoop?_eq (answer : Call (List AbsPath) → List AbsPath) (visited : List AbsPath)
    (self : Call (List AbsPath) → Option (List AbsPath)) :
    ∀ (arguments : List String) (directories : List AbsPath),
      (∀ c', link.Opens ⟨visited, arguments, directories⟩ c' → self c' = some (answer c')) →
        link.visitLoop? self visited arguments directories =
          some (link.visitLoop (fun opened tokens found => answer ⟨opened, tokens, found⟩) visited
            arguments directories)
  | [], _, _ => rfl
  | token :: rest, directories, hself => by
      have hrest : ∀ found, link.visitLoop? self visited rest found =
          some (link.visitLoop (fun opened tokens found => answer ⟨opened, tokens, found⟩) visited
            rest found) := fun found =>
        visitLoop?_eq answer visited self rest found fun c' hopens =>
          hself c' (opens_tail directories hopens)
      rw [LinkEnv.visitLoop?.eq_def, LinkEnv.visitLoop.eq_def]
      cases hgroup : groupPieces? token with
      | some pieces =>
        simp only [hgroup, hself _ (opens_group hgroup rest directories directories)]
        exact hrest _
      | none =>
        cases hvalue : responseValue? token with
        | some value =>
          cases hresponse : link.response? visited token with
          | none =>
            simp only [hgroup, hvalue, hresponse]
            exact hrest directories
          | some opened =>
            obtain ⟨path, tokens⟩ := opened
            simp only [hgroup, hvalue, hresponse,
              hself _ (opens_response hresponse rest directories directories)]
            exact hrest _
        | none =>
          simp only [hgroup, hvalue]
          split
          · cases rest with
            | nil => rfl
            | cons value after =>
              exact visitLoop?_eq answer visited self after _ fun c' hopens =>
                hself c' (opens_tail directories (opens_tail directories hopens))
          · split
            · exact hrest _
            · exact hrest directories

theorem normalizeLoop?_eq (libraryDirectories : List AbsPath)
    (answer : Call (Level × LinkState) → List Normalized × LinkState) (visited : List AbsPath)
    (level : Level) (self : Call (Level × LinkState) → Option (List Normalized × LinkState)) :
    ∀ (arguments : List String) (state : LinkState),
      (∀ c', link.Opens ⟨visited, arguments, (level, state)⟩ c' → self c' = some (answer c')) →
        link.normalizeLoop? libraryDirectories self visited level arguments state =
          some (link.normalizeLoop libraryDirectories
            (fun opened level nested state => answer ⟨opened, nested, level, state⟩) visited level
            arguments state)
  | [], _, _ => rfl
  | argument :: rest, state, hself => by
      have hrest : ∀ inner, link.normalizeLoop? libraryDirectories self visited level rest inner =
          some (link.normalizeLoop libraryDirectories
            (fun opened level nested state => answer ⟨opened, nested, level, state⟩) visited level
            rest inner) := fun inner =>
        normalizeLoop?_eq libraryDirectories answer visited level self rest inner fun c' hopens =>
          hself c' (opens_tail (level, state) hopens)
      rw [LinkEnv.normalizeLoop?.eq_def, LinkEnv.normalizeLoop.eq_def]
      have hafter : ∀ value after, rest = value :: after →
          link.normalizeLoop? libraryDirectories self visited level after state =
            some (link.normalizeLoop libraryDirectories
              (fun opened level nested state => answer ⟨opened, nested, level, state⟩) visited level
              after state) := by
        intro value after hcons
        subst hcons
        exact normalizeLoop?_eq libraryDirectories answer visited level self after state
          fun c' hopens => hself c' (opens_tail (level, state) (opens_tail (level, state) hopens))
      cases hreading : readArgument level argument rest.head? with
      | group pieces =>
        have hcall := hself _ (opens_group (groupPieces?_of_reading hreading) rest (level, state)
          (Level.linker, state))
        simp only [hreading, hcall, hrest, Option.bind_eq_bind, Option.bind_some]
      | valued option value =>
        simp only [hreading]
        cases rest with
        | nil => rfl
        | cons next after => simp only [hafter next after rfl, Option.bind_eq_bind, Option.bind_some]
      | libraryNext name =>
        simp only [hreading]
        cases rest with
        | nil => rfl
        | cons next after => simp only [hafter next after rfl, Option.bind_eq_bind, Option.bind_some]
      | response value =>
        simp only [hreading, LinkEnv.responseFileIdentity?]
        split
        · simp only [hrest, Option.bind_eq_bind, Option.bind_some]
        split
        · simp only [hrest, Option.bind_eq_bind, Option.bind_some]
        rename_i hvisited
        cases hread : link.readResponseFile (link.resolvedPath value) with
        | none => simp only [hrest, Option.bind_eq_bind, Option.bind_some]
        | some tokens =>
          have hresponse : link.response? visited argument =
              some (link.resolvedPath value, tokens) := by
            simp [LinkEnv.response?, responseValue?_of_response hreading, hvisited, hread]
          have hcall := hself _ (opens_response hresponse rest (level, state) (level, state))
          simp only [hcall, hrest, Option.bind_eq_bind, Option.bind_some]
      | static | dynamic | pushState | popState | library | attached | plain =>
        simp only [hreading, hrest, Option.bind_eq_bind, Option.bind_some]

/-! ## 5. The expansions return -/

/-- The answers of the three link walkers are those of the walkers that are defined for every fuel. -/
theorem link_walkers_eq {fuel : Nat} (hfuel : link.depth ≤ fuel) (libraryDirectories : List AbsPath)
    (arguments : List String) (level : Level) (state : LinkState) :
    link.normalizeLinkArguments? libraryDirectories fuel ⟨[], arguments, level, state⟩ =
        some (link.normalizeLinkArguments libraryDirectories fuel [] level arguments state) ∧
      link.linkSearchDirectories? fuel arguments = some (link.linkSearchDirectories fuel arguments) ∧
      link.linkHasGlobalStatic? fuel ⟨[], arguments, ()⟩ =
        some (link.linkHasGlobalStatic fuel [] arguments) := by
  have hopened : Opened link [] := ⟨List.nodup_nil, List.nil_subset _⟩
  refine ⟨?_, ?_, ?_⟩
  · exact walker_eq (c := ⟨[], arguments, level, state⟩)
      (fun fuel c => link.normalizeLinkArguments libraryDirectories fuel c.visited c.input.1
        c.arguments c.input.2)
      (fun answer c self hself => normalizeLoop?_eq libraryDirectories answer c.visited c.input.1 self
        c.arguments c.input.2 hself) (fun _ _ => rfl) hopened hfuel
  · have hvisit : link.visit? fuel ⟨[], arguments, []⟩ = some (link.visit fuel [] arguments []) :=
      walker_eq (c := ⟨[], arguments, []⟩)
        (fun fuel c => link.visit fuel c.visited c.arguments c.input)
        (fun answer c self hself => visitLoop?_eq answer c.visited self c.arguments c.input hself)
        (fun _ _ => rfl) hopened hfuel
    rw [LinkEnv.linkSearchDirectories?, hvisit]
    rfl
  · exact walker_eq (c := ⟨[], arguments, ()⟩)
      (fun fuel c => link.linkHasGlobalStatic fuel c.visited c.arguments)
      (fun answer c self hself => globalStaticLoop?_eq answer c.visited self c.arguments hself)
      (fun _ _ => rfl) hopened hfuel

end

/-- Whatever the files hold, each of the four expansions returns, and `depth` levels of calls are
enough. -/
theorem response_files_terminate (link : LinkEnv) (arguments : List String) :
    (∀ (libraryDirectories : List AbsPath) (level : Level) (state : LinkState),
      ∃ result, ∀ fuel, link.depth ≤ fuel →
        link.normalizeLinkArguments? libraryDirectories fuel ⟨[], arguments, level, state⟩ =
          some result) ∧
    (∃ result, ∀ fuel, link.depth ≤ fuel →
      link.linkSearchDirectories? fuel arguments = some result) ∧
    (∃ result, ∀ fuel, link.depth ≤ fuel →
      link.linkHasGlobalStatic? fuel ⟨[], arguments, ()⟩ = some result) ∧
    (∃ result, ∀ fuel, link.depth ≤ fuel →
      link.normalizeCompileArguments? fuel ⟨[], arguments, ()⟩ = some result) := by
  have hopened : Opened link [] := ⟨List.nodup_nil, List.nil_subset _⟩
  refine ⟨fun libraryDirectories level state => ?_, ?_, ?_, ?_⟩
  · exact walker_total (fun answer c => ⟨_, fun self hself =>
      normalizeLoop?_eq libraryDirectories answer c.visited c.input.1 self c.arguments c.input.2
        hself⟩) hopened
  · obtain ⟨found, hfound⟩ := walker_total (c := ⟨[], arguments, []⟩) (fun answer c =>
      ⟨_, fun self hself => visitLoop?_eq answer c.visited self c.arguments c.input hself⟩) hopened
    refine ⟨link.libraryPathValues.foldl link.addDirectory found, fun fuel hfuel => ?_⟩
    rw [LinkEnv.linkSearchDirectories?, LinkEnv.visit?, hfound fuel hfuel]
    rfl
  · exact walker_total (fun answer c => ⟨_, fun self hself =>
      globalStaticLoop?_eq answer c.visited self c.arguments hself⟩) hopened
  · exact walker_total (fun answer c => compileLoop?_total answer c.visited c.arguments) hopened

/-- Two response files that hold each other, one of them behind `-Wl,`. -/
def cyclicLink : LinkEnv where
  env := .ofNodes [(["work", "a.rsp"], .file (asciiBytes "-static -Wl,@b.rsp") 0),
    (["work", "b.rsp"], .file (asciiBytes "@a.rsp -lfoo") 0)]
  baseDirectory := "/work"
  buildWorkspace := ""
  libraryPath := ""
  printFileName := fun _ => none
  directoryIdentity := fun _ => []

example : cyclicLink.linkHasGlobalStatic? cyclicLink.depth ⟨[], ["@a.rsp"], ()⟩ = some true := by
  decide +kernel

end EccFe.Analysis.LinkLine
