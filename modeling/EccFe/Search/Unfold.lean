/-
EccFe.Search.Unfold — a graph unfolded depth first, without a memory.

A node is expanded once for each path that leads to it: its successors first, in order, then the
node itself. A node that is met on its own path is not expanded again. What the walk meets is a
list of events, and the facts here say what the list holds:

* with fuel for every node that has successors the walk is never cut (`cut_not_mem_unfold`);
* a node is met again on its path exactly when a cycle is reachable (`again_mem_unfold_iff`);
* a walk that meets neither a cycle nor a failure visits what is reachable
  (`mem_visits_iff`), each time after all its successors (`successors_before`);
* a program that does something at each visit and stops at the first event that is none is
  the run of the events (`runEvents_eq_ok_iff`, `runEvents_eq_error_iff`).
-/
import Mathlib.Logic.Relation
import Mathlib.Data.List.Perm.Subperm

namespace EccFe.Search

variable {α ε : Type}

inductive Event (α ε : Type) where
  /-- The successors of the node are done. -/
  | visit (a : α)
  /-- The node is on the path that leads to it, the nearest node first. -/
  | again (path : List α) (a : α)
  /-- The successors of a node cannot be read. -/
  | fail (e : ε)
  /-- The fuel is used up. -/
  | cut

/-- The visited nodes, in order. -/
def visits (events : List (Event α ε)) : List α :=
  events.filterMap fun
    | .visit a => some a
    | _ => none

/-- Only visits: no node is met again, and nothing fails. -/
def Complete (events : List (Event α ε)) : Prop := ∀ event ∈ events, ∃ a, event = .visit a

theorem Complete.left {events more : List (Event α ε)} (h : Complete (events ++ more)) :
    Complete events := fun event hmem => h event (List.mem_append_left more hmem)

theorem visits_append (events more : List (Event α ε)) :
    visits (events ++ more) = visits events ++ visits more := List.filterMap_append

section

variable [DecidableEq α]

/-- The events below `a`, which `path` leads to. -/
def unfold (next : α → Except ε (List α)) : Nat → List α → α → List (Event α ε)
  | 0, _, _ => [.cut]
  | fuel + 1, path, a =>
      if a ∈ path then [.again path a]
      else
        match next a with
        | .error e => [.fail e]
        | .ok successors => successors.flatMap (unfold next fuel (a :: path)) ++ [.visit a]

end

/-- `b` is a successor of `a`. -/
def Edge (next : α → Except ε (List α)) (a b : α) : Prop := ∃ bs, next a = .ok bs ∧ b ∈ bs

/-- A node that is reachable from `a` lies on a cycle. -/
def CycleFrom (next : α → Except ε (List α)) (a : α) : Prop :=
  ∃ b, Relation.ReflTransGen (Edge next) a b ∧ Relation.TransGen (Edge next) b b

section

variable [DecidableEq α] {next : α → Except ε (List α)}

/-- An expanded node. -/
theorem unfold_of_ok {fuel : Nat} {path : List α} {a : α} {successors : List α} (ha : a ∉ path)
    (h : next a = .ok successors) : unfold next (fuel + 1) path a =
      successors.flatMap (unfold next fuel (a :: path)) ++ [.visit a] := by
  rw [unfold, if_neg ha, h]

/-! ## 1. Fuel -/

/-- The walk is not cut when the nodes that have successors, of those the walk can meet, are no more
than path and fuel allow. -/
theorem cut_not_mem_unfold {Met : α → Prop} {nodes : List α}
    (hnodes : ∀ a bs, Met a → next a = .ok bs → a ∈ nodes ∧ ∀ b ∈ bs, Met b) :
    ∀ (fuel : Nat) (path : List α) (a : α), Met a → path.Nodup → path ⊆ nodes →
      nodes.length < path.length + fuel → .cut ∉ unfold next fuel path a
  | 0, path, a, _, hnodup, hsubset, hfuel => by
      have hle := (hnodup.subperm hsubset).length_le
      omega
  | fuel + 1, path, a, hmet, hnodup, hsubset, hfuel => by
      rw [unfold]
      split
      · simp
      rename_i ha
      cases hnext : next a with
      | error e => simp
      | ok successors =>
        simp only [List.mem_append, List.mem_flatMap, List.mem_singleton, reduceCtorEq, or_false,
          not_exists, not_and]
        intro b hb
        obtain ⟨hmem, hmets⟩ := hnodes a successors hmet hnext
        refine cut_not_mem_unfold hnodes fuel (a :: path) b (hmets b hb) (List.nodup_cons.mpr ⟨ha, hnodup⟩)
          (List.cons_subset.mpr ⟨hmem, hsubset⟩) ?_
        rw [List.length_cons]
        omega

/-! ## 2. Cycles -/

theorem cycleFrom_of_again : ∀ (fuel : Nat) (path : List α) (a : α),
    (∀ b ∈ path, Relation.TransGen (Edge next) b a) → ∀ path' b,
      .again path' b ∈ unfold next fuel path a → CycleFrom next a
  | 0, _, _, _, _, _, h => by simp [unfold] at h
  | fuel + 1, path, a, hpath, path', b, h => by
      rw [unfold] at h
      split at h
      · rename_i ha
        exact ⟨a, .refl, hpath a ha⟩
      cases hnext : next a with
      | error e =>
        rw [hnext] at h
        simp at h
      | ok successors =>
        rw [hnext] at h
        simp only [List.mem_append, List.mem_flatMap, List.mem_singleton, reduceCtorEq, or_false]
          at h
        obtain ⟨c, hc, hagain⟩ := h
        have hedge : Edge next a c := ⟨successors, hnext, hc⟩
        have hpath' : ∀ d ∈ a :: path, Relation.TransGen (Edge next) d c := by
          intro d hd
          rcases List.mem_cons.mp hd with rfl | hd
          · exact .single hedge
          · exact (hpath d hd).tail hedge
        obtain ⟨d, hreach, hcycle⟩ := cycleFrom_of_again fuel (a :: path) c hpath' path' b hagain
        exact ⟨d, hreach.head hedge, hcycle⟩

/-- A walk that meets no node again stays off its path, and every node it reaches lies on no
cycle. -/
theorem no_cycle_of_unfold : ∀ (fuel : Nat) (path : List α) (a : α),
    (∀ path' b, .again path' b ∉ unfold next fuel path a) → .cut ∉ unfold next fuel path a →
      (∀ b, Relation.ReflTransGen (Edge next) a b → b ∉ path) ∧ ¬CycleFrom next a
  | 0, _, _, _, hcut => by simp [unfold] at hcut
  | fuel + 1, path, a, hagain, hcut => by
      rw [unfold] at hagain hcut
      split at hagain
      · exact absurd (List.mem_singleton_self _) (hagain path a)
      rename_i ha
      have hsuccessor : ∀ c, Edge next a c →
          (∀ b, Relation.ReflTransGen (Edge next) c b → b ∉ a :: path) ∧ ¬CycleFrom next c := by
        rintro c ⟨successors, hnext, hc⟩
        rw [if_neg ha, hnext] at hcut
        rw [hnext] at hagain
        refine no_cycle_of_unfold fuel (a :: path) c (fun path' b h => ?_) fun h => ?_
        · exact hagain path' b (List.mem_append_left _ (List.mem_flatMap.mpr ⟨c, hc, h⟩))
        · exact hcut (List.mem_append_left _ (List.mem_flatMap.mpr ⟨c, hc, h⟩))
      constructor
      · intro b hreach
        rcases hreach.cases_head with rfl | ⟨c, hedge, hreach⟩
        · exact ha
        · exact fun hb => (hsuccessor c hedge).1 b hreach (List.mem_cons_of_mem a hb)
      · rintro ⟨b, hreach, hcycle⟩
        rcases hreach.cases_head with rfl | ⟨c, hedge, hreach⟩
        · obtain ⟨c, hedge, hback⟩ := Relation.TransGen.head'_iff.mp hcycle
          exact (hsuccessor c hedge).1 a hback List.mem_cons_self
        · exact (hsuccessor c hedge).2 ⟨b, hreach, hcycle⟩

/-- The walk from `a` meets a node again exactly when a cycle is reachable. -/
theorem again_mem_unfold_iff {fuel : Nat} {a : α} (hcut : .cut ∉ unfold next fuel [] a) :
    (∃ path b, .again path b ∈ unfold next fuel [] a) ↔ CycleFrom next a := by
  constructor
  · rintro ⟨path, b, h⟩
    exact cycleFrom_of_again fuel [] a (by simp) path b h
  · intro hcycle
    by_contra hagain
    push Not at hagain
    exact (no_cycle_of_unfold fuel [] a hagain hcut).2 hcycle

/-- A failure is that of a node. -/
theorem exists_of_fail_mem_unfold {e : ε} : ∀ {fuel : Nat} {path : List α} {a : α},
    .fail e ∈ unfold next fuel path a → ∃ b, next b = .error e
  | 0, _, _, h => by simp [unfold] at h
  | fuel + 1, path, a, h => by
      rw [unfold] at h
      split at h
      · simp at h
      cases hnext : next a with
      | error e' =>
        rw [hnext] at h
        cases List.mem_singleton.mp h
        exact ⟨a, hnext⟩
      | ok successors =>
        rw [hnext] at h
        simp only [List.mem_append, List.mem_flatMap, List.mem_singleton, reduceCtorEq, or_false] at h
        obtain ⟨b, -, hb⟩ := h
        exact exists_of_fail_mem_unfold hb

/-! ## 3. Walks that end well -/

/-- A complete walk expands its node. -/
theorem exists_of_complete {fuel : Nat} {path : List α} {a : α}
    (h : Complete (unfold next fuel path a)) : ∃ fuel' successors, fuel = fuel' + 1 ∧ a ∉ path ∧
      next a = .ok successors ∧
      (∀ b ∈ successors, Complete (unfold next fuel' (a :: path) b)) ∧
      visits (unfold next fuel path a) =
        successors.flatMap (fun b => visits (unfold next fuel' (a :: path) b)) ++ [a] := by
  have hno : ∀ event, (∀ b, event ≠ .visit b) → event ∉ unfold next fuel path a := by
    intro event hne hmem
    obtain ⟨b, hb⟩ := h event hmem
    exact hne b hb
  cases fuel with
  | zero => exact absurd (by simp [unfold]) (hno .cut (by simp))
  | succ fuel =>
    by_cases ha : a ∈ path
    · exact absurd (by simp [unfold, ha]) (hno (.again path a) (by simp))
    cases hnext : next a with
    | error e => exact absurd (by simp [unfold, ha, hnext]) (hno (.fail e) (by simp))
    | ok successors =>
      rw [unfold_of_ok ha hnext] at h
      refine ⟨fuel, successors, rfl, ha, rfl, fun b hb event hmem => ?_, ?_⟩
      · exact h.left event (List.mem_flatMap.mpr ⟨b, hb, hmem⟩)
      · rw [unfold_of_ok ha hnext, visits_append, visits, List.filterMap_flatMap]
        rfl

/-- A complete walk visits what is reachable. -/
theorem mem_visits_iff : ∀ {fuel : Nat} {path : List α} {a b : α},
    Complete (unfold next fuel path a) →
      (b ∈ visits (unfold next fuel path a) ↔ Relation.ReflTransGen (Edge next) a b)
  | fuel, path, a, b, h => by
      obtain ⟨fuel', successors, rfl, -, hnext, hcomplete, hvisits⟩ := exists_of_complete h
      rw [hvisits, List.mem_append, List.mem_flatMap, List.mem_singleton,
        Relation.ReflTransGen.cases_head_iff]
      constructor
      · rintro (⟨c, hc, hmem⟩ | rfl)
        · exact .inr ⟨c, ⟨successors, hnext, hc⟩, (mem_visits_iff (hcomplete c hc)).mp hmem⟩
        · exact .inl rfl
      · rintro (rfl | ⟨c, ⟨successors', hnext', hc⟩, hreach⟩)
        · exact .inr rfl
        · rw [hnext] at hnext'
          cases hnext'
          exact .inl ⟨c, hc, (mem_visits_iff (hcomplete c hc)).mpr hreach⟩

/-- Where an element of a flattened list stands in its own part. -/
theorem exists_of_flatMap_eq_append_cons {β γ : Type} {f : β → List γ} : ∀ {xs : List β}
    {before after : List γ} {c : γ}, xs.flatMap f = before ++ c :: after →
      ∃ x ∈ xs, ∃ before' after', f x = before' ++ c :: after' ∧ before' ⊆ before
  | [], before, after, c, h => by simp at h
  | x :: xs, before, after, c, h => by
      rw [List.flatMap_cons] at h
      rcases List.append_eq_append_iff.mp h with ⟨rest, hbefore, hrest⟩ | ⟨rest, hx, hrest⟩
      · obtain ⟨y, hy, before', after', hsplit, hsub⟩ := exists_of_flatMap_eq_append_cons hrest
        refine ⟨y, List.mem_cons_of_mem x hy, before', after', hsplit, List.Subset.trans hsub ?_⟩
        rw [hbefore]
        exact List.subset_append_right _ _
      · cases rest with
        | nil =>
          obtain ⟨y, hy, before', after', hsplit, hsub⟩ :=
            exists_of_flatMap_eq_append_cons (by simpa using hrest.symm : xs.flatMap f = [] ++ c :: after)
          exact ⟨y, List.mem_cons_of_mem x hy, before', after', hsplit, List.Subset.trans hsub (by simp)⟩
        | cons d rest =>
          obtain ⟨rfl, -⟩ := List.cons.inj hrest
          exact ⟨x, List.mem_cons_self, before, rest, hx, List.Subset.refl before⟩

/-- A complete walk visits a node after all its successors. -/
theorem successors_before : ∀ {fuel : Nat} {path : List α} {a : α},
    Complete (unfold next fuel path a) → ∀ before b after,
      visits (unfold next fuel path a) = before ++ b :: after →
        ∀ c, Edge next b c → c ∈ before
  | fuel, path, a, h, before, b, after, hsplit, c, hedge => by
      obtain ⟨fuel', successors, rfl, -, hnext, hcomplete, hvisits⟩ := exists_of_complete h
      rw [hvisits] at hsplit
      have hlastNode : b = a →
          successors.flatMap (fun b => visits (unfold next fuel' (a :: path) b)) = before →
          c ∈ before := by
        rintro rfl rfl
        obtain ⟨successors', hnext', hc⟩ := hedge
        rw [hnext] at hnext'
        cases hnext'
        exact List.mem_flatMap.mpr ⟨c, hc, (mem_visits_iff (hcomplete c hc)).mpr .refl⟩
      rcases List.append_eq_append_iff.mp hsplit with ⟨rest, hbefore, hlast⟩ | ⟨rest, hflat, hlast⟩
      · cases rest with
        | nil =>
          obtain ⟨hba, -⟩ := List.cons.inj hlast
          exact hlastNode hba.symm (by rw [hbefore, List.append_nil])
        | cons d rest => simp at hlast
      · cases rest with
        | nil =>
          obtain ⟨hba, -⟩ := List.cons.inj hlast
          exact hlastNode hba (by rw [hflat, List.append_nil])
        | cons d rest =>
          -- inside the walk below a successor
          obtain ⟨rfl, -⟩ := List.cons.inj hlast
          obtain ⟨s, hs, before', after', hsplit', hsub⟩ := exists_of_flatMap_eq_append_cons hflat
          exact hsub (successors_before (hcomplete s hs) before' b after' hsplit' c hedge)

/-- The same for the walks from several nodes, one after the other. -/
theorem successors_before_flatMap {fuel : Nat} {roots : List α}
    (h : Complete (roots.flatMap (unfold next fuel []))) {before after : List α} {b c : α}
    (hsplit : visits (roots.flatMap (unfold next fuel [])) = before ++ b :: after)
    (hedge : Edge next b c) : c ∈ before := by
  rw [visits, List.filterMap_flatMap] at hsplit
  obtain ⟨root, hroot, before', after', hwalk, hsub⟩ := exists_of_flatMap_eq_append_cons hsplit
  have hcomplete : Complete (unfold next fuel [] root) := fun event hmem =>
    h event (List.mem_flatMap.mpr ⟨root, hroot, hmem⟩)
  exact hsub (successors_before hcomplete before' b after' hwalk c hedge)

theorem mem_visits_flatMap_iff {fuel : Nat} {roots : List α}
    (h : Complete (roots.flatMap (unfold next fuel []))) {b : α} :
    b ∈ visits (roots.flatMap (unfold next fuel [])) ↔
      ∃ root ∈ roots, Relation.ReflTransGen (Edge next) root b := by
  have hcomplete : ∀ root ∈ roots, Complete (unfold next fuel [] root) := fun root hroot event hmem =>
    h event (List.mem_flatMap.mpr ⟨root, hroot, hmem⟩)
  rw [visits, List.filterMap_flatMap, List.mem_flatMap]
  constructor
  · rintro ⟨root, hroot, hmem⟩
    exact ⟨root, hroot, (mem_visits_iff (hcomplete root hroot)).mp hmem⟩
  · rintro ⟨root, hroot, hreach⟩
    exact ⟨root, hroot, (mem_visits_iff (hcomplete root hroot)).mpr hreach⟩

end

/-! ## 4. Runs -/

section

variable {σ ρ β γ : Type}

/-- Go on when the first part returns. -/
def andThen (x : Except ε β × σ) (f : β → σ → Except ε γ × σ) : Except ε γ × σ :=
  match x with
  | (.error e, s) => (.error e, s)
  | (.ok b, s) => f b s

@[simp] theorem andThen_error (e : ε) (s : σ) (f : β → σ → Except ε γ × σ) :
    andThen (.error e, s) f = (.error e, s) := rfl

@[simp] theorem andThen_ok (b : β) (s : σ) (f : β → σ → Except ε γ × σ) :
    andThen (.ok b, s) f = f b s := rfl

theorem andThen_eq_ok_iff {x : Except ε β × σ} {f : β → σ → Except ε γ × σ} {c : γ} {s' : σ} :
    andThen x f = (.ok c, s') ↔ ∃ b s, x = (.ok b, s) ∧ f b s = (.ok c, s') := by
  obtain ⟨x, s⟩ := x
  cases x with
  | error e => simp
  | ok b => simp

theorem andThen_eq_error_iff {x : Except ε β × σ} {f : β → σ → Except ε γ × σ} {e : ε} {s' : σ} :
    andThen x f = (.error e, s') ↔
      x = (.error e, s') ∨ ∃ b s, x = (.ok b, s) ∧ f b s = (.error e, s') := by
  obtain ⟨x, s⟩ := x
  cases x with
  | error e' => simp
  | ok b => simp

/-- What an event that is no visit stops with. -/
def Event.stop (again : List α → α → ε) (cut : ε) : Event α ε → Option ε
  | .visit _ => none
  | .again path a => some (again path a)
  | .fail e => some e
  | .cut => some cut

variable (visit : α → σ → Except ε ρ × σ) (again : List α → α → ε) (cut : ε)

/-- Do what each visit does, in order. -/
def runEvents : List (Event α ε) → σ → Except ε (List ρ) × σ
  | [], s => (.ok [], s)
  | .visit a :: events, s =>
      andThen (visit a s) fun record s =>
        andThen (runEvents events s) fun records s => (.ok (record :: records), s)
  | .again path a :: _, s => (.error (again path a), s)
  | .fail e :: _, s => (.error e, s)
  | .cut :: _, s => (.error cut, s)

theorem runEvents_append : ∀ (events more : List (Event α ε)) (s : σ),
    runEvents visit again cut (events ++ more) s =
      andThen (runEvents visit again cut events s) fun records s =>
        andThen (runEvents visit again cut more s) fun records' s => (.ok (records ++ records'), s)
  | [], more, s => by
      rcases hmore : runEvents visit again cut more s with ⟨_ | _, s'⟩ <;> simp [runEvents, hmore]
  | .visit a :: events, more, s => by
      rcases hvisit : visit a s with ⟨e | record, s'⟩
      · simp [runEvents, hvisit]
      rcases hrun : runEvents visit again cut events s' with ⟨e | records, s''⟩
      · simp [runEvents, hvisit, hrun, runEvents_append events more s']
      rcases hmore : runEvents visit again cut more s'' with ⟨_ | _, _⟩ <;>
        simp [runEvents, hvisit, hrun, hmore, runEvents_append events more s']
  | .again path a :: _, _, _ => rfl
  | .fail e :: _, _, _ => rfl
  | .cut :: _, _, _ => rfl

/-- The visits that were done: the node, the state it was met in, and what it gave. -/
inductive Performed (visit : α → σ → Except ε ρ × σ) : σ → List (α × σ × ρ) → σ → Prop
  | nil (s : σ) : Performed visit s [] s
  | cons {a : α} {s s' s'' : σ} {record : ρ} {steps : List (α × σ × ρ)} :
      visit a s = (.ok record, s') → Performed visit s' steps s'' →
      Performed visit s ((a, s, record) :: steps) s''

/-- The visits of `events` all return. -/
def Returns (events : List (Event α ε)) (s : σ) (steps : List (α × σ × ρ)) (s' : σ) : Prop :=
  Complete events ∧ Performed visit s steps s' ∧ steps.map (·.1) = visits events

variable {visit again cut}

theorem returns_cons_iff {a : α} {events : List (Event α ε)} {s s' : σ} {steps : List (α × σ × ρ)} :
    Returns visit (.visit a :: events) s steps s' ↔ ∃ record s₁ steps', visit a s = (.ok record, s₁) ∧
      Returns visit events s₁ steps' s' ∧ steps = (a, s, record) :: steps' := by
  constructor
  · rintro ⟨hcomplete, hperformed, hsteps⟩
    cases hperformed with
    | nil => simp [visits] at hsteps
    | cons hvisit hrest =>
      obtain ⟨rfl, htail⟩ := List.cons.inj hsteps
      exact ⟨_, _, _, hvisit, ⟨fun event h => hcomplete event (List.mem_cons_of_mem _ h), hrest, htail⟩,
        rfl⟩
  · rintro ⟨record, s₁, steps', hvisit, ⟨hcomplete, hrest, hsteps⟩, rfl⟩
    refine ⟨fun event hmem => ?_, .cons hvisit hrest, ?_⟩
    · rcases List.mem_cons.mp hmem with rfl | hmem
      · exact ⟨a, rfl⟩
      · exact hcomplete event hmem
    · rw [List.map_cons, hsteps]
      rfl

/-- A run returns when all events are visits that return. -/
theorem runEvents_eq_ok_iff : ∀ {events : List (Event α ε)} {s s' : σ} {records : List ρ},
    runEvents visit again cut events s = (.ok records, s') ↔
      ∃ steps, Returns visit events s steps s' ∧ steps.map (·.2.2) = records
  | [], s, s', records => by
      constructor
      · rintro ⟨⟩
        exact ⟨[], ⟨nofun, .nil s, rfl⟩, rfl⟩
      · rintro ⟨steps, ⟨-, hperformed, hsteps⟩, rfl⟩
        cases List.map_eq_nil_iff.mp hsteps
        cases hperformed
        rfl
  | .visit a :: events, s, s', records => by
      rw [runEvents, andThen_eq_ok_iff]
      simp only [andThen_eq_ok_iff, Prod.mk.injEq, Except.ok.injEq, runEvents_eq_ok_iff,
        returns_cons_iff]
      constructor
      · rintro ⟨record, s₁, hvisit, _, _, ⟨steps, hreturns, rfl⟩, rfl, rfl⟩
        exact ⟨_, ⟨record, s₁, steps, hvisit, hreturns, rfl⟩, rfl⟩
      · rintro ⟨_, ⟨record, s₁, steps, hvisit, hreturns, rfl⟩, rfl⟩
        exact ⟨record, s₁, hvisit, _, s', ⟨steps, hreturns, rfl⟩, rfl, rfl⟩
  | .again path a :: events, s, s', records => by
      refine ⟨nofun, ?_⟩
      rintro ⟨steps, ⟨hcomplete, -⟩, -⟩
      obtain ⟨b, hb⟩ := hcomplete _ List.mem_cons_self
      cases hb
  | .fail e :: events, s, s', records => by
      refine ⟨nofun, ?_⟩
      rintro ⟨steps, ⟨hcomplete, -⟩, -⟩
      obtain ⟨b, hb⟩ := hcomplete _ List.mem_cons_self
      cases hb
  | .cut :: events, s, s', records => by
      refine ⟨nofun, ?_⟩
      rintro ⟨steps, ⟨hcomplete, -⟩, -⟩
      obtain ⟨b, hb⟩ := hcomplete _ List.mem_cons_self
      cases hb

/-- The first event that does not go well is a visit that raises `e`, or it stops with `e`. -/
def StopsAt (visit : α → σ → Except ε ρ × σ) (again : List α → α → ε) (cut : ε) (event : Event α ε)
    (s : σ) (e : ε) (s' : σ) : Prop :=
  (∃ a, event = .visit a ∧ visit a s = (.error e, s')) ∨ (event.stop again cut = some e ∧ s' = s)

/-- A run raises where the first event does not go well. -/
theorem runEvents_eq_error_iff : ∀ {events : List (Event α ε)} {s s' : σ} {e : ε},
    runEvents visit again cut events s = (.error e, s') ↔
      ∃ before event after steps s₁, events = before ++ event :: after ∧
        Returns visit before s steps s₁ ∧ StopsAt visit again cut event s₁ e s'
  | [], s, s', e => by
      refine ⟨nofun, ?_⟩
      rintro ⟨before, event, after, _, _, h, -⟩
      cases before <;> cases h
  | event :: events, s, s', e => by
      have hhead : StopsAt visit again cut event s e s' →
          ∃ before event' after steps s₁, event :: events = before ++ event' :: after ∧
            Returns visit before s steps s₁ ∧ StopsAt visit again cut event' s₁ e s' := fun h =>
        ⟨[], event, events, [], s, rfl, ⟨nofun, .nil s, rfl⟩, h⟩
      have hstop : ∀ e', event.stop again cut = some e' →
          ((Except.error e', s) = ((.error e, s') : Except ε (List ρ) × σ) ↔
            ∃ before event' after steps s₁, event :: events = before ++ event' :: after ∧
              Returns visit before s steps s₁ ∧ StopsAt visit again cut event' s₁ e s') := by
        intro e' he'
        constructor
        · rintro ⟨⟩
          exact hhead (.inr ⟨he', rfl⟩)
        · rintro ⟨before, event', after, steps, s₁, hsplit, hreturns, hstops⟩
          cases before with
          | nil =>
            obtain ⟨rfl, rfl⟩ := List.cons.inj hsplit
            obtain ⟨-, hperformed, hsteps⟩ := hreturns
            cases List.map_eq_nil_iff.mp hsteps
            cases hperformed
            rcases hstops with ⟨a, rfl, -⟩ | ⟨he, rfl⟩
            · cases he'
            · rw [he'] at he
              cases he
              rfl
          | cons first before =>
            obtain ⟨rfl, -⟩ := List.cons.inj hsplit
            obtain ⟨b, rfl⟩ := hreturns.1 _ List.mem_cons_self
            cases he'
      cases event with
      | again path a => exact hstop _ rfl
      | fail e' => exact hstop _ rfl
      | cut => exact hstop _ rfl
      | visit a =>
        rw [runEvents, andThen_eq_error_iff]
        simp only [andThen_eq_error_iff, runEvents_eq_error_iff, Prod.mk.injEq, reduceCtorEq,
          false_and, and_false, exists_false, or_false]
        constructor
        · rintro (hvisit | ⟨record, s₁, hvisit, before, event, after, steps, s₂, rfl, hreturns, hstops⟩)
          · exact hhead (.inl ⟨a, rfl, hvisit⟩)
          · exact ⟨.visit a :: before, event, after, _, s₂, rfl,
              returns_cons_iff.mpr ⟨record, s₁, steps, hvisit, hreturns, rfl⟩, hstops⟩
        · rintro ⟨before, event, after, steps, s₁, hsplit, hreturns, hstops⟩
          cases before with
          | nil =>
            obtain ⟨rfl, rfl⟩ := List.cons.inj hsplit
            obtain ⟨-, hperformed, hsteps⟩ := hreturns
            cases List.map_eq_nil_iff.mp hsteps
            cases hperformed
            rcases hstops with ⟨b, hb, hvisit⟩ | ⟨he, -⟩
            · cases hb
              exact .inl hvisit
            · cases he
          | cons first before =>
            obtain ⟨rfl, rfl⟩ := List.cons.inj hsplit
            obtain ⟨record, s₂, steps', hvisit, hrest, rfl⟩ := returns_cons_iff.mp hreturns
            exact .inr ⟨record, s₂, hvisit, before, event, after, steps', s₁, rfl, hrest, hstops⟩

/-- Where a performed visit stands: the visits before it led to its state. -/
theorem Performed.split {s s' : σ} {before after : List (α × σ × ρ)} {step : α × σ × ρ}
    (h : Performed visit s (before ++ step :: after) s') :
    Performed visit s before step.2.1 ∧
      ∃ s₁, visit step.1 step.2.1 = (.ok step.2.2, s₁) ∧ Performed visit s₁ after s' := by
  induction before generalizing s with
  | nil =>
    cases h with
    | cons hvisit hrest => exact ⟨.nil s, _, hvisit, hrest⟩
  | cons first before ih =>
    cases h with
    | cons hvisit hrest =>
      obtain ⟨hbefore, hafter⟩ := ih hrest
      exact ⟨.cons hvisit hbefore, hafter⟩

end

end EccFe.Search
