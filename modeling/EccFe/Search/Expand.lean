/-
EccFe.Search.Expand — textual expansion of files that include each other.

A node is a sequence of items: something to emit, another node to expand in
place, or a failure. `expand` walks the items in order, opens each node the
first time it meets it and lets it contribute nothing afterwards, which is how
programs read nested list files without looping on an include cycle.

`fuel` bounds the nesting depth. `expandFrom` gives one level more than there
are nodes that include anything, and `expandFrom_ne_tooDeep` says that this is
always enough: each level opens a node that was not open before.

What a run does is stated against reachability in the include graph. For a run
that returns:

* the nodes opened are exactly the reachable ones (`mem_opened_iff`);
* the output holds exactly what reachable nodes emit (`mem_output_iff`);
* no reachable node has a failing item (`no_fail_of_ok`).
-/
import Mathlib.Logic.Relation
import Mathlib.Data.List.Basic
import Mathlib.Data.List.Count

namespace EccFe.Search

variable {α β ε : Type}

/-- One item of a node, in the order the reader meets it. -/
inductive Item (α β ε : Type) where
  | emit (b : β)
  | child (a : α)
  | fail (e : ε)

inductive ExpandError (ε : Type) where
  | tooDeep
  | raised (e : ε)

/-- What a run returns: the output in order, and every node opened so far. -/
abbrev Expansion (α β ε : Type) := Except (ExpandError ε) (List β × List α)

/-- The loop over one node's items; `visit` expands a child. -/
def expandItems (visit : List α → α → Expansion α β ε) :
    List α → List (Item α β ε) → Expansion α β ε
  | visited, [] => .ok ([], visited)
  | visited, .emit b :: rest =>
      match expandItems visit visited rest with
      | .ok (bs, v) => .ok (b :: bs, v)
      | .error e => .error e
  | visited, .child a :: rest =>
      match visit visited a with
      | .ok (bs, v) =>
          match expandItems visit v rest with
          | .ok (cs, w) => .ok (bs ++ cs, w)
          | .error e => .error e
      | .error e => .error e
  | _, .fail e :: _ => .error (.raised e)

variable [DecidableEq α]

def expand (items : α → List (Item α β ε)) : Nat → List α → α → Expansion α β ε
  | 0, _, _ => .error .tooDeep
  | fuel + 1, visited, a =>
      if a ∈ visited then .ok ([], visited)
      else expandItems (expand items fuel) (a :: visited) (items a)

/-- Expand `root`, where only nodes of `nodes` include others. -/
def expandFrom (items : α → List (Item α β ε)) (nodes : List α) (root : α) : Expansion α β ε :=
  expand items (nodes.length + 1) [] root

/-! ## 1. The include graph -/

/-- `a` includes `c`. -/
def Includes (items : α → List (Item α β ε)) (a c : α) : Prop := .child c ∈ items a

def Reaches (items : α → List (Item α β ε)) : α → α → Prop :=
  Relation.ReflTransGen (Includes items)

/-! ## 2. What one run adds

`Adds` relates the nodes open before and after a run to its output. It says
nothing about the nodes that were already open: those contribute where they were
first met. -/

structure Adds (items : α → List (Item α β ε)) (visited v : List α) (bs : List β) : Prop where
  subset : visited ⊆ v
  closed : ∀ x ∈ v, x ∉ visited → ∀ c, Includes items x c → c ∈ v
  emitted : ∀ x ∈ v, x ∉ visited → ∀ b, .emit b ∈ items x → b ∈ bs
  noFail : ∀ x ∈ v, x ∉ visited → ∀ e, .fail e ∉ items x

variable {items : α → List (Item α β ε)}

omit [DecidableEq α] in
theorem Adds.refl (visited : List α) : Adds items visited visited [] where
  subset := List.Subset.refl _
  closed _ hx hnot := absurd hx hnot
  emitted _ hx hnot := absurd hx hnot
  noFail _ hx hnot := absurd hx hnot

/-- One expansion after another adds what both add. -/
theorem Adds.trans {u v w : List α} {bs cs : List β} (h₁ : Adds items u v bs)
    (h₂ : Adds items v w cs) : Adds items u w (bs ++ cs) where
  subset := List.Subset.trans h₁.subset h₂.subset
  closed x hx hnot c hc := by
    by_cases hv : x ∈ v
    · exact h₂.subset (h₁.closed x hv hnot c hc)
    · exact h₂.closed x hx hv c hc
  emitted x hx hnot b hb := by
    by_cases hv : x ∈ v
    · exact List.mem_append_left _ (h₁.emitted x hv hnot b hb)
    · exact List.mem_append_right _ (h₂.emitted x hx hv b hb)
  noFail x hx hnot e := by
    by_cases hv : x ∈ v
    · exact h₁.noFail x hv hnot e
    · exact h₂.noFail x hx hv e

omit [DecidableEq α] in
theorem Adds.cons {u v : List α} {bs : List β} (b : β) (h : Adds items u v bs) :
    Adds items u v (b :: bs) where
  subset := h.subset
  closed := h.closed
  emitted x hx hnot c hc := List.mem_cons_of_mem b (h.emitted x hx hnot c hc)
  noFail := h.noFail

/-- A run of the item loop, given what each call of `visit` does. -/
theorem expandItems_adds {visit : List α → α → Expansion α β ε}
    (hvisit : ∀ u a bs v, visit u a = .ok (bs, v) → Adds items u v bs ∧ a ∈ v) :
    ∀ (l : List (Item α β ε)) (u : List α) (bs : List β) (v : List α),
      expandItems visit u l = .ok (bs, v) →
      Adds items u v bs ∧ (∀ c, .child c ∈ l → c ∈ v) ∧ (∀ b, .emit b ∈ l → b ∈ bs) ∧
        ∀ e, .fail e ∉ l
  | [], u, bs, v, h => by
      cases h
      exact ⟨Adds.refl u, by simp, by simp, by simp⟩
  | .emit b :: rest, u, bs, v, h => by
      simp only [expandItems] at h
      split at h <;> cases h
      rename_i hrest
      obtain ⟨hadds, hchild, hemit, hfail⟩ := expandItems_adds hvisit rest u _ _ hrest
      refine ⟨hadds.cons b, by simpa using hchild, ?_, by simpa using hfail⟩
      intro b' hb'
      rcases List.mem_cons.mp hb' with he | hmem
      · cases he; exact List.mem_cons_self
      · exact List.mem_cons_of_mem b (hemit b' hmem)
  | .child a :: rest, u, bs, v, h => by
      simp only [expandItems] at h
      split at h
      · rename_i bs₁ v₁ hfirst
        split at h <;> cases h
        rename_i hrest
        obtain ⟨hadds₁, ha⟩ := hvisit u a bs₁ v₁ hfirst
        obtain ⟨hadds₂, hchild, hemit, hfail⟩ := expandItems_adds hvisit rest v₁ _ _ hrest
        refine ⟨hadds₁.trans hadds₂, ?_, ?_, by simpa using hfail⟩
        · intro c hc
          rcases List.mem_cons.mp hc with he | hmem
          · cases he; exact hadds₂.subset ha
          · exact hchild c hmem
        · intro b hb
          exact List.mem_append_right _ (hemit b (by simpa using hb))
      · cases h
  | .fail e :: rest, u, bs, v, h => by cases h

/-- An expansion visits its root and adds to the visited. -/
theorem expand_adds : ∀ (fuel : Nat) (u : List α) (a : α) (bs : List β) (v : List α),
    expand items fuel u a = .ok (bs, v) → Adds items u v bs ∧ a ∈ v
  | 0, u, a, bs, v, h => by cases h
  | fuel + 1, u, a, bs, v, h => by
      rw [expand] at h
      split at h
      · rename_i ha
        cases h
        exact ⟨Adds.refl u, ha⟩
      · rename_i ha
        obtain ⟨hadds, hchild, hemit, hfail⟩ :=
          expandItems_adds (expand_adds fuel) (items a) (a :: u) bs v h
        have hav : a ∈ v := hadds.subset List.mem_cons_self
        refine ⟨⟨fun x hx => hadds.subset (List.mem_cons_of_mem a hx), ?_, ?_, ?_⟩, hav⟩
        · intro x hx hnot c hc
          by_cases hxa : x = a
          · exact hchild c (hxa ▸ hc)
          · exact hadds.closed x hx (by simp [hxa, hnot]) c hc
        · intro x hx hnot b hb
          by_cases hxa : x = a
          · exact hemit b (hxa ▸ hb)
          · exact hadds.emitted x hx (by simp [hxa, hnot]) b hb
        · intro x hx hnot e
          by_cases hxa : x = a
          · exact hxa ▸ hfail e
          · exact hadds.noFail x hx (by simp [hxa, hnot]) e

/-! ## 3. Everything a run does is reachable -/

/-- The outcome of a run stays inside a set of nodes `P`. -/
def Within (items : α → List (Item α β ε)) (P : α → Prop) (u : List α) :
    Expansion α β ε → Prop
  | .ok (bs, v) =>
      (∀ x ∈ v, x ∈ u ∨ P x) ∧ ∀ b ∈ bs, ∃ x, P x ∧ .emit b ∈ items x
  | .error .tooDeep => True
  | .error (.raised e) => ∃ x, P x ∧ .fail e ∈ items x

omit [DecidableEq α] in
/-- An error says nothing about the nodes that were open. -/
theorem Within.error {P : α → Prop} {u v : List α} {e : ExpandError ε}
    (h : Within (β := β) items P u (.error e)) : Within (β := β) items P v (.error e) := by
  cases e with
  | tooDeep => trivial
  | raised e => exact h

omit [DecidableEq α] in
theorem expandItems_within {visit : List α → α → Expansion α β ε} {P : α → Prop} {a : α}
    (ha : P a) (hvisit : ∀ u c, P c → Within items P u (visit u c))
    (hstep : ∀ x c, P x → Includes items x c → P c) :
    ∀ (l : List (Item α β ε)) (u : List α), l ⊆ items a →
      Within items P u (expandItems visit u l)
  | [], u, _ => ⟨fun x hx => .inl hx, by simp⟩
  | .emit b :: rest, u, hl => by
      have ih := expandItems_within ha hvisit hstep rest u (List.subset_of_cons_subset hl)
      rw [expandItems]
      split
      · rename_i hrest
        rw [hrest] at ih
        refine ⟨ih.1, ?_⟩
        intro b' hb'
        rcases List.mem_cons.mp hb' with rfl | hmem
        · exact ⟨a, ha, hl List.mem_cons_self⟩
        · exact ih.2 b' hmem
      · rename_i hrest
        rw [hrest] at ih
        exact ih
  | .child c :: rest, u, hl => by
      have hc : P c := hstep a c ha (hl List.mem_cons_self)
      have hfirst := hvisit u c hc
      rw [expandItems]
      split
      · rename_i bs v hv
        rw [hv] at hfirst
        have ih := expandItems_within ha hvisit hstep rest v (List.subset_of_cons_subset hl)
        split
        · rename_i hrest
          rw [hrest] at ih
          refine ⟨fun x hx => (ih.1 x hx).elim (hfirst.1 x) .inr, ?_⟩
          intro b hb
          rcases List.mem_append.mp hb with hb | hb
          · exact hfirst.2 b hb
          · exact ih.2 b hb
        · rename_i e hrest
          rw [hrest] at ih
          exact ih.error
      · rename_i e he
        rw [he] at hfirst
        exact hfirst
  | .fail e :: rest, u, hl => ⟨a, ha, hl List.mem_cons_self⟩

/-- An expansion stays within any set that includes lead nowhere out of. -/
theorem expand_within {P : α → Prop} (hstep : ∀ x c, P x → Includes items x c → P c) :
    ∀ (fuel : Nat) (u : List α) (a : α), P a → Within items P u (expand items fuel u a)
  | 0, u, a, _ => trivial
  | fuel + 1, u, a, ha => by
      rw [expand]
      split
      · exact ⟨fun x hx => .inl hx, by simp⟩
      · have h := expandItems_within ha (expand_within hstep fuel) hstep (items a) (a :: u)
          (List.Subset.refl _)
        revert h
        cases expandItems (expand items fuel) (a :: u) (items a) with
        | ok r =>
          intro h
          refine ⟨fun x hx => ?_, h.2⟩
          rcases h.1 x hx with hxu | hP
          · rcases List.mem_cons.mp hxu with rfl | hxu
            · exact .inr ha
            · exact .inl hxu
          · exact .inr hP
        | error e => exact Within.error

/-! ## 4. The depth is enough -/

/-- Nodes not opened yet. -/
def remaining (nodes u : List α) : Nat := nodes.countP fun x => decide (x ∉ u)

theorem remaining_mono {nodes u v : List α} (h : u ⊆ v) : remaining nodes v ≤ remaining nodes u := by
  refine List.countP_mono_left fun x _ hx => ?_
  simp only [decide_eq_true_eq] at hx ⊢
  exact fun hu => hx (h hu)

/-- A new visit leaves less to visit. -/
theorem remaining_cons_lt {nodes u : List α} {a : α} (ha : a ∈ nodes) (hu : a ∉ u) :
    remaining nodes (a :: u) < remaining nodes u := by
  induction nodes with
  | nil => simp at ha
  | cons x rest ih =>
    rw [remaining, remaining, List.countP_cons, List.countP_cons, ← remaining, ← remaining]
    have hle : remaining rest (a :: u) ≤ remaining rest u := remaining_mono (by simp)
    by_cases hx : x = a
    · subst hx
      simp only [List.mem_cons, true_or, not_true_eq_false, decide_false, Bool.false_eq_true,
        if_false, hu, not_false_eq_true, decide_true, if_true]
      omega
    · have hmem : a ∈ rest := by simpa [Ne.symm hx] using ha
      have := ih hmem
      simp only [List.mem_cons, hx, false_or]
      omega

theorem expandItems_ne_tooDeep {visit : List α → α → Expansion α β ε} {nodes : List α} {n : Nat}
    (hadds : ∀ u a bs v, visit u a = .ok (bs, v) → u ⊆ v)
    (hvisit : ∀ u c, remaining nodes u < n → visit u c ≠ .error .tooDeep) :
    ∀ (l : List (Item α β ε)) (u : List α), remaining nodes u < n →
      expandItems visit u l ≠ .error .tooDeep
  | [], u, _ => by simp [expandItems]
  | .emit b :: rest, u, hu => by
      have ih := expandItems_ne_tooDeep hadds hvisit rest u hu
      rw [expandItems]
      split
      · simp
      · rename_i e hrest
        rw [hrest] at ih
        exact ih
  | .child c :: rest, u, hu => by
      rw [expandItems]
      split
      · rename_i bs v hv
        have hle : remaining nodes v ≤ remaining nodes u := remaining_mono (hadds u c bs v hv)
        have ih := expandItems_ne_tooDeep hadds hvisit rest v (by omega)
        split
        · simp
        · rename_i e hrest
          rw [hrest] at ih
          exact ih
      · rename_i e he
        have := hvisit u c hu
        rw [he] at this
        exact this
  | .fail e :: rest, u, _ => by simp [expandItems]

omit [DecidableEq α] in
/-- A node without children needs no depth below it. -/
theorem expandItems_leaf (visit : List α → α → Expansion α β ε) :
    ∀ (l : List (Item α β ε)) (u : List α), (∀ c, .child c ∉ l) →
      expandItems visit u l ≠ .error .tooDeep
  | [], u, _ => by simp [expandItems]
  | .emit b :: rest, u, hl => by
      have ih := expandItems_leaf visit rest u fun c hc => hl c (List.mem_cons_of_mem _ hc)
      rw [expandItems]
      split
      · simp
      · rename_i e hrest
        rw [hrest] at ih
        exact ih
  | .child c :: rest, u, hl => absurd List.mem_cons_self (hl c)
  | .fail e :: rest, u, _ => by simp [expandItems]

/-- Fuel for each node that is left is enough. -/
theorem expand_ne_tooDeep {nodes : List α} (hleaf : ∀ x ∉ nodes, ∀ c, ¬ Includes items x c) :
    ∀ (fuel : Nat) (u : List α) (a : α), remaining nodes u < fuel →
      expand items fuel u a ≠ .error .tooDeep
  | 0, u, a, h => absurd h (Nat.not_lt_zero _)
  | fuel + 1, u, a, h => by
      rw [expand]
      split
      · simp
      · rename_i hu
        by_cases ha : a ∈ nodes
        · have hlt := remaining_cons_lt ha hu
          exact expandItems_ne_tooDeep (fun u a bs v hv => (expand_adds fuel u a bs v hv).1.subset)
            (expand_ne_tooDeep hleaf fuel) (items a) (a :: u) (by omega)
        · exact expandItems_leaf _ _ _ (hleaf a ha)

/-! ## 5. Two item functions -/

omit [DecidableEq α] in
theorem expandItems_congr {visit visit' : List α → α → Expansion α β ε} :
    ∀ (l : List (Item α β ε)) (u : List α),
      (∀ u c, .child c ∈ l → visit u c = visit' u c) →
        expandItems visit u l = expandItems visit' u l
  | [], _, _ => rfl
  | .emit b :: rest, u, h => by
      have ih := expandItems_congr rest u fun u c hc => h u c (List.mem_cons_of_mem _ hc)
      rw [expandItems, expandItems, ih]
  | .child c :: rest, u, h => by
      have ih : ∀ v, expandItems visit v rest = expandItems visit' v rest :=
        fun v => expandItems_congr rest v fun u c hc => h u c (List.mem_cons_of_mem _ hc)
      rw [expandItems, expandItems, h u c List.mem_cons_self]
      simp only [ih]
  | .fail e :: _, _, _ => rfl

/-- An expansion depends on the items of what it reaches. -/
theorem expand_congr {items items' : α → List (Item α β ε)} : ∀ (fuel : Nat) (u : List α) (a : α),
    (∀ x, Reaches items a x → items x = items' x) → expand items fuel u a = expand items' fuel u a
  | 0, _, _, _ => rfl
  | fuel + 1, u, a, h => by
      rw [expand, expand, ← h a .refl]
      split
      · rfl
      · refine expandItems_congr (items a) (a :: u) fun v c hc => ?_
        exact expand_congr fuel v c fun x hx => h x (.head hc hx)

/-- A run depends on the items of the nodes it can reach alone. -/
theorem expandFrom_congr {items items' : α → List (Item α β ε)} (nodes : List α) (root : α)
    (h : ∀ x, Reaches items root x → items x = items' x) :
    expandFrom items nodes root = expandFrom items' nodes root :=
  expand_congr _ [] root h

/-! ### The depth does not matter when it is enough -/

omit [DecidableEq α] in
theorem expandItems_of_ne_tooDeep {visit visit' : List α → α → Expansion α β ε}
    (hvisit : ∀ u c, visit u c ≠ .error .tooDeep → visit' u c = visit u c) :
    ∀ (l : List (Item α β ε)) (u : List α), expandItems visit u l ≠ .error .tooDeep →
      expandItems visit' u l = expandItems visit u l
  | [], _, _ => rfl
  | .emit b :: rest, u, h => by
      rw [expandItems] at h
      have ih := expandItems_of_ne_tooDeep hvisit rest u fun hdeep => h (by rw [hdeep])
      rw [expandItems, expandItems, ih]
  | .child c :: rest, u, h => by
      rw [expandItems] at h
      have hc := hvisit u c fun hdeep => h (by rw [hdeep])
      rw [expandItems, expandItems, hc]
      cases hfirst : visit u c with
      | error e => rfl
      | ok r =>
        rw [hfirst] at h
        have ih := expandItems_of_ne_tooDeep hvisit rest r.2 fun hdeep => h (by simp [hdeep])
        simp only [ih]
  | .fail e :: _, _, _ => rfl

/-- More fuel changes nothing once there is enough. -/
theorem expand_succ {items : α → List (Item α β ε)} : ∀ (fuel : Nat) (u : List α) (a : α),
    expand items fuel u a ≠ .error .tooDeep →
      expand items (fuel + 1) u a = expand items fuel u a
  | 0, _, _, h => absurd rfl h
  | fuel + 1, u, a, h => by
      rw [expand] at h
      rw [expand, expand.eq_2]
      split
      · rfl
      · rename_i hu
        rw [if_neg hu] at h
        exact expandItems_of_ne_tooDeep (expand_succ fuel) (items a) (a :: u) h

theorem expand_add {items : α → List (Item α β ε)} {fuel : Nat} {u : List α} {a : α}
    (h : expand items fuel u a ≠ .error .tooDeep) :
    ∀ more, expand items (fuel + more) u a = expand items fuel u a
  | 0 => rfl
  | more + 1 => by
      have ih := expand_add h more
      rw [← Nat.add_assoc, expand_succ _ u a (ih ▸ h), ih]

/-- Two lists of nodes that are both enough give the same run. -/
theorem expandFrom_nodes {items : α → List (Item α β ε)} {nodes nodes' : List α} {root : α}
    (h : expandFrom items nodes root ≠ .error .tooDeep)
    (h' : expandFrom items nodes' root ≠ .error .tooDeep) :
    expandFrom items nodes root = expandFrom items nodes' root := by
  unfold expandFrom at *
  rcases Nat.le_total nodes.length nodes'.length with hle | hle
  · obtain ⟨more, hmore⟩ := Nat.exists_eq_add_of_le hle
    rw [hmore, Nat.add_right_comm, expand_add h]
  · obtain ⟨more, hmore⟩ := Nat.exists_eq_add_of_le hle
    rw [hmore, Nat.add_right_comm, expand_add h']

/-- A node that only emits is expanded as it stands. -/
theorem expandFrom_of_emits {nodes : List α} {root : α} {bs : List β}
    (h : items root = bs.map .emit) : expandFrom items nodes root = .ok (bs, [root]) := by
  have hloop : ∀ (visit : List α → α → Expansion α β ε) (bs : List β),
      expandItems visit [root] (bs.map .emit) = .ok (bs, [root]) := by
    intro visit bs
    induction bs with
    | nil => rfl
    | cons b bs ih => rw [List.map_cons, expandItems, ih]
  rw [expandFrom, expand, if_neg (List.not_mem_nil), h]
  exact hloop _ bs

/-! ## 6. A whole run -/

section Run

variable {nodes : List α} {root : α}

theorem expandFrom_ne_tooDeep_of_forall (hleaf : ∀ x ∉ nodes, ∀ c, ¬ Includes items x c)
    (root : α) : expandFrom items nodes root ≠ .error .tooDeep := by
  have hle : remaining nodes [] ≤ nodes.length := List.countP_le_length
  exact expand_ne_tooDeep hleaf _ [] root (by omega)

open Classical in
/-- The depth is enough when the reachable nodes that include others are in `nodes`. -/
theorem expandFrom_ne_tooDeep
    (hleaf : ∀ x, Reaches items root x → ∀ c, Includes items x c → x ∈ nodes) :
    expandFrom items nodes root ≠ .error .tooDeep := by
  let reached : α → List (Item α β ε) := fun x => if Reaches items root x then items x else []
  have hcongr : expandFrom items nodes root = expandFrom reached nodes root :=
    expandFrom_congr nodes root fun x hx => (if_pos hx).symm
  rw [hcongr]
  refine expandFrom_ne_tooDeep_of_forall (fun x hx c hc => ?_) root
  by_cases hreach : Reaches items root x
  · exact hx (hleaf x hreach c (by simpa [Includes, reached, hreach] using hc))
  · simp [Includes, reached, hreach] at hc

variable {bs : List β} {v : List α}

omit [DecidableEq α] in
theorem reaches_step : ∀ x c, Reaches items root x → Includes items x c → Reaches items root c :=
  fun _ _ hx hc => hx.tail hc

/-- The opened files are those that the root reaches. -/
theorem mem_opened_iff (h : expandFrom items nodes root = .ok (bs, v)) (x : α) :
    x ∈ v ↔ Reaches items root x := by
  constructor
  · intro hx
    have hin := expand_within (P := Reaches items root) reaches_step (nodes.length + 1) [] root .refl
    rw [← expandFrom, h] at hin
    simpa using hin.1 x hx
  · intro hx
    obtain ⟨hadds, hroot⟩ := expand_adds _ _ _ _ _ h
    induction hx with
    | refl => exact hroot
    | tail _ hc ih => exact hadds.closed _ ih (by simp) _ hc

/-- The output is what the reached files emit. -/
theorem mem_output_iff (h : expandFrom items nodes root = .ok (bs, v)) (b : β) :
    b ∈ bs ↔ ∃ x, Reaches items root x ∧ .emit b ∈ items x := by
  constructor
  · intro hb
    have hin := expand_within (P := Reaches items root) reaches_step (nodes.length + 1) [] root .refl
    rw [← expandFrom, h] at hin
    exact hin.2 b hb
  · rintro ⟨x, hx, hb⟩
    have hadds := (expand_adds _ _ _ _ _ h).1
    exact hadds.emitted x ((mem_opened_iff h x).mpr hx) (by simp) b hb

/-- In an expansion that succeeds nothing fails. -/
theorem no_fail_of_ok (h : expandFrom items nodes root = .ok (bs, v)) {x : α}
    (hx : Reaches items root x) (e : ε) : .fail e ∉ items x :=
  (expand_adds _ _ _ _ _ h).1.noFail x ((mem_opened_iff h x).mpr hx) (by simp) e

/-- An expansion that raises reached an item that fails. -/
theorem fail_of_raised {e : ε} (h : expandFrom items nodes root = .error (.raised e)) :
    ∃ x, Reaches items root x ∧ .fail e ∈ items x := by
  have hin := expand_within (P := Reaches items root) reaches_step (nodes.length + 1) [] root .refl
  rw [← expandFrom, h] at hin
  exact hin

/-- A run returns exactly when no reachable node has a failing item. -/
theorem expandFrom_ok_iff
    (hleaf : ∀ x, Reaches items root x → ∀ c, Includes items x c → x ∈ nodes) :
    (∃ r, expandFrom items nodes root = .ok r) ↔
      ∀ x, Reaches items root x → ∀ e, .fail e ∉ items x := by
  constructor
  · rintro ⟨⟨bs, v⟩, h⟩ x hx e
    exact no_fail_of_ok h hx e
  · intro hno
    cases h : expandFrom items nodes root with
    | ok r => exact ⟨r, rfl⟩
    | error err =>
      cases err with
      | tooDeep => exact absurd h (expandFrom_ne_tooDeep hleaf)
      | raised e =>
        obtain ⟨x, hx, hfail⟩ := fail_of_raised h
        exact absurd hfail (hno x hx e)

end Run

/-! ## 7. Items that are checked

A reader that may refuse an item, against one that takes every item as it is. -/

section Checked

variable {ε' : Type}

/-- The same item, or a failure in its place. -/
inductive Item.Checks : Item α β ε → Item α β ε' → Prop
  | emit (b : β) : Checks (.emit b) (.emit b)
  | child (a : α) : Checks (.child a) (.child a)
  | fail (e : ε) (item : Item α β ε') : Checks (.fail e) item

/-- `items` checks what `items'` takes. -/
def Checks (items : α → List (Item α β ε)) (items' : α → List (Item α β ε')) : Prop :=
  ∀ a, List.Forall₂ Item.Checks (items a) (items' a)

variable {items' : α → List (Item α β ε')}

omit [DecidableEq α] in
theorem child_mem_of_checks {l : List (Item α β ε)} {l' : List (Item α β ε')} {c : α}
    (h : List.Forall₂ Item.Checks l l') (hc : Item.child c ∈ l) : Item.child c ∈ l' := by
  induction h with
  | nil => exact absurd hc List.not_mem_nil
  | cons hitem _ ih =>
    rcases List.mem_cons.mp hc with rfl | hc
    · cases hitem
      exact List.mem_cons_self
    · exact List.mem_cons_of_mem _ (ih hc)

omit [DecidableEq α] in
/-- Where no check fails no child is lost. -/
theorem child_mem_of_no_fail {l : List (Item α β ε)} {l' : List (Item α β ε')} {c : α}
    (h : List.Forall₂ Item.Checks l l') (hno : ∀ e, .fail e ∉ l) (hc : Item.child c ∈ l') :
    Item.child c ∈ l := by
  induction h with
  | nil => exact absurd hc List.not_mem_nil
  | cons hitem _ ih =>
    rcases List.mem_cons.mp hc with rfl | hc
    · cases hitem with
      | child a => exact List.mem_cons_self
      | fail e item => exact absurd List.mem_cons_self (hno e)
    · exact List.mem_cons_of_mem _ (ih (fun e he => hno e (List.mem_cons_of_mem _ he)) hc)

omit [DecidableEq α] in
/-- One graph's reachable nodes are another's when the edges out of those are. -/
theorem reaches_of_includes {root x : α}
    (h : ∀ y c, Reaches items' root y → Includes items y c → Includes items' y c)
    (hx : Reaches items root x) : Reaches items' root x := by
  induction hx with
  | refl => exact .refl
  | tail _ hc ih => exact ih.tail (h _ _ ih hc)

omit [DecidableEq α] in
/-- What is reached with the checks is reached without them. -/
theorem Checks.reaches (h : Checks items items') {root x : α} (hx : Reaches items root x) :
    Reaches items' root x :=
  reaches_of_includes (fun y _ _ hc => child_mem_of_checks (h y) hc) hx

/-- A checked run returns exactly when no item the unchecked one meets is refused. -/
theorem Checks.expandFrom_ok_iff (h : Checks items items') {nodes : List α} {root : α}
    (hleaf : ∀ x, Reaches items root x → ∀ c, Includes items x c → x ∈ nodes) :
    (∃ r, expandFrom items nodes root = .ok r) ↔
      ∀ x, Reaches items' root x → ∀ e, .fail e ∉ items x := by
  rw [Search.expandFrom_ok_iff hleaf]
  constructor
  · intro hno x hx
    refine hno x (reaches_of_includes (fun y c hy hc => ?_) hx)
    exact child_mem_of_no_fail (h y) (hno y hy) hc
  · exact fun hno x hx => hno x (h.reaches hx)

end Checked

end EccFe.Search
