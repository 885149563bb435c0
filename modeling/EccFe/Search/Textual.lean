/-
EccFe.Search.Textual — where in the text of a root a node is expanded.

`EccFe.Search.Expand` says which nodes a run opens. Here is what it makes of their order. A place
is the list of item numbers that leads from the root to a node, and places are compared as the
text runs: lexicographically. A node occurs at a place when no node is met twice on the way; inside
itself a node contributes nothing.

`Textual` is the expansion without a run: the emitted entries of each node at its first
occurrence, in the order of their places. A run that returns gives this expansion
(`textual_of_expand`).
-/
import Mathlib.Data.List.Induction
import EccFe.Search.Expand

namespace EccFe.Search

variable {α β ε : Type}

/-! ## 1. Occurrences -/

/-- Below `a`, and off the path that leads to `a`, the place is one of `x`. -/
inductive Occurs (items : α → List (Item α β ε)) : List α → α → List Nat → α → Prop
  | here {path : List α} {a : α} (ha : a ∉ path) : Occurs items path a [] a
  | child {path : List α} {a c x : α} {i : Nat} {place : List Nat} (ha : a ∉ path)
      (hchild : (items a)[i]? = some (.child c)) (h : Occurs items (a :: path) c place x) :
      Occurs items path a (i :: place) x

/-- The first of the occurrences of `x`. -/
def First (occurs : List Nat → α → Prop) (place : List Nat) (x : α) : Prop :=
  occurs place x ∧ ∀ place', occurs place' x → ¬place' < place

/-- The node is expanded at this place: the place is in an expanded node, and the first of the
node's occurrences. -/
inductive ExpandedAt (items : α → List (Item α β ε)) (root : α) : List Nat → α → Prop
  | root : ExpandedAt items root [] root
  | child {place : List Nat} {y x : α} {j : Nat} (hy : ExpandedAt items root place y)
      (hchild : (items y)[j]? = some (.child x))
      (hfirst : First (Occurs items [] root) (place ++ [j]) x) :
      ExpandedAt items root (place ++ [j]) x

/-- The entries of the expanded nodes in the order of their places. The place of an entry ends with
its number among the items of its node. -/
def Textual (items : α → List (Item α β ε)) (root : α) (entries : List β) : Prop :=
  ∃ slots : List (List Nat × β), slots.map Prod.snd = entries ∧
    slots.Pairwise (fun s t => s.1 < t.1) ∧
    ∀ s b, (s, b) ∈ slots ↔ ∃ place i x, s = place ++ [i] ∧
      ExpandedAt items root place x ∧ (items x)[i]? = some (.emit b)

section

variable {items : α → List (Item α β ε)} {path : List α} {a x : α} {place : List Nat}

theorem Occurs.not_mem (h : Occurs items path a place x) : a ∉ path ∧ x ∉ path := by
  induction h with
  | here ha => exact ⟨ha, ha⟩
  | child ha hchild h ih => exact ⟨ha, fun hmem => ih.2 (List.mem_cons_of_mem _ hmem)⟩

/-- The children of the open nodes are open, but for those that are being read. -/
def Closed (items : α → List (Item α β ε)) (path u : List α) : Prop :=
  ∀ x ∈ u, x ∉ path → ∀ c, Includes items x c → c ∈ u

/-- Below an open node that is done everything is open. -/
theorem Occurs.mem_of_closed {u : List α} (h : Occurs items path a place x)
    (hclosed : Closed items path u) (ha : a ∈ u) : x ∈ u := by
  induction h with
  | here _ => exact ha
  | @child path a c x i place hpath hchild h ih =>
    refine ih (fun y hy hnot => hclosed y hy fun hmem => hnot (List.mem_cons_of_mem a hmem)) ?_
    exact hclosed a ha hpath c (List.mem_of_getElem? hchild)

theorem Closed.of_adds [DecidableEq α] {u v : List α} {bs : List β} (h : Closed items path u)
    (hadds : Adds items u v bs) : Closed items path v := by
  intro x hx hnot c hc
  by_cases hu : x ∈ u
  · exact hadds.subset (h x hu hnot c hc)
  · exact hadds.closed x hx hu c hc

/-- The place is one of `x` below the items `l`, the first of which has the number `k`. -/
def OccursIn (items : α → List (Item α β ε)) (path : List α) (l : List (Item α β ε)) (k : Nat)
    (place : List Nat) (x : α) : Prop :=
  ∃ j c rest, place = (k + j) :: rest ∧ l[j]? = some (.child c) ∧ Occurs items path c rest x

theorem not_occursIn_nil {k : Nat} : ¬OccursIn items path [] k place x := by
  intro h
  obtain ⟨j, c, rest, -, hchild, -⟩ := h
  simp at hchild

/-- Below the items that follow the first. -/
theorem occursIn_cons {item : Item α β ε} {l : List (Item α β ε)} {k : Nat} :
    OccursIn items path (item :: l) k place x ↔
      (∃ c rest, item = .child c ∧ place = k :: rest ∧ Occurs items path c rest x) ∨
        OccursIn items path l (k + 1) place x := by
  constructor
  · intro ⟨j, c, rest, hplace, hchild, h⟩
    cases j with
    | zero => exact .inl ⟨c, rest, by simpa using hchild, hplace, h⟩
    | succ j => exact .inr ⟨j, c, rest, by rw [hplace]; congr 1; omega, by simpa using hchild, h⟩
  · rintro (⟨c, rest, rfl, rfl, h⟩ | ⟨j, c, rest, hplace, hchild, h⟩)
    · exact ⟨0, c, rest, rfl, rfl, h⟩
    · exact ⟨j + 1, c, rest, by rw [hplace]; congr 1; omega, by simpa using hchild, h⟩

/-- Below a node are the node itself and what is below its items. -/
theorem occurs_iff (ha : a ∉ path) :
    Occurs items path a place x ↔
      (place = [] ∧ x = a) ∨ OccursIn items (a :: path) (items a) 0 place x := by
  constructor
  · intro h
    cases h with
    | here _ => exact .inl ⟨rfl, rfl⟩
    | @child _ _ c _ i rest _ hchild h =>
      exact .inr ⟨i, c, rest, by rw [Nat.zero_add], hchild, h⟩
  · rintro (⟨rfl, rfl⟩ | ⟨j, c, rest, rfl, hchild, h⟩)
    · exact .here ha
    · exact .child ha (by simpa using hchild) h

/-- The node that holds an occurrence. -/
theorem Occurs.init {j : Nat} (h : Occurs items path a (place ++ [j]) x) :
    ∃ y, Occurs items path a place y ∧ (items y)[j]? = some (.child x) := by
  induction place generalizing path a with
  | nil =>
    cases h with
    | child ha hchild h =>
      cases h with
      | here _ => exact ⟨a, .here ha, hchild⟩
  | cons i place ih =>
    cases h with
    | child ha hchild h =>
      obtain ⟨y, hy, hj⟩ := ih h
      exact ⟨y, .child ha hchild hy, hj⟩

/-- A child of a node that occurs, if it is not on the path, occurs too. -/
theorem Occurs.extend {y : α} {j : Nat} (h : Occurs items path a place y)
    (hchild : (items y)[j]? = some (.child x)) (hx : x ∉ path) :
    ∃ place', Occurs items path a place' x := by
  induction h with
  | @here path a ha =>
    by_cases hxa : x = a
    · exact ⟨[], by rw [hxa]; exact .here ha⟩
    · exact ⟨[j], .child ha hchild (.here (by simp [hxa, hx]))⟩
  | @child path a c y i place ha hc h ih =>
    by_cases hxa : x = a
    · exact ⟨[], by rw [hxa]; exact .here ha⟩
    · obtain ⟨place', h'⟩ := ih hchild (by simp [hxa, hx])
      exact ⟨i :: place', .child ha hc h'⟩

/-- A node that occurs earlier takes its children with it. -/
theorem Occurs.earlier {y : α} {j : Nat} {place' : List Nat} (hy : Occurs items path a place y)
    (hx : Occurs items path a (place ++ [j]) x) (hchild : (items y)[j]? = some (.child x))
    (hy' : Occurs items path a place' y) (hlt : place' < place) :
    ∃ place'', Occurs items path a place'' x ∧ place'' < place ++ [j] := by
  induction place generalizing path a place' with
  | nil => exact absurd hlt (List.not_lt_nil place')
  | cons i place ih =>
    cases hy with
    | @child _ _ c _ _ _ ha hc hy =>
      cases hx with
      | @child _ _ d _ _ _ _ hd hx =>
        obtain rfl : c = d := by simpa [hc] using hd
        cases hy' with
        | here _ => exact absurd List.mem_cons_self hy.not_mem.2
        | @child _ _ c' _ i' place' _ hc' hy' =>
          rcases List.cons_lt_cons_iff.mp hlt with hi | ⟨rfl, hrest⟩
          · obtain ⟨place'', h⟩ := hy'.extend hchild hx.not_mem.2
            exact ⟨i' :: place'', .child ha hc' h, List.cons_lt_cons_iff.mpr (.inl hi)⟩
          · obtain rfl : c = c' := by simpa [hc] using hc'
            obtain ⟨place'', h, hlt'⟩ := ih hy hx hy' hrest
            exact ⟨i' :: place'', .child ha hc h, List.cons_lt_cons_iff.mpr (.inr ⟨rfl, hlt'⟩)⟩

/-- The expanded places are the first occurrences: a first occurrence is in a node that is at its
first occurrence itself. -/
theorem expandedAt_iff {root : α} :
    ExpandedAt items root place x ↔ First (Occurs items [] root) place x := by
  constructor
  · intro h
    cases h with
    | root => exact ⟨.here List.not_mem_nil, fun place' _ => List.not_lt_nil place'⟩
    | child _ _ hfirst => exact hfirst
  · intro h
    induction place using List.reverseRecOn generalizing x with
    | nil =>
      cases h.1 with
      | here _ => exact .root
    | append_singleton place j ih =>
      obtain ⟨y, hy, hchild⟩ := h.1.init
      refine .child (ih ⟨hy, fun place' hy' hlt => ?_⟩) hchild h
      obtain ⟨place'', hx, hearlier⟩ := hy.earlier h.1 hchild hy' hlt
      exact h.2 place'' hx hearlier

theorem OccursIn.le_head {l : List (Item α β ε)} {k : Nat}
    (h : OccursIn items path l k place x) : ∃ j rest, place = (k + j) :: rest := by
  obtain ⟨j, c, rest, hplace, -, -⟩ := h
  exact ⟨j, rest, hplace⟩

end

/-! ## 2. What one run emits -/

/-- A run from the open nodes `u` to `v` opens what occurs and emits, in the order of their places,
the entries of the nodes that were not open, at their first occurrences. `own` are entries of the
node that is being read. -/
structure Expanded (items : α → List (Item α β ε)) (occurs : List Nat → α → Prop)
    (own : List Nat → β → Prop) (u v : List α) (slots : List (List Nat × β)) : Prop where
  opened : ∀ x, x ∈ v ↔ x ∈ u ∨ ∃ place, occurs place x
  sorted : slots.Pairwise fun s t => s.1 < t.1
  mem : ∀ s b, (s, b) ∈ slots ↔ own s b ∨ ∃ place i x, s = place ++ [i] ∧ x ∉ u ∧
    First occurs place x ∧ (items x)[i]? = some (.emit b)

/-- The entries among the items `l` themselves. -/
def Own (l : List (Item α β ε)) (k : Nat) (s : List Nat) (b : β) : Prop :=
  ∃ j, s = [k + j] ∧ l[j]? = some (.emit b)

theorem own_cons {item : Item α β ε} {l : List (Item α β ε)} {k : Nat} {s : List Nat} {b : β} :
    Own (item :: l) k s b ↔ (s = [k] ∧ item = .emit b) ∨ Own l (k + 1) s b := by
  constructor
  · intro h
    obtain ⟨j, hs, hitem⟩ := h
    cases j with
    | zero => exact .inl ⟨hs, by simpa using hitem⟩
    | succ j => exact .inr ⟨j, by rw [hs]; congr 1; omega, by simpa using hitem⟩
  · rintro (⟨rfl, rfl⟩ | ⟨j, hs, hitem⟩)
    · exact ⟨0, rfl, rfl⟩
    · exact ⟨j + 1, by rw [hs]; congr 1; omega, by simpa using hitem⟩

/-- `Expanded` of the loop over the items `l`. -/
abbrev ExpandedIn (items : α → List (Item α β ε)) (path : List α) (l : List (Item α β ε)) (k : Nat) :
    List α → List α → List (List Nat × β) → Prop :=
  Expanded items (OccursIn items path l k) (Own l k)

section Run

variable {items : α → List (Item α β ε)} {path u v w : List α} {l : List (Item α β ε)} {k : Nat}
  {slots more : List (List Nat × β)}

/-- The slots of a loop start with the numbers of its items. -/
theorem Expanded.le_head (h : ExpandedIn items path l k u v slots) :
    ∀ slot ∈ slots, ∃ j rest, slot.1 = (k + j) :: rest := by
  intro slot hmem
  rcases (h.mem slot.1 slot.2).mp hmem with ⟨j, hs, -⟩ | ⟨place, i, x, hs, -, hfirst, -⟩
  · exact ⟨j, [], hs⟩
  · obtain ⟨j, rest, hplace⟩ := hfirst.1.le_head
    exact ⟨j, rest ++ [i], by rw [hs, hplace]; rfl⟩

/-- A slot of the first item is before those of the others. -/
theorem Expanded.lt_of_head (h : ExpandedIn items path l (k + 1) u v slots) (rest : List Nat) :
    ∀ slot ∈ slots, k :: rest < slot.1 := by
  intro slot hmem
  obtain ⟨j, rest', hs⟩ := h.le_head slot hmem
  rw [hs, List.cons_lt_cons_iff]
  exact .inl (by omega)

theorem expandedIn_nil (items : α → List (Item α β ε)) (path u : List α) (k : Nat) :
    ExpandedIn items path [] k u u [] where
  opened x := by simp [not_occursIn_nil]
  sorted := List.Pairwise.nil
  mem s b := by simp [Own, First, not_occursIn_nil]

theorem Expanded.emit (b : β) (h : ExpandedIn items path l (k + 1) u v slots) :
    ExpandedIn items path (.emit b :: l) k u v (([k], b) :: slots) := by
  have hoccurs : OccursIn items path (.emit b :: l) k = OccursIn items path l (k + 1) := by
    funext place x
    simp [occursIn_cons]
  refine ⟨?_, List.pairwise_cons.mpr ⟨h.lt_of_head [], h.sorted⟩, ?_⟩
  · rw [hoccurs]
    exact h.opened
  · intro s b'
    rw [hoccurs, own_cons, List.mem_cons, h.mem, or_assoc, Prod.mk.injEq, Item.emit.injEq,
      @eq_comm _ b' b]

theorem occursIn_child {c x : α} {place : List Nat} :
    OccursIn items path (.child c :: l) k place x ↔
      (∃ rest, place = k :: rest ∧ Occurs items path c rest x) ∨
        OccursIn items path l (k + 1) place x := by
  rw [occursIn_cons]
  simp

/-- An occurrence below the first item is before all the others. -/
theorem first_child_iff {c x : α} {place : List Nat} :
    First (OccursIn items path (.child c :: l) k) place x ↔
      (∃ rest, place = k :: rest ∧ First (Occurs items path c) rest x) ∨
        (First (OccursIn items path l (k + 1)) place x ∧ ∀ rest, ¬Occurs items path c rest x) := by
  have hlater : ∀ place rest, OccursIn items path l (k + 1) place x → k :: rest < place := by
    intro place rest h
    obtain ⟨j, rest', rfl⟩ := h.le_head
    rw [List.cons_lt_cons_iff]
    exact .inl (by omega)
  constructor
  · intro h
    obtain ⟨hoccurs, hfirst⟩ := h
    rcases occursIn_child.mp hoccurs with ⟨rest, rfl, hrest⟩ | hin
    · refine .inl ⟨rest, rfl, hrest, fun rest' hrest' hlt => ?_⟩
      exact hfirst (k :: rest') (occursIn_child.mpr (.inl ⟨rest', rfl, hrest'⟩))
        (List.cons_lt_cons_iff.mpr (.inr ⟨rfl, hlt⟩))
    · refine .inr ⟨⟨hin, fun place' h' => hfirst place' (occursIn_child.mpr (.inr h'))⟩, ?_⟩
      intro rest hrest
      exact hfirst (k :: rest) (occursIn_child.mpr (.inl ⟨rest, rfl, hrest⟩))
        (hlater place rest hin)
  · rintro (⟨rest, rfl, hrest, hfirst⟩ | ⟨⟨hin, hfirst⟩, hnone⟩)
    · refine ⟨occursIn_child.mpr (.inl ⟨rest, rfl, hrest⟩), fun place' h' => ?_⟩
      rcases occursIn_child.mp h' with ⟨rest', rfl, hrest'⟩ | hin'
      · rw [List.cons_lt_cons_iff]
        rintro (hlt | ⟨-, hlt⟩)
        · exact absurd hlt (Nat.lt_irrefl k)
        · exact hfirst rest' hrest' hlt
      · exact fun hlt => List.lt_asymm hlt (hlater place' rest hin')
    · refine ⟨occursIn_child.mpr (.inr hin), fun place' h' => ?_⟩
      rcases occursIn_child.mp h' with ⟨rest', -, hrest'⟩ | hin'
      · exact absurd hrest' (hnone rest')
      · exact hfirst place' hin'

/-- The entries below a child, then those of the other items. -/
theorem Expanded.child {c : α} (h : Expanded items (Occurs items path c) (fun _ _ => False) u v slots)
    (hmore : ExpandedIn items path l (k + 1) v w more) :
    ExpandedIn items path (.child c :: l) k u w
      (slots.map (fun slot => (k :: slot.1, slot.2)) ++ more) := by
  refine ⟨fun x => ?_, List.pairwise_append.mpr ⟨?_, hmore.sorted, ?_⟩, fun s b => ?_⟩
  · rw [hmore.opened, h.opened, or_assoc]
    simp only [occursIn_child, exists_or]
    refine or_congr_right (or_congr_left ?_)
    constructor
    · intro hplace
      obtain ⟨place, hplace⟩ := hplace
      exact ⟨k :: place, place, rfl, hplace⟩
    · intro hplace
      obtain ⟨_, place, -, hplace⟩ := hplace
      exact ⟨place, hplace⟩
  · rw [List.pairwise_map]
    refine h.sorted.imp fun hlt => ?_
    rw [List.cons_lt_cons_iff]
    exact .inr ⟨rfl, hlt⟩
  · intro slot hslot slot' hslot'
    obtain ⟨first, -, rfl⟩ := List.mem_map.mp hslot
    exact hmore.lt_of_head first.1 slot' hslot'
  · have hopened : ∀ x, x ∉ v ↔ x ∉ u ∧ ∀ rest, ¬Occurs items path c rest x := by
      intro x
      rw [h.opened, not_or, not_exists]
    have hown : Own (.child c :: l) k s b ↔ Own l (k + 1) s b := by
      rw [own_cons]
      simp
    rw [List.mem_append, hmore.mem, hown]
    constructor
    · rintro (hslot | hslot | ⟨place, i, x, hs, hx, hfirst, hitem⟩)
      · obtain ⟨⟨s', b'⟩, hmem, heq⟩ := List.mem_map.mp hslot
        obtain ⟨rfl, rfl⟩ := Prod.mk.inj heq
        obtain hfalse | ⟨place, i, x, rfl, hx, hfirst, hitem⟩ := (h.mem s' b').mp hmem
        · exact absurd hfalse id
        · exact .inr ⟨k :: place, i, x, rfl, hx, first_child_iff.mpr (.inl ⟨place, rfl, hfirst⟩), hitem⟩
      · exact .inl hslot
      · obtain ⟨hu, hnone⟩ := (hopened x).mp hx
        exact .inr ⟨place, i, x, hs, hu, first_child_iff.mpr (.inr ⟨hfirst, hnone⟩), hitem⟩
    · rintro (hslot | ⟨place, i, x, rfl, hx, hfirst, hitem⟩)
      · exact .inr (.inl hslot)
      · rcases first_child_iff.mp hfirst with ⟨rest, rfl, hrest⟩ | ⟨hin, hnone⟩
        · refine .inl (List.mem_map.mpr ⟨(rest ++ [i], b), ?_, rfl⟩)
          exact (h.mem _ _).mpr (.inr ⟨rest, i, x, rfl, hx, hrest, hitem⟩)
        · exact .inr (.inr ⟨place, i, x, rfl, (hopened x).mpr ⟨hx, hnone⟩, hin, hitem⟩)

/-- The loop, given what each call of `visit` does. -/
theorem expandItems_expanded [DecidableEq α] {visit : List α → α → Expansion α β ε}
    (hadds : ∀ u a bs v, visit u a = .ok (bs, v) → Adds items u v bs)
    (hvisit : ∀ u a bs v, visit u a = .ok (bs, v) → path ⊆ u → Closed items path u →
      ∃ slots, slots.map Prod.snd = bs ∧
        Expanded items (Occurs items path a) (fun _ _ => False) u v slots) :
    ∀ (l : List (Item α β ε)) (k : Nat) (u : List α) (bs : List β) (v : List α),
      expandItems visit u l = .ok (bs, v) → path ⊆ u → Closed items path u →
        ∃ slots, slots.map Prod.snd = bs ∧ ExpandedIn items path l k u v slots
  | [], k, u, bs, v, h, _, _ => by
      cases h
      exact ⟨[], rfl, expandedIn_nil items path u k⟩
  | .emit b :: rest, k, u, bs, v, h, hpath, hclosed => by
      simp only [expandItems] at h
      split at h <;> cases h
      rename_i hrest
      obtain ⟨slots, rfl, hslots⟩ :=
        expandItems_expanded hadds hvisit rest (k + 1) u _ _ hrest hpath hclosed
      exact ⟨([k], b) :: slots, rfl, hslots.emit b⟩
  | .child c :: rest, k, u, bs, v, h, hpath, hclosed => by
      simp only [expandItems] at h
      split at h
      · rename_i bs₁ v₁ hfirst
        split at h <;> cases h
        rename_i hrest
        have hadded := hadds u c bs₁ v₁ hfirst
        obtain ⟨slots, rfl, hslots⟩ := hvisit u c bs₁ v₁ hfirst hpath hclosed
        obtain ⟨more, rfl, hmore⟩ := expandItems_expanded hadds hvisit rest (k + 1) v₁ _ _ hrest
          (List.Subset.trans hpath hadded.subset) (hclosed.of_adds hadded)
        refine ⟨_, ?_, hslots.child hmore⟩
        simp
      · cases h
  | .fail e :: rest, _, _, _, _, h, _, _ => by cases h

/-- A node is first at its own place, and what is below it is first below its items. -/
theorem first_node_iff {a x : α} {place : List Nat} (ha : a ∉ path) :
    First (Occurs items path a) place x ↔
      (place = [] ∧ x = a) ∨
        (x ≠ a ∧ First (OccursIn items (a :: path) (items a) 0) place x) := by
  have hne : ∀ place, OccursIn items (a :: path) (items a) 0 place x → x ≠ a := by
    rintro place ⟨_, _, _, -, -, h⟩ rfl
    exact h.not_mem.2 List.mem_cons_self
  constructor
  · intro h
    obtain ⟨hoccurs, hfirst⟩ := h
    rcases (occurs_iff ha).mp hoccurs with hroot | hin
    · exact .inl hroot
    · exact .inr ⟨hne place hin, hin, fun place' h' => hfirst place' ((occurs_iff ha).mpr (.inr h'))⟩
  · rintro (⟨rfl, rfl⟩ | ⟨hxa, hin, hfirst⟩)
    · exact ⟨.here ha, fun place' _ => List.not_lt_nil place'⟩
    · refine ⟨(occurs_iff ha).mpr (.inr hin), fun place' h' => ?_⟩
      rcases (occurs_iff ha).mp h' with ⟨-, heq⟩ | hin'
      · exact absurd heq hxa
      · exact hfirst place' hin'

/-- A node that is opened, given the loop over its items. -/
theorem Expanded.node {a : α} (hpath : a ∉ path)
    (h : ExpandedIn items (a :: path) (items a) 0 (a :: u) v slots) (hu : a ∉ u) :
    Expanded items (Occurs items path a) (fun _ _ => False) u v slots := by
  refine ⟨fun x => ?_, h.sorted, fun s b => ?_⟩
  · rw [h.opened, List.mem_cons]
    simp only [occurs_iff hpath, exists_or]
    constructor
    · rintro ((rfl | hx) | hin)
      · exact .inr (.inl ⟨[], rfl, rfl⟩)
      · exact .inl hx
      · exact .inr (.inr hin)
    · rintro (hx | ⟨_, -, rfl⟩ | hin)
      · exact .inl (.inr hx)
      · exact .inl (.inl rfl)
      · exact .inr hin
  · rw [h.mem]
    constructor
    · rintro (⟨j, hs, hitem⟩ | ⟨place, i, x, hs, hx, hfirst, hitem⟩)
      · rw [Nat.zero_add] at hs
        exact .inr ⟨[], j, a, hs, hu, (first_node_iff hpath).mpr (.inl ⟨rfl, rfl⟩), hitem⟩
      · rw [List.mem_cons, not_or] at hx
        exact .inr ⟨place, i, x, hs, hx.2, (first_node_iff hpath).mpr (.inr ⟨hx.1, hfirst⟩), hitem⟩
    · rintro (hfalse | ⟨place, i, x, hs, hx, hfirst, hitem⟩)
      · exact absurd hfalse id
      · rcases (first_node_iff hpath).mp hfirst with ⟨rfl, rfl⟩ | ⟨hne, hin⟩
        · exact .inl ⟨i, by rw [Nat.zero_add]; exact hs, hitem⟩
        · exact .inr ⟨place, i, x, hs, by simp [hne, hx], hin, hitem⟩

theorem expand_expanded [DecidableEq α] : ∀ (fuel : Nat) (path u : List α) (a : α) (bs : List β)
    (v : List α), expand items fuel u a = .ok (bs, v) → path ⊆ u → Closed items path u →
      ∃ slots, slots.map Prod.snd = bs ∧
        Expanded items (Occurs items path a) (fun _ _ => False) u v slots
  | 0, _, _, _, _, _, h, _, _ => by cases h
  | fuel + 1, path, u, a, bs, v, h, hpath, hclosed => by
      rw [expand] at h
      split at h
      · rename_i ha
        cases h
        -- an open node is done or being read: what occurs below it is open
        have hopen : ∀ place x, Occurs items path a place x → x ∈ u :=
          fun place x hoccurs => hoccurs.mem_of_closed hclosed ha
        refine ⟨[], rfl, fun x => ?_, List.Pairwise.nil, fun s b => ?_⟩
        · refine ⟨.inl, fun hx => hx.elim id fun hoccurs => ?_⟩
          obtain ⟨place, hplace⟩ := hoccurs
          exact hopen place x hplace
        · refine ⟨fun hmem => absurd hmem List.not_mem_nil, ?_⟩
          rintro (hfalse | ⟨place, i, x, -, hx, hfirst, -⟩)
          · exact absurd hfalse id
          · exact absurd (hopen place x hfirst.1) hx
      · rename_i ha
        have hclosed' : Closed items (a :: path) (a :: u) := by
          intro x hx hnot c hc
          rw [List.mem_cons, not_or] at hnot
          have hxu : x ∈ u := (List.mem_cons.mp hx).resolve_left hnot.1
          exact List.mem_cons_of_mem a (hclosed x hxu hnot.2 c hc)
        obtain ⟨slots, hbs, hslots⟩ := expandItems_expanded
          (fun u a bs v hv => (expand_adds fuel u a bs v hv).1)
          (fun u c bs v hv => expand_expanded fuel (a :: path) u c bs v hv)
          (items a) 0 (a :: u) bs v h (List.cons_subset_cons a hpath) hclosed'
        exact ⟨slots, hbs, hslots.node (fun hmem => ha (hpath hmem)) ha⟩

/-- What a run returns is the textual expansion of its root. -/
theorem textual_of_expand [DecidableEq α] {fuel : Nat} {root : α} {bs : List β}
    (h : expand items fuel [] root = .ok (bs, v)) : Textual items root bs := by
  obtain ⟨slots, hbs, hslots⟩ := expand_expanded fuel [] [] root bs v h (List.Subset.refl _)
    (fun x hx => absurd hx List.not_mem_nil)
  refine ⟨slots, hbs, hslots.sorted, fun s b => ?_⟩
  rw [hslots.mem]
  simp [expandedAt_iff]

/-- There is one textual expansion. -/
theorem Textual.unique {root : α} {bs cs : List β} (hb : Textual items root bs)
    (hc : Textual items root cs) : bs = cs := by
  obtain ⟨slots, rfl, hsorted, hmem⟩ := hb
  obtain ⟨slots', rfl, hsorted', hmem'⟩ := hc
  have hnodup : ∀ slots : List (List Nat × β), slots.Pairwise (fun s t => s.1 < t.1) →
      slots.Nodup := by
    intro slots h
    refine h.imp fun hlt heq => ?_
    rw [heq] at hlt
    exact List.lt_irrefl _ hlt
  have hperm : slots.Perm slots' := by
    refine (List.perm_ext_iff_of_nodup (hnodup slots hsorted) (hnodup slots' hsorted')).mpr ?_
    intro slot
    exact (hmem slot.1 slot.2).trans (hmem' slot.1 slot.2).symm
  have heq : slots = slots' := hperm.eq_of_pairwise
    (fun s t _ _ hst hts => absurd hts (List.lt_asymm hst)) hsorted hsorted'
  rw [heq]

end Run

end EccFe.Search
