/-
EccFe.Search.Kahn — a topological sort by counting, with a depth for every node.

Nodes without an unfinished predecessor wait in a queue. A node that is taken off the queue lowers
the count of each of its successors and raises their depth; a successor whose count reaches zero
joins the queue. The order of the nodes and the order of the successors are part of the graph.

* The nodes that are taken are those that lie behind no cycle (`Taken.mem_iff_clear`), so some are
  left exactly when there is a cycle (`taken_lt_iff`).
* Nodes are taken in the order of their depth, and the depth is the number of nodes on a longest
  path that ends there (`Taken.level`).
* The last node taken ends a longest path (`last_deepest`). Any node that does is the last one under
  some order (`exists_order_last`).
-/
import Mathlib.Data.Fintype.Card
import Mathlib.Data.List.Chain
import Mathlib.Data.List.Nodup
import Mathlib.Data.List.Perm.Subperm
import Mathlib.Data.Set.Finite.Basic
import Mathlib.Logic.Relation

namespace EccFe.Search.Kahn

variable {κ : Type}

/-! ## 1. Graphs and paths -/

structure Graph (κ : Type) where
  nodes : List κ
  next : κ → List κ
  nodup_nodes : nodes.Nodup
  nodup_next : ∀ a, (next a).Nodup
  next_subset : ∀ a ∈ nodes, ∀ b ∈ next a, b ∈ nodes

def Edge (g : Graph κ) (a b : κ) : Prop := a ∈ g.nodes ∧ b ∈ g.next a

/-- A path of `n` nodes ends at the node. -/
inductive EndsAt (g : Graph κ) : Nat → κ → Prop where
  | single {a : κ} : a ∈ g.nodes → EndsAt g 1 a
  | step {n : Nat} {a b : κ} : EndsAt g n a → Edge g a b → EndsAt g (n + 1) b

/-- The longest path that ends at the node has `n` nodes. -/
def Level (g : Graph κ) (n : Nat) (a : κ) : Prop := EndsAt g n a ∧ ∀ m, EndsAt g m a → m ≤ n

/-- A node behind no cycle. -/
def Clear (g : Graph κ) (a : κ) : Prop :=
  a ∈ g.nodes ∧ ∀ c, Relation.TransGen (Edge g) c c → ¬Relation.ReflTransGen (Edge g) c a

/-- Among the nodes behind no cycle, one that a longest path ends at. -/
def Deepest (g : Graph κ) (a : κ) : Prop :=
  Clear g a ∧ ∃ n, EndsAt g n a ∧ ∀ b m, Clear g b → EndsAt g m b → m ≤ n

variable {g : Graph κ}

theorem EndsAt.mem {n : Nat} {a : κ} (h : EndsAt g n a) : a ∈ g.nodes := by
  cases h with
  | single ha => exact ha
  | step _ hedge => exact g.next_subset _ hedge.1 _ hedge.2

/-- A node has one level. -/
theorem Level.unique {m n : Nat} {a : κ} (hm : Level g m a) (hn : Level g n a) : m = n :=
  Nat.le_antisymm (hn.2 m hm.1) (hm.2 n hn.1)

/-- A path as the list of its nodes. -/
theorem endsAt_iff_chain {n : Nat} {a : κ} : EndsAt g n a ↔
    ∃ path : List κ, path.IsChain (Edge g) ∧ (∀ b ∈ path, b ∈ g.nodes) ∧ path.length = n ∧
      path.getLast? = some a := by
  constructor
  · intro h
    induction h with
    | @single a ha =>
      refine ⟨[a], .singleton a, fun b hb => ?_, rfl, rfl⟩
      rwa [List.mem_singleton.mp hb]
    | @step n a b _ hedge ih =>
      obtain ⟨path, hchain, hmem, hlength, hlast⟩ := ih
      refine ⟨path ++ [b], ?_, fun c hc => ?_, ?_, List.getLast?_concat⟩
      · refine List.isChain_append.mpr ⟨hchain, .singleton b, fun x hx y hy => ?_⟩
        obtain rfl := Option.some.inj (hlast.symm.trans hx)
        obtain rfl := Option.some.inj hy
        exact hedge
      · rcases List.mem_append.mp hc with hc | hc
        · exact hmem c hc
        · rw [List.mem_singleton.mp hc]
          exact g.next_subset _ hedge.1 _ hedge.2
      · rw [List.length_append, hlength, List.length_singleton]
  · rintro ⟨path, hchain, hmem, rfl, hlast⟩
    induction path using List.reverseRecOn generalizing a with
    | nil => cases hlast
    | append_singleton init b ih =>
      rw [List.getLast?_concat] at hlast
      obtain rfl := Option.some.inj hlast
      rw [List.length_append, List.length_singleton]
      obtain ⟨hinit, -, hjoin⟩ := List.isChain_append.mp hchain
      cases hc : init.getLast? with
      | none =>
        rw [List.getLast?_eq_none_iff.mp hc]
        exact .single (hmem b (List.mem_append_right _ (List.mem_singleton_self b)))
      | some c =>
        exact .step (ih hinit (fun x hx => hmem x (List.mem_append_left _ hx)) hc)
          (hjoin c hc b rfl)

/-- Graphs that differ in their orders only. -/
structure Alike (g g' : Graph κ) : Prop where
  nodes : ∀ a, a ∈ g.nodes ↔ a ∈ g'.nodes
  next : ∀ a b, b ∈ g.next a ↔ b ∈ g'.next a

section

variable {g' : Graph κ}

theorem Alike.symm (h : Alike g g') : Alike g' g := ⟨fun a => (h.nodes a).symm, fun a b => (h.next a b).symm⟩

theorem Alike.edge (h : Alike g g') : Edge g = Edge g' :=
  funext fun a => funext fun b => propext (and_congr (h.nodes a) (h.next a b))

/-- Graphs with the same edges have the same paths. -/
theorem Alike.endsAt_of {n : Nat} {a : κ} (h : Alike g g') (hpath : EndsAt g n a) : EndsAt g' n a := by
  induction hpath with
  | single ha => exact .single ((h.nodes _).mp ha)
  | step _ hedge ih => exact .step ih ⟨(h.nodes _).mp hedge.1, (h.next _ _).mp hedge.2⟩

theorem Alike.endsAt {n : Nat} {a : κ} (h : Alike g g') : EndsAt g n a ↔ EndsAt g' n a :=
  ⟨h.endsAt_of, h.symm.endsAt_of⟩

theorem Alike.level {n : Nat} {a : κ} (h : Alike g g') : Level g n a ↔ Level g' n a := by
  simp only [Level, h.endsAt]

theorem Alike.clear {a : κ} (h : Alike g g') : Clear g a ↔ Clear g' a := by
  rw [Clear, Clear, h.nodes, h.edge]

theorem Alike.deepest {a : κ} (h : Alike g g') : Deepest g a ↔ Deepest g' a := by
  simp only [Deepest, h.endsAt, h.clear]

end

/-- An order for the nodes and for the successors of every node. -/
structure Order (κ : Type) where
  nodes : List κ → List κ
  next : κ → List κ → List κ
  perm_nodes : ∀ l, (nodes l).Perm l
  perm_next : ∀ a l, (next a l).Perm l

def Graph.reorder (g : Graph κ) (o : Order κ) : Graph κ where
  nodes := o.nodes g.nodes
  next a := o.next a (g.next a)
  nodup_nodes := (o.perm_nodes _).nodup_iff.mpr g.nodup_nodes
  nodup_next a := (o.perm_next a _).nodup_iff.mpr (g.nodup_next a)
  next_subset a ha b hb := by
    rw [(o.perm_nodes _).mem_iff] at ha ⊢
    exact g.next_subset a ha b ((o.perm_next a _).mem_iff.mp hb)

/-- A reordered graph differs in its orders only. -/
theorem alike_reorder (g : Graph κ) (o : Order κ) : Alike (g.reorder o) g :=
  ⟨fun _ => (o.perm_nodes _).mem_iff, fun a _ => (o.perm_next a _).mem_iff⟩

/-! ## 2. A longest path -/

/-- The nodes of one path with a longest path to each of them. -/
structure Chain (g : Graph κ) (chain : List κ) : Prop where
  back : ∀ c ∈ chain, Level g 1 c ∨
    ∃ a ∈ chain, Edge g a c ∧ ∃ n, Level g n a ∧ Level g (n + 1) c
  unique : ∀ a ∈ chain, ∀ c ∈ chain, ∀ n, Level g n a → Level g n c → a = c

/-- A node before the last of a longest path has the level before. -/
theorem Level.pred {n : Nat} {a b : κ} (h : Level g (n + 1) b) (ha : EndsAt g n a) (hedge : Edge g a b) :
    Level g n a :=
  ⟨ha, fun m hm => Nat.le_of_succ_le_succ (h.2 (m + 1) (hm.step hedge))⟩

/-- A node with a level ends a path that is longest to each of its nodes. -/
theorem exists_chain : ∀ (n : Nat) {b : κ}, Level g n b →
    ∃ chain, b ∈ chain ∧ Chain g chain ∧ ∀ c ∈ chain, ∃ m ≤ n, Level g m c
  | 0, b, h => by
      have hone := h.2 1 (.single h.1.mem)
      omega
  | n + 1, b, h => by
      cases hpath : h.1 with
      | single hnode =>
        refine ⟨[b], List.mem_singleton_self b, ⟨fun c hc => ?_, fun a ha c hc _ _ _ => ?_⟩,
          fun c hc => ⟨1, le_rfl, ?_⟩⟩
        · rw [List.mem_singleton.mp hc]
          exact .inl h
        · rw [List.mem_singleton.mp ha, List.mem_singleton.mp hc]
        · rwa [List.mem_singleton.mp hc]
      | @step _ a _ ha hedge =>
        have hpred := h.pred ha hedge
        obtain ⟨chain, hmem, hchain, hbelow⟩ := exists_chain n hpred
        have habove : ∀ c ∈ chain, ¬Level g (n + 1) c := by
          intro c hc hlevel
          obtain ⟨m, hm, hcm⟩ := hbelow c hc
          have heq := hcm.unique hlevel
          omega
        refine ⟨b :: chain, List.mem_cons_self, ⟨fun c hc => ?_, fun x hx y hy m hxm hym => ?_⟩,
          fun c hc => ?_⟩
        · rcases List.mem_cons.mp hc with rfl | hc
          · exact .inr ⟨a, List.mem_cons_of_mem _ hmem, hedge, n, hpred, h⟩
          · refine (hchain.back c hc).imp_right ?_
            rintro ⟨d, hd, hback⟩
            exact ⟨d, List.mem_cons_of_mem _ hd, hback⟩
        · rcases List.mem_cons.mp hx with hxb | hxc
          · rw [hxb] at hxm ⊢
            rcases List.mem_cons.mp hy with hyb | hyc
            · exact hyb.symm
            · rw [hxm.unique h] at hym
              exact absurd hym (habove y hyc)
          · rcases List.mem_cons.mp hy with hyb | hyc
            · rw [hyb] at hym
              rw [hym.unique h] at hxm
              exact absurd hxm (habove x hxc)
            · exact hchain.unique x hxc y hyc m hxm hym
        · rcases List.mem_cons.mp hc with rfl | hc
          · exact ⟨n + 1, le_rfl, h⟩
          · obtain ⟨m, hm, hlevel⟩ := hbelow c hc
            exact ⟨m, Nat.le_succ_of_le hm, hlevel⟩

/-- The nodes of the chain come after the others. -/
def LastIn (chain l : List κ) : Prop := l.Pairwise fun a b => a ∈ chain → b ∈ chain

/-- Among nodes of one level, none follows a node of the chain. -/
theorem Chain.pairwise_not_mem {chain : List κ} (hchain : Chain g chain) {l : List κ} {n : Nat}
    (hnodup : l.Nodup) (hlast : LastIn chain l) (hlevel : ∀ c ∈ l, Level g n c) : l.Pairwise fun a _ => a ∉ chain := by
  refine (hlast.and hnodup).imp_of_mem fun {a b} ha hb hboth hmem => ?_
  exact hboth.2 (hchain.unique a hmem b (hboth.1 hmem) n (hlevel a ha) (hlevel b hb))

/-! ## 3. The sort -/

section

variable [DecidableEq κ]

structure State (κ : Type) where
  queue : List κ
  depth : κ → Nat
  count : κ → Int
  taken : Nat
  last : κ

/-- What taking `a` does to one of its successors. -/
def relax (a : κ) (s : State κ) (b : κ) : State κ :=
  let count := s.count b - 1
  { s with
    depth := Function.update s.depth b (max (s.depth b) (s.depth a + 1))
    count := Function.update s.count b count
    queue := if count = 0 then s.queue ++ [b] else s.queue }

/-- The node `a` is taken off the queue. A node at least as deep as the last one replaces it. -/
def take (g : Graph κ) (s : State κ) (a : κ) (rest : List κ) : State κ :=
  (g.next a).foldl (relax a)
    { s with
      queue := rest
      taken := s.taken + 1
      last := if s.depth s.last ≤ s.depth a then a else s.last }

def loop (g : Graph κ) : Nat → State κ → State κ
  | 0, s => s
  | fuel + 1, s =>
      match s.queue with
      | [] => s
      | a :: rest => loop g fuel (take g s a rest)

/-- How many nodes have `b` as a successor. -/
def inDegree (g : Graph κ) (b : κ) : Nat := g.nodes.countP fun a => b ∈ g.next a

def start (g : Graph κ) (first : κ) : State κ where
  queue := g.nodes.filter fun a => inDegree g a = 0
  depth := fun a => if a ∈ g.nodes then 1 else 0
  count := fun a => inDegree g a
  taken := 0
  last := first

/-- Every node is taken at most once. -/
def run (g : Graph κ) (first : κ) : State κ := loop g g.nodes.length (start g first)

/-! ## 4. One node -/

/-- The successors of a node that no longer wait for another. -/
def ready (s : State κ) (bs : List κ) : List κ := bs.filter fun b => s.count b = 1

/-- What taking `a` does to all of its successors, `a` not being one of them. -/
theorem foldl_relax (a : κ) : ∀ (bs : List κ) (s : State κ), bs.Nodup → a ∉ bs →
    (∀ b, (bs.foldl (relax a) s).depth b = if b ∈ bs then max (s.depth b) (s.depth a + 1) else s.depth b) ∧
    (∀ b, (bs.foldl (relax a) s).count b = if b ∈ bs then s.count b - 1 else s.count b) ∧
    (bs.foldl (relax a) s).queue = s.queue ++ ready s bs ∧
    (bs.foldl (relax a) s).taken = s.taken ∧ (bs.foldl (relax a) s).last = s.last
  | [], s, _, _ => by simp [ready]
  | b :: bs, s, hnodup, ha => by
      rw [List.nodup_cons] at hnodup
      rw [List.mem_cons, not_or] at ha
      obtain ⟨hdepth, hcount, hqueue, htaken, hlast⟩ := foldl_relax a bs (relax a s b) hnodup.2 ha.2
      have hdepthA : (relax a s b).depth a = s.depth a := Function.update_of_ne ha.1 _ _
      have hready : ready (relax a s b) bs = ready s bs := by
        refine List.filter_congr fun c hc => ?_
        have hne : c ≠ b := fun heq => hnodup.1 (heq ▸ hc)
        have hother : (relax a s b).count c = s.count c := Function.update_of_ne hne _ _
        rw [hother]
      rw [List.foldl_cons]
      refine ⟨fun c => ?_, fun c => ?_, ?_, htaken, hlast⟩
      · rw [hdepth, hdepthA]
        by_cases hc : c = b
        · subst hc
          rw [if_neg hnodup.1, if_pos List.mem_cons_self]
          exact Function.update_self _ _ _
        · have hother : (relax a s b).depth c = s.depth c := Function.update_of_ne hc _ _
          simp [hc, hother]
      · rw [hcount]
        by_cases hc : c = b
        · subst hc
          rw [if_neg hnodup.1, if_pos List.mem_cons_self]
          exact Function.update_self _ _ _
        · have hother : (relax a s b).count c = s.count c := Function.update_of_ne hc _ _
          simp [hc, hother]
      · rw [hqueue, hready]
        show (if s.count b - 1 = 0 then s.queue ++ [b] else s.queue) ++ _ = _
        unfold ready
        by_cases hone : s.count b = 1
        · rw [if_pos (by omega), List.filter_cons_of_pos (by simpa using hone), List.append_assoc]
          rfl
        · rw [if_neg (by omega), List.filter_cons_of_neg (by simpa using hone)]

/-! ## 5. The invariant -/

/-- Every predecessor of the node has been taken. -/
def Ready (g : Graph κ) (taken : List κ) (b : κ) : Prop := ∀ a, Edge g a b → a ∈ taken

/-- How many predecessors of a node have not been taken. -/
def waiting (g : Graph κ) (taken : List κ) (b : κ) : Nat :=
  g.nodes.countP fun a => b ∈ g.next a ∧ a ∉ taken

/-- A state of the sort after the nodes of `taken`, in order. -/
structure Taken (g : Graph κ) (first : κ) (taken : List κ) (s : State κ) : Prop where
  nodup : (taken ++ s.queue).Nodup
  mem : ∀ b, b ∈ taken ++ s.queue ↔ b ∈ g.nodes ∧ Ready g taken b
  number : s.taken = taken.length
  count : ∀ b, s.count b = waiting g taken b
  outside : ∀ b, b ∉ g.nodes → s.depth b = 0
  atLeast : ∀ b ∈ g.nodes, 1 ≤ s.depth b
  above : ∀ a ∈ taken, ∀ b ∈ g.next a, s.depth a + 1 ≤ s.depth b
  reached : ∀ b ∈ g.nodes, s.depth b = 1 ∨ ∃ a ∈ taken, b ∈ g.next a ∧ s.depth b = s.depth a + 1
  sorted : (taken ++ s.queue).Pairwise fun a b => s.depth a ≤ s.depth b
  spread : ∀ a ∈ s.queue, ∀ b ∈ s.queue, s.depth b ≤ s.depth a + 1
  last : (taken = [] ∧ s.last = first) ∨ taken.getLast? = some s.last

variable {g : Graph κ} {first : κ} {taken : List κ} {s : State κ}

/-- A node waits for nothing when all before it are taken. -/
theorem waiting_eq_zero {b : κ} : waiting g taken b = 0 ↔ Ready g taken b := by
  rw [waiting, List.countP_eq_zero]
  constructor
  · intro h a hedge
    by_contra hmem
    exact h a hedge.1 (by simpa using ⟨hedge.2, hmem⟩)
  · intro h a ha hcounted
    have hboth : b ∈ g.next a ∧ a ∉ taken := by simpa using hcounted
    exact hboth.2 (h a ⟨ha, hboth.1⟩)

/-- One element fewer is counted. -/
theorem countP_ne {p : κ → Prop} [DecidablePred p] {a : κ} : ∀ {l : List κ}, l.Nodup → a ∈ l → p a →
    l.countP (fun c => p c ∧ c ≠ a) + 1 = l.countP fun c => p c
  | c :: rest, hnodup, hmem, hp => by
      rw [List.nodup_cons] at hnodup
      rw [List.countP_cons, List.countP_cons]
      by_cases hc : c = a
      · subst hc
        have hrest : rest.countP (fun d => p d ∧ d ≠ c) = rest.countP fun d => p d := by
          refine List.countP_congr fun d hd => ?_
          have hne : d ≠ c := fun heq => hnodup.1 (heq ▸ hd)
          simp [hne]
        rw [hrest]
        simp [hp]
      · have htail : a ∈ rest := (List.mem_cons.mp hmem).resolve_left (Ne.symm hc)
        have ih := countP_ne hnodup.2 htail hp
        rw [← ih]
        by_cases hpc : p c
        · simp [hpc, hc]
        · simp [hpc]

/-- Taking a node lets its successors wait for one less. -/
theorem waiting_concat {a b : κ} (ha : a ∈ g.nodes) (hnew : a ∉ taken) :
    (waiting g (taken ++ [a]) b : Int) =
      if b ∈ g.next a then (waiting g taken b : Int) - 1 else waiting g taken b := by
  have hsame : ∀ c, (b ∈ g.next c ∧ c ∉ taken ++ [a]) ↔ ((b ∈ g.next c ∧ c ∉ taken) ∧ c ≠ a) := by
    intro c
    rw [List.mem_append, List.mem_singleton, not_or, and_assoc]
  have hcount : waiting g (taken ++ [a]) b =
      g.nodes.countP fun c => (b ∈ g.next c ∧ c ∉ taken) ∧ c ≠ a :=
    List.countP_congr fun c _ => by simpa using hsame c
  rw [hcount]
  split
  · rename_i hb
    have h := countP_ne (p := fun c => b ∈ g.next c ∧ c ∉ taken) g.nodup_nodes ha ⟨hb, hnew⟩
    rw [waiting, ← h]
    omega
  · rename_i hb
    congr 1
    refine List.countP_congr fun c _ => ?_
    by_cases hc : c = a
    · subst hc
      simp [hb]
    · simp [hc]

/-- At the start nothing is taken. -/
theorem taken_start : Taken g first [] (start g first) where
  nodup := g.nodup_nodes.filter _
  mem b := by
    have hzero : inDegree g b = 0 ↔ Ready g [] b := by
      rw [← waiting_eq_zero]
      have hsame : inDegree g b = waiting g [] b := List.countP_congr fun a _ => by simp
      rw [hsame]
    rw [List.nil_append, start, List.mem_filter, decide_eq_true_eq, hzero]
  number := rfl
  count b := by
    have hsame : inDegree g b = waiting g [] b := List.countP_congr fun a _ => by simp
    exact congrArg Nat.cast hsame
  outside b hb := if_neg hb
  atLeast b hb := le_of_eq (if_pos hb).symm
  above a ha := absurd ha List.not_mem_nil
  reached b hb := .inl (if_pos hb)
  sorted := by
    refine List.Pairwise.imp_of_mem (fun {a b} ha hb _ => ?_) (List.pairwise_of_forall (R := fun _ _ => True)
      fun _ _ => trivial)
    rw [List.nil_append] at ha hb
    have hmem : ∀ c ∈ (start g first).queue, (start g first).depth c = 1 := fun c hc =>
      if_pos (List.mem_of_mem_filter hc)
    rw [hmem a ha, hmem b hb]
  spread a ha b hb := by
    have hmem : ∀ c ∈ (start g first).queue, (start g first).depth c = 1 := fun c hc =>
      if_pos (List.mem_of_mem_filter hc)
    rw [hmem a ha, hmem b hb]
    omega
  last := .inl ⟨rfl, rfl⟩

section

variable {a : κ} {rest : List κ} (h : Taken g first taken s) (hqueue : s.queue = a :: rest)

include h hqueue

/-- The node at the front is ready and new. -/
theorem Taken.head : a ∈ g.nodes ∧ Ready g taken a ∧ a ∉ taken ∧ a ∉ rest := by
  have hmem : a ∈ taken ++ s.queue := by
    rw [hqueue]
    exact List.mem_append_right _ List.mem_cons_self
  have hnodup := h.nodup
  rw [hqueue, List.nodup_append] at hnodup
  obtain ⟨hnode, hready⟩ := (h.mem a).mp hmem
  exact ⟨hnode, hready, fun hin => hnodup.2.2 a hin a List.mem_cons_self rfl,
    (List.nodup_cons.mp hnodup.2.1).1⟩

/-- A successor of the head still waits for it. -/
theorem Taken.next_not_mem {b : κ} (hb : b ∈ g.next a) : b ∉ taken ++ s.queue := by
  intro hmem
  obtain ⟨hnode, -, hnew, -⟩ := h.head hqueue
  exact hnew (((h.mem b).mp hmem).2 a ⟨hnode, hb⟩)

/-- No taken node is deeper than the one at the front. -/
theorem Taken.depth_le_head {c : κ} (hc : c ∈ taken) : s.depth c ≤ s.depth a := by
  have hsorted := h.sorted
  rw [hqueue, List.pairwise_append] at hsorted
  exact hsorted.2.2 c hc a List.mem_cons_self

/-- The queue is at most one level ahead. -/
theorem Taken.depth_le_succ {c : κ} (hc : c ∈ taken ++ s.queue) : s.depth c ≤ s.depth a + 1 := by
  rcases List.mem_append.mp hc with hc | hc
  · exact Nat.le_succ_of_le (h.depth_le_head hqueue hc)
  · exact h.spread a (by rw [hqueue]; exact List.mem_cons_self) c hc

/-- Nothing has raised a node higher than the head can. -/
theorem Taken.depth_next_le {b : κ} (hb : b ∈ g.next a) : s.depth b ≤ s.depth a + 1 := by
  obtain ⟨hnode, -, -, -⟩ := h.head hqueue
  rcases h.reached b (g.next_subset a hnode b hb) with hone | ⟨c, hc, -, hdepth⟩
  · omega
  · have hle := h.depth_le_head hqueue hc
    omega

theorem Taken.last_le : s.depth s.last ≤ s.depth a := by
  obtain ⟨hnode, -, -, -⟩ := h.head hqueue
  rcases h.last with ⟨htaken, hlast⟩ | hlast
  · have hone := h.atLeast a hnode
    by_cases hfirst : s.last ∈ g.nodes
    · rcases h.reached _ hfirst with heq | ⟨c, hc, -⟩
      · omega
      · rw [htaken] at hc
        exact absurd hc List.not_mem_nil
    · rw [h.outside _ hfirst]
      exact Nat.zero_le _
  · exact h.depth_le_head hqueue (List.mem_of_getLast? hlast)

/-- What taking the head does to the state. -/
theorem Taken.take_eq :
    (∀ b, (take g s a rest).depth b = if b ∈ g.next a then s.depth a + 1 else s.depth b) ∧
    (∀ b, (take g s a rest).count b = if b ∈ g.next a then s.count b - 1 else s.count b) ∧
    (take g s a rest).queue = rest ++ ready s (g.next a) ∧
    (take g s a rest).taken = s.taken + 1 ∧ (take g s a rest).last = a := by
  have hself : a ∉ g.next a := fun hmem => h.next_not_mem hqueue hmem (by
    rw [hqueue]
    exact List.mem_append_right _ List.mem_cons_self)
  obtain ⟨hdepth, hcount, hrest, htaken, hlast⟩ := foldl_relax a (g.next a)
    { s with
      queue := rest
      taken := s.taken + 1
      last := if s.depth s.last ≤ s.depth a then a else s.last } (g.nodup_next a) hself
  refine ⟨fun b => ?_, hcount, hrest, htaken, ?_⟩
  · rw [take, hdepth]
    split
    · rename_i hb
      exact max_eq_right (h.depth_next_le hqueue hb)
    · rfl
  · rw [take, hlast]
    exact if_pos (h.last_le hqueue)

/-- A step makes ready what only waited for its node. -/
theorem mem_ready_iff {b : κ} :
    b ∈ ready s (g.next a) ↔ b ∈ g.next a ∧ Ready g (taken ++ [a]) b := by
  obtain ⟨hnode, -, hnew, -⟩ := h.head hqueue
  rw [ready, List.mem_filter, decide_eq_true_eq, ← waiting_eq_zero]
  refine and_congr_right fun hb => ?_
  have hcount := waiting_concat (b := b) hnode hnew
  rw [if_pos hb, ← h.count] at hcount
  omega

/-- One step keeps the invariant. -/
theorem Taken.step : Taken g first (taken ++ [a]) (take g s a rest) := by
  obtain ⟨hnode, hready, hnew, hrest⟩ := h.head hqueue
  obtain ⟨hdepth, hcount, hqueue', htaken, hlast⟩ := h.take_eq hqueue
  have hsplit : (taken ++ [a]) ++ (rest ++ ready s (g.next a)) =
      (taken ++ s.queue) ++ ready s (g.next a) := by
    rw [hqueue]
    simp
  have hold : ∀ b ∈ taken ++ s.queue, (take g s a rest).depth b = s.depth b := fun b hb => by
    rw [hdepth, if_neg fun hnext => h.next_not_mem hqueue hnext hb]
  have hraised : ∀ b ∈ ready s (g.next a), (take g s a rest).depth b = s.depth a + 1 := fun b hb => by
    rw [hdepth, if_pos (List.mem_of_mem_filter hb)]
  have hup : ∀ b, s.depth b ≤ (take g s a rest).depth b := fun b => by
    rw [hdepth]
    split
    · rename_i hb
      exact h.depth_next_le hqueue hb
    · exact le_rfl
  have hmemA : a ∈ taken ++ s.queue := by
    rw [hqueue]
    exact List.mem_append_right _ List.mem_cons_self
  have hmemTaken : ∀ c ∈ taken ++ [a], c ∈ taken ++ s.queue := by
    intro c hc
    rcases List.mem_append.mp hc with hc | hc
    · exact List.mem_append_left _ hc
    · rwa [List.mem_singleton.mp hc]
  have hrange : ∀ b ∈ rest ++ ready s (g.next a), s.depth a ≤ (take g s a rest).depth b ∧
      (take g s a rest).depth b ≤ s.depth a + 1 := by
    intro b hb
    rcases List.mem_append.mp hb with hb | hb
    · have hin : b ∈ taken ++ s.queue := by
        rw [hqueue]
        exact List.mem_append_right _ (List.mem_cons_of_mem _ hb)
      have hsorted := h.sorted
      rw [hqueue, List.pairwise_append, List.pairwise_cons] at hsorted
      rw [hold b hin]
      exact ⟨hsorted.2.1.1 b hb, h.depth_le_succ hqueue hin⟩
    · rw [hraised b hb]
      omega
  constructor
  · rw [hqueue', hsplit, List.nodup_append]
    refine ⟨h.nodup, (g.nodup_next a).filter _, fun b hb c hc heq => ?_⟩
    subst heq
    exact h.next_not_mem hqueue (List.mem_of_mem_filter hc) hb
  · intro b
    rw [hqueue', hsplit, List.mem_append, h.mem, mem_ready_iff h hqueue]
    constructor
    · rintro (⟨hb, hbReady⟩ | ⟨hnext, hbReady⟩)
      · exact ⟨hb, fun c hedge => List.mem_append_left _ (hbReady c hedge)⟩
      · exact ⟨g.next_subset a hnode b hnext, hbReady⟩
    · rintro ⟨hb, hbReady⟩
      by_cases hnext : b ∈ g.next a
      · exact .inr ⟨hnext, hbReady⟩
      · refine .inl ⟨hb, fun c hedge => ?_⟩
        rcases List.mem_append.mp (hbReady c hedge) with hc | hc
        · exact hc
        · rw [List.mem_singleton.mp hc] at hedge
          exact absurd hedge.2 hnext
  · rw [htaken, h.number, List.length_append, List.length_singleton]
  · intro b
    rw [hcount, waiting_concat hnode hnew, h.count]
  · intro b hb
    rw [hdepth, if_neg fun hnext => hb (g.next_subset a hnode b hnext), h.outside b hb]
  · exact fun b hb => Nat.le_trans (h.atLeast b hb) (hup b)
  · intro c hc b hb
    rw [hold c (hmemTaken c hc)]
    rcases List.mem_append.mp hc with hc | hc
    · exact Nat.le_trans (h.above c hc b hb) (hup b)
    · rw [List.mem_singleton.mp hc] at hb ⊢
      rw [hdepth, if_pos hb]
  · intro b hb
    by_cases hnext : b ∈ g.next a
    · refine .inr ⟨a, List.mem_append_right _ (List.mem_singleton_self a), hnext, ?_⟩
      rw [hdepth, if_pos hnext, hold a hmemA]
    · rw [hdepth, if_neg hnext]
      refine (h.reached b hb).imp_right ?_
      rintro ⟨c, hc, hedge, heq⟩
      exact ⟨c, List.mem_append_left _ hc, hedge, by rw [hold c (List.mem_append_left _ hc), heq]⟩
  · rw [hqueue', hsplit, List.pairwise_append]
    refine ⟨h.sorted.imp_of_mem fun {b c} hb hc hle => by rwa [hold b hb, hold c hc], ?_, ?_⟩
    · refine List.Pairwise.imp_of_mem (fun {b c} hb hc _ => ?_)
        (List.pairwise_of_forall (R := fun _ _ => True) fun _ _ => trivial)
      rw [hraised b hb, hraised c hc]
    · intro b hb c hc
      rw [hold b hb, hraised c hc]
      exact h.depth_le_succ hqueue hb
  · intro b hb c hc
    rw [hqueue'] at hb hc
    have hb := hrange b hb
    have hc := hrange c hc
    omega
  · rw [hlast, List.getLast?_append]
    exact .inr rfl

end

/-! ## 6. The whole run -/

/-- Queued and taken nodes have their level as depth. -/
theorem Taken.level (h : Taken g first taken s) {b : κ} (hb : b ∈ taken ++ s.queue) :
    Level g (s.depth b) b := by
  have hends : ∀ n, ∀ c ∈ taken ++ s.queue, s.depth c = n → EndsAt g n c := by
    intro n
    induction n with
    | zero =>
      intro c hc hdepth
      have hone := h.atLeast c ((h.mem c).mp hc).1
      omega
    | succ n ih =>
      intro c hc hdepth
      obtain ⟨hnode, hready⟩ := (h.mem c).mp hc
      rcases h.reached c hnode with hone | ⟨a, ha, hedge, heq⟩
      · obtain rfl : n = 0 := by omega
        exact .single hnode
      · have hmem := List.mem_append_left s.queue ha
        exact .step (ih a hmem (by omega)) ⟨((h.mem a).mp hmem).1, hedge⟩
  refine ⟨hends _ b hb rfl, fun m hpath => ?_⟩
  induction hpath with
  | single hnode => exact h.atLeast _ hnode
  | @step n a c _ hedge ih =>
    have ha := ((h.mem c).mp hb).2 a hedge
    have hle := ih (List.mem_append_left _ ha)
    have habove := h.above a ha c hedge.2
    omega

/-- With a step for every node nothing stays queued, and what one step keeps holds at the end. -/
theorem loop_taken {P : List κ → State κ → Prop}
    (hstep : ∀ {taken s a rest}, Taken g first taken s → s.queue = a :: rest → P taken s →
      P (taken ++ [a]) (take g s a rest)) :
    ∀ (fuel : Nat) {taken : List κ} {s : State κ}, Taken g first taken s → P taken s →
    g.nodes.length ≤ taken.length + fuel →
    ∃ order, Taken g first order (loop g fuel s) ∧ (loop g fuel s).queue = [] ∧
      P order (loop g fuel s)
  | 0, taken, s, h, hP, hfuel => by
      have hle := (h.nodup.subperm fun b hb => ((h.mem b).mp hb).1).length_le
      rw [List.length_append] at hle
      exact ⟨taken, h, List.eq_nil_of_length_eq_zero (by show s.queue.length = 0; omega), hP⟩
  | fuel + 1, taken, s, h, hP, hfuel => by
      rw [loop]
      split
      · rename_i hqueue
        exact ⟨taken, h, hqueue, hP⟩
      · rename_i a rest hqueue
        refine loop_taken hstep fuel (h.step hqueue) (hstep h hqueue hP) ?_
        rw [List.length_append, List.length_singleton]
        omega

/-- A run takes its nodes in a legal order until the queue is empty. -/
theorem run_taken (g : Graph κ) (first : κ) :
    ∃ order, Taken g first order (run g first) ∧ (run g first).queue = [] := by
  obtain ⟨order, htaken, hqueue, -⟩ := loop_taken (P := fun _ _ => True) (fun _ _ _ => trivial)
    g.nodes.length (@taken_start _ _ g first) trivial (Nat.le_add_left _ _)
  exact ⟨order, htaken, hqueue⟩

section

variable (h : Taken g first taken s) (hqueue : s.queue = [])

include h hqueue

/-- At the end the taken nodes are those that become ready. -/
theorem Taken.mem_iff_ready {b : κ} : b ∈ taken ↔ b ∈ g.nodes ∧ Ready g taken b := by
  have hmem := h.mem b
  rwa [hqueue, List.append_nil] at hmem

/-- What leads to a taken node is taken. -/
theorem Taken.mem_of_reaches {a b : κ} (hpath : Relation.ReflTransGen (Edge g) a b) (hb : b ∈ taken) :
    a ∈ taken := by
  induction hpath using Relation.ReflTransGen.head_induction_on with
  | refl => exact hb
  | head hedge _ ih => exact ((h.mem_iff_ready hqueue).mp ih).2 _ hedge

/-- Along the edges between taken nodes the depth rises. -/
theorem Taken.depth_lt {a b : κ} (hpath : Relation.TransGen (Edge g) a b) (hb : b ∈ taken) :
    s.depth a < s.depth b := by
  induction hpath with
  | single hedge => exact h.above a (((h.mem_iff_ready hqueue).mp hb).2 _ hedge) _ hedge.2
  | tail _ hedge ih =>
    have hc := ((h.mem_iff_ready hqueue).mp hb).2 _ hedge
    exact Nat.lt_trans (ih hc) (h.above _ hc _ hedge.2)

/-- The nodes that are taken are those behind no cycle. -/
theorem Taken.mem_iff_clear {b : κ} : b ∈ taken ↔ Clear g b := by
  constructor
  · intro hb
    refine ⟨((h.mem_iff_ready hqueue).mp hb).1, fun c hcycle hpath => ?_⟩
    exact Nat.lt_irrefl _ (h.depth_lt hqueue hcycle (h.mem_of_reaches hqueue hpath hb))
  · rintro ⟨hnode, hclear⟩
    -- Among the nodes that reach `b` the edges are well founded, since no cycle is among them.
    let S := {a // a ∈ g.nodes ∧ Relation.ReflTransGen (Edge g) a b}
    let before : S → S → Prop := fun x y => Relation.TransGen (Edge g) x.1 y.1
    have hfinite : Finite S := ((List.finite_toSet g.nodes).subset fun a ha => ha.1 :
      {a | a ∈ g.nodes ∧ Relation.ReflTransGen (Edge g) a b}.Finite)
    have htrans : IsTrans S before := ⟨fun _ _ _ hxy hyz => hxy.trans hyz⟩
    have hirrefl : Std.Irrefl before := ⟨fun x hx => hclear x.1 hx x.2.2⟩
    have hwf : WellFounded before := Finite.wellFounded_of_trans_of_irrefl before
    have hall : ∀ x : S, x.1 ∈ taken := by
      intro x
      induction x using hwf.induction with
      | _ x ih =>
        refine (h.mem_iff_ready hqueue).mpr ⟨x.2.1, fun a hedge => ?_⟩
        exact ih ⟨a, hedge.1, x.2.2.head hedge⟩ (.single hedge)
    exact hall ⟨b, hnode, .refl⟩

/-- The last node taken ends a longest path; if none is taken, it is the one given. -/
theorem Taken.last_deepest : Deepest g s.last ∨ (s.last = first ∧ ∀ a, ¬Clear g a) := by
  rcases h.last with ⟨htaken, hlast⟩ | hlast
  · refine .inr ⟨hlast, fun a ha => ?_⟩
    rw [← h.mem_iff_clear hqueue, htaken] at ha
    exact List.not_mem_nil ha
  · have hmem := List.mem_of_getLast? hlast
    have hmemQueue : ∀ {c}, c ∈ taken → c ∈ taken ++ s.queue := fun hc => List.mem_append_left _ hc
    refine .inl ⟨(h.mem_iff_clear hqueue).mp hmem, s.depth s.last, (h.level (hmemQueue hmem)).1, ?_⟩
    intro b m hclear hpath
    have hb := (h.mem_iff_clear hqueue).mpr hclear
    obtain ⟨init, hinit⟩ := List.getLast?_eq_some_iff.mp hlast
    have hsorted := h.sorted
    rw [hqueue, List.append_nil, hinit, List.pairwise_append] at hsorted
    have hle : s.depth b ≤ s.depth s.last := by
      have hsplit := hb
      rw [hinit, List.mem_append, List.mem_singleton] at hsplit
      rcases hsplit with hb | rfl
      · exact hsorted.2.2 b hb _ (List.mem_singleton_self _)
      · exact le_rfl
    exact Nat.le_trans ((h.level (hmemQueue hb)).2 m hpath) hle

end

/-! ## 7. The last node -/

section

variable {chain : List κ} (hchain : Chain g chain) (hnodes : LastIn chain g.nodes)
  (hnext : ∀ a, LastIn chain (g.next a))

/-- In the order of the sort a node of the chain is the last of its depth. -/
def Closing (chain taken : List κ) (s : State κ) : Prop :=
  (taken ++ s.queue).Pairwise fun a b => a ∈ chain → s.depth a ≠ s.depth b

include hchain hnodes in
theorem closing_start : Closing chain [] (start g first) := by
  have hqueue : ∀ c ∈ (start g first).queue, Level g 1 c := by
    intro c hc
    have hone : (start g first).depth c = 1 := if_pos (List.mem_of_mem_filter hc)
    rw [← hone]
    exact taken_start.level hc
  have hlast : LastIn chain (start g first).queue := List.Pairwise.filter _ hnodes
  have hpairs := hchain.pairwise_not_mem (g.nodup_nodes.filter _) hlast hqueue
  exact hpairs.imp fun hnot hmem => absurd hmem hnot

include hchain hnext in
/-- A step keeps each node of the chain the last of its depth. -/
theorem Closing.step {a : κ} {rest : List κ} (hclosing : Closing chain taken s)
    (h : Taken g first taken s) (hqueue : s.queue = a :: rest) :
    Closing chain (taken ++ [a]) (take g s a rest) := by
  obtain ⟨hdepth, -, hqueue', -, -⟩ := h.take_eq hqueue
  have hnextStep := h.step hqueue
  have hsplit : (taken ++ [a]) ++ (rest ++ ready s (g.next a)) =
      (taken ++ s.queue) ++ ready s (g.next a) := by
    rw [hqueue]
    simp
  have hold : ∀ b ∈ taken ++ s.queue, (take g s a rest).depth b = s.depth b := fun b hb => by
    rw [hdepth, if_neg fun hedge => h.next_not_mem hqueue hedge hb]
  have hraised : ∀ b ∈ ready s (g.next a), (take g s a rest).depth b = s.depth a + 1 := fun b hb => by
    rw [hdepth, if_pos (List.mem_of_mem_filter hb)]
  have hlevel : ∀ b ∈ ready s (g.next a), Level g (s.depth a + 1) b := by
    intro b hb
    rw [← hraised b hb]
    refine hnextStep.level ?_
    rw [hqueue', hsplit]
    exact List.mem_append_right _ hb
  unfold Closing
  rw [hqueue', hsplit, List.pairwise_append]
  refine ⟨hclosing.imp_of_mem fun {b c} hb hc hne => by rwa [hold b hb, hold c hc], ?_, ?_⟩
  · have hpairs := hchain.pairwise_not_mem ((g.nodup_next a).filter _)
      (List.Pairwise.filter _ (hnext a)) hlevel
    exact hpairs.imp fun hnot hmem => absurd hmem hnot
  · -- A node of the chain as deep would have its own predecessor before `a`, at the depth of `a`.
    intro b hb c hc hmem heq
    rw [hold b hb, hraised c hc] at heq
    have hlevelB := h.level hb
    have hone := h.atLeast a (h.head hqueue).1
    rcases hchain.back b hmem with hfirst | ⟨d, hd, hedge, n, hlevelD, hlevelSucc⟩
    · have hdeep := hlevelB.unique hfirst
      omega
    · have hready := ((h.mem b).mp hb).2 d hedge
      have hdepthD := (h.level (List.mem_append_left _ hready)).unique hlevelD
      have hdeep := hlevelB.unique hlevelSucc
      have hpairs := List.pairwise_append.mp hclosing
      refine hpairs.2.2 d hready a ?_ hd (by omega)
      rw [hqueue]
      exact List.mem_cons_self

include hchain hnodes hnext in
/-- A longest path that comes last everywhere ends with the last node. -/
theorem last_of_chain {b : κ} (hb : b ∈ chain) (hdeepest : Deepest g b) : (run g first).last = b := by
  obtain ⟨order, htaken, hqueue, hclosing⟩ := loop_taken (P := Closing chain)
    (fun h hqueue hclosing => hclosing.step hchain hnext h hqueue) g.nodes.length
    (@taken_start _ _ g first) (closing_start hchain hnodes) (Nat.le_add_left _ _)
  change (run g first).queue = [] at hqueue
  change Taken g first order (run g first) at htaken
  change Closing chain order (run g first) at hclosing
  have hmem := (htaken.mem_iff_clear hqueue).mpr hdeepest.1
  have hdepth : ∀ c ∈ order, (run g first).depth c ≤ (run g first).depth b := by
    intro c hc
    obtain ⟨n, hn, hmax⟩ := hdeepest.2
    have hlevelB := htaken.level (List.mem_append_left _ hmem)
    have hlevelC := htaken.level (List.mem_append_left _ hc)
    exact Nat.le_trans (hmax c _ ((htaken.mem_iff_clear hqueue).mp hc) hlevelC.1) (hlevelB.2 n hn)
  obtain ⟨before, after, hsplit⟩ := List.append_of_mem hmem
  have hsorted := htaken.sorted
  unfold Closing at hclosing
  rw [hqueue, List.append_nil, hsplit, List.pairwise_append, List.pairwise_cons] at hsorted hclosing
  have hafter : after = [] := by
    refine List.eq_nil_iff_forall_not_mem.mpr fun c hc => ?_
    have hle := hdepth c (by rw [hsplit]; exact List.mem_append_right _ (List.mem_cons_of_mem _ hc))
    exact hclosing.2.1.1 c hc hb (Nat.le_antisymm (hsorted.2.1.1 c hc) hle)
  rcases htaken.last with ⟨hnil, -⟩ | hlast
  · rw [hnil] at hmem
    exact absurd hmem List.not_mem_nil
  · rw [hsplit, hafter, List.getLast?_append] at hlast
    exact (Option.some.inj hlast).symm

end

/-! ## 8. What the sort finds -/

/-- Some nodes are left exactly when there is a cycle. -/
theorem taken_lt_iff (g : Graph κ) (first : κ) :
    (run g first).taken < g.nodes.length ↔ ∃ c, Relation.TransGen (Edge g) c c := by
  obtain ⟨order, h, hqueue⟩ := run_taken g first
  have hnodup := h.nodup
  rw [hqueue, List.append_nil] at hnodup
  have hsub : order ⊆ g.nodes := fun b hb => ((h.mem_iff_ready hqueue).mp hb).1
  rw [h.number]
  constructor
  · intro hlt
    by_contra hnone
    have hall : g.nodes ⊆ order := fun b hb =>
      (h.mem_iff_clear hqueue).mpr ⟨hb, fun c hcycle => absurd ⟨c, hcycle⟩ hnone⟩
    have hle := (g.nodup_nodes.subperm hall).length_le
    omega
  · rintro ⟨c, hcycle⟩
    by_contra hge
    have hperm := (hnodup.subperm hsub).perm_of_length_le (Nat.le_of_not_lt hge)
    have hnode : c ∈ g.nodes := by
      obtain ⟨b, hedge, -⟩ := Relation.TransGen.head'_iff.mp hcycle
      exact hedge.1
    exact ((h.mem_iff_clear hqueue).mp (hperm.mem_iff.mpr hnode)).2 c hcycle .refl

/-- Without a cycle the depth of every node is the length of a longest path to it. -/
theorem depth_level (hacyclic : ∀ c, ¬Relation.TransGen (Edge g) c c) {a : κ} (ha : a ∈ g.nodes) :
    Level g ((run g first).depth a) a := by
  obtain ⟨order, h, hqueue⟩ := run_taken g first
  refine h.level (List.mem_append_left _ ((h.mem_iff_clear hqueue).mpr ⟨ha, fun c hcycle => ?_⟩))
  exact absurd hcycle (hacyclic c)

/-- The last node is a deepest one, if any node is free of cycles. -/
theorem last_deepest (g : Graph κ) (first : κ) :
    Deepest g (run g first).last ∨ ((run g first).last = first ∧ ∀ a, ¬Clear g a) := by
  obtain ⟨order, h, hqueue⟩ := run_taken g first
  exact h.last_deepest hqueue

/-! ## 9. Orders -/

/-- No node is deeper in one order than in another. -/
theorem Alike.depth_le {g' : Graph κ} (halike : Alike g g') (first : κ) (b : κ) :
    (run g first).depth b ≤ (run g' first).depth b := by
  obtain ⟨order, h, hqueue⟩ := run_taken g first
  obtain ⟨order', h', hqueue'⟩ := run_taken g' first
  by_cases hb : b ∈ g.nodes
  · rcases h.reached b hb with hone | ⟨a, ha, hedge, heq⟩
    · rw [hone]
      exact h'.atLeast b ((halike.nodes b).mp hb)
    · have ha' : a ∈ order' := by
        rwa [h'.mem_iff_clear hqueue', ← halike.clear, ← h.mem_iff_clear hqueue]
      have hlevel := h'.level (List.mem_append_left _ ha')
      rw [heq, (h.level (List.mem_append_left _ ha)).unique (halike.level.mpr hlevel)]
      exact h'.above a ha' b ((halike.next a b).mp hedge)
  · rw [h.outside b hb]
    exact Nat.zero_le _

/-- No depth depends on the order, not even behind a cycle. -/
theorem Alike.depth_eq {g' : Graph κ} (halike : Alike g g') (first : κ) :
    (run g first).depth = (run g' first).depth :=
  funext fun b => Nat.le_antisymm (halike.depth_le first b) (halike.symm.depth_le first b)

/-- The elements of the chain last. -/
def lastly (chain l : List κ) : List κ := (l.filter fun a => a ∉ chain) ++ l.filter fun a => a ∈ chain

theorem lastly_perm (chain l : List κ) : (lastly chain l).Perm l := by
  have hperm := List.filter_append_perm (fun a => decide (a ∉ chain)) l
  simpa [lastly] using hperm

theorem lastIn_lastly (chain l : List κ) : LastIn chain (lastly chain l) := by
  unfold LastIn lastly
  rw [List.pairwise_append]
  have houtside : ∀ a ∈ l.filter fun a => a ∉ chain, a ∉ chain := fun a ha => by
    simpa using (List.mem_filter.mp ha).2
  have hinside : ∀ a ∈ l.filter fun a => a ∈ chain, a ∈ chain := fun a ha => by
    simpa using (List.mem_filter.mp ha).2
  refine ⟨?_, ?_, fun a ha b _ hmem => absurd hmem (houtside a ha)⟩
  · exact List.Pairwise.imp_of_mem (fun ha _ _ hmem => absurd hmem (houtside _ ha))
      (List.pairwise_of_forall (R := fun _ _ => True) fun _ _ => trivial)
  · exact List.Pairwise.imp_of_mem (fun _ hb _ _ => hinside _ hb)
      (List.pairwise_of_forall (R := fun _ _ => True) fun _ _ => trivial)

def lastlyOrder (chain : List κ) : Order κ where
  nodes := lastly chain
  next _ := lastly chain
  perm_nodes := lastly_perm chain
  perm_next _ := lastly_perm chain

/-- Each deepest node is the last one in some order. -/
theorem exists_order_last (g : Graph κ) (first : κ) {b : κ} (h : Deepest g b) :
    ∃ o : Order κ, (run (g.reorder o) first).last = b := by
  obtain ⟨order, htaken, hqueue⟩ := run_taken g first
  have hlevel := htaken.level (List.mem_append_left _ ((htaken.mem_iff_clear hqueue).mpr h.1))
  obtain ⟨chain, hb, hchain, -⟩ := exists_chain _ hlevel
  let o := lastlyOrder chain
  have halike := alike_reorder g o
  have hchain' : Chain (g.reorder o) chain := by
    constructor
    · simpa only [halike.level, halike.edge] using hchain.back
    · simpa only [halike.level] using hchain.unique
  exact ⟨o, last_of_chain hchain' (lastIn_lastly chain _) (fun _ => lastIn_lastly chain _) hb
    (halike.deepest.mpr h)⟩

end

end EccFe.Search.Kahn
