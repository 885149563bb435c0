/-
EccFe.Search.Lexemes — texts cut into lexemes, and positions taken out of texts.

A `Lexer` reads the lexeme a text starts with, says of which kind it is, and leaves the rest. It gives
each position the kind of its lexeme. Two ways to take parts out of a text are compared by these
positions (`select`): what is left can be the same text although other positions were taken.
-/
import Mathlib.Data.List.Basic

namespace EccFe.Search

variable {α κ : Type}

/-! ## 1. Lexers -/

structure Lexer (α κ : Type) where
  /-- The kind of the first lexeme, and what comes after it. -/
  read : List α → κ × List α
  suffix : ∀ x xs, (read (x :: xs)).2 <:+ xs

namespace Lexer

variable (lexer : Lexer α κ)

def placesFrom : Nat → List α → List (List α)
  | 0, _ => []
  | _, [] => []
  | fuel + 1, x :: xs => (x :: xs) :: placesFrom fuel (lexer.read (x :: xs)).2

/-- The text from the start of each lexeme on. -/
def places (xs : List α) : List (List α) := lexer.placesFrom xs.length xs

/-- The kind of the first lexeme, for each of its positions. -/
def first (xs : List α) : List κ :=
  List.replicate (xs.length - (lexer.read xs).2.length) (lexer.read xs).1

/-- The kind of the lexeme each position belongs to. -/
def kinds (xs : List α) : List κ := (lexer.places xs).flatMap lexer.first

theorem length_read_le (x : α) (xs : List α) : (lexer.read (x :: xs)).2.length ≤ xs.length :=
  (lexer.suffix x xs).length_le

/-- More fuel than positions changes nothing. -/
theorem placesFrom_eq : ∀ {fuel fuel' : Nat} {xs : List α}, xs.length ≤ fuel → xs.length ≤ fuel' →
    lexer.placesFrom fuel xs = lexer.placesFrom fuel' xs
  | 0, fuel', [], _, _ => by cases fuel' <;> rfl
  | fuel + 1, fuel', [], _, _ => by cases fuel' <;> rfl
  | fuel + 1, fuel' + 1, x :: xs, hfuel, hfuel' => by
      have hle := lexer.length_read_le x xs
      rw [List.length_cons] at hfuel hfuel'
      exact congrArg _ (placesFrom_eq (by omega) (by omega))

@[simp] theorem places_nil : lexer.places [] = [] := rfl

theorem places_cons (x : α) (xs : List α) :
    lexer.places (x :: xs) = (x :: xs) :: lexer.places (lexer.read (x :: xs)).2 := by
  rw [places, List.length_cons, placesFrom, places,
    lexer.placesFrom_eq (lexer.length_read_le x xs) (Nat.le_refl _)]

@[simp] theorem kinds_nil : lexer.kinds [] = [] := rfl

theorem kinds_cons (x : α) (xs : List α) :
    lexer.kinds (x :: xs) = lexer.first (x :: xs) ++ lexer.kinds (lexer.read (x :: xs)).2 := by
  rw [kinds, places_cons, List.flatMap_cons]
  rfl

/-- A lexeme `xs` before `rest`. -/
theorem kinds_append {xs rest : List α} {kind : κ} (hne : xs ≠ [])
    (hread : lexer.read (xs ++ rest) = (kind, rest)) :
    lexer.kinds (xs ++ rest) = List.replicate xs.length kind ++ lexer.kinds rest := by
  cases xs with
  | nil => exact absurd rfl hne
  | cons x xs =>
    rw [List.cons_append] at hread ⊢
    rw [kinds_cons, first, hread]
    congr 2
    simp only [List.length_cons, List.length_append]
    omega

theorem places_append {xs rest : List α} {kind : κ} (hne : xs ≠ [])
    (hread : lexer.read (xs ++ rest) = (kind, rest)) :
    lexer.places (xs ++ rest) = (xs ++ rest) :: lexer.places rest := by
  cases xs with
  | nil => exact absurd rfl hne
  | cons x xs =>
    rw [List.cons_append] at hread ⊢
    rw [places_cons, hread]

/-- Texts by the lexemes they start with. -/
theorem induct {P : List α → Prop} (hnil : P [])
    (hcons : ∀ x xs, P (lexer.read (x :: xs)).2 → P (x :: xs)) (xs : List α) : P xs := by
  induction hlength : xs.length using Nat.strongRecOn generalizing xs with
  | ind n ih =>
    cases xs with
    | nil => exact hnil
    | cons x xs =>
      have hle := lexer.length_read_le x xs
      rw [List.length_cons] at hlength
      exact hcons x xs (ih _ (by omega) _ rfl)

/-- Texts by a first lexeme and what comes after it. -/
theorem induct_lexeme {P : List α → Prop} (hnil : P [])
    (happend : ∀ xs rest kind, xs ≠ [] → lexer.read (xs ++ rest) = (kind, rest) → P rest →
      P (xs ++ rest)) (xs : List α) : P xs := by
  induction xs using lexer.induct with
  | hnil => exact hnil
  | hcons x xs ih =>
    obtain ⟨before, hbefore⟩ := lexer.suffix x xs
    have hsplit : x :: before ++ (lexer.read (x :: xs)).2 = x :: xs := by
      rw [List.cons_append, hbefore]
    rw [← hsplit]
    exact happend _ _ (lexer.read (x :: xs)).1 (List.cons_ne_nil x before) (by rw [hsplit]) ih

theorem length_kinds (xs : List α) : (lexer.kinds xs).length = xs.length := by
  induction xs using lexer.induct with
  | hnil => rfl
  | hcons x xs ih =>
    have hle := lexer.length_read_le x xs
    rw [kinds_cons, List.length_append, ih, first, List.length_replicate, List.length_cons]
    omega

end Lexer

/-! ## 2. Taking positions out -/

/-- The positions marked `true`. -/
def select : List Bool → List α → List α
  | true :: mask, x :: xs => x :: select mask xs
  | false :: mask, _ :: xs => select mask xs
  | _, _ => []

/-- `inner` marks positions of what `mask` leaves. -/
def compose : List Bool → List Bool → List Bool
  | true :: mask, b :: inner => b :: compose mask inner
  | false :: mask, inner => false :: compose mask inner
  | _, _ => []

theorem select_sublist : ∀ (mask : List Bool) (xs : List α), List.Sublist (select mask xs) xs
  | [], xs => by simp [select]
  | true :: mask, [] => by simp [select]
  | false :: mask, [] => by simp [select]
  | true :: mask, x :: xs => (select_sublist mask xs).cons_cons x
  | false :: mask, x :: xs => (select_sublist mask xs).cons x

theorem select_append : ∀ {mask mask' : List Bool} {xs ys : List α}, mask.length = xs.length →
    select (mask ++ mask') (xs ++ ys) = select mask xs ++ select mask' ys
  | [], _, [], _, _ => by simp [select]
  | true :: mask, _, x :: xs, _, h => by
      simp [select, select_append (Nat.succ.inj h)]
  | false :: mask, _, x :: xs, _, h => by
      simp [select, select_append (Nat.succ.inj h)]

theorem select_replicate_true : ∀ xs : List α, select (List.replicate xs.length true) xs = xs
  | [] => rfl
  | x :: xs => by simp [List.replicate_succ, select, select_replicate_true xs]

theorem select_replicate_false : ∀ xs : List α, select (List.replicate xs.length false) xs = []
  | [] => rfl
  | x :: xs => by simp [List.replicate_succ, select, select_replicate_false xs]

theorem select_compose : ∀ (mask inner : List Bool) (xs : List α), mask.length = xs.length →
    select (compose mask inner) xs = select inner (select mask xs)
  | [], inner, [], _ => by cases inner <;> simp [compose, select]
  | true :: mask, [], x :: xs, _ => by simp [compose, select]
  | true :: mask, true :: inner, x :: xs, h => by
      simp [compose, select, select_compose mask inner xs (Nat.succ.inj h)]
  | true :: mask, false :: inner, x :: xs, h => by
      simp [compose, select, select_compose mask inner xs (Nat.succ.inj h)]
  | false :: mask, inner, x :: xs, h => by
      simp [compose, select, select_compose mask inner xs (Nat.succ.inj h)]

theorem length_compose : ∀ {mask inner : List Bool} {xs : List α}, mask.length = xs.length →
    (select mask xs).length = inner.length → (compose mask inner).length = mask.length
  | [], inner, _, _, _ => by cases inner <;> rfl
  | true :: mask, [], x :: xs, _, h => by simp [select] at h
  | true :: mask, b :: inner, x :: xs, hlength, h => by
      have hrest : (select mask xs).length = inner.length := by simpa [select] using h
      simp [compose, length_compose (Nat.succ.inj hlength) hrest]
  | false :: mask, inner, x :: xs, hlength, h => by
      have hrest : (select mask xs).length = inner.length := by simpa [select] using h
      simp [compose, length_compose (Nat.succ.inj hlength) hrest]

/-- The place in the text of the item with the number `n` of what is left of it. -/
def keptPlace : List Bool → Nat → Nat
  | true :: _, 0 => 0
  | true :: mask, n + 1 => keptPlace mask n + 1
  | false :: mask, n => keptPlace mask n + 1
  | [], _ => 0

/-- What is left before an item is what is left of the text before it. -/
theorem take_select : ∀ (mask : List Bool) (xs : List α) (n : Nat), mask.length = xs.length →
    (select mask xs).take n = select (mask.take (keptPlace mask n)) (xs.take (keptPlace mask n))
  | [], [], n, _ => by simp [select]
  | true :: mask, x :: xs, 0, _ => by simp [select, keptPlace]
  | true :: mask, x :: xs, n + 1, h => by
      simp [select, keptPlace, take_select mask xs n (Nat.succ.inj h)]
  | false :: mask, x :: xs, n, h => by
      simp [select, keptPlace, take_select mask xs n (Nat.succ.inj h)]

/-- Every item is left or taken out. -/
theorem count_select [BEq α] (a : α) : ∀ (mask : List Bool) (xs : List α), mask.length = xs.length →
    xs.count a = (select mask xs).count a + (select (mask.map not) xs).count a
  | [], [], _ => rfl
  | true :: mask, x :: xs, h => by
      have ih := count_select a mask xs (Nat.succ.inj h)
      simp only [select, List.map_cons, Bool.not_true, List.count_cons, ih]
      omega
  | false :: mask, x :: xs, h => by
      have ih := count_select a mask xs (Nat.succ.inj h)
      simp only [select, List.map_cons, Bool.not_false, List.count_cons, ih]
      omega

theorem compose_append : ∀ {mask mask' inner inner' : List Bool} {xs : List α},
    mask.length = xs.length → (select mask xs).length = inner.length →
    compose (mask ++ mask') (inner ++ inner') = compose mask inner ++ compose mask' inner'
  | [], mask', inner, inner', [], _, h => by
      obtain rfl := List.length_eq_zero_iff.mp h.symm
      simp [compose]
  | true :: mask, mask', [], inner', x :: xs, _, h => by simp [select] at h
  | true :: mask, mask', b :: inner, inner', x :: xs, hlength, h => by
      have hrest : (select mask xs).length = inner.length := by simpa [select] using h
      simp [compose, compose_append (Nat.succ.inj hlength) hrest]
  | false :: mask, mask', inner, inner', x :: xs, hlength, h => by
      have hrest : (select mask xs).length = inner.length := by simpa [select] using h
      simp [compose, compose_append (Nat.succ.inj hlength) hrest]

/-- Nothing is left of what is taken out entirely. -/
theorem compose_replicate_false : ∀ {mask : List Bool} {xs : List α}, mask.length = xs.length →
    compose mask (List.replicate (select mask xs).length false) = List.replicate mask.length false
  | [], [], _ => rfl
  | true :: mask, x :: xs, h => by
      simp [select, compose, List.replicate_succ, compose_replicate_false (Nat.succ.inj h)]
  | false :: mask, x :: xs, h => by
      simp [select, compose, List.replicate_succ, compose_replicate_false (Nat.succ.inj h)]

/-- What is taken out at once passes on what comes after it. -/
theorem compose_replicate (n : Nat) (mask inner : List Bool) :
    compose (List.replicate n false ++ mask) inner = List.replicate n false ++ compose mask inner := by
  induction n with
  | zero => rfl
  | succ n ih => simp [List.replicate_succ, compose, ih]

/-- What is taken out first is taken out. -/
theorem getElem?_compose_false : ∀ {mask inner : List Bool} {i : Nat}, mask[i]? = some false →
    (compose mask inner)[i]? ≠ some true
  | [], _, _, h => by simp at h
  | true :: mask, [], i, _ => by simp [compose]
  | true :: mask, b :: inner, 0, h => by simp at h
  | true :: mask, b :: inner, i + 1, h => by
      simpa [compose] using getElem?_compose_false (by simpa using h)
  | false :: mask, inner, 0, _ => by simp [compose]
  | false :: mask, inner, i + 1, h => by
      simpa [compose] using getElem?_compose_false (by simpa using h)

end EccFe.Search
