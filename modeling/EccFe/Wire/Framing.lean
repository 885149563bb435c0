/-
EccFe.Wire.Framing — decoding a stream that arrives in pieces.

A `Framing` looks at the front of a buffer: more input is needed, an item is
complete, or the input is malformed. An item is decided by the elements it uses, and
nothing that arrives later mends an error. `drain` takes items from a buffer as long as it can, and the result of
draining a stream is the result of draining it piece by piece (`drain_append`).
-/
import Mathlib.Data.List.Basic

namespace EccFe.Wire

inductive Front (α β ε : Type) where
  | more
  | item (a : α) (rest : List β)
  | error (e : ε)

structure Framing (α β ε : Type) where
  front : List β → Front α β ε
  item_local : ∀ {bs a rest}, front bs = .item a rest →
    ∃ used, used ≠ [] ∧ bs = used ++ rest ∧ ∀ cs, front (used ++ cs) = .item a cs
  error_append : ∀ {bs e} cs, front bs = .error e → front (bs ++ cs) = .error e

/-- What `drain` took, what it left, and the error it stopped at. -/
structure Drained (α β ε : Type) where
  items : List α
  rest : List β
  error : Option ε

namespace Framing

variable {α β ε : Type} (F : Framing α β ε)

theorem shorter {bs rest : List β} {a : α} (h : F.front bs = .item a rest) :
    rest.length < bs.length := by
  obtain ⟨used, hne, rfl, -⟩ := F.item_local h
  have hpos := List.length_pos_iff.mpr hne
  rw [List.length_append]
  omega

theorem item_append {bs rest : List β} {a : α} (cs : List β) (h : F.front bs = .item a rest) :
    F.front (bs ++ cs) = .item a (rest ++ cs) := by
  obtain ⟨used, -, rfl, hall⟩ := F.item_local h
  rw [List.append_assoc, hall]

/-- At most `fuel` items; a buffer holds fewer items than elements. -/
def drainFuel : Nat → List β → Drained α β ε
  | 0, bs => ⟨[], bs, none⟩
  | fuel + 1, bs =>
      match F.front bs with
      | .more => ⟨[], bs, none⟩
      | .error e => ⟨[], bs, some e⟩
      | .item a rest =>
          let d := drainFuel fuel rest
          { d with items := a :: d.items }

def drain (bs : List β) : Drained α β ε := F.drainFuel (bs.length + 1) bs

/-- Fuel beyond the length of the buffer is not used. -/
theorem drainFuel_congr : ∀ (fuel fuel' : Nat) (bs : List β), bs.length < fuel → bs.length < fuel' →
    F.drainFuel fuel bs = F.drainFuel fuel' bs
  | 0, _, _, h, _ => absurd h (Nat.not_lt_zero _)
  | _, 0, _, _, h => absurd h (Nat.not_lt_zero _)
  | fuel + 1, fuel' + 1, bs, h, h' => by
      rw [drainFuel, drainFuel]
      cases hfront : F.front bs with
      | more => rfl
      | error e => rfl
      | item a rest =>
        have hlt := F.shorter hfront
        dsimp only
        rw [drainFuel_congr fuel fuel' rest (by omega) (by omega)]

theorem drain_more {bs : List β} (h : F.front bs = .more) : F.drain bs = ⟨[], bs, none⟩ := by
  rw [drain, drainFuel, h]

theorem drain_error {bs : List β} {e : ε} (h : F.front bs = .error e) :
    F.drain bs = ⟨[], bs, some e⟩ := by
  rw [drain, drainFuel, h]

theorem drain_item {bs rest : List β} {a : α} (h : F.front bs = .item a rest) :
    F.drain bs = ⟨a :: (F.drain rest).items, (F.drain rest).rest, (F.drain rest).error⟩ := by
  have hlt := F.shorter h
  rw [drain, drainFuel, h]
  dsimp only
  rw [F.drainFuel_congr _ (rest.length + 1) rest hlt (Nat.lt_succ_self _), ← drain]

/-- Induction along the items of a buffer. -/
theorem drain_induct {motive : List β → Prop}
    (more : ∀ bs, F.front bs = .more → motive bs)
    (error : ∀ bs e, F.front bs = .error e → motive bs)
    (item : ∀ bs a rest, F.front bs = .item a rest → motive rest → motive bs)
    (bs : List β) : motive bs := by
  induction hn : bs.length using Nat.strongRecOn generalizing bs with
  | ind n ih =>
    cases hfront : F.front bs with
    | more => exact more bs hfront
    | error e => exact error bs e hfront
    | item a rest => exact item bs a rest hfront (ih rest.length (hn ▸ F.shorter hfront) rest rfl)

/-- Without an error the rest of a drained buffer needs more input. -/
theorem front_rest (bs : List β) (h : (F.drain bs).error = none) :
    F.front (F.drain bs).rest = .more := by
  induction bs using F.drain_induct with
  | more bs hfront => rwa [F.drain_more hfront]
  | error bs e hfront => simp [F.drain_error hfront] at h
  | item bs a rest hfront ih =>
    rw [F.drain_item hfront] at h ⊢
    exact ih h

/-- The error of a drained buffer is found at its rest. -/
theorem front_rest_error {bs : List β} {e : ε} (h : (F.drain bs).error = some e) :
    F.front (F.drain bs).rest = .error e := by
  induction bs using F.drain_induct with
  | more bs hfront => simp [F.drain_more hfront] at h
  | error bs e' hfront =>
    rw [F.drain_error hfront] at h ⊢
    cases h
    exact hfront
  | item bs a rest hfront ih =>
    rw [F.drain_item hfront] at h ⊢
    exact ih h

/-- Input after an error changes nothing. -/
theorem drain_append_of_error {bs : List β} {e : ε} (h : (F.drain bs).error = some e)
    (cs : List β) :
    F.drain (bs ++ cs) = ⟨(F.drain bs).items, (F.drain bs).rest ++ cs, some e⟩ := by
  induction bs using F.drain_induct with
  | more bs hfront => simp [F.drain_more hfront] at h
  | error bs e' hfront =>
    rw [F.drain_error hfront] at h ⊢
    cases h
    exact F.drain_error (F.error_append cs hfront)
  | item bs a rest hfront ih =>
    rw [F.drain_item hfront] at h ⊢
    rw [F.drain_item (F.item_append cs hfront), ih h]

/-- A stream drained in two pieces. -/
theorem drain_append {bs : List β} (h : (F.drain bs).error = none) (cs : List β) :
    F.drain (bs ++ cs) =
      ⟨(F.drain bs).items ++ (F.drain ((F.drain bs).rest ++ cs)).items,
        (F.drain ((F.drain bs).rest ++ cs)).rest,
        (F.drain ((F.drain bs).rest ++ cs)).error⟩ := by
  induction bs using F.drain_induct with
  | more bs hfront => rw [F.drain_more hfront, List.nil_append]
  | error bs e hfront => simp [F.drain_error hfront] at h
  | item bs a rest hfront ih =>
    rw [F.drain_item hfront] at h ⊢
    rw [F.drain_item (F.item_append cs hfront), ih h]
    rfl

theorem length_rest_le (bs : List β) : (F.drain bs).rest.length ≤ bs.length := by
  induction bs using F.drain_induct with
  | more bs hfront => simp [F.drain_more hfront]
  | error bs e hfront => simp [F.drain_error hfront]
  | item bs a rest hfront ih =>
    have hlt := F.shorter hfront
    rw [F.drain_item hfront]
    exact Nat.le_trans ih (Nat.le_of_lt hlt)

theorem rest_of_items_nil {bs : List β} (h : (F.drain bs).items = []) : (F.drain bs).rest = bs := by
  cases hfront : F.front bs with
  | more => rw [F.drain_more hfront]
  | error e => rw [F.drain_error hfront]
  | item a rest => simp [F.drain_item hfront] at h

/-- An item that needed the piece leaves less than the piece. -/
theorem length_rest_lt {buffer piece : List β} (hmore : F.front buffer = .more)
    (h : (F.drain (buffer ++ piece)).items ≠ []) :
    (F.drain (buffer ++ piece)).rest.length < piece.length := by
  cases hfront : F.front (buffer ++ piece) with
  | more => simp [F.drain_more hfront] at h
  | error e => simp [F.drain_error hfront] at h
  | item a rest =>
    obtain ⟨used, -, heq, hall⟩ := F.item_local hfront
    have hlt : rest.length < piece.length := by
      by_contra hle
      -- the item was complete in the buffer
      have hbegins : used <+: buffer := by
        refine List.prefix_of_prefix_length_le ⟨rest, heq.symm⟩ ⟨piece, rfl⟩ ?_
        have hlen := congrArg List.length heq
        rw [List.length_append, List.length_append] at hlen
        omega
      obtain ⟨tail, rfl⟩ := hbegins
      rw [hall] at hmore
      cases hmore
    rw [F.drain_item hfront]
    exact Nat.lt_of_le_of_lt (F.length_rest_le rest) hlt

/-! ## Pieces -/

/-- A drained buffer and the pieces that follow: the items each piece gave, the last
buffer, and the error that ended the reading. The items of a piece with an error are
not given. -/
def feedAll (buffer : List β) : List (List β) → List (List α) × List β × Option ε
  | [] => ([], buffer, none)
  | piece :: pieces =>
      let d := F.drain (buffer ++ piece)
      match d.error with
      | some e => ([], d.rest, some e)
      | none =>
          let (given, last, error) := feedAll d.rest pieces
          (d.items :: given, last, error)

/-- Reading stops at the error of the whole stream, if there is one. -/
theorem feedAll_error (pieces : List (List β)) : ∀ buffer : List β, F.front buffer = .more →
    (F.feedAll buffer pieces).2.2 = (F.drain (buffer ++ pieces.flatten)).error := by
  induction pieces with
  | nil =>
    intro buffer hfront
    rw [feedAll, List.flatten_nil, List.append_nil, F.drain_more hfront]
  | cons piece pieces ih =>
    intro buffer _
    rw [feedAll, List.flatten_cons, ← List.append_assoc]
    cases herror : (F.drain (buffer ++ piece)).error with
    | some e => simp only [F.drain_append_of_error herror]
    | none =>
      simp only [F.drain_append herror]
      exact ih _ (F.front_rest _ herror)

/-- A stream without an error: every item is given, and the last buffer is what is left. -/
theorem feedAll_of_no_error (pieces : List (List β)) : ∀ buffer : List β, F.front buffer = .more →
    (F.drain (buffer ++ pieces.flatten)).error = none →
    (F.feedAll buffer pieces).1.flatten = (F.drain (buffer ++ pieces.flatten)).items ∧
      (F.feedAll buffer pieces).2.1 = (F.drain (buffer ++ pieces.flatten)).rest := by
  induction pieces with
  | nil =>
    intro buffer hfront _
    rw [feedAll, show ([] : List (List β)).flatten = [] from rfl, List.append_nil,
      F.drain_more hfront]
    exact ⟨rfl, rfl⟩
  | cons piece pieces ih =>
    intro buffer _ h
    rw [feedAll, List.flatten_cons, ← List.append_assoc] at *
    cases herror : (F.drain (buffer ++ piece)).error with
    | some e =>
      rw [F.drain_append_of_error herror] at h
      cases h
    | none =>
      rw [F.drain_append herror] at h ⊢
      obtain ⟨hitems, hrest⟩ := ih _ (F.front_rest _ herror) h
      simp only [List.flatten_cons, hitems]
      exact ⟨trivial, hrest⟩

/-- A stream with an error: what is given are the items complete before the piece in which
the error shows. -/
theorem feedAll_of_error (pieces : List (List β)) {e : ε} : ∀ buffer : List β,
    F.front buffer = .more → (F.drain (buffer ++ pieces.flatten)).error = some e →
    ∃ pre piece post, pieces = pre ++ piece :: post ∧
      (F.drain (buffer ++ pre.flatten)).error = none ∧
      (F.drain (buffer ++ (pre ++ [piece]).flatten)).error = some e ∧
      (F.feedAll buffer pieces).1.flatten = (F.drain (buffer ++ pre.flatten)).items := by
  induction pieces with
  | nil =>
    intro buffer hfront h
    rw [show ([] : List (List β)).flatten = [] from rfl, List.append_nil, F.drain_more hfront] at h
    cases h
  | cons piece pieces ih =>
    intro buffer hfront h
    rw [List.flatten_cons, ← List.append_assoc] at h
    rw [feedAll]
    cases herror : (F.drain (buffer ++ piece)).error with
    | some e' =>
      rw [F.drain_append_of_error herror] at h
      cases h
      refine ⟨[], piece, pieces, rfl, ?_, ?_, ?_⟩
      · simp [F.drain_more hfront]
      · simpa using herror
      · simp [F.drain_more hfront]
    | none =>
      rw [F.drain_append herror] at h
      obtain ⟨pre, piece', post, rfl, hpre, hpiece, hgiven⟩ := ih _ (F.front_rest _ herror) h
      refine ⟨piece :: pre, piece', post, rfl, ?_, ?_, ?_⟩
      · rw [List.flatten_cons, ← List.append_assoc, F.drain_append herror]
        exact hpre
      · rw [List.cons_append, List.flatten_cons, ← List.append_assoc, F.drain_append herror]
        exact hpiece
      · have hpieces : buffer ++ (piece :: pre).flatten = buffer ++ piece ++ pre.flatten := by
          rw [List.flatten_cons, ← List.append_assoc]
        rw [hpieces, F.drain_append herror, List.flatten_cons, hgiven]

/-- The error of a stream shows in one piece only. -/
theorem error_piece_unique {pre pre' post post' : List (List β)} {piece piece' : List β}
    (h : pre ++ piece :: post = pre' ++ piece' :: post')
    (hpre : (F.drain pre.flatten).error = none)
    (hpiece : (F.drain (pre ++ [piece]).flatten).error ≠ none)
    (hpre' : (F.drain pre'.flatten).error = none)
    (hpiece' : (F.drain (pre' ++ [piece']).flatten).error ≠ none) : pre = pre' ∧ piece = piece' := by
  have hbegins : ∀ {as bs : List (List β)}, (F.drain as.flatten).error ≠ none → as <+: bs →
      (F.drain bs.flatten).error ≠ none := by
    rintro as _ herror ⟨cs, rfl⟩
    obtain ⟨e, he⟩ := Option.ne_none_iff_exists'.mp herror
    rw [List.flatten_append, F.drain_append_of_error he]
    simp
  rcases List.append_eq_append_iff.mp h with ⟨mid, rfl, hmid⟩ | ⟨mid, rfl, hmid⟩
  · cases mid with
    | nil =>
      rw [List.nil_append, List.cons.injEq] at hmid
      exact ⟨by rw [List.append_nil], hmid.1⟩
    | cons m mid =>
      rw [List.cons_append, List.cons.injEq] at hmid
      refine absurd hpre' (hbegins hpiece ⟨mid, ?_⟩)
      rw [hmid.1, List.append_assoc]
      rfl
  · cases mid with
    | nil =>
      rw [List.nil_append, List.cons.injEq] at hmid
      exact ⟨by rw [List.append_nil], hmid.1.symm⟩
    | cons m mid =>
      rw [List.cons_append, List.cons.injEq] at hmid
      refine absurd hpre (hbegins hpiece' ⟨mid, ?_⟩)
      rw [hmid.1, List.append_assoc]
      rfl

end Framing

end EccFe.Wire
