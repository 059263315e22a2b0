import Mathlib.Data.List.Basic

/-! Where a filter puts the items it keeps: each behind those that it keeps before it. -/

namespace Filtered

variable {α : Type*} (p : α → Bool) (l : List α)

/-- How many items before a position the filter keeps. -/
def rank (a : Nat) : Nat := (l.take a).countP p

variable {p l} {a b : Nat} {x : α}

theorem rank_mono (le : a ≤ b) : rank p l a ≤ rank p l b :=
  -- What is before the one position is before the other.
  (List.take_sublist_take_left le).countP_le

/-- An item that is kept counts for every position behind it, and so do those in between. -/
theorem rank_of_kept (found : l[a]? = some x) (kept : p x = true) (lt : a < b) :
    rank p l b = rank p l a + 1 + ((l.take b).drop (a + 1)).countP p := by
  have front : (l.take b).take (a + 1) = l.take a ++ [x] := by
    rw [List.take_take, Nat.min_eq_left lt, List.take_add_one, found, Option.toList_some]
  calc rank p l b
      = ((l.take b).take (a + 1) ++ (l.take b).drop (a + 1)).countP p := by
        rw [List.take_append_drop, rank]
    _ = rank p l a + 1 + ((l.take b).drop (a + 1)).countP p := by
        rw [List.countP_append, front, List.countP_append, List.countP_singleton, if_pos kept, rank]

/-- Items that are kept stay in their order. -/
theorem rank_lt_iff (found : l[a]? = some x) (kept : p x = true) : rank p l a < rank p l b ↔ a < b := by
  constructor
  · intro lt
    by_contra le
    exact absurd (rank_mono (Nat.not_lt.mp le)) (Nat.not_le.mpr lt)
  · intro lt
    have counted := rank_of_kept found kept lt
    omega

/-- The items of the filtered list are those that are kept, each at its rank. -/
theorem getElem?_filter {k : Nat} :
    (l.filter p)[k]? = some x ↔ ∃ a, rank p l a = k ∧ l[a]? = some x ∧ p x = true := by
  -- The induction is on the list, whose first item shifts every rank by one or not at all.
  induction l generalizing k with
  | nil => simp
  | cons y l ih =>
    have shifted (a : Nat) : rank p (y :: l) (a + 1) = rank p l a + if p y = true then 1 else 0 := by
      rw [rank, List.take_succ_cons, List.countP_cons, rank]
    by_cases kept : p y = true
    · rw [List.filter_cons_of_pos kept]
      simp only [kept, if_true] at shifted
      cases k with
      | zero =>
        constructor
        · intro head
          obtain rfl := Option.some.inj head
          exact ⟨0, rfl, rfl, kept⟩
        · rintro ⟨a, first, found, -⟩
          cases a with
          | zero => exact found
          | succ a =>
            rw [shifted] at first
            cases first
      | succ k =>
        rw [List.getElem?_cons_succ, ih]
        constructor
        · rintro ⟨a, rfl, found⟩
          exact ⟨a + 1, shifted a, found⟩
        · rintro ⟨a, later, found⟩
          cases a with
          | zero => cases later
          | succ a =>
            rw [shifted] at later
            exact ⟨a, Nat.succ.inj later, found⟩
    · rw [List.filter_cons_of_neg kept, ih]
      simp only [kept, Bool.false_eq_true, if_false, Nat.add_zero] at shifted
      constructor
      · rintro ⟨a, rfl, found⟩
        exact ⟨a + 1, shifted a, found⟩
      · rintro ⟨a, rfl, found, own⟩
        cases a with
        | zero =>
          obtain rfl := Option.some.inj found
          exact absurd own kept
        | succ a => exact ⟨a, (shifted a).symm, found, own⟩

end Filtered
