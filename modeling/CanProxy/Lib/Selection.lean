import Mathlib.Algebra.Order.Ring.Defs
import Mathlib.Algebra.Order.Ring.Int
import Mathlib.Data.List.Induction
import Mathlib.Tactic.Ring

/-! One scan for the best eligible item, and how far two items that compete by ratio can drift apart. -/

namespace Selection

section Scan

variable {α : Type*} (eligible : α → Prop) [DecidablePred eligible] (beats : α → α → Prop)
  [DecidableRel beats]

/-- Keep the best item so far, unless the next one is eligible and beats it. -/
def keep (best : Option α) (a : α) : Option α :=
  if eligible a then
    match best with
    | none => some a
    | some b => if beats a b then some a else best
  else best

/-- The best eligible item of a list, the earliest one among equals. -/
def best (items : List α) : Option α := items.foldl (keep eligible beats) none

variable {eligible beats}

/-- Whatever a step keeps was kept before, or is the eligible item it looked at. -/
theorem keep_some {best : Option α} {a b : α} (kept : keep eligible beats best a = some b) :
    best = some b ∨ b = a ∧ eligible a := by
  unfold keep at kept
  split at kept
  next allowed =>
    split at kept
    · exact .inr ⟨(Option.some.inj kept).symm, allowed⟩
    next b' =>
      split at kept
      · exact .inr ⟨(Option.some.inj kept).symm, allowed⟩
      · exact .inl kept
  · exact .inl kept

/-- A scan ends with what it started from, or with an eligible item of the list. -/
theorem foldl_keep_some {items : List α} {start : Option α} {b : α}
    (found : items.foldl (keep eligible beats) start = some b) :
    start = some b ∨ b ∈ items ∧ eligible b := by
  -- The induction is on the list, and its claim is about every start.
  induction items generalizing start with
  | nil => exact .inl found
  | cons a rest ih =>
    rcases ih found with kept | ⟨member, allowed⟩
    · rcases keep_some kept with before | ⟨rfl, allowed⟩
      · exact .inl before
      · exact .inr ⟨List.mem_cons_self, allowed⟩
    · exact .inr ⟨List.mem_cons_of_mem _ member, allowed⟩

/-- The best item is listed and eligible. -/
theorem best_mem {items : List α} {b : α} (found : best eligible beats items = some b) :
    b ∈ items ∧ eligible b := by
  rcases foldl_keep_some found with start | listed
  · cases start
  · exact listed

/-- The scan of a longer list takes one more step. -/
theorem best_concat (items : List α) (last : α) :
    best eligible beats (items ++ [last]) = keep eligible beats (best eligible beats items) last := by
  rw [best, List.foldl_append]
  rfl

/-- A scan that finds nothing met no eligible item. -/
theorem not_eligible_of_best_none {items : List α} (nothing : best eligible beats items = none) :
    ∀ a ∈ items, ¬eligible a := by
  -- An eligible item would have been kept, and a step never drops what it keeps.
  induction items using List.reverseRecOn with
  | nil => exact fun a member => absurd member List.not_mem_nil
  | append_singleton seen last ih =>
    rw [best_concat] at nothing
    unfold keep at nothing
    split at nothing
    · split at nothing
      · cases nothing
      next b kept =>
        split at nothing
        · cases nothing
        · exact absurd (kept.symm.trans nothing) (Option.some_ne_none b)
    next barred =>
      intro a member
      rcases List.mem_append.mp member with earlier | new
      · exact ih nothing a earlier
      · rwa [List.mem_singleton.mp new]

/--
No eligible item beats the best one.

Not being beaten has to carry on from one item to the next, which is asked of the listed items only.
-/
theorem best_unbeaten {items : List α} (irreflexive : ∀ a, ¬beats a a)
    (asymmetric : ∀ a b, beats a b → ¬beats b a)
    (transitive : ∀ a ∈ items, ∀ b ∈ items, ∀ c ∈ items, ¬beats a b → ¬beats b c → ¬beats a c)
    {b : α} (found : best eligible beats items = some b) :
    ∀ a ∈ items, eligible a → ¬beats a b := by
  -- The induction is on the part of the list scanned so far.
  induction items using List.reverseRecOn generalizing b with
  | nil => exact fun a member => absurd member List.not_mem_nil
  | append_singleton seen last ih =>
    have narrow := fun x (member : x ∈ seen) => List.mem_append_left [last] member
    have new : last ∈ seen ++ [last] := by simp
    have ih := fun b => @ih (fun x hx y hy z hz =>
      transitive x (narrow x hx) y (narrow y hy) z (narrow z hz)) b
    rw [best_concat] at found
    unfold keep at found
    intro a member allowed
    split at found
    next open' =>
      split at found
      next nothing =>
        -- Nothing eligible came before, so the new item is compared with itself only.
        obtain rfl := Option.some.inj found
        rcases List.mem_append.mp member with earlier | same
        · exact absurd allowed (not_eligible_of_best_none nothing a earlier)
        · rw [List.mem_singleton.mp same]
          exact irreflexive _
      next b' kept =>
        split at found
        next wins =>
          -- The old best item withstood the earlier ones, and the new item withstands it.
          obtain rfl := Option.some.inj found
          rcases List.mem_append.mp member with earlier | same
          · exact transitive a member b' (narrow b' (best_mem kept).1) last new
              (ih b' kept a earlier allowed) (asymmetric last b' wins)
          · rw [List.mem_singleton.mp same]
            exact irreflexive _
        next loses =>
          obtain rfl := Option.some.inj (kept.symm.trans found)
          rcases List.mem_append.mp member with earlier | same
          · exact ih b' kept a earlier allowed
          · rwa [List.mem_singleton.mp same]
    next barred =>
      rcases List.mem_append.mp member with earlier | same
      · exact ih b found a earlier allowed
      · exact absurd (List.mem_singleton.mp same ▸ allowed) barred

end Scan

section Growth

variable {R : Type*} [CommRing R] [LinearOrder R] [IsStrictOrderedRing R]

/-- One more step of growth by a ratio keeps the geometric bound. -/
theorem geometric_step {grown grown' rate base : R} {k : Nat} (positive : 0 ≤ rate)
    (nonneg : 0 ≤ base) (step : rate * grown ≤ grown' * base)
    (bound : rate ^ (k + 1) ≤ grown * base ^ k) :
    rate ^ (k + 2) ≤ grown' * base ^ (k + 1) := by
  calc rate ^ (k + 2) = rate * rate ^ (k + 1) := pow_succ' rate (k + 1)
    _ ≤ rate * (grown * base ^ k) := mul_le_mul_of_nonneg_left bound positive
    _ = rate * grown * base ^ k := by ring
    _ ≤ grown' * base * base ^ k := mul_le_mul_of_nonneg_right step (pow_nonneg nonneg k)
    _ = grown' * base ^ (k + 1) := by ring

end Growth

end Selection
