import CanProxy.Lib.Run
import Mathlib.Tactic.Linarith
import Mathlib.Tactic.Ring

/-! A periodic deadline looked at from time to time, which skips ahead instead of bursting. -/

namespace Timer

/-- One period after the deadline, or one period after now when even that has passed. -/
def advance (period due now : ℤ) : ℤ :=
  -- A deadline more than one period late is restarted from now instead of catching up.
  if due + period < now then now + period else due + period

/-- Look at the clock: a deadline that has come fires and moves on. -/
def step (period due now : ℤ) : ℤ × List ℤ :=
  if now < due then (due, []) else (advance period due now, [now])

/-- The times at which the deadline fires. -/
def firings (period due : ℤ) (ticks : List ℤ) : List ℤ := Run.outputs (step period) due ticks

section

variable {period due now : ℤ}

theorem step_early (early : now < due) : step period due now = (due, []) := if_pos early

theorem step_due (reached : due ≤ now) : step period due now = (advance period due now, [now]) :=
  if_neg (by omega)

/-- A look leaves the deadline alone, moves it by its period, or restarts it from now. -/
theorem step_cases (period due now : ℤ) :
    now < due ∧ step period due now = (due, []) ∨
    due ≤ now ∧ now ≤ due + period ∧ step period due now = (due + period, [now]) ∨
    due ≤ now ∧ due + period < now ∧ step period due now = (now + period, [now]) := by
  unfold step advance
  -- Either the look is early, or the deadline comes and was or was not too late to catch up.
  by_cases early : now < due
  · exact .inl ⟨early, if_pos early⟩
  · rw [if_neg early]
    by_cases late : due + period < now
    · exact .inr (.inr ⟨by omega, late, by rw [if_pos late]⟩)
    · exact .inr (.inl ⟨by omega, by omega, by rw [if_neg late]⟩)

/-- A deadline that fires moves by at least one period. -/
theorem le_advance (reached : due ≤ now) : due + period ≤ advance period due now := by
  -- Restarting from now moves the deadline even further than one period.
  unfold advance
  split <;> omega

/-- A deadline that has come ends up at most one period after now. -/
theorem advance_le (reached : due ≤ now) : advance period due now ≤ now + period := by
  -- The deadline was not after now, so one period later it is at most a period away.
  unfold advance
  split <;> omega

/-- A positive period puts the new deadline after now, unless the old one was exactly one period late. -/
theorem lt_advance_iff (positive : 0 < period) :
    -- Catching up lands on now itself exactly when the deadline was one period late.
    now < advance period due now ↔ due + period ≠ now := by
  unfold advance
  split <;> omega

/-- After a look the deadline is ahead, unless it was exactly one period late. -/
theorem lt_step_iff (positive : 0 < period) :
    -- A deadline that has not come is ahead already, and cannot be one period late.
    now < (step period due now).1 ↔ due + period ≠ now := by
  by_cases early : now < due
  · rw [step_early early]
    omega
  · rw [step_due (by omega)]
    exact lt_advance_iff positive

/-- A deadline at most one period ahead stays so at every later look. -/
theorem step_le {prev : ℤ} (bounded : due ≤ prev + period) (later : prev ≤ now) :
    -- An early look changes nothing while the clock only moves on; a due one restarts the bound.
    (step period due now).1 ≤ now + period := by
  by_cases early : now < due
  · rw [step_early early]
    omega
  · rw [step_due (by omega)]
    exact advance_le (by omega)

theorem firings_early (rest : List ℤ) (early : now < due) :
    firings period due (now :: rest) = firings period due rest := by
  unfold firings
  rw [Run.outputs_cons, step_early early, List.nil_append]

theorem firings_due (rest : List ℤ) (reached : due ≤ now) :
    firings period due (now :: rest) = now :: firings period (advance period due now) rest := by
  unfold firings
  rw [Run.outputs_cons, step_due reached, List.singleton_append]

end

/-- The last look of a nonempty sequence does not depend on what came before it. -/
theorem last_look (prev now : ℤ) (rest : List ℤ) :
    (now :: rest).getLast?.getD prev = rest.getLast?.getD now := by
  -- A nonempty list always has a last element, so the outer default is never taken.
  rw [List.getLast?_cons]
  rfl

/-- Looked at in order, a deadline is never more than one period ahead of the last look. -/
theorem final_le {period prev due : ℤ} (ticks : List ℤ) (sorted : List.IsChain (· ≤ ·) (prev :: ticks))
    (bounded : due ≤ prev + period) :
    Run.final (step period) due ticks ≤ ticks.getLast?.getD prev + period := by
  -- Each look becomes the one the bound is measured from.
  induction ticks generalizing prev due with
  | nil => exact bounded
  | cons now rest ih =>
    obtain ⟨later, sorted⟩ := List.isChain_cons_cons.mp sorted
    rw [last_look, Run.final_cons]
    exact ih sorted (step_le bounded later)

/-- However the clock is looked at, the k-th firing never comes before k periods after the first deadline. -/
theorem le_firing {period due : ℤ} (ticks : List ℤ) (k : Nat) {time : ℤ}
    (fired : (firings period due ticks)[k]? = some time) : due + k * period ≤ time := by
  -- The induction is on the looks, for every deadline and every index at once.
  induction ticks generalizing due k with
  | nil => simp [firings] at fired
  | cons now rest ih =>
    by_cases early : now < due
    · rw [firings_early rest early] at fired
      exact ih k fired
    · rw [firings_due rest (by omega)] at fired
      cases k with
      | zero =>
        -- The first firing happens at this very look, which the deadline has reached.
        obtain rfl : now = time := by simpa using fired
        push_cast
        linarith
      | succ k =>
        -- The remaining firings start from a deadline at least one period later.
        have later := ih k (by simpa using fired)
        have moved : due + period ≤ advance period due now := le_advance (not_lt.mp early)
        push_cast
        linarith

/-- Looks at the clock in order, no two of them further apart than one period. -/
def Dense (period prev : ℤ) (ticks : List ℤ) : Prop :=
  List.IsChain (fun a b => a ≤ b ∧ b ≤ a + period) (prev :: ticks)

section Dense

variable {period prev due : ℤ} {ticks : List ℤ}

/-- Looked at densely, a deadline ahead of the last look never skips: it moves by exactly one period. -/
theorem advance_dense {now : ℤ} (ahead : prev < due) (next : now ≤ prev + period) :
    advance period due now = due + period :=
  if_neg (by omega)

/-- Looked at densely, the k-th firing is the first look k periods after the first deadline. -/
theorem firings_dense (dense : Dense period prev ticks) (ahead : prev < due)
    (near : due ≤ prev + period) (k : Nat) :
    (firings period due ticks)[k]? = ticks.find? (fun now => due + k * period ≤ now) := by
  -- The deadline stays in the window of one period after the last look.
  induction ticks generalizing prev due k with
  | nil => simp [firings]
  | cons now rest ih =>
    obtain ⟨⟨later, next⟩, dense⟩ := List.isChain_cons_cons.mp dense
    have period_pos : 0 < period := by omega
    -- An early look fires nothing, and is not the first one past the deadline either.
    by_cases early : now < due
    · have skipped : ¬ due + k * period ≤ now := by
        have := mul_nonneg (Int.natCast_nonneg k) period_pos.le
        linarith
      rw [firings_early rest early, List.find?_cons_of_neg (by simpa using skipped)]
      exact ih dense early (by omega) k
    -- A due look is the first firing, and the later ones count from one period on.
    · rw [firings_due rest (by omega), advance_dense ahead next]
      cases k with
      | zero => rw [List.find?_cons_of_pos (by simpa using not_lt.mp early), List.getElem?_cons_zero]
      | succ k =>
        have skipped : ¬ due + ((k + 1 : Nat) : ℤ) * period ≤ now := by
          have := mul_nonneg (Int.natCast_nonneg k) period_pos.le
          push_cast
          linarith
        rw [List.find?_cons_of_neg (by simpa using skipped), List.getElem?_cons_succ,
          ih dense (by omega) (by omega) k]
        congr 1
        funext time
        push_cast
        rw [show due + period + (k : ℤ) * period = due + ((k : ℤ) + 1) * period by ring]

/-- Looked at densely, the number of firings is the number of periods that have begun. -/
theorem length_firings_dense (dense : Dense period prev ticks) (ahead : prev < due)
    (near : due ≤ prev + period) :
    ((firings period due ticks).length : ℤ) = ((ticks.getLast?.getD prev) - due) / period + 1 := by
  induction ticks generalizing prev due with
  | nil =>
    -- Before any look the deadline lies within one period, so the quotient is minus one.
    have quotient : (prev - due) / period = -1 := by
      rw [Int.ediv_eq_iff_of_pos (by omega)]
      omega
    simp [firings, quotient]
  | cons now rest ih =>
    obtain ⟨⟨later, next⟩, dense⟩ := List.isChain_cons_cons.mp dense
    rw [last_look]
    -- Only a look that fires begins another period.
    by_cases early : now < due
    · rw [firings_early rest early]
      exact ih dense early (by omega)
    · rw [firings_due rest (by omega), advance_dense ahead next, List.length_cons]
      push_cast
      rw [ih dense (by omega) (by omega),
        show rest.getLast?.getD now - (due + period) = rest.getLast?.getD now - due - 1 * period by ring,
        Int.sub_mul_ediv_right _ _ (by omega)]
      ring

end Dense

end Timer
