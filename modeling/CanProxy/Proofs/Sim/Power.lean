import CanProxy.Proofs.Sim.Script

/-!
The power of the script, and why the charge cannot creep up: what braking returns is less than what
the fast phases before it take.
-/

namespace CanProxy.Script

open Numeric

/-- Whatever the motion, the power is limited. -/
theorem tractivePower_bounded (speed accel : ℚ) :
    -60 ≤ tractivePower speed accel ∧ tractivePower speed accel ≤ 120 := by
  -- Two comparisons limit any power from both sides.
  have limited (power : ℚ) :
      -60 ≤ (if (if power < -60 then -60 else power) > 120 then 120 else if power < -60 then -60 else power) ∧
        (if (if power < -60 then -60 else power) > 120 then 120 else if power < -60 then -60 else power) ≤
          120 := by
    split_ifs <;> constructor <;> linarith
  unfold tractivePower
  dsimp only
  split
  · norm_num
  · exact limited _

/-- Without braking, a speed takes at least the power of its drag, up to the limit. -/
theorem tractivePower_steady {speed accel least rate : ℚ} (steady : 0 ≤ accel) (fast : least ≤ speed)
    (moving : 1 / 2 ≤ least) (limit : rate ≤ 120)
    (drag : rate ≤ (4002 / 10000 * (least / (18 / 5)) * (least / (18 / 5)) + 17658 / 100) *
      (least / (18 / 5)) / 1000) : rate ≤ tractivePower speed accel := by
  obtain ⟨l, least'⟩ : ∃ l, least / (18 / 5) = l := ⟨_, rfl⟩
  obtain ⟨v, speed'⟩ : ∃ v, speed / (18 / 5) = v := ⟨_, rfl⟩
  -- Both speeds are in metres per second from here on, and named.
  have low : 1 / 10 < l := by
    rw [← least', lt_div_iff₀ (by norm_num)]
    linarith
  have above : l ≤ v := by
    rw [← least', ← speed']
    exact div_le_div_of_nonneg_right fast (by norm_num)
  -- Drag and rolling resistance only grow with the speed, and the acceleration adds to them.
  have square : l * l ≤ v * v := mul_le_mul above above (by linarith) (by linarith)
  have force : 4002 / 10000 * l * l + 17658 / 100 ≤
      1500 * accel + 1 / 2 * (6 / 5) * (29 / 100) * (23 / 10) * v * v + 12 / 1000 * 1500 * (981 / 100) * 1 := by
    linarith
  have positive : 0 ≤ 4002 / 10000 * l * l + 17658 / 100 := by positivity
  have work := mul_le_mul force above (by linarith) (positive.trans force)
  unfold tractivePower
  dsimp only
  rw [speed', if_neg (by linarith : ¬speed < 1 / 2), if_pos (low.trans_le above)]
  rw [least'] at drag
  have power : rate ≤ (1500 * accel + 1 / 2 * (6 / 5) * (29 / 100) * (23 / 10) * v * v +
      12 / 1000 * 1500 * (981 / 100) * 1) * v / 1000 := by linarith
  have nonneg : 0 ≤ (1500 * accel + 1 / 2 * (6 / 5) * (29 / 100) * (23 / 10) * v * v +
      12 / 1000 * 1500 * (981 / 100) * 1) * v / 1000 := by
    have := mul_nonneg positive (by linarith : 0 ≤ l)
    linarith
  rw [if_neg (not_lt.mpr nonneg), if_neg (by linarith : ¬_ < (-60 : ℚ))]
  split <;> linarith

/-- The power that a tick which ends in a phase takes at least; braking returns some, up to the limit. -/
def rate : Fin kPhaseCount → ℚ := ![0, 0, 0, 20, 20, 42, 42, 78, -60, -60, -60, 0]

/-- What the script has taken at the start of each phase, at least, in kilojoules. -/
def base : Fin kPhaseCount → ℚ := ![0, 0, 0, 0, 160, 220, 472, 598, 772, 532, 352, 172]

/-- What the script has taken at a place, at least, in kilojoules. -/
def reserve (p : Cycle.Place kPhaseCount) : ℚ :=
  let taken := base p.stage + rate p.stage * p.into / 1000
  -- The last second at full speed counts as braking already, since the tick that ends it may brake.
  if p.stage = 7 then min taken (1012 - 60 * p.into / 1000) else taken

/-- Before the full speed, each phase takes no less than the one before it, from where that one ends. -/
theorem base_next (i : Fin kPhaseCount) (slower : i ≠ 7) :
    base (i + 1) ≤ base i + rate i * dur i / 1000 ∧ rate i ≤ rate (i + 1) := by
  -- Twelve phases, each next to the one behind it.
  revert i
  decide +kernel

/-- The reserve of a place is at most what its phase's power adds up to. -/
theorem reserve_le (p : Cycle.Place kPhaseCount) :
    reserve p ≤ base p.stage + rate p.stage * p.into / 1000 := by
  unfold reserve
  dsimp only
  -- The other line at full speed only makes it less.
  split
  · exact min_le_left _ _
  · exact le_refl _

/-- The reserve at full speed. -/
theorem reserve_full (into : ℤ) :
    reserve ⟨7, into⟩ = min (598 + 78 * (into : ℚ) / 1000) (1012 - 60 * (into : ℚ) / 1000) := by
  have speed : base 7 = 598 ∧ rate 7 = 78 := ⟨rfl, rfl⟩
  rw [reserve, if_pos rfl, speed.1, speed.2]

/-- A tick never adds more to the reserve than it takes. -/
theorem reserve_advance (p : Cycle.Place kPhaseCount) {dt : ℤ} (unfinished : p.into < dur p.stage)
    (forward : 0 ≤ dt) (short : dt ≤ 1000) :
    reserve (Cycle.advance dur p dt) ≤ reserve p + rate (Cycle.advance dur p dt).stage * dt / 1000 := by
  obtain ⟨i, into⟩ := p
  have unfinished : (into : ℚ) < dur i := by exact_mod_cast unfinished
  have forward : (0 : ℚ) ≤ dt := by exact_mod_cast forward
  have short : (dt : ℚ) ≤ 1000 := by exact_mod_cast short
  have next := reserve_le (Cycle.advance dur ⟨i, into⟩ dt)
  by_cases full : i = 7
  · subst full
    have dur7 : dur 7 = 4000 := rfl
    have brakes : base 8 = 772 ∧ rate 8 = -60 := ⟨rfl, rfl⟩
    rw [dur7] at unfinished
    rw [reserve_full]
    unfold Cycle.advance at next ⊢
    dsimp only at next ⊢
    rw [dur7] at next ⊢
    by_cases ends : into + dt ≥ 4000
    · -- A tick that ends the full speed began in its last second, and counts as braking.
      have ends' : (4000 : ℚ) ≤ into + dt := by exact_mod_cast ends
      rw [if_pos ends] at next ⊢
      rw [show (7 : Fin kPhaseCount) + 1 = 8 from rfl, brakes.1, brakes.2] at next
      rw [show (7 : Fin kPhaseCount) + 1 = 8 from rfl, brakes.2, min_eq_right (by linarith)]
      push_cast at next
      linarith
    · have low := min_le_left (598 + 78 * ((into : ℚ) + dt) / 1000) (1012 - 60 * ((into : ℚ) + dt) / 1000)
      have high := min_le_right (598 + 78 * ((into : ℚ) + dt) / 1000) (1012 - 60 * ((into : ℚ) + dt) / 1000)
      rw [if_neg ends, reserve_full, show rate 7 = 78 from rfl, ← sub_le_iff_le_add]
      push_cast
      exact le_min (by linarith) (by linarith)
  · have here : reserve ⟨i, into⟩ = base i + rate i * into / 1000 := if_neg full
    rw [here]
    unfold Cycle.advance at next ⊢
    dsimp only at next ⊢
    by_cases ends : into + dt ≥ dur i
    · -- The power does not fall at the end of the phase, so no more is added than it takes.
      obtain ⟨less, slower⟩ := base_next i full
      rw [if_pos ends] at next ⊢
      push_cast at next
      refine next.trans ?_
      have rest := mul_le_mul_of_nonneg_right slower (sub_nonneg.mpr unfinished.le)
      linarith
    · rw [if_neg ends] at next ⊢
      push_cast at next
      linarith

section Speed

/-- The speed at a place of the script. -/
def speedAt (p : Cycle.Place kPhaseCount) : ℚ :=
  (kPhases.get p.stage).spd0 + ((kPhases.get p.stage).spd1 - (kPhases.get p.stage).spd0) *
    (p.into / dur p.stage)

/-- The script is slower at the end of a phase than at its start only when braking. -/
def Rising (i : Fin kPhaseCount) : Prop := (kPhases.get i).spd0 ≤ (kPhases.get i).spd1

/-- The speed does not jump between phases. -/
theorem speeds_meet (i : Fin kPhaseCount) : (kPhases.get i).spd1 = (kPhases.get (i + 1)).spd0 := by
  -- The last phase ends at the standstill that the first one starts from.
  revert i
  decide +kernel

/-- Up to the full speed, a phase and the one before it do not brake. -/
theorem rising_of_lt {i j : Fin kPhaseCount} (fast : j < 8) (near : j = i + 1 ∨ j = i) :
    Rising i ∧ Rising j := by
  -- The table has one phase after the other speed up, or keep its speed, up to the eighth.
  have all : ∀ i j : Fin kPhaseCount, j < 8 → (j = i + 1 ∨ j = i) →
      (kPhases.get i).spd0 ≤ (kPhases.get i).spd1 ∧ (kPhases.get j).spd0 ≤ (kPhases.get j).spd1 := by
    decide +kernel
  exact all i j fast near

variable {p : Cycle.Place kPhaseCount}

/-- The part of a phase that has passed. -/
theorem part_bounded (begun : 0 ≤ p.into) (unfinished : p.into < dur p.stage) :
    0 ≤ (p.into / dur p.stage : ℚ) ∧ (p.into / dur p.stage : ℚ) ≤ 1 := by
  have begun : (0 : ℚ) ≤ p.into := by exact_mod_cast begun
  have unfinished : (p.into : ℚ) < dur p.stage := by exact_mod_cast unfinished
  exact ⟨div_nonneg begun (by linarith), div_le_one_of_le₀ unfinished.le (by linarith)⟩

/-- The speed lies between those of its phase. -/
theorem speedAt_rising (begun : 0 ≤ p.into) (unfinished : p.into < dur p.stage) (rising : Rising p.stage) :
    (kPhases.get p.stage).spd0 ≤ speedAt p ∧ speedAt p ≤ (kPhases.get p.stage).spd1 := by
  obtain ⟨low, high⟩ := part_bounded begun unfinished
  -- The speed is the start's and a part of what it rises by.
  have up := sub_nonneg.mpr rising
  unfold speedAt
  constructor
  · linarith [mul_nonneg up low]
  · linarith [mul_le_mul_of_nonneg_left high up]

/-- What moves between two bounded values is bounded. -/
theorem blend_bounded {low high a b part : ℚ} (first : low ≤ a ∧ a ≤ high) (last : low ≤ b ∧ b ≤ high)
    (begun : 0 ≤ part) (unfinished : part ≤ 1) :
    low ≤ a + (b - a) * part ∧ a + (b - a) * part ≤ high := by
  -- It is a weighted mean of the two.
  have mixed : a + (b - a) * part = a * (1 - part) + b * part := by ring
  have rest := sub_nonneg.mpr unfinished
  rw [mixed]
  constructor
  · linarith [mul_le_mul_of_nonneg_right first.1 rest, mul_le_mul_of_nonneg_right last.1 begun]
  · linarith [mul_le_mul_of_nonneg_right first.2 rest, mul_le_mul_of_nonneg_right last.2 begun]

/-- The speed is one that the script allows. -/
theorem speedAt_bounded (begun : 0 ≤ p.into) (unfinished : p.into < dur p.stage) :
    0 ≤ speedAt p ∧ speedAt p ≤ 200 := by
  obtain ⟨low, high⟩ := part_bounded begun unfinished
  obtain ⟨first, last⟩ := speeds_bounded p.stage
  exact blend_bounded first last low high

/-- A tick that ends before the brakes are on does not slow down. -/
theorem speedAt_advance {dt : ℤ} (begun : 0 ≤ p.into) (unfinished : p.into < dur p.stage) (forward : 0 ≤ dt)
    (short : ∀ i, dt ≤ dur i) (fast : (Cycle.advance dur p dt).stage < 8) :
    speedAt p ≤ speedAt (Cycle.advance dur p dt) := by
  have next := short (p.stage + 1)
  unfold Cycle.advance at fast ⊢
  dsimp only at fast ⊢
  by_cases ends : p.into + dt ≥ dur p.stage
  · rw [if_pos ends] at fast ⊢
    obtain ⟨here, there⟩ := rising_of_lt fast (.inl rfl)
    -- The speed of the phase that ended is where the next one starts.
    refine (speedAt_rising begun unfinished here).2.trans ?_
    rw [speeds_meet]
    exact (speedAt_rising (p := ⟨p.stage + 1, p.into + dt - dur p.stage⟩) (by dsimp only; omega)
      (by dsimp only; omega) there).1
  · rw [if_neg ends] at fast ⊢
    -- Within a phase that does not brake, more time is more speed.
    have positive : (0 : ℚ) < dur p.stage := by
      have : 0 < dur p.stage := by omega
      exact_mod_cast this
    have later : (p.into : ℚ) / dur p.stage ≤ ((p.into + dt : ℤ) : ℚ) / dur p.stage := by
      refine div_le_div_of_nonneg_right ?_ positive.le
      exact_mod_cast (by omega : p.into ≤ p.into + dt)
    have up := sub_nonneg.mpr (rising_of_lt fast (.inr rfl)).2
    unfold speedAt
    linarith [mul_le_mul_of_nonneg_left later up]

end Speed

/-- The reserve is never negative, and never more than at the end of the full speed. -/
theorem reserve_bounded {p : Cycle.Place kPhaseCount} (begun : 0 ≤ p.into)
    (unfinished : p.into < dur p.stage) : 0 ≤ reserve p ∧ reserve p ≤ 832 := by
  -- Every phase but the full speed is a line, of which both ends are in the table.
  have ends : ∀ i : Fin kPhaseCount, i ≠ 7 → (0 ≤ base i ∧ base i ≤ 832) ∧
      0 ≤ base i + rate i * dur i / 1000 ∧ base i + rate i * dur i / 1000 ≤ 832 := by
    decide +kernel
  have low : (0 : ℚ) ≤ p.into := by exact_mod_cast begun
  have high : (p.into : ℚ) < dur p.stage := by exact_mod_cast unfinished
  obtain ⟨i, into⟩ := p
  dsimp only at low high
  by_cases full : i = 7
  · subst full
    rw [show dur 7 = 4000 from rfl] at high
    push_cast at high
    -- At full speed the lower of two lines counts, and they meet below the bound.
    have left := min_le_left (598 + 78 * (into : ℚ) / 1000) (1012 - 60 * (into : ℚ) / 1000)
    have right := min_le_right (598 + 78 * (into : ℚ) / 1000) (1012 - 60 * (into : ℚ) / 1000)
    rw [reserve_full]
    exact ⟨le_min (by linarith) (by linarith), by linarith⟩
  · -- A line between two bounded ends is bounded.
    obtain ⟨⟨low0, high0⟩, low1, high1⟩ := ends i full
    have positive : (0 : ℚ) < dur i := low.trans_lt high
    have here : reserve ⟨i, into⟩ = base i * (1 - into / dur i) +
        (base i + rate i * dur i / 1000) * (into / dur i) := by
      rw [reserve, if_neg full]
      field_simp
      ring
    have part : 0 ≤ (into / dur i : ℚ) := div_nonneg low positive.le
    have rest : 0 ≤ 1 - (into / dur i : ℚ) := sub_nonneg.mpr (div_le_one_of_le₀ high.le positive.le)
    rw [here]
    constructor
    · exact add_nonneg (mul_nonneg low0 rest) (mul_nonneg low1 part)
    · linarith [mul_le_mul_of_nonneg_right high0 rest, mul_le_mul_of_nonneg_right high1 part]

/-- Without braking no power is returned. -/
theorem tractivePower_nonneg {speed accel : ℚ} (steady : 0 ≤ accel) : 0 ≤ tractivePower speed accel := by
  -- A car that stands takes what its auxiliaries need.
  by_cases slow : speed < 1 / 2
  · unfold tractivePower
    dsimp only
    rw [if_pos slow]
    norm_num
  · exact tractivePower_steady steady (not_lt.mp slow) (le_refl _) (by norm_num) (by norm_num)

/-- A tick takes at least the power of the phase it ends in. -/
theorem rate_le_tractivePower {p : Cycle.Place kPhaseCount} {dt : ℤ} (begun : 0 ≤ p.into)
    (unfinished : p.into < dur p.stage) (forward : 0 < dt) (short : ∀ i, dt ≤ dur i) :
    let q := Cycle.advance dur p dt
    rate q.stage ≤ tractivePower (speedAt q) ((speedAt q - speedAt p) / (18 / 5) / (dt / 1000)) := by
  intro q
  have slower := speedAt_advance begun unfinished forward.le short
  obtain ⟨begun', unfinished'⟩ := Cycle.advance_within begun unfinished forward.le short
  -- Up to the full speed a phase takes at least the drag of the speed it starts with.
  have table : ∀ i : Fin kPhaseCount, i < 8 → (1 / 2 ≤ (kPhases.get i).spd0 ∧ rate i ≤ 120 ∧
      rate i ≤ (4002 / 10000 * ((kPhases.get i).spd0 / (18 / 5)) * ((kPhases.get i).spd0 / (18 / 5)) +
        17658 / 100) * ((kPhases.get i).spd0 / (18 / 5)) / 1000) ∨ rate i = 0 := by
    decide +kernel
  -- Behind it the reserve counts on the worst that braking can do.
  have braking : ∀ i : Fin kPhaseCount, ¬i < 8 → rate i = -60 ∨ i = 11 := by
    decide +kernel
  by_cases fast : q.stage < 8
  · have steady : 0 ≤ (speedAt q - speedAt p) / (18 / 5) / (dt / 1000 : ℚ) := by
      have forward : (0 : ℚ) < dt := by exact_mod_cast forward
      have faster := sub_nonneg.mpr (slower fast)
      positivity
    rcases table q.stage fast with ⟨moving, limit, drag⟩ | still
    · have rising := (rising_of_lt fast (.inr rfl)).2
      exact tractivePower_steady steady (speedAt_rising begun' unfinished' rising).1 moving limit drag
    · rw [still]
      exact tractivePower_nonneg steady
  · rcases braking q.stage fast with brakes | stopped
    · rw [brakes]
      exact (tractivePower_bounded _ _).1
    · -- In the last phase the car stands still.
      have still : speedAt q = 0 := by
        rw [speedAt, stopped]
        simp [kPhases, Vector.get]
      rw [still, stopped, tractivePower, if_pos (by norm_num)]
      exact (by norm_num [rate] : (0 : ℚ) ≤ 3 / 10)

end CanProxy.Script
