import CanProxy.Proofs.Sim.Power

/-! Every quantity of the script stays where a car's could be, however long it runs. -/

namespace CanProxy.Script

open Numeric

/-- Where the script stands. -/
def Sim.place (sim : Sim) : Cycle.Place kPhaseCount := ⟨sim.phase, sim.phaseElapsedMs⟩

/-- The percentage of the charge that a kilojoule is. -/
def kilojoule : ℚ := 100 / 64 / 3600

/--
The charge, with what the script is owed by its place and by the filter of the power.

A tick never adds to it: the filter only spreads the power over later ticks.
-/
def credit (c : Config) (sim : Sim) : ℚ :=
  sim.soc + kilojoule * (reserve sim.place - 17 / 3 * (c.tickMs / 1000) * sim.powerFiltered)

/-- The quantities are those of a car. -/
structure Realistic (c : Config) (sim : Sim) : Prop where
  moving : sim.lastSpeed = speedAt sim.place
  power : -60 ≤ sim.powerFiltered ∧ sim.powerFiltered ≤ 120
  charge : 5 ≤ sim.soc
  full : c.electric = false → sim.soc = 80
  credit : credit c sim ≤ 80 + kilojoule * 1172
  fuel : 3 ≤ sim.fuel ∧ sim.fuel ≤ 75
  trip : 1 ≤ sim.tripKm
  odo : 10568 ≤ sim.odo

section Consume

variable (c : Config) (sim : Sim) (dt : ℤ)

/-- The power after the filter. -/
def filtered : ℚ :=
  sim.powerFiltered + (tractivePower sim.speed (sim.accel dt) - sim.powerFiltered) * (15 / 100)

/-- The fuel that an engine burns in a time. -/
def burned (dt : ℤ) (power : ℚ) : ℚ := (1 / 2 + (if power > 0 then power else 0) * (5 / 100)) * dt / 60000

theorem burned_nonneg {dt : ℤ} (forward : (0 : ℚ) ≤ dt) (power : ℚ) : 0 ≤ burned dt power := by
  -- Braking burns no fuel back.
  have nonneg : 0 ≤ if power > 0 then power else 0 := by split_ifs <;> linarith
  unfold burned
  positivity

/-- What a step leaves of each quantity. -/
theorem consume_quantities :
    (sim.consume c dt).lastSpeed = sim.speed ∧
      (sim.consume c dt).powerFiltered = filtered sim dt ∧
      (sim.consume c dt).odo = sim.odo + sim.speed * (dt / 3600000) ∧
      (sim.consume c dt).soc =
        (if c.electric then
          if sim.soc - filtered sim dt * (dt / 3600000) / 64 * 100 < 5 then 80
          else sim.soc - filtered sim dt * (dt / 3600000) / 64 * 100
        else sim.soc) ∧
      (sim.consume c dt).tripKm =
        (if c.electric then sim.tripKm + sim.speed * (dt / 3600000) else sim.tripKm) ∧
      (sim.consume c dt).fuel =
        if c.combustion then
          if sim.fuel - burned dt (filtered sim dt) < 3 then 75 else sim.fuel - burned dt (filtered sim dt)
        else sim.fuel := by
  -- A drivetrain that does not use a quantity leaves it alone.
  unfold Sim.consume
  cases c.electric <;> cases c.combustion <;> exact ⟨rfl, rfl, rfl, rfl, rfl, rfl⟩

end Consume

section Step

variable {c : Config} {sim : Sim}

/-- A tick ends within a phase, and is shorter than any. -/
theorem tick_short (c : Config) (i : Fin kPhaseCount) : c.tickMs ≤ dur i := by
  -- The shortest phase takes twice the longest tick.
  have := dur_long i
  have := c.ticks
  omega

/-- The quantities that a tick finds when the time has passed and the lamps are switched. -/
theorem passed_quantities (c : Config) (sim : Sim) :
    let passed := (sim.pass c.tickMs).light c.tickMs
    passed.place = Cycle.advance dur sim.place c.tickMs ∧ passed.lastSpeed = sim.lastSpeed ∧
      passed.powerFiltered = sim.powerFiltered ∧ passed.odo = sim.odo ∧ passed.soc = sim.soc ∧
      passed.tripKm = sim.tripKm ∧ passed.fuel = sim.fuel := by
  intro passed
  -- Neither the time nor the lamps take anything.
  obtain ⟨bits, lit⟩ := light_eq (sim.pass c.tickMs) c.tickMs
  simp only [passed, lit, pass_eq, Sim.place, and_self]

/-- The filter keeps the power within its limits. -/
theorem filtered_bounded (sim : Sim) (dt : ℤ) (power : -60 ≤ sim.powerFiltered ∧ sim.powerFiltered ≤ 120) :
    -60 ≤ filtered sim dt ∧ filtered sim dt ≤ 120 := by
  -- The filter is a mean of two bounded powers.
  have := tractivePower_bounded sim.speed (sim.accel dt)
  unfold filtered
  constructor <;> linarith

/-- The place keeps within its phase. -/
def Placed (sim : Sim) : Prop := 0 ≤ sim.place.into ∧ sim.place.into < dur sim.place.stage

/-- A full charge leaves its credit within the bound, whatever the script is doing. -/
theorem credit_full (placed : Placed sim) (power : -60 ≤ sim.powerFiltered) (full : sim.soc = 80) :
    credit c sim ≤ 80 + kilojoule * 1172 := by
  obtain ⟨low, high⟩ := c.ticks
  have low : (5 : ℚ) ≤ c.tickMs := by exact_mod_cast low
  have high : (c.tickMs : ℚ) ≤ 1000 := by exact_mod_cast high
  -- The reserve is at most what the fast phases take, and the filter owes at most a second of braking.
  have most := (reserve_bounded placed.1 placed.2).2
  have least := mul_le_mul_of_nonneg_left power (by linarith : (0 : ℚ) ≤ c.tickMs)
  rw [credit, full, kilojoule]
  linarith

/-- A tick takes the charge of its filtered power, and leaves the credit no larger. -/
theorem credit_tick {dt before f power reserved reserved' soc : ℚ}
    (filters : f = before + (power - before) * (15 / 100))
    (taken : reserved' ≤ reserved + power * dt / 1000) :
    soc - f * (dt / 3600000) / 64 * 100 + kilojoule * (reserved' - 17 / 3 * (dt / 1000) * f) ≤
      soc + kilojoule * (reserved - 17 / 3 * (dt / 1000) * before) := by
  -- What the filter lags behind is what it still owes, so that the two changes cancel out.
  have power : power = f + 17 / 3 * (f - before) := by linarith
  rw [power] at taken
  unfold kilojoule
  linarith

/-- Every step leaves the quantities realistic. -/
theorem Realistic.step (realistic : Realistic c sim) (placed : Placed sim) :
    Realistic c (sim.step c c.tickMs).1 := by
  have low : (5 : ℚ) ≤ c.tickMs := by exact_mod_cast c.ticks.1
  have forward : 0 < c.tickMs := by
    have := c.ticks
    omega
  have short := tick_short c
  have there := Cycle.advance_within placed.1 placed.2 forward.le short
  -- The reserve grows by less than the power that the tick takes.
  have taken := (reserve_advance sim.place placed.2 forward.le c.ticks.2).trans
    (add_le_add_right (div_le_div_of_nonneg_right (mul_le_mul_of_nonneg_right
      (rate_le_tractivePower placed.1 placed.2 forward short) (by linarith : (0 : ℚ) ≤ c.tickMs))
      (by norm_num : (0 : ℚ) ≤ 1000)) (reserve sim.place))
  obtain ⟨place, moving, power, odo, soc, tripKm, fuel⟩ := passed_quantities c sim
  rw [Sim.step]
  dsimp only
  -- The tick in between is named, and so are the place it leads to and the power it leaves.
  generalize (sim.pass c.tickMs).light c.tickMs = passed at *
  generalize Cycle.advance dur sim.place c.tickMs = q at *
  have speed : passed.speed = speedAt q := by
    rw [← place]
    rfl
  have accel : passed.accel c.tickMs = (speedAt q - speedAt sim.place) / (18 / 5) / (c.tickMs / 1000) := by
    rw [Sim.accel, speed, moving, realistic.moving]
  have filters : filtered passed c.tickMs = sim.powerFiltered +
      (tractivePower (speedAt q) ((speedAt q - speedAt sim.place) / (18 / 5) / (c.tickMs / 1000)) -
        sim.powerFiltered) * (15 / 100) := by
    rw [filtered, speed, accel, power]
  have bounded := filtered_bounded passed c.tickMs (power ▸ realistic.power)
  obtain ⟨phase, into, -, -⟩ := consume_script c passed c.tickMs
  obtain ⟨last', power', odo', soc', tripKm', fuel'⟩ := consume_quantities c passed c.tickMs
  have ended : (passed.consume c c.tickMs).place = q := by
    rw [← place, Sim.place, phase, into]
    rfl
  have placed' : Placed (passed.consume c c.tickMs) := by
    rw [Placed, ended]
    exact there
  have slow := (speedAt_bounded there.1 there.2).1
  have tick := mul_nonneg slow (by linarith : (0 : ℚ) ≤ c.tickMs / 3600000)
  refine ⟨by rw [last', speed, ended], by rwa [power'], ?_, ?_, ?_, ?_, ?_, ?_⟩
  · rw [soc', soc]
    have := realistic.charge
    split_ifs <;> linarith
  · intro fuelled
    rw [soc', soc, fuelled, if_neg Bool.false_ne_true]
    exact realistic.full fuelled
  · by_cases full : (passed.consume c c.tickMs).soc = 80
    · exact credit_full placed' (power' ▸ bounded.1) full
    · -- Without an exchange of the pack the charge went down by the power.
      have drawn : (passed.consume c c.tickMs).soc =
          sim.soc - filtered passed c.tickMs * (c.tickMs / 3600000) / 64 * 100 := by
        rw [soc', soc] at full ⊢
        cases electric : c.electric with
        | false =>
          rw [electric, if_neg Bool.false_ne_true] at full
          exact absurd (realistic.full electric) full
        | true =>
          rw [electric, if_pos rfl] at full
          rw [if_pos rfl, if_neg fun empty => full (if_pos empty)]
      rw [Script.credit, drawn, ended, power']
      exact (credit_tick filters taken).trans realistic.credit
  · rw [fuel', fuel]
    obtain ⟨empty, full⟩ := realistic.fuel
    -- An engine that runs dry is refilled at once.
    have := burned_nonneg (by linarith : (0 : ℚ) ≤ c.tickMs) (filtered passed c.tickMs)
    split_ifs <;> constructor <;> linarith
  · rw [tripKm', tripKm, speed]
    have := realistic.trip
    split_ifs <;> linarith
  · rw [odo', odo, speed]
    have := realistic.odo
    linarith

/-- After any number of steps the quantities are realistic. -/
theorem realistic_after (c : Config) (n : Nat) : Realistic c (after c n) := by
  induction n with
  | zero =>
    refine ⟨?_, ?_, ?_, fun _ => rfl, ?_, ?_, ?_, ?_⟩
    -- The car starts at a standstill, with a full charge and a full tank.
    · simp [after, Sim.new, speedAt, Sim.place, kPhases, Vector.get]
    · norm_num [after, Sim.new]
    · norm_num [after, Sim.new]
    · refine credit_full ?_ (by norm_num [after, Sim.new]) rfl
      exact ⟨le_refl 0, (by decide : (0 : ℤ) < dur 0)⟩
    · norm_num [after, Sim.new]
    · norm_num [after, Sim.new]
    · norm_num [after, Sim.new]
  | succ n ih =>
    have follows := (follows_after c n).place
    exact ih.step ⟨follows.begun, follows.unfinished⟩

end Step

section Published

variable (c : Config) (n : Nat)

/-- Whatever the drivetrain and however long the run, the charge stays between empty and full. -/
theorem charge_bounded : 5 ≤ (after c n).soc ∧ (after c n).soc ≤ 81 := by
  obtain ⟨low, high⟩ := c.ticks
  have low : (5 : ℚ) ≤ c.tickMs := by exact_mod_cast low
  have high : (c.tickMs : ℚ) ≤ 1000 := by exact_mod_cast high
  have realistic := realistic_after c n
  have follows := (follows_after c n).place
  -- The credit bounds the charge from above, as the reserve is never negative.
  have reserved := (reserve_bounded (p := (after c n).place) follows.begun follows.unfinished).1
  have power := realistic.power.2
  -- What the credit exceeds the charge by is what the filter still holds, and that is little.
  have held : 17 / 3 * ((c.tickMs : ℚ) / 1000) * (after c n).powerFiltered ≤ 680 := by
    have most := mul_le_mul_of_nonneg_left power (by linarith : (0 : ℚ) ≤ c.tickMs)
    linarith
  have credited := realistic.credit
  rw [Script.credit, kilojoule] at credited
  exact ⟨realistic.charge, by linarith⟩

/-- The place that the published state with a number is of. -/
theorem place_published : Cycle.At dur ((n + 1) * c.tickMs) (after c (n + 1)).place := by
  have follows := (follows_after c (n + 1)).place
  rwa [Nat.cast_succ] at follows

/-- Engine speeds and temperatures of a phase are far from the ends of their encodings. -/
theorem engine_bounded (i : Fin kPhaseCount) :
    (0 ≤ (kPhases.get i).rpm0 ∧ (kPhases.get i).rpm0 ≤ 5500) ∧
      (0 ≤ (kPhases.get i).rpm1 ∧ (kPhases.get i).rpm1 ≤ 5500) ∧
      (0 ≤ (kPhases.get i).tmp0 ∧ (kPhases.get i).tmp0 ≤ 92) ∧
      (0 ≤ (kPhases.get i).tmp1 ∧ (kPhases.get i).tmp1 ≤ 92) ∧
      0 ≤ (kPhases.get i).limit ∧ (kPhases.get i).limit ≤ 120 := by
  revert i
  decide +kernel

end Published

end CanProxy.Script
