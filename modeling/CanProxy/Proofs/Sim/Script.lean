import CanProxy.Lib.Cycle
import CanProxy.Sim.Plugin
import Mathlib.Data.Fin.VecNotation
import Mathlib.Tactic.FinCases

/-! Where the script stands is decided by the time alone, however it is cut into ticks. -/

namespace CanProxy.Script

open Numeric

/-- How long a phase takes. -/
def dur (i : Fin kPhaseCount) : ℤ := (kPhases.get i).durMs

/-- The lamps that are on in a phase. -/
def lampsOf : Fin kPhaseCount → UInt32 :=
  ![Lamp.turnLeft.bit ||| Lamp.seatbelt.bit, 0, Lamp.engine.bit, Lamp.highBeam.bit, Lamp.tpms.bit,
    Lamp.abs.bit, Lamp.traction.bit, Lamp.oil.bit ||| Lamp.battery.bit, Lamp.brake.bit,
    Lamp.brake.bit ||| Lamp.turnRight.bit ||| Lamp.door.bit, Lamp.brake.bit, 0]

/-- The quantities after a number of steps. -/
def after (c : Config) : Nat → Sim
  | 0 => .new
  | n + 1 => ((after c n).step c c.tickMs).1

/-- The state published by a step, counted from zero. -/
def published (c : Config) (n : Nat) : VehicleState := ((after c n).step c c.tickMs).2

section Phases

variable (i : Fin kPhaseCount)

/-- Every phase takes at least two ticks of the longest kind. -/
theorem dur_long : 2000 ≤ dur i := by
  -- Twelve durations, each read off the table.
  fin_cases i <;> decide

/-- A phase switches the lamps of the one before it to its own. -/
theorem lampsOf_next :
    (lampsOf i ||| (kPhases.get (i + 1)).set) &&& ~~~(kPhases.get (i + 1)).clr = lampsOf (i + 1) := by
  -- What a phase sets and clears makes up the difference to the one before it.
  fin_cases i <;> decide

/-- Switching the lamps of a phase again changes nothing. -/
theorem lampsOf_again : (lampsOf i ||| (kPhases.get i).set) &&& ~~~(kPhases.get i).clr = lampsOf i := by
  fin_cases i <;> decide

/-- The speeds of a phase are none that a car could not go. -/
theorem speeds_bounded :
    (0 ≤ (kPhases.get i).spd0 ∧ (kPhases.get i).spd0 ≤ 200) ∧
      0 ≤ (kPhases.get i).spd1 ∧ (kPhases.get i).spd1 ≤ 200 := by
  fin_cases i <;> decide +kernel

end Phases

/-- The quantities follow the script: the time says where it stands, and that says which lamps are on. -/
structure Follows (c : Config) (n : Nat) (sim : Sim) : Prop where
  clock : sim.elapsedMs = n * c.tickMs
  place : Cycle.At dur (n * c.tickMs) ⟨sim.phase, sim.phaseElapsedMs⟩
  /-- Only at the very start the lamps are still those of the phase before. -/
  lit : sim.lampBits = lampsOf sim.phase ∨
    n = 0 ∧ sim.phase = 0 ∧ sim.phaseElapsedMs = 0 ∧ sim.lampBits = lampsOf 11

section Step

variable (c : Config) (sim : Sim) (dt : ℤ)

/-- Passing the time goes on through the cycle, and changes nothing else but the clock. -/
theorem pass_eq :
    sim.pass dt =
      { sim with
        phase := (Cycle.advance dur ⟨sim.phase, sim.phaseElapsedMs⟩ dt).stage
        phaseElapsedMs := (Cycle.advance dur ⟨sim.phase, sim.phaseElapsedMs⟩ dt).into
        elapsedMs := sim.elapsedMs + dt } := by
  -- Both go on to the next phase with what is left of the time, or stay.
  unfold Sim.pass Cycle.advance dur
  dsimp only
  split <;> rfl

/-- Switching lamps changes the lamps alone. -/
theorem light_eq : ∃ bits, sim.light dt = { sim with lampBits := bits } := by
  unfold Sim.light
  dsimp only
  -- The lamps are switched when the phase was entered in this tick, and else left.
  split
  · exact ⟨_, rfl⟩
  · exact ⟨sim.lampBits, rfl⟩

/-- What is consumed is no part of the script. -/
theorem consume_script :
    (sim.consume c dt).phase = sim.phase ∧ (sim.consume c dt).phaseElapsedMs = sim.phaseElapsedMs ∧
      (sim.consume c dt).lampBits = sim.lampBits ∧ (sim.consume c dt).elapsedMs = sim.elapsedMs := by
  -- The drivetrain decides what happens to charge and fuel; the script's own members are never touched.
  unfold Sim.consume
  cases c.electric <;> cases c.combustion <;> exact ⟨rfl, rfl, rfl, rfl⟩

end Step

/-- A step that is entered late in its phase leaves the lamps, and any other switches them. -/
theorem light_follows {sim : Sim} {dt : ℤ} {i : Fin kPhaseCount} (lit : sim.lampBits = lampsOf i)
    (place : sim.phase = i + 1 ∨ sim.phase = i) (late : sim.phase ≠ i → sim.phaseElapsedMs ≤ dt) :
    (sim.light dt).lampBits = lampsOf sim.phase := by
  -- The source compares with a little more than the tick, which makes no difference to whole milliseconds.
  have entered : sim.phaseElapsedMs ≤ dt → (sim.phaseElapsedMs : ℚ) < dt + 1 / 1000000000 := by
    intro early
    have : (sim.phaseElapsedMs : ℚ) ≤ dt := by exact_mod_cast early
    linarith
  unfold Sim.light
  dsimp only
  -- Within its phase a lamp that is switched again stays; in the next one it has to be switched.
  by_cases same : sim.phase = i
  · split
    · rw [lit, same]
      exact lampsOf_again i
    · rw [lit, same]
  · have next := place.resolve_right same
    rw [if_pos (entered (late same)), lit, next]
    exact lampsOf_next i

/-- Passing the time leads to the next phase, or stays in the phase. -/
theorem pass_cases (sim : Sim) (dt : ℤ) :
    (sim.pass dt).phase = sim.phase + 1 ∧
        (sim.pass dt).phaseElapsedMs = sim.phaseElapsedMs + dt - dur sim.phase ∨
      (sim.pass dt).phase = sim.phase ∧ (sim.pass dt).phaseElapsedMs = sim.phaseElapsedMs + dt := by
  unfold Sim.pass dur
  dsimp only
  -- The phase ends in this tick, or it does not.
  split
  · exact .inl ⟨rfl, rfl⟩
  · exact .inr ⟨rfl, rfl⟩

/-- Every step follows the script, and leaves the lamps of its phase. -/
theorem Follows.step {c : Config} {n : Nat} {sim : Sim} (follows : Follows c n sim) :
    Follows c (n + 1) (sim.step c c.tickMs).1 ∧
      (sim.step c c.tickMs).1.lampBits = lampsOf (sim.step c c.tickMs).1.phase := by
  obtain ⟨low, high⟩ := c.ticks
  have short (i : Fin kPhaseCount) : c.tickMs ≤ dur i := by
    have := dur_long i
    omega
  -- The clock and the place move on together, whatever the lamps do.
  have moved := follows.place.advance (by omega) short
  have unfinished : sim.phaseElapsedMs < dur sim.phase := follows.place.unfinished
  have passed := pass_eq sim c.tickMs
  -- After the time has passed, only the lamps are left to be switched.
  have switched : ((sim.pass c.tickMs).light c.tickMs).lampBits = lampsOf (sim.pass c.tickMs).phase := by
    have same : (sim.pass c.tickMs).lampBits = sim.lampBits := by rw [passed]
    rcases follows.lit with known | ⟨-, first, fresh, dark⟩
    · refine light_follows (i := sim.phase) (same.trans known) ?_ fun left => ?_
      · exact (pass_cases sim c.tickMs).imp And.left And.left
      · obtain ⟨-, rest⟩ := (pass_cases sim c.tickMs).resolve_right fun stays => left stays.1
        omega
    · -- The first step enters the first phase, as if after the last one.
      have stays := (pass_cases sim c.tickMs).resolve_left fun ends => by
        have place : (sim.pass c.tickMs).phaseElapsedMs ≥ 0 := by
          rw [passed]
          exact moved.begun
        have := dur_long sim.phase
        omega
      refine light_follows (i := 11) (same.trans dark) (.inl ?_) fun _ => by omega
      rw [stays.1, first]
      rfl
  obtain ⟨bits, lit⟩ := light_eq (sim.pass c.tickMs) c.tickMs
  obtain ⟨phase, into, lamps, clock⟩ := consume_script c ((sim.pass c.tickMs).light c.tickMs) c.tickMs
  have lamps : (sim.step c c.tickMs).1.lampBits = lampsOf (sim.step c c.tickMs).1.phase := by
    rw [Sim.step, lamps, switched, phase, lit]
  refine ⟨⟨?_, ?_, .inl lamps⟩, lamps⟩
  · rw [Sim.step, clock, lit, passed]
    dsimp only
    rw [follows.clock]
    push_cast
    ring
  · rw [Sim.step]
    dsimp only
    rw [phase, into, lit, passed]
    push_cast
    rw [add_one_mul]
    exact moved

/-- After any number of steps the script has been followed. -/
theorem follows_after (c : Config) (n : Nat) : Follows c n (after c n) := by
  -- One step after the other; the start is the beginning of the cycle with the lamps of its end.
  induction n with
  | zero =>
    refine ⟨by simp [after, Sim.new], ?_, .inr ⟨rfl, rfl, rfl, rfl⟩⟩
    rw [Nat.cast_zero, zero_mul]
    exact Cycle.At.begin (by decide)
  | succ n ih => exact ih.step.1

end CanProxy.Script
