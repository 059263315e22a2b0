import CanProxy.Proofs.Core.Daemon
import CanProxy.Proofs.Sim.Bounds

/-! What is shown of the script: the number of its publishes says where it stands. -/

namespace CanProxy.Script

open Numeric

section Published

variable (c : Config) (n : Nat)

/-- The current that a power draws from the pack. -/
theorem current_bounded {power charge : ℚ} (limited : -60 ≤ power ∧ power ≤ 120) (filled : 0 ≤ charge) :
    -1000 ≤ power * 1000 / (340 + charge * (6 / 10)) ∧ power * 1000 / (340 + charge * (6 / 10)) ≤ 1000 := by
  have positive : 0 < 340 + charge * (6 / 10) := by linarith
  rw [le_div_iff₀ positive, div_le_iff₀ positive]
  constructor <;> linarith

/-- The range that a charge is good for. -/
theorem range_bounded {charge consumption : ℚ} (filled : 0 ≤ charge ∧ charge ≤ 81) :
    0 ≤ charge / 100 * 64000 / (if consumption > 80 then consumption else 80) ∧
      charge / 100 * 64000 / (if consumption > 80 then consumption else 80) ≤ 1000 := by
  have positive : 80 ≤ if consumption > 80 then consumption else 80 := by split_ifs <;> linarith
  have nonneg : 0 ≤ charge / 100 * 64000 := by linarith
  rw [div_le_iff₀ (by linarith)]
  exact ⟨div_nonneg nonneg (by linarith), by linarith⟩

/-- The score of a power is a percentage. -/
theorem score_bounded (power : ℚ) :
    0 ≤ truncate (100 - (if |power| > 100 then 100 else |power|)) ∧
      truncate (100 - (if |power| > 100 then 100 else |power|)) ≤ 100 := by
  have nonneg : 0 ≤ 100 - (if |power| > 100 then 100 else |power|) := by split_ifs <;> linarith
  have most : 100 - (if |power| > 100 then 100 else |power|) ≤ (100 : ℤ) := by
    have := abs_nonneg power
    push_cast
    split_ifs <;> linarith
  rw [truncate_of_nonneg nonneg]
  exact ⟨Int.floor_nonneg.mpr nonneg, Int.floor_le_iff.mpr (by linarith)⟩

/-- The published state is that of the quantities after the step. -/
theorem published_eq : ∃ accel, published c n = (after c (n + 1)).state c accel := ⟨_, rfl⟩

/--
However long the script runs and whatever its tick, no signal leaves the range of its encoding, but
for the two that add up over the whole run.
-/
theorem within_range {sig : Signal} {scale : Scale} (graded : sig.scale? = some scale)
    (bounded : sig ≠ .odometer ∧ sig ≠ .consumption) :
    ∃ q, (published c n).quantity sig = .finite q ∧ scale.lo * scale.lsb ≤ q ∧ q ≤ scale.hi * scale.lsb := by
  obtain ⟨accel, shown⟩ := published_eq c n
  have here := place_published c n
  have realistic := realistic_after c (n + 1)
  obtain ⟨empty, full⟩ := charge_bounded c (n + 1)
  rw [shown]
  generalize after c (n + 1) = sim at *
  obtain ⟨begun, unfinished⟩ := part_bounded here.begun here.unfinished
  obtain ⟨slow, fast⟩ := speedAt_bounded here.begun here.unfinished
  have speed : speedAt sim.place = sim.speed := rfl
  rw [speed] at slow fast
  obtain ⟨rpm0, rpm1, tmp0, tmp1, limit⟩ := engine_bounded sim.phase
  obtain ⟨least, most⟩ := realistic.power
  obtain ⟨dry, tank⟩ := realistic.fuel
  -- Each gauge is a function of quantities that are bounded, except the two that add up.
  cases sig with
  | odometer => exact absurd rfl bounded.1
  | consumption => exact absurd rfl bounded.2
  | gear | powerState | chargingState | collisionRisk | laneState => cases graded
  | speed =>
    cases graded
    exact ⟨sim.speed, rfl, by push_cast; linarith, by push_cast; linarith⟩
  | rpm =>
    cases graded
    obtain ⟨low, high⟩ := blend_bounded rpm0 rpm1 begun unfinished
    have low : 0 ≤ (kPhases.get sim.phase).rpm0 +
      ((kPhases.get sim.phase).rpm1 - (kPhases.get sim.phase).rpm0) * sim.t := low
    have high : (kPhases.get sim.phase).rpm0 +
      ((kPhases.get sim.phase).rpm1 - (kPhases.get sim.phase).rpm0) * sim.t ≤ 5500 := high
    refine ⟨_, rfl, ?_, ?_⟩ <;> push_cast <;> split_ifs <;> linarith
  | motorPower =>
    cases graded
    exact ⟨sim.powerFiltered, rfl, by push_cast; linarith, by push_cast; linarith⟩
  | packVoltage =>
    cases graded
    exact ⟨340 + sim.soc * (6 / 10), rfl, by push_cast; linarith, by push_cast; linarith⟩
  | packCurrent =>
    cases graded
    obtain ⟨low, high⟩ := current_bounded ⟨least, most⟩ (by linarith : 0 ≤ sim.soc)
    exact ⟨_, rfl, by push_cast; linarith, by push_cast; linarith⟩
  | soc =>
    cases graded
    exact ⟨sim.soc, rfl, by push_cast; linarith, by push_cast; linarith⟩
  | soh =>
    cases graded
    exact ⟨97, rfl, by norm_num, by norm_num⟩
  | range =>
    cases graded
    obtain ⟨low, high⟩ := @range_bounded _ (sim.tripWh / sim.tripKm)
      ⟨(by linarith : 0 ≤ sim.soc), full⟩
    exact ⟨_, rfl, by push_cast; linarith, by push_cast; linarith⟩
  | ambientTemp =>
    cases graded
    exact ⟨23, rfl, by norm_num, by norm_num⟩
  | cabinTemp =>
    cases graded
    exact ⟨43 / 2, rfl, by norm_num, by norm_num⟩
  | coolantTemp =>
    cases graded
    obtain ⟨low, high⟩ := blend_bounded tmp0 tmp1 begun unfinished
    have low : 0 ≤ (kPhases.get sim.phase).tmp0 +
      ((kPhases.get sim.phase).tmp1 - (kPhases.get sim.phase).tmp0) * sim.t := low
    have high : (kPhases.get sim.phase).tmp0 +
      ((kPhases.get sim.phase).tmp1 - (kPhases.get sim.phase).tmp0) * sim.t ≤ 92 := high
    refine ⟨_, rfl, ?_, ?_⟩ <;> push_cast <;> split_ifs <;> linarith
  | fuelLevel =>
    cases graded
    exact ⟨sim.fuel, rfl, by push_cast; linarith, by push_cast; linarith⟩
  | auxBattery =>
    cases graded
    refine ⟨_, rfl, ?_, ?_⟩ <;> push_cast <;> split_ifs <;> linarith
  | ecoScore =>
    cases graded
    obtain ⟨low, high⟩ := score_bounded sim.powerFiltered
    have low : (0 : ℚ) ≤ (sim.state c accel).ecoScore := by exact_mod_cast low
    have high : ((sim.state c accel).ecoScore : ℚ) ≤ 100 := by exact_mod_cast high
    exact ⟨(sim.state c accel).ecoScore, rfl, by push_cast; linarith, by push_cast; linarith⟩
  | speedLimit =>
    cases graded
    have low : (0 : ℚ) ≤ (kPhases.get sim.phase).limit := by exact_mod_cast limit.1
    have high : ((kPhases.get sim.phase).limit : ℚ) ≤ 120 := by exact_mod_cast limit.2
    exact ⟨(kPhases.get sim.phase).limit, rfl, by push_cast; linarith, by push_cast; linarith⟩
  | leadGap =>
    cases graded
    exact ⟨25 + sim.speed * (6 / 10), rfl, by push_cast; linarith, by push_cast; linarith⟩

/-- After half an hour of a hybrid's fastest ticks the charge is still one that can be sent. -/
theorem within_range_charge :
    let c : Config := ⟨cpDrivetrainHev, false, true, -1, 5, by decide, by decide⟩
    ∃ q, (published c 360000).quantity .soc = .finite q ∧ 0 * (1 / 2) ≤ q ∧ q ≤ 200 * (1 / 2) := by
  intro c
  obtain ⟨q, value, low, high⟩ := @within_range c 360000 .soc _ rfl ⟨by decide, by decide⟩
  exact ⟨q, value, by exact_mod_cast low, by exact_mod_cast high⟩

/-- The lamps that the quantities light, whatever the phase. -/
def derived (c : Config) (sim : Sim) : Lamp → Bool
  | .evReady => c.drivetrain = cpDrivetrainBev
  | .lowFuel => c.combustion && sim.fuel < 12
  | .lowTractionBattery => c.electric && sim.soc < 15
  | .parkBrake => sim.phase = 11
  | _ => false

/-- Lighting a lamp leaves the others. -/
theorem mem_lit (lit : Prop) [Decidable lit] (bits : UInt32) (lamp other : Lamp) :
    Bits.mem (if lit then bits ||| lamp.bit else bits) other.index =
      (Bits.mem bits other.index || decide (lit ∧ lamp = other)) := by
  have small : lamp.index < 32 := by cases lamp <;> decide
  -- Lamps are told apart by their places in the bitmap.
  have same : decide (lamp.index = other.index) = decide (lamp = other) := by
    cases lamp <;> cases other <;> rfl
  by_cases on : lit
  · rw [if_pos on, Bits.mem_or, Lamp.bit, Bits.mem_single small, same]
    simp [on]
  · simp [on]

/-- A lamp is on for its phase, or for a quantity. -/
theorem mem_lamps (c : Config) (sim : Sim) (lamp : Lamp) :
    Bits.mem (sim.lamps c) lamp.index = (Bits.mem sim.lampBits lamp.index || derived c sim lamp) := by
  -- The car stands still all through the last phase.
  have parked : (sim.speed < 1 / 2 && sim.phase = (11 : Fin kPhaseCount)) =
      decide (sim.phase = (11 : Fin kPhaseCount)) := by
    by_cases last : sim.phase = (11 : Fin kPhaseCount)
    · have still : sim.speed = 0 := by
        rw [Sim.speed, last]
        simp [kPhases, Vector.get]
      simp [still, last]
    · simp [last]
  unfold Sim.lamps
  dsimp only
  rw [mem_lit, mem_lit, mem_lit, mem_lit, parked]
  cases lamp <;> simp [derived]

/--
Whatever the tick, the time alone says what the script does.

The states are published one tick apart. Each is of the one place in the cycle that its time has come
to, with the speed, the gear, the limit, and the lamps of that place, however the ticks fall on the
phases; only four lamps follow the quantities besides.
-/
theorem script_followed :
    ∃ p, Cycle.At dur ((n + 1) * c.tickMs) p ∧ (∀ q, Cycle.At dur ((n + 1) * c.tickMs) q → q = p) ∧
      (published c n).speedKmh = .finite (speedAt p) ∧
      (published c n).gear = (if speedAt p > 1 / 2 then cpGearD else cpGearP) ∧
      (published c n).speedLimitKmh = (kPhases.get p.stage).limit ∧
      ∀ lamp, Bits.mem (published c n).lamps lamp.index =
        (Bits.mem (lampsOf p.stage) lamp.index || derived c (after c (n + 1)) lamp) := by
  -- The place is that of the time, and the rest of the state is read off it.
  have here := place_published c n
  have nonneg (i : Fin kPhaseCount) : 0 ≤ dur i := by
    have := dur_long i
    omega
  have lit : (after c (n + 1)).lampBits = lampsOf (after c (n + 1)).place.stage :=
    (follows_after c n).step.2
  obtain ⟨accel, shown⟩ := published_eq c n
  refine ⟨_, here, fun q there => there.unique nonneg here, ?_, ?_, ?_, fun lamp => ?_⟩
  · rw [shown]
    rfl
  · rw [shown]
    rfl
  · rw [shown]
    rfl
  · rw [shown, ← lit]
    exact mem_lamps c (after c (n + 1)) lamp

/-- Every published state is complete: what the script is capable of is valid and defined. -/
theorem published_complete (sig : Signal) :
    (published c n).capable = c.capable ∧ (published c n).valid = c.capable ∧
      (published c n).enumerated sig = true ∧ (published c n).AssistDefined := by
  obtain ⟨accel, shown⟩ := published_eq c n
  rw [shown]
  refine ⟨rfl, rfl, ?_, ?_, ?_⟩
  -- Of the enumerated values, the gear is the one that depends on the speed.
  · have gears (fast : Prop) [Decidable fast] :
        [cpGearP, cpGearR, cpGearN, cpGearD, cpGearL].contains (if fast then cpGearD else cpGearP) = true := by
      split <;> rfl
    cases sig <;> first | rfl | exact gears _
  · simp only [Sim.state]
    split_ifs <;> simp
  · simp only [Sim.state]
    split_ifs <;> decide

end Published

section Log

variable (c : Config)

/-- The number of turns, out of so many, that publish: all of them, or those before the stall. -/
def publishes (turns : Nat) : Nat :=
  if c.stallAfterMs < 0 then turns else min turns ((c.stallAfterMs - 1) / c.tickMs).toNat

/-- The time of the stall is reached in the turn after so many. -/
def Stalls (turns : Nat) : Prop := c.stallAfterMs ≥ 0 ∧ (turns + 1) * c.tickMs ≥ c.stallAfterMs

/-- A turn publishes unless the time of the stall is reached, and then no later one does. -/
theorem publishes_succ (turns : Nat) :
    (Stalls c turns → publishes c (turns + 1) = publishes c turns ∧ publishes c turns ≤ turns) ∧
      (¬Stalls c turns → publishes c turns = turns ∧ publishes c (turns + 1) = turns + 1) := by
  have positive : 0 < c.tickMs := by
    have := c.ticks
    omega
  -- The turn that reaches the time of the stall is found by dividing the time by the tick.
  have reached : (turns + 1) * c.tickMs ≥ c.stallAfterMs ↔
      (c.stallAfterMs - 1) / c.tickMs < (turns : ℤ) + 1 := by
    rw [Int.ediv_lt_iff_lt_mul positive]
    omega
  unfold Stalls publishes
  rw [reached]
  constructor
  · intro stalls
    split <;> omega
  · intro goes
    split <;> omega

/-- What the loop has told after so many turns: the states of the script in order, and a stall once. -/
theorem turns_told (turns : Nat) :
    Run.final (Loop.turn c) .new (List.replicate turns ()) =
        ⟨after c turns, decide (publishes c turns < turns)⟩ ∧
      Run.outputs (Loop.turn c) .new (List.replicate turns ()) =
        (List.range (publishes c turns)).map (fun n => .publish (published c n)) ++
          if publishes c turns < turns then [.stalled] else [] := by
  -- Turn by turn; the state of the loop only remembers whether the stall was told.
  induction turns with
  | zero =>
    have none : publishes c 0 = 0 := by
      unfold publishes
      split <;> simp
    rw [none]
    exact ⟨rfl, rfl⟩
  | succ turns ih =>
    obtain ⟨state, told⟩ := ih
    have clock : ((after c turns).step c c.tickMs).1.elapsedMs = (turns + 1) * c.tickMs := by
      have clock := (follows_after c (turns + 1)).clock
      rwa [Nat.cast_succ] at clock
    obtain ⟨stalled, going⟩ := publishes_succ c turns
    unfold Stalls at stalled going
    rw [List.replicate_succ', Run.final_append, Run.outputs_append, state, told]
    simp only [Run.final_cons, Run.final_nil, Run.outputs_cons, Run.outputs_nil, List.append_nil, Loop.turn]
    rw [clock]
    by_cases stalls : c.stallAfterMs ≥ 0 ∧ (turns + 1) * c.tickMs ≥ c.stallAfterMs
    · -- From the stall on nothing more is published, and only the first such turn is told.
      obtain ⟨same, within⟩ := stalled stalls
      rw [if_pos stalls, same, if_pos (Nat.lt_succ_of_le within)]
      refine ⟨by rw [decide_eq_true (Nat.lt_succ_of_le within)]; rfl, ?_⟩
      by_cases before : publishes c turns < turns
      · simp [before]
      · simp [before]
    -- Before it, every turn publishes the state of its own number.
    · obtain ⟨all, next⟩ := going stalls
      rw [if_neg stalls, next, all]
      refine ⟨by simp [after], ?_⟩
      simp [List.range_succ, published]

/-- Everything a run tells. -/
theorem log_eq (turns : Nat) :
    log c turns = .setLink c.link ::
      if c.link then
        (List.range (publishes c turns)).map (fun n => .publish (published c n)) ++
          if publishes c turns < turns then [.stalled] else []
      else [.noVehicle] := by
  rw [log, (turns_told c turns).2]

/-- The states that the log of a run reports. -/
theorem log_states (turns : Nat) :
    ((log c turns).filterMap Event.report?).filterMap Report.published? =
      (List.range (if c.link then publishes c turns else 0)).map (published c) := by
  rw [log_eq]
  -- Without a link no turn is taken.
  cases c.link with
  | false => rfl
  | true =>
    have none : (if publishes c turns < turns then [Event.stalled] else []).filterMap Event.report? = [] := by
      split <;> rfl
    have each (ns : List Nat) : ((ns.map fun n => Event.publish (published c n)).filterMap
        Event.report?).filterMap Report.published? = ns.map (published c) := by
      induction ns with
      | nil => rfl
      | cons n rest ih => exact congrArg (published c n :: ·) ih
    rw [if_pos rfl, if_pos rfl, ← each, List.filterMap_cons, List.filterMap_append, none, List.append_nil]
    rfl

variable {c}

/-- The latest publish is the state whose number is that of the publishes before it. -/
theorem latest_published {turns : Nat} {past : List Call}
    (driven : Drives ((log c turns).filterMap Event.report?) past) {s : VehicleState} {called : ℤ}
    (latest : latestPublish past = some (s, called)) :
    c.link = true ∧ ∃ n, (past.filterMap Call.published?).length = n + 1 ∧ n < publishes c turns ∧
      s = published c n := by
  -- The calls carry the states of the log in order, so counting them is enough.
  obtain ⟨n, count, found⟩ := driven.latest latest
  rw [log_states, List.getElem?_map] at found
  obtain ⟨k, place, rfl⟩ := Option.map_eq_some_iff.mp found
  obtain ⟨within, same⟩ := List.getElem?_eq_some_iff.mp place
  rw [List.length_range] at within
  rw [List.getElem_range] at same
  subst same
  cases link : c.link with
  | false =>
    rw [link] at within
    cases within
  | true =>
    rw [link, if_pos rfl] at within
    exact ⟨rfl, n, count, within, rfl⟩

/--
Whatever is on the bus of a scripted drive, the number of publishes so far explains.

In any interleaving of the script's loop with the ticks of the proxy, a signal is available exactly
while the script provides it, the link is up, and the latest publish is recent. What is shown then is
the state of the script one tick further for every publish before: a gauge is within half a step of
its grid of the value in that state, a code is that value, and the speed is that of the place in the
cycle. Of odometer and consumption nothing is said, since both add up over the whole drive and can
leave the range of their gauges.
-/
theorem script_shown (turns : Nat) (m : Machine) (publisher : Publisher) {past : List Call} {now : ℤ}
    {frame : Sent} (driven : Drives ((log c turns).filterMap Event.report?) past)
    (sent : frame ∈ Proxy.sentBy m publisher past now) (sig : Signal) (own : sig.frame = frame.id) :
    ((receive fun _ => frame.data).available sig = true ↔
      Bits.mem c.capable sig.index = true ∧ Live publisher.timeout past now) ∧
    ((receive fun _ => frame.data).available sig = true →
      ∃ n p, (past.filterMap Call.published?).length = n + 1 ∧ n < publishes c turns ∧
        Cycle.At dur ((n + 1) * c.tickMs) p ∧
        (sig = .speed → (receive fun _ => frame.data).reading sig = sig.onGrid (speedAt p)) ∧
        (sig.scale? = none → (receive fun _ => frame.data).reading sig = (published c n).quantity sig) ∧
        ∀ scale, sig.scale? = some scale → sig ≠ .odometer → sig ≠ .consumption →
          ∃ q shown, (published c n).quantity sig = .finite q ∧
            (receive fun _ => frame.data).reading sig = .finite shown ∧ |shown - q| ≤ scale.lsb / 2) := by
  constructor
  · rw [available_iff sent own, and_comm]
    refine and_congr_left fun live => ?_
    -- The state is one of the script, and those are complete.
    obtain ⟨-, s, called, latest, -⟩ := live
    obtain ⟨-, n, -, -, rfl⟩ := latest_published driven latest
    obtain ⟨capable, valid, enumerated, -⟩ := published_complete c n sig
    have state : latestState past = published c n := by
      rw [latestState, latest]
      rfl
    rw [state, capable, valid, enumerated]
    exact ⟨And.left, fun provided => ⟨provided, provided, rfl⟩⟩
  · intro available
    obtain ⟨s, called, shown, _, _, _, _, data⟩ := shown_of_available sent own available
    obtain ⟨-, n, count, within, rfl⟩ := latest_published driven shown.published
    obtain ⟨-, -, -, defined⟩ := published_complete c n sig
    refine ⟨n, (after c (n + 1)).place, count, within, place_published c n, ?_,
      shown.ungraded own data defined, ?_⟩
    · intro speed
      subst speed
      obtain ⟨q, value, low, high⟩ := @within_range c n .speed _ rfl ⟨by decide, by decide⟩
      obtain ⟨accel, state⟩ := published_eq c n
      have same : (published c n).quantity .speed = .finite (speedAt (after c (n + 1)).place) := by
        rw [state]
        rfl
      obtain rfl := Double.finite.inj (value.symm.trans same)
      exact shown.onGrid own data defined value (@scale_small .speed _ rfl _ low high)
    · intro scale graded notTotal notMean
      obtain ⟨q, value, low, high⟩ := within_range c n graded ⟨notTotal, notMean⟩
      obtain ⟨near, grid, close⟩ := Signal.onGrid_near graded low high
      refine ⟨q, near, value, ?_, close⟩
      rw [shown.onGrid own data defined value (scale_small graded low high), grid]

end Log

/-- After two publishes of fifty milliseconds each the car has a tenth of a second behind it. -/
theorem script_shown_twice :
    let frame : Sent := ⟨50000000, .motion, #v[0xC8, 0x00, 0x96, 0x00, 0x03, 0x03, 0x00, 0x00]⟩
    ∃ p, Cycle.At dur 100 p ∧
      (receive fun _ => frame.data).reading .speed = Signal.speed.onGrid (speedAt p) := by
  intro frame
  let c : Config := ⟨cpDrivetrainBev, true, true, -1, 50, by decide, by decide⟩
  let past : List Call :=
    [.tick 0, .setLink true 0, .publish (published c 0) 0, .publish (published c 1) 10]
  have driven : Drives ((log c 2).filterMap Event.report?) past := by
    unfold Drives
    decide +kernel
  have sent : frame ∈ Proxy.sentBy Machine.indefinite (Publisher.new 1000000000 1 0) past 50000000 := by
    decide +kernel
  obtain ⟨n, p, count, -, place, shown, -⟩ :=
    (script_shown 2 Machine.indefinite (Publisher.new 1000000000 1 0) driven sent .speed rfl).2
      (by decide +kernel)
  obtain rfl : 1 = n := Nat.succ.inj count
  exact ⟨p, place, shown rfl⟩

end CanProxy.Script
