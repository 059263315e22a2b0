import CanProxy.Core.Daemon
import CanProxy.Lib.Rounding
import CanProxy.Lib.Run

/-!
The plugin without a vehicle: a scripted drive cycle for any drivetrain.

The times of the script are whole milliseconds, and its other quantities are read as exact numbers.
-/

namespace CanProxy.Script

open Numeric

/-- A phase of the script: how long it takes, what it moves between, and the lamps it switches. -/
structure Phase where
  durMs : ℤ
  spd0 : ℚ
  spd1 : ℚ
  rpm0 : ℚ
  rpm1 : ℚ
  tmp0 : ℚ
  tmp1 : ℚ
  set : UInt32
  clr : UInt32
  limit : ℤ

/-- The number of phases. -/
abbrev kPhaseCount : Nat := 12

instance : NeZero kPhaseCount := ⟨by decide⟩

/-- The phases of the script, in order. -/
def kPhases : Vector Phase kPhaseCount := #v[
  ⟨2000, 0, 40, 800, 2500, 70, 75, Lamp.turnLeft.bit ||| Lamp.seatbelt.bit, 0, 50⟩,
  ⟨2000, 40, 80, 2500, 3500, 75, 80, 0, Lamp.turnLeft.bit ||| Lamp.seatbelt.bit, 80⟩,
  ⟨3000, 80, 120, 2000, 3500, 80, 85, Lamp.engine.bit, 0, 120⟩,
  ⟨8000, 120, 120, 2500, 2500, 85, 90, Lamp.highBeam.bit, Lamp.engine.bit, 120⟩,
  ⟨3000, 120, 160, 2500, 4500, 90, 90, Lamp.tpms.bit, Lamp.highBeam.bit, 0⟩,
  ⟨6000, 160, 160, 3200, 3200, 90, 90, Lamp.abs.bit, Lamp.tpms.bit, 0⟩,
  ⟨3000, 160, 200, 3200, 5500, 90, 92, Lamp.traction.bit, Lamp.abs.bit, 0⟩,
  ⟨4000, 200, 200, 4000, 4000, 92, 92, Lamp.oil.bit ||| Lamp.battery.bit, Lamp.traction.bit, 0⟩,
  ⟨4000, 200, 80, 4000, 1800, 92, 88, Lamp.brake.bit, Lamp.oil.bit ||| Lamp.battery.bit, 100⟩,
  ⟨3000, 80, 40, 1800, 1200, 88, 86, Lamp.turnRight.bit ||| Lamp.door.bit, 0, 50⟩,
  ⟨3000, 40, 0, 1200, 800, 86, 85, 0, Lamp.turnRight.bit ||| Lamp.door.bit, 50⟩,
  ⟨3000, 0, 0, 800, 800, 85, 80, 0, Lamp.brake.bit, 50⟩]

/-- The arguments the plugin is created with; it is not created with others. -/
structure Config where
  drivetrain : ℤ
  assist : Bool
  link : Bool
  stallAfterMs : ℤ
  tickMs : ℤ
  known : drivetrain ∈ [cpDrivetrainIce, cpDrivetrainBev, cpDrivetrainHev, cpDrivetrainPhev]
  ticks : 5 ≤ tickMs ∧ tickMs ≤ 1000

namespace Config

variable (c : Config)

def electric : Bool := c.drivetrain != cpDrivetrainIce

def combustion : Bool :=
  c.drivetrain = cpDrivetrainIce || c.drivetrain = cpDrivetrainHev || c.drivetrain = cpDrivetrainPhev

/-- The signals the script provides for a drivetrain. -/
def capable : UInt32 :=
  let mask := Signal.speed.bit ||| Signal.rpm.bit ||| Signal.gear.bit ||| Signal.powerState.bit |||
    Signal.odometer.bit ||| Signal.ambientTemp.bit ||| Signal.cabinTemp.bit |||
    Signal.coolantTemp.bit ||| Signal.auxBattery.bit
  let mask := if c.combustion then mask ||| Signal.fuelLevel.bit else mask
  let mask :=
    if c.electric then
      mask ||| (Signal.motorPower.bit ||| Signal.packVoltage.bit ||| Signal.packCurrent.bit |||
        Signal.soc.bit ||| Signal.soh.bit ||| Signal.range.bit ||| Signal.consumption.bit |||
        Signal.chargingState.bit)
    else mask
  if c.assist then
    mask ||| (Signal.ecoScore.bit ||| Signal.speedLimit.bit ||| Signal.collisionRisk.bit |||
      Signal.laneState.bit ||| Signal.leadGap.bit)
  else mask

end Config

/-- The evolving quantities. -/
structure Sim where
  phase : Fin kPhaseCount
  phaseElapsedMs : ℤ
  lampBits : UInt32
  soc : ℚ
  fuel : ℚ
  odo : ℚ
  powerFiltered : ℚ
  tripWh : ℚ
  tripKm : ℚ
  lastSpeed : ℚ
  elapsedMs : ℤ

namespace Sim

/-- The quantities before the first step; the trip is seeded with a plausible consumption. -/
def new : Sim where
  phase := 0
  phaseElapsedMs := 0
  lampBits := 0
  soc := 80
  fuel := 75
  odo := 10568
  powerFiltered := 0
  tripWh := 150
  tripKm := 1
  lastSpeed := 0
  elapsedMs := 0

/-- Time passes, and a phase that is over is followed by the next. -/
def pass (dtMs : ℤ) (sim : Sim) : Sim :=
  let p := kPhases.get sim.phase
  let sim :=
    { sim with phaseElapsedMs := sim.phaseElapsedMs + dtMs, elapsedMs := sim.elapsedMs + dtMs }
  if sim.phaseElapsedMs ≥ p.durMs then
    { sim with phaseElapsedMs := sim.phaseElapsedMs - p.durMs, phase := sim.phase + 1 }
  else sim

/-- A phase that was entered in this step switches its lamps. -/
def light (dtMs : ℤ) (sim : Sim) : Sim :=
  let q := kPhases.get sim.phase
  if (sim.phaseElapsedMs : ℚ) < dtMs + 1 / 1000000000 then
    { sim with lampBits := (sim.lampBits ||| q.set) &&& ~~~q.clr }
  else sim

/-- How far the phase has come. -/
def t (sim : Sim) : ℚ := sim.phaseElapsedMs / (kPhases.get sim.phase).durMs

/-- The speed that the script has now. -/
def speed (sim : Sim) : ℚ :=
  (kPhases.get sim.phase).spd0 + ((kPhases.get sim.phase).spd1 - (kPhases.get sim.phase).spd0) * sim.t

end Sim

/-- The tractive power for a speed and an acceleration: mass, drag, and rolling resistance. -/
def tractivePower (speed accel : ℚ) : ℚ :=
  let v := speed / (18 / 5)
  let force := 1500 * accel + 1 / 2 * (6 / 5) * (29 / 100) * (23 / 10) * v * v +
    12 / 1000 * 1500 * (981 / 100) * (if v > 1 / 10 then 1 else 0)
  let power := force * v / 1000
  -- What comes back when braking is less than what is lost, and both are limited.
  let power := if power < 0 then power * (6 / 10) else power
  let power := if power < -60 then -60 else power
  let power := if power > 120 then 120 else power
  if speed < 1 / 2 then 3 / 10 else power

namespace Sim

/-- The acceleration since the last step, in metres per second squared. -/
def accel (dtMs : ℤ) (sim : Sim) : ℚ := (sim.speed - sim.lastSpeed) / (18 / 5) / (dtMs / 1000)

/-- The quantities after the lamps: power, distance, charge, and fuel. -/
def consume (c : Config) (dtMs : ℤ) (sim : Sim) : Sim :=
  let speed := sim.speed
  let dtH : ℚ := dtMs / 3600000
  let power := tractivePower speed (sim.accel dtMs)
  let sim := { sim with lastSpeed := speed }
  let sim := { sim with powerFiltered := sim.powerFiltered + (power - sim.powerFiltered) * (15 / 100) }
  let sim := { sim with odo := sim.odo + speed * dtH }
  let sim : Sim :=
    if c.electric then
      let soc := sim.soc - sim.powerFiltered * dtH / 64 * 100
      { sim with
        -- An empty pack is exchanged.
        soc := if soc < 5 then 80 else soc
        tripWh := sim.tripWh + sim.powerFiltered * 1000 * dtH
        tripKm := sim.tripKm + speed * dtH }
    else sim
  if c.combustion then
    let burning : ℚ := 1 / 2 + (if sim.powerFiltered > 0 then sim.powerFiltered else 0) * (5 / 100)
    let fuel := sim.fuel - burning * dtMs / 60000
    { sim with fuel := if fuel < 3 then 75 else fuel }
  else sim

/-- The lamps that are published: those of the script, and those of the quantities. -/
def lamps (c : Config) (sim : Sim) : UInt32 :=
  let lamps := sim.lampBits
  let lamps := if c.drivetrain = cpDrivetrainBev then lamps ||| Lamp.evReady.bit else lamps
  let lamps := if c.combustion && sim.fuel < 12 then lamps ||| Lamp.lowFuel.bit else lamps
  let lamps := if c.electric && sim.soc < 15 then lamps ||| Lamp.lowTractionBattery.bit else lamps
  if sim.speed < 1 / 2 && sim.phase = (11 : Fin kPhaseCount) then lamps ||| Lamp.parkBrake.bit else lamps

/-- The state that is published for the quantities, with the acceleration that led to them. -/
def state (c : Config) (accel : ℚ) (sim : Sim) : VehicleState :=
  let q := kPhases.get sim.phase
  let speed := sim.speed
  let consumption := sim.tripWh / sim.tripKm
  let packVoltage := 340 + sim.soc * (6 / 10)
  let absP := |sim.powerFiltered|
  { VehicleState.zero with
    -- The script always knows everything.
    capable := c.capable
    valid := c.capable
    drivetrain := c.drivetrain
    source := cpSourceSimulated
    vehicleId := vehicleId "sim".toUTF8.data.toList none
    speedKmh := .finite speed
    rpm :=
      .finite (if c.electric && c.drivetrain = cpDrivetrainBev then speed * 75
        else q.rpm0 + (q.rpm1 - q.rpm0) * sim.t)
    gear := if speed > 1 / 2 then cpGearD else cpGearP
    powerState := cpPowerReady
    motorPowerKw := .finite sim.powerFiltered
    packVoltageV := .finite packVoltage
    packCurrentA := .finite (sim.powerFiltered * 1000 / packVoltage)
    socPct := .finite sim.soc
    sohPct := .finite 97
    consumptionWhKm := .finite consumption
    rangeKm := .finite (sim.soc / 100 * 64000 / (if consumption > 80 then consumption else 80))
    chargingState := cpChargingNone
    odometerKm := .finite sim.odo
    ambientC := .finite 23
    cabinC := .finite (43 / 2)
    coolantC :=
      .finite (if c.electric && !c.combustion then 35 + speed * (5 / 100)
        else q.tmp0 + (q.tmp1 - q.tmp0) * sim.t)
    fuelPct := .finite sim.fuel
    auxBatteryV := .finite (126 / 10 + (if speed > 1 / 2 then 16 / 10 else 0))
    lamps := sim.lamps c
    ecoScore := truncate (100 - (if absP > 100 then 100 else absP))
    speedLimitKmh := q.limit
    collisionRisk :=
      if accel < -3 then cpRiskHigh
      else if accel < -(3 / 2) then cpRiskMedium
      else if accel < -(1 / 2) then cpRiskLow
      else cpRiskNone
    laneState := if speed > 30 then cpLaneLeftSeen ||| cpLaneRightSeen else 0
    leadGapM := .finite (25 + speed * (6 / 10)) }

/-- One step of the script, with the state it publishes. -/
def step (c : Config) (dtMs : ℤ) (sim : Sim) : Sim × VehicleState :=
  let sim := (sim.pass dtMs).light dtMs
  let accel := sim.accel dtMs
  let sim := sim.consume c dtMs
  (sim, sim.state c accel)

end Sim

/-- What the plugin tells its host and its log. -/
inductive Event where
  | setLink (present : Bool)
  | noVehicle
  | stalled
  | publish (s : VehicleState)
deriving DecidableEq

/-- The quantities, and whether it was logged that there are no more publishes. -/
structure Loop where
  sim : Sim
  stalled : Bool

/-- The loop before its first turn. -/
def Loop.new : Loop := ⟨.new, false⟩

/-- One turn of the loop, which is taken every tick. -/
def Loop.turn (c : Config) (l : Loop) (_tick : Unit) : Loop × List Event :=
  let (sim, s) := l.sim.step c c.tickMs
  if c.stallAfterMs ≥ 0 ∧ sim.elapsedMs ≥ c.stallAfterMs then
    (⟨sim, true⟩, if l.stalled then [] else [.stalled])
  else (⟨sim, l.stalled⟩, [.publish s])

/-- What an event reports to the host. -/
def Event.report? : Event → Option Report
  | .setLink present => some (.setLink present)
  | .publish s => some (.publish s)
  | _ => none

/-- Everything the plugin tells in a number of turns. -/
def log (c : Config) (turns : Nat) : List Event :=
  .setLink c.link ::
    -- Without a link the plugin only waits to be stopped.
    if c.link then Run.outputs (Loop.turn c) .new (List.replicate turns ()) else [.noVehicle]

end CanProxy.Script
