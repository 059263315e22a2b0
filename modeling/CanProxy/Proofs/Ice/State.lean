import CanProxy.Ice.History
import CanProxy.Proofs.Core.Availability
import CanProxy.Proofs.Plugin.Fields

/-! Which signals a published state advertises and marks valid, and what values it gives them. -/

namespace CanProxy.Ice

open Numeric

/-- The parameters that are asked for, each with its signal. -/
def polled : List (UInt8 × Signal) :=
  [(pidSpeed, .speed), (pidRpm, .rpm), (pidCoolantTemp, .coolantTemp), (pidFuelLevel, .fuelLevel),
    (pidModuleVoltage, .auxBattery), (pidAmbientTemp, .ambientTemp), (pidOdometer, .odometer)]

theorem mem_polled {pid : UInt8} {sig : Signal} : (pid, sig) ∈ polled ↔ pidOf sig = some pid := by
  -- A finite table over every signal; the parameter is the one the signal is read from.
  cases sig <;> simp [polled, pidOf, eq_comm]

/-- The value published for a parameter, if there is one. -/
def Plugin.reading (p : Plugin) (now : ℤ) (pid : UInt8) : Option Double :=
  if pid ∈ p.supported ∧ p.poller.fresh pid now = true then p.values pid else none

/-- A scale of one changes no value. -/
theorem scale_one (v : Double) : v * .finite 1 = v := by
  -- Infinities keep their sign, and what is not a number stays so.
  cases v with
  | finite x => exact congrArg Double.finite (mul_one x)
  | infinite s => cases s <;> rfl
  | nan => rfl

section Cap

variable (p : Plugin) (now : ℤ) (pid : UInt8) {own : Signal}
  {field : VehicleState → Double → VehicleState} (writes : Writes field own) (s : VehicleState)

include writes

/-- Filling in a parameter advertises it when it is supported. -/
theorem cap_capable (i : Nat) :
    Bits.mem (p.cap now pid own field s).capable i =
      (Bits.mem s.capable i || decide (pid ∈ p.supported ∧ own.index = i)) := by
  have small := own.index_lt
  have bit : Bits.mem own.bit i = decide (own.index = i) := Bits.mem_single (by omega) i
  -- The value only decides about the valid bit.
  unfold Plugin.cap
  split
  next supported =>
    have joined : Bits.mem (s.capable ||| own.bit) i =
        (Bits.mem s.capable i || decide (pid ∈ p.supported ∧ own.index = i)) := by
      rw [Bits.mem_or, bit]
      simp [supported]
    split
    · split
      · rw [writes.capable]
        exact joined
      · exact joined
    · exact joined
  next unsupported => simp [unsupported]

/-- Filling in a parameter marks it valid when it has a value to publish. -/
theorem cap_valid (i : Nat) :
    Bits.mem (p.cap now pid own field s).valid i =
      (Bits.mem s.valid i || decide ((p.reading now pid).isSome = true ∧ own.index = i)) := by
  have small := own.index_lt
  have bit : Bits.mem own.bit i = decide (own.index = i) := Bits.mem_single (by omega) i
  -- Support, a value, and freshness are all needed.
  unfold Plugin.cap Plugin.reading
  by_cases supported : pid ∈ p.supported
  · cases value : p.values pid with
    | none => simp [supported]
    | some v =>
      by_cases fresh : p.poller.fresh pid now = true
      · simp [supported, fresh, writes.valid, bit]
      · simp [supported, fresh]
  · simp [supported]

/-- Filling in a parameter gives its own signal the value published, and changes no other. -/
theorem cap_quantity (sig : Signal) :
    (p.cap now pid own field s).quantity sig =
      if own = sig then (p.reading now pid).getD (s.quantity sig) else s.quantity sig := by
  unfold Plugin.cap Plugin.reading
  by_cases supported : pid ∈ p.supported
  · cases value : p.values pid with
    | none => simp [supported, quantity_masks s s.valid]
    | some v =>
      by_cases fresh : p.poller.fresh pid now = true
      · simp [supported, fresh, writes.quantity, quantity_masks, scale_one]
      · simp [supported, fresh, quantity_masks s s.valid]
  · simp [supported]

end Cap

section FillPids

variable (p : Plugin) (now : ℤ) (s : VehicleState)

/-- The parameters advertise what is supported. -/
theorem fillPids_capable (i : Nat) :
    Bits.mem (p.fillPids now s).capable i =
      (Bits.mem s.capable i ||
        polled.any fun (pid, sig) => decide (pid ∈ p.supported ∧ sig.index = i)) := by
  -- Each parameter adds its own bit to those before it.
  unfold Plugin.fillPids
  rw [cap_capable p now pidOdometer writes_odometer, cap_capable p now pidAmbientTemp writes_ambient,
    cap_capable p now pidModuleVoltage writes_voltage, cap_capable p now pidFuelLevel writes_fuel,
    cap_capable p now pidCoolantTemp writes_coolant, cap_capable p now pidRpm writes_rpm,
    cap_capable p now pidSpeed writes_speed]
  simp only [polled, List.any_cons, List.any_nil, Bool.or_assoc, Bool.or_false]

/-- The parameters mark valid what there is a value for. -/
theorem fillPids_valid (i : Nat) :
    Bits.mem (p.fillPids now s).valid i =
      (Bits.mem s.valid i ||
        polled.any fun (pid, sig) => decide ((p.reading now pid).isSome = true ∧ sig.index = i)) := by
  unfold Plugin.fillPids
  rw [cap_valid p now pidOdometer writes_odometer, cap_valid p now pidAmbientTemp writes_ambient,
    cap_valid p now pidModuleVoltage writes_voltage, cap_valid p now pidFuelLevel writes_fuel,
    cap_valid p now pidCoolantTemp writes_coolant, cap_valid p now pidRpm writes_rpm,
    cap_valid p now pidSpeed writes_speed]
  simp only [polled, List.any_cons, List.any_nil, Bool.or_assoc, Bool.or_false]

/-- A parameter's signal has the value there is for it, and every other signal keeps its own. -/
theorem fillPids_quantity (sig : Signal) :
    (p.fillPids now s).quantity sig =
      ((pidOf sig).bind (p.reading now)).getD (s.quantity sig) := by
  unfold Plugin.fillPids
  rw [cap_quantity p now pidOdometer writes_odometer, cap_quantity p now pidAmbientTemp writes_ambient,
    cap_quantity p now pidModuleVoltage writes_voltage, cap_quantity p now pidFuelLevel writes_fuel,
    cap_quantity p now pidCoolantTemp writes_coolant, cap_quantity p now pidRpm writes_rpm,
    cap_quantity p now pidSpeed writes_speed]
  -- Only one of the seven is the signal's own.
  cases sig <;> simp [pidOf]

/-- A parameter's signal is marked exactly when there is a value for it. -/
theorem fillPids_marked {sig : Signal} {pid : UInt8} (read : pidOf sig = some pid)
    (unmarked : s.valid = 0) :
    Bits.mem (p.fillPids now s).valid sig.index = (p.reading now pid).isSome := by
  -- Positions tell signals apart, and each signal has one parameter.
  rw [fillPids_valid, unmarked, Bits.mem_zero, Bool.false_or, Bool.eq_iff_iff, List.any_eq_true]
  simp only [decide_eq_true_eq, Signal.index_inj, Prod.exists]
  constructor
  · rintro ⟨pid', sig', listed, some, rfl⟩
    rw [mem_polled, read] at listed
    cases listed
    exact some
  · intro some
    exact ⟨pid, sig, mem_polled.mpr read, some, rfl⟩

end FillPids

/-- The state before anything is filled in. -/
def bare (c : Config) : VehicleState :=
  { VehicleState.zero with
    drivetrain := cpDrivetrainIce
    source := c.source
    vehicleId := vehicleId "obd2-ice".toUTF8.data.toList none }

section State

variable (c : Config) (p : Plugin) (now : ℤ)

/-- The lamps are added last, and are no part of any mask or value. -/
theorem state_lamps :
    ∃ lamps, p.state c now = { p.fillPower (p.fillPids now (bare c)) with lamps := lamps } := by
  -- Without recent lamps the field stays as it is.
  unfold Plugin.state
  dsimp only
  split
  · exact ⟨p.lamps, rfl⟩
  · exact ⟨_, rfl⟩

/-- There is a value to publish for supported parameters only. -/
theorem supported_of_reading {p : Plugin} {now : ℤ} {pid : UInt8}
    (some : (p.reading now pid).isSome = true) : pid ∈ p.supported := by
  unfold Plugin.reading at some
  split at some
  next both => exact both.1
  · cases some

/-- The power state is advertised with the engine speed, marked with it, and read off it. -/
theorem fillPower_eq {p : Plugin} {now : ℤ} {s : VehicleState}
    (marked : Bits.mem s.valid Signal.rpm.index = (p.reading now pidRpm).isSome) :
    p.fillPower s =
      { s with
        capable := s.capable ||| if pidRpm ∈ p.supported then Signal.powerState.bit else 0
        valid := s.valid ||| if (p.reading now pidRpm).isSome then Signal.powerState.bit else 0
        powerState :=
          if (p.reading now pidRpm).isSome then
            if (Double.finite 0).lt s.rpm then cpPowerReady else cpPowerOn
          else s.powerState } := by
  unfold Plugin.fillPower
  dsimp only
  rw [and_sigBit, marked]
  -- An engine speed there is a value for is a supported one.
  by_cases supported : pidRpm ∈ p.supported
  · cases (p.reading now pidRpm).isSome <;> simp [supported]
  · have none : ¬(p.reading now pidRpm).isSome = true := fun some => supported (supported_of_reading some)
    simp [supported, none]

/-- A parameter's own signal has it behind it. -/
theorem behind_of_pidOf {sig : Signal} {pid : UInt8} (read : pidOf sig = some pid) :
    behind sig = some pid := by
  -- The power state has no parameter of its own.
  cases sig <;> first | exact read | cases read

/-- The positions of the parameters that have something, together with that of the power state. -/
theorem behind_iff (has : UInt8 → Prop) [DecidablePred has] (i : Nat) :
    ((polled.any fun (pid, sig) => decide (has pid ∧ sig.index = i)) ||
        Bits.mem (if has pidRpm then Signal.powerState.bit else 0) i) = true ↔
      ∃ sig pid, sig.index = i ∧ behind sig = some pid ∧ has pid := by
  have power : Bits.mem (if has pidRpm then Signal.powerState.bit else 0) i = true ↔
      has pidRpm ∧ Signal.powerState.index = i := by
    have single : Bits.mem Signal.powerState.bit i = decide (Signal.powerState.index = i) :=
      Bits.mem_single (by decide) i
    split
    next present => simp [present, single]
    next absent => simp [absent]
  rw [Bool.or_eq_true, power, List.any_eq_true]
  simp only [Prod.exists, decide_eq_true_eq, mem_polled]
  constructor
  · rintro (⟨pid, sig, read, present, place⟩ | ⟨present, place⟩)
    · exact ⟨sig, pid, place, behind_of_pidOf read, present⟩
    · exact ⟨.powerState, pidRpm, place, rfl, present⟩
  · rintro ⟨sig, pid, place, read, present⟩
    by_cases power : sig = .powerState
    · subst power
      cases read
      exact .inr ⟨present, place⟩
    · refine .inl ⟨pid, sig, ?_, present, place⟩
      cases sig <;> first | exact read | exact absurd rfl power

/-- A published state advertises the signals whose parameters are supported. -/
theorem mem_state_capable (i : Nat) :
    Bits.mem (p.state c now).capable i = true ↔
      ∃ sig pid, sig.index = i ∧ behind sig = some pid ∧ pid ∈ p.supported := by
  obtain ⟨lamps, state⟩ := state_lamps c p now
  have marked := fillPids_marked p now (bare c) (show pidOf .rpm = some pidRpm from rfl) rfl
  rw [state, fillPower_eq marked, Bits.mem_or, fillPids_capable, show (bare c).capable = 0 from rfl,
    Bits.mem_zero, Bool.false_or]
  exact behind_iff (· ∈ p.supported) i

/-- A published state marks the signals whose parameters there are values for. -/
theorem mem_state_valid (i : Nat) :
    Bits.mem (p.state c now).valid i = true ↔
      ∃ sig pid, sig.index = i ∧ behind sig = some pid ∧ (p.reading now pid).isSome = true := by
  obtain ⟨lamps, state⟩ := state_lamps c p now
  have marked := fillPids_marked p now (bare c) (show pidOf .rpm = some pidRpm from rfl) rfl
  rw [state, fillPower_eq marked, Bits.mem_or, fillPids_valid, show (bare c).valid = 0 from rfl,
    Bits.mem_zero, Bool.false_or]
  exact behind_iff (fun pid => (p.reading now pid).isSome = true) i

/-- A signal is marked exactly when there is a value for the parameter behind it. -/
theorem state_marked {sig : Signal} {pid : UInt8} (read : behind sig = some pid) :
    Bits.mem (p.state c now).valid sig.index = (p.reading now pid).isSome := by
  rw [Bool.eq_iff_iff, mem_state_valid]
  constructor
  · rintro ⟨sig', pid', place, read', some⟩
    obtain rfl := Signal.index_inj.mp place
    rw [read] at read'
    cases read'
    exact some
  · intro some
    exact ⟨sig, pid, rfl, read, some⟩

/-- A parameter's signal has the value there is for it. -/
theorem state_quantity {sig : Signal} {pid : UInt8} (read : pidOf sig = some pid) :
    (p.state c now).quantity sig = (p.reading now pid).getD (.finite 0) := by
  obtain ⟨lamps, state⟩ := state_lamps c p now
  have marked := fillPids_marked p now (bare c) (show pidOf .rpm = some pidRpm from rfl) rfl
  -- Neither the lamps nor the power state are a parameter's signal.
  have kept : (p.state c now).quantity sig = (p.fillPids now (bare c)).quantity sig := by
    rw [state, fillPower_eq marked]
    cases sig <;> first | rfl | cases read
  have blank : (bare c).quantity sig = .finite 0 := by
    cases sig <;> rfl
  rw [kept, fillPids_quantity, read, Option.bind_some, blank]

/-- The power state says that the engine is ready exactly when its speed is above zero. -/
theorem state_ready :
    (p.state c now).powerState = cpPowerReady ↔ (Double.finite 0).lt (p.state c now).rpm = true := by
  obtain ⟨lamps, state⟩ := state_lamps c p now
  have marked := fillPids_marked p now (bare c) (show pidOf .rpm = some pidRpm from rfl) rfl
  have speed : (p.fillPids now (bare c)).rpm = (p.reading now pidRpm).getD (.finite 0) :=
    fillPids_quantity p now (bare c) .rpm
  -- Without a speed both fields are zero, and zero is neither ready nor above zero.
  have idle : (p.fillPids now (bare c)).powerState = 0 := by
    have kept : Double.ofInt (p.fillPids now (bare c)).powerState = .ofInt 0 :=
      fillPids_quantity p now (bare c) .powerState
    simpa [Double.ofInt] using kept
  rw [state, fillPower_eq marked]
  dsimp only
  rw [idle, speed]
  cases p.reading now pidRpm with
  | none => simp
  | some v => cases (Double.finite 0).lt v <;> simp

end State

end CanProxy.Ice
