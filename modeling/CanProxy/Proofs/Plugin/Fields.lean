import CanProxy.Core.Consumer

/-! The fields that a plugin fills from the standard parameters. -/

namespace CanProxy

open Numeric

/-- No signal is read from the masks. -/
theorem quantity_masks (s : VehicleState) (valid capable : UInt32) (sig : Signal) :
    VehicleState.quantity { s with valid := valid, capable := capable } sig = s.quantity sig := by
  -- Each signal has a field of its own.
  cases sig <;> rfl

/-- A field is written with a value of its own signal and nothing else. -/
structure Writes (field : VehicleState → Double → VehicleState) (own : Signal) : Prop where
  valid : ∀ s v, (field s v).valid = s.valid
  capable : ∀ s v, (field s v).capable = s.capable
  quantity : ∀ s v sig, (field s v).quantity sig = if own = sig then v else s.quantity sig

/-- Every other signal keeps its value. -/
theorem Writes.other {field : VehicleState → Double → VehicleState} {own sig : Signal}
    (writes : Writes field own) (different : own ≠ sig) (s : VehicleState) (v : Double) :
    (field s v).quantity sig = s.quantity sig := by
  rw [writes.quantity, if_neg different]

/-! Every parameter writes the field of its own signal. -/

theorem writes_speed : Writes (fun s v => { s with speedKmh := v }) .speed :=
  ⟨fun _ _ => rfl, fun _ _ => rfl, fun _ _ sig => by cases sig <;> rfl⟩

theorem writes_rpm : Writes (fun s v => { s with rpm := v }) .rpm :=
  ⟨fun _ _ => rfl, fun _ _ => rfl, fun _ _ sig => by cases sig <;> rfl⟩

theorem writes_coolant : Writes (fun s v => { s with coolantC := v }) .coolantTemp :=
  ⟨fun _ _ => rfl, fun _ _ => rfl, fun _ _ sig => by cases sig <;> rfl⟩

theorem writes_fuel : Writes (fun s v => { s with fuelPct := v }) .fuelLevel :=
  ⟨fun _ _ => rfl, fun _ _ => rfl, fun _ _ sig => by cases sig <;> rfl⟩

theorem writes_voltage : Writes (fun s v => { s with auxBatteryV := v }) .auxBattery :=
  ⟨fun _ _ => rfl, fun _ _ => rfl, fun _ _ sig => by cases sig <;> rfl⟩

theorem writes_ambient : Writes (fun s v => { s with ambientC := v }) .ambientTemp :=
  ⟨fun _ _ => rfl, fun _ _ => rfl, fun _ _ sig => by cases sig <;> rfl⟩

theorem writes_odometer : Writes (fun s v => { s with odometerKm := v }) .odometer :=
  ⟨fun _ _ => rfl, fun _ _ => rfl, fun _ _ sig => by cases sig <;> rfl⟩

end CanProxy
