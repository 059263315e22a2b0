import CanProxy.Core.Consumer
import CanProxy.Forza.Plugin

/-! Which packets make the plugin publish a value that is not a number. -/

namespace CanProxy.Forza

open Numeric

variable {length : Length}

/-- A frame that passes a check is the frame that was checked. -/
theorem eq_of_checked {valid : Frame → Bool} {f g : Frame}
    (passed : (if valid g then some g else none) = some f) : f = g ∧ valid f = true := by
  split at passed
  next sound =>
    obtain rfl := Option.some.inj passed
    exact ⟨rfl, sound⟩
  next => cases passed

/-- A packet without a dash block is accepted for its engine speed and its velocity. -/
theorem parse_sled {d : List UInt8} {f : Frame} (accepted : parse length d = some f)
    (noDash : dashOffset d.length = none) : f = parseSled length d ∧ f.sledValid = true := by
  -- Of the sizes without a dash block only one passes the first test.
  unfold parse at accepted
  split at accepted
  · cases accepted
  rw [noDash] at accepted
  exact eq_of_checked accepted

/-- A packet with a dash block is accepted for the fields that are checked in it. -/
theorem parse_dash {d : List UInt8} {f : Frame} {base : Nat} (accepted : parse length d = some f)
    (dash : dashOffset d.length = some base) :
    f = parseDash d base (parseSled length d) ∧ f.dashValid = true := by
  unfold parse at accepted
  split at accepted
  · cases accepted
  rw [dash] at accepted
  exact eq_of_checked accepted

/-- A published state marks the sled signals current, and the dash signals where there is a dash. -/
theorem mem_capableOf (f : Frame) (sig : Signal) :
    Bits.mem (capableOf f) sig.index =
      ([.speed, .rpm, .gear, .powerState].contains sig ||
        f.hasDash && [.motorPower, .fuelLevel, .odometer].contains sig) := by
  -- The mask is one of two numbers, and each of its bits is compared with the lists.
  unfold capableOf
  cases f.hasDash <;> cases sig <;> decide

@[simp] theorem publish_valid (drivetrain : ℤ) (f : Frame) :
    (publish drivetrain f).valid = capableOf f := by
  cases dash : f.hasDash <;> simp [publish, dash]

/-- The telemetry field behind each signal that carries one. -/
def fieldOf (f : Frame) : Signal → Double
  -- Gear and power state are small integers, and so is every field that is left at zero.
  | .speed => f.speedMps
  | .rpm => f.engineRpm
  | .motorPower => f.powerW
  | .fuelLevel => f.fuel
  | .odometer => f.distanceM
  | _ => .finite 0

/-- A current signal is a number exactly when the telemetry field behind it is. -/
theorem isFinite_quantity (drivetrain : ℤ) {f : Frame} {sig : Signal}
    (current : Bits.mem (publish drivetrain f).valid sig.index = true) :
    ((publish drivetrain f).quantity sig).isFinite = (fieldOf f sig).isFinite := by
  -- Scaling by a nonzero constant neither makes nor cures a value that is not a number.
  have thousand (v : Double) : (v / .finite 1000).isFinite = v.isFinite :=
    Double.isFinite_div_finite v (by norm_num)
  rw [publish_valid, mem_capableOf] at current
  unfold publish
  cases dash : f.hasDash with
  | false => cases sig <;> simp [dash, VehicleState.quantity, fieldOf, VehicleState.zero] at current ⊢
  | true => cases sig <;> simp [VehicleState.quantity, fieldOf, VehicleState.zero, thousand]

/--
Every value published as current for an accepted packet is a number, exactly when the packet has no dash
block or the distance in its dash block is a number.
-/
theorem publishes_numbers_iff (drivetrain : ℤ) (d : List UInt8) (f : Frame)
    (accepted : parse length d = some f) :
    (∀ sig, Bits.mem (publish drivetrain f).valid sig.index = true →
        ((publish drivetrain f).quantity sig).isFinite = true) ↔
      ∀ base, dashOffset d.length = some base → (f32 d (base + 48)).isFinite = true := by
  constructor
  · -- The odometer is current whenever there is a dash block, and it carries the distance.
    intro numbers base dash
    obtain ⟨rfl, _⟩ := parse_dash accepted dash
    have current : Bits.mem (publish drivetrain (parseDash d base (parseSled length d))).valid
        Signal.odometer.index = true := by
      rw [publish_valid, mem_capableOf]
      rfl
    have number := numbers .odometer current
    rwa [isFinite_quantity drivetrain current] at number
  · -- Every other field that is published was checked when the packet was accepted.
    intro distance sig current
    rw [isFinite_quantity drivetrain current]
    cases dash : dashOffset d.length with
    | none =>
      obtain ⟨rfl, valid⟩ := parse_sled accepted dash
      rw [publish_valid, mem_capableOf] at current
      simp only [Frame.sledValid, Bool.and_eq_true] at valid
      cases sig <;> simp_all [fieldOf, parseSled]
    | some base =>
      obtain ⟨rfl, valid⟩ := parse_dash accepted dash
      have distance := distance base dash
      simp only [Frame.dashValid, Bool.and_eq_true] at valid
      obtain ⟨⟨⟨⟨⟨engine, speed⟩, power⟩, fuel⟩, _⟩, _⟩ := valid
      cases sig <;> first | rfl | assumption

/-- A dash packet of zeros but for its distance, which is not a number. -/
def noDistance : List UInt8 :=
  List.replicate 280 0 ++ [0x00, 0x00, 0xC0, 0x7F] ++ List.replicate 27 0

/-- The packet is accepted, and its odometer is published as current although it is not a number. -/
theorem publishes_no_number :
    ¬∀ (length : Length) (drivetrain : ℤ) (d : List UInt8) (f : Frame), parse length d = some f →
      ∀ sig, Bits.mem (publish drivetrain f).valid sig.index = true →
        ((publish drivetrain f).quantity sig).isFinite = true := by
  intro numbers
  -- No length of a velocity is needed, since the dash block brings its own speed.
  have accepted : parse (fun x _ _ => x) noDistance =
      some (parseDash noDistance 232 (parseSled (fun x _ _ => x) noDistance)) := by
    decide +kernel
  have odometer := numbers _ cpDrivetrainIce _ _ accepted .odometer (by decide +kernel)
  exact absurd odometer (by decide +kernel)

/-- A dash packet of zeros has a distance that is a number, so the odometer published for it is one. -/
theorem publishes_numbers_zero :
    let s := publish cpDrivetrainIce (parseDash (List.replicate 311 0) 232
      (parseSled (fun x _ _ => x) (List.replicate 311 0)))
    Bits.mem s.valid Signal.odometer.index = true ∧ (s.quantity .odometer).isFinite = true := by
  intro s
  have accepted : parse (fun x _ _ => x) (List.replicate 311 0) =
      some (parseDash (List.replicate 311 0) 232
        (parseSled (fun x _ _ => x) (List.replicate 311 0))) := by
    decide +kernel
  have current : Bits.mem s.valid Signal.odometer.index = true := by
    decide +kernel
  refine ⟨current, (publishes_numbers_iff cpDrivetrainIce _ _ accepted).mpr ?_ .odometer current⟩
  intro base dash
  obtain rfl : 232 = base := by
    rw [List.length_replicate] at dash
    exact Option.some.inj dash
  -- The exponent field of the distance is zero, not all ones.
  rw [f32, Float32.isFinite_toDouble]
  decide +kernel

end CanProxy.Forza
