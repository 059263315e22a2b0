import CanProxy.Proofs.Core.Availability

/-! A consumer reads the grid point nearest to the published value, clamped to the signal's range. -/

namespace CanProxy

open Numeric

section Quantities

variable (m : Machine)

/-- Rounding to sixteen bits by adding one half and truncating saturates the nearest integer. -/
theorem wholeU16_toNat (v : ℚ) :
    ((wholeU16 m (.finite v)).toNat : ℤ) = saturate 0 0xFFFE (roundHalfAway v) := by
  unfold wholeU16
  -- The three branches of the code are the three cases of saturation.
  by_cases negative : v < 0
  · -- Below zero the nearest integer is at most zero.
    have low := roundHalfAway_mono negative.le
    rw [← Int.cast_zero, roundHalfAway_intCast] at low
    simp [negative, saturate]
    omega
  · have nonneg : 0 ≤ v := not_lt.mp negative
    by_cases large : 65534 < v
    · -- Past the largest count the nearest integer is at least that count.
      have high := roundHalfAway_mono large.le
      rw [show (65534 : ℚ) = ((65534 : ℤ) : ℚ) by norm_num, roundHalfAway_intCast] at high
      simp [negative, large, saturate]
      omega
    · -- In between, truncating the shifted value is the rounding itself.
      have nonnegShifted : 0 ≤ v + 1 / 2 := by linarith
      have low := roundHalfAway_nonneg nonneg
      have high := roundHalfAway_mono (not_lt.mp large)
      rw [show (65534 : ℚ) = ((65534 : ℤ) : ℚ) by norm_num, roundHalfAway_intCast] at high
      have floor : truncate (v + 1 / 2) = roundHalfAway v := by
        rw [truncate_of_nonneg nonnegShifted, roundHalfAway_of_nonneg nonneg]
      simp only [Double.finite_lt, negative, large, decide_false, Bool.false_eq_true, if_false,
        Double.finite_add]
      rw [m.toUInt16_finite (by omega) (by omega), floor, Bits.toNat_ofInt16 low (by omega),
        saturate_eq low high]

/-- Clamping as a double and rounding afterwards saturates the nearest integer. -/
theorem wholeI16_toInt (v : ℚ) :
    (wholeI16 m (.finite v)).toInt = saturate (-32767) 32767 (roundHalfAway v) := by
  -- Whichever side the double is clamped on, it is an integer of the range or untouched.
  have clamped : ∃ c : ℚ, wholeI16 m (.finite v) = (canproxyRound m (.finite c)).toInt16 ∧
      |c| ≤ 32767 ∧ roundHalfAway c = saturate (-32767) 32767 (roundHalfAway v) := by
    by_cases large : 32767 < v
    · have high := roundHalfAway_mono large.le
      rw [show (32767 : ℚ) = ((32767 : ℤ) : ℚ) by norm_num, roundHalfAway_intCast] at high
      refine ⟨((32767 : ℤ) : ℚ), ?_, by norm_num, ?_⟩
      · simp [wholeI16, large, show ¬(32767 : ℚ) < -32767 by norm_num]
      · rw [roundHalfAway_intCast, saturate]
        omega
    · by_cases low : v < -32767
      · have below := roundHalfAway_mono low.le
        rw [show (-32767 : ℚ) = ((-32767 : ℤ) : ℚ) by norm_num, roundHalfAway_intCast] at below
        refine ⟨((-32767 : ℤ) : ℚ), ?_, by norm_num, ?_⟩
        · simp [wholeI16, large, low]
        · rw [roundHalfAway_intCast, saturate]
          omega
      · have above := roundHalfAway_mono (not_lt.mp low)
        have below := roundHalfAway_mono (not_lt.mp large)
        rw [show (-32767 : ℚ) = ((-32767 : ℤ) : ℚ) by norm_num, roundHalfAway_intCast] at above
        rw [show (32767 : ℚ) = ((32767 : ℤ) : ℚ) by norm_num, roundHalfAway_intCast] at below
        refine ⟨v, ?_, abs_le.mpr ⟨not_lt.mp low, not_lt.mp large⟩, (saturate_eq above below).symm⟩
        simp [wholeI16, large, low]
  obtain ⟨c, taken, small, rounded⟩ := clamped
  -- The rounded integer fits sixteen bits, so narrowing it drops nothing.
  have range := saturate_mem (by decide : (-32767 : ℤ) ≤ 32767) (roundHalfAway v)
  have value := canproxyRound_toInt m (x := c) (by linarith)
  rw [taken, Int64.toInt_toInt16, value, rounded]
  exact Int.bmod_eq_of_le (by omega) (by omega)

/-- A whole number of degrees passes the byte encoder a second time unchanged. -/
theorem wholeDegrees_again {v : ℚ} (small : |v| < 2 ^ 62) :
    (encI8 m (.ofInt (wholeDegrees m (.finite v)).toInt) (.finite 1) true).toInt =
      saturate (-127) 127 (roundHalfAway v) := by
  -- The mapping rounds once; what it produced is a whole number of the encoder's own range.
  have first : (wholeDegrees m (.finite v)).toInt = saturate (-127) 127 (roundHalfAway v) := by
    rw [wholeDegrees, encI8_toInt, scaled_finite m (by decide) one_pos (by rw [div_one]; linarith),
      div_one]
  have range := saturate_mem (by decide : (-127 : ℤ) ≤ 127) (roundHalfAway v)
  rw [first]
  generalize saturate (-127) 127 (roundHalfAway v) = degrees at range ⊢
  have bounded : |(degrees : ℚ)| ≤ 127 := abs_le.mpr ⟨by exact_mod_cast range.1, by
    exact_mod_cast range.2⟩
  -- The second rounding therefore meets an integer, and the second clamp a value in range.
  rw [encI8_toInt, Double.ofInt, scaled_finite m (by decide) one_pos (by rw [div_one]; linarith),
    div_one, roundHalfAway_intCast, saturate_eq range.1 range.2]

/-- Cutting an integer to a byte range saturates it. -/
theorem clampByte_toNat {hi : ℤ} (low : 0 ≤ hi) (high : hi < 256) (v : ℤ) :
    ((clampByte v hi).toNat : ℤ) = saturate 0 hi v := by
  have range := saturate_mem low v
  -- The two tests of the code are the two bounds of the range, in the same order.
  have cut : (if v < 0 then 0 else if hi < v then hi else v) = saturate 0 hi v := by
    unfold saturate
    split
    · omega
    · split <;> omega
  rw [clampByte, cut]
  exact Bits.toNat_ofInt8 range.1 (by omega)

/-- A clamped eco score passes the byte encoder unchanged. -/
theorem ecoScore_again (v : ℤ) :
    ((encU8 m (.ofInt (clampByte v 100).toNat) (.finite 1) true 100).toNat : ℤ) =
      saturate 0 100 v := by
  -- The score is an integer between zero and one hundred before it is scaled by one.
  have range := saturate_mem (by decide : (0 : ℤ) ≤ 100) v
  rw [clampByte_toNat (by decide) (by decide)]
  generalize saturate 0 100 v = score at range ⊢
  have bounded : |(score : ℚ)| ≤ 100 := abs_le.mpr ⟨by
    have := range.1
    exact_mod_cast (by omega : (-100 : ℤ) ≤ score), by exact_mod_cast range.2⟩
  rw [encU8_toNat, Double.ofInt, scaled_finite m (by decide) one_pos (by rw [div_one]; linarith),
    div_one, roundHalfAway_intCast]
  exact saturate_eq range.1 range.2

/-- A packer that steps back from its reserved pattern leaves every other value alone. -/
private theorem read_substituted {α : Type*} [DecidableEq α] (read : α → ℤ) {sna near value : α}
    {n : ℤ} (valued : read value = n) (outside : read sna ≠ n) :
    read (if value = sna then near else value) = n := by
  -- The pattern reads as another number, so the value is not the pattern.
  rw [if_neg]
  · exact valued
  · intro reserved
    exact outside (reserved ▸ valued)

/-- The packer's substitution never touches a saturated count. -/
private theorem substituted_wholeU16 (v : ℚ) :
    (((if wholeU16 m (.finite v) = 0xFFFF then 0xFFFE else wholeU16 m (.finite v)).toNat : ℕ) : ℤ) =
      saturate 0 0xFFFE (roundHalfAway v) := by
  -- The mapping clamped the count already, one short of the pattern.
  have range := saturate_mem (by decide : (0 : ℤ) ≤ 0xFFFE) (roundHalfAway v)
  refine read_substituted (fun count : UInt16 => (count.toNat : ℤ)) (wholeU16_toNat m v) ?_
  change (65535 : ℤ) ≠ _
  omega

/-- The packer's substitution never touches a saturated signed count. -/
private theorem substituted_wholeI16 (v : ℚ) :
    (if wholeI16 m (.finite v) = snaI16 then -32767 else wholeI16 m (.finite v)).toInt =
      saturate (-32767) 32767 (roundHalfAway v) := by
  -- The mapping clamped the count to the symmetric range, which leaves the pattern out.
  have range := saturate_mem (by decide : (-32767 : ℤ) ≤ 32767) (roundHalfAway v)
  refine read_substituted Int16.toInt (wholeI16_toInt m v) ?_
  change (-32768 : ℤ) ≠ _
  omega

/-- The packer's substitution never touches a clamped speed limit. -/
private theorem substituted_clampByte (v : ℤ) :
    (((if clampByte v 254 = snaU8 then 0xFE else clampByte v 254).toNat : ℕ) : ℤ) =
      saturate 0 254 v := by
  -- The mapping clamped the limit already, one short of the pattern.
  have range := saturate_mem (by decide : (0 : ℤ) ≤ 254) v
  refine read_substituted (fun limit : UInt8 => (limit.toNat : ℤ))
    (clampByte_toNat (by decide) (by decide) v) ?_
  change (255 : ℤ) ≠ _
  omega

/-- The raw number sent for a revealed numeric signal is the saturated rounding of its value. -/
theorem rawCount_sent (s : VehicleState) (proxyState counter pluginMajor pluginMinor : UInt8)
    (sig : Signal) (scale : Scale) (v : ℚ) (graded : sig.scale? = some scale)
    (finite : s.quantity sig = .finite v) (small : |v / scale.lsb| < 2 ^ 62)
    (gate : has s true sig = true) :
    rawCount ((framesFrom m s true proxyState counter pluginMajor pluginMinor).wire m) sig =
      saturate scale.lo scale.hi (roundHalfAway (v / scale.lsb)) := by
  have defined : |v / scale.lsb| + 1 / 2 < 2 ^ 63 := by linarith
  -- The count keeps a name while the packers are unfolded.
  obtain ⟨count, counted⟩ : ∃ count, v / scale.lsb = count := ⟨_, rfl⟩
  rw [counted]
  -- Each signal takes its own route through mapping and packer; equal routes are joined below.
  cases sig <;> simp only [Signal.scale?, Option.some.injEq, reduceCtorEq] at graded <;>
    subst graded <;> simp only [VehicleState.quantity] at finite <;>
    simp [rawCount, Frames.wire, packMotion, packEdrive, packEnergy, packTrip, packThermal,
      packAssist, framesFrom, gate, finite, -one_div]
  -- Doubles scaled once by an encoder.
  case speed | packVoltage | auxBattery | leadGap =>
    rw [← counted]
    exact (encU16_toNat m _ _).trans (scaled_finite m (by decide) (by norm_num) defined)
  case motorPower | packCurrent =>
    rw [← counted]
    exact (encI16_toInt m _ _).trans (scaled_finite m (by decide) (by norm_num) defined)
  case soc | soh | fuelLevel =>
    rw [← counted]
    exact (encU8_toNat m _ _ _).trans (scaled_finite m (by decide) (by norm_num) defined)
  case odometer =>
    rw [← counted]
    exact (encU32_toNat m _ _).trans (scaled_finite m (by decide) (by norm_num) defined)
  -- Whole quantities rounded by the mapping.
  case rpm | range =>
    rw [← counted, div_one]
    exact substituted_wholeU16 m v
  case consumption =>
    rw [← counted, div_one]
    exact substituted_wholeI16 m v
  -- Temperatures, rounded by the mapping and again by the packer.
  case ambientTemp | cabinTemp | coolantTemp =>
    rw [div_one] at small
    rw [← counted, div_one]
    exact wholeDegrees_again m small
  -- Integers clamped by the mapping.
  case ecoScore =>
    rw [Double.ofInt, Double.finite.injEq] at finite
    rw [← counted, div_one, ← finite, roundHalfAway_intCast]
    exact ecoScore_again m s.ecoScore
  case speedLimit =>
    rw [Double.ofInt, Double.finite.injEq] at finite
    rw [← counted, div_one, ← finite, roundHalfAway_intCast]
    exact substituted_clampByte s.speedLimitKmh

/-- An available numeric signal is read on its grid from the raw number that was received. -/
theorem reading_rawCount (bytes : FrameId → FrameData) {sig : Signal} {scale : Scale}
    (graded : sig.scale? = some scale) (available : (receive bytes).available sig = true) :
    (receive bytes).reading sig = .finite (rawCount bytes sig * scale.lsb) := by
  -- A raw count is scaled by the reader, and a whole quantity is on a grid of one.
  cases sig <;> simp only [Signal.scale?, Option.some.injEq, reduceCtorEq] at graded <;>
    subst graded <;> simp only [receive, Frames.available, unpackMotion, unpackEdrive, unpackEnergy,
      unpackTrip, unpackThermal, unpackAssist] at available <;>
    simp only [receive, Frames.reading, rawCount, unpackMotion, unpackEdrive, unpackEnergy, unpackTrip,
      unpackThermal, unpackAssist, available, scaledValue, Double.ofInt, if_true, mul_one]

/-- Decoding a revealed numeric signal gives the saturated rounding of its published value. -/
theorem reading_decoded (s : VehicleState) (proxyState counter pluginMajor pluginMinor : UInt8)
    (sig : Signal) (scale : Scale) (v : ℚ) (graded : sig.scale? = some scale)
    (finite : s.quantity sig = .finite v) (small : |v / scale.lsb| < 2 ^ 62)
    (gate : has s true sig = true) :
    (receive ((framesFrom m s true proxyState counter pluginMajor pluginMinor).wire m)).reading sig =
      .finite (saturate scale.lo scale.hi (roundHalfAway (v / scale.lsb)) * scale.lsb) := by
  -- A numeric signal is not enumerated, so the gate alone makes it available.
  have available := available_decoded m s true proxyState counter pluginMajor pluginMinor sig
  have unconstrained : s.enumerated sig = true := by
    cases sig <;> first | rfl | cases graded
  rw [gate, unconstrained, Bool.and_self] at available
  rw [reading_rawCount _ graded available,
    rawCount_sent m s proxyState counter pluginMajor pluginMinor sig scale v graded finite small gate]

/--
The value decoded for a revealed numeric signal is the grid point nearest to the published one, ties
away from zero, clamped to the signal's range.

Inside the range the error is therefore at most half a grid step.
-/
theorem reading_nearest (s : VehicleState) (proxyState counter pluginMajor pluginMinor : UInt8)
    (sig : Signal) (scale : Scale) (v : ℚ) (graded : sig.scale? = some scale)
    (finite : s.quantity sig = .finite v) (small : |v / scale.lsb| < 2 ^ 62)
    (gate : Bits.mem s.capable sig.index = true ∧ Bits.mem s.valid sig.index = true) :
    ∃ n : ℤ, NearestAway (v / scale.lsb) n ∧
      (receive ((framesFrom m s true proxyState counter pluginMajor pluginMinor).wire
        m)).reading sig = .finite (saturate scale.lo scale.hi n * scale.lsb) ∧
      (scale.lo * scale.lsb ≤ v → v ≤ scale.hi * scale.lsb →
        |saturate scale.lo scale.hi n * scale.lsb - v| ≤ scale.lsb / 2) := by
  refine ⟨roundHalfAway (v / scale.lsb), nearestAway_roundHalfAway _, ?_, fun low high => ?_⟩
  · refine reading_decoded m s proxyState counter pluginMajor pluginMinor sig scale v graded finite
      small ?_
    rw [has_eq, gate.1, gate.2]
    rfl
  · -- Rounding keeps a number between two integers between them, so saturation does nothing.
    have above := roundHalfAway_mono ((le_div_iff₀ scale.positive).mpr low)
    have below := roundHalfAway_mono ((div_le_iff₀ scale.positive).mpr high)
    rw [roundHalfAway_intCast] at above below
    rw [saturate_eq above below]
    exact abs_roundHalfAway_mul_sub scale.positive v

end Quantities

/-- A speed between two hundredths arrives as the nearer one. -/
theorem reading_nearest_speed :
    let s := { VehicleState.zero with
      capable := Signal.speed.bit, valid := Signal.speed.bit, speedKmh := .finite (1234567 / 10000) }
    ∃ n : ℤ, NearestAway ((1234567 : ℚ) / 10000 / (1 / 100)) n ∧
      (receive ((framesFrom Machine.indefinite s true 3 0 1 0).wire Machine.indefinite)).reading .speed
        = .finite (saturate 0 0xFFFE n * (1 / 100)) := by
  -- The value is 123.4567 km/h, so the nearest count of hundredths is 12346.
  intro s
  obtain ⟨n, near, read, -⟩ := reading_nearest Machine.indefinite s 3 0 1 0 .speed
    ⟨1 / 100, 0, 0xFFFE, by norm_num, by norm_num⟩ (1234567 / 10000) rfl rfl
    (by norm_num [abs_of_nonneg]) ⟨by decide, by decide⟩
  exact ⟨n, near, read⟩

end CanProxy
