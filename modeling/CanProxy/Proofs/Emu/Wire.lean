import CanProxy.Proofs.Core.Precision
import CanProxy.Proofs.Emu.Capable
import CanProxy.Proofs.Emu.Run
import Mathlib.Tactic.IntervalCases

/-! What the raw fields of a record become on the wire. -/

namespace CanProxy

open Numeric

/-- A positive reply echoes the identifier as the request spells it, with the record after it. -/
theorem parseReadDidReply_echo {pdu : List UInt8} {did : UInt16} {reply : UdsReply}
    (parsed : parseReadDidReply pdu did = some reply) (positive : reply.positive = true) :
    pdu = 0x62 :: ((buildReadDid did).tail ++ reply.data) := by
  unfold parseReadDidReply at parsed
  split at parsed
  next b0 b1 b2 data =>
    split at parsed
    · -- A refusal is no positive reply.
      cases parsed
      cases positive
    · split at parsed
      next echoed =>
        obtain ⟨rfl, high, low⟩ := echoed
        cases parsed
        rw [buildReadDid, ← high, ← low, UInt8.toUInt8_toUInt16, UInt8.toUInt8_toUInt16]
        rfl
      · cases parsed
  · cases parsed

/-- A positive reply is the service's own, for the identifier asked about, with the record after it. -/
theorem parseReadDidReply_positive {pdu : List UInt8} {did : UInt16} {reply : UdsReply}
    (parsed : parseReadDidReply pdu did = some reply) (positive : reply.positive = true) :
    ∃ hi lo, pdu = 0x62 :: hi :: lo :: reply.data ∧ hi.toNat * 256 + lo.toNat = did.toNat := by
  refine ⟨_, _, parseReadDidReply_echo parsed positive, ?_⟩
  -- The two bytes are the identifier's quotient and remainder.
  rw [Bits.toNat_highByte16, Bits.toNat_lowByte16]
  omega

namespace Emu

section Fields

variable (d : List UInt8) (i : Nat)

theorem be16_toNat : ((be16 d i).toNat : ℤ) = unsigned16 d i := by
  -- The code joins the bytes in the other order.
  rw [be16, UInt16.or_comm, Bits.toNat_join16, unsigned16]
  push_cast
  ring

theorem be16s_toInt : (be16s d i).toInt = signed16 d i := by
  -- The signed number has the bits of the unsigned one.
  rw [signed16, ← be16_toNat]
  exact BitVec.toInt_eq_toNat_bmod _

theorem unsigned16_range : 0 ≤ unsigned16 d i ∧ unsigned16 d i ≤ 65535 := by
  have low := (d.getD i 0).toNat_lt
  have high := (d.getD (i + 1) 0).toNat_lt
  unfold unsigned16
  omega

theorem signed16_range : -32768 ≤ signed16 d i ∧ signed16 d i ≤ 32767 := by
  unfold signed16
  have low := Int.le_bmod (x := unsigned16 d i) (m := 2 ^ 16) (by decide)
  have high := Int.bmod_lt (x := unsigned16 d i) (m := 2 ^ 16) (by decide)
  omega

/-- No raw field needs more than sixteen bits. -/
theorem rawField_range (sig : Signal) : -65535 ≤ rawField d sig ∧ rawField d sig ≤ 65535 := by
  have unsigned (i : Nat) : -65535 ≤ unsigned16 d i ∧ unsigned16 d i ≤ 65535 := by
    have := unsigned16_range d i
    omega
  have signed (i : Nat) : -65535 ≤ signed16 d i ∧ signed16 d i ≤ 65535 := by
    have := signed16_range d i
    omega
  have byte (i : Nat) : -65535 ≤ ((d.getD i 0).toNat : ℤ) ∧ ((d.getD i 0).toNat : ℤ) ≤ 65535 := by
    have := (d.getD i 0).toNat_lt
    omega
  cases sig with
  | packVoltage | range => exact unsigned 0
  | rpm => exact unsigned 2
  | leadGap => exact unsigned 4
  | packCurrent | consumption => exact signed 2
  | motorPower => exact signed 4
  | gear | ecoScore => exact byte 0
  | powerState | speedLimit => exact byte 1
  | collisionRisk => exact byte 2
  | laneState => exact byte 3
  | soc => exact byte 4
  | soh => exact byte 5
  | chargingState => exact byte 6
  | _ => simp [rawField]

end Fields

section Record

variable {did : Did} {d : List UInt8} {hybrid : Bool} {sig : Signal}

/-- A field scaled down by a nonzero divisor is that quotient. -/
theorem scaledDown_eq (n : ℤ) {k : ℤ} (nonzero : k ≠ 0) : scaledDown n k = .finite (n * (1 / k)) := by
  -- Both integers are exact doubles.
  rw [scaledDown, Double.ofInt, Double.ofInt, Double.finite_div _ (by exact_mod_cast nonzero)]
  ring_nf

/-- A numeric signal of a record is its raw field in units of the signal's own grid. -/
theorem recorded_graded (long : did.length ≤ d.length) (stored : didOf hybrid sig = some did)
    {scale : Scale} (graded : sig.scale? = some scale) :
    recorded did d sig = .finite (rawField d sig * scale.lsb) := by
  -- The records scale by the same powers of ten and two as the contract does.
  unfold recorded
  rw [decode_long _ (not_lt.mpr long)]
  cases hybrid <;> cases sig <;> cases stored <;>
    simp only [Signal.scale?, Option.some.injEq, reduceCtorEq] at graded <;> subst graded <;>
    simp (disch := decide) only [Records.quantity, Records.overwrite, Pack.read, Range.read, Drive.read,
      Assist.read, rawField, scaledDown_eq, be16_toNat, be16s_toInt, Double.ofInt, mul_one,
      Int.cast_ofNat]

/-- Clamping a raw field to its signal's range is what keeps it clear of the pattern. -/
theorem saturate_rawField (good : accepts did d = true) (stored : didOf hybrid sig = some did)
    {scale : Scale} (graded : sig.scale? = some scale) :
    saturate scale.lo scale.hi (rawField d sig) = saturated (rawField d sig) sig := by
  -- The eco score has been checked; a percentage or a limit is a single byte.
  have score : did = .assist → ((d.getD 0 0).toNat : ℤ) ≤ 100 := by
    rintro rfl
    have checked := ((accepts_iff .assist d).mp good).2
    simp only [Did.inRange, Bool.and_eq_true, decide_eq_true_eq] at checked
    exact checked.1
  -- A field of two bytes can only pass its range at the end the pattern is at.
  have voltage := unsigned16_range d 0
  have speed := unsigned16_range d 2
  have gap := unsigned16_range d 4
  have current := signed16_range d 2
  have power := signed16_range d 4
  cases hybrid <;> cases sig <;> cases stored <;>
    simp only [Signal.scale?, Option.some.injEq, reduceCtorEq] at graded <;> subst graded <;>
    simp only [saturate, rawField, saturated]
  all_goals try omega
  -- What is left is the score of a record that has passed its check.
  all_goals
    have scored := score rfl
    omega

/-- An enumerated signal of a record is its raw field as an integer, and the lanes its low four bits. -/
theorem recorded_coded (long : did.length ≤ d.length) (stored : didOf hybrid sig = some did)
    (ungraded : sig.scale? = none) : recorded did d sig = .ofInt (saturated (rawField d sig) sig) := by
  unfold recorded
  rw [decode_long _ (not_lt.mpr long)]
  have mask := Nat.and_two_pow_sub_one_eq_mod (d.getD 3 0).toNat 4
  cases hybrid <;> cases sig <;> cases stored <;> cases ungraded <;> first | rfl | skip
  -- The decoder masks the lane byte.
  all_goals
    simp [Records.quantity, Records.overwrite, Assist.read, saturated, rawField] at mask ⊢
    rw [mask, Int.natCast_mod]
    rfl

/-- The largest number of an enumerated signal, or of the lanes. -/
def lastCode : Signal → ℤ
  | .gear => 4
  | .laneState => 15
  | _ => 3

/-- An accepted record's enumerated signals are in range, and so are its masked lanes. -/
theorem saturated_coded (good : accepts did d = true) (stored : didOf hybrid sig = some did)
    (ungraded : sig.scale? = none) :
    0 ≤ saturated (rawField d sig) sig ∧ saturated (rawField d sig) sig ≤ lastCode sig := by
  have checked := ((accepts_iff did d).mp good).2
  -- The decoder checked all but the lanes, which are a remainder.
  cases hybrid <;> cases sig <;> cases stored <;> cases ungraded <;>
    simp only [Did.inRange, Bool.and_eq_true, decide_eq_true_eq] at checked <;>
    simp only [Drive.read, Pack.read, Assist.read] at checked <;>
    simp only [saturated, rawField, lastCode] <;> omega

end Record

section Coded

variable (m : Machine) {s : VehicleState} (proxyState counter pluginMajor pluginMinor : UInt8)
  {sig : Signal}

/-- Sending the reserved code for itself changes nothing. -/
private theorem passed_code (code : UInt8) : (if code = snaU8 then snaU8 else code) = code := by
  split
  next same => exact same.symm
  · rfl

/-- An enumerated signal in range is sent as its own number, and the lanes as their own bits. -/
theorem rawCount_coded {n : ℤ} (gate : has s true sig = true) (value : s.quantity sig = .ofInt n)
    (ungraded : sig.scale? = none) (low : 0 ≤ n) (high : n ≤ lastCode sig) :
    rawCount ((framesFrom m s true proxyState counter pluginMajor pluginMinor).wire m) sig = n := by
  have inject {a b : ℤ} (same : Double.ofInt a = .ofInt b) : a = b := by
    simpa [Double.ofInt] using same
  -- Each of the five signals has a mapping of its own.
  cases sig with
  | gear =>
    have value : s.gear = n := inject value
    have code : ((gearFrom n).toNat : ℤ) = n := by
      simp only [lastCode] at high
      interval_cases n <;> rfl
    simp [rawCount, Frames.wire, packMotion, framesFrom, gate, value, passed_code, code]
  | powerState =>
    have value : s.powerState = n := inject value
    have code : ((powerStateFrom n).toNat : ℤ) = n := by
      simp only [lastCode] at high
      interval_cases n <;> rfl
    simp [rawCount, Frames.wire, packMotion, framesFrom, gate, value, passed_code, code]
  | chargingState =>
    have value : s.chargingState = n := inject value
    have code : ((chargingStateFrom n).toNat : ℤ) = n := by
      simp only [lastCode] at high
      interval_cases n <;> rfl
    simp [rawCount, Frames.wire, packEnergy, framesFrom, gate, value, passed_code, code]
  | collisionRisk =>
    have value : s.collisionRisk = n := inject value
    have code : ((collisionRiskFrom n).toNat : ℤ) = n := by
      simp only [lastCode] at high
      interval_cases n <;> rfl
    simp [rawCount, Frames.wire, packAssist, framesFrom, gate, value, code]
  | laneState =>
    have value : (s.laneState.toNat : ℤ) = n := inject value
    simp only [lastCode] at high
    have mask := Nat.and_two_pow_sub_one_eq_mod (s.laneState.toNat % 256) 4
    simp [rawCount, Frames.wire, packAssist, framesFrom, gate, laneValidMask] at mask ⊢
    omega
  | _ => cases ungraded

/-- A signal with an accepted record's value is sent as the record's raw field, saturated. -/
theorem rawCount_recorded {did : Did} {d : List UInt8} {hybrid : Bool} (good : accepts did d = true)
    (stored : didOf hybrid sig = some did) (value : s.quantity sig = recorded did d sig)
    (gate : has s true sig = true) :
    rawCount ((framesFrom m s true proxyState counter pluginMajor pluginMinor).wire m) sig =
      saturated (rawField d sig) sig := by
  cases graded : sig.scale? with
  | some scale =>
    -- The value is a whole number of grid steps, so rounding it changes nothing.
    rw [recorded_graded (length_of_accepts good) stored graded] at value
    have quotient : (rawField d sig : ℚ) * scale.lsb / scale.lsb = rawField d sig :=
      mul_div_cancel_right₀ _ scale.positive.ne'
    have bounded := rawField_range d sig
    have low : (-65535 : ℚ) ≤ rawField d sig := by exact_mod_cast bounded.1
    have high : (rawField d sig : ℚ) ≤ 65535 := by exact_mod_cast bounded.2
    have small : |(rawField d sig : ℚ)| ≤ 65535 := abs_le.mpr ⟨low, high⟩
    rw [rawCount_sent m s proxyState counter pluginMajor pluginMinor sig scale _ graded value
      (by rw [quotient]; linarith) gate, quotient, roundHalfAway_intCast,
      saturate_rawField good stored graded]
  | none =>
    obtain ⟨low, high⟩ := saturated_coded good stored graded
    exact rawCount_coded m proxyState counter pluginMajor pluginMinor gate
      (value.trans (recorded_coded (length_of_accepts good) stored graded)) graded low high

end Coded

/-- The signals of a record are advertised while its keeper is there. -/
theorem advertised_present (c : Config) {p : Plugin} {did : Did} {sig : Signal}
    (present : p.present did = true) (stored : didOf c.hybrid sig = some did) :
    Bits.mem (p.advertised c) sig.index = true := by
  have member := mem_sigsOf c.hybrid did sig
  rw [decide_eq_true stored] at member
  unfold Plugin.advertised
  dsimp only
  -- The battery controller keeps three of the records, and the driver assist one is apart.
  cases did with
  | assist =>
    rw [if_pos (show p.assistPresent = true from present), Bits.mem_or,
      show Bits.mem assistSigs sig.index = true from member,
      Bool.or_true]
  | pack | range | drive =>
    rw [if_pos (show p.bmsPresent = true from present)]
    simp only [sigsOf] at member
    split <;> simp [member]

/-- Without a discovery or another decodable record, the one accepted last stays. -/
theorem accepted_append {did : Did} {log more : List Event}
    (quiet : ∀ e ∈ more, e ≠ .discovered ∧ e.decodable? did = none) :
    accepted did (log ++ more) = accepted did log := by
  -- The new events are added one at a time, and none of them replaces the record.
  induction more using List.reverseRecOn with
  | nil => rw [List.append_nil]
  | append_singleton rest e ih =>
    have ih := ih fun e member => quiet e (List.mem_append_left _ member)
    obtain ⟨other, unread⟩ := quiet e (by simp)
    rw [← List.append_assoc, accepted_concat, ih]
    cases e with
    | discovered => exact absurd rfl other
    | record k d time =>
      refine if_neg ?_
      rintro ⟨rfl, good⟩
      simp [Event.decodable?, length_of_accepts good] at unread
    | _ => rfl

/--
A reply taken as positive is the service's own, for the identifier asked about, with the record after
it. While such a record is fresh, every state published after its acceptance is sent with the
record's raw fields, saturated one short of the not-available pattern.
-/
theorem reply_carried {pdu : List UInt8} {did : Did} {reply : UdsReply}
    (parsed : parseReadDidReply pdu did.code = some reply) (positive : reply.positive = true) :
    (∃ hi lo, pdu = 0x62 :: hi :: lo :: reply.data ∧
      hi.toNat * 256 + lo.toNat = did.code.toNat) ∧
    (accepts did reply.data = true →
      ∀ (c : Config) (turns : List Turn) (earlier later after : List Event) (s : VehicleState)
        (time now : ℤ),
        Plugin.log c turns =
          earlier ++ .record did reply.data time :: later ++ .publish s now :: after →
        (∀ e ∈ later, e ≠ .discovered ∧ e.decodable? did = none) →
        0 ≤ time → now - time ≤ 3 * c.interval did →
        ∀ (m : Machine) (proxyState counter pluginMajor pluginMinor : UInt8) (sig : Signal),
          didOf c.hybrid sig = some did →
          rawCount ((framesFrom m s true proxyState counter pluginMajor pluginMinor).wire m) sig =
            saturated (rawField reply.data sig) sig) := by
  refine ⟨parseReadDidReply_positive parsed positive, ?_⟩
  intro good c turns earlier later after s time now split quiet begun recent m proxyState counter
    pluginMajor pluginMinor sig stored
  obtain ⟨p, agrees, rfl, -⟩ := published_state c turns split
  -- The record is both the one accepted last and the decodable one received last.
  have found : accepted did (earlier ++ .record did reply.data time :: later) =
      some (reply.data, time) := by
    rw [List.append_cons, accepted_append quiet, accepted_record good]
  have decodable : lastDecodable did (earlier ++ .record did reply.data time :: later) =
      some reply.data := by
    rw [List.append_cons]
    exact (Run.last_append _ _ fun e member => (quiet e member).2).trans
      (lastDecodable_record (length_of_accepts good))
  -- Being fresh, it is shown, so its signals are valid, advertised, and have its values.
  have shown := (agrees.shown_iff did now).mpr ⟨reply.data, time, found, begun, recent⟩
  obtain ⟨marked, value⟩ := state_record c p now stored
  have present := (Bool.and_eq_true_iff.mp shown).1
  refine rawCount_recorded m proxyState counter pluginMajor pluginMinor good stored
    ((value shown).trans ((agrees.tracks did).written _ decodable sig stored)) ?_
  rw [has_eq, marked, shown, state_capable, advertised_present c present stored]
  rfl

/-- A drive record with a motor speed of all ones is sent one short of the pattern. -/
theorem reply_carried_drive :
    let c : Config := ⟨false, cpSourceEmulator, 100⟩
    let turns :=
      [{ Turn.silent 1000 with
        discovery := some ∅
        packProbe := some [0x62, 1, 1]
        reply := some [0x62, 1, 3, 3, 3, 0xFF, 0xFF, 0x80, 0] }]
    let s := (Run.final (Plugin.step c) Plugin.new turns).state c 1000
    let bytes := (framesFrom Machine.indefinite s true 3 0 1 0).wire Machine.indefinite
    rawCount bytes .rpm = 0xFFFE ∧ rawCount bytes .motorPower = -32767 := by
  intro c turns s bytes
  have parsed : parseReadDidReply [0x62, 1, 3, 3, 3, 0xFF, 0xFF, 0x80, 0] Did.drive.code =
      some ⟨true, 0, [3, 3, 0xFF, 0xFF, 0x80, 0]⟩ := by decide
  have carried := (reply_carried parsed rfl).2 (by decide +kernel) c turns
    [.discovered, .setLink true] [] [] s 1000 1000 (by decide +kernel) (by simp) (by decide)
    (by decide) Machine.indefinite 3 0 1 0
  exact ⟨(carried .rpm rfl).trans (by decide), (carried .motorPower rfl).trans (by decide)⟩

end Emu

end CanProxy
