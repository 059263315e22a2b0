import CanProxy.Core.Daemon
import CanProxy.Proofs.Core.History
import CanProxy.Proofs.Core.Precision

/-! What a consumer is shown was published by the plugin, recently and of a vehicle that is there. -/

namespace CanProxy

open Numeric

/-- A signal shown by a frame on the bus, with the state and the time it was published. -/
structure Shown (timeout : ℤ) (past : List Call) (now : ℤ) (sig : Signal) (s : VehicleState) (time : ℤ) :
    Prop where
  published : latestPublish past = some (s, time)
  recent : now - time ≤ timeout
  linked : latestLink past = some true
  valid : Bits.mem s.valid sig.index = true
  capable : Bits.mem s.capable sig.index = true
  enumerated : s.enumerated sig = true

/-- A frame on the bus shows a signal exactly while the latest state has it, and is current. -/
theorem available_iff {m : Machine} {publisher : Publisher} {past : List Call} {now : ℤ} {frame : Sent}
    (sent : frame ∈ Proxy.sentBy m publisher past now) {sig : Signal} (own : sig.frame = frame.id) :
    (receive fun _ => frame.data).available sig = true ↔
      Live publisher.timeout past now ∧ Bits.mem (latestState past).valid sig.index = true ∧
        Bits.mem (latestState past).capable sig.index = true ∧
        (latestState past).enumerated sig = true := by
  -- The frame was built with the gate of its signal, and with the flag that the history calls for.
  rw [← (derive_history publisher.timeout past now).2, mem_sentBy sent, ← own, available_own_frame,
    historyFrames, available_decoded, has_eq]
  simp only [Bool.and_eq_true, and_assoc]

/-- A signal that a frame on the bus shows was published, and is that of the latest publish. -/
theorem shown_of_available {m : Machine} {publisher : Publisher} {past : List Call} {now : ℤ}
    {frame : Sent} (sent : frame ∈ Proxy.sentBy m publisher past now) {sig : Signal}
    (own : sig.frame = frame.id)
    (available : (receive fun _ => frame.data).available sig = true) :
    ∃ s time, Shown publisher.timeout past now sig s time ∧
      ∃ proxyState counter pluginMajor pluginMinor, frame.data =
        (framesFrom m s true proxyState counter pluginMajor pluginMinor).wire m frame.id := by
  obtain ⟨live, valid, capable, defined⟩ := (available_iff sent own).mp available
  obtain ⟨linked, s, time, published, recent⟩ := id live
  have state : latestState past = s := by rw [latestState, published]; rfl
  rw [state] at valid capable defined
  refine ⟨s, time, ⟨published, recent, linked, valid, capable, defined⟩, ?_⟩
  have data := mem_sentBy sent
  rw [historyFrames, (derive_history publisher.timeout past now).2.mpr live, state] at data
  exact ⟨_, _, _, _, data⟩

/-- The capabilities in a heartbeat are those of the state last published. -/
theorem sent_capabilities {m : Machine} {publisher : Publisher} {past : List Call} {now : ℤ}
    {frame : Sent} (sent : frame ∈ Proxy.sentBy m publisher past now) (named : frame.id = .status) :
    (receive fun _ => frame.data).status.capabilities = capabilitiesFrom (latestState past).capable := by
  -- The packer strips the reserved bits, of which there are none.
  simp only [mem_sentBy sent, named, receive, Frames.wire, unpackStatus_packStatus, historyFrames,
    framesFrom, capabilitiesFrom_assigned]

/-- A signal is read from its own frame only. -/
theorem reading_own_frame (bytes : FrameId → FrameData) (sig : Signal) :
    (receive fun _ => bytes sig.frame).reading sig = (receive bytes).reading sig := by
  -- The value of each signal is read from one frame, which is the one named.
  cases sig <;> rfl

/-- A numeric signal that is shown is read as the nearest point of its grid, within the grid's range. -/
theorem Shown.reading {timeout now time : ℤ} {past : List Call} {sig : Signal} {s : VehicleState}
    (shown : Shown timeout past now sig s time) {m : Machine} {frame : Sent} (own : sig.frame = frame.id)
    {proxyState counter pluginMajor pluginMinor : UInt8}
    (data : frame.data =
      (framesFrom m s true proxyState counter pluginMajor pluginMinor).wire m frame.id)
    {scale : Scale} (graded : sig.scale? = some scale) {v : ℚ} (finite : s.quantity sig = .finite v)
    (small : |v / scale.lsb| < 2 ^ 62) :
    (receive fun _ => frame.data).reading sig =
      .finite (saturate scale.lo scale.hi (roundHalfAway (v / scale.lsb)) * scale.lsb) := by
  rw [data, ← own, reading_own_frame]
  refine reading_decoded m s proxyState counter pluginMajor pluginMinor sig scale v graded finite small ?_
  rw [has_eq, shown.valid, shown.capable]
  rfl

/-- Gear, power state, and charging state, the signals that are shown only when they are defined. -/
def Signal.coded : Signal → Bool
  | .gear | .powerState | .chargingState => true
  | _ => false

/-- A coded signal that is shown is read as the number that was published. -/
theorem Shown.coded {timeout now time : ℤ} {past : List Call} {sig : Signal} {s : VehicleState}
    (shown : Shown timeout past now sig s time) {m : Machine} {frame : Sent} (own : sig.frame = frame.id)
    {proxyState counter pluginMajor pluginMinor : UInt8}
    (data : frame.data =
      (framesFrom m s true proxyState counter pluginMajor pluginMinor).wire m frame.id)
    (coded : sig.coded = true) : (receive fun _ => frame.data).reading sig = s.quantity sig := by
  have gate : has s true sig = true := by
    rw [has_eq, shown.valid, shown.capable]
    rfl
  have listed := shown.enumerated
  rw [data, ← own, reading_own_frame]
  -- Each defined number has a code of its own, which the consumer reads as that number.
  cases sig with
  | gear =>
    have known : s.gear ∈ [cpGearP, cpGearR, cpGearN, cpGearD, cpGearL] := List.contains_iff_mem.mp listed
    simp only [List.mem_cons, List.not_mem_nil, or_false] at known
    rcases known with same | same | same | same | same <;>
      simp [receive, Frames.wire, Frames.reading, unpackMotion_packMotion, framesFrom, gate, same,
        VehicleState.quantity, gearFrom] <;> decide
  | powerState =>
    have known : s.powerState ∈ [cpPowerOff, cpPowerAcc, cpPowerOn, cpPowerReady] :=
      List.contains_iff_mem.mp listed
    simp only [List.mem_cons, List.not_mem_nil, or_false] at known
    rcases known with same | same | same | same <;>
      simp [receive, Frames.wire, Frames.reading, unpackMotion_packMotion, framesFrom, gate, same,
        VehicleState.quantity, powerStateFrom] <;> decide
  | chargingState =>
    have known : s.chargingState ∈ [cpChargingNone, cpChargingAc, cpChargingDc, cpChargingComplete] :=
      List.contains_iff_mem.mp listed
    simp only [List.mem_cons, List.not_mem_nil, or_false] at known
    rcases known with same | same | same | same <;>
      simp [receive, Frames.wire, Frames.reading, unpackEnergy_packEnergy, framesFrom, gate, same,
        VehicleState.quantity, chargingStateFrom] <;> decide
  | _ => cases coded

/-- What the encoding of a signal leaves of a value: the nearest point of its grid, where it has one. -/
def Signal.onGrid (sig : Signal) (q : ℚ) : Double :=
  match sig.scale? with
  | some scale => .finite (saturate scale.lo scale.hi (roundHalfAway (q / scale.lsb)) * scale.lsb)
  | none => .finite q

/-- The grid of a signal is no finer than a hundredth. -/
theorem scale_coarse {sig : Signal} {scale : Scale} (graded : sig.scale? = some scale) :
    1 / 100 ≤ scale.lsb := by
  cases sig <;> simp only [Signal.scale?, Option.some.injEq, reduceCtorEq] at graded <;>
    subst graded <;> norm_num

/-- Within the range of its encoding a value is shown to half a step of the grid. -/
theorem Signal.onGrid_near {sig : Signal} {scale : Scale} (graded : sig.scale? = some scale) {q : ℚ}
    (low : scale.lo * scale.lsb ≤ q) (high : q ≤ scale.hi * scale.lsb) :
    ∃ shown, sig.onGrid q = .finite shown ∧ |shown - q| ≤ scale.lsb / 2 := by
  -- Rounding keeps a number between two integers between them, so nothing is cut off.
  have above := roundHalfAway_mono ((le_div_iff₀ scale.positive).mpr low)
  have below := roundHalfAway_mono ((div_le_iff₀ scale.positive).mpr high)
  rw [roundHalfAway_intCast] at above below
  refine ⟨_, by rw [Signal.onGrid, graded], ?_⟩
  rw [saturate_eq above below]
  exact abs_roundHalfAway_mul_sub scale.positive q

/-- A value within the range of an encoding is not large. -/
theorem scale_small {sig : Signal} {scale : Scale} (graded : sig.scale? = some scale) {q : ℚ}
    (low : scale.lo * scale.lsb ≤ q) (high : q ≤ scale.hi * scale.lsb) : |q| < 2 ^ 55 := by
  refine abs_lt.mpr ⟨lt_of_lt_of_le ?_ low, lt_of_le_of_lt high ?_⟩ <;>
    cases sig <;> simp only [Signal.scale?, Option.some.injEq, reduceCtorEq] at graded <;>
      subst graded <;> norm_num

/-- The collision risk is a defined one, and no bits but those of the lanes are set. -/
structure VehicleState.AssistDefined (s : VehicleState) : Prop where
  risk : s.collisionRisk ∈ [cpRiskNone, cpRiskLow, cpRiskMedium, cpRiskHigh]
  lanes : s.laneState.toNat < 16

/-- A signal without a grid, a code of its own or the bits of the lanes, is read as what was published. -/
theorem Shown.ungraded {timeout now time : ℤ} {past : List Call} {sig : Signal} {s : VehicleState}
    (shown : Shown timeout past now sig s time) {m : Machine} {frame : Sent} (own : sig.frame = frame.id)
    {proxyState counter pluginMajor pluginMinor : UInt8}
    (data : frame.data =
      (framesFrom m s true proxyState counter pluginMajor pluginMinor).wire m frame.id)
    (defined : s.AssistDefined) (ungraded : sig.scale? = none) :
    (receive fun _ => frame.data).reading sig = s.quantity sig := by
  have gate : has s true sig = true := by
    rw [has_eq, shown.valid, shown.capable]
    rfl
  cases sig with
  | gear | powerState | chargingState => exact shown.coded own data rfl
  | collisionRisk =>
    have known := defined.risk
    simp only [List.mem_cons, List.not_mem_nil, or_false] at known
    rw [data, ← own, reading_own_frame]
    rcases known with same | same | same | same <;>
      simp [receive, Frames.wire, Frames.reading, unpackAssist_packAssist, framesFrom, gate, same,
        VehicleState.quantity, collisionRiskFrom] <;> decide
  | laneState =>
    have lanes := defined.lanes
    have masked : s.laneState.toNat &&& laneValidMask.toNat = s.laneState.toNat :=
      (Nat.and_two_pow_sub_one_eq_mod s.laneState.toNat 4).trans (Nat.mod_eq_of_lt lanes)
    rw [data, ← own, reading_own_frame]
    simp [receive, Frames.wire, Frames.reading, unpackAssist_packAssist, framesFrom, gate,
      VehicleState.quantity, Nat.mod_eq_of_lt (lanes.trans (by decide : 16 < 256)), masked]
  | _ => cases ungraded

/-- A signal that is shown is read as what its encoding leaves of the value that was published. -/
theorem Shown.onGrid {timeout now time : ℤ} {past : List Call} {sig : Signal} {s : VehicleState}
    (shown : Shown timeout past now sig s time) {m : Machine} {frame : Sent} (own : sig.frame = frame.id)
    {proxyState counter pluginMajor pluginMinor : UInt8}
    (data : frame.data =
      (framesFrom m s true proxyState counter pluginMajor pluginMinor).wire m frame.id)
    (defined : s.AssistDefined) {q : ℚ} (value : s.quantity sig = .finite q) (small : |q| < 2 ^ 55) :
    (receive fun _ => frame.data).reading sig = sig.onGrid q := by
  unfold Signal.onGrid
  cases graded : sig.scale? with
  | some scale =>
    refine shown.reading own data graded value ?_
    have coarse := scale_coarse graded
    rw [abs_div, abs_of_pos scale.positive, div_lt_iff₀ scale.positive]
    linarith
  | none => exact (shown.ungraded own data defined graded).trans value

/-- A list that something is picked from is split where what is picked is. -/
private theorem filterMap_split {ε ρ : Type*} {pick : ε → Option ρ} {log : List ε} {first later : List ρ}
    {picked : ρ} (split : log.filterMap pick = first ++ picked :: later) :
    ∃ before e after, log = before ++ e :: after ∧ before.filterMap pick = first ∧
      pick e = some picked ∧ after.filterMap pick = later := by
  obtain ⟨head, tail, rfl, same, rest⟩ := List.filterMap_eq_append_iff.mp split
  obtain ⟨quiet, e, after, rfl, silent, found, last⟩ := List.filterMap_eq_cons_iff.mp rest
  refine ⟨head ++ quiet, e, after, by simp, ?_, found, last⟩
  rw [List.filterMap_append, same, List.filterMap_eq_nil_iff.mpr silent, List.append_nil]

/-- The states published are those of the reports, in order and each once. -/
theorem Drives.states {reports : List Report} {calls : List Call} (driven : Drives reports calls) :
    (calls.filterMap Call.published?).map Prod.fst <+: reports.filterMap Report.published? := by
  have same : (calls.filterMap Call.published?).map Prod.fst =
      (calls.filterMap Call.report?).filterMap Report.published? := by
    rw [List.filterMap_filterMap, List.map_filterMap]
    refine List.filterMap_congr fun call _ => ?_
    cases call <;> rfl
  rw [same]
  exact driven.filterMap Report.published?

/-- The number of publishes so far says which state of the reports is the latest. -/
theorem Drives.latest {reports : List Report} {calls : List Call} (driven : Drives reports calls)
    {s : VehicleState} {time : ℤ} (latest : latestPublish calls = some (s, time)) :
    ∃ n, (calls.filterMap Call.published?).length = n + 1 ∧
      (reports.filterMap Report.published?)[n]? = some s := by
  obtain ⟨earlier, same⟩ := List.getLast?_eq_some_iff.mp latest
  obtain ⟨later, split⟩ := driven.states
  refine ⟨earlier.length, by rw [same, List.length_append, List.length_singleton], ?_⟩
  rw [← split, same]
  simp

/-- The latest publish was made for an event of the plugin, with no other publish after it. -/
theorem Drives.published {ε : Type*} {report? : ε → Option Report} {log : List ε} {calls : List Call}
    (driven : Drives (log.filterMap report?) calls) {s : VehicleState} {time : ℤ}
    (latest : latestPublish calls = some (s, time)) :
    ∃ before e after more, log = before ++ e :: after ∧ report? e = some (.publish s) ∧
      calls.filterMap Call.report? = before.filterMap report? ++ .publish s :: more ∧
      ∀ report ∈ more, report.published? = none := by
  -- The calls split at the one that published last, and with them their reports.
  obtain ⟨made, split⟩ := List.getLast?_eq_some_iff.mp latest
  obtain ⟨earlier, call, after, rfl, -, published, none⟩ := filterMap_split split
  obtain rfl : call = .publish s time := by
    cases call with
    | publish s' now =>
      cases published
      rfl
    | _ => cases published
  have quiet : ∀ report ∈ after.filterMap Call.report?, report.published? = Option.none := by
    intro report member
    obtain ⟨other, listed, reported⟩ := List.mem_filterMap.mp member
    have unpublished := List.filterMap_eq_nil_iff.mp none other listed
    cases other with
    | publish s' now => cases unpublished
    | setLink present now =>
      cases reported
      rfl
    | tick now => cases reported
  have made : (earlier ++ .publish s time :: after).filterMap Call.report? =
      earlier.filterMap Call.report? ++ .publish s :: after.filterMap Call.report? := by
    rw [List.filterMap_append]
    rfl
  obtain ⟨rest, told⟩ := driven
  rw [made, List.append_assoc, List.cons_append] at told
  obtain ⟨before, e, later, rfl, same, reported, -⟩ := filterMap_split told.symm
  exact ⟨before, e, later, after.filterMap Call.report?, rfl, reported, by rw [made, same], quiet⟩

end CanProxy
