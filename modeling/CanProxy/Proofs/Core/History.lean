import CanProxy.Core.History
import CanProxy.Proofs.Core.Availability
import CanProxy.Proofs.Core.Schedule

/-! What a tick sends is decided by the latest link report and the latest publish. -/

namespace CanProxy

open Numeric

section Latest

variable (past : List Call) (s : VehicleState) (present : Bool) (now : ℤ)

@[simp] theorem latestLink_setLink :
    latestLink (past ++ [.setLink present now]) = some present := by
  -- The newest report is the one just made.
  simp [latestLink, Call.link?]

@[simp] theorem latestLink_publish : latestLink (past ++ [.publish s now]) = latestLink past := by
  simp [latestLink, Call.link?]

@[simp] theorem latestLink_tick : latestLink (past ++ [.tick now]) = latestLink past := by
  simp [latestLink, Call.link?]

@[simp] theorem latestPublish_publish :
    latestPublish (past ++ [.publish s now]) = some (s, now) := by
  simp [latestPublish, Call.published?]

@[simp] theorem latestPublish_setLink :
    latestPublish (past ++ [.setLink present now]) = latestPublish past := by
  simp [latestPublish, Call.published?]

@[simp] theorem latestPublish_tick : latestPublish (past ++ [.tick now]) = latestPublish past := by
  simp [latestPublish, Call.published?]

end Latest

/-- Once the link has been reported, it stays reported. -/
theorem latestLink_append_ne_none {past : List Call} (known : latestLink past ≠ none)
    (more : List Call) : latestLink (past ++ more) ≠ none := by
  -- Later calls can replace the report by another one, but never take it back.
  unfold latestLink at known ⊢
  rw [List.filterMap_append, List.getLast?_append]
  cases last : (more.filterMap Call.link?).getLast? with
  | none => simpa using known
  | some present => simp

/-- The snapshot a history leaves in the store. -/
def historySnapshot (past : List Call) : Snapshot where
  -- The fields before any call are those of the empty store.
  state := latestState past
  everPublished := (latestPublish past).isSome
  linkKnown := (latestLink past).isSome
  linkPresent := (latestLink past).getD false
  lastPublish := ((latestPublish past).map Prod.snd).getD 0

namespace Proxy

/-- The store holds what the history says, and the publisher's timeout never changes. -/
theorem after_store (m : Machine) (publisher : Publisher) (past : List Call) :
    (after m publisher past).store = historySnapshot past ∧
    (after m publisher past).publisher.timeout = publisher.timeout := by
  refine Run.invariant (step m) (P := fun past _ proxy => proxy.store = historySnapshot past ∧
    proxy.publisher.timeout = publisher.timeout) ⟨rfl, rfl⟩ ?_
  rintro past call - ⟨stored, configured⟩
  -- Each call changes the part of the store that the history reads off it.
  cases call with
  | publish s now =>
    exact ⟨by simp [step, stored, Snapshot.publish, historySnapshot, latestState], configured⟩
  | setLink present now =>
    exact ⟨by simp [step, stored, Snapshot.setLink, historySnapshot, latestState], configured⟩
  | tick now =>
    refine ⟨by simp [step, stored, historySnapshot, latestState], ?_⟩
    rw [step, Publisher.tick_timeout, configured]

end Proxy

section Derived

variable (timeout : ℤ) (past : List Call) (now : ℤ)

/-- The mask comparison in the state machine asks that nothing advertised is stale. -/
theorem allFresh_iff (s : VehicleState) : (s.valid &&& s.capable == s.capable) = true ↔ s.AllFresh := by
  rw [beq_iff_eq]
  exact Bits.and_eq_right_iff s.valid s.capable

/-- The freshness test on the snapshot is the one on the history. -/
theorem stale_iff :
    (!(historySnapshot past).everPublished ||
      decide (timeout < now - (historySnapshot past).lastPublish)) = true ↔
      ¬Current timeout past now := by
  -- Without a publish there is nothing to be current; with one, its age decides.
  unfold historySnapshot Current
  cases latestPublish past with
  | none => simp
  | some publish =>
    obtain ⟨s, time⟩ := publish
    simp only [Option.isSome_some, Bool.not_true, Bool.false_or, decide_eq_true_eq, Option.map_some,
      Option.getD_some, Option.some.injEq, Prod.mk.injEq]
    constructor
    · rintro stale ⟨_, _, ⟨rfl, rfl⟩, fresh⟩
      omega
    · intro stale
      by_contra fresh
      exact stale ⟨s, time, ⟨rfl, rfl⟩, by omega⟩

/-- With the link up, the derived state is decided by the publish. -/
theorem derive_linked (link : latestLink past = some true) :
    derive (historySnapshot past) now timeout =
      if (!(historySnapshot past).everPublished ||
          decide (timeout < now - (historySnapshot past).lastPublish)) = true then
        ⟨.degraded, false⟩
      else
        ⟨if ((latestState past).valid &&& (latestState past).capable
          == (latestState past).capable) = true then .ok else .degraded, true⟩ := by
  -- The first two tests of the state machine fall through.
  have known : (historySnapshot past).linkKnown = true := by simp [historySnapshot, link]
  have up : (historySnapshot past).linkPresent = true := by simp [historySnapshot, link]
  unfold derive
  rw [known, up]
  rfl

/-- What is derived from the store is what the history calls for. -/
theorem derive_history :
    Reports timeout past now (derive (historySnapshot past) now timeout).proxyState ∧
    ((derive (historySnapshot past) now timeout).live = true ↔ Live timeout past now) := by
  -- The tests are made in the order of the state machine: link known, link up, publish current.
  cases link : latestLink past with
  | none => simp [derive, historySnapshot, link, Reports, Live]
  | some present =>
    cases present with
    | false => simp [derive, historySnapshot, link, Reports, Live]
    | true =>
      rw [derive_linked timeout past now link]
      by_cases current : Current timeout past now
      · rw [if_neg ((stale_iff timeout past now).not.mpr (not_not.mpr current))]
        by_cases complete : (latestState past).AllFresh
        · rw [if_pos ((allFresh_iff _).mpr complete)]
          simp [Reports, Live, link, current, complete]
        · rw [if_neg ((allFresh_iff _).not.mpr complete)]
          simp [Reports, Live, link, current, complete]
      · rw [if_pos ((stale_iff timeout past now).mpr current)]
        simp [Reports, Live, link, current]

/-- A history calls for one proxy state only. -/
theorem reports_unique {x y : ProxyState} (first : Reports timeout past now x)
    (second : Reports timeout past now y) : x = y := by
  -- The four cases differ in the link report or, with the link up, in being current and complete.
  cases x <;> cases y <;> simp_all [Reports]

theorem derive_state_iff (x : ProxyState) :
    (derive (historySnapshot past) now timeout).proxyState = x ↔ Reports timeout past now x :=
  ⟨fun same => same ▸ (derive_history timeout past now).1,
    reports_unique timeout past now (derive_history timeout past now).1⟩

end Derived

/-- A packed frame that is sent is the frame's wire image. -/
theorem sendFrame_wire {m : Machine} {id : FrameId} {f : Frames} {data : FrameData}
    (packed : sendFrame m id f = some data) : data = f.wire m id := by
  cases id with
  | assist =>
    -- The withheld frame is the one case in which nothing is packed.
    simp only [sendFrame] at packed
    split at packed
    · cases packed
    · exact (Option.some.inj packed).symm
  | _ => exact (Option.some.inj packed).symm

/-- The frames a tick builds after a history. -/
def historyFrames (m : Machine) (p : Publisher) (timeout : ℤ) (past : List Call) (now : ℤ) : Frames :=
  let dv := derive (historySnapshot past) now timeout
  framesFrom m (latestState past) dv.live dv.proxyState.code p.counter p.pluginMajor p.pluginMinor

theorem frames_after (m : Machine) (publisher : Publisher) (past : List Call) (now : ℤ) :
    let proxy := Proxy.after m publisher past
    proxy.publisher.frames m proxy.store now =
      historyFrames m proxy.publisher publisher.timeout past now := by
  -- The store is the history's, and the timeout is the one the publisher was made with.
  obtain ⟨stored, configured⟩ := Proxy.after_store m publisher past
  dsimp only
  unfold Publisher.frames historyFrames
  rw [stored, configured]
  rfl

/-- A frame on the bus is one of the frames its tick built. -/
theorem mem_sentBy {m : Machine} {publisher : Publisher} {past : List Call} {now : ℤ} {frame : Sent}
    (sent : frame ∈ Proxy.sentBy m publisher past now) :
    frame.data = (historyFrames m (Proxy.after m publisher past).publisher publisher.timeout past
      now).wire m frame.id := by
  -- Whatever slot the frame came from, its bytes are packed from the frames of this tick.
  obtain ⟨firing, member, shown⟩ := List.mem_filterMap.mp sent
  rw [Proxy.step, Publisher.tick_fired, Publisher.ready_frames, frames_after] at member
  obtain ⟨s, -, fires⟩ := List.mem_filterMap.mp member
  unfold Slot.firing? at fires
  split at fires
  · cases fires
  · cases fires
    obtain ⟨data, packed, rfl⟩ := Option.map_eq_some_iff.mp shown
    exact sendFrame_wire packed

/-- A frame on the bus holds the state published last, under the proxy state that the history calls for. -/
theorem sent_latest {m : Machine} {publisher : Publisher} {past : List Call} {now : ℤ} {frame : Sent}
    (sent : frame ∈ Proxy.sentBy m publisher past now) :
    ∃ live proxyState counter pluginMajor pluginMinor, (live = true ↔ Live publisher.timeout past now) ∧
      Reports publisher.timeout past now proxyState ∧
      frame.data = (framesFrom m (latestState past) live proxyState.code counter pluginMajor
        pluginMinor).wire m frame.id :=
  -- The tick derives both from the snapshot that the history leaves.
  have derived := derive_history publisher.timeout past now
  ⟨_, _, _, _, _, derived.2, derived.1, mem_sentBy sent⟩

/-- A signal is read from its own frame only. -/
theorem available_own_frame (bytes : FrameId → FrameData) (sig : Signal) :
    (receive fun _ => bytes sig.frame).available sig = (receive bytes).available sig := by
  -- The flag of each signal is read from one frame, which is the one named.
  cases sig <;> rfl

/-- Each signal is advertised under the bit the contract announces it by. -/
theorem capabilityFor_index (sig : Signal) : (capabilityFor sig).index = sig.capabilityBit := by
  -- One signal at a time, as the two tables list them in different orders.
  cases sig <;> rfl

/-- The drivetrain on the wire is the published number, when it names one. -/
theorem drivetrainFrom_defined (n : ℤ) : ((drivetrainFrom n).toNat : ℤ) = definedCode 5 n := by
  by_cases named : 0 ≤ n ∧ n ≤ 5
  · obtain rfl | rfl | rfl | rfl | rfl | rfl : n = 0 ∨ n = 1 ∨ n = 2 ∨ n = 3 ∨ n = 4 ∨ n = 5 := by omega
    all_goals rfl
  · -- Any other number falls through to the unknown drivetrain, which is zero.
    rw [definedCode, if_neg named]
    unfold drivetrainFrom
    split
    case h_6 => rfl
    all_goals exact absurd (by decide) named

/-- The source on the wire is the published number, when it names one. -/
theorem sourceKindFrom_defined (n : ℤ) : ((sourceKindFrom n).toNat : ℤ) = definedCode 3 n := by
  by_cases named : 0 ≤ n ∧ n ≤ 3
  · obtain rfl | rfl | rfl | rfl : n = 0 ∨ n = 1 ∨ n = 2 ∨ n = 3 := by omega
    all_goals rfl
  · -- Any other number falls through to a simulated source, which is zero.
    rw [definedCode, if_neg named]
    unfold sourceKindFrom
    split
    case h_4 => rfl
    all_goals exact absurd (by decide) named

/--
Every frame on the bus is determined by the history of calls before its tick.

The heartbeat carries the state the history calls for, and a proxy that has left its starting state
never returns to it. The capability bits are those of the signals that the latest publish advertises,
and drivetrain, source, and vehicle id are its own. Nothing is revealed while the link or the publish
is missing or stale.
-/
theorem sent_from_history (m : Machine) (publisher : Publisher) (past : List Call) (now : ℤ)
    (frame : Sent) (sent : frame ∈ Proxy.sentBy m publisher past now) :
    let received := receive fun _ => frame.data
    (frame.id = .status →
      (∀ x : ProxyState, received.status.proxyState = x.code ↔
        Reports publisher.timeout past now x) ∧
      (received.status.proxyState ≠ ProxyState.starting.code →
        ∀ more later, ∀ next ∈ Proxy.sentBy m publisher (past ++ .tick now :: more) later,
          next.id = .status →
          (receive fun _ => next.data).status.proxyState ≠ ProxyState.starting.code) ∧
      ∀ i, Bits.mem received.status.capabilities i = true ↔
        ∃ sig : Signal, Bits.mem (latestState past).capable sig.index = true ∧ sig.capabilityBit = i) ∧
    (frame.id = .identity →
      (received.identity.drivetrain.toNat : ℤ) = definedCode 5 (latestState past).drivetrain ∧
      (received.identity.sourceKind.toNat : ℤ) = definedCode 3 (latestState past).source ∧
      received.identity.vehicleId = (latestState past).vehicleId) ∧
    (¬Live publisher.timeout past now →
      (∀ sig : Signal, sig.frame = frame.id → received.available sig = false) ∧
      (frame.id = .telltales → received.telltales.bits = 0)) := by
  -- The proxy state of any heartbeat, for the states of this tick and of later ones.
  have state : ∀ past now, ∀ frame ∈ Proxy.sentBy m publisher past now, frame.id = .status →
      ∀ x : ProxyState, (receive fun _ => frame.data).status.proxyState = x.code ↔
        Reports publisher.timeout past now x := by
    intro past now frame sent named x
    rw [mem_sentBy sent, named, ← derive_state_iff, ← ProxyState.code_inj]
    simp only [receive, Frames.wire, unpackStatus_packStatus]
    rfl
  have data := mem_sentBy sent
  intro received
  refine ⟨fun named => ⟨state past now frame sent named, ?_, fun i => ?_⟩, fun named => ?_,
    fun silent => ⟨?_, ?_⟩⟩
  · intro left more later next sentLater namedLater starting
    -- The link was known here, so it is known at every later tick.
    have known : latestLink past ≠ none := fun unknown =>
      left ((state past now frame sent named .starting).mpr unknown)
    exact latestLink_append_ne_none known _
      ((state _ later next sentLater namedLater .starting).mp starting)
  · have advertised : received.status.capabilities = capabilitiesFrom (latestState past).capable := by
      simp only [received, data, named, receive, Frames.wire, unpackStatus_packStatus, historyFrames,
        framesFrom, capabilitiesFrom_assigned]
    simp only [advertised, mem_capabilitiesFrom, capabilityFor_index]
  · have identity : received.identity.drivetrain = drivetrainFrom (latestState past).drivetrain ∧
        received.identity.sourceKind = sourceKindFrom (latestState past).source ∧
        received.identity.vehicleId = (latestState past).vehicleId := by
      simp only [received, data, named, receive, Frames.wire, unpackIdentity_packIdentity,
        historyFrames, framesFrom, and_self]
    obtain ⟨drivetrain, source, vehicle⟩ := identity
    rw [drivetrain, source, drivetrainFrom_defined, sourceKindFrom_defined]
    exact ⟨rfl, rfl, vehicle⟩
  · intro sig carried
    -- A history that is not live closes the gate of every signal.
    have dark := (derive_history publisher.timeout past now).2.not.mpr silent
    rw [Bool.not_eq_true] at dark
    rw [show received = receive fun _ => _ from congrArg (fun d => receive fun _ => d) data, ← carried,
      available_own_frame, historyFrames, available_decoded, dark]
    rfl
  · intro named
    -- The lamps carry no gate of their own, but the mapping clears them with the same flag.
    have dark := (derive_history publisher.timeout past now).2.not.mpr silent
    rw [Bool.not_eq_true] at dark
    simp [received, data, named, receive, Frames.wire, unpackTelltales_packTelltales, historyFrames,
      framesFrom, dark]

/--
A plug-in hybrid is reported present and publishes its speed.

The tick behind the publish says that all is fresh, under the speed's bit alone, and whose the vehicle is.
-/
theorem sent_from_history_present :
    let s := { VehicleState.zero with
      capable := Signal.speed.bit, valid := Signal.speed.bit, drivetrain := cpDrivetrainPhev,
      source := cpSourceLive, vehicleId := 7 }
    let sent := Proxy.sentBy Machine.indefinite (Publisher.new 1000000000 1 0)
      [.setLink true 5, .publish s 6] 20
    (∃ frame ∈ sent, (receive fun _ => frame.data).status.proxyState = ProxyState.ok.code ∧
      ∀ i, Bits.mem (receive fun _ => frame.data).status.capabilities i = true ↔ i = 0) ∧
    ∃ frame ∈ sent, (receive fun _ => frame.data).identity.drivetrain.toNat = 4 ∧
      (receive fun _ => frame.data).identity.sourceKind.toNat = 2 ∧
      (receive fun _ => frame.data).identity.vehicleId = 7 := by
  intro s sent
  have determined := sent_from_history Machine.indefinite (Publisher.new 1000000000 1 0)
    [.setLink true 5, .publish s 6] 20
  constructor
  · obtain ⟨frame, member, named⟩ : ∃ frame ∈ sent, frame.id = .status := by decide +kernel
    obtain ⟨reported, -, advertised⟩ := (determined frame member).1 named
    refine ⟨frame, member, (reported .ok).mpr ⟨rfl, ⟨s, 6, rfl, by decide⟩, fun _ => id⟩, fun i => ?_⟩
    rw [advertised]
    constructor
    · rintro ⟨sig, capable, rfl⟩
      revert capable
      cases sig <;> decide
    · rintro rfl
      exact ⟨.speed, by decide, rfl⟩
  · obtain ⟨frame, member, named⟩ : ∃ frame ∈ sent, frame.id = .identity := by decide +kernel
    obtain ⟨drivetrain, source, vehicle⟩ := (determined frame member).2.1 named
    exact ⟨frame, member, Int.ofNat.inj drivetrain, Int.ofNat.inj source, vehicle⟩

/--
A tick that reports every advertised signal fresh reveals every advertised signal, exactly when the
publish behind the report holds no gear, power state, or charging state outside its enumeration.
-/
theorem ok_reveals_iff (m : Machine) (publisher : Publisher) (past : List Call) (now : ℤ) :
    let proxy := Proxy.after m publisher past
    let built := receive ((proxy.publisher.frames m proxy.store now).wire m)
    (built.status.proxyState = ProxyState.ok.code →
      ∀ sig : Signal, Bits.mem proxy.store.state.capable sig.index = true →
        built.available sig = true) ↔
    (latestLink past = some true → Current publisher.timeout past now →
      (latestState past).AllFresh →
      ∀ sig : Signal, Bits.mem (latestState past).capable sig.index = true →
        (latestState past).enumerated sig = true) := by
  intro proxy built
  -- What the tick builds, and what the heartbeat in it says, are read off the history.
  have frames : built = receive ((historyFrames m proxy.publisher publisher.timeout past now).wire m) := by
    rw [← frames_after]
  have stored : proxy.store.state = latestState past := by
    rw [(Proxy.after_store m publisher past).1]
    rfl
  have reported : built.status.proxyState = ProxyState.ok.code ↔
      latestLink past = some true ∧ Current publisher.timeout past now ∧
        (latestState past).AllFresh := by
    rw [frames]
    simp only [receive, Frames.wire, unpackStatus_packStatus, historyFrames, framesFrom]
    rw [ProxyState.code_inj, derive_state_iff]
    rfl
  rw [reported, stored]
  -- Under such a report the plugin is live and valid covers capable, so only the enumerator decides.
  have revealed : latestLink past = some true → Current publisher.timeout past now →
      (latestState past).AllFresh → ∀ sig : Signal,
        Bits.mem (latestState past).capable sig.index = true →
        built.available sig = (latestState past).enumerated sig := by
    intro link current complete sig capable
    have live := (derive_history publisher.timeout past now).2.mpr ⟨link, current⟩
    rw [frames, historyFrames, available_decoded, has_eq, live, complete sig.index capable, capable]
    rfl
  -- Both directions read one signal at a time through the enumerator.
  constructor
  · intro shown link current complete sig capable
    rw [← revealed link current complete sig capable]
    exact shown ⟨link, current, complete⟩ sig capable
  · rintro defined ⟨link, current, complete⟩ sig capable
    rw [revealed link current complete sig capable]
    exact defined link current complete sig capable

/-- Gear 77 is advertised and marked valid: the heartbeat says all fresh, the motion frame hides it. -/
theorem ok_hides_gear :
    let s := { VehicleState.zero with capable := Signal.gear.bit, valid := Signal.gear.bit, gear := 77 }
    let proxy := Proxy.after Machine.indefinite (Publisher.new 1000000000 1 0)
      [.setLink true 0, .publish s 0]
    let built := receive ((proxy.publisher.frames Machine.indefinite proxy.store 0).wire
      Machine.indefinite)
    built.status.proxyState = ProxyState.ok.code ∧
      Bits.mem proxy.store.state.capable Signal.gear.index = true ∧
      built.available .gear = false := by
  decide +kernel

end CanProxy
