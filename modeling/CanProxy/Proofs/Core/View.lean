import CanProxy.Proofs.Core.Daemon
import CanProxy.Proofs.Core.Deadlines

/-! What a consumer has on its display: the last frame of each kind, and how old it can be. -/

namespace CanProxy

open Numeric

section LastFrame

variable {id : FrameId} {log more : List Sent}

/-- Frames of other kinds do not replace the last one. -/
theorem lastFrame_append_other (other : ∀ frame ∈ more, frame.id ≠ id) :
    lastFrame id (log ++ more) = lastFrame id log := by
  -- Only frames of the kind count, and there are none.
  have none : more.filter (·.id = id) = [] := List.filter_eq_nil_iff.mpr (by simpa using other)
  rw [lastFrame, List.filter_append, none, List.append_nil, ← lastFrame]

/-- The last frame is among those that were sent last, if one of its kind is. -/
theorem lastFrame_append_own {frame : Sent} (own : frame ∈ more) (named : frame.id = id) :
    ∃ last ∈ more, last.id = id ∧ lastFrame id (log ++ more) = some last := by
  have present : frame ∈ more.filter (·.id = id) := List.mem_filter.mpr ⟨own, by simpa using named⟩
  -- There is a last one of the kind, since there is one at all.
  cases found : (more.filter (·.id = id)).getLast? with
  | none =>
    rw [List.getLast?_eq_none_iff.mp found] at present
    cases present
  | some last =>
    obtain ⟨member, same⟩ := List.mem_filter.mp (List.mem_of_getLast? found)
    refine ⟨last, member, by simpa using same, ?_⟩
    rw [lastFrame, List.filter_append, List.getLast?_append, found, Option.some_or]

end LastFrame

section Tick

variable (m : Machine) (p : Publisher) (snap : Snapshot) (now : ℤ) (id : FrameId)

/-- A tick that finds a frame's deadline ahead sends no frame of the kind. -/
theorem tick_sends_none (early : now < (p.ready now).due id) :
    ∀ frame ∈ (p.tick m snap now).fired.filterMap Firing.frame, frame.id ≠ id := by
  -- The firings of a kind are those of its timer, which does not fire early.
  have silent := p.tick_firingTimes m snap now id
  rw [Timer.step_early early] at silent
  intro frame sent named
  obtain ⟨firing, fired, shown⟩ := List.mem_filterMap.mp sent
  obtain ⟨data, -, rfl⟩ := Option.map_eq_some_iff.mp shown
  have timed := List.filterMap_eq_nil_iff.mp silent firing fired
  rw [Firing.timeOf, if_pos named] at timed
  cases timed

/-- A tick that finds a frame's deadline reached sends one, unless it is the optional one. -/
theorem tick_sends (reached : (p.ready now).due id ≤ now) (required : id ≠ .assist) :
    ∃ frame ∈ (p.tick m snap now).fired.filterMap Firing.frame, frame.id = id := by
  have timed : now ∈ firingTimes id (p.tick m snap now).fired := by
    rw [p.tick_firingTimes m snap now id, Timer.step_due reached]
    exact List.mem_singleton_self now
  obtain ⟨firing, fired, shown⟩ := List.mem_filterMap.mp timed
  have named : firing.id = id := by
    unfold Firing.timeOf at shown
    split at shown
    · assumption
    · cases shown
  -- Only the driver assist frame can be due and yet have nothing to send.
  rw [Publisher.tick_fired] at fired
  obtain ⟨s, -, made⟩ := List.mem_filterMap.mp fired
  unfold Slot.firing? at made
  split at made
  · cases made
  · cases made
    obtain ⟨data, packed⟩ := Option.isSome_iff_exists.mp
      ((sendFrame_isSome m s.id ((p.ready now).frames m snap now)).mpr fun optional =>
        absurd (named.symm.trans optional) required)
    rw [← Publisher.tick_fired] at fired
    exact ⟨⟨now, s.id, data⟩, List.mem_filterMap.mpr ⟨_, fired, by rw [Firing.frame, packed]; rfl⟩, named⟩

end Tick

/-- A consumer has each kind of frame as one tick sent it, and that was at most a cycle before the last tick. -/
structure Displays (m : Machine) (publisher : Publisher) (id : FrameId) (past : List Call)
    (log : List Sent) (proxy : Proxy) : Prop where
  /-- The schedule is armed by the first tick. -/
  started : proxy.publisher.armed = true ↔ tickTimes past ≠ []
  shown : ∀ last ∈ (tickTimes past).getLast?, ∃ before now rest frame,
    past = before ++ .tick now :: rest ∧ frame ∈ Proxy.sentBy m publisher before now ∧ frame.id = id ∧
      lastFrame id log = some frame ∧ last ≤ now + id.cycle ∧ proxy.publisher.due id ≤ now + id.cycle

section Step

variable {m : Machine} {publisher : Publisher} {id : FrameId} {past : List Call} {log : List Sent}

/-- What the plugin calls leaves the display alone. -/
theorem Displays.call {proxy : Proxy} (displays : Displays m publisher id past log proxy) {call : Call}
    (quiet : call.tick? = none) {store : Snapshot} :
    Displays m publisher id (past ++ [call]) log { proxy with store := store } := by
  -- A call of the plugin is no tick, and nothing is sent for it.
  have ticks : tickTimes (past ++ [call]) = tickTimes past := by
    simp [tickTimes, quiet]
  refine ⟨by rw [ticks]; exact displays.started, fun last member => ?_⟩
  rw [ticks] at member
  obtain ⟨before, now, rest, frame, rfl, shown⟩ := displays.shown last member
  exact ⟨before, now, rest ++ [call], frame, by simp, shown⟩

/-- A tick replaces what is displayed, or comes before it is due. -/
theorem Displays.tick (displays : Displays m publisher id past log (Proxy.after m publisher past))
    (required : id ≠ .assist) (now : ℤ) :
    let proxy := Proxy.after m publisher past
    let ticked := proxy.publisher.tick m proxy.store now
    Displays m publisher id (past ++ [.tick now]) (log ++ ticked.fired.filterMap Firing.frame)
      { proxy with publisher := ticked.publisher } := by
  intro proxy ticked
  have ticks : tickTimes (past ++ [.tick now]) = tickTimes past ++ [now] := by
    simp [tickTimes, Call.tick?]
  have moved := proxy.publisher.tick_due m proxy.store now id
  have cycle := id.cycle_pos
  refine ⟨iff_of_true (Publisher.tick_armed ..) (by simp [ticks]), fun last member => ?_⟩
  rw [ticks, List.getLast?_concat] at member
  cases member
  by_cases early : now < (proxy.publisher.ready now).due id
  · -- The schedule was armed before, so there is a frame, and its deadline is still ahead.
    have other := tick_sends_none m _ proxy.store now id early
    have ready := Publisher.ready_of_early early
    have armed : proxy.publisher.armed = true := by
      rw [← ready]
      exact Publisher.ready_armed _ now
    obtain ⟨last, latest⟩ := Option.ne_none_iff_exists'.mp
      (mt List.getLast?_eq_none_iff.mp (displays.started.mp armed))
    obtain ⟨before, time, rest, frame, split, sent, named, shown, -, due⟩ := displays.shown last latest
    rw [Timer.step_early early, ready] at moved
    rw [ready] at early
    refine ⟨before, time, rest ++ [.tick now], frame, by simp [split], sent, named, ?_, ?_, ?_⟩
    · rw [lastFrame_append_other other]
      exact shown
    · exact early.le.trans due
    · exact moved.trans_le due
  · have reached := not_lt.mp early
    obtain ⟨frame, sent, named⟩ :=
      tick_sends m _ proxy.store now id reached required
    obtain ⟨shown, fired, own, displayed⟩ := @lastFrame_append_own _ log _ _ sent named
    rw [Timer.step_due reached] at moved
    refine ⟨past, now, [], shown, by simp, fired, own, displayed, by omega, ?_⟩
    exact moved.trans_le (Timer.advance_le reached)

end Step

/-- In every run of a publisher that was not armed before, a consumer has every frame but the optional one. -/
theorem displays_run (m : Machine) {publisher : Publisher} (fresh : publisher.armed = false) {id : FrameId}
    (required : id ≠ .assist) (calls : List Call) :
    Displays m publisher id calls (Proxy.transmitted m publisher calls) (Proxy.after m publisher calls) := by
  -- The display is kept call by call, and is that of nothing before the first tick.
  refine Run.invariant (Proxy.step m) (P := fun past log proxy =>
    Displays m publisher id past (log.filterMap Firing.frame) proxy) ?_ ?_
  · exact ⟨by simp [Proxy.start, fresh, tickTimes], nofun⟩
  · intro past call _ displays
    rw [List.filterMap_append]
    cases call with
    | tick now => exact displays.tick required now
    | publish s now =>
      rw [show (Proxy.step m _ (Call.publish s now)).2 = [] from rfl, List.filterMap_nil, List.append_nil]
      exact displays.call rfl
    | setLink present now =>
      rw [show (Proxy.step m _ (Call.setLink present now)).2 = [] from rfl, List.filterMap_nil,
        List.append_nil]
      exact displays.call rfl

/-- Of two places in a run, the one with the later call comes later. -/
theorem later_of_lt {first second before rest : List Call} {call later : Call}
    (same : first ++ call :: second = before ++ later :: rest)
    (ordered : ((first ++ call :: second).map Call.time).Pairwise (· ≤ ·)) (lt : call.time < later.time) :
    ∃ mid, before = first ++ call :: mid ∧ second = mid ++ later :: rest := by
  -- The two calls split the same run; whichever is first has the other in its rest.
  rcases List.append_eq_append_iff.mp same with ⟨more, rfl, split⟩ | ⟨more, rfl, split⟩
  · cases more with
    | nil =>
      obtain ⟨rfl, -⟩ := List.cons.inj split
      exact absurd lt (lt_irrefl _)
    | cons next mid =>
      obtain ⟨rfl, rfl⟩ := List.cons.inj split
      exact ⟨mid, rfl, rfl⟩
  · -- The later call would have been made before the earlier one.
    cases more with
    | nil =>
      obtain ⟨rfl, -⟩ := List.cons.inj split
      exact absurd lt (lt_irrefl _)
    | cons next mid =>
      obtain ⟨rfl, rfl⟩ := List.cons.inj split
      rw [List.append_assoc, List.map_append, List.pairwise_append] at ordered
      have wrong := (List.pairwise_cons.mp ordered.2.1).1 call.time (List.mem_map_of_mem (by simp))
      exact absurd lt (not_lt.mpr wrong)

section Arrival

variable (m : Machine) {publisher : Publisher} (fresh : publisher.armed = false) {id : FrameId}
  (required : id ≠ .assist) {first second : List Call} {call : Call}
  (ordered : ((first ++ call :: second).map Call.time).Pairwise (· ≤ ·)) {last lateness time : ℤ}
  (ticked : (tickTimes (first ++ call :: second)).getLast? = some last) (recent : time ≤ last + lateness)
  (later : call.time + id.cycle + lateness < time)

include fresh required ordered ticked recent later

/-- What was received last was sent after every call that is more than a cycle and the lateness old. -/
theorem sent_after_call :
    ∃ frame mid now rest,
      lastFrame id (Proxy.transmitted m publisher (first ++ call :: second)) = some frame ∧
      frame.id = id ∧ second = mid ++ .tick now :: rest ∧ call.time < now ∧
      frame ∈ Proxy.sentBy m publisher (first ++ call :: mid) now := by
  obtain ⟨before, now, rest, frame, split, sent, named, shown, near, -⟩ :=
    (displays_run m fresh required (first ++ call :: second)).shown last ticked
  -- What is displayed is too young to have been sent before the call.
  have lt : call.time < now := by omega
  obtain ⟨mid, rfl, rfl⟩ := later_of_lt split ordered lt
  exact ⟨frame, mid, now, rest, shown, named, rfl, lt, sent⟩

end Arrival

/-- A speed, as a plugin publishes it. -/
private def moving : VehicleState :=
  { VehicleState.zero with
    capable := Signal.speed.bit, valid := Signal.speed.bit, speedKmh := .finite 60 }

/-- A run that publishes it once, with a tick ten milliseconds late. -/
private def drive : List Call := [.tick 0, .setLink true 0, .publish moving 0, .tick 60000000]

/--
A publish is on every display within a cycle of the frame and the lateness of the ticks.

In any run in order of time, at any time that is no more than the lateness after the last tick, what
was received last of a frame holds a state published at most a cycle and the lateness ago, if one was
published since: all its bytes are made from that state. It shows a signal exactly while that state has
it and was current when it was sent. The driver assist frame is the exception, since it may be withheld.
-/
theorem publish_arrives (m : Machine) {publisher : Publisher} (fresh : publisher.armed = false)
    {id : FrameId} (required : id ≠ .assist) {first second : List Call} {s : VehicleState} {called : ℤ}
    (ordered : ((first ++ .publish s called :: second).map Call.time).Pairwise (· ≤ ·))
    {last lateness time : ℤ} (ticked : (tickTimes (first ++ .publish s called :: second)).getLast? = some last)
    (recent : time ≤ last + lateness) (later : called + id.cycle + lateness < time) :
    ∃ frame past now s' called',
      lastFrame id (Proxy.transmitted m publisher (first ++ .publish s called :: second)) = some frame ∧
      past ++ [.tick now] <+: first ++ .publish s called :: second ∧
      frame ∈ Proxy.sentBy m publisher past now ∧
      latestPublish past = some (s', called') ∧ called ≤ called' ∧ called' ≤ now ∧
      (∃ live proxyState counter pluginMajor pluginMinor, (live = true ↔ Live publisher.timeout past now) ∧
        Reports publisher.timeout past now proxyState ∧
        frame.data = (framesFrom m s' live proxyState.code counter pluginMajor pluginMinor).wire m id) ∧
      ∀ sig, sig.frame = id → ((receive fun _ => frame.data).available sig = true ↔
        Live publisher.timeout past now ∧ Bits.mem s'.valid sig.index = true ∧
          Bits.mem s'.capable sig.index = true ∧ s'.enumerated sig = true) := by
  obtain ⟨frame, mid, now, rest, shown, named, rfl, lt, sent⟩ :=
    sent_after_call m fresh required ordered ticked recent later
  obtain ⟨newest, found⟩ : ∃ newest, (mid.filterMap Call.published?).getLast?.getD (s, called) = newest :=
    ⟨_, rfl⟩
  obtain ⟨s', called'⟩ := newest
  have latest : latestPublish (first ++ .publish s called :: mid) = some (s', called') := by
    rw [← found]
    exact Run.last_split Call.published? first mid rfl
  -- Of the publishes between that one and the tick, none is earlier or later than those two.
  have between : called ≤ called' ∧ called' ≤ now := by
    rw [List.map_append, List.pairwise_append] at ordered
    obtain ⟨earlier, among⟩ := List.pairwise_cons.mp ordered.2.1
    rw [List.map_append, List.pairwise_append] at among
    cases none : (mid.filterMap Call.published?).getLast? with
    | none =>
      rw [none] at found
      cases found
      exact ⟨le_refl _, lt.le⟩
    | some newest =>
      rw [none] at found
      cases found
      obtain ⟨call, member, published⟩ := List.mem_filterMap.mp (List.mem_of_getLast? none)
      obtain rfl : call = .publish s' called' := by
        cases call with
        | publish => cases published; rfl
        | _ => cases published
      exact ⟨earlier _ (List.mem_map_of_mem (List.mem_append_left _ member)),
        among.2.2 _ (List.mem_map_of_mem member) now (by simp [Call.time])⟩
  have state : latestState (first ++ .publish s called :: mid) = s' := by
    rw [latestState, latest]
    rfl
  have made := sent_latest sent
  rw [state, named] at made
  refine ⟨frame, first ++ .publish s called :: mid, now, s', called', shown, by simp, sent, latest, between.1,
    between.2, made, fun sig own => ?_⟩
  rw [available_iff sent (own.trans named.symm), state]

/-- What was published at the start is in the motion frame received sixty-five milliseconds later. -/
theorem publish_arrives_motion :
    ∃ frame past now s called live proxyState counter pluginMajor pluginMinor,
      lastFrame .motion (Proxy.transmitted Machine.indefinite (Publisher.new 1000000000 1 0) drive) =
        some frame ∧
      frame ∈ Proxy.sentBy Machine.indefinite (Publisher.new 1000000000 1 0) past now ∧
      latestPublish past = some (s, called) ∧ 0 ≤ called ∧
      frame.data = (framesFrom Machine.indefinite s live proxyState counter pluginMajor pluginMinor).wire
        Machine.indefinite .motion := by
  obtain ⟨frame, past, now, s, called, shown, -, sent, latest, low, -, made, -⟩ :=
    @publish_arrives Machine.indefinite (Publisher.new 1000000000 1 0) rfl .motion nofun
      [.tick 0, .setLink true 0] [.tick 60000000] moving 0 (by decide) 60000000 10000000 65000000
      (by decide) (by decide) (by decide)
  obtain ⟨live, proxyState, counter, pluginMajor, pluginMinor, -, -, data⟩ := made
  exact ⟨frame, past, now, s, called, live, _, counter, pluginMajor, pluginMinor, shown, sent, latest, low, data⟩

/--
When the vehicle is gone, every display is blank within a cycle of the frame and the lateness of the ticks.

From that time on, and until the plugin tells of a vehicle again, nothing is shown and the heartbeat
says that there is no vehicle, whatever the plugin goes on to publish. The driver assist frame is the
exception, since it may be withheld.
-/
theorem gone_blanks (m : Machine) {publisher : Publisher} (fresh : publisher.armed = false)
    {id : FrameId} (required : id ≠ .assist) {first second : List Call} {told : ℤ}
    (ordered : ((first ++ .setLink false told :: second).map Call.time).Pairwise (· ≤ ·))
    (still : ∀ call ∈ second, call.link? ≠ some true) {last lateness time : ℤ}
    (ticked : (tickTimes (first ++ .setLink false told :: second)).getLast? = some last)
    (recent : time ≤ last + lateness) (later : told + id.cycle + lateness < time) :
    ∃ frame,
      lastFrame id (Proxy.transmitted m publisher (first ++ .setLink false told :: second)) = some frame ∧
      (∀ sig, sig.frame = id → (receive fun _ => frame.data).available sig = false) ∧
      (id = .status → (receive fun _ => frame.data).status.proxyState = ProxyState.noVehicle.code) := by
  obtain ⟨frame, mid, now, rest, shown, named, rfl, -, sent⟩ :=
    sent_after_call m fresh required ordered ticked recent later
  -- The plugin has told of no vehicle since.
  have link : latestLink (first ++ .setLink false told :: mid) = some false := by
    rw [latestLink, ← Run.last, Run.last_split Call.link? first mid rfl]
    cases found : Run.last Call.link? mid with
    | none => rfl
    | some present =>
      obtain ⟨call, member, same⟩ := List.mem_filterMap.mp (List.mem_of_getLast? found)
      cases present with
      | false => rfl
      | true => exact absurd same (still call (by simp [member]))
  refine ⟨frame, shown, fun sig own => Bool.eq_false_iff.mpr fun available => ?_, fun status => ?_⟩
  · obtain ⟨live, -⟩ := (available_iff sent (own.trans named.symm)).mp available
    cases link.symm.trans live.1
  · have state := (derive_state_iff publisher.timeout (first ++ .setLink false told :: mid) now
      .noVehicle).mpr link
    simp only [mem_sentBy sent, named, status, receive, Frames.wire, unpackStatus_packStatus, historyFrames,
      framesFrom, state]

/-- A car that is parked is off the display, and the heartbeat says so. -/
theorem gone_blanks_parked :
    ∃ frame,
      lastFrame .status (Proxy.transmitted Machine.indefinite (Publisher.new 1000000000 1 0)
        (drive ++ .setLink false 70000000 :: [.publish moving 80000000, .tick 200000000])) = some frame ∧
      (receive fun _ => frame.data).status.proxyState = ProxyState.noVehicle.code := by
  obtain ⟨frame, shown, -, gone⟩ :=
    @gone_blanks Machine.indefinite (Publisher.new 1000000000 1 0) rfl .status nofun
      drive [.publish moving 80000000, .tick 200000000] 70000000 (by decide) (by decide)
      200000000 10000000 205000000 (by decide) (by decide) (by decide)
  exact ⟨frame, shown, gone rfl⟩

end CanProxy
