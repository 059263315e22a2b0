import CanProxy.Core.History
import CanProxy.Proofs.Core.Availability
import CanProxy.Proofs.Core.Deadlines

/-! The driver assist frame follows the heartbeat that announces it. -/

namespace CanProxy

open Numeric

/-- A state advertises the driver assist frame. -/
def VehicleState.AdvertisesAssist (s : VehicleState) : Prop :=
  capabilitiesFrom s.capable &&& Capability.assist.bit ≠ 0

instance (s : VehicleState) : Decidable s.AdvertisesAssist := inferInstanceAs (Decidable (_ ≠ _))

/-- Each driver assist frame of a log comes after a heartbeat that announces it. -/
def AssistAnnounced (log : List Sent) : Prop :=
  Run.Each (fun before frame => frame.id = .assist → Announced before) log

/--
A call that first advertises the driver assist frame comes while the heartbeat's deadline is not
behind the driver assist frame's.
-/
def Proxy.HeartbeatNext (proxy : Proxy) (call : Call) : Prop :=
  ∀ s now, call = .publish s now → s.AdvertisesAssist →
    proxy.store.state.AdvertisesAssist ∨
      proxy.publisher.due .status ≤ proxy.publisher.due .assist

section Log

variable {log more : List Sent}

/-- Frames that are no heartbeat leave the last one in place. -/
theorem announced_append (others : ∀ f ∈ more, f.id ≠ .status) :
    Announced (log ++ more) ↔ Announced log := by
  -- Only frames under the heartbeat's identifier are looked for.
  have none : more.filter (·.id = .status) = [] := by simpa using others
  unfold Announced lastHeartbeat
  rw [List.filter_append, none, List.append_nil]

/-- A heartbeat with the capability announces the frame. -/
theorem announced_status {status : Sent} (heartbeat : status.id = .status)
    (bit : (unpackStatus status.data).capabilities &&& Capability.assist.bit ≠ 0) :
    Announced (log ++ [status]) := by
  -- The newest heartbeat is the last one.
  refine ⟨status, ?_, bit⟩
  simp [lastHeartbeat, heartbeat]

/-- The driver assist frame closes a tick whose heartbeat, or an earlier one, announced it. -/
theorem assistAnnounced_tick {head others tail : List Sent} (earlier : AssistAnnounced log)
    (heartbeat : ∀ f ∈ head, f.id = .status) (plain : ∀ f ∈ others, f.id ≠ .status ∧ f.id ≠ .assist)
    (single : tail = [] ∨ ∃ frame, tail = [frame] ∧ frame.id = .assist)
    (announced : tail ≠ [] → Announced (log ++ head)) :
    AssistAnnounced (log ++ (head ++ others ++ tail)) := by
  -- Neither the heartbeat nor the plain frames are the driver-assist frame, so they need no check.
  have before : AssistAnnounced (log ++ (head ++ others)) := by
    refine Run.each_append earlier fun f member _ named => ?_
    rcases List.mem_append.mp member with member | member
    · rw [heartbeat f member] at named
      cases named
    · exact absurd named (plain f member).2
  rcases single with rfl | ⟨frame, rfl, -⟩
  · rwa [List.append_nil]
  · rw [← List.append_assoc]
    refine Run.each_concat before fun _ => ?_
    rw [← List.append_assoc]
    exact (announced_append fun f member => (plain f member).1).mpr (announced (by simp))

end Log

/-- What the bus sees of one slot at a tick. -/
def Slot.frame? (m : Machine) (f : Frames) (now : ℤ) (s : Slot) : Option Sent :=
  (s.firing? m f now).bind Firing.frame

/-- A slot sends under its own identifier. -/
theorem Slot.frame?_id {m : Machine} {f : Frames} {now : ℤ} {s : Slot} {frame : Sent}
    (sent : s.frame? m f now = some frame) : frame.id = s.id := by
  -- A slot that is not due sends nothing, and a due one writes its own identifier.
  unfold Slot.frame? Slot.firing? at sent
  split at sent
  · cases sent
  · obtain ⟨data, -, rfl⟩ := Option.map_eq_some_iff.mp sent
    rfl

/-- A slot sends when it is due, the optional frame with its capability only. -/
theorem Slot.frame?_isSome (m : Machine) (f : Frames) (now : ℤ) (s : Slot) :
    (s.frame? m f now).isSome = true ↔
      s.due ≤ now ∧ (s.id = .assist → f.status.capabilities &&& Capability.assist.bit ≠ 0) := by
  rw [← sendFrame_isSome m]
  unfold Slot.frame? Slot.firing?
  by_cases early : now < s.due
  · simp [early]
  · simp [Firing.frame, early, not_lt.mp early]

/-- The heartbeat's slot comes first and the driver assist frame's last. -/
theorem Publisher.slots_split (p : Publisher) :
    ∃ first middle last, p.slots = first :: (middle ++ [last]) ∧ first.id = .status ∧
      last.id = .assist ∧ ∀ o ∈ middle, o.id ≠ .status ∧ o.id ≠ .assist := by
  -- The sending order fixes both ends of the slot list and what can lie between them.
  obtain ⟨first, rest, slots, named, others⟩ := List.map_eq_cons_iff.mp p.ordered
  have parted : rest.map (·.id) =
      [.identity, .motion, .edrive, .telltales, .energy, .trip, .thermal] ++ [.assist] := others
  obtain ⟨middle, lasts, rfl, inner, final⟩ := List.map_eq_append_iff.mp parted
  obtain ⟨last, rfl, named'⟩ := List.map_eq_singleton_iff.mp final
  refine ⟨first, middle, last, slots, named, named', fun o member => ?_⟩
  have listed : o.id ∈ middle.map (·.id) := List.mem_map_of_mem member
  rw [inner] at listed
  cases id : o.id <;> simp_all

/--
What a tick sends: the heartbeat if due, the other frames, and last the driver assist frame.

The heartbeat announces what the store advertises, and without that there is no driver assist frame.
-/
theorem Publisher.tick_frames (m : Machine) (p : Publisher) (snap : Snapshot) (now : ℤ) :
    ∃ head others tail, (p.tick m snap now).fired.filterMap Firing.frame = head ++ others ++ tail ∧
      (now < (p.ready now).due .status ∧ head = [] ∨
        (p.ready now).due .status ≤ now ∧ ∃ status : Sent, head = [status] ∧ status.id = .status ∧
          (snap.state.AdvertisesAssist →
            (unpackStatus status.data).capabilities &&& Capability.assist.bit ≠ 0)) ∧
      (∀ o ∈ others, o.id ≠ .status ∧ o.id ≠ .assist) ∧
      (¬((p.ready now).due .assist ≤ now ∧ snap.state.AdvertisesAssist) ∧ tail = [] ∨
        ((p.ready now).due .assist ≤ now ∧ snap.state.AdvertisesAssist) ∧
          ∃ assist : Sent, tail = [assist] ∧ assist.id = .assist) := by
  obtain ⟨first, middle, last, split, heartbeat, assist, others⟩ := (p.ready now).slots_split
  have firstDue : (p.ready now).due .status = first.due := by
    rw [← heartbeat, due_of_mem (by simp [split])]
  have lastDue : (p.ready now).due .assist = last.due := by
    rw [← assist, due_of_mem (by simp [split])]
  let f := p.frames m snap now
  -- The three parts of the slot list send the three parts of the log.
  refine ⟨[first].filterMap (Slot.frame? m f now), middle.filterMap (Slot.frame? m f now),
    [last].filterMap (Slot.frame? m f now), ?_, ?_, fun o member => ?_, ?_⟩
  · rw [tick_fired, ready_frames, List.filterMap_filterMap, ← List.filterMap_append,
      ← List.filterMap_append, split]
    rfl
  · rw [firstDue]
    -- A heartbeat that is due is always sent, and its bitmap is the one computed for this tick.
    by_cases early : now < first.due
    · exact .inl ⟨early, by simp [Slot.frame?, Slot.firing?, early]⟩
    · refine .inr ⟨not_lt.mp early, ⟨now, .status, packStatus f.status⟩, ?_, rfl, fun advertised => ?_⟩
      · simp [Slot.frame?, Slot.firing?, Firing.frame, sendFrame, early, heartbeat]
      · rw [unpackStatus_packStatus]
        exact (capabilitiesFrom_assigned snap.state.capable).symm ▸ advertised
  · obtain ⟨s, inner, sent⟩ := List.mem_filterMap.mp member
    rw [Slot.frame?_id sent]
    exact others s inner
  · -- The last slot sends when it is due and the bitmap computed for this tick has its bit.
    have sends : (last.frame? m f now).isSome = true ↔
        last.due ≤ now ∧ snap.state.AdvertisesAssist := by
      rw [Slot.frame?_isSome, assist]
      exact and_congr_right fun _ => ⟨fun kept => kept rfl, fun advertised _ => advertised⟩
    rw [lastDue, ← sends]
    cases sent : last.frame? m f now with
    | none => exact .inl ⟨by simp, by simp [sent]⟩
    | some frame =>
      exact .inr ⟨rfl, frame, by simp [sent], (Slot.frame?_id sent).trans assist⟩

/-- A tick leaves a deadline that is still ahead where it is. -/
theorem Publisher.tick_due_early (m : Machine) {p : Publisher} (snap : Snapshot) {now : ℤ}
    {id : FrameId} (same : p.ready now = p) (ahead : now < p.due id) :
    (p.tick m snap now).publisher.due id = p.due id := by
  -- Such a slot is looked at by the tick, but does not fire.
  rw [tick_due, same, Timer.step_early ahead]

/--
The log is in order, and until it announces an advertised capability the heartbeat's deadline is not
behind the driver assist frame's.
-/
structure HeartbeatFirst (log : List Sent) (proxy : Proxy) : Prop where
  announced : AssistAnnounced log
  waiting : proxy.store.state.AdvertisesAssist → ¬Announced log →
    proxy.publisher.due .status ≤ proxy.publisher.due .assist

/-- A tick keeps the heartbeat first. -/
theorem HeartbeatFirst.tick (m : Machine) {log : List Sent} {proxy : Proxy}
    (held : HeartbeatFirst log proxy) (now : ℤ) :
    HeartbeatFirst (log ++ (Proxy.step m proxy (.tick now)).2.filterMap Firing.frame)
      (Proxy.step m proxy (.tick now)).1 := by
  obtain ⟨head, others, tail, sent, status, plain, assist⟩ :=
    proxy.publisher.tick_frames m proxy.store now
  rw [show (Proxy.step m proxy (.tick now)).2.filterMap Firing.frame = _ from sent]
  -- The three parts of what the tick sent, each under its own identifier.
  have heartbeat : ∀ f ∈ head, f.id = .status := by
    rcases status with ⟨-, rfl⟩ | ⟨-, frame, rfl, named, -⟩ <;> simp [*]
  have single : tail = [] ∨ ∃ frame, tail = [frame] ∧ frame.id = .assist :=
    assist.imp And.right And.right
  -- A heartbeat of this tick announces; without one, both deadlines are those before the tick.
  have early : head = [] → proxy.publisher.ready now = proxy.publisher ∧
      now < proxy.publisher.due .status := by
    rintro rfl
    rcases status with ⟨early, -⟩ | ⟨-, _, absent, -⟩
    · have same := Publisher.ready_of_early early
      exact ⟨same, same ▸ early⟩
    · cases absent
  have loud : head ≠ [] → proxy.store.state.AdvertisesAssist → Announced (log ++ head) := by
    intro present advertised
    rcases status with ⟨-, absent⟩ | ⟨-, frame, rfl, named, bit⟩
    · exact absurd absent present
    · exact announced_status named (bit advertised)
  refine ⟨assistAnnounced_tick held.announced heartbeat plain single fun sentAssist => ?_,
    fun advertised silent => ?_⟩
  · obtain ⟨⟨reached, advertised⟩, -⟩ := assist.resolve_left fun ⟨_, absent⟩ => sentAssist absent
    -- Without a heartbeat in this tick the invariant says that its deadline came first.
    by_cases quiet : head = []
    · obtain ⟨same, early⟩ := early quiet
      rw [same] at reached
      subst quiet
      rw [List.append_nil]
      by_contra unannounced
      have := held.waiting advertised unannounced
      omega
    · exact loud quiet advertised
  · have others : ∀ f ∈ others ++ tail, f.id ≠ .status := by
      -- What follows the heartbeat slot is never a heartbeat.
      intro f member
      rcases List.mem_append.mp member with member | member
      · exact (plain f member).1
      · rcases single with rfl | ⟨frame, rfl, named⟩
        · cases member
        · rw [List.mem_singleton.mp member, named]
          decide
    rw [List.append_assoc, ← List.append_assoc] at silent
    -- Still unannounced, so no heartbeat was sent, and both deadlines are ahead and stay.
    have quiet : ¬Announced (log ++ head) := fun announced =>
      silent ((announced_append others).mpr announced)
    have none : head = [] := by
      by_contra present
      exact quiet (loud present advertised)
    obtain ⟨same, early⟩ := early none
    rw [none, List.append_nil] at quiet
    have first := held.waiting advertised quiet
    rw [Proxy.step, Publisher.tick_due_early m _ same early,
      Publisher.tick_due_early m _ same (by omega)]
    exact first

/--
In a run where the capability never appears between a late heartbeat and an earlier driver assist
deadline, every driver assist frame comes after a heartbeat that announces it.
-/
theorem assist_after_heartbeat (m : Machine) (publisher : Publisher) (calls : List Call)
    (aligned : Run.Along (Proxy.step m) Proxy.HeartbeatNext (Proxy.start publisher) calls) :
    AssistAnnounced (Proxy.transmitted m publisher calls) := by
  have held : HeartbeatFirst (Proxy.transmitted m publisher calls) (Proxy.after m publisher calls) := by
    refine Run.invariant (Proxy.step m)
      (P := fun _ out proxy => HeartbeatFirst (out.filterMap Firing.frame) proxy) ?_ ?_
    -- The state of an empty store advertises nothing.
    · refine ⟨Run.each_nil, fun advertised => ?_⟩
      exact absurd advertised (show ¬VehicleState.zero.AdvertisesAssist by decide)
    · intro past call within held
      rw [List.filterMap_append]
      cases call with
      | publish s now =>
        rw [show (Proxy.step m _ (.publish s now)).2 = [] from rfl, List.filterMap_nil, List.append_nil]
        refine ⟨held.announced, fun advertised silent => ?_⟩
        -- A publish changes neither log nor deadlines, and only a new capability needs the condition.
        rcases aligned.at_step within s now rfl advertised with before | first
        · exact held.waiting before silent
        · exact first
      | setLink present now =>
        rw [show (Proxy.step m _ (.setLink present now)).2 = [] from rfl, List.filterMap_nil,
          List.append_nil]
        exact ⟨held.announced, held.waiting⟩
      | tick now => exact held.tick m now
  exact held.announced

/--
A capability that appears while the heartbeat is silent and its deadline is behind the driver assist
frame's reaches the bus unannounced, when the next tick comes at the driver assist deadline.
-/
theorem Proxy.assist_unannounced (m : Machine) (publisher : Publisher) (calls : List Call)
    (s : VehicleState) (now : ℤ) (armed : (after m publisher calls).publisher.armed = true)
    (silent : ¬Announced (transmitted m publisher calls)) (advertised : s.AdvertisesAssist)
    (late : (after m publisher calls).publisher.due .assist <
      (after m publisher calls).publisher.due .status) :
    ¬AssistAnnounced (transmitted m publisher
      (calls ++ [.publish s now, .tick ((after m publisher calls).publisher.due .assist)])) := by
  let proxy := after m publisher calls
  let deadline := proxy.publisher.due .assist
  obtain ⟨head, others, tail, sent, status, plain, assist⟩ :=
    proxy.publisher.tick_frames m (proxy.store.publish s now) deadline
  have ready : proxy.publisher.ready deadline = proxy.publisher := Publisher.ready_of_armed armed _
  rw [ready] at status assist
  -- The heartbeat is not due at that time, and the driver assist frame is.
  obtain rfl : head = [] := (status.resolve_right fun ⟨reached, _⟩ => absurd late (not_lt.mpr reached)).2
  obtain ⟨-, frame, rfl, named⟩ := assist.resolve_left fun ⟨withheld, _⟩ => withheld ⟨le_rfl, advertised⟩
  have log : transmitted m publisher (calls ++ [.publish s now, .tick deadline]) =
      (transmitted m publisher calls ++ others) ++ frame :: [] := by
    unfold transmitted firings
    rw [Run.outputs_append, List.filterMap_append, List.append_assoc]
    exact congrArg _ ((congrArg _ (List.append_nil _)).trans sent)
  intro announced
  have before := announced _ frame [] log named
  rw [announced_append fun f member => (plain f member).1] at before
  exact silent before

/-- A proxy that advertises the frame before its first tick sends both together. -/
theorem assist_after_heartbeat_start :
    let s := { VehicleState.zero with capable := Signal.ecoScore.bit }
    AssistAnnounced (Proxy.transmitted Machine.indefinite (Publisher.new 1000000000 1 0)
      [.publish s 0, .setLink true 0, .tick 0, .tick 250000000]) := by
  -- All deadlines of a publisher that was never ticked are equal.
  refine assist_after_heartbeat _ _ _ ⟨?_, ?_, ?_, ?_, trivial⟩
  · exact fun _ _ _ _ => .inr (by decide)
  all_goals exact fun _ _ call => nomatch call

/--
A tick a quarter of a second late moves the heartbeat off the driver assist frame's grid, and the
capability that appears in the gap reaches the bus in the wrong order.
-/
theorem assist_before_heartbeat :
    let s := { VehicleState.zero with capable := Signal.ecoScore.bit }
    ¬AssistAnnounced (Proxy.transmitted Machine.indefinite (Publisher.new 1000000000 1 0)
      [.tick 0, .tick 250000000, .tick 350000000, .publish s 370000000, .tick 400000000]) := by
  intro s announced
  let log := Proxy.transmitted Machine.indefinite (Publisher.new 1000000000 1 0)
    [.tick 0, .tick 250000000, .tick 350000000, .publish s 370000000, .tick 400000000]
  -- The log ends with the driver assist frame, and the last heartbeat before it is silent.
  let assist : Sent := ⟨400000000, .assist, #v[255, 255, 255, 255, 255, 255, 0, 0]⟩
  let status : Sent := ⟨350000000, .status, #v[1, 1, 2, 0, 0, 0, 0, 0]⟩
  obtain ⟨last, seen, bit⟩ := announced log.dropLast assist [] (by decide +kernel) rfl
  have silent : lastHeartbeat log.dropLast = some status := by decide +kernel
  rw [silent] at seen
  obtain rfl := Option.some.inj seen
  exact bit (by decide +kernel)

/--
The heartbeat's deadline is not behind the driver assist frame's while no tick resynchronises the one
without the other.
-/
theorem Proxy.heartbeat_not_behind (m : Machine) (publisher : Publisher) (t0 : ℤ) (calls : List Call)
    (together : Run.Along (step m) (fun proxy call => ∀ now, call = .tick now →
      proxy.publisher.due .status + FrameId.status.cycle < now →
      proxy.publisher.due .assist + FrameId.assist.cycle < now) (start (publisher.arm t0)) calls) :
    let proxy := after m (publisher.arm t0) calls
    proxy.publisher.due .status ≤ proxy.publisher.due .assist := by
  have heartbeatCycle : FrameId.status.cycle = 100000000 := rfl
  have assistCycle : FrameId.assist.cycle = 200000000 := rfl
  -- The driver assist deadline is zero, one, or two heartbeats after the heartbeat's own.
  let InPhase (p : Publisher) : Prop := p.armed = true ∧
    (p.due .assist = p.due .status ∨ p.due .assist = p.due .status + 100000000 ∨
      p.due .assist = p.due .status + 200000000)
  have inPhase : InPhase (after m (publisher.arm t0) calls).publisher := by
    refine Run.invariant (step m) (P := fun _ _ proxy => InPhase proxy.publisher) ?_ ?_
    · exact ⟨rfl, .inl (by rw [start, Publisher.arm_due, Publisher.arm_due])⟩
    · rintro past call within ⟨armed, phase⟩
      cases call with
      | publish s now => exact ⟨armed, phase⟩
      | setLink present now => exact ⟨armed, phase⟩
      | tick now =>
        -- Either deadline stays, moves on, or restarts, and only together do they restart.
        have both := together.at_step within now rfl
        refine ⟨Publisher.tick_armed m _ _ _, ?_⟩
        rw [step, Publisher.tick_due, Publisher.tick_due, Publisher.ready_of_armed armed]
        rw [heartbeatCycle, assistCycle] at both ⊢
        rcases Timer.step_cases 100000000 (Publisher.due _ .status) now with
            ⟨_, status⟩ | ⟨_, _, status⟩ | ⟨_, _, status⟩ <;>
          rcases Timer.step_cases 200000000 (Publisher.due _ .assist) now with
            ⟨_, assist⟩ | ⟨_, _, assist⟩ | ⟨_, _, assist⟩ <;>
          rw [status, assist] <;> dsimp only <;> omega
  obtain ⟨-, phase⟩ := inPhase
  dsimp only
  omega

end CanProxy
