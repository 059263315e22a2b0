import CanProxy.Core.Publisher
import CanProxy.Lib.Timer

/-! Each slot of the publisher is a periodic timer, whatever else happens between the ticks. -/

namespace CanProxy

open Numeric

/-- The deadline of a slot moves as the deadline of a timer does. -/
theorem Slot.advance_eq (s : Slot) (now : ℤ) :
    s.advance now = { s with due := Timer.advance s.cycle s.due now } := by
  -- The source moves the deadline first and tests it afterwards; the timer does both at once.
  simp only [Slot.advance, Timer.advance]
  split <;> rfl

/-- What a tick makes of one slot. -/
def Slot.look (now : ℤ) (s : Slot) : Slot := if now < s.due then s else s.advance now

/-- The firing of one slot at a tick, none when it is not due. -/
def Slot.firing? (m : Machine) (f : Frames) (now : ℤ) (s : Slot) : Option Firing :=
  if now < s.due then none else some ⟨now, s.id, sendFrame m s.id f⟩

theorem Slot.look_eq (now : ℤ) (s : Slot) :
    s.look now = { s with due := (Timer.step s.cycle s.due now).1 } := by
  -- Identifier and cycle never change, so a look is a step of the deadline alone.
  unfold Slot.look Timer.step
  split
  · rfl
  · exact s.advance_eq now

@[simp] theorem Slot.look_id (now : ℤ) (s : Slot) : (s.look now).id = s.id := by
  rw [Slot.look_eq]

@[simp] theorem Slot.look_due (now : ℤ) (s : Slot) :
    (s.look now).due = (Timer.step s.cycle s.due now).1 := by
  rw [Slot.look_eq]

/-- The loop of a tick looks at every slot and collects the firings. -/
theorem fireDue_eq (m : Machine) (f : Frames) (now : ℤ) (counter : UInt8) (slots : List Slot) :
    (fireDue m f now counter slots).2 =
      (slots.map (Slot.look now), slots.filterMap (Slot.firing? m f now)) := by
  -- The counter runs along the loop but decides neither the schedule nor what is sent.
  induction slots generalizing counter with
  | nil => rfl
  | cons s rest ih =>
    unfold fireDue
    split
    next early => simp only [ih, List.map_cons, List.filterMap_cons, Slot.look, Slot.firing?, if_pos early]
    next reached =>
      simp only [ih, List.map_cons, List.filterMap_cons, Slot.look, Slot.firing?, if_neg reached]

namespace Publisher

/-- Looking at slots none of which is due changes nothing. -/
private theorem look_all_early {slots : List Slot} {now : ℤ}
    (early : ¬ slots.any (fun s => s.due ≤ now) = true) (m : Machine) (f : Frames) :
    slots.map (Slot.look now) = slots ∧ slots.filterMap (Slot.firing? m f now) = [] := by
  -- The loop's guard found no due slot, so every one of them is still ahead.
  have ahead : ∀ s ∈ slots, now < s.due := by simpa using early
  constructor
  · have kept : ∀ s ∈ slots, s.look now = id s := fun s member => if_pos (ahead s member)
    rw [List.map_congr_left kept, List.map_id]
  · rw [List.filterMap_eq_nil_iff]
    exact fun s member => if_pos (ahead s member)

/-- A tick looks at every slot of the armed publisher. -/
theorem tick_slots (m : Machine) (p : Publisher) (snap : Snapshot) (now : ℤ) :
    (p.tick m snap now).publisher.slots = (p.ready now).slots.map (Slot.look now) := by
  -- The guard in front of the loop only saves work: without a due slot the loop does nothing.
  unfold tick
  dsimp only
  split
  · exact congrArg Prod.fst (fireDue_eq m _ now _ (p.ready now).slots)
  · next early => exact (look_all_early early m (p.frames m snap now)).1.symm

/-- A tick fires the slots of the armed publisher that are due. -/
theorem tick_fired (m : Machine) (p : Publisher) (snap : Snapshot) (now : ℤ) :
    (p.tick m snap now).fired =
      (p.ready now).slots.filterMap (Slot.firing? m ((p.ready now).frames m snap now) now) := by
  -- With no due slot nothing fires, which is what the loop would have said.
  unfold tick
  dsimp only
  split
  · exact congrArg Prod.snd (fireDue_eq m _ now _ (p.ready now).slots)
  · next early => exact (look_all_early early m ((p.ready now).frames m snap now)).2.symm

/-- A tick returns the earliest deadline it leaves behind. -/
theorem tick_next (m : Machine) (p : Publisher) (snap : Snapshot) (now : ℤ) :
    (p.tick m snap now).next = nextDeadline (p.tick m snap now).publisher.slots := by
  -- Both branches compute it from the slots they leave.
  unfold tick
  dsimp only
  split <;> rfl

/-- A publisher is armed from its first tick on. -/
theorem ready_armed (p : Publisher) (now : ℤ) : (p.ready now).armed = true := by
  -- A publisher that is not armed yet is armed by this very tick.
  unfold ready
  split
  · assumption
  · rfl

theorem ready_of_armed {p : Publisher} (armed : p.armed = true) (now : ℤ) : p.ready now = p :=
  if_pos armed

theorem tick_armed (m : Machine) (p : Publisher) (snap : Snapshot) (now : ℤ) :
    (p.tick m snap now).publisher.armed = true := by
  -- The loop does not touch the flag.
  unfold tick
  dsimp only
  split <;> exact p.ready_armed now

/-- Arming touches neither the configuration nor the counter. -/
theorem ready_frames (m : Machine) (p : Publisher) (snap : Snapshot) (now : ℤ) :
    (p.ready now).frames m snap now = p.frames m snap now := by
  -- The frames read the configuration and the counter only.
  unfold ready
  split <;> rfl

theorem tick_timeout (m : Machine) (p : Publisher) (snap : Snapshot) (now : ℤ) :
    (p.tick m snap now).publisher.timeout = p.timeout := by
  -- Neither arming nor the loop changes the configuration.
  have armed : (p.ready now).timeout = p.timeout := by
    unfold ready
    split <;> rfl
  unfold tick
  dsimp only
  split <;> exact armed

/-- The deadline of a frame. -/
def due (p : Publisher) (id : FrameId) : ℤ :=
  match p.slots.find? (·.id = id) with
  | some s => s.due
  | none => 0

/-- The slot of a frame is the only one with its identifier. -/
theorem find_slot (p : Publisher) (id : FrameId) :
    ∃ s before after, p.slots = before ++ s :: after ∧ s.id = id ∧
      (∀ o ∈ before, o.id ≠ id) ∧ (∀ o ∈ after, o.id ≠ id) := by
  -- The slots follow the sending order, which names every frame once.
  have listed : id ∈ p.slots.map (·.id) := by
    rw [p.ordered]
    cases id <;> decide
  have distinct : (p.slots.map (·.id)).Nodup := by
    rw [p.ordered]
    decide
  obtain ⟨s, member, named⟩ := List.mem_map.mp listed
  obtain ⟨before, after, split⟩ := List.append_of_mem member
  rw [split, List.map_append, List.map_cons, List.nodup_append, List.nodup_cons] at distinct
  obtain ⟨-, ⟨fresh, -⟩, apart⟩ := distinct
  refine ⟨s, before, after, split, named, fun o member same => ?_, fun o member same => ?_⟩
  · exact apart o.id (List.mem_map_of_mem member) s.id List.mem_cons_self (same.trans named.symm)
  · exact fresh (same.trans named.symm ▸ List.mem_map_of_mem member)

/-- The deadline of a frame is the one its slot holds. -/
theorem due_of_split {p : Publisher} {id : FrameId} {s : Slot} {before after : List Slot}
    (split : p.slots = before ++ s :: after) (named : s.id = id) (earlier : ∀ o ∈ before, o.id ≠ id) :
    p.due id = s.due := by
  -- The search stops at the first slot with the identifier, and none before it has it.
  unfold due
  rw [split, List.find?_append, List.find?_eq_none.mpr (by simpa using earlier), Option.none_or,
    List.find?_cons_of_pos (by simpa using named)]

theorem due_of_mem {p : Publisher} {s : Slot} (member : s ∈ p.slots) : p.due s.id = s.due := by
  -- Two slots with one identifier would contradict the sending order.
  obtain ⟨found, before, after, split, named, earlier, later⟩ := p.find_slot s.id
  rw [due_of_split split named earlier]
  rw [split, List.mem_append, List.mem_cons] at member
  rcases member with member | rfl | member
  · exact absurd rfl (earlier s member)
  · rfl
  · exact absurd rfl (later s member)

theorem exists_slot (p : Publisher) (id : FrameId) : ∃ s ∈ p.slots, s.id = id ∧ s.due = p.due id := by
  obtain ⟨s, before, after, split, named, earlier, -⟩ := p.find_slot id
  exact ⟨s, by simp [split], named, (due_of_split split named earlier).symm⟩

/-- A tick moves the deadline of every frame as its timer does. -/
theorem tick_due (m : Machine) (p : Publisher) (snap : Snapshot) (now : ℤ) (id : FrameId) :
    (p.tick m snap now).publisher.due id = (Timer.step id.cycle ((p.ready now).due id) now).1 := by
  -- The frame's slot is looked at by the tick, and a look is a step of the timer.
  obtain ⟨s, member, rfl, reached⟩ := (p.ready now).exists_slot id
  have looked : s.look now ∈ (p.tick m snap now).publisher.slots := by
    rw [tick_slots]
    exact List.mem_map_of_mem member
  have moved := due_of_mem looked
  rw [Slot.look_id, Slot.look_due, s.contractual, reached] at moved
  exact moved

end Publisher

/-- The time of a firing, for the firings of one frame. -/
def Firing.timeOf (id : FrameId) (f : Firing) : Option ℤ := if f.id = id then some f.time else none

/-- The times at which a frame's slot fires. -/
def firingTimes (id : FrameId) (fired : List Firing) : List ℤ := fired.filterMap (Firing.timeOf id)

theorem firingTimes_append (id : FrameId) (first second : List Firing) :
    firingTimes id (first ++ second) = firingTimes id first ++ firingTimes id second :=
  List.filterMap_append

/-- A tick fires the slot of a frame as its timer does. -/
theorem Publisher.tick_firingTimes (m : Machine) (p : Publisher) (snap : Snapshot) (now : ℤ)
    (id : FrameId) :
    firingTimes id (p.tick m snap now).fired = (Timer.step id.cycle ((p.ready now).due id) now).2 := by
  obtain ⟨s, before, after, split, named, earlier, later⟩ := (p.ready now).find_slot id
  -- The other slots fire under other identifiers.
  have silent : ∀ slots : List Slot, (∀ o ∈ slots, o.id ≠ id) → ∀ f,
      firingTimes id (slots.filterMap (Slot.firing? m f now)) = [] := by
    intro slots other f
    unfold firingTimes
    rw [List.filterMap_filterMap, List.filterMap_eq_nil_iff]
    intro o member
    unfold Slot.firing?
    split
    · rfl
    · simp [Firing.timeOf, other o member]
  -- The frame's own slot fires when the timer does, and at the same time.
  have own : ∀ f, firingTimes id ([s].filterMap (Slot.firing? m f now)) =
      (Timer.step id.cycle s.due now).2 := by
    intro f
    unfold Timer.step
    by_cases early : now < s.due
    · simp [firingTimes, Slot.firing?, early]
    · simp [firingTimes, Slot.firing?, Firing.timeOf, early, named]
  rw [tick_fired, due_of_split split named earlier, split, ← List.singleton_append,
    List.filterMap_append, List.filterMap_append, firingTimes_append, firingTimes_append,
    silent before earlier, silent after later, List.nil_append, List.append_nil]
  exact own _

end CanProxy
