import CanProxy.Core.Dump
import CanProxy.Proofs.Core.Heartbeat
import Mathlib.Data.List.Chain

/-! The rolling counter numbers the heartbeats on the bus, one after the other. -/

namespace CanProxy

open Numeric

/-- The heartbeats of a log. -/
def heartbeats (log : List Sent) : List Sent := log.filter (·.id = .status)

/-- The counters that the heartbeats of a log carry. -/
def counters (log : List Sent) : List UInt8 :=
  (heartbeats log).map fun frame => getElem frame.data 2 Place.eight2

theorem counters_append (first second : List Sent) :
    counters (first ++ second) = counters first ++ counters second := by
  rw [counters, heartbeats, List.filter_append, List.map_append]
  rfl

/-- Each number is the one after its predecessor, and after the last one comes zero. -/
def Consecutive (numbers : List UInt8) : Prop := numbers.IsChain fun a b => b = a + 1

/-- Counting up from zero goes through consecutive numbers, around the end as well. -/
theorem consecutive_range (n : Nat) : Consecutive ((List.range n).map UInt8.ofNat) := by
  refine List.isChain_iff_getElem.mpr fun i inside => ?_
  rw [List.getElem_map, List.getElem_map, List.getElem_range, List.getElem_range, UInt8.ofNat_add]
  rfl

section Tick

variable (m : Machine) (f : Frames) (now : ℤ)

/-- A slot of the heartbeat that is due. -/
def Slot.beats (now : ℤ) (s : Slot) : Bool := s.due ≤ now ∧ s.id = .status

/-- The loop of a tick steps the counter once for every heartbeat slot that is due. -/
theorem fireDue_counter (counter : UInt8) (slots : List Slot) :
    (fireDue m f now counter slots).1 = counter + UInt8.ofNat (slots.countP (Slot.beats now)) := by
  -- The counter varies along the loop, so the statement is about every counter.
  induction slots generalizing counter with
  | nil => simp [fireDue]
  | cons s rest ih =>
    unfold fireDue
    rw [List.countP_cons]
    by_cases early : now < s.due
    · simp [early, ih, Slot.beats, not_le.mpr early]
    · by_cases heartbeat : s.id = .status
      · have counted : Slot.beats now s = true := by simp [Slot.beats, heartbeat, not_lt.mp early]
        rw [if_neg early, if_pos counted, UInt8.ofNat_add, UInt8.add_comm (UInt8.ofNat _),
          ← UInt8.add_assoc]
        simp only [if_pos heartbeat, ih]
        rfl
      · simp [early, heartbeat, ih, Slot.beats]

/-- A tick steps the counter once for every heartbeat slot that is due. -/
theorem Publisher.tick_counter_eq (p : Publisher) (snap : Snapshot) :
    (p.tick m snap now).publisher.counter =
      p.counter + UInt8.ofNat ((p.ready now).slots.countP (Slot.beats now)) := by
  have same : (p.ready now).counter = p.counter := by
    unfold Publisher.ready
    split <;> rfl
  -- The guard in front of the loop only skips a loop that would do nothing.
  unfold tick
  dsimp only
  split
  · rw [← same]
    exact fireDue_counter m _ now _ _
  next early =>
    have none : (p.ready now).slots.countP (Slot.beats now) = 0 := by
      rw [List.countP_eq_zero]
      intro s member beats
      refine early (List.any_eq_true.mpr ⟨s, member, ?_⟩)
      simp only [Slot.beats, decide_eq_true_eq] at beats ⊢
      exact beats.1
    rw [none, ← same]
    simp

/-- Slots of other frames send no heartbeat. -/
theorem counters_others {slots : List Slot} (others : ∀ s ∈ slots, s.id ≠ .status) :
    counters (slots.filterMap (Slot.frame? m f now)) = [] := by
  unfold counters heartbeats
  rw [List.map_eq_nil_iff, List.filter_eq_nil_iff]
  intro frame member
  obtain ⟨s, listed, sent⟩ := List.mem_filterMap.mp member
  simpa [Slot.frame?_id sent] using others s listed

/--
A tick sends a heartbeat when it is due, with the counter as it was before the tick, and steps the
counter by one; otherwise it does neither.
-/
theorem Publisher.tick_counter (p : Publisher) (snap : Snapshot) :
    let late := (p.ready now).due .status ≤ now
    counters ((p.tick m snap now).fired.filterMap Firing.frame) = (if late then [p.counter] else []) ∧
      (p.tick m snap now).publisher.counter = if late then p.counter + 1 else p.counter := by
  intro late
  obtain ⟨first, middle, last, split, heartbeat, assist, others⟩ := (p.ready now).slots_split
  have due : (p.ready now).due .status = first.due := by
    rw [← heartbeat, due_of_mem (by simp [split])]
  have rest : ∀ s ∈ middle ++ [last], s.id ≠ .status := by
    intro s member
    rcases List.mem_append.mp member with inner | final
    · exact (others s inner).1
    · rw [List.mem_singleton.mp final, assist]
      decide
  constructor
  · have sent : (p.tick m snap now).fired.filterMap Firing.frame =
        [first].filterMap (Slot.frame? m (p.frames m snap now) now) ++
          (middle ++ [last]).filterMap (Slot.frame? m (p.frames m snap now) now) := by
      rw [tick_fired, ready_frames, List.filterMap_filterMap, split, ← List.filterMap_append]
      rfl
    rw [sent, counters_append, counters_others m _ now rest, List.append_nil]
    -- The heartbeat of this tick was built before the counter was stepped.
    by_cases early : now < first.due
    · simp [late, due, counters, heartbeats, Slot.frame?, Slot.firing?, early]
    · simp [late, due, counters, heartbeats, Slot.frame?, Slot.firing?, Firing.frame, sendFrame,
        heartbeat, early, not_lt.mp early, packStatus, frames, framesFrom]
  · have none : (middle ++ [last]).countP (Slot.beats now) = 0 := by
      rw [List.countP_eq_zero]
      intro s member
      simp [Slot.beats, rest s member]
    rw [tick_counter_eq, split, List.countP_cons, none, Nat.zero_add]
    by_cases early : now < first.due
    · simp [late, due, Slot.beats, not_le.mpr early]
    · simp [late, due, Slot.beats, heartbeat, not_lt.mp early]

end Tick

/-- The counters on the bus are the numbers from zero on, and the next one is the publisher's. -/
structure Counted (log : List Sent) (proxy : Proxy) : Prop where
  sent : counters log = (List.range (counters log).length).map UInt8.ofNat
  next : proxy.publisher.counter = UInt8.ofNat (counters log).length

/-- Every call keeps the count. -/
theorem Counted.step (m : Machine) {log : List Sent} {proxy : Proxy} (counted : Counted log proxy)
    (call : Call) :
    Counted (log ++ (Proxy.step m proxy call).2.filterMap Firing.frame) (Proxy.step m proxy call).1 := by
  cases call with
  | publish s now | setLink present now =>
    -- Neither sends anything, nor does it touch the publisher.
    simp only [Proxy.step, List.filterMap_nil, List.append_nil]
    exact ⟨counted.sent, counted.next⟩
  | tick now =>
    obtain ⟨sent, next⟩ := proxy.publisher.tick_counter m now proxy.store
    have told : counters (log ++ (Proxy.step m proxy (.tick now)).2.filterMap Firing.frame) =
        counters log ++ if (proxy.publisher.ready now).due .status ≤ now then [proxy.publisher.counter]
          else [] := by
      rw [counters_append]
      exact congrArg _ sent
    -- One more heartbeat carries the next number.
    by_cases late : (proxy.publisher.ready now).due .status ≤ now
    · rw [if_pos late] at told next
      refine ⟨?_, ?_⟩
      · rw [told, List.length_append, List.length_singleton, List.range_succ, List.map_append,
          ← counted.sent, counted.next]
        rfl
      · rw [told, List.length_append, List.length_singleton, UInt8.ofNat_add, ← counted.next]
        exact next
    · rw [if_neg late, List.append_nil] at told
      rw [if_neg late] at next
      exact ⟨told ▸ counted.sent, told ▸ next.trans counted.next⟩

/-- A publisher that starts at zero counts its heartbeats in every run. -/
theorem run_counted (m : Machine) {publisher : Publisher} (fresh : publisher.counter = 0)
    (calls : List Call) :
    Counted (Proxy.transmitted m publisher calls) (Proxy.after m publisher calls) := by
  refine Run.invariant (Proxy.step m)
    (P := fun _ out proxy => Counted (out.filterMap Firing.frame) proxy) ⟨rfl, fresh⟩ ?_
  intro past call _ counted
  rw [List.filterMap_append]
  exact counted.step m call

/-- The number the tool expects after a heartbeat is the next one, around the end as well. -/
theorem ofInt_succ (number : UInt8) : UInt8.ofInt ((number.toNat : ℤ) + 1) = number + 1 := by
  have same : UInt8.ofInt number.toNat = number := by
    apply UInt8.toNat_inj.mp
    have small := number.toNat_lt
    exact Int.ofNat_inj.mp (Bits.toNat_ofInt8 (by omega) (by omega))
  rw [UInt8.ofInt_add, same]
  rfl

/-- The tool counts no skip in consecutive numbers that go on from the last one it knows. -/
theorem foldl_see (received : List Sent) (check : CounterCheck)
    (follow : Consecutive (counters received))
    (first : ∀ number ∈ (counters received).head?, 0 ≤ check.lastCounter →
      number = UInt8.ofInt (check.lastCounter + 1)) :
    (received.foldl CounterCheck.see check).counterSkips = check.counterSkips := by
  induction received generalizing check with
  | nil => rfl
  | cons frame rest ih =>
    rw [List.foldl_cons, CounterCheck.see]
    by_cases heartbeat : frame.id = .status
    · have split : counters (frame :: rest) = frame.data[2] :: counters rest := by
        simp [counters, heartbeats, heartbeat]
      rw [split] at follow first
      obtain ⟨next, follow⟩ := List.isChain_cons.mp follow
      have expected : ¬(check.lastCounter ≥ 0 ∧
          frame.data[2] ≠ UInt8.ofInt (check.lastCounter + 1)) := by
        intro differs
        exact differs.2 (first _ rfl differs.1)
      rw [if_pos heartbeat, if_neg expected]
      refine ih ⟨check.counterSkips, frame.data[2].toNat⟩ follow fun number member _ => ?_
      rw [ofInt_succ]
      exact next number member
    · have same : counters (frame :: rest) = counters rest := by
        simp [counters, heartbeats, heartbeat]
      rw [if_neg heartbeat]
      rw [same] at follow first
      exact ih check follow first

/-- The tool counts no skip in consecutive numbers, wherever they start. -/
theorem counterSkips_eq_zero (received : List Sent) (follow : Consecutive (counters received)) :
    counterSkips received = 0 :=
  -- Before its first heartbeat the tool expects no number.
  foldl_see received .start follow fun _ _ known => absurd known (by decide)

/--
In every run of a publisher that starts at zero, the k-th heartbeat on the bus carries the counter
k modulo 256, the counter is the number of heartbeats so far, and a receiver that misses no heartbeat
between two that it gets counts no skip.
-/
theorem heartbeats_numbered (m : Machine) (publisher : Publisher) (fresh : publisher.counter = 0)
    (calls : List Call) :
    let sent := heartbeats (Proxy.transmitted m publisher calls)
    (∀ (k : Nat) frame, sent[k]? = some frame → (unpackStatus frame.data).counter.toNat = k % 256) ∧
    (Proxy.after m publisher calls).publisher.counter.toNat = sent.length % 256 ∧
    ∀ received, heartbeats received <:+: sent → counterSkips received = 0 := by
  intro sent
  obtain ⟨numbers, next⟩ := run_counted m fresh calls
  have length : (counters (Proxy.transmitted m publisher calls)).length = sent.length :=
    List.length_map _
  rw [length] at numbers next
  have numbers : sent.map (·.data[2]) = (List.range sent.length).map UInt8.ofNat := numbers
  refine ⟨?_, ?_, ?_⟩
  · intro k frame found
    have carried := congrArg (·[k]?) numbers
    have inside := (List.getElem?_eq_some_iff.mp found).1
    simp only [List.getElem?_map, found, Option.map_some, List.getElem?_range inside,
      Option.some_inj] at carried
    rw [unpackStatus, carried]
    exact UInt8.toNat_ofNat' ..
  · rw [next]
    exact UInt8.toNat_ofNat' ..
  · intro received part
    refine counterSkips_eq_zero received ?_
    have whole : Consecutive (sent.map (·.data[2])) := numbers ▸ consecutive_range sent.length
    exact whole.infix (part.map _)

/-- A proxy nobody has called sends a second heartbeat, which carries the number one. -/
theorem heartbeats_numbered_second :
    let sent := heartbeats (Proxy.transmitted Machine.indefinite (Publisher.new 1000000000 1 0)
      [.tick 0, .tick 100000000])
    ∃ frame, sent[1]? = some frame ∧ (unpackStatus frame.data).counter.toNat = 1 := by
  intro sent
  have second : 1 < sent.length := by decide +kernel
  have found : sent[1]? = some sent[1] := List.getElem?_eq_getElem second
  exact ⟨sent[1], found, (heartbeats_numbered Machine.indefinite (Publisher.new 1000000000 1 0) rfl
    [.tick 0, .tick 100000000]).1 1 sent[1] found⟩

end CanProxy
