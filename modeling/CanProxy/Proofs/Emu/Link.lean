import CanProxy.Proofs.Emu.Run

/-! What is published while the vehicle is gone. -/

namespace CanProxy.Emu

open Numeric

section State

variable {p : Plugin} {now : ℤ}

/-- A standard parameter without a value is advertised at most. -/
theorem capPid_valueless (empty : ∀ pid, p.values pid = none) (pid : UInt8) (sig : Signal)
    (field : VehicleState → Double → VehicleState) (s : VehicleState) :
    (p.capPid now pid sig field s).valid = s.valid := by
  -- The valid bit is set only next to a value.
  unfold Plugin.capPid
  rw [empty pid]
  split <;> rfl

theorem fillPids_valueless (c : Config) (empty : ∀ pid, p.values pid = none) (s : VehicleState) :
    (p.fillPids c now s).valid = s.valid := by
  -- The three parameters of an engine are behind one more test.
  unfold Plugin.fillPids
  cases c.hybrid <;> simp [capPid_valueless empty]

/-- Without values a state is empty exactly when no record is shown. -/
theorem state_valueless (c : Config) (empty : ∀ pid, p.values pid = none) :
    (p.state c now).valid = 0 ↔ ∀ did, shown p did now = false := by
  constructor
  · intro blank did
    -- Every record has a signal, whose bit a shown record would set.
    have owned : ∃ sig, didOf c.hybrid sig = some did := by
      cases did with
      | pack => exact ⟨.soc, rfl⟩
      | range => exact ⟨.range, rfl⟩
      | drive => exact ⟨.gear, rfl⟩
      | assist => exact ⟨.laneState, rfl⟩
    obtain ⟨sig, stored⟩ := owned
    have marked := (state_record c p now stored).1
    rw [blank, Bits.mem_zero] at marked
    exact marked.symm
  · intro hidden
    -- Each of the two keepers is absent, or every record it keeps is stale.
    have bms (s : VehicleState) : (p.fillBms c now s).valid = s.valid := by
      unfold Plugin.fillBms
      cases present : p.bmsPresent with
      | false => rfl
      | true =>
        have stale (did : Did) (kept : p.present did = true) : p.poller.fresh did.key now = false := by
          have unseen := hidden did
          rwa [shown, kept, Bool.true_and] at unseen
        have pack := stale .pack present
        have range := stale .range present
        have drive := stale .drive present
        simp only [Did.key] at pack range drive
        simp [pack, range, drive]
    have assist (s : VehicleState) : (p.fillAssist now s).valid = s.valid := by
      unfold Plugin.fillAssist
      cases present : p.assistPresent with
      | false => rfl
      | true =>
        have unseen := hidden .assist
        rw [shown, Plugin.present, present, Bool.true_and, Did.key] at unseen
        simp [unseen]
    unfold Plugin.state
    simp only [assist, bms, fillPids_valueless c empty]
    rfl

end State

/--
In every run of the plugin, a state published while the host was last told that the vehicle is gone
marks nothing valid exactly when no record accepted since the last discovery is still fresh.
-/
theorem published_empty_iff (c : Config) (turns : List Turn) (before after : List Event)
    (s : VehicleState) (now : ℤ) (split : Plugin.log c turns = before ++ .publish s now :: after)
    (gone : lastLink before = some false) :
    s.valid = 0 ↔ ∀ did, ¬FreshlyAccepted c before did now := by
  -- The values are gone by then, so only the records are left to show anything.
  obtain ⟨p, agrees, rfl, empty⟩ := published_state c turns split
  rw [state_valueless c (empty gone)]
  simp only [← agrees.shown_iff, Bool.not_eq_true]

/-- Two seconds after a range record, a vehicle that has been given up is published without it. -/
theorem published_empty_stale :
    let c : Config := ⟨false, cpSourceEmulator, 100⟩
    let turns :=
      [{ Turn.silent 1000 with discovery := some ∅, packProbe := some [0x62, 1, 1] },
      Turn.silent 1001,
      { Turn.silent 1002 with reply := some [0x62, 1, 2, 1, 44, 0, 150, 0, 0, 0, 0] }] ++
      ((List.range 8).map fun i => Turn.silent (1100 + 100 * i)) ++ [Turn.silent 3000]
    ((Run.final (Plugin.step c) Plugin.new turns).state c 3000).valid = 0 := by
  intro c turns
  let before := (Plugin.log c turns).dropLast
  refine (published_empty_iff c turns before [] _ 3000 (by decide +kernel) (by decide +kernel)).mpr ?_
  rintro did ⟨d, time, found, -, recent⟩
  -- Only the range was ever accepted, and its window is a second and a half.
  cases did with
  | range =>
    have last : accepted .range before = some ([1, 44, 0, 150, 0, 0, 0, 0], 1002) := by decide +kernel
    cases last.symm.trans found
    exact absurd recent (by decide)
  | pack => exact absurd found (by rw [show accepted .pack before = none by decide +kernel]; nofun)
  | drive => exact absurd found (by rw [show accepted .drive before = none by decide +kernel]; nofun)
  | assist => exact absurd found (by rw [show accepted .assist before = none by decide +kernel]; nofun)

/--
The range of a vehicle that has been given up is published as current.

The record came in nine tenths of a second before, and nothing has answered since.
-/
theorem lost_range_published :
    let c : Config := ⟨false, cpSourceEmulator, 100⟩
    let turns :=
      [{ Turn.silent 1000 with discovery := some ∅, packProbe := some [0x62, 1, 1] },
      Turn.silent 1001,
      { Turn.silent 1002 with reply := some [0x62, 1, 2, 1, 44, 0, 150, 0, 0, 0, 0] }] ++
      (List.range 9).map fun i => Turn.silent (1100 + 100 * i)
    let before := (Plugin.log c turns).dropLast
    ∃ s, Plugin.log c turns = before ++ [.publish s 1900] ∧ lastLink before = some false ∧
      Bits.mem s.valid Signal.range.index = true ∧ s.rangeKm = .finite 300 ∧ s.valid ≠ 0 := by
  intro c turns before
  refine ⟨(Run.final (Plugin.step c) Plugin.new turns).state c 1900, ?_⟩
  decide +kernel

end CanProxy.Emu
