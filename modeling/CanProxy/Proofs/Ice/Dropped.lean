import CanProxy.Proofs.Ice.Capable

/-! How long a parameter that answered with a filler stays dropped. -/

namespace CanProxy.Ice

open Numeric

theorem dropped_concat (log : List Event) (e : Event) :
    dropped (log ++ [e]) = dropped log ++ e.dropped?.toList :=
  Run.filterMap_concat _ log e

/-- A filler takes its parameter off what is advertised. -/
theorem not_mem_advertise {e : Event} {pid : UInt8} (gone : e.dropped? = some pid)
    (supported : Finset UInt8) : pid ∉ e.advertise supported := by
  cases e with
  | query k answer time =>
    cases answer with
    | none => cases gone
    | some v =>
      rw [Event.dropped?] at gone
      split at gone
      next unreal =>
        cases gone
        simp [Event.advertise, unreal]
      next => cases gone
  | _ => cases gone

/-- Only a search brings a parameter back. -/
theorem mem_of_mem_advertise {e : Event} (undiscovered : e.discovers = false) {supported : Finset UInt8}
    {pid : UInt8} (member : pid ∈ e.advertise supported) : pid ∈ supported := by
  cases e with
  | discovered found => cases undiscovered
  | query k answer time =>
    cases answer with
    | none => exact member
    | some v =>
      rw [Event.advertise] at member
      split at member
      · exact Finset.mem_of_mem_erase member
      · exact member
  | _ => exact member

/-- As long as no search reports it again, a dropped parameter is not advertised. -/
theorem not_advertised_of_dropped {log : List Event} (spared : Run.Each Spares log) :
    ∀ pid ∈ dropped log, pid ∉ advertised log := by
  -- Induction on the log from its end: its last event drops, reports, or brings nothing back.
  induction log using List.reverseRecOn with
  | nil => exact fun pid gone => absurd gone List.not_mem_nil
  | append_singleton log e ih =>
    obtain ⟨earlier, last⟩ := Run.each_concat_iff.mp spared
    intro pid gone
    rw [dropped_concat, List.mem_append, Option.mem_toList] at gone
    rw [advertised_concat]
    rcases gone with before | now
    · cases search : e.discovers with
      | false => exact fun member => ih earlier pid before (mem_of_mem_advertise search member)
      | true =>
        cases e with
        | discovered found => exact last pid before
        | _ => cases search
    · exact not_mem_advertise now _

/-- What is advertised after a part of a log that starts without a parameter is decided by that part. -/
theorem mem_advertised_since {log : List Event} {pid : UInt8} (absent : pid ∉ advertised log)
    (part : List Event) : pid ∈ advertised (log ++ part) ↔ pid ∈ advertised part := by
  induction part using List.reverseRecOn with
  | nil => simpa [advertised] using absent
  | append_singleton part e ih =>
    rw [← List.append_assoc, advertised_concat, advertised_concat]
    -- An event replaces what is advertised, or keeps and takes away the same.
    cases e with
    | discovered found => exact Iff.rfl
    | query k answer time =>
      cases answer with
      | none => exact ih
      | some v =>
        rw [Event.advertise, Event.advertise]
        split
        · rw [Finset.mem_erase, Finset.mem_erase, ih]
        · exact ih
    | _ => exact ih

/--
In every run in which no search reports a parameter again that was dropped before, a parameter that
was dropped is neither advertised nor asked for any more. In every run, a state that is published
after a filler advertises its parameter exactly when the events since the filler do.
-/
theorem stays_dropped (c : Config) (turns : List Turn) :
    (Run.Each Spares (Plugin.log c turns) → Run.Each StaysDropped (Plugin.log c turns)) ∧
    ∀ (before mid after : List Event) (pid : UInt8) (v : Double) (time : ℤ) (s : VehicleState)
      (now : ℤ) (sig : Signal), filler pid v = true → behind sig = some pid →
      Plugin.log c turns = before ++ .query pid (some v) time :: mid ++ .publish s now :: after →
      (Bits.mem s.capable sig.index = true ↔ pid ∈ advertised mid) := by
  have told := run_told c turns
  have offers {before after : List Event} {s : VehicleState} {now : ℤ}
      (split : Plugin.log c turns = before ++ .publish s now :: after) : Offers before s := by
    obtain ⟨p, agrees, rfl, -⟩ := told before (.publish s now) after split
    exact agrees.offers now
  -- A signal's bit is that of the parameter behind it.
  have bit {before : List Event} {s : VehicleState} {sig : Signal} {pid : UInt8}
      (offers : Offers before s) (read : behind sig = some pid) :
      Bits.mem s.capable sig.index = true ↔ pid ∈ advertised before := by
    rw [offers sig.index]
    constructor
    · intro there
      obtain ⟨sig', pid', same, read', member⟩ := there
      obtain rfl := Signal.index_inj.mp same
      rw [read] at read'
      cases read'
      exact member
    · intro member
      exact ⟨sig, pid, rfl, read, member⟩
  refine ⟨?_, ?_⟩
  · intro spared before e after split
    have gone := not_advertised_of_dropped (Run.each_of_append (split ▸ spared))
    cases e with
    | publish s now =>
      intro pid dropping sig read
      rw [Bool.eq_false_iff, Ne, bit (offers split) read]
      exact gone pid dropping
    | query pid answer time =>
      intro dropping
      exact gone pid dropping (told before (.query pid answer time) after split)
    | _ => trivial
  · intro before mid after pid v time s now sig unreal read split
    rw [bit (offers split) read, List.append_cons, mem_advertised_since]
    rw [advertised_concat]
    exact not_mem_advertise (by simp [Event.dropped?, unreal]) _

/-- A car found again without its module voltage is never asked for it any more. -/
theorem stays_dropped_without :
    let c : Config := ⟨cpSourceLive, 100⟩
    let found (now : ℤ) (supported : Finset UInt8) : Turn :=
      { Turn.silent now with discovery := some supported, answer := some (.finite 50) }
    let turns : List Turn :=
      [found 1000 {pidSpeed, pidModuleVoltage}, { Turn.silent 1010 with answer := some (.finite 0) },
        Turn.silent 1100, Turn.silent 1200, Turn.silent 1300, Turn.silent 1400, found 2000 {pidSpeed},
        Turn.silent 2100]
    pidModuleVoltage ∈ dropped ((Plugin.log c turns).take 14) ∧
      Run.Each StaysDropped (Plugin.log c turns) := by
  intro c found turns
  have spared : Run.Each Spares (Plugin.log c turns) := by decide +kernel
  exact ⟨by decide +kernel, (stays_dropped c turns).1 spared⟩

/--
A link that is lost after a filler and found again brings the module voltage back: it is advertised
in the next state, and asked for again.
-/
theorem dropped_returns :
    let c : Config := ⟨cpSourceLive, 100⟩
    let found (now : ℤ) : Turn :=
      { Turn.silent now with
        discovery := some {pidSpeed, pidModuleVoltage}
        answer := some (.finite 50) }
    let turns : List Turn :=
      [found 1000, { Turn.silent 1010 with answer := some (.finite 0) }, Turn.silent 1100,
        Turn.silent 1200, Turn.silent 1300, Turn.silent 1400, found 2000, Turn.silent 2010]
    let log := Plugin.log c turns
    let s := (Run.final (Plugin.step c) Plugin.new (turns.take 7)).state c 2000
    log = log.take 17 ++ [.publish s 2000, .query pidModuleVoltage none 2010] ∧
      pidModuleVoltage ∈ dropped (log.take 17) ∧
      Bits.mem s.capable Signal.auxBattery.index = true ∧ ¬Run.Each StaysDropped log := by
  intro c found turns log s
  have split : log = log.take 17 ++ [.publish s 2000, .query pidModuleVoltage none 2010] := by
    decide +kernel
  have gone : pidModuleVoltage ∈ dropped (log.take 17) := by decide +kernel
  have shown : Bits.mem s.capable Signal.auxBattery.index = true := by decide +kernel
  refine ⟨split, gone, shown, fun stays => ?_⟩
  -- The state is published after the filler, with the bit set.
  have unset := stays (log.take 17) (.publish s 2000) _ split pidModuleVoltage gone .auxBattery rfl
  rw [shown] at unset
  cases unset

end CanProxy.Ice
