import CanProxy.Proofs.Emu.Capable
import CanProxy.Proofs.Ice.Run

/-! What the published states advertise, and when that changes. -/

namespace CanProxy

namespace Ice

open Numeric

/-- Only two parameters are ever dropped. -/
theorem mem_dropped {part : List Event} {pid : UInt8} (member : pid ∈ dropped part) :
    ∃ v time, .query pid (some v) time ∈ part ∧ filler pid v = true := by
  obtain ⟨e, told, picked⟩ := List.mem_filterMap.mp member
  cases e with
  | query k answer time =>
    cases answer with
    | none => cases picked
    | some v =>
      rw [Event.dropped?] at picked
      split at picked
      next unreal =>
        cases picked
        exact ⟨v, time, told, unreal⟩
      · cases picked
  | _ => cases picked

/-- A dropped parameter is that of its own signal alone. -/
theorem pidOf_of_dropped {part : List Event} {pid : UInt8} (gone : pid ∈ dropped part) {sig : Signal}
    (read : behind sig = some pid) : pidOf sig = some pid := by
  -- The engine speed, which the power state is read off, is never dropped.
  obtain ⟨v, time, -, unreal⟩ := mem_dropped gone
  cases sig with
  | powerState =>
    cases read
    simp [filler, pidRpm, pidModuleVoltage, pidAmbientTemp] at unreal
  | _ => exact read

/-- Without a discovery, the parameters advertised are those from before that were not dropped. -/
theorem mem_advertised_append {log part : List Event} (undiscovered : ∀ e ∈ part, e.discovers = false)
    (pid : UInt8) : pid ∈ advertised (log ++ part) ↔ pid ∈ advertised log ∧ pid ∉ dropped part := by
  -- Each event in turn drops its parameter or none.
  induction part using List.reverseRecOn with
  | nil => simp [dropped]
  | append_singleton rest e ih =>
    have ih := ih fun e member => undiscovered e (List.mem_append_left _ member)
    have kept := undiscovered e (by simp)
    rw [← List.append_assoc, advertised_concat, dropped, List.filterMap_append, List.mem_append,
      not_or, ← and_assoc, ← dropped, ← ih]
    cases e with
    | discovered supported => cases kept
    | query k answer time =>
      cases answer with
      | none => simp [Event.advertise, Event.dropped?]
      | some v =>
        cases verdict : filler k v with
        | false => simp [Event.advertise, Event.dropped?, verdict]
        | true => simp [Event.advertise, Event.dropped?, verdict, and_comm]
    | _ => simp [Event.advertise, Event.dropped?]

/--
Without a discovery between them, a later state advertises what an earlier one did but for the
parameters dropped in the meantime, each of which the earlier one advertised.
-/
theorem capable_dropped (c : Config) (turns : List Turn) {before mid after : List Event}
    {s s' : VehicleState} {now now' : ℤ}
    (split : Plugin.log c turns = before ++ .publish s now :: mid ++ .publish s' now' :: after)
    (undiscovered : ∀ e ∈ mid, e.discovers = false) :
    (∀ i, Bits.mem s'.capable i = true ↔ Bits.mem s.capable i = true ∧
      ∀ sig pid, sig.index = i → pidOf sig = some pid → pid ∉ dropped mid) ∧
    ∀ sig pid, pidOf sig = some pid → pid ∈ dropped mid → Bits.mem s.capable sig.index = true := by
  have told := run_told c turns
  have split' : Plugin.log c turns = before ++ .publish s now :: (mid ++ .publish s' now' :: after) := by
    rw [split, List.append_assoc, List.cons_append]
  have earlier : Offers before s := by
    obtain ⟨p, agrees, rfl, -⟩ := told before (.publish s now) _ split'
    exact agrees.offers now
  have later : Offers (before ++ .publish s now :: mid) s' := by
    obtain ⟨p, agrees, rfl, -⟩ := told _ (.publish s' now') _ split
    exact agrees.offers now'
  -- A publish is no news about the parameters.
  have shown (pid : UInt8) : pid ∈ advertised (before ++ .publish s now :: mid) ↔
      pid ∈ advertised before ∧ pid ∉ dropped mid := by
    rw [List.append_cons, mem_advertised_append undiscovered, advertised_concat]
    rfl
  refine ⟨fun i => ?_, fun sig pid read gone => ?_⟩
  · rw [later i, earlier i]
    constructor
    · rintro ⟨sig, pid, place, read, member⟩
      obtain ⟨member, there⟩ := (shown pid).mp member
      refine ⟨⟨sig, pid, place, read, member⟩, fun sig' pid' place' read' => ?_⟩
      obtain rfl := Signal.index_inj.mp (place'.trans place.symm)
      rw [behind_of_pidOf read'] at read
      cases read
      exact there
    · rintro ⟨⟨sig, pid, place, read, member⟩, there⟩
      refine ⟨sig, pid, place, read, (shown pid).mpr ⟨member, fun gone => ?_⟩⟩
      exact there sig pid place (pidOf_of_dropped gone read) gone
  · -- Only what is advertised is asked for, and nothing was advertised anew since the earlier state.
    obtain ⟨v, time, asked, -⟩ := mem_dropped gone
    obtain ⟨first, rest, rfl⟩ := List.append_of_mem asked
    have member : pid ∈ advertised (before ++ .publish s now :: first) :=
      told _ (.query pid (some v) time) (rest ++ .publish s' now' :: after) (by simp [split])
    rw [List.append_cons, mem_advertised_append fun e within => undiscovered e
      (List.mem_append_left _ within), advertised_concat] at member
    exact (earlier sig.index).mpr ⟨sig, pid, rfl, behind_of_pidOf read, member.1⟩

end Ice

/--
The capable mask of what the plugins publish changes at a discovery only, but for the bits of the
parameters that a combustion car has answered with fillers.
-/
theorem capable_changes :
    (∀ (c : Ice.Config) (turns : List Ice.Turn) (before mid after : List Ice.Event)
      (s s' : VehicleState) (now now' : ℤ),
      Ice.Plugin.log c turns = before ++ .publish s now :: mid ++ .publish s' now' :: after →
      (∀ e ∈ mid, e.discovers = false) →
      (∀ i, Bits.mem s'.capable i = true ↔ Bits.mem s.capable i = true ∧
        ∀ sig pid, sig.index = i → Ice.pidOf sig = some pid → pid ∉ Ice.dropped mid) ∧
      ∀ sig pid, Ice.pidOf sig = some pid → pid ∈ Ice.dropped mid →
        Bits.mem s.capable sig.index = true) ∧
    ∀ (c : Emu.Config) (turns : List Emu.Turn) (before mid after : List Emu.Event)
      (s s' : VehicleState) (now now' : ℤ),
      Emu.Plugin.log c turns = before ++ .publish s now :: mid ++ .publish s' now' :: after →
      (∀ e ∈ mid, e.discovers = false) → s'.capable = s.capable :=
  ⟨fun c turns _ _ _ _ _ _ _ split undiscovered => Ice.capable_dropped c turns split undiscovered,
    fun c turns _ _ _ _ _ _ _ split undiscovered => Emu.capable_steady c turns split undiscovered⟩

/--
A module voltage of zero takes the auxiliary battery off what a combustion car advertises, and an
electric car advertises the same before and after it is given up.
-/
theorem capable_changes_voltage :
    (let c : Ice.Config := ⟨cpSourceLive, 100⟩
    let found :=
      { Ice.Turn.silent 1000 with
        discovery := some {pidSpeed, pidModuleVoltage}
        answer := some (.finite 50) }
    let s := (Run.final (Ice.Plugin.step c) Ice.Plugin.new [found]).state c 1000
    let s' := (Run.final (Ice.Plugin.step c) Ice.Plugin.new
      [found, { Ice.Turn.silent 1060 with answer := some (.finite 0) }]).state c 1060
    Bits.mem s.capable Signal.auxBattery.index = true ∧
      ¬Bits.mem s'.capable Signal.auxBattery.index = true) ∧
    (let c : Emu.Config := ⟨false, cpSourceEmulator, 100⟩
    let found :=
      { Emu.Turn.silent 1000 with discovery := some {pidSpeed}, packProbe := some [0x62, 1, 1] }
    let turns := found :: (List.range 8).map fun i => Emu.Turn.silent (1100 + 100 * i)
    let s := (Run.final (Emu.Plugin.step c) Emu.Plugin.new (turns.take 7)).state c 1600
    let s' := (Run.final (Emu.Plugin.step c) Emu.Plugin.new turns).state c 1800
    s'.capable = s.capable) := by
  refine ⟨?_, ?_⟩
  · intro c found s s'
    have changes := capable_changes.1 c
      [found, { Ice.Turn.silent 1060 with answer := some (.finite 0) }]
      [.discovered {pidSpeed, pidModuleVoltage}, .setLink true, .query pidSpeed (some (.finite 50)) 1000]
      [.query pidModuleVoltage (some (.finite 0)) 1060, .implausiblePid pidModuleVoltage (.finite 0)]
      [] s s' 1000 1060 (by decide +kernel) (by decide)
    refine ⟨changes.2 .auxBattery pidModuleVoltage rfl (by decide +kernel), fun kept => ?_⟩
    exact ((changes.1 _).mp kept).2 .auxBattery pidModuleVoltage rfl rfl (by decide +kernel)
  · intro c found turns s s'
    exact capable_changes.2 c turns ((Emu.Plugin.log c turns).take 8)
      [.setLink false, .setLink false] [] s s' 1600 1800 (by decide +kernel) (by decide)

end CanProxy
