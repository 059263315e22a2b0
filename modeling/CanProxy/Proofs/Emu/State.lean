import CanProxy.Emu.History
import CanProxy.Proofs.Core.Availability
import CanProxy.Proofs.Plugin.Fields

/-! Which record signals a published state marks valid, and what values it gives them. -/

namespace CanProxy.Emu

open Numeric

/-- A record put into a state that is about to be published. -/
def Records.fill (r : Records) (did : Did) (hybrid : Bool) (s : VehicleState) : VehicleState :=
  match did with
  | .pack => r.pack.fill s
  | .range => r.range.fill s
  | .drive => r.drive.fill hybrid s
  | .assist => r.assist.fill s

/-- The signals of a record. -/
def sigsOf (hybrid : Bool) : Did → UInt32
  | .pack => packSigs
  | .range => rangeSigs
  | .drive => driveSigs hybrid
  | .assist => assistSigs

/-- The mask of a record holds exactly the signals read from it. -/
theorem mem_sigsOf (hybrid : Bool) (did : Did) (sig : Signal) :
    Bits.mem (sigsOf hybrid did) sig.index = decide (didOf hybrid sig = some did) := by
  -- A finite table: two cars, four records, and every signal.
  cases hybrid <;> cases did <;> cases sig <;> decide

theorem fill_valid (r : Records) (did : Did) (hybrid : Bool) (s : VehicleState) :
    (r.fill did hybrid s).valid = s.valid ||| sigsOf hybrid did := by
  -- The drive record marks one more signal on an electric car.
  cases did with
  | drive => cases hybrid <;> rfl
  | _ => rfl

/-- A record gives its own signals their values and no other. -/
theorem fill_quantity (r : Records) (did : Did) (hybrid : Bool) (s : VehicleState) (sig : Signal) :
    (r.fill did hybrid s).quantity sig =
      if didOf hybrid sig = some did then r.quantity sig else s.quantity sig := by
  -- Every signal is a field of its own, which the record writes or does not.
  cases did <;> cases hybrid <;> cases sig <;> rfl

/-- One state marks and values a signal as another does, unless the records take it over. -/
def Filled (sig : Signal) (r : Records) (taken : Bool) (s t : VehicleState) : Prop :=
  Bits.mem t.valid sig.index = (Bits.mem s.valid sig.index || taken) ∧
    t.quantity sig = if taken = true then r.quantity sig else s.quantity sig

theorem Filled.trans {sig : Signal} {r : Records} {taken taken' : Bool} {s t u : VehicleState}
    (first : Filled sig r taken s t) (second : Filled sig r taken' t u) :
    Filled sig r (taken || taken') s u := by
  -- A signal taken over by either step ends up with the record's value, since both write the same.
  unfold Filled
  rw [second.1, second.2, first.1, first.2]
  cases taken <;> cases taken' <;> simp

/-- A record put in under a condition takes over its own signals. -/
theorem fill_if (r : Records) (did : Did) (hybrid gate : Bool) (s : VehicleState) (sig : Signal) :
    Filled sig r (gate && decide (didOf hybrid sig = some did)) s
      (if gate = true then r.fill did hybrid s else s) := by
  unfold Filled
  -- A closed gate changes nothing; an open one takes over the record's own signals.
  cases gate with
  | false => simp
  | true => simp [fill_valid, fill_quantity, mem_sigsOf]

/-- One state says about a signal what another says. -/
def Untouched (sig : Signal) (s t : VehicleState) : Prop :=
  Bits.mem t.valid sig.index = Bits.mem s.valid sig.index ∧ t.quantity sig = s.quantity sig

theorem Untouched.trans {sig : Signal} {s t u : VehicleState} (first : Untouched sig s t)
    (second : Untouched sig t u) : Untouched sig s u :=
  ⟨second.1.trans first.1, second.2.trans first.2⟩

theorem Untouched.filled {sig : Signal} {s t : VehicleState} (untouched : Untouched sig s t)
    (r : Records) : Filled sig r false s t :=
  ⟨by rw [untouched.1, Bool.or_false], untouched.2⟩

/-- Advertising more changes nothing about any signal. -/
theorem untouched_capable (sig : Signal) (s : VehicleState) (mask : UInt32) :
    Untouched sig s { s with capable := mask } := by
  exact ⟨rfl, quantity_masks s s.valid mask sig⟩

/-- A standard parameter marks its own signal and changes no other. -/
theorem capPid_other (p : Plugin) (now : ℤ) (pid : UInt8) {own : Signal}
    {field : VehicleState → Double → VehicleState} (writes : Writes field own) (s : VehicleState)
    {sig : Signal} (different : own ≠ sig) : Untouched sig s (p.capPid now pid own field s) := by
  -- The bit that is marked is at another position.
  have apart : Bits.mem own.bit sig.index = false := by
    have small := own.index_lt
    rw [Signal.bit, Bits.mem_single (by omega)]
    simpa using fun same => different (Signal.index_inj.mp same)
  -- Three tests lead to the write; failing any of them leaves at most the mask changed.
  unfold Plugin.capPid
  dsimp only
  split
  · split
    · split
      · -- The marked bit is the parameter's own, and so is the written field.
        refine (untouched_capable sig s (s.capable ||| own.bit)).trans ⟨?_, ?_⟩
        · rw [writes.valid]
          simp [apart]
        · rw [writes.other different]
          exact quantity_masks _ _ _ sig
      · exact untouched_capable sig s _
    · exact untouched_capable sig s _
  · exact ⟨rfl, rfl⟩

/-- The standard parameters leave the signals of the records alone. -/
theorem fillPids_record (c : Config) (p : Plugin) (now : ℤ) (s : VehicleState) {sig : Signal} {did : Did}
    (stored : didOf c.hybrid sig = some did) : Untouched sig s (p.fillPids c now s) := by
  -- A parameter whose signal is read from no record changes nothing about one that is.
  have other (pid : UInt8) {own : Signal} {field : VehicleState → Double → VehicleState}
      (writes : Writes field own) (s : VehicleState) (standard : didOf c.hybrid own = none) :
      Untouched sig s (p.capPid now pid own field s) := by
    refine capPid_other p now pid writes s ?_
    rintro rfl
    rw [standard] at stored
    cases stored
  -- The parameters are filled one after the other, the last three on a car with an engine only.
  unfold Plugin.fillPids
  dsimp only
  refine (other pidSpeed writes_speed s rfl).trans ?_
  refine (other pidModuleVoltage writes_voltage _ rfl).trans ?_
  refine (other pidAmbientTemp writes_ambient _ rfl).trans ?_
  refine (other pidOdometer writes_odometer _ rfl).trans ?_
  -- On an electric car the engine speed belongs to the drive record and is not filled here.
  cases engine : c.hybrid with
  | false => exact ⟨rfl, rfl⟩
  | true =>
    refine (other pidRpm writes_rpm _ (by rw [engine]; rfl)).trans ?_
    refine (other pidCoolantTemp writes_coolant _ rfl).trans ?_
    exact other pidFuelLevel writes_fuel _ rfl

/-- Whoever keeps a record was found. -/
def Plugin.present (p : Plugin) : Did → Bool
  | .assist => p.assistPresent
  | _ => p.bmsPresent

/-- A record is published while its keeper is there and its answer is fresh. -/
def shown (p : Plugin) (did : Did) (now : ℤ) : Bool := p.present did && p.poller.fresh did.key now

/-- The battery controller's records each take over their signals while they are shown. -/
theorem fillBms_record (c : Config) (p : Plugin) (now : ℤ) (s : VehicleState) {sig : Signal} {did : Did}
    (stored : didOf c.hybrid sig = some did) :
    Filled sig p.records (shown p did now && decide (did ≠ .assist)) s (p.fillBms c now s) := by
  -- Without a battery controller nothing is advertised or filled.
  unfold Plugin.fillBms
  cases present : p.bmsPresent with
  | false => cases did <;> simpa [shown, Plugin.present, present] using Untouched.filled ⟨rfl, rfl⟩ p.records
  | true =>
    -- The three records are put in one after the other, each under its own freshness.
    let advertised := { s with capable := s.capable ||| (packSigs ||| rangeSigs ||| driveSigs c.hybrid) }
    have filled := (((untouched_capable sig s advertised.capable).filled p.records).trans
      (fill_if p.records .pack c.hybrid (p.poller.fresh kKeyPack now) _ sig)).trans
      ((fill_if p.records .range c.hybrid (p.poller.fresh kKeyRange now) _ sig).trans
      (fill_if p.records .drive c.hybrid (p.poller.fresh kKeyDrive now) _ sig))
    -- At most one of the three records is the signal's own.
    have taken : (false || p.poller.fresh kKeyPack now && decide (didOf c.hybrid sig = some .pack) ||
        (p.poller.fresh kKeyRange now && decide (didOf c.hybrid sig = some .range) ||
          p.poller.fresh kKeyDrive now && decide (didOf c.hybrid sig = some .drive))) =
        (shown p did now && decide (did ≠ .assist)) := by
      rw [stored]
      cases did <;> simp [shown, Plugin.present, present, Did.key]
    rw [taken] at filled
    exact filled

/-- The driver assist record takes over its signals while it is shown. -/
theorem fillAssist_record (c : Config) (p : Plugin) (now : ℤ) (s : VehicleState) {sig : Signal} {did : Did}
    (stored : didOf c.hybrid sig = some did) :
    Filled sig p.records (shown p did now && decide (did = .assist)) s (p.fillAssist now s) := by
  -- The driver-assist record has its own presence flag.
  unfold Plugin.fillAssist
  cases present : p.assistPresent with
  | false => cases did <;> simpa [shown, Plugin.present, present] using Untouched.filled ⟨rfl, rfl⟩ p.records
  | true =>
    let advertised := { s with capable := s.capable ||| assistSigs }
    have filled := ((untouched_capable sig s advertised.capable).filled p.records).trans
      (fill_if p.records .assist c.hybrid (p.poller.fresh kKeyAssist now) _ sig)
    have taken : (false || p.poller.fresh kKeyAssist now && decide (didOf c.hybrid sig = some .assist)) =
        (shown p did now && decide (did = .assist)) := by
      rw [stored]
      cases did <;> simp [shown, Plugin.present, present, Did.key]
    rw [taken] at filled
    exact filled

/-- A published state marks a record's signals while the record is shown, and gives them its values. -/
theorem state_record (c : Config) (p : Plugin) (now : ℤ) {sig : Signal} {did : Did}
    (stored : didOf c.hybrid sig = some did) :
    Bits.mem (p.state c now).valid sig.index = shown p did now ∧
      (shown p did now = true → (p.state c now).quantity sig = p.records.quantity sig) := by
  -- The state starts with no valid bit; the lamps are added last.
  let bare : VehicleState :=
    { VehicleState.zero with
      drivetrain := if c.hybrid then cpDrivetrainHev else cpDrivetrainBev
      source := c.source
      vehicleId := vehicleId (if c.hybrid then "emu-hybrid" else "emu-ev").toUTF8.data.toList none }
  -- The lamps are no signal's value.
  have lamps (s : VehicleState) (l : UInt32) : Untouched sig s { s with lamps := l } := by
    refine ⟨rfl, ?_⟩
    cases sig <;> rfl
  have filled : Filled sig p.records (shown p did now) bare (p.state c now) := by
    let inside := p.fillAssist now (p.fillBms c now (p.fillPids c now bare))
    have lit := lamps inside (lampsFor c.hybrid p.lamps p.lampsSeenMs now inside)
    have chain := (((fillPids_record c p now bare stored).filled p.records).trans
      (fillBms_record c p now _ stored)).trans
      ((fillAssist_record c p now _ stored).trans (lit.filled p.records))
    -- The signal is taken over in exactly one of the two stages, the one of its own record.
    have taken : (false || shown p did now && decide (did ≠ .assist) ||
        (shown p did now && decide (did = .assist) || false)) = shown p did now := by
      cases shown p did now <;> cases did <;> rfl
    rw [taken] at chain
    exact chain
  have unmarked : Bits.mem bare.valid sig.index = false := Bits.mem_zero _
  refine ⟨by rw [filled.1, unmarked, Bool.false_or], fun visible => ?_⟩
  rw [filled.2, if_pos visible]

end CanProxy.Emu
