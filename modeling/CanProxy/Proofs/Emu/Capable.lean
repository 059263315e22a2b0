import CanProxy.Proofs.Emu.Moves
import CanProxy.Proofs.Plugin.Fields

/-! What the published states advertise, and when that changes. -/

namespace CanProxy.Emu

open Numeric

/-- The standard parameters a car is asked for, each with its signal. -/
def standardPids (hybrid : Bool) : List (UInt8 × Signal) :=
  let common :=
    [(pidSpeed, .speed), (pidModuleVoltage, .auxBattery), (pidAmbientTemp, .ambientTemp),
      (pidOdometer, .odometer)]
  if hybrid then common ++ [(pidRpm, .rpm), (pidCoolantTemp, .coolantTemp), (pidFuelLevel, .fuelLevel)]
  else common

/-- Everything a plugin advertises, by what its last discovery found. -/
def Plugin.advertised (c : Config) (p : Plugin) : UInt32 :=
  let caps := (standardPids c.hybrid).foldl (fun caps (pid, sig) =>
    caps ||| if pid ∈ p.supported then sig.bit else 0) 0
  let caps := if p.bmsPresent then caps ||| (packSigs ||| rangeSigs ||| driveSigs c.hybrid) else caps
  if p.assistPresent then caps ||| assistSigs else caps

/-- A standard parameter is advertised when it is supported, whatever its value. -/
theorem capPid_capable (p : Plugin) (now : ℤ) (pid : UInt8) {own : Signal}
    {field : VehicleState → Double → VehicleState} (writes : Writes field own) (s : VehicleState) :
    (p.capPid now pid own field s).capable =
      s.capable ||| if pid ∈ p.supported then own.bit else 0 := by
  -- The value only decides about the valid bit.
  unfold Plugin.capPid
  split
  · split
    · split
      · rw [writes.capable]
      · rfl
    · rfl
  · rw [UInt32.or_zero]

/-- A published state advertises what the last discovery found, at whatever time. -/
theorem state_capable (c : Config) (p : Plugin) (now : ℤ) :
    (p.state c now).capable = p.advertised c := by
  -- The stages each add their own part, and freshness decides about none of it.
  have pids (s : VehicleState) : (p.fillPids c now s).capable =
      (standardPids c.hybrid).foldl (fun caps (pid, sig) =>
        caps ||| if pid ∈ p.supported then sig.bit else 0) s.capable := by
    unfold Plugin.fillPids standardPids
    cases c.hybrid <;> simp only [capPid_capable p now _ writes_speed,
      capPid_capable p now _ writes_rpm, capPid_capable p now _ writes_coolant,
      capPid_capable p now _ writes_fuel, capPid_capable p now _ writes_voltage,
      capPid_capable p now _ writes_ambient, capPid_capable p now _ writes_odometer, if_true,
      Bool.false_eq_true, if_false, List.foldl_cons, List.foldl_nil, List.cons_append, List.nil_append]
  have bms (s : VehicleState) : (p.fillBms c now s).capable =
      if p.bmsPresent then s.capable ||| (packSigs ||| rangeSigs ||| driveSigs c.hybrid)
      else s.capable := by
    unfold Plugin.fillBms
    split
    · have pack (r : Pack) (s : VehicleState) : (r.fill s).capable = s.capable := rfl
      have range (r : Range) (s : VehicleState) : (r.fill s).capable = s.capable := rfl
      have drive (r : Drive) (s : VehicleState) : (r.fill c.hybrid s).capable = s.capable := by
        cases hybrid : c.hybrid <;> rfl
      dsimp only
      split <;> split <;> split <;> simp only [pack, range, drive]
    · rfl
  have assist (s : VehicleState) : (p.fillAssist now s).capable =
      if p.assistPresent then s.capable ||| assistSigs else s.capable := by
    unfold Plugin.fillAssist
    split
    · dsimp only
      split <;> rfl
    · rfl
  unfold Plugin.state Plugin.advertised
  simp only [assist, bms, pids]
  rfl

/-- Members that say nothing about the vehicle may change without changing what is advertised. -/
theorem advertised_same {c : Config} {p q : Plugin} (supported : q.supported = p.supported)
    (bms : q.bmsPresent = p.bmsPresent) (assist : q.assistPresent = p.assistPresent) :
    q.advertised c = p.advertised c := by
  rw [Plugin.advertised, Plugin.advertised, supported, bms, assist]

/-- Asking for something changes nothing about what the vehicle offers. -/
theorem settled_advertised (c : Config) (turn : Turn) (key : UInt8) (p : Plugin) :
    (Plugin.settled turn key (p.ask turn key)).advertised c = p.advertised c := by
  -- Records, values, and the schedule may change, and nothing else.
  have asked : (p.ask turn key).2.1.supported = p.supported ∧
      (p.ask turn key).2.1.bmsPresent = p.bmsPresent ∧
      (p.ask turn key).2.1.assistPresent = p.assistPresent := by
    unfold Plugin.ask
    split
    · unfold Plugin.pollDid
      dsimp only
      split
      · split <;> exact ⟨rfl, rfl, rfl⟩
      · exact ⟨rfl, rfl, rfl⟩
    · unfold Plugin.query
      cases turn.answer <;> exact ⟨rfl, rfl, rfl⟩
  refine (?_ : _ = (p.ask turn key).2.1.advertised c).trans
    (advertised_same asked.1 asked.2.1 asked.2.2)
  unfold Plugin.settled
  dsimp only
  split <;> rfl

/-- A successful search for a vehicle. -/
def Event.discovers : Event → Bool
  | .discovered => true
  | _ => false

/-- Everything published since the last discovery advertised the same. -/
def SameSince (mask : UInt32) (log : List Event) : Prop :=
  ∀ s now, .publish s now ∈ Run.since Event.discovers log → s.capable = mask

/-- The log was steady between its discoveries so far, and the plugin still advertises the same. -/
structure Steady (c : Config) (log : List Event) (p : Plugin) : Prop where
  told : Run.Each (fun before e => ∀ s now, e = .publish s now → SameSince s.capable before) log
  same : SameSince (p.advertised c) log

/-- Something told that is neither a publish nor a discovery changes nothing. -/
theorem Steady.tell {c : Config} {log events : List Event} {p q : Plugin} (steady : Steady c log p)
    (quiet : ∀ e ∈ events, e.discovers = false ∧ ∀ s now, e ≠ .publish s now)
    (kept : q.advertised c = p.advertised c) : Steady c (log ++ events) q := by
  refine ⟨Run.each_append steady.told fun e member before s now shown => ?_, fun s now member => ?_⟩
  · exact absurd shown ((quiet e member).2 s now)
  · -- A publish among what counts now is one that counted before.
    rw [Run.since_append Event.discovers log fun e member => (quiet e member).1,
      List.mem_append] at member
    rw [kept]
    rcases member with earlier | added
    · exact steady.same s now earlier
    · exact absurd rfl ((quiet _ added).2 s now)

/-- Publishing the current state keeps the log steady. -/
theorem Steady.publish {c : Config} {log : List Event} {p : Plugin} (steady : Steady c log p)
    (now : ℤ) : Steady c (log ++ [.publish (p.state c now) now]) p := by
  refine ⟨Run.each_concat steady.told ?_, fun s at' member => ?_⟩
  · rintro s at' shown
    cases shown
    rw [state_capable]
    exact steady.same
  · rw [Run.since_append Event.discovers log (by simp [Event.discovers]), List.mem_append,
      List.mem_singleton] at member
    rcases member with earlier | last
    · exact steady.same s at' earlier
    · cases last
      exact state_capable c p now

/-- Telling about the link is no news about what is advertised. -/
theorem Steady.setLink {c : Config} {log : List Event} {p q : Plugin} (steady : Steady c log p)
    (present : Bool) (kept : q.advertised c = p.advertised c) :
    Steady c (log ++ [.setLink present]) q := by
  refine steady.tell (fun e member => ?_) kept
  rw [List.mem_singleton.mp member]
  exact ⟨rfl, by simp⟩

/-- Every move keeps the log steady. -/
theorem Steady.move {c : Config} {log events : List Event} {p q : Plugin} (steady : Steady c log p)
    (moved : Move c p events q) : Steady c (log ++ events) q := by
  cases moved with
  | found searching offered =>
    -- A discovery starts over, and nothing was published since.
    refine ⟨Run.each_append steady.told fun e member before s now shown => ?_, fun s now member => ?_⟩
    · rcases List.mem_pair.mp member with rfl | rfl <;> cases shown
    · rw [List.append_cons, Run.since_concat, Run.since_concat] at member
      simp [Event.discovers] at member
  | missing searching now =>
    rw [List.append_cons]
    exact (steady.setLink false (q := { p with values := fun _ => none })
      (advertised_same rfl rfl rfl)).publish now
  | published known now next =>
    exact ⟨(steady.publish now).told, (steady.publish now).same⟩
  | settled known listed turn =>
    refine steady.tell (fun e member => ?_) (settled_advertised c turn _ p)
    obtain ⟨did, d, time, rfl⟩ := ask_records turn member
    exact ⟨rfl, by simp⟩
  | lost known silent => exact steady.setLink false (advertised_same rfl rfl rfl)
  | lit | requested =>
    exact steady.tell (fun _ member => absurd member List.not_mem_nil) (advertised_same rfl rfl rfl)

/-- Without a discovery between them, two published states advertise the same. -/
theorem capable_steady (c : Config) (turns : List Turn) {before mid after : List Event}
    {s s' : VehicleState} {now now' : ℤ}
    (split : Plugin.log c turns = before ++ .publish s now :: mid ++ .publish s' now' :: after)
    (undiscovered : ∀ e ∈ mid, e.discovers = false) : s'.capable = s.capable := by
  -- The earlier state is among those published since the last discovery.
  have steady := run_keeps (I := Steady c) ⟨Run.each_nil, by simp [SameSince]⟩ Steady.move turns
  have kept : ∀ e ∈ (.publish s now :: mid : List Event), e.discovers = false := by
    intro e member
    rcases List.mem_cons.mp member with rfl | member
    · rfl
    · exact undiscovered e member
  refine (steady.told _ (.publish s' now') after split s' now' rfl s now ?_).symm
  rw [Run.since_append _ _ kept]
  exact List.mem_append_right _ List.mem_cons_self

end CanProxy.Emu
