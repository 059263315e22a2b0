import CanProxy.Proofs.Emu.Agreement

/-! What every published state says, in every run of the plugin. -/

namespace CanProxy.Emu

open Numeric

theorem lastLink_concat (log : List Event) (e : Event) :
    lastLink (log ++ [e]) = e.link?.or (lastLink log) :=
  Run.last_concat ..

/--
A published state is that of a plugin in agreement with the log, which holds no values while the host
was last told that the vehicle is gone.
-/
def Told (c : Config) (before : List Event) : Event → Prop
  | .publish s now => ∃ p, Agrees c before p ∧ s = p.state c now ∧
    (lastLink before = some false → ∀ pid, p.values pid = none)
  | _ => True

/-- The log told the truth so far, the plugin agrees with it, and the host knows of its vehicle. -/
structure Sound (c : Config) (log : List Event) (p : Plugin) : Prop where
  told : Run.Each (Told c) log
  agrees : Agrees c log p
  linked : p.discovered = true → lastLink log = some true

/-- Every move keeps the log true. -/
theorem Sound.move {c : Config} {log events : List Event} {p q : Plugin} (sound : Sound c log p)
    (moved : Move c p events q) : Sound c (log ++ events) q := by
  have agrees := sound.agrees.move moved
  -- Only a publish has something to be true about, and it is made in agreement with the log.
  cases moved with
  | missing searching now =>
    have gone : Agrees c (log ++ [.setLink false]) { p with values := fun _ => none } :=
      (sound.agrees.tell fun _ _ => ⟨rfl, rfl⟩).same rfl rfl rfl rfl
    rw [List.append_cons] at agrees ⊢
    refine ⟨Run.each_concat (Run.each_concat sound.told trivial) ⟨_, gone, rfl, fun _ _ => rfl⟩, agrees,
      fun known => ?_⟩
    rw [show p.discovered = true from known] at searching
    cases searching
  | published known now next =>
    -- A known vehicle is linked, so this publish is none of a vehicle that is gone.
    have linked := sound.linked known
    refine ⟨Run.each_concat sound.told ⟨p, sound.agrees, rfl, fun down => ?_⟩, agrees, fun _ => ?_⟩
    · rw [linked] at down
      cases down
    · rw [lastLink_concat, linked]
      rfl
  | found searching offered =>
    rw [List.append_cons] at agrees ⊢
    refine ⟨Run.each_concat (Run.each_concat sound.told trivial) trivial, agrees, fun _ => ?_⟩
    rw [lastLink_concat]
    rfl
  | lost known silent => exact ⟨Run.each_concat sound.told trivial, agrees, nofun⟩
  | settled known listed turn =>
    refine ⟨Run.each_append sound.told fun e member _ => ?_, agrees, fun _ => ?_⟩
    · obtain ⟨did, d, time, rfl⟩ := ask_records turn member
      trivial
    · -- Records say nothing about the link.
      refine (Run.last_append Event.link? log fun e member => ?_).trans (sound.linked known)
      obtain ⟨did, d, time, rfl⟩ := ask_records turn member
      rfl
  | lit | requested =>
    rw [List.append_nil] at agrees ⊢
    exact ⟨sound.told, agrees, sound.linked⟩

/-- What is published at any point of a run is the state of a plugin in agreement with the log before. -/
theorem published_state (c : Config) (turns : List Turn) {before after : List Event}
    {s : VehicleState} {now : ℤ} (split : Plugin.log c turns = before ++ .publish s now :: after) :
    ∃ p, Agrees c before p ∧ s = p.state c now ∧
      (lastLink before = some false → ∀ pid, p.values pid = none) :=
  -- The invariant holds of the whole run, and the publish asked about is one entry of its log.
  (run_keeps (I := Sound c) ⟨Run.each_nil, Agrees.start c, nofun⟩ Sound.move turns).told
    before (.publish s now) after split

/--
In every run of the plugin, a published state carries the records accepted last, at most three
intervals old, exactly when no rejected record came after one that is still fresh.
-/
theorem published_carries_accepted_iff (c : Config) (turns : List Turn) (before after : List Event)
    (s : VehicleState) (now : ℤ) (split : Plugin.log c turns = before ++ .publish s now :: after) :
    CarriesAccepted c before s now ↔ NoFreshRejection c before now := by
  obtain ⟨p, agrees, rfl, -⟩ := published_state c turns split
  exact agrees.carries_iff now

/-- A car found a second after the start publishes the drive record it answers with. -/
theorem published_carries_accepted_start :
    let c : Config := ⟨false, cpSourceEmulator, 100⟩
    let turns :=
      [{ Turn.silent 1000 with
        discovery := some ∅
        packProbe := some [0x62, 1, 1]
        reply := some [0x62, 1, 3, 3, 3, 0, 0, 0, 0] }]
    CarriesAccepted c
      [.discovered, .setLink true, .record .drive [3, 3, 0, 0, 0, 0] 1000]
      ((Run.final (Plugin.step c) Plugin.new turns).state c 1000) 1000 := by
  intro c turns
  -- One record was received, for the drive, and it was accepted.
  refine (published_carries_accepted_iff c turns _ [] _ _ (by decide +kernel)).mpr ?_
  intro did _ _ _ _ _ last decodable
  cases did with
  | drive =>
    obtain rfl := Option.some.inj decodable
    decide +kernel
  | _ => cases decodable

/--
The decoder rejects gear nine after it has written it, and the gear is published as current.

The accepted record, a tenth of a second old, says gear three.
-/
theorem rejected_gear_published :
    let c : Config := ⟨false, cpSourceEmulator, 100⟩
    let turns :=
      [{ Turn.silent 1000 with
        discovery := some ∅
        packProbe := some [0x62, 1, 1]
        reply := some [0x62, 1, 3, 3, 3, 0, 0, 0, 0] },
      Turn.silent 1110,
      Turn.silent 1111,
      { Turn.silent 1170 with reply := some [0x62, 1, 3, 9, 3, 0, 0, 0, 0] }]
    let log := Plugin.log c turns
    let s := (Run.final (Plugin.step c) Plugin.new turns).state c 1170
    log = log.dropLast ++ [.publish s 1170] ∧ s.gear = 9 ∧
      accepted .drive log.dropLast = some ([3, 3, 0, 0, 0, 0], 1000) ∧
      ¬CarriesAccepted c log.dropLast s 1170 := by
  intro c turns log s
  have last : accepted .drive log.dropLast = some ([3, 3, 0, 0, 0, 0], 1000) := by decide +kernel
  -- The gear published is nine, and the accepted record's is three.
  refine ⟨by decide +kernel, by decide +kernel, last, fun carries => ?_⟩
  obtain ⟨d, time, found, value, -⟩ := carries .gear .drive rfl (by decide +kernel)
  rw [last] at found
  cases found
  exact absurd value (by decide +kernel)

end CanProxy.Emu
