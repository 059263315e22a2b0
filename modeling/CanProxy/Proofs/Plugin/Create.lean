import CanProxy.Plugin.Create
import CanProxy.Proofs.Core.Arguments
import CanProxy.Proofs.Core.Traffic
import CanProxy.Proofs.Ice.Gauge
import CanProxy.Proofs.Sim.Shown

/-! From the command line to the plugin that is created, and from there to the bus. -/

namespace CanProxy

open Numeric

/-- The keys that plugins look up. -/
def argKeys : List Text :=
  ["drivetrain", "assist", "link", "stall_after_ms", "tick_ms", "port", "timeout_ms", "source", "fast_ms",
    "telltale_id", "record"].map String.toList

/-- No key of a plugin ends early. -/
theorem argKeys_plain : ∀ key ∈ argKeys, Text.nul ∉ key := by decide

/-- Two sets of arguments look the same to every plugin. -/
structure Alike (a b : PluginArgs) : Prop where
  vehicleIf : a.vehicleIf = b.vehicleIf
  looked : ∀ key ∈ argKeys, canproxyArg a key = canproxyArg b key

namespace Alike

variable {a b : PluginArgs}

/-- An argument that looks the same is read the same. -/
theorem read (alike : Alike a b) (key : Text) (listed : key ∈ argKeys) {α : Type} (fallback : α)
    (reading : Text → Except Text α) : readArg a key fallback reading = readArg b key fallback reading := by
  rw [readArg, alike.looked key listed, readArg]

theorem script (alike : Alike a b) : Script.create a = Script.create b := by
  -- The arguments enter a creation through what is read of them only.
  simp only [Script.create, alike.read "drivetrain".toList (by decide), alike.read "assist".toList (by decide),
    alike.read "link".toList (by decide), alike.read "stall_after_ms".toList (by decide),
    alike.read "tick_ms".toList (by decide)]

theorem forza (alike : Alike a b) : Forza.create a = Forza.create b := by
  simp only [Forza.create, alike.read "port".toList (by decide),
    alike.read "drivetrain".toList (by decide), alike.read "timeout_ms".toList (by decide)]

theorem fastMs (alike : Alike a b) : readFastMs a = readFastMs b := alike.read "fast_ms".toList (by decide) ..

theorem record (alike : Alike a b) : readRecord a = readRecord b := alike.read "record".toList (by decide) ..

theorem ice (alike : Alike a b) : Ice.create a = Ice.create b := by
  simp only [Ice.create, alike.vehicleIf, alike.read "source".toList (by decide), alike.fastMs,
    alike.read "telltale_id".toList (by decide), alike.record]

theorem emu (alike : Alike a b) (hybrid : Bool) : Emu.createImpl hybrid a = Emu.createImpl hybrid b := by
  simp only [Emu.createImpl, alike.vehicleIf, alike.read "source".toList (by decide), alike.fastMs,
    alike.record]

end Alike

namespace Config

/-- The value that a plugin finds under a key; a recorded path counts as the last argument. -/
def firstArg (pairs : List (Opt × Text)) (key : Text) : Option Text :=
  (((valuesIn .pluginArg pairs).map splitArg ++ recordArgs pairs).find? (·.1 = key)).map Prod.snd

/--
Whichever plugin is created, what it is configured with is decided by the interface and the first value of
each key that plugins know.

How the command line is spelled, in which order it names keys, what it repeats, and what no plugin asks for
makes no difference.
-/
theorem created_by_first {env env' : Option Text} {pairs pairs' : List (Opt × Text)}
    (terminated : ∀ pair ∈ pairs, Text.nul ∉ pair.2) (terminated' : ∀ pair ∈ pairs', Text.nul ∉ pair.2)
    {args args' : List Text} (spells : Spells pairs args) (spells' : Spells pairs' args') {cfg cfg' : Config}
    (accepted : parse env args = (cfg, [])) (accepted' : parse env' args' = (cfg', []))
    (interface : (lastIn .vehicleIf pairs).getD [] = (lastIn .vehicleIf pairs').getD [])
    (first : ∀ key ∈ argKeys, firstArg pairs key = firstArg pairs' key) :
    let a := PluginHost.passes cfg.vehicleIf cfg.pluginArgs
    let b := PluginHost.passes cfg'.vehicleIf cfg'.pluginArgs
    Script.create a = Script.create b ∧ Forza.create a = Forza.create b ∧ Ice.create a = Ice.create b ∧
      ∀ hybrid, Emu.createImpl hybrid a = Emu.createImpl hybrid b := by
  -- An accepted command line configures what its pairs say, whatever its spelling.
  obtain ⟨-, rfl⟩ := (parse_accepted env spells).mp accepted
  obtain ⟨-, rfl⟩ := (parse_accepted env' spells').mp accepted'
  intro a b
  have alike : Alike a b := by
    refine ⟨?_, fun key listed => ?_⟩
    · -- The last interface is the one that is configured.
      show (PluginHost.passes ((lastIn .vehicleIf pairs).getD []) _).vehicleIf = _
      rw [interface]
      rfl
    -- What a plugin looks up is the first pair with the key, as no key ends early.
    · have plain := argKeys_plain key listed
      rw [canproxyArg, canproxyArg]
      exact (lookupArg_eq (configured_keys terminated) plain).trans
        ((first key listed).trans (lookupArg_eq (configured_keys terminated') plain).symm)
  exact ⟨alike.script, alike.forza, alike.ice, alike.emu⟩

/-- A tick that is given twice is the first one, and an argument for another plugin is none for this one. -/
theorem created_by_first_tick :
    let args := ["--contract-if=vcan0", "--plugin=sim", "--plugin-arg", "tick_ms=50"].map String.toList
    let args' := ["--plugin-arg=tick_ms=50", "--plugin-arg=colour=red", "--plugin", "sim",
      "--plugin-arg=tick_ms=70", "--contract-if=vcan0"].map String.toList
    Script.create (PluginHost.passes (parse none args).1.vehicleIf (parse none args).1.pluginArgs) =
      Script.create (PluginHost.passes (parse none args').1.vehicleIf (parse none args').1.pluginArgs) := by
  intro args args'
  let pairs : List (Opt × Text) := [(.contractIf, "vcan0".toList), (.plugin, "sim".toList),
    (.pluginArg, "tick_ms=50".toList)]
  let pairs' : List (Opt × Text) := [(.pluginArg, "tick_ms=50".toList), (.pluginArg, "colour=red".toList),
    (.plugin, "sim".toList), (.pluginArg, "tick_ms=70".toList), (.contractIf, "vcan0".toList)]
  have spells : Spells pairs args :=
    .joined .contractIf _ (.joined .plugin _ (.apart .pluginArg _ .nil))
  have spells' : Spells pairs' args' :=
    .joined .pluginArg _ (.joined .pluginArg _ (.apart .plugin _ (.joined .pluginArg _
      (.joined .contractIf _ .nil))))
  have ok : (parse none args).2 = [] := by decide +kernel
  have ok' : (parse none args').2 = [] := by decide +kernel
  exact (@created_by_first none none pairs pairs' (by decide) (by decide) args args' spells spells' _ _
    (Prod.ext rfl ok) (Prod.ext rfl ok') (by decide) (by decide +kernel)).1

end Config

namespace PluginHost

variable {H I : Type} {p : PluginHost H I}

/-- The event creates no instance. -/
def Sterile (e : HostEvent H I) : Prop := ∀ h args result, e ≠ .create h args result

/-- Whatever there is to unload, nothing is created by it. -/
theorem unload_sterile (p : PluginHost H I) : ∀ e ∈ p.unload.2, Sterile e := by
  -- Whatever there is, it is stopped, destroyed, and closed; these are the only events.
  obtain ⟨handle, plugin, inst, started⟩ := p
  cases inst <;> cases handle <;> cases plugin <;> cases started <;>
    simp [unload, stop, destroy, close, calls, Sterile]

theorem giveUp_sterile {before : List (HostEvent H I)} (sterile : ∀ e ∈ before, Sterile e) (error : Text) :
    ∀ e ∈ (p.giveUp before error).events, Sterile e := by
  intro e member
  rcases List.mem_append.mp member with earlier | unloaded
  · exact sterile e earlier
  · exact unload_sterile p e unloaded

/-- A load creates nothing, however far it goes. -/
theorem load_sterile (path : Text) (found : Loading H) : ∀ e ∈ (p.load path found).events, Sterile e := by
  have unloading := unload_sterile p
  unfold load
  dsimp only
  -- One check after the other; a failed one unloads again.
  split
  · exact unloading
  next h _ =>
    have opened : ∀ e ∈ p.unload.2 ++ [.opened h], Sterile e := by
      intro e member
      rcases List.mem_append.mp member with before | now
      · exact unloading e before
      · rw [List.mem_singleton.mp now]
        simp [Sterile]
    have entered : ∀ e ∈ p.unload.2 ++ [.opened h] ++ [.entry h], Sterile e := by
      intro e member
      rcases List.mem_append.mp member with before | now
      · exact opened e before
      · rw [List.mem_singleton.mp now]
        simp [Sterile]
    split
    · split
      · exact giveUp_sterile entered _
      · split
        · exact giveUp_sterile entered _
        · split
          · exact entered
          · exact giveUp_sterile entered _
    · exact giveUp_sterile opened _

theorem start_sterile (rc : ℤ) : ∀ e ∈ (p.start rc).events, Sterile e := by
  obtain ⟨handle, plugin, inst, started⟩ := p
  cases inst <;> cases plugin <;> cases started <;> by_cases succeeded : rc = 0 <;>
    simp [start, calls, succeeded, Sterile]

theorem stop_sterile : ∀ e ∈ p.stop.2, Sterile e := by
  obtain ⟨handle, plugin, inst, started⟩ := p
  cases inst <;> cases plugin <;> cases started <;> simp [stop, calls, Sterile]

end PluginHost

/-- What is sent in a run was sent by one of its ticks. -/
theorem Proxy.transmitted_sent {m : Machine} {publisher : Publisher} {calls : List Call} {frame : Sent}
    (sent : frame ∈ transmitted m publisher calls) :
    ∃ past now, past ++ [.tick now] <+: calls ∧ frame ∈ sentBy m publisher past now := by
  -- Calls are added at the end; what was sent before stays, and only a tick adds to it.
  induction calls using List.reverseRecOn with
  | nil => cases sent
  | append_singleton calls call ih =>
    have earlier (before : frame ∈ transmitted m publisher calls) :
        ∃ past now, past ++ [.tick now] <+: calls ++ [call] ∧ frame ∈ sentBy m publisher past now := by
      obtain ⟨past, now, within, sent⟩ := ih before
      exact ⟨past, now, within.trans (List.prefix_append _ _), sent⟩
    cases call with
    | tick now =>
      rw [(ticked m publisher calls now).1] at sent
      rcases List.mem_append.mp sent with before | last
      · exact earlier before
      · exact ⟨calls, now, List.prefix_refl _, last⟩
    | publish s now => exact earlier ((reported m publisher calls (.publish s) now).1 ▸ sent)
    | setLink present now => exact earlier ((reported m publisher calls (.setLink present) now).1 ▸ sent)

/-- The calls so far were made for reports if all of them were. -/
theorem Drives.before {reports : List Report} {past calls : List Call} (driven : Drives reports calls)
    (within : past <+: calls) : Drives reports past :=
  (within.filterMap Call.report?).trans driven

namespace Process

variable {H I : Type} {w : World H I} {p : Process H I}

/-- What the main thread creates is created with the arguments of the command line. -/
theorem main_creates (ready : p.Ready) (known : Known w p) {library : H} {pa : PluginArgs}
    {created : Option I} (made : .host (.create library pa created) ∈ (p.main w).2) :
    let cfg := (Config.parse w.env w.args).1
    pa = PluginHost.passes cfg.vehicleIf cfg.pluginArgs := by
  have none {events : List (HostEvent H I)} (sterile : ∀ e ∈ events, PluginHost.Sterile e)
      (member : (.host (.create library pa created) : Deed H I) ∈ events.map .host) : False := by
    obtain ⟨e, told, same⟩ := List.mem_map.mp member
    exact sterile e told _ _ _ (Deed.host.inj same)
  obtain ⟨stage, cfg, bus, host, store, publisher, running, thread, stop, handled, killed⟩ := p
  unfold main at made
  -- One stage creates the plugin, from the configuration that was read at first.
  cases stage with
  | create =>
    obtain ⟨same, -⟩ := known
    obtain rfl : cfg = _ := same
    obtain ⟨e, told, same⟩ := List.mem_map.mp made
    cases Deed.host.inj same
    exact PluginHost.create_passes told
  | load => exact (none (PluginHost.load_sterile _ _) made).elim
  | startPlugin => exact (none (PluginHost.start_sterile _) made).elim
  | stopPlugin => exact (none PluginHost.stop_sterile made).elim
  | unload | destroyHost => exact (none (PluginHost.unload_sterile _) made).elim
  | parse =>
    dsimp only at made
    split at made
    · simp at made
    · split at made <;> simp at made
  | startPublisher | wait | stopPublisher | join | destroyPublisher =>
    dsimp only at made
    split at made <;> simp at made
  | openBus | handleSignals | destroyBus | exited | aborted => simp at made

/-- The plugin is created with the arguments of the command line. -/
theorem created_passes (w : World H I) (turns : List Turn) {library : H} {pa : PluginArgs}
    {created : Option I} (made : .create library pa created ∈ hostLog (Process.log w turns)) :
    let cfg := (Config.parse w.env w.args).1
    pa = PluginHost.passes cfg.vehicleIf cfg.pluginArgs := by
  obtain ⟨deed, member, told⟩ := List.mem_filterMap.mp made
  obtain rfl : deed = .host (.create library pa created) := by
    cases deed with
    | host e => exact congrArg Deed.host (Option.some.inj told)
    | _ => cases told
  -- The log grows turn by turn, and what a turn adds comes from a state that was reached.
  revert member
  refine @Run.invariant _ _ _ (step w) start turns
    (fun past log p => p = after w past ∧ (.host (.create library pa created) ∈ log → pa = _))
    ⟨rfl, by simp⟩ ?_ |>.2
  intro past turn _ held
  obtain ⟨same, earlier⟩ := held
  refine ⟨(Run.final_append (step w) start past [turn]).symm, fun member => ?_⟩
  rcases List.mem_append.mp member with before | now
  · exact earlier before
  · rw [same] at now
    rcases step_aside w (after w past) turn with main | aside
    · rw [main] at now
      exact main_creates (sound_after w past).2 (relays_after w past).known now
    · cases (aside.quiet _ now).1

/-- What is written on the bus was sent by a tick, after some of the calls that were made. -/
theorem written_sent (w : World H I) (turns : List Turn) {frame : Sent}
    (written : frame ∈ outgoing (Process.log w turns)) :
    ∃ publisher past now,
      publisher.timeout = ((Config.parse w.env w.args).1.pluginTimeoutMs.toNat : ℤ) * 1000000 ∧
      past ++ [.tick now] <+: callsOf (Process.log w turns) ∧
      frame ∈ Proxy.sentBy w.machine publisher past now := by
  -- Before the schedule is armed nothing is written, and after it what the machine sends.
  rcases traffic w turns with ⟨-, silent⟩ | ⟨t0, d, -, -, sent⟩
  · rw [silent] at written
    cases written
  · rw [sent] at written
    obtain ⟨past, now, within, last⟩ := Proxy.transmitted_sent written
    exact ⟨_, past, now, rfl, within, last⟩

/--
From the command line to the bus: what the daemon with a simulated vehicle writes is the script of the
vehicle that the command line asks for.

Whichever thread has its turn, as long as the calls that reach the store are those of the vehicle that is
created, a frame that is written shows a signal exactly while the script provides it, the link is up, and
the latest publish is no older than the timeout on the command line. What it shows then is the state of the
script one tick further for every publish before: codes as they are, and gauges to half a step of their
grids, all but odometer and consumption, which can leave their range.
-/
theorem simulated (w : World H I) (turns : List Turn) {library : H} {pa : PluginArgs} {created : Option I}
    (made : .create library pa created ∈ hostLog (Process.log w turns)) {c : Script.Config}
    (accepted : Script.create pa = .ok c) {ticks : Nat}
    (driven : Drives ((Script.log c ticks).filterMap Script.Event.report?) (callsOf (Process.log w turns)))
    {frame : Sent} (written : frame ∈ outgoing (Process.log w turns)) (sig : Signal)
    (own : sig.frame = frame.id) :
    let cfg := (Config.parse w.env w.args).1
    let received := receive fun _ => frame.data
    Script.create (PluginHost.passes cfg.vehicleIf cfg.pluginArgs) = .ok c ∧
    ∃ past now, past ++ [.tick now] <+: callsOf (Process.log w turns) ∧
      (received.available sig = true ↔
        Bits.mem c.capable sig.index = true ∧ Live ((cfg.pluginTimeoutMs.toNat : ℤ) * 1000000) past now) ∧
      (received.available sig = true →
        ∃ n p, (past.filterMap Call.published?).length = n + 1 ∧ n < Script.publishes c ticks ∧
          Cycle.At Script.dur ((n + 1) * c.tickMs) p ∧
          (sig = .speed → received.reading sig = sig.onGrid (Script.speedAt p)) ∧
          (sig.scale? = none → received.reading sig = (Script.published c n).quantity sig) ∧
          ∀ scale, sig.scale? = some scale → sig ≠ .odometer → sig ≠ .consumption →
            ∃ q shown, (Script.published c n).quantity sig = .finite q ∧
              received.reading sig = .finite shown ∧ |shown - q| ≤ scale.lsb / 2) := by
  intro cfg received
  -- The tick that sent the frame came after some of the calls, which are the vehicle's as well.
  obtain ⟨publisher, past, now, timeout, within, sent⟩ := written_sent w turns written
  have before : Drives ((Script.log c ticks).filterMap Script.Event.report?) past :=
    driven.before ((List.prefix_append _ _).trans within)
  have shown := Script.script_shown ticks w.machine publisher before sent sig own
  rw [timeout] at shown
  exact ⟨created_passes w turns made ▸ accepted, past, now, within, shown⟩

/-- A vehicle with a tick of fifty milliseconds shows the speed of its script after one or two of them. -/
theorem simulated_speed :
    let frame : Sent := ⟨0, .motion, #v[0xC8, 0x00, 0x96, 0x00, 0x03, 0x03, 0x00, 0x00]⟩
    ∃ n < 2, ∃ p, Cycle.At Script.dur (((n : ℕ) + 1) * 50) p ∧
      (receive fun _ => frame.data).reading .speed = Signal.speed.onGrid (Script.speedAt p) := by
  intro frame
  let d : PluginDescriptor := ⟨1, some "sim".toList, 1, 0, true, true, true, true⟩
  let w : World Unit Unit :=
    { machine := .indefinite
      env := none
      args := ["--contract-if=vcan0", "--plugin=sim", "--plugin-arg=tick_ms=50"].map String.toList
      kernel := ⟨3, fun _ => 0, 0, []⟩
      found := fun _ => ⟨some (), [], true, some d⟩
      created := some ()
      startRc := 0 }
  let pa : PluginArgs := ⟨none, [("tick_ms".toList, "50".toList)]⟩
  let c : Script.Config := ⟨cpDrivetrainBev, true, true, -1, 50, by decide, by decide⟩
  let turns : List Turn :=
    List.replicate 6 .main ++
      [.publisher 0, .plugin (.setLink true) 0, .plugin (.publish (Script.published c 0)) 0,
        .plugin (.publish (Script.published c 1)) 0, .publisher 0, .publisher 0]
  have made : .create () pa (some ()) ∈ hostLog (Process.log w turns) := by decide +kernel
  have accepted : Script.create pa = .ok c := rfl
  have driven : Drives ((Script.log c 2).filterMap Script.Event.report?) (callsOf (Process.log w turns)) := by
    unfold Drives
    decide +kernel
  have written : frame ∈ outgoing (Process.log w turns) := by decide +kernel
  obtain ⟨-, past, now, within, -, shown⟩ := simulated w turns made accepted driven written .speed rfl
  obtain ⟨n, p, -, few, place, speed, -⟩ := shown (by decide +kernel)
  have two : Script.publishes c 2 = 2 := by decide
  exact ⟨n, two ▸ few, p, place, speed rfl⟩

/-- No parameter is asked for less often than every hundred seconds, whatever the command line. -/
theorem interval_bounded (o : Ice.Created) (pid : UInt8) : o.config.interval pid ≤ 100000 := by
  obtain ⟨-, slow⟩ := o.paced
  -- The slowest parameters are asked for twenty times less often than the fast ones.
  unfold Ice.Config.interval
  split
  · omega
  · split <;> omega

/--
From a car to the bus: what the daemon with a car on its vehicle interface writes, the car has said.

Whichever thread has its turn, as long as the calls that reach the store are those of the plugin that the
command line configures, a signal that a written frame shows is the gauge of an answer of one controller to
the parameter behind it, with its formula computed exactly. The answer was at most three intervals old when
it was published, which is five minutes for the slowest interval that a command line can ask for.
-/
theorem served (w : World H I) (turns : List Turn) {library : H} {pa : PluginArgs} {created : Option I}
    (made : .create library pa created ∈ hostLog (Process.log w turns)) {o : Ice.Created}
    (accepted : Ice.create pa = .ok o) {bus : List Ice.BusTurn}
    (driven : Drives ((Ice.Loop.log o.config o.broadcastId bus).filterMap Ice.Event.report?)
      (callsOf (Process.log w turns)))
    {frame : Sent} (written : frame ∈ outgoing (Process.log w turns)) :
    let cfg := (Config.parse w.env w.args).1
    let received := receive fun _ => frame.data
    Ice.create (PluginHost.passes cfg.vehicleIf cfg.pluginArgs) = .ok o ∧
    ∃ past now ecu, past ++ [.tick now] <+: callsOf (Process.log w turns) ∧
      ∀ sig, sig.frame = frame.id → received.available sig = true →
        latestLink past = some true ∧
        ∃ s called published pid q heard, latestPublish past = some (s, called) ∧
          now - called ≤ (cfg.pluginTimeoutMs.toNat : ℤ) * 1000000 ∧
          published - heard ≤ 3 * o.config.interval pid ∧ published - heard ≤ 300000 ∧
          Ice.behind sig = some pid ∧ Ice.Offered o.broadcastId bus ecu pid ∧
          Ice.Heard o.broadcastId bus ecu pid (.finite q) heard ∧ received.reading sig = Ice.gauge sig q := by
  intro cfg received
  -- As with the simulated vehicle, only that the plugin answers for another kind of source.
  obtain ⟨publisher, past, now, timeout, within, sent⟩ := written_sent w turns written
  have before := driven.before ((List.prefix_append _ _).trans within)
  obtain ⟨ecu, shown, -⟩ := Ice.shown_heard o.config o.broadcastId bus w.machine publisher before sent
  refine ⟨created_passes w turns made ▸ accepted, past, now, ecu, within, fun sig own available => ?_⟩
  obtain ⟨linked, s, called, published, pid, q, heard, latest, recent, -, young, read, offered, answer,
    value⟩ := shown sig own available
  rw [timeout] at recent
  have bounded := interval_bounded o pid
  exact ⟨linked, s, called, published, pid, q, heard, latest, recent, young, by omega, read, offered, answer,
    value⟩

/-- A live car that answers with sixty has its speed on the bus. -/
theorem served_speed :
    let turn : Ice.BusTurn :=
      { now := 1000
        bus := [.frame ⟨0x7E8, 8, #v[0x06, 0x41, 0x00, 0x00, 0x08, 0x00, 0x00, 0x00]⟩,
          .frame ⟨0x7E8, 8, #v[0x03, 0x41, 0x0D, 0x3C, 0x00, 0x00, 0x00, 0x00]⟩]
        seenAt := fun _ => 1000
        answeredAt := 1000
        checkedAt := 1000
        publishedAt := 1000
        rescheduledAt := 1000 }
    let frame : Sent := ⟨0, .motion, #v[0x70, 0x17, 0xFF, 0xFF, 0xFF, 0xFF, 0x00, 0x00]⟩
    ∃ ecu q heard, Ice.Heard none [turn] ecu pidSpeed (.finite q) heard ∧
      (receive fun _ => frame.data).reading .speed = Ice.gauge .speed q := by
  intro turn frame
  let d : PluginDescriptor := ⟨1, some "obd2-ice".toList, 1, 0, true, true, true, true⟩
  let w : World Unit Unit :=
    { machine := .indefinite
      env := none
      args := ["--contract-if=vcan0", "--vehicle-if=can0", "--plugin=obd2-ice"].map String.toList
      kernel := ⟨3, fun _ => 0, 0, []⟩
      found := fun _ => ⟨some (), [], true, some d⟩
      created := some ()
      startRc := 0 }
  let pa : PluginArgs := ⟨some "can0".toList, []⟩
  let o : Ice.Created := ⟨"can0".toList, ⟨cpSourceLive, 100⟩, -1, [], by decide, by decide⟩
  let s := (Run.final (Ice.Loop.step o.config none) .new [turn]).plugin.state o.config 1000
  let turns : List Turn :=
    List.replicate 6 .main ++
      [.publisher 0, .plugin (.setLink true) 0, .plugin (.publish s) 0, .publisher 0, .publisher 0]
  have made : .create () pa (some ()) ∈ hostLog (Process.log w turns) := by decide +kernel
  have accepted : Ice.create pa = .ok o := rfl
  have driven : Drives ((Ice.Loop.log o.config o.broadcastId [turn]).filterMap Ice.Event.report?)
      (callsOf (Process.log w turns)) := by
    unfold Drives
    decide +kernel
  have written : frame ∈ outgoing (Process.log w turns) := by decide +kernel
  obtain ⟨-, past, now, ecu, -, shown⟩ := served w turns made accepted driven written
  obtain ⟨-, s', called, published, pid, q, heard, -, -, -, -, read, -, answer, value⟩ :=
    shown .speed rfl (by decide +kernel)
  cases read
  exact ⟨ecu, q, heard, answer, value⟩

end Process

end CanProxy
