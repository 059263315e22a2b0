import CanProxy.Proofs.Core.Deadlines
import CanProxy.Proofs.Core.History
import CanProxy.Proofs.Core.Process

/-! What the daemon writes is what its store and its publisher call for, whichever thread has its turn. -/

namespace CanProxy

open Numeric

section Picked

variable {H I : Type}

namespace Deed

/-- When the schedule was armed. -/
def armed? : Deed H I → Option ℤ
  | armed now => some now
  | _ => none

/-- The call to the store or to the publisher. -/
def call? : Deed H I → Option Call
  | call c => some c
  | _ => none

/-- The frame that is written. -/
def frame? : Deed H I → Option Sent
  | socket (.wrote _ frame) => some frame
  | _ => none

/-- The deed is none of the publisher's or the store's. -/
def Quiet (deed : Deed H I) : Prop := deed.armed? = none ∧ deed.call? = none ∧ deed.frame? = none

end Deed

/-- When the schedule was armed, as often as it was. -/
def armings (log : List (Deed H I)) : List ℤ := log.filterMap Deed.armed?

/-- The calls that reached the store and the publisher, in order. -/
def callsOf (log : List (Deed H I)) : List Call := log.filterMap Deed.call?

/-- The frames that were written, in order. -/
def outgoing (log : List (Deed H I)) : List Sent := log.filterMap Deed.frame?

/-- Quiet deeds add nothing. -/
theorem quiet_append (log : List (Deed H I)) {more : List (Deed H I)} (quiet : ∀ deed ∈ more, deed.Quiet) :
    armings (log ++ more) = armings log ∧ callsOf (log ++ more) = callsOf log ∧
      outgoing (log ++ more) = outgoing log :=
  ⟨Run.filterMap_append_quiet _ _ fun deed member => (quiet deed member).1,
    Run.filterMap_append_quiet _ _ fun deed member => (quiet deed member).2.1,
    Run.filterMap_append_quiet _ _ fun deed member => (quiet deed member).2.2⟩

end Picked

/-- As long as there is no tick, the publisher is left as it was and sends nothing. -/
theorem Proxy.tickless (m : Machine) (proxy : Proxy) {calls : List Call}
    (none : ∀ call ∈ calls, call.tick? = none) :
    (Run.final (step m) proxy calls).publisher = proxy.publisher ∧
      Run.outputs (step m) proxy calls = [] := by
  -- A report changes the store, which the publisher only reads in a tick.
  induction calls generalizing proxy with
  | nil => exact ⟨rfl, rfl⟩
  | cons call rest ih =>
    have later : ∀ call ∈ rest, call.tick? = Option.none := fun call member => none call (by simp [member])
    cases call with
    | publish s now => exact ih _ later
    | setLink present now => exact ih _ later
    | tick now => cases none (.tick now) (by simp)

/-- A report sends nothing, and leaves the publisher as it was. -/
theorem Proxy.reported (m : Machine) (publisher : Publisher) (calls : List Call) (r : Report) (now : ℤ) :
    transmitted m publisher (calls ++ [r.call now]) = transmitted m publisher calls ∧
      (after m publisher (calls ++ [r.call now])).publisher = (after m publisher calls).publisher := by
  have silent : ∀ call ∈ [r.call now], call.tick? = none := by cases r <;> simp [Report.call, Call.tick?]
  obtain ⟨kept, nothing⟩ := tickless m (after m publisher calls) silent
  constructor
  · rw [transmitted, firings, Run.outputs_append, ← after, nothing, List.append_nil]
    rfl
  · rw [after, Run.final_append, ← after, kept]

/-- Before the first tick nothing is sent, and the publisher is as it was made. -/
theorem Proxy.untouched (m : Machine) (publisher : Publisher) {calls : List Call}
    (none : ∀ call ∈ calls, call.tick? = none) :
    transmitted m publisher calls = [] ∧ (after m publisher calls).publisher = publisher := by
  obtain ⟨kept, nothing⟩ := tickless m (start publisher) none
  exact ⟨by rw [transmitted, firings, nothing]; rfl, kept⟩

/-- A tick sends what is due of what the store holds. -/
theorem Proxy.ticked (m : Machine) (publisher : Publisher) (calls : List Call) (now : ℤ) :
    let ticked := (after m publisher calls).publisher.tick m (after m publisher calls).store now
    transmitted m publisher (calls ++ [.tick now]) =
        transmitted m publisher calls ++ ticked.fired.filterMap Firing.frame ∧
      (after m publisher (calls ++ [.tick now])).publisher = ticked.publisher := by
  intro ticked
  -- The run is cut before the tick; that last step is the tick itself.
  constructor
  · rw [transmitted, firings, Run.outputs_append, List.filterMap_append, ← after, ← firings, ← transmitted]
    simp [step, ticked]
  · rw [after, Run.final_append, ← after]
    rfl

namespace Process

variable {H I : Type} (w : World H I)

/-- The plugin that the loader finds for the command line. -/
def Described (d : PluginDescriptor) : Prop :=
  let cfg := (Config.parse w.env w.args).1
  (w.found cfg.resolvePluginPath).descriptor = some d

/-- The publisher for a plugin. -/
def publisherOf (d : PluginDescriptor) : Publisher :=
  (Config.parse w.env w.args).1.publisher d.versionMajor d.versionMinor

/-- What is known of the configuration and the plugin before the publisher is made. -/
def Known (p : Process H I) : Prop :=
  match p.stage with
  | .openBus | .load => p.cfg = (Config.parse w.env w.args).1
  | .create | .startPublisher =>
    p.cfg = (Config.parse w.env w.args).1 ∧
      ∀ plugin, p.host.plugin = some plugin → Described w plugin.descriptor
  | _ => True

/-- The publisher's thread is made later, if at all. -/
def Early (p : Process H I) : Prop :=
  match p.stage with
  | .parse | .openBus | .load | .create | .startPublisher => True
  | _ => False

/-- How far the publisher is, and what it has sent. -/
inductive Phase (log : List (Deed H I)) (p : Process H I) : Prop where
  /-- It has no thread yet, or will never have one. -/
  | before (absent : p.thread = .absent) (unarmed : armings log = []) (silent : outgoing log = [])
    (tickless : ∀ call ∈ callsOf log, call.tick? = none)
  | arming (fresh : p.thread = .arming) (late : ¬p.Early) (unarmed : armings log = [])
    (silent : outgoing log = []) (tickless : ∀ call ∈ callsOf log, call.tick? = none)
    {d : PluginDescriptor} (described : Described w d) (made : p.publisher = some (publisherOf w d))
  | ticking {t0 : ℤ} (armed : armings log = [t0]) (late : ¬p.Early) (works : p.thread ≠ .arming)
    {d : PluginDescriptor} (described : Described w d)
    (sent : outgoing log = Proxy.transmitted w.machine ((publisherOf w d).arm t0) (callsOf log))
    (made : p.thread ≠ .absent →
      p.publisher = some (Proxy.after w.machine ((publisherOf w d).arm t0) (callsOf log)).publisher)

variable {w} {p : Process H I}

/-- Opening a socket and closing one write no frame. -/
theorem open_quiet (bus : CanSocket) (name : Text) (kernel : Kernel) :
    (∀ deed ∈ (bus.openOn name kernel).events.map Deed.socket, (deed : Deed H I).Quiet) ∧
      ∀ deed ∈ bus.close.2.map Deed.socket, (deed : Deed H I).Quiet := by
  have closing : ∀ deed ∈ bus.close.2.map Deed.socket, (deed : Deed H I).Quiet := by
    unfold CanSocket.close
    split <;> simp [Deed.Quiet, Deed.armed?, Deed.call?, Deed.frame?]
  refine ⟨?_, closing⟩
  intro deed member
  rw [CanSocket.openOn] at member
  dsimp only at member
  -- Whatever comes of it, the socket that was there is closed first.
  have before : ∀ more : List SocketEvent, deed ∈ (bus.close.2 ++ more).map Deed.socket →
      (∀ deed ∈ more.map Deed.socket, (deed : Deed H I).Quiet) → deed.Quiet := by
    intro more member quiet
    rw [List.map_append] at member
    rcases List.mem_append.mp member with first | second
    · exact closing deed first
    · exact quiet deed second
  -- The cases are those of the opening: no descriptor, a failure behind it, or success.
  split at member
  · exact closing deed member
  · split at member
    · exact before _ member (by simp [Deed.Quiet, Deed.armed?, Deed.call?, Deed.frame?])
    · split at member <;> exact before _ member (by simp [Deed.Quiet, Deed.armed?, Deed.call?, Deed.frame?])

/-- A turn of the main thread is none of the store's, and leaves it alone. -/
theorem main_quiet : (∀ deed ∈ (p.main w).2, deed.Quiet) ∧ (p.main w).1.store = p.store := by
  have hosts (events : List (HostEvent H I)) : ∀ deed ∈ events.map Deed.host, deed.Quiet := by
    intro deed member
    obtain ⟨e, -, rfl⟩ := List.mem_map.mp member
    exact ⟨rfl, rfl, rfl⟩
  obtain ⟨stage, cfg, bus, host, store, publisher, running, thread, stop, handled, killed⟩ := p
  unfold main
  -- The main thread tells of the socket, of the host, and of threads and ends.
  cases stage with
  | parse =>
    dsimp only
    split
    · simp [Deed.Quiet, Deed.armed?, Deed.call?, Deed.frame?]
    · split <;> simp [Deed.Quiet, Deed.armed?, Deed.call?, Deed.frame?]
  | openBus => exact ⟨(open_quiet bus cfg.contractIf w.kernel).1, rfl⟩
  | load | create | startPlugin | stopPlugin | unload | destroyHost => exact ⟨hosts _, rfl⟩
  | handleSignals => simp [Deed.Quiet, Deed.armed?, Deed.call?, Deed.frame?]
  | startPublisher | wait | stopPublisher | join | destroyPublisher =>
    dsimp only
    split <;> simp [Deed.Quiet, Deed.armed?, Deed.call?, Deed.frame?]
  | destroyBus o =>
    refine ⟨fun deed member => ?_, rfl⟩
    rcases List.mem_append.mp member with closed | ended
    · exact (open_quiet bus [] w.kernel).2 deed closed
    · rw [List.mem_singleton.mp ended]
      exact ⟨rfl, rfl, rfl⟩
  | exited | aborted => simp

/-- The main thread never goes back to before the publisher was made. -/
theorem main_late (ready : p.Ready) (late : ¬p.Early) : ¬(p.main w).1.Early := by
  obtain ⟨stage, cfg, bus, host, store, publisher, running, thread, stop, handled, killed⟩ := p
  unfold main
  -- From the start of the plugin on, no stage is followed by one of the first five.
  cases stage with
  | parse | openBus | load | create | startPublisher => exact absurd trivial late
  | startPlugin => by_cases started : (host.start w.startRc).error = [] <;> simp [Early, started]
  | wait =>
    dsimp only
    split <;> exact id
  | stopPublisher failed =>
    dsimp only
    split
    · exact id
    · cases failed <;> exact id
  | join failed =>
    cases thread with
    | absent | finished => cases failed <;> exact id
    | _ => exact id
  | destroyPublisher o =>
    dsimp only
    split <;> exact id
  | _ => exact id

/-- From then on nothing more has to be known. -/
theorem known_late (late : ¬p.Early) : Known w p := by
  obtain ⟨stage, cfg, bus, host, store, publisher, running, thread, stop, handled, killed⟩ := p
  cases stage with
  | parse | openBus | load | create | startPublisher => exact absurd trivial late
  | _ => trivial

/-- What is known is known still after a turn of the main thread. -/
theorem main_known (ready : p.Ready) (known : Known w p) : Known w (p.main w).1 := by
  obtain ⟨stage, cfg, bus, host, store, publisher, running, thread, stop, handled, killed⟩ := p
  cases stage with
  | parse =>
    unfold main
    dsimp only
    split
    · trivial
    · split
      · trivial
      · rfl
  | openBus =>
    unfold main
    by_cases opened : (bus.openOn cfg.contractIf w.kernel).error = []
    · simpa [Known, opened] using known
    · simp [Known, opened]
  | load =>
    obtain rfl : cfg = _ := known
    -- The first load keeps the descriptor that was found, and no other.
    obtain rfl : host = .empty := ready.2.1
    let path := ((Config.parse w.env w.args).1).resolvePluginPath
    have described := (PluginHost.load_first (I := I) path (w.found path)).described
    unfold main
    by_cases loaded : ((PluginHost.empty : PluginHost H I).load path (w.found path)).error = []
    · simpa [Known, loaded, path, Described] using described
    · simp [Known, loaded, path]
  | create =>
    obtain ⟨same, described⟩ := known
    obtain ⟨-, left, error⟩ :=
      PluginHost.create_first ready.2.1 ready.2.2.1 cfg.vehicleIf cfg.pluginArgs w.created
    unfold main
    by_cases made : (host.create cfg.vehicleIf cfg.pluginArgs w.created).error = []
    -- Creating an instance leaves the plugin as it was loaded.
    · dsimp only at left ⊢
      rw [left]
      simpa [Known, made] using ⟨same, described⟩
    · simp [Known, made]
  | startPublisher =>
    unfold main
    dsimp only
    split
    · exact known
    · trivial
  | _ => exact known_late (main_late ready id)

/--
A turn of the main thread makes the publisher for the plugin that was found, or leaves the publisher
alone; its thread can only be joined when it has returned.
-/
theorem main_publisher (ready : p.Ready) (known : Known w p) :
    (p.Early ∧ p.thread = .absent ∧ (p.main w).1.thread = .arming ∧ ¬(p.main w).1.Early ∧
      ∃ d, Described w d ∧ (p.main w).1.publisher = some (publisherOf w d)) ∨
    (((p.main w).1.thread = p.thread ∨ p.thread = .finished ∧ (p.main w).1.thread = .absent) ∧
      ((p.main w).1.thread ≠ .absent → (p.main w).1.publisher = p.publisher)) := by
  obtain ⟨stage, cfg, bus, host, store, publisher, running, thread, stop, handled, killed⟩ := p
  unfold main
  -- One stage makes the publisher, one joins its thread, and one destroys it once there is none.
  cases stage with
  | startPublisher =>
    obtain ⟨same, described⟩ := known
    obtain rfl : cfg = _ := same
    dsimp only
    split
    · exact .inr ⟨.inl rfl, fun _ => rfl⟩
    next plugin present =>
      exact .inl ⟨trivial, ready.2.1, rfl, id, plugin.descriptor, described plugin present, rfl⟩
  | parse =>
    dsimp only
    split
    · exact .inr ⟨.inl rfl, fun _ => rfl⟩
    · split <;> exact .inr ⟨.inl rfl, fun _ => rfl⟩
  | wait | stopPublisher =>
    dsimp only
    split <;> exact .inr ⟨.inl rfl, fun _ => rfl⟩
  | join failed =>
    cases thread with
    | finished => exact .inr ⟨.inr ⟨rfl, rfl⟩, fun there => absurd rfl there⟩
    | _ => exact .inr ⟨.inl rfl, fun _ => rfl⟩
  | destroyPublisher o =>
    dsimp only
    rw [if_pos ready.2.2.1]
    exact .inr ⟨.inl rfl, fun there => absurd ready.2.2.1 there⟩
  | _ => exact .inr ⟨.inl rfl, fun _ => rfl⟩

/-- All frames that a tick sends are written, and it is one call. -/
theorem tick_appends (log : List (Deed H I)) {bus : CanSocket} (valid : 0 ≤ bus.fd) (frames : List Sent)
    (now : ℤ) :
    let deeds : List (Deed H I) := .call (.tick now) :: (frames.flatMap bus.send).map .socket
    armings (log ++ deeds) = armings log ∧ callsOf (log ++ deeds) = callsOf log ++ [.tick now] ∧
      outgoing (log ++ deeds) = outgoing log ++ frames := by
  -- The socket is open, so nothing that is sent is lost on the way.
  have writes : ((frames.flatMap bus.send).map (Deed.socket : SocketEvent → Deed H I)) =
      frames.map fun frame => .socket (.wrote bus.fd frame) := by
    induction frames with
    | nil => rfl
    | cons frame rest ih =>
      rw [List.flatMap_cons, CanSocket.send, if_neg (not_lt.mpr valid), List.map_append, ih]
      rfl
  intro deeds
  simp only [deeds]
  rw [writes]
  refine ⟨?_, ?_, ?_⟩
  · simp [armings, Deed.armed?]
  · simp [callsOf, Deed.call?]
  · have all : (frames.map fun frame => (.socket (.wrote bus.fd frame) : Deed H I)).filterMap Deed.frame? =
        frames := by
      rw [List.filterMap_map]
      exact List.filterMap_some
    rw [outgoing, List.filterMap_append, List.filterMap_cons_none rfl, all]
    rfl

/-- The store holds what was reported, and the publisher has sent what its calls call for. -/
structure Relays (w : World H I) (log : List (Deed H I)) (p : Process H I) : Prop where
  known : Known w p
  store : p.store = historySnapshot (callsOf log)
  phase : Phase w log p

variable {log : List (Deed H I)}

/-- A turn of the main thread. -/
theorem Relays.main (relays : Relays w log p) (ready : p.Ready) :
    Relays w (log ++ (p.main w).2) (p.main w).1 := by
  obtain ⟨known, store, phase⟩ := relays
  obtain ⟨quiet, kept⟩ := @main_quiet H I w p
  obtain ⟨armed, calls, frames⟩ := quiet_append log quiet
  refine ⟨main_known ready known, by rw [kept, store, calls], ?_⟩
  have late := main_late (w := w) ready
  -- The phase moves on only when the publisher is made; else its log is the same as before.
  cases phase with
  | before absent unarmed silent tickless =>
    rcases main_publisher ready known with ⟨-, -, fresh, late', d, described, made⟩ | ⟨thread, -⟩
    · refine .arming fresh late' ?_ ?_ ?_ described made
      · rwa [armed]
      · rwa [frames]
      · rwa [calls]
    · refine .before ?_ ?_ ?_ ?_
      · rcases thread with same | ⟨-, joined⟩
        · exact same.trans absent
        · exact joined
      · rwa [armed]
      · rwa [frames]
      · rwa [calls]
  | arming fresh late' unarmed silent tickless described made =>
    rcases main_publisher ready known with ⟨early, -⟩ | ⟨thread, same⟩
    · exact absurd early late'
    · rcases thread with still | ⟨returned, -⟩
      · refine .arming (still.trans fresh) (late late') ?_ ?_ ?_ described ?_
        · rwa [armed]
        · rwa [frames]
        · rwa [calls]
        · rw [same (by simp [still, fresh]), made]
      · exact absurd (fresh.symm.trans returned) (by simp)
  | ticking armed' late' works described sent made =>
    rcases main_publisher ready known with ⟨early, -⟩ | ⟨thread, same⟩
    · exact absurd early late'
    · refine .ticking (armed.trans armed') (late late') ?_ described ?_ ?_
      · rcases thread with still | ⟨-, joined⟩
        · rwa [still]
        · simp [joined]
      · rw [frames, calls, sent]
      · intro there
        rw [calls, same there]
        refine made ?_
        rcases thread with still | ⟨returned, -⟩
        · rwa [← still]
        · simp [returned]

/-- A report of the plugin. -/
theorem Relays.report (relays : Relays w log p) (r : Report) (now : ℤ) :
    Relays w (log ++ (p.report r now).2) (p.report r now).1 := by
  unfold Process.report
  split
  · rwa [List.append_nil]
  · obtain ⟨known, store, phase⟩ := relays
    -- One more call, and nothing else, is in the log.
    have calls : callsOf (log ++ [.call (r.call now)]) = callsOf log ++ [r.call now] :=
      Run.filterMap_concat ..
    have armed : armings (log ++ [.call (r.call now)]) = armings log :=
      Run.filterMap_append_quiet _ _ (by simp [Deed.armed?])
    have frames : outgoing (log ++ [.call (r.call now)]) = outgoing log :=
      Run.filterMap_append_quiet _ _ (by simp [Deed.frame?])
    have silent : (r.call now).tick? = none := by cases r <;> rfl
    have tickless (before : ∀ call ∈ callsOf log, call.tick? = none) :
        ∀ call ∈ callsOf (log ++ [.call (r.call now)]), call.tick? = none := by
      rw [calls]
      intro call member
      rcases List.mem_append.mp member with earlier | last
      · exact before call earlier
      · rwa [List.mem_singleton.mp last]
    refine ⟨known, ?_, ?_⟩
    · rw [calls]
      cases r with
      | publish s => simp [store, Report.call, Snapshot.publish, historySnapshot, latestState]
      | setLink present => simp [store, Report.call, Snapshot.setLink, historySnapshot, latestState]
    · cases phase with
      | before absent unarmed quiet before =>
        exact .before absent (armed ▸ unarmed) (frames ▸ quiet) (tickless before)
      | arming fresh late unarmed quiet before described made =>
        exact .arming fresh late (armed ▸ unarmed) (frames ▸ quiet) (tickless before) described made
      | @ticking t0 armed' late works d described sent made =>
        -- The machine takes the report just as the store does, and sends nothing for it.
        obtain ⟨same, kept⟩ := Proxy.reported w.machine ((publisherOf w d).arm t0) (callsOf log) r now
        refine .ticking (armed.trans armed') late works described ?_ ?_
        · rw [frames, calls, same, sent]
        · intro there
          rw [calls, kept]
          exact made there

/-- A turn of the publisher's thread. -/
theorem Relays.publish (relays : Relays w log p) (ready : p.Ready) (now : ℤ) :
    Relays w (log ++ (p.publish w now).2) (p.publish w now).1 := by
  obtain ⟨known, store, phase⟩ := relays
  unfold Process.publish
  split
  next publisher fresh made =>
    -- The schedule is armed, once.
    have calls : callsOf (log ++ [.armed now]) = callsOf log :=
      Run.filterMap_append_quiet _ _ (by simp [Deed.call?])
    have armed : armings (log ++ [.armed now]) = armings log ++ [now] := Run.filterMap_concat ..
    have frames : outgoing (log ++ [.armed now]) = outgoing log :=
      Run.filterMap_append_quiet _ _ (by simp [Deed.frame?])
    refine ⟨known, by rw [calls]; exact store, ?_⟩
    cases phase with
    | before absent => exact absurd (fresh.symm.trans absent) (by simp)
    | @arming _ late unarmed quiet before d described made' =>
      obtain rfl := Option.some.inj (made.symm.trans made')
      -- The reports before were not answered by the machine either, as it does nothing without a tick.
      obtain ⟨nothing, kept⟩ := Proxy.untouched w.machine ((publisherOf w d).arm now) before
      have once : armings (log ++ [.armed now]) = [now] := by rw [armed, unarmed, List.nil_append]
      refine .ticking once late (by simp) described ?_ ?_
      · rw [frames, calls, nothing, quiet]
      · intro _
        rw [calls, kept]
    | ticking _ _ works => exact absurd fresh works
  next checking =>
    rw [List.append_nil]
    refine ⟨known, store, ?_⟩
    cases phase with
    | before absent => exact absurd (checking.symm.trans absent) (by simp)
    | arming fresh => exact absurd (checking.symm.trans fresh) (by simp)
    | ticking armed late _ described sent made =>
      refine .ticking armed late ?_ described sent fun _ => made (by simp [checking])
      dsimp only
      split <;> simp
  next publisher ticking made =>
    have there : p.thread ≠ .absent := by simp [ticking]
    obtain ⟨armed, calls, frames⟩ := tick_appends log (ready.threaded there).1.1
      ((publisher.tick w.machine p.store now).fired.filterMap Firing.frame) now
    refine ⟨known, ?_, ?_⟩
    · rw [calls]
      simpa [historySnapshot, latestState] using store
    · cases phase with
      | before absent => exact absurd (ticking.symm.trans absent) (by simp)
      | arming fresh => exact absurd (ticking.symm.trans fresh) (by simp)
      | @ticking t0 armed' late _ d described sent made' =>
        obtain rfl := Option.some.inj (made.symm.trans (made' there))
        obtain ⟨sends, leaves⟩ := Proxy.ticked w.machine ((publisherOf w d).arm t0) (callsOf log) now
        -- Both tick the same publisher on the same store, so they send the same frames.
        rw [(Proxy.after_store w.machine _ (callsOf log)).1, ← store] at sends leaves
        refine .ticking (armed.trans armed') late (by simp) described ?_ ?_
        · rw [frames, calls, sends, sent]
        · intro _
          rw [calls, leaves]
  next =>
    rw [List.append_nil]
    exact ⟨known, store, phase⟩

/-- A signal only changes what signals do, and sends nothing. -/
theorem Relays.interrupt (relays : Relays w log p) : Relays w (log ++ p.interrupt.2) p.interrupt.1 := by
  obtain ⟨stop, killed, same, quiet⟩ : ∃ stop killed,
      p.interrupt.1 = { p with stop := stop, killed := killed } ∧ ∀ deed ∈ p.interrupt.2, deed.Quiet := by
    rcases interrupt_cases p with gone | ⟨-, sets⟩ | ⟨-, kills⟩
    · exact ⟨p.stop, p.killed, by rw [gone], by simp [gone]⟩
    · exact ⟨true, p.killed, by rw [sets], by simp [sets]⟩
    · exact ⟨p.stop, true, by rw [kills], by simp [kills, Deed.Quiet, Deed.armed?, Deed.call?, Deed.frame?]⟩
  obtain ⟨armed, calls, frames⟩ := quiet_append log quiet
  obtain ⟨known, store, phase⟩ := relays
  rw [same]
  refine ⟨known, store.trans (by rw [calls]), ?_⟩
  cases phase with
  | before absent unarmed silent tickless =>
    exact .before absent (armed ▸ unarmed) (frames ▸ silent) (calls ▸ tickless)
  | arming fresh late unarmed silent tickless described made =>
    exact .arming fresh late (armed ▸ unarmed) (frames ▸ silent) (calls ▸ tickless) described made
  | ticking armed' late works described sent made =>
    refine .ticking (armed.trans armed') late works described ?_ ?_
    · rw [frames, calls, sent]
    · rwa [calls]

theorem relays_after (w : World H I) (turns : List Turn) :
    Relays w (Process.log w turns) (after w turns) := by
  -- Every turn keeps the relation, given what the main thread relies on.
  refine @Run.invariant _ _ _ (step w) start turns (fun _ log p => Relays w log p)
    ⟨trivial, rfl, .before rfl rfl rfl (by simp [callsOf])⟩ ?_
  intro past turn _ relays
  have ready : Ready (Run.final (step w) start past) := (sound_after w past).2
  unfold step
  split
  next dead => rwa [List.append_nil]
  next alive =>
    cases turn with
    | main => exact relays.main ready
    | publisher now => exact relays.publish ready now
    | plugin r now => exact relays.report r now
    | signal => exact relays.interrupt

/--
What the daemon writes is what a store and a publisher do that are called in the same order.

Whichever thread has its turn, the frames that are written are those of the publisher for the timeout of
the command line and the plugin that was found, armed once and called as the store and the publisher
were; and before it is armed nothing is written.
-/
theorem traffic (w : World H I) (turns : List Turn) :
    let log := Process.log w turns
    let cfg := (Config.parse w.env w.args).1
    (armings log = [] ∧ outgoing log = []) ∨
      ∃ t0 d, armings log = [t0] ∧ (w.found cfg.resolvePluginPath).descriptor = some d ∧
        outgoing log = Proxy.transmitted w.machine
          ((cfg.publisher d.versionMajor d.versionMinor).arm t0) (callsOf log) := by
  intro log cfg
  -- The phases before the schedule is armed are one case, and that after it the other.
  cases (relays_after w turns).phase with
  | before _ unarmed silent => exact .inl ⟨unarmed, silent⟩
  | arming _ _ unarmed silent => exact .inl ⟨unarmed, silent⟩
  | ticking armed _ _ described sent => exact .inr ⟨_, _, armed, described, sent⟩

end Process

end CanProxy
