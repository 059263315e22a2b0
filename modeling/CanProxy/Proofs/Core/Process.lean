import CanProxy.Core.Process
import CanProxy.Proofs.Core.PluginHost

/-! Whichever thread has its turn, the daemon does everything in order, and leaves nothing behind. -/

namespace CanProxy

section Deeds

variable {H I : Type}

namespace Deed

/-- The socket that is opened. -/
def opens? : Deed H I → Option ℤ
  | socket (.opened fd) => some fd
  | _ => none

/-- The socket that is closed. -/
def closes? : Deed H I → Option ℤ
  | socket (.closed fd) => some fd
  | _ => none

/-- What the plugin's host does. -/
def host? : Deed H I → Option (HostEvent H I)
  | host e => some e
  | _ => none

/-- Whether there is a thread to join afterwards, for what changes it. -/
def threads? : Deed H I → Option Bool
  | spawned => some true
  | joined => some false
  | _ => none

/-- The end of the process. -/
def exits? : Deed H I → Option Ending
  | exited o => some o
  | _ => none

end Deed

/-- The event starts the plugin or stops it. -/
def HostEvent.drives : HostEvent H I → Bool
  | .start .. | .stop .. => true
  | _ => false

/-- The socket that is open at the end of a log. -/
def openSocket (log : List (Deed H I)) : Option ℤ := Run.held Deed.opens? Deed.closes? log

/-- What the plugin's host has done. -/
def hostLog (log : List (Deed H I)) : List (HostEvent H I) := log.filterMap Deed.host?

/-- The publisher's thread was made, and not joined yet. -/
def threaded (log : List (Deed H I)) : Bool := (Run.last Deed.threads? log).getD false

/-- The process has ended. -/
def Ended (log : List (Deed H I)) : Prop := Run.last Deed.exits? log ≠ none

/-- What a deed may only come after. -/
def Proper (before : List (Deed H I)) : Deed H I → Prop
  | .socket (.opened _) => openSocket before = none ∧ ¬Ended before
  -- A frame is written on behalf of a plugin that is there.
  | .socket (.wrote fd _) =>
    openSocket before = some fd ∧ threaded before = true ∧ liveInstance (hostLog before) ≠ none
  | .socket (.closed fd) =>
    openSocket before = some fd ∧ openLibrary (hostLog before) = none ∧ threaded before = false
  -- The plugin runs only while the publisher does, and is made and unmade only while it does not.
  | .host e => Orderly (hostLog before) e ∧ openSocket before ≠ none ∧ threaded before = e.drives
  | .spawned =>
    openSocket before ≠ none ∧ threaded before = false ∧ liveInstance (hostLog before) ≠ none ∧
      running (hostLog before) = false
  | .armed _ | .call (.tick _) => threaded before = true
  | .call _ => openLibrary (hostLog before) ≠ none
  | .joined => threaded before = true ∧ running (hostLog before) = false
  | .handling => threaded before = true ∧ running (hostLog before) = true
  | .aborted => False
  -- A signal ends the process only as long as its handlers are not set.
  | .killed => .handling ∉ before ∧ ¬Ended before
  | .exited _ =>
    openSocket before = none ∧ openLibrary (hostLog before) = none ∧
      liveInstance (hostLog before) = none ∧ running (hostLog before) = false ∧
      threaded before = false ∧ ¬Ended before

section Concat

variable (log : List (Deed H I)) (deed : Deed H I)

theorem openSocket_concat :
    openSocket (log ++ [deed]) = Run.hold Deed.opens? Deed.closes? (openSocket log) deed :=
  Run.held_concat ..

theorem hostLog_concat : hostLog (log ++ [deed]) = hostLog log ++ deed.host?.toList :=
  Run.filterMap_concat ..

theorem threaded_concat :
    threaded (log ++ [deed]) = (deed.threads?.or (Run.last Deed.threads? log)).getD false :=
  congrArg (·.getD false) (Run.last_concat ..)

theorem ended_concat : Ended (log ++ [deed]) ↔ deed.exits? ≠ none ∨ Ended log := by
  -- The end told last is that of the new deed, or else the one before.
  rw [Ended, Ended, Run.last_concat]
  cases deed.exits? <;> simp

end Concat

end Deeds

/-- The loader finds a plugin that the host can use. -/
def Loading.Fits {H : Type} (found : Loading H) : Prop :=
  found.handle.isSome = true ∧ found.symbol = true ∧
    ∃ d ∈ found.descriptor, d.abiVersion = pluginAbiVersion ∧ d.Complete

namespace PluginHost

variable {H I : Type} {p : PluginHost H I}

/-- Unloading what does not run leaves nothing, and neither starts nor stops anything. -/
theorem unload_quiet (quiet : p.started = false) :
    p.unload.1 = empty ∧ ∀ e ∈ p.unload.2, e.drives = false := by
  obtain ⟨handle, plugin, inst, started⟩ := p
  subst quiet
  -- An instance without a descriptor would be destroyed through none.
  cases inst <;> cases handle <;> cases plugin <;>
    simp [unload, stop, destroy, close, calls, empty, HostEvent.drives]

/-- What a first load does: it starts nothing, and leaves either a plugin that fits or nothing. -/
structure First (found : Loading H) (reply : HostReply H I) : Prop where
  quiet : ∀ e ∈ reply.events, e.drives = false
  gone : reply.host.inst = none
  still : reply.host.started = false
  error : reply.error = [] ↔ found.Fits
  loaded : reply.error = [] → reply.host.plugin ≠ none
  described : ∀ plugin, reply.host.plugin = some plugin → found.descriptor = some plugin.descriptor
  failed : reply.error ≠ [] → reply.host = empty

/-- Giving up closes the library. -/
theorem giveUp_first (h : H) {before : List (HostEvent H I)} (quiet : ∀ e ∈ before, e.drives = false)
    {error : Text} (reported : error ≠ []) {found : Loading H} (misfit : ¬found.Fits) :
    First found (giveUp ⟨some h, none, none, false⟩ before error) := by
  -- There is nothing to stop or destroy yet, so giving up is closing the library and nothing else.
  have same : giveUp ⟨some h, none, none, false⟩ before error =
      (⟨empty, before ++ [.closed h], error⟩ : HostReply H I) := rfl
  rw [same]
  -- Afterwards the host is empty, so that only the events are left to look at.
  refine ⟨?_, rfl, rfl, iff_of_false reported misfit, fun none => absurd none reported, ?_, fun _ => rfl⟩
  swap
  · intro plugin present
    cases present
  intro e member
  rcases List.mem_append.mp member with earlier | last
  · exact quiet e earlier
  · rw [List.mem_singleton.mp last]
    rfl

theorem load_first (path : Text) (found : Loading H) :
    First found ((empty : PluginHost H I).load path found) := by
  -- A first load has nothing to unload; then one check after the other decides.
  have bare : (empty : PluginHost H I).unload = (empty, []) := rfl
  obtain ⟨handle, dlerror, symbol, descriptor⟩ := found
  rw [load, bare]
  dsimp only
  cases handle with
  | none => exact ⟨by simp, rfl, rfl, by simp [Loading.Fits], by simp, by simp [empty], fun _ => rfl⟩
  | some h =>
    dsimp only
    split
    next entry =>
      cases descriptor with
      -- The entry function may return nothing.
      | none => exact giveUp_first h (by simp [HostEvent.drives]) (by simp) (by simp [Loading.Fits])
      | some d =>
        dsimp only
        split
        next other =>
          exact giveUp_first h (by simp [HostEvent.drives]) (by simp) (by simp [Loading.Fits, other])
        next same =>
          have version := not_not.mp same
          split
          next complete =>
            -- Only here is the descriptor kept, and it is the one that was found.
            refine ⟨by simp [HostEvent.drives], rfl, rfl, ?_, by simp, ?_, by simp⟩
            · simp [Loading.Fits, entry, version, complete]
            · intro plugin present
              cases present
              rfl
          next lacking =>
            exact giveUp_first h (by simp [HostEvent.drives]) (by simp) (by simp [Loading.Fits, lacking])
    next missing =>
      exact giveUp_first h (by simp [HostEvent.drives]) (by simp) (by simp [Loading.Fits, missing])

/-- The plugin is asked for an instance, and there is one unless an error is returned. -/
theorem create_first (loaded : p.plugin ≠ none) (gone : p.inst = none) (vehicleIf : Text)
    (args : List (Text × Text)) (result : Option I) :
    let reply := p.create vehicleIf args result
    (∀ e ∈ reply.events, e.drives = false) ∧ reply.host = { p with inst := result } ∧
      (reply.error = [] ↔ result ≠ none) := by
  obtain ⟨plugin, present⟩ := Option.ne_none_iff_exists'.mp loaded
  cases result <;> simp [create, present, gone, HostEvent.drives]

/-- The instance is started, and runs unless an error is returned. -/
theorem start_first (loaded : p.plugin ≠ none) (live : p.inst ≠ none) (quiet : p.started = false)
    (rc : ℤ) :
    let reply := p.start rc
    (∀ e ∈ reply.events, e.drives = true) ∧ reply.host = { p with started := decide (rc = 0) } ∧
      (reply.error = [] ↔ rc = 0) := by
  obtain ⟨plugin, present⟩ := Option.ne_none_iff_exists'.mp loaded
  obtain ⟨i, alive⟩ := Option.ne_none_iff_exists'.mp live
  obtain ⟨handle, _, inst, started⟩ := p
  subst present alive quiet
  -- The result of the call is the only thing that matters.
  by_cases succeeded : rc = 0 <;> simp [start, calls, succeeded, HostEvent.drives]

/-- A running instance is stopped. -/
theorem stop_running (loaded : p.plugin ≠ none) (live : p.inst ≠ none) (runs : p.started = true) :
    (∀ e ∈ p.stop.2, e.drives = true) ∧ p.stop.1 = { p with started := false } := by
  obtain ⟨plugin, present⟩ := Option.ne_none_iff_exists'.mp loaded
  obtain ⟨i, alive⟩ := Option.ne_none_iff_exists'.mp live
  simp [stop, calls, present, alive, runs, HostEvent.drives]

end PluginHost

namespace Process

variable {H I : Type}

/-- What the process holds, whether it handles signals, and whether one or its own turn has ended it. -/
structure Holding (H I : Type) where
  bus : CanSocket
  host : PluginHost H I
  thread : Bool
  handled : Bool
  killed : Bool
  ended : Bool

/-- One deed, where it is due, with what it takes or gives back. -/
inductive Move : Holding H I → List (Deed H I) → Holding H I → Prop where
  | opened {r : Holding H I} (shut : r.bus.fd < 0) (goes : r.ended = false) {fd : ℤ} (valid : 0 ≤ fd) :
    Move r [.socket (.opened fd)] { r with bus := ⟨fd⟩ }
  | closed {r : Holding H I} (bus : 0 ≤ r.bus.fd) (bare : r.host = .empty) (alone : r.thread = false) :
    Move r [.socket (.closed r.bus.fd)] { r with bus := .unopened }
  | wrote {r : Holding H I} (bus : 0 ≤ r.bus.fd) (busy : r.thread = true) (live : r.host.inst ≠ none)
    (frame : Sent) : Move r [.socket (.wrote r.bus.fd frame)] r
  | host {r : Holding H I} {events : List (HostEvent H I)} {q : PluginHost H I} (bus : 0 ≤ r.bus.fd)
    (due : ∀ e ∈ events, e.drives = r.thread) (moved : Run.Path PluginHost.Move r.host events q) :
    Move r (events.map .host) { r with host := q }
  | spawned {r : Holding H I} (bus : 0 ≤ r.bus.fd) (alone : r.thread = false) (live : r.host.inst ≠ none)
    (quiet : r.host.started = false) : Move r [.spawned] { r with thread := true }
  | armed {r : Holding H I} (busy : r.thread = true) (now : ℤ) : Move r [.armed now] r
  | tick {r : Holding H I} (busy : r.thread = true) (now : ℤ) : Move r [.call (.tick now)] r
  | report {r : Holding H I} (library : r.host.handle ≠ none) (report : Report) (now : ℤ) :
    Move r [.call (report.call now)] r
  | joined {r : Holding H I} (busy : r.thread = true) (quiet : r.host.started = false) :
    Move r [.joined] { r with thread := false }
  | handling {r : Holding H I} (busy : r.thread = true) (runs : r.host.started = true) :
    Move r [.handling] { r with handled := true }
  | killed {r : Holding H I} (unhandled : r.handled = false) (goes : r.ended = false) :
    Move r [.killed] { r with killed := true }
  | exited {r : Holding H I} (shut : r.bus.fd < 0) (bare : r.host = .empty) (alone : r.thread = false)
    (goes : r.ended = false) (o : Ending) : Move r [.exited o] { r with ended := true }

/-- What is held is what the log tells. -/
structure Sound (log : List (Deed H I)) (r : Holding H I) : Prop where
  proper : Run.Each Proper log
  socket : openSocket log = if 0 ≤ r.bus.fd then some r.bus.fd else none
  host : PluginHost.Sound (hostLog log) r.host
  thread : threaded log = r.thread
  handled : .handling ∈ log ↔ r.handled = true
  killed : .killed ∈ log ↔ r.killed = true
  ended : Ended log ↔ r.ended = true

variable {log deeds : List (Deed H I)} {r q : Holding H I}

/-- One more deed that is none of the host's. -/
theorem Sound.tell (sound : Sound log r) {deed : Deed H I} (proper : Proper log deed)
    (other : deed.host? = none) (kept : q.host = r.host)
    (socket : (if 0 ≤ q.bus.fd then some q.bus.fd else none) =
      Run.hold Deed.opens? Deed.closes? (if 0 ≤ r.bus.fd then some r.bus.fd else none) deed)
    (thread : q.thread = deed.threads?.getD r.thread)
    (flags : (q.handled = true ↔ deed = .handling ∨ r.handled = true) ∧
      (q.killed = true ↔ deed = .killed ∨ r.killed = true) ∧
      (q.ended = true ↔ deed.exits? ≠ none ∨ r.ended = true)) : Sound (log ++ [deed]) q := by
  obtain ⟨handled, killed, ended⟩ := flags
  -- Each part of the invariant is a function of the log, and says what one more deed does to it.
  refine ⟨Run.each_concat sound.proper proper, ?_, ?_, ?_, ?_, ?_, ?_⟩
  · rw [openSocket_concat, sound.socket, socket]
  · rw [hostLog_concat, other, kept]
    simpa using sound.host
  · rw [threaded_concat, thread, ← sound.thread]
    cases deed.threads? <;> rfl
  · rw [handled, ← sound.handled, List.mem_append, List.mem_singleton, or_comm, eq_comm]
  · rw [killed, ← sound.killed, List.mem_append, List.mem_singleton, or_comm, eq_comm]
  · rw [ended_concat, sound.ended, ended]

/-- What the host does in order is done in order by the process. -/
theorem Sound.tellHost (sound : Sound log r) (bus : 0 ≤ r.bus.fd) {events : List (HostEvent H I)}
    {host : PluginHost H I} (due : ∀ e ∈ events, e.drives = r.thread)
    (moved : Run.Path PluginHost.Move r.host events host) :
    Sound (log ++ events.map .host) { r with host := host } := by
  have whole : PluginHost.Sound (hostLog log ++ events) host :=
    moved.keeps (fun sound moved => sound.move moved) sound.host
  -- The events are told one at a time; each is orderly as a part of them all.
  have told : ∀ earlier later, events = earlier ++ later →
      Run.Each Proper (log ++ earlier.map .host) ∧
      openSocket (log ++ earlier.map .host) = openSocket log ∧
      hostLog (log ++ earlier.map .host) = hostLog log ++ earlier ∧
      threaded (log ++ earlier.map .host) = threaded log ∧
      (Ended (log ++ earlier.map .host) ↔ Ended log) := by
    intro earlier
    induction earlier using List.reverseRecOn with
    | nil => intro later _; simp [sound.proper]
    | append_singleton earlier e ih =>
      intro later split
      obtain ⟨proper, socket, hosts, thread, ended⟩ := ih (e :: later) (by simp [split])
      have orderly : Orderly (hostLog log ++ earlier) e :=
        whole.orderly (hostLog log ++ earlier) e later (by simp [split])
      rw [List.map_append, ← List.append_assoc, List.map_singleton]
      refine ⟨Run.each_concat proper ?_, ?_, ?_, ?_, ?_⟩
      · refine ⟨?_, ?_, ?_⟩
        · rwa [hosts]
        · simp [socket, sound.socket, bus]
        · rw [thread, sound.thread, due e (by simp [split])]
      · rw [openSocket_concat, socket]
        simp [Run.hold, Deed.opens?, Deed.closes?]
      · rw [hostLog_concat, hosts]
        simp [Deed.host?]
      · rw [threaded_concat]
        exact thread
      · rw [ended_concat, ended]
        simp [Deed.exits?]
  obtain ⟨proper, socket, hosts, thread, ended⟩ := told events [] (by simp)
  refine ⟨proper, socket.trans sound.socket, ?_, thread.trans sound.thread, ?_, ?_,
    ended.trans sound.ended⟩
  · rwa [hosts]
  · simpa using sound.handled
  · simpa using sound.killed

/-- Every move keeps the log in agreement with what is held. -/
theorem Sound.move (sound : Sound log r) (moved : Move r deeds q) : Sound (log ++ deeds) q := by
  have ⟨_, socket, host, thread, handles, _, ended⟩ := sound
  have goes : r.ended = false → ¬Ended log := fun goes => by simp [ended, goes]
  -- The guards of a move are what the deed asks of the log, once the log is known to tell what is held.
  cases moved with
  | opened shut fresh valid =>
    refine sound.tell ⟨?_, goes fresh⟩ rfl rfl ?_ rfl (by simp [Deed.exits?])
    · simpa [socket] using shut
    · simp [Run.hold, Deed.opens?, valid]
  | closed bus bare alone =>
    refine sound.tell ⟨?_, ?_, thread.trans alone⟩ rfl rfl ?_ rfl (by simp [Deed.exits?])
    · simp [socket, bus]
    · rw [host.library, bare]
      rfl
    · simp [Run.hold, Deed.opens?, Deed.closes?, CanSocket.unopened]
  | wrote bus busy live =>
    refine sound.tell ⟨?_, thread.trans busy, ?_⟩ rfl rfl rfl rfl (by simp [Deed.exits?])
    · simp [socket, bus]
    · rwa [host.live]
  | host bus due moved => exact sound.tellHost bus due moved
  | spawned bus alone live quiet =>
    refine sound.tell ⟨?_, thread.trans alone, ?_, host.runs.trans quiet⟩ rfl rfl rfl rfl
      (by simp [Deed.exits?])
    · simp [socket, bus]
    · rwa [host.live]
  | armed busy | tick busy =>
    exact sound.tell (thread.trans busy) rfl rfl rfl rfl (by simp [Deed.exits?])
  | report library report now =>
    have held : openLibrary (hostLog log) ≠ none := by rwa [host.library]
    cases report <;> exact sound.tell held rfl rfl rfl rfl (by simp [Deed.exits?])
  | joined busy quiet =>
    exact sound.tell ⟨thread.trans busy, host.runs.trans quiet⟩ rfl rfl rfl rfl (by simp [Deed.exits?])
  | handling busy runs =>
    exact sound.tell ⟨thread.trans busy, host.runs.trans runs⟩ rfl rfl rfl rfl (by simp [Deed.exits?])
  | killed unhandled fresh =>
    have unset : .handling ∉ log := by simp [handles, unhandled]
    exact sound.tell ⟨unset, goes fresh⟩ rfl rfl rfl rfl (by simp [Deed.exits?])
  | exited shut bare alone fresh =>
    refine sound.tell ⟨?_, ?_, ?_, ?_, thread.trans alone, goes fresh⟩ rfl rfl rfl rfl
      (by simp [Deed.exits?])
    · simpa [socket] using shut
    · rw [host.library, bare]
      rfl
    · rw [host.live, bare]
      rfl
    · rw [host.runs, bare]
      rfl

/-- What the process holds. -/
def holding (p : Process H I) : Holding H I where
  bus := p.bus
  host := p.host
  thread := p.thread ≠ .absent
  handled := p.handled
  killed := p.killed
  ended := match p.stage with
    | .exited _ => true
    | _ => false

/-- There is no thread, and none shall run. -/
def Alone (p : Process H I) : Prop := p.thread = .absent ∧ p.running = false

/-- There is a thread that works for a publisher. -/
def Threaded (p : Process H I) : Prop := p.thread ≠ .absent ∧ p.publisher ≠ none

/-- There is an instance, which runs or not, and the bus is open. -/
def Serves (p : Process H I) (runs : Bool) : Prop :=
  0 ≤ p.bus.fd ∧ p.host.inst ≠ none ∧ p.host.started = runs

/-- What the main thread relies on in each stage. -/
def Ready (p : Process H I) : Prop :=
  match p.stage with
  | .parse | .openBus => p.bus = .unopened ∧ p.host = .empty ∧ p.Alone
  | .load => 0 ≤ p.bus.fd ∧ p.host = .empty ∧ p.Alone
  | .create =>
    0 ≤ p.bus.fd ∧ p.host.plugin ≠ none ∧ p.host.inst = none ∧ p.host.started = false ∧ p.Alone
  | .startPublisher => p.Serves false ∧ p.Alone
  | .startPlugin | .stopPublisher _ => p.Serves false ∧ p.Threaded ∧ p.running = true
  | .handleSignals | .wait | .stopPlugin => p.Serves true ∧ p.Threaded ∧ p.running = true
  -- The thread was told to return, but may not have done so yet.
  | .join _ => p.Serves false ∧ p.Threaded ∧ p.running = false
  | .unload | .destroyPublisher _ | .destroyHost _ => 0 ≤ p.bus.fd ∧ p.host.started = false ∧ p.Alone
  | .destroyBus _ => p.host = .empty ∧ p.Alone
  | .exited _ => p.bus.fd < 0 ∧ p.host = .empty ∧ p.Alone
  | .aborted => False

/-- Opening the socket takes a descriptor, and gives it back when it fails. -/
theorem open_moves {r : Holding H I} (shut : r.bus = .unopened) (bare : r.host = .empty)
    (alone : r.thread = false) (goes : r.ended = false) (name : Text) (kernel : Kernel) :
    let opening := r.bus.openOn name kernel
    Run.Path Move r (opening.events.map .socket) { r with bus := opening.socket } ∧
      (opening.error = [] → 0 ≤ opening.socket.fd) := by
  obtain ⟨bus, host, thread, handled, killed, ended⟩ := r
  subst shut bare alone goes
  have before : CanSocket.unopened.close = (.unopened, []) := rfl
  unfold CanSocket.openOn
  rw [before]
  dsimp only
  -- Without a descriptor nothing was taken.
  split
  · exact ⟨.stay _, by simp⟩
  next valid =>
    have valid : 0 ≤ kernel.socket := not_lt.mp valid
    have opened : Move (⟨.unopened, .empty, false, handled, killed, false⟩ : Holding H I) _ _ :=
      .opened (by simp [CanSocket.unopened]) rfl valid
    -- A descriptor that fails later is closed at once, which is a path of two moves.
    have both := (Run.Path.single opened).extend (.closed valid rfl rfl)
    split
    · exact ⟨both, by simp⟩
    · split
      · exact ⟨both, by simp⟩
      · exact ⟨.single opened, fun _ => valid⟩

/-- Closing the socket gives its descriptor back. -/
theorem close_moves {r : Holding H I} (bare : r.host = .empty) (alone : r.thread = false) :
    Run.Path Move r (r.bus.close.2.map .socket) { r with bus := r.bus.close.1 } ∧
      r.bus.close.1.fd < 0 := by
  unfold CanSocket.close
  -- A socket that is not open is left as it is.
  split
  next held => exact ⟨.single (.closed held bare alone), by simp⟩
  next shut => exact ⟨.stay r, not_le.mp shut⟩

/-- Frames are written one after the other. -/
theorem send_moves {r : Holding H I} (bus : 0 ≤ r.bus.fd) (busy : r.thread = true)
    (live : r.host.inst ≠ none) (frames : List Sent) :
    Run.Path Move r ((frames.flatMap r.bus.send).map .socket) r := by
  -- Writing changes nothing that is held, so the path leads from a holding to itself, frame by frame.
  induction frames with
  | nil => exact .stay r
  | cons frame rest ih =>
    rw [List.flatMap_cons, CanSocket.send, if_neg (not_lt.mpr bus)]
    exact (Run.Path.single (.wrote bus busy live frame)).trans ih

/-- A signal is not received any more, or sets the flag, or ends the process. -/
theorem interrupt_cases (p : Process H I) :
    p.interrupt = (p, []) ∨ p.handled = true ∧ p.interrupt = ({ p with stop := true }, []) ∨
      (p.handled = false ∧ (∀ o, p.stage ≠ .exited o) ∧ p.stage ≠ .aborted) ∧
        p.interrupt = ({ p with killed := true }, [.killed]) := by
  unfold interrupt
  split
  next => exact .inl rfl
  next => exact .inl rfl
  next unended unaborted =>
    by_cases set : p.handled = true
    · exact .inr (.inl ⟨set, if_pos set⟩)
    · exact .inr (.inr ⟨⟨Bool.eq_false_iff.mpr set, unended, unaborted⟩, if_neg set⟩)

/-- What a turn besides those of the main thread leaves alone, and what it does not do. -/
structure Aside (p q : Process H I) (deeds : List (Deed H I)) : Prop where
  stage : q.stage = p.stage
  cfg : q.cfg = p.cfg
  bus : q.bus = p.bus
  host : q.host = p.host
  stop : p.stop = true → q.stop = true
  quiet : ∀ deed ∈ deeds, deed.host? = none ∧ deed.exits? = none

/-- Only the main thread leads the process on, and drives the host. -/
theorem step_aside (w : World H I) (p : Process H I) (turn : Turn) :
    p.step w turn = p.main w ∨ Aside p (p.step w turn).1 (p.step w turn).2 := by
  have same : Aside p p [] := ⟨rfl, rfl, rfl, rfl, id, by simp⟩
  unfold step
  split
  next dead => exact .inr same
  next alive =>
    -- A signal changes its flags at most, the others the store, the publisher, and its thread.
    cases turn with
    | main => exact .inl rfl
    | signal =>
      dsimp only [act]
      rcases interrupt_cases p with gone | ⟨-, sets⟩ | ⟨-, kills⟩
      · exact .inr (gone ▸ same)
      · exact .inr (sets ▸ ⟨rfl, rfl, rfl, rfl, fun _ => rfl, by simp⟩)
      · exact .inr (kills ▸ ⟨rfl, rfl, rfl, rfl, id, by simp [Deed.host?, Deed.exits?]⟩)
    | publisher now =>
      dsimp only [act]
      unfold publish
      split
      case h_3 =>
        refine .inr ⟨rfl, rfl, rfl, rfl, id, List.forall_mem_cons.mpr ⟨⟨rfl, rfl⟩, fun deed member => ?_⟩⟩
        obtain ⟨e, -, rfl⟩ := List.mem_map.mp member
        exact ⟨rfl, rfl⟩
      all_goals exact .inr ⟨rfl, rfl, rfl, rfl, id, by simp [Deed.host?, Deed.exits?]⟩
    | plugin report now =>
      dsimp only [act]
      unfold Process.report
      split <;> exact .inr ⟨rfl, rfl, rfl, rfl, id, by simp [Deed.host?, Deed.exits?]⟩

section Moves

variable (w : World H I) {p : Process H I}

/-- One turn of the main thread is a path of moves, and readies the next one. -/
theorem main_moves (ready : p.Ready) (created : p.host.inst ≠ none → p.host.plugin ≠ none) :
    Run.Path Move p.holding (p.main w).2 (p.main w).1.holding ∧ (p.main w).1.Ready := by
  obtain ⟨stage, cfg, bus, host, store, publisher, running, thread, stop, handled, killed⟩ := p
  -- What is held before the turn, unless the process has ended already.
  let r : Holding H I := ⟨bus, host, thread ≠ .absent, handled, killed, false⟩
  have absent (alone : thread = .absent) : r.thread = false := by simp [r, alone]
  have there (busy : thread ≠ .absent) : r.thread = true := by simp [r, busy]
  cases stage with
  | parse =>
    obtain ⟨shut, bare, alone⟩ := ready
    have closed : bus.fd < 0 := by simp [show bus = .unopened from shut, CanSocket.unopened]
    have ends := Move.exited (r := r) closed bare (absent alone.1) rfl
    unfold main
    dsimp only
    split
    · exact ⟨.single (ends _), closed, bare, alone⟩
    · split
      · exact ⟨.single (ends _), closed, bare, alone⟩
      · exact ⟨.stay _, shut, bare, alone⟩
  | openBus =>
    obtain ⟨shut, bare, alone⟩ := ready
    have opening :=
      open_moves (r := r) shut bare (absent alone.1) rfl cfg.contractIf w.kernel
    unfold main
    dsimp only
    split
    next opened => exact ⟨opening.1, opening.2 opened, bare, alone⟩
    next failed => exact ⟨opening.1, bare, alone⟩
  | load =>
    -- A failed load leaves the host empty, and the bus is closed on the way out.
    obtain ⟨bus', bare, alone⟩ := ready
    obtain rfl : host = .empty := bare
    let path := cfg.resolvePluginPath
    have first := PluginHost.load_first (I := I) path (w.found path)
    have moved := (PluginHost.load_settled (.empty : PluginHost H I) path (w.found path)).1
    have path := Move.host (r := r) bus'
      (fun e member => (first.quiet e member).trans (absent alone.1).symm) moved
    unfold main
    dsimp only
    split
    next done => exact ⟨.single path, bus', first.loaded done, first.gone, first.still, alone⟩
    next failed => exact ⟨.single path, bus', first.still, alone⟩
  | create =>
    obtain ⟨bus', loaded, gone, still, alone⟩ := ready
    obtain ⟨quiet, left, error⟩ :=
      PluginHost.create_first loaded gone cfg.vehicleIf cfg.pluginArgs w.created
    have path := Move.host (r := r) bus'
      (fun e member => (quiet e member).trans (absent alone.1).symm) (PluginHost.create_path host _ _ _)
    unfold main
    dsimp only at left error ⊢
    rw [left] at path ⊢
    split
    next done => exact ⟨.single path, ⟨bus', error.mp done, still⟩, alone⟩
    next failed => exact ⟨.single path, bus', still, alone⟩
  | startPublisher =>
    obtain ⟨⟨bus', live, quiet⟩, alone⟩ := ready
    -- An instance comes with a descriptor, so its versions can be read.
    obtain ⟨plugin, present⟩ := Option.ne_none_iff_exists'.mp (created live)
    have path := Move.spawned (r := r) bus' (absent alone.1) live quiet
    unfold main
    dsimp only at present ⊢
    rw [present]
    exact ⟨.single path, ⟨bus', live, quiet⟩, ⟨by simp, by simp⟩, rfl⟩
  | startPlugin =>
    obtain ⟨⟨bus', live, quiet⟩, busy⟩ := ready
    obtain ⟨driven, left, error⟩ := PluginHost.start_first (created live) live quiet w.startRc
    have path := Move.host (r := r) bus'
      (fun e member => (driven e member).trans (there busy.1.1).symm) (PluginHost.start_path host _)
    unfold main
    dsimp only at left error ⊢
    rw [left] at path ⊢
    split
    next done => exact ⟨.single path, ⟨bus', live, by simp [error.mp done]⟩, busy⟩
    next failed => exact ⟨.single path, ⟨bus', live, by simp [mt error.mpr failed]⟩, busy⟩
  | handleSignals =>
    obtain ⟨serves, busy⟩ := ready
    have path := Move.handling (r := r) (there busy.1.1) serves.2.2
    exact ⟨.single path, serves, busy⟩
  | wait =>
    unfold main
    dsimp only
    split
    · exact ⟨.stay _, ready⟩
    · exact ⟨.stay _, ready⟩
  | stopPlugin =>
    obtain ⟨⟨bus', live, runs⟩, busy⟩ := ready
    obtain ⟨driven, left⟩ := PluginHost.stop_running (created live) live runs
    have path := Move.host (r := r) bus'
      (fun e member => (driven e member).trans (there busy.1.1).symm) (PluginHost.stop_path host).1
    unfold main
    dsimp only at left ⊢
    rw [left] at path ⊢
    exact ⟨.single path, ⟨bus', live, rfl⟩, busy⟩
  | stopPublisher failed =>
    obtain ⟨serves, thread', runs⟩ := ready
    unfold main
    dsimp only at runs ⊢
    rw [if_pos runs]
    exact ⟨.stay _, serves, thread', rfl⟩
  | join failed =>
    obtain ⟨serves, thread', idle⟩ := ready
    unfold main
    cases thread with
    | absent => exact absurd rfl thread'.1
    | finished =>
      -- Only a thread that has returned is joined; otherwise the turn is spent waiting.
      have path := Move.joined (r := ⟨bus, host, true, handled, killed, false⟩) rfl serves.2.2
      cases failed with
      | none => exact ⟨.single path, serves.1, serves.2.2, rfl, idle⟩
      | some error => exact ⟨.single path, serves.1, serves.2.2, rfl, idle⟩
    | _ => exact ⟨.stay _, serves, thread', idle⟩
  | unload | destroyHost o =>
    obtain ⟨bus', quiet, alone⟩ := ready
    obtain ⟨left, still⟩ := PluginHost.unload_quiet quiet
    have path := Move.host (r := r) bus'
      (fun e member => (still e member).trans (absent alone.1).symm) (PluginHost.unload_path host).1
    unfold main
    dsimp only at left ⊢
    rw [left] at path ⊢
    -- After the orderly end the publisher is destroyed next, on the way out the bus.
    first
    | exact ⟨.single path, bus', rfl, alone⟩
    | exact ⟨.single path, rfl, alone⟩
  | destroyPublisher o =>
    obtain ⟨bus', quiet, alone⟩ := ready
    unfold main
    dsimp only
    -- The thread was joined, or never made, so that its publisher may go.
    rw [if_pos alone.1]
    exact ⟨.stay _, bus', quiet, alone⟩
  | destroyBus o =>
    obtain ⟨bare, alone⟩ := ready
    obtain ⟨closing, closed⟩ := close_moves (r := r) bare (absent alone.1)
    have path := closing.extend
      (.exited (r := { r with bus := r.bus.close.1 }) closed bare (absent alone.1) rfl o)
    exact ⟨path, closed, bare, alone⟩
  | exited o => exact ⟨.stay _, ready⟩
  | aborted => exact ready.elim

/--
Where there is a thread, the bus is open and there is an instance; and what else becomes of the thread
does not matter to the main thread.
-/
theorem Ready.threaded (ready : p.Ready) (there : p.thread ≠ .absent) :
    (0 ≤ p.bus.fd ∧ p.host.inst ≠ none ∧ p.publisher ≠ none) ∧
      ∀ thread publisher, thread ≠ .absent → publisher ≠ none →
        Ready { p with thread := thread, publisher := publisher } := by
  obtain ⟨stage, cfg, bus, host, store, publisher, running, thread, stop, handled, killed⟩ := p
  cases stage with
  | startPlugin | stopPublisher | handleSignals | wait | stopPlugin | join =>
    exact ⟨⟨ready.1.1, ready.1.2.1, ready.2.1.2⟩, fun _ _ still some => ⟨ready.1, ⟨still, some⟩, ready.2.2⟩⟩
  -- In the other stages there is none.
  | parse | openBus | load => exact absurd ready.2.2.1 there
  | create => exact absurd ready.2.2.2.2.1 there
  | startPublisher | destroyBus => exact absurd ready.2.1 there
  | unload | destroyPublisher | destroyHost | exited => exact absurd ready.2.2.1 there
  | aborted => exact ready.elim

/-- One turn of the publisher's thread is a path of moves, and leaves the main thread ready. -/
theorem publish_moves (ready : p.Ready) (now : ℤ) :
    Run.Path Move p.holding (p.publish w now).2 (p.publish w now).1.holding ∧
      (p.publish w now).1.Ready := by
  unfold publish
  split
  next publisher arming _ =>
    have there : p.thread ≠ .absent := by simp [arming]
    have busy : p.holding.thread = true := by simpa [holding] using there
    -- To what is held it only matters that there still is a thread.
    have same : holding { p with publisher := some (publisher.arm now), thread := .checking } =
        p.holding := by
      simp [holding, there]
    rw [same]
    exact ⟨.single (.armed busy now), (ready.threaded there).2 _ _ (by simp) (by simp)⟩
  next checking =>
    have there : p.thread ≠ .absent := by simp [checking]
    have still : (if p.running = true then Thread.ticking else .finished) ≠ .absent := by
      split <;> simp
    have same : holding { p with thread := if p.running = true then .ticking else .finished } =
        p.holding := by
      simp [holding, there, still]
    rw [same]
    have ⟨⟨_, _, made⟩, kept⟩ := ready.threaded there
    exact ⟨.stay _, kept _ p.publisher still made⟩
  next publisher ticking _ =>
    have there : p.thread ≠ .absent := by simp [ticking]
    have busy : p.holding.thread = true := by simpa [holding] using there
    obtain ⟨⟨bus, live, _⟩, kept⟩ := ready.threaded there
    -- The tick is told first, then its frames are written, however many they are.
    have path := fun frames => (Run.Path.single (.tick busy now)).trans (send_moves bus busy live frames)
    dsimp only
    have same : holding { p with
        publisher := some (publisher.tick w.machine p.store now).publisher
        thread := .checking } = p.holding := by
      simp [holding, there]
    rw [same]
    exact ⟨path _, kept _ _ (by simp) (by simp)⟩
  next => exact ⟨.stay _, ready⟩

omit w in
/-- A signal is a move only if it ends the process, which does not matter to the main thread. -/
theorem interrupt_moves (ready : p.Ready) :
    Run.Path Move p.holding p.interrupt.2 p.interrupt.1.holding ∧ p.interrupt.1.Ready := by
  rcases interrupt_cases p with gone | ⟨-, sets⟩ | ⟨⟨unset, unended, -⟩, kills⟩
  · rw [gone]
    exact ⟨.stay _, ready⟩
  · rw [sets]
    exact ⟨.stay _, ready⟩
  · have goes : p.holding.ended = false := by
      unfold holding
      dsimp only
      split
      next o ended => exact absurd ended (unended o)
      next => rfl
    rw [kills]
    exact ⟨.single (.killed unset goes), ready⟩

/-- Every turn is a path of moves, and leaves the main thread ready. -/
theorem step_moves (ready : p.Ready) (created : p.host.inst ≠ none → p.host.plugin ≠ none) (turn : Turn) :
    Run.Path Move p.holding (p.step w turn).2 (p.step w turn).1.holding ∧ (p.step w turn).1.Ready := by
  unfold step
  split
  next dead => exact ⟨.stay _, ready⟩
  next alive =>
    -- All but the plugin's reports, which are one move each, have lemmas of their own.
    cases turn with
    | main => exact main_moves w ready created
    | publisher now => exact publish_moves w ready now
    | plugin report now =>
      dsimp only [act]
      unfold Process.report
      split
      · exact ⟨.stay _, ready⟩
      next library held =>
        have there : p.holding.host.handle ≠ none := by simp [holding, held]
        exact ⟨.single (.report there report now), ready⟩
    | signal => exact interrupt_moves ready

/-- Where the process has ended, nothing is held, and nothing is done any more. -/
theorem Ready.bare (ready : p.Ready) (ended : p.holding.ended = true) :
    (p.bus.fd < 0 ∧ p.host = .empty ∧ p.Alone) ∧ ∀ turn, (p.step w turn).2 = [] := by
  obtain ⟨stage, cfg, bus, host, store, publisher, running, thread, stop, handled, killed⟩ := p
  -- All stages but the last go on.
  cases stage with
  | exited o =>
    refine ⟨ready, fun turn => ?_⟩
    obtain ⟨-, bare, absent, -⟩ := ready
    obtain rfl : host = .empty := bare
    obtain rfl : thread = .absent := absent
    unfold step
    split
    · rfl
    · cases turn <;> rfl
  | _ => simp [holding] at ended

end Moves

/-- The log tells what is held after every run. -/
theorem sound_after (w : World H I) (turns : List Turn) :
    Sound (Process.log w turns) (after w turns).holding ∧ (after w turns).Ready := by
  -- The invariant is carried together with what the main thread relies on; neither is kept alone.
  refine @Run.invariant _ _ _ (step w) start turns (fun _ log p => Sound log p.holding ∧ p.Ready) ?_ ?_
  · refine ⟨⟨Run.each_nil, rfl, ?_, rfl, ?_, ?_, by simp [Ended, Run.last, holding, start]⟩, rfl, rfl, rfl,
      rfl⟩
    · refine ⟨Run.each_nil, rfl, rfl, rfl, ?_, fun present => absurd rfl present, ?_⟩
      · simp [holding, start, PluginHost.empty]
      · simp [holding, start, PluginHost.empty]
    · simp [holding, start]
    · simp [holding, start]
  · intro past turn _ held
    obtain ⟨moves, ready⟩ := step_moves w held.2 held.1.host.created turn
    exact ⟨moves.keeps (fun sound moved => sound.move moved) held.1, ready⟩

/-- In a proper log sockets are opened and closed in turn. -/
theorem careful_sockets (proper : Run.Each Proper log) :
    Run.Each (Run.Careful Deed.opens? Deed.closes?) log := by
  intro before deed later split
  have due := proper before deed later split
  -- An opening and a closing say in their own conditions what was open before.
  cases deed with
  | socket e =>
    cases e with
    | opened fd => exact ⟨fun _ _ => due.1, by simp [Deed.closes?]⟩
    | closed fd =>
      refine ⟨by simp [Deed.opens?], fun fd' same => ?_⟩
      cases same
      exact due.1
    | wrote fd frame => exact ⟨by simp [Deed.opens?], by simp [Deed.closes?]⟩
  | _ => exact ⟨by simp [Deed.opens?], by simp [Deed.closes?]⟩

/-- As long as its handlers are not set, and it has not ended, a signal ends the process. -/
theorem early_signal {w : World H I} {p : Process H I} {log : List (Deed H I)} (sound : Sound log p.holding)
    (unended : ¬Ended log) (unset : .handling ∉ log) (alive : .killed ∉ log) (ready : p.Ready) :
    (p.step w .signal).2 = [.killed] := by
  have dead : p.killed = false := Bool.eq_false_iff.mpr fun dead => alive (sound.killed.mpr dead)
  have bare : p.handled = false := Bool.eq_false_iff.mpr fun set => unset (sound.handled.mpr set)
  have goes := mt sound.ended.mpr unended
  rw [step, if_neg (by simp [dead]), act, interrupt]
  -- Where it gets a signal it has neither ended nor been aborted.
  split
  next o ended => exact absurd (by simp [holding, ended]) goes
  next aborted =>
    unfold Ready at ready
    rw [aborted] at ready
    exact ready.elim
  next => rw [if_neg (by simp [bare])]

/--
Whichever thread has its turn and whatever the kernel, the loader, and the plugin answer, the daemon does
everything in order.

The plugin is started only once the publisher's thread is there, and made and unmade only while it is
not; frames are written only on the open socket, by that thread, on behalf of a live instance; no thread
is left unjoined. When the process ends by its own turns nothing is open, live, or running, and everything
that was taken was given back as often. A signal ends it exactly as long as its handlers are not set, which
they are once the plugin runs. However it ends, nothing is done any more.
-/
theorem lifecycle [DecidableEq H] [DecidableEq I] (w : World H I) (turns : List Turn) :
    let log := Process.log w turns
    Run.Each Proper log ∧
    (Ended log →
      (∀ fd, log.countP (·.opens? = some fd) = log.countP (·.closes? = some fd)) ∧
      (∀ h, (hostLog log).countP (·.opens? = some h) = (hostLog log).countP (·.closes? = some h)) ∧
      (∀ i, (hostLog log).countP (·.creates? = some i) = (hostLog log).countP (·.destroys? = some i)) ∧
      threaded log = false) ∧
    (¬Ended log → .handling ∉ log → .killed ∉ log → (step w (after w turns) .signal).2 = [.killed]) ∧
    (Ended log ∨ .killed ∈ log → ∀ turn, (step w (after w turns) turn).2 = []) := by
  intro log
  obtain ⟨sound, ready⟩ := sound_after w turns
  refine ⟨sound.proper, fun ended => ?_, fun goes unset alive => ?_, ?_⟩
  -- What is taken is given back as often whenever takes and gives alternate and nothing is held now.
  · obtain ⟨shut, bare, alone⟩ := (ready.bare w (sound.ended.mp ended)).1
    refine ⟨fun fd => ?_, fun h => ?_, fun i => ?_, ?_⟩
    · have shut : Run.held Deed.opens? Deed.closes? (Process.log w turns) = none :=
        sound.socket.trans (if_neg (not_le.mpr shut))
      refine (Run.count_takes (careful_sockets sound.proper) fd).trans ?_
      simp [shut, log]
    · have closed : Run.held HostEvent.opens? HostEvent.closes? (hostLog (Process.log w turns)) = none := by
        refine sound.host.library.trans ?_
        rw [holding, bare]
        rfl
      refine (Run.count_takes (PluginHost.careful_libraries sound.host.orderly) h).trans ?_
      simp [closed, log]
    · have gone : Run.held HostEvent.creates? HostEvent.destroys? (hostLog (Process.log w turns)) = none := by
        refine sound.host.live.trans ?_
        rw [holding, bare]
        rfl
      refine (Run.count_takes (PluginHost.careful_instances sound.host.orderly) i).trans ?_
      simp [gone, log]
    · refine sound.thread.trans ?_
      simp [holding, alone.1]
  · exact early_signal sound goes unset alive ready
  · rintro (ended | killed)
    · exact (ready.bare w (sound.ended.mp ended)).2
    · exact fun turn => congrArg Prod.snd (if_pos (sound.killed.mp killed))

end Process

end CanProxy
