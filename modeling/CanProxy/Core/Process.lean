import CanProxy.Core.Config
import CanProxy.Core.Daemon
import CanProxy.Core.PluginHost

/-!
The daemon as a whole: its main thread, the thread of the publisher, and the threads of the plugin.

What the command line, the kernel, the loader, and the plugin answer is given with the process; in
which order the threads take their turns is not.
-/

namespace CanProxy

open Numeric

/-- What the kernel answers while a socket is opened; a negative answer is a failure. -/
structure Kernel where
  socket : ℤ
  ioctl : Text → ℤ
  bind : ℤ
  strerror : Text

/-- What is done with a socket. -/
inductive SocketEvent where
  | opened (fd : ℤ)
  | wrote (fd : ℤ) (frame : Sent)
  | closed (fd : ℤ)

/-- The socket the contract is published through. -/
structure CanSocket where
  fd : ℤ

namespace CanSocket

/-- A socket that was not opened. -/
def unopened : CanSocket := ⟨-1⟩

/-- Close the socket if it is open. -/
def close (s : CanSocket) : CanSocket × List SocketEvent :=
  if s.fd ≥ 0 then (⟨-1⟩, [.closed s.fd]) else (s, [])

/-- What opening a socket leaves: the socket, what was done, and the error, empty on success. -/
structure Opening where
  socket : CanSocket
  events : List SocketEvent
  error : Text

/-- The part of an interface's name that fits the request to the kernel. -/
def ifrName (name : Text) : Text := (Text.cString name).take 15

/-- Open a socket on an interface, in place of the one there is. -/
def openOn (s : CanSocket) (name : Text) (kernel : Kernel) : Opening :=
  let (s, closed) := s.close
  let fd := kernel.socket
  if fd < 0 then ⟨s, closed, "socket(PF_CAN): ".toList ++ kernel.strerror⟩
  -- From here on there is a descriptor, which a failure gives back.
  else if kernel.ioctl (ifrName name) < 0 then
    ⟨s, closed ++ [.opened fd, .closed fd], "interface ".toList ++ name ++ ": ".toList ++ kernel.strerror⟩
  else if kernel.bind < 0 then
    ⟨s, closed ++ [.opened fd, .closed fd], "bind ".toList ++ name ++ ": ".toList ++ kernel.strerror⟩
  else ⟨⟨fd⟩, closed ++ [.opened fd], []⟩

/-- Write a frame, unless the socket is not open. -/
def send (s : CanSocket) (frame : Sent) : List SocketEvent := if s.fd < 0 then [] else [.wrote s.fd frame]

end CanSocket

/-- How the process ends: its exit code, and the error it reports. -/
structure Ending where
  code : Nat
  error : Text
deriving DecidableEq

/-- What the main thread does next. -/
inductive Stage where
  | parse
  | openBus
  | load
  | create
  | startPublisher
  | startPlugin
  | handleSignals
  /-- The plugin is served until a signal comes. -/
  | wait
  | stopPlugin
  /-- The publisher is told to stop, after a signal or because the plugin failed to start. -/
  | stopPublisher (failed : Option Text)
  /-- Its thread is waited for. -/
  | join (failed : Option Text)
  | unload
  /-- What there is goes out of scope, the last one made first. -/
  | destroyPublisher (o : Ending)
  | destroyHost (o : Ending)
  | destroyBus (o : Ending)
  | exited (o : Ending)
  /-- A thread that was not joined went out of scope. -/
  | aborted

/-- Where the main thread goes on once the publisher is stopped. -/
def Stage.stopped : Option Text → Stage
  | none => .unload
  | some error => .destroyPublisher ⟨1, error⟩

/-- What the publisher's thread does next. -/
inductive Thread where
  /-- There is no thread to join. -/
  | absent
  | arming
  /-- It looks whether it shall go on. -/
  | checking
  | ticking
  /-- It has returned, and can be joined. -/
  | finished
deriving DecidableEq

/-- What a process is started with, and what it is answered. -/
structure World (H I : Type) where
  machine : Machine
  env : Option Text
  args : List Text
  kernel : Kernel
  found : Text → Loading H
  created : Option I
  startRc : ℤ

/-- The objects of the main function, where its threads are, and what has become of signals. -/
structure Process (H I : Type) where
  stage : Stage
  cfg : Config
  bus : CanSocket
  host : PluginHost H I
  store : Snapshot
  publisher : Option Publisher
  running : Bool
  thread : Thread
  stop : Bool
  /-- The handlers are set, so that a signal sets the flag. -/
  handled : Bool
  /-- A signal has ended the process. -/
  killed : Bool

/-- What a process does. -/
inductive Deed (H I : Type) where
  | socket (e : SocketEvent)
  | host (e : HostEvent H I)
  /-- The publisher's thread is made. -/
  | spawned
  | armed (now : ℤ)
  /-- The plugin reports to the store, or the publisher ticks. -/
  | call (c : Call)
  | joined
  /-- The handlers of the signals are set. -/
  | handling
  | aborted
  | killed
  | exited (o : Ending)

/-- Whose turn it is. -/
inductive Process.Turn where
  | main
  | publisher (now : ℤ)
  | plugin (r : Report) (now : ℤ)
  | signal

/-- The call to the store that a report is. -/
def Report.call : Report → ℤ → Call
  | .publish s, now => .publish s now
  | .setLink present, now => .setLink present now

namespace Process

variable {H I : Type} (w : World H I) (p : Process H I)

/-- A process before the first thing that its main function does. -/
def start : Process H I where
  stage := .parse
  cfg := {}
  bus := .unopened
  host := .empty
  store := .initial
  publisher := none
  running := false
  thread := .absent
  stop := false
  handled := false
  killed := false

/-- One turn of the main thread. -/
def main : Process H I × List (Deed H I) :=
  match p.stage with
  | .parse =>
    let (cfg, err) := Config.parse w.env w.args
    if cfg.help then ({ p with stage := .exited ⟨0, []⟩ }, [.exited ⟨0, []⟩])
    else if err ≠ [] then ({ p with stage := .exited ⟨2, err⟩ }, [.exited ⟨2, err⟩])
    else ({ p with cfg := cfg, stage := .openBus }, [])
  | .openBus =>
    let opening := p.bus.openOn p.cfg.contractIf w.kernel
    let next := if opening.error = [] then .load else .destroyBus ⟨1, opening.error⟩
    ({ p with bus := opening.socket, stage := next }, opening.events.map .socket)
  | .load =>
    let path := p.cfg.resolvePluginPath
    let reply := p.host.load path (w.found path)
    let next := if reply.error = [] then .create else .destroyHost ⟨1, reply.error⟩
    ({ p with host := reply.host, stage := next }, reply.events.map .host)
  | .create =>
    let reply := p.host.create p.cfg.vehicleIf p.cfg.pluginArgs w.created
    let next := if reply.error = [] then .startPublisher else .destroyHost ⟨1, reply.error⟩
    ({ p with host := reply.host, stage := next }, reply.events.map .host)
  | .startPublisher =>
    match p.host.plugin with
    -- The versions are read through the descriptor.
    | none => (p, [.host .nullCall])
    | some plugin =>
      let publisher := p.cfg.publisher plugin.descriptor.versionMajor plugin.descriptor.versionMinor
      ({ p with publisher := some publisher, running := true, thread := .arming, stage := .startPlugin },
        [.spawned])
  | .startPlugin =>
    let reply := p.host.start w.startRc
    let next := if reply.error = [] then .handleSignals else .stopPublisher (some reply.error)
    ({ p with host := reply.host, stage := next }, reply.events.map .host)
  | .handleSignals => ({ p with handled := true, stage := .wait }, [.handling])
  | .wait => if p.stop then ({ p with stage := .stopPlugin }, []) else (p, [])
  | .stopPlugin =>
    ({ p with host := p.host.stop.1, stage := .stopPublisher none }, p.host.stop.2.map .host)
  | .stopPublisher failed =>
    if p.running then ({ p with running := false, stage := .join failed }, [])
    else ({ p with stage := .stopped failed }, [])
  | .join failed =>
    match p.thread with
    | .absent => ({ p with stage := .stopped failed }, [])
    | .finished => ({ p with thread := .absent, stage := .stopped failed }, [.joined])
    -- The thread has not returned yet.
    | _ => (p, [])
  | .unload =>
    ({ p with host := p.host.unload.1, stage := .destroyPublisher ⟨0, []⟩ }, p.host.unload.2.map .host)
  | .destroyPublisher o =>
    if p.thread = .absent then ({ p with publisher := none, stage := .destroyHost o }, [])
    else ({ p with stage := .aborted }, [.aborted])
  | .destroyHost o =>
    ({ p with host := p.host.unload.1, stage := .destroyBus o }, p.host.unload.2.map .host)
  | .destroyBus o =>
    ({ p with bus := p.bus.close.1, stage := .exited o }, p.bus.close.2.map .socket ++ [.exited o])
  | .exited _ | .aborted => (p, [])

/-- One turn of the publisher's thread. -/
def publish (now : ℤ) : Process H I × List (Deed H I) :=
  match p.thread, p.publisher with
  | .arming, some publisher =>
    ({ p with publisher := some (publisher.arm now), thread := .checking }, [.armed now])
  | .checking, _ => ({ p with thread := if p.running then .ticking else .finished }, [])
  | .ticking, some publisher =>
    -- The store is read once, so that what is reported meanwhile might as well come behind the tick.
    let ticked := publisher.tick w.machine p.store now
    ({ p with publisher := some ticked.publisher, thread := .checking },
      .call (.tick now) :: ((ticked.fired.filterMap Firing.frame).flatMap p.bus.send).map .socket)
  | _, _ => (p, [])

/-- One report of the plugin, whose code is there as long as its library is open. -/
def report (r : Report) (now : ℤ) : Process H I × List (Deed H I) :=
  match p.host.handle with
  | none => (p, [])
  | some _ =>
    let store :=
      match r with
      | .publish s => p.store.publish s now
      | .setLink present => p.store.setLink present now
    ({ p with store := store }, [.call (r.call now)])

/-- One signal, which a process that has ended does not get. -/
def interrupt : Process H I × List (Deed H I) :=
  match p.stage with
  | .exited _ | .aborted => (p, [])
  -- Before its handler is set a signal ends the process, with all its threads and whatever it holds.
  | _ => if p.handled then ({ p with stop := true }, []) else ({ p with killed := true }, [.killed])

/-- One turn of a process that is alive. -/
def act : Turn → Process H I × List (Deed H I)
  | .main => p.main w
  | .publisher now => p.publish w now
  | .plugin r now => p.report r now
  | .signal => p.interrupt

/-- One turn. -/
def step (turn : Turn) : Process H I × List (Deed H I) := if p.killed then (p, []) else p.act w turn

/-- The process after some turns. -/
def after (turns : List Turn) : Process H I := Run.final (step w) start turns

/-- Everything that is done in some turns. -/
def log (turns : List Turn) : List (Deed H I) := Run.outputs (step w) start turns

end Process

end CanProxy
