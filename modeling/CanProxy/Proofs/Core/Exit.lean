import CanProxy.Proofs.Core.Process

/-! How the process ends is decided by what it is answered, and it does end once it is asked to. -/

namespace CanProxy

/-- Everything that the daemon needs with a configuration is there, and the plugin starts. -/
structure World.Works {H I : Type} (w : World H I) (cfg : Config) : Prop where
  socket : 0 ≤ w.kernel.socket
  interface : 0 ≤ w.kernel.ioctl (CanSocket.ifrName cfg.contractIf)
  bind : 0 ≤ w.kernel.bind
  fits : (w.found cfg.resolvePluginPath).Fits
  created : w.created ≠ none
  started : w.startRc = 0

/-- The command line asks for the daemon and nothing is missing, so that the plugin gets to run. -/
structure World.Serves {H I : Type} (w : World H I) : Prop where
  unasked : (Config.parse w.env w.args).1.help = false
  right : (Config.parse w.env w.args).2 = []
  works : w.Works (Config.parse w.env w.args).1

/-- The exit code that the answers call for. -/
inductive World.Code {H I : Type} (w : World H I) : Nat → Prop where
  | help (asked : (Config.parse w.env w.args).1.help = true) : Code w 0
  | usage (unasked : (Config.parse w.env w.args).1.help = false)
    (wrong : (Config.parse w.env w.args).2 ≠ []) : Code w 2
  | failure (unasked : (Config.parse w.env w.args).1.help = false)
    (right : (Config.parse w.env w.args).2 = []) (fails : ¬w.Works (Config.parse w.env w.args).1) : Code w 1
  | success (serves : w.Serves) : Code w 0

theorem CanSocket.openOn_error (name : Text) (kernel : Kernel) :
    (CanSocket.unopened.openOn name kernel).error = [] ↔
      0 ≤ kernel.socket ∧ 0 ≤ kernel.ioctl (ifrName name) ∧ 0 ≤ kernel.bind := by
  have before : CanSocket.unopened.close = (.unopened, []) := rfl
  rw [openOn, before]
  dsimp only
  -- Each call that fails comes with a text, and only success with none.
  split
  · simp; omega
  · split
    · simp; omega
    · split
      · simp; omega
      · simp; omega

namespace Process

variable {H I : Type} (w : World H I)

/-- How the process ends from the start of the plugin on. -/
def fromStart (host : PluginHost H I) : Ending :=
  let reply := host.start w.startRc
  if reply.error = [] then ⟨0, []⟩ else ⟨1, reply.error⟩

/-- How the process ends from the creation of the plugin on. -/
def fromCreate (cfg : Config) (host : PluginHost H I) : Ending :=
  let reply := host.create cfg.vehicleIf cfg.pluginArgs w.created
  if reply.error = [] then fromStart w reply.host else ⟨1, reply.error⟩

/-- How the process ends from the load of the plugin on. -/
def fromLoad (cfg : Config) (host : PluginHost H I) : Ending :=
  let reply := host.load cfg.resolvePluginPath (w.found cfg.resolvePluginPath)
  if reply.error = [] then fromCreate w cfg reply.host else ⟨1, reply.error⟩

/-- How the process ends from the opening of the bus on. -/
def fromOpen (cfg : Config) (bus : CanSocket) (host : PluginHost H I) : Ending :=
  let opening := bus.openOn cfg.contractIf w.kernel
  if opening.error = [] then fromLoad w cfg host else ⟨1, opening.error⟩

/-- How the process ends from the command line on. -/
def fromParse (bus : CanSocket) (host : PluginHost H I) : Ending :=
  let (cfg, err) := Config.parse w.env w.args
  if cfg.help then ⟨0, []⟩ else if err ≠ [] then ⟨2, err⟩ else fromOpen w cfg bus host

/-- How the process ends, from where it is. -/
def verdict (p : Process H I) : Ending :=
  match p.stage with
  | .parse => fromParse w p.bus p.host
  | .openBus => fromOpen w p.cfg p.bus p.host
  | .load => fromLoad w p.cfg p.host
  | .create => fromCreate w p.cfg p.host
  | .startPublisher | .startPlugin => fromStart w p.host
  | .handleSignals | .wait | .stopPlugin | .unload | .aborted => ⟨0, []⟩
  | .stopPublisher failed | .join failed => (failed.map (Ending.mk 1)).getD ⟨0, []⟩
  | .destroyPublisher o | .destroyHost o | .destroyBus o | .exited o => o

variable {w} {p : Process H I}

/-- Every turn leaves the verdict as it was. -/
theorem step_verdict (ready : p.Ready) (turn : Turn) : (p.step w turn).1.verdict w = p.verdict w := by
  rcases step_aside w p turn with main | aside
  swap
  -- The verdict looks at nothing that such a turn changes.
  · unfold verdict
    rw [aside.stage, aside.cfg, aside.bus, aside.host]
  rw [main]
  obtain ⟨stage, cfg, bus, host, store, publisher, running, thread, stop, handled, killed⟩ := p
  unfold Process.main
  -- The verdict of a stage is the branch that its turn takes.
  cases stage with
  | parse =>
    by_cases help : (Config.parse w.env w.args).1.help = true
    · simp [verdict, fromParse, help]
    · by_cases right : (Config.parse w.env w.args).2 = [] <;> simp [verdict, fromParse, help, right]
  | openBus =>
    by_cases opened : (bus.openOn cfg.contractIf w.kernel).error = [] <;>
      simp [verdict, fromOpen, opened]
  | load =>
    by_cases loaded : (host.load cfg.resolvePluginPath (w.found cfg.resolvePluginPath)).error = [] <;>
      simp [verdict, fromLoad, loaded]
  | create =>
    by_cases made : (host.create cfg.vehicleIf cfg.pluginArgs w.created).error = [] <;>
      simp [verdict, fromCreate, made]
  | startPublisher =>
    dsimp only
    split <;> rfl
  | startPlugin =>
    by_cases started : (host.start w.startRc).error = [] <;> simp [verdict, fromStart, started]
  | wait =>
    dsimp only
    split <;> rfl
  | stopPublisher failed =>
    dsimp only
    split
    · rfl
    · cases failed <;> rfl
  | join failed =>
    -- A thread that has not returned leaves the main thread where it is.
    cases thread with
    | absent | finished => cases failed <;> rfl
    | _ => rfl
  | destroyPublisher o =>
    dsimp only
    rw [if_pos ready.2.2.1]
    rfl
  | _ => rfl

/-- The process ends only as the verdict says. -/
theorem step_exits (turn : Turn) {o : Ending} (exits : .exited o ∈ (p.step w turn).2) :
    (p.step w turn).1.verdict w = o := by
  rcases step_aside w p turn with main | aside
  swap
  · cases (aside.quiet _ exits).2
  rw [main] at exits ⊢
  obtain ⟨stage, cfg, bus, host, store, publisher, running, thread, stop, handled, killed⟩ := p
  unfold Process.main at exits ⊢
  -- Two stages end the process: reading the command line, and closing the bus at the very end.
  cases stage with
  | parse =>
    by_cases help : (Config.parse w.env w.args).1.help = true
    · simp [help] at exits
      simp [verdict, help, exits]
    · by_cases right : (Config.parse w.env w.args).2 = []
      · simp [help, right] at exits
      · simp [help, right] at exits
        simp [verdict, help, right, exits]
  | startPublisher | wait | stopPublisher | destroyPublisher | join =>
    dsimp only at exits
    split at exits <;> simp at exits
  | destroyBus o =>
    simp at exits
    simp [verdict, exits]
  | _ => simp at exits

/-- The plugin gets to run exactly when everything it needs is there. -/
theorem fromOpen_works (w : World H I) (cfg : Config) :
    (w.Works cfg ∧ fromOpen w cfg .unopened .empty = ⟨0, []⟩) ∨
      (¬w.Works cfg ∧ ∃ error ≠ [], fromOpen w cfg .unopened .empty = ⟨1, error⟩) := by
  let path := cfg.resolvePluginPath
  have first := PluginHost.load_first (I := I) path (w.found path)
  unfold fromOpen
  -- What fails first decides; the bus comes first, then the library, the instance, and its start.
  by_cases opened : (CanSocket.unopened.openOn cfg.contractIf w.kernel).error = []
  swap
  · refine .inr ⟨fun works => opened ?_, _, opened, if_neg opened⟩
    exact (CanSocket.openOn_error _ _).mpr ⟨works.socket, works.interface, works.bind⟩
  obtain ⟨socket, interface, bind⟩ := (CanSocket.openOn_error _ _).mp opened
  dsimp only
  rw [if_pos opened, fromLoad]
  by_cases loaded : ((PluginHost.empty : PluginHost H I).load path (w.found path)).error = []
  swap
  · exact .inr ⟨fun works => loaded (first.error.mpr works.fits), _, loaded, if_neg loaded⟩
  have plugin := first.loaded loaded
  obtain ⟨-, left, error⟩ :=
    PluginHost.create_first plugin first.gone cfg.vehicleIf cfg.pluginArgs w.created
  rw [if_pos loaded, fromCreate]
  by_cases made : w.created = none
  · have failed := mt error.mp (not_not.mpr made)
    exact .inr ⟨fun works => works.created made, _, failed, if_neg failed⟩
  rw [if_pos (error.mpr made), left, fromStart]
  obtain ⟨-, -, error⟩ := @PluginHost.start_first H I
    { (PluginHost.load .empty path (w.found path)).host with inst := w.created } plugin made first.still
    w.startRc
  dsimp only at error ⊢
  by_cases started : w.startRc = 0
  -- Nothing failed, so all of what is needed was there.
  · refine .inl ⟨⟨socket, interface, bind, first.error.mp loaded, made, started⟩, ?_⟩
    exact if_pos (error.mpr started)
  · have failed := mt error.mp started
    exact .inr ⟨fun works => started works.started, _, failed, if_neg failed⟩

/-- The verdict at the start is the exit code that the answers call for, with an error unless it is zero. -/
theorem start_verdict (w : World H I) :
    w.Code (start.verdict w).code ∧ ((start.verdict w).error = [] ↔ (start.verdict w).code = 0) := by
  have same : start.verdict w = fromParse w .unopened .empty := rfl
  rw [same, fromParse]
  dsimp only
  -- The command line decides, and if it asks for the daemon, whatever that needs.
  split
  next help => exact ⟨.help help, by simp⟩
  next unasked =>
    have unasked := Bool.eq_false_iff.mpr unasked
    split
    next wrong => exact ⟨.usage unasked wrong, by simp [wrong]⟩
    next right =>
      have right := not_not.mp right
      have opening := fromOpen_works w (Config.parse w.env w.args).1
      rcases opening with ⟨works, ends⟩ | ⟨fails, error, reported, ends⟩
      · rw [ends]
        exact ⟨.success ⟨unasked, right, works⟩, by simp⟩
      · rw [ends]
        exact ⟨.failure unasked right fails, by simp [reported]⟩

/-- The process ends as the verdict says, if it does, and the verdict never changes. -/
theorem verdict_after (w : World H I) (turns : List Turn) :
    (after w turns).verdict w = start.verdict w ∧
      ∀ o, .exited o ∈ Process.log w turns → o = start.verdict w := by
  refine @Run.invariant _ _ _ (step w) start turns
    (fun past log p => p = after w past ∧ p.verdict w = start.verdict w ∧
      ∀ o, .exited o ∈ log → o = start.verdict w) ⟨rfl, rfl, by simp⟩ ?_ |>.2
  -- A turn that ends the process ends it as the verdict says, and that was the same all along.
  intro past turn _ held
  obtain ⟨same, verdict, exits⟩ := held
  have next := step_verdict (w := w) (same ▸ (sound_after w past).2) turn
  refine ⟨(Run.final_append (step w) start past [turn]).symm, next.trans verdict, ?_⟩
  intro o member
  rcases List.mem_append.mp member with before | now
  · exact exits o before
  · rw [← step_exits turn now, next, verdict]

/-- The command line was read, and did not ask for help, unless the process has ended. -/
theorem parsed_after (w : World H I) (turns : List Turn) :
    (after w turns).stage = .parse ∨ (∃ o, (after w turns).stage = .exited o) ∨
      (Config.parse w.env w.args).1.help = false := by
  refine @Run.invariant _ _ _ (step w) start turns
    (fun _ _ p => p.stage = .parse ∨ (∃ o, p.stage = .exited o) ∨
      (Config.parse w.env w.args).1.help = false) (.inl rfl) ?_
  intro past turn _ held
  set p := Run.final (step w) start past
  rcases step_aside w p turn with main | aside
  swap
  · rwa [aside.stage]
  rw [main]
  -- Where help was asked for, the first turn ends the process, and no later one changes that.
  by_cases help : (Config.parse w.env w.args).1.help = true
  · refine .inr (.inl ?_)
    unfold Process.main
    rcases held with parse | ⟨o, exited⟩ | unasked
    · simp [parse, help]
    · exact ⟨o, by simp [exited]⟩
    · exact absurd help (by simp [unasked])
  · exact .inr (.inr (Bool.eq_false_iff.mpr help))

/-- How many turns the publisher's thread takes until it has returned, once it was told to. -/
def left (p : Process H I) : ℕ :=
  match p.thread with
  | .absent | .finished => 0
  | .checking => 1
  | .arming | .ticking => 2

/-- How far the main thread is from its end. -/
def distance (p : Process H I) : ℕ :=
  match p.stage with
  | .parse => 18
  | .openBus => 17
  | .load => 16
  | .create => 15
  | .startPublisher => 14
  | .startPlugin => 13
  | .handleSignals => 12
  | .wait => 11
  | .stopPlugin => 10
  | .stopPublisher _ => 9
  -- The thread has to return first.
  | .join _ => 5 + p.left
  | .unload => 4
  | .destroyPublisher _ => 3
  | .destroyHost _ => 2
  | .destroyBus _ => 1
  | .exited _ | .aborted => 0

/-- How far the process is from its end, which a signal may bring at once. -/
def rank (p : Process H I) : ℕ := if p.killed then 0 else p.distance

theorem rank_alive (alive : p.killed = false) : p.rank = p.distance := by
  -- Only a signal cuts the way short.
  rw [rank, alive]
  rfl

theorem rank_le (p : Process H I) : p.rank ≤ 18 := by
  obtain ⟨stage, cfg, bus, host, store, publisher, running, thread, stop, handled, killed⟩ := p
  unfold rank
  split
  · simp
  -- No stage is further from the end than the first one.
  · cases stage with
    | join failed => cases thread <;> simp [distance, left]
    | _ => simp [distance]

/-- The main thread waits for the publisher's, which has not returned yet. -/
def Joins (p : Process H I) : Prop := (∃ failed, p.stage = .join failed) ∧ p.left ≠ 0

/-- The turn brings the process closer to its end. -/
def Needs (p : Process H I) (turn : Turn) : Prop :=
  p.rank ≠ 0 ∧ (p.Joins → ∃ now, turn = .publisher now) ∧ (¬p.Joins → turn = .main)

/-- A process on its way, which was told to stop if it gets to serve its plugin. -/
structure Driven (w : World H I) (p : Process H I) : Prop where
  reached : ∃ past, p = after w past
  asked : (start.verdict w).code = 0 → (Config.parse w.env w.args).1.help = false → p.stop = true

variable {turn : Turn}

/-- It does not wait in vain. -/
theorem Driven.waits (driven : Driven w p) (stage : p.stage = .wait) : p.stop = true := by
  obtain ⟨⟨past, rfl⟩, asked⟩ := driven
  have verdict := (verdict_after w past).1
  -- A process that waits is on its way to an orderly end, which is the only case that needs a signal.
  rw [Process.verdict, stage] at verdict
  refine asked (by rw [← verdict]) ?_
  rcases parsed_after w past with parse | ⟨o, exited⟩ | unasked
  · simp [stage] at parse
  · simp [stage] at exited
  · exact unasked

/-- The main thread leaves the flags of the signals alone, but that it sets the handlers. -/
theorem main_flags (p : Process H I) :
    (p.main w).1.stop = p.stop ∧ (p.main w).1.killed = p.killed ∧
      (p.handled = true → (p.main w).1.handled = true) := by
  obtain ⟨stage, cfg, bus, host, store, publisher, running, thread, stop, handled, killed⟩ := p
  unfold main
  cases stage with
  | parse =>
    dsimp only
    split
    · simp
    · split <;> simp
  | startPublisher | wait | stopPublisher | join | destroyPublisher =>
    dsimp only
    split <;> simp
  | _ => simp

/-- The flag is set by a handler only, and a process that has handlers is not killed. -/
structure Heard (p : Process H I) : Prop where
  stop : p.stop = true → p.handled = true
  killed : p.killed = true → p.handled = false

/-- Handlers stay set, and a flag that is set. -/
theorem Heard.step (heard : p.Heard) (turn : Turn) :
    Heard (p.step w turn).1 ∧ (p.handled = true → (p.step w turn).1.handled = true) ∧
      (p.stop = true → (p.step w turn).1.stop = true) := by
  unfold Process.step
  split
  next dead => exact ⟨heard, id, id⟩
  next alive =>
    cases turn with
    | main =>
      obtain ⟨stop, killed, handled⟩ := main_flags (w := w) p
      refine ⟨⟨fun set => handled (heard.stop (stop ▸ set)), fun dead => ?_⟩, handled, fun set => stop ▸ set⟩
      exact absurd (killed ▸ dead) alive
    | signal =>
      dsimp only [act]
      -- With handlers the signal sets the flag, without them it ends the process.
      rcases interrupt_cases p with gone | ⟨set, sets⟩ | ⟨⟨unset, -⟩, kills⟩
      · rw [gone]
        exact ⟨heard, id, id⟩
      · rw [sets]
        exact ⟨⟨fun _ => set, fun dead => absurd dead alive⟩, id, fun _ => rfl⟩
      · rw [kills]
        exact ⟨⟨heard.stop, fun _ => unset⟩, id, id⟩
    | publisher now =>
      dsimp only [act]
      unfold publish
      split <;> exact ⟨⟨heard.stop, heard.killed⟩, id, id⟩
    | plugin report now =>
      dsimp only [act]
      unfold Process.report
      split <;> exact ⟨⟨heard.stop, heard.killed⟩, id, id⟩

theorem heard_after (w : World H I) (turns : List Turn) : Heard (after w turns) := by
  -- No flag is set at the start.
  refine @Run.invariant _ _ _ (step w) start turns (fun _ _ p => Heard p) ⟨by simp [start], by simp [start]⟩ ?_
  exact fun _ turn _ heard => (heard.step turn).1

theorem handled_after (w : World H I) {before : List Turn} (later : List Turn)
    (set : (after w before).handled = true) : (after w (before ++ later)).handled = true := by
  rw [after, Run.final_append]
  -- The rest of the run starts with the handlers set.
  refine @Run.invariant _ _ _ (step w) (after w before) later (fun _ _ p => Heard p ∧ p.handled = true)
    ⟨heard_after w before, set⟩ ?_ |>.2
  exact fun _ turn _ held => ⟨(held.1.step turn).1, (held.1.step turn).2.1 held.2⟩

theorem Driven.step (driven : Driven w p) (turn : Turn) : Driven w (p.step w turn).1 := by
  obtain ⟨⟨past, rfl⟩, asked⟩ := driven
  refine ⟨⟨past ++ [turn], (Run.final_append (Process.step w) start past [turn]).symm⟩, ?_⟩
  exact fun works unasked => ((heard_after w past).step turn).2.2 (asked works unasked)

theorem Driven.ready (driven : Driven w p) : p.Ready ∧ (p.host.inst ≠ none → p.host.plugin ≠ none) := by
  obtain ⟨⟨past, rfl⟩, -⟩ := driven
  obtain ⟨sound, ready⟩ := sound_after w past
  exact ⟨ready, sound.host.created⟩

/-- A turn of the main thread leads closer to the end, unless it waits for the publisher's thread. -/
theorem main_closer (driven : Driven w p) (ahead : p.distance ≠ 0) (free : ¬p.Joins) :
    (p.main w).1.distance < p.distance := by
  obtain ⟨ready, created⟩ := driven.ready
  have waits := driven.waits
  obtain ⟨stage, cfg, bus, host, store, publisher, running, thread, stop, handled, killed⟩ := p
  unfold main
  -- The stages are numbered in the order they are gone through; a failure skips some of them.
  cases stage with
  | parse =>
    dsimp only
    split
    · simp [distance]
    · split <;> simp [distance]
  | openBus =>
    by_cases opened : (bus.openOn cfg.contractIf w.kernel).error = [] <;> simp [distance, opened]
  | load =>
    by_cases loaded : (host.load cfg.resolvePluginPath (w.found cfg.resolvePluginPath)).error = [] <;>
      simp [distance, loaded]
  | create =>
    by_cases made : (host.create cfg.vehicleIf cfg.pluginArgs w.created).error = [] <;> simp [distance, made]
  | startPlugin => by_cases started : (host.start w.startRc).error = [] <;> simp [distance, started]
  | startPublisher =>
    obtain ⟨plugin, present⟩ := Option.ne_none_iff_exists'.mp (created ready.1.2.1)
    dsimp only at present ⊢
    rw [present]
    simp [distance]
  | wait =>
    dsimp only
    -- Without a signal the process would wait here for ever.
    rw [if_pos (waits rfl)]
    simp [distance]
  | stopPublisher failed =>
    obtain ⟨-, -, runs⟩ := ready
    dsimp only at runs ⊢
    rw [if_pos runs]
    -- The rank makes room for the turns that the thread takes to return.
    cases thread <;> simp [distance, left]
  | join failed =>
    cases thread with
    | absent | finished => cases failed <;> simp [distance, left, Stage.stopped]
    | _ => exact absurd ⟨⟨failed, rfl⟩, by simp [left]⟩ free
  | destroyPublisher o =>
    dsimp only
    rw [if_pos ready.2.2.1]
    simp [distance]
  | handleSignals | stopPlugin | unload | destroyHost | destroyBus => simp [distance]
  | exited | aborted => exact absurd rfl ahead

/-- A turn of the publisher's thread leads closer to the end while that is waited for. -/
theorem publish_closer (ready : p.Ready) (joins : p.Joins) (now : ℤ) :
    (p.publish w now).1.distance < p.distance := by
  obtain ⟨stage, cfg, bus, host, store, publisher, running, thread, stop, handled, killed⟩ := p
  obtain ⟨⟨failed, same⟩, works⟩ := joins
  obtain rfl : stage = .join failed := same
  -- The thread has a publisher to work for, and finds at its next check that it shall not go on.
  obtain ⟨-, ⟨-, made⟩, idle⟩ := ready
  obtain ⟨pub, present⟩ := Option.ne_none_iff_exists'.mp made
  obtain rfl : publisher = some pub := present
  obtain rfl : running = false := idle
  cases thread with
  | absent | finished => exact absurd rfl works
  | checking | arming | ticking => simp [publish, distance, left]

/-- While it waits for that thread, and when it has ended, the main thread does nothing. -/
theorem main_still (still : p.Joins ∨ p.distance = 0) : p.main w = (p, []) := by
  obtain ⟨stage, cfg, bus, host, store, publisher, running, thread, stop, handled, killed⟩ := p
  rcases still with ⟨⟨failed, same⟩, works⟩ | ended
  · obtain rfl : stage = .join failed := same
    cases thread with
    | absent | finished => exact absurd rfl works
    | checking | arming | ticking => rfl
  · cases stage with
    | exited | aborted => rfl
    | _ => simp [distance] at ended

/-- The publisher's thread changes nothing that counts unless it is waited for and has not returned yet. -/
theorem publish_still (now : ℤ) :
    (p.publish w now).1.stage = p.stage ∧ (p.publish w now).1.killed = p.killed ∧
      (¬p.Joins → (∃ failed, p.stage = .join failed) → (p.publish w now).1.thread = p.thread) := by
  refine ⟨?_, ?_, fun free joins => ?_⟩
  · unfold publish
    split <;> rfl
  · unfold publish
    split <;> rfl
  · have returned : p.left = 0 := not_not.mp fun works => free ⟨joins, works⟩
    unfold left at returned
    unfold publish
    split
    next arming _ => simp [arming] at returned
    next checking => simp [checking] at returned
    next ticking _ => simp [ticking] at returned
    next => rfl

/-- Only the stage counts, and the thread that is waited for. -/
theorem same_needs {q : Process H I} (stage : q.stage = p.stage) (killed : q.killed = p.killed)
    (thread : (∃ failed, p.stage = .join failed) → q.thread = p.thread) :
    q.rank = p.rank ∧ ∀ turn, Needs p turn → Needs q turn := by
  obtain ⟨_, _, _, _, _, _, _, working, _, _, dead⟩ := p
  obtain ⟨stage', _, _, _, _, _, _, thread', _, _, killed'⟩ := q
  obtain rfl : stage' = _ := stage
  obtain rfl : killed' = dead := killed
  -- The thread enters the rank only while it is waited for.
  cases stage' with
  | join failed =>
    obtain rfl : thread' = working := thread ⟨failed, rfl⟩
    exact ⟨rfl, fun _ need => need⟩
  | _ => simp [rank, distance, Needs, Joins]

/-- Only at its end is the main thread no turn away from it. -/
theorem distance_pos (unended : ∀ o, p.stage ≠ .exited o) (unaborted : p.stage ≠ .aborted) :
    0 < p.distance := by
  obtain ⟨stage, cfg, bus, host, store, publisher, running, thread, stop, handled, killed⟩ := p
  cases stage with
  | exited o => exact absurd rfl (unended o)
  | aborted => exact absurd rfl unaborted
  | _ => simp [distance]

/-- A signal cuts the way short, or it changes nothing that counts. -/
theorem interrupt_closer (alive : p.killed = false) :
    p.interrupt.1.rank < p.rank ∨
      p.interrupt.1.rank = p.rank ∧ ∀ turn, Needs p turn → Needs p.interrupt.1 turn := by
  rcases interrupt_cases p with gone | ⟨-, sets⟩ | ⟨⟨-, unended, unaborted⟩, kills⟩
  · rw [gone]
    exact .inr ⟨rfl, fun _ need => need⟩
  · rw [sets]
    exact .inr (same_needs rfl rfl fun _ => rfl)
  -- It had not come to its end yet.
  · rw [kills, rank_alive alive]
    exact .inl (distance_pos unended unaborted)

/-- Each turn leads closer to the end if it is needed, and leaves what is needed as it was if not. -/
theorem progress (w : World H I) : Run.Progress (step w) (Driven w) rank Needs := by
  -- What drives the process is kept; a turn that is needed leads closer; any other one does no harm.
  refine ⟨fun turn driven => driven.step turn, ?_, ?_⟩
  · intro p turn driven needed
    obtain ⟨ahead, joining, free⟩ := needed
    have alive : p.killed = false := Bool.eq_false_iff.mpr fun dead => ahead (if_pos dead)
    have same := rank_alive alive
    rw [step, if_neg (by simp [alive]), same]
    by_cases joins : p.Joins
    · obtain ⟨now, rfl⟩ := joining joins
      have kept : (p.publish w now).1.killed = false := (publish_still (w := w) now).2.1.trans alive
      exact (rank_alive kept).trans_lt (publish_closer driven.ready.1 joins now)
    · obtain rfl := free joins
      have kept : (p.main w).1.killed = false := (main_flags p).2.1.trans alive
      exact (rank_alive kept).trans_lt (main_closer driven (same ▸ ahead) joins)
  · intro p turn driven
    by_cases dead : p.killed = true
    · -- One that was killed is at its end.
      rw [step, if_pos dead]
      exact .inr ⟨rfl, fun _ need => need⟩
    have alive := Bool.eq_false_iff.mpr dead
    have same := rank_alive alive
    rw [step, if_neg dead]
    cases turn with
    | main =>
      -- A turn of the main thread that is not needed is one that does nothing at all.
      by_cases still : p.Joins ∨ p.distance = 0
      · rw [act, main_still still]
        exact .inr ⟨rfl, fun _ need => need⟩
      · obtain ⟨free, ahead⟩ := not_or.mp still
        have kept : (p.main w).1.killed = false := (main_flags p).2.1.trans alive
        rw [same]
        exact .inl ((rank_alive kept).trans_lt (main_closer driven ahead free))
    | publisher now =>
      obtain ⟨stage, killed, thread⟩ := publish_still (w := w) (p := p) now
      by_cases joins : p.Joins
      · rw [same]
        exact .inl ((rank_alive (killed.trans alive)).trans_lt (publish_closer driven.ready.1 joins now))
      · exact .inr (same_needs stage killed (thread joins))
    | plugin report now =>
      refine .inr (same_needs ?_ ?_ fun _ => ?_)
      all_goals
        dsimp only [act]
        unfold Process.report
        split <;> rfl
    | signal => exact interrupt_closer alive

/-- A process that has no turn left has ended, unless it was killed. -/
theorem Ready.ended (ready : p.Ready) (alive : p.killed = false) (last : p.rank = 0) :
    p.holding.ended = true := by
  rw [rank_alive alive] at last
  obtain ⟨stage, cfg, bus, host, store, publisher, running, thread, stop, handled, killed⟩ := p
  cases stage with
  | exited o => rfl
  | aborted => exact ready.elim
  | _ => simp [distance] at last

theorem exited_after (w : World H I) (turns : List Turn) (alive : (after w turns).killed = false)
    (last : (after w turns).rank = 0) : .exited (start.verdict w) ∈ Process.log w turns := by
  obtain ⟨sound, ready⟩ := sound_after w turns
  have told : Ended (Process.log w turns) := sound.ended.mpr (ready.ended alive last)
  -- It has ended, so the log has an end in it, and that can only be the verdict.
  obtain ⟨o, last⟩ := Option.ne_none_iff_exists'.mp told
  obtain ⟨deed, member, exits⟩ := List.mem_filterMap.mp (List.mem_of_getLast? last)
  cases deed with
  | exited o' =>
    rw [← (verdict_after w turns).2 o' member]
    exact member
  | _ => cases exits

/-- A signal ended the process before its handlers were set, and it has done nothing since. -/
def Killed (w : World H I) (turns : List Turn) : Prop :=
  ∃ past later, turns = past ++ .signal :: later ∧ .handling ∉ Process.log w past ∧
    ¬Ended (Process.log w past) ∧ Process.log w turns = Process.log w past ++ [.killed]

/-- Only a signal ends the process before its time. -/
theorem step_killed {p : Process H I} (turn : Turn) (alive : p.killed = false)
    (killed : (p.step w turn).1.killed = true) : turn = .signal ∧ (p.step w turn).2 = [.killed] := by
  rw [step, if_neg (by simp [alive])] at killed ⊢
  cases turn with
  | main => exact absurd ((main_flags p).2.1.symm.trans killed) (by simp [alive])
  | publisher now => exact absurd ((publish_still now).2.1.symm.trans killed) (by simp [alive])
  | plugin report now =>
    dsimp only [act] at killed
    unfold Process.report at killed
    split at killed <;> simp [alive] at killed
  | signal =>
    dsimp only [act] at killed ⊢
    -- Where it is not killed by the signal, it is as it was, or its flag is set.
    rcases interrupt_cases p with gone | ⟨-, sets⟩ | ⟨-, kills⟩
    · exact absurd (gone ▸ killed) (by simp [alive])
    · exact absurd (sets ▸ killed) (by simp [alive])
    · exact ⟨rfl, by rw [kills]⟩

/-- What was killed was killed by a signal that came too early. -/
theorem killed_after (w : World H I) (turns : List Turn) (killed : (after w turns).killed = true) :
    Killed w turns := by
  revert killed
  refine @Run.invariant _ _ _ (step w) start turns
    (fun past log p => p = after w past ∧ log = Process.log w past ∧ (p.killed = true → Killed w past))
    ⟨rfl, rfl, by simp [start]⟩ ?_ |>.2.2
  intro past turn _ held
  obtain ⟨same, told, earlier⟩ := held
  have more : Process.log w (past ++ [turn]) = Process.log w past ++ (step w (after w past) turn).2 := by
    simp [Process.log, Run.outputs_append, after]
  refine ⟨(Run.final_append (step w) start past [turn]).symm, ?_, fun killed => ?_⟩
  · rw [more, told, same]
  rw [same] at killed earlier
  by_cases dead : (after w past).killed = true
  · obtain ⟨first, later, split, unset, unended, last⟩ := earlier dead
    refine ⟨first, later ++ [turn], by simp [split], unset, unended, ?_⟩
    rw [more, last, step, if_pos dead, List.append_nil]
  · have alive := Bool.eq_false_iff.mpr dead
    obtain ⟨rfl, last⟩ := step_killed turn alive killed
    rw [last] at more
    -- That it came too early is what makes such an end proper.
    have proper := (sound_after w (past ++ [.signal])).1.proper
    rw [more] at proper
    obtain ⟨unset, unended⟩ := (Run.each_concat_iff.mp proper).2
    exact ⟨past, [], rfl, unset, unended, more⟩

/--
A process that is asked to stop ends, and how it ends is decided by what it was answered.

Once a signal has come to a process that serves its plugin, or without one if it does not get that far,
twenty rounds in which both the main thread and the publisher's have a turn are enough, whatever
happens besides. The exit code is the one that the answers call for, and any but zero comes with an error;
only a signal that comes before there is a handler for it ends the process otherwise, without a code.
-/
theorem exits (w : World H I) {before : List Turn}
    (asked : w.Serves → (after w before).stop = true)
    {rounds : List (List Turn)} (fair : ∀ round ∈ rounds, .main ∈ round ∧ ∃ now, .publisher now ∈ round)
    (enough : 20 ≤ rounds.length) :
    ¬w.Serves ∧ Killed w (before ++ rounds.flatten) ∨
    ∃ code error, w.Code code ∧ (error = [] ↔ code = 0) ∧
      ∀ o, .exited o ∈ Process.log w (before ++ rounds.flatten) ↔ o = ⟨code, error⟩ := by
  obtain ⟨code, reported⟩ := start_verdict w
  have driven : Driven w (after w before) := by
    refine ⟨⟨before, rfl⟩, fun zero unasked => asked ?_⟩
    rw [zero] at code
    cases code with
    | help asked => exact absurd asked (by simp [unasked])
    | success serves => exact serves
  have bounded : (after w before).rank ≤ rounds.length := (rank_le _).trans (le_trans (by decide) enough)
  -- Whichever thread is needed has a turn in every round.
  have found : ∀ round ∈ rounds, ∀ p, Driven w p → p.rank ≠ 0 → ∃ turn ∈ round, Needs p turn := by
    intro round member p _ ahead
    obtain ⟨main, now, publisher⟩ := fair round member
    by_cases joins : p.Joins
    · exact ⟨_, publisher, ahead, fun _ => ⟨now, rfl⟩, fun free => absurd joins free⟩
    · exact ⟨_, main, ahead, fun joins' => absurd joins' joins, fun _ => rfl⟩
  have ended := (progress w).rounds driven found bounded
  rw [after, ← Run.final_append] at ended
  by_cases dead : (after w (before ++ rounds.flatten)).killed = true
  · refine .inl ⟨fun serves => ?_, killed_after w _ dead⟩
    -- Its flag was set before, by a handler, and what has handlers is not killed.
    have set := (heard_after w before).stop (asked serves)
    have kept := handled_after w rounds.flatten set
    exact absurd ((heard_after w _).killed dead) (by simp [kept])
  · refine .inr ⟨_, _, code, reported, fun o => ⟨(verdict_after w _).2 o, ?_⟩⟩
    rintro rfl
    exact exited_after w _ (Bool.eq_false_iff.mpr dead) ended

/-- A daemon with a simulated vehicle is stopped by a signal, and ends without an error. -/
theorem exits_served :
    let d : PluginDescriptor := ⟨1, some "sim".toList, 1, 0, true, true, true, true⟩
    let w : World Unit Unit :=
      { machine := .indefinite
        env := none
        args := ["--contract-if=vcan0".toList, "--plugin=sim".toList]
        kernel := ⟨3, fun _ => 0, 0, []⟩
        found := fun _ => ⟨some (), [], true, some d⟩
        created := some ()
        startRc := 0 }
    let before := List.replicate 7 .main ++ [.signal]
    let rounds := List.replicate 20 [.main, .publisher 0]
    ∀ o, .exited o ∈ Process.log w (before ++ rounds.flatten) ↔ o = ⟨0, []⟩ := by
  intro d w before rounds
  have serves : w.Serves := by
    refine ⟨by decide +kernel, by decide +kernel, by decide, by decide +kernel, by decide, ?_, by decide, rfl⟩
    exact ⟨rfl, rfl, d, rfl, rfl, by decide⟩
  have stopped : (after w before).stop = true := by decide +kernel
  have fair : ∀ round ∈ rounds, .main ∈ round ∧ ∃ now, .publisher now ∈ round := by
    intro round member
    rw [List.eq_of_mem_replicate member]
    exact ⟨by simp, 0, by simp⟩
  rcases exits w (fun _ => stopped) fair (by decide) with ⟨fails, -⟩ | ⟨code, error, called, reported, ends⟩
  · exact absurd serves fails
  -- Of the four ways to end only the orderly one is left.
  cases called with
  | help asked => exact absurd asked (by simp [serves.unasked])
  | usage _ wrong => exact absurd serves.right wrong
  | failure _ _ fails => exact absurd serves.works fails
  | success _ => rwa [reported.mpr rfl] at ends

end Process

end CanProxy
