import CanProxy.Core.PluginHost

/-! Whatever is called in whatever order, the host drives every plugin through its life properly. -/

namespace CanProxy

section Events

variable {H I : Type}

namespace HostEvent

/-- The library that the event opens. -/
def opens? : HostEvent H I → Option H
  | opened h => some h
  | _ => none

/-- The library that the event closes. -/
def closes? : HostEvent H I → Option H
  | closed h => some h
  | _ => none

/-- The instance that the event brings into being. -/
def creates? : HostEvent H I → Option I
  | create _ _ result => result
  | _ => none

/-- The instance that the event ends. -/
def destroys? : HostEvent H I → Option I
  | destroy _ i => some i
  | _ => none

/-- Whether the plugin runs after the event, for the events that change it. -/
def runs? : HostEvent H I → Option Bool
  | start _ _ rc => if rc = 0 then some true else none
  | stop _ _ => some false
  | _ => none

end HostEvent

/-- The library that is open at the end of a log. -/
def openLibrary (log : List (HostEvent H I)) : Option H :=
  Run.held HostEvent.opens? HostEvent.closes? log

/-- The instance that is live at the end of a log. -/
def liveInstance (log : List (HostEvent H I)) : Option I :=
  Run.held HostEvent.creates? HostEvent.destroys? log

/-- The last start that succeeded has not been followed by a stop. -/
def running (log : List (HostEvent H I)) : Bool := (Run.last HostEvent.runs? log).getD false

/-- What an event may only come after. -/
def Orderly (before : List (HostEvent H I)) : HostEvent H I → Prop
  | .opened _ => openLibrary before = none
  | .entry h => openLibrary before = some h
  | .create h _ _ => openLibrary before = some h ∧ liveInstance before = none
  | .start h i _ => openLibrary before = some h ∧ liveInstance before = some i ∧ running before = false
  | .stop h i => openLibrary before = some h ∧ liveInstance before = some i ∧ running before = true
  | .destroy h i => openLibrary before = some h ∧ liveInstance before = some i ∧ running before = false
  | .closed h => openLibrary before = some h ∧ liveInstance before = none
  | .nullCall => False

section Concat

variable (log : List (HostEvent H I)) (e : HostEvent H I)

theorem openLibrary_concat :
    openLibrary (log ++ [e]) = Run.hold HostEvent.opens? HostEvent.closes? (openLibrary log) e :=
  Run.held_concat ..

theorem liveInstance_concat :
    liveInstance (log ++ [e]) = Run.hold HostEvent.creates? HostEvent.destroys? (liveInstance log) e :=
  Run.held_concat ..

theorem running_concat : running (log ++ [e]) = (e.runs?.or (Run.last HostEvent.runs? log)).getD false :=
  congrArg (·.getD false) (Run.last_concat ..)

end Concat

end Events

namespace PluginHost

variable {H I : Type}

/-- One thing that the host does to its members, with what it calls. -/
inductive Move : PluginHost H I → List (HostEvent H I) → PluginHost H I → Prop where
  /-- A running instance is stopped. -/
  | stop {p : PluginHost H I} {i : I} (live : p.inst = some i) (runs : p.started = true) :
    Move p [p.calls (.stop · i)] { p with started := false }
  /-- An instance that does not run is destroyed. -/
  | destroy {p : PluginHost H I} {i : I} (live : p.inst = some i) (stopped : p.started = false) :
    Move p [p.calls (.destroy · i)] { p with inst := none }
  /-- The descriptor is forgotten once there is no instance. -/
  | forget {p : PluginHost H I} (gone : p.inst = none) : Move p [] { p with plugin := none }
  /-- The library is closed once the descriptor is forgotten. -/
  | close {p : PluginHost H I} {h : H} (gone : p.inst = none) (forgotten : p.plugin = none)
    (library : p.handle = some h) : Move p [.closed h] { p with handle := none }
  /-- A library is opened while none is. -/
  | opened {p : PluginHost H I} (clean : p.handle = none) (gone : p.inst = none)
    (forgotten : p.plugin = none) (h : H) : Move p [.opened h] { p with handle := some h }
  /-- The entry function of the open library is called. -/
  | entry {p : PluginHost H I} {h : H} (library : p.handle = some h) : Move p [.entry h] p
  /-- The descriptor of the open library is kept. -/
  | adopt {p : PluginHost H I} (plugin : LoadedPlugin H) (library : p.handle = some plugin.library)
    (gone : p.inst = none) : Move p [] { p with plugin := some plugin }
  /-- An instance is asked for while there is none. -/
  | create {p : PluginHost H I} {plugin : LoadedPlugin H} (loaded : p.plugin = some plugin)
    (gone : p.inst = none) (args : PluginArgs) (result : Option I) :
    Move p [.create plugin.library args result] { p with inst := result }
  /-- The instance refuses to start. -/
  | refused {p : PluginHost H I} {i : I} (live : p.inst = some i) (stopped : p.started = false) {rc : ℤ}
    (failed : rc ≠ 0) : Move p [p.calls (.start · i rc)] p
  /-- The instance starts. -/
  | start {p : PluginHost H I} {i : I} (live : p.inst = some i) (stopped : p.started = false) :
    Move p [p.calls (.start · i 0)] { p with started := true }

/-- The members agree with the log, and each of them implies the one below it. -/
structure Sound (log : List (HostEvent H I)) (p : PluginHost H I) : Prop where
  orderly : Run.Each Orderly log
  library : openLibrary log = p.handle
  live : liveInstance log = p.inst
  runs : running log = p.started
  started : p.started = true → p.inst ≠ none
  created : p.inst ≠ none → p.plugin ≠ none
  loaded : ∀ plugin, p.plugin = some plugin → p.handle = some plugin.library

variable {log events : List (HostEvent H I)} {p q : PluginHost H I}

/-- A call of a live instance goes into the open library. -/
theorem Sound.calls (sound : Sound log p) (live : p.inst ≠ none) (event : H → HostEvent H I) :
    ∃ h, p.handle = some h ∧ p.calls event = event h := by
  -- A live instance comes with a descriptor, and that points into the library.
  obtain ⟨plugin, loaded⟩ := Option.ne_none_iff_exists'.mp (sound.created live)
  exact ⟨plugin.library, sound.loaded plugin loaded, by rw [PluginHost.calls, loaded]⟩

/-- One more event that was called for, and the members that it leaves. -/
theorem Sound.tell (sound : Sound log p) {e : HostEvent H I} (orderly : Orderly log e)
    (library : q.handle = Run.hold HostEvent.opens? HostEvent.closes? p.handle e)
    (live : q.inst = Run.hold HostEvent.creates? HostEvent.destroys? p.inst e)
    (runs : q.started = e.runs?.getD p.started) (started : q.started = true → q.inst ≠ none)
    (created : q.inst ≠ none → q.plugin ≠ none)
    (loaded : ∀ plugin, q.plugin = some plugin → q.handle = some plugin.library) :
    Sound (log ++ [e]) q := by
  -- Each part of the log's meaning is that of the log before, changed by the event at its end.
  refine ⟨Run.each_concat sound.orderly orderly, ?_, ?_, ?_, started, created, loaded⟩
  · rw [openLibrary_concat, sound.library, library]
  · rw [liveInstance_concat, sound.live, live]
  · rw [running_concat, runs, ← sound.runs]
    cases e.runs? <;> rfl

/-- Every move keeps the members in agreement with the log. -/
theorem Sound.move (sound : Sound log p) (moved : Move p events q) : Sound (log ++ events) q := by
  have ⟨_, library, live, runs, started, created, loaded⟩ := sound
  -- A move that tells an event shows that it was called for; the two silent ones change the descriptor only.
  cases moved with
  | @stop i exists' runs' =>
    obtain ⟨h, handle, call⟩ := sound.calls (by simp [exists']) (.stop · i)
    rw [call]
    exact sound.tell ⟨library.trans handle, live.trans exists', runs.trans runs'⟩ rfl rfl rfl nofun
      created loaded
  | @destroy i exists' stopped =>
    obtain ⟨h, handle, call⟩ := sound.calls (by simp [exists']) (.destroy · i)
    rw [call]
    refine sound.tell ⟨library.trans handle, live.trans exists', runs.trans stopped⟩ rfl rfl rfl ?_
      (fun present => absurd rfl present) loaded
    exact fun running => absurd (running.symm.trans stopped) nofun
  | forget gone =>
    rw [List.append_nil]
    exact ⟨sound.orderly, library, live, runs, started, fun present => absurd gone present, nofun⟩
  | close gone forgotten handle =>
    refine sound.tell ⟨library.trans handle, live.trans gone⟩ rfl rfl rfl started created ?_
    exact fun plugin present => absurd (forgotten.symm.trans present) nofun
  | opened clean gone forgotten h =>
    refine sound.tell (library.trans clean) rfl rfl rfl started created ?_
    exact fun plugin present => absurd (forgotten.symm.trans present) nofun
  | entry handle => exact sound.tell (library.trans handle) rfl rfl rfl started created loaded
  | adopt plugin handle gone =>
    rw [List.append_nil]
    refine ⟨sound.orderly, library, live, runs, started, fun _ => nofun, ?_⟩
    rintro other ⟨⟩
    exact handle
  | create present gone args result =>
    -- Without an instance nothing runs, so a new one does not run either.
    have idle : p.started ≠ true := fun running => started running gone
    refine sound.tell ⟨library.trans (loaded _ present), live.trans gone⟩ rfl ?_ rfl
      (fun running => absurd running idle) (fun _ => by simp [present]) loaded
    simp [Run.hold, HostEvent.creates?, HostEvent.destroys?, gone]
  | @refused i exists' stopped rc failed =>
    obtain ⟨h, handle, call⟩ := sound.calls (by simp [exists']) (.start · i rc)
    rw [call]
    refine sound.tell ⟨library.trans handle, live.trans exists', runs.trans stopped⟩ rfl rfl ?_
      started created loaded
    -- A start that was refused counts as none.
    rw [HostEvent.runs?, if_neg failed]
    rfl
  | @start i exists' stopped =>
    obtain ⟨h, handle, call⟩ := sound.calls (by simp [exists']) (.start · i 0)
    rw [call]
    exact sound.tell ⟨library.trans handle, live.trans exists', runs.trans stopped⟩ rfl rfl rfl
      (fun _ => by simp [exists']) created loaded

section Paths

variable (p : PluginHost H I)

/-- Stopping leaves no instance running, and touches nothing else. -/
theorem stop_path :
    Run.Path Move p p.stop.2 p.stop.1 ∧ (p.stop.1.inst ≠ none → p.stop.1.started = false) := by
  unfold PluginHost.stop
  -- Nothing is done unless there is an instance and it runs.
  split
  next i live =>
    split
    next runs => exact ⟨.single (.stop live runs), fun _ => rfl⟩
    next stopped => exact ⟨.stay p, fun _ => Bool.eq_false_iff.mpr stopped⟩
  next gone => exact ⟨.stay p, fun present => absurd gone present⟩

/-- Destroying an instance that does not run leaves none. -/
theorem destroy_path (stopped : p.inst ≠ none → p.started = false) :
    Run.Path Move p p.destroy.2 p.destroy.1 ∧ p.destroy.1.inst = none := by
  unfold PluginHost.destroy
  -- Only what does not run may be destroyed, which is what stopping has seen to.
  split
  next i live => exact ⟨.single (.destroy live (stopped (by simp [live]))), rfl⟩
  next gone => exact ⟨.stay p, gone⟩

/-- Closing leaves no library. -/
theorem close_path (gone : p.inst = none) (forgotten : p.plugin = none) :
    Run.Path Move p p.close.2 p.close.1 ∧ p.close.1.handle = none ∧ p.close.1.inst = none ∧
      p.close.1.plugin = none := by
  unfold PluginHost.close
  -- The instance and the descriptor are gone, so nothing points into the library any more.
  split
  next h library => exact ⟨.single (.close gone forgotten library), rfl, gone, forgotten⟩
  next clean => exact ⟨.stay p, clean, gone, forgotten⟩

/-- Unloading leaves nothing. -/
theorem unload_path :
    Run.Path Move p p.unload.2 p.unload.1 ∧ p.unload.1.handle = none ∧ p.unload.1.inst = none ∧
      p.unload.1.plugin = none := by
  -- Each step leaves what the next one relies on: stopped, destroyed, forgotten, closed.
  obtain ⟨stopping, stopped⟩ := stop_path p
  obtain ⟨destroying, gone⟩ := destroy_path p.stop.1 stopped
  obtain ⟨closing, clean⟩ := close_path { p.stop.1.destroy.1 with plugin := none } gone rfl
  have forgetting := destroying.extend (.forget gone)
  rw [List.append_nil] at forgetting
  exact ⟨(stopping.trans forgetting).trans closing, clean⟩

/-- A reply is a path, and leaves nothing if it returns an error. -/
def Settled (start : PluginHost H I) (reply : HostReply H I) : Prop :=
  Run.Path Move start reply.events reply.host ∧
    (reply.error ≠ [] → reply.host.handle = none ∧ reply.host.inst = none ∧ reply.host.plugin = none)

/-- Giving up a load unloads. -/
theorem giveUp_settled {start : PluginHost H I} {before : List (HostEvent H I)}
    (path : Run.Path Move start before p) (error : Text) : Settled start (p.giveUp before error) := by
  obtain ⟨unloading, nothing⟩ := unload_path p
  exact ⟨path.trans unloading, fun _ => nothing⟩

/-- A load unloads what there is, and goes as far as the new library lets it. -/
theorem load_settled (path : Text) (found : Loading H) : Settled p (p.load path found) := by
  obtain ⟨unloading, clean, gone, forgotten⟩ := unload_path p
  unfold load
  dsimp only
  -- The loader may find no library; then what was unloaded stays so.
  split
  · exact ⟨unloading, fun _ => ⟨clean, gone, forgotten⟩⟩
  next h _ =>
    have opened := unloading.extend (.opened clean gone forgotten h)
    split
    -- The entry function is called once, and its answer is checked in three steps.
    · have entered := opened.extend (.entry rfl)
      split
      · exact giveUp_settled _ entered _
      next d _ =>
        split
        · exact giveUp_settled _ entered _
        · split
          next complete =>
            -- Keeping the descriptor is no call, and it is the only way to success.
            have adopted := entered.extend (.adopt ⟨h, d, complete⟩ rfl gone)
            rw [List.append_nil] at adopted
            exact ⟨adopted, fun failed => absurd rfl failed⟩
          · exact giveUp_settled _ entered _
    · exact giveUp_settled _ opened _

theorem create_path (vehicleIf : Text) (args : List (Text × Text)) (result : Option I) :
    Run.Path Move p (p.create vehicleIf args result).events (p.create vehicleIf args result).host := by
  unfold create
  -- There is nothing to call without a plugin, and nothing to do with an instance that exists.
  split
  · exact .stay p
  next plugin loaded =>
    split
    · exact .stay p
    next absent =>
      have gone : p.inst = none := by simpa using absent
      cases result with
      | none => exact .single (.create loaded gone _ none)
      | some i => exact .single (.create loaded gone _ (some i))

theorem start_path (rc : ℤ) : Run.Path Move p (p.start rc).events (p.start rc).host := by
  unfold start
  -- An instance that runs is not started again.
  split
  · exact .stay p
  next i live =>
    split
    · exact .stay p
    next idle =>
      have stopped := Bool.eq_false_iff.mpr idle
      dsimp only
      split
      next failed => exact .single (.refused live stopped failed)
      next succeeded =>
        obtain rfl := not_not.mp succeeded
        exact .single (.start live stopped)

/-- Every call is a path of moves. -/
theorem step_path (call : HostCall H I) : Run.Path Move p (p.step call).2 (p.step call).1 := by
  cases call with
  | load path found => exact (load_settled p path found).1
  | create vehicleIf args result => exact create_path p vehicleIf args result
  | start rc => exact start_path p rc
  | stop => exact (stop_path p).1
  | unload | destruct => exact (unload_path p).1

end Paths

/-- The members agree with the log after every sequence of calls. -/
theorem sound_after (calls : List (HostCall H I)) : Sound (PluginHost.log calls) (after calls) := by
  -- Nothing has been loaded at first, and the log is empty.
  refine Run.Path.invariant step_path (fun sound moved => sound.move moved) ?_ calls
  exact ⟨Run.each_nil, rfl, rfl, rfl, nofun, fun present => absurd rfl present, nofun⟩

/-- In an orderly log libraries are opened and closed in turn. -/
theorem careful_libraries (orderly : Run.Each Orderly log) :
    Run.Each (Run.Careful HostEvent.opens? HostEvent.closes?) log := by
  intro before e later split
  have held := orderly before e later split
  -- Order among the calls is more than what is needed here: opening and closing in turn.
  cases e with
  | opened h => exact ⟨fun _ _ => held, nofun⟩
  | closed h =>
    refine ⟨nofun, ?_⟩
    rintro _ ⟨⟩
    exact held.1
  | _ => exact ⟨nofun, nofun⟩

/-- In an orderly log instances are created and destroyed in turn. -/
theorem careful_instances (orderly : Run.Each Orderly log) :
    Run.Each (Run.Careful HostEvent.creates? HostEvent.destroys?) log := by
  intro before e later split
  have held := orderly before e later split
  -- A creation comes after the last instance ended, and an end after a creation.
  cases e with
  | create h args result => exact ⟨fun _ _ => held.2, nofun⟩
  | destroy h i =>
    refine ⟨nofun, ?_⟩
    rintro _ ⟨⟩
    exact held.2.1
  | _ => exact ⟨nofun, nofun⟩

/-- A host without a library, a descriptor, and an instance has nothing that runs. -/
theorem Sound.eq_empty (sound : Sound log p) (clean : p.handle = none) (gone : p.inst = none)
    (forgotten : p.plugin = none) : p = empty := by
  -- What runs would be an instance, and there is none.
  have stopped : p.started = false := Bool.eq_false_iff.mpr fun runs => sound.started runs gone
  obtain ⟨handle, plugin, inst, started⟩ := p
  subst clean gone forgotten stopped
  rfl

/-- A call that leaves no library, descriptor, and instance leaves the host as it was at first. -/
theorem step_eq_empty (calls : List (HostCall H I)) (call : HostCall H I)
    (nothing : ((after calls).step call).1.handle = none ∧ ((after calls).step call).1.inst = none ∧
      ((after calls).step call).1.plugin = none) : ((after calls).step call).1 = empty := by
  -- The call is the last one of a longer run, whose members agree with its log as well.
  have last : after (calls ++ [call]) = ((after calls).step call).1 := Run.final_append ..
  have sound := sound_after (calls ++ [call])
  rw [last] at sound
  exact sound.eq_empty nothing.1 nothing.2.1 nothing.2.2

/--
Whatever is called in whatever order and whatever the loader and the plugins answer, everything
happens in order: a plugin is called while its library is open and its instance lives, is started
when it does not run and stopped when it does, and ends before its library is closed. Libraries are
closed and instances destroyed exactly once, and a load that fails leaves the host empty.
-/
theorem plugin_driven_orderly [DecidableEq H] [DecidableEq I] (calls : List (HostCall H I)) :
    let host := after calls
    let log := PluginHost.log calls
    Run.Each Orderly log ∧
    (∀ h, log.countP (·.opens? = some h) =
      log.countP (·.closes? = some h) + if host.handle = some h then 1 else 0) ∧
    (∀ i, log.countP (·.creates? = some i) =
      log.countP (·.destroys? = some i) + if host.inst = some i then 1 else 0) ∧
    ((host.started = true → host.inst ≠ none) ∧ (host.inst ≠ none → host.plugin ≠ none) ∧
      ∀ plugin, host.plugin = some plugin → host.handle = some plugin.library) ∧
    (∀ path found, (host.load path found).error ≠ [] → (host.load path found).host = empty) ∧
    (host.step .unload).1 = empty ∧ (host.step .destruct).1 = empty := by
  intro host log
  have sound := sound_after calls
  have unloaded : (host.step .unload).1 = empty := step_eq_empty calls .unload (unload_path host).2
  -- The counts follow from taking turns: what is held now is what was taken once more than given back.
  refine ⟨sound.orderly, ?_, ?_, ⟨sound.started, sound.created, sound.loaded⟩, ?_, unloaded, unloaded⟩
  · intro h
    rw [Run.count_takes (careful_libraries sound.orderly) h]
    exact congrArg _ (by rw [← sound.library]; rfl)
  · intro i
    rw [Run.count_takes (careful_instances sound.orderly) i]
    exact congrArg _ (by rw [← sound.live]; rfl)
  · intro path found failed
    exact step_eq_empty calls (.load path found) ((load_settled host path found).2 failed)

end PluginHost

end CanProxy
