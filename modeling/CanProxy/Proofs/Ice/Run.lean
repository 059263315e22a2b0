import CanProxy.Proofs.Ice.Moves
import CanProxy.Proofs.Ice.State

/-! What every published state says, in every run of the plugin. -/

namespace CanProxy.Ice

open Numeric

section Log

variable (pid : UInt8) (log : List Event) (e : Event)

theorem advertised_concat : advertised (log ++ [e]) = e.advertise (advertised log) :=
  -- The last event is folded in last.
  List.foldl_concat ..

theorem answered_concat : answered pid (log ++ [e]) = e.answer pid (answered pid log) :=
  List.foldl_concat ..

theorem lastLink_concat : lastLink (log ++ [e]) = e.link?.or (lastLink log) :=
  Run.last_concat ..

end Log

/--
The members of the plugin agree with its log.

What is scheduled is advertised and remembers its last answer, and every value held is a measurement
that was answered last.
-/
structure Agrees (c : Config) (log : List Event) (p : Plugin) : Prop where
  supported : p.supported = advertised log
  linked : p.discovered = true → lastLink log = some true
  scheduled : ∀ pid it, p.poller.find pid = some it → pid ∈ p.supported ∧
    it.interval = c.interval pid ∧ it.lastAnswer = ((answered pid log).map Prod.snd).getD (-1)
  valued : ∀ pid v, p.values pid = some v → filler pid v = false ∧
    ∃ time, answered pid log = some (v, time)

/-- A plugin that has just been started agrees with the empty log. -/
theorem Agrees.start (c : Config) : Agrees c [] Plugin.new :=
  -- Nothing is advertised, scheduled, or held.
  ⟨rfl, nofun, nofun, nofun⟩

/-- What is told without any news about the parameters keeps the agreement. -/
theorem Agrees.tell {c : Config} {log : List Event} {p q : Plugin} (agrees : Agrees c log p)
    {e : Event} (silent : ∀ supported pid last, e.advertise supported = supported ∧
      e.answer pid last = last)
    (linked : q.discovered = true → e.link?.or (lastLink log) = some true)
    (supported : q.supported = p.supported) (poller : q.poller = p.poller)
    (values : ∀ pid v, q.values pid = some v → p.values pid = some v) : Agrees c (log ++ [e]) q := by
  have same (pid : UInt8) : answered pid (log ++ [e]) = answered pid log := by
    rw [answered_concat, (silent ∅ pid _).2]
  refine ⟨?_, ?_, fun pid it listed => ?_, fun pid v held => ?_⟩
  · rw [supported, agrees.supported, advertised_concat, (silent _ 0 none).1]
  · rwa [lastLink_concat]
  · rw [supported, same]
    exact agrees.scheduled pid it (poller ▸ listed)
  · rw [same]
    exact agrees.valued pid v (values pid v held)

/-- What adding a supported parameter keeps, scheduling all of them keeps. -/
theorem schedule_keeps (c : Config) (supported : Finset UInt8) {P : Poller → Prop}
    (add : ∀ pid poller, pid ∈ supported → P poller → P (poller.add pid (c.interval pid)))
    {poller : Poller} (start : P poller) : P (Plugin.schedule c supported poller) := by
  -- Seven parameters are added one after the other, each where it is supported.
  have want (pid : UInt8) {poller : Poller} (before : P poller) :
      P (if pid ∈ supported then poller.add pid (c.interval pid) else poller) := by
    split
    next member => exact add pid poller member before
    · exact before
  exact want pidOdometer (want pidAmbientTemp (want pidModuleVoltage (want pidFuelLevel
    (want pidCoolantTemp (want pidRpm (want pidSpeed start))))))

/-- A discovery schedules what it found, each parameter unanswered and at its own interval. -/
theorem schedule_find (c : Config) (supported : Finset UInt8) {poller : Poller}
    (empty : ∀ pid, poller.find pid = none) {pid : UInt8} {it : PollItem}
    (listed : (Plugin.schedule c supported poller).find pid = some it) :
    pid ∈ supported ∧ it.interval = c.interval pid ∧ it.lastAnswer = -1 := by
  -- Each parameter in turn is added to a schedule that already is as it should be.
  let Good (poller : Poller) : Prop := ∀ pid it, poller.find pid = some it →
    pid ∈ supported ∧ it.interval = c.interval pid ∧ it.lastAnswer = -1
  have add (pid : UInt8) (poller : Poller) (member : pid ∈ supported) (good : Good poller) :
      Good (poller.add pid (c.interval pid)) := by
    intro other it listed
    rcases Poller.find_add_some listed with before | ⟨rfl, rfl⟩
    · exact good other it before
    · exact ⟨member, rfl, rfl⟩
  have start : Good poller := by
    intro pid it listed
    rw [empty pid] at listed
    cases listed
  exact schedule_keeps c supported add start pid it listed

section Exchange

variable {c : Config} {log : List Event} {p : Plugin} {pid other : UInt8}

/-- A request leaves the answers to the other parameters alone. -/
theorem answered_query_ne (answer : Option Double) (time : ℤ) (different : other ≠ pid) :
    answered other (log ++ [.query pid answer time]) = answered other log := by
  rw [answered_concat]
  cases answer with
  | none => rfl
  | some v => exact if_neg (Ne.symm different)

/-- A discovery starts over with what it found. -/
theorem Agrees.discover (c : Config) (log : List Event) (p : Plugin) (supported : Finset UInt8) :
    Agrees c (log ++ [.discovered supported, .setLink true])
      { p.discover c supported with discovered := true } := by
  rw [List.append_cons]
  have nothing (pid : UInt8) : answered pid (log ++ [.discovered supported] ++ [.setLink true]) = none := by
    rw [answered_concat, answered_concat]
    rfl
  refine ⟨?_, fun _ => ?_, fun pid it listed => ?_, nofun⟩
  · rw [advertised_concat, advertised_concat]
    rfl
  · rw [lastLink_concat]
    rfl
  · rw [nothing]
    exact schedule_find c supported (fun _ => rfl) listed

/-- A request without an answer is no news about any parameter. -/
theorem Agrees.failed (agrees : Agrees c log p) (pid : UInt8) (now time : ℤ) :
    Agrees c (log ++ [.query pid none time]) { p with poller := p.poller.markRequested pid now } := by
  have told := agrees.tell (q := p) (e := .query pid none time) (fun _ _ _ => ⟨rfl, rfl⟩)
    (fun known => (Option.none_or).trans (agrees.linked known)) rfl rfl fun _ _ held => held
  refine ⟨told.supported, told.linked, fun other it listed => ?_, told.valued⟩
  obtain ⟨old, before, interval, last⟩ := Poller.find_markRequested_some listed
  rw [interval, last]
  exact told.scheduled other old before

/-- A measurement is held as the parameter's value, and its item remembers when it was answered. -/
theorem Agrees.measured (agrees : Agrees c log p) {it : PollItem} (listed : p.poller.find pid = some it)
    {v : Double} (genuine : filler pid v = false) (now time : ℤ) :
    Agrees c (log ++ [.query pid (some v) time])
      { p with
        values := Function.update p.values pid (some v)
        poller := (p.poller.markRequested pid now).markAnswered pid time } := by
  have own : answered pid (log ++ [.query pid (some v) time]) = some (v, time) := by
    rw [answered_concat]
    exact if_pos rfl
  refine ⟨?_, fun known => ?_, fun other it' found => ?_, fun other w held => ?_⟩
  · rw [advertised_concat, Event.advertise, genuine, agrees.supported]
    rfl
  · rw [lastLink_concat]
    exact agrees.linked known
  · rw [Poller.find_markAnswered] at found
    obtain ⟨marked, before, rfl⟩ := Option.map_eq_some_iff.mp found
    obtain ⟨old, before', interval, last⟩ := Poller.find_markRequested_some before
    obtain ⟨member, every, at'⟩ := agrees.scheduled other old before'
    have named := (Poller.find_some before).2
    -- Only the item of the parameter asked for has a new answer.
    by_cases same : other = pid
    · rw [if_pos (named.trans same), same, own]
      exact ⟨same ▸ member, interval.trans (same ▸ every), rfl⟩
    · rw [if_neg (named.trans_ne same), answered_query_ne _ _ same]
      exact ⟨member, interval.trans every, last.trans at'⟩
  · dsimp only at held
    by_cases same : other = pid
    · subst same
      rw [Function.update_self] at held
      cases held
      exact ⟨genuine, time, own⟩
    · rw [Function.update_of_ne same] at held
      rw [answered_query_ne _ _ same]
      exact agrees.valued other w held

/-- A filler takes its parameter out of everything there is about it. -/
theorem Agrees.dropped (agrees : Agrees c log p) {v : Double} (unreal : filler pid v = true)
    (logged : Finset UInt8) (now time : ℤ) :
    Agrees c (log ++ [.query pid (some v) time])
      { p with
        implausibleLogged := logged
        supported := p.supported.erase pid
        poller := (p.poller.markRequested pid now).remove pid
        values := Function.update p.values pid none } := by
  refine ⟨?_, fun known => ?_, fun other it found => ?_, fun other w held => ?_⟩
  · rw [advertised_concat, Event.advertise, unreal, agrees.supported]
    rfl
  · rw [lastLink_concat]
    exact agrees.linked known
  · rw [Poller.find_remove] at found
    split at found
    · cases found
    next different =>
      obtain ⟨old, before, interval, last⟩ := Poller.find_markRequested_some found
      obtain ⟨member, every, at'⟩ := agrees.scheduled other old before
      rw [answered_query_ne _ _ different]
      exact ⟨Finset.mem_erase.mpr ⟨different, member⟩, interval.trans every, last.trans at'⟩
  · dsimp only at held
    by_cases same : other = pid
    · subst same
      rw [Function.update_self] at held
      cases held
    · rw [Function.update_of_ne same] at held
      rw [answered_query_ne _ _ same]
      exact agrees.valued other w held

/-- Every move keeps the agreement. -/
theorem Agrees.move {q : Plugin} {events : List Event} (agrees : Agrees c log p)
    (moved : Move c p events q) : Agrees c (log ++ events) q := by
  -- What the host is told is no news about the parameters.
  have linked (e : Event) (untold : e.link? = none) (known : p.discovered = true) :
      e.link?.or (lastLink log) = some true := by
    rw [untold, Option.none_or, agrees.linked known]
  cases moved with
  | lit f time =>
    obtain ⟨lamps, seen, lit⟩ := onTelltales_same p (f, time)
    rw [lit]
    exact agrees.tell (fun _ _ _ => ⟨rfl, rfl⟩) (linked _ rfl) rfl rfl fun _ _ held => held
  | found searching supported => exact .discover c log p supported
  | missing searching now =>
    rw [List.append_cons]
    -- The values go, and what is told next is told of a plugin without any.
    have unknown (q : Plugin) (same : q.discovered = p.discovered) (answer : Option Bool) :
        q.discovered = true → answer = some true := by
      rw [same, searching]
      exact nofun
    refine Agrees.tell (p := { p with values := fun _ => none }) ?_ (fun _ _ _ => ⟨rfl, rfl⟩)
      (unknown _ rfl _) rfl rfl fun _ _ held => held
    exact agrees.tell (fun _ _ _ => ⟨rfl, rfl⟩) (unknown _ rfl _) rfl rfl nofun
  | failed known listed now time => exact agrees.failed _ now time
  | measured known listed genuine now time => exact agrees.measured listed genuine now time
  | dropped known listed unreal now time =>
    have dropped := agrees.dropped unreal p.implausibleLogged now time
    split
    · exact agrees.dropped unreal _ now time
    -- The first filler of a parameter is logged as well.
    · rw [List.append_cons]
      exact dropped.tell (fun _ _ _ => ⟨rfl, rfl⟩) (fun _ => dropped.linked known) rfl rfl
        fun _ _ held => held
  | lost known silent =>
    exact agrees.tell (fun _ _ _ => ⟨rfl, rfl⟩) nofun rfl rfl fun _ _ held => held
  | published known now next =>
    exact agrees.tell (fun _ _ _ => ⟨rfl, rfl⟩) (linked _ rfl) rfl rfl fun _ _ held => held

/-- A value is published for an advertised parameter that has answered with it recently. -/
theorem Agrees.reading (agrees : Agrees c log p) {now : ℤ} {v : Double}
    (read : p.reading now pid = some v) : pid ∈ advertised log ∧ filler pid v = false ∧
      ∃ time, answered pid log = some (v, time) ∧ now - time ≤ 3 * c.interval pid := by
  unfold Plugin.reading at read
  split at read
  next both =>
    obtain ⟨supported, fresh⟩ := both
    obtain ⟨genuine, time, found⟩ := agrees.valued pid v read
    -- The item remembers the time of the answer that the value came with.
    obtain ⟨it, listed, -, recent⟩ := (Poller.fresh_iff _ _ _).mp fresh
    obtain ⟨-, interval, last⟩ := agrees.scheduled pid it listed
    rw [found] at last
    have last : it.lastAnswer = time := last
    rw [last, interval] at recent
    exact ⟨agrees.supported ▸ supported, genuine, time, found, recent⟩
  · cases read

/-- A state published in agreement with the log is faithful. -/
theorem Agrees.faithful (agrees : Agrees c log p) (now : ℤ)
    (gone : lastLink log = some false → ∀ pid, p.values pid = none) :
    Faithful c log (p.state c now) now := by
  -- A marked signal has a value for the parameter behind it.
  have value {sig : Signal} {pid : UInt8} (read : pidOf sig = some pid)
      (marked : Bits.mem (p.state c now).valid sig.index = true) :
      ∃ v, p.reading now pid = some v ∧ (p.state c now).quantity sig = v := by
    rw [state_marked c p now (behind_of_pidOf read)] at marked
    obtain ⟨v, some⟩ := Option.isSome_iff_exists.mp marked
    exact ⟨v, some, by rw [state_quantity c p now read, some, Option.getD_some]⟩
  refine ⟨fun i marked => ?_, fun sig pid read marked => ?_, fun marked => ?_, fun marked => ?_, ?_,
    state_ready c p now, fun down => ?_⟩
  · obtain ⟨sig, pid, place, read, some⟩ := (mem_state_valid c p now i).mp marked
    exact (mem_state_capable c p now i).mpr ⟨sig, pid, place, read, supported_of_reading some⟩
  · obtain ⟨v, some, same⟩ := value read marked
    obtain ⟨member, -, time, found, recent⟩ := agrees.reading some
    exact ⟨member, v, time, found, same, recent⟩
  · obtain ⟨v, some, same⟩ := value (show pidOf .auxBattery = some pidModuleVoltage from rfl) marked
    obtain ⟨-, genuine, -⟩ := agrees.reading some
    rw [show (p.state c now).auxBatteryV = v from same]
    simpa [filler, pidModuleVoltage, pidAmbientTemp] using genuine
  · obtain ⟨v, some, same⟩ := value (show pidOf .ambientTemp = some pidAmbientTemp from rfl) marked
    obtain ⟨-, genuine, -⟩ := agrees.reading some
    rw [show (p.state c now).ambientC = v from same]
    simpa [filler, pidModuleVoltage, pidAmbientTemp] using genuine
  · rw [state_marked c p now (show behind .powerState = some pidRpm from rfl),
      state_marked c p now (show behind .rpm = some pidRpm from rfl)]
  · -- Without values no position is marked.
    apply Bits.ext
    intro i _
    rw [Bits.mem_zero, Bool.eq_false_iff]
    intro marked
    obtain ⟨sig, pid, -, -, some⟩ := (mem_state_valid c p now i).mp marked
    simp [Plugin.reading, gone down pid] at some

end Exchange

/-- A state advertises the signals whose parameters are advertised at the end of a log. -/
def Offers (log : List Event) (s : VehicleState) : Prop :=
  ∀ i, Bits.mem s.capable i = true ↔
    ∃ sig pid, sig.index = i ∧ behind sig = some pid ∧ pid ∈ advertised log

theorem Agrees.offers {c : Config} {log : List Event} {p : Plugin} (agrees : Agrees c log p)
    (now : ℤ) : Offers log (p.state c now) := by
  intro i
  rw [mem_state_capable, agrees.supported]

/--
Only what is advertised is asked for, and a published state is that of a plugin in agreement with the
log, which holds no values while the host was last told that the vehicle is gone.
-/
def Told (c : Config) (before : List Event) : Event → Prop
  | .publish s now => ∃ p, Agrees c before p ∧ s = p.state c now ∧
    (lastLink before = some false → ∀ pid, p.values pid = none)
  | .query pid _ _ => pid ∈ advertised before
  | _ => True

/-- The log told the truth so far, and the plugin agrees with it. -/
structure Sound (c : Config) (log : List Event) (p : Plugin) : Prop where
  told : Run.Each (Told c) log
  agrees : Agrees c log p

/-- Every move keeps the log true. -/
theorem Sound.move {c : Config} {log events : List Event} {p q : Plugin} (sound : Sound c log p)
    (moved : Move c p events q) : Sound c (log ++ events) q := by
  refine ⟨?_, sound.agrees.move moved⟩
  -- Whatever is asked for is scheduled, and whatever is scheduled is advertised.
  have offered {pid : UInt8} {it : PollItem} (listed : p.poller.find pid = some it) :
      pid ∈ advertised log :=
    sound.agrees.supported ▸ (sound.agrees.scheduled pid it listed).1
  cases moved with
  | missing searching now =>
    have gone : Agrees c (log ++ [.setLink false]) { p with values := fun _ => none } := by
      refine sound.agrees.tell (fun _ _ _ => ⟨rfl, rfl⟩) (fun known => ?_) rfl rfl nofun
      rw [show p.discovered = true from known] at searching
      cases searching
    rw [List.append_cons]
    exact Run.each_concat (Run.each_concat sound.told trivial) ⟨_, gone, rfl, fun _ _ => rfl⟩
  | published known now next =>
    -- A known vehicle is linked, so this publish is none of a vehicle that is gone.
    refine Run.each_concat sound.told ⟨p, sound.agrees, rfl, fun down => ?_⟩
    rw [sound.agrees.linked known] at down
    cases down
  | failed known listed | measured known listed =>
    refine Run.each_concat sound.told ?_
    exact offered listed
  | dropped known listed unreal now time =>
    have asked {v : Double} : Run.Each (Told c) (log ++ [.query _ (some v) time]) :=
      Run.each_concat sound.told (offered listed)
    split
    · exact asked
    · rw [List.append_cons]
      exact Run.each_concat asked trivial
  | found =>
    rw [List.append_cons]
    exact Run.each_concat (Run.each_concat sound.told trivial) trivial
  | lit | lost => exact Run.each_concat sound.told trivial

/-- The whole log of a run is true. -/
theorem run_told (c : Config) (turns : List Turn) : Run.Each (Told c) (Plugin.log c turns) :=
  (run_keeps (I := Sound c) ⟨Run.each_nil, Agrees.start c⟩ Sound.move turns).told

/--
In every run of the plugin, every published state is faithful to what the vehicle has answered
since the last discovery, and to whether it is there.
-/
theorem published_faithful (c : Config) (turns : List Turn) (before after : List Event)
    (s : VehicleState) (now : ℤ) (split : Plugin.log c turns = before ++ .publish s now :: after) :
    Faithful c before s now := by
  obtain ⟨p, agrees, rfl, empty⟩ := run_told c turns before (.publish s now) after split
  exact agrees.faithful now empty

/-- A car found a second after the start publishes the engine speed it answers with. -/
theorem published_faithful_rpm :
    let c : Config := ⟨cpSourceLive, 100⟩
    let turns :=
      [{ Turn.silent 1000 with discovery := some {pidRpm}, answer := some (.finite 900) }]
    Faithful c [.discovered {pidRpm}, .setLink true, .query pidRpm (some (.finite 900)) 1000]
      ((Run.final (Plugin.step c) Plugin.new turns).state c 1000) 1000 := by
  intro c turns
  exact published_faithful c turns _ [] _ _ (by decide +kernel)

end CanProxy.Ice
