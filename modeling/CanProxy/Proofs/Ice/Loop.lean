import CanProxy.Ice.Loop
import CanProxy.Proofs.Core.Daemon
import CanProxy.Proofs.Ice.Capable
import CanProxy.Proofs.Obd.Request

/-! What the plugin publishes was said by one controller of the vehicle, and lately. -/

namespace CanProxy.Ice

open Numeric

section Provenance

variable (broadcastId : Option UInt32) (turns : List BusTurn) (ecu : UInt32)

/-- A frame of a controller that was on the bus in some turn answers for a parameter with a value. -/
def Heard (pid : UInt8) (v : Double) (time : ℤ) : Prop :=
  ∃ turn ∈ turns, turn.answeredAt = time ∧ ∃ f r, .frame f ∈ turn.bus ∧
    Acceptable broadcastId (some ecu) pid f r ∧ decode pid r.data r.len = some v

/-- The bitmaps that a controller answered with in some turn advertise a parameter. -/
def Offered (pid : UInt8) : Prop :=
  ∃ turn ∈ turns, ∃ bitmaps, Chain broadcastId ecu 0 turn.bus bitmaps ∧
    Advertised 0 bitmaps pid

/-- Everything known about the vehicle at the end of a log comes from one controller. -/
structure Traced (log : List Event) : Prop where
  heard : ∀ pid v time, .query pid (some v) time ∈ Run.since Event.discovers log →
    Heard broadcastId turns ecu pid v time
  offered : ∀ pid ∈ advertised log, Offered broadcastId turns ecu pid

end Provenance

/-- The last answer to a parameter was given since the last discovery. -/
theorem answered_since {pid : UInt8} {log : List Event} {v : Double} {time : ℤ}
    (found : answered pid log = some (v, time)) :
    .query pid (some v) time ∈ Run.since Event.discovers log := by
  -- Induction from the end of the log: the last entry is the answer, forgets it, or leaves it.
  induction log using List.reverseRecOn with
  | nil => cases found
  | append_singleton log e ih =>
    rw [answered_concat] at found
    rw [Run.since_concat]
    cases e with
    | discovered supported => cases found
    | query k answer at' =>
      refine List.mem_append.mpr ?_
      cases answer with
      | none => exact .inl (ih found)
      | some w =>
        change (if k = pid then some (w, at') else answered pid log) = some (v, time) at found
        split at found
        next same =>
          obtain ⟨rfl, rfl⟩ := Prod.mk.inj (Option.some.inj found)
          exact .inr (same ▸ List.mem_singleton_self _)
        · exact .inl (ih found)
    | _ => exact List.mem_append_left _ (ih found)

section Turn

variable (c : Config) (p : Plugin) (turn : Turn)

/-- The request that a turn makes of a known vehicle, with its answer. -/
def Plugin.asked : List Event :=
  match p.poller.nextDue turn.now with
  | some pid => [.query pid turn.answer turn.answeredAt]
  | none => []

/-- An event that is no news about the vehicle: neither a discovery nor a request. -/
def Event.Quiet (e : Event) : Prop := e.discovers = false ∧ e.request? = none

theorem publishIfDue_quiet : ∀ e ∈ (p.publishIfDue c turn).2, e.Quiet := by
  -- A publish is all there can be.
  unfold Plugin.publishIfDue
  split <;> simp [Event.Quiet, Event.discovers, Event.request?]

/-- With a known vehicle a turn makes its one request, and nothing else that it tells is news. -/
theorem poll_asked : ∃ more, (p.poll c turn).2 = p.asked turn ++ more ∧ ∀ e ∈ more, e.Quiet := by
  unfold Plugin.poll Plugin.asked
  -- Without a due parameter there is no request; with one, its answer decides what follows.
  cases p.poller.nextDue turn.now with
  | none => exact ⟨_, rfl, publishIfDue_quiet c p turn⟩
  | some pid =>
    cases turn.answer with
    | some v =>
      refine ⟨_, rfl, ?_⟩
      -- A filler is logged at most, and then the publish is due or not.
      intro e member
      rcases List.mem_append.mp member with logged | published
      · cases verdict : filler pid v with
        | false =>
          rw [plausibleAnswer_genuine _ verdict] at logged
          cases logged
        | true =>
          rw [plausibleAnswer_filler _ verdict] at logged
          split at logged
          · cases logged
          · obtain rfl := List.mem_singleton.mp logged
            exact ⟨rfl, rfl⟩
      · exact publishIfDue_quiet c _ turn e published
    | none =>
      dsimp only
      split
      · refine ⟨[.setLink false], rfl, ?_⟩
        intro e member
        obtain rfl := List.mem_singleton.mp member
        exact ⟨rfl, rfl⟩
      · exact ⟨_, rfl, publishIfDue_quiet c _ turn⟩

/-- With a known vehicle a turn discovers none. -/
theorem poll_undiscovered : ∀ e ∈ (p.poll c turn).2, e.discovers = false := by
  -- A request is no discovery, and the rest is no news at all.
  obtain ⟨more, told, quiet⟩ := poll_asked c p turn
  intro e member
  rw [told] at member
  rcases List.mem_append.mp member with asked | later
  · unfold Plugin.asked at asked
    split at asked
    · obtain rfl := List.mem_singleton.mp asked
      rfl
    · cases asked
  · exact (quiet e later).1

variable {c p turn} in
/-- An answer that a turn tells of is the one it got, to the parameter that was due. -/
theorem poll_answered {pid : UInt8} {v : Double} {time : ℤ}
    (told : .query pid (some v) time ∈ (p.poll c turn).2) :
    p.poller.nextDue turn.now = some pid ∧ turn.answer = some v ∧ turn.answeredAt = time := by
  obtain ⟨more, split, quiet⟩ := poll_asked c p turn
  rw [split] at told
  rcases List.mem_append.mp told with asked | later
  · unfold Plugin.asked at asked
    cases due : p.poller.nextDue turn.now with
    | none =>
      rw [due] at asked
      cases asked
    | some k =>
      rw [due] at asked
      have same := Event.query.inj (List.mem_singleton.mp asked)
      exact ⟨congrArg some same.1.symm, same.2.1.symm, same.2.2.symm⟩
  · cases (quiet _ later).2

/-- Lamp frames are no news. -/
theorem lit_quiet (frames : List (CanFrame × ℤ)) :
    ∀ e ∈ frames.map fun (f, time) => Event.telltales f time, e.Quiet := by
  intro e member
  obtain ⟨seen, -, rfl⟩ := List.mem_map.mp member
  exact ⟨rfl, rfl⟩

/-- Lamp frames change neither the schedule nor whether there is a vehicle. -/
theorem lit_same (frames : List (CanFrame × ℤ)) :
    (frames.foldl Plugin.onTelltales p).discovered = p.discovered ∧
      (frames.foldl Plugin.onTelltales p).poller = p.poller := by
  -- Each frame changes the lamps and the time they were seen, and nothing else.
  induction frames generalizing p with
  | nil => exact ⟨rfl, rfl⟩
  | cons seen rest ih =>
    obtain ⟨lamps, time, same⟩ := onTelltales_same p seen
    rw [List.foldl_cons, same]
    exact ih _

variable {p}

/-- A turn with a known vehicle discovers none, and an answer in it is the one that was got. -/
theorem step_polled (known : p.discovered = true) :
    (∀ e ∈ (p.step c turn).2, e.discovers = false) ∧
      ∀ pid v time, .query pid (some v) time ∈ (p.step c turn).2 →
        p.poller.nextDue turn.now = some pid ∧ turn.answer = some v ∧ turn.answeredAt = time := by
  -- The lamp frames come first and are no news; then the turn polls.
  have quiet := lit_quiet turn.lampFrames
  obtain ⟨same, poller⟩ := lit_same p turn.lampFrames
  unfold Plugin.step
  dsimp only
  rw [if_pos (same.trans known)]
  refine ⟨List.forall_mem_append.mpr ⟨fun e seen => (quiet e seen).1, poll_undiscovered c _ turn⟩, ?_⟩
  intro pid v time told
  rcases List.mem_append.mp told with seen | asked
  · cases (quiet _ seen).2
  · exact poller ▸ poll_answered asked

/-- A turn that finds a vehicle goes on as one with that vehicle. -/
theorem step_found (searching : p.discovered = false) {supported : Finset UInt8}
    (found : turn.discovery = some supported) :
    ∃ seen more, (p.step c turn).2 = seen ++ .discovered supported :: more ∧ (∀ e ∈ seen, e.Quiet) ∧
      (∀ e ∈ more, e.discovers = false) ∧ ∀ pid v time, .query pid (some v) time ∈ more →
        (p.discover c supported).poller.nextDue turn.now = some pid ∧ turn.answer = some v ∧
          turn.answeredAt = time := by
  have quiet := lit_quiet turn.lampFrames
  obtain ⟨same, poller⟩ := lit_same p turn.lampFrames
  have searching : ¬(turn.lampFrames.foldl Plugin.onTelltales p).discovered = true := by
    rw [same, searching]
    exact Bool.false_ne_true
  unfold Plugin.step
  dsimp only
  rw [if_neg searching, found]
  refine ⟨_, _, rfl, quiet, List.forall_mem_cons.mpr ⟨rfl, poll_undiscovered c _ turn⟩, ?_⟩
  intro pid v time told
  rcases List.mem_cons.mp told with link | asked
  · cases link
  · -- The schedule is made anew, whatever was on it.
    obtain ⟨due, got⟩ := poll_answered asked
    exact ⟨due, got⟩

/-- A turn that finds none tells of nothing new. -/
theorem step_missing (searching : p.discovered = false) (missing : turn.discovery = none) :
    (p.step c turn).1.discovered = false ∧ ∀ e ∈ (p.step c turn).2, e.Quiet := by
  have quiet := lit_quiet turn.lampFrames
  have same := (lit_same p turn.lampFrames).1
  have searching : (turn.lampFrames.foldl Plugin.onTelltales p).discovered = false := same.trans searching
  unfold Plugin.step
  dsimp only
  rw [if_neg (Bool.eq_false_iff.mp searching), missing]
  refine ⟨searching, List.forall_mem_append.mpr ⟨quiet, ?_⟩⟩
  simp [Event.Quiet, Event.discovers, Event.request?]

end Turn

section Exchange

variable {broadcastId : Option UInt32} {client : Client} {pid : UInt8}

/-- A query that gets a value stays with the controller that it had, which sent a frame with that value. -/
theorem query_heard (known : client.primaryEcu ≠ 0) {bus : List Reception} {v : Double}
    (got : (client.query broadcastId pid bus).result = some v) :
    ∃ f r, .frame f ∈ bus ∧ Acceptable broadcastId none pid f r ∧ f.id = client.primaryEcu ∧
      decode pid r.data r.len = some v := by
  -- The value was decoded from the response that the request took.
  obtain ⟨r, taken, value⟩ := Option.bind_eq_some_iff.mp got
  obtain ⟨f, rest, first⟩ := ((Client.request_takes broadcastId client pid bus).answered r).mp taken
  have own := Client.firstAnswer_sender broadcastId known first
  obtain ⟨skipped, rfl, -, accepted⟩ := first
  obtain ⟨foreign, response, parsed, mode, named, -⟩ := accepted
  exact ⟨f, r, by simp, ⟨foreign, response, parsed, mode, named, nofun⟩, own, value⟩

/-- A query leaves the controller as it is. -/
theorem query_sticks (known : client.primaryEcu ≠ 0) (bus : List Reception) :
    (client.query broadcastId pid bus).client.primaryEcu = client.primaryEcu := by
  -- A client that knows its controller never changes it in a request.
  rcases (Client.request_takes broadcastId client pid bus).sticks with kept | ⟨fresh, -⟩
  · exact congrArg Client.primaryEcu kept
  · exact absurd fresh known

/-- A wait leaves the client as it is. -/
theorem idle_client (bus : List Reception) : (client.idle broadcastId bus).client = client := by
  -- Whatever is received or not, the client is handed back.
  cases bus with
  | nil => rfl
  | cons reception rest => cases reception <;> rfl

/-- A walk leaves the end of what was on the bus. -/
theorem walk_rest (remaining block : Nat) (base : UInt8) (found : Finset UInt8) (client : Client)
    (bus : List Reception) :
    (client.walk broadcastId remaining block base found bus).rest <:+ bus := by
  -- Every request takes the bus from its start on, and the next one what is left.
  induction remaining generalizing block base found client bus with
  | zero => exact List.suffix_refl bus
  | succ remaining ih =>
    obtain ⟨taken, split, -⟩ := (Client.request_takes broadcastId client base bus).sinks
    have own : (client.request broadcastId base bus).rest <:+ bus := ⟨taken, split.symm⟩
    rw [Client.walk]
    dsimp only
    -- The walk ends with this request, or goes on from where it left the bus.
    cases (client.request broadcastId base bus).result with
    | none =>
      dsimp only
      rw [apply_ite Outcome.rest, ite_self]
      exact own
    | some r =>
      dsimp only
      by_cases short : r.len < 4
      · rw [if_pos short, apply_ite Outcome.rest, ite_self]
        exact own
      · rw [if_neg short]
        split
        · exact (ih _ _ _ _ _).trans own
        · exact own

/-- A search that succeeds sticks to a controller, whose bitmaps advertise what it found. -/
theorem discover_offered {bus : List Reception} (found : (client.discover broadcastId bus).result = true) :
    let searched := (client.discover broadcastId bus).client
    searched.primaryEcu ≠ 0 ∧ ∃ bitmaps, Chain broadcastId searched.primaryEcu 0 bus bitmaps ∧
      ∀ pid ∈ searched.supported, Advertised 0 bitmaps pid := by
  intro searched
  -- Without a long enough first answer the search would have failed.
  by_cases answered : ∃ f r rest, FirstAnswer broadcastId none pidSupported00 bus f r rest ∧ 4 ≤ r.len
  · obtain ⟨f, r, rest, first, long⟩ := answered
    have known : f.id ≠ 0 := by
      obtain ⟨-, -, -, -, response, -⟩ := first
      intro zero
      rw [zero] at response
      exact absurd response (by decide)
    -- The controller of the first request is that of the whole walk.
    have sticks : searched.primaryEcu = f.id := by
      obtain ⟨sunk, taken⟩ :=
        @Client.request_firstAnswer broadcastId { client with primaryEcu := 0 } _ _ _ _ _ first
      obtain ⟨same, -⟩ := Client.walk_asks broadcastId 7 0 pidSupported00 ∅
        { client with primaryEcu := 0 } bus
      refine same.trans ?_
      rw [Client.walkAsks, Run.final_cons, Client.ask, taken]
      exact Client.final_primaryEcu broadcastId known _
    obtain ⟨-, bitmaps, chain, listed⟩ := Client.discover_answered client first long
    rw [sticks]
    refine ⟨known, bitmaps, chain, fun pid member => ?_⟩
    exact ((listed pid).mp member).resolve_left (Finset.notMem_empty pid)
  · have short : ∀ f r rest, FirstAnswer broadcastId none pidSupported00 bus f r rest → r.len < 4 :=
      fun f r rest first => not_le.mp fun long => answered ⟨f, r, rest, first, long⟩
    rw [(Client.discover_unanswered client short).1] at found
    cases found

end Exchange

section Traced

variable {broadcastId : Option UInt32} {turns : List BusTurn} {ecu : UInt32} {log part : List Event}

/-- Events that discover no vehicle, and whose answers are the controller's, keep the log traced. -/
theorem Traced.append (traced : Traced broadcastId turns ecu log)
    (undiscovered : ∀ e ∈ part, e.discovers = false)
    (heard : ∀ pid v time, .query pid (some v) time ∈ part → Heard broadcastId turns ecu pid v time) :
    Traced broadcastId turns ecu (log ++ part) := by
  refine ⟨fun pid v time told => ?_, fun pid member => ?_⟩
  · rw [Run.since_append _ _ undiscovered] at told
    rcases List.mem_append.mp told with earlier | now
    · exact traced.heard pid v time earlier
    · exact heard pid v time now
  · exact traced.offered pid ((mem_advertised_append undiscovered pid).mp member).1

/-- Events that are no news keep the log traced. -/
theorem Traced.quiet (traced : Traced broadcastId turns ecu log) (quiet : ∀ e ∈ part, e.Quiet) :
    Traced broadcastId turns ecu (log ++ part) := by
  refine traced.append (fun e told => (quiet e told).1) fun pid v time told => ?_
  cases (quiet _ told).2

/-- A discovery starts a log anew, with whatever the new controller advertises. -/
theorem Traced.discovered {supported : Finset UInt8}
    (offered : ∀ pid ∈ supported, Offered broadcastId turns ecu pid) :
    Traced broadcastId turns ecu (log ++ [.discovered supported]) := by
  refine ⟨fun pid v time told => ?_, fun pid member => ?_⟩
  · rw [Run.since_concat] at told
    cases told
  · rw [advertised_concat] at member
    exact offered pid member

end Traced

section Step

variable {c : Config} {broadcastId : Option UInt32} {l : Loop} {turn : BusTurn} {turns : List BusTurn}

/-- A search leaves the end of what was on the bus. -/
theorem search_rest (bus : List Reception) : (l.search broadcastId bus).rest <:+ bus := by
  unfold Loop.search
  split
  · exact List.suffix_refl bus
  · exact walk_rest ..

/-- The requests of a turn are answered by the controller that its client sticks to. -/
theorem exchange_heard {pid : UInt8} {v : Double} (member : turn ∈ turns)
    (known : (l.search broadcastId turn.bus).client.primaryEcu ≠ 0)
    (due : l.plugin.asks c (l.search broadcastId turn.bus).result turn.now = some pid)
    (got : (l.exchange c broadcastId turn).result = some v) :
    Heard broadcastId turns (l.search broadcastId turn.bus).client.primaryEcu pid v turn.answeredAt := by
  rw [Loop.exchange, due] at got
  obtain ⟨f, r, received, accepted, own, value⟩ := query_heard known got
  refine ⟨turn, member, rfl, f, r, (search_rest turn.bus).subset received, ?_, value⟩
  obtain ⟨foreign, response, parsed, mode, named, -⟩ := accepted
  exact ⟨foreign, response, parsed, mode, named, fun e same => own.trans (Option.some.inj same)⟩

/-- A turn keeps the controller that its search left. -/
theorem exchange_sticks (known : (l.search broadcastId turn.bus).client.primaryEcu ≠ 0) :
    (l.exchange c broadcastId turn).client.primaryEcu =
      (l.search broadcastId turn.bus).client.primaryEcu := by
  unfold Loop.exchange
  dsimp only
  split
  · exact query_sticks known _
  · split
    · exact congrArg Client.primaryEcu (idle_client _)
    · rfl

/--
What is known of the vehicle comes from one controller, which is the one the client sticks to while
there is a vehicle.
-/
def Follows (broadcastId : Option UInt32) (turns : List BusTurn) (log : List Event) (l : Loop) : Prop :=
  ∃ ecu, Traced broadcastId turns ecu log ∧
    (l.plugin.discovered = true → l.client.primaryEcu = ecu ∧ ecu ≠ 0)

/-- Every turn keeps this, and the log is traced to one controller at each of its events. -/
theorem Follows.step {log : List Event} (follows : Follows broadcastId turns log l)
    (member : turn ∈ turns) :
    Follows broadcastId turns (log ++ (l.step c broadcastId turn).2) (l.step c broadcastId turn).1 ∧
      ∀ part rest, (l.step c broadcastId turn).2 = part ++ rest →
        ∃ ecu, Traced broadcastId turns ecu (log ++ part) := by
  obtain ⟨ecu, traced, sticks⟩ := follows
  cases known : l.plugin.discovered with
  | true =>
    obtain ⟨own, nonzero⟩ := sticks known
    have searched : l.search broadcastId turn.bus = ⟨none, l.client, [], turn.bus⟩ := by
      rw [Loop.search, if_pos known]
    have controller : (l.search broadcastId turn.bus).client.primaryEcu = ecu := by rw [searched, own]
    obtain ⟨undiscovered, answers⟩ := step_polled c (l.turnOf c broadcastId turn) known
    have heard : ∀ pid v time, .query pid (some v) time ∈ (l.step c broadcastId turn).2 →
        Heard broadcastId turns ecu pid v time := by
      intro pid v time told
      obtain ⟨due, got, rfl⟩ := answers pid v time told
      have asks : l.plugin.asks c (l.search broadcastId turn.bus).result turn.now = some pid := by
        rw [Plugin.asks, if_pos known]
        exact due
      exact controller ▸ exchange_heard member (controller ▸ nonzero) asks got
    have within {part rest : List Event} (split : (l.step c broadcastId turn).2 = part ++ rest) :
        Traced broadcastId turns ecu (log ++ part) := by
      refine traced.append (fun e told => undiscovered e ?_) fun pid v time told => heard pid v time ?_
      · exact split ▸ List.mem_append_left _ told
      · exact split ▸ List.mem_append_left _ told
    refine ⟨⟨ecu, within (List.append_nil _).symm, fun _ => ⟨?_, nonzero⟩⟩, ?_⟩
    · exact (exchange_sticks (controller ▸ nonzero)).trans controller
    · exact fun part rest split => ⟨ecu, within split⟩
  | false =>
    have searching : ¬l.plugin.discovered = true := Bool.eq_false_iff.mp known
    have client : (l.search broadcastId turn.bus).client =
        (l.client.discover broadcastId turn.bus).client := by
      rw [Loop.search, if_neg searching]
    have result : (l.search broadcastId turn.bus).result =
        if (l.client.discover broadcastId turn.bus).result = true then
          some (l.client.discover broadcastId turn.bus).client.supported else none := by
      rw [Loop.search, if_neg searching]
    by_cases success : (l.client.discover broadcastId turn.bus).result = true
    · -- A search that succeeds starts over with the controller that it found.
      rw [if_pos success] at result
      obtain ⟨nonzero, bitmaps, chain, listed⟩ := discover_offered success
      rw [← client] at nonzero chain
      obtain ⟨seen, more, split, quiet, undiscovered, answers⟩ :=
        step_found c (l.turnOf c broadcastId turn) known result
      have heard : ∀ pid v time, .query pid (some v) time ∈ more →
          Heard broadcastId turns (l.search broadcastId turn.bus).client.primaryEcu pid v time := by
        intro pid v time told
        obtain ⟨due, got, rfl⟩ := answers pid v time told
        have asks : l.plugin.asks c (l.search broadcastId turn.bus).result turn.now = some pid := by
          rw [Plugin.asks, if_neg searching, result]
          exact due
        exact exchange_heard member nonzero asks got
      have anew (seen : List Event) : Traced broadcastId turns
          (l.search broadcastId turn.bus).client.primaryEcu
          (log ++ seen ++ [.discovered (l.client.discover broadcastId turn.bus).client.supported]) :=
        Traced.discovered fun pid found => ⟨turn, member, bitmaps, chain, listed pid found⟩
      have split : (l.step c broadcastId turn).2 = seen ++ .discovered _ :: more := split
      have after {part rest : List Event} (within : more = part ++ rest) :
          Traced broadcastId turns (l.search broadcastId turn.bus).client.primaryEcu
            (log ++ (seen ++
              .discovered (l.client.discover broadcastId turn.bus).client.supported :: part)) := by
        have traced := (anew seen).append
          (fun e told => undiscovered e (within ▸ List.mem_append_left _ told))
          fun pid v time told => heard pid v time (within ▸ List.mem_append_left _ told)
        simpa using traced
      constructor
      · rw [split]
        exact ⟨_, after (List.append_nil _).symm, fun _ => ⟨exchange_sticks nonzero, nonzero⟩⟩
      · intro part rest cut
        rw [split] at cut
        rcases List.append_eq_append_iff.mp cut with ⟨tail, rfl, later⟩ | ⟨tail, earlier, -⟩
        · cases tail with
          | nil => exact ⟨ecu, traced.quiet (by simpa using quiet)⟩
          | cons first tail =>
            obtain ⟨rfl, within⟩ := List.cons.inj later
            exact ⟨_, after within⟩
        · exact ⟨ecu, traced.quiet fun e told => quiet e (earlier ▸ List.mem_append_left _ told)⟩
    · rw [if_neg success] at result
      obtain ⟨still, quiet⟩ := step_missing c (l.turnOf c broadcastId turn) known result
      refine ⟨⟨ecu, traced.quiet quiet, fun found => ?_⟩, fun part rest split => ⟨ecu, ?_⟩⟩
      · cases still.symm.trans found
      · exact traced.quiet fun e told => quiet e (split ▸ List.mem_append_left _ told)

end Step

/-- In every run of the loop, what is known at each event comes from one controller. -/
theorem log_traced (c : Config) (broadcastId : Option UInt32) (turns : List BusTurn)
    {before after : List Event} {e : Event}
    (split : Loop.log c broadcastId turns = before ++ e :: after) :
    ∃ ecu, Traced broadcastId turns ecu before := by
  -- The event is told in some turn, before which the client and the log were as they should be.
  obtain ⟨past, turn, later, part, rest, rfl, told, rfl⟩ := Run.outputs_split _ split
  have follows : Follows broadcastId (past ++ turn :: later)
      (Run.outputs (Loop.step c broadcastId) .new past)
      (Run.final (Loop.step c broadcastId) .new past) := by
    refine Run.invariant (Loop.step c broadcastId)
      (P := fun _ log l => Follows broadcastId (past ++ turn :: later) log l) ?_ ?_
    · exact ⟨0, ⟨fun _ _ _ => nofun, nofun⟩, nofun⟩
    · intro earlier turn' within held
      refine (held.step (List.mem_append_left _ (within.subset ?_))).1
      exact List.mem_append_right _ (List.mem_singleton_self _)
  exact (follows.step (by simp)).2 part (e :: rest) told

/-- In every run of the loop, the log is true. -/
theorem log_told (c : Config) (broadcastId : Option UInt32) (turns : List BusTurn) :
    Run.Each (Told c) (Loop.log c broadcastId turns) := by
  -- A turn of the loop is a turn of the plugin, with the client's answers filled in.
  have sound : Sound c (Loop.log c broadcastId turns)
      (Run.final (Loop.step c broadcastId) .new turns).plugin := by
    refine Run.invariant (Loop.step c broadcastId) (P := fun _ log l => Sound c log l.plugin)
      ⟨Run.each_nil, Agrees.start c⟩ ?_
    exact fun _ turn _ held => (step_path c _ _).keeps Sound.move held
  exact sound.told

/-- The value that a signal has for an answer; the power state is read off the engine speed. -/
def valueOf (sig : Signal) (v : Double) : Double :=
  match sig with
  | .powerState => .ofInt (if (Double.finite 0).lt v then cpPowerReady else cpPowerOn)
  | _ => v

/-- A signal has the value of the parameter behind it. -/
theorem state_value (c : Config) {p : Plugin} {now : ℤ} {sig : Signal} {pid : UInt8} {v : Double}
    (read : behind sig = some pid) (value : p.reading now pid = some v) :
    (p.state c now).quantity sig = valueOf sig v := by
  by_cases power : sig = .powerState
  · subst power
    cases read
    obtain ⟨lamps, state⟩ := state_lamps c p now
    have marked := fillPids_marked p now (bare c) (show pidOf .rpm = some pidRpm from rfl) rfl
    have speed : (p.fillPids now (bare c)).rpm = (p.reading now pidRpm).getD (.finite 0) :=
      fillPids_quantity p now (bare c) .rpm
    rw [state, fillPower_eq marked]
    simp only [VehicleState.quantity, valueOf, speed, value, Option.isSome_some, Option.getD_some, if_true]
  · -- Every other signal is read from its own parameter.
    have own : pidOf sig = some pid := by
      cases sig <;> first | exact read | exact absurd rfl power
    have plain : valueOf sig v = v := by
      cases sig <;> first | rfl | exact absurd rfl power
    rw [state_quantity c p now own, value, Option.getD_some, plain]

/--
In every run of the loop, whatever a published state advertises was advertised by the bitmaps of one
controller, and whatever it marks valid is what that same controller answered, at most three of the
parameter's intervals before.
-/
theorem published_traced (c : Config) (broadcastId : Option UInt32) (turns : List BusTurn)
    {before after : List Event} {s : VehicleState} {now : ℤ}
    (split : Loop.log c broadcastId turns = before ++ .publish s now :: after) :
    ∃ ecu, (∀ i, Bits.mem s.capable i = true → ∃ sig pid, sig.index = i ∧ behind sig = some pid ∧
        Offered broadcastId turns ecu pid) ∧
      ∀ i, Bits.mem s.valid i = true → ∃ sig pid v time, sig.index = i ∧ behind sig = some pid ∧
        s.quantity sig = valueOf sig v ∧ Heard broadcastId turns ecu pid v time ∧
        now - time ≤ 3 * c.interval pid := by
  obtain ⟨p, agrees, rfl, -⟩ := log_told c broadcastId turns before (.publish s now) after split
  obtain ⟨ecu, traced⟩ := log_traced c broadcastId turns split
  refine ⟨ecu, fun i capable => ?_, fun i valid => ?_⟩
  · obtain ⟨sig, pid, place, read, supported⟩ := (mem_state_capable c p now i).mp capable
    exact ⟨sig, pid, place, read, traced.offered pid (agrees.supported ▸ supported)⟩
  · obtain ⟨sig, pid, place, read, some⟩ := (mem_state_valid c p now i).mp valid
    obtain ⟨v, value⟩ := Option.isSome_iff_exists.mp some
    obtain ⟨-, -, time, found, recent⟩ := agrees.reading value
    exact ⟨sig, pid, v, time, place, read, state_value c read value,
      traced.heard pid v time (answered_since found), recent⟩

end CanProxy.Ice
