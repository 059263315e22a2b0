import CanProxy.Proofs.Emu.Moves
import CanProxy.Proofs.Emu.Profile
import CanProxy.Proofs.Emu.State

/-! What the members of the plugin hold at any moment, told from its log alone. -/

namespace CanProxy.Emu

open Numeric

section Log

variable (did : Did) (log : List Event) (e : Event)

theorem accepted_concat : accepted did (log ++ [e]) = e.accept did (accepted did log) :=
  -- The last event is folded in last.
  List.foldl_concat ..

theorem lastDecodable_concat :
    lastDecodable did (log ++ [e]) = (e.decodable? did).or (lastDecodable did log) :=
  -- A decodable last event is the last one, and any other leaves the search where it was.
  Run.last_concat ..

end Log

/-- A decodable record is long enough. -/
theorem length_of_lastDecodable {did : Did} {log : List Event} {d : List UInt8}
    (last : lastDecodable did log = some d) : did.length ≤ d.length := by
  -- Only record events pass the filter, and they pass it by their length.
  obtain ⟨e, -, kept⟩ := List.mem_filterMap.mp (List.mem_of_getLast? last)
  cases e with
  | record k bytes time =>
    simp only [Event.decodable?] at kept
    split at kept
    next long =>
      cases kept
      exact long.2
    · cases kept
  | _ => cases kept

/--
The scheduler and the record members agree with the log about one record.

Its item is there once something was accepted and remembers when, and its member holds the values of
the last decodable bytes, which are those of the last accepted ones unless they were rejected.
-/
structure Tracks (c : Config) (log : List Event) (p : Plugin) (did : Did) : Prop where
  scheduled : ∀ it, p.poller.find did.key = some it → p.present did = true ∧
    it.interval = c.interval did ∧ it.lastAnswer = ((accepted did log).map Prod.snd).getD (-1)
  unscheduled : p.poller.find did.key = none → accepted did log = none
  written : ∀ d, lastDecodable did log = some d → ∀ sig, didOf c.hybrid sig = some did →
    p.records.quantity sig = recorded did d sig
  latest : ∀ d time, accepted did log = some (d, time) → accepts did d = true ∧
    ∃ last, lastDecodable did log = some last ∧ (accepts did last = true → last = d)

/-- The plugin agrees with its log about every record, and no other key is scheduled among theirs. -/
structure Agrees (c : Config) (log : List Event) (p : Plugin) : Prop where
  tracks : ∀ did, Tracks c log p did
  keyed : ∀ key it, p.poller.find key = some it → 0xF0 ≤ key → ∃ did : Did, key = did.key

theorem Did.key_inj {a b : Did} : a.key = b.key ↔ a = b := by
  cases a <;> cases b <;> decide

theorem Did.key_high (did : Did) : 0xF0 ≤ did.key := by
  cases did <;> decide

theorem didFor_key (did : Did) : didFor did.key = did := by
  cases did <;> decide

/-- Members that no record lives in may change freely. -/
theorem Agrees.same {c : Config} {log : List Event} {p q : Plugin} (agrees : Agrees c log p)
    (poller : q.poller = p.poller) (bms : q.bmsPresent = p.bmsPresent)
    (assist : q.assistPresent = p.assistPresent) (records : q.records = p.records) :
    Agrees c log q := by
  -- The invariant reads the scheduler, the two presence flags and the records, and nothing else.
  have present (did : Did) : q.present did = p.present did := by
    cases did <;> assumption
  refine ⟨fun did => ?_, fun key it found => agrees.keyed key it (poller ▸ found)⟩
  obtain ⟨scheduled, unscheduled, written, latest⟩ := agrees.tracks did
  constructor
  · rwa [poller, present]
  · rwa [poller]
  · rwa [records]
  · exact latest

/-- Telling the host something is no news about the records. -/
theorem Agrees.tell {c : Config} {log : List Event} {p : Plugin} (agrees : Agrees c log p) {e : Event}
    (silent : ∀ did last, e.accept did last = last ∧ e.decodable? did = none) :
    Agrees c (log ++ [e]) p := by
  -- Neither history changes, so every clause is the one that held before.
  refine ⟨fun did => ?_, agrees.keyed⟩
  have accepted : accepted did (log ++ [e]) = accepted did log := by
    rw [accepted_concat, (silent did _).1]
  have decodable : lastDecodable did (log ++ [e]) = lastDecodable did log := by
    rw [lastDecodable_concat, (silent did none).2, Option.none_or]
  obtain ⟨scheduled, unscheduled, written, latest⟩ := agrees.tracks did
  constructor
  · rwa [accepted]
  · rwa [accepted]
  · rwa [decodable]
  · rwa [accepted, decodable]

/-- A plugin that has just been started agrees with the empty log. -/
theorem Agrees.start (c : Config) : Agrees c [] Plugin.new := by
  -- Nothing is scheduled, and nothing was received.
  refine ⟨fun did => ⟨fun it found => ?_, fun _ => rfl, fun d last => ?_, fun d time last => ?_⟩,
    fun key it found => ?_⟩
  · cases found
  · cases last
  · cases last
  · cases found

/-- A record is published exactly while the one accepted last is fresh. -/
theorem Agrees.shown_iff {c : Config} {log : List Event} {p : Plugin} (agrees : Agrees c log p)
    (did : Did) (now : ℤ) : shown p did now = true ↔ FreshlyAccepted c log did now := by
  -- The record's item remembers when the accepted one was received, and its keeper was found.
  obtain ⟨scheduled, unscheduled, -, -⟩ := agrees.tracks did
  rw [shown, Bool.and_eq_true_iff, Poller.fresh_iff]
  constructor
  · rintro ⟨-, it, item, begun, recent⟩
    obtain ⟨-, interval, answered⟩ := scheduled it item
    -- A nonnegative answer time is that of an accepted record.
    cases found : accepted did log with
    | none =>
      rw [found] at answered
      have : it.lastAnswer = -1 := answered
      omega
    | some record =>
      obtain ⟨d, time⟩ := record
      rw [found] at answered
      have answered : it.lastAnswer = time := answered
      rw [answered] at begun
      rw [answered, interval] at recent
      exact ⟨d, time, found, begun, recent⟩
  · rintro ⟨d, time, found, begun, recent⟩
    cases item : p.poller.find did.key with
    | none =>
      rw [unscheduled item] at found
      cases found
    | some it =>
      obtain ⟨present, interval, answered⟩ := scheduled it item
      rw [found] at answered
      have answered : it.lastAnswer = time := answered
      exact ⟨present, it, rfl, answered ▸ begun, answered ▸ interval ▸ recent⟩

/--
A state published in agreement with the log carries the accepted records exactly when no rejected one
hides them.
-/
theorem Agrees.carries_iff {c : Config} {log : List Event} {p : Plugin} (agrees : Agrees c log p)
    (now : ℤ) : CarriesAccepted c log (p.state c now) now ↔ NoFreshRejection c log now := by
  -- A shown record stands for an accepted one, and its member for the last decodable one.
  constructor
  · intro carries did d time found begun recent last decodable
    -- The accepted record is shown, so a rejected one would show values of its own.
    by_contra rejected
    obtain ⟨-, -, written, latest⟩ := agrees.tracks did
    obtain ⟨sig, stored, differs⟩ := recorded_ne_of_rejected c.hybrid (latest d time found).1
      (length_of_lastDecodable decodable) (Bool.not_eq_true _ ▸ rejected)
    have shown := (agrees.shown_iff did now).mpr ⟨d, time, found, begun, recent⟩
    obtain ⟨marked, value⟩ := state_record c p now stored
    obtain ⟨d', time', again, carried, -⟩ := carries sig did stored (marked.trans shown)
    rw [found] at again
    cases again
    exact differs ((written last decodable sig stored).symm.trans ((value shown).symm.trans carried))
  · intro untainted sig did stored valid
    obtain ⟨marked, value⟩ := state_record c p now stored
    have shown := marked.symm.trans valid
    obtain ⟨d, time, found, begun, recent⟩ := (agrees.shown_iff did now).mp shown
    obtain ⟨-, -, written, latest⟩ := agrees.tracks did
    obtain ⟨-, last, decodable, same⟩ := latest d time found
    have last_eq := same (untainted did d time found begun recent last decodable)
    rw [last_eq] at decodable
    exact ⟨d, time, found, (value shown).trans (written d decodable sig stored), recent⟩

/-- Scheduling the standard parameters never schedules a record. -/
theorem schedulePids_find (c : Config) (supported : Finset UInt8) (poller : Poller) {key : UInt8}
    (high : 0xF0 ≤ key) : (Plugin.schedulePids c supported poller).find key = poller.find key := by
  -- Standard parameters have keys below those of the records.
  have want (pid : UInt8) (interval : ℤ) (poller : Poller) (low : pid < 0xF0) :
      (if pid ∈ supported then poller.add pid interval else poller).find key = poller.find key := by
    have different : pid ≠ key := by
      rintro rfl
      exact absurd low (UInt8.not_lt.mpr high)
    split
    · rw [Poller.find_add, if_neg different, Option.or_none]
    · rfl
  -- The last parameter added is the outermost one.
  unfold Plugin.schedulePids
  dsimp only
  rw [want pidOdometer _ _ (by decide), want pidAmbientTemp _ _ (by decide),
    want pidModuleVoltage _ _ (by decide)]
  split
  · rw [want pidFuelLevel _ _ (by decide), want pidCoolantTemp _ _ (by decide),
      want pidRpm _ _ (by decide), want pidSpeed _ _ (by decide)]
  · exact want pidSpeed _ _ (by decide)

/-- The first three records are scheduled unanswered, each at its interval. -/
private theorem bmsRecords_find (c : Config) {poller : Poller} {key : UInt8} {it : PollItem}
    (fresh : poller.find key = none)
    (found : (((poller.add kKeyDrive c.fastMs).add kKeyPack c.fastMs).add kKeyRange
      (c.fastMs * 5)).find key = some it) :
    ∃ did : Did, key = did.key ∧ it.interval = c.interval did ∧ it.lastAnswer = -1 ∧ did ≠ .assist := by
  -- The items are told apart in the order opposite to that of adding.
  rcases Poller.find_add_some found with found | ⟨rfl, rfl⟩
  · rcases Poller.find_add_some found with found | ⟨rfl, rfl⟩
    · rcases Poller.find_add_some found with found | ⟨rfl, rfl⟩
      · rw [fresh] at found
        cases found
      · exact ⟨.drive, rfl, rfl, rfl, nofun⟩
    · exact ⟨.pack, rfl, rfl, rfl, nofun⟩
  · exact ⟨.range, rfl, rfl, rfl, nofun⟩

/-- Scheduling the records adds their items, unanswered, to a schedule that has none of them. -/
theorem scheduleRecords_find (c : Config) (assistPresent : Bool) {poller : Poller} {key : UInt8}
    {it : PollItem} (fresh : poller.find key = none)
    (found : (Plugin.scheduleRecords c assistPresent poller).find key = some it) :
    ∃ did : Did, key = did.key ∧ it.interval = c.interval did ∧ it.lastAnswer = -1 ∧
      (did = .assist → assistPresent = true) := by
  unfold Plugin.scheduleRecords at found
  -- The driver-assist record is added last, and only where there is one.
  cases assistPresent with
  | false =>
    obtain ⟨did, named, interval, unanswered, other⟩ := bmsRecords_find c fresh found
    exact ⟨did, named, interval, unanswered, fun assist => absurd assist other⟩
  | true =>
    rcases Poller.find_add_some found with found | ⟨rfl, rfl⟩
    · obtain ⟨did, named, interval, unanswered, -⟩ := bmsRecords_find c fresh found
      exact ⟨did, named, interval, unanswered, fun _ => rfl⟩
    · exact ⟨.assist, rfl, rfl, rfl, fun _ => rfl⟩

/-- A discovery keeps the record members and schedules unanswered records of keepers it has found. -/
theorem discover_schedule {c : Config} {p q : Plugin} {turn : Turn} (found : p.discover c turn = some q) :
    q.records = p.records ∧ ∀ key it, q.poller.find key = some it → 0xF0 ≤ key →
      ∃ did : Did, key = did.key ∧ it.interval = c.interval did ∧ it.lastAnswer = -1 ∧
        q.present did = true := by
  -- The schedule was cleared, so every item is one that this discovery has added.
  unfold Plugin.discover at found
  cases outcome : turn.discovery with
  | none =>
    rw [outcome] at found
    cases found
  | some supported =>
    rw [outcome] at found
    have bare {key : UInt8} (high : 0xF0 ≤ key) :
        (Plugin.schedulePids c supported p.poller.clear).find key = none :=
      schedulePids_find c supported _ high
    dsimp only at found
    split at found
    · cases found
      refine ⟨rfl, fun key it listed high => ?_⟩
      obtain ⟨did, named, interval, unanswered, assist⟩ := scheduleRecords_find c _ (bare high) listed
      refine ⟨did, named, interval, unanswered, ?_⟩
      cases did with
      | assist => exact assist rfl
      | _ => rfl
    · cases found
      refine ⟨rfl, fun key it listed high => ?_⟩
      rw [show Poller.find _ key = none from bare high] at listed
      cases listed

/-- A discovery starts over: what it schedules has no answer yet, and nothing counts as accepted. -/
theorem Agrees.discover {c : Config} {log : List Event} {p q : Plugin} {turn : Turn}
    (agrees : Agrees c log p) (found : p.discover c turn = some q) :
    Agrees c (log ++ [.discovered]) q := by
  -- The record members keep what was written before, and the decodable history keeps its bytes.
  obtain ⟨records, schedule⟩ := discover_schedule found
  refine ⟨fun did => ?_, fun key it listed high => ?_⟩
  · have nothing : accepted did (log ++ [.discovered]) = none := accepted_concat did log .discovered
    have decodable : lastDecodable did (log ++ [.discovered]) = lastDecodable did log :=
      lastDecodable_concat did log .discovered
    refine ⟨fun it listed => ?_, fun _ => nothing, fun d last sig stored => ?_, fun d time last => ?_⟩
    · obtain ⟨own, named, interval, unanswered, present⟩ := schedule did.key it listed did.key_high
      obtain rfl := Did.key_inj.mp named
      rw [nothing]
      exact ⟨present, interval, unanswered⟩
    · rw [records]
      exact (agrees.tracks did).written d (decodable ▸ last) sig stored
    · rw [nothing] at last
      cases last
  · obtain ⟨did, named, -⟩ := schedule key it listed high
    exact ⟨did, named⟩

/-- Sending a request moves a deadline and nothing a record depends on. -/
theorem Agrees.markRequested {c : Config} {log : List Event} {p : Plugin} (agrees : Agrees c log p)
    (key : UInt8) (now : ℤ) :
    Agrees c log { p with poller := p.poller.markRequested key now } := by
  -- A request changes deadlines, which the invariant does not mention.
  refine ⟨fun did => ?_, fun other it found high => ?_⟩
  · obtain ⟨scheduled, unscheduled, written, latest⟩ := agrees.tracks did
    refine ⟨fun it found => ?_, fun absent => ?_, written, latest⟩
    · obtain ⟨old, listed, interval, answered⟩ := Poller.find_markRequested_some found
      rw [interval, answered]
      exact scheduled old listed
    · rw [Poller.find_markRequested] at absent
      exact unscheduled (Option.map_eq_none_iff.mp absent)
  · obtain ⟨old, listed, -⟩ := Poller.find_markRequested_some found
    exact agrees.keyed other old listed high

/-- An answered standard parameter changes nothing a record depends on. -/
theorem Agrees.markAnswered {c : Config} {log : List Event} {p : Plugin} (agrees : Agrees c log p)
    {key : UInt8} (standard : key < 0xF0) (time : ℤ) :
    Agrees c log { p with poller := p.poller.markAnswered key time } := by
  -- The answered key is below those of the records, so their items stay.
  have kept {other : UInt8} (high : 0xF0 ≤ other) :
      (p.poller.markAnswered key time).find other = p.poller.find other := by
    refine Poller.find_markAnswered_ne p.poller time ?_
    rintro rfl
    exact absurd standard (UInt8.not_lt.mpr high)
  refine ⟨fun did => ?_, fun other it found high => ?_⟩
  · obtain ⟨scheduled, unscheduled, written, latest⟩ := agrees.tracks did
    refine ⟨fun it found => ?_, fun absent => ?_, written, latest⟩
    · exact scheduled it (kept did.key_high ▸ found)
    · exact unscheduled (kept did.key_high ▸ absent)
  · exact agrees.keyed other it (kept high ▸ found) high

section Record

variable {c : Config} {log : List Event} {p : Plugin} {did other : Did} {d : List UInt8} {time : ℤ}

/-- A record that is too short, or of another kind, leaves the last decodable one in place. -/
theorem lastDecodable_record_ne (exempt : ¬(did = other ∧ other.length ≤ d.length)) :
    lastDecodable other (log ++ [.record did d time]) = lastDecodable other log := by
  -- The event is filtered out.
  rw [lastDecodable_concat, Event.decodable?, if_neg exempt, Option.none_or]

theorem lastDecodable_record (long : did.length ≤ d.length) :
    lastDecodable did (log ++ [.record did d time]) = some d := by
  rw [lastDecodable_concat, Event.decodable?, if_pos ⟨rfl, long⟩, Option.some_or]

/-- A record that is rejected, or of another kind, leaves the last accepted one in place. -/
theorem accepted_record_ne (exempt : ¬(did = other ∧ accepts other d = true)) :
    accepted other (log ++ [.record did d time]) = accepted other log := by
  rw [accepted_concat, Event.accept, if_neg exempt]

theorem accepted_record (good : accepts did d = true) :
    accepted did (log ++ [.record did d time]) = some (d, time) := by
  rw [accepted_concat, Event.accept, if_pos ⟨rfl, good⟩]

/-- A decoded record leaves every member with the values of the last decodable bytes. -/
theorem Agrees.written_record (agrees : Agrees c log p) (time : ℤ) {last : List UInt8} {sig : Signal}
    (decodable : lastDecodable other (log ++ [.record did d time]) = some last)
    (stored : didOf c.hybrid sig = some other) :
    (p.records.decode did d).2.quantity sig = recorded other last sig := by
  -- The member holds these bytes if they were decodable for it, and its old ones otherwise.
  by_cases written : did = other ∧ other.length ≤ d.length
  · obtain ⟨rfl, long⟩ := written
    rw [lastDecodable_record long] at decodable
    cases decodable
    exact decode_quantity p.records long stored
  · rw [lastDecodable_record_ne written] at decodable
    rw [← (agrees.tracks other).written last decodable sig stored]
    by_cases same : did = other
    · subst same
      rw [decode_short p.records (not_le.mp fun long => written ⟨rfl, long⟩)]
    · exact decode_other p.records d stored (Ne.symm same)

/-- A rejected record overwrites its member behind the scheduler's back. -/
theorem Agrees.reject (agrees : Agrees c log p) (bad : accepts did d = false) (time : ℤ) :
    Agrees c (log ++ [.record did d time]) { p with records := (p.records.decode did d).2 } := by
  refine ⟨fun other => ?_, agrees.keyed⟩
  -- The item keeps its answer time, which is what hides the overwriting from the publish.
  obtain ⟨scheduled, unscheduled, -, latest⟩ := agrees.tracks other
  have unmoved : accepted other (log ++ [.record did d time]) = accepted other log := by
    refine accepted_record_ne ?_
    rintro ⟨rfl, good⟩
    rw [good] at bad
    cases bad
  refine ⟨by rwa [unmoved], by rwa [unmoved],
    fun last decodable sig stored => agrees.written_record time decodable stored, fun good at' found => ?_⟩
  rw [unmoved] at found
  obtain ⟨verdict, last, decodable, same⟩ := latest good at' found
  refine ⟨verdict, ?_⟩
  -- From now on the last decodable bytes are rejected ones, which the invariant allows for.
  by_cases written : did = other ∧ other.length ≤ d.length
  · obtain ⟨rfl, long⟩ := written
    refine ⟨d, lastDecodable_record long, fun good => ?_⟩
    rw [good] at bad
    cases bad
  · exact ⟨last, by rw [lastDecodable_record_ne written, decodable], same⟩

/-- An accepted record is remembered by its member and by the scheduler. -/
theorem Agrees.accept (agrees : Agrees c log p) {it : PollItem}
    (listed : p.poller.find did.key = some it) (good : accepts did d = true) (time : ℤ) :
    Agrees c (log ++ [.record did d time])
      { p with
        records := (p.records.decode did d).2
        poller := p.poller.markAnswered did.key time } := by
  refine ⟨fun other => ?_, fun key it found high => ?_⟩
  · obtain ⟨scheduled, unscheduled, -, latest⟩ := agrees.tracks other
    have written : ∀ last, lastDecodable other (log ++ [.record did d time]) = some last →
        ∀ sig, didOf c.hybrid sig = some other →
        (p.records.decode did d).2.quantity sig = recorded other last sig :=
      fun last decodable sig stored => agrees.written_record time decodable stored
    by_cases same : did = other
    · -- Its own item remembers the time, and its own bytes are the last in both respects.
      subst same
      refine ⟨fun it' found => ?_, fun absent => ?_, written, fun d' time' found => ?_⟩
      · rw [Poller.find_markAnswered, listed, Option.map_some, if_pos (Poller.find_some listed).2] at found
        obtain rfl := Option.some.inj found
        rw [accepted_record good]
        obtain ⟨present, interval, -⟩ := scheduled it listed
        exact ⟨present, interval, rfl⟩
      · rw [Poller.find_markAnswered, listed] at absent
        cases absent
      · rw [accepted_record good] at found
        cases found
        exact ⟨good, d, lastDecodable_record (length_of_accepts good), fun _ => rfl⟩
    -- Another kind of record is neither read nor answered by this exchange.
    · have kept := Poller.find_markAnswered_ne p.poller time (mt Did.key_inj.mp (Ne.symm same))
      have unmoved : accepted other (log ++ [.record did d time]) = accepted other log :=
        accepted_record_ne fun both => same both.1
      have unread : lastDecodable other (log ++ [.record did d time]) = lastDecodable other log :=
        lastDecodable_record_ne fun both => same both.1
      refine ⟨fun it' found => ?_, fun absent => ?_, written, ?_⟩
      · rw [unmoved]
        exact scheduled it' (kept ▸ found)
      · rw [unmoved]
        exact unscheduled (kept ▸ absent)
      · rwa [unmoved, unread]
  · rw [Poller.find_markAnswered] at found
    obtain ⟨old, before, -⟩ := Option.map_eq_some_iff.mp found
    exact agrees.keyed key old before high

/-- Asking for a record gets no record, or one whose bytes decide whether the answer counts. -/
theorem pollDid_cases (turn : Turn) (p : Plugin) (did : Did) :
    p.pollDid turn did.key = (false, p, []) ∨
    ∃ d, p.pollDid turn did.key =
      (accepts did d, { p with records := (p.records.decode did d).2 },
        [.record did d turn.answeredAt]) := by
  -- No reply and a refusal look the same from outside; a positive reply always decodes into its place.
  unfold Plugin.pollDid
  rw [didFor_key]
  dsimp only
  cases readDid turn.reply did.code with
  | none => exact .inl rfl
  | some r =>
    cases positive : r.positive with
    | false => exact .inl (by simp [positive])
    | true => exact .inr ⟨r.data, by simp [positive, decode_verdict]⟩

/-- Asking for a scheduled key keeps the agreement. -/
theorem Agrees.ask (agrees : Agrees c log p) {key : UInt8} {it : PollItem}
    (listed : p.poller.find key = some it) (turn : Turn) :
    Agrees c (log ++ (p.ask turn key).2.2) (Plugin.settled turn key (p.ask turn key)) := by
  -- High keys are records, by the invariant about keys; low ones are standard parameters.
  unfold Plugin.ask
  by_cases high : key ≥ 0xF0
  · rw [if_pos high]
    obtain ⟨did, rfl⟩ := agrees.keyed key it listed high
    rcases pollDid_cases turn p did with nothing | ⟨d, asked⟩
    · rw [nothing]
      simpa [Plugin.settled] using agrees
    · -- The record enters the log, and the decoder's verdict decides whether the answer counts.
      rw [asked]
      cases verdict : accepts did d with
      | true => exact agrees.accept listed verdict turn.answeredAt
      | false => exact agrees.reject verdict turn.answeredAt
  · rw [if_neg high]
    unfold Plugin.query
    cases turn.answer with
    | none => simpa [Plugin.settled] using agrees
    | some v =>
      have marked := agrees.markAnswered (UInt8.not_le.mp high) turn.answeredAt
      simp only [Plugin.settled, if_true, List.append_nil]
      exact marked.same rfl rfl rfl rfl

/-- Every move keeps the agreement. -/
theorem Agrees.move {q : Plugin} {events : List Event} (agrees : Agrees c log p)
    (moved : Move c p events q) : Agrees c (log ++ events) q := by
  -- What the host is told is no news about the records.
  have silent (present : Bool) (did : Did) (last : Option (List UInt8 × ℤ)) :
      (Event.setLink present).accept did last = last ∧
        (Event.setLink present).decodable? did = none := ⟨rfl, rfl⟩
  have shown (s : VehicleState) (now : ℤ) (did : Did) (last : Option (List UInt8 × ℤ)) :
      (Event.publish s now).accept did last = last ∧
        (Event.publish s now).decodable? did = none := ⟨rfl, rfl⟩
  cases moved with
  | lit lamps seen =>
    rw [List.append_nil]
    exact agrees.same rfl rfl rfl rfl
  | found searching offered =>
    rw [List.append_cons]
    exact ((agrees.discover offered).tell (silent true)).same rfl rfl rfl rfl
  | missing searching now =>
    rw [List.append_cons]
    exact ((agrees.tell (silent false)).tell (shown _ now)).same rfl rfl rfl rfl
  | requested known listed now =>
    rw [List.append_nil]
    exact agrees.markRequested _ now
  | settled known listed turn => exact agrees.ask listed turn
  | lost known quiet => exact (agrees.tell (silent false)).same rfl rfl rfl rfl
  | published known now next => exact (agrees.tell (shown _ now)).same rfl rfl rfl rfl

end Record

end CanProxy.Emu
