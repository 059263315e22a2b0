import CanProxy.Proofs.Ice.Run

/-! Which requests count towards giving a vehicle up. -/

namespace CanProxy.Ice

open Numeric

/-- A request that the plugin does not mark as answered: it got nothing, or a filler. -/
def unmarked : UInt8 × Option Double → Bool
  | (pid, some v) => filler pid v
  | (_, none) => true

/-- A discovery forgets the requests before it, and any other event adds its own. -/
theorem requests_concat (log : List Event) (e : Event) :
    requests (log ++ [e]) = if e.discovers = true then [] else requests log ++ e.request?.toList := by
  unfold requests
  rw [Run.since_concat]
  split
  · rfl
  · exact Run.filterMap_concat _ _ e

/-- Something that is neither a discovery nor a request adds none. -/
theorem requests_tell (log : List Event) {e : Event} (quiet : e.discovers = false)
    (unasked : e.request? = none) : requests (log ++ [e]) = requests log := by
  rw [requests_concat, quiet, unasked, if_neg Bool.false_ne_true, Option.toList_none, List.append_nil]

theorem requests_query (log : List Event) (pid : UInt8) (answer : Option Double) (time : ℤ) :
    requests (log ++ [.query pid answer time]) = requests log ++ [(pid, answer)] :=
  requests_concat log _

theorem requests_discovered (log : List Event) (supported : Finset UInt8) :
    requests (log ++ [.discovered supported]) = [] :=
  requests_concat log _

/-- The last elements of a list are those of any of its endings that is long enough. -/
theorem rtake_of_suffix {α : Type*} {l ending : List α} (suffix : ending <:+ l) {n : Nat}
    (long : n ≤ ending.length) : l.rtake n = ending.rtake n := by
  obtain ⟨front, rfl⟩ := suffix
  rw [List.rtake, List.rtake, List.length_append, show front.length + ending.length - n =
    front.length + (ending.length - n) by omega, List.drop_append, List.drop_of_length_le (by omega),
    List.nil_append]
  congr 1
  omega

/-- A vehicle is given up after five requests that are not marked as answered. -/
def GivenUp (before : List Event) : Event → Prop
  | .setLink false => lastLink before = some true →
    5 ≤ (requests before).length ∧ ∀ request ∈ (requests before).rtake 5, unmarked request = true
  | _ => True

/-- The scheduler counts the requests since the last one that was marked as answered. -/
structure Counted (log : List Event) (p : Plugin) : Prop where
  told : Run.Each GivenUp log
  linked : p.discovered = false → lastLink log ≠ some true
  count : p.poller.unanswered = ((requests log).rtakeWhile unmarked).length

/-- What is neither a discovery, a request, nor about the link leaves the count as it is. -/
theorem Counted.tell {log : List Event} {p q : Plugin} (counted : Counted log p) {e : Event}
    (quiet : e.discovers = false) (unasked : e.request? = none) (untold : e.link? = none)
    (discovered : q.discovered = p.discovered) (poller : q.poller = p.poller) :
    Counted (log ++ [e]) q := by
  refine ⟨Run.each_concat counted.told ?_, ?_, ?_⟩
  · cases e with
    | setLink present => cases untold
    | _ => trivial
  · rw [discovered, lastLink_concat, untold, Option.none_or]
    exact counted.linked
  · rw [requests_tell log quiet unasked, poller, counted.count]

/-- One more request is counted, until one is marked as answered. -/
theorem Counted.query {log : List Event} {p q : Plugin} (counted : Counted log p)
    {pid : UInt8} {answer : Option Double} {time : ℤ} (discovered : q.discovered = p.discovered)
    (count : q.poller.unanswered =
      if unmarked (pid, answer) = true then p.poller.unanswered + 1 else 0) :
    Counted (log ++ [.query pid answer time]) q := by
  refine ⟨Run.each_concat counted.told trivial, ?_, ?_⟩
  · rw [discovered, lastLink_concat]
    exact counted.linked
  · rw [requests_query, List.rtakeWhile_concat, count, counted.count]
    split <;> simp

/-- Every move keeps the count. -/
theorem Counted.move {c : Config} {log events : List Event} {p q : Plugin} (counted : Counted log p)
    (moved : Move c p events q) : Counted (log ++ events) q := by
  cases moved with
  | lit f time =>
    obtain ⟨lamps, seen, lit⟩ := onTelltales_same p (f, time)
    rw [lit]
    exact counted.tell rfl rfl rfl rfl rfl
  | published known now next => exact counted.tell rfl rfl rfl rfl rfl
  | failed known listed now time =>
    exact counted.query rfl (Poller.unanswered_markRequested listed now)
  | @measured pid it known listed v genuine now time =>
    refine counted.query rfl ?_
    -- The item is still there when its answer is marked.
    have stays : ∃ it, (p.poller.markRequested pid now).find pid = some it := by
      rw [Poller.find_markRequested, listed]
      exact ⟨_, rfl⟩
    obtain ⟨it, listed⟩ := stays
    rw [unmarked, genuine, if_neg Bool.false_ne_true]
    exact Poller.unanswered_markAnswered listed time
  | @dropped pid it known listed v unreal now time =>
    have asked {q : Plugin} (discovered : q.discovered = p.discovered)
        (poller : q.poller = (p.poller.markRequested pid now).remove pid) :
        Counted (log ++ [.query pid (some v) time]) q := by
      refine counted.query discovered ?_
      rw [unmarked, unreal, if_pos rfl, poller]
      exact Poller.unanswered_markRequested listed now
    split
    · exact asked rfl rfl
    · rw [List.append_cons]
      exact (asked (q := { p with poller := (p.poller.markRequested pid now).remove pid })
        rfl rfl).tell rfl rfl rfl rfl rfl
  | found searching supported =>
    rw [List.append_cons]
    refine ⟨Run.each_concat (Run.each_concat counted.told trivial) trivial, nofun, ?_⟩
    -- A discovery schedules everything anew, which counts nothing.
    rw [requests_tell _ rfl rfl, requests_discovered]
    refine schedule_keeps c supported (P := fun poller => poller.unanswered = 0) ?_ rfl
    intro pid poller _ uncounted
    rw [Poller.unanswered_add, uncounted]
  | missing searching now =>
    -- The host already knows that there is no vehicle.
    have parted := counted.linked searching
    rw [List.append_cons]
    have told : Counted (log ++ [.setLink false]) { p with values := fun _ => none } := by
      refine ⟨Run.each_concat counted.told fun up => absurd up parted, fun _ => ?_, ?_⟩
      · rw [lastLink_concat]
        simp [Event.link?]
      · rw [requests_tell log rfl rfl]
        exact counted.count
    exact told.tell rfl rfl rfl rfl rfl
  | lost known silent =>
    refine ⟨Run.each_concat counted.told fun _ => ?_, fun _ => ?_, ?_⟩
    · -- The requests counted are the last ones, and there are five of them.
      have long : 5 ≤ ((requests log).rtakeWhile unmarked).length := counted.count ▸ silent
      have suffix := List.rtakeWhile_suffix (l := requests log) (p := unmarked)
      refine ⟨long.trans suffix.length_le, fun request member => ?_⟩
      rw [rtake_of_suffix suffix long] at member
      exact List.mem_rtakeWhile_imp (List.mem_of_mem_drop member)
    · rw [lastLink_concat]
      simp [Event.link?]
    · rw [requests_tell log rfl rfl]
      exact counted.count

/--
In every run of the plugin, a vehicle is given up after five requests without an answer exactly when
none of the five was answered with a filler.
-/
theorem given_up_iff (c : Config) (turns : List Turn) (before after : List Event)
    (split : Plugin.log c turns = before ++ .setLink false :: after)
    (up : lastLink before = some true) :
    FiveFailed before ↔ ∀ pid v, (pid, some v) ∈ (requests before).rtake 5 → filler pid v = false := by
  have counted := run_keeps (c := c) (I := Counted) ⟨Run.each_nil, nofun, rfl⟩ Counted.move turns
  obtain ⟨five, unanswered⟩ := counted.told before (.setLink false) after split up
  constructor
  · rintro ⟨-, failed⟩ pid v member
    cases failed (pid, some v) member
  · intro genuine
    refine ⟨five, fun request member => ?_⟩
    obtain ⟨pid, answer⟩ := request
    -- A request that is not marked got nothing, or the filler that is excluded.
    cases answer with
    | none => rfl
    | some v =>
      have unreal : filler pid v = true := unanswered (pid, some v) member
      rw [genuine pid v member] at unreal
      cases unreal

/-- Five silent requests for the speed give a vehicle up. -/
theorem given_up_silent :
    let c : Config := ⟨cpSourceLive, 100⟩
    let turns :=
      { Turn.silent 1000 with discovery := some {pidSpeed} } ::
        (List.range 4).map fun i => Turn.silent (1100 + 100 * i)
    FiveFailed (Plugin.log c turns).dropLast := by
  intro c turns
  refine (given_up_iff c turns _ [] (by decide +kernel) (by decide +kernel)).mpr ?_
  have silent : ∀ request ∈ (requests (Plugin.log c turns).dropLast).rtake 5, request.2 = none := by
    decide +kernel
  intro pid v member
  cases silent _ member

/--
A vehicle is given up although it has answered two of the last five requests.

Both answers were fillers, which dropped their parameters but counted as silence.
-/
theorem given_up_answered :
    let c : Config := ⟨cpSourceLive, 100⟩
    let turns :=
      [{ Turn.silent 1000 with discovery := some {pidSpeed, pidModuleVoltage, pidAmbientTemp} },
      { Turn.silent 1010 with answer := some (.finite 0) },
      { Turn.silent 1020 with answer := some (.finite (-40)) },
      Turn.silent 1100,
      Turn.silent 1200]
    let before := (Plugin.log c turns).dropLast
    Plugin.log c turns = before ++ [.setLink false] ∧ lastLink before = some true ∧
      requests before = [(pidSpeed, none), (pidModuleVoltage, some (.finite 0)),
        (pidAmbientTemp, some (.finite (-40))), (pidSpeed, none), (pidSpeed, none)] ∧
      ¬FiveFailed before := by
  decide +kernel

end CanProxy.Ice
