import CanProxy.Emu.Plugin
import CanProxy.Proofs.Obd.Poller

/-! Every turn of the loop, taken apart into the few things the plugin ever does. -/

namespace CanProxy.Emu

open Numeric

/-- What asking for a key comes to: the plugin afterwards, its answer marked when it counts. -/
def Plugin.settled (turn : Turn) (key : UInt8) (asked : Bool × Plugin × List Event) : Plugin :=
  let q := asked.2.1
  if asked.1 = true then { q with poller := q.poller.markAnswered key turn.answeredAt } else q

/-- One thing the plugin does, with what it tells. -/
inductive Move (c : Config) : Plugin → List Event → Plugin → Prop where
  /-- A lamp frame comes in. -/
  | lit (p : Plugin) (lamps : UInt32) (seen : ℤ) :
    Move c p [] { p with lamps := lamps, lampsSeenMs := seen }
  /-- A search finds a vehicle. -/
  | found {p q : Plugin} {turn : Turn} (searching : p.discovered = false)
    (offered : p.discover c turn = some q) :
    Move c p [.discovered, .setLink true] { q with discovered := true }
  /-- A search finds none, which is published at once. -/
  | missing {p : Plugin} (searching : p.discovered = false) (now : ℤ) :
    Move c p [.setLink false, .publish ({ p with values := fun _ => none }.state c now) now]
      { p with values := fun _ => none }
  /-- A request for a scheduled key goes out. -/
  | requested {p : Plugin} {key : UInt8} {it : PollItem} (known : p.discovered = true)
    (listed : p.poller.find key = some it) (now : ℤ) :
    Move c p [] { p with poller := p.poller.markRequested key now }
  /-- The outcome of a request comes in. -/
  | settled {p : Plugin} {key : UInt8} {it : PollItem} (known : p.discovered = true)
    (listed : p.poller.find key = some it) (turn : Turn) :
    Move c p (p.ask turn key).2.2 (Plugin.settled turn key (p.ask turn key))
  /-- The vehicle is given up. -/
  | lost {p : Plugin} (known : p.discovered = true) (silent : 8 ≤ p.poller.unansweredStreak) :
    Move c p [.setLink false] { p with discovered := false }
  /-- A state is published. -/
  | published {p : Plugin} (known : p.discovered = true) (now next : ℤ) :
    Move c p [.publish (p.state c now) now] { p with nextPublish := next }

section Turn

variable {c : Config} {p : Plugin} (turn : Turn)

/-- Lamp frames come in one after the other, and nothing else changes. -/
theorem onTelltales_path (frames : List (CanFrame × ℤ)) (p : Plugin) :
    Run.Path (Move c) p [] (frames.foldl Plugin.onTelltales p) ∧
      (frames.foldl Plugin.onTelltales p).discovered = p.discovered := by
  -- A frame that is too short is no move at all.
  induction frames generalizing p with
  | nil => exact ⟨.stay p, rfl⟩
  | cons seen rest ih =>
    obtain ⟨path, same⟩ := ih (p.onTelltales seen)
    have first : Run.Path (Move c) p [] (p.onTelltales seen) ∧
        (p.onTelltales seen).discovered = p.discovered := by
      unfold Plugin.onTelltales
      dsimp only
      split
      · exact ⟨.stay p, rfl⟩
      · exact ⟨.single (.lit p _ _), rfl⟩
    exact ⟨first.1.trans path, same.trans first.2⟩

theorem publishIfDue_path (known : p.discovered = true) :
    Run.Path (Move c) p (p.publishIfDue c turn).2 (p.publishIfDue c turn).1 := by
  unfold Plugin.publishIfDue
  split
  · exact .single (.published known _ _)
  · exact .stay p

/-- Asking for something never forgets the vehicle. -/
theorem ask_discovered (key : UInt8) (p : Plugin) :
    (p.ask turn key).2.1.discovered = p.discovered := by
  -- A record and a parameter each write one member, and that is not the flag.
  unfold Plugin.ask
  split
  · unfold Plugin.pollDid
    dsimp only
    split
    · split <;> rfl
    · rfl
  · unfold Plugin.query
    cases turn.answer <;> rfl

/-- Asking for something tells of records only. -/
theorem ask_records {key : UInt8} {e : Event} (told : e ∈ (p.ask turn key).2.2) :
    ∃ did d time, e = .record did d time := by
  -- A positive reply is the only thing that is told.
  unfold Plugin.ask at told
  split at told
  · unfold Plugin.pollDid at told
    dsimp only at told
    split at told
    · split at told
      · exact ⟨_, _, _, List.mem_singleton.mp told⟩
      · cases told
    · cases told
  · cases told

/-- A turn with a known vehicle: at most a request, its outcome, and a publish or the loss. -/
theorem poll_path (known : p.discovered = true) :
    Run.Path (Move c) p (p.poll c turn).2 (p.poll c turn).1 := by
  unfold Plugin.poll
  cases chosen : p.poller.nextDue turn.now with
  | none => exact publishIfDue_path turn known
  | some key =>
    -- The chosen key is scheduled, and stays so when its request is counted.
    obtain ⟨it, listed, -⟩ := Poller.nextDue_some chosen
    have requested : Run.Path (Move c) p [] { p with poller := p.poller.markRequested key turn.now } :=
      .single (.requested known listed turn.now)
    have stays : ∃ it, (p.poller.markRequested key turn.now).find key = some it := by
      rw [Poller.find_markRequested, listed]
      exact ⟨_, rfl⟩
    obtain ⟨it, listed⟩ := stays
    have settled := requested.extend
      (.settled (p := { p with poller := p.poller.markRequested key turn.now }) known listed turn)
    have kept := ask_discovered turn key { p with poller := p.poller.markRequested key turn.now }
    dsimp only
    generalize Plugin.ask turn key { p with poller := p.poller.markRequested key turn.now } = outcome
      at settled kept
    obtain ⟨ok, q, events⟩ := outcome
    dsimp only at settled kept ⊢
    rw [known] at kept
    -- An answer is marked and followed by a publish; silence may end the turn before one.
    cases ok with
    | true => exact settled.trans (publishIfDue_path turn kept)
    | false =>
      have settled : Run.Path (Move c) p events q := settled
      by_cases silent : q.poller.unansweredStreak ≥ 8
      · simpa [silent] using settled.extend (.lost kept silent)
      · simpa [silent] using settled.trans (publishIfDue_path turn kept)

/-- Every turn of the loop is a path of moves. -/
theorem step_path (c : Config) (p : Plugin) (turn : Turn) :
    Run.Path (Move c) p (p.step c turn).2 (p.step c turn).1 := by
  obtain ⟨lamps, same⟩ := onTelltales_path (c := c) turn.lampFrames p
  unfold Plugin.step
  generalize turn.lampFrames.foldl Plugin.onTelltales p = q at lamps same
  dsimp only
  by_cases known : q.discovered = true
  · rw [if_pos known]
    exact lamps.trans (poll_path turn known)
  · rw [if_neg known]
    -- Without a vehicle the turn ends here; with one it goes on as any other turn.
    have searching := Bool.not_eq_true _ ▸ known
    cases offered : q.discover c turn with
    | none => exact lamps.extend (.missing searching turn.now)
    | some r => exact (lamps.extend (.found searching offered)).trans (poll_path turn rfl)

end Turn

/-- What every move keeps holds after each run of the plugin. -/
theorem run_keeps {c : Config} {I : List Event → Plugin → Prop} (start : I [] Plugin.new)
    (kept : ∀ {log p events q}, I log p → Move c p events q → I (log ++ events) q)
    (turns : List Turn) : I (Plugin.log c turns) (Run.final (Plugin.step c) Plugin.new turns) :=
  Run.Path.invariant (step_path c) kept start turns

end CanProxy.Emu
