import CanProxy.Ice.History
import CanProxy.Proofs.Obd.Poller

/-! Every turn of the loop, taken apart into the few things the plugin ever does. -/

namespace CanProxy.Ice

open Numeric

/-- One thing the plugin does, with what it tells. -/
inductive Move (c : Config) : Plugin → List Event → Plugin → Prop where
  /-- A lamp frame comes in. -/
  | lit (p : Plugin) (f : CanFrame) (time : ℤ) : Move c p [.telltales f time] (p.onTelltales (f, time))
  /-- A search finds a vehicle. -/
  | found {p : Plugin} (searching : p.discovered = false) (supported : Finset UInt8) :
    Move c p [.discovered supported, .setLink true] { p.discover c supported with discovered := true }
  /-- A search finds none, which is published at once. -/
  | missing {p : Plugin} (searching : p.discovered = false) (now : ℤ) :
    Move c p [.setLink false, .publish ({ p with values := fun _ => none }.state c now) now]
      { p with values := fun _ => none }
  /-- A request for a scheduled parameter gets no answer. -/
  | failed {p : Plugin} {pid : UInt8} {it : PollItem} (known : p.discovered = true)
    (listed : p.poller.find pid = some it) (now time : ℤ) :
    Move c p [.query pid none time] { p with poller := p.poller.markRequested pid now }
  /-- A request for a scheduled parameter is answered with a measurement. -/
  | measured {p : Plugin} {pid : UInt8} {it : PollItem} (known : p.discovered = true)
    (listed : p.poller.find pid = some it) {v : Double} (genuine : filler pid v = false)
    (now time : ℤ) :
    Move c p [.query pid (some v) time]
      { p with
        values := Function.update p.values pid (some v)
        poller := (p.poller.markRequested pid now).markAnswered pid time }
  /-- A request for a scheduled parameter is answered with a filler. -/
  | dropped {p : Plugin} {pid : UInt8} {it : PollItem} (known : p.discovered = true)
    (listed : p.poller.find pid = some it) {v : Double} (unreal : filler pid v = true)
    (now time : ℤ) :
    Move c p
      (.query pid (some v) time ::
        if pid ∈ p.implausibleLogged then [] else [Event.implausiblePid pid v])
      { p with
        implausibleLogged := insert pid p.implausibleLogged
        supported := p.supported.erase pid
        poller := (p.poller.markRequested pid now).remove pid
        values := Function.update p.values pid none }
  /-- The vehicle is given up. -/
  | lost {p : Plugin} (known : p.discovered = true) (silent : 5 ≤ p.poller.unansweredStreak) :
    Move c p [.setLink false] { p with discovered := false }
  /-- A state is published. -/
  | published {p : Plugin} (known : p.discovered = true) (now next : ℤ) :
    Move c p [.publish (p.state c now) now] { p with nextPublish := next }

section Turn

variable {c : Config} {p : Plugin} (turn : Turn)

/-- A lamp frame changes the lamps alone. -/
theorem onTelltales_same (p : Plugin) (seen : CanFrame × ℤ) :
    ∃ lamps time, p.onTelltales seen = { p with lamps := lamps, lampsSeenMs := time } := by
  -- A frame that is too short leaves even those.
  unfold Plugin.onTelltales
  dsimp only
  split
  · exact ⟨p.lamps, p.lampsSeenMs, rfl⟩
  · exact ⟨_, _, rfl⟩

/-- Lamp frames come in one after the other. -/
theorem onTelltales_path (frames : List (CanFrame × ℤ)) (p : Plugin) :
    Run.Path (Move c) p (frames.map fun (f, time) => Event.telltales f time)
        (frames.foldl Plugin.onTelltales p) ∧
      (frames.foldl Plugin.onTelltales p).discovered = p.discovered := by
  induction frames generalizing p with
  | nil => exact ⟨.stay p, rfl⟩
  | cons seen rest ih =>
    obtain ⟨path, same⟩ := ih (p.onTelltales seen)
    obtain ⟨lamps, time, lit⟩ := onTelltales_same p seen
    refine ⟨(Run.Path.single (.lit p seen.1 seen.2)).trans path, same.trans ?_⟩
    rw [lit]

theorem publishIfDue_path (known : p.discovered = true) :
    Run.Path (Move c) p (p.publishIfDue c turn).2 (p.publishIfDue c turn).1 := by
  unfold Plugin.publishIfDue
  split
  · exact .single (.published known _ _)
  · exact .stay p

/-- A measurement changes nothing. -/
theorem plausibleAnswer_genuine (p : Plugin) {pid : UInt8} {v : Double} (genuine : filler pid v = false) :
    p.plausibleAnswer pid v = (true, p, []) := by
  rw [Plugin.plausibleAnswer, genuine, if_neg Bool.false_ne_true]

/-- A filler drops its parameter. -/
theorem plausibleAnswer_filler (p : Plugin) {pid : UInt8} {v : Double} (unreal : filler pid v = true) :
    p.plausibleAnswer pid v =
      (false,
        { p with
          implausibleLogged := insert pid p.implausibleLogged
          supported := p.supported.erase pid
          poller := p.poller.remove pid
          values := Function.update p.values pid none },
        if pid ∈ p.implausibleLogged then [] else [Event.implausiblePid pid v]) := by
  rw [Plugin.plausibleAnswer, if_pos unreal]

/-- A turn with a known vehicle: at most a request with its outcome, and a publish or the loss. -/
theorem poll_path (known : p.discovered = true) :
    Run.Path (Move c) p (p.poll c turn).2 (p.poll c turn).1 := by
  unfold Plugin.poll
  cases chosen : p.poller.nextDue turn.now with
  | none => exact publishIfDue_path turn known
  | some pid =>
    -- Whatever is chosen is scheduled.
    obtain ⟨it, listed, -⟩ := Poller.nextDue_some chosen
    cases turn.answer with
    | some v =>
      dsimp only
      -- A filler drops its parameter, and anything else is kept as an answer.
      cases verdict : filler pid v with
      | true =>
        rw [plausibleAnswer_filler _ verdict]
        exact (Run.Path.single (.dropped known listed verdict turn.now turn.answeredAt)).trans
          (publishIfDue_path turn known)
      | false =>
        rw [plausibleAnswer_genuine _ verdict]
        exact (Run.Path.single (.measured known listed verdict turn.now turn.answeredAt)).trans
          (publishIfDue_path turn known)
    | none =>
      have failed := Run.Path.single (Move.failed (c := c) known listed turn.now turn.answeredAt)
      dsimp only
      split
      next silent => exact failed.extend (.lost known silent)
      next => exact failed.trans (publishIfDue_path turn known)

/-- Every turn of the loop is a path of moves. -/
theorem step_path (c : Config) (p : Plugin) (turn : Turn) :
    Run.Path (Move c) p (p.step c turn).2 (p.step c turn).1 := by
  obtain ⟨lamps, same⟩ := onTelltales_path (c := c) turn.lampFrames p
  unfold Plugin.step
  generalize turn.lampFrames.foldl Plugin.onTelltales p = q at lamps same
  dsimp only
  by_cases known : q.discovered = true
  · rw [if_pos known]
    exact lamps.trans (poll_path turn known)
  · rw [if_neg known]
    -- Without a vehicle the turn ends here; with one it goes on as any other turn.
    have searching := Bool.not_eq_true _ ▸ known
    cases turn.discovery with
    | none => exact lamps.extend (.missing searching turn.now)
    | some supported =>
      exact lamps.trans ((Run.Path.single (.found searching supported)).trans (poll_path turn rfl))

end Turn

/-- What every move keeps holds after each run of the plugin. -/
theorem run_keeps {c : Config} {I : List Event → Plugin → Prop} (start : I [] Plugin.new)
    (kept : ∀ {log p events q}, I log p → Move c p events q → I (log ++ events) q)
    (turns : List Turn) : I (Plugin.log c turns) (Run.final (Plugin.step c) Plugin.new turns) :=
  Run.Path.invariant (step_path c) kept start turns

end CanProxy.Ice
