import CanProxy.Proofs.Ice.Moves
import CanProxy.Proofs.Ice.State

/-! The warning lamps on the wire are those of the last lamp frame, for half a second. -/

namespace CanProxy.Ice

open Numeric

/-- Two bytes and four bytes of a frame's buffer. -/
theorem take_toList (data : Vector UInt8 8) :
    data.toList.take 2 = [getElem data 0 Place.eight0, getElem data 1 Place.eight1] ∧
      data.toList.take 4 =
        [getElem data 0 Place.eight0, getElem data 1 Place.eight1, getElem data 2 Place.eight2,
          getElem data 3 Place.eight3] := by
  have length : data.toList.length = 8 := by simp
  match bytes : data.toList, length with
  | [b0, b1, b2, b3, b4, b5, b6, b7], _ =>
    have at' (i : Nat) (within : i < 8) : data[i] = [b0, b1, b2, b3, b4, b5, b6, b7][i] := by
      simp [← bytes]
    simp [at']

theorem toNat_littleEndian (b0 b1 b2 b3 : UInt8) :
    (littleEndian [b0, b1, b2, b3]).toNat =
      b0.toNat + b1.toNat * 2 ^ 8 + b2.toNat * 2 ^ 16 + b3.toNat * 2 ^ 24 := by
  -- Four digits in base 256 stay below the width of the word.
  have bound0 := b0.toNat_lt
  have bound1 := b1.toNat_lt
  have bound2 := b2.toNat_lt
  have bound3 := b3.toNat_lt
  rw [littleEndian, UInt32.toNat_ofNat']
  simp only [List.map_cons, List.map_nil, Nat.ofDigits_cons, Nat.ofDigits_nil, Nat.reducePow] at *
  omega

theorem littleEndian_two (b0 b1 : UInt8) : littleEndian [b0, b1] = littleEndian [b0, b1, 0, 0] := by
  -- Missing high digits are zeros.
  simp [littleEndian, Nat.ofDigits_cons]

/-- Four bytes joined by shifting spell the same bitmap. -/
theorem join_eq_littleEndian (b0 b1 b2 b3 : UInt8) :
    b0.toUInt32 ||| (b1.toUInt32 <<< 8) ||| (b2.toUInt32 <<< 16) ||| (b3.toUInt32 <<< 24) =
      littleEndian [b0, b1, b2, b3] := by
  apply UInt32.toNat_inj.mp
  rw [Bits.toNat_join32, toNat_littleEndian]

/-- A lamp frame is taken over exactly when it shows something, as the bitmap its bytes spell. -/
theorem onTelltales_eq (p : Plugin) (f : CanFrame) (time : ℤ) :
    p.onTelltales (f, time) =
      match Event.lamps? (.telltales f time) with
      | some (bits, seen) => { p with lamps := bits, lampsSeenMs := seen }
      | none => p := by
  obtain ⟨two, four⟩ := take_toList f.data
  unfold Plugin.onTelltales Event.lamps?
  dsimp only
  by_cases short : f.dlc < 2
  · rw [if_pos short, if_pos short]
  rw [if_neg short, if_neg short]
  by_cases half : f.dlc < 4
  · have join := join_eq_littleEndian f.data[0] f.data[1] 0 0
    rw [if_neg (by simpa using half), if_pos half, two, littleEndian_two, ← join]
    simp
  · rw [if_pos (by simpa using half), if_neg half, four, ← join_eq_littleEndian]

/-- The lamps a plugin holds are those that its log shows last; a negative time stands for none. -/
def LampsAgree (log : List Event) (p : Plugin) : Prop :=
  Run.last Event.lamps? log = if 0 ≤ p.lampsSeenMs then some (p.lamps, p.lampsSeenMs) else none

/-- Events that are no lamp frames leave the agreement as it is. -/
theorem LampsAgree.tell {log events : List Event} {p q : Plugin} (agree : LampsAgree log p)
    (silent : ∀ e ∈ events, e.lamps? = none) (lamps : q.lamps = p.lamps)
    (seen : q.lampsSeenMs = p.lampsSeenMs) : LampsAgree (log ++ events) q := by
  unfold LampsAgree
  rw [Run.last_append _ _ silent, lamps, seen]
  exact agree

/-- The event shows no lamps seen at a negative time. -/
def Clocked (e : Event) : Prop := ∀ bits time, e.lamps? = some (bits, time) → 0 ≤ time

/-- A lamp frame shows what it shows at the time it was seen. -/
theorem clocked_telltales (f : CanFrame) {time : ℤ} (nonneg : 0 ≤ time) :
    Clocked (.telltales f time) := by
  intro bits seen shown
  simp only [Event.lamps?, Option.ite_none_left_eq_some, Option.some_inj, Prod.mk.injEq] at shown
  exact shown.2.2 ▸ nonneg

/-- A lamp frame that shows something is what the plugin holds and the log shows last. -/
theorem LampsAgree.lit {log : List Event} {p : Plugin} (agree : LampsAgree log p) {f : CanFrame}
    {time : ℤ} (clocked : Clocked (.telltales f time)) :
    LampsAgree (log ++ [.telltales f time]) (p.onTelltales (f, time)) := by
  unfold LampsAgree
  rw [Run.last_concat, onTelltales_eq]
  cases shown : Event.lamps? (.telltales f time) with
  | none => exact (Option.none_or).trans agree
  | some pair => exact (Option.some_or).trans (if_pos (clocked _ _ shown)).symm

/-- Every move keeps the agreement. -/
theorem LampsAgree.move {c : Config} {log events : List Event} {p q : Plugin}
    (agree : LampsAgree log p) (moved : Move c p events q) (clocked : ∀ e ∈ events, Clocked e) :
    LampsAgree (log ++ events) q := by
  -- Only a lamp frame touches the lamps.
  cases moved with
  | lit f time => exact agree.lit (clocked _ (by simp))
  | found | missing | failed | measured | lost | published =>
    exact agree.tell (by simp [Event.lamps?]) rfl rfl
  | dropped =>
    refine agree.tell ?_ rfl rfl
    split <;> simp [Event.lamps?]

section State

variable (p : Plugin) (now : ℤ) (s : VehicleState)

/-- Filling in a parameter lights no lamp. -/
theorem cap_lamps (pid : UInt8) (sig : Signal) {field : VehicleState → Double → VehicleState}
    (kept : ∀ s v, (field s v).lamps = s.lamps) : (p.cap now pid sig field s).lamps = s.lamps := by
  unfold Plugin.cap
  split
  · split
    · split
      · exact kept _ _
      · rfl
    · rfl
  · rfl

theorem fillPids_lamps : (p.fillPids now s).lamps = s.lamps := by
  unfold Plugin.fillPids
  dsimp only
  iterate 7 rw [cap_lamps]
  all_goals exact fun _ _ => rfl

theorem fillPower_lamps : (p.fillPower s).lamps = s.lamps := by
  unfold Plugin.fillPower
  dsimp only
  split
  · split <;> rfl
  · rfl

/-- A state shows the lamps of the last half second. -/
theorem state_lampsOn (c : Config) {log : List Event} {p : Plugin} (agree : LampsAgree log p) :
    (p.state c now).lamps = lampsOn log now := by
  have dark : (p.fillPower (p.fillPids now (bare c))).lamps = 0 := by
    rw [fillPower_lamps, fillPids_lamps]
    rfl
  unfold lampsOn
  rw [agree]
  by_cases seen : 0 ≤ p.lampsSeenMs
  · rw [if_pos seen]
    by_cases recent : now - p.lampsSeenMs ≤ 500
    · exact (congrArg VehicleState.lamps (if_pos ⟨seen, recent⟩)).trans (if_pos recent).symm
    · exact (congrArg VehicleState.lamps (if_neg (by omega))).trans (dark.trans (if_neg recent).symm)
  · rw [if_neg seen]
    exact (congrArg VehicleState.lamps (if_neg (by omega))).trans dark

end State

/-- A turn with a known vehicle brings no lamp frames of its own. -/
theorem poll_unlit (c : Config) (p : Plugin) (turn : Turn) :
    ∀ e ∈ (p.poll c turn).2, e.lamps? = none := by
  have publish (p : Plugin) : ∀ e ∈ (p.publishIfDue c turn).2, e.lamps? = none := by
    unfold Plugin.publishIfDue
    split <;> simp [Event.lamps?]
  have verdict (p : Plugin) (pid : UInt8) (v : Double) :
      ∀ e ∈ (p.plausibleAnswer pid v).2.2, e.lamps? = none := by
    -- A verdict tells at most of a filler.
    unfold Plugin.plausibleAnswer
    split
    · dsimp only
      split <;> simp [Event.lamps?]
    · simp
  unfold Plugin.poll
  split
  · exact publish p
  dsimp only
  split
  · exact List.forall_mem_cons.mpr ⟨rfl, List.forall_mem_append.mpr ⟨verdict _ _ _, publish _⟩⟩
  · split
    · exact List.forall_mem_cons.mpr ⟨rfl, by simp [Event.lamps?]⟩
    · exact List.forall_mem_cons.mpr ⟨rfl, publish _⟩

/-- Lamps are seen at the times of the lamp frames of the turns. -/
theorem log_clocked (c : Config) {turns : List Turn}
    (clock : ∀ turn ∈ turns, ∀ seen ∈ turn.lampFrames, 0 ≤ seen.2) :
    ∀ e ∈ Plugin.log c turns, Clocked e := by
  intro e told
  obtain ⟨turn, member, p, told⟩ := Run.mem_outputs _ told
  have frames : ∀ e ∈ turn.lampFrames.map (fun seen => Event.telltales seen.1 seen.2), Clocked e := by
    intro e listed
    obtain ⟨seen, brought, rfl⟩ := List.mem_map.mp listed
    exact clocked_telltales seen.1 (clock turn member seen brought)
  have unlit {e : Event} (dark : e.lamps? = none) : Clocked e := by
    intro bits time shown
    rw [dark] at shown
    cases shown
  -- Every turn starts with its lamp frames and shows no others.
  have shown {rest : List Event} (dark : ∀ e ∈ rest, e.lamps? = none)
      (told : e ∈ turn.lampFrames.map (fun seen => Event.telltales seen.1 seen.2) ++ rest) : Clocked e := by
    rcases List.mem_append.mp told with early | later
    · exact frames e early
    · exact unlit (dark e later)
  unfold Plugin.step at told
  dsimp only at told
  split at told
  · exact shown (poll_unlit c _ turn) told
  · split at told
    · refine shown ?_ told
      exact List.forall_mem_cons.mpr ⟨rfl, List.forall_mem_cons.mpr ⟨rfl, poll_unlit c _ turn⟩⟩
    · exact shown (by simp [Event.lamps?]) told

/-- A published state has the lamps that the log before it shows. -/
def Lit (before : List Event) : Event → Prop
  | .publish s now => s.lamps = lampsOn before now
  | _ => True

/-- Every move keeps the published lamps right. -/
theorem lit_move {c : Config} {log events : List Event} {p q : Plugin} (agree : LampsAgree log p)
    (moved : Move c p events q) (told : Run.Each Lit log) : Run.Each Lit (log ++ events) := by
  cases moved with
  | missing searching now =>
    have silent : LampsAgree (log ++ [.setLink false]) { p with values := fun _ => none } :=
      agree.tell (by simp [Event.lamps?]) rfl rfl
    rw [List.append_cons]
    exact Run.each_concat (Run.each_concat told trivial) (state_lampsOn now c silent)
  | published known now next => exact Run.each_concat told (state_lampsOn now c agree)
  | lit | failed | measured | lost => exact Run.each_concat told trivial
  | found =>
    rw [List.append_cons]
    exact Run.each_concat (Run.each_concat told trivial) trivial
  | dropped =>
    split
    · exact Run.each_concat told trivial
    · rw [List.append_cons]
      exact Run.each_concat (Run.each_concat told trivial) trivial

/-- In every run whose lamp frames come with a clock that is not negative the published lamps are right. -/
theorem run_lit (c : Config) {turns : List Turn} (clocked : ∀ e ∈ Plugin.log c turns, Clocked e) :
    Run.Each Lit (Plugin.log c turns) := by
  -- The lamps held and the lamps told are right as long as the clock was.
  have held := run_keeps (c := c)
    (I := fun log p => (∀ e ∈ log, Clocked e) → LampsAgree log p ∧ Run.Each Lit log)
    (fun _ => ⟨rfl, Run.each_nil⟩)
    (by
      intro log p events q before moved clocked
      obtain ⟨agree, told⟩ := before fun e member => clocked e (List.mem_append_left _ member)
      refine ⟨agree.move moved ?_, lit_move agree moved told⟩
      exact fun e member => clocked e (List.mem_append_right _ member)) turns
  exact (held clocked).2

/--
While the host is live, every publish of the plugin puts the last lamp frame's bitmap on the wire,
cut to the twenty lamps there are, if the frame was seen at most half a second ago; otherwise no
lamp is on.
-/
theorem published_lamps (c : Config) {turns : List Turn}
    (clock : ∀ turn ∈ turns, ∀ seen ∈ turn.lampFrames, 0 ≤ seen.2) (m : Machine)
    (proxyState counter pluginMajor pluginMinor : UInt8) (before after : List Event)
    (s : VehicleState) (now : ℤ) (split : Plugin.log c turns = before ++ .publish s now :: after) :
    (receive ((framesFrom m s true proxyState counter pluginMajor pluginMinor).wire m)).telltales.bits =
      lampsOn before now &&& 0xFFFFF := by
  have lit : s.lamps = lampsOn before now :=
    run_lit c (log_clocked c clock) before (.publish s now) after split
  -- Packing masks once more what the mapping has already cut.
  calc (receive ((framesFrom m s true proxyState counter pluginMajor pluginMinor).wire m)).telltales.bits
      = (unpackTelltales (packTelltales ⟨telltalesFrom s.lamps⟩)).bits := rfl
    _ = telltalesFrom s.lamps &&& ~~~ttReservedMask :=
        congrArg Telltales.bits (unpackTelltales_packTelltales _)
    _ = lampsOn before now &&& 0xFFFFF := by
        rw [telltalesFrom_eq, lit, UInt32.and_assoc]
        rfl

/-- A frame of two bytes lights the brake lamp and the high beam, whatever the buffer holds behind them. -/
theorem published_lamps_short :
    let f : CanFrame := ⟨0x420, 2, #v[0x48, 0, 0xFF, 0xFF, 0, 0, 0, 0]⟩
    let s := (Plugin.new.onTelltales (f, 700)).state ⟨cpSourceLive, 100⟩ 1000
    (receive ((framesFrom .indefinite s true 2 0 1 0).wire .indefinite)).telltales.bits = 0x48 := by
  intro f s
  let turns := [{ Turn.silent 1000 with lampFrames := [(f, 700)] }]
  have clock : ∀ turn ∈ turns, ∀ seen ∈ turn.lampFrames, 0 ≤ seen.2 := by simp [turns]
  have lamps : lampsOn [.telltales f 700, .setLink false] 1000 &&& 0xFFFFF = 0x48 := by decide +kernel
  exact (published_lamps ⟨cpSourceLive, 100⟩ clock .indefinite 2 0 1 0
    [.telltales f 700, .setLink false] [] s 1000 rfl).trans lamps

end CanProxy.Ice
