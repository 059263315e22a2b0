import CanProxy.Proofs.Ice.Loop

/-! From a controller's answer to the gauge: what a frame of the proxy shows, the vehicle said. -/

namespace CanProxy.Ice

open Numeric

/-- Every decoded value is a number, and none is large. -/
theorem decode_bounded {pid : UInt8} {p : Vector UInt8 6} {len : Nat} {v : Double}
    (decoded : decode pid p len = some v) : ∃ q, v = .finite q ∧ |q| < 2 ^ 32 := by
  have byte (b : UInt8) : 0 ≤ (b.toNat : ℚ) ∧ (b.toNat : ℚ) ≤ 255 :=
    ⟨Nat.cast_nonneg _, by exact_mod_cast Nat.le_of_lt_succ b.toNat_lt⟩
  obtain ⟨low0, high0⟩ := byte p[0]
  obtain ⟨low1, high1⟩ := byte p[1]
  have word : 0 ≤ ((bitmapWord p).toNat : ℚ) ∧ ((bitmapWord p).toNat : ℚ) ≤ 2 ^ 32 :=
    ⟨Nat.cast_nonneg _, by exact_mod_cast (bitmapWord p).toNat_lt.le⟩
  have two (d : ℚ) (nonzero : d ≠ 0) :
      twoBytes p / .finite d = .finite ((p[0].toNat * 256 + p[1].toNat) / d) :=
    Double.finite_div _ nonzero
  unfold decode at decoded
  -- Each row of the table is a byte or two, or the word, on a scale of its own.
  split at decoded
  · cases decoded
  split at decoded
  · cases decoded
    refine ⟨p[0].toNat * 100 / 255, Double.finite_div _ (by norm_num), ?_⟩
    exact abs_lt.mpr ⟨by linarith, by linarith⟩
  split at decoded
  · cases decoded
    refine ⟨p[0].toNat + -40, rfl, ?_⟩
    exact abs_lt.mpr ⟨by linarith, by linarith⟩
  split at decoded
  · cases decoded
    refine ⟨_, two 4 (by norm_num), ?_⟩
    exact abs_lt.mpr ⟨by linarith, by linarith⟩
  split at decoded
  · cases decoded
    refine ⟨p[0].toNat, rfl, ?_⟩
    exact abs_lt.mpr ⟨by linarith, by linarith⟩
  split at decoded
  · cases decoded
    refine ⟨_, two 100 (by norm_num), ?_⟩
    exact abs_lt.mpr ⟨by linarith, by linarith⟩
  split at decoded
  · cases decoded
    refine ⟨_, two 1000 (by norm_num), ?_⟩
    exact abs_lt.mpr ⟨by linarith, by linarith⟩
  split at decoded
  · cases decoded
    refine ⟨(bitmapWord p).toNat / 10, Double.finite_div _ (by norm_num), ?_⟩
    exact abs_lt.mpr ⟨by linarith [word.1], by linarith [word.2]⟩
  · cases decoded

/-- What a gauge shows for an answer: the nearest point of the signal's grid, or the power state. -/
def gauge (sig : Signal) (q : ℚ) : Double :=
  match sig.scale? with
  | some scale => .finite (saturate scale.lo scale.hi (roundHalfAway (q / scale.lsb)) * scale.lsb)
  | none => valueOf sig (.finite q)

/-- A signal that is shown is read as its gauge of the answer behind it. -/
theorem reading_gauge {timeout now time : ℤ} {past : List Call} {sig : Signal} {s : VehicleState}
    (shown : Shown timeout past now sig s time) {m : Machine} {frame : Sent} (own : sig.frame = frame.id)
    {proxyState counter pluginMajor pluginMinor : UInt8}
    (data : frame.data =
      (framesFrom m s true proxyState counter pluginMajor pluginMinor).wire m frame.id)
    {pid : UInt8} (read : behind sig = some pid) {q : ℚ} (value : s.quantity sig = valueOf sig (.finite q))
    (small : |q| < 2 ^ 32) : (receive fun _ => frame.data).reading sig = gauge sig q := by
  unfold gauge
  cases graded : sig.scale? with
  | some scale =>
    have plain : valueOf sig (.finite q) = .finite q := by
      cases sig <;> first | rfl | cases graded
    refine shown.reading own data graded (value.trans plain) ?_
    -- The coarsest count of the largest answer is far from the end of the conversion's range.
    have coarse := scale_coarse graded
    rw [abs_div, abs_of_pos scale.positive, div_lt_iff₀ scale.positive]
    linarith
  | none =>
    have coded : sig.coded = true := by
      cases sig <;> cases read <;> first | rfl | cases graded
    exact (shown.coded own data coded).trans value

/--
Whatever the proxy shows of a car, one of its controllers said.

While the plugin's loop reports to the proxy in any interleaving with the ticks, a signal that a frame
on the bus shows is read as the gauge of an answer that one controller gave for the parameter behind
it, with the formula of the parameter computed exactly. The controller's bitmaps advertise that parameter, the answer was at most three of its intervals
old when it was published, the publish is at most the timeout old, and the link is up. The
capabilities in a heartbeat are those of parameters that the same controller advertised.
-/
theorem shown_heard (c : Config) (broadcastId : Option UInt32) (turns : List BusTurn) (m : Machine)
    (publisher : Publisher) {past : List Call} {now : ℤ} {frame : Sent}
    (driven : Drives ((Loop.log c broadcastId turns).filterMap Event.report?) past)
    (sent : frame ∈ Proxy.sentBy m publisher past now) :
    let received := receive fun _ => frame.data
    ∃ ecu,
      (∀ sig, sig.frame = frame.id → received.available sig = true →
        latestLink past = some true ∧
        ∃ s called published pid q heard, latestPublish past = some (s, called) ∧
          now - called ≤ publisher.timeout ∧ .publish s published ∈ Loop.log c broadcastId turns ∧
          published - heard ≤ 3 * c.interval pid ∧ behind sig = some pid ∧
          Offered broadcastId turns ecu pid ∧ Heard broadcastId turns ecu pid (.finite q) heard ∧
          received.reading sig = gauge sig q) ∧
      (frame.id = .status → ∀ i, Bits.mem received.status.capabilities i = true →
        ∃ sig pid, (capabilityFor sig).index = i ∧ behind sig = some pid ∧
          Offered broadcastId turns ecu pid) := by
  intro received
  cases latest : latestPublish past with
  | none =>
    -- Before any publish nothing is shown and nothing advertised.
    refine ⟨0, fun sig own available => ?_, fun named i member => ?_⟩
    · obtain ⟨s, time, shown, -⟩ := shown_of_available sent own available
      cases latest.symm.trans shown.published
    · have blank : latestState past = .zero := by
        rw [latestState, latest]
        rfl
      rw [show received.status.capabilities = _ from sent_capabilities sent named, blank,
        mem_capabilitiesFrom] at member
      obtain ⟨sig, capable, -⟩ := member
      rw [show VehicleState.zero.capable = 0 from rfl, Bits.mem_zero] at capable
      cases capable
  | some publish =>
    obtain ⟨s, called⟩ := publish
    obtain ⟨before, e, after, -, split, reported, -⟩ := driven.published latest
    -- Only a publish of the plugin reports one.
    obtain ⟨published, rfl⟩ : ∃ published, e = .publish s published := by
      cases e with
      | publish s' published =>
        cases reported
        exact ⟨published, rfl⟩
      | _ => cases reported
    have state : latestState past = s := by
      rw [latestState, latest]
      rfl
    obtain ⟨ecu, capable, valid⟩ := published_traced c broadcastId turns split
    refine ⟨ecu, fun sig own available => ?_, fun named i member => ?_⟩
    · obtain ⟨s', time, shown, _, _, _, _, data⟩ := shown_of_available sent own available
      obtain ⟨rfl, rfl⟩ := Prod.mk.inj (Option.some.inj (latest.symm.trans shown.published))
      obtain ⟨sig', pid, v, heard, place, read, value, answer, recent⟩ := valid sig.index shown.valid
      obtain rfl := Signal.index_inj.mp place
      obtain ⟨offering, pid', place, read', offered⟩ := capable sig'.index shown.capable
      obtain rfl := Signal.index_inj.mp place
      obtain rfl := Option.some.inj (read.symm.trans read')
      obtain ⟨turn, member, time, f, r, received, accepted, decoded⟩ := answer
      obtain ⟨q, rfl, small⟩ := decode_bounded decoded
      refine ⟨shown.linked, s, called, published, pid, q, heard, rfl, shown.recent, ?_, recent, read,
        offered, ⟨turn, member, time, f, r, received, accepted, decoded⟩, ?_⟩
      · rw [split]
        simp
      · exact reading_gauge shown own data read value small
    · rw [show received.status.capabilities = _ from sent_capabilities sent named, state,
        mem_capabilitiesFrom] at member
      obtain ⟨sig, advertised, place⟩ := member
      obtain ⟨sig', pid, same, read, offered⟩ := capable sig.index advertised
      obtain rfl := Signal.index_inj.mp same
      exact ⟨sig', pid, place, read, offered⟩

/-- A car that answers with sixty has its speed shown, whatever another controller answers before it. -/
theorem shown_heard_speed :
    let c : Config := ⟨cpSourceLive, 100⟩
    let turn : BusTurn :=
      { now := 1000
        bus := [.frame ⟨0x7E8, 8, #v[0x06, 0x41, 0x00, 0x00, 0x08, 0x00, 0x00, 0x00]⟩,
          .frame ⟨0x7E9, 8, #v[0x03, 0x41, 0x0D, 0x50, 0x00, 0x00, 0x00, 0x00]⟩,
          .frame ⟨0x7E8, 8, #v[0x03, 0x41, 0x0D, 0x3C, 0x00, 0x00, 0x00, 0x00]⟩]
        seenAt := fun _ => 1000
        answeredAt := 1000
        checkedAt := 1000
        publishedAt := 1000
        rescheduledAt := 1000 }
    let s := (Run.final (Loop.step c none) .new [turn]).plugin.state c 1000
    let past : List Call := [.tick 0, .setLink true 0, .publish s 0]
    let frame : Sent := ⟨50000000, .motion, #v[0x70, 0x17, 0xFF, 0xFF, 0xFF, 0xFF, 0x00, 0x00]⟩
    latestLink past = some true ∧ ∃ ecu q heard, Heard none [turn] ecu pidSpeed (.finite q) heard ∧
      (receive fun _ => frame.data).reading .speed = gauge .speed q := by
  intro c turn s past frame
  have driven : past.filterMap Call.report? <+: (Loop.log c none [turn]).filterMap Event.report? := by
    decide +kernel
  have sent : frame ∈ Proxy.sentBy Machine.indefinite (Publisher.new 1000000000 1 0) past 50000000 := by
    decide +kernel
  obtain ⟨ecu, shown, -⟩ := shown_heard c none [turn] Machine.indefinite (Publisher.new 1000000000 1 0)
    driven sent
  obtain ⟨up, s', called, published, pid, q, heard, -, -, -, -, read, -, answer, value⟩ :=
    shown .speed rfl (by decide +kernel)
  cases read
  exact ⟨up, ecu, q, heard, answer, value⟩

end CanProxy.Ice
