import CanProxy.Emu.History

/-! What decoding a record writes, and what its verdict says. -/

namespace CanProxy.Emu

open Numeric

/-- The values a decoder checks are all in range. -/
def Did.inRange (did : Did) (d : List UInt8) : Bool :=
  match did with
  | .pack => decide ((Pack.read d).charging ≤ 3)
  | .range => true
  | .drive => decide ((Drive.read d).gear ≤ 4) && decide ((Drive.read d).powerState ≤ 3)
  | .assist => decide ((Assist.read d).ecoScore ≤ 100) && decide ((Assist.read d).collisionRisk ≤ 3)

/-- The records with one of them read from its bytes. -/
def Records.overwrite (r : Records) (did : Did) (d : List UInt8) : Records :=
  match did with
  | .pack => { r with pack := Pack.read d }
  | .range => { r with range := Range.read d }
  | .drive => { r with drive := Drive.read d }
  | .assist => { r with assist := Assist.read d }

/-- A record that is too short is neither accepted nor written. -/
theorem decode_short (r : Records) {did : Did} {d : List UInt8} (short : d.length < did.length) :
    r.decode did d = (false, r) := by
  -- Each decoder tests the length before it does anything else.
  cases did with
  | pack => simp only [Records.decode, decodePack, if_pos (show d.length < 7 from short)]
  | range => simp only [Records.decode, decodeRange, if_pos (show d.length < 8 from short)]
  | drive => simp only [Records.decode, decodeDrive, if_pos (show d.length < 6 from short)]
  | assist => simp only [Records.decode, decodeAssist, if_pos (show d.length < 6 from short)]

/-- A record that is long enough is written before its values are checked. -/
theorem decode_long (r : Records) {did : Did} {d : List UInt8} (long : ¬d.length < did.length) :
    r.decode did d = (did.inRange d, r.overwrite did d) := by
  -- Past the length test each decoder writes its fields and returns its own check of them.
  cases did with
  | pack => simp only [Records.decode, decodePack, if_neg (show ¬d.length < 7 from long)]; rfl
  | range => simp only [Records.decode, decodeRange, if_neg (show ¬d.length < 8 from long)]; rfl
  | drive => simp only [Records.decode, decodeDrive, if_neg (show ¬d.length < 6 from long)]; rfl
  | assist => simp only [Records.decode, decodeAssist, if_neg (show ¬d.length < 6 from long)]; rfl

/-- The verdict depends on the bytes only. -/
theorem decode_verdict (r : Records) (did : Did) (d : List UInt8) :
    (r.decode did d).1 = accepts did d := by
  -- Neither the length test nor the checks look at the record that is overwritten.
  unfold accepts
  by_cases short : d.length < did.length
  · rw [decode_short r short, decode_short _ short]
  · rw [decode_long r short, decode_long _ short]

/-- Only a record that is long enough is accepted, and then its values are in range. -/
theorem accepts_iff (did : Did) (d : List UInt8) :
    accepts did d = true ↔ did.length ≤ d.length ∧ did.inRange d = true := by
  -- The verdict is the length test and the checks together.
  unfold accepts
  by_cases short : d.length < did.length
  · rw [decode_short _ short]
    simp [short]
  · rw [decode_long _ short]
    simp [not_lt.mp short]

theorem length_of_accepts {did : Did} {d : List UInt8} (good : accepts did d = true) :
    did.length ≤ d.length :=
  ((accepts_iff did d).mp good).1

/-- A written record holds the values of its bytes, whatever the verdict on them. -/
theorem decode_quantity (r : Records) {did : Did} {d : List UInt8} (long : did.length ≤ d.length)
    {hybrid : Bool} {sig : Signal} (stored : didOf hybrid sig = some did) :
    (r.decode did d).2.quantity sig = recorded did d sig := by
  -- What was there before is replaced in full, so any two starting points give the same values.
  unfold recorded
  rw [decode_long r (not_lt.mpr long), decode_long _ (not_lt.mpr long)]
  cases did <;> cases sig <;> first | rfl | simp [didOf] at stored

/-- A record leaves the signals of the other records alone. -/
theorem decode_other (r : Records) {did other : Did} (d : List UInt8) {hybrid : Bool} {sig : Signal}
    (stored : didOf hybrid sig = some other) (different : other ≠ did) :
    (r.decode did d).2.quantity sig = r.quantity sig := by
  -- Each signal belongs to one kind of record, and only that kind was written.
  by_cases short : d.length < did.length
  · rw [decode_short r short]
  · rw [decode_long r short]
    cases did <;> cases sig <;> first | rfl | (cases hybrid <;> simp_all [didOf])

/-- A rejected record differs from an accepted one in a signal that is checked. -/
theorem recorded_ne_of_rejected {did : Did} {good bad : List UInt8} (hybrid : Bool)
    (accepted : accepts did good = true) (long : did.length ≤ bad.length)
    (rejected : accepts did bad = false) :
    ∃ sig, didOf hybrid sig = some did ∧ recorded did bad sig ≠ recorded did good sig := by
  -- Both records are long enough, so it is the range of some value that tells them apart.
  obtain ⟨goodLong, goodRange⟩ := (accepts_iff did good).mp accepted
  have badRange : did.inRange bad = false := by
    have := (accepts_iff did bad).not.mp (by simp [rejected])
    simpa [long] using this
  -- Equal values would give equal verdicts.
  by_contra same
  push Not at same
  have value (sig : Signal) (stored : didOf hybrid sig = some did) :
      (Records.zero.overwrite did bad).quantity sig = (Records.zero.overwrite did good).quantity sig := by
    have equal := same sig stored
    unfold recorded at equal
    rwa [decode_long _ (not_lt.mpr long), decode_long _ (not_lt.mpr goodLong)] at equal
  -- Each checked value is a signal of the record, read off it without loss.
  have verdict : did.inRange bad = did.inRange good := by
    cases did with
    | pack =>
      have charging := value .chargingState rfl
      simp only [Records.quantity, Records.overwrite, Double.ofInt, Double.finite.injEq, Int.cast_inj]
        at charging
      simp only [Did.inRange, charging]
    | range => rfl
    | drive =>
      have gear := value .gear rfl
      have powerState := value .powerState rfl
      simp only [Records.quantity, Records.overwrite, Double.ofInt, Double.finite.injEq, Int.cast_inj]
        at gear powerState
      simp only [Did.inRange, gear, powerState]
    | assist =>
      have ecoScore := value .ecoScore rfl
      have collisionRisk := value .collisionRisk rfl
      simp only [Records.quantity, Records.overwrite, Double.ofInt, Double.finite.injEq, Int.cast_inj]
        at ecoScore collisionRisk
      simp only [Did.inRange, ecoScore, collisionRisk]
  rw [verdict, goodRange] at badRange
  cases badRange

end CanProxy.Emu
