import CanProxy.Replay.Line

/-! A recorded line is read back as the frame it was recorded for, unless it has no bytes. -/

namespace CanProxy.Replay

open Numeric

section Bytes

variable (bytes : List UInt8)

theorem length_hexByte (b : UInt8) : (hexByte b).length = 2 :=
  -- A byte has at most two digits, and is filled up to them.
  Text.length_pad (Text.length_ofNat_le (by decide) (by decide) b.toNat_lt)

/-- The digits of a byte spell the byte. -/
theorem hexByte_spells (b : UInt8) : Text.Spells 16 (hexByte b) b.toNat :=
  Text.spells_pad (by decide) le_rfl 2 b.toNat

theorem length_hexBytes : (bytes.flatMap hexByte).length = 2 * bytes.length := by
  induction bytes with
  | nil => rfl
  | cons b rest ih =>
    rw [List.flatMap_cons, List.length_append, length_hexByte, ih, List.length_cons]
    omega

/-- Recorded bytes consist of digits. -/
theorem hexBytes_isDigit : ∀ c ∈ bytes.flatMap hexByte, Text.isDigit 16 c = true := by
  intro c member
  obtain ⟨b, -, digit⟩ := List.mem_flatMap.mp member
  exact (hexByte_spells b).digits c digit

/-- Each pair of the recorded digits is read back as its byte. -/
theorem pairByte_hexBytes (unset : UInt8) {i : Nat} (inside : i < bytes.length) :
    pairByte unset (bytes.flatMap hexByte) i = bytes[i] := by
  -- The pairs of the bytes before it take up everything that the reader leaves out.
  have pair : (bytes.flatMap hexByte).drop (2 * i) =
      hexByte bytes[i] ++ (bytes.drop (i + 1)).flatMap hexByte := by
    have before : ((bytes.take i).flatMap hexByte).length = 2 * i := by
      rw [length_hexBytes, List.length_take_of_le inside.le]
    calc (bytes.flatMap hexByte).drop (2 * i)
        = ((bytes.take i).flatMap hexByte ++ (bytes.drop i).flatMap hexByte).drop (2 * i) := by
          rw [← List.flatMap_append, List.take_append_drop]
      _ = (bytes.drop i).flatMap hexByte := List.drop_left' before
      _ = hexByte bytes[i] ++ (bytes.drop (i + 1)).flatMap hexByte := by
          rw [List.drop_eq_getElem_cons inside, List.flatMap_cons]
  have read := Scan.integerWithin_digits (hexByte_spells bytes[i]) le_rfl
    ((bytes.drop (i + 1)).flatMap hexByte)
  rw [length_hexByte] at read
  have byte : bytes[i].toNat < 2 ^ 32 := bytes[i].toNat_lt.trans (by decide)
  simp only [pairByte, pair, read, Scan.toUint_unsigned byte, UInt8.ofNat_toNat]

end Bytes

section Line

variable {interface : Text}

/-- The name of an interface can be read back as one word. -/
structure Word (interface : Text) : Prop where
  nonempty : interface ≠ []
  short : interface.length ≤ 15
  solid : ∀ c ∈ interface, Text.isspace c = false ∧ c ≠ Text.nul

/-- A virtual interface as it is usually named. -/
theorem word_vcan0 : Word "vcan0".toList := by
  have solid : ∀ c ∈ ['v', 'c', 'a', 'n', '0'], Text.isspace c = false ∧ c ≠ Text.nul := by
    intro c member
    simp only [List.mem_cons, List.not_mem_nil, or_false] at member
    rcases member with rfl | rfl | rfl | rfl | rfl <;> decide
  exact ⟨by decide, by decide, solid⟩

theorem Word.cString (word : Word interface) : Text.cString interface = interface :=
  Text.cString_eq fun c member => (word.solid c member).2

/-- The digits of an identifier, at least three of them, spell the identifier. -/
theorem hexId_spells (id : UInt32) :
    Text.Spells 16 (Text.pad 3 (Text.ofNat 16 id.toNat)) id.toNat :=
  Text.spells_pad (by decide) le_rfl 3 id.toNat

/-- Nothing in a recorded line ends it early. -/
theorem cString_recordLine (word : Word interface) (sec usec : ℤ) (f : CanFrame) :
    Text.cString (recordLine sec usec interface f) = recordLine sec usec interface f := by
  apply Text.cString_eq
  intro c member
  simp only [recordLine, word.cString, List.mem_cons, List.mem_append] at member
  -- Each piece is digits, the name of the interface, or a separator of its own.
  rcases member with rfl | seconds | rfl | micros | rfl | rfl | name | rfl | id | rfl | bytes
  · decide
  · exact Scan.ofInt_ne_nul sec 0 c seconds
  · decide
  · exact Scan.ofInt_ne_nul usec 6 c micros
  · decide
  · decide
  · exact (word.solid c name).2
  · decide
  · exact Scan.digit_ne_nul ((hexId_spells f.id).digits c id)
  · decide
  · exact Scan.digit_ne_nul (hexBytes_isDigit _ c bytes)

/-- The five conversions of a recorded line, the last of which needs a byte. -/
theorem scanLine_recordLine (word : Word interface) (sec usec : ℤ) (f : CanFrame) :
    scanLine (recordLine sec usec interface f) =
      (Scan.word 63 ((f.data.toList.take f.dlc.toNat).flatMap hexByte)).map fun (hex, _) =>
        ⟨Scan.toUlong (decide (sec < 0), sec.natAbs), Scan.toUlong (decide (usec < 0), usec.natAbs),
          interface, f.id.toNat, hex⟩ := by
  -- Each conversion reads its piece and leaves the separator behind it for the next match.
  have seconds (rest : Text) := Scan.integer_ofInt sec 0 (Scan.stops_cons (c := '.') (by decide) rest)
  have micros (rest : Text) := Scan.integer_ofInt usec 6 (Scan.stops_cons (c := ')') (by decide) rest)
  have name (rest : Text) : Scan.word 31 (Scan.skip (' ' :: (interface ++ ' ' :: rest))) =
      some (interface, ' ' :: rest) := by
    rw [Scan.skip_cons rfl, Scan.word_skip]
    exact Scan.word_stop word.nonempty (word.short.trans (by decide))
      (fun c member => (word.solid c member).1) (by rintro _ ⟨⟩; decide)
  have id (rest : Text) :
      Scan.integer 16 (Scan.skip (' ' :: (Text.pad 3 (Text.ofNat 16 f.id.toNat) ++ '#' :: rest))) =
        some ((false, f.id.toNat), '#' :: rest) := by
    rw [Scan.skip_cons rfl, Scan.integer_skip]
    exact Scan.integer_digits (hexId_spells f.id) le_rfl (Scan.stops_cons (by decide) rest)
  rw [scanLine, cString_recordLine word, recordLine, word.cString]
  simp only [Scan.literal_cons, Option.bind_eq_bind, Option.bind_some, seconds, micros, name, id,
    Scan.toUint_unsigned f.id.toNat_lt]
  cases Scan.word 63 ((f.data.toList.take f.dlc.toNat).flatMap hexByte) <;> rfl

/-- A recorded line without bytes is refused: the last conversion needs a character. -/
theorem parseLine_empty (word : Word interface) (sec usec : ℤ) {f : CanFrame} (empty : f.dlc = 0)
    (unset : Nat → UInt8) (r : Rec) : parseLine unset (recordLine sec usec interface f) r = none := by
  rw [parseLine, scanLine_recordLine word, empty]
  rfl

/-- A recorded line with bytes is read back, its numbers as unsigned ones. -/
theorem parseLine_recordLine (word : Word interface) (sec usec : ℤ) {f : CanFrame} (some : f.dlc ≠ 0)
    (fits : f.dlc ≤ 8) (unset : Nat → UInt8) (r : Rec) :
    ∃ read, parseLine unset (recordLine sec usec interface f) r = .some read ∧
      read.t = .ofInt (Scan.toUlong (decide (sec < 0), sec.natAbs)) +
        .ofInt (Scan.toUlong (decide (usec < 0), usec.natAbs)) / .ofInt 1000000 ∧
      read.id = f.id ∧ read.dlc = f.dlc ∧ ∀ i : Fin 8, i < f.dlc.toNat →
        getElem read.data i i.isLt = getElem f.data i i.isLt := by
  set bytes := f.data.toList.take f.dlc.toNat with held
  have few : f.dlc.toNat ≤ 8 := UInt8.le_iff_toNat_le.mp fits
  have count : bytes.length = f.dlc.toNat := by
    rw [held, List.length_take, Vector.length_toList, Nat.min_eq_left few]
  have positive : 0 < f.dlc.toNat := Nat.pos_of_ne_zero fun zero => some (UInt8.toNat_inj.mp zero)
  -- There is at least one byte, so the last conversion reads all the digits.
  have hex : Scan.word 63 (bytes.flatMap hexByte) = .some (bytes.flatMap hexByte, []) := by
    have digits : (bytes.flatMap hexByte).length = 2 * f.dlc.toNat := by rw [length_hexBytes, count]
    have read : Scan.word 63 (bytes.flatMap hexByte ++ []) = .some (bytes.flatMap hexByte, []) :=
      Scan.word_stop (List.ne_nil_of_length_pos (by omega)) (by omega)
        (fun c member => (Scan.digit_plain (hexBytes_isDigit _ c member) le_rfl).1) nofun
    rwa [List.append_nil] at read
  have pairs : (bytes.flatMap hexByte).length / 2 = f.dlc.toNat := by
    rw [length_hexBytes, count]
    omega
  have scanned := scanLine_recordLine word sec usec f
  rw [← held, hex] at scanned
  refine ⟨_, by rw [parseLine, scanned]; rfl, rfl, UInt32.ofNat_toNat, ?_, ?_⟩
  · simp only [pairs, if_neg (not_lt.mpr few), UInt8.ofNat_toNat]
  · intro i inside
    have listed : (i : Nat) < bytes.length := by omega
    simp only [pairs, if_neg (not_lt.mpr few)]
    rw [Fin.getElem_fin, Vector.getElem_ofFn, if_pos inside, pairByte_hexBytes bytes _ listed]
    simp [held]

end Line

/-- What was read back is what was recorded: the frame with its bytes, and the time. -/
structure Agrees (r : Rec) (sec usec : ℤ) (f : CanFrame) : Prop where
  time : r.t = .finite (sec + usec / 1000000)
  id : r.id = f.id
  dlc : r.dlc = f.dlc
  data : ∀ i : Fin 8, i < f.dlc.toNat → getElem r.data i i.isLt = getElem f.data i i.isLt

/-- Seconds are read as unsigned ones, so that only those before the epoch come out as others. -/
theorem seconds_read_iff {sec : ℤ} (fits : -2 ^ 63 ≤ sec ∧ sec < 2 ^ 63) :
    (Scan.toUlong (decide (sec < 0), sec.natAbs) : ℤ) = sec ↔ 0 ≤ sec := by
  by_cases before : sec < 0
  · -- What is read is positive, and the seconds are not.
    rw [decide_eq_true before, Scan.toUlong_negative (by omega) (by omega)]
    omega
  · rw [decide_eq_false before, Scan.toUlong_unsigned (by omega)]
    omega

/-- The time that is computed from the numbers read is the one recorded, from the epoch on only. -/
theorem time_read_iff {sec usec : ℤ} (fits : -2 ^ 63 ≤ sec ∧ sec < 2 ^ 63)
    (micros : 0 ≤ usec ∧ usec < 10 ^ 6) :
    Double.ofInt (Scan.toUlong (decide (sec < 0), sec.natAbs)) +
      Double.ofInt (Scan.toUlong (decide (usec < 0), usec.natAbs)) / Double.ofInt 1000000 =
        .finite (sec + usec / 1000000) ↔ 0 ≤ sec := by
  have part : (Scan.toUlong (decide (usec < 0), usec.natAbs) : ℤ) = usec :=
    (seconds_read_iff (by omega)).mpr micros.1
  rw [part, ← seconds_read_iff fits]
  generalize (Scan.toUlong (decide (sec < 0), sec.natAbs) : ℤ) = read
  -- The microseconds are the same on both sides, so the seconds decide.
  rw [Double.ofInt, Double.ofInt, Double.ofInt, Double.finite_div _ (by norm_num), Double.finite_add,
    Double.finite.injEq, Int.cast_ofNat, add_left_inj, Int.cast_inj]

/-- A recorded frame is read back exactly when it has bytes and its time is not before 1970. -/
theorem recorded_read_back_iff (f : CanFrame) (sec usec : ℤ) (interface : Text) (unset : Nat → UInt8)
    (r : Rec) (fits : f.dlc ≤ 8) (seconds : -2 ^ 63 ≤ sec ∧ sec < 2 ^ 63)
    (micros : 0 ≤ usec ∧ usec < 10 ^ 6) (word : Word interface) :
    (∃ read, parseLine unset (recordLine sec usec interface f) r = some read ∧ Agrees read sec usec f) ↔
      f.dlc ≠ 0 ∧ 0 ≤ sec := by
  constructor
  · rintro ⟨read, accepted, agrees⟩
    have some : f.dlc ≠ 0 := by
      intro empty
      rw [parseLine_empty word sec usec empty] at accepted
      cases accepted
    obtain ⟨again, same, time, -⟩ := parseLine_recordLine word sec usec some fits unset r
    cases accepted.symm.trans same
    exact ⟨some, (time_read_iff seconds micros).mp (time.symm.trans agrees.time)⟩
  · rintro ⟨some, epoch⟩
    obtain ⟨read, accepted, time, id, dlc, data⟩ := parseLine_recordLine word sec usec some fits unset r
    exact ⟨read, accepted, time.trans ((time_read_iff seconds micros).mpr epoch), id, dlc, data⟩

/-- An answer of three bytes is read back from its line. -/
theorem recorded_read_back_iff_answer :
    let answer : CanFrame := ⟨0x7E8, 3, #v[0x02, 0x41, 0x0C, 0, 0, 0, 0, 0]⟩
    ∃ read, parseLine (fun _ => 0) (recordLine 1 1 "vcan0".toList answer)
        ⟨.nan, 0, 0, Vector.replicate 8 0⟩ = some read ∧ Agrees read 1 1 answer := by
  intro answer
  exact (recorded_read_back_iff _ 1 1 _ _ _ (by decide) (by decide) (by decide) word_vcan0).mpr (by decide)

/-- A frame without bytes is recorded, and its line is refused. -/
theorem frame_without_bytes_lost :
    recordLine 1 1 "vcan0".toList ⟨0x7E8, 0, Vector.replicate 8 0⟩ = "(1.000001) vcan0 7E8#".toList ∧
    ∀ unset r, parseLine unset "(1.000001) vcan0 7E8#".toList r = none := by
  refine ⟨by decide, ?_⟩
  intro unset r
  rw [parseLine, show scanLine "(1.000001) vcan0 7E8#".toList = none from rfl]
  rfl

end CanProxy.Replay
