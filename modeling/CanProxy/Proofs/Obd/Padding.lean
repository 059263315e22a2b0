import CanProxy.Obd.Traced
import CanProxy.Proofs.Obd.Discovery

/-! Responses are read up to their declared length: neither padding nor extra bytes reach a value. -/

namespace CanProxy

open Numeric Reading

theorem bytesOf_getElem {size : Nat} (buffer : Vector UInt8 size) {i : Nat} (inside : i < size) :
    bytesOf buffer i = buffer[i] := by
  rw [bytesOf, Vector.getElem?_eq_getElem inside, Option.getD_some]

namespace Traced

/-- Reading a frame byte by byte parses it. -/
theorem run_parseSingleFrame (frame : Vector UInt8 8) (dlc : UInt8) :
    (parseSingleFrame dlc).run (bytesOf frame) = CanProxy.parseSingleFrame frame dlc := by
  -- What is copied stands three bytes further in the frame, and zeros follow it.
  have copied (n : Nat) (i : Fin 6) :
      ((List.range' 3 n).map (bytesOf frame)).getD i.val 0 =
        if i.val < n then frame[i.val + 3]?.getD 0 else 0 := by
    rw [List.getD_eq_getElem?_getD, List.getElem?_map]
    split
    next within => simp [within, bytesOf, Nat.add_comm]
    next beyond => simp [beyond]
  unfold parseSingleFrame CanProxy.parseSingleFrame
  simp only [apply_ite (run (bytesOf frame)), run_bind, run_cell, run_cells, run_pure, copied,
    declaredLength, bytesOf_getElem frame Place.eight0, bytesOf_getElem frame Place.eight1,
    bytesOf_getElem frame Place.eight2]

/-- Nothing in a frame is read beyond its declared length. -/
theorem reads_parseSingleFrame (frame : Vector UInt8 8) (dlc : UInt8) :
    ∀ i ∈ (parseSingleFrame dlc).reads (bytesOf frame), i ≤ declaredLength (bytesOf frame 0) := by
  -- The frame is left early, or its payload is copied up to the declared length and no further.
  unfold parseSingleFrame
  split
  next => simp
  next =>
    rw [reads_bind, reads_cell, run_cell]
    split
    next => simp
    next =>
      dsimp only
      split
      next => simp
      next inside =>
        have enough : 2 ≤ declaredLength (bytesOf frame 0) := by omega
        rw [reads_bind, reads_cell, run_cell]
        split
        next =>
          simp
          omega
        next =>
          intro i member
          simp only [reads_bind, reads_cell, reads_cells, reads_pure, List.append_nil, List.mem_append,
            List.mem_singleton, List.mem_range'_1] at member
          omega

@[simp] theorem run_bitmapWord (p : Vector UInt8 6) :
    bitmapWord.run (bytesOf p) = CanProxy.bitmapWord p := by
  simp [bitmapWord, CanProxy.bitmapWord, bytesOf]

@[simp] theorem reads_bitmapWord (p : Vector UInt8 6) :
    bitmapWord.reads (bytesOf p) = [0, 1, 2, 3] := rfl

@[simp] theorem run_twoBytes (p : Vector UInt8 6) :
    twoBytes.run (bytesOf p) = CanProxy.twoBytes p := by
  simp [twoBytes, CanProxy.twoBytes, bytesOf]

@[simp] theorem reads_twoBytes (p : Vector UInt8 6) : twoBytes.reads (bytesOf p) = [0, 1] := rfl

/-- Reading a payload byte by byte decodes it. -/
theorem run_decode (pid : UInt8) (p : Vector UInt8 6) (len : Nat) :
    (decode pid len).run (bytesOf p) = CanProxy.decode pid p len := by
  unfold decode CanProxy.decode
  split_ifs <;> simp [bytesOf]

/-- The decode table reads only bytes that its parameter is known to have. -/
theorem reads_decode_range (pid : UInt8) (p : Vector UInt8 6) (len : Nat) :
    ∃ n ≤ payloadLength pid, (decode pid len).reads (bytesOf p) = List.range n := by
  unfold decode
  split_ifs with short ratio temperature rpm speed maf voltage odometer
  · exact ⟨0, Nat.zero_le _, rfl⟩
  · exact ⟨1, by rcases ratio with rfl | rfl | rfl <;> decide, rfl⟩
  · exact ⟨1, by rcases temperature with rfl | rfl | rfl <;> decide, rfl⟩
  · exact ⟨2, by rw [rpm]; decide, rfl⟩
  · exact ⟨1, by rw [speed]; decide, rfl⟩
  · exact ⟨2, by rw [maf]; decide, rfl⟩
  · exact ⟨2, by rw [voltage]; decide, rfl⟩
  · exact ⟨4, by rw [odometer]; decide, rfl⟩
  · exact ⟨0, Nat.zero_le _, rfl⟩

/-- The decode table reads no further than the payload goes, for every parameter. -/
theorem reads_decode (pid : UInt8) (p : Vector UInt8 6) (len : Nat) :
    ∀ i ∈ (decode pid len).reads (bytesOf p), i < len := by
  intro i member
  by_cases short : len < payloadLength pid
  · -- A payload that is too short is not looked at.
    rw [decode, if_pos (.inl short)] at member
    cases member
  · obtain ⟨n, known, reads⟩ := reads_decode_range pid p len
    rw [reads, List.mem_range] at member
    omega

/-- Reading a bitmap byte by byte gives its parameters, and whether there is another block. -/
theorem run_block (base : UInt8) (p : Vector UInt8 6) (len : Nat) :
    (block base len).run (bytesOf p) =
      if len < 4 then none else some (CanProxy.supportedPidsFrom base p, CanProxy.nextBlockAdvertised p) := by
  unfold block
  split
  · rfl
  · simp [supportedPidsFrom, CanProxy.supportedPidsFrom, nextBlockAdvertised,
      CanProxy.nextBlockAdvertised, bytesOf]

/-- A bitmap is read only when the payload has its four bytes. -/
theorem reads_block (base : UInt8) (p : Vector UInt8 6) (len : Nat) :
    ∀ i ∈ (block base len).reads (bytesOf p), i < len := by
  unfold block
  split
  next => simp
  next enough =>
    simp [supportedPidsFrom, nextBlockAdvertised]
    omega

end Traced

/-- A frame that does not carry the bytes it declares is refused. -/
theorem parseSingleFrame_short {frame : Vector UInt8 8} {dlc : UInt8}
    (short : dlc.toNat < declaredLength (bytesOf frame 0) + 1) : parseSingleFrame frame dlc = none := by
  rw [declaredLength, bytesOf_getElem frame Place.eight0] at short
  unfold parseSingleFrame
  split
  next => rfl
  next =>
    dsimp only
    split
    next => rfl
    next => rw [if_pos (.inr (.inl short))]

/-- How long a frame is does not matter as long as it carries the bytes it declares. -/
theorem parseSingleFrame_length {frame : Vector UInt8 8} {dlc dlc' : UInt8}
    (carried : declaredLength (bytesOf frame 0) + 1 ≤ dlc.toNat)
    (carried' : declaredLength (bytesOf frame 0) + 1 ≤ dlc'.toNat) :
    parseSingleFrame frame dlc' = parseSingleFrame frame dlc := by
  rw [declaredLength, bytesOf_getElem frame Place.eight0] at carried carried'
  unfold parseSingleFrame
  by_cases enough : 2 ≤ (frame[0] &&& 0x0F).toNat
  · -- Both frames pass the two checks of their length.
    have long {dlc : UInt8} (carried : (frame[0] &&& 0x0F).toNat + 1 ≤ dlc.toNat) : ¬dlc < 3 := by
      rw [UInt8.lt_iff_toNat_lt]
      exact Nat.not_lt.mpr (Nat.le_trans (Nat.succ_le_succ enough) carried)
    rw [if_neg (long carried), if_neg (long carried')]
    simp only [Nat.not_lt.mpr carried, Nat.not_lt.mpr carried']
  · -- Too few bytes are declared for a response, so both are refused.
    have refused : (frame[0] &&& 0x0F).toNat < 2 := Nat.not_le.mp enough
    simp only [refused, true_or, if_true, ite_self]

/-- Frames that agree up to the length they declare, and carry it, are parsed alike. -/
theorem parseSingleFrame_agree {frame frame' : Vector UInt8 8} {dlc dlc' : UInt8}
    (agree : ∀ i ≤ declaredLength (bytesOf frame 0), bytesOf frame' i = bytesOf frame i)
    (carried : declaredLength (bytesOf frame 0) + 1 ≤ dlc.toNat)
    (carried' : declaredLength (bytesOf frame 0) + 1 ≤ dlc'.toNat) :
    parseSingleFrame frame' dlc' = parseSingleFrame frame dlc := by
  -- First the bytes are exchanged, and then the lengths.
  have same := Reading.same_of_agree (p := Traced.parseSingleFrame dlc') fun i member =>
    agree i (Traced.reads_parseSingleFrame frame dlc' i member)
  rw [Traced.run_parseSingleFrame, Traced.run_parseSingleFrame] at same
  exact same.1.trans (parseSingleFrame_length carried carried')

/--
Two frames that start with the same byte, agree on as many bytes as it declares, and carry these, are
the same to a query and to a discovery: neither padding nor extra length matters. A frame that
does not carry what it declares is refused, and nothing beyond the declared length is read, in the
frame or in its payload.
-/
theorem padding_ignored :
    (∀ (frame frame' : Vector UInt8 8) (dlc dlc' : UInt8), bytesOf frame' 0 = bytesOf frame 0 →
      (∀ i, 1 ≤ i → i ≤ declaredLength (bytesOf frame 0) → bytesOf frame' i = bytesOf frame i) →
      dlc ≤ 8 → dlc' ≤ 8 →
      declaredLength (bytesOf frame 0) + 1 ≤ dlc.toNat → declaredLength (bytesOf frame 0) + 1 ≤ dlc'.toNat →
      parseSingleFrame frame' dlc' = parseSingleFrame frame dlc ∧
      (∀ pid, queryOf pid frame' dlc' = queryOf pid frame dlc) ∧
      ∀ base, blockOf base frame' dlc' = blockOf base frame dlc) ∧
    ∀ (frame : Vector UInt8 8) (dlc : UInt8),
      (dlc.toNat < declaredLength (bytesOf frame 0) + 1 → parseSingleFrame frame dlc = none) ∧
      ((Traced.parseSingleFrame dlc).run (bytesOf frame) = parseSingleFrame frame dlc ∧
        ∀ i ∈ (Traced.parseSingleFrame dlc).reads (bytesOf frame), i ≤ declaredLength (bytesOf frame 0)) ∧
      ∀ r, parseSingleFrame frame dlc = some r →
        r.len + 2 = declaredLength (bytesOf frame 0) ∧
        (∀ pid, (Traced.decode pid r.len).run (bytesOf r.data) = decode pid r.data r.len ∧
          ∀ i ∈ (Traced.decode pid r.len).reads (bytesOf r.data), i < r.len) ∧
        ∀ base, (Traced.block base r.len).run (bytesOf r.data) = blockOf base frame dlc ∧
          ∀ i ∈ (Traced.block base r.len).reads (bytesOf r.data), i < r.len := by
  refine ⟨?_, fun frame dlc => ⟨parseSingleFrame_short, ?_, ?_⟩⟩
  · intro frame frame' dlc dlc' first same _ _ carried carried'
    have agree : ∀ i ≤ declaredLength (bytesOf frame 0), bytesOf frame' i = bytesOf frame i := by
      intro i declared
      cases i with
      | zero => exact first
      | succ i => exact same (i + 1) (Nat.succ_pos i) declared
    have parsed := parseSingleFrame_agree agree carried carried'
    refine ⟨parsed, fun pid => ?_, fun base => ?_⟩
    · rw [queryOf, queryOf, parsed]
    · rw [blockOf, blockOf, parsed]
  · exact ⟨Traced.run_parseSingleFrame frame dlc, Traced.reads_parseSingleFrame frame dlc⟩
  · intro r parsed
    obtain ⟨-, -, declared, -⟩ := parseSingleFrame_some parsed
    rw [← bytesOf_getElem frame Place.eight0] at declared
    refine ⟨declared, fun pid => ?_, fun base => ?_⟩
    · exact ⟨Traced.run_decode pid r.data r.len, Traced.reads_decode pid r.data r.len⟩
    · refine ⟨?_, Traced.reads_block base r.data r.len⟩
      rw [Traced.run_block, blockOf, parsed, Option.bind_some]

/-- A speed is the same with zeros and with another padding behind it, and in a shorter frame. -/
theorem padding_ignored_speed :
    let padded : Vector UInt8 8 := #v[0x03, 0x41, 0x0D, 50, 0x55, 0x55, 0x55, 0x55]
    let bare : Vector UInt8 8 := #v[0x03, 0x41, 0x0D, 50, 0, 0, 0, 0]
    queryOf pidSpeed padded 8 = queryOf pidSpeed bare 4 ∧ parseSingleFrame bare 3 = none := by
  intro padded bare
  have same := padding_ignored.1 bare padded 4 8 rfl (by decide) (by decide) (by decide) (by decide)
    (by decide)
  exact ⟨same.2.1 pidSpeed, (padding_ignored.2 bare 3).1 (by decide)⟩

end CanProxy
