import Mathlib.Data.Nat.Bitwise
import Mathlib.Tactic.Linarith

/-! Machine words read as numbers and as sets of bit positions. -/

/-
The places inside a buffer of eight and of six bytes. A definition that names the fact it needs
carries no proof of its own.
-/
namespace Place

theorem eight0 : 0 < 8 := by decide
theorem eight1 : 1 < 8 := by decide
theorem eight2 : 2 < 8 := by decide
theorem eight3 : 3 < 8 := by decide
theorem eight4 : 4 < 8 := by decide
theorem eight5 : 5 < 8 := by decide
theorem eight6 : 6 < 8 := by decide
theorem six0 : 0 < 6 := by decide
theorem six1 : 1 < 6 := by decide
theorem six2 : 2 < 6 := by decide
theorem six3 : 3 < 6 := by decide
theorem inside (i : Fin 8) : i.val < 8 := i.isLt

end Place

namespace Bits

/-- Placing a number above the bits of a smaller one adds it at that scale. -/
theorem or_shiftLeft {a k : Nat} (small : a < 2 ^ k) (b : Nat) : a ||| b <<< k = a + b * 2 ^ k := by
  -- The two summands occupy disjoint bit positions, so joining them carries nothing.
  rw [Nat.or_comm, ← Nat.shiftLeft_add_eq_or_of_lt small, Nat.shiftLeft_eq, Nat.add_comm]

/-- The low byte of a 16-bit word. -/
theorem toNat_lowByte16 (v : UInt16) : (v &&& 0xFF).toUInt8.toNat = v.toNat % 256 := by
  -- Masking with a run of ones keeps the remainder modulo the next power of two.
  have mask : v.toNat &&& 255 = v.toNat % 256 := Nat.and_two_pow_sub_one_eq_mod v.toNat 8
  simp only [UInt16.toNat_toUInt8, UInt16.toNat_and, UInt16.reduceToNat, mask]
  omega

/-- The high byte of a 16-bit word. -/
theorem toNat_highByte16 (v : UInt16) : (v >>> 8).toUInt8.toNat = v.toNat / 256 := by
  -- What is shifted down already fits a byte, so the narrowing drops nothing.
  have bound := v.toNat_lt
  simp only [UInt16.toNat_toUInt8, UInt16.toNat_shiftRight, UInt16.reduceToNat, Nat.reduceMod,
    Nat.shiftRight_eq_div_pow, Nat.reducePow] at bound ⊢
  omega

/-- Two bytes joined low byte first. -/
theorem toNat_join16 (lo hi : UInt8) :
    (lo.toUInt16 ||| (hi.toUInt16 <<< 8)).toNat = lo.toNat + hi.toNat * 256 := by
  have loBound := lo.toNat_lt
  have hiBound := hi.toNat_lt
  -- The shifted high byte still fits sixteen bits, and the low byte lies below it.
  have fits : hi.toNat <<< 8 % 2 ^ 16 = hi.toNat <<< 8 := by
    apply Nat.mod_eq_of_lt
    rw [Nat.shiftLeft_eq]
    omega
  simp only [UInt16.toNat_or, UInt8.toNat_toUInt16, UInt16.toNat_shiftLeft, UInt16.reduceToNat,
    Nat.reduceMod, fits]
  exact or_shiftLeft (k := 8) loBound hi.toNat

/-- One byte of a 32-bit word, counted from the low end. -/
theorem toNat_byte32 (v : UInt32) (k : UInt32) (small : k.toNat < 32) :
    ((v >>> k) &&& 0xFF).toUInt8.toNat = v.toNat / 2 ^ k.toNat % 256 := by
  -- The shift divides, and the mask keeps the remainder modulo one byte.
  have mask (n : Nat) : n &&& 255 = n % 256 := Nat.and_two_pow_sub_one_eq_mod n 8
  simp only [UInt32.toNat_toUInt8, UInt32.toNat_and, UInt32.toNat_shiftRight, UInt32.reduceToNat,
    Nat.mod_eq_of_lt small, Nat.shiftRight_eq_div_pow, mask]
  omega

/-- Four bytes joined low byte first. -/
theorem toNat_join32 (b0 b1 b2 b3 : UInt8) :
    (b0.toUInt32 ||| (b1.toUInt32 <<< 8) ||| (b2.toUInt32 <<< 16) ||| (b3.toUInt32 <<< 24)).toNat =
      b0.toNat + b1.toNat * 2 ^ 8 + b2.toNat * 2 ^ 16 + b3.toNat * 2 ^ 24 := by
  have bound0 := b0.toNat_lt
  have bound1 := b1.toNat_lt
  have bound2 := b2.toNat_lt
  have bound3 := b3.toNat_lt
  -- No shifted byte leaves the word, so the reductions modulo 2^32 are idle.
  have fits (b : UInt8) (k : Nat) (small : k ≤ 24) : b.toNat <<< k % 2 ^ 32 = b.toNat <<< k := by
    apply Nat.mod_eq_of_lt
    have bound := b.toNat_lt
    have scale : 2 ^ k ≤ 2 ^ 24 := Nat.pow_le_pow_right (by decide) small
    rw [Nat.shiftLeft_eq]
    nlinarith
  simp only [UInt32.toNat_or, UInt8.toNat_toUInt32, UInt32.toNat_shiftLeft, UInt32.reduceToNat,
    Nat.reduceMod, fits b1 8 (by decide), fits b2 16 (by decide), fits b3 24 (by decide)]
  -- Each byte lands above everything joined so far.
  rw [or_shiftLeft (k := 8) (by omega), or_shiftLeft (k := 16) (by omega),
    or_shiftLeft (k := 24) (by omega)]

/-- An integer in range survives conversion to an unsigned byte. -/
theorem toNat_ofInt8 {n : ℤ} (low : 0 ≤ n) (high : n < 2 ^ 8) :
    ((UInt8.ofInt n).toNat : ℤ) = n := by
  -- Conversion reduces modulo the word size, which an integer in range is below.
  rw [UInt8.ofInt, Int.emod_eq_of_lt low high, UInt8.toNat_ofNat_of_lt' (by
    change n.toNat < 256
    omega)]
  omega

/-- An integer in range survives conversion to sixteen unsigned bits. -/
theorem toNat_ofInt16 {n : ℤ} (low : 0 ≤ n) (high : n < 2 ^ 16) :
    ((UInt16.ofInt n).toNat : ℤ) = n := by
  -- The same reduction modulo the word size, at sixteen bits.
  rw [UInt16.ofInt, Int.emod_eq_of_lt low high, UInt16.toNat_ofNat_of_lt' (by
    change n.toNat < 65536
    omega)]
  omega

/-- An integer in range survives conversion to thirty-two unsigned bits. -/
theorem toNat_ofInt32 {n : ℤ} (low : 0 ≤ n) (high : n < 2 ^ 32) :
    ((UInt32.ofInt n).toNat : ℤ) = n := by
  -- The same reduction modulo the word size, at thirty-two bits.
  rw [UInt32.ofInt, Int.emod_eq_of_lt low high, UInt32.toNat_ofNat_of_lt' (by
    change n.toNat < 4294967296
    omega)]
  omega

/-- The word with one bit set, by position. -/
def single (i : Nat) : UInt32 := 1 <<< UInt32.ofNat i

/-- A position is in a word when its bit is set. -/
def mem (w : UInt32) (i : Nat) : Bool := w.toNat.testBit i

/-- No position at or above the width is in a word. -/
theorem mem_of_ge {w : UInt32} {i : Nat} (high : 32 ≤ i) : mem w i = false := by
  -- The number is below two to the width, and bit positions from there on are clear.
  apply Nat.testBit_lt_two_pow
  exact Nat.lt_of_lt_of_le w.toNat_lt (Nat.pow_le_pow_right (by decide) high)

/-- Words with the same positions are equal. -/
theorem ext {w v : UInt32} (same : ∀ i < 32, mem w i = mem v i) : w = v := by
  apply UInt32.toNat_inj.mp
  apply Nat.eq_of_testBit_eq
  intro i
  -- Only the positions below the width can differ, and those agree by hypothesis.
  rcases Nat.lt_or_ge i 32 with low | high
  · exact same i low
  · exact (mem_of_ge high).trans (mem_of_ge high).symm

@[simp] theorem mem_zero (i : Nat) : mem 0 i = false := by simp [mem]

@[simp] theorem mem_or (w v : UInt32) (i : Nat) : mem (w ||| v) i = (mem w i || mem v i) := by
  simp [mem]

@[simp] theorem mem_and (w v : UInt32) (i : Nat) : mem (w &&& v) i = (mem w i && mem v i) := by
  simp [mem]

/-- A one-bit word holds its own position and no other. -/
theorem mem_single {i : Nat} (small : i < 32) (j : Nat) : mem (single i) j = decide (i = j) := by
  -- Below the width neither the position nor the shifted one wraps around.
  have index : (UInt32.ofNat i).toNat = i := UInt32.toNat_ofNat_of_lt' (by
    change i < 4294967296
    omega)
  have fits : 2 ^ i < 2 ^ 32 := Nat.pow_lt_pow_right (by decide) small
  simp only [mem, single, UInt32.toNat_shiftLeft, index, UInt32.toNat_one, Nat.mod_eq_of_lt small,
    Nat.shiftLeft_eq, Nat.one_mul, Nat.mod_eq_of_lt fits, Nat.testBit_two_pow]

/-- Masking with a one-bit word tests that position. -/
theorem and_single_ne_zero {i : Nat} (small : i < 32) (w : UInt32) :
    w &&& single i ≠ 0 ↔ mem w i = true := by
  -- The masked word holds at most the tested position.
  have masked (j : Nat) : mem (w &&& single i) j = (mem w j && decide (i = j)) := by
    rw [mem_and, mem_single small]
  constructor
  · intro nonzero
    -- A word holding no position at all would be zero.
    by_contra absent
    apply nonzero
    apply ext
    intro j _
    rw [masked, mem_zero]
    by_cases same : i = j
    · subst j
      simpa using absent
    · simp [same]
  · intro present zero
    have read := masked i
    rw [zero, mem_zero, present] at read
    simp at read

/-- Masking with a subset returns the subset exactly when it is contained. -/
theorem and_eq_right_iff (w v : UInt32) : w &&& v = v ↔ ∀ i, mem v i = true → mem w i = true := by
  constructor
  -- A position of the subset is read back out of the masked word.
  · intro same i present
    have read := mem_and w v i
    rw [same, present] at read
    simpa using read.symm
  -- Outside the subset both words are clear, and inside it containment decides.
  · intro contained
    apply ext
    intro i _
    rw [mem_and]
    cases present : mem v i with
    | false => simp
    | true => simp [contained i present]

/-- Joining the bits of selected items leaves the positions some selected item contributes. -/
theorem mem_foldl_or {ι : Type*} (selected : ι → Bool) (bits : ι → UInt32) (items : List ι)
    (start : UInt32) (i : Nat) :
    mem (items.foldl (fun joined item =>
      if selected item then joined ||| bits item else joined) start) i =
      (mem start i || items.any fun item => selected item && mem (bits item) i) := by
  -- Each item either adds its own positions or leaves the accumulated word alone.
  induction items generalizing start with
  | nil => simp
  | cons item rest ih =>
    rw [List.foldl_cons, ih, List.any_cons]
    cases selected item <;> simp [Bool.or_assoc]

end Bits
