import Mathlib.Data.List.TakeWhile
import Mathlib.Data.Nat.Digits.Lemmas

/-! Texts as the characters they consist of, and numbers written in them as C writes numbers. -/

/-- A text, character by character. -/
abbrev Text := List Char

namespace Text

/-- The character that ends a string in memory. -/
def nul : Char := Char.ofNat 0

/-- What a function sees of a text that it gets as a string in memory. -/
def cString (t : Text) : Text := t.takeWhile (· ≠ nul)

/-- The white space of the default locale. -/
def isspace (c : Char) : Bool := c.toNat = 32 || (9 ≤ c.toNat && c.toNat ≤ 13)

/-- The digit of a value, in upper case from ten on. -/
def digit (value : Nat) : Char :=
  if value < 10 then Char.ofNat (48 + value) else Char.ofNat (55 + value)

/-- The value of a digit in a base; letters count in either case. -/
def digitValue (base : Nat) (c : Char) : Option Nat :=
  let value :=
    if 48 ≤ c.toNat ∧ c.toNat ≤ 57 then some (c.toNat - 48)
    else if 65 ≤ c.toNat ∧ c.toNat ≤ 90 then some (c.toNat - 55)
    else if 97 ≤ c.toNat ∧ c.toNat ≤ 122 then some (c.toNat - 87)
    else none
  value.filter (· < base)

/-- The character is a digit of the base. -/
def isDigit (base : Nat) (c : Char) : Bool := (digitValue base c).isSome

/-- The number that digits spell. -/
def number (base : Nat) (digits : Text) : Nat :=
  digits.foldl (fun n c => n * base + (digitValue base c).getD 0) 0

/-- A number in a base, without leading zeros. -/
def ofNat (base n : Nat) : Text := if n = 0 then ['0'] else ((Nat.digits base n).map digit).reverse

/-- A text filled up with zeros in front. -/
def pad (width : Nat) (t : Text) : Text := List.replicate (width - t.length) '0' ++ t

/-- An integer in decimal, filled up with zeros to a width that counts the sign. -/
def ofInt (n : ℤ) (width : Nat := 0) : Text :=
  if n < 0 then '-' :: pad (width - 1) (ofNat 10 n.natAbs) else pad width (ofNat 10 n.toNat)

@[simp] theorem cString_nil : cString [] = [] := rfl

/-- A string is seen up to the first character that ends it. -/
theorem cString_cons (c : Char) (t : Text) :
    cString (c :: t) = if c = nul then [] else c :: cString t := by
  by_cases ends : c = nul <;> simp [cString, ends]

/-- A text with nothing that ends it is seen whole. -/
theorem cString_eq {t : Text} (inside : ∀ c ∈ t, c ≠ nul) : cString t = t :=
  List.takeWhile_eq_self_iff.mpr fun c member => decide_eq_true (inside c member)

/-- Every digit of a base up to sixteen is read as its value. -/
theorem digitValue_digit {base value : Nat} (known : base ≤ 16) (small : value < base) :
    digitValue base (digit value) = some value := by
  -- Sixteen digits, each with its own value, which the base lets through.
  have all : ∀ value < 16, digitValue 16 (digit value) = some value := by decide
  have read := all value (by omega)
  unfold digitValue at read ⊢
  obtain ⟨same, -⟩ := Option.filter_eq_some_iff.mp read
  exact Option.filter_eq_some_iff.mpr ⟨same, by simpa using small⟩

theorem isDigit_digit {base value : Nat} (known : base ≤ 16) (small : value < base) :
    isDigit base (digit value) = true := by
  rw [isDigit, digitValue_digit known small]
  rfl

/-- The zero is a digit of every base. -/
theorem digitValue_zero {base : Nat} (positive : 0 < base) : digitValue base '0' = some 0 := by
  simp [digitValue, positive]

section Number

variable {base : Nat}

/-- Leading zeros do not change the number. -/
theorem number_pad (positive : 0 < base) (width : Nat) (t : Text) :
    number base (pad width t) = number base t := by
  unfold pad number
  rw [List.foldl_append]
  congr 1
  -- A zero in front of nothing is nothing.
  induction width - t.length with
  | zero => rfl
  | succ n ih => rw [List.replicate_succ, List.foldl_cons, digitValue_zero positive]; simpa using ih

/-- A number is written in digits of its base. -/
theorem ofNat_isDigit (two : 2 ≤ base) (known : base ≤ 16) (n : Nat) :
    ∀ c ∈ ofNat base n, isDigit base c = true := by
  intro c member
  unfold ofNat at member
  split at member
  · rw [List.mem_singleton.mp member, isDigit, digitValue_zero (by omega)]
    rfl
  · obtain ⟨value, listed, rfl⟩ := List.mem_map.mp (List.mem_reverse.mp member)
    exact isDigit_digit known (Nat.digits_lt_base (by omega) listed)

theorem ofNat_ne_nil (n : Nat) : ofNat base n ≠ [] := by
  unfold ofNat
  split
  · exact List.cons_ne_nil _ _
  next nonzero => simpa using Nat.digits_ne_nil_iff_ne_zero.mpr nonzero

/-- A number below a power of the base has no more digits than the power. -/
theorem length_ofNat_le {n width : Nat} (two : 2 ≤ base) (some : 0 < width) (small : n < base ^ width) :
    (ofNat base n).length ≤ width := by
  unfold ofNat
  split
  · exact some
  · rw [List.length_reverse, List.length_map]
    exact (Nat.digits_length_le_iff (by omega) n).mpr small

/-- A short text is filled up to the width exactly. -/
theorem length_pad {t : Text} {width : Nat} (short : t.length ≤ width) : (pad width t).length = width := by
  rw [pad, List.length_append, List.length_replicate]
  omega

/-- A number is read back from its digits. -/
theorem number_ofNat (two : 2 ≤ base) (known : base ≤ 16) (n : Nat) :
    number base (ofNat base n) = n := by
  unfold ofNat number
  split
  next zero =>
    rw [zero, List.foldl_cons, List.foldl_nil, digitValue_zero (by omega)]
    simp
  · -- Read from the last digit on, the digits are those of the base.
    have small : ∀ value ∈ Nat.digits base n, value < base := fun value listed =>
      Nat.digits_lt_base (by omega) listed
    have spelled (values : List Nat) (small : ∀ value ∈ values, value < base) :
        ((values.map digit).reverse.foldl (fun n c => n * base + (digitValue base c).getD 0) 0) =
          Nat.ofDigits base values := by
      induction values with
      | nil => rfl
      | cons value rest ih =>
        obtain ⟨first, others⟩ := List.forall_mem_cons.mp small
        rw [List.map_cons, List.reverse_cons, List.foldl_append, ih others, List.foldl_cons,
          List.foldl_nil, digitValue_digit known first, Nat.ofDigits_cons, Option.getD_some,
          Nat.add_comm, Nat.mul_comm]
    rw [spelled _ small, Nat.ofDigits_digits]

/-- Zeros in front are digits too. -/
theorem pad_isDigit {t : Text} (positive : 0 < base) (digits : ∀ c ∈ t, isDigit base c = true)
    (width : Nat) : ∀ c ∈ pad width t, isDigit base c = true := by
  intro c member
  rcases List.mem_append.mp member with zero | old
  · rw [List.eq_of_mem_replicate zero, isDigit, digitValue_zero positive]
    rfl
  · exact digits c old

theorem pad_ne_nil {t : Text} (some : t ≠ []) (width : Nat) : pad width t ≠ [] := by
  simp [pad, some]

/-- The text is digits, at least one, and they spell the number. -/
structure Spells (base : Nat) (t : Text) (n : Nat) : Prop where
  nonempty : t ≠ []
  digits : ∀ c ∈ t, isDigit base c = true
  value : number base t = n

/-- A written number spells itself, filled up to any width. -/
theorem spells_pad (two : 2 ≤ base) (known : base ≤ 16) (width n : Nat) :
    Spells base (pad width (ofNat base n)) n where
  nonempty := pad_ne_nil (ofNat_ne_nil n) width
  digits := pad_isDigit (by omega) (ofNat_isDigit two known n) width
  value := (number_pad (by omega) width _).trans (number_ofNat two known n)

end Number

end Text
