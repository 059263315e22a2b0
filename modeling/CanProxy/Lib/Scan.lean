import CanProxy.Lib.Text
import Mathlib.Data.Int.Notation
import Mathlib.Data.List.DropRight

/-!
Reading texts as C's scanning functions do, in the default locale and with 64-bit longs.

Each function gives what it read and the text after it, or nothing when the text does not match.
-/

namespace Scan

/-- White space in the format skips any amount of it. -/
def skip (t : Text) : Text := t.dropWhile Text.isspace

/-- A character in the format matches itself only. -/
def literal (c : Char) : Text → Option Text
  | [] => none
  | first :: rest => if first = c then some rest else none

/-- An optional sign. -/
def sign : Text → Bool × Text
  | [] => (false, [])
  | c :: rest => if c = '-' then (true, rest) else if c = '+' then (false, rest) else (false, c :: rest)

/-- The optional marker in front of hexadecimal digits. -/
def unmark : Text → Text
  | zero :: x :: rest => if zero = '0' ∧ (x = 'x' ∨ x = 'X') then rest else zero :: x :: rest
  | t => t

/-- A sign and at least one digit, out of a field. -/
def signedNumber (base : Nat) (field : Text) : Option ((Bool × Nat) × Text) :=
  let (negative, body) := sign field
  -- A marker without a digit behind it is no number, as ISO C has it; glibc reads a zero there.
  let body := if base = 16 then unmark body else body
  let digits := body.takeWhile (Text.isDigit base)
  if digits = [] then none
  else some ((negative, Text.number base digits), body.dropWhile (Text.isDigit base))

/-- White space, and a number that ends with its digits. -/
def integer (base : Nat) (t : Text) : Option ((Bool × Nat) × Text) := signedNumber base (skip t)

/-- White space, and a number out of the next few characters. -/
def integerWithin (base width : Nat) (t : Text) : Option ((Bool × Nat) × Text) :=
  -- What the number leaves of its field is followed by the rest of the text.
  (signedNumber base ((skip t).take width)).map fun (read, left) => (read, left ++ (skip t).drop width)

/-- White space, and at least one other character, up to a width. -/
def word (width : Nat) (t : Text) : Option (Text × Text) :=
  let read := ((skip t).take width).takeWhile (!Text.isspace ·)
  if read = [] then none else some (read, (skip t).drop read.length)

/-- A number that was read as an unsigned long; too large a one stops at the largest. -/
def toUlong : Bool × Nat → Nat
  | (negative, n) =>
    -- A sign negates modulo the word, but only a number that fits it.
    if 2 ^ 64 ≤ n then 2 ^ 64 - 1 else if negative then (2 ^ 64 - n) % 2 ^ 64 else n

/-- A number that was read as an unsigned integer keeps the low half of the long. -/
def toUint (read : Bool × Nat) : Nat := toUlong read % 2 ^ 32

/-- A number that was read as a long; one out of range stops at the end of it. -/
def toLong : Bool × Nat → ℤ
  | (negative, n) => if negative then max (-n) (-2 ^ 63) else min n (2 ^ 63 - 1)

/-- The function that reads a long in decimal; without a number it reads zero and nothing. -/
def strtol (t : Text) : ℤ × Text :=
  match integer 10 t with
  | some (read, rest) => (toLong read, rest)
  | none => (0, t)

/-- The function that reads an int in decimal keeps the low half of the long. -/
def atoi (t : Text) : ℤ := (strtol t).1.bmod (2 ^ 32)

/-- The base that a number tells itself: hexadecimal behind a marker, octal behind a zero. -/
def ownBase (t : Text) : Nat :=
  match (sign (skip t)).2 with
  | zero :: rest =>
    if zero ≠ '0' then 10 else if rest.head? = some 'x' ∨ rest.head? = some 'X' then 16 else 8
  | [] => 10

/-- The function that reads a long in the base that the number tells; without a number it reads zero. -/
def strtolAny (t : Text) : ℤ := ((integer (ownBase t) t).map fun read => toLong read.1).getD 0

section Read

variable {base : Nat} {t rest : Text}

theorem takeWhile_stop {p : Char → Bool} (inside : ∀ c ∈ t, p c = true)
    (stop : ∀ c ∈ rest.head?, p c = false) : (t ++ rest).takeWhile p = t := by
  rw [List.takeWhile_append_of_pos inside]
  cases rest with
  | nil => simp
  | cons c rest => simp [stop c rfl]

theorem dropWhile_stop {p : Char → Bool} (inside : ∀ c ∈ t, p c = true)
    (stop : ∀ c ∈ rest.head?, p c = false) : (t ++ rest).dropWhile p = rest := by
  rw [List.dropWhile_append_of_pos inside]
  cases rest with
  | nil => rfl
  | cons c rest => simp [stop c rfl]

/-- Nothing is skipped in front of a character that is no white space. -/
theorem skip_of_head (solid : ∀ c ∈ t.head?, Text.isspace c = false) : skip t = t :=
  dropWhile_stop (t := []) nofun solid

/-- White space in front of a piece that skips it makes no difference. -/
theorem skip_cons {c : Char} (space : Text.isspace c = true) (t : Text) : skip (c :: t) = skip t :=
  List.dropWhile_cons_of_pos space

theorem skip_skip (t : Text) : skip (skip t) = skip t := List.dropWhile_idempotent _ _

theorem integer_skip (t : Text) : integer base (skip t) = integer base t := by
  rw [integer, skip_skip, integer]

theorem word_skip (width : Nat) (t : Text) : word width (skip t) = word width t := by
  rw [word, skip_skip, word]

theorem literal_cons (c : Char) (rest : Text) : literal c (c :: rest) = some rest := if_pos rfl

/-- A digit is no white space, no sign and no marker, whatever the base. -/
theorem digit_plain {c : Char} (digit : Text.isDigit base c = true) (known : base ≤ 16) :
    Text.isspace c = false ∧ c ≠ '-' ∧ c ≠ '+' ∧ c ≠ 'x' ∧ c ≠ 'X' := by
  obtain ⟨value, found⟩ := Option.isSome_iff_exists.mp digit
  -- The value decides in which of the three ranges the character lies.
  obtain ⟨ranged, small⟩ := Option.filter_eq_some_iff.mp found
  have small : value < 16 := (of_decide_eq_true small).trans_le known
  have codes : (48 ≤ c.toNat ∧ c.toNat ≤ 57) ∨ (65 ≤ c.toNat ∧ c.toNat ≤ 70) ∨
      (97 ≤ c.toNat ∧ c.toNat ≤ 102) := by
    split at ranged
    next decimal => exact .inl decimal
    next =>
      split at ranged
      next upper => simp only [Option.some.injEq] at ranged; omega
      next =>
        split at ranged
        next lower => simp only [Option.some.injEq] at ranged; omega
        next => cases ranged
  refine ⟨?_, ?_, ?_, ?_, ?_⟩
  · simp only [Text.isspace, Bool.or_eq_false_iff, decide_eq_false_iff_not, Bool.and_eq_false_iff]
    omega
  all_goals
    rintro rfl
    revert codes
    decide

/-- The end of a string is no digit. -/
theorem digit_ne_nul {c : Char} (digit : Text.isDigit base c = true) : c ≠ Text.nul := by
  rintro rfl
  cases digit

/-- Nothing in a written integer ends a string. -/
theorem ofInt_ne_nul (n : ℤ) (width : Nat) : ∀ c ∈ Text.ofInt n width, c ≠ Text.nul := by
  intro c member
  have digits (width magnitude : Nat) (member : c ∈ Text.pad width (Text.ofNat 10 magnitude)) :
      c ≠ Text.nul :=
    digit_ne_nul ((Text.spells_pad (by decide) (by decide) width magnitude).digits c member)
  unfold Text.ofInt at member
  split at member
  · rcases List.mem_cons.mp member with rfl | later
    · decide
    · exact digits _ _ later
  · exact digits _ _ member

/-- What may follow a number without becoming part of it. -/
def Stops (base : Nat) (rest : Text) : Prop :=
  ∀ c ∈ rest.head?, Text.isDigit base c = false ∧ c ≠ 'x' ∧ c ≠ 'X'

/-- A character that is neither a digit nor a marker may follow. -/
theorem stops_cons {c : Char} (other : Text.isDigit base c = false ∧ c ≠ 'x' ∧ c ≠ 'X') (rest : Text) :
    Stops base (c :: rest) := by
  rintro _ ⟨⟩
  exact other

section Spells

variable {digits field : Text} {n : Nat} (spells : Text.Spells base digits n) (known : base ≤ 16)

include spells known

/-- Nothing is skipped in front of digits. -/
theorem skip_digits (rest : Text) : skip (digits ++ rest) = digits ++ rest := by
  obtain ⟨first, others, rfl⟩ := List.exists_cons_of_ne_nil spells.nonempty
  apply skip_of_head
  intro c head
  obtain rfl := Option.some.inj head
  exact (digit_plain (spells.digits _ List.mem_cons_self) known).1

/-- Digits have no sign in front of them. -/
theorem sign_digits (rest : Text) : sign (digits ++ rest) = (false, digits ++ rest) := by
  obtain ⟨first, others, rfl⟩ := List.exists_cons_of_ne_nil spells.nonempty
  obtain ⟨-, minus, plus, -⟩ := digit_plain (spells.digits first List.mem_cons_self) known
  simp only [List.cons_append, sign, if_neg minus, if_neg plus]

/-- Digits have no marker in front of them, whatever the first one is. -/
theorem unmark_digits (stop : Stops base rest) : unmark (digits ++ rest) = digits ++ rest := by
  obtain ⟨first, others, rfl⟩ := List.exists_cons_of_ne_nil spells.nonempty
  rw [List.cons_append]
  -- The second character is another digit or the first one after them; a marker is neither.
  have plain : ∀ second ∈ (others ++ rest).head?, second ≠ 'x' ∧ second ≠ 'X' := by
    cases others with
    | nil => exact fun second head => (stop second head).2
    | cons other more =>
      intro second head
      obtain rfl := Option.some.inj head
      exact (digit_plain (spells.digits _ (by simp)) known).2.2.2
  cases next : others ++ rest with
  | nil => rfl
  | cons second tail =>
    obtain ⟨lower, upper⟩ := plain second (by rw [next]; rfl)
    simp only [unmark, lower, upper, or_self, and_false, if_false]

/-- Behind a sign, digits are read to their end. -/
theorem signedNumber_of_sign {negative : Bool} (signed : sign field = (negative, digits ++ rest))
    (stop : Stops base rest) : signedNumber base field = some ((negative, n), rest) := by
  have unmarked := unmark_digits spells known stop
  have stops : ∀ c ∈ rest.head?, Text.isDigit base c = false := fun c head => (stop c head).1
  simp only [signedNumber, signed, unmarked, ite_self, takeWhile_stop spells.digits stops,
    dropWhile_stop spells.digits stops, if_neg spells.nonempty, spells.value]

/-- A number written in digits is read to their end. -/
theorem integer_digits (stop : Stops base rest) :
    integer base (digits ++ rest) = some ((false, n), rest) := by
  rw [integer, skip_digits spells known]
  exact signedNumber_of_sign spells known (sign_digits spells known rest) stop

/-- A field of digits is read whole, whatever follows it. -/
theorem integerWithin_digits (rest : Text) :
    integerWithin base digits.length (digits ++ rest) = some ((false, n), rest) := by
  -- The width cuts the text exactly behind the digits.
  have field : signedNumber base (digits ++ []) = some ((false, n), []) :=
    signedNumber_of_sign spells known (sign_digits spells known []) nofun
  rw [List.append_nil] at field
  rw [integerWithin, skip_digits spells known, List.take_left, List.drop_left, field]
  rfl

end Spells

/-- An integer in decimal is read back as it was written, with its sign. -/
theorem integer_ofInt (n : ℤ) (width : Nat) (stop : Stops 10 rest) :
    integer 10 (Text.ofInt n width ++ rest) = some ((decide (n < 0), n.natAbs), rest) := by
  have spells (width magnitude : Nat) :
      Text.Spells 10 (Text.pad width (Text.ofNat 10 magnitude)) magnitude :=
    Text.spells_pad (by decide) (by decide) width magnitude
  unfold Text.ofInt
  split
  next negative =>
    -- The sign is no white space either, and the digits behind it are read alone.
    rw [integer, List.cons_append, skip_of_head (by rintro c ⟨⟩; decide),
      signedNumber_of_sign (spells (width - 1) n.natAbs) (by decide) rfl stop, decide_eq_true negative]
  next natural =>
    have magnitude : n.toNat = n.natAbs := by omega
    rw [integer_digits (spells width n.toNat) (by decide) stop, magnitude, decide_eq_false natural]

/-- A number without a sign fits a long as it is. -/
theorem toUlong_unsigned {n : Nat} (fits : n < 2 ^ 64) : toUlong (false, n) = n := by
  rw [toUlong, if_neg (not_le.mpr fits)]
  rfl

theorem toUint_unsigned {n : Nat} (fits : n < 2 ^ 32) : toUint (false, n) = n := by
  rw [toUint, toUlong_unsigned (fits.trans (by decide)), Nat.mod_eq_of_lt fits]

/-- A negative number that fits a long becomes a large one, never itself. -/
theorem toUlong_negative {n : Nat} (positive : 0 < n) (fits : n < 2 ^ 64) :
    toUlong (true, n) = 2 ^ 64 - n := by
  rw [toUlong, if_neg (not_le.mpr fits), if_pos rfl]
  exact Nat.mod_eq_of_lt (by omega)

/-- A word is read up to the white space behind it. -/
theorem word_stop {width : Nat} (some : t ≠ []) (fits : t.length ≤ width)
    (inside : ∀ c ∈ t, Text.isspace c = false) (stop : ∀ c ∈ rest.head?, Text.isspace c = true) :
    word width (t ++ rest) = Option.some (t, rest) := by
  have solid : ∀ c ∈ (t ++ rest).head?, Text.isspace c = false := by
    obtain ⟨first, others, rfl⟩ := List.exists_cons_of_ne_nil some
    intro c head
    obtain rfl := Option.some.inj head
    exact inside _ List.mem_cons_self
  -- The width leaves all of the word, and of what follows at most a part with the same start.
  have cut : (t ++ rest).take width = t ++ rest.take (width - t.length) := by
    rw [List.take_append, List.take_of_length_le fits]
  have read : (t ++ rest.take (width - t.length)).takeWhile (!Text.isspace ·) = t := by
    apply takeWhile_stop
    · simpa using inside
    · intro c head
      have first : c ∈ rest.head? := by
        rw [List.head?_take] at head
        split at head
        · cases head
        · exact head
      rw [stop c first]
      rfl
  simp only [word, skip_of_head solid, cut, read, if_neg some, List.drop_left]

end Read

end Scan
