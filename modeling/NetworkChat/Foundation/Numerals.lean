import Mathlib.Data.List.TakeWhile
import Mathlib.Tactic.Ring

/-!
# Numbers in texts

`std::stoul` with base ten, in the classification of the C locale: blanks are skipped, a sign may
follow, then digits are read as long as there are any, and what comes behind them is ignored. Too
few digits and too large a value are the two exceptions; a minus sign negates the value in the type
of the result.

A text that consists of digits is read as their value (`stoul_of_isNumeral`), and an exception
depends on the digits alone (`stoul_isOk_iff`). A number is printed as digits that denote it
(`numeral_printDecimal`).
-/

set_option autoImplicit false

namespace NetworkChat.Foundation

/-! ## Decimal digits -/

/-- `std::isdigit`. -/
def isDigit (byte : UInt8) : Bool := 48 ≤ byte && byte ≤ 57

/-- `std::isspace`. -/
def isSpace (byte : UInt8) : Bool := byte = 32 || (9 ≤ byte && byte ≤ 13)

/-- The number that digits denote. -/
def decimalValue (digits : List UInt8) : ℕ :=
  digits.foldl (fun value digit => 10 * value + (digit.toNat - 48)) 0

/-- The text is a decimal numeral. -/
def IsNumeral (text : List UInt8) : Prop := text ≠ [] ∧ ∀ byte ∈ text, isDigit byte = true

instance (text : List UInt8) : Decidable (IsNumeral text) :=
  @instDecidableAnd _ _ inferInstance (List.decidableBAll (fun byte => isDigit byte = true) text)

/-! ## `std::stoul` -/

inductive StoulError where
  /-- `std::invalid_argument`. -/
  | invalidArgument
  /-- `std::out_of_range`. -/
  | outOfRange
  deriving DecidableEq, Repr

/-- Whether a minus sign is there, and the text behind the sign. -/
def takeSign : List UInt8 → Bool × List UInt8
  | [] => (false, [])
  | byte :: rest =>
      if byte = 45 then (true, rest) else if byte = 43 then (false, rest) else (false, byte :: rest)

/-- The digits that are read. -/
def digitsRead (text : List UInt8) : List UInt8 :=
  (takeSign (text.dropWhile isSpace)).2.takeWhile isDigit

/-- `std::stoul`, for an `unsigned long` of so many bits. -/
def stoul (bits : ℕ) (text : List UInt8) : Except StoulError ℕ :=
  if digitsRead text = [] then .error .invalidArgument
  else if 2 ^ bits ≤ decimalValue (digitsRead text) then .error .outOfRange
  else if (takeSign (text.dropWhile isSpace)).1 then
    .ok ((2 ^ bits - decimalValue (digitsRead text)) % 2 ^ bits)
  else .ok (decimalValue (digitsRead text))

theorem isDigit_iff {byte : UInt8} :
    isDigit byte = true ↔ 48 ≤ byte.toNat ∧ byte.toNat ≤ 57 := by
  simp only [isDigit, Bool.and_eq_true, decide_eq_true_eq, UInt8.le_iff_toNat_le]
  exact Iff.rfl

/-- A digit is no blank. -/
theorem isSpace_of_isDigit {byte : UInt8} (digit : isDigit byte = true) : isSpace byte = false := by
  have bounds := isDigit_iff.mp digit
  rw [Bool.eq_false_iff]
  intro space
  simp only [isSpace, Bool.or_eq_true, Bool.and_eq_true, decide_eq_true_eq, UInt8.le_iff_toNat_le,
    ← UInt8.toNat_inj, UInt8.reduceToNat] at space
  omega

/-- A digit is no sign. -/
theorem takeSign_of_isDigit {byte : UInt8} (digit : isDigit byte = true) (rest : List UInt8) :
    takeSign (byte :: rest) = (false, byte :: rest) := by
  have noMinus : byte ≠ 45 := by
    rintro rfl
    cases digit
  have noPlus : byte ≠ 43 := by
    rintro rfl
    cases digit
  rw [takeSign, if_neg noMinus, if_neg noPlus]

/-- A numeral is read to its end. -/
theorem digitsRead_of_isNumeral {text : List UInt8} (numeral : IsNumeral text) :
    takeSign (text.dropWhile isSpace) = (false, text) ∧ digitsRead text = text := by
  have sign : takeSign (text.dropWhile isSpace) = (false, text) := by
    cases text with
    | nil => exact absurd rfl numeral.1
    | cons byte rest =>
        have digit := numeral.2 byte List.mem_cons_self
        have noSpace : ¬ isSpace byte = true := by
          rw [isSpace_of_isDigit digit]
          exact Bool.false_ne_true
        rw [List.dropWhile_cons_of_neg noSpace, takeSign_of_isDigit digit]
  refine ⟨sign, ?_⟩
  rw [digitsRead, sign]
  exact List.takeWhile_eq_self_iff.mpr numeral.2

/-- **A numeral is read as its value, if the value has so many bits.** -/
theorem stoul_of_isNumeral {bits : ℕ} {text : List UInt8} (numeral : IsNumeral text) :
    stoul bits text =
      if 2 ^ bits ≤ decimalValue text then .error .outOfRange else .ok (decimalValue text) := by
  obtain ⟨sign, digits⟩ := digitsRead_of_isNumeral numeral
  rw [stoul, digits, sign, if_neg numeral.1]
  rfl

/-- **A number is read exactly if there are digits where it starts and their value has so many
bits.** -/
theorem stoul_isOk_iff (bits : ℕ) (text : List UInt8) :
    (stoul bits text).isOk = true ↔
      digitsRead text ≠ [] ∧ decimalValue (digitsRead text) < 2 ^ bits := by
  rw [stoul]
  by_cases noDigit : digitsRead text = []
  · rw [if_pos noDigit]
    exact iff_of_false Bool.false_ne_true fun both => both.1 noDigit
  · rw [if_neg noDigit]
    by_cases large : 2 ^ bits ≤ decimalValue (digitsRead text)
    · rw [if_pos large]
      exact iff_of_false Bool.false_ne_true fun both => Nat.not_lt.mpr large both.2
    · rw [if_neg large]
      refine iff_of_true ?_ ⟨noDigit, Nat.lt_of_not_le large⟩
      split <;> rfl

/-! ## Printing -/

/-- What `operator<<` prints for a number: its decimal digits. -/
def printDecimal (value : ℕ) : List UInt8 :=
  (Nat.toDigits 10 value).map fun digit => UInt8.ofNat digit.toNat

theorem decimalValue_concat (digits : List UInt8) (digit : UInt8) :
    decimalValue (digits ++ [digit]) = 10 * decimalValue digits + (digit.toNat - 48) := by
  rw [decimalValue, List.foldl_append]
  rfl

theorem toNat_printedDigit {digit : ℕ} (small : digit < 10) :
    (UInt8.ofNat (Nat.digitChar digit).toNat).toNat = 48 + digit := by
  rw [Nat.toNat_digitChar_of_lt_ten small, UInt8.toNat_ofNat']
  omega

/-- The digits of a number, one by one. -/
theorem printDecimal_eq (value : ℕ) :
    printDecimal value =
      (if value < 10 then [] else printDecimal (value / 10)) ++
        [UInt8.ofNat (Nat.digitChar (value % 10)).toNat] := by
  simp only [printDecimal]
  rw [Nat.toDigits_eq_if (by decide)]
  split
  case isTrue small => rw [Nat.mod_eq_of_lt small]; rfl
  case isFalse => rw [List.map_append]; rfl

/-- **A number is printed as a numeral that denotes it.** -/
theorem numeral_printDecimal (value : ℕ) :
    IsNumeral (printDecimal value) ∧ decimalValue (printDecimal value) = value := by
  induction value using Nat.strongRecOn with
  | ind value ih =>
      have front : ∀ digits, digits = (if value < 10 then [] else printDecimal (value / 10)) →
          (∀ byte ∈ digits, isDigit byte = true) ∧ decimalValue digits = value / 10 := by
        rintro digits rfl
        split
        case isTrue small =>
          refine ⟨fun byte member => ?_, (Nat.div_eq_of_lt small).symm⟩
          cases member
        case isFalse large =>
          obtain ⟨numeral, same⟩ := ih (value / 10) (by omega)
          exact ⟨numeral.2, same⟩
      obtain ⟨digits, same⟩ := front _ rfl
      have last := toNat_printedDigit (Nat.mod_lt value (by decide : 0 < 10))
      rw [printDecimal_eq]
      refine ⟨⟨by simp, fun byte member => ?_⟩, ?_⟩
      · rcases List.mem_append.mp member with earlier | isLast
        · exact digits byte earlier
        · rw [List.mem_singleton.mp isLast, isDigit_iff, last]
          omega
      · rw [decimalValue_concat, same, last]
        omega

end NetworkChat.Foundation
