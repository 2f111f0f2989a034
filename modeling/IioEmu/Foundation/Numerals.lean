import Mathlib.Data.List.TakeWhile
import Mathlib.Data.Rat.Floor
import IioEmu.Foundation.Memory

/-! # Numbers in text, and `double`

`Double` is the part of the `double` type and of its text conversion that the
modelled programs use. Everything proved for an arbitrary `Double` holds of
the hardware's; the rational numbers are the instance without rounding. -/

namespace IioEmu

def isSpace (char : Char) : Bool :=
  char.toNat == 32 || (9 ≤ char.toNat && char.toNat ≤ 13)

def digitsValue (digits : List Char) : Nat :=
  digits.foldl (fun value digit => 10 * value + (digit.toNat - 48)) 0

def splitSign : List Char → Bool × List Char
  | '-' :: rest => (true, rest)
  | '+' :: rest => (false, rest)
  | chars => (false, chars)

/-- The integer a text starts with, as `strtol` in base ten finds it. -/
def leadingInteger (text : String) : Option Int :=
  let (negative, rest) := splitSign (text.toList.dropWhile isSpace)
  let digits := rest.takeWhile Char.isDigit
  if digits.isEmpty then none
  else some (if negative then -(digitsValue digits : Int) else digitsValue digits)

def IsInt (value : Int) : Prop := -2 ^ 31 ≤ value ∧ value < 2 ^ 31

instance (value : Int) : Decidable (IsInt value) := by
  unfold IsInt
  infer_instance

def stoi (text : String) : Outcome Int :=
  match leadingInteger text with
  | none => .error .invalidArgument
  | some value => if IsInt value then .ok value else .error .outOfRange

theorem stoi_eq_ok_iff {text : String} {value : Int} :
    stoi text = .ok value ↔ leadingInteger text = some value ∧ IsInt value := by
  rw [stoi]
  cases leadingInteger text with
  | none => simp
  | some found =>
      by_cases fits : IsInt found
      · simp only [fits, if_true, Except.ok.injEq, Option.some.injEq]
        constructor
        · rintro rfl
          exact ⟨rfl, fits⟩
        · exact And.left
      · simp only [fits, if_false, reduceCtorEq, Option.some.injEq, false_iff]
        rintro ⟨rfl, isInt⟩
        exact fits isInt

/-! ## Decimal integers -/

def isDecimal (text : String) : Bool :=
  let digits := (splitSign text.toList).2
  !digits.isEmpty && digits.all Char.isDigit

structure DecimalInteger where
  text : String
  decimal : isDecimal text

namespace DecimalInteger

def value (integer : DecimalInteger) : Int :=
  let (negative, digits) := splitSign integer.text.toList
  if negative then -(digitsValue digits : Int) else digitsValue digits

theorem not_isSpace_of_isDigit {char : Char} (digit : char.isDigit) :
    isSpace char = false := by
  rw [Char.isDigit_iff_toNat] at digit
  have low : 48 ≤ char.toNat := digit.1
  simp only [isSpace, Bool.or_eq_false_iff, Bool.and_eq_false_iff, beq_eq_false_iff_ne,
    decide_eq_false_iff_not]
  omega

theorem dropWhile_isSpace {chars : List Char}
    (digits : (splitSign chars).2.all Char.isDigit) :
    chars.dropWhile isSpace = chars := by
  cases chars with
  | nil => rfl
  | cons char rest =>
      have visible : isSpace char = false := by
        by_cases minus : char = '-'
        · subst minus
          decide
        · by_cases plus : char = '+'
          · subst plus
            decide
          · have whole : splitSign (char :: rest) = (false, char :: rest) := by
              unfold splitSign
              split <;> simp_all
            rw [whole, List.all_cons, Bool.and_eq_true] at digits
            exact not_isSpace_of_isDigit digits.1
      rw [List.dropWhile_cons, visible]
      rfl

theorem leadingInteger_text (integer : DecimalInteger) :
    leadingInteger integer.text = some integer.value := by
  have decimal := integer.decimal
  simp only [isDecimal, Bool.and_eq_true, Bool.not_eq_true', List.isEmpty_eq_false_iff]
    at decimal
  have whole : (splitSign integer.text.toList).2.takeWhile Char.isDigit =
      (splitSign integer.text.toList).2 := by
    rw [List.takeWhile_eq_self_iff]
    exact List.all_eq_true.mp decimal.2
  simp [leadingInteger, value, dropWhile_isSpace decimal.2, whole, decimal.1]

theorem nulFree_text (integer : DecimalInteger) : NulFree integer.text := by
  have decimal := integer.decimal
  simp only [isDecimal, Bool.and_eq_true] at decimal
  have digits := List.all_eq_true.mp decimal.2
  have notDigit : nul.isDigit = false := by decide
  intro member
  have inDigits : nul ∈ (splitSign integer.text.toList).2 := by
    revert member
    unfold splitSign
    split
    case h_1 chars => simp [chars, nul]
    case h_2 chars => simp [chars, nul]
    case h_3 => exact id
  rw [digits nul inDigits] at notDigit
  cases notDigit

/-- `std::stoi` of a decimal integer throws only when the value is no `int`. -/
theorem stoi_text (integer : DecimalInteger) :
    stoi integer.text = if IsInt integer.value then .ok integer.value
      else .error .outOfRange := by
  rw [stoi, leadingInteger_text]

end DecimalInteger

theorem nulFree_toString (value : Int) : NulFree (toString value) := by
  have digits (count : Nat) : nul ∉ count.repr.toList := by
    rw [Nat.toList_repr]
    intro member
    have digit := Nat.isDigit_of_mem_toDigits (by decide) (by decide) member
    exact absurd digit (by decide)
  rw [NulFree, Int.toString_eq_repr]
  cases value with
  | ofNat count => exact digits count
  | negSucc count =>
      have signed : (Int.negSucc count).repr = "-" ++ (count + 1).repr := rfl
      rw [signed, String.toList_append, List.mem_append]
      intro member
      cases member with
      | inl sign => exact absurd sign (by decide)
      | inr rest => exact digits _ rest

theorem toString_ne_empty (value : Int) : toString value ≠ "" := by
  rw [Int.toString_eq_repr]
  cases value with
  | ofNat count =>
      intro empty
      have digits : Nat.toDigits 10 count = [] := by
        rw [← Nat.toList_repr, show count.repr = "" from empty, String.toList_empty]
      exact Nat.toDigits_ne_nil digits
  | negSucc count =>
      have signed : (Int.negSucc count).repr = "-" ++ (count + 1).repr := rfl
      rw [signed]
      intro empty
      have length := congrArg String.length empty
      rw [String.length_append] at length
      simp at length

/-! ## Conversions and `double` -/

def unsignedOfInt (value : Int) : Nat := (value % 2 ^ 32).toNat

class Double (δ : Type) extends Add δ, Sub δ, Mul δ, Div δ, Neg δ, OfScientific δ where
  decidableEq : DecidableEq δ
  ofInt : Int → δ
  /-- `static_cast<unsigned int>`. -/
  toUnsigned : δ → Nat
  toUnsigned_lt : ∀ value, toUnsigned value < 2 ^ 32
  /-- `static_cast<int>`, with the value the hardware gives outside the range. -/
  toInt : δ → Int
  /-- What `operator>>` of a stream in the C locale stores. -/
  extract : String → δ

instance {δ : Type} [Double δ] : DecidableEq δ := Double.decidableEq

def leadingDecimal (text : String) : Rat :=
  let (negative, unsignedPart) := splitSign (text.toList.dropWhile isSpace)
  let whole := unsignedPart.takeWhile Char.isDigit
  let afterWhole := unsignedPart.dropWhile Char.isDigit
  let (fraction, afterFraction) :=
    match afterWhole with
    | '.' :: rest => (rest.takeWhile Char.isDigit, rest.dropWhile Char.isDigit)
    | rest => ([], rest)
  let magnitude : Rat := digitsValue (whole ++ fraction) / 10 ^ fraction.length
  let mantissa := if negative then -magnitude else magnitude
  if whole.isEmpty && fraction.isEmpty then 0
  else match afterFraction with
    | 'e' :: rest | 'E' :: rest =>
        let (exponentNegative, exponentPart) := splitSign rest
        let exponent := exponentPart.takeWhile Char.isDigit
        if exponent.isEmpty then 0
        else if exponentNegative then mantissa / 10 ^ digitsValue exponent
        else mantissa * 10 ^ digitsValue exponent
    | _ => mantissa

def truncate (value : Rat) : Int := if 0 ≤ value then value.floor else value.ceil

instance : Double Rat where
  decidableEq := inferInstance
  ofInt value := value
  toUnsigned value := value.floor.toNat % 2 ^ 32
  toUnsigned_lt _ := Nat.mod_lt _ (by decide)
  toInt value := if IsInt (truncate value) then truncate value else -2 ^ 31
  extract := leadingDecimal

example : leadingDecimal " -1.25e2x" = -125 := by decide +kernel

end IioEmu
