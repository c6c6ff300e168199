/-!
# Numbers on the command line

A number is one or more decimal digits, with a sign in front if one is allowed: a plus always is, a
minus only for `integer`. A number is read digit by digit, and the first thing that is wrong is what
is reported: a character that is no digit, or a value that has left the range of its word.
-/

namespace Handheld

/-- What can be wrong with a number. -/
inductive NumberError
  | empty
  | invalidDigit
  | tooLarge
  | tooSmall
  /-- The number was read but is none of the numbers from 0 to `last`. -/
  | outside (number : Int) (last : Nat)
  deriving DecidableEq, Repr

namespace NumberError

/-- What is said about a number. -/
def message : NumberError → String
  | .empty => "cannot parse integer from empty string"
  | .invalidDigit => "invalid digit found in string"
  | .tooLarge => "number too large to fit in target type"
  | .tooSmall => "number too small to fit in target type"
  | .outside number last => toString number ++ " is not in 0..=" ++ toString last

end NumberError

namespace Number

/-- The value of a decimal digit. -/
def digit? (c : Char) : Option Nat := if c.isDigit then some (c.toNat - '0'.toNat) else none

/-- Read digits on from the value of those before them, up to a largest value; beyond it is the
    error `overflow`. -/
def digits (last : Nat) (overflow : NumberError) (value : Nat) : List Char → Except NumberError Nat
  | [] => .ok value
  | c :: cs =>
    match digit? c with
    | none => .error .invalidDigit
    | some d =>
      if last < value * 10 + d then .error overflow
      else digits last overflow (value * 10 + d) cs

/-- Read one or more digits. -/
def digits1 (last : Nat) (overflow : NumberError) : List Char → Except NumberError Nat
  | [] => .error .invalidDigit
  | cs => digits last overflow 0 cs

/-- Read a number from 0 to `last`. -/
def natural (last : Nat) : List Char → Except NumberError Nat
  | [] => .error .empty
  | '+' :: cs => digits1 last .tooLarge cs
  | cs => digits1 last .tooLarge cs

/-- Read a number of a word of 64 bits with a sign. -/
def integer : List Char → Except NumberError Int
  | [] => .error .empty
  | '+' :: cs => Int.ofNat <$> digits1 (Int64.size / 2 - 1) .tooLarge cs
  | '-' :: cs => (fun n : Nat => -(n : Int)) <$> digits1 (Int64.size / 2) .tooSmall cs
  | cs => Int.ofNat <$> digits1 (Int64.size / 2 - 1) .tooLarge cs

/-- Read a byte. -/
def byte (cs : List Char) : Except NumberError UInt8 := do
  let n ← integer cs
  if 0 ≤ n ∧ n ≤ 255 then return UInt8.ofNat n.toNat else throw (.outside n 255)

end Number

end Handheld
