/-
# Written numbers

How the digits of a double are laid out: positionally, with at least one digit on either side of the
point, or with an exponent, as in `1e16` and `2.5e-7`.  The notations of a number differ in the
range of the positional form, in what is taken of two equally near decimals, and in the words for
what has no digits; a `Layout` holds these choices.
-/
import FormLetter.Number.Shortest

namespace FormLetter

/-- The choices of a notation for doubles. -/
structure Layout where
  /-- Is a number written positionally whose first digit stands for this power of ten? -/
  positional : Int → Bool
  /-- Which of two equally near decimals is written. -/
  tie : Tie
  /-- What is written for what is not a number. -/
  nan : String
  /-- What is written for the positive infinity. -/
  infinity : String
  /-- What is written for the negative infinity. -/
  negativeInfinity : String

namespace Layout

/-- Digits with the point after the first `point` of them, zeros being added where there are none.
-/
def positionalText (digits : List Char) (point : Int) : List Char :=
  if point ≤ 0 then '0' :: '.' :: (List.replicate (-point).toNat '0' ++ digits)
  else if digits.length ≤ point.toNat then
    digits ++ List.replicate (point.toNat - digits.length) '0' ++ ['.', '0']
  else digits.take point.toNat ++ '.' :: digits.drop point.toNat

/-- Digits with the point after the first one, if there are more, and the power of ten of that first
one. -/
def exponentText (digits : List Char) (power : Int) : List Char :=
  let mantissa :=
    match digits with
    | first :: second :: rest => first :: '.' :: second :: rest
    | digits => digits
  mantissa ++ 'e' :: (toString power).toList

/-- The significant digits of a double, without zeros at the end, and the place of the point in
front of or among them. -/
def significantDigits (tie : Tie) (significand : Nat) (exponent : Int) : List Char × Int :=
  if significand = 0 then (['0'], 1)
  else
    let decimal := Decimal.shortest tie significand exponent
    let digits := Nat.toDigits 10 decimal.digits
    ((digits.reverse.dropWhile (· == '0')).reverse, digits.length + decimal.exponent)

/-- A double in the notation of the layout. -/
def write (layout : Layout) (x : Binary64) : String :=
  match x.magnitude with
  | .nan => layout.nan
  | .infinite => if x.isNegative then layout.negativeInfinity else layout.infinity
  | .finite significand exponent =>
    let (digits, point) := significantDigits layout.tie significand exponent
    let text :=
      if layout.positional (point - 1) then positionalText digits point
      else exponentText digits (point - 1)
    String.ofList (if x.isNegative then '-' :: text else text)

end Layout
end FormLetter
