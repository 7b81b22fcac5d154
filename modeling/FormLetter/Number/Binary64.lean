/-
# Double precision numbers

A double precision number is kept as its 64 bits: a sign, an exponent field of eleven bits and a
fraction of 52 bits.  All that is asked of it can be answered on the bits, without floating point
arithmetic: its exact magnitude, equality, and the double that a single precision number widens to.
-/

namespace FormLetter

/-- A double precision number, given by its bits. -/
structure Binary64 where
  /-- Sign, exponent field and fraction, from the highest bit down. -/
  bits : UInt64
deriving DecidableEq

/-- What a double precision number is, its sign aside. -/
inductive Magnitude where
  /-- Not a number. -/
  | nan
  /-- Infinite. -/
  | infinite
  /-- The number `significand · 2 ^ exponent`. -/
  | finite (significand : Nat) (exponent : Int)
deriving DecidableEq

namespace Binary64

/-- How many fractions there are: one for each setting of 52 bits. -/
def fractions : Nat := 1 <<< 52

/-- Is the sign bit set? -/
def isNegative (x : Binary64) : Bool := x.bits.toNat >>> 63 == 1

/-- The eleven bits after the sign. -/
def exponentField (x : Binary64) : Nat := x.bits.toNat / fractions % 2048

/-- The lowest 52 bits. -/
def fraction (x : Binary64) : Nat := x.bits.toNat % fractions

/-- The exact magnitude.  The lowest exponent field belongs to zero and the subnormal numbers, which
have no leading one; the highest belongs to the infinities and to what is not a number. -/
def magnitude (x : Binary64) : Magnitude :=
  if x.exponentField = 2047 then
    if x.fraction = 0 then .infinite else .nan
  else if x.exponentField = 0 then .finite x.fraction (-1074)
  else .finite (fractions + x.fraction) (x.exponentField - 1075)

/-- Equality as numbers: the two zeros are equal, and what is not a number equals nothing. -/
protected def beq (x y : Binary64) : Bool :=
  if x.magnitude = .nan then false
  else x.bits == y.bits || (x.magnitude == .finite 0 (-1074) && y.magnitude == .finite 0 (-1074))

instance : BEq Binary64 := ⟨Binary64.beq⟩

/-- The double with the given sign, exponent field and fraction. -/
def ofFields (negative : Bool) (exponentField fraction : Nat) : Binary64 :=
  ⟨.ofNat ((if negative then 1 <<< 63 else 0) + exponentField * fractions + fraction)⟩

/-- The double of the same value as the single precision number with the given bits.  Single
precision has an exponent field of eight bits, biased by 127 instead of 1023, and a fraction of 23
bits; its subnormal numbers `fraction · 2 ^ (-149)` are normal doubles. -/
def ofBinary32 (bits : UInt32) : Binary64 :=
  let negative := bits.toNat >>> 31 == 1
  let exponentField := bits.toNat / (1 <<< 23) % 256
  let fraction := bits.toNat % (1 <<< 23)
  if exponentField = 255 then ofFields negative 2047 (fraction <<< 29)
  else if exponentField = 0 then
    if fraction = 0 then ofFields negative 0 0
    else
      let leading := fraction.log2
      ofFields negative (leading + 874) ((fraction - 1 <<< leading) <<< (52 - leading))
  else ofFields negative (exponentField + 896) (fraction <<< 29)

end Binary64
end FormLetter
