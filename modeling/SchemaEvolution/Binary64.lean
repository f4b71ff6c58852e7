set_option autoImplicit false

/-! # Double-precision numbers as their bits

A double is kept as its 64 bits: a sign bit, eleven bits of exponent and 52 bits of fraction. The
bits decide every question asked here, so no floating-point operation is needed. `equals` is
numeric equality: a NaN equals nothing, the two zeros are equal, any other value only itself.
`ofDecimal` rounds a decimal to the nearest double, a tie going to the even fraction.
-/

namespace SchemaEvolution

/-- A double-precision number. -/
structure Binary64 where
  bits : UInt64
  deriving DecidableEq, Repr

namespace Binary64

/-- The exponent bits. -/
def exponent (x : Binary64) : Nat := (x.bits >>> 52).toNat % 2048

/-- The fraction bits. -/
def fraction (x : Binary64) : Nat := x.bits.toNat % (1 <<< 52)

/-- Whether the sign bit is set. -/
def isNegative (x : Binary64) : Bool := x.bits >>> 63 == 1

/-- Not a number. -/
def isNaN (x : Binary64) : Bool := x.exponent == 2047 && x.fraction != 0

/-- One of the two zeros. -/
def isZero (x : Binary64) : Bool := x.exponent == 0 && x.fraction == 0

/-- Numeric equality. -/
def equals (x y : Binary64) : Bool :=
  !x.isNaN && !y.isNaN && (x.bits == y.bits || (x.isZero && y.isZero))

/-- A double from its sign and the number its other 63 bits spell. -/
def ofParts (negative : Bool) (magnitude : Nat) : Binary64 :=
  ⟨((if negative then 1 <<< 63 else 0) + magnitude).toUInt64⟩

/-- The double of the same value as a single-precision number given by its bits. A NaN keeps its
payload and becomes quiet. -/
def ofBinary32 (single : UInt32) : Binary64 :=
  let n := single.toNat
  let exponent := (n >>> 23) % 256
  let fraction := n % (1 <<< 23)
  ofParts (n >>> 31 == 1) <|
    if exponent = 255 then
      2047 <<< 52 + (if fraction = 0 then 0 else 1 <<< 51 ||| fraction <<< 29)
    else if exponent = 0 then
      if fraction = 0 then 0
      else
        let top := fraction.log2
        (top + 874) <<< 52 + (fraction - 1 <<< top) <<< (52 - top)
    else (exponent + 896) <<< 52 + fraction <<< 29

/-- The quotient rounded to the nearest natural number, a tie to the even one. -/
def roundDiv (num den : Nat) : Nat :=
  let q := num / den
  let r := num % den
  if 2 * r > den || (2 * r == den && q % 2 == 1) then q + 1 else q

/-- The magnitude bits of `num / den`, both positive. With `2 ^ k` the greatest power of two that is
not above the quotient, the last place has the weight `2 ^ max (k - 52) (-1074)`. -/
def magnitude (num den : Nat) : Nat :=
  let k₀ : Int := num.log2 - den.log2
  let below := if k₀ ≥ 0 then num < den <<< k₀.toNat else num <<< (-k₀).toNat < den
  let k := if below then k₀ - 1 else k₀
  let place := max (k - 52) (-1074)
  let units :=
    if place ≥ 0 then roundDiv num (den <<< place.toNat)
    else roundDiv (num <<< (-place).toNat) den
  (place + 1074).toNat <<< 52 + units

/-- The double nearest to `digits * 10 ^ scale`, or nothing when it is beyond the greatest one. -/
def ofDecimal (negative : Bool) (digits : Nat) (scale : Int) : Option Binary64 :=
  let places : Int := (Nat.toDigits 10 digits).length + scale
  if digits = 0 || places < -400 then some (ofParts negative 0)
  else if places > 400 then none
  else
    let m := if scale ≥ 0 then magnitude (digits * Nat.pow 10 scale.toNat) 1
      else magnitude digits (Nat.pow 10 (-scale).toNat)
    if m < 2047 <<< 52 then some (ofParts negative m) else none

/-- The exact decimal text of a finite double: a point and a zero follow a whole number, any other
is written with a negative exponent. -/
def toText (x : Binary64) : String :=
  let units := if x.exponent = 0 then x.fraction else 1 <<< 52 + x.fraction
  let place : Int := (max x.exponent 1 : Nat) - 1075
  let text :=
    if place ≥ 0 then toString (units <<< place.toNat) ++ ".0"
    else toString (units * Nat.pow 5 (-place).toNat) ++ "e-" ++ toString (-place).toNat
  if x.isNegative then "-" ++ text else text

end Binary64

end SchemaEvolution
