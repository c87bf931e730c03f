/-! Numbers with a significand of 53 bits, and the rounding of a quotient to the nearest of them.
The exponent has no bounds here: no share of a whole comes near them, and a reader that has to
refuse what lies beyond the largest double asks `Binary.overflows`. -/

namespace Lsif.Number

def roundDiv (num den : Nat) : Nat :=
  let floor := num / den
  let twice := 2 * (num % den)
  if twice < den then floor
  else if den < twice then floor + 1
  else if floor % 2 = 0 then floor else floor + 1

structure Binary where
  significand : Nat
  exponent : Int
deriving DecidableEq, Repr

namespace Binary

def zero : Binary := ⟨0, 0⟩

def scaled (num den : Nat) (exponent : Int) : Nat :=
  roundDiv (num * Nat.pow 2 (-exponent).toNat) (den * Nat.pow 2 exponent.toNat)

/-- The number nearest to `num / den`, with a significand of exactly 53 bits unless it is zero. -/
def nearest (num den : Nat) : Binary :=
  if num = 0 then zero
  else
    let size : Int := (Nat.log2 num : Int) - Nat.log2 den
    let low := size - 53
    let high := size - 52
    -- the larger exponent leaves one bit too few exactly if the quotient is below `2 ^ size`
    let exponent :=
      if num * Nat.pow 2 (-size).toNat < den * Nat.pow 2 size.toNat then low else high
    let significand := scaled num den exponent
    if significand = Nat.pow 2 53 then ⟨Nat.pow 2 52, exponent + 1⟩ else ⟨significand, exponent⟩

def mul (a b : Binary) : Binary :=
  let product := nearest (a.significand * b.significand) 1
  if product.significand = 0 then zero
  else ⟨product.significand, product.exponent + a.exponent + b.exponent⟩

def overflows (b : Binary) : Bool :=
  b.significand != 0 && 1024 ≤ b.exponent + (Nat.log2 b.significand : Int)

def fixed (b : Binary) (places : Nat) : Nat :=
  roundDiv (b.significand * Nat.pow 10 places * Nat.pow 2 b.exponent.toNat)
    (Nat.pow 2 (-b.exponent).toNat)

end Binary

end Lsif.Number
