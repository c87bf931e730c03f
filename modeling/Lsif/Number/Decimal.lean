import Lsif.Number.Binary

/-! The shortest decimal that stands for a binary number: of all decimals that are rounded to the
number, those with the fewest digits, and of these the one nearest to it. -/

namespace Lsif.Number

structure Decimal where
  digits : Nat
  exponent : Int
deriving DecidableEq, Repr

namespace Decimal

def toBinary (d : Decimal) : Binary :=
  Binary.nearest (d.digits * Nat.pow 10 d.exponent.toNat) (Nat.pow 10 (-d.exponent).toNat)

def exact (b : Binary) : Decimal :=
  if 0 ≤ b.exponent then ⟨b.significand * Nat.pow 2 b.exponent.toNat, 0⟩
  else ⟨b.significand * Nat.pow 5 (-b.exponent).toNat, b.exponent⟩

/-- The nearer of the two neighbours of the number on the grid of the multiples of `10 ^ exponent`,
among those that are read as the number. -/
def onGrid? (b : Binary) (exponent : Int) : Option Decimal :=
  let num := b.significand * Nat.pow 2 b.exponent.toNat * Nat.pow 10 (-exponent).toNat
  let den := Nat.pow 2 (-b.exponent).toNat * Nat.pow 10 exponent.toNat
  let below : Decimal := ⟨num / den, exponent⟩
  let above : Decimal := ⟨num / den + 1, exponent⟩
  let near : Decimal := ⟨roundDiv num den, exponent⟩
  if near.toBinary = b then some near
  else if below.toBinary = b then some below
  else if above.toBinary = b then some above
  else none

/-- The grids from coarse to fine: from one above the number down to one of the seventeen digits
that tell all numbers apart. -/
def grids (b : Binary) : List Int :=
  let top := (b.exponent + Nat.log2 b.significand) * 3 / 10 + 2
  (List.range 24).map fun (i : Nat) => top - i

def shortest (b : Binary) : Decimal :=
  if b.significand = 0 then ⟨0, 0⟩
  else ((grids b).findSome? (onGrid? b)).getD (exact b)

end Decimal

end Lsif.Number
