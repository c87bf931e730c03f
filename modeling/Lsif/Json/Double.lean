import Lsif.Json.Numeral
import Lsif.Number.Decimal

/-! The JSON text of a number that is no integer by nature: the shortest decimal that stands for it,
always with a fraction or a power of ten. From 0.00001 up to 16 digits before the point it is
written in full, beyond that with one digit before the point and a power of ten. -/

namespace Lsif.Numeral

def lastDigits (count n : Nat) : List (Fin 10) :=
  (List.range count).map fun i =>
    ⟨n / Nat.pow 10 (count - 1 - i) % 10, Nat.mod_lt _ (by decide)⟩

def ofDecimal (d : Number.Decimal) : Numeral :=
  let size := (Nat.toDigits 10 d.digits).length
  -- the place of the point, counted from the first digit
  let point := d.exponent + size
  let places := (-d.exponent).toNat
  if point < -4 ∨ 16 < point then
    { negative := false
      whole := d.digits / Nat.pow 10 (size - 1)
      fraction := lastDigits (size - 1) d.digits
      exponent := some (point - 1) }
  else if 0 ≤ d.exponent then
    { negative := false
      whole := d.digits * Nat.pow 10 d.exponent.toNat
      fraction := [⟨0, by decide⟩]
      exponent := none }
  else
    { negative := false
      whole := d.digits / Nat.pow 10 places
      fraction := lastDigits places d.digits
      exponent := none }

def ofBinary (b : Number.Binary) : Numeral :=
  ofDecimal (.shortest b)

end Lsif.Numeral
