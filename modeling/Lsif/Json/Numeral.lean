import Lsif.Number.Binary
import Lsif.Text.Integer

/-! Numbers as JSON writes them. A numeral keeps its digits: whether it is an integer, and whether
it is too large for a double, depends on how it is written. -/

namespace Lsif

structure Numeral where
  negative : Bool
  whole : Nat
  fraction : List (Fin 10)
  exponent : Option Int
deriving DecidableEq, Repr

namespace Numeral

def ofNat (n : Nat) : Numeral := ⟨false, n, [], none⟩

def ofInt (i : Int) : Numeral := ⟨i < 0, i.natAbs, [], none⟩

def leadingDigits (cs : List Char) : List (Fin 10) × List Char :=
  ((cs.takeWhile fun c => (Text.digit? c).isSome).filterMap Text.digit?,
    cs.dropWhile fun c => (Text.digit? c).isSome)

def whole? : List (Fin 10) → Option Nat
  | [] => none
  | [d] => some d.val
  | d :: ds => if d = 0 then none else some (Text.ofDigits (d :: ds))

def fraction? : List Char → Option (List (Fin 10) × List Char)
  | '.' :: cs =>
    match leadingDigits cs with
    | ([], _) => none
    | (ds, rest) => some (ds, rest)
  | cs => some ([], cs)

def exponent? : List Char → Option (Option Int)
  | [] => some none
  | mark :: cs =>
    if mark = 'e' ∨ mark = 'E' then
      match cs with
      | '-' :: ds => (Text.natural? ds).map fun n => some (-(n : Int))
      | '+' :: ds => (Text.natural? ds).map fun n => some (n : Int)
      | ds => (Text.natural? ds).map fun n => some (n : Int)
    else none

def unsignedOfChars? (negative : Bool) (cs : List Char) : Option Numeral := do
  let front := leadingDigits cs
  let whole ← whole? front.1
  let (fraction, rest) ← fraction? front.2
  let exponent ← exponent? rest
  return { negative, whole, fraction, exponent }

def ofChars? : List Char → Option Numeral
  | '-' :: cs => unsignedOfChars? true cs
  | cs => unsignedOfChars? false cs

/-- The integer it stands for, if it is written as one and 64 bits hold it; minus zero is none. -/
def integer? (n : Numeral) : Option Int :=
  if n.fraction.isEmpty && n.exponent.isNone then
    if n.negative then
      if 0 < n.whole ∧ n.whole ≤ Nat.pow 2 63 then some (-(n.whole : Int)) else none
    else if n.whole < UInt64.size then some n.whole else none
  else none

def leading64 (whole dropped : Nat) : Nat × Nat :=
  if whole < UInt64.size then (whole, dropped) else leading64 (whole / 10) (dropped + 1)
termination_by whole
decreasing_by
  have hsize : 0 < UInt64.size := by decide
  omega

def extend64 (kept : Nat) (exponent : Int) : List (Fin 10) → Nat × Int
  | [] => (kept, exponent)
  | d :: ds =>
    if 10 * kept + d.val < UInt64.size then extend64 (10 * kept + d.val) (exponent - 1) ds
    else (kept, exponent)

def productOverflows (digits power : Nat) : Bool :=
  ((Number.Binary.nearest digits 1).mul (Number.Binary.nearest (Nat.pow 10 power) 1)).overflows

/-- Whether the numeral is no double, being too large. Of its digits, those count that 64 bits
hold. -/
def overflows (n : Numeral) : Bool :=
  if n.integer?.isSome then false
  else
    let (kept, dropped) := leading64 n.whole 0
    let (digits, shift) := extend64 kept dropped n.fraction
    let power := shift + n.exponent.getD 0
    -- a power beyond the doubles is never formed
    digits != 0 && (308 < power || (0 ≤ power && productOverflows digits power.toNat))

def render (n : Numeral) : String :=
  (if n.negative then "-" else "") ++ Nat.repr n.whole ++
    (if n.fraction.isEmpty then ""
      else "." ++ String.ofList (n.fraction.map fun d => Nat.digitChar d.val)) ++
    (match n.exponent with
      | none => ""
      | some e => "e" ++ (if e < 0 then "-" else "") ++ Nat.repr e.natAbs)

end Numeral

end Lsif
