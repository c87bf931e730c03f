/-! Decimal integers as a user writes them: an optional sign, then ASCII digits only. -/

namespace Lsif.Text

def digit? (c : Char) : Option (Fin 10) :=
  if h : '0'.toNat ≤ c.toNat ∧ c.toNat ≤ '9'.toNat then
    some ⟨c.toNat - '0'.toNat, by
      have h0 : '0'.toNat = 48 := rfl
      have h9 : '9'.toNat = 57 := rfl
      omega⟩
  else none

def digits? (cs : List Char) : Option (List (Fin 10)) :=
  cs.mapM digit?

def ofDigits (ds : List (Fin 10)) : Nat :=
  ds.foldl (fun n d => 10 * n + d.val) 0

def natural? (cs : List Char) : Option Nat :=
  if cs.isEmpty then none else (digits? cs).map ofDigits

def unsigned? (s : String) : Option Nat := do
  let n ← natural? (match s.toList with | '+' :: cs => cs | cs => cs)
  if n < UInt64.size then some n else none

def signed? (s : String) : Option Int64 := do
  let i ← match s.toList with
    | '-' :: cs => (natural? cs).map fun n => -(n : Int)
    | '+' :: cs => (natural? cs).map fun n => (n : Int)
    | cs => (natural? cs).map fun n => (n : Int)
  if Int64.minValue.toInt ≤ i ∧ i ≤ Int64.maxValue.toInt then some (Int64.ofInt i) else none

end Lsif.Text
