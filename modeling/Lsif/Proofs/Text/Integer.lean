import Lsif.Proofs.Json.Numeral

/-! Integers that are written in decimal are read back, up to the ends of their ranges. -/

namespace Lsif.Text

def IsDecimal (c : Char) : Prop := c = '-' ∨ ∃ d : Fin 10, c = Nat.digitChar d.val

theorem exists_digit_of_mem_toDigits {n : Nat} {c : Char} (h : c ∈ Nat.toDigits 10 n) :
    ∃ d : Fin 10, c = Nat.digitChar d.val := by
  obtain ⟨ds, hdigits, _⟩ := Numeral.exists_toDigits_eq n
  rw [hdigits, List.mem_map] at h
  obtain ⟨d, _, hd⟩ := h
  exact ⟨d, hd.symm⟩

theorem toDigits_ne_cons (n : Nat) {c : Char} (hc : c = '+' ∨ c = '-') (cs : List Char) :
    Nat.toDigits 10 n ≠ c :: cs := by
  intro h
  have hdigit (d : Fin 10) : Nat.digitChar d.val ≠ '+' ∧ Nat.digitChar d.val ≠ '-' := by
    revert d
    decide
  obtain ⟨d, rfl⟩ := exists_digit_of_mem_toDigits (h ▸ List.mem_cons_self)
  exact hc.elim (hdigit d).1 (hdigit d).2

theorem natural?_toDigits (n : Nat) : natural? (Nat.toDigits 10 n) = some n := by
  obtain ⟨ds, hdigits, hvalue, hwhole⟩ := Numeral.exists_toDigits_eq n
  rw [hdigits, natural?_map_digitChar (Numeral.whole?_eq_some_iff.mp hwhole).1.1, hvalue]

theorem toList_toString_nat (n : Nat) : (toString n).toList = Nat.toDigits 10 n := Nat.toList_repr

theorem toList_toString_int64 (i : Int64) : (toString i).toList =
    if i.toInt < 0 then '-' :: Nat.toDigits 10 i.toInt.natAbs else Nat.toDigits 10 i.toInt.natAbs := by
  have hrepr : toString i = Int.repr i.toInt := rfl
  rw [hrepr]
  cases i.toInt with
  | ofNat n => exact Nat.toList_repr
  | negSucc n =>
    rw [if_pos (Int.negSucc_lt_zero n), Int.repr, String.toList_append, Nat.toList_repr]
    rfl

theorem isDecimal_of_mem_toString_nat {n : Nat} {c : Char} (h : c ∈ (toString n).toList) :
    IsDecimal c := by
  rw [toList_toString_nat] at h
  exact .inr (exists_digit_of_mem_toDigits h)

theorem isDecimal_of_mem_toString_int64 {i : Int64} {c : Char} (h : c ∈ (toString i).toList) :
    IsDecimal c := by
  rw [toList_toString_int64] at h
  split at h
  · obtain rfl | hdigit := List.mem_cons.mp h
    · exact .inl rfl
    · exact .inr (exists_digit_of_mem_toDigits hdigit)
  · exact .inr (exists_digit_of_mem_toDigits h)

theorem unsigned?_toString {n : Nat} (h : n < UInt64.size) : unsigned? (toString n) = some n := by
  rw [unsigned?, toList_toString_nat]
  split
  case h_1 cs hcs => exact absurd hcs (toDigits_ne_cons n (.inl rfl) cs)
  case h_2 => simp [natural?_toDigits, h]

theorem signed?_toString (i : Int64) : signed? (toString i) = some i := by
  have hfits : (if Int64.minValue.toInt ≤ i.toInt ∧ i.toInt ≤ Int64.maxValue.toInt then
      some (Int64.ofInt i.toInt) else none) = some i := by
    rw [if_pos ⟨i.minValue_le_toInt, i.toInt_le⟩, Int64.ofInt_toInt]
  rw [signed?, toList_toString_int64]
  by_cases hneg : i.toInt < 0
  · have hvalue : -(i.toInt.natAbs : Int) = i.toInt := by omega
    simp only [if_pos hneg, natural?_toDigits, Option.bind_eq_bind, Option.bind_some, Option.pure_def,
      Option.map_some, hvalue]
    exact hfits
  · have hvalue : (i.toInt.natAbs : Int) = i.toInt := by omega
    rw [if_neg hneg]
    split
    case h_1 cs hcs => exact absurd hcs (toDigits_ne_cons _ (.inr rfl) cs)
    case h_2 cs hcs => exact absurd hcs (toDigits_ne_cons _ (.inl rfl) cs)
    case h_3 =>
      simp only [natural?_toDigits, Option.bind_eq_bind, Option.bind_some, hvalue]
      exact hfits

end Lsif.Text
