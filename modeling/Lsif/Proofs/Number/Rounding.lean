import Lsif.Number.Binary
import Mathlib.Algebra.Order.Field.Power
import Mathlib.Data.Rat.Cast.Order
import Mathlib.Tactic.FieldSimp
import Mathlib.Tactic.Linarith
import Mathlib.Tactic.Positivity
import Mathlib.Tactic.Ring

/-! Numbers with a significand of 53 bits are quotients and products rounded to the nearest such number, a half
to the even one. There is one such number only, and what is rounded keeps its place among them. -/

namespace Lsif.Number

/-- A double, but for the bounds of its exponent. -/
def IsDouble (x : ℚ) : Prop := ∃ (m : ℕ) (k : ℤ), m < 2 ^ 53 ∧ x = m * 2 ^ k

/-- No double is nearer to `q` than `x`, and if another one is as near, then the significand of `x` is even. -/
structure Rounds (q x : ℚ) : Prop where
  double : IsDouble x
  nearest (y : ℚ) (hy : IsDouble y) : |x - q| ≤ |y - q|
  even (y : ℚ) (hy : IsDouble y) (hne : y ≠ x) (htie : |y - q| = |x - q|) :
    ∃ (m : ℕ) (k : ℤ), m < 2 ^ 52 ∧ x = m * 2 ^ k

theorem IsDouble.nonneg {x : ℚ} (h : IsDouble x) : 0 ≤ x := by
  obtain ⟨m, k, -, rfl⟩ := h
  positivity

theorem IsDouble.scale {x : ℚ} (h : IsDouble x) (j : ℤ) : IsDouble (x * 2 ^ j) := by
  obtain ⟨m, k, hm, rfl⟩ := h
  exact ⟨m, k + j, hm, by rw [zpow_add₀ two_ne_zero, mul_assoc]⟩

theorem isDouble_pow (k : ℕ) : IsDouble (2 ^ k) := ⟨1, k, by norm_num, by simp⟩

theorem isDouble_zero : IsDouble 0 := ⟨0, 0, by norm_num, by simp⟩

namespace Rounds

variable {q x y d : ℚ}

theorem le_of_le (h : Rounds q x) (hd : IsDouble d) (hle : d ≤ q) : d ≤ x := by
  by_contra hlt
  have hnear := h.nearest d hd
  rw [abs_of_nonpos (by linarith), abs_of_nonpos (by linarith)] at hnear
  linarith

theorem ge_of_ge (h : Rounds q x) (hd : IsDouble d) (hle : q ≤ d) : x ≤ d := by
  by_contra hlt
  have hnear := h.nearest d hd
  rw [abs_of_nonneg (by linarith), abs_of_nonneg (by linarith)] at hnear
  linarith

theorem scale (h : Rounds q x) (j : ℤ) : Rounds (q * 2 ^ j) (x * 2 ^ j) := by
  have hpos : (0 : ℚ) < 2 ^ j := by positivity
  have hback (y : ℚ) : y = y * 2 ^ (-j) * 2 ^ j := by
    rw [mul_assoc, ← zpow_add₀ two_ne_zero, neg_add_cancel, zpow_zero, mul_one]
  have hdist (y : ℚ) : |y * 2 ^ j - q * 2 ^ j| = |y - q| * 2 ^ j := by
    rw [← sub_mul, abs_mul, abs_of_pos hpos]
  refine ⟨h.double.scale j, fun y hy => ?_, fun y hy hne htie => ?_⟩
  · rw [hback y, hdist, hdist]
    exact mul_le_mul_of_nonneg_right (h.nearest _ (hy.scale _)) hpos.le
  · rw [hback y] at hne htie
    rw [hdist, hdist] at htie
    obtain ⟨m, k, hm, rfl⟩ := h.even _ (hy.scale _) (fun heq => hne (by rw [heq]))
      (mul_right_cancel₀ hpos.ne' htie)
    exact ⟨m, k + j, hm, by rw [zpow_add₀ two_ne_zero, mul_assoc]⟩

theorem zero : Rounds 0 0 :=
  ⟨isDouble_zero, fun y _ => by simp, fun _ _ _ _ => ⟨0, 0, by norm_num, by simp⟩⟩

theorem zpow_eq_mul (a b : ℤ) : (2 : ℚ) ^ a = 2 ^ (a - b) * 2 ^ b := by
  rw [← zpow_add₀ two_ne_zero, sub_add_cancel]

theorem zpow_sub_eq_natCast {a b : ℤ} (h : b ≤ a) : (2 : ℚ) ^ (a - b) = ((2 ^ (a - b).toNat : ℕ) : ℚ) := by
  rw [Nat.cast_pow, ← zpow_natCast, Int.toNat_of_nonneg (by omega)]
  rfl

/-- The smaller number can be written with no larger power of two. -/
theorem exists_eq_of_lt {m n : ℕ} {j k : ℤ} (hm : m < 2 ^ 52) (hn : n < 2 ^ 52)
    (h : (m : ℚ) * 2 ^ j < n * 2 ^ k) :
    ∃ (m' : ℕ) (i : ℤ), m' < 2 ^ 52 ∧ i ≤ k ∧ (m : ℚ) * 2 ^ j = m' * 2 ^ i := by
  rcases le_or_gt j k with hjk | hkj
  · exact ⟨m, j, hm, hjk, rfl⟩
  · have hsame : (m : ℚ) * 2 ^ j = (m * 2 ^ (j - k).toNat : ℕ) * 2 ^ k := by
      rw [zpow_eq_mul j k, zpow_sub_eq_natCast hkj.le, Nat.cast_mul, mul_assoc]
    refine ⟨m * 2 ^ (j - k).toNat, k, ?_, le_rfl, hsame⟩
    rw [hsame] at h
    have hlt := lt_of_mul_lt_mul_right h (by positivity)
    exact (Nat.cast_lt.mp hlt).trans hn

theorem exists_between {m n : ℕ} {j k : ℤ} (hm : m < 2 ^ 52) (hn : n < 2 ^ 52)
    (h : (m : ℚ) * 2 ^ j < n * 2 ^ k) : ∃ z, IsDouble z ∧ (m : ℚ) * 2 ^ j < z ∧ z < n * 2 ^ k := by
  obtain ⟨m', i, hm', hik, hvalue⟩ := exists_eq_of_lt hm hn h
  have hi : (0 : ℚ) < 2 ^ i := by positivity
  have hnext : (m' : ℚ) + 1 ≤ n * 2 ^ (k - i) := by
    rw [hvalue, zpow_eq_mul k i, ← mul_assoc] at h
    have hlt := lt_of_mul_lt_mul_right h hi.le
    rw [zpow_sub_eq_natCast hik] at hlt ⊢
    exact_mod_cast hlt
  refine ⟨(2 * m' + 1 : ℕ) * 2 ^ (i - 1), ⟨_, _, by omega, rfl⟩, ?_, ?_⟩
  · rw [hvalue, zpow_sub_one₀ two_ne_zero]
    push_cast
    linarith
  · have hle := mul_le_mul_of_nonneg_right hnext hi.le
    rw [mul_assoc, ← zpow_eq_mul] at hle
    rw [zpow_sub_one₀ two_ne_zero]
    push_cast
    linarith

theorem unique (hx : Rounds q x) (hy : Rounds q y) : x = y := by
  have htie : |y - q| = |x - q| := le_antisymm (hy.nearest x hx.double) (hx.nearest y hy.double)
  have hne {x y : ℚ} (hx : Rounds q x) (hy : Rounds q y) (htie : |y - q| = |x - q|) : ¬x < y := by
    intro hlt
    obtain ⟨m, j, hm, rfl⟩ := hx.even y hy.double hlt.ne' htie
    obtain ⟨n, k, hn, rfl⟩ := hy.even _ hx.double hlt.ne htie.symm
    obtain ⟨z, hz, hbelow, habove⟩ := exists_between hm hn hlt
    have hnear := hx.nearest z hz
    rcases abs_eq_abs.mp htie with hsame | hmiddle
    · linarith
    · have hfar : |(n : ℚ) * 2 ^ k - q| = n * 2 ^ k - q := abs_of_nonneg (by linarith)
      have hclose : |z - q| < n * 2 ^ k - q := abs_lt.mpr ⟨by linarith, by linarith⟩
      rw [← htie, hfar] at hnear
      linarith
  exact le_antisymm (not_lt.mp (hne hy hx htie.symm)) (not_lt.mp (hne hx hy htie))

end Rounds

theorem one_le_add_of_ne {s : ℚ} {r n : ℕ} (h : n ≠ r) : 1 ≤ |(n : ℚ) - s| + |(r : ℚ) - s| := by
  have hstep : (1 : ℚ) ≤ |(n : ℚ) - r| := by
    exact_mod_cast Int.one_le_abs (show (n : ℤ) - r ≠ 0 by omega)
  calc (1 : ℚ) ≤ |(n : ℚ) - r| := hstep
    _ ≤ |(n : ℚ) - s| + |s - r| := abs_sub_le _ _ _
    _ = |(n : ℚ) - s| + |(r : ℚ) - s| := by rw [abs_sub_comm s]

theorem IsDouble.exists_nat_or_lt {x : ℚ} (h : IsDouble x) : (∃ n : ℕ, x = n) ∨ x < 2 ^ 52 := by
  obtain ⟨m, k, hm, rfl⟩ := h
  rcases le_or_gt 0 k with hk | hk
  · obtain ⟨n, rfl⟩ := Int.eq_ofNat_of_zero_le hk
    exact .inl ⟨m * 2 ^ n, by simp⟩
  · have hpow : (2 : ℚ) ^ k ≤ 2 ^ (-1 : ℤ) := zpow_le_zpow_right₀ one_le_two (by omega)
    have hm' : (m : ℚ) < 2 ^ 53 := by exact_mod_cast hm
    right
    calc (m : ℚ) * 2 ^ k ≤ m * 2 ^ (-1 : ℤ) := mul_le_mul_of_nonneg_left hpow (Nat.cast_nonneg m)
      _ < 2 ^ 53 * 2 ^ (-1 : ℤ) := mul_lt_mul_of_pos_right hm' (by positivity)
      _ = 2 ^ 52 := by norm_num

theorem exists_eq_of_even {n : ℕ} (h : n ≤ 2 ^ 53) (heven : n % 2 = 0) :
    ∃ (m : ℕ) (k : ℤ), m < 2 ^ 52 ∧ (n : ℚ) = m * 2 ^ k := by
  rcases h.lt_or_eq with hlt | rfl
  · have hhalf : n = n / 2 * 2 := by omega
    exact ⟨n / 2, 1, by omega, by exact_mod_cast hhalf⟩
  · exact ⟨1, 53, by norm_num, by norm_num⟩

theorem isDouble_natCast {n : ℕ} (h : n ≤ 2 ^ 53) : IsDouble n := by
  rcases h.lt_or_eq with hlt | rfl
  · exact ⟨n, 0, hlt, by simp⟩
  · exact_mod_cast isDouble_pow 53

/-- Where doubles are the whole numbers and some below them, the nearest whole number is the nearest double. -/
theorem rounds_of_half {s : ℚ} {r : ℕ} (hlow : 2 ^ 52 ≤ s) (hhigh : s < 2 ^ 53)
    (hhalf : |(r : ℚ) - s| ≤ 1 / 2) (heven : |(r : ℚ) - s| = 1 / 2 → r % 2 = 0) : Rounds s r := by
  have hwhole (n : ℕ) : |(r : ℚ) - s| ≤ |(n : ℚ) - s| := by
    by_cases hn : n = r
    · rw [hn]
    · linarith [one_le_add_of_ne (s := s) hn]
  have hsplit {y : ℚ} (hy : IsDouble y) : (∃ n : ℕ, y = n) ∨ |(r : ℚ) - s| < |y - s| := by
    refine hy.exists_nat_or_lt.imp_right fun hlt => ?_
    have hnear := hwhole (2 ^ 52)
    rw [Nat.cast_pow, Nat.cast_ofNat, abs_of_nonpos (by linarith : (2 : ℚ) ^ 52 - s ≤ 0)] at hnear
    rw [abs_of_nonpos (by linarith : y - s ≤ 0)]
    linarith
  have hbound : r ≤ 2 ^ 53 := by
    have hle := (abs_le.mp hhalf).2
    have hlt : (r : ℚ) < ((2 ^ 53 + 1 : ℕ) : ℚ) := by
      push_cast
      linarith
    exact Nat.lt_succ_iff.mp (Nat.cast_lt.mp hlt)
  refine ⟨isDouble_natCast hbound, fun y hy => ?_, fun y hy hne htie => ?_⟩
  · rcases hsplit hy with ⟨n, rfl⟩ | hfar
    · exact hwhole n
    · exact hfar.le
  · rcases hsplit hy with ⟨n, rfl⟩ | hfar
    · have hapart := one_le_add_of_ne (s := s) fun heq : n = r => hne (by rw [heq])
      exact exists_eq_of_even hbound (heven (by linarith))
    · exact absurd htie hfar.ne'

theorem roundDiv_half (num : ℕ) {den : ℕ} (hden : den ≠ 0) :
    |(roundDiv num den : ℚ) - num / den| ≤ 1 / 2 ∧
      (|(roundDiv num den : ℚ) - num / den| = 1 / 2 → roundDiv num den % 2 = 0) := by
  have hpos : (0 : ℚ) < den := by exact_mod_cast Nat.pos_of_ne_zero hden
  have hquotient : (num : ℚ) / den = (num / den : ℕ) + (num % den : ℕ) / den := by
    rw [div_eq_iff hpos.ne', add_mul, div_mul_cancel₀ _ hpos.ne']
    exact_mod_cast (Nat.div_add_mod' num den).symm
  have hlt : 2 * (num % den) < den ↔ ((num % den : ℕ) : ℚ) / den < 1 / 2 := by
    rw [div_lt_div_iff₀ hpos two_pos, mul_comm, one_mul]
    exact_mod_cast Iff.rfl
  have hgt : den < 2 * (num % den) ↔ 1 / 2 < ((num % den : ℕ) : ℚ) / den := by
    rw [div_lt_div_iff₀ two_pos hpos, mul_comm 2, one_mul]
    exact_mod_cast Iff.rfl
  have hrest : ((num % den : ℕ) : ℚ) / den < 1 := by
    rw [div_lt_one hpos]
    exact_mod_cast Nat.mod_lt num (Nat.pos_of_ne_zero hden)
  have hrest' : (0 : ℚ) ≤ (num % den : ℕ) / den := by positivity
  rw [hquotient]
  simp only [roundDiv, hlt, hgt]
  generalize ((num % den : ℕ) : ℚ) / den = t at hrest hrest'
  have hdown : |((num / den : ℕ) : ℚ) - ((num / den : ℕ) + t)| = t := by
    rw [sub_add_cancel_left, abs_neg, abs_of_nonneg hrest']
  have hup : |((num / den + 1 : ℕ) : ℚ) - ((num / den : ℕ) + t)| = 1 - t := by
    rw [Nat.cast_add_one, add_sub_add_left_eq_sub, abs_of_pos (sub_pos.mpr hrest)]
  split_ifs with hbelow habove heven
  · rw [hdown]
    exact ⟨hbelow.le, fun htie => absurd htie hbelow.ne⟩
  · rw [hup]
    exact ⟨by linarith, fun htie => by linarith⟩
  · rw [hdown]
    exact ⟨not_lt.mp habove, fun _ => heven⟩
  · rw [hup]
    exact ⟨by linarith, fun _ => by omega⟩

namespace Binary

def value (b : Binary) : ℚ := b.significand * 2 ^ b.exponent

theorem pow_toNat_div (e : ℤ) : (2 : ℚ) ^ (-e).toNat / 2 ^ e.toNat = 2 ^ (-e) := by
  rcases le_total 0 e with he | he
  · obtain ⟨n, rfl⟩ := Int.eq_ofNat_of_zero_le he
    simp
  · obtain ⟨n, hn⟩ := Int.eq_ofNat_of_zero_le (neg_nonneg.mpr he)
    obtain rfl : e = -n := by omega
    simp

theorem quotient_scaled (num den : ℕ) (e : ℤ) : (num : ℚ) / den * 2 ^ (-e) =
    (num * Nat.pow 2 (-e).toNat : ℕ) / (den * Nat.pow 2 e.toNat : ℕ) := by
  rw [Nat.cast_mul, Nat.cast_mul, Nat.pow_eq, Nat.pow_eq, Nat.cast_pow, Nat.cast_pow, Nat.cast_ofNat,
    mul_div_mul_comm, pow_toNat_div]

theorem quotient_lt_pow_iff (num : ℕ) {den : ℕ} (hden : den ≠ 0) (e : ℤ) :
    num * Nat.pow 2 (-e).toNat < den * Nat.pow 2 e.toNat ↔ (num : ℚ) / den < 2 ^ e := by
  have hpos : (0 : ℚ) < (den * Nat.pow 2 e.toNat : ℕ) :=
    Nat.cast_pos.mpr (Nat.mul_pos (Nat.pos_of_ne_zero hden) (Nat.pow_pos two_pos))
  have hone := div_lt_one hpos (a := ((num * Nat.pow 2 (-e).toNat : ℕ) : ℚ))
  rw [← quotient_scaled, Nat.cast_lt] at hone
  rw [← hone, zpow_neg, ← div_eq_mul_inv, div_lt_one (by positivity)]

theorem scaled_half (num : ℕ) {den : ℕ} (hden : den ≠ 0) (e : ℤ) :
    |(scaled num den e : ℚ) - num / den * 2 ^ (-e)| ≤ 1 / 2 ∧
      (|(scaled num den e : ℚ) - num / den * 2 ^ (-e)| = 1 / 2 → scaled num den e % 2 = 0) := by
  rw [quotient_scaled]
  exact roundDiv_half _ (Nat.mul_ne_zero hden (Nat.pow_pos two_pos).ne')

theorem rounds_scaled {num den : ℕ} (hden : den ≠ 0) {e : ℤ} (hlow : (2 : ℚ) ^ (e + 52) ≤ num / den)
    (hhigh : (num : ℚ) / den < 2 ^ (e + 53)) : Rounds (num / den) (scaled num den e * 2 ^ e) := by
  have hpos : (0 : ℚ) < 2 ^ (-e) := by positivity
  have hpow (j : ℤ) : (2 : ℚ) ^ (e + j) * 2 ^ (-e) = 2 ^ j := by
    rw [← zpow_add₀ two_ne_zero]
    congr 1
    omega
  have hback : (num : ℚ) / den * 2 ^ (-e) * 2 ^ e = num / den := by
    rw [mul_assoc, ← zpow_add₀ two_ne_zero, neg_add_cancel, zpow_zero, mul_one]
  obtain ⟨hhalf, heven⟩ := scaled_half num hden e
  have hlow' := mul_le_mul_of_nonneg_right hlow hpos.le
  have hhigh' := mul_lt_mul_of_pos_right hhigh hpos
  rw [hpow] at hlow' hhigh'
  have hrounds := (rounds_of_half (by exact_mod_cast hlow') (by exact_mod_cast hhigh') hhalf heven).scale e
  rwa [hback] at hrounds

theorem pow_log2_le {n : ℕ} (hn : n ≠ 0) : (2 : ℚ) ^ (Nat.log2 n : ℤ) ≤ n := by
  rw [zpow_natCast]
  exact_mod_cast Nat.log2_self_le hn

theorem lt_pow_log2 (n : ℕ) : (n : ℚ) < 2 ^ ((Nat.log2 n : ℤ) + 1) := by
  rw [← Nat.cast_add_one, zpow_natCast]
  exact_mod_cast Nat.lt_log2_self

theorem quotient_bounds {num den : ℕ} (hnum : num ≠ 0) (hden : den ≠ 0) :
    (2 : ℚ) ^ ((Nat.log2 num : ℤ) - Nat.log2 den - 1) < num / den ∧
      (num : ℚ) / den < 2 ^ ((Nat.log2 num : ℤ) - Nat.log2 den + 1) := by
  have hpos : (0 : ℚ) < den := by exact_mod_cast Nat.pos_of_ne_zero hden
  have hsplit (i j : ℤ) : (2 : ℚ) ^ i * 2 ^ j = 2 ^ (i + j) := (zpow_add₀ two_ne_zero i j).symm
  constructor
  · rw [lt_div_iff₀ hpos]
    calc (2 : ℚ) ^ ((Nat.log2 num : ℤ) - Nat.log2 den - 1) * den
        < 2 ^ ((Nat.log2 num : ℤ) - Nat.log2 den - 1) * 2 ^ ((Nat.log2 den : ℤ) + 1) :=
          mul_lt_mul_of_pos_left (lt_pow_log2 den) (by positivity)
      _ = 2 ^ (Nat.log2 num : ℤ) := by
          rw [hsplit]
          congr 1
          omega
      _ ≤ num := pow_log2_le hnum
  · rw [div_lt_iff₀ hpos]
    calc (num : ℚ) < 2 ^ ((Nat.log2 num : ℤ) + 1) := lt_pow_log2 num
      _ = 2 ^ ((Nat.log2 num : ℤ) - Nat.log2 den + 1) * 2 ^ (Nat.log2 den : ℤ) := by
          rw [hsplit]
          congr 1
          omega
      _ ≤ 2 ^ ((Nat.log2 num : ℤ) - Nat.log2 den + 1) * den :=
          mul_le_mul_of_nonneg_left (pow_log2_le hden) (by positivity)

theorem value_carry (significand : ℕ) (exponent : ℤ) :
    (if significand = Nat.pow 2 53 then (⟨Nat.pow 2 52, exponent + 1⟩ : Binary)
      else ⟨significand, exponent⟩).value = significand * 2 ^ exponent := by
  split_ifs with h
  · rw [value, h, zpow_add_one₀ two_ne_zero]
    norm_num
    ring
  · rfl

theorem rounds_nearest (num : ℕ) {den : ℕ} (hden : den ≠ 0) : Rounds (num / den) (nearest num den).value := by
  by_cases hnum : num = 0
  · have hzero : zero.value = 0 := by simp [value, zero]
    rw [hnum, nearest, if_pos rfl, Nat.cast_zero, zero_div, hzero]
    exact .zero
  · obtain ⟨hlow, hhigh⟩ := quotient_bounds hnum hden
    have hpow {i j : ℤ} (h : i = j) : (2 : ℚ) ^ i = 2 ^ j := by rw [h]
    simp only [nearest, if_neg hnum, value_carry, quotient_lt_pow_iff num hden]
    split_ifs with hsize
    · exact rounds_scaled hden ((hpow (by omega)).trans_le hlow.le) (hsize.trans_eq (hpow (by omega)))
    · exact rounds_scaled hden ((hpow (by omega)).trans_le (not_lt.mp hsize)) (hhigh.trans_eq (hpow (by omega)))

theorem rounds_mul (a b : Binary) : Rounds (a.value * b.value) (a.mul b).value := by
  have hproduct := (rounds_nearest (a.significand * b.significand) one_ne_zero).scale (a.exponent + b.exponent)
  have hvalue : a.value * b.value =
      ((a.significand * b.significand : ℕ) : ℚ) / (1 : ℕ) * 2 ^ (a.exponent + b.exponent) := by
    rw [value, value, zpow_add₀ two_ne_zero]
    push_cast
    ring
  rw [hvalue]
  convert hproduct using 1
  simp only [mul]
  split_ifs with hzero
  · simp [value, zero, hzero]
  · rw [value, value, add_assoc, zpow_add₀ two_ne_zero, mul_assoc]

theorem overflows_iff (b : Binary) : b.overflows = true ↔ 2 ^ 1024 ≤ b.value := by
  have hpow : (2 : ℚ) ^ 1024 = 2 ^ (1024 : ℤ) := rfl
  have hone : (1 : ℚ) < 2 := one_lt_two
  rw [overflows, Bool.and_eq_true, bne_iff_ne, decide_eq_true_eq, hpow, value]
  constructor
  · rintro ⟨hne, hle⟩
    calc (2 : ℚ) ^ (1024 : ℤ) ≤ 2 ^ ((Nat.log2 b.significand : ℤ) + b.exponent) :=
          zpow_le_zpow_right₀ hone.le (by omega)
      _ = 2 ^ (Nat.log2 b.significand : ℤ) * 2 ^ b.exponent := zpow_add₀ two_ne_zero _ _
      _ ≤ b.significand * 2 ^ b.exponent := mul_le_mul_of_nonneg_right (pow_log2_le hne) (by positivity)
  · intro hle
    have hne : b.significand ≠ 0 := by
      intro hzero
      rw [hzero, Nat.cast_zero, zero_mul] at hle
      exact absurd hle (not_le.mpr (by positivity))
    refine ⟨hne, ?_⟩
    have hlt : (2 : ℚ) ^ (1024 : ℤ) < 2 ^ ((Nat.log2 b.significand : ℤ) + 1 + b.exponent) := by
      rw [zpow_add₀ two_ne_zero _ b.exponent]
      exact hle.trans_lt (mul_lt_mul_of_pos_right (lt_pow_log2 _) (by positivity))
    have hexponent := (zpow_lt_zpow_iff_right₀ hone).mp hlt
    omega

end Binary

end Lsif.Number
