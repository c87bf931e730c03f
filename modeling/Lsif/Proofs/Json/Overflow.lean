import Lsif.Proofs.Json.Numeral
import Lsif.Proofs.Number.Rounding

/-! Which numerals are too large for a double. What counts is no value: the first digits, as many as 64 bits
hold, and the power of ten are rounded each on its own, and then their product is. -/

namespace Lsif.Numeral

open Number Text

/-- The number that the first digits write, less `dropped` of those before the point and with `taken` of those
behind it. -/
def digits (n : Numeral) (dropped taken : ℕ) : ℕ :=
  n.whole / 10 ^ dropped * 10 ^ taken + ofDigits (n.fraction.take taken)

def magnitude (n : Numeral) : ℚ :=
  (n.whole + ofDigits n.fraction / 10 ^ n.fraction.length) * 10 ^ n.exponent.getD 0

/-- As many digits as 64 bits hold. -/
structure Leading (n : Numeral) (dropped taken : ℕ) : Prop where
  fits : n.digits dropped taken < UInt64.size
  drop (i : ℕ) (h : i < dropped) : UInt64.size ≤ n.digits i 0
  le_length : taken ≤ n.fraction.length
  take (h : taken < n.fraction.length) : UInt64.size ≤ n.digits dropped (taken + 1)

def ProductOverflows (digits power : ℕ) : Prop :=
  ∃ a b c, Rounds digits a ∧ Rounds (10 ^ power) b ∧ Rounds (a * b) c ∧ 2 ^ 1024 ≤ c

def TooLarge (n : Numeral) : Prop := ∃ dropped taken power : ℕ, n.Leading dropped taken ∧
  (dropped : ℤ) - taken + n.exponent.getD 0 = power ∧ ProductOverflows (n.digits dropped taken) power

section Digits

variable {n : Numeral} {dropped taken : ℕ}

theorem digits_zero (n : Numeral) (dropped : ℕ) : n.digits dropped 0 = n.whole / 10 ^ dropped := by
  simp [digits, ofDigits]

theorem digits_succ (dropped : ℕ) (h : taken < n.fraction.length) :
    n.digits dropped (taken + 1) = 10 * n.digits dropped taken + n.fraction[taken].val := by
  rw [digits, digits, List.take_add_one, List.getElem?_eq_getElem h, Option.toList_some, ofDigits_concat, pow_succ]
  ring

theorem digits_mono (dropped : ℕ) {taken' : ℕ} (h : taken ≤ taken') (hlength : taken' ≤ n.fraction.length) :
    n.digits dropped taken ≤ n.digits dropped taken' := by
  induction taken', h using Nat.le_induction with
  | base => exact le_rfl
  | succ t ht ih =>
    have hsucc := digits_succ dropped (Nat.lt_of_succ_le hlength)
    have hle := ih (by omega)
    omega

theorem Leading.unique {dropped' taken' : ℕ} (h : n.Leading dropped taken) (h' : n.Leading dropped' taken') :
    dropped = dropped' ∧ taken = taken' := by
  have hdropped {d d' t t' : ℕ} (h : n.Leading d t) (h' : n.Leading d' t') : ¬d < d' := by
    intro hlt
    have hle := digits_mono d (Nat.zero_le t) h.le_length
    have hdrop := h'.drop d hlt
    have hfits := h.fits
    omega
  obtain rfl : dropped = dropped' := by
    have hlt := hdropped h h'
    have hgt := hdropped h' h
    omega
  have htaken {t t' : ℕ} (h : n.Leading dropped t) (h' : n.Leading dropped t') : ¬t < t' := by
    intro hlt
    have hle : n.digits dropped (t + 1) ≤ n.digits dropped t' := digits_mono dropped hlt h'.le_length
    have htake := h.take (hlt.trans_le h'.le_length)
    have hfits := h'.fits
    omega
  have hlt := htaken h h'
  have hgt := htaken h' h
  exact ⟨rfl, by omega⟩

end Digits

theorem exists_leading64 (whole dropped : ℕ) : ∃ i, leading64 whole dropped = (whole / 10 ^ i, dropped + i) ∧
    whole / 10 ^ i < UInt64.size ∧ ∀ j < i, UInt64.size ≤ whole / 10 ^ j := by
  induction whole, dropped using leading64.induct with
  | case1 whole dropped h =>
    rw [leading64, if_pos h]
    exact ⟨0, by simp, by simpa using h, by simp⟩
  | case2 whole dropped h ih =>
    obtain ⟨i, heq, hfits, hdrop⟩ := ih
    rw [leading64, if_neg h, heq]
    have hpow (j : ℕ) : whole / 10 / 10 ^ j = whole / 10 ^ (j + 1) := by
      rw [Nat.div_div_eq_div_mul, pow_succ, mul_comm]
    refine ⟨i + 1, ?_, ?_, ?_⟩
    · rw [hpow, add_assoc, add_comm 1]
    · rwa [← hpow]
    · rintro (_ | j) hj
      · simpa using h
      · rw [← hpow]
        exact hdrop j (by omega)

theorem exists_extend64 {n : Numeral} {dropped taken : ℕ} (shift : ℤ)
    (hfits : n.digits dropped taken < UInt64.size) (hdrop : ∀ i < dropped, UInt64.size ≤ n.digits i 0)
    (hlength : taken ≤ n.fraction.length) :
    ∃ t, extend64 (n.digits dropped taken) shift (n.fraction.drop taken) =
      (n.digits dropped t, shift + taken - t) ∧ n.Leading dropped t := by
  generalize hds : n.fraction.drop taken = ds
  induction ds generalizing taken shift with
  | nil =>
    have hend := List.drop_eq_nil_iff.mp hds
    refine ⟨taken, ?_, hfits, hdrop, hlength, fun h => by omega⟩
    rw [extend64, add_sub_cancel_right]
  | cons d ds ih =>
    have hlt : taken < n.fraction.length := by
      by_contra hge
      rw [List.drop_eq_nil_iff.mpr (not_lt.mp hge)] at hds
      cases hds
    rw [List.drop_eq_getElem_cons hlt, List.cons.injEq] at hds
    obtain ⟨rfl, hds⟩ := hds
    have hsucc := digits_succ dropped hlt
    rw [extend64, ← hsucc]
    split_ifs with hnext
    · obtain ⟨t, heq, hleading⟩ := ih (shift - 1) hnext (Nat.succ_le_of_lt hlt) hds
      refine ⟨t, ?_, hleading⟩
      rw [heq]
      push_cast
      ring_nf
    · refine ⟨taken, ?_, hfits, hdrop, hlength, fun _ => not_lt.mp hnext⟩
      rw [add_sub_cancel_right]

theorem rounds_factors (digits power : ℕ) : Rounds digits (Binary.nearest digits 1).value ∧
    Rounds (10 ^ power) (Binary.nearest (Nat.pow 10 power) 1).value := by
  have hdigits := Binary.rounds_nearest digits one_ne_zero
  have hpower := Binary.rounds_nearest (Nat.pow 10 power) one_ne_zero
  rw [Nat.cast_one, div_one] at hdigits hpower
  rw [Nat.pow_eq, Nat.cast_pow, Nat.cast_ofNat] at hpower
  exact ⟨hdigits, hpower⟩

theorem productOverflows_iff (digits power : ℕ) :
    productOverflows digits power = true ↔ ProductOverflows digits power := by
  obtain ⟨hdigits, hpower⟩ := rounds_factors digits power
  rw [productOverflows, Binary.overflows_iff]
  constructor
  · intro h
    exact ⟨_, _, _, hdigits, hpower, Binary.rounds_mul _ _, h⟩
  · rintro ⟨a, b, c, ha, hb, hc, h⟩
    rw [ha.unique hdigits, hb.unique hpower] at hc
    rwa [← hc.unique (Binary.rounds_mul (.nearest digits 1) (.nearest (Nat.pow 10 power) 1))]

theorem ProductOverflows.ne_zero {digits power : ℕ} (h : ProductOverflows digits power) : digits ≠ 0 := by
  rintro rfl
  obtain ⟨a, b, c, ha, hb, hc, h⟩ := h
  rw [Nat.cast_zero] at ha
  rw [ha.unique .zero, zero_mul] at hc
  rw [hc.unique .zero] at h
  exact absurd h (not_le.mpr (by positivity))

theorem productOverflows_of_lt {digits power : ℕ} (hdigits : digits ≠ 0) (hpower : 308 < power) :
    ProductOverflows digits power := by
  have hten : (2 : ℚ) ^ 1024 ≤ 10 ^ power := by
    calc (2 : ℚ) ^ 1024 = 2 * (2 ^ 93) ^ 11 := by rw [← pow_mul, ← pow_succ']
      _ ≤ 10 * (10 ^ 28) ^ 11 := by gcongr <;> norm_num
      _ = 10 ^ 309 := by rw [← pow_mul, ← pow_succ']
      _ ≤ 10 ^ power := pow_le_pow_right₀ (by norm_num) hpower
  have hone : (2 : ℚ) ^ 0 ≤ digits := by exact_mod_cast Nat.one_le_iff_ne_zero.mpr hdigits
  obtain ⟨ha, hb⟩ := rounds_factors digits power
  have ha' := ha.le_of_le (isDouble_pow 0) hone
  have hb' := hb.le_of_le (isDouble_pow 1024) hten
  rw [pow_zero] at ha'
  have hc := Binary.rounds_mul (.nearest digits 1) (.nearest (Nat.pow 10 power) 1)
  exact ⟨_, _, _, ha, hb, hc,
    hc.le_of_le (isDouble_pow 1024) (hb'.trans (le_mul_of_one_le_left hb.double.nonneg ha'))⟩

theorem not_productOverflows_zero {digits : ℕ} (h : digits < UInt64.size) : ¬ProductOverflows digits 0 := by
  rintro ⟨a, b, c, ha, hb, hc, hlarge⟩
  have hsize : (digits : ℚ) ≤ 2 ^ 64 := by exact_mod_cast h.le
  have ha' := ha.ge_of_ge (isDouble_pow 64) hsize
  have hb' := hb.ge_of_ge (isDouble_pow 0) (by simp)
  rw [pow_zero] at hb'
  have hc' := hc.ge_of_ge (isDouble_pow 64) ((mul_le_of_le_one_right ha.double.nonneg hb').trans ha')
  have hlt : (2 : ℚ) ^ 64 < 2 ^ 1024 := pow_lt_pow_right₀ one_lt_two (by norm_num)
  exact absurd (hlarge.trans hc') (not_le.mpr hlt)

theorem tooLarge_iff {n : Numeral} {dropped taken : ℕ} (hleading : n.Leading dropped taken) :
    n.TooLarge ↔ ∃ power : ℕ, (dropped : ℤ) - taken + n.exponent.getD 0 = power ∧
      ProductOverflows (n.digits dropped taken) power := by
  constructor
  · rintro ⟨d, t, power, h, hpower, hproduct⟩
    obtain ⟨rfl, rfl⟩ := hleading.unique h
    exact ⟨power, hpower, hproduct⟩
  · rintro ⟨power, hpower, hproduct⟩
    exact ⟨dropped, taken, power, hleading, hpower, hproduct⟩

theorem not_tooLarge_of_integer? {n : Numeral} {i : ℤ} (h : n.integer? = some i) : ¬n.TooLarge := by
  rintro ⟨dropped, taken, power, hleading, hpower, hproduct⟩
  obtain ⟨⟨hfraction, hexponent, -, hi⟩, hlow, hhigh⟩ := integer?_eq_some_iff.mp h
  have hsmall : n.whole < UInt64.size := by
    have hbound : Nat.pow 2 63 < UInt64.size := by decide
    split_ifs at hi <;> omega
  have hdropped : dropped = 0 := by
    by_contra hne
    have hle := hleading.drop 0 (Nat.pos_of_ne_zero hne)
    rw [digits_zero, pow_zero, Nat.div_one] at hle
    omega
  have htaken : taken = 0 := by simpa [hfraction] using hleading.le_length
  rw [hexponent, Option.getD_none] at hpower
  obtain rfl : power = 0 := by omega
  exact not_productOverflows_zero hleading.fits hproduct

theorem overflows_iff (n : Numeral) : n.overflows = true ↔ n.TooLarge := by
  unfold overflows
  split_ifs with hinteger
  · obtain ⟨i, hi⟩ := Option.isSome_iff_exists.mp hinteger
    exact iff_of_false id (not_tooLarge_of_integer? hi)
  · obtain ⟨dropped, hwhole, hfits, hdrop⟩ := exists_leading64 n.whole 0
    simp only [← digits_zero, zero_add] at hwhole hfits hdrop
    obtain ⟨taken, hfraction, hleading⟩ := exists_extend64 dropped hfits hdrop (Nat.zero_le _)
    rw [List.drop_zero, Nat.cast_zero, add_zero] at hfraction
    simp only [tooLarge_iff hleading, hwhole, hfraction, Bool.and_eq_true, Bool.or_eq_true, bne_iff_ne,
      decide_eq_true_eq, productOverflows_iff]
    constructor
    · rintro ⟨hne, hbig | ⟨hpos, hproduct⟩⟩
      · have hpos : 0 ≤ (dropped : ℤ) - taken + n.exponent.getD 0 := by omega
        exact ⟨_, (Int.toNat_of_nonneg hpos).symm, productOverflows_of_lt hne (by omega)⟩
      · exact ⟨_, (Int.toNat_of_nonneg hpos).symm, hproduct⟩
    · rintro ⟨power, hpower, hproduct⟩
      rw [hpower, Int.toNat_natCast]
      exact ⟨hproduct.ne_zero, .inr ⟨Int.natCast_nonneg power, hproduct⟩⟩

end Lsif.Numeral
