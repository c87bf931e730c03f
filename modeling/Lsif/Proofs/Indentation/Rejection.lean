import Lsif.Proofs.Indentation.Balance
import Mathlib.Algebra.Order.Ring.Int

/-! Strict nesting as a test of balance. With a step below 2^63 the strict pass rejects lines that can be read
exactly if the first few of them close more events than they open, and it names the last of the fewest such.
A larger step is a negative number, with which the pass looks for the opposite: a closing line up to which
more events are opened than closed. -/

namespace Lsif.Indentation

def ClosesTooMany (p : List String) : Prop := openings p < closings p

instance (p : List String) : Decidable (ClosesTooMany p) := Nat.decLt _ _

def ClosesTooFew (p : List String) : Prop := EndsClosing p ∧ closings p < openings p

/-- The lines are rejected if they begin with bad ones, by the last of the fewest bad ones. -/
structure RejectsFewest (bad : List String → Prop) (lines : List String)
    (result : Except Fault (Array String)) : Prop where
  rejects_iff : (∃ line depth, result = .error (.unbalancedEvent line depth)) ↔
    ∃ p, p <+: lines ∧ bad p
  fewest (line : Nat) (depth : Int) (h : result = .error (.unbalancedEvent line depth)) :
    ∃ p, p <+: lines ∧ p.length = line + 1 ∧ bad p ∧
      ∀ q, q <+: lines → bad q → p.length ≤ q.length

/-- The fewest bad lines are the same for two notions of bad, if each holds in front of the other. -/
theorem RejectsFewest.of_isPrefix {bad bad' : List String → Prop} {lines : List String}
    {result : Except Fault (Array String)} (h : RejectsFewest bad lines result)
    (hto : ∀ p, bad p → ∃ q, q <+: p ∧ bad' q) (hof : ∀ p, bad' p → ∃ q, q <+: p ∧ bad q) :
    RejectsFewest bad' lines result where
  rejects_iff := by
    rw [h.rejects_iff]
    constructor
    · rintro ⟨p, hp, hbad⟩
      obtain ⟨q, hq, hbad'⟩ := hto p hbad
      exact ⟨q, hq.trans hp, hbad'⟩
    · rintro ⟨p, hp, hbad'⟩
      obtain ⟨q, hq, hbad⟩ := hof p hbad'
      exact ⟨q, hq.trans hp, hbad⟩
  fewest line depth hresult := by
    obtain ⟨p, hp, hlength, hbad, hleast⟩ := h.fewest line depth hresult
    have hleast' (q : List String) (hq : q <+: lines) (hbad' : bad' q) : p.length ≤ q.length := by
      obtain ⟨r, hr, hbad⟩ := hof q hbad'
      exact (hleast r (hr.trans hq) hbad).trans hr.length_le
    obtain ⟨q, hq, hbad'⟩ := hto p hbad
    have hsame : q = p :=
      hq.eq_of_length (Nat.le_antisymm hq.length_le (hleast' q (hq.trans hp) hbad'))
    exact ⟨p, hp, hlength, hsame ▸ hbad', hleast'⟩

def Sinks (step : Int) (p : List String) : Prop := EndsClosing p ∧ step * balance p < 0

theorem Sinks.ne_nil {step : Int} {p : List String} (h : Sinks step p) : p ≠ [] := by
  rintro rfl
  obtain ⟨⟨text, htext, _⟩, _⟩ := h
  cases htext

section Strict

variable {o : Options} {lines : List String}

theorem sinks_of_stopsAt {i line : Nat} {depth : Int}
    (h : StopsAt o lines i (.unbalancedEvent line depth)) :
    line = i ∧ i < lines.length ∧ Sinks o.signedStep (lines.take (i + 1)) := by
  cases h with
  | unbalanced text htext _ hclosing hbelow =>
    have hi := (List.getElem?_eq_some_iff.mp htext).1
    exact ⟨rfl, hi, (endsClosing_take_iff hi).mpr ⟨text, htext, hclosing⟩, hbelow⟩

variable (hstrict : o.nesting = .strict) (hread : ∀ text ∈ lines, Marker.ofText? text ≠ none)
include hstrict

theorem exists_stopsAt_of_sinks {i : Nat} (hi : i < lines.length)
    (h : Sinks o.signedStep (lines.take (i + 1))) : ∃ f, StopsAt o lines i f := by
  obtain ⟨text, htext, hclosing⟩ := (endsClosing_take_iff hi).mp h.1
  exact ⟨_, .unbalanced text htext hstrict hclosing h.2⟩

include hread

theorem rejectsFewest_sinks :
    RejectsFewest (Sinks o.signedStep) lines (indent o lines).outcome.2 where
  rejects_iff := by
    constructor
    · rintro ⟨line, depth, hresult⟩
      obtain ⟨i, hstop, _⟩ := indent_eq_error_iff.mp hresult
      obtain ⟨_, _, hsinks⟩ := sinks_of_stopsAt hstop
      exact ⟨_, List.take_prefix (i + 1) lines, hsinks⟩
    · rintro ⟨p, hp, hsinks⟩
      obtain ⟨i, hi, rfl, _⟩ := exists_take_of_isPrefix hp hsinks.ne_nil
      obtain ⟨f, hf⟩ := exists_stopsAt_of_sinks hstrict hi hsinks
      cases hresult : (indent o lines).outcome.2 with
      | ok output => exact (exists_indent_iff_stopsAt.mp ⟨output, hresult⟩ i f hf).elim
      | error fault =>
        obtain ⟨line, hstop, _⟩ := indent_eq_error_iff.mp hresult
        cases hstop with
        | unreadable text htext hnone => exact (hread text (List.mem_of_getElem? htext) hnone).elim
        | unbalanced text _ _ _ _ => exact ⟨line, _, rfl⟩
  fewest line depth hresult := by
    obtain ⟨i, hstop, hfirst⟩ := indent_eq_error_iff.mp hresult
    obtain ⟨rfl, hi, hsinks⟩ := sinks_of_stopsAt hstop
    have hlength : (lines.take (line + 1)).length = line + 1 := List.length_take_of_le hi
    refine ⟨_, List.take_prefix (line + 1) lines, hlength, hsinks, fun q hq hother => ?_⟩
    obtain ⟨j, hj, rfl, hjlength⟩ := exists_take_of_isPrefix hq hother.ne_nil
    rw [hlength, hjlength]
    refine Nat.succ_le_succ (Nat.not_lt.mp fun hlt => ?_)
    obtain ⟨f, hf⟩ := exists_stopsAt_of_sinks hstrict hj hother
    exact hfirst j hlt f hf

end Strict

theorem closesTooMany_iff (p : List String) : ClosesTooMany p ↔ balance p < 0 := by
  rw [ClosesTooMany, balance]
  omega

theorem closesTooFew_iff (p : List String) : ClosesTooFew p ↔ EndsClosing p ∧ 0 < balance p := by
  rw [ClosesTooFew, balance]
  exact and_congr_right fun _ => by omega

theorem RejectsFewest.closesTooMany {step : Int} (hstep : 0 < step) {lines : List String}
    {result : Except Fault (Array String)} (h : RejectsFewest (Sinks step) lines result) :
    RejectsFewest ClosesTooMany lines result := by
  refine h.of_isPrefix (fun p hsinks => ⟨p, List.prefix_rfl, ?_⟩) fun p hmany => ?_
  · exact (closesTooMany_iff p).mpr (Int.neg_of_mul_neg_right hsinks.2 hstep)
  · obtain ⟨q, hq, hclosing, hneg⟩ :=
      exists_endsClosing_of_balance_neg ((closesTooMany_iff p).mp hmany)
    exact ⟨q, hq, hclosing, Int.mul_neg_of_pos_of_neg hstep hneg⟩

theorem RejectsFewest.closesTooFew {step : Int} (hstep : step < 0) {lines : List String}
    {result : Except Fault (Array String)} (h : RejectsFewest (Sinks step) lines result) :
    RejectsFewest ClosesTooFew lines result := by
  have hsame (p : List String) : Sinks step p ↔ ClosesTooFew p := by
    rw [closesTooFew_iff, Sinks, mul_neg_iff]
    exact and_congr_right fun _ => by omega
  exact h.of_isPrefix (fun p hp => ⟨p, List.prefix_rfl, (hsame p).mp hp⟩)
    fun p hp => ⟨p, List.prefix_rfl, (hsame p).mpr hp⟩

theorem signedStep_neg {o : Options} (h : Nat.pow 2 63 ≤ o.step.toNat) : o.signedStep < 0 := by
  refine BitVec.toInt_neg_iff.mpr ?_
  have hhalf : Nat.pow 2 63 = 2 ^ 63 := rfl
  have hvalue : o.step.toInt64.toBitVec.toNat = o.step.toNat := rfl
  omega

theorem rejectsFewest_of_readable {step : UInt64} (hstep : 1 ≤ step.toNat) {lines : List String}
    (hread : ∀ text ∈ lines, Marker.ofText? text ≠ none) :
    (step.toNat < Nat.pow 2 63 →
      RejectsFewest ClosesTooMany lines (indent { step, nesting := .strict } lines).outcome.2) ∧
    (Nat.pow 2 63 ≤ step.toNat →
      RejectsFewest ClosesTooFew lines (indent { step, nesting := .strict } lines).outcome.2) := by
  have hsinks := rejectsFewest_sinks (o := { step, nesting := .strict }) rfl hread
  refine ⟨fun hsmall => hsinks.closesTooMany ?_, fun hlarge => hsinks.closesTooFew ?_⟩
  · rw [signedStep_eq hsmall]
    exact Int.natCast_pos.mpr hstep
  · exact signedStep_neg hlarge

theorem rejectsFewest_of_readable_both_signs :
    let opening := "\x7b\"label\":\"$event\",\"kind\":\"begin\"\x7d"
    let closing := "\x7b\"label\":\"$event\",\"kind\":\"end\"\x7d"
    let lines := [opening, "1", opening, closing, closing, closing]
    (∀ text ∈ lines, Marker.ofText? text ≠ none) ∧
      (indent { step := 4, nesting := .strict } lines).outcome.2 =
        .error (.unbalancedEvent 5 (-4)) ∧
      RejectsFewest ClosesTooMany lines (indent { step := 4, nesting := .strict } lines).outcome.2 ∧
      (indent { step := 18446744073709551615, nesting := .strict } lines).outcome.2 =
        .error (.unbalancedEvent 3 (-1)) ∧
      RejectsFewest ClosesTooFew lines
        (indent { step := 18446744073709551615, nesting := .strict } lines).outcome.2 := by
  intro opening closing lines
  have hread : ∀ text ∈ lines, Marker.ofText? text ≠ none := by decide +kernel
  refine ⟨hread, by decide +kernel, ?_, by decide +kernel, ?_⟩
  · exact (rejectsFewest_of_readable (by decide) hread).1 (by decide)
  · exact (rejectsFewest_of_readable (by decide) hread).2 (by decide)

/-- The lines can be read and their depths are numbers of 64 bits, but it is not where they close too many
events that the strict pass rejects them. -/
def Misjudges (step : UInt64) (lines : List String) : Prop :=
  1 ≤ step.toNat ∧ (∀ text ∈ lines, Marker.ofText? text ≠ none) ∧
    (∀ i < lines.length, Int64.minValue.toInt ≤ depthOf { step } lines i ∧
      depthOf { step } lines i ≤ Int64.maxValue.toInt) ∧
    ¬RejectsFewest ClosesTooMany lines (indent { step, nesting := .strict } lines).outcome.2

/-- With a negative step a closing line passes that ends nothing, and balanced lines are rejected. -/
theorem misjudges_negative_step :
    let opening := "\x7b\"label\":\"$event\",\"kind\":\"begin\"\x7d"
    let closing := "\x7b\"label\":\"$event\",\"kind\":\"end\"\x7d"
    Misjudges 18446744073709551615 [closing] ∧
      Misjudges 18446744073709551615 [opening, opening, closing, closing] := by
  intro opening closing
  refine ⟨⟨by decide, by decide +kernel, by decide +kernel, fun h => ?_⟩,
    ⟨by decide, by decide +kernel, by decide +kernel, fun h => ?_⟩⟩
  · have hmany : ClosesTooMany [closing] := by decide +kernel
    obtain ⟨line, depth, hrejected⟩ := h.rejects_iff.mpr ⟨_, List.prefix_rfl, hmany⟩
    have hpasses : (indent { step := 18446744073709551615, nesting := .strict } [closing]).outcome.2 =
        .ok #[" " ++ closing] := by decide +kernel
    cases hpasses.symm.trans hrejected
  · obtain ⟨p, hp, hmany⟩ := h.rejects_iff.mp ⟨2, -1, by decide +kernel⟩
    have hnone : ∀ n ≤ 4, ¬ClosesTooMany ([opening, opening, closing, closing].take n) := by
      decide +kernel
    rw [List.prefix_iff_eq_take.mp hp] at hmany
    exact hnone p.length hp.length_le hmany

end Lsif.Indentation
