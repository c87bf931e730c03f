import Lsif.Proofs.Indentation.Nesting
import Mathlib.Data.List.Induction
import Mathlib.Tactic.Ring

/-! Depths in closed form. A line lies as many steps deep as the lines up to it open more events than they
close. The pass stops at the first line that cannot be read or that closes an event below zero where this is
a fault; for a step that is greater than zero it is then one step below zero. -/

namespace Lsif.Indentation

def openings (lines : List String) : Nat :=
  lines.countP fun text => Marker.ofText? text = some (some .opening)

def closings (lines : List String) : Nat :=
  lines.countP fun text => Marker.ofText? text = some (some .closing)

def balance (lines : List String) : Int := openings lines - closings lines

theorem balance_nil : balance [] = 0 := rfl

theorem balance_append (lines more : List String) :
    balance (lines ++ more) = balance lines + balance more := by
  simp only [balance, openings, closings, List.countP_append, Int.natCast_add]
  ring

theorem balance_singleton (text : String) : balance [text] = shift 1 (Marker.ofText? text).join := by
  simp only [balance, openings, closings, List.countP_singleton, decide_eq_true_eq]
  rcases Marker.ofText? text with _ | _ | _ | _ <;> rfl

theorem shift_eq_mul (step : Int) (marker : Option Marker) :
    shift step marker = step * shift 1 marker := by
  rcases marker with _ | _ | _
  · exact (Int.mul_zero step).symm
  · exact (Int.mul_one step).symm
  · exact (Int.mul_neg_one step).symm

theorem foldl_shift (step depth : Int) (lines : List String) :
    lines.foldl (fun depth text => depth + shift step (Marker.ofText? text).join) depth =
      depth + step * balance lines := by
  induction lines generalizing depth with
  | nil => simp only [List.foldl_nil, balance_nil, Int.mul_zero, Int.add_zero]
  | cons text rest ih =>
    rw [List.foldl_cons, ih, ← List.singleton_append, balance_append, balance_singleton, shift_eq_mul]
    ring

theorem depthAt_eq (step : Int) (lines : List String) (i : Nat) :
    depthAt step lines i = step * balance (lines.take (i + 1)) := by
  rw [depthAt, foldl_shift, Int.zero_add]

theorem balance_take_succ {lines : List String} {i : Nat} {text : String}
    (h : lines[i]? = some text) : balance (lines.take (i + 1)) =
      balance (lines.take i) + shift 1 (Marker.ofText? text).join := by
  rw [List.take_add_one, h, Option.toList_some, balance_append, balance_singleton]

/-! The first line at which the pass stops. -/

def fault? (o : Options) (line : Nat) (after : Int) : Reading → Option Fault
  | none => some (.malformedLine line)
  | some marker =>
    if o.nesting = .strict ∧ marker = some .closing ∧ after < 0 then
      some (.unbalancedEvent line after)
    else none

def faultAt? (o : Options) (line : Nat) (depth : Int) (rs : List Reading) (k : Nat) : Option Fault :=
  rs[k]?.bind (fault? o (line + k) (depthBehind o.signedStep depth rs (k + 1)))

section Faults

variable (o : Options) (line : Nat) (depth : Int) (r : Reading) (rs : List Reading)

theorem faultAt?_zero : faultAt? o line depth (r :: rs) 0 =
    fault? o line (depth + shift o.signedStep r.join) r := rfl

theorem faultAt?_succ (k : Nat) : faultAt? o line depth (r :: rs) (k + 1) =
    faultAt? o (line + 1) (depth + shift o.signedStep r.join) rs k := by
  rw [faultAt?, faultAt?, List.getElem?_cons_succ, depthBehind_cons_succ, Nat.add_right_comm line 1 k,
    Nat.add_assoc line k 1]

theorem depthsFrom_cons : depthsFrom o line depth (r :: rs) =
    match fault? o line (depth + shift o.signedStep r.join) r with
    | some f => .error f
    | none => (depthsFrom o (line + 1) (depth + shift o.signedStep r.join) rs).map
        ((depth + shift o.signedStep r.join) :: ·) := by
  cases r with
  | none => rfl
  | some marker =>
    simp only [depthsFrom, fault?, Option.join_some]
    split_ifs <;> rfl

theorem exists_depthsFrom_iff :
    (∃ ds, depthsFrom o line depth rs = .ok ds) ↔ ∀ k, faultAt? o line depth rs k = none := by
  induction rs generalizing line depth with
  | nil => exact iff_of_true ⟨[], rfl⟩ fun _ => rfl
  | cons r rest ih =>
    rw [← Nat.and_forall_add_one, faultAt?_zero, depthsFrom_cons]
    simp only [faultAt?_succ, ← ih]
    cases fault? o line (depth + shift o.signedStep r.join) r with
    | some f => simp only [reduceCtorEq, exists_false, false_and]
    | none =>
      simp only [Pass.map_eq_ok_iff, true_and]
      rw [exists_comm]
      exact exists_congr fun ds => by simp only [exists_and_left, exists_eq', and_true]

theorem depthsFrom_eq_error_iff (f : Fault) : depthsFrom o line depth rs = .error f ↔
    ∃ k, faultAt? o line depth rs k = some f ∧ ∀ j < k, faultAt? o line depth rs j = none := by
  induction rs generalizing line depth with
  | nil => simp [depthsFrom, faultAt?]
  | cons r rest ih =>
    rw [← Nat.or_exists_add_one]
    simp only [Nat.forall_lt_succ_left, faultAt?_zero, faultAt?_succ, depthsFrom_cons, Nat.not_lt_zero,
      false_imp_iff, implies_true, and_true]
    cases fault? o line (depth + shift o.signedStep r.join) r with
    | some g => simp only [Except.error.injEq, Option.some.injEq, reduceCtorEq, false_and, and_false,
        exists_false, or_false]
    | none =>
      have hrest := ih (line + 1) (depth + shift o.signedStep r.join)
      simp only [reduceCtorEq, false_or, true_and, ← hrest]
      cases depthsFrom o (line + 1) (depth + shift o.signedStep r.join) rest <;>
        simp only [Except.map, Except.error.injEq, reduceCtorEq]

end Faults

def depthOf (o : Options) (lines : List String) (i : Nat) : Int :=
  o.signedStep * balance (lines.take (i + 1))

/-- The line takes the pass to its end, with the fault: it cannot be read, or it closes an event below
zero where that is a fault. -/
inductive StopsAt (o : Options) (lines : List String) (line : Nat) : Fault → Prop
  | unreadable (text : String) (h : lines[line]? = some text) (hread : Marker.ofText? text = none) :
      StopsAt o lines line (.malformedLine line)
  | unbalanced (text : String) (h : lines[line]? = some text) (hstrict : o.nesting = .strict)
      (hclosing : Marker.ofText? text = some (some .closing)) (hbelow : depthOf o lines line < 0) :
      StopsAt o lines line (.unbalancedEvent line (depthOf o lines line))

variable {o : Options} {lines : List String}

theorem faultAt?_readings (o : Options) (lines : List String) (i : Nat) :
    faultAt? o 0 0 (readings lines) i =
      lines[i]?.bind fun text => fault? o i (depthOf o lines i) (Marker.ofText? text) := by
  rw [faultAt?, depthBehind_readings, depthAt_eq, readings, List.getElem?_map, Option.bind_map,
    Nat.zero_add, depthOf]
  rfl

theorem stopsAt_iff (line : Nat) (f : Fault) :
    StopsAt o lines line f ↔ faultAt? o 0 0 (readings lines) line = some f := by
  rw [faultAt?_readings]
  constructor
  · intro h
    cases h with
    | unreadable text htext hread => rw [htext, Option.bind_some, hread, fault?]
    | unbalanced text htext hstrict hclosing hbelow =>
      rw [htext, Option.bind_some, hclosing, fault?, if_pos ⟨hstrict, rfl, hbelow⟩]
  · intro h
    obtain ⟨text, htext, hfault⟩ := Option.bind_eq_some_iff.mp h
    cases hread : Marker.ofText? text with
    | none =>
      rw [hread, fault?] at hfault
      obtain rfl := Option.some.inj hfault
      exact .unreadable text htext hread
    | some marker =>
      rw [hread, fault?] at hfault
      split_ifs at hfault with hfall
      obtain rfl := Option.some.inj hfault
      exact .unbalanced text htext hfall.1 (hread.trans (congrArg some hfall.2.1)) hfall.2.2

theorem forall_not_stopsAt_iff (line : Nat) :
    (∀ f, ¬StopsAt o lines line f) ↔ faultAt? o 0 0 (readings lines) line = none := by
  simp only [stopsAt_iff, Option.eq_none_iff_forall_ne_some, ne_eq]

theorem exists_indent_iff_stopsAt :
    (∃ output, (indent o lines).outcome.2 = .ok output) ↔ ∀ line f, ¬StopsAt o lines line f := by
  simp only [indent_eq_ok_iff, forall_not_stopsAt_iff, ← exists_depthsFrom_iff, depths]
  constructor
  · rintro ⟨_, ds, hds, _⟩
    exact ⟨ds, hds⟩
  · rintro ⟨ds, hds⟩
    exact ⟨_, ds, hds, rfl⟩

theorem indent_eq_error_iff {f : Fault} : (indent o lines).outcome.2 = .error f ↔
    ∃ line, StopsAt o lines line f ∧ ∀ i < line, ∀ f', ¬StopsAt o lines i f' := by
  have hvalue : (indent o lines).outcome.2 = _ := value_indent o lines
  have hfirst : (∃ line, StopsAt o lines line f ∧ ∀ i < line, ∀ f', ¬StopsAt o lines i f') ↔
      ∃ k, faultAt? o 0 0 (readings lines) k = some f ∧
        ∀ j < k, faultAt? o 0 0 (readings lines) j = none :=
    exists_congr fun line => and_congr (stopsAt_iff line f)
      (forall₂_congr fun i _ => forall_not_stopsAt_iff i)
  rw [hfirst, ← depthsFrom_eq_error_iff, hvalue, depths]
  cases depthsFrom o 0 0 (readings lines) <;> simp only [Except.map, Except.error.injEq, reduceCtorEq]

theorem forall_not_stopsAt_iff_readable : (∀ line f, ¬StopsAt o lines line f) ↔
    (∀ text ∈ lines, Marker.ofText? text ≠ none) ∧
      (o.nesting = .strict → ∀ (i : Nat) (text : String), lines[i]? = some text →
        Marker.ofText? text = some (some .closing) → 0 ≤ depthOf o lines i) := by
  constructor
  · intro h
    refine ⟨fun text htext hread => ?_, fun hstrict i text htext hclosing => ?_⟩
    · obtain ⟨i, hi⟩ := List.mem_iff_getElem?.mp htext
      exact h i _ (.unreadable text hi hread)
    · exact Int.not_lt.mp fun hbelow => h i _ (.unbalanced text htext hstrict hclosing hbelow)
  · rintro ⟨hread, hclosed⟩ line f hstop
    cases hstop with
    | unreadable text htext hnone => exact hread text (List.mem_of_getElem? htext) hnone
    | unbalanced text htext hstrict hclosing hbelow =>
      exact Int.not_lt.mpr (hclosed hstrict line text htext hclosing) hbelow

theorem getElem?_indentAll_depths {ds : List Int} (h : depths o lines = .ok ds) {i : Nat}
    {text : String} (htext : lines[i]? = some text) : (indentAll ds lines)[i]? =
      some (Text.spaces (max (depthOf o lines i) 0).toNat ++ text) := by
  obtain ⟨d, hd, hline⟩ := getElem?_indentAll (length_of_depths h) htext
  have hdepth := getElem?_depths h (List.getElem?_eq_some_iff.mp htext).1
  obtain rfl := Option.some.inj (hd.symm.trans hdepth)
  have hmax : (max (depthOf o lines i) 0).toNat = (depthOf o lines i).toNat := by omega
  rw [hline, hmax, depthAt_eq]
  rfl

/-! Which lines close more events than they open. -/

def EndsClosing (lines : List String) : Prop :=
  ∃ text, lines.getLast? = some text ∧ Marker.ofText? text = some (some .closing)

theorem exists_endsClosing_of_balance_neg (h : balance lines < 0) :
    ∃ p, p <+: lines ∧ EndsClosing p ∧ balance p < 0 := by
  induction lines using List.reverseRecOn with
  | nil => exact absurd h (Int.lt_irrefl 0)
  | append_singleton before text ih =>
    rcases lt_or_ge (balance before) 0 with hneg | hnonneg
    · obtain ⟨p, hp, hclosing⟩ := ih hneg
      exact ⟨p, hp.trans (List.prefix_append before [text]), hclosing⟩
    · have hdown : 0 + shift 1 (Marker.ofText? text).join < 0 := by
        rw [balance_append, balance_singleton] at h
        omega
      have hclosing : (Marker.ofText? text).join = some .closing :=
        closing_of_fall Int.one_nonneg hdown (Int.le_refl 0)
      refine ⟨_, List.prefix_rfl, ⟨text, List.getLast?_concat, ?_⟩, h⟩
      exact Option.join_eq_some_iff.mp hclosing

theorem endsClosing_take_iff {i : Nat} (hi : i < lines.length) : EndsClosing (lines.take (i + 1)) ↔
    ∃ text, lines[i]? = some text ∧ Marker.ofText? text = some (some .closing) := by
  rw [EndsClosing, List.getLast?_take, if_neg (Nat.succ_ne_zero i), Nat.add_sub_cancel,
    List.getElem?_eq_getElem hi, Option.some_or]

theorem exists_take_of_isPrefix {p : List String} (h : p <+: lines) (hne : p ≠ []) :
    ∃ i < lines.length, p = lines.take (i + 1) ∧ p.length = i + 1 := by
  obtain ⟨i, hi⟩ := Nat.exists_eq_succ_of_ne_zero (mt List.length_eq_zero_iff.mp hne)
  have hle := h.length_le
  exact ⟨i, by omega, (List.prefix_iff_eq_take.mp h).trans (congrArg (lines.take ·) hi), hi⟩

theorem balance_take_nonneg (hstep : 0 < o.signedStep) (hstrict : o.nesting = .strict) {line : Nat}
    (h : ∀ i < line, ∀ f, ¬StopsAt o lines i f) : 0 ≤ balance (lines.take line) := by
  by_contra hneg
  obtain ⟨p, hp, hclosing, hbelow⟩ := exists_endsClosing_of_balance_neg (Int.not_le.mp hneg)
  have hne : p ≠ [] := by
    rintro rfl
    exact Int.lt_irrefl 0 hbelow
  obtain ⟨i, hi, rfl, hlength⟩ :=
    exists_take_of_isPrefix (hp.trans (List.take_prefix line lines)) hne
  have hline : i < line := by
    have hle := hp.length_le
    rw [hlength, List.length_take] at hle
    omega
  obtain ⟨text, htext, hmarker⟩ := (endsClosing_take_iff hi).mp hclosing
  exact h i hline _ (.unbalanced text htext hstrict hmarker (Int.mul_neg_of_pos_of_neg hstep hbelow))

theorem depth_of_stopsAt (hstep : 0 < o.signedStep) {line : Nat} {depth : Int}
    (hstop : StopsAt o lines line (.unbalancedEvent line depth))
    (hfirst : ∀ i < line, ∀ f, ¬StopsAt o lines i f) : depth = -o.signedStep := by
  cases hstop with
  | unbalanced text htext hstrict hclosing hbelow =>
    have hbefore := balance_take_nonneg hstep hstrict hfirst
    have hdown : balance (lines.take (line + 1)) = balance (lines.take line) + -1 := by
      rw [balance_take_succ htext, hclosing]
      rfl
    have hneg : balance (lines.take (line + 1)) < 0 := Int.neg_of_mul_neg_right hbelow hstep
    have hlast : balance (lines.take (line + 1)) = -1 := by omega
    rw [depthOf, hlast, Int.mul_neg_one]

theorem signedStep_eq_bmod (o : Options) :
    o.signedStep = (o.step.toNat : Int).bmod UInt64.size := BitVec.toInt_eq_toNat_bmod _

structure IndentsByBalance (o : Options) (lines : List String) : Prop where
  signed : o.signedStep = (o.step.toNat : Int).bmod UInt64.size
  ok_iff : (∃ output, (indent o lines).outcome.2 = .ok output) ↔
    (∀ text ∈ lines, Marker.ofText? text ≠ none) ∧
      (o.nesting = .strict → ∀ (i : Nat) (text : String), lines[i]? = some text →
        Marker.ofText? text = some (some .closing) → 0 ≤ depthOf o lines i)
  size (output : Array String) (h : (indent o lines).outcome.2 = .ok output) :
    output.size = lines.length
  line (output : Array String) (h : (indent o lines).outcome.2 = .ok output) (i : Nat) (text : String)
    (htext : lines[i]? = some text) :
    output[i]? = some (Text.spaces (max (depthOf o lines i) 0).toNat ++ text)
  error_iff (f : Fault) : (indent o lines).outcome.2 = .error f ↔
    ∃ line, StopsAt o lines line f ∧ ∀ i < line, ∀ f', ¬StopsAt o lines i f'
  depth (hstep : 0 < o.signedStep) (line : Nat) (depth : Int)
    (h : (indent o lines).outcome.2 = .error (.unbalancedEvent line depth)) : depth = -o.signedStep

theorem indentsByBalance (o : Options) (lines : List String) : IndentsByBalance o lines where
  signed := signedStep_eq_bmod o
  ok_iff := exists_indent_iff_stopsAt.trans forall_not_stopsAt_iff_readable
  size output h := by
    obtain ⟨ds, hds, rfl⟩ := indent_eq_ok_iff.mp h
    rw [List.size_toArray, length_indentAll (length_of_depths hds)]
  line output h i text htext := by
    obtain ⟨ds, hds, rfl⟩ := indent_eq_ok_iff.mp h
    rw [List.getElem?_toArray, getElem?_indentAll_depths hds htext]
  error_iff _ := indent_eq_error_iff
  depth hstep line depth h := by
    obtain ⟨stop, hstop, hfirst⟩ := indent_eq_error_iff.mp h
    have hline : stop = line := by
      cases hstop
      rfl
    subst hline
    exact depth_of_stopsAt hstep hstop hfirst

end Lsif.Indentation
