import Lsif.Proofs.Indentation
import Lsif.Proofs.Text
import Mathlib.Data.Nat.Find
import Mathlib.Tactic.Choose

/-! The two ways to take an event that ends without having begun. The strict one stops at the first line
that the lenient one warns of, and is the same up to there. The lenient one warns once of each stretch of
lines whose depth is below zero, at its first line. -/

namespace Lsif.Indentation

def depthAt (step : Int) (lines : List String) (i : Nat) : Int :=
  (lines.take (i + 1)).foldl (fun depth text => depth + shift step (Marker.ofText? text).join) 0

def fallsFrom (step : Int) (line : Nat) (depth : Int) : List Reading → List (Nat × Int)
  | [] => []
  | none :: _ => []
  | some marker :: rest =>
    let after := depth + shift step marker
    if marker = some .closing ∧ after < 0 ∧ 0 ≤ depth then
      (line, after) :: fallsFrom step (line + 1) after rest
    else fallsFrom step (line + 1) after rest

/-- From `first` up to `stop` all depths are below zero, and the lines next to these are not. -/
structure IsExcursion (depth : Nat → Int) (count first stop : Nat) : Prop where
  lt : first < stop
  le : stop ≤ count
  below (i : Nat) (hfirst : first ≤ i) (hstop : i < stop) : depth i < 0
  begins : first = 0 ∨ 0 ≤ depth (first - 1)
  ends : stop = count ∨ 0 ≤ depth stop

theorem signedStep_eq {o : Options} (h : o.step.toNat < Nat.pow 2 63) :
    o.signedStep = o.step.toNat := by
  have hsmall : 2 * o.step.toBitVec.toNat < 2 ^ 64 := by
    have hhalf : Nat.pow 2 63 = 2 ^ 63 := rfl
    have hvalue : o.step.toBitVec.toNat = o.step.toNat := rfl
    omega
  exact BitVec.toInt_eq_toNat_of_lt hsmall

/-! What the lenient pass warns of. -/

section Log

variable {o : Options}

theorem log_check_lenient (line : Nat) (before after : Int) (marker : Option Marker) :
    (check .lenient line before after marker).log =
      if marker = some .closing ∧ after < 0 ∧ 0 ≤ before then #[.belowZero line after] else #[] := by
  unfold check
  by_cases hfall : marker = some .closing ∧ after < 0
  · change (if _ then (if before < 0 then pure () else Pass.note (.belowZero line after)) else pure () :
      Pass Unit).log = _
    rw [if_pos hfall]
    by_cases hbefore : before < 0
    · rw [if_pos hbefore, if_neg (by omega)]
      rfl
    · rw [if_neg hbefore, if_pos ⟨hfall.1, hfall.2, Int.not_lt.mp hbefore⟩]
      rfl
  · rw [if_neg hfall, if_neg fun h => hfall ⟨h.1, h.2.1⟩]
    rfl

theorem log_check_strict (line : Nat) (before after : Int) (marker : Option Marker) :
    (check .strict line before after marker).log = #[] := by
  unfold check
  split <;> rfl

theorem log_addLine (o : Options) (s : State) (text : String) : (addLine o s text).log =
    match Marker.ofText? text with
    | none => #[]
    | some marker =>
      (check o.nesting s.lines.size s.depth (s.depth + shift o.signedStep marker) marker).log := by
  unfold addLine
  rw [Pass.log_bind]
  cases Marker.ofText? text with
  | none => rfl
  | some marker =>
    simp only [Pass.value_require_some, Pass.log_require, Pass.log_bind, Array.empty_append]
    cases (check o.nesting s.lines.size s.depth _ marker).value <;> simp

theorem log_indent (o : Options) (lines : List String) :
    (indent o lines).log = (lines.foldlM (addLine o) { depth := 0, lines := #[] }).log := by
  unfold indent
  rw [Pass.log_bind]
  cases (lines.foldlM (addLine o) { depth := 0, lines := #[] }).value <;> simp

theorem log_indent_strict (h : o.nesting = .strict) (lines : List String) :
    (indent o lines).log = #[] := by
  rw [log_indent]
  refine Pass.log_foldlM_eq_empty (fun s text => ?_) lines _
  rw [log_addLine, h]
  cases Marker.ofText? text with
  | none => rfl
  | some marker => exact log_check_strict _ _ _ _

theorem log_foldlM_lenient (h : o.nesting = .lenient) (s : State) (lines : List String) :
    (lines.foldlM (addLine o) s).log.toList =
      (fallsFrom o.signedStep s.lines.size s.depth (readings lines)).map fun fall =>
        .belowZero fall.1 fall.2 := by
  induction lines generalizing s with
  | nil => rfl
  | cons text rest ih =>
    rw [List.foldlM_cons, Pass.log_bind, value_addLine, log_addLine, h]
    simp only [readings, List.map_cons]
    cases Marker.ofText? text with
    | none => rfl
    | some marker =>
      simp only [reduceCtorEq, false_and, if_false, log_check_lenient, Array.toList_append, ih,
        fallsFrom, readings, Array.size_push]
      split <;> rfl

theorem log_indent_lenient (h : o.nesting = .lenient) (lines : List String) :
    (indent o lines).log.toList =
      (fallsFrom o.signedStep 0 0 (readings lines)).map fun fall => .belowZero fall.1 fall.2 := by
  rw [log_indent, log_foldlM_lenient h]
  rfl

end Log

/-! The two runs. The depth is not below zero until the first fall, which is where the strict one stops. -/

theorem depthsFrom_strict {step : UInt64} (hstep : 0 ≤ Options.signedStep { step }) (line : Nat)
    {depth : Int} (hdepth : 0 ≤ depth) (rs : List Reading) :
    depthsFrom { step, nesting := .strict } line depth rs =
      match (fallsFrom (Options.signedStep { step }) line depth rs).head? with
      | none => depthsFrom { step, nesting := .lenient } line depth rs
      | some fall => .error (.unbalancedEvent fall.1 fall.2) := by
  have hlenient : Options.signedStep { step, nesting := .lenient } = Options.signedStep { step } := rfl
  induction rs generalizing line depth with
  | nil => rfl
  | cons r rest ih =>
    cases r with
    | none => rfl
    | some marker =>
      simp only [depthsFrom, fallsFrom, hlenient, true_and, reduceCtorEq, false_and, if_false]
      by_cases hfall : marker = some .closing ∧ depth + shift (Options.signedStep { step }) marker < 0
      · rw [if_pos hfall, if_pos ⟨hfall.1, hfall.2, hdepth⟩, List.head?_cons]
      · have hafter : 0 ≤ depth + shift (Options.signedStep { step }) marker := by
          rcases marker with _ | _ | _
          · simpa only [shift, Int.add_zero] using hdepth
          · exact Int.add_nonneg hdepth hstep
          · exact Int.not_lt.mp fun hneg => hfall ⟨rfl, hneg⟩
        rw [if_neg hfall, if_neg fun h => hfall ⟨h.1, h.2.1⟩, ih (line + 1) hafter]
        cases (fallsFrom (Options.signedStep { step }) (line + 1) _ rest).head? <;> rfl

theorem value_indent_strict {step : UInt64} (hstep : 0 ≤ Options.signedStep { step })
    (lines : List String) : (indent { step, nesting := .strict } lines).value =
      match (fallsFrom (Options.signedStep { step }) 0 0 (readings lines)).head? with
      | none => (indent { step, nesting := .lenient } lines).value
      | some fall => .error (.unbalancedEvent fall.1 fall.2) := by
  rw [value_indent, value_indent, depths, depths, depthsFrom_strict hstep 0 (Int.le_refl 0)]
  cases (fallsFrom (Options.signedStep { step }) 0 0 (readings lines)).head? <;> rfl

/-! The depths, and the places where they fall below zero. -/

def depthBehind (step depth : Int) (rs : List Reading) (n : Nat) : Int :=
  (rs.take n).foldl (fun depth r => depth + shift step r.join) depth

theorem depthBehind_cons_succ (step depth : Int) (r : Reading) (rs : List Reading) (n : Nat) :
    depthBehind step depth (r :: rs) (n + 1) = depthBehind step (depth + shift step r.join) rs n := by
  rw [depthBehind, List.take_succ_cons, List.foldl_cons, depthBehind]

theorem depthBehind_readings (step : Int) (lines : List String) (i : Nat) :
    depthBehind step 0 (readings lines) (i + 1) = depthAt step lines i := by
  rw [depthBehind, readings, ← List.map_take, List.foldl_map, depthAt]

theorem getElem?_depthsFrom {o : Options} {line : Nat} {depth : Int} {rs : List Reading}
    {ds : List Int} (h : depthsFrom o line depth rs = .ok ds) {i : Nat} (hi : i < rs.length) :
    ds[i]? = some (depthBehind o.signedStep depth rs (i + 1)) := by
  induction rs generalizing line depth ds i with
  | nil => exact absurd hi (Nat.not_lt_zero i)
  | cons r rest ih =>
    cases r with
    | none => cases h
    | some marker =>
      simp only [depthsFrom] at h
      split_ifs at h
      obtain ⟨behind, hrest, rfl⟩ := Pass.map_eq_ok_iff.mp h
      rw [depthBehind_cons_succ, Option.join_some]
      cases i with
      | zero => simp [depthBehind]
      | succ i => exact ih hrest (Nat.lt_of_succ_lt_succ hi)

theorem getElem?_depths {o : Options} {lines : List String} {ds : List Int}
    (h : depths o lines = .ok ds) {i : Nat} (hi : i < lines.length) :
    ds[i]? = some (depthAt o.signedStep lines i) := by
  rw [getElem?_depthsFrom h (by rwa [readings, List.length_map]), depthBehind_readings]

theorem closing_of_fall {step depth : Int} (hstep : 0 ≤ step) {marker : Option Marker}
    (hafter : depth + shift step marker < 0) (hdepth : 0 ≤ depth) : marker = some .closing := by
  rcases marker with _ | _ | _
  · simp only [shift] at hafter
    omega
  · simp only [shift] at hafter
    omega
  · rfl

theorem fallsFrom_eq {step : Int} (hstep : 0 ≤ step) (line : Nat) (depth : Int) {rs : List Reading}
    (h : ∀ r ∈ rs, r ≠ none) : fallsFrom step line depth rs =
      ((List.range rs.length).filter fun k =>
        depthBehind step depth rs (k + 1) < 0 ∧ 0 ≤ depthBehind step depth rs k).map fun k =>
          (line + k, depthBehind step depth rs (k + 1)) := by
  induction rs generalizing line depth with
  | nil => rfl
  | cons r rest ih =>
    obtain ⟨hr, hrest⟩ := List.forall_mem_cons.mp h
    obtain ⟨marker, rfl⟩ := Option.ne_none_iff_exists'.mp hr
    have hfirst : depthBehind step depth (some marker :: rest) 0 = depth := by simp [depthBehind]
    have hnext : depthBehind step (depth + shift step marker) rest 0 = depth + shift step marker := by
      simp [depthBehind]
    simp only [fallsFrom, List.length_cons, List.range_succ_eq_map, List.filter_cons, List.filter_map,
      Function.comp_def, depthBehind_cons_succ, Option.join_some, hfirst, hnext, Nat.succ_eq_add_one]
    have hshift (k : Nat) : line + 1 + k = line + (k + 1) := by omega
    rw [ih (line + 1) (depth + shift step marker) hrest]
    by_cases hfall : depth + shift step marker < 0 ∧ 0 ≤ depth
    · rw [if_pos ⟨closing_of_fall hstep hfall.1 hfall.2, hfall⟩, if_pos (decide_eq_true hfall)]
      simp only [List.map_cons, List.map_map, Function.comp_def, hshift, hnext, Nat.add_zero,
        Nat.succ_eq_add_one]
    · rw [if_neg fun h => hfall h.2, if_neg (mt of_decide_eq_true hfall)]
      simp only [List.map_map, Function.comp_def, hshift, Nat.succ_eq_add_one]

/-! Stretches of lines below zero. Each has one first line and one end. -/

section Excursions

variable {depth : Nat → Int} {count first stop : Nat}

def Falls (depth : Nat → Int) (count i : Nat) : Prop :=
  i < count ∧ depth i < 0 ∧ (i = 0 ∨ 0 ≤ depth (i - 1))

instance (depth : Nat → Int) (count : Nat) : DecidablePred (Falls depth count) := fun _ =>
  inferInstanceAs (Decidable (_ ∧ _ ∧ _))

theorem IsExcursion.falls (h : IsExcursion depth count first stop) : Falls depth count first :=
  ⟨Nat.lt_of_lt_of_le h.lt h.le, h.below first (Nat.le_refl first) h.lt, h.begins⟩

theorem IsExcursion.stop_le (h : IsExcursion depth count first stop) {stop' : Nat}
    (h' : IsExcursion depth count first stop') : stop ≤ stop' := by
  rcases h'.ends with hcount | hends
  · exact hcount ▸ h.le
  · -- else the one stretch would still be below zero where the other has ended
    refine Nat.le_of_not_lt fun hlt => ?_
    have hbelow := h.below stop' (Nat.le_of_lt h'.lt) hlt
    omega

theorem IsExcursion.stop_unique (h : IsExcursion depth count first stop) {stop' : Nat}
    (h' : IsExcursion depth count first stop') : stop = stop' :=
  Nat.le_antisymm (h.stop_le h') (h'.stop_le h)

theorem Falls.exists_isExcursion (h : Falls depth count first) :
    ∃ stop, IsExcursion depth count first stop := by
  obtain ⟨hlt, hneg, hbegins⟩ := h
  have hends : ∃ i, first < i ∧ (i = count ∨ 0 ≤ depth i) := ⟨count, hlt, .inl rfl⟩
  obtain ⟨hfirst, hstop⟩ := Nat.find_spec hends
  have hle : Nat.find hends ≤ count := Nat.find_min' hends ⟨hlt, .inl rfl⟩
  refine ⟨Nat.find hends, hfirst, hle, fun i hi hlast => ?_, hbegins, hstop⟩
  rcases Nat.lt_or_eq_of_le hi with hi | rfl
  · have hmin := Nat.find_min hends hlast
    simp only [hi, true_and, not_or, Int.not_le] at hmin
    exact hmin.2
  · exact hneg

theorem exists_excursions (depth : Nat → Int) (count : Nat) : ∃ runs : List (Nat × Nat),
    (runs.Pairwise fun r s => r.1 < s.1) ∧ (∀ r, r ∈ runs ↔ IsExcursion depth count r.1 r.2) ∧
      runs.map Prod.fst = (List.range count).filter fun i => Falls depth count i := by
  choose! stop hstop using fun i (h : Falls depth count i) => h.exists_isExcursion
  refine ⟨((List.range count).filter fun i => Falls depth count i).map fun i => (i, stop i),
    ?_, fun ⟨i, last⟩ => ?_, ?_⟩
  · exact List.pairwise_map.mpr (List.pairwise_lt_range.filter _)
  · simp only [List.mem_map, List.mem_filter, List.mem_range, decide_eq_true_eq, Prod.mk.injEq]
    constructor
    · rintro ⟨_, ⟨_, hfalls⟩, rfl, rfl⟩
      exact hstop _ hfalls
    · intro hrun
      exact ⟨i, ⟨hrun.falls.1, hrun.falls⟩, rfl, (hstop i hrun.falls).stop_unique hrun⟩
  · rw [List.map_map]
    exact List.map_id _

end Excursions

theorem fallsFrom_readings {step : Int} (hstep : 0 ≤ step) {lines : List String}
    (hread : ∀ r ∈ readings lines, r ≠ none) : fallsFrom step 0 0 (readings lines) =
      ((List.range lines.length).filter fun i => Falls (depthAt step lines) lines.length i).map
        fun i => (i, depthAt step lines i) := by
  have hfalls : ∀ i ∈ List.range lines.length,
      decide (depthBehind step 0 (readings lines) (i + 1) < 0 ∧
        0 ≤ depthBehind step 0 (readings lines) i) =
          decide (Falls (depthAt step lines) lines.length i) := by
    intro i hi
    rw [decide_eq_decide, depthBehind_readings, Falls, and_iff_right (List.mem_range.mp hi)]
    refine and_congr_right fun _ => ?_
    cases i with
    | zero => simp [depthBehind]
    | succ i => simp [depthBehind_readings]
  have hlength : (readings lines).length = lines.length := by rw [readings, List.length_map]
  rw [fallsFrom_eq hstep 0 0 hread, hlength, List.filter_congr hfalls]
  simp only [depthBehind_readings, Nat.zero_add]

/-- The strict run is the lenient one, unless this one warns: then it stops where the first warning is. The
lenient one warns of each stretch of lines below zero, by its first line. -/
structure StopsAtFirstWarning (depth : Nat → Int) (lines : List String)
    (lenient strict : Array Notice × Except Fault (Array String)) : Prop where
  warning (n : Notice) (hn : n ∈ lenient.1) : n.level = .warning
  silent (h : ∀ n ∈ lenient.1, n.level ≠ .warning) : strict = lenient ∧ strict.1 = #[]
  first (n : Notice) (h : lenient.1.find? (fun n => n.level = .warning) = some n) :
    ∃ line depth, n = .belowZero line depth ∧ strict = (#[], .error (.unbalancedEvent line depth))
  depths (output : Array String) (h : lenient.2 = .ok output) (i : Nat) (text : String)
    (htext : lines[i]? = some text) : output[i]? = some (indented (depth i) text)
  excursions (output : Array String) (h : lenient.2 = .ok output) : ∃ runs : List (Nat × Nat),
    (runs.Pairwise fun r s => r.1 < s.1) ∧
      (∀ r, r ∈ runs ↔ IsExcursion depth lines.length r.1 r.2) ∧
        lenient.1.toList = runs.map fun r => .belowZero r.1 (depth r.1)

theorem stopsAtFirstWarning {step : UInt64} (h : step.toNat < Nat.pow 2 63) (lines : List String) :
    StopsAtFirstWarning (depthAt step.toNat lines) lines
      (indent { step, nesting := .lenient } lines).outcome
      (indent { step, nesting := .strict } lines).outcome := by
  have hsigned : Options.signedStep { step } = step.toNat := signedStep_eq h
  have hstep : 0 ≤ Options.signedStep { step } := hsigned ▸ Int.natCast_nonneg _
  have hlog : (indent { step, nesting := .lenient } lines).log.toList =
      (fallsFrom (Options.signedStep { step }) 0 0 (readings lines)).map fun fall =>
        .belowZero fall.1 fall.2 := log_indent_lenient rfl lines
  have hstrict : (indent { step, nesting := .strict } lines).outcome = (#[], _) :=
    Prod.ext (log_indent_strict rfl lines) (value_indent_strict hstep lines)
  have hwarning : ∀ n ∈ (indent { step, nesting := .lenient } lines).log, n.level = .warning := by
    intro n hn
    obtain ⟨fall, _, rfl⟩ := List.mem_map.mp (hlog ▸ Array.mem_toList_iff.mpr hn)
    rfl
  refine ⟨hwarning, fun hsilent => ?_, fun n hfirst => ?_, fun output hok i text htext => ?_,
    fun output hok => ?_⟩
  · have hempty : (indent { step, nesting := .lenient } lines).log = #[] :=
      Array.eq_empty_iff_forall_not_mem.mpr fun n hn => hsilent n hn (hwarning n hn)
    rw [hempty, Array.toList_empty, eq_comm, List.map_eq_nil_iff] at hlog
    rw [hstrict, hlog]
    exact ⟨Prod.ext hempty.symm rfl, rfl⟩
  · -- all that the lenient run gives are warnings, so the first of them is the first of all
    have hall : (indent { step, nesting := .lenient } lines).log.toList.filter
        (fun n => n.level = .warning) = (indent { step, nesting := .lenient } lines).log.toList :=
      List.filter_eq_self.mpr fun n hn => decide_eq_true (hwarning n (Array.mem_toList_iff.mp hn))
    have hhead : (indent { step, nesting := .lenient } lines).log.toList.head? = some n := by
      rw [← hall, List.head?_filter, Array.find?_toList]
      exact hfirst
    rw [hlog, List.head?_map] at hhead
    obtain ⟨fall, hfall, rfl⟩ := Option.map_eq_some_iff.mp hhead
    refine ⟨fall.1, fall.2, rfl, ?_⟩
    rw [hstrict, hfall]
  · obtain ⟨ds, hds, rfl⟩ := indent_eq_ok_iff.mp hok
    obtain ⟨d, hd, hline⟩ := getElem?_indentAll (length_of_depths hds) htext
    have hdepth := getElem?_depths hds (List.getElem?_eq_some_iff.mp htext).1
    obtain rfl := Option.some.inj (hd.symm.trans hdepth)
    rw [List.getElem?_toArray, hline, ← hsigned]
    rfl
  · obtain ⟨ds, hds, rfl⟩ := indent_eq_ok_iff.mp hok
    obtain ⟨runs, hsorted, hruns, hfirsts⟩ :=
      exists_excursions (depthAt step.toNat lines) lines.length
    have hread := forall_ne_none_of_depthsFrom hds
    have hplaces : fallsFrom (Options.signedStep { step }) 0 0 (readings lines) =
        runs.map fun r => (r.1, depthAt step.toNat lines r.1) := by
      rw [fallsFrom_readings hstep hread, hsigned, ← hfirsts, List.map_map]
      rfl
    refine ⟨runs, hsorted, hruns, ?_⟩
    show (indent { step, nesting := .lenient } lines).log.toList = _
    rw [hlog, hplaces, List.map_map]
    rfl

theorem stopsAtFirstWarning_two_excursions :
    let opening := "\x7b\"label\":\"$event\",\"kind\":\"begin\"\x7d"
    let closing := "\x7b\"label\":\"$event\",\"kind\":\"end\"\x7d"
    let lines := [closing, "1", opening, closing]
    UInt64.toNat 4 < Nat.pow 2 63 ∧
      (indent { step := 4, nesting := .lenient } lines).log = #[.belowZero 0 (-4), .belowZero 3 (-4)] ∧
      StopsAtFirstWarning (depthAt (UInt64.toNat 4) lines) lines
        (indent { step := 4, nesting := .lenient } lines).outcome
        (indent { step := 4, nesting := .strict } lines).outcome :=
  ⟨by decide, by decide +kernel, stopsAtFirstWarning (by decide) _⟩

end Lsif.Indentation
