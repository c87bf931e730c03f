import Lsif.Indentation
import Lsif.Proofs.Pass
import Mathlib.Tactic.SplitIfs
import Mathlib.Data.List.Basic

/-! Indentation in two parts. The markers of the lines alone decide whether the pass succeeds and how
deep every line lies; the texts of the lines only come behind their depths. -/

namespace Lsif.Indentation

/-- What a line says about the indentation: nothing at all if it cannot be read. -/
abbrev Reading := Option (Option Marker)

def readings (lines : List String) : List Reading := lines.map Marker.ofText?

def depthsFrom (o : Options) (line : Nat) (depth : Int) : List Reading → Except Fault (List Int)
  | [] => .ok []
  | none :: _ => .error (.malformedLine line)
  | some marker :: rest =>
    let after := depth + shift o.signedStep marker
    if o.nesting = .strict ∧ marker = some .closing ∧ after < 0 then
      .error (.unbalancedEvent line after)
    else (depthsFrom o (line + 1) after rest).map (after :: ·)

def depths (o : Options) (lines : List String) : Except Fault (List Int) :=
  depthsFrom o 0 0 (readings lines)

def indentAll (depths : List Int) (lines : List String) : List String :=
  List.zipWith indented depths lines

instance (nesting : Nesting) (line : Nat) (before after : Int) (marker : Option Marker) :
    Pass.Appending (check nesting line before after marker) := by
  unfold check
  split
  · cases nesting with
    | strict => exact inferInstanceAs (Pass.Appending (throw _))
    | lenient =>
      change Pass.Appending (if before < 0 then pure () else Pass.note (.belowZero line after))
      split <;> infer_instance
  · infer_instance

instance (o : Options) (s : State) (text : String) : Pass.Appending (addLine o s text) := by
  unfold addLine
  infer_instance

theorem value_check (nesting : Nesting) (line : Nat) (before after : Int)
    (marker : Option Marker) : (check nesting line before after marker).value =
      if nesting = .strict ∧ marker = some .closing ∧ after < 0 then
        .error (.unbalancedEvent line after)
      else .ok () := by
  unfold check
  by_cases hclosing : marker = some .closing ∧ after < 0
  · rw [if_pos hclosing]
    cases nesting with
    | strict => exact (if_pos ⟨rfl, hclosing⟩).symm
    | lenient =>
      change (if before < 0 then pure () else Pass.note (.belowZero line after) : Pass Unit).value = _
      simp only [reduceCtorEq, false_and, if_false]
      split <;> rfl
  · rw [if_neg hclosing, if_neg fun h => hclosing h.2]
    rfl

theorem value_addLine (o : Options) (s : State) (text : String) : (addLine o s text).value =
    match Marker.ofText? text with
    | none => .error (.malformedLine s.lines.size)
    | some marker =>
      let after := s.depth + shift o.signedStep marker
      if o.nesting = .strict ∧ marker = some .closing ∧ after < 0 then
        .error (.unbalancedEvent s.lines.size after)
      else .ok { depth := after, lines := s.lines.push (indented after text) } := by
  unfold addLine
  rw [Pass.value_bind]
  cases Marker.ofText? text with
  | none => rfl
  | some marker =>
    simp only [Pass.value_require_some, Pass.value_bind, value_check, Pass.ok_bind]
    split_ifs <;> rfl

theorem value_foldlM_addLine (o : Options) (s : State) (lines : List String) :
    ((lines.foldlM (addLine o) s).value).map State.lines =
      (depthsFrom o s.lines.size s.depth (readings lines)).map fun ds =>
        s.lines ++ (indentAll ds lines).toArray := by
  induction lines generalizing s with
  | nil => simp [readings, depthsFrom, indentAll, Except.map]
  | cons text rest ih =>
    rw [List.foldlM_cons, Pass.value_bind, value_addLine]
    simp only [readings, List.map_cons]
    cases Marker.ofText? text with
    | none => rfl
    | some marker =>
      simp only [depthsFrom]
      split_ifs with hfault
      · rfl
      · change Except.map State.lines (List.foldlM (addLine o) _ rest).value = _
        rw [ih]
        simp only [Array.size_push, readings]
        cases depthsFrom o (s.lines.size + 1) _ (rest.map Marker.ofText?) with
        | error fault => rfl
        | ok ds => simp [Except.map, indentAll]

theorem value_indent (o : Options) (lines : List String) : (indent o lines).value =
    (depths o lines).map fun ds => (indentAll ds lines).toArray := by
  have h := value_foldlM_addLine o { depth := 0, lines := #[] } lines
  unfold indent
  rw [Pass.value_bind]
  simp only [List.size_toArray, List.length_nil, Array.empty_append] at h
  rw [depths, ← h]
  cases (lines.foldlM (addLine o) { depth := 0, lines := #[] }).value <;> rfl

theorem indent_eq_ok_iff {o : Options} {lines : List String} {indented : Array String} :
    (indent o lines).outcome.2 = .ok indented ↔
      ∃ ds, depths o lines = .ok ds ∧ (indentAll ds lines).toArray = indented := by
  have hvalue : (indent o lines).outcome.2 = _ := value_indent o lines
  rw [hvalue, Pass.map_eq_ok_iff]

theorem length_of_depthsFrom {o : Options} {line : Nat} {depth : Int} {rs : List Reading}
    {ds : List Int} (h : depthsFrom o line depth rs = .ok ds) : ds.length = rs.length := by
  induction rs generalizing line depth ds with
  | nil =>
    cases h
    rfl
  | cons r rs ih =>
    cases r with
    | none => cases h
    | some marker =>
      simp only [depthsFrom] at h
      split_ifs at h
      cases hrest : depthsFrom o (line + 1) (depth + shift o.signedStep marker) rs with
      | error fault =>
        rw [hrest] at h
        cases h
      | ok rest =>
        rw [hrest] at h
        cases h
        simp only [List.length_cons, ih hrest]

theorem forall_ne_none_of_depthsFrom {o : Options} {line : Nat} {depth : Int} {rs : List Reading}
    {ds : List Int} (h : depthsFrom o line depth rs = .ok ds) : ∀ r ∈ rs, r ≠ none := by
  induction rs generalizing line depth ds with
  | nil => exact List.forall_mem_nil _
  | cons r rest ih =>
    cases r with
    | none => cases h
    | some marker =>
      simp only [depthsFrom] at h
      split_ifs at h
      obtain ⟨behind, hrest, _⟩ := Pass.map_eq_ok_iff.mp h
      exact List.forall_mem_cons.mpr ⟨Option.some_ne_none marker, ih hrest⟩

theorem exists_depthsFrom_of_lenient {o : Options} (h : o.nesting = .lenient) (line : Nat)
    (depth : Int) {rs : List Reading} (hread : ∀ r ∈ rs, r ≠ none) :
    ∃ ds, depthsFrom o line depth rs = .ok ds := by
  induction rs generalizing line depth with
  | nil => exact ⟨[], rfl⟩
  | cons r rest ih =>
    obtain ⟨hr, hrest⟩ := List.forall_mem_cons.mp hread
    obtain ⟨marker, rfl⟩ := Option.ne_none_iff_exists'.mp hr
    obtain ⟨behind, hbehind⟩ := ih (line + 1) (depth + shift o.signedStep marker) hrest
    refine ⟨(depth + shift o.signedStep marker) :: behind, ?_⟩
    simp only [depthsFrom, h, reduceCtorEq, false_and, if_false, hbehind, Except.map]

theorem exists_depthsFrom_of_append {o : Options} {line : Nat} {depth : Int} {rs more : List Reading}
    {ds : List Int} (h : depthsFrom o line depth (rs ++ more) = .ok ds) :
    ∃ front behind, depthsFrom o line depth rs = .ok front ∧ ds = front ++ behind := by
  induction rs generalizing line depth ds with
  | nil => exact ⟨[], ds, rfl, rfl⟩
  | cons r rest ih =>
    cases r with
    | none => cases h
    | some marker =>
      simp only [List.cons_append, depthsFrom] at h ⊢
      split_ifs at h ⊢ with hfault
      obtain ⟨later, hlater, rfl⟩ := Pass.map_eq_ok_iff.mp h
      obtain ⟨front, behind, hfront, rfl⟩ := ih hlater
      exact ⟨_ :: front, behind, Pass.map_eq_ok_iff.mpr ⟨front, hfront, rfl⟩, rfl⟩

theorem exists_depths_of_append {o : Options} {lines more : List String} {ds : List Int}
    (h : depths o (lines ++ more) = .ok ds) :
    ∃ front behind, depths o lines = .ok front ∧ ds = front ++ behind := by
  rw [depths, readings, List.map_append] at h
  exact exists_depthsFrom_of_append h

theorem exists_depths_iff_of_lenient {o : Options} (h : o.nesting = .lenient) (lines : List String) :
    (∃ ds, depths o lines = .ok ds) ↔ ∀ text ∈ lines, Marker.ofText? text ≠ none := by
  have hreadings : (∀ r ∈ readings lines, r ≠ none) ↔ ∀ text ∈ lines, Marker.ofText? text ≠ none :=
    List.forall_mem_map
  rw [← hreadings]
  refine ⟨?_, fun hread => exists_depthsFrom_of_lenient h 0 0 hread⟩
  rintro ⟨ds, hds⟩
  exact forall_ne_none_of_depthsFrom hds

theorem length_of_depths {o : Options} {lines : List String} {ds : List Int}
    (h : depths o lines = .ok ds) : ds.length = lines.length := by
  simpa only [readings, List.length_map] using length_of_depthsFrom h

theorem length_indentAll {ds : List Int} {lines : List String} (h : ds.length = lines.length) :
    (indentAll ds lines).length = lines.length := by
  simp only [indentAll, List.length_zipWith, h, Nat.min_self]

theorem getElem?_indentAll {ds : List Int} {lines : List String} (h : ds.length = lines.length)
    {i : Nat} {text : String} (htext : lines[i]? = some text) :
    ∃ d, ds[i]? = some d ∧ (indentAll ds lines)[i]? = some (indented d text) := by
  have hi : i < ds.length := h ▸ (List.getElem?_eq_some_iff.mp htext).1
  refine ⟨ds[i], List.getElem?_eq_getElem hi, ?_⟩
  rw [indentAll, List.getElem?_zipWith, List.getElem?_eq_getElem hi, htext]

theorem indentAll_append {front behind : List Int} {lines more : List String}
    (h : front.length = lines.length) : indentAll (front ++ behind) (lines ++ more) =
      indentAll front lines ++ indentAll behind more := List.zipWith_append h

theorem map_getElem?_indentAll {α : Type} {f : String → α}
    (hf : ∀ depth text, f (indented depth text) = f text) {ds : List Int} {lines : List String}
    (h : ds.length = lines.length) (i : Nat) :
    (indentAll ds lines)[i]?.map f = lines[i]?.map f := by
  rcases Nat.lt_or_ge i lines.length with hi | hi
  · have htext : lines[i]? = some lines[i] := List.getElem?_eq_getElem hi
    obtain ⟨d, _, hindented⟩ := getElem?_indentAll h htext
    rw [hindented, htext, Option.map_some, Option.map_some, hf]
  · have hnone : (indentAll ds lines)[i]? = none :=
      List.getElem?_eq_none (Nat.le_trans (Nat.le_of_eq (length_indentAll h)) hi)
    rw [hnone, List.getElem?_eq_none hi, Option.map_none]

end Lsif.Indentation
