import Lsif.Proofs.Document.Search

/-! The same texts with either terminator. With the longer one every line lies further by its own number,
and so does whatever is found in it. -/

namespace Lsif

def Line.shifted (i : Nat) (l : Line) : Line := { l with start := l.start + i }

def Hit.shifted (hit : Hit) : Hit := { hit with offset := hit.offset + hit.line }

namespace Line

theorem getElem?_layout_succ (width start past : Nat) (texts : List String) (i : Nat) :
    (layout (width + 1) (start + past) texts)[i]? =
      (layout width start texts)[i]?.map (shifted (past + i)) := by
  induction texts generalizing start past i with
  | nil => rfl
  | cons text rest ih =>
    cases i with
    | zero => rfl
    | succ i =>
      have hstart : start + past + text.length + (width + 1) =
          start + text.length + width + (past + 1) := by omega
      have hpast : past + (i + 1) = past + 1 + i := by omega
      simp only [layout, List.getElem?_cons_succ]
      rw [hstart, hpast]
      exact ih _ _ i

theorem occurs_shifted_iff (l : Line) (needle : List Char) (i offset' : Nat) :
    (l.shifted i).Occurs needle offset' ↔ ∃ offset, offset' = offset + i ∧ l.Occurs needle offset := by
  have hshifted (offset : Nat) :
      (l.shifted i).Occurs needle (offset + i) ↔ l.Occurs needle offset := by
    have hstop : offset + i + needle.length ≤ (l.shifted i).stop ↔ offset + needle.length ≤ l.stop := by
      simp only [shifted, stop]
      omega
    rw [Occurs, Occurs, hstop]
    simp only [shifted, Nat.add_le_add_iff_right, Nat.add_sub_add_right]
  constructor
  · intro h
    have hstart : l.start + i ≤ offset' := h.1
    have hoffset : offset' = offset' - i + i := by omega
    exact ⟨offset' - i, hoffset, (hshifted _).mp (hoffset ▸ h)⟩
  · rintro ⟨offset, rfl, h⟩
    exact (hshifted offset).mpr h

end Line

namespace Document

def ShiftsTo (d d' : Document) : Prop :=
  ∀ i, d'.lines[i]? = d.lines[i]?.map (Line.shifted i)

theorem shiftsTo_ofTexts (texts : List String) :
    (ofTexts .lf texts).ShiftsTo (ofTexts .crlf texts) := by
  intro i
  rw [← Array.getElem?_toList, ← Array.getElem?_toList, toList_lines_ofTexts, toList_lines_ofTexts]
  have hlayout := Line.getElem?_layout_succ Terminator.lf.width 0 0 texts i
  rwa [Nat.zero_add i] at hlayout

/-- Of two characters the one that is shifted further lies behind the other anyway. -/
theorem Holds.add_le_add_iff {d : Document} {offset other i j : Nat} (hi : d.Holds offset (.text i))
    (hj : d.Holds other (.text j)) : offset + i ≤ other + j ↔ offset ≤ other := by
  obtain ⟨l, hl, hstart, hstop⟩ := hi
  obtain ⟨m, hm, hstart', hstop'⟩ := hj
  rcases Nat.lt_trichotomy i j with hlt | rfl | hlt
  · have hgap := stop_add_width_le_start hl hm hlt
    exact iff_of_true (by omega) (by omega)
  · exact Nat.add_le_add_iff_right
  · have hgap := stop_add_width_le_start hm hl hlt
    exact iff_of_false (by omega) (by omega)

/-- The offsets stand for the same character of the two documents. Where there are no lines, both are
zero. -/
def SameCharacter (d d' : Document) (offset offset' : Nat) : Prop :=
  (∃ i, d.lineAt? offset = some i ∧ d'.lineAt? offset' = some i ∧ offset' = offset + i) ∨
    d.lines.size = 0 ∧ offset = 0 ∧ offset' = 0

theorem SameCharacter.lt_add_iff {d d' : Document} {offset offset' : Nat}
    (hsame : SameCharacter d d' offset offset') {other j : Nat} (hother : d.Holds other (.text j)) :
    offset' < other + j ↔ offset < other := by
  obtain ⟨i, hi, _, rfl⟩ | ⟨hnone, _, _⟩ := hsame
  · have hplace := (lineAt?_eq_some_iff offset).mp hi
    rw [← Nat.not_le, ← Nat.not_le, hother.add_le_add_iff hplace]
  · obtain ⟨l, hl, _⟩ := hother
    have hlt := (Array.getElem?_eq_some_iff.mp hl).1
    omega

namespace ShiftsTo

variable {d d' : Document} (h : d.ShiftsTo d')
include h

theorem size_lines : d'.lines.size = d.lines.size := by
  refine Nat.le_antisymm (Array.getElem?_eq_none_iff.mp ?_) (Array.getElem?_eq_none_iff.mp ?_)
  · rw [h, Array.getElem?_eq_none (Nat.le_refl _), Option.map_none]
  · have hnone := h d'.lines.size
    rwa [Array.getElem?_eq_none (Nat.le_refl _), eq_comm, Option.map_eq_none_iff] at hnone

theorem lineStart?_eq_some_iff (i start : Nat) :
    d.lineStart? i = some start ↔ d'.lineStart? i = some (start + i) := by
  rw [lineStart?, lineStart?, h, Option.map_map]
  cases d.lines[i]? with
  | none => simp only [Option.map_none, reduceCtorEq]
  | some l => rw [Option.map_some, Option.map_some, Option.some_inj, Option.some_inj,
      Function.comp_apply, Line.shifted, Nat.add_right_cancel_iff]

theorem lineText?_eq (i : Nat) : d'.lineText? i = d.lineText? i := by
  rw [lineText?, lineText?, h, Option.map_map]
  rfl

theorem holds_add {offset i : Nat} (hplace : d.Holds offset (.text i)) :
    d'.Holds (offset + i) (.text i) := by
  obtain ⟨l, hl, hstart, hstop⟩ := hplace
  rw [Line.stop] at hstop
  refine ⟨l.shifted i, by rw [h, hl, Option.map_some], ?_, ?_⟩
  · exact Nat.add_le_add_right hstart i
  · simp only [Line.shifted, Line.stop]
    omega

theorem lineAt?_add {offset i : Nat} (hi : d.lineAt? offset = some i) :
    d'.lineAt? (offset + i) = some i :=
  (lineAt?_eq_some_iff _).mpr (h.holds_add ((lineAt?_eq_some_iff offset).mp hi))

theorem occursAt_iff (needle : String) (offset' i : Nat) : d'.OccursAt needle offset' i ↔
    ∃ offset, offset' = offset + i ∧ d.OccursAt needle offset i := by
  simp only [OccursAt, h i, Option.map_eq_some_iff]
  constructor
  · rintro ⟨_, ⟨l, hl, rfl⟩, hoccurs⟩
    obtain ⟨offset, hoffset, hoccurs⟩ := (l.occurs_shifted_iff _ i offset').mp hoccurs
    exact ⟨offset, hoffset, l, hl, hoccurs⟩
  · rintro ⟨offset, hoffset, l, hl, hoccurs⟩
    exact ⟨_, ⟨l, hl, rfl⟩, (l.occurs_shifted_iff _ i offset').mpr ⟨offset, hoffset, hoccurs⟩⟩

theorem find?_eq (needle : String) {origin origin' : Nat}
    (horigin : ∀ offset i, d.Holds offset (.text i) → (origin' ≤ offset + i ↔ origin ≤ offset)) :
    d'.find? needle origin' = (d.find? needle origin).map Hit.shifted := by
  by_cases hneedle : needle = ""
  · rw [find?_empty hneedle, find?_empty hneedle, Option.map_none]
  cases hfound : d.find? needle origin with
  | none =>
    have hnone := (find?_eq_none_iff hneedle).mp hfound
    refine (find?_eq_none_iff hneedle).mpr fun offset' i hle hoccurs' => ?_
    obtain ⟨offset, rfl, hoccurs⟩ := (h.occursAt_iff needle offset' i).mp hoccurs'
    exact hnone offset i ((horigin offset i (hoccurs.holds hneedle)).mp hle) hoccurs
  | some hit =>
    obtain ⟨hle, hoccurs, hleast⟩ := (find?_eq_some_iff hneedle).mp hfound
    have hplace := hoccurs.holds hneedle
    refine (find?_eq_some_iff hneedle).mpr ⟨(horigin _ _ hplace).mpr hle, ?_, fun other' i hle' hi => ?_⟩
    · exact (h.occursAt_iff needle _ _).mpr ⟨hit.offset, rfl, hoccurs⟩
    · obtain ⟨other, rfl, hother⟩ := (h.occursAt_iff needle other' i).mp hi
      have hplace' := hother.holds hneedle
      have hmin := hleast other i ((horigin other i hplace').mp hle') hother
      exact (hplace.add_le_add_iff hplace').mpr hmin

theorem find?_zero (needle : String) :
    d'.find? needle 0 = (d.find? needle 0).map Hit.shifted :=
  h.find?_eq needle fun _ _ _ => iff_of_true (Nat.zero_le _) (Nat.zero_le _)

theorem next?_eq (s : Session) {offset offset' : Nat} (hsame : SameCharacter d d' offset offset') :
    s.next? d' offset' = (s.next? d offset).map Hit.shifted := by
  have hbehind (query : String) :
      d'.find? query (offset' + 1) = (d.find? query (offset + 1)).map Hit.shifted :=
    h.find?_eq query fun _ _ hother => hsame.lt_add_iff hother
  cases hquery : s.query with
  | none => simp only [Session.next?, hquery, Option.bind_none, Option.map_none]
  | some query =>
    simp only [Session.next?, hquery, Option.bind_some, hbehind, h.find?_zero, Option.map_or]

theorem findAll_eq (needle : String) :
    d'.findAll needle = (d.findAll needle).map Hit.shifted := by
  have hlines : d'.lines.toList.zipIdx =
      d.lines.toList.zipIdx.map fun p => (p.1.shifted p.2, p.2) := by
    apply List.ext_getElem?
    intro i
    rw [List.getElem?_map, List.getElem?_zipIdx, List.getElem?_zipIdx, Array.getElem?_toList, h,
      Array.getElem?_toList, Option.map_map, Option.map_map, Nat.zero_add]
    rfl
  unfold findAll
  split
  · rfl
  · rw [hlines, List.flatMap_map, List.map_flatMap]
    refine congrArg (List.flatMap · _) (funext fun p => ?_)
    rw [List.map_map]
    refine congrArg (List.map · _) (funext fun place => ?_)
    exact congrArg (Hit.mk · p.2) (Nat.add_right_comm p.1.start p.2 place)

end ShiftsTo

end Document
end Lsif
