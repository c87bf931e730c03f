import Lsif.Proofs.Document.Search

/-! All occurrences from the start of a document, none overlapping the one before it. A search that goes on
behind each hit picks them, and so does a look at one line after the other: either way the next one is the
least that is far enough from the last. -/

namespace Lsif

/-- Places picked from a set, at least `width` apart, so that no place of the set lies beyond the width of
all picked ones. -/
structure Picked (places : Set Nat) (width : Nat) (picked : List Nat) : Prop where
  mem (p : Nat) (h : p ∈ picked) : p ∈ places
  apart : picked.Pairwise fun p q => p + width ≤ q
  covers (place : Nat) (h : place ∈ places) : ∃ p ∈ picked, p ≤ place ∧ place < p + width

section Picked

variable {places others : Set Nat} {width : Nat} {picked more : List Nat}

theorem picked_nil_iff : Picked places width [] ↔ places = ∅ := by
  rw [Set.eq_empty_iff_forall_notMem]
  constructor
  · intro h place hplace
    obtain ⟨p, hp, _⟩ := h.covers place hplace
    exact List.not_mem_nil hp
  · exact fun h => ⟨fun p hp => absurd hp List.not_mem_nil, .nil, fun place hplace => (h place hplace).elim⟩

theorem picked_cons_iff {p : Nat} : Picked places width (p :: picked) ↔
    IsLeast places p ∧ Picked {q | q ∈ places ∧ p + width ≤ q} width picked := by
  constructor
  · intro h
    have hapart := List.pairwise_cons.mp h.apart
    have hcovers (place : Nat) (hplace : place ∈ places) :
        (p ≤ place ∧ place < p + width) ∨ ∃ q ∈ picked, q ≤ place ∧ place < q + width := by
      simpa only [List.exists_mem_cons_iff] using h.covers place hplace
    refine ⟨⟨h.mem p List.mem_cons_self, fun place hplace => ?_⟩, ?_, hapart.2, ?_⟩
    · obtain hfirst | ⟨q, hq, hle, _⟩ := hcovers place hplace
      · exact hfirst.1
      · have hbehind := hapart.1 q hq
        omega
    · exact fun q hq => ⟨h.mem q (List.mem_cons_of_mem p hq), hapart.1 q hq⟩
    · rintro place ⟨hplace, hbehind⟩
      obtain ⟨_, hlt⟩ | hlater := hcovers place hplace
      · exact absurd hbehind (Nat.not_le.mpr hlt)
      · exact hlater
  · rintro ⟨⟨hp, hleast⟩, h⟩
    refine ⟨List.forall_mem_cons.mpr ⟨hp, fun q hq => (h.mem q hq).1⟩,
      List.pairwise_cons.mpr ⟨fun q hq => (h.mem q hq).2, h.apart⟩, fun place hplace => ?_⟩
    rcases Nat.lt_or_ge place (p + width) with hlt | hge
    · exact ⟨p, List.mem_cons_self, hleast hplace, hlt⟩
    · obtain ⟨q, hq, hcovers⟩ := h.covers place ⟨hplace, hge⟩
      exact ⟨q, List.mem_cons_of_mem p hq, hcovers⟩

theorem Picked.add (h : Picked places width picked) (start : Nat) :
    Picked {q | ∃ p ∈ places, q = start + p} width (picked.map (start + ·)) where
  mem q hq := by
    obtain ⟨p, hp, rfl⟩ := List.mem_map.mp hq
    exact ⟨p, h.mem p hp, rfl⟩
  apart := by
    refine List.pairwise_map.mpr (h.apart.imp fun {p q} hpq => ?_)
    omega
  covers := by
    rintro _ ⟨place, hplace, rfl⟩
    obtain ⟨p, hp, hle, hlt⟩ := h.covers place hplace
    exact ⟨start + p, List.mem_map_of_mem hp, by omega, by omega⟩

theorem Picked.append (h : Picked places width picked) (h' : Picked others width more)
    (hbehind : ∀ p ∈ places, ∀ q ∈ others, p + width ≤ q) :
    Picked (places ∪ others) width (picked ++ more) where
  mem p hp := (List.mem_append.mp hp).imp (h.mem p) (h'.mem p)
  apart := List.pairwise_append.mpr
    ⟨h.apart, h'.apart, fun p hp q hq => hbehind p (h.mem p hp) q (h'.mem q hq)⟩
  covers place hplace := by
    obtain hplace | hplace := hplace
    · obtain ⟨p, hp, hcovers⟩ := h.covers place hplace
      exact ⟨p, List.mem_append_left more hp, hcovers⟩
    · obtain ⟨p, hp, hcovers⟩ := h'.covers place hplace
      exact ⟨p, List.mem_append_right picked hp, hcovers⟩

end Picked

namespace Text

def placesFrom (needle : List Char) (skip place : Nat) (cs : List Char) : Set Nat :=
  {q | ∃ j, skip ≤ j ∧ q = place + j ∧ needle <+: cs.drop j}

variable {needle : List Char}

theorem placesFrom_nil (hneedle : needle ≠ []) (skip place : Nat) :
    placesFrom needle skip place [] = ∅ := by
  rw [Set.eq_empty_iff_forall_notMem]
  rintro _ ⟨j, _, _, hprefix⟩
  rw [List.drop_nil, List.prefix_nil] at hprefix
  exact hneedle hprefix

theorem placesFrom_succ (needle : List Char) (skip place : Nat) (c : Char) (rest : List Char) :
    placesFrom needle (skip + 1) place (c :: rest) = placesFrom needle skip (place + 1) rest := by
  ext q
  constructor
  · rintro ⟨j, hj, rfl, hprefix⟩
    obtain ⟨k, rfl⟩ : ∃ k, j = k + 1 := ⟨j - 1, by omega⟩
    exact ⟨k, Nat.le_of_succ_le_succ hj, by omega, hprefix⟩
  · rintro ⟨j, hj, rfl, hprefix⟩
    exact ⟨j + 1, Nat.succ_le_succ hj, by omega, hprefix⟩

theorem placesFrom_zero_of_not_prefix {cs : List Char} (h : ¬needle <+: cs) (place : Nat) :
    placesFrom needle 0 place cs = placesFrom needle 1 place cs := by
  ext q
  constructor
  · rintro ⟨j, _, rfl, hprefix⟩
    have hj : j ≠ 0 := by
      rintro rfl
      exact h hprefix
    exact ⟨j, Nat.one_le_iff_ne_zero.mpr hj, rfl, hprefix⟩
  · rintro ⟨j, _, rfl, hprefix⟩
    exact ⟨j, Nat.zero_le j, rfl, hprefix⟩

theorem placesFrom_behind (needle : List Char) (width place : Nat) (cs : List Char) :
    {q | q ∈ placesFrom needle 0 place cs ∧ place + width ≤ q} = placesFrom needle width place cs := by
  ext q
  constructor
  · rintro ⟨⟨j, _, rfl, hprefix⟩, hbehind⟩
    exact ⟨j, by omega, rfl, hprefix⟩
  · rintro ⟨j, hj, rfl, hprefix⟩
    exact ⟨⟨j, Nat.zero_le j, rfl, hprefix⟩, by omega⟩

theorem isLeast_placesFrom {cs : List Char} (h : needle <+: cs) (place : Nat) :
    IsLeast (placesFrom needle 0 place cs) place := by
  refine ⟨⟨0, Nat.le_refl 0, rfl, h⟩, ?_⟩
  rintro _ ⟨j, _, rfl, _⟩
  exact Nat.le_add_right place j

theorem picked_occurrencesFrom (hneedle : needle ≠ []) (skip place : Nat) (cs : List Char) :
    Picked (placesFrom needle skip place cs) needle.length (occurrencesFrom needle skip place cs) := by
  induction cs generalizing skip place with
  | nil => exact picked_nil_iff.mpr (placesFrom_nil hneedle skip place)
  | cons c rest ih =>
    cases skip with
    | succ skip =>
      rw [placesFrom_succ]
      exact ih skip (place + 1)
    | zero =>
      rw [occurrencesFrom]
      by_cases hprefix : needle <+: c :: rest
      · -- what the width of this occurrence leaves are the places of the rest
        have hwidth : needle.length = needle.length - 1 + 1 := by
          have hpos := List.length_pos_of_ne_nil hneedle
          omega
        rw [if_pos (List.isPrefixOf_iff_prefix.mpr hprefix), picked_cons_iff, placesFrom_behind]
        refine ⟨isLeast_placesFrom hprefix place, ?_⟩
        rw [hwidth, placesFrom_succ, ← hwidth]
        exact ih (needle.length - 1) (place + 1)
      · rw [if_neg (mt List.isPrefixOf_iff_prefix.mp hprefix), placesFrom_zero_of_not_prefix hprefix,
          placesFrom_succ]
        exact ih 0 (place + 1)

end Text

namespace Line

def offsets (l : Line) (needle : List Char) : List Nat :=
  (Text.occurrences needle l.text.toList).map (l.start + ·)

variable {needle : List Char}

theorem picked_offsets {l : Line} (hlength : l.length = l.text.length) (hneedle : needle ≠ []) :
    Picked {offset | l.Occurs needle offset} needle.length (l.offsets needle) := by
  have hplaces : {q | ∃ p ∈ Text.placesFrom needle 0 0 l.text.toList, q = l.start + p} =
      {offset | l.Occurs needle offset} := by
    ext offset
    have hoccurs := occurs_from_iff hlength hneedle 0 offset
    simp only [Nat.zero_le, true_and, Nat.zero_sub, Nat.add_zero, List.drop_zero] at hoccurs
    simp only [Text.placesFrom, Set.mem_ofPred_eq, hoccurs, Nat.zero_le, Nat.zero_add, true_and]
    constructor
    · rintro ⟨p, ⟨_, rfl, hprefix⟩, rfl⟩
      exact ⟨p, rfl, hprefix⟩
    · rintro ⟨p, rfl, hprefix⟩
      exact ⟨p, ⟨p, rfl, hprefix⟩, rfl⟩
  rw [← hplaces]
  exact (Text.picked_occurrencesFrom hneedle 0 0 l.text.toList).add l.start

theorem picked_flatMap_offsets {lines : List Line} (hneedle : needle ≠ [])
    (hlength : ∀ l ∈ lines, l.length = l.text.length)
    (hsorted : lines.Pairwise fun l m => l.stop ≤ m.start) :
    Picked {offset | ∃ l ∈ lines, l.Occurs needle offset} needle.length
      (lines.flatMap fun l => l.offsets needle) := by
  induction lines with
  | nil => exact picked_nil_iff.mpr (Set.eq_empty_iff_forall_notMem.mpr (by simp))
  | cons l rest ih =>
    obtain ⟨hl, hrest⟩ := List.forall_mem_cons.mp hlength
    obtain ⟨hstop, hsorted⟩ := List.pairwise_cons.mp hsorted
    have hsplit : {offset | ∃ m ∈ l :: rest, m.Occurs needle offset} =
        {offset | l.Occurs needle offset} ∪ {offset | ∃ m ∈ rest, m.Occurs needle offset} := by
      ext offset
      exact List.exists_mem_cons_iff _ l rest
    rw [hsplit, List.flatMap_cons]
    refine (picked_offsets hl hneedle).append (ih hrest hsorted) ?_
    rintro p ⟨_, hfits, _⟩ q ⟨m, hm, hstart, _⟩
    exact hfits.trans ((hstop m hm).trans hstart)

end Line

namespace Document

variable {d : Document} {needle : String}

theorem findAll_empty (hneedle : needle = "") (d : Document) : d.findAll needle = [] :=
  if_pos (String.isEmpty_iff.mpr hneedle)

theorem findAll_eq (hneedle : needle ≠ "") (d : Document) : d.findAll needle =
    d.lines.toList.zipIdx.flatMap fun p =>
      (p.1.offsets needle.toList).map fun offset => { offset, line := p.2 } := by
  have hempty : ¬needle.isEmpty = true := mt String.isEmpty_iff.mp hneedle
  simp only [findAll, if_neg hempty, Line.offsets, List.map_map, Function.comp_def]

theorem map_offset_findAll (hneedle : needle ≠ "") (d : Document) :
    (d.findAll needle).map Hit.offset = d.lines.toList.flatMap fun l => l.offsets needle.toList := by
  rw [findAll_eq hneedle, List.map_flatMap]
  simp only [List.map_map, Function.comp_def, List.map_id']
  rw [← List.flatMap_map Prod.fst fun l : Line => l.offsets needle.toList, List.zipIdx_map_fst]

theorem occursAt_of_mem_findAll {hit : Hit} (h : hit ∈ d.findAll needle) :
    d.OccursAt needle hit.offset hit.line := by
  by_cases hneedle : needle = ""
  · rw [findAll_empty hneedle] at h
    exact absurd h List.not_mem_nil
  · rw [findAll_eq hneedle] at h
    obtain ⟨⟨l, i⟩, hl, hhit⟩ := List.mem_flatMap.mp h
    obtain ⟨offset, hoffset, rfl⟩ := List.mem_map.mp hhit
    have hline : d.lines[i]? = some l := by
      rw [← Array.getElem?_toList]
      exact List.mem_zipIdx_iff_getElem?.mp hl
    have hchars : needle.toList ≠ [] := mt String.toList_eq_nil_iff.mp hneedle
    exact ⟨l, hline, (Line.picked_offsets (length_line hline) hchars).mem offset hoffset⟩

theorem picked_findAll (hneedle : needle ≠ "") (d : Document) :
    Picked (d.placesFrom needle 0) needle.length ((d.findAll needle).map Hit.offset) := by
  have hchars : needle.toList ≠ [] := mt String.toList_eq_nil_iff.mp hneedle
  have hlength : ∀ l ∈ d.lines.toList, l.length = l.text.length := by
    intro l hl
    obtain ⟨i, hi⟩ := Array.mem_iff_getElem?.mp (Array.mem_toList_iff.mp hl)
    exact length_line hi
  have hsorted : d.lines.toList.Pairwise fun l m => l.stop ≤ m.start := by
    rw [d.lines_eq]
    exact (Line.pairwise_layout _ _ _).imp fun hgap => Nat.le_of_add_right_le hgap
  have hplaces : {offset | ∃ l ∈ d.lines.toList, l.Occurs needle.toList offset} =
      d.placesFrom needle 0 := by
    ext offset
    simp only [placesFrom, OccursAt, Set.mem_ofPred_eq, Nat.zero_le, true_and, Array.mem_toList_iff,
      Array.mem_iff_getElem?]
    constructor
    · rintro ⟨l, ⟨i, hi⟩, hoccurs⟩
      exact ⟨i, l, hi, hoccurs⟩
    · rintro ⟨i, l, hi, hoccurs⟩
      exact ⟨l, ⟨i, hi⟩, hoccurs⟩
  rw [map_offset_findAll hneedle, ← hplaces, ← String.length_toList]
  exact Line.picked_flatMap_offsets hchars hlength hsorted

/-- The hits of a search from the offset `origin` that goes on behind each of them until there is none. -/
inductive SearchedOn (d : Document) (needle : String) : Nat → List Hit → Prop
  | done {origin : Nat} (h : d.find? needle origin = none) : SearchedOn d needle origin []
  | found {origin : Nat} {hit : Hit} {hits : List Hit} (h : d.find? needle origin = some hit)
      (rest : SearchedOn d needle (hit.offset + max 1 needle.length) hits) :
      SearchedOn d needle origin (hit :: hits)

theorem searchedOn_nil_iff {origin : Nat} :
    d.SearchedOn needle origin [] ↔ d.find? needle origin = none := by
  constructor
  · rintro ⟨h⟩
    exact h
  · exact .done

theorem searchedOn_cons_iff {origin : Nat} {hit : Hit} {hits : List Hit} :
    d.SearchedOn needle origin (hit :: hits) ↔ d.find? needle origin = some hit ∧
      d.SearchedOn needle (hit.offset + max 1 needle.length) hits := by
  constructor
  · intro h
    cases h with
    | found hhit rest => exact ⟨hhit, rest⟩
  · exact fun h => .found h.1 h.2

theorem SearchedOn.unique {origin : Nat} {hits others : List Hit}
    (h : d.SearchedOn needle origin hits) (h' : d.SearchedOn needle origin others) :
    hits = others := by
  induction h generalizing others with
  | done hnone =>
    cases h' with
    | done _ => rfl
    | found hhit _ => cases hnone.symm.trans hhit
  | found hhit _ ih =>
    cases h' with
    | done hnone => cases hnone.symm.trans hhit
    | found hother rest =>
      obtain rfl := Option.some.inj (hhit.symm.trans hother)
      rw [ih rest]

/-- The searches in turn return occurrences picked from left to right, and every list of such is what they
return. So they come to an end wherever there is one. -/
theorem searchedOn_iff_picked (hneedle : needle ≠ "") {origin : Nat} {hits : List Hit} :
    d.SearchedOn needle origin hits ↔
      (∀ hit ∈ hits, d.OccursAt needle hit.offset hit.line) ∧
        Picked (d.placesFrom needle origin) needle.length (hits.map Hit.offset) := by
  induction hits generalizing origin with
  | nil =>
    rw [searchedOn_nil_iff, find?_eq_none_iff_placesFrom hneedle, List.map_nil, picked_nil_iff]
    exact (and_iff_right (List.forall_mem_nil _)).symm
  | cons hit hits ih =>
    have hwidth : max 1 needle.length = needle.length := by
      rw [← String.length_toList]
      exact Nat.max_eq_right (List.length_pos_of_ne_nil (mt String.toList_eq_nil_iff.mp hneedle))
    have hbehind (horigin : origin ≤ hit.offset) :
        {q | q ∈ d.placesFrom needle origin ∧ hit.offset + needle.length ≤ q} =
          d.placesFrom needle (hit.offset + needle.length) := by
      ext q
      constructor
      · rintro ⟨⟨_, hq⟩, hle⟩
        exact ⟨hle, hq⟩
      · rintro ⟨hle, hq⟩
        exact ⟨⟨by omega, hq⟩, hle⟩
    rw [searchedOn_cons_iff, find?_eq_some_iff_isLeast hneedle, hwidth, ih, List.map_cons,
      picked_cons_iff, List.forall_mem_cons]
    constructor
    · rintro ⟨⟨hleast, hoccurs⟩, hrest, hpicked⟩
      exact ⟨⟨hoccurs, hrest⟩, hleast, (hbehind hleast.1.1).symm ▸ hpicked⟩
    · rintro ⟨⟨hoccurs, hrest⟩, hleast, hpicked⟩
      exact ⟨⟨hleast, hoccurs⟩, hrest, hbehind hleast.1.1 ▸ hpicked⟩

theorem searchedOn_findAll (d : Document) (needle : String) :
    d.SearchedOn needle 0 (d.findAll needle) := by
  by_cases hneedle : needle = ""
  · rw [findAll_empty hneedle, searchedOn_nil_iff]
    exact find?_empty hneedle d 0
  · exact (searchedOn_iff_picked hneedle).mpr
      ⟨fun _ => occursAt_of_mem_findAll, picked_findAll hneedle d⟩

structure FindsAll (d : Document) (needle : String) : Prop where
  searched (hits : List Hit) : d.SearchedOn needle 0 hits ↔ hits = d.findAll needle
  empty (h : needle = "") : d.findAll needle = []
  occursAt (hit : Hit) (h : hit ∈ d.findAll needle) : d.OccursAt needle hit.offset hit.line
  apart : (d.findAll needle).Pairwise fun hit later =>
    hit.offset < later.offset ∧ hit.offset + needle.length ≤ later.offset
  covers (h : needle ≠ "") (offset line : Nat) (hoccurs : d.OccursAt needle offset line) :
    ∃ hit ∈ d.findAll needle, hit.offset ≤ offset ∧ offset < hit.offset + needle.length
  head : (d.findAll needle).head? = d.find? needle 0

theorem findsAll (d : Document) (needle : String) : d.FindsAll needle where
  searched hits := by
    constructor
    · exact fun h => h.unique (searchedOn_findAll d needle)
    · rintro rfl
      exact searchedOn_findAll d needle
  empty h := findAll_empty h d
  occursAt _ := occursAt_of_mem_findAll
  apart := by
    by_cases hneedle : needle = ""
    · rw [findAll_empty hneedle]
      exact .nil
    · have hpos : 0 < needle.length := by
        rw [← String.length_toList]
        exact List.length_pos_of_ne_nil (mt String.toList_eq_nil_iff.mp hneedle)
      refine (List.pairwise_map.mp (picked_findAll hneedle d).apart).imp fun hgap => ⟨?_, hgap⟩
      omega
  covers hneedle offset line hoccurs := by
    obtain ⟨_, hp, hcovers⟩ :=
      (picked_findAll hneedle d).covers offset ⟨Nat.zero_le offset, line, hoccurs⟩
    obtain ⟨hit, hhit, rfl⟩ := List.mem_map.mp hp
    exact ⟨hit, hhit, hcovers⟩
  head := by
    have hsearched := searchedOn_findAll d needle
    cases hall : d.findAll needle with
    | nil =>
      rw [hall, searchedOn_nil_iff] at hsearched
      exact hsearched.symm
    | cons hit hits =>
      rw [hall, searchedOn_cons_iff] at hsearched
      exact hsearched.1.symm

example : (ofTexts .lf ["ééééé", "", "éé"]).findAll "éé" = [⟨0, 0⟩, ⟨2, 0⟩, ⟨7, 2⟩] := by
  decide +kernel

end Document
end Lsif
