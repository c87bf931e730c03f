import Lsif.Document.Search
import Lsif.Proofs.Document.Lookup
import Lsif.Proofs.Text
import Mathlib.Data.List.Infix
import Mathlib.Data.List.Sort
import Mathlib.Order.Bounds.Defs

/-! Searching a document finds the least offset, at or behind the one it starts from, at which the text
occurs within a line. Searching on from each hit goes through all occurrences in turn, those that overlap
included, and then begins again. -/

namespace Lsif

namespace Line

def Occurs (l : Line) (needle : List Char) (offset : Nat) : Prop :=
  l.start ≤ offset ∧ offset + needle.length ≤ l.stop ∧
    needle <+: l.text.toList.drop (offset - l.start)

instance (l : Line) (needle : List Char) (offset : Nat) : Decidable (l.Occurs needle offset) := by
  unfold Occurs
  infer_instance

variable {l : Line} {needle : List Char}

theorem Occurs.lt_stop {offset : Nat} (h : l.Occurs needle offset) (hneedle : needle ≠ []) :
    offset < l.stop := by
  have hpos := List.length_pos_of_ne_nil hneedle
  have hfits := h.2.1
  omega

theorem occurs_from_iff (hlength : l.length = l.text.length) (hneedle : needle ≠ [])
    (origin offset : Nat) : origin ≤ offset ∧ l.Occurs needle offset ↔
      ∃ j, offset = l.start + (origin - l.start) + j ∧
        needle <+: (l.text.toList.drop (origin - l.start)).drop j := by
  simp only [List.drop_drop, Occurs, stop, hlength, ← String.length_toList]
  constructor
  · rintro ⟨horigin, hstart, _, hprefix⟩
    refine ⟨offset - l.start - (origin - l.start), by omega, ?_⟩
    rwa [Nat.add_sub_cancel' (by omega)]
  · rintro ⟨j, rfl, hprefix⟩
    have hpos := List.length_pos_of_ne_nil hneedle
    have hfits := hprefix.length_le
    rw [List.length_drop] at hfits
    refine ⟨by omega, by omega, by omega, ?_⟩
    rwa [Nat.add_assoc, Nat.add_sub_cancel_left]

theorem find?_eq_some_iff (hlength : l.length = l.text.length) (hneedle : needle ≠ [])
    {origin offset : Nat} : l.find? needle origin = some offset ↔
      (origin ≤ offset ∧ l.Occurs needle offset) ∧
        ∀ other, origin ≤ other ∧ l.Occurs needle other → offset ≤ other := by
  simp only [occurs_from_iff hlength hneedle, find?, Option.map_eq_some_iff,
    Text.firstOccurrence?_eq_some_iff]
  constructor
  · rintro ⟨k, ⟨hk, hleast⟩, rfl⟩
    refine ⟨⟨k, rfl, hk⟩, ?_⟩
    rintro _ ⟨j, rfl, hj⟩
    have hle : k ≤ j := Nat.not_lt.mp fun hlt => hleast j hlt hj
    omega
  · rintro ⟨⟨k, rfl, hk⟩, hleast⟩
    refine ⟨k, ⟨hk, fun j hlt hj => ?_⟩, rfl⟩
    have hle := hleast _ ⟨j, rfl, hj⟩
    omega

theorem find?_eq_none_iff (hlength : l.length = l.text.length) (hneedle : needle ≠ [])
    {origin : Nat} : l.find? needle origin = none ↔
      ∀ offset, ¬(origin ≤ offset ∧ l.Occurs needle offset) := by
  simp only [occurs_from_iff hlength hneedle, find?, Option.map_eq_none_iff,
    Text.firstOccurrence?_eq_none_iff]
  constructor
  · rintro h _ ⟨j, rfl, hj⟩
    exact h j hj
  · intro h j hj
    exact h _ ⟨j, rfl, hj⟩

end Line

namespace Document

def OccursAt (d : Document) (needle : String) (offset line : Nat) : Prop :=
  ∃ l, d.lines[line]? = some l ∧ l.Occurs needle.toList offset

variable {d : Document} {needle : String} {i : Nat} {l : Line}

theorem OccursAt.holds {offset : Nat} (h : d.OccursAt needle offset i) (hneedle : needle ≠ "") :
    d.Holds offset (.text i) := by
  obtain ⟨l, hl, hoccurs⟩ := h
  exact ⟨l, hl, hoccurs.1, hoccurs.lt_stop (mt String.toList_eq_nil_iff.mp hneedle)⟩

theorem exists_of_findSome?_range' {α : Type} {f : Nat → Option α} {first count : Nat} {a : α}
    (h : (List.range' first count).findSome? f = some a) :
    ∃ i, first ≤ i ∧ f i = some a ∧ ∀ j, first ≤ j → j < i → f j = none := by
  obtain ⟨before, i, behind, hsplit, ha, hnone⟩ := List.findSome?_eq_some_iff.mp h
  obtain ⟨k, hk, rfl, hrest⟩ := List.range'_eq_append_iff.mp hsplit
  obtain ⟨rfl, _, _⟩ := List.range'_eq_cons_iff.mp hrest.symm
  refine ⟨_, by omega, ha, fun j hfirst hj => hnone j ?_⟩
  exact List.mem_range'_1.mpr (by omega)

theorem lt_countFront_stop_iff (h : d.lines[i]? = some l) (offset : Nat) :
    i < d.countFront (fun l => decide (l.stop ≤ offset)) ↔ l.stop ≤ offset := by
  refine lt_countFront_iff (fun i j l m hi hj hij => ?_) h offset
  have hgap := stop_add_width_le_start hi hj hij
  have hbegun : m.start ≤ m.stop := Nat.le_add_right m.start m.length
  omega

def findInLine? (d : Document) (needle : String) (origin i : Nat) : Option Hit :=
  d.lines[i]?.bind fun l =>
    (l.find? needle.toList origin).map fun offset => { offset, line := i }

theorem find?_empty (hneedle : needle = "") (d : Document) (origin : Nat) :
    d.find? needle origin = none := if_pos (String.isEmpty_iff.mpr hneedle)

theorem find?_eq (hneedle : needle ≠ "") (d : Document) (origin : Nat) :
    d.find? needle origin =
      (List.range' (d.countFront fun l => decide (l.stop ≤ origin))
        (d.lines.size - d.countFront fun l => decide (l.stop ≤ origin))).findSome?
          (d.findInLine? needle origin) := by
  have hempty : ¬needle.isEmpty = true := mt String.isEmpty_iff.mp hneedle
  rw [find?, if_neg hempty]
  rfl

theorem findInLine?_eq_some_iff (hneedle : needle ≠ "") {origin : Nat} {hit : Hit} :
    d.findInLine? needle origin i = some hit ↔ hit.line = i ∧
      (origin ≤ hit.offset ∧ d.OccursAt needle hit.offset i) ∧
        ∀ other, origin ≤ other → d.OccursAt needle other i → hit.offset ≤ other := by
  have hchars : needle.toList ≠ [] := mt String.toList_eq_nil_iff.mp hneedle
  unfold findInLine? OccursAt
  cases hl : d.lines[i]? with
  | none => simp
  | some l =>
    simp only [Option.bind_some, Option.map_eq_some_iff, Line.find?_eq_some_iff (length_line hl) hchars,
      Option.some.injEq, exists_eq_left']
    constructor
    · rintro ⟨offset, ⟨hhere, hleast⟩, rfl⟩
      exact ⟨rfl, hhere, fun other horigin hother => hleast other ⟨horigin, hother⟩⟩
    · rintro ⟨rfl, hhere, hleast⟩
      exact ⟨hit.offset, ⟨hhere, fun other hother => hleast other hother.1 hother.2⟩, rfl⟩

theorem findInLine?_eq_none_iff (hneedle : needle ≠ "") {origin : Nat} :
    d.findInLine? needle origin i = none ↔
      ∀ offset, origin ≤ offset → ¬d.OccursAt needle offset i := by
  have hchars : needle.toList ≠ [] := mt String.toList_eq_nil_iff.mp hneedle
  unfold findInLine? OccursAt
  cases hl : d.lines[i]? with
  | none => simp
  | some l =>
    simp only [Option.bind_some, Option.map_eq_none_iff, Line.find?_eq_none_iff (length_line hl) hchars,
      Option.some.injEq, exists_eq_left', not_and]

theorem countFront_le_of_occursAt (hneedle : needle ≠ "") {origin offset : Nat}
    (horigin : origin ≤ offset) (h : d.OccursAt needle offset i) :
    (d.countFront fun l => decide (l.stop ≤ origin)) ≤ i := by
  obtain ⟨l, hl, _, hstop⟩ := h.holds hneedle
  have hfront := lt_countFront_stop_iff hl origin
  omega

theorem find?_eq_none_iff (hneedle : needle ≠ "") {origin : Nat} :
    d.find? needle origin = none ↔
      ∀ offset i, origin ≤ offset → ¬d.OccursAt needle offset i := by
  rw [find?_eq hneedle, List.findSome?_eq_none_iff]
  simp only [findInLine?_eq_none_iff hneedle]
  constructor
  · intro h offset i horigin hoccurs
    have hfront := countFront_le_of_occursAt hneedle horigin hoccurs
    obtain ⟨l, hl, _⟩ := hoccurs.holds hneedle
    have hlt := (Array.getElem?_eq_some_iff.mp hl).1
    exact h i (List.mem_range'_1.mpr (by omega)) offset horigin hoccurs
  · intro h i _ offset horigin
    exact h offset i horigin

theorem least_of_find? (hneedle : needle ≠ "") {origin : Nat} {hit : Hit}
    (h : d.find? needle origin = some hit) :
    origin ≤ hit.offset ∧ d.OccursAt needle hit.offset hit.line ∧
      ∀ other i, origin ≤ other → d.OccursAt needle other i → hit.offset ≤ other := by
  rw [find?_eq hneedle] at h
  obtain ⟨i, _, hhit, hnone⟩ := exists_of_findSome?_range' h
  obtain ⟨rfl, ⟨horigin, hoccurs⟩, hleast⟩ := (findInLine?_eq_some_iff hneedle).mp hhit
  refine ⟨horigin, hoccurs, fun other j hother hj => ?_⟩
  rcases Nat.lt_trichotomy j hit.line with hlt | heq | hlt
  · have hfront := countFront_le_of_occursAt hneedle hother hj
    exact ((findInLine?_eq_none_iff hneedle).mp (hnone j hfront hlt) other hother hj).elim
  · exact hleast other hother (heq ▸ hj)
  · -- what occurs in a later line occurs behind this one
    obtain ⟨l, hl, _, hstop⟩ := hoccurs.holds hneedle
    obtain ⟨m, hm, hstart, _⟩ := hj.holds hneedle
    have hgap := stop_add_width_le_start hl hm hlt
    omega

theorem find?_eq_some_iff (hneedle : needle ≠ "") {origin : Nat} {hit : Hit} :
    d.find? needle origin = some hit ↔
      origin ≤ hit.offset ∧ d.OccursAt needle hit.offset hit.line ∧
        ∀ other i, origin ≤ other → d.OccursAt needle other i → hit.offset ≤ other := by
  refine ⟨least_of_find? hneedle, ?_⟩
  rintro ⟨horigin, hoccurs, hleast⟩
  cases hfound : d.find? needle origin with
  | none => exact ((find?_eq_none_iff hneedle).mp hfound hit.offset hit.line horigin hoccurs).elim
  | some found =>
    obtain ⟨horigin', hoccurs', hleast'⟩ := least_of_find? hneedle hfound
    have hoffset : found.offset = hit.offset :=
      Nat.le_antisymm (hleast' _ _ horigin hoccurs) (hleast _ _ horigin' hoccurs')
    have hfoundHolds := hoccurs'.holds hneedle
    rw [hoffset] at hfoundHolds
    have hplace := hfoundHolds.unique (hoccurs.holds hneedle)
    rw [Place.text.injEq] at hplace
    rcases found with ⟨offset, line⟩
    rcases hit with ⟨offset', line'⟩
    obtain rfl : offset = offset' := hoffset
    obtain rfl : line = line' := hplace
    rfl

theorem lineAt?_of_find? {origin : Nat} {hit : Hit} (h : d.find? needle origin = some hit) :
    d.lineAt? hit.offset = some hit.line := by
  by_cases hneedle : needle = ""
  · rw [find?_empty hneedle] at h
    cases h
  · exact (lineAt?_eq_some_iff _).mpr ((least_of_find? hneedle h).2.1.holds hneedle)

theorem lineAt?_of_next? {s : Session} {offset : Nat} {hit : Hit} (h : s.next? d offset = some hit) :
    d.lineAt? hit.offset = some hit.line := by
  obtain ⟨query, _, hfound⟩ := Option.bind_eq_some_iff.mp h
  obtain hlater | ⟨_, hfirst⟩ := Option.or_eq_some_iff.mp hfound
  · exact lineAt?_of_find? hlater
  · exact lineAt?_of_find? hfirst

def offsetsOf (d : Document) (needle : String) : List Nat :=
  (List.range d.length).filter fun offset => d.lines.any fun l => l.Occurs needle.toList offset

theorem pairwise_offsetsOf (d : Document) (needle : String) :
    (d.offsetsOf needle).Pairwise (· < ·) := List.pairwise_lt_range.filter _

theorem mem_offsetsOf_iff (hneedle : needle ≠ "") {offset : Nat} :
    offset ∈ d.offsetsOf needle ↔ ∃ i, d.OccursAt needle offset i := by
  simp only [offsetsOf, List.mem_filter, List.mem_range, Array.any_eq_true', decide_eq_true_eq]
  constructor
  · rintro ⟨_, l, hl, hoccurs⟩
    obtain ⟨i, hi⟩ := Array.mem_iff_getElem?.mp hl
    exact ⟨i, l, hi, hoccurs⟩
  · rintro ⟨i, l, hl, hoccurs⟩
    have hchars : needle.toList ≠ [] := mt String.toList_eq_nil_iff.mp hneedle
    have hlt := hoccurs.lt_stop hchars
    have hle := stop_add_width_le_length hl
    exact ⟨by omega, l, Array.mem_of_getElem? hl, hoccurs⟩

theorem least_of_find?_le {os : List Nat} (h : os.Pairwise (· < ·)) {c o : Nat}
    (ho : os.find? (c ≤ ·) = some o) :
    (c ≤ o ∧ o ∈ os) ∧ ∀ other ∈ os, c ≤ other → o ≤ other := by
  obtain ⟨hc, before, behind, rfl, hbefore⟩ := List.find?_eq_some_iff_append.mp ho
  refine ⟨⟨of_decide_eq_true hc, List.mem_append_right _ List.mem_cons_self⟩, ?_⟩
  intro other hother hle
  obtain hother | hother := List.mem_append.mp hother
  · simpa [hle] using hbefore other hother
  · obtain rfl | hother := List.mem_cons.mp hother
    · exact Nat.le_refl _
    · have hlater := (List.pairwise_append.mp h).2.1
      exact Nat.le_of_lt ((List.pairwise_cons.mp hlater).1 other hother)

theorem find?_le_eq_some_iff {os : List Nat} (h : os.Pairwise (· < ·)) {c o : Nat} :
    os.find? (c ≤ ·) = some o ↔ (c ≤ o ∧ o ∈ os) ∧ ∀ other ∈ os, c ≤ other → o ≤ other := by
  refine ⟨least_of_find?_le h, ?_⟩
  rintro ⟨⟨hc, hmem⟩, hleast⟩
  cases hfound : os.find? (c ≤ ·) with
  | none => exact absurd (decide_eq_true hc) (List.find?_eq_none.mp hfound o hmem)
  | some found =>
    obtain ⟨⟨hc', hmem'⟩, hleast'⟩ := least_of_find?_le h hfound
    rw [Nat.le_antisymm (hleast' o hmem hc) (hleast found hmem' hc')]

theorem map_offset_find? (hneedle : needle ≠ "") (d : Document) (origin : Nat) :
    (d.find? needle origin).map Hit.offset = (d.offsetsOf needle).find? (origin ≤ ·) := by
  cases hfound : d.find? needle origin with
  | none =>
    have hnone := (find?_eq_none_iff hneedle).mp hfound
    rw [Option.map_none, eq_comm, List.find?_eq_none]
    intro offset hoffset horigin
    obtain ⟨i, hi⟩ := (mem_offsetsOf_iff hneedle).mp hoffset
    exact hnone offset i (of_decide_eq_true horigin) hi
  | some hit =>
    obtain ⟨horigin, hoccurs, hleast⟩ := (find?_eq_some_iff hneedle).mp hfound
    rw [Option.map_some, eq_comm, find?_le_eq_some_iff (pairwise_offsetsOf d needle)]
    refine ⟨⟨horigin, (mem_offsetsOf_iff hneedle).mpr ⟨_, hoccurs⟩⟩, fun other hother hle => ?_⟩
    obtain ⟨i, hi⟩ := (mem_offsetsOf_iff hneedle).mp hother
    exact hleast other i hle hi

def nextAfter? (os : List Nat) (c : Nat) : Option Nat :=
  (os.find? (c < ·)).or os.head?

theorem find?_zero_le (os : List Nat) : os.find? (0 ≤ ·) = os.head? := by
  cases os <;> simp

theorem map_offset_next? {s : Session} (hquery : s.query = some needle) (hneedle : needle ≠ "")
    (d : Document) (caret : Nat) :
    (s.next? d caret).map Hit.offset = nextAfter? (d.offsetsOf needle) caret := by
  have hlater : _ = (d.offsetsOf needle).find? (caret < ·) := map_offset_find? hneedle d (caret + 1)
  have hfirst := map_offset_find? hneedle d 0
  rw [find?_zero_le] at hfirst
  rw [nextAfter?, ← hlater, ← hfirst, Session.next?, hquery, Option.bind_some]
  cases d.find? needle (caret + 1) <;> rfl

theorem find?_lt_getElem {os : List Nat} (h : os.Pairwise (· < ·)) {j : Nat}
    (hj : j < os.length) : os.find? (os[j] < ·) = os[j + 1]? := by
  rcases Nat.lt_or_ge (j + 1) os.length with hlt | hge
  · rw [List.getElem?_eq_getElem hlt]
    have hstep : os[j] < os[j + 1] := h.sortedLT.getElem_lt_getElem_iff.mpr (Nat.lt_succ_self j)
    refine (find?_le_eq_some_iff h).mpr ⟨⟨hstep, List.getElem_mem hlt⟩, fun other hother hle => ?_⟩
    obtain ⟨k, hk, rfl⟩ := List.getElem_of_mem hother
    have hjk : j < k := h.sortedLT.getElem_lt_getElem_iff.mp hle
    exact h.sortedLT.getElem_le_getElem_iff.mpr hjk
  · rw [List.getElem?_eq_none hge, List.find?_eq_none]
    intro other hother hlt
    obtain ⟨k, hk, rfl⟩ := List.getElem_of_mem hother
    have hjk : j < k := h.sortedLT.getElem_lt_getElem_iff.mp (of_decide_eq_true hlt)
    omega

theorem nextAfter?_getElem {os : List Nat} (h : os.Pairwise (· < ·)) {j : Nat}
    (hj : j < os.length) : nextAfter? os os[j] = os[(j + 1) % os.length]? := by
  rw [nextAfter?, find?_lt_getElem h hj]
  rcases Nat.lt_or_eq_of_le (Nat.succ_le_of_lt hj) with hlt | heq
  · rw [Nat.mod_eq_of_lt hlt, List.getElem?_eq_getElem hlt, Option.some_or]
  · have hwrap : (j + 1) % os.length = 0 := by rw [← heq, Nat.mod_self]
    rw [List.getElem?_eq_none (Nat.le_of_eq heq.symm), Option.none_or, hwrap, List.head?_eq_getElem?]

/-! What a search returns, said by the document alone. -/

def placesFrom (d : Document) (needle : String) (origin : Nat) : Set Nat :=
  {offset | origin ≤ offset ∧ ∃ i, d.OccursAt needle offset i}

theorem exists_drop_render {offset : Nat} (h : d.lines[i]? = some l) (hstart : l.start ≤ offset)
    (hstop : offset ≤ l.stop) : ∃ rest : List Char,
      d.render.toList.drop offset = l.text.toList.drop (offset - l.start) ++ rest := by
  obtain ⟨before, behind, hrender, hspan⟩ := exists_render_eq h
  have hplace : l.start = before.length ∧ l.stop = before.length + l.text.length := by
    simpa [lineSpan?, h] using hspan
  have hbefore : before.toList.length ≤ offset := by
    rw [String.length_toList]
    omega
  have hline : offset - before.toList.length ≤ l.text.toList.length := by
    rw [String.length_toList, String.length_toList]
    omega
  refine ⟨d.terminator.text.toList ++ behind.toList, ?_⟩
  rw [hrender, String.toList_append, String.toList_append, String.toList_append, List.append_assoc,
    List.append_assoc, List.drop_append, List.drop_eq_nil_of_le hbefore, List.nil_append,
    List.drop_append_of_le_length hline, hplace.1, String.length_toList]

theorem occursAt_iff_render (d : Document) (needle : String) (offset i : Nat) :
    d.OccursAt needle offset i ↔ ∃ start stop, d.lineSpan? i = some (start, stop) ∧
      start ≤ offset ∧ offset + needle.length ≤ stop ∧
        needle.toList <+: d.render.toList.drop offset := by
  have hline {l : Line} (hl : d.lines[i]? = some l) : l.Occurs needle.toList offset ↔
      l.start ≤ offset ∧ offset + needle.length ≤ l.stop ∧
        needle.toList <+: d.render.toList.drop offset := by
    rw [Line.Occurs, String.length_toList]
    refine and_congr_right fun hstart => and_congr_right fun hstop => ?_
    obtain ⟨rest, hrest⟩ := exists_drop_render hl hstart (by omega)
    have hfits : needle.toList.length ≤ (l.text.toList.drop (offset - l.start)).length := by
      have hlength := length_line hl
      rw [Line.stop] at hstop
      rw [List.length_drop, String.length_toList, String.length_toList]
      omega
    rw [hrest, List.isPrefix_append_of_length hfits]
  simp only [lineSpan?_eq_some_iff, OccursAt]
  constructor
  · rintro ⟨l, hl, hoccurs⟩
    exact ⟨l.start, l.stop, ⟨l, hl, rfl, rfl⟩, (hline hl).mp hoccurs⟩
  · rintro ⟨_, _, ⟨l, hl, rfl, rfl⟩, hplace⟩
    exact ⟨l, hl, (hline hl).mpr hplace⟩

theorem find?_eq_none_iff_placesFrom (hneedle : needle ≠ "") {origin : Nat} :
    d.find? needle origin = none ↔ d.placesFrom needle origin = ∅ := by
  rw [find?_eq_none_iff hneedle, Set.eq_empty_iff_forall_notMem]
  refine forall_congr' fun offset => ?_
  simp only [placesFrom, Set.mem_ofPred_eq, not_and, not_exists]
  exact forall_comm

theorem find?_eq_some_iff_isLeast (hneedle : needle ≠ "") {origin : Nat} {hit : Hit} :
    d.find? needle origin = some hit ↔
      IsLeast (d.placesFrom needle origin) hit.offset ∧ d.OccursAt needle hit.offset hit.line := by
  rw [find?_eq_some_iff hneedle]
  constructor
  · rintro ⟨horigin, hoccurs, hleast⟩
    refine ⟨⟨⟨horigin, _, hoccurs⟩, ?_⟩, hoccurs⟩
    rintro other ⟨hother, i, hi⟩
    exact hleast other i hother hi
  · rintro ⟨⟨⟨horigin, _⟩, hleast⟩, hoccurs⟩
    exact ⟨horigin, hoccurs, fun other i hother hi => hleast ⟨hother, i, hi⟩⟩

structure FindsLeast (d : Document) (needle : String) (origin : Nat) : Prop where
  empty (h : needle = "") : d.find? needle origin = none
  some_iff (h : needle ≠ "") (offset line : Nat) : d.find? needle origin = some ⟨offset, line⟩ ↔
    IsLeast (d.placesFrom needle origin) offset ∧ d.OccursAt needle offset line
  lineAt (h : needle ≠ "") (offset line : Nat) (hoccurs : d.OccursAt needle offset line) :
    d.lineAt? offset = some line
  none_iff (h : needle ≠ "") : d.find? needle origin = none ↔ d.placesFrom needle origin = ∅
  occursAt_iff (offset line : Nat) : d.OccursAt needle offset line ↔
    ∃ start stop, d.lineSpan? line = some (start, stop) ∧ start ≤ offset ∧
      offset + needle.length ≤ stop ∧ needle.toList <+: d.render.toList.drop offset

theorem findsLeast (d : Document) (needle : String) (origin : Nat) :
    d.FindsLeast needle origin where
  empty h := find?_empty h d origin
  some_iff h _ _ := find?_eq_some_iff_isLeast h
  lineAt h offset _ hoccurs := (lineAt?_eq_some_iff offset).mpr (hoccurs.holds h)
  none_iff h := find?_eq_none_iff_placesFrom h
  occursAt_iff := occursAt_iff_render d needle

example : (ofTexts .crlf ["aé", "", "éaé"]).find? "aé" 1 = some ⟨7, 2⟩ := by decide +kernel

end Document
end Lsif
