import Lsif.Document.Lookup
import Lsif.Proofs.Document
import Mathlib.Logic.ExistsUnique

/-! Where the lines of a document lie. Line after line is laid out in the rendered text, each behind the
terminator of the one before it, so the line that holds an offset can be found by halving. -/

namespace Lsif

theorem bisect_mem_Icc (p : Nat → Bool) {lo hi : Nat} (h : lo ≤ hi) :
    lo ≤ bisect p lo hi ∧ bisect p lo hi ≤ hi := by
  fun_induction bisect p lo hi with
  | case1 lo hi hlt middle hmiddle ih =>
    obtain ⟨hlo, hhi⟩ := ih (by omega)
    omega
  | case2 lo hi hlt middle hmiddle ih =>
    obtain ⟨hlo, hhi⟩ := ih (by omega)
    omega
  | case3 lo hi hge => omega

/-- Where `p` turns from true to false only once, the search finds the place. -/
theorem lt_bisect_iff {p : Nat → Bool} {lo hi : Nat}
    (hp : ∀ i j, i ≤ j → j < hi → p j = true → p i = true) {i : Nat} (hlo : lo ≤ i) (hhi : i < hi) :
    i < bisect p lo hi ↔ p i = true := by
  fun_induction bisect p lo hi with
  | case1 lo hi hlt middle hmiddle ih =>
    rcases Nat.lt_or_ge middle i with hi' | hi'
    · exact ih hp hi' hhi
    · have hfound := (bisect_mem_Icc p (by omega : middle + 1 ≤ hi)).1
      exact iff_of_true (by omega) (hp i middle hi' (by omega) hmiddle)
  | case2 lo hi hlt middle hmiddle ih =>
    rcases Nat.lt_or_ge i middle with hi' | hi'
    · exact ih (fun i j hij hj => hp i j hij (by omega)) hlo hi'
    · have hfound := (bisect_mem_Icc p (by omega : lo ≤ middle)).2
      exact iff_of_false (by omega) fun hpi => hmiddle (hp middle i hi' hhi hpi)
  | case3 lo hi hge => omega

namespace Line

theorem start_le_of_mem_layout {width start : Nat} {texts : List String} {l : Line}
    (h : l ∈ layout width start texts) : start ≤ l.start := by
  induction texts generalizing start with
  | nil => cases h
  | cons text rest ih =>
    obtain rfl | hrest := List.mem_cons.mp h
    · exact Nat.le_refl start
    · have hle := ih hrest
      omega

theorem pairwise_layout (width start : Nat) (texts : List String) :
    (layout width start texts).Pairwise fun l m => l.stop + width ≤ m.start := by
  induction texts generalizing start with
  | nil => exact List.Pairwise.nil
  | cons text rest ih =>
    exact List.pairwise_cons.mpr ⟨fun m hm => start_le_of_mem_layout hm, ih _⟩

theorem layout_eq_append {width start : Nat} {texts : List String} {i : Nat} {l : Line}
    (h : (layout width start texts)[i]? = some l) :
    ∃ before behind, texts = before ++ l.text :: behind ∧ before.length = i ∧
      l.start = start + extent width before ∧ l.length = l.text.length := by
  induction texts generalizing start i with
  | nil => simp [layout] at h
  | cons text rest ih =>
    cases i with
    | zero =>
      obtain rfl : { text, start, length := text.length } = l := by simpa [layout] using h
      exact ⟨[], rest, rfl, rfl, rfl, rfl⟩
    | succ i =>
      have hrest : (layout width (start + text.length + width) rest)[i]? = some l := by
        simpa [layout] using h
      obtain ⟨before, behind, htexts, hlength, hstart, hsize⟩ := ih hrest
      refine ⟨text :: before, behind, by rw [htexts, List.cons_append], by simp [hlength], ?_, hsize⟩
      rw [hstart, extent]
      omega

end Line

namespace Document

variable {d : Document} {i j : Nat} {l m : Line}

theorem getElem?_layout (h : d.lines[i]? = some l) :
    (Line.layout d.terminator.width 0 (d.lines.toList.map Line.text))[i]? = some l := by
  rw [← d.lines_eq, Array.getElem?_toList, h]

theorem start_eq_zero (h : d.lines[0]? = some l) : l.start = 0 := by
  obtain ⟨before, _, _, hbefore, hstart, _⟩ := Line.layout_eq_append (getElem?_layout h)
  rw [hstart, List.eq_nil_of_length_eq_zero hbefore]
  rfl

theorem length_line (h : d.lines[i]? = some l) : l.length = l.text.length := by
  obtain ⟨_, _, _, _, _, hlength⟩ := Line.layout_eq_append (getElem?_layout h)
  exact hlength

theorem stop_add_width_le_start (hi : d.lines[i]? = some l) (hj : d.lines[j]? = some m)
    (hij : i < j) : l.stop + d.terminator.width ≤ m.start := by
  have hpairwise := Line.pairwise_layout d.terminator.width 0 (d.lines.toList.map Line.text)
  obtain ⟨hilt, hl⟩ := List.getElem?_eq_some_iff.mp (getElem?_layout hi)
  obtain ⟨hjlt, hm⟩ := List.getElem?_eq_some_iff.mp (getElem?_layout hj)
  have hle := List.pairwise_iff_getElem.mp hpairwise i j hilt hjlt hij
  rwa [hl, hm] at hle

theorem width_pos (t : Terminator) : 0 < t.width := by
  cases t <;> decide

theorem exists_mem_layout {width start : Nat} {texts : List String} {offset : Nat}
    (hstart : start ≤ offset) (hstop : offset < start + Line.extent width texts) :
    ∃ l ∈ Line.layout width start texts, l.start ≤ offset ∧ offset < l.stop + width := by
  induction texts generalizing start with
  | nil => simp only [Line.extent] at hstop; omega
  | cons text rest ih =>
    simp only [Line.extent] at hstop
    rcases Nat.lt_or_ge offset (start + text.length + width) with hfirst | hrest
    · exact ⟨_, List.mem_cons_self, hstart, hfirst⟩
    · obtain ⟨l, hl, hplace⟩ := ih hrest (by omega)
      exact ⟨l, List.mem_cons_of_mem _ hl, hplace⟩

theorem countFront_le (d : Document) (p : Line → Bool) : d.countFront p ≤ d.lines.size :=
  (bisect_mem_Icc _ (Nat.zero_le _)).2

theorem lt_countFront_iff {place : Line → Nat} (hplace : ∀ (i j : Nat) (l m : Line),
    d.lines[i]? = some l → d.lines[j]? = some m → i < j → place l ≤ place m)
    (h : d.lines[i]? = some l) (offset : Nat) :
    i < d.countFront (fun l => decide (place l ≤ offset)) ↔ place l ≤ offset := by
  have hlt : i < d.lines.size := (Array.getElem?_eq_some_iff.mp h).1
  rw [countFront, lt_bisect_iff ?_ (Nat.zero_le i) hlt, h, Option.any_some, decide_eq_true_eq]
  intro i j hij hj hpj
  have hi : d.lines[i]? = some d.lines[i] := Array.getElem?_eq_getElem (Nat.lt_of_le_of_lt hij hj)
  have hj : d.lines[j]? = some d.lines[j] := Array.getElem?_eq_getElem hj
  rw [hj, Option.any_some, decide_eq_true_eq] at hpj
  rw [hi, Option.any_some, decide_eq_true_eq]
  rcases Nat.lt_or_eq_of_le hij with hlt | rfl
  · exact Nat.le_trans (hplace i j _ _ hi hj hlt) hpj
  · exact hpj

theorem lt_countFront_start_iff (h : d.lines[i]? = some l) (offset : Nat) :
    i < d.countFront (fun l => decide (l.start ≤ offset)) ↔ l.start ≤ offset := by
  refine lt_countFront_iff (fun i j l m hi hj hij => ?_) h offset
  have hgap := stop_add_width_le_start hi hj hij
  rw [Line.stop] at hgap
  omega

/-- What stands at an offset: a character of a line, or one of the terminator behind a line. -/
inductive Place where
  | text (line : Nat)
  | terminator (line : Nat)

def Place.line : Place → Nat
  | text i => i
  | terminator i => i

def Holds (d : Document) (offset : Nat) : Place → Prop
  | .text i => ∃ l, d.lines[i]? = some l ∧ l.start ≤ offset ∧ offset < l.stop
  | .terminator i =>
    ∃ l, d.lines[i]? = some l ∧ l.stop ≤ offset ∧ offset < l.stop + d.terminator.width

theorem line_unique {offset : Nat} (hi : d.lines[i]? = some l) (hj : d.lines[j]? = some m)
    (hl : l.start ≤ offset ∧ offset < l.stop + d.terminator.width)
    (hm : m.start ≤ offset ∧ offset < m.stop + d.terminator.width) : i = j := by
  rcases Nat.lt_trichotomy i j with hlt | heq | hlt
  · have hgap := stop_add_width_le_start hi hj hlt
    omega
  · exact heq
  · have hgap := stop_add_width_le_start hj hi hlt
    omega

theorem lineAt?_eq_some_iff (offset : Nat) :
    d.lineAt? offset = some i ↔ d.Holds offset (.text i) := by
  have hcount {i : Nat} {l : Line} (h : d.lines[i]? = some l) := lt_countFront_start_iff h offset
  unfold lineAt? Holds
  cases hfront : d.countFront fun l => decide (l.start ≤ offset) with
  | zero =>
    rw [hfront] at hcount
    simp only [reduceCtorEq, false_iff, not_exists, not_and]
    intro l hl hstart
    exact absurd ((hcount hl).mpr hstart) (Nat.not_lt_zero i)
  | succ k =>
    rw [hfront] at hcount
    have hk : k < d.lines.size := by
      have hle := d.countFront_le fun l => decide (l.start ≤ offset)
      omega
    have hline : d.lines[k]? = some d.lines[k] := Array.getElem?_eq_getElem hk
    have hbegun := (hcount hline).mp (Nat.lt_succ_self k)
    simp only [hline, Option.any_some, Line.contains, Bool.and_eq_true, decide_eq_true_eq,
      Option.ite_none_right_eq_some, Option.some.injEq]
    constructor
    · rintro ⟨hholds, rfl⟩
      exact ⟨_, hline, hholds⟩
    · rintro ⟨l, hl, hstart, hstop⟩
      have hle : i < k + 1 := (hcount hl).mpr hstart
      rcases Nat.lt_or_eq_of_le (Nat.le_of_lt_succ hle) with hlt | rfl
      · have hgap := stop_add_width_le_start hl hline hlt
        omega
      · obtain rfl : d.lines[i] = l := by rwa [hline, Option.some.injEq] at hl
        exact ⟨⟨hstart, hstop⟩, rfl⟩

theorem Holds.mem_line {offset : Nat} {place : Place} (h : d.Holds offset place) :
    ∃ l, d.lines[place.line]? = some l ∧ l.start ≤ offset ∧
      offset < l.stop + d.terminator.width := by
  cases place with
  | text i =>
    obtain ⟨l, hl, hstart, hstop⟩ := h
    exact ⟨l, hl, hstart, Nat.lt_add_right _ hstop⟩
  | terminator i =>
    obtain ⟨l, hl, hstop, hbehind⟩ := h
    exact ⟨l, hl, Nat.le_trans (Nat.le_add_right l.start l.length) hstop, hbehind⟩

theorem Holds.not_terminator {offset : Nat} (h : d.Holds offset (.text i)) :
    ¬d.Holds offset (.terminator i) := by
  rintro ⟨m, hm, hstop, _⟩
  obtain ⟨l, hl, _, hlt⟩ := h
  obtain rfl : l = m := by rwa [hl, Option.some.injEq] at hm
  exact absurd hlt (Nat.not_lt.mpr hstop)

theorem Holds.unique {offset : Nat} {place place' : Place} (h : d.Holds offset place)
    (h' : d.Holds offset place') : place = place' := by
  obtain ⟨l, hl, hin⟩ := h.mem_line
  obtain ⟨m, hm, hin'⟩ := h'.mem_line
  have hline := line_unique hl hm hin hin'
  cases place <;> cases place' <;> obtain rfl := hline
  · rfl
  · exact (h.not_terminator h').elim
  · exact (h'.not_terminator h).elim
  · rfl

theorem exists_holds {offset : Nat} (h : offset < d.length) : ∃ place, d.Holds offset place := by
  rw [length_eq, ← Nat.zero_add (Line.extent _ _)] at h
  obtain ⟨l, hl, hstart, hstop⟩ := exists_mem_layout (Nat.zero_le offset) h
  rw [← d.lines_eq, Array.mem_toList_iff] at hl
  obtain ⟨i, hi⟩ := Array.mem_iff_getElem?.mp hl
  rcases Nat.lt_or_ge offset l.stop with hlt | hge
  · exact ⟨.text i, l, hi, hstart, hlt⟩
  · exact ⟨.terminator i, l, hi, hge, hstop⟩

def scan? (d : Document) (offset : Nat) : Option Nat :=
  d.lines.toList.findIdx? fun l => l.contains offset

theorem scan?_eq_some_iff (offset : Nat) :
    d.scan? offset = some i ↔ d.Holds offset (.text i) := by
  rw [scan?, List.findIdx?_eq_some_iff_getElem]
  simp only [Array.getElem_toList, Array.length_toList, Holds, Line.contains, Bool.and_eq_true,
    decide_eq_true_eq]
  constructor
  · rintro ⟨hi, hholds, _⟩
    exact ⟨_, Array.getElem?_eq_getElem hi, hholds⟩
  · rintro ⟨l, hl, hholds⟩
    obtain ⟨hi, rfl⟩ := Array.getElem?_eq_some_iff.mp hl
    refine ⟨hi, hholds, fun j hj hother => ?_⟩
    have hjlt : j < d.lines.size := Nat.lt_trans hj hi
    have hfirst : d.Holds offset (.text j) := ⟨_, Array.getElem?_eq_getElem hjlt, hother⟩
    have hlater : d.Holds offset (.text i) := ⟨_, hl, hholds⟩
    cases hfirst.unique hlater
    exact Nat.lt_irrefl _ hj

theorem lineAt?_eq_scan? (d : Document) (offset : Nat) : d.lineAt? offset = d.scan? offset := by
  ext i
  rw [lineAt?_eq_some_iff, scan?_eq_some_iff]

theorem lineAt?_of_terminator {offset : Nat} (h : d.Holds offset (.terminator i)) :
    d.lineAt? offset = none := by
  rw [Option.eq_none_iff_forall_ne_some]
  intro j hj
  cases h.unique ((lineAt?_eq_some_iff offset).mp hj)

theorem length_flatMap (t : Terminator) (texts : List String) :
    (texts.flatMap fun text => text.toList ++ t.text.toList).length = Line.extent t.width texts := by
  induction texts with
  | nil => rfl
  | cons text rest ih =>
    rw [List.flatMap_cons, List.length_append, ih, Line.extent, List.length_append,
      String.length_toList, String.length_toList, Terminator.length_text]

theorem length_render (d : Document) : d.render.length = d.length := by
  rw [← String.length_toList, toList_render, length_flatMap, length_eq]

theorem exists_render_eq (h : d.lines[i]? = some l) : ∃ before behind : String,
    d.render = before ++ l.text ++ d.terminator.text ++ behind ∧
      d.lineSpan? i = some (before.length, before.length + l.text.length) := by
  obtain ⟨front, rest, htexts, _, hstart, hlength⟩ := Line.layout_eq_append (getElem?_layout h)
  let written (texts : List String) : List Char :=
    texts.flatMap fun text => text.toList ++ d.terminator.text.toList
  refine ⟨String.ofList (written front), String.ofList (written rest), ?_, ?_⟩
  · rw [← String.toList_inj, toList_render, htexts, List.flatMap_append, List.flatMap_cons]
    simp only [written, String.toList_append, String.toList_ofList, List.append_assoc]
  · have hbefore : (String.ofList (written front)).length = l.start := by
      rw [String.length_ofList, length_flatMap, hstart, Nat.zero_add]
    rw [lineSpan?, h, Option.map_some, hbefore, Line.stop, hlength]

theorem stop_add_width_le_length (h : d.lines[i]? = some l) :
    l.stop + d.terminator.width ≤ d.length := by
  obtain ⟨before, behind, hrender, hspan⟩ := exists_render_eq h
  simp only [lineSpan?, h, Option.map_some, Option.some.injEq, Prod.mk.injEq] at hspan
  rw [← length_render, hrender, hspan.2]
  simp only [String.length_append, Terminator.length_text]
  omega

theorem lineAt?_of_length_le {offset : Nat} (h : d.length ≤ offset) : d.lineAt? offset = none := by
  rw [Option.eq_none_iff_forall_ne_some]
  intro i hi
  obtain ⟨l, hl, _, hstop⟩ := (lineAt?_eq_some_iff offset).mp hi
  have hle := stop_add_width_le_length hl
  omega

theorem lineAt?_of_size_eq_zero (h : d.lines.size = 0) (offset : Nat) : d.lineAt? offset = none := by
  rw [Option.eq_none_iff_forall_ne_some]
  intro i hi
  obtain ⟨l, hl, _⟩ := (lineAt?_eq_some_iff offset).mp hi
  have hlt := (Array.getElem?_eq_some_iff.mp hl).1
  omega

theorem lineAt?_of_isEmpty (h : d.lines[i]? = some l) (hempty : l.isEmpty = true) :
    d.lineAt? l.start = none := by
  have hzero : l.length = 0 := by simpa only [Line.isEmpty, decide_eq_true_eq] using hempty
  have hstop : l.stop = l.start := by rw [Line.stop, hzero, Nat.add_zero]
  refine lineAt?_of_terminator (i := i) ⟨l, h, Nat.le_of_eq hstop, ?_⟩
  rw [hstop]
  exact Nat.lt_add_of_pos_right (width_pos d.terminator)

theorem lineSpan?_eq_some_iff {a b : Nat} : d.lineSpan? i = some (a, b) ↔
    ∃ l, d.lines[i]? = some l ∧ l.start = a ∧ l.stop = b := by
  simp only [lineSpan?, Option.map_eq_some_iff, Prod.mk.injEq]

theorem lineAt?_eq_some_iff_lineSpan? {offset : Nat} : d.lineAt? offset = some i ↔
    ∃ a b, d.lineSpan? i = some (a, b) ∧ a ≤ offset ∧ offset < b := by
  rw [lineAt?_eq_some_iff]
  simp only [lineSpan?_eq_some_iff, Holds]
  constructor
  · rintro ⟨l, hl, hin⟩
    exact ⟨_, _, ⟨l, hl, rfl, rfl⟩, hin⟩
  · rintro ⟨_, _, ⟨l, hl, rfl, rfl⟩, hin⟩
    exact ⟨l, hl, hin⟩

theorem lineAt?_eq_none_iff {offset : Nat} : d.lineAt? offset = none ↔
    ∀ i a b, d.lineSpan? i = some (a, b) → ¬(a ≤ offset ∧ offset < b) := by
  simp only [Option.eq_none_iff_forall_ne_some, ne_eq, lineAt?_eq_some_iff_lineSpan?, not_exists,
    not_and]

theorem exists_lineAt?_iff (offset : Nat) : (∃ i, d.lineAt? offset = some i) ↔
    offset < d.length ∧ ∀ i, ¬d.Holds offset (.terminator i) := by
  constructor
  · rintro ⟨i, hi⟩
    have hholds := (lineAt?_eq_some_iff offset).mp hi
    refine ⟨Nat.lt_of_not_le fun hle => ?_, fun j hj => ?_⟩
    · rw [lineAt?_of_length_le hle] at hi
      cases hi
    · cases hholds.unique hj
  · rintro ⟨hlt, hterminator⟩
    obtain ⟨place, hplace⟩ := exists_holds hlt
    cases place with
    | text i => exact ⟨i, (lineAt?_eq_some_iff offset).mpr hplace⟩
    | terminator i => exact (hterminator i hplace).elim

/-! Documents of which one begins with the lines of the other. -/

theorem lines_ofTexts_append (t : Terminator) (texts more : List String) :
    (ofTexts t texts).lines.toList <+: (ofTexts t (texts ++ more)).lines.toList := by
  rw [toList_lines_ofTexts, toList_lines_ofTexts, Line.layout_append]
  exact List.prefix_append _ _

section Continued

variable {d' : Document} (ht : d'.terminator = d.terminator)
  (h : d.lines.toList <+: d'.lines.toList)
include h

theorem getElem?_lines_of_isPrefix (hl : d.lines[i]? = some l) : d'.lines[i]? = some l := by
  rw [← Array.getElem?_toList] at hl ⊢
  obtain ⟨hi, rfl⟩ := List.getElem?_eq_some_iff.mp hl
  exact List.prefix_iff_getElem?.mp h i hi

include ht

theorem exists_render_eq_append : ∃ rest : String, d'.render = d.render ++ rest := by
  obtain ⟨behind, hbehind⟩ := h
  refine ⟨String.ofList ((behind.map Line.text).flatMap fun text =>
    text.toList ++ d.terminator.text.toList), ?_⟩
  rw [← String.toList_inj, String.toList_append, String.toList_ofList, toList_render, toList_render,
    ← hbehind, List.map_append, List.flatMap_append, ht]

theorem Holds.of_isPrefix {offset : Nat} {place : Place} (hplace : d.Holds offset place) :
    d'.Holds offset place := by
  cases place with
  | text i =>
    obtain ⟨l, hl, hin⟩ := hplace
    exact ⟨l, getElem?_lines_of_isPrefix h hl, hin⟩
  | terminator i =>
    obtain ⟨l, hl, hin⟩ := hplace
    exact ⟨l, getElem?_lines_of_isPrefix h hl, ht ▸ hin⟩

theorem lineAt?_of_isPrefix {offset : Nat} (hlt : offset < d.length) :
    d'.lineAt? offset = d.lineAt? offset := by
  obtain ⟨place, hplace⟩ := exists_holds hlt
  have hplace' := hplace.of_isPrefix ht h
  cases place with
  | text i => rw [(lineAt?_eq_some_iff offset).mpr hplace, (lineAt?_eq_some_iff offset).mpr hplace']
  | terminator i => rw [lineAt?_of_terminator hplace, lineAt?_of_terminator hplace']

end Continued

/-- Lines, offsets and the rendered text of a document say the same, and looking an offset up by halving
finds what a look at every line finds. -/
structure AgreesWithRender (d : Document) (t : Terminator) (texts : List String) : Prop where
  size_lines : d.lines.size = texts.length
  length : d.length = d.render.length
  line (i : Nat) (text : String) (h : texts[i]? = some text) : ∃ before behind : String,
    d.render = before ++ text ++ t.text ++ behind ∧
      d.lineSpan? i = some (before.length, before.length + text.length)
  place (offset : Nat) (h : offset < d.length) : ∃! place, d.Holds offset place
  scan (offset : Nat) : d.lineAt? offset = d.scan? offset
  lineAt_iff (offset i : Nat) : d.lineAt? offset = some i ↔
    ∃ l, d.lines[i]? = some l ∧ l.start ≤ offset ∧ offset < l.start + l.length
  terminator (offset i : Nat) (h : d.Holds offset (.terminator i)) : d.lineAt? offset = none
  empty (i : Nat) (l : Line) (h : d.lines[i]? = some l) (hempty : l.isEmpty = true) :
    d.lineAt? l.start = none
  past (offset : Nat) (h : d.length ≤ offset) : d.lineAt? offset = none

theorem agreesWithRender_ofTexts (t : Terminator) (texts : List String) :
    (ofTexts t texts).AgreesWithRender t texts where
  size_lines := size_lines_ofTexts t texts
  length := (length_render _).symm
  line i text h := by
    rw [← lineText?_ofTexts t texts, lineText?, Option.map_eq_some_iff] at h
    obtain ⟨l, hl, rfl⟩ := h
    simpa only [terminator_ofTexts] using exists_render_eq hl
  place offset h := by
    obtain ⟨place, hplace⟩ := exists_holds h
    exact ⟨place, hplace, fun other hother => hother.unique hplace⟩
  scan := lineAt?_eq_scan? _
  lineAt_iff offset i := lineAt?_eq_some_iff offset
  terminator _ _ := lineAt?_of_terminator
  empty _ _ := lineAt?_of_isEmpty
  past _ := lineAt?_of_length_le

example : (List.range 11).map (ofTexts .crlf ["a\nb", "", "", "é"]).lineAt? =
    [some 0, some 0, some 0, none, none, none, none, none, none, some 3, none] := by
  decide +kernel

end Document
end Lsif
