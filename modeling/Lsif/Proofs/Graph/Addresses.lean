import Lsif.Proofs.Graph.Neighbors

/-! The ways to a record of a built graph: its line, any offset in the text of the line, and its id. They lead
to the same record wherever they lead to one, and they fail together. -/

namespace Lsif.Graph

def Designates (g : Graph) (id : Int64) (line : Nat) : Prop :=
  ∃ e, g.element? line = some e ∧ g.Resolves id e

variable {o : Options} {lines : List String} {g : Graph} {t : Target}

theorem select_eq_ok_iff {e : Element} : g.select t = .ok e ↔ g.find? t = some e := by
  unfold select
  cases g.find? t <;> simp

theorem select_of_find?_eq_none (h : g.find? t = none) : g.select t = .error (g.absence t) := by
  rw [select, h]

theorem element?_of_lineAt? (h : ofLines o lines = .ok g) {offset i : Nat}
    (hi : g.document.lineAt? offset = some i) : ∃ e, g.element? i = some e := by
  obtain ⟨l, hl, _⟩ := (Document.lineAt?_eq_some_iff offset).mp hi
  have hlt : i < g.document.lines.size := (Array.getElem?_eq_some_iff.mp hl).1
  exact ⟨_, Array.getElem?_eq_getElem (size_lines_of_ofLines h ▸ hlt)⟩

theorem exists_select_offset_iff (h : ofLines o lines = .ok g) (offset : Nat) :
    (∃ e, g.select (.offset offset) = .ok e) ↔ ∃ i, g.document.lineAt? offset = some i := by
  simp only [select_eq_ok_iff, find?, elementAt?, Option.bind_eq_some_iff]
  constructor
  · rintro ⟨_, i, hi, _⟩
    exact ⟨i, hi⟩
  · rintro ⟨i, hi⟩
    obtain ⟨e, he⟩ := element?_of_lineAt? h hi
    exact ⟨e, i, hi, he⟩

/-- All ways to a record lead to the same one, and where there is none they fail. -/
structure Addressed (g : Graph) (count : Nat) : Prop where
  start (i : Nat) (hi : i < count) : ∃ start,
    g.document.lineStart? i = some start ∧ g.document.lineAt? start = some i
  offset_iff (offset : Nat) : (∃ e, g.select (.offset offset) = .ok e) ↔
    offset < g.render.length ∧ ∀ i, ¬g.document.Holds offset (.terminator i)
  inSpan (i a b offset : Nat) (hspan : g.document.lineSpan? i = some (a, b)) (hstart : a ≤ offset)
    (hstop : offset < b) : ∃ e, g.select (.offset offset) = .ok e ∧ g.elementAt? offset = some e ∧
      g.select (.line i) = .ok e ∧ g.document.spanAt? offset = some (a, b) ∧
        g.neighborsAtOffset? offset = g.neighborsAtLine? i
  outside (offset : Nat)
    (h : ∀ i a b, g.document.lineSpan? i = some (a, b) → ¬(a ≤ offset ∧ offset < b)) :
    g.select (.offset offset) = .error (.offsetOutsideLines offset) ∧ g.elementAt? offset = none ∧
      g.document.spanAt? offset = none ∧ g.neighborsAtOffset? offset = none
  line (i : Nat) (hi : i < count) : ∃ e, g.select (.line i) = .ok e ∧ g.element? i = some e
  behind (i : Nat) (hi : count ≤ i) : g.select (.line i) = .error (.lineOutOfRange i count) ∧
    g.element? i = none ∧ g.document.lineStart? i = none ∧ g.document.lineSpan? i = none ∧
      g.neighborsAtLine? i = none
  id_iff (id : Int64) (i : Nat) :
    (∃ e, g.element? i = some e ∧ g.select (.id id) = .ok e) ↔ g.Designates id i
  designated (id : Int64) (i : Nat) (h : g.Designates id i) :
    g.neighborsOfId? id = g.neighborsAtLine? i
  unknown (id : Int64) (h : ∀ i, ¬g.Designates id i) : g.select (.id id) = .error (.unknownId id) ∧
    g.resolve? id = none ∧ g.neighborsOfId? id = none

theorem addressed_of_ofLines (h : ofLines o lines = .ok g) : g.Addressed lines.length where
  start i hi := lineAt?_lineStart? h (by rwa [size_lines_of_ofLines h, size_elements_of_ofLines h])
  offset_iff offset := by
    rw [exists_select_offset_iff h, Document.exists_lineAt?_iff, render, Document.length_render]
  inSpan i a b offset hspan hstart hstop := by
    have hi := Document.lineAt?_eq_some_iff_lineSpan?.mpr ⟨a, b, hspan, hstart, hstop⟩
    obtain ⟨e, he⟩ := element?_of_lineAt? h hi
    have hat : g.elementAt? offset = some e := by rw [elementAt?, hi, Option.bind_some, he]
    refine ⟨e, select_eq_ok_iff.mpr hat, hat, select_eq_ok_iff.mpr he, ?_, ?_⟩
    · rw [Document.spanAt?, hi, Option.bind_some, hspan]
    · rw [neighborsAtOffset?, neighborsAtLine?, hat, he]
  outside offset hnone := by
    rw [← Document.lineAt?_eq_none_iff] at hnone
    have hat : g.elementAt? offset = none := by rw [elementAt?, hnone, Option.bind_none]
    refine ⟨select_of_find?_eq_none hat, hat, ?_, ?_⟩
    · rw [Document.spanAt?, hnone, Option.bind_none]
    · rw [neighborsAtOffset?, hat, Option.map_none]
  line i hi := by
    have hlt : i < g.elements.size := (size_elements_of_ofLines h).symm ▸ hi
    have he : g.element? i = some g.elements[i] := Array.getElem?_eq_getElem hlt
    exact ⟨_, select_eq_ok_iff.mpr he, he⟩
  behind i hi := by
    have hsize := size_elements_of_ofLines h
    have hlines := (size_lines_of_ofLines h).trans hsize
    have he : g.find? (.line i) = none := Array.getElem?_eq_none (hsize ▸ hi)
    have hl : g.document.lines[i]? = none := Array.getElem?_eq_none (hlines ▸ hi)
    refine ⟨?_, he, ?_, ?_, ?_⟩
    · rw [select_of_find?_eq_none he, absence, hlines]
    · rw [Document.lineStart?, hl, Option.map_none]
    · rw [Document.lineSpan?, hl, Option.map_none]
    · exact congrArg (Option.map g.neighbors) he
  id_iff id i := by
    simp only [select_eq_ok_iff, find?, resolve?_eq_some_iff (exact_of_ofLines h), Designates]
  designated id i hi := by
    obtain ⟨e, he, hresolves⟩ := hi
    have hfound := (resolve?_eq_some_iff (exact_of_ofLines h) id e).mpr hresolves
    rw [neighborsOfId?, neighborsAtLine?, hfound, he]
  unknown id hnone := by
    have hresolve : g.resolve? id = none := by
      rw [Option.eq_none_iff_forall_ne_some]
      intro e he
      obtain ⟨i, hi⟩ := owns_of_resolve? he
      exact hnone i ⟨e, hi, (resolve?_eq_some_iff (exact_of_ofLines h) id e).mp he⟩
    refine ⟨select_of_find?_eq_none hresolve, hresolve, ?_⟩
    rw [neighborsOfId?, hresolve, Option.map_none]

theorem addressed_of_ofLines_shared_id : ∃ g, ofLines { terminator := .crlf }
    ["\x7b\"type\":\"edge\",\"id\":1,\"outV\":1,\"inV\":2\x7d",
      "\x7b\"type\":\"vertex\",\"id\":1\x7d",
      "\x7b\"type\":\"edge\",\"id\":2\x7d",
      "\x7b\"type\":\"vertex\",\"label\":\"é\"\x7d"] = .ok g ∧ g.Addressed 4 := by
  refine (exists_ofLines ?_ ?_).imp fun g hg => ⟨hg, addressed_of_ofLines hg⟩
  · decide +kernel
  · decide +kernel

end Lsif.Graph
