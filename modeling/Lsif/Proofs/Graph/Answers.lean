import Lsif.Graph.Selection
import Lsif.Graph.Neighbors
import Lsif.Proofs.Document.Lookup
import Lsif.Proofs.Graph.Faults

/-! Line numbers join the text of a built graph with its elements: they agree in the document, the
elements and every answer to a query. -/

namespace Lsif.Graph

/-- What the queries of a graph return. A neighborhood may be asked for with any record, also one of
another dump. -/
inductive Answer (g : Graph) : Element → Prop
  | vertex {id : Int64} {e : Element} (h : g.vertex? id = some e) : Answer g e
  | edge {id : Int64} {e : Element} (h : g.edge? id = some e) : Answer g e
  | resolve {id : Int64} {e : Element} (h : g.resolve? id = some e) : Answer g e
  | element {line : Nat} {e : Element} (h : g.element? line = some e) : Answer g e
  | elementAt {offset : Nat} {e : Element} (h : g.elementAt? offset = some e) : Answer g e
  | outgoing {id : Int64} {e : Element} (h : e ∈ g.outgoingEdges id) : Answer g e
  | incoming {id : Int64} {e : Element} (h : e ∈ g.incomingEdges id) : Answer g e
  | neighbor {record : Element} {n : Neighbor} (h : n ∈ g.neighbors record) : Answer g n.element
  | neighborOfId {id : Int64} {ns : List Neighbor} {n : Neighbor}
      (h : g.neighborsOfId? id = some ns) (hn : n ∈ ns) : Answer g n.element
  | neighborAtLine {line : Nat} {ns : List Neighbor} {n : Neighbor}
      (h : g.neighborsAtLine? line = some ns) (hn : n ∈ ns) : Answer g n.element
  | neighborAtOffset {offset : Nat} {ns : List Neighbor} {n : Neighbor}
      (h : g.neighborsAtOffset? offset = some ns) (hn : n ∈ ns) : Answer g n.element
  | select {target : Target} {e : Element} (h : g.select target = .ok e) : Answer g e

def Owns (g : Graph) (e : Element) : Prop := ∃ line, g.element? line = some e

variable {g : Graph} {e : Element}

theorem owns_of_bind {line? : Option Nat} (h : line?.bind g.element? = some e) : g.Owns e := by
  obtain ⟨line, _, he⟩ := Option.bind_eq_some_iff.mp h
  exact ⟨line, he⟩

theorem owns_of_resolve? {id : Int64} (h : g.resolve? id = some e) : g.Owns e := by
  obtain hvertex | ⟨_, hedge⟩ := Option.or_eq_some_iff.mp h
  · exact owns_of_bind hvertex
  · exact owns_of_bind hedge

theorem owns_of_mem_filterMap {lines : List Nat} (h : e ∈ lines.filterMap g.element?) :
    g.Owns e := by
  obtain ⟨line, _, he⟩ := List.mem_filterMap.mp h
  exact ⟨line, he⟩

theorem owns_of_mem_neighbors {record : Element} {n : Neighbor} (h : n ∈ g.neighbors record) :
    g.Owns n.element := by
  unfold neighbors at h
  cases hkind : record.kind with
  | edge =>
    simp only [hkind, ends, List.mem_append, Option.mem_toList, Option.map_eq_some_iff,
      Option.bind_eq_some_iff, List.mem_map, List.mem_filterMap] at h
    obtain ⟨found, ⟨_, _, hfound⟩, rfl⟩ | ⟨found, ⟨_, _, hfound⟩, rfl⟩ := h
    · exact owns_of_resolve? hfound
    · exact owns_of_resolve? hfound
  | vertex =>
    simp only [hkind, incident] at h
    cases hid : record.id with
    | none => simp only [hid, List.not_mem_nil] at h
    | some id =>
      simp only [hid, List.mem_append, List.mem_map] at h
      obtain ⟨edge, hedge, rfl⟩ | ⟨edge, hedge, rfl⟩ := h
      · exact owns_of_mem_filterMap hedge
      · exact owns_of_mem_filterMap hedge

theorem owns_of_mem_map_neighbors {e? : Option Element} {ns : List Neighbor} {n : Neighbor}
    (h : e?.map g.neighbors = some ns) (hn : n ∈ ns) : g.Owns n.element := by
  obtain ⟨record, _, rfl⟩ := Option.map_eq_some_iff.mp h
  exact owns_of_mem_neighbors hn

theorem owns_of_find? {target : Target} (h : g.find? target = some e) : g.Owns e := by
  cases target with
  | id id => exact owns_of_resolve? h
  | line line => exact ⟨line, h⟩
  | offset offset => exact owns_of_bind h

theorem owns_of_select {target : Target} (h : g.select target = .ok e) : g.Owns e := by
  unfold select at h
  cases hfind : g.find? target with
  | none =>
    rw [hfind] at h
    cases h
  | some found =>
    rw [hfind] at h
    cases h
    exact owns_of_find? hfind

theorem Answer.owns (h : g.Answer e) : g.Owns e := by
  cases h with
  | vertex h => exact owns_of_bind h
  | edge h => exact owns_of_bind h
  | resolve h => exact owns_of_resolve? h
  | element h => exact ⟨_, h⟩
  | elementAt h => exact owns_of_bind h
  | outgoing h => exact owns_of_mem_filterMap h
  | incoming h => exact owns_of_mem_filterMap h
  | neighbor h => exact owns_of_mem_neighbors h
  | neighborOfId h hn => exact owns_of_mem_map_neighbors h hn
  | neighborAtLine h hn => exact owns_of_mem_map_neighbors h hn
  | neighborAtOffset h hn => exact owns_of_mem_map_neighbors h hn
  | select h => exact owns_of_select h

theorem ne_empty_of_decode? {text : String} {line : Nat} (h : Element.decode? text line = some e) :
    text ≠ "" := by
  rintro rfl
  cases h

theorem size_lines_of_ofLines {o : Options} {lines : List String} (h : ofLines o lines = .ok g) :
    g.document.lines.size = g.elements.size := by
  obtain ⟨ds, hds, _⟩ := ofLines_eq_ok_iff.mp h
  have hlength := Indentation.length_of_depths hds
  rw [document_of_ofLines h hds, Document.size_lines_ofTexts, Indentation.length_indentAll hlength,
    size_elements_of_ofLines h]

theorem lineAt?_lineStart? {o : Options} {lines : List String} (h : ofLines o lines = .ok g) {i : Nat}
    (hi : i < g.document.lines.size) :
    ∃ start, g.document.lineStart? i = some start ∧ g.document.lineAt? start = some i := by
  obtain ⟨ds, hds, _⟩ := ofLines_eq_ok_iff.mp h
  have hl : g.document.lines[i]? = some g.document.lines[i] := Array.getElem?_eq_getElem hi
  have htext : (Indentation.indentAll ds lines)[i]? = some g.document.lines[i].text := by
    rw [← Document.lineText?_ofTexts o.terminator, ← document_of_ofLines h hds, Document.lineText?, hl]
    rfl
  obtain ⟨_, _, hdecode⟩ :=
    decode?_of_mem_indentAll h (Indentation.length_of_depths hds) (List.mem_of_getElem? htext)
  have hpos : 0 < g.document.lines[i].length := by
    rw [Document.length_line hl]
    exact Nat.pos_of_ne_zero (mt String.length_eq_zero_iff.mp (ne_empty_of_decode? hdecode))
  refine ⟨g.document.lines[i].start, congrArg (Option.map Line.start) hl, ?_⟩
  rw [Document.lineAt?_eq_some_iff]
  exact ⟨_, hl, Nat.le_refl _, Nat.lt_add_of_pos_right hpos⟩

theorem lineAt?_zero_of_ofLines {o : Options} {lines : List String} (h : ofLines o lines = .ok g)
    (hlines : g.document.lines.size ≠ 0) : g.document.lineAt? 0 = some 0 := by
  obtain ⟨start, hstart, hline⟩ := lineAt?_lineStart? h (Nat.pos_of_ne_zero hlines)
  obtain ⟨l, hl, rfl⟩ := Option.map_eq_some_iff.mp hstart
  rwa [Document.start_eq_zero hl] at hline

theorem lineAt?_lineStart?_of_select {o : Options} {lines : List String} (h : ofLines o lines = .ok g)
    {target : Target} (he : g.select target = .ok e) :
    ∃ start, g.document.lineStart? e.lineNumber = some start ∧
      g.document.lineAt? start = some e.lineNumber := by
  obtain ⟨i, hi⟩ := owns_of_select he
  refine lineAt?_lineStart? h ?_
  rw [size_lines_of_ofLines h, lineNumber_of_element? h hi]
  exact (Array.getElem?_eq_some_iff.mp hi).1

structure InStep (g : Graph) (lines : List String) : Prop where
  size_elements : g.elements.size = lines.length
  size_lines : g.document.lines.size = lines.length
  element (i : Nat) (input : String) (h : lines[i]? = some input) : ∃ e text,
    g.element? i = some e ∧ e.lineNumber = i ∧ g.document.lineText? i = some text ∧
      Element.decode? text i = some e ∧ Element.decode? input i = some e
  answer (e : Element) (h : g.Answer e) : g.element? e.lineNumber = some e

theorem inStep_of_ofLines {o : Options} {lines : List String} (h : ofLines o lines = .ok g) :
    g.InStep lines := by
  have hsize := size_elements_of_ofLines h
  obtain ⟨ds, hds, _⟩ := ofLines_eq_ok_iff.mp h
  have hdocument := document_of_ofLines h hds
  have hlength := Indentation.length_of_depths hds
  refine ⟨hsize, ?_, fun i input hinput => ?_, fun e he => ?_⟩
  · rw [hdocument, Document.size_lines_ofTexts, Indentation.length_indentAll hlength]
  · have hi : i < g.elements.size := hsize ▸ (List.getElem?_eq_some_iff.mp hinput).1
    have he : g.element? i = some g.elements[i] := Array.getElem?_eq_getElem hi
    obtain ⟨input', hinput', hdecode⟩ := (element?_eq_some_iff h i _).mp he
    obtain rfl : input = input' := by rwa [hinput, Option.some.injEq] at hinput'
    obtain ⟨d, _, htext⟩ := Indentation.getElem?_indentAll hlength hinput
    refine ⟨g.elements[i], Indentation.indented d input, he, lineNumber_of_element? h he, ?_, ?_,
      hdecode⟩
    · rw [hdocument, Document.lineText?_ofTexts, htext]
    · exact ((ignoresSpace_decode? i).indented d input).trans hdecode
  · obtain ⟨line, hline⟩ := he.owns
    rwa [lineNumber_of_element? h hline]

theorem inStep_indented :
    let lines := ["\x7b\"type\":\"vertex\",\"label\":\"$event\",\"kind\":\"begin\"\x7d",
      "\t\x7b\"type\":\"edge\",\"id\":2,\"outV\":2,\"inV\":2\x7d"]
    ∃ g, ofLines {} lines = .ok g ∧ g.InStep lines := by
  intro lines
  refine (exists_ofLines ?_ ?_).imp fun g hg => ⟨hg, inStep_of_ofLines hg⟩
  · decide +kernel
  · decide +kernel

end Lsif.Graph
