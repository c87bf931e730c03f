import Lsif.Proofs.Graph.Neighbors

/-! A dump that goes on. The lines that are added at its end disturb nothing of what the ones in front say:
records, places and table entries stay, and what the new lines bring comes behind them. -/

namespace Lsif.Graph

open Indentation

variable {o : Options} {lines more : List String} {g g' : Graph}

theorem exists_ofLines_of_append (h : ofLines o (lines ++ more) = .ok g') :
    ∃ g, ofLines o lines = .ok g ∧ g.elements.toList <+: g'.elements.toList ∧
      g.document.lines.toList <+: g'.document.lines.toList := by
  obtain ⟨ds, hds, _, hindex, _⟩ := ofLines_eq_ok_iff.mp h
  obtain ⟨front, behind, hfront, rfl⟩ := exists_depths_of_append hds
  rw [records_append] at hindex
  obtain ⟨index, hindexFront⟩ := exists_indexRecords_of_append hindex
  have hg : ofLines o lines = .ok _ :=
    ofLines_eq_ok_iff.mpr ⟨front, hfront, index, hindexFront, rfl⟩
  refine ⟨_, hg, ?_, ?_⟩
  · have helements := elements_of_ofLines h
    rw [records_append, ← elements_of_ofLines hg] at helements
    exact (List.prefix_map_iff_of_injective fun _ _ => Option.some.inj).mp ⟨_, helements.symm⟩
  · rw [document_of_ofLines h hds, indentAll_append (length_of_depths hfront)]
    exact Document.lines_ofTexts_append o.terminator _ _

theorem terminator_of_ofLines (h : ofLines o lines = .ok g) : g.document.terminator = o.terminator := by
  obtain ⟨_, _, _, _, rfl⟩ := ofLines_eq_ok_iff.mp h
  exact Document.terminator_ofTexts _ _

theorem element?_of_isPrefix (h : g.elements.toList <+: g'.elements.toList) {i : Nat} {e : Element}
    (he : g.element? i = some e) : g'.element? i = some e := by
  rw [element?, ← Array.getElem?_toList] at he ⊢
  obtain ⟨hi, rfl⟩ := List.getElem?_eq_some_iff.mp he
  exact List.prefix_iff_getElem?.mp h i hi

theorem filter_lineNumber_lt (h : ofLines o lines = .ok g) (count : Nat) :
    (g.elements.toList.filter fun e => e.lineNumber < count) = g.elements.toList.take count := by
  have hnumber (i : Nat) (hi : i < g.elements.toList.length) : g.elements.toList[i].lineNumber = i :=
    lineNumber_of_element? h (Array.getElem?_eq_getElem hi)
  have hfront : ∀ e ∈ g.elements.toList.take count, decide (e.lineNumber < count) = true := by
    intro e he
    obtain ⟨i, hi, rfl⟩ := List.getElem_of_mem he
    rw [List.length_take] at hi
    rw [List.getElem_take, hnumber]
    exact decide_eq_true (by omega)
  have hbehind : ∀ e ∈ g.elements.toList.drop count, ¬decide (e.lineNumber < count) = true := by
    intro e he
    obtain ⟨i, hi, rfl⟩ := List.getElem_of_mem he
    rw [List.getElem_drop, hnumber, decide_eq_true_eq]
    omega
  rw [← List.take_append_drop count g.elements.toList, List.filter_append,
    List.filter_eq_self.mpr hfront, List.filter_eq_nil_iff.mpr hbehind, List.append_nil,
    List.take_append_drop]

/-- What the first `count` lines of a dump, that `g` is built from, leave in the graph of the whole. -/
structure BeginsWith (g' g : Graph) (count : Nat) : Prop where
  size_elements : g.elements.size = count
  size_lines : g.document.lines.size = count
  elements : g.elements.toList <+: g'.elements.toList
  lines : g.document.lines.toList <+: g'.document.lines.toList
  render : ∃ rest : String, g'.render = g.render ++ rest
  elementAt (offset : Nat) (h : offset < g.document.length) :
    g'.elementAt? offset = g.elementAt? offset
  vertex (id : Int64) (e : Element) (h : g.vertex? id = some e) : g'.vertex? id = some e
  edge (id : Int64) (e : Element) (h : g.edge? id = some e) : g'.edge? id = some e
  outgoing (id : Int64) : g.outgoingEdges id <+: g'.outgoingEdges id ∧
    g.outgoingEdges id = (g'.outgoingEdges id).filter fun e => e.lineNumber < count
  incoming (id : Int64) : g.incomingEdges id <+: g'.incomingEdges id ∧
    g.incomingEdges id = (g'.incomingEdges id).filter fun e => e.lineNumber < count

section Begins

variable (h : ofLines o lines = .ok g) (h' : ofLines o (lines ++ more) = .ok g')
  (helements : g.elements.toList <+: g'.elements.toList)
include h h' helements

theorem elementAt?_of_isPrefix (hlines : g.document.lines.toList <+: g'.document.lines.toList)
    {offset : Nat} (hlt : offset < g.document.length) : g'.elementAt? offset = g.elementAt? offset := by
  have hterminator : g'.document.terminator = g.document.terminator :=
    (terminator_of_ofLines h').trans (terminator_of_ofLines h).symm
  rw [elementAt?, elementAt?, Document.lineAt?_of_isPrefix hterminator hlines hlt]
  cases hline : g.document.lineAt? offset with
  | none => rfl
  | some i =>
    obtain ⟨l, hl, _⟩ := (Document.lineAt?_eq_some_iff offset).mp hline
    have hi : i < g.elements.size :=
      size_lines_of_ofLines h ▸ (Array.getElem?_eq_some_iff.mp hl).1
    have he : g.element? i = some g.elements[i] := Array.getElem?_eq_getElem hi
    exact (element?_of_isPrefix helements he).trans he.symm

theorem declared_of_isPrefix (k : Kind) {id : Int64} {e : Element}
    (he : (g.declared k)[id]?.bind g.element? = some e) :
    (g'.declared k)[id]?.bind g'.element? = some e := by
  obtain ⟨⟨i, hi⟩, hdeclares⟩ := (bind_declared_iff (exact_of_ofLines h) k id e).mp he
  exact (bind_declared_iff (exact_of_ofLines h') k id e).mpr
    ⟨⟨i, element?_of_isPrefix helements hi⟩, hdeclares⟩

theorem filter_elements_of_isPrefix (p : Element → Bool) :
    g.elements.toList.filter p <+: g'.elements.toList.filter p ∧
      g.elements.toList.filter p =
        (g'.elements.toList.filter p).filter fun e => e.lineNumber < lines.length := by
  refine ⟨helements.filter p, ?_⟩
  have htake : g'.elements.toList.take lines.length = g.elements.toList := by
    rw [← size_elements_of_ofLines h, ← Array.length_toList]
    exact (List.prefix_iff_eq_take.mp helements).symm
  rw [← htake, ← filter_lineNumber_lt h' lines.length, List.filter_filter, List.filter_filter]
  exact List.filter_congr fun _ _ => Bool.and_comm _ _

end Begins

/-- Lines that are added behind a dump disturb nothing of what is indexed already. -/
theorem beginsWith_of_append (h' : ofLines o (lines ++ more) = .ok g') :
    ∃ g, ofLines o lines = .ok g ∧ g'.BeginsWith g lines.length := by
  obtain ⟨g, h, helements, hlines⟩ := exists_ofLines_of_append h'
  have hsize := size_elements_of_ofLines h
  have hterminator : g'.document.terminator = g.document.terminator :=
    (terminator_of_ofLines h').trans (terminator_of_ofLines h).symm
  have hdeclared := declared_of_isPrefix h h' helements
  refine ⟨g, h, hsize, (size_lines_of_ofLines h).trans hsize, helements, hlines,
    Document.exists_render_eq_append hterminator hlines,
    fun offset hlt => elementAt?_of_isPrefix h h' helements hlines hlt,
    fun id e he => hdeclared .vertex he, fun id e he => hdeclared .edge he, fun id => ?_, fun id => ?_⟩
  · rw [outgoingEdges_eq (exact_of_ofLines h), outgoingEdges_eq (exact_of_ofLines h')]
    exact filter_elements_of_isPrefix h h' helements _
  · rw [incomingEdges_eq (exact_of_ofLines h), incomingEdges_eq (exact_of_ofLines h')]
    exact filter_elements_of_isPrefix h h' helements _

theorem beginsWith_of_append_open_event :
    let lines := ["\x7b\"type\":\"vertex\",\"id\":1,\"label\":\"$event\",\"kind\":\"begin\"\x7d",
      "\x7b\"type\":\"edge\",\"id\":5,\"outV\":2,\"inVs\":[3,1]\x7d"]
    let more := ["\x7b\"type\":\"edge\",\"id\":1,\"outV\":2,\"inV\":1\x7d",
      "\x7b\"type\":\"vertex\",\"id\":2,\"label\":\"$event\",\"kind\":\"end\"\x7d"]
    ∃ g g', ofLines { terminator := .crlf } (lines ++ more) = .ok g' ∧
      ofLines { terminator := .crlf } lines = .ok g ∧ g'.BeginsWith g 2 := by
  intro lines more
  obtain ⟨g', hg'⟩ : ∃ g', ofLines { terminator := .crlf } (lines ++ more) = .ok g' := by
    refine exists_ofLines ?_ ?_
    · decide +kernel
    · decide +kernel
  obtain ⟨g, hg, hbegins⟩ := beginsWith_of_append hg'
  exact ⟨g, g', hg', hg, hbegins⟩

end Lsif.Graph
