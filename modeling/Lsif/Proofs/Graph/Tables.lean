import Lsif.Proofs.Graph.Faults

/-! The tables of a built graph are the relations that its elements say: each holds the lines that
belong there and no others, whatever ids are repeated, missing or shared. -/

namespace Lsif.Graph

def Enumerates (g : Graph) (edges : List Element) (lines : List Nat) : Prop :=
  lines.Pairwise (· < ·) ∧ edges.map some = lines.map g.element? ∧
    edges.map Element.lineNumber = lines

theorem filterMap_element?_of_lt {g : Graph} {lines : List Nat}
    (hown : ∀ i e, g.element? i = some e → e.lineNumber = i)
    (h : ∀ i ∈ lines, i < g.elements.size) :
    (lines.filterMap g.element?).map some = lines.map g.element? ∧
      (lines.filterMap g.element?).map Element.lineNumber = lines := by
  induction lines with
  | nil => exact ⟨rfl, rfl⟩
  | cons i rest ih =>
    obtain ⟨hsome, hnumber⟩ := ih fun j hj => h j (List.mem_cons_of_mem i hj)
    have hlt : i < g.elements.size := h i List.mem_cons_self
    have hi : g.element? i = some g.elements[i] := Array.getElem?_eq_getElem hlt
    rw [List.filterMap_cons_some hi]
    simp only [List.map_cons, hsome, hnumber, hi, hown i _ hi, and_self]

theorem enumerates_findIdxs {g : Graph} (hown : ∀ i e, g.element? i = some e → e.lineNumber = i)
    (p : Element → Bool) : g.Enumerates ((g.elements.toList.findIdxs p).filterMap g.element?)
      (g.elements.toList.findIdxs p) := by
  have hbound : ∀ i ∈ g.elements.toList.findIdxs p, i < g.elements.size := by
    intro i hi
    simpa using List.lt_add_of_mem_findIdxs i hi
  exact ⟨List.pairwise_findIdxs, filterMap_element?_of_lt hown hbound⟩

theorem filterMap_getElem?_findIdxs {α : Type} (as : List α) (p : α → Bool) :
    (as.findIdxs p).filterMap (as[·]?) = as.filter p := by
  induction as using List.reverseRecOn with
  | nil => rfl
  | append_singleton as a ih =>
    have hold : (as.findIdxs p).filterMap ((as ++ [a])[·]?) = (as.findIdxs p).filterMap (as[·]?) := by
      refine List.filterMap_congr fun i hi => List.getElem?_append_left ?_
      simpa using List.lt_add_of_mem_findIdxs i hi
    rw [List.findIdxs_append, List.filterMap_append, List.filter_append, hold, ih,
      List.findIdxs_singleton]
    by_cases ha : p a = true <;> simp [ha]

theorem filterMap_element?_findIdxs (g : Graph) (p : Element → Bool) :
    (g.elements.toList.findIdxs p).filterMap g.element? = g.elements.toList.filter p := by
  rw [← filterMap_getElem?_findIdxs]
  exact List.filterMap_congr fun i _ => Array.getElem?_toList.symm

theorem outgoingEdges_eq {g : Graph} (h : g.Exact) (id : Int64) :
    g.outgoingEdges id = g.elements.toList.filter fun e => id ∈ e.origins := by
  have hlines : (g.outgoing.getD id #[]).toList = _ := h.outgoing id
  rw [outgoingEdges, hlines, filterMap_element?_findIdxs]

theorem incomingEdges_eq {g : Graph} (h : g.Exact) (id : Int64) :
    g.incomingEdges id = g.elements.toList.filter fun e => id ∈ e.destinations := by
  have hlines : (g.incoming.getD id #[]).toList = _ := h.incoming id
  rw [incomingEdges, hlines, filterMap_element?_findIdxs]

theorem mem_elements_iff (g : Graph) (e : Element) :
    e ∈ g.elements.toList ↔ ∃ i, g.element? i = some e := by
  simp only [List.mem_iff_getElem?, Array.getElem?_toList, element?]

theorem mem_findIdxs_elements_iff (g : Graph) (p : Element → Bool) (i : Nat) :
    i ∈ g.elements.toList.findIdxs p ↔ ∃ e, g.elements[i]? = some e ∧ p e = true := by
  rw [List.mem_findIdxs_iff_exists_getElem_pos]
  simp [Array.getElem?_eq_some_iff]

theorem mem_outgoing_iff {g : Graph} (h : g.Exact) (id : Int64) (i : Nat) :
    i ∈ g.outgoing.getD id #[] ↔
      ∃ e, g.elements[i]? = some e ∧ e.kind = .edge ∧ e.outV = some id := by
  rw [← Array.mem_toList_iff]
  change i ∈ EdgeTable.lines g.outgoing id ↔ _
  rw [h.outgoing, mem_findIdxs_elements_iff]
  simp only [decide_eq_true_eq, Element.mem_origins_iff]

theorem mem_incoming_iff {g : Graph} (h : g.Exact) (id : Int64) (i : Nat) :
    i ∈ g.incoming.getD id #[] ↔ ∃ e, g.elements[i]? = some e ∧ e.kind = .edge ∧ e.outV ≠ none ∧
      (e.inV = some id ∨ e.inV = none ∧ id ∈ e.inVs) := by
  rw [← Array.mem_toList_iff]
  change i ∈ EdgeTable.lines g.incoming id ↔ _
  rw [h.incoming, mem_findIdxs_elements_iff]
  simp only [decide_eq_true_eq, Element.mem_destinations_iff]

theorem enumerates_outgoingEdges {o : Options} {lines : List String} {g : Graph}
    (h : ofLines o lines = .ok g) (id : Int64) :
    g.Enumerates (g.outgoingEdges id) (g.outgoing.getD id #[]).toList := by
  have hlines : (g.outgoing.getD id #[]).toList = _ := (exact_of_ofLines h).outgoing id
  rw [outgoingEdges, hlines]
  exact enumerates_findIdxs (fun _ _ he => lineNumber_of_element? h he) _

theorem enumerates_incomingEdges {o : Options} {lines : List String} {g : Graph}
    (h : ofLines o lines = .ok g) (id : Int64) :
    g.Enumerates (g.incomingEdges id) (g.incoming.getD id #[]).toList := by
  have hlines : (g.incoming.getD id #[]).toList = _ := (exact_of_ofLines h).incoming id
  rw [incomingEdges, hlines]
  exact enumerates_findIdxs (fun _ _ he => lineNumber_of_element? h he) _

/-- Nothing is lost and nothing is invented: the four tables say exactly what the elements say, and
both adjacency queries list their edges by line, each once. -/
structure TablesExact (g : Graph) : Prop where
  vertices (id : Int64) (i : Nat) : g.vertices[id]? = some i ↔
    ∃ e, g.elements[i]? = some e ∧ e.kind = .vertex ∧ e.id = some id
  edges (id : Int64) (i : Nat) : g.edges[id]? = some i ↔
    ∃ e, g.elements[i]? = some e ∧ e.kind = .edge ∧ e.id = some id
  outgoing (id : Int64) (i : Nat) : i ∈ g.outgoing.getD id #[] ↔
    ∃ e, g.elements[i]? = some e ∧ e.kind = .edge ∧ e.outV = some id
  incoming (id : Int64) (i : Nat) : i ∈ g.incoming.getD id #[] ↔
    ∃ e, g.elements[i]? = some e ∧ e.kind = .edge ∧ e.outV ≠ none ∧
      (e.inV = some id ∨ e.inV = none ∧ id ∈ e.inVs)
  lines_lt (id : Int64) (i : Nat) :
    g.vertices[id]? = some i ∨ g.edges[id]? = some i ∨
      i ∈ g.outgoing.getD id #[] ∨ i ∈ g.incoming.getD id #[] → i < g.elements.size
  outgoingEdges (id : Int64) :
    g.Enumerates (g.outgoingEdges id) (g.outgoing.getD id #[]).toList
  incomingEdges (id : Int64) :
    g.Enumerates (g.incomingEdges id) (g.incoming.getD id #[]).toList

theorem tablesExact_of_ofLines {o : Options} {lines : List String} {g : Graph}
    (h : ofLines o lines = .ok g) : g.TablesExact := by
  have hexact := exact_of_ofLines h
  have hvertices := hexact.getElem?_declared_iff .vertex
  have hedges := hexact.getElem?_declared_iff .edge
  have houtgoing := mem_outgoing_iff hexact
  have hincoming := mem_incoming_iff hexact
  have hbound {i : Nat} {p : Element → Prop} (hi : ∃ e, g.elements[i]? = some e ∧ p e) :
      i < g.elements.size := by
    obtain ⟨e, he, _⟩ := hi
    exact (Array.getElem?_eq_some_iff.mp he).1
  refine ⟨hvertices, hedges, houtgoing, hincoming, ?_, enumerates_outgoingEdges h,
    enumerates_incomingEdges h⟩
  rintro id i (hi | hi | hi | hi)
  · exact hbound ((hvertices id i).mp hi)
  · exact hbound ((hedges id i).mp hi)
  · exact hbound ((houtgoing id i).mp hi)
  · exact hbound ((hincoming id i).mp hi)

/-- A vertex and an edge share an id, targets are repeated, `inV` hides `inVs`, and an edge does not
say where it comes from. -/
theorem tablesExact_shared_id : ∃ g, ofLines {}
    ["\x7b\"type\":\"vertex\",\"id\":-1\x7d",
      "\x7b\"type\":\"edge\",\"id\":-1,\"outV\":-1,\"inVs\":[-1,-1]\x7d",
      "\x7b\"type\":\"edge\",\"outV\":-1,\"inV\":5,\"inVs\":[-1]\x7d",
      "\x7b\"type\":\"edge\",\"id\":5,\"inV\":-1\x7d"] = .ok g ∧ g.TablesExact := by
  refine (exists_ofLines ?_ ?_).imp fun g hg => ⟨hg, tablesExact_of_ofLines hg⟩
  · decide +kernel
  · decide +kernel

end Lsif.Graph
