import Lsif.Proofs.Graph.Answers
import Lsif.Proofs.Graph.Tables

/-! Neighborhoods of a built graph. What leaves or reaches a vertex is looked up in the tables, and the
ends of an edge are looked up by their ids; the two ways say the same, whatever ids are shared. -/

namespace Lsif

def Neighbor.entry (n : Neighbor) : Relation × Nat := (n.relation, n.element.lineNumber)

theorem Element.mem_destinations_iff_mem_targets (id : Int64) (e : Element) :
    id ∈ e.destinations ↔ e.kind = .edge ∧ e.outV ≠ none ∧ id ∈ e.targets := by
  unfold destinations
  cases e.kind <;> cases e.outV <;> simp

namespace Graph

def entries (g : Graph) (r : Element) : List (Relation × Nat) :=
  (g.neighbors r).map Neighbor.entry

/-- The id stands for the record: it is the record's own, and no vertex takes it away from an edge. -/
def Resolves (g : Graph) (id : Int64) (e : Element) : Prop :=
  g.Owns e ∧ e.id = some id ∧
    (e.kind = .edge → ∀ x, g.Owns x → x.kind = .vertex → x.id ≠ some id)

variable {o : Options} {lines : List String} {g : Graph}

theorem bind_declared_iff (h : g.Exact) (k : Kind) (id : Int64) (e : Element) :
    (g.declared k)[id]?.bind g.element? = some e ↔ g.Owns e ∧ e.kind = k ∧ e.id = some id := by
  rw [Option.bind_eq_some_iff]
  constructor
  · rintro ⟨i, hi, he⟩
    obtain ⟨e', he', hkind, hid⟩ := (h.getElem?_declared_iff k id i).mp hi
    obtain rfl : e = e' := Option.some.inj (he.symm.trans he')
    exact ⟨⟨i, he⟩, hkind, hid⟩
  · rintro ⟨⟨i, he⟩, hkind, hid⟩
    exact ⟨i, (h.getElem?_declared_iff k id i).mpr ⟨e, he, hkind, hid⟩, he⟩

theorem resolve?_eq_some_iff (h : g.Exact) (id : Int64) (e : Element) :
    g.resolve? id = some e ↔ g.Resolves id e := by
  have hvertex (x : Element) : g.vertex? id = some x ↔ g.Owns x ∧ x.kind = .vertex ∧ x.id = some id :=
    bind_declared_iff h .vertex id x
  have hedge (x : Element) : g.edge? id = some x ↔ g.Owns x ∧ x.kind = .edge ∧ x.id = some id :=
    bind_declared_iff h .edge id x
  rw [resolve?, Option.or_eq_some_iff, hvertex, hedge, Resolves, Option.eq_none_iff_forall_ne_some]
  constructor
  · rintro (⟨howns, hkind, hid⟩ | ⟨hnone, howns, hkind, hid⟩)
    · refine ⟨howns, hid, fun hother => ?_⟩
      rw [hkind] at hother
      cases hother
    · exact ⟨howns, hid, fun _ x hx hxkind hxid => hnone x ((hvertex x).mpr ⟨hx, hxkind, hxid⟩)⟩
  · rintro ⟨howns, hid, hfree⟩
    cases hkind : e.kind with
    | vertex => exact .inl ⟨howns, rfl, hid⟩
    | edge =>
      refine .inr ⟨fun x hx => ?_, howns, rfl, hid⟩
      obtain ⟨hxowns, hxkind, hxid⟩ := (hvertex x).mp hx
      exact hfree hkind x hxowns hxkind hxid

theorem element?_lineNumber_of_owns (h : ofLines o lines = .ok g) {e : Element} (he : g.Owns e) :
    g.element? e.lineNumber = some e := by
  obtain ⟨line, hline⟩ := he
  rwa [lineNumber_of_element? h hline]

def linesWhere (g : Graph) (p : Element → Prop) [DecidablePred p] : List Nat :=
  g.elements.toList.findIdxs fun e => p e

theorem mem_linesWhere_iff {p : Element → Prop} [DecidablePred p] {i : Nat} :
    i ∈ g.linesWhere p ↔ ∃ e, g.element? i = some e ∧ p e := by
  rw [linesWhere, mem_findIdxs_elements_iff]
  simp only [decide_eq_true_eq, element?]

theorem entries_of_vertex (h : ofLines o lines = .ok g) {r : Element} {id : Int64}
    (hkind : r.kind = .vertex) (hid : r.id = some id) : g.entries r =
      (g.linesWhere fun e => e.kind = .edge ∧ e.outV = some id).map (Relation.outgoing, ·) ++
        (g.linesWhere fun e => e.kind = .edge ∧ e.outV ≠ none ∧ id ∈ e.targets).map
          (Relation.incoming, ·) := by
  obtain ⟨_, _, houtgoing⟩ := enumerates_outgoingEdges h id
  obtain ⟨_, _, hincoming⟩ := enumerates_incomingEdges h id
  have hexact := exact_of_ofLines h
  simp only [linesWhere, ← Element.mem_origins_iff, ← Element.mem_destinations_iff_mem_targets]
  rw [← hexact.outgoing, ← hexact.incoming, EdgeTable.lines, EdgeTable.lines, ← houtgoing,
    ← hincoming]
  simp only [entries, neighbors, hkind, incident, hid, List.map_append, List.map_map,
    Function.comp_def, Neighbor.entry]

theorem neighbors_of_edge {r : Element} (hkind : r.kind = .edge) : g.neighbors r =
    (r.outV.bind g.resolve?).toList.map (⟨.origin, ·⟩) ++
      (r.targets.filterMap g.resolve?).map (⟨.target, ·⟩) := by
  cases horigin : r.outV.bind g.resolve? <;> simp [neighbors, hkind, ends, horigin]

section Incidence

variable (h : ofLines o lines = .ok g) {x e : Element} {p q : Nat}
include h

theorem resolve?_eq_vertex_iff (hx : g.element? p = some x) (hkind : x.kind = .vertex)
    (id : Int64) : g.resolve? id = some x ↔ x.id = some id := by
  rw [resolve?_eq_some_iff (exact_of_ofLines h), Resolves]
  refine ⟨fun hresolves => hresolves.2.1, fun hid => ⟨⟨p, hx⟩, hid, fun hother => ?_⟩⟩
  rw [hkind] at hother
  cases hother

theorem eq_of_resolve? (hx : g.element? p = some x) {id : Int64} {found : Element}
    (hfound : g.resolve? id = some found) (hline : found.lineNumber = p) : found = x := by
  have hown := element?_lineNumber_of_owns h (owns_of_resolve? hfound)
  rw [hline, hx, Option.some.injEq] at hown
  exact hown.symm

theorem outgoing_mem_entries_iff {id : Int64} (hkind : x.kind = .vertex) (hid : x.id = some id)
    (he : g.element? q = some e) :
    (Relation.outgoing, q) ∈ g.entries x ↔ e.kind = .edge ∧ e.outV = some id := by
  rw [entries_of_vertex h hkind hid]
  simp [mem_linesWhere_iff, he]

theorem incoming_mem_entries_iff {id : Int64} (hkind : x.kind = .vertex) (hid : x.id = some id)
    (he : g.element? q = some e) : (Relation.incoming, q) ∈ g.entries x ↔
      e.kind = .edge ∧ e.outV ≠ none ∧ id ∈ e.targets := by
  rw [entries_of_vertex h hkind hid]
  simp [mem_linesWhere_iff, he]

theorem origin_mem_entries_iff {id : Int64} (hx : g.element? p = some x) (hkind : x.kind = .vertex)
    (hid : x.id = some id) (hedge : e.kind = .edge) :
    (Relation.origin, p) ∈ g.entries e ↔ e.outV = some id := by
  have hresolve := resolve?_eq_vertex_iff h hx hkind
  simp only [entries, neighbors_of_edge hedge, List.map_append, List.map_map, List.mem_append,
    List.mem_map, Option.mem_toList, Option.bind_eq_some_iff, Function.comp_apply, Neighbor.entry,
    Prod.mk.injEq, reduceCtorEq, false_and, and_false, exists_false, or_false, true_and]
  constructor
  · rintro ⟨found, ⟨id', houtV, hfound⟩, hline⟩
    obtain rfl := eq_of_resolve? h hx hfound hline
    rw [houtV, ← hid, (hresolve id').mp hfound]
  · intro houtV
    exact ⟨x, ⟨id, houtV, (hresolve id).mpr hid⟩, lineNumber_of_element? h hx⟩

theorem target_mem_entries_iff {id : Int64} (hx : g.element? p = some x) (hkind : x.kind = .vertex)
    (hid : x.id = some id) (hedge : e.kind = .edge) :
    (Relation.target, p) ∈ g.entries e ↔ id ∈ e.targets := by
  have hresolve := resolve?_eq_vertex_iff h hx hkind
  simp only [entries, neighbors_of_edge hedge, List.map_append, List.map_map, List.mem_append,
    List.mem_map, List.mem_filterMap, Function.comp_apply, Neighbor.entry, Prod.mk.injEq,
    reduceCtorEq, false_and, and_false, exists_false, false_or, true_and]
  constructor
  · rintro ⟨found, ⟨id', htarget, hfound⟩, hline⟩
    obtain rfl := eq_of_resolve? h hx hfound hline
    have hsame : id' = id := Option.some.inj (((hresolve id').mp hfound).symm.trans hid)
    rwa [← hsame]
  · intro htarget
    exact ⟨x, ⟨id, htarget, (hresolve id).mpr hid⟩, lineNumber_of_element? h hx⟩

theorem not_mem_entries_of_outV (hkind : x.kind = .vertex) (he : g.element? q = some e)
    (houtV : e.outV = none) (relation : Relation) : (relation, q) ∉ g.entries x := by
  cases hid : x.id with
  | none => simp [entries, neighbors, hkind, incident, hid]
  | some id =>
    rw [entries_of_vertex h hkind hid]
    simp [mem_linesWhere_iff, he, houtV]

end Incidence

/-- Neighborhoods are what the elements say, for records of the graph and for others. A vertex and an
edge of the graph see each other alike, by their lines. -/
structure NeighborsExact (g : Graph) : Prop where
  ascending (p : Element → Prop) [DecidablePred p] : (g.linesWhere p).Pairwise (· < ·)
  mem_lines_iff (p : Element → Prop) [DecidablePred p] (i : Nat) :
    i ∈ g.linesWhere p ↔ ∃ e, g.element? i = some e ∧ p e
  vertex (r : Element) (id : Int64) (hkind : r.kind = .vertex) (hid : r.id = some id) :
    g.entries r =
      (g.linesWhere fun e => e.kind = .edge ∧ e.outV = some id).map (Relation.outgoing, ·) ++
        (g.linesWhere fun e => e.kind = .edge ∧ e.outV ≠ none ∧ id ∈ e.targets).map
          (Relation.incoming, ·)
  vertex_without_id (r : Element) (hkind : r.kind = .vertex) (hid : r.id = none) :
    g.neighbors r = []
  edge (r : Element) (hkind : r.kind = .edge) : g.neighbors r =
    (r.outV.bind g.resolve?).toList.map (⟨.origin, ·⟩) ++
      (r.targets.filterMap g.resolve?).map (⟨.target, ·⟩)
  resolve (id : Int64) (e : Element) : g.resolve? id = some e ↔ g.Resolves id e
  own (r : Element) (n : Neighbor) (h : n ∈ g.neighbors r) :
    g.element? n.element.lineNumber = some n.element
  outgoing_iff_origin (x e : Element) (p q : Nat) (hx : g.element? p = some x)
    (hkind : x.kind = .vertex) (hid : x.id ≠ none) (he : g.element? q = some e)
    (hedge : e.kind = .edge) (houtV : e.outV ≠ none) :
    (Relation.outgoing, q) ∈ g.entries x ↔ (Relation.origin, p) ∈ g.entries e
  incoming_iff_target (x e : Element) (p q : Nat) (hx : g.element? p = some x)
    (hkind : x.kind = .vertex) (hid : x.id ≠ none) (he : g.element? q = some e)
    (hedge : e.kind = .edge) (houtV : e.outV ≠ none) :
    (Relation.incoming, q) ∈ g.entries x ↔ (Relation.target, p) ∈ g.entries e
  without_origin (x e : Element) (q : Nat) (hkind : x.kind = .vertex) (he : g.element? q = some e)
    (hedge : e.kind = .edge) (houtV : e.outV = none) (relation : Relation) :
    (relation, q) ∉ g.entries x

theorem neighborsExact_of_ofLines (h : ofLines o lines = .ok g) : g.NeighborsExact where
  ascending _ := List.pairwise_findIdxs
  mem_lines_iff _ _ _ := mem_linesWhere_iff
  vertex _ _ hkind hid := entries_of_vertex h hkind hid
  vertex_without_id r hkind hid := by simp only [neighbors, hkind, incident, hid]
  edge _ hkind := neighbors_of_edge hkind
  resolve id e := resolve?_eq_some_iff (exact_of_ofLines h) id e
  own _ _ hn := element?_lineNumber_of_owns h (owns_of_mem_neighbors hn)
  outgoing_iff_origin x e p q hx hkind hid he hedge _ := by
    obtain ⟨id, hid⟩ := Option.ne_none_iff_exists'.mp hid
    rw [outgoing_mem_entries_iff h hkind hid he, origin_mem_entries_iff h hx hkind hid hedge]
    exact and_iff_right hedge
  incoming_iff_target x e p q hx hkind hid he hedge houtV := by
    obtain ⟨id, hid⟩ := Option.ne_none_iff_exists'.mp hid
    rw [incoming_mem_entries_iff h hkind hid he, target_mem_entries_iff h hx hkind hid hedge]
    exact (and_iff_right hedge).trans (and_iff_right houtV)
  without_origin _ _ _ hkind he _ houtV := not_mem_entries_of_outV h hkind he houtV

theorem neighborsExact_shared_id : ∃ g, ofLines {}
    ["\x7b\"type\":\"vertex\",\"id\":7\x7d",
      "\x7b\"type\":\"edge\",\"id\":7,\"outV\":7,\"inVs\":[7,7,8]\x7d",
      "\x7b\"type\":\"edge\",\"id\":8,\"outV\":8,\"inV\":7\x7d",
      "\x7b\"type\":\"edge\",\"inV\":7\x7d"] = .ok g ∧ g.NeighborsExact := by
  refine (exists_ofLines ?_ ?_).imp fun g hg => ⟨hg, neighborsExact_of_ofLines hg⟩
  · decide +kernel
  · decide +kernel

end Graph
end Lsif
