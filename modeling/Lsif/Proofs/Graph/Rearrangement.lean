import Lsif.Proofs.Graph.Neighbors
import Lsif.Proofs.Graph.Statistics
import Mathlib.Data.List.FinRange

/-! The lines of a dump in another order. The records move with their lines, and what the index says of
them stays the same: only line numbers and the indentation tell the two orders apart. -/

namespace Lsif

def Element.onLine (e : Element) (line : Nat) : Element := { e with lineNumber := line }

namespace Element

@[simp] theorem kind_onLine (e : Element) (line : Nat) : (e.onLine line).kind = e.kind := rfl

@[simp] theorem id_onLine (e : Element) (line : Nat) : (e.onLine line).id = e.id := rfl

@[simp] theorem origins_onLine (e : Element) (line : Nat) : (e.onLine line).origins = e.origins := rfl

@[simp] theorem destinations_onLine (e : Element) (line : Nat) :
    (e.onLine line).destinations = e.destinations := rfl

theorem Describes.onLine {values : FieldValues} {line : Nat} {e : Element}
    (h : Describes values line e) (other : Nat) : Describes values other (e.onLine other) :=
  { h with lineNumber := rfl }

theorem ofFields?_onLine (line other : Nat) (values : FieldValues) :
    ofFields? other values = (ofFields? line values).map (·.onLine other) := by
  refine Option.ext fun e => ?_
  rw [Option.map_eq_some_iff, ofFields?_eq_some_iff]
  simp only [ofFields?_eq_some_iff]
  constructor
  · intro h
    exact ⟨e.onLine line, h.onLine line, congrArg e.onLine h.lineNumber.symm⟩
  · rintro ⟨e', h, rfl⟩
    exact h.onLine other

theorem decode?_onLine (text : String) (line other : Nat) :
    decode? text other = (decode? text line).map (·.onLine other) := by
  have hvalue (value : Json) : ofJson? other value = (ofJson? line value).map (·.onLine other) := by
    rw [ofJson?, ofJson?, Option.map_bind]
    exact congrArg _ (funext fun values => ofFields?_onLine line other values)
  rw [decode?, decode?, Option.map_bind]
  exact congrArg _ (funext hvalue)

end Element

namespace Graph

open Indentation

variable {o : Options} {lines lines' : List String} {g g' : Graph}

theorem mem_outgoingEdges_iff (h : g.Exact) (id : Int64) (e : Element) :
    e ∈ g.outgoingEdges id ↔ g.Owns e ∧ id ∈ e.origins := by
  rw [outgoingEdges_eq h, List.mem_filter, decide_eq_true_eq, mem_elements_iff, Owns]

theorem mem_incomingEdges_iff (h : g.Exact) (id : Int64) (e : Element) :
    e ∈ g.incomingEdges id ↔ g.Owns e ∧ id ∈ e.destinations := by
  rw [incomingEdges_eq h, List.mem_filter, decide_eq_true_eq, mem_elements_iff, Owns]

theorem element?_eq (h : ofLines o lines = .ok g) (j : Fin lines.length) :
    g.element? j = Element.decode? lines[j] j := by
  refine Option.ext fun e => ?_
  rw [element?_eq_some_iff h, Fin.getElem_fin, List.getElem?_eq_getElem j.isLt]
  simp only [Option.some.injEq, exists_eq_left']

theorem owns_onLine_iff (h : ofLines o lines = .ok g) (e : Element) (line : Nat) :
    g.Owns (e.onLine line) ↔ g.element? line = some (e.onLine line) :=
  ⟨element?_lineNumber_of_owns h, fun he => ⟨line, he⟩⟩

theorem map_onLine_elements (h : ofLines o lines = .ok g) :
    g.elements.toList.map (fun e => some (e.onLine 0)) = lines.map (Element.decode? · 0) := by
  have helements := congrArg (List.map (Option.map (Element.onLine · 0))) (elements_of_ofLines h)
  rw [List.map_map] at helements
  refine helements.trans (List.ext_getElem? fun i => ?_)
  rw [List.getElem?_map, getElem?_records, List.getElem?_map, Option.map_map]
  exact congrFun (congrArg _ (funext fun text => (Element.decode?_onLine text i 0).symm)) _

theorem labels_identified (h : ofLines o lines = .ok g) (k : Kind) :
    (g.identified k).map Element.label = ((lines.filterMap (Element.decode? · 0)).filter fun e =>
      e.kind = k ∧ e.id ≠ none).map Element.label := by
  have helements : lines.filterMap (Element.decode? · 0) = g.elements.toList.map (·.onLine 0) := by
    have hdecode := congrArg (List.filterMap id) (map_onLine_elements h)
    rw [List.filterMap_map, List.filterMap_map] at hdecode
    exact hdecode.symm.trans (congrFun List.filterMap_eq_map _)
  rw [helements, List.filter_map, List.map_map]
  rfl

def Moves (p : Fin lines.length ≃ Fin lines'.length) : Prop :=
  ∀ j, lines'[p j] = lines[j]

section Moves

variable {p : Fin lines.length ≃ Fin lines'.length} (h : Moves p)
include h

theorem Moves.symm : Moves p.symm := by
  intro j
  have hj := h (p.symm j)
  simp only [Equiv.apply_symm_apply] at hj
  exact hj.symm

theorem Moves.perm : lines.Perm lines' := by
  have hplaces : ((List.finRange lines.length).map p).Perm (List.finRange lines'.length) := by
    rw [List.perm_ext_iff_of_nodup ((List.nodup_finRange _).map p.injective) (List.nodup_finRange _)]
    intro j
    simp only [List.mem_map, List.mem_finRange, true_and, iff_true]
    exact ⟨p.symm j, p.apply_symm_apply j⟩
  have hget : lines'.get ∘ p = lines.get := funext h
  have hall := hplaces.map lines'.get
  rwa [List.map_map, hget, List.map_get_finRange, List.map_get_finRange] at hall

theorem Moves.decode? (j : Fin lines.length) :
    Element.decode? lines'[p j] (p j) = (Element.decode? lines[j] j).map (·.onLine (p j)) := by
  rw [h j, ← Element.decode?_onLine]

theorem Moves.declares_iff (k : Kind) (id : Int64) (j : Fin lines.length) :
    Declares (records lines') k id (p j) ↔ Declares (records lines) k id j := by
  have hmoved := h.decode? j
  simp only [Fin.getElem_fin] at hmoved
  simp only [Declares, getElem?_records, List.getElem?_eq_getElem j.isLt,
    List.getElem?_eq_getElem (p j).isLt, hmoved, Option.map_some, Option.some.injEq,
    Option.map_eq_some_iff]
  constructor
  · rintro ⟨_, ⟨e, he, rfl⟩, hdeclares⟩
    exact ⟨e, he, hdeclares⟩
  · rintro ⟨e, he, hdeclares⟩
    exact ⟨_, ⟨e, he, rfl⟩, hdeclares⟩

theorem Moves.forall_not_faulty (hclean : ∀ line, ¬Faulty (records lines) line) (line : Nat) :
    ¬Faulty (records lines') line := by
  have hplace {i : Nat} (hi : i < lines'.length) : ∃ j : Fin lines.length, i = p j :=
    ⟨p.symm ⟨i, hi⟩, by rw [Equiv.apply_symm_apply]⟩
  obtain ⟨hdecode, hunique⟩ := (forall_not_faulty_iff lines).mp hclean
  refine (forall_not_faulty_iff lines').mpr ⟨fun i text htext => ?_, fun k id i i' hi hi' => ?_⟩ line
  · obtain ⟨hi, rfl⟩ := List.getElem?_eq_some_iff.mp htext
    obtain ⟨j, rfl⟩ := hplace hi
    obtain ⟨e, he⟩ := hdecode j lines[j] (List.getElem?_eq_getElem j.isLt)
    have hmoved := h.decode? j
    rw [he] at hmoved
    exact ⟨e.onLine (p j), hmoved⟩
  · obtain ⟨j, rfl⟩ := hplace hi.lt_length
    obtain ⟨j', rfl⟩ := hplace hi'.lt_length
    have hsame := hunique k id j j' ((h.declares_iff k id j).mp hi) ((h.declares_iff k id j').mp hi')
    rw [Fin.ext hsame]

theorem Moves.exists_ofLines (hlenient : o.indentation.nesting = .lenient)
    (hbuild : ∃ g, ofLines o lines = .ok g) : ∃ g', ofLines o lines' = .ok g' := by
  obtain ⟨g, hg⟩ := hbuild
  obtain ⟨ds, hds, index, hindex, _⟩ := ofLines_eq_ok_iff.mp hg
  have hread := (exists_depths_iff_of_lenient hlenient lines).mp ⟨ds, hds⟩
  have hclean := (exists_indexRecords_iff (records lines)).mp ⟨index, hindex⟩
  obtain ⟨ds', hds'⟩ := (exists_depths_iff_of_lenient hlenient lines').mpr fun text htext =>
    hread text (h.perm.mem_iff.mpr htext)
  obtain ⟨index', hindex'⟩ := (exists_indexRecords_iff (records lines')).mpr
    (h.forall_not_faulty hclean)
  exact ⟨_, ofLines_eq_ok_iff.mpr ⟨ds', hds', index', hindex', rfl⟩⟩

variable (hg : ofLines o lines = .ok g) (hg' : ofLines o lines' = .ok g')
include hg hg'

theorem Moves.element? (j : Fin lines.length) :
    g'.element? (p j) = (g.element? j).map (·.onLine (p j)) := by
  rw [element?_eq hg', element?_eq hg, h.decode? j]

theorem Moves.owns_iff (j : Fin lines.length) (e : Element) :
    g'.Owns (e.onLine (p j)) ↔ g.Owns (e.onLine j) := by
  rw [owns_onLine_iff hg', owns_onLine_iff hg, h.element? hg hg', Option.map_eq_some_iff]
  constructor
  · rintro ⟨x, hx, hsame⟩
    -- a record knows its line, so taking it back there gives the record itself
    have hown : x.onLine j = x := by
      rw [← lineNumber_of_element? hg hx]
      rfl
    have hback : x.onLine j = e.onLine j := congrArg (·.onLine j) hsame
    rw [hx, ← hown, hback]
  · intro he
    exact ⟨e.onLine j, he, rfl⟩

theorem Moves.declared_iff (k : Kind) (id : Int64) (j : Fin lines.length) :
    (g'.declared k)[id]? = some ↑(p j) ↔ (g.declared k)[id]? = some ↑j := by
  rw [getElem?_declared_iff (indexRecords_of_ofLines hg'),
    getElem?_declared_iff (indexRecords_of_ofLines hg), h.declares_iff]

theorem Moves.statistics_eq : g'.statistics = g.statistics := by
  have hlabels (k : Kind) :
      ((g'.identified k).map Element.label).Perm ((g.identified k).map Element.label) := by
    rw [labels_identified hg', labels_identified hg]
    exact ((h.perm.symm.filterMap _).filter _).map _
  have hsize : g'.elements.size = g.elements.size := by
    rw [size_elements_of_ofLines hg', size_elements_of_ofLines hg, h.perm.length_eq]
  rw [Graph.statistics_eq (exact_of_ofLines hg'), Graph.statistics_eq (exact_of_ofLines hg), hsize,
    LabelCount.ofLabels_eq_of_perm (hlabels .vertex), LabelCount.ofLabels_eq_of_perm (hlabels .edge)]

end Moves

/-- What the index of `g` says of line `j`, that of `g'` says of line `p j`. -/
structure Rearranged {m n : Nat} (p : Fin m ≃ Fin n) (g g' : Graph) : Prop where
  statistics : g'.statistics = g.statistics
  element (j : Fin m) : g'.element? (p j) = (g.element? j).map (·.onLine (p j))
  vertexLine (id : Int64) (j : Fin m) : g'.vertices[id]? = some ↑(p j) ↔ g.vertices[id]? = some ↑j
  edgeLine (id : Int64) (j : Fin m) : g'.edges[id]? = some ↑(p j) ↔ g.edges[id]? = some ↑j
  vertex (id : Int64) (j : Fin m) (e : Element) :
    g'.vertex? id = some (e.onLine (p j)) ↔ g.vertex? id = some (e.onLine j)
  edge (id : Int64) (j : Fin m) (e : Element) :
    g'.edge? id = some (e.onLine (p j)) ↔ g.edge? id = some (e.onLine j)
  outgoing (id : Int64) (j : Fin m) (e : Element) :
    e.onLine (p j) ∈ g'.outgoingEdges id ↔ e.onLine j ∈ g.outgoingEdges id
  incoming (id : Int64) (j : Fin m) (e : Element) :
    e.onLine (p j) ∈ g'.incomingEdges id ↔ e.onLine j ∈ g.incomingEdges id

theorem rearranged_of_ofLines (o : Options) {lines lines' : List String}
    (p : Fin lines.length ≃ Fin lines'.length) (h : ∀ j, lines'[p j] = lines[j]) :
    (o.indentation.nesting = .lenient →
      ((∃ g, ofLines o lines = .ok g) ↔ ∃ g', ofLines o lines' = .ok g')) ∧
    ∀ g g', ofLines o lines = .ok g → ofLines o lines' = .ok g' → Rearranged p g g' := by
  have hmoves : Moves p := h
  refine ⟨fun hlenient => ⟨hmoves.exists_ofLines hlenient, hmoves.symm.exists_ofLines hlenient⟩,
    fun g g' hg hg' => ?_⟩
  have hexact := exact_of_ofLines hg
  have hexact' := exact_of_ofLines hg'
  have howns := hmoves.owns_iff hg hg'
  have hdeclared := hmoves.declared_iff hg hg'
  have hfound (k : Kind) (id : Int64) (j : Fin lines.length) (e : Element) :
      (g'.declared k)[id]?.bind g'.element? = some (e.onLine (p j)) ↔
        (g.declared k)[id]?.bind g.element? = some (e.onLine j) := by
    simp only [bind_declared_iff hexact, bind_declared_iff hexact', howns, Element.kind_onLine,
      Element.id_onLine]
  refine ⟨hmoves.statistics_eq hg hg', hmoves.element? hg hg', hdeclared .vertex, hdeclared .edge,
    hfound .vertex, hfound .edge, fun id j e => ?_, fun id j e => ?_⟩
  · simp only [mem_outgoingEdges_iff hexact, mem_outgoingEdges_iff hexact', howns,
      Element.origins_onLine]
  · simp only [mem_incomingEdges_iff hexact, mem_incomingEdges_iff hexact', howns,
      Element.destinations_onLine]

/-- An event begins below its end in one order and above it in the other, and an edge stands between
the two vertices it names. -/
theorem rearranged_of_ofLines_reversed :
    let o : Options := { indentation := { nesting := .lenient } }
    let lines := ["\x7b\"type\":\"vertex\",\"id\":1,\"label\":\"$event\",\"kind\":\"end\"\x7d",
      "\x7b\"type\":\"edge\",\"id\":1,\"outV\":2,\"inVs\":[1,1]\x7d",
      "\x7b\"type\":\"vertex\",\"id\":2,\"label\":\"$event\",\"kind\":\"begin\"\x7d"]
    ∃ g g', ofLines o lines = .ok g ∧ ofLines o lines.reverse = .ok g' ∧
      Rearranged (Equiv.swap (0 : Fin 3) 2) g g' := by
  intro o lines
  have hmoved := @rearranged_of_ofLines o lines lines.reverse (Equiv.swap (0 : Fin 3) 2)
    (by decide +kernel)
  obtain ⟨g, hg⟩ : ∃ g, ofLines o lines = .ok g := by
    refine exists_ofLines ?_ ?_
    · decide +kernel
    · decide +kernel
  obtain ⟨g', hg'⟩ := (hmoved.1 rfl).mp ⟨g, hg⟩
  exact ⟨g, g', hg, hg', hmoved.2 g g' hg hg'⟩

end Graph

end Lsif
