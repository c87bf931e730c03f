import Lsif.Proofs.Element.Marker
import Lsif.Proofs.Graph.Neighbors
import Lsif.Proofs.Graph.Options

/-! What is for display has no part in the graph. Two dumps whose records differ in it alone are indented
alike and have the same tables, however their texts are written. -/

namespace Lsif

namespace Element

def bare (e : Element) : Element :=
  { e with uri := none, start := none, stop := none, identifier := none, name := none }

@[simp] theorem kind_bare (e : Element) : e.bare.kind = e.kind := rfl

@[simp] theorem id_bare (e : Element) : e.bare.id = e.id := rfl

structure Agrees (e e' : Element) : Prop where
  kind : e.kind = e'.kind
  id : e.id = e'.id
  label : e.label = e'.label
  outV : e.outV = e'.outV
  inV : e.inV = e'.inV
  inVs : e.inVs = e'.inVs
  eventKind : e.eventKind = e'.eventKind

theorem agrees_iff_bare_eq {e e' : Element} (hline : e.lineNumber = e'.lineNumber) :
    e.Agrees e' ↔ e.bare = e'.bare := by
  constructor
  · intro h
    rw [bare, h.kind, h.id, h.label, h.outV, h.inV, h.inVs, h.eventKind, hline]
    rfl
  · intro h
    simp only [bare, mk.injEq, true_and] at h
    obtain ⟨hkind, hid, hlabel, houtV, hinV, hinVs, heventKind, _⟩ := h
    exact ⟨hkind, hid, hlabel, houtV, hinV, hinVs, heventKind⟩

theorem Agrees.marker?_eq {e e' : Element} (h : e.Agrees e') : e.marker? = e'.marker? := by
  rw [marker?, marker?, h.label, h.eventKind]

end Element

def Neighbor.bare (n : Neighbor) : Neighbor := { n with element := n.element.bare }

namespace Index

def bare (ix : Index) : Index := { ix with elements := ix.elements.map Element.bare }

@[simp] theorem size_elements_bare (ix : Index) : ix.bare.elements.size = ix.elements.size :=
  Array.size_map ..

@[simp] theorem declared_bare (ix : Index) (k : Kind) : ix.bare.declared k = ix.declared k := by
  cases k <;> rfl

theorem enter_bare (ix : Index) (e : Element) : ix.bare.enter e.bare = (ix.enter e).bare := by
  simp only [bare, enter, Array.map_push, Array.size_map]
  rfl

/-- A record goes into the index in the same way without what is displayed of it, since its id and its ends
decide alone. -/
theorem insert_bare (ix : Index) (e : Element) :
    (ix.bare.insert e.bare).value = (ix.insert e).value.map bare := by
  rw [value_insert, value_insert, enter_bare, size_elements_bare, declared_bare, Element.kind_bare,
    Element.id_bare]
  cases declare (ix.declared e.kind) e.id ix.elements.size _ <;> rfl

end Index

namespace Graph

open Indentation

def bare (g : Graph) : Graph := { g with toIndex := g.toIndex.bare }

theorem indexNext_bare (index : Index) (r : Option Element) :
    indexNext index.bare (r.map Element.bare) = (indexNext index r).map Index.bare := by
  cases r with
  | none =>
    rw [Option.map_none, indexNext_none, indexNext_none, Index.size_elements_bare]
    rfl
  | some e => rw [Option.map_some, indexNext_some, indexNext_some, Index.insert_bare]

theorem indexRecords_bare (rs : List (Option Element)) :
    indexRecords (rs.map (Option.map Element.bare)) = (indexRecords rs).map Index.bare := by
  induction rs using List.reverseRecOn with
  | nil =>
    change Except.ok Index.empty = Except.ok Index.empty.bare
    rw [Index.bare, Index.empty, Array.map_empty]
  | append_singleton rs r ih =>
    rw [List.map_append, List.map_singleton, indexRecords_concat, indexRecords_concat, ih]
    cases indexRecords rs with
    | error fault => rfl
    | ok index => exact indexNext_bare index r

variable (g : Graph)

theorem element?_bare (line : Nat) : g.bare.element? line = (g.element? line).map Element.bare :=
  Array.getElem?_map ..

theorem resolve?_bare (id : Int64) : g.bare.resolve? id = (g.resolve? id).map Element.bare := by
  have hfound (table : LineTable) :
      table[id]?.bind g.bare.element? = (table[id]?.bind g.element?).map Element.bare := by
    rw [Option.map_bind]
    exact congrArg _ (funext g.element?_bare)
  have hvertex : g.bare.vertex? id = (g.vertex? id).map Element.bare := hfound g.vertices
  have hedge : g.bare.edge? id = (g.edge? id).map Element.bare := hfound g.edges
  rw [resolve?, resolve?, hvertex, hedge, Option.map_or]

theorem filterMap_element?_bare (lines : List Nat) :
    lines.filterMap g.bare.element? = (lines.filterMap g.element?).map Element.bare := by
  rw [List.map_filterMap]
  exact congrArg (List.filterMap · lines) (funext g.element?_bare)

theorem ends_bare (e : Element) : g.bare.ends e.bare = (g.ends e).map Neighbor.bare := by
  have horigin : e.outV.bind g.bare.resolve? = (e.outV.bind g.resolve?).map Element.bare := by
    rw [Option.map_bind]
    exact congrArg _ (funext g.resolve?_bare)
  have htargets :
      e.targets.filterMap g.bare.resolve? = (e.targets.filterMap g.resolve?).map Element.bare := by
    rw [List.map_filterMap]
    exact congrArg (List.filterMap · e.targets) (funext g.resolve?_bare)
  change ((e.outV.bind g.bare.resolve?).map _).toList ++
    (e.targets.filterMap g.bare.resolve?).map _ = _
  rw [horigin, htargets, ends, List.map_append, ← Option.toList_map, Option.map_map, Option.map_map,
    List.map_map, List.map_map]
  rfl

theorem incident_bare (e : Element) : g.bare.incident e.bare = (g.incident e).map Neighbor.bare := by
  have houtgoing (id : Int64) :
      g.bare.outgoingEdges id = (g.outgoingEdges id).map Element.bare := g.filterMap_element?_bare _
  have hincoming (id : Int64) :
      g.bare.incomingEdges id = (g.incomingEdges id).map Element.bare := g.filterMap_element?_bare _
  cases hid : e.id with
  | none => simp only [incident, Element.id_bare, hid, List.map_nil]
  | some id =>
    simp only [incident, Element.id_bare, hid, houtgoing, hincoming, List.map_append, List.map_map]
    rfl

theorem neighbors_bare (e : Element) :
    g.bare.neighbors e.bare = (g.neighbors e).map Neighbor.bare := by
  cases hkind : e.kind with
  | vertex => simp only [neighbors, Element.kind_bare, hkind, incident_bare]
  | edge => simp only [neighbors, Element.kind_bare, hkind, ends_bare]

theorem map_entry_neighbors_bare (e : Element) :
    (g.bare.neighbors e.bare).map Neighbor.entry = (g.neighbors e).map Neighbor.entry := by
  rw [neighbors_bare, List.map_map]
  rfl

theorem map_neighborsAtLine?_bare (line : Nat) :
    (g.bare.neighborsAtLine? line).map (List.map Neighbor.entry) =
      (g.neighborsAtLine? line).map (List.map Neighbor.entry) := by
  rw [neighborsAtLine?, element?_bare, neighborsAtLine?, Option.map_map, Option.map_map,
    Option.map_map]
  exact congrArg (Option.map · _) (funext g.map_entry_neighbors_bare)

theorem map_neighborsOfId?_bare (id : Int64) :
    (g.bare.neighborsOfId? id).map (List.map Neighbor.entry) =
      (g.neighborsOfId? id).map (List.map Neighbor.entry) := by
  rw [neighborsOfId?, resolve?_bare, neighborsOfId?, Option.map_map, Option.map_map,
    Option.map_map]
  exact congrArg (Option.map · _) (funext g.map_entry_neighbors_bare)

theorem statistics_bare : g.bare.statistics = g.statistics := by
  have hlabels (lines : List Nat) : (lines.filterMap g.bare.element?).map Element.label =
      (lines.filterMap g.element?).map Element.label := by
    rw [filterMap_element?_bare, List.map_map]
    rfl
  have hsize : g.bare.elements.size = g.elements.size := Array.size_map ..
  simp only [statistics, statistics.countLabels, hlabels, hsize]
  rfl

structure SameTables (g g' : Graph) : Prop where
  vertices : g.vertices = g'.vertices
  edges : g.edges = g'.edges
  outgoing : g.outgoing = g'.outgoing
  incoming : g.incoming = g'.incoming
  statistics : g.statistics = g'.statistics
  neighborsAtLine (line : Nat) : (g.neighborsAtLine? line).map (List.map Neighbor.entry) =
    (g'.neighborsAtLine? line).map (List.map Neighbor.entry)
  neighborsOfId (id : Int64) : (g.neighborsOfId? id).map (List.map Neighbor.entry) =
    (g'.neighborsOfId? id).map (List.map Neighbor.entry)

theorem sameTables_of_bare {g g' : Graph} (h : g.toIndex.bare = g'.toIndex.bare) :
    SameTables g g' := by
  have hbare : SameIndex g.bare g'.bare := sameIndex_of_toIndex h
  refine ⟨hbare.vertices, hbare.edges, hbare.outgoing, hbare.incoming, ?_, fun line => ?_,
    fun id => ?_⟩
  · rw [← statistics_bare g, hbare.statistics, statistics_bare]
  · rw [← map_neighborsAtLine?_bare, hbare.neighborsAtLine?, map_neighborsAtLine?_bare]
  · rw [← map_neighborsOfId?_bare, hbare.neighborsOfId?, map_neighborsOfId?_bare]

structure Reads (text : String) (line : Nat) (e : Element) : Prop where
  object : ∃ members, Json.read? text = some (.object members)
  record : Element.decode? text line = some e

/-- Line by line both dumps write objects, whose records differ in what is for display alone. -/
structure Alike (lines lines' : List String) : Prop where
  length : lines.length = lines'.length
  line (i : Nat) (text text' : String) (h : lines[i]? = some text) (h' : lines'[i]? = some text') :
    ∃ e e', Reads text i e ∧ Reads text' i e' ∧ e.Agrees e'

structure SameButDisplay (lines lines' : List String) (g g' : Graph) : Prop extends
    SameTables g g' where
  spaces (i : Nat) (text text' : String) (h : lines[i]? = some text) (h' : lines'[i]? = some text') :
    ∃ count, g.document.lineText? i = some (Text.spaces count ++ text) ∧
      g'.document.lineText? i = some (Text.spaces count ++ text')

def alikeAt (line : Nat) (text text' : String) : Bool :=
  (Json.read? text).any Json.isObject && (Json.read? text').any Json.isObject &&
    (Element.decode? text line).isSome &&
    (Element.decode? text line).map Element.bare = (Element.decode? text' line).map Element.bare

theorem exists_agrees_of_alikeAt {line : Nat} {text text' : String}
    (h : alikeAt line text text' = true) :
    ∃ e e', Reads text line e ∧ Reads text' line e' ∧ e.Agrees e' := by
  simp only [alikeAt, Bool.and_eq_true, decide_eq_true_eq] at h
  obtain ⟨⟨⟨hobject, hobject'⟩, hsome⟩, hbare⟩ := h
  obtain ⟨e, he⟩ := Option.isSome_iff_exists.mp hsome
  rw [he, Option.map_some, eq_comm] at hbare
  obtain ⟨e', he', hsame⟩ := Option.map_eq_some_iff.mp hbare
  have hline : e.lineNumber = e'.lineNumber :=
    (lineNumber_of_decode? he).trans (lineNumber_of_decode? he').symm
  exact ⟨e, e', ⟨Json.exists_of_any_isObject hobject, he⟩,
    ⟨Json.exists_of_any_isObject hobject', he'⟩, (Element.agrees_iff_bare_eq hline).mpr hsame.symm⟩

section Alike

variable {lines lines' : List String} (h : Alike lines lines')
include h

theorem Alike.ext {α : Type} {as as' : List α} {f f' : Nat → String → α}
    (has : ∀ i, as[i]? = lines[i]?.map (f i)) (has' : ∀ i, as'[i]? = lines'[i]?.map (f' i))
    (hsame : ∀ i text text' e e', Reads text i e → Reads text' i e' → e.Agrees e' →
      f i text = f' i text') : as = as' := by
  apply List.ext_getElem?
  intro i
  rw [has, has']
  rcases Nat.lt_or_ge i lines.length with hi | hi
  · have htext : lines[i]? = some lines[i] := List.getElem?_eq_getElem hi
    have hi' : i < lines'.length := h.length ▸ hi
    have htext' : lines'[i]? = some lines'[i] := List.getElem?_eq_getElem hi'
    obtain ⟨e, e', he, he', hagree⟩ := h.line i _ _ htext htext'
    rw [htext, htext', Option.map_some, Option.map_some, hsame i _ _ e e' he he' hagree]
  · have hi' : lines'.length ≤ i := h.length ▸ hi
    rw [List.getElem?_eq_none hi, List.getElem?_eq_none hi', Option.map_none, Option.map_none]

theorem Alike.readings_eq : readings lines = readings lines' := by
  refine h.ext (fun i => List.getElem?_map ..) (fun i => List.getElem?_map ..) ?_
  intro i text text' e e' he he' hagree
  obtain ⟨members, hread⟩ := he.object
  obtain ⟨members', hread'⟩ := he'.object
  rw [Element.ofText?_eq_marker? hread he.record, Element.ofText?_eq_marker? hread' he'.record,
    hagree.marker?_eq]

theorem Alike.records_eq : (records lines).map (Option.map Element.bare) =
    (records lines').map (Option.map Element.bare) := by
  have hrecords (texts : List String) (i : Nat) :
      ((records texts).map (Option.map Element.bare))[i]? =
        texts[i]?.map fun text => (Element.decode? text i).map Element.bare := by
    rw [List.getElem?_map, getElem?_records, Option.map_map]
    rfl
  refine h.ext (hrecords lines) (hrecords lines') ?_
  intro i text text' e e' he he' hagree
  have hline : e.lineNumber = e'.lineNumber :=
    (lineNumber_of_decode? he.record).trans (lineNumber_of_decode? he'.record).symm
  have hbare : e.bare = e'.bare := (Element.agrees_iff_bare_eq hline).mp hagree
  rw [he.record, he'.record, Option.map_some, Option.map_some, hbare]

theorem Alike.spaces {ds : List Int} (hds : ds.length = lines.length) (t : Terminator) (i : Nat)
    (text text' : String) (htext : lines[i]? = some text) (htext' : lines'[i]? = some text') :
    ∃ count, (Document.ofTexts t (indentAll ds lines)).lineText? i =
        some (Text.spaces count ++ text) ∧
      (Document.ofTexts t (indentAll ds lines')).lineText? i = some (Text.spaces count ++ text') := by
  obtain ⟨depth, hdepth, hline⟩ := getElem?_indentAll hds htext
  obtain ⟨depth', hdepth', hline'⟩ := getElem?_indentAll (hds.trans h.length) htext'
  obtain rfl : depth = depth' := Option.some.inj (hdepth.symm.trans hdepth')
  refine ⟨depth.toNat, ?_, ?_⟩
  · rw [Document.lineText?_ofTexts, hline]
    rfl
  · rw [Document.lineText?_ofTexts, hline']
    rfl

end Alike

/-- Dumps that differ in what is for display alone have graphs that differ in it alone, or have none for the
same reason. -/
theorem sameButDisplay_or_sameFault (o : Options) {lines lines' : List String}
    (h : Alike lines lines') :
    (∃ g g', ofLines o lines = .ok g ∧ ofLines o lines' = .ok g' ∧
      SameButDisplay lines lines' g g') ∨
      ∃ fault, ofLines o lines = .error fault ∧ ofLines o lines' = .error fault := by
  have hdepths : depths o.indentation lines' = depths o.indentation lines := by
    rw [depths, depths, h.readings_eq]
  have hrecords : (indexRecords (records lines)).map Index.bare =
      (indexRecords (records lines')).map Index.bare := by
    rw [← indexRecords_bare, ← indexRecords_bare, h.records_eq]
  rw [ofLines_eq, ofLines_eq, hdepths]
  cases hds : depths o.indentation lines with
  | error fault => exact .inr ⟨fault, rfl, rfl⟩
  | ok ds =>
    obtain ⟨index, index', hindex, hindex', hbare⟩ | ⟨fault, hfault, hfault'⟩ :=
      Pass.exists_of_map_eq hrecords
    · rw [hindex, hindex']
      exact .inl ⟨_, _, rfl, rfl, sameTables_of_bare hbare,
        h.spaces (length_of_depths hds) o.terminator⟩
    · rw [hfault, hfault']
      exact .inr ⟨fault, rfl, rfl⟩

/-- Members in another order, keys and kinds written in other ways, and members that only one of the texts
has. -/
theorem sameButDisplay_or_sameFault_rewritten :
    let lines := ["\x7b\"type\":\"vertex\",\"id\":1,\"label\":\"$event\",\"kind\":\"begin\"\x7d",
      "\x7b\"type\":\"edge\",\"id\":1,\"outV\":1,\"inVs\":[1,2],\"uri\":\"a\"\x7d",
      "\x7b\"type\":\"vertex\",\"id\":2,\"label\":\"$event\",\"kind\":\"end\"\x7d"]
    let lines' := [
      "\x7b\"kind\":\"begin\",\"name\":[7],\"label\":\"\\u0024event\",\"id\":1,\"type\":\"vertex\"\x7d",
      " \x7b\"x\":\x7b\x7d,\"inVs\":[1,2],\"outV\":1,\"id\":1,\"type\":\x7b\"edge\":null\x7d\x7d",
      "\x7b\"\\u0074ype\":\"vertex\",\"end\":[0],\"id\":2,\"label\":\"$event\",\"kind\":\"end\"\x7d"]
    Alike lines lines' ∧
      ((∃ g g', ofLines {} lines = .ok g ∧ ofLines {} lines' = .ok g' ∧
        SameButDisplay lines lines' g g') ∨
        ∃ fault, ofLines {} lines = .error fault ∧ ofLines {} lines' = .error fault) := by
  intro lines lines'
  have halike : Alike lines lines' := by
    refine ⟨rfl, fun i text text' h h' => ?_⟩
    match i with
    | 0 | 1 | 2 =>
      cases h
      cases h'
      exact exists_agrees_of_alikeAt (by decide +kernel)
    | _ + 3 => cases h
  exact ⟨halike, sameButDisplay_or_sameFault {} halike⟩

end Graph

end Lsif
