import Lsif.Graph.Neighbors
import Lsif.Graph.Statistics
import Lsif.Proofs.Graph.Build

/-! What the options of a build do not decide. The index comes from the records alone, so indentation and
terminators shape the document and nothing else. Whether lines are decoded in turn or side by side is not
seen at all, not even in the notices. -/

namespace Lsif.Graph

open Indentation

/-- The two graphs have the same elements and tables, and so give the same answers to every query that does
not ask for the text. -/
structure SameIndex (g g' : Graph) : Prop where
  elements : g.elements = g'.elements
  vertices : g.vertices = g'.vertices
  edges : g.edges = g'.edges
  outgoing : g.outgoing = g'.outgoing
  incoming : g.incoming = g'.incoming
  vertex? (id : Int64) : g.vertex? id = g'.vertex? id
  edge? (id : Int64) : g.edge? id = g'.edge? id
  resolve? (id : Int64) : g.resolve? id = g'.resolve? id
  outgoingEdges (id : Int64) : g.outgoingEdges id = g'.outgoingEdges id
  incomingEdges (id : Int64) : g.incomingEdges id = g'.incomingEdges id
  neighbors (record : Element) : g.neighbors record = g'.neighbors record
  neighborsOfId? (id : Int64) : g.neighborsOfId? id = g'.neighborsOfId? id
  neighborsAtLine? (line : Nat) : g.neighborsAtLine? line = g'.neighborsAtLine? line
  statistics : g.statistics = g'.statistics

theorem sameIndex_of_toIndex {g g' : Graph} (h : g.toIndex = g'.toIndex) : SameIndex g g' := by
  obtain ⟨index, document⟩ := g
  obtain ⟨index', document'⟩ := g'
  obtain rfl : index = index' := h
  constructor <;> intros <;> rfl

theorem map_toIndex_ofLines {o : Options} {lines : List String} {ds : List Int}
    (h : depths o.indentation lines = .ok ds) :
    (ofLines o lines).map toIndex = indexRecords (records lines) := by
  rw [ofLines_eq, h, Pass.ok_bind]
  cases indexRecords (records lines) <;> rfl

/-- If the indentation of the lines succeeds under both options, so does the build under both or under
neither: with the same index, or with the same fault. -/
theorem sameIndex_or_sameFault {o o' : Options} {lines : List String}
    {indented indented' : Array String}
    (h : (indent o.indentation lines).outcome.2 = .ok indented)
    (h' : (indent o'.indentation lines).outcome.2 = .ok indented') :
    (∃ g g', ofLines o lines = .ok g ∧ ofLines o' lines = .ok g' ∧ SameIndex g g') ∨
      ∃ fault, ofLines o lines = .error fault ∧ ofLines o' lines = .error fault := by
  obtain ⟨ds, hds, _⟩ := indent_eq_ok_iff.mp h
  obtain ⟨ds', hds', _⟩ := indent_eq_ok_iff.mp h'
  have hsame : (ofLines o lines).map toIndex = (ofLines o' lines).map toIndex :=
    (map_toIndex_ofLines hds).trans (map_toIndex_ofLines hds').symm
  cases hbuild : ofLines o lines with
  | ok g =>
    rw [hbuild, eq_comm] at hsame
    obtain ⟨g', hbuild', hindex⟩ := Pass.map_eq_ok_iff.mp hsame
    exact .inl ⟨g, g', rfl, hbuild', sameIndex_of_toIndex hindex.symm⟩
  | error fault =>
    rw [hbuild] at hsame
    cases hbuild' : ofLines o' lines with
    | ok g' =>
      rw [hbuild'] at hsame
      cases hsame
    | error fault' =>
      rw [hbuild'] at hsame
      cases hsame
      exact .inr ⟨fault, rfl, rfl⟩

theorem sameIndex_or_sameFault_negative_step :
    let o : Options := { indentation := { step := 7 }, terminator := .crlf }
    let o' : Options := { indentation := { step := 18446744073709551613, nesting := .lenient } }
    let lines := ["\x7b\"type\":\"vertex\",\"label\":\"$event\",\"kind\":\"begin\"\x7d",
      "\x7b\"type\":\"vertex\",\"id\":1\x7d",
      "\x7b\"type\":\"edge\",\"id\":1,\"outV\":1,\"inV\":1\x7d",
      "\x7b\"type\":\"vertex\",\"label\":\"$event\",\"kind\":\"end\"\x7d"]
    ∃ indented indented', (indent o.indentation lines).outcome.2 = .ok indented ∧
      (indent o'.indentation lines).outcome.2 = .ok indented' ∧
      ((∃ g g', ofLines o lines = .ok g ∧ ofLines o' lines = .ok g' ∧ SameIndex g g') ∨
        ∃ fault, ofLines o lines = .error fault ∧ ofLines o' lines = .error fault) := by
  intro o o' lines
  have hwide : depths o.indentation lines = .ok [7, 7, 7, 0] := by decide +kernel
  have hnegative : depths o'.indentation lines = .ok [-3, -3, -3, 0] := by decide +kernel
  have hindent := indent_eq_ok_iff.mpr ⟨_, hwide, rfl⟩
  have hindent' := indent_eq_ok_iff.mpr ⟨_, hnegative, rfl⟩
  exact ⟨_, _, hindent, hindent', sameIndex_or_sameFault hindent hindent'⟩

theorem outcome_build_sideBySide (o : Options) (lines : List String) :
    (build { o with parallel := true } lines).outcome =
      (build { o with parallel := false } lines).outcome := by
  have hindex : indexLines true = indexLines false := by
    funext indented
    rw [indexLines_eq, indexLines_eq]
  rw [build_eq, build_eq, hindex]

end Lsif.Graph
