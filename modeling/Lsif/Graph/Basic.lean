import Lsif.Document.Search
import Lsif.Graph.Index

/-! The graph of a dump: its document, its records and the index over them. -/

namespace Lsif

structure Graph extends Index where
  /-- The indented lines, of which line `i` writes element `i`. -/
  document : Document

namespace Graph

def element? (g : Graph) (line : Nat) : Option Element :=
  g.elements[line]?

def elementAt? (g : Graph) (offset : Nat) : Option Element :=
  (g.document.lineAt? offset).bind g.element?

def vertex? (g : Graph) (id : Int64) : Option Element :=
  g.vertices[id]?.bind g.element?

def edge? (g : Graph) (id : Int64) : Option Element :=
  g.edges[id]?.bind g.element?

def resolve? (g : Graph) (id : Int64) : Option Element :=
  (g.vertex? id).or (g.edge? id)

def outgoingEdges (g : Graph) (id : Int64) : List Element :=
  (g.outgoing.getD id #[]).toList.filterMap g.element?

def incomingEdges (g : Graph) (id : Int64) : List Element :=
  (g.incoming.getD id #[]).toList.filterMap g.element?

def linesOf (table : LineTable) : List Nat :=
  (table.toList.map (·.2)).mergeSort

def vertexLines (g : Graph) : List Nat := linesOf g.vertices

def edgeLines (g : Graph) : List Nat := linesOf g.edges

def render (g : Graph) : String := g.document.render

end Graph

end Lsif
