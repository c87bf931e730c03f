import Lsif.Graph.Basic

/-! The neighborhood of a record: one step along the edges of the graph. -/

namespace Lsif

inductive Relation where
  | origin
  | target
  | outgoing
  | incoming
deriving DecidableEq, Repr

structure Neighbor where
  relation : Relation
  element : Element
deriving DecidableEq, Repr

namespace Graph

def ends (g : Graph) (e : Element) : List Neighbor :=
  ((e.outV.bind g.resolve?).map fun found => ⟨.origin, found⟩).toList ++
    (e.targets.filterMap g.resolve?).map fun found => ⟨.target, found⟩

def incident (g : Graph) (e : Element) : List Neighbor :=
  match e.id with
  | some id =>
    (g.outgoingEdges id).map (fun edge => ⟨.outgoing, edge⟩) ++
      (g.incomingEdges id).map fun edge => ⟨.incoming, edge⟩
  | none => []

def neighbors (g : Graph) (e : Element) : List Neighbor :=
  match e.kind with
  | .edge => g.ends e
  | .vertex => g.incident e

def neighborsOfId? (g : Graph) (id : Int64) : Option (List Neighbor) :=
  (g.resolve? id).map g.neighbors

def neighborsAtLine? (g : Graph) (line : Nat) : Option (List Neighbor) :=
  (g.element? line).map g.neighbors

def neighborsAtOffset? (g : Graph) (offset : Nat) : Option (List Neighbor) :=
  (g.elementAt? offset).map g.neighbors

end Graph

end Lsif
