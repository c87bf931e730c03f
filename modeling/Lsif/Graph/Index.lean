import Std.Data.HashMap
import Lsif.Element.Basic
import Lsif.Pass

/-! The index over the records of a dump. Every table holds lines. Vertices and edges have ids of
their own, so a vertex and an edge may share one. -/

namespace Lsif

abbrev LineTable := Std.HashMap Int64 Nat

/-- Edges by the id of one of their ends, each line once and in ascending order. -/
abbrev EdgeTable := Std.HashMap Int64 (Array Nat)

def EdgeTable.add (table : EdgeTable) (id : Int64) (line : Nat) : EdgeTable :=
  table.alter id fun lines? =>
    let lines := lines?.getD #[]
    some (if lines.back? = some line then lines else lines.push line)

structure Index where
  elements : Array Element
  vertices : LineTable
  edges : LineTable
  outgoing : EdgeTable
  incoming : EdgeTable

namespace Index

def empty : Index := ⟨#[], ∅, ∅, ∅, ∅⟩

def declare (table : LineTable) (id : Option Int64) (line : Nat) (fault : Int64 → Nat → Fault) :
    Except Fault LineTable :=
  match id with
  | none => .ok table
  | some id =>
    match table[id]? with
    | some first => .error (fault id first)
    | none => .ok (table.insert id line)

/-- Enters the record on the next line. An edge that does not say where it comes from leads
nowhere. -/
def insert : Index → Element → Pass Index
  | ⟨elements, vertices, edges, outgoing, incoming⟩, e => do
    let line := elements.size
    match e.kind with
    | .vertex =>
      let vertices ← Pass.ofExcept <|
        declare vertices e.id line fun id first => .duplicateVertexId id first line
      return ⟨elements.push e, vertices, edges, outgoing, incoming⟩
    | .edge =>
      let edges ← Pass.ofExcept <|
        declare edges e.id line fun id first => .duplicateEdgeId id first line
      match e.outV with
      | some origin =>
        let incoming := e.targets.foldl (fun table id => EdgeTable.add table id line) incoming
        return ⟨elements.push e, vertices, edges, EdgeTable.add outgoing origin line, incoming⟩
      | none =>
        Pass.note (.noAdjacency line e.label)
        return ⟨elements.push e, vertices, edges, outgoing, incoming⟩

end Index

end Lsif
