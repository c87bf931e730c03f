import Lsif.Element.Decode
import Lsif.Graph.Basic
import Lsif.Indentation

/-! Building the graph of a dump: all lines are indented first, and then decoded and indexed one
after the other. A build gives the whole graph or none of it. -/

namespace Lsif.Graph

structure Options where
  indentation : Indentation.Options := {}
  terminator : Terminator := .lf
  /-- Decode the lines side by side; they are indexed in order all the same. -/
  parallel : Bool := false
deriving DecidableEq, Repr

def addDecoded (index : Index) (element? : Option Element) : Pass Index := do
  let e ← Pass.require element? (.malformedLine index.elements.size)
  index.insert e

def indexInTurn (lines : Array String) : Pass Index :=
  lines.foldlM (fun index text => addDecoded index (Element.decode? text index.elements.size))
    Index.empty

def indexSideBySide (lines : Array String) : Pass Index :=
  let decoded := lines.mapIdx fun line text => Task.spawn fun _ => Element.decode? text line
  decoded.foldlM (fun index task => addDecoded index task.get) Index.empty

def build (o : Options) (lines : List String) : Pass Graph := do
  let indented ← Indentation.indent o.indentation lines
  let index ← if o.parallel then indexSideBySide indented else indexInTurn indented
  Pass.note (.built index.elements.size index.vertices.size index.edges.size)
  return { index with document := .ofTexts o.terminator indented.toList }

def ofLines (o : Options) (lines : List String) : Except Fault Graph :=
  (build o lines).outcome.2

end Lsif.Graph
