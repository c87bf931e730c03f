/-! The records of a dump: vertices and edges, one on each line. -/

namespace Lsif

inductive Kind where
  | vertex
  | edge
deriving DecidableEq, Repr

def Kind.name : Kind → String
  | .vertex => "vertex"
  | .edge => "edge"

structure Position where
  line : Option UInt32
  character : Option UInt32
deriving DecidableEq, Repr

/-- One record of a dump. The kind, the id and the ends of an edge make up the graph; the label and
the event kind set the indentation; everything else is for display. -/
structure Element where
  kind : Kind
  id : Option Int64
  label : String
  outV : Option Int64
  inV : Option Int64
  inVs : List Int64
  uri : Option String
  start : Option Position
  stop : Option Position
  identifier : Option String
  name : Option String
  eventKind : Option String
  lineNumber : Nat
deriving DecidableEq, Repr

namespace Element

def isVertex (e : Element) : Bool := e.kind = .vertex

def isEdge (e : Element) : Bool := e.kind = .edge

def targets (e : Element) : List Int64 :=
  match e.inV with
  | some id => [id]
  | none => e.inVs

def describe (e : Element) : String :=
  match e.id with
  | some id => e.kind.name ++ " " ++ toString id ++ " (" ++ e.label ++ ")"
  | none => e.kind.name ++ " without id (" ++ e.label ++ ")"

end Element

end Lsif
