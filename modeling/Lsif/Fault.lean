/-! Why a dump has no graph. Every fault names the line it was found on, counted from zero. -/

namespace Lsif

inductive Fault where
  | malformedLine (line : Nat)
  | duplicateVertexId (id : Int64) (first line : Nat)
  | duplicateEdgeId (id : Int64) (first line : Nat)
  | unbalancedEvent (line : Nat) (depth : Int)
deriving DecidableEq, Repr

namespace Fault

def line : Fault → Nat
  | malformedLine line => line
  | duplicateVertexId _ _ line => line
  | duplicateEdgeId _ _ line => line
  | unbalancedEvent line _ => line

def cause : Fault → String
  | malformedLine _ => "malformed LSIF record"
  | duplicateVertexId id first _ =>
    "duplicate vertex id " ++ toString id ++ " (first declared on line " ++ toString first ++ ")"
  | duplicateEdgeId id first _ =>
    "duplicate edge id " ++ toString id ++ " (first declared on line " ++ toString first ++ ")"
  | unbalancedEvent _ depth =>
    "`$event` end without matching begin (depth would become " ++ toString depth ++ ")"

def message (f : Fault) : String :=
  "line " ++ toString f.line ++ ": " ++ f.cause

end Fault

end Lsif
