import Lsif.Graph.Basic

/-! Selecting one record of a graph. -/

namespace Lsif

inductive Target where
  | id (id : Int64)
  | line (line : Nat)
  | offset (offset : Nat)
deriving DecidableEq, Repr

inductive Absence where
  | unknownId (id : Int64)
  | lineOutOfRange (line count : Nat)
  | offsetOutsideLines (offset : Nat)
deriving DecidableEq, Repr

def Absence.message : Absence → String
  | unknownId id => "No vertex or edge with id " ++ toString id
  | lineOutOfRange line count =>
    "Line " ++ toString line ++ " is out of range (" ++ toString count ++ " lines)"
  | offsetOutsideLines offset => "Offset " ++ toString offset ++ " is not inside any line"

namespace Graph

def find? (g : Graph) : Target → Option Element
  | .id id => g.resolve? id
  | .line line => g.element? line
  | .offset offset => g.elementAt? offset

def absence (g : Graph) : Target → Absence
  | .id id => .unknownId id
  | .line line => .lineOutOfRange line g.document.lines.size
  | .offset offset => .offsetOutsideLines offset

def select (g : Graph) (t : Target) : Except Absence Element :=
  match g.find? t with
  | some e => .ok e
  | none => .error (g.absence t)

end Graph

end Lsif
