import Lsif.Browser.Basic
import Lsif.CommandLine.Invocation
import Lsif.Graph.Encode
import Lsif.Text.Lines

/-! Running a command on the content of a file. -/

namespace Lsif.CommandLine

inductive Failure where
  | unreadable (path : String)
  | unindexed (path : String) (fault : Fault)
  | absent (a : Absence)
deriving DecidableEq, Repr

def Failure.message : Failure → String
  | unreadable path => "Failed to read " ++ path
  | unindexed path fault => "Failed to index " ++ path ++ ": " ++ fault.message
  | absent a => a.message

namespace Invocation

def load (inv : Invocation) (content : Option ByteArray) : Except Failure Graph :=
  match content.bind String.fromUTF8? with
  | none => .error (.unreadable inv.file)
  | some text =>
    match Graph.ofLines inv.options (Text.dumpLines text) with
    | .ok g => .ok g
    | .error fault => .error (.unindexed inv.file fault)

def perform (inv : Invocation) (g : Graph) (color : Bool) (input : String) :
    Except Failure String :=
  match inv.action with
  | .print false => .ok g.render
  | .print true => .ok (Report.numbered g.document)
  | .stats false => .ok (Report.statistics g.statistics)
  | .stats true => .ok (g.statistics.toJson.pretty ++ "\n")
  | .neighbors target json =>
    match g.select target with
    | .error a => .error (.absent a)
    | .ok e =>
      .ok (if json then (g.neighborhoodJson e).sorted.pretty ++ "\n"
        else Report.neighborhood g (inv.color && color) e)
  | .find text all json =>
    let hits := if all then g.document.findAll text else (g.document.find? text 0).toList
    .ok (if json then (g.hitsJson hits).pretty ++ "\n" else Report.hits g text hits)
  | .browse =>
    .ok (Browser.transcript g (inv.color && color) {} (Browser.greeting g) (Text.lines input))

def run (inv : Invocation) (content : Option ByteArray) (color : Bool) (input : String) :
    Except Failure String := do
  let g ← inv.load content
  inv.perform g color input

end Invocation

end Lsif.CommandLine
