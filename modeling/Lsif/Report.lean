import Lsif.Graph.Neighbors
import Lsif.Graph.Statistics
import Lsif.Text.Blank
import Lsif.Text.Quoted

/-! What users read of a graph: documents, neighborhoods, label counts and search results. -/

namespace Lsif.Report

def alignRight (width : Nat) (s : String) : String :=
  Text.spaces (width - s.length) ++ s

def paint (color : Bool) (e : Element) (text : String) : String :=
  if color then
    (match e.kind with
      | .vertex => "\x1b[34m"
      | .edge => "\x1b[32m") ++ text ++ "\x1b[0m"
  else text

def tag : Relation → String
  | .origin => "origin"
  | .target => "target"
  | .outgoing => "out"
  | .incoming => "in"

def lineText (g : Graph) (line : Nat) : String :=
  (g.document.lineText? line).getD ""

def neighborLine (g : Graph) (color : Bool) (n : Neighbor) : String :=
  let line := n.element.lineNumber
  "  [" ++ alignRight 6 (tag n.relation) ++ "] " ++ alignRight 6 (toString line) ++ ": " ++
    paint color n.element (Text.trimStart (lineText g line)) ++ "\n"

def neighborhood (g : Graph) (color : Bool) (e : Element) : String :=
  let head :=
    "📍 " ++ e.describe ++ " at line " ++ toString e.lineNumber ++ "\n" ++
      paint color e (lineText g e.lineNumber) ++ "\n"
  match g.neighbors e with
  | [] => head ++ "This item has no immediate neighbors\n"
  | ns => ns.foldl (fun out n => out ++ neighborLine g color n) (head ++ "\n")

def percent (b : Number.Binary) : String :=
  let hundredths := b.fixed 2
  toString (hundredths / 100) ++ "." ++ (if hundredths % 100 < 10 then "0" else "") ++
    toString (hundredths % 100)

def labelCounts (title : String) (counts : List LabelCount) : String :=
  counts.foldl
    (fun out c =>
      out ++ "  " ++ c.label ++ ": " ++ toString c.count ++ " (" ++ percent c.percentage ++ "%)\n")
    ("\n" ++ title ++ "\n" ++ if counts.isEmpty then "  (none)\n" else "")

def statistics (s : Statistics) : String :=
  "📊 Graph statistics:\n  Total lines: " ++ toString s.totalLines ++ "\n" ++
    labelCounts "🔵 Vertices by label:" s.vertices ++ labelCounts "🟢 Edges by label:" s.edges

def numbered (d : Document) : String :=
  d.lines.toList.zipIdx.foldl
    (fun out (line, i) =>
      out ++ alignRight 6 (toString i) ++ "  " ++ line.text ++ d.terminator.text)
    ""

def hits (g : Graph) (query : String) : List Hit → String
  | [] => "No match for " ++ Text.quoted query ++ "\n"
  | found =>
    found.foldl
      (fun out h =>
        out ++ toString h.line ++ ":" ++ toString h.offset ++ ": " ++
          Text.trimStart (lineText g h.line) ++ "\n")
      ""

end Lsif.Report
