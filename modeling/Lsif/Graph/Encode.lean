import Lsif.Element.Encode
import Lsif.Graph.Neighbors
import Lsif.Graph.Statistics
import Lsif.Json.Double
import Lsif.Json.Printer
import Lsif.Json.Sorted

/-! Neighborhoods, label counts and search results as JSON. -/

namespace Lsif

def Relation.name : Relation → String
  | origin => "origin"
  | target => "target"
  | outgoing => "outgoing"
  | incoming => "incoming"

def Neighbor.toJson (n : Neighbor) : Json :=
  .record [("relation", .text n.relation.name), ("element", n.element.toJson)]

def LabelCount.toJson (c : LabelCount) : Json :=
  .record [("label", .text c.label), ("count", .nat c.count),
    ("percentage", .number (.ofBinary c.percentage))]

def Statistics.toJson (s : Statistics) : Json :=
  .record [("total_lines", .nat s.totalLines),
    ("vertices", .array (s.vertices.map LabelCount.toJson)),
    ("edges", .array (s.edges.map LabelCount.toJson))]

namespace Graph

def neighborhoodJson (g : Graph) (e : Element) : Json :=
  .record [("element", e.toJson), ("neighbors", .array ((g.neighbors e).map Neighbor.toJson))]

def hitsJson (g : Graph) (hits : List Hit) : Json :=
  .array <| hits.map fun h =>
    .record [("offset", .nat h.offset), ("line", .nat h.line),
      ("text", .text ((g.document.lineText? h.line).getD ""))]

end Graph

end Lsif
