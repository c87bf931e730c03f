import Lsif.Element.Basic
import Lsif.Json.Basic

/-! Writing a record as a JSON object. Fields that are not set are left out. -/

namespace Lsif

def Position.toJson (p : Position) : Json :=
  .record [("line", number p.line), ("character", number p.character)]
where
  number : Option UInt32 → Json
    | some n => .nat n.toNat
    | none => .null

namespace Element

def member {α : Type} (key : String) (value : Option α) (write : α → Json) : List (String × Json) :=
  (value.map fun a => (key, write a)).toList

def toJson (e : Element) : Json :=
  .record <|
    member "id" e.id id ++
    [("type", .text e.kind.name), ("label", .text e.label)] ++
    member "outV" e.outV id ++
    member "inV" e.inV id ++
    (if e.inVs.isEmpty then [] else [("inVs", .array (e.inVs.map id))]) ++
    member "uri" e.uri .text ++
    member "start" e.start Position.toJson ++
    member "end" e.stop Position.toJson ++
    member "identifier" e.identifier .text ++
    member "name" e.name .text ++
    member "kind" e.eventKind .text ++
    [("lineNumber", .nat e.lineNumber)]
where
  id (i : Int64) : Json := .int i.toInt

end Element

end Lsif
