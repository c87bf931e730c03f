import Lsif.Element.Basic
import Lsif.Element.Field
import Lsif.Json.Readable

/-! Reading a record. What makes up the graph must be given as it is meant; what is for display only
is dropped if it is of another type, but has to be data. -/

namespace Lsif

def Numeral.int64? (n : Numeral) : Option Int64 := do
  let i ← n.integer?
  if Int64.minValue.toInt ≤ i ∧ i ≤ Int64.maxValue.toInt then some (Int64.ofInt i) else none

def Numeral.uint32? (n : Numeral) : Option UInt32 := do
  let i ← n.integer?
  if 0 ≤ i ∧ i < UInt32.size then some (UInt32.ofNat i.toNat) else none

namespace Position

def number? : Option Json → Option (Option UInt32)
  | none => some none
  | some .null => some none
  | some (.number n) => n.uint32?.map some
  | some _ => none

/-- A position by name, where the last member with a key counts, or by place. -/
def ofJson? : Json → Option Position
  | .object members => do
    let line ← number? (Json.lookup? members "line")
    let character ← number? (Json.lookup? members "character")
    return { line, character }
  | .array items => do
    let line ← number? items[0]?
    let character ← number? items[1]?
    if items.length ≤ 2 then some { line, character } else none
  | _ => none

end Position

namespace Element

def kind? : Json → Option Kind
  | .string (some name) => ofName? name
  | .object [(some name, .null)] => ofName? name
  | _ => none
where
  ofName? (name : String) : Option Kind :=
    if name = Kind.vertex.name then some .vertex
    else if name = Kind.edge.name then some .edge
    else none

def id? : Option Json → Option (Option Int64)
  | none => some none
  | some .null => some none
  | some (.number n) => n.int64?.map some
  | some _ => none

def label? : Option Json → Option String
  | none => some ""
  | some (.string s) => s
  | some _ => none

def idOfItem? : Json → Option Int64
  | .number n => n.int64?
  | _ => none

def ids? : Option Json → Option (List Int64)
  | none => some []
  | some .null => some []
  | some (.array items) => items.mapM idOfItem?
  | some _ => none

/-- What is shown of a value by `view`. The record itself is one of the arrays and objects around
the value. -/
def shown? {α : Type} (view : Json → Option α) : Option Json → Option (Option α)
  | none => some none
  | some value => if value.readable (Json.maxLevels - 1) then some (view value) else none

def ofFields? (lineNumber : Nat) (values : FieldValues) : Option Element := do
  let id ← id? (values .id)
  let kind ← (values .type).bind kind?
  let label ← label? (values .label)
  let outV ← id? (values .outV)
  let inV ← id? (values .inV)
  let inVs ← ids? (values .inVs)
  let uri ← shown? Json.string? (values .uri)
  let start ← shown? Position.ofJson? (values .start)
  let stop ← shown? Position.ofJson? (values .stop)
  let identifier ← shown? Json.string? (values .identifier)
  let name ← shown? Json.string? (values .name)
  let eventKind ← shown? Json.string? (values .kind)
  return {
    kind, id, label, outV, inV, inVs, uri, start, stop, identifier, name, eventKind, lineNumber }

def ofJson? (lineNumber : Nat) (value : Json) : Option Element :=
  (FieldValues.ofJson? value).bind (ofFields? lineNumber)

def decode? (text : String) (lineNumber : Nat) : Option Element :=
  (Json.parse? text).bind (ofJson? lineNumber)

end Element

end Lsif
