import Lsif.Json.Basic

/-! The fields of a record, by name in an object or by place in an array. -/

namespace Lsif

inductive Field where
  | id
  | type
  | label
  | outV
  | inV
  | inVs
  | uri
  | start
  | stop
  | identifier
  | name
  | kind
deriving DecidableEq, Repr

namespace Field

def key : Field → String
  | id => "id"
  | type => "type"
  | label => "label"
  | outV => "outV"
  | inV => "inV"
  | inVs => "inVs"
  | uri => "uri"
  | start => "start"
  | stop => "end"
  | identifier => "identifier"
  | name => "name"
  | kind => "kind"

def all : List Field :=
  [id, type, label, outV, inV, inVs, uri, start, stop, identifier, name, kind]

def valuesIn (members : List (Option String × Json)) (f : Field) : List Json :=
  (members.filter fun m => m.1 = some f.key).map (·.2)

end Field

abbrev FieldValues := Field → Option Json

/-- The fields of a record. In an object each of them stands once at most, and every key is text;
members with other keys say nothing. An array lists the fields by place. -/
def FieldValues.ofJson? : Json → Option FieldValues
  | .object members =>
    if members.all (·.1.isSome) && Field.all.all fun f => (f.valuesIn members).length ≤ 1 then
      some fun f => (f.valuesIn members).head?
    else none
  | .array items =>
    if items.length ≤ Field.all.length then some fun f => items[Field.all.idxOf f]? else none
  | _ => none

end Lsif
