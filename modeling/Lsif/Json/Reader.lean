import Lsif.Json.Basic
import Lsif.Json.Scan

/-! Reading a JSON value from its tokens. Arrays and objects that are still open stand on a stack,
so nesting is limited by memory alone. -/

namespace Lsif.Json

/-- An array or object that is still open, its latest part first. -/
inductive Frame where
  | array (items : List Json)
  | object (members : List (Option String × Json)) (key : Option String)

inductive Reading where
  | value (frames : List Frame)
  | firstItem (frames : List Frame)
  | firstKey (frames : List Frame)
  | key (frames : List Frame) (members : List (Option String × Json))
  | colon (frames : List Frame) (members : List (Option String × Json)) (key : Option String)
  | ended (frames : List Frame) (value : Json)

namespace Reading

def begin : Reading := value []

def enter (frames : List Frame) : Token → Option Reading
  | .openArray => some (firstItem frames)
  | .openObject => some (firstKey frames)
  | .null => some (ended frames .null)
  | .bool b => some (ended frames (.bool b))
  | .number n => some (ended frames (.number n))
  | .string s => some (ended frames (.string s))
  | _ => none

def leave (value : Json) : List Frame → Token → Option Reading
  | .array items :: frames, .comma => some (.value (.array (value :: items) :: frames))
  | .array items :: frames, .closeArray => some (ended frames (.array (value :: items).reverse))
  | .object members k :: frames, .comma => some (key frames ((k, value) :: members))
  | .object members k :: frames, .closeObject =>
    some (ended frames (.object ((k, value) :: members).reverse))
  | _, _ => none

def step : Reading → Token → Option Reading
  | value frames, token => enter frames token
  | firstItem frames, .closeArray => some (ended frames (.array []))
  | firstItem frames, token => enter (.array [] :: frames) token
  | firstKey frames, .closeObject => some (ended frames (.object []))
  | firstKey frames, .string k => some (colon frames [] k)
  | key frames members, .string k => some (colon frames members k)
  | colon frames members k, .colon => some (value (.object members k :: frames))
  | ended frames v, token => leave v frames token
  | _, _ => none

def finish : Reading → Option Json
  | ended [] v => some v
  | _ => none

end Reading

def ofTokens? (tokens : List Token) : Option Json := do
  let reading ← tokens.foldlM Reading.step Reading.begin
  reading.finish

/-- The value that a text writes, by the grammar alone: any nesting, any numeral. -/
def parse? (text : String) : Option Json :=
  (tokens? text.toList).bind ofTokens?

end Lsif.Json
