import Lsif.Json.Numeral

/-! JSON values with everything their text says: numerals keep their digits, and objects keep every
member, in order and with repetitions. -/

namespace Lsif

/-- A JSON value. A string is `none` if its escapes leave a surrogate without its partner, so that
it stands for no text; such a string is well formed all the same. -/
inductive Json where
  | null
  | bool (b : Bool)
  | number (n : Numeral)
  | string (s : Option String)
  | array (items : List Json)
  | object (members : List (Option String × Json))
deriving Inhabited

namespace Json

def text (s : String) : Json := string (some s)

def nat (n : Nat) : Json := number (.ofNat n)

def int (i : Int) : Json := number (.ofInt i)

def record (members : List (String × Json)) : Json :=
  object (members.map fun m => (some m.1, m.2))

def lookup? (members : List (Option String × Json)) (key : String) : Option Json :=
  (members.reverse.find? fun m => m.1 = some key).map (·.2)

def string? : Json → Option String
  | string s => s
  | _ => none

end Json

end Lsif
