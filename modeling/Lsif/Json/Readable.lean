import Lsif.Json.Reader

/-! Values that can be held in memory as data: every string is text, every number is a double or a
64-bit integer, and nesting is bounded. -/

namespace Lsif.Json

mutual

/-- Whether the value is data with at most `levels` arrays and objects around any part of it. -/
def readable (levels : Nat) : Json → Bool
  | null => true
  | bool _ => true
  | number n => !n.overflows
  | string s => s.isSome
  | array items =>
    match levels with
    | 0 => false
    | inner + 1 => readableItems inner items
  | object members =>
    match levels with
    | 0 => false
    | inner + 1 => readableMembers inner members

def readableItems (levels : Nat) : List Json → Bool
  | [] => true
  | item :: rest => readable levels item && readableItems levels rest

def readableMembers (levels : Nat) : List (Option String × Json) → Bool
  | [] => true
  | (key, value) :: rest => key.isSome && readable levels value && readableMembers levels rest

end

def maxLevels : Nat := 127

def read? (text : String) : Option Json :=
  (parse? text).filter (readable maxLevels)

end Lsif.Json
