import Lsif.Json.Basic
import Lsif.Text.Blank
import Lsif.Text.Quoted

/-! JSON texts of values, in one line or with two spaces for each level. A value is written behind
the text that is already there. -/

namespace Lsif.Json

def escapedChar (c : Char) : String :=
  match c with
  | '"' => "\\\""
  | '\\' => "\\\\"
  | '\x08' => "\\b"
  | '\t' => "\\t"
  | '\n' => "\\n"
  | '\x0c' => "\\f"
  | '\r' => "\\r"
  | c =>
    if c.toNat < 0x10 then "\\u000" ++ Text.hexadecimal c.toNat
    else if c.toNat < 0x20 then "\\u00" ++ Text.hexadecimal c.toNat
    else String.singleton c

/-- A string in quotes; one that is no text is shown by a surrogate without partner. -/
def writeString (out : String) : Option String → String
  | some s => s.toList.foldl (fun out c => out ++ escapedChar c) (out ++ "\"") ++ "\""
  | none => out ++ "\"\\ud800\""

mutual

def writeCompact (out : String) : Json → String
  | null => out ++ "null"
  | bool b => out ++ if b then "true" else "false"
  | number n => out ++ n.render
  | string s => writeString out s
  | array [] => out ++ "[]"
  | array (item :: rest) => writeCompactItems (writeCompact (out ++ "[") item) rest ++ "]"
  | object [] => out ++ "\x7b\x7d"
  | object ((key, value) :: rest) =>
    writeCompactMembers (writeCompact (writeString (out ++ "\x7b") key ++ ":") value) rest ++ "\x7d"

def writeCompactItems (out : String) : List Json → String
  | [] => out
  | item :: rest => writeCompactItems (writeCompact (out ++ ",") item) rest

def writeCompactMembers (out : String) : List (Option String × Json) → String
  | [] => out
  | (key, value) :: rest =>
    writeCompactMembers (writeCompact (writeString (out ++ ",") key ++ ":") value) rest

end

def compact (value : Json) : String := writeCompact "" value

def newLine (level : Nat) : String :=
  "\n" ++ Text.spaces (2 * level)

mutual

def writePretty (level : Nat) (out : String) : Json → String
  | null => out ++ "null"
  | bool b => out ++ if b then "true" else "false"
  | number n => out ++ n.render
  | string s => writeString out s
  | array [] => out ++ "[]"
  | array (item :: rest) =>
    writePrettyItems (level + 1) (writePretty (level + 1) (out ++ "[" ++ newLine (level + 1)) item)
      rest ++ newLine level ++ "]"
  | object [] => out ++ "\x7b\x7d"
  | object ((key, value) :: rest) =>
    writePrettyMembers (level + 1)
      (writePretty (level + 1)
        (writeString (out ++ "\x7b" ++ newLine (level + 1)) key ++ ": ") value)
      rest ++ newLine level ++ "\x7d"

def writePrettyItems (level : Nat) (out : String) : List Json → String
  | [] => out
  | item :: rest =>
    writePrettyItems level (writePretty level (out ++ "," ++ newLine level) item) rest

def writePrettyMembers (level : Nat) (out : String) : List (Option String × Json) → String
  | [] => out
  | (key, value) :: rest =>
    writePrettyMembers level
      (writePretty level (writeString (out ++ "," ++ newLine level) key ++ ": ") value) rest

end

def pretty (value : Json) : String := writePretty 0 "" value

end Lsif.Json
