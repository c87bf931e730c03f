import Lsif.Text.Invisible

/-! Text in double quotes, as messages show it: every character can be told from its neighbours, and
line breaks do not end the message. -/

namespace Lsif.Text

def hexadecimal (n : Nat) : String :=
  String.ofList (Nat.toDigits 16 n)

def quotedChar (c : Char) : String :=
  match c with
  | '"' => "\\\""
  | '\\' => "\\\\"
  | '\n' => "\\n"
  | '\r' => "\\r"
  | '\t' => "\\t"
  | '\x00' => "\\0"
  | c =>
    if isInvisible c then "\\u\x7b" ++ hexadecimal c.toNat ++ "\x7d" else String.singleton c

def quoted (s : String) : String :=
  "\"" ++ s.toList.foldl (fun out c => out ++ quotedChar c) "" ++ "\""

end Lsif.Text
