/-! The lines of a dump file. A line ends at a line feed, which may have one carriage return before
it; a file that ends in a line feed has no empty line after it. -/

namespace Lsif.Text

def endedLine : List Char → String
  | '\r' :: rest => String.ofList rest.reverse
  | chars => String.ofList chars.reverse

def linesFrom (done : Array String) (current : List Char) : List Char → List String
  | [] =>
    if current.isEmpty then done.toList
    else (done.push (String.ofList current.reverse)).toList
  | '\n' :: rest => linesFrom (done.push (endedLine current)) [] rest
  | c :: rest => linesFrom done (c :: current) rest

def lines (content : String) : List String :=
  linesFrom #[] [] content.toList

def byteOrderMark : Char := '\ufeff'

def dumpLines (content : String) : List String :=
  match content.toList with
  | c :: rest => if c = byteOrderMark then linesFrom #[] [] rest else lines content
  | [] => lines content

end Lsif.Text
