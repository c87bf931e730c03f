import Lsif.Document.Lookup
import Lsif.Text.Occurrence

/-! Searching a document. An occurrence lies within one line; the empty text occurs nowhere. -/

namespace Lsif

structure Hit where
  offset : Nat
  line : Nat
deriving DecidableEq, Repr

namespace Line

def find? (l : Line) (needle : List Char) (origin : Nat) : Option Nat :=
  let skip := origin - l.start
  (Text.firstOccurrence? needle (l.text.toList.drop skip)).map fun place => l.start + skip + place

end Line

namespace Document

def find? (d : Document) (needle : String) (origin : Nat) : Option Hit :=
  if needle.isEmpty then none
  else
    let first := d.countFront fun l => l.stop ≤ origin
    (List.range' first (d.lines.size - first)).findSome? fun i =>
      d.lines[i]?.bind fun l =>
        (l.find? needle.toList origin).map fun offset => { offset, line := i }

def findAll (d : Document) (needle : String) : List Hit :=
  if needle.isEmpty then []
  else
    d.lines.toList.zipIdx.flatMap fun (l, i) =>
      (Text.occurrences needle.toList l.text.toList).map fun place =>
        { offset := l.start + place, line := i }

end Document

structure Session where
  query : Option String := none
deriving DecidableEq, Repr

namespace Session

def remember (_ : Session) (query : String) : Session := ⟨some query⟩

/-- The next occurrence of the remembered text behind `offset`, going on from the start of the
document if there is none. -/
def next? (s : Session) (d : Document) (offset : Nat) : Option Hit :=
  s.query.bind fun query => (d.find? query (offset + 1)).or (d.find? query 0)

end Session

end Lsif
