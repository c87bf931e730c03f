/-! Occurrences of one text in another, counted in characters. -/

namespace Lsif.Text

def firstOccurrenceFrom? (needle : List Char) (place : Nat) : List Char → Option Nat
  | [] => if needle.isEmpty then some place else none
  | c :: rest =>
    if needle.isPrefixOf (c :: rest) then some place
    else firstOccurrenceFrom? needle (place + 1) rest

def firstOccurrence? (needle text : List Char) : Option Nat :=
  firstOccurrenceFrom? needle 0 text

/-- The places at which `needle` occurs, from left to right, none overlapping the one before it.
The next `skip` characters belong to an occurrence already found; `place` characters are past. -/
def occurrencesFrom (needle : List Char) (skip place : Nat) : List Char → List Nat
  | [] => []
  | c :: rest =>
    match skip with
    | n + 1 => occurrencesFrom needle n (place + 1) rest
    | 0 =>
      if needle.isPrefixOf (c :: rest) then
        place :: occurrencesFrom needle (needle.length - 1) (place + 1) rest
      else occurrencesFrom needle 0 (place + 1) rest

def occurrences (needle text : List Char) : List Nat :=
  occurrencesFrom needle 0 0 text

end Lsif.Text
