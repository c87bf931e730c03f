import Lsif.Document.Basic

/-! From offsets to lines and back. -/

namespace Lsif

/-- The place where `p` turns from true to false between `lo` and `hi`, found by halving. -/
def bisect (p : Nat → Bool) (lo hi : Nat) : Nat :=
  if lo < hi then
    let middle := lo + (hi - lo) / 2
    if p middle then bisect p (middle + 1) hi else bisect p lo middle
  else lo
termination_by hi - lo
decreasing_by all_goals omega

namespace Document

/-- The number of lines in front that satisfy `p`, if no later line does. -/
def countFront (d : Document) (p : Line → Bool) : Nat :=
  bisect (fun i => d.lines[i]?.any p) 0 d.lines.size

def lineAt? (d : Document) (offset : Nat) : Option Nat :=
  match d.countFront fun l => l.start ≤ offset with
  | 0 => none
  | i + 1 => if d.lines[i]?.any fun l => l.contains offset then some i else none

def lineStart? (d : Document) (line : Nat) : Option Nat :=
  d.lines[line]?.map Line.start

def lineText? (d : Document) (line : Nat) : Option String :=
  d.lines[line]?.map Line.text

def lineLength? (d : Document) (line : Nat) : Option Nat :=
  d.lines[line]?.map Line.length

def lineSpan? (d : Document) (line : Nat) : Option (Nat × Nat) :=
  d.lines[line]?.map fun l => (l.start, l.stop)

def spanAt? (d : Document) (offset : Nat) : Option (Nat × Nat) :=
  (d.lineAt? offset).bind d.lineSpan?

end Document

end Lsif
