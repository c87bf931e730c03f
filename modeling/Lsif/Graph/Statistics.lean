import Lsif.Graph.Basic
import Lsif.Number.Binary

/-! How often each label occurs among the vertices and among the edges that have an id. -/

namespace Lsif

structure LabelCount where
  label : String
  count : Nat
  percentage : Number.Binary
deriving DecidableEq, Repr

structure Statistics where
  totalLines : Nat
  vertices : List LabelCount
  edges : List LabelCount
deriving DecidableEq, Repr

namespace LabelCount

def share (count total : Nat) : Number.Binary :=
  if total = 0 then .zero else .nearest (100 * count) total

def before (a b : LabelCount) : Bool :=
  b.count < a.count || (a.count = b.count && a.label ≤ b.label)

def tally (labels : List String) : Std.HashMap String Nat :=
  labels.foldl (fun counts label => counts.alter label fun n? => some (n?.getD 0 + 1)) ∅

def ofLabels (total : Nat) (labels : List String) : List LabelCount :=
  ((tally labels).toList.map fun (label, count) =>
    { label, count, percentage := share count total }).mergeSort before

end LabelCount

namespace Graph

def statistics (g : Graph) : Statistics where
  totalLines := g.elements.size
  vertices := countLabels g.vertexLines
  edges := countLabels g.edgeLines
where
  countLabels (lines : List Nat) : List LabelCount :=
    LabelCount.ofLabels g.elements.size ((lines.filterMap g.element?).map Element.label)

end Graph

end Lsif
