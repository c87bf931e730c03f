import Lsif.Json.Basic

/-! Values whose objects list their members by key. -/

namespace Lsif.Json

mutual

def sorted : Json → Json
  | array items => array (sortedItems items)
  | object members =>
    object ((sortedMembers members).mergeSort fun a b => decide (a.1.getD "" ≤ b.1.getD ""))
  | value => value

def sortedItems : List Json → List Json
  | [] => []
  | item :: rest => sorted item :: sortedItems rest

def sortedMembers : List (Option String × Json) → List (Option String × Json)
  | [] => []
  | (key, value) :: rest => (key, sorted value) :: sortedMembers rest

end

end Lsif.Json
