/-! Strings while they are read. Their escapes by number are 16-bit units, of which two may make up one
character. -/

namespace Lsif.Json

inductive Draft where
  | sound (chars : List Char)
  | half (chars : List Char) (lead : Nat)
  | broken

namespace Draft

def empty : Draft := .sound []

def addChar : Draft → Char → Draft
  | .sound cs, c => .sound (c :: cs)
  | .half _ _, _ => .broken
  | .broken, _ => .broken

def isLead (unit : Nat) : Bool := 0xD800 ≤ unit && unit < 0xDC00

def isTrail (unit : Nat) : Bool := 0xDC00 ≤ unit && unit < 0xE000

def addUnit : Draft → Nat → Draft
  | .sound cs, unit =>
    if isLead unit then .half cs unit
    else if isTrail unit then .broken
    else .sound (Char.ofNat unit :: cs)
  | .half cs lead, unit =>
    if isTrail unit then
      .sound (Char.ofNat (0x10000 + (lead - 0xD800) * 0x400 + (unit - 0xDC00)) :: cs)
    else .broken
  | .broken, _ => .broken

def finish : Draft → Option String
  | .sound cs => some (String.ofList cs.reverse)
  | _ => none

end Draft

end Lsif.Json
