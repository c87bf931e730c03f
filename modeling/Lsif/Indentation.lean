import Lsif.Json.Readable
import Lsif.Pass
import Lsif.Text.Blank

/-! Indentation of a dump by the events in it. A line whose label is `$event` opens or closes one
level; the depth changes before the line itself is written, so that an opening line is already
indented and a closing one no longer is. -/

namespace Lsif

inductive Marker where
  | opening
  | closing
deriving DecidableEq, Repr

namespace Marker

def ofJson? : Json → Option Marker
  | .object members =>
    if (Json.lookup? members "label").bind Json.string? = some "$event" then
      let kind := (Json.lookup? members "kind").bind Json.string?
      if kind = some "begin" then some .opening
      else if kind = some "end" then some .closing
      else none
    else none
  | _ => none

def ofText? (text : String) : Option (Option Marker) :=
  (Json.read? text).map ofJson?

end Marker

inductive Nesting where
  | strict
  /-- The depth stays negative and indents nothing. -/
  | lenient
deriving DecidableEq, Repr

namespace Indentation

structure Options where
  step : UInt64 := 4
  nesting : Nesting := .strict
deriving DecidableEq, Repr

def Options.signedStep (o : Options) : Int := o.step.toInt64.toInt

/-- The depth after the lines so far, and these lines indented. A depth is any integer: that it has to fit
64 bits with a sign is left out. -/
structure State where
  depth : Int
  lines : Array String

def shift (step : Int) : Option Marker → Int
  | some .opening => step
  | some .closing => -step
  | none => 0

def check (nesting : Nesting) (line : Nat) (before after : Int) (marker : Option Marker) :
    Pass Unit :=
  if marker = some .closing ∧ after < 0 then
    match nesting with
    | .strict => throw (.unbalancedEvent line after)
    | .lenient => if before < 0 then pure () else Pass.note (.belowZero line after)
  else pure ()

def indented (depth : Int) (text : String) : String :=
  Text.spaces depth.toNat ++ text

def addLine (o : Options) (s : State) (text : String) : Pass State := do
  let line := s.lines.size
  let marker ← Pass.require (Marker.ofText? text) (.malformedLine line)
  let depth := s.depth + shift o.signedStep marker
  check o.nesting line s.depth depth marker
  return { depth, lines := s.lines.push (indented depth text) }

def indent (o : Options) (lines : List String) : Pass (Array String) := do
  let s ← lines.foldlM (addLine o) { depth := 0, lines := #[] }
  return s.lines

end Indentation

end Lsif
