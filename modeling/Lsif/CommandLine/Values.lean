import Lsif.CommandLine.Options
import Lsif.Document.Basic
import Lsif.Text.Integer

/-! The values that arguments set, each once at most. -/

namespace Lsif.CommandLine

structure Values where
  switches : List Switch := []
  indentStep : Option UInt64 := none
  lineEnding : Option Terminator := none
  id : Option Int64 := none
  line : Option Nat := none
  offset : Option Nat := none
  file : Option String := none
  text : Option String := none
deriving DecidableEq, Repr

inductive Slot where
  | setting (s : Setting)
  | operand (o : Operand)
deriving DecidableEq, Repr

namespace Values

def lineEnding? : String → Option Terminator
  | "lf" => some .lf
  | "crlf" => some .crlf
  | _ => none

def fill {α : Type} (place value : Option α) : Option (Option α) :=
  match place, value with
  | none, some a => some (some a)
  | _, _ => none

def path? (value : String) : Option String :=
  if value.isEmpty then none else some value

def assign (v : Values) (value : String) : Slot → Option Values
  | .setting .indentStep => do
    return { v with indentStep := ← fill v.indentStep ((Text.unsigned? value).map UInt64.ofNat) }
  | .setting .lineEnding => do
    return { v with lineEnding := ← fill v.lineEnding (lineEnding? value) }
  | .setting .id => do return { v with id := ← fill v.id (Text.signed? value) }
  | .setting .line => do return { v with line := ← fill v.line (Text.unsigned? value) }
  | .setting .offset => do return { v with offset := ← fill v.offset (Text.unsigned? value) }
  | .operand .file => do return { v with file := ← fill v.file (path? value) }
  | .operand .text => do return { v with text := ← fill v.text (some value) }

end Values

end Lsif.CommandLine
