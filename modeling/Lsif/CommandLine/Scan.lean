import Lsif.CommandLine.Values

/-! Looking at the arguments of one level from left to right. The first one at fault, or the first
that asks for information, decides. A value that is an argument of its own is held back until the
next option or operand of its level turns up, or the level ends. -/

namespace Lsif.CommandLine

structure Scan where
  values : Values := {}
  waiting : Option Setting := none
  /-- A value that has not been looked at. -/
  held : Option (Slot × String) := none
  operands : List Operand := []
  literal : Bool := false
deriving DecidableEq, Repr

namespace Scan

def settle (s : Scan) : Except Exit Scan :=
  match s.waiting, s.held with
  | some _, _ => .error .misuse
  | none, none => .ok s
  | none, some (slot, value) =>
    match s.values.assign value slot with
    | some values => .ok { s with values, held := none }
    | none => .error .misuse

def turnOn (s : Scan) (switch : Switch) : Except Exit Scan := do
  let s ← s.settle
  if switch = .help ∨ switch = .version then throw .information
  else if switch ∈ s.values.switches then throw .misuse
  else return { s with values := { s.values with switches := switch :: s.values.switches } }

def attach (s : Scan) (setting : Setting) (value : String) : Except Exit Scan := do
  let s ← s.settle
  match s.values.assign value (.setting setting) with
  | some values => return { s with values }
  | none => throw .misuse

def await (s : Scan) (setting : Setting) : Except Exit Scan := do
  let s ← s.settle
  return { s with waiting := some setting }

def long (options : List OptionName) (s : Scan) (chars : List Char) : Except Exit Scan :=
  let name := String.ofList (chars.takeWhile (· != '='))
  match options.find? fun o => o.long = name, chars.dropWhile (· != '=') with
  | some ⟨_, _, .switch switch⟩, [] => s.turnOn switch
  | some ⟨_, _, .setting setting⟩, [] => s.await setting
  | some ⟨_, _, .setting setting⟩, _ :: value => s.attach setting (String.ofList value)
  | _, _ => .error .misuse

/-- An argument that begins with one hyphen: letters of switches, and then perhaps the letter of an
option with a value, which follows at once, behind `=`, or in the next argument. -/
def short (options : List OptionName) (s : Scan) : List Char → Except Exit Scan
  | [] => .ok s
  | c :: rest =>
    match options.find? fun o => o.short = some c with
    | some ⟨_, _, .switch switch⟩ => do
      let s ← s.turnOn switch
      short options s rest
    | some ⟨_, _, .setting setting⟩ =>
      match rest with
      | [] => s.await setting
      | '=' :: value => s.attach setting (String.ofList value)
      | value => s.attach setting (String.ofList value)
    | none => .error .misuse

def plain (s : Scan) (arg : String) : Except Exit Scan :=
  match s.literal, s.waiting, s.operands with
  | false, some setting, _ =>
    .ok { s with waiting := none, held := some (.setting setting, arg) }
  | _, _, operand :: operands => do
    let s ← s.settle
    return { s with operands, held := some (.operand operand, arg) }
  | _, _, [] => .error .misuse

def step (options : List OptionName) (s : Scan) (arg : String) : Except Exit Scan :=
  if s.literal then s.plain arg
  else match arg.toList with
    | ['-', '-'] => .ok { s with literal := true }
    | '-' :: '-' :: chars => s.long options chars
    | '-' :: c :: chars => s.short options (c :: chars)
    | _ => s.plain arg

end Scan

end Lsif.CommandLine
