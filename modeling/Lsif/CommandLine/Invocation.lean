import Lsif.CommandLine.Scan
import Lsif.Graph.Build
import Lsif.Graph.Selection

/-! What a command line asks for. Its arguments come in two levels: options, then the name of a
command, then the options and operands of the command. Shared options may stand on either level; if
a value is given on both, the inner one counts. The outer level ends behind the inner one, so that
the value of its last option is looked at after all arguments of the command. -/

namespace Lsif.CommandLine

def parseInner (v : Verb) (args : List String) : Except Exit Values := do
  let s ← args.foldlM (Scan.step v.options) { operands := v.operands }
  let s ← s.settle
  return s.values

inductive Action where
  | print (numbered : Bool)
  | stats (json : Bool)
  | neighbors (target : Target) (json : Bool)
  | find (text : String) (all json : Bool)
  | browse
deriving DecidableEq, Repr

structure Invocation where
  options : Graph.Options
  color : Bool
  file : String
  action : Action
deriving DecidableEq, Repr

def target? (v : Values) : Option Target :=
  match v.id, v.line, v.offset with
  | some id, none, none => some (.id id)
  | none, some line, none => some (.line line)
  | none, none, some offset => some (.offset offset)
  | _, _, _ => none

def action? (verb : Verb) (v : Values) : Option Action :=
  match verb with
  | .print => some (.print (.numbered ∈ v.switches))
  | .stats => some (.stats (.json ∈ v.switches))
  | .neighbors => (target? v).map fun t => .neighbors t (.json ∈ v.switches)
  | .find => v.text.map fun text => .find text (.all ∈ v.switches) (.json ∈ v.switches)
  | .browse => some .browse

def graphOptions (outer inner : Values) : Graph.Options where
  indentation :=
    { step := (inner.indentStep.or outer.indentStep).getD 4
      nesting := if .lenientEvents ∈ outer.switches ++ inner.switches then .lenient else .strict }
  terminator := (inner.lineEnding.or outer.lineEnding).getD .lf
  parallel := .parallel ∈ outer.switches ++ inner.switches

def invocation (verb : Verb) (outer inner : Values) : Except Exit Invocation :=
  match inner.file, action? verb inner with
  | some file, some action =>
    .ok
      { options := graphOptions outer inner
        color := .noColor ∉ outer.switches ++ inner.switches
        file
        action }
  | _, _ => .error .misuse

def parseHelp : List String → Exit
  | [] => .information
  | [name] => if name = "help" ∨ (Verb.ofName? name).isSome then .information else .misuse
  | _ => .misuse

def parseFrom (outer : Scan) : List String → Except Exit Invocation
  | [] => .error .misuse
  | arg :: rest =>
    let verb? := if outer.literal ∨ outer.waiting.isSome then none else Verb.ofName? arg
    match verb? with
    | some verb => do
      let inner ← parseInner verb rest
      let outer ← outer.settle
      invocation verb outer.values inner
    | none =>
      if arg = "help" ∧ outer.literal = false ∧ outer.waiting = none then .error (parseHelp rest)
      else do
        let outer ← outer.step outerOptions arg
        parseFrom outer rest

def parse (args : List String) : Except Exit Invocation :=
  parseFrom {} args

end Lsif.CommandLine
