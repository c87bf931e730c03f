import Lsif.Fault

/-! Passes over the lines of a dump: they may fail, and the notices given before a failure stay. -/

namespace Lsif

inductive Notice where
  | belowZero (line : Nat) (depth : Int)
  | noAdjacency (line : Nat) (label : String)
  | built (lines vertices edges : Nat)
deriving DecidableEq, Repr

inductive Notice.Level where
  | warning
  | detail
deriving DecidableEq, Repr

def Notice.level : Notice → Level
  | belowZero _ _ => .warning
  | _ => .detail

def Notice.message : Notice → String
  | belowZero _ _ => "`$event` nesting went below zero"
  | noAdjacency _ _ => "edge without outV has no adjacency"
  | built _ _ _ => "built LSIF graph"

abbrev Pass := EStateM Fault (Array Notice)

namespace Pass

variable {α : Type}

def note (n : Notice) : Pass Unit :=
  modify fun log => log.push n

def require (value : Option α) (fault : Fault) : Pass α :=
  match value with
  | some a => pure a
  | none => throw fault

def ofExcept : Except Fault α → Pass α
  | .ok a => pure a
  | .error fault => throw fault

def outcome (p : Pass α) : Array Notice × Except Fault α :=
  match p.run #[] with
  | .ok a log => (log, .ok a)
  | .error fault log => (log, .error fault)

end Pass

end Lsif
