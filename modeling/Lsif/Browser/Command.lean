import Lsif.Graph.Selection
import Lsif.Text.Blank
import Lsif.Text.Integer
import Lsif.Text.Quoted

/-! The commands that users type, and what they are told about commands that do nothing. -/

namespace Lsif

inductive Complaint where
  | lineUsage
  | offsetUsage
  | idUsage
  | findUsage
  | nothingToRepeat
  | unknownCommand (name : String)
  | absent (a : Absence)
  | noMatch (query : String)
deriving DecidableEq, Repr

def Complaint.message : Complaint → String
  | lineUsage => "usage: line N"
  | offsetUsage => "usage: offset N"
  | idUsage => "usage: id N"
  | findUsage => "usage: find TEXT"
  | nothingToRepeat => "nothing to repeat, use `find TEXT` first"
  | unknownCommand name => "unknown command `" ++ name ++ "`, try `help`"
  | absent a => a.message
  | noMatch query => "no match for " ++ Text.quoted query

inductive Command where
  | nothing
  | quit
  | help
  | select (t : Target)
  /-- The empty text stands for the one looked for last. -/
  | find (text : String)
  | next
  | statistics
deriving DecidableEq, Repr

namespace Command

def split (command : String) : String × String :=
  let cs := command.toList
  (String.ofList (cs.takeWhile (· != ' ')),
    Text.trim (String.ofList ((cs.dropWhile (· != ' ')).drop 1)))

def selectBy {α : Type} (value : Option α) (target : α → Target) (usage : Complaint) :
    Except Complaint Command :=
  match value with
  | some a => .ok (select (target a))
  | none => .error usage

def parse (command : String) : Except Complaint Command :=
  let (name, argument) := split command
  match name with
  | "" => .ok nothing
  | "quit" | "q" | "exit" => .ok quit
  | "help" | "?" => .ok help
  | "line" | "l" => selectBy (Text.unsigned? argument) .line .lineUsage
  | "offset" | "o" => selectBy (Text.unsigned? argument) .offset .offsetUsage
  | "id" | "i" => selectBy (Text.signed? argument) .id .idUsage
  | "find" | "f" => .ok (find argument)
  | "next" | "n" => .ok next
  | "stats" => .ok statistics
  | other => .error (.unknownCommand other)

def helpText : String :=
  "Commands:\n" ++
  "  line N      select line N (zero-based)\n" ++
  "  offset N    select the line containing character offset N\n" ++
  "  id N        select the vertex (or else edge) with id N\n" ++
  "  find TEXT   jump to the first occurrence of TEXT\n" ++
  "  next        jump to the next occurrence of the last search\n" ++
  "  stats       show label counts\n" ++
  "  help        show this text\n" ++
  "  quit        leave\n"

end Command

end Lsif
