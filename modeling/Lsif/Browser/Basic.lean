import Lsif.Browser.Command
import Lsif.Document.Search
import Lsif.Report

/-! Walking through a graph by typed commands. The browser keeps a caret and the text looked for
last; a command answers with text and moves the caret only if it succeeds. -/

namespace Lsif

structure Browser where
  caret : Nat := 0
  session : Session := {}
deriving DecidableEq, Repr

structure Reply where
  browser : Browser
  text : String
  more : Bool := true
deriving DecidableEq, Repr

namespace Browser

def complain (b : Browser) (c : Complaint) : Reply :=
  { browser := b, text := "❌ " ++ c.message ++ "\n" }

def select (g : Graph) (color : Bool) (b : Browser) (t : Target) : Reply :=
  match g.select t with
  | .ok e =>
    { browser := { b with caret := (g.document.lineStart? e.lineNumber).getD b.caret }
      text := Report.neighborhood g color e }
  | .error a => b.complain (.absent a)

def jump (g : Graph) (color : Bool) (b : Browser) (query : String) : Option Hit → Reply
  | some hit =>
    let selected := b.select g color (.line hit.line)
    { browser := { selected.browser with caret := hit.offset }
      text :=
        "🔍 match at offset " ++ toString hit.offset ++ " (line " ++ toString hit.line ++ ")\n" ++
          selected.text }
  | none => b.complain (.noMatch query)

def search (g : Graph) (color : Bool) (b : Browser) (query : String) : Reply :=
  jump g color { b with session := b.session.remember query } query (g.document.find? query 0)

def run (g : Graph) (color : Bool) (b : Browser) : Command → Reply
  | .nothing => { browser := b, text := "" }
  | .quit => { browser := b, text := "", more := false }
  | .help => { browser := b, text := Command.helpText }
  | .select t => b.select g color t
  | .find text =>
    if text.isEmpty then
      match b.session.query with
      | some query => b.search g color query
      | none => b.complain .findUsage
    else b.search g color text
  | .next =>
    match b.session.query with
    | some query => b.jump g color query (b.session.next? g.document b.caret)
    | none => b.complain .nothingToRepeat
  | .statistics => { browser := b, text := Report.statistics g.statistics }

def execute (g : Graph) (color : Bool) (b : Browser) (command : String) : Reply :=
  match Command.parse command with
  | .ok c => b.run g color c
  | .error c => b.complain c

def greeting (g : Graph) : String :=
  "Loaded " ++ toString g.document.lines.size ++ " lines. Type `help` for commands.\n"

def transcript (g : Graph) (color : Bool) (b : Browser) (out : String) : List String → String
  | [] => out
  | command :: rest =>
    let reply := b.execute g color (Text.trim command)
    if reply.more then transcript g color reply.browser (out ++ reply.text) rest
    else out ++ reply.text

end Browser

end Lsif
