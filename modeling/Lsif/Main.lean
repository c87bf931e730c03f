import Lsif.CommandLine.Run

/-! The command line of the program. -/

namespace Lsif.CommandLine

def usage : String :=
  "Usage: lsif-inspect [OPTIONS] COMMAND\n\n" ++
  "Browse an LSIF dump as indented text and follow its edges\n\n" ++
  "Commands:\n" ++
  "  show FILE        print the indented dump [-n, --numbered]\n" ++
  "  stats FILE       count vertices and edges by label [-j, --json]\n" ++
  "  neighbors FILE   show an element and its direct neighbors\n" ++
  "                   (one of --id ID, -l LINE, -o OFFSET) [-j, --json]\n" ++
  "  find FILE TEXT   find text in the indented dump [-a, --all] [-j, --json]\n" ++
  "  browse FILE      navigate interactively with commands read from stdin\n\n" ++
  "Options:\n" ++
  "  --indent-step N, --lenient-events, --line-ending lf|crlf, --parallel, --no-color,\n" ++
  "  -v, --verbose, -h, --help, -V, --version\n"

def readContent (path : String) : IO (Option ByteArray) := do
  try
    return some (← IO.FS.readBinFile path)
  catch _ =>
    return none

partial def converse (g : Graph) (color : Bool) (b : Browser) : IO Unit := do
  let command ← (← IO.getStdin).getLine
  unless command.isEmpty do
    let reply := b.execute g color (Text.trim command)
    let stdout ← IO.getStdout
    stdout.putStr reply.text
    stdout.flush
    if reply.more then converse g color reply.browser

def Invocation.execute (inv : Invocation) : IO UInt32 := do
  let stdout ← IO.getStdout
  let color ← stdout.isTty
  match inv.load (← readContent inv.file) with
  | .error failure =>
    IO.eprintln ("Error: " ++ failure.message)
    return 1
  | .ok g =>
    if inv.action = .browse then
      stdout.putStr (Browser.greeting g)
      converse g (inv.color && color) {}
      return 0
    match inv.perform g color "" with
    | .ok text =>
      stdout.putStr text
      return 0
    | .error failure =>
      IO.eprintln ("Error: " ++ failure.message)
      return 1

end Lsif.CommandLine

open Lsif.CommandLine in
def main (args : List String) : IO UInt32 := do
  match parse args with
  | .ok inv => inv.execute
  | .error exit =>
    match exit with
    | .information => IO.print usage
    | .misuse => IO.eprint usage
    return exit.code.toUInt32
