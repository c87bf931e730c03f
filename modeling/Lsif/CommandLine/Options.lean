/-! The options, operands and commands of the command line. -/

namespace Lsif.CommandLine

inductive Exit where
  | misuse
  | information
deriving DecidableEq, Repr

def Exit.code : Exit → Nat
  | misuse => 2
  | information => 0

inductive Switch where
  | help
  | version
  | lenientEvents
  | parallel
  | noColor
  | verbose
  | numbered
  | json
  | all
deriving DecidableEq, Repr

inductive Setting where
  | indentStep
  | lineEnding
  | id
  | line
  | offset
deriving DecidableEq, Repr

inductive Operand where
  | file
  | text
deriving DecidableEq, Repr

inductive OptionKind where
  | switch (s : Switch)
  | setting (s : Setting)
deriving DecidableEq, Repr

structure OptionName where
  long : String
  short : Option Char := none
  kind : OptionKind

inductive Verb where
  | print
  | stats
  | neighbors
  | find
  | browse
deriving DecidableEq, Repr

def sharedOptions : List OptionName :=
  [{ long := "indent-step", kind := .setting .indentStep },
    { long := "lenient-events", kind := .switch .lenientEvents },
    { long := "line-ending", kind := .setting .lineEnding },
    { long := "parallel", kind := .switch .parallel },
    { long := "no-color", kind := .switch .noColor },
    { long := "verbose", short := some 'v', kind := .switch .verbose },
    { long := "help", short := some 'h', kind := .switch .help }]

def outerOptions : List OptionName :=
  { long := "version", short := some 'V', kind := .switch .version } :: sharedOptions

namespace Verb

def ofName? : String → Option Verb
  | "show" | "cat" => some print
  | "stats" | "st" => some stats
  | "neighbors" | "nb" => some neighbors
  | "find" | "search" | "f" => some find
  | "browse" | "b" => some browse
  | _ => none

def jsonOption : OptionName := { long := "json", short := some 'j', kind := .switch .json }

def options (v : Verb) : List OptionName :=
  (match v with
    | print => [{ long := "numbered", short := some 'n', kind := .switch .numbered }]
    | stats => [jsonOption]
    | neighbors =>
      [{ long := "id", kind := .setting .id },
        { long := "line", short := some 'l', kind := .setting .line },
        { long := "offset", short := some 'o', kind := .setting .offset },
        jsonOption]
    | find => [{ long := "all", short := some 'a', kind := .switch .all }, jsonOption]
    | browse => []) ++ sharedOptions

def operands : Verb → List Operand
  | find => [.file, .text]
  | _ => [.file]

end Verb

end Lsif.CommandLine
