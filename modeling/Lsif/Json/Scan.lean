import Lsif.Json.Draft
import Lsif.Json.Token

/-! The tokens of a JSON text. The text is read from left to right, one character at a time; between
two characters all that is known is the `Mode` and the tokens so far. Bare words end at the first
character that cannot belong to one, and only then are they looked at. -/

namespace Lsif.Json

def isSpace (c : Char) : Bool :=
  c = ' ' || c = '\t' || c = '\n' || c = '\r'

def hexDigit? (c : Char) : Option Nat :=
  if '0' ≤ c ∧ c ≤ '9' then some (c.toNat - '0'.toNat)
  else if 'a' ≤ c ∧ c ≤ 'f' then some (c.toNat - 'a'.toNat + 10)
  else if 'A' ≤ c ∧ c ≤ 'F' then some (c.toNat - 'A'.toNat + 10)
  else none

def escaped? : Char → Option Char
  | '"' => some '"'
  | '\\' => some '\\'
  | '/' => some '/'
  | 'b' => some '\x08'
  | 'f' => some '\x0c'
  | 'n' => some '\n'
  | 'r' => some '\r'
  | 't' => some '\t'
  | _ => none

inductive Mode where
  | between
  | word (chars : List Char)
  | string (draft : Draft)
  | escape (draft : Draft)
  | unit (draft : Draft) (missing : Nat) (value : Nat)

namespace Mode

def enter (c : Char) : Mode × List Token :=
  if isSpace c then (between, [])
  else if c = '"' then (string .empty, [])
  else match Token.ofMark? c with
    | some token => (between, [token])
    | none => (word [c], [])

def endsWord (c : Char) : Bool :=
  isSpace c || c = '"' || (Token.ofMark? c).isSome

def step : Mode → Char → Option (Mode × List Token)
  | between, c => some (enter c)
  | word cs, c =>
    if endsWord c then
      (Token.ofWord? cs.reverse).map fun token => ((enter c).1, token :: (enter c).2)
    else some (word (c :: cs), [])
  | string draft, c =>
    if c = '"' then some (between, [.string draft.finish])
    else if c = '\\' then some (escape draft, [])
    else if c < ' ' then none
    else some (string (draft.addChar c), [])
  | escape draft, c =>
    if c = 'u' then some (unit draft 3 0, [])
    else (escaped? c).map fun e => (string (draft.addChar e), [])
  | unit draft missing value, c =>
    (hexDigit? c).map fun d =>
      match missing with
      | 0 => (string (draft.addUnit (16 * value + d)), [])
      | m + 1 => (unit draft m (16 * value + d), [])

def finish : Mode → Option (List Token)
  | between => some []
  | word cs => (Token.ofWord? cs.reverse).map fun token => [token]
  | _ => none

end Mode

structure Scan where
  mode : Mode
  tokens : List Token

namespace Scan

def start : Scan := ⟨.between, []⟩

def step (scan : Scan) (c : Char) : Option Scan :=
  (scan.mode.step c).map fun next => ⟨next.1, next.2.reverse ++ scan.tokens⟩

def finish (scan : Scan) : Option (List Token) :=
  scan.mode.finish.map fun last => scan.tokens.reverse ++ last

end Scan

def tokens? (cs : List Char) : Option (List Token) := do
  let scan ← cs.foldlM Scan.step Scan.start
  scan.finish

end Lsif.Json
