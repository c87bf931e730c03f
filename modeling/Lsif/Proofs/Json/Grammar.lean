import Lsif.Proofs.Json.Numeral
import Lsif.Proofs.Layout

/-! The texts of a JSON value, rule by rule. Nothing here reads a text: the rules say which characters
may stand for a value, with white space around each part, digits of numbers as they are and each
character of a string in one of its spellings. -/

namespace Lsif

namespace Json

def HexDigit (c : Char) (n : Nat) : Prop :=
  n < 16 ∧ (c = Nat.digitChar n ∨ c = (Nat.digitChar n).toUpper)

/-- One spelling within a string stands for a character, or for 16 bits that may be half of one. -/
inductive Part where
  | char (c : Char)
  | unit (n : UInt16)

def escapes : List (Char × Char) :=
  [('"', '"'), ('\\', '\\'), ('/', '/'), ('b', '\x08'), ('f', '\x0c'), ('n', '\n'), ('r', '\r'),
    ('t', '\t')]

inductive PartText : List Char → Part → Prop
  | plain {c : Char} (hcontrol : ' ' ≤ c) (hquote : c ≠ '"') (hslash : c ≠ '\\') :
      PartText [c] (.char c)
  | escape {mark c : Char} (h : (mark, c) ∈ escapes) : PartText ['\\', mark] (.char c)
  | unit {a b c d : Char} {w x y z : Nat} (ha : HexDigit a w) (hb : HexDigit b x)
      (hc : HexDigit c y) (hd : HexDigit d z) {n : UInt16}
      (hn : n.toNat = 16 * (16 * (16 * w + x) + y) + z) :
      PartText ['\\', 'u', a, b, c, d] (.unit n)

inductive PartsText : List Char → List Part → Prop
  | nil : PartsText [] []
  | cons {cs ds : List Char} {p : Part} {ps : List Part} (h : PartText cs p) (hs : PartsText ds ps) :
      PartsText (cs ++ ds) (p :: ps)

/-- The characters that parts stand for. Two halves in a row are one character; a half alone is
none. -/
inductive Denotes : List Part → List Char → Prop
  | nil : Denotes [] []
  | char (c : Char) {ps : List Part} {cs : List Char} (h : Denotes ps cs) :
      Denotes (.char c :: ps) (c :: cs)
  | unit {c : Char} {n : UInt16} (hc : c.toNat = n.toNat) {ps : List Part} {cs : List Char}
      (h : Denotes ps cs) : Denotes (.unit n :: ps) (c :: cs)
  | pair {lead trail : UInt16} (hlead : 0xD800 ≤ lead.toNat ∧ lead.toNat < 0xDC00)
      (htrail : 0xDC00 ≤ trail.toNat ∧ trail.toNat < 0xE000) {c : Char}
      (hc : c.toNat = 0x10000 + (lead.toNat - 0xD800) * 0x400 + (trail.toNat - 0xDC00))
      {ps : List Part} {cs : List Char} (h : Denotes ps cs) :
      Denotes (.unit lead :: .unit trail :: ps) (c :: cs)

def StringText (cs : List Char) (s : Option String) : Prop :=
  ∃ body parts, cs = '"' :: (body ++ ['"']) ∧ PartsText body parts ∧
    ∀ t, s = some t ↔ Denotes parts t.toList

def KeyText (cs : List Char) (key : Option String) : Prop :=
  ∃ before body behind, cs = before ++ (body ++ behind) ∧ AllSpace before ∧ StringText body key ∧
    AllSpace behind

mutual

inductive ValueText : List Char → Json → Prop
  | null : ValueText ['n', 'u', 'l', 'l'] .null
  | true : ValueText ['t', 'r', 'u', 'e'] (.bool true)
  | false : ValueText ['f', 'a', 'l', 's', 'e'] (.bool false)
  | number {cs : List Char} {n : Numeral} (h : n.IsText cs) : ValueText cs (.number n)
  | string {cs : List Char} {s : Option String} (h : StringText cs s) : ValueText cs (.string s)
  | emptyArray {cs : List Char} (h : AllSpace cs) : ValueText ('[' :: (cs ++ [']'])) (.array [])
  | array {cs : List Char} {items : List Json} (h : ItemsText cs items) :
      ValueText ('[' :: (cs ++ [']'])) (.array items)
  | emptyObject {cs : List Char} (h : AllSpace cs) :
      ValueText ('\x7b' :: (cs ++ ['\x7d'])) (.object [])
  | object {cs : List Char} {members : List (Option String × Json)} (h : MembersText cs members) :
      ValueText ('\x7b' :: (cs ++ ['\x7d'])) (.object members)

inductive IsText : List Char → Json → Prop
  | intro {before cs behind : List Char} {v : Json} (hbefore : AllSpace before)
      (h : ValueText cs v) (hbehind : AllSpace behind) : IsText (before ++ (cs ++ behind)) v

inductive ItemsText : List Char → List Json → Prop
  | single {cs : List Char} {v : Json} (h : IsText cs v) : ItemsText cs [v]
  | cons {cs ds : List Char} {v : Json} {rest : List Json} (h : IsText cs v)
      (hrest : ItemsText ds rest) : ItemsText (cs ++ ',' :: ds) (v :: rest)

inductive MembersText : List Char → List (Option String × Json) → Prop
  | single {ks cs : List Char} {key : Option String} {v : Json} (hkey : KeyText ks key)
      (h : IsText cs v) : MembersText (ks ++ ':' :: cs) [(key, v)]
  | cons {ks cs ds : List Char} {key : Option String} {v : Json}
      {rest : List (Option String × Json)} (hkey : KeyText ks key) (h : IsText cs v)
      (hrest : MembersText ds rest) : MembersText (ks ++ ':' :: (cs ++ ',' :: ds)) ((key, v) :: rest)

end

end Json

end Lsif
