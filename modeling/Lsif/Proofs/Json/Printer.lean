import Lsif.Json.Printer
import Lsif.Proofs.Json.Reader

/-! Writing a value gives one of its texts. The white space between the parts is left open: in one line and
with a line for each part are two settings of it. So reading undoes writing, whatever the value is. -/

namespace Lsif.Json

/-! Strings. -/

def stringChars : Option String → List Char
  | some s => '"' :: s.toList.flatMap (fun c => (escapedChar c).toList) ++ ['"']
  | none => ['"', '\\', 'u', 'd', '8', '0', '0', '"']

theorem toList_writeString (out : String) (s : Option String) :
    (writeString out s).toList = out.toList ++ stringChars s := by
  cases s with
  | none =>
    rw [writeString, String.toList_append]
    rfl
  | some s =>
    have hchar (out : String) (c : Char) :
        (out ++ escapedChar c).toList = out.toList ++ (escapedChar c).toList := String.toList_append
    rw [writeString, String.toList_append, Text.toList_foldl hchar, String.toList_append]
    simp [stringChars]

theorem hexDigit_digitChar {n : Nat} (h : n < 16) : HexDigit (Nat.digitChar n) n := ⟨h, .inl rfl⟩

theorem exists_partText_escapedChar (c : Char) : ∃ p, PartText (escapedChar c).toList p ∧
    ∀ ps cs, Denotes ps cs → Denotes (p :: ps) (c :: cs) := by
  have hescape {mark : Char} (h : (mark, c) ∈ escapes) : ∃ p, PartText ['\\', mark] p ∧
      ∀ ps cs, Denotes ps cs → Denotes (p :: ps) (c :: cs) :=
    ⟨.char c, .escape h, fun _ _ => .char c⟩
  have hunit {a b : Char} {high low : Nat} (ha : HexDigit a high) (hb : HexDigit b low)
      (hc : 16 * high + low = c.toNat) : ∃ p, PartText ['\\', 'u', '0', '0', a, b] p ∧
        ∀ ps cs, Denotes ps cs → Denotes (p :: ps) (c :: cs) := by
    have hzero : HexDigit '0' 0 := hexDigit_digitChar (by decide)
    have hhigh := ha.1
    have hlow := hb.1
    have hsize : UInt16.size = 2 ^ 16 := rfl
    have hn : (UInt16.ofNat c.toNat).toNat = c.toNat := UInt16.toNat_ofNat_of_lt (by omega)
    exact ⟨.unit (UInt16.ofNat c.toNat), .unit hzero hzero ha hb (by omega), fun _ _ => .unit hn.symm⟩
  unfold escapedChar
  split
  case h_8 hquote hslash _ _ _ _ _ =>
    split_ifs with hlow hcontrol
    · have hchars : ("\\u000" ++ Text.hexadecimal c.toNat).toList =
          ['\\', 'u', '0', '0', '0', Nat.digitChar c.toNat] := by
        rw [String.toList_append, Text.toList_hexadecimal_of_lt hlow]
        rfl
      rw [hchars]
      exact hunit (hexDigit_digitChar (by decide : 0 < 16)) (hexDigit_digitChar hlow) (by omega)
    · have hge : 16 ≤ c.toNat := Nat.le_of_not_lt hlow
      have hchars : ("\\u00" ++ Text.hexadecimal c.toNat).toList =
          ['\\', 'u', '0', '0', '1', Nat.digitChar (c.toNat - 16)] := by
        rw [String.toList_append, Text.toList_hexadecimal_of_ge hge hcontrol]
        rfl
      rw [hchars]
      exact hunit (hexDigit_digitChar (by decide : 1 < 16)) (hexDigit_digitChar (by omega)) (by omega)
    · rw [String.toList_singleton]
      exact ⟨.char c, .plain (Char.not_lt.mp hcontrol) hquote hslash, fun _ _ => .char c⟩
  all_goals exact hescape (by decide)

theorem exists_partsText_escapedChars (cs : List Char) : ∃ ps,
    PartsText (cs.flatMap fun c => (escapedChar c).toList) ps ∧ Denotes ps cs := by
  induction cs with
  | nil => exact ⟨[], .nil, .nil⟩
  | cons c cs ih =>
    obtain ⟨ps, hps, hcs⟩ := ih
    obtain ⟨p, hp, hc⟩ := exists_partText_escapedChar c
    exact ⟨p :: ps, .cons hp hps, hc ps cs hcs⟩

theorem stringText_stringChars (s : Option String) : StringText (stringChars s) s := by
  cases s with
  | none =>
    have hunit : PartText ['\\', 'u', 'd', '8', '0', '0'] (.unit 0xD800) :=
      .unit (hexDigit_digitChar (by decide : 13 < 16)) (hexDigit_digitChar (by decide : 8 < 16))
        (hexDigit_digitChar (by decide : 0 < 16)) (hexDigit_digitChar (by decide : 0 < 16)) rfl
    refine ⟨_, _, rfl, .cons hunit .nil, fun t => ?_⟩
    exact iff_of_false (Option.some_ne_none t).symm (Denotes.not_lead rfl (by simp))
  | some s =>
    obtain ⟨ps, hps, hs⟩ := exists_partsText_escapedChars s.toList
    refine ⟨_, ps, rfl, hps, fun t => ?_⟩
    rw [← Draft.finish_foldl_empty, (Draft.finish_foldl_empty ps s).mpr hs]

/-! Values. -/

structure Spacing where
  newLine : Nat → List Char
  afterColon : List Char
  allSpace_newLine : ∀ level, AllSpace (newLine level)
  allSpace_afterColon : AllSpace afterColon

theorem toList_newLine (level : Nat) :
    (newLine level).toList = '\n' :: List.replicate (2 * level) ' ' := by
  simp [newLine, Text.spaces]

theorem allSpace_newLine (level : Nat) : AllSpace (newLine level).toList := by
  intro c hc
  rw [toList_newLine] at hc
  rcases List.mem_cons.mp hc with rfl | hc
  · rfl
  · exact allSpace_replicate (2 * level) c hc

namespace Spacing

def oneLine : Spacing where
  newLine _ := []
  afterColon := []
  allSpace_newLine _ := List.forall_mem_nil _
  allSpace_afterColon := List.forall_mem_nil _

def indented : Spacing where
  newLine level := (Json.newLine level).toList
  afterColon := [' ']
  allSpace_newLine := Json.allSpace_newLine
  allSpace_afterColon := allSpace_replicate 1

end Spacing

def keyChars (s : Spacing) (key : Option String) : List Char :=
  stringChars key ++ ':' :: s.afterColon

variable (s : Spacing)

mutual

def written (level : Nat) : Json → List Char
  | null => "null".toList
  | bool b => (if b then "true" else "false").toList
  | number n => n.render.toList
  | string t => stringChars t
  | array [] => ['[', ']']
  | array (item :: rest) =>
    '[' :: s.newLine (level + 1) ++ (written (level + 1) item ++
      (writtenItems (level + 1) rest ++ (s.newLine level ++ [']'])))
  | object [] => ['\x7b', '\x7d']
  | object ((key, value) :: rest) =>
    '\x7b' :: s.newLine (level + 1) ++ keyChars s key ++ (written (level + 1) value ++
      (writtenMembers (level + 1) rest ++ (s.newLine level ++ ['\x7d'])))

def writtenItems (level : Nat) : List Json → List Char
  | [] => []
  | item :: rest =>
    ',' :: s.newLine level ++ (written level item ++ writtenItems level rest)

def writtenMembers (level : Nat) : List (Option String × Json) → List Char
  | [] => []
  | (key, value) :: rest =>
    ',' :: s.newLine level ++ keyChars s key ++ (written level value ++ writtenMembers level rest)

end

mutual

theorem toList_writeCompact (level : Nat) (out : String) (v : Json) :
    (writeCompact out v).toList = out.toList ++ written .oneLine level v := by
  match v with
  | null | bool _ | number _ => simp [writeCompact, written]
  | string t => simp [writeCompact, written, toList_writeString]
  | array [] | object [] => simp [writeCompact, written]
  | array (item :: rest) =>
    simp [writeCompact, written, toList_writeCompactItems (level + 1) _ rest,
      toList_writeCompact (level + 1) _ item, Spacing.oneLine]
  | object ((key, value) :: rest) =>
    simp [writeCompact, written, toList_writeCompactMembers (level + 1) _ rest,
      toList_writeCompact (level + 1) _ value, toList_writeString, keyChars, Spacing.oneLine]

theorem toList_writeCompactItems (level : Nat) (out : String) (items : List Json) :
    (writeCompactItems out items).toList = out.toList ++ writtenItems .oneLine level items := by
  match items with
  | [] => simp [writeCompactItems, writtenItems]
  | item :: rest =>
    simp [writeCompactItems, writtenItems, toList_writeCompactItems level _ rest,
      toList_writeCompact level _ item, Spacing.oneLine]

theorem toList_writeCompactMembers (level : Nat) (out : String)
    (members : List (Option String × Json)) :
    (writeCompactMembers out members).toList =
      out.toList ++ writtenMembers .oneLine level members := by
  match members with
  | [] => simp [writeCompactMembers, writtenMembers]
  | (key, value) :: rest =>
    simp [writeCompactMembers, writtenMembers, toList_writeCompactMembers level _ rest,
      toList_writeCompact level _ value, toList_writeString, keyChars, Spacing.oneLine]

end

mutual

theorem toList_writePretty (level : Nat) (out : String) (v : Json) :
    (writePretty level out v).toList = out.toList ++ written .indented level v := by
  match v with
  | null | bool _ | number _ => simp [writePretty, written]
  | string t => simp [writePretty, written, toList_writeString]
  | array [] | object [] => simp [writePretty, written]
  | array (item :: rest) =>
    simp [writePretty, written, toList_writePrettyItems (level + 1) _ rest,
      toList_writePretty (level + 1) _ item, Spacing.indented]
  | object ((key, value) :: rest) =>
    simp [writePretty, written, toList_writePrettyMembers (level + 1) _ rest,
      toList_writePretty (level + 1) _ value, toList_writeString, keyChars, Spacing.indented]

theorem toList_writePrettyItems (level : Nat) (out : String) (items : List Json) :
    (writePrettyItems level out items).toList = out.toList ++ writtenItems .indented level items := by
  match items with
  | [] => simp [writePrettyItems, writtenItems]
  | item :: rest =>
    simp [writePrettyItems, writtenItems, toList_writePrettyItems level _ rest,
      toList_writePretty level _ item, Spacing.indented]

theorem toList_writePrettyMembers (level : Nat) (out : String)
    (members : List (Option String × Json)) :
    (writePrettyMembers level out members).toList =
      out.toList ++ writtenMembers .indented level members := by
  match members with
  | [] => simp [writePrettyMembers, writtenMembers]
  | (key, value) :: rest =>
    simp [writePrettyMembers, writtenMembers, toList_writePrettyMembers level _ rest,
      toList_writePretty level _ value, toList_writeString, keyChars, Spacing.indented]

end

theorem keyText_stringChars {before : List Char} (hbefore : AllSpace before) (key : Option String) :
    KeyText (before ++ stringChars key) key :=
  ⟨before, _, [], by rw [List.append_nil], hbefore, stringText_stringChars key, List.forall_mem_nil _⟩

mutual

theorem valueText_written (level : Nat) (v : Json) : ValueText (written s level v) v := by
  match v with
  | null => exact .null
  | bool true => exact .true
  | bool false => exact .false
  | number n => exact .number n.isText_render
  | string t => exact .string (stringText_stringChars t)
  | array [] => exact .emptyArray (List.forall_mem_nil _)
  | object [] => exact .emptyObject (List.forall_mem_nil _)
  | array (item :: rest) =>
    have hitems := itemsText_written (level + 1) (s.allSpace_newLine (level + 1))
      (valueText_written (level + 1) item) rest (s.allSpace_newLine level)
    have harray := ValueText.array hitems
    simpa [written] using harray
  | object ((key, value) :: rest) =>
    have hmembers := membersText_written (level + 1) (s.allSpace_newLine (level + 1)) key
      (valueText_written (level + 1) value) rest (s.allSpace_newLine level)
    have hobject := ValueText.object hmembers
    simpa [written, keyChars] using hobject

theorem itemsText_written (level : Nat) {before cs behind : List Char} (hbefore : AllSpace before)
    {item : Json} (hitem : ValueText cs item) (rest : List Json) (hbehind : AllSpace behind) :
    ItemsText (before ++ (cs ++ (writtenItems s level rest ++ behind))) (item :: rest) := by
  match rest with
  | [] => exact .single (.intro hbefore hitem hbehind)
  | next :: rest =>
    have hrest := itemsText_written level (s.allSpace_newLine level)
      (valueText_written level next) rest hbehind
    have hitems := ItemsText.cons (.intro hbefore hitem (List.forall_mem_nil _)) hrest
    simpa [writtenItems] using hitems

theorem membersText_written (level : Nat) {before cs behind : List Char} (hbefore : AllSpace before)
    (key : Option String) {value : Json} (hvalue : ValueText cs value)
    (rest : List (Option String × Json)) (hbehind : AllSpace behind) :
    MembersText (before ++ keyChars s key ++ (cs ++ (writtenMembers s level rest ++ behind)))
      ((key, value) :: rest) := by
  match rest with
  | [] =>
    have hmember := MembersText.single (keyText_stringChars hbefore key)
      (.intro s.allSpace_afterColon hvalue hbehind)
    simpa [writtenMembers, keyChars] using hmember
  | (name, next) :: rest =>
    have hrest := membersText_written level (s.allSpace_newLine level) name
      (valueText_written level next) rest hbehind
    have hmembers := MembersText.cons (keyText_stringChars hbefore key)
      (.intro s.allSpace_afterColon hvalue (List.forall_mem_nil _)) hrest
    simpa [writtenMembers, keyChars] using hmembers

end

theorem isText_written (level : Nat) (v : Json) : IsText (written s level v) v := by
  have htext := IsText.intro (List.forall_mem_nil _) (valueText_written s level v)
    (List.forall_mem_nil _)
  rwa [List.append_nil] at htext

theorem isText_compact (v : Json) : IsText (compact v).toList v := by
  have hchars : (compact v).toList = written .oneLine 0 v := toList_writeCompact 0 "" v
  rw [hchars]
  exact isText_written .oneLine 0 v

theorem isText_writePretty (level : Nat) (v : Json) : IsText (writePretty level "" v).toList v := by
  have hchars : (writePretty level "" v).toList = written .indented level v :=
    toList_writePretty level "" v
  rw [hchars]
  exact isText_written .indented level v

theorem parse?_compact (v : Json) : parse? (compact v) = some v :=
  parse?_of_isText (isText_compact v)

theorem parse?_writePretty (level : Nat) (v : Json) : parse? (writePretty level "" v) = some v :=
  parse?_of_isText (isText_writePretty level v)

end Lsif.Json
