import Lsif.Json.Reader
import Lsif.Proofs.Json.Scan

/-! Every text of a value is read as that value, however deep it is and whatever its strings and numerals
are. The text is cut into the tokens of the value; over these the induction follows the value, with the
arrays and objects around it on the reader's stack. -/

namespace Lsif.Json

/-! The tokens of a value. -/

mutual

def tokens : Json → List Token
  | null => [.null]
  | bool b => [.bool b]
  | number n => [.number n]
  | string t => [.string t]
  | array [] => [.openArray, .closeArray]
  | array (item :: rest) => .openArray :: (tokens item ++ (tokensOfItems rest ++ [.closeArray]))
  | object [] => [.openObject, .closeObject]
  | object ((key, value) :: rest) =>
    .openObject :: .string key :: .colon ::
      (tokens value ++ (tokensOfMembers rest ++ [.closeObject]))

def tokensOfItems : List Json → List Token
  | [] => []
  | item :: rest => .comma :: (tokens item ++ tokensOfItems rest)

def tokensOfMembers : List (Option String × Json) → List Token
  | [] => []
  | (key, value) :: rest =>
    .comma :: .string key :: .colon :: (tokens value ++ tokensOfMembers rest)

end

def itemTokens : List Json → List Token
  | [] => []
  | item :: rest => tokens item ++ tokensOfItems rest

def memberTokens : List (Option String × Json) → List Token
  | [] => []
  | (key, value) :: rest => .string key :: .colon :: (tokens value ++ tokensOfMembers rest)

theorem tokens_array (items : List Json) :
    tokens (array items) = .openArray :: (itemTokens items ++ [.closeArray]) := by
  cases items with
  | nil => rfl
  | cons item rest => rw [tokens, itemTokens, List.append_assoc]

theorem tokens_object (members : List (Option String × Json)) :
    tokens (object members) = .openObject :: (memberTokens members ++ [.closeObject]) := by
  rcases members with _ | ⟨⟨key, value⟩, rest⟩
  · rfl
  · simp [tokens, memberTokens]

theorem tokensOfItems_eq {items : List Json} (h : items ≠ []) :
    tokensOfItems items = .comma :: itemTokens items := by
  cases items with
  | nil => exact absurd rfl h
  | cons item rest => rfl

theorem tokensOfMembers_eq {members : List (Option String × Json)} (h : members ≠ []) :
    tokensOfMembers members = .comma :: memberTokens members := by
  cases members with
  | nil => exact absurd rfl h
  | cons m rest => rfl

theorem ItemsText.ne_nil {cs : List Char} {items : List Json} (h : ItemsText cs items) :
    items ≠ [] := by
  cases h <;> exact List.cons_ne_nil _ _

theorem MembersText.ne_nil {cs : List Char} {members : List (Option String × Json)}
    (h : MembersText cs members) : members ≠ [] := by
  cases h <;> exact List.cons_ne_nil _ _

theorem closed_keyText {cs : List Char} {key : Option String} (h : KeyText cs key) :
    Closed cs [.string key] := by
  obtain ⟨before, body, behind, rfl, hbefore, hbody, hbehind⟩ := h
  exact hbefore.closed.append ((closed_stringText hbody).append hbehind.closed)

theorem Writes.append_mark {cs ds : List Char} {ts us : List Token} {c : Char} {t : Token}
    (hcs : Writes cs ts) (hc : Token.ofMark? c = some t) (hds : Writes ds us) :
    Writes (cs ++ c :: ds) (ts ++ t :: us) := by
  have hends : Mode.endsWord c = true := by
    rw [Mode.endsWord, hc, Option.isSome_some, Bool.or_true]
  exact hcs.append ((closed_mark hc).append_writes hds) (endsWord_cons hends ds)

mutual

theorem writes_valueText {cs : List Char} {v : Json} (h : ValueText cs v) : Writes cs (tokens v) := by
  match h with
  | .null => exact writes_null
  | .true => exact writes_bool true
  | .false => exact writes_bool false
  | .number hn => exact writes_numeral hn
  | .string hs => exact (closed_stringText hs).writes
  | .emptyArray hspace =>
    exact (closed_mark rfl).append_writes (hspace.closed.writes.append_mark rfl closed_nil.writes)
  | .array hitems =>
    rw [tokens_array]
    exact (closed_mark rfl).append_writes ((writes_itemsText hitems).append_mark rfl closed_nil.writes)
  | .emptyObject hspace =>
    exact (closed_mark rfl).append_writes (hspace.closed.writes.append_mark rfl closed_nil.writes)
  | .object hmembers =>
    rw [tokens_object]
    exact (closed_mark rfl).append_writes
      ((writes_membersText hmembers).append_mark rfl closed_nil.writes)

theorem writes_isText {cs : List Char} {v : Json} (h : IsText cs v) : Writes cs (tokens v) := by
  match h with
  | .intro hbefore hv hbehind =>
    have hwrites := (writes_valueText hv).append hbehind.closed.writes hbehind.endsWord
    rw [List.append_nil] at hwrites
    exact hbefore.closed.append_writes hwrites

theorem writes_itemsText {cs : List Char} {items : List Json} (h : ItemsText cs items) :
    Writes cs (itemTokens items) := by
  match h with
  | .single hv =>
    rw [itemTokens, tokensOfItems, List.append_nil]
    exact writes_isText hv
  | .cons hv hrest =>
    rw [itemTokens, tokensOfItems_eq hrest.ne_nil]
    exact (writes_isText hv).append_mark rfl (writes_itemsText hrest)

theorem writes_membersText {cs : List Char} {members : List (Option String × Json)}
    (h : MembersText cs members) : Writes cs (memberTokens members) := by
  match h with
  | .single hkey hv =>
    rw [memberTokens, tokensOfMembers, List.append_nil]
    exact (closed_keyText hkey).writes.append_mark rfl (writes_isText hv)
  | .cons hkey hv hrest =>
    rw [memberTokens, tokensOfMembers_eq hrest.ne_nil]
    exact (closed_keyText hkey).writes.append_mark rfl
      ((writes_isText hv).append_mark rfl (writes_membersText hrest))

end

namespace Reading

theorem foldlM_firstItem (frames : List Frame) (v : Json) :
    (tokens v).foldlM step (firstItem frames) =
      (tokens v).foldlM step (value (.array [] :: frames)) := by
  cases v with
  | array items => cases items <;> rfl
  | object members => cases members <;> rfl
  | _ => rfl

mutual

theorem foldlM_tokens (frames : List Frame) (v : Json) :
    (tokens v).foldlM step (value frames) = some (ended frames v) := by
  match v with
  | null | bool _ | number _ | string _ | array [] | object [] => rfl
  | array (item :: rest) =>
    have hopen : [Token.openArray].foldlM step (value frames) = some (firstItem frames) := rfl
    have hitem := (foldlM_firstItem frames item).trans (foldlM_tokens (.array [] :: frames) item)
    rw [tokens, ← List.singleton_append, foldlM_append_eq hopen, foldlM_append_eq hitem]
    exact foldlM_tokensOfItems frames [] item rest
  | object ((name, member) :: rest) =>
    have hkey : [Token.openObject, .string name, .colon].foldlM step (value frames) =
        some (value (.object [] name :: frames)) := rfl
    have hmember := foldlM_tokens (.object [] name :: frames) member
    have hsplit : tokens (object ((name, member) :: rest)) = [.openObject, .string name, .colon] ++
        (tokens member ++ (tokensOfMembers rest ++ [.closeObject])) := rfl
    rw [hsplit, foldlM_append_eq hkey, foldlM_append_eq hmember]
    exact foldlM_tokensOfMembers frames [] name member rest

theorem foldlM_tokensOfItems (frames : List Frame) (before : List Json) (v : Json)
    (items : List Json) :
    (tokensOfItems items ++ [Token.closeArray]).foldlM step (ended (.array before :: frames) v) =
      some (ended frames (.array ((v :: before).reverse ++ items))) := by
  match items with
  | [] =>
    rw [List.append_nil]
    rfl
  | item :: rest =>
    have hcomma : [Token.comma].foldlM step (ended (.array before :: frames) v) =
        some (value (.array (v :: before) :: frames)) := rfl
    have hitem := foldlM_tokens (.array (v :: before) :: frames) item
    have hrest := foldlM_tokensOfItems frames (v :: before) item rest
    have hsplit : tokensOfItems (item :: rest) ++ [.closeArray] =
        [.comma] ++ (tokens item ++ (tokensOfItems rest ++ [.closeArray])) := by
      simp [tokensOfItems]
    rw [hsplit, foldlM_append_eq hcomma, foldlM_append_eq hitem, hrest, List.reverse_cons,
      List.append_assoc]
    rfl

theorem foldlM_tokensOfMembers (frames : List Frame) (before : List (Option String × Json))
    (k : Option String) (v : Json) (members : List (Option String × Json)) :
    (tokensOfMembers members ++ [Token.closeObject]).foldlM step (ended (.object before k :: frames) v) =
      some (ended frames (.object (((k, v) :: before).reverse ++ members))) := by
  match members with
  | [] =>
    rw [List.append_nil]
    rfl
  | (name, member) :: rest =>
    have hkey : [Token.comma, .string name, .colon].foldlM step
        (ended (.object before k :: frames) v) =
          some (value (.object ((k, v) :: before) name :: frames)) := rfl
    have hmember := foldlM_tokens (.object ((k, v) :: before) name :: frames) member
    have hrest := foldlM_tokensOfMembers frames ((k, v) :: before) name member rest
    have hsplit : tokensOfMembers ((name, member) :: rest) ++ [.closeObject] =
        [.comma, .string name, .colon] ++
          (tokens member ++ (tokensOfMembers rest ++ [.closeObject])) := by
      simp [tokensOfMembers]
    rw [hsplit, foldlM_append_eq hkey, foldlM_append_eq hmember, hrest, List.reverse_cons,
      List.append_assoc]
    rfl

end

end Reading

theorem ofTokens?_tokens (v : Json) : ofTokens? (tokens v) = some v := by
  rw [ofTokens?, Reading.begin, Reading.foldlM_tokens]
  rfl

theorem parse?_of_isText {text : String} {v : Json} (h : IsText text.toList v) :
    parse? text = some v := by
  rw [parse?, (writes_isText h).tokens?, Option.bind_some, ofTokens?_tokens]

end Lsif.Json
