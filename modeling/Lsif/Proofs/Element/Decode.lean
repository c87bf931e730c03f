import Lsif.Element.Decode
import Lsif.Proofs.Json.Readable
import Lsif.Proofs.Json.Reader

/-! Which objects are records, and what is read of them. What makes up the graph is read from values of its
own type alone; what is for display is kept if it is of the type that is shown, and must be data in any
case. Members are told apart by their keys only. -/

namespace Lsif

namespace Numeral

theorem int64?_eq_some_iff {n : Numeral} {i : Int64} :
    n.int64? = some i ↔ n.IsInteger i.toInt := by
  have hsize : UInt64.size = 2 ^ 64 := rfl
  have hmin : Int64.minValue.toInt = -2 ^ 63 := rfl
  have hmax : Int64.maxValue.toInt = 2 ^ 63 - 1 := rfl
  constructor
  · intro h
    obtain ⟨j, hj, h⟩ := Option.bind_eq_some_iff.mp h
    split_ifs at h with hrange
    obtain rfl := Option.some.inj h
    rw [Int64.toInt_ofInt_of_le (by omega) (by omega)]
    exact (integer?_eq_some_iff.mp hj).1
  · intro h
    have hlow := i.le_toInt
    have hhigh := i.toInt_lt
    have hint := integer?_eq_some_iff.mpr ⟨h, hlow, by omega⟩
    rw [int64?, hint, Option.bind_eq_bind, Option.bind_some, if_pos (by omega), Int64.ofInt_toInt]

theorem uint32?_eq_some_iff {n : Numeral} {m : UInt32} :
    n.uint32? = some m ↔ n.IsInteger m.toNat := by
  have hsize : UInt32.size = 2 ^ 32 := rfl
  have hsize64 : UInt64.size = 2 ^ 64 := rfl
  constructor
  · intro h
    obtain ⟨j, hj, h⟩ := Option.bind_eq_some_iff.mp h
    split_ifs at h with hrange
    obtain rfl := Option.some.inj h
    have hvalue : (UInt32.ofNat j.toNat).toNat = j.toNat := UInt32.toNat_ofNat_of_lt' (by omega)
    rw [hvalue, Int.toNat_of_nonneg hrange.1]
    exact (integer?_eq_some_iff.mp hj).1
  · intro h
    have hhigh := m.toNat_lt
    have hint := integer?_eq_some_iff.mpr ⟨h, by omega, by omega⟩
    rw [uint32?, hint, Option.bind_eq_bind, Option.bind_some, if_pos (by omega), Int.toNat_natCast,
      UInt32.ofNat_toNat]

end Numeral

namespace Json

def Latest (members : List (Option String × Json)) (key : String) : Option Json → Prop
  | none => ∀ m ∈ members, m.1 ≠ some key
  | some v => ∃ before behind, members = before ++ (some key, v) :: behind ∧
      ∀ m ∈ behind, m.1 ≠ some key

theorem lookup?_eq_iff {members : List (Option String × Json)} {key : String} {v : Option Json} :
    lookup? members key = v ↔ Latest members key v := by
  cases v with
  | none =>
    simp [lookup?, Latest, List.find?_eq_none]
  | some v =>
    rw [lookup?, Option.map_eq_some_iff]
    constructor
    · rintro ⟨⟨k, w⟩, hfind, rfl⟩
      obtain ⟨hkey, behind, before, hsplit, hnot⟩ := List.find?_eq_some_iff_append.mp hfind
      obtain rfl : k = some key := of_decide_eq_true hkey
      refine ⟨before.reverse, behind.reverse, ?_, ?_⟩
      · rw [← List.reverse_reverse members, hsplit]
        simp
      · intro m hm
        simpa using hnot m (List.mem_reverse.mp hm)
    · rintro ⟨before, behind, rfl, hnot⟩
      refine ⟨(some key, v), ?_, rfl⟩
      rw [List.find?_eq_some_iff_append]
      refine ⟨decide_eq_true rfl, behind.reverse, before.reverse, by simp, ?_⟩
      intro m hm
      simpa using hnot m (List.mem_reverse.mp hm)

end Json

inductive GivesInteger {α : Type} (value : α → Int) : Option Json → Option α → Prop
  | absent : GivesInteger value none none
  | null : GivesInteger value (some .null) none
  | number {n : Numeral} {a : α} (h : n.IsInteger (value a)) :
      GivesInteger value (some (.number n)) (some a)

theorem givesInteger_iff {α : Type} {value : α → Int} {read : Numeral → Option α}
    (hread : ∀ n a, read n = some a ↔ n.IsInteger (value a)) {v : Option Json} {a : Option α} :
    (match v with
      | none => some none
      | some .null => some none
      | some (.number n) => (read n).map some
      | some _ => none) = some a ↔ GivesInteger value v a := by
  constructor
  · intro h
    split at h
    · cases h
      exact .absent
    · cases h
      exact .null
    · obtain ⟨m, hm, rfl⟩ := Option.map_eq_some_iff.mp h
      exact .number ((hread _ _).mp hm)
    · cases h
  · rintro (_ | _ | h)
    · rfl
    · rfl
    · exact congrArg (Option.map some) ((hread _ _).mpr h)

namespace Position

abbrev Gives : Option Json → Option UInt32 → Prop := GivesInteger fun i => i.toNat

theorem number?_eq_some_iff {v : Option Json} {i : Option UInt32} : number? v = some i ↔ Gives v i :=
  givesInteger_iff fun _ _ => Numeral.uint32?_eq_some_iff

inductive Shown : Json → Position → Prop
  | object {members : List (Option String × Json)} {line character : Option Json} {p : Position}
      (hline : Json.Latest members "line" line) (hcharacter : Json.Latest members "character" character)
      (hl : Gives line p.line) (hc : Gives character p.character) : Shown (.object members) p
  | array {items : List Json} {p : Position} (hlength : items.length ≤ 2)
      (hl : Gives items[0]? p.line) (hc : Gives items[1]? p.character) : Shown (.array items) p

theorem ofJson?_eq_some_iff {v : Json} {p : Position} : ofJson? v = some p ↔ Shown v p := by
  constructor
  · intro h
    unfold ofJson? at h
    split at h
    · obtain ⟨l, hl, h⟩ := Option.bind_eq_some_iff.mp h
      obtain ⟨c, hc, h⟩ := Option.bind_eq_some_iff.mp h
      obtain rfl := Option.some.inj h
      exact .object (Json.lookup?_eq_iff.mp rfl) (Json.lookup?_eq_iff.mp rfl)
        (number?_eq_some_iff.mp hl) (number?_eq_some_iff.mp hc)
    · obtain ⟨l, hl, h⟩ := Option.bind_eq_some_iff.mp h
      obtain ⟨c, hc, h⟩ := Option.bind_eq_some_iff.mp h
      split_ifs at h with hlength
      obtain rfl := Option.some.inj h
      exact .array hlength (number?_eq_some_iff.mp hl) (number?_eq_some_iff.mp hc)
    · cases h
  · rintro (⟨hline, hcharacter, hl, hc⟩ | ⟨hlength, hl, hc⟩)
    · rw [ofJson?, Json.lookup?_eq_iff.mpr hline, Json.lookup?_eq_iff.mpr hcharacter,
        number?_eq_some_iff.mpr hl, number?_eq_some_iff.mpr hc]
      rfl
    · rw [ofJson?, number?_eq_some_iff.mpr hl, number?_eq_some_iff.mpr hc]
      exact if_pos hlength

end Position

namespace Element

abbrev GivesId : Option Json → Option Int64 → Prop := GivesInteger Int64.toInt

theorem id?_eq_some_iff {v : Option Json} {i : Option Int64} : id? v = some i ↔ GivesId v i :=
  givesInteger_iff fun _ _ => Numeral.int64?_eq_some_iff

inductive GivesIds : Option Json → List Int64 → Prop
  | absent : GivesIds none []
  | null : GivesIds (some .null) []
  | array {items : List Json} {ids : List Int64}
      (h : List.Forall₂ (fun item i => ∃ n, item = .number n ∧ n.IsInteger i.toInt) items ids) :
      GivesIds (some (.array items)) ids

theorem idOfItem?_eq_some_iff {v : Json} {i : Int64} :
    idOfItem? v = some i ↔ ∃ n, v = .number n ∧ n.IsInteger i.toInt := by
  cases v with
  | number n => simp [idOfItem?, Numeral.int64?_eq_some_iff]
  | _ => simp [idOfItem?]

theorem ids?_eq_some_iff {v : Option Json} {ids : List Int64} :
    ids? v = some ids ↔ GivesIds v ids := by
  have hitems (items : List Json) : items.mapM idOfItem? = some ids ↔
      List.Forall₂ (fun item i => ∃ n, item = .number n ∧ n.IsInteger i.toInt) items ids := by
    rw [mapM_eq_some_iff]
    simp only [idOfItem?_eq_some_iff]
  constructor
  · intro h
    unfold ids? at h
    split at h
    · cases h
      exact .absent
    · cases h
      exact .null
    · exact .array ((hitems _).mp h)
    · cases h
  · rintro (_ | _ | h)
    · rfl
    · rfl
    · exact (hitems _).mpr h

inductive GivesKind : Option Json → Kind → Prop
  | name (k : Kind) : GivesKind (some (.text k.name)) k
  | entry (k : Kind) : GivesKind (some (.object [(some k.name, .null)])) k

theorem ofName?_eq_some_iff {name : String} {k : Kind} :
    kind?.ofName? name = some k ↔ name = k.name := by
  constructor
  · intro h
    unfold kind?.ofName? at h
    split_ifs at h with hvertex hedge
    · cases h
      exact hvertex
    · cases h
      exact hedge
  · rintro rfl
    cases k <;> decide

theorem kind?_eq_some_iff {v : Option Json} {k : Kind} : v.bind kind? = some k ↔ GivesKind v k := by
  constructor
  · intro h
    obtain ⟨v, rfl, hv⟩ := Option.bind_eq_some_iff.mp h
    unfold kind? at hv
    split at hv
    · obtain rfl := ofName?_eq_some_iff.mp hv
      exact .name k
    · obtain rfl := ofName?_eq_some_iff.mp hv
      exact .entry k
    · cases hv
  · rintro (_ | _)
    · exact ofName?_eq_some_iff.mpr rfl
    · exact ofName?_eq_some_iff.mpr rfl

inductive GivesLabel : Option Json → String → Prop
  | absent : GivesLabel none ""
  | text (s : String) : GivesLabel (some (.text s)) s

theorem label?_eq_some_iff {v : Option Json} {s : String} : label? v = some s ↔ GivesLabel v s := by
  constructor
  · intro h
    unfold label? at h
    split at h
    · cases h
      exact .absent
    · obtain rfl := h
      exact .text s
    · cases h
  · rintro (_ | _)
    · rfl
    · rfl

/-- What is for display: any data, of which only what `Shows` says is kept. The record itself is one of the
arrays and objects around it. -/
inductive GivesShown {α : Type} (Shows : Json → α → Prop) : Option Json → Option α → Prop
  | absent : GivesShown Shows none none
  | kept {v : Json} {a : α} (hdata : Json.Data (Json.maxLevels - 1) v) (h : Shows v a) :
      GivesShown Shows (some v) (some a)
  | dropped {v : Json} (hdata : Json.Data (Json.maxLevels - 1) v) (h : ∀ a, ¬Shows v a) :
      GivesShown Shows (some v) none

theorem shown?_eq_some_iff {α : Type} {view : Json → Option α} {Shows : Json → α → Prop}
    (hview : ∀ v a, view v = some a ↔ Shows v a) {v : Option Json} {a : Option α} :
    shown? view v = some a ↔ GivesShown Shows v a := by
  constructor
  · intro h
    unfold shown? at h
    split at h
    · cases h
      exact .absent
    · split_ifs at h with hreadable
      have hdata := (Json.readable_iff _ _).mp hreadable
      obtain rfl := Option.some.inj h
      cases hv : view _ with
      | none => exact .dropped hdata fun a ha => absurd ((hview _ a).mpr ha) (by simp [hv])
      | some a => exact .kept hdata ((hview _ a).mp hv)
  · rintro (_ | ⟨hdata, h⟩ | ⟨hdata, h⟩)
    · rfl
    · rw [shown?, if_pos ((Json.readable_iff _ _).mpr hdata), (hview _ _).mpr h]
    · rw [shown?, if_pos ((Json.readable_iff _ _).mpr hdata), Option.some.injEq,
        Option.eq_none_iff_forall_ne_some]
      exact fun a ha => h a ((hview _ a).mp ha)

def ShowsText (v : Json) (s : String) : Prop := v = .text s

theorem string?_eq_some_iff (v : Json) (s : String) : v.string? = some s ↔ ShowsText v s := by
  cases v <;> simp [Json.string?, ShowsText, Json.text]

structure Describes (values : FieldValues) (line : Nat) (e : Element) : Prop where
  id : GivesId (values .id) e.id
  kind : GivesKind (values .type) e.kind
  label : GivesLabel (values .label) e.label
  outV : GivesId (values .outV) e.outV
  inV : GivesId (values .inV) e.inV
  inVs : GivesIds (values .inVs) e.inVs
  uri : GivesShown ShowsText (values .uri) e.uri
  start : GivesShown Position.Shown (values .start) e.start
  stop : GivesShown Position.Shown (values .stop) e.stop
  identifier : GivesShown ShowsText (values .identifier) e.identifier
  name : GivesShown ShowsText (values .name) e.name
  eventKind : GivesShown ShowsText (values .kind) e.eventKind
  lineNumber : e.lineNumber = line

theorem ofFields?_eq_some_iff {line : Nat} {values : FieldValues} {e : Element} :
    ofFields? line values = some e ↔ Describes values line e := by
  have hposition {v : Option Json} {p : Option Position} :
      shown? Position.ofJson? v = some p ↔ GivesShown Position.Shown v p :=
    shown?_eq_some_iff fun _ _ => Position.ofJson?_eq_some_iff
  have htext {v : Option Json} {s : Option String} :
      shown? Json.string? v = some s ↔ GivesShown ShowsText v s := shown?_eq_some_iff string?_eq_some_iff
  constructor
  · intro h
    obtain ⟨id, hid, h⟩ := Option.bind_eq_some_iff.mp h
    obtain ⟨kind, hkind, h⟩ := Option.bind_eq_some_iff.mp h
    obtain ⟨label, hlabel, h⟩ := Option.bind_eq_some_iff.mp h
    obtain ⟨outV, houtV, h⟩ := Option.bind_eq_some_iff.mp h
    obtain ⟨inV, hinV, h⟩ := Option.bind_eq_some_iff.mp h
    obtain ⟨inVs, hinVs, h⟩ := Option.bind_eq_some_iff.mp h
    obtain ⟨uri, huri, h⟩ := Option.bind_eq_some_iff.mp h
    obtain ⟨start, hstart, h⟩ := Option.bind_eq_some_iff.mp h
    obtain ⟨stop, hstop, h⟩ := Option.bind_eq_some_iff.mp h
    obtain ⟨identifier, hidentifier, h⟩ := Option.bind_eq_some_iff.mp h
    obtain ⟨name, hname, h⟩ := Option.bind_eq_some_iff.mp h
    obtain ⟨eventKind, heventKind, h⟩ := Option.bind_eq_some_iff.mp h
    obtain rfl := Option.some.inj h
    exact ⟨id?_eq_some_iff.mp hid, kind?_eq_some_iff.mp hkind, label?_eq_some_iff.mp hlabel,
      id?_eq_some_iff.mp houtV, id?_eq_some_iff.mp hinV, ids?_eq_some_iff.mp hinVs, htext.mp huri,
      hposition.mp hstart, hposition.mp hstop, htext.mp hidentifier, htext.mp hname,
      htext.mp heventKind, rfl⟩
  · intro h
    simp only [ofFields?, id?_eq_some_iff.mpr h.id, kind?_eq_some_iff.mpr h.kind,
      label?_eq_some_iff.mpr h.label, id?_eq_some_iff.mpr h.outV, id?_eq_some_iff.mpr h.inV,
      ids?_eq_some_iff.mpr h.inVs, htext.mpr h.uri, hposition.mpr h.start, hposition.mpr h.stop,
      htext.mpr h.identifier, htext.mpr h.name, htext.mpr h.eventKind, Option.bind_eq_bind,
      Option.bind_some, ← h.lineNumber]
    rfl

end Element

/-! Members. -/

theorem Field.mem_all (f : Field) : f ∈ all := by
  cases f <;> decide

/-- Each field has one member at most, and the value is that of its member. -/
def FieldValues.Of (values : FieldValues) (members : List (Option String × Json)) : Prop :=
  ∀ f : Field, f.valuesIn members = (values f).toList

theorem perm_toList_iff {α : Type} {as : List α} {a : Option α} :
    as.Perm a.toList ↔ as = a.toList := by
  cases a with
  | none => exact List.perm_nil
  | some a => exact List.perm_singleton

theorem toList_head?_of_length_le {α : Type} {as : List α} (h : as.length ≤ 1) :
    as.head?.toList = as := by
  match as, h with
  | [], _ => rfl
  | [a], _ => rfl

theorem FieldValues.ofJson?_object_iff {members : List (Option String × Json)} {values : FieldValues} :
    ofJson? (.object members) = some values ↔ (∀ m ∈ members, m.1 ≠ none) ∧ values.Of members := by
  constructor
  · intro h
    rw [ofJson?] at h
    split_ifs at h with hall
    obtain rfl := Option.some.inj h
    rw [Bool.and_eq_true, List.all_eq_true, List.all_eq_true] at hall
    refine ⟨fun m hm => Option.isSome_iff_ne_none.mp (hall.1 m hm), fun f => ?_⟩
    exact (toList_head?_of_length_le (of_decide_eq_true (hall.2 f f.mem_all))).symm
  · rintro ⟨hkeys, hvalues⟩
    have hsome : members.all (·.1.isSome) = true :=
      List.all_eq_true.mpr fun m hm => Option.isSome_iff_ne_none.mpr (hkeys m hm)
    have honce : (Field.all.all fun f => (f.valuesIn members).length ≤ 1) = true := by
      rw [List.all_eq_true]
      intro f _
      rw [hvalues f]
      exact decide_eq_true Option.length_toList_le
    have hhead : (fun f : Field => (f.valuesIn members).head?) = values := by
      funext f
      rw [hvalues f, Option.head?_toList]
    rw [ofJson?, hsome, honce, Bool.true_and, if_pos rfl, hhead]

theorem Element.decode?_eq_some_iff {text : String} {members : List (Option String × Json)}
    (h : Json.IsText text.toList (.object members)) {line : Nat} {e : Element} :
    decode? text line = some e ↔ (∀ m ∈ members, m.1 ≠ none) ∧
      ∃ values : FieldValues, values.Of members ∧ Describes values line e := by
  rw [decode?, Json.parse?_of_isText h, Option.bind_some, ofJson?, Option.bind_eq_some_iff]
  simp only [FieldValues.ofJson?_object_iff, ofFields?_eq_some_iff, and_assoc, exists_and_left]

end Lsif
