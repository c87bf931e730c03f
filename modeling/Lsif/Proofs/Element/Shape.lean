import Lsif.Proofs.Element.Exact
import Lsif.Proofs.Element.RoundTrip

/-! What the texts that decode write. A record is meant to be an object that names its kind by a string;
an array that lists the fields by place is read as well, and so is an object for the kind, with its name
for the only key. There is no fourth shape, and in all three the other fields are what they are meant to
be. -/

namespace Lsif

theorem Field.mem_valuesIn_iff {f : Field} {members : List (Option String × Json)} {v : Json} :
    v ∈ f.valuesIn members ↔ (some f.key, v) ∈ members := by
  simp only [valuesIn, List.mem_map, List.mem_filter, decide_eq_true_eq]
  constructor
  · rintro ⟨m, ⟨hm, hkey⟩, rfl⟩
    rwa [← hkey]
  · intro hm
    exact ⟨(some f.key, v), ⟨hm, rfl⟩, rfl⟩

def FieldValues.placed (items : List Json) : FieldValues := fun f => items[Field.all.idxOf f]?

theorem FieldValues.ofJson?_array_iff {items : List Json} {values : FieldValues} :
    ofJson? (.array items) = some values ↔
      items.length ≤ Field.all.length ∧ placed items = values := by
  rw [ofJson?]
  split_ifs with hlength
  · rw [Option.some.injEq, and_iff_right hlength]
    rfl
  · simp only [hlength, false_and]

theorem FieldValues.of_members (values : FieldValues) : values.Of (Field.members values) :=
  Field.valuesIn_members values

namespace Element

/-- The members that a value gives a record. The items of an array have the keys of the fields, in their
order. -/
inductive GivesMembers : Json → List (Option String × Json) → Prop
  | object {members : List (Option String × Json)} (hkeys : ∀ m ∈ members, m.1 ≠ none) :
      GivesMembers (.object members) members
  | array {items : List Json} (hlength : items.length ≤ Field.all.length) :
      GivesMembers (.array items) (Field.members (.placed items))

theorem ofJson?_eq_some_iff {v : Json} {line : Nat} {e : Element} : ofJson? line v = some e ↔
    ∃ members values, GivesMembers v members ∧ FieldValues.Of values members ∧
      Describes values line e := by
  rw [ofJson?, Option.bind_eq_some_iff]
  simp only [ofFields?_eq_some_iff]
  constructor
  · rintro ⟨values, hvalues, he⟩
    cases v with
    | object members =>
      obtain ⟨hkeys, hof⟩ := FieldValues.ofJson?_object_iff.mp hvalues
      exact ⟨members, values, .object hkeys, hof, he⟩
    | array items =>
      obtain ⟨hlength, rfl⟩ := FieldValues.ofJson?_array_iff.mp hvalues
      exact ⟨_, _, .array hlength, FieldValues.of_members _, he⟩
    | _ => cases hvalues
  · rintro ⟨members, values, hgives, hof, he⟩
    refine ⟨values, ?_, he⟩
    cases hgives with
    | object hkeys => exact FieldValues.ofJson?_object_iff.mpr ⟨hkeys, hof⟩
    | array hlength =>
      have hsame (f : Field) : (FieldValues.placed _ f).toList = (values f).toList :=
        (FieldValues.of_members _ f).symm.trans (hof f)
      refine FieldValues.ofJson?_array_iff.mpr ⟨hlength, funext fun f => ?_⟩
      simpa only [Option.head?_toList] using congrArg List.head? (hsame f)

def TypeIs (members : List (Option String × Json)) (v : Json) : Prop :=
  ∀ w, (some Field.type.key, w) ∈ members ↔ w = v

structure Typed (members : List (Option String × Json)) : Prop where
  label (v : Json) (hv : (some "label", v) ∈ members) : ∃ s, v = .text s
  id (key : String) (hkey : key ∈ ["id", "outV", "inV"]) (v : Json) (hv : (some key, v) ∈ members) :
    v = .null ∨ IsId v
  inVs (v : Json) (hv : (some "inVs", v) ∈ members) :
    v = .null ∨ ∃ items, v = .array items ∧ ∀ item ∈ items, IsId item

inductive Documented : Json → Prop
  | object {members : List (Option String × Json)} (k : Kind) (htype : TypeIs members (.text k.name))
      (h : Typed members) : Documented (.object members)

structure ShapedAs (k : Kind) (v : Json) (members : List (Option String × Json)) : Prop where
  gives : GivesMembers v members
  type : TypeIs members (.text k.name) ∨ TypeIs members (.object [(some k.name, .null)])
  typed : Typed members
  documented_iff : Documented v ↔ v = .object members ∧ TypeIs members (.text k.name)

theorem typeIs_iff {values : FieldValues} {members : List (Option String × Json)}
    (h : values.Of members) (v : Json) : TypeIs members v ↔ values .type = some v := by
  simp only [TypeIs, ← Field.mem_valuesIn_iff, h .type, Option.mem_toList]
  constructor
  · intro hall
    exact (hall v).mpr rfl
  · intro hv w
    rw [hv, Option.some.injEq, eq_comm]

theorem typeIs_of_givesKind {values : FieldValues} {members : List (Option String × Json)} {k : Kind}
    (h : values.Of members) (hkind : GivesKind (values .type) k) :
    TypeIs members (.text k.name) ∨ TypeIs members (.object [(some k.name, .null)]) := by
  rw [typeIs_iff h, typeIs_iff h]
  cases hvalue : values .type with
  | none =>
    rw [hvalue] at hkind
    cases hkind
  | some v =>
    rw [hvalue] at hkind
    cases hkind with
    | name => exact .inl rfl
    | entry => exact .inr rfl

theorem Acceptable.typed {members : List (Option String × Json)} (h : Acceptable members) :
    Typed members where
  label v hv := h.label v (Field.mem_valuesIn_iff.mpr hv)
  id key hkey v hv := by
    simp only [List.mem_cons, List.not_mem_nil, or_false] at hkey
    rcases hkey with rfl | rfl | rfl
    · exact h.id .id (by decide) v (Field.mem_valuesIn_iff.mpr hv)
    · exact h.id .outV (by decide) v (Field.mem_valuesIn_iff.mpr hv)
    · exact h.id .inV (by decide) v (Field.mem_valuesIn_iff.mpr hv)
  inVs v hv := h.inVs v (Field.mem_valuesIn_iff.mpr hv)

theorem TypeIs.unique {members : List (Option String × Json)} {v w : Json} (hv : TypeIs members v)
    (hw : TypeIs members w) : v = w := (hw v).mp ((hv v).mpr rfl)

theorem documented_iff_of_gives {v : Json} {members : List (Option String × Json)} {k : Kind}
    (hgives : GivesMembers v members) (htyped : Typed members)
    (htype : TypeIs members (.text k.name) ∨ TypeIs members (.object [(some k.name, .null)])) :
    Documented v ↔ v = .object members ∧ TypeIs members (.text k.name) := by
  constructor
  · intro hdocumented
    cases hdocumented with
    | object k' hname _ =>
      cases hgives with
      | object _ =>
        refine ⟨rfl, htype.resolve_right fun hentry => ?_⟩
        cases hname.unique hentry
  · rintro ⟨rfl, hname⟩
    exact .object k hname htyped

/-- A text that decodes writes an object or, by the places of the fields, an array. The type is the name
of the kind or an object that has it for the only key, and the other fields are of their own types. It is
an object that names its kind by a string exactly if it is as it is meant to be. -/
theorem shapedAs_of_decode? {text : String} {line : Nat} {e : Element}
    (h : decode? text line = some e) :
    ∃ v members, Json.IsText text.toList v ∧ ShapedAs e.kind v members := by
  obtain ⟨v, hv, hrecord⟩ := Option.bind_eq_some_iff.mp h
  obtain ⟨members, values, hgives, hof, he⟩ := ofJson?_eq_some_iff.mp hrecord
  have htype := typeIs_of_givesKind hof he.kind
  have htyped := ((exists_describes_iff hof line).mp ⟨e, he⟩).typed
  exact ⟨v, members, Json.parse?_eq_some_iff.mp hv, hgives, htype, htyped,
    documented_iff_of_gives hgives htyped htype⟩

theorem shapedAs_of_decode?_places :
    let text := "[-7,\x7b\"edge\":null\x7d,\"\",null,3,[],1e3]"
    ∃ e v members, decode? text 5 = some e ∧ Json.IsText text.toList v ∧ ShapedAs e.kind v members ∧
      e.kind = .edge := by
  intro text
  have hdecode : (decode? text 5).map Element.kind = some .edge := by decide +kernel
  obtain ⟨e, he, hkind⟩ := Option.map_eq_some_iff.mp hdecode
  obtain ⟨v, members, hv, hshape⟩ := shapedAs_of_decode? he
  exact ⟨e, v, members, he, hv, hshape, hkind⟩

def DecodesUndocumented (text : String) : Prop :=
  (decode? text 0).isSome = true ∧ ∀ v, Json.IsText text.toList v → ¬Documented v

theorem decode?_undocumented : DecodesUndocumented "[null,\"vertex\"]" ∧
    DecodesUndocumented "\x7b\"type\":\x7b\"vertex\":null\x7d\x7d" := by
  refine ⟨⟨by decide +kernel, fun v hv hdocumented => ?_⟩,
    ⟨by decide +kernel, fun v hv hdocumented => ?_⟩⟩
  · rw [← Json.parse?_eq_some_iff] at hv
    obtain rfl : Json.array [.null, .text "vertex"] = v := Option.some.inj hv
    cases hdocumented
  · rw [← Json.parse?_eq_some_iff] at hv
    obtain rfl : Json.object [(some "type", .object [(some "vertex", .null)])] = v :=
      Option.some.inj hv
    cases hdocumented with
    | object k htype _ => cases (htype _).mp List.mem_cons_self

end Element
end Lsif
