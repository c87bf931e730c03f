import Lsif.Proofs.Element.Decode
import Lsif.Proofs.Json.Sound

/-! Which objects are records, by their members. An object is decoded exactly if its members are
acceptable, whatever their order is and whatever other members stand among them. -/

namespace Lsif.Element

def IsId (v : Json) : Prop := ∃ n, v = .number n ∧ ∃ i : Int64, n.IsInteger i.toInt

def displayFields : List Field := [.uri, .start, .stop, .identifier, .name, .kind]

structure Acceptable (members : List (Option String × Json)) : Prop where
  once (f : Field) : (f.valuesIn members).length ≤ 1
  type : ∃ v ∈ Field.type.valuesIn members, ∃ k : Kind,
    v = .text k.name ∨ v = .object [(some k.name, .null)]
  id (f : Field) (hf : f ∈ [Field.id, .outV, .inV]) (v : Json) (hv : v ∈ f.valuesIn members) :
    v = .null ∨ IsId v
  label (v : Json) (hv : v ∈ Field.label.valuesIn members) : ∃ s, v = .text s
  inVs (v : Json) (hv : v ∈ Field.inVs.valuesIn members) :
    v = .null ∨ ∃ items, v = .array items ∧ ∀ item ∈ items, IsId item
  display (f : Field) (hf : f ∈ displayFields) (v : Json) (hv : v ∈ f.valuesIn members) :
    Json.Data (Json.maxLevels - 1) v

section Values

variable {v : Option Json}

theorem exists_givesId_iff : (∃ i, GivesId v i) ↔ ∀ w ∈ v, w = .null ∨ IsId w := by
  constructor
  · rintro ⟨_, _ | _ | h⟩ w hw
    · cases hw
    · cases hw
      exact .inl rfl
    · cases hw
      exact .inr ⟨_, rfl, _, h⟩
  · intro h
    cases v with
    | none => exact ⟨none, .absent⟩
    | some w =>
      obtain rfl | ⟨n, rfl, i, hi⟩ := h w rfl
      · exact ⟨none, .null⟩
      · exact ⟨some i, .number hi⟩

theorem exists_givesIds_iff : (∃ ids, GivesIds v ids) ↔
    ∀ w ∈ v, w = .null ∨ ∃ items, w = .array items ∧ ∀ item ∈ items, IsId item := by
  have hitems (items : List Json) :
      (∃ ids, List.Forall₂ (fun item (i : Int64) => ∃ n, item = .number n ∧ n.IsInteger i.toInt)
        items ids) ↔ ∀ item ∈ items, IsId item := by
    rw [exists_forall₂_iff]
    refine forall₂_congr fun item _ => ⟨?_, ?_⟩
    · rintro ⟨i, n, rfl, hi⟩
      exact ⟨n, rfl, i, hi⟩
    · rintro ⟨n, rfl, i, hi⟩
      exact ⟨i, n, rfl, hi⟩
  constructor
  · rintro ⟨_, _ | _ | h⟩ w hw
    · cases hw
    · cases hw
      exact .inl rfl
    · cases hw
      exact .inr ⟨_, rfl, (hitems _).mp ⟨_, h⟩⟩
  · intro h
    cases v with
    | none => exact ⟨[], .absent⟩
    | some w =>
      obtain rfl | ⟨items, rfl, hall⟩ := h w rfl
      · exact ⟨[], .null⟩
      · obtain ⟨ids, hids⟩ := (hitems items).mpr hall
        exact ⟨ids, .array hids⟩

theorem exists_givesKind_iff : (∃ k, GivesKind v k) ↔
    ∃ w ∈ v, ∃ k : Kind, w = .text k.name ∨ w = .object [(some k.name, .null)] := by
  constructor
  · rintro ⟨k, _ | _⟩
    · exact ⟨_, rfl, k, .inl rfl⟩
    · exact ⟨_, rfl, k, .inr rfl⟩
  · rintro ⟨_, rfl, k, rfl | rfl⟩
    · exact ⟨k, .name k⟩
    · exact ⟨k, .entry k⟩

theorem exists_givesLabel_iff : (∃ s, GivesLabel v s) ↔ ∀ w ∈ v, ∃ s, w = .text s := by
  constructor
  · rintro ⟨s, _ | _⟩ w hw
    · cases hw
    · cases hw
      exact ⟨s, rfl⟩
  · intro h
    cases v with
    | none => exact ⟨"", .absent⟩
    | some w =>
      obtain ⟨s, rfl⟩ := h w rfl
      exact ⟨s, .text s⟩

theorem exists_givesShown_iff {α : Type} {Shows : Json → α → Prop} :
    (∃ a, GivesShown Shows v a) ↔ ∀ w ∈ v, Json.Data (Json.maxLevels - 1) w := by
  constructor
  · rintro ⟨_, _ | ⟨hdata, _⟩ | ⟨hdata, _⟩⟩ w hw
    · cases hw
    · cases hw
      exact hdata
    · cases hw
      exact hdata
  · intro h
    cases v with
    | none => exact ⟨none, .absent⟩
    | some w =>
      by_cases hshows : ∃ a, Shows w a
      · obtain ⟨a, ha⟩ := hshows
        exact ⟨some a, .kept (h w rfl) ha⟩
      · exact ⟨none, .dropped (h w rfl) fun a ha => hshows ⟨a, ha⟩⟩

end Values

theorem exists_describes_iff {values : FieldValues} {members : List (Option String × Json)}
    (h : values.Of members) (line : Nat) : (∃ e, Describes values line e) ↔ Acceptable members := by
  have hmem (f : Field) (v : Json) : v ∈ f.valuesIn members ↔ v ∈ values f := by
    rw [h f]
    exact Option.mem_toList
  constructor
  · rintro ⟨e, he⟩
    refine ⟨fun f => h f ▸ Option.length_toList_le, ?_, ?_, ?_, ?_, ?_⟩
    · simp only [hmem]
      exact exists_givesKind_iff.mp ⟨_, he.kind⟩
    · intro f hf v hv
      rw [hmem] at hv
      simp only [List.mem_cons, List.not_mem_nil, or_false] at hf
      rcases hf with rfl | rfl | rfl
      · exact exists_givesId_iff.mp ⟨_, he.id⟩ v hv
      · exact exists_givesId_iff.mp ⟨_, he.outV⟩ v hv
      · exact exists_givesId_iff.mp ⟨_, he.inV⟩ v hv
    · intro v hv
      exact exists_givesLabel_iff.mp ⟨_, he.label⟩ v ((hmem _ _).mp hv)
    · intro v hv
      exact exists_givesIds_iff.mp ⟨_, he.inVs⟩ v ((hmem _ _).mp hv)
    · intro f hf v hv
      rw [hmem] at hv
      simp only [displayFields, List.mem_cons, List.not_mem_nil, or_false] at hf
      rcases hf with rfl | rfl | rfl | rfl | rfl | rfl
      · exact exists_givesShown_iff.mp ⟨_, he.uri⟩ v hv
      · exact exists_givesShown_iff.mp ⟨_, he.start⟩ v hv
      · exact exists_givesShown_iff.mp ⟨_, he.stop⟩ v hv
      · exact exists_givesShown_iff.mp ⟨_, he.identifier⟩ v hv
      · exact exists_givesShown_iff.mp ⟨_, he.name⟩ v hv
      · exact exists_givesShown_iff.mp ⟨_, he.eventKind⟩ v hv
  · intro ha
    have hid (f : Field) (hf : f ∈ [Field.id, .outV, .inV]) : ∃ i, GivesId (values f) i :=
      exists_givesId_iff.mpr fun v hv => ha.id f hf v ((hmem f v).mpr hv)
    have hdisplay (f : Field) (hf : f ∈ displayFields) {α : Type} (Shows : Json → α → Prop) :
        ∃ a, GivesShown Shows (values f) a :=
      exists_givesShown_iff.mpr fun v hv => ha.display f hf v ((hmem f v).mpr hv)
    have htype := ha.type
    simp only [hmem] at htype
    obtain ⟨kind, hkind⟩ := exists_givesKind_iff.mpr htype
    obtain ⟨label, hlabel⟩ := exists_givesLabel_iff.mpr fun v hv => ha.label v ((hmem _ v).mpr hv)
    obtain ⟨inVs, hinVs⟩ := exists_givesIds_iff.mpr fun v hv => ha.inVs v ((hmem _ v).mpr hv)
    obtain ⟨id, hid'⟩ := hid .id (by decide)
    obtain ⟨outV, houtV⟩ := hid .outV (by decide)
    obtain ⟨inV, hinV⟩ := hid .inV (by decide)
    obtain ⟨uri, huri⟩ := hdisplay .uri (by decide) ShowsText
    obtain ⟨start, hstart⟩ := hdisplay .start (by decide) Position.Shown
    obtain ⟨stop, hstop⟩ := hdisplay .stop (by decide) Position.Shown
    obtain ⟨identifier, hidentifier⟩ := hdisplay .identifier (by decide) ShowsText
    obtain ⟨name, hname⟩ := hdisplay .name (by decide) ShowsText
    obtain ⟨eventKind, heventKind⟩ := hdisplay .kind (by decide) ShowsText
    exact ⟨⟨kind, id, label, outV, inV, inVs, uri, start, stop, identifier, name, eventKind, line⟩,
      hid', hkind, hlabel, houtV, hinV, hinVs, huri, hstart, hstop, hidentifier, hname, heventKind, rfl⟩

/-! Order and other members. -/

def isField (m : Option String × Json) : Bool := Field.all.any fun f => m.1 = some f.key

theorem valuesIn_filter_isField (f : Field) (members : List (Option String × Json)) :
    f.valuesIn (members.filter isField) = f.valuesIn members := by
  have hfield (m : Option String × Json) :
      (decide (m.1 = some f.key) && isField m) = decide (m.1 = some f.key) := by
    by_cases hm : m.1 = some f.key
    · have hany : isField m = true := List.any_eq_true.mpr ⟨f, f.mem_all, decide_eq_true hm⟩
      rw [hany, Bool.and_true]
    · rw [decide_eq_false hm, Bool.false_and]
  rw [Field.valuesIn, List.filter_filter, funext hfield]
  rfl

theorem of_iff_of_perm {ms ns : List (Option String × Json)}
    (h : (ms.filter isField).Perm (ns.filter isField)) (values : FieldValues) :
    values.Of ms ↔ values.Of ns := by
  refine forall_congr' fun f => ?_
  have hperm : (f.valuesIn ms).Perm (f.valuesIn ns) := by
    rw [← valuesIn_filter_isField f ms, ← valuesIn_filter_isField f ns]
    exact (h.filter _).map _
  rw [← perm_toList_iff, ← perm_toList_iff]
  exact ⟨hperm.symm.trans, hperm.trans⟩

structure DecodedExactly (text : String) (members : List (Option String × Json)) (line : Nat) :
    Prop where
  accepted : (∃ e, decode? text line = some e) ↔ Acceptable members
  fields (e : Element) : decode? text line = some e ↔
    ∃ values : FieldValues, values.Of members ∧ Describes values line e
  others (text' : String) (members' : List (Option String × Json))
    (h : Json.IsText text'.toList (.object members')) (hkeys : ∀ m ∈ members', m.1 ≠ none)
    (hsame : (members'.filter isField).Perm (members.filter isField)) :
    decode? text' line = decode? text line

/-- An object is a record exactly if its members are acceptable. Then each field has the value that its
member gives, and neither the order of the members nor those that name no field count. -/
theorem decodedExactly_of_isText {text : String} {members : List (Option String × Json)}
    (h : Json.IsText text.toList (.object members)) (hkeys : ∀ m ∈ members, m.1 ≠ none)
    (line : Nat) : DecodedExactly text members line := by
  have hfields (e : Element) : decode? text line = some e ↔
      ∃ values : FieldValues, values.Of members ∧ Describes values line e := by
    rw [decode?_eq_some_iff h, and_iff_right hkeys]
  refine ⟨?_, hfields, ?_⟩
  · simp only [hfields]
    constructor
    · rintro ⟨e, values, hvalues, he⟩
      exact (exists_describes_iff hvalues line).mp ⟨e, he⟩
    · intro ha
      have hvalues : FieldValues.Of (fun f => (f.valuesIn members).head?) members := fun f =>
        (toList_head?_of_length_le (ha.once f)).symm
      obtain ⟨e, he⟩ := (exists_describes_iff hvalues line).mpr ha
      exact ⟨e, _, hvalues, he⟩
  · intro text' members' h' hkeys' hsame
    apply Option.ext
    intro e
    rw [hfields, decode?_eq_some_iff h', and_iff_right hkeys']
    simp only [of_iff_of_perm hsame]

def scrambled : String :=
  " \x7b\"x\":[],\"inVs\":[7,-1],\"type\":\x7b\"edge\":null\x7d,\"x\":1e999,\"\\u0069d\" : 3\x7d\n"

def scrambledMembers : List (Option String × Json) :=
  [(some "x", .array []), (some "inVs", .array [.nat 7, .int (-1)]),
    (some "type", .object [(some "edge", .null)]), (some "x", .number ⟨false, 1, [], some 999⟩),
    (some "id", .nat 3)]

theorem decodedExactly_of_isText_scrambled :
    Json.IsText scrambled.toList (.object scrambledMembers) ∧ (∀ m ∈ scrambledMembers, m.1 ≠ none) ∧
      DecodedExactly scrambled scrambledMembers 3 ∧ Acceptable scrambledMembers ∧
      (decode? scrambled 3).map (fun e => (e.kind, e.id, e.inVs)) = some (.edge, some 3, [7, -1]) := by
  have htext : Json.IsText scrambled.toList (.object scrambledMembers) :=
    Json.parse?_eq_some_iff.mp rfl
  have hkeys : ∀ m ∈ scrambledMembers, m.1 ≠ none := by simp [scrambledMembers]
  have hexact := decodedExactly_of_isText htext hkeys 3
  have hdecode : (decode? scrambled 3).map (fun e => (e.kind, e.id, e.inVs)) =
      some (.edge, some 3, [7, -1]) := by decide +kernel
  obtain ⟨e, he, _⟩ := Option.map_eq_some_iff.mp hdecode
  exact ⟨htext, hkeys, hexact, hexact.accepted.mp ⟨e, he⟩, hdecode⟩

/-- What a number is too large for is no bound on its value: the first number is smaller than the largest
double and is refused, the second one is too large for every double and is accepted. -/
theorem decode?_not_by_value :
    let members (n : Numeral) : List (Option String × Json) :=
      [(some "type", .text "vertex"), (some "uri", .number n)]
    let small : Numeral := ⟨false, 1797693134862315668, [], some 290⟩
    let refused := "\x7b\"type\":\"vertex\",\"uri\":1797693134862315668e290\x7d"
    let large : Numeral := ⟨false, 179769313486231591, [], some 291⟩
    let accepted := "\x7b\"type\":\"vertex\",\"uri\":179769313486231591e291\x7d"
    (Json.IsText refused.toList (.object (members small)) ∧ small.magnitude < (2 ^ 53 - 1) * 2 ^ 971 ∧
      decode? refused 0 = none) ∧
    (Json.IsText accepted.toList (.object (members large)) ∧ 2 ^ 1024 ≤ large.magnitude ∧
      (decode? accepted 0).isSome) := by
  intro members small refused large accepted
  have hsmall : small.magnitude < (2 ^ 53 - 1) * 2 ^ 971 := by
    have hvalue : small.magnitude = 1797693134862315668 * 10 ^ 290 := by
      simp [Numeral.magnitude, small, Text.ofDigits, zpow_ofNat]
    have htwo : (2 : ℚ) ^ 971 = 2 * (2 ^ 97) ^ 10 := by rw [← pow_mul, ← pow_succ']
    have hten : (10 : ℚ) ^ 290 = (10 ^ 29) ^ 10 := by rw [← pow_mul]
    rw [hvalue, htwo, hten]
    norm_num
  have hlarge : 2 ^ 1024 ≤ large.magnitude := by
    have hvalue : large.magnitude = 179769313486231591 * 10 ^ 291 := by
      simp [Numeral.magnitude, large, Text.ofDigits, zpow_ofNat]
    have htwo : (2 : ℚ) ^ 1024 = (2 ^ 32) ^ 32 := by rw [← pow_mul]
    have hten : (10 : ℚ) ^ 291 = (10 ^ 97) ^ 3 := by rw [← pow_mul]
    rw [hvalue, htwo, hten]
    norm_num
  have hrefused : Json.parse? refused = some (.object (members small)) := by
    simp only [refused, members, small]
    rfl
  have haccepted : Json.parse? accepted = some (.object (members large)) := by
    simp only [accepted, members, large]
    rfl
  refine ⟨⟨Json.parse?_eq_some_iff.mp hrefused, hsmall, ?_⟩,
    Json.parse?_eq_some_iff.mp haccepted, hlarge, ?_⟩
  · decide +kernel
  · decide +kernel

end Lsif.Element
