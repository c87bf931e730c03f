import Lsif.Element.Encode
import Lsif.Json.Sorted
import Lsif.Proofs.Element.Decode
import Lsif.Proofs.Json.Printer

/-! A record comes back from its text. Its fields are told apart by their keys alone, so the order in
which they are written does not count, and what the reader does with each of them undoes what the writer
did. -/

namespace Lsif

namespace Numeral

theorem int64?_ofInt (i : Int64) : (ofInt i.toInt).int64? = some i :=
  int64?_eq_some_iff.mpr (isInteger_ofInt i.toInt)

theorem integer?_ofUInt32 (n : UInt32) : (ofNat n.toNat).integer? = some (n.toNat : Int) := by
  have hsize : UInt64.size = 2 ^ 64 := rfl
  have hhigh := n.toNat_lt
  exact integer?_ofNat (by omega)

theorem uint32?_ofNat (n : UInt32) : (ofNat n.toNat).uint32? = some n :=
  uint32?_eq_some_iff.mpr (integer?_eq_some_iff.mp (integer?_ofUInt32 n)).1

end Numeral

/-! Fields. -/

namespace Field

theorem key_injective : Function.Injective key := by
  have hall : ∀ f ∈ all, ∀ g ∈ all, f.key = g.key → f = g := by decide
  exact fun f g h => hall f (mem_all f) g (mem_all g) h

theorem key_ne_lineNumber (f : Field) : f.key ≠ "lineNumber" := by
  cases f <;> decide

def members (values : FieldValues) : List (Option String × Json) :=
  all.flatMap fun f => ((values f).map fun v => (some f.key, v)).toList

theorem valuesIn_append (ms ns : List (Option String × Json)) (f : Field) :
    f.valuesIn (ms ++ ns) = f.valuesIn ms ++ f.valuesIn ns := by
  rw [valuesIn, List.filter_append, List.map_append]
  rfl

theorem valuesIn_flatMap (fs : List Field) (ms : Field → List (Option String × Json)) (f : Field) :
    f.valuesIn (fs.flatMap ms) = fs.flatMap fun g => f.valuesIn (ms g) := by
  induction fs with
  | nil => rfl
  | cons g fs ih => rw [List.flatMap_cons, valuesIn_append, ih, List.flatMap_cons]

theorem valuesIn_members (values : FieldValues) (f : Field) :
    f.valuesIn (members values) = (values f).toList := by
  have hmember (g : Field) : f.valuesIn ((values g).map fun v => (some g.key, v)).toList =
      if g = f then (values g).toList else [] := by
    cases values g with
    | none => split_ifs <;> rfl
    | some v =>
      have hkey := key_injective.eq_iff (a := g) (b := f)
      by_cases h : g = f <;> simp [valuesIn, hkey, h]
  rw [members, valuesIn_flatMap, funext hmember]
  cases f <;> simp [all]

theorem map_members (values : FieldValues) (w : Json → Json) :
    (members values).map (fun m => (m.1, w m.2)) = members fun f => (values f).map w := by
  have hmember (f : Field) :
      ((values f).map fun v => (some f.key, v)).toList.map (fun m => (m.1, w m.2)) =
        (((values f).map w).map fun v => (some f.key, v)).toList := by
    cases values f <;> rfl
  rw [members, List.map_flatMap, funext hmember, members]

theorem isSome_of_mem_members {values : FieldValues} {m : Option String × Json}
    (h : m ∈ members values) : m.1.isSome = true := by
  obtain ⟨f, -, hf⟩ := List.mem_flatMap.mp h
  obtain ⟨v, -, rfl⟩ := Option.map_eq_some_iff.mp (Option.mem_toList.mp hf)
  rfl

end Field

theorem FieldValues.ofJson?_of_perm {values : FieldValues} {members : List (Option String × Json)}
    {key : String} {other : Json} (hkey : ∀ f : Field, f.key ≠ key)
    (h : members.Perm (Field.members values ++ [(some key, other)])) :
    ofJson? (.object members) = some values := by
  refine ofJson?_object_iff.mpr ⟨fun m hm => ?_, fun f => ?_⟩
  · rcases List.mem_append.mp (h.mem_iff.mp hm) with hm | hm
    · exact Option.isSome_iff_ne_none.mp (Field.isSome_of_mem_members hm)
    · rw [List.mem_singleton.mp hm]
      exact Option.some_ne_none key
  · have hother : f.valuesIn [(some key, other)] = [] := by
      simp [Field.valuesIn, (hkey f).symm]
    rw [← perm_toList_iff, ← List.append_nil (values f).toList, ← hother, ← Field.valuesIn_members,
      ← Field.valuesIn_append]
    exact (h.filter _).map _

namespace Element

def values (e : Element) : FieldValues
  | .id => e.id.map toJson.id
  | .type => some (.text e.kind.name)
  | .label => some (.text e.label)
  | .outV => e.outV.map toJson.id
  | .inV => e.inV.map toJson.id
  | .inVs => if e.inVs.isEmpty then none else some (.array (e.inVs.map toJson.id))
  | .uri => e.uri.map .text
  | .start => e.start.map Position.toJson
  | .stop => e.stop.map Position.toJson
  | .identifier => e.identifier.map .text
  | .name => e.name.map .text
  | .kind => e.eventKind.map .text

theorem toJson_eq (e : Element) : e.toJson =
    .object (Field.members e.values ++ [(some "lineNumber", .nat e.lineNumber)]) := by
  have hmember {α : Type} (key : String) (a : Option α) (write : α → Json) :
      (member key a write).map (fun m => (some m.1, m.2)) =
        ((a.map write).map fun v => (some key, v)).toList := by
    cases a <;> rfl
  cases hids : e.inVs.isEmpty <;>
    simp [toJson, Json.record, Field.members, Field.all, List.flatMap_cons, values, hmember,
      Field.key, hids]

end Element

/-! What the reader does with each value. Sorting the keys rearranges positions and nothing else. -/

namespace Position

theorem number?_number (n : Option UInt32) : number? (some (toJson.number n)) = some n := by
  cases n with
  | none => rfl
  | some n => exact congrArg (Option.map some) (Numeral.uint32?_ofNat n)

theorem readable_number (n : Option UInt32) (levels : Nat) :
    (toJson.number n).readable levels = true := by
  cases n with
  | none => rfl
  | some n =>
    have hsmall := Numeral.overflows_of_integer? (Numeral.integer?_ofUInt32 n)
    simp [toJson.number, Json.nat, Json.readable, hsmall]

theorem ofJson?_toJson (p : Position) : ofJson? p.toJson = some p := by
  simp [toJson, Json.record, ofJson?, Json.lookup?, number?_number]

theorem readable_toJson (p : Position) (levels : Nat) :
    p.toJson.readable (levels + 1) = true := by
  simp [toJson, Json.record, Json.readable, Json.readableMembers, readable_number]

theorem sorted_toJson (p : Position) : p.toJson.sorted =
    .record [("character", toJson.number p.character), ("line", toJson.number p.line)] := by
  have hnumber (n : Option UInt32) : (toJson.number n).sorted = toJson.number n := by
    cases n <;> rfl
  have horder : ¬"line" ≤ "character" := by decide
  simp [toJson, Json.record, Json.sorted, Json.sortedMembers, hnumber, List.mergeSort, horder]

theorem ofJson?_sorted (p : Position) : ofJson? p.toJson.sorted = some p := by
  simp [sorted_toJson, Json.record, ofJson?, Json.lookup?, number?_number]

theorem readable_sorted (p : Position) (levels : Nat) :
    p.toJson.sorted.readable (levels + 1) = true := by
  simp [sorted_toJson, Json.record, Json.readable, Json.readableMembers, readable_number]

end Position

theorem Json.sortedMembers_eq_map (members : List (Option String × Json)) :
    sortedMembers members = members.map fun m => (m.1, m.2.sorted) := by
  induction members with
  | nil => rfl
  | cons m members ih => rw [sortedMembers, ih, List.map_cons]

namespace Element

/-- A rewriting of values that the reader of a record does not see. -/
structure Unseen (w : Json → Json) : Prop where
  id (i : Int64) : w (toJson.id i) = toJson.id i
  ids (is : List Int64) : w (.array (is.map toJson.id)) = .array (is.map toJson.id)
  text (s : String) : w (.text s) = .text s
  position (p : Position) : Position.ofJson? (w p.toJson) = some p
  readable (p : Position) : (w p.toJson).readable (Json.maxLevels - 1) = true

theorem unseen_self : Unseen fun v => v where
  id _ := rfl
  ids _ := rfl
  text _ := rfl
  position := Position.ofJson?_toJson
  readable p := Position.readable_toJson p 125

theorem sortedItems_map_id (is : List Int64) :
    Json.sortedItems (is.map toJson.id) = is.map toJson.id := by
  induction is with
  | nil => rfl
  | cons i is ih =>
    rw [List.map_cons, Json.sortedItems, ih]
    rfl

theorem unseen_sorted : Unseen Json.sorted where
  id _ := rfl
  ids is := congrArg Json.array (sortedItems_map_id is)
  text _ := rfl
  position := Position.ofJson?_sorted
  readable p := Position.readable_sorted p 125

variable {w : Json → Json}

theorem id?_map (hw : Unseen w) (i : Option Int64) :
    id? ((i.map toJson.id).map w) = some i := by
  cases i with
  | none => rfl
  | some i =>
    rw [Option.map_some, Option.map_some, hw.id]
    exact congrArg (Option.map some) (Numeral.int64?_ofInt i)

theorem mapM_idOfItem? (is : List Int64) : (is.map toJson.id).mapM idOfItem? = some is := by
  induction is with
  | nil => rfl
  | cons i is ih =>
    have hi : idOfItem? (toJson.id i) = some i := Numeral.int64?_ofInt i
    rw [List.map_cons, List.mapM_cons, hi, ih]
    rfl

theorem kind?_name (k : Kind) : kind? (.text k.name) = some k := by
  cases k <;> decide

theorem shown?_map {α : Type} {view : Json → Option α} {write : α → Json}
    (hview : ∀ a, view (w (write a)) = some a)
    (hreadable : ∀ a, (w (write a)).readable (Json.maxLevels - 1) = true) (a : Option α) :
    shown? view ((a.map write).map w) = some a := by
  cases a with
  | none => rfl
  | some a => rw [Option.map_some, Option.map_some, shown?, hreadable, if_pos rfl, hview]

theorem ofFields?_values (hw : Unseen w) (e : Element) :
    ofFields? e.lineNumber (fun f => (e.values f).map w) = some e := by
  have hids : ids? ((e.values .inVs).map w) = some e.inVs := by
    cases hempty : e.inVs.isEmpty with
    | true =>
      rw [values, hempty, List.isEmpty_iff.mp hempty]
      rfl
    | false =>
      simp only [values, hempty, Bool.false_eq_true, if_false, Option.map_some, hw.ids]
      exact mapM_idOfItem? e.inVs
  have hkind : ((e.values .type).map w).bind kind? = some e.kind := by
    simp only [values, Option.map_some, hw.text, Option.bind_some, kind?_name]
  have hlabel : label? ((e.values .label).map w) = some e.label := by
    simp only [values, Option.map_some, hw.text]
    rfl
  have htext (s : Option String) : shown? Json.string? ((s.map .text).map w) = some s :=
    shown?_map (fun s => by rw [hw.text]; rfl) (fun s => by rw [hw.text]; rfl) s
  have hposition (p : Option Position) :
      shown? Position.ofJson? ((p.map Position.toJson).map w) = some p :=
    shown?_map hw.position hw.readable p
  simp only [ofFields?, hids, hkind, hlabel, Option.bind_eq_bind, Option.bind_some]
  simp only [values, id?_map hw, htext, hposition, Option.bind_some]
  rfl

theorem ofJson?_of_perm (hw : Unseen w) {e : Element} {members : List (Option String × Json)}
    {line : Json} (h : members.Perm
      (Field.members (fun f => (e.values f).map w) ++ [(some "lineNumber", line)])) :
    ofJson? e.lineNumber (.object members) = some e := by
  rw [ofJson?, FieldValues.ofJson?_of_perm Field.key_ne_lineNumber h, Option.bind_some,
    ofFields?_values hw]

theorem ofJson?_toJson (e : Element) : ofJson? e.lineNumber e.toJson = some e := by
  have hself : (fun f => (e.values f).map fun v => v) = e.values := funext fun f => Option.map_id'
  have hperm : (Field.members e.values ++ [(some "lineNumber", Json.nat e.lineNumber)]).Perm
      (Field.members (fun f => (e.values f).map fun v => v) ++
        [(some "lineNumber", Json.nat e.lineNumber)]) := by
    rw [hself]
  rw [toJson_eq]
  exact ofJson?_of_perm unseen_self hperm

theorem ofJson?_sorted (e : Element) : ofJson? e.lineNumber e.toJson.sorted = some e := by
  rw [toJson_eq, Json.sorted, Json.sortedMembers_eq_map, List.map_append, Field.map_members]
  exact ofJson?_of_perm unseen_sorted (List.mergeSort_perm _ _)

/-- Reading undoes writing, for every record: in one line or with a line for each part, in the order of
the fields or of their keys, and on whatever level the record stands in a larger value. -/
theorem decode?_toJson (e : Element) (level : Nat) :
    decode? e.toJson.compact e.lineNumber = some e ∧
    decode? e.toJson.sorted.compact e.lineNumber = some e ∧
    decode? (Json.writePretty level "" e.toJson) e.lineNumber = some e ∧
    decode? (Json.writePretty level "" e.toJson.sorted) e.lineNumber = some e := by
  have hread {text : String} {v : Json} (hparse : Json.parse? text = some v)
      (hv : ofJson? e.lineNumber v = some e) : decode? text e.lineNumber = some e := by
    rw [decode?, hparse, Option.bind_some, hv]
  exact ⟨hread (Json.parse?_compact _) e.ofJson?_toJson,
    hread (Json.parse?_compact _) e.ofJson?_sorted,
    hread (Json.parse?_writePretty level _) e.ofJson?_toJson,
    hread (Json.parse?_writePretty level _) e.ofJson?_sorted⟩

end Element

end Lsif
