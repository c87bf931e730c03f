import Lsif.Indentation
import Lsif.Proofs.Element.Decode

/-! The marker of a line by its record. The indentation reads the lines on its own, with the last of the
members that share a key; on an object that is a record it reads what the record says. -/

namespace Lsif

namespace Json

def isObject : Json → Bool
  | object _ => true
  | _ => false

theorem exists_of_any_isObject {v : Option Json} (h : v.any isObject = true) :
    ∃ members, v = some (.object members) := by
  obtain ⟨v, rfl, hv⟩ := (Option.any_eq_true _ _).mp h
  cases v with
  | object members => exact ⟨members, rfl⟩
  | _ => cases hv

theorem lookup?_key (members : List (Option String × Json)) (f : Field) :
    lookup? members f.key = (f.valuesIn members).getLast? := by
  rw [lookup?, ← List.head?_filter, List.filter_reverse, List.head?_reverse, ← List.getLast?_map]
  rfl

end Json

theorem FieldValues.Of.lookup? {values : FieldValues} {members : List (Option String × Json)}
    (h : values.Of members) (f : Field) : Json.lookup? members f.key = values f := by
  rw [Json.lookup?_key, h f]
  cases values f <;> rfl

namespace Element

def marker? (e : Element) : Option Marker :=
  if e.label = "$event" then
    if e.eventKind = some "begin" then some .opening
    else if e.eventKind = some "end" then some .closing
    else none
  else none

theorem bind_string?_eq_event_iff {v : Option Json} {label : String} (h : GivesLabel v label) :
    v.bind Json.string? = some "$event" ↔ label = "$event" := by
  cases h with
  | absent => decide
  | text s => exact Option.some_inj

theorem bind_string?_of_givesShown {v : Option Json} {text : Option String}
    (h : GivesShown ShowsText v text) : v.bind Json.string? = text := by
  cases h with
  | absent => rfl
  | kept _ hshows => exact (string?_eq_some_iff _ _).mpr hshows
  | dropped _ hnone =>
    refine Option.eq_none_iff_forall_ne_some.mpr fun s hs => ?_
    exact hnone s ((string?_eq_some_iff _ _).mp hs)

theorem ofJson?_object_eq_marker? {members : List (Option String × Json)} {line : Nat} {e : Element}
    (h : ofJson? line (.object members) = some e) :
    Marker.ofJson? (.object members) = e.marker? := by
  obtain ⟨values, hvalues, hfields⟩ := Option.bind_eq_some_iff.mp h
  have hof := (FieldValues.ofJson?_object_iff.mp hvalues).2
  have he := ofFields?_eq_some_iff.mp hfields
  have hlabel : (Json.lookup? members "label").bind Json.string? = some "$event" ↔
      e.label = "$event" := by
    rw [← bind_string?_eq_event_iff he.label, ← hof.lookup? .label]
    rfl
  have hkind : (Json.lookup? members "kind").bind Json.string? = e.eventKind := by
    rw [← bind_string?_of_givesShown he.eventKind, ← hof.lookup? .kind]
    rfl
  simp only [Marker.ofJson?, marker?, hlabel, hkind]

theorem ofText?_eq_marker? {text : String} {members : List (Option String × Json)} {line : Nat}
    {e : Element} (hread : Json.read? text = some (.object members))
    (hdecode : decode? text line = some e) : Marker.ofText? text = some e.marker? := by
  have hparse : Json.parse? text = some (.object members) := (Option.filter_eq_some_iff.mp hread).1
  rw [decode?, hparse, Option.bind_some] at hdecode
  rw [Marker.ofText?, hread, Option.map_some, ofJson?_object_eq_marker? hdecode]

def Opens (e : Element) : Prop := e.label = "$event" ∧ e.eventKind = some "begin"

def Closes (e : Element) : Prop := e.label = "$event" ∧ e.eventKind = some "end"

instance : DecidablePred Opens := fun _ => inferInstanceAs (Decidable (_ ∧ _))

instance : DecidablePred Closes := fun _ => inferInstanceAs (Decidable (_ ∧ _))

theorem Opens.not_closes {e : Element} (h : e.Opens) : ¬e.Closes := by
  intro hcloses
  exact absurd (h.2.symm.trans hcloses.2) (by decide)

theorem marker?_eq (e : Element) : e.marker? =
    if e.Opens then some .opening else if e.Closes then some .closing else none := by
  unfold marker? Opens Closes
  by_cases hlabel : e.label = "$event"
  · simp only [hlabel, true_and, if_true]
  · simp only [hlabel, false_and, if_false]

theorem marker?_eq_opening_iff (e : Element) : e.marker? = some .opening ↔ e.Opens := by
  rw [marker?_eq]
  split_ifs with hopens hcloses <;> simp [hopens]

theorem marker?_eq_closing_iff (e : Element) : e.marker? = some .closing ↔ e.Closes := by
  rw [marker?_eq]
  split_ifs with hopens hcloses
  · exact iff_of_false (by decide) hopens.not_closes
  · exact iff_of_true rfl hcloses
  · exact iff_of_false (by decide) hcloses

theorem marker?_eq_none_iff (e : Element) : e.marker? = none ↔ ¬e.Opens ∧ ¬e.Closes := by
  rw [marker?_eq]
  split_ifs with hopens hcloses <;> simp [*]

structure MarkedBy (marker : Option Marker) (e : Element) : Prop where
  opening_iff : marker = some .opening ↔ e.label = "$event" ∧ e.eventKind = some "begin"
  closing_iff : marker = some .closing ↔ e.label = "$event" ∧ e.eventKind = some "end"
  none_iff : marker = none ↔ ¬(e.label = "$event" ∧ e.eventKind = some "begin") ∧
    ¬(e.label = "$event" ∧ e.eventKind = some "end")

theorem markedBy_marker? (e : Element) : MarkedBy e.marker? e where
  opening_iff := e.marker?_eq_opening_iff
  closing_iff := e.marker?_eq_closing_iff
  none_iff := e.marker?_eq_none_iff

end Element

end Lsif
