import Lsif.Proofs.Document
import Lsif.Proofs.Element.Marker
import Lsif.Proofs.Graph.Faults
import Lsif.Proofs.Indentation.Balance
import Lsif.Proofs.Json.Sound

/-! The depth of a line by the records of the graph. On an object the reading for the indentation and the one
for the record see the same events, so the records up to a line say how deep it lies. -/

namespace Lsif

def WritesObject (text : String) : Prop := ∃ members, Json.IsText text.toList (.object members)

theorem writesObject_iff (text : String) :
    WritesObject text ↔ ∃ members, Json.parse? text = some (.object members) :=
  exists_congr fun _ => Json.parse?_eq_some_iff.symm

theorem marker?_of_writesObject {text : String} {line : Nat} {marker : Option Marker} {e : Element}
    (hobject : WritesObject text) (hmarker : Marker.ofText? text = some marker)
    (hdecode : Element.decode? text line = some e) : marker = e.marker? := by
  obtain ⟨members, hparse⟩ := (writesObject_iff text).mp hobject
  obtain ⟨v, hread, _⟩ := Option.map_eq_some_iff.mp hmarker
  have hvalue : Json.parse? text = some v := (Option.filter_eq_some_iff.mp hread).1
  obtain rfl := Option.some.inj (hvalue.symm.trans hparse)
  exact Option.some.inj (hmarker.symm.trans (Element.ofText?_eq_marker? hread hdecode))

namespace Graph

open Indentation

variable {o : Options} {lines : List String} {g : Graph}

theorem readings_eq_of_ofLines (h : ofLines o lines = .ok g)
    (hobjects : ∀ text ∈ lines, WritesObject text) :
    readings lines = g.elements.toList.map fun e => some e.marker? := by
  obtain ⟨ds, hds, _⟩ := ofLines_eq_ok_iff.mp h
  apply List.ext_getElem?
  intro i
  have helements : g.elements.toList[i]? = g.element? i := Array.getElem?_toList
  rw [readings, List.getElem?_map, List.getElem?_map, helements]
  cases he : g.element? i with
  | none =>
    have hsize : lines.length ≤ i := by
      rw [← size_elements_of_ofLines h]
      exact Array.getElem?_eq_none_iff.mp he
    rw [List.getElem?_eq_none hsize, Option.map_none, Option.map_none]
  | some e =>
    obtain ⟨text, htext, hdecode⟩ := (element?_eq_some_iff h i e).mp he
    have hmem := List.mem_of_getElem? htext
    have hread := forall_ne_none_of_depthsFrom hds _ (List.mem_map_of_mem hmem)
    obtain ⟨marker, hmarker⟩ := Option.ne_none_iff_exists'.mp hread
    rw [htext, Option.map_some, Option.map_some, hmarker,
      marker?_of_writesObject (hobjects text hmem) hmarker hdecode]

theorem balance_take_of_ofLines (h : ofLines o lines = .ok g)
    (hobjects : ∀ text ∈ lines, WritesObject text) (n : Nat) : balance (lines.take n) =
      ((g.elements.toList.take n).countP (·.Opens) : Int) -
        (g.elements.toList.take n).countP (·.Closes) := by
  have hcount (reading : Reading) : (lines.take n).countP (Marker.ofText? · = reading) =
      (g.elements.toList.take n).countP fun e => some e.marker? = reading := by
    have hreadings := congrArg (fun rs => (rs.take n).countP (· = reading))
      (readings_eq_of_ofLines h hobjects)
    simpa only [readings, ← List.map_take, List.countP_map, Function.comp_def] using hreadings
  simp only [balance, openings, closings, hcount, Option.some.injEq, Element.marker?_eq_opening_iff,
    Element.marker?_eq_closing_iff]

def depthByRecords (step : Int) (g : Graph) (i : Nat) : Int :=
  step * ((g.elements.toList.take (i + 1)).countP (·.Opens) -
    (g.elements.toList.take (i + 1)).countP (·.Closes))

theorem lineText?_of_ofLines (h : ofLines o lines = .ok g)
    (hobjects : ∀ text ∈ lines, WritesObject text) {i : Nat} {text : String}
    (htext : lines[i]? = some text) : g.document.lineText? i =
      some (Text.spaces (max (depthByRecords o.indentation.signedStep g i) 0).toNat ++ text) := by
  obtain ⟨ds, hds, _⟩ := ofLines_eq_ok_iff.mp h
  have hdepth : depthOf o.indentation lines i = depthByRecords o.indentation.signedStep g i := by
    rw [depthOf, balance_take_of_ofLines h hobjects, depthByRecords]
  rw [document_of_ofLines h hds, Document.lineText?_ofTexts, getElem?_indentAll_depths hds htext,
    hdepth]

/-- The two readings of an object see the same events, and so a dump of objects is indented by its
records. -/
theorem indented_by_records :
    (∀ text line marker e, WritesObject text → Marker.ofText? text = some marker →
      Element.decode? text line = some e → Element.MarkedBy marker e) ∧
    ∀ o lines g, ofLines o lines = .ok g → (∀ text ∈ lines, WritesObject text) →
      ∀ (i : Nat) (text : String), lines[i]? = some text → g.document.lineText? i =
        some (Text.spaces (max (depthByRecords o.indentation.signedStep g i) 0).toNat ++ text) := by
  refine ⟨fun text line marker e hobject hmarker hdecode => ?_, fun o lines g h hobjects i text => ?_⟩
  · rw [marker?_of_writesObject hobject hmarker hdecode]
    exact e.markedBy_marker?
  · exact lineText?_of_ofLines h hobjects

theorem indented_by_records_dropped_kind :
    let begins := "\x7b\"type\":\"vertex\",\"\\u006cabel\":\"$event\",\"kind\":\"begin\"\x7d"
    let drops := " \x7b\"kind\":[\"end\"],\"label\":\"$event\",\"x\":1,\"x\":2,\"type\":\"edge\"\x7d"
    (WritesObject begins ∧ Marker.ofText? begins = some (some .opening) ∧
      ∃ e, Element.decode? begins 0 = some e ∧ Element.MarkedBy (some .opening) e) ∧
    ∃ g, ofLines {} [begins, drops] = .ok g ∧ WritesObject drops ∧ g.document.lineText? 1 =
      some (Text.spaces (max (depthByRecords 4 g 1) 0).toNat ++ drops) := by
  intro begins drops
  have hany : ∀ text ∈ [begins, drops], (Json.parse? text).any Json.isObject = true := by
    decide +kernel
  have hobjects (text : String) (htext : text ∈ [begins, drops]) : WritesObject text :=
    (writesObject_iff text).mpr (Json.exists_of_any_isObject (hany text htext))
  have hbegins : WritesObject begins := hobjects begins List.mem_cons_self
  have hmarker : Marker.ofText? begins = some (some .opening) := by decide +kernel
  have hdecodes : Element.decode? begins 0 ≠ none := by decide +kernel
  obtain ⟨e, he⟩ := Option.ne_none_iff_exists'.mp hdecodes
  refine ⟨⟨hbegins, hmarker, e, he, indented_by_records.1 begins 0 _ e hbegins hmarker he⟩, ?_⟩
  obtain ⟨g, hg⟩ : ∃ g, ofLines {} [begins, drops] = .ok g := by
    refine exists_ofLines ?_ ?_
    · decide +kernel
    · decide +kernel
  refine ⟨g, hg, hobjects drops (List.mem_cons_of_mem _ List.mem_cons_self), ?_⟩
  exact indented_by_records.2 {} [begins, drops] g hg hobjects 1 drops rfl

end Graph

end Lsif
