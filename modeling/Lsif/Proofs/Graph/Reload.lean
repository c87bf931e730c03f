import Lsif.Proofs.Graph.Faults
import Lsif.Proofs.Lines

/-! A rendered graph is a dump of itself. Indentation and a carriage return at the end say nothing, so
every line is read as before, and each comes back behind its indentation once more. -/

namespace Lsif

theorem Terminator.exists_eq_readBack_append (t : Terminator) (text : String) :
    ∃ behind : String, Json.AllSpace behind.toList ∧ text = t.readBack text ++ behind := by
  unfold readBack
  by_cases h : t = .lf ∧ text.toList.getLast? = some '\r'
  · rw [if_pos h]
    obtain ⟨init, hinit⟩ := List.getLast?_eq_some_iff.mp h.2
    refine ⟨"\r", ?_, ?_⟩
    · intro c hc
      obtain rfl : c = '\r' := by simpa using hc
      rfl
    · rw [hinit, List.dropLast_concat, ← String.toList_inj, hinit, String.toList_append,
        String.toList_ofList]
      rfl
  · rw [if_neg h]
    exact ⟨"", List.forall_mem_nil _, String.append_empty.symm⟩

theorem IgnoresSpace.readBack {α : Type} {f : String → α} (hf : IgnoresSpace f) (t : Terminator)
    (text : String) : f (t.readBack text) = f text := by
  obtain ⟨behind, hbehind, htext⟩ := t.exists_eq_readBack_append text
  calc f (t.readBack text)
      = f (t.readBack text ++ behind) := (hf.append hbehind (t.readBack text)).symm
    _ = f text := congrArg f htext.symm

namespace Graph

open Indentation

theorem readings_map_readBack (t : Terminator) (lines : List String) :
    readings (lines.map t.readBack) = readings lines := by
  simp only [readings, List.map_map, Function.comp_def, ignoresSpace_ofText?.readBack]

theorem records_map_readBack (t : Terminator) (lines : List String) :
    records (lines.map t.readBack) = records lines := by
  apply List.ext_getElem?
  intro i
  have hread (text : String) := (ignoresSpace_decode? i).readBack t text
  simp only [getElem?_records, List.getElem?_map, Option.map_map, Function.comp_def, hread]

theorem newline_not_mem_indented {text : String} (h : '\n' ∉ text.toList) (depth : Int) :
    '\n' ∉ (indented depth text).toList := by
  rw [indented, String.toList_append, List.mem_append]
  rintro (hspace | htext)
  · rw [Text.spaces, String.toList_ofList] at hspace
    exact absurd (List.eq_of_mem_replicate hspace) (by decide)
  · exact h htext

theorem newline_not_mem_indentAll {lines : List String} (h : ∀ text ∈ lines, '\n' ∉ text.toList)
    (ds : List Int) : ∀ text ∈ indentAll ds lines, '\n' ∉ text.toList := by
  intro text htext
  obtain ⟨i, hi⟩ := List.mem_iff_getElem?.mp htext
  obtain ⟨d, input, _, hinput, rfl⟩ := List.getElem?_zipWith_eq_some.mp hi
  exact newline_not_mem_indented (h input (List.mem_of_getElem? hinput)) d

theorem head?_ne_byteOrderMark_of_decode? {text : String} {line : Nat} {e : Element}
    (h : Element.decode? text line = some e) : text.toList.head? ≠ some Text.byteOrderMark := by
  obtain ⟨v, hv, _⟩ := Option.bind_eq_some_iff.mp h
  exact Json.head?_ne_byteOrderMark hv

variable {o : Options} {g : Graph}

theorem dumpLines_render {lines : List String} (hnewline : ∀ text ∈ lines, '\n' ∉ text.toList)
    {ds : List Int} (h : ofLines o lines = .ok g) (hds : depths o.indentation lines = .ok ds) :
    Text.dumpLines g.render = (indentAll ds lines).map o.terminator.readBack := by
  rw [render, document_of_ofLines h hds]
  refine Document.dumpLines_render o.terminator (newline_not_mem_indentAll hnewline ds)
    fun text htext => ?_
  obtain ⟨_, _, hdecode⟩ := decode?_of_mem_indentAll h (length_of_depths hds) htext
  exact head?_ne_byteOrderMark_of_decode? hdecode

/-- The second graph is the first one, with every line behind its indentation once more. -/
structure Reloaded (t : Terminator) (lines : List String) (g g' : Graph) : Prop where
  toIndex : g'.toIndex = g.toIndex
  size_lines : g'.document.lines.size = g.document.lines.size
  line (i : Nat) (input : String) (h : lines[i]? = some input) : ∃ n text,
    g.document.lineText? i = some text ∧ text = Text.spaces n ++ input ∧
      g'.document.lineText? i = some (Text.spaces n ++ t.readBack text)

/-- A graph is the graph of its own rendering. -/
theorem reloaded_of_ofLines {c : String} (h : ofLines o (Text.dumpLines c) = .ok g) :
    ∃ g', ofLines o (Text.dumpLines g.render) = .ok g' ∧
      Reloaded o.terminator (Text.dumpLines c) g g' := by
  obtain ⟨ds, hds, _⟩ := ofLines_eq_ok_iff.mp h
  have hlength := length_of_depths hds
  have hdocument := document_of_ofLines h hds
  have hback := dumpLines_render (Text.newline_not_mem_dumpLines c) h hds
  have hreadings : readings (Text.dumpLines g.render) = readings (Text.dumpLines c) := by
    rw [hback, readings_map_readBack, readings_indentAll hlength]
  have hrecords : records (Text.dumpLines g.render) = records (Text.dumpLines c) := by
    rw [hback, records_map_readBack, records_indentAll hlength]
  have hlengthBack : ds.length = (Text.dumpLines g.render).length := by
    rw [hback, List.length_map, length_indentAll hlength, hlength]
  refine ⟨_, ofLines_of_alike h hds hreadings hrecords, rfl, ?_, fun i input hinput => ?_⟩
  · rw [hdocument, Document.size_lines_ofTexts, Document.size_lines_ofTexts,
      length_indentAll hlengthBack, length_indentAll hlength, ← hlengthBack, hlength]
  · obtain ⟨d, hd, htext⟩ := getElem?_indentAll hlength hinput
    have hinputBack : (Text.dumpLines g.render)[i]? =
        some (o.terminator.readBack (indented d input)) := by
      rw [hback, List.getElem?_map, htext, Option.map_some]
    obtain ⟨d', hd', htextBack⟩ := getElem?_indentAll hlengthBack hinputBack
    -- a depth comes from the markers alone, so the line has the same one again
    obtain rfl : d = d' := by simpa only [hd, Option.some.injEq] using hd'
    refine ⟨d.toNat, indented d input, ?_, rfl, ?_⟩
    · rw [hdocument, Document.lineText?_ofTexts, htext]
    · rw [Document.lineText?_ofTexts, htextBack]
      rfl

theorem reloaded_stray_return :
    let c := "\ufeff\x7b\"type\":\"vertex\",\"label\":\"$event\",\"kind\":\"begin\"\x7d\r\r\n" ++
      "\x7b\"type\":\"edge\",\"label\":\"\"\x7d\r"
    ∃ g g', ofLines {} (Text.dumpLines c) = .ok g ∧ ofLines {} (Text.dumpLines g.render) = .ok g' ∧
      Reloaded .lf (Text.dumpLines c) g g' := by
  intro c
  obtain ⟨g, hg⟩ : ∃ g, ofLines {} (Text.dumpLines c) = .ok g := by
    refine exists_ofLines ?_ ?_
    · decide +kernel
    · decide +kernel
  obtain ⟨g', hg'⟩ := reloaded_of_ofLines hg
  exact ⟨g, g', hg, hg'⟩

end Graph

end Lsif
