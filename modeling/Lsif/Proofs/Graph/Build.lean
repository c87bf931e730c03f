import Lsif.Graph.Build
import Lsif.Proofs.Element.Decode
import Lsif.Proofs.Graph.Index
import Lsif.Proofs.Indentation
import Lsif.Proofs.Layout
import Mathlib.Data.List.Induction

/-! A build in three independent parts: the depths of the lines, the records they decode to, and the
document. Records are decoded behind their indentation, which says nothing, so the index follows from
the lines alone. -/

namespace Lsif.Graph

open Indentation

def records (lines : List String) : List (Option Element) :=
  lines.mapIdx fun line text => Element.decode? text line

theorem getElem?_records (lines : List String) (i : Nat) :
    (records lines)[i]? = lines[i]?.map fun text => Element.decode? text i := by
  simp only [records, List.getElem?_mapIdx]

theorem records_append (lines more : List String) : records (lines ++ more) =
    records lines ++ more.mapIdx fun i text => Element.decode? text (i + lines.length) :=
  List.mapIdx_append

theorem records_indentAll {ds : List Int} {lines : List String} (h : ds.length = lines.length) :
    records (indentAll ds lines) = records lines := by
  apply List.ext_getElem?
  intro i
  rw [getElem?_records, getElem?_records]
  exact map_getElem?_indentAll (ignoresSpace_decode? i).indented h i

theorem readings_indentAll {ds : List Int} {lines : List String} (h : ds.length = lines.length) :
    readings (indentAll ds lines) = readings lines := by
  apply List.ext_getElem?
  intro i
  rw [readings, readings, List.getElem?_map, List.getElem?_map]
  exact map_getElem?_indentAll ignoresSpace_ofText?.indented h i

def indexNext (index : Index) (r : Option Element) : Except Fault Index :=
  (addDecoded index r).value

def indexRecords (rs : List (Option Element)) : Except Fault Index :=
  rs.foldlM indexNext Index.empty

instance (index : Index) (r : Option Element) : Pass.Appending (addDecoded index r) := by
  unfold addDecoded
  infer_instance

theorem indexNext_none (index : Index) :
    indexNext index none = .error (.malformedLine index.elements.size) := rfl

theorem indexNext_some (index : Index) (e : Element) :
    indexNext index (some e) = (index.insert e).value := by
  rw [indexNext, addDecoded, Pass.value_bind]
  rfl

theorem size_of_indexNext {index next : Index} {r : Option Element}
    (h : indexNext index r = .ok next) : next.elements.size = index.elements.size + 1 := by
  cases r with
  | none => cases h
  | some e =>
    rw [indexNext_some] at h
    obtain ⟨_, rfl⟩ := Index.insert_eq_ok_iff.mp h
    rw [Index.elements_enter, Array.size_push]

theorem indexRecords_concat (rs : List (Option Element)) (r : Option Element) :
    indexRecords (rs ++ [r]) = indexRecords rs >>= fun index => indexNext index r := by
  rw [indexRecords, List.foldlM_append, indexRecords]
  cases rs.foldlM indexNext Index.empty with
  | error fault => rfl
  | ok index =>
    simp only [Pass.ok_bind, List.foldlM_cons, List.foldlM_nil]
    cases indexNext index r <;> rfl

theorem exists_indexRecords_of_append {rs more : List (Option Element)} {index : Index}
    (h : indexRecords (rs ++ more) = .ok index) : ∃ front, indexRecords rs = .ok front := by
  rw [indexRecords, List.foldlM_append, Pass.bind_eq_ok_iff] at h
  obtain ⟨front, hfront, _⟩ := h
  exact ⟨front, hfront⟩

theorem exact_of_indexRecords {rs : List (Option Element)} {index : Index}
    (h : indexRecords rs = .ok index) :
    index.Exact ∧ index.elements.toList.map some = rs := by
  induction rs using List.reverseRecOn generalizing index with
  | nil =>
    cases h
    exact ⟨Index.exact_empty, rfl⟩
  | append_singleton rs r ih =>
    rw [indexRecords_concat, Pass.bind_eq_ok_iff] at h
    obtain ⟨before, hbefore, hnext⟩ := h
    obtain ⟨hexact, helements⟩ := ih hbefore
    cases r with
    | none => cases hnext
    | some e =>
      rw [indexNext_some] at hnext
      obtain ⟨hfree, rfl⟩ := Index.insert_eq_ok_iff.mp hnext
      refine ⟨hexact.enter hfree, ?_⟩
      rw [Index.elements_enter, Array.toList_push, List.map_append, helements]
      rfl

theorem size_of_addDecoded {index next : Index} {r : Option Element} {log more : Array Notice}
    (h : addDecoded index r log = .ok next more) :
    next.elements.size = index.elements.size + 1 := by
  have hrun := Pass.Appending.run_eq (p := addDecoded index r) log
  rw [h] at hrun
  rcases houtcome : (addDecoded index r).outcome with ⟨notices, fault | result⟩
  · rw [houtcome] at hrun
    cases hrun
  · rw [houtcome] at hrun
    cases hrun
    have hvalue : indexNext index r = .ok next := congrArg Prod.snd houtcome
    exact size_of_indexNext hvalue

theorem foldlM_decode (index : Index) (lines : List String) :
    lines.foldlM (fun index text => addDecoded index (Element.decode? text index.elements.size))
        index =
      (lines.mapIdx fun i text => Element.decode? text (index.elements.size + i)).foldlM addDecoded
        index := by
  funext log
  induction lines generalizing index log with
  | nil => rfl
  | cons text rest ih =>
    rw [List.foldlM_cons, List.mapIdx_cons, List.foldlM_cons, Nat.add_zero]
    cases hnext : addDecoded index (Element.decode? text index.elements.size) log with
    | error fault more => rw [Pass.run_bind_error hnext, Pass.run_bind_error hnext]
    | ok next more =>
      -- the line after is numbered from an index that has one record more
      have hshift (i : Nat) : index.elements.size + (i + 1) = next.elements.size + i := by
        rw [size_of_addDecoded hnext]
        omega
      simp only [Pass.run_bind_ok hnext, ih next more, hshift]

theorem indexInTurn_eq (lines : Array String) :
    indexInTurn lines = (records lines.toList).foldlM addDecoded Index.empty := by
  have h := foldlM_decode Index.empty lines.toList
  rw [indexInTurn, ← Array.foldlM_toList, h]
  simp only [records, Index.empty, List.size_toArray, List.length_nil, Nat.zero_add]

theorem indexSideBySide_eq (lines : Array String) :
    indexSideBySide lines = (records lines.toList).foldlM addDecoded Index.empty := by
  have hget : records lines.toList =
      (lines.toList.mapIdx fun line text =>
        Task.spawn fun _ => Element.decode? text line).map Task.get := by
    apply List.ext_getElem?
    intro i
    simp only [records, List.getElem?_mapIdx, List.getElem?_map, Option.map_map]
    rfl
  rw [indexSideBySide, ← Array.foldlM_toList, Array.toList_mapIdx, hget, List.foldlM_map]

def indexLines (parallel : Bool) (lines : Array String) : Pass Index :=
  if parallel then indexSideBySide lines else indexInTurn lines

theorem indexLines_eq (parallel : Bool) (lines : Array String) :
    indexLines parallel lines = (records lines.toList).foldlM addDecoded Index.empty := by
  cases parallel with
  | false => exact indexInTurn_eq lines
  | true => exact indexSideBySide_eq lines

theorem value_indexLines (parallel : Bool) (lines : Array String) :
    (indexLines parallel lines).value = indexRecords (records lines.toList) := by
  rw [indexLines_eq, Pass.value_foldlM]
  rfl

instance (parallel : Bool) (lines : Array String) : Pass.Appending (indexLines parallel lines) := by
  rw [indexLines_eq]
  infer_instance

theorem build_eq (o : Options) (lines : List String) : build o lines = do
    let indented ← indent o.indentation lines
    let index ← indexLines o.parallel indented
    Pass.note (.built index.elements.size index.vertices.size index.edges.size)
    return { toIndex := index, document := .ofTexts o.terminator indented.toList } := by
  unfold build indexLines
  cases o.parallel <;> rfl

theorem ofLines_eq (o : Options) (lines : List String) :
    ofLines o lines = (depths o.indentation lines >>= fun ds =>
      (indexRecords (records lines)).map fun index =>
        { toIndex := index, document := .ofTexts o.terminator (indentAll ds lines) }) := by
  change (build o lines).value = _
  rw [build_eq, Pass.value_bind, value_indent]
  cases hdepths : depths o.indentation lines with
  | error fault => rfl
  | ok ds =>
    simp only [Except.map, Pass.ok_bind, Pass.value_bind, value_indexLines,
      records_indentAll (length_of_depths hdepths)]
    cases indexRecords (records lines) <;> rfl

variable {o : Options} {lines : List String} {g : Graph}

theorem ofLines_eq_ok_iff :
    ofLines o lines = .ok g ↔ ∃ ds, depths o.indentation lines = .ok ds ∧
      ∃ index, indexRecords (records lines) = .ok index ∧
        { toIndex := index, document := .ofTexts o.terminator (indentAll ds lines) } = g := by
  simp only [ofLines_eq, Pass.bind_eq_ok_iff, Pass.map_eq_ok_iff]

theorem lineNumber_of_decode? {text : String} {line : Nat} {e : Element}
    (h : Element.decode? text line = some e) : e.lineNumber = line := by
  obtain ⟨v, _, hrecord⟩ := Option.bind_eq_some_iff.mp h
  obtain ⟨values, _, hfields⟩ := Option.bind_eq_some_iff.mp hrecord
  exact (Element.ofFields?_eq_some_iff.mp hfields).lineNumber

theorem indexRecords_of_ofLines (h : ofLines o lines = .ok g) :
    indexRecords (records lines) = .ok g.toIndex := by
  obtain ⟨ds, _, index, hindex, rfl⟩ := ofLines_eq_ok_iff.mp h
  exact hindex

/-- Lines that say the same have the same index, each line behind its own indentation. -/
theorem ofLines_of_alike {lines' : List String} {ds : List Int} (h : ofLines o lines = .ok g)
    (hds : depths o.indentation lines = .ok ds)
    (hreadings : readings lines' = readings lines) (hrecords : records lines' = records lines) :
    ofLines o lines' =
      .ok { toIndex := g.toIndex, document := .ofTexts o.terminator (indentAll ds lines') } := by
  have hdsAlike : depths o.indentation lines' = .ok ds := by rwa [depths, hreadings]
  have hindexAlike : indexRecords (records lines') = .ok g.toIndex := by
    rw [hrecords, indexRecords_of_ofLines h]
  exact ofLines_eq_ok_iff.mpr ⟨ds, hdsAlike, g.toIndex, hindexAlike, rfl⟩

theorem document_of_ofLines {ds : List Int} (h : ofLines o lines = .ok g)
    (hds : depths o.indentation lines = .ok ds) :
    g.document = .ofTexts o.terminator (indentAll ds lines) := by
  have hsame := ofLines_of_alike h hds rfl rfl
  rw [h, Except.ok.injEq] at hsame
  exact congrArg document hsame

theorem exact_of_ofLines (h : ofLines o lines = .ok g) : g.Exact :=
  (exact_of_indexRecords (indexRecords_of_ofLines h)).1

theorem elements_of_ofLines (h : ofLines o lines = .ok g) :
    g.elements.toList.map some = records lines :=
  (exact_of_indexRecords (indexRecords_of_ofLines h)).2

theorem decode?_of_mem_indentAll (h : ofLines o lines = .ok g)
    {ds : List Int} (hlength : ds.length = lines.length) {text : String}
    (htext : text ∈ indentAll ds lines) : ∃ line e, Element.decode? text line = some e := by
  obtain ⟨i, hi⟩ := List.mem_iff_getElem?.mp htext
  have hrecord : (records (indentAll ds lines))[i]? = some (Element.decode? text i) := by
    rw [getElem?_records, hi, Option.map_some]
  rw [records_indentAll hlength, ← elements_of_ofLines h, List.getElem?_map,
    Option.map_eq_some_iff] at hrecord
  obtain ⟨e, _, he⟩ := hrecord
  exact ⟨i, e, he.symm⟩

theorem size_elements_of_ofLines (h : ofLines o lines = .ok g) :
    g.elements.size = lines.length := by
  have hlength := congrArg List.length (elements_of_ofLines h)
  rwa [List.length_map, Array.length_toList, records, List.length_mapIdx] at hlength

theorem element?_eq_some_iff (h : ofLines o lines = .ok g) (i : Nat) (e : Element) :
    g.element? i = some e ↔ ∃ text, lines[i]? = some text ∧ Element.decode? text i = some e := by
  have hi := congrArg (fun rs => rs[i]? = some (some e)) (elements_of_ofLines h)
  simp only [List.getElem?_map, Array.getElem?_toList, getElem?_records, Option.map_eq_some_iff,
    Option.some.injEq, exists_eq_right, eq_iff_iff] at hi
  exact hi

theorem lineNumber_of_element? (h : ofLines o lines = .ok g) {i : Nat} {e : Element}
    (he : g.element? i = some e) : e.lineNumber = i := by
  obtain ⟨_, _, hdecode⟩ := (element?_eq_some_iff h i e).mp he
  exact lineNumber_of_decode? hdecode

end Lsif.Graph
