import Lsif.Graph.Index
import Lsif.Proofs.Pass
import Mathlib.Data.List.Basic

/-! An index is exact if each of its tables lists the lines of the records that belong there, in order
and once each. Every record that is inserted keeps it so. -/

namespace Lsif

def Fault.duplicateId : Kind → Int64 → Nat → Nat → Fault
  | .vertex => .duplicateVertexId
  | .edge => .duplicateEdgeId

namespace Element

def declares (k : Kind) (id : Int64) (e : Element) : Bool := e.kind = k && e.id = some id

def origins (e : Element) : List Int64 :=
  match e.kind with
  | .vertex => []
  | .edge => e.outV.toList

def destinations (e : Element) : List Int64 :=
  match e.kind, e.outV with
  | .edge, some _ => e.targets
  | _, _ => []

theorem declares_iff (k : Kind) (id : Int64) (e : Element) :
    e.declares k id = true ↔ e.kind = k ∧ e.id = some id := by
  simp only [declares, Bool.and_eq_true, decide_eq_true_eq]

theorem mem_origins_iff (id : Int64) (e : Element) :
    id ∈ e.origins ↔ e.kind = .edge ∧ e.outV = some id := by
  unfold origins
  cases e.kind <;> simp

theorem mem_destinations_iff (id : Int64) (e : Element) :
    id ∈ e.destinations ↔
      e.kind = .edge ∧ e.outV ≠ none ∧ (e.inV = some id ∨ e.inV = none ∧ id ∈ e.inVs) := by
  unfold destinations targets
  cases e.kind <;> cases e.outV <;> cases e.inV <;> simp [eq_comm]

end Element

namespace LineTable

def withId (table : LineTable) (id : Option Int64) (line : Nat) : LineTable :=
  match id with
  | none => table
  | some id => table.insert id line

theorem getElem?_withId (table : LineTable) (id : Option Int64) (line : Nat) (a : Int64) :
    (table.withId id line)[a]? = if id = some a then some line else table[a]? := by
  cases id with
  | none => simp only [withId, reduceCtorEq, if_false]
  | some id => simp only [withId, Std.HashMap.getElem?_insert, beq_iff_eq, Option.some.injEq]

end LineTable

namespace EdgeTable

def lines (table : EdgeTable) (id : Int64) : List Nat := (table.getD id #[]).toList

def addAll (table : EdgeTable) (ids : List Int64) (line : Nat) : EdgeTable :=
  ids.foldl (fun table id => table.add id line) table

theorem lines_add (table : EdgeTable) (id : Int64) (line : Nat) (a : Int64) :
    (table.add id line).lines a =
      if id = a ∧ (table.lines a).getLast? ≠ some line then table.lines a ++ [line]
      else table.lines a := by
  simp only [lines, add, Std.HashMap.getD_alter, beq_iff_eq, Array.getLast?_toList,
    ← Std.HashMap.getD_eq_getD_getElem?]
  by_cases hid : id = a
  · subst hid
    simp only [if_true, true_and]
    split_ifs <;> simp_all
  · simp only [hid, if_false, false_and]

theorem lines_addAll_of_getLast? {table : EdgeTable} {line : Nat} {a : Int64}
    (h : (table.lines a).getLast? = some line) (ids : List Int64) :
    (table.addAll ids line).lines a = table.lines a := by
  induction ids generalizing table with
  | nil => rfl
  | cons id ids ih =>
    have hadd : (table.add id line).lines a = table.lines a := by
      rw [lines_add, if_neg fun hne => hne.2 h]
    calc (addAll (table.add id line) ids line).lines a
        = (table.add id line).lines a := ih (hadd ▸ h)
      _ = table.lines a := hadd

theorem lines_addAll {table : EdgeTable} {line : Nat} {a : Int64}
    (h : (table.lines a).getLast? ≠ some line) (ids : List Int64) :
    (table.addAll ids line).lines a = table.lines a ++ if a ∈ ids then [line] else [] := by
  induction ids generalizing table with
  | nil => simp [addAll]
  | cons id ids ih =>
    change (addAll (table.add id line) ids line).lines a = _
    by_cases hid : id = a
    · subst hid
      have hadd : (table.add id line).lines id = table.lines id ++ [line] := by
        rw [lines_add, if_pos ⟨rfl, h⟩]
      -- the edge is the last of its list now, which keeps it from being listed again
      rw [lines_addAll_of_getLast? (by simp [hadd]), hadd, if_pos List.mem_cons_self]
    · have hadd : (table.add id line).lines a = table.lines a := by
        rw [lines_add, if_neg fun heq => hid heq.1]
      rw [ih (hadd ▸ h), hadd]
      simp only [List.mem_cons, Ne.symm hid, false_or]

theorem lines_addAll_findIdxs {table : EdgeTable} {a : Int64} {ids : Element → List Int64}
    {es : List Element} (h : table.lines a = es.findIdxs fun e => a ∈ ids e) (e : Element) :
    (table.addAll (ids e) es.length).lines a = (es ++ [e]).findIdxs fun e => a ∈ ids e := by
  have hlast : (table.lines a).getLast? ≠ some es.length := by
    intro hlast
    have hmem := List.mem_of_getLast? hlast
    rw [h] at hmem
    simpa using List.lt_add_of_mem_findIdxs _ hmem
  rw [lines_addAll hlast, h, List.findIdxs_append, List.findIdxs_singleton]
  simp only [Nat.zero_add, decide_eq_true_eq]

end EdgeTable

namespace Index

def declared (ix : Index) : Kind → LineTable
  | .vertex => ix.vertices
  | .edge => ix.edges

def enter (ix : Index) (e : Element) : Index where
  elements := ix.elements.push e
  vertices :=
    match e.kind with
    | .vertex => LineTable.withId ix.vertices e.id ix.elements.size
    | .edge => ix.vertices
  edges :=
    match e.kind with
    | .vertex => ix.edges
    | .edge => LineTable.withId ix.edges e.id ix.elements.size
  outgoing := EdgeTable.addAll ix.outgoing e.origins ix.elements.size
  incoming := EdgeTable.addAll ix.incoming e.destinations ix.elements.size

@[simp] theorem elements_enter (ix : Index) (e : Element) :
    (ix.enter e).elements = ix.elements.push e := rfl

theorem declared_enter (ix : Index) (e : Element) (k : Kind) : (ix.enter e).declared k =
    if e.kind = k then LineTable.withId (ix.declared k) e.id ix.elements.size
    else ix.declared k := by
  cases k <;> cases hkind : e.kind <;> simp [declared, enter, hkind]

theorem declare_eq_ok_iff {table table' : LineTable} {id : Option Int64} {line : Nat}
    {fault : Int64 → Nat → Fault} : declare table id line fault = .ok table' ↔
      (∀ a, id = some a → table[a]? = none) ∧ table.withId id line = table' := by
  cases id with
  | none => simp [declare, LineTable.withId]
  | some a =>
    simp only [declare, LineTable.withId, Option.some.injEq, forall_eq']
    cases table[a]? <;>
      simp only [Except.ok.injEq, reduceCtorEq, true_and, false_and]

theorem declare_eq_error_iff {table : LineTable} {id : Option Int64} {line : Nat}
    {fault : Int64 → Nat → Fault} {f : Fault} : declare table id line fault = .error f ↔
      ∃ a first, id = some a ∧ table[a]? = some first ∧ fault a first = f := by
  cases id with
  | none => simp [declare]
  | some a =>
    simp only [declare, Option.some.injEq, existsAndEq, true_and]
    cases table[a]? <;> simp

instance (ix : Index) (e : Element) : Pass.Appending (ix.insert e) := by
  obtain ⟨elements, vertices, edges, outgoing, incoming⟩ := ix
  unfold insert
  dsimp only
  cases e.kind with
  | vertex =>
    dsimp only
    infer_instance
  | edge =>
    cases e.outV <;> (dsimp only; infer_instance)

theorem value_insert (ix : Index) (e : Element) : (ix.insert e).value =
    (declare (ix.declared e.kind) e.id ix.elements.size fun id first =>
      .duplicateId e.kind id first ix.elements.size).map fun _ => ix.enter e := by
  obtain ⟨elements, vertices, edges, outgoing, incoming⟩ := ix
  unfold insert
  dsimp only
  cases hkind : e.kind with
  | vertex =>
    dsimp only [declared, Fault.duplicateId]
    rw [Pass.value_bind, Pass.value_ofExcept]
    cases hdeclare : declare vertices e.id elements.size _ with
    | error fault => rfl
    | ok table =>
      obtain ⟨_, rfl⟩ := declare_eq_ok_iff.mp hdeclare
      simp only [enter, hkind, Element.origins, Element.destinations]
      rfl
  | edge =>
    dsimp only [declared, Fault.duplicateId]
    cases houtV : e.outV <;> dsimp only <;> rw [Pass.value_bind, Pass.value_ofExcept] <;>
      cases hdeclare : declare edges e.id elements.size _ with
      | error fault => rfl
      | ok table =>
        obtain ⟨_, rfl⟩ := declare_eq_ok_iff.mp hdeclare
        simp only [enter, hkind, houtV, Element.origins, Element.destinations]
        rfl

theorem insert_eq_ok_iff {ix ix' : Index} {e : Element} : (ix.insert e).value = .ok ix' ↔
    (∀ id, e.id = some id → (ix.declared e.kind)[id]? = none) ∧ ix.enter e = ix' := by
  rw [value_insert, Pass.map_eq_ok_iff]
  constructor
  · rintro ⟨table, htable, rfl⟩
    exact ⟨(declare_eq_ok_iff.mp htable).1, rfl⟩
  · rintro ⟨hfree, rfl⟩
    exact ⟨_, declare_eq_ok_iff.mpr ⟨hfree, rfl⟩, rfl⟩

theorem insert_eq_error_iff {ix : Index} {e : Element} {f : Fault} :
    (ix.insert e).value = .error f ↔ ∃ id first, e.id = some id ∧
      (ix.declared e.kind)[id]? = some first ∧
      Fault.duplicateId e.kind id first ix.elements.size = f := by
  rw [value_insert, ← declare_eq_error_iff]
  cases declare (ix.declared e.kind) e.id ix.elements.size _ <;> simp [Except.map]

/-- Every table lists the lines of the records that belong there. Since the table of a kind has room
for one line under each id, no two records of a kind share an id. -/
structure Exact (ix : Index) : Prop where
  declared (k : Kind) (id : Int64) :
    (ix.declared k)[id]?.toList = ix.elements.toList.findIdxs (Element.declares k id)
  outgoing (id : Int64) :
    EdgeTable.lines ix.outgoing id = ix.elements.toList.findIdxs fun e => id ∈ e.origins
  incoming (id : Int64) :
    EdgeTable.lines ix.incoming id = ix.elements.toList.findIdxs fun e => id ∈ e.destinations

theorem exact_empty : empty.Exact where
  declared k id := by cases k <;> simp [empty, Index.declared]
  outgoing id := by simp [empty, EdgeTable.lines]
  incoming id := by simp [empty, EdgeTable.lines]

theorem Exact.enter {ix : Index} (h : ix.Exact) {e : Element}
    (hfree : ∀ id, e.id = some id → (ix.declared e.kind)[id]? = none) : (ix.enter e).Exact where
  declared k id := by
    rw [declared_enter, elements_enter, Array.toList_push, List.findIdxs_append, ← h.declared,
      List.findIdxs_singleton]
    by_cases hdeclares : e.declares k id = true
    · obtain ⟨rfl, hid⟩ := (Element.declares_iff k id e).mp hdeclares
      simp [LineTable.getElem?_withId, hid, hfree id hid, hdeclares]
    · have hother : ¬(e.kind = k ∧ e.id = some id) := mt (Element.declares_iff k id e).mpr hdeclares
      rw [if_neg hdeclares, List.append_nil]
      split_ifs with hkind
      · rw [LineTable.getElem?_withId, if_neg fun hid => hother ⟨hkind, hid⟩]
      · rfl
  outgoing id := by
    rw [elements_enter, Array.toList_push]
    exact EdgeTable.lines_addAll_findIdxs (h.outgoing id) e
  incoming id := by
    rw [elements_enter, Array.toList_push]
    exact EdgeTable.lines_addAll_findIdxs (h.incoming id) e

theorem Exact.getElem?_declared_iff {ix : Index} (h : ix.Exact) (k : Kind) (id : Int64) (i : Nat) :
    (ix.declared k)[id]? = some i ↔
      ∃ e, ix.elements[i]? = some e ∧ e.kind = k ∧ e.id = some id := by
  rw [← Option.mem_toList, h.declared, List.mem_findIdxs_iff_exists_getElem_pos]
  simp [← Element.declares_iff, Array.getElem?_eq_some_iff]

end Index

end Lsif
