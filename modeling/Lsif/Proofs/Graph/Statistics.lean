import Lsif.Graph.Statistics
import Lsif.Proofs.Graph.Tables
import Lsif.Proofs.Text.ByteOrder
import Mathlib.Algebra.BigOperators.Group.List.Lemmas
import Mathlib.Data.List.Sort

/-! The statistics count the records that have an id by their labels, each of them once. They hang on these
labels alone, and not on an order in which a table gives them. -/

namespace Lsif

namespace LabelCount

theorem tally_concat (labels : List String) (label : String) : tally (labels ++ [label]) =
    (tally labels).alter label fun n? => some (n?.getD 0 + 1) := by
  rw [tally, List.foldl_concat, tally]

theorem getElem?_tally (labels : List String) (label : String) : (tally labels)[label]? =
    if label ∈ labels then some (labels.count label) else none := by
  induction labels using List.reverseRecOn with
  | nil => simp [tally]
  | append_singleton labels last ih =>
    rw [tally_concat, Std.HashMap.getElem?_alter]
    by_cases hlast : last = label
    · subst hlast
      rw [if_pos (beq_self_eq_true last), if_pos (List.mem_append_right labels List.mem_cons_self), ih]
      by_cases hmem : last ∈ labels
      · simp [hmem]
      · simp [hmem, List.count_eq_zero.mpr hmem]
    · simp [hlast, Ne.symm hlast, ih]

theorem toList_tally_perm {labels labels' : List String} (h : labels.Perm labels') :
    (tally labels).toList.Perm (tally labels').toList := by
  refine (Std.HashMap.Equiv.of_forall_getElem?_eq fun label => ?_).toList_perm
  simp only [getElem?_tally, h.mem_iff, h.count_eq]

theorem before_iff (a b : LabelCount) :
    a.before b = true ↔ b.count < a.count ∨ a.count = b.count ∧ a.label ≤ b.label := by
  simp only [before, Bool.or_eq_true, Bool.and_eq_true, decide_eq_true_eq]

theorem before_trans (a b c : LabelCount) (hab : a.before b = true) (hbc : b.before c = true) :
    a.before c = true := by
  rw [before_iff] at hab hbc ⊢
  rcases hab with hab | ⟨hab, hlabels⟩ <;> rcases hbc with hbc | ⟨hbc, hlabels'⟩
  · exact .inl (Nat.lt_trans hbc hab)
  · exact .inl (hbc ▸ hab)
  · exact .inl (hab ▸ hbc)
  · exact .inr ⟨hab.trans hbc, String.le_trans hlabels hlabels'⟩

theorem before_total (a b : LabelCount) : (a.before b || b.before a) = true := by
  rw [Bool.or_eq_true, before_iff, before_iff]
  rcases Nat.lt_trichotomy a.count b.count with hlt | heq | hgt
  · exact .inr (.inl hlt)
  · exact (String.le_total a.label b.label).imp (.inr ⟨heq, ·⟩) (.inr ⟨heq.symm, ·⟩)
  · exact .inl (.inl hgt)

def ofEntry (total : Nat) (entry : String × Nat) : LabelCount where
  label := entry.1
  count := entry.2
  percentage := share entry.2 total

theorem ofLabels_perm (total : Nat) (labels : List String) :
    (ofLabels total labels).Perm ((tally labels).toList.map (ofEntry total)) :=
  List.mergeSort_perm _ _

theorem mem_ofLabels_iff {total : Nat} {labels : List String} {entry : LabelCount} :
    entry ∈ ofLabels total labels ↔ entry.label ∈ labels ∧ entry.count = labels.count entry.label ∧
      entry.percentage = share entry.count total := by
  rw [(ofLabels_perm total labels).mem_iff, List.mem_map]
  constructor
  · rintro ⟨⟨label, count⟩, hentry, rfl⟩
    rw [Std.HashMap.mem_toList_iff_getElem?_eq_some, getElem?_tally,
      Option.ite_none_right_eq_some] at hentry
    exact ⟨hentry.1, (Option.some.inj hentry.2).symm, rfl⟩
  · rintro ⟨hlabel, hcount, hshare⟩
    refine ⟨(entry.label, entry.count), ?_, ?_⟩
    · rw [Std.HashMap.mem_toList_iff_getElem?_eq_some, getElem?_tally, if_pos hlabel, hcount]
    · exact congrArg (LabelCount.mk _ _) hshare.symm

theorem pairwise_ofLabels (total : Nat) (labels : List String) :
    (ofLabels total labels).Pairwise fun a b => a.before b = true :=
  List.pairwise_mergeSort before_trans before_total _

/-- There is one way only to put the entries of a tally in order. -/
theorem eq_ofLabels_of_perm {total : Nat} {labels : List String} {counts : List LabelCount}
    (h : counts.Perm ((tally labels).toList.map (ofEntry total)))
    (hordered : counts.Pairwise fun a b => a.before b = true) : counts = ofLabels total labels := by
  have hperm := h.trans (ofLabels_perm total labels).symm
  refine hperm.eq_of_pairwise (fun a b ha hb hab hba => ?_) hordered (pairwise_ofLabels total labels)
  obtain ⟨_, _, hshare⟩ := mem_ofLabels_iff.mp (hperm.mem_iff.mp ha)
  obtain ⟨_, _, hshare'⟩ := mem_ofLabels_iff.mp hb
  rw [before_iff] at hab hba
  have hcount : a.count = b.count := by omega
  have hlabel : a.label = b.label := by
    refine String.le_antisymm ?_ ?_
    · exact (hab.resolve_left (by omega)).2
    · exact (hba.resolve_left (by omega)).2
  rcases a with ⟨label, count, percentage⟩
  rcases b with ⟨label', count', percentage'⟩
  obtain rfl : label = label' := hlabel
  obtain rfl : count = count' := hcount
  obtain rfl : percentage = percentage' := hshare.trans hshare'.symm
  rfl

theorem ofLabels_eq_of_perm {labels labels' : List String} (h : labels.Perm labels') (total : Nat) :
    ofLabels total labels = ofLabels total labels' :=
  eq_ofLabels_of_perm ((ofLabels_perm total labels).trans ((toList_tally_perm h).map _))
    (pairwise_ofLabels total labels)

theorem nodup_map_label_ofLabels (total : Nat) (labels : List String) :
    ((ofLabels total labels).map label).Nodup := by
  rw [((ofLabels_perm total labels).map label).nodup_iff, List.map_map]
  refine List.pairwise_map.mpr ((tally labels).distinct_keys_toList.imp fun h heq => ?_)
  exact beq_eq_false_iff_ne.mp h heq

theorem mem_map_label_ofLabels_iff {total : Nat} {labels : List String} {label : String} :
    label ∈ (ofLabels total labels).map LabelCount.label ↔ label ∈ labels := by
  simp only [List.mem_map, mem_ofLabels_iff]
  constructor
  · rintro ⟨entry, ⟨hlabel, _⟩, rfl⟩
    exact hlabel
  · intro hlabel
    exact ⟨ofEntry total (label, labels.count label), ⟨hlabel, rfl, rfl⟩, rfl⟩

theorem strict_ofLabels (total : Nat) (labels : List String) :
    (ofLabels total labels).Pairwise fun a b =>
      b.count < a.count ∨ a.count = b.count ∧ Text.bytes a.label < Text.bytes b.label := by
  have hlabels := List.pairwise_map.mp (nodup_map_label_ofLabels total labels)
  refine ((pairwise_ofLabels total labels).and hlabels).imp fun {a b} h => ?_
  rw [Text.bytes_lt_bytes_iff]
  obtain hcount | ⟨hcount, hle⟩ := (before_iff a b).mp h.1
  · exact .inl hcount
  · exact .inr ⟨hcount, lt_of_le_of_ne hle h.2⟩

def occurrences (counts : List LabelCount) : Nat :=
  counts.foldl (fun n entry => n + entry.count) 0

theorem occurrences_ofLabels (total : Nat) (labels : List String) :
    occurrences (ofLabels total labels) = labels.length := by
  have hperm : ((ofLabels total labels).map label).Perm labels.dedup := by
    rw [List.perm_ext_iff_of_nodup (nodup_map_label_ofLabels total labels) (List.nodup_dedup labels)]
    intro label
    rw [mem_map_label_ofLabels_iff, List.mem_dedup]
  have hcounts : (ofLabels total labels).map count =
      ((ofLabels total labels).map label).map (labels.count ·) := by
    rw [List.map_map]
    exact List.map_congr_left fun entry hentry => (mem_ofLabels_iff.mp hentry).2.1
  calc occurrences (ofLabels total labels)
      = ((ofLabels total labels).map count).sum := by
        rw [List.sum_eq_foldl_nat, List.foldl_map, occurrences]
    _ = (labels.dedup.map (labels.count ·)).sum := by rw [hcounts, (hperm.map _).sum_eq]
    _ = labels.length := List.sum_map_count_dedup_eq_length labels

end LabelCount

namespace Graph

variable {g : Graph}

def identified (g : Graph) (k : Kind) : List Element :=
  g.elements.toList.filter fun e => e.kind = k ∧ e.id ≠ none

theorem nodup_lines_declared (h : g.Exact) (k : Kind) :
    ((g.declared k).toList.map (·.2)).Nodup := by
  refine List.pairwise_map.mpr (Std.HashMap.distinct_keys_toList.imp_of_mem ?_)
  rintro ⟨id, line⟩ ⟨id', line'⟩ hfirst hsecond hne hline
  obtain rfl : line = line' := hline
  rw [Std.HashMap.mem_toList_iff_getElem?_eq_some, h.getElem?_declared_iff] at hfirst hsecond
  obtain ⟨e, he, _, hid⟩ := hfirst
  obtain ⟨e', he', _, hid'⟩ := hsecond
  obtain rfl : e = e' := Option.some.inj (he.symm.trans he')
  exact beq_eq_false_iff_ne.mp hne (Option.some.inj (hid.symm.trans hid'))

theorem linesOf_declared (h : g.Exact) (k : Kind) : linesOf (g.declared k) =
    g.elements.toList.findIdxs fun e => e.kind = k ∧ e.id ≠ none := by
  -- both lists ascend, so it is enough that they hold the same lines once each
  refine List.Perm.eq_of_pairwise (fun _ _ _ _ => Nat.le_antisymm) ?_
    (List.pairwise_findIdxs.imp Nat.le_of_lt) ?_
  · exact List.pairwise_mergeSort' (· ≤ ·) _
  · refine (List.mergeSort_perm _ _).trans ?_
    rw [List.perm_ext_iff_of_nodup (nodup_lines_declared h k) List.nodup_findIdxs]
    intro i
    rw [mem_findIdxs_elements_iff]
    simp only [List.mem_map, Prod.exists, Std.HashMap.mem_toList_iff_getElem?_eq_some,
      h.getElem?_declared_iff, exists_eq_right, decide_eq_true_eq]
    constructor
    · rintro ⟨id, e, he, hkind, hid⟩
      exact ⟨e, he, hkind, hid ▸ Option.some_ne_none id⟩
    · rintro ⟨e, he, hkind, hid⟩
      obtain ⟨id, hid⟩ := Option.ne_none_iff_exists'.mp hid
      exact ⟨id, e, he, hkind, hid⟩

theorem filterMap_linesOf_declared (h : g.Exact) (k : Kind) :
    (linesOf (g.declared k)).filterMap g.element? = g.identified k := by
  rw [linesOf_declared h, filterMap_element?_findIdxs, identified]

theorem statistics_eq (h : g.Exact) : g.statistics =
    { totalLines := g.elements.size
      vertices := LabelCount.ofLabels g.elements.size ((g.identified .vertex).map Element.label)
      edges := LabelCount.ofLabels g.elements.size ((g.identified .edge).map Element.label) } := by
  have hvertices := filterMap_linesOf_declared h .vertex
  have hedges := filterMap_linesOf_declared h .edge
  simp only [Index.declared] at hvertices hedges
  simp only [statistics, statistics.countLabels, vertexLines, edgeLines, hvertices, hedges]

theorem map_label_declared_perm (h : g.Exact) (k : Kind) {lines : List Nat}
    (hlines : lines.Perm ((g.declared k).toList.map (·.2))) :
    ((lines.filterMap g.element?).map Element.label).Perm ((g.identified k).map Element.label) := by
  rw [← filterMap_linesOf_declared h k, linesOf]
  exact (((hlines.trans (List.mergeSort_perm _ _).symm)).filterMap _).map _

theorem size_declared (h : g.Exact) (k : Kind) : (g.declared k).size = (g.identified k).length := by
  have hlength := congrArg List.length (linesOf_declared h k)
  rwa [linesOf, List.length_mergeSort, List.length_map, Std.HashMap.length_toList,
    List.length_findIdxs, List.countP_eq_length_filter] at hlength

theorem length_identified_add_le (g : Graph) :
    (g.identified .vertex).length + (g.identified .edge).length ≤ g.elements.size := by
  have hsplit := List.length_eq_countP_add_countP (fun e : Element => e.isVertex)
    (l := g.elements.toList)
  rw [Array.length_toList] at hsplit
  rw [hsplit, identified, identified, ← List.countP_eq_length_filter, ← List.countP_eq_length_filter]
  refine Nat.add_le_add (List.countP_mono_left fun e _ he => ?_) (List.countP_mono_left fun e _ he => ?_)
  · simpa [Element.isVertex] using (of_decide_eq_true he).1
  · simp [Element.isVertex, (of_decide_eq_true he).1]

/-- The entries count the records of a kind that have an id by their labels, the most frequent label first.
They are the only ones that counting can give, in whatever order the id table lists its lines and the table
of labels its entries. -/
structure CountsByLabel (g : Graph) (k : Kind) (counts : List LabelCount) : Prop where
  nodup : (counts.map LabelCount.label).Nodup
  label_iff (label : String) : label ∈ counts.map LabelCount.label ↔
    ∃ i e, g.element? i = some e ∧ e.kind = k ∧ e.id ≠ none ∧ e.label = label
  count (entry : LabelCount) (h : entry ∈ counts) : entry.count =
    g.elements.toList.countP fun e => e.kind = k ∧ e.id ≠ none ∧ e.label = entry.label
  ordered : counts.Pairwise fun a b =>
    b.count < a.count ∨ a.count = b.count ∧ Text.bytes a.label < Text.bytes b.label
  unique (lines : List Nat) (hlines : lines.Perm ((g.declared k).toList.map (·.2)))
    (entries : List (String × Nat)) (hentries : entries.Perm
      (LabelCount.tally ((lines.filterMap g.element?).map Element.label)).toList) :
    (entries.map (LabelCount.ofEntry g.elements.size)).mergeSort LabelCount.before = counts

theorem countsByLabel_ofLabels (h : g.Exact) (k : Kind) : g.CountsByLabel k
    (LabelCount.ofLabels g.elements.size ((g.identified k).map Element.label)) where
  nodup := LabelCount.nodup_map_label_ofLabels _ _
  label_iff label := by
    rw [LabelCount.mem_map_label_ofLabels_iff, List.mem_map]
    simp only [identified, List.mem_filter, decide_eq_true_eq, mem_elements_iff]
    constructor
    · rintro ⟨e, ⟨⟨i, hi⟩, hkind, hid⟩, hlabel⟩
      exact ⟨i, e, hi, hkind, hid, hlabel⟩
    · rintro ⟨i, e, hi, hkind, hid, hlabel⟩
      exact ⟨e, ⟨⟨i, hi⟩, hkind, hid⟩, hlabel⟩
  count entry hentry := by
    rw [(LabelCount.mem_ofLabels_iff.mp hentry).2.1, List.count_eq_countP, List.countP_map, identified,
      List.countP_filter]
    refine List.countP_congr fun e _ => ?_
    simp [and_comm, and_left_comm]
  ordered := LabelCount.strict_ofLabels _ _
  unique lines hlines entries hentries := by
    rw [← LabelCount.ofLabels_eq_of_perm (map_label_declared_perm h k hlines)]
    refine LabelCount.eq_ofLabels_of_perm ((List.mergeSort_perm _ _).trans (hentries.map _)) ?_
    exact List.pairwise_mergeSort LabelCount.before_trans LabelCount.before_total _

structure Counted (g : Graph) (count : Nat) : Prop where
  totalLines : g.statistics.totalLines = count
  vertices : g.CountsByLabel .vertex g.statistics.vertices
  edges : g.CountsByLabel .edge g.statistics.edges
  vertexCount : LabelCount.occurrences g.statistics.vertices = g.vertices.size
  edgeCount : LabelCount.occurrences g.statistics.edges = g.edges.size
  count_le : LabelCount.occurrences g.statistics.vertices +
    LabelCount.occurrences g.statistics.edges ≤ g.statistics.totalLines

theorem counted_of_ofLines {o : Options} {lines : List String} {g : Graph}
    (h : ofLines o lines = .ok g) : g.Counted lines.length := by
  have hexact := exact_of_ofLines h
  have hvertices := size_declared hexact .vertex
  have hedges := size_declared hexact .edge
  have hbound := length_identified_add_le g
  have hstatistics := statistics_eq hexact
  refine ⟨size_elements_of_ofLines h, ?_, ?_, ?_, ?_, ?_⟩
  · rw [hstatistics]
    exact countsByLabel_ofLabels hexact .vertex
  · rw [hstatistics]
    exact countsByLabel_ofLabels hexact .edge
  · rw [hstatistics, LabelCount.occurrences_ofLabels, List.length_map]
    exact hvertices.symm
  · rw [hstatistics, LabelCount.occurrences_ofLabels, List.length_map]
    exact hedges.symm
  · rw [hstatistics, LabelCount.occurrences_ofLabels, LabelCount.occurrences_ofLabels, List.length_map,
      List.length_map]
    exact hbound

theorem counted_of_ofLines_equal_counts : ∃ g, ofLines {}
    ["\x7b\"type\":\"vertex\",\"id\":1,\"label\":\"é\"\x7d",
      "\x7b\"type\":\"vertex\",\"id\":2,\"label\":\"z\"\x7d",
      "\x7b\"type\":\"vertex\",\"label\":\"z\"\x7d",
      "\x7b\"type\":\"edge\",\"id\":1,\"label\":\"z\"\x7d",
      "\x7b\"type\":\"edge\",\"outV\":1\x7d"] = .ok g ∧ g.Counted 5 := by
  refine (exists_ofLines ?_ ?_).imp fun g hg => ⟨hg, counted_of_ofLines hg⟩
  · decide +kernel
  · decide +kernel

end Graph

end Lsif
