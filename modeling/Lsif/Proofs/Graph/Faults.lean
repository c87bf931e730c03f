import Lsif.Proofs.Graph.Build

/-! Which fault a build reports. The indentation comes first, for all lines. After it the build stops
at the first line that is no record or that repeats the id of an earlier record of its kind. -/

namespace Lsif.Graph

def Declares (rs : List (Option Element)) (k : Kind) (id : Int64) (line : Nat) : Prop :=
  ∃ e, rs[line]? = some (some e) ∧ e.kind = k ∧ e.id = some id

def Faulty (rs : List (Option Element)) (line : Nat) : Prop :=
  rs[line]? = some none ∨
    ∃ k id, Declares rs k id line ∧ ∃ first < line, Declares rs k id first

def key? (rs : List (Option Element)) (line : Nat) : Option (Kind × Int64) :=
  rs[line]?.join.bind fun e => e.id.map fun id => (e.kind, id)

theorem declares_iff_key? (rs : List (Option Element)) (k : Kind) (id : Int64) (line : Nat) :
    Declares rs k id line ↔ key? rs line = some (k, id) := by
  simp only [Declares, key?, Option.bind_eq_some_iff, Option.map_eq_some_iff, Option.join_eq_some_iff,
    Prod.mk.injEq]
  constructor
  · rintro ⟨e, he, rfl, hid⟩
    exact ⟨e, he, id, hid, rfl, rfl⟩
  · rintro ⟨e, he, id', hid, rfl, rfl⟩
    exact ⟨e, he, rfl, hid⟩

theorem faulty_iff_key? (rs : List (Option Element)) (line : Nat) :
    Faulty rs line ↔
      rs[line]? = some none ∨
        ∃ first < line, key? rs first ≠ none ∧ key? rs first = key? rs line := by
  simp only [Faulty, declares_iff_key?]
  refine or_congr_right ⟨?_, ?_⟩
  · rintro ⟨k, id, hline, first, hlt, hfirst⟩
    exact ⟨first, hlt, by rw [hfirst]; exact Option.some_ne_none _, hfirst.trans hline.symm⟩
  · rintro ⟨first, hlt, hsome, hsame⟩
    obtain ⟨⟨k, id⟩, hfirst⟩ := Option.ne_none_iff_exists'.mp hsome
    exact ⟨k, id, hsame ▸ hfirst, first, hlt, hfirst⟩

instance (rs : List (Option Element)) (line : Nat) : Decidable (Faulty rs line) :=
  decidable_of_iff _ (faulty_iff_key? rs line).symm

/-- The fault that a line is reported with. A repeated id comes with the only line that has it
already. -/
inductive FaultAt (rs : List (Option Element)) (line : Nat) : Fault → Prop
  | malformed (h : rs[line]? = some none) : FaultAt rs line (.malformedLine line)
  | repeated (k : Kind) (id : Int64) (first : Nat) (h : Declares rs k id line)
      (hfirst : first < line) (honly : ∀ i < line, Declares rs k id i ↔ i = first) :
      FaultAt rs line (.duplicateId k id first line)

theorem declares_concat {rs : List (Option Element)} {line : Nat} (h : line < rs.length)
    (r : Option Element) (k : Kind) (id : Int64) :
    Declares (rs ++ [r]) k id line ↔ Declares rs k id line := by
  simp only [Declares, List.getElem?_append_left h]

theorem faulty_concat {rs : List (Option Element)} {line : Nat} (h : line < rs.length)
    (r : Option Element) : Faulty (rs ++ [r]) line ↔ Faulty rs line := by
  have hfirst (k : Kind) (id : Int64) : (∃ first < line, Declares (rs ++ [r]) k id first) ↔
      ∃ first < line, Declares rs k id first :=
    exists_congr fun first => and_congr_right fun hlt => declares_concat (Nat.lt_trans hlt h) r k id
  simp only [Faulty, List.getElem?_append_left h, declares_concat h, hfirst]

theorem FaultAt.concat {rs : List (Option Element)} {line : Nat} {f : Fault}
    (hf : FaultAt rs line f) (h : line < rs.length) (r : Option Element) :
    FaultAt (rs ++ [r]) line f := by
  cases hf with
  | malformed hnone => exact .malformed (List.getElem?_append_left h ▸ hnone)
  | repeated k id first hline hfirst honly =>
    refine .repeated k id first ((declares_concat h r k id).mpr hline) hfirst fun i hi => ?_
    rw [declares_concat (Nat.lt_trans hi h), honly i hi]

theorem FaultAt.lt_length {rs : List (Option Element)} {line : Nat} {f : Fault}
    (hf : FaultAt rs line f) : line < rs.length := by
  cases hf with
  | malformed hnone => exact (List.getElem?_eq_some_iff.mp hnone).1
  | repeated k id first hline _ _ =>
    obtain ⟨e, he, _⟩ := hline
    exact (List.getElem?_eq_some_iff.mp he).1

theorem FaultAt.faulty {rs : List (Option Element)} {line : Nat} {f : Fault}
    (hf : FaultAt rs line f) : Faulty rs line := by
  cases hf with
  | malformed hnone => exact .inl hnone
  | repeated k id first hline hfirst honly =>
    exact .inr ⟨k, id, hline, first, hfirst, (honly first hfirst).mpr rfl⟩

theorem Declares.lt_length {lines : List String} {k : Kind} {id : Int64} {line : Nat}
    (h : Declares (records lines) k id line) : line < lines.length := by
  obtain ⟨e, he, _⟩ := h
  have hlt := (List.getElem?_eq_some_iff.mp he).1
  rwa [records, List.length_mapIdx] at hlt

theorem Declares.kind_id_unique {rs : List (Option Element)} {line : Nat} {k k' : Kind}
    {id id' : Int64} (h : Declares rs k id line) (h' : Declares rs k' id' line) :
    k = k' ∧ id = id' := by
  obtain ⟨e, he, rfl, hid⟩ := h
  obtain ⟨e', he', rfl, hid'⟩ := h'
  obtain rfl : e = e' := by simpa only [he, Option.some.injEq] using he'
  exact ⟨rfl, by simpa only [hid, Option.some.injEq] using hid'⟩

theorem FaultAt.unique {rs : List (Option Element)} {line : Nat} {f f' : Fault}
    (h : FaultAt rs line f) (h' : FaultAt rs line f') : f = f' := by
  cases h with
  | malformed hnone =>
    cases h' with
    | malformed _ => rfl
    | repeated k id first hline _ _ =>
      obtain ⟨e, he, _⟩ := hline
      simp only [hnone, Option.some.injEq, reduceCtorEq] at he
  | repeated k id first hline hfirst honly =>
    cases h' with
    | malformed hnone =>
      obtain ⟨e, he, _⟩ := hline
      simp only [hnone, Option.some.injEq, reduceCtorEq] at he
    | repeated k' id' first' hline' hfirst' honly' =>
      obtain ⟨rfl, rfl⟩ := hline.kind_id_unique hline'
      have hsame : first' = first := (honly first' hfirst').mp ((honly' first' hfirst').mpr rfl)
      rw [hsame]

theorem getElem?_declared_iff {rs : List (Option Element)} {index : Index}
    (h : indexRecords rs = .ok index) (k : Kind) (id : Int64) (line : Nat) :
    (index.declared k)[id]? = some line ↔ Declares rs k id line := by
  obtain ⟨hexact, helements⟩ := exact_of_indexRecords h
  rw [hexact.getElem?_declared_iff, Declares, ← helements]
  simp only [List.getElem?_map, Array.getElem?_toList, Option.map_eq_some_iff, Option.some.injEq,
    exists_eq_right]

theorem not_faulty_of_indexRecords {rs : List (Option Element)} {index : Index}
    (h : indexRecords rs = .ok index) (line : Nat) : ¬Faulty rs line := by
  rintro (hnone | ⟨k, id, hline, first, hlt, hfirst⟩)
  · rw [← (exact_of_indexRecords h).2, List.getElem?_map, Option.map_eq_some_iff] at hnone
    obtain ⟨_, _, hsome⟩ := hnone
    cases hsome
  · rw [← getElem?_declared_iff h] at hline hfirst
    rw [hline, Option.some.injEq] at hfirst
    omega

theorem faultAt_of_indexNext {rs : List (Option Element)} {index : Index} {r : Option Element}
    {f : Fault} (h : indexRecords rs = .ok index) (hf : indexNext index r = .error f) :
    FaultAt (rs ++ [r]) rs.length f := by
  have hsize : index.elements.size = rs.length := by
    rw [← (exact_of_indexRecords h).2, List.length_map, Array.length_toList]
  cases r with
  | none =>
    rw [indexNext_none, hsize] at hf
    cases hf
    exact .malformed List.getElem?_concat_length
  | some e =>
    rw [indexNext_some] at hf
    obtain ⟨id, first, hid, htaken, rfl⟩ := Index.insert_eq_error_iff.mp hf
    have hfirst : first < rs.length := by
      obtain ⟨_, he, _⟩ := (getElem?_declared_iff h _ _ _).mp htaken
      exact (List.getElem?_eq_some_iff.mp he).1
    rw [hsize]
    refine .repeated e.kind id first ⟨e, List.getElem?_concat_length, rfl, hid⟩ hfirst ?_
    intro i hi
    rw [declares_concat hi, ← getElem?_declared_iff h, htaken, Option.some.injEq, eq_comm]

theorem exists_faultAt_of_indexRecords {rs : List (Option Element)} {f : Fault}
    (h : indexRecords rs = .error f) :
    ∃ line, FaultAt rs line f ∧ ∀ i < line, ¬Faulty rs i := by
  induction rs using List.reverseRecOn generalizing f with
  | nil => cases h
  | append_singleton rs r ih =>
    rw [indexRecords_concat] at h
    cases hbefore : indexRecords rs with
    | error fault =>
      rw [hbefore] at h
      cases h
      obtain ⟨line, hline, hleast⟩ := ih hbefore
      refine ⟨line, hline.concat hline.lt_length r, fun i hi hfaulty => hleast i hi ?_⟩
      exact (faulty_concat (Nat.lt_trans hi hline.lt_length) r).mp hfaulty
    | ok index =>
      rw [hbefore, Pass.ok_bind] at h
      refine ⟨rs.length, faultAt_of_indexNext hbefore h, fun i hi hfaulty => ?_⟩
      exact not_faulty_of_indexRecords hbefore i ((faulty_concat hi r).mp hfaulty)

theorem exists_indexRecords_iff (rs : List (Option Element)) :
    (∃ index, indexRecords rs = .ok index) ↔ ∀ line, ¬Faulty rs line := by
  constructor
  · rintro ⟨index, h⟩
    exact not_faulty_of_indexRecords h
  · intro hclean
    cases h : indexRecords rs with
    | ok index => exact ⟨index, rfl⟩
    | error fault =>
      obtain ⟨line, hline, _⟩ := exists_faultAt_of_indexRecords h
      exact (hclean line hline.faulty).elim

theorem indexRecords_eq_error_iff (rs : List (Option Element)) (f : Fault) :
    indexRecords rs = .error f ↔ ∃ line, FaultAt rs line f ∧ ∀ i < line, ¬Faulty rs i := by
  refine ⟨exists_faultAt_of_indexRecords, ?_⟩
  rintro ⟨line, hline, hleast⟩
  cases h : indexRecords rs with
  | ok index => exact (not_faulty_of_indexRecords h line hline.faulty).elim
  | error fault =>
    obtain ⟨line', hline', hleast'⟩ := exists_faultAt_of_indexRecords h
    -- of two faulty lines with none before either, neither comes first
    obtain rfl : line' = line := by
      rcases Nat.lt_trichotomy line' line with hlt | heq | hlt
      · exact (hleast line' hlt hline'.faulty).elim
      · exact heq
      · exact (hleast' line hlt hline.faulty).elim
    rw [hline'.unique hline]

theorem Faulty.lt_length {rs : List (Option Element)} {line : Nat} (h : Faulty rs line) :
    line < rs.length := by
  obtain hnone | ⟨k, id, ⟨e, he, _⟩, _⟩ := h
  · exact (List.getElem?_eq_some_iff.mp hnone).1
  · exact (List.getElem?_eq_some_iff.mp he).1

theorem exists_ofLines {o : Options} {lines : List String}
    (hdepths : (Indentation.depths o.indentation lines).isOk = true)
    (hclean : ∀ line < (records lines).length, ¬Faulty (records lines) line) :
    ∃ g, ofLines o lines = .ok g := by
  obtain ⟨index, hindex⟩ := (exists_indexRecords_iff (records lines)).mpr fun line hfaulty =>
    hclean line hfaulty.lt_length hfaulty
  cases hds : Indentation.depths o.indentation lines with
  | error fault =>
    rw [hds] at hdepths
    cases hdepths
  | ok ds => exact ⟨_, ofLines_eq_ok_iff.mpr ⟨ds, hds, index, hindex, rfl⟩⟩

theorem forall_not_faulty_iff (lines : List String) :
    (∀ line, ¬Faulty (records lines) line) ↔
      (∀ i text, lines[i]? = some text → ∃ e, Element.decode? text i = some e) ∧
        ∀ k id i j, Declares (records lines) k id i → Declares (records lines) k id j → i = j := by
  constructor
  · intro hclean
    refine ⟨fun i text htext => ?_, fun k id i j hi hj => ?_⟩
    · refine Option.ne_none_iff_exists'.mp fun hnone => hclean i (.inl ?_)
      rw [getElem?_records, htext, Option.map_some, hnone]
    · rcases Nat.lt_trichotomy i j with hlt | heq | hlt
      · exact (hclean j (.inr ⟨k, id, hj, i, hlt, hi⟩)).elim
      · exact heq
      · exact (hclean i (.inr ⟨k, id, hi, j, hlt, hj⟩)).elim
  · rintro ⟨hdecode, hunique⟩ line (hnone | ⟨k, id, hline, first, hlt, hfirst⟩)
    · rw [getElem?_records, Option.map_eq_some_iff] at hnone
      obtain ⟨text, htext, hnone⟩ := hnone
      obtain ⟨e, he⟩ := hdecode line text htext
      rw [hnone] at he
      cases he
    · exact absurd (hunique k id first line hfirst hline) (Nat.ne_of_lt hlt)

/-- A build succeeds exactly if the indentation does, every line decodes and no two records of a kind
share an id. A fault of the indentation comes before all others; else the first faulty line is
reported. -/
theorem ofLines_outcome (o : Options) (lines : List String) :
    ((∃ g, ofLines o lines = .ok g) ↔
      (∃ indented, (Indentation.indent o.indentation lines).outcome.2 = .ok indented) ∧
      (∀ i text, lines[i]? = some text → ∃ e, Element.decode? text i = some e) ∧
      ∀ k id i j, Declares (records lines) k id i → Declares (records lines) k id j → i = j) ∧
    ∀ f, ofLines o lines = .error f ↔
      (Indentation.indent o.indentation lines).outcome.2 = .error f ∨
      (∃ indented, (Indentation.indent o.indentation lines).outcome.2 = .ok indented) ∧
        ∃ line, FaultAt (records lines) line f ∧ ∀ i < line, ¬Faulty (records lines) i := by
  rw [← forall_not_faulty_iff, ← exists_indexRecords_iff]
  simp only [← indexRecords_eq_error_iff]
  have hindent : (Indentation.indent o.indentation lines).outcome.2 = _ :=
    Indentation.value_indent o.indentation lines
  rw [hindent, ofLines_eq]
  cases Indentation.depths o.indentation lines with
  | error fault => simp [Except.map]
  | ok ds =>
    cases indexRecords (records lines) with
    | error fault => simp [Except.map]
    | ok index => simp [Except.map]

end Lsif.Graph
