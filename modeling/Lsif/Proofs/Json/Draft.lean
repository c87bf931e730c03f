import Lsif.Proofs.Json.Grammar

/-! A string that is read part by part ends as the text that its parts stand for, or as no text if they
stand for none. -/

namespace Lsif.Json

namespace Draft

theorem isLead_iff {unit : Nat} : isLead unit = true ↔ 0xD800 ≤ unit ∧ unit < 0xDC00 := by
  rw [isLead, Bool.and_eq_true, decide_eq_true_iff, decide_eq_true_iff]

theorem isTrail_iff {unit : Nat} : isTrail unit = true ↔ 0xDC00 ≤ unit ∧ unit < 0xE000 := by
  rw [isTrail, Bool.and_eq_true, decide_eq_true_iff, decide_eq_true_iff]

theorem isLead_toNat (c : Char) : isLead c.toNat = false ∧ isTrail c.toNat = false := by
  have hvalid : c.toNat < 0xD800 ∨ 0xDFFF < c.toNat ∧ c.toNat < 0x110000 := c.valid
  constructor
  · rw [← Bool.not_eq_true, isLead_iff]
    omega
  · rw [← Bool.not_eq_true, isTrail_iff]
    omega

end Draft

theorem toNat_ofNat {n : Nat} (h : n.isValidChar) : (Char.ofNat n).toNat = n := by
  rw [Char.ofNat, dif_pos h]
  rfl

def pairChar (lead trail : UInt16) : Char :=
  Char.ofNat (0x10000 + (lead.toNat - 0xD800) * 0x400 + (trail.toNat - 0xDC00))

namespace Denotes

open Draft

variable {ps : List Part} {cs : List Char}

theorem char_iff {c : Char} : Denotes (.char c :: ps) cs ↔ ∃ ds, cs = c :: ds ∧ Denotes ps ds := by
  constructor
  · rintro (_ | ⟨_, h⟩)
    exact ⟨_, rfl, h⟩
  · rintro ⟨ds, rfl, h⟩
    exact .char c h

theorem unit_iff {n : UInt16} (hlead : isLead n.toNat = false) (htrail : isTrail n.toNat = false) :
    Denotes (.unit n :: ps) cs ↔ ∃ ds, cs = Char.ofNat n.toNat :: ds ∧ Denotes ps ds := by
  constructor
  · intro h
    cases h with
    | unit hc h => exact ⟨_, by rw [← hc, Char.ofNat_toNat], h⟩
    | pair hn => rw [isLead_iff.mpr hn] at hlead; cases hlead
  · rintro ⟨ds, rfl, h⟩
    rw [← Bool.not_eq_true, isLead_iff] at hlead
    rw [← Bool.not_eq_true, isTrail_iff] at htrail
    have hn := n.toNat_lt
    refine .unit (toNat_ofNat ?_) h
    show n.toNat < 0xD800 ∨ 0xDFFF < n.toNat ∧ n.toNat < 0x110000
    omega

theorem not_trail {n : UInt16} (h : isTrail n.toNat = true) : ¬Denotes (.unit n :: ps) cs := by
  rintro (_ | _ | ⟨hc, _⟩ | ⟨hn, _⟩)
  · rw [← hc, (isLead_toNat _).2] at h
    cases h
  · rw [isTrail_iff] at h
    omega

theorem lead_iff {lead : UInt16} (hlead : isLead lead.toNat = true) :
    Denotes (.unit lead :: ps) cs ↔ ∃ trail qs ds, ps = .unit trail :: qs ∧
      isTrail trail.toNat = true ∧ cs = pairChar lead trail :: ds ∧ Denotes qs ds := by
  constructor
  · intro h
    cases h with
    | unit hc => rw [← hc, (isLead_toNat _).1] at hlead; cases hlead
    | pair _ htrail hc h =>
      exact ⟨_, _, _, rfl, isTrail_iff.mpr htrail, by rw [pairChar, ← hc, Char.ofNat_toNat], h⟩
  · rintro ⟨trail, qs, ds, rfl, htrail, rfl, h⟩
    rw [isLead_iff] at hlead
    rw [isTrail_iff] at htrail
    refine .pair hlead htrail (toNat_ofNat ?_) h
    have hhigh : 0xDFFF < 0x10000 + (lead.toNat - 0xD800) * 0x400 + (trail.toNat - 0xDC00) ∧
        0x10000 + (lead.toNat - 0xD800) * 0x400 + (trail.toNat - 0xDC00) < 0x110000 := by
      omega
    exact .inr hhigh

theorem pair_iff {lead trail : UInt16} (hlead : isLead lead.toNat = true)
    (htrail : isTrail trail.toNat = true) : Denotes (.unit lead :: .unit trail :: ps) cs ↔
      ∃ ds, cs = pairChar lead trail :: ds ∧ Denotes ps ds := by
  rw [lead_iff hlead]
  constructor
  · rintro ⟨_, _, ds, hparts, _, hcs, h⟩
    cases hparts
    exact ⟨ds, hcs, h⟩
  · rintro ⟨ds, hcs, h⟩
    exact ⟨trail, ps, ds, rfl, htrail, hcs, h⟩

theorem not_lead {lead : UInt16} (hlead : isLead lead.toNat = true)
    (hps : ∀ trail qs, ps = .unit trail :: qs → isTrail trail.toNat = false) :
    ¬Denotes (.unit lead :: ps) cs := by
  intro h
  obtain ⟨trail, qs, _, hparts, htrail, _⟩ := (lead_iff hlead).mp h
  rw [hps trail qs hparts] at htrail
  cases htrail

end Denotes

namespace Draft

def addPart (d : Draft) : Part → Draft
  | .char c => d.addChar c
  | .unit n => d.addUnit n.toNat

theorem foldl_addPart_broken (ps : List Part) : ps.foldl addPart .broken = .broken := by
  induction ps with
  | nil => rfl
  | cons p ps ih =>
    cases p with
    | char c => exact ih
    | unit n => exact ih

/-- The characters so far and the further text of the parts; half a character waits for the other half. -/
theorem finish_foldl_addPart (ps : List Part) :
    (∀ cs t, (ps.foldl addPart (.sound cs)).finish = some t ↔
      ∃ ds, Denotes ps ds ∧ t.toList = cs.reverse ++ ds) ∧
    ∀ cs (lead : UInt16) t, isLead lead.toNat = true →
      ((ps.foldl addPart (.half cs lead.toNat)).finish = some t ↔
        ∃ ds, Denotes (.unit lead :: ps) ds ∧ t.toList = cs.reverse ++ ds) := by
  have hbroken (ps : List Part) {qs : List Part} (h : ∀ ds, ¬Denotes qs ds) (cs : List Char)
      (t : String) : (ps.foldl addPart .broken).finish = some t ↔
        ∃ ds, Denotes qs ds ∧ t.toList = cs ++ ds := by
    rw [foldl_addPart_broken]
    exact iff_of_false (Option.some_ne_none t).symm fun ⟨ds, hds, _⟩ => h ds hds
  induction ps with
  | nil =>
    refine ⟨fun cs t => ?_, fun cs lead t hlead => ?_⟩
    · have hnil {ds : List Char} : Denotes [] ds ↔ ds = [] :=
        ⟨fun h => by cases h; rfl, fun h => h ▸ .nil⟩
      simp only [List.foldl_nil, finish, Option.some.injEq, hnil, exists_eq_left, List.append_nil]
      rw [← String.toList_inj, String.toList_ofList, eq_comm]
    · exact hbroken [] (fun _ => Denotes.not_lead hlead (by simp)) _ t
  | cons p ps ih =>
    obtain ⟨ihsound, ihhalf⟩ := ih
    have hsound {cs : List Char} {c : Char} {qs : List Part} {t : String}
        (h : ∀ ds, Denotes qs ds ↔ ∃ es, ds = c :: es ∧ Denotes ps es) :
        (ps.foldl addPart (.sound (c :: cs))).finish = some t ↔
          ∃ ds, Denotes qs ds ∧ t.toList = cs.reverse ++ ds := by
      rw [ihsound]
      simp [h]
    refine ⟨fun cs t => ?_, fun cs lead t hlead => ?_⟩
    · cases p with
      | char c => exact hsound fun ds => Denotes.char_iff
      | unit n =>
        rw [List.foldl_cons, addPart, addUnit]
        split_ifs with hlead htrail
        · exact ihhalf cs n t hlead
        · exact hbroken ps (fun _ => Denotes.not_trail htrail) _ t
        · rw [Bool.not_eq_true] at hlead htrail
          exact hsound fun ds => Denotes.unit_iff hlead htrail
    · cases p with
      | char c => exact hbroken ps (fun _ => Denotes.not_lead hlead (by simp)) _ t
      | unit n =>
        rw [List.foldl_cons, addPart, addUnit]
        split_ifs with htrail
        · exact hsound fun ds => Denotes.pair_iff hlead htrail
        · have hno (trail : UInt16) (qs : List Part) (hps : Part.unit n :: ps = .unit trail :: qs) :
              isTrail trail.toNat = false := by
            cases hps
            exact Bool.eq_false_iff.mpr htrail
          exact hbroken ps (fun _ => Denotes.not_lead hlead hno) _ t

theorem finish_foldl_empty (ps : List Part) (t : String) :
    (ps.foldl addPart empty).finish = some t ↔ Denotes ps t.toList := by
  rw [empty, (finish_foldl_addPart ps).1]
  simp

end Draft

end Lsif.Json
