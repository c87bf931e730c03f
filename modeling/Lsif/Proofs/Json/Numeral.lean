import Lsif.Json.Numeral
import Lsif.Proofs.Text

/-! The texts of a number, by the grammar of JSON. Exactly these are read, each as the numeral that it is a
text of, and a numeral is written as one of its texts. -/

namespace Lsif

namespace Numeral

open Text

def fractionChars (ds : List (Fin 10)) : List Char :=
  if ds.isEmpty then [] else '.' :: ds.map fun d => Nat.digitChar d.val

def IsWhole (ds : List (Fin 10)) : Prop := ds ≠ [] ∧ (ds.head?.map Fin.val = some 0 → ds.length = 1)

inductive ExponentText : List Char → Option Int → Prop
  | absent : ExponentText [] none
  | bare {mark : Char} (hmark : mark = 'e' ∨ mark = 'E') {ds : List (Fin 10)} (hds : ds ≠ []) :
      ExponentText (mark :: ds.map fun d => Nat.digitChar d.val) (some (ofDigits ds))
  | plus {mark : Char} (hmark : mark = 'e' ∨ mark = 'E') {ds : List (Fin 10)} (hds : ds ≠ []) :
      ExponentText (mark :: '+' :: ds.map fun d => Nat.digitChar d.val) (some (ofDigits ds))
  | minus {mark : Char} (hmark : mark = 'e' ∨ mark = 'E') {ds : List (Fin 10)} (hds : ds ≠ []) :
      ExponentText (mark :: '-' :: ds.map fun d => Nat.digitChar d.val)
        (some (-(ofDigits ds : Int)))

inductive IsText : List Char → Numeral → Prop
  | intro (negative : Bool) {ds : List (Fin 10)} (hds : IsWhole ds) (fraction : List (Fin 10))
      {cs : List Char} {exponent : Option Int} (hexponent : ExponentText cs exponent) :
      IsText ((if negative then ['-'] else []) ++
        (ds.map (fun d => Nat.digitChar d.val) ++ (fractionChars fraction ++ cs)))
          ⟨negative, ofDigits ds, fraction, exponent⟩

def NoDigit (rest : List Char) : Prop := ∀ c, rest.head? = some c → digit? c = none

theorem leadingDigits_append (ds : List (Fin 10)) {rest : List Char} (h : NoDigit rest) :
    leadingDigits (ds.map (fun d => Nat.digitChar d.val) ++ rest) = (ds, rest) := by
  have hdigits : ∀ c ∈ ds.map fun d => Nat.digitChar d.val, (digit? c).isSome = true := by
    intro c hc
    obtain ⟨d, _, rfl⟩ := List.mem_map.mp hc
    rw [digit?_digitChar, Option.isSome_some]
  have hrest : rest.takeWhile (fun c => (digit? c).isSome) = [] ∧
      rest.dropWhile (fun c => (digit? c).isSome) = rest := by
    cases rest with
    | nil => exact ⟨rfl, rfl⟩
    | cons c rest => simp [h c rfl]
  rw [leadingDigits, List.takeWhile_append_of_pos hdigits, List.dropWhile_append_of_pos hdigits,
    hrest.1, hrest.2, List.append_nil, List.filterMap_map]
  simp only [Function.comp_def, digit?_digitChar, List.filterMap_some]

theorem map_filterMap_digit? {cs : List Char} (h : ∀ c ∈ cs, (digit? c).isSome = true) :
    (cs.filterMap digit?).map (fun d => Nat.digitChar d.val) = cs := by
  induction cs with
  | nil => rfl
  | cons c cs ih =>
    obtain ⟨d, hd⟩ := Option.isSome_iff_exists.mp (h c List.mem_cons_self)
    rw [List.filterMap_cons_some hd, List.map_cons, ih fun c hc => h c (List.mem_cons_of_mem _ hc),
      ← digit?_eq_some_iff.mp hd]

theorem leadingDigits_eq_iff {cs rest : List Char} {ds : List (Fin 10)} :
    leadingDigits cs = (ds, rest) ↔
      cs = ds.map (fun d => Nat.digitChar d.val) ++ rest ∧ NoDigit rest := by
  constructor
  · intro h
    obtain ⟨rfl, rfl⟩ := Prod.mk.inj h
    have hfront : ∀ c ∈ cs.takeWhile fun c => (digit? c).isSome, (digit? c).isSome = true :=
      List.all_eq_true.mp List.all_takeWhile
    refine ⟨by rw [map_filterMap_digit? hfront, List.takeWhile_append_dropWhile], fun c hc => ?_⟩
    have hnot := List.head?_dropWhile_not (fun c => (digit? c).isSome) cs
    rw [hc] at hnot
    simpa using hnot
  · rintro ⟨rfl, hrest⟩
    exact leadingDigits_append ds hrest

theorem whole?_eq_some_iff {ds : List (Fin 10)} {n : Nat} :
    whole? ds = some n ↔ IsWhole ds ∧ ofDigits ds = n := by
  match ds with
  | [] => simp [whole?, IsWhole]
  | [d] => simp [whole?, IsWhole, ofDigits]
  | d :: e :: ds => simp [whole?, IsWhole]

theorem noDigit_fractionChars_append (ds : List (Fin 10)) {rest : List Char} (h : NoDigit rest) :
    NoDigit (fractionChars ds ++ rest) := by
  cases ds with
  | nil => exact h
  | cons d ds =>
    intro c hc
    obtain rfl : '.' = c := Option.some.inj hc
    decide

theorem fraction?_append (ds : List (Fin 10)) {rest : List Char} (hdigit : NoDigit rest)
    (hpoint : rest.head? ≠ some '.') : fraction? (fractionChars ds ++ rest) = some (ds, rest) := by
  cases ds with
  | nil =>
    show fraction? rest = some ([], rest)
    unfold fraction?
    split
    · exact absurd rfl hpoint
    · rfl
  | cons d ds =>
    have hdigits := leadingDigits_append (d :: ds) hdigit
    have hchars : fractionChars (d :: ds) ++ rest =
        '.' :: ((d :: ds).map (fun d => Nat.digitChar d.val) ++ rest) := rfl
    rw [hchars]
    simp only [fraction?, hdigits]

theorem eq_of_fraction? {cs rest : List Char} {ds : List (Fin 10)}
    (h : fraction? cs = some (ds, rest)) : cs = fractionChars ds ++ rest := by
  unfold fraction? at h
  split at h
  · split at h
    · cases h
    · rename_i hne hdigits
      obtain ⟨rfl, rfl⟩ := Prod.mk.inj (Option.some.inj h)
      obtain ⟨hcs, -⟩ := leadingDigits_eq_iff.mp hdigits
      rw [hcs, fractionChars, if_neg (by simpa using hne)]
      rfl
  · obtain ⟨rfl, rfl⟩ := Prod.mk.inj (Option.some.inj h)
    rfl

theorem digitChar_ne_sign (d : Fin 10) :
    Nat.digitChar d.val ≠ '-' ∧ Nat.digitChar d.val ≠ '+' := by
  revert d
  decide

theorem exponent?_of_ne_sign {mark c : Char} (hmark : mark = 'e' ∨ mark = 'E')
    (h : c ≠ '-' ∧ c ≠ '+') (cs : List Char) :
    exponent? (mark :: c :: cs) = (natural? (c :: cs)).map fun n => some (n : Int) := by
  simp only [exponent?, if_pos hmark]
  split
  · rename_i heq
    exact absurd (List.cons.inj heq).1 h.1
  · rename_i heq
    exact absurd (List.cons.inj heq).1 h.2
  · rfl

theorem exponent?_of_text {cs : List Char} {e : Option Int} (h : ExponentText cs e) :
    exponent? cs = some e := by
  cases h with
  | absent => rfl
  | minus hmark hds =>
    simp only [exponent?, if_pos hmark, natural?_map_digitChar hds]
    rfl
  | plus hmark hds =>
    simp only [exponent?, if_pos hmark, natural?_map_digitChar hds]
    rfl
  | @bare mark hmark ds hds =>
    obtain ⟨d, ds, rfl⟩ := List.exists_cons_of_ne_nil hds
    have hread := exponent?_of_ne_sign hmark (digitChar_ne_sign d) (ds.map fun d => Nat.digitChar d.val)
    have hnatural := natural?_map_digitChar hds
    rw [List.map_cons] at hnatural ⊢
    rw [hread, hnatural]
    rfl

theorem exponent?_eq_some_iff {cs : List Char} {e : Option Int} :
    exponent? cs = some e ↔ ExponentText cs e := by
  refine ⟨fun h => ?_, exponent?_of_text⟩
  cases cs with
  | nil =>
    obtain rfl := Option.some.inj h
    exact .absent
  | cons mark cs =>
    simp only [exponent?] at h
    split_ifs at h with hmark
    split at h
    all_goals
      obtain ⟨_, hcast, rfl⟩ := Option.map_eq_some_iff.mp h
      obtain ⟨n, hn, hvalue⟩ := Option.bind_eq_some_iff.mp hcast
      obtain rfl := Option.some.inj hvalue
      obtain ⟨ds, hds, rfl, rfl⟩ := natural?_eq_some_iff.mp hn
    · exact .minus hmark hds
    · exact .plus hmark hds
    · exact .bare hmark hds

theorem ExponentText.eq_mark {cs : List Char} {e : Option Int} (h : ExponentText cs e) {c : Char}
    (hc : cs.head? = some c) : c = 'e' ∨ c = 'E' := by
  cases h with
  | absent => cases hc
  | bare hmark => exact Option.some.inj hc ▸ hmark
  | plus hmark => exact Option.some.inj hc ▸ hmark
  | minus hmark => exact Option.some.inj hc ▸ hmark

theorem ExponentText.noDigit {cs : List Char} {e : Option Int} (h : ExponentText cs e) :
    NoDigit cs := by
  intro c hc
  obtain rfl | rfl := h.eq_mark hc <;> decide

theorem ExponentText.head?_ne_point {cs : List Char} {e : Option Int} (h : ExponentText cs e) :
    cs.head? ≠ some '.' := by
  intro hc
  obtain hmark | hmark := h.eq_mark hc <;> exact absurd hmark (by decide)

theorem unsignedOfChars?_of_text (negative : Bool) {ds : List (Fin 10)} (hds : IsWhole ds)
    (fraction : List (Fin 10)) {cs : List Char} {e : Option Int} (he : ExponentText cs e) :
    unsignedOfChars? negative
      (ds.map (fun d => Nat.digitChar d.val) ++ (fractionChars fraction ++ cs)) =
        some ⟨negative, ofDigits ds, fraction, e⟩ := by
  have hfront := leadingDigits_append ds (noDigit_fractionChars_append fraction he.noDigit)
  have hwhole := whole?_eq_some_iff.mpr ⟨hds, rfl⟩
  have hfraction := fraction?_append fraction he.noDigit he.head?_ne_point
  rw [unsignedOfChars?, hfront]
  simp only [hwhole, hfraction, exponent?_of_text he, Option.bind_eq_bind, Option.bind_some]
  rfl

theorem exists_of_unsignedOfChars? {negative : Bool} {cs : List Char} {n : Numeral}
    (h : unsignedOfChars? negative cs = some n) : ∃ ds fraction rest e, IsWhole ds ∧
      ExponentText rest e ∧
      cs = ds.map (fun d => Nat.digitChar d.val) ++ (fractionChars fraction ++ rest) ∧
      n = ⟨negative, ofDigits ds, fraction, e⟩ := by
  obtain ⟨_, hwhole, h⟩ := Option.bind_eq_some_iff.mp h
  obtain ⟨⟨fraction, rest⟩, hfraction, h⟩ := Option.bind_eq_some_iff.mp h
  obtain ⟨e, he, h⟩ := Option.bind_eq_some_iff.mp h
  obtain ⟨hds, rfl⟩ := whole?_eq_some_iff.mp hwhole
  obtain ⟨hcs, -⟩ := leadingDigits_eq_iff.mp (Prod.eta (leadingDigits cs)).symm
  refine ⟨_, fraction, rest, e, hds, exponent?_eq_some_iff.mp he, ?_, (Option.some.inj h).symm⟩
  rwa [← eq_of_fraction? hfraction]

theorem ofChars?_of_ne_minus {c : Char} (h : c ≠ '-') (cs : List Char) :
    ofChars? (c :: cs) = unsignedOfChars? false (c :: cs) := by
  unfold ofChars?
  split
  · rename_i heq
    exact absurd (List.cons.inj heq).1 h
  · rfl

theorem ofChars?_eq_some_iff {cs : List Char} {n : Numeral} : ofChars? cs = some n ↔ n.IsText cs := by
  constructor
  · intro h
    unfold ofChars? at h
    split at h
    all_goals
      obtain ⟨ds, fraction, rest, e, hds, he, hcs, rfl⟩ := exists_of_unsignedOfChars? h
      rw [hcs]
    · exact .intro true hds fraction he
    · exact .intro false hds fraction he
  · rintro ⟨negative, hds, fraction, he⟩
    have hread := unsignedOfChars?_of_text negative hds fraction he
    cases negative with
    | true => exact hread
    | false =>
      obtain ⟨d, ds, rfl⟩ := List.exists_cons_of_ne_nil hds.1
      exact (ofChars?_of_ne_minus (digitChar_ne_sign d).1 _).trans hread

/-! Writing. -/

theorem whole?_concat {ds : List (Fin 10)} {n : Nat} (h : whole? ds = some n) (hn : n ≠ 0)
    (d : Fin 10) : whole? (ds ++ [d]) = some (ofDigits (ds ++ [d])) := by
  match ds, h with
  | [a], h =>
    have ha : a ≠ 0 := by
      rintro rfl
      exact hn (Option.some.inj h).symm
    exact if_neg ha
  | a :: b :: ds, h =>
    have ha : a ≠ 0 := by
      rintro rfl
      cases h
    exact if_neg ha

theorem exists_toDigits_eq (n : Nat) : ∃ ds : List (Fin 10),
    Nat.toDigits 10 n = ds.map (fun d => Nat.digitChar d.val) ∧ ofDigits ds = n ∧
      whole? ds = some n := by
  induction n using Nat.strongRecOn with
  | ind n ih =>
    rcases Nat.lt_or_ge n 10 with hlt | hge
    · exact ⟨[⟨n, hlt⟩], Nat.toDigits_of_lt_base hlt, by simp [ofDigits], rfl⟩
    · obtain ⟨ds, hdigits, hvalue, hwhole⟩ := ih (n / 10) (by omega)
      have hmod : n % 10 < 10 := Nat.mod_lt n (by decide)
      have hn : ofDigits (ds ++ [⟨n % 10, hmod⟩]) = n := by
        rw [ofDigits_concat, hvalue]
        exact Nat.div_add_mod n 10
      refine ⟨ds ++ [⟨n % 10, hmod⟩], ?_, hn, ?_⟩
      · rw [Nat.toDigits_of_base_le (by decide) hge, hdigits, List.map_append]
        rfl
      · rw [whole?_concat hwhole (by omega), hn]

def exponentChars : Option Int → List Char
  | none => []
  | some e => 'e' :: (if e < 0 then ['-'] else []) ++ Nat.toDigits 10 e.natAbs

theorem toList_render (n : Numeral) : n.render.toList =
    (if n.negative then ['-'] else []) ++
      (Nat.toDigits 10 n.whole ++ (fractionChars n.fraction ++ exponentChars n.exponent)) := by
  rcases n with ⟨negative, whole, fraction, _ | e⟩
  · cases negative <;> cases fraction <;>
      simp [render, fractionChars, exponentChars, Nat.toList_repr]
  · cases negative <;> cases fraction <;> by_cases he : e < 0 <;>
      simp [render, fractionChars, exponentChars, Nat.toList_repr, he]

theorem exponentText_exponentChars (e : Option Int) : ExponentText (exponentChars e) e := by
  cases e with
  | none => exact .absent
  | some e =>
    obtain ⟨ds, hdigits, hvalue, hwhole⟩ := exists_toDigits_eq e.natAbs
    have hds : ds ≠ [] := (whole?_eq_some_iff.mp hwhole).1.1
    by_cases he : e < 0
    · have hchars : exponentChars (some e) = 'e' :: '-' :: Nat.toDigits 10 e.natAbs := by
        simp [exponentChars, he]
      have hsigned : -(ofDigits ds : Int) = e := by omega
      have htext := ExponentText.minus (.inl rfl) hds
      rwa [hsigned, ← hdigits, ← hchars] at htext
    · have hchars : exponentChars (some e) = 'e' :: Nat.toDigits 10 e.natAbs := by
        simp [exponentChars, he]
      have hsigned : (ofDigits ds : Int) = e := by omega
      have htext := ExponentText.bare (.inl rfl) hds
      rwa [hsigned, ← hdigits, ← hchars] at htext

theorem isText_render (n : Numeral) : n.IsText n.render.toList := by
  obtain ⟨ds, hdigits, hvalue, hwhole⟩ := exists_toDigits_eq n.whole
  have hds := (whole?_eq_some_iff.mp hwhole).1
  rw [toList_render, hdigits]
  have htext := IsText.intro n.negative hds n.fraction (exponentText_exponentChars n.exponent)
  rwa [hvalue] at htext

/-! Integers as numerals. -/

def IsInteger (n : Numeral) (i : Int) : Prop :=
  n.fraction = [] ∧ n.exponent = none ∧ ¬(n.negative = true ∧ n.whole = 0) ∧
    (if n.negative then -(n.whole : Int) else n.whole) = i

theorem integer?_eq_some_iff {n : Numeral} {i : Int} :
    n.integer? = some i ↔ n.IsInteger i ∧ -(Nat.pow 2 63 : Nat) ≤ i ∧ i < UInt64.size := by
  rcases n with ⟨negative, whole, _ | ⟨d, ds⟩, _ | e⟩
  · have hsize : UInt64.size = 2 ^ 64 := rfl
    have hpow : Nat.pow 2 63 = 2 ^ 63 := rfl
    cases negative with
    | true =>
      simp [integer?, IsInteger]
      omega
    | false =>
      simp [integer?, IsInteger]
      omega
  · simp [integer?, IsInteger]
  · simp [integer?, IsInteger]
  · simp [integer?, IsInteger]

theorem isInteger_ofInt (i : Int) : (ofInt i).IsInteger i := by
  refine ⟨rfl, rfl, ?_, ?_⟩
  · rintro ⟨hnegative, hwhole⟩
    have hneg : i < 0 := of_decide_eq_true hnegative
    have hzero : i.natAbs = 0 := hwhole
    omega
  · by_cases hneg : i < 0
    · have hsign : (ofInt i).negative = true := decide_eq_true hneg
      rw [if_pos hsign]
      show -(i.natAbs : Int) = i
      omega
    · have hsign : ¬(ofInt i).negative = true := by simpa [ofInt] using hneg
      rw [if_neg hsign]
      show (i.natAbs : Int) = i
      omega

theorem integer?_ofInt {i : Int} (hlow : -(Nat.pow 2 63 : Nat) ≤ i) (hhigh : i < UInt64.size) :
    (ofInt i).integer? = some i :=
  integer?_eq_some_iff.mpr ⟨isInteger_ofInt i, hlow, hhigh⟩

theorem integer?_ofNat {n : Nat} (h : n < UInt64.size) : (ofNat n).integer? = some (n : Int) := by
  have hof : ofNat n = ofInt n := by simp [ofNat, ofInt]
  rw [hof]
  exact integer?_ofInt (by omega) (by omega)

theorem overflows_of_integer? {n : Numeral} {i : Int} (h : n.integer? = some i) :
    n.overflows = false := by
  rw [overflows, h, Option.isSome_some, if_pos rfl]

end Numeral

end Lsif
