import Lsif.Text.Integer
import Lsif.Text.Occurrence
import Lsif.Text.Quoted
import Mathlib.Data.List.Forall2
import Mathlib.Tactic.SplitIfs

/-! Texts as lists of characters: what is written piece by piece, where a text first occurs in another
one, and the digits of numbers. -/

namespace Lsif

theorem mapM_eq_some_iff {α β : Type} {f : α → Option β} {as : List α} {bs : List β} :
    as.mapM f = some bs ↔ List.Forall₂ (fun a b => f a = some b) as bs := by
  induction as generalizing bs with
  | nil => simp [eq_comm, List.forall₂_nil_left_iff]
  | cons a as ih =>
    rw [List.mapM_cons, List.forall₂_cons_left_iff]
    simp only [Option.bind_eq_bind, Option.bind_eq_some_iff, ih, Option.pure_def, Option.some.injEq,
      eq_comm (a := bs)]
    exact ⟨fun ⟨b, hb, cs, hcs, h⟩ => ⟨b, cs, hb, hcs, h⟩, fun ⟨b, cs, hb, hcs, h⟩ => ⟨b, hb, cs, hcs, h⟩⟩

theorem exists_forall₂_iff {α β : Type} {r : α → β → Prop} {as : List α} :
    (∃ bs, List.Forall₂ r as bs) ↔ ∀ a ∈ as, ∃ b, r a b := by
  induction as with
  | nil => simp [List.forall₂_nil_left_iff]
  | cons a as ih =>
    rw [List.forall_mem_cons, ← ih]
    simp only [List.forall₂_cons_left_iff]
    constructor
    · rintro ⟨_, b, bs, hb, hbs, _⟩
      exact ⟨⟨b, hb⟩, bs, hbs⟩
    · rintro ⟨⟨b, hb⟩, bs, hbs⟩
      exact ⟨_, b, bs, hb, hbs, rfl⟩

namespace Text

theorem toList_foldl {α : Type} {write : String → α → String} {chars : α → List Char}
    (h : ∀ out a, (write out a).toList = out.toList ++ chars a) (as : List α) (out : String) :
    (as.foldl write out).toList = out.toList ++ as.flatMap chars := by
  induction as generalizing out with
  | nil => exact (List.append_nil _).symm
  | cons a as ih => rw [List.foldl_cons, ih, h, List.flatMap_cons, List.append_assoc]

theorem firstOccurrenceFrom?_eq_find? (needle : List Char) (place : Nat) (cs : List Char) :
    firstOccurrenceFrom? needle place cs =
      ((List.range (cs.length + 1)).find? fun k => needle.isPrefixOf (cs.drop k)).map (place + ·) := by
  induction cs generalizing place with
  | nil => cases needle <;> rfl
  | cons c rest ih =>
    rw [List.length_cons, List.range_succ_eq_map, List.find?_cons, List.drop_zero,
      firstOccurrenceFrom?]
    cases needle.isPrefixOf (c :: rest) with
    | true => rfl
    | false =>
      have hshift (k : Nat) : place + 1 + k = place + (k + 1) := by omega
      simp only [Bool.false_eq_true, if_false, ih, List.find?_map, Option.map_map, Function.comp_def,
        List.drop_succ_cons, hshift]

theorem firstOccurrence?_eq_find? (needle cs : List Char) : firstOccurrence? needle cs =
    (List.range (cs.length + 1)).find? fun k => needle.isPrefixOf (cs.drop k) := by
  simp only [firstOccurrence?, firstOccurrenceFrom?_eq_find?, Nat.zero_add, Option.map_id']

theorem firstOccurrence?_eq_some_iff {needle cs : List Char} {k : Nat} :
    firstOccurrence? needle cs = some k ↔
      needle <+: cs.drop k ∧ ∀ j < k, ¬needle <+: cs.drop j := by
  simp only [firstOccurrence?_eq_find?, List.find?_range_eq_some, Bool.not_eq_true',
    ← Bool.not_eq_true, List.isPrefixOf_iff_prefix, List.mem_range]
  refine and_congr_right fun hk => and_iff_right_of_imp fun hleast => ?_
  by_contra hbehind
  rw [List.drop_eq_nil_of_le (by omega), List.prefix_nil] at hk
  exact hleast 0 (by omega) (hk ▸ List.nil_prefix)

theorem firstOccurrence?_eq_none_iff {needle cs : List Char} :
    firstOccurrence? needle cs = none ↔ ∀ k, ¬needle <+: cs.drop k := by
  simp only [firstOccurrence?_eq_find?, List.find?_range_eq_none, Bool.not_eq_true',
    ← Bool.not_eq_true, List.isPrefixOf_iff_prefix]
  refine ⟨fun h k hk => ?_, fun h k _ => h k⟩
  rcases Nat.lt_or_ge k (cs.length + 1) with hlt | hge
  · exact h k hlt hk
  · refine h cs.length (Nat.lt_succ_self _) ?_
    rwa [List.drop_length, ← List.drop_eq_nil_of_le (by omega : cs.length ≤ k)]

theorem digit?_digitChar (d : Fin 10) : digit? (Nat.digitChar d.val) = some d := by
  revert d
  decide

theorem digit?_eq_some_iff {c : Char} {d : Fin 10} :
    digit? c = some d ↔ c = Nat.digitChar d.val := by
  constructor
  · intro h
    unfold digit? at h
    split_ifs at h with hc
    obtain rfl := Option.some.inj h
    have hzero : '0'.toNat = 48 := rfl
    have hnine : '9'.toNat = 57 := rfl
    apply Char.toNat_inj.mp
    rw [Nat.toNat_digitChar_of_lt_ten (by omega)]
    show c.toNat = 48 + (c.toNat - '0'.toNat)
    omega
  · rintro rfl
    exact digit?_digitChar d

theorem ofDigits_concat (ds : List (Fin 10)) (d : Fin 10) :
    ofDigits (ds ++ [d]) = 10 * ofDigits ds + d.val := by
  rw [ofDigits, List.foldl_append]
  rfl

theorem digits?_map_digitChar (ds : List (Fin 10)) :
    digits? (ds.map fun d => Nat.digitChar d.val) = some ds := by
  unfold digits?
  induction ds with
  | nil => rfl
  | cons d ds ih => rw [List.map_cons, List.mapM_cons, digit?_digitChar, ih]; rfl

theorem digits?_eq_some_iff {cs : List Char} {ds : List (Fin 10)} :
    digits? cs = some ds ↔ cs = ds.map fun d => Nat.digitChar d.val := by
  constructor
  · intro h
    rw [digits?, mapM_eq_some_iff] at h
    induction h with
    | nil => rfl
    | cons hd _ ih => rw [List.map_cons, ← ih, digit?_eq_some_iff.mp hd]
  · rintro rfl
    exact digits?_map_digitChar ds

theorem natural?_map_digitChar {ds : List (Fin 10)} (h : ds ≠ []) :
    natural? (ds.map fun d => Nat.digitChar d.val) = some (ofDigits ds) := by
  have hempty : ¬(ds.map fun d => Nat.digitChar d.val).isEmpty = true := by simpa using h
  rw [natural?, if_neg hempty, digits?_map_digitChar, Option.map_some]

theorem natural?_eq_some_iff {cs : List Char} {n : Nat} :
    natural? cs = some n ↔
      ∃ ds : List (Fin 10), ds ≠ [] ∧ (cs = ds.map fun d => Nat.digitChar d.val) ∧ ofDigits ds = n := by
  constructor
  · intro h
    unfold natural? at h
    split_ifs at h with hempty
    obtain ⟨ds, hds, rfl⟩ := Option.map_eq_some_iff.mp h
    have hcs := digits?_eq_some_iff.mp hds
    refine ⟨ds, ?_, hcs, rfl⟩
    rintro rfl
    exact hempty (hcs ▸ rfl)
  · rintro ⟨ds, hds, rfl, rfl⟩
    exact natural?_map_digitChar hds

theorem toList_hexadecimal_of_lt {n : Nat} (h : n < 16) :
    (hexadecimal n).toList = [Nat.digitChar n] := by
  rw [hexadecimal, String.toList_ofList, Nat.toDigits_of_lt_base h]

theorem toList_hexadecimal_of_ge {n : Nat} (hge : 16 ≤ n) (hlt : n < 32) :
    (hexadecimal n).toList = ['1', Nat.digitChar (n - 16)] := by
  have hdiv : n / 16 = 1 := by omega
  have hmod : n % 16 = n - 16 := by omega
  rw [hexadecimal, String.toList_ofList, Nat.toDigits_of_base_le (by decide) hge, hdiv, hmod]
  rfl

end Text

end Lsif
