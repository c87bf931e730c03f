import Mathlib.Data.String.Basic
import Mathlib.Tactic.SplitIfs

/-! Texts in the order of their bytes. UTF-8 writes a larger character by larger bytes, so that comparing texts
character by character is comparing them byte by byte. -/

namespace Lsif.Text

def bytes (s : String) : List UInt8 := s.toByteArray.data.toList

theorem bytes_eq_flatMap (s : String) : bytes s = s.toList.flatMap String.utf8EncodeChar := by
  obtain ⟨cs, rfl⟩ : ∃ cs, s = String.ofList cs := ⟨s.toList, String.ofList_toList.symm⟩
  rw [bytes, String.toByteArray_ofList, List.utf8Encode, List.toList_data_toByteArray,
    String.toList_ofList]

theorem byte_cons_lt {a b : Nat} (h : a < b) (hb : b < 256) (xs ys : List UInt8) :
    UInt8.ofNat a :: xs < UInt8.ofNat b :: ys := by
  rw [List.cons_lt_cons_iff, UInt8.lt_iff_toNat_lt, UInt8.toNat_ofNat', UInt8.toNat_ofNat']
  omega

/-- Of two numbers below the bound the larger one is written by larger bytes, whatever follows them. -/
def Ascends (write : Nat → List UInt8) (bound : Nat) : Prop :=
  ∀ m n, m < n → n < bound → ∀ xs ys, write m ++ xs < write n ++ ys

theorem ascends_lead {size offset : Nat} (h : size + offset ≤ 256) :
    Ascends (fun n => [UInt8.ofNat (n % size + offset)]) size := by
  intro m n hlt hn xs ys
  have hm : m < size := Nat.lt_trans hlt hn
  dsimp only
  rw [Nat.mod_eq_of_lt hm, Nat.mod_eq_of_lt hn]
  exact byte_cons_lt (by omega) (by omega) xs ys

theorem Ascends.trail {write : Nat → List UInt8} {bound : Nat} (h : Ascends write bound) :
    Ascends (fun n => write (n / 64) ++ [UInt8.ofNat (n % 64 + 128)]) (bound * 64) := by
  intro m n hlt hn xs ys
  simp only [List.append_assoc, List.singleton_append]
  rcases Nat.lt_or_ge (m / 64) (n / 64) with hfront | hfront
  · exact h _ _ hfront (by omega) _ _
  · have hsame : m / 64 = n / 64 := by omega
    rw [hsame]
    exact List.append_left_lt (byte_cons_lt (by omega) (by omega) xs ys)

theorem utf8EncodeChar_append_lt {c d : Char} (h : c < d) (xs ys : List UInt8) :
    String.utf8EncodeChar c ++ xs < String.utf8EncodeChar d ++ ys := by
  have hlt : c.val.toNat < d.val.toNat := h
  have hmax : d.val.toNat < 8 * 64 * 64 * 64 := by
    rcases d.valid with hlow | hhigh
    · exact Nat.lt_trans hlow (by decide)
    · exact Nat.lt_trans hhigh.2 (by decide)
  have hdouble : Ascends _ (32 * 64) := (@ascends_lead 32 192 (by decide)).trail
  have htriple : Ascends _ (16 * 64 * 64) := (@ascends_lead 16 224 (by decide)).trail.trail
  have hquadruple : Ascends _ (8 * 64 * 64 * 64) := (@ascends_lead 8 240 (by decide)).trail.trail.trail
  unfold String.utf8EncodeChar
  generalize c.val.toNat = m at hlt
  generalize d.val.toNat = n at hlt hmax
  replace hdouble := hdouble m n hlt
  replace htriple := htriple m n hlt
  replace hquadruple := hquadruple m n hlt hmax
  simp only [Nat.div_div_eq_div_mul] at hdouble htriple hquadruple
  dsimp only
  -- the larger character takes as many bytes, or more of them and begins with a larger one
  split_ifs
  all_goals first
    | omega
    | exact byte_cons_lt (by omega) (by omega) _ _
    | exact hdouble (by omega) xs ys
    | exact htriple (by omega) xs ys
    | exact hquadruple xs ys

theorem flatMap_utf8EncodeChar_lt {cs ds : List Char} (h : cs < ds) :
    cs.flatMap String.utf8EncodeChar < ds.flatMap String.utf8EncodeChar := by
  induction cs generalizing ds with
  | nil =>
    cases ds with
    | nil => exact absurd h (List.lt_irrefl _)
    | cons d ds =>
      obtain ⟨b, bs, hbytes⟩ := List.exists_cons_of_ne_nil (@String.utf8EncodeChar_ne_nil d)
      rw [List.flatMap_nil, List.flatMap_cons, hbytes]
      exact List.nil_lt_cons _ _
  | cons c cs ih =>
    cases ds with
    | nil => exact absurd h (List.not_lt_nil _)
    | cons d ds =>
      rw [List.flatMap_cons, List.flatMap_cons]
      obtain hlt | ⟨rfl, hlt⟩ := List.cons_lt_cons_iff.mp h
      · exact utf8EncodeChar_append_lt hlt _ _
      · exact List.append_left_lt (ih hlt)

theorem bytes_lt_bytes_iff (s t : String) : bytes s < bytes t ↔ s < t := by
  have hmono {s t : String} (h : s < t) : bytes s < bytes t := by
    rw [bytes_eq_flatMap, bytes_eq_flatMap]
    exact flatMap_utf8EncodeChar_lt (String.lt_iff.mp h)
  refine ⟨fun h => ?_, hmono⟩
  rcases lt_trichotomy s t with hlt | rfl | hgt
  · exact hlt
  · exact absurd h (List.lt_irrefl _)
  · exact absurd h (List.lt_asymm (hmono hgt))

end Lsif.Text
