import Lsif.Json.Readable
import Lsif.Proofs.Json.Overflow
import Mathlib.Data.List.Basic

/-! What it takes for a value to be data, said of all its parts at once: how deep they stand, and what
the numbers, strings and keys among them are. -/

namespace Lsif.Json

mutual

def depth : Json → Nat
  | array items => depthOfItems items + 1
  | object members => depthOfMembers members + 1
  | _ => 0

def depthOfItems : List Json → Nat
  | [] => 0
  | item :: rest => max (depth item) (depthOfItems rest)

def depthOfMembers : List (Option String × Json) → Nat
  | [] => 0
  | (_, value) :: rest => max (depth value) (depthOfMembers rest)

end

inductive Within (v : Json) : Json → Prop
  | self : Within v v
  | item {items : List Json} {item : Json} (hitem : item ∈ items) (h : Within v item) :
      Within v (.array items)
  | member {members : List (Option String × Json)} {m : Option String × Json} (hm : m ∈ members)
      (h : Within v m.2) : Within v (.object members)

/-- No number is too large for a double, no string and no key has half a character, and nothing stands
too deep. -/
structure Data (levels : Nat) (v : Json) : Prop where
  depth : v.depth ≤ levels
  number (n : Numeral) (h : Within (.number n) v) : ¬n.TooLarge
  string (s : Option String) (h : Within (.string s) v) : s ≠ none
  key (members : List (Option String × Json)) (h : Within (.object members) v)
    (m : Option String × Json) (hm : m ∈ members) : m.1 ≠ none

theorem depthOfItems_le_iff {items : List Json} {n : Nat} :
    depthOfItems items ≤ n ↔ ∀ item ∈ items, item.depth ≤ n := by
  induction items with
  | nil => simp [depthOfItems]
  | cons item rest ih => rw [depthOfItems, Nat.max_le, ih, List.forall_mem_cons]

theorem depthOfMembers_le_iff {members : List (Option String × Json)} {n : Nat} :
    depthOfMembers members ≤ n ↔ ∀ m ∈ members, m.2.depth ≤ n := by
  induction members with
  | nil => simp [depthOfMembers]
  | cons m rest ih => rw [depthOfMembers, Nat.max_le, ih, List.forall_mem_cons]

theorem readableItems_iff {levels : Nat} {items : List Json} :
    readableItems levels items = true ↔ ∀ item ∈ items, item.readable levels = true := by
  induction items with
  | nil => simp [readableItems]
  | cons item rest ih => rw [readableItems, Bool.and_eq_true, ih, List.forall_mem_cons]

theorem readableMembers_iff {levels : Nat} {members : List (Option String × Json)} :
    readableMembers levels members = true ↔
      ∀ m ∈ members, m.1 ≠ none ∧ m.2.readable levels = true := by
  induction members with
  | nil => simp [readableMembers]
  | cons m rest ih =>
    rw [readableMembers, Bool.and_eq_true, Bool.and_eq_true, ih, List.forall_mem_cons,
      Option.isSome_iff_ne_none]

section Parts

variable {levels : Nat}

theorem data_array_iff {items : List Json} :
    Data (levels + 1) (.array items) ↔ ∀ item ∈ items, Data levels item := by
  constructor
  · intro h item hitem
    have hdepth := h.depth
    rw [depth, Nat.add_le_add_iff_right, depthOfItems_le_iff] at hdepth
    exact ⟨hdepth item hitem, fun n hn => h.number n (.item hitem hn),
      fun s hs => h.string s (.item hitem hs), fun ms hms => h.key ms (.item hitem hms)⟩
  · intro h
    refine ⟨?_, ?_, ?_, ?_⟩
    · rw [depth, Nat.add_le_add_iff_right, depthOfItems_le_iff]
      exact fun item hitem => (h item hitem).depth
    · rintro n (_ | ⟨hitem, hn⟩)
      exact (h _ hitem).number n hn
    · rintro s (_ | ⟨hitem, hs⟩)
      exact (h _ hitem).string s hs
    · rintro ms (_ | ⟨hitem, hms⟩)
      exact (h _ hitem).key ms hms

theorem data_object_iff {members : List (Option String × Json)} :
    Data (levels + 1) (.object members) ↔ ∀ m ∈ members, m.1 ≠ none ∧ Data levels m.2 := by
  constructor
  · intro h m hm
    have hdepth := h.depth
    rw [depth, Nat.add_le_add_iff_right, depthOfMembers_le_iff] at hdepth
    exact ⟨h.key members .self m hm, hdepth m hm, fun n hn => h.number n (.member hm hn),
      fun s hs => h.string s (.member hm hs), fun ms hms => h.key ms (.member hm hms)⟩
  · intro h
    refine ⟨?_, ?_, ?_, ?_⟩
    · rw [depth, Nat.add_le_add_iff_right, depthOfMembers_le_iff]
      exact fun m hm => (h m hm).2.depth
    · rintro n (_ | _ | ⟨hm, hn⟩)
      exact (h _ hm).2.number n hn
    · rintro s (_ | _ | ⟨hm, hs⟩)
      exact (h _ hm).2.string s hs
    · rintro ms (_ | _ | ⟨hm, hms⟩)
      · exact fun m hm => (h m hm).1
      · exact (h _ hm).2.key ms hms

theorem data_null : Data levels .null where
  depth := Nat.zero_le levels
  number _ h := nomatch h
  string _ h := nomatch h
  key _ h := nomatch h

theorem data_bool (b : Bool) : Data levels (.bool b) where
  depth := Nat.zero_le levels
  number _ h := nomatch h
  string _ h := nomatch h
  key _ h := nomatch h

theorem data_number_iff {n : Numeral} : Data levels (.number n) ↔ ¬n.TooLarge := by
  refine ⟨fun h => h.number n .self, fun h => ⟨Nat.zero_le levels, ?_, ?_, ?_⟩⟩
  · rintro _ (_ | _)
    exact h
  · rintro s (_ | _)
  · rintro ms (_ | _)

theorem data_string_iff {s : Option String} : Data levels (.string s) ↔ s ≠ none := by
  refine ⟨fun h => h.string s .self, fun h => ⟨Nat.zero_le levels, ?_, ?_, ?_⟩⟩
  · rintro n (_ | _)
  · rintro _ (_ | _)
    exact h
  · rintro ms (_ | _)

end Parts

theorem readable_iff (levels : Nat) (v : Json) : v.readable levels = true ↔ Data levels v := by
  match levels, v with
  | _, null => exact iff_of_true rfl data_null
  | _, bool b => exact iff_of_true rfl (data_bool b)
  | _, number n => rw [readable, data_number_iff, ← Numeral.overflows_iff, Bool.not_eq_true', Bool.not_eq_true]
  | _, string s => rw [readable, data_string_iff, Option.isSome_iff_ne_none]
  | 0, array items => exact iff_of_false Bool.false_ne_true fun h => Nat.not_succ_le_zero _ h.depth
  | 0, object members => exact iff_of_false Bool.false_ne_true fun h => Nat.not_succ_le_zero _ h.depth
  | inner + 1, array items =>
    rw [readable, readableItems_iff, data_array_iff]
    exact forall₂_congr fun item _ => readable_iff inner item
  | inner + 1, object members =>
    rw [readable, readableMembers_iff, data_object_iff]
    exact forall₂_congr fun m _ => and_congr_right fun _ => readable_iff inner m.2

end Lsif.Json
