import Lsif.Proofs.Json.Draft

/-! How a text is cut into tokens. Marks, strings and white space are complete in themselves; a bare word
is complete as soon as something follows that cannot belong to it. Texts of both kinds are put together
piece by piece, so each piece is looked at once. -/

namespace Lsif

theorem foldlM_append_eq {σ α : Type} {f : σ → α → Option σ} {s t : σ} {as : List α}
    (h : as.foldlM f s = some t) (bs : List α) : (as ++ bs).foldlM f s = bs.foldlM f t := by
  rw [List.foldlM_append, h]
  rfl

namespace Json

open Scan

def EndsWord (rest : List Char) : Prop := ∀ c, rest.head? = some c → Mode.endsWord c = true

theorem EndsWord.append {cs ds : List Char} (hcs : EndsWord cs) (hds : EndsWord ds) :
    EndsWord (cs ++ ds) := by
  cases cs with
  | nil => exact hds
  | cons c cs => exact hcs

theorem AllSpace.endsWord {cs : List Char} (h : AllSpace cs) : EndsWord cs := fun _ hc =>
  Mode.endsWord_of_isSpace (h _ (List.mem_of_mem_head? hc))

theorem endsWord_cons {c : Char} (h : Mode.endsWord c = true) (cs : List Char) :
    EndsWord (c :: cs) := by
  intro d hd
  obtain rfl : c = d := Option.some.inj hd
  exact h

def Closed (cs : List Char) (ts : List Token) : Prop :=
  ∀ tokens, cs.foldlM step ⟨.between, tokens⟩ = some ⟨.between, ts.reverse ++ tokens⟩

/-- The text writes the tokens, unless a word at its end goes on. -/
def Writes (cs : List Char) (ts : List Token) : Prop :=
  ∀ rest, EndsWord rest → ∀ tokens,
    run (cs ++ rest) ⟨.between, tokens⟩ = run rest ⟨.between, ts.reverse ++ tokens⟩

theorem Closed.writes {cs : List Char} {ts : List Token} (h : Closed cs ts) : Writes cs ts := by
  intro rest _ tokens
  rw [run_append, h tokens, Option.bind_some]

theorem Closed.append {cs ds : List Char} {ts us : List Token} (hcs : Closed cs ts)
    (hds : Closed ds us) : Closed (cs ++ ds) (ts ++ us) := by
  intro tokens
  rw [foldlM_append_eq (hcs tokens), hds, List.reverse_append, List.append_assoc]

theorem Closed.append_writes {cs ds : List Char} {ts us : List Token} (hcs : Closed cs ts)
    (hds : Writes ds us) : Writes (cs ++ ds) (ts ++ us) := by
  intro rest hrest tokens
  rw [List.append_assoc, run_append, hcs tokens, Option.bind_some, hds rest hrest,
    List.reverse_append, List.append_assoc]

theorem Writes.append {cs ds : List Char} {ts us : List Token} (hcs : Writes cs ts)
    (hds : Writes ds us) (hends : EndsWord ds) : Writes (cs ++ ds) (ts ++ us) := by
  intro rest hrest tokens
  rw [List.append_assoc, hcs _ (hends.append hrest), hds rest hrest, List.reverse_append,
    List.append_assoc]

theorem Writes.tokens? {cs : List Char} {ts : List Token} (h : Writes cs ts) :
    tokens? cs = some ts := by
  have hrun := h [] (fun c hc => nomatch hc) []
  rw [List.append_nil, List.append_nil] at hrun
  rw [tokens?_eq_run]
  refine hrun.trans ?_
  simp [run_nil, finish, Mode.finish]

theorem closed_nil : Closed [] [] := fun _ => rfl

theorem closed_mark {c : Char} {t : Token} (h : Token.ofMark? c = some t) : Closed [c] [t] := by
  have hspace : isSpace c = false ∧ c ≠ '"' := by
    unfold Token.ofMark? at h
    split at h <;> first | exact ⟨rfl, by decide⟩ | cases h
  intro tokens
  simp [step, Mode.step, Mode.enter, hspace, h]

theorem AllSpace.closed {cs : List Char} (h : AllSpace cs) : Closed cs [] := foldlM_allSpace h

/-! Bare words. -/

theorem Mode.enter_of_not_endsWord {c : Char} (h : Mode.endsWord c = false) :
    Mode.enter c = (.word [c], []) := by
  simp only [Mode.endsWord, Bool.or_eq_false_iff, decide_eq_false_iff_not, Option.isSome_eq_false_iff,
    Option.isNone_iff_eq_none] at h
  simp only [Mode.enter, h.1.1, h.1.2, h.2, if_false, Bool.false_eq_true]

theorem foldlM_word {cs : List Char} (h : ∀ c ∈ cs, Mode.endsWord c = false) (before : List Char)
    (tokens : List Token) :
    cs.foldlM step ⟨.word before, tokens⟩ = some ⟨.word (cs.reverse ++ before), tokens⟩ := by
  induction cs generalizing before with
  | nil => rfl
  | cons c cs ih =>
    have hc : Mode.endsWord c = false := h c List.mem_cons_self
    have hstep : step ⟨.word before, tokens⟩ c = some ⟨.word (c :: before), tokens⟩ := by
      simp [step, Mode.step, hc]
    rw [List.foldlM_cons, hstep, List.reverse_cons, List.append_assoc]
    exact ih (fun d hd => h d (List.mem_cons_of_mem c hd)) (c :: before)

theorem run_word {cs : List Char} {t : Token} (h : Token.ofWord? cs = some t) {rest : List Char}
    (hrest : EndsWord rest) (tokens : List Token) :
    run rest ⟨.word cs.reverse, tokens⟩ = run rest ⟨.between, t :: tokens⟩ := by
  cases rest with
  | nil => simp [run_nil, finish, Mode.finish, h]
  | cons c rest =>
    have hc : Mode.endsWord c = true := hrest c rfl
    simp [run_cons, step, Mode.step, hc, h]

theorem writes_word {cs : List Char} {t : Token} (hcs : ∀ c ∈ cs, Mode.endsWord c = false)
    (h : Token.ofWord? cs = some t) : Writes cs [t] := by
  intro rest hrest tokens
  cases cs with
  | nil => cases h
  | cons c cs =>
    have henter := Mode.enter_of_not_endsWord (hcs c List.mem_cons_self)
    have hstep : step ⟨.between, tokens⟩ c = some ⟨.word [c], tokens⟩ := by
      simp [step, Mode.step, henter]
    have hword := foldlM_word (fun d hd => hcs d (List.mem_cons_of_mem c hd)) [c] tokens
    rw [run_append, List.foldlM_cons, hstep, Option.bind_eq_bind, Option.bind_some, hword,
      Option.bind_some, ← List.reverse_cons]
    exact run_word h hrest tokens

theorem endsWord_digitChar (d : Fin 10) : Mode.endsWord (Nat.digitChar d.val) = false := by
  revert d
  decide

theorem endsWord_of_mem_digits {ds : List (Fin 10)} {c : Char}
    (hc : c ∈ ds.map fun d => Nat.digitChar d.val) : Mode.endsWord c = false := by
  obtain ⟨d, -, rfl⟩ := List.mem_map.mp hc
  exact endsWord_digitChar d

theorem endsWord_of_mem_sign {negative : Bool} {c : Char}
    (hc : c ∈ if negative then ['-'] else []) : Mode.endsWord c = false := by
  split_ifs at hc
  · obtain rfl := List.mem_singleton.mp hc
    rfl
  · cases hc

theorem endsWord_of_mem_fractionChars {ds : List (Fin 10)} {c : Char}
    (hc : c ∈ Numeral.fractionChars ds) : Mode.endsWord c = false := by
  unfold Numeral.fractionChars at hc
  split_ifs at hc
  · cases hc
  · rcases List.mem_cons.mp hc with rfl | hc
    · rfl
    · exact endsWord_of_mem_digits hc

theorem endsWord_of_mem_exponent {cs : List Char} {e : Option Int} (h : Numeral.ExponentText cs e)
    {c : Char} (hc : c ∈ cs) : Mode.endsWord c = false := by
  have hmark {mark : Char} (h : mark = 'e' ∨ mark = 'E') : Mode.endsWord mark = false := by
    obtain rfl | rfl := h <;> rfl
  cases h with
  | absent => cases hc
  | bare hm =>
    rcases List.mem_cons.mp hc with rfl | hc
    · exact hmark hm
    · exact endsWord_of_mem_digits hc
  | plus hm | minus hm =>
    rcases List.mem_cons.mp hc with rfl | hc
    · exact hmark hm
    · rcases List.mem_cons.mp hc with rfl | hc
      · rfl
      · exact endsWord_of_mem_digits hc

theorem endsWord_of_mem_numeral {cs : List Char} {n : Numeral} (h : n.IsText cs) {c : Char}
    (hc : c ∈ cs) : Mode.endsWord c = false := by
  obtain ⟨negative, _, fraction, he⟩ := h
  rw [List.mem_append, List.mem_append, List.mem_append] at hc
  rcases hc with hc | hc | hc | hc
  · exact endsWord_of_mem_sign hc
  · exact endsWord_of_mem_digits hc
  · exact endsWord_of_mem_fractionChars hc
  · exact endsWord_of_mem_exponent he hc

theorem ofWord?_of_isText {cs : List Char} {n : Numeral} (h : n.IsText cs) :
    Token.ofWord? cs = some (.number n) := by
  have hread := Numeral.ofChars?_eq_some_iff.mpr h
  have hne {ds : List Char} (h : Numeral.ofChars? ds = none) : cs ≠ ds := by
    rintro rfl
    rw [h] at hread
    cases hread
  rw [Token.ofWord?, if_neg (hne (ofChars?_eq_none (by decide) (by decide) _)),
    if_neg (hne (ofChars?_eq_none (by decide) (by decide) _)),
    if_neg (hne (ofChars?_eq_none (by decide) (by decide) _)), hread, Option.map_some]

theorem writes_numeral {cs : List Char} {n : Numeral} (h : n.IsText cs) : Writes cs [.number n] :=
  writes_word (fun _ => endsWord_of_mem_numeral h) (ofWord?_of_isText h)

theorem writes_null : Writes "null".toList [.null] := by
  have hcs : ∀ c ∈ ['n', 'u', 'l', 'l'], Mode.endsWord c = false := by
    simp [Mode.endsWord, isSpace, Token.ofMark?]
  exact writes_word hcs rfl

theorem writes_bool (b : Bool) : Writes (if b then "true" else "false").toList [.bool b] := by
  cases b with
  | true =>
    have hcs : ∀ c ∈ ['t', 'r', 'u', 'e'], Mode.endsWord c = false := by
      simp [Mode.endsWord, isSpace, Token.ofMark?]
    exact writes_word hcs rfl
  | false =>
    have hcs : ∀ c ∈ ['f', 'a', 'l', 's', 'e'], Mode.endsWord c = false := by
      simp [Mode.endsWord, isSpace, Token.ofMark?]
    exact writes_word hcs rfl

/-! Strings. -/

theorem hexDigit?_eq_some_iff {c : Char} {n : Nat} : hexDigit? c = some n ↔ HexDigit c n := by
  constructor
  · intro h
    have hzero : ∀ k : Fin 10, Char.ofNat (48 + k.val) = Nat.digitChar k.val := by decide
    have hlower : ∀ k : Fin 6, Char.ofNat (97 + k.val) = Nat.digitChar (k.val + 10) := by decide
    have hupper : ∀ k : Fin 6, Char.ofNat (65 + k.val) = (Nat.digitChar (k.val + 10)).toUpper := by
      decide
    have hplace {base : Nat} (hbase : base ≤ c.toNat) : Char.ofNat (base + (c.toNat - base)) = c := by
      rw [Nat.add_sub_cancel' hbase, Char.ofNat_toNat]
    unfold hexDigit? at h
    split_ifs at h with hc hc hc
    · obtain rfl := Option.some.inj h
      have hlow : 48 ≤ c.toNat := UInt32.le_iff_toNat_le.mp hc.1
      have hhigh : c.toNat ≤ 57 := UInt32.le_iff_toNat_le.mp hc.2
      refine ⟨?_, .inl ((hplace hlow).symm.trans (hzero ⟨c.toNat - 48, by omega⟩))⟩
      show c.toNat - 48 < 16
      omega
    · obtain rfl := Option.some.inj h
      have hlow : 97 ≤ c.toNat := UInt32.le_iff_toNat_le.mp hc.1
      have hhigh : c.toNat ≤ 102 := UInt32.le_iff_toNat_le.mp hc.2
      refine ⟨?_, .inl ((hplace hlow).symm.trans (hlower ⟨c.toNat - 97, by omega⟩))⟩
      show c.toNat - 97 + 10 < 16
      omega
    · obtain rfl := Option.some.inj h
      have hlow : 65 ≤ c.toNat := UInt32.le_iff_toNat_le.mp hc.1
      have hhigh : c.toNat ≤ 70 := UInt32.le_iff_toNat_le.mp hc.2
      refine ⟨?_, .inr ((hplace hlow).symm.trans (hupper ⟨c.toNat - 65, by omega⟩))⟩
      show c.toNat - 65 + 10 < 16
      omega
  · rintro ⟨hn, hc⟩
    have hall : ∀ d : Fin 16, hexDigit? (Nat.digitChar d.val) = some d.val ∧
        hexDigit? (Nat.digitChar d.val).toUpper = some d.val := by decide
    rcases hc with rfl | rfl
    · exact (hall ⟨n, hn⟩).1
    · exact (hall ⟨n, hn⟩).2

theorem escaped?_eq_some_iff {mark c : Char} : escaped? mark = some c ↔ (mark, c) ∈ escapes := by
  constructor
  · intro h
    unfold escaped? at h
    split at h <;> cases h <;> decide
  · intro h
    simp only [escapes, List.mem_cons, Prod.mk.injEq, List.not_mem_nil, or_false] at h
    rcases h with ⟨rfl, rfl⟩ | ⟨rfl, rfl⟩ | ⟨rfl, rfl⟩ | ⟨rfl, rfl⟩ | ⟨rfl, rfl⟩ | ⟨rfl, rfl⟩ |
      ⟨rfl, rfl⟩ | ⟨rfl, rfl⟩ <;> rfl

theorem foldlM_part {cs : List Char} {p : Part} (h : PartText cs p) (draft : Draft)
    (tokens : List Token) : cs.foldlM step ⟨.string draft, tokens⟩ =
      some ⟨.string (draft.addPart p), tokens⟩ := by
  cases h with
  | plain hcontrol hquote hslash =>
    have hc := Char.not_lt.mpr hcontrol
    simp [step, Mode.step, hquote, hslash, hc, Draft.addPart]
  | @escape mark _ h =>
    have hmark := escaped?_eq_some_iff.mpr h
    have hunit : mark ≠ 'u' := by
      rintro rfl
      cases hmark
    simp [step, Mode.step, hunit, hmark, Draft.addPart]
  | unit ha hb hc hd hn =>
    rw [← hexDigit?_eq_some_iff] at ha hb hc hd
    simp [step, Mode.step, ha, hb, hc, hd, hn, Draft.addPart]

theorem foldlM_parts {cs : List Char} {ps : List Part} (h : PartsText cs ps) (draft : Draft)
    (tokens : List Token) : cs.foldlM step ⟨.string draft, tokens⟩ =
      some ⟨.string (ps.foldl Draft.addPart draft), tokens⟩ := by
  induction h generalizing draft with
  | nil => rfl
  | cons h _ ih => rw [foldlM_append_eq (foldlM_part h draft tokens), ih, List.foldl_cons]

theorem finish_eq {ps : List Part} {s : Option String} (h : ∀ t, s = some t ↔ Denotes ps t.toList) :
    (ps.foldl Draft.addPart .empty).finish = s := by
  apply Option.ext
  intro t
  rw [Draft.finish_foldl_empty, h]

theorem closed_stringText {cs : List Char} {s : Option String} (h : StringText cs s) :
    Closed cs [.string s] := by
  obtain ⟨body, parts, rfl, hparts, hs⟩ := h
  intro tokens
  have hopen : ['"'].foldlM step ⟨.between, tokens⟩ = some ⟨.string .empty, tokens⟩ := rfl
  have hbody := foldlM_parts hparts .empty tokens
  rw [← List.singleton_append, foldlM_append_eq hopen, foldlM_append_eq hbody, ← finish_eq hs]
  rfl

end Json

end Lsif
