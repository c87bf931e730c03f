import Lsif.Proofs.Json.Reader

/-! Only the texts of a value are read as that value. What the scanner has passed spells the tokens it has
given, and what the reader has taken are the tokens of the parts it holds. -/

namespace Lsif.Json

/-! Tokens in a text. -/

inductive Lexeme : List Char → Token → Prop
  | mark {c : Char} {t : Token} (h : Token.ofMark? c = some t) : Lexeme [c] t
  | value {cs : List Char} {v : Json} {t : Token} (h : ValueText cs v) (ht : tokens v = [t]) :
      Lexeme cs t

theorem lexeme_of_ofWord? {cs : List Char} {t : Token} (h : Token.ofWord? cs = some t) :
    Lexeme cs t := by
  unfold Token.ofWord? at h
  split_ifs at h with hnull htrue hfalse
  · cases h
    exact hnull ▸ .value .null rfl
  · cases h
    exact htrue ▸ .value .true rfl
  · cases h
    exact hfalse ▸ .value .false rfl
  · obtain ⟨n, hn, rfl⟩ := Option.map_eq_some_iff.mp h
    exact .value (.number (Numeral.ofChars?_eq_some_iff.mp hn)) rfl

theorem tokens_injective : Function.Injective tokens := by
  intro v w h
  have hread := ofTokens?_tokens v
  rw [h, ofTokens?_tokens] at hread
  exact (Option.some.inj hread).symm

theorem tokens_ne_mark {c : Char} {t : Token} (hc : Token.ofMark? c = some t) (v : Json) :
    tokens v ≠ [t] := by
  intro hv
  unfold Token.ofMark? at hc
  cases v with
  | array items => simp [tokens_array] at hv
  | object members => simp [tokens_object] at hv
  | _ =>
    obtain rfl := List.singleton_inj.mp hv
    split at hc <;> cases hc

inductive Spelled : List Char → List Token → Prop
  | nil : Spelled [] []
  | space {c : Char} (hc : isSpace c = true) {cs : List Char} {ts : List Token} (h : Spelled cs ts) :
      Spelled (c :: cs) ts
  | token {cs ds : List Char} {t : Token} {ts : List Token} (ht : Lexeme cs t) (h : Spelled ds ts) :
      Spelled (cs ++ ds) (t :: ts)

theorem Lexeme.spelled {cs : List Char} {t : Token} (h : Lexeme cs t) : Spelled cs [t] := by
  have hspelled := Spelled.token h .nil
  rwa [List.append_nil] at hspelled

theorem Lexeme.eq_mark {cs : List Char} {t : Token} (h : Lexeme cs t) {c : Char}
    (hc : Token.ofMark? c = some t) : cs = [c] := by
  cases h with
  | value _ ht => exact absurd ht (tokens_ne_mark hc _)
  | mark h =>
    unfold Token.ofMark? at h hc
    split at h <;> split at hc <;> first | rfl | (cases h; cases hc) | cases h

theorem Lexeme.valueText {cs : List Char} {t : Token} (h : Lexeme cs t) {v : Json}
    (hv : tokens v = [t]) : ValueText cs v := by
  cases h with
  | mark h => exact absurd hv (tokens_ne_mark h v)
  | value h ht =>
    obtain rfl := tokens_injective (ht.trans hv.symm)
    exact h

namespace Spelled

variable {cs ds : List Char} {t : Token} {ts us : List Token}

theorem append (hcs : Spelled cs ts) (hds : Spelled ds us) : Spelled (cs ++ ds) (ts ++ us) := by
  induction hcs with
  | nil => exact hds
  | space hc _ ih => exact .space hc ih
  | token ht _ ih =>
    rw [List.append_assoc]
    exact .token ht ih

theorem allSpace (h : Spelled cs []) : AllSpace cs := by
  generalize hts : ([] : List Token) = ts at h
  induction h with
  | nil => exact List.forall_mem_nil _
  | space hc _ ih => exact List.forall_mem_cons.mpr ⟨hc, ih hts⟩
  | token => cases hts

theorem split_mark {c : Char} (hc : Token.ofMark? c = some t) (h : Spelled cs (ts ++ t :: us)) :
    ∃ front behind, cs = front ++ c :: behind ∧ Spelled front ts ∧ Spelled behind us := by
  generalize hall : ts ++ t :: us = all at h
  induction h generalizing ts with
  | nil => simp at hall
  | space hspace _ ih =>
    obtain ⟨front, behind, rfl, hfront, hbehind⟩ := ih hall
    exact ⟨_ :: front, behind, rfl, .space hspace hfront, hbehind⟩
  | token ht h ih =>
    cases ts with
    | nil =>
      obtain ⟨rfl, rfl⟩ := List.cons.inj hall
      exact ⟨[], _, by rw [ht.eq_mark hc]; rfl, .nil, h⟩
    | cons t' ts =>
      obtain ⟨rfl, hrest⟩ := List.cons.inj hall
      obtain ⟨front, behind, rfl, hfront, hbehind⟩ := ih hrest
      exact ⟨_, behind, (List.append_assoc _ _ _).symm, .token ht hfront, hbehind⟩

theorem single (h : Spelled cs [t]) : ∃ before body behind, cs = before ++ (body ++ behind) ∧
    AllSpace before ∧ Lexeme body t ∧ AllSpace behind := by
  generalize hts : [t] = ts at h
  induction h with
  | nil => cases hts
  | space hc _ ih =>
    obtain ⟨before, body, behind, rfl, hbefore, hbody, hbehind⟩ := ih hts
    exact ⟨_ :: before, body, behind, rfl, List.forall_mem_cons.mpr ⟨hc, hbefore⟩, hbody, hbehind⟩
  | token ht h =>
    obtain ⟨rfl, rfl⟩ := List.cons.inj hts
    exact ⟨[], _, _, rfl, List.forall_mem_nil _, ht, h.allSpace⟩

end Spelled

/-! The scanner. -/

theorem PartsText.concat {cs ds : List Char} {ps : List Part} {p : Part} (hcs : PartsText cs ps)
    (hds : PartText ds p) : PartsText (cs ++ ds) (ps ++ [p]) := by
  induction hcs with
  | nil =>
    have hparts := PartsText.cons hds .nil
    rwa [List.append_nil] at hparts
  | cons h _ ih =>
    rw [List.append_assoc]
    exact .cons h ih

def Drafted (cs : List Char) (d : Draft) : Prop :=
  ∃ parts, PartsText cs parts ∧ d = parts.foldl Draft.addPart .empty

theorem Drafted.add {cs ds : List Char} {d : Draft} (h : Drafted cs d) {p : Part}
    (hp : PartText ds p) : Drafted (cs ++ ds) (d.addPart p) := by
  obtain ⟨parts, hparts, rfl⟩ := h
  exact ⟨parts ++ [p], hparts.concat hp, by rw [List.foldl_concat]⟩

def Mode.Holds (cs : List Char) : Mode → Prop
  | between => cs = []
  | word w => cs = w.reverse
  | string d => ∃ body, cs = '"' :: body ∧ Drafted body d
  | escape d => ∃ body, cs = '"' :: (body ++ ['\\']) ∧ Drafted body d
  | unit d missing value => ∃ (body : List Char) (digits : List (Char × Nat)),
      cs = '"' :: (body ++ '\\' :: 'u' :: digits.map Prod.fst) ∧ Drafted body d ∧
      (∀ x ∈ digits, HexDigit x.1 x.2) ∧ digits.length + missing = 3 ∧
      value = digits.foldl (fun v x => 16 * v + x.2) 0

def Passed (cs : List Char) (ts : List Token) (mode : Mode) : Prop :=
  ∃ front now, cs = front ++ now ∧ Spelled front ts ∧ mode.Holds now

theorem passed_enter (c : Char) : Passed [c] (Mode.enter c).2 (Mode.enter c).1 := by
  unfold Mode.enter
  split_ifs with hspace hquote
  · exact ⟨[c], [], rfl, .space hspace .nil, rfl⟩
  · exact ⟨[], [c], rfl, .nil, [], by rw [hquote], [], .nil, rfl⟩
  · split
    · rename_i hmark
      exact ⟨[c], [], rfl, (Lexeme.mark hmark).spelled, rfl⟩
    · exact ⟨[], [c], rfl, .nil, rfl⟩

theorem Mode.Holds.passed {mode : Mode} {cs : List Char} (h : mode.Holds cs) : Passed cs [] mode :=
  ⟨[], cs, rfl, .nil, h⟩

theorem passed_string {now : List Char} {d : Draft} (h : (Mode.string d).Holds now) {c : Char}
    {next : Mode × List Token} (hstep : (Mode.string d).step c = some next) :
    Passed (now ++ [c]) next.2 next.1 := by
  obtain ⟨body, rfl, hbody⟩ := h
  simp only [Mode.step] at hstep
  split_ifs at hstep with hquote hslash hcontrol
  · obtain rfl := Option.some.inj hstep
    obtain ⟨parts, hparts, rfl⟩ := hbody
    have hstring : StringText ('"' :: (body ++ ['"'])) (parts.foldl Draft.addPart .empty).finish :=
      ⟨body, parts, rfl, hparts, Draft.finish_foldl_empty parts⟩
    exact ⟨_, [], by rw [hquote, List.append_nil]; rfl, (Lexeme.value (.string hstring) rfl).spelled, rfl⟩
  · obtain rfl := Option.some.inj hstep
    have hholds : (Mode.escape d).Holds ('"' :: body ++ [c]) := ⟨body, by rw [hslash]; rfl, hbody⟩
    exact hholds.passed
  · obtain rfl := Option.some.inj hstep
    have hpart : PartText [c] (.char c) := .plain (Char.not_lt.mp hcontrol) hquote hslash
    have hholds : (Mode.string (d.addChar c)).Holds ('"' :: body ++ [c]) :=
      ⟨body ++ [c], rfl, hbody.add hpart⟩
    exact hholds.passed

theorem passed_escape {now : List Char} {d : Draft} (h : (Mode.escape d).Holds now) {c : Char}
    {next : Mode × List Token} (hstep : (Mode.escape d).step c = some next) :
    Passed (now ++ [c]) next.2 next.1 := by
  obtain ⟨body, rfl, hbody⟩ := h
  simp only [Mode.step] at hstep
  split_ifs at hstep with hunit
  · obtain rfl := Option.some.inj hstep
    have hholds : (Mode.unit d 3 0).Holds ('"' :: (body ++ ['\\']) ++ [c]) :=
      ⟨body, [], by simp [hunit], hbody, List.forall_mem_nil _, rfl, rfl⟩
    exact hholds.passed
  · obtain ⟨e, he, rfl⟩ := Option.map_eq_some_iff.mp hstep
    have hpart : PartText ['\\', c] (.char e) := .escape (escaped?_eq_some_iff.mp he)
    have hholds : (Mode.string (d.addChar e)).Holds ('"' :: (body ++ ['\\']) ++ [c]) :=
      ⟨body ++ ['\\', c], by simp, hbody.add hpart⟩
    exact hholds.passed

theorem passed_unit {now : List Char} {d : Draft} {missing value : Nat}
    (h : (Mode.unit d missing value).Holds now) {c : Char} {next : Mode × List Token}
    (hstep : (Mode.unit d missing value).step c = some next) :
    Passed (now ++ [c]) next.2 next.1 := by
  obtain ⟨body, digits, rfl, hbody, hdigits, hlength, rfl⟩ := h
  obtain ⟨n, hn, rfl⟩ := Option.map_eq_some_iff.mp hstep
  have hc := hexDigit?_eq_some_iff.mp hn
  cases missing with
  | zero =>
    match digits, hlength with
    | [(a, w), (b, x), (e, y)], _ =>
      have ha : HexDigit a w := hdigits (a, w) (by simp)
      have hb : HexDigit b x := hdigits (b, x) (by simp)
      have he : HexDigit e y := hdigits (e, y) (by simp)
      have hsize : UInt16.size = 2 ^ 16 := rfl
      have hw := ha.1
      have hx := hb.1
      have hy := he.1
      have hz := hc.1
      have hunit : (UInt16.ofNat (16 * (16 * (16 * w + x) + y) + n)).toNat =
          16 * (16 * (16 * w + x) + y) + n := UInt16.toNat_ofNat_of_lt (by omega)
      have hvalue : 16 * [(a, w), (b, x), (e, y)].foldl (fun v x => 16 * v + x.2) 0 + n =
          (UInt16.ofNat (16 * (16 * (16 * w + x) + y) + n)).toNat := by
        rw [hunit]
        simp
      have hadd := hbody.add (.unit ha hb he hc hunit)
      rw [Draft.addPart, ← hvalue] at hadd
      have hholds : (Mode.string (d.addUnit (16 * [(a, w), (b, x), (e, y)].foldl
          (fun v x => 16 * v + x.2) 0 + n))).Holds
            ('"' :: (body ++ '\\' :: 'u' :: [(a, w), (b, x), (e, y)].map Prod.fst) ++ [c]) :=
        ⟨body ++ ['\\', 'u', a, b, e, c], by simp, hadd⟩
      exact hholds.passed
  | succ m =>
    have hholds : (Mode.unit d m (16 * digits.foldl (fun v x => 16 * v + x.2) 0 + n)).Holds
        ('"' :: (body ++ '\\' :: 'u' :: digits.map Prod.fst) ++ [c]) := by
      refine ⟨body, digits ++ [(c, n)], by simp, hbody, ?_, ?_, ?_⟩
      · intro x hx
        rcases List.mem_append.mp hx with hx | hx
        · exact hdigits x hx
        · rw [List.mem_singleton.mp hx]
          exact hc
      · rw [List.length_append, List.length_singleton]
        omega
      · rw [List.foldl_append]
        rfl
    exact hholds.passed

theorem passed_step {mode : Mode} {now : List Char} (h : mode.Holds now) {c : Char}
    {next : Mode × List Token} (hstep : mode.step c = some next) :
    Passed (now ++ [c]) next.2 next.1 := by
  cases mode with
  | between =>
    obtain rfl := Option.some.inj hstep
    have hnow : now = [] := h
    rw [hnow]
    exact passed_enter c
  | word w =>
    have hnow : now = w.reverse := h
    simp only [Mode.step] at hstep
    split_ifs at hstep with hends
    · obtain ⟨t, ht, rfl⟩ := Option.map_eq_some_iff.mp hstep
      obtain ⟨front, now', hc, hfront, hholds⟩ := passed_enter c
      refine ⟨now ++ front, now', by rw [hc, List.append_assoc], ?_, hholds⟩
      exact hnow ▸ .token (lexeme_of_ofWord? ht) hfront
    · obtain rfl := Option.some.inj hstep
      have hholds : (Mode.word (c :: w)).Holds (now ++ [c]) := by
        rw [hnow, ← List.reverse_cons]
        rfl
      exact hholds.passed
  | string d => exact passed_string h hstep
  | escape d => exact passed_escape h hstep
  | unit d missing value => exact passed_unit h hstep

theorem Passed.append {before now : List Char} {ts us : List Token} {mode : Mode}
    (hbefore : Spelled before ts) (hnow : Passed now us mode) : Passed (before ++ now) (ts ++ us) mode := by
  obtain ⟨front, rest, rfl, hfront, hholds⟩ := hnow
  exact ⟨before ++ front, rest, (List.append_assoc _ _ _).symm, hbefore.append hfront, hholds⟩

theorem passed_foldlM {cs before : List Char} {scan next : Scan}
    (h : Passed before scan.tokens.reverse scan.mode) (hscan : cs.foldlM Scan.step scan = some next) :
    Passed (before ++ cs) next.tokens.reverse next.mode := by
  induction cs generalizing before scan with
  | nil =>
    obtain rfl := Option.some.inj hscan
    rwa [List.append_nil]
  | cons c cs ih =>
    rw [List.foldlM_cons] at hscan
    obtain ⟨after, hstep, hscan⟩ := Option.bind_eq_some_iff.mp hscan
    obtain ⟨⟨mode, ts⟩, hmode, rfl⟩ := Option.map_eq_some_iff.mp hstep
    obtain ⟨front, now, rfl, hfront, hholds⟩ := h
    have hpassed := (passed_step hholds hmode).append hfront
    rw [← List.append_assoc] at hpassed
    rw [← List.singleton_append, ← List.append_assoc]
    refine ih ?_ hscan
    rwa [List.reverse_append, List.reverse_reverse]

theorem spelled_of_finish {mode : Mode} {now : List Char} (h : mode.Holds now) {last : List Token}
    (hfinish : mode.finish = some last) : Spelled now last := by
  cases mode with
  | between =>
    have hnow : now = [] := h
    obtain rfl := Option.some.inj hfinish
    exact hnow ▸ .nil
  | word w =>
    have hnow : now = w.reverse := h
    obtain ⟨t, ht, rfl⟩ := Option.map_eq_some_iff.mp hfinish
    exact hnow ▸ (lexeme_of_ofWord? ht).spelled
  | string | escape | unit => cases hfinish

theorem spelled_of_tokens? {cs : List Char} {ts : List Token} (h : tokens? cs = some ts) :
    Spelled cs ts := by
  obtain ⟨scan, hscan, hfinish⟩ := Option.bind_eq_some_iff.mp h
  obtain ⟨last, hlast, rfl⟩ := Option.map_eq_some_iff.mp hfinish
  have hstart : Passed [] Scan.start.tokens.reverse Scan.start.mode := ⟨[], [], rfl, .nil, rfl⟩
  obtain ⟨front, now, rfl, hfront, hholds⟩ := passed_foldlM hstart hscan
  exact hfront.append (spelled_of_finish hholds hlast)

/-! The reader. -/

def tokensBefore (items : List Json) : List Token := items.flatMap fun item => tokens item ++ [.comma]

def memberTokensBefore (members : List (Option String × Json)) : List Token :=
  members.flatMap fun m => .string m.1 :: .colon :: (tokens m.2 ++ [.comma])

theorem itemTokens_concat (items : List Json) (v : Json) :
    itemTokens (items ++ [v]) = tokensBefore items ++ tokens v := by
  induction items with
  | nil => exact List.append_nil _
  | cons item rest ih =>
    have hne : rest ++ [v] ≠ [] := List.append_ne_nil_of_right_ne_nil _ (List.cons_ne_nil _ _)
    rw [List.cons_append, itemTokens, tokensOfItems_eq hne, ih]
    simp [tokensBefore]

theorem memberTokens_concat (members : List (Option String × Json)) (k : Option String) (v : Json) :
    memberTokens (members ++ [(k, v)]) =
      memberTokensBefore members ++ .string k :: .colon :: tokens v := by
  induction members with
  | nil => simp [memberTokens, tokensOfMembers, memberTokensBefore]
  | cons m rest ih =>
    have hne : rest ++ [(k, v)] ≠ [] := List.append_ne_nil_of_right_ne_nil _ (List.cons_ne_nil _ _)
    rw [List.cons_append, memberTokens, tokensOfMembers_eq hne, ih]
    simp [memberTokensBefore]

namespace Reading

def frameTokens : List Frame → List Token
  | [] => []
  | .array items :: frames => frameTokens frames ++ .openArray :: tokensBefore items.reverse
  | .object members k :: frames =>
    frameTokens frames ++ .openObject :: (memberTokensBefore members.reverse ++ [.string k, .colon])

def taken : Reading → List Token
  | value frames => frameTokens frames
  | firstItem frames => frameTokens frames ++ [.openArray]
  | firstKey frames => frameTokens frames ++ [.openObject]
  | key frames members => frameTokens frames ++ .openObject :: memberTokensBefore members.reverse
  | colon frames members k =>
    frameTokens frames ++ .openObject :: (memberTokensBefore members.reverse ++ [.string k])
  | ended frames v => frameTokens frames ++ tokens v

theorem taken_enter {frames : List Frame} {t : Token} {r : Reading} (h : enter frames t = some r) :
    r.taken = frameTokens frames ++ [t] := by
  cases t <;> simp only [enter, Option.some.injEq, reduceCtorEq] at h <;> subst h <;> rfl

theorem taken_leave {frames : List Frame} {v : Json} {t : Token} {r : Reading}
    (h : leave v frames t = some r) : r.taken = frameTokens frames ++ tokens v ++ [t] := by
  unfold leave at h
  split at h
  · obtain rfl := Option.some.inj h
    simp [taken, frameTokens, tokensBefore]
  · obtain rfl := Option.some.inj h
    simp [taken, frameTokens, tokens_array, itemTokens_concat]
  · obtain rfl := Option.some.inj h
    simp [taken, frameTokens, memberTokensBefore]
  · obtain rfl := Option.some.inj h
    simp [taken, frameTokens, tokens_object, memberTokens_concat]
  · cases h

theorem taken_step {r next : Reading} {t : Token} (h : r.step t = some next) :
    next.taken = r.taken ++ [t] := by
  unfold step at h
  split at h
  · exact taken_enter h
  · obtain rfl := Option.some.inj h
    simp [taken, tokens]
  · exact taken_enter h
  · obtain rfl := Option.some.inj h
    simp [taken, tokens]
  · obtain rfl := Option.some.inj h
    simp [taken, memberTokensBefore]
  · obtain rfl := Option.some.inj h
    simp [taken]
  · obtain rfl := Option.some.inj h
    simp [taken, frameTokens]
  · exact taken_leave h
  · cases h

theorem taken_foldlM {ts : List Token} {r r' : Reading} (h : ts.foldlM step r = some r') :
    r'.taken = r.taken ++ ts := by
  induction ts generalizing r with
  | nil =>
    obtain rfl := Option.some.inj h
    rw [List.append_nil]
  | cons t ts ih =>
    rw [List.foldlM_cons] at h
    obtain ⟨next, hstep, h⟩ := Option.bind_eq_some_iff.mp h
    rw [ih h, taken_step hstep, List.append_assoc, List.singleton_append]

end Reading

theorem eq_tokens_of_ofTokens? {ts : List Token} {v : Json} (h : ofTokens? ts = some v) :
    ts = tokens v := by
  obtain ⟨r, hr, hfinish⟩ := Option.bind_eq_some_iff.mp h
  have htaken := Reading.taken_foldlM hr
  unfold Reading.finish at hfinish
  split at hfinish
  · obtain rfl := Option.some.inj hfinish
    exact htaken.symm
  · cases hfinish

/-! Texts. -/

theorem isText_of_single {cs : List Char} {t : Token} (h : Spelled cs [t]) {v : Json}
    (hv : tokens v = [t]) : IsText cs v := by
  obtain ⟨before, body, behind, rfl, hbefore, hbody, hbehind⟩ := h.single
  exact .intro hbefore (hbody.valueText hv) hbehind

theorem keyText_of_spelled {cs : List Char} {k : Option String} (h : Spelled cs [.string k]) :
    KeyText cs k := by
  obtain ⟨before, body, behind, rfl, hbefore, hbody, hbehind⟩ := h.single
  have hstring : ValueText body (.string k) := hbody.valueText rfl
  cases hstring with
  | string hs => exact ⟨before, body, behind, rfl, hbefore, hs, hbehind⟩

theorem Spelled.brackets {cs : List Char} {c d : Char} {t u : Token} {ts : List Token}
    (hc : Token.ofMark? c = some t) (hd : Token.ofMark? d = some u)
    (h : Spelled cs (t :: (ts ++ [u]))) : ∃ before inner behind,
      cs = before ++ (c :: (inner ++ [d]) ++ behind) ∧ AllSpace before ∧ Spelled inner ts ∧
        AllSpace behind := by
  have hopen : Spelled cs ([] ++ t :: (ts ++ [u])) := h
  obtain ⟨before, rest, rfl, hbefore, hrest⟩ := hopen.split_mark hc
  obtain ⟨inner, behind, rfl, hinner, hbehind⟩ := hrest.split_mark hd
  exact ⟨before, inner, behind, by simp, hbefore.allSpace, hinner, hbehind.allSpace⟩

theorem Spelled.split_member {cs : List Char} {k : Option String} {ts : List Token}
    (h : Spelled cs (.string k :: .colon :: ts)) : ∃ ks behind, cs = ks ++ ':' :: behind ∧
      Spelled ks [.string k] ∧ Spelled behind ts := by
  have hsplit : Token.string k :: .colon :: ts = [.string k] ++ .colon :: ts := rfl
  rw [hsplit] at h
  exact h.split_mark rfl

mutual

theorem isText_of_spelled {cs : List Char} (v : Json) (h : Spelled cs (tokens v)) : IsText cs v := by
  match v with
  | null | bool _ | number _ | string _ => exact isText_of_single h rfl
  | array items =>
    rw [tokens_array] at h
    obtain ⟨before, inner, behind, rfl, hbefore, hinner, hbehind⟩ :=
      Spelled.brackets (c := '[') (d := ']') rfl rfl h
    by_cases hempty : items = []
    · rw [hempty] at hinner ⊢
      exact .intro hbefore (.emptyArray hinner.allSpace) hbehind
    · exact .intro hbefore (.array (itemsText_of_spelled items hempty hinner)) hbehind
  | object members =>
    rw [tokens_object] at h
    obtain ⟨before, inner, behind, rfl, hbefore, hinner, hbehind⟩ :=
      Spelled.brackets (c := '\x7b') (d := '\x7d') rfl rfl h
    by_cases hempty : members = []
    · rw [hempty] at hinner ⊢
      exact .intro hbefore (.emptyObject hinner.allSpace) hbehind
    · exact .intro hbefore (.object (membersText_of_spelled members hempty hinner)) hbehind

theorem itemsText_of_spelled {cs : List Char} (items : List Json) (hne : items ≠ [])
    (h : Spelled cs (itemTokens items)) : ItemsText cs items := by
  match items with
  | [] => exact absurd rfl hne
  | [item] =>
    rw [itemTokens, tokensOfItems, List.append_nil] at h
    exact .single (isText_of_spelled item h)
  | item :: next :: rest =>
    rw [itemTokens, tokensOfItems_eq (List.cons_ne_nil _ _)] at h
    obtain ⟨front, behind, rfl, hfront, hbehind⟩ := h.split_mark (c := ',') rfl
    exact .cons (isText_of_spelled item hfront)
      (itemsText_of_spelled (next :: rest) (List.cons_ne_nil _ _) hbehind)

theorem membersText_of_spelled {cs : List Char} (members : List (Option String × Json))
    (hne : members ≠ []) (h : Spelled cs (memberTokens members)) : MembersText cs members := by
  match members with
  | [] => exact absurd rfl hne
  | [(k, v)] =>
    rw [memberTokens, tokensOfMembers, List.append_nil] at h
    obtain ⟨ks, behind, rfl, hkey, hbehind⟩ := h.split_member
    exact .single (keyText_of_spelled hkey) (isText_of_spelled v hbehind)
  | (k, v) :: next :: rest =>
    rw [memberTokens, tokensOfMembers_eq (List.cons_ne_nil _ _)] at h
    obtain ⟨ks, behind, rfl, hkey, hbehind⟩ := h.split_member
    obtain ⟨front, behind, rfl, hfront, hbehind⟩ := hbehind.split_mark (c := ',') rfl
    exact .cons (keyText_of_spelled hkey) (isText_of_spelled v hfront)
      (membersText_of_spelled (next :: rest) (List.cons_ne_nil _ _) hbehind)

end

/-- Exactly the texts of a value are read as that value. -/
theorem parse?_eq_some_iff {text : String} {v : Json} :
    parse? text = some v ↔ IsText text.toList v := by
  refine ⟨fun h => ?_, parse?_of_isText⟩
  obtain ⟨ts, hts, hread⟩ := Option.bind_eq_some_iff.mp h
  have hspelled := spelled_of_tokens? hts
  rw [eq_tokens_of_ofTokens? hread] at hspelled
  exact isText_of_spelled v hspelled

end Lsif.Json
