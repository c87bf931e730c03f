import Lsif.Element.Decode
import Lsif.Indentation
import Lsif.Text.Lines
import Mathlib.Tactic.SplitIfs

/-! White space around a JSON text says nothing, in either reading of a record. In front of the text it
is read between two tokens. Behind the text it completes at most the bare word that the end of the
text completes as well. -/

namespace Lsif

namespace Json

def AllSpace (cs : List Char) : Prop := ∀ c ∈ cs, isSpace c = true

theorem allSpace_empty : AllSpace "".toList := List.forall_mem_nil _

theorem allSpace_replicate (n : Nat) : AllSpace (List.replicate n ' ') := by
  intro c hc
  rw [List.eq_of_mem_replicate hc]
  rfl

namespace Mode

theorem enter_of_isSpace {c : Char} (hc : isSpace c = true) : enter c = (between, []) := by
  simp only [enter, hc, if_true]

theorem endsWord_of_isSpace {c : Char} (hc : isSpace c = true) : endsWord c = true := by
  simp only [endsWord, hc, Bool.true_or]

def InString : Mode → Prop
  | string _ => True
  | escape _ => True
  | unit _ _ _ => True
  | _ => False

theorem InString.finish_eq_none {mode : Mode} (h : mode.InString) : mode.finish = none := by
  cases mode <;> first | exact h.elim | rfl

theorem InString.step {mode : Mode} {c : Char} {next : Mode × List Token} (hmode : mode.InString)
    (hc : c ≠ '"') (h : mode.step c = some next) : next.1.InString := by
  cases mode with
  | between => exact hmode.elim
  | word cs => exact hmode.elim
  | string draft =>
    simp only [Mode.step, if_neg hc] at h
    split_ifs at h <;> cases h <;> trivial
  | escape draft =>
    simp only [Mode.step] at h
    split_ifs at h
    · cases h
      trivial
    · obtain ⟨e, _, rfl⟩ := Option.map_eq_some_iff.mp h
      trivial
  | unit draft missing value =>
    simp only [Mode.step] at h
    obtain ⟨d, _, rfl⟩ := Option.map_eq_some_iff.mp h
    cases missing <;> trivial

end Mode

namespace Scan

def run (cs : List Char) (scan : Scan) : Option (List Token) :=
  (cs.foldlM step scan).bind finish

theorem run_nil (scan : Scan) : run [] scan = scan.finish := rfl

theorem run_cons (c : Char) (cs : List Char) (scan : Scan) :
    run (c :: cs) scan = (scan.step c).bind (run cs) := by
  unfold run
  rw [List.foldlM_cons]
  cases scan.step c <;> rfl

theorem run_append (as bs : List Char) (scan : Scan) :
    run (as ++ bs) scan = (as.foldlM step scan).bind (run bs) := by
  unfold run
  rw [List.foldlM_append]
  cases as.foldlM step scan <;> rfl

theorem step_between {c : Char} (hc : isSpace c = true) (tokens : List Token) :
    step ⟨.between, tokens⟩ c = some ⟨.between, tokens⟩ := by
  simp only [step, Mode.step, Mode.enter_of_isSpace hc, Option.map_some, List.reverse_nil,
    List.nil_append]

theorem step_word {c : Char} (hc : isSpace c = true) (cs : List Char) (tokens : List Token) :
    step ⟨.word cs, tokens⟩ c =
      (Token.ofWord? cs.reverse).map fun token => ⟨.between, token :: tokens⟩ := by
  simp only [step, Mode.step, Mode.endsWord_of_isSpace hc, if_true, Mode.enter_of_isSpace hc,
    Option.map_map, Function.comp_def, List.reverse_cons, List.reverse_nil, List.nil_append,
    List.singleton_append]

theorem bind_finish_step_inString (mode : Mode) {c : Char} (hmode : mode.InString) (hc : c ≠ '"')
    (tokens : List Token) : (step ⟨mode, tokens⟩ c).bind finish = finish ⟨mode, tokens⟩ := by
  have hnone : finish ⟨mode, tokens⟩ = none := by
    simp only [finish, hmode.finish_eq_none, Option.map_none]
  rw [hnone, Option.bind_eq_none_iff]
  intro next hnext
  obtain ⟨⟨mode', more⟩, hstep, rfl⟩ := Option.map_eq_some_iff.mp hnext
  simp only [finish, (hmode.step hc hstep).finish_eq_none, Option.map_none]

theorem bind_finish_step {c : Char} (hc : isSpace c = true) (scan : Scan) :
    (scan.step c).bind finish = scan.finish := by
  have hquote : c ≠ '"' := by
    rintro rfl
    exact absurd hc (by decide)
  rcases scan with ⟨mode, tokens⟩
  cases mode with
  | between =>
    rw [step_between hc]
    rfl
  | word cs =>
    rw [step_word hc]
    simp only [finish, Mode.finish]
    cases Token.ofWord? cs.reverse with
    | none => rfl
    | some token => simp [finish, Mode.finish]
  | string draft =>
    exact bind_finish_step_inString (.string draft) trivial hquote tokens
  | escape draft =>
    exact bind_finish_step_inString (.escape draft) trivial hquote tokens
  | unit draft missing value =>
    exact bind_finish_step_inString (.unit draft missing value) trivial hquote tokens

theorem run_allSpace {cs : List Char} (hcs : AllSpace cs) (scan : Scan) :
    run cs scan = scan.finish := by
  induction cs generalizing scan with
  | nil => exact run_nil scan
  | cons c cs ih =>
    have hrest : AllSpace cs := fun d hd => hcs d (List.mem_cons_of_mem c hd)
    rw [run_cons, funext (ih hrest)]
    exact bind_finish_step (hcs c List.mem_cons_self) scan

theorem foldlM_allSpace {cs : List Char} (hcs : AllSpace cs) (tokens : List Token) :
    cs.foldlM step ⟨.between, tokens⟩ = some ⟨.between, tokens⟩ := by
  induction cs with
  | nil => rfl
  | cons c cs ih =>
    rw [List.foldlM_cons, step_between (hcs c List.mem_cons_self)]
    exact ih fun d hd => hcs d (List.mem_cons_of_mem c hd)

/-- A bare word that cannot become a token spoils the whole text. -/
theorem run_word_eq_none {c : Char} (hc : ∀ cs, Token.ofWord? (c :: cs) = none)
    (before rest : List Char) (tokens : List Token) :
    run rest ⟨.word (before ++ [c]), tokens⟩ = none := by
  have hword (before : List Char) : Token.ofWord? (before ++ [c]).reverse = none := by
    rw [List.reverse_append]
    exact hc before.reverse
  induction rest generalizing before with
  | nil => simp only [run_nil, finish, Mode.finish, hword, Option.map_none]
  | cons d rest ih =>
    rw [run_cons]
    by_cases hend : Mode.endsWord d = true
    · simp only [step, Mode.step, hend, if_true, hword, Option.map_none, Option.bind_none]
    · simp only [step, Mode.step, hend, if_false, Bool.false_eq_true, Option.map_some,
        Option.bind_some, List.reverse_nil, List.nil_append]
      exact ih (d :: before)

end Scan

theorem tokens?_eq_run (cs : List Char) : tokens? cs = Scan.run cs Scan.start := rfl

theorem tokens?_surround {before behind : List Char} (hbefore : AllSpace before)
    (hbehind : AllSpace behind) (cs : List Char) : tokens? (before ++ cs ++ behind) = tokens? cs := by
  have hstart : before.foldlM Scan.step Scan.start = some Scan.start :=
    Scan.foldlM_allSpace hbefore []
  rw [tokens?_eq_run, tokens?_eq_run, List.append_assoc, Scan.run_append, hstart, Option.bind_some,
    Scan.run_append, funext (Scan.run_allSpace hbehind)]
  rfl

theorem parse?_surround {before behind : String} (hbefore : AllSpace before.toList)
    (hbehind : AllSpace behind.toList) (text : String) :
    parse? (before ++ text ++ behind) = parse? text := by
  simp only [parse?, String.toList_append, tokens?_surround hbefore hbehind]

theorem ofChars?_eq_none {c : Char} (hdigit : Text.digit? c = none) (hminus : c ≠ '-')
    (cs : List Char) : Numeral.ofChars? (c :: cs) = none := by
  have hfront : (Numeral.leadingDigits (c :: cs)).1 = [] := by
    simp [Numeral.leadingDigits, hdigit]
  unfold Numeral.ofChars?
  split
  · rename_i heq
    exact absurd (List.cons.inj heq).1 hminus
  · simp only [Numeral.unsignedOfChars?, hfront, Numeral.whole?, Option.bind_eq_bind,
      Option.bind_none]

theorem ofWord?_byteOrderMark (cs : List Char) :
    Token.ofWord? (Text.byteOrderMark :: cs) = none := by
  have hnumber := ofChars?_eq_none (by decide : Text.digit? Text.byteOrderMark = none) (by decide) cs
  have hother {c : Char} (hc : Text.byteOrderMark ≠ c) (ds : List Char) :
      Text.byteOrderMark :: cs ≠ c :: ds := fun h => hc (List.cons.inj h).1
  rw [Token.ofWord?, if_neg (hother (by decide) _), if_neg (hother (by decide) _),
    if_neg (hother (by decide) _), hnumber, Option.map_none]

/-- A byte order mark is no JSON white space, so no JSON text begins with one. -/
theorem head?_ne_byteOrderMark {text : String} {v : Json} (h : parse? text = some v) :
    text.toList.head? ≠ some Text.byteOrderMark := by
  intro hhead
  obtain ⟨rest, hrest⟩ := List.head?_eq_some_iff.mp hhead
  have hnone : tokens? text.toList = none := by
    rw [hrest, tokens?_eq_run, Scan.run_cons]
    exact Scan.run_word_eq_none ofWord?_byteOrderMark [] rest []
  simp only [parse?, hnone, Option.bind_none, reduceCtorEq] at h

end Json

def IgnoresSpace {α : Type} (f : String → α) : Prop :=
  ∀ before behind : String, Json.AllSpace before.toList → Json.AllSpace behind.toList →
    ∀ text, f (before ++ text ++ behind) = f text

theorem ignoresSpace_ofText? : IgnoresSpace Marker.ofText? := by
  intro before behind hbefore hbehind text
  simp only [Marker.ofText?, Json.read?, Json.parse?_surround hbefore hbehind]

theorem ignoresSpace_decode? (line : Nat) :
    IgnoresSpace fun text => Element.decode? text line := by
  intro before behind hbefore hbehind text
  simp only [Element.decode?, Json.parse?_surround hbefore hbehind]

theorem IgnoresSpace.indented {α : Type} {f : String → α} (hf : IgnoresSpace f) (depth : Int)
    (text : String) : f (Indentation.indented depth text) = f text := by
  have hbefore : Json.AllSpace (Text.spaces depth.toNat).toList := by
    rw [Text.spaces, String.toList_ofList]
    exact Json.allSpace_replicate depth.toNat
  have h := hf (Text.spaces depth.toNat) "" hbefore Json.allSpace_empty text
  rwa [String.append_empty] at h

theorem IgnoresSpace.append {α : Type} {f : String → α} (hf : IgnoresSpace f) {behind : String}
    (hbehind : Json.AllSpace behind.toList) (text : String) : f (text ++ behind) = f text := by
  have h := hf "" behind Json.allSpace_empty hbehind text
  rwa [String.empty_append] at h

theorem Json.allSpace_iff (cs : List Char) :
    AllSpace cs ↔ ∀ c ∈ cs, c = ' ' ∨ c = '\t' ∨ c = '\n' ∨ c = '\r' := by
  simp only [AllSpace, isSpace, Bool.or_eq_true, decide_eq_true_eq, or_assoc]

/-- Both readings of a record see through the layout around it, whether they accept the text or not. -/
theorem readings_surround {before behind : String}
    (hbefore : ∀ c ∈ before.toList, c = ' ' ∨ c = '\t' ∨ c = '\n' ∨ c = '\r')
    (hbehind : ∀ c ∈ behind.toList, c = ' ' ∨ c = '\t' ∨ c = '\n' ∨ c = '\r')
    (text : String) (line : Nat) :
    Element.decode? (before ++ text ++ behind) line = Element.decode? text line ∧
      Marker.ofText? (before ++ text ++ behind) = Marker.ofText? text := by
  have hfront : Json.AllSpace before.toList := (Json.allSpace_iff _).mpr hbefore
  have hback : Json.AllSpace behind.toList := (Json.allSpace_iff _).mpr hbehind
  constructor
  · exact ignoresSpace_decode? line before behind hfront hback text
  · exact ignoresSpace_ofText? before behind hfront hback text

theorem readings_surround_broken_off :
    let cut := "\x7b\"type\":\"edge\",\"id\":-"
    let ends := "\n\x7b\"type\":\"vertex\",\"label\":\"$event\",\"kind\":\"end\"\x7d\t"
    (∀ c ∈ " \r\n\t".toList, c = ' ' ∨ c = '\t' ∨ c = '\n' ∨ c = '\r') ∧
    (Element.decode? (" \r\n\t" ++ cut ++ " \r\n\t") 3 = none ∧
      Marker.ofText? (" \r\n\t" ++ cut ++ " \r\n\t") = none) ∧
    Element.decode? (" \r\n\t" ++ ends ++ " \r\n\t") 3 ≠ none ∧
      Marker.ofText? (" \r\n\t" ++ ends ++ " \r\n\t") = some (some .closing) := by
  intro cut ends
  have hspace : ∀ c ∈ " \r\n\t".toList, c = ' ' ∨ c = '\t' ∨ c = '\n' ∨ c = '\r' := by simp
  obtain ⟨hcut, hcutMarker⟩ := readings_surround hspace hspace cut 3
  obtain ⟨hends, hendsMarker⟩ := readings_surround hspace hspace ends 3
  rw [hcut, hcutMarker, hends, hendsMarker]
  refine ⟨hspace, ⟨?_, ?_⟩, ?_, ?_⟩
  · decide +kernel
  · decide +kernel
  · decide +kernel
  · decide +kernel

end Lsif
