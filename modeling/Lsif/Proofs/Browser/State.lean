import Lsif.Proofs.Browser.Search
import Lsif.Proofs.Graph.Answers

/-! The state of a browse session. Whatever is typed, the caret stands on a character of the document and
the text that is remembered can be looked for. Each command does one of four things; everything else here is
read off these four. -/

namespace Lsif

theorem Text.isTrimmed_trim (s : String) : IsTrimmed (trim s) := by
  have hhead (cs : List Char) {c : Char} (hc : (cs.dropWhile isBlank).head? = some c) :
      isBlank c = false := by
    have hnot := List.head?_dropWhile_not isBlank cs
    rw [hc] at hnot
    exact hnot
  rintro c (hc | hc)
  · rw [trim, String.toList_ofList] at hc
    obtain ⟨behind, hbehind⟩ := List.dropWhile_suffix isBlank (l := (s.toList.dropWhile isBlank).reverse)
    have hfront : s.toList.dropWhile isBlank =
        ((s.toList.dropWhile isBlank).reverse.dropWhile isBlank).reverse ++ behind.reverse := by
      rw [← List.reverse_append, hbehind, List.reverse_reverse]
    apply hhead s.toList
    rw [hfront, List.head?_append, hc, Option.some_or]
  · rw [trim, String.toList_ofList, List.getLast?_reverse] at hc
    exact hhead _ hc

namespace Command

inductive Request where
  | idle
  | select
  | find
  | next
deriving DecidableEq, Repr

def request? : String → Option Request
  | "" | "quit" | "q" | "exit" | "help" | "?" | "stats" => some .idle
  | "line" | "l" | "offset" | "o" | "id" | "i" => some .select
  | "find" | "f" => some .find
  | "next" | "n" => some .next
  | _ => none

inductive Asks (argument : String) : Option Request → Except Complaint Command → Prop
  | idle {c : Command} (hc : c = .nothing ∨ c = .quit ∨ c = .help ∨ c = .statistics) :
      Asks argument (some .idle) (.ok c)
  | select (t : Target) : Asks argument (some .select) (.ok (.select t))
  | usage (c : Complaint) : Asks argument (some .select) (.error c)
  | find : Asks argument (some .find) (.ok (.find argument))
  | next : Asks argument (some .next) (.ok .next)
  | unknown (name : String) : Asks argument none (.error (.unknownCommand name))

theorem asks_selectBy {α : Type} (argument : String) (a : Option α) (target : α → Target)
    (usage : Complaint) : Asks argument (some .select) (selectBy a target usage) := by
  cases a with
  | none => exact .usage usage
  | some a => exact .select (target a)

theorem asks_parse (command : String) :
    Asks (split command).2 (request? (split command).1) (parse command) := by
  unfold parse
  obtain ⟨name, argument⟩ := split command
  dsimp only
  split
  case h_18 =>
    have hnone : request? name = none := by
      unfold request?
      split <;> simp_all
    rw [hnone]
    exact .unknown name
  all_goals first
    | exact asks_selectBy _ _ _ _
    | exact .idle (by simp)
    | exact .find
    | exact .next

end Command

def Complaint.shown (c : Complaint) : String := "❌ " ++ c.message ++ "\n"

def Reply.Fails (r : Reply) : Prop := ∃ c : Complaint, r.text = c.shown

namespace Browser

theorem fails_complain (b : Browser) (c : Complaint) : (b.complain c).Fails := ⟨c, rfl⟩

theorem not_fails_of_head? {r : Reply} (h : r.text.toList.head? ≠ some '❌') : ¬r.Fails := by
  rintro ⟨c, hc⟩
  have hcross : "❌ ".toList.head? = some '❌' := by decide +kernel
  apply h
  rw [hc]
  exact head?_toList_append (head?_toList_append hcross _) _

theorem head?_neighborhood (g : Graph) (color : Bool) (e : Element) :
    (Report.neighborhood g color e).toList.head? = some '📍' := by
  have hpin : "📍 ".toList.head? = some '📍' := by decide +kernel
  have hhead : ("📍 " ++ e.describe ++ " at line " ++ toString e.lineNumber ++ "\n" ++
      Report.paint color e (Report.lineText g e.lineNumber) ++ "\n").toList.head? = some '📍' :=
    head?_toList_append (head?_toList_append (head?_toList_append (head?_toList_append
      (head?_toList_append (head?_toList_append hpin _) _) _) _) _) _
  have hwrite (out : String) (n : Neighbor) : (out ++ Report.neighborLine g color n).toList =
      out.toList ++ (Report.neighborLine g color n).toList := String.toList_append
  unfold Report.neighborhood
  dsimp only
  split
  · exact head?_toList_append hhead _
  · rw [Text.toList_foldl hwrite, List.head?_append, head?_toList_append hhead, Option.some_or]

/-- All that a command can do: nothing, nothing but an error, or going to a line or to an occurrence of
the text that is remembered. -/
inductive Effect (g : Graph) (b : Browser) (r : Reply) : Except Complaint Command → Prop
  | idle {c : Command} (hc : c = .nothing ∨ c = .quit ∨ c = .help ∨ c = .statistics)
      (hbrowser : r.browser = b) : Effect g b r (.ok c)
  | fails (c : Except Complaint Command) (hfails : r.Fails) (hcaret : r.browser.caret = b.caret) :
      Effect g b r c
  | selects {t : Target} (hsuccess : ¬r.Fails) {e : Element} (he : g.select t = .ok e)
      (hstart : g.document.lineStart? e.lineNumber = some r.browser.caret)
      (hline : g.document.lineAt? r.browser.caret = some e.lineNumber) : Effect g b r (.ok (.select t))
  | finds {c : Command} (hc : c = .next ∨ ∃ text, c = .find text) (hsuccess : ¬r.Fails)
      {query : String} (hquery : r.browser.session.query = some query) {line : Nat}
      (hoccurs : g.document.OccursAt query r.browser.caret line) : Effect g b r (.ok c)

section Effects

variable {o : Graph.Options} {lines : List String} {g : Graph} {color : Bool} {b : Browser}
  {query : String}

theorem effect_select (h : Graph.ofLines o lines = .ok g) (color : Bool) (b : Browser) (t : Target) :
    Effect g b (b.select g color t) (.ok (.select t)) := by
  unfold select
  cases he : g.select t with
  | error a => exact .fails _ (fails_complain b (.absent a)) rfl
  | ok e =>
    obtain ⟨start, hstart, hline⟩ := Graph.lineAt?_lineStart?_of_select h he
    have hsuccess : ¬Reply.Fails ⟨b, Report.neighborhood g color e, true⟩ :=
      not_fails_of_head? (by rw [head?_neighborhood]; decide)
    exact .selects hsuccess he (by simp [hstart]) (by simp [hstart, hline])

theorem effect_jump {b' : Browser} (hcaret : b'.caret = b.caret)
    (hquery : b'.session.query = some query) {hit? : Option Hit}
    (hhit : ∀ hit, hit? = some hit → g.document.OccursAt query hit.offset hit.line) {c : Command}
    (hc : c = .next ∨ ∃ text, c = .find text) :
    Effect g b (b'.jump g color query hit?) (.ok c) := by
  have hbrowser := browser_jump g color b' query hit?
  cases hit? with
  | none => exact .fails _ (fails_complain b' (.noMatch query)) hcaret
  | some hit =>
    have hsuccess : ¬(b'.jump g color query (some hit)).Fails :=
      not_fails_of_head? (by rw [head?_text_jump_some]; decide)
    have hremembered : (b'.jump g color query (some hit)).browser.session.query = some query := by
      rw [hbrowser, hquery]
    have hoccurs : g.document.OccursAt query (b'.jump g color query (some hit)).browser.caret hit.line := by
      rw [hbrowser]
      exact hhit hit rfl
    exact .finds hc hsuccess hremembered hoccurs

theorem occursAt_of_find? (hempty : query ≠ "") {origin : Nat} {hit : Hit}
    (hhit : g.document.find? query origin = some hit) :
    g.document.OccursAt query hit.offset hit.line := (Document.least_of_find? hempty hhit).2.1

theorem occursAt_of_next? (hquery : b.session.query = some query) (hempty : query ≠ "") {hit : Hit}
    (hhit : b.session.next? g.document b.caret = some hit) :
    g.document.OccursAt query hit.offset hit.line := by
  rw [Session.next?, hquery, Option.bind_some, Option.or_eq_some_iff] at hhit
  obtain hhit | ⟨_, hhit⟩ := hhit
  · exact occursAt_of_find? hempty hhit
  · exact occursAt_of_find? hempty hhit

theorem effect_search (hempty : query ≠ "") (text : String) :
    Effect g b (b.search g color query) (.ok (.find text)) := by
  have hhit (hit : Hit) (h : g.document.find? query 0 = some hit) :
      g.document.OccursAt query hit.offset hit.line := occursAt_of_find? hempty h
  rw [search]
  refine effect_jump ?_ ?_ hhit (.inr ⟨text, rfl⟩)
  · rfl
  · rfl

theorem effect_run (h : Graph.ofLines o lines = .ok g)
    (hquery : ∀ query, b.session.query = some query → query ≠ "") (c : Command) :
    Effect g b (b.run g color c) (.ok c) := by
  cases c with
  | nothing | quit | help | statistics => exact .idle (by simp) rfl
  | select t => exact effect_select h color b t
  | next =>
    simp only [run]
    cases hremembered : b.session.query with
    | none => exact .fails _ (fails_complain b .nothingToRepeat) rfl
    | some query =>
      have hempty := hquery query hremembered
      exact effect_jump rfl hremembered (fun _ hhit => occursAt_of_next? hremembered hempty hhit) (.inl rfl)
  | find text =>
    simp only [run]
    by_cases htext : text.isEmpty = true
    · rw [if_pos htext]
      cases hremembered : b.session.query with
      | none => exact .fails _ (fails_complain b .findUsage) rfl
      | some query => exact effect_search (hquery query hremembered) text
    · rw [if_neg htext]
      exact effect_search (mt String.isEmpty_iff.mpr htext) text

theorem effect_execute (h : Graph.ofLines o lines = .ok g) (color : Bool)
    (hquery : ∀ query, b.session.query = some query → query ≠ "") (command : String) :
    Effect g b (b.execute g color command) (Command.parse command) := by
  unfold execute
  cases Command.parse command with
  | error c => exact .fails _ (fails_complain b c) rfl
  | ok c => exact effect_run h hquery c

end Effects

structure Steady (g : Graph) (b : Browser) : Prop where
  inside (h : g.document.lines.size ≠ 0) : ∃ line, g.document.lineAt? b.caret = some line
  zero (h : g.document.lines.size = 0) : b.caret = 0
  query (query : String) (h : b.session.query = some query) : query ≠ "" ∧ Text.IsTrimmed query

section Sessions

variable {o : Graph.Options} {lines : List String} {g : Graph} {b : Browser}

theorem query_execute (g : Graph) (color : Bool) (b : Browser) (command : String) :
    (b.execute g color command).browser.session.query =
      if Command.request? (Command.split command).1 = some .find ∧
          (Command.split command).2 ≠ "" then some (Command.split command).2
      else b.session.query := by
  have hasks := Command.asks_parse command
  unfold execute
  generalize Command.split command = words at hasks ⊢
  generalize Command.parse command = parsed at hasks ⊢
  generalize hrequest : Command.request? words.1 = request at hasks ⊢
  cases hasks with
  | idle hc => obtain rfl | rfl | rfl | rfl := hc <;> simp [session_run]
  | select t => simp [session_run]
  | usage c => simp [complain]
  | next => simp [session_run]
  | unknown name => simp [complain]
  | find =>
    simp only [session_run, true_and, String.isEmpty_iff]
    by_cases hempty : words.2 = ""
    · rw [if_pos hempty, if_neg (not_not.mpr hempty)]
    · rw [if_neg hempty, if_pos hempty]

theorem isTrimmed_argument (command : String) : Text.IsTrimmed (Command.split command).2 :=
  Text.isTrimmed_trim _

theorem Steady.execute (h : Graph.ofLines o lines = .ok g) (hb : Steady g b) (color : Bool)
    (command : String) : Steady g (b.execute g color command).browser := by
  have hquery (query : String)
      (hremembered : (b.execute g color command).browser.session.query = some query) :
      query ≠ "" ∧ Text.IsTrimmed query := by
    rw [query_execute] at hremembered
    split at hremembered
    case isTrue hfind =>
      obtain rfl := Option.some.inj hremembered
      exact ⟨hfind.2, isTrimmed_argument command⟩
    case isFalse => exact hb.query query hremembered
  have hstays (hcaret : (b.execute g color command).browser.caret = b.caret) :
      Steady g (b.execute g color command).browser :=
    ⟨hcaret ▸ hb.inside, hcaret ▸ hb.zero, hquery⟩
  have hmoves {line : Nat}
      (hline : g.document.lineAt? (b.execute g color command).browser.caret = some line) :
      Steady g (b.execute g color command).browser := by
    refine ⟨fun _ => ⟨line, hline⟩, fun hnone => ?_, hquery⟩
    rw [Document.lineAt?_of_size_eq_zero hnone] at hline
    cases hline
  have heffect := effect_execute h color (fun query hq => (hb.query query hq).1) command
  generalize Command.parse command = parsed at heffect
  cases heffect with
  | idle _ hbrowser => exact hstays (congrArg caret hbrowser)
  | fails _ _ hcaret => exact hstays hcaret
  | selects _ _ _ hline => exact hmoves hline
  | finds _ _ hremembered hoccurs =>
    exact hmoves ((Document.lineAt?_eq_some_iff _).mpr (hoccurs.holds (hquery _ hremembered).1))

end Sessions

end Browser

end Lsif
