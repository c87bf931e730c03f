import Lsif.Browser.Basic
import Lsif.Proofs.Document.Search
import Lsif.Proofs.Graph.Faults

/-! Searching in a browse session. Looking for a text and then for the next occurrence again and again
goes through all its occurrences in turn, from any state of the session. -/

namespace Lsif

def Text.IsTrimmed (s : String) : Prop :=
  ∀ c, s.toList.head? = some c ∨ s.toList.getLast? = some c → isBlank c = false

theorem Text.dropWhile_isBlank_of_head? {cs : List Char}
    (h : ∀ c, cs.head? = some c → isBlank c = false) : cs.dropWhile isBlank = cs := by
  cases cs with
  | nil => rfl
  | cons c cs =>
    have hc : ¬isBlank c = true := by simp [h c rfl]
    exact List.dropWhile_cons_of_neg hc

theorem Text.trim_eq_self {s : String} (h : IsTrimmed s) : trim s = s := by
  have hfront : s.toList.dropWhile isBlank = s.toList :=
    dropWhile_isBlank_of_head? fun c hc => h c (.inl hc)
  have hback : s.toList.reverse.dropWhile isBlank = s.toList.reverse := by
    refine dropWhile_isBlank_of_head? fun c hc => h c (.inr ?_)
    rwa [List.head?_reverse] at hc
  rw [trim, hfront, hback, List.reverse_reverse, String.ofList_toList]

theorem Text.bne_of_not_mem {cs : List Char} {c : Char} (h : c ∉ cs) : ∀ d ∈ cs, (d != c) = true :=
  fun _ hd => bne_iff_ne.mpr (ne_of_mem_of_not_mem hd h)

namespace Command

theorem split_append {name : String} (h : ' ' ∉ name.toList) (argument : String) :
    split (name ++ " " ++ argument) = (name, Text.trim argument) := by
  have hchars : (name ++ " " ++ argument).toList = name.toList ++ ' ' :: argument.toList := by simp
  have hname := Text.bne_of_not_mem h
  simp [split, hchars, List.takeWhile_append_of_pos hname, List.dropWhile_append_of_pos hname]

theorem parse_find {query : String} (h : Text.IsTrimmed query) :
    parse ("find " ++ query) = .ok (.find query) := by
  have hword : "find " = "find" ++ " " := rfl
  rw [parse, hword, split_append (by decide), Text.trim_eq_self h]
  rfl

theorem parse_next : parse "next" = .ok .next := by decide +kernel

end Command

namespace Browser

open Document

def after (g : Graph) (color : Bool) (b : Browser) (commands : List String) : Browser :=
  commands.foldl (fun b command => (b.execute g color command).browser) b

def replies (g : Graph) (color : Bool) (b : Browser) : List String → List Reply
  | [] => []
  | command :: rest =>
    let reply := b.execute g color command
    reply :: replies g color reply.browser rest

inductive Reachable (g : Graph) : Browser → Prop
  | start : Reachable g {}
  | execute {b : Browser} (h : Reachable g b) (color : Bool) (command : String) :
      Reachable g (b.execute g color command).browser

variable {g : Graph} {color : Bool} {b : Browser} {query : String}

theorem session_select (g : Graph) (color : Bool) (b : Browser) (t : Target) :
    (b.select g color t).browser.session = b.session := by
  unfold select
  cases g.select t <;> rfl

theorem browser_jump (g : Graph) (color : Bool) (b : Browser) (query : String)
    (hit? : Option Hit) : (b.jump g color query hit?).browser =
      { b with caret := (hit?.map Hit.offset).getD b.caret } := by
  cases hit? with
  | none => rfl
  | some hit => simp [jump, session_select]

theorem session_run (g : Graph) (color : Bool) (b : Browser) (c : Command) :
    (b.run g color c).browser.session =
      match c with
      | .find text => if text.isEmpty then b.session else ⟨some text⟩
      | _ => b.session := by
  cases c with
  | nothing => rfl
  | quit => rfl
  | help => rfl
  | statistics => rfl
  | select t => exact session_select g color b t
  | next =>
    simp only [run]
    cases b.session.query with
    | none => rfl
    | some query => rw [browser_jump]
  | find text =>
    simp only [run]
    cases hempty : text.isEmpty with
    | false => simp [search, browser_jump, Session.remember]
    | true =>
      rcases b with ⟨caret, _ | query⟩
      · rfl
      · simp [search, browser_jump, Session.remember]

theorem session_execute (g : Graph) (color : Bool) (b : Browser) (command : String) :
    (b.execute g color command).browser.session = b.session ∨
      ∃ text, Command.parse command = .ok (.find text) ∧ text ≠ "" ∧
        (b.execute g color command).browser.session = ⟨some text⟩ := by
  unfold execute
  cases hparse : Command.parse command with
  | error c => exact .inl rfl
  | ok c =>
    simp only [session_run]
    cases c with
    | find text =>
      by_cases hempty : text.isEmpty = true
      · exact .inl (if_pos hempty)
      · exact .inr ⟨text, rfl, mt String.isEmpty_iff.mpr hempty, if_neg hempty⟩
    | _ => exact .inl rfl

theorem Reachable.query_ne_empty (h : Reachable g b) (hquery : b.session.query = some query) :
    query ≠ "" := by
  induction h generalizing query with
  | start => cases hquery
  | @execute b h color command ih =>
    obtain hsame | ⟨text, _, htext, hfind⟩ := session_execute g color b command
    · exact ih (hsame ▸ hquery)
    · rw [hfind, Option.some.injEq] at hquery
      exact hquery ▸ htext

def noMatchText (query : String) : String :=
  "❌ " ++ ("no match for " ++ Text.quoted query) ++ "\n"

theorem text_jump_none (g : Graph) (color : Bool) (b : Browser) (query : String) :
    (b.jump g color query none).text = noMatchText query := rfl

theorem head?_toList_append {s : String} {c : Char} (h : s.toList.head? = some c) (t : String) :
    (s ++ t).toList.head? = some c := by
  rw [String.toList_append, List.head?_append, h, Option.some_or]

theorem head?_text_jump_some (g : Graph) (color : Bool) (b : Browser) (query : String) (hit : Hit) :
    (b.jump g color query (some hit)).text.toList.head? = some '🔍' := by
  have hglass : "🔍 match at offset ".toList.head? = some '🔍' := by decide +kernel
  exact head?_toList_append (head?_toList_append (head?_toList_append (head?_toList_append
    (head?_toList_append hglass _) _) _) _) _

theorem text_jump_some_ne (g : Graph) (color : Bool) (b : Browser) (query : String) (hit : Hit) :
    (b.jump g color query (some hit)).text ≠ noMatchText query := by
  have hcross : "❌ ".toList.head? = some '❌' := by decide +kernel
  have hmatch := head?_text_jump_some g color b query hit
  have hnoMatch : (noMatchText query).toList.head? = some '❌' :=
    head?_toList_append (head?_toList_append hcross _) _
  intro h
  rw [h, hnoMatch, Option.some.injEq] at hmatch
  exact absurd hmatch (by decide)

theorem execute_find (hquery : Text.IsTrimmed query) (hempty : query ≠ "") :
    b.execute g color ("find " ++ query) = b.search g color query := by
  have hnonempty : ¬query.isEmpty = true := mt String.isEmpty_iff.mp hempty
  simp only [execute, Command.parse_find hquery, run, if_neg hnonempty]

theorem execute_next (hquery : b.session.query = some query) :
    b.execute g color "next" = b.jump g color query (b.session.next? g.document b.caret) := by
  simp only [execute, Command.parse_next, run, hquery]

theorem browser_find (hquery : Text.IsTrimmed query) (hempty : query ≠ "") :
    (b.execute g color ("find " ++ query)).browser =
      { caret := (g.document.offsetsOf query).head?.getD b.caret, session := ⟨some query⟩ } := by
  rw [execute_find hquery hempty, search, browser_jump, map_offset_find? hempty, find?_zero_le]
  rfl

theorem browser_next (hquery : b.session.query = some query) (hempty : query ≠ "") :
    (b.execute g color "next").browser =
      { b with caret := (nextAfter? (g.document.offsetsOf query) b.caret).getD b.caret } := by
  rw [execute_next hquery, browser_jump, map_offset_next? hquery hempty]

theorem text_jump_eq_iff {hit? : Option Hit} :
    (b.jump g color query hit?).text = noMatchText query ↔ hit? = none := by
  cases hit? with
  | none => exact iff_of_true (text_jump_none g color b query) rfl
  | some hit => exact iff_of_false (text_jump_some_ne g color b query hit) (Option.some_ne_none hit)

theorem nextAfter?_eq_none_iff {os : List Nat} {c : Nat} : nextAfter? os c = none ↔ os = [] := by
  rw [nextAfter?, Option.or_eq_none_iff, List.head?_eq_none_iff]
  exact and_iff_right_of_imp fun h => h ▸ rfl

theorem text_find_eq_iff (hquery : Text.IsTrimmed query) (hempty : query ≠ "") :
    (b.execute g color ("find " ++ query)).text = noMatchText query ↔
      g.document.offsetsOf query = [] := by
  rw [execute_find hquery hempty, search, text_jump_eq_iff, ← Option.map_eq_none_iff,
    map_offset_find? hempty, find?_zero_le, List.head?_eq_none_iff]

theorem text_next_eq_iff (hquery : b.session.query = some query) (hempty : query ≠ "") :
    (b.execute g color "next").text = noMatchText query ↔ g.document.offsetsOf query = [] := by
  rw [execute_next hquery, text_jump_eq_iff, ← Option.map_eq_none_iff,
    map_offset_next? hquery hempty, nextAfter?_eq_none_iff]

theorem after_concat (g : Graph) (color : Bool) (b : Browser) (commands : List String)
    (command : String) : after g color b (commands ++ [command]) =
      ((after g color b commands).execute g color command).browser := by
  rw [after, List.foldl_append]
  rfl

def searchRun (query : String) (k : Nat) : List String :=
  ("find " ++ query) :: List.replicate k "next"

theorem searchRun_succ (query : String) (k : Nat) :
    searchRun query (k + 1) = searchRun query k ++ ["next"] := by
  rw [searchRun, List.replicate_succ', searchRun, List.cons_append]

theorem session_after_searchRun (hquery : Text.IsTrimmed query) (hempty : query ≠ "") (k : Nat) :
    (after g color b (searchRun query k)).session.query = some query := by
  induction k with
  | zero => exact congrArg (·.session.query) (browser_find hquery hempty)
  | succ k ih =>
    rw [searchRun_succ, after_concat, browser_next ih hempty]
    exact ih

theorem caret_after_searchRun (hquery : Text.IsTrimmed query) (hempty : query ≠ "")
    (hfound : g.document.offsetsOf query ≠ []) (k : Nat) :
    (g.document.offsetsOf query)[k % (g.document.offsetsOf query).length]? =
      some (after g color b (searchRun query k)).caret := by
  have hpos : 0 < (g.document.offsetsOf query).length := List.length_pos_of_ne_nil hfound
  induction k with
  | zero =>
    have hcaret : (after g color b (searchRun query 0)).caret = _ :=
      congrArg caret (browser_find hquery hempty)
    rw [Nat.zero_mod, hcaret, List.head?_eq_getElem?, List.getElem?_eq_getElem hpos]
    rfl
  | succ k ih =>
    obtain ⟨hlt, hk⟩ := List.getElem?_eq_some_iff.mp ih
    have hsession : (after g color b (searchRun query k)).session.query = some query :=
      session_after_searchRun hquery hempty k
    have hnext := nextAfter?_getElem (pairwise_offsetsOf g.document query) hlt
    rw [Nat.mod_add_mod, hk, List.getElem?_eq_getElem (Nat.mod_lt _ hpos)] at hnext
    rw [searchRun_succ, after_concat, browser_next hsession hempty, hnext,
      List.getElem?_eq_getElem (Nat.mod_lt _ hpos)]
    rfl

theorem replies_nexts_of_eq_nil (hempty : query ≠ "")
    (hnone : g.document.offsetsOf query = []) (hquery : b.session.query = some query) (k : Nat) :
    ∀ reply ∈ replies g color b (List.replicate k "next"),
      reply.text = noMatchText query ∧ reply.browser.caret = b.caret := by
  induction k generalizing b with
  | zero => exact List.forall_mem_nil _
  | succ k ih =>
    have hnext : (b.execute g color "next").browser = { b with caret := b.caret } := by
      rw [browser_next hquery hempty, nextAfter?_eq_none_iff.mpr hnone]
      rfl
    rw [List.replicate_succ, replies, List.forall_mem_cons]
    refine ⟨⟨(text_next_eq_iff hquery hempty).mpr hnone, congrArg caret hnext⟩, ?_⟩
    rw [hnext]
    exact ih hquery

theorem replies_searchRun_of_eq_nil (hquery : Text.IsTrimmed query) (hempty : query ≠ "")
    (hnone : g.document.offsetsOf query = []) (k : Nat) :
    ∀ reply ∈ replies g color b (searchRun query k),
      reply.text = noMatchText query ∧ reply.browser.caret = b.caret := by
  have hfind : (b.execute g color ("find " ++ query)).browser = ⟨b.caret, ⟨some query⟩⟩ := by
    rw [browser_find hquery hempty, hnone]
    rfl
  have hcaret : (b.execute g color ("find " ++ query)).browser.caret = b.caret := by
    rw [hfind]
  rw [searchRun, replies, List.forall_mem_cons]
  refine ⟨⟨(text_find_eq_iff hquery hempty).mpr hnone, hcaret⟩, ?_⟩
  rw [hfind]
  exact replies_nexts_of_eq_nil hempty hnone rfl k

/-- A search from the state `b` and any number of further ones. -/
structure SearchCycle (g : Graph) (color : Bool) (b : Browser) (query : String) : Prop where
  ascending : (g.document.offsetsOf query).Pairwise (· < ·)
  mem_iff (offset : Nat) :
    offset ∈ g.document.offsetsOf query ↔ ∃ line, g.document.OccursAt query offset line
  caret (hfound : g.document.offsetsOf query ≠ []) (k : Nat) :
    (g.document.offsetsOf query)[k % (g.document.offsetsOf query).length]? =
      some (after g color b (searchRun query k)).caret
  noMatch (hnone : g.document.offsetsOf query = []) (k : Nat) :
    ∀ reply ∈ replies g color b (searchRun query k),
      reply.text = noMatchText query ∧ reply.browser.caret = b.caret

structure NextStep (g : Graph) (color : Bool) (b : Browser) (query : String) : Prop where
  ahead (offset : Nat) (h : offset ∈ g.document.offsetsOf query) (hcaret : b.caret < offset)
    (hleast : ∀ other ∈ g.document.offsetsOf query, b.caret < other → offset ≤ other) :
    (b.execute g color "next").browser.caret = offset
  around (h : ∀ offset ∈ g.document.offsetsOf query, offset ≤ b.caret) :
    (b.execute g color "next").browser.caret =
      (g.document.offsetsOf query).head?.getD b.caret
  noMatch : (b.execute g color "next").text = noMatchText query ↔
    g.document.offsetsOf query = []

theorem nextStep_of_query (hquery : b.session.query = some query) (hempty : query ≠ "") :
    NextStep g color b query where
  ahead offset h hcaret hleast := by
    have hfind : (g.document.offsetsOf query).find? (b.caret < ·) = some offset :=
      (find?_le_eq_some_iff (pairwise_offsetsOf g.document query)).mpr ⟨⟨hcaret, h⟩, hleast⟩
    rw [browser_next hquery hempty, nextAfter?, hfind]
    rfl
  around h := by
    have hfind : (g.document.offsetsOf query).find? (b.caret < ·) = none := by
      rw [List.find?_eq_none]
      intro offset hoffset hlt
      exact absurd (of_decide_eq_true hlt) (Nat.not_lt.mpr (h offset hoffset))
    rw [browser_next hquery hempty, nextAfter?, hfind, Option.none_or]
  noMatch := text_next_eq_iff hquery hempty

/-- Searching on goes from each occurrence to the next one, in the state of any session. -/
theorem search_goes_around (g : Graph) (color : Bool) :
    (∀ b query, query ≠ "" → Text.IsTrimmed query → SearchCycle g color b query) ∧
      ∀ b query, Reachable g b → b.session.query = some query → NextStep g color b query := by
  refine ⟨fun b query hempty hquery => ⟨pairwise_offsetsOf g.document query, ?_, ?_, ?_⟩,
    fun b query hreachable hquery => nextStep_of_query hquery (hreachable.query_ne_empty hquery)⟩
  · exact fun offset => mem_offsetsOf_iff hempty
  · exact caret_after_searchRun hquery hempty
  · exact replies_searchRun_of_eq_nil hquery hempty

theorem search_goes_around_overlapping :
    let lines := ["\x7b\"type\":\"vertex\",\"label\":\"aaaa\"\x7d"]
    ∃ g, Graph.ofLines {} lines = .ok g ∧ g.document.offsetsOf "aa" = [26, 27, 28] ∧
      (after g false {} (searchRun "aa" 4)).caret = 27 ∧
      NextStep g false (after g false {} ["find aa"]) "aa" := by
  intro lines
  obtain ⟨g, hg⟩ : ∃ g, Graph.ofLines {} lines = .ok g := by
    refine Graph.exists_ofLines ?_ ?_
    · decide +kernel
    · decide +kernel
  have hdepths : Indentation.depths {} lines = .ok [0] := by decide +kernel
  have hoffsets : g.document.offsetsOf "aa" = [26, 27, 28] := by
    rw [Graph.document_of_ofLines hg hdepths]
    decide +kernel
  have htrimmed : Text.IsTrimmed "aa" := by
    intro c hc
    have ha : c = 'a' := by simpa [eq_comm] using hc
    rw [ha]
    decide
  have hreachable : Reachable g (after g false {} ["find aa"]) := .execute .start false "find aa"
  have hremembered : (after g false {} ["find aa"]).session.query = some "aa" :=
    session_after_searchRun htrimmed (by decide) 0
  obtain ⟨hcycle, hnext⟩ := search_goes_around g false
  have hcaret := (hcycle {} "aa" (by decide) htrimmed).caret (by simp [hoffsets]) 4
  simp only [hoffsets] at hcaret
  exact ⟨g, hg, hoffsets, (Option.some.inj hcaret).symm, hnext _ "aa" hreachable hremembered⟩

end Browser

end Lsif
