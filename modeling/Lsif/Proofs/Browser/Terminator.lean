import Lsif.Proofs.Browser.Search
import Lsif.Proofs.Document.Terminator
import Lsif.Proofs.Graph.Answers
import Lsif.Proofs.Graph.Options

/-! Two sessions over the same lines, with either terminator. As long as no offset is typed they go the same
way: the carets stand on the same character, and only the offsets of matches are printed differently. -/

namespace Lsif

open Document

namespace Command

def IsOffset (command : String) : Prop := (split command).1 ∈ ["offset", "o"]

instance (command : String) : Decidable (IsOffset command) := by
  unfold IsOffset
  infer_instance

theorem exists_of_selectBy {α : Type} {a : Option α} {target : α → Target} {usage : Complaint}
    {t : Target} (h : selectBy a target usage = .ok (.select t)) : ∃ x, target x = t := by
  cases a with
  | none => cases h
  | some x =>
    cases h
    exact ⟨x, rfl⟩

theorem isOffset_of_parse {command : String} {offset : Nat}
    (h : parse command = .ok (.select (.offset offset))) : IsOffset command := by
  unfold parse at h
  unfold IsOffset
  generalize split command = words at h ⊢
  obtain ⟨name, argument⟩ := words
  dsimp only at h ⊢
  split at h
  case h_9 | h_10 => simp
  case h_7 | h_8 | h_11 | h_12 =>
    obtain ⟨_, htarget⟩ := exists_of_selectBy h
    cases htarget
  all_goals cases h

end Command

def Hit.announced (hit : Hit) : String :=
  "🔍 match at offset " ++ toString hit.offset ++ " (line " ++ toString hit.line ++ ")\n"

/-- The second text is the first one, but tells of the matches at their shifted offsets. -/
inductive ShiftedText : String → String → Prop
  | same (text : String) : ShiftedText text text
  | hit (hit : Hit) : ShiftedText hit.announced hit.shifted.announced
  | append {s s' t t' : String} (hs : ShiftedText s s') (ht : ShiftedText t t') :
      ShiftedText (s ++ t) (s' ++ t')

structure Browser.Along (g g' : Graph) (b b' : Browser) : Prop where
  session : b'.session = b.session
  caret : SameCharacter g.document g'.document b.caret b'.caret
  record : g'.elementAt? b'.caret = g.elementAt? b.caret

structure Reply.Along (g g' : Graph) (r r' : Reply) : Prop where
  browser : Browser.Along g g' r.browser r'.browser
  text : ShiftedText r.text r'.text
  more : r'.more = r.more

namespace Graph

structure ShiftsTo (g g' : Graph) : Prop extends SameIndex g g' where
  document : g.document.ShiftsTo g'.document
  start (t : Target) (e : Element) (he : g.select t = .ok e) : ∃ start,
    g.document.lineStart? e.lineNumber = some start ∧ g.document.lineAt? start = some e.lineNumber

namespace ShiftsTo

variable {g g' : Graph} (h : g.ShiftsTo g')
include h

theorem element?_eq (line : Nat) : g'.element? line = g.element? line := by
  rw [element?, element?, h.elements]

theorem select_eq {t : Target} (ht : ∀ offset, t ≠ .offset offset) : g'.select t = g.select t := by
  cases t with
  | id id => simp only [select, find?, absence, h.resolve?]
  | line line => simp only [select, find?, absence, h.element?_eq, h.document.size_lines]
  | offset offset => exact (ht offset rfl).elim

theorem neighborhood_eq (color : Bool) (e : Element) :
    Report.neighborhood g' color e = Report.neighborhood g color e := by
  have htext (line : Nat) : Report.lineText g' line = Report.lineText g line := by
    rw [Report.lineText, Report.lineText, h.document.lineText?_eq]
  have hneighbor : Report.neighborLine g' color = Report.neighborLine g color := by
    funext n
    rw [Report.neighborLine, Report.neighborLine, htext]
  rw [Report.neighborhood, Report.neighborhood, htext, hneighbor, h.neighbors]

theorem elementAt?_eq {offset offset' : Nat}
    (hsame : SameCharacter g.document g'.document offset offset') :
    g'.elementAt? offset' = g.elementAt? offset := by
  obtain ⟨i, hi, hi', _⟩ | ⟨hnone, rfl, rfl⟩ := hsame
  · rw [elementAt?, elementAt?, hi, hi', Option.bind_some, Option.bind_some, h.element?_eq]
  · have hnone' := h.document.size_lines.trans hnone
    rw [elementAt?, elementAt?, lineAt?_of_size_eq_zero hnone, lineAt?_of_size_eq_zero hnone']
    rfl

end ShiftsTo

end Graph

namespace Browser

variable {g g' : Graph} {b b' : Browser}

theorem along_complain (hb : Along g g' b b') (c : Complaint) :
    Reply.Along g g' (b.complain c) (b'.complain c) := ⟨hb, .same _, rfl⟩

variable (h : g.ShiftsTo g')
include h

theorem along_of_sameCharacter (hsession : b'.session = b.session)
    (hcaret : SameCharacter g.document g'.document b.caret b'.caret) : Along g g' b b' :=
  ⟨hsession, hcaret, h.elementAt?_eq hcaret⟩

theorem along_select (hb : Along g g' b b') (color : Bool) {t : Target}
    (ht : ∀ offset, t ≠ .offset offset) :
    Reply.Along g g' (b.select g color t) (b'.select g' color t) := by
  rw [select, select, h.select_eq ht]
  cases he : g.select t with
  | error a => exact along_complain hb (.absent a)
  | ok e =>
    obtain ⟨start, hstart, hline⟩ := h.start t e he
    have hstart' := (h.document.lineStart?_eq_some_iff _ start).mp hstart
    dsimp only
    rw [hstart, hstart', h.neighborhood_eq]
    exact ⟨along_of_sameCharacter h hb.session
      (.inl ⟨e.lineNumber, hline, h.document.lineAt?_add hline, rfl⟩), .same _, rfl⟩

theorem along_jump (hb : Along g g' b b') (color : Bool) (query : String) {hit? : Option Hit}
    (hhit : ∀ hit, hit? = some hit → g.document.lineAt? hit.offset = some hit.line) :
    Reply.Along g g' (b.jump g color query hit?) (b'.jump g' color query (hit?.map Hit.shifted)) := by
  have hbrowser := browser_jump g color b query hit?
  have hbrowser' := browser_jump g' color b' query (hit?.map Hit.shifted)
  cases hit? with
  | none => exact along_complain hb (.noMatch query)
  | some hit =>
    have hselect := along_select h hb color (t := .line hit.line) (by simp)
    have hline := hhit hit rfl
    refine ⟨?_, ?_, rfl⟩
    · rw [hbrowser, Option.map_some, hbrowser']
      exact along_of_sameCharacter h hb.session
        (.inl ⟨hit.line, hline, h.document.lineAt?_add hline, rfl⟩)
    · exact .append (.hit hit) hselect.text

theorem along_search (hb : Along g g' b b') (color : Bool) (query : String) :
    Reply.Along g g' (b.search g color query) (b'.search g' color query) := by
  have hremembered : Along g g' { b with session := b.session.remember query }
      { b' with session := b'.session.remember query } := ⟨rfl, hb.caret, hb.record⟩
  rw [search, search, h.document.find?_zero]
  exact along_jump h hremembered color query fun _ hhit => lineAt?_of_find? hhit

theorem along_run (hb : Along g g' b b') (color : Bool) {c : Command}
    (hc : ∀ offset, c ≠ .select (.offset offset)) :
    Reply.Along g g' (b.run g color c) (b'.run g' color c) := by
  cases c with
  | nothing | quit | help => exact ⟨hb, .same _, rfl⟩
  | statistics =>
    rw [run, run, h.statistics]
    exact ⟨hb, .same _, rfl⟩
  | select t => exact along_select h hb color fun offset => mt (congrArg Command.select) (hc offset)
  | find text =>
    rw [run, run, hb.session]
    split
    · cases b.session.query with
      | none => exact along_complain hb .findUsage
      | some query => exact along_search h hb color query
    · exact along_search h hb color text
  | next =>
    rw [run, run, hb.session, h.document.next?_eq b.session hb.caret]
    cases b.session.query with
    | none => exact along_complain hb .nothingToRepeat
    | some query => exact along_jump h hb color query fun _ hhit => lineAt?_of_next? hhit

theorem along_execute (hb : Along g g' b b') (color : Bool) {command : String}
    (hcommand : ¬Command.IsOffset command) :
    Reply.Along g g' (b.execute g color command) (b'.execute g' color command) := by
  unfold execute
  cases hparse : Command.parse command with
  | error c => exact along_complain hb c
  | ok c =>
    refine along_run h hb color fun offset hoffset => hcommand ?_
    rw [hoffset] at hparse
    exact Command.isOffset_of_parse hparse

theorem along_replies (hb : Along g g' b b') (color : Bool) {commands : List String}
    (hcommands : ∀ command ∈ commands, ¬Command.IsOffset command) :
    List.Forall₂ (Reply.Along g g') (replies g color b commands) (replies g' color b' commands) := by
  induction commands generalizing b b' with
  | nil => exact .nil
  | cons command rest ih =>
    obtain ⟨hcommand, hrest⟩ := List.forall_mem_cons.mp hcommands
    have hreply := along_execute h hb color hcommand
    exact .cons hreply (ih hreply.browser hrest)

theorem shiftedText_transcript (hb : Along g g' b b') (color : Bool) {out out' : String}
    (hout : ShiftedText out out') {commands : List String}
    (hcommands : ∀ command ∈ commands, ¬Command.IsOffset (Text.trim command)) :
    ShiftedText (transcript g color b out commands) (transcript g' color b' out' commands) := by
  induction commands generalizing b b' out out' with
  | nil => exact hout
  | cons command rest ih =>
    obtain ⟨hcommand, hrest⟩ := List.forall_mem_cons.mp hcommands
    have hreply := along_execute h hb color hcommand
    rw [transcript, transcript, hreply.more]
    split
    · exact ih hreply.browser (hout.append hreply.text) hrest
    · exact hout.append hreply.text

end Browser

namespace Graph

/-- What the longer terminator changes: the offsets of lines and of what is found in them, and the numbers
that tell of these offsets. -/
structure OnlyShifts (g g' : Graph) : Prop where
  lineStart (i start : Nat) :
    g.document.lineStart? i = some start ↔ g'.document.lineStart? i = some (start + i)
  findAll (needle : String) :
    g'.document.findAll needle = (g.document.findAll needle).map Hit.shifted
  next (s : Session) (offset i : Nat) (h : g.document.lineAt? offset = some i) :
    s.next? g'.document (offset + i) = (s.next? g.document offset).map Hit.shifted
  replies (color : Bool) (commands : List String)
    (h : ∀ command ∈ commands, ¬Command.IsOffset command) :
    List.Forall₂ (Reply.Along g g') (Browser.replies g color {} commands)
      (Browser.replies g' color {} commands)
  transcript (color : Bool) (commands : List String)
    (h : ∀ command ∈ commands, ¬Command.IsOffset (Text.trim command)) :
    ShiftedText (Browser.transcript g color {} (Browser.greeting g) commands)
      (Browser.transcript g' color {} (Browser.greeting g') commands)

variable {o : Options} {lines : List String} {g₀ : Graph}

theorem exists_shiftsTo_of_ofLines (h : ofLines o lines = .ok g₀) : ∃ g g',
    ofLines { o with terminator := .lf } lines = .ok g ∧
      ofLines { o with terminator := .crlf } lines = .ok g' ∧ g.ShiftsTo g' := by
  obtain ⟨ds, hds, index, hindex, _⟩ := ofLines_eq_ok_iff.mp h
  have hbuild (t : Terminator) : ofLines { o with terminator := t } lines =
      .ok { toIndex := index, document := .ofTexts t (Indentation.indentAll ds lines) } :=
    ofLines_eq_ok_iff.mpr ⟨ds, hds, index, hindex, rfl⟩
  exact ⟨_, _, hbuild .lf, hbuild .crlf, sameIndex_of_toIndex rfl, shiftsTo_ofTexts _,
    fun _ _ he => lineAt?_lineStart?_of_select (hbuild .lf) he⟩

theorem along_start {g g' : Graph} (hg : ofLines o lines = .ok g) (h : g.ShiftsTo g') :
    Browser.Along g g' {} {} := by
  refine Browser.along_of_sameCharacter h rfl ?_
  by_cases hlines : g.document.lines.size = 0
  · exact .inr ⟨hlines, rfl, rfl⟩
  · have hline := lineAt?_zero_of_ofLines hg hlines
    exact .inl ⟨0, hline, h.document.lineAt?_add hline, rfl⟩

/-- The terminator decides offsets, and nothing else that can be seen. -/
theorem onlyShifts_of_ofLines (h : ofLines o lines = .ok g₀) : ∃ g g',
    ofLines { o with terminator := .lf } lines = .ok g ∧
      ofLines { o with terminator := .crlf } lines = .ok g' ∧ g.OnlyShifts g' := by
  obtain ⟨g, g', hg, hg', hshifts⟩ := exists_shiftsTo_of_ofLines h
  have hstart := along_start hg hshifts
  have hgreeting : Browser.greeting g' = Browser.greeting g := by
    rw [Browser.greeting, Browser.greeting, hshifts.document.size_lines]
  refine ⟨g, g', hg, hg', hshifts.document.lineStart?_eq_some_iff, hshifts.document.findAll_eq,
    fun s offset i hi => ?_, fun color commands hcommands => ?_, fun color commands hcommands => ?_⟩
  · exact hshifts.document.next?_eq s (.inl ⟨i, hi, hshifts.document.lineAt?_add hi, rfl⟩)
  · exact Browser.along_replies hshifts hstart color hcommands
  · rw [hgreeting]
    exact Browser.shiftedText_transcript hshifts hstart color (.same _) hcommands

theorem onlyShifts_of_ofLines_second_line :
    let lines := ["\x7b\"type\":\"vertex\",\"id\":1\x7d", "\x7b\"type\":\"edge\",\"id\":1\x7d"]
    ∃ g g', ofLines { terminator := .lf } lines = .ok g ∧ ofLines { terminator := .crlf } lines = .ok g' ∧
      g.OnlyShifts g' ∧ g.document.findAll "edge" = [⟨34, 1⟩] ∧
      g'.document.findAll "edge" = [⟨35, 1⟩] := by
  intro lines
  obtain ⟨g₀, hg₀⟩ : ∃ g, ofLines {} lines = .ok g := by
    refine exists_ofLines ?_ ?_
    · decide +kernel
    · decide +kernel
  have hdepths : Indentation.depths {} lines = .ok [0, 0] := by decide +kernel
  obtain ⟨g, g', hg, hg', hshifts⟩ := onlyShifts_of_ofLines hg₀
  have hfound : g.document.findAll "edge" = [⟨34, 1⟩] := by
    rw [document_of_ofLines hg hdepths]
    decide +kernel
  exact ⟨g, g', hg, hg', hshifts, hfound, by rw [hshifts.findAll, hfound]; rfl⟩

end Graph

end Lsif
