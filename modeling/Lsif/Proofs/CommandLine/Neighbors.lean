import Lsif.CommandLine.Run
import Lsif.Proofs.Browser.Search
import Lsif.Proofs.Graph.Addresses
import Lsif.Proofs.Text.Integer
import Mathlib.Data.List.TakeWhile

/-! The two ways to ask for a neighborhood: a command line for one record, and a command that is typed in a
session. Both read the same numbers, and they print the same. -/

namespace Lsif

open CommandLine

namespace Target

def InRange : Target → Prop
  | .id _ => True
  | .line n => n < UInt64.size
  | .offset n => n < UInt64.size

def Signed : Target → Prop
  | .id i => i.toInt < 0
  | _ => False

def setting : Target → Setting
  | .id _ => .id
  | .line _ => .line
  | .offset _ => .offset

def word : Target → String
  | .id _ => "id"
  | .line _ => "line"
  | .offset _ => "offset"

def number : Target → String
  | .id i => toString i
  | .line n => toString n
  | .offset n => toString n

def command (t : Target) : String := t.word ++ " " ++ t.number

def request (t : Target) (file : String) : Invocation :=
  { options := {}, color := true, file, action := .neighbors t false }

/-- What a command line for the target is read as. A sign is taken for an option, unless it stands in the
argument that names one. -/
structure AskedFor (t : Target) (file : String) : Prop where
  joined : parse ["neighbors", file, "--" ++ t.word ++ "=" ++ t.number] = .ok (t.request file)
  apart (h : ¬t.Signed) :
    parse ["neighbors", file, "--" ++ t.word, t.number] = .ok (t.request file)
  signed (h : t.Signed) : parse ["neighbors", file, "--" ++ t.word, t.number] = .error .misuse

theorem word_plain (t : Target) : t.word ≠ "" ∧ ' ' ∉ t.word.toList ∧ '=' ∉ t.word.toList := by
  have hmem : t.word ∈ ["id", "line", "offset"] := by cases t <;> simp [word]
  have hplain : ∀ word ∈ ["id", "line", "offset"],
      word ≠ "" ∧ ' ' ∉ word.toList ∧ '=' ∉ word.toList := by decide
  exact hplain _ hmem

theorem isDecimal_of_mem_number {t : Target} {c : Char} (h : c ∈ t.number.toList) :
    Text.IsDecimal c := by
  cases t with
  | id i => exact Text.isDecimal_of_mem_toString_int64 h
  | line n => exact Text.isDecimal_of_mem_toString_nat h
  | offset n => exact Text.isDecimal_of_mem_toString_nat h

theorem head?_number {t : Target} (h : ¬t.Signed) : t.number.toList.head? ≠ some '-' := by
  have hdigits (n : ℕ) : (Nat.toDigits 10 n).head? ≠ some '-' := by
    intro hhead
    obtain ⟨cs, hcs⟩ := List.head?_eq_some_iff.mp hhead
    exact Text.toDigits_ne_cons n (.inr rfl) cs hcs
  cases t with
  | id i =>
    rw [number, Text.toList_toString_int64, if_neg (show ¬i.toInt < 0 from h)]
    exact hdigits _
  | line n =>
    rw [number, Text.toList_toString_nat]
    exact hdigits n
  | offset n =>
    rw [number, Text.toList_toString_nat]
    exact hdigits n

theorem exists_toList_number {t : Target} (h : t.Signed) :
    ∃ n, t.number.toList = '-' :: Nat.toDigits 10 n := by
  cases t with
  | id i =>
    refine ⟨i.toInt.natAbs, ?_⟩
    rw [number, Text.toList_toString_int64, if_pos (show i.toInt < 0 from h)]
  | line n => exact h.elim
  | offset n => exact h.elim

theorem isTrimmed_number (t : Target) : Text.IsTrimmed t.number := by
  have hdecimal {c : Char} (h : Text.IsDecimal c) : Text.isBlank c = false := by
    obtain rfl | ⟨d, rfl⟩ := h
    · decide
    · revert d
      decide
  rintro c (hc | hc)
  · exact hdecimal (isDecimal_of_mem_number (List.mem_of_head? hc))
  · exact hdecimal (isDecimal_of_mem_number (List.mem_of_getLast? hc))

theorem parse_command {t : Target} (h : t.InRange) : Command.parse t.command = .ok (.select t) := by
  rw [Command.parse, command, Command.split_append t.word_plain.2.1, Text.trim_eq_self t.isTrimmed_number]
  cases t with
  | id i => simp only [word, number, Text.signed?_toString, Command.selectBy]
  | line n => simp only [word, number, Text.unsigned?_toString h, Command.selectBy]
  | offset n => simp only [word, number, Text.unsigned?_toString h, Command.selectBy]

def values (t : Target) (file : String) : Values :=
  match t with
  | .id i => { file := some file, id := some i }
  | .line n => { file := some file, line := some n }
  | .offset n => { file := some file, offset := some n }

theorem assign_number {t : Target} (h : t.InRange) (file : String) :
    Values.assign { file := some file } t.number (.setting t.setting) = some (t.values file) := by
  cases t with
  | id i =>
    simp only [Values.assign, setting, number, Text.signed?_toString]
    rfl
  | line n =>
    simp only [Values.assign, setting, number, Text.unsigned?_toString h]
    rfl
  | offset n =>
    simp only [Values.assign, setting, number, Text.unsigned?_toString h]
    rfl

theorem invocation_values (t : Target) (file : String) :
    invocation .neighbors {} (t.values file) = .ok (t.request file) := by
  cases t <;> rfl

end Target

namespace CommandLine

namespace Scan

variable {s : Scan} {options : List OptionName} {name : String} {short? : Option Char}
  {setting : Setting}

theorem step_plain (hliteral : s.literal = false) (options : List OptionName) {arg : String}
    (h : arg.toList.head? ≠ some '-') : s.step options arg = s.plain arg := by
  rw [step, hliteral, if_neg Bool.false_ne_true]
  split <;> simp_all

theorem step_hyphens (hliteral : s.literal = false) (options : List OptionName) {arg : String}
    {c : Char} {cs : List Char} (h : arg.toList = '-' :: '-' :: c :: cs) :
    s.step options arg = s.long options (c :: cs) := by
  rw [step, hliteral, if_neg Bool.false_ne_true, h]
  rfl

theorem step_hyphen (hliteral : s.literal = false) (options : List OptionName) {arg : String}
    {c : Char} {cs : List Char} (h : arg.toList = '-' :: c :: cs) (hc : c ≠ '-') :
    s.step options arg = s.short options (c :: cs) := by
  rw [step, hliteral, if_neg Bool.false_ne_true, h]
  split <;> simp_all

theorem step_attach (hliteral : s.literal = false) (hempty : name ≠ "") (hname : '=' ∉ name.toList)
    (h : (options.find? fun o => o.long = name) = some ⟨name, short?, .setting setting⟩)
    (value : String) :
    s.step options ("--" ++ name ++ "=" ++ value) = s.attach setting value := by
  obtain ⟨c, cs, hchars⟩ := List.exists_cons_of_ne_nil (mt String.toList_eq_nil_iff.mp hempty)
  have harg : ("--" ++ name ++ "=" ++ value).toList = '-' :: '-' :: c :: (cs ++ '=' :: value.toList) := by
    simp [hchars]
  have hbefore := Text.bne_of_not_mem hname
  rw [step_hyphens hliteral options harg, ← List.cons_append, ← hchars]
  simp [long, List.takeWhile_append_of_pos hbefore, List.dropWhile_append_of_pos hbefore, h]

theorem step_await (hliteral : s.literal = false) (hempty : name ≠ "") (hname : '=' ∉ name.toList)
    (h : (options.find? fun o => o.long = name) = some ⟨name, short?, .setting setting⟩) :
    s.step options ("--" ++ name) = s.await setting := by
  obtain ⟨c, cs, hchars⟩ := List.exists_cons_of_ne_nil (mt String.toList_eq_nil_iff.mp hempty)
  have harg : ("--" ++ name).toList = '-' :: '-' :: c :: cs := by simp [hchars]
  have hwhole := Text.bne_of_not_mem hname
  rw [step_hyphens hliteral options harg, ← hchars]
  simp [long, List.takeWhile_eq_self_iff.mpr hwhole, List.dropWhile_eq_nil_iff.mpr hwhole, h]

end Scan

theorem exists_option (t : Target) : ∃ short?, (Verb.neighbors.options.find? fun o => o.long = t.word) =
    some ⟨t.word, short?, .setting t.setting⟩ := by
  cases t with
  | id i => exact ⟨_, rfl⟩
  | line n => exact ⟨_, rfl⟩
  | offset n => exact ⟨_, rfl⟩

theorem step_file {file : String} (hfile : file.toList.head? ≠ some '-') :
    ({ operands := Verb.neighbors.operands } : Scan).step Verb.neighbors.options file =
      pure { held := some (.operand .file, file) } := by
  rw [Scan.step_plain rfl _ hfile]
  rfl

theorem settle_file {file : String} (hempty : file ≠ "") :
    ({ held := some (.operand .file, file) } : Scan).settle =
      pure { values := { file := some file } } := by
  simp [Scan.settle, Values.assign, Values.fill, Values.path?, hempty, pure, Except.pure]

theorem step_word (t : Target) {file : String} (hempty : file ≠ "") :
    ({ held := some (.operand .file, file) } : Scan).step Verb.neighbors.options ("--" ++ t.word) =
      pure { values := { file := some file }, waiting := some t.setting } := by
  obtain ⟨short?, hoption⟩ := exists_option t
  obtain ⟨hnonempty, _, hname⟩ := t.word_plain
  rw [Scan.step_await rfl hnonempty hname hoption, Scan.await, settle_file hempty]
  rfl

theorem step_word_number {t : Target} (ht : t.InRange) {file : String} (hempty : file ≠ "") :
    ({ held := some (.operand .file, file) } : Scan).step Verb.neighbors.options
      ("--" ++ t.word ++ "=" ++ t.number) = pure { values := t.values file } := by
  obtain ⟨short?, hoption⟩ := exists_option t
  obtain ⟨hnonempty, _, hname⟩ := t.word_plain
  rw [Scan.step_attach rfl hnonempty hname hoption, Scan.attach, settle_file hempty]
  simp only [pure_bind, Target.assign_number ht]

theorem step_sign {s : Scan} (hliteral : s.literal = false) {n : ℕ} {arg : String}
    (h : arg.toList = '-' :: Nat.toDigits 10 n) :
    s.step Verb.neighbors.options arg = .error .misuse := by
  have hdigit (d : Fin 10) : Nat.digitChar d.val ≠ '-' ∧
      (Verb.neighbors.options.find? fun o => o.short = some (Nat.digitChar d.val)) = none := by
    revert d
    decide
  obtain ⟨c, cs, hdigits⟩ := List.exists_cons_of_ne_nil (Nat.toDigits_ne_nil (n := n) (b := 10))
  obtain ⟨d, rfl⟩ := Text.exists_digit_of_mem_toDigits (hdigits ▸ List.mem_cons_self)
  rw [Scan.step_hyphen hliteral _ (h.trans (congrArg _ hdigits)) (hdigit d).1, Scan.short, (hdigit d).2]

theorem parse_neighbors_eq (arguments : List String) : parse ("neighbors" :: arguments) = (do
    let inner ← parseInner .neighbors arguments
    let outer ← Scan.settle {}
    invocation .neighbors outer.values inner) := rfl

theorem parse_neighbors {t : Target} {file : String} {arguments : List String}
    (h : parseInner .neighbors arguments = .ok (t.values file)) :
    parse ("neighbors" :: arguments) = .ok (t.request file) := by
  rw [parse_neighbors_eq, h]
  exact t.invocation_values file

section File

variable {t : Target} {file : String} (hempty : file ≠ "") (hfile : file.toList.head? ≠ some '-')
include hempty hfile

theorem parseInner_joined (ht : t.InRange) :
    parseInner .neighbors [file, "--" ++ t.word ++ "=" ++ t.number] = .ok (t.values file) := by
  rw [parseInner, List.foldlM_cons, step_file hfile, pure_bind]
  simp only [List.foldlM_cons, List.foldlM_nil, step_word_number ht hempty, pure_bind]
  rfl

theorem parseInner_apart (ht : t.InRange) (h : ¬t.Signed) :
    parseInner .neighbors [file, "--" ++ t.word, t.number] = .ok (t.values file) := by
  have hheld : ({ values := { file := some file }, waiting := some t.setting } : Scan).step
      Verb.neighbors.options t.number =
        pure { values := { file := some file }, held := some (.setting t.setting, t.number) } := by
    rw [Scan.step_plain rfl _ (Target.head?_number h)]
    rfl
  rw [parseInner, List.foldlM_cons, step_file hfile, pure_bind]
  simp only [List.foldlM_cons, List.foldlM_nil, step_word t hempty, pure_bind, hheld, Scan.settle,
    Target.assign_number ht]
  rfl

theorem parseInner_signed (h : t.Signed) :
    parseInner .neighbors [file, "--" ++ t.word, t.number] = .error .misuse := by
  obtain ⟨n, hnumber⟩ := Target.exists_toList_number h
  have hrejected : ({ values := { file := some file }, waiting := some t.setting } : Scan).step
      Verb.neighbors.options t.number = .error .misuse := step_sign rfl hnumber
  rw [parseInner, List.foldlM_cons, step_file hfile, pure_bind]
  simp only [List.foldlM_cons, step_word t hempty, pure_bind, hrejected]
  rfl

theorem askedFor (ht : t.InRange) : t.AskedFor file where
  joined := parse_neighbors (parseInner_joined hempty hfile ht)
  apart h := parse_neighbors (parseInner_apart hempty hfile ht h)
  signed h := by
    rw [parse_neighbors_eq, parseInner_signed hempty hfile h]
    rfl

end File

theorem Invocation.load_of_ofLines {inv : Invocation} {text : String} {g : Graph}
    (h : Graph.ofLines inv.options (Text.dumpLines text) = .ok g) :
    inv.load (some text.toUTF8) = .ok g := by
  have htext : (some text.toUTF8).bind String.fromUTF8? = some text := dif_pos text.isValidUTF8
  rw [load, htext]
  simp only [h]

theorem Invocation.run_of_load {inv : Invocation} {content : Option ByteArray} {g : Graph}
    (h : inv.load content = .ok g) (color : Bool) (input : String) :
    inv.run content color input = inv.perform g color input := by
  rw [run, h]
  rfl

end CommandLine

namespace Browser

/-- What a session replies where a command line has a result: the text, or else the error behind a mark
and nothing more. The session goes on. -/
def Echoes (b : Browser) (reply : Reply) : Except Failure String → Prop
  | .ok text => reply.text = text ∧ reply.more = true
  | .error failure => reply = { browser := b, text := "❌ " ++ failure.message ++ "\n", more := true }

theorem echoes_select {inv : Invocation} {t : Target} (hinv : inv.action = .neighbors t false)
    (g : Graph) (color : Bool) (input : String) (b : Browser) :
    b.Echoes (b.select g (inv.color && color) t) (inv.perform g color input) := by
  simp only [Invocation.perform, hinv, select]
  cases g.select t with
  | ok e => exact ⟨rfl, rfl⟩
  | error a => exact rfl

theorem run_request {t : Target} {file : String} {content : Option ByteArray} {g : Graph}
    (h : (t.request file).load content = .ok g) (color : Bool) (input : String) :
    (t.request file).run content color input = match g.select t with
      | .ok e => .ok (Report.neighborhood g color e)
      | .error a => .error (.absent a) := by
  rw [Invocation.run_of_load h]
  simp only [Invocation.perform, Target.request]
  cases g.select t with
  | ok e => rfl
  | error a => rfl

theorem execute_command {t : Target} (ht : t.InRange) (g : Graph) (color : Bool) (b : Browser) :
    b.execute g color t.command = b.select g color t := by
  simp only [execute, Target.parse_command ht, run]

theorem execute_of_select {t : Target} (ht : t.InRange) {g : Graph} {e : Element} (h : g.select t = .ok e)
    (color : Bool) (b : Browser) : (b.execute g color t.command).text = Report.neighborhood g color e ∧
      (b.execute g color t.command).more = true := by
  rw [execute_command ht, select, h]
  exact ⟨rfl, rfl⟩

/-- A session on the same graph, whatever its state, answers the command with the number of a target as the
command line does that asks for the target. -/
theorem echoes_execute {t : Target} (ht : t.InRange) :
    (∀ file, file ≠ "" → file.toList.head? ≠ some '-' → t.AskedFor file) ∧
    ∀ (inv : Invocation) content g, inv.action = .neighbors t false → inv.load content = .ok g →
      ∀ color input (b : Browser),
        b.Echoes (b.execute g (inv.color && color) t.command) (inv.run content color input) := by
  refine ⟨fun file hempty hfile => askedFor hempty hfile ht, fun inv content g hinv hload color input b => ?_⟩
  rw [Invocation.run_of_load hload, execute_command ht]
  exact echoes_select hinv g color input b

def single : String := "\x7b\"type\":\"vertex\",\"id\":-5\x7d"

theorem dumpLines_single : Text.dumpLines single = [single] := by decide +kernel

theorem exists_ofLines_single : ∃ g, Graph.ofLines {} (Text.dumpLines single) = .ok g := by
  rw [dumpLines_single]
  refine Graph.exists_ofLines ?_ ?_
  · decide +kernel
  · decide +kernel

theorem echoes_execute_last_line :
    let t : Target := .line 18446744073709551615
    t.InRange ∧ ¬t.Signed ∧
      parse ["neighbors", "dump.lsif", "--line", "18446744073709551615"] = .ok (t.request "dump.lsif") ∧
      ∃ g, (t.request "dump.lsif").load (some single.toUTF8) = .ok g ∧
        (t.request "dump.lsif").run (some single.toUTF8) true "" =
          .error (.absent (.lineOutOfRange 18446744073709551615 1)) ∧
        ∀ b : Browser, b.execute g true "line 18446744073709551615" =
          ⟨b, "❌ Line 18446744073709551615 is out of range (1 lines)\n", true⟩ := by
  intro t
  have ht : t.InRange := by
    show 18446744073709551615 < UInt64.size
    decide
  have hword : "--" ++ t.word = "--line" := by decide +kernel
  have hnumber : t.number = "18446744073709551615" := by decide +kernel
  have hcommand : t.command = "line 18446744073709551615" := by decide +kernel
  have hmessage : "❌ " ++ (Failure.absent (.lineOutOfRange 18446744073709551615 1)).message ++ "\n" =
      "❌ Line 18446744073709551615 is out of range (1 lines)\n" := by decide +kernel
  obtain ⟨hasked, hechoes⟩ := echoes_execute ht
  have hparse := (hasked "dump.lsif" (by decide) (by decide)).apart id
  rw [hword, hnumber] at hparse
  obtain ⟨g, hg⟩ := exists_ofLines_single
  have hload : (t.request "dump.lsif").load (some single.toUTF8) = .ok g := Invocation.load_of_ofLines hg
  have hselect : g.select t = .error (.lineOutOfRange 18446744073709551615 1) := by
    have hsize : g.elements.size = 1 := by
      rw [Graph.size_elements_of_ofLines hg, dumpLines_single, List.length_singleton]
    have hnone : g.find? t = none := Array.getElem?_eq_none (by omega)
    rw [Graph.select_of_find?_eq_none hnone, Graph.absence, Graph.size_lines_of_ofLines hg, hsize]
  -- for any content that has the graph, so that no step looks into the bytes of the text
  have hrun (content : Option ByteArray) (hcontent : (t.request "dump.lsif").load content = .ok g) :
      (t.request "dump.lsif").run content true "" =
        .error (.absent (.lineOutOfRange 18446744073709551615 1)) ∧
      ∀ b : Browser, b.execute g true "line 18446744073709551615" =
        ⟨b, "❌ Line 18446744073709551615 is out of range (1 lines)\n", true⟩ := by
    have hfails : (t.request "dump.lsif").run content true "" =
        .error (.absent (.lineOutOfRange 18446744073709551615 1)) := by
      rw [run_request hcontent, hselect]
    refine ⟨hfails, fun b => ?_⟩
    have hecho := hechoes _ content g rfl hcontent true "" b
    rw [hfails, hcommand] at hecho
    rw [← hmessage]
    exact hecho
  exact ⟨ht, id, hparse, g, hload, hrun _ hload⟩

/-- The id of the only record has a sign. A session shows the record, and so does a command line with the id
behind an equals sign; a command line with the id as an argument of its own is refused. -/
theorem echoes_execute_sign_apart :
    let t : Target := .id (-5)
    parse ["neighbors", "dump.lsif", "--id", "-5"] = .error .misuse ∧
      parse ["neighbors", "dump.lsif", "--id=-5"] = .ok (t.request "dump.lsif") ∧
      ∃ g e, (t.request "dump.lsif").load (some single.toUTF8) = .ok g ∧ g.select t = .ok e ∧
        (t.request "dump.lsif").run (some single.toUTF8) true "" = .ok (Report.neighborhood g true e) ∧
        ∀ b : Browser, (b.execute g true "id -5").text = Report.neighborhood g true e ∧
          (b.execute g true "id -5").more = true := by
  intro t
  have hword : "--" ++ t.word = "--id" := by decide +kernel
  have hnumber : t.number = "-5" := by decide +kernel
  have hjoined : "--" ++ t.word ++ "=" ++ t.number = "--id=-5" := by decide +kernel
  have hcommand : t.command = "id -5" := by decide +kernel
  have ht : t.InRange := trivial
  have hsigned : t.Signed := by
    show (-5 : Int64).toInt < 0
    decide
  have hasked : t.AskedFor "dump.lsif" := askedFor (by decide) (by decide) ht
  have hrefused := hasked.signed hsigned
  have hparse := hasked.joined
  rw [hword, hnumber] at hrefused
  rw [hjoined] at hparse
  obtain ⟨g, hg⟩ := exists_ofLines_single
  have hload : (t.request "dump.lsif").load (some single.toUTF8) = .ok g := Invocation.load_of_ofLines hg
  have hdecode : (Element.decode? single 0).map (fun e => (e.kind, e.id)) = some (.vertex, some (-5)) := by
    decide +kernel
  obtain ⟨e, he, hshape⟩ := Option.map_eq_some_iff.mp hdecode
  rw [Prod.mk.injEq] at hshape
  have howns : g.Owns e := by
    refine ⟨0, (Graph.element?_eq_some_iff hg 0 e).mpr ⟨single, ?_, he⟩⟩
    rw [dumpLines_single, List.getElem?_cons_zero]
  have hfound : g.find? t = some e := by
    refine (Graph.resolve?_eq_some_iff (Graph.exact_of_ofLines hg) (-5) e).mpr ⟨howns, hshape.2, fun hedge => ?_⟩
    rw [hshape.1] at hedge
    cases hedge
  have hselect := Graph.select_eq_ok_iff.mpr hfound
  have hruns : (t.request "dump.lsif").run (some single.toUTF8) true "" =
      .ok (Report.neighborhood g true e) := by
    rw [run_request hload, hselect]
  have hexecute := execute_of_select ht hselect true
  rw [hcommand] at hexecute
  exact ⟨hrefused, hparse, g, e, hload, hselect, hruns, hexecute⟩

end Browser

end Lsif
