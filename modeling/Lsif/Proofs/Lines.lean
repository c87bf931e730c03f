import Lsif.Proofs.Document
import Lsif.Text.Lines

/-! Splitting a dump into lines. No line holds a line feed, and splitting a rendered document gives its
texts back, save one carriage return that a line feed takes with it. -/

namespace Lsif.Text

theorem linesFrom_eq_append (done : Array String) (current cs : List Char) :
    linesFrom done current cs = done.toList ++ linesFrom #[] current cs := by
  induction cs generalizing done current with
  | nil =>
    simp only [linesFrom]
    split <;> simp
  | cons c cs ih =>
    by_cases hc : c = '\n'
    · subst hc
      simp only [linesFrom]
      rw [ih, ih (#[].push _)]
      simp
    · simp only [linesFrom]
      exact ih done (c :: current)

theorem linesFrom_append_newline {text : List Char} (h : '\n' ∉ text) (current rest : List Char) :
    linesFrom #[] current (text ++ '\n' :: rest) =
      endedLine (text.reverse ++ current) :: linesFrom #[] [] rest := by
  induction text generalizing current with
  | nil =>
    rw [List.nil_append, linesFrom, linesFrom_eq_append]
    rfl
  | cons c text ih =>
    have hc : c ≠ '\n' := fun heq => h (heq ▸ List.mem_cons_self)
    have htext : '\n' ∉ text := fun hmem => h (List.mem_cons_of_mem c hmem)
    simp only [List.cons_append, linesFrom]
    rw [ih htext]
    simp

theorem newline_not_mem_endedLine {chars : List Char} (h : '\n' ∉ chars) :
    '\n' ∉ (endedLine chars).toList := by
  unfold endedLine
  split <;> simp_all

theorem newline_not_mem_linesFrom {current : List Char} (h : '\n' ∉ current) (cs : List Char) :
    ∀ line ∈ linesFrom #[] current cs, '\n' ∉ line.toList := by
  induction cs generalizing current with
  | nil =>
    intro line hline
    simp only [linesFrom] at hline
    split at hline
    · cases hline
    · simp_all
  | cons c cs ih =>
    by_cases hc : c = '\n'
    · subst hc
      rw [linesFrom, linesFrom_eq_append]
      intro line hline
      obtain hline | hline := List.mem_append.mp hline
      · obtain rfl : line = endedLine current := by simpa using hline
        exact newline_not_mem_endedLine h
      · exact ih List.not_mem_nil line hline
    · simp only [linesFrom]
      refine ih fun hmem => ?_
      obtain heq | hmem := List.mem_cons.mp hmem
      · exact hc heq.symm
      · exact h hmem

theorem newline_not_mem_dumpLines (content : String) :
    ∀ line ∈ dumpLines content, '\n' ∉ line.toList := by
  unfold dumpLines
  split
  · split
    · exact newline_not_mem_linesFrom List.not_mem_nil _
    · exact newline_not_mem_linesFrom List.not_mem_nil _
  · exact newline_not_mem_linesFrom List.not_mem_nil _

theorem dumpLines_of_head? {content : String} (h : content.toList.head? ≠ some byteOrderMark) :
    dumpLines content = linesFrom #[] [] content.toList := by
  unfold dumpLines
  split
  · rename_i c rest hcontent
    have hc : c ≠ byteOrderMark := fun heq => h (by rw [hcontent, heq, List.head?_cons])
    rw [if_neg hc, lines]
  · rfl

end Lsif.Text

namespace Lsif

def Terminator.readBack (t : Terminator) (text : String) : String :=
  if t = .lf ∧ text.toList.getLast? = some '\r' then String.ofList text.toList.dropLast else text

theorem Terminator.endedLine_eq_readBack (text : String) :
    Text.endedLine text.toList.reverse = Terminator.lf.readBack text := by
  rcases List.eq_nil_or_concat text.toList with hnil | ⟨init, last, hlast⟩
  · have hempty : text = "" := by simpa using hnil
    subst hempty
    rfl
  · rw [List.concat_eq_append] at hlast
    by_cases hreturn : last = '\r'
    · subst hreturn
      simp [Terminator.readBack, hlast, Text.endedLine]
    · have htext : String.ofList (init ++ [last]) = text := by rw [← hlast, String.ofList_toList]
      simp [Terminator.readBack, hlast, Text.endedLine, hreturn, htext]

theorem Text.linesFrom_append_terminator (t : Terminator) {text : String} (h : '\n' ∉ text.toList)
    (rest : List Char) : linesFrom #[] [] (text.toList ++ t.text.toList ++ rest) =
      t.readBack text :: linesFrom #[] [] rest := by
  cases t with
  | lf =>
    have hterminator : Terminator.lf.text.toList = ['\n'] := by decide
    rw [hterminator, List.append_assoc, List.singleton_append, linesFrom_append_newline h,
      List.append_nil, Terminator.endedLine_eq_readBack]
  | crlf =>
    have hterminator : Terminator.crlf.text.toList = ['\r', '\n'] := by decide
    have hreturn : '\n' ∉ text.toList ++ ['\r'] := by simpa using h
    have hsplit : text.toList ++ ['\r', '\n'] ++ rest =
        (text.toList ++ ['\r']) ++ '\n' :: rest := by simp
    rw [hterminator, hsplit, linesFrom_append_newline hreturn]
    simp [Text.endedLine, Terminator.readBack]

theorem Text.linesFrom_flatMap (t : Terminator) {texts : List String}
    (h : ∀ text ∈ texts, '\n' ∉ text.toList) :
    linesFrom #[] [] (texts.flatMap fun text => text.toList ++ t.text.toList) =
      texts.map t.readBack := by
  induction texts with
  | nil => rfl
  | cons text rest ih =>
    rw [List.flatMap_cons, linesFrom_append_terminator t (h text List.mem_cons_self),
      ih fun other hother => h other (List.mem_cons_of_mem text hother), List.map_cons]

/-- A rendered document splits into its texts, if none of them holds a line feed and the first does not
begin with a byte order mark. -/
theorem Document.dumpLines_render (t : Terminator) {texts : List String}
    (hnewline : ∀ text ∈ texts, '\n' ∉ text.toList)
    (hmark : ∀ text ∈ texts, text.toList.head? ≠ some Text.byteOrderMark) :
    Text.dumpLines (ofTexts t texts).render = texts.map t.readBack := by
  have hrender : (ofTexts t texts).render.toList =
      texts.flatMap fun text => text.toList ++ t.text.toList := by
    rw [toList_render, map_text_ofTexts, terminator_ofTexts]
  have hhead : (ofTexts t texts).render.toList.head? ≠ some Text.byteOrderMark := by
    rw [hrender]
    cases texts with
    | nil => simp
    | cons text rest =>
      have hfirst := hmark text List.mem_cons_self
      rw [List.flatMap_cons]
      cases hchars : text.toList with
      | nil => cases t <;> simp [Terminator.text, Text.byteOrderMark]
      | cons c cs =>
        rw [hchars] at hfirst
        exact hfirst
  rw [Text.dumpLines_of_head? hhead, hrender, Text.linesFrom_flatMap t hnewline]

end Lsif
