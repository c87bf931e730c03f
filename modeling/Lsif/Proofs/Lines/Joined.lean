import Lsif.Proofs.Lines

/-! Lines joined to a content, each with an ending of its own choice. Splitting undoes joining, and no content
is anything else than its lines joined. -/

namespace Lsif.Text

/-- The content writes the lines one behind the other. A line that ends in a carriage return is not ended by
a line feed alone, which would take it away, and only a last line that holds something may have no ending. -/
inductive Joined : List String → String → Prop
  | nothing : Joined [] ""
  | unended {text : String} (hnewline : '\n' ∉ text.toList) (hempty : text ≠ "") : Joined [text] text
  | ended {text content : String} {lines : List String} (t : Terminator) (hnewline : '\n' ∉ text.toList)
      (hreturn : t = .lf → text.toList.getLast? ≠ some '\r') (h : Joined lines content) :
      Joined (text :: lines) (text ++ t.text ++ content)

theorem linesFrom_of_not_mem {text : List Char} (h : '\n' ∉ text) {current : List Char}
    (hempty : current.reverse ++ text ≠ []) :
    linesFrom #[] current text = [String.ofList (current.reverse ++ text)] := by
  induction text generalizing current with
  | nil =>
    rw [List.append_nil] at hempty ⊢
    have hcurrent : ¬current.isEmpty = true := by simpa using hempty
    rw [linesFrom, if_neg hcurrent]
    rfl
  | cons c text ih =>
    have hc : c ≠ '\n' := fun heq => h (heq ▸ List.mem_cons_self)
    have htext : '\n' ∉ text := fun hmem => h (List.mem_cons_of_mem c hmem)
    have hshift : (c :: current).reverse ++ text = current.reverse ++ c :: text := by simp
    simp only [linesFrom]
    rw [ih htext (hshift ▸ hempty), hshift]

theorem Joined.linesFrom_eq {lines : List String} {content : String} (h : Joined lines content) :
    linesFrom #[] [] content.toList = lines := by
  induction h with
  | nothing => rfl
  | @unended text hnewline hempty =>
    have hchars : [].reverse ++ text.toList ≠ [] := by simpa using hempty
    rw [linesFrom_of_not_mem hnewline hchars, List.reverse_nil, List.nil_append, String.ofList_toList]
  | @ended text content lines t hnewline hreturn _ ih =>
    have hkept : t.readBack text = text := if_neg fun hstrip => hreturn hstrip.1 hstrip.2
    rw [String.toList_append, String.toList_append, linesFrom_append_terminator t hnewline, ih, hkept]

theorem Joined.endedLine {chars : List Char} (hnewline : '\n' ∉ chars) {lines : List String}
    {content : String} (h : Joined lines content) :
    Joined (endedLine chars :: lines) (String.ofList (chars.reverse ++ '\n' :: content.toList)) := by
  unfold Text.endedLine
  split
  · rename_i rest
    have hrest : '\n' ∉ (String.ofList rest.reverse).toList := by simpa using hnewline
    have hcontent : String.ofList (('\r' :: rest).reverse ++ '\n' :: content.toList) =
        String.ofList rest.reverse ++ Terminator.crlf.text ++ content := by
      rw [← String.toList_inj]
      simp [Terminator.text]
    rw [hcontent]
    exact .ended .crlf hrest (fun hlf => by cases hlf) h
  · rename_i hreturn
    have hchars : '\n' ∉ (String.ofList chars.reverse).toList := by simpa using hnewline
    have hcontent : String.ofList (chars.reverse ++ '\n' :: content.toList) =
        String.ofList chars.reverse ++ Terminator.lf.text ++ content := by
      rw [← String.toList_inj]
      simp [Terminator.text]
    rw [hcontent]
    refine .ended .lf hchars (fun _ hlast => ?_) h
    rw [String.toList_ofList, List.getLast?_reverse, List.head?_eq_some_iff] at hlast
    obtain ⟨rest, hrest⟩ := hlast
    exact hreturn rest hrest

theorem joined_linesFrom {current : List Char} (h : '\n' ∉ current) (cs : List Char) :
    Joined (linesFrom #[] current cs) (String.ofList (current.reverse ++ cs)) := by
  induction cs generalizing current with
  | nil =>
    rw [List.append_nil]
    cases current with
    | nil => exact .nothing
    | cons c current =>
      refine .unended ?_ ?_
      · simpa [and_comm] using h
      · simp [← String.toList_inj]
  | cons c cs ih =>
    by_cases hc : c = '\n'
    · subst hc
      have hrest := (ih List.not_mem_nil).endedLine h
      rw [linesFrom, linesFrom_eq_append]
      simpa using hrest
    · have hcurrent : '\n' ∉ c :: current := by
        rw [List.mem_cons, not_or]
        exact ⟨Ne.symm hc, h⟩
      have hrest := ih hcurrent
      simp only [linesFrom]
      simpa using hrest

theorem linesFrom_eq_iff {lines : List String} {content : String} :
    linesFrom #[] [] content.toList = lines ↔ Joined lines content := by
  constructor
  · rintro rfl
    have hjoined := joined_linesFrom List.not_mem_nil content.toList
    rwa [List.reverse_nil, List.nil_append, String.ofList_toList] at hjoined
  · exact Joined.linesFrom_eq

theorem dumpLines_behind_mark (content : String) :
    dumpLines (String.singleton byteOrderMark ++ content) = linesFrom #[] [] content.toList := by
  have hchars : (String.singleton byteOrderMark ++ content).toList = byteOrderMark :: content.toList := by
    simp
  simp only [dumpLines, hchars, if_true]

/-- A content splits into the lines that it joins and into no others, behind a byte order mark and, if it does
not begin with one of its own, also without; and no line of any content holds a line feed. -/
theorem dumpLines_undoes_joining :
    (∀ lines content,
      (dumpLines (String.singleton byteOrderMark ++ content) = lines ↔ Joined lines content) ∧
      (content.toList.head? ≠ some byteOrderMark → (dumpLines content = lines ↔ Joined lines content))) ∧
    ∀ content, ∀ line ∈ dumpLines content, '\n' ∉ line.toList := by
  refine ⟨fun lines content => ⟨?_, fun hmark => ?_⟩, newline_not_mem_dumpLines⟩
  · rw [dumpLines_behind_mark, linesFrom_eq_iff]
  · rw [dumpLines_of_head? hmark, linesFrom_eq_iff]

theorem dumpLines_undoes_joining_stray_return :
    let lines := ["", "\r", "a", "\ufeff\r"]
    let content := "\n\r\r\na\r\n\ufeff\r"
    Joined lines content ∧ content.toList.head? ≠ some byteOrderMark ∧ dumpLines content = lines ∧
      dumpLines (String.singleton byteOrderMark ++ content) = lines := by
  intro lines content
  have hjoined : Joined lines content := by
    refine .ended .lf (by decide) (fun _ => by decide) (.ended .crlf (by decide) (fun h => by cases h)
      (.ended .crlf (by decide) (fun h => by cases h) (.unended (by decide) (by decide))))
  have hmark : content.toList.head? ≠ some byteOrderMark := by decide
  obtain ⟨hbehind, hplain⟩ := dumpLines_undoes_joining.1 lines content
  exact ⟨hjoined, hmark, (hplain hmark).mpr hjoined, hbehind.mpr hjoined⟩

end Lsif.Text
