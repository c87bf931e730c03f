import Lsif.Document.Lookup
import Lsif.Proofs.Text

/-! A document keeps the texts that it is made of, in order, and its rendering is these texts, each
with its terminator. -/

namespace Lsif.Document

theorem terminator_foldl_push (d : Document) (texts : List String) :
    (texts.foldl push d).terminator = d.terminator := by
  induction texts generalizing d with
  | nil => rfl
  | cons text rest ih => exact ih (d.push text)

theorem map_text_foldl_push (d : Document) (texts : List String) :
    (texts.foldl push d).lines.toList.map Line.text = d.lines.toList.map Line.text ++ texts := by
  induction texts generalizing d with
  | nil => simp
  | cons text rest ih =>
    rw [List.foldl_cons, ih]
    simp [push]

@[simp] theorem terminator_ofTexts (t : Terminator) (texts : List String) :
    (ofTexts t texts).terminator = t := terminator_foldl_push (empty t) texts

@[simp] theorem map_text_ofTexts (t : Terminator) (texts : List String) :
    (ofTexts t texts).lines.toList.map Line.text = texts := map_text_foldl_push (empty t) texts

@[simp] theorem size_lines_ofTexts (t : Terminator) (texts : List String) :
    (ofTexts t texts).lines.size = texts.length := by
  have h := congrArg List.length (map_text_ofTexts t texts)
  rwa [List.length_map, Array.length_toList] at h

@[simp] theorem lineText?_ofTexts (t : Terminator) (texts : List String) (i : Nat) :
    (ofTexts t texts).lineText? i = texts[i]? := by
  have h := congrArg (fun texts => texts[i]?) (map_text_ofTexts t texts)
  simpa only [List.getElem?_map, Array.getElem?_toList, lineText?] using h

theorem toList_lines_ofTexts (t : Terminator) (texts : List String) :
    (ofTexts t texts).lines.toList = Line.layout t.width 0 texts := by
  have h := (ofTexts t texts).lines_eq
  rwa [map_text_ofTexts, terminator_ofTexts] at h

theorem toList_render (d : Document) : d.render.toList =
    (d.lines.toList.map Line.text).flatMap fun text =>
      text.toList ++ d.terminator.text.toList := by
  have hline (out : String) (line : Line) :
      (out ++ line.text ++ d.terminator.text).toList =
        out.toList ++ (line.text.toList ++ d.terminator.text.toList) := by
    simp only [String.toList_append, List.append_assoc]
  rw [render, ← Array.foldl_toList, Text.toList_foldl hline, List.flatMap_map]
  rfl

end Lsif.Document
