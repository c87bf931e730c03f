/-! A document is a sequence of lines, each behind the ones before it and followed by a terminator.
Offsets count characters; a terminator belongs to no line. -/

namespace Lsif

inductive Terminator where
  | lf
  | crlf
deriving DecidableEq, Repr

namespace Terminator

def text : Terminator → String
  | lf => "\n"
  | crlf => "\r\n"

def width : Terminator → Nat
  | lf => 1
  | crlf => 2

@[simp] theorem length_text (t : Terminator) : t.text.length = t.width := by
  cases t <;> rfl

end Terminator

structure Line where
  text : String
  start : Nat
  length : Nat
deriving DecidableEq, Repr

namespace Line

def stop (l : Line) : Nat := l.start + l.length

def isEmpty (l : Line) : Bool := l.length = 0

def contains (l : Line) (offset : Nat) : Bool := l.start ≤ offset && offset < l.stop

def layout (width : Nat) : Nat → List String → List Line
  | _, [] => []
  | start, text :: rest =>
    { text, start, length := text.length } :: layout width (start + text.length + width) rest

def extent (width : Nat) : List String → Nat
  | [] => 0
  | text :: rest => text.length + width + extent width rest

theorem layout_append (width start : Nat) (as bs : List String) :
    layout width start (as ++ bs) =
      layout width start as ++ layout width (start + extent width as) bs := by
  induction as generalizing start with
  | nil => simp [layout, extent]
  | cons a as ih =>
    simp only [List.cons_append, layout, ih, extent]
    simp only [Nat.add_assoc]

theorem extent_append (width : Nat) (as bs : List String) :
    extent width (as ++ bs) = extent width as + extent width bs := by
  induction as with
  | nil => simp [extent]
  | cons a as ih =>
    simp only [List.cons_append, extent, ih]
    simp only [Nat.add_assoc]

@[simp] theorem map_text_layout (width start : Nat) (texts : List String) :
    (layout width start texts).map Line.text = texts := by
  induction texts generalizing start with
  | nil => rfl
  | cons a as ih => simp [layout, ih]

end Line

structure Document where
  terminator : Terminator
  lines : Array Line
  lines_eq : lines.toList = Line.layout terminator.width 0 (lines.toList.map Line.text)

namespace Document

def empty (t : Terminator) : Document := ⟨t, #[], rfl⟩

def length (d : Document) : Nat :=
  match d.lines.back? with
  | some last => last.stop + d.terminator.width
  | none => 0

theorem length_eq (d : Document) :
    d.length = Line.extent d.terminator.width (d.lines.toList.map Line.text) := by
  obtain ⟨t, lines, h⟩ := d
  obtain ⟨l⟩ := lines
  simp only at h
  rcases List.eq_nil_or_concat l with rfl | ⟨init, last, rfl⟩
  · simp [length, Line.extent]
  · rw [List.concat_eq_append, List.map_append, Line.layout_append] at h
    obtain ⟨_, hlast⟩ := List.append_inj' h (by simp [Line.layout])
    simp only [Line.layout, List.map_cons, List.map_nil, List.cons.injEq, and_true] at hlast
    have hstart := congrArg Line.start hlast
    have hlength := congrArg Line.length hlast
    simp only at hstart hlength
    simp [length, Line.stop, Line.extent, Line.extent_append] at hstart hlength ⊢
    omega

def push (d : Document) (text : String) : Document where
  terminator := d.terminator
  lines := d.lines.push { text, start := d.length, length := text.length }
  lines_eq := by
    have h := d.lines_eq
    simp [Line.layout_append, ← h, Line.layout, length_eq]

def ofTexts (t : Terminator) (texts : List String) : Document :=
  texts.foldl push (empty t)

def render (d : Document) : String :=
  d.lines.foldl (fun out line => out ++ line.text ++ d.terminator.text) ""

end Document

end Lsif
