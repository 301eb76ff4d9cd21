import Mathlib.Order.Defs.LinearOrder
import Monkey.Token.Scanner

/-!
# Places in a text that is given as lines

A location in a list of lines splits the text in two: what stands before it, where each line that
ended before it is followed by a newline, and what is left of its own line. A span is the text
between two locations.

## Main definitions

* `Location.before`, `Span.text` — the characters before a location, and those of a span.
* `Location.charAt?` — the character at a location.
* `Location.Faces` — what is left of the line at a location.
* `Location.endOf` — the end of the text.
-/

namespace Monkey

namespace Location

/-! ## Order

One location comes before another if its line does, or if it stands further left on the same
line. -/

instance : LT Location :=
  ⟨fun a b => a.line < b.line ∨ a.line = b.line ∧ a.column < b.column⟩

instance : LE Location :=
  ⟨fun a b => a.line < b.line ∨ a.line = b.line ∧ a.column ≤ b.column⟩

theorem lt_def {a b : Location} :
    a < b ↔ a.line < b.line ∨ a.line = b.line ∧ a.column < b.column := Iff.rfl

theorem le_def {a b : Location} :
    a ≤ b ↔ a.line < b.line ∨ a.line = b.line ∧ a.column ≤ b.column := Iff.rfl

instance : LinearOrder Location where
  le_refl a := .inr ⟨rfl, Nat.le_refl a.column⟩
  le_trans a b c h h' := by
    rw [le_def] at *
    omega
  lt_iff_le_not_ge a b := by
    rw [lt_def, le_def, le_def]
    omega
  le_antisymm a b h h' := by
    cases a
    cases b
    simp only [mk.injEq]
    simp only [le_def] at h h'
    omega
  le_total a b := by
    rw [le_def, le_def]
    omega
  toDecidableLE a b :=
    inferInstanceAs (Decidable (a.line < b.line ∨ a.line = b.line ∧ a.column ≤ b.column))

variable {l : Location}

/-- What comes before a place further on in a line comes before the line goes on, or stands on the
way. -/
theorem lt_add_iff {i j k : Nat} :
    l < ⟨i, j + k⟩ ↔ l < ⟨i, j⟩ ∨ ∃ m, m < k ∧ l = ⟨i, j + m⟩ := by
  obtain ⟨x, y⟩ := l
  simp only [lt_def, mk.injEq]
  constructor
  · intro h
    by_cases hlt : x < i ∨ x = i ∧ y < j
    · exact .inl hlt
    · exact .inr ⟨y - j, by omega, by omega, by omega⟩
  · rintro (h | ⟨m, hm, rfl, rfl⟩) <;> omega

/-! ## Text -/

variable {lines : List String}

/-- The characters of the text before a location. A line that ends before it is followed by a
newline. -/
def before (lines : List String) (l : Location) : List Char :=
  (lines.take l.line).flatMap (fun line => line.toList ++ ['\n']) ++
    (lines.getD l.line "").toList.take l.column

/-- The character at a location, unless its line is over there. -/
def charAt? (lines : List String) (l : Location) : Option Char :=
  lines[l.line]?.bind fun line => line.toList[l.column]?

/-- The location is one in a line, or the end of it. -/
def IsIn (lines : List String) (l : Location) : Prop :=
  ∃ line, lines[l.line]? = some line ∧ l.column ≤ line.length

/-- At the location, these characters are left of its line. -/
def Faces (lines : List String) (l : Location) (cs : List Char) : Prop :=
  ∃ line, lines[l.line]? = some line ∧ l.column ≤ line.length ∧ line.toList.drop l.column = cs

/-- The end of the last line, or the origin if there is no line. -/
def endOf (lines : List String) : Location :=
  ⟨lines.length - 1, (lines.getLast?.map String.length).getD 0⟩

theorem endOf_concat (lines : List String) (line : String) :
    endOf (lines ++ [line]) = ⟨lines.length, line.length⟩ := by simp [endOf]

theorem isIn_endOf (h : lines ≠ []) : (endOf lines).IsIn lines := by
  obtain ⟨front, line, rfl⟩ := List.eq_nil_or_concat lines |>.resolve_left h
  rw [List.concat_eq_append, endOf_concat]
  exact ⟨line, by simp, Nat.le_refl _⟩

theorem IsIn.le_endOf (h : l.IsIn lines) : l ≤ endOf lines := by
  obtain ⟨line, hline, hcolumn⟩ := h
  obtain ⟨hlt, hget⟩ := List.getElem?_eq_some_iff.mp hline
  rw [le_def, endOf]
  by_cases hlast : l.line = lines.length - 1
  · have : lines.getLast? = some line := by
      rw [List.getLast?_eq_getElem?, ← hlast, hline]
    simp [this, hlast, hcolumn]
  · exact .inl (by simp only; omega)

/-- A line is faced as a whole from its beginning. -/
theorem faces_start {i : Nat} {line : String} (h : lines[i]? = some line) :
    Faces lines ⟨i, 0⟩ line.toList :=
  ⟨line, h, Nat.zero_le _, rfl⟩

namespace Faces

variable {i j : Nat} {w cs : List Char} {ch : Char}

theorem isIn (h : Faces lines l cs) : l.IsIn lines := by
  obtain ⟨line, hline, hle, -⟩ := h
  exact ⟨line, hline, hle⟩

theorem length_eq (h : Faces lines ⟨i, j⟩ cs) :
    ∃ line, lines[i]? = some line ∧ line.length = j + cs.length := by
  obtain ⟨line, hline, hle, rfl⟩ := h
  refine ⟨line, hline, ?_⟩
  rw [List.length_drop, String.length_toList]
  simp only at hle ⊢
  omega

theorem charAt? (h : Faces lines ⟨i, j⟩ cs) (m : Nat) :
    Location.charAt? lines ⟨i, j + m⟩ = cs[m]? := by
  obtain ⟨line, hline, -, rfl⟩ := h
  simp only [Location.charAt?, hline, Option.bind_some, List.getElem?_drop]

/-- What is passed in a line comes before what is faced after it. -/
theorem advance (h : Faces lines ⟨i, j⟩ (w ++ cs)) :
    Faces lines ⟨i, j + w.length⟩ cs ∧
      before lines ⟨i, j + w.length⟩ = before lines ⟨i, j⟩ ++ w := by
  have hlength := h.length_eq
  obtain ⟨line, hline, hle, hdrop⟩ := h
  simp only at hdrop hline
  refine ⟨⟨line, hline, ?_, ?_⟩, ?_⟩
  · obtain ⟨line', hline', hlength⟩ := hlength
    rw [hline] at hline'
    cases hline'
    rw [List.length_append] at hlength
    simp only
    omega
  · rw [← List.drop_drop, hdrop, List.drop_left]
  · have hget : lines.getD i "" = line := by simp [List.getD, hline]
    simp only [before, hget, List.append_assoc]
    rw [List.take_add, hdrop, List.take_left]

/-- At the end of a line a newline comes before what is faced next. -/
theorem newline (h : Faces lines ⟨i, j⟩ []) :
    before lines ⟨i + 1, 0⟩ = before lines ⟨i, j⟩ ++ ['\n'] := by
  obtain ⟨line, hline, hle, hdrop⟩ := h
  simp only at hdrop hline
  have hget : lines.getD i "" = line := by simp [List.getD, hline]
  have htake : line.toList.take j = line.toList :=
    List.take_of_length_le (List.drop_eq_nil_iff.mp hdrop)
  simp only [before, hget, htake, List.take_zero, List.append_nil, List.take_add_one, hline,
    Option.toList_some, List.flatMap_append, List.flatMap_cons, List.flatMap_nil, List.append_assoc]

/-- There is no character between the end of a line and the next line. -/
theorem lt_of_charAt? (h : Faces lines ⟨i, j⟩ []) (hl : l < ⟨i + 1, 0⟩)
    (hch : Location.charAt? lines l = some ch) : l < ⟨i, j⟩ := by
  obtain ⟨line, hline, -, hnil⟩ := h
  obtain ⟨line', hline', hch⟩ := Option.bind_eq_some_iff.mp hch
  obtain ⟨hcolumn, -⟩ := List.getElem?_eq_some_iff.mp hch
  rw [lt_def] at hl ⊢
  by_cases hi : l.line = i
  · rw [hi] at hline'
    cases hline.symm.trans hline'
    have hle := List.drop_eq_nil_iff.mp hnil
    simp only at hle ⊢
    omega
  · simp only at hl ⊢
    omega

end Faces

theorem before_origin (lines : List String) : before lines ⟨0, 0⟩ = [] := by simp [before]

/-- After the last line there is a newline more than at its end. -/
theorem before_length (h : lines ≠ []) :
    before lines ⟨lines.length, 0⟩ = before lines (endOf lines) ++ ['\n'] := by
  obtain ⟨front, line, rfl⟩ := List.eq_nil_or_concat lines |>.resolve_left h
  rw [List.concat_eq_append, endOf_concat, List.length_append, List.length_singleton]
  refine Faces.newline ⟨line, by simp, Nat.le_refl _, ?_⟩
  rw [← String.length_toList, List.drop_length]

end Location

namespace Span

variable {lines : List String} {a b : Location} {w : List Char}

/-- The characters of a span, with a newline for each line that ends in it. -/
def text (lines : List String) (s : Span) : List Char :=
  (s.stop.before lines).drop (s.start.before lines).length

/-- The location lies in the span. -/
def Covers (s : Span) (l : Location) : Prop := s.start ≤ l ∧ l < s.stop

theorem exists_of_covers {l : Location} {k : Nat} (h : (ofWidth a k).Covers l) :
    ∃ m, m < k ∧ l = ⟨a.line, a.column + m⟩ :=
  (Location.lt_add_iff.mp h.2).resolve_left (not_lt_of_ge h.1)

/-- A span over what is passed in a line has it as its text. -/
theorem text_eq (h : b.before lines = a.before lines ++ w) : text lines ⟨a, b⟩ = w := by
  simp only [text, h, List.drop_left]

/-- A span that goes further has more text. -/
theorem text_append {start : Location} (hstart : text lines ⟨start, a⟩ ≠ [])
    (h : b.before lines = a.before lines ++ w) :
    text lines ⟨start, b⟩ = text lines ⟨start, a⟩ ++ w := by
  have hle : (start.before lines).length ≤ (a.before lines).length := by
    rw [← Nat.not_lt]
    intro hlt
    exact hstart (List.drop_eq_nil_of_le (Nat.le_of_lt hlt))
  simp only [text, h]
  rw [List.drop_append_of_le_length hle]

end Span

end Monkey
