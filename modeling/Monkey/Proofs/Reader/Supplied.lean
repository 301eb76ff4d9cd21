import Monkey.Proofs.Reader.Blame

/-!
# Marks of the end that are supplied

A stream need not end with a mark of its end. Past its last token it supplies marks for ever, each
made when it is needed, and each stands where the token drawn last stands. So there is one mark that
says no more than the stream itself when it is put behind the tokens: all that is read, and all that
is reported, is the same with it and without it.

## Main definitions

* `Token.endAfter` — the mark that is supplied after some tokens.
* `Window` — what is at hand of a stream whose tokens are drawn one by one.
-/

namespace Monkey

/-- The mark of the end that a stream supplies after these tokens. It stands where the last of them
stands, or at the start of the text if there is none. -/
def Token.endAfter (tokens : List Token) : Token :=
  ⟨.endOfInput, "", (tokens.getLast?.map (·.span)).getD {}⟩

/-- The mark after a mark is the same one. -/
theorem Token.endAfter_concat (tokens : List Token) :
    endAfter (tokens ++ [endAfter tokens]) = endAfter tokens := by
  simp [endAfter]

/-- Where the last token stands, there the marks after it stand. -/
theorem Token.span_getD_endAfter {tokens : List Token} {k : Nat} (h : tokens.length ≤ k + 1) :
    (tokens[k]?.getD (endAfter tokens)).span = (endAfter tokens).span := by
  rcases Nat.lt_or_ge k tokens.length with hlt | hle
  · obtain rfl : k = tokens.length - 1 := by omega
    rw [← List.getLast?_eq_getElem?]
    have hne : tokens ≠ [] := List.ne_nil_of_length_pos (by omega)
    simp [endAfter, List.getLast?_eq_some_getLast hne]
  · rw [List.getElem?_eq_none hle, Option.getD_none]

namespace Cursor

/-- The tokens come one after the other, and then the marks. -/
theorem head_at (tokens : List Token) (k : Nat) :
    (Cursor.at tokens k).head = tokens[k]?.getD (Token.endAfter tokens) := by
  rw [head, Cursor.at, List.head?_drop]
  rfl

/-- With the mark that is supplied put behind the tokens, the stream shows what it shows without. -/
theorem head_at_concat (tokens : List Token) (k : Nat) :
    (Cursor.at (tokens ++ [Token.endAfter tokens]) k).head = (Cursor.at tokens k).head := by
  rw [head_at, head_at, Token.endAfter_concat]
  rcases Nat.lt_trichotomy k tokens.length with hlt | rfl | hgt
  · rw [List.getElem?_append_left hlt]
  · simp
  · have hlength : (tokens ++ [Token.endAfter tokens]).length ≤ k := by
      rw [List.length_append]
      exact hgt
    rw [List.getElem?_eq_none (Nat.le_of_lt hgt), List.getElem?_eq_none hlength]

/-- As many tokens have been taken of the stream as of the one with the mark behind it. -/
def Supplies (tokens : List Token) (c d : Cursor) : Prop :=
  ∃ k, c = Cursor.at tokens k ∧ d = Cursor.at (tokens ++ [Token.endAfter tokens]) k

theorem shows_supplies (tokens : List Token) : Shows (Supplies tokens) where
  head := by
    rintro _ _ ⟨k, rfl, rfl⟩
    exact (head_at_concat tokens k).symm
  next := by
    rintro _ _ ⟨k, rfl, rfl⟩
    exact ⟨k + 1, next_at _ k, next_at _ k⟩

end Cursor

/-! ## Drawing tokens one by one -/

/-- What is at hand of a stream: the next token, the one after it, and what has not been drawn. -/
structure Window where
  current : Token
  ahead : Token
  undrawn : List Token

namespace Window

/-- Go on by one token. If there is none to be drawn, a mark of the end is made, which stands where
the token drawn last stands. -/
def advance (w : Window) : Window :=
  ⟨w.ahead, w.undrawn.head?.getD ⟨.endOfInput, "", w.ahead.span⟩, w.undrawn.tail⟩

/-- At the start two tokens are drawn, in place of blank ones. -/
def start (tokens : List Token) : Window :=
  (⟨⟨.illegal, "", {}⟩, ⟨.illegal, "", {}⟩, tokens⟩ : Window).advance.advance

/-- What is at hand at a cursor. -/
def ofCursor (c : Cursor) : Window := ⟨c.head, c.next.head, c.unread.drop 2⟩

theorem start_eq (tokens : List Token) : start tokens = ofCursor (Cursor.at tokens 0) := by
  match tokens with
  | [] | [_] | _ :: _ :: _ => rfl

/-- The mark that is made when the tokens are used up is the one that stands after all of them. -/
theorem advance_ofCursor (tokens : List Token) (k : Nat) :
    (ofCursor (Cursor.at tokens k)).advance = ofCursor (Cursor.at tokens (k + 1)) := by
  simp only [advance, ofCursor, Cursor.next_at, Cursor.head_at]
  have hdrawn : (Cursor.at tokens k).unread.drop 2 = tokens.drop (k + 2) := List.drop_drop
  have hdrawn' : (Cursor.at tokens (k + 1)).unread.drop 2 = tokens.drop (k + 3) := List.drop_drop
  rw [hdrawn, hdrawn', List.head?_drop, List.tail_drop]
  rcases Nat.lt_or_ge (k + 2) tokens.length with hlt | hle
  · rw [List.getElem?_eq_getElem hlt]
    rfl
  · have hspan := Token.span_getD_endAfter hle
    rw [hspan, List.getElem?_eq_none hle]
    rfl

/-- Tokens that are drawn one by one, with each mark made when it is needed, are those that a cursor
shows. -/
theorem iterate_advance_start (tokens : List Token) (k : Nat) :
    advance^[k] (start tokens) = ofCursor (Cursor.at tokens k) := by
  induction k with
  | zero => exact start_eq tokens
  | succ k ih => rw [Function.iterate_succ_apply', ih, advance_ofCursor]

end Window

theorem Outcome.Alike.eq_of_done {α : Type} {R : Cursor → Cursor → Prop} {a b : α} {c d : Cursor}
    {rs qs : List Diagnostic} (h : (Outcome.done a c rs).Alike R (.done b d qs)) :
    a = b ∧ rs = qs := by
  cases h
  exact ⟨rfl, rfl⟩

namespace Program

open Reader

/-- A program is read alike from two streams that show the same tokens. -/
theorem read_eq_of_shows {R : Cursor → Cursor → Prop} (hR : Cursor.Shows R) {c d : Cursor}
    (h : R c d) : (read c).1 = (read d).1 ∧ (read c).2.2 = (read d).2.2 := by
  have hc : budget c ≤ budget c + budget d := Nat.le_add_right _ _
  have hd : budget d ≤ budget c + budget d := Nat.le_add_left _ _
  have hrefl := Nat.le_refl (budget c + budget d)
  have halike := follows_program hR hrefl hrefl h
  rw [itemsUntilEnd_eq_done c hc hc, itemsUntilEnd_eq_done d hd hd] at halike
  exact halike.eq_of_done

/-- A mark of the end that is put behind the tokens of a stream, where their last stands, changes
nothing of what is read and reported. It is the mark that is made of the token at hand whenever the
tokens are used up. -/
theorem ofTokens_concat_endAfter (tokens : List Token) :
    ofTokens (tokens ++ [Token.endAfter tokens]) = ofTokens tokens ∧
      ∀ k, Window.advance^[k] (Window.start tokens) = Window.ofCursor (Cursor.at tokens k) := by
  refine ⟨?_, Window.iterate_advance_start tokens⟩
  obtain ⟨hprogram, hreports⟩ := read_eq_of_shows (Cursor.shows_supplies tokens) ⟨0, rfl, rfl⟩
  exact Prod.ext hprogram.symm hreports.symm

end Program

end Monkey
