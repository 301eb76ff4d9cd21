import Monkey.Proofs.Token.Lossless
import Monkey.Proofs.Token.Reads

/-!
# Lines below other lines

What stands in a line does not depend on the lines above it, but for a string literal that is still
open where the line begins. So lines below others have the tokens that they have by themselves, each
as much further down as there are lines above.

## Main definitions

* `Location.below`, `Span.below`, `Token.below` — the same further down.
* `Scanner.Mode.below` — a mode further down.
* `Scanner.Continues` — that a scanner goes on in code below what another one has read.
-/

namespace Monkey

/-- The location in the same column, `n` lines further down. -/
def Location.below (n : Nat) (l : Location) : Location := { l with line := l.line + n }

/-- The span `n` lines further down. -/
def Span.below (n : Nat) (s : Span) : Span := ⟨s.start.below n, s.stop.below n⟩

/-- The token `n` lines further down. -/
def Token.below (n : Nat) (t : Token) : Token := { t with span := t.span.below n }

namespace Scanner

/-- The mode `n` lines further down. -/
def Mode.below (n : Nat) : Mode → Mode
  | code => code
  | literal start text => literal (start.below n) text

/-- A line that stands further down is scanned alike. -/
theorem scan_below (n i j : Nat) (mode : Mode) (cs : List Char) :
    scan (i + n) j (mode.below n) cs =
      ((scan i j mode cs).1.map (Token.below n), (scan i j mode cs).2.below n) := by
  -- The scanner looks at characters only, so each of its steps is the same further down.
  fun_induction scan i j mode cs with
  | case1 j => exact scan_code_nil
  | case2 j c cs hsep ih => exact (scan_separator hsep).trans ih
  | case3 j cs hsep ih => exact scan_quote.trans ih
  | case4 j c cs hsep hquote token width after =>
    rename_i ih
    have hfirst : Lexeme.first c cs = (token.1, token.2.1, token.2.2) := rfl
    have hafter : scan (i + n) (j + width) .code token.2.2 = _ := ih
    refine (scan_first (Bool.eq_false_iff.mpr hsep) hquote hfirst).trans ?_
    change (_ :: (scan (i + n) (j + width) .code token.2.2).1,
      (scan (i + n) (j + width) .code token.2.2).2) = _
    rw [hafter]
    rfl
  | case5 j cs start text body =>
    rename_i hnil
    refine (scan_literal _ _ _ _ _).trans ?_
    rw [hnil]
    rfl
  | case6 j cs start text body head rest hdrop column after =>
    rename_i ih
    have hafter : scan (i + n) column .code rest = _ := ih
    refine (scan_literal _ _ _ _ _).trans ?_
    rw [hdrop]
    change (_ :: (scan (i + n) column .code rest).1, (scan (i + n) column .code rest).2) = _
    rw [hafter]
    rfl

/-- The scanner `s` has read what `top` has, and below it what `t` has. -/
structure Continues (top t s : Scanner) : Prop where
  lines : s.lines = t.lines + top.lines
  stop : t.lines ≠ 0 → s.stop = t.stop.below top.lines
  mode : s.mode = t.mode.below top.lines
  tokens : s.tokens.toList = top.tokens.toList ++ t.tokens.toList.map (Token.below top.lines)

variable {top s t : Scanner}

/-- A scanner goes on below what it has read itself, if no literal is open there. -/
theorem continues_start (h : top.mode = .code) : Continues top {} top where
  lines := (Nat.zero_add _).symm
  stop hlines := absurd rfl hlines
  mode := h
  tokens := (List.append_nil _).symm

theorem Continues.feedLine (h : Continues top t s) (line : String) :
    Continues top (t.feedLine line) (s.feedLine line) := by
  have hscan := scan_below top.lines t.lines 0 t.mode line.toList
  rw [← h.lines, ← h.mode] at hscan
  constructor
  case lines =>
    simp only [Scanner.feedLine, h.lines]
    omega
  case stop =>
    intro _
    simp only [Scanner.feedLine, h.lines, Location.below]
  case mode => simp only [Scanner.feedLine, hscan]
  case tokens =>
    simp only [Scanner.feedLine, Array.toList_appendList, hscan, h.tokens, List.map_append,
      List.append_assoc]

/-- Reading more lines, by induction on them. -/
theorem Continues.feed (h : Continues top t s) (lines : List String) :
    Continues top (t.feed lines) (s.feed lines) := by
  induction lines generalizing t s with
  | nil => exact h
  | cons line lines ih => exact ih (h.feedLine line)

/-- The tokens of what is read below are moved down. -/
theorem Continues.finish_eq (h : Continues top t s) (hlines : t.lines ≠ 0) :
    s.finish = top.tokens.toList ++ t.finish.map (Token.below top.lines) := by
  have hmark (l : Location) :
      Token.endAt (l.below top.lines) = (Token.endAt l).below top.lines := rfl
  rw [finish, finish, h.stop hlines, h.tokens, h.mode, hmark]
  cases t.mode with
  | code => simp [Mode.below]
  | literal start text => simp [Mode.below, Token.below, Span.below]

theorem lines_feed (s : Scanner) (lines : List String) :
    (s.feed lines).lines = s.lines + lines.length := by
  induction lines generalizing s with
  | nil => rfl
  | cons line lines ih =>
    change ((s.feedLine line).feed lines).lines = _
    rw [ih, List.length_cons]
    exact Nat.add_right_comm s.lines 1 lines.length

/-- If no literal is open after some lines, then the tokens of a text that goes on below them are
their own tokens without the mark of the end, and then the tokens of the other lines, moved down.
This does not depend on the portions in which any of the lines are read. -/
theorem finish_append_of_code {xs ys zs : List (List String)}
    (hzs : zs.flatten = xs.flatten ++ ys.flatten) (hys : ys.flatten ≠ [])
    (hmode : (xs.foldl feed {}).mode = .code) :
    ∃ ts l, (xs.foldl feed {}).finish = ts ++ [Token.endAt l] ∧
      (zs.foldl feed {}).finish =
        ts ++ (ys.foldl feed {}).finish.map (Token.below xs.flatten.length) := by
  rw [foldl_feed] at hmode
  have hlines : (({} : Scanner).feed ys.flatten).lines ≠ 0 := by
    rw [lines_feed]
    exact mt (Nat.eq_zero_of_add_eq_zero_left ·) (mt List.length_eq_zero_iff.mp hys)
  have hfinish := ((continues_start hmode).feed ys.flatten).finish_eq hlines
  rw [lines_feed, Nat.zero_add] at hfinish
  simp only [foldl_feed, hzs, feed_append]
  refine ⟨_, (({} : Scanner).feed xs.flatten).stop, ?_, hfinish⟩
  rw [finish, hmode, List.append_nil]

/-- A literal over two lines is closed above, and another one is opened and closed below. -/
theorem finish_append_twoLiterals :
    ∃ ts l, ([["let a = \"b"], ["c\""]].foldl feed {}).finish = ts ++ [Token.endAt l] ∧
      ([["let a = \"b", "c\"", "\"d"], ["e\" 1"]].foldl feed {}).finish =
        ts ++ ([["\"d", "e\" 1"]].foldl feed {}).finish.map (Token.below 2) := by
  have hmode : ([["let a = \"b"], ["c\""]].foldl feed {}).mode = .code := by decide +kernel
  exact finish_append_of_code rfl (List.cons_ne_nil _ _) hmode

end Scanner

end Monkey
