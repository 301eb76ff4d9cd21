import Mathlib.Dynamics.FixedPoints.Basic
import Monkey.Proofs.Reader.Course

/-!
# How far reading goes

Past its last token a stream supplies marks of the end for ever, and reading takes such marks: one
where an operand is due, and one in each block that is not closed. But a block has been opened by a
token of its own. So from the tokens alone it can be told how many tokens and marks are taken before
reading is over, and then there is nothing more to be read.

## Main definitions

* `Cursor.drawn` — how many tokens have been drawn from the stream.
* `Cursor.Spends` — that only tokens of the stream are taken between two cursors.
* `Cursor.Overdraws` — that no more marks are taken than tokens, up to a number of them.
-/

namespace Monkey

namespace Cursor

variable {c mid rest : Cursor} {k : Nat}

/-- How many tokens have been drawn from the stream when the cursor is reached, by a reader that
keeps the next token and the one after it at hand. -/
def drawn (c : Cursor) : Nat := c.taken + 2

/-- All that is taken from the first cursor to the second are tokens of the stream. -/
structure Spends (c rest : Cursor) : Prop where
  unread : rest.unread.length ≤ c.unread.length
  tokens : rest.taken + rest.unread.length = c.taken + c.unread.length

/-- From the first cursor to the second no marks are taken while there are tokens, and at most `k`
marks more than tokens. -/
structure Overdraws (k : Nat) (c rest : Cursor) : Prop where
  unread : rest.unread.length ≤ c.unread.length
  tokens : rest.unread ≠ [] → rest.taken + rest.unread.length = c.taken + c.unread.length
  marks : rest.taken + 2 * rest.unread.length ≤ c.taken + 2 * c.unread.length + k

theorem Spends.refl (c : Cursor) : Spends c c := ⟨Nat.le_refl _, rfl⟩

theorem Spends.overdraws (h : Spends c rest) (k : Nat) : Overdraws k c rest :=
  ⟨h.unread, fun _ => h.tokens, by have := h.unread; have := h.tokens; omega⟩

theorem Spends.trans (h : Spends c mid) (h' : Overdraws k mid rest) : Overdraws k c rest := by
  obtain ⟨hunread, htokens⟩ := h
  obtain ⟨hunread', htokens', hmarks⟩ := h'
  exact ⟨by omega, fun hne => (htokens' hne).trans htokens, by omega⟩

theorem Overdraws.mono {l : Nat} (h : Overdraws k c rest) (hle : k ≤ l) : Overdraws l c rest :=
  ⟨h.unread, h.tokens, Nat.le_trans h.marks (Nat.add_le_add_left hle _)⟩

/-- A token that is no mark of the end is one of the stream. -/
theorem taken_next_of_kind (h : c.kind ≠ .endOfInput) :
    c.next.unread.length + 1 = c.unread.length := by
  have := length_unread_pos h
  rw [length_unread_next]
  omega

theorem spends_next (h : c.kind ≠ .endOfInput) : Spends c c.next := by
  have := taken_next_of_kind h
  exact ⟨by omega, by rw [taken_next]; omega⟩

/-- A token is taken, or a mark because no token is left. -/
theorem overdraws_next (c : Cursor) : Overdraws 1 c c.next := by
  refine ⟨by simp, fun hne => ?_, by simp only [taken_next, length_unread_next]; omega⟩
  have hpos : 0 < c.next.unread.length := List.length_pos_iff.mpr hne
  rw [length_unread_next] at hpos ⊢
  rw [taken_next]
  omega

end Cursor

open Cursor

/-! ## Attempts -/

/-- An attempt takes at most one mark more than tokens. -/
def Attempt.IsSparing (a : Attempt) : Prop :=
  ∀ rest, a.outcome.rest? = some rest → Overdraws 1 a.start rest

section Attempts

variable {c rest : Cursor} {as : List Attempt}

theorem kind_of_unread_nil (h : c.unread = []) : c.kind = .endOfInput := by
  simp [Cursor.kind, Cursor.head, h]

/-- A row of attempts takes no more marks than a single one: where one has been taken there are no
further attempts. -/
theorem Attempts.overdraws (h : Attempts c as rest) (has : ∀ a ∈ as, a.IsSparing) :
    Overdraws 1 c rest := by
  induction h with
  | nil c => exact (Spends.refl c).overdraws 1
  | @cons n c mid rest as _ hmid hrest ih =>
    obtain ⟨ha, has⟩ := List.forall_mem_cons.mp has
    have hfirst := ha mid hmid
    by_cases hnil : mid.unread = []
    · cases hrest with
      | nil => exact hfirst
      | cons hkind => exact absurd (kind_of_unread_nil hnil) hkind
    · exact Spends.trans ⟨hfirst.unread, hfirst.tokens hnil⟩ (ih has)

theorem Path.spends (h : Path c as rest) (has : ∀ a ∈ as, a.IsSparing) : Spends c rest := by
  induction h with
  | refl c => exact .refl c
  | token hkind _ ih =>
    obtain ⟨hunread, htokens⟩ := ih has
    have := spends_next hkind
    exact ⟨Nat.le_trans hunread this.unread, htokens.trans this.tokens⟩
  | @block c mid rest as bs hmid hclose _ ih =>
    obtain ⟨has, hbs⟩ := List.forall_mem_append.mp has
    -- the closing brace is a token of the stream, so no mark has been taken before it
    have hkind : mid.kind ≠ .endOfInput := by simp [hclose]
    have hblock := hmid.overdraws has
    have hnext := spends_next hkind
    obtain ⟨hunread, htokens⟩ := ih hbs
    have htokens' := hblock.tokens fun hnil => hkind (kind_of_unread_nil hnil)
    exact ⟨Nat.le_trans hunread (Nat.le_trans hnext.unread hblock.unread),
      htokens.trans (hnext.tokens.trans htokens')⟩

theorem Breaks.overdraws {d : Diagnostic} (h : Breaks c as d rest)
    (has : ∀ a ∈ as, a.IsSparing) : Overdraws 2 c rest := by
  cases h with
  | expected h => exact (h.spends has).overdraws 2
  | refused h => exact (h.spends has).trans ((overdraws_next _).mono (by omega))
  | @unclosed as bs mid last h hbs hend =>
    obtain ⟨has, hbs'⟩ := List.forall_mem_append.mp has
    obtain ⟨hunread, htokens, hmarks⟩ := hbs.overdraws hbs'
    obtain ⟨hunread', htokens', hmarks'⟩ := overdraws_next last
    refine (h.spends has).trans ⟨by omega, fun hne => ?_, by omega⟩
    refine (htokens' hne).trans (htokens fun hnil => hne ?_)
    rw [unread_next, hnil, List.tail_nil]

/-- The first token of a failed attempt makes up for the mark that is taken where a block ends. -/
theorem Course.Taking.overdraws {α : Type} {o : Outcome α} (h : Taking c as o)
    (has : ∀ a ∈ as, a.IsSparing) (hrest : o.rest? = some rest) : Overdraws 1 c rest := by
  cases h with
  | token hkind h =>
    have hnext := taken_next_of_kind hkind
    cases h with
    | done h a =>
      cases hrest
      exact (spends_next hkind).trans ((h.spends has).overdraws 1)
    | failed h =>
      cases hrest
      obtain ⟨hunread, htokens, hmarks⟩ := h.overdraws has
      rw [taken_next] at htokens hmarks
      exact ⟨by omega, fun hne => by have := htokens hne; omega, by omega⟩
    | exhausted => cases hrest
  | refused =>
    cases hrest
    exact overdraws_next c
  | exhausted => cases hrest

end Attempts

/-- No attempt takes more than one mark more than tokens. -/
theorem Attempt.isSparing (a : Attempt) : a.IsSparing := by
  refine Attempt.induction (fun a as o hcourse houtcome hinner rest hrest => ?_) a
  refine hcourse.overdraws hinner ?_
  rw [← hrest, houtcome, Outcome.rest?_after]

namespace Program

/-- At the end of the text there is nothing to be read. -/
theorem read_of_kind {c : Cursor} (h : c.kind = .endOfInput) : read c = ([], c, []) := by
  have hbudget : budget c = 4 * c.unread.length + 3 + 1 := by unfold budget; omega
  have hhead : c.head.kind = .endOfInput := h
  unfold read
  rw [hbudget, Reader.itemsUntilEnd]
  simp [Reader.bind_apply, Reader.peek, hhead]

/-- Reading a program comes to its end whatever the tokens are, and to the same end with every
budget that is large enough. It has then drawn at most `2 * n + 4` tokens of a stream of `n`, it
stands at a mark of the end, and however often a program is read from there, it is empty and nothing
is reported. -/
theorem read_ends (tokens : List Token) :
    ∃ program rest reports,
      (∀ n m, budget (Cursor.ofTokens tokens) ≤ n → budget (Cursor.ofTokens tokens) ≤ m →
        Reader.itemsUntilEnd (Reader.recover (statement n)) m (Cursor.ofTokens tokens) =
          .done program rest reports) ∧
      read (Cursor.ofTokens tokens) = (program, rest, reports) ∧
      rest.drawn ≤ 2 * tokens.length + 4 ∧
      rest.kind = .endOfInput ∧
      ∀ k, read ((fun c => (read c).2.1)^[k] rest) = ([], rest, []) := by
  obtain ⟨as, has, hend, -, -⟩ := exists_attempts (Cursor.ofTokens tokens)
  have hmarks := (has.overdraws fun a _ => a.isSparing).marks
  have hread := read_of_kind hend
  refine ⟨_, _, _, fun n m hn hm => itemsUntilEnd_eq_done _ hn hm, rfl, ?_, hend, fun k => ?_⟩
  · have hlength : (Cursor.ofTokens tokens).unread.length = tokens.length := rfl
    have htaken : (Cursor.ofTokens tokens).taken = 0 := rfl
    unfold drawn
    omega
  · have hfixed : Function.IsFixedPt (fun c => (read c).2.1) (read (.ofTokens tokens)).2.1 := by
      change (read _).2.1 = _
      rw [hread]
    rw [hfixed.iterate k, hread]

end Program

end Monkey
