import Monkey.Proofs.Reader.Course

/-!
# A diagnostic for each statement that is dropped

An attempt at a statement that fails has one cause, and one that does not fail has none. Everything
else that an attempt reports is reported by attempts at statements in its blocks. So there are as
many diagnostics of a program as there are attempts that have failed, however deeply they are nested.

## Main definitions

* `Attempt.alone` — the attempt, where all attempts nested in it are silent.
* `Attempt.Nests` — the attempts that are nested in an attempt.
* `Attempt.AllOf` — all attempts that attempts come to, at every depth.
* `Attempt.Owns` — that an attempt reports what its nested attempts do and its own cause.
-/

namespace Monkey

open Reader

namespace Attempt

/-- The attempt, where the attempts nested in it report nothing. -/
def alone (a : Attempt) : Outcome Stmt := statementWith (attempted fun _ => []) a.budget a.start

/-- Whether the attempt has failed, so that there is no statement of it. -/
def isDropped (a : Attempt) : Bool :=
  match a.outcome with
  | .failed .. => true
  | _ => false

/-- These are the attempts nested directly in the attempt: whatever they are made to report is what
it reports besides what it reports alone. -/
def Nests (a : Attempt) (as : List Attempt) : Prop :=
  ∀ voice, statementWith (attempted voice) a.budget a.start = a.alone.after (as.flatMap voice)

/-- Attempts one after the other, and all attempts that they come to: after each the ones that are
nested in it. -/
inductive AllOf : List Attempt → List Attempt → Prop
  | nil : AllOf [] []
  | cons {a : Attempt} {as inner deep all : List Attempt} (hinner : a.Nests inner)
      (hdeep : AllOf inner deep) (hall : AllOf as all) : AllOf (a :: as) (a :: deep ++ all)

/-- The attempt has come to an end, and it reports what the attempts nested in it report, and then
one cause if it has failed and nothing more if it has not. -/
structure Owns (a : Attempt) (as : List Attempt) : Prop where
  ended : a.outcome ≠ .exhausted
  nests : a.Nests as
  reports : a.diagnostics = as.flatMap diagnostics ++ a.alone.diagnostics
  length_alone : a.alone.diagnostics.length = if a.isDropped then 1 else 0

/-! ## The attempts that are nested are determined -/

/-- Rows of attempts that report the same, whatever they are made to report, are the same. -/
theorem eq_of_flatMap_eq {as bs : List Attempt}
    (h : ∀ voice : Voice, as.flatMap voice = bs.flatMap voice) : as = bs := by
  classical
  induction as generalizing bs with
  | nil =>
    cases bs with
    | nil => rfl
    | cons b bs => simpa using h fun _ => [default]
  | cons a as ih =>
    cases bs with
    | nil => simpa using h fun _ => [default]
    | cons b bs =>
      by_cases hab : b = a
      · subst hab
        exact congrArg _ (ih fun voice => List.append_cancel_left (h voice))
      · have hhead := h fun x => if x = a then [⟨.noExpression .illegal, {}⟩]
          else [⟨.noExpression .endOfInput, {}⟩]
        simp [hab] at hhead

theorem Nests.unique {a : Attempt} {as bs : List Attempt} (ha : a.alone ≠ .exhausted)
    (h : a.Nests as) (h' : a.Nests bs) : as = bs :=
  eq_of_flatMap_eq fun voice => Outcome.after_inj ha ((h voice).symm.trans (h' voice))

/-! ## What an attempt reports -/

/-- All attempts in a row have come to an end. -/
theorem ended_of_attempts {c rest : Cursor} {as : List Attempt} (h : Attempts c as rest) :
    ∀ a ∈ as, a.outcome ≠ .exhausted := by
  induction h with
  | nil => simp
  | @cons n c mid rest as _ hmid _ ih =>
    refine List.forall_mem_cons.mpr ⟨fun hspent => ?_, ih⟩
    rw [show statement n c = .exhausted from hspent] at hmid
    cases hmid

theorem ended_of_path {c rest : Cursor} {as : List Attempt} (h : Path c as rest) :
    ∀ a ∈ as, a.outcome ≠ .exhausted := by
  induction h with
  | refl => simp
  | token _ _ ih => exact ih
  | block has _ _ ih => exact List.forall_mem_append.mpr ⟨ended_of_attempts has, ih⟩

theorem ended_of_course {α : Type} {c : Cursor} {as : List Attempt} {o : Outcome α}
    (h : Course c as o) (ho : o ≠ .exhausted) : ∀ a ∈ as, a.outcome ≠ .exhausted := by
  cases h with
  | done h => exact ended_of_path h
  | failed h =>
    cases h with
    | expected h => exact ended_of_path h
    | refused h => exact ended_of_path h
    | unclosed h hbs =>
      exact List.forall_mem_append.mpr ⟨ended_of_path h, ended_of_attempts hbs⟩
  | exhausted => exact absurd rfl ho

/-- An attempt that comes to an end has one cause if it has failed, and the attempts nested in it
come to an end as well. -/
theorem exists_owns (a : Attempt) (ha : a.outcome ≠ .exhausted) :
    ∃ as, a.Owns as ∧ ∀ b ∈ as, b.budget < a.budget ∧ b.outcome ≠ .exhausted := by
  obtain ⟨as, o, hcourse, hbudget, hvoice⟩ := a.exists_course
  have halone : a.alone = o := by
    rw [alone, hvoice, List.flatMap_eq_nil_iff.mpr fun _ _ => rfl, Outcome.after_nil]
  have houtcome : a.outcome = o.after (as.flatMap diagnostics) := by
    rw [outcome, ← statementWith_diagnostics, hvoice]
  have ho : o ≠ .exhausted := by
    rintro rfl
    exact ha houtcome
  refine ⟨as, ⟨ha, fun voice => by rw [hvoice, halone], ?_, ?_⟩, fun b hb =>
    ⟨hbudget b hb, ?_⟩⟩
  · rw [halone, diagnostics, houtcome, Outcome.diagnostics_after ho]
  · cases hcourse.course with
    | done h s => simp [halone, isDropped, houtcome, Outcome.diagnostics]
    | failed h => simp [halone, isDropped, houtcome, Outcome.diagnostics]
    | exhausted => exact absurd rfl ho
  · exact ended_of_course hcourse.course ho b hb

theorem Owns.alone_ne {a : Attempt} {as : List Attempt} (h : a.Owns as) :
    a.alone ≠ .exhausted := by
  intro hspent
  refine h.ended ?_
  rw [outcome, ← statementWith_diagnostics, h.nests, hspent]
  rfl

/-! ## All attempts -/

/-- Attempts that come to an end come to finitely many attempts, each of which reports its own cause
if it has failed and nothing else. The induction is on the budget, which gets smaller inside. -/
theorem exists_allOf (n : Nat) (as : List Attempt)
    (has : ∀ a ∈ as, a.budget < n ∧ a.outcome ≠ .exhausted) :
    ∃ all, AllOf as all ∧ ∀ a ∈ all, ∃ inner, a.Owns inner := by
  induction n generalizing as with
  | zero =>
    cases as with
    | nil => exact ⟨[], .nil, by simp⟩
    | cons a as => simpa using (has a List.mem_cons_self).1
  | succ n ih =>
    induction as with
    | nil => exact ⟨[], .nil, by simp⟩
    | cons a as ihas =>
      obtain ⟨⟨hbudget, hended⟩, hlater⟩ := List.forall_mem_cons.mp has
      obtain ⟨inner, howns, hinner⟩ := a.exists_owns hended
      obtain ⟨deep, hdeep, hdeepOwns⟩ := ih inner fun b hb =>
        ⟨Nat.lt_of_lt_of_le (hinner b hb).1 (Nat.le_of_lt_succ hbudget), (hinner b hb).2⟩
      obtain ⟨all, hall, hallOwns⟩ := ihas hlater
      refine ⟨a :: deep ++ all, .cons howns.nests hdeep hall, ?_⟩
      exact List.forall_mem_append.mpr
        ⟨List.forall_mem_cons.mpr ⟨⟨inner, howns⟩, hdeepOwns⟩, hallOwns⟩

/-- What attempts report is counted by the ones that have failed among all that they come to. -/
theorem AllOf.length_diagnostics {as all : List Attempt} (h : AllOf as all)
    (howns : ∀ a ∈ all, ∃ inner, a.Owns inner) :
    (as.flatMap diagnostics).length = all.countP isDropped := by
  induction h with
  | nil => rfl
  | @cons a as inner deep all hinner _ _ ihdeep ihall =>
    obtain ⟨hfirst, hlater⟩ := List.forall_mem_append.mp howns
    obtain ⟨⟨inner', ha⟩, hdeep⟩ := List.forall_mem_cons.mp hfirst
    obtain rfl := ha.nests.unique ha.alone_ne hinner
    rw [List.flatMap_cons, List.length_append, ha.reports, List.length_append, ihdeep hdeep,
      ha.length_alone, ihall hlater, List.countP_append, List.countP_cons]

end Attempt

namespace Program

/-- However a text is malformed: of all attempts at statements, at every depth, each that yields no
statement reports one diagnostic besides those of the attempts nested in it, and each that yields
one reports none. So there are as many diagnostics as attempts that have failed, and there is none
exactly if nothing was dropped. -/
theorem length_diagnostics_eq_countP_isDropped (tokens : List Token) :
    ∃ as all, Makes (Cursor.ofTokens tokens) as ∧ Attempt.AllOf as all ∧
      (∀ a ∈ all, ∃ inner, a.Owns inner) ∧
      (ofTokens tokens).2 = as.flatMap Attempt.diagnostics ∧
      (ofTokens tokens).2.length = all.countP Attempt.isDropped ∧
      ((ofTokens tokens).2 = [] ↔ ∀ a ∈ all, a.isDropped = false) := by
  obtain ⟨as, has, -, hmakes, hbudget⟩ := exists_attempts (Cursor.ofTokens tokens)
  obtain ⟨all, hall, howns⟩ := Attempt.exists_allOf _ as fun a ha =>
    ⟨hbudget a ha, Attempt.ended_of_attempts has a ha⟩
  have hreports : (ofTokens tokens).2 = as.flatMap Attempt.diagnostics := hmakes.reports_eq
  have hlength : (ofTokens tokens).2.length = all.countP Attempt.isDropped := by
    rw [hreports, hall.length_diagnostics howns]
  refine ⟨as, all, hmakes, hall, howns, hreports, hlength, ?_⟩
  rw [← List.length_eq_zero_iff, hlength, List.countP_eq_zero]
  simp

end Program

end Monkey
