import Monkey.Proofs.Eval.Holds
import Monkey.Session

/-!
# Sessions as machines

What is kept between programs is kept of the machine in which the last one ended. So an invariant of
machines is one of sessions: it holds at the start, where nothing is bound, and every program that
is run to its end hands it on.

## Main definitions

* `Session.Ran` — the sessions in which programs were run.
-/

namespace Monkey.Session

/-- The sessions in which programs were run one after the other, and nothing else. -/
inductive Ran : Session → Prop
  | start : Ran start
  | perform {s s' : Session} {n : Nat} {limit : Option Nat} {p : Program} {v : Value}
      {output : List String} (h : Ran s)
      (hrun : s.perform limit (evalProgram n global p) = some (v, output, s')) : Ran s'

/-- An evaluation that comes to its end leaves what is kept of the machine that it ends in. -/
theorem exists_machine_of_perform {α : Type} {s s' : Session} {limit : Option Nat} {x : Eval α}
    {a : α} {output : List String} (h : s.perform limit x = some (a, output, s')) :
    ∃ m, x (s.machine limit) = some (a, m) ∧ s' = ofMachine m := by
  rw [perform_eq_map] at h
  obtain ⟨⟨b, m⟩, hrun, heq⟩ := Option.map_eq_some_iff.mp h
  cases heq
  exact ⟨m, hrun, rfl⟩

/-- Nothing is bound at the start. -/
theorem all_start (Good : Value → Prop) (limit : Option Nat) : (start.machine limit).All Good := by
  intro f hf b hb
  simp [machine, start, Store.add] at hf
  subst hf
  simp at hb

end Monkey.Session
