import Monkey.Proofs.Eval.Limited
import Monkey.Proofs.Eval.Parallel
import Monkey.Proofs.Eval.Steps

/-!
# Calls that are made again

A call binds names in new frames only, so it leaves nothing behind that a later call could find. If
the same call is made again from where the first has ended, then it goes the same way: what it makes
has other numbers, and that is all.

## Main definitions

* `Sink.Adds` — that the same lines were added to two outputs.
* `Machine.Repeats` — that what has happened up to a machine has happened again after it.
-/

namespace Monkey

open Eval

/-- Neither output is limited, and they are two lists of lines with the same lines added to both. -/
def Sink.Adds (before before' : List String) (a b : Sink) : Prop :=
  a.limit = none ∧ b.limit = none ∧
    ∃ added, a.lines.toList = before ++ added ∧ b.lines.toList = before' ++ added

theorem Sink.together_adds (before before' : List String) : Together (Adds before before') := by
  rintro ⟨limit, lines⟩ ⟨limit', lines'⟩ ⟨rfl, rfl, added, ha, hb⟩ line
  refine .some ⟨rfl, rfl, added ++ [line], ?_, ?_⟩
  · rw [← List.append_assoc, ← ha, Array.toList_push]
  · rw [← List.append_assoc, ← hb, Array.toList_push]

/-- From `m₁` to `m₂` the same has happened as from `m` to `m₁`, but that what was made on the way
has other numbers. -/
structure Machine.Repeats (ρ : Renaming) (m m₁ m₂ : Machine) : Prop where
  /-- What had been made at first has the numbers that it had. -/
  fixes : ρ.Fixes m
  /-- What was made from `m` on has the numbers of what was made from `m₁` on. -/
  frame_add : ∀ i, ρ.frame (m.store.frames.size + i) = m₁.store.frames.size + i
  identity_add : ∀ i, ρ.identity (m.made + i) = m₁.made + i
  /-- Both times as much was made. -/
  size : ρ.frame m₁.store.frames.size = m₂.store.frames.size
  made : ρ.identity m₁.made = m₂.made
  /-- Both times no frame has changed that was there before. -/
  retains : Retains m m₁
  retains_again : Retains m₁ m₂
  /-- The frames that were made are the same. -/
  frame : ∀ ⦃i : FrameId⦄ ⦃f : Frame⦄, m₁.store.frames[i]? = some f →
    m₂.store.frames[ρ.frame i]? = some (f.rename ρ none)
  /-- Both times the same lines were printed. -/
  output : ∃ added, m₁.lines = m.lines ++ added ∧ m₂.lines = m₁.lines ++ added

/-- A machine is, up to the numbers of what is still to be made, like one that has made more and has
changed no frame. -/
theorem Machine.Grounded.renamed_shift {m m' : Machine} (hm : m.Grounded) (hgrows : m.Grows m')
    (hretains : Retains m m') {S : Sink → Sink → Prop} (hsink : S m.sink m'.sink) :
    m.Renamed (.shift m (m'.store.frames.size - m.store.frames.size) (m'.made - m.made))
      (fun _ => none) S m' where
  store := by
    refine ⟨fun k => ?_, fun i f hf => ?_, by simp, by simp⟩
    · exact (Renaming.moved_add ..).trans
        (congrArg (· + k) (Nat.add_sub_cancel' hgrows.frames))
    · have hi : i < m.store.frames.size := (Array.getElem?_eq_some_iff.mp hf).1
      rw [(Renaming.shift_fixes ..).frame i hi,
        Frame.rename_eq_self (Renaming.shift_fixes ..) hm hf]
      exact hretains hf
  made k := (Renaming.moved_add ..).trans (congrArg (· + k) (Nat.add_sub_cancel' hgrows.made))
  sink := hsink

/-- If a call of a value that the machine knows with arguments that it knows comes to an end, and no
limit is set to the output, then the same call comes to an end again from there, and it repeats what
the first has done. -/
theorem Machine.Reached.apply_again {m m₁ : Machine} {n : Nat} {f v : Value}
    {arguments : List Value} (hm : m.Reached) (hlimit : m.sink.limit = none) (hf : m.Knows f)
    (harguments : ∀ a ∈ arguments, m.Knows a) (hrun : apply n f arguments m = some (v, m₁)) :
    ∃ ρ m₂, (∀ k, n ≤ k → apply k f arguments m₁ = some (v.rename ρ, m₂)) ∧
      Repeats ρ m m₁ m₂ := by
  obtain ⟨hgrows, -, -⟩ := grounds_apply n hm.grounded hf harguments hrun
  obtain ⟨hlimit₁, -, -⟩ := cutsOff_apply n f arguments hlimit hrun
  have retains {m m' : Machine} {v : Value} (h : apply n f arguments m = some (v, m')) :
      Retains m m' := retains_applyWith (confined_evalBlock n) f arguments h
  have hsink : Sink.Adds m.lines m₁.lines m.sink m₁.sink :=
    ⟨hlimit, hlimit₁, [], (List.append_nil _).symm, (List.append_nil _).symm⟩
  have hstart := hm.grounded.renamed_shift hgrows (retains hrun) hsink
  have hfixes := Renaming.shift_fixes m (m₁.store.frames.size - m.store.frames.size)
    (m₁.made - m.made)
  generalize Renaming.shift m (m₁.store.frames.size - m.store.frames.size) (m₁.made - m.made) = ρ
    at hstart hfixes
  have hparallel := parallel_apply (Sink.together_adds _ _) n f arguments hstart
  have hself : arguments.map (Value.rename ρ) = arguments :=
    (List.map_congr_left fun a ha => Value.rename_eq_self hfixes a (harguments a ha)).trans
      (List.map_id _)
  rw [hrun, Value.rename_eq_self hfixes f hf, hself] at hparallel
  cases hagain : apply n f arguments m₁ with
  | none =>
    rw [hagain] at hparallel
    cases hparallel
  | some p =>
    obtain ⟨w, m₂⟩ := p
    rw [hagain] at hparallel
    obtain ⟨⟨rfl, hend⟩⟩ := hparallel
    refine ⟨ρ, m₂, fun k hle => outlasts_apply hle f arguments hagain, ?_⟩
    exact {
      fixes := hfixes
      frame_add := hstart.store.size
      identity_add := hstart.made
      size := hend.store.size_zero
      made := hend.made 0
      retains := retains hrun
      retains_again := retains hagain
      frame := hend.store.frame
      output := hend.sink.2.2 }

/-- A function that prints its argument and gives it back in a new array, beside a new function. -/
def pairing : Value :=
  .function 0 [⟨"x", {}⟩] [.expression (.call (.name ⟨"puts", {}⟩) [.name ⟨"x", {}⟩]),
    .expression (.array [.name ⟨"x", {}⟩, .function [] [.expression (.name ⟨"x", {}⟩)]])] 0

/-- The machine after a program that has bound the function. -/
def Machine.beforePairing : Machine :=
  { store := ⟨#[{ bindings := [("pair", pairing)] }]⟩, made := 1 }

/-- The machine after a call of the function with the argument 5. -/
def Machine.afterPairing : Machine :=
  { store := ⟨#[{ bindings := [("pair", pairing)] },
      { bindings := [("x", .integer 5)], outer := some 0 }]⟩
    sink := { lines := #["5"] }
    made := 3 }

theorem Machine.reached_beforePairing : beforePairing.Reached := by
  have hrun : evalProgram 2 0 [.binding ⟨"pair", {}⟩ (.function [⟨"x", {}⟩]
      [.expression (.call (.name ⟨"puts", {}⟩) [.name ⟨"x", {}⟩]),
        .expression (.array [.name ⟨"x", {}⟩, .function [] [.expression (.name ⟨"x", {}⟩)]])])]
      { store := (({} : Store).add none).2 } = some (.null, beforePairing) := rfl
  exact .run (.root .start) (by decide) .refl hrun

theorem Machine.apply_pairing_again :
    apply 4 pairing [.integer 5] beforePairing = some (.array 2 [.integer 5,
      .function 1 [] [.expression (.name ⟨"x", {}⟩)] 1], afterPairing) ∧
    ∃ ρ m₂, (∀ k, 4 ≤ k → apply k pairing [.integer 5] afterPairing = some
      ((Value.array 2 [.integer 5, .function 1 [] [.expression (.name ⟨"x", {}⟩)] 1]).rename ρ,
        m₂)) ∧ Repeats ρ beforePairing afterPairing m₂ := by
  have hrun : apply 4 pairing [.integer 5] beforePairing = some (.array 2 [.integer 5,
      .function 1 [] [.expression (.name ⟨"x", {}⟩)] 1], afterPairing) := by
    with_unfolding_all rfl
  have hfunction : beforePairing.Knows pairing := Value.all_function ⟨by decide, by decide⟩
  have hargument : ∀ a ∈ [Value.integer 5], beforePairing.Knows a :=
    List.forall_mem_singleton.mpr (knows_of_isPlain _ rfl)
  exact ⟨hrun, reached_beforePairing.apply_again rfl hfunction hargument hrun⟩

end Monkey
