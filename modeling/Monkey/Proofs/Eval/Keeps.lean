import Mathlib.Order.Defs.Unbundled
import Monkey.Eval.Program

/-!
# What an evaluation keeps

An evaluation keeps a relation between machines if every machine it comes to an end with stands in
the relation to the one it began with. If the relation is a preorder, the evaluations that keep it
can be put together in every way in which the evaluator puts them together.

## Main definitions

* `Eval.Keeps` — that an evaluation keeps a relation.
* `Machine.SameStore`, `Machine.Retains` — no frame has changed; or none that was there before.
* `Machine.Prints` — nothing has changed but the output.
-/

namespace Monkey

namespace Eval

variable {α β : Type} {R R' : Machine → Machine → Prop}

/-- Every machine that the evaluation ends with is related to the one that it began with. -/
def Keeps (R : Machine → Machine → Prop) (x : Eval α) : Prop :=
  ∀ ⦃m : Machine⦄ ⦃a : α⦄ ⦃m' : Machine⦄, x m = some (a, m') → R m m'

/-- Two evaluations in a row come to an end if the first does and the second does from there. -/
theorem bind_eq_some_iff {x : Eval α} {k : α → Eval β} {m m' : Machine} {b : β} :
    (x >>= k) m = some (b, m') ↔ ∃ a mid, x m = some (a, mid) ∧ k a mid = some (b, m') := by
  change (x m).bind (fun p => k p.1 p.2) = _ ↔ _
  rw [Option.bind_eq_some_iff]
  constructor
  · rintro ⟨⟨a, mid⟩, hx, hk⟩
    exact ⟨a, mid, hx, hk⟩
  · rintro ⟨a, mid, hx, hk⟩
    exact ⟨(a, mid), hx, hk⟩

/-- What comes second is run from where the first has ended. -/
theorem bind_eq_of_eq_some {x : Eval α} {k : α → Eval β} {m mid : Machine} {a : α}
    (h : x m = some (a, mid)) : (x >>= k) m = k a mid := by
  change (x m).bind (fun p => k p.1 p.2) = _
  rw [h]
  rfl

theorem Keeps.mono {x : Eval α} (h : x.Keeps R) (hle : ∀ m m', R m m' → R' m m') : x.Keeps R' :=
  fun _ _ _ hx => hle _ _ (h hx)

theorem keeps_outOfSteps : (outOfSteps : Eval α).Keeps R := by
  intro m a m' h
  simp [outOfSteps] at h

section Preorder

variable [IsPreorder Machine R]

theorem keeps_pure (a : α) : (pure a : Eval α).Keeps R := by
  intro m b m' h
  obtain ⟨rfl, rfl⟩ := Prod.mk.inj (Option.some.inj h)
  exact refl_of R m

theorem keeps_get : (get : Eval Machine).Keeps R := by
  intro m b m' h
  obtain ⟨rfl, rfl⟩ := Prod.mk.inj (Option.some.inj h)
  exact refl_of R m

theorem Keeps.bind {x : Eval α} {k : α → Eval β} (hx : x.Keeps R) (hk : ∀ a, (k a).Keeps R) :
    (x >>= k).Keeps R := by
  intro m b m' h
  obtain ⟨a, mid, hfirst, hsecond⟩ := bind_eq_some_iff.mp h
  exact trans_of R (hx hfirst) (hk a hsecond)

theorem keeps_fault (f : Fault) : (fault f).Keeps R := keeps_pure _

theorem Keeps.andThen {x : Eval Value} {k : Value → Eval Value} (hx : x.Keeps R)
    (hk : ∀ v, (k v).Keeps R) : (andThen x k).Keeps R := by
  refine hx.bind fun v => ?_
  split
  · exact keeps_pure v
  · exact hk v

theorem keeps_withValues {run : Expr → Eval Value} {k : List Value → Eval Value} {es : List Expr}
    (hrun : ∀ e ∈ es, (run e).Keeps R) (hk : ∀ vs, (k vs).Keeps R) :
    (withValues run es k).Keeps R := by
  induction es generalizing k with
  | nil => exact hk []
  | cons e es ih =>
    have hes : ∀ e' ∈ es, (run e').Keeps R := fun e' he' => hrun e' (List.mem_cons_of_mem e he')
    exact (hrun e List.mem_cons_self).andThen fun v => ih hes fun vs => hk (v :: vs)

theorem keeps_withEntries {run : Expr → Eval Value} {k : Entries Value → Eval Value}
    {pairs : List (Expr × Expr)} (hkey : ∀ p ∈ pairs, (run p.1).Keeps R)
    (hvalue : ∀ p ∈ pairs, (run p.2).Keeps R) (hk : ∀ es, (k es).Keeps R)
    (entries : Entries Value) : (withEntries run entries pairs k).Keeps R := by
  induction pairs generalizing entries with
  | nil => exact hk entries
  | cons p pairs ih =>
    refine (hkey p List.mem_cons_self).andThen fun v => ?_
    split
    · exact keeps_fault _
    · next key _ =>
      have hkey' : ∀ q ∈ pairs, (run q.1).Keeps R := fun q hq =>
        hkey q (List.mem_cons_of_mem p hq)
      have hvalue' : ∀ q ∈ pairs, (run q.2).Keeps R := fun q hq =>
        hvalue q (List.mem_cons_of_mem p hq)
      exact (hvalue p List.mem_cons_self).andThen fun w => ih hkey' hvalue' _

theorem keeps_sequence {run : Stmt → Eval Value} {ss : List Stmt}
    (hrun : ∀ s ∈ ss, (run s).Keeps R) (last : Value) : (sequence run last ss).Keeps R := by
  induction ss generalizing last with
  | nil => exact keeps_pure last
  | cons s ss ih =>
    refine (hrun s List.mem_cons_self).bind fun v => ?_
    split
    · exact keeps_pure v
    · exact ih (fun s' hs' => hrun s' (List.mem_cons_of_mem s hs')) v

end Preorder

end Eval

/-! ## Evaluations that leave frames alone -/

namespace Machine

/-- The two machines have the same frames. -/
def SameStore (m m' : Machine) : Prop := m'.store = m.store

instance : IsPreorder Machine SameStore where
  refl _ := rfl
  trans _ _ _ h h' := Eq.trans h' h

/-- Every frame of the first machine is one of the second, and nothing in it has changed. -/
def Retains (m m' : Machine) : Prop :=
  ∀ ⦃i : FrameId⦄ ⦃f : Frame⦄, m.store.frames[i]? = some f → m'.store.frames[i]? = some f

instance : IsPreorder Machine Retains where
  refl _ _ _ h := h
  trans _ _ _ h h' _ _ hf := h' (h hf)

/-- At most something has been printed. -/
structure Prints (m m' : Machine) : Prop where
  store : m'.store = m.store
  made : m'.made = m.made

instance : IsPreorder Machine Prints where
  refl _ := ⟨rfl, rfl⟩
  trans _ _ _ h h' := ⟨h'.store.trans h.store, h'.made.trans h.made⟩

theorem SameStore.retains {m m' : Machine} (h : SameStore m m') : Retains m m' := by
  intro i f hf
  rw [SameStore] at h
  rwa [h]

end Machine

namespace Eval

open Machine

theorem sameStore_lookUp (frame : FrameId) (name : String) :
    (lookUp frame name).Keeps SameStore := by
  refine keeps_get.bind fun m => ?_
  split
  · exact keeps_pure _
  · split
    · exact keeps_pure _
    · exact keeps_fault _

theorem sameStore_freshIdentity : freshIdentity.Keeps SameStore := by
  intro m id m' h
  obtain ⟨-, rfl⟩ := Prod.mk.inj (Option.some.inj h)
  rfl

theorem sameStore_newArray (elements : List Value) : (newArray elements).Keeps SameStore :=
  sameStore_freshIdentity.bind fun _ => keeps_pure _

theorem prints_print (line : String) : (print line).Keeps Prints := by
  intro m b m' h
  have hprint := Option.some.inj h
  dsimp only at hprint
  split at hprint <;>
    · obtain ⟨-, rfl⟩ := Prod.mk.inj hprint
      exact ⟨rfl, rfl⟩

theorem sameStore_print (line : String) : (print line).Keeps SameStore :=
  (prints_print line).mono fun _ _ h => h.store

theorem sameStore_printAll (vs : List Value) : (printAll vs).Keeps SameStore := by
  induction vs with
  | nil => exact keeps_pure _
  | cons v vs ih =>
    refine (sameStore_print v.render).bind fun ok => ?_
    split
    · exact ih
    · exact keeps_fault _

theorem sameStore_onArray (b : Builtin) (v : Value) {k : List Value → Eval Value}
    (hk : ∀ vs, (k vs).Keeps SameStore) : (b.onArray v k).Keeps SameStore := by
  cases v with
  | array id elements => exact hk elements
  | _ => exact keeps_fault _

theorem sameStore_tail (vs : List Value) : (tail vs).Keeps SameStore := by
  cases vs with
  | nil => exact keeps_pure _
  | cons v vs => exact sameStore_newArray vs

/-- A builtin may print and make arrays, but it binds no name. -/
theorem sameStore_call (b : Builtin) (arguments : List Value) :
    (b.call arguments).Keeps SameStore := by
  unfold Builtin.call
  split
  · exact keeps_pure _
  · exact sameStore_onArray _ _ fun _ => keeps_pure _
  · exact sameStore_onArray _ _ fun _ => keeps_pure _
  · exact sameStore_onArray _ _ sameStore_tail
  · exact sameStore_onArray _ _ fun _ => sameStore_newArray _
  · exact sameStore_printAll _
  · exact keeps_fault _
  · exact keeps_fault _

end Eval

end Monkey
