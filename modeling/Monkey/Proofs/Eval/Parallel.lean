import Monkey.Proofs.Eval.Renaming

/-!
# Runs in parallel

One machine may be another with its frames and identities renamed, and with frames besides them that
no program can get at. If the same text is run on both, then each step of the one run is a step of
the other: either both are cut off, or they come to the same value, renamed, and again to machines
of which one is the other, renamed.

## Main definitions

* `Store.Renamed`, `Machine.Renamed` — that a store, or a machine, is another one renamed.
* `Sink.Together` — that two outputs which are printed to together stay related.
* `Eval.Parallel` — that two evaluations run in parallel.
-/

namespace Monkey

open Eval

/-! ## Stores -/

/-- Every frame of the first store is in the second one, renamed, and so will be those to come.
Where nothing encloses a frame, an idle frame may enclose the renamed one: nothing is bound in that,
nothing encloses it, and no frame is renamed to it. -/
structure Store.Renamed (ρ : Renaming) (idle : FrameId → Option FrameId) (s s' : Store) :
    Prop where
  size : ∀ k, ρ.frame (s.frames.size + k) = s'.frames.size + k
  frame : ∀ ⦃i : FrameId⦄ ⦃f : Frame⦄, s.frames[i]? = some f →
    s'.frames[ρ.frame i]? = some (f.rename ρ (idle i))
  empty : ∀ i, ∀ g ∈ idle i, s'.frames[g]? = some {}
  ne : ∀ i, ∀ g ∈ idle i, ∀ j, ρ.frame j ≠ g

namespace Store

variable {ρ : Renaming} {idle : FrameId → Option FrameId} {s s' : Store}

/-- What a name means is read from the frame, and otherwise from the older one that encloses it. -/
theorem get?_eq (s : Store) (id : FrameId) (name : String) :
    s.get? id name = (s.frames[id]?).bind fun f => (f.bindings.find? name).or
      (f.outer.bind fun o => if o < id then s.get? o name else none) := by
  unfold get?
  rw [chain]
  cases hf : s.frames[id]? with
  | none => rfl
  | some f =>
    cases houter : f.outer with
    | none => cases hfind : f.bindings.find? name <;> simp [hfind, houter]
    | some o =>
      by_cases hlt : o < id <;> cases hfind : f.bindings.find? name <;>
        simp [hfind, houter, hlt]

namespace Renamed

theorem size_zero (h : s.Renamed ρ idle s') : ρ.frame s.frames.size = s'.frames.size := h.size 0

theorem getElem?_eq_none (h : s.Renamed ρ idle s') {i : FrameId} (hi : s.frames[i]? = none) :
    s'.frames[ρ.frame i]? = none := by
  obtain ⟨k, rfl⟩ := Nat.exists_eq_add_of_le (Array.getElem?_eq_none_iff.mp hi)
  rw [h.size]
  exact Array.getElem?_eq_none_iff.mpr (Nat.le_add_right _ k)

/-- Names mean the same in frames that are renamed. The induction is on the number of the frame,
which is larger than that of the frame that encloses it. -/
theorem get?_eq (h : s.Renamed ρ idle s') (id : FrameId) (name : String) :
    s'.get? (ρ.frame id) name = (s.get? id name).map (Value.rename ρ) := by
  induction id using Nat.strongRecOn with
  | ind id ih =>
    rw [Store.get?_eq s', Store.get?_eq s]
    cases hf : s.frames[id]? with
    | none => rw [h.getElem?_eq_none hf]; rfl
    | some f =>
      simp only [h.frame hf, Option.bind_some, Frame.rename, Bindings.find?_rename]
      cases f.bindings.find? name with
      | some v => rfl
      | none =>
        simp only [Option.map_none, Option.none_or]
        cases f.outer with
        | none =>
          cases hidle : idle id with
          | none => rfl
          | some g => simp [Store.get?_eq s' g, h.empty id g hidle]
        | some o =>
          simp only [Option.map_some, Option.some_or, Option.bind_some, ρ.frame_lt_iff]
          split
          · next hlt => exact ih o hlt
          · rfl

theorem set (h : s.Renamed ρ idle s') (id : FrameId) (name : String) (v : Value) :
    (s.set id name v).Renamed ρ idle (s'.set (ρ.frame id) name (v.rename ρ)) := by
  refine ⟨fun k => by rw [size_set, size_set]; exact h.size k, fun i f hf => ?_, ?_, h.ne⟩
  · rw [getElem?_set] at hf
    split at hf
    · next heq =>
      subst heq
      obtain ⟨f₀, hf₀, rfl⟩ := Option.map_eq_some_iff.mp hf
      rw [getElem?_set, if_pos rfl, h.frame hf₀, ← Frame.set_rename]
      rfl
    · next hne => rw [getElem?_set, if_neg fun heq => hne (ρ.frame_inj heq), h.frame hf]
  · intro i g hg
    rw [getElem?_set, if_neg (h.ne i g hg id), h.empty i g hg]

theorem setAll (h : s.Renamed ρ idle s') (id : FrameId) (bs : Bindings) :
    (s.setAll id bs).Renamed ρ idle (s'.setAll (ρ.frame id) (bs.rename ρ)) := by
  induction bs generalizing s s' with
  | nil => exact h
  | cons b bs ih => exact ih (h.set id b.1 b.2)

theorem add (h : s.Renamed ρ idle s') (outer : FrameId) :
    (s.add (some outer)).2.Renamed ρ idle (s'.add (some (ρ.frame outer))).2 := by
  have hold {i : FrameId} {f : Frame} (hf : s'.frames[i]? = some f) :
      (s'.add (some (ρ.frame outer))).2.frames[i]? = some f := by
    rw [getElem?_add _ _ (Array.getElem?_eq_some_iff.mp hf).1, hf]
  refine ⟨fun k => ?_, fun i f hf => ?_, fun i g hg => hold (h.empty i g hg), h.ne⟩
  · rw [size_add, size_add, Nat.add_assoc, Nat.add_assoc]
    exact h.size (1 + k)
  · rw [Store.add, Array.getElem?_push] at hf
    split at hf
    · next heq =>
      cases hf
      rw [heq, h.size_zero, Store.add, Array.getElem?_push_size]
      rfl
    · exact hold (h.frame hf)

end Renamed

end Store

/-! ## Machines -/

/-- Outputs in the relation either both accept a line, and are in the relation then, or both do
not. -/
def Sink.Together (S : Sink → Sink → Prop) : Prop :=
  ∀ ⦃a b⦄, S a b → ∀ line, Option.Rel S (a.print? line) (b.print? line)

/-- The second machine is the first renamed, and their outputs are related. -/
structure Machine.Renamed (ρ : Renaming) (idle : FrameId → Option FrameId) (S : Sink → Sink → Prop)
    (m m' : Machine) : Prop where
  store : m.store.Renamed ρ idle m'.store
  made : ∀ k, ρ.identity (m.made + k) = m'.made + k
  sink : S m.sink m'.sink

/-! ## Evaluations -/

namespace Eval

variable {α β γ δ : Type} {R : Machine → Machine → Prop} {g : α → β} {h : γ → δ}

/-- From related machines on, either both evaluations are cut off, or both end, in related machines,
and the outcome of the first makes that of the second. -/
def Parallel (R : Machine → Machine → Prop) (g : α → β) (x : Eval α) (y : Eval β) : Prop :=
  ∀ ⦃m m'⦄, R m m' → Option.Rel (fun p q => q.1 = g p.1 ∧ R p.2 q.2) (x m) (y m')

theorem parallel_outOfSteps : Parallel R g outOfSteps outOfSteps := fun _ _ _ => .none

theorem parallel_pure {a : α} {b : β} (heq : b = g a) : Parallel R g (pure a) (pure b) :=
  fun _ _ hm => .some ⟨heq, hm⟩

theorem Parallel.bind {x : Eval α} {y : Eval β} {k : α → Eval γ} {l : β → Eval δ}
    (hx : Parallel R g x y) (hk : ∀ a, Parallel R h (k a) (l (g a))) :
    Parallel R h (x >>= k) (y >>= l) := by
  intro m m' hm
  have hfirst := hx hm
  change Option.Rel _ ((x m).bind fun p => k p.1 p.2) ((y m').bind fun q => l q.1 q.2)
  generalize x m = o, y m' = o' at hfirst ⊢
  cases hfirst with
  | none => exact .none
  | @some p q hpq =>
    obtain ⟨hvalue, hmachine⟩ := hpq
    rw [Option.bind_some, Option.bind_some, hvalue]
    exact hk p.1 hmachine

section Values

variable {ρ : Renaming}

theorem parallel_fault (f : Fault) : Parallel R (Value.rename ρ) (fault f) (fault f) :=
  parallel_pure (Value.rename_error f).symm

theorem parallel_null : Parallel R (Value.rename ρ) (pure .null) (pure .null) :=
  parallel_pure Value.rename_null.symm

theorem Parallel.andThen {x y : Eval Value} {k l : Value → Eval Value}
    (hx : Parallel R (Value.rename ρ) x y)
    (hk : ∀ v, Parallel R (Value.rename ρ) (k v) (l (v.rename ρ))) :
    Parallel R (Value.rename ρ) (andThen x k) (andThen y l) := by
  refine hx.bind fun v => ?_
  rw [Value.isError_rename]
  split
  · exact parallel_pure rfl
  · exact hk v

theorem parallel_withValues {run run' : Expr → Eval Value} {es : List Expr}
    {k l : List Value → Eval Value} (hrun : ∀ e, Parallel R (Value.rename ρ) (run e) (run' e))
    (hk : ∀ vs, Parallel R (Value.rename ρ) (k vs) (l (vs.map (Value.rename ρ)))) :
    Parallel R (Value.rename ρ) (withValues run es k) (withValues run' es l) := by
  induction es generalizing k l with
  | nil => exact hk []
  | cons e es ih => exact (hrun e).andThen fun v => ih fun vs => hk (v :: vs)

theorem parallel_withEntries {run run' : Expr → Eval Value} {pairs : List (Expr × Expr)}
    {k l : Entries Value → Eval Value} (hrun : ∀ e, Parallel R (Value.rename ρ) (run e) (run' e))
    (entries : Entries Value)
    (hk : ∀ entries : Entries Value, Parallel R (Value.rename ρ) (k entries)
      (l (entries.map fun e => (e.1, e.2.rename ρ)))) :
    Parallel R (Value.rename ρ) (withEntries run entries pairs k)
      (withEntries run' (entries.map fun e => (e.1, e.2.rename ρ)) pairs l) := by
  induction pairs generalizing entries with
  | nil => exact hk entries
  | cons p pairs ih =>
    refine (hrun p.1).andThen fun v => ?_
    rw [Value.key?_rename, Value.kind_rename]
    cases v.key? with
    | none => exact parallel_fault _
    | some key =>
      refine (hrun p.2).andThen fun w => ?_
      rw [Entries.insert_rename]
      exact ih _

theorem parallel_sequence {run run' : Stmt → Eval Value}
    (hrun : ∀ s, Parallel R (Value.rename ρ) (run s) (run' s)) (last : Value) (ss : List Stmt) :
    Parallel R (Value.rename ρ) (sequence run last ss) (sequence run' (last.rename ρ) ss) := by
  induction ss generalizing last with
  | nil => exact parallel_pure rfl
  | cons s ss ih =>
    refine (hrun s).bind fun v => ?_
    rw [Value.stops_rename]
    split
    · exact parallel_pure rfl
    · exact ih v

theorem parallel_block {run run' : Stmt → Eval Value} {body : Block}
    (hrun : ∀ s, Parallel R (Value.rename ρ) (run s) (run' s)) :
    Parallel R (Value.rename ρ) (sequence run .null body) (sequence run' .null body) := by
  have h := parallel_sequence hrun .null body
  rwa [Value.rename_null] at h

end Values

/-! ## Steps -/

section Steps

variable {ρ : Renaming} {idle : FrameId → Option FrameId} {S : Sink → Sink → Prop}

theorem parallel_freshIdentity :
    Parallel (Machine.Renamed ρ idle S) ρ.identity freshIdentity freshIdentity := by
  intro m m' hm
  refine .some ⟨(hm.made 0).symm, hm.store, fun k => ?_, hm.sink⟩
  rw [Nat.add_assoc, Nat.add_assoc]
  exact hm.made (1 + k)

theorem parallel_newArray (vs : List Value) :
    Parallel (Machine.Renamed ρ idle S) (Value.rename ρ) (newArray vs)
      (newArray (vs.map (Value.rename ρ))) :=
  parallel_freshIdentity.bind fun id => parallel_pure (Value.rename_array id vs).symm

theorem parallel_lookUp (here : FrameId) (name : String) :
    Parallel (Machine.Renamed ρ idle S) (Value.rename ρ) (lookUp here name)
      (lookUp (ρ.frame here) name) := by
  intro m m' hm
  rw [lookUp_apply, lookUp_apply]
  refine .some ⟨?_, hm⟩
  unfold lookedUp
  rw [hm.store.get?_eq]
  cases m.store.get? here name with
  | some v => rfl
  | none => cases Builtin.ofName? name <;> rfl

theorem parallel_assign (here : FrameId) (name : String) (v : Value) :
    Parallel (Machine.Renamed ρ idle S) id (assign here name v)
      (assign (ρ.frame here) name (v.rename ρ)) :=
  fun _ _ hm => .some ⟨rfl, hm.store.set here name v, hm.made, hm.sink⟩

theorem parallel_enter (outer : FrameId) (bindings : Bindings) :
    Parallel (Machine.Renamed ρ idle S) ρ.frame (enter outer bindings)
      (enter (ρ.frame outer) (bindings.rename ρ)) := by
  intro m m' hm
  have hinner := hm.store.size_zero
  have hstore := (hm.store.add outer).setAll m.store.frames.size bindings
  rw [hinner] at hstore
  exact .some ⟨hinner.symm, hstore, hm.made, hm.sink⟩

theorem parallel_print (hS : Sink.Together S) (line : String) :
    Parallel (Machine.Renamed ρ idle S) id (print line) (print line) := by
  intro m m' hm
  have hprint := hS hm.sink line
  refine .some ?_
  simp only
  generalize m.sink.print? line = o, m'.sink.print? line = o' at hprint
  cases hprint with
  | none => exact ⟨rfl, hm⟩
  | some hsink => exact ⟨rfl, hm.store, hm.made, hsink⟩

/-! ## Calls -/

theorem parallel_printAll (hS : Sink.Together S) (vs : List Value) :
    Parallel (Machine.Renamed ρ idle S) (Value.rename ρ) (printAll vs)
      (printAll (vs.map (Value.rename ρ))) := by
  induction vs with
  | nil => exact parallel_null
  | cons v vs ih =>
    rw [List.map_cons, printAll, printAll, Value.render_rename]
    refine (parallel_print hS v.render).bind fun ok => ?_
    cases ok with
    | true => exact ih
    | false => exact parallel_fault _

theorem parallel_onArray (b : Builtin) (v : Value) {k l : List Value → Eval Value}
    (hk : ∀ vs, Parallel (Machine.Renamed ρ idle S) (Value.rename ρ) (k vs)
      (l (vs.map (Value.rename ρ)))) :
    Parallel (Machine.Renamed ρ idle S) (Value.rename ρ) (b.onArray v k)
      (b.onArray (v.rename ρ) l) := by
  cases v with
  | array id vs =>
    rw [Value.rename_array]
    exact hk vs
  | _ => exact parallel_fault _

theorem parallel_tail (vs : List Value) :
    Parallel (Machine.Renamed ρ idle S) (Value.rename ρ) (tail vs)
      (tail (vs.map (Value.rename ρ))) := by
  cases vs with
  | nil => exact parallel_null
  | cons v vs => exact parallel_newArray vs

/-- A builtin does not look at numbers. The cases are the builtins, by how many arguments they are
given. -/
theorem parallel_call (hS : Sink.Together S) (b : Builtin) (arguments : List Value) :
    Parallel (Machine.Renamed ρ idle S) (Value.rename ρ) (b.call arguments)
      (b.call (arguments.map (Value.rename ρ))) := by
  have arity (want : Nat) : Parallel (Machine.Renamed ρ idle S) (Value.rename ρ)
      (fault (.builtinArity b want arguments.length))
      (fault (.builtinArity b want (arguments.map (Value.rename ρ)).length)) := by
    rw [List.length_map]
    exact parallel_fault _
  cases b with
  | len =>
    rcases arguments with _ | ⟨v, _ | ⟨w, others⟩⟩
    · exact arity 1
    · exact parallel_pure (Value.length_rename v)
    · exact arity 1
  | first =>
    rcases arguments with _ | ⟨v, _ | ⟨w, others⟩⟩
    · exact arity 1
    · refine parallel_onArray _ v fun vs => ?_
      exact parallel_pure (by rw [List.head?_map, Value.getD_null_rename])
    · exact arity 1
  | last =>
    rcases arguments with _ | ⟨v, _ | ⟨w, others⟩⟩
    · exact arity 1
    · refine parallel_onArray _ v fun vs => ?_
      exact parallel_pure (by rw [List.getLast?_map, Value.getD_null_rename])
    · exact arity 1
  | rest =>
    rcases arguments with _ | ⟨v, _ | ⟨w, others⟩⟩
    · exact arity 1
    · exact parallel_onArray _ v parallel_tail
    · exact arity 1
  | push =>
    rcases arguments with _ | ⟨v, _ | ⟨w, _ | ⟨u, others⟩⟩⟩
    · exact arity 2
    · exact arity 2
    · refine parallel_onArray _ v fun vs => ?_
      have happend :
          vs.map (Value.rename ρ) ++ [w.rename ρ] = (vs ++ [w]).map (Value.rename ρ) := by
        rw [List.map_append, List.map_singleton]
      rw [happend]
      exact parallel_newArray (vs ++ [w])
    · exact arity 2
  | puts => exact parallel_printAll hS arguments

theorem parallel_applyWith {run run' : FrameId → Block → Eval Value} (hS : Sink.Together S)
    (hrun : ∀ here body, Parallel (Machine.Renamed ρ idle S) (Value.rename ρ) (run here body)
      (run' (ρ.frame here) body)) (f : Value) (arguments : List Value) :
    Parallel (Machine.Renamed ρ idle S) (Value.rename ρ) (applyWith run f arguments)
      (applyWith run' (f.rename ρ) (arguments.map (Value.rename ρ))) := by
  cases f with
  | function id parameters body frame =>
    rw [Value.rename_function, applyWith, applyWith, List.length_map]
    split
    · have hzip : (parameters.map (·.text)).zip (arguments.map (Value.rename ρ)) =
          Bindings.rename ρ ((parameters.map (·.text)).zip arguments) := List.zip_map_right
      rw [hzip]
      refine (parallel_enter frame _).bind fun inner => (hrun inner body).bind fun v => ?_
      exact parallel_pure (Value.arrive_rename v)
    · exact parallel_fault _
  | builtin b => exact parallel_call hS b arguments
  | _ => exact parallel_fault _

/-! ## Programs -/

/-- The same text runs in parallel on a machine and on the machine renamed. The induction is on the
number of steps, over all texts and all frames at once. -/
theorem parallel_evalExpr_evalStmt (hS : Sink.Together S) (n : Nat) :
    (∀ here e, Parallel (Machine.Renamed ρ idle S) (Value.rename ρ) (evalExpr n here e)
      (evalExpr n (ρ.frame here) e)) ∧
    ∀ here s, Parallel (Machine.Renamed ρ idle S) (Value.rename ρ) (evalStmt n here s)
      (evalStmt n (ρ.frame here) s) := by
  induction n with
  | zero => exact ⟨fun _ _ => parallel_outOfSteps, fun _ _ => parallel_outOfSteps⟩
  | succ n ih =>
    obtain ⟨hexpr, hstmt⟩ := ih
    have block (here : FrameId) (body : Block) :
        Parallel (Machine.Renamed ρ idle S) (Value.rename ρ) (sequence (evalStmt n here) .null body)
          (sequence (evalStmt n (ρ.frame here)) .null body) := parallel_block (hstmt here)
    constructor
    · intro here e
      rw [evalExpr.eq_def, evalExpr.eq_def]
      cases e with
      | name x => exact parallel_lookUp here x.text
      | integer v => exact parallel_pure rfl
      | string s => exact parallel_pure rfl
      | boolean b => exact parallel_pure rfl
      | unary op e => exact (hexpr here e).andThen fun v => parallel_pure (op.apply_rename v)
      | binary op l r =>
        exact (hexpr here l).andThen fun a => (hexpr here r).andThen fun b =>
          parallel_pure (op.apply_rename a b)
      | conditional c yes no =>
        refine (hexpr here c).andThen fun test => ?_
        rw [Value.isTruthy_rename]
        split
        · exact block here yes
        · cases no with
          | none => exact parallel_null
          | some no => exact block here no
      | function parameters body =>
        exact parallel_freshIdentity.bind fun id => parallel_pure rfl
      | call f arguments =>
        refine (hexpr here f).andThen fun f => ?_
        rw [Value.isCallable_rename, Value.kind_rename]
        split
        · exact parallel_withValues (hexpr here) (parallel_applyWith hS block f)
        · exact parallel_fault _
      | array elements => exact parallel_withValues (hexpr here) parallel_newArray
      | index l i =>
        exact (hexpr here l).andThen fun a => (hexpr here i).andThen fun b =>
          parallel_pure (a.index_rename b)
      | hash pairs =>
        refine parallel_withEntries (hexpr here) [] fun entries => ?_
        exact parallel_freshIdentity.bind fun id =>
          parallel_pure (Value.rename_hash id entries).symm
    · intro here s
      rw [evalStmt.eq_def, evalStmt.eq_def]
      cases s with
      | binding x e =>
        exact (hexpr here e).andThen fun v =>
          (parallel_assign here x.text v).bind fun _ => parallel_null
      | ret e => exact (hexpr here e).andThen fun v => parallel_pure rfl
      | expression e => exact hexpr here e
      | loop c body =>
        refine (hexpr here c).andThen fun test => ?_
        rw [Value.isTruthy_rename]
        split
        · refine (block here body).bind fun v => ?_
          rw [Value.stops_rename]
          split
          · exact parallel_pure rfl
          · exact hstmt here (.loop c body)
        · exact parallel_null

theorem parallel_evalBlock (hS : Sink.Together S) (n : Nat) (here : FrameId) (body : Block) :
    Parallel (Machine.Renamed ρ idle S) (Value.rename ρ) (evalBlock n here body)
      (evalBlock n (ρ.frame here) body) :=
  parallel_block ((parallel_evalExpr_evalStmt hS n).2 here)

theorem parallel_apply (hS : Sink.Together S) (n : Nat) (f : Value) (arguments : List Value) :
    Parallel (Machine.Renamed ρ idle S) (Value.rename ρ) (apply n f arguments)
      (apply n (f.rename ρ) (arguments.map (Value.rename ρ))) :=
  parallel_applyWith hS (parallel_evalBlock hS n) f arguments

end Steps

end Eval

end Monkey
