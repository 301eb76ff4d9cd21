import Monkey.Proofs.Eval.LastAct

/-!
# The ledger of a run

Identities are given out one by one, each to an object that is created then. So a run has a ledger:
a list of its creations in the order in which they come. An object keeps the identity that its
creation gave it, and keeps what it holds, wherever it is put. Both are in one invariant: whatever
exists was made, as it is, by the creation to which its identity points.

## Main definitions

* `Value.IsListed`, `Machine.Ledger` — that creations account for a value, and for a machine.
* `Machine.Continues` — that a ledger has been continued up to a machine.
* `Task.Underway` — the evaluations in progress while a task is run, and what they have in hand.
-/

namespace Monkey

open Eval

/-! ## Ledgers -/

/-- The task makes the object. -/
def Task.Makes (t : Task) (v : Value) : Prop := ∃ vs m, t.Creates vs m v

/-- If the value is an object, then the creation to which its identity points has made it. -/
def Value.IsListed (us : List Task) (v : Value) : Prop :=
  ∀ i, v.identity? = some i → ∃ u, us[i]? = some u ∧ u.Makes v

/-- The creations that have been come to, of those tasks that are run: each has given out its own
number in the list, and they account for whatever is bound. -/
structure Machine.Ledger (Run : Task → Prop) (us : List Task) (m : Machine) : Prop where
  length : us.length = m.made
  run : ∀ u ∈ us, Run u
  numbered : ∀ (i : Nat) (u : Task), us[i]? = some u → ∃ vs m₁ v, u.Creates vs m₁ v ∧ m₁.made = i
  bound : m.All (Value.IsListed us)

/-- The ledger has been continued up to this machine, and accounts for these values as well. -/
def Machine.Continues (Run : Task → Prop) (us : List Task) (m : Machine) (vs : List Value) : Prop :=
  ∃ us', us <+: us' ∧ m.Ledger Run us' ∧ ∀ v ∈ vs, v.All (Value.IsListed us')

section Ledgers

variable {Run Run' : Task → Prop} {us us' : List Task} {m m' : Machine} {t u : Task} {v w : Value}
  {vs ws : List Value}

theorem Task.Makes.unique (h : t.Makes v) (h' : t.Makes w) : v = w := by
  obtain ⟨vs, m, h⟩ := h
  obtain ⟨vs', m', h'⟩ := h'
  exact (Prod.mk.inj (Option.some.inj (h.run_eq.symm.trans h'.run_eq))).1

theorem Value.IsListed.mono (h : v.IsListed us) (hus : us <+: us') : v.IsListed us' := by
  intro i hi
  obtain ⟨u, hu, hmakes⟩ := h i hi
  obtain ⟨us', rfl⟩ := hus
  refine ⟨u, ?_, hmakes⟩
  rw [List.getElem?_append_left (List.getElem?_eq_some_iff.mp hu).1, hu]

theorem Value.All.listed_mono (h : v.All (IsListed us)) (hus : us <+: us') :
    v.All (IsListed us') := fun w hw => (h w hw).mono hus

theorem Value.isListed_of_identity?_eq_none (h : v.identity? = none) : v.IsListed us := by
  intro i hi
  rw [h] at hi
  cases hi

theorem Value.all_of_isBare (h : v.isBare = true) : v.All (IsListed us) := by
  intro w hw
  cases hw with
  | refl => exact isListed_of_identity?_eq_none (by cases v <;> first | rfl | cases h)
  | _ => cases h

theorem Machine.Ledger.mono (h : m.Ledger Run us) (hRun : ∀ u, Run u → Run' u) :
    m.Ledger Run' us := ⟨h.length, fun u hu => hRun u (h.run u hu), h.numbered, h.bound⟩

/-- A ledger accounts for the frames and the number of identities alone. -/
theorem Machine.Ledger.of_eq (h : m.Ledger Run us) (hstore : m'.store = m.store)
    (hmade : m'.made = m.made) : m'.Ledger Run us := by
  refine ⟨h.length.trans hmade.symm, h.run, h.numbered, fun f hf => h.bound ?_⟩
  rwa [← hstore]

theorem Machine.Ledger.bind (h : m.Ledger Run us) (hv : v.All (Value.IsListed us)) (here : FrameId)
    (name : String) : { m with store := m.store.set here name v }.Ledger Run us :=
  ⟨h.length, h.run, h.numbered, Store.all_set (fun _ hf => h.bound hf) hv⟩

theorem Machine.Ledger.enter {outer inner : FrameId} {bindings : List (String × Value)}
    (h : m.Ledger Run us) (hbindings : ∀ b ∈ bindings, b.2.All (Value.IsListed us))
    (henter : enter outer bindings m = some (inner, m')) : m'.Ledger Run us := by
  obtain ⟨-, rfl⟩ := Prod.mk.inj (Option.some.inj henter)
  exact ⟨h.length, h.run, h.numbered,
    Store.all_setAll (Store.all_add fun _ hf => h.bound hf) hbindings⟩

/-- A creation is entered at the end of the ledger. -/
theorem Machine.Ledger.create (h : m.Ledger Run us) (ht : Run t) (hcreates : t.Creates vs m v)
    (hvs : ∀ v ∈ vs, v.All (Value.IsListed us)) :
    m.another.Ledger Run (us ++ [t]) ∧ v.All (Value.IsListed (us ++ [t])) := by
  have hextends : us <+: us ++ [t] := List.prefix_append us [t]
  have hlast : (us ++ [t])[m.made]? = some t := by rw [← h.length]; simp
  refine ⟨⟨?_, ?_, fun i u hi => ?_, fun f hf b hb => (h.bound hf b hb).listed_mono hextends⟩, ?_⟩
  · rw [List.length_append, h.length]
    rfl
  · exact List.forall_mem_append.mpr ⟨h.run, by simpa using ht⟩
  · rcases Nat.lt_or_ge i us.length with hlt | hge
    · rw [List.getElem?_append_left hlt] at hi
      exact h.numbered i u hi
    · have hlt := (List.getElem?_eq_some_iff.mp hi).1
      rw [List.length_append, List.length_singleton] at hlt
      obtain rfl : i = m.made := by rw [← h.length]; omega
      cases hlast.symm.trans hi
      exact ⟨vs, m, v, hcreates, rfl⟩
  · intro w hw
    rcases hcreates.within hw with rfl | ⟨a, ha, hwithin⟩
    · intro i hi
      obtain rfl : m.made = i := Option.some.inj (hcreates.identity?_eq.symm.trans hi)
      exact ⟨t, hlast, vs, m, hcreates⟩
    · exact ((hvs a ha) w hwithin).mono hextends

theorem Machine.Continues.refl (h : m.Ledger Run us) : m.Continues Run us [] :=
  ⟨us, List.prefix_refl us, h, by simp⟩

end Ledgers

/-! ## Runs -/

section Runs

variable {Run : Task → Prop} {us us' : List Task} {m m' : Machine} {t u : Task} {r : Role}
  {v : Value} {vs ws : List Value}

/-- The ledger of a task is continued by each of its parts. -/
def Task.HasLedger (Run : Task → Prop) (t : Task) : Prop :=
  Run t → ∀ us, t.machine.Ledger Run us → ∀ v m', t.run = some (v, m') → m'.Continues Run us [v]

/-- The ledger is continued from where the task is begun to where it stands, and what is in hand then
is accounted for. -/
theorem Task.Stands.continues (h : t.Stands vs m) (hparts : ∀ r u, Part r t u → u.HasLedger Run)
    (hrun : ∀ r u, Part r t u → Run u) (ht : t.machine.Ledger Run us) : m.Continues Run us vs := by
  induction h with
  | begun => exact .refl ht
  | after _ hpart hu ih =>
    obtain ⟨us₁, hus₁, hledger, hvs⟩ := ih
    obtain ⟨us₂, hus₂, hledger', hv⟩ :=
      hparts _ _ hpart (hrun _ _ hpart) us₁ hledger _ _ hu
    refine ⟨us₂, hus₁.trans hus₂, hledger', fun w hw => ?_⟩
    rcases List.mem_append.mp hw with hw | hw
    · exact (hvs w hw).listed_mono hus₂
    · exact hv w hw

theorem Part.continues (h : Part r t u) (hparts : ∀ r u, Part r t u → u.HasLedger Run)
    (hrun : ∀ r u, Part r t u → Run u) (ht : t.machine.Ledger Run us) :
    u.machine.Continues Run us [] := by
  rcases h.begins with ⟨vs, hstands⟩ | ⟨id, parameters, body, outer, vs, m, hstands, henter⟩
  · obtain ⟨us', hus, hledger, -⟩ := hstands.continues hparts hrun ht
    exact ⟨us', hus, hledger, by simp⟩
  · obtain ⟨us', hus, hledger, hvs⟩ := hstands.continues hparts hrun ht
    refine ⟨us', hus, hledger.enter (fun b hb => ?_) henter, by simp⟩
    exact hvs b.2 (List.mem_cons_of_mem _ (List.of_mem_zip hb).2)

/-- A task hands the ledger on, continued by the objects that are made while it is run. The induction
is on the parts of the task, and the last act is looked at apart from them. -/
theorem Task.hasLedger (hRun : ∀ r t u, Run t → Part r t u → Run u) (t : Task) :
    t.HasLedger Run := by
  induction t using Task.induction with
  | h t ih =>
    intro ht us hledger v m' hrun
    have hparts (r : Role) (u : Task) (hpart : Part r t u) : Run u := hRun r t u ht hpart
    have part {r : Role} {u : Task} {v : Value} {m' : Machine} (hpart : Part r t u)
        (hu : u.run = some (v, m')) : m'.Continues Run us [v] := by
      obtain ⟨us₁, hus₁, hledger₁, -⟩ := hpart.continues ih hparts hledger
      obtain ⟨us₂, hus₂, hlast⟩ := ih _ _ hpart (hparts _ _ hpart) us₁ hledger₁ v m' hu
      exact ⟨us₂, hus₁.trans hus₂, hlast⟩
    cases Task.lastAct hrun with
    | part hpart hu => exact part hpart hu
    | body hpart hu =>
      obtain ⟨us₁, hus₁, hledger₁, hv⟩ := part hpart hu
      exact ⟨us₁, hus₁, hledger₁, by simpa using (hv _ (List.mem_singleton_self _)).arrive⟩
    | bare hstands hv hprints =>
      obtain ⟨us₁, hus₁, hledger₁, -⟩ := hstands.continues ih hparts hledger
      refine ⟨us₁, hus₁, hledger₁.of_eq hprints.store hprints.made, ?_⟩
      simpa using Value.all_of_isBare hv
    | read hget => exact ⟨us, List.prefix_refl us, hledger, by simpa using hledger.bound.get? hget⟩
    | taken hstands ha hv =>
      obtain ⟨us₁, hus₁, hledger₁, hvs⟩ := hstands.continues ih hparts hledger
      exact ⟨us₁, hus₁, hledger₁, by simpa using (hvs _ ha).within hv⟩
    | bound hstands =>
      obtain ⟨us₁, hus₁, hledger₁, hvs⟩ := hstands.continues ih hparts hledger
      refine ⟨us₁, hus₁, hledger₁.bind (hvs _ (List.mem_singleton_self _)) _ _, ?_⟩
      simpa using Value.all_of_isBare (v := .null) rfl
    | returned hstands =>
      obtain ⟨us₁, hus₁, hledger₁, hvs⟩ := hstands.continues ih hparts hledger
      refine ⟨us₁, hus₁, hledger₁, ?_⟩
      simpa using Value.all_returned (Value.isListed_of_identity?_eq_none rfl)
        (hvs _ (List.mem_singleton_self _))
    | created hcreates =>
      obtain ⟨us₁, hus₁, hledger₁, hvs⟩ := hcreates.stands.continues ih hparts hledger
      obtain ⟨hledger₂, hv⟩ := hledger₁.create ht hcreates hvs
      exact ⟨us₁ ++ [t], hus₁.trans (List.prefix_append us₁ [t]), hledger₂, by simpa using hv⟩

end Runs

/-! ## Evaluations in progress -/

/-- While the first task is run, the second is, and the evaluations in progress around it have these
values in hand. -/
inductive Task.Underway (root : Task) : List Value → Task → Prop
  | root : Underway root [] root
  | part {r : Role} {t u : Task} {vs ws : List Value} (h : Underway root ws t)
      (hpart : Part r t u) (hstands : t.Stands vs u.machine) : Underway root (vs ++ ws) u
  | called {r : Role} {t u : Task} {id : Identity} {parameters : List Name} {body : Block}
      {outer : FrameId} {vs ws : List Value} {m : Machine} (h : Underway root ws t)
      (hpart : Part r t u)
      (hstands : t.Stands (.function id parameters body outer :: vs) m)
      (henter : enter outer ((parameters.map (·.text)).zip vs) m = some (u.frame, u.machine)) :
      Underway root (.function id parameters body outer :: vs ++ ws) u

section Progress

variable {Run : Task → Prop} {us : List Task} {root t : Task} {vs ws : List Value} {v : Value}
  {m m' : Machine}

theorem Task.Underway.reaches (h : root.Underway ws t) : root.Reaches (fun _ => True) t := by
  induction h with
  | root => exact .refl
  | part _ hpart _ ih | called _ hpart _ _ ih => exact ih.tail ⟨_, trivial, hpart⟩

/-- Whatever is run has been underway, with something or nothing in hand around it. -/
theorem Task.Reaches.exists_underway (h : root.Reaches (fun _ => True) t) :
    ∃ ws, root.Underway ws t := by
  induction h with
  | refl => exact ⟨[], .root⟩
  | tail _ hpart ih =>
    obtain ⟨r, -, hpart⟩ := hpart
    obtain ⟨ws, h⟩ := ih
    rcases hpart.begins with ⟨vs, hstands⟩ | ⟨id, parameters, body, outer, vs, m, hstands, henter⟩
    · exact ⟨_, h.part hpart hstands⟩
    · exact ⟨_, h.called hpart hstands henter⟩

variable (hRun : ∀ r t u, Run t → Part r t u → Run u) (hroot : Run root)

include hRun hroot

theorem Task.Underway.run (h : root.Underway ws t) : Run t := by
  induction h with
  | root => exact hroot
  | part _ hpart _ ih | called _ hpart _ _ ih => exact hRun _ _ _ ih hpart

/-- Between two parts of an evaluation in progress, the ledger accounts for what the evaluation has in
hand and for what is in hand around it. -/
theorem Task.Underway.continues_stands (h : root.Underway ws t) (hstands : t.Stands vs m)
    (ht : t.machine.Continues Run us ws) : m.Continues Run us (vs ++ ws) := by
  obtain ⟨us₁, hus₁, hledger, hws⟩ := ht
  obtain ⟨us₂, hus₂, hledger', hvs⟩ := hstands.continues (fun _ u _ => u.hasLedger hRun)
    (fun r u => hRun r t u (h.run hRun hroot)) hledger
  refine ⟨us₂, hus₁.trans hus₂, hledger', List.forall_mem_append.mpr ⟨hvs, fun w hw => ?_⟩⟩
  exact (hws w hw).listed_mono hus₂

theorem Task.Underway.continues (h : root.Underway ws t) (hledger : root.machine.Ledger Run us) :
    t.machine.Continues Run us ws := by
  induction h with
  | root => exact .refl hledger
  | part h _ hstands ih => exact h.continues_stands hRun hroot hstands ih
  | called h _ hstands henter ih =>
    obtain ⟨us₁, hus₁, hledger, hvs⟩ := h.continues_stands hRun hroot hstands ih
    refine ⟨us₁, hus₁, hledger.enter (fun b hb => ?_) henter, hvs⟩
    exact hvs b.2 (List.mem_append_left _ (List.mem_cons_of_mem _ (List.of_mem_zip hb).2))

/-- When an evaluation in progress has come to its value, the ledger accounts for the value. -/
theorem Task.Underway.continues_run (h : root.Underway ws t) (ht : t.machine.Continues Run us ws)
    (hrun : t.run = some (v, m')) : m'.Continues Run us (v :: ws) := by
  obtain ⟨us₁, hus₁, hledger, hws⟩ := ht
  obtain ⟨us₂, hus₂, hledger', hv⟩ :=
    t.hasLedger hRun (h.run hRun hroot) us₁ hledger v m' hrun
  refine ⟨us₂, hus₁.trans hus₂, hledger', List.forall_mem_cons.mpr ⟨by simpa using hv, ?_⟩⟩
  exact fun w hw => (hws w hw).listed_mono hus₂

end Progress

end Monkey
