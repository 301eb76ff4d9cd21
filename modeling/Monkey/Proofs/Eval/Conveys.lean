import Monkey.Proofs.Eval.LastAct
import Monkey.Proofs.Eval.Unwinding

/-!
# What is handed on as it is

Values are read, passed, returned, taken out of arrays and hashes and put into them. None of this
changes a value: what comes out of each of these steps, or lies at the place where it was put, is
what went in.

## Main definitions

* `Task.Receives` — that parameters are bound to arguments where a body is begun.
* `Task.Conveys` — that a task hands on what it is given.
-/

namespace Monkey

open Eval

/-- Of several insertions the last one with the digest tells what the digest leads to. -/
theorem Entries.find?_insertAll (entries : Entries Value) (es : List (Key × Value)) (d : Digest) :
    (entries.insertAll es).find? d =
      ((es.reverse.find? fun e => e.1.digest = d).map Prod.snd).or (entries.find? d) := by
  induction es generalizing entries with
  | nil => simp [insertAll]
  | cons e es ih =>
    change ((entries.insert e.1 e.2).insertAll es).find? d = _
    rw [ih, find?_insert, List.reverse_cons, List.find?_append]
    cases es.reverse.find? fun e => e.1.digest = d with
    | some e' => rfl
    | none => by_cases hd : e.1.digest = d <;> simp [hd]

/-- Where the body is begun, each parameter has the value of its argument, or of the argument of the
last parameter of its name. -/
def Task.Receives (u : Task) (parameters : List Name) (vs : List Value) : Prop :=
  ∀ (i : Nat) (p : Name) (w : Value), parameters[i]? = some p → vs[i]? = some w →
    (∀ q ∈ parameters.drop (i + 1), q.text ≠ p.text) →
    u.machine.store.get? u.frame p.text = some w

/-- What the task is given comes out of it, or lies where it was put, as it went in. -/
structure Task.Conveys (t : Task) : Prop where
  /-- What a name is bound to is what it reads. -/
  bound : ∀ {n here x e m m₁ w}, t = ⟨n + 1, here, .stmt (.binding x e), m⟩ →
    evalExpr n here e m = some (w, m₁) → w.isError = false →
    ∃ m', t.run = some (.null, m') ∧ m'.store.get? here x.text = some w
  read : ∀ {n here x m w}, t = ⟨n + 1, here, .expr (.name x), m⟩ →
    m.store.get? here x.text = some w → t.run = some (w, m)
  /-- The arguments are what the parameters are bound to where the body is begun, and the call comes to
  what the body does. -/
  called : ∀ {n here f arguments id parameters body outer vs m m₁ m₂},
    t = ⟨n + 1, here, .expr (.call f arguments), m⟩ →
    evalExpr n here f m = some (.function id parameters body outer, m₁) →
    Yields (evalExpr n here) arguments m₁ vs m₂ → parameters.length = vs.length →
    ∃ u, Part .body t u ∧ u.code = .block body ∧ u.Receives parameters vs ∧
      t.run = u.run.map fun p => (p.1.arrive, p.2)
  /-- What a statement in the body returns is what the call comes to. -/
  returned : ∀ {u w m'}, Part .body t u → u.Returns (· = .inner) w m' → t.run = some (w, m')
  element : ∀ {n here l i id vs k m m₁ m₂ w}, t = ⟨n + 1, here, .expr (.index l i), m⟩ →
    evalExpr n here l m = some (.array id vs, m₁) → evalExpr n here i m₁ = some (.integer k, m₂) →
    0 ≤ k → vs[k.toInt.toNat]? = some w → t.run = some (w, m₂)
  entry : ∀ {n here l i id entries k m m₁ m₂ w}, t = ⟨n + 1, here, .expr (.index l i), m⟩ →
    evalExpr n here l m = some (.hash id entries, m₁) → evalExpr n here i m₁ = some (.ofKey k, m₂) →
    Entries.find? entries k.digest = some w → t.run = some (w, m₂)
  first : ∀ {id vs m w}, t.Calls (.builtin .first) [.array id vs] m → vs.head? = some w →
    t.run = some (w, m)
  last : ∀ {id vs m w}, t.Calls (.builtin .last) [.array id vs] m → vs.getLast? = some w →
    t.run = some (w, m)
  /-- The elements of a new array are what was evaluated for them. -/
  array : ∀ {n here es vs m m₁}, t = ⟨n + 1, here, .expr (.array es), m⟩ →
    Yields (evalExpr n here) es m vs m₁ → t.run = some (.array m₁.made vs, m₁.another)
  /-- What a key of a new hash leads to is what was evaluated for it last. -/
  hash : ∀ {n here pairs es m m₁}, t = ⟨n + 1, here, .expr (.hash pairs), m⟩ →
    YieldsEntries (evalExpr n here) pairs m es m₁ → ∃ entries : Entries Value,
      t.run = some (.hash m₁.made entries, m₁.another) ∧
      ∀ d, entries.find? d = (es.reverse.find? fun e => e.1.digest = d).map Prod.snd
  rest : ∀ {id v vs m}, t.Calls (.builtin .rest) [.array id (v :: vs)] m →
    t.run = some (.array m.made vs, m.another)
  push : ∀ {id vs w m}, t.Calls (.builtin .push) [.array id vs, w] m →
    t.run = some (.array m.made (vs ++ [w]), m.another)

section Steps

variable {n : Nat} {m m₁ : Machine}

/-- A call, and a program as well, comes to what its body comes to, where a return arrives. -/
theorem Part.run_eq_map {t u : Task} (h : Part .body t u) :
    t.run = u.run.map fun p => (p.1.arrive, p.2) := by
  have arrives (x : Eval Value) (m : Machine) : (do let v ← x; pure v.arrive : Eval Value) m =
      (x m).map fun p => (p.1.arrive, p.2) := by
    change (x m).bind _ = _
    cases x m <;> rfl
  cases h with
  | program => exact arrives _ _
  | @call n here outer inner f arguments id parameters body vs m m₁ m₂ m₃ hf hvs hlength henter =>
    have hcallable : (Value.function id parameters body outer).isCallable = true := rfl
    change evalExpr (n + 1) here (.call f arguments) m = _
    rw [evalExpr.eq_def]
    dsimp only
    rw [andThen_eq hf rfl, if_pos hcallable, hvs.withValues_eq, applyWith, if_pos hlength,
      bind_eq_of_eq_some henter]
    exact arrives _ _

theorem Eval.enter_receives {outer inner : FrameId} {parameters : List Name} {vs : List Value}
    {code : Code} (h : enter outer ((parameters.map (·.text)).zip vs) m = some (inner, m₁)) :
    Task.Receives ⟨n, inner, code, m₁⟩ parameters vs := by
  intro i p w hp hw hlast
  obtain ⟨rfl, rfl⟩ := Prod.mk.inj (Option.some.inj h)
  refine (Store.binds_setAll ?_ (i := i) ?_ fun b hb => ?_).get?
  · simp [Store.add]
  · simp [List.getElem?_zip_eq_some, hp, hw]
  · rw [List.zip, List.drop_zipWith, ← List.map_drop] at hb
    obtain ⟨q, hq, hname⟩ := List.mem_map.mp (List.of_mem_zip hb).1
    exact hname ▸ hlast q hq

/-- A task in a frame that is there conveys what it is given. -/
theorem Task.conveys {t : Task} (ht : t.machine.Hosts t.frame) : t.Conveys where
  bound := by
    rintro n here x e m m₁ w rfl he hw
    refine ⟨{ m₁ with store := m₁.store.set here x.text w }, ?_, ?_⟩
    · change evalStmt (n + 1) here (.binding x e) m = _
      rw [evalStmt.eq_def]
      dsimp only
      rw [andThen_eq he hw]
      rfl
    · exact (Store.binds_set (ht.expr he).1.frame x.text w).get?
  read := by
    rintro n here x m w rfl hget
    change evalExpr (n + 1) here (.name x) m = _
    rw [evalExpr.eq_def]
    dsimp only
    rw [lookUp_apply, lookedUp, hget]
  called := by
    rintro n here f arguments id parameters body outer vs m m₁ m₂ rfl hf hvs hlength
    obtain ⟨⟨inner, m₃⟩, henter⟩ :
        ∃ p, enter outer ((parameters.map (·.text)).zip vs) m₂ = some p := ⟨_, rfl⟩
    have hpart := Part.call hf hvs hlength henter
    exact ⟨_, hpart, rfl, enter_receives henter, hpart.run_eq_map⟩
  returned := by
    intro u w m' hpart hreturns
    rw [hpart.run_eq_map, Task.run_eq_returned hreturns]
    rfl
  element := by
    rintro n here l i id vs k m m₁ m₂ w rfl hl hi hk hw
    change evalExpr (n + 1) here (.index l i) m = _
    rw [evalExpr.eq_def]
    dsimp only
    rw [andThen_eq hl rfl, andThen_eq hi rfl, Value.index, Value.elementAt,
      if_neg (Int64.not_lt.mpr hk), hw]
    rfl
  entry := by
    rintro n here l i id entries k m m₁ m₂ w rfl hl hi hw
    change evalExpr (n + 1) here (.index l i) m = _
    rw [evalExpr.eq_def]
    dsimp only
    rw [andThen_eq hl rfl, andThen_eq hi (Value.isError_ofKey k)]
    simp only [Value.index, Value.key?_ofKey, hw]
    rfl
  first := by
    intro id vs m w hcall hw
    obtain ⟨n, hrun⟩ := hcall.run_eq
    rw [hrun]
    change (pure (vs.head?.getD .null) : Eval Value) m = _
    rw [hw]
    rfl
  last := by
    intro id vs m w hcall hw
    obtain ⟨n, hrun⟩ := hcall.run_eq
    rw [hrun]
    change (pure (vs.getLast?.getD .null) : Eval Value) m = _
    rw [hw]
    rfl
  array := by
    rintro n here es vs m m₁ rfl hvs
    exact (Creates.array hvs).run_eq
  hash := by
    rintro n here pairs es m m₁ rfl hes
    refine ⟨_, (Creates.hash hes).run_eq, fun d => ?_⟩
    rw [Entries.find?_insertAll, Entries.find?_nil, Option.or_none]
  rest := fun hcall => (Creates.rest hcall).run_eq
  push := fun hcall => (Creates.push hcall).run_eq

end Steps

end Monkey
