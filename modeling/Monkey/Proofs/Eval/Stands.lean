import Mathlib.Data.List.Induction
import Monkey.Proofs.Eval.Holds
import Monkey.Proofs.Eval.Parts

/-!
# Where a task stands

Between two parts of a task something has been evaluated and something is still to come. What has
been evaluated is in hand, and the next part is begun where the last one has ended; only the body of
a function is begun in a frame of its own, which is made where the task stands.

## Main definitions

* `Entries.insertAll`, `YieldsEntries` — that pairs have been evaluated to keys and values.
* `PairFails` — that the evaluation of a pair comes to an error.
* `Task.Stands` — the values that a task has in hand between its parts, and the machine there.
* `Task.size` — what is less for every part than for the whole.
-/

namespace Monkey

open Eval

/-! ## Pairs -/

/-- The entries after several insertions, one after the other. -/
def Entries.insertAll (entries : Entries Value) (es : List (Key × Value)) : Entries Value :=
  es.foldl (fun entries e => entries.insert e.1 e.2) entries

theorem Entries.mem_of_mem_insertAll {entries : Entries Value} {es : List (Key × Value)}
    {e : Key × Value} (h : e ∈ entries.insertAll es) : e ∈ entries ∨ e ∈ es := by
  induction es generalizing entries with
  | nil => exact .inl h
  | cons e' es ih =>
    rcases ih h with h | h
    · rcases mem_of_mem_insert h with h | rfl
      · exact .inl h
      · exact .inr List.mem_cons_self
    · exact .inr (List.mem_cons_of_mem e' h)

/-- The pairs are evaluated one after the other to these keys and values. -/
inductive YieldsEntries (run : Expr → Eval Value) :
    List (Expr × Expr) → Machine → List (Key × Value) → Machine → Prop
  | nil (m : Machine) : YieldsEntries run [] m [] m
  | cons {e e' : Expr} {pairs : List (Expr × Expr)} {k : Key} {v : Value}
      {es : List (Key × Value)} {m m₁ m₂ m₃ : Machine} (he : run e m = some (.ofKey k, m₁))
      (he' : run e' m₁ = some (v, m₂)) (hv : v.isError = false)
      (hpairs : YieldsEntries run pairs m₂ es m₃) :
      YieldsEntries run ((e, e') :: pairs) m ((k, v) :: es) m₃

/-- The evaluation of the pair comes to an error: that of its key, that its key can be none, or that
of its value. -/
inductive PairFails (run : Expr → Eval Value) (e e' : Expr) (m : Machine) : Value → Machine → Prop
  | key {v : Value} {m₁ : Machine} (he : run e m = some (v, m₁)) (hv : v.isError = true) :
      PairFails run e e' m v m₁
  | unusable {v : Value} {m₁ : Machine} (he : run e m = some (v, m₁)) (hv : v.isError = false)
      (hkey : v.key? = none) : PairFails run e e' m (.error (.notAKey v.kind)) m₁
  | value {k : Key} {v : Value} {m₁ m₂ : Machine} (he : run e m = some (.ofKey k, m₁))
      (he' : run e' m₁ = some (v, m₂)) (hv : v.isError = true) : PairFails run e e' m v m₂

theorem Value.isError_ofKey (k : Key) : (Value.ofKey k).isError = false := by cases k <;> rfl

section Lists

variable {run : Expr → Eval Value} {exec : Stmt → Eval Value} {m m' : Machine}

theorem YieldsEntries.yieldsPairs {pairs : List (Expr × Expr)} {es : List (Key × Value)}
    (h : YieldsEntries run pairs m es m') : YieldsPairs run pairs m m' := by
  induction h with
  | nil m => exact .nil m
  | cons he he' hv _ ih => exact .cons he (by simp) he' hv ih

theorem YieldsPairs.exists_yieldsEntries {pairs : List (Expr × Expr)}
    (h : YieldsPairs run pairs m m') : ∃ es, YieldsEntries run pairs m es m' := by
  induction h with
  | nil m => exact ⟨[], .nil m⟩
  | cons he hv he' hw _ ih =>
    obtain ⟨es, hes⟩ := ih
    obtain ⟨k, hk⟩ := Option.isSome_iff_exists.mp hv
    obtain rfl := Value.key?_eq_some_iff.mp hk
    exact ⟨_, .cons he he' hw hes⟩

/-- Once pairs have been evaluated, it is gone on with the others and the entries that they make. -/
theorem YieldsEntries.withEntries_append {pairs : List (Expr × Expr)} {es : List (Key × Value)}
    (h : YieldsEntries run pairs m es m') (entries : Entries Value) (others : List (Expr × Expr))
    (k : Entries Value → Eval Value) :
    withEntries run entries (pairs ++ others) k m =
      withEntries run (entries.insertAll es) others k m' := by
  induction h generalizing entries with
  | nil m => rfl
  | @cons e e' pairs key v es m m₁ m₂ m₃ he he' hv _ ih =>
    calc withEntries run entries ((e, e') :: pairs ++ others) k m
        = andThen (run e')
            (fun w => withEntries run (entries.insert key w) (pairs ++ others) k) m₁ := by
          rw [List.cons_append, withEntries, andThen_eq he (Value.isError_ofKey key)]
          simp only [Value.key?_ofKey]
      _ = withEntries run (entries.insert key v) (pairs ++ others) k m₂ := andThen_eq he' hv
      _ = withEntries run ((entries.insert key v).insertAll es) others k m₃ := ih _

/-- Pairs that have been evaluated are gone on with, and with the entries that they make. -/
theorem YieldsEntries.withEntries_eq {pairs : List (Expr × Expr)} {es : List (Key × Value)}
    (h : YieldsEntries run pairs m es m') (entries : Entries Value)
    (k : Entries Value → Eval Value) :
    withEntries run entries pairs k m = k (entries.insertAll es) m' := by
  have happend := h.withEntries_append entries [] k
  rwa [List.append_nil] at happend

theorem PairFails.isError {e e' : Expr} {v : Value} (h : PairFails run e e' m v m') :
    v.isError = true := by
  cases h with
  | key _ hv | value _ _ hv => exact hv
  | unusable => rfl

/-- The error of a pair ends the evaluation, whatever pairs come after it. -/
theorem PairFails.withEntries_eq {e e' : Expr} {v : Value} (h : PairFails run e e' m v m')
    (entries : Entries Value) (others : List (Expr × Expr)) (k : Entries Value → Eval Value) :
    withEntries run entries ((e, e') :: others) k m = some (v, m') := by
  cases h with
  | key he hv => rw [withEntries, andThen_eq_of_isError he hv]
  | unusable he hv hkey =>
    rw [withEntries, andThen_eq he hv]
    simp only [hkey]
    rfl
  | @value key _ _ _ he he' hv =>
    rw [withEntries, andThen_eq he (Value.isError_ofKey key)]
    simp only [Value.key?_ofKey]
    exact andThen_eq_of_isError he' hv

/-! ## The last of several parts -/

theorem Yields.of_concat {es : List Expr} {e : Expr} {vs : List Value}
    (h : Yields run (es ++ [e]) m vs m') :
    ∃ us v mid, Yields run es m us mid ∧ run e mid = some (v, m') ∧ vs = us ++ [v] := by
  induction es generalizing m vs with
  | nil =>
    cases h with
    | cons he hv hes =>
      cases hes
      exact ⟨[], _, m, .nil m, he, rfl⟩
  | cons e' es ih =>
    cases h with
    | cons he' hv' hes =>
      obtain ⟨us, v, mid, hus, he, rfl⟩ := ih hes
      exact ⟨_ :: us, v, mid, .cons he' hv' hus, he, rfl⟩

theorem Completes.of_concat {ss : List Stmt} {s : Stmt} (h : Completes exec (ss ++ [s]) m m') :
    ∃ v mid, Completes exec ss m mid ∧ exec s mid = some (v, m') := by
  induction ss generalizing m with
  | nil =>
    cases h with
    | cons hs _ hss =>
      cases hss
      exact ⟨_, m, .nil m, hs⟩
  | cons s' ss ih =>
    cases h with
    | cons hs' hv' hss =>
      obtain ⟨v, mid, hss, hs⟩ := ih hss
      exact ⟨v, mid, .cons hs' hv' hss, hs⟩

theorem YieldsEntries.of_concat {pairs : List (Expr × Expr)} {e e' : Expr}
    {es : List (Key × Value)} (h : YieldsEntries run (pairs ++ [(e, e')]) m es m') :
    ∃ es₁ k v m₁ m₂, YieldsEntries run pairs m es₁ m₁ ∧ run e m₁ = some (.ofKey k, m₂) ∧
      run e' m₂ = some (v, m') ∧ es = es₁ ++ [(k, v)] := by
  induction pairs generalizing m es with
  | nil =>
    cases h with
    | cons he he' _ hpairs =>
      cases hpairs
      exact ⟨[], _, _, m, _, .nil m, he, he', rfl⟩
  | cons p pairs ih =>
    cases h with
    | cons hp hp' hw hpairs =>
      obtain ⟨es₁, k, v, m₁, m₂, hes, he, he', rfl⟩ := ih hpairs
      exact ⟨_ :: es₁, k, v, m₁, m₂, .cons hp hp' hw hes, he, he', rfl⟩

end Lists

/-! ## Between parts -/

/-- Parts of the task have been run one after the other, from its own machine on. They have these
values, and the last of them has left this machine. -/
inductive Task.Stands (t : Task) : List Value → Machine → Prop
  | begun : Stands t [] t.machine
  | after {r : Role} {u : Task} {vs : List Value} {v : Value} {m' : Machine}
      (h : Stands t vs u.machine) (hpart : Part r t u) (hu : u.run = some (v, m')) :
      Stands t (vs ++ [v]) m'

section Between

variable {n : Nat} {here : FrameId} {m m' : Machine} {t u : Task} {r : Role}

/-- The first part of a task is begun where the task is. -/
theorem Part.stands {v : Value} (h : Part r t u) (hm : u.machine = t.machine)
    (hu : u.run = some (v, m')) : t.Stands [v] m' := by
  have hbegun : t.Stands [] u.machine := hm ▸ .begun
  exact hbegun.after h hu

theorem Completes.stands {before after : List Stmt} {m' : Machine}
    (h : Completes (evalStmt n here) before m m') :
    ∃ vs, Task.Stands ⟨n, here, .block (before ++ after), m⟩ vs m' := by
  induction before using List.reverseRecOn generalizing after m' with
  | nil =>
    cases h
    exact ⟨[], .begun⟩
  | append_singleton before s ih =>
    obtain ⟨v, mid, hbefore, hs⟩ := h.of_concat
    obtain ⟨vs, hstands⟩ := @ih (s :: after) mid hbefore
    rw [List.append_assoc]
    exact ⟨vs ++ [v], hstands.after (.statement hbefore) hs⟩

/-- Expressions are parts of a task one after the other, if each of them is one where those before
it have been evaluated. -/
theorem Yields.stands {es before after : List Expr} {us vs : List Value} {m' : Machine}
    (hbegun : t.Stands us m)
    (hpart : ∀ ⦃before e after vs m₁⦄, before ++ e :: after = es →
      Yields (evalExpr n here) before m vs m₁ → Part .operand t ⟨n, here, .expr e, m₁⟩)
    (hes : before ++ after = es) (h : Yields (evalExpr n here) before m vs m') :
    t.Stands (us ++ vs) m' := by
  induction before using List.reverseRecOn generalizing after vs m' with
  | nil =>
    cases h
    simpa using hbegun
  | append_singleton before e ih =>
    obtain ⟨ws, v, mid, hbefore, he, rfl⟩ := h.of_concat
    rw [List.append_assoc] at hes
    rw [← List.append_assoc]
    exact (ih hes hbefore).after (hpart hes hbefore) he

/-- The values in hand when pairs have been evaluated. -/
def entryValues (es : List (Key × Value)) : List Value := es.flatMap fun e => [.ofKey e.1, e.2]

theorem YieldsEntries.stands {before after : List (Expr × Expr)} {es : List (Key × Value)}
    {m' : Machine} (h : YieldsEntries (evalExpr n here) before m es m') :
    Task.Stands ⟨n + 1, here, .expr (.hash (before ++ after)), m⟩ (entryValues es) m' := by
  induction before using List.reverseRecOn generalizing after es m' with
  | nil =>
    cases h
    exact .begun
  | append_singleton before p ih =>
    obtain ⟨e, e'⟩ := p
    obtain ⟨es₁, k, v, m₁, m₂, hbefore, he, he', rfl⟩ := h.of_concat
    have hkey := (@ih ((e, e') :: after) _ _ hbefore).after (.key hbefore.yieldsPairs) he
    have hvalue := hkey.after (.value hbefore.yieldsPairs he (by simp)) he'
    rw [List.append_assoc]
    simpa [entryValues] using hvalue

/-- What is called is in hand when it is called, and so are the arguments. -/
theorem Task.Calls.stands {g : Value} {vs : List Value} (h : t.Calls g vs m') :
    t.Stands (g :: vs) m' := by
  cases h with
  | @intro n here f arguments _ _ m m₁ _ hf hg hvs =>
    have hcallee : Task.Stands ⟨n + 1, here, .expr (.call f arguments), m⟩ [g] m₁ :=
      Part.callee.stands rfl hf
    refine (yields_of_withValues_eq hvs).stands hcallee (fun _ _ _ _ _ hes hbefore => ?_)
      (List.append_nil arguments)
    exact hes ▸ .argument hf hg hbefore

/-- A part is begun where the whole stands, or it is the body of a function and is begun in a new
frame that is made there. -/
theorem Part.begins (h : Part r t u) :
    (∃ vs, t.Stands vs u.machine) ∨
      ∃ id parameters body outer vs m, t.Stands (.function id parameters body outer :: vs) m ∧
        enter outer ((parameters.map (·.text)).zip vs) m = some (u.frame, u.machine) := by
  cases h with
  | statement hbefore => exact .inl hbefore.stands
  | round hc => exact .inl ⟨_, Part.test.stands rfl hc⟩
  | nextRound hc herror htest hbody =>
    exact .inl ⟨_, (Part.test.stands rfl hc).after (.round hc herror htest) hbody⟩
  | right hl => exact .inl ⟨_, Part.left.stands rfl hl⟩
  | consequence hc => exact .inl ⟨_, Part.condition.stands rfl hc⟩
  | alternative hc => exact .inl ⟨_, Part.condition.stands rfl hc⟩
  | argument hf hg hbefore =>
    exact .inl ⟨_, hbefore.stands (Part.callee.stands rfl hf)
      (fun _ _ _ _ _ hes h => hes ▸ .argument hf hg h) rfl⟩
  | call hf hvs _ henter =>
    have hcalls : Task.Calls _ _ _ _ := .intro hf rfl fun k => hvs.withValues_eq k
    exact .inr ⟨_, _, _, _, _, _, hcalls.stands, henter⟩
  | element hbefore =>
    exact .inl ⟨_, hbefore.stands .begun (fun _ _ _ _ _ hes h => hes ▸ .element h) rfl⟩
  | position hl => exact .inl ⟨_, Part.collection.stands rfl hl⟩
  | key hbefore =>
    obtain ⟨es, hes⟩ := hbefore.exists_yieldsEntries
    exact .inl ⟨_, hes.stands⟩
  | value hbefore he hv =>
    obtain ⟨es, hes⟩ := hbefore.exists_yieldsEntries
    exact .inl ⟨_, hes.stands.after (.key hbefore) he⟩
  | _ => exact .inl ⟨[], .begun⟩

end Between

/-! ## Parts are less than the whole -/

/-- How many layers of code are run with the same number of steps. -/
def Code.layers : Code → Nat
  | expr _ | stmt _ => 0
  | block _ => 1
  | program _ => 2

/-- What is less for every part than for the whole. -/
def Task.size (t : Task) : Nat := 3 * t.steps + t.code.layers

theorem Part.size_lt {r : Role} {t u : Task} (h : Part r t u) : u.size < t.size := by
  cases h <;> simp only [Task.size, Code.layers] <;> omega

/-- What a task inherits from its parts holds of all tasks. -/
theorem Task.induction {P : Task → Prop} (h : ∀ t, (∀ r u, Part r t u → P u) → P t) (t : Task) :
    P t := by
  induction hsize : t.size using Nat.strongRecOn generalizing t with
  | ind size ih => exact h t fun r u hpart => ih u.size (hsize ▸ hpart.size_lt) u rfl

end Monkey
