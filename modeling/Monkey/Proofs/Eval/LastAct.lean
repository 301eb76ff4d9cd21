import Monkey.Proofs.Eval.Grounded
import Monkey.Proofs.Eval.Stands

/-!
# How a task ends

When a task has come to its value, the last thing that was done is one of a few acts: it handed on
the value of a part, or what it read from a frame, or something that it had in hand; it made
something that holds nothing; it bound a name; it wrapped what is being returned, or unwrapped it;
or it made a new array, hash or function. Whatever those acts keep is kept by every run.

## Main definitions

* `Task.Creates` — that a task makes an object, out of what and on which machine.
* `Task.LastAct` — the last act of a task, with the value and the machine it leads to.
-/

namespace Monkey

open Eval

/-! ## Objects -/

/-- The identity of an array, a hash or a function. -/
def Value.identity? : Value → Option Identity
  | function id _ _ _ | array id _ | hash id _ => some id
  | _ => none

/-- The task makes an object on a machine: literals are evaluated to one, and `rest` and `push` make
arrays. The values are those that the task has in hand then, what is called being one of them. -/
inductive Task.Creates : Task → List Value → Machine → Value → Prop
  | function {n : Nat} {here : FrameId} {parameters : List Name} {body : Block} {m : Machine} :
      Creates ⟨n + 1, here, .expr (.function parameters body), m⟩ [] m
        (.function m.made parameters body here)
  | array {n : Nat} {here : FrameId} {es : List Expr} {vs : List Value} {m m₁ : Machine}
      (hvs : Yields (evalExpr n here) es m vs m₁) :
      Creates ⟨n + 1, here, .expr (.array es), m⟩ vs m₁ (.array m₁.made vs)
  | hash {n : Nat} {here : FrameId} {pairs : List (Expr × Expr)} {es : List (Key × Value)}
      {m m₁ : Machine} (hes : YieldsEntries (evalExpr n here) pairs m es m₁) :
      Creates ⟨n + 1, here, .expr (.hash pairs), m⟩ (entryValues es) m₁
        (.hash m₁.made (Entries.insertAll [] es))
  | rest {t : Task} {id : Identity} {v : Value} {vs : List Value} {m₁ : Machine}
      (hcall : t.Calls (.builtin .rest) [.array id (v :: vs)] m₁) :
      Creates t [.builtin .rest, .array id (v :: vs)] m₁ (.array m₁.made vs)
  | push {t : Task} {id : Identity} {vs : List Value} {v : Value} {m₁ : Machine}
      (hcall : t.Calls (.builtin .push) [.array id vs, v] m₁) :
      Creates t [.builtin .push, .array id vs, v] m₁ (.array m₁.made (vs ++ [v]))

/-- The machine when one more identity has been given out. -/
def Machine.another (m : Machine) : Machine := { m with made := m.made + 1 }

section Creations

variable {t : Task} {vs : List Value} {m : Machine} {v : Value}

theorem Task.Creates.identity?_eq (h : t.Creates vs m v) : v.identity? = some m.made := by
  cases h <;> rfl

theorem Task.Creates.stands (h : t.Creates vs m v) : t.Stands vs m := by
  cases h with
  | function => exact .begun
  | array hvs =>
    exact hvs.stands .begun (fun _ _ _ _ _ hes h => hes ▸ .element h) (List.append_nil _)
  | @hash n here pairs es m₀ _ hes =>
    have hstands := @YieldsEntries.stands n here m₀ pairs [] es m hes
    rwa [List.append_nil] at hstands
  | rest hcall | push hcall => exact hcall.stands

/-- The object is what the task comes to, and nothing has changed since but that there is one object
more. -/
theorem Task.Creates.run_eq (h : t.Creates vs m v) : t.run = some (v, m.another) := by
  cases h with
  | function => rfl
  | array hvs => exact hvs.withValues_eq newArray
  | hash hes => exact hes.withEntries_eq [] _
  | rest hcall | push hcall =>
    obtain ⟨n, hrun⟩ := hcall.run_eq
    exact hrun

/-- What a new object holds was in hand, or in something that was. -/
theorem Task.Creates.within {w : Value} (h : t.Creates vs m v) (hw : w.Within v) :
    w = v ∨ ∃ a ∈ vs, w.Within a := by
  cases hw with
  | refl => exact .inl rfl
  | returned => cases h
  | @element id ws a ha hw =>
    refine .inr ?_
    cases h with
    | array => exact ⟨a, ha, hw⟩
    | rest => exact ⟨_, .tail _ (.head _), .element (List.mem_cons_of_mem _ ha) hw⟩
    | push =>
      rcases List.mem_append.mp ha with ha | ha
      · exact ⟨_, .tail _ (.head _), .element ha hw⟩
      · exact ⟨a, by simp [List.mem_singleton.mp ha], hw⟩
  | @entry id entries e he hw =>
    cases h with
    | hash =>
      have he := (Entries.mem_of_mem_insertAll he).resolve_left (by simp)
      exact .inr ⟨e.2, List.mem_flatMap.mpr ⟨e, he, by simp⟩, hw⟩

end Creations

/-! ## What comes before the last act -/

section Inversion

variable {run : Expr → Eval Value} {exec : Stmt → Eval Value} {m m' : Machine} {v : Value}

/-- What is gone on with comes to its end either with an error or with a value and what follows. -/
theorem exists_of_andThen {x : Eval Value} {k : Value → Eval Value}
    (h : andThen x k m = some (v, m')) :
    (x m = some (v, m') ∧ v.isError = true) ∨
      ∃ a m₁, x m = some (a, m₁) ∧ a.isError = false ∧ k a m₁ = some (v, m') := by
  obtain ⟨a, m₁, hx, hk⟩ := bind_eq_some_iff.mp h
  cases ha : a.isError with
  | true =>
    simp only [ha, if_true] at hk
    obtain ⟨rfl, rfl⟩ := Prod.mk.inj (Option.some.inj hk)
    exact .inl ⟨hx, ha⟩
  | false => exact .inr ⟨a, m₁, hx, ha, by simpa [ha] using hk⟩

theorem exists_of_withValues {es : List Expr} {k : List Value → Eval Value}
    (h : withValues run es k m = some (v, m')) :
    (∃ before e after vs m₁, es = before ++ e :: after ∧ Yields run before m vs m₁ ∧
      run e m₁ = some (v, m') ∧ v.isError = true) ∨
    ∃ vs m₁, Yields run es m vs m₁ ∧ k vs m₁ = some (v, m') := by
  induction es generalizing m k with
  | nil => exact .inr ⟨[], m, .nil m, h⟩
  | cons e es ih =>
    rcases exists_of_andThen h with he | ⟨a, m₁, he, ha, h⟩
    · exact .inl ⟨[], e, es, [], m, rfl, .nil m, he⟩
    · rcases ih h with ⟨before, e', after, vs, m₂, rfl, hvs, he'⟩ | ⟨vs, m₂, hvs, hk⟩
      · exact .inl ⟨e :: before, e', after, a :: vs, m₂, rfl, .cons he ha hvs, he'⟩
      · exact .inr ⟨a :: vs, m₂, .cons he ha hvs, hk⟩

theorem exists_of_sequence {last : Value} {ss : List Stmt}
    (h : Eval.sequence exec last ss m = some (v, m')) :
    (ss = [] ∧ v = last ∧ m' = m) ∨ ∃ before s after m₁, ss = before ++ s :: after ∧
      Completes exec before m m₁ ∧ exec s m₁ = some (v, m') := by
  induction ss generalizing m last with
  | nil =>
    obtain ⟨rfl, rfl⟩ := Prod.mk.inj (Option.some.inj h)
    exact .inl ⟨rfl, rfl, rfl⟩
  | cons s ss ih =>
    obtain ⟨a, m₁, hs, h⟩ := bind_eq_some_iff.mp h
    refine .inr ?_
    cases ha : a.stops with
    | true =>
      simp only [ha, if_true] at h
      obtain ⟨rfl, rfl⟩ := Prod.mk.inj (Option.some.inj h)
      exact ⟨[], s, ss, m, rfl, .nil m, hs⟩
    | false =>
      simp only [ha, Bool.false_eq_true, if_false] at h
      rcases ih h with ⟨rfl, rfl, rfl⟩ | ⟨before, s', after, m₂, rfl, hbefore, hs'⟩
      · exact ⟨[], s, [], m, rfl, .nil m, hs⟩
      · exact ⟨s :: before, s', after, m₂, rfl, .cons hs ha hbefore, hs'⟩

/-- Of pairs that are not gone on with, one has a part with an error, or a key that is none. -/
theorem exists_of_withEntries {entries : Entries Value} {pairs : List (Expr × Expr)}
    {k : Entries Value → Eval Value} (h : withEntries run entries pairs k m = some (v, m')) :
    (∃ before e e' after es m₁, pairs = before ++ (e, e') :: after ∧
      YieldsEntries run before m es m₁ ∧ PairFails run e e' m₁ v m') ∨
    ∃ es m₁, YieldsEntries run pairs m es m₁ ∧ k (entries.insertAll es) m₁ = some (v, m') := by
  induction pairs generalizing m entries with
  | nil => exact .inr ⟨[], m, .nil m, h⟩
  | cons p pairs ih =>
    obtain ⟨e, e'⟩ := p
    rcases exists_of_andThen h with ⟨he, hv⟩ | ⟨a, m₁, he, herror, h⟩
    · exact .inl ⟨[], e, e', pairs, [], m, rfl, .nil m, .key he hv⟩
    cases ha : a.key? with
    | none =>
      simp only [ha] at h
      obtain ⟨rfl, rfl⟩ := Prod.mk.inj (Option.some.inj h)
      exact .inl ⟨[], e, e', pairs, [], m, rfl, .nil m, .unusable he herror ha⟩
    | some key =>
      obtain rfl := Value.key?_eq_some_iff.mp ha
      simp only [ha] at h
      rcases exists_of_andThen h with ⟨he', hv⟩ | ⟨w, m₂, he', hw, h⟩
      · exact .inl ⟨[], e, e', pairs, [], m, rfl, .nil m, .value he he' hv⟩
      rcases ih h with ⟨before, d, d', after, es, m₃, rfl, hes, hd⟩ | ⟨es, m₃, hes, hk⟩
      · exact .inl ⟨(e, e') :: before, d, d', after, (key, w) :: es, m₃, rfl, .cons he he' hw hes, hd⟩
      · exact .inr ⟨(key, w) :: es, m₃, .cons he he' hw hes, hk⟩

end Inversion

/-! ## The last act -/

/-- The value holds nothing and is no object. -/
def Value.isBare (v : Value) : Bool := v.isPlain || v.isError

/-- The last act of a task that comes to a value and leaves a machine. -/
inductive Task.LastAct (t : Task) : Value → Machine → Prop
  /-- The value is that of a part. -/
  | part {r : Role} {u : Task} {v : Value} {m' : Machine} (hpart : Part r t u)
      (hu : u.run = some (v, m')) : LastAct t v m'
  /-- The value is that of the body that was run, where a return arrives. -/
  | body {u : Task} {v : Value} {m' : Machine} (hpart : Part .body t u)
      (hu : u.run = some (v, m')) : LastAct t v.arrive m'
  /-- The value is made of nothing, and at most something was printed. -/
  | bare {vs : List Value} {v : Value} {m₁ m' : Machine} (hstands : t.Stands vs m₁)
      (hv : v.isBare = true) (hprints : m₁.Prints m') : LastAct t v m'
  /-- The value is read from a frame. -/
  | read {name : String} {v : Value} (hget : t.machine.store.get? t.frame name = some v) :
      LastAct t v t.machine
  /-- The value was in hand, or is taken out of something that was. -/
  | taken {vs : List Value} {a v : Value} {m₁ : Machine} (hstands : t.Stands vs m₁) (ha : a ∈ vs)
      (hv : v.Within a) : LastAct t v m₁
  /-- What was in hand is bound. -/
  | bound {name : String} {v : Value} {m₁ : Machine} (hstands : t.Stands [v] m₁) :
      LastAct t .null { m₁ with store := m₁.store.set t.frame name v }
  /-- What was in hand is being returned. -/
  | returned {v : Value} {m₁ : Machine} (hstands : t.Stands [v] m₁) : LastAct t (.returned v) m₁
  /-- The value is a new object. -/
  | created {vs : List Value} {v : Value} {m₁ : Machine} (h : t.Creates vs m₁ v) :
      LastAct t v m₁.another

section Acts

variable {t : Task} {n : Nat} {here : FrameId} {vs : List Value} {m m₁ m' : Machine} {v w : Value}

theorem Eval.printAll_bare {vs : List Value} (h : printAll vs m = some (v, m')) :
    v.isBare = true ∧ m.Prints m' := by
  induction vs generalizing m with
  | nil =>
    obtain ⟨rfl, rfl⟩ := Prod.mk.inj (Option.some.inj h)
    exact ⟨rfl, rfl, rfl⟩
  | cons a vs ih =>
    obtain ⟨ok, mid, hprint, h⟩ := bind_eq_some_iff.mp h
    have hmid := prints_print a.render hprint
    cases ok with
    | true =>
      obtain ⟨hv, hprints⟩ := ih h
      exact ⟨hv, trans_of Machine.Prints hmid hprints⟩
    | false =>
      obtain ⟨rfl, rfl⟩ := Prod.mk.inj (Option.some.inj h)
      exact ⟨rfl, hmid⟩

/-- A call of a builtin comes to something bare, or to something out of an argument, or to the new
array that `rest` or `push` makes. -/
theorem Builtin.exists_of_call {b : Builtin} (h : b.call vs m = some (v, m')) :
    (v.isBare = true ∧ m.Prints m') ∨ (m' = m ∧ ∃ a ∈ vs, v.Within a) ∨
    (b = .rest ∧ ∃ id w ws, vs = [.array id (w :: ws)] ∧ newArray ws m = some (v, m')) ∨
    (b = .push ∧ ∃ id ws w, vs = [.array id ws, w] ∧ newArray (ws ++ [w]) m = some (v, m')) := by
  have bare {a : Value} (ha : a.isBare = true) (h : (pure a : Eval Value) m = some (v, m')) :
      v.isBare = true ∧ m.Prints m' := by
    obtain ⟨rfl, rfl⟩ := Prod.mk.inj (Option.some.inj h)
    exact ⟨ha, rfl, rfl⟩
  have picked {id : Identity} {ws : List Value} {w? : Option Value} (hw : ∀ w, w? = some w → w ∈ ws)
      (h : (pure (w?.getD .null) : Eval Value) m = some (v, m')) :
      (v.isBare = true ∧ m.Prints m') ∨ m' = m ∧ ∃ a ∈ [Value.array id ws], v.Within a := by
    cases w? with
    | none => exact .inl (bare rfl h)
    | some w =>
      obtain ⟨rfl, rfl⟩ := Prod.mk.inj (Option.some.inj h)
      exact .inr ⟨rfl, _, List.mem_singleton_self _, .element (hw w rfl) .refl⟩
  unfold Builtin.call at h
  split at h
  · next a =>
    refine .inl (bare ?_ h)
    cases a <;> rfl
  · next a =>
    cases a with
    | array id ws => exact (picked (fun w => List.mem_of_head?) h).imp_right .inl
    | _ => exact .inl (bare rfl h)
  · next a =>
    cases a with
    | array id ws => exact (picked (fun w => List.mem_of_getLast?) h).imp_right .inl
    | _ => exact .inl (bare rfl h)
  · next a =>
    cases a with
    | array id ws =>
      cases ws with
      | nil => exact .inl (bare rfl h)
      | cons w ws => exact .inr (.inr (.inl ⟨rfl, id, w, ws, rfl, h⟩))
    | _ => exact .inl (bare rfl h)
  · next a w =>
    cases a with
    | array id ws => exact .inr (.inr (.inr ⟨rfl, id, ws, w, rfl, h⟩))
    | _ => exact .inl (bare rfl h)
  · exact .inl (printAll_bare h)
  · exact .inl (bare rfl h)
  · exact .inl (bare rfl h)

theorem Value.isBare_of_sound (h : Sound (fun v => v.isPlain = true) v) : v.isBare = true := by
  rcases h with h | h
  · simp [isBare, h]
  · simp [isBare, h.self]

theorem UnaryOp.isBare_apply (op : UnaryOp) (v : Value) : (op.apply v).isBare = true :=
  Value.isBare_of_sound (sound_unary (fun _ h => h) op v)

theorem BinaryOp.isBare_apply (op : BinaryOp) (a b : Value) : (op.apply a b).isBare = true :=
  Value.isBare_of_sound (sound_binary (fun _ h => h) op a b)

/-- What an index finds is taken out of what is indexed, if it is not bare. -/
theorem Value.index_within (v w : Value) : (v.index w).isBare = true ∨ (v.index w).Within v := by
  have hsound : Sound (fun u => u.isPlain = true ∨ u.Within v) (v.index w) :=
    sound_index (fun _ h => .inl h) fun u hu => .inr hu
  rcases hsound with h | h
  · exact .inl (by simp [isBare, h])
  · exact h.self.imp_left fun h => by simp [isBare, h]

/-- The task comes to a value that is bare. -/
theorem Task.Stands.lastAct (h : t.Stands vs m) (hv : v.isBare = true)
    (hpure : (pure v : Eval Value) m = some (w, m')) : t.LastAct w m' := by
  obtain ⟨rfl, rfl⟩ := Prod.mk.inj (Option.some.inj hpure)
  exact .bare h hv (refl_of Machine.Prints m)

end Acts

section Endings

variable {n : Nat} {here : FrameId} {m m' : Machine} {v : Value}

theorem Task.lastAct_block {body : Block} (h : evalBlock n here body m = some (v, m')) :
    Task.LastAct ⟨n, here, .block body, m⟩ v m' := by
  rcases exists_of_sequence h with ⟨rfl, rfl, rfl⟩ | ⟨before, s, after, m₁, rfl, hbefore, hs⟩
  · exact .bare .begun rfl ⟨rfl, rfl⟩
  · exact .part (.statement hbefore) hs

theorem Task.lastAct_program {p : Program} (h : evalProgram n here p m = some (v, m')) :
    Task.LastAct ⟨n, here, .program p, m⟩ v m' := by
  obtain ⟨a, m₁, hbody, h⟩ := bind_eq_some_iff.mp h
  obtain ⟨rfl, rfl⟩ := Prod.mk.inj (Option.some.inj h)
  exact .body .program hbody

theorem Task.lastAct_stmt {s : Stmt} (h : evalStmt n here s m = some (v, m')) :
    Task.LastAct ⟨n, here, .stmt s, m⟩ v m' := by
  cases n with
  | zero => cases h
  | succ n =>
    rw [evalStmt.eq_def] at h
    cases s with
    | binding x e =>
      rcases exists_of_andThen h with ⟨he, -⟩ | ⟨a, m₁, he, -, h⟩
      · exact .part .bound he
      · obtain ⟨rfl, rfl⟩ := Prod.mk.inj (Option.some.inj h)
        exact .bound (Part.bound.stands rfl he)
    | ret e =>
      rcases exists_of_andThen h with ⟨he, -⟩ | ⟨a, m₁, he, -, h⟩
      · exact .part .returned he
      · obtain ⟨rfl, rfl⟩ := Prod.mk.inj (Option.some.inj h)
        exact .returned (Part.returned.stands rfl he)
    | expression e => exact .part .expression h
    | loop c body =>
      rcases exists_of_andThen h with ⟨hc, -⟩ | ⟨test, m₁, hc, herror, h⟩
      · exact .part .test hc
      cases htest : test.isTruthy with
      | false =>
        simp only [htest, Bool.false_eq_true, if_false] at h
        exact (Part.test.stands rfl hc).lastAct rfl h
      | true =>
        simp only [htest, if_true] at h
        obtain ⟨a, m₂, hbody, h⟩ := bind_eq_some_iff.mp h
        cases ha : a.stops with
        | true =>
          simp only [ha, if_true] at h
          obtain ⟨rfl, rfl⟩ := Prod.mk.inj (Option.some.inj h)
          exact .part (.round hc herror htest) hbody
        | false =>
          simp only [ha, Bool.false_eq_true, if_false] at h
          exact .part (.nextRound hc herror htest hbody ha) h

/-- A call ends with the body of what is called, or with what a builtin comes to. -/
theorem Task.lastAct_call {f : Expr} {arguments : List Expr} {g : Value} {vs : List Value}
    {m₁ m₂ : Machine} (hf : evalExpr n here f m = some (g, m₁)) (hg : g.isCallable = true)
    (hvs : Yields (evalExpr n here) arguments m₁ vs m₂) (h : apply n g vs m₂ = some (v, m')) :
    Task.LastAct ⟨n + 1, here, .expr (.call f arguments), m⟩ v m' := by
  have hcalls : Task.Calls ⟨n + 1, here, .expr (.call f arguments), m⟩ g vs m₂ :=
    .intro hf hg fun k => hvs.withValues_eq k
  cases g with
  | function id parameters body outer =>
    change (if _ then _ else _ : Eval Value) m₂ = _ at h
    split at h
    · next hlength =>
      obtain ⟨inner, m₃, henter, h⟩ := bind_eq_some_iff.mp h
      obtain ⟨a, m₄, hbody, h⟩ := bind_eq_some_iff.mp h
      obtain ⟨rfl, rfl⟩ := Prod.mk.inj (Option.some.inj h)
      exact .body (.call hf hvs hlength henter) hbody
    · exact hcalls.stands.lastAct rfl h
  | builtin b =>
    rcases Builtin.exists_of_call h with ⟨hv, hprints⟩ | ⟨rfl, a, ha, hv⟩ |
      ⟨rfl, id, w, ws, rfl, h⟩ | ⟨rfl, id, ws, w, rfl, h⟩
    · exact .bare hcalls.stands hv hprints
    · exact .taken hcalls.stands (List.mem_cons_of_mem _ ha) hv
    · obtain ⟨rfl, rfl⟩ := Prod.mk.inj (Option.some.inj h)
      exact .created (.rest hcalls)
    · obtain ⟨rfl, rfl⟩ := Prod.mk.inj (Option.some.inj h)
      exact .created (.push hcalls)
  | _ => simp [Value.isCallable] at hg

theorem Task.lastAct_expr {e : Expr} (h : evalExpr n here e m = some (v, m')) :
    Task.LastAct ⟨n, here, .expr e, m⟩ v m' := by
  cases n with
  | zero => cases h
  | succ n =>
    rw [evalExpr.eq_def] at h
    cases e with
    | name x =>
      have hlookUp := (lookUp_apply m here x.text).symm.trans h
      obtain ⟨rfl, rfl⟩ := Prod.mk.inj (Option.some.inj hlookUp)
      unfold lookedUp
      split
      · next hget => exact .read hget
      · split <;> exact .bare .begun rfl ⟨rfl, rfl⟩
    | integer i => exact Stands.begun.lastAct rfl h
    | string s => exact Stands.begun.lastAct rfl h
    | boolean b => exact Stands.begun.lastAct rfl h
    | unary op e =>
      rcases exists_of_andThen h with ⟨he, -⟩ | ⟨a, m₁, he, -, h⟩
      · exact .part .unary he
      · exact (Part.unary.stands rfl he).lastAct (op.isBare_apply a) h
    | binary op l r =>
      rcases exists_of_andThen h with ⟨hl, -⟩ | ⟨a, m₁, hl, ha, h⟩
      · exact .part .left hl
      rcases exists_of_andThen h with ⟨hr, -⟩ | ⟨b, m₂, hr, -, h⟩
      · exact .part (.right hl ha) hr
      · exact ((Part.left.stands rfl hl).after (.right hl ha) hr).lastAct (op.isBare_apply a b) h
    | conditional c yes no =>
      rcases exists_of_andThen h with ⟨hc, -⟩ | ⟨test, m₁, hc, herror, h⟩
      · exact .part .condition hc
      cases htest : test.isTruthy with
      | true =>
        simp only [htest, if_true] at h
        exact .part (.consequence hc herror htest) h
      | false =>
        simp only [htest, Bool.false_eq_true, if_false] at h
        cases no with
        | none => exact (Part.condition.stands rfl hc).lastAct rfl h
        | some no => exact .part (.alternative hc herror htest) h
    | function parameters body =>
      obtain ⟨rfl, rfl⟩ := Prod.mk.inj (Option.some.inj h)
      exact .created .function
    | call f arguments =>
      rcases exists_of_andThen h with ⟨hf, -⟩ | ⟨g, m₁, hf, herror, h⟩
      · exact .part .callee hf
      cases hg : g.isCallable with
      | false =>
        simp only [hg, Bool.false_eq_true, if_false] at h
        exact (Part.callee.stands rfl hf).lastAct rfl h
      | true =>
        simp only [hg, if_true] at h
        rcases exists_of_withValues h with ⟨before, e, after, vs, m₂, rfl, hvs, he, -⟩ |
          ⟨vs, m₂, hvs, h⟩
        · exact .part (.argument hf hg hvs) he
        · exact lastAct_call hf hg hvs h
    | array elements =>
      rcases exists_of_withValues h with ⟨before, e, after, vs, m₁, rfl, hvs, he, -⟩ |
        ⟨vs, m₁, hvs, h⟩
      · exact .part (.element hvs) he
      · obtain ⟨rfl, rfl⟩ := Prod.mk.inj (Option.some.inj h)
        exact .created (.array hvs)
    | index l i =>
      rcases exists_of_andThen h with ⟨hl, -⟩ | ⟨a, m₁, hl, ha, h⟩
      · exact .part .collection hl
      rcases exists_of_andThen h with ⟨hi, -⟩ | ⟨b, m₂, hi, -, h⟩
      · exact .part (.position hl ha) hi
      have hstands := (Part.collection.stands rfl hl).after (.position hl ha) hi
      obtain ⟨rfl, rfl⟩ := Prod.mk.inj (Option.some.inj h)
      rcases Value.index_within a b with hbare | hwithin
      · exact .bare hstands hbare ⟨rfl, rfl⟩
      · exact .taken hstands List.mem_cons_self hwithin
    | hash pairs =>
      rcases exists_of_withEntries h with
        ⟨before, e, e', after, es, m₁, rfl, hes, hfails⟩ | ⟨es, m₁, hes, h⟩
      · cases hfails with
        | key he => exact .part (.key hes.yieldsPairs) he
        | unusable he =>
          exact .bare (hes.stands.after (.key hes.yieldsPairs) he) rfl ⟨rfl, rfl⟩
        | value he he' => exact .part (.value hes.yieldsPairs he (by simp)) he'
      · obtain ⟨rfl, rfl⟩ := Prod.mk.inj (Option.some.inj h)
        exact .created (.hash hes)

/-- Whatever a task comes to, its last act is one of those. -/
theorem Task.lastAct {t : Task} (h : t.run = some (v, m')) : t.LastAct v m' := by
  obtain ⟨n, here, code, m⟩ := t
  cases code with
  | expr e => exact lastAct_expr h
  | stmt s => exact lastAct_stmt h
  | block body => exact lastAct_block h
  | program p => exact lastAct_program h

end Endings

end Monkey
