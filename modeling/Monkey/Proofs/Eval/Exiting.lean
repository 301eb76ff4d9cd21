import Monkey.Proofs.Eval.Discipline
import Monkey.Proofs.Eval.Raising

/-!
# Returns as exits

Here is a third evaluator of the language, in which a return is not a value. It throws errors as
exceptions, and a return as another exception that carries the value and is caught by the call or
the program around it. No part of it looks whether a value is being returned, and none makes such a
value. On disciplined programs it agrees with the evaluator that passes returns on as values.

## Main definitions

* `Exiting` — evaluations that a return may leave.
* `Exiting.landed` — what comes of an evaluation that a return may leave.
* `Exiting.evalExpr`, `evalStmt`, `evalProgram` — the evaluator with exits.
-/

namespace Monkey

open Eval

/-- Evaluations that a return may leave, with the value that is returned. -/
abbrev Exiting (α : Type) : Type := ExceptT Value Raising α

namespace Exiting

/-! ## The evaluator with exits -/

/-- The value of the evaluation, or the one that is returned from it. -/
def landed (x : Exiting Value) : Raising Value := do
  match ← x.run with
  | .ok v => pure v
  | .error v => pure v

/-- Run statements one after the other. -/
def steps (run : Stmt → Exiting Value) : Value → List Stmt → Exiting Value
  | last, [] => pure last
  | _, s :: rest => do
    let v ← run s
    steps run v rest

/-- Put one more pair into the entries of a hash. -/
def entry (run : Expr → Exiting Value) (entries : Entries Value) (pair : Expr × Expr) :
    Exiting (Entries Value) := do
  let k ← run pair.1
  match k.key? with
  | none => liftM (throw (.notAKey k.kind) : Raising (Entries Value))
  | some key =>
    let v ← run pair.2
    pure (entries.insert key v)

/-- Call `f`. A return from its body lands here. -/
def callWith (run : FrameId → Block → Exiting Value) (f : Value) (arguments : List Value) :
    Raising Value :=
  match f with
  | .function _ parameters body frame =>
    if parameters.length = arguments.length then do
      let inner ← enter frame ((parameters.map (·.text)).zip arguments)
      landed (run inner body)
    else throw (.wrongArity parameters.length arguments.length)
  | .builtin b => Raising.raised (b.call arguments)
  | f => throw (.notCallable f.kind)

mutual

/-- The value of an expression in a frame. -/
def evalExpr : Nat → FrameId → Expr → Exiting Value
  | 0, _, _ => liftM (outOfSteps : Eval Value)
  | n + 1, frame, e =>
    match e with
    | .name x => liftM (Raising.raised (lookUp frame x.text))
    | .integer v => pure (.integer v)
    | .string s => pure (.string s)
    | .boolean b => pure (.boolean b)
    | .unary op e => do
      let v ← evalExpr n frame e
      liftM (Raising.raise (op.apply v))
    | .binary op l r => do
      let a ← evalExpr n frame l
      let b ← evalExpr n frame r
      liftM (Raising.raise (op.apply a b))
    | .conditional c yes no => do
      let test ← evalExpr n frame c
      if test.isTruthy then steps (evalStmt n frame) .null yes
      else match no with
        | some no => steps (evalStmt n frame) .null no
        | none => pure .null
    | .function parameters body => do
      let id ← (liftM freshIdentity : Exiting Identity)
      pure (.function id parameters body frame)
    | .call f arguments => do
      let f ← evalExpr n frame f
      if f.isCallable then
        let vs ← arguments.mapM (evalExpr n frame)
        liftM (callWith (fun frame body => steps (evalStmt n frame) .null body) f vs)
      else liftM (throw (.notCallable f.kind) : Raising Value)
    | .array elements => do
      let vs ← elements.mapM (evalExpr n frame)
      let id ← (liftM freshIdentity : Exiting Identity)
      pure (.array id vs)
    | .index l i => do
      let a ← evalExpr n frame l
      let b ← evalExpr n frame i
      liftM (Raising.raise (a.index b))
    | .hash pairs => do
      let entries ← pairs.foldlM (entry (evalExpr n frame)) []
      let id ← (liftM freshIdentity : Exiting Identity)
      pure (.hash id entries)

/-- The value of a statement in a frame. A return leaves everything up to the call or the program
that it stands in. -/
def evalStmt : Nat → FrameId → Stmt → Exiting Value
  | 0, _, _ => liftM (outOfSteps : Eval Value)
  | n + 1, frame, s =>
    match s with
    | .binding x e => do
      let v ← evalExpr n frame e
      let _ ← (liftM (assign frame x.text v) : Exiting Unit)
      pure .null
    | .ret e => do
      let v ← evalExpr n frame e
      throw v
    | .expression e => evalExpr n frame e
    | .loop c body => do
      let test ← evalExpr n frame c
      if test.isTruthy then
        let _ ← steps (evalStmt n frame) .null body
        evalStmt n frame (.loop c body)
      else pure .null

end

/-- The value of a program in a frame. -/
def evalProgram (n : Nat) (frame : FrameId) (program : Program) : Raising Value :=
  landed (steps (evalStmt n frame) .null program)

/-! ## What an evaluation leads to -/

/-- The evaluation begun in a machine that is settled ends in one, and its outcome has the property
unless an error is thrown. -/
def Leads {α : Type} (Q : α → Prop) (x : Raising α) : Prop :=
  Eval.Ensures (Machine.All Value.Settled) (fun r : Except Fault α => ∀ a, r = .ok a → Q a) x

/-- The two evaluations are the same from every machine that is settled. -/
def Same {α : Type} (y z : Eval α) : Prop := ∀ m : Machine, m.All Value.Settled → y m = z m

/-- The value, unless it is being returned, which leaves the evaluation. -/
def depart : Value → Exiting Value
  | .returned v => throw v
  | v => pure v

/-- The evaluation, left by a return if its value is being returned. -/
def leave (x : Raising Value) : Exiting Value := do
  let v ← (liftM x : Exiting Value)
  depart v

/-- The second evaluation is the first, and no return leaves it. -/
structure Agrees {α : Type} (Q : α → Prop) (x : Raising α) (y : Exiting α) : Prop where
  same : Same y (liftM x : Exiting α)
  leads : Leads Q x

/-- The second evaluation is left by a return where the value of the first is being returned, and is
the same otherwise. -/
structure Follows (may : Bool) (x : Raising Value) (y : Exiting Value) : Prop where
  same : Same y (leave x)
  leads : Leads (Value.Settles may) x

section Leads

variable {α β : Type} {Q : α → Prop} {P : β → Prop}

theorem leads_pure {a : α} (h : Q a) : Leads Q (pure a : Raising α) :=
  ensures_pure fun _ hb => Except.ok.inj hb ▸ h

theorem leads_throw (f : Fault) : Leads Q (throw f : Raising α) :=
  ensures_pure fun _ hb => by cases hb

theorem leads_lift {x : Eval α} (h : x.Ensures (Machine.All Value.Settled) Q) :
    Leads Q (liftM x : Raising α) :=
  h.bind fun _ ha => ensures_pure fun _ hb => Except.ok.inj hb ▸ ha

theorem Leads.mono {Q' : α → Prop} {x : Raising α} (h : Leads Q x) (hle : ∀ a, Q a → Q' a) :
    Leads Q' x := Eval.Ensures.mono h fun _ hr a ha => hle a (hr a ha)

theorem Leads.bind {x : Raising α} {k : α → Raising β} (hx : Leads Q x)
    (hk : ∀ a, Q a → Leads P (k a)) : Leads P (x >>= k) := by
  refine Eval.Ensures.bind hx fun r hr => ?_
  cases r with
  | ok a => exact hk a (hr a rfl)
  | error f => exact leads_throw f

theorem leads_raise {v : Value} (h : Sound Value.Settled v) :
    Leads (fun v => v.All Value.Settled) (Raising.raise v) := by
  rcases h with h | h
  · obtain ⟨f, rfl⟩ := Raising.eq_error_of_isError h
    exact leads_throw f
  · rw [Raising.raise_of_not_isError h.self.isError]
    exact leads_pure h

theorem leads_raised {x : Eval Value}
    (h : x.Ensures (Machine.All Value.Settled) (Sound Value.Settled)) :
    Leads (fun v => v.All Value.Settled) (Raising.raised x) :=
  (leads_lift h).bind fun _ => leads_raise

end Leads

section Same

variable {α β : Type} {Q : α → Prop}

/-- Two evaluations in a row are the same as two others if the first are the same and the second are
the same wherever the first may lead. -/
theorem Same.bind {x : Raising α} {y : Exiting α} {k k' : α → Exiting β}
    (hy : Same y (liftM x : Exiting α)) (hx : Leads Q x) (hk : ∀ a, Q a → Same (k a) (k' a)) :
    Same (y >>= k : Exiting β) ((liftM x : Exiting α) >>= k' : Exiting β) := by
  intro m hm
  have hlift (r : Option (Except Fault α × Machine)) (hr : x m = r) :
      (liftM x : Exiting α) m = r.map fun p => (p.1.map .ok, p.2) := by
    change (x m).bind _ = _
    rw [hr]
    rcases r with _ | ⟨_ | a, m'⟩ <;> rfl
  have hbind (k : α → Exiting β) (y : Exiting α) :
      (y >>= k) m = (y m).bind fun p => match p.1 with
        | .ok (.ok a) => k a p.2
        | .ok (.error v) => some (.ok (.error v), p.2)
        | .error f => some (.error f, p.2) := by
    change (y m).bind _ = _
    congr 1
    funext p
    rcases p with ⟨_ | ⟨_ | a⟩, m'⟩ <;> rfl
  rw [hbind, hbind, hy m hm]
  cases h : x m with
  | none => rw [hlift _ h]; rfl
  | some p =>
    obtain ⟨r, m'⟩ := p
    rw [hlift _ h]
    obtain ⟨hr, hm'⟩ := hx hm h
    cases r with
    | error f => rfl
    | ok a => exact hk a (hr a rfl) m' hm'

/-- After one evaluation two others are the same if they are wherever it may lead. -/
theorem Leads.same_bind {x : Raising α} {k k' : α → Raising β} (hx : Leads Q x)
    (hk : ∀ a, Q a → Same (k a) (k' a)) : Same (x >>= k : Raising β) (x >>= k' : Raising β) := by
  intro m hm
  change (x m).bind _ = (x m).bind _
  cases h : x m with
  | none => rfl
  | some p =>
    obtain ⟨r, m'⟩ := p
    obtain ⟨hr, hm'⟩ := hx hm h
    cases r with
    | error f => rfl
    | ok a => exact hk a (hr a rfl) m' hm'

theorem Same.bind_right {y z : Exiting α} (h : Same y z) (k : α → Exiting β) :
    Same (y >>= k : Exiting β) (z >>= k : Exiting β) := by
  intro m hm
  change (y m).bind _ = (z m).bind _
  rw [h m hm]

end Same

section Agrees

variable {α β : Type} {Q : α → Prop} {P : β → Prop} {may : Bool}

/-- An evaluation that is not left by a return agrees with itself. -/
theorem agrees_lift {x : Raising α} (h : Leads Q x) : Agrees Q x (liftM x) := ⟨fun _ _ => rfl, h⟩

theorem agrees_pure {a : α} (h : Q a) : Agrees Q (pure a) (pure a) := agrees_lift (leads_pure h)

theorem Agrees.bind {x : Raising α} {y : Exiting α} {k : α → Raising β} {k' : α → Exiting β}
    (h : Agrees Q x y) (hk : ∀ a, Q a → Agrees P (k a) (k' a)) :
    Agrees P (x >>= k) (y >>= k') := by
  refine ⟨?_, h.leads.bind fun a ha => (hk a ha).leads⟩
  have hsame := h.same.bind h.leads fun a ha => (hk a ha).same
  rwa [← liftM_bind] at hsame

theorem Agrees.bind_follows {x : Raising α} {y : Exiting α} {k : α → Raising Value}
    {k' : α → Exiting Value} (h : Agrees Q x y) (hk : ∀ a, Q a → Follows may (k a) (k' a)) :
    Follows may (x >>= k) (y >>= k') := by
  refine ⟨?_, h.leads.bind fun a ha => (hk a ha).leads⟩
  have hsame := h.same.bind h.leads fun a ha => (hk a ha).same
  have hleave : leave (x >>= k) = (liftM x : Exiting α) >>= fun a => leave (k a) := by
    simp [leave]
  rwa [← hleave] at hsame

/-- A settled value is not being returned, so no return leaves the evaluation. -/
theorem depart_of_all {v : Value} (h : v.All Value.Settled) : depart v = pure v := by
  cases v with
  | returned w => exact absurd rfl h.self.ne_returned
  | _ => rfl

theorem same_leave {x : Raising Value} (h : Leads (fun v => v.All Value.Settled) x) :
    Same (leave x) (liftM x : Exiting Value) := by
  have hdepart (v : Value) (hv : v.All Value.Settled) :
      Same (depart v) (pure v : Exiting Value) := by
    intro m hm
    rw [depart_of_all hv]
  have hsame := (agrees_lift h).same.bind h hdepart
  rwa [bind_pure] at hsame

theorem Follows.agrees {x : Raising Value} {y : Exiting Value} (h : Follows false x y) :
    Agrees (fun v => v.All Value.Settled) x y := by
  have hleads := h.leads.mono fun v => Value.settles_false_iff.mp
  exact ⟨fun m hm => (h.same m hm).trans (same_leave hleads m hm), hleads⟩

theorem Agrees.follows {x : Raising Value} {y : Exiting Value}
    (h : Agrees (fun v => v.All Value.Settled) x y) : Follows may x y :=
  ⟨fun m hm => (h.same m hm).trans (same_leave h.leads m hm).symm, h.leads.mono fun _ => .inl⟩

end Agrees

/-! ## Lists, statements and calls -/

section Lists

variable {run : Expr → Raising Value} {run' : Expr → Exiting Value}

theorem agrees_mapM {es : List Expr}
    (h : ∀ e ∈ es, Agrees (fun v => v.All Value.Settled) (run e) (run' e)) :
    Agrees (fun vs => ∀ v ∈ vs, v.All Value.Settled) (es.mapM run) (es.mapM run') := by
  induction es with
  | nil => exact agrees_pure (by simp)
  | cons e es ih =>
    simp only [List.mapM_cons]
    refine (h e List.mem_cons_self).bind fun v hv => ?_
    refine (ih fun e' he' => h e' (List.mem_cons_of_mem e he')).bind fun vs hvs => ?_
    refine agrees_pure fun w hw => ?_
    rcases List.mem_cons.mp hw with rfl | hw
    · exact hv
    · exact hvs w hw

theorem agrees_entry {entries : Entries Value} {pair : Expr × Expr}
    (hentries : ∀ e ∈ entries, e.2.All Value.Settled)
    (hkey : Agrees (fun v => v.All Value.Settled) (run pair.1) (run' pair.1))
    (hvalue : Agrees (fun v => v.All Value.Settled) (run pair.2) (run' pair.2)) :
    Agrees (fun es : Entries Value => ∀ e ∈ es, e.2.All Value.Settled)
      (Raising.entry run entries pair) (entry run' entries pair) := by
  refine hkey.bind fun k _ => ?_
  cases k.key? with
  | none => exact agrees_lift (leads_throw _)
  | some key =>
    refine hvalue.bind fun v hv => agrees_pure fun e he => ?_
    rcases Entries.mem_of_mem_insert he with he | rfl
    · exact hentries e he
    · exact hv

theorem agrees_foldlM {pairs : List (Expr × Expr)} {entries : Entries Value}
    (hentries : ∀ e ∈ entries, e.2.All Value.Settled)
    (hkey : ∀ p ∈ pairs, Agrees (fun v => v.All Value.Settled) (run p.1) (run' p.1))
    (hvalue : ∀ p ∈ pairs, Agrees (fun v => v.All Value.Settled) (run p.2) (run' p.2)) :
    Agrees (fun es : Entries Value => ∀ e ∈ es, e.2.All Value.Settled)
      (pairs.foldlM (Raising.entry run) entries) (pairs.foldlM (entry run') entries) := by
  induction pairs generalizing entries with
  | nil => exact agrees_pure hentries
  | cons p pairs ih =>
    simp only [List.foldlM_cons]
    have hentry := agrees_entry hentries (hkey p List.mem_cons_self) (hvalue p List.mem_cons_self)
    exact hentry.bind fun es hes => ih hes (fun q hq => hkey q (List.mem_cons_of_mem p hq))
      fun q hq => hvalue q (List.mem_cons_of_mem p hq)

end Lists

section Statements

variable {may : Bool}

/-- What goes on unless a value is being returned is what goes on where a return is an exit. -/
theorem Follows.bind {x : Raising Value} {y : Exiting Value} {k : Value → Raising Value}
    {k' : Value → Exiting Value} (h : Follows may x y)
    (hk : ∀ v, v.All Value.Settled → Follows may (k v) (k' v)) :
    Follows may (x >>= Raising.unlessReturned k) (y >>= k') := by
  have hunless {v : Value} (hv : v.All Value.Settled) : Raising.unlessReturned k v = k v := by
    cases v with
    | returned w => exact absurd rfl hv.self.ne_returned
    | _ => rfl
  constructor
  · have hstep (v : Value) (hv : v.Settles may) :
        Same (depart v >>= k' : Exiting Value) (leave (Raising.unlessReturned k v)) := by
      rcases hv with hv | ⟨-, w, rfl, -⟩
      · rw [depart_of_all hv, pure_bind, hunless hv]
        exact (hk v hv).same
      · exact fun _ _ => rfl
    have hleave : leave (x >>= Raising.unlessReturned k) =
        (liftM x : Exiting Value) >>= fun v => leave (Raising.unlessReturned k v) := by
      simp [leave]
    have hsame := (agrees_lift h.leads).same.bind h.leads hstep
    rw [← hleave, ← bind_assoc] at hsame
    exact fun m hm => (h.same.bind_right k' m hm).trans (hsame m hm)
  · refine h.leads.bind fun v hv => ?_
    rcases hv with hv | ⟨hmay, w, rfl, hw⟩
    · rw [hunless hv]
      exact (hk v hv).leads
    · exact leads_pure (.inr ⟨hmay, w, rfl, hw⟩)

theorem follows_steps {run : Stmt → Raising Value} {run' : Stmt → Exiting Value} {ss : List Stmt}
    (h : ∀ s ∈ ss, Follows may (run s) (run' s)) {last : Value} (hlast : last.All Value.Settled) :
    Follows may (Raising.steps run last ss) (steps run' last ss) := by
  induction ss generalizing last with
  | nil => exact (agrees_pure hlast).follows
  | cons s ss ih =>
    refine (h s List.mem_cons_self).bind fun v hv => ?_
    exact ih (fun s' hs' => h s' (List.mem_cons_of_mem s hs')) hv

/-- A return that is taken off as a layer of a value is a return that has landed. -/
theorem Follows.landing {x : Raising Value} {y : Exiting Value} (h : Follows may x y) :
    Same (do let v ← x; Raising.raise v.arrive : Raising Value) (landed y) ∧
      Leads (fun v => v.All Value.Settled)
        (do let v ← x; Raising.raise v.arrive : Raising Value) := by
  have harrive (v : Value) (hv : v.Settles may) :
      Same (Raising.raise v.arrive) (landed (depart v)) := by
    rw [Raising.raise_of_not_isError hv.arrive.self.isError]
    cases v <;> exact fun _ _ => rfl
  have hlanded : landed (leave x) = (do let v ← x; landed (depart v) : Raising Value) := by
    funext m
    change (((x m).bind _).bind _).bind _ = (x m).bind _
    rcases x m with _ | ⟨_ | v, m'⟩ <;> rfl
  refine ⟨fun m hm => ?_, h.leads.bind fun v hv => leads_raise (.inr hv.arrive)⟩
  calc (do let v ← x; Raising.raise v.arrive : Raising Value) m
      = landed (leave x) m := by rw [hlanded, h.leads.same_bind harrive m hm]
    _ = landed y m := by
      change (leave x m).bind _ = (y m).bind _
      rw [h.same m hm]

/-- What the text and the body of a function say of a call of it. -/
theorem agrees_callWith {run : FrameId → Block → Raising Value}
    {run' : FrameId → Block → Exiting Value} {f : Value} {arguments : List Value}
    (hrun : ∀ frame body, Block.isDisciplined body = true →
      Follows true (run frame body) (run' frame body))
    (hf : f.All Value.Settled) (hvs : ∀ v ∈ arguments, v.All Value.Settled) :
    Agrees (fun v => v.All Value.Settled) (Raising.callWith run f arguments)
      (liftM (callWith run' f arguments)) := by
  suffices hcall : Same (Raising.callWith run f arguments) (callWith run' f arguments) ∧
      Leads (fun v => v.All Value.Settled) (Raising.callWith run f arguments) by
    refine ⟨fun m hm => ?_, hcall.2⟩
    change (callWith run' f arguments m).bind _ = (Raising.callWith run f arguments m).bind _
    rw [hcall.1 m hm]
  cases f with
  | function id parameters body frame =>
    simp only [Raising.callWith, callWith]
    split
    · have hbody : Block.isDisciplined body = true := hf.self.2 id parameters body frame rfl
      have henter : Leads (fun _ => True) (liftM (enter frame
          ((parameters.map (·.text)).zip arguments)) : Raising FrameId) :=
        leads_lift (ensures_enter fun b hb => hvs b.2 (List.of_mem_zip hb).2)
      constructor
      · exact henter.same_bind fun inner _ => (hrun inner body hbody).landing.1
      · exact henter.bind fun inner _ => (hrun inner body hbody).landing.2
    · exact ⟨fun _ _ => rfl, leads_throw _⟩
  | builtin b =>
    exact ⟨fun _ _ => rfl,
      leads_raised (ensures_call Value.settled_of_isPlain Value.settled_array b hvs)⟩
  | _ => exact ⟨fun _ _ => rfl, leads_throw _⟩

end Statements

/-! ## The two evaluators -/

theorem agrees_raised {x : Eval Value}
    (h : x.Ensures (Machine.All Value.Settled) (Sound Value.Settled)) :
    Agrees (fun v => v.All Value.Settled) (Raising.raised x) (liftM (Raising.raised x)) :=
  agrees_lift (leads_raised h)

theorem agrees_raise {v : Value} (h : Sound Value.Settled v) :
    Agrees (fun v => v.All Value.Settled) (Raising.raise v) (liftM (Raising.raise v)) :=
  agrees_lift (leads_raise h)

theorem agrees_plain {v : Value} (h : v.isPlain = true) :
    Agrees (fun v => v.All Value.Settled) (pure v) (pure v) :=
  agrees_pure (Value.all_of_isPlain h (Value.settled_of_isPlain v h))

/-- Expressions and statements that are disciplined have the values and the exits that they have
where a return is an exit. The induction is on the number of steps, over all texts at once. -/
theorem follows_evalExpr_evalStmt (n : Nat) :
    (∀ here may e, e.isDisciplined may = true →
      Follows may (Raising.evalExpr n here e) (evalExpr n here e)) ∧
    ∀ here may s, s.isDisciplined may = true →
      Follows may (Raising.evalStmt n here s) (evalStmt n here s) := by
  induction n with
  | zero =>
    have hcut : Agrees (fun v => v.All Value.Settled)
        (liftM (outOfSteps : Eval Value)) (liftM (outOfSteps : Eval Value)) :=
      agrees_lift fun m r m' _ h => by cases h
    exact ⟨fun _ _ _ _ => hcut.follows, fun _ _ _ _ => hcut.follows⟩
  | succ n ih =>
    obtain ⟨hexpr, hstmt⟩ := ih
    have operand {here : FrameId} {e : Expr} (h : e.isDisciplined false = true) :=
      (hexpr here false e h).agrees
    have block {here : FrameId} {may : Bool} {body : Block}
        (h : statementsAreDisciplined may body = true) :
        Follows may (Raising.steps (Raising.evalStmt n here) .null body)
          (steps (evalStmt n here) .null body) :=
      follows_steps (fun s hs => hstmt here may s (statementsAreDisciplined_iff.mp h s hs))
        (Value.all_of_isPlain rfl (Value.settled_of_isPlain .null rfl))
    have fresh : Agrees (fun _ => True) (liftM freshIdentity : Raising Identity)
        (liftM freshIdentity : Exiting Identity) :=
      agrees_lift (leads_lift (ensures_of_sameStore sameStore_freshIdentity))
    constructor
    · intro here may e he
      rw [Raising.evalExpr.eq_def, evalExpr.eq_def]
      cases e with
      | name x => exact (agrees_raised (ensures_lookUp Value.settled_of_isPlain here x.text)).follows
      | integer v => exact (agrees_plain (v := .integer v) rfl).follows
      | string s => exact (agrees_plain (v := .string s) rfl).follows
      | boolean b => exact (agrees_plain (v := .boolean b) rfl).follows
      | unary op e =>
        simp only [Expr.isDisciplined] at he
        refine ((operand he).bind fun v _ => ?_).follows
        exact agrees_raise (sound_unary Value.settled_of_isPlain op v)
      | binary op l r =>
        simp only [Expr.isDisciplined, Bool.and_eq_true] at he
        refine ((operand he.1).bind fun a _ => (operand he.2).bind fun b _ => ?_).follows
        exact agrees_raise (sound_binary Value.settled_of_isPlain op a b)
      | conditional c yes no =>
        simp only [Expr.isDisciplined, Bool.and_eq_true] at he
        refine (operand he.1.1).bind_follows fun test _ => ?_
        split
        · exact block he.1.2
        · cases no with
          | none => exact (agrees_plain (v := .null) rfl).follows
          | some no => exact block he.2
      | function parameters body =>
        simp only [Expr.isDisciplined] at he
        refine (fresh.bind fun id _ => agrees_pure ?_).follows
        exact Value.all_function (Value.settled_function he)
      | call f arguments =>
        simp only [Expr.isDisciplined, Bool.and_eq_true, operandsAreDisciplined_iff] at he
        refine ((operand he.1).bind fun g hg => ?_).follows
        split
        · refine (agrees_mapM fun e he' => operand (he.2 e he')).bind fun vs hvs => ?_
          exact agrees_callWith (fun frame body h => block h) hg hvs
        · exact agrees_lift (leads_throw _)
      | array elements =>
        simp only [Expr.isDisciplined, operandsAreDisciplined_iff] at he
        refine ((agrees_mapM fun e he' => operand (he e he')).bind fun vs hvs => ?_).follows
        refine fresh.bind fun id _ => agrees_pure ?_
        exact Value.all_array (Value.settled_array id vs) hvs
      | index l i =>
        simp only [Expr.isDisciplined, Bool.and_eq_true] at he
        refine ((operand he.1).bind fun a ha => (operand he.2).bind fun b _ => ?_).follows
        exact agrees_raise (sound_index Value.settled_of_isPlain ha)
      | hash pairs =>
        simp only [Expr.isDisciplined, pairsAreDisciplined_iff] at he
        refine ((agrees_foldlM (by simp) (fun p hp => operand (he p hp).1)
          fun p hp => operand (he p hp).2).bind fun entries hentries => ?_).follows
        refine fresh.bind fun id _ => agrees_pure ?_
        exact Value.all_hash (Value.settled_hash id entries) hentries
    · intro here may s hs
      rw [Raising.evalStmt.eq_def, evalStmt.eq_def]
      cases s with
      | binding x e =>
        simp only [Stmt.isDisciplined] at hs
        refine ((operand hs).bind fun v hv => ?_).follows
        have hassign : Agrees (fun _ => True) (liftM (assign here x.text v) : Raising Unit)
            (liftM (assign here x.text v) : Exiting Unit) :=
          agrees_lift (leads_lift (ensures_assign hv))
        exact hassign.bind fun _ _ => agrees_plain rfl
      | ret e =>
        simp only [Stmt.isDisciplined, Bool.and_eq_true] at hs
        refine (operand hs.2).bind_follows fun v hv => ?_
        exact ⟨fun _ _ => rfl, leads_pure (.inr ⟨hs.1, v, rfl, hv⟩)⟩
      | expression e => exact hexpr here may e hs
      | loop c body =>
        have hloop := hs
        simp only [Stmt.isDisciplined, Bool.and_eq_true] at hs
        refine (operand hs.1).bind_follows fun test _ => ?_
        split
        · exact (block hs.2).bind fun v _ => hstmt here may (.loop c body) hloop
        · exact (agrees_plain (v := .null) rfl).follows

end Exiting

end Monkey
