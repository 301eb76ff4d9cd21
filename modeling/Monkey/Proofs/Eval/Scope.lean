import Monkey.Proofs.Eval.Keeps
import Monkey.Proofs.Store.Frames

/-!
# Scope

An evaluation in a frame binds names in that frame and in no other that was there before. Calls bind
names as well, but every call does so in a new frame of its own, whichever function is called and
wherever it was found. So which names can get another value in the frame is to be read off the text:
they are the targets of its `let` statements, those in function literals left out.

## Main definitions

* `Expr.Binds`, `Stmt.Binds` — the names that evaluating can bind.
* `Code` — what can be evaluated in a frame.
* `Machine.Confined` — that nothing has changed but such names in one frame.
-/

namespace Monkey

open Eval

/-! ## Targets -/

mutual

/-- A `let` for the name stands in the expression, outside every function literal. -/
inductive Expr.Binds : Expr → String → Prop
  | unary {op : UnaryOp} {e : Expr} {x : String} (h : Expr.Binds e x) : Expr.Binds (.unary op e) x
  | left {op : BinaryOp} {l r : Expr} {x : String} (h : Expr.Binds l x) :
      Expr.Binds (.binary op l r) x
  | right {op : BinaryOp} {l r : Expr} {x : String} (h : Expr.Binds r x) :
      Expr.Binds (.binary op l r) x
  | condition {c : Expr} {yes : Block} {no : Option Block} {x : String} (h : Expr.Binds c x) :
      Expr.Binds (.conditional c yes no) x
  | consequence {c : Expr} {yes : Block} {no : Option Block} {s : Stmt} {x : String} (hs : s ∈ yes)
      (h : Stmt.Binds s x) : Expr.Binds (.conditional c yes no) x
  | alternative {c : Expr} {yes no : Block} {s : Stmt} {x : String} (hs : s ∈ no)
      (h : Stmt.Binds s x) : Expr.Binds (.conditional c yes (some no)) x
  | callee {f : Expr} {arguments : List Expr} {x : String} (h : Expr.Binds f x) :
      Expr.Binds (.call f arguments) x
  | argument {f e : Expr} {arguments : List Expr} {x : String} (he : e ∈ arguments)
      (h : Expr.Binds e x) : Expr.Binds (.call f arguments) x
  | element {e : Expr} {elements : List Expr} {x : String} (he : e ∈ elements)
      (h : Expr.Binds e x) : Expr.Binds (.array elements) x
  | collection {l i : Expr} {x : String} (h : Expr.Binds l x) : Expr.Binds (.index l i) x
  | position {l i : Expr} {x : String} (h : Expr.Binds i x) : Expr.Binds (.index l i) x
  | key {p : Expr × Expr} {pairs : List (Expr × Expr)} {x : String} (hp : p ∈ pairs)
      (h : Expr.Binds p.1 x) : Expr.Binds (.hash pairs) x
  | value {p : Expr × Expr} {pairs : List (Expr × Expr)} {x : String} (hp : p ∈ pairs)
      (h : Expr.Binds p.2 x) : Expr.Binds (.hash pairs) x

/-- A `let` for the name stands in the statement, outside every function literal. -/
inductive Stmt.Binds : Stmt → String → Prop
  | target {n : Name} {e : Expr} : Stmt.Binds (.binding n e) n.text
  | bound {n : Name} {e : Expr} {x : String} (h : Expr.Binds e x) : Stmt.Binds (.binding n e) x
  | ret {e : Expr} {x : String} (h : Expr.Binds e x) : Stmt.Binds (.ret e) x
  | expression {e : Expr} {x : String} (h : Expr.Binds e x) : Stmt.Binds (.expression e) x
  | test {c : Expr} {body : Block} {x : String} (h : Expr.Binds c x) : Stmt.Binds (.loop c body) x
  | body {c : Expr} {body : Block} {s : Stmt} {x : String} (hs : s ∈ body) (h : Stmt.Binds s x) :
      Stmt.Binds (.loop c body) x

end

/-- What can be evaluated in a frame. -/
inductive Code where
  | expr (e : Expr)
  | stmt (s : Stmt)
  | block (body : Block)
  | program (p : Program)

namespace Code

/-- The value of a piece of code in a frame. -/
def eval (n : Nat) (frame : FrameId) : Code → Eval Value
  | expr e => evalExpr n frame e
  | stmt s => evalStmt n frame s
  | block body => evalBlock n frame body
  | program p => evalProgram n frame p

/-- A `let` for the name stands in the code, outside every function literal. -/
def Binds : Code → String → Prop
  | expr e, x => e.Binds x
  | stmt s, x => s.Binds x
  | block body, x => ∃ s ∈ body, s.Binds x
  | program p, x => ∃ s ∈ p, s.Binds x

end Code

/-! ## What may change -/

/-- The second frame is the first after some of the names were bound: it is enclosed by the same
frame, it binds every name that the first binds, and no other name has another value. -/
structure Frame.Rebinds (Targets : String → Prop) (f g : Frame) : Prop where
  outer : g.outer = f.outer
  bound : ∀ x, (f.bindings.find? x).isSome → (g.bindings.find? x).isSome
  value : ∀ x, ¬ Targets x → g.bindings.find? x = f.bindings.find? x

namespace Machine

/-- Of the frames of the first machine all but `here` are as they were, and in `here` nothing has
changed but the values of some names. -/
structure Confined (here : FrameId) (Targets : String → Prop) (m m' : Machine) : Prop where
  others : ∀ ⦃i : FrameId⦄ ⦃f : Frame⦄, i ≠ here → m.store.frames[i]? = some f →
    m'.store.frames[i]? = some f
  here : ∀ ⦃f : Frame⦄, m.store.frames[here]? = some f →
    ∃ g, m'.store.frames[here]? = some g ∧ f.Rebinds Targets g

variable {here : FrameId} {Targets Targets' : String → Prop} {m m' : Machine}

instance : IsPreorder Machine (Confined here Targets) where
  refl _ := ⟨fun _ _ _ hf => hf, fun f hf => ⟨f, hf, rfl, fun _ h => h, fun _ _ => rfl⟩⟩
  trans _ _ _ h h' := by
    refine ⟨fun i f hi hf => h'.others hi (h.others hi hf), fun f hf => ?_⟩
    obtain ⟨g, hg, hfg⟩ := h.here hf
    obtain ⟨g', hg', hgg'⟩ := h'.here hg
    exact ⟨g', hg', hgg'.outer.trans hfg.outer, fun x hx => hgg'.bound x (hfg.bound x hx),
      fun x hx => (hgg'.value x hx).trans (hfg.value x hx)⟩

theorem Confined.mono (h : Confined here Targets m m') (hle : ∀ x, Targets x → Targets' x) :
    Confined here Targets' m m' := by
  refine ⟨h.others, fun f hf => ?_⟩
  obtain ⟨g, hg, hfg⟩ := h.here hf
  exact ⟨g, hg, hfg.outer, hfg.bound, fun x hx => hfg.value x fun hx' => hx (hle x hx')⟩

theorem Retains.confined (h : Retains m m') : Confined here Targets m m' :=
  ⟨fun _ _ _ hf => h hf, fun f hf => ⟨f, h hf, rfl, fun _ hx => hx, fun _ _ => rfl⟩⟩

end Machine

open Machine

theorem confined_of_sameStore {α : Type} {here : FrameId} {Targets : String → Prop} {x : Eval α}
    (h : x.Keeps SameStore) : x.Keeps (Confined here Targets) :=
  h.mono fun _ _ h => h.retains.confined

/-! ## Frames -/

/-- Binding a name in a frame changes the value of the name there and nothing else. -/
theorem confined_assign {here : FrameId} {Targets : String → Prop} {name : String}
    (hname : Targets name) (v : Value) : (assign here name v).Keeps (Confined here Targets) := by
  intro m u m' h
  obtain ⟨-, rfl⟩ := Prod.mk.inj (Option.some.inj h)
  refine ⟨fun i f hi hf => ?_, fun f hf => ⟨{ f with bindings := f.bindings.set name v }, ?_, ?_⟩⟩
  · change (m.store.set here name v).frames[i]? = some f
    rw [Store.getElem?_set, if_neg (Ne.symm hi), hf]
  · change (m.store.set here name v).frames[here]? = _
    rw [Store.getElem?_set, if_pos rfl, hf]
    rfl
  · refine ⟨rfl, fun x hx => ?_, fun x hx => ?_⟩
    · rw [Bindings.find?_set]
      split
      · rfl
      · exact hx
    · have hne : name ≠ x := fun h => hx (h ▸ hname)
      rw [Bindings.find?_set, if_neg hne]

/-- A frame that is entered is new, and the names are bound in no other. -/
theorem retains_of_enter {outer inner : FrameId} {bindings : List (String × Value)}
    {m m' : Machine} (h : enter outer bindings m = some (inner, m')) :
    inner = m.store.frames.size ∧ Retains m m' := by
  obtain ⟨rfl, rfl⟩ := Prod.mk.inj (Option.some.inj h)
  refine ⟨rfl, fun i f hf => ?_⟩
  have hi : i < m.store.frames.size := (Array.getElem?_eq_some_iff.mp hf).1
  change ((m.store.add (some outer)).2.setAll m.store.frames.size bindings).frames[i]? = some f
  rw [Store.getElem?_setAll _ (Nat.ne_of_lt hi), Store.getElem?_add _ _ hi, hf]

/-- A call changes no frame that was there before it. -/
theorem retains_applyWith {run : FrameId → Block → Eval Value} {Targets : Block → String → Prop}
    (hrun : ∀ frame body, (run frame body).Keeps (Confined frame (Targets body))) (f : Value)
    (arguments : List Value) : (applyWith run f arguments).Keeps Retains := by
  unfold applyWith
  split
  · next id parameters body frame =>
    split
    · intro m v m' h
      obtain ⟨inner, m₁, henter, h⟩ := bind_eq_some_iff.mp h
      obtain ⟨w, m₂, hbody, h⟩ := bind_eq_some_iff.mp h
      obtain ⟨-, rfl⟩ := Prod.mk.inj (Option.some.inj h)
      obtain ⟨rfl, hretains⟩ := retains_of_enter henter
      intro i f hf
      have hi : i < m.store.frames.size := (Array.getElem?_eq_some_iff.mp hf).1
      exact (hrun _ _ hbody).others (Nat.ne_of_lt hi) (hretains hf)
    · exact keeps_fault _
  · exact (sameStore_call _ _).mono fun _ _ h => h.retains
  · exact keeps_fault _

/-! ## Evaluation -/

/-- Expressions and statements bind no names but their targets, and none outside their frame. -/
theorem confined_evalExpr_evalStmt (n : Nat) :
    (∀ here e, (evalExpr n here e).Keeps (Confined here e.Binds)) ∧
      ∀ here s, (evalStmt n here s).Keeps (Confined here s.Binds) := by
  induction n with
  | zero => exact ⟨fun _ _ => keeps_outOfSteps, fun _ _ => keeps_outOfSteps⟩
  | succ n ih =>
    obtain ⟨hexpr, hstmt⟩ := ih
    -- a part binds no more than the whole, which is all that its relation has to be widened to
    have part {here : FrameId} {e : Expr} {Targets : String → Prop}
        (h : ∀ x, e.Binds x → Targets x) : (evalExpr n here e).Keeps (Confined here Targets) :=
      (hexpr here e).mono fun _ _ h' => h'.mono h
    have block {here : FrameId} {body : Block} {Targets : String → Prop}
        (h : ∀ s ∈ body, ∀ x, s.Binds x → Targets x) :
        (Eval.sequence (evalStmt n here) .null body).Keeps (Confined here Targets) :=
      keeps_sequence (fun s hs => (hstmt here s).mono fun _ _ h' => h'.mono (h s hs)) .null
    have call {here : FrameId} {Targets : String → Prop} (f : Value) (vs : List Value) :
        (applyWith (fun frame body => Eval.sequence (evalStmt n frame) .null body) f vs).Keeps
          (Confined here Targets) := by
      have hrun (frame : FrameId) (body : Block) :
          (Eval.sequence (evalStmt n frame) .null body).Keeps
            (Confined frame fun x => ∃ s ∈ body, s.Binds x) :=
        block fun s hs _ hx => ⟨s, hs, hx⟩
      exact (retains_applyWith hrun f vs).mono fun _ _ h => h.confined
    constructor
    · intro here e
      rw [evalExpr.eq_def]
      cases e with
      | name x => exact confined_of_sameStore (sameStore_lookUp here x.text)
      | integer v => exact keeps_pure _
      | string s => exact keeps_pure _
      | boolean b => exact keeps_pure _
      | unary op e => exact (part fun _ => .unary).andThen fun _ => keeps_pure _
      | binary op l r =>
        exact (part fun _ => .left).andThen fun _ =>
          (part fun _ => .right).andThen fun _ => keeps_pure _
      | conditional c yes no =>
        refine (part fun _ => .condition).andThen fun test => ?_
        split
        · exact block fun s hs _ hx => .consequence hs hx
        · cases no with
          | none => exact keeps_pure _
          | some no => exact block fun s hs _ hx => .alternative hs hx
      | function parameters body =>
        exact (confined_of_sameStore sameStore_freshIdentity).bind fun _ => keeps_pure _
      | call f arguments =>
        refine (part fun _ => .callee).andThen fun f => ?_
        split
        · exact keeps_withValues (fun e he => part fun _ => .argument he) fun vs => call f vs
        · exact keeps_fault _
      | array elements =>
        exact keeps_withValues (fun e he => part fun _ => .element he) fun vs =>
          confined_of_sameStore (sameStore_newArray vs)
      | index l i =>
        exact (part fun _ => .collection).andThen fun _ =>
          (part fun _ => .position).andThen fun _ => keeps_pure _
      | hash pairs =>
        exact keeps_withEntries (fun p hp => part fun _ => .key hp)
          (fun p hp => part fun _ => .value hp)
          (fun _ => (confined_of_sameStore sameStore_freshIdentity).bind fun _ => keeps_pure _) []
    · intro here s
      rw [evalStmt.eq_def]
      cases s with
      | binding x e =>
        exact (part fun _ => .bound).andThen fun v =>
          (confined_assign .target v).bind fun _ => keeps_pure _
      | ret e => exact (part fun _ => .ret).andThen fun _ => keeps_pure _
      | expression e => exact part fun _ => .expression
      | loop c body =>
        refine (part fun _ => .test).andThen fun test => ?_
        split
        · refine (block fun s hs _ hx => .body hs hx).bind fun v => ?_
          split
          · exact keeps_pure v
          · exact hstmt here (.loop c body)
        · exact keeps_pure _

theorem confined_evalBlock (n : Nat) (here : FrameId) (body : Block) :
    (evalBlock n here body).Keeps (Confined here fun x => ∃ s ∈ body, s.Binds x) := by
  refine keeps_sequence (fun s hs => ?_) .null
  exact ((confined_evalExpr_evalStmt n).2 here s).mono fun _ _ h => h.mono fun x hx => ⟨s, hs, hx⟩

theorem confined_eval (n : Nat) (here : FrameId) (code : Code) :
    (code.eval n here).Keeps (Confined here code.Binds) := by
  obtain ⟨hexpr, hstmt⟩ := confined_evalExpr_evalStmt n
  cases code with
  | expr e => exact hexpr here e
  | stmt s => exact hstmt here s
  | block body => exact confined_evalBlock n here body
  | program p => exact (confined_evalBlock n here p).bind fun _ => keeps_pure _

/-- Whatever is evaluated in a frame, in whatever state and for however long: if it comes to an end,
every other frame is as it was, no frame has got another outer frame, and in the frame itself no
name is unbound and none has another value but the targets of the code. A call leaves every frame as
it was: that of its caller, the one that the function was made in, and those of all other calls. -/
theorem confined_of_eval_retains_of_apply {n : Nat} {m m' : Machine} {v : Value} :
    (∀ (here : FrameId) (code : Code), code.eval n here m = some (v, m') →
      Confined here code.Binds m m') ∧
    ∀ (f : Value) (arguments : List Value), apply n f arguments m = some (v, m') →
      Retains m m' :=
  ⟨fun here code h => confined_eval n here code h,
    fun f arguments h => retains_applyWith (confined_evalBlock n) f arguments h⟩

/-- The text `let x = fn(x) { let y = 1 }(5)` where the frame binds `x` and encloses another one:
the call binds its own `x` and its `y` in a third frame, and the `let` then binds the outer `x`. -/
theorem confined_of_call :
    Confined 0 (Code.program [.binding ⟨"x", {}⟩ (.call (.function [⟨"x", {}⟩]
        [.binding ⟨"y", {}⟩ (.integer 1)]) [.integer 5])]).Binds
      { store := ⟨#[⟨[("x", .integer 7)], none⟩, ⟨[("y", .null)], some 0⟩]⟩ }
      { store := ⟨#[⟨[("x", .null)], none⟩, ⟨[("y", .null)], some 0⟩,
          ⟨[("x", .integer 5), ("y", .integer 1)], some 0⟩]⟩, made := 1 } ∧
    Retains { store := ⟨#[⟨[("x", .integer 7)], none⟩]⟩ }
      { store := ⟨#[⟨[("x", .integer 7)], none⟩, ⟨[("x", .integer 5)], some 0⟩]⟩ } :=
  ⟨(confined_of_eval_retains_of_apply (n := 4) (v := .null)).1 0 _ (by rfl),
    (confined_of_eval_retains_of_apply (n := 4) (v := .null)).2
      (.function 0 [⟨"x", {}⟩] [] 0) [.integer 5] (by rfl)⟩

end Monkey
