import Monkey.Proofs.Eval.Exiting
import Monkey.Proofs.Eval.Parts
import Monkey.Proofs.Session

/-!
# Orderly returns

Where every return is disciplined, a value that is being returned goes nowhere but out: it is never
bound, never an operand, never wrapped in another, and never what a call or a program gives back. So
it is all one whether a return is such a value or an exit. Both are shown of every program that is
run in a session in which only disciplined programs were run before.

## Main definitions

* `Task.Tidy` — that the code of a task is disciplined and its machine holds nothing that is not.
* `Task.Orderly` — that nothing that is being returned goes astray in a task.
* `Session.Disciplined` — the sessions in which only disciplined programs were run.
-/

namespace Monkey

open Eval

/-! ## Tasks that are tidy -/

/-- Whether the returns in the code are disciplined, where `may` says whether one may leave it. -/
def Code.isDisciplined (may : Bool) : Code → Bool
  | expr e => e.isDisciplined may
  | stmt s => s.isDisciplined may
  | block body => statementsAreDisciplined may body
  | program p => Block.isDisciplined p

/-- The code is disciplined, and so is everything that the machine binds. -/
structure Task.Tidy (may : Bool) (t : Task) : Prop where
  code : t.code.isDisciplined may = true
  machine : t.machine.All Value.Settled

/-- An outcome that is an error or what a block may end with. -/
def Ends (may : Bool) (v : Value) : Prop := v.isError = true ∨ v.Settles may

namespace Exiting

variable {n : Nat} {here : FrameId} {may : Bool}

theorem ensures_of_leads {Q : Value → Prop} {x : Eval Value} (h : Leads Q (Raising.raised x)) :
    x.Ensures (Machine.All Value.Settled) fun v => v.isError = true ∨ Q v := by
  intro m v m' hm hx
  have hraised : Raising.raised x m = Raising.raise v m' := by
    change ((x m).bind _).bind _ = _
    rw [hx]
    rfl
  cases hv : v.isError with
  | true =>
    obtain ⟨f, rfl⟩ := Raising.eq_error_of_isError hv
    exact ⟨.inl rfl, (h hm hraised).2⟩
  | false =>
    rw [Raising.raise_of_not_isError hv] at hraised
    obtain ⟨hQ, hm'⟩ := h hm hraised
    exact ⟨.inr (hQ v rfl), hm'⟩

theorem ensures_evalExpr {e : Expr} (he : e.isDisciplined may = true) :
    (Monkey.evalExpr n here e).Ensures (Machine.All Value.Settled) (Ends may) := by
  have hleads := ((follows_evalExpr_evalStmt n).1 here may e he).leads
  rw [(Raising.evalExpr_evalStmt_eq_raised n).1] at hleads
  exact ensures_of_leads hleads

theorem ensures_evalStmt {s : Stmt} (hs : s.isDisciplined may = true) :
    (Monkey.evalStmt n here s).Ensures (Machine.All Value.Settled) (Ends may) := by
  have hleads := ((follows_evalExpr_evalStmt n).2 here may s hs).leads
  rw [(Raising.evalExpr_evalStmt_eq_raised n).2] at hleads
  exact ensures_of_leads hleads

theorem raised_evalBlock (body : Block) : Raising.raised (evalBlock n here body) =
    Raising.steps (Raising.evalStmt n here) .null body := by
  rw [evalBlock, Raising.raised_sequence _ rfl,
    ← funext ((Raising.evalExpr_evalStmt_eq_raised n).2 here)]

theorem follows_block {body : Block} (h : statementsAreDisciplined may body = true) :
    Follows may (Raising.raised (evalBlock n here body)) (steps (evalStmt n here) .null body) := by
  rw [raised_evalBlock]
  have hstmt := (follows_evalExpr_evalStmt n).2 here may
  exact follows_steps (fun s hs => hstmt s (statementsAreDisciplined_iff.mp h s hs))
    (Value.all_of_isPlain rfl (Value.settled_of_isPlain .null rfl))

theorem ensures_evalBlock {body : Block} (h : statementsAreDisciplined may body = true) :
    (evalBlock n here body).Ensures (Machine.All Value.Settled) (Ends may) :=
  ensures_of_leads (follows_block h).leads

/-- A disciplined program has the outcome that it has where a return is an exit. -/
theorem same_evalProgram (n : Nat) (here : FrameId) {p : Program} (h : Block.isDisciplined p = true) :
    Same (Monkey.evalProgram n here p) (Raising.outcome (evalProgram n here p)) ∧
      Leads (fun v => v.All Value.Settled) (Raising.raised (Monkey.evalProgram n here p)) := by
  have hraised : Raising.raised (Monkey.evalProgram n here p) =
      (do let v ← Raising.raised (evalBlock n here p); Raising.raise v.arrive) :=
    Raising.raised_arrive _
  have hfollows : Follows true (Raising.raised (evalBlock n here p)) _ := follows_block h
  obtain ⟨hsame, hleads⟩ := hfollows.landing
  rw [← hraised] at hsame hleads
  refine ⟨fun m hm => ?_, hleads⟩
  calc Monkey.evalProgram n here p m
      = Raising.outcome (Raising.raised (Monkey.evalProgram n here p)) m := by
        rw [Raising.outcome_raised]
    _ = Raising.outcome (evalProgram n here p) m := by
        change (Raising.raised _ m).bind _ = (evalProgram n here p m).bind _
        rw [hsame m hm]
        rfl

end Exiting

/-! ## What runs before a part -/

section Lists

variable {n : Nat} {here : FrameId} {may : Bool} {m m' : Machine}

theorem settled_of_evalExpr {e : Expr} {v : Value} (hm : m.All Value.Settled)
    (he : e.isDisciplined false = true) (hrun : evalExpr n here e m = some (v, m'))
    (hv : v.isError = false) : v.All Value.Settled ∧ m'.All Value.Settled := by
  obtain ⟨hends, hm'⟩ := Exiting.ensures_evalExpr he hm hrun
  refine ⟨Value.settles_false_iff.mp (hends.resolve_left ?_), hm'⟩
  rw [hv]
  exact Bool.false_ne_true

theorem Completes.settled {ss : List Stmt} (h : Completes (evalStmt n here) ss m m')
    (hss : ∀ s ∈ ss, s.isDisciplined may = true) (hm : m.All Value.Settled) :
    m'.All Value.Settled := by
  induction h with
  | nil => exact hm
  | cons hs _ _ ih =>
    obtain ⟨-, hmid⟩ := Exiting.ensures_evalStmt (hss _ List.mem_cons_self) hm hs
    exact ih (fun s' hs' => hss s' (List.mem_cons_of_mem _ hs')) hmid

theorem Yields.settled {es : List Expr} {vs : List Value}
    (h : Yields (evalExpr n here) es m vs m') (hes : ∀ e ∈ es, e.isDisciplined false = true)
    (hm : m.All Value.Settled) : (∀ v ∈ vs, v.All Value.Settled) ∧ m'.All Value.Settled := by
  induction h with
  | nil => exact ⟨by simp, hm⟩
  | cons he hv _ ih =>
    obtain ⟨hfirst, hmid⟩ := settled_of_evalExpr hm (hes _ List.mem_cons_self) he hv
    obtain ⟨hrest, hm'⟩ := ih (fun e' he' => hes e' (List.mem_cons_of_mem _ he')) hmid
    exact ⟨List.forall_mem_cons.mpr ⟨hfirst, hrest⟩, hm'⟩

theorem YieldsPairs.settled {pairs : List (Expr × Expr)}
    (h : YieldsPairs (evalExpr n here) pairs m m')
    (hpairs : ∀ p ∈ pairs, p.1.isDisciplined false = true ∧ p.2.isDisciplined false = true)
    (hm : m.All Value.Settled) : m'.All Value.Settled := by
  induction h with
  | nil => exact hm
  | cons hkey _ hvalue _ _ ih =>
    obtain ⟨hfirst, hsecond⟩ := hpairs _ List.mem_cons_self
    obtain ⟨-, hmid⟩ := Exiting.ensures_evalExpr hfirst hm hkey
    obtain ⟨-, hmid'⟩ := Exiting.ensures_evalExpr hsecond hmid hvalue
    exact ih (fun p hp => hpairs p (List.mem_cons_of_mem _ hp)) hmid'

end Lists

/-! ## Parts of tidy tasks -/

/-- Whether a return may leave a part in this role, if `may` says whether one may leave the whole. -/
def Role.mayReturn (may : Bool) : Role → Bool
  | inner => may
  | operand => false
  | body => true

namespace Task.Tidy

variable {may : Bool} {t u : Task} {v : Value} {m' : Machine}

/-- The parts of a tidy task are tidy. -/
theorem part {r : Role} (h : t.Tidy may) (hpart : Part r t u) : u.Tidy (r.mayReturn may) := by
  obtain ⟨hcode, hm⟩ := h
  cases hpart with
  | program => exact ⟨hcode, hm⟩
  | statement hbefore =>
    have hss := statementsAreDisciplined_iff.mp hcode
    refine ⟨hss _ (by simp), hbefore.settled (fun s hs => hss s (List.mem_append_left _ hs)) hm⟩
  | bound => exact ⟨hcode, hm⟩
  | returned =>
    simp only [Code.isDisciplined, Stmt.isDisciplined, Bool.and_eq_true] at hcode
    exact ⟨hcode.2, hm⟩
  | expression => exact ⟨hcode, hm⟩
  | test =>
    simp only [Code.isDisciplined, Stmt.isDisciplined, Bool.and_eq_true] at hcode
    exact ⟨hcode.1, hm⟩
  | round hc =>
    simp only [Code.isDisciplined, Stmt.isDisciplined, Bool.and_eq_true] at hcode
    obtain ⟨-, hm₁⟩ := Exiting.ensures_evalExpr hcode.1 hm hc
    exact ⟨hcode.2, hm₁⟩
  | nextRound hc _ _ hbody =>
    have hloop := hcode
    simp only [Code.isDisciplined, Stmt.isDisciplined, Bool.and_eq_true] at hcode
    obtain ⟨-, hm₁⟩ := Exiting.ensures_evalExpr hcode.1 hm hc
    obtain ⟨-, hm₂⟩ := Exiting.ensures_evalBlock hcode.2 hm₁ hbody
    exact ⟨hloop, hm₂⟩
  | unary => exact ⟨hcode, hm⟩
  | left =>
    simp only [Code.isDisciplined, Expr.isDisciplined, Bool.and_eq_true] at hcode
    exact ⟨hcode.1, hm⟩
  | right hl =>
    simp only [Code.isDisciplined, Expr.isDisciplined, Bool.and_eq_true] at hcode
    obtain ⟨-, hm₁⟩ := Exiting.ensures_evalExpr hcode.1 hm hl
    exact ⟨hcode.2, hm₁⟩
  | condition =>
    simp only [Code.isDisciplined, Expr.isDisciplined, Bool.and_eq_true] at hcode
    exact ⟨hcode.1.1, hm⟩
  | consequence hc =>
    simp only [Code.isDisciplined, Expr.isDisciplined, Bool.and_eq_true] at hcode
    obtain ⟨-, hm₁⟩ := Exiting.ensures_evalExpr hcode.1.1 hm hc
    exact ⟨hcode.1.2, hm₁⟩
  | alternative hc =>
    simp only [Code.isDisciplined, Expr.isDisciplined, Bool.and_eq_true] at hcode
    obtain ⟨-, hm₁⟩ := Exiting.ensures_evalExpr hcode.1.1 hm hc
    exact ⟨hcode.2, hm₁⟩
  | callee =>
    simp only [Code.isDisciplined, Expr.isDisciplined, Bool.and_eq_true] at hcode
    exact ⟨hcode.1, hm⟩
  | argument hf _ hbefore =>
    simp only [Code.isDisciplined, Expr.isDisciplined, Bool.and_eq_true,
      operandsAreDisciplined_iff] at hcode
    obtain ⟨-, hm₁⟩ := Exiting.ensures_evalExpr hcode.1 hm hf
    obtain ⟨-, hm₂⟩ := hbefore.settled (fun e he => hcode.2 e (List.mem_append_left _ he)) hm₁
    exact ⟨hcode.2 _ (by simp), hm₂⟩
  | call hf hvs _ henter =>
    simp only [Code.isDisciplined, Expr.isDisciplined, Bool.and_eq_true,
      operandsAreDisciplined_iff] at hcode
    obtain ⟨hfunction, hm₁⟩ := settled_of_evalExpr hm hcode.1 hf rfl
    obtain ⟨hsettled, hm₂⟩ := hvs.settled hcode.2 hm₁
    obtain ⟨-, hm₃⟩ := ensures_enter (fun b hb => hsettled b.2 (List.of_mem_zip hb).2) hm₂ henter
    exact ⟨hfunction.self.2 _ _ _ _ rfl, hm₃⟩
  | element hbefore =>
    simp only [Code.isDisciplined, Expr.isDisciplined, operandsAreDisciplined_iff] at hcode
    obtain ⟨-, hm₁⟩ := hbefore.settled (fun e he => hcode e (List.mem_append_left _ he)) hm
    exact ⟨hcode _ (by simp), hm₁⟩
  | collection =>
    simp only [Code.isDisciplined, Expr.isDisciplined, Bool.and_eq_true] at hcode
    exact ⟨hcode.1, hm⟩
  | position hl =>
    simp only [Code.isDisciplined, Expr.isDisciplined, Bool.and_eq_true] at hcode
    obtain ⟨-, hm₁⟩ := Exiting.ensures_evalExpr hcode.1 hm hl
    exact ⟨hcode.2, hm₁⟩
  | key hbefore =>
    simp only [Code.isDisciplined, Expr.isDisciplined, pairsAreDisciplined_iff] at hcode
    have hm₁ := hbefore.settled (fun p hp => hcode p (List.mem_append_left _ hp)) hm
    obtain ⟨hkey, -⟩ := hcode _ (List.mem_append_right _ List.mem_cons_self)
    exact ⟨hkey, hm₁⟩
  | value hbefore he =>
    simp only [Code.isDisciplined, Expr.isDisciplined, pairsAreDisciplined_iff] at hcode
    have hm₁ := hbefore.settled (fun p hp => hcode p (List.mem_append_left _ hp)) hm
    obtain ⟨hkey, hvalue⟩ := hcode _ (List.mem_append_right _ List.mem_cons_self)
    obtain ⟨-, hm₂⟩ := Exiting.ensures_evalExpr hkey hm₁ he
    exact ⟨hvalue, hm₂⟩

/-- Every task that a tidy one comes to is tidy. The induction is on the parts between the two. -/
theorem reaches {Via : Role → Prop} (h : t.Tidy may) (hreach : t.Reaches Via u) :
    ∃ may', u.Tidy may' := by
  induction hreach with
  | refl => exact ⟨may, h⟩
  | tail _ hpart ih =>
    obtain ⟨may', ht⟩ := ih
    obtain ⟨r, -, hpart⟩ := hpart
    exact ⟨r.mayReturn may', ht.part hpart⟩

/-- A tidy task leaves a machine in which nothing is out of order. -/
theorem run (h : t.Tidy may) (hrun : t.run = some (v, m')) :
    Ends may v ∧ m'.All Value.Settled := by
  obtain ⟨n, here, code, m⟩ := t
  cases code with
  | expr e => exact Exiting.ensures_evalExpr h.code h.machine hrun
  | stmt s => exact Exiting.ensures_evalStmt h.code h.machine hrun
  | block body => exact Exiting.ensures_evalBlock h.code h.machine hrun
  | program p =>
    obtain ⟨-, hleads⟩ := Exiting.same_evalProgram n here h.code
    exact (Exiting.ensures_of_leads hleads).mono (fun v hv => hv.imp_right .inl) h.machine hrun

end Task.Tidy

/-! ## Nothing that is being returned goes astray -/

/-- Neither the value nor any value in it is being returned. -/
def Value.IsReturnFree (v : Value) : Prop := v.All fun w => w.kind ≠ .returned

/-- No value that a frame binds is being returned, and neither is any value in it. -/
def Machine.IsReturnFree (m : Machine) : Prop := m.All fun w => w.kind ≠ .returned

/-- Values that are being returned go nowhere but out of the blocks of a call or of a program. -/
structure Task.Orderly (t : Task) : Prop where
  /-- None is bound before the code is run. -/
  before : t.machine.IsReturnFree
  /-- None is bound when the code has been run, and its value is being returned once if at all. -/
  after : ∀ v m', t.run = some (v, m') → m'.IsReturnFree ∧ v.arrive.IsReturnFree
  /-- None is an operand: bound, called, passed on, put into an array or a hash, or returned. -/
  operand : ∀ u, Part .operand t u → ∀ v m', u.run = some (v, m') → v.IsReturnFree
  /-- None is given back by a call. -/
  call : ∀ f arguments, t.code = .expr (.call f arguments) →
    ∀ v m', t.run = some (v, m') → v.IsReturnFree
  /-- None is given back by a program. -/
  program : ∀ p, t.code = .program p → ∀ v m', t.run = some (v, m') → v.IsReturnFree

theorem Value.Settled.kind_ne_returned {v : Value} (h : v.Settled) : v.kind ≠ .returned := by
  cases v with
  | returned w => exact absurd rfl h.ne_returned
  | _ => simp [kind]

theorem Value.isReturnFree_of_settled {v : Value} (h : v.All Settled) : v.IsReturnFree :=
  fun w hw => (h w hw).kind_ne_returned

theorem Value.isReturnFree_error (f : Fault) : (Value.error f).IsReturnFree := by
  intro w hw
  cases hw with
  | refl => simp [kind]

theorem Machine.isReturnFree_of_settled {m : Machine} (h : m.All Value.Settled) :
    m.IsReturnFree := fun _ hf b hb => Value.isReturnFree_of_settled (h hf b hb)

theorem Ends.isReturnFree {may : Bool} {v : Value} (h : Ends may v) : v.arrive.IsReturnFree := by
  rcases h with h | h
  · obtain ⟨f, rfl⟩ := Raising.eq_error_of_isError h
    exact Value.isReturnFree_error f
  · exact Value.isReturnFree_of_settled h.arrive

theorem Ends.isReturnFree_of_false {v : Value} (h : Ends false v) : v.IsReturnFree := by
  rcases h with h | h
  · obtain ⟨f, rfl⟩ := Raising.eq_error_of_isError h
    exact Value.isReturnFree_error f
  · exact Value.isReturnFree_of_settled (Value.settles_false_iff.mp h)

/-- Tidy tasks are orderly. A call and a program are tidy even where no return may leave them, so
none of them gives back a value that is being returned. -/
theorem Task.Tidy.orderly {may : Bool} {t : Task} (h : t.Tidy may) : t.Orderly where
  before := Machine.isReturnFree_of_settled h.machine
  after v m' hrun := by
    obtain ⟨hends, hm'⟩ := h.run hrun
    exact ⟨Machine.isReturnFree_of_settled hm', hends.isReturnFree⟩
  operand u hpart v m' hrun := ((h.part hpart).run hrun).1.isReturnFree_of_false
  call f arguments hcode v m' hrun := by
    have hcall : t.Tidy false := ⟨by simpa [hcode, Code.isDisciplined, Expr.isDisciplined]
      using h.code, h.machine⟩
    exact (hcall.run hrun).1.isReturnFree_of_false
  program p hcode v m' hrun := by
    have hprogram : t.Tidy false := ⟨by simpa [hcode, Code.isDisciplined] using h.code, h.machine⟩
    exact (hprogram.run hrun).1.isReturnFree_of_false

/-! ## Sessions -/

namespace Session

/-- The sessions in which disciplined programs were run one after the other, and nothing else. -/
inductive Disciplined : Session → Prop
  | start : Disciplined start
  | perform {s s' : Session} {n : Nat} {limit : Option Nat} {p : Program} {v : Value}
      {output : List String} (h : Disciplined s) (hp : Block.isDisciplined p = true)
      (hrun : s.perform limit (evalProgram n global p) = some (v, output, s')) : Disciplined s'

/-- Nothing that a disciplined session binds is undisciplined. -/
theorem Disciplined.settled {s : Session} (h : s.Disciplined) (limit : Option Nat) :
    (s.machine limit).All Value.Settled := by
  induction h generalizing limit with
  | start => exact all_start _ limit
  | @perform s s' n limit' p v output h hp hrun ih =>
    obtain ⟨m, hend, rfl⟩ := exists_machine_of_perform hrun
    have htidy : Task.Tidy true ⟨n, global, .program p, s.machine limit'⟩ := ⟨hp, ih limit'⟩
    exact (htidy.run hend).2

/-- Every run of a disciplined program, after any number of others, has the value, the output and
the bindings that it has where a return is an exit; and in no part of it does a value that is being
returned go astray. -/
theorem Disciplined.perform_eq_and_orderly {s : Session} {p : Program} (hs : s.Disciplined)
    (hp : Block.isDisciplined p = true) (n : Nat) (limit : Option Nat) :
    s.perform limit (evalProgram n global p) =
        s.perform limit (Raising.outcome (Exiting.evalProgram n global p)) ∧
      ∀ t, Task.Reaches (fun _ => True) ⟨n, global, .program p, s.machine limit⟩ t → t.Orderly := by
  have hm := hs.settled limit
  constructor
  · obtain ⟨hsame, -⟩ := Exiting.same_evalProgram n global hp
    rw [perform_eq_map, perform_eq_map, hsame _ hm]
  · intro t hreach
    have htidy : Task.Tidy true ⟨n, global, .program p, s.machine limit⟩ := ⟨hp, hm⟩
    obtain ⟨may, ht⟩ := htidy.reaches hreach
    exact ht.orderly

/-- The session after the program `let x = fn() { while (true) { return 5 } }()`. -/
def five : Session :=
  { store := ⟨#[{ bindings := [("x", .integer 5)] }, { outer := some global }]⟩, made := 1 }

/-- The program `fn() { if (true) { return 5 }; 7 }()`, run after another that returns from a loop,
has the value that it has where a return is an exit, which is 5. -/
theorem five_perform_eq_and_orderly :
    start.perform none (evalProgram 6 global [.binding ⟨"x", {}⟩ (.call (.function []
      [.loop (.boolean true) [.ret (.integer 5)]]) [])]) = some (.null, [], five) ∧
    (five.perform none (evalProgram 6 global [.expression (.call (.function []
      [.expression (.conditional (.boolean true) [.ret (.integer 5)] none),
        .expression (.integer 7)]) [])])).map Prod.fst = some (.integer 5) ∧
    five.perform none (evalProgram 6 global [.expression (.call (.function []
      [.expression (.conditional (.boolean true) [.ret (.integer 5)] none),
        .expression (.integer 7)]) [])]) =
      five.perform none (Raising.outcome (Exiting.evalProgram 6 global [.expression (.call
        (.function [] [.expression (.conditional (.boolean true) [.ret (.integer 5)] none),
          .expression (.integer 7)]) [])])) := by
  have hfive : start.perform none (evalProgram 6 global [.binding ⟨"x", {}⟩ (.call (.function []
      [.loop (.boolean true) [.ret (.integer 5)]]) [])]) = some (.null, [], five) := rfl
  have hdisciplined : five.Disciplined := .perform .start (by decide) hfive
  exact ⟨hfive, rfl, (hdisciplined.perform_eq_and_orderly (by decide) 6 none).1⟩

end Session

end Monkey
