import Monkey.Proofs.Eval.Holds
import Monkey.Proofs.Eval.Parts
import Monkey.Proofs.Session

/-!
# Errors that go nowhere but out

An error is the value of an evaluation as a whole or not at all. Whoever evaluates a part hands its
error on before anything is made of it, so no error is ever bound, put into an array or a hash,
returned, or passed to a function. This is shown of every program that is run in a session in which
nothing but programs was run before.

## Main definitions

* `Value.IsErrorFree`, `Machine.IsErrorFree` — that nothing in a value or a machine is an error.
* `Task.ErrorFree` — that no error is kept or passed on in a task.
-/

namespace Monkey

open Eval

/-- The value itself is no error, and if it is a hash, then none of its keys is one. -/
def Value.NoError : Value → Prop
  | error _ => False
  | hash _ entries => ∀ e ∈ entries, (ofKey e.1).isError = false
  | _ => True

/-- Neither the value nor any value in it is an error. -/
def Value.IsErrorFree (v : Value) : Prop := v.All NoError

/-- No value that a frame binds is an error, and neither is any value in it. -/
def Machine.IsErrorFree (m : Machine) : Prop := m.All Value.NoError

theorem Value.noError_of_isPlain (v : Value) (h : v.isPlain = true) : v.NoError := by
  cases v with
  | error f => simp [isPlain] at h
  | hash id entries => simp [isPlain] at h
  | _ => trivial

/-- Only integers, booleans and strings can be keys. -/
theorem Value.noError_hash (id : Identity) (entries : Entries Value) :
    NoError (.hash id entries) := by
  intro e _
  cases e.1 <;> rfl

/-! ## Evaluation -/

namespace Eval

theorem ensures_applyWith {run : FrameId → Block → Eval Value}
    (hrun : ∀ here body, (run here body).Ensures Machine.IsErrorFree (Sound Value.NoError))
    (f : Value) {arguments : List Value} (h : ∀ v ∈ arguments, v.IsErrorFree) :
    (applyWith run f arguments).Ensures Machine.IsErrorFree (Sound Value.NoError) := by
  unfold applyWith
  split
  · split
    · refine (ensures_enter fun b hb => h b.2 (List.of_mem_zip hb).2).bind fun inner _ => ?_
      exact (hrun inner _).bind fun v hv => ensures_pure hv.arrive
    · exact ensures_fault _
  · exact ensures_call Value.noError_of_isPlain (fun _ _ => trivial) _ h
  · exact ensures_fault _

/-- From a machine without errors every evaluation ends in one without errors, and its value is an
error as a whole or has none in it. -/
theorem ensures_evalExpr_evalStmt (n : Nat) :
    (∀ here e, (evalExpr n here e).Ensures Machine.IsErrorFree (Sound Value.NoError)) ∧
      ∀ here s, (evalStmt n here s).Ensures Machine.IsErrorFree (Sound Value.NoError) := by
  induction n with
  | zero => exact ⟨fun _ _ => ensures_outOfSteps, fun _ _ => ensures_outOfSteps⟩
  | succ n ih =>
    obtain ⟨hexpr, hstmt⟩ := ih
    have plain {v : Value} (h : v.isPlain = true) : Sound Value.NoError v :=
      sound_of_isPlain Value.noError_of_isPlain h
    have block (here : FrameId) (body : Block) :
        (Eval.sequence (evalStmt n here) .null body).Ensures Machine.IsErrorFree
          (Sound Value.NoError) := ensures_sequence (plain rfl) (hstmt here)
    constructor
    · intro here e
      rw [evalExpr.eq_def]
      cases e with
      | name x => exact ensures_lookUp Value.noError_of_isPlain here x.text
      | integer v => exact ensures_pure (plain rfl)
      | string s => exact ensures_pure (plain rfl)
      | boolean b => exact ensures_pure (plain rfl)
      | unary op e =>
        exact (hexpr here e).andThen fun v _ =>
          ensures_pure (sound_unary Value.noError_of_isPlain op v)
      | binary op l r =>
        exact (hexpr here l).andThen fun a _ => (hexpr here r).andThen fun b _ =>
          ensures_pure (sound_binary Value.noError_of_isPlain op a b)
      | conditional c yes no =>
        refine (hexpr here c).andThen fun test _ => ?_
        split
        · exact block here yes
        · cases no with
          | none => exact ensures_pure (plain rfl)
          | some no => exact block here no
      | function parameters body =>
        exact (ensures_of_sameStore sameStore_freshIdentity).bind fun _ _ =>
          ensures_pure (.inr (Value.all_function trivial))
      | call f arguments =>
        refine (hexpr here f).andThen fun f _ => ?_
        split
        · exact ensures_withValues (hexpr here) fun vs hvs => ensures_applyWith block f hvs
        · exact ensures_fault _
      | array elements =>
        exact ensures_withValues (hexpr here) fun vs hvs =>
          (ensures_newArray (fun _ _ => trivial) hvs).mono fun _ => .inr
      | index l i =>
        exact (hexpr here l).andThen fun a ha => (hexpr here i).andThen fun b _ =>
          ensures_pure (sound_index Value.noError_of_isPlain ha)
      | hash pairs =>
        refine ensures_withEntries (hexpr here) (fun entries hentries => ?_) (by simp)
        exact (ensures_of_sameStore sameStore_freshIdentity).bind fun _ _ =>
          ensures_pure (.inr (Value.all_hash (Value.noError_hash _ entries) hentries))
    · intro here s
      rw [evalStmt.eq_def]
      cases s with
      | binding x e =>
        exact (hexpr here e).andThen fun v hv => (ensures_assign hv).bind fun _ _ =>
          ensures_pure (plain rfl)
      | ret e =>
        exact (hexpr here e).andThen fun v hv => ensures_pure (.inr (Value.all_returned trivial hv))
      | expression e => exact hexpr here e
      | loop c body =>
        refine (hexpr here c).andThen fun test _ => ?_
        split
        · refine (block here body).bind fun v hv => ?_
          split
          · exact ensures_pure hv
          · exact hstmt here (.loop c body)
        · exact ensures_pure (plain rfl)

theorem ensures_eval (n : Nat) (here : FrameId) (code : Code) :
    (code.eval n here).Ensures Machine.IsErrorFree (Sound Value.NoError) := by
  obtain ⟨hexpr, hstmt⟩ := ensures_evalExpr_evalStmt n
  have block (body : Block) :
      (evalBlock n here body).Ensures Machine.IsErrorFree (Sound Value.NoError) :=
    ensures_sequence (sound_of_isPlain Value.noError_of_isPlain rfl) (hstmt here)
  cases code with
  | expr e => exact hexpr here e
  | stmt s => exact hstmt here s
  | block body => exact block body
  | program p => exact (block p).bind fun v hv => ensures_pure hv.arrive

end Eval

/-! ## Parts -/

section Parts

variable {here : FrameId} {m m' : Machine} {t u : Task}

theorem Machine.Runs.isErrorFree (h : m.Runs here m') (hm : m.IsErrorFree) : m'.IsErrorFree := by
  induction h with
  | refl => exact hm
  | tail _ hrun ih =>
    obtain ⟨n, code, v, hrun⟩ := hrun
    exact (ensures_eval n here code ih hrun).2

theorem Yields.isErrorFree {n : Nat} {es : List Expr} {vs : List Value}
    (h : Yields (evalExpr n here) es m vs m') (hm : m.IsErrorFree) : ∀ v ∈ vs, v.IsErrorFree := by
  induction h with
  | nil => simp
  | cons he hv _ ih =>
    obtain ⟨hsound, hmid⟩ := ensures_eval n here (.expr _) hm he
    exact List.forall_mem_cons.mpr ⟨hsound.resolve_left (by simp [hv]), ih hmid⟩

/-- No error is called, and none is an argument of a call. -/
theorem Task.Calls.isErrorFree {g : Value} {vs : List Value} (h : t.Calls g vs m')
    (ht : t.machine.IsErrorFree) : g.IsErrorFree ∧ (∀ v ∈ vs, v.IsErrorFree) ∧ m'.IsErrorFree := by
  refine ⟨?_, ?_, h.runs.isErrorFree ht⟩
  · cases h with
    | @intro n here f _ _ _ _ m₁ _ hf hg _ =>
      obtain ⟨hsound, -⟩ := ensures_eval n here (.expr f) ht hf
      refine hsound.resolve_left fun herror => ?_
      cases g <;> simp_all [Value.isCallable, Value.isError]
  · cases h with
    | intro hf _ hvs =>
      exact (yields_of_withValues_eq hvs).isErrorFree
        ((Machine.runs_of_evalExpr hf).isErrorFree ht)

/-- If no error is bound when a task is begun, then none is when a part of it is. -/
theorem Part.isErrorFree {r : Role} (h : Part r t u) (ht : t.machine.IsErrorFree) :
    u.machine.IsErrorFree := by
  rcases h.runs_or_calls with ⟨-, hruns⟩ | ⟨id, parameters, body, outer, vs, m', hcall, henter⟩
  · exact hruns.isErrorFree ht
  · obtain ⟨-, hvs, hm'⟩ := hcall.isErrorFree ht
    exact (ensures_enter (fun b hb => hvs b.2 (List.of_mem_zip hb).2) hm' henter).2

theorem Task.Reaches.isErrorFree {Via : Role → Prop} (h : t.Reaches Via u)
    (ht : t.machine.IsErrorFree) : u.machine.IsErrorFree := by
  induction h with
  | refl => exact ht
  | tail _ hpart ih =>
    obtain ⟨r, -, hpart⟩ := hpart
    exact hpart.isErrorFree ih

/-- Errors go nowhere but out. -/
structure Task.ErrorFree (t : Task) : Prop where
  /-- None is bound before the code is run. -/
  before : t.machine.IsErrorFree
  /-- None is bound when the code has been run, and its value is an error as a whole if it has one
  in it. -/
  after : ∀ v m', t.run = some (v, m') → m'.IsErrorFree ∧ (v.isError = true ∨ v.IsErrorFree)
  /-- None is in a value that is called or in an argument of a call. -/
  call : ∀ g vs m', t.Calls g vs m' → g.IsErrorFree ∧ ∀ v ∈ vs, v.IsErrorFree

theorem Task.errorFree_of_machine (h : t.machine.IsErrorFree) : t.ErrorFree where
  before := h
  after _ _ hrun := (ensures_eval t.steps t.frame t.code h hrun).symm
  call _ _ _ hcall := ⟨(hcall.isErrorFree h).1, (hcall.isErrorFree h).2.1⟩

end Parts

/-! ## Sessions -/

namespace Session

/-- No session in which programs were run binds an error. -/
theorem Ran.isErrorFree {s : Session} (h : s.Ran) (limit : Option Nat) :
    (s.machine limit).IsErrorFree := by
  induction h generalizing limit with
  | start => exact all_start _ limit
  | @perform s s' n limit' p v output h hrun ih =>
    obtain ⟨m, hm, rfl⟩ := exists_machine_of_perform hrun
    exact (ensures_eval n global (.program p) (ih limit') hm).2

/-- Whatever programs were run in a session before: when one more has been run, no error is bound in
any frame, and what it has come to is an error or holds none; and in no evaluation on the way is an
error kept, or passed to a function. -/
theorem Ran.errorFree {s : Session} (hs : s.Ran) (n : Nat) (limit : Option Nat) (p : Program) :
    (∀ v output s', s.perform limit (evalProgram n global p) = some (v, output, s') →
      (∀ limit', (s'.machine limit').IsErrorFree) ∧ (v.isError = true ∨ v.IsErrorFree)) ∧
    ∀ t, Task.Reaches (fun _ => True) ⟨n, global, .program p, s.machine limit⟩ t → t.ErrorFree := by
  have hm := hs.isErrorFree limit
  constructor
  · intro v output s' hrun
    obtain ⟨m, hend, -⟩ := exists_machine_of_perform hrun
    exact ⟨(hs.perform hrun).isErrorFree, (ensures_eval n global (.program p) hm hend).1⟩
  · intro t hreach
    exact Task.errorFree_of_machine (hreach.isErrorFree hm)

/-- The session after the program `let a = [1]; [2, -true]`. -/
def afterFailure : Session :=
  { store := ⟨#[{ bindings := [("a", .array 0 [.integer 1])] }]⟩, made := 1 }

/-- The program `let a = [1]; [2, -true]` has an error as its value, and when `a` is asked for after
it, no error is in any frame or in what that comes to. -/
theorem afterFailure_errorFree :
    start.perform none (evalProgram 6 global [.binding ⟨"a", {}⟩ (.array [.integer 1]),
        .expression (.array [.integer 2, .unary .negate (.boolean true)])]) =
      some (.error (.notNegatable .boolean), [], afterFailure) ∧
    afterFailure.Ran ∧
    ∀ v output s', afterFailure.perform none (evalProgram 6 global
        [.expression (.name ⟨"a", {}⟩)]) = some (v, output, s') →
      (∀ limit', (s'.machine limit').IsErrorFree) ∧ (v.isError = true ∨ v.IsErrorFree) := by
  have hrun : start.perform none (evalProgram 6 global [.binding ⟨"a", {}⟩ (.array [.integer 1]),
        .expression (.array [.integer 2, .unary .negate (.boolean true)])]) =
      some (.error (.notNegatable .boolean), [], afterFailure) := rfl
  have hran : afterFailure.Ran := .perform .start hrun
  exact ⟨hrun, hran, (hran.errorFree 6 none [.expression (.name ⟨"a", {}⟩)]).1⟩

end Session

end Monkey
