import Monkey.Proofs.Eval.Conveys
import Monkey.Proofs.Eval.Ledger
import Monkey.Proofs.Session

/-!
# The identity of objects

Arrays, hashes and functions are told apart by when they were made. A new object is one with nothing
that exists when it is made, and from then on it goes from place to place as it is. So two objects
are one exactly if they come from the same creation, and then they are alike in everything they
hold. This is shown of all programs that are run one after the other in a session.

## Main definitions

* `Machine.Has`, `Task.Passes` — what exists at a moment, and the moments of a run.
* `Machine.Identifies` — that creations tell apart what exists at a moment.
* `Task.MakesNew` — that the objects that a task makes are new.
* `Session.History` — the programs that were run in a session, one after the other.
-/

namespace Monkey

open Eval

/-! ## Values that are one -/

section Objects

variable {v w : Value} {i : Identity}

theorem Value.identity?_of_identical (h : v.identical w = true) (hv : v.identity? = some i) :
    w.identity? = some i := by
  cases v <;> cases w <;> simp_all [identical, identity?]

theorem Value.identical_self (hv : v.identity? = some i) : v.identical v = true := by
  cases v <;> simp_all [identical, identity?]

/-- Whether an object equals another value is whether they are one. -/
theorem BinaryOp.equal_apply (hv : v.identity? = some i) (w : Value) :
    BinaryOp.equal.apply v w = .boolean (v.identical w) := by
  cases v <;> first | rfl | cases hv

end Objects

/-! ## What exists -/

/-- The value exists: it is bound in a frame or in hand, or it is in a value that is. -/
def Machine.Has (m : Machine) (ws : List Value) (v : Value) : Prop :=
  (∃ w ∈ ws, v.Within w) ∨ ∃ f ∈ m.store.frames, ∃ b ∈ f.bindings, v.Within b.2

/-- The moments of a run: an evaluation in progress stands between two of its parts, or it has come
to its value. The values are those that are in hand then. -/
inductive Task.Passes (root : Task) : List Value → Machine → Prop
  | stands {t : Task} {vs ws : List Value} {m : Machine} (h : root.Underway ws t)
      (hstands : t.Stands vs m) : Passes root (vs ++ ws) m
  | ended {t : Task} {ws : List Value} {v : Value} {m' : Machine} (h : root.Underway ws t)
      (hrun : t.run = some (v, m')) : Passes root (v :: ws) m'

/-- Creations, of tasks that are run, tell apart the objects that exist at a moment. -/
structure Machine.Identifies (Run : Task → Prop) (us : List Task) (ws : List Value) (m : Machine) :
    Prop where
  length : us.length = m.made
  run : ∀ u ∈ us, Run u
  /-- They are listed in the order in which they gave out identities. -/
  creates : ∀ {i : Nat} {u : Task}, us[i]? = some u → ∃ vs m₁ v, u.Creates vs m₁ v ∧ m₁.made = i
  /-- What two of them make is one thing only if they are one creation. -/
  apart : ∀ {i j : Nat} {u u' : Task} {v v' : Value}, us[i]? = some u → us[j]? = some u' →
    u.Makes v → u'.Makes v' → (v.identical v' = true ↔ i = j)
  /-- Every object that exists was made, as it is, by one of them. -/
  origin : ∀ v, m.Has ws v → v.identity?.isSome → ∃ u ∈ us, u.Makes v
  /-- Objects that are one are alike, and so is all that they hold. -/
  coherent : ∀ v w, m.Has ws v → m.Has ws w → v.identity?.isSome → v.identical w = true → v = w
  /-- Objects are equal exactly if they come from the same creation. -/
  equal : ∀ v w, m.Has ws v → m.Has ws w → v.identity?.isSome →
    (BinaryOp.equal.apply v w = .boolean true ↔ ∃ u ∈ us, u.Makes v ∧ u.Makes w)

section Moments

variable {Run : Task → Prop} {us : List Task} {root t : Task} {vs ws : List Value} {v w : Value}
  {i j : Identity} {m m' : Machine}

theorem Machine.Ledger.identity?_eq (h : m.Ledger Run us) (hi : us[i]? = some t) (ht : t.Makes v) :
    v.identity? = some i := by
  obtain ⟨vs, m₁, w, hcreates, rfl⟩ := h.numbered i t hi
  rw [ht.unique ⟨vs, m₁, hcreates⟩]
  exact hcreates.identity?_eq

/-- Whatever exists is accounted for where what is bound and what is in hand is. -/
theorem Machine.Ledger.listed (h : m.Ledger Run us) (hws : ∀ v ∈ ws, v.All (Value.IsListed us))
    (hv : m.Has ws v) : v.IsListed us := by
  rcases hv with ⟨w, hw, hv⟩ | ⟨f, hf, b, hb, hv⟩
  · exact hws w hw v hv
  · exact h.bound hf b hb v hv

theorem Machine.Ledger.identifies (h : m.Ledger Run us)
    (hws : ∀ v ∈ ws, v.All (Value.IsListed us)) : m.Identifies Run us ws := by
  have origin (v : Value) (hv : m.Has ws v) (hobject : v.identity?.isSome) :
      ∃ u ∈ us, u.Makes v := by
    obtain ⟨i, hi⟩ := Option.isSome_iff_exists.mp hobject
    obtain ⟨u, hu, hmakes⟩ := h.listed hws hv i hi
    exact ⟨u, List.mem_of_getElem? hu, hmakes⟩
  have coherent (v w : Value) (hv : m.Has ws v) (hw : m.Has ws w) (hobject : v.identity?.isSome)
      (hone : v.identical w = true) : v = w := by
    obtain ⟨i, hi⟩ := Option.isSome_iff_exists.mp hobject
    obtain ⟨u, hu, hmakes⟩ := h.listed hws hv i hi
    obtain ⟨u', hu', hmakes'⟩ := h.listed hws hw i (Value.identity?_of_identical hone hi)
    obtain rfl : u = u' := Option.some.inj (hu.symm.trans hu')
    exact hmakes.unique hmakes'
  refine ⟨h.length, h.run, fun hi => h.numbered _ _ hi, fun {i j u u' v v'} hu hu' hv hv' => ?_,
    origin, coherent, fun v w hv hw hobject => ?_⟩
  · have hi := h.identity?_eq hu hv
    constructor
    · intro hone
      have hj := h.identity?_eq hu' hv'
      exact Option.some.inj ((Value.identity?_of_identical hone hi).symm.trans hj)
    · rintro rfl
      obtain rfl : u = u' := Option.some.inj (hu.symm.trans hu')
      rw [← hv.unique hv']
      exact Value.identical_self hi
  · obtain ⟨i, hi⟩ := Option.isSome_iff_exists.mp hobject
    rw [BinaryOp.equal_apply hi, Value.boolean.injEq]
    constructor
    · intro hone
      obtain ⟨u, hu, hmakes⟩ := origin v hv hobject
      exact ⟨u, hu, hmakes, coherent v w hv hw hobject hone ▸ hmakes⟩
    · rintro ⟨u, -, hv, hw⟩
      rw [← hv.unique hw]
      exact Value.identical_self hi

/-- What is made is one with nothing that exists before. -/
theorem Machine.Ledger.fresh (h : m.Ledger Run us) (hws : ∀ v ∈ ws, v.All (Value.IsListed us))
    (hcreates : t.Creates vs m v) (hw : m.Has ws w) : v.identical w = false := by
  refine Bool.eq_false_iff.mpr fun hone => ?_
  obtain ⟨u, hu, -⟩ := h.listed hws hw _ (Value.identity?_of_identical hone hcreates.identity?_eq)
  have hlt := (List.getElem?_eq_some_iff.mp hu).1
  rw [h.length] at hlt
  exact Nat.lt_irrefl _ hlt

end Moments

/-! ## Literals and builtins that make objects -/

/-- The expression is a literal of an array, of a hash or of a function. -/
def Expr.isObjectLiteral : Expr → Bool
  | array _ | hash _ | function _ _ => true
  | _ => false

section Creations

variable {t : Task} {v : Value} {vs : List Value} {m m' : Machine}

/-- A literal comes to a new object, if it does not come to an error. -/
theorem Task.creates_of_isObjectLiteral {e : Expr} (ht : t.code = .expr e)
    (he : e.isObjectLiteral = true) (h : t.run = some (v, m')) (hv : v.isError = false) :
    ∃ vs m, t.Creates vs m v ∧ m' = m.another := by
  obtain ⟨n, here, code, m⟩ := t
  obtain rfl : code = .expr e := ht
  replace h : evalExpr n here e m = some (v, m') := h
  cases n with
  | zero => cases h
  | succ n =>
    rw [evalExpr.eq_def] at h
    cases e with
    | array es =>
      rcases exists_of_withValues h with ⟨_, _, _, _, _, _, _, _, herror⟩ | ⟨vs, m₁, hvs, h⟩
      · rw [hv] at herror
        cases herror
      · cases h
        exact ⟨vs, m₁, .array hvs, rfl⟩
    | hash pairs =>
      rcases exists_of_withEntries h with ⟨_, _, _, _, _, _, _, _, hfails⟩ | ⟨es, m₁, hes, h⟩
      · rw [hfails.isError] at hv
        cases hv
      · cases h
        exact ⟨_, m₁, .hash hes, rfl⟩
    | function parameters body =>
      cases h
      exact ⟨[], m, .function, rfl⟩
    | _ => cases he

/-- A call of `rest` or of `push` comes to an error or to a new array, except that `rest` of an empty
array is null. -/
theorem Task.creates_of_calls {b : Builtin} (hcall : t.Calls (.builtin b) vs m)
    (hb : b = .rest ∨ b = .push) (h : t.run = some (v, m')) (hv : v.isError = false) :
    (b = .rest ∧ (∃ id, vs = [.array id []]) ∧ v = .null) ∨
      t.Creates (.builtin b :: vs) m v ∧ m' = m.another := by
  obtain ⟨n, hrun⟩ := hcall.run_eq
  replace h : b.call vs m = some (v, m') := hrun.symm.trans h
  -- whatever else the arguments are, the call comes to an error
  rcases hb with rfl | rfl
  · match vs with
    | [.array id []] =>
      cases h
      exact .inl ⟨rfl, ⟨id, rfl⟩, rfl⟩
    | [.array id (a :: as)] =>
      cases h
      exact .inr ⟨.rest hcall, rfl⟩
    | [] | _ :: _ :: _ | [.integer _] | [.boolean _] | [.string _] | [.null] | [.returned _]
    | [.error _] | [.function ..] | [.builtin _] | [.hash ..] =>
      cases h
      cases hv
  · match vs with
    | [.array id as, a] =>
      cases h
      exact .inr ⟨.push hcall, rfl⟩
    | [] | [_] | _ :: _ :: _ :: _ | [.integer _, _] | [.boolean _, _] | [.string _, _] | [.null, _]
    | [.returned _, _] | [.error _, _] | [.function .., _] | [.builtin _, _] | [.hash .., _] =>
      cases h
      cases hv

/-- Whatever object the task makes, while `ws` is in hand around it, is a new one. -/
structure Task.MakesNew (ws : List Value) (t : Task) : Prop where
  /-- A literal of an object makes one, if it does not come to an error. -/
  literal : ∀ {e v m'}, t.code = .expr e → e.isObjectLiteral = true → t.run = some (v, m') →
    v.isError = false → ∃ vs m, t.Creates vs m v ∧ m' = m.another
  /-- So do `rest`, except of an empty array, and `push`. -/
  builtin : ∀ {b vs m v m'}, t.Calls (.builtin b) vs m → b = .rest ∨ b = .push →
    t.run = some (v, m') → v.isError = false →
    (b = .rest ∧ (∃ id, vs = [.array id []]) ∧ v = .null) ∨
      t.Creates (.builtin b :: vs) m v ∧ m' = m.another
  /-- The object is what the task comes to. -/
  run : ∀ {vs m v}, t.Creates vs m v → t.run = some (v, m.another)
  /-- It is one with nothing that exists when it is made. -/
  fresh : ∀ {vs m v w}, t.Creates vs m v → m.Has (vs ++ ws) w → v.identical w = false

end Creations

/-! ## Sessions -/

/-- The task is run in the course of one of these. -/
def Task.IsIn (roots : List Task) (t : Task) : Prop := ∃ r ∈ roots, r.Reaches (fun _ => True) t

section Courses

variable {roots : List Task} {us : List Task} {m : Machine}

theorem Task.isIn_of_part (roots : List Task) (r : Role) (t u : Task) (h : t.IsIn roots)
    (hpart : Part r t u) : u.IsIn roots := by
  obtain ⟨root, hroot, hreach⟩ := h
  exact ⟨root, hroot, hreach.tail ⟨r, trivial, hpart⟩⟩

theorem Task.isIn_concat (root : Task) : root.IsIn (roots ++ [root]) := ⟨root, by simp, .refl⟩

theorem Machine.Ledger.concat (h : m.Ledger (Task.IsIn roots) us) (root : Task) :
    m.Ledger (Task.IsIn (roots ++ [root])) us :=
  h.mono fun _ ⟨r, hr, hreach⟩ => ⟨r, List.mem_append_left _ hr, hreach⟩

end Courses

namespace Session

/-- Running a program in a session. -/
def task (s : Session) (n : Nat) (limit : Option Nat) (p : Program) : Task :=
  ⟨n, global, .program p, s.machine limit⟩

/-- A session in which these programs were run, one after the other, and nothing else. -/
inductive History : List Task → Session → Prop
  | start : History [] start
  | perform {roots : List Task} {s s' : Session} {n : Nat} {limit : Option Nat} {p : Program}
      {v : Value} {output : List String} (h : History roots s)
      (hrun : s.perform limit (evalProgram n global p) = some (v, output, s')) :
      History (roots ++ [s.task n limit p]) s'

variable {roots : List Task} {s : Session}

theorem Ran.exists_history (h : s.Ran) : ∃ roots, History roots s := by
  induction h with
  | start => exact ⟨[], .start⟩
  | perform _ hrun ih =>
    obtain ⟨roots, h⟩ := ih
    exact ⟨_, h.perform hrun⟩

/-- The programs that were run have a ledger. -/
theorem History.exists_ledger (h : History roots s) (limit : Option Nat) :
    ∃ us, (s.machine limit).Ledger (Task.IsIn roots) us := by
  induction h generalizing limit with
  | start => exact ⟨[], rfl, by simp, by simp, all_start _ limit⟩
  | @perform roots s s' n limit' p v output h hrun ih =>
    obtain ⟨us, hledger⟩ := ih limit'
    obtain ⟨m, hm, rfl⟩ := exists_machine_of_perform hrun
    have hroot := (s.task n limit' p).hasLedger (Task.isIn_of_part (roots ++ [s.task n limit' p]))
    obtain ⟨us', -, hledger', -⟩ := hroot (Task.isIn_concat _) us (hledger.concat _) v m hm
    exact ⟨us', hledger'.of_eq rfl rfl⟩

theorem History.hosts (h : History roots s) (limit : Option Nat) :
    (s.machine limit).Hosts global := by
  induction h generalizing limit with
  | start =>
    exact ⟨(Machine.Reached.start.root.output { limit := limit }).grounded, Nat.zero_lt_one⟩
  | @perform roots s s' n limit' p v output h hrun ih =>
    obtain ⟨m, hm, rfl⟩ := exists_machine_of_perform hrun
    obtain ⟨hosts, -⟩ := (ih limit').eval (.program p) hm
    exact ⟨hosts.grounded.of_eq rfl rfl, hosts.frame⟩

/-- Whatever programs were run in a session before: while one more is run, at every moment the
creations that there have been tell apart the objects that exist. Every evaluation on the way is in
progress at some moment; whatever object it makes is one with nothing that exists then, and what it
reads, passes, returns, takes out or puts in is handed on as it is. -/
theorem History.identity_of_objects (h : History roots s) (n : Nat) (limit : Option Nat)
    (p : Program) :
    (∀ ws m, (s.task n limit p).Passes ws m →
      ∃ us, m.Identifies (Task.IsIn (roots ++ [s.task n limit p])) us ws) ∧
    (∀ t, (s.task n limit p).Reaches (fun _ => True) t →
      ∃ ws, (s.task n limit p).Underway ws t) ∧
    ∀ ws t, (s.task n limit p).Underway ws t → t.MakesNew ws ∧ t.Conveys := by
  obtain ⟨us, hledger⟩ := h.exists_ledger limit
  replace hledger := hledger.concat (s.task n limit p)
  have hRun := Task.isIn_of_part (roots ++ [s.task n limit p])
  have hroot := @Task.isIn_concat roots (s.task n limit p)
  refine ⟨fun ws m hpasses => ?_, fun t hreach => hreach.exists_underway, fun ws t ht =>
    ⟨⟨Task.creates_of_isObjectLiteral, Task.creates_of_calls, Task.Creates.run_eq,
      fun hcreates hw => ?_⟩, Task.conveys (ht.reaches.hosts (h.hosts limit))⟩⟩
  · cases hpasses with
    | stands ht hstands =>
      obtain ⟨us', -, hledger', hws⟩ :=
        ht.continues_stands hRun hroot hstands (ht.continues hRun hroot hledger)
      exact ⟨us', hledger'.identifies hws⟩
    | ended ht hrun =>
      obtain ⟨us', -, hledger', hws⟩ :=
        ht.continues_run hRun hroot (ht.continues hRun hroot hledger) hrun
      exact ⟨us', hledger'.identifies hws⟩
  · obtain ⟨us', -, hledger', hws⟩ :=
      ht.continues_stands hRun hroot hcreates.stands (ht.continues hRun hroot hledger)
    exact hledger'.fresh hws hcreates hw

/-- The program `let a = [1]; let b = [1];`. -/
def twins : Program :=
  [.binding ⟨"a", {}⟩ (.array [.integer 1]), .binding ⟨"b", {}⟩ (.array [.integer 1])]

/-- The session after it. -/
def afterTwins : Session :=
  { store := ⟨#[{ bindings := [("a", .array 0 [.integer 1]), ("b", .array 1 [.integer 1])] }]⟩,
    made := 2 }

/-- After `let a = [1]; let b = [1];` there have been two creations, which tell apart what the names
are bound to: `a` equals itself, but not `b`, which is another array with the same element. -/
theorem afterTwins_identity_of_objects :
    History [start.task 6 none twins] afterTwins ∧
    (∃ us, (afterTwins.machine none).Identifies
      (Task.IsIn [start.task 6 none twins, afterTwins.task 6 none []]) us []) ∧
    BinaryOp.equal.apply (.array 0 [.integer 1]) (.array 0 [.integer 1]) = .boolean true ∧
    BinaryOp.equal.apply (.array 0 [.integer 1]) (.array 1 [.integer 1]) = .boolean false := by
  have hrun : start.perform none (evalProgram 6 global twins) = some (.null, [], afterTwins) := rfl
  have h : History [start.task 6 none twins] afterTwins := .perform .start hrun
  exact ⟨h, (h.identity_of_objects 6 none []).1 [] _ (.stands .root .begun), rfl, rfl⟩

end Session

end Monkey
