import Monkey.Proofs.Eval.Holds
import Monkey.Proofs.Eval.Parts

/-!
# Grounded machines

Frames and identities are numbered in the order in which they are made, and a value refers to none
that is still to be made. So what a machine has made tells which values can be there at all, and an
evaluation that is given such values comes to such values.

## Main definitions

* `Machine.Knows` — that everything that a value refers to has been made.
* `Machine.Grounded` — that a machine knows all values that it binds, and frames are enclosed by
  older ones.
* `Eval.Grounds` — that an evaluation comes from a grounded machine to a grounded one.
* `Machine.Reached` — the machines that running programs comes to.
-/

namespace Monkey

open Eval

/-! ## What a machine has made -/

namespace Machine

/-- What the value itself refers to has been made: its identity, and the frame of a function. -/
def Made (m : Machine) : Value → Prop
  | .function id _ _ frame => id < m.made ∧ frame < m.store.frames.size
  | .array id _ | .hash id _ => id < m.made
  | _ => True

/-- What the value refers to has been made, and so has all that the values in it refer to. -/
def Knows (m : Machine) (v : Value) : Prop := v.All m.Made

/-- All values that are bound are known, and every frame is older than those that it encloses. -/
structure Grounded (m : Machine) : Prop where
  bound : m.All m.Made
  outer : ∀ ⦃i o : FrameId⦄, m.store.outer? i = some o → o < i

/-- The second machine has made all that the first has made. -/
structure Grows (m m' : Machine) : Prop where
  frames : m.store.frames.size ≤ m'.store.frames.size
  made : m.made ≤ m'.made

variable {m m' m'' : Machine} {v : Value}

theorem Grows.refl (m : Machine) : m.Grows m := ⟨Nat.le_refl _, Nat.le_refl _⟩

theorem Grows.trans (h : m.Grows m') (h' : m'.Grows m'') : m.Grows m'' :=
  ⟨Nat.le_trans h.frames h'.frames, Nat.le_trans h.made h'.made⟩

theorem Made.mono (h : m.Made v) (hm : m.Grows m') : m'.Made v := by
  cases v with
  | function id parameters body frame =>
    exact ⟨Nat.lt_of_lt_of_le h.1 hm.made, Nat.lt_of_lt_of_le h.2 hm.frames⟩
  | array id vs => exact Nat.lt_of_lt_of_le h hm.made
  | hash id entries => exact Nat.lt_of_lt_of_le h hm.made
  | _ => trivial

theorem Knows.mono (h : m.Knows v) (hm : m.Grows m') : m'.Knows v :=
  fun w hw => (h w hw).mono hm

theorem made_of_isPlain (m : Machine) (v : Value) (h : v.isPlain = true) : m.Made v := by
  cases v <;> trivial

theorem knows_of_isPlain (m : Machine) (h : v.isPlain = true) : m.Knows v :=
  Value.all_of_isPlain h (m.made_of_isPlain v h)

theorem knows_error (m : Machine) (f : Fault) : m.Knows (.error f) := by
  intro w hw
  cases hw with
  | refl => trivial

theorem knows_returned : m.Knows (.returned v) ↔ m.Knows v := by
  constructor
  · exact fun h w hw => h w (.returned hw)
  · intro h w hw
    cases hw with
    | refl => trivial
    | returned hw => exact h w hw

theorem Knows.arrive (h : m.Knows v) : m.Knows v.arrive := Value.All.arrive h

/-- An error refers to nothing, so it is known as well. -/
theorem knows_of_sound (h : Sound m.Made v) : m.Knows v := by
  rcases h with h | h
  · cases v with
    | error f => exact knows_error m f
    | _ => simp [Value.isError] at h
  · exact h

/-- Being grounded is a matter of the frames and of the number of identities alone. -/
theorem Grounded.of_eq (h : m.Grounded) (hstore : m'.store = m.store) (hmade : m'.made = m.made) :
    m'.Grounded := by
  obtain ⟨store, sink, made⟩ := m
  obtain ⟨store', sink', made'⟩ := m'
  subst hstore hmade
  exact ⟨h.bound, h.outer⟩

end Machine

open Machine

namespace Eval

variable {α β : Type} {m : Machine} {Q : Machine → α → Prop} {P : Machine → β → Prop}

/-! ## Evaluations -/

/-- If the evaluation ends when it is begun on this machine, then it ends in a grounded one that has
made no less, and its outcome has a property there. -/
def Grounds (m : Machine) (Q : Machine → α → Prop) (x : Eval α) : Prop :=
  ∀ ⦃a m'⦄, x m = some (a, m') → m.Grows m' ∧ m'.Grounded ∧ Q m' a

theorem grounds_outOfSteps : (outOfSteps : Eval α).Grounds m Q := by
  intro a m' h
  simp [outOfSteps] at h

theorem grounds_pure {a : α} (hm : m.Grounded) (h : Q m a) : (pure a : Eval α).Grounds m Q := by
  intro b m' hb
  obtain ⟨rfl, rfl⟩ := Prod.mk.inj (Option.some.inj hb)
  exact ⟨.refl m, hm, h⟩

theorem Grounds.bind {x : Eval α} {k : α → Eval β} (hx : x.Grounds m Q)
    (hk : ∀ a m₁, m.Grows m₁ → m₁.Grounded → Q m₁ a → (k a).Grounds m₁ P) :
    (x >>= k).Grounds m P := by
  intro b m' h
  obtain ⟨a, m₁, hfirst, hsecond⟩ := bind_eq_some_iff.mp h
  obtain ⟨hgrows, hm₁, ha⟩ := hx hfirst
  obtain ⟨hgrows', hm', hb⟩ := hk a m₁ hgrows hm₁ ha hsecond
  exact ⟨hgrows.trans hgrows', hm', hb⟩

theorem grounds_fault (hm : m.Grounded) (f : Fault) : (fault f).Grounds m Knows :=
  grounds_pure hm (knows_error m f)

theorem Grounds.andThen {x : Eval Value} {k : Value → Eval Value} (hx : x.Grounds m Knows)
    (hk : ∀ v m₁, m.Grows m₁ → m₁.Grounded → m₁.Knows v → (k v).Grounds m₁ Knows) :
    (andThen x k).Grounds m Knows := by
  refine hx.bind fun v m₁ hgrows hm₁ hv => ?_
  split
  · exact grounds_pure hm₁ hv
  · exact hk v m₁ hgrows hm₁ hv

/-! ## Steps -/

theorem grounds_freshIdentity (hm : m.Grounded) :
    freshIdentity.Grounds m fun m' id => id < m'.made := by
  intro id m' h
  obtain ⟨rfl, rfl⟩ := Prod.mk.inj (Option.some.inj h)
  have hgrows : m.Grows { m with made := m.made + 1 } := ⟨Nat.le_refl _, Nat.le_succ _⟩
  refine ⟨hgrows, ⟨fun f hf b hb => ?_, hm.outer⟩, Nat.lt_succ_self _⟩
  exact Knows.mono (hm.bound hf b hb) hgrows

theorem grounds_newArray (hm : m.Grounded) {vs : List Value} (hvs : ∀ v ∈ vs, m.Knows v) :
    (newArray vs).Grounds m Knows :=
  (grounds_freshIdentity hm).bind fun _ _ hgrows hm₁ hid =>
    grounds_pure hm₁ (Value.all_array hid fun v hv => (hvs v hv).mono hgrows)

/-- The value that a name has, which looking it up finds without touching the machine. -/
def lookedUp (m : Machine) (here : FrameId) (name : String) : Value :=
  match m.store.get? here name with
  | some v => v
  | none =>
    match Builtin.ofName? name with
    | some b => .builtin b
    | none => .error (.unboundName name)

theorem lookUp_apply (m : Machine) (here : FrameId) (name : String) :
    lookUp here name m = some (lookedUp m here name, m) := by
  have hget : (get : Eval Machine) m = some (m, m) := rfl
  rw [lookUp, bind_eq_of_eq_some hget, lookedUp]
  cases m.store.get? here name with
  | some v => rfl
  | none => cases Builtin.ofName? name <;> rfl

theorem grounds_lookUp (hm : m.Grounded) (here : FrameId) (name : String) :
    (lookUp here name).Grounds m Knows := by
  intro v m' h
  rw [lookUp_apply] at h
  obtain ⟨rfl, rfl⟩ := Prod.mk.inj (Option.some.inj h)
  refine ⟨.refl m, hm, ?_⟩
  unfold lookedUp
  split
  · next v hv => exact hm.bound.get? hv
  · split
    · exact knows_of_isPlain m rfl
    · exact knows_error m _

theorem grounds_assign (hm : m.Grounded) {here : FrameId} {name : String} {v : Value}
    (hv : m.Knows v) : (assign here name v).Grounds m fun _ _ => True := by
  intro u m' h
  obtain ⟨-, rfl⟩ := Prod.mk.inj (Option.some.inj h)
  have hgrows : m.Grows { m with store := m.store.set here name v } :=
    ⟨Nat.le_of_eq (Store.size_set ..).symm, Nat.le_refl _⟩
  refine ⟨hgrows, ⟨?_, fun i o ho => hm.outer (by rwa [Store.outer?_set] at ho)⟩, trivial⟩
  exact Store.all_set (fun f hf b hb => Knows.mono (hm.bound hf b hb) hgrows) (hv.mono hgrows)

theorem grounds_enter (hm : m.Grounded) {outer : FrameId} (houter : outer < m.store.frames.size)
    {bindings : List (String × Value)} (hbindings : ∀ b ∈ bindings, m.Knows b.2) :
    (enter outer bindings).Grounds m fun m' inner => inner < m'.store.frames.size := by
  intro inner m' h
  obtain ⟨rfl, rfl⟩ := Prod.mk.inj (Option.some.inj h)
  have hsize : ((m.store.add (some outer)).2.setAll m.store.frames.size bindings).frames.size =
      m.store.frames.size + 1 := by rw [Store.size_setAll, Store.size_add]
  have hgrows : m.Grows { m with
      store := (m.store.add (some outer)).2.setAll m.store.frames.size bindings } :=
    ⟨by rw [hsize]; exact Nat.le_succ _, Nat.le_refl _⟩
  refine ⟨hgrows, ⟨?_, fun i o ho => ?_⟩, Nat.lt_of_lt_of_eq (Nat.lt_succ_self _) hsize.symm⟩
  · exact Store.all_setAll (Store.all_add fun f hf b hb => Knows.mono (hm.bound hf b hb) hgrows)
      fun b hb => (hbindings b hb).mono hgrows
  · rw [Store.outer?_setAll, Store.outer?_add] at ho
    split at ho
    · next hi =>
      cases ho
      rwa [hi]
    · exact hm.outer ho

theorem grounds_print (hm : m.Grounded) (line : String) :
    (print line).Grounds m fun _ _ => True := by
  intro b m' h
  obtain ⟨hstore, hmade⟩ := prints_print line h
  exact ⟨⟨Nat.le_of_eq (by rw [hstore]), Nat.le_of_eq hmade.symm⟩, hm.of_eq hstore hmade, trivial⟩

/-! ## Calls -/

theorem grounds_printAll (hm : m.Grounded) (vs : List Value) : (printAll vs).Grounds m Knows := by
  induction vs generalizing m with
  | nil => exact grounds_pure hm (knows_of_isPlain m rfl)
  | cons v vs ih =>
    refine (grounds_print hm v.render).bind fun ok m₁ _ hm₁ _ => ?_
    split
    · exact ih hm₁
    · exact grounds_fault hm₁ _

theorem grounds_onArray (hm : m.Grounded) {b : Builtin} {v : Value} (hv : m.Knows v)
    {k : List Value → Eval Value}
    (hk : ∀ vs : List Value, (∀ w ∈ vs, m.Knows w) → (k vs).Grounds m Knows) :
    (b.onArray v k).Grounds m Knows := by
  cases v with
  | array id elements => exact hk elements fun w hw => Value.All.element hv hw
  | _ => exact grounds_fault hm _

theorem knows_getD_null {v? : Option Value} (h : ∀ v, v? = some v → m.Knows v) :
    m.Knows (v?.getD .null) := knows_of_sound (sound_getD_null m.made_of_isPlain h)

/-- A builtin gives back what it was given, or something new, or what refers to nothing. -/
theorem grounds_call (hm : m.Grounded) (b : Builtin) {arguments : List Value}
    (h : ∀ v ∈ arguments, m.Knows v) : (b.call arguments).Grounds m Knows := by
  unfold Builtin.call
  split
  · next v =>
    refine grounds_pure hm ?_
    cases v with
    | string s => exact knows_of_isPlain m rfl
    | array id elements => exact knows_of_isPlain m rfl
    | _ => exact knows_error m _
  · refine grounds_onArray hm (h _ (by simp)) fun vs hvs => grounds_pure hm ?_
    exact knows_getD_null fun v hv => hvs v (List.mem_of_head? hv)
  · refine grounds_onArray hm (h _ (by simp)) fun vs hvs => grounds_pure hm ?_
    exact knows_getD_null fun v hv => hvs v (List.mem_of_getLast? hv)
  · refine grounds_onArray hm (h _ (by simp)) fun vs hvs => ?_
    cases vs with
    | nil => exact grounds_pure hm (knows_of_isPlain m rfl)
    | cons v vs => exact grounds_newArray hm fun w hw => hvs w (List.mem_cons_of_mem v hw)
  · next v w =>
    refine grounds_onArray hm (h _ (by simp)) fun vs hvs => grounds_newArray hm fun u hu => ?_
    rcases List.mem_append.mp hu with hu | hu
    · exact hvs u hu
    · rw [List.mem_singleton.mp hu]
      exact h w (by simp)
  · exact grounds_printAll hm _
  · exact grounds_fault hm _
  · exact grounds_fault hm _

/-- A call of a known value with known arguments. -/
theorem grounds_applyWith {run : FrameId → Block → Eval Value}
    (hrun : ∀ m here body, m.Grounded → here < m.store.frames.size →
      (run here body).Grounds m Knows) (hm : m.Grounded) {f : Value} (hf : m.Knows f)
    {arguments : List Value} (h : ∀ v ∈ arguments, m.Knows v) :
    (applyWith run f arguments).Grounds m Knows := by
  unfold applyWith
  split
  · next id parameters body frame =>
    split
    · have hbindings : ∀ b ∈ (parameters.map (·.text)).zip arguments, m.Knows b.2 :=
        fun b hb => h b.2 (List.of_mem_zip hb).2
      refine (grounds_enter hm hf.self.2 hbindings).bind fun inner m₁ _ hm₁ hinner => ?_
      exact (hrun m₁ inner body hm₁ hinner).bind fun v m₂ _ hm₂ hv => grounds_pure hm₂ hv.arrive
    · exact grounds_fault hm _
  · exact grounds_call hm _ h
  · exact grounds_fault hm _

/-! ## Lists -/

section Lists

variable {k : List Value → Eval Value}

theorem grounds_withValues {run : Expr → Eval Value} {es : List Expr} (hm : m.Grounded)
    (hrun : ∀ e m₁, m.Grows m₁ → m₁.Grounded → (run e).Grounds m₁ Knows)
    (hk : ∀ vs m₁, m.Grows m₁ → m₁.Grounded → (∀ v ∈ vs, m₁.Knows v) → (k vs).Grounds m₁ Knows) :
    (withValues run es k).Grounds m Knows := by
  induction es generalizing m k with
  | nil => exact hk [] m (.refl m) hm (by simp)
  | cons e es ih =>
    refine (hrun e m (.refl m) hm).andThen fun v m₁ hgrows hm₁ hv => ?_
    refine ih hm₁ (fun e m₂ hgrows' => hrun e m₂ (hgrows.trans hgrows')) ?_
    intro vs m₂ hgrows' hm₂ hvs
    refine hk (v :: vs) m₂ (hgrows.trans hgrows') hm₂ fun w hw => ?_
    rcases List.mem_cons.mp hw with rfl | hw
    · exact hv.mono hgrows'
    · exact hvs w hw

theorem grounds_withEntries {run : Expr → Eval Value} {k : Entries Value → Eval Value}
    {pairs : List (Expr × Expr)} {entries : Entries Value} (hm : m.Grounded)
    (hentries : ∀ e ∈ entries, m.Knows e.2)
    (hrun : ∀ e m₁, m.Grows m₁ → m₁.Grounded → (run e).Grounds m₁ Knows)
    (hk : ∀ entries m₁, m.Grows m₁ → m₁.Grounded → (∀ e ∈ entries, m₁.Knows e.2) →
      (k entries).Grounds m₁ Knows) :
    (withEntries run entries pairs k).Grounds m Knows := by
  induction pairs generalizing m entries with
  | nil => exact hk entries m (.refl m) hm hentries
  | cons p pairs ih =>
    refine (hrun p.1 m (.refl m) hm).andThen fun v m₁ hgrows hm₁ _ => ?_
    split
    · exact grounds_fault hm₁ _
    · next key _ =>
      refine (hrun p.2 m₁ hgrows hm₁).andThen fun w m₂ hgrows' hm₂ hw => ?_
      have hgrows₂ := hgrows.trans hgrows'
      refine ih hm₂ (fun e he => ?_) (fun e m₃ h => hrun e m₃ (hgrows₂.trans h))
        fun entries m₃ h => hk entries m₃ (hgrows₂.trans h)
      rcases Entries.mem_of_mem_insert he with he | rfl
      · exact (hentries e he).mono hgrows₂
      · exact hw

theorem grounds_sequence {run : Stmt → Eval Value} {ss : List Stmt} {last : Value}
    (hm : m.Grounded) (hlast : m.Knows last)
    (hrun : ∀ s m₁, m.Grows m₁ → m₁.Grounded → (run s).Grounds m₁ Knows) :
    (sequence run last ss).Grounds m Knows := by
  induction ss generalizing m last with
  | nil => exact grounds_pure hm hlast
  | cons s ss ih =>
    refine (hrun s m (.refl m) hm).bind fun v m₁ hgrows hm₁ hv => ?_
    split
    · exact grounds_pure hm₁ hv
    · exact ih hm₁ hv fun s m₂ hgrows' => hrun s m₂ (hgrows.trans hgrows')

end Lists

/-! ## Programs -/

/-- From a grounded machine, in one of its frames, evaluation comes to a grounded machine and to a
value that it knows. The induction is on the number of steps, over all texts at once. -/
theorem grounds_evalExpr_evalStmt (n : Nat) :
    (∀ m here e, m.Grounded → here < m.store.frames.size →
      (evalExpr n here e).Grounds m Knows) ∧
    ∀ m here s, m.Grounded → here < m.store.frames.size → (evalStmt n here s).Grounds m Knows := by
  induction n with
  | zero => exact ⟨fun _ _ _ _ _ => grounds_outOfSteps, fun _ _ _ _ _ => grounds_outOfSteps⟩
  | succ n ih =>
    obtain ⟨hexpr, hstmt⟩ := ih
    have block (m : Machine) (here : FrameId) (body : Block) (hm : m.Grounded)
        (hhere : here < m.store.frames.size) :
        (sequence (evalStmt n here) .null body).Grounds m Knows :=
      grounds_sequence hm (knows_of_isPlain m rfl) fun s m₁ hgrows hm₁ =>
        hstmt m₁ here s hm₁ (Nat.lt_of_lt_of_le hhere hgrows.frames)
    constructor
    · intro m here e hm hhere
      have part (e : Expr) (m₁ : Machine) (hgrows : m.Grows m₁) (hm₁ : m₁.Grounded) :
          (evalExpr n here e).Grounds m₁ Knows :=
        hexpr m₁ here e hm₁ (Nat.lt_of_lt_of_le hhere hgrows.frames)
      have first (e : Expr) := part e m (.refl m) hm
      rw [evalExpr.eq_def]
      cases e with
      | name x => exact grounds_lookUp hm here x.text
      | integer v => exact grounds_pure hm (knows_of_isPlain m rfl)
      | string s => exact grounds_pure hm (knows_of_isPlain m rfl)
      | boolean b => exact grounds_pure hm (knows_of_isPlain m rfl)
      | unary op e =>
        exact (first e).andThen fun v m₁ _ hm₁ _ =>
          grounds_pure hm₁ (knows_of_sound (sound_unary m₁.made_of_isPlain op v))
      | binary op l r =>
        refine (first l).andThen fun a m₁ hgrows hm₁ _ => ?_
        exact (part r m₁ hgrows hm₁).andThen fun b m₂ _ hm₂ _ =>
          grounds_pure hm₂ (knows_of_sound (sound_binary m₂.made_of_isPlain op a b))
      | conditional c yes no =>
        refine (first c).andThen fun test m₁ hgrows hm₁ _ => ?_
        have hhere₁ := Nat.lt_of_lt_of_le hhere hgrows.frames
        split
        · exact block m₁ here yes hm₁ hhere₁
        · cases no with
          | none => exact grounds_pure hm₁ (knows_of_isPlain m₁ rfl)
          | some no => exact block m₁ here no hm₁ hhere₁
      | function parameters body =>
        refine (grounds_freshIdentity hm).bind fun id m₁ hgrows hm₁ hid => ?_
        have hhere₁ := Nat.lt_of_lt_of_le hhere hgrows.frames
        exact grounds_pure hm₁ (Value.all_function ⟨hid, hhere₁⟩)
      | call f arguments =>
        refine (first f).andThen fun f m₁ hgrows hm₁ hf => ?_
        split
        · refine grounds_withValues hm₁ (fun e m₂ h => part e m₂ (hgrows.trans h)) ?_
          intro vs m₂ hgrows' hm₂ hvs
          exact grounds_applyWith block hm₂ (hf.mono hgrows') hvs
        · exact grounds_fault hm₁ _
      | array elements =>
        exact grounds_withValues hm part fun vs m₁ _ hm₁ hvs => grounds_newArray hm₁ hvs
      | index l i =>
        refine (first l).andThen fun a m₁ hgrows hm₁ ha => ?_
        refine (part i m₁ hgrows hm₁).andThen fun b m₂ hgrows' hm₂ _ => grounds_pure hm₂ ?_
        exact knows_of_sound (sound_index m₂.made_of_isPlain (ha.mono hgrows'))
      | hash pairs =>
        refine grounds_withEntries hm (by simp) part fun entries m₁ _ hm₁ hentries => ?_
        refine (grounds_freshIdentity hm₁).bind fun id m₂ hgrows hm₂ hid => grounds_pure hm₂ ?_
        exact Value.all_hash hid fun e he => (hentries e he).mono hgrows
    · intro m here s hm hhere
      have first (e : Expr) := hexpr m here e hm hhere
      rw [evalStmt.eq_def]
      cases s with
      | binding x e =>
        refine (first e).andThen fun v m₁ _ hm₁ hv => ?_
        exact (grounds_assign hm₁ hv).bind fun _ m₂ _ hm₂ _ =>
          grounds_pure hm₂ (knows_of_isPlain m₂ rfl)
      | ret e =>
        exact (first e).andThen fun v m₁ _ hm₁ hv => grounds_pure hm₁ (knows_returned.mpr hv)
      | expression e => exact first e
      | loop c body =>
        refine (first c).andThen fun test m₁ hgrows hm₁ _ => ?_
        have hhere₁ := Nat.lt_of_lt_of_le hhere hgrows.frames
        split
        · refine (block m₁ here body hm₁ hhere₁).bind fun v m₂ hgrows' hm₂ hv => ?_
          split
          · exact grounds_pure hm₂ hv
          · exact hstmt m₂ here (.loop c body) hm₂ (Nat.lt_of_lt_of_le hhere₁ hgrows'.frames)
        · exact grounds_pure hm₁ (knows_of_isPlain m₁ rfl)

theorem grounds_evalBlock (n : Nat) (here : FrameId) (body : Block) (hm : m.Grounded)
    (hhere : here < m.store.frames.size) : (evalBlock n here body).Grounds m Knows :=
  grounds_sequence hm (knows_of_isPlain m rfl) fun s m₁ hgrows hm₁ =>
    (grounds_evalExpr_evalStmt n).2 m₁ here s hm₁ (Nat.lt_of_lt_of_le hhere hgrows.frames)

theorem grounds_apply (n : Nat) (hm : m.Grounded) {f : Value} (hf : m.Knows f)
    {arguments : List Value} (h : ∀ v ∈ arguments, m.Knows v) :
    (apply n f arguments).Grounds m Knows :=
  grounds_applyWith (fun _ here body => grounds_evalBlock n here body) hm hf h

end Eval

/-! ## Parts -/

section Parts

variable {n : Nat} {here : FrameId} {m m₁ : Machine}

/-- A machine in a frame of which something can be run. -/
structure Machine.Hosts (m : Machine) (here : FrameId) : Prop where
  grounded : m.Grounded
  frame : here < m.store.frames.size

theorem Machine.Hosts.grows (h : m.Hosts here) (hgrows : m.Grows m₁) (hm₁ : m₁.Grounded) :
    m₁.Hosts here := ⟨hm₁, Nat.lt_of_lt_of_le h.frame hgrows.frames⟩

theorem Machine.Hosts.expr {e : Expr} {v : Value} (h : m.Hosts here)
    (he : evalExpr n here e m = some (v, m₁)) : m₁.Hosts here ∧ m₁.Knows v := by
  obtain ⟨hgrows, hm₁, hv⟩ := (grounds_evalExpr_evalStmt n).1 m here e h.grounded h.frame he
  exact ⟨h.grows hgrows hm₁, hv⟩

theorem Machine.Hosts.eval {v : Value} (h : m.Hosts here) (code : Code)
    (hrun : code.eval n here m = some (v, m₁)) : m₁.Hosts here ∧ m₁.Knows v := by
  have hground : (code.eval n here).Grounds m Knows := by
    cases code with
    | expr e => exact (grounds_evalExpr_evalStmt n).1 m here e h.grounded h.frame
    | stmt s => exact (grounds_evalExpr_evalStmt n).2 m here s h.grounded h.frame
    | block body => exact grounds_evalBlock n here body h.grounded h.frame
    | program p =>
      exact (grounds_evalBlock n here p h.grounded h.frame).bind fun v m₁ _ hm₁ hv =>
        grounds_pure hm₁ hv.arrive
  obtain ⟨hgrows, hm₁, hv⟩ := hground hrun
  exact ⟨h.grows hgrows hm₁, hv⟩

theorem Machine.Runs.hosts (h : m.Runs here m₁) (hm : m.Hosts here) : m₁.Hosts here := by
  induction h with
  | refl => exact hm
  | tail _ hrun ih =>
    obtain ⟨n, code, v, hrun⟩ := hrun
    exact (ih.eval code hrun).1

/-- The values of several expressions are known once the last of them has been evaluated. -/
theorem Yields.hosts {es : List Expr} {vs : List Value} (h : Yields (evalExpr n here) es m vs m₁)
    (hm : m.Hosts here) : m.Grows m₁ ∧ m₁.Hosts here ∧ ∀ v ∈ vs, m₁.Knows v := by
  induction h with
  | nil m => exact ⟨.refl m, hm, by simp⟩
  | @cons e es v vs m mid m₁ he _ _ ih =>
    obtain ⟨hgrows, hmid, hv⟩ :=
      (grounds_evalExpr_evalStmt n).1 m here e hm.grounded hm.frame he
    obtain ⟨hgrows', hm₁, hvs⟩ := ih (hm.grows hgrows hmid)
    exact ⟨hgrows.trans hgrows', hm₁, List.forall_mem_cons.mpr ⟨hv.mono hgrows', hvs⟩⟩

/-- What is called is known when it is called, and so are the arguments. -/
theorem Task.Calls.hosts {t : Task} {g : Value} {vs : List Value} (h : t.Calls g vs m)
    (ht : t.machine.Hosts t.frame) : m.Hosts t.frame ∧ m.Knows g ∧ ∀ v ∈ vs, m.Knows v := by
  cases h with
  | intro hf _ hvs =>
    obtain ⟨hm₁, hfunction⟩ := ht.expr hf
    obtain ⟨hgrows, hm, hknown⟩ := (yields_of_withValues_eq hvs).hosts hm₁
    exact ⟨hm, hfunction.mono hgrows, hknown⟩

/-- If a task is run in a frame of a grounded machine, then so are its parts. -/
theorem Part.hosts {r : Role} {t u : Task} (h : Part r t u) (ht : t.machine.Hosts t.frame) :
    u.machine.Hosts u.frame := by
  rcases h.runs_or_calls with ⟨hframe, hruns⟩ | ⟨_, _, _, outer, vs, m', hcall, henter⟩
  · rw [hframe]
    exact hruns.hosts ht
  · obtain ⟨hm', hfunction, hknown⟩ := hcall.hosts ht
    obtain ⟨-, hm, hinner⟩ := grounds_enter hm'.grounded hfunction.self.2
      (fun b hb => hknown b.2 (List.of_mem_zip hb).2) henter
    exact ⟨hm, hinner⟩

theorem Task.Reaches.hosts {Via : Role → Prop} {t u : Task} (h : t.Reaches Via u)
    (ht : t.machine.Hosts t.frame) : u.machine.Hosts u.frame := by
  induction h with
  | refl => exact ht
  | tail _ hpart ih =>
    obtain ⟨r, -, hpart⟩ := hpart
    exact hpart.hosts ih

end Parts

/-! ## Machines that programs come to -/

namespace Machine

/-- The machine with a new frame that nothing encloses. -/
def withRoot (m : Machine) : Machine := { m with store := (m.store.add none).2 }

/-- The machines that running programs comes to. At first nothing has been made. Then frames that
nothing encloses are made, outputs are exchanged, and programs are run in the frames that are there.
Running a program comes to the machines on which its parts are begun and to those on which they
end. -/
inductive Reached : Machine → Prop
  | start : Reached {}
  | root {m : Machine} (h : Reached m) : Reached m.withRoot
  | output {m : Machine} (h : Reached m) (sink : Sink) : Reached { m with sink := sink }
  | part {m : Machine} {n : Nat} {here : FrameId} {p : Program} {t : Task} (h : Reached m)
      (hhere : here < m.store.frames.size)
      (hreach : Task.Reaches (fun _ => True) ⟨n, here, .program p, m⟩ t) : Reached t.machine
  | run {m m' : Machine} {n : Nat} {here : FrameId} {p : Program} {t : Task} {v : Value}
      (h : Reached m) (hhere : here < m.store.frames.size)
      (hreach : Task.Reaches (fun _ => True) ⟨n, here, .program p, m⟩ t)
      (hrun : t.run = some (v, m')) : Reached m'

theorem Grounded.withRoot {m : Machine} (h : m.Grounded) : m.withRoot.Grounded := by
  have hgrows : m.Grows m.withRoot := ⟨by simp [Machine.withRoot], Nat.le_refl _⟩
  refine ⟨Store.all_add fun f hf b hb => Knows.mono (h.bound hf b hb) hgrows, fun i o ho => ?_⟩
  rw [Machine.withRoot, Store.outer?_add] at ho
  split at ho
  · cases ho
  · exact h.outer ho

/-- Whatever is run, nothing refers to what is still to be made. -/
theorem Reached.grounded {m : Machine} (h : m.Reached) : m.Grounded := by
  induction h with
  | start => exact ⟨fun f hf => by simp at hf, fun i o ho => by simp [Store.outer?] at ho⟩
  | root _ ih => exact ih.withRoot
  | output _ sink ih => exact ih.of_eq rfl rfl
  | part _ hhere hreach ih => exact (hreach.hosts ⟨ih, hhere⟩).grounded
  | run _ hhere hreach hrun ih => exact ((hreach.hosts ⟨ih, hhere⟩).eval _ hrun).1.grounded

end Machine

end Monkey
