import Monkey.Proofs.Eval.Keeps

/-!
# What values and machines hold

A value may hold other values: an array its elements, a hash what its keys lead to, and a returned
value what is being returned. A property of single values carries over to all that a value holds and
to all that a machine holds. Whatever builtins and operators make of values with the property has it
as well, or is an error, if only arrays, hashes and the values that hold nothing always have it.

## Main definitions

* `Value.Within`, `Value.All` — what a value holds, and that all of it has a property.
* `Machine.All` — that all values that are bound have a property.
* `Eval.Ensures` — that an evaluation keeps a property of machines and has an outcome with another.
-/

namespace Monkey

open Eval

/-! ## Values in values -/

/-- The first value is the second, or stands in it at some depth. -/
inductive Value.Within (w : Value) : Value → Prop
  | refl : Within w w
  | returned {v : Value} (h : Within w v) : Within w (.returned v)
  | element {id : Identity} {vs : List Value} {v : Value} (hv : v ∈ vs) (h : Within w v) :
      Within w (.array id vs)
  | entry {id : Identity} {entries : Entries Value} {e : Key × Value} (he : e ∈ entries)
      (h : Within w e.2) : Within w (.hash id entries)

namespace Value

/-- The value and everything in it have the property. -/
def All (Good : Value → Prop) (v : Value) : Prop := ∀ w, Within w v → Good w

/-- Whether a value holds no other value and is no function. -/
def isPlain : Value → Bool
  | integer _ | boolean _ | string _ | null | builtin _ => true
  | _ => false

variable {Good : Value → Prop} {v : Value}

theorem All.self (h : v.All Good) : Good v := h v .refl

theorem Within.trans {u w : Value} (h : Within w v) (h' : Within v u) : Within w u := by
  induction h' with
  | refl => exact h
  | returned _ ih => exact .returned ih
  | element hv _ ih => exact .element hv ih
  | entry he _ ih => exact .entry he ih

/-- Whatever is in a value has what all of the value has. -/
theorem All.within {u : Value} (h : v.All Good) (hu : Within u v) : u.All Good :=
  fun w hw => h w (hw.trans hu)

theorem all_array {id : Identity} {vs : List Value} (hgood : Good (.array id vs))
    (hvs : ∀ v ∈ vs, v.All Good) : (array id vs).All Good := by
  intro w hw
  cases hw with
  | refl => exact hgood
  | element hv h => exact hvs _ hv w h

theorem All.element {id : Identity} {vs : List Value} (h : (array id vs).All Good) (hv : v ∈ vs) :
    v.All Good := fun w hw => h w (.element hv hw)

theorem all_hash {id : Identity} {entries : Entries Value} (hgood : Good (.hash id entries))
    (hentries : ∀ e ∈ entries, e.2.All Good) : (hash id entries).All Good := by
  intro w hw
  cases hw with
  | refl => exact hgood
  | entry he h => exact hentries _ he w h

theorem All.entry {id : Identity} {entries : Entries Value} {e : Key × Value}
    (h : (hash id entries).All Good) (he : e ∈ entries) : e.2.All Good :=
  fun w hw => h w (.entry he hw)

theorem all_function {id : Identity} {parameters : List Name} {body : Block} {frame : FrameId}
    (h : Good (.function id parameters body frame)) :
    (function id parameters body frame).All Good := by
  intro w hw
  cases hw with
  | refl => exact h

theorem all_returned (hgood : Good (.returned v)) (hv : v.All Good) : (returned v).All Good := by
  intro w hw
  cases hw with
  | refl => exact hgood
  | returned hw => exact hv w hw

theorem All.of_returned (h : (returned v).All Good) : v.All Good := fun w hw => h w (.returned hw)

theorem All.arrive (h : v.All Good) : v.arrive.All Good := by
  cases v with
  | returned v => exact h.of_returned
  | _ => exact h

theorem all_of_isPlain (hplain : v.isPlain = true) (h : Good v) : v.All Good := by
  intro w hw
  cases hw with
  | refl => exact h
  | _ => simp [isPlain] at hplain

end Value

/-! ## Values in machines -/

/-- Every value that a frame of the machine binds has the property, and so has all that it holds. -/
def Machine.All (Good : Value → Prop) (m : Machine) : Prop :=
  ∀ ⦃f : Frame⦄, f ∈ m.store.frames → ∀ b ∈ f.bindings, b.2.All Good

theorem Bindings.mem_of_mem_set {bs : Bindings} {name : String} {v : Value} {b : String × Value}
    (h : b ∈ bs.set name v) : b ∈ bs ∨ b = (name, v) := by
  induction bs with
  | nil => exact .inr (List.mem_singleton.mp h)
  | cons c bs ih =>
    unfold set at h
    split at h
    · rcases List.mem_cons.mp h with h | h
      · exact .inr h
      · exact .inl (List.mem_cons_of_mem c h)
    · rcases List.mem_cons.mp h with rfl | h
      · exact .inl List.mem_cons_self
      · exact (ih h).imp_left (List.mem_cons_of_mem c)

/-- An insertion adds a value and keeps or drops the others. -/
theorem Entries.mem_of_mem_insert {entries : Entries Value} {k : Key} {v : Value}
    {e : Key × Value} (h : e ∈ entries.insert k v) : e ∈ entries ∨ e = (k, v) := by
  induction entries with
  | nil => exact .inr (List.mem_singleton.mp h)
  | cons c entries ih =>
    unfold insert at h
    split at h
    · rcases List.mem_cons.mp h with h | h
      · exact .inr h
      · exact .inl (List.mem_cons_of_mem c h)
    · rcases List.mem_cons.mp h with rfl | h
      · exact .inl List.mem_cons_self
      · exact (ih h).imp_left (List.mem_cons_of_mem c)

namespace Store

/-- The frames of a chain are frames of the store. -/
theorem mem_frames_of_mem_chain {s : Store} {id : FrameId} {f : Frame} (h : f ∈ s.chain id) :
    f ∈ s.frames := by
  fun_induction s.chain id with
  | case1 => simp at h
  | case2 id g hg =>
    rw [List.mem_singleton.mp h]
    exact Array.mem_of_getElem? hg
  | case3 id g hg outer _ _ ih =>
    rcases List.mem_cons.mp h with rfl | h
    · exact Array.mem_of_getElem? hg
    · exact ih h
  | case4 id g hg =>
    rw [List.mem_singleton.mp h]
    exact Array.mem_of_getElem? hg

theorem exists_of_get?_eq_some {s : Store} {id : FrameId} {name : String} {v : Value}
    (h : s.get? id name = some v) : ∃ f ∈ s.frames, (name, v) ∈ f.bindings := by
  obtain ⟨f, hf, hv⟩ := List.exists_of_findSome?_eq_some h
  obtain ⟨b, hb, rfl⟩ := Option.map_eq_some_iff.mp hv
  have hname : b.1 = name := by simpa using List.find?_some hb
  exact ⟨f, mem_frames_of_mem_chain hf, hname ▸ List.mem_of_find?_eq_some hb⟩

end Store

section Machines

variable {Good : Value → Prop} {s : Store} {m : Machine}

theorem Machine.All.get? {here : FrameId} {name : String} {v : Value} (h : m.All Good)
    (hv : m.store.get? here name = some v) : v.All Good := by
  obtain ⟨f, hf, hb⟩ := Store.exists_of_get?_eq_some hv
  exact h hf _ hb

/-- Binding a name to a value with the property leaves no other value behind. -/
theorem Store.all_set {here : FrameId} {name : String} {v : Value}
    (h : ∀ f ∈ s.frames, ∀ b ∈ f.bindings, b.2.All Good) (hv : v.All Good) :
    ∀ f ∈ (s.set here name v).frames, ∀ b ∈ f.bindings, b.2.All Good := by
  intro f hf b hb
  obtain ⟨i, hi⟩ := Array.mem_iff_getElem?.mp hf
  rw [Store.set, Array.getElem?_modify] at hi
  split at hi
  · obtain ⟨g, hg, rfl⟩ := Option.map_eq_some_iff.mp hi
    rcases Bindings.mem_of_mem_set hb with hb | rfl
    · exact h g (Array.mem_of_getElem? hg) b hb
    · exact hv
  · exact h f (Array.mem_of_getElem? hi) b hb

theorem Store.all_setAll {here : FrameId} {bs : List (String × Value)}
    (h : ∀ f ∈ s.frames, ∀ b ∈ f.bindings, b.2.All Good) (hbs : ∀ b ∈ bs, b.2.All Good) :
    ∀ f ∈ (s.setAll here bs).frames, ∀ b ∈ f.bindings, b.2.All Good := by
  induction bs generalizing s with
  | nil => exact h
  | cons b bs ih =>
    exact ih (Store.all_set h (hbs b List.mem_cons_self)) fun c hc =>
      hbs c (List.mem_cons_of_mem b hc)

theorem Store.all_add {outer : Option FrameId}
    (h : ∀ f ∈ s.frames, ∀ b ∈ f.bindings, b.2.All Good) :
    ∀ f ∈ (s.add outer).2.frames, ∀ b ∈ f.bindings, b.2.All Good := by
  intro f hf b hb
  rcases Array.mem_push.mp hf with hf | rfl
  · exact h f hf b hb
  · simp at hb

end Machines

/-! ## Evaluations -/

namespace Eval

variable {α β : Type} {Good : Value → Prop} {Q Q' : α → Prop} {P : β → Prop} {Inv : Machine → Prop}

/-- From a machine with the invariant the evaluation ends, if it ends, in one that has it as well,
and its outcome has the property. -/
def Ensures (Inv : Machine → Prop) (Q : α → Prop) (x : Eval α) : Prop :=
  ∀ ⦃m : Machine⦄ ⦃a : α⦄ ⦃m' : Machine⦄, Inv m → x m = some (a, m') → Q a ∧ Inv m'

theorem Ensures.mono {x : Eval α} (h : x.Ensures Inv Q) (hle : ∀ a, Q a → Q' a) :
    x.Ensures Inv Q' := by
  intro m a m' hm hx
  obtain ⟨ha, hm'⟩ := h hm hx
  exact ⟨hle a ha, hm'⟩

theorem ensures_pure {a : α} (h : Q a) : (pure a : Eval α).Ensures Inv Q := by
  intro m b m' hm hb
  obtain ⟨rfl, rfl⟩ := Prod.mk.inj (Option.some.inj hb)
  exact ⟨h, hm⟩

theorem Ensures.bind {x : Eval α} {k : α → Eval β} (hx : x.Ensures Inv Q)
    (hk : ∀ a, Q a → (k a).Ensures Inv P) : (x >>= k).Ensures Inv P := by
  intro m b m' hm h
  obtain ⟨a, mid, hfirst, hsecond⟩ := bind_eq_some_iff.mp h
  obtain ⟨ha, hmid⟩ := hx hm hfirst
  exact hk a ha hmid hsecond

/-- What leaves the frames alone leaves the values in them alone. -/
theorem ensures_of_sameStore {x : Eval α} (h : x.Keeps Machine.SameStore) :
    x.Ensures (Machine.All Good) fun _ => True := by
  intro m a m' hm hx
  have hstore : m'.store = m.store := h hx
  refine ⟨trivial, fun f hf => hm ?_⟩
  rwa [← hstore]

theorem ensures_assign {here : FrameId} {name : String} {v : Value} (hv : v.All Good) :
    (assign here name v).Ensures (Machine.All Good) fun _ => True := by
  intro m u m' hm h
  obtain ⟨-, rfl⟩ := Prod.mk.inj (Option.some.inj h)
  exact ⟨trivial, Store.all_set (fun f hf => hm hf) hv⟩

theorem ensures_enter {outer : FrameId} {bindings : List (String × Value)}
    (h : ∀ b ∈ bindings, b.2.All Good) :
    (enter outer bindings).Ensures (Machine.All Good) fun _ => True := by
  intro m inner m' hm hx
  obtain ⟨-, rfl⟩ := Prod.mk.inj (Option.some.inj hx)
  exact ⟨trivial, Store.all_setAll (Store.all_add fun f hf => hm hf) h⟩

/-- An outcome that is an error, or has the property throughout. -/
def Sound (Good : Value → Prop) (v : Value) : Prop := v.isError = true ∨ v.All Good

theorem sound_error {f : Fault} : Sound Good (.error f) := .inl rfl

theorem ensures_fault (f : Fault) : (fault f).Ensures Inv (Sound Good) := ensures_pure sound_error

theorem Sound.arrive {v : Value} (h : Sound Good v) : Sound Good v.arrive := by
  cases v with
  | returned v => exact .inr (h.resolve_left Bool.false_ne_true).of_returned
  | _ => exact h

theorem ensures_outOfSteps : (outOfSteps : Eval α).Ensures Inv Q := by
  intro m a m' _ h
  simp [outOfSteps] at h

/-- What goes on with a value goes on with one that has the property. -/
theorem Ensures.andThen {x : Eval Value} {k : Value → Eval Value} (hx : x.Ensures Inv (Sound Good))
    (hk : ∀ v, v.All Good → (k v).Ensures Inv (Sound Good)) :
    (andThen x k).Ensures Inv (Sound Good) := by
  refine hx.bind fun v hv => ?_
  split
  · exact ensures_pure hv
  · next herror => exact hk v (hv.resolve_left herror)

theorem ensures_withValues {run : Expr → Eval Value} {k : List Value → Eval Value} {es : List Expr}
    (hrun : ∀ e, (run e).Ensures Inv (Sound Good))
    (hk : ∀ vs : List Value, (∀ v ∈ vs, v.All Good) → (k vs).Ensures Inv (Sound Good)) :
    (withValues run es k).Ensures Inv (Sound Good) := by
  induction es generalizing k with
  | nil => exact hk [] (by simp)
  | cons e es ih =>
    exact (hrun e).andThen fun v hv => ih fun vs hvs =>
      hk (v :: vs) (List.forall_mem_cons.mpr ⟨hv, hvs⟩)

theorem ensures_withEntries {run : Expr → Eval Value} {k : Entries Value → Eval Value}
    {pairs : List (Expr × Expr)} {entries : Entries Value}
    (hrun : ∀ e, (run e).Ensures Inv (Sound Good))
    (hk : ∀ es : Entries Value, (∀ e ∈ es, e.2.All Good) → (k es).Ensures Inv (Sound Good))
    (hentries : ∀ e ∈ entries, e.2.All Good) :
    (withEntries run entries pairs k).Ensures Inv (Sound Good) := by
  induction pairs generalizing entries with
  | nil => exact hk entries hentries
  | cons p pairs ih =>
    refine (hrun p.1).andThen fun v _ => ?_
    split
    · exact ensures_fault _
    · refine (hrun p.2).andThen fun w hw => ih fun e he => ?_
      rcases Entries.mem_of_mem_insert he with he | rfl
      · exact hentries e he
      · exact hw

theorem ensures_sequence {run : Stmt → Eval Value} {last : Value} {ss : List Stmt}
    (hlast : Sound Good last) (hrun : ∀ s, (run s).Ensures Inv (Sound Good)) :
    (sequence run last ss).Ensures Inv (Sound Good) := by
  induction ss generalizing last with
  | nil => exact ensures_pure hlast
  | cons s ss ih =>
    refine (hrun s).bind fun v hv => ?_
    split
    · exact ensures_pure hv
    · exact ih hv

theorem ensures_newArray (harray : ∀ id vs, Good (.array id vs)) {vs : List Value}
    (hvs : ∀ v ∈ vs, v.All Good) :
    (newArray vs).Ensures (Machine.All Good) fun v => v.All Good :=
  (ensures_of_sameStore sameStore_freshIdentity).bind fun id _ =>
    ensures_pure (Value.all_array (harray id vs) hvs)

theorem ensures_onArray {b : Builtin} {v : Value} {k : List Value → Eval Value} (hv : v.All Good)
    (hk : ∀ vs : List Value, (∀ w ∈ vs, w.All Good) →
      (k vs).Ensures (Machine.All Good) (Sound Good)) :
    (b.onArray v k).Ensures (Machine.All Good) (Sound Good) := by
  cases v with
  | array id elements => exact hk elements fun w hw => hv.element hw
  | _ => exact ensures_fault _

section Builtins

variable (hplain : ∀ v : Value, v.isPlain = true → Good v)

include hplain

theorem sound_of_isPlain {v : Value} (h : v.isPlain = true) : Sound Good v :=
  .inr (Value.all_of_isPlain h (hplain v h))

theorem ensures_lookUp (here : FrameId) (name : String) :
    (lookUp here name).Ensures (Machine.All Good) (Sound Good) := by
  intro m v m' hm h
  obtain ⟨m₁, m₂, hget, h⟩ := bind_eq_some_iff.mp h
  obtain ⟨rfl, rfl⟩ := Prod.mk.inj (Option.some.inj hget)
  cases hw : m.store.get? here name with
  | some w =>
    simp only [hw] at h
    obtain ⟨rfl, rfl⟩ := Prod.mk.inj (Option.some.inj h)
    exact ⟨.inr (hm.get? hw), hm⟩
  | none =>
    simp only [hw] at h
    cases hb : Builtin.ofName? name with
    | some b =>
      simp only [hb] at h
      obtain ⟨rfl, rfl⟩ := Prod.mk.inj (Option.some.inj h)
      exact ⟨sound_of_isPlain hplain rfl, hm⟩
    | none =>
      simp only [hb] at h
      obtain ⟨rfl, rfl⟩ := Prod.mk.inj (Option.some.inj h)
      exact ⟨sound_error, hm⟩

theorem sound_getD_null {v? : Option Value} (h : ∀ v, v? = some v → v.All Good) :
    Sound Good (v?.getD .null) := by
  cases v? with
  | none => exact sound_of_isPlain hplain rfl
  | some v => exact .inr (h v rfl)

theorem ensures_printAll (vs : List Value) :
    (printAll vs).Ensures (Machine.All Good) (Sound Good) := by
  induction vs with
  | nil => exact ensures_pure (sound_of_isPlain hplain rfl)
  | cons v vs ih =>
    refine (ensures_of_sameStore (sameStore_print v.render)).bind fun ok _ => ?_
    split
    · exact ih
    · exact ensures_fault _

/-- A builtin makes nothing but arrays, plain values and errors, and hands on what it was given. -/
theorem ensures_call (harray : ∀ id vs, Good (.array id vs)) (b : Builtin)
    {arguments : List Value} (h : ∀ v ∈ arguments, v.All Good) :
    (b.call arguments).Ensures (Machine.All Good) (Sound Good) := by
  have newArray_sound {vs : List Value} (hvs : ∀ v ∈ vs, v.All Good) :
      (newArray vs).Ensures (Machine.All Good) (Sound Good) :=
    (ensures_newArray harray hvs).mono fun _ => .inr
  unfold Builtin.call
  split
  · next v =>
    refine ensures_pure ?_
    cases v with
    | string s => exact sound_of_isPlain hplain rfl
    | array id elements => exact sound_of_isPlain hplain rfl
    | _ => exact sound_error
  · refine ensures_onArray (h _ (by simp)) fun vs hvs => ensures_pure ?_
    exact sound_getD_null hplain fun v hv => hvs v (List.mem_of_head? hv)
  · refine ensures_onArray (h _ (by simp)) fun vs hvs => ensures_pure ?_
    exact sound_getD_null hplain fun v hv => hvs v (List.mem_of_getLast? hv)
  · refine ensures_onArray (h _ (by simp)) fun vs hvs => ?_
    cases vs with
    | nil => exact ensures_pure (sound_of_isPlain hplain rfl)
    | cons v vs => exact newArray_sound fun w hw => hvs w (List.mem_cons_of_mem v hw)
  · next v w =>
    refine ensures_onArray (h _ (by simp)) fun vs hvs => newArray_sound fun u hu => ?_
    rcases List.mem_append.mp hu with hu | hu
    · exact hvs u hu
    · rw [List.mem_singleton.mp hu]
      exact h w (by simp)
  · exact ensures_printAll hplain _
  · exact ensures_fault _
  · exact ensures_fault _

/-! ## Operators -/

theorem sound_unary (op : UnaryOp) (v : Value) : Sound Good (op.apply v) := by
  cases op with
  | not => exact sound_of_isPlain hplain rfl
  | negate =>
    cases v with
    | integer a => exact sound_of_isPlain hplain rfl
    | _ => exact sound_error

theorem sound_binary (op : BinaryOp) (a b : Value) : Sound Good (op.apply a b) := by
  have hothers (a b : Value) : Sound Good (op.onOthers a b) := by
    unfold BinaryOp.onOthers
    split
    · exact sound_of_isPlain hplain rfl
    · exact sound_of_isPlain hplain rfl
    · split <;> exact sound_error
  unfold BinaryOp.apply
  split
  · cases op with
    | divide =>
      unfold BinaryOp.onIntegers
      dsimp only
      split
      · exact sound_error
      · exact sound_of_isPlain hplain rfl
    | _ => exact sound_of_isPlain hplain rfl
  · cases op with
    | add => exact sound_of_isPlain hplain rfl
    | _ => exact sound_error
  · exact hothers _ _

theorem sound_index {v w : Value} (hv : v.All Good) : Sound Good (v.index w) := by
  unfold Value.index
  split
  · next id elements i =>
    unfold Value.elementAt
    split
    · exact sound_of_isPlain hplain rfl
    · exact sound_getD_null hplain fun u hu => hv.element (List.mem_of_getElem? hu)
  · next id entries =>
    split
    · next k _ =>
      refine sound_getD_null hplain fun u hu => ?_
      obtain ⟨e, he, rfl⟩ := Option.map_eq_some_iff.mp hu
      exact hv.entry (List.mem_of_find?_eq_some he)
    · exact sound_error
  · exact sound_error

end Builtins

end Eval

end Monkey
