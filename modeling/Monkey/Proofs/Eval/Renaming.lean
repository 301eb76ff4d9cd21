import Monkey.Proofs.Eval.Grounded

/-!
# Renaming frames and identities

Nothing that a program can find out about a value depends on which numbers frames and identities
have: all that counts is which of them are the same. So the numbers in a value can be replaced, and
every operator and every text is as before.

## Main definitions

* `Renaming` — other numbers for frames and identities.
* `Value.rename`, `Bindings.rename`, `Frame.rename` — the same with other numbers.
* `Renaming.Fixes` — that a renaming has no effect on what a machine has made.
* `Renaming.shift` — the renaming that moves all that a machine has still to make.
-/

namespace Monkey

/-- Other numbers for frames and identities. The order of frames is kept, since the frame that
encloses another one is to be older, and different identities stay different. -/
structure Renaming where
  frame : FrameId → FrameId
  identity : Identity → Identity
  frame_lt : ∀ ⦃i j : FrameId⦄, i < j → frame i < frame j
  identity_inj : ∀ ⦃i j : Identity⦄, identity i = identity j → i = j

namespace Renaming

variable (ρ : Renaming)

theorem frame_inj {i j : FrameId} (h : ρ.frame i = ρ.frame j) : i = j := by
  rcases Nat.lt_trichotomy i j with hlt | heq | hlt
  · exact absurd h (Nat.ne_of_lt (ρ.frame_lt hlt))
  · exact heq
  · exact absurd h.symm (Nat.ne_of_lt (ρ.frame_lt hlt))

theorem frame_lt_iff {i j : FrameId} : ρ.frame i < ρ.frame j ↔ i < j := by
  refine ⟨fun h => Nat.lt_of_not_le fun hle => ?_, fun h => ρ.frame_lt h⟩
  rcases Nat.lt_or_eq_of_le hle with hlt | rfl
  · exact Nat.lt_asymm h (ρ.frame_lt hlt)
  · exact Nat.lt_irrefl _ h

theorem identity_eq_iff {i j : Identity} : ρ.identity i = ρ.identity j ↔ i = j :=
  ⟨fun h => ρ.identity_inj h, congrArg _⟩

end Renaming

/-! ## Values -/

namespace Value

mutual

/-- The value with other numbers for frames and identities. -/
def rename (ρ : Renaming) : Value → Value
  | .integer v => .integer v
  | .boolean b => .boolean b
  | .string s => .string s
  | .null => .null
  | .returned v => .returned (v.rename ρ)
  | .error f => .error f
  | .function id parameters body frame =>
    .function (ρ.identity id) parameters body (ρ.frame frame)
  | .builtin b => .builtin b
  | .array id elements => .array (ρ.identity id) (renameElements ρ elements)
  | .hash id entries => .hash (ρ.identity id) (renameEntries ρ entries)

/-- Each element with other numbers. -/
def renameElements (ρ : Renaming) : List Value → List Value
  | [] => []
  | v :: rest => v.rename ρ :: renameElements ρ rest

/-- Each entry with other numbers. -/
def renameEntries (ρ : Renaming) : List (Key × Value) → List (Key × Value)
  | [] => []
  | (k, v) :: rest => (k, v.rename ρ) :: renameEntries ρ rest

end

variable {ρ : Renaming}

@[simp] theorem renameElements_eq_map (vs : List Value) :
    renameElements ρ vs = vs.map (rename ρ) := by
  induction vs with
  | nil => rfl
  | cons v vs ih => exact congrArg (v.rename ρ :: ·) ih

@[simp] theorem renameEntries_eq_map (entries : Entries Value) :
    renameEntries ρ entries = entries.map fun e => (e.1, e.2.rename ρ) := by
  induction entries with
  | nil => rfl
  | cons e entries ih => exact congrArg ((e.1, e.2.rename ρ) :: ·) ih

@[simp] theorem rename_integer (i : Int64) : (integer i).rename ρ = integer i := rfl

@[simp] theorem rename_boolean (b : Bool) : (boolean b).rename ρ = boolean b := rfl

@[simp] theorem rename_string (s : String) : (string s).rename ρ = string s := rfl

@[simp] theorem rename_null : (null).rename ρ = null := rfl

@[simp] theorem rename_returned (v : Value) : (returned v).rename ρ = returned (v.rename ρ) := rfl

@[simp] theorem rename_error (f : Fault) : (error f).rename ρ = error f := rfl

@[simp] theorem rename_function (id : Identity) (parameters : List Name) (body : Block)
    (frame : FrameId) :
    (function id parameters body frame).rename ρ =
      function (ρ.identity id) parameters body (ρ.frame frame) := rfl

@[simp] theorem rename_builtin (b : Builtin) : (builtin b).rename ρ = builtin b := rfl

@[simp] theorem rename_array (id : Identity) (vs : List Value) :
    (array id vs).rename ρ = array (ρ.identity id) (vs.map (rename ρ)) :=
  congrArg (array (ρ.identity id)) (renameElements_eq_map vs)

@[simp] theorem rename_hash (id : Identity) (entries : Entries Value) :
    (hash id entries).rename ρ =
      hash (ρ.identity id) (entries.map fun e => (e.1, e.2.rename ρ)) :=
  congrArg (hash (ρ.identity id)) (renameEntries_eq_map entries)

@[simp] theorem kind_rename (v : Value) : (v.rename ρ).kind = v.kind := by cases v <;> rfl

@[simp] theorem isError_rename (v : Value) : (v.rename ρ).isError = v.isError := by
  cases v <;> rfl

@[simp] theorem stops_rename (v : Value) : (v.rename ρ).stops = v.stops := by cases v <;> rfl

@[simp] theorem isTruthy_rename (v : Value) : (v.rename ρ).isTruthy = v.isTruthy := by
  cases v <;> rfl

@[simp] theorem isCallable_rename (v : Value) : (v.rename ρ).isCallable = v.isCallable := by
  cases v <;> rfl

@[simp] theorem key?_rename (v : Value) : (v.rename ρ).key? = v.key? := by cases v <;> rfl

theorem arrive_rename (v : Value) : (v.rename ρ).arrive = v.arrive.rename ρ := by cases v <;> rfl

/-- Whether two values are one does not depend on the numbers. -/
@[simp] theorem identical_rename (v w : Value) :
    (v.rename ρ).identical (w.rename ρ) = v.identical w := by
  cases v <;> cases w <;> simp [identical, ρ.identity_eq_iff]

mutual

/-- No text shows a number of a frame or an identity. -/
theorem render_rename : ∀ v : Value, (v.rename ρ).render = v.render
  | .integer _ | .boolean _ | .string _ | .null | .error _ | .builtin _ | .function .. => rfl
  | .returned v => render_rename v
  | .array _ vs =>
    congrArg (fun texts => "[" ++ Text.commaJoin texts ++ "]") (renderElements_rename vs)
  | .hash _ entries =>
    congrArg (fun texts => "\x7b" ++ Text.commaJoin texts ++ "\x7d") (renderEntries_rename entries)

theorem renderElements_rename : ∀ vs : List Value,
    renderElements (renameElements ρ vs) = renderElements vs
  | [] => rfl
  | v :: vs => congrArg₂ List.cons (render_rename v) (renderElements_rename vs)

theorem renderEntries_rename : ∀ entries : List (Key × Value),
    renderEntries (renameEntries ρ entries) = renderEntries entries
  | [] => rfl
  | (k, v) :: entries =>
    congrArg₂ (fun text texts => (k.render ++ ": " ++ text) :: texts) (render_rename v)
      (renderEntries_rename entries)

end

end Value

/-! ## Operators -/

section Operators

variable {ρ : Renaming}

theorem UnaryOp.apply_rename (op : UnaryOp) (v : Value) :
    op.apply (v.rename ρ) = (op.apply v).rename ρ := by
  cases op with
  | not => simp [UnaryOp.apply]
  | negate => cases v <;> rfl

theorem BinaryOp.onIntegers_rename (op : BinaryOp) (a b : Int64) :
    (op.onIntegers a b).rename ρ = op.onIntegers a b := by
  cases op with
  | divide =>
    simp only [BinaryOp.onIntegers]
    split <;> rfl
  | _ => rfl

theorem BinaryOp.onStrings_rename (op : BinaryOp) (a b : String) :
    (op.onStrings a b).rename ρ = op.onStrings a b := by
  cases op <;> rfl

theorem BinaryOp.onOthers_rename (op : BinaryOp) (a b : Value) :
    op.onOthers (a.rename ρ) (b.rename ρ) = (op.onOthers a b).rename ρ := by
  unfold BinaryOp.onOthers
  split
  · simp
  · simp
  · simp only [Value.kind_rename]
    split <;> rfl

theorem BinaryOp.apply_rename (op : BinaryOp) (a b : Value) :
    op.apply (a.rename ρ) (b.rename ρ) = (op.apply a b).rename ρ := by
  have hothers : op.onOthers (a.rename ρ) (b.rename ρ) = (op.onOthers a b).rename ρ :=
    op.onOthers_rename a b
  cases a with
  | integer x =>
    cases b with
    | integer y => exact (op.onIntegers_rename x y).symm
    | _ => exact hothers
  | string x =>
    cases b with
    | string y => exact (op.onStrings_rename x y).symm
    | _ => exact hothers
  | _ => exact hothers

theorem Value.length_rename (v : Value) : (v.rename ρ).length = v.length.rename ρ := by
  cases v with
  | array id vs => simp [Value.length]
  | _ => rfl

theorem Value.getD_null_rename (v? : Option Value) :
    (v?.map (Value.rename ρ)).getD .null = (v?.getD .null).rename ρ := by
  cases v? <;> rfl

theorem Entries.find?_rename (entries : Entries Value) (d : Digest) :
    Entries.find? (entries.map fun e => (e.1, e.2.rename ρ)) d =
      (entries.find? d).map (Value.rename ρ) := by
  simp only [Entries.find?, List.find?_map, Option.map_map]
  rfl

theorem Entries.insert_rename (entries : Entries Value) (k : Key) (v : Value) :
    Entries.insert (entries.map fun e => (e.1, e.2.rename ρ)) k (v.rename ρ) =
      (entries.insert k v).map fun e => (e.1, e.2.rename ρ) := by
  induction entries with
  | nil => rfl
  | cons e entries ih =>
    simp only [List.map_cons, Entries.insert]
    split
    · rfl
    · rw [List.map_cons, ih]

theorem Value.index_rename (v w : Value) :
    (v.rename ρ).index (w.rename ρ) = (v.index w).rename ρ := by
  cases v with
  | array id vs =>
    cases w with
    | integer i =>
      simp only [Value.rename_array, Value.rename_integer, Value.index, Value.elementAt]
      split
      · rfl
      · rw [List.getElem?_map, Value.getD_null_rename]
    | _ => rfl
  | hash id entries =>
    simp only [Value.rename_hash, Value.index, Value.key?_rename, Value.kind_rename]
    split
    · rw [Entries.find?_rename, Value.getD_null_rename]
    · rfl
  | _ => rfl

end Operators

/-! ## Frames -/

/-- The bindings with other numbers. -/
def Bindings.rename (ρ : Renaming) (bs : Bindings) : Bindings :=
  bs.map fun b => (b.1, b.2.rename ρ)

/-- The frame with other numbers. If nothing encloses it, then `idle` is to enclose it. -/
def Frame.rename (ρ : Renaming) (idle : Option FrameId) (f : Frame) : Frame :=
  ⟨f.bindings.rename ρ, (f.outer.map ρ.frame).or idle⟩

section Frames

variable {ρ : Renaming}

theorem Bindings.find?_rename (bs : Bindings) (name : String) :
    (bs.rename ρ).find? name = (bs.find? name).map (Value.rename ρ) := by
  simp only [Bindings.find?, Bindings.rename, List.find?_map, Option.map_map]
  rfl

theorem Bindings.set_rename (bs : Bindings) (name : String) (v : Value) :
    (bs.rename ρ).set name (v.rename ρ) = (bs.set name v).rename ρ := by
  induction bs with
  | nil => rfl
  | cons b bs ih =>
    simp only [Bindings.rename, List.map_cons, Bindings.set] at ih ⊢
    split
    · rfl
    · rw [List.map_cons, ih]

theorem Frame.set_rename (idle : Option FrameId) (f : Frame) (name : String) (v : Value) :
    { f.rename ρ idle with bindings := (f.rename ρ idle).bindings.set name (v.rename ρ) } =
      Frame.rename ρ idle { f with bindings := f.bindings.set name v } :=
  congrArg (Frame.mk · _) (Bindings.set_rename f.bindings name v)

end Frames

/-! ## What is left alone -/

/-- The renaming has no effect on what the machine has made. -/
structure Renaming.Fixes (ρ : Renaming) (m : Machine) : Prop where
  frame : ∀ i < m.store.frames.size, ρ.frame i = i
  identity : ∀ i < m.made, ρ.identity i = i

section Fixes

variable {ρ : Renaming} {m : Machine}

mutual

/-- Values that are known are left alone. -/
theorem Value.rename_eq_self (hρ : ρ.Fixes m) : ∀ v : Value, m.Knows v → v.rename ρ = v
  | .integer _, _ | .boolean _, _ | .string _, _ | .null, _ | .error _, _ | .builtin _, _ => rfl
  | .returned v, h => congrArg returned (rename_eq_self hρ v (Machine.knows_returned.mp h))
  | .function id parameters body frame, h => by
    rw [rename_function, hρ.identity id h.self.1, hρ.frame frame h.self.2]
  | .array id vs, h =>
    congrArg₂ array (hρ.identity id h.self)
      (renameElements_eq_self hρ vs fun _ hv => h.element hv)
  | .hash id entries, h =>
    congrArg₂ hash (hρ.identity id h.self)
      (renameEntries_eq_self hρ entries fun _ he => h.entry he)

theorem Value.renameElements_eq_self (hρ : ρ.Fixes m) : ∀ vs : List Value,
    (∀ v ∈ vs, m.Knows v) → renameElements ρ vs = vs
  | [], _ => rfl
  | v :: vs, h =>
    congrArg₂ List.cons (rename_eq_self hρ v (h v List.mem_cons_self))
      (renameElements_eq_self hρ vs fun w hw => h w (List.mem_cons_of_mem v hw))

theorem Value.renameEntries_eq_self (hρ : ρ.Fixes m) : ∀ entries : List (Key × Value),
    (∀ e ∈ entries, m.Knows e.2) → renameEntries ρ entries = entries
  | [], _ => rfl
  | (k, v) :: entries, h =>
    congrArg₂ (fun w rest => (k, w) :: rest) (rename_eq_self hρ v (h (k, v) List.mem_cons_self))
      (renameEntries_eq_self hρ entries fun e he => h e (List.mem_cons_of_mem _ he))

end

/-- The frames of a grounded machine are left alone. -/
theorem Frame.rename_eq_self (hρ : ρ.Fixes m) (hm : m.Grounded) {i : FrameId} {f : Frame}
    (hf : m.store.frames[i]? = some f) : f.rename ρ none = f := by
  obtain ⟨bindings, outer⟩ := f
  have hbindings : Bindings.rename ρ bindings = bindings := by
    refine (List.map_congr_left fun b hb => ?_).trans (List.map_id bindings)
    rw [Value.rename_eq_self hρ b.2 (hm.bound (Array.mem_of_getElem? hf) b hb)]
    rfl
  have houter : outer.map ρ.frame = outer := by
    cases outer with
    | none => rfl
    | some o =>
      have hlt : o < i := hm.outer (by simp [Store.outer?, hf])
      have hi : i < m.store.frames.size := (Array.getElem?_eq_some_iff.mp hf).1
      exact congrArg some (hρ.frame o (Nat.lt_trans hlt hi))
  rw [Frame.rename, hbindings, houter, Option.or_none]

end Fixes

namespace Renaming

/-- A number below the bound is left alone, and any other is moved on by `k`. -/
def moved (bound k i : Nat) : Nat := if i < bound then i else i + k

theorem moved_of_lt {bound k i : Nat} (h : i < bound) : moved bound k i = i := if_pos h

@[simp] theorem moved_add (bound k i : Nat) : moved bound k (bound + i) = bound + k + i := by
  rw [moved, if_neg (by omega), Nat.add_right_comm]

theorem moved_lt_moved {bound k i j : Nat} (h : i < j) : moved bound k i < moved bound k j := by
  unfold moved
  split <;> split <;> omega

theorem moved_inj {bound k i j : Nat} (h : moved bound k i = moved bound k j) : i = j := by
  unfold moved at h
  split at h <;> split at h <;> omega

/-- What the machine has made is left alone, and all that is made later is moved on: frames by `k`,
and identities by `l`. -/
def shift (m : Machine) (k l : Nat) : Renaming where
  frame := moved m.store.frames.size k
  identity := moved m.made l
  frame_lt _ _ := moved_lt_moved
  identity_inj _ _ := moved_inj

theorem shift_fixes (m : Machine) (k l : Nat) : (shift m k l).Fixes m :=
  ⟨fun _ => moved_of_lt, fun _ => moved_of_lt⟩

end Renaming

end Monkey
