import Monkey.Store

/-!
# Frames in a store

What adding a frame and binding names does to the frames of a store, one by one: to the bindings
of each, and to what encloses it.

## Main definitions

* `Store.outer?` — the frame that encloses a frame.
-/

namespace Monkey.Store

/-! ## Each frame -/

/-- A new frame is added after all the others. -/
theorem getElem?_add (s : Store) (outer : Option FrameId) {i : FrameId}
    (hi : i < s.frames.size) : (s.add outer).2.frames[i]? = s.frames[i]? := by
  simp [add, Array.getElem?_push, Nat.ne_of_lt hi]

theorem getElem?_set (s : Store) (id : FrameId) (name : String) (v : Value) (i : FrameId) :
    (s.set id name v).frames[i]? =
      if id = i then s.frames[i]?.map fun f => { f with bindings := f.bindings.set name v }
      else s.frames[i]? := by
  simp [set, Array.getElem?_modify]

theorem getElem?_setAll (s : Store) {id i : FrameId} (hi : i ≠ id) (bs : List (String × Value)) :
    (s.setAll id bs).frames[i]? = s.frames[i]? := by
  induction bs generalizing s with
  | nil => rfl
  | cons b bs ih =>
    calc (s.setAll id (b :: bs)).frames[i]? = (s.set id b.1 b.2).frames[i]? := ih _
      _ = s.frames[i]? := by rw [getElem?_set, if_neg (Ne.symm hi)]

@[simp] theorem size_setAll (s : Store) (id : FrameId) (bs : List (String × Value)) :
    (s.setAll id bs).frames.size = s.frames.size := by
  induction bs generalizing s with
  | nil => rfl
  | cons b bs ih => exact (ih _).trans (size_set ..)

/-! ## What encloses a frame -/

/-- The frame that encloses a frame. -/
def outer? (s : Store) (id : FrameId) : Option FrameId := s.frames[id]?.bind (·.outer)

theorem outer?_set (s : Store) (id : FrameId) (name : String) (v : Value) (i : FrameId) :
    (s.set id name v).outer? i = s.outer? i := by
  unfold outer?
  rw [getElem?_set]
  split
  · cases s.frames[i]? <;> rfl
  · rfl

theorem outer?_setAll (s : Store) (id : FrameId) (bs : List (String × Value)) (i : FrameId) :
    (s.setAll id bs).outer? i = s.outer? i := by
  induction bs generalizing s with
  | nil => rfl
  | cons b bs ih => exact (ih _).trans (outer?_set ..)

theorem outer?_add (s : Store) (outer : Option FrameId) (i : FrameId) :
    (s.add outer).2.outer? i = if i = s.frames.size then outer else s.outer? i := by
  unfold outer? add
  rw [Array.getElem?_push]
  split <;> rfl

/-! ## What a frame binds itself -/

/-- The frame itself binds the name to the value. -/
def Binds (s : Store) (id : FrameId) (name : String) (v : Value) : Prop :=
  ∃ f, s.frames[id]? = some f ∧ f.bindings.find? name = some v

section Binds

variable {s : Store} {id : FrameId} {name : String} {v : Value}

theorem Binds.get? (h : s.Binds id name v) : s.get? id name = some v := by
  obtain ⟨f, hf, hv⟩ := h
  rw [Store.get?, chain, hf]
  dsimp only
  split
  · simp [hv]
  · split <;> simp [hv]

theorem binds_set (hid : id < s.frames.size) (name : String) (v : Value) :
    (s.set id name v).Binds id name v := by
  refine ⟨{ s.frames[id] with bindings := s.frames[id].bindings.set name v }, ?_, ?_⟩
  · rw [getElem?_set, if_pos rfl, Array.getElem?_eq_getElem hid]
    rfl
  · rw [Bindings.find?_set, if_pos rfl]

/-- Binding other names leaves a name alone. -/
theorem Binds.setAll {bs : List (String × Value)} (h : s.Binds id name v)
    (hbs : ∀ b ∈ bs, b.1 ≠ name) : (s.setAll id bs).Binds id name v := by
  induction bs generalizing s with
  | nil => exact h
  | cons b bs ih =>
    obtain ⟨hb, hbs⟩ := List.forall_mem_cons.mp hbs
    refine ih ?_ hbs
    obtain ⟨f, hf, hv⟩ := h
    refine ⟨{ f with bindings := f.bindings.set b.1 b.2 }, ?_, ?_⟩
    · rw [getElem?_set, if_pos rfl, hf]
      rfl
    · rw [Bindings.find?_set, if_neg hb, hv]

/-- Of several names that are bound one after the other, each has the value that it was given last. -/
theorem binds_setAll {bs : List (String × Value)} {i : Nat} (hid : id < s.frames.size)
    (hi : bs[i]? = some (name, v)) (hlast : ∀ b ∈ bs.drop (i + 1), b.1 ≠ name) :
    (s.setAll id bs).Binds id name v := by
  induction bs generalizing s i with
  | nil => cases hi
  | cons b bs ih =>
    cases i with
    | zero =>
      cases hi
      exact (binds_set hid name v).setAll hlast
    | succ i => exact @ih (s.set id b.1 b.2) i (by rwa [size_set]) hi hlast

end Binds

end Monkey.Store
