import Monkey.Syntax.Inspect
import Monkey.Value

/-!
# Frames of bindings

Names are bound in frames. A frame may be enclosed by an older one, where a name is looked up that
it does not bind itself. Functions refer to the frame in which they were made, so frames live in a
store and are never removed.

## Main definitions

* `Frame`, `Store` — a frame, and all the frames of a run.
* `Store.add` — a new frame.
* `Store.chain` — a frame and those that enclose it, from the inside out.
* `Store.get?`, `Store.set` — looking a name up along the chain, and binding it in the first frame.
* `Store.describe` — the names that a frame binds.
-/

namespace Monkey

/-- Names with their values. Each name occurs once, where it was first bound. -/
abbrev Bindings := List (String × Value)

namespace Bindings

/-- The value of a name. -/
def find? (bs : Bindings) (name : String) : Option Value :=
  (List.find? (fun b => b.1 = name) bs).map Prod.snd

/-- Let `name` have the value `v`, whatever it had before. -/
def set (bs : Bindings) (name : String) (v : Value) : Bindings :=
  match bs with
  | [] => [(name, v)]
  | b :: rest => if b.1 = name then (name, v) :: rest else b :: set rest name v

@[simp] theorem find?_nil (name : String) : find? [] name = none := rfl

/-- Binding a name changes its own value and no other. -/
theorem find?_set (bs : Bindings) (name : String) (v : Value) (other : String) :
    (bs.set name v).find? other = if name = other then some v else bs.find? other := by
  induction bs with
  | nil => by_cases h : name = other <;> simp [set, find?, h]
  | cons b rest ih =>
    unfold set
    by_cases hb : b.1 = name
    · by_cases h : name = other <;> simp [find?, hb, h]
    · rw [if_neg hb]
      by_cases ho : b.1 = other
      · have : ¬ name = other := fun h => hb (ho.trans h.symm)
        simp [find?, ho, this]
      · simpa [find?, ho] using ih

end Bindings

/-- Some bindings, and the frame that encloses them. -/
structure Frame where
  bindings : Bindings := []
  outer : Option FrameId := none

instance : Inhabited Frame := ⟨{}⟩

/-- All frames of a run, in the order in which they were made. -/
structure Store where
  frames : Array Frame := #[]

instance : Inhabited Store := ⟨{}⟩

namespace Store

/-- A new frame without bindings, enclosed by `outer` if that is given. -/
def add (s : Store) (outer : Option FrameId) : FrameId × Store :=
  (s.frames.size, ⟨s.frames.push { outer := outer }⟩)

/-- A frame and those that enclose it, from the inside out. What encloses a frame is older than the
frame itself, so the chain comes to an end. -/
def chain (s : Store) (id : FrameId) : List Frame :=
  match s.frames[id]? with
  | none => []
  | some f =>
    match f.outer with
    | none => [f]
    | some outer => if outer < id then f :: chain s outer else [f]
termination_by id

/-- The value of a name in a frame: that of the first frame of the chain that binds it. -/
def get? (s : Store) (id : FrameId) (name : String) : Option Value :=
  (s.chain id).findSome? (·.bindings.find? name)

/-- Bind a name in a frame. The frames that enclose it are left alone. -/
def set (s : Store) (id : FrameId) (name : String) (v : Value) : Store :=
  ⟨s.frames.modify id fun f => { f with bindings := f.bindings.set name v }⟩

/-- Bind several names in a frame, one after the other. -/
def setAll (s : Store) (id : FrameId) (bs : List (String × Value)) : Store :=
  bs.foldl (fun s b => s.set id b.1 b.2) s

/-- The names that a frame binds itself, in the order of their characters. -/
def names (s : Store) (id : FrameId) : List String :=
  match s.frames[id]? with
  | none => []
  | some f => (f.bindings.map Prod.fst).mergeSort fun a b => decide (a ≤ b)

/-- Whether another frame encloses a frame. -/
def isEnclosed (s : Store) (id : FrameId) : Bool :=
  (s.frames[id]?.bind (·.outer)).isSome

/-- A frame in words: the names that it binds itself and whether it is enclosed. Values are left
out, because a function among them may refer to the frame. -/
def describe (s : Store) (id : FrameId) : String :=
  Inspect.record "Environment"
    [("names", Inspect.list ((s.names id).map Text.Quoted.quote)),
      ("enclosed", cond (s.isEnclosed id) "true" "false")]

@[simp] theorem size_add (s : Store) (outer : Option FrameId) :
    (s.add outer).2.frames.size = s.frames.size + 1 := by simp [add]

@[simp] theorem size_set (s : Store) (id : FrameId) (name : String) (v : Value) :
    (s.set id name v).frames.size = s.frames.size := by simp [set]

end Store

end Monkey
