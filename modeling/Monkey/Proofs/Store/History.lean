import Monkey.Proofs.Store.Frames

/-!
# What a frame answers after a history of operations

A store is what a history of operations has made of the empty one: new frames, enclosed ones, and
names bound in frames, in any order. What it answers can be told from the history alone. A frame is
enclosed by the one that was given when it was made, a name has in a frame the value that was set
there last, and looking a name up goes from a frame outwards to the first frame in which the name
was ever set.

## Main definitions

* `Store.Op`, `Store.replay` — the operations, and the store that a history of them leads to.
* `Store.Op.created`, `outer?`, `latest?` — what a history says of frames and of names in them.
* `Store.Op.Chain` — the way from a frame outwards to one that nothing encloses.
* `Store.Op.Answers` — the law of what a frame answers.
-/

namespace Monkey.Store

/-- What can be done to a store. -/
inductive Op where
  /-- Make a frame that nothing encloses. -/
  | new
  /-- Make a frame that another one encloses. -/
  | enclose (outer : FrameId)
  /-- Bind a name in a frame. -/
  | set (frame : FrameId) (name : String) (v : Value)

/-- The store after one more operation. -/
def perform (s : Store) : Op → Store
  | .new => (s.add none).2
  | .enclose outer => (s.add (some outer)).2
  | .set frame name v => s.set frame name v

/-- The store that a history leads to. The latest operation comes first. -/
def replay : List Op → Store
  | [] => {}
  | op :: h => (replay h).perform op

namespace Op

/-! ## What a history says -/

/-- How many frames were made. -/
def created : List Op → Nat
  | [] => 0
  | .new :: h | .enclose _ :: h => created h + 1
  | .set .. :: h => created h

/-- Every operation was on frames that had been made before it. -/
def Valid : List Op → Prop
  | [] => True
  | .new :: h => Valid h
  | .enclose outer :: h => outer < created h ∧ Valid h
  | .set frame .. :: h => frame < created h ∧ Valid h

/-- The frame that a frame was enclosed in when it was made. -/
def outer? : List Op → FrameId → Option FrameId
  | [], _ => none
  | .enclose outer :: h, i => if i = created h then some outer else outer? h i
  | .new :: h, i | .set .. :: h, i => outer? h i

/-- The value that a name was last given in a frame, if it ever was given one there. -/
def latest? : List Op → FrameId → String → Option Value
  | [], _, _ => none
  | .set frame name v :: h, i, x => if frame = i ∧ name = x then some v else latest? h i x
  | .new :: h, i, x | .enclose _ :: h, i, x => latest? h i x

/-- The frames from `i` outwards, up to one that nothing encloses. -/
inductive Chain (h : List Op) : FrameId → List FrameId → Prop
  | root {i : FrameId} (hi : i < created h) (ho : outer? h i = none) : Chain h i [i]
  | step {i outer : FrameId} {chain : List FrameId} (ho : outer? h i = some outer)
      (hchain : Chain h outer chain) : Chain h i (i :: chain)

/-- Along the chain no frame before `frame` binds the name, so what is set there can be seen. -/
def Sees (h : List Op) (chain : List FrameId) (frame : FrameId) (name : String) : Prop :=
  ∃ before after, chain = before ++ frame :: after ∧ ∀ i ∈ before, latest? h i name = none

variable {h h' : List Op} {i o : FrameId} {chain : List FrameId} {x : String}

/-! ## One frame -/

theorem size_replay (h : List Op) : (replay h).frames.size = created h := by
  induction h with
  | nil => rfl
  | cons op h ih => cases op <;> simp [replay, perform, created, ih]

/-- Nothing was set in a frame that is still to be made. -/
theorem latest?_of_created_le (hv : Valid h) (hi : created h ≤ i) : latest? h i x = none := by
  induction h with
  | nil => rfl
  | cons op h ih =>
    cases op with
    | new => exact ih hv (Nat.le_of_succ_le hi)
    | enclose outer => exact ih hv.2 (Nat.le_of_succ_le hi)
    | set frame name v =>
      have hne : frame ≠ i := Nat.ne_of_lt (Nat.lt_of_lt_of_le hv.1 hi)
      rw [latest?, if_neg fun heq => hne heq.1]
      exact ih hv.2 hi

theorem outer?_of_created_le (hi : created h ≤ i) : outer? h i = none := by
  induction h with
  | nil => rfl
  | cons op h ih =>
    cases op with
    | new => exact ih (Nat.le_of_succ_le hi)
    | enclose outer =>
      rw [outer?, if_neg (Nat.ne_of_gt hi)]
      exact ih (Nat.le_of_succ_le hi)
    | set frame name v => exact ih hi

/-- A frame is enclosed by the one that was given when it was made. -/
theorem outer?_replay (h : List Op) (i : FrameId) : (replay h).outer? i = outer? h i := by
  induction h with
  | nil => simp [replay, Store.outer?, outer?]
  | cons op h ih =>
    cases op with
    | new =>
      rw [replay, perform, Store.outer?_add, size_replay, ih]
      split
      · next hi => exact (outer?_of_created_le (Nat.le_of_eq hi.symm)).symm
      · rfl
    | enclose outer => rw [replay, perform, Store.outer?_add, size_replay, ih, outer?]
    | set frame name v => rw [replay, perform, Store.outer?_set, ih, outer?]

/-- In a frame a name has the value that was set there last. -/
theorem find?_replay (hv : Valid h) {f : Frame} (hf : (replay h).frames[i]? = some f)
    (x : String) : f.bindings.find? x = latest? h i x := by
  induction h generalizing f with
  | nil => simp [replay] at hf
  | cons op h ih =>
    have added {outer : Option FrameId} (hv : Valid h)
        (hf : ((replay h).add outer).2.frames[i]? = some f) :
        f.bindings.find? x = latest? h i x := by
      rw [Store.add, Array.getElem?_push] at hf
      split at hf
      · next hi =>
        cases hf
        exact (latest?_of_created_le hv (Nat.le_of_eq (hi.trans (size_replay h)).symm)).symm
      · exact ih hv hf
    cases op with
    | new => exact added hv hf
    | enclose outer => exact added hv.2 hf
    | set frame name v =>
      rw [replay, perform, Store.getElem?_set] at hf
      split at hf
      · next hi =>
        obtain ⟨g, hg, rfl⟩ := Option.map_eq_some_iff.mp hf
        simp only [Bindings.find?_set, ih hv.2 hg, latest?, hi, true_and]
      · next hi =>
        rw [latest?, if_neg fun heq => hi heq.1]
        exact ih hv.2 hf

/-! ## The chain of a frame -/

theorem lt_created_of_outer? (ho : outer? h i = some o) : i < created h := by
  refine Nat.lt_of_not_le fun hi => ?_
  simp [outer?_of_created_le hi] at ho

/-- What encloses a frame is older. -/
theorem lt_of_outer? (hv : Valid h) (ho : outer? h i = some o) : o < i := by
  induction h with
  | nil => simp [outer?] at ho
  | cons op h ih =>
    cases op with
    | new => exact ih hv ho
    | enclose outer =>
      rw [outer?] at ho
      split at ho
      · next hi =>
        cases ho
        exact hi ▸ hv.1
      · exact ih hv.2 ho
    | set frame name v => exact ih hv.2 ho

/-- Going outwards comes to an end, because it comes to ever older frames. -/
theorem exists_chain (hv : Valid h) (hi : i < created h) : ∃ chain, Chain h i chain := by
  induction i using Nat.strongRecOn with
  | _ i ih =>
    cases ho : outer? h i with
    | none => exact ⟨[i], .root hi ho⟩
    | some o =>
      have hlt := lt_of_outer? hv ho
      obtain ⟨chain, hchain⟩ := ih o hlt (Nat.lt_trans hlt hi)
      exact ⟨i :: chain, .step ho hchain⟩

theorem Chain.unique {chain' : List FrameId} (hchain : Chain h i chain)
    (hchain' : Chain h i chain') : chain' = chain := by
  induction hchain generalizing chain' with
  | root _ ho =>
    cases hchain' with
    | root => rfl
    | step ho' => simp [ho] at ho'
  | step ho _ ih =>
    cases hchain' with
    | root _ ho' => simp [ho] at ho'
    | step ho' hchain' =>
      obtain rfl := Option.some.inj (ho.symm.trans ho')
      rw [ih hchain']

/-- A frame's chain depends on nothing but the frames that were made by then. -/
theorem Chain.congr (hchain : Chain h i chain) (hcreated : created h ≤ created h')
    (houter : ∀ j < created h, outer? h' j = outer? h j) : Chain h' i chain := by
  induction hchain with
  | root hi ho => exact .root (Nat.lt_of_lt_of_le hi hcreated) ((houter _ hi).trans ho)
  | step ho _ ih => exact .step ((houter _ (lt_created_of_outer? ho)).trans ho) ih

theorem Chain.new (hchain : Chain h i chain) : Chain (.new :: h) i chain :=
  hchain.congr (Nat.le_succ _) fun _ _ => rfl

theorem Chain.enclose (hchain : Chain h i chain) (o : FrameId) :
    Chain (.enclose o :: h) i chain :=
  hchain.congr (Nat.le_succ _) fun _ hj => by rw [outer?, if_neg (Nat.ne_of_lt hj)]

theorem Chain.set (hchain : Chain h i chain) (frame : FrameId) (name : String) (v : Value) :
    Chain (.set frame name v :: h) i chain :=
  hchain.congr (Nat.le_refl _) fun _ _ => rfl

/-! ## Looking a name up -/

/-- Looking a name up goes along the chain to the first frame in which it was set. -/
theorem Chain.get?_replay (hv : Valid h) (hchain : Chain h i chain) (x : String) :
    (replay h).get? i x = chain.findSome? fun j => latest? h j x := by
  have frame {i : FrameId} (hi : i < created h) :
      ∃ f, (replay h).frames[i]? = some f ∧ f.outer = outer? h i := by
    have hf := Array.getElem?_eq_getElem (Nat.lt_of_lt_of_eq hi (size_replay h).symm)
    exact ⟨_, hf, by rw [← outer?_replay, Store.outer?, hf, Option.bind_some]⟩
  unfold Store.get?
  induction hchain with
  | root hi ho =>
    obtain ⟨f, hf, houter⟩ := frame hi
    rw [Store.chain, hf]
    simp only [houter, ho, List.findSome?_cons, List.findSome?_nil, find?_replay hv hf]
  | step ho _ ih =>
    obtain ⟨f, hf, houter⟩ := frame (lt_created_of_outer? ho)
    rw [Store.chain, hf]
    simp only [houter, ho, if_pos (lt_of_outer? hv ho), List.findSome?_cons, find?_replay hv hf, ih]

section Set

variable {frame : FrameId} {name : String}

theorem findSome?_set_of_sees (hsees : Sees h chain frame name) (v : Value) :
    (chain.findSome? fun j => latest? (.set frame name v :: h) j name) = some v := by
  obtain ⟨before, after, rfl, hbefore⟩ := hsees
  induction before with
  | nil => simp [latest?]
  | cons j before ih =>
    by_cases hj : frame = j
    · simp [latest?, hj]
    · simpa [latest?, hj, hbefore j] using ih fun i hi => hbefore i (List.mem_cons_of_mem _ hi)

/-- What is set behind a frame that binds the name is not seen, and what is set under another name
is not either. -/
theorem findSome?_set_of_not_sees (h : List Op) (hx : x = name → ¬ Sees h chain frame name)
    (v : Value) :
    (chain.findSome? fun j => latest? (.set frame name v :: h) j x) =
      chain.findSome? fun j => latest? h j x := by
  induction chain with
  | nil => rfl
  | cons j chain ih =>
    have hj : ¬ (frame = j ∧ name = x) := by
      rintro ⟨rfl, rfl⟩
      exact hx rfl ⟨[], chain, rfl, by simp⟩
    simp only [List.findSome?_cons, latest?, if_neg hj]
    cases hlatest : latest? h j x with
    | some w => rfl
    | none =>
      refine ih fun hname => ?_
      rintro ⟨before, after, rfl, hbefore⟩
      refine hx hname ⟨j :: before, after, rfl, List.forall_mem_cons.mpr ⟨?_, hbefore⟩⟩
      rw [← hname, hlatest]

end Set

/-! ## The law -/

/-- What a frame answers after a history, and how one more operation changes that. -/
structure Answers (h : List Op) (i : FrameId) (chain : List FrameId) : Prop where
  /-- The store links every frame to the one that was given when it was made. -/
  links : ∀ j, (replay h).outer? j = outer? h j
  /-- From the frame outwards it goes along the chain, to a frame that nothing encloses. -/
  ends : Chain h i chain ∧ ∀ chain', Chain h i chain' → chain' = chain
  /-- A name has the value that it was last given in the first frame of the chain where it was given
  one. -/
  get? : ∀ x, (replay h).get? i x = chain.findSome? fun j => latest? h j x
  /-- A new frame changes nothing. -/
  new : ∀ x, (replay (.new :: h)).get? i x = (replay h).get? i x
  /-- An enclosed frame changes nothing. -/
  enclose : ∀ outer < created h, ∀ x,
    (replay (.enclose outer :: h)).get? i x = (replay h).get? i x
  /-- What is set where the frame sees it is its answer from then on. -/
  set_of_sees : ∀ frame < created h, ∀ name v, Sees h chain frame name →
    (replay (.set frame name v :: h)).get? i name = some v
  /-- What is set under another name, or where the frame does not see it, changes nothing. -/
  set_of_not_sees : ∀ frame < created h, ∀ name v x, (x = name → ¬ Sees h chain frame name) →
    (replay (.set frame name v :: h)).get? i x = (replay h).get? i x

/-- After any history every frame answers by the law. -/
theorem exists_answers (hv : Valid h) (hi : i < created h) : ∃ chain, Answers h i chain := by
  obtain ⟨chain, hchain⟩ := exists_chain hv hi
  have hget := hchain.get?_replay hv
  exact ⟨chain, {
    links := outer?_replay h
    ends := ⟨hchain, fun _ => hchain.unique⟩
    get? := hget
    new := fun x => (hchain.new.get?_replay (h := .new :: h) hv x).trans (hget x).symm
    enclose := fun o ho x =>
      ((hchain.enclose o).get?_replay (h := .enclose o :: h) ⟨ho, hv⟩ x).trans (hget x).symm
    set_of_sees := fun frame hframe name v hsees => by
      have hv' : Valid (.set frame name v :: h) := ⟨hframe, hv⟩
      rw [(hchain.set frame name v).get?_replay hv', findSome?_set_of_sees hsees]
    set_of_not_sees := fun frame hframe name v x hx => by
      have hv' : Valid (.set frame name v :: h) := ⟨hframe, hv⟩
      rw [(hchain.set frame name v).get?_replay hv', hget, findSome?_set_of_not_sees h hx] }⟩

/-- A frame, and one that it encloses, with a name set in both. -/
def nested : List Op :=
  [.set 1 "x" (.integer 2), .set 0 "x" (.integer 1), .enclose 0, .new]

/-- The inner frame answers by the law, and its own value is its answer. -/
theorem nested_answers : (Valid nested ∧ 1 < created nested ∧ ∃ chain, Answers nested 1 chain) ∧
    (replay nested).get? 1 "x" = some (.integer 2) := by
  have hvalid : Valid nested := by simp [nested, Valid, created]
  have hlt : 1 < created nested := by decide
  have hchain : Chain nested 1 [1, 0] := .step rfl (.root (by decide) rfl)
  exact ⟨⟨hvalid, hlt, exists_answers hvalid hlt⟩, hchain.get?_replay hvalid "x"⟩

end Op

end Monkey.Store
