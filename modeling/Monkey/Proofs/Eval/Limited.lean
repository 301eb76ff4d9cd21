import Monkey.Proofs.Eval.Keeps
import Monkey.Session

/-!
# Limited output

An output that is limited refuses the first line that does not fit, and the program ends there. So a
run with a limit is the run without one, cut off: if everything that is printed fits, then the two
are alike; if not, then the run with the limit prints as many lines as fit and ends with an error.

## Main definitions

* `Machine.limited` — a machine whose output is limited.
* `Eval.Silent` — that an evaluation has nothing to do with the output.
* `Eval.CutsOff` — that a limit does nothing to an evaluation but cut it off.
* `Sink.lineCount` — how many lines a text has.
-/

namespace Monkey

/-- The machine with another output. -/
def Machine.withSink (m : Machine) (sink : Sink) : Machine := { m with sink := sink }

/-- The machine with an output that accepts so many lines in all. -/
def Machine.limited (m : Machine) (limit : Nat) : Machine :=
  m.withSink { m.sink with limit := some limit }

/-- The lines that were printed. -/
def Machine.lines (m : Machine) : List String := m.sink.lines.toList

/-- The machine with one more line printed. -/
def Machine.push (m : Machine) (line : String) : Machine :=
  m.withSink { m.sink with lines := m.sink.lines.push line }

@[simp] theorem Machine.lines_limited (m : Machine) (limit : Nat) :
    (m.limited limit).lines = m.lines := rfl

@[simp] theorem Machine.lines_push (m : Machine) (line : String) :
    (m.push line).lines = m.lines ++ [line] := by simp [lines, push, withSink]

theorem Machine.isFull_limited (m : Machine) (limit : Nat) :
    (m.limited limit).sink.isFull = decide (limit ≤ m.lines.length) := rfl

namespace Eval

variable {α β : Type}

/-! ## Evaluations that print nothing -/

/-- The evaluation does the same whatever the output is, and leaves the output alone. -/
def Silent (x : Eval α) : Prop :=
  ∀ m sink, x (m.withSink sink) = (x m).map fun p => (p.1, p.2.withSink sink)

theorem Silent.sink_eq {x : Eval α} {m m' : Machine} {a : α} (h : x.Silent)
    (hx : x m = some (a, m')) : m'.sink = m.sink := by
  have hsame : x m = (x m).map fun p => (p.1, p.2.withSink m.sink) := h m m.sink
  rw [hx] at hsame
  obtain ⟨-, heq⟩ := Prod.mk.inj (Option.some.inj hsame)
  rw [heq]
  rfl

theorem silent_pure (a : α) : (pure a : Eval α).Silent := fun _ _ => rfl

theorem silent_fault (f : Fault) : (fault f).Silent := silent_pure _

theorem silent_outOfSteps : (outOfSteps : Eval α).Silent := fun _ _ => rfl

theorem silent_freshIdentity : freshIdentity.Silent := fun _ _ => rfl

theorem silent_assign (here : FrameId) (name : String) (v : Value) :
    (assign here name v).Silent := fun _ _ => rfl

theorem silent_enter (outer : FrameId) (bindings : List (String × Value)) :
    (enter outer bindings).Silent := fun _ _ => rfl

theorem silent_newArray (elements : List Value) : (newArray elements).Silent := fun _ _ => rfl

theorem silent_tail (elements : List Value) : (tail elements).Silent := by
  cases elements with
  | nil => exact silent_pure _
  | cons _ rest => exact silent_newArray rest

theorem silent_lookUp (here : FrameId) (name : String) : (lookUp here name).Silent := by
  intro m sink
  have hget (m : Machine) : (get : Eval Machine) m = some (m, m) := rfl
  have hstore : (m.withSink sink).store = m.store := rfl
  rw [lookUp, bind_eq_of_eq_some (hget _), bind_eq_of_eq_some (hget m), hstore]
  cases m.store.get? here name with
  | some v => rfl
  | none => cases Builtin.ofName? name <;> rfl

theorem silent_onArray (b : Builtin) (v : Value) {k : List Value → Eval Value}
    (hk : ∀ vs, (k vs).Silent) : (b.onArray v k).Silent := by
  cases v with
  | array id elements => exact hk elements
  | _ => exact silent_fault _

/-! ## Evaluations that a limit cuts off -/

/-- From a machine without a limit the evaluation only adds to the output. From the same machine with
a limit that is not exceeded yet it does the same if all that it prints fits; if not, then it prints
what fits and ends with an error. -/
def CutsOff (x : Eval Value) : Prop :=
  ∀ ⦃m : Machine⦄ ⦃v : Value⦄ ⦃m' : Machine⦄, m.sink.limit = none → x m = some (v, m') →
    m'.sink.limit = none ∧ m.lines <+: m'.lines ∧ ∀ limit, m.lines.length ≤ limit →
      (m'.lines.length ≤ limit → x (m.limited limit) = some (v, m'.limited limit)) ∧
      (limit < m'.lines.length → ∃ m'', x (m.limited limit) = some (.error .outputFull, m'') ∧
        m''.lines = m'.lines.take limit)

theorem Silent.cutsOff {x : Eval Value} (h : x.Silent) : x.CutsOff := by
  intro m v m' hm hx
  have hsink := h.sink_eq hx
  have hlines : m'.lines = m.lines := congrArg (·.lines.toList) hsink
  refine ⟨hsink ▸ hm, hlines ▸ List.prefix_rfl, fun limit hle => ⟨fun _ => ?_, fun hlt => ?_⟩⟩
  · rw [Machine.limited, h, hx, Machine.limited, hsink]
    rfl
  · rw [hlines] at hlt
    omega

/-- What comes after a silent evaluation is cut off just as it is by itself. -/
theorem Silent.bind {x : Eval α} {k : α → Eval Value} (hx : x.Silent) (hk : ∀ a, (k a).CutsOff) :
    (x >>= k).CutsOff := by
  intro m v m' hm h
  obtain ⟨a, mid, hfirst, hsecond⟩ := bind_eq_some_iff.mp h
  have hsink := hx.sink_eq hfirst
  have hlines : mid.lines = m.lines := congrArg (·.lines.toList) hsink
  obtain ⟨hm', hprefix, hlimit⟩ := hk a (hsink ▸ hm) hsecond
  rw [hlines] at hprefix hlimit
  refine ⟨hm', hprefix, fun limit hle => ?_⟩
  have hfirst' : x (m.limited limit) = some (a, mid.limited limit) := by
    rw [Machine.limited, hx, hfirst, Machine.limited, hsink]
    rfl
  rw [bind_eq_of_eq_some hfirst']
  exact hlimit limit hle

/-- What comes after an evaluation that is cut off is not run if it hands on the error that it is
given. -/
theorem CutsOff.bind {x : Eval Value} {k : Value → Eval Value} (hx : x.CutsOff)
    (hk : ∀ v, (k v).CutsOff) (hpass : k (.error .outputFull) = pure (.error .outputFull)) :
    (x >>= k).CutsOff := by
  intro m v m' hm h
  obtain ⟨w, mid, hfirst, hsecond⟩ := bind_eq_some_iff.mp h
  obtain ⟨hmid, hprefix, hxlimit⟩ := hx hm hfirst
  obtain ⟨hm', hprefix', hklimit⟩ := hk w hmid hsecond
  have hle' := hprefix'.length_le
  refine ⟨hm', hprefix.trans hprefix', fun limit hle => ⟨fun hfits => ?_, fun hlt => ?_⟩⟩
  · have hfirst' := (hxlimit limit hle).1 (by omega)
    exact bind_eq_some_iff.mpr ⟨w, _, hfirst', (hklimit limit (by omega)).1 hfits⟩
  · by_cases hmidle : mid.lines.length ≤ limit
    · obtain ⟨m'', hrun, htake⟩ := (hklimit limit hmidle).2 hlt
      exact ⟨m'', bind_eq_some_iff.mpr ⟨w, _, (hxlimit limit hle).1 hmidle, hrun⟩, htake⟩
    · obtain ⟨m'', hrun, htake⟩ := (hxlimit limit hle).2 (by omega)
      refine ⟨m'', bind_eq_some_iff.mpr ⟨_, m'', hrun, by rw [hpass]; rfl⟩, htake.trans ?_⟩
      obtain ⟨added, hadded⟩ := hprefix'
      rw [← hadded, List.take_append_of_le_length (by omega)]

theorem CutsOff.andThen {x : Eval Value} {k : Value → Eval Value} (hx : x.CutsOff)
    (hk : ∀ v, (k v).CutsOff) : (andThen x k).CutsOff := by
  refine hx.bind (fun v => ?_) rfl
  split
  · exact (silent_pure v).cutsOff
  · exact hk v

/-- A block or a loop goes on after a statement that stops nothing. -/
theorem CutsOff.unless_stops {x : Eval Value} {k : Value → Eval Value} (hx : x.CutsOff)
    (hk : ∀ v, (k v).CutsOff) :
    (do let v ← x; if v.stops then pure v else k v : Eval Value).CutsOff := by
  refine hx.bind (fun v => ?_) rfl
  split
  · exact (silent_pure v).cutsOff
  · exact hk v

section Lists

variable {run : Expr → Eval Value}

theorem cutsOff_withValues {es : List Expr} {k : List Value → Eval Value}
    (hrun : ∀ e ∈ es, (run e).CutsOff) (hk : ∀ vs, (k vs).CutsOff) :
    (withValues run es k).CutsOff := by
  induction es generalizing k with
  | nil => exact hk []
  | cons e es ih =>
    have hes : ∀ e' ∈ es, (run e').CutsOff := fun e' he' => hrun e' (List.mem_cons_of_mem e he')
    exact (hrun e List.mem_cons_self).andThen fun v => ih hes fun vs => hk (v :: vs)

theorem cutsOff_withEntries {k : Entries Value → Eval Value} {pairs : List (Expr × Expr)}
    (hkey : ∀ p ∈ pairs, (run p.1).CutsOff) (hvalue : ∀ p ∈ pairs, (run p.2).CutsOff)
    (hk : ∀ es, (k es).CutsOff) (entries : Entries Value) :
    (withEntries run entries pairs k).CutsOff := by
  induction pairs generalizing entries with
  | nil => exact hk entries
  | cons p pairs ih =>
    refine (hkey p List.mem_cons_self).andThen fun v => ?_
    split
    · exact (silent_fault _).cutsOff
    · have hkey' : ∀ q ∈ pairs, (run q.1).CutsOff := fun q hq =>
        hkey q (List.mem_cons_of_mem p hq)
      have hvalue' : ∀ q ∈ pairs, (run q.2).CutsOff := fun q hq =>
        hvalue q (List.mem_cons_of_mem p hq)
      exact (hvalue p List.mem_cons_self).andThen fun w => ih hkey' hvalue' _

theorem cutsOff_sequence {exec : Stmt → Eval Value} {ss : List Stmt}
    (hexec : ∀ s ∈ ss, (exec s).CutsOff) (last : Value) : (sequence exec last ss).CutsOff := by
  induction ss generalizing last with
  | nil => exact (silent_pure last).cutsOff
  | cons s ss ih =>
    have hss : ∀ s' ∈ ss, (exec s').CutsOff := fun s' hs' => hexec s' (List.mem_cons_of_mem s hs')
    exact (hexec s List.mem_cons_self).unless_stops fun v => ih hss v

end Lists

/-! ## Printing and calls -/

theorem print_of_isFull {m : Machine} {line : String} (h : m.sink.isFull = true) :
    print line m = some (false, m) := by
  have hprint : m.sink.print? line = none := by simp [Sink.print?, h]
  refine congrArg some ?_
  dsimp only
  rw [hprint]

theorem print_of_not_isFull {m : Machine} {line : String} (h : m.sink.isFull = false) :
    print line m = some (true, m.push line) := by
  have hprint : m.sink.print? line = some { m.sink with lines := m.sink.lines.push line } := by
    simp [Sink.print?, h]
  refine congrArg some ?_
  dsimp only
  rw [hprint]
  rfl

/-- A line that is refused is an error, and nothing is run after it. -/
theorem cutsOff_print {line : String} {k : Eval Value} (hk : k.CutsOff) :
    (do if ← print line then k else fault .outputFull : Eval Value).CutsOff := by
  intro m v m' hm h
  obtain ⟨ok, mid, hprint, hrest⟩ := bind_eq_some_iff.mp h
  rw [print_of_not_isFull (by simp [Sink.isFull, hm])] at hprint
  obtain ⟨rfl, rfl⟩ := Prod.mk.inj (Option.some.inj hprint)
  obtain ⟨hm', hprefix, hlimit⟩ := hk (show (m.push line).sink.limit = none from hm) hrest
  rw [Machine.lines_push] at hprefix hlimit
  have hbefore : m.lines <+: m'.lines := (List.prefix_append _ _).trans hprefix
  have hlength := hprefix.length_le
  rw [List.length_append, List.length_singleton] at hlength hlimit
  refine ⟨hm', hbefore, fun limit hle => ?_⟩
  by_cases hfull : m.lines.length = limit
  · refine ⟨fun hfits => absurd hfits (by omega), fun _ => ⟨m.limited limit, ?_, ?_⟩⟩
    · have hrefuse : (m.limited limit).sink.isFull = true := by
        simp [Machine.isFull_limited, hfull]
      exact bind_eq_some_iff.mpr ⟨false, _, print_of_isFull hrefuse, rfl⟩
    · rw [Machine.lines_limited, ← hfull]
      exact List.prefix_iff_eq_take.mp hbefore
  · have haccept : (m.limited limit).sink.isFull = false := by
      simp only [Machine.isFull_limited, decide_eq_false_iff_not]
      omega
    rw [bind_eq_of_eq_some (print_of_not_isFull haccept), if_pos rfl]
    exact hlimit limit (by omega)

theorem cutsOff_printAll (vs : List Value) : (printAll vs).CutsOff := by
  induction vs with
  | nil => exact (silent_pure _).cutsOff
  | cons v vs ih => exact cutsOff_print ih

theorem cutsOff_call (b : Builtin) (arguments : List Value) : (b.call arguments).CutsOff := by
  unfold Builtin.call
  split
  · exact (silent_pure _).cutsOff
  · exact (silent_onArray _ _ fun _ => silent_pure _).cutsOff
  · exact (silent_onArray _ _ fun _ => silent_pure _).cutsOff
  · exact (silent_onArray _ _ silent_tail).cutsOff
  · exact (silent_onArray _ _ fun _ => silent_newArray _).cutsOff
  · exact cutsOff_printAll _
  · exact (silent_fault _).cutsOff
  · exact (silent_fault _).cutsOff

theorem CutsOff.arrive {x : Eval Value} (h : x.CutsOff) :
    (do let v ← x; pure v.arrive : Eval Value).CutsOff :=
  h.bind (fun _ => (silent_pure _).cutsOff) rfl

theorem cutsOff_applyWith {run : FrameId → Block → Eval Value}
    (hrun : ∀ frame body, (run frame body).CutsOff) (f : Value) (arguments : List Value) :
    (applyWith run f arguments).CutsOff := by
  cases f with
  | function id parameters body frame =>
    simp only [applyWith]
    split
    · exact (silent_enter _ _).bind fun inner => (hrun inner body).arrive
    · exact (silent_fault _).cutsOff
  | builtin b => exact cutsOff_call b arguments
  | _ => exact (silent_fault _).cutsOff

/-! ## Runs -/

/-- The induction is on the number of steps, over all texts at once. -/
theorem cutsOff_evalExpr_evalStmt (n : Nat) :
    (∀ here e, (evalExpr n here e).CutsOff) ∧ ∀ here s, (evalStmt n here s).CutsOff := by
  induction n with
  | zero => exact ⟨fun _ _ => silent_outOfSteps.cutsOff, fun _ _ => silent_outOfSteps.cutsOff⟩
  | succ n ih =>
    obtain ⟨hexpr, hstmt⟩ := ih
    have block (here : FrameId) (body : Block) :
        (sequence (evalStmt n here) .null body).CutsOff :=
      cutsOff_sequence (fun s _ => hstmt here s) .null
    constructor
    · intro here e
      rw [evalExpr.eq_def]
      cases e with
      | name x => exact (silent_lookUp here x.text).cutsOff
      | integer v => exact (silent_pure _).cutsOff
      | string s => exact (silent_pure _).cutsOff
      | boolean b => exact (silent_pure _).cutsOff
      | unary op e => exact (hexpr here e).andThen fun v => (silent_pure _).cutsOff
      | binary op l r =>
        exact (hexpr here l).andThen fun a => (hexpr here r).andThen fun b =>
          (silent_pure _).cutsOff
      | conditional c yes no =>
        refine (hexpr here c).andThen fun test => ?_
        split
        · exact block here yes
        · cases no with
          | none => exact (silent_pure _).cutsOff
          | some no => exact block here no
      | function parameters body => exact silent_freshIdentity.bind fun id => (silent_pure _).cutsOff
      | call f arguments =>
        refine (hexpr here f).andThen fun g => ?_
        split
        · exact cutsOff_withValues (fun e _ => hexpr here e) fun vs =>
            cutsOff_applyWith block g vs
        · exact (silent_fault _).cutsOff
      | array elements =>
        exact cutsOff_withValues (fun e _ => hexpr here e) fun vs => (silent_newArray vs).cutsOff
      | index l i =>
        exact (hexpr here l).andThen fun a => (hexpr here i).andThen fun b =>
          (silent_pure _).cutsOff
      | hash pairs =>
        refine cutsOff_withEntries (fun p _ => hexpr here p.1) (fun p _ => hexpr here p.2)
          (fun entries => ?_) []
        exact silent_freshIdentity.bind fun id => (silent_pure _).cutsOff
    · intro here s
      rw [evalStmt.eq_def]
      cases s with
      | binding x e =>
        refine (hexpr here e).andThen fun v => ?_
        exact (silent_assign here x.text v).bind fun _ => (silent_pure _).cutsOff
      | ret e => exact (hexpr here e).andThen fun v => (silent_pure _).cutsOff
      | expression e => exact hexpr here e
      | loop c body =>
        refine (hexpr here c).andThen fun test => ?_
        split
        · exact (block here body).unless_stops fun _ => hstmt here (.loop c body)
        · exact (silent_pure _).cutsOff

theorem cutsOff_apply (n : Nat) (f : Value) (arguments : List Value) :
    (apply n f arguments).CutsOff :=
  cutsOff_applyWith (fun here _ =>
    cutsOff_sequence (fun s _ => (cutsOff_evalExpr_evalStmt n).2 here s) .null) f arguments

theorem cutsOff_evalProgram (n : Nat) (here : FrameId) (p : Program) :
    (evalProgram n here p).CutsOff :=
  CutsOff.arrive (cutsOff_sequence (fun s _ => (cutsOff_evalExpr_evalStmt n).2 here s) .null)

end Eval

/-! ## Lines of a text -/

namespace Sink

/-- An output that has accepted these lines. -/
def ofLines (lines : List String) : Sink := { lines := lines.toArray }

/-- How many lines a text has that ends each of its lines with a newline. -/
def lineCount (text : String) : Nat := text.toList.count '\n'

theorem toList_text_ofLines (lines : List String) :
    (ofLines lines).text.toList = lines.flatMap fun line => line.toList ++ ['\n'] := by
  simp [text, ofLines, String.toList_join, List.flatMap, Function.comp_def]

/-- If no line has a newline in it, then there are as many lines in the text as were printed. -/
theorem lineCount_text_ofLines {lines : List String}
    (h : ∀ line ∈ lines, '\n' ∉ line.toList) : lineCount (ofLines lines).text = lines.length := by
  rw [lineCount, toList_text_ofLines]
  induction lines with
  | nil => rfl
  | cons line lines ih =>
    obtain ⟨hline, hlines⟩ := List.forall_mem_cons.mp h
    rw [List.flatMap_cons, List.count_append, ih hlines, List.count_append,
      List.count_eq_zero.mpr hline, List.length_cons]
    simp
    omega

end Sink

/-! ## Sessions -/

namespace Session

/-- A program that ends with no limit on its output, and prints no value whose text has a newline in
it: if the output has no more lines than the limit, then the program ends in the same way with the
limit. If it has more, then with the limit the program ends as well, its output is cut off after as
many lines, and its value is the error that says so. -/
theorem perform_limited {s s' : Session} {n : Nat} {here : FrameId} {p : Program} {v : Value}
    {output : List String}
    (h : s.perform none (evalProgram n here p) = some (v, output, s'))
    (hlines : ∀ line ∈ output, '\n' ∉ line.toList) (limit : Nat) :
    (Sink.lineCount (Sink.ofLines output).text ≤ limit →
      s.perform (some limit) (evalProgram n here p) = some (v, output, s')) ∧
    (limit < Sink.lineCount (Sink.ofLines output).text →
      ∃ f s'', s.perform (some limit) (evalProgram n here p) =
          some (.error f, output.take limit, s'') ∧
        f.message = "could not write output: sink is full") := by
  rw [Sink.lineCount_text_ofLines hlines]
  rw [perform_eq_map] at h
  obtain ⟨⟨w, m⟩, hrun, heq⟩ := Option.map_eq_some_iff.mp h
  obtain ⟨rfl, rfl, rfl⟩ : w = v ∧ m.lines = output ∧ ofMachine m = s' := by
    simpa [Machine.lines] using heq
  obtain ⟨-, -, hlimit⟩ := Eval.cutsOff_evalProgram n here p rfl hrun
  obtain ⟨hfits, hcut⟩ := hlimit limit (Nat.zero_le limit)
  have hmachine : (s.machine none).limited limit = s.machine (some limit) := rfl
  rw [hmachine] at hfits hcut
  rw [perform_eq_map]
  constructor
  · intro hle
    rw [hfits hle]
    rfl
  · intro hlt
    obtain ⟨m'', hrun', htake⟩ := hcut hlt
    refine ⟨.outputFull, ofMachine m'', ?_, rfl⟩
    rw [hrun', ← htake]
    rfl

/-- The program `puts(1, 2)` with an output that accepts one line. -/
theorem perform_puts_limited :
    start.perform none (evalProgram 3 global
        [.expression (.call (.name ⟨"puts", {}⟩) [.integer 1, .integer 2])]) =
      some (.null, ["1", "2"], start) ∧
    ∃ f s'', start.perform (some 1) (evalProgram 3 global
        [.expression (.call (.name ⟨"puts", {}⟩) [.integer 1, .integer 2])]) =
      some (.error f, ["1"], s'') ∧ f.message = "could not write output: sink is full" := by
  have hrun : start.perform none (evalProgram 3 global
      [.expression (.call (.name ⟨"puts", {}⟩) [.integer 1, .integer 2])]) =
    some (.null, ["1", "2"], start) := by with_unfolding_all rfl
  refine ⟨hrun, ?_⟩
  exact (perform_limited hrun (by decide) 1).2 (by decide)

end Session

end Monkey
