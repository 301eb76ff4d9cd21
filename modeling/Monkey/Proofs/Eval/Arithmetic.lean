import Monkey.Proofs.Display.Pieces
import Monkey.Proofs.Eval.Parts
import Monkey.Proofs.Reader.GivesUp
import Monkey.Session

/-!
# Arithmetic from the text to the value

An operator between two integers is written with a space on either side. Such a text is scanned,
read and run, and what it comes to is the value of the operator in 64 bits. In a text a minus sign
is an operator that stands before a numeral, and a numeral is an integer of 64 bits by itself. So
the least integer has no written form: its numeral is one too large, and a text with it is rejected.

## Main definitions

* `BinaryOp.native` — the value of an operator, in terms of integers without bounds.
* `BinaryOp.text`, `BinaryOp.Tokens` — an operator between two integers, as a text and as tokens.
* `Numeral`, `Expr.ofInt64` — what an integer is scanned as, and what it is read as.
* `Diagnostic.BlamesLeast` — what is reported of the least integer.
-/

namespace Monkey

open Text Scanner Reader

/-! ## Operators -/

/-- The value of an operator between integers, reckoned without bounds and then brought back into 64
bits. Division truncates toward zero. -/
def BinaryOp.native (op : BinaryOp) (a b : Int64) : Value :=
  match op with
  | .add => .integer (Int64.ofInt (a.toInt + b.toInt))
  | .subtract => .integer (Int64.ofInt (a.toInt - b.toInt))
  | .multiply => .integer (Int64.ofInt (a.toInt * b.toInt))
  | .divide =>
    if b.toInt = 0 then .error .divisionByZero else .integer (Int64.ofInt (a.toInt.tdiv b.toInt))
  | .less => .boolean (decide (a.toInt < b.toInt))
  | .greater => .boolean (decide (b.toInt < a.toInt))
  | .equal => .boolean (decide (a.toInt = b.toInt))
  | .notEqual => .boolean (decide (a.toInt ≠ b.toInt))

theorem div_eq_ofInt_tdiv (a b : Int64) : a / b = Int64.ofInt (a.toInt.tdiv b.toInt) := by
  apply Int64.toInt_inj.mp
  rw [Int64.toInt_div, Int64.toInt_ofInt]

theorem BinaryOp.apply_integer (op : BinaryOp) (a b : Int64) :
    op.apply (.integer a) (.integer b) = op.native a b := by
  rw [apply]
  cases op with
  | add => simp [onIntegers, native]
  | subtract => simp [onIntegers, native]
  | multiply => simp [onIntegers, native]
  | divide =>
    have hzero : b.toInt = 0 ↔ b = 0 := Int64.toInt_inj (y := 0)
    simp only [onIntegers, native, hzero, div_eq_ofInt_tdiv]
  | less => simp [onIntegers, native, Int64.lt_iff_toInt_lt]
  | greater => simp [onIntegers, native, Int64.lt_iff_toInt_lt]
  | equal => simp [onIntegers, native, Int64.toInt_inj]
  | notEqual => simp [onIntegers, native, Int64.toInt_inj]

/-! ## Integers in a text -/

/-- The tokens of an integer in a text: a numeral, and a minus sign before it if need be. -/
def Numeral (a : Int64) (ts : List Token) : Prop :=
  ∃ t : Token, t.kind = .integer ∧ t.lexeme = a.toInt.natAbs.repr ∧
    (0 ≤ a ∧ ts = [t] ∨ a < 0 ∧ ∃ sign : Token, sign.kind = .symbol .minus ∧ ts = [sign, t])

theorem scans_ofInt64 (a : Int64) : Scans Apart (Numeral a) (Decimal.ofInt64 a).toList := by
  have hnumeral := scans_numeral a.toInt.natAbs
  by_cases h : 0 ≤ a
  · rw [ofInt64_of_nonneg h]
    refine hnumeral.mono (fun ts hts => ?_) fun _ => id
    obtain ⟨t, ⟨hkind, hlexeme⟩, rfl⟩ := hts
    exact ⟨t, hkind, hlexeme, .inl ⟨h, rfl⟩⟩
  · have hneg : a < 0 := Int64.not_le.mp h
    rw [ofInt64_of_neg hneg, String.toList_append]
    refine ((scans_sign (s := .minus) (by decide)).andThen hnumeral).mono (fun ts hts => ?_)
      fun _ => id
    obtain ⟨_, _, ⟨sign, hsign, rfl⟩, ⟨t, ⟨hkind, hlexeme⟩, rfl⟩, rfl⟩ := hts
    exact ⟨t, hkind, hlexeme, .inr ⟨hneg, sign, hsign, rfl⟩⟩

/-- An operator between two integers, with a space on either side. -/
def BinaryOp.text (op : BinaryOp) (a b : Int64) : String :=
  Decimal.ofInt64 a ++ " " ++ op.symbol.spelling ++ " " ++ Decimal.ofInt64 b

/-- The tokens of an operator between two integers. -/
structure BinaryOp.Tokens (op : BinaryOp) (a b : Int64) (us : List Token) (t : Token)
    (vs : List Token) : Prop where
  left : Numeral a us
  operator : t.kind = .symbol op.symbol
  right : Numeral b vs

theorem BinaryOp.ofString_text (op : BinaryOp) (a b : Int64) :
    ∃ us t vs mark, op.Tokens a b us t vs ∧ mark.kind = .endOfInput ∧
      Token.ofString (op.text a b) = (us ++ t :: vs) ++ [mark] := by
  have htext : (op.text a b).toList = (Decimal.ofInt64 a).toList ++
      ' ' :: (op.symbol.spelling.toList ++ ' ' :: (Decimal.ofInt64 b).toList) := by
    simp [text]
  have hop : op.symbol ≠ .assign ∧ op.symbol ≠ .bang := by cases op <;> decide
  have hright := ((scans_sign hop).andThen (scans_ofInt64 b).afterSpace).afterSpace
  have hall := (scans_ofInt64 a).append hright fun rest _ => apart_space _
  rw [← htext] at hall
  obtain ⟨_, mark, ⟨us, _, hus, ⟨_, vs, ⟨t, ht, rfl⟩, hvs, rfl⟩, rfl⟩, hmark, heq⟩ := hall.ofString
  exact ⟨us, t, vs, mark, ⟨hus, ht, hvs⟩, hmark, heq⟩

/-! ## Reading an integer -/

/-- An integer as it is read from a text, where a minus sign is an operator. -/
def Expr.ofInt64 (a : Int64) : Expr :=
  if 0 ≤ a then .integer a else .unary .negate (.integer (-a))

/-- Without its sign every integer but the least can be read. -/
theorem inRange?_natAbs_of_ne {a : Int64} (ha : a ≠ Int64.minValue) :
    Decimal.inRange? a.toInt.natAbs = some (if 0 ≤ a then a else -a) := by
  split
  · next h => exact inRange?_natAbs_of_nonneg h
  · next h =>
    have hneg : a.toInt < 0 := Int64.lt_iff_toInt_lt.mp (Int64.not_le.mp h)
    have hmin : a.toInt ≠ -9223372036854775808 := fun heq => ha (Int64.toInt_inj.mp heq)
    have hle := Int64.le_toInt a
    have habs : (a.toInt.natAbs : Int) = (-a).toInt := by
      rw [Int64.toInt_neg, Int.bmod_eq_of_le (by omega) (by omega)]
      omega
    rw [habs, inRange?_toInt]

theorem Numeral.begins {a : Int64} {ts : List Token} (h : Numeral a ts) :
    Begins Token.Kind.opensExpr ts := by
  obtain ⟨t, hkind, -, ⟨-, rfl⟩ | ⟨-, sign, hsign, rfl⟩⟩ := h
  · exact ⟨t, [], rfl, by rw [hkind]; rfl⟩
  · exact ⟨sign, [t], rfl, by rw [hsign]; rfl⟩

theorem Numeral.derives (clear : Prop) {a : Int64} {ts : List Token} (h : Numeral a ts)
    (ha : a ≠ Int64.minValue) :
    ∃ grip : Level, (∀ op : BinaryOp, op.level < grip) ∧
      Derives clear (.held grip (Expr.ofInt64 a)) ts := by
  obtain ⟨t, hkind, hlexeme, hts⟩ := h
  have hvalue := inRange?_natAbs_of_ne ha
  rw [← toInt64?_repr, ← hlexeme] at hvalue
  have hnumeral : Derives clear _ _ := Derives.integer hkind hvalue
  rcases hts with ⟨hsign, rfl⟩ | ⟨hsign, sign, hminus, rfl⟩
  · rw [if_pos hsign] at hnumeral
    rw [Expr.ofInt64, if_pos hsign]
    exact ⟨.index, fun op => by cases op <;> decide, hnumeral⟩
  · have hnot : ¬ 0 ≤ a := Int64.not_le.mpr hsign
    rw [if_neg hnot] at hnumeral
    rw [Expr.ofInt64, if_neg hnot]
    exact ⟨.unary, fun op => by cases op <;> decide, .unary hminus (by decide) hnumeral⟩

/-- Where neither operand is the least integer, the text is read as the operator between them. -/
theorem BinaryOp.Tokens.ofTokens {op : BinaryOp} {a b : Int64} {us vs : List Token}
    {t mark : Token} (h : op.Tokens a b us t vs) (hmark : mark.kind = .endOfInput)
    (ha : a ≠ Int64.minValue) (hb : b ≠ Int64.minValue) :
    Program.ofTokens ((us ++ t :: vs) ++ [mark]) =
      ([.expression (.binary op (.ofInt64 a) (.ofInt64 b))], []) := by
  obtain ⟨p, hp, hl⟩ := h.left.derives True ha
  obtain ⟨q, hq, hr⟩ := h.right.derives True hb
  have hbinary := Derives.binary h.operator (Nat.le_of_lt (hp op)) (hq op) hl hr
  have hprogram := Derives.unended (.expression (.expr hbinary)) (fun _ _ => by simp [Resumes]) .nil
  rw [List.append_nil] at hprogram
  exact hprogram.completed.ofTokens hmark

/-! ## Running the operator -/

theorem evalExpr_ofInt64 (n : Nat) (here : FrameId) (a : Int64) (m : Machine) :
    evalExpr (n + 2) here (.ofInt64 a) m = some (.integer a, m) := by
  unfold Expr.ofInt64
  split
  · rfl
  · change some (Value.integer (- -a), m) = _
    rw [Int64.neg_neg]

theorem BinaryOp.arrive_native (op : BinaryOp) (a b : Int64) :
    (op.native a b).arrive = op.native a b := by
  cases op with
  | divide => simp only [native]; split <;> rfl
  | _ => rfl

theorem evalProgram_ofInt64 (n : Nat) (here : FrameId) (op : BinaryOp) (a b : Int64)
    (m : Machine) :
    evalProgram (n + 4) here [.expression (.binary op (.ofInt64 a) (.ofInt64 b))] m =
      some (op.native a b, m) := by
  have hbinary : evalExpr (n + 3) here (.binary op (.ofInt64 a) (.ofInt64 b)) m =
      some (op.native a b, m) := by
    rw [evalExpr, andThen_eq (evalExpr_ofInt64 n here a m) rfl,
      andThen_eq (evalExpr_ofInt64 n here b m) rfl, op.apply_integer]
    rfl
  have hstmt : evalStmt (n + 4) here (.expression (.binary op (.ofInt64 a) (.ofInt64 b))) m =
      some (op.native a b, m) := by
    rw [evalStmt, hbinary]
  have hblock : evalBlock (n + 4) here [.expression (.binary op (.ofInt64 a) (.ofInt64 b))] m =
      some (op.native a b, m) := by
    rw [evalBlock, Eval.sequence, Eval.bind_eq_of_eq_some hstmt]
    split <;> rfl
  rw [evalProgram, Eval.bind_eq_of_eq_some hblock, op.arrive_native]
  rfl

/-! ## The least integer -/

section Least

variable {n : Nat} {l : Level} {a b : Int64} {op : BinaryOp} {c rest : Cursor}
  {t : Token} {us vs : List Token}

theorem reads_operand_integer {v : Int64} (hkind : c.head.kind = .integer)
    (hvalue : Decimal.toInt64? c.head.lexeme = some v) :
    Reads (operand (expression n) (block n) n) c (.integer v) c.next := by
  refine reads_bind.mpr ⟨c.head, c.next, reads_take.mpr ⟨rfl, rfl⟩, ?_⟩
  rw [hkind]
  exact reads_integerOf.mpr ⟨v, hvalue, rfl, rfl⟩

/-- Before an operator every integer but the least is read as an operand. -/
theorem Numeral.reads (h : Numeral a us) (ha : a ≠ Int64.minValue) (hpass : c.Passes us rest)
    (hrests : Level.unary.Rests rest.kind) :
    Reads (operand (expression (n + 2)) (block (n + 2)) (n + 2)) c (.ofInt64 a) rest := by
  obtain ⟨t, hkind, hlexeme, hus⟩ := h
  have hvalue := inRange?_natAbs_of_ne ha
  rw [← toInt64?_repr, ← hlexeme] at hvalue
  rcases hus with ⟨hsign, rfl⟩ | ⟨hsign, sign, hminus, rfl⟩
  · obtain ⟨hpass, rfl⟩ := Cursor.passes_singleton.mp hpass
    rw [if_pos hsign] at hvalue
    rw [Expr.ofInt64, if_pos hsign]
    obtain rfl := hpass.head
    exact reads_operand_integer hkind hvalue
  · obtain ⟨hfirst, hpass⟩ := Cursor.passes_cons.mp hpass
    obtain ⟨hpass, rfl⟩ := Cursor.passes_singleton.mp hpass
    have hnot : ¬ 0 ≤ a := Int64.not_le.mpr hsign
    rw [if_neg hnot] at hvalue
    rw [Expr.ofInt64, if_neg hnot]
    obtain rfl := hpass.head
    have hinner : Reads (expression (n + 2) .unary) c.next (.integer (-a)) c.next.next :=
      reads_expression_succ.mpr ⟨_, _, reads_operand_integer hkind hvalue,
        reads_suffixes_succ.mpr (.inl ⟨hrests, rfl, rfl⟩)⟩
    refine reads_bind.mpr ⟨sign, c.next, reads_take.mpr ⟨hfirst.head.symm, rfl⟩, ?_⟩
    rw [hminus]
    exact reads_map.mpr ⟨_, hinner, rfl⟩

/-- What is reported of the least integer: without its sign it is no integer of 64 bits. -/
def Diagnostic.BlamesLeast (d : Diagnostic) : Prop := d.cause = .notAnInteger "9223372036854775808"

theorem Numeral.givesUp (h : Numeral Int64.minValue us) (hpass : c.Passes us rest) :
    ∃ d : Diagnostic, d.BlamesLeast ∧
      GivesUp (operand (expression (n + 1)) (block (n + 1)) (n + 1)) c d := by
  obtain ⟨t, hkind, hlexeme, ⟨hsign, -⟩ | ⟨-, sign, hminus, rfl⟩⟩ := h
  · exact absurd hsign (by decide)
  · obtain ⟨hfirst, hsecond⟩ := Cursor.passes_cons.mp hpass
    obtain rfl := hfirst.head
    obtain rfl := hsecond.head
    have hblamed : Diagnostic.BlamesLeast ⟨.notAnInteger c.next.head.lexeme, c.next.head.span⟩ :=
      congrArg Diagnostic.Cause.notAnInteger (hlexeme.trans (by decide))
    have hvalue : Decimal.toInt64? c.next.head.lexeme = none := by
      rw [hlexeme, toInt64?_repr]
      decide
    have hnumeral := givesUp_operand_integer (n := n) hkind hvalue
    have hunary : c.head.kind = .symbol UnaryOp.negate.symbol := hminus
    exact ⟨_, hblamed, givesUp_operand_unary hunary (givesUp_expression hnumeral)⟩

theorem BinaryOp.Tokens.givesUp (h : op.Tokens a b us t vs)
    (hleast : a = Int64.minValue ∨ b = Int64.minValue) (hpass : c.Passes (us ++ t :: vs) rest) :
    ∃ d : Diagnostic, d.BlamesLeast ∧ GivesUp (expression (n + 3) .lowest) c d := by
  obtain ⟨mid, hleft, hpass⟩ := Cursor.passes_append.mp hpass
  obtain ⟨hoperator, hright⟩ := Cursor.passes_cons.mp hpass
  by_cases ha : a = Int64.minValue
  · obtain ⟨d, hd, hgives⟩ := Numeral.givesUp (n := n + 1) (ha ▸ h.left) hleft
    exact ⟨d, hd, givesUp_expression hgives⟩
  · have hb := hleast.resolve_left ha
    have hop : mid.kind = .symbol op.symbol := hoperator.kind.trans h.operator
    have hends : Level.unary.Ends mid.kind := by
      rw [hop]
      exact Level.ends_operator (by cases op <;> decide)
    obtain ⟨d, hd, hgives⟩ := Numeral.givesUp (n := n) (hb ▸ h.right) hright
    have hlevel : Level.lowest < op.level := by cases op <;> decide
    exact ⟨d, hd, givesUp_expression_of_right (h.left.reads ha hleft hends.2) hop hlevel
      (Nat.succ_ne_zero _) (givesUp_expression hgives)⟩

/-- Where an operand is the least integer, the text is not read as a program. -/
theorem BinaryOp.Tokens.ofTokens_of_least (h : op.Tokens a b us t vs)
    (hleast : a = Int64.minValue ∨ b = Int64.minValue) (mark : Token) :
    ∃ p d ds, Program.ofTokens ((us ++ t :: vs) ++ [mark]) = (p, d :: ds) ∧ d.BlamesLeast := by
  let start := Cursor.ofTokens ((us ++ t :: vs) ++ [mark])
  let stop : Cursor := { start with unread := [mark], taken := (us ++ t :: vs).length }
  have hpass : start.Passes (us ++ t :: vs) stop :=
    ⟨rfl, rfl, by simp [start, stop, Cursor.ofTokens]⟩
  have hbudget : Program.budget start = 4 * (us.length + vs.length + 2) + 4 := by
    simp [Program.budget, start, Cursor.ofTokens]
    omega
  have hopens : start.head.kind.opensExpr := by
    obtain ⟨u, us', hus, hu⟩ := h.left.begins.append (t :: vs)
    rw [hus] at hpass
    rwa [hpass.head]
  have hkind : start.kind ≠ .endOfInput := (Token.Kind.ne_of_opensStmt
    (Token.Kind.opensStmt_of_opensExpr hopens)).2.2.2
  obtain ⟨d, hd, hgives⟩ := h.givesUp (n := 4 * (us.length + vs.length + 2)) hleast hpass
  have hstatement : GivesUp (statement (Program.budget start)) start d := by
    rw [hbudget]
    exact givesUp_statement hopens hgives
  obtain ⟨p, ds, heq⟩ := Program.ofTokens_of_givesUp hkind hstatement
  exact ⟨p, d, ds, heq, hd⟩

end Least

/-! ## Sessions -/

namespace Session

variable {a b : Int64}

/-- Where neither integer is the least one, the text is read and run, and nothing is printed. -/
theorem run_text_of_ne (s : Session) (op : BinaryOp) (ha : a ≠ Int64.minValue)
    (hb : b ≠ Int64.minValue) (n : Nat) (here : FrameId) (limit : Option Nat) :
    s.run (n + 4) here (Token.ofString (op.text a b)) limit =
      some (.answered (op.native a b) [], s) := by
  obtain ⟨us, t, vs, mark, htokens, hmark, htext⟩ := op.ofString_text a b
  have hperform : s.perform limit
      (evalProgram (n + 4) here [.expression (.binary op (.ofInt64 a) (.ofInt64 b))]) =
        some (op.native a b, [], s) := by
    rw [perform_eq_map, evalProgram_ofInt64]
    rfl
  rw [htext, run, htokens.ofTokens hmark ha hb]
  simp only [List.isEmpty_nil, if_true, hperform]
  rfl

/-- Where one of the integers is the least one, the text is rejected for its numeral. -/
theorem run_text_of_least (s : Session) (op : BinaryOp)
    (hleast : a = Int64.minValue ∨ b = Int64.minValue) (n : Nat) (here : FrameId)
    (limit : Option Nat) :
    ∃ d ds, s.run n here (Token.ofString (op.text a b)) limit =
      some (.rejected (d :: ds), s) ∧ d.BlamesLeast := by
  obtain ⟨us, t, vs, mark, htokens, -, htext⟩ := op.ofString_text a b
  obtain ⟨p, d, ds, hread, hd⟩ := htokens.ofTokens_of_least hleast mark
  refine ⟨d, ds, ?_, hd⟩
  rw [htext, run, hread]
  rfl

/-- An operator between two integers has its native value, and so has a text in which it stands
between them, if neither is the least integer. The least integer cannot be written: its numeral,
without the sign, is no integer of 64 bits. -/
theorem run_text (s : Session) (op : BinaryOp) (a b : Int64) (n : Nat) (here : FrameId)
    (limit : Option Nat) :
    op.apply (.integer a) (.integer b) = op.native a b ∧
    (a ≠ Int64.minValue ∧ b ≠ Int64.minValue →
      s.run (n + 4) here (Token.ofString (op.text a b)) limit =
        some (.answered (op.native a b) [], s)) ∧
    (a = Int64.minValue ∨ b = Int64.minValue →
      ∃ d ds, s.run n here (Token.ofString (op.text a b)) limit =
        some (.rejected (d :: ds), s) ∧ d.BlamesLeast) :=
  ⟨op.apply_integer a b, fun ⟨ha, hb⟩ => s.run_text_of_ne op ha hb n here limit,
    fun hleast => s.run_text_of_least op hleast n here limit⟩

/-- The quotient of -7 and 2 is -3. -/
theorem start_run_text_division :
    ((-7 : Int64) ≠ Int64.minValue ∧ (2 : Int64) ≠ Int64.minValue) ∧
    BinaryOp.divide.text (-7) 2 = "-7 / 2" ∧
    start.run 4 global (Token.ofString (BinaryOp.divide.text (-7) 2)) none =
      some (.answered (.integer (-3)) [], start) := by
  have hne : (-7 : Int64) ≠ Int64.minValue ∧ (2 : Int64) ≠ Int64.minValue := by decide
  exact ⟨hne, by decide, (run_text start .divide (-7) 2 0 global none).2.1 hne⟩

/-- The quotient of the least integer and -1 is the least integer, but a text that asks for it is
rejected. -/
theorem start_run_text_least :
    BinaryOp.divide.native Int64.minValue (-1) = .integer Int64.minValue ∧
    BinaryOp.divide.text Int64.minValue (-1) = "-9223372036854775808 / -1" ∧
    ∀ n, start.run n global (Token.ofString (BinaryOp.divide.text Int64.minValue (-1))) none ≠
      some (.answered (.integer Int64.minValue) [], start) := by
  refine ⟨rfl, by decide, fun n => ?_⟩
  obtain ⟨d, ds, hrun, -⟩ := start.run_text_of_least .divide (.inl rfl) n global none
  rw [hrun]
  simp

end Session

end Monkey
