import Monkey.Proofs.Reader.Resumption

/-!
# The course of a reading

Reading a statement takes tokens one by one, and in every block it makes attempts at the statements
of the block. An attempt that fails is dropped, and reading goes on. So the course of a reading is a
row of tokens and blocks, up to where it is done or where a token is to blame.

Which attempts a reading makes is found out by letting each of them report whatever one likes
instead of its own diagnostics: what is reported then tells which attempts there were.

## Main definitions

* `Attempt` — an attempt at a statement, and `Attempt.diagnostics`, all that it reports.
* `Voice`, `attempted` — attempts that are made to report something else.
* `expressionWith`, `statementWith` — the readers of programs, with the attempts left open.
* `Attempts`, `Path`, `Breaks`, `Course` — what is read between two cursors, and how it ends.
* `Reader.Charts`, `Reader.ChartsTaking` — that a reader takes one course, whatever the attempts are
  made to report.
-/

namespace Monkey

open Reader

/-! ## Attempts -/

/-- All that is reported, the cause of a failure included. -/
def Outcome.diagnostics {α : Type} : Outcome α → List Diagnostic
  | done _ _ reports => reports
  | failed cause _ reports => reports ++ [cause]
  | exhausted => []

/-- Where reading is to go on after the outcome. -/
def Outcome.rest? {α : Type} : Outcome α → Option Cursor
  | done _ rest _ | failed _ rest _ => some rest
  | exhausted => none

theorem Outcome.diagnostics_after {α : Type} {o : Outcome α} (ho : o ≠ .exhausted)
    (rs : List Diagnostic) : (o.after rs).diagnostics = rs ++ o.diagnostics := by
  cases o with
  | done a rest reports => rfl
  | failed d rest reports => simp [Outcome.diagnostics]
  | exhausted => exact absurd rfl ho

theorem Outcome.after_inj {α : Type} {o : Outcome α} (ho : o ≠ .exhausted)
    {rs qs : List Diagnostic} (h : o.after rs = o.after qs) : rs = qs := by
  cases o with
  | done a rest reports => simpa using h
  | failed d rest reports => simpa using h
  | exhausted => exact absurd rfl ho

/-- The same outcome with another item. -/
def Outcome.map {α β : Type} (g : α → β) : Outcome α → Outcome β
  | done a rest reports => done (g a) rest reports
  | failed cause rest reports => failed cause rest reports
  | exhausted => exhausted

/-- An attempt at reading a statement. -/
structure Attempt where
  budget : Nat
  start : Cursor

namespace Attempt

/-- What comes of the attempt. -/
def outcome (a : Attempt) : Outcome Stmt := statement a.budget a.start

/-- Everything that the attempt reports. -/
def diagnostics (a : Attempt) : List Diagnostic := a.outcome.diagnostics

end Attempt

/-- What attempts are made to report. -/
abbrev Voice := Attempt → List Diagnostic

/-- An attempt at a statement, which reports what the voice has it report. -/
def attempted (voice : Voice) (n : Nat) : Reader (Option Stmt) := fun c =>
  match statement n c with
  | .done s rest _ => .done (some s) rest (voice ⟨n, c⟩)
  | .failed _ rest _ => .done none rest (voice ⟨n, c⟩)
  | .exhausted => .exhausted

/-- An expression, where `attempt` reads the statements of blocks. -/
def expressionWith (attempt : Nat → Reader (Option Stmt)) : Nat → Level → Reader Expr
  | 0, _ => outOfBudget
  | n + 1, level => do
    let left ← operand (expressionWith attempt n) (itemsUntil .rightBrace (attempt n) n) n
    suffixes (expressionWith attempt n) n level n left

/-- A statement, where `attempt` reads the statements of blocks. -/
def statementWith (attempt : Nat → Reader (Option Stmt)) : Nat → Reader Stmt
  | 0 => outOfBudget
  | n + 1 => do
    let s ← statementBody (expressionWith attempt n) (itemsUntil .rightBrace (attempt n) n)
    let _ ← skip .semicolon
    pure s

/-- Attempts that report what they have to report. -/
theorem attempted_diagnostics (n : Nat) :
    attempted Attempt.diagnostics n = recover (statement n) := by
  funext c
  unfold attempted recover
  cases h : statement n c <;> simp [Attempt.diagnostics, Attempt.outcome, Outcome.diagnostics, h]

theorem expressionWith_recover (n : Nat) :
    expressionWith (fun m => recover (statement m)) n = expression n := by
  induction n with
  | zero =>
    funext level
    rw [expressionWith, expression]
  | succ n ih =>
    funext level
    rw [expressionWith, expression, ih]

/-- Attempts that are recovered from are those of the reader of statements. -/
theorem statementWith_recover (n : Nat) :
    statementWith (fun m => recover (statement m)) n = statement n := by
  cases n with
  | zero => rw [statementWith, statement]
  | succ n => rw [statementWith, statement, expressionWith_recover]

theorem statementWith_diagnostics (n : Nat) :
    statementWith (attempted Attempt.diagnostics) n = statement n := by
  rw [← statementWith_recover, show attempted Attempt.diagnostics = _ from
    funext attempted_diagnostics]

/-! ## Courses -/

/-- Attempts are made one after the other, each where the one before it has left. -/
inductive Attempts : Cursor → List Attempt → Cursor → Prop
  | nil (c : Cursor) : Attempts c [] c
  | cons {n : Nat} {c mid rest : Cursor} {as : List Attempt} (hkind : c.kind ≠ .endOfInput)
      (hmid : (statement n c).rest? = some mid) (has : Attempts mid as rest) :
      Attempts c (⟨n, c⟩ :: as) rest

/-- Tokens and closed blocks are read one after the other. -/
inductive Path : Cursor → List Attempt → Cursor → Prop
  | refl (c : Cursor) : Path c [] c
  | token {c rest : Cursor} {as : List Attempt} (hkind : c.kind ≠ .endOfInput)
      (h : Path c.next as rest) : Path c as rest
  | block {c mid rest : Cursor} {as bs : List Attempt} (has : Attempts c as mid)
      (hclose : mid.kind = .symbol .rightBrace) (h : Path mid.next bs rest) :
      Path c (as ++ bs) rest

/-- The token is refused: no expression begins with it, or it is an integer of no 64 bits. -/
inductive Diagnostic.Cause.Refuses (t : Token) : Diagnostic.Cause → Prop
  | noExpression : Refuses t (.noExpression t.kind)
  | notAnInteger (hkind : t.kind = .integer) : Refuses t (.notAnInteger t.lexeme)

/-- Reading breaks off: another token is due than the next one, or a token is refused that has just
been taken, or the text ends in a block. -/
inductive Breaks (c : Cursor) : List Attempt → Diagnostic → Cursor → Prop
  | expected {as : List Attempt} {rest : Cursor} (h : Path c as rest) (want : Token.Kind) :
      Breaks c as (.unexpected want rest.head) rest
  | refused {as : List Attempt} {mid : Cursor} {cause : Diagnostic.Cause} (h : Path c as mid)
      (hcause : cause.Refuses mid.head) : Breaks c as ⟨cause, mid.head.span⟩ mid.next
  | unclosed {as bs : List Attempt} {mid last : Cursor} (h : Path c as mid)
      (hbs : Attempts mid bs last) (hend : last.kind = .endOfInput) :
      Breaks c (as ++ bs) (.unexpected (.symbol .rightBrace) last.head) last.next

/-- A reading that begins at `c` makes these attempts and comes to this outcome, in which nothing is
reported besides what the attempts report. -/
inductive Course {α : Type} (c : Cursor) (as : List Attempt) : Outcome α → Prop
  | done {rest : Cursor} (h : Path c as rest) (a : α) :
      Course c as (.done a rest [])
  | failed {d : Diagnostic} {rest : Cursor} (h : Breaks c as d rest) :
      Course c as (.failed d rest [])
  | exhausted : Course c as .exhausted

/-- The same of a reading that takes the first token in any case, be it to refuse it. -/
inductive Course.Taking {α : Type} (c : Cursor) : List Attempt → Outcome α → Prop
  | token {as : List Attempt} {o : Outcome α} (hkind : c.kind ≠ .endOfInput)
      (h : Course c.next as o) : Taking c as o
  | refused {cause : Diagnostic.Cause} (hcause : cause.Refuses c.head) :
      Taking c [] (.failed ⟨cause, c.head.span⟩ c.next [])
  | exhausted : Taking c [] .exhausted

/-- A reading of a block, which makes attempts up to the brace that closes it. -/
inductive Course.OfBlock {α : Type} (c : Cursor) (as : List Attempt) : Outcome α → Prop
  | done {mid : Cursor} (h : Attempts c as mid) (hclose : mid.kind = .symbol .rightBrace) (a : α) :
      OfBlock c as (.done a mid.next [])
  | failed {last : Cursor} (h : Attempts c as last) (hend : last.kind = .endOfInput) :
      OfBlock c as (.failed (.unexpected (.symbol .rightBrace) last.head) last.next [])
  | exhausted : OfBlock c as .exhausted

/-- A reading of a program, which makes attempts up to the end of the text. -/
inductive Course.OfProgram {α : Type} (c : Cursor) (as : List Attempt) : Outcome α → Prop
  | done {last : Cursor} (h : Attempts c as last) (hend : last.kind = .endOfInput) (a : α) :
      OfProgram c as (.done a last [])
  | exhausted : OfProgram c as .exhausted

section Courses

variable {α : Type} {c mid rest : Cursor} {as bs : List Attempt} {o : Outcome α}

theorem Path.append (h : Path c as mid) (h' : Path mid bs rest) : Path c (as ++ bs) rest := by
  induction h with
  | refl c => exact h'
  | token hkind _ ih => exact .token hkind (ih h')
  | block has hclose _ ih =>
    rw [List.append_assoc]
    exact .block has hclose (ih h')

theorem Path.breaks {d : Diagnostic} (h : Path c as mid) (h' : Breaks mid bs d rest) :
    Breaks c (as ++ bs) d rest := by
  cases h' with
  | expected h' want => exact .expected (h.append h') want
  | refused h' hcause => exact .refused (h.append h') hcause
  | unclosed h' hbs hend =>
    rw [← List.append_assoc]
    exact .unclosed (h.append h') hbs hend

theorem Course.Taking.course (h : Taking c as o) : Course c as o := by
  cases h with
  | token hkind h =>
    cases h with
    | done h a => exact .done (.token hkind h) a
    | failed h => exact .failed ((Path.token hkind (.refl _)).breaks h)
    | exhausted => exact .exhausted
  | refused hcause => exact .failed (.refused (.refl c) hcause)
  | exhausted => exact .exhausted

theorem Course.OfBlock.course (h : OfBlock c as o) : Course c as o := by
  cases h with
  | @done mid h hclose a =>
    have hpath := Path.block h hclose (.refl mid.next)
    rw [List.append_nil] at hpath
    exact .done hpath a
  | failed h hend => exact .failed (.unclosed (.refl c) h hend)
  | exhausted => exact .exhausted

theorem Course.OfBlock.map {β : Type} (h : OfBlock c as o) (g : α → β) :
    OfBlock c as (o.map g) := by
  cases h with
  | done h hclose a => exact .done h hclose (g a)
  | failed h hend => exact .failed h hend
  | exhausted => exact .exhausted

theorem Course.OfProgram.map {β : Type} (h : OfProgram c as o) (g : α → β) :
    OfProgram c as (o.map g) := by
  cases h with
  | done h hend a => exact .done h hend (g a)
  | exhausted => exact .exhausted

end Courses

/-! ## Readers -/

namespace Reader

variable {α β : Type} {n m : Nat} {c : Cursor}

/-- The reader takes a course of the given kind from the cursor, whatever the attempts are made to
report, and reports what they report. The attempts have a budget below `n`. -/
def Charted (Kind : List Attempt → Outcome α → Prop) (n : Nat) (c : Cursor)
    (p : Voice → Reader α) : Prop :=
  ∃ as o, Kind as o ∧ (∀ a ∈ as, a.budget < n) ∧ ∀ voice, p voice c = o.after (as.flatMap voice)

/-- From every cursor the reader takes one course. -/
def Charts (n : Nat) (p : Voice → Reader α) : Prop := ∀ c, Charted (Course c) n c p

/-- The same of a cursor where a certain token is next. -/
def ChartsAt (n : Nat) (t : Token) (p : Voice → Reader α) : Prop :=
  ∀ c, c.head = t → Charted (Course c) n c p

/-- From every cursor the reader takes one course, and the first token in any case. -/
def ChartsTaking (n : Nat) (p : Voice → Reader α) : Prop :=
  ∀ c, Charted (Course.Taking c) n c p

theorem Charted.mono {Kind Kind' : List Attempt → Outcome α → Prop} {p : Voice → Reader α}
    (h : Charted Kind n c p) (hkind : ∀ as o, Kind as o → Kind' as o) (hle : n ≤ m) :
    Charted Kind' m c p := by
  obtain ⟨as, o, hcourse, hbudget, hvoice⟩ := h
  exact ⟨as, o, hkind as o hcourse, fun a ha => Nat.lt_of_lt_of_le (hbudget a ha) hle, hvoice⟩

theorem ChartsTaking.mono {p : Voice → Reader α} (h : ChartsTaking n p) (hle : n ≤ m) :
    ChartsTaking m p :=
  fun c => (h c).mono (fun _ _ h => h) hle

theorem Charts.at {p : Voice → Reader α} (h : Charts n p) (t : Token) : ChartsAt n t p :=
  fun c _ => h c

theorem ChartsTaking.charts {p : Voice → Reader α} (h : ChartsTaking n p) : Charts n p :=
  fun c => (h c).mono (fun _ _ h => h.course) (Nat.le_refl n)

/-! ## Steps -/

/-- A reader that makes no attempts. -/
theorem charted_of_eq {Kind : List Attempt → Outcome α → Prop} {p : Voice → Reader α}
    {o : Outcome α} (hcourse : Kind [] o) (h : ∀ voice, p voice c = o) : Charted Kind n c p :=
  ⟨[], o, hcourse, by simp, fun voice => by simp [h]⟩

theorem charts_pure (a : α) : Charts n fun _ => (pure a : Reader α) := fun c =>
  charted_of_eq (.done (.refl c) a) fun _ => rfl

theorem charts_outOfBudget : Charts n fun _ => (outOfBudget : Reader α) := fun _ =>
  charted_of_eq .exhausted fun _ => rfl

theorem Charted.bind {p : Voice → Reader α} {f : Voice → α → Reader β}
    (hp : Charted (Course c) n c p) (hf : ∀ a, Charts n fun voice => f voice a) :
    Charted (Course c) n c fun voice => p voice >>= f voice := by
  obtain ⟨as, o, hcourse, hbudget, hvoice⟩ := hp
  cases hcourse with
  | @done rest hpath a =>
    obtain ⟨bs, o, hcourse, hbudget', hvoice'⟩ := hf a rest
    refine ⟨as ++ bs, o, ?_, List.forall_mem_append.mpr ⟨hbudget, hbudget'⟩, fun voice => ?_⟩
    · cases hcourse with
      | done h b => exact .done (hpath.append h) b
      | failed h => exact .failed (hpath.breaks h)
      | exhausted => exact .exhausted
    · simp [bind_apply, hvoice, hvoice', Outcome.after_after]
  | @failed d rest hbreaks =>
    refine ⟨as, .failed d rest [], .failed hbreaks, hbudget, fun voice => ?_⟩
    simp [bind_apply, hvoice]
  | exhausted => exact charted_of_eq .exhausted fun voice => by simp [bind_apply, hvoice]

theorem Charts.bind {p : Voice → Reader α} {f : Voice → α → Reader β} (hp : Charts n p)
    (hf : ∀ a, Charts n fun voice => f voice a) : Charts n fun voice => p voice >>= f voice :=
  fun c => (hp c).bind hf

theorem map_apply (g : α → β) (p : Reader α) (c : Cursor) : (g <$> p) c = (p c).map g := by
  rw [← bind_pure_comp, bind_apply]
  cases p c <;> simp [Outcome.map]

theorem Charted.map {Kind : List Attempt → Outcome α → Prop}
    {Kind' : List Attempt → Outcome β → Prop} {p : Voice → Reader α} (hp : Charted Kind n c p)
    (g : α → β) (hkind : ∀ as o, Kind as o → Kind' as (o.map g)) :
    Charted Kind' n c fun voice => g <$> p voice := by
  obtain ⟨as, o, hcourse, hbudget, hvoice⟩ := hp
  refine ⟨as, o.map g, hkind as o hcourse, hbudget, fun voice => ?_⟩
  simp only [map_apply, hvoice]
  cases o <;> rfl

theorem Charts.map {p : Voice → Reader α} (hp : Charts n p) (g : α → β) :
    Charts n fun voice => g <$> p voice := by
  simp only [← bind_pure_comp]
  exact hp.bind fun a => charts_pure (g a)

/-- What comes after a reading that takes the first token makes no difference to that. -/
theorem ChartsTaking.bind {p : Voice → Reader α} {f : Voice → α → Reader β}
    (hp : ChartsTaking n p) (hf : ∀ a, Charts n fun voice => f voice a) :
    ChartsTaking n fun voice => p voice >>= f voice := by
  intro c
  obtain ⟨as, o, hcourse, hbudget, hvoice⟩ := hp c
  cases hcourse with
  | token hkind h =>
    -- what is left of the first reading is read from the next cursor
    obtain ⟨bs, o', hcourse', hbudget', hvoice'⟩ : Charted (Course c.next) n c.next fun voice =>
        (fun _ => o.after (as.flatMap voice)) >>= f voice :=
      Charted.bind ⟨as, o, h, hbudget, fun _ => rfl⟩ hf
    refine ⟨bs, o', .token hkind hcourse', hbudget', fun voice => ?_⟩
    rw [← hvoice']
    simp only [bind_apply, hvoice]
    rfl
  | @refused cause hcause =>
    exact charted_of_eq (.refused hcause) fun voice => by simp [bind_apply, hvoice]
  | exhausted => exact charted_of_eq .exhausted fun voice => by simp [bind_apply, hvoice]

theorem ChartsTaking.map {p : Voice → Reader α} (hp : ChartsTaking n p) (g : α → β) :
    ChartsTaking n fun voice => g <$> p voice := by
  simp only [← bind_pure_comp]
  exact hp.bind fun a => charts_pure (g a)

theorem charts_peek_bind {f : Voice → Token → Reader β}
    (hf : ∀ t, ChartsAt n t fun voice => f voice t) :
    Charts n fun voice => peek >>= f voice := by
  intro c
  simpa only [Charted, bind_apply, peek, Outcome.after_nil] using hf c.head c rfl

theorem take_bind_apply (f : Token → Reader β) (c : Cursor) :
    (take >>= f) c = f c.head c.next := by
  simp [bind_apply, take]

/-- The first token is taken. -/
theorem charted_take_bind {f : Voice → Token → Reader β} (hkind : c.head.kind ≠ .endOfInput)
    (hf : Charts n fun voice => f voice c.head) :
    Charted (Course.Taking c) n c fun voice => take >>= f voice := by
  obtain ⟨as, o, hcourse, hbudget, hvoice⟩ := hf c.next
  exact ⟨as, o, .token hkind hcourse, hbudget, fun voice =>
    (take_bind_apply _ c).trans (hvoice voice)⟩

theorem chartsAt_take_bind {t : Token} {f : Voice → Token → Reader β}
    (ht : t.kind ≠ .endOfInput) (hf : Charts n fun voice => f voice t) :
    ChartsAt n t fun voice => take >>= f voice := by
  rintro c rfl
  exact (charted_take_bind ht hf).mono (fun _ _ h => h.course) (Nat.le_refl n)

/-- The first token is taken, and then something is read or it is refused. -/
theorem chartsTaking_take_bind {f : Voice → Token → Reader β}
    (hf : ∀ c : Cursor,
      (c.head.kind ≠ .endOfInput ∧ Charts n fun voice => f voice c.head) ∨
        ∃ cause, cause.Refuses c.head ∧ ∀ voice, f voice c.head = fail cause c.head) :
    ChartsTaking n fun voice => take >>= f voice := by
  intro c
  obtain ⟨hkind, h⟩ | ⟨cause, hcause, h⟩ := hf c
  · exact charted_take_bind hkind h
  · exact charted_of_eq (.refused hcause) fun voice => by simp [take_bind_apply, h, fail]

theorem chartsTaking_peek_bind {f : Voice → Token → Reader β}
    (hf : ∀ c, Charted (Course.Taking c) n c fun voice => f voice c.head) :
    ChartsTaking n fun voice => peek >>= f voice := by
  intro c
  simpa only [Charted, bind_apply, peek, Outcome.after_nil] using hf c

theorem charts_skip (s : Symbol) : Charts n fun _ => skip s := by
  intro c
  by_cases h : c.kind = .symbol s
  · have hnext : Path c [] c.next := .token (by simp [h]) (.refl _)
    exact charted_of_eq (.done hnext true) fun _ => by simp [skip, h]
  · exact charted_of_eq (.done (.refl c) false) fun _ => by simp [skip, h]

theorem charts_expect {want : Token.Kind} (hwant : want ≠ .endOfInput) :
    Charts n fun _ => expect want := by
  intro c
  by_cases h : c.kind = want
  · have hnext : Path c [] c.next := .token (by rwa [h]) (.refl _)
    exact charted_of_eq (.done hnext c.head) fun _ => by simp [expect, h]
  · exact charted_of_eq (.failed (.expected (.refl c) want)) fun _ => by simp [expect, h]

/-! ## Repetition -/

section Repetition

variable {item : Voice → Reader α} {close : Symbol} {k : Nat}

theorem charts_commaItems (hitem : Charts n item) :
    Charts n fun voice => commaItems (item voice) k := by
  induction k with
  | zero => exact charts_outOfBudget
  | succ k ih =>
    simp only [commaItems]
    refine hitem.bind fun first => (charts_skip .comma).bind fun more => ?_
    cases more with
    | true => exact ih.bind fun others => charts_pure _
    | false => exact charts_pure _

theorem charts_commaList (hitem : Charts n item) :
    Charts n fun voice => commaList close (item voice) k := by
  simp only [commaList]
  refine (charts_skip close).bind fun closed => ?_
  cases closed with
  | true => exact charts_pure _
  | false =>
    refine (charts_commaItems hitem).bind fun items => ?_
    exact (charts_expect (by simp)).bind fun _ => charts_pure _

theorem charts_commaEnded (hitem : Charts n item) :
    Charts n fun voice => commaEnded close (item voice) k := by
  induction k with
  | zero => exact charts_outOfBudget
  | succ k ih =>
    simp only [commaEnded]
    refine (charts_skip close).bind fun closed => ?_
    cases closed with
    | true => exact charts_pure _
    | false =>
      refine hitem.bind fun first => charts_peek_bind fun t => Charts.at ?_ t
      have hothers : Charts n fun voice => commaEnded close (item voice) k >>= fun others =>
          pure (first :: others) := ih.bind fun others => charts_pure _
      by_cases ht : t.kind = .symbol close
      · simpa [ht] using hothers
      · simpa [ht] using (charts_expect (by simp)).bind fun _ => hothers

/-- An attempt is made, and then something else is read. -/
theorem charted_attempted_bind {Kind : Cursor → List Attempt → Outcome β → Prop}
    {f : Voice → Option Stmt → Reader β} (hm : m < n) (hexhausted : Kind c [] .exhausted)
    (hcons : ∀ mid as o, (statement m c).rest? = some mid → Kind mid as o →
      Kind c (⟨m, c⟩ :: as) o)
    (hf : ∀ first mid, Charted (Kind mid) n mid fun voice => f voice first) :
    Charted (Kind c) n c fun voice => attempted voice m >>= f voice := by
  have hsome (first : Option Stmt) (mid : Cursor) (hmid : (statement m c).rest? = some mid)
      (hread : ∀ voice, attempted voice m c = .done first mid (voice ⟨m, c⟩)) :
      Charted (Kind c) n c fun voice => attempted voice m >>= f voice := by
    obtain ⟨as, o, hcourse, hbudget, hvoice⟩ := hf first mid
    refine ⟨⟨m, c⟩ :: as, o, hcons mid as o hmid hcourse,
      List.forall_mem_cons.mpr ⟨hm, hbudget⟩, fun voice => ?_⟩
    simp [bind_apply, hread, hvoice, Outcome.after_after]
  cases h : statement m c with
  | done s mid reports =>
    exact hsome (some s) mid (by rw [h]; rfl) fun voice => by simp [attempted, h]
  | failed d mid reports =>
    exact hsome none mid (by rw [h]; rfl) fun voice => by simp [attempted, h]
  | exhausted => exact charted_of_eq hexhausted fun voice => by simp [bind_apply, attempted, h]

theorem charted_itemsUntil (hm : m < n) (k : Nat) (c : Cursor) :
    Charted (Course.OfBlock c) n c fun voice =>
      itemsUntil .rightBrace (attempted voice m) k := by
  induction k generalizing c with
  | zero => exact charted_of_eq .exhausted fun _ => rfl
  | succ k ih =>
    by_cases hclose : c.kind = .symbol .rightBrace
    · refine charted_of_eq (.done (.nil c) hclose []) fun voice => ?_
      simp [itemsUntil, bind_apply, skip, hclose]
    by_cases hend : c.head.kind = .endOfInput
    · refine charted_of_eq (.failed (.nil c) hend) fun voice => ?_
      simp [itemsUntil, bind_apply, skip, hclose, peek, hend, take, fail, Diagnostic.unexpected]
    · have hothers (first : Option Stmt) (mid : Cursor) : Charted (Course.OfBlock mid) n mid
          fun voice => (first.toList ++ ·) <$> itemsUntil .rightBrace (attempted voice m) k :=
        (ih mid).map _ fun _ _ h => h.map _
      obtain ⟨as, o, hcourse, hbudget, hvoice⟩ := charted_attempted_bind hm .exhausted
        (fun mid as o hmid h => by
          cases h with
          | done h hclose a => exact .done (.cons hend hmid h) hclose a
          | failed h hend' => exact .failed (.cons hend hmid h) hend'
          | exhausted => exact .exhausted) hothers
      refine ⟨as, o, hcourse, hbudget, fun voice => ?_⟩
      rw [← hvoice]
      simp [itemsUntil, bind_apply, skip, hclose, peek, hend]

theorem charts_itemsUntil (hm : m < n) (k : Nat) :
    Charts n fun voice => itemsUntil .rightBrace (attempted voice m) k :=
  fun c => (charted_itemsUntil hm k c).mono (fun _ _ h => h.course) (Nat.le_refl n)

theorem charted_itemsUntilEnd (hm : m < n) (k : Nat) (c : Cursor) :
    Charted (Course.OfProgram c) n c fun voice => itemsUntilEnd (attempted voice m) k := by
  induction k generalizing c with
  | zero => exact charted_of_eq .exhausted fun _ => rfl
  | succ k ih =>
    by_cases hend : c.head.kind = .endOfInput
    · refine charted_of_eq (.done (.nil c) hend []) fun voice => ?_
      simp [itemsUntilEnd, bind_apply, peek, hend]
    · have hothers (first : Option Stmt) (mid : Cursor) : Charted (Course.OfProgram mid) n mid
          fun voice => (first.toList ++ ·) <$> itemsUntilEnd (attempted voice m) k :=
        (ih mid).map _ fun _ _ h => h.map _
      obtain ⟨as, o, hcourse, hbudget, hvoice⟩ := charted_attempted_bind hm .exhausted
        (fun mid as o hmid h => by
          cases h with
          | done h hend' a => exact .done (.cons hend hmid h) hend' a
          | exhausted => exact .exhausted) hothers
      refine ⟨as, o, hcourse, hbudget, fun voice => ?_⟩
      rw [← hvoice]
      simp [itemsUntilEnd, bind_apply, peek, hend]

end Repetition

end Reader

/-! ## The rules of the grammar -/

section Rules

variable {expr : Voice → Level → Reader Expr} {statements : Voice → Reader Block} {n k : Nat}

theorem charts_condition (hexpr : ∀ l, Charts n fun voice => expr voice l) :
    Charts n fun voice => condition (expr voice) := by
  refine (charts_expect (by simp)).bind fun _ => (hexpr _).bind fun test => ?_
  exact (charts_expect (by simp)).bind fun _ => charts_pure test

theorem charts_braced (hblock : Charts n statements) :
    Charts n fun voice => braced (statements voice) :=
  (charts_expect (by simp)).bind fun _ => hblock

theorem charts_conditionalRest (hexpr : ∀ l, Charts n fun voice => expr voice l)
    (hblock : Charts n statements) :
    Charts n fun voice => conditionalRest (expr voice) (statements voice) := by
  refine (charts_condition hexpr).bind fun test => (charts_braced hblock).bind fun yes => ?_
  refine charts_peek_bind fun t => ?_
  by_cases ht : t.kind = .keyword .elseWord
  · simp only [ht, if_true]
    refine chartsAt_take_bind (by simp [ht]) ?_
    exact (charts_braced hblock).bind fun no => charts_pure _
  · simp only [ht, if_false]
    exact (charts_pure _).at t

theorem charts_functionRest (hblock : Charts n statements) :
    Charts n fun voice => functionRest (statements voice) k := by
  refine (charts_expect (by simp)).bind fun _ => ?_
  refine (charts_commaList (charts_expect (by simp))).bind fun parameters => ?_
  exact (charts_braced hblock).bind fun body => charts_pure _

theorem charts_keyAndValue (hexpr : ∀ l, Charts n fun voice => expr voice l) :
    Charts n fun voice => keyAndValue (expr voice) := by
  refine (hexpr _).bind fun key => (charts_expect (by simp)).bind fun _ => ?_
  exact (hexpr _).bind fun value => charts_pure _

theorem charts_integerOf {c : Cursor} (hkind : c.head.kind = .integer) :
    (Charts n fun _ => integerOf c.head) ∨
      ∃ cause, cause.Refuses c.head ∧ integerOf c.head = fail cause c.head := by
  unfold integerOf
  cases Text.Decimal.toInt64? c.head.lexeme with
  | some v => exact .inl (charts_pure _)
  | none => exact .inr ⟨_, .notAnInteger hkind, rfl⟩

/-- An operand takes its first token, be it to refuse it. -/
theorem charts_operand (hexpr : ∀ l, Charts n fun voice => expr voice l)
    (hblock : Charts n statements) :
    ChartsTaking n fun voice => operand (expr voice) (statements voice) k := by
  refine chartsTaking_take_bind fun c => ?_
  have hrefused := @Diagnostic.Cause.Refuses.noExpression c.head
  cases hk : c.head.kind with
  | identifier => exact .inl ⟨by simp, charts_pure _⟩
  | integer =>
    obtain h | ⟨cause, hcause, h⟩ := charts_integerOf (n := n) hk
    · exact .inl ⟨by simp, h⟩
    · exact .inr ⟨cause, hcause, fun _ => h⟩
  | string => exact .inl ⟨by simp, charts_pure _⟩
  | symbol s =>
    cases s with
    | bang => exact .inl ⟨by simp, (hexpr _).map _⟩
    | minus => exact .inl ⟨by simp, (hexpr _).map _⟩
    | leftParen =>
      exact .inl ⟨by simp, (hexpr _).bind fun inner =>
        (charts_expect (by simp)).bind fun _ => charts_pure inner⟩
    | leftBracket => exact .inl ⟨by simp, (charts_commaList (hexpr _)).map _⟩
    | leftBrace => exact .inl ⟨by simp, (charts_commaEnded (charts_keyAndValue hexpr)).map _⟩
    | _ => exact .inr ⟨_, hk ▸ hrefused, fun _ => rfl⟩
  | keyword w =>
    cases w with
    | trueWord => exact .inl ⟨by simp, charts_pure _⟩
    | falseWord => exact .inl ⟨by simp, charts_pure _⟩
    | ifWord => exact .inl ⟨by simp, charts_conditionalRest hexpr hblock⟩
    | fnWord => exact .inl ⟨by simp, charts_functionRest hblock⟩
    | _ => exact .inr ⟨_, hk ▸ hrefused, fun _ => rfl⟩
  | _ => exact .inr ⟨_, hk ▸ hrefused, fun _ => rfl⟩

theorem charts_extend (hexpr : ∀ l, Charts n fun voice => expr voice l) (left : Expr)
    (s : Suffix) : Charts n fun voice => extend (expr voice) k left s := by
  cases s with
  | operator op => exact (hexpr _).map _
  | call => exact (charts_commaList (hexpr _)).map _
  | index =>
    exact (hexpr _).bind fun position => (charts_expect (by simp)).bind fun _ => charts_pure _

theorem charts_suffixes {level : Level} {i : Nat} (hexpr : ∀ l, Charts n fun voice => expr voice l)
    (left : Expr) : Charts n fun voice => suffixes (expr voice) k level i left := by
  induction i generalizing left with
  | zero => exact charts_outOfBudget
  | succ i ih =>
    refine charts_peek_bind fun t => ?_
    cases hs : Suffix.ofKind? t.kind with
    | none => exact (charts_pure _).at t
    | some s =>
      by_cases hlevel : level < s.level
      · simp only [hlevel, if_true]
        refine chartsAt_take_bind (fun ht => by simp [ht, Suffix.ofKind?] at hs) ?_
        exact (charts_extend hexpr left s).bind fun longer => ih longer
      · simp only [hlevel, if_false]
        exact (charts_pure _).at t

/-- A statement takes its first token: it is a keyword, or an expression begins with it. -/
theorem charts_statementBody (hexpr : ∀ l, ChartsTaking n fun voice => expr voice l)
    (hblock : Charts n statements) :
    ChartsTaking n fun voice => statementBody (expr voice) (statements voice) := by
  have hexpr' := fun l => (hexpr l).charts
  refine chartsTaking_peek_bind fun c => ?_
  have hother := (hexpr .lowest).map Stmt.expression c
  have htaken {f : Voice → Token → Reader Stmt} (hkind : c.head.kind ≠ .endOfInput)
      (hf : Charts n fun voice => f voice c.head) := charted_take_bind hkind hf
  cases hk : c.head.kind with
  | keyword w =>
    have hkind : c.head.kind ≠ .endOfInput := by simp [hk]
    cases w with
    | letWord =>
      refine htaken hkind ((charts_expect (by simp)).bind fun name => ?_)
      exact (charts_expect (by simp)).bind fun _ => (hexpr' _).bind fun value => charts_pure _
    | returnWord => exact htaken hkind ((hexpr' _).bind fun value => charts_pure _)
    | whileWord =>
      refine htaken hkind ((charts_condition hexpr').bind fun test => ?_)
      exact (charts_braced hblock).bind fun body => charts_pure _
    | _ => exact hother
  | _ => exact hother

/-- Expressions and statements chart a course. The induction is on the budget: what is nested in
them has a smaller one. -/
theorem charts_expressionWith_statementWith (n : Nat) :
    (∀ l, ChartsTaking n fun voice => expressionWith (attempted voice) n l) ∧
      ChartsTaking n fun voice => statementWith (attempted voice) n := by
  have hspent {α : Type} : ChartsTaking 0 fun _ => (outOfBudget : Reader α) := fun _ =>
    charted_of_eq .exhausted fun _ => rfl
  induction n with
  | zero => exact ⟨fun _ => hspent, hspent⟩
  | succ n ih =>
    have hexpr (l : Level) : ChartsTaking (n + 1) fun voice =>
        expressionWith (attempted voice) n l := (ih.1 l).mono (Nat.le_succ n)
    have hexpr' (l : Level) := (hexpr l).charts
    have hblock : Charts (n + 1) fun voice => itemsUntil .rightBrace (attempted voice n) n :=
      charts_itemsUntil (Nat.lt_succ_self n) n
    constructor
    · intro l
      simp only [expressionWith]
      exact (charts_operand hexpr' hblock).bind fun left => charts_suffixes hexpr' left
    · simp only [statementWith]
      refine (charts_statementBody hexpr hblock).bind fun s => ?_
      exact (charts_skip _).bind fun _ => charts_pure s

end Rules

/-! ## Attempts and programs -/

/-- An attempt takes one course, whatever the attempts in it are made to report. -/
theorem Attempt.exists_course (a : Attempt) :
    ∃ as o, Course.Taking a.start as o ∧ (∀ b ∈ as, b.budget < a.budget) ∧
      ∀ voice, statementWith (attempted voice) a.budget a.start = o.after (as.flatMap voice) :=
  (charts_expressionWith_statementWith a.budget).2 a.start

/-- What holds of an attempt if it holds of the attempts in its course holds of all attempts. The
induction is on the budget, which is smaller inside. -/
theorem Attempt.induction {P : Attempt → Prop}
    (h : ∀ a as o, Course.Taking a.start as o → a.outcome = o.after (as.flatMap diagnostics) →
      (∀ b ∈ as, P b) → P a) (a : Attempt) : P a := by
  obtain ⟨n, hn⟩ : ∃ n, a.budget < n := ⟨a.budget + 1, Nat.lt_succ_self _⟩
  induction n generalizing a with
  | zero => omega
  | succ n ih =>
    obtain ⟨as, o, hcourse, hbudget, hvoice⟩ := a.exists_course
    have houtcome : a.outcome = o.after (as.flatMap diagnostics) := by
      rw [outcome, ← statementWith_diagnostics, hvoice]
    exact h a as o hcourse houtcome fun b hb =>
      ih b (Nat.lt_of_lt_of_le (hbudget b hb) (Nat.le_of_lt_succ hn))

theorem Outcome.rest?_after {α : Type} (o : Outcome α) (rs : List Diagnostic) :
    (o.after rs).rest? = o.rest? := by cases o <;> rfl

namespace Program

/-- These are the attempts that reading a program from the cursor makes, one after the other:
whatever they are made to report is what is reported. -/
def Makes (c : Cursor) (as : List Attempt) : Prop :=
  ∀ voice, itemsUntilEnd (attempted voice (budget c)) (budget c) c =
    .done (read c).1 (read c).2.1 (as.flatMap voice)

/-- A program is read by attempts at its statements, up to the end of the text. -/
theorem exists_attempts (c : Cursor) :
    ∃ as, Attempts c as (read c).2.1 ∧ (read c).2.1.kind = .endOfInput ∧ Makes c as ∧
      ∀ a ∈ as, a.budget < budget c + 1 := by
  obtain ⟨as, o, hcourse, hbudget, hvoice⟩ :=
    charted_itemsUntilEnd (Nat.lt_succ_self (budget c)) (budget c) c
  have hread := hvoice Attempt.diagnostics
  simp only [attempted_diagnostics,
    itemsUntilEnd_eq_done c (Nat.le_refl _) (Nat.le_refl _)] at hread
  cases hcourse with
  | @done last has hend program =>
    obtain ⟨hprogram, hlast, -⟩ := (Outcome.done.injEq ..).mp hread
    rw [hlast]
    refine ⟨as, has, hend, fun voice => ?_, hbudget⟩
    rw [hprogram, hlast]
    simpa using hvoice voice
  | exhausted => simp at hread

/-- What a program reports is what the attempts at its statements report. -/
theorem Makes.reports_eq {c : Cursor} {as : List Attempt} (h : Makes c as) :
    (read c).2.2 = as.flatMap Attempt.diagnostics := by
  have hread := h Attempt.diagnostics
  simp only [attempted_diagnostics,
    itemsUntilEnd_eq_done c (Nat.le_refl _) (Nat.le_refl _)] at hread
  exact ((Outcome.done.injEq ..).mp hread).2.2

end Program

end Monkey
