import Monkey.Diagnostic

/-!
# Readers

A reader takes tokens off the front of a stream and either yields an item or fails with one
diagnostic. A failure is final for the item at hand, but what surrounds the item may recover: it
keeps the diagnostic as a report and goes on with the tokens that have not been taken. So an outcome
carries at most one cause of failure, and the reports of everything inside that was dropped.

Reading is recursive, and its depth is bounded by a budget. Running out of it is an outcome of its
own, which no one recovers from.

## Main definitions

* `Cursor` — a place in a token stream that never runs dry.
* `Outcome` — how reading an item went.
* `Reader` — a computation that reads, with its sequencing.
* `Reader.peek`, `take`, `expect`, `skip`, `fail`, `recover` — the steps.
* `Reader.commaList`, `commaEnded`, `itemsUntil`, `itemsUntilEnd` — repetition.
-/

namespace Monkey

/-- A place in a token stream. Past the last token the stream supplies end marks for ever, which
stand where that token stood. -/
structure Cursor where
  unread : List Token
  /-- Where the end marks stand that the stream supplies. -/
  stop : Span := {}
  /-- How many tokens have been taken, supplied end marks included. -/
  taken : Nat := 0
deriving Repr, Inhabited

namespace Cursor

/-- The start of a stream. -/
def ofTokens (tokens : List Token) : Cursor :=
  { unread := tokens, stop := (tokens.getLast?.map (·.span)).getD {} }

/-- The next token. -/
def head (c : Cursor) : Token := c.unread.head?.getD ⟨.endOfInput, "", c.stop⟩

/-- The place after the next token. -/
def next (c : Cursor) : Cursor := { c with unread := c.unread.tail, taken := c.taken + 1 }

/-- The kind of the next token. -/
def kind (c : Cursor) : Token.Kind := c.head.kind

@[simp] theorem unread_next (c : Cursor) : c.next.unread = c.unread.tail := rfl
@[simp] theorem stop_next (c : Cursor) : c.next.stop = c.stop := rfl
@[simp] theorem taken_next (c : Cursor) : c.next.taken = c.taken + 1 := rfl

end Cursor

/-- How reading an item went. `reports` holds the diagnostics of what was dropped inside the item,
in the order in which it was met. -/
inductive Outcome (α : Type) where
  /-- The item was read, and `rest` is still to be read. -/
  | done (item : α) (rest : Cursor) (reports : List Diagnostic)
  /-- There is no such item here, for a cause found at or before `rest`. -/
  | failed (cause : Diagnostic) (rest : Cursor) (reports : List Diagnostic)
  /-- The budget was too small to tell. -/
  | exhausted
deriving Repr, Inhabited

namespace Outcome

variable {α : Type}

/-- The outcome, after something whose reports come first. -/
def after (earlier : List Diagnostic) : Outcome α → Outcome α
  | done a rest reports => done a rest (earlier ++ reports)
  | failed d rest reports => failed d rest (earlier ++ reports)
  | exhausted => exhausted

@[simp] theorem after_done (rs : List Diagnostic) (a : α) (c : Cursor) (qs : List Diagnostic) :
    (done a c qs).after rs = done a c (rs ++ qs) := rfl
@[simp] theorem after_failed (rs : List Diagnostic) (d : Diagnostic) (c : Cursor)
    (qs : List Diagnostic) : (failed d c qs : Outcome α).after rs = failed d c (rs ++ qs) := rfl
@[simp] theorem after_exhausted (rs : List Diagnostic) :
    (exhausted : Outcome α).after rs = exhausted := rfl

@[simp] theorem after_nil (o : Outcome α) : o.after [] = o := by cases o <;> simp

theorem after_after (rs qs : List Diagnostic) (o : Outcome α) :
    (o.after qs).after rs = o.after (rs ++ qs) := by
  cases o <;> simp [List.append_assoc]

end Outcome

/-- A computation that reads from a cursor. -/
def Reader (α : Type) : Type := Cursor → Outcome α

namespace Reader

variable {α β : Type}

/-- Read nothing and yield `a`. -/
def yield (a : α) : Reader α := fun c => .done a c []

/-- Read with `p`, and then go on with what its item calls for. -/
def andThen (p : Reader α) (f : α → Reader β) : Reader β := fun c =>
  match p c with
  | .done a rest reports => (f a rest).after reports
  | .failed d rest reports => .failed d rest reports
  | .exhausted => .exhausted

instance : Monad Reader where
  pure := yield
  bind := andThen

@[simp] theorem pure_apply (a : α) (c : Cursor) : (pure a : Reader α) c = .done a c [] := rfl

theorem bind_apply (p : Reader α) (f : α → Reader β) (c : Cursor) :
    (p >>= f) c = match p c with
      | .done a rest reports => (f a rest).after reports
      | .failed d rest reports => .failed d rest reports
      | .exhausted => .exhausted := rfl

instance : LawfulMonad Reader := LawfulMonad.mk' Reader
  (fun p => by
    funext c
    change (p >>= pure) c = p c
    rw [bind_apply]
    cases p c <;> simp)
  (fun a f => by
    funext c
    rw [bind_apply]
    simp)
  (fun p f g => by
    funext c
    simp only [bind_apply]
    cases p c with
    | done a rest reports =>
      cases h : f a rest <;> simp [h, Outcome.after_after]
    | failed => rfl
    | exhausted => rfl)

/-- The next token, which is not taken. -/
def peek : Reader Token := fun c => .done c.head c []

/-- Take the next token. -/
def take : Reader Token := fun c => .done c.head c.next []

/-- Give up, for a cause that a token shows. -/
def fail (cause : Diagnostic.Cause) (blamed : Token) : Reader α := fun c =>
  .failed ⟨cause, blamed.span⟩ c []

/-- Give up, because the budget is spent. -/
def outOfBudget : Reader α := fun _ => .exhausted

/-- Take a token of one kind. Any other token is to blame and is not taken. -/
def expect (want : Token.Kind) : Reader Token := fun c =>
  if c.kind = want then .done c.head c.next []
  else .failed (.unexpected want c.head) c []

/-- Whether the next token is the symbol `s`, in which case it is taken. -/
def skip (s : Symbol) : Reader Bool := fun c =>
  if c.kind = .symbol s then .done true c.next [] else .done false c []

/-- Read an item or report why there is none. Whatever comes after it is read from where it left. -/
def recover (p : Reader α) : Reader (Option α) := fun c =>
  match p c with
  | .done a rest reports => .done (some a) rest reports
  | .failed d rest reports => .done none rest (reports ++ [d])
  | .exhausted => .exhausted

/-! ## Repetition

Each loop takes a budget of its own, which bounds its rounds. -/

/-- At least one item, with commas between them. -/
def commaItems (item : Reader α) : Nat → Reader (List α)
  | 0 => outOfBudget
  | n + 1 => do
    let first ← item
    if ← skip .comma then
      let others ← commaItems item n
      pure (first :: others)
    else pure [first]

/-- Items with commas between them, and then the symbol `close`. -/
def commaList (close : Symbol) (item : Reader α) (budget : Nat) : Reader (List α) := do
  if ← skip close then pure []
  else
    let items ← commaItems item budget
    let _ ← expect (.symbol close)
    pure items

/-- Items up to the symbol `close`, each followed by a comma unless `close` follows it. -/
def commaEnded (close : Symbol) (item : Reader α) : Nat → Reader (List α)
  | 0 => outOfBudget
  | n + 1 => do
    if ← skip close then pure []
    else
      let first ← item
      if (← peek).kind ≠ .symbol close then
        let _ ← expect (.symbol .comma)
      let others ← commaEnded close item n
      pure (first :: others)

/-- Items up to the symbol `close`, without those that are dropped. The end of the text in place of
`close` is taken and to blame. -/
def itemsUntil (close : Symbol) (item : Reader (Option α)) : Nat → Reader (List α)
  | 0 => outOfBudget
  | n + 1 => do
    if ← skip close then pure []
    else if (← peek).kind = .endOfInput then
      let mark ← take
      fail (.expected (.symbol close) .endOfInput) mark
    else
      let first ← item
      let others ← itemsUntil close item n
      pure (first.toList ++ others)

/-- Items up to the end of the text, without those that are dropped. -/
def itemsUntilEnd (item : Reader (Option α)) : Nat → Reader (List α)
  | 0 => outOfBudget
  | n + 1 => do
    if (← peek).kind = .endOfInput then pure []
    else
      let first ← item
      let others ← itemsUntilEnd item n
      pure (first.toList ++ others)

end Reader

end Monkey
