import Monkey.Text.Grapheme.Class

/-!
# Grapheme clusters

A text is cut into extended grapheme clusters, the stretches that a reader takes for one character.
Whether two neighbours belong together depends on their classes and, for flags, pictographs and
conjuncts, on what comes before them, of which a `Grapheme.Context` keeps what matters.

## Main definitions

* `Grapheme.Context` — what a cut may depend on.
* `Grapheme.Context.cuts` — whether a cluster ends before the next character.
* `Grapheme.clusters` — the clusters of a text.
-/

namespace Monkey.Text.Grapheme

namespace Class

/-- Whether a character of this class ends a cluster on both of its sides. -/
def standsAlone : Class → Bool
  | control | carriageReturn | lineFeed => true
  | _ => false

/-- Whether a character of this class belongs to whatever comes before it. -/
def belongsToPrevious : Class → Bool
  | extending | joiner | spacingMark => true
  | _ => false

/-- Whether the second part goes on with the Hangul syllable that the first one begins. -/
def goesOnSyllable : Class → Class → Bool
  | leadingJamo, leadingJamo => true
  | leadingJamo, vowelJamo => true
  | leadingJamo, openSyllable => true
  | leadingJamo, closedSyllable => true
  | openSyllable, vowelJamo => true
  | openSyllable, trailingJamo => true
  | vowelJamo, vowelJamo => true
  | vowelJamo, trailingJamo => true
  | closedSyllable, trailingJamo => true
  | trailingJamo, trailingJamo => true
  | _, _ => false

end Class

/-- How far a text has got with a conjunct at its end. -/
inductive Conjunct where
  /-- There is none. -/
  | absent
  /-- A consonant and parts of a conjunct, without a linker. -/
  | begun
  /-- A consonant and parts of a conjunct, with a linker. -/
  | linked
deriving DecidableEq, Repr, Inhabited

/-- How far a text has got with a sequence of pictographs at its end. -/
inductive Pictographs where
  /-- There is none. -/
  | absent
  /-- A pictograph and characters that extend it. -/
  | begun
  /-- The same with a joiner at the end. -/
  | joined
deriving DecidableEq, Repr, Inhabited

/-- What the cut after a text may depend on. -/
structure Context where
  /-- The class of the last character. -/
  last : Class
  /-- Whether the text ends in an odd number of halves of flags. -/
  halfFlag : Bool := false
  pictographs : Pictographs := .absent
  conjunct : Conjunct := .absent
deriving DecidableEq, Repr, Inhabited

namespace Context

/-- The context before any text. Its class is that of a control, after which a cluster begins. -/
def empty : Context := { last := .control }

/-- How far the sequence of pictographs is after one more character. -/
def nextPictographs (x : Context) (k : Class) : Pictographs :=
  match k with
  | .pictograph => .begun
  | .extending => if x.pictographs = .begun then .begun else .absent
  | .joiner => if x.pictographs = .begun then .joined else .absent
  | _ => .absent

/-- How far the conjunct is after one more character. -/
def nextConjunct (x : Context) (c : Char) (k : Class) : Conjunct :=
  if k = .consonant then .begun
  else if x.conjunct = .absent || !isConjunctPart c then .absent
  else if isLinker c then .linked
  else x.conjunct

/-- The context after one more character. -/
def next (x : Context) (c : Char) : Context :=
  let k := Class.ofChar c
  { last := k
    halfFlag := k = .regional && !x.halfFlag
    pictographs := x.nextPictographs k
    conjunct := x.nextConjunct c k }

/-- Whether a cluster ends before a character of class `k`. A carriage return and the line feed after
it are one cluster. -/
def cuts (x : Context) (k : Class) : Bool :=
  if x.last = .carriageReturn && k = .lineFeed then false
  else if x.last.standsAlone || k.standsAlone then true
  else if k.belongsToPrevious || x.last = .prepended || x.last.goesOnSyllable k then false
  else
    match k with
    | .consonant => x.conjunct ≠ .linked
    | .pictograph => x.pictographs ≠ .joined
    | .regional => !x.halfFlag
    | _ => true

end Context

/-- The clusters of `text`, where `cluster` has been read of the first one already and is held last
character first, and `x` is the context after it. -/
def clustersFrom (x : Context) (cluster : List Char) : List Char → List (List Char)
  | [] => [cluster.reverse]
  | c :: cs =>
    if x.cuts (Class.ofChar c) then cluster.reverse :: clustersFrom (x.next c) [c] cs
    else clustersFrom (x.next c) (c :: cluster) cs

/-- The clusters of a text. -/
def clusters : List Char → List (List Char)
  | [] => []
  | c :: cs => clustersFrom (Context.empty.next c) [c] cs

end Monkey.Text.Grapheme
