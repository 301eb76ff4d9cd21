import Monkey.Proofs.Display.Pieces
import Monkey.Proofs.Token.Lossless

/-!
# The longest token

Outside string literals the first character of a token tells of which class it is, and the token
goes on as long as its class does: no token could have been longer, and no character is left that is
in no token, separates none and opens no literal. A character of no class is an illegal token by
itself.

## Main definitions

* `Lexeme.IsRun` — that characters are a maximal run of a class.
* `Lexeme.IsTouched` — that what follows a word keeps it from being a keyword.
* `Lexeme.IsStray` — that no token of the language can begin with a character.
* `Token.IsLongest` — that a token is the one that stands at the front of a text.
* `Location.IsInCode` — that a location is in no string literal.
* `Location.Matters` — that a character in code has to be in a token.
-/

namespace Monkey

open Location Scanner Text

/-! ## The token at the front -/

namespace Lexeme

/-- The characters `w` are all of a class, they stand at the front of a text, and `rest`, which
comes after them there, does not go on with the class. -/
structure IsRun (p : Char → Bool) (text w rest : List Char) : Prop where
  append : w ++ rest = text
  all : ∀ d ∈ w, p d = true
  stops : ∀ d, rest.head? = some d → p d = false

/-- What follows a word begins with a word character, which is none of ASCII. -/
def IsTouched (rest : List Char) : Prop :=
  ∃ d, rest.head? = some d ∧ 0x80 ≤ d.toNat ∧ isWordCharacter d = true

/-- The character separates nothing, opens no literal, and begins no word, numeral or sign. -/
structure IsStray (c : Char) : Prop where
  separator : isSeparator c = false
  word : isWordStart c = false
  digit : c.isDigit = false
  quote : c ≠ '"'
  sign : ∀ s : Symbol, c ∉ s.spelling.toList

end Lexeme

open Lexeme

/-- The token is the one at the front of the text `c :: cs`, and no longer one stands there. -/
structure Token.IsLongest (t : Token) (c : Char) (cs : List Char) : Prop where
  written : t.lexeme.toList <+: c :: cs
  /-- A word is a whole run of letters, digits and underscores. It is a keyword if it is spelt like
  one and nothing touches it, and a name otherwise. -/
  word : isWordStart c = true → ∃ rest, IsRun isWordPart (c :: cs) t.lexeme.toList rest ∧
    (∀ k, t.kind = .keyword k ↔ k.spelling = t.lexeme ∧ ¬ IsTouched rest) ∧
    (t.kind = .identifier ↔ ∀ k : Keyword, k.spelling = t.lexeme → IsTouched rest)
  /-- A numeral is a whole run of digits. -/
  numeral : c.isDigit = true →
    t.kind = .integer ∧ ∃ rest, IsRun Char.isDigit (c :: cs) t.lexeme.toList rest
  sign : (∃ s : Symbol, c ∈ s.spelling.toList) → ∃ s, t.kind = .symbol s
  spelling : ∀ s, t.kind = .symbol s → t.lexeme = s.spelling
  /-- Two signs that can be joined are joined, and none is left alone then. -/
  equal : c = '=' → cs.head? = some '=' → t.kind = .symbol .equal
  notEqual : c = '!' → cs.head? = some '=' → t.kind = .symbol .notEqual
  alone : t.kind = .symbol .assign ∨ t.kind = .symbol .bang → cs.head? ≠ some '='
  /-- Only a stray character is illegal, and it is a token by itself. -/
  illegal : t.kind = .illegal ↔ IsStray c
  single : t.kind = .illegal → t.lexeme = c.toString

namespace Lexeme

variable {c : Char} {cs w rest : List Char} {p : Char → Bool}

theorem isRun_takeWhile (cs : List Char) (h : p c = true) :
    IsRun p (c :: cs) (c :: cs.takeWhile p) (cs.dropWhile p) where
  append := congrArg (List.cons c) List.takeWhile_append_dropWhile
  all := List.forall_mem_cons.mpr ⟨h, List.all_eq_true.mp List.all_takeWhile⟩
  stops d hd := by
    have hhead := List.head?_dropWhile_not p cs
    rw [hd] at hhead
    simpa using hhead

/-- After a maximal run only characters beyond ASCII can touch a word. -/
theorem any_isWordCharacter_iff (h : IsRun isWordPart cs w rest) :
    rest.head?.any isWordCharacter = true ↔ IsTouched rest := by
  rw [Option.any_eq_true]
  constructor
  · rintro ⟨d, hd, hword⟩
    refine ⟨d, hd, ?_, hword⟩
    rw [← Nat.not_lt]
    intro hascii
    have hpart := isWordPart_of_isWordCharacter hword hascii
    rw [h.stops d hd] at hpart
    exact Bool.noConfusion hpart
  · rintro ⟨d, hd, -, hword⟩
    exact ⟨d, hd, hword⟩

theorem kindOfWord_eq_keyword_iff (h : IsRun isWordPart cs w rest) {k : Keyword} :
    kindOfWord w rest.head? = .keyword k ↔ k.spelling = String.ofList w ∧ ¬ IsTouched rest := by
  rw [← any_isWordCharacter_iff h, ← Keyword.ofSpelling?_eq_some_iff, kindOfWord]
  split
  · next htouched => simp [htouched]
  · next htouched =>
    split
    · next l hl => simp [hl, htouched]
    · next hnone => simp [hnone]

/-- A word that is no keyword is a name. -/
theorem kindOfWord_eq_identifier_iff (h : IsRun isWordPart cs w rest) :
    kindOfWord w rest.head? = .identifier ↔
      ∀ k : Keyword, k.spelling = String.ofList w → IsTouched rest := by
  have hword : kindOfWord w rest.head? = .identifier ↔
      ∀ k, kindOfWord w rest.head? ≠ .keyword k := by
    rw [kindOfWord]
    split
    · simp
    · split <;> simp
  rw [hword]
  simp only [ne_eq, kindOfWord_eq_keyword_iff h, not_and, not_not]

theorem not_isWordPart_of_mem_spelling {s : Symbol} (h : c ∈ s.spelling.toList) :
    isWordPart c = false := by
  have hall : s.spelling.toList.all (fun d => !isWordPart d) = true := by cases s <;> decide
  exact Bool.not_eq_true' _ ▸ List.all_eq_true.mp hall c h

/-- A word or a numeral is a token of an open class. What is none begins with a symbol, or with a
character that is in no symbol. -/
theorem first_cases (c : Char) (cs : List Char) :
    (isWordPart c = true ∧ (first c cs).1 ≠ .illegal ∧ ∀ s, (first c cs).1 ≠ .symbol s) ∨
    (∃ s : Symbol, c ∈ s.spelling.toList ∧ (first c cs).1 = .symbol s ∧
      String.ofList (first c cs).2.1 = s.spelling ∧
      (s = .assign ∨ s = .bang → cs.head? ≠ some '=')) ∨
    (isWordPart c = false ∧ (∀ s : Symbol, c ∉ s.spelling.toList) ∧
      first c cs = (.illegal, [c], cs)) := by
  by_cases hstart : isWordStart c = true
  · refine .inl ⟨isWordPart_of_isWordStart hstart, ?_⟩
    rw [first_of_isWordStart hstart, kindOfWord]
    split
    · simp
    · split <;> simp
  by_cases hdigit : c.isDigit = true
  · refine .inl ⟨isWordPart_of_isDigit hdigit, ?_⟩
    rw [first_of_isDigit hdigit]
    simp
  by_cases hjoined : (c = '=' ∨ c = '!') ∧ cs.head? = some '='
  · obtain ⟨hc, hcs⟩ := hjoined
    obtain ⟨cs, rfl⟩ := List.head?_eq_some_iff.mp hcs
    rcases hc with rfl | rfl
    · exact .inr (.inl ⟨.equal, by decide, rfl, rfl, by simp⟩)
    · exact .inr (.inl ⟨.notEqual, by decide, rfl, rfl, by simp⟩)
  · have hpart : isWordPart c = false := by
      rw [← Bool.not_eq_true, isWordPart_iff]
      exact not_or.mpr ⟨hstart, hdigit⟩
    rw [Bool.not_eq_true] at hstart hdigit
    have hfirst := first_of_unjoined hstart hdigit fun hc hcs => hjoined ⟨hc, hcs⟩
    cases hchar : Symbol.ofChar? c with
    | some s =>
      rw [hchar] at hfirst
      have hspelling := Symbol.ofChar?_eq_some_iff.mp hchar
      refine .inr (.inl ⟨s, ?_, by rw [hfirst], ?_, fun hs hcs => hjoined ⟨?_, hcs⟩⟩)
      · rw [hspelling]
        exact List.mem_singleton_self c
      · rw [hfirst, ← hspelling, String.ofList_toList]
      · rcases hs with rfl | rfl
        · exact .inl (List.cons.inj hspelling).1.symm
        · exact .inr (List.cons.inj hspelling).1.symm
    | none =>
      rw [hchar] at hfirst
      exact .inr (.inr ⟨hpart, Symbol.ofChar?_eq_none_iff.mp hchar, hfirst⟩)

theorem illegal_first_iff (hsep : isSeparator c = false) (hquote : c ≠ '"') :
    (first c cs).1 = .illegal ↔ IsStray c := by
  rcases first_cases c cs with ⟨hpart, hillegal, -⟩ | ⟨s, hmem, hkind, -⟩ | ⟨hpart, hsign, hfirst⟩
  · refine iff_of_false hillegal fun hstray => ?_
    rcases isWordPart_iff.mp hpart with hstart | hdigit
    · rw [hstray.word] at hstart
      exact Bool.noConfusion hstart
    · rw [hstray.digit] at hdigit
      exact Bool.noConfusion hdigit
  · refine iff_of_false (by simp [hkind]) fun hstray => hstray.sign s hmem
  · obtain ⟨hstart, hdigit⟩ := not_or.mp (mt isWordPart_iff.mpr (Bool.not_eq_true _ ▸ hpart))
    rw [Bool.not_eq_true] at hstart hdigit
    exact iff_of_true (by rw [hfirst]) ⟨hsep, hstart, hdigit, hquote, hsign⟩

/-- The token at the front of a text is the longest one there. -/
theorem isLongest_first (cs : List Char) (span : Span) (hsep : isSeparator c = false)
    (hquote : c ≠ '"') :
    Token.IsLongest ⟨(first c cs).1, String.ofList (first c cs).2.1, span⟩ c cs := by
  constructor
  case written =>
    rw [String.toList_ofList]
    exact ⟨_, first_append c cs⟩
  case word =>
    intro hc
    have hrun := isRun_takeWhile cs (isWordPart_of_isWordStart hc)
    rw [first_of_isWordStart hc]
    refine ⟨_, ?_, fun k => kindOfWord_eq_keyword_iff hrun, kindOfWord_eq_identifier_iff hrun⟩
    rwa [String.toList_ofList]
  case numeral =>
    intro hc
    rw [first_of_isDigit hc]
    refine ⟨rfl, cs.dropWhile Char.isDigit, ?_⟩
    rw [String.toList_ofList]
    exact isRun_takeWhile cs hc
  case equal =>
    rintro rfl hcs
    obtain ⟨cs, rfl⟩ := List.head?_eq_some_iff.mp hcs
    rfl
  case notEqual =>
    rintro rfl hcs
    obtain ⟨cs, rfl⟩ := List.head?_eq_some_iff.mp hcs
    rfl
  case sign =>
    rintro ⟨s, hmem⟩
    rcases first_cases c cs with ⟨hpart, -⟩ | ⟨s', -, hs', -⟩ | ⟨-, hnone, -⟩
    · rw [not_isWordPart_of_mem_spelling hmem] at hpart
      exact Bool.noConfusion hpart
    · exact ⟨s', hs'⟩
    · exact absurd hmem (hnone s)
  case spelling =>
    intro s hs
    rcases first_cases c cs with ⟨-, -, hnone⟩ | ⟨s', -, hs', hspelling, -⟩ | ⟨-, -, hfirst⟩
    · exact absurd hs (hnone s)
    · cases hs.symm.trans hs'
      exact hspelling
    · simp [hfirst] at hs
  case alone =>
    intro hs
    rcases first_cases c cs with ⟨-, -, hnone⟩ | ⟨s, -, hs', -, halone⟩ | ⟨-, -, hfirst⟩
    · rcases hs with hs | hs <;> exact absurd hs (hnone _)
    · simp only [hs', Token.Kind.symbol.injEq] at hs
      exact halone hs
    · simp [hfirst] at hs
  case illegal => exact illegal_first_iff hsep hquote
  case single =>
    intro hillegal
    rcases first_cases c cs with ⟨-, hlegal, -⟩ | ⟨s, -, hs, -⟩ | ⟨-, -, hfirst⟩
    · exact absurd hillegal hlegal
    · exact absurd (hillegal.symm.trans hs) (by simp)
    · rw [hfirst]
      rfl

end Lexeme

/-- There is no stray character in a token that does not begin with one. -/
theorem Token.IsLongest.not_isStray {t : Token} {c : Char} {cs : List Char} (h : t.IsLongest c cs)
    (hsep : isSeparator c = false) (hquote : c ≠ '"') (hc : ¬ IsStray c) :
    ∀ d ∈ t.lexeme.toList, ¬ IsStray d := by
  intro d hd hstray
  have hpart : isWordPart d = false := by
    rw [← Bool.not_eq_true, isWordPart_iff, hstray.word, hstray.digit]
    simp
  by_cases hstart : isWordStart c = true
  · obtain ⟨rest, hrun, -⟩ := h.word hstart
    rw [hrun.all d hd] at hpart
    exact Bool.noConfusion hpart
  by_cases hdigit : c.isDigit = true
  · obtain ⟨-, rest, hrun⟩ := h.numeral hdigit
    have hdigit' := hrun.all d hd
    rw [hstray.digit] at hdigit'
    exact Bool.noConfusion hdigit'
  · rw [Bool.not_eq_true] at hstart hdigit
    have hsign : ∃ s : Symbol, c ∈ s.spelling.toList := by
      by_contra hnone
      exact hc ⟨hsep, hstart, hdigit, hquote, not_exists.mp hnone⟩
    obtain ⟨s, hs⟩ := h.sign hsign
    rw [h.spelling s hs] at hd
    exact hstray.sign s hd

/-! ## In code -/

namespace Location

/-- As many quotes close a literal before the location as open one. -/
def IsInCode (lines : List String) (l : Location) : Prop := Even ((l.before lines).count '"')

variable {lines : List String} {i j : Nat} {w cs : List Char}

theorem isInCode_advance (h : Faces lines ⟨i, j⟩ (w ++ cs)) (hw : '"' ∉ w) :
    IsInCode lines ⟨i, j + w.length⟩ ↔ IsInCode lines ⟨i, j⟩ := by
  rw [IsInCode, h.advance.2, List.count_append, List.count_eq_zero.mpr hw, Nat.add_zero, IsInCode]

theorem isInCode_quote (h : Faces lines ⟨i, j⟩ ('"' :: cs)) :
    IsInCode lines ⟨i, j + 1⟩ ↔ ¬ IsInCode lines ⟨i, j⟩ := by
  have hbefore := (h.advance (w := ['"'])).2
  rw [List.length_singleton] at hbefore
  rw [IsInCode, hbefore, List.count_append, List.count_singleton_self, Nat.even_add_one, IsInCode]

theorem isInCode_newline (h : Faces lines ⟨i, j⟩ []) :
    IsInCode lines ⟨i + 1, 0⟩ ↔ IsInCode lines ⟨i, j⟩ := by
  have hquote : '"' ∉ ['\n'] := by decide
  rw [IsInCode, h.newline, List.count_append, List.count_eq_zero.mpr hquote, Nat.add_zero, IsInCode]

end Location

/-- The character is in code and is needed there: it separates nothing and opens no literal. -/
structure Location.Matters (lines : List String) (l : Location) (c : Char) : Prop where
  charAt? : l.charAt? lines = some c
  code : l.IsInCode lines
  separator : isSeparator c = false
  quote : c ≠ '"'

/-- The token begins at a character that matters, and it is the longest one there. -/
def Token.StandsLongest (lines : List String) (t : Token) : Prop :=
  t.span = Span.ofWidth t.span.start t.lexeme.length ∧
    ∃ c cs, Faces lines t.span.start (c :: cs) ∧ Matters lines t.span.start c ∧ t.IsLongest c cs

namespace Scanner

variable {lines : List String} {here : Location} {mode mode' : Mode} {ts us : List Token}
  {i j : Nat} {w cs : List Char}

/-- Up to a location, every token that is no literal is the longest one where it stands, and every
character that matters is in one of them. -/
structure Matches (lines : List String) (here : Location) (mode : Mode) (ts : List Token) :
    Prop where
  longest : ∀ t ∈ ts, t.kind ≠ .string → t.StandsLongest lines
  covers : ∀ l c, l < here → Matters lines l c → ∃ t ∈ ts, t.kind ≠ .string ∧ t.span.Covers l
  mode : mode = .code ↔ here.IsInCode lines

/-- What is read of a line adds tokens that are the longest, and they cover the characters in it
that matter. -/
theorem Matches.advance (h : Matches lines ⟨i, j⟩ mode ts) (hc : Faces lines ⟨i, j⟩ (w ++ cs))
    (hus : ∀ t ∈ us, t.kind ≠ .string → t.StandsLongest lines)
    (hw : ∀ k c, w[k]? = some c → Matters lines ⟨i, j + k⟩ c →
      ∃ t ∈ us, t.kind ≠ .string ∧ t.span.Covers ⟨i, j + k⟩)
    (hmode : mode' = .code ↔ IsInCode lines ⟨i, j + w.length⟩) :
    Matches lines ⟨i, j + w.length⟩ mode' (ts ++ us) where
  longest := List.forall_mem_append.mpr ⟨h.longest, hus⟩
  covers l c hl hmatters := by
    rcases lt_add_iff.mp hl with hl | ⟨k, hk, rfl⟩
    · obtain ⟨t, ht, hcovers⟩ := h.covers l c hl hmatters
      exact ⟨t, List.mem_append_left us ht, hcovers⟩
    · have hget : w[k]? = some c := by
        rw [← hmatters.charAt?, hc.charAt?, List.getElem?_append_left hk]
      obtain ⟨t, ht, hcovers⟩ := hw k c hget hmatters
      exact ⟨t, List.mem_append_right ts ht, hcovers⟩
  mode := hmode

/-- A character that does not matter is passed. -/
theorem Matches.pass {c : Char} (h : Matches lines ⟨i, j⟩ mode ts)
    (hc : Faces lines ⟨i, j⟩ (c :: cs)) (hpass : ¬ Matters lines ⟨i, j⟩ c)
    (hmode : mode' = .code ↔ IsInCode lines ⟨i, j + 1⟩) : Matches lines ⟨i, j + 1⟩ mode' ts := by
  rw [← List.append_nil ts]
  refine h.advance (w := [c]) hc (by simp) (fun k d hd hmatters => ?_) hmode
  obtain ⟨rfl, rfl⟩ : k = 0 ∧ c = d := by
    cases k with
    | zero => simpa using hd
    | succ k => simp at hd
  exact absurd hmatters hpass

/-- What has no quote in it is passed in a literal. -/
theorem Matches.passLiteral (h : Matches lines ⟨i, j⟩ mode ts) (hliteral : mode ≠ .code)
    (hc : Faces lines ⟨i, j⟩ (w ++ cs)) (hw : '"' ∉ w) :
    Matches lines ⟨i, j + w.length⟩ mode ts := by
  have hcode : ¬ IsInCode lines ⟨i, j⟩ := mt h.mode.mpr hliteral
  have hmode := h.mode.trans (isInCode_advance hc hw).symm
  rw [← List.append_nil ts]
  refine h.advance hc (by simp) (fun k d hd hmatters => absurd ?_ hcode) hmode
  have hk : (w.take k).length = k :=
    List.length_take_of_le (Nat.le_of_lt (List.getElem?_eq_some_iff.mp hd).1)
  have hfaces : Faces lines ⟨i, j⟩ (w.take k ++ (w.drop k ++ cs)) := by
    rwa [← List.append_assoc, List.take_append_drop]
  have hsame := isInCode_advance hfaces fun hmem => hw (List.mem_of_mem_take hmem)
  rw [hk] at hsame
  exact hsame.mp hmatters.code

/-- The end of a line. -/
theorem Matches.endLine (h : Matches lines ⟨i, j⟩ mode ts) (hc : Faces lines ⟨i, j⟩ [])
    (hmode : mode' = .code ↔ mode = .code) : Matches lines ⟨i + 1, 0⟩ mode' ts where
  longest := h.longest
  covers l c hl hmatters := h.covers l c (hc.lt_of_charAt? hl hmatters.charAt?) hmatters
  mode := hmode.trans (h.mode.trans (isInCode_newline hc).symm)

/-- Scanning what is left of a line adds tokens that are the longest where they stand. -/
theorem Matches.scan (h : Matches lines ⟨i, j⟩ mode ts) (hc : Faces lines ⟨i, j⟩ cs) :
    Matches lines ⟨i + 1, 0⟩ (scan i j mode cs).2 (ts ++ (scan i j mode cs).1) := by
  -- The induction follows the scanner, which goes on with more tokens at a place further right.
  fun_induction Scanner.scan i j mode cs generalizing ts with
  | case1 j =>
    rw [List.append_nil]
    exact h.endLine hc Iff.rfl
  | case2 j c cs hsep ih =>
    have hquote : '"' ∉ [c] := by
      rw [List.mem_singleton]
      rintro rfl
      exact absurd hsep (by decide)
    refine ih (h.pass hc (fun hmatters => ?_) ?_) (hc.advance (w := [c])).1
    · rw [hmatters.separator] at hsep
      exact Bool.noConfusion hsep
    · exact h.mode.trans (isInCode_advance (w := [c]) hc hquote).symm
  | case3 j cs hsep ih =>
    refine ih (h.pass hc (fun hmatters => hmatters.quote rfl) ?_) (hc.advance (w := ['"'])).1
    rw [isInCode_quote hc, ← h.mode]
    simp
  | case4 j c cs hsep hquote token width after =>
    rename_i ih
    have happend : token.2.1 ++ token.2.2 = c :: cs := first_append c cs
    have hfaces : Faces lines ⟨i, j⟩ (token.2.1 ++ token.2.2) := happend ▸ hc
    have hlongest := isLongest_first cs (Span.ofWidth ⟨i, j⟩ width)
      (Bool.eq_false_iff.mpr hsep) hquote
    have hmode := h.mode.trans (isInCode_advance hfaces (quote_notMem_first hquote)).symm
    rw [List.append_cons]
    refine ih (h.advance hfaces ?_ ?_ hmode) hfaces.advance.1
    · have hmatters : Matters lines ⟨i, j⟩ c :=
        ⟨hc.charAt? 0, h.mode.mp rfl, Bool.eq_false_iff.mpr hsep, hquote⟩
      refine List.forall_mem_singleton.mpr fun _ => ⟨?_, c, cs, hc, hmatters, hlongest⟩
      simp [width]
    · intro k d hd _
      obtain ⟨hk, -⟩ := List.getElem?_eq_some_iff.mp hd
      refine ⟨_, List.mem_singleton_self _, (kind_first c cs).2, ?_, ?_⟩
      · exact .inr ⟨rfl, Nat.le_add_right j k⟩
      · exact .inr ⟨rfl, Nat.add_lt_add_left hk j⟩
  | case5 j cs start text body =>
    rename_i hnil
    obtain ⟨hbody, hquote⟩ := literalPart_of_dropWhile hnil
    rw [← hbody] at hc
    have hpassed := h.passLiteral (by simp) hc hquote
    rw [List.append_nil]
    exact hpassed.endLine hc.advance.1 (by simp)
  | case6 j cs start text body head rest hdrop column after =>
    rename_i ih
    obtain ⟨hbody, hquote⟩ := literalPart_of_dropWhile hdrop
    obtain rfl := head_of_dropWhile hdrop
    rw [← hbody] at hc
    have hpassed := h.passLiteral (by simp) hc hquote
    have hclose := hc.advance.1
    have hmode : Mode.code = .code ↔ IsInCode lines ⟨i, j + body.length + 1⟩ := by
      rw [isInCode_quote hclose, ← hpassed.mode]
      simp
    rw [List.append_cons]
    refine ih (hpassed.advance (w := ['"']) hclose ?_ ?_ hmode) (hclose.advance (w := ['"'])).1
    · exact List.forall_mem_singleton.mpr fun hkind => absurd rfl hkind
    · intro k d hd hmatters
      exact absurd (List.mem_singleton.mp (List.mem_of_getElem? hd)) hmatters.quote

/-- A stray character in code is an illegal token by itself. -/
theorem Matches.illegal {l : Location} {c : Char} (h : Matches lines here mode ts) (hl : l < here)
    (hmatters : Matters lines l c) (hstray : IsStray c) :
    ∃ t ∈ ts, t.kind = .illegal ∧ t.lexeme = c.toString ∧ t.span = Span.ofWidth l 1 := by
  obtain ⟨t, ht, hkind, hcovers⟩ := h.covers l c hl hmatters
  obtain ⟨hspan, d, ds, hfaces, hd, hlongest⟩ := h.longest t ht hkind
  rw [hspan] at hcovers
  obtain ⟨k, hk, rfl⟩ := Span.exists_of_covers hcovers
  have hget : (d :: ds)[k]? = some c := by
    rw [← hmatters.charAt?, ← hfaces.charAt? k]
  by_cases hfirst : IsStray d
  · have hlexeme := hlongest.single (hlongest.illegal.mpr hfirst)
    have hlength : t.lexeme.length = 1 := by simp [hlexeme]
    rw [hlength] at hk hspan
    obtain rfl := Nat.lt_one_iff.mp hk
    obtain rfl : d = c := by simpa using hget
    exact ⟨t, ht, hlongest.illegal.mpr hfirst, hlexeme, hspan⟩
  · have hmem : c ∈ t.lexeme.toList := by
      obtain ⟨rest, happend⟩ := hlongest.written
      rw [← happend, List.getElem?_append_left (by rwa [String.length_toList])] at hget
      exact List.mem_of_getElem? hget
    exact absurd hstray (hlongest.not_isStray hd.separator hd.quote hfirst c hmem)

theorem matches_start (lines : List String) : Matches lines ⟨0, 0⟩ .code [] where
  longest := by simp
  covers l c hl := by simp [lt_def] at hl
  mode := by simp [IsInCode, before_origin]

/-- Reading one more line. -/
theorem Matches.feedLine {s : Scanner} {line : String}
    (h : Matches lines ⟨s.lines, 0⟩ s.mode s.tokens.toList) (hline : lines[s.lines]? = some line) :
    Matches lines ⟨s.lines + 1, 0⟩ (s.feedLine line).mode (s.feedLine line).tokens.toList := by
  have hscan := h.scan (faces_start hline)
  simp only [Scanner.feedLine, Array.toList_appendList]
  exact hscan

theorem matches_feed (lines : List String) :
    Matches lines ⟨lines.length, 0⟩ (({} : Scanner).feed lines).mode
      (({} : Scanner).feed lines).tokens.toList := by
  let P (read : Nat) (s : Scanner) : Prop :=
    s.lines = read ∧ Matches lines ⟨read, 0⟩ s.mode s.tokens.toList
  have hstep : ∀ read s line, lines[read]? = some line → P read s →
      P (read + 1) (s.feedLine line) := by
    rintro read s line hline ⟨rfl, h⟩
    exact ⟨rfl, h.feedLine hline⟩
  exact (@feed_induction P {} [] lines hstep ⟨rfl, matches_start lines⟩).2

/-- The text that has been read has its tokens, one for what is read of a literal that is still
open, and the mark of the end. -/
theorem exists_finish_eq (lines : List String) :
    ∃ us, (({} : Scanner).feed lines).finish =
        (({} : Scanner).feed lines).tokens.toList ++ us ++ [Token.endAt (endOf lines)] ∧
      (us = [] ∨ ∃ t, us = [t] ∧ t.Unfinished lines) := by
  have htracks := @Tracks.feed {} [] lines (tracks_start lines)
  rw [List.nil_append] at htracks
  have haccounts := htracks.accounts
  have hstop := htracks.stop
  rw [List.take_length] at hstop
  rw [finish, hstop]
  cases hmode : (({} : Scanner).feed lines).mode with
  | code => exact ⟨_, rfl, .inl rfl⟩
  | literal start text =>
    rw [hmode] at haccounts
    exact ⟨_, rfl, .inr ⟨_, rfl, haccounts.unfinished.1⟩⟩

/-- Whatever lines a scanner is given, and in whatever portions: but for string literals, and for
one that is still open at the end, every token is the longest one where it begins, every character
in code that matters is in such a token, and a stray one is an illegal token by itself. -/
theorem exists_longest (portions : List (List String)) :
    ∃ ts us, (portions.foldl feed {}).finish =
        ts ++ us ++ [Token.endAt (endOf portions.flatten)] ∧
      (us = [] ∨ ∃ t, us = [t] ∧ t.Unfinished portions.flatten) ∧
      (∀ t ∈ ts, t.kind ≠ .string → t.StandsLongest portions.flatten) ∧
      (∀ l c, Matters portions.flatten l c →
        ∃ t ∈ ts, t.kind ≠ .string ∧ t.span.Covers l) ∧
      ∀ l c, Matters portions.flatten l c → IsStray c →
        ∃ t ∈ ts, t.kind = .illegal ∧ t.lexeme = c.toString ∧ t.span = Span.ofWidth l 1 := by
  rw [foldl_feed]
  have hmatches := matches_feed portions.flatten
  have hend {l : Location} {c : Char} (h : Matters portions.flatten l c) :
      l < ⟨portions.flatten.length, 0⟩ := by
    obtain ⟨line, hline, -⟩ := Option.bind_eq_some_iff.mp h.charAt?
    exact .inl (List.getElem?_eq_some_iff.mp hline).1
  obtain ⟨us, hfinish, hus⟩ := exists_finish_eq portions.flatten
  exact ⟨_, us, hfinish, hus, hmatches.longest, fun l c h => hmatches.covers l c (hend h) h,
    fun l c h => hmatches.illegal (hend h) h⟩

end Scanner

end Monkey
