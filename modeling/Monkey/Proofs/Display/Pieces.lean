import Monkey.Text.Decimal
import Monkey.Token.Scanner

/-!
# Scanning a text piece by piece

A line that is put together from pieces is scanned piece by piece if no two pieces that touch run
into each other: a word or a numeral must not be followed by a character that goes on with it, and
`=` and `!` must not be followed by `=`. So what a piece is scanned as may depend on what follows
it.

## Main definitions

* `Scanner.Scans` — that characters are scanned as certain tokens, wherever they stand in a line.
* `Scanner.Leads` — that characters are one token, given what follows them.
* `Scanner.Apart`, `Scanner.Unjoined` — that what follows does not run into what stands before it.
* `Scanner.One`, `Scanner.Joined` — properties of one token, and of tokens that are put together.
-/

namespace Monkey.Scanner

open Text

/-! ## One step -/

section Steps

variable {line column : Nat} {c : Char} {cs : List Char}

theorem scan_code_nil : scan line column .code [] = ([], .code) := by rw [scan]

theorem scan_separator (h : isSeparator c = true) :
    scan line column .code (c :: cs) = scan line (column + 1) .code cs := by
  rw [scan, if_pos h]

theorem scan_first {k : Token.Kind} {w rest : List Char} (hsep : isSeparator c = false)
    (hquote : c ≠ '"') (h : Lexeme.first c cs = (k, w, rest)) :
    scan line column .code (c :: cs) =
      (⟨k, String.ofList w, Span.ofWidth ⟨line, column⟩ w.length⟩ ::
          (scan line (column + w.length) .code rest).1,
        (scan line (column + w.length) .code rest).2) := by
  rw [scan, if_neg (by simp [hsep]), if_neg hquote]
  simp only [h]

end Steps

/-! ## Pieces -/

/-- Wherever the characters stand in a line outside a literal, they are scanned as tokens with the
property `R` if what follows them has the property `P`, and the scanner goes on after them. -/
structure Scans (P : List Char → Prop) (R : List Token → Prop) (cs : List Char) : Prop where
  oneLine : '\n' ∉ cs
  scan : ∀ line column rest, P rest → ∃ ts, R ts ∧
    scan line column .code (cs ++ rest) =
      (ts ++ (scan line (column + cs.length) .code rest).1,
        (scan line (column + cs.length) .code rest).2)

/-- What follows does not go on with a word or a numeral. -/
def Apart (rest : List Char) : Prop := ∀ c, rest.head? = some c → isWordCharacter c = false

/-- What follows does not make one sign of two. -/
def Unjoined (s : Symbol) (rest : List Char) : Prop :=
  s = .assign ∨ s = .bang → rest.head? ≠ some '='

/-- There is one token, and it has the property. -/
def One (Q : Token → Prop) (ts : List Token) : Prop := ∃ t, Q t ∧ ts = [t]

/-- The tokens are some with one property and then some with another. -/
def Joined (R S : List Token → Prop) (ts : List Token) : Prop :=
  ∃ us vs, R us ∧ S vs ∧ ts = us ++ vs

variable {P Q : List Char → Prop} {R S : List Token → Prop} {cs ds : List Char}

theorem apart_nil : Apart [] := by
  intro c h
  simp at h

theorem apart_cons {c : Char} {rest : List Char} (h : isWordCharacter c = false) :
    Apart (c :: rest) := by
  intro d hd
  rw [← Option.some.inj hd]
  exact h

theorem apart_symbol (s : Symbol) (rest : List Char) : Apart (s.spelling.toList ++ rest) := by
  cases s <;> exact apart_cons (by decide)

theorem apart_symbol_append (s : Symbol) (ds rest : List Char) :
    Apart ((s.spelling.toList ++ ds) ++ rest) := by
  rw [List.append_assoc]
  exact apart_symbol s _

theorem apart_space (rest : List Char) : Apart (' ' :: rest) := apart_cons (by decide)

theorem Apart.isWordPart {rest : List Char} (h : Apart rest) :
    ∀ c, rest.head? = some c → isWordPart c = false := by
  intro c hc
  rw [← Bool.not_eq_true]
  intro hpart
  have hword := isWordCharacter_of_isWordPart hpart
  rw [h c hc] at hword
  exact Bool.false_ne_true hword

theorem Scans.mono {R' : List Token → Prop} {P' : List Char → Prop} (h : Scans P R cs)
    (hR : ∀ ts, R ts → R' ts) (hP : ∀ rest, P' rest → P rest) : Scans P' R' cs where
  oneLine := h.oneLine
  scan line column rest hrest := by
    obtain ⟨ts, hts, hscan⟩ := h.scan line column rest (hP rest hrest)
    exact ⟨ts, hR ts hts, hscan⟩

theorem scans_nil : Scans P (· = []) [] where
  oneLine := by simp
  scan line column rest _ := ⟨[], rfl, by simp⟩

/-- Two pieces are scanned one after the other if what follows the first does not run into it. -/
theorem Scans.append (h : Scans P R cs) (h' : Scans Q S ds)
    (hfollows : ∀ rest, Q rest → P (ds ++ rest)) : Scans Q (Joined R S) (cs ++ ds) where
  oneLine := by simp [h.oneLine, h'.oneLine]
  scan line column rest hrest := by
    obtain ⟨ts, hts, hscan⟩ := h.scan line column (ds ++ rest) (hfollows rest hrest)
    obtain ⟨us, hus, hscan'⟩ := h'.scan line (column + cs.length) rest hrest
    refine ⟨ts ++ us, ⟨ts, us, hts, hus, rfl⟩, ?_⟩
    rw [List.append_assoc, hscan, hscan', List.append_assoc, List.length_append, Nat.add_assoc]

/-- A piece that is scanned whatever follows it, and another after it. -/
theorem Scans.andThen (h : Scans (fun _ => True) R cs) (h' : Scans Q S ds) :
    Scans Q (Joined R S) (cs ++ ds) := h.append h' fun _ _ => trivial

theorem scans_space : Scans P (· = []) [' '] where
  oneLine := by decide
  scan line column rest _ := ⟨[], rfl, scan_separator rfl⟩

theorem Scans.afterSpace (h : Scans P R cs) : Scans P R (' ' :: cs) := by
  refine (scans_space.andThen h).mono (fun ts hts => ?_) fun _ => id
  obtain ⟨_, vs, rfl, hvs, rfl⟩ := hts
  exact hvs

theorem Scans.beforeSpace (h : Scans Apart R cs) : Scans P R (cs ++ [' ']) := by
  refine (h.append scans_space fun rest _ => apart_space rest).mono (fun ts hts => ?_) fun _ => id
  obtain ⟨us, _, hus, rfl, rfl⟩ := hts
  rwa [List.append_nil]

/-- The characters are a token of the kind wherever they stand, if what follows them has the
property `P`, and they stand in one line. -/
structure Leads (P : List Char → Prop) (k : Token.Kind) (w : List Char) : Prop where
  oneLine : '\n' ∉ w ∧ '\r' ∉ w
  first : ∃ c cs, w = c :: cs ∧ isSeparator c = false ∧ c ≠ '"' ∧
    ∀ rest, P rest → Lexeme.first c (cs ++ rest) = (k, w, rest)

theorem Leads.mono {P' : List Char → Prop} {k : Token.Kind} (h : Leads P k cs)
    (hP : ∀ rest, P' rest → P rest) : Leads P' k cs where
  oneLine := h.oneLine
  first := by
    obtain ⟨c, ds, hcs, hsep, hquote, hfirst⟩ := h.first
    exact ⟨c, ds, hcs, hsep, hquote, fun rest hrest => hfirst rest (hP rest hrest)⟩

theorem Leads.scans {k : Token.Kind} (h : Leads P k cs) :
    Scans P (One fun t => t.kind = k ∧ t.lexeme = String.ofList cs) cs where
  oneLine := h.oneLine.1
  scan line column rest hrest := by
    obtain ⟨c, ds, rfl, hsep, hquote, hfirst⟩ := h.first
    exact ⟨_, ⟨_, ⟨rfl, rfl⟩, rfl⟩, scan_first hsep hquote (hfirst rest hrest)⟩

/-! ## Signs -/

/-- A character that is no part of a longer token is one by itself. -/
theorem first_of_unjoined {c : Char} (hstart : isWordStart c = false) (hdigit : c.isDigit = false)
    {rest : List Char} (h : c = '=' ∨ c = '!' → rest.head? ≠ some '=') :
    Lexeme.first c rest =
      (match Symbol.ofChar? c with | some s => .symbol s | none => .illegal, [c], rest) := by
  unfold Lexeme.first
  rw [if_neg (by simp [hstart]), if_neg (by simp [hdigit])]
  split
  · exact absurd rfl (h (.inl rfl))
  · exact absurd rfl (h (.inr rfl))
  · cases Symbol.ofChar? c <;> rfl

theorem leads_symbol (s : Symbol) : Leads (Unjoined s) (.symbol s) s.spelling.toList where
  oneLine := by cases s <;> decide
  first := by
    cases s with
    | assign =>
      exact ⟨'=', [], rfl, rfl, by decide,
        fun _ hrest => first_of_unjoined rfl rfl fun _ => hrest (.inl rfl)⟩
    | bang =>
      exact ⟨'!', [], rfl, rfl, by decide,
        fun _ hrest => first_of_unjoined rfl rfl fun _ => hrest (.inr rfl)⟩
    | _ => exact ⟨_, _, rfl, rfl, by decide, fun _ _ => rfl⟩

theorem scans_symbol (s : Symbol) :
    Scans (Unjoined s) (One fun t => t.kind = .symbol s) s.spelling.toList :=
  (leads_symbol s).scans.mono (fun _ ⟨t, ht, hts⟩ => ⟨t, ht.1, hts⟩) fun _ => id

/-- A sign that no other sign begins with is scanned whatever follows it. -/
theorem scans_sign {s : Symbol} (hs : s ≠ .assign ∧ s ≠ .bang) :
    Scans P (One fun t => t.kind = .symbol s) s.spelling.toList := by
  refine (scans_symbol s).mono (fun _ => id) fun _ _ h => ?_
  rcases h with h | h
  · exact absurd h hs.1
  · exact absurd h hs.2

/-! ## Words -/

theorem takeWhile_append_of_all {p : Char → Bool} {rest : List Char} (hcs : cs.all p = true)
    (hrest : ∀ c, rest.head? = some c → p c = false) : (cs ++ rest).takeWhile p = cs := by
  induction cs with
  | nil =>
    cases rest with
    | nil => rfl
    | cons c rest => simp [hrest c rfl]
  | cons c cs ih =>
    simp only [List.all_cons, Bool.and_eq_true] at hcs
    simp [hcs.1, ih hcs.2]

theorem dropWhile_append_of_all {p : Char → Bool} {rest : List Char} (hcs : cs.all p = true)
    (hrest : ∀ c, rest.head? = some c → p c = false) : (cs ++ rest).dropWhile p = rest := by
  have htake := takeWhile_append_of_all hcs hrest
  have happend := List.takeWhile_append_dropWhile (p := p) (l := cs ++ rest)
  rw [htake] at happend
  exact List.append_cancel_left happend

/-- Whether the characters are ASCII letters, digits and underscores and do not begin with a digit,
as those of a name or a keyword. -/
def isWord : List Char → Bool
  | [] => false
  | c :: cs => isWordStart c && cs.all isWordPart

theorem isWordPart_of_isWordStart {c : Char} (h : isWordStart c = true) : isWordPart c = true :=
  isWordPart_iff.mpr (.inl h)

theorem isWordPart_of_isDigit {c : Char} (h : c.isDigit = true) : isWordPart c = true :=
  isWordPart_iff.mpr (.inr h)

theorem Apart.isDigit {rest : List Char} (h : Apart rest) :
    ∀ c, rest.head? = some c → c.isDigit = false := by
  intro c hc
  rw [← Bool.not_eq_true]
  intro hdigit
  have hpart := h.isWordPart c hc
  rw [isWordPart_of_isDigit hdigit] at hpart
  exact Bool.noConfusion hpart

/-- No sign, separator or quote is a part of a word. -/
theorem ne_of_isWordPart {c d : Char} (h : isWordPart c = true) (hd : isWordPart d = false) :
    c ≠ d := by
  rintro rfl
  rw [h] at hd
  exact Bool.noConfusion hd

theorem not_isSeparator_of_isWordPart {c : Char} (h : isWordPart c = true) :
    isSeparator c = false := by
  simp [isSeparator, ne_of_isWordPart h (d := ' ') rfl, ne_of_isWordPart h (d := '\t') rfl,
    ne_of_isWordPart h (d := '\r') rfl, ne_of_isWordPart h (d := '\x0c') rfl]

/-- No digit begins a word. -/
theorem not_isWordStart_of_isDigit {c : Char} (h : c.isDigit = true) : isWordStart c = false := by
  have hc : 0x30 ≤ c.toNat ∧ c.toNat ≤ 0x39 := Char.isDigit_iff_toNat.mp h
  rw [← Bool.not_eq_true, isWordStart_iff]
  rintro ((hupper | hlower) | rfl)
  · omega
  · omega
  · exact absurd h Bool.false_ne_true

theorem first_of_isWordStart {c : Char} (h : isWordStart c = true) (cs : List Char) :
    Lexeme.first c cs = (Lexeme.kindOfWord (c :: cs.takeWhile isWordPart)
      (cs.dropWhile isWordPart).head?, c :: cs.takeWhile isWordPart, cs.dropWhile isWordPart) := by
  unfold Lexeme.first
  rw [if_pos h]

theorem first_of_isDigit {c : Char} (h : c.isDigit = true) (cs : List Char) :
    Lexeme.first c cs =
      (.integer, c :: cs.takeWhile Char.isDigit, cs.dropWhile Char.isDigit) := by
  unfold Lexeme.first
  rw [if_neg (by simp [not_isWordStart_of_isDigit h]), if_pos h]

theorem kindOfWord_of_apart {rest : List Char} (h : Apart rest) :
    Lexeme.kindOfWord cs rest.head? = Lexeme.kindOfWord cs none := by
  have hany : rest.head?.any isWordCharacter = false := by
    cases hrest : rest.head? with
    | none => rfl
    | some c => exact h c hrest
  simp [Lexeme.kindOfWord, hany]

theorem notMem_of_isWordPart (h : ∀ c ∈ cs, isWordPart c = true) : '\n' ∉ cs ∧ '\r' ∉ cs :=
  ⟨fun hline => ne_of_isWordPart (h _ hline) rfl rfl,
    fun hreturn => ne_of_isWordPart (h _ hreturn) rfl rfl⟩

theorem leads_word (h : isWord cs = true) : Leads Apart (Lexeme.kindOfWord cs none) cs := by
  cases cs with
  | nil => simp [isWord] at h
  | cons c cs =>
    obtain ⟨hstart, hcs⟩ := Bool.and_eq_true_iff.mp h
    have hc := isWordPart_of_isWordStart hstart
    have hall : ∀ d ∈ c :: cs, isWordPart d = true := by
      simpa [hc] using hcs
    refine ⟨notMem_of_isWordPart hall, c, cs, rfl, not_isSeparator_of_isWordPart hc,
      ne_of_isWordPart hc rfl, fun rest hrest => ?_⟩
    rw [first_of_isWordStart hstart, takeWhile_append_of_all hcs hrest.isWordPart,
      dropWhile_append_of_all hcs hrest.isWordPart, kindOfWord_of_apart hrest]

theorem leads_keyword (k : Keyword) : Leads Apart (.keyword k) k.spelling.toList := by
  have hword : isWord k.spelling.toList = true := by cases k <;> decide
  have hkind : Lexeme.kindOfWord k.spelling.toList none = .keyword k := by cases k <;> decide
  rw [← hkind]
  exact leads_word hword

theorem scans_keyword (k : Keyword) :
    Scans Apart (One fun t => t.kind = .keyword k) k.spelling.toList :=
  (leads_keyword k).scans.mono (fun _ ⟨t, ht, hts⟩ => ⟨t, ht.1, hts⟩) fun _ => id

theorem leads_identifier {name : String} (hword : isWord name.toList = true)
    (hkeyword : Keyword.ofSpelling? name = none) : Leads Apart .identifier name.toList := by
  have hkind : Lexeme.kindOfWord name.toList none = .identifier := by
    simp [Lexeme.kindOfWord, hkeyword]
  rw [← hkind]
  exact leads_word hword

theorem scans_identifier {name : String} (hword : isWord name.toList = true)
    (hkeyword : Keyword.ofSpelling? name = none) :
    Scans Apart (One fun t => t.kind = .identifier ∧ t.lexeme = name) name.toList := by
  have hscans := (leads_identifier hword hkeyword).scans
  rwa [String.ofList_toList] at hscans

/-! ## Numerals -/

theorem all_isDigit_toDigits (n : Nat) : (Nat.toDigits 10 n).all Char.isDigit = true :=
  List.all_eq_true.mpr fun _ hc => Nat.isDigit_of_mem_toDigits (by decide) (by decide) hc

theorem toNat?_toDigits (n : Nat) : Decimal.toNat? (Nat.toDigits 10 n) = some n := by
  have hne : (Nat.toDigits 10 n).isEmpty = false := by simp [Nat.toDigits_ne_nil]
  rw [Decimal.toNat?, all_isDigit_toDigits, hne,
    Nat.ofDigitChars_toDigits (by decide) (by decide)]
  rfl

/-- A numeral without a sign denotes its number, if that fits. -/
theorem toInt64?_repr (n : Nat) : Decimal.toInt64? n.repr = Decimal.inRange? n := by
  have hdigit := List.all_eq_true.mp (all_isDigit_toDigits n)
  rw [Decimal.toInt64?, Nat.repr_eq_ofList_toDigits, String.toList_ofList]
  split
  · next h => exact absurd (hdigit '-' (by simp [h])) (by decide)
  · next h => exact absurd (hdigit '+' (by simp [h])) (by decide)
  · rw [toNat?_toDigits]
    rfl

theorem inRange?_toInt (v : Int64) : Decimal.inRange? v.toInt = some v := by
  rw [Decimal.inRange?, if_pos ⟨Int64.minValue_le_toInt v, Int64.toInt_le v⟩, Int64.ofInt_toInt]

theorem ofInt64_of_nonneg {v : Int64} (h : 0 ≤ v) :
    Decimal.ofInt64 v = v.toInt.natAbs.repr := by
  obtain ⟨n, hn⟩ := Int.eq_ofNat_of_zero_le (Int64.le_iff_toInt_le.mp h)
  rw [Decimal.ofInt64, hn]
  rfl

theorem ofInt64_of_neg {v : Int64} (h : v < 0) :
    Decimal.ofInt64 v = "-" ++ v.toInt.natAbs.repr := by
  obtain ⟨n, hn⟩ := Int.eq_negSucc_of_lt_zero (Int64.lt_iff_toInt_lt.mp h)
  rw [Decimal.ofInt64, hn]
  rfl

theorem inRange?_natAbs_of_nonneg {v : Int64} (h : 0 ≤ v) :
    Decimal.inRange? v.toInt.natAbs = some v := by
  rw [Int.natAbs_of_nonneg (Int64.le_iff_toInt_le.mp h), inRange?_toInt]

/-- An integer that is not negative is written as a numeral that denotes it. -/
theorem ofInt64_eq_repr {v : Int64} (h : 0 ≤ v) : ∃ n : Nat,
    Decimal.ofInt64 v = n.repr ∧ Decimal.toInt64? n.repr = some v :=
  ⟨_, ofInt64_of_nonneg h, by rw [toInt64?_repr, inRange?_natAbs_of_nonneg h]⟩

theorem leads_digits (hne : cs ≠ []) (h : cs.all Char.isDigit = true) :
    Leads Apart .integer cs := by
  cases cs with
  | nil => exact absurd rfl hne
  | cons c cs =>
    have hall : ∀ d ∈ c :: cs, isWordPart d = true := fun d hd =>
      isWordPart_of_isDigit (List.all_eq_true.mp h d hd)
    obtain ⟨hc, hcs⟩ := Bool.and_eq_true_iff.mp h
    have hpart := hall c List.mem_cons_self
    refine ⟨notMem_of_isWordPart hall, c, cs, rfl, not_isSeparator_of_isWordPart hpart,
      ne_of_isWordPart hpart rfl, fun rest hrest => ?_⟩
    rw [first_of_isDigit hc, takeWhile_append_of_all hcs hrest.isDigit,
      dropWhile_append_of_all hcs hrest.isDigit]

theorem scans_numeral (n : Nat) :
    Scans Apart (One fun t => t.kind = .integer ∧ t.lexeme = n.repr) n.repr.toList := by
  rw [Nat.repr_eq_ofList_toDigits, String.toList_ofList]
  exact (leads_digits Nat.toDigits_ne_nil (all_isDigit_toDigits n)).scans

/-! ## The text as a whole -/

/-- A line that goes on to the end of the text is the last one, unless it is empty. -/
theorem cutFrom_of_notMem {line : List Char} (h : '\n' ∉ cs) :
    Lines.cutFrom '\n' '\r' line cs =
      if (line.reverse ++ cs).isEmpty then [] else [line.reverse ++ cs] := by
  induction cs generalizing line with
  | nil => simp [Lines.cutFrom]
  | cons c cs ih =>
    have hc : c ≠ '\n' := fun hc => h (hc ▸ List.mem_cons_self)
    rw [Lines.cutFrom, if_neg hc, ih fun hcs => h (List.mem_cons_of_mem c hcs)]
    simp

/-- A text without a newline is one line, or none if it is empty. -/
theorem ofString_of_notMem {text : String} (h : '\n' ∉ text.toList) :
    Lines.ofString text = if text.toList.isEmpty then [] else [text] := by
  rw [Lines.ofString, Lines.cut, cutFrom_of_notMem h, List.reverse_nil, List.nil_append]
  cases text.toList.isEmpty with
  | true => rfl
  | false => simp

/-- A text without a newline is scanned as one line, even if it is empty. -/
theorem ofString_eq_ofLines {text : String} (h : '\n' ∉ text.toList) :
    Token.ofString text = Token.ofLines [text] := by
  rw [Token.ofString, ofString_of_notMem h]
  split
  · next hempty =>
    obtain rfl : text = "" := String.toList_injective (List.isEmpty_iff.mp hempty)
    simp [Token.ofLines, feed, feedLine, finish, scan_code_nil]
  · rfl

/-- The tokens of a line that opens no literal are followed by the mark of the end. -/
theorem ofLines_of_scan {line : String} {ts : List Token}
    (h : scan 0 0 .code line.toList = (ts, .code)) :
    Token.ofLines [line] = ts ++ [Token.endAt ⟨0, line.length⟩] := by
  simp [Token.ofLines, feed, feedLine, finish, h]

/-- The tokens of a text that is one piece are those of the piece and the mark of the end. -/
theorem Scans.ofString {text : String} (h : Scans Apart R text.toList) :
    ∃ ts mark, R ts ∧ mark.kind = .endOfInput ∧ Token.ofString text = ts ++ [mark] := by
  obtain ⟨ts, hts, hscan⟩ := h.scan 0 0 [] apart_nil
  rw [List.append_nil, scan_code_nil, List.append_nil] at hscan
  exact ⟨ts, Token.endAt ⟨0, text.length⟩, hts, rfl,
    (ofString_eq_ofLines h.oneLine).trans (ofLines_of_scan hscan)⟩

end Monkey.Scanner
