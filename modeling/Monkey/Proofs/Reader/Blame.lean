import Monkey.Proofs.Reader.Course
import Monkey.Proofs.Token.Lossless

/-!
# Whom diagnostics blame

A diagnostic blames a token that is to come or one that has just been taken. So there are two moments
at which a token can be blamed, and reading passes them one after the other: nothing that is reported
later blames a token at an earlier moment. From this it follows in which order diagnostics stand, and
how often a token is blamed.

## Main definitions

* `Diagnostic.Blames` — that a diagnostic has the span of a token and speaks of it.
* `Cursor.at` — the cursor where a number of tokens have been taken from a stream.
* `Diagnostic.BlamedAt`, `Diagnostic.Placed` — at which moment a diagnostic blames, and that
  diagnostics blame at later and later moments.
-/

namespace Monkey

/-- The diagnostic has the span of the token, and what it calls the token is what the token is. -/
structure Diagnostic.Blames (d : Diagnostic) (t : Token) : Prop where
  span : d.span = t.span
  cause : match d.cause with
    | .expected _ got => got = t.kind
    | .noExpression got => got = t.kind
    | .notAnInteger lexeme => t.kind = .integer ∧ lexeme = t.lexeme

theorem Diagnostic.blames_unexpected (want : Token.Kind) (t : Token) :
    (unexpected want t).Blames t := ⟨rfl, rfl⟩

theorem Diagnostic.Cause.Refuses.blames {cause : Cause} {t : Token} (h : cause.Refuses t) :
    (⟨cause, t.span⟩ : Diagnostic).Blames t := by
  cases h with
  | noExpression => exact ⟨rfl, rfl⟩
  | notAnInteger hkind => exact ⟨rfl, hkind, rfl⟩

/-! ## Moments

The moment `2 * k` is the one at which `k` tokens have been taken and the next one can be blamed. At
the moment `2 * k + 1` that token has just been taken, and it can still be blamed. -/

/-- The cursor where `k` tokens of the stream have been taken. -/
def Cursor.at (tokens : List Token) (k : Nat) : Cursor :=
  ⟨tokens.drop k, (Cursor.ofTokens tokens).stop, k⟩

theorem Cursor.next_at (tokens : List Token) (k : Nat) :
    (Cursor.at tokens k).next = Cursor.at tokens (k + 1) := by
  simp [Cursor.at, Cursor.next]

namespace Diagnostic

variable {tokens : List Token} {d : Diagnostic} {ds es : List Diagnostic} {lo mid hi p k : Nat}

/-- The diagnostic blames at this moment. -/
inductive BlamedAt (tokens : List Token) : Nat → Diagnostic → Prop
  | ahead (k : Nat) (want : Token.Kind) :
      BlamedAt tokens (2 * k) (.unexpected want (Cursor.at tokens k).head)
  | refused (k : Nat) {cause : Cause} (hcause : cause.Refuses (Cursor.at tokens k).head) :
      BlamedAt tokens (2 * k + 1) ⟨cause, (Cursor.at tokens k).head.span⟩
  | unclosed (k : Nat) (hend : (Cursor.at tokens k).kind = .endOfInput) :
      BlamedAt tokens (2 * k + 1)
        (.unexpected (.symbol .rightBrace) (Cursor.at tokens k).head)

/-- The diagnostics blame at moments that come one after the other, from `lo` on and before `hi`. -/
inductive Placed (tokens : List Token) : Nat → List Diagnostic → Nat → Prop
  | nil {lo hi : Nat} (hle : lo ≤ hi) : Placed tokens lo [] hi
  | cons {lo p hi : Nat} {d : Diagnostic} {ds : List Diagnostic} (hle : lo ≤ p)
      (hd : BlamedAt tokens p d) (hds : Placed tokens (p + 1) ds hi) : Placed tokens lo (d :: ds) hi

/-- The token that is blamed is told by the moment. -/
theorem BlamedAt.blames (h : BlamedAt tokens p d) : d.Blames (Cursor.at tokens (p / 2)).head := by
  have hodd (k : Nat) : (2 * k + 1) / 2 = k := by omega
  cases h with
  | ahead k want =>
    rw [Nat.mul_div_cancel_left k (by decide)]
    exact blames_unexpected want _
  | refused k hcause =>
    rw [hodd]
    exact hcause.blames
  | unclosed k =>
    rw [hodd]
    exact blames_unexpected _ _

theorem Placed.weaken (h : Placed tokens mid ds hi) (hle : lo ≤ mid) : Placed tokens lo ds hi := by
  cases h with
  | nil hle' => exact .nil (Nat.le_trans hle hle')
  | cons hle' hd hds => exact .cons (Nat.le_trans hle hle') hd hds

theorem Placed.append (h : Placed tokens lo ds mid) (h' : Placed tokens mid es hi) :
    Placed tokens lo (ds ++ es) hi := by
  induction h with
  | nil hle => exact h'.weaken hle
  | cons hle hd _ ih => exact .cons hle hd (ih h')

theorem Placed.mono (h : Placed tokens lo ds mid) (hle : mid ≤ hi) : Placed tokens lo ds hi := by
  simpa using h.append (.nil hle)

theorem BlamedAt.placed (h : BlamedAt tokens p d) : Placed tokens p [d] (p + 1) :=
  .cons (Nat.le_refl p) h (.nil (Nat.le_refl _))

theorem Placed.filter (h : Placed tokens lo ds hi) (keep : Diagnostic → Bool) :
    Placed tokens lo (ds.filter keep) hi := by
  induction h with
  | nil hle => exact .nil hle
  | @cons lo p hi d ds hle hd _ ih =>
    rw [List.filter_cons]
    split
    · exact .cons hle hd ih
    · exact ih.weaken (by omega)

end Diagnostic

open Cursor Diagnostic

/-! ## Attempts -/

/-- The cursor stands in the stream, at the place that its number of tokens tells. -/
def Cursor.StandsIn (tokens : List Token) (c : Cursor) : Prop := c = Cursor.at tokens c.taken

/-- What the attempt reports blames after its first token has been taken, and at moments up to the
one where it leaves. -/
def Attempt.IsPlaced (tokens : List Token) (a : Attempt) : Prop :=
  a.start.StandsIn tokens → ∀ rest, a.outcome.rest? = some rest →
    rest.StandsIn tokens ∧
      Placed tokens (2 * a.start.taken + 1) a.diagnostics (2 * rest.taken + 1)

section Attempts

variable {tokens : List Token} {c rest : Cursor} {as : List Attempt}

theorem Cursor.StandsIn.next (h : c.StandsIn tokens) : c.next.StandsIn tokens := by
  rw [StandsIn] at h ⊢
  rw [h, next_at]
  rfl

theorem Attempts.placed (h : Attempts c as rest) (has : ∀ a ∈ as, a.IsPlaced tokens)
    (hc : c.StandsIn tokens) : rest.StandsIn tokens ∧
      Placed tokens (2 * c.taken + 1) (as.flatMap Attempt.diagnostics) (2 * rest.taken + 1) := by
  induction h with
  | nil c => exact ⟨hc, .nil (Nat.le_refl _)⟩
  | @cons n c mid rest as _ hmid _ ih =>
    obtain ⟨ha, has⟩ := List.forall_mem_cons.mp has
    obtain ⟨hmid, hfirst⟩ := ha hc mid hmid
    obtain ⟨hrest, hlater⟩ := ih has hmid
    exact ⟨hrest, hfirst.append hlater⟩

theorem Path.placed (h : Path c as rest) (has : ∀ a ∈ as, a.IsPlaced tokens)
    (hc : c.StandsIn tokens) : rest.StandsIn tokens ∧
      Placed tokens (2 * c.taken) (as.flatMap Attempt.diagnostics) (2 * rest.taken) := by
  induction h with
  | refl c => exact ⟨hc, .nil (Nat.le_refl _)⟩
  | token _ _ ih =>
    obtain ⟨hrest, hlater⟩ := ih has hc.next
    exact ⟨hrest, hlater.weaken (by rw [taken_next]; omega)⟩
  | @block c mid rest as bs hmid _ _ ih =>
    obtain ⟨has, hbs⟩ := List.forall_mem_append.mp has
    obtain ⟨hmid, hblock⟩ := hmid.placed has hc
    obtain ⟨hrest, hlater⟩ := ih hbs hmid.next
    -- the token that closes the block has been taken, and it is not blamed
    have hblock' := hblock.weaken (Nat.le_succ (2 * c.taken))
    rw [List.flatMap_append]
    exact ⟨hrest, hblock'.append (hlater.weaken (by rw [taken_next]; omega))⟩

theorem Breaks.placed {d : Diagnostic} (h : Breaks c as d rest)
    (has : ∀ a ∈ as, a.IsPlaced tokens) (hc : c.StandsIn tokens) : rest.StandsIn tokens ∧
      Placed tokens (2 * c.taken) (as.flatMap Attempt.diagnostics ++ [d]) (2 * rest.taken + 1) := by
  cases h with
  | expected h want =>
    obtain ⟨hrest, hbefore⟩ := h.placed has hc
    have hd : BlamedAt tokens (2 * rest.taken) (.unexpected want rest.head) := by
      rw [hrest]
      exact .ahead rest.taken want
    exact ⟨hrest, hbefore.append hd.placed⟩
  | @refused _ mid cause h hcause =>
    obtain ⟨hmid, hbefore⟩ := h.placed has hc
    have hd : BlamedAt tokens (2 * mid.taken + 1) ⟨cause, mid.head.span⟩ := by
      rw [hmid] at hcause ⊢
      exact .refused mid.taken hcause
    refine ⟨hmid.next, hbefore.append ((hd.placed.weaken (Nat.le_succ _)).mono ?_)⟩
    rw [taken_next]
    omega
  | @unclosed as bs mid last h hbs hend =>
    obtain ⟨has, hbs'⟩ := List.forall_mem_append.mp has
    obtain ⟨hmid, hbefore⟩ := h.placed has hc
    obtain ⟨hlast, hblock⟩ := hbs.placed hbs' hmid
    have hd : BlamedAt tokens (2 * last.taken + 1)
        (.unexpected (.symbol .rightBrace) last.head) := by
      rw [hlast] at hend ⊢
      exact .unclosed last.taken hend
    rw [List.flatMap_append]
    refine ⟨hlast.next, (hbefore.append (hblock.weaken (Nat.le_succ _))).append ?_⟩
    exact hd.placed.mono (by rw [taken_next]; omega)

theorem Course.Taking.placed {α : Type} {o : Outcome α} (h : Taking c as o)
    (has : ∀ a ∈ as, a.IsPlaced tokens) (hc : c.StandsIn tokens) (hrest : o.rest? = some rest) :
    rest.StandsIn tokens ∧ Placed tokens (2 * c.taken + 1)
      (as.flatMap Attempt.diagnostics ++ o.diagnostics) (2 * rest.taken + 1) := by
  cases h with
  | token hkind h =>
    have hle : 2 * c.taken + 1 ≤ 2 * c.next.taken := by rw [taken_next]; omega
    cases h with
    | done h a =>
      cases hrest
      obtain ⟨hrest, hbefore⟩ := h.placed has hc.next
      refine ⟨hrest, ?_⟩
      rw [Outcome.diagnostics, List.append_nil]
      exact (hbefore.weaken hle).mono (Nat.le_succ _)
    | failed h =>
      cases hrest
      obtain ⟨hrest, hbefore⟩ := h.placed has hc.next
      exact ⟨hrest, hbefore.weaken hle⟩
    | exhausted => cases hrest
  | @refused cause hcause =>
    cases hrest
    have hd : BlamedAt tokens (2 * c.taken + 1) ⟨cause, c.head.span⟩ := by
      rw [hc] at hcause ⊢
      exact .refused c.taken hcause
    exact ⟨hc.next, hd.placed.mono (by rw [taken_next]; omega)⟩
  | exhausted => cases hrest

end Attempts

theorem Attempt.isPlaced (tokens : List Token) (a : Attempt) : a.IsPlaced tokens := by
  refine Attempt.induction (fun a as o hcourse houtcome hinner hstart rest hrest => ?_) a
  have ho : o.rest? = some rest := by rw [← hrest, houtcome, Outcome.rest?_after]
  obtain ⟨hrest', hplaced⟩ := hcourse.placed hinner hstart ho
  refine ⟨hrest', ?_⟩
  rw [diagnostics, houtcome, Outcome.diagnostics_after]
  · exact hplaced
  · rintro rfl
    cases ho

namespace Program

/-- The diagnostics of a stream blame at moments that come one after the other. -/
theorem placed (tokens : List Token) : ∃ hi, Placed tokens 0 (ofTokens tokens).2 hi := by
  obtain ⟨as, has, -, hmakes, -⟩ := exists_attempts (Cursor.ofTokens tokens)
  obtain ⟨-, h⟩ := has.placed (fun a _ => a.isPlaced tokens) rfl
  rw [← hmakes.reports_eq] at h
  exact ⟨_, h.weaken (Nat.zero_le _)⟩

end Program

/-! ## Texts -/

/-- The tokens begin one after the other, and the last of them is the only mark of the end. -/
structure Token.EndMarked (tokens : List Token) : Prop where
  ordered : tokens.Pairwise fun t u => t.span.start < u.span.start
  last : ∃ ts l, tokens = ts ++ [Token.endAt l] ∧ ∀ t ∈ ts, t.kind ≠ .endOfInput

theorem Token.endMarked_of_lossless {lines : List String} {ts : List Token}
    (h : Scanner.Lossless lines ts) :
    EndMarked (ts ++ [Token.endAt (Location.endOf lines)]) := by
  refine ⟨List.pairwise_append.mpr ⟨?_, by simp, fun t ht u hu => ?_⟩, ts, _, rfl, h.unmarked⟩
  · exact h.ordered.imp_of_mem fun {t u} ht _ hle => lt_of_lt_of_le (h.nonempty t ht) hle
  · rw [List.mem_singleton.mp hu]
    exact lt_of_lt_of_le (h.nonempty t ht) (h.within t ht).2.le_endOf

/-- The tokens of a text begin one after the other, and the mark of the end comes last. -/
theorem Token.endMarked_ofString (text : String) : EndMarked (Token.ofString text) := by
  let lines := Text.Lines.ofString text
  have htracks : Scanner.Tracks lines lines.length (({} : Scanner).feed lines) :=
    @Scanner.Tracks.feed _ [] lines (Scanner.tracks_start lines)
  have hstop := htracks.stop
  have haccounts := htracks.accounts
  rw [List.take_length] at hstop
  change EndMarked (({} : Scanner).feed lines).finish
  rw [Scanner.finish, hstop]
  cases hmode : (({} : Scanner).feed lines).mode with
  | code =>
    rw [hmode] at haccounts
    simpa using endMarked_of_lossless haccounts.lossless
  | literal start text =>
    rw [hmode] at haccounts
    exact endMarked_of_lossless haccounts.lossless_of_literal

namespace Token.EndMarked

variable {tokens : List Token} {t : Token} {j k : Nat}

/-- Past the last token of a stream stands nothing else but the mark that comes last in it. -/
theorem getElem?_min (h : EndMarked tokens) (k : Nat) :
    tokens[min k (tokens.length - 1)]? = some (Cursor.at tokens k).head := by
  obtain ⟨-, ts, l, rfl, -⟩ := h
  rw [List.length_append, List.length_singleton, Nat.add_sub_cancel]
  rcases Nat.lt_or_ge ts.length k with hlt | hle
  · have hdrop : (ts ++ [endAt l]).drop k = [] :=
      List.drop_eq_nil_of_le (by rw [List.length_append]; exact hlt)
    rw [Nat.min_eq_right (Nat.le_of_lt hlt), List.getElem?_concat_length, Cursor.head, Cursor.at,
      hdrop]
    simp [Cursor.ofTokens, Token.endAt]
  · have hget : k < (ts ++ [endAt l]).length := by simpa using Nat.lt_succ_of_le hle
    rw [Nat.min_eq_left hle, List.getElem?_eq_getElem hget]
    simp [Cursor.at, Cursor.head, List.head?_drop, List.getElem?_eq_getElem hget]

theorem head_mem (h : EndMarked tokens) (k : Nat) : (Cursor.at tokens k).head ∈ tokens :=
  List.mem_of_getElem? (h.getElem?_min k)

/-- What is read later begins no earlier. -/
theorem start_head_le (h : EndMarked tokens) (hle : j ≤ k) :
    (Cursor.at tokens j).head.span.start ≤ (Cursor.at tokens k).head.span.start := by
  obtain ⟨hj, hgetj⟩ := List.getElem?_eq_some_iff.mp (h.getElem?_min j)
  obtain ⟨hk, hgetk⟩ := List.getElem?_eq_some_iff.mp (h.getElem?_min k)
  rw [← hgetj, ← hgetk]
  rcases Nat.lt_or_ge (min j (tokens.length - 1)) (min k (tokens.length - 1)) with hlt | hge
  · exact le_of_lt (List.pairwise_iff_getElem.mp h.ordered _ _ hj hk hlt)
  · have : min j (tokens.length - 1) = min k (tokens.length - 1) := by omega
    simp only [this, le_refl]

/-- Whatever is no mark of the end stands before the mark. -/
theorem lt_of_getElem? (h : EndMarked tokens) (hk : tokens[k]? = some t)
    (hkind : t.kind ≠ .endOfInput) : k < tokens.length - 1 := by
  obtain ⟨hlt, hget⟩ := List.getElem?_eq_some_iff.mp hk
  obtain ⟨-, ts, l, rfl, -⟩ := h
  rw [List.length_append, List.length_singleton] at hlt ⊢
  by_contra hge
  obtain rfl : k = ts.length := by omega
  rw [List.getElem_concat_length rfl] at hget
  exact hkind (by rw [← hget]; rfl)

theorem head_at (h : EndMarked tokens) (hk : tokens[k]? = some t)
    (hkind : t.kind ≠ .endOfInput) : (Cursor.at tokens k).head = t := by
  have hget := h.getElem?_min k
  rw [Nat.min_eq_left (Nat.le_of_lt (h.lt_of_getElem? hk hkind)), hk] at hget
  exact (Option.some.inj hget).symm

/-- A token that is no mark of the end is at one place of the stream alone. -/
theorem eq_of_span_head (h : EndMarked tokens) (hk : tokens[k]? = some t)
    (hkind : t.kind ≠ .endOfInput) (hspan : (Cursor.at tokens j).head.span = t.span) : j = k := by
  have hlast := h.lt_of_getElem? hk hkind
  obtain ⟨hlt, hget⟩ := List.getElem?_eq_some_iff.mp hk
  obtain ⟨hj, hgetj⟩ := List.getElem?_eq_some_iff.mp (h.getElem?_min j)
  have hordered := List.pairwise_iff_getElem.mp h.ordered
  have hstart : tokens[min j (tokens.length - 1)].span.start = tokens[k].span.start := by
    rw [hgetj, hget, hspan]
  rcases Nat.lt_trichotomy (min j (tokens.length - 1)) k with hlt' | heq | hgt
  · exact absurd (hordered _ _ hj hlt hlt') (by rw [hstart]; exact lt_irrefl _)
  · omega
  · exact absurd (hordered _ _ hlt hj hgt) (by rw [hstart]; exact lt_irrefl _)

end Token.EndMarked

namespace Diagnostic.Placed

variable {tokens : List Token} {t : Token} {d e : Diagnostic} {ds : List Diagnostic}
  {lo hi k : Nat}

theorem exists_blamedAt (h : Placed tokens lo ds hi) (hd : d ∈ ds) :
    ∃ p, lo ≤ p ∧ BlamedAt tokens p d := by
  induction h with
  | nil => cases hd
  | @cons lo p hi _ ds hle hhead _ ih =>
    rcases List.mem_cons.mp hd with rfl | hd
    · exact ⟨p, hle, hhead⟩
    · obtain ⟨q, hlt, hq⟩ := ih hd
      exact ⟨q, by omega, hq⟩

theorem add_length_le (h : Placed tokens lo ds hi) : lo + ds.length ≤ hi := by
  induction h with
  | nil hle => exact hle
  | cons _ _ _ ih =>
    rw [List.length_cons]
    omega

/-- Diagnostics at later and later moments stand in the order of the text. -/
theorem pairwise_start_le (h : Placed tokens lo ds hi) (htokens : Token.EndMarked tokens) :
    ds.Pairwise fun d e => d.span.start ≤ e.span.start := by
  induction h with
  | nil => exact .nil
  | @cons lo p hi d ds _ hd hds ih =>
    refine .cons (fun e he => ?_) ih
    obtain ⟨q, hle, hq⟩ := hds.exists_blamedAt he
    rw [hd.blames.span, hq.blames.span]
    exact htokens.start_head_le (by omega)

/-- Diagnostics that all blame the token at one place blame it at the two moments it has. -/
theorem narrow (h : Placed tokens lo ds hi) (hlo : lo ≤ 2 * k + 2)
    (hds : ∀ d ∈ ds, ∀ p, BlamedAt tokens p d → p / 2 = k) :
    Placed tokens (max lo (2 * k)) ds (2 * k + 2) := by
  induction h with
  | nil => exact .nil (by omega)
  | @cons lo p hi d ds hle hd _ ih =>
    obtain ⟨hhead, hds⟩ := List.forall_mem_cons.mp hds
    have hp := hhead p hd
    exact .cons (by omega) hd ((ih (by omega) hds).weaken (by omega))

end Diagnostic.Placed

/-- At the first moment of a token another one was due. -/
theorem Diagnostic.BlamedAt.eq_unexpected {tokens : List Token} {d : Diagnostic} {k : Nat}
    (h : BlamedAt tokens (2 * k) d) :
    ∃ want, d = .unexpected want (Cursor.at tokens k).head := by
  generalize hp : 2 * k = p at h
  cases h with
  | ahead j want =>
    obtain rfl : k = j := by omega
    exact ⟨want, rfl⟩
  | refused | unclosed => omega

namespace Program

/-- The diagnostics of a text stand in the order of the text. Each has the span of a token and speaks
of what that token is, and a token that is not the mark of the end is blamed at most twice, the first
time for standing where another one is due. -/
theorem ofString_blames (text : String) :
    ((ofString text).2.Pairwise fun d e => d.span.start ≤ e.span.start) ∧
    (∀ d ∈ (ofString text).2, ∃ t ∈ Token.ofString text, d.Blames t) ∧
    ∀ t ∈ Token.ofString text, t.kind ≠ .endOfInput →
      ((ofString text).2.filter (·.span = t.span)).length ≤ 2 ∧
      ∀ d e, (ofString text).2.filter (·.span = t.span) = [d, e] →
        ∃ want, d.cause = .expected want t.kind := by
  have htokens := Token.endMarked_ofString text
  obtain ⟨hi, hplaced⟩ : ∃ hi, Placed (Token.ofString text) 0 (ofString text).2 hi :=
    placed (Token.ofString text)
  refine ⟨hplaced.pairwise_start_le htokens, fun d hd => ?_, fun t ht hkind => ?_⟩
  · obtain ⟨p, -, hp⟩ := hplaced.exists_blamedAt hd
    exact ⟨_, htokens.head_mem (p / 2), hp.blames⟩
  · obtain ⟨k, hk⟩ := List.mem_iff_getElem?.mp ht
    -- whatever has the span of the token blames at one of the two moments of the token
    have hmoment : ∀ d ∈ (ofString text).2.filter (·.span = t.span), ∀ p,
        BlamedAt (Token.ofString text) p d → p / 2 = k := fun d hd p hp =>
      htokens.eq_of_span_head hk hkind (by simpa [hp.blames.span] using (List.mem_filter.mp hd).2)
    have hnarrow := (hplaced.filter _).narrow (Nat.zero_le _) hmoment
    rw [Nat.zero_max] at hnarrow
    refine ⟨by have := hnarrow.add_length_le; omega, fun d e hde => ?_⟩
    rw [hde] at hnarrow
    cases hnarrow with
    | @cons _ p _ _ _ hle hd hds =>
      obtain rfl : p = 2 * k := by have := hds.add_length_le; simp at this; omega
      obtain ⟨want, rfl⟩ := hd.eq_unexpected
      exact ⟨want, by rw [htokens.head_at hk hkind]; rfl⟩

end Program

end Monkey
