import Mathlib.Data.List.Dedup
import Monkey.Proofs.Eval.LastAct

/-!
# Hash literals

A hash keeps one pair for each digest, and among the pairs of a literal that is the last one: its
key is the key of the entry, and its value is what the hash holds at any index with the digest.

## Main definitions

* `Entries.IsLast` — that a pair is the last one with its digest.
* `Entries.KeepsLast` — that a hash keeps the last pair for each digest.
-/

namespace Monkey

open Eval

namespace Entries

/-- The pair is the last one of `es` with its digest. -/
def IsLast (es : List (Key × Value)) (e : Key × Value) : Prop :=
  ∃ before after, es = before ++ e :: after ∧ ∀ e' ∈ after, e'.1.digest ≠ e.1.digest

/-- No two entries have the same digest. -/
def Distinct (entries : Entries Value) : Prop := (entries.map fun e => e.1.digest).Nodup

variable {entries : Entries Value} {es : List (Key × Value)} {e : Key × Value}

theorem isLast_cons_iff {e' : Key × Value} :
    IsLast (e' :: es) e ↔ IsLast es e ∨ e = e' ∧ ∀ e'' ∈ es, e''.1.digest ≠ e.1.digest := by
  constructor
  · rintro ⟨before, after, hes, hafter⟩
    cases before with
    | nil =>
      cases hes
      exact .inr ⟨rfl, hafter⟩
    | cons d before =>
      cases hes
      exact .inl ⟨before, after, rfl, hafter⟩
  · rintro (⟨before, after, rfl, hafter⟩ | ⟨rfl, hes⟩)
    · exact ⟨e' :: before, after, rfl, hafter⟩
    · exact ⟨[], es, rfl, hes⟩

theorem IsLast.mem (h : IsLast es e) : e ∈ es := by
  obtain ⟨before, after, rfl, -⟩ := h
  exact List.mem_append_right before List.mem_cons_self

theorem distinct_cons_iff {c : Key × Value} :
    Distinct (c :: entries) ↔ (∀ e ∈ entries, e.1.digest ≠ c.1.digest) ∧ Distinct entries := by
  simp [Distinct]

/-- Among entries that are told apart, an insertion replaces just the one with its digest. -/
theorem mem_insert_iff (h : entries.Distinct) {k : Key} {v : Value} :
    e ∈ entries.insert k v ↔ e = (k, v) ∨ e ∈ entries ∧ e.1.digest ≠ k.digest := by
  induction entries with
  | nil => simp [insert]
  | cons c entries ih =>
    obtain ⟨hc, hentries⟩ := distinct_cons_iff.mp h
    unfold insert
    split
    case isTrue hsame =>
      have hothers : e ∈ entries → e.1.digest ≠ k.digest := fun he => hsame ▸ hc e he
      grind
    case isFalse hother =>
      rw [List.mem_cons, ih hentries, List.mem_cons]
      grind

theorem Distinct.insert (h : entries.Distinct) (k : Key) (v : Value) :
    (entries.insert k v).Distinct := by
  induction entries with
  | nil => exact List.nodup_singleton _
  | cons c entries ih =>
    obtain ⟨hc, hentries⟩ := distinct_cons_iff.mp h
    unfold Entries.insert
    split
    case isTrue hsame => exact distinct_cons_iff.mpr ⟨fun e he => hsame ▸ hc e he, hentries⟩
    case isFalse hother =>
      refine distinct_cons_iff.mpr ⟨fun e he => ?_, ih hentries⟩
      rcases mem_of_mem_insert he with he | rfl
      · exact hc e he
      · exact Ne.symm hother

theorem Distinct.insertAll (h : entries.Distinct) (es : List (Key × Value)) :
    (entries.insertAll es).Distinct := by
  induction es generalizing entries with
  | nil => exact h
  | cons e es ih => exact ih (h.insert e.1 e.2)

/-- What remains after several insertions is the last of them with each digest, and the entries
whose digest has none. -/
theorem mem_insertAll_iff (h : entries.Distinct) :
    e ∈ entries.insertAll es ↔
      IsLast es e ∨ e ∈ entries ∧ ∀ e' ∈ es, e'.1.digest ≠ e.1.digest := by
  induction es generalizing entries with
  | nil => simp [insertAll, IsLast]
  | cons e' es ih =>
    change e ∈ (entries.insert e'.1 e'.2).insertAll es ↔ _
    rw [ih (h.insert e'.1 e'.2), mem_insert_iff h, isLast_cons_iff, List.forall_mem_cons]
    grind

theorem Distinct.find?_eq (h : entries.Distinct) (he : e ∈ entries) :
    entries.find? e.1.digest = some e.2 := by
  induction entries with
  | nil => cases he
  | cons c entries ih =>
    obtain ⟨hc, hentries⟩ := distinct_cons_iff.mp h
    rcases List.mem_cons.mp he with rfl | he
    · simp [find?]
    · simpa [find?, Ne.symm (hc e he)] using ih hentries he

/-- A digest that pairs have is that of a last one. -/
theorem exists_isLast (he : e ∈ es) : ∃ e', IsLast es e' ∧ e'.1.digest = e.1.digest := by
  induction es generalizing e with
  | nil => cases he
  | cons c es ih =>
    -- Either a pair further on has the digest as well, or this one is the last.
    by_cases hlater : ∃ d ∈ es, d.1.digest = e.1.digest
    · obtain ⟨d, hd, hdigest⟩ := hlater
      obtain ⟨e', hlast, hdigest'⟩ := ih hd
      exact ⟨e', isLast_cons_iff.mpr (.inl hlast), hdigest'.trans hdigest⟩
    · rcases List.mem_cons.mp he with rfl | he
      · exact ⟨e, isLast_cons_iff.mpr (.inr ⟨rfl, by simpa using hlater⟩), rfl⟩
      · exact absurd ⟨e, he, rfl⟩ hlater

/-- The entries are those of a hash that keeps, for each digest, the last pair of `es` with it. -/
structure KeepsLast (entries : Entries Value) (es : List (Key × Value)) : Prop where
  /-- What is stored are the last pairs, both the keys and the values. -/
  mem_iff : ∀ e, e ∈ entries ↔ IsLast es e
  /-- There are as many entries as digests. -/
  length_eq : entries.length = (es.map fun e => e.1.digest).dedup.length
  index_last : ∀ {id v k e}, v.key? = some k → IsLast es e → e.1.digest = k.digest →
    (Value.hash id entries).index v = e.2
  index_none : ∀ {id v k}, v.key? = some k → (∀ e ∈ es, e.1.digest ≠ k.digest) →
    (Value.hash id entries).index v = .null

/-- Several insertions into no entries keep the last pairs. -/
theorem keepsLast_insertAll (es : List (Key × Value)) : KeepsLast (insertAll [] es) es := by
  have hnil : Distinct [] := List.nodup_nil
  have hdistinct : Distinct (insertAll [] es) := hnil.insertAll es
  have hmem (e : Key × Value) : e ∈ insertAll [] es ↔ IsLast es e := by
    simp [mem_insertAll_iff hnil]
  constructor
  case mem_iff => exact hmem
  case length_eq =>
    have hperm : ((insertAll [] es).map fun e => e.1.digest).Perm
        (es.map fun e => e.1.digest).dedup := by
      refine (List.perm_ext_iff_of_nodup hdistinct (List.nodup_dedup _)).mpr fun d => ?_
      rw [List.mem_dedup, List.mem_map, List.mem_map]
      constructor
      · rintro ⟨e, he, rfl⟩
        exact ⟨e, ((hmem e).mp he).mem, rfl⟩
      · rintro ⟨e, he, rfl⟩
        obtain ⟨e', hlast, hdigest⟩ := exists_isLast he
        exact ⟨e', (hmem e').mpr hlast, hdigest⟩
    rw [← hperm.length_eq, List.length_map]
  case index_last =>
    intro id v k e hv hlast hdigest
    have hfind := hdistinct.find?_eq ((hmem e).mpr hlast)
    simp only [Value.index, hv, ← hdigest, hfind, Option.getD_some]
  case index_none =>
    intro id v k hv hnone
    have hfind : find? (insertAll [] es) k.digest = none := by
      rw [find?, Option.map_eq_none_iff, List.find?_eq_none]
      intro e he
      simpa using hnone e ((hmem e).mp he).mem
    simp only [Value.index, hv, hfind, Option.getD_none]

-- Keys of two kinds are told apart although they have one word.
example : insertAll [] [(.integer 1, .null), (.boolean true, .null), (.integer 1, .boolean true)] =
    [(.integer 1, .boolean true), (.boolean true, .null)] := rfl

end Entries

/-- A hash literal comes to a hash that keeps the last pair for each digest, if all its keys can be
keys and none of its parts is an error. Otherwise it comes to the error of the first pair that
fails, and what comes after that pair does not matter. -/
theorem evalExpr_hash (n : Nat) (here : FrameId) (pairs : List (Expr × Expr)) (m : Machine) :
    (∀ es m₁, YieldsEntries (evalExpr n here) pairs m es m₁ → ∃ entries : Entries Value,
      evalExpr (n + 1) here (.hash pairs) m = some (.hash m₁.made entries, m₁.another) ∧
      entries.KeepsLast es) ∧
    (∀ before e e' es m₁ v m₂, YieldsEntries (evalExpr n here) before m es m₁ →
      PairFails (evalExpr n here) e e' m₁ v m₂ → ∀ after,
      evalExpr (n + 1) here (.hash (before ++ (e, e') :: after)) m = some (v, m₂)) ∧
    ∀ v m', evalExpr (n + 1) here (.hash pairs) m = some (v, m') →
      (∃ es m₁, YieldsEntries (evalExpr n here) pairs m es m₁) ∨
      ∃ before e e' after es m₁, pairs = before ++ (e, e') :: after ∧
        YieldsEntries (evalExpr n here) before m es m₁ ∧
        PairFails (evalExpr n here) e e' m₁ v m' := by
  refine ⟨fun es m₁ hes => ?_, fun before e e' es m₁ v m₂ hbefore hfails after => ?_,
    fun v m' h => ?_⟩
  · exact ⟨_, (Task.Creates.hash hes).run_eq, Entries.keepsLast_insertAll es⟩
  · rw [evalExpr.eq_def]
    dsimp only
    rw [hbefore.withEntries_append, hfails.withEntries_eq]
  · rw [evalExpr.eq_def] at h
    rcases exists_of_withEntries h with hfails | ⟨es, m₁, hes, -⟩
    · exact .inr hfails
    · exact .inl ⟨es, m₁, hes⟩

end Monkey
