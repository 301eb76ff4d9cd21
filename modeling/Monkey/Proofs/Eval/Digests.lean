import Monkey.Proofs.Eval.HashLiteral
import Monkey.Proofs.Eval.Steps

/-!
# Keys and their digests

A hash tells keys apart by their digests, and the digests of integers and of booleans are as good as
the keys themselves. A string has a digest of 64 bits however long it is, so there are strings that
differ and have the same digest: a hash takes one for the other. Every step of the FNV-1a hash loses
nothing, neither of the hash before it nor of the byte that it mixes in, so such strings differ in
more than one byte.

## Main definitions

* `fnv1aStep` — how the hash of some bytes goes on with one more.
* `Collide` — that two strings differ and have one hash.
-/

namespace Monkey

open Eval

/-! ## The hash of some bytes -/

/-- The FNV-1a hash goes on with one more byte. -/
def fnv1aStep (hash : UInt64) (byte : UInt8) : UInt64 := (hash ^^^ byte.toUInt64) * 0x100000001b3

theorem fnv1a_append (xs ys : List UInt8) : fnv1a (xs ++ ys) = ys.foldl fnv1aStep (fnv1a xs) :=
  List.foldl_append

/-- The FNV prime is odd, so that multiplying by it loses nothing. -/
theorem mul_fnvPrime_inj {a b : UInt64} : a * 0x100000001b3 = b * 0x100000001b3 ↔ a = b := by
  constructor
  · intro h
    have hinverse : (0x100000001b3 : UInt64) * 0xce965057aff6957b = 1 := by decide
    have hcancel := congrArg (· * (0xce965057aff6957b : UInt64)) h
    simpa only [UInt64.mul_assoc, hinverse, UInt64.mul_one] using hcancel
  · rintro rfl
    rfl

theorem fnv1aStep_left_inj {a b : UInt64} (x : UInt8) :
    fnv1aStep a x = fnv1aStep b x ↔ a = b := by
  rw [fnv1aStep, fnv1aStep, mul_fnvPrime_inj, UInt64.xor_left_inj]

theorem fnv1aStep_right_inj (a : UInt64) {x y : UInt8} :
    fnv1aStep a x = fnv1aStep a y ↔ x = y := by
  rw [fnv1aStep, fnv1aStep, mul_fnvPrime_inj, UInt64.xor_right_inj, UInt8.toUInt64_inj]

/-- What comes after them does not bring two hashes together. -/
theorem foldl_fnv1aStep_inj {a b : UInt64} (xs : List UInt8) :
    xs.foldl fnv1aStep a = xs.foldl fnv1aStep b ↔ a = b := by
  induction xs generalizing a b with
  | nil => rfl
  | cons x xs ih => rw [List.foldl_cons, List.foldl_cons, ih, fnv1aStep_left_inj]

/-- Bytes that differ in one place have different hashes. -/
theorem fnv1a_middle_inj (xs zs : List UInt8) {x y : UInt8} :
    fnv1a (xs ++ x :: zs) = fnv1a (xs ++ y :: zs) ↔ x = y := by
  rw [fnv1a_append, fnv1a_append, List.foldl_cons, List.foldl_cons, foldl_fnv1aStep_inj,
    fnv1aStep_right_inj]

/-! ## Keys -/

/-- The strings differ, but their UTF-8 bytes have one hash. -/
def Collide (s t : String) : Prop :=
  s ≠ t ∧ fnv1a s.toUTF8.data.toList = fnv1a t.toUTF8.data.toList

variable {k l : Key} {s t : String}

/-- Strings that collide differ in more than one byte. -/
theorem Collide.ne_append {xs zs : List UInt8} {x y : UInt8} (h : Collide s t)
    (hs : s.toUTF8.data.toList = xs ++ x :: zs) : t.toUTF8.data.toList ≠ xs ++ y :: zs := by
  intro ht
  obtain ⟨hne, hhash⟩ := h
  rw [hs, ht, fnv1a_middle_inj] at hhash
  subst hhash
  have hbytes : s.toUTF8.data = t.toUTF8.data := Array.toList_inj.mp (hs.trans ht.symm)
  exact hne (String.toByteArray_inj.mp (ByteArray.ext hbytes))

namespace Key

/-- Keys have one digest only if they are one key, or strings that collide. -/
theorem digest_eq_iff : k.digest = l.digest ↔
    k = l ∨ ∃ s t, k = .string s ∧ l = .string t ∧ Collide s t := by
  constructor
  · intro h
    obtain ⟨hkind, hword⟩ := Digest.mk.inj h
    cases k <;> cases l <;> cases hkind
    case integer.integer.refl a b => exact .inl (congrArg (integer ∘ Int64.ofUInt64) hword)
    case boolean.boolean.refl a b =>
      refine .inl (congrArg boolean ?_)
      revert hword
      cases a <;> cases b <;> decide
    case string.string.refl s t =>
      by_cases hst : s = t
      · exact .inl (congrArg string hst)
      · exact .inr ⟨s, t, rfl, rfl, hst, hword⟩
  · rintro (rfl | ⟨s, t, rfl, rfl, -, hhash⟩)
    · rfl
    · exact congrArg (Digest.mk .string) hhash

/-- A hash with one pair holds its value at every key with the digest of its own. -/
theorem index_single (id : Identity) (v : Value) :
    (Value.hash id [(k, v)]).index (.ofKey l) = if k.digest = l.digest then v else .null := by
  rw [Value.index, Value.key?_ofKey]
  by_cases h : k.digest = l.digest <;> simp [Entries.find?, h]

/-- A hash literal with one pair is indexed where it stands. -/
theorem comesTo_index_single {e e' i : Expr} {here : FrameId} {m m₁ m₂ m₃ : Machine} {v : Value}
    (he : (Code.expr e).ComesTo here m (.ofKey k) m₁)
    (he' : (Code.expr e').ComesTo here m₁ v m₂) (hv : v.isError = false)
    (hi : (Code.expr i).ComesTo here m₂.another (.ofKey l) m₃) :
    (Code.expr (.index (.hash [(e, e')]) i)).ComesTo here m
      (if k.digest = l.digest then v else .null) m₃ := by
  obtain ⟨n₁, h₁⟩ := he.exists_forall_le
  obtain ⟨n₂, h₂⟩ := he'.exists_forall_le
  obtain ⟨n₃, h₃⟩ := hi.exists_forall_le
  -- with the sum of all three numbers of steps each part comes to its end
  let n := n₁ + n₂ + n₃
  have hkey : evalExpr n here e m = some (.ofKey k, m₁) := h₁ n (by omega)
  have hvalue : evalExpr n here e' m₁ = some (v, m₂) := h₂ n (by omega)
  have hindex : evalExpr (n + 1) here i m₂.another = some (.ofKey l, m₃) := h₃ (n + 1) (by omega)
  have hpairs : YieldsEntries (evalExpr n here) [(e, e')] m [(k, v)] m₂ :=
    .cons hkey hvalue hv (.nil m₂)
  have hhash : evalExpr (n + 1) here (.hash [(e, e')]) m =
      some (.hash m₂.made [(k, v)], m₂.another) := (Task.Creates.hash hpairs).run_eq
  refine ⟨n + 2, ?_⟩
  rw [Code.eval, evalExpr, andThen_eq hhash rfl, andThen_eq hindex (Value.isError_ofKey l),
    index_single]
  rfl

/-- Two keys have one digest just if they are one key, of one kind and with one value, or two
strings that collide, which differ in more than one byte. A hash literal with one pair, where it is
indexed, comes to the value of the pair if the key and the index have one digest, and to null
otherwise. -/
theorem digest_eq_iff_and_comesTo_index :
    (∀ k l : Key, k.digest = l.digest ↔
      k = l ∨ ∃ s t, k = .string s ∧ l = .string t ∧ Collide s t) ∧
    (∀ (s t : String) (xs zs : List UInt8) (x y : UInt8), Collide s t →
      s.toUTF8.data.toList = xs ++ x :: zs → t.toUTF8.data.toList ≠ xs ++ y :: zs) ∧
    ∀ (k l : Key) (v : Value) (e e' i : Expr) (here : FrameId) (m m₁ m₂ m₃ : Machine),
      (Code.expr e).ComesTo here m (.ofKey k) m₁ → (Code.expr e').ComesTo here m₁ v m₂ →
      v.isError = false → (Code.expr i).ComesTo here m₂.another (.ofKey l) m₃ →
      (Code.expr (.index (.hash [(e, e')]) i)).ComesTo here m
        (if k.digest = l.digest then v else .null) m₃ := by
  refine ⟨fun k l => digest_eq_iff, ?_, ?_⟩
  · intro s t xs zs x y h hs
    exact h.ne_append hs
  · intro k l v e e' i here m m₁ m₂ m₃ he he' hv hi
    exact comesTo_index_single he he' hv hi

/-- Two strings that collide: they are two keys, but a hash takes one for the other. -/
theorem digest_eq_of_collide :
    (Key.string "8yn0iYCKYHlIj4-BwPqk").digest = (Key.string "GReLUrM4wMqfg9yzV3KQ").digest ∧
    Key.string "8yn0iYCKYHlIj4-BwPqk" ≠ Key.string "GReLUrM4wMqfg9yzV3KQ" ∧
    (evalExpr 3 0 (.index (.hash [(.string "8yn0iYCKYHlIj4-BwPqk", .integer 1)])
      (.string "GReLUrM4wMqfg9yzV3KQ")) {}).map Prod.fst = some (.integer 1) :=
  ⟨by decide, by decide, rfl⟩

end Key

end Monkey
