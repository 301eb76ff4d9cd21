import Monkey.Value.Kind

/-!
# Keys of hashes

Integers, booleans and strings can be keys. A hash tells keys apart by their digests, a kind and a
word of 64 bits: the word of an integer is its two's complement, and the word of a string is the
FNV-1a hash of its UTF-8 bytes. So keys of different kinds never meet, integers and booleans meet
only themselves, and two strings meet when their hashes do.

## Main definitions

* `Key` — what can be a key.
* `fnv1a` — the FNV-1a hash with 64 bits.
* `Key.digest` — how a hash sees a key.
* `Entries` — the contents of a hash, with `Entries.find?` and `Entries.insert`.
-/

namespace Monkey

/-- What can be a key of a hash. -/
inductive Key where
  | integer (v : Int64)
  | boolean (b : Bool)
  | string (s : String)
deriving DecidableEq, Repr, Inhabited

/-- The FNV-1a hash of a list of bytes, with 64 bits: each byte is mixed in by exclusive or, and
then the hash is multiplied by the FNV prime. -/
def fnv1a (bytes : List UInt8) : UInt64 :=
  bytes.foldl (fun hash byte => (hash ^^^ byte.toUInt64) * 0x100000001b3) 0xcbf29ce484222325

/-- How a hash sees a key: keys with one digest are one key to it. -/
structure Digest where
  kind : Value.Kind
  word : UInt64
deriving DecidableEq, Repr, Inhabited

namespace Key

/-- The kind of value that a key is. -/
def kind : Key → Value.Kind
  | integer _ => .integer
  | boolean _ => .boolean
  | string _ => .string

/-- The word by which keys of one kind are told apart. -/
def word : Key → UInt64
  | integer v => v.toUInt64
  | boolean b => cond b 1 0
  | string s => fnv1a s.toUTF8.data.toList

/-- How a hash sees a key. -/
def digest (k : Key) : Digest := ⟨k.kind, k.word⟩

end Key

/-- The contents of a hash, each key with what it leads to, in the order in which the keys were
first inserted. -/
abbrev Entries (α : Type) := List (Key × α)

namespace Entries

variable {α : Type}

/-- What the key with this digest leads to. -/
def find? (entries : Entries α) (d : Digest) : Option α :=
  (List.find? (fun e => e.1.digest = d) entries).map Prod.snd

/-- Let `k` lead to `a`. A key with the same digest gives way, and its place is kept. -/
def insert (entries : Entries α) (k : Key) (a : α) : Entries α :=
  match entries with
  | [] => [(k, a)]
  | e :: rest => if e.1.digest = k.digest then (k, a) :: rest else e :: insert rest k a

@[simp] theorem find?_nil (d : Digest) : find? ([] : Entries α) d = none := rfl

/-- An insertion changes what its own digest leads to, and nothing else. -/
theorem find?_insert (entries : Entries α) (k : Key) (a : α) (d : Digest) :
    (entries.insert k a).find? d = if k.digest = d then some a else entries.find? d := by
  induction entries with
  | nil => by_cases h : k.digest = d <;> simp [insert, find?, h]
  | cons e rest ih =>
    unfold insert
    by_cases he : e.1.digest = k.digest
    · by_cases h : k.digest = d <;> simp [find?, he, h]
    · rw [if_neg he]
      by_cases hd : e.1.digest = d
      · have : ¬ k.digest = d := fun h => he (hd.trans h.symm)
        simp [find?, hd, this]
      · simpa [find?, hd] using ih

end Entries

end Monkey
