import Mathlib.Data.Nat.Notation
import Mathlib.Logic.Basic
import Mathlib.Tactic.Lemma

/-!
Ideal authenticated encryption.

A blob remembers the key it was sealed under, its associated data and its plaintext; only
the same key with the same associated data opens it. A blob that nobody sealed opens under
no key. Keys are derived from keys, for one purpose each, and never collide.
-/

namespace Vautr.Crypto

/-- A 32-byte key: a master key or a vault key. -/
abbrev Key := ℕ

/-- A derived key: the KEK of a master key, the KEK of a recovery seed, or the DEK of a vault
key. -/
inductive DKey
  | kek (mk : Key)
  | kekRk (seed : Key)
  | dek (svk : Key)
  deriving DecidableEq

/-- A plaintext: a vault key or something else. -/
inductive Plain
  | key (k : Key)
  | bytes (n : ℕ)
  deriving DecidableEq

/-- Bytes as they are stored: sealed under a key for an item and a generation, or not sealed
at all. -/
inductive Blob
  | raw (n : ℕ)
  | box (k : DKey) (uuid : ℕ) (gen : UInt64) (plain : Plain)
  deriving DecidableEq

def encrypt (k : DKey) (uuid : ℕ) (gen : UInt64) (plain : Plain) : Blob := .box k uuid gen plain

def decrypt (k : DKey) (uuid : ℕ) (gen : UInt64) : Blob → Option Plain
  | .raw _ => none
  | .box k' uuid' gen' plain =>
    if k' = k ∧ uuid' = uuid ∧ gen' = gen then some plain else none

@[simp] lemma decrypt_encrypt (k : DKey) (uuid : ℕ) (gen : UInt64) (plain : Plain) :
    decrypt k uuid gen (encrypt k uuid gen plain) = some plain := by
  simp [decrypt, encrypt]

/-- What opens was sealed under this key, for this item and this generation. -/
lemma decrypt_eq_some {k : DKey} {uuid : ℕ} {gen : UInt64} {b : Blob} {plain : Plain}
    (h : decrypt k uuid gen b = some plain) : b = encrypt k uuid gen plain := by
  cases b with
  | raw n => simp [decrypt] at h
  | box k' uuid' gen' plain' =>
    simp only [decrypt, Option.ite_none_right_eq_some, Option.some.injEq] at h
    obtain ⟨⟨rfl, rfl, rfl⟩, rfl⟩ := h
    rfl

/-- Wrap a vault key under a master key; the associated data is that of the nil uuid. -/
def wrapSvk (mk svk : Key) : Blob := encrypt (.kek mk) 0 0 (.key svk)

/-- What a wrapped blob holds: the associated data is tried with the user's id first, and
with the nil uuid then. -/
def openSvk (mk : Key) (userId : ℕ) (b : Blob) : Option Plain :=
  (decrypt (.kek mk) userId 0 b).or (decrypt (.kek mk) 0 0 b)

/-- The vault key in a wrapped blob. -/
def unwrapSvk (mk : Key) (userId : ℕ) (b : Blob) : Option Key :=
  match openSvk mk userId b with
  | some (.key k) => some k
  | _ => none

@[simp] lemma unwrapSvk_wrapSvk (mk svk : Key) (userId : ℕ) :
    unwrapSvk mk userId (wrapSvk mk svk) = some svk := by
  rcases eq_or_ne userId 0 with rfl | h
  · simp [unwrapSvk, openSvk, wrapSvk]
  · have : decrypt (.kek mk) userId 0 (wrapSvk mk svk) = none := by
      simp [decrypt, wrapSvk, encrypt, h.symm]
    rw [unwrapSvk, openSvk, this]
    simp [wrapSvk]

end Vautr.Crypto
