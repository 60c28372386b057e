import Mathlib.Algebra.Ring.Int.Defs
import Mathlib.Algebra.Ring.Nat
import Mathlib.Data.BitVec
import Mathlib.Data.List.Basic
import Mathlib.Data.List.Induction
import Mathlib.Data.UInt
import Mathlib.Tactic.Lemma
import Mathlib.Tactic.Ring

/-!
The bytes of an encrypted attachment (`vautr-files/src/file.rs`, `manifest.rs`,
`vautr-crypto/src/aead.rs`).

A file is cut into chunks of 1 MiB, and each chunk is sealed on its own, for its file, its
generation and its place in the file. The writer cuts by a constant of its own, the reader by the
chunk size of the manifest. The place is a `u32` on both sides, which wraps around in a release
build. The decryptor tells two formats of an envelope apart by their first bytes, which in a raw
chunk are those of the nonce.

The input and the output are lists of bytes, and no read or write fails.
-/

namespace Vautr.FileStream

abbrev Bytes := List UInt8

abbrev Uuid := BitVec 128

/-! ### Manifests (`manifest.rs`) -/

/-- What the streams read of a `FileManifest`. -/
structure FileManifest where
  fileUuid : Uuid
  totalSize : UInt64
  chunkSize : UInt32
  totalChunks : UInt32
  encKeyGen : UInt64
  deriving DecidableEq

/-- `FileError`, as far as the streams fail with it. An `io` error has the text of the error
inside. -/
inductive FileError
  | tagMismatch
  | malformedChunk
  | lengthIntegrity
  | manifestGeometry (msg : String)
  | io (msg : String)
  deriving DecidableEq

/-- `total_size.div_ceil(chunk_size as u64).max(1) as u32`. -/
def expectedChunks (totalSize : UInt64) (chunkSize : UInt32) : UInt32 :=
  UInt32.ofNat (max ((totalSize.toNat + chunkSize.toNat - 1) / chunkSize.toNat) 1)

def FileManifest.chunkLen (M : FileManifest) (index : UInt32) : ℕ :=
  min (M.totalSize.toNat - index.toNat * M.chunkSize.toNat) M.chunkSize.toNat

def FileManifest.validate (M : FileManifest) : Except FileError Unit :=
  if M.chunkSize = 0 then .error (.manifestGeometry "chunk_size must be non-zero")
  else if M.totalChunks ≠ expectedChunks M.totalSize M.chunkSize then
    .error (.manifestGeometry ("total_chunks " ++ toString M.totalChunks ++ " != expected " ++
      toString (expectedChunks M.totalSize M.chunkSize) ++ " for total_size " ++
      toString M.totalSize ++ " / chunk_size " ++ toString M.chunkSize))
  else .ok ()

/-! ### Envelopes (`aead.rs`) -/

def nonceLen : ℕ := 24

def tagLen : ℕ := 16

def envelopeMagic : Bytes := [0x56, 0x41, 0x55, 0x54]

def envelopeVersion : UInt8 := 0x01

/-- `ENVELOPE_SUITE_XCHACHA20POLY1305`. -/
def envelopeSuite : UInt8 := 0x01

def envelopePrefixLen : ℕ := 6

/-- The functions of the crates: `XChaCha20Poly1305`, whose ciphertext is 16 bytes longer than its
plaintext, and `chunk_nonce`, the first 24 bytes of a hash of the file and the chunk index. -/
structure Suite (K : Type) where
  encrypt : K → Bytes → Bytes → Bytes → Bytes
  decrypt : K → Bytes → Bytes → Bytes → Option Bytes
  chunkNonce : Uuid → UInt32 → Bytes
  length_encrypt : ∀ key nonce ad msg, (encrypt key nonce ad msg).length = msg.length + tagLen
  length_decrypt : ∀ key nonce ad ct msg, decrypt key nonce ad ct = some msg →
    ct.length = msg.length + tagLen
  length_chunkNonce : ∀ uuid index, (chunkNonce uuid index).length = nonceLen

/-- The `w` bytes of a number, the highest one first (`to_be_bytes`). -/
def beBytes : ℕ → ℕ → Bytes
  | 0, _ => []
  | w + 1, n => beBytes w (n / 256) ++ [UInt8.ofNat n]

def constructFileAd (fileUuid : Uuid) (encKeyGen : UInt64) (chunkIndex : UInt32) : Bytes :=
  beBytes 16 fileUuid.toNat ++ beBytes 8 encKeyGen.toNat ++ beBytes 4 chunkIndex.toNat

/-- `CryptoError`, as far as `decrypt_with_ad` fails with it. -/
inductive CryptoError
  | tagMismatch
  | malformedCiphertext
  | unsupportedSuite
  deriving DecidableEq

def CryptoError.toFileError : CryptoError → FileError
  | .tagMismatch => .tagMismatch
  | .malformedCiphertext => .malformedChunk
  | .unsupportedSuite => .io "crypto: unsupported ciphertext suite/version"

variable {K : Type} (S : Suite K)

def encryptWithNonceRaw (key : K) (nonce ad plaintext : Bytes) : Bytes :=
  nonce ++ S.encrypt key nonce ad plaintext

/-- The nonce and the ciphertext that begin at `offset`. -/
def openAt (key : K) (ad envelope : Bytes) (offset : ℕ) : Except CryptoError Bytes :=
  if envelope.length < offset + nonceLen + tagLen then .error .malformedCiphertext
  else
    let body := envelope.drop offset
    match S.decrypt key (body.take nonceLen) ad (body.drop nonceLen) with
    | some p => .ok p
    | none => .error .tagMismatch

def decryptWithAd (key : K) (ad envelope : Bytes) : Except CryptoError Bytes :=
  if envelopePrefixLen ≤ envelope.length ∧ envelope.take 4 = envelopeMagic then
    if envelope[4]? ≠ some envelopeVersion then .error .unsupportedSuite
    else if envelope[5]? ≠ some envelopeSuite then .error .unsupportedSuite
    else openAt S key ad envelope envelopePrefixLen
  else openAt S key ad envelope 0

/-! ### Streams (`file.rs`) -/

/-- `PLAINTEXT_CHUNK`, 1 MiB. -/
def plaintextChunk : ℕ := 1048576

/-- The loop of `encrypt_file_stream`: what it writes, and how it ends. -/
def encryptChunks (key : K) (M : FileManifest) (chunkIndex : UInt32) (remaining : UInt64)
    (input : Bytes) : Bytes × Except FileError Unit :=
  let toRead := min remaining.toNat plaintextChunk
  let chunk := input.take toRead
  if chunk = [] then ([], if remaining ≠ 0 then .error .lengthIntegrity else .ok ())
  else
    let nonce := S.chunkNonce M.fileUuid chunkIndex
    let ad := constructFileAd M.fileUuid M.encKeyGen chunkIndex
    let rest := encryptChunks key M (chunkIndex + 1) (remaining - UInt64.ofNat chunk.length)
      (input.drop chunk.length)
    (encryptWithNonceRaw S key nonce ad chunk ++ rest.1, rest.2)
termination_by input.length
decreasing_by
  rename_i h
  have hpos := List.length_pos_iff.mpr h
  simp only [chunk, List.length_take, List.length_drop] at hpos ⊢
  omega

def encryptFileStream (input : Bytes) (key : K) (M : FileManifest) :
    Bytes × Except FileError Unit :=
  match M.validate with
  | .error e => ([], .error e)
  | .ok () => encryptChunks S key M 0 M.totalSize input

/-- The loop of `decrypt_file_stream`. The nonce of a chunk is read and left aside. -/
def decryptChunks (key : K) (M : FileManifest) (chunkIndex : UInt32) (remaining : UInt64)
    (input : Bytes) : Bytes × Except FileError Unit :=
  if remaining = 0 then ([], if input = [] then .ok () else .error .lengthIntegrity)
  else if input.length < nonceLen then ([], .error .malformedChunk)
  else
    let body := input.drop nonceLen
    let ctBudget := M.chunkLen chunkIndex + tagLen
    if body.length < ctBudget then ([], .error .malformedChunk)
    else
      let nonce := S.chunkNonce M.fileUuid chunkIndex
      let ad := constructFileAd M.fileUuid M.encKeyGen chunkIndex
      match decryptWithAd S key ad (nonce ++ body.take ctBudget) with
      | .error e => ([], .error e.toFileError)
      | .ok p =>
        if p.length ≠ M.chunkLen chunkIndex then ([], .error .lengthIntegrity)
        else
          let rest := decryptChunks key M (chunkIndex + 1) (remaining - UInt64.ofNat p.length)
            (body.drop ctBudget)
          (p ++ rest.1, rest.2)
termination_by input.length
decreasing_by
  simp only [List.length_drop, nonceLen] at *
  omega

def decryptFileStream (input : Bytes) (key : K) (M : FileManifest) :
    Bytes × Except FileError Unit :=
  match M.validate with
  | .error e => ([], .error e)
  | .ok () => decryptChunks S key M 0 M.totalSize input

/-! ### Bytes -/

@[simp] lemma length_beBytes (w n : ℕ) : (beBytes w n).length = w := by
  induction w generalizing n with
  | zero => rfl
  | succ w ih => simp [beBytes, ih]

lemma beBytes_injective {w n m : ℕ} (hn : n < 256 ^ w) (hm : m < 256 ^ w)
    (h : beBytes w n = beBytes w m) : n = m := by
  induction w generalizing n m with
  | zero => simp only [pow_zero] at hn hm; omega
  | succ w ih =>
    rw [pow_succ] at hn hm
    obtain ⟨hhigh, hlow⟩ := List.append_inj' h rfl
    have hdiv : n / 256 = m / 256 :=
      ih (Nat.div_lt_of_lt_mul (by omega)) (Nat.div_lt_of_lt_mul (by omega)) hhigh
    have hmod : n % 256 = m % 256 := by
      simpa using congrArg UInt8.toNat (List.singleton_inj.mp hlow)
    omega

/-- The high bytes and the low ones. -/
lemma beBytes_add (a b n : ℕ) : beBytes (a + b) n = beBytes a (n / 256 ^ b) ++ beBytes b n := by
  induction b generalizing n with
  | zero => simp [beBytes]
  | succ b ih =>
    rw [← Nat.add_assoc, beBytes, ih, beBytes, List.append_assoc, Nat.div_div_eq_div_mul, pow_succ,
      Nat.mul_comm]

lemma beBytes_mod (w n : ℕ) : beBytes w (n % 256 ^ w) = beBytes w n := by
  induction w generalizing n with
  | zero => rfl
  | succ w ih =>
    have hhigh : n % 256 ^ (w + 1) / 256 = n / 256 % 256 ^ w := by
      rw [pow_succ, Nat.mul_comm, Nat.mod_mul_right_div_self]
    have hlow : UInt8.ofNat (n % 256 ^ (w + 1)) = UInt8.ofNat n := by
      apply UInt8.toNat_inj.mp
      simp
    rw [beBytes, hhigh, ih, hlow, beBytes]

/-- The number that bytes stand for (`from_be_bytes`). -/
def ofBeBytes (bytes : Bytes) : ℕ := bytes.foldl (fun n b => n * 256 + b.toNat) 0

lemma ofBeBytes_concat (bytes : Bytes) (b : UInt8) :
    ofBeBytes (bytes ++ [b]) = ofBeBytes bytes * 256 + b.toNat := by
  simp [ofBeBytes]

/-- Bytes are those of the number they stand for. -/
lemma beBytes_ofBeBytes (bytes : Bytes) : beBytes bytes.length (ofBeBytes bytes) = bytes := by
  induction bytes using List.reverseRecOn with
  | nil => rfl
  | append_singleton bytes b ih =>
    have hb : b.toNat < 256 := b.toNat_lt
    have hdiv : (ofBeBytes bytes * 256 + b.toNat) / 256 = ofBeBytes bytes := by omega
    have hlow : UInt8.ofNat (ofBeBytes bytes * 256 + b.toNat) = b := by
      apply UInt8.toNat_inj.mp
      rw [UInt8.toNat_ofNat']
      omega
    rw [List.length_append, List.length_singleton, ofBeBytes_concat, beBytes, hdiv, ih, hlow]

lemma ofBeBytes_beBytes {w n : ℕ} (hn : n < 256 ^ w) : ofBeBytes (beBytes w n) = n := by
  induction w generalizing n with
  | zero =>
    rw [pow_zero] at hn
    have : n = 0 := by omega
    rw [this]
    rfl
  | succ w ih =>
    rw [pow_succ] at hn
    have hlow : (UInt8.ofNat n).toNat = n % 256 := by simp
    rw [beBytes, ofBeBytes_concat, ih (Nat.div_lt_of_lt_mul (by omega)), hlow]
    omega

/-- The associated data tells the file, the generation and the place apart. -/
lemma constructFileAd_injective {u u' : Uuid} {g g' : UInt64} {i i' : UInt32}
    (h : constructFileAd u g i = constructFileAd u' g' i') : u = u' ∧ g = g' ∧ i = i' := by
  obtain ⟨h, hi⟩ := List.append_inj h (by simp)
  obtain ⟨hu, hg⟩ := List.append_inj h (by simp)
  refine ⟨BitVec.eq_of_toNat_eq (beBytes_injective ?_ ?_ hu),
    UInt64.toNat_inj.mp (beBytes_injective ?_ ?_ hg),
    UInt32.toNat_inj.mp (beBytes_injective ?_ ?_ hi)⟩
  · exact u.isLt
  · exact u'.isLt
  · exact g.toNat_lt
  · exact g'.toNat_lt
  · exact i.toNat_lt
  · exact i'.toNat_lt

/-! ### Chunks -/

/-- The `i`-th chunk of a plaintext. -/
def chunk (plain : Bytes) (i : ℕ) : Bytes := (plain.drop (i * plaintextChunk)).take plaintextChunk

/-- The number of chunks of a plaintext. -/
def chunkCount (plain : Bytes) : ℕ := (plain.length + plaintextChunk - 1) / plaintextChunk

lemma lt_chunkCount {plain : Bytes} {i : ℕ} :
    i < chunkCount plain ↔ i * plaintextChunk < plain.length := by
  simp only [chunkCount, plaintextChunk]
  omega

lemma length_chunk (plain : Bytes) (i : ℕ) :
    (chunk plain i).length = min plaintextChunk (plain.length - i * plaintextChunk) := by
  simp [chunk]

/-- A chunk that others follow is full. -/
lemma length_chunk_of_succ {plain : Bytes} {i : ℕ} (h : i + 1 < chunkCount plain) :
    (chunk plain i).length = plaintextChunk := by
  rw [lt_chunkCount] at h
  rw [length_chunk]
  simp only [plaintextChunk] at *
  omega

lemma chunk_append (plain : Bytes) (i : ℕ) :
    chunk plain i ++ plain.drop ((i + 1) * plaintextChunk) = plain.drop (i * plaintextChunk) := by
  rw [chunk, Nat.succ_mul, ← List.drop_drop, List.take_append_drop]

/-- The index of a chunk as the code has it. -/
def place (i : ℕ) : UInt32 := UInt32.ofNat i

lemma place_succ (i : ℕ) : place (i + 1) = place i + 1 := UInt32.ofNat_add i 1

lemma toNat_place (i : ℕ) : (place i).toNat = i % 2 ^ 32 := by simp [place]

lemma place_inj {i j : ℕ} (hi : i < 2 ^ 32) (hj : j < 2 ^ 32) (h : place i = place j) : i = j := by
  have := congrArg UInt32.toNat h
  rwa [toNat_place, toNat_place, Nat.mod_eq_of_lt hi, Nat.mod_eq_of_lt hj] at this

variable {S} {key : K} {M : FileManifest} {plain : Bytes} {i : ℕ}

/-- The nonce of the `i`-th chunk of a file. -/
def nonceOf (S : Suite K) (M : FileManifest) (i : ℕ) : Bytes := S.chunkNonce M.fileUuid (place i)

@[simp] lemma length_nonceOf : (nonceOf S M i).length = nonceLen := S.length_chunkNonce _ _

/-- The associated data of the `i`-th chunk of a file. -/
def adOf (M : FileManifest) (i : ℕ) : Bytes :=
  constructFileAd M.fileUuid M.encKeyGen (place i)

/-- The ciphertext of the `i`-th chunk of a file. -/
def sealedChunk (S : Suite K) (key : K) (M : FileManifest) (plain : Bytes) (i : ℕ) : Bytes :=
  S.encrypt key (nonceOf S M i) (adOf M i) (chunk plain i)

@[simp] lemma length_sealedChunk :
    (sealedChunk S key M plain i).length = (chunk plain i).length + tagLen :=
  S.length_encrypt _ _ _ _

/-- The `i`-th chunk of a file as it is written. -/
def frame (S : Suite K) (key : K) (M : FileManifest) (plain : Bytes) (i : ℕ) : Bytes :=
  nonceOf S M i ++ sealedChunk S key M plain i

/-- So many chunks of a file as they are written, from the `i`-th on. -/
def frames (S : Suite K) (key : K) (M : FileManifest) (plain : Bytes) : (i n : ℕ) → Bytes
  | _, 0 => []
  | i, n + 1 => frame S key M plain i ++ frames S key M plain (i + 1) n

/-- What is left to be processed before the `i`-th chunk. -/
def left (plain : Bytes) (i : ℕ) : UInt64 := UInt64.ofNat (plain.length - i * plaintextChunk)

lemma toNat_left (h : plain.length < 2 ^ 64) (i : ℕ) :
    (left plain i).toNat = plain.length - i * plaintextChunk := by
  rw [left, UInt64.toNat_ofNat', Nat.mod_eq_of_lt (by omega)]

lemma left_eq_zero (h : plain.length < 2 ^ 64) : left plain i = 0 ↔ chunkCount plain ≤ i := by
  rw [← UInt64.toNat_inj, toNat_left h, ← not_lt, lt_chunkCount, UInt64.toNat_zero]
  omega

lemma left_sub (plain : Bytes) (i : ℕ) :
    left plain i - UInt64.ofNat (chunk plain i).length = left plain (i + 1) := by
  have hle : (chunk plain i).length ≤ plain.length - i * plaintextChunk := by
    rw [length_chunk]
    exact Nat.min_le_right _ _
  rw [left, left, ← UInt64.ofNat_sub hle, length_chunk]
  congr 1
  simp only [plaintextChunk]
  omega

/-! ### What is written -/

lemma encryptChunks_eq (h : plain.length < 2 ^ 64) {n : ℕ} (hn : i + n = chunkCount plain) :
    encryptChunks S key M (place i) (left plain i) (plain.drop (i * plaintextChunk)) =
      (frames S key M plain i n, .ok ()) := by
  induction n generalizing i with
  | zero =>
    have hzero : left plain i = 0 := (left_eq_zero h).mpr (by omega)
    rw [encryptChunks]
    simp [hzero, frames]
  | succ n ih =>
    have hlt : i * plaintextChunk < plain.length := lt_chunkCount.mp (by omega)
    have htake : (plain.drop (i * plaintextChunk)).take
        (min (left plain i).toNat plaintextChunk) = chunk plain i := by
      rw [chunk, toNat_left h, List.take_eq_take_iff, List.length_drop]
      omega
    have hne : chunk plain i ≠ [] := by
      rw [← List.length_pos_iff, length_chunk]
      simp only [plaintextChunk] at *
      omega
    have hdrop : (plain.drop (i * plaintextChunk)).drop (chunk plain i).length =
        plain.drop ((i + 1) * plaintextChunk) := by
      rw [← chunk_append, List.drop_left]
    rw [encryptChunks, htake]
    dsimp only
    rw [if_neg hne, hdrop, left_sub, ← place_succ, ih (by omega)]
    rfl

/-- **What a file is encrypted to**: its chunks, one after the other. -/
lemma encryptFileStream_eq (hvalid : M.validate = .ok ())
    (hlen : plain.length = M.totalSize.toNat) :
    encryptFileStream S plain key M = (frames S key M plain 0 (chunkCount plain), .ok ()) := by
  have hlt : plain.length < 2 ^ 64 := hlen ▸ M.totalSize.toNat_lt
  have hleft : left plain 0 = M.totalSize := by
    rw [← UInt64.toNat_inj, toNat_left hlt, hlen, Nat.zero_mul, Nat.sub_zero]
  have heq : encryptChunks S key M (place 0) (left plain 0) (plain.drop (0 * plaintextChunk)) =
      (frames S key M plain 0 (chunkCount plain), .ok ()) := encryptChunks_eq hlt (Nat.zero_add _)
  rw [Nat.zero_mul, List.drop_zero, hleft] at heq
  rw [encryptFileStream, hvalid]
  exact heq

/-! ### What is read -/

/-- The nonce does not look like the beginning of an envelope with a prefix. -/
def Raw (nonce : Bytes) : Prop := nonce.take 4 ≠ envelopeMagic

instance (nonce : Bytes) : Decidable (Raw nonce) := inferInstanceAs (Decidable (_ ≠ _))

lemma take_nonce {nonce ct : Bytes} (hn : nonce.length = nonceLen) :
    (nonce ++ ct).take 4 = nonce.take 4 := List.take_append_of_le_length (by simp [hn, nonceLen])

lemma openAt_zero {nonce ad ct : Bytes} (hn : nonce.length = nonceLen) (hct : tagLen ≤ ct.length) :
    openAt S key ad (nonce ++ ct) 0 = match S.decrypt key nonce ad ct with
      | some p => .ok p
      | none => .error .tagMismatch := by
  have hlen : ¬(nonce ++ ct).length < 0 + nonceLen + tagLen := by
    rw [List.length_append]
    omega
  rw [openAt, if_neg hlen]
  simp only [List.drop_zero, ← hn, List.take_left, List.drop_left]

/-- **A chunk opens at its full length** only if its nonce is not taken for something else. -/
lemma decryptWithAd_eq_ok {nonce ad ct p : Bytes} (hn : nonce.length = nonceLen)
    (hct : ct.length = p.length + tagLen) :
    decryptWithAd S key ad (nonce ++ ct) = .ok p ↔
      Raw nonce ∧ S.decrypt key nonce ad ct = some p := by
  have hle : envelopePrefixLen ≤ (nonce ++ ct).length := by
    simp [hn, nonceLen, envelopePrefixLen]
    omega
  rw [decryptWithAd, take_nonce hn]
  by_cases hmagic : nonce.take 4 = envelopeMagic
  · rw [if_pos ⟨hle, hmagic⟩]
    refine iff_of_false (fun h => ?_) fun h => h.1 hmagic
    -- what is opened is 6 bytes shorter
    split at h
    · cases h
    split at h
    · cases h
    rw [openAt] at h
    split at h
    · cases h
    dsimp only at h
    split at h
    · next q hq =>
      have := S.length_decrypt _ _ _ _ _ hq
      cases h
      simp only [List.length_drop, List.length_append, hn, hct, nonceLen, tagLen,
        envelopePrefixLen] at this
      omega
    · cases h
  · rw [if_neg fun h => hmagic h.2, openAt_zero hn (by omega)]
    constructor
    · intro h
      split at h
      · next q hq =>
        cases h
        exact ⟨hmagic, hq⟩
      · cases h
    · rintro ⟨-, h⟩
      rw [h]

/-- The state of the reader after one more chunk. -/
def decryptNext (S : Suite K) (key : K) (M : FileManifest) (index : UInt32) (remaining : UInt64)
    (p rest : Bytes) : Bytes × Except FileError Unit :=
  let r := decryptChunks S key M (index + 1) (remaining - UInt64.ofNat p.length) rest
  (p ++ r.1, r.2)

variable {index : UInt32} {remaining : UInt64} {input : Bytes}

lemma decryptNext_fst (p rest : Bytes) : (decryptNext S key M index remaining p rest).1 =
    p ++ (decryptChunks S key M (index + 1) (remaining - UInt64.ofNat p.length) rest).1 := rfl

lemma decryptNext_snd (p rest : Bytes) : (decryptNext S key M index remaining p rest).2 =
    (decryptChunks S key M (index + 1) (remaining - UInt64.ofNat p.length) rest).2 := rfl

/-- What the reader does where a chunk is expected: it fails and writes nothing, or a ciphertext
of the expected length opens, and it goes on behind it. -/
lemma decryptChunks_cases (key : K) (M : FileManifest) (index : UInt32) (input : Bytes)
    (h : remaining ≠ 0) :
    (∃ e, decryptChunks S key M index remaining input = ([], .error e)) ∨
    ∃ ct p, ct.length = p.length + tagLen ∧ p.length = M.chunkLen index ∧
      nonceLen + ct.length ≤ input.length ∧ ct = (input.drop nonceLen).take ct.length ∧
      Raw (S.chunkNonce M.fileUuid index) ∧
      S.decrypt key (S.chunkNonce M.fileUuid index)
        (constructFileAd M.fileUuid M.encKeyGen index) ct = some p ∧
      decryptChunks S key M index remaining input =
        decryptNext S key M index remaining p (input.drop (nonceLen + ct.length)) := by
  rw [decryptChunks, if_neg h]
  split
  · exact .inl ⟨_, rfl⟩
  dsimp only
  split
  · exact .inl ⟨_, rfl⟩
  next hnonce hbody =>
  rw [List.length_drop] at hbody
  have hct : ((input.drop nonceLen).take (M.chunkLen index + tagLen)).length =
      M.chunkLen index + tagLen := by
    rw [List.length_take, List.length_drop]
    omega
  split
  · exact .inl ⟨_, rfl⟩
  next p hp =>
  split
  · exact .inl ⟨_, rfl⟩
  next hlen =>
  rw [not_not] at hlen
  have hopen := (decryptWithAd_eq_ok (S.length_chunkNonce _ _) (by rw [hct, hlen])).mp hp
  refine .inr ⟨_, p, by rw [hct, hlen], hlen, by rw [hct]; omega, by rw [hct], hopen.1, hopen.2, ?_⟩
  rw [hct, List.drop_drop]
  rfl

/-- The reader takes a chunk that opens. -/
lemma decryptChunks_eq {header ct p rest : Bytes} (h : remaining ≠ 0)
    (hheader : header.length = nonceLen) (hlen : p.length = M.chunkLen index)
    (hraw : Raw (S.chunkNonce M.fileUuid index))
    (hp : S.decrypt key (S.chunkNonce M.fileUuid index)
      (constructFileAd M.fileUuid M.encKeyGen index) ct = some p) :
    decryptChunks S key M index remaining (header ++ (ct ++ rest)) =
      decryptNext S key M index remaining p rest := by
  have hct := S.length_decrypt _ _ _ _ _ hp
  have hbudget : M.chunkLen index + tagLen = ct.length := by rw [hct, hlen]
  have hopen := (decryptWithAd_eq_ok (S.length_chunkNonce M.fileUuid index) hct).mpr ⟨hraw, hp⟩
  have hheader' : ¬(header ++ (ct ++ rest)).length < nonceLen := by
    rw [List.length_append]
    omega
  have hbody : ¬(ct ++ rest).length < ct.length := by
    rw [List.length_append]
    omega
  rw [decryptChunks, if_neg h, if_neg hheader']
  dsimp only
  rw [hbudget, ← hheader, List.drop_left, if_neg hbody, List.take_left, List.drop_left, hopen]
  dsimp only
  rw [if_neg (not_not.mpr hlen)]
  rfl

end Vautr.FileStream
