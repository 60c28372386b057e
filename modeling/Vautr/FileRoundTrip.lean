import Vautr.FileStream

/-!
What the reader of an encrypted attachment makes of what the writer wrote.

The two agree if they cut the file in the same way, if no nonce looks like the beginning of an
envelope with a prefix, and if the last chunk is not one of those whose index has wrapped around
while it is shorter than the others.
-/

namespace Vautr.FileRoundTrip

open Vautr.FileStream

variable {K : Type} (S : Suite K) (key : K) (M : FileManifest) (plain : Bytes)

/-- The ciphertexts of the chunks open. -/
def Opens : Prop :=
  ∀ i < chunkCount plain,
    S.decrypt key (nonceOf S M i) (adOf M i) (sealedChunk S key M plain i) = some (chunk plain i)

/-- Nothing but the ciphertexts of the files opens, and each only with the nonce and the
associated data it was sealed with. -/
def Authentic (files : List (FileManifest × Bytes)) : Prop :=
  ∀ nonce ad ct p, S.decrypt key nonce ad ct = some p → ∃ f ∈ files, ∃ i < chunkCount f.2,
    nonce = nonceOf S f.1 i ∧ ad = adOf f.1 i ∧ ct = sealedChunk S key f.1 f.2 i ∧
      p = chunk f.2 i

/-- The reader gives back what the writer was given. -/
def RoundTrip : Prop :=
  (encryptFileStream S plain key M).2 = .ok () ∧
    decryptFileStream S (encryptFileStream S plain key M).1 key M = (plain, .ok ())

/-- The reader cuts the file as the writer does: by the same size, or into one chunk. With the
same size, the last chunk has to be full where its index has wrapped around. -/
def SameCut : Prop :=
  M.totalSize.toNat ≤ min M.chunkSize.toNat plaintextChunk ∨
    M.chunkSize.toNat = plaintextChunk ∧
      (M.totalSize.toNat ≤ 2 ^ 32 * plaintextChunk ∨ plaintextChunk ∣ M.totalSize.toNat)

/-- The two streams fit together. -/
def Fits : Prop :=
  M.totalSize = 0 ∨ SameCut M ∧ ∀ i < chunkCount plain, Raw (nonceOf S M i)

variable {S key M plain} {i : ℕ}

/-- A chunk that the reader expects at the length it was written with is read. -/
lemma decryptChunks_frames (hlt : plain.length < 2 ^ 64) (hopens : Opens S key M plain) {n : ℕ}
    (hn : i + n = chunkCount plain)
    (hlen : ∀ j < chunkCount plain, (chunk plain j).length = M.chunkLen (place j))
    (hraw : ∀ j < chunkCount plain, Raw (nonceOf S M j)) :
    decryptChunks S key M (place i) (left plain i) (frames S key M plain i n) =
      (plain.drop (i * plaintextChunk), .ok ()) := by
  induction n generalizing i with
  | zero =>
    have hge : plain.length ≤ i * plaintextChunk := by
      by_contra h
      have := lt_chunkCount.mpr (not_le.mp h)
      omega
    rw [decryptChunks, if_pos ((left_eq_zero hlt).mpr (by omega)), frames, if_pos rfl,
      List.drop_eq_nil_of_le hge]
  | succ n ih =>
    have hi : i < chunkCount plain := by omega
    have hne : left plain i ≠ 0 := fun h => by
      have := (left_eq_zero hlt).mp h
      omega
    rw [frames, frame, List.append_assoc,
      decryptChunks_eq hne length_nonceOf (hlen i hi) (hraw i hi) (hopens i hi), decryptNext,
      left_sub, ← place_succ, ih (by omega), ← chunk_append plain i]

/-- The expected length of a chunk, where both sides cut by the same size. -/
lemma chunkLen_place (hsize : M.chunkSize.toNat = plaintextChunk) (i : ℕ) :
    M.chunkLen (place i) =
      min (M.totalSize.toNat - i % 2 ^ 32 * plaintextChunk) plaintextChunk := by
  rw [FileManifest.chunkLen, hsize, toNat_place]

lemma length_chunk_of_sameCut (hlen : plain.length = M.totalSize.toNat) (h : SameCut M)
    (hi : i < chunkCount plain) : (chunk plain i).length = M.chunkLen (place i) := by
  have hpos := lt_chunkCount.mp hi
  rw [length_chunk]
  rcases h with h | ⟨hsize, h⟩
  · have hzero : i = 0 := by
      simp only [plaintextChunk] at *
      omega
    subst hzero
    simp only [FileManifest.chunkLen, toNat_place, plaintextChunk] at *
    omega
  · rw [chunkLen_place hsize, hlen]
    rw [hlen] at hpos
    rcases h with h | ⟨k, h⟩
    · rw [Nat.mod_eq_of_lt (by simp only [plaintextChunk] at *; omega)]
      exact Nat.min_comm _ _
    · simp only [plaintextChunk] at *
      omega

lemma left_zero (hlen : plain.length = M.totalSize.toNat) : left plain 0 = M.totalSize := by
  rw [← UInt64.toNat_inj, toNat_left (hlen ▸ M.totalSize.toNat_lt), hlen, Nat.zero_mul,
    Nat.sub_zero]

/-- The reader, on what the writer wrote. -/
lemma decryptFileStream_frames (hvalid : M.validate = .ok ()) (input : Bytes)
    (hlen : plain.length = M.totalSize.toNat) :
    decryptFileStream S input key M = decryptChunks S key M (place 0) (left plain 0) input := by
  rw [decryptFileStream, hvalid, left_zero hlen]
  rfl

lemma roundTrip_of_fits (hvalid : M.validate = .ok ()) (hlen : plain.length = M.totalSize.toNat)
    (hopens : Opens S key M plain) (h : Fits S M plain) : RoundTrip S key M plain := by
  have hlt : plain.length < 2 ^ 64 := hlen ▸ M.totalSize.toNat_lt
  have hzero : M.totalSize = 0 → chunkCount plain = 0 := fun h0 => by
    simp [chunkCount, hlen, h0, plaintextChunk]
  have heq : encryptFileStream S plain key M = _ := encryptFileStream_eq hvalid hlen
  refine ⟨by rw [heq], ?_⟩
  rw [heq, decryptFileStream_frames hvalid _ hlen]
  have hall : ∀ j < chunkCount plain,
      (chunk plain j).length = M.chunkLen (place j) ∧ Raw (nonceOf S M j) := by
    intro j hj
    rcases h with h0 | ⟨hcut, hraw⟩
    · rw [hzero h0] at hj
      cases hj
    · exact ⟨length_chunk_of_sameCut hlen hcut hj, hraw j hj⟩
  have := decryptChunks_frames hlt hopens (Nat.zero_add _) (fun j hj => (hall j hj).1)
    fun j hj => (hall j hj).2
  rwa [Nat.zero_mul, List.drop_zero] at this

/-! ### What the reader has to find -/

/-- The reader expects no less than what was written. -/
lemma length_chunk_le (hsize : M.chunkSize.toNat = plaintextChunk)
    (hlen : plain.length = M.totalSize.toNat) (i : ℕ) :
    (chunk plain i).length ≤ M.chunkLen (place i) := by
  have := Nat.mod_le i (2 ^ 32)
  rw [length_chunk, chunkLen_place hsize, hlen]
  simp only [plaintextChunk]
  omega

/-- A reader that cuts as the writer does and comes to an end has found every chunk with a raw
nonce and at the length it expected. -/
lemma frames_of_ok (hlt : plain.length < 2 ^ 64) (hsize : M.chunkSize.toNat = plaintextChunk)
    (hlen : plain.length = M.totalSize.toNat) {n : ℕ} (hn : i + n = chunkCount plain)
    (hok : (decryptChunks S key M (place i) (left plain i) (frames S key M plain i n)).2 = .ok ())
    {j : ℕ} (hij : i ≤ j) (hj : j < chunkCount plain) :
    Raw (nonceOf S M j) ∧ (chunk plain j).length = M.chunkLen (place j) := by
  induction n generalizing i with
  | zero => omega
  | succ n ih =>
    have hne : left plain i ≠ 0 := fun h => by
      have := (left_eq_zero hlt).mp h
      omega
    rcases decryptChunks_cases (S := S) key M (place i)
      (frames S key M plain i (n + 1)) hne with
      ⟨e, herr⟩ | ⟨ct, p, hct, hp, hle, -, hraw, -, hnext⟩
    · rw [herr] at hok
      cases hok
    have hframe : (frame S key M plain i).length = nonceLen + ((chunk plain i).length + tagLen) := by
      simp [frame]
    have hfull : (chunk plain i).length = M.chunkLen (place i) := by
      refine le_antisymm (length_chunk_le hsize hlen i) ?_
      cases n with
      | zero =>
        rw [frames, frames, List.append_nil, hframe] at hle
        omega
      | succ n =>
        rw [length_chunk_of_succ (by omega), chunkLen_place hsize]
        exact Nat.min_le_right _ _
    rcases hij.eq_or_lt with rfl | hij
    · exact ⟨hraw, hfull⟩
    · have hsame : p.length = (chunk plain i).length := hp.trans hfull.symm
      rw [hnext, decryptNext, hsame, left_sub, ← place_succ, frames, hct, hsame, ← hframe,
        List.drop_left] at hok
      exact ih (by omega) hok (by omega)

/-- If the last chunk is found at the length that the reader expects, then it is full, or its
index has not wrapped around. -/
lemma sameCut_of_last (hsize : M.chunkSize.toNat = plaintextChunk)
    (hlen : plain.length = M.totalSize.toNat)
    (h : ∀ j < chunkCount plain, (chunk plain j).length = M.chunkLen (place j)) : SameCut M := by
  refine .inr ⟨hsize, or_iff_not_imp_left.mpr fun hbig => ?_⟩
  rw [not_le] at hbig
  obtain ⟨n, hn⟩ : ∃ n, chunkCount plain = n + 1 := ⟨chunkCount plain - 1, by
    have : 0 < chunkCount plain := lt_chunkCount.mpr (by omega)
    omega⟩
  have hlast := h n (by omega)
  have hlo : n * plaintextChunk < M.totalSize.toNat := hlen ▸ lt_chunkCount.mp (by omega)
  have hhi : M.totalSize.toNat ≤ (n + 1) * plaintextChunk := by
    rw [← hlen, ← not_lt, ← lt_chunkCount]
    omega
  have hwrap : n % 2 ^ 32 + 1 ≤ n := by
    have : 2 ^ 32 ≤ n := by
      by_contra hlt
      have := Nat.mul_le_mul_right plaintextChunk (show n + 1 ≤ 2 ^ 32 by omega)
      omega
    omega
  have hfar := Nat.mul_le_mul_right plaintextChunk hwrap
  rw [length_chunk, chunkLen_place hsize, hlen] at hlast
  rw [Nat.succ_mul] at hhi hfar
  refine ⟨n + 1, ?_⟩
  rw [Nat.mul_comm, Nat.succ_mul]
  omega

/-- What the reader takes for a chunk is a chunk of a file with the same uuid and the same
generation, and has the same index there. -/
lemma chunk_of_decrypt {files : List (FileManifest × Bytes)} (hauth : Authentic S key files)
    {nonce ct p : Bytes}
    (hp : S.decrypt key nonce (constructFileAd M.fileUuid M.encKeyGen (place i)) ct = some p) :
    ∃ f ∈ files, f.1.fileUuid = M.fileUuid ∧ f.1.encKeyGen = M.encKeyGen ∧
      ∃ j < chunkCount f.2, place j = place i ∧ p = chunk f.2 j := by
  obtain ⟨f, hf, j, hj, -, had, -, rfl⟩ := hauth _ _ _ _ hp
  obtain ⟨huuid, hgen, hplace⟩ := constructFileAd_injective had
  exact ⟨f, hf, huuid.symm, hgen.symm, j, hj, hplace.symm, rfl⟩

/-- The same, where there is no other file. -/
lemma chunk_of_decrypt_only (hauth : Authentic S key [(M, plain)]) {nonce ct p : Bytes}
    (hp : S.decrypt key nonce (constructFileAd M.fileUuid M.encKeyGen (place i)) ct = some p) :
    ∃ j < chunkCount plain, place j = place i ∧ p = chunk plain j := by
  obtain ⟨f, hf, -, -, j, hj, hplace, hpj⟩ := chunk_of_decrypt hauth hp
  rw [List.mem_singleton.mp hf] at hj hpj
  exact ⟨j, hj, hplace, hpj⟩

/-- A chunk that is as short as a chunk size which is not the writer's is the last one. -/
lemma last_of_length {j c : ℕ} (hj : j < chunkCount plain) (hc : (chunk plain j).length = c)
    (hne : c ≠ plaintextChunk) : j + 1 = chunkCount plain := by
  by_contra h
  exact hne (hc.symm.trans (length_chunk_of_succ (by omega)))

/-- A reader that cuts in another way than the writer comes to no end. -/
lemma not_ok_of_length_ne (hlt : plain.length < 2 ^ 64) (hlen : plain.length = M.totalSize.toNat)
    (hauth : Authentic S key [(M, plain)]) (hpos : 0 < chunkCount plain)
    (hne : (chunk plain 0).length ≠ M.chunkLen (place 0)) (input : Bytes) :
    (decryptChunks S key M (place 0) (left plain 0) input).2 ≠ .ok () := by
  intro hok
  have hsize := M.chunkSize.toNat_lt
  have hleft : left plain 0 ≠ 0 := fun h => by
    have := (left_eq_zero hlt).mp h
    omega
  rcases decryptChunks_cases (S := S) key M (place 0) input hleft with ⟨e, herr⟩ | ⟨ct, p, -, hp, -, -, -, hdec, hnext⟩
  · rw [herr] at hok
    cases hok
  obtain ⟨j, hj, hplace, rfl⟩ := chunk_of_decrypt_only hauth hdec
  have hj0 : j ≠ 0 := by
    rintro rfl
    exact hne hp
  -- so the index has wrapped around, and the file has more than `2 ^ 32` chunks
  have hwrap : 2 ^ 32 ≤ j := by
    by_contra h
    exact hj0 (place_inj (by omega) (by decide) hplace)
  have hP : plaintextChunk = 1048576 := rfl
  have hbig : 2 ^ 32 * plaintextChunk < plain.length :=
    lt_of_le_of_lt (Nat.mul_le_mul_right _ hwrap) (lt_chunkCount.mp hj)
  have hlen0 : (chunk plain j).length = M.chunkSize.toNat := by
    rw [hp, FileManifest.chunkLen, toNat_place, ← hlen]
    omega
  have hc : M.chunkSize.toNat ≠ plaintextChunk := by
    intro h
    rw [length_chunk, FileManifest.chunkLen, toNat_place, h, ← hlen] at hne
    omega
  -- the second chunk would be the same one, with another index
  rw [hnext, decryptNext] at hok
  have hrem : left plain 0 - UInt64.ofNat (chunk plain j).length ≠ 0 := by
    intro h0
    have h0 := congrArg UInt64.toNat h0
    rw [left, ← UInt64.ofNat_sub (by omega), UInt64.toNat_ofNat', Nat.mod_eq_of_lt (by omega),
      UInt64.toNat_zero] at h0
    omega
  rcases decryptChunks_cases (S := S) key M (place 0 + 1)
    (input.drop (nonceLen + ct.length)) hrem with
    ⟨e, herr⟩ | ⟨ct', p', -, hp', -, -, -, hdec', -⟩
  · rw [herr] at hok
    cases hok
  obtain ⟨j', hj', hplace', rfl⟩ := chunk_of_decrypt_only hauth (i := 1) hdec'
  have hlen1 : (chunk plain j').length = M.chunkSize.toNat := by
    rw [hp', FileManifest.chunkLen, ← place_succ, toNat_place, ← hlen]
    omega
  have hlast := last_of_length hj hlen0 hc
  have hlast' := last_of_length hj' hlen1 hc
  have hsame : place 1 = place 0 := by
    rw [← hplace', ← hplace, show j' = j by omega]
  cases place_inj (by decide) (by decide) hsame

lemma fits_of_roundTrip (hvalid : M.validate = .ok ()) (hlen : plain.length = M.totalSize.toNat)
    (hauth : Authentic S key [(M, plain)]) (h : RoundTrip S key M plain) : Fits S M plain := by
  have hlt : plain.length < 2 ^ 64 := hlen ▸ M.totalSize.toNat_lt
  refine or_iff_not_imp_left.mpr fun hne => ?_
  have hpos : 0 < chunkCount plain := by
    rw [lt_chunkCount, hlen]
    have : M.totalSize.toNat ≠ 0 := fun h => hne (UInt64.toNat_inj.mp h)
    omega
  have hok := congrArg (·.2) h.2
  rw [encryptFileStream_eq hvalid hlen, decryptFileStream_frames hvalid _ hlen] at hok
  have hfirst : (chunk plain 0).length = M.chunkLen (place 0) := by
    by_contra hne
    exact not_ok_of_length_ne hlt hlen hauth hpos hne _ hok
  by_cases hsize : M.chunkSize.toNat = plaintextChunk
  · have hall := fun j hj => frames_of_ok (j := j) hlt hsize hlen (Nat.zero_add _) hok
      (Nat.zero_le j) hj
    exact ⟨sameCut_of_last hsize hlen fun j hj => (hall j hj).2, fun j hj => (hall j hj).1⟩
  · -- one chunk
    have hsmall : M.totalSize.toNat ≤ min M.chunkSize.toNat plaintextChunk := by
      rw [length_chunk, FileManifest.chunkLen, toNat_place, hlen] at hfirst
      omega
    have hone : chunkCount plain ≤ 1 := by
      rw [← not_lt, lt_chunkCount, hlen]
      omega
    refine ⟨.inl hsmall, fun j hj => ?_⟩
    obtain rfl : j = 0 := by omega
    have hleft : left plain 0 ≠ 0 := fun h => by
      have := (left_eq_zero hlt).mp h
      omega
    rcases decryptChunks_cases (S := S) key M (place 0)
      (frames S key M plain 0 (chunkCount plain)) hleft with
      ⟨e, herr⟩ | ⟨-, -, -, -, -, -, hraw, -, -⟩
    · simp only [herr] at hok
      cases hok
    · exact hraw

/-- **The round trip**: the reader gives back what the writer was given if the two cut the file in
the same way and no nonce of it is taken for the beginning of an envelope; and, where nothing but
the chunks of the file opens, in no other case. -/
theorem decrypts_iff (S : Suite K) (key : K) (M : FileManifest) (plain : Bytes)
    (hvalid : M.validate = .ok ()) (hlen : plain.length = M.totalSize.toNat)
    (hopens : Opens S key M plain) :
    (Fits S M plain → RoundTrip S key M plain) ∧
      (Authentic S key [(M, plain)] → RoundTrip S key M plain → Fits S M plain) :=
  ⟨roundTrip_of_fits hvalid hlen hopens, fits_of_roundTrip hvalid hlen⟩

/-! ### A cipher that seals with a checksum -/

def checksum (ad msg : Bytes) : Bytes := List.replicate tagLen (ad ++ msg).sum

/-- The plaintext is left as it is, and all nonces are 0. -/
def checksumSuite : Suite Unit where
  encrypt _ _ ad msg := msg ++ checksum ad msg
  decrypt _ _ ad ct :=
    let msg := ct.take (ct.length - tagLen)
    if ct = msg ++ checksum ad msg then some msg else none
  chunkNonce _ _ := List.replicate nonceLen 0
  length_encrypt := by simp [checksum]
  length_decrypt := by
    intro _ _ ad ct msg h
    dsimp only at h
    split at h
    · next heq =>
      rw [← Option.some.inj h]
      exact (congrArg List.length heq).trans (by simp [checksum])
    · cases h
  length_chunkNonce := by simp

/-- The manifest of two bytes, with the chunk size of the writer. -/
def twoBytes : FileManifest := ⟨5, 2, 1048576, 1, 1⟩

/-- The same file, in chunks of one byte. -/
def smallChunks : FileManifest := ⟨5, 2, 1, 2, 1⟩

theorem decrypts_iff_two_bytes :
    (Fits checksumSuite twoBytes [7, 8] → RoundTrip checksumSuite () twoBytes [7, 8]) ∧
      (Authentic checksumSuite () [(twoBytes, [7, 8])] →
        RoundTrip checksumSuite () twoBytes [7, 8] → Fits checksumSuite twoBytes [7, 8]) :=
  decrypts_iff checksumSuite () twoBytes [7, 8] rfl rfl (by unfold Opens; decide +kernel)

/-- The manifest is valid and the chunks open, and the reader does not give the file back. -/
theorem small_chunks_unreadable : smallChunks.validate = .ok () ∧
    Opens checksumSuite () smallChunks [7, 8] ∧
    ¬RoundTrip checksumSuite () smallChunks [7, 8] := by
  unfold Opens RoundTrip
  decide +kernel

end Vautr.FileRoundTrip
