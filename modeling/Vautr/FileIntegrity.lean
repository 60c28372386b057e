import Vautr.FileRoundTrip

/-!
What an adversary without the key can make of an encrypted attachment.

Nothing but the honest ciphertexts opens, each only for its own file, generation and place. So
the reader takes at each place a chunk that was sealed for it, and what it has written at any time
is the beginning of the file, as long as no two chunks of the file share a place: the place is a
`u32`, which wraps around after `2 ^ 32` chunks.
-/

namespace Vautr.FileIntegrity

open Vautr.FileStream Vautr.FileRoundTrip

variable {K : Type} (S : Suite K) (key : K) (M : FileManifest) (plain : Bytes)

/-- Whatever bytes the reader is given, it writes the beginning of the file, and ends well only
after all of it. -/
def Intact : Prop :=
  ∀ stream, (decryptFileStream S stream key M).1 <+: plain ∧
    ((decryptFileStream S stream key M).2 = .ok () → (decryptFileStream S stream key M).1 = plain)

/-- The file of the manifest is one of the files, and no other file has its uuid and its
generation. -/
def OneContent (files : List (FileManifest × Bytes)) : Prop :=
  (M, plain) ∈ files ∧ ∀ f ∈ files, f.1.fileUuid = M.fileUuid → f.1.encKeyGen = M.encKeyGen →
    f.2 = plain

/-- At every place that the reader can come to, it would take no other chunk than the one that
belongs there: the chunks with the same index that have the length it expects are the same. -/
def Distinct : Prop :=
  ∀ i < chunkCount plain, ∀ j < chunkCount plain, place i = place j →
    (∀ k ≤ j, Raw (nonceOf S M k)) → (chunk plain i).length = M.chunkLen (place j) →
    chunk plain i = chunk plain j

variable {S key M plain}

/-- No two chunks of a file of at most `2 ^ 32` chunks have the same index. -/
lemma distinct_of_le (h : chunkCount plain ≤ 2 ^ 32) : Distinct S M plain := by
  intro i hi j hj hplace _ _
  rw [place_inj (by omega) (by omega) hplace]

/-- What opens where the `j`-th chunk is expected is a chunk with the same index. -/
lemma chunk_of_oneContent {files : List (FileManifest × Bytes)} (hauth : Authentic S key files)
    (hone : OneContent M plain files) {nonce ct p : Bytes} {j : ℕ}
    (hp : S.decrypt key nonce (constructFileAd M.fileUuid M.encKeyGen (place j)) ct = some p) :
    ∃ i < chunkCount plain, place i = place j ∧ p = chunk plain i := by
  obtain ⟨f, hf, huuid, hgen, i, hi, hplace, hpi⟩ := chunk_of_decrypt hauth hp
  rw [hone.2 f hf huuid hgen] at hi hpi
  exact ⟨i, hi, hplace, hpi⟩

/-- From any place on the reader writes what comes there in the file. -/
lemma intact_from {files : List (FileManifest × Bytes)} (hauth : Authentic S key files)
    (hone : OneContent M plain files) (hdist : Distinct S M plain) (hlt : plain.length < 2 ^ 64)
    {n j : ℕ} (hn : j + n = chunkCount plain) (hraw : ∀ k < j, Raw (nonceOf S M k))
    (stream : Bytes) :
    (decryptChunks S key M (place j) (left plain j) stream).1 <+:
        plain.drop (j * plaintextChunk) ∧
      ((decryptChunks S key M (place j) (left plain j) stream).2 = .ok () →
        (decryptChunks S key M (place j) (left plain j) stream).1 =
          plain.drop (j * plaintextChunk)) := by
  induction n generalizing j stream with
  | zero =>
    have hge : plain.length ≤ j * plaintextChunk := by
      rw [← not_lt, ← lt_chunkCount]
      omega
    rw [decryptChunks, if_pos ((left_eq_zero hlt).mpr (by omega)), List.drop_eq_nil_of_le hge]
    exact ⟨List.prefix_refl _, fun _ => rfl⟩
  | succ n ih =>
    have hne : left plain j ≠ 0 := fun h => by
      have := (left_eq_zero hlt).mp h
      omega
    rcases decryptChunks_cases (S := S) key M (place j) stream hne with ⟨e, herr⟩ | ⟨ct, p, -, hlen, -, -, hrawj, hp, hnext⟩
    · rw [herr]
      exact ⟨List.nil_prefix, fun h => by cases h⟩
    · obtain ⟨i, hi, hplace, rfl⟩ := chunk_of_oneContent hauth hone hp
      have hraw' : ∀ k < j + 1, Raw (nonceOf S M k) := fun k hk =>
        (Nat.lt_succ_iff_lt_or_eq.mp hk).elim (hraw k) fun h => h ▸ hrawj
      have hsame : chunk plain i = chunk plain j :=
        hdist i hi j (by omega) hplace (fun k hk => hraw' k (by omega)) hlen
      obtain ⟨hstart, hall⟩ := ih (j := j + 1) (by omega) hraw'
        (stream.drop (nonceLen + ct.length))
      rw [hnext, decryptNext_fst, decryptNext_snd, hsame, left_sub, ← place_succ,
        ← chunk_append plain j]
      exact ⟨(List.prefix_append_right_inj _).mpr hstart, fun h => by rw [hall h]⟩

lemma intact_of_distinct {files : List (FileManifest × Bytes)} (hvalid : M.validate = .ok ())
    (hlen : plain.length = M.totalSize.toNat) (hauth : Authentic S key files)
    (hone : OneContent M plain files) (h : Distinct S M plain) : Intact S key M plain := by
  intro stream
  have := intact_from (j := 0) hauth hone h (hlen ▸ M.totalSize.toNat_lt) (Nat.zero_add _)
    (fun k hk => absurd hk (Nat.not_lt_zero k)) stream
  rw [Nat.zero_mul, List.drop_zero] at this
  rwa [decryptFileStream_frames hvalid _ hlen]

/-! ### Another chunk at the same place -/

/-- The reader takes the first chunks of the file, and then whatever opens next. -/
lemma decryptChunks_swap (hsize : M.chunkSize.toNat = plaintextChunk)
    (hlen : plain.length = M.totalSize.toNat) (hopens : Opens S key M plain) {i j n : ℕ}
    (hj : j + n < chunkCount plain) (hi : i < chunkCount plain) (hplace : place i = place (j + n))
    (hraw : ∀ k ≤ j + n, Raw (nonceOf S M k))
    (hexp : (chunk plain i).length = M.chunkLen (place (j + n))) :
    ∃ out, (decryptChunks S key M (place j) (left plain j)
      (frames S key M plain j n ++ frame S key M plain i)).1 =
        (plain.drop (j * plaintextChunk)).take (n * plaintextChunk) ++ (chunk plain i ++ out) := by
  have hlt : plain.length < 2 ^ 64 := hlen ▸ M.totalSize.toNat_lt
  have hne : ∀ k < chunkCount plain, left plain k ≠ 0 := fun k hk h => by
    have := (left_eq_zero hlt).mp h
    omega
  induction n generalizing j with
  | zero =>
    rw [Nat.add_zero] at hj hplace hraw hexp
    have hopen := hopens i hi
    rw [nonceOf, adOf, hplace] at hopen
    rw [frames, List.nil_append, frame, ← List.append_nil (sealedChunk S key M plain i),
      decryptChunks_eq (hne j hj) length_nonceOf hexp (hraw j le_rfl) hopen, decryptNext_fst]
    exact ⟨_, by rw [Nat.zero_mul, List.take_zero, List.nil_append]⟩
  | succ n ih =>
    have hfull : (chunk plain j).length = plaintextChunk := length_chunk_of_succ (by omega)
    have hwant : (chunk plain j).length = M.chunkLen (place j) :=
      le_antisymm (length_chunk_le hsize hlen j) (by
        rw [hfull, chunkLen_place hsize]
        exact Nat.min_le_right _ _)
    rw [frames, frame, List.append_assoc, List.append_assoc,
      decryptChunks_eq (hne j (by omega)) length_nonceOf hwant (hraw j (by omega))
        (hopens j (by omega)), decryptNext_fst, left_sub, ← place_succ]
    obtain ⟨out, hout⟩ := ih (j := j + 1) (by omega) (by rw [hplace]; congr 1; omega)
      (fun k hk => hraw k (by omega)) (by rw [hexp]; congr 2; omega)
    refine ⟨out, ?_⟩
    have htake : (plain.drop (j * plaintextChunk)).take ((n + 1) * plaintextChunk) =
        chunk plain j ++ (plain.drop ((j + 1) * plaintextChunk)).take (n * plaintextChunk) := by
      rw [← chunk_append plain j, Nat.succ_mul, Nat.add_comm, ← hfull, List.take_length_add_append,
        hfull]
    rw [htake, List.append_assoc, ← hout]

lemma distinct_of_intact (hvalid : M.validate = .ok ()) (hsize : M.chunkSize.toNat = plaintextChunk)
    (hlen : plain.length = M.totalSize.toNat) (hopens : Opens S key M plain)
    (h : Intact S key M plain) : Distinct S M plain := by
  intro i hi j hj hplace hraw hexp
  have hpos := lt_chunkCount.mp hj
  obtain ⟨out, hout⟩ := decryptChunks_swap (j := 0) (n := j) hsize hlen hopens (by omega) hi
    (by rw [hplace, Nat.zero_add]) (fun k hk => hraw k (by omega)) (by rw [hexp, Nat.zero_add])
  have hstart := (h (frames S key M plain 0 j ++ frame S key M plain i)).1
  rw [decryptFileStream_frames hvalid _ hlen, hout, Nat.zero_mul, List.drop_zero] at hstart
  -- the chunk that was read stands where the other one should
  have hthere : chunk plain i <+: plain.drop (j * plaintextChunk) := by
    have hdrop := hstart.drop (j * plaintextChunk)
    rw [List.drop_left' (List.length_take_of_le hpos.le)] at hdrop
    exact (List.prefix_append _ out).trans hdrop
  have hle := hthere.length_le
  rw [List.length_drop] at hle
  have hfull : (chunk plain i).length ≤ plaintextChunk := by
    rw [length_chunk]
    exact Nat.min_le_left _ _
  have hlength : (chunk plain i).length = (chunk plain j).length := by
    refine le_antisymm ?_ ((length_chunk_le hsize hlen j).trans_eq hexp.symm)
    rw [length_chunk plain j]
    exact Nat.le_min.mpr ⟨hfull, hle⟩
  exact (List.prefix_of_prefix_length_le hthere ⟨_, chunk_append plain j⟩ hlength.le).eq_of_length
    hlength

/-- **Integrity**: whatever bytes the reader is given, it writes the beginning of the file, and
ends well only after all of it, exactly if no chunk of the file can stand in for another one with
the same index. -/
theorem intact_iff (S : Suite K) (key : K) (M : FileManifest) (plain : Bytes)
    (files : List (FileManifest × Bytes)) (hvalid : M.validate = .ok ())
    (hsize : M.chunkSize.toNat = plaintextChunk) (hlen : plain.length = M.totalSize.toNat)
    (hone : OneContent M plain files) (hopens : Opens S key M plain)
    (hauth : Authentic S key files) : Intact S key M plain ↔ Distinct S M plain :=
  ⟨distinct_of_intact hvalid hsize hlen hopens, intact_of_distinct hvalid hlen hauth hone⟩

/-! ### A cipher that opens the chunks of some files only -/

/-- A checksum as before, and a list of what was sealed. -/
def strictSuite (files : List (FileManifest × Bytes)) : Suite Unit where
  encrypt := checksumSuite.encrypt
  decrypt key nonce ad ct := (checksumSuite.decrypt key nonce ad ct).filter fun msg =>
    files.any fun f => (List.range (chunkCount f.2)).any fun i =>
      nonce = nonceOf checksumSuite f.1 i ∧ ad = adOf f.1 i ∧ msg = chunk f.2 i
  chunkNonce := checksumSuite.chunkNonce
  length_encrypt := checksumSuite.length_encrypt
  length_decrypt key nonce ad ct msg h :=
    checksumSuite.length_decrypt key nonce ad ct msg (Option.filter_eq_some_iff.mp h).1
  length_chunkNonce := checksumSuite.length_chunkNonce

variable {files : List (FileManifest × Bytes)}

lemma decrypt_checksum {nonce ad ct msg : Bytes} :
    checksumSuite.decrypt () nonce ad ct = some msg ↔ ct = msg ++ checksum ad msg := by
  simp only [checksumSuite]
  constructor
  · intro h
    split at h
    · next heq => rwa [Option.some.inj h] at heq
    · cases h
  · rintro rfl
    simp [checksum]

/-- What the cipher opens. -/
lemma decrypt_strict {nonce ad ct msg : Bytes} :
    (strictSuite files).decrypt () nonce ad ct = some msg ↔ ct = msg ++ checksum ad msg ∧
      ∃ f ∈ files, ∃ i < chunkCount f.2,
        nonce = nonceOf checksumSuite f.1 i ∧ ad = adOf f.1 i ∧ msg = chunk f.2 i := by
  simp only [strictSuite, Option.filter_eq_some_iff, decrypt_checksum, List.any_eq_true,
    List.mem_range, decide_eq_true_eq]

lemma authentic_strict : Authentic (strictSuite files) () files := by
  intro nonce ad ct p h
  obtain ⟨hct, f, hf, i, hi, hnonce, had, hp⟩ := decrypt_strict.mp h
  refine ⟨f, hf, i, hi, hnonce, had, ?_, hp⟩
  rw [hct, had, hp]
  rfl

lemma opens_strict (h : (M, plain) ∈ files) : Opens (strictSuite files) () M plain :=
  fun i hi => decrypt_strict.mpr ⟨rfl, (M, plain), h, i, hi, rfl, rfl, rfl⟩

theorem intact_iff_two_bytes :
    Intact (strictSuite [(twoBytes, [7, 8])]) () twoBytes [7, 8] ↔
      Distinct (strictSuite [(twoBytes, [7, 8])]) twoBytes [7, 8] :=
  intact_iff _ () twoBytes [7, 8] [(twoBytes, [7, 8])] rfl rfl rfl ⟨by simp, by simp⟩
    (opens_strict (by simp)) authentic_strict

/-- A file of 4 PiB of zeros and 1 MiB of ones. -/
def large : Bytes := List.replicate (2 ^ 32 * plaintextChunk) 0 ++ List.replicate plaintextChunk 1

def largeManifest : FileManifest := ⟨5, 4503599628419072, 1048576, 1, 1⟩

lemma length_large : large.length = 2 ^ 32 * plaintextChunk + plaintextChunk := by simp [large]

/-- The first chunk is one of zeros, the last one is one of ones. -/
lemma chunk_large : chunk large (2 ^ 32) = List.replicate plaintextChunk 1 ∧
    chunk large 0 = List.replicate plaintextChunk 0 := by
  have hle : plaintextChunk ≤ 2 ^ 32 * plaintextChunk := Nat.le_mul_of_pos_left _ (by decide)
  constructor
  · rw [chunk, large, List.drop_left' (List.length_replicate ..), List.take_of_length_le]
    rw [List.length_replicate]
  · rw [chunk, large, Nat.zero_mul, List.drop_zero, List.take_append_of_le_length,
      List.take_replicate, Nat.min_eq_left hle]
    rw [List.length_replicate]
    exact hle

/-- The chunks of a large file can be exchanged, though nothing else opens under its key. -/
theorem swapped_chunk_accepted :
    largeManifest.validate = .ok () ∧ largeManifest.chunkSize.toNat = plaintextChunk ∧
    large.length = largeManifest.totalSize.toNat ∧
    OneContent largeManifest large [(largeManifest, large)] ∧
    Opens (strictSuite [(largeManifest, large)]) () largeManifest large ∧
    Authentic (strictSuite [(largeManifest, large)]) () [(largeManifest, large)] ∧
    ¬Intact (strictSuite [(largeManifest, large)]) () largeManifest large := by
  have hvalid : largeManifest.validate = .ok () := by decide
  have hsize : largeManifest.chunkSize.toNat = plaintextChunk := rfl
  have hlen : large.length = largeManifest.totalSize.toNat := by
    rw [length_large]
    decide
  have hmem : (largeManifest, large) ∈ [(largeManifest, large)] := List.mem_singleton_self _
  have hone : OneContent largeManifest large [(largeManifest, large)] :=
    ⟨hmem, fun f hf _ _ => by rw [List.mem_singleton.mp hf]⟩
  refine ⟨hvalid, hsize, hlen, hone, opens_strict hmem, authentic_strict, fun h => ?_⟩
  have hdist := distinct_of_intact hvalid hsize hlen (opens_strict hmem) h
  have hlast : 2 ^ 32 < chunkCount large := by
    rw [lt_chunkCount, length_large]
    exact Nat.lt_add_of_pos_right (by decide)
  have hraw : ∀ k ≤ 0, Raw (nonceOf (strictSuite [(largeManifest, large)]) largeManifest k) :=
    fun _ _ => (by decide : Raw (List.replicate nonceLen 0))
  have hexp : (chunk large (2 ^ 32)).length = largeManifest.chunkLen (place 0) := by
    rw [chunk_large.1, List.length_replicate]
    decide
  have hsame := hdist (2 ^ 32) hlast 0 (by omega) (by decide) hraw hexp
  rw [chunk_large.1, chunk_large.2, List.replicate_inj] at hsame
  revert hsame
  decide

end Vautr.FileIntegrity
