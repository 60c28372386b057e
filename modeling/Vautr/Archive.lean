import Vautr.FileStream

/-!
Backup archives (`vautr-backup/src/archive.rs`).

An archive is a magic text, a version, a nonce and a ciphertext. The magic text is compared and
authenticated; the version is compared with the highest one that is known, and not authenticated.
-/

namespace Vautr.Archive

open Vautr.FileStream

inductive ArchiveError
  | unsupportedVersion (version : ℕ)
  | integrity (msg : String)
  | malformed
  | decrypt
  deriving DecidableEq

def currentFormatVersion : ℕ := 1

/-- `MAGIC`, the bytes of `VAUTRBK1`. -/
def magic : Bytes := [0x56, 0x41, 0x55, 0x54, 0x52, 0x42, 0x4b, 0x31]

def nonceLen : ℕ := 24

/-- A nonce of `XChaCha20Poly1305`. -/
abbrev Nonce := { nonce : Bytes // nonce.length = nonceLen }

/-- `XChaCha20Poly1305` as an ideal cipher: what opens is what was sealed under this key and nonce
and with this associated data. A ciphertext is never empty, since it ends with the tag. A text that
is too long is refused. -/
structure Aead (K : Type) where
  encrypt : K → Nonce → Bytes → Bytes → Option Bytes
  decrypt : K → Nonce → Bytes → Bytes → Option Bytes
  decrypt_eq_some : ∀ key nonce ad ct msg,
    decrypt key nonce ad ct = some msg ↔ encrypt key nonce ad msg = some ct
  ne_nil : ∀ key nonce ad msg ct, encrypt key nonce ad msg = some ct → ct ≠ []

variable {K : Type} (A : Aead K)

/-- `seal`, with the nonce that was drawn. -/
def sealArchive (key : K) (nonce : Nonce) (payload : Bytes) : Except ArchiveError Bytes :=
  match A.encrypt key nonce magic payload with
  | none => .error (.integrity "AEAD encryption failed")
  | some ct => .ok (magic ++ beBytes 4 currentFormatVersion ++ nonce.1 ++ ct)

/-- The version of an archive. -/
def versionBytes (archive : Bytes) : Bytes := (archive.drop magic.length).take 4

/-- What follows the version. -/
def body (archive : Bytes) : Bytes := archive.drop (magic.length + 4)

/-- `open`. -/
def openArchive (key : K) (archive : Bytes) : Except ArchiveError Bytes :=
  if hlen : archive.length < magic.length + 4 + nonceLen + 1 then .error .malformed
  else if archive.take magic.length ≠ magic then .error .malformed
  else if currentFormatVersion < ofBeBytes (versionBytes archive) then
    .error (.unsupportedVersion (ofBeBytes (versionBytes archive)))
  else
    let nonce : Nonce := ⟨(body archive).take nonceLen, by
      simp only [body, List.length_take, List.length_drop]
      omega⟩
    match A.decrypt key nonce magic ((body archive).drop nonceLen) with
    | some payload => .ok payload
    | none => .error .decrypt

/-! ### What opens -/

variable {A} {key : K} {nonce : Nonce} {archive payload : Bytes}

lemma seal_iff : sealArchive A key nonce payload = .ok archive ↔
    ∃ ct, A.encrypt key nonce magic payload = some ct ∧
      archive = magic ++ (beBytes 4 currentFormatVersion ++ (nonce.1 ++ ct)) := by
  unfold sealArchive
  cases A.encrypt key nonce magic payload with
  | none => simp
  | some ct =>
    simp only [Except.ok.injEq, Option.some.injEq, exists_eq_left', List.append_assoc]
    exact eq_comm

lemma versionBytes_append {v rest : Bytes} (hv : v.length = 4) :
    versionBytes (magic ++ (v ++ rest)) = v := by
  rw [versionBytes, List.drop_left, ← hv, List.take_left]

lemma body_append {v rest : Bytes} (hv : v.length = 4) :
    body (magic ++ (v ++ rest)) = rest := by
  rw [body, ← hv, ← List.length_append, ← List.append_assoc, List.drop_left]

/-- What opens has a known version and holds what was sealed under the key. -/
lemma open_iff : openArchive A key archive = .ok payload ↔
    ∃ v ≤ currentFormatVersion, ∃ nonce ct, A.encrypt key nonce magic payload = some ct ∧
      archive = magic ++ (beBytes 4 v ++ (nonce.1 ++ ct)) := by
  constructor
  · -- what passes the three checks and opens is the framing of what was sealed
    intro h
    unfold openArchive at h
    split at h
    · cases h
    next hlen =>
    split at h
    · cases h
    next hmagic =>
    split at h
    · cases h
    next hversion =>
    dsimp only at h
    split at h
    rotate_left
    · cases h
    next hdec =>
    obtain rfl := Except.ok.inj h
    have hfour : (versionBytes archive).length = 4 := by
      simp only [versionBytes, List.length_take, List.length_drop]
      omega
    refine ⟨_, not_lt.mp hversion, _, _, (A.decrypt_eq_some _ _ _ _ _).mp hdec, ?_⟩
    have hbytes := beBytes_ofBeBytes (versionBytes archive)
    rw [hfour] at hbytes
    rw [hbytes, List.take_append_drop, body, versionBytes, ← List.drop_drop,
      List.take_append_drop]
    calc archive = archive.take magic.length ++ archive.drop magic.length :=
          (List.take_append_drop _ _).symm
      _ = magic ++ archive.drop magic.length := by rw [not_not.mp hmagic]
  · -- the framing passes the checks, and is cut where it was put together
    rintro ⟨v, hv, nonce, ct, henc, rfl⟩
    have hct : 0 < ct.length := List.length_pos_iff.mpr (A.ne_nil _ _ _ _ _ henc)
    have hversion : ofBeBytes (beBytes 4 v) = v := by
      apply ofBeBytes_beBytes
      simp only [currentFormatVersion] at hv
      omega
    have hnonce : nonce.1.length = nonceLen := nonce.2
    have hbody : body (magic ++ (beBytes 4 v ++ (nonce.1 ++ ct))) = nonce.1 ++ ct :=
      body_append (length_beBytes 4 v)
    unfold openArchive
    rw [dif_neg (by simp only [List.length_append, length_beBytes, hnonce]; omega),
      if_neg (by rw [List.take_left]; exact not_not.mpr rfl),
      versionBytes_append (length_beBytes 4 v), hversion, if_neg (not_lt.mpr hv)]
    have htake : (body (magic ++ (beBytes 4 v ++ (nonce.1 ++ ct)))).take nonceLen = nonce.1 := by
      rw [hbody, List.take_left' hnonce]
    have hdrop : (body (magic ++ (beBytes 4 v ++ (nonce.1 ++ ct)))).drop nonceLen = ct := by
      rw [hbody, List.drop_left' hnonce]
    simp only [htake, hdrop, (A.decrypt_eq_some _ _ _ _ _).mpr henc]

/-! ### Altered archives -/

variable (A) (key) in
/-- The bytes are what `seal` gives, for some payload and nonce. -/
def Sealed (archive : Bytes) : Prop :=
  ∃ nonce payload, sealArchive A key nonce payload = .ok archive

/-- The archive with another version. -/
def withVersion (v : ℕ) (archive : Bytes) : Bytes :=
  archive.take magic.length ++ (beBytes 4 v ++ archive.drop (magic.length + 4))

variable (A) (key) in
/-- A sealed archive whose version was overwritten with zeros. -/
def Downgraded (archive : Bytes) : Prop :=
  ∃ original, Sealed A key original ∧ archive = withVersion 0 original

lemma withVersion_append (v w : ℕ) (rest : Bytes) :
    withVersion v (magic ++ (beBytes 4 w ++ rest)) = magic ++ (beBytes 4 v ++ rest) := by
  have hrest : body (magic ++ (beBytes 4 w ++ rest)) = rest := body_append (length_beBytes 4 w)
  rw [withVersion, List.take_left, ← body, hrest]

lemma not_sealed_of_zero {rest : Bytes} : ¬Sealed A key (magic ++ (beBytes 4 0 ++ rest)) := by
  rintro ⟨nonce, payload, h⟩
  obtain ⟨ct, -, heq⟩ := seal_iff.mp h
  have hversion := congrArg versionBytes heq
  rw [versionBytes_append (length_beBytes 4 0),
    versionBytes_append (length_beBytes 4 currentFormatVersion)] at hversion
  exact absurd (beBytes_injective (by omega) (by decide) hversion) (by decide)

/-- **Archives.** What was sealed opens to the payload. What opens was sealed, exactly for the byte
strings that are not a sealed archive with a zero version. -/
theorem sealed_iff_not_downgraded (A : Aead K) :
    (∀ key nonce payload archive, sealArchive A key nonce payload = .ok archive →
      openArchive A key archive = .ok payload) ∧
    ∀ key archive, (∀ payload, openArchive A key archive = .ok payload → Sealed A key archive) ↔
      ¬Downgraded A key archive := by
  refine ⟨fun key nonce payload archive h => ?_, fun key archive => ⟨?_, fun hdown payload h => ?_⟩⟩
  · obtain ⟨ct, henc, rfl⟩ := seal_iff.mp h
    exact open_iff.mpr ⟨currentFormatVersion, le_rfl, nonce, ct, henc, rfl⟩
  · rintro hsealed ⟨original, ⟨nonce, payload, h⟩, rfl⟩
    obtain ⟨ct, henc, rfl⟩ := seal_iff.mp h
    rw [withVersion_append] at hsealed
    refine not_sealed_of_zero (hsealed payload ?_)
    exact open_iff.mpr ⟨0, Nat.zero_le _, nonce, ct, henc, rfl⟩
  · obtain ⟨v, hv, nonce, ct, henc, rfl⟩ := open_iff.mp h
    have hsealed : Sealed A key (magic ++ (beBytes 4 currentFormatVersion ++ (nonce.1 ++ ct))) :=
      ⟨nonce, payload, seal_iff.mpr ⟨ct, henc, rfl⟩⟩
    have hcases : v = 0 ∨ v = currentFormatVersion := by
      simp only [currentFormatVersion] at hv ⊢
      omega
    rcases hcases with rfl | rfl
    · exact absurd ⟨_, hsealed, (withVersion_append _ _ _).symm⟩ hdown
    · exact hsealed

/-! ### A downgraded archive -/

/-- A cipher that puts 16 bytes of its key before the text. -/
def plainAead : Aead UInt8 where
  encrypt key _ _ msg := some (List.replicate 16 key ++ msg)
  decrypt key _ _ ct := if ct.take 16 = List.replicate 16 key then some (ct.drop 16) else none
  decrypt_eq_some key _ _ ct msg := by
    simp only [Option.ite_none_right_eq_some, Option.some.injEq]
    constructor
    · rintro ⟨htake, rfl⟩
      rw [← htake, List.take_append_drop]
    · rintro rfl
      exact ⟨List.take_left' (by simp), List.drop_left' (by simp)⟩
  ne_nil key _ _ msg ct h := by
    rw [← Option.some.inj h]
    simp

def zeroNonce : Nonce := ⟨List.replicate 24 0, by decide⟩

/-- An archive of one byte. -/
def oneByte : Bytes := magic ++ beBytes 4 1 ++ zeroNonce.1 ++ (List.replicate 16 7 ++ [9])

theorem sealed_iff_not_downgraded_one :
    openArchive plainAead 7 oneByte = .ok [9] ∧
    ((∀ payload, openArchive plainAead 7 (withVersion 0 oneByte) = .ok payload →
      Sealed plainAead 7 (withVersion 0 oneByte)) ↔
        ¬Downgraded plainAead 7 (withVersion 0 oneByte)) :=
  ⟨(sealed_iff_not_downgraded plainAead).1 7 zeroNonce [9] oneByte rfl,
    (sealed_iff_not_downgraded plainAead).2 7 _⟩

/-- The version of a sealed archive is changed from one to zero, and it still opens. -/
theorem zero_version_opens : Sealed plainAead 7 oneByte ∧
    openArchive plainAead 7 (withVersion 0 oneByte) = .ok [9] ∧
    ¬Sealed plainAead 7 (withVersion 0 oneByte) := by
  refine ⟨⟨zeroNonce, [9], rfl⟩, by decide, ?_⟩
  have hsplit : withVersion 0 oneByte = magic ++ (beBytes 4 0 ++ body oneByte) := rfl
  rw [hsplit]
  exact not_sealed_of_zero

end Vautr.Archive
