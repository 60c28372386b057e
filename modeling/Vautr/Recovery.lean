import Vautr.Credentials

/-!
Recovery with the recovery key, and reclaiming an account (`handlers/recovery.rs`).

A signature is a blob of 64 bytes, and `Signature::from_slice` takes every such blob.
-/

namespace Vautr.Recovery

open Vautr.Atomic Vautr.Sql Vautr.Database Vautr.Api Vautr.Server Vautr.Auth Vautr.Credentials

variable {B : Type} (X : CredExt B)

def recoveryTokenTtlMs : ℤ := 600000

def reclaimSuspensionMs : ℤ := 30 * 24 * 3600000

def challengeTtlMs : ℤ := 5 * 60 * 1000

/-- `recover_challenge`; the nonce. -/
def recoverChallenge (email : String) : CredHandler B B := do
  let nonce ← random
  match ← orInternal (getUserByEmail email) with
  | some user =>
    let expiresAt := (← nowMs) + challengeTtlMs
    let now ← nowMs
    orInternal (storeRecoveryChallenge user.id nonce expiresAt now)
    return nonce
  | none => return nonce

structure VerifyReq (B : Type) where
  email : String
  nonce : Option (Option B)
  signature : Option B

structure VerifyResp where
  recoveryToken : String
  expiresAt : ℤ
  deriving DecidableEq

def verificationFailed : ApiError := .badRequest "verification_failed" "verification failed"

/-- The key is 32 bytes and a point of the curve, the signature is 64 bytes, and it is one
of the nonce. -/
def signed (key nonce sig : B) : Bool :=
  X.len sig = 64 && X.verifyingKey key && X.verifyStrict key nonce sig

/-- The echo of the nonce, if there is one, is the stored nonce. -/
def requireEcho [DecidableEq B] (nonce : Option (Option B)) (stored : B) : CredHandler B Unit :=
  match nonce with
  | none => pure ()
  | some echo => do
    if (← decodeB64 echo) ≠ stored then throw verificationFailed else return ()

/-- The end of `recover_verify`: the challenge is consumed and a token minted. -/
def mintRecovery (user : Ident) : CredHandler B VerifyResp := do
  orInternal (deleteRecoveryChallenge user)
  let token := X.hyphenated (← newUuid)
  let now ← nowMs
  let expiresAt := now + recoveryTokenTtlMs
  orInternal (createRecoverySession X token user expiresAt now)
  return ⟨token, expiresAt⟩

/-- `recover_verify` for a known user with a key. -/
def verifyChallenge [DecidableEq B] (req : VerifyReq B) (user : Ident) (key : B) :
    CredHandler B VerifyResp := do
  let (stored, expiresAt) ← orElse (getRecoveryChallenge user) verificationFailed
  if expiresAt < (← nowMs) then
    ignored (deleteRecoveryChallenge user)
    throw verificationFailed
  else
    requireEcho req.nonce stored
    if !signed X key stored (← decodeB64 req.signature) then
      throw verificationFailed
    else
      mintRecovery X user

def recoverVerify [DecidableEq B] (req : VerifyReq B) : CredHandler B VerifyResp := do
  let user ← orElse (getUserByEmail req.email) verificationFailed
  let key ← orElse (getRkPublicKey user.id) verificationFailed
  if X.len key ≠ 32 then
    throw verificationFailed
  else
    verifyChallenge X req user.id key

structure RecoverInfoResp (B : Type) where
  svkCiphertextBlobRk : B
  userId : Ident

def recoverInfo (token : String) : CredHandler B (RecoverInfoResp B) := do
  let (user, _) ← orElse (peekRecoverySession X token) unauthorized
  let row ← orElse (getUserById user) unauthorized
  return ⟨row.svkCiphertextBlobRk, user⟩

structure CompleteReq (B : Type) where
  recoveryToken : String
  opaqueRecord : Option B
  kdfSalt : Option B
  svkCiphertextBlob : Option B
  svkCiphertextBlobRk : Option B
  rkPublicKey : Option B

/-- `recover_complete`. The status is "success"; the user, whom the reply does not name, is
kept for statements about it. -/
def recoverComplete (req : CompleteReq B) : CredHandler B Ident := do
  let (user, expiresAt) ← orElse (consumeRecoverySession X req.recoveryToken) unauthorized
  if expiresAt < (← nowMs) then
    throw unauthorized
  else
    let opaqueRecord ← decodeB64 req.opaqueRecord
    let kdfSalt ← decodeB64 req.kdfSalt
    let svkMp ← decodeB64 req.svkCiphertextBlob
    let svkRk ← decodeB64 req.svkCiphertextBlobRk
    let rkPk ← decodeB64 req.rkPublicKey
    if X.len rkPk ≠ 32 then
      throw (.badRequest "invalid_rk_key" "RK public key must be 32 bytes")
    else
      let now ← nowMs
      orInternal (completeRecovery user opaqueRecord kdfSalt svkMp svkRk rkPk now)
      orInternal (revokeUserSessions user)
      return user

structure ReclaimReq (B : Type) where
  email : String
  signature : Option B

/-- The proof that `reclaim` asks for: a signature of the stored nonce. -/
def reclaimProof (req : ReclaimReq B) (user : Ident) : CredHandler B Bool := do
  match ← orInternal (getRkPublicKey user) with
  | none => return false
  | some key =>
    if X.len key ≠ 32 then
      return false
    else
      match ← orInternal (getRecoveryChallenge user) with
      | none => return false
      | some (nonce, expiresAt) =>
        if expiresAt < (← nowMs) then
          ignored (deleteRecoveryChallenge user)
          return false
        else
          return signed X key nonce (← decodeB64 req.signature)

/-- `reclaim`; the token, if the proof is right. -/
def reclaim (req : ReclaimReq B) : CredHandler B (Option String) := do
  match ← orInternal (getUserByEmail req.email) with
  | none => return none
  | some user =>
    if !(← reclaimProof X req user.id) then
      return none
    else
      ignored (deleteRecoveryChallenge user.id)
      let token := X.hyphenated (← newUuid)
      let now ← nowMs
      orInternal (storeReclaim X user.id token (now + reclaimSuspensionMs))
      return some token

def reclaimConfirm (token : String) : CredHandler B Unit := do
  let user ← orElse (getUserByReclaimToken X token) unauthorized
  orInternal (clearReclaim user)

end Vautr.Recovery
