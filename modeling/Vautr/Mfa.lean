import Vautr.Credentials

/-!
The second step of a login (`handlers/mfa.rs`): a one-time code or a recovery code against
the pending token that `login_finish` gave out.
-/

namespace Vautr.Mfa

open Vautr.Atomic Vautr.Sql Vautr.Database Vautr.Api Vautr.Server Vautr.Auth Vautr.Credentials

variable {B : Type} (X : CredExt B)

def invalidPendingToken : ApiError :=
  .new 401 "invalid_pending_token" "pending MFA token is invalid or expired"

/-- The pending row of both handlers: it exists, has not expired and has attempts left. -/
def requirePending (hash : String) : CredHandler B Ident := do
  let row ← orElse (getPendingMfa hash) invalidPendingToken
  if row.expiresAt < (← nowMs) ∨ 5 ≤ row.attempts then
    ignored (deletePendingMfa hash)
    throw invalidPendingToken
  else
    return row.userId

/-- The end of both handlers: the pending row is deleted and a session minted. -/
def completeLogin (hash : String) (user : Ident) : CredHandler B (LoginFinishResp String) := do
  orInternal (deletePendingMfa hash)
  let token := "vtr-session-" ++ X.simple (← newUuid)
  let expiresAt := (← nowMs) + 86400000
  orInternal (storeSession X token user expiresAt)
  ignored auditOrgEvent
  return ⟨some token, some expiresAt, none⟩

/-- `verify_totp_with_step`: the step of the window whose code it is. -/
def verifyTotpWithStep (secret : B) (code : String) : CredHandler B (Option ℤ) :=
  match X.totpVerifier secret with
  | .error msg => throw (.internalText ("invalid totp secret: " ++ msg))
  | .ok () => do
    let current := (← nowMs) / 1000 / 30
    return [current - 1, current, current + 1].find? fun step =>
      X.totpGenerate secret (step * 30) = code

structure TotpVerifyLoginReq where
  pendingToken : String
  code : String

/-- What a matching code leads to, unless its step was used before. -/
def acceptStep (hash : String) (user : Ident) (now step : ℤ) :
    CredHandler B (LoginFinishResp String) := do
  if ← orInternal (totpStepUsed user step) then
    throw (.new 401 "totp_replay" "this one-time code has already been used")
  else
    orInternal (markTotpStepUsed user step now)
    orInternal (clearTotpFailures user)
    completeLogin X hash user

def verifyLoginTotp (req : TotpVerifyLoginReq) : CredHandler B (LoginFinishResp String) := do
  let hash := X.sha256Hex req.pendingToken
  let user ← requirePending hash
  let secret ← orElse (getTotpSecret user)
    (.new 401 "no_totp_configured" "TOTP is not configured for this account")
  let now ← nowMs
  if now < (← orInternal (totpLockState user)).2 then
    throw (.new 429 "totp_locked" "too many failed codes; try again later")
  else
    match ← verifyTotpWithStep X secret req.code with
    | none =>
      orInternal (bumpPendingMfaAttempts hash)
      orInternal (registerTotpFailure user now)
      throw (.new 401 "invalid_totp_code" "invalid one-time code")
    | some step => acceptStep X hash user now step

structure RecoveryVerifyLoginReq where
  pendingToken : String
  recoveryCode : String

def verifyLoginRecovery (req : RecoveryVerifyLoginReq) :
    CredHandler B (LoginFinishResp String) := do
  let hash := X.sha256Hex req.pendingToken
  let user ← requirePending hash
  if !(← orInternal (redeemRecoveryCode X user req.recoveryCode)) then
    orInternal (bumpPendingMfaAttempts hash)
    throw (.new 401 "invalid_recovery_code" "invalid or already-used recovery code")
  else
    completeLogin X hash user

end Vautr.Mfa
