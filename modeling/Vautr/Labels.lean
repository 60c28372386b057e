import Vautr.CredEffects

/-!
What the statements of a request are called.

Much of what is said of a run needs only the names of the statements: a request that runs no
statement of a certain name cannot do what only such a statement does. The names are checked
once, for any property `P` of names that the plain statements have.
-/

namespace Vautr.Labels

open Vautr.Atomic Vautr.Sql Vautr.Database Vautr.Api Vautr.Server Vautr.Auth Vautr.Zoom
open Vautr.Credentials Vautr.Tokens Vautr.Mfa Vautr.Recovery Vautr.LoginBinding Vautr.CredEffects

variable {B α : Type} {X : CredExt B}

/-- Statements that give out a credential. -/
def grants : CredStmt → Bool
  | .auth (.storeLogin _) => true
  | .auth (.storeSession _) => true
  | .auth (.storePendingMfa _) => true
  | .insertToken _ _ _ => true
  | .createRecoverySession _ => true
  | _ => false

/-- Statements that neither give out, nor take up, nor check a credential of a login. -/
def plain : CredStmt → Bool
  | .auth (.takeLogin _) => false
  | .totpLockState _ => false
  | .redeemRecoveryCode _ _ => false
  | .totpStepUsed _ _ => false
  | .bumpPending _ => false
  | .markTotpStep _ _ => false
  | l => !grants l

lemma grants_of_plain {l : CredStmt} (h : plain l = true) : grants l = false := by
  unfold plain at h
  split at h <;> simp_all

/-- The statement has a name with the property `P`. -/
def Labelled (P : CredStmt → Prop) (ev : CredEv B) : Prop := P ev.name

/-! ### Statements on the tables of the login -/

section Login

variable {P : CredStmt → Prop} {O : Opaque B} {rely : AuthStmt → AuthDb B → AuthDb B → Prop}

/-- The same of a statement on the tables of the login. -/
def LabelledL (P : CredStmt → Prop) (ev : AuthEv B) : Prop := P (.auth ev.name)

lemma labelsL_statement {l : AuthStmt} (hl : P (.auth l))
    {g : AuthEnv B → AuthDb B → AuthDb B × Except SqlError α} :
    Guarantees rely (LabelledL P) (statement l g).run :=
  guarantees_statement (fun _ _ => hl) fun _ _ => hl

/-- A draw or a look at the clock, which no database can refuse. -/
lemma labelsL_read {l : AuthStmt} (hl : P (.auth l)) {g : AuthEnv B → α} :
    Guarantees rely (LabelledL P)
      (ExceptT.mk (Prog.atom l fun e db => (db, .ok (g e))) : AuthHandler B α).run :=
  guarantees_stmt (fun _ _ => hl) fun _ _ => guarantees_ret _

lemma labelsL_orCryptoError (r : Except String α) :
    Guarantees rely (LabelledL P) (orCryptoError r : AuthHandler B α).run := by
  cases r with
  | ok a => exact guarantees_pure_except a
  | error msg => exact guarantees_throw_except _

variable (hP : ∀ l, plain l = true → P l)
include hP

/-- The setup is read from the file, from the database, or made and stored. -/
lemma labelsL_serverSetup : Guarantees rely (LabelledL P) (serverSetup O).run := by
  unfold serverSetup
  rcases O.setupFile with _ | (_ | bytes)
  · refine guarantees_bind_except (guarantees_orInternal (labelsL_statement (hP _ rfl))) ?_
    rintro (_ | bytes)
    · dsimp only
      split
      · exact guarantees_throw_except _
      refine guarantees_bind_except (labelsL_read (hP _ rfl)) fun r =>
        guarantees_bind_except (labelsL_orCryptoError _) fun fresh =>
        guarantees_bind_except (guarantees_orInternal (labelsL_statement (hP _ rfl))) fun _ =>
        guarantees_bind_except (guarantees_orInternal (labelsL_statement (hP _ rfl))) ?_
      rintro (_ | stored)
      · exact guarantees_throw_except _
      · exact guarantees_pure_except _
    · dsimp only
      split
      · exact guarantees_pure_except _
      · exact guarantees_throw_except _
  · exact guarantees_throw_except _
  · dsimp only
    split
    · exact guarantees_pure_except _
    · exact guarantees_throw_except _

lemma labelsL_serverPublicKey : Guarantees rely (LabelledL P) (serverPublicKey O).run := by
  refine guarantees_bind_except (guarantees_orInternal (labelsL_statement (hP _ rfl))) fun pk => ?_
  split
  · exact guarantees_pure_except _
  refine guarantees_bind_except (labelsL_read (hP _ rfl)) fun r =>
    guarantees_bind_except (guarantees_orInternal (labelsL_statement (hP _ rfl))) fun _ =>
    guarantees_bind_except (guarantees_orInternal (labelsL_statement (hP _ rfl))) fun pk => ?_
  split
  · exact guarantees_pure_except _
  · exact guarantees_throw_except _

lemma labelsL_registerStart (req : RegisterStartReq B) :
    Guarantees rely (LabelledL P) (registerStart O req).run :=
  guarantees_bind_except (labelsL_serverSetup hP) fun _ =>
    guarantees_bind_except (guarantees_decodeB64 _) fun _ =>
    guarantees_bind_except (labelsL_orCryptoError _) fun _ =>
    guarantees_bind_except (labelsL_serverPublicKey hP) fun _ => guarantees_pure_except _

/-- A registration gives out no credential: the account has to log in. -/
lemma labelsL_registerFinish [DecidableEq B] (req : RegisterFinishReq B) :
    Guarantees rely (LabelledL P) (registerFinish O req).run := by
  refine guarantees_bind_except (labelsL_serverSetup hP) fun _ =>
    guarantees_bind_except (guarantees_decodeB64 _) fun pk => ?_
  split
  · exact guarantees_throw_except _
  split
  · exact guarantees_throw_except _
  refine guarantees_bind_except (labelsL_serverPublicKey hP) fun stored => ?_
  split
  · exact guarantees_throw_except _
  refine guarantees_bind_except (guarantees_decodeB64 _) fun _ =>
    guarantees_bind_except (labelsL_orCryptoError _) fun _ =>
    guarantees_bind_except (guarantees_decodeB64 _) fun _ =>
    guarantees_bind_except (guarantees_decodeB64 _) fun _ =>
    guarantees_bind_except (guarantees_decodeB64 _) fun _ =>
    guarantees_bind_except (labelsL_read (hP _ rfl)) fun _ =>
    guarantees_bind_except (labelsL_read (hP _ rfl)) fun _ =>
    guarantees_bind_except (guarantees_orInternal (labelsL_statement (hP _ rfl))) fun found => ?_
  split
  · exact guarantees_throw_except _
  refine guarantees_bind_except (guarantees_bind (labelsL_statement (hP _ rfl))
    fun _ => guarantees_ret _) fun _ =>
      guarantees_bind_except (guarantees_ignored ?_) fun _ => guarantees_pure_except _
  refine guarantees_bind_except (labelsL_statement (hP _ rfl)) ?_
  rintro (_ | _)
  · exact guarantees_pure_except _
  · exact labelsL_statement (hP _ rfl)

lemma labelsL_enforceMfaRequired (user : Ident) :
    Guarantees rely (LabelledL P) (enforceMfaRequired user : AuthHandler B Unit).run := by
  refine guarantees_bind_except (guarantees_orInternal (labelsL_statement (hP _ rfl)))
    fun required => ?_
  split
  · exact guarantees_pure_except _
  refine guarantees_bind_except
    (guarantees_bind_except (guarantees_orInternal (labelsL_statement (hP _ rfl))) fun _ =>
      guarantees_bind_except (guarantees_orInternal (labelsL_statement (hP _ rfl))) fun _ =>
        guarantees_pure_except _) fun methods => ?_
  split
  · exact guarantees_throw_except _
  · exact guarantees_pure_except _

/-- It stores one pending token, and what else it runs is plain. -/
lemma labelsL_mintPending {user : Ident} (hl : P (.auth (.storePendingMfa user))) :
    Guarantees rely (LabelledL P) (mintPending O user).run :=
  guarantees_bind_except (guarantees_ignored (labelsL_statement (hP _ rfl))) fun _ =>
    guarantees_bind_except (labelsL_read (hP _ rfl)) fun _ =>
    guarantees_bind_except (labelsL_read (hP _ rfl)) fun _ =>
    guarantees_bind_except (guarantees_orInternal (labelsL_statement hl)) fun _ =>
      guarantees_pure_except _

/-- It stores one session, and what else it runs is plain. -/
lemma labelsL_mintSession {user : Ident} (token : B) (hl : P (.auth (.storeSession user))) :
    Guarantees rely (LabelledL P) (mintSession O user token).run :=
  guarantees_bind_except (labelsL_read (hP _ rfl)) fun _ =>
    guarantees_bind_except (guarantees_orInternal (labelsL_statement hl)) fun _ =>
    guarantees_bind_except (guarantees_ignored (labelsL_statement (hP _ rfl))) fun _ =>
    guarantees_bind_except (guarantees_ignored (labelsL_statement (hP _ rfl))) fun _ =>
      guarantees_pure_except _

end Login

/-! ### Statements of the server -/

variable {P : CredStmt → Prop} {rely : CredStmt → CredDb B → CredDb B → Prop}

/-- A part on the tables of the login. -/
lemma labels_login {p : Prog (AuthDb B) (AuthEnv B) AuthStmt α}
    (h : Guarantees (fun _ _ _ => True) (LabelledL P) p) :
    Guarantees rely (Labelled P) (zoom login p) :=
  guarantees_zoom h (fun _ _ _ _ => trivial) fun _ _ _ _ hl => hl

lemma labels_statement {l : CredStmt} (hl : P l)
    {g : AuthEnv B → CredDb B → CredDb B × Except SqlError α} :
    Guarantees rely (Labelled P) (statement l g).run :=
  guarantees_statement (fun _ _ => hl) fun _ _ => hl

/-- What is missing is an error. -/
lemma labels_orElse {x : CredRepo B (Option α)} (h : Guarantees rely (Labelled P) x.run)
    (err : ApiError) : Guarantees rely (Labelled P) (orElse x err).run := by
  refine guarantees_bind_except (guarantees_orInternal h) ?_
  rintro (_ | a)
  · exact guarantees_throw_except _
  · exact guarantees_pure_except _

lemma labels_requireScopes (scopes : List String) :
    Guarantees rely (Labelled P) (requireScopes scopes : CredHandler B Unit).run := by
  unfold requireScopes
  split
  · exact guarantees_throw_except _
  split
  · exact guarantees_throw_except _
  · exact guarantees_pure_except _

section Plain

variable (hP : ∀ l, plain l = true → P l)
include hP

lemma labels_nowMs : Guarantees rely (Labelled P) (Credentials.nowMs : CredHandler B ℤ).run :=
  labels_login (labelsL_read (hP _ rfl))

lemma labels_random : Guarantees rely (Labelled P) (Credentials.random : CredHandler B B).run :=
  labels_login (labelsL_read (hP _ rfl))

lemma labels_newUuid :
    Guarantees rely (Labelled P) (Credentials.newUuid : CredHandler B Ident).run :=
  labels_login (labelsL_read (hP _ rfl))

lemma labels_audit :
    Guarantees rely (Labelled P) (Credentials.auditOrgEvent : CredRepo B Unit).run :=
  labels_login (labelsL_statement (hP _ rfl))

lemma labels_getUserByEmail (email : String) :
    Guarantees rely (Labelled P) (Credentials.getUserByEmail email : CredRepo B _).run :=
  labels_login (labelsL_statement (hP _ rfl))

lemma labels_authUser (token : String) : Guarantees rely (Labelled P) (authUser X token).run := by
  refine guarantees_bind_except (labels_orElse (labels_statement (hP _ rfl)) _) fun session =>
    guarantees_bind_except (labels_nowMs hP) fun now => ?_
  split
  · exact guarantees_throw_except _
  refine guarantees_bind_except (guarantees_orInternal (labels_statement (hP _ rfl)))
    fun suspended => ?_
  split
  · exact guarantees_throw_except _
  · exact guarantees_pure_except _

/-- A token without a machine account needs none. -/
lemma labels_requireMachineAccount (row : AccessTokenRow) (now : ℤ) :
    Guarantees rely (Labelled P) (requireMachineAccount row now : CredHandler B Unit).run := by
  unfold requireMachineAccount
  cases row.machineAccountUuid with
  | none => exact guarantees_pure_except _
  | some uuid =>
    refine guarantees_bind_except (labels_orElse (labels_statement (hP _ rfl)) _) fun ma => ?_
    split
    · exact guarantees_throw_except _
    split
    · exact guarantees_throw_except _
    · exact guarantees_pure_except _

lemma labels_touchAccountOf (row : AccessTokenRow) (now : ℤ) :
    Guarantees rely (Labelled P) (touchAccountOf row now : CredHandler B Unit).run := by
  unfold touchAccountOf
  cases row.machineAccountUuid with
  | none => exact guarantees_pure_except _
  | some ma => exact guarantees_ignored (labels_statement (hP _ rfl))

lemma labels_verifyAccessToken (token : String) :
    Guarantees rely (Labelled P) (verifyAccessToken X token).run := by
  refine guarantees_bind_except (labels_nowMs hP) fun now =>
    guarantees_bind_except (labels_orElse (labels_statement (hP _ rfl)) _) fun row => ?_
  split
  · exact guarantees_throw_except _
  split
  · exact guarantees_throw_except _
  exact guarantees_bind_except (labels_requireMachineAccount hP row now) fun _ =>
    guarantees_bind_except (guarantees_ignored (labels_statement (hP _ rfl))) fun _ =>
    guarantees_bind_except (labels_touchAccountOf hP row now) fun _ => guarantees_pure_except _

/-- A session or an access token. -/
lemma labels_authAny (token : String) : Guarantees rely (Labelled P) (authAny X token).run := by
  unfold authAny
  split
  · exact guarantees_bind_except (labels_verifyAccessToken hP _) fun _ =>
      guarantees_bind_except (labels_orElse (labels_statement (hP _ rfl)) _) fun _ =>
        guarantees_pure_except _
  · exact guarantees_bind_except (labels_authUser hP _) fun _ => guarantees_pure_except _

lemma labels_logout (bearer : String) : Guarantees rely (Labelled P) (logout X bearer).run :=
  guarantees_bind_except (labels_authUser hP _) fun _ =>
    guarantees_orInternal (labels_statement (hP _ rfl))

lemma labels_requireFuture (expiresAt : Option ℤ) (err : ApiError) :
    Guarantees rely (Labelled P) (requireFuture expiresAt err : CredHandler B Unit).run := by
  unfold requireFuture
  cases expiresAt with
  | none => exact guarantees_pure_except _
  | some exp =>
    refine guarantees_bind_except (labels_nowMs hP) fun now => ?_
    split
    · exact guarantees_throw_except _
    · exact guarantees_pure_except _

lemma labels_validateCreate (req : TokenCreateReq) :
    Guarantees rely (Labelled P) (validateCreate X req).run := by
  unfold validateCreate
  split
  · exact guarantees_throw_except _
  split
  · exact guarantees_throw_except _
  · exact guarantees_bind_except (labels_requireScopes _) fun _ => labels_requireFuture hP _ _

lemma labels_requireAllowed (user : Ident) (req : TokenCreateReq) :
    Guarantees rely (Labelled P) (requireAllowed user req : CredHandler B Unit).run := by
  unfold requireAllowed
  cases req.machineAccountUuid with
  | none => exact guarantees_pure_except _
  | some uuid =>
    refine guarantees_bind_except (labels_orElse (labels_statement (hP _ rfl)) _) fun ma => ?_
    split
    · exact guarantees_throw_except _
    refine guarantees_bind_except (labels_requireFuture hP _ _) fun _ => ?_
    split
    · exact guarantees_throw_except _
    · exact guarantees_pure_except _

lemma labels_requireProject (user : Ident) (req : TokenCreateReq) :
    Guarantees rely (Labelled P) (requireProject user req : CredHandler B Unit).run := by
  unfold requireProject
  cases req.machineAccountUuid with
  | none => exact guarantees_pure_except _
  | some uuid =>
    refine guarantees_bind_except (guarantees_orInternal (labels_statement (hP _ rfl)))
      fun ma => ?_
    split
    · split
      · exact guarantees_throw_except _
      · exact guarantees_pure_except _
    · exact guarantees_throw_except _
    · exact guarantees_pure_except _

lemma labels_revokeToken (bearer : String) (uuid : Ident) :
    Guarantees rely (Labelled P) (revokeToken X bearer uuid).run := by
  refine guarantees_bind_except (labels_authUser hP _) fun user =>
    guarantees_bind_except (labels_nowMs hP) fun now =>
    guarantees_bind_except (guarantees_orInternal (labels_statement (hP _ rfl))) fun hit => ?_
  split
  · exact guarantees_throw_except _
  · exact guarantees_orInternal (labels_audit hP)

lemma labels_createMachineAccountH (bearer : String) (req : MaCreateReq) :
    Guarantees rely (Labelled P) (createMachineAccountH X bearer req).run := by
  refine guarantees_bind_except (labels_authUser hP _) fun user => ?_
  dsimp only
  split
  · exact guarantees_throw_except _
  split
  · exact guarantees_throw_except _
  · exact guarantees_bind_except (labels_requireScopes _) fun _ =>
      guarantees_bind_except (labels_requireFuture hP _ _) fun _ =>
      guarantees_bind_except (labels_newUuid hP) fun _ =>
      guarantees_bind_except (labels_nowMs hP) fun _ =>
      guarantees_bind_except (guarantees_orInternal (labels_statement (hP _ rfl))) fun _ =>
      guarantees_bind_except (guarantees_orInternal (labels_audit hP)) fun _ =>
        labels_orElse (labels_statement (hP _ rfl)) _

/-- An update checks the status and the scopes that it is given, and keeps the others. -/
lemma labels_updateMachineAccountH (bearer : String) (uuid : Ident) (req : MaUpdateReq) :
    Guarantees rely (Labelled P) (updateMachineAccountH X bearer uuid req).run := by
  refine guarantees_bind_except (labels_authUser hP _) fun user =>
    guarantees_bind_except (labels_orElse (labels_statement (hP _ rfl)) _) fun current => ?_
  dsimp only
  split
  · exact guarantees_throw_except _
  refine guarantees_bind_except ?_ fun status => guarantees_bind_except ?_ fun scopes =>
    guarantees_bind_except (labels_requireFuture hP _ _) fun _ =>
    guarantees_bind_except (guarantees_orInternal (labels_statement (hP _ rfl))) fun hit => ?_
  · unfold newStatus
    split
    · exact guarantees_pure_except _
    split
    · exact guarantees_pure_except _
    · exact guarantees_throw_except _
  · unfold newScopes
    split
    · exact guarantees_pure_except _
    · exact guarantees_bind_except (labels_requireScopes _) fun _ => guarantees_pure_except _
  · split
    · exact guarantees_throw_except _
    · exact guarantees_bind_except (guarantees_orInternal (labels_audit hP)) fun _ =>
        labels_orElse (labels_statement (hP _ rfl)) _

lemma labels_deleteMachineAccountH (bearer : String) (uuid : Ident) :
    Guarantees rely (Labelled P) (deleteMachineAccountH X bearer uuid).run := by
  refine guarantees_bind_except (labels_authUser hP _) fun user =>
    guarantees_bind_except (guarantees_orInternal (labels_statement (hP _ rfl))) fun hit => ?_
  split
  · exact guarantees_throw_except _
  · exact guarantees_orInternal (labels_audit hP)

lemma labels_requirePending (hash : String) :
    Guarantees rely (Labelled P) (requirePending hash : CredHandler B Ident).run := by
  refine guarantees_bind_except (labels_orElse (labels_statement (hP _ rfl)) _) fun row =>
    guarantees_bind_except (labels_nowMs hP) fun now => ?_
  split
  · exact guarantees_bind_except (guarantees_ignored (labels_statement (hP _ rfl))) fun _ =>
      guarantees_throw_except _
  · exact guarantees_pure_except _

/-- The session of the second step, once the pending token is gone. -/
lemma labels_completeLogin {user : Ident} (hash : String) (hl : P (.auth (.storeSession user))) :
    Guarantees rely (Labelled P) (completeLogin X hash user).run :=
  guarantees_bind_except (guarantees_orInternal (labels_statement (hP _ rfl))) fun _ =>
    guarantees_bind_except (labels_newUuid hP) fun _ =>
    guarantees_bind_except (labels_nowMs hP) fun _ =>
    guarantees_bind_except (guarantees_orInternal (labels_statement hl)) fun _ =>
    guarantees_bind_except (guarantees_ignored (labels_audit hP)) fun _ => guarantees_pure_except _

lemma labels_verifyTotpWithStep (secret : B) (code : String) :
    Guarantees rely (Labelled P) (verifyTotpWithStep X secret code).run := by
  unfold verifyTotpWithStep
  split
  · exact guarantees_throw_except _
  · exact guarantees_bind_except (labels_nowMs hP) fun _ => guarantees_pure_except _

lemma labels_recoverChallenge (email : String) :
    Guarantees rely (Labelled P) (recoverChallenge email : CredHandler B B).run := by
  refine guarantees_bind_except (labels_random hP) fun nonce =>
    guarantees_bind_except (guarantees_orInternal (labels_getUserByEmail hP _)) ?_
  rintro (_ | user)
  · exact guarantees_pure_except _
  · exact guarantees_bind_except (labels_nowMs hP) fun _ =>
      guarantees_bind_except (labels_nowMs hP) fun _ =>
      guarantees_bind_except (guarantees_orInternal (labels_statement (hP _ rfl))) fun _ =>
        guarantees_pure_except _

lemma labels_recoverInfo (token : String) :
    Guarantees rely (Labelled P) (recoverInfo X token).run :=
  guarantees_bind_except (labels_orElse (labels_statement (hP _ rfl)) _) fun _ =>
    guarantees_bind_except (labels_orElse (labels_statement (hP _ rfl)) _) fun _ =>
      guarantees_pure_except _

/-- A recovery replaces the keys of the account, and gives out no session. -/
lemma labels_recoverComplete (req : CompleteReq B) :
    Guarantees rely (Labelled P) (recoverComplete X req).run := by
  refine guarantees_bind_except (labels_orElse (labels_statement (hP _ rfl)) _) fun found =>
    guarantees_bind_except (labels_nowMs hP) fun now => ?_
  split
  · exact guarantees_throw_except _
  refine guarantees_bind_except (guarantees_decodeB64 _) fun _ =>
    guarantees_bind_except (guarantees_decodeB64 _) fun _ =>
    guarantees_bind_except (guarantees_decodeB64 _) fun _ =>
    guarantees_bind_except (guarantees_decodeB64 _) fun _ =>
    guarantees_bind_except (guarantees_decodeB64 _) fun rkPk => ?_
  split
  · exact guarantees_throw_except _
  · exact guarantees_bind_except (labels_nowMs hP) fun _ =>
      guarantees_bind_except (guarantees_orInternal (labels_statement (hP _ rfl))) fun _ =>
      guarantees_bind_except (guarantees_orInternal (labels_statement (hP _ rfl))) fun _ =>
        guarantees_pure_except _

/-- The proof is looked at only as long as the challenge has not expired. -/
lemma labels_reclaimProof (req : ReclaimReq B) (user : Ident) :
    Guarantees rely (Labelled P) (reclaimProof X req user).run := by
  refine guarantees_bind_except (guarantees_orInternal (guarantees_bind_except
    (labels_statement (hP _ rfl)) fun _ => guarantees_pure_except _)) ?_
  rintro (_ | key)
  · exact guarantees_pure_except _
  dsimp only
  split
  · exact guarantees_pure_except _
  refine guarantees_bind_except (guarantees_orInternal (labels_statement (hP _ rfl))) ?_
  rintro (_ | ⟨nonce, expiresAt⟩)
  · exact guarantees_pure_except _
  refine guarantees_bind_except (labels_nowMs hP) fun now => ?_
  split
  · exact guarantees_bind_except (guarantees_ignored (labels_statement (hP _ rfl))) fun _ =>
      guarantees_pure_except _
  · exact guarantees_bind_except (guarantees_decodeB64 _) fun _ => guarantees_pure_except _

lemma labels_reclaim (req : ReclaimReq B) :
    Guarantees rely (Labelled P) (reclaim X req).run := by
  refine guarantees_bind_except (guarantees_orInternal (labels_getUserByEmail hP _)) ?_
  rintro (_ | user)
  · exact guarantees_pure_except _
  refine guarantees_bind_except (labels_reclaimProof hP _ _) fun ok => ?_
  split
  · exact guarantees_pure_except _
  · exact guarantees_bind_except (guarantees_ignored (labels_statement (hP _ rfl))) fun _ =>
      guarantees_bind_except (labels_newUuid hP) fun _ =>
      guarantees_bind_except (labels_nowMs hP) fun _ =>
      guarantees_bind_except (guarantees_orInternal (labels_statement (hP _ rfl))) fun _ =>
        guarantees_pure_except _

lemma labels_reclaimConfirm (token : String) :
    Guarantees rely (Labelled P) (reclaimConfirm X token).run :=
  guarantees_bind_except (labels_orElse (labels_statement (hP _ rfl)) _) fun _ =>
    guarantees_orInternal (labels_statement (hP _ rfl))

end Plain

/-! ### Statements that give out credentials -/

section Grants

variable (hP : ∀ l, grants l = false → P l)
include hP

/-- A code is marked as used before the session is stored. -/
lemma labels_acceptStep {user : Ident} (hash : String) (now step : ℤ)
    (hl : P (.auth (.storeSession user))) :
    Guarantees rely (Labelled P) (acceptStep X hash user now step).run := by
  refine guarantees_bind_except (guarantees_orInternal (labels_statement (hP _ rfl)))
    fun used => ?_
  split
  · exact guarantees_throw_except _
  refine guarantees_bind_except (guarantees_orInternal ?_) fun _ =>
    guarantees_bind_except (guarantees_orInternal (labels_statement (hP _ rfl))) fun _ =>
      labels_completeLogin (fun l h => hP l (grants_of_plain h)) hash hl
  exact guarantees_bind_except (labels_statement (hP _ rfl)) fun _ => guarantees_bind_except
    (guarantees_attempt (labels_statement (hP _ rfl))) fun _ => guarantees_pure_except _

end Grants

end Vautr.Labels
