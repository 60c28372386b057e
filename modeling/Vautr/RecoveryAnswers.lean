import Vautr.Bearer
import Vautr.Executions
import Vautr.Recovery

/-!
What the answers of `recover_verify` tell about an account.

A request that is rejected is answered alike whether or not the account is there, except that a
field that is not base64 is found out only after the account, its key and its challenge.
-/

namespace Vautr.RecoveryAnswers

open Vautr.Atomic Vautr.Session Vautr.Sql Vautr.Database Vautr.Api Vautr.Server Vautr.Auth
open Vautr.Credentials Vautr.Executions Vautr.Recovery

/-! ### The errors of a program -/

section Errors

variable {S E L α β ε : Type}

/-- Whatever the program meets, its errors are all in `P`. -/
def Errs (P : ε → Prop) (x : ExceptT ε (Prog S E L) α) : Prop :=
  ∀ tr e, Runs x.run tr (.error e) → P e

variable {P : ε → Prop}

lemma errs_pure (a : α) : Errs P (pure a : ExceptT ε (Prog S E L) α) := by
  intro tr e h
  obtain ⟨-, h⟩ := runs_pure_except.mp h
  cases h

lemma errs_throw {err : ε} (herr : P err) : Errs P (throw err : ExceptT ε (Prog S E L) α) := by
  intro tr e h
  obtain ⟨-, h⟩ := runs_throw_except.mp h
  cases h
  exact herr

lemma errs_bind {x : ExceptT ε (Prog S E L) β} {f : β → ExceptT ε (Prog S E L) α}
    (hx : Errs P x) (hf : ∀ b, Errs P (f b)) : Errs P (x >>= f) := by
  intro tr e h
  rcases runs_bind_except.mp h with ⟨b, tr₁, tr₂, -, -, h₂⟩ | ⟨e', h', he⟩
  · exact hf b tr₂ e h₂
  · cases he
    exact hx tr e h'

/-- Nobody else acts: each statement finds what the one before it left. -/
def Undisturbed : S → List (Ev S E L) → Prop
  | _, [] => True
  | s, ev :: tr => ev.pre = s ∧ Undisturbed ev.post tr

/-- A program that runs alone has an execution that nobody disturbs. -/
lemma exists_undisturbed (e : E) (p : Prog S E L α) (s : S) :
    ∃ tr, Runs p tr (alone e p s).1 ∧ Undisturbed s tr := by
  induction p generalizing s with
  | ret a => exact ⟨[], ⟨rfl, rfl⟩, trivial⟩
  | stmt l f k ih =>
    obtain ⟨tr, hrun, halone⟩ := ih e s (f e s)
    exact ⟨_, ⟨e, s, tr, rfl, hrun⟩, rfl, halone⟩

end Errors

/-! ### Rejections -/

/-- The handler rejects the request; every other error is one of the server. -/
def Rejects (e : ApiError) : Prop := ∃ status code message, e = .new status code message

/-- If it is a rejection, it is this one. -/
def RejectsOnly (err e : ApiError) : Prop := Rejects e → e = err

variable {B α : Type} {X : CredExt B} {err : ApiError}

lemma errs_orInternal {x : CredRepo B α} : Errs (RejectsOnly err) (orInternal x) := by
  rintro tr e h ⟨status, code, message, rfl⟩
  obtain ⟨r, hr, -⟩ := runs_orInternal.mp h
  cases r <;> cases hr

lemma errs_ignored {x : CredRepo B α} : Errs (RejectsOnly err) (ignored x) := by
  intro tr e h
  obtain ⟨-, hr, -⟩ := runs_map.mp h
  cases hr

lemma errs_orElse {x : CredRepo B (Option α)} : Errs (RejectsOnly err) (orElse x err) := by
  refine errs_bind errs_orInternal fun r => ?_
  cases r with
  | none => exact errs_throw fun _ => rfl
  | some a => exact errs_pure a

lemma errs_nowMs : Errs (RejectsOnly err) (nowMs : CredHandler B ℤ) := by
  rintro tr e ⟨_, _, _, -, -, h⟩
  cases h

lemma errs_newUuid : Errs (RejectsOnly err) (newUuid : CredHandler B Ident) := by
  rintro tr e ⟨_, _, _, -, -, h⟩
  cases h

/-- A field that is base64. -/
lemma errs_decodeB64 (b : B) : Errs (RejectsOnly err) (decodeB64 (some b) : CredHandler B B) :=
  errs_pure b

/-! ### Requests whose fields are base64 -/

/-- The nonce, if there is one, and the signature are base64. -/
def Decodes (req : VerifyReq B) : Prop := req.nonce ≠ some none ∧ req.signature ≠ none

variable [DecidableEq B] {req : VerifyReq B}

lemma errs_requireEcho (h : req.nonce ≠ some none) (stored : B) :
    Errs (RejectsOnly verificationFailed) (requireEcho req.nonce stored) := by
  unfold requireEcho
  match hnonce : req.nonce with
  | none => exact errs_pure ()
  | some none => exact absurd hnonce h
  | some (some echo) =>
    refine errs_bind (errs_decodeB64 echo) fun b => ?_
    by_cases hb : b ≠ stored
    · rw [if_pos hb]
      exact errs_throw fun _ => rfl
    · rw [if_neg hb]
      exact errs_pure ()

omit [DecidableEq B] in
lemma errs_mintRecovery (user : Ident) : Errs (RejectsOnly err) (mintRecovery X user) :=
  errs_bind errs_orInternal fun _ => errs_bind errs_newUuid fun _ =>
    errs_bind errs_nowMs fun _ => errs_bind errs_orInternal fun _ => errs_pure _

lemma errs_verifyChallenge (h : Decodes req) (user : Ident) (key : B) :
    Errs (RejectsOnly verificationFailed) (verifyChallenge X req user key) := by
  refine errs_bind errs_orElse fun row => errs_bind errs_nowMs fun now => ?_
  by_cases hexpired : row.2 < now
  · rw [if_pos hexpired]
    exact errs_bind errs_ignored fun _ => errs_throw fun _ => rfl
  · rw [if_neg hexpired]
    refine errs_bind (errs_requireEcho h.1 row.1) fun _ => ?_
    obtain ⟨sig, hsig⟩ := Option.ne_none_iff_exists'.mp h.2
    rw [hsig]
    refine errs_bind (errs_decodeB64 sig) fun b => ?_
    by_cases hsigned : (!signed X key row.1 b) = true
    · rw [if_pos hsigned]
      exact errs_throw fun _ => rfl
    · rw [if_neg hsigned]
      exact errs_mintRecovery user

/-- Among whatever others do, a request whose fields are base64 is rejected in one way. -/
lemma errs_recoverVerify (h : Decodes req) :
    Errs (RejectsOnly verificationFailed) (recoverVerify X req) := by
  refine errs_bind errs_orElse fun user => errs_bind errs_orElse fun key => ?_
  by_cases hlen : X.len key ≠ 32
  · rw [if_pos hlen]
    exact errs_throw fun _ => rfl
  · rw [if_neg hlen]
    exact errs_verifyChallenge h user.id key

/-! ### Two servers -/

/-- What is left of the tables without the account, its key and its challenge. -/
def without (user : Ident) (db : CredDb B) : CredDb B :=
  { db with
    auth := { db.auth with users := db.auth.users.delete fun r => r.id = user }
    cols := db.cols.delete fun r => r.user = user
    challenges := db.challenges.delete fun r => r.user = user }

/-- The states differ only in whether the account with this address is there, and in its
recovery. -/
structure DifferOnly (email : String) (user : Ident) (db db' : CredDb B) : Prop where
  named : ∀ r ∈ db.auth.users.rows, r.email = email ↔ r.id = user
  named' : ∀ r ∈ db'.auth.users.rows, r.email = email ↔ r.id = user
  rest : without user db = without user db'

/-- If both servers reject the request, they do it with the same status and body. -/
def Uniform (X : CredExt B) (req : VerifyReq B) : Prop :=
  ∀ user db db', DifferOnly req.email user db db' → ∀ tr tr' e e',
    Undisturbed db tr → Undisturbed db' tr' → Runs (recoverVerify X req).run tr (.error e) →
    Runs (recoverVerify X req).run tr' (.error e') → Rejects e → Rejects e' → e = e'

def noAccount : CredDb B where
  auth := ⟨.empty, .empty, .empty, .empty, none, [], [], .empty⟩
  cols := .empty
  machineAccounts := .empty
  accessTokens := .empty
  challenges := .empty
  stored := 0
  recoverySessions := .empty
  totpSecrets := .empty
  usedSteps := .empty
  recoveryCodes := .empty

/-- An account with a recovery key and a challenge that has not expired. -/
def oneAccount (email : String) (key nonce : B) : CredDb B where
  auth := ⟨⟨[⟨1, email, key, key, key, key, 1, 0, 0⟩], by simp⟩, .empty, .empty, .empty, none, [],
    [], .empty⟩
  cols := ⟨[⟨1, some key, none, none, 0, 0⟩], by simp⟩
  machineAccounts := .empty
  accessTokens := .empty
  challenges := ⟨[⟨1, nonce, 0, 0, 0⟩], by simp⟩
  stored := 0
  recoverySessions := .empty
  totpSecrets := .empty
  usedSteps := .empty
  recoveryCodes := .empty

omit [DecidableEq B] in
lemma differOnly_oneAccount (email : String) (key nonce : B) :
    DifferOnly email 1 noAccount (oneAccount email key nonce) where
  named := by simp [noAccount, Table.empty]
  named' := by simp [oneAccount]
  rest := by simp [without, noAccount, oneAccount, Table.delete, Table.empty]

def malformed : ApiError := .badRequest "invalid_base64" "base64 decode failed"

/-- The inputs of a server whose clock stands at 0 and whose database does not fail. -/
def atZero (b : B) : AuthEnv B := ⟨0, 0, b, false⟩

lemma alone_noAccount (b : B) (req : VerifyReq B) :
    (alone (atZero b) (recoverVerify X req).run noAccount).1 = .error verificationFailed := rfl

/-- The account, its key and its challenge are found before the fields are read. -/
lemma alone_oneAccount {key nonce : B} (hkey : X.len key = 32) (req : VerifyReq B) :
    (alone (atZero key) (recoverVerify X req).run (oneAccount req.email key nonce)).1 =
      (alone (atZero key) (do
        requireEcho req.nonce nonce
        if !signed X key nonce (← decodeB64 req.signature) then
          throw verificationFailed
        else
          mintRecovery X 1).run (oneAccount req.email key nonce)).1 := by
  have huser : alone (atZero key) (Credentials.getUserByEmail req.email).run
      (oneAccount req.email key nonce) =
        (.ok (some ⟨1, req.email, key, key, key, key, 1, 0, 0⟩),
          oneAccount req.email key nonce) := by
    change (Except.ok ([⟨1, req.email, key, key, key, key, 1, 0, 0⟩].find? fun r : UserRow B =>
      r.email = req.email), _) = _
    rw [List.find?_cons_of_pos (by simp)]
    rfl
  have hfound : alone (atZero key) (orElse (Credentials.getUserByEmail req.email)
      verificationFailed).run (oneAccount req.email key nonce) =
        (.ok ⟨1, req.email, key, key, key, key, 1, 0, 0⟩, oneAccount req.email key nonce) :=
    alone_bind_ok (alone_orInternal huser)
  refine (congrArg Prod.fst (alone_bind_ok hfound)).trans ?_
  have hrk : alone (atZero key) (orElse (getRkPublicKey 1) verificationFailed).run
      (oneAccount req.email key nonce) = (.ok key, oneAccount req.email key nonce) := rfl
  refine (congrArg Prod.fst (alone_bind_ok hrk)).trans ?_
  rw [if_neg (not_not.mpr hkey)]
  rfl

/-- A field that is not base64 is reported as such if there is an account for it. -/
lemma alone_malformed {key : B} (hkey : X.len key = 32) {req : VerifyReq B} (h : ¬ Decodes req) :
    ∃ nonce, (alone (atZero key) (recoverVerify X req).run (oneAccount req.email key nonce)).1 =
      .error malformed := by
  obtain ⟨email, echo, sig⟩ := req
  match echo, sig with
  | some none, sig => exact ⟨key, alone_oneAccount hkey _⟩
  | none, none => exact ⟨key, alone_oneAccount hkey _⟩
  | some (some echo), none =>
    refine ⟨echo, (alone_oneAccount hkey _).trans ?_⟩
    have hecho : alone (atZero key) (requireEcho (some (some echo)) echo).run
        (oneAccount email key echo) = (.ok (), oneAccount email key echo) := by
      change alone (atZero key) (if echo ≠ echo then throw verificationFailed
        else return () : CredHandler B Unit).run _ = _
      rw [if_neg (not_not.mpr rfl)]
      rfl
    exact congrArg Prod.fst (alone_bind_ok hecho)
  | none, some sig => exact absurd ⟨nofun, nofun⟩ h
  | some (some echo), some sig => exact absurd ⟨nofun, nofun⟩ h

/-- Such a report tells the server apart from one without the account. -/
lemma not_uniform {key nonce : B}
    (h : (alone (atZero key) (recoverVerify X req).run (oneAccount req.email key nonce)).1 =
      .error malformed) : ¬ Uniform X req := by
  intro huniform
  obtain ⟨tr, hrun, hown⟩ := exists_undisturbed (atZero key) (recoverVerify X req).run noAccount
  obtain ⟨tr', hrun', hown'⟩ := exists_undisturbed (atZero key) (recoverVerify X req).run
    (oneAccount req.email key nonce)
  rw [alone_noAccount] at hrun
  rw [h] at hrun'
  have hsame : verificationFailed = malformed := huniform 1 noAccount _
    (differOnly_oneAccount req.email key nonce) tr tr' _ _ hown hown' hrun hrun'
    ⟨_, _, _, rfl⟩ ⟨_, _, _, rfl⟩
  exact absurd hsame (by decide)

/-- **When rejections are uniform.** Two servers that differ only in the existence and the recovery
of the named account reject a request with the same answer, whatever the two states, exactly if its
fields are base64. Then every rejection is the same one, among whatever other requests. -/
theorem rejections_uniform_iff (X : CredExt B) (hX : ∃ key, X.len key = 32) (req : VerifyReq B) :
    (Uniform X req ↔ Decodes req) ∧
      (Decodes req → ∀ tr e, Runs (recoverVerify X req).run tr (.error e) → Rejects e →
        e = verificationFailed) := by
  refine ⟨⟨fun huniform => ?_, fun h => ?_⟩, errs_recoverVerify⟩
  · by_contra h
    obtain ⟨key, hkey⟩ := hX
    obtain ⟨nonce, hnonce⟩ := alone_malformed hkey h
    exact not_uniform hnonce huniform
  · intro user db db' _ tr tr' e e' _ _ hrun hrun' he he'
    exact (errs_recoverVerify h tr e hrun he).trans (errs_recoverVerify h tr' e' hrun' he').symm

/-- A request with a nonce and a signature of one byte each. -/
theorem rejections_uniform_iff_bytes :
    Decodes (⟨"alice", some (some [1]), some [2]⟩ : VerifyReq (List ℕ)) ∧
      Uniform Bearer.bytes ⟨"alice", some (some [1]), some [2]⟩ := by
  have h : Decodes (⟨"alice", some (some [1]), some [2]⟩ : VerifyReq (List ℕ)) := ⟨nofun, nofun⟩
  exact ⟨h, (rejections_uniform_iff Bearer.bytes ⟨List.replicate 32 0, rfl⟩ _).1.mpr h⟩

/-- With a signature that is not base64, somebody sees that "alice" has a recovery key and an open
challenge. -/
theorem malformed_signature_reveals :
    (alone (atZero (List.replicate 32 7)) (recoverVerify Bearer.bytes ⟨"alice", none, none⟩).run
        noAccount).1 = .error verificationFailed ∧
      (alone (atZero (List.replicate 32 7)) (recoverVerify Bearer.bytes ⟨"alice", none, none⟩).run
        (oneAccount "alice" (List.replicate 32 7) [1])).1 = .error malformed ∧
      ¬ ∀ req : VerifyReq (List ℕ), Uniform Bearer.bytes req := by
  have hone : (alone (atZero (List.replicate 32 7))
      (recoverVerify Bearer.bytes ⟨"alice", none, none⟩).run
        (oneAccount "alice" (List.replicate 32 7) [1])).1 = .error malformed :=
    alone_oneAccount rfl ⟨"alice", none, none⟩
  exact ⟨alone_noAccount _ _, hone, fun h => not_uniform hone (h _)⟩

end Vautr.RecoveryAnswers
