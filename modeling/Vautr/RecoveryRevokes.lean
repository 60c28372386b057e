import Vautr.Bearer
import Vautr.Labels

/-!
What a recovery cuts off.

`recover_complete` replaces the password record of an account and deletes its sessions. It
leaves alone what else was given out before: tokens for the second factor, access tokens,
other recovery tokens and logins that have begun. A request that acts for the user afterwards
may therefore rest on any of them.

A credential is what a request presents and a table holds. Whom a request acts for has a
reason in the credential that it has found, which was brought by some request, which has found
another one, and so on to a request that needs none: a `login_start` or a `recover_verify`.
-/

namespace Vautr.RecoveryRevokes

open Vautr.Atomic Vautr.Interleave Vautr.Sql Vautr.Database Vautr.Api Vautr.Server Vautr.Auth
open Vautr.Zoom Vautr.Credentials Vautr.Tokens Vautr.Mfa Vautr.Recovery Vautr.CredEffects
open Vautr.Bearer Vautr.Labels

variable {B α : Type} {X : CredExt B} {db db' : CredDb B} {tr : List (CredEv B)}

abbrev CredCall (B : Type) := Call (CredReq B) (CredDb B) (AuthEnv B) CredStmt (CredReply B)

/-! ### Credentials -/

inductive Cred (B : Type)
  | session (hash : String)
  | pending (hash : String)
  | token (hash : String)
  | recovery (hash : String)
  | login (state : B)
  deriving DecidableEq

/-- The credential is one of the user. A login is one of the user if it was begun with the
user's email. -/
def Holds (user : Ident) (email : Option String) : Cred B → CredDb B → Prop
  | .session hash, db => ∃ r ∈ db.auth.sessions.rows, r.tokenHash = hash ∧ r.userId = user
  | .pending hash, db => ∃ r ∈ db.auth.pendingMfa.rows, r.tokenHash = hash ∧ r.userId = user
  | .token hash, db => ∃ r ∈ db.accessTokens.rows, r.tokenHash = hash ∧ r.ownerUserId = user ∧
    r.revokedAt = none
  | .recovery hash, db => ∃ r ∈ db.recoverySessions.rows, r.tokenHash = hash ∧ r.userId = user
  | .login state, db => ∃ en ∈ db.auth.loginState.rows, en.state = state ∧
    some en.startedBy = email

/-- The credential that a statement asks for. -/
def asks (ev : CredEv B) : Option (Cred B) :=
  match ev.name with
  | .getSession hash => some (.session hash)
  | .getPending hash => some (.pending hash)
  | .getTokenByHash hash => some (.token hash)
  | .consumeRecoverySession hash => some (.recovery hash)
  | .peekRecoverySession hash => some (.recovery hash)
  | .auth (.takeLogin key) => (ev.pre.auth.loginState.get key).map fun en => .login en.state
  | _ => none

/-- The statement finds a credential of the user. -/
def Finds (user : Ident) (email : Option String) (cred : Cred B) (ev : CredEv B) : Prop :=
  asks ev = some cred ∧ Holds user email cred ev.pre

/-- The statement gives out a credential of the user. -/
def Brings (user : Ident) (email : Option String) (cred : Cred B) (ev : CredEv B) : Prop :=
  ¬Holds user email cred ev.pre ∧ Holds user email cred ev.post

/-- The record that a statement has read. -/
def foundUser (ev : CredEv B) : Option (UserRow B) :=
  match ev.name with
  | .auth (.getUserByEmail email) => ev.pre.auth.users.rows.find? fun r => r.email = email
  | _ => none

/-- The requests that present no credential and lead to one. -/
def begins : CredReq B → Bool
  | .login (.loginStart _) => true
  | .recoverVerify _ => true
  | _ => false

/-- The requests that depend on the record of the account. -/
def readsRecord : CredReq B → Bool
  | .login (.loginFinish _) => true
  | q => begins q

/-- A request has found a credential of the user, or depends on the record and has read it. -/
def Touched (user : Ident) (email : Option String) (q : CredReq B) (tr : List (CredEv B)) : Prop :=
  ∃ ev ∈ tr, (∃ cred ∈ asks ev, Holds user email cred ev.pre) ∨
    readsRecord q = true ∧ ∃ r ∈ foundUser ev, r.id = user

/-! ### Chains of requests -/

/-- How many statements the request had run before. -/
def before (σ₁ : CredSys B) (j : ℕ) : ℕ := ((σ₁.calls[j]?).map fun c => c.trace.length).getD 0

/-- The request was not answered before. -/
def Live (σ₁ : CredSys B) (j : ℕ) : Prop := ∀ c ∈ σ₁.calls[j]?, c.prog.result = none

/-- The request had nothing to do with the user before. -/
def Untouched (user : Ident) (email : Option String) (σ₁ : CredSys B) (j : ℕ) : Prop :=
  ∀ c ∈ σ₁.calls[j]?, ¬Touched user email c.req c.trace

/-- What the request does for the user stems from after `σ₁`: it begins with nothing, or it has
since found a credential that such a request has brought. -/
inductive Fresh (user : Ident) (email : Option String) (σ₁ σ : CredSys B) : ℕ → Prop
  | root {j : ℕ} {c : CredCall B} (hj : σ.calls[j]? = some c) (hbegins : begins c.req = true)
      (hun : Untouched user email σ₁ j) : Fresh user email σ₁ σ j
  | link {i j : ℕ} {c c' : CredCall B} {cred : Cred B} {ev ev' : CredEv B}
      (h : Fresh user email σ₁ σ i) (hi : σ.calls[i]? = some c) (hj : σ.calls[j]? = some c')
      (hev : ev ∈ c.trace) (hbrings : Brings user email cred ev)
      (hev' : ev' ∈ c'.trace.drop (before σ₁ j)) (hfinds : Finds user email cred ev') :
      Fresh user email σ₁ σ j

/-- Whom a request was allowed to act for. -/
def acts : CredReq B → CredReply B → Option Ident
  | .authUser _, .authUser (.ok user) => some user
  | .authAny _, .authAny (.ok ctx) => some ctx.userId
  | .recoverInfo _, .recoverInfo (.ok resp) => some resp.userId
  | .recoverComplete _, .recoverComplete (.ok user) => some user
  | _, _ => none

def emailOf (user : Ident) (db : CredDb B) : Option String :=
  (db.auth.users.get user).map (·.email)

/-- Every request that is answered after `σ₁` and may act for the user rests on a login or a
recovery that was begun after `σ₁`. -/
def CutOff (user : Ident) (σ₁ σ : CredSys B) : Prop :=
  ∀ (j : ℕ) (c : CredCall B), σ.calls[j]? = some c → Live σ₁ j → ∀ a ∈ c.prog.result,
    acts c.req a = some user → Fresh user (emailOf user σ₁.shared) σ₁ σ j

lemma Fresh.mono {user : Ident} {email : Option String} {σ₁ σ σ' : CredSys B}
    (hgrow : ∀ (j : ℕ) (c : CredCall B), σ.calls[j]? = some c →
      ∃ c', σ'.calls[j]? = some c' ∧ Grown c c') {j : ℕ} (h : Fresh user email σ₁ σ j) :
    Fresh user email σ₁ σ' j := by
  induction h with
  | root hj hbegins hun =>
    obtain ⟨c', hj', hreq, -⟩ := hgrow _ _ hj
    exact .root hj' (hreq ▸ hbegins) hun
  | link _ hi hj hev hbrings hev' hfinds ih =>
    obtain ⟨c, hi', -, hpre, -⟩ := hgrow _ _ hi
    obtain ⟨c', hj', -, ⟨tr, htr⟩, -⟩ := hgrow _ _ hj
    refine .link ih hi' hj' (hpre.subset hev) hbrings ?_ hfinds
    rw [← htr, List.drop_append]
    exact List.mem_append_left _ hev'

/-! ### What the statements do -/

/-- The user for whom a statement gives out a credential. -/
def mints : CredStmt → Option Ident
  | .auth (.storeSession user) => some user
  | .auth (.storePendingMfa user) => some user
  | .insertToken owner _ _ => some owner
  | .createRecoverySession user => some user
  | _ => none

/-- The account is there, under the email. -/
def Known (user : Ident) (email : Option String) (db : CredDb B) : Prop :=
  ∃ row ∈ db.auth.users.get user, some row.email = email

section Does

variable {user : Ident} {email : Option String}

lemma brings_session {hash : String} {ev : CredEv B} (h : Does X ev)
    (hb : Brings user email (.session hash) ev) : mints ev.name = some user := by
  obtain ⟨l, e, db, db'⟩ := ev
  change CredStep X l e db db' at h
  obtain ⟨hpre, r, hr, hhash, huser⟩ := hb
  dsimp only at hpre hr ⊢
  have hnew : r ∉ db.auth.sessions.rows := fun hr => hpre ⟨r, hr, hhash, huser⟩
  cases h
  case login l s h =>
    cases h
    case storeSession hash' user' expiresAt =>
      rcases Table.mem_upsert hr with hr | rfl | ⟨r₀, -, -, rfl⟩
      · exact absurd hr hnew
      · exact congrArg some huser
      · exact congrArg some huser
    case purgeSessions => exact absurd (Table.mem_delete.mp hr).1 hnew
    all_goals exact absurd hr hnew
  case deleteSession => exact absurd (Table.mem_delete.mp hr).1 hnew
  case revokeUserSessions => exact absurd (Table.mem_delete.mp hr).1 hnew
  case storeReclaim | clearReclaim | registerTotpFailure | clearTotpFailures =>
    rw [CredDb.setCols_eq] at hr
    exact absurd hr hnew
  all_goals exact absurd hr hnew

lemma brings_pending {hash : String} {ev : CredEv B} (h : Does X ev)
    (hb : Brings user email (.pending hash) ev) : mints ev.name = some user := by
  obtain ⟨l, e, db, db'⟩ := ev
  change CredStep X l e db db' at h
  obtain ⟨hpre, r, hr, hhash, huser⟩ := hb
  dsimp only at hpre hr ⊢
  have hnew : ∀ r' ∈ db.auth.pendingMfa.rows, r'.tokenHash = r.tokenHash → r'.userId ≠ r.userId :=
    fun r' hr' hh hu => hpre ⟨r', hr', hh.trans hhash, hu.trans huser⟩
  cases h
  case login l s h =>
    cases h
    case storePending row pendingMfa hins =>
      rw [(Table.insert_eq_some hins).2] at hr
      rcases List.mem_append.mp hr with hr | hr
      · exact absurd rfl (hnew r hr rfl)
      · cases List.mem_singleton.mp hr
        exact congrArg some huser
    case purgePending => exact absurd rfl (hnew r (Table.mem_delete.mp hr).1 rfl)
    all_goals exact absurd rfl (hnew r hr rfl)
  case bumpPending =>
    obtain ⟨r', hr', rfl⟩ := List.mem_map.mp hr
    split at hnew
    · exact absurd rfl (hnew r' hr' rfl)
    · exact absurd rfl (hnew r' hr' rfl)
  case deletePending => exact absurd rfl (hnew r (Table.mem_delete.mp hr).1 rfl)
  case storeReclaim | clearReclaim | registerTotpFailure | clearTotpFailures =>
    rw [CredDb.setCols_eq] at hr
    exact absurd rfl (hnew r hr rfl)
  all_goals exact absurd rfl (hnew r hr rfl)

lemma brings_token {hash : String} {ev : CredEv B} (h : Does X ev)
    (hb : Brings user email (.token hash) ev) : mints ev.name = some user := by
  obtain ⟨hpre, r, hr, hhash, huser, hrev⟩ := hb
  have hnew : ∀ r' ∈ ev.pre.accessTokens.rows, ¬Later r' r := by
    intro r' hr' hl
    obtain ⟨-, howner, -, hh, -⟩ := of_core hl.core
    refine hpre ⟨r', hr', hh.symm.trans hhash, howner.symm.trans huser, ?_⟩
    by_contra hne
    have := hl.revoked (Option.isSome_iff_ne_none.mpr hne)
    rw [hrev] at this
    cases this
  rcases accessTokens_cases h with heq | ⟨row, hins, -, hl⟩ | ⟨p, f, hf, hf', heq, hl⟩
  · rw [heq] at hr
    exact absurd (.refl r) (hnew r hr)
  · rw [(Table₂.insert_eq_some hins).2.2] at hr
    rcases List.mem_append.mp hr with hr | hr
    · exact absurd (.refl r) (hnew r hr)
    · rw [hl, ← huser, List.mem_singleton.mp hr]
      rfl
  · rw [heq] at hr
    obtain ⟨r', hr', rfl⟩ := List.mem_map.mp hr
    split at hnew
    · exact absurd (hl r') (hnew r' hr')
    · exact absurd (.refl r') (hnew r' hr')

lemma brings_recovery {hash : String} {ev : CredEv B} (h : Does X ev)
    (hb : Brings user email (.recovery hash) ev) : mints ev.name = some user := by
  obtain ⟨l, e, db, db'⟩ := ev
  change CredStep X l e db db' at h
  obtain ⟨hpre, r, hr, hhash, huser⟩ := hb
  dsimp only at hpre hr ⊢
  have hnew : r ∉ db.recoverySessions.rows := fun hr => hpre ⟨r, hr, hhash, huser⟩
  cases h
  case createRecoverySession row recoverySessions hins =>
    rw [(Table.insert_eq_some hins).2] at hr
    rcases List.mem_append.mp hr with hr | hr
    · exact absurd hr hnew
    · cases List.mem_singleton.mp hr
      exact congrArg some huser
  case consumeRecoverySession => exact absurd (Table.mem_delete.mp hr).1 hnew
  case storeReclaim | clearReclaim | registerTotpFailure | clearTotpFailures =>
    rw [CredDb.setCols_eq] at hr
    exact absurd hr hnew
  case completeRecovery =>
    unfold recovered at hr
    rw [CredDb.setCols_eq] at hr
    exact absurd hr hnew
  all_goals exact absurd hr hnew

lemma brings_login {state : B} {ev : CredEv B} (h : Does X ev)
    (hb : Brings user email (.login state) ev) : ∃ name, ev.name = .auth (.storeLogin name) := by
  obtain ⟨l, e, db, db'⟩ := ev
  change CredStep X l e db db' at h
  obtain ⟨hpre, r, hr, hstate, hemail⟩ := hb
  dsimp only at hpre hr ⊢
  have hnew : r ∉ db.auth.loginState.rows := fun hr => hpre ⟨r, hr, hstate, hemail⟩
  cases h
  case login l s h =>
    cases h
    case storeLogin name _ => exact ⟨name, rfl⟩
    case takeLogin => exact absurd (Table.mem_delete.mp hr).1 hnew
    all_goals exact absurd hr hnew
  case storeReclaim | clearReclaim | registerTotpFailure | clearTotpFailures =>
    rw [CredDb.setCols_eq] at hr
    exact absurd hr hnew
  all_goals exact absurd hr hnew

/-- **Who brings credentials**: statements that mint one for the user, and `login_start`. -/
lemma brings_name {cred : Cred B} {ev : CredEv B} (h : Does X ev)
    (hb : Brings user email cred ev) :
    mints ev.name = some user ∨ ∃ name, ev.name = .auth (.storeLogin name) := by
  cases cred with
  | session hash => exact .inl (brings_session h hb)
  | pending hash => exact .inl (brings_pending h hb)
  | token hash => exact .inl (brings_token h hb)
  | recovery hash => exact .inl (brings_recovery h hb)
  | login state => exact .inr (brings_login h hb)

/-- Accounts keep their email. -/
lemma known_does {ev : CredEv B} (h : Does X ev) (hk : Known user email ev.pre) :
    Known user email ev.post := by
  obtain ⟨l, e, db, db'⟩ := ev
  change CredStep X l e db db' at h
  dsimp only at hk ⊢
  obtain ⟨row, hrow, hemail⟩ := hk
  cases h
  case login l s h =>
    cases h
    case createUser row' users hnew hins =>
      refine ⟨row, ?_, hemail⟩
      have hne : row'.id ≠ user := by
        rintro rfl
        rw [Option.mem_def, (Table.insert_eq_some hins).1] at hrow
        cases hrow
      change users.get user = some row
      rw [Table.get_insert hins, if_neg hne]
      exact hrow
    all_goals exact ⟨row, hrow, hemail⟩
  case completeRecovery user' opaqueRecord kdfSalt svk svkRk rkPublicKey now =>
    refine ⟨if row.id = user' then { row with
      opaqueRecord, kdfSalt, svkCiphertextBlob := svk, svkCiphertextBlobRk := svkRk
      updatedAt := now } else row, ?_, ?_⟩
    · simp only [recovered, Table.get_update, Option.mem_def.mp hrow, Option.map_some,
        decide_eq_true_eq, Option.mem_def]
    · split
      · exact hemail
      · exact hemail
  case storeReclaim | clearReclaim | registerTotpFailure | clearTotpFailures =>
    rw [CredDb.setCols_eq]
    exact ⟨row, hrow, hemail⟩
  all_goals exact ⟨row, hrow, hemail⟩

end Does

/-! ### One request -/

/-- What stands behind a credential for the user: one that was found, or a record of the user
with another email. -/
def Support (user : Ident) (email : Option String) (q : CredReq B) (ev : CredEv B) : Prop :=
  (∃ cred, Finds user email cred ev) ∨
    readsRecord q = true ∧ ∃ r ∈ foundUser ev, r.id = user ∧ some r.email ≠ email

def Supported (user : Ident) (q : CredReq B) (tr : List (CredEv B)) : Prop :=
  ∀ email, ∃ ev ∈ tr, Support user email q ev

/-- The request begins with nothing, or gives out only credentials that something stands
behind. -/
def Shape (q : CredReq B) (tr : List (CredEv B)) : Prop :=
  begins q = true ∨ ∀ ev ∈ tr, (∀ user, mints ev.name = some user → Supported user q tr) ∧
    ∀ name, ev.name ≠ .auth (.storeLogin name)

/-- The login that a `login_finish` has just taken was begun with its username. -/
def Own (q : CredReq B) (tr : List (CredEv B)) : Prop :=
  ∀ req, q = .login (.loginFinish req) → ∀ ev ∈ tr.getLast?, ∀ key, ev.name = .auth (.takeLogin key) →
    ∀ en ∈ ev.pre.auth.loginState.get key, en.startedBy = req.username

def minting (q : CredReq B) : Rules (CredDb B) (AuthEnv B) CredStmt :=
  ⟨fun _ _ _ => True, Own q, Shape q⟩

/-- Statements that give out credentials for the user only. -/
def onlyFor (user : Ident) (l : CredStmt) : Prop := grants l = false ∨ mints l = some user

variable {q : CredReq B} {user : Ident}

lemma Supported.append (h : Supported user q tr) (ev : CredEv B) :
    Supported user q (tr ++ [ev]) := by
  intro email
  obtain ⟨ev', hev', hs⟩ := h email
  exact ⟨ev', List.mem_append_left _ hev', hs⟩

lemma not_grants {l : CredStmt} (h : grants l = false) :
    mints l = none ∧ ∀ name, l ≠ .auth (.storeLogin name) := by
  refine ⟨?_, ?_⟩
  · unfold mints
    split <;> first | rfl | cases h
  · rintro name rfl
    cases h

lemma shape_append {ev : CredEv B} (h : Shape q tr)
    (hev : ∀ user, mints ev.name = some user → Supported user q tr)
    (hlog : ∀ name, ev.name ≠ .auth (.storeLogin name)) : Shape q (tr ++ [ev]) := by
  rcases h with h | h
  · exact .inl h
  refine .inr (every_append (fun ev' hev' => ?_) ⟨fun user hm => (hev user hm).append ev, hlog⟩)
  exact ⟨fun user hm => ((h ev' hev').1 user hm).append ev, (h ev' hev').2⟩

lemma shape_plain {ev : CredEv B} (h : Shape q tr) (hev : grants ev.name = false) :
    Shape q (tr ++ [ev]) := by
  refine shape_append h (fun user hm => ?_) (not_grants hev).2
  rw [(not_grants hev).1] at hm
  cases hm

lemma shape_nil : Shape q [] := .inr (by simp)

/-- A request, or a part of it, that gives out nothing. -/
lemma wp_plain {p : Prog (CredDb B) (AuthEnv B) CredStmt α}
    (hp : Guarantees (fun _ _ _ => True) (Labelled (grants · = false)) p) (h : Shape q tr) :
    wp (minting q) p (fun _ tr _ => Shape q tr) tr db :=
  wp_of_guarantees (J := fun tr _ => Shape q tr) hp (fun _ _ _ _ => trivial) (fun _ _ h => h)
    (fun _ _ _ _ h _ => h) (fun _ _ h hev => shape_plain h hev) (fun _ _ _ h => h) h

/-- The rest of a request, when it has found out for whom it is. -/
lemma wp_onlyFor (user : Ident) {p : Prog (CredDb B) (AuthEnv B) CredStmt α}
    (hp : Guarantees (fun _ _ _ => True) (Labelled (onlyFor user)) p) (h : Shape q tr)
    (hs : Supported user q tr) : wp (minting q) p (fun _ tr _ => Shape q tr) tr db := by
  refine wp_of_guarantees (J := fun tr _ => Shape q tr ∧ Supported user q tr) hp
    (fun _ _ _ _ => trivial) (fun _ _ h => h.1) (fun _ _ _ _ h _ => h) ?_ (fun _ _ _ h => h.1)
    ⟨h, hs⟩
  rintro tr ev ⟨h, hs⟩ hev
  refine ⟨?_, hs.append ev⟩
  rcases hev with hev | hev
  · exact shape_plain h hev
  · refine shape_append h (fun user' hm => ?_) ?_
    · cases hev.symm.trans hm
      exact hs
    · intro name hname
      rw [hname] at hev
      cases hev

/-- A request that finds a credential first, and gives out credentials for the same user. -/
lemma wp_first {x : CredHandler B Ident} {f : Ident → CredHandler B α}
    (hx : Guarantees (fun _ _ _ => True) (Labelled (grants · = false)) x.run)
    (hfound : wp anyRules x.run (Ok fun user tr _ => Supported user q tr) [] db)
    (hf : ∀ user, Guarantees (fun _ _ _ => True) (Labelled (onlyFor user)) (f user).run) :
    wp (minting q) (x >>= f).run (fun _ tr _ => Shape q tr) [] db := by
  rw [wp_bind_except]
  refine wp_mono ?_ (wp_and (fun _ _ _ _ => trivial) (fun _ _ => trivial) (wp_plain hx shape_nil)
    hfound)
  rintro (_ | user) tr db ⟨h, hs⟩
  · exact h
  · exact wp_onlyFor user (hf user) h hs

lemma onlyFor_plain {l : CredStmt} (h : plain l = true) : onlyFor user l :=
  .inl (grants_of_plain h)

/-- The session behind a bearer token. -/
lemma supported_authUser (bearer : String) :
    wp anyRules (authUser X bearer).run (Ok fun user tr _ => Supported user q tr) tr db := by
  refine wp_mono ?_ (wp_authUser bearer)
  rintro (_ | user) tr db h
  · trivial
  obtain ⟨row, rfl, ⟨ev, hev, hname, hget⟩, -⟩ := h
  refine fun email => ⟨ev, hev, .inl ⟨.session (X.hashToken bearer), ?_, row, Table.get_mem hget,
    Table.get_key hget, rfl⟩⟩
  rw [asks, hname]

/-- The row behind a pending token. -/
lemma supported_requirePending (hash : String) :
    wp anyRules (requirePending hash).run (Ok fun user tr _ => Supported user q tr) tr db := by
  refine wp_bind_ok (wp_orElse_ok (wp_select_ok fun db₁ e₁ _ _ _ row hrow => ?_))
  refine wp_bind_ok (wp_nowMs fun db₂ e₂ _ _ => ?_)
  split
  · refine wp_bind_ok (wp_trivial (fun _ => trivial) ?_ _ _ _)
    rintro (_ | _) tr db
    · trivial
    · trivial
  · exact fun email => ⟨⟨.getPending hash, e₁, db₁, db₁⟩, by simp, .inl ⟨.pending hash, rfl, row,
      Table.get_mem hrow, Table.get_key hrow, rfl⟩⟩

lemma wp_createToken (bearer : String) (req : TokenCreateReq) :
    wp (minting q) (createToken X bearer req).run (fun _ tr _ => Shape q tr) [] db := by
  refine wp_first (labels_authUser (fun _ => grants_of_plain) _) (supported_authUser bearer)
    fun user => ?_
  have hP : ∀ l, plain l = true → onlyFor user l := fun _ => onlyFor_plain
  exact guarantees_bind_except (labels_validateCreate hP _) fun _ =>
    guarantees_bind_except (labels_requireAllowed hP _ _) fun _ =>
    guarantees_bind_except (labels_requireProject hP _ _) fun _ =>
    guarantees_bind_except (labels_newUuid hP) fun _ =>
    guarantees_bind_except (labels_nowMs hP) fun _ =>
    guarantees_bind_except (labels_random hP) fun _ =>
    guarantees_bind_except (guarantees_orInternal (labels_statement (.inr rfl))) fun _ =>
    guarantees_bind_except (guarantees_orInternal (labels_audit hP)) fun _ =>
      guarantees_pure_except _

lemma wp_verifyLoginTotp (req : TotpVerifyLoginReq) :
    wp (minting q) (verifyLoginTotp X req).run (fun _ tr _ => Shape q tr) [] db := by
  refine wp_first (labels_requirePending (fun _ => grants_of_plain) _)
    (supported_requirePending _) fun user => ?_
  have hP : ∀ l, plain l = true → onlyFor user l := fun _ => onlyFor_plain
  refine guarantees_bind_except (labels_orElse (labels_statement (.inl rfl)) _) fun secret =>
    guarantees_bind_except (labels_nowMs hP) fun now =>
    guarantees_bind_except (guarantees_orInternal (guarantees_bind_except
      (labels_statement (.inl rfl)) fun _ => guarantees_pure_except _)) fun lock => ?_
  split
  · exact guarantees_throw_except _
  refine guarantees_bind_except (labels_verifyTotpWithStep hP _ _) ?_
  rintro (_ | step)
  · exact guarantees_bind_except (guarantees_orInternal (labels_statement (.inl rfl))) fun _ =>
      guarantees_bind_except (guarantees_orInternal (labels_statement (.inl rfl))) fun _ =>
        guarantees_throw_except _
  · exact labels_acceptStep (fun _ => .inl) _ _ _ (.inr rfl)

lemma wp_verifyLoginRecovery (req : RecoveryVerifyLoginReq) :
    wp (minting q) (verifyLoginRecovery X req).run (fun _ tr _ => Shape q tr) [] db := by
  refine wp_first (labels_requirePending (fun _ => grants_of_plain) _)
    (supported_requirePending _) fun user => ?_
  refine guarantees_bind_except (guarantees_orInternal (labels_statement (.inl rfl))) fun hit => ?_
  split
  · exact guarantees_bind_except (guarantees_orInternal (labels_statement (.inl rfl))) fun _ =>
      guarantees_throw_except _
  · exact labels_completeLogin (fun _ => onlyFor_plain) _ (.inr rfl)

/-- A `login_finish` gives out a credential for the user of its username, after it has taken a
login that was begun with that username. -/
lemma wp_loginFinish (req : LoginFinishReq B) :
    wp (minting (.login (.loginFinish req))) (zoomE login (loginFinish X.loginExt req)).run
      (fun _ tr _ => Shape (.login (.loginFinish req)) tr) [] db := by
  unfold loginFinish
  rw [zoomE_bind, wp_bind_except]
  change wp _ (zoom login ((Auth.getUserByEmail req.username).run >>= _)) _ _ _
  rw [zoom_bind, wp_bind]
  refine wp_zoom_statement (fun _ => rfl) shape_nil (fun db₁ e₁ _ _ => ?_) fun db₁ e₁ _ _ => ?_
  · exact shape_plain shape_nil rfl
  have h₁ : Shape (.login (.loginFinish req))
      ([] ++ [(⟨.auth (.getUserByEmail req.username), e₁, db₁, db₁⟩ : CredEv B)]) :=
    shape_plain shape_nil rfl
  simp only [zoom_ret, wp_ret, Except.mapError]
  -- the first statement asks for the account with the name
  cases hu : (login.get db₁).users.rows.find? fun r => r.email = req.username with
  | none =>
    exact wp_plain (labels_login (guarantees_bind_except (guarantees_ignored
      (labelsL_statement (P := (grants · = false)) rfl)) fun _ => guarantees_throw_except _)) h₁
  | some user =>
    dsimp only
    rw [zoomE_bind, wp_bind_except]
    cases req.loginFinish with
    | none => exact h₁
    | some lupload =>
      simp only [decodeB64, zoomE_pure, wp_pure_except]
      rw [zoomE_bind, wp_bind_except]
      -- the second takes the state, which was started under that name
      refine ⟨h₁, fun db₂ e₂ _ hown => ?_⟩
      have h₂ : Shape (.login (.loginFinish req)) (_ ++ [(⟨.auth (.takeLogin req.key), e₂, db₂,
          login.put { db₂.auth with loginState := db₂.auth.loginState.delete fun r =>
            r.key = req.key } db₂⟩ : CredEv B)]) := shape_plain h₁ rfl
      cases hget : (login.get db₂).loginState.get req.key with
      | none =>
        simp only [hget, Option.map_none]
        exact h₂
      | some en =>
        simp only [hget, Option.map_some]
        have hby : en.startedBy = req.username :=
          hown req rfl _ List.getLast?_concat req.key rfl en hget
        have hemail : user.email = req.username := by simpa using List.find?_some hu
        refine wp_onlyFor user.id (labels_login ?_) h₂ fun email => ?_
        · have hP : ∀ l, plain l = true → onlyFor user.id l := fun _ => onlyFor_plain
          refine guarantees_bind_except (labelsL_orCryptoError _) fun _ =>
            guarantees_bind_except (labelsL_enforceMfaRequired hP _) fun _ =>
            guarantees_bind_except (guarantees_orInternal (labelsL_statement (.inl rfl)))
              fun totp => ?_
          split
          · exact labelsL_mintPending hP (.inr rfl)
          · exact labelsL_mintSession hP _ (.inr rfl)
        -- the credential is made of the state, unless the account has another email by now
        by_cases heq : email = some req.username
        · refine ⟨_, List.mem_append_right _ (List.mem_singleton_self _), .inl ⟨.login en.state, ?_,
            en, Table.get_mem hget, rfl, by rw [hby, heq]⟩⟩
          simp only [asks]
          exact congrArg (Option.map fun en : LoginEntry B => Cred.login en.state) hget
        · refine ⟨_, List.mem_append_left _ (List.mem_singleton_self _), .inr ⟨rfl, user, hu, rfl,
            ?_⟩⟩
          rw [hemail]
          exact fun h => heq h.symm

/-- **Every request** begins with nothing or gives out only what something stands behind. -/
lemma wp_code [DecidableEq B] (q : CredReq B) :
    wp (minting q) (code X q) (fun _ tr _ => Shape q tr) [] db := by
  have hP : ∀ l, plain l = true → grants l = false := fun _ => grants_of_plain
  have hfree : ∀ {α : Type} {p : Prog (CredDb B) (AuthEnv B) CredStmt α} {g : α → CredReply B},
      Guarantees (fun _ _ _ => True) (Labelled (grants · = false)) p →
      wp (minting q) (p >>= fun a => .ret (g a)) (fun _ tr _ => Shape q tr) [] db := fun hp =>
    (wp_bind _ _ _ _ _).mpr (wp_mono (fun _ _ _ h => h) (wp_plain hp shape_nil))
  by_cases hbegins : begins q = true
  · exact wp_trivial (fun _ => Or.inl hbegins) (fun _ _ _ => .inl hbegins) _ _ _
  cases q with
  | login q =>
    cases q with
    | registerStart req =>
      exact hfree (labels_login (guarantees_bind (labelsL_registerStart hP req)
        fun _ => guarantees_ret _))
    | registerFinish req =>
      exact hfree (labels_login (guarantees_bind (labelsL_registerFinish hP req)
        fun _ => guarantees_ret _))
    | loginStart req => exact absurd rfl hbegins
    | loginFinish req =>
      refine (wp_bind _ _ _ _ _).mpr ?_
      unfold LoginBinding.serve
      rw [zoom_bind, wp_bind]
      exact wp_loginFinish req
  | authUser bearer => exact hfree (labels_authUser hP bearer)
  | authAny bearer => exact hfree (labels_authAny hP bearer)
  | verify secret => exact hfree (labels_verifyAccessToken hP secret)
  | logout bearer => exact hfree (labels_logout hP bearer)
  | createToken bearer req =>
    exact (wp_bind _ _ _ _ _).mpr (wp_createToken bearer req)
  | revokeToken bearer uuid => exact hfree (labels_revokeToken hP bearer uuid)
  | createMachineAccount bearer req => exact hfree (labels_createMachineAccountH hP bearer req)
  | updateMachineAccount bearer uuid req =>
    exact hfree (labels_updateMachineAccountH hP bearer uuid req)
  | deleteMachineAccount bearer uuid => exact hfree (labels_deleteMachineAccountH hP bearer uuid)
  | verifyLoginTotp req => exact (wp_bind _ _ _ _ _).mpr (wp_verifyLoginTotp req)
  | verifyLoginRecovery req => exact (wp_bind _ _ _ _ _).mpr (wp_verifyLoginRecovery req)
  | recoverChallenge email => exact hfree (labels_recoverChallenge hP email)
  | recoverVerify req => exact absurd rfl hbegins
  | recoverInfo token => exact hfree (labels_recoverInfo hP token)
  | recoverComplete req => exact hfree (labels_recoverComplete hP req)
  | reclaim req => exact hfree (labels_reclaim hP req)
  | reclaimConfirm token => exact hfree (labels_reclaimConfirm hP token)

/-! ### Runs -/

/-- The user has nothing but sessions: no token for the second factor, no access token that is
not revoked, no token of a recovery, and no login that has begun. -/
def Clear (user : Ident) (db : CredDb B) : Prop :=
  (db.auth.users.get user).isSome ∧ (∀ r ∈ db.auth.pendingMfa.rows, r.userId ≠ user) ∧
    (∀ r ∈ db.accessTokens.rows, r.ownerUserId = user → r.revokedAt ≠ none) ∧
    (∀ r ∈ db.recoverySessions.rows, r.userId ≠ user) ∧
    ∀ en ∈ db.auth.loginState.rows, some en.startedBy ≠ emailOf user db

/-- What a statement of the `i`-th request must find. When a recovery deletes the sessions of
the user, there is nothing else of the user, and no other request on its way has to do with the
user; and a `login_finish` takes logins that were begun with its username only. -/
def Clean (σ : CredSys B) : CredAct B → Prop
  | .call _ => True
  | .exec i _ => ∀ c ∈ σ.calls[i]?, ∀ l ∈ c.prog.next,
    match l with
    | .revokeUserSessions user => Clear user σ.shared ∧
      ∀ j < σ.calls.length, j ≠ i → ∀ c' ∈ σ.calls[j]?, c'.prog.result.isNone →
        ¬Touched user (emailOf user σ.shared) c'.req c'.trace
    | .auth (.takeLogin key) => ∀ en ∈ σ.shared.auth.loginState.get key,
      match c.req with
      | .login (.loginFinish req) => en.startedBy = req.username
      | _ => True
    | _ => True

/-- What is known since `σ₁`. -/
structure Tracked (user : Ident) (email : Option String) (σ₁ σ : CredSys B) : Prop where
  known : Known user email σ.shared
  grown : ∀ (j : ℕ) (c₁ : CredCall B), σ₁.calls[j]? = some c₁ →
    ∃ c, σ.calls[j]? = some c ∧ Grown c₁ c
  late : ∀ (j : ℕ) (c : CredCall B), σ.calls[j]? = some c → ∀ ev ∈ c.trace.drop (before σ₁ j),
    Known user email ev.pre
  held : ∀ cred, Holds user email cred σ.shared → ∃ (j : ℕ) (c : CredCall B),
    Fresh user email σ₁ σ j ∧ σ.calls[j]? = some c ∧ ∃ ev ∈ c.trace, Brings user email cred ev
  found : ∀ (j : ℕ) (c : CredCall B), σ.calls[j]? = some c → Live σ₁ j → ∀ ev ∈ c.trace,
    ∀ cred, Finds user email cred ev → Fresh user email σ₁ σ j

section Tracked

variable {email : Option String} {σ₁ σ : CredSys B} {i : ℕ} {e : AuthEnv B} {l : CredStmt}
  {f : AuthEnv B → CredDb B → CredDb B}
  {k : AuthEnv B → CredDb B → Prog (CredDb B) (AuthEnv B) CredStmt (CredReply B)}

/-- A request that still runs was not answered before. -/
lemma Tracked.live (hσ : Tracked user email σ₁ σ)
    (hc : σ.calls[i]? = some ⟨q, tr, .stmt l f k⟩) : Live σ₁ i := by
  intro c₁ hc₁
  obtain ⟨c, hi, -, -, hfin⟩ := hσ.grown i c₁ hc₁
  cases hres : c₁.prog.result with
  | none => rfl
  | some a =>
    obtain rfl := hfin (by rw [hres]; rfl)
    rw [hc, Option.some.injEq] at hi
    rw [← hi] at hres
    cases hres

/-- The statements that the request had run before are the first ones. -/
lemma Tracked.split (hσ : Tracked user email σ₁ σ) {j : ℕ} {c : CredCall B}
    (hj : σ.calls[j]? = some c) : before σ₁ j ≤ c.trace.length ∧
      ∀ ev ∈ c.trace, ev ∈ c.trace.drop (before σ₁ j) ∨
        ∃ c₁, σ₁.calls[j]? = some c₁ ∧ c₁.req = c.req ∧ ev ∈ c₁.trace := by
  cases hj₁ : σ₁.calls[j]? with
  | none =>
    have hb : before σ₁ j = 0 := by simp [before, hj₁]
    rw [hb]
    exact ⟨Nat.zero_le _, fun ev hev => .inl hev⟩
  | some c₁ =>
    obtain ⟨c', hj', hreq, ⟨tr', htr⟩, -⟩ := hσ.grown j c₁ hj₁
    cases hj.symm.trans hj'
    have hb : before σ₁ j = c₁.trace.length := by simp [before, hj₁]
    rw [hb, ← htr]
    refine ⟨by simp, fun ev hev => ?_⟩
    rcases List.mem_append.mp hev with hev | hev
    · exact .inr ⟨c₁, rfl, hreq.symm, hev⟩
    · exact .inl (by simpa using hev)

/-- A statement of a request that runs on was run since, or before. -/
lemma Tracked.late_or_touched (hσ : Tracked user email σ₁ σ)
    (hc : σ.calls[i]? = some ⟨q, tr, .stmt l f k⟩) {ev ev' : CredEv B} (hev : ev ∈ tr ++ [ev']) :
    ev ∈ (tr ++ [ev']).drop (before σ₁ i) ∨
      ∃ c₁, σ₁.calls[i]? = some c₁ ∧ c₁.req = q ∧ ev ∈ c₁.trace := by
  obtain ⟨hle, hsplit⟩ := hσ.split hc
  rw [List.drop_append_of_le_length hle]
  rcases List.mem_append.mp hev with hev | hev
  · rcases hsplit ev hev with hev | h
    · exact .inl (List.mem_append_left _ hev)
    · exact .inr h
  · exact .inl (List.mem_append_right _ hev)

/-- A record of the user that a statement has read has the email. -/
lemma known_email {ev : CredEv B} (h : Known user email ev.pre) {r : UserRow B}
    (hr : r ∈ foundUser ev) (hid : r.id = user) : some r.email = email := by
  obtain ⟨row, hrow, hemail⟩ := h
  have hmem : r ∈ ev.pre.auth.users.rows := by
    unfold foundUser at hr
    split at hr
    · exact List.mem_of_find?_eq_some hr
    · cases hr
  have hget : ev.pre.auth.users.get user = some r := hid ▸ Table.get_of_mem hmem
  cases Option.mem_unique hrow hget
  exact hemail

/-- A new request has found nothing. -/
lemma Tracked.call (hσ : Tracked user email σ₁ σ)
    {p : Prog (CredDb B) (AuthEnv B) CredStmt (CredReply B)} :
    Tracked user email σ₁ ⟨σ.shared, σ.calls ++ [⟨q, [], p⟩]⟩ := by
  have hgrow : ∀ (j : ℕ) (c : CredCall B), σ.calls[j]? = some c →
      ∃ c', (σ.calls ++ [⟨q, [], p⟩])[j]? = some c' ∧ Grown c c' := by
    intro j c hj
    refine ⟨c, ?_, .refl c⟩
    rw [List.getElem?_append_left (List.getElem?_eq_some_iff.mp hj).1]
    exact hj
  have hold : ∀ (j : ℕ) (c : CredCall B), (σ.calls ++ [⟨q, [], p⟩])[j]? = some c →
      σ.calls[j]? = some c ∨ c.trace = [] := by
    intro j c hj
    rw [List.getElem?_append] at hj
    split at hj
    · exact .inl hj
    · rw [List.mem_singleton.mp (List.mem_of_getElem? hj)]
      exact .inr rfl
  refine ⟨hσ.known, fun j c₁ hj => ?_, fun j c hj ev hev => ?_, fun cred hh => ?_,
    fun j c hj hlive ev hev cred hf => ?_⟩
  · obtain ⟨c, hj, hg⟩ := hσ.grown j c₁ hj
    obtain ⟨c', hj', hg'⟩ := hgrow j c hj
    exact ⟨c', hj', hg.trans hg'⟩
  · rcases hold j c hj with hj | hnil
    · exact hσ.late j c hj ev hev
    · simp [hnil] at hev
  · obtain ⟨j, c, hfresh, hj, hb⟩ := hσ.held cred hh
    obtain ⟨c', hj', -, hpre, -⟩ := hgrow j c hj
    obtain ⟨ev, hev, hb⟩ := hb
    exact ⟨j, c', hfresh.mono hgrow, hj', ev, hpre.subset hev, hb⟩
  · rcases hold j c hj with hj | hnil
    · exact (hσ.found j c hj hlive ev hev cred hf).mono hgrow
    · rw [hnil] at hev
      cases hev

/-- A statement that finds a credential links its request to the one that has brought it. -/
lemma Tracked.finds (hσ : Tracked user email σ₁ σ)
    (hc : σ.calls[i]? = some ⟨q, tr, .stmt l f k⟩) {cred : Cred B}
    (hf : Finds user email cred ⟨l, e, σ.shared, f e σ.shared⟩) :
    Fresh user email σ₁ ⟨f e σ.shared,
      σ.calls.set i ⟨q, tr ++ [⟨l, e, σ.shared, f e σ.shared⟩], k e σ.shared⟩⟩ i := by
  have hgrow : ∀ (j : ℕ) (c : CredCall B), σ.calls[j]? = some c → ∃ c', (σ.calls.set i
      ⟨q, tr ++ [⟨l, e, σ.shared, f e σ.shared⟩], k e σ.shared⟩)[j]? = some c' ∧ Grown c c' :=
    fun _ _ h => grown_exec hc h
  obtain ⟨j, c, hfresh, hj, ev, hev, hb⟩ := hσ.held cred hf.2
  obtain ⟨c', hj', -, hpre, -⟩ := hgrow j c hj
  refine .link (hfresh.mono hgrow) hj'
    (List.getElem?_set_self (List.getElem?_eq_some_iff.mp hc).1) (hpre.subset hev) hb ?_ hf
  rw [List.drop_append_of_le_length (hσ.split hc).1]
  exact List.mem_append_right _ (List.mem_singleton_self _)

lemma Tracked.exec (hσ : Tracked user email σ₁ σ) (hun : ∀ j, Live σ₁ j → Untouched user email σ₁ j)
    (hc : σ.calls[i]? = some ⟨q, tr, .stmt l f k⟩)
    (hdo : Does X ⟨l, e, σ.shared, f e σ.shared⟩)
    (hshape : Shape q (tr ++ [⟨l, e, σ.shared, f e σ.shared⟩])) :
    Tracked user email σ₁ ⟨f e σ.shared,
      σ.calls.set i ⟨q, tr ++ [⟨l, e, σ.shared, f e σ.shared⟩], k e σ.shared⟩⟩ := by
  have hgrow : ∀ (j : ℕ) (c : CredCall B), σ.calls[j]? = some c → ∃ c', (σ.calls.set i
      ⟨q, tr ++ [⟨l, e, σ.shared, f e σ.shared⟩], k e σ.shared⟩)[j]? = some c' ∧ Grown c c' :=
    fun _ _ h => grown_exec hc h
  have hi' : (σ.calls.set i ⟨q, tr ++ [⟨l, e, σ.shared, f e σ.shared⟩], k e σ.shared⟩)[i]? =
      some ⟨q, tr ++ [⟨l, e, σ.shared, f e σ.shared⟩], k e σ.shared⟩ :=
    List.getElem?_set_self (List.getElem?_eq_some_iff.mp hc).1
  have hlive := hσ.live hc
  have hlate : ∀ ev ∈ (tr ++ [(⟨l, e, σ.shared, f e σ.shared⟩ : CredEv B)]).drop (before σ₁ i),
      Known user email ev.pre := by
    intro ev hev
    rw [List.drop_append_of_le_length (hσ.split hc).1] at hev
    rcases List.mem_append.mp hev with hev | hev
    · exact hσ.late i _ hc ev hev
    · rw [List.mem_singleton.mp hev]
      exact hσ.known
  have hfound : ∀ ev ∈ tr ++ [⟨l, e, σ.shared, f e σ.shared⟩], ∀ cred, Finds user email cred ev →
      Fresh user email σ₁ ⟨f e σ.shared,
        σ.calls.set i ⟨q, tr ++ [⟨l, e, σ.shared, f e σ.shared⟩], k e σ.shared⟩⟩ i := by
    intro ev hev cred hf
    rcases List.mem_append.mp hev with hev | hev
    · exact (hσ.found i _ hc hlive ev hev cred hf).mono hgrow
    · rw [List.mem_singleton.mp hev] at hf
      exact hσ.finds hc hf
  refine ⟨known_does hdo hσ.known, fun j c₁ hj => ?_, fun j c hj ev hev => ?_, fun cred hh => ?_,
    fun j c hj hl ev hev cred hf => ?_⟩
  · -- the calls of the beginning go on
    obtain ⟨c, hj, hg⟩ := hσ.grown j c₁ hj
    obtain ⟨c', hj', hg'⟩ := hgrow j c hj
    exact ⟨c', hj', hg.trans hg'⟩
  · rcases getElem?_set_cases hj with ⟨rfl, rfl⟩ | ⟨-, hj⟩
    · exact hlate ev hev
    · exact hσ.late j c hj ev hev
  · -- a credential that is held was held before, or the new statement brings it
    by_cases hpre : Holds user email cred σ.shared
    · obtain ⟨j, c, hfresh, hj, ev, hev, hb⟩ := hσ.held cred hpre
      obtain ⟨c', hj', -, hsub, -⟩ := hgrow j c hj
      exact ⟨j, c', hfresh.mono hgrow, hj', ev, hsub.subset hev, hb⟩
    · have hb : Brings user email cred ⟨l, e, σ.shared, f e σ.shared⟩ := ⟨hpre, hh⟩
      refine ⟨i, _, ?_, hi', _, List.mem_append_right _ (List.mem_singleton_self _), hb⟩
      rcases hshape with hbegins | hshape
      · exact .root hi' hbegins (hun i hlive)
      obtain ⟨hmint, hlogin⟩ := hshape _ (List.mem_append_right _ (List.mem_singleton_self _))
      rcases brings_name hdo hb with hname | ⟨name, hname⟩
      · obtain ⟨ev, hev, ⟨cred', hf⟩ | ⟨hreads, r, hr, hid, hother⟩⟩ := hmint user hname email
        · exact hfound ev hev cred' hf
        · rcases hσ.late_or_touched hc hev with hev | ⟨c₁, hj₁, hreq, hev⟩
          · exact absurd (known_email (hlate ev hev) hr hid) hother
          · exact absurd ⟨ev, hev, .inr ⟨hreq ▸ hreads, r, hr, hid⟩⟩ (hun i hlive c₁ hj₁)
      · exact absurd hname (hlogin name)
  · rcases getElem?_set_cases hj with ⟨rfl, rfl⟩ | ⟨-, hj⟩
    · exact hfound ev hev cred hf
    · exact (hσ.found j c hj hl ev hev cred hf).mono hgrow

end Tracked

/-! ### What a request that may act for the user has found -/

/-- A credential of the user was found. -/
def Found (user : Ident) (tr : List (CredEv B)) : Prop :=
  ∀ email, ∃ ev ∈ tr, ∃ cred, Finds user email cred ev

/-- The last statement of a recovery deletes the sessions of the user. -/
def Revoked (user : Ident) (tr : List (CredEv B)) : Prop :=
  ∃ tr₁ ev, tr = tr₁ ++ [ev] ∧ ev.name = .revokeUserSessions user ∧
    ev.post = onSessions (·.delete fun r => r.userId = user) ev.pre

/-- Whose account a request has recovered. -/
def recoveredFor : Option (CredReply B) → Option Ident
  | some (.recoverComplete (.ok user)) => some user
  | _ => none

lemma Found.append (h : Found user tr) (ev : CredEv B) : Found user (tr ++ [ev]) := by
  intro email
  obtain ⟨ev', hev', hf⟩ := h email
  exact ⟨ev', List.mem_append_left _ hev', hf⟩

lemma wp_found (user : Ident) {p : Prog (CredDb B) (AuthEnv B) CredStmt α}
    {Q : α → List (CredEv B) → CredDb B → Prop} (h : Found user tr)
    (hQ : ∀ a tr db, Found user tr → Q a tr db) : wp anyRules p Q tr db :=
  wp_of_guarantees (J := fun tr _ => Found user tr) (guarantees_true p) (fun _ _ _ _ => trivial)
    (fun _ _ _ => trivial) (fun _ _ _ _ h _ => h) (fun _ ev h _ => h.append ev) hQ h

lemma wp_recoverInfo_found (token : String) :
    wp anyRules (recoverInfo X token).run (Ok fun resp tr _ => Found resp.userId tr) [] db := by
  refine wp_bind_ok (wp_orElse_ok (wp_statement_ok fun db₁ e₁ a _ _ _ hrun b hb => ?_))
  cases hrun
  obtain ⟨row, hrow, rfl⟩ := Option.map_eq_some_iff.mp hb
  have hget := (Option.filter_eq_some_iff.mp hrow).1
  have hfound : Found row.userId
      ([] ++ [(⟨.peekRecoverySession (X.hashToken token), e₁, db₁, db₁⟩ : CredEv B)]) := fun email =>
    ⟨_, List.mem_singleton_self _, .recovery (X.hashToken token), rfl, row, Table.get_mem hget,
      Table.get_key hget, rfl⟩
  refine wp_bind_ok (wp_found _ hfound ?_)
  rintro (_ | user) tr db h
  · trivial
  · exact h

lemma wp_recoverComplete_found (req : CompleteReq B) :
    wp anyRules (recoverComplete X req).run (Ok fun user tr _ => Found user tr ∧ Revoked user tr) []
      db := by
  refine wp_bind_ok (wp_orElse_ok (wp_statement_ok fun db₁ e₁ a _ _ _ hrun b hb => ?_))
  cases hrun
  obtain ⟨row, hget, rfl⟩ := Option.map_eq_some_iff.mp hb
  refine wp_bind_ok (wp_found row.userId (fun email => ?_) ?_)
  · exact ⟨_, List.mem_singleton_self _, .recovery (X.hashToken req.recoveryToken), rfl, row,
      Table.get_mem hget, Table.get_key hget, rfl⟩
  rintro (_ | now) tr db h
  · trivial
  dsimp only [Ok]
  split
  · exact wp_throw_ok _
  refine wp_bind_ok (wp_decodeB64_ok fun _ => wp_bind_ok (wp_decodeB64_ok fun _ =>
    wp_bind_ok (wp_decodeB64_ok fun _ => wp_bind_ok (wp_decodeB64_ok fun _ =>
    wp_bind_ok (wp_decodeB64_ok fun rkPk => ?_)))))
  split
  · exact wp_throw_ok _
  refine wp_bind_ok (wp_found _ h ?_)
  rintro (_ | now) tr db h
  · trivial
  refine wp_bind_ok (wp_found _ h ?_)
  rintro (_ | _) tr db h
  · trivial
  refine wp_bind_ok (wp_orInternal_ok (wp_statement_ok fun db₂ e₂ _ _ _ _ _ => ?_))
  exact ⟨h.append _, _, _, rfl, rfl, rfl⟩

/-- What stands behind the answer of a recovery. -/
def Reason (a : CredReply B) (tr : List (CredEv B)) : Prop :=
  match a with
  | .recoverInfo (.ok resp) => Found resp.userId tr
  | .recoverComplete (.ok user) => Found user tr ∧ Revoked user tr
  | _ => True

lemma wp_reason [DecidableEq B] (q : CredReq B) :
    wp anyRules (code X q) (fun a tr _ => Reason a tr) [] db := by
  cases q with
  | recoverInfo token =>
    refine (wp_bind _ _ _ _ _).mpr (wp_mono ?_ (wp_recoverInfo_found token))
    rintro (_ | resp) tr db h
    · trivial
    · exact h
  | recoverComplete req =>
    refine (wp_bind _ _ _ _ _).mpr (wp_mono ?_ (wp_recoverComplete_found req))
    rintro (_ | user) tr db h
    · trivial
    · exact h
  | _ =>
    exact (wp_bind _ _ _ _ _).mpr (wp_trivial (fun _ => trivial) (fun _ _ _ => trivial) _ _ _)

lemma found_admitted {token : String} (h : Admitted X token user tr) : Found user tr := by
  obtain ⟨row, rfl, ⟨ev, hev, hname, hget⟩, -⟩ := h
  refine fun email => ⟨ev, hev, .session (X.hashToken token), ?_, row, Table.get_mem hget,
    Table.get_key hget, rfl⟩
  rw [asks, hname]

lemma found_verified {token : String} {row : AccessTokenRow} (h : Verified X token row tr) :
    Found row.ownerUserId tr := by
  obtain ⟨hrev, tr₁, ev, tr₂, clock, -, rfl, hname, hget, -⟩ := h
  refine fun email => ⟨ev, by simp, .token (X.tokenHash token), ?_, row,
    Table.get_mem (t := ev.pre.accessTokens.by') hget, Table.get_key hget, rfl, hrev⟩
  rw [asks, hname]

/-- A request that may act for the user has found a credential. -/
lemma found_of_acts [DecidableEq B] {as : List (CredAct B)} {c : CredCall B} {a : CredReply B}
    (hc : c ∈ (run (code X) (init db) as).calls) (ha : c.prog.result = some a)
    (hacts : acts c.req a = some user) : Found user c.trace := by
  have hpost := post_of_run hc ha
  have hreason := run_post (fun q _ => wp_reason (X := X) q) db as c hc a ha
  unfold acts at hacts
  split at hacts
  · next bearer user' hreq =>
    cases hacts
    rw [hreq] at hpost
    exact found_admitted hpost
  · next bearer ctx hreq =>
    cases hacts
    rw [hreq] at hpost
    obtain ⟨user, _ | v⟩ := ctx
    · exact found_admitted hpost
    · obtain ⟨row, tr₁, ev, -, rfl, htr, hv, -⟩ := hpost
      rw [htr]
      exact (found_verified hv).append ev
  · cases hacts
    exact hreason
  · cases hacts
    exact hreason.1
  · cases hacts

/-- What holds when the sessions of the user are deleted and there is nothing else. -/
lemma tracked_revoked {σ : CredSys B} {calls : List (CredCall B)} (hclear : Clear user σ.shared)
    (hun : ∀ j, Live (⟨onSessions (·.delete fun r => r.userId = user) σ.shared, calls⟩ : CredSys B) j →
      Untouched user (emailOf user σ.shared) ⟨onSessions (·.delete fun r => r.userId = user) σ.shared,
        calls⟩ j) :
    Tracked user (emailOf user σ.shared) ⟨onSessions (·.delete fun r => r.userId = user) σ.shared, calls⟩
      ⟨onSessions (·.delete fun r => r.userId = user) σ.shared, calls⟩ := by
  obtain ⟨hacc, hpend, htok, hrec, hlog⟩ := hclear
  refine ⟨?_, fun j c hj => ⟨c, hj, .refl c⟩, fun j c hj ev hev => ?_, fun cred hh => ?_,
    fun j c hj hlive ev hev cred hf => ?_⟩
  · obtain ⟨row, hrow⟩ := Option.isSome_iff_exists.mp hacc
    exact ⟨row, hrow, by rw [emailOf, hrow]; rfl⟩
  · simp [before, hj] at hev
  · exfalso
    cases cred with
    | session hash =>
      obtain ⟨r, hr, -, huser⟩ := hh
      have hkept := (Table.mem_delete.mp hr).2
      simp [huser] at hkept
    | pending hash =>
      obtain ⟨r, hr, -, huser⟩ := hh
      exact hpend r hr huser
    | token hash =>
      obtain ⟨r, hr, -, huser, hrev⟩ := hh
      exact htok r hr huser hrev
    | recovery hash =>
      obtain ⟨r, hr, -, huser⟩ := hh
      exact hrec r hr huser
    | login state =>
      obtain ⟨en, hen, -, hby⟩ := hh
      exact hlog en hen hby
  · exact absurd ⟨ev, hev, .inl ⟨cred, hf.1, hf.2⟩⟩ (hun j hlive c hj)

/-! ### After the recovery -/

abbrev Orderly (X : CredExt B) (σ : CredSys B) : Prop :=
  Sound minting (fun q _ tr _ => Shape q tr) (fun _ => Does X) σ

lemma Orderly.shape {σ : CredSys B} (hσ : Orderly X σ) {c : CredCall B} (hc : c ∈ σ.calls) :
    Shape c.req c.trace := by
  obtain ⟨i, hi⟩ := List.mem_iff_getElem?.mp hc
  have hheld := hσ.held i c hi
  cases hp : c.prog with
  | ret a => rwa [hp] at hheld
  | stmt l f k => exact (hp ▸ hheld).1

lemma own_append {σ : CredSys B} {i : ℕ} {e : AuthEnv B} {l : CredStmt}
    {f : AuthEnv B → CredDb B → CredDb B}
    {k : AuthEnv B → CredDb B → Prog (CredDb B) (AuthEnv B) CredStmt (CredReply B)}
    (hc : σ.calls[i]? = some ⟨q, tr, .stmt l f k⟩) (hC : Clean σ (.exec i e)) :
    Own q (tr ++ [⟨l, e, σ.shared, f e σ.shared⟩]) := by
  rintro req rfl ev hev key hname en hen
  cases Option.mem_unique hev List.getLast?_concat
  dsimp only at hname
  subst hname
  exact hC _ hc _ rfl en hen

/-- What holds at some point and is kept by the requests holds after every run from there. -/
lemma run_orderly [DecidableEq B] {σ : CredSys B} {P : CredSys B → Prop}
    (hcall : ∀ σ q, P σ → P ⟨σ.shared, σ.calls ++ [⟨q, [], code X q⟩]⟩)
    (hexec : ∀ (σ : CredSys B) (i : ℕ) (e : AuthEnv B) (q : CredReq B) (tr : List (CredEv B))
      (l : CredStmt) (f : AuthEnv B → CredDb B → CredDb B)
      (k : AuthEnv B → CredDb B → Prog (CredDb B) (AuthEnv B) CredStmt (CredReply B)),
      σ.calls[i]? = some ⟨q, tr, .stmt l f k⟩ → Does X ⟨l, e, σ.shared, f e σ.shared⟩ →
      Shape q (tr ++ [⟨l, e, σ.shared, f e σ.shared⟩]) → P σ → P ⟨f e σ.shared,
        σ.calls.set i ⟨q, tr ++ [⟨l, e, σ.shared, f e σ.shared⟩], k e σ.shared⟩⟩)
    {as : List (CredAct B)} (hσ : Orderly X σ) (hP : P σ) (has : Along (code X) Clean σ as) :
    Orderly X (run (code X) σ as) ∧ P (run (code X) σ as) := by
  refine run_sound (C := Clean) (fun _ q _ => wp_code q) (fun q => does_code q)
    (fun _ _ _ _ => trivial) (fun _ _ _ _ _ h => h) (fun _ _ _ _ _ _ _ _ hc hC => own_append hc hC)
    (fun σ q _ hP => hcall σ q hP) ?_ ⟨hσ, hP⟩ has
  intro σ i e q tr l f k hc _ _ hsound hP
  have hmem : (⟨q, tr ++ [⟨l, e, σ.shared, f e σ.shared⟩], k e σ.shared⟩ : CredCall B) ∈
      σ.calls.set i ⟨q, tr ++ [⟨l, e, σ.shared, f e σ.shared⟩], k e σ.shared⟩ :=
    List.mem_set (List.getElem?_eq_some_iff.mp hc).1 _
  exact hexec σ i e q tr l f k hc
    (hsound.every hmem _ (List.mem_append_right _ (List.mem_singleton_self _)))
    (Orderly.shape hsound hmem) hP

lemma result_of_recoveredFor {r : Option (CredReply B)} (h : recoveredFor r = some user) :
    r = some (.recoverComplete (.ok user)) := by
  unfold recoveredFor at h
  split at h
  · cases h
    rfl
  · cases h

/-- The `i`-th request, which had not been answered in `σ`, has recovered the account in `σ₁`. -/
def Recovers (user : Ident) (i : ℕ) (σ σ₁ : CredSys B) : Prop :=
  Live σ i ∧ ∃ c ∈ σ₁.calls[i]?, recoveredFor c.prog.result = some user

/-- Nobody who is not answered has to do with the user, when only the `i`-th request has. -/
lemma untouched_others {email : Option String} {σ : CredSys B} (shared : CredDb B) {i : ℕ}
    {c : CredCall B} (hdone : c.prog.result ≠ none)
    (hothers : ∀ j < σ.calls.length, j ≠ i → ∀ c' ∈ σ.calls[j]?, c'.prog.result.isNone →
      ¬Touched user email c'.req c'.trace) (j : ℕ)
    (hlive : Live (⟨shared, σ.calls.set i c⟩ : CredSys B) j) :
    Untouched user email ⟨shared, σ.calls.set i c⟩ j := by
  intro c' hj
  have hnone := hlive c' hj
  rcases getElem?_set_cases hj with ⟨-, rfl⟩ | ⟨hne, hj'⟩
  · exact absurd hnone hdone
  · refine hothers j (List.getElem?_eq_some_iff.mp hj').1 hne c' hj' ?_
    rw [hnone]
    rfl

/-- The last statement of a recovery has deleted the sessions, and nothing else was left. -/
lemma tracked_recovered [DecidableEq B] {as : List (CredAct B)} {i : ℕ} {e : AuthEnv B}
    (hC : Clean (run (code X) (init db) as) (.exec i e))
    (hdone : Recovers user i (run (code X) (init db) as)
      (run (code X) (init db) (as ++ [.exec i e]))) :
    let σ₁ := run (code X) (init db) (as ++ [.exec i e])
    Tracked user (emailOf user σ₁.shared) σ₁ σ₁ ∧
      ∀ j, Live σ₁ j → Untouched user (emailOf user σ₁.shared) σ₁ j := by
  obtain ⟨hlive, c, hc, hres⟩ := hdone
  have hreason := run_post (fun q _ => wp_reason (X := X) q) db (as ++ [.exec i e]) c
    (List.mem_of_getElem? hc)
  have hrun : run (code X) (init db) (as ++ [.exec i e]) =
      step (code X) (run (code X) (init db) as) (.exec i e) := by
    simp [run, List.foldl_append]
  rw [hrun] at hc ⊢
  generalize run (code X) (init db) as = σ at hC hlive hc ⊢
  rcases step_cases (h := code X) σ (.exec i e) with ⟨q, heq, -⟩ |
    ⟨i', e', q, tr, l, f, k, heq, hi, hst⟩ | hst
  · cases heq
  · cases heq
    rw [hst] at hc ⊢
    have hc' : c = ⟨q, tr ++ [⟨l, e, σ.shared, f e σ.shared⟩], k e σ.shared⟩ := by
      rcases getElem?_set_cases hc with ⟨-, h⟩ | ⟨hne, -⟩
      · exact h
      · exact absurd rfl hne
    have ha := result_of_recoveredFor hres
    obtain ⟨-, tr₁, ev, htr, hname, hpost⟩ := hreason _ ha
    rw [hc'] at htr ha
    obtain ⟨rfl, hev⟩ := List.append_inj' htr rfl
    cases List.singleton_inj.mp hev
    dsimp only at hname hpost
    subst hname
    obtain ⟨hclear, hothers⟩ := hC _ hi _ rfl
    rw [hpost] at ha ⊢
    have hun := untouched_others (onSessions (·.delete fun r => r.userId = user) σ.shared)
      (Option.ne_none_iff_exists'.mpr ⟨_, ha⟩) hothers
    exact ⟨tracked_revoked hclear hun, hun⟩
  · rw [hst] at hc
    rw [hlive c hc] at hres
    cases hres

/-- **What a recovery cuts off**: when every recovery of a run finds nothing of the user but
sessions, and every `login_finish` a login of its own username, a request that is answered after
a recovery has succeeded acts for the user only with a login or a recovery that was begun after
it. -/
theorem recovery_cuts_off [DecidableEq B] (X : CredExt B) (db : CredDb B)
    (as as' : List (CredAct B)) (i : ℕ) (e : AuthEnv B) (user : Ident)
    (has : Along (code X) Clean (init db) (as ++ .exec i e :: as'))
    (hdone : Recovers user i (run (code X) (init db) as)
      (run (code X) (init db) (as ++ [.exec i e]))) :
    CutOff user (run (code X) (init db) (as ++ [.exec i e]))
      (run (code X) (init db) (as ++ .exec i e :: as')) := by
  have hsplit : as ++ .exec i e :: as' = (as ++ [.exec i e]) ++ as' := by simp
  rw [hsplit, along_append] at has
  obtain ⟨has₁, has'⟩ := has
  obtain ⟨has₀, hC, -⟩ := (along_append _ _ _).mp has₁
  obtain ⟨hσ₁, -⟩ := run_orderly (P := fun _ => True) (fun _ _ _ => trivial)
    (fun _ _ _ _ _ _ _ _ _ _ _ _ => trivial) (sound_init db) trivial has₁
  obtain ⟨htracked, hun⟩ := tracked_recovered hC hdone
  intro j c hj hlive a ha hacts
  obtain ⟨ev, hev, cred, hf⟩ := found_of_acts (List.mem_of_getElem? hj) ha hacts
    (emailOf user (run (code X) (init db) (as ++ [.exec i e])).shared)
  have hrun : run (code X) (init db) (as ++ .exec i e :: as') =
      run (code X) (run (code X) (init db) (as ++ [.exec i e])) as' := by
    rw [hsplit, run_append]
  rw [hrun] at hj ⊢
  obtain ⟨-, ht⟩ := run_orderly (P := Tracked user (emailOf user (run (code X) (init db)
      (as ++ [.exec i e])).shared) (run (code X) (init db) (as ++ [.exec i e])))
    (fun σ q h => h.call) (fun σ i e q tr l f k hc hdo hshape h => h.exec hun hc hdo hshape)
    hσ₁ htracked has'
  exact ht.found j c hj hlive ev hev cred hf

/-- Nothing is fresh when nobody has begun anything since. -/
lemma not_fresh {email : Option String} {σ₁ σ : CredSys B}
    (h : ∀ j < σ.calls.length, ∀ c ∈ σ.calls[j]?, begins c.req = true →
      ∃ c₁ ∈ σ₁.calls[j]?, Touched user email c₁.req c₁.trace) {j : ℕ} :
    ¬Fresh user email σ₁ σ j := by
  intro hfresh
  induction hfresh with
  | root hj hbegins hun =>
    obtain ⟨c₁, hc₁, ht⟩ := h _ (List.getElem?_eq_some_iff.mp hj).1 _ hj hbegins
    exact hun c₁ hc₁ ht
  | link _ _ _ _ _ _ _ ih => exact ih

section Decidable

variable [DecidableEq B] (email : Option String) (σ : CredSys B)

instance (db : CredDb B) : ∀ cred : Cred B, Decidable (Holds user email cred db)
  | .session _ => inferInstanceAs (Decidable (∃ r ∈ _, _ ∧ _))
  | .pending _ => inferInstanceAs (Decidable (∃ r ∈ _, _ ∧ _))
  | .token _ => inferInstanceAs (Decidable (∃ r ∈ _, _ ∧ _ ∧ _))
  | .recovery _ => inferInstanceAs (Decidable (∃ r ∈ _, _ ∧ _))
  | .login _ => inferInstanceAs (Decidable (∃ r ∈ _, _ ∧ _))

instance (q : CredReq B) (tr : List (CredEv B)) : Decidable (Touched user email q tr) :=
  inferInstanceAs (Decidable (∃ ev ∈ _, (∃ cred ∈ _, _) ∨ _ ∧ ∃ r ∈ _, _))

instance (db : CredDb B) : Decidable (Clear user db) := inferInstanceAs (Decidable (_ ∧ _ ∧ _))

instance : ∀ a, Decidable (Clean σ a)
  | .call _ => inferInstanceAs (Decidable True)
  | .exec i _ => by
    unfold Clean
    refine @Option.decidableForallMem _ _ (fun c => @Option.decidableForallMem _ _ (fun l => ?_) _) _
    split
    · infer_instance
    · refine @Option.decidableForallMem _ _ (fun en => ?_) _
      split <;> infer_instance
    · infer_instance

instance (j : ℕ) : Decidable (Live σ j) := inferInstanceAs (Decidable (∀ c ∈ _, _))

instance (i : ℕ) (σ₁ : CredSys B) : Decidable (Recovers user i σ σ₁) :=
  inferInstanceAs (Decidable (_ ∧ ∃ c ∈ _, _))

end Decidable

/-- A user creates an access token, or only looks, and recovers the account, up to the last
statement of the recovery. -/
def recovering (q : CredReq (List ℕ)) : List (CredAct (List ℕ)) :=
  let e : AuthEnv (List ℕ) := ⟨1, 5, luckyBytes, false⟩
  serving 0 q 8 e ++ serving 1 (.recoverChallenge "alice") 5 e ++
  serving 2 (.recoverVerify ⟨"alice", none, some (List.replicate 32 7 ++ luckyBytes)⟩) 8 e ++
  serving 3 (.recoverComplete ⟨bytes.hyphenated 5, some [], some [], some [], some [],
    some (List.replicate 32 8)⟩) 4 e

/-- The user logs in with the new password and uses the session. -/
def loggingIn : List (CredAct (List ℕ)) :=
  let e : AuthEnv (List ℕ) := ⟨1, 5, [9], false⟩
  serving 4 (.login (.loginStart ⟨"alice", some []⟩)) 3 e ++
  serving 5 (.login (.loginFinish ⟨"alice", some [1], some ("vtr-lh-" ++ bytes.simple 5)⟩)) 9 e ++
  serving 6 (.authUser (bytes.b64 [9, 1])) 3 e

theorem recovery_cuts_off_login :
    let as := recovering (.authUser "session")
    let e : AuthEnv (List ℕ) := ⟨1, 5, luckyBytes, false⟩
    Along (code bytes) Clean (init oneUser) (as ++ .exec 3 e :: loggingIn) ∧
    Recovers 1 3 (run (code bytes) (init oneUser) as)
      (run (code bytes) (init oneUser) (as ++ [.exec 3 e])) ∧
    CutOff 1 (run (code bytes) (init oneUser) (as ++ [.exec 3 e]))
      (run (code bytes) (init oneUser) (as ++ .exec 3 e :: loggingIn)) :=
  ⟨by decide +kernel, by decide +kernel, recovery_cuts_off bytes oneUser _ loggingIn 3 _ 1
    (by decide +kernel) (by decide +kernel)⟩

/-- An access token from before the recovery is accepted after it. -/
theorem token_survives_recovery :
    ¬∀ (as as' : List (CredAct (List ℕ))) (i : ℕ) (e : AuthEnv (List ℕ)),
      Recovers 1 i (run (code bytes) (init oneUser) as)
        (run (code bytes) (init oneUser) (as ++ [.exec i e])) →
      CutOff 1 (run (code bytes) (init oneUser) (as ++ [.exec i e]))
        (run (code bytes) (init oneUser) (as ++ .exec i e :: as')) := by
  intro h
  let e : AuthEnv (List ℕ) := ⟨1, 5, luckyBytes, false⟩
  let as := recovering (.createToken "session" ⟨"ci", none, none, ["secrets:read"], none⟩)
  let as' := serving 4 (.authAny (String.ofList (base64url luckyBytes))) 4 e
  have hcut := h as as' 3 e (by decide +kernel)
  have hacts : ∃ c ∈ (run (code bytes) (init oneUser) (as ++ .exec 3 e :: as')).calls[4]?,
      ∃ a ∈ c.prog.result, acts c.req a = some 1 := by decide +kernel
  obtain ⟨c, hc, a, ha, hacts⟩ := hacts
  exact not_fresh (by decide +kernel) (hcut 4 c hc (by decide +kernel) a ha hacts)

end Vautr.RecoveryRevokes
