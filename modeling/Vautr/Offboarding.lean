import Vautr.ProjectVisibility
import Vautr.Tokens

/-!
Offboarding with all the tables that it touches (`handlers/projects.rs`), and those it does
not: the reveal grants of secrets and the members of sharing groups
(`migrations/0003_sharing.sql`).

Each revocation is a statement of its own. `Projects.revokeOther` stands for three of them on
the tables of the projects; here they are written out. Between two statements everybody else
may do anything.
-/

namespace Vautr.Offboarding

open Vautr.Atomic Vautr.Session Vautr.Sql Vautr.Database Vautr.Api Vautr.Server Vautr.Zoom
open Vautr.Auth Vautr.Credentials Vautr.Tokens Vautr.Projects Vautr.Secrets
open Vautr.ProjectHandlers (OffboardResp mayOffboard notFound)

variable {B : Type}

/-! ### The tables -/

/-- A row of `group_members`, the members of sharing groups. -/
structure SharingMember where
  groupId : Ident
  userId : Ident
  createdAt : ℤ
  deriving DecidableEq

abbrev SharingMember.key (r : SharingMember) : Ident × Ident := (r.groupId, r.userId)

/-- The tables from which access is computed. Of `sharing_groups` the id and the admin are
kept. -/
structure AccessDb (B : Type) where
  secrets : SecretsDb B
  cred : CredDb B
  sharingGroups : Table (Prod.fst : Ident × Ident → Ident)
  groupMembers : Table SharingMember.key
  sharingKeys : Table (Prod.fst : Ident × B → Ident)

inductive OffStmt
  | proj (l : ProjStmt)
  | revokeSessions
  | revokeSharingKeys
  | revokeTokens
  | revokeMachineAccounts
  | addGroupMember
  deriving DecidableEq

abbrev OffEv (B : Type) := Ev (AccessDb B) (AuthEnv B) OffStmt

abbrev OffRepo (B : Type) := Query (AccessDb B) (AuthEnv B) OffStmt

abbrev OffHandler (B : Type) := Handler (AccessDb B) (AuthEnv B) OffStmt

/-- The tables of the projects. -/
def projects : View ProjDb (AccessDb B) Env (AuthEnv B) ProjStmt OffStmt where
  get db := db.secrets.proj
  put s db := { db with secrets := { db.secrets with proj := s } }
  inp e := ⟨e.now, e.uuid, e.fault⟩
  name := .proj
  get_put _ _ := rfl

def onProjects {α : Type} (x : ProjRepo α) : OffRepo B α := zoomE projects x

/-! ### The statements -/

def revokeSessionsForUser (user : Ident) : OffRepo B ℕ :=
  statement .revokeSessions fun _ db =>
    let p (r : SessionRow) : Bool := r.userId = user
    ({ db with cred := { db.cred with
        auth := { db.cred.auth with sessions := db.cred.auth.sessions.delete p } } },
      .ok (db.cred.auth.sessions.rows.countP p))

def revokeSharingKeysForUser (user : Ident) : OffRepo B ℕ :=
  statement .revokeSharingKeys fun _ db =>
    let p (r : Ident × B) : Bool := r.1 = user
    ({ db with sharingKeys := db.sharingKeys.delete p }, .ok (db.sharingKeys.rows.countP p))

def revokeTokensForUser (user : Ident) : OffRepo B ℕ :=
  statement .revokeTokens fun _ db =>
    let p (r : AccessTokenRow) : Bool := r.ownerUserId = user
    ({ db with cred := { db.cred with accessTokens := db.cred.accessTokens.delete p } },
      .ok (db.cred.accessTokens.rows.countP p))

/-- `revoke_machine_accounts_for_user`; the foreign key of `access_tokens` is
`ON DELETE SET NULL`. -/
def revokeMachineAccountsForUser (user : Ident) : OffRepo B ℕ :=
  statement .revokeMachineAccounts fun _ db =>
    let p (r : MachineAccountRow) : Bool := r.ownerUserId = user
    let gone (uuid : Ident) : Bool := db.cred.machineAccounts.rows.any fun r => p r && r.uuid = uuid
    ({ db with cred := { db.cred with
        machineAccounts := db.cred.machineAccounts.delete p
        accessTokens := db.cred.accessTokens.update (fun t => t.machineAccountUuid.any gone)
          (fun t => { t with machineAccountUuid := none }) AccessTokenRow.uuid_detach
          AccessTokenRow.tokenHash_detach } },
      .ok (db.cred.machineAccounts.rows.countP p))

/-- `add_group_member` of a sharing group, `ON CONFLICT DO NOTHING`. -/
def addGroupMember (group user : Ident) (now : ℤ) : OffRepo B Unit :=
  statement .addGroupMember fun _ db =>
    match db.groupMembers.insert ⟨group, user, now⟩ with
    | none => (db, .ok ())
    | some groupMembers =>
      if (db.sharingGroups.get group).isSome && (db.secrets.proj.users.get user).isSome then
        ({ db with groupMembers }, .ok ())
      else (db, .error .foreignKey)

/-! ### The handler -/

/-- `.await.map_err(internal_err)?.ok_or_else(|| err)?`. -/
def orElse {α : Type} (x : OffRepo B (Option α)) (err : ApiError) : OffHandler B α := do
  match ← orInternal x with
  | some a => return a
  | none => throw err

def nowMs : OffHandler B ℤ := zoomE projects ProjectHandlers.nowMs

/-- The revocations and what follows them, once the offboarding was recorded under `id`. -/
def revokeAll (id user : Ident) (now : ℤ) : OffHandler B OffboardResp := do
  let revokedProjects ← orInternal (onProjects (revokeProjectAccessForUser user))
  let revokedMemberships ← orInternal (onProjects (revokeGroupMembershipsForUser user))
  let revokedTokens ← orInternal (revokeSessionsForUser user)
  orInternal (onProjects (revokeOrgMembershipsForUser user))
  let _ ← orInternal (revokeSharingKeysForUser user)
  let _ ← orInternal (revokeTokensForUser user)
  let _ ← orInternal (revokeMachineAccountsForUser user)
  orInternal (onProjects (completeOffboarding id now))
  orInternal (onProjects auditOrgEvent)
  return ⟨user, revokedProjects, revokedMemberships, revokedTokens, now⟩

/-- `POST /offboard`. -/
def offboard (caller user : Ident) (reason : Option String) : OffHandler B OffboardResp := do
  let _ ← orElse (onProjects (Projects.getUserById user)) (notFound "unknown user")
  let callerRoles ← orInternal (onProjects (getUserOrgRoles caller))
  let targetRoles ← orInternal (onProjects (getUserOrgRoles user))
  match mayOffboard callerRoles targetRoles with
  | some err => throw err
  | none =>
    let now ← nowMs
    let id ← orInternal (onProjects Projects.newUuid)
    orInternal (onProjects (createOffboarding ⟨id, user, caller, reason, none, now⟩))
    revokeAll id user now

/-! ### Access -/

/-- What gives a user access. -/
inductive Kind
  | grants
  | groups
  | sessions
  | orgs
  | tokens
  | accounts
  | reveals
  | sharing
  deriving DecidableEq

/-- The user has access of a kind on the tables of the projects. -/
def ProjHas (db : ProjDb) (user : Ident) : Kind → Prop
  | .grants => ∃ r ∈ db.access.rows, r.grantee = .inl user
  | .groups => ∃ r ∈ db.groupMembers.rows, r.userId = user
  | .orgs => ∃ r ∈ db.orgMembers.rows, r.userId = user
  | _ => False

/-- The user has access of a kind. Reveal grants on projects of the user give nothing. -/
def Has (db : AccessDb B) (user : Ident) : Kind → Prop
  | .sessions => ∃ r ∈ db.cred.auth.sessions.rows, r.userId = user
  | .tokens => ∃ r ∈ db.cred.accessTokens.rows, r.ownerUserId = user
  | .accounts => ∃ r ∈ db.cred.machineAccounts.rows, r.ownerUserId = user
  | .reveals => ∃ r ∈ db.secrets.revealGrants.rows, r.userId = user ∧
    (db.secrets.proj.projects.get r.projectId).map (·.ownerUserId) ≠ some user
  | .sharing => ∃ r ∈ db.groupMembers.rows, r.userId = user
  | k => ProjHas db.secrets.proj user k

/-- The rows that give the user access are the same in both states. -/
structure SameAccess (user : Ident) (db db' : AccessDb B) : Prop where
  grants : db'.secrets.proj.access.rows.filter (·.grantee = .inl user) =
    db.secrets.proj.access.rows.filter (·.grantee = .inl user)
  groups : db'.secrets.proj.groupMembers.rows.filter (·.userId = user) =
    db.secrets.proj.groupMembers.rows.filter (·.userId = user)
  sessions : db'.cred.auth.sessions.rows.filter (·.userId = user) =
    db.cred.auth.sessions.rows.filter (·.userId = user)
  orgs : db'.secrets.proj.orgMembers.rows.filter (·.userId = user) =
    db.secrets.proj.orgMembers.rows.filter (·.userId = user)
  tokens : db'.cred.accessTokens.rows.filter (·.ownerUserId = user) =
    db.cred.accessTokens.rows.filter (·.ownerUserId = user)
  accounts : db'.cred.machineAccounts.rows.filter (·.ownerUserId = user) =
    db.cred.machineAccounts.rows.filter (·.ownerUserId = user)
  reveals : db'.secrets.revealGrants.rows.filter (·.userId = user) =
    db.secrets.revealGrants.rows.filter (·.userId = user)
  sharing : db'.groupMembers.rows.filter (·.userId = user) =
    db.groupMembers.rows.filter (·.userId = user)

lemma SameAccess.refl (user : Ident) (db : AccessDb B) : SameAccess user db db :=
  ⟨rfl, rfl, rfl, rfl, rfl, rfl, rfl, rfl⟩

/-- What is left of the access of somebody who was offboarded: no permission on projects of
others, nothing that authenticates, no membership, and no right to reveal a secret that a new
grant on its project would bring back. -/
structure Offboarded (X : CredExt B) (user : Ident) (db : AccessDb B) : Prop where
  permission : ∀ (e : Env) (project : Ident), e.fault = false →
    (db.secrets.proj.projects.get project).map (·.ownerUserId) ≠ some user →
    (alone e (effectivePermission project user).run db.secrets.proj).1 = .ok none
  bearer : ∀ (e : AuthEnv B) (token : String) (ctx : AuthContext),
    (alone e (authAny X token).run db.cred).1 = .ok ctx → ctx.userId ≠ user
  accounts : ∀ r ∈ db.cred.machineAccounts.rows, r.ownerUserId ≠ user
  orgs : ∀ r ∈ db.secrets.proj.orgMembers.rows, r.userId ≠ user
  groups : ∀ r ∈ db.secrets.proj.groupMembers.rows, r.userId ≠ user
  sharing : ∀ r ∈ db.groupMembers.rows, r.userId ≠ user
  reveal : ∀ (e e' : Env) (project grantedBy : Ident) (hide : Bool) (now : ℤ),
    (db.secrets.proj.projects.get project).map (·.ownerUserId) ≠ some user →
    (alone e (canReveal project user).run (alone e' (zoomE Secrets.projects
      (grantUserProjectAccess project user .canView hide grantedBy now)).run db.secrets).2).1 ≠
      .ok true

/-! ### What is left of the access -/

/-- The user has no session and no access token. -/
def Unknown (user : Ident) (db : CredDb B) : Prop :=
  (∀ r ∈ db.auth.sessions.rows, r.userId ≠ user) ∧ ∀ r ∈ db.accessTokens.rows, r.ownerUserId ≠ user

/-- The statement gives the user no session and no access token. -/
def KeepsUnknown (user : Ident) (ev : CredEv B) : Prop := Unknown user ev.pre → Unknown user ev.post

section Unknown

variable {X : CredExt B} {user : Ident} {α : Type} {s : CredDb B}

lemma unknown_select (l : CredStmt) (g : CredDb B → α) :
    Guarantees (fun _ _ _ => True) (KeepsUnknown user) (select l g : CredRepo B α).run :=
  guarantees_statement (fun _ _ h => h) fun _ _ h => h

lemma unknown_orElse {x : CredRepo B (Option α)}
    (h : Guarantees (fun _ _ _ => True) (KeepsUnknown user) x.run) (err : ApiError) :
    Guarantees (fun _ _ _ => True) (KeepsUnknown user) (Credentials.orElse x err).run := by
  refine guarantees_bind_except (guarantees_orInternal h) ?_
  rintro (_ | a)
  · exact guarantees_throw_except _
  · exact guarantees_pure_except _

lemma unknown_nowMs :
    Guarantees (fun _ _ _ => True) (KeepsUnknown user) (Credentials.nowMs : CredHandler B ℤ).run :=
  guarantees_stmt (fun _ _ h => h) fun _ _ => guarantees_ret _

lemma unknown_touchAccessToken (uuid : Ident) (now : ℤ) :
    Guarantees (fun _ _ _ => True) (KeepsUnknown user)
      (touchAccessToken uuid now : CredRepo B Bool).run := by
  refine guarantees_statement (fun _ _ h => h) fun _ db h => ⟨h.1, fun r hr => ?_⟩
  obtain ⟨r', hr', rfl⟩ := List.mem_map.mp hr
  have := h.2 r' hr'
  split <;> exact this

lemma unknown_verifyAccessToken (token : String) :
    Guarantees (fun _ _ _ => True) (KeepsUnknown user) (verifyAccessToken X token).run := by
  refine guarantees_bind_except unknown_nowMs fun now =>
    guarantees_bind_except (unknown_orElse (unknown_select _ _) _) fun row => ?_
  split
  · exact guarantees_throw_except _
  split
  · exact guarantees_throw_except _
  refine guarantees_bind_except ?_ fun _ =>
    guarantees_bind_except (guarantees_ignored (unknown_touchAccessToken _ _)) fun _ =>
    guarantees_bind_except ?_ fun _ => guarantees_pure_except _
  · unfold requireMachineAccount
    cases row.machineAccountUuid with
    | none => exact guarantees_pure_except _
    | some uuid =>
      refine guarantees_bind_except (unknown_orElse (unknown_select _ _) _) fun ma => ?_
      split
      · exact guarantees_throw_except _
      split
      · exact guarantees_throw_except _
      · exact guarantees_pure_except _
  · unfold touchAccountOf
    cases row.machineAccountUuid with
    | none => exact guarantees_pure_except _
    | some uuid => exact guarantees_ignored (guarantees_statement (fun _ _ h => h) fun _ _ h => h)

/-- A query for a row, with nobody else around. -/
lemma safe_select {l : CredStmt} {g : CredDb B → α} {P : Except SqlError α → CredDb B → Prop}
    (herr : P (.error .database) s) (hok : P (.ok (g s)) s) :
    Safe (fun _ => True) (select l g : CredRepo B α).run P s :=
  safe_statement trivial herr fun _ => ⟨trivial, hok⟩

lemma safe_orElse {x : CredRepo B (Option α)} {err : ApiError}
    {P : Except ApiError α → CredDb B → Prop}
    (hx : Safe (fun _ => True) x.run (fun r s => ∀ a, r = .ok (some a) → P (.ok a) s) s)
    (herr : ∀ e s, P (.error e) s) : Safe (fun _ => True) (Credentials.orElse x err).run P s := by
  unfold Credentials.orElse
  rw [safe_bind_except, safe_orInternal]
  refine safe_mono (fun r s hr => ?_) hx
  rcases r with e | _ | a
  · exact herr _ s
  · exact herr _ s
  · exact hr a rfl

/-- Nobody is admitted as a user that has no session and no access token. -/
lemma safe_authAny (token : String) (hs : Unknown user s) :
    Safe (fun _ => True) (authAny X token).run
      (fun r _ => ∀ ctx, r = .ok ctx → ctx.userId ≠ user) s := by
  unfold authAny
  split
  · rw [safe_bind_except]
    refine safe_mono (fun r s hs => ?_) (safe_of_guarantees (unknown_verifyAccessToken token)
      (fun ev hpre hev => hev hpre) (fun _ _ => trivial) hs)
    cases r with
    | error e => exact fun ctx h => by cases h
    | ok verified =>
      dsimp only
      rw [safe_bind_except]
      refine safe_orElse (safe_select (fun a h => by cases h) fun owner howner => ?_)
        fun e s ctx h => by cases h
      rintro ctx ⟨⟩
      obtain ⟨r, hr, rfl⟩ := Option.map_eq_some_iff.mp (Except.ok.inj howner)
      exact hs.2 r (Table.get_mem hr)
  · rw [safe_bind_except]
    unfold authUser
    rw [safe_bind_except]
    refine safe_orElse (safe_select (fun a h => by cases h) fun session hsession => ?_)
      fun e s ctx h => by cases h
    have hne := hs.1 session (Table.get_mem (Except.ok.inj hsession))
    dsimp only
    rw [safe_bind_except]
    refine fun e => ⟨trivial, ?_⟩
    simp only [zoom_ret, safe_ret]
    split
    · exact fun ctx h => by cases h
    · rw [safe_bind_except, safe_orInternal]
      refine safe_select (fun ctx h => by cases h) ?_
      dsimp only [Except.mapError]
      split
      · exact fun ctx h => by cases h
      · rintro ctx ⟨⟩
        exact hne

end Unknown

lemma alone_canReveal_ne {project user : Ident} {db : SecretsDb B} (e : Env)
    (howner : (db.proj.projects.get project).map (·.ownerUserId) ≠ some user)
    (hgrants : ∀ r ∈ db.revealGrants.rows, r.projectId = project → r.userId ≠ user) :
    (alone e (canReveal project user).run db).1 ≠ .ok true := by
  have hsafe : Safe (fun _ => True) (canReveal project user : SecRepo B Bool).run
      (fun r _ => r ≠ .ok true) db := by
    unfold canReveal
    rw [safe_bind_except]
    refine safe_statement trivial (by simp) fun _ => ⟨trivial, ?_⟩
    have hnot : owns db.proj project user = false := by
      simpa [owns, Option.any_eq_false] using howner
    simp only [hnot]
    rw [if_neg (by simp), safe_bind_except]
    refine safe_statement trivial (by simp) fun _ => ⟨trivial, ?_⟩
    have hzero : (db.revealGrants.rows.countP fun r => r.userId = user && r.projectId = project) =
        0 := by
      rw [List.countP_eq_zero]
      intro r hr
      have := hgrants r hr
      simp only [Bool.and_eq_true, decide_eq_true_eq, not_and]
      exact fun hu hp => this hp hu
    simp [hzero]
  exact hsafe.alone

/-- A grant on a project leaves the projects as they are. -/
lemma alone_grant_projects (e : Env) (db : ProjDb) (project user grantedBy : Ident)
    (permission : ProjectPermission) (hide : Bool) (now : ℤ) :
    (alone e (grantUserProjectAccess project user permission hide grantedBy now).run db).2.projects =
      db.projects := by
  have hsafe : Safe (fun _ => True)
      (grantUserProjectAccess project user permission hide grantedBy now).run
      (fun _ s => s.projects = db.projects) db := by
    refine safe_statement trivial rfl fun e => ⟨trivial, ?_⟩
    dsimp only
    split
    · rfl
    · next hg =>
      obtain ⟨t, -, rfl⟩ := Option.map_eq_some_iff.mp hg
      split <;> rfl
  exact hsafe.alone

/-- Somebody who has no access of any kind is offboarded. -/
lemma offboarded_of_not_has {X : CredExt B} {user : Ident} {db : AccessDb B}
    (h : ∀ k, ¬Has db user k) : Offboarded X user db where
  permission e project he howner := by
    rw [ProjectVisibility.alone_effectivePermission he]
    have hnone : ¬(ProjectVisibility.permission db.secrets.proj project user).isSome := by
      rw [ProjectVisibility.isSome_permission]
      rintro (hown | ⟨r, hr, -, hg | hg⟩)
      · exact howner hown
      · exact h .grants ⟨r, hr, hg⟩
      · unfold ProjDb.toGroupOf at hg
        split at hg
        · cases hg
        · obtain ⟨m, hm⟩ := Option.isSome_iff_exists.mp hg
          exact h .groups ⟨m, Table.get_mem hm, congrArg Prod.snd (Table.get_key hm)⟩
    simpa using hnone
  bearer e token ctx hctx :=
    (safe_authAny (X := X) token ⟨fun r hr hu => h .sessions ⟨r, hr, hu⟩,
      fun r hr hu => h .tokens ⟨r, hr, hu⟩⟩).alone ctx hctx
  accounts r hr hu := h .accounts ⟨r, hr, hu⟩
  orgs r hr hu := h .orgs ⟨r, hr, hu⟩
  groups r hr hu := h .groups ⟨r, hr, hu⟩
  sharing r hr hu := h .sharing ⟨r, hr, hu⟩
  reveal e e' project grantedBy hide now howner := by
    change (alone e (canReveal project user).run (alone e' (zoom Secrets.projects
      (grantUserProjectAccess project user .canView hide grantedBy now).run) db.secrets).2).1 ≠ _
    rw [alone_zoom (fun _ _ _ => rfl) rfl]
    refine alone_canReveal_ne e ?_ fun r hr hp hu => h .reveals ⟨r, hr, hu, hp ▸ howner⟩
    exact (alone_grant_projects e' db.secrets.proj project user grantedBy .canView hide now) ▸ howner

end Vautr.Offboarding
