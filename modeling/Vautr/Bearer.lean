import Vautr.CredEffects

/-!
What stands behind an accepted bearer token.

The checks of `auth_user`, `verify_access_token` and `auth_any` are separate statements, and
the tables may change between them. What a request that was accepted has seen is therefore
said of the statements it ran.
-/

namespace Vautr.Bearer

open Vautr.Atomic Vautr.Interleave Vautr.Sql Vautr.Database Vautr.Api Vautr.Server Vautr.Auth
open Vautr.Zoom Vautr.Credentials Vautr.Tokens Vautr.CredEffects

variable {B α : Type} {X : CredExt B} {db db' : CredDb B} {tr : List (CredEv B)}

/-! ### Single statements -/

section Statements

variable {rely : CredStmt → CredDb B → CredDb B → Prop} {ok : List (CredEv B) → Prop}

lemma wp_orElse_ok {x : CredRepo B (Option α)} {err : ApiError}
    {P : α → List (CredEv B) → CredDb B → Prop}
    (h : wp (assume rely ok) x.run (Ok fun a tr db => ∀ b, a = some b → P b tr db) tr db) :
    wp (assume rely ok) (orElse x err).run (Ok P) tr db := by
  refine wp_bind_ok (wp_orInternal_ok (wp_mono (fun r tr db hr => ?_) h))
  rcases r with _ | _ | a
  · trivial
  · trivial
  · exact hr a rfl

lemma wp_getUserByEmail {email : String}
    {P : Option (UserRow B) → List (CredEv B) → CredDb B → Prop}
    (h : ∀ db' e, P (db'.auth.users.rows.find? fun r => r.email = email)
      (tr ++ [⟨.auth (.getUserByEmail email), e, db', db'⟩]) db') :
    wp (assume rely ok) (Credentials.getUserByEmail email).run (Ok P) tr db := by
  change wp (assume rely ok) (zoom login (statement (.getUserByEmail email) fun _ s =>
    (s, .ok (s.users.rows.find? fun r => r.email = email))).run) (Ok P) tr db
  exact wp_zoom_statement (fun _ => rfl) trivial (fun _ _ _ _ => trivial) fun db' e _ _ => h db' e

lemma wp_nowMs {P : ℤ → List (CredEv B) → CredDb B → Prop}
    (h : ∀ db' e, rely (.auth .clock) db db' → ok (tr ++ [⟨.auth .clock, e, db', db'⟩]) →
      P e.now (tr ++ [⟨.auth .clock, e, db', db'⟩]) db') :
    wp (assume rely ok) (Credentials.nowMs : CredHandler B ℤ).run (Ok P) tr db :=
  ⟨trivial, fun db' e hr ho => h db' e hr ho⟩

lemma wp_random {P : B → List (CredEv B) → CredDb B → Prop}
    (h : ∀ db' e, rely (.auth .random) db db' → ok (tr ++ [⟨.auth .random, e, db', db'⟩]) →
      P e.random (tr ++ [⟨.auth .random, e, db', db'⟩]) db') :
    wp (assume rely ok) (Credentials.random : CredHandler B B).run (Ok P) tr db :=
  ⟨trivial, fun db' e hr ho => h db' e hr ho⟩

lemma wp_newUuid {P : Ident → List (CredEv B) → CredDb B → Prop}
    (h : ∀ db' e, rely (.auth .random) db db' → ok (tr ++ [⟨.auth .random, e, db', db'⟩]) →
      P e.uuid (tr ++ [⟨.auth .random, e, db', db'⟩]) db') :
    wp (assume rely ok) (Credentials.newUuid : CredHandler B Ident).run (Ok P) tr db :=
  ⟨trivial, fun db' e hr ho => h db' e hr ho⟩

/-- Nothing is assumed of the other programs. -/
def anyRules : Rules (CredDb B) (AuthEnv B) CredStmt := assume (fun _ _ _ => True) fun _ => True

end Statements

/-! ### The rows of access tokens stay -/

/-- The columns of a token that no statement changes. -/
def core (r : AccessTokenRow) : AccessTokenRow :=
  { r with machineAccountUuid := none, revokedAt := none, lastUsedAt := none }

/-- The row `r'` is what became of the row `r`. -/
structure Later (r r' : AccessTokenRow) : Prop where
  core : core r' = core r
  link : r'.machineAccountUuid = none ∨ r'.machineAccountUuid = r.machineAccountUuid
  revoked : r.revokedAt.isSome → r'.revokedAt.isSome

lemma Later.refl (r : AccessTokenRow) : Later r r := ⟨rfl, .inr rfl, id⟩

lemma Later.trans {r₁ r₂ r₃ : AccessTokenRow} (h : Later r₁ r₂) (h' : Later r₂ r₃) :
    Later r₁ r₃ := by
  refine ⟨h'.core.trans h.core, ?_, fun hr => h'.revoked (h.revoked hr)⟩
  rcases h'.link with hl | hl
  · exact .inl hl
  · rw [hl]
    exact h.link

/-- What the columns that no statement changes say. -/
lemma of_core {r r' : AccessTokenRow} (h : core r' = core r) :
    r'.uuid = r.uuid ∧ r'.ownerUserId = r.ownerUserId ∧ r'.scopes = r.scopes ∧
      r'.tokenHash = r.tokenHash ∧ r'.mintedFor = r.mintedFor := by
  simp only [core, AccessTokenRow.mk.injEq] at h
  exact ⟨h.1, h.2.2.1, h.2.2.2.2.2.1, h.2.2.2.2.2.2.1, h.2.2.2.2.2.2.2.2.2.2.2.2⟩

/-- **What a statement does to accounts and tokens.** -/
lemma accounts_cases {l : CredStmt} {e : AuthEnv B} (h : CredStep X l e db db') :
    (db'.accessTokens = db.accessTokens ∧ db'.machineAccounts = db.machineAccounts) ∨
    (∃ row, db.machineAccounts.insert row = some db'.machineAccounts ∧
      db'.accessTokens = db.accessTokens) ∨
    (∃ uuid owner scopes f, ∃ hf : ∀ r, (f r).uuid = r.uuid,
      l = .updateMachineAccount uuid owner scopes ∧
      db'.machineAccounts =
        db.machineAccounts.update (fun r => r.uuid = uuid && r.ownerUserId = owner) f hf ∧
      db'.accessTokens = db.accessTokens ∧
      ∀ r, (f r).ownerUserId = r.ownerUserId ∧ (f r).scopes = scopes) ∨
    (∃ uuid owner, l = .deleteMachineAccount uuid owner ∧ db' = accountDeleted uuid owner db ∧
      ∃ ma ∈ db.machineAccounts.get uuid, ma.ownerUserId = owner) ∨
    (∃ p now, db'.machineAccounts = db.machineAccounts.update p
      (fun r => { r with lastUsedAt := some now }) (by intro r; rfl) ∧
      db'.accessTokens = db.accessTokens) ∨
    (∃ row, l = .insertToken row.ownerUserId row.mintedFor row.scopes ∧
      row.mintedFor = row.machineAccountUuid ∧ db.accessTokens.insert row = some db'.accessTokens ∧
      db'.machineAccounts = db.machineAccounts ∧
      ∀ m ∈ row.machineAccountUuid, (db.machineAccounts.get m).isSome) ∨
    ∃ p f hf hf', db'.accessTokens = db.accessTokens.update p f hf hf' ∧
      db'.machineAccounts = db.machineAccounts ∧
      ∀ r, (f r).machineAccountUuid = r.machineAccountUuid ∧ Later r (f r) := by
  cases h
  -- the accounts change
  case insertMachineAccount h => exact .inr (.inl ⟨_, h, rfl⟩)
  case updateMachineAccount =>
    refine .inr (.inr (.inl ⟨_, _, _, _, ?_, rfl, rfl, rfl, fun r => ?_⟩))
    · exact fun _ => rfl
    · exact ⟨rfl, rfl⟩
  case deleteMachineAccount hit => exact .inr (.inr (.inr (.inl ⟨_, _, rfl, rfl, hit⟩)))
  case touchMachineAccount => exact .inr (.inr (.inr (.inr (.inl ⟨_, _, rfl, rfl⟩))))
  -- the tokens change
  case insertToken hlink hnew h hma =>
    exact .inr (.inr (.inr (.inr (.inr (.inl ⟨_, rfl, hlink, h, rfl, hma⟩)))))
  case touchToken =>
    refine .inr (.inr (.inr (.inr (.inr (.inr ⟨_, _, ?_, ?_, rfl, rfl, fun r => ?_⟩)))))
    · exact fun _ => rfl
    · exact fun _ => rfl
    · exact ⟨rfl, rfl, .inr rfl, id⟩
  case revokeToken =>
    refine .inr (.inr (.inr (.inr (.inr (.inr ⟨_, _, ?_, ?_, rfl, rfl, fun r => ?_⟩)))))
    · exact fun _ => rfl
    · exact fun _ => rfl
    · exact ⟨rfl, rfl, .inr rfl, fun _ => rfl⟩
  -- statements on the columns of users, and the rest, leave both tables
  case storeReclaim => left; unfold CredDb.setCols; split <;> exact ⟨rfl, rfl⟩
  case clearReclaim => left; unfold CredDb.setCols; split <;> exact ⟨rfl, rfl⟩
  case registerTotpFailure => left; unfold CredDb.setCols; split <;> exact ⟨rfl, rfl⟩
  case clearTotpFailures => left; unfold CredDb.setCols; split <;> exact ⟨rfl, rfl⟩
  case completeRecovery => left; unfold recovered CredDb.setCols; split <;> exact ⟨rfl, rfl⟩
  all_goals exact .inl ⟨rfl, rfl⟩

/-- What a statement does to the tokens: nothing, a new row, or a later state of rows. -/
lemma accessTokens_cases {l : CredStmt} {e : AuthEnv B} (h : CredStep X l e db db') :
    db'.accessTokens = db.accessTokens ∨
    (∃ row, db.accessTokens.insert row = some db'.accessTokens ∧
      row.machineAccountUuid = row.mintedFor ∧
      l = .insertToken row.ownerUserId row.mintedFor row.scopes) ∨
    ∃ p f hf hf', db'.accessTokens = db.accessTokens.update p f hf hf' ∧ ∀ r, Later r (f r) := by
  rcases accounts_cases h with ⟨htok, -⟩ | ⟨row, -, htok⟩ | ⟨_, _, _, _, _, -, -, htok, -⟩ |
    ⟨uuid, owner, -, rfl, -⟩ | ⟨p, now, -, htok⟩ | ⟨row, hl, hlink, hins, -⟩ |
    ⟨p, f, hf, hf', htok, -, hl⟩
  · exact .inl htok
  · exact .inl htok
  · exact .inl htok
  · refine .inr (.inr ⟨_, _, ?_, ?_, rfl, fun r => ?_⟩)
    · exact fun _ => rfl
    · exact fun _ => rfl
    · exact ⟨rfl, .inl rfl, id⟩
  · exact .inl htok
  · exact .inr (.inl ⟨row, hins, hlink.symm, hl⟩)
  · exact .inr (.inr ⟨p, f, hf, hf', htok, fun r => (hl r).2⟩)

/-- The tokens of one state are those of an earlier one, later. -/
def TokensKept (db db' : CredDb B) : Prop :=
  ∀ uuid r, db.accessTokens.get uuid = some r → ∃ r', db'.accessTokens.get uuid = some r' ∧
    Later r r'

lemma TokensKept.refl (db : CredDb B) : TokensKept db db := fun _ r h => ⟨r, h, .refl r⟩

lemma TokensKept.trans {db₁ db₂ db₃ : CredDb B} (h : TokensKept db₁ db₂)
    (h' : TokensKept db₂ db₃) : TokensKept db₁ db₃ := by
  intro uuid r hr
  obtain ⟨r', hr', hl⟩ := h uuid r hr
  obtain ⟨r'', hr'', hl'⟩ := h' uuid r' hr'
  exact ⟨r'', hr'', hl.trans hl'⟩

lemma tokensKept_of_does {ev : CredEv B} (h : Does X ev) : TokensKept ev.pre ev.post := by
  intro uuid r hr
  rcases accessTokens_cases h with heq | ⟨row, hins, -⟩ | ⟨p, f, hf, hf', heq, hl⟩
  · exact ⟨r, heq ▸ hr, .refl r⟩
  · refine ⟨r, ?_, .refl r⟩
    obtain ⟨hm, hk⟩ := Table.get_eq_some_iff.mp hr
    rw [Table.get_eq_some_iff, (Table₂.insert_eq_some hins).2.2]
    exact ⟨List.mem_append_left _ hm, hk⟩
  · have : ev.post.accessTokens.get uuid = some (if p r then f r else r) := by
      rw [heq]
      exact (Table.get_update _ p f hf uuid).trans (by rw [hr]; rfl)
    refine ⟨_, this, ?_⟩
    split
    · exact hl r
    · exact .refl r

/-! ### A session token -/

/-- The statements behind an accepted session token: its row was found, was not past its
expiry, and its user was not suspended at the time that was read. -/
def Admitted (X : CredExt B) (token : String) (user : Ident) (tr : List (CredEv B)) : Prop :=
  ∃ row, row.userId = user ∧
    (∃ ev ∈ tr, ev.name = .getSession (X.hashToken token) ∧
      ev.pre.auth.sessions.get (X.hashToken token) = some row) ∧
    ∃ ev ∈ tr, ev.name = .auth .clock ∧ ev.inp.now ≤ row.expiresAt ∧
      ∃ ev' ∈ tr, ev'.pre.isSuspended user ev.inp.now = false

lemma Admitted.mono {token : String} {user : Ident} {tr tr' : List (CredEv B)}
    (h : Admitted X token user tr) (hsub : tr ⊆ tr') : Admitted X token user tr' := by
  obtain ⟨row, huser, ⟨ev, hev, hfound⟩, ev₁, hev₁, hclock, hexp, ev₂, hev₂, hnot⟩ := h
  exact ⟨row, huser, ⟨ev, hsub hev, hfound⟩, ev₁, hsub hev₁, hclock, hexp, ev₂, hsub hev₂, hnot⟩

section Rules

variable {rely : CredStmt → CredDb B → CredDb B → Prop}

lemma wp_authUser (token : String) :
    wp (assume rely fun _ => True) (authUser X token).run
      (Ok fun user tr _ => Admitted X token user tr) tr db := by
  refine wp_bind_ok (wp_orElse_ok (wp_select_ok fun db₁ e₁ _ _ _ row hrow => ?_))
  refine wp_bind_ok (wp_nowMs fun db₂ e₂ _ _ => ?_)
  split
  · exact wp_throw_ok _
  · next hexp =>
    refine wp_bind_ok (wp_orInternal_ok (wp_select_ok fun db₃ e₃ _ _ _ => ?_))
    split
    · exact wp_throw_ok _
    · next hsus =>
      exact ⟨row, rfl, ⟨⟨_, e₁, db₁, db₁⟩, by simp, rfl, hrow⟩, ⟨.auth .clock, e₂, db₂, db₂⟩, by simp, rfl,
        not_lt.mp hexp, ⟨_, e₃, db₃, db₃⟩, List.mem_append_right _ (List.mem_singleton_self _),
        by simpa using hsus⟩

end Rules

/-! ### An access token -/

/-- The statements behind an accepted access token: its row was found, unrevoked and not
expired at the time that was read before, and so was the machine account it is linked to. -/
structure Verified (X : CredExt B) (token : String) (row : AccessTokenRow)
    (tr : List (CredEv B)) : Prop where
  unrevoked : row.revokedAt = none
  checked : ∃ tr₁ ev tr₂, ∃ clock ∈ tr₁, tr = tr₁ ++ ev :: tr₂ ∧
    ev.name = .getTokenByHash (X.tokenHash token) ∧
    ev.pre.accessTokens.by'.get (X.tokenHash token) = some row ∧
    clock.name = .auth .clock ∧ expiredAt row.expiresAt clock.inp.now = false ∧
    ∀ m ∈ row.machineAccountUuid, ∃ ev' ∈ tr, ∃ ma ∈ ev'.pre.machineAccounts.get m,
      ma.status = .active ∧ expiredAt ma.expiresAt clock.inp.now = false

/-- What `verify_access_token` returns for a row. -/
def verifiedOf (row : AccessTokenRow) : VerifiedToken :=
  ⟨row.uuid, row.machineAccountUuid, row.projectUuid, row.scopes, row.expiresAt⟩

/-- The token was checked, and its row is still there. -/
def Stays (X : CredExt B) (token : String) (row : AccessTokenRow) (tr : List (CredEv B))
    (db : CredDb B) : Prop :=
  Verified X token row tr ∧ ∃ r, db.accessTokens.get row.uuid = some r ∧ Later row r

variable {token : String} {row : AccessTokenRow}

lemma Verified.append (h : Verified X token row tr) (ev : CredEv B) :
    Verified X token row (tr ++ [ev]) := by
  obtain ⟨hrev, tr₁, ev₁, tr₂, clock, hclock, rfl, hname, hrow, hcl, hexp, hma⟩ := h
  refine ⟨hrev, tr₁, ev₁, tr₂ ++ [ev], clock, hclock, by simp, hname, hrow, hcl, hexp, ?_⟩
  intro m hm
  obtain ⟨ev', hev', hma'⟩ := hma m hm
  exact ⟨ev', List.mem_append_left _ hev', hma'⟩

/-- The clock was read before. -/
lemma Verified.clock (h : Verified X token row tr) : ∃ ev ∈ tr, ev.name = .auth .clock := by
  obtain ⟨-, tr₁, ev₁, tr₂, clock, hclock, rfl, -, -, hcl, -⟩ := h
  exact ⟨clock, List.mem_append_left _ hclock, hcl⟩

lemma Stays.kept (h : Stays X token row tr db) (hk : TokensKept db db') :
    Stays X token row tr db' := by
  obtain ⟨hv, r, hr, hl⟩ := h
  obtain ⟨r', hr', hl'⟩ := hk _ r hr
  exact ⟨hv, r', hr', hl.trans hl'⟩

/-- The others keep the rows of access tokens. -/
def others : Rules (CredDb B) (AuthEnv B) CredStmt := assume (fun _ => TokensKept) fun _ => True

/-- Once the token is checked, whatever the request still runs leaves its row there. -/
lemma wp_stays {p : Prog (CredDb B) (AuthEnv B) CredStmt α}
    {Q : α → List (CredEv B) → CredDb B → Prop} (hp : Guarantees (fun _ _ _ => True) (Does X) p)
    (hQ : ∀ a tr db, Stays X token row tr db → Q a tr db) (h : Stays X token row tr db) :
    wp others p Q tr db :=
  wp_of_guarantees (J := Stays X token row) hp (fun _ _ _ _ => trivial) (fun _ _ _ => trivial)
    (fun _ _ _ _ h hk => h.kept hk)
    (fun _ ev h hev => ⟨(h.kept (tokensKept_of_does hev)).1.append ev,
      (h.kept (tokensKept_of_does hev)).2⟩) hQ h

lemma wp_requireMachineAccount (row : AccessTokenRow) (now : ℤ) :
    wp others (requireMachineAccount row now).run (Ok fun _ tr' db' =>
      (∃ tr₂, tr' = tr ++ tr₂) ∧ TokensKept db db' ∧
        ∀ m ∈ row.machineAccountUuid, ∃ ev ∈ tr', ∃ ma ∈ ev.pre.machineAccounts.get m,
          ma.status = .active ∧ expiredAt ma.expiresAt now = false) tr db := by
  unfold requireMachineAccount
  split
  · next hnone =>
    exact ⟨⟨[], by simp⟩, .refl db, by simp [hnone]⟩
  · next uuid hsome =>
    refine wp_bind_ok (wp_orElse_ok (wp_select_ok fun db₁ e₁ _ hr _ ma hma => ?_))
    obtain ⟨hma, howner⟩ := Option.filter_eq_some_iff.mp hma
    split
    · exact wp_throw_ok _
    next hactive =>
    split
    · exact wp_throw_ok _
    next hexp =>
    refine ⟨⟨_, rfl⟩, hr, fun m hm => ?_⟩
    rw [hsome, Option.mem_some] at hm
    subst hm
    exact ⟨⟨_, e₁, db₁, db₁⟩, List.mem_append_right _ (List.mem_singleton_self _), ma, hma,
      not_not.mp hactive, by simpa using hexp⟩

lemma wp_verifyAccessToken (token : String) :
    wp others (verifyAccessToken X token).run (Ok fun v tr db => ∃ row, v = verifiedOf row ∧
      Stays X token row tr db) tr db := by
  refine wp_bind_ok (wp_nowMs fun db₁ e₁ _ _ => ?_)
  refine wp_bind_ok (wp_orElse_ok (wp_select_ok fun db₂ e₂ _ _ _ row hrow => ?_))
  split
  · exact wp_throw_ok _
  next hrev =>
  split
  · exact wp_throw_ok _
  next hexp =>
  refine wp_bind_ok (wp_mono ?_ (wp_requireMachineAccount row e₁.now))
  rintro (_ | _) tr' db₃ h
  · trivial
  obtain ⟨⟨tr₂, rfl⟩, hk, hma⟩ := h
  have hget : db₂.accessTokens.get row.uuid = some row :=
    Table.get_of_mem (Table.get_mem (t := db₂.accessTokens.by') hrow)
  have hstays : Stays X token row (tr ++ [⟨.auth .clock, e₁, db₁, db₁⟩] ++
      [⟨.getTokenByHash (X.tokenHash token), e₂, db₂, db₂⟩] ++ tr₂) db₃ := by
    refine Stays.kept ⟨⟨by simpa using hrev, _, _, tr₂, ⟨.auth .clock, e₁, db₁, db₁⟩, ?_,
      List.append_assoc _ _ _, rfl, hrow, rfl, by simpa using hexp, hma⟩, row, hget, .refl row⟩ hk
    exact List.mem_append_right _ (List.mem_singleton_self _)
  refine wp_bind_ok (wp_stays (guarantees_ignored (does_statement
    fun e db => .touchToken row.uuid e₁.now e db)) ?_ hstays)
  rintro (_ | _) tr db h
  · trivial
  refine wp_bind_ok (wp_stays (does_touchAccountOf _ _) ?_ h)
  rintro (_ | _) tr db h
  · trivial
  exact ⟨row, rfl, h⟩

/-! ### Either -/

/-- What stands behind an accepted bearer token. -/
def Accepted (X : CredExt B) (token : String) (ctx : AuthContext) (tr : List (CredEv B)) : Prop :=
  match ctx.token with
  | none => Admitted X token ctx.userId tr
  | some v => ∃ row tr₁ ev, v = verifiedOf row ∧ row.ownerUserId = ctx.userId ∧ tr = tr₁ ++ [ev] ∧
    Verified X token row tr₁ ∧ ev.name = .getTokenOwner row.uuid ∧
    ∃ r, ev.pre.accessTokens.get row.uuid = some r ∧ r.ownerUserId = ctx.userId

lemma wp_authAny (token : String) :
    wp others (authAny X token).run (Ok fun ctx tr _ => Accepted X token ctx tr) tr db := by
  unfold authAny
  split
  · refine wp_bind_ok (wp_mono ?_ (wp_verifyAccessToken token))
    rintro (_ | v) tr db₁ h
    · trivial
    obtain ⟨row, rfl, h⟩ := h
    refine wp_bind_ok (wp_orElse_ok (wp_select_ok fun db₂ e₂ _ hk _ owner howner => ?_))
    obtain ⟨hv, r, hr, hl⟩ := h.kept hk
    obtain ⟨r', hr', rfl⟩ := Option.map_eq_some_iff.mp howner
    have hrr : r' = r := Option.some.inj (hr'.symm.trans hr)
    exact ⟨row, _, _, rfl, by rw [hrr, (of_core hl.core).2.1], rfl, hv, rfl, r', hr', rfl⟩
  · refine wp_bind_ok (wp_mono ?_ (wp_authUser token))
    rintro (_ | user) tr db₁ h
    · trivial
    exact h

/-! ### A created token -/

/-- The row that a `create_token` has stored for the user behind its bearer token, of a
secret that is the text of random bytes. -/
structure Minted (X : CredExt B) (bearer : String) (req : TokenCreateReq) (resp : TokenCreateResp)
    (row : AccessTokenRow) (tr : List (CredEv B)) : Prop where
  creator : Admitted X bearer row.ownerUserId tr
  secret : ∃ ev ∈ tr, ev.name = .auth .random ∧ resp.token = X.b64url ev.inp.random
  uuid : row.uuid = resp.tokenId
  tokenHash : row.tokenHash = X.tokenHash resp.token
  scopes : row.scopes = req.scopes
  expiresAt : row.expiresAt = resp.expiresAt
  fresh : ∃ ev ∈ tr, ev.pre.accessTokens.get row.uuid = none

lemma Minted.mono {bearer : String} {req : TokenCreateReq} {resp : TokenCreateResp}
    {tr tr' : List (CredEv B)} (h : Minted X bearer req resp row tr) (hsub : tr ⊆ tr') :
    Minted X bearer req resp row tr' := by
  obtain ⟨hcr, ⟨ev, hev, hrand⟩, hu, hh, hs, he, ev', hev', hnew⟩ := h
  exact ⟨hcr.mono hsub, ⟨ev, hsub hev, hrand⟩, hu, hh, hs, he, ev', hsub hev', hnew⟩

/-- What a statement of the request leaves of what is known of those before. -/
lemma wp_known {p : Prog (CredDb B) (AuthEnv B) CredStmt α} {P : List (CredEv B) → Prop}
    {Q : α → List (CredEv B) → CredDb B → Prop} (hp : Guarantees (fun _ _ _ => True) (Does X) p)
    (hP : ∀ tr ev, P tr → P (tr ++ [ev])) (hQ : ∀ a tr db, P tr → Q a tr db) (h : P tr) :
    wp others p Q tr db :=
  wp_of_guarantees (J := fun tr _ => P tr) hp (fun _ _ _ _ => trivial) (fun _ _ _ => trivial)
    (fun _ _ _ _ h _ => h) (fun tr ev h _ => hP tr ev h) hQ h

lemma wp_createAccessToken {row : AccessTokenRow} {P : Unit → List (CredEv B) → CredDb B → Prop}
    (h : ∀ ev : CredEv B, ev.pre.accessTokens.get row.uuid = none →
      ev.post.accessTokens.get row.uuid = some row → P () (tr ++ [ev]) ev.post) :
    wp others (createAccessToken row : CredRepo B Unit).run (Ok P) tr db := by
  refine wp_statement_ok fun db₁ e₁ u _ _ _ hrun => ?_
  cases hins : db₁.accessTokens.insert row with
  | none => simp [hins] at hrun
  | some accessTokens =>
    simp only [hins] at hrun ⊢
    split at hrun
    · next hfk =>
      rw [if_pos hfk]
      refine h ⟨_, e₁, db₁, _⟩ (Table₂.insert_eq_some hins).1 (Table.get_of_mem ?_)
      rw [(Table₂.insert_eq_some hins).2.2]
      exact List.mem_append_right _ (List.mem_singleton_self _)
    · cases hrun

lemma wp_createToken (bearer : String) (req : TokenCreateReq) :
    wp others (createToken X bearer req).run (Ok fun resp tr db => ∃ row,
      Minted X bearer req resp row tr ∧
        ∃ r, db.accessTokens.get row.uuid = some r ∧ Later row r) tr db := by
  refine wp_bind_ok (wp_mono ?_ (wp_authUser bearer))
  rintro (_ | user) tr db h
  · trivial
  have hstep : ∀ (tr : List (CredEv B)) (ev : CredEv B), Admitted X bearer user tr →
      Admitted X bearer user (tr ++ [ev]) := fun tr ev h => h.mono (List.subset_append_left _ _)
  refine wp_bind_ok (wp_known (does_validateCreate req) hstep ?_ h)
  rintro (_ | _) tr db h
  · trivial
  refine wp_bind_ok (wp_known (does_requireAllowed (X := X) user req) hstep ?_ h)
  rintro (_ | _) tr db h
  · trivial
  refine wp_bind_ok (wp_known (does_requireProject (X := X) user req) hstep ?_ h)
  rintro (_ | _) tr db h
  · trivial
  refine wp_bind_ok (wp_newUuid fun db₁ e₁ _ _ => wp_bind_ok (wp_nowMs fun db₂ e₂ _ _ =>
    wp_bind_ok (wp_random fun db₃ e₃ _ _ => ?_)))
  refine wp_bind_ok (wp_orInternal_ok (wp_createAccessToken fun ev hnew hget => ?_))
  have hminted : Minted X bearer req ⟨X.b64url e₃.random, e₁.uuid, effectiveExpiry X req.expiresAt
      e₂.now⟩ ⟨e₁.uuid, X.trim req.name, user, req.machineAccountUuid, req.projectUuid, req.scopes,
      X.tokenHash (X.b64url e₃.random), String.ofList ((X.b64url e₃.random).toList.take 8),
      effectiveExpiry X req.expiresAt e₂.now, none, none, e₂.now, req.machineAccountUuid⟩
      (tr ++ [⟨.auth .random, e₁, db₁, db₁⟩] ++ [⟨.auth .clock, e₂, db₂, db₂⟩] ++
        [⟨.auth .random, e₃, db₃, db₃⟩] ++ [ev]) :=
    ⟨h.mono (by simp), ⟨⟨.auth .random, e₃, db₃, db₃⟩, by simp, rfl, rfl⟩, rfl, rfl, rfl, rfl,
      ev, by simp, hnew⟩
  refine wp_bind_ok (wp_of_guarantees (J := fun tr db => Minted X bearer req _ _ tr ∧
    ∃ r, db.accessTokens.get e₁.uuid = some r ∧ Later _ r) (guarantees_orInternal (does_audit (X := X)))
    (fun _ _ _ _ => trivial) (fun _ _ _ => trivial) ?_ ?_ ?_ ⟨hminted, _, hget, .refl _⟩)
  · rintro tr l db db' ⟨hm, r, hr, hl⟩ hk
    obtain ⟨r', hr', hl'⟩ := hk _ r hr
    exact ⟨hm, r', hr', hl.trans hl'⟩
  · rintro tr ev ⟨hm, r, hr, hl⟩ hev
    obtain ⟨r', hr', hl'⟩ := tokensKept_of_does hev _ r hr
    exact ⟨hm.mono (List.subset_append_left _ _), r', hr', hl.trans hl'⟩
  · rintro (_ | _) tr db h
    · trivial
    exact ⟨_, h⟩

/-! ### Every run -/

/-- What stands behind the answer to a request. -/
def Post (X : CredExt B) : CredReq B → CredReply B → List (CredEv B) → CredDb B → Prop
  | .authUser bearer, .authUser (.ok user), tr, _ => Admitted X bearer user tr
  | .authAny bearer, .authAny (.ok ctx), tr, _ => Accepted X bearer ctx tr
  | .verify secret, .verify (.ok v), tr, _ => ∃ row, v = verifiedOf row ∧ Verified X secret row tr
  | .createToken bearer req, .createToken (.ok resp), tr, db => ∃ row,
    Minted X bearer req resp row tr ∧ ∃ r, db.accessTokens.get row.uuid = some r ∧ Later row r
  | _, _, _, _ => True

lemma wp_code [DecidableEq B] (q : CredReq B) : wp others (code X q) (Post X q) tr db := by
  cases q with
  | authUser bearer =>
    refine (wp_bind _ _ _ _ _).mpr (wp_mono ?_ (wp_authUser bearer))
    rintro (_ | _) _ _ h <;> exact h
  | authAny bearer =>
    refine (wp_bind _ _ _ _ _).mpr (wp_mono ?_ (wp_authAny bearer))
    rintro (_ | _) _ _ h <;> exact h
  | verify secret =>
    refine (wp_bind _ _ _ _ _).mpr (wp_mono ?_ (wp_verifyAccessToken secret))
    rintro (_ | v) _ _ h
    · exact h
    · obtain ⟨row, rfl, hv, -⟩ := h
      exact ⟨row, rfl, hv⟩
  | createToken bearer req =>
    refine (wp_bind _ _ _ _ _).mpr (wp_mono ?_ (wp_createToken bearer req))
    rintro (_ | _) _ _ h <;> exact h
  | _ => exact wp_trivial (fun _ => trivial) (fun _ _ _ => trivial) _ _ _

lemma post_kept {q : CredReq B} {a : CredReply B} (hk : TokensKept db db')
    (h : Post X q a tr db) : Post X q a tr db' := by
  unfold Post at h ⊢
  split at h
  · exact h
  · exact h
  · exact h
  · obtain ⟨row, hm, r, hr, hl⟩ := h
    obtain ⟨r', hr', hl'⟩ := hk _ r hr
    exact ⟨row, hm, r', hr', hl.trans hl'⟩
  · exact trivial

/-- **Nothing is accepted unchecked.** In every interleaving, what a request was answered
with has its reasons in the statements that it ran. -/
theorem held_run [DecidableEq B] (db : CredDb B) (as : List (CredAct B)) :
    Held (fun _ => others) (Post X) (run (code X) (init db) as) :=
  (run_held (I := fun _ => True) (C := fun _ _ => True) (does_code (X := X))
    (fun _ _ _ _ _ _ _ _ _ _ _ _ => trivial) (fun q _ _ => wp_code q)
    (fun _ _ db => TokensKept.refl db) (fun _ _ _ _ _ h h' => h.trans h')
    (fun _ _ _ hev _ _ => tokensKept_of_does hev)
    (fun _ _ _ _ hev _ h => post_kept (tokensKept_of_does hev) h)
    (fun _ _ _ _ _ _ _ _ _ _ _ => trivial) trivial (along_true as _)).2

/-- The reasons for the answer to a finished request. -/
lemma post_of_run [DecidableEq B] {db : CredDb B} {as : List (CredAct B)}
    {c : Call (CredReq B) (CredDb B) (AuthEnv B) CredStmt (CredReply B)} {a : CredReply B}
    (hc : c ∈ (run (code X) (init db) as).calls) (ha : c.prog.result = some a) :
    Post X c.req a c.trace (run (code X) (init db) as).shared := by
  obtain ⟨i, hi⟩ := List.mem_iff_getElem?.mp hc
  have := held_run db as i c hi
  rwa [Prog.result_eq_some ha] at this

/-! ### Bytes -/

/-- A character of the URL-safe base64 alphabet. -/
def sextet (n : ℕ) : Char :=
  "ABCDEFGHIJKLMNOPQRSTUVWXYZabcdefghijklmnopqrstuvwxyz0123456789-_".toList.getD n 'A'

/-- `URL_SAFE_NO_PAD`, of a list of bytes. -/
def base64url : List ℕ → List Char
  | [] => []
  | [a] => [sextet (a / 4), sextet (a % 4 * 16)]
  | [a, b] => [sextet (a / 4), sextet (a % 4 * 16 + b / 16), sextet (b % 16 * 4)]
  | a :: b :: c :: l =>
    [sextet (a / 4), sextet (a % 4 * 16 + b / 16), sextet (b % 16 * 4 + c / 64),
      sextet (c % 64)] ++ base64url l

/-- Messages are lists of bytes, hashes are the texts themselves, the key of a login is what
the server stored and what was uploaded, and a signature is the key and the nonce. -/
def bytes : CredExt (List ℕ) where
  setupFromBytes _ := true
  generateServerSetup := .ok
  serverRegisterStart _ creq _ := .ok creq
  serverRegisterFinish := .ok
  serverLoginStart r _ _ _ _ := .ok ([], r)
  serverLoginFinish state upload := .ok (state ++ upload)
  len := List.length
  allZero l := l.all (· = 0)
  simple n := String.ofList (base64url [n])
  sha256Hex := id
  hashSessionToken l := String.ofList (base64url l)
  setupFile := some (some [])
  prod := false
  allowDb := false
  b64 l := String.ofList (base64url l)
  b64url l := String.ofList (base64url l)
  hashToken := id
  tokenHash := id
  recoveryCodeHash := id
  hyphenated n := String.ofList (base64url [n])
  trim := id
  verifyingKey _ := true
  verifyStrict key nonce sig := sig = key ++ nonce
  totpVerifier _ := .ok ()
  totpGenerate secret t := String.ofList (base64url (secret ++ [t.toNat]))
  allowNonExpiring := false
  maxTokenLifetimeDays := none

/-- 32 bytes whose text starts with "vtr-ak-". -/
def luckyBytes : List ℕ := [190, 218, 254, 106, 79] ++ List.replicate 27 128

/-- A user with a recovery key and a session, and nothing else. -/
def oneUser : CredDb (List ℕ) where
  auth := ⟨⟨[⟨1, "alice", [], [], [], [], 1, 0, 0⟩], by decide⟩, .empty,
    ⟨[⟨"session", 1, 1000, 0⟩], by decide⟩, .empty, none, [], [], .empty⟩
  cols := ⟨[⟨1, some (List.replicate 32 7), none, none, 0, 0⟩], by decide⟩
  machineAccounts := .empty
  accessTokens := .empty
  challenges := .empty
  stored := 0
  recoverySessions := .empty
  totpSecrets := .empty
  usedSteps := .empty
  recoveryCodes := .empty

/-- The request `q`, and `n` statements of it, as the `i`-th call. -/
def serving (i : ℕ) (q : CredReq (List ℕ)) (n : ℕ) (e : AuthEnv (List ℕ)) :
    List (CredAct (List ℕ)) :=
  .call q :: List.replicate n (.exec i e)

/-- A user creates an access token of the bytes `secret` and presents it. -/
def creating (secret : List ℕ) : List (CredAct (List ℕ)) :=
  serving 0 (.createToken "session" ⟨"ci", none, none, ["secrets:read"], none⟩) 8
    ⟨1, 5, secret, false⟩ ++
  serving 1 (.authAny (String.ofList (base64url secret))) 4 ⟨1, 5, secret, false⟩

end Vautr.Bearer
