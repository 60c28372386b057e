import Vautr.Bearer

/-!
The form of access tokens. `auth_any` takes a bearer token for an access token if it starts
with "vtr-ak-"; `generate_token` makes the plain base64 text of 32 random bytes. Whether a
created token can be used is therefore a matter of chance.
-/

namespace Vautr.TokenFormat

open Vautr.Atomic Vautr.Interleave Vautr.Sql Vautr.Database Vautr.Api Vautr.Server Vautr.Auth
open Vautr.Credentials Vautr.Tokens Vautr.CredEffects Vautr.Bearer

variable {B : Type} {X : CredExt B} {db : CredDb B} {tr : List (CredEv B)} {token hash : String}
  {uuid : Ident}

/-- The token is there, it is neither revoked nor expired, and the machine account that it was
made for, if there is one, is active and not expired. -/
def Live (uuid : Ident) (now : ℤ) (db : CredDb B) : Prop :=
  ∃ row ∈ db.accessTokens.get uuid, row.revokedAt = none ∧ expiredAt row.expiresAt now = false ∧
    ∀ m ∈ row.mintedFor, ∃ ma ∈ db.machineAccounts.get m,
      ma.ownerUserId = row.ownerUserId ∧ ma.status = .active ∧ expiredAt ma.expiresAt now = false

/-- No statement fails, and the token is live in every state they find, at every time they
read. -/
def AllLive (uuid : Ident) (tr : List (CredEv B)) : Prop :=
  (∀ ev ∈ tr, ev.inp.fault = false) ∧
  ∀ clock ∈ tr, clock.name = .auth .clock → ∀ ev ∈ tr, Live uuid clock.inp.now ev.pre

instance (uuid : Ident) (now : ℤ) (db : CredDb B) : Decidable (Live uuid now db) :=
  inferInstanceAs (Decidable (∃ row ∈ db.accessTokens.get uuid, _ ∧ _ ∧ ∀ m ∈ _, ∃ ma ∈ _, _))

instance (uuid : Ident) (tr : List (CredEv B)) : Decidable (AllLive uuid tr) :=
  inferInstanceAs (Decidable ((∀ ev ∈ tr, _) ∧ ∀ clock ∈ tr, _ → ∀ ev ∈ tr, _))

/-- The rows with the number `uuid` that the statements find agree with `row` in what no
statement changes, and refer to no other machine account. -/
def AllRows (uuid : Ident) (row : AccessTokenRow) (tr : List (CredEv B)) : Prop :=
  ∀ ev ∈ tr, ∀ r ∈ ev.pre.accessTokens.get uuid, core r = core row ∧
    (r.machineAccountUuid = none ∨ r.machineAccountUuid = r.mintedFor)

/-! ### A live token is verified -/

/-- What a statement finds in place of a live token. -/
lemma found_of_live {row : AccessTokenRow} {clock ev : CredEv B} (hl : AllLive uuid tr)
    (hr : AllRows uuid row tr) (hclock : clock ∈ tr) (hname : clock.name = .auth .clock)
    (hev : ev ∈ tr) : ∃ r, ev.pre.accessTokens.get uuid = some r ∧
      ev.pre.accessTokens.by'.get row.tokenHash = some r ∧ core r = core row ∧
      r.revokedAt = none ∧ expiredAt r.expiresAt clock.inp.now = false ∧
      (r.machineAccountUuid = none ∨ r.machineAccountUuid = row.mintedFor) ∧
      ∀ m ∈ row.mintedFor, ∃ ma ∈ ev.pre.machineAccounts.get m,
        ma.ownerUserId = row.ownerUserId ∧ ma.status = .active ∧
          expiredAt ma.expiresAt clock.inp.now = false := by
  obtain ⟨r, hget, hrev, hexp, hma⟩ := hl.2 clock hclock hname ev hev
  obtain ⟨hcore, hlink⟩ := hr ev hev r hget
  obtain ⟨-, hown, -, hhash, hmint⟩ := of_core hcore
  rw [hmint] at hlink hma
  rw [hown] at hma
  refine ⟨r, hget, ?_, hcore, hrev, hexp, hlink, hma⟩
  have hmem : r ∈ ev.pre.accessTokens.rows := Table.get_mem hget
  rw [← hhash]
  exact Table.get_of_mem (t := ev.pre.accessTokens.by') hmem

/-- The program ends in `P`, if the token is live all the time. -/
def WhenLive (uuid : Ident) (row : AccessTokenRow) {α : Type} (P : α → List (CredEv B) → Prop)
    (a : α) (tr : List (CredEv B)) (_ : CredDb B) : Prop :=
  AllLive uuid tr → AllRows uuid row tr → P a tr

variable {row : AccessTokenRow} {α β : Type}

lemma AllLive.left {tr' : List (CredEv B)} (h : AllLive uuid (tr ++ tr')) : AllLive uuid tr :=
  ⟨fun ev hev => h.1 ev (List.mem_append_left _ hev), fun clock hc hn ev hev =>
    h.2 clock (List.mem_append_left _ hc) hn ev (List.mem_append_left _ hev)⟩

lemma AllRows.left {tr' : List (CredEv B)} (h : AllRows uuid row (tr ++ tr')) :
    AllRows uuid row tr := fun ev hev => h ev (List.mem_append_left _ hev)

/-- At every point the token may be taken to have been live so far. -/
lemma wp_live {P : α → List (CredEv B) → Prop} {p : Prog (CredDb B) (AuthEnv B) CredStmt α}
    (h : AllLive uuid tr → AllRows uuid row tr → wp anyRules p (WhenLive uuid row P) tr db) :
    wp anyRules p (WhenLive uuid row P) tr db := by
  induction p generalizing tr db with
  | ret a => exact fun hl hr => h hl hr hl hr
  | stmt l f k ih =>
    exact ⟨trivial, fun db' e hr ho => ih e db' fun hl hr' => (h hl.left hr'.left).2 db' e hr ho⟩

/-- A lookup that finds something as long as the token is live, and what follows. -/
lemma wp_lookup {l : CredStmt} {g : CredDb B → Option α} {err : ApiError} {f : α → CredHandler B β}
    {P : Except ApiError β → List (CredEv B) → Prop}
    (h : ∀ ev : CredEv B, ev ∈ tr ++ [ev] → AllLive uuid (tr ++ [ev]) →
      AllRows uuid row (tr ++ [ev]) → ∃ a, g ev.pre = some a ∧
        wp anyRules (f a).run (WhenLive uuid row P) (tr ++ [ev]) ev.pre) :
    wp anyRules (orElse (select l g) err >>= f).run (WhenLive uuid row P) tr db := by
  unfold orElse
  rw [wp_bind_except, wp_bind_except, wp_orInternal]
  refine wp_statement_cases trivial (fun db' e hf _ _ hl => ?_) fun db' e _ _ _ => ?_
  · have := hl.1 ⟨l, e, db', db'⟩ (by simp)
    rw [show e.fault = true from hf] at this
    cases this
  · have hev : (⟨l, e, db', db'⟩ : CredEv B) ∈ tr ++ [⟨l, e, db', db'⟩] := by simp
    cases hg : g db' with
    | none =>
      intro hl hr
      obtain ⟨a, ha, -⟩ := h ⟨l, e, db', db'⟩ hev hl hr
      rw [show g db' = some a from ha] at hg
      cases hg
    | some a =>
      refine wp_live fun hl hr => ?_
      obtain ⟨a', ha, hwp⟩ := h ⟨l, e, db', db'⟩ hev hl hr
      rw [show g db' = some a' from ha, Option.some.injEq] at hg
      exact hg ▸ hwp

/-- The clock, and what follows. -/
lemma wp_clock {f : ℤ → CredHandler B β} {P : Except ApiError β → List (CredEv B) → Prop}
    (h : ∀ clock : CredEv B, clock.name = .auth .clock →
      wp anyRules (f clock.inp.now).run (WhenLive uuid row P) (tr ++ [clock]) clock.pre) :
    wp anyRules (Credentials.nowMs >>= f).run (WhenLive uuid row P) tr db := by
  rw [wp_bind_except]
  exact ⟨trivial, fun db' e _ _ => h ⟨.auth .clock, e, db', db'⟩ rfl⟩

/-- A write whose result is ignored, and what follows. -/
lemma wp_touch {l : CredStmt} {g : AuthEnv B → CredDb B → CredDb B × Except SqlError α}
    {f : Unit → CredHandler B β} {P : Except ApiError β → List (CredEv B) → Prop}
    (h : ∀ ev db', wp anyRules (f ()).run (WhenLive uuid row P) (tr ++ [ev]) db') :
    wp anyRules (ignored (statement l g) >>= f).run (WhenLive uuid row P) tr db := by
  rw [wp_bind_except, wp_ignored]
  exact wp_statement trivial (fun _ _ _ _ => h _ _) fun _ _ _ _ => h _ _

lemma wp_requireMachineAccount_live {r : AccessTokenRow} {f : Unit → CredHandler B β}
    {P : Except ApiError β → List (CredEv B) → Prop} {clock : CredEv B} (hclock : clock ∈ tr)
    (hname : clock.name = .auth .clock) (hcore : core r = core row)
    (hlink : r.machineAccountUuid = none ∨ r.machineAccountUuid = row.mintedFor)
    (h : ∀ tr' db', wp anyRules (f ()).run (WhenLive uuid row P) (tr ++ tr') db') :
    wp anyRules (requireMachineAccount r clock.inp.now >>= f).run (WhenLive uuid row P) tr db := by
  unfold requireMachineAccount
  split
  · simpa using h [] db
  · next m hm =>
    have hmint : row.mintedFor = some m := by
      rcases hlink with hlink | hlink
      · rw [hm] at hlink
        cases hlink
      · rw [← hlink, hm]
    have hown := (of_core hcore).2.1
    rw [bind_assoc]
    refine wp_lookup fun ev hev hl hr => ?_
    obtain ⟨-, -, -, -, -, -, -, hma⟩ :=
      found_of_live hl hr (List.mem_append_left _ hclock) hname hev
    obtain ⟨ma, hget, howner, hactive, hexp⟩ := hma m hmint
    refine ⟨ma, ?_, ?_⟩
    · rw [Option.mem_def.mp hget, hown]
      simp [howner]
    · rw [if_neg (not_not.mpr hactive), if_neg (by simp [hexp]), pure_bind]
      exact h _ _

/-- **A live token is verified**: as long as the token is live, its secret is accepted. -/
lemma wp_verify_live (uuid : Ident) (hhash : row.tokenHash = X.tokenHash token) :
    wp anyRules (verifyAccessToken X token).run (WhenLive uuid row fun r tr =>
      (∃ clock ∈ tr, clock.name = .auth .clock) ∧
        ∃ r', core r' = core row ∧ r = .ok (verifiedOf r')) tr db := by
  refine wp_clock fun clock hname => wp_lookup fun ev hev hl hr => ?_
  have hclock : clock ∈ tr ++ [clock] ++ [ev] := by simp
  obtain ⟨r, -, hget, hcore, hrev, hexp, hlink, -⟩ := found_of_live hl hr hclock hname hev
  refine ⟨r, hhash ▸ hget, ?_⟩
  rw [if_neg (by simp [hrev]), if_neg (by simp [hexp])]
  refine wp_requireMachineAccount_live hclock hname hcore hlink fun tr' db' => wp_touch fun _ _ => ?_
  unfold touchAccountOf
  split
  · exact wp_touch fun _ _ _ _ => ⟨⟨clock, by simp, hname⟩, r, hcore, rfl⟩
  · exact fun _ _ => ⟨⟨clock, by simp, hname⟩, r, hcore, rfl⟩

/-- The secret of a live token is accepted as a bearer token, if it looks like one. -/
lemma wp_authAny_live (htok : isAccessToken token = true) (hhash : row.tokenHash = X.tokenHash token)
    (huuid : row.uuid = uuid) :
    wp anyRules (authAny X token).run (WhenLive uuid row fun r _ =>
      ∃ r', core r' = core row ∧ r = .ok ⟨row.ownerUserId, some (verifiedOf r')⟩) tr db := by
  unfold authAny
  rw [if_pos htok, wp_bind_except]
  refine wp_mono (fun r tr db h => ?_) (wp_verify_live uuid hhash)
  cases r with
  | error e =>
    intro hl hr
    obtain ⟨-, r', -, hr'⟩ := h hl hr
    cases hr'
  | ok v =>
    refine wp_live fun hl hr => ?_
    obtain ⟨⟨clock, hclock, hname⟩, r', hcore, hv⟩ := h hl hr
    cases hv
    refine wp_lookup fun ev hev hl hr => ?_
    obtain ⟨r'', hget, -, hcore', -⟩ :=
      found_of_live hl hr (List.mem_append_left _ hclock) hname hev
    have huuid' : (verifiedOf r').tokenId = uuid := (of_core hcore).1.trans huuid
    have hown := (of_core hcore').2.1
    refine ⟨row.ownerUserId, ?_, fun _ _ => ⟨r', hcore, rfl⟩⟩
    rw [huuid', hget, Option.map_some, hown]

/-- Any other bearer token is never accepted as an access token. -/
lemma wp_authAny_plain (htok : isAccessToken token = false) :
    wp anyRules (authAny X token).run (fun r _ _ => ∀ ctx, r = .ok ctx → ctx.token = none) tr db := by
  unfold authAny
  rw [if_neg (by simp [htok]), wp_bind_except]
  refine wp_trivial (fun _ => trivial) (fun r tr db => ?_) _ _ _
  cases r with
  | ok user =>
    rintro ctx hctx
    cases hctx
    rfl
  | error e =>
    rintro ctx hctx
    cases hctx

/-! ### Every run -/

/-- What the answer to an `auth_any` says of the form of the bearer token, if the row of an
access token with that secret is `row`. -/
def Post (X : CredExt B) (row : AccessTokenRow) :
    CredReq B → CredReply B → List (CredEv B) → Prop
  | .authAny token, .authAny r, tr => row.tokenHash = X.tokenHash token →
    if isAccessToken token then
      AllLive row.uuid tr → AllRows row.uuid row tr → ∃ r', core r' = core row ∧
        r = .ok ⟨row.ownerUserId, some (verifiedOf r')⟩
    else ∀ ctx, r = .ok ctx → ctx.token = none
  | _, _, _ => True

lemma wp_code [DecidableEq B] (row : AccessTokenRow) (q : CredReq B) :
    wp anyRules (code X q) (fun a tr _ => Post X row q a tr) tr db := by
  cases q with
  | authAny token =>
    refine (wp_bind _ _ _ _ _).mpr ?_
    by_cases hhash : row.tokenHash = X.tokenHash token
    · cases htok : isAccessToken token with
      | true =>
        refine wp_mono (fun r tr db h _ => ?_) (wp_authAny_live htok hhash rfl)
        rw [if_pos htok]
        exact h
      | false =>
        refine wp_mono (fun r tr db h _ => ?_) (wp_authAny_plain htok)
        rw [if_neg (by simp [htok])]
        exact h
    · exact wp_trivial (fun _ => trivial) (fun _ _ _ h => absurd h hhash) _ _ _
  | _ => exact wp_trivial (fun _ => trivial) (fun _ _ _ => trivial) _ _ _

/-- The rows with the number `uuid` refer to no machine account but their own. -/
def OwnAccount (uuid : Ident) (db : CredDb B) : Prop :=
  ∀ r ∈ db.accessTokens.get uuid, r.machineAccountUuid = none ∨ r.machineAccountUuid = r.mintedFor

lemma ownAccount_does {ev : CredEv B} (h : Does X ev) (hown : OwnAccount uuid ev.pre) :
    OwnAccount uuid ev.post := by
  intro r hr
  rcases accessTokens_cases h with heq | ⟨row, hins, hlink, -⟩ | ⟨p, f, hf, hf', heq, hl⟩
  · exact hown r (heq ▸ hr)
  · obtain ⟨hm, hk⟩ := Table.get_eq_some_iff.mp hr
    rw [(Table₂.insert_eq_some hins).2.2] at hm
    rcases List.mem_append.mp hm with hm | hm
    · exact hown r (Table.get_eq_some_iff.mpr ⟨hm, hk⟩)
    · rw [List.mem_singleton.mp hm]
      exact .inr hlink
  · rw [heq] at hr
    obtain ⟨r₀, hr₀, rfl⟩ := Option.map_eq_some_iff.mp ((Table.get_update _ p f hf uuid).symm.trans hr)
    split
    · have hmint := (of_core (hl r₀).core).2.2.2.2
      rcases (hl r₀).link with h | h
      · exact .inl h
      · rw [h, hmint]
        exact hown r₀ hr₀
    · exact hown r₀ hr₀

/-- **Which created tokens can be used.** In every interleaving, for every token that a
`create_token` has answered with and every finished `auth_any` that presents its secret
while the token is live: it is accepted for the creating user with the granted scopes, if and
only if the text of the random bytes starts with "vtr-ak-". -/
theorem created_token_accepted_iff [DecidableEq B] (X : CredExt B) (db : CredDb B)
    (as : List (CredAct B)) {c c' : Call (CredReq B) (CredDb B) (AuthEnv B) CredStmt (CredReply B)}
    (hc : c ∈ (run (code X) (init db) as).calls) (hc' : c' ∈ (run (code X) (init db) as).calls)
    {bearer : String} {req : TokenCreateReq} {resp : TokenCreateResp}
    {r : Except ApiError AuthContext} (hq : c.req = .createToken bearer req)
    (hresp : c.prog.result = some (.createToken (.ok resp))) (hq' : c'.req = .authAny resp.token)
    (hr : c'.prog.result = some (.authAny r)) (hlive : AllLive resp.tokenId c'.trace) :
    ∃ user, Admitted X bearer user c.trace ∧ ∃ ev ∈ c.trace, ev.name = .auth .random ∧
      resp.token = X.b64url ev.inp.random ∧
      ((∃ v, r = .ok ⟨user, some v⟩ ∧ v.tokenId = resp.tokenId ∧ v.scopes = req.scopes) ↔
        isAccessToken (X.b64url ev.inp.random) = true) := by
  have hpost := post_of_run hc hresp
  rw [hq] at hpost
  obtain ⟨row, hm, rf, hrf, hlater⟩ := hpost
  obtain ⟨ev, hev, hname, hsecret⟩ := hm.secret
  refine ⟨row.ownerUserId, hm.creator, ev, hev, hname, hsecret, ?_⟩
  have hkept : ∀ c ∈ (run (code X) (init db) as).calls, ∀ ev ∈ c.trace, TokensKept db ev.pre :=
    run_pre (does_code (X := X)) (fun _ _ _ _ _ _ _ _ _ _ hev h =>
      h.trans (tokensKept_of_does hev)) (.refl db) (along_true as _)
  -- the row is new, so that no other has its uuid
  have hstart : OwnAccount row.uuid db := by
    intro r' hr'
    obtain ⟨ev₀, hev₀, hnone⟩ := hm.fresh
    obtain ⟨r'', hr'', -⟩ := hkept c hc ev₀ hev₀ _ r' hr'
    rw [hnone] at hr''
    cases hr''
  have hown : ∀ c ∈ (run (code X) (init db) as).calls, ∀ ev ∈ c.trace, OwnAccount row.uuid ev.pre :=
    run_pre (does_code (X := X)) (fun _ _ _ _ _ _ _ _ _ _ hev h => ownAccount_does hev h) hstart
      (along_true as _)
  -- it stays as it was made, but for the times of its use
  have hrows : AllRows row.uuid row c'.trace := by
    intro ev' hev' r' hr'
    obtain ⟨r'', hr'', hl⟩ := run_since (does_code (X := X)) TokensKept.refl
      (fun _ _ _ => TokensKept.trans) (fun _ => tokensKept_of_does) db as ⟨c', hc', hev'⟩ _ r' hr'
    rw [hrf, Option.some.injEq] at hr''
    exact ⟨(hr'' ▸ hl.core).symm.trans hlater.core, hown c' hc' ev' hev' r' hr'⟩
  have hany := run_post (fun q _ => wp_code (X := X) row q) db as c' hc' _ hr
  rw [hq'] at hany
  have hform : if isAccessToken resp.token then _ else _ := hany hm.tokenHash
  rw [← hsecret]
  split at hform
  · next htok =>
    -- it begins as an access token does, and its row is found
    obtain ⟨r', hcore, rfl⟩ := hform (hm.uuid ▸ hlive) hrows
    obtain ⟨huuid, -, hscopes, -⟩ := of_core hcore
    exact iff_of_true ⟨_, rfl, huuid.trans hm.uuid, hscopes.trans hm.scopes⟩ htok
  · next htok =>
    -- it is taken for a session, and there is none
    refine iff_of_false ?_ htok
    rintro ⟨v, rfl, -⟩
    cases hform _ rfl

/-- With bytes whose text happens to start so, the token is accepted. -/
theorem created_token_accepted_lucky :
    ∃ c ∈ (run (code bytes) (init oneUser) (creating luckyBytes)).calls,
    ∃ c' ∈ (run (code bytes) (init oneUser) (creating luckyBytes)).calls, ∃ r,
      c'.prog.result = some (.authAny r) ∧ AllLive 5 c'.trace ∧
      ∃ user, Admitted bytes "session" user c.trace ∧ ∃ ev ∈ c.trace, ev.name = .auth .random ∧
        String.ofList (base64url luckyBytes) = bytes.b64url ev.inp.random ∧
        ((∃ v, r = .ok ⟨user, some v⟩ ∧ v.tokenId = 5 ∧ v.scopes = ["secrets:read"]) ↔
          isAccessToken (bytes.b64url ev.inp.random) = true) := by
  have hlen : 1 < (run (code bytes) (init oneUser) (creating luckyBytes)).calls.length := by
    decide +kernel
  have hall : ∀ c ∈ (run (code bytes) (init oneUser) (creating luckyBytes)).calls[1]?,
      AllLive 5 c.trace := by decide +kernel
  have hlive := hall _ (List.getElem?_eq_getElem hlen)
  exact ⟨_, List.getElem_mem (Nat.zero_lt_of_lt hlen), _, List.getElem_mem hlen, _, rfl, hlive,
    created_token_accepted_iff bytes oneUser (creating luckyBytes)
      (List.getElem_mem (Nat.zero_lt_of_lt hlen)) (List.getElem_mem hlen) rfl rfl rfl rfl hlive⟩

/-- The token that a `create_token` was answered with. -/
def created : Option (CredReply B) → Option TokenCreateResp
  | some (.createToken (.ok resp)) => some resp
  | _ => none

/-- The answer to an `auth_any` with the bearer token `token`. -/
def presented (token : String) : CredReq B → Option (CredReply B) →
    Option (Except ApiError AuthContext)
  | .authAny bearer, some (.authAny r) => if bearer = token then some r else none
  | _, _ => none

/-- Every created token is accepted while it is live. -/
def AllUsable (σ : CredSys B) : Prop :=
  ∀ c ∈ σ.calls, ∀ resp ∈ created c.prog.result, ∀ c' ∈ σ.calls,
    ∀ r ∈ presented resp.token c'.req c'.prog.result, AllLive resp.tokenId c'.trace →
      (r.toOption.bind (·.token)).isSome

instance (σ : CredSys B) : Decidable (AllUsable σ) :=
  inferInstanceAs (Decidable (∀ c ∈ _, ∀ resp ∈ _, ∀ c' ∈ _, ∀ r ∈ _, _))

/-- The token of most bytes is refused as an unknown session. -/
theorem created_token_refused :
    ¬∀ as : List (CredAct (List ℕ)), AllUsable (run (code bytes) (init oneUser) as) := by
  intro h
  have := h (creating (List.replicate 32 0))
  revert this
  decide +kernel

end Vautr.TokenFormat
