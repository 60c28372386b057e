import Vautr.Bearer

/-!
Recovery challenges. A challenge is a nonce that a user signs with the recovery key; it is
meant for one recovery token. `recover_verify` reads it, checks the signature and deletes it,
in three steps, and does not look whether its `DELETE` hit a row: of two requests that have
both read the challenge, both get a token.
-/

namespace Vautr.Challenges

open Vautr.Atomic Vautr.Interleave Vautr.Sql Vautr.Database Vautr.Api Vautr.Server Vautr.Auth
open Vautr.Credentials Vautr.Recovery Vautr.CredEffects Vautr.Bearer

variable {B : Type} {X : CredExt B} {db db' : CredDb B} {tr : List (CredEv B)} {k : ℕ}

/-! ### Challenges are numbered -/

/-- The challenges have different numbers below the counter. -/
structure Numbered (db : CredDb B) : Prop where
  lt : ∀ r ∈ db.challenges.rows, r.serial < db.stored
  inj : ∀ r ∈ db.challenges.rows, ∀ r' ∈ db.challenges.rows, r.serial = r'.serial →
    r.user = r'.user

/-- The challenge number `k` was stored and is no more. -/
def Gone (k : ℕ) (db : CredDb B) : Prop :=
  k < db.stored ∧ ∀ r ∈ db.challenges.rows, r.serial ≠ k

/-- **What a statement does to the challenges**: some are deleted, or one is stored with a
new number. -/
lemma challenges_cases {l : CredStmt} {e : AuthEnv B} (h : CredStep X l e db db') :
    ((∀ r ∈ db'.challenges.rows, r ∈ db.challenges.rows) ∧ db'.stored = db.stored) ∨
    ∃ user, db'.stored = db.stored + 1 ∧ ∀ r ∈ db'.challenges.rows,
      (r ∈ db.challenges.rows ∧ r.user ≠ user) ∨ (r.serial = db.stored ∧ r.user = user) := by
  cases h
  case storeChallenge user nonce expiresAt now =>
    refine .inr ⟨user, rfl, fun r hr => ?_⟩
    have hget := Table.get_of_mem hr
    rw [Table.get_upsert] at hget
    split at hget
    · next huser =>
      right
      refine ⟨?_, huser.symm⟩
      rw [← Option.some.inj hget]
      cases db.challenges.get r.user <;> rfl
    · next huser => exact .inl ⟨Table.get_mem hget, Ne.symm huser⟩
  case deleteChallenge => exact .inl ⟨fun r hr => (Table.mem_delete.mp hr).1, rfl⟩
  case storeReclaim => left; unfold CredDb.setCols; split <;> exact ⟨fun _ h => h, rfl⟩
  case clearReclaim => left; unfold CredDb.setCols; split <;> exact ⟨fun _ h => h, rfl⟩
  case registerTotpFailure => left; unfold CredDb.setCols; split <;> exact ⟨fun _ h => h, rfl⟩
  case clearTotpFailures => left; unfold CredDb.setCols; split <;> exact ⟨fun _ h => h, rfl⟩
  case completeRecovery => left; unfold recovered CredDb.setCols; split <;> exact ⟨fun _ h => h, rfl⟩
  all_goals exact .inl ⟨fun _ h => h, rfl⟩

lemma numbered_does {ev : CredEv B} (h : Does X ev) (hn : Numbered ev.pre) : Numbered ev.post := by
  rcases challenges_cases h with ⟨hsub, hst⟩ | ⟨user, hst, hrows⟩
  · exact ⟨fun r hr => hst ▸ hn.lt r (hsub r hr),
      fun r hr r' hr' => hn.inj r (hsub r hr) r' (hsub r' hr')⟩
  · refine ⟨fun r hr => ?_, fun r hr r' hr' heq => ?_⟩
    · rcases hrows r hr with ⟨hr, -⟩ | ⟨hr, -⟩
      · have := hn.lt r hr
        omega
      · omega
    · rcases hrows r hr with ⟨hr, -⟩ | ⟨hr, hu⟩ <;> rcases hrows r' hr' with ⟨hr', -⟩ | ⟨hr', hu'⟩
      · exact hn.inj r hr r' hr' heq
      · have := hn.lt r hr
        omega
      · have := hn.lt r' hr'
        omega
      · rw [hu, hu']

/-- A number does not come back. -/
lemma gone_does {ev : CredEv B} (h : Does X ev) (hg : Gone k ev.pre) : Gone k ev.post := by
  obtain ⟨hlt, hne⟩ := hg
  rcases challenges_cases h with ⟨hsub, hst⟩ | ⟨user, hst, hrows⟩
  · exact ⟨hst ▸ hlt, fun r hr => hne r (hsub r hr)⟩
  · refine ⟨by omega, fun r hr => ?_⟩
    rcases hrows r hr with ⟨hr, -⟩ | ⟨hr, -⟩
    · exact hne r hr
    · omega

/-! ### One request -/

/-- The challenge that a statement reads. -/
def readChallenge (ev : CredEv B) : Option (ChallengeRow B) :=
  match ev.name with
  | .getChallenge user => ev.pre.challenges.get user
  | _ => none

/-- What a `recover_verify` that was answered with a token has done: it has read the
challenge `r` and no other, found it not expired, and deleted what was there. -/
structure Redeemed (r : ChallengeRow B) (tr : List (CredEv B)) : Prop where
  read : ∀ ev ∈ tr, ∀ r' ∈ readChallenge ev, r' = r
  spent : ∃ tr₁ ev tr₂, tr = tr₁ ++ ev :: tr₂ ∧ ev.name = .deleteChallenge r.user ∧
    ev.post = { ev.pre with challenges := ev.pre.challenges.delete fun r' => r'.user = r.user } ∧
    (∃ ev' ∈ tr₁, readChallenge ev' = some r) ∧ (∃ clock ∈ tr₁, clock.name = .auth .clock) ∧
    ∀ clock ∈ tr₁, clock.name = .auth .clock → clock.inp.now ≤ r.expiresAt

/-- The last part of the request reads no challenge. -/
lemma wp_mintRecovery {r : ChallengeRow B} {user : Ident} (huser : r.user = user)
    (hread : ∀ ev ∈ tr, ∀ r' ∈ readChallenge ev, r' = r) (hev : ∃ ev ∈ tr, readChallenge ev = some r)
    (hclock : ∃ clock ∈ tr, clock.name = .auth .clock)
    (hexp : ∀ clock ∈ tr, clock.name = .auth .clock → clock.inp.now ≤ r.expiresAt) :
    wp anyRules (mintRecovery X user).run (Ok fun _ tr _ => ∃ r, Redeemed r tr) tr db := by
  refine wp_bind_ok (wp_orInternal_ok (wp_statement_ok fun db₁ e₁ _ _ _ _ _ => ?_))
  refine wp_bind_ok (wp_newUuid fun db₂ e₂ _ _ => wp_bind_ok (wp_nowMs fun db₃ e₃ _ _ =>
    wp_bind_ok (wp_orInternal_ok (wp_statement_ok fun db₄ e₄ _ _ _ _ _ => ?_))))
  refine ⟨r, ?_, tr, _, _, by simp only [List.append_assoc]; rfl, by rw [huser], by rw [huser], hev,
    hclock, hexp⟩
  intro ev hev r' hr'
  simp only [List.mem_append, List.mem_singleton, or_assoc] at hev
  rcases hev with hev | rfl | rfl | rfl | rfl
  · exact hread ev hev r' hr'
  all_goals cases hr'

lemma wp_requireEcho [DecidableEq B] {nonce : Option (Option B)} {stored : B}
    {P : Unit → List (CredEv B) → CredDb B → Prop} (h : P () tr db) :
    wp anyRules (requireEcho nonce stored).run (Ok P) tr db := by
  unfold requireEcho
  split
  · exact h
  · refine wp_bind_ok (wp_decodeB64_ok fun b => ?_)
    split
    · exact wp_throw_ok _
    · exact h

lemma wp_recoverVerify [DecidableEq B] (req : VerifyReq B) :
    wp anyRules (recoverVerify X req).run (Ok fun _ tr _ => ∃ r, Redeemed r tr) [] db := by
  refine wp_bind_ok (wp_orElse_ok (wp_getUserByEmail fun db₁ e₁ user _ => ?_))
  refine wp_bind_ok (wp_orElse_ok (wp_bind_ok (wp_select_ok fun db₂ e₂ _ _ _ key hkey => ?_)))
  split
  · exact wp_throw_ok _
  refine wp_bind_ok (wp_orElse_ok (wp_select_ok fun db₃ e₃ _ _ _ found hfound => ?_))
  refine wp_bind_ok (wp_nowMs fun db₄ e₄ _ _ => ?_)
  split
  · refine wp_bind_ok (wp_trivial (fun _ => trivial) (fun r _ _ => ?_) _ _ _)
    cases r <;> trivial
  next hexp =>
  obtain ⟨r, hr, rfl⟩ := Option.map_eq_some_iff.mp hfound
  refine wp_bind_ok (wp_requireEcho (wp_bind_ok (wp_decodeB64_ok fun sig => ?_)))
  split
  · exact wp_throw_ok _
  refine wp_mintRecovery (Table.get_key hr) ?_ ?_ ?_ ?_
  · intro ev hev r' hr'
    simp only [List.nil_append, List.cons_append, List.mem_cons, List.not_mem_nil, or_false] at hev
    rcases hev with rfl | rfl | rfl | rfl
    · cases hr'
    · cases hr'
    · exact Option.some.inj (hr'.symm.trans hr)
    · cases hr'
  · exact ⟨⟨.getChallenge user.id, e₃, db₃, db₃⟩, by simp, hr⟩
  · exact ⟨⟨.auth .clock, e₄, db₄, db₄⟩, by simp, rfl⟩
  · intro clock hclock hname
    simp only [List.nil_append, List.cons_append, List.mem_cons, List.not_mem_nil, or_false]
      at hclock
    rcases hclock with rfl | rfl | rfl | rfl
    · cases hname
    · cases hname
    · cases hname
    · exact not_lt.mp hexp

/-! ### Every run -/

/-- The token that a `recover_verify` was answered with. -/
def recoveryToken : CredReq B → Option (CredReply B) → Option VerifyResp
  | .recoverVerify _, some (.recoverVerify (.ok resp)) => some resp
  | _, _ => none

/-- A request that was answered with a token has read a challenge that was not expired at the
time it read, and was there until the request itself deleted it. -/
def Yields (c : Call (CredReq B) (CredDb B) (AuthEnv B) CredStmt (CredReply B)) : Prop :=
  (recoveryToken c.req c.prog.result).isSome → ∃ ev ∈ c.trace, ∃ r ∈ readChallenge ev,
    (∃ clock ∈ c.trace, clock.name = .auth .clock ∧ clock.inp.now ≤ r.expiresAt) ∧
    ∃ ev' ∈ c.trace, ev'.name = .deleteChallenge r.user ∧
      ∃ r' ∈ ev'.pre.challenges.get r.user, r'.serial = r.serial

instance (c : Call (CredReq B) (CredDb B) (AuthEnv B) CredStmt (CredReply B)) :
    Decidable (Yields c) :=
  inferInstanceAs (Decidable (_ → ∃ ev ∈ _, ∃ r ∈ _, (∃ clock ∈ _, _) ∧ ∃ ev' ∈ _, _ ∧ ∃ r' ∈ _, _))

/-- Two requests that were answered with a token have not read the same challenge. -/
def Apart (c c' : Call (CredReq B) (CredDb B) (AuthEnv B) CredStmt (CredReply B)) : Prop :=
  (recoveryToken c.req c.prog.result).isSome → (recoveryToken c'.req c'.prog.result).isSome →
    ∀ ev ∈ c.trace, ∀ r ∈ readChallenge ev, ∀ ev' ∈ c'.trace, ∀ r' ∈ readChallenge ev',
      r.serial ≠ r'.serial

instance : DecidableRel (Apart (B := B)) := fun _ _ =>
  inferInstanceAs (Decidable (_ → _ → ∀ ev ∈ _, ∀ r ∈ _, ∀ ev' ∈ _, ∀ r' ∈ _, _))

/-- Every challenge yields at most one token, and none if it is consumed or expired. -/
def SingleUse (σ : CredSys B) : Prop := (∀ c ∈ σ.calls, Yields c) ∧ σ.calls.Pairwise Apart

instance (σ : CredSys B) : Decidable (SingleUse σ) :=
  inferInstanceAs (Decidable ((∀ c ∈ σ.calls, Yields c) ∧ σ.calls.Pairwise Apart))

/-- The user whose challenge a `recover_verify` deletes next. -/
def consuming : CredReq B → Option CredStmt → Option Ident
  | .recoverVerify _, some (.deleteChallenge user) => some user
  | _, _ => none

/-- When a `recover_verify` deletes a challenge that it has read and found not expired, the
challenge is still there. -/
def StillThere (σ : CredSys B) : CredAct B → Prop
  | .call _ => True
  | .exec i _ => ∀ c ∈ σ.calls[i]?, ∀ user ∈ consuming c.req c.prog.next,
    ∀ ev ∈ c.trace, ∀ r ∈ readChallenge ev,
      (∀ clock ∈ c.trace, clock.name = .auth .clock → clock.inp.now ≤ r.expiresAt) →
      ∃ r' ∈ σ.shared.challenges.get user, r'.serial = r.serial

instance (σ : CredSys B) : ∀ a, Decidable (StillThere σ a)
  | .call _ => inferInstanceAs (Decidable True)
  | .exec _ _ => inferInstanceAs (Decidable (∀ c ∈ _, ∀ user ∈ consuming _ _, ∀ ev ∈ _, ∀ r ∈ _,
      (∀ clock ∈ _, _) → ∃ r' ∈ _, _))

lemma wp_code [DecidableEq B] (q : CredReq B) :
    wp anyRules (code X q) (fun a tr _ => (recoveryToken q (some a)).isSome →
      ∃ r, Redeemed r tr) [] db := by
  cases q with
  | recoverVerify req =>
    refine (wp_bind _ _ _ _ _).mpr (wp_mono (fun r tr db h htok => ?_) (wp_recoverVerify req))
    cases r with
    | ok resp => exact h
    | error e => cases htok
  | _ => exact wp_trivial (fun _ => trivial) (fun a _ _ h => by cases h) _ _ _

/-- The statement deletes the challenge number `k`. -/
def Deletes (k : ℕ) (ev : CredEv B) : Prop := ¬Gone k ev.pre ∧ Gone k ev.post

/-- A request that finds its challenge still there deletes it. -/
lemma deletes_of_there {r r' : ChallengeRow B} {ev : CredEv B} (hn : Numbered ev.pre)
    (hpost : ev.post =
      { ev.pre with challenges := ev.pre.challenges.delete fun r' => r'.user = r.user })
    (hr' : r' ∈ ev.pre.challenges.get r.user) (hserial : r'.serial = r.serial) :
    Deletes r.serial ev := by
  have hmem := Table.get_mem hr'
  refine ⟨fun hg => hg.2 r' hmem hserial, ?_⟩
  rw [hpost]
  refine ⟨hserial ▸ hn.lt r' hmem, fun r'' hr'' heq => ?_⟩
  obtain ⟨hr'', hkept⟩ := Table.mem_delete.mp hr''
  rw [decide_eq_false_iff_not] at hkept
  exact hkept ((hn.inj r'' hr'' r' hmem (heq.trans hserial.symm)).trans (Table.get_key hr'))

/-- **A challenge is for one token**: in every interleaving of all requests in which a
`recover_verify` that deletes the challenge it has read finds it still there. -/
theorem challenges_single_use [DecidableEq B] (X : CredExt B) (db : CredDb B) (hdb : Numbered db)
    (as : List (CredAct B)) (has : Along (code X) StillThere (init db) as) :
    SingleUse (run (code X) (init db) as) := by
  -- whoever is given a token has read a challenge and passed the check on it
  have hred : ∀ c ∈ (run (code X) (init db) as).calls,
      (recoveryToken c.req c.prog.result).isSome → ∃ r, Redeemed r c.trace := by
    intro c hc htok
    cases hres : c.prog.result with
    | none =>
      rw [hres] at htok
      cases hq : c.req <;> rw [hq] at htok <;> cases htok
    | some a => exact run_post (fun q _ => wp_code (X := X) q) db as c hc a hres (hres ▸ htok)
  have hthere := run_each (K := fun q tr ev => ∀ user ∈ consuming q (some ev.name),
    ∀ ev' ∈ tr, ∀ r ∈ readChallenge ev',
      (∀ clock ∈ tr, clock.name = .auth .clock → clock.inp.now ≤ r.expiresAt) →
      ∃ r' ∈ ev.pre.challenges.get user, r'.serial = r.serial)
    (fun σ i e q tr l f k hc hC => hC _ hc) has
  have hnum : ∀ c ∈ (run (code X) (init db) as).calls, ∀ ev ∈ c.trace, Numbered ev.pre :=
    run_pre (does_code (X := X)) (fun _ _ _ _ _ _ _ _ _ _ hev h => numbered_does hev h) hdb
      (along_true as _)
  -- and it has deleted the challenge, which was still there
  have hdel : ∀ c ∈ (run (code X) (init db) as).calls,
      (recoveryToken c.req c.prog.result).isSome → ∀ r, Redeemed r c.trace →
      ∃ ev ∈ c.trace, ev.name = .deleteChallenge r.user ∧ Deletes r.serial ev ∧
        ∃ r' ∈ ev.pre.challenges.get r.user, r'.serial = r.serial := by
    intro c hc htok r hr
    obtain ⟨tr₁, ev, tr₂, htr, hname, hpost, ⟨ev', hev', hread⟩, -, hexp⟩ := hr.spent
    have hcons : consuming c.req (some ev.name) = some r.user := by
      rw [hname]
      cases hq : c.req <;> rw [hq] at htok <;> first | rfl | cases htok
    have hev : ev ∈ c.trace := by simp [htr]
    obtain ⟨r', hr', hserial⟩ := hthere c hc tr₁ ev tr₂ htr _ hcons ev' hev' r hread hexp
    exact ⟨ev, hev, hname, deletes_of_there (hnum c hc ev hev) hpost hr' hserial, r', hr', hserial⟩
  refine ⟨fun c hc htok => ?_, ?_⟩
  · -- the challenge was read, had not expired and is spent
    obtain ⟨r, hr⟩ := hred c hc htok
    obtain ⟨ev, hev, hname, -, hstill⟩ := hdel c hc htok r hr
    obtain ⟨tr₁, ev₁, tr₂, htr, -, -, ⟨ev', hev', hread⟩, ⟨clock, hclock, hcname⟩, hexp⟩ := hr.spent
    exact ⟨ev', by simp [htr, hev'], r, hread, ⟨clock, by simp [htr, hclock], hcname,
      hexp clock hclock hcname⟩, ev, hev, hname, hstill⟩
  · -- two requests cannot both have deleted one challenge
    rw [List.pairwise_iff_getElem]
    intro i j hi hj hij htok htok' ev hev r hr ev' hev' r' hr' heq
    obtain ⟨r₀, hr₀⟩ := hred _ (List.getElem_mem hi) htok
    obtain ⟨r₁, hr₁⟩ := hred _ (List.getElem_mem hj) htok'
    rw [hr₀.read ev hev r hr, hr₁.read ev' hev' r' hr'] at heq
    obtain ⟨ev₀, hev₀, -, hD₀, -⟩ := hdel _ (List.getElem_mem hi) htok r₀ hr₀
    obtain ⟨ev₁, hev₁, -, hD₁, -⟩ := hdel _ (List.getElem_mem hj) htok' r₁ hr₁
    have := run_once (D := Deletes r₀.serial) (does_code (X := X)) (fun _ h => h.1) (fun _ h => h.2)
      (fun _ hev => gone_does hev) db as (List.getElem?_eq_getElem hi) (List.getElem?_eq_getElem hj)
      hev₀ hD₀ hev₁ (heq ▸ hD₁)
    omega

/-- A user gets a challenge and sends two requests with its signature; the second one comes
after the first one has run `n` statements. -/
def signedTwice (n : ℕ) : List (CredAct (List ℕ)) :=
  let e : AuthEnv (List ℕ) := ⟨1, 5, List.replicate 32 9, false⟩
  let q : CredReq (List ℕ) :=
    .recoverVerify ⟨"alice", none, some (List.replicate 32 7 ++ List.replicate 32 9)⟩
  serving 0 (.recoverChallenge "alice") 5 e ++ serving 1 q n e ++
  serving 2 q 8 { e with uuid := 6 } ++ List.replicate (8 - n) (.exec 1 e)

theorem challenges_single_use_serial :
    Along (code bytes) StillThere (init oneUser) (signedTwice 8) ∧
    SingleUse (run (code bytes) (init oneUser) (signedTwice 8)) :=
  ⟨by decide +kernel, challenges_single_use bytes oneUser
    ⟨fun _ h => absurd h List.not_mem_nil, fun _ h => absurd h List.not_mem_nil⟩ (signedTwice 8)
    (by decide +kernel)⟩

/-- Two requests that both read the challenge before one deletes it both get a token. -/
theorem challenge_yields_two :
    ¬∀ as : List (CredAct (List ℕ)), SingleUse (run (code bytes) (init oneUser) as) := by
  intro h
  have := h (signedTwice 4)
  revert this
  decide +kernel

end Vautr.Challenges
