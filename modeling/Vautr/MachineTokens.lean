import Mathlib
import Vautr.Bearer

/-!
Access tokens that were minted for a machine account.

The row of a token keeps its own copy of the scopes and a reference to the account that is
cleared when the account is deleted. The state of the account is checked through that
reference, and its scopes only when the token is made: deleting an account sets its tokens
free of the check, and narrowing its scopes does not reach them.
-/

namespace Vautr.MachineTokens

open Vautr.Atomic Vautr.Interleave Vautr.Sql Vautr.Database Vautr.Api Vautr.Server Vautr.Auth
open Vautr.Credentials Vautr.Tokens Vautr.CredEffects Vautr.Bearer

variable {B : Type} {X : CredExt B} {db db' : CredDb B}

/-- The secret that a request presents as an access token, and what it was verified as. -/
def verifiedAs : CredReq B → CredReply B → Option (String × VerifiedToken)
  | .verify secret, .verify (.ok v) => some (secret, v)
  | .authAny bearer, .authAny (.ok ⟨_, some v⟩) => some (bearer, v)
  | _, _ => none

/-- If the token was minted for a machine account, then the account allowed its scopes when
the token was looked up, and it was seen active and not expired. -/
def Backed (X : CredExt B) (secret : String) (v : VerifiedToken) (tr : List (CredEv B)) : Prop :=
  ∃ ev ∈ tr, ev.name = .getTokenByHash (X.tokenHash secret) ∧
    ∃ row ∈ ev.pre.accessTokens.by'.get (X.tokenHash secret), v = verifiedOf row ∧
      ∀ m ∈ row.mintedFor,
        (∃ ma ∈ ev.pre.machineAccounts.get m, ∀ scope ∈ v.scopes, scope ∈ ma.scopes) ∧
        ∃ clock ∈ tr, clock.name = .auth .clock ∧ ∃ ev' ∈ tr, ∃ ma ∈ ev'.pre.machineAccounts.get m,
          ma.status = .active ∧ expiredAt ma.expiresAt clock.inp.now = false

instance (X : CredExt B) (secret : String) (v : VerifiedToken) (tr : List (CredEv B)) :
    Decidable (Backed X secret v tr) :=
  inferInstanceAs (Decidable (∃ ev ∈ tr, _ ∧ ∃ row ∈ _, _ ∧ ∀ m ∈ _, (∃ ma ∈ _, ∀ scope ∈ _, _) ∧
    ∃ clock ∈ tr, _ ∧ ∃ ev' ∈ tr, ∃ ma ∈ _, _ ∧ _))

/-- Every token that is accepted is backed by its machine account. -/
def AllBacked (X : CredExt B) (σ : CredSys B) : Prop :=
  ∀ c ∈ σ.calls, ∀ a ∈ c.prog.result, ∀ p ∈ verifiedAs c.req a, Backed X p.1 p.2 c.trace

instance (X : CredExt B) (σ : CredSys B) : Decidable (AllBacked X σ) :=
  inferInstanceAs (Decidable (∀ c ∈ σ.calls, ∀ a ∈ _, ∀ p ∈ _, Backed X _ _ _))

/-! ### What the accounts owe their tokens -/

/-- An unrevoked token that was minted for a machine account refers to it, and the account
is there, has the same owner and allows the scopes. -/
def Linked (db : CredDb B) : Prop :=
  ∀ t ∈ db.accessTokens.rows, t.revokedAt = none → ∀ m ∈ t.mintedFor,
    t.machineAccountUuid = some m ∧ ∃ ma ∈ db.machineAccounts.get m,
      ma.ownerUserId = t.ownerUserId ∧ ∀ scope ∈ t.scopes, scope ∈ ma.scopes

/-- An account is deleted when its tokens are revoked, its scopes keep those of its unrevoked
tokens, and when a token is stored its account is that of its owner and allows the scopes. -/
def Careful (db : CredDb B) : CredStmt → Prop
  | .deleteMachineAccount uuid owner => ∀ ma ∈ db.machineAccounts.get uuid,
    ma.ownerUserId = owner → ∀ t ∈ db.accessTokens.rows, t.mintedFor = some uuid →
      t.revokedAt ≠ none
  | .updateMachineAccount uuid owner scopes => ∀ ma ∈ db.machineAccounts.get uuid,
    ma.ownerUserId = owner → ∀ t ∈ db.accessTokens.rows, t.mintedFor = some uuid →
      t.revokedAt = none → ∀ scope ∈ t.scopes, scope ∈ scopes
  | .insertToken owner (some m) scopes => ∀ ma ∈ db.machineAccounts.get m,
    ma.ownerUserId = owner ∧ ∀ scope ∈ scopes, scope ∈ ma.scopes
  | _ => True

lemma linked_inserted {row : MachineAccountRow}
    (hins : db.machineAccounts.insert row = some db'.machineAccounts)
    (htok : db'.accessTokens = db.accessTokens) (hl : Linked db) : Linked db' := by
  intro t ht hrev m hm
  rw [htok] at ht
  obtain ⟨hlink, ma, hma, hown, hsc⟩ := hl t ht hrev m hm
  refine ⟨hlink, ma, ?_, hown, hsc⟩
  have hne : row.uuid ≠ m := by
    rintro rfl
    rw [Option.mem_def, (Table.insert_eq_some hins).1] at hma
    cases hma
  rw [Option.mem_def, Table.get_insert hins, if_neg hne]
  exact hma

/-- Accounts of the same owner that allow as much. -/
lemma linked_updated {p : MachineAccountRow → Bool} {f : MachineAccountRow → MachineAccountRow}
    {hf : ∀ r, (f r).uuid = r.uuid} (hacc : db'.machineAccounts = db.machineAccounts.update p f hf)
    (htok : db'.accessTokens = db.accessTokens) (hown : ∀ r, (f r).ownerUserId = r.ownerUserId)
    (hsc : ∀ ma, db.machineAccounts.get ma.uuid = some ma → p ma → ∀ t ∈ db.accessTokens.rows,
      t.mintedFor = some ma.uuid → t.revokedAt = none → (∀ scope ∈ t.scopes, scope ∈ ma.scopes) →
      ∀ scope ∈ t.scopes, scope ∈ (f ma).scopes)
    (hl : Linked db) : Linked db' := by
  intro t ht hrev m hm
  rw [htok] at ht
  obtain ⟨hlink, ma, hma, howner, hscopes⟩ := hl t ht hrev m hm
  refine ⟨hlink, if p ma then f ma else ma, ?_, ?_, ?_⟩
  · rw [Option.mem_def, hacc, Table.get_update, Option.mem_def.mp hma]
    rfl
  · split
    · rw [hown, howner]
    · exact howner
  · have hk : ma.uuid = m := Table.get_key hma
    split
    · next hp =>
      exact hsc ma (hk ▸ hma) hp t ht (by rw [hk]; exact hm) hrev hscopes
    · exact hscopes

lemma linked_deleted {uuid owner : Ident} (hc : Careful db (.deleteMachineAccount uuid owner))
    (hit : ∃ ma ∈ db.machineAccounts.get uuid, ma.ownerUserId = owner) (hl : Linked db) :
    Linked (accountDeleted uuid owner db) := by
  intro t' ht' hrev m hm
  obtain ⟨t, ht, rfl⟩ := List.mem_map.mp ht'
  obtain ⟨ma₀, hma₀, hown₀⟩ := hit
  have hkept : ∀ t ∈ db.accessTokens.rows, t.revokedAt = none → m ∈ t.mintedFor →
      t.machineAccountUuid = some m ∧ m ≠ uuid := by
    intro t ht hrev' hm'
    exact ⟨(hl t ht hrev' m hm').1, fun heq => hc ma₀ hma₀ hown₀ t ht (heq ▸ hm') hrev'⟩
  have hsame : decide (t.machineAccountUuid = some uuid) = false := by
    by_contra hlink
    rw [Bool.not_eq_false, decide_eq_true_eq] at hlink
    simp only [hlink, decide_true, if_true] at hrev hm
    obtain ⟨h, hne⟩ := hkept t ht hrev hm
    rw [hlink, Option.some.injEq] at h
    exact hne h.symm
  simp only [hsame, Bool.false_eq_true, if_false] at hrev hm ⊢
  obtain ⟨hlink, ma, hma, howner, hscopes⟩ := hl t ht hrev m hm
  refine ⟨hlink, ma, ?_, howner, hscopes⟩
  have hne : ma.uuid ≠ uuid := by
    rw [Table.get_key hma]
    exact (hkept t ht hrev hm).2
  change (db.machineAccounts.delete _).get m = some ma
  rw [Table.get_delete, Option.mem_def.mp hma]
  simp [hne]

lemma linked_inserted_token {row : AccessTokenRow}
    (hc : Careful db (.insertToken row.ownerUserId row.mintedFor row.scopes))
    (hlink : row.mintedFor = row.machineAccountUuid)
    (hins : db.accessTokens.insert row = some db'.accessTokens)
    (hacc : db'.machineAccounts = db.machineAccounts)
    (hma : ∀ m ∈ row.machineAccountUuid, (db.machineAccounts.get m).isSome) (hl : Linked db) :
    Linked db' := by
  intro t ht hrev m hm
  rw [hacc]
  rw [(Table₂.insert_eq_some hins).2.2] at ht
  rcases List.mem_append.mp ht with ht | ht
  · exact hl t ht hrev m hm
  · rw [List.mem_singleton.mp ht] at hm ⊢
    obtain ⟨ma, hget⟩ := Option.isSome_iff_exists.mp (hma m (hlink ▸ hm))
    rw [Option.mem_def.mp hm] at hc
    exact ⟨hlink ▸ hm, ma, hget, hc ma hget⟩

lemma linked_later {p : AccessTokenRow → Bool} {f : AccessTokenRow → AccessTokenRow}
    {hf : ∀ r, (f r).uuid = r.uuid} {hf' : ∀ r, (f r).tokenHash = r.tokenHash}
    (htok : db'.accessTokens = db.accessTokens.update p f hf hf')
    (hacc : db'.machineAccounts = db.machineAccounts)
    (hlater : ∀ r, (f r).machineAccountUuid = r.machineAccountUuid ∧ Later r (f r))
    (hl : Linked db) : Linked db' := by
  intro t' ht' hrev m hm
  rw [hacc]
  rw [htok] at ht'
  obtain ⟨t, ht, rfl⟩ := List.mem_map.mp ht'
  split at hrev
  · next hp =>
    simp only [hp, if_true] at hm ⊢
    obtain ⟨hlink, hl'⟩ := hlater t
    have hrev' : t.revokedAt = none := by
      by_contra hne
      have := hl'.revoked (Option.isSome_iff_ne_none.mpr hne)
      rw [hrev] at this
      cases this
    obtain ⟨-, hown, hscopes, -, hmint⟩ := of_core hl'.core
    rw [hmint] at hm
    rw [hlink, hown, hscopes]
    exact hl t ht hrev' m hm
  · next hp =>
    simp only [hp] at hm ⊢
    exact hl t ht hrev m hm

/-- **Careful statements keep the links.** -/
lemma linked_step {l : CredStmt} {e : AuthEnv B} (h : CredStep X l e db db') (hc : Careful db l)
    (hl : Linked db) : Linked db' := by
  rcases accounts_cases h with ⟨htok, hacc⟩ | ⟨row, hins, htok⟩ |
    ⟨uuid, owner, scopes, f, hf, rfl, hacc, htok, hcols⟩ |
    ⟨uuid, owner, rfl, rfl, hit⟩ | ⟨p, now, hacc, htok⟩ | ⟨row, rfl, hlink, hins, hacc, hma⟩ |
    ⟨p, f, hf, hf', htok, hacc, hlater⟩
  · unfold Linked
    rw [htok, hacc]
    exact hl
  · exact linked_inserted hins htok hl
  · refine linked_updated hacc htok (fun r => (hcols r).1) (fun ma hma hp t ht hm hrev _ => ?_) hl
    rw [Bool.and_eq_true, decide_eq_true_eq, decide_eq_true_eq] at hp
    rw [(hcols ma).2]
    exact hc ma (hp.1 ▸ hma) hp.2 t ht (hp.1 ▸ hm) hrev
  · exact linked_deleted hc hit hl
  · exact linked_updated hacc htok (fun _ => rfl) (fun _ _ _ _ _ _ _ h => h) hl
  · exact linked_inserted_token hc hlink hins hacc hma hl
  · exact linked_later htok hacc hlater hl

/-! ### Every run -/

instance (db : CredDb B) : ∀ l, Decidable (Careful db l) := by
  intro l
  unfold Careful
  split <;> infer_instance

/-- Every statement is careful. -/
def AllCareful (σ : CredSys B) : CredAct B → Prop
  | .call _ => True
  | .exec i _ => ∀ c ∈ σ.calls[i]?, ∀ l ∈ c.prog.next, Careful σ.shared l

instance (σ : CredSys B) : ∀ a, Decidable (AllCareful σ a)
  | .call _ => inferInstanceAs (Decidable True)
  | .exec i _ => inferInstanceAs (Decidable (∀ c ∈ σ.calls[i]?, ∀ l ∈ c.prog.next, Careful _ _))

lemma backed_of_verified {secret : String} {row : AccessTokenRow} {tr : List (CredEv B)}
    (hv : Verified X secret row tr) (hl : ∀ ev ∈ tr, Linked ev.pre) :
    Backed X secret (verifiedOf row) tr := by
  obtain ⟨hrev, tr₁, ev, tr₂, clock, hclock, rfl, hname, hrow, hcname, hexp, hma⟩ := hv
  have hev : ev ∈ tr₁ ++ ev :: tr₂ := by simp
  refine ⟨ev, hev, hname, row, hrow, rfl, fun m hm => ?_⟩
  obtain ⟨hlink, ma, hget, -, hscopes⟩ :=
    hl ev hev row (Table.get_mem (t := ev.pre.accessTokens.by') hrow) hrev m hm
  exact ⟨⟨ma, hget, hscopes⟩, clock, List.mem_append_left _ hclock, hcname, hma m hlink⟩

/-- **Machine tokens are backed**: in every run whose statements are careful, from tokens that
are linked, a token that was minted for a machine account is accepted only if the account is
there, active and not expired, and with no more than its scopes. -/
theorem machine_tokens_backed [DecidableEq B] (X : CredExt B) (db : CredDb B) (hdb : Linked db)
    (as : List (CredAct B)) (has : Along (code X) AllCareful (init db) as) :
    AllBacked X (run (code X) (init db) as) := by
  have hall : ∀ c ∈ (run (code X) (init db) as).calls, ∀ ev ∈ c.trace, Linked ev.pre :=
    run_pre (does_code (X := X)) (fun σ i e q tr l f k hc hC hev hl =>
      linked_step hev (hC _ hc l rfl) hl) hdb has
  intro c hc a ha p hp
  have hpost := post_of_run hc ha
  unfold verifiedAs at hp
  split at hp
  · next secret v hreq =>
    cases hp
    rw [hreq] at hpost
    obtain ⟨row, rfl, hv⟩ := hpost
    exact backed_of_verified hv (hall c hc)
  · next bearer user v hreq =>
    cases hp
    rw [hreq] at hpost
    obtain ⟨row, tr₁, ev, rfl, -, htr, hv, -⟩ := hpost
    exact backed_of_verified (htr ▸ hv.append ev) (hall c hc)
  · cases hp

/-- A user makes a machine account and a token for it, and deletes the account. -/
def orphaned (revoke : Bool) : List (CredAct (List ℕ)) :=
  let e : AuthEnv (List ℕ) := ⟨1, 5, luckyBytes, false⟩
  serving 0 (.createMachineAccount "session" ⟨"ci", none, none, ["secrets:read"], none⟩) 8 e ++
  serving 1 (.createToken "session" ⟨"ci", some 5, none, ["secrets:read"], none⟩) 10 e ++
  serving 2 (.verify (String.ofList (base64url luckyBytes))) 5 e ++
  serving 3 (if revoke then .revokeToken "session" 5 else .authUser "session") 6 e ++
  serving 4 (.deleteMachineAccount "session" 5) 5 e ++
  serving 5 (.verify (String.ofList (base64url luckyBytes))) 5 e

theorem machine_tokens_backed_revoked :
    Along (code bytes) AllCareful (init oneUser) (orphaned true) ∧
    AllBacked bytes (run (code bytes) (init oneUser) (orphaned true)) :=
  ⟨by decide +kernel, machine_tokens_backed bytes oneUser (fun _ h => by cases h) (orphaned true)
    (by decide +kernel)⟩

/-- A token outlives the machine account that it was made for. -/
theorem machine_token_orphaned :
    ¬∀ as : List (CredAct (List ℕ)), AllBacked bytes (run (code bytes) (init oneUser) as) := by
  intro h
  have := h (orphaned false)
  revert this
  decide +kernel

end Vautr.MachineTokens
