import Vautr.Bearer

/-!
Suspended accounts. Reclaiming an account suspends it for thirty days, and a request that
presents a session of a suspended user is refused. Access tokens go another way through
`auth_any`, and nobody asks there whether their owner is suspended.
-/

namespace Vautr.Suspension

open Vautr.Atomic Vautr.Interleave Vautr.Sql Vautr.Database Vautr.Api Vautr.Server Vautr.Auth
open Vautr.Credentials Vautr.Tokens Vautr.CredEffects Vautr.Bearer

variable {B : Type} {X : CredExt B}

/-- Whom a request was authenticated as. -/
def authenticatedAs : CredReq B → CredReply B → Option Ident
  | .authUser _, .authUser (.ok user) => some user
  | .authAny _, .authAny (.ok ctx) => some ctx.userId
  | _, _ => none

/-- The user is suspended, by every clock the statements read, in every state they found. -/
def Suspended (user : Ident) (tr : List (CredEv B)) : Prop :=
  ∀ clock ∈ tr, clock.name = .auth .clock → ∀ ev ∈ tr, ev.pre.isSuspended user clock.inp.now = true

instance (user : Ident) (tr : List (CredEv B)) : Decidable (Suspended user tr) :=
  inferInstanceAs (Decidable (∀ clock ∈ tr, _ → ∀ ev ∈ tr, _))

/-- No request is authenticated as a user who is suspended all the time. -/
def Refused (σ : CredSys B) : Prop :=
  ∀ c ∈ σ.calls, ∀ a ∈ c.prog.result, ∀ user ∈ authenticatedAs c.req a, ¬Suspended user c.trace

instance (σ : CredSys B) : Decidable (Refused σ) :=
  inferInstanceAs (Decidable (∀ c ∈ σ.calls, ∀ a ∈ c.prog.result, ∀ user ∈ _, _))

/-- The token whose owner an `auth_any` reads next. -/
def ownerAsked : CredReq B → Option CredStmt → Option Ident
  | .authAny _, some (.getTokenOwner uuid) => some uuid
  | _, _ => none

/-- When an `auth_any` that has verified an access token reads its owner, the owner is not
suspended at the time the request has read. -/
def OwnerActive (σ : CredSys B) : CredAct B → Prop
  | .call _ => True
  | .exec i _ => ∀ c ∈ σ.calls[i]?, ∀ uuid ∈ ownerAsked c.req c.prog.next,
    ∀ row ∈ σ.shared.accessTokens.get uuid, ∀ clock ∈ c.trace, clock.name = .auth .clock →
      σ.shared.isSuspended row.ownerUserId clock.inp.now = false

instance (σ : CredSys B) : ∀ a, Decidable (OwnerActive σ a)
  | .call _ => inferInstanceAs (Decidable True)
  | .exec i _ => inferInstanceAs (Decidable (∀ c ∈ σ.calls[i]?, ∀ uuid ∈ ownerAsked _ _,
      ∀ row ∈ σ.shared.accessTokens.get uuid, ∀ clock ∈ c.trace, _))

/-- **Suspended users stay out**: in every run in which no verified access token has a
suspended owner when its owner is read, no request is authenticated as a user who is
suspended all the time, whatever it presents. -/
theorem suspended_refused [DecidableEq B] (X : CredExt B) (db : CredDb B) (as : List (CredAct B))
    (has : Along (code X) OwnerActive (init db) as) : Refused (run (code X) (init db) as) := by
  have hactive := run_each (K := fun q tr ev => ∀ uuid ∈ ownerAsked q (some ev.name),
    ∀ row ∈ ev.pre.accessTokens.get uuid, ∀ clock ∈ tr, clock.name = .auth .clock →
      ev.pre.isSuspended row.ownerUserId clock.inp.now = false)
    (fun σ i e q tr l f k hc hC => hC _ hc) has
  intro c hc a ha user huser hsus
  have hpost := post_of_run hc ha
  have hadm : ∀ bearer, ¬Admitted X bearer user c.trace := by
    rintro bearer ⟨row, -, -, clock, hclock, hname, -, ev, hev, hnot⟩
    rw [hsus clock hclock hname ev hev] at hnot
    cases hnot
  unfold authenticatedAs at huser
  split at huser
  · next bearer user' hreq =>
    rw [hreq] at hpost
    cases huser
    exact hadm bearer hpost
  · next bearer ctx hreq =>
    rw [hreq] at hpost
    cases huser
    obtain ⟨user, _ | v⟩ := ctx
    · exact hadm bearer hpost
    · obtain ⟨row, tr₁, ev, -, -, htr, hv, hname, r, hr, rfl⟩ := hpost
      obtain ⟨clock, hclock, hcname⟩ := hv.clock
      have hnot := hactive c hc tr₁ ev [] htr row.uuid (by rw [hreq, hname]; rfl) r hr clock hclock
        hcname
      rw [hsus clock (by simp [htr, hclock]) hcname ev (by simp [htr])] at hnot
      cases hnot
  · cases huser

theorem suspended_refused_active :
    Along (code bytes) OwnerActive (init oneUser) (creating luckyBytes) ∧
    Refused (run (code bytes) (init oneUser) (creating luckyBytes)) :=
  ⟨by decide +kernel, suspended_refused bytes oneUser (creating luckyBytes) (by decide +kernel)⟩

/-- A user creates an access token, proves the recovery key to reclaim the account, which
suspends it, and presents the token. -/
def tokenAfterReclaim : List (CredAct (List ℕ)) :=
  let e : AuthEnv (List ℕ) := ⟨1, 5, luckyBytes, false⟩
  serving 0 (.createToken "session" ⟨"ci", none, none, ["secrets:read"], none⟩) 8 e ++
  serving 1 (.recoverChallenge "alice") 5 e ++
  serving 2 (.reclaim ⟨"alice", some (List.replicate 32 7 ++ luckyBytes)⟩) 8 e ++
  serving 3 (.authAny (String.ofList (base64url luckyBytes))) 4 e

/-- An access token of a suspended user is accepted. -/
theorem suspended_authenticated :
    ¬∀ as : List (CredAct (List ℕ)), Refused (run (code bytes) (init oneUser) as) := by
  intro h
  have := h tokenAfterReclaim
  revert this
  decide +kernel

end Vautr.Suspension
