import Mathlib.Data.Int.Interval
import Mathlib.Data.List.TakeWhile
import Vautr.Bearer

/-!
The second step of a login is for one use.

Both handlers read the pending row, evaluate a code, and then count a failed attempt or
delete the row, in separate statements. A code's step is looked up and marked in two more.
Whoever reads in between sees what was there before: two requests with one pending token may
both get a session, two requests with one code may both succeed, and any number of guesses
may be evaluated against one pending token.
-/

namespace Vautr.SecondFactor

open Vautr.Atomic Vautr.Interleave Vautr.Sql Vautr.Database Vautr.Api Vautr.Server Vautr.Auth
open Vautr.Zoom Vautr.Credentials Vautr.Mfa Vautr.CredEffects Vautr.Bearer

variable {B α : Type} {X : CredExt B} {db db' : CredDb B} {tr : List (CredEv B)}

/-! ### What the statements of a request say -/

/-- The pending token of a request, as it is stored. -/
def pendingHash (X : CredExt B) : CredReq B → Option String
  | .verifyLoginTotp req => some (X.sha256Hex req.pendingToken)
  | .verifyLoginRecovery req => some (X.sha256Hex req.pendingToken)
  | _ => none

/-- The recovery code of a request, as it is stored. -/
def recoveryHash (X : CredExt B) : CredReq B → Option String
  | .verifyLoginRecovery req => some (X.recoveryCodeHash req.recoveryCode)
  | _ => none

def isTotp : CredReq B → Bool
  | .verifyLoginTotp _ => true
  | _ => false

/-- What a statement of the two handlers is about. -/
inductive Kind
  | lock
  | redeem
  | check
  | bump
  | mark
  | issue
  | pend
  | other
  deriving DecidableEq

def kind : CredStmt → Kind
  | .totpLockState _ => .lock
  | .redeemRecoveryCode _ _ => .redeem
  | .totpStepUsed _ _ => .check
  | .bumpPending _ => .bump
  | .markTotpStep _ _ => .mark
  | .auth (.storeSession _) => .issue
  | .auth (.storePendingMfa _) => .pend
  | _ => .other

/-- The pending row that the first statement has found. -/
def readRow (tr : List (CredEv B)) : Option PendingMfaRow :=
  tr.head?.bind fun ev =>
    match ev.name with
    | .getPending hash => if ev.inp.fault then none else ev.pre.auth.pendingMfa.get hash
    | _ => none

/-- The pending row of the user was found and had attempts left. -/
def Opened (user : Ident) (hash : String) (tr : List (CredEv B)) : Prop :=
  ∃ r ∈ readRow tr, r.userId = user ∧ r.tokenHash = hash ∧ r.attempts < 5

/-- A code was evaluated: the clock was read after the lock, or a recovery code was redeemed or
found not to be there. -/
def evaluated : CredReq B → List (CredEv B) → Bool
  | .verifyLoginTotp _, tr =>
    (tr.dropWhile fun ev => kind ev.name ≠ .lock).any fun ev => ev.name = .auth .clock
  | .verifyLoginRecovery _, tr => tr.any fun ev => kind ev.name = .redeem && !ev.inp.fault
  | _, _ => false

/-- The step was looked up and not found. -/
def Claims (user : Ident) (step : ℤ) (tr : List (CredEv B)) : Prop :=
  ∃ ev ∈ tr, ev.name = .totpStepUsed user step ∧ ev.inp.fault = false ∧
    ev.pre.usedSteps.get (user, step) = none

def Marks (user : Ident) (step : ℤ) (tr : List (CredEv B)) : Prop :=
  ∃ ev ∈ tr, ev.name = .markTotpStep user step

/-- The attempt was counted: the row that was there has one attempt more. -/
def Bumped (hash : String) (tr : List (CredEv B)) : Prop :=
  ∃ ev ∈ tr, ev.name = .bumpPending hash ∧ ∀ row ∈ ev.pre.auth.pendingMfa.get hash,
    ∃ row' ∈ ev.post.auth.pendingMfa.get hash, row'.attempts = row.attempts + 1

/-- The pending row was deleted. -/
def Deleted (hash : String) (tr : List (CredEv B)) : Prop :=
  ∃ ev ∈ tr, ev.name = .deletePending hash ∧ ev.post.auth.pendingMfa.get hash = none

/-- The recovery code was never stored or is used. -/
def UsedUp (user : Ident) (code : String) (db : CredDb B) : Prop :=
  ∀ r ∈ db.recoveryCodes.get (user, code), r.used = true

/-- The statement accepts the recovery code. -/
def Redeems (user : Ident) (code : String) (ev : CredEv B) : Prop :=
  ev.name = .redeemRecoveryCode user code ∧ ¬UsedUp user code ev.pre ∧ UsedUp user code ev.post

/-- A session was stored. -/
def Issued (tr : List (CredEv B)) : Prop := ∃ ev ∈ tr, kind ev.name = .issue

/-- The order in which a request does things. -/
structure Shape (X : CredExt B) (q : CredReq B) (tr : List (CredEv B)) : Prop where
  opened : evaluated q tr = true → ∃ hash ∈ pendingHash X q, ∃ user, Opened user hash tr
  issued : Issued tr → evaluated q tr = true ∧ ∀ ev ∈ tr, kind ev.name ≠ .bump
  claimed : ∀ user step, Marks user step tr → Claims user step tr
  marked : Issued tr → isTotp q = true → ∃ r ∈ readRow tr, ∃ step, Marks r.userId step tr
  redeemed : Issued tr → ∀ code ∈ recoveryHash X q, ∃ r ∈ readRow tr, ∃ ev ∈ tr,
    Redeems r.userId code ev
  quiet : ∀ ev ∈ tr, kind ev.name ≠ .pend

lemma readRow_append (h : tr ≠ []) (ev : CredEv B) : readRow (tr ++ [ev]) = readRow tr := by
  cases tr with
  | nil => exact absurd rfl h
  | cons a l => rfl

lemma Opened.append {user : Ident} {hash : String} (h : Opened user hash tr) (ev : CredEv B) :
    Opened user hash (tr ++ [ev]) := by
  have hne : tr ≠ [] := by
    rintro rfl
    obtain ⟨r, hr, -⟩ := h
    cases hr
  unfold Opened
  rwa [readRow_append hne]

lemma Claims.append {user : Ident} {step : ℤ} (h : Claims user step tr) (ev : CredEv B) :
    Claims user step (tr ++ [ev]) := by
  obtain ⟨ev', hev', hrest⟩ := h
  exact ⟨ev', List.mem_append_left _ hev', hrest⟩

lemma Marks.append {user : Ident} {step : ℤ} (h : Marks user step tr) (ev : CredEv B) :
    Marks user step (tr ++ [ev]) := by
  obtain ⟨ev', hev', hname⟩ := h
  exact ⟨ev', List.mem_append_left _ hev', hname⟩

lemma evaluated_append {q : CredReq B} (h : evaluated q tr = true) (ev : CredEv B) :
    evaluated q (tr ++ [ev]) = true := by
  unfold evaluated at h ⊢
  split at h
  · rw [List.dropWhile_append]
    split
    · next hnil => rw [List.isEmpty_iff.mp hnil] at h; cases h
    · rw [List.any_append, h]
      rfl
  · rw [List.any_append, h]
    rfl
  · cases h

/-- The clock is read after the lock. -/
lemma evaluated_clock {req : TotpVerifyLoginReq} {ev : CredEv B}
    (h : ∃ ev ∈ tr, kind ev.name = .lock) (hev : ev.name = .auth .clock) :
    evaluated (.verifyLoginTotp req) (tr ++ [ev]) = true := by
  have hne : ¬(tr.dropWhile fun ev => decide (kind ev.name ≠ .lock)).isEmpty = true := by
    rw [List.isEmpty_iff, List.dropWhile_eq_nil_iff]
    obtain ⟨ev', hev', hl⟩ := h
    exact fun hall => by simpa [hl] using hall ev' hev'
  dsimp only [evaluated]
  rw [List.dropWhile_append, if_neg hne, List.any_append]
  simp [hev]

/-! ### One request -/

/-- The statements that a request runs keep to the order. -/
def shaped (X : CredExt B) (q : CredReq B) : Rules (CredDb B) (AuthEnv B) CredStmt :=
  ⟨fun _ _ _ => True, fun _ => True, Shape X q⟩

/-- Nothing was evaluated, marked or stored yet. -/
def Early (tr : List (CredEv B)) : Prop := ∀ ev ∈ tr, kind ev.name = .other

/-- The pending row was found, and nothing was marked or stored. -/
structure Idle (user : Ident) (hash : String) (tr : List (CredEv B)) : Prop where
  opened : Opened user hash tr
  still : ∀ ev ∈ tr, kind ev.name ≠ .mark ∧ kind ev.name ≠ .issue ∧ kind ev.name ≠ .pend

/-- A code was evaluated and no attempt counted. -/
structure Going (q : CredReq B) (user : Ident) (hash : String) (tr : List (CredEv B)) : Prop where
  opened : Opened user hash tr
  evaluated : evaluated q tr = true
  unbumped : ∀ ev ∈ tr, kind ev.name ≠ .bump ∧ kind ev.name ≠ .pend
  claimed : ∀ user step, Marks user step tr → Claims user step tr

variable {q : CredReq B} {user : Ident} {hash : String}

lemma Marks.kind {user : Ident} {step : ℤ} (h : Marks user step tr) :
    ∃ ev ∈ tr, kind ev.name = .mark := by
  obtain ⟨ev, hev, hname⟩ := h
  exact ⟨ev, hev, by rw [hname]; rfl⟩

lemma shape_early (h : Early tr) : Shape X q tr := by
  have hissue : ¬Issued tr := by
    rintro ⟨ev, hev, hk⟩
    rw [h ev hev] at hk
    cases hk
  refine ⟨fun hev => ?_, fun hi => absurd hi hissue, fun user step hm => ?_,
    fun hi => absurd hi hissue, fun hi => absurd hi hissue, fun ev hev => by rw [h ev hev]; decide⟩
  · unfold evaluated at hev
    split at hev
    · have hnil : (tr.dropWhile fun ev => decide (kind ev.name ≠ .lock)) = [] :=
        List.dropWhile_eq_nil_iff.mpr fun ev hev => by simp [h ev hev]
      rw [hnil] at hev
      cases hev
    · obtain ⟨ev, hmem, hk⟩ := List.any_eq_true.mp hev
      simp [h ev hmem] at hk
    · cases hev
  · obtain ⟨ev, hev, hk⟩ := hm.kind
    rw [h ev hev] at hk
    cases hk

lemma shape_idle (hq : pendingHash X q = some hash) (h : Idle user hash tr) : Shape X q tr := by
  have hissue : ¬Issued tr := fun ⟨ev, hev, hk⟩ => (h.still ev hev).2.1 hk
  refine ⟨fun _ => ⟨hash, hq, user, h.opened⟩, fun hi => absurd hi hissue, fun user step hm => ?_,
    fun hi => absurd hi hissue, fun hi => absurd hi hissue, fun ev hev => (h.still ev hev).2.2⟩
  obtain ⟨ev, hev, hk⟩ := hm.kind
  exact absurd hk (h.still ev hev).1

/-- What must have happened before a session is stored. -/
structure Due (X : CredExt B) (q : CredReq B) (user : Ident) (tr : List (CredEv B)) : Prop where
  marked : isTotp q = true → ∃ step, Marks user step tr
  redeemed : ∀ code ∈ recoveryHash X q, ∃ ev ∈ tr, Redeems user code ev

lemma Due.append (h : Due X q user tr) (ev : CredEv B) : Due X q user (tr ++ [ev]) := by
  refine ⟨fun ht => ?_, fun code hcode => ?_⟩
  · obtain ⟨step, hm⟩ := h.marked ht
    exact ⟨step, hm.append ev⟩
  · obtain ⟨ev', hev', hr⟩ := h.redeemed code hcode
    exact ⟨ev', List.mem_append_left _ hev', hr⟩

lemma shape_going (hq : pendingHash X q = some hash) (h : Going q user hash tr) (hd : Due X q user tr) :
    Shape X q tr := by
  refine ⟨fun _ => ⟨hash, hq, user, h.opened⟩,
    fun _ => ⟨h.evaluated, fun ev hev => (h.unbumped ev hev).1⟩, h.claimed, fun _ => ?_, fun _ => ?_,
    fun ev hev => (h.unbumped ev hev).2⟩
  · obtain ⟨r, hr, rfl, -⟩ := h.opened
    exact fun ht => ⟨r, hr, hd.marked ht⟩
  · obtain ⟨r, hr, rfl, -⟩ := h.opened
    exact fun code hcode => ⟨r, hr, hd.redeemed code hcode⟩

lemma Idle.append (h : Idle user hash tr) {ev : CredEv B}
    (hev : kind ev.name ≠ .mark ∧ kind ev.name ≠ .issue ∧ kind ev.name ≠ .pend) :
    Idle user hash (tr ++ [ev]) :=
  ⟨h.opened.append ev, every_append h.still hev⟩

lemma Going.append (h : Going q user hash tr) {ev : CredEv B}
    (hev : kind ev.name ≠ .bump ∧ kind ev.name ≠ .pend)
    (hmark : ∀ user step, ev.name = .markTotpStep user step → Claims user step tr) :
    Going q user hash (tr ++ [ev]) := by
  refine ⟨h.opened.append ev, evaluated_append h.evaluated ev, every_append h.unbumped hev, ?_⟩
  rintro user step ⟨ev', hev', hname⟩
  refine Claims.append ?_ ev
  rcases List.mem_append.mp hev' with hev' | hev'
  · exact h.claimed user step ⟨ev', hev', hname⟩
  · rw [List.mem_singleton.mp hev'] at hname
    exact hmark user step hname

/-- A part of a request whose statements are of certain kinds keeps what such statements keep. -/
lemma wp_kinds {p : Prog (CredDb B) (AuthEnv B) CredStmt α} {P : Kind → Prop}
    {J : List (CredEv B) → Prop} {Q : α → List (CredEv B) → CredDb B → Prop}
    (hp : Guarantees (fun _ _ _ => True) (fun ev => P (kind ev.name)) p)
    (hmid : ∀ tr, J tr → Shape X q tr) (hJ : ∀ tr ev, J tr → P (kind ev.name) → J (tr ++ [ev]))
    (hQ : ∀ a tr db, J tr → Q a tr db) (h : J tr) : wp (shaped X q) p Q tr db :=
  wp_of_guarantees (J := fun tr _ => J tr) hp (fun _ _ _ _ => trivial) (fun tr _ h => hmid tr h)
    (fun _ _ _ _ h _ => h) (fun tr ev h hev => hJ tr ev h hev) hQ h

section Kinds

variable {P : Kind → Prop} {rely : CredStmt → CredDb B → CredDb B → Prop}

lemma kinds_statement {l : CredStmt} (hl : P (kind l))
    {g : AuthEnv B → CredDb B → CredDb B × Except SqlError α} :
    Guarantees rely (fun ev => P (kind ev.name)) (statement l g).run :=
  guarantees_statement (fun _ _ => hl) fun _ _ => hl

lemma kinds_read {l : AuthStmt} (hl : P (kind (.auth l))) {x : AuthHandler B α}
    (hx : ∃ g : AuthEnv B → α, x = ExceptT.mk (Prog.atom l fun e db => (db, .ok (g e)))) :
    Guarantees rely (fun ev => P (kind ev.name)) (zoomE login x : CredHandler B α).run := by
  obtain ⟨g, rfl⟩ := hx
  exact guarantees_stmt (fun _ _ => hl) fun _ _ => guarantees_ret _

lemma kinds_nowMs (h : P .other) :
    Guarantees rely (fun ev => P (kind ev.name)) (Credentials.nowMs : CredHandler B ℤ).run :=
  kinds_read h ⟨_, rfl⟩

lemma kinds_newUuid (h : P .other) :
    Guarantees rely (fun ev => P (kind ev.name)) (Credentials.newUuid : CredHandler B Ident).run :=
  kinds_read h ⟨_, rfl⟩

lemma kinds_audit (h : P .other) :
    Guarantees rely (fun ev => P (kind ev.name)) (Credentials.auditOrgEvent : CredRepo B Unit).run :=
  guarantees_stmt (fun _ _ => h) fun _ _ => guarantees_ret _

lemma kinds_orElse {x : CredRepo B (Option α)} {err : ApiError}
    (hx : Guarantees rely (fun ev => P (kind ev.name)) x.run) :
    Guarantees rely (fun ev => P (kind ev.name)) (orElse x err).run := by
  refine guarantees_bind_except (guarantees_orInternal hx) ?_
  rintro (_ | a)
  · exact guarantees_throw_except _
  · exact guarantees_pure_except _

lemma kinds_completeLogin (h : P .other) (h' : P .issue) (hash : String) (user : Ident) :
    Guarantees rely (fun ev => P (kind ev.name)) (completeLogin X hash user).run :=
  guarantees_bind_except (guarantees_orInternal (kinds_statement h)) fun _ =>
    guarantees_bind_except (kinds_newUuid h) fun _ =>
    guarantees_bind_except (kinds_nowMs h) fun _ =>
    guarantees_bind_except (guarantees_orInternal (kinds_statement h')) fun _ =>
    guarantees_bind_except (guarantees_ignored (kinds_audit h)) fun _ => guarantees_pure_except _

end Kinds

/-- The rest of a successful request. -/
lemma wp_completeLogin (hq : pendingHash X q = some hash) (h : Going q user hash tr)
    (hd : Due X q user tr) :
    wp (shaped X q) (completeLogin X hash user).run (fun _ tr _ => Shape X q tr) tr db := by
  refine wp_kinds (P := fun k => (k ≠ .bump ∧ k ≠ .pend) ∧ k ≠ .mark)
    (J := fun tr => Going q user hash tr ∧ Due X q user tr)
    (kinds_completeLogin (P := fun k => (k ≠ .bump ∧ k ≠ .pend) ∧ k ≠ .mark) (by decide) (by decide)
      hash user) (fun tr h => shape_going hq h.1 h.2) ?_
    (fun _ tr _ h => shape_going hq h.1 h.2) ⟨h, hd⟩
  rintro tr ev ⟨h, hd⟩ ⟨hb, hk⟩
  refine ⟨h.append hb fun user step hname => ?_, hd.append ev⟩
  rw [hname] at hk
  exact absurd rfl hk

/-- A part that keeps a request idle. -/
lemma wp_idle {p : Prog (CredDb B) (AuthEnv B) CredStmt α}
    {Q : α → List (CredEv B) → CredDb B → Prop} (hq : pendingHash X q = some hash)
    (hp : Guarantees (fun _ _ _ => True)
      (fun ev : CredEv B => kind ev.name ≠ .mark ∧ kind ev.name ≠ .issue ∧ kind ev.name ≠ .pend) p)
    (hQ : ∀ a tr db, Idle user hash tr → Q a tr db) (h : Idle user hash tr) : wp (shaped X q) p Q tr db :=
  wp_kinds (P := fun k => k ≠ .mark ∧ k ≠ .issue ∧ k ≠ .pend) hp (fun _ h => shape_idle hq h)
    (fun _ _ h hev => h.append hev) hQ h

/-- The pending row: after that, nothing was evaluated, and if it was accepted it has attempts
left. -/
lemma wp_requirePending :
    wp (shaped X q) (requirePending hash).run (fun r tr _ => Early tr ∧
      ∀ user ∈ r.toOption, Opened user hash tr) [] db := by
  unfold requirePending
  rw [wp_bind_except, orElse, wp_bind_except, wp_orInternal]
  refine wp_statement_cases (shape_early (by simp [Early])) (fun db₁ e₁ _ _ _ => ?_)
    fun db₁ e₁ hf _ _ => ?_
  · exact ⟨by simp [Early, kind], fun _ h => by cases h⟩
  have hearly : Early [(⟨.getPending hash, e₁, db₁, db₁⟩ : CredEv B)] := by simp [Early, kind]
  cases hget : db₁.auth.pendingMfa.get hash with
  | none =>
    simp only [Except.mapError, hget]
    exact ⟨hearly, fun _ h => by cases h⟩
  | some row =>
    simp only [Except.mapError, hget]
    change wp (shaped X q) (ExceptT.run (Credentials.nowMs >>= _)) _ _ _
    rw [wp_bind_except]
    refine wp_kinds (P := fun k => k = .other)
      (J := fun tr => Early tr ∧ readRow tr = some row)
      (kinds_nowMs (P := fun k => k = .other) rfl) (fun _ h => shape_early h.1) ?_ ?_ ⟨hearly, ?_⟩
    · rintro tr ev ⟨h, hr⟩ hev
      refine ⟨every_append h hev, ?_⟩
      rw [readRow_append (by rintro rfl; cases hr), hr]
    · rintro (_ | now) tr db ⟨h, hr⟩
      · exact ⟨h, fun _ h => by cases h⟩
      dsimp only
      split
      · rw [wp_bind_except]
        refine wp_kinds (P := fun k => k = .other) (J := Early)
          (guarantees_ignored (kinds_statement (P := fun k => k = .other) rfl))
          (fun _ h => shape_early h) (fun tr ev h hev => every_append h hev) ?_ h
        rintro (_ | _) tr db h
        · exact ⟨h, fun _ h => by cases h⟩
        · exact ⟨h, fun _ h => by cases h⟩
      · next hleft =>
        refine ⟨h, fun user hu => ?_⟩
        cases hu
        exact ⟨row, hr, rfl, Table.get_key hget, by omega⟩
    · have hnf : e₁.fault = false := hf
      simp [readRow, hnf, hget]

/-- The pending row was found, and no attempt was counted. -/
structure Ready (user : Ident) (hash : String) (tr : List (CredEv B)) : Prop extends Idle user hash tr where
  unbumped : ∀ ev ∈ tr, kind ev.name ≠ .bump

lemma Early.ready (h : Early tr) (ho : Opened user hash tr) : Ready user hash tr :=
  ⟨⟨ho, fun ev hev => by rw [h ev hev]; decide⟩, fun ev hev => by rw [h ev hev]; decide⟩

lemma Ready.append (h : Ready user hash tr) {ev : CredEv B}
    (hev : kind ev.name ≠ .mark ∧ kind ev.name ≠ .issue ∧ kind ev.name ≠ .pend)
    (hbump : kind ev.name ≠ .bump) : Ready user hash (tr ++ [ev]) :=
  ⟨h.toIdle.append hev, every_append h.unbumped hbump⟩

lemma Ready.going (h : Ready user hash tr) (hev : evaluated q tr = true) : Going q user hash tr :=
  ⟨h.opened, hev, fun ev hev => ⟨h.unbumped ev hev, (h.still ev hev).2.2⟩, fun _ _ hm => by
    obtain ⟨ev, hev, hk⟩ := hm.kind
    exact absurd hk (h.still ev hev).1⟩

/-- A part that runs only statements of no importance. -/
lemma wp_ready {p : Prog (CredDb B) (AuthEnv B) CredStmt α}
    {Q : α → List (CredEv B) → CredDb B → Prop} {J : List (CredEv B) → Prop}
    (hq : pendingHash X q = some hash)
    (hp : Guarantees (fun _ _ _ => True) (fun ev : CredEv B => kind ev.name = .other) p)
    (hJ : ∀ tr ev, J tr → J (tr ++ [ev])) (hQ : ∀ a tr db, Ready user hash tr → J tr → Q a tr db)
    (h : Ready user hash tr) (hj : J tr) : wp (shaped X q) p Q tr db :=
  wp_kinds (P := fun k => k = .other) (J := fun tr => Ready user hash tr ∧ J tr) hp
    (fun _ h => shape_idle hq h.1.toIdle)
    (fun tr ev h hev => ⟨h.1.append (by rw [hev]; decide) (by rw [hev]; decide), hJ tr ev h.2⟩)
    (fun a tr db h => hQ a tr db h.1 h.2) ⟨h, hj⟩

/-- What a matching code leads to. -/
lemma wp_acceptStep (hq : pendingHash X q = some hash) (hrec : recoveryHash X q = none)
    (now step : ℤ) (h : Going q user hash tr) (hidle : Idle user hash tr) :
    wp (shaped X q) (acceptStep X hash user now step).run (fun _ tr _ => Shape X q tr) tr db := by
  unfold acceptStep
  rw [wp_bind_except, wp_orInternal]
  refine wp_statement_cases (shape_idle hq hidle) (fun db₁ e₁ _ _ _ => ?_) fun db₁ e₁ hf _ _ => ?_
  · exact shape_idle hq (hidle.append (by simp [kind]))
  have hidle₁ : Idle user hash (tr ++ [⟨.totpStepUsed user step, e₁, db₁, db₁⟩]) :=
    hidle.append (by simp [kind])
  have h₁ : Going q user hash (tr ++ [⟨.totpStepUsed user step, e₁, db₁, db₁⟩]) :=
    h.append (by simp [kind]) fun _ _ hname => by cases hname
  dsimp only [Except.mapError]
  split
  · exact shape_idle hq hidle₁
  -- the step was not used when it was looked up
  next hunused =>
  have hclaim : Claims user step (tr ++ [⟨.totpStepUsed user step, e₁, db₁, db₁⟩]) :=
    ⟨_, List.mem_append_right _ (List.mem_singleton_self _), rfl, hf, by simpa using hunused⟩
  rw [wp_bind_except, wp_orInternal]
  unfold markTotpStepUsed
  rw [wp_bind_except]
  -- from here on the step is marked, whether or not the statements fail
  have hgo : ∀ e₂ db₂ db₃, Going q user hash (tr ++ [⟨.totpStepUsed user step, e₁, db₁, db₁⟩] ++
      [⟨.markTotpStep user step, e₂, db₂, db₃⟩]) ∧ Marks user step (tr ++
        [⟨.totpStepUsed user step, e₁, db₁, db₁⟩] ++ [⟨.markTotpStep user step, e₂, db₂, db₃⟩]) := by
    intro e₂ db₂ db₃
    refine ⟨h₁.append (by simp [kind]) ?_, _, List.mem_append_right _ (List.mem_singleton_self _), rfl⟩
    rintro user' step' hname
    cases hname
    exact hclaim
  have hdue : ∀ {tr}, Marks user step tr → Due X q user tr := fun h =>
    ⟨fun _ => ⟨step, h⟩, fun _ hcode => by rw [hrec] at hcode; cases hcode⟩
  have hshape : ∀ {tr}, Going q user hash tr ∧ Marks user step tr → Shape X q tr := fun h =>
    shape_going hq h.1 (hdue h.2)
  have hkeep : ∀ (tr : List (CredEv B)) (ev : CredEv B), Going q user hash tr ∧ Marks user step tr →
      kind ev.name = .other → Going q user hash (tr ++ [ev]) ∧ Marks user step (tr ++ [ev]) := by
    intro tr ev h hev
    refine ⟨h.1.append (by rw [hev]; decide) fun user step hname => ?_, h.2.append ev⟩
    rw [hname] at hev
    cases hev
  refine wp_statement_cases (shape_idle hq hidle₁) (fun db₂ e₂ _ _ _ => hshape (hgo e₂ db₂ _))
    fun db₂ e₂ _ _ _ => ?_
  split
  · rw [wp_bind_except, wp_attempt]
    refine wp_kinds (P := fun k => k = .other) (kinds_statement (P := fun k => k = .other) rfl)
      (fun _ h => hshape h) hkeep (fun _ tr db h => ?_) (hgo e₂ db₂ _)
    change wp (shaped X q) (ExceptT.run (orInternal _ >>= _)) _ _ _
    rw [wp_bind_except]
    refine wp_kinds (P := fun k => k = .other)
      (guarantees_orInternal (kinds_statement (P := fun k => k = .other) rfl))
      (fun _ h => hshape h) hkeep ?_ h
    rintro (_ | _) tr db h
    · exact hshape h
    · -- the failures are cleared, and the session is made
      exact wp_completeLogin hq h.1 (hdue h.2)
  · exact hshape (hgo e₂ db₂ _)

lemma wp_verifyLoginTotp (req : TotpVerifyLoginReq) :
    wp (shaped X (.verifyLoginTotp req)) (verifyLoginTotp X req).run
      (fun _ tr _ => Shape X (.verifyLoginTotp req) tr) [] db := by
  have hq : pendingHash X (.verifyLoginTotp req) = some (X.sha256Hex req.pendingToken) := rfl
  unfold verifyLoginTotp
  rw [wp_bind_except]
  refine wp_mono ?_ wp_requirePending
  rintro (_ | user) tr db ⟨hearly, ho⟩
  · exact shape_early hearly
  dsimp only
  rw [wp_bind_except]
  refine wp_ready (J := fun _ => True) hq (kinds_orElse (P := fun k => k = .other)
    (kinds_statement (P := fun k => k = .other) rfl)) (fun _ _ h => h) ?_
    (hearly.ready (ho user rfl)) trivial
  -- the user must have a secret
  rintro (_ | secret) tr db h -
  · exact shape_idle hq h.toIdle
  dsimp only
  rw [wp_bind_except]
  refine wp_ready (J := fun _ => True) hq (kinds_nowMs (P := fun k => k = .other) rfl)
    (fun _ _ h => h) ?_ h trivial
  rintro (_ | now) tr db h -
  · exact shape_idle hq h.toIdle
  dsimp only
  rw [wp_bind_except, wp_orInternal]
  unfold totpLockState selectCols
  rw [wp_bind_except]
  refine wp_statement_cases (shape_idle hq h.toIdle) (fun db₁ e₁ _ _ _ => ?_) fun db₁ e₁ _ _ _ => ?_
  · exact shape_idle hq (h.toIdle.append (by simp [kind]))
  have h₁ : Ready user (X.sha256Hex req.pendingToken) (tr ++ [⟨.totpLockState user, e₁, db₁, db₁⟩]) :=
    h.append (by simp [kind]) (by simp [kind])
  -- the lock is looked at before the code is
  have hlock : ∃ ev ∈ tr ++ [(⟨.totpLockState user, e₁, db₁, db₁⟩ : CredEv B)],
      kind ev.name = .lock := ⟨_, List.mem_append_right _ (List.mem_singleton_self _), rfl⟩
  dsimp only [Except.mapError, wp_pure_except]
  rw [wp_pure_except]
  dsimp only
  split
  · exact shape_idle hq h₁.toIdle
  rw [wp_bind_except]
  unfold verifyTotpWithStep
  split
  · exact shape_idle hq h₁.toIdle
  rw [wp_bind_except]
  refine ⟨shape_idle hq h₁.toIdle, fun db₂ e₂ _ _ => ?_⟩
  have h₂ : Ready user (X.sha256Hex req.pendingToken) (tr ++ [⟨.totpLockState user, e₁, db₁, db₁⟩] ++
      [⟨.auth .clock, e₂, db₂, db₂⟩]) := h₁.append (by simp [kind]) (by simp [kind])
  -- the clock is read for the code: from here on it counts as checked
  have heval : evaluated (.verifyLoginTotp req) (tr ++ [⟨.totpLockState user, e₁, db₁, db₁⟩] ++
      [⟨.auth .clock, e₂, db₂, db₂⟩]) = true := evaluated_clock hlock rfl
  change wp (shaped X (.verifyLoginTotp req)) (ExceptT.run (match _ with
    | none => _
    | some step => acceptStep X _ user now step)) _ _ _
  split
  · rw [wp_bind_except]
    refine wp_idle hq (guarantees_orInternal (kinds_statement
      (P := fun k => k ≠ .mark ∧ k ≠ .issue ∧ k ≠ .pend) (by simp [kind]))) ?_ h₂.toIdle
    rintro (_ | _) tr db h
    · exact shape_idle hq h
    dsimp only
    rw [wp_bind_except]
    refine wp_idle hq (guarantees_orInternal (kinds_statement
      (P := fun k => k ≠ .mark ∧ k ≠ .issue ∧ k ≠ .pend) (by simp [kind]))) ?_ h
    rintro (_ | _) tr db h
    · exact shape_idle hq h
    · exact shape_idle hq h
  · -- the code is right
    exact wp_acceptStep hq rfl now _ (h₂.going heval) h₂.toIdle

/-- A code that is there and unused. -/
lemma not_usedUp {user : Ident} {code : String} (h : ∃ r ∈ db.recoveryCodes.rows,
    r.user = user ∧ r.codeHash = code ∧ r.used = false) : ¬UsedUp user code db := by
  obtain ⟨r, hr, rfl, rfl, hused⟩ := h
  intro hall
  have := hall r (Table.get_of_mem hr)
  rw [hused] at this
  cases this

/-- After it was redeemed, a code is used. -/
lemma usedUp_redeemed {user : Ident} {code : String} : UsedUp user code { db with
    recoveryCodes := db.recoveryCodes.update
      (fun r => r.user = user && r.codeHash = code && !r.used)
      (fun r => { r with used := true }) (by intro r; rfl) } := by
  intro r hr
  obtain ⟨r', hr', rfl⟩ := Table.get_of_get_update (by intro r; rfl) hr
  have hkey : r'.user = user ∧ r'.codeHash = code := by
    simpa [RecoveryCodeRow.key] using Table.get_key hr'
  split
  · rfl
  · next hmiss => simpa [hkey] using hmiss

lemma wp_verifyLoginRecovery (req : RecoveryVerifyLoginReq) :
    wp (shaped X (.verifyLoginRecovery req)) (verifyLoginRecovery X req).run
      (fun _ tr _ => Shape X (.verifyLoginRecovery req) tr) [] db := by
  have hq : pendingHash X (.verifyLoginRecovery req) = some (X.sha256Hex req.pendingToken) := rfl
  unfold verifyLoginRecovery
  rw [wp_bind_except]
  refine wp_mono ?_ wp_requirePending
  rintro (_ | user) tr db ⟨hearly, ho⟩
  · exact shape_early hearly
  dsimp only
  have h := hearly.ready (ho user rfl)
  rw [wp_bind_except, wp_orInternal]
  refine wp_statement_cases (shape_idle hq h.toIdle) (fun db₁ e₁ _ _ _ => ?_) fun db₁ e₁ hf _ _ => ?_
  · exact shape_idle hq (h.toIdle.append (by simp [kind]))
  have hgo : ∀ db₂, Ready user (X.sha256Hex req.pendingToken)
      (tr ++ [⟨.redeemRecoveryCode user (X.recoveryCodeHash req.recoveryCode), e₁, db₁, db₂⟩]) ∧
      evaluated (.verifyLoginRecovery req)
        (tr ++ [⟨.redeemRecoveryCode user (X.recoveryCodeHash req.recoveryCode), e₁, db₁, db₂⟩]) =
          true := by
    intro db₂
    have hnf : e₁.fault = false := hf
    exact ⟨h.append (by simp [kind]) (by simp [kind]), by simp [evaluated, kind, hnf]⟩
  dsimp only [Except.mapError]
  split
  · rw [wp_bind_except]
    refine wp_idle hq (guarantees_orInternal (kinds_statement
      (P := fun k => k ≠ .mark ∧ k ≠ .issue ∧ k ≠ .pend) (by simp [kind]))) ?_ (hgo _).1.toIdle
    rintro (_ | _) tr db h
    · exact shape_idle hq h
    · exact shape_idle hq h
  · next hhit =>
    refine wp_completeLogin hq ((hgo _).1.going (hgo _).2) ⟨(fun h => by cases h), ?_⟩
    rintro code hcode
    cases hcode
    refine ⟨_, List.mem_append_right _ (List.mem_singleton_self _), rfl, ?_, usedUp_redeemed⟩
    exact not_usedUp (by simpa using hhit)

/-! ### Runs -/

abbrev CredCall (B : Type) := Call (CredReq B) (CredDb B) (AuthEnv B) CredStmt (CredReply B)

/-- The request was answered and has evaluated nothing. -/
def Spent (c : CredCall B) : Prop := c.prog.result.isSome ∧ evaluated c.req c.trace = false

/-- The request was answered and has not marked the step. -/
def Withdrawn (user : Ident) (step : ℤ) (c : CredCall B) : Prop :=
  c.prog.result.isSome ∧ ¬Marks user step c.trace

/-- What a statement must find. When a request reads a pending row that is there, every other
request that has read it has counted its attempt, has deleted the row or was answered without
evaluating a code; and when a request looks up a step that is not marked, every other request
that has found it unmarked was answered without marking it. -/
def Serial (σ : CredSys B) (l : CredStmt) (e : AuthEnv B) : Prop :=
  match l with
  | .getPending hash => e.fault = false → (σ.shared.auth.pendingMfa.get hash).isSome →
    ∀ c ∈ σ.calls, ∀ r ∈ readRow c.trace, r.tokenHash = hash →
      Bumped hash c.trace ∨ Deleted hash c.trace ∨ Spent c
  | .totpStepUsed user step => e.fault = false → σ.shared.usedSteps.get (user, step) = none →
    ∀ c ∈ σ.calls, Claims user step c.trace → Withdrawn user step c
  | _ => True

/-- Only the two kinds of request are made, and their statements find what they must find. -/
def Careful (X : CredExt B) (σ : CredSys B) : CredAct B → Prop
  | .call q => (pendingHash X q).isSome
  | .exec i e => ∀ c ∈ σ.calls[i]?, ∀ l ∈ c.prog.next, Serial σ l e

/-- A request that has read the row `r` is out of the way of one that has read `r'`. -/
def Behind (c : CredCall B) (r r' : PendingMfaRow) : Prop :=
  Spent c ∨ Bumped r.tokenHash c.trace ∧ r.attempts < r'.attempts

structure Good (σ : CredSys B) : Prop where
  nonneg : ∀ row ∈ σ.shared.auth.pendingMfa.rows, 0 ≤ row.attempts
  low : ∀ c ∈ σ.calls, ∀ r ∈ readRow c.trace, 0 ≤ r.attempts
  rows : ∀ c ∈ σ.calls, ∀ r ∈ readRow c.trace,
    ∀ row ∈ σ.shared.auth.pendingMfa.get r.tokenHash, r.attempts ≤ row.attempts ∧
      (Bumped r.tokenHash c.trace → r.attempts < row.attempts) ∧ ¬Deleted r.tokenHash c.trace
  apart : ∀ (i j : ℕ) (c c' : CredCall B), i ≠ j → σ.calls[i]? = some c → σ.calls[j]? = some c' →
    ∀ r ∈ readRow c.trace, ∀ r' ∈ readRow c'.trace, r.tokenHash = r'.tokenHash →
      Behind c r r' ∨ Behind c' r' r
  once : ∀ (i j : ℕ) (c c' : CredCall B), i ≠ j → σ.calls[i]? = some c → σ.calls[j]? = some c' →
    ∀ user step, Claims user step c.trace → Claims user step c'.trace →
      Withdrawn user step c ∨ Withdrawn user step c'

/-- A statement other than that of a login leaves pending rows, with at least as many attempts. -/
lemma pending_mono {l : CredStmt} {e : AuthEnv B} (h : CredStep X l e db db') (hl : kind l ≠ .pend)
    {row : PendingMfaRow} (hr : db'.auth.pendingMfa.get hash = some row) :
    ∃ row', db.auth.pendingMfa.get hash = some row' ∧ row'.attempts ≤ row.attempts := by
  have hdel : ∀ {p : PendingMfaRow → Bool}, (db.auth.pendingMfa.delete p).get hash = some row →
      db.auth.pendingMfa.get hash = some row := fun h =>
    Table.get_eq_some_iff.mpr ⟨(Table.mem_delete.mp (Table.get_mem h)).1, Table.get_key h⟩
  cases h
  case login l s h =>
    cases h
    case purgePending => exact ⟨row, hdel hr, le_refl _⟩
    case storePending => exact absurd rfl hl
    all_goals exact ⟨row, hr, le_refl _⟩
  case bumpPending hash' =>
    obtain ⟨r, hr', rfl⟩ := Table.get_of_get_update (by intro r; rfl) hr
    refine ⟨r, hr', ?_⟩
    split
    · exact Int.le_add_one (le_refl _)
    · exact le_refl _
  case deletePending => exact ⟨row, hdel hr, le_refl _⟩
  case storeReclaim | clearReclaim | registerTotpFailure | clearTotpFailures =>
    rw [CredDb.setCols_eq] at hr
    exact ⟨row, hr, le_refl _⟩
  all_goals exact ⟨row, hr, le_refl _⟩

/-- A used code stays used. -/
lemma usedUp_does {code : String} {ev : CredEv B} (h : Does X ev) (hu : UsedUp user code ev.pre) :
    UsedUp user code ev.post := by
  obtain ⟨l, e, db, db'⟩ := ev
  change CredStep X l e db db' at h
  dsimp only at hu ⊢
  cases h
  case redeemRecoveryCode user' code' =>
    intro r hr
    obtain ⟨r', hr', rfl⟩ := Table.get_of_get_update (by intro r; rfl) hr
    split
    · rfl
    · exact hu r' hr'
  case storeReclaim | clearReclaim | registerTotpFailure | clearTotpFailures =>
    rw [CredDb.setCols_eq]
    exact hu
  case completeRecovery =>
    unfold recovered
    rw [CredDb.setCols_eq]
    exact hu
  all_goals exact hu

section Step

variable {σ : CredSys B} {i : ℕ} {e : AuthEnv B} {l : CredStmt} {f : AuthEnv B → CredDb B → CredDb B}
  {k : AuthEnv B → CredDb B → Prog (CredDb B) (AuthEnv B) CredStmt (CredReply B)}

/-- The system after the next statement of the `i`-th request. -/
def after (σ : CredSys B) (i : ℕ) (e : AuthEnv B) (q : CredReq B) (tr : List (CredEv B))
    (l : CredStmt) (f : AuthEnv B → CredDb B → CredDb B)
    (k : AuthEnv B → CredDb B → Prog (CredDb B) (AuthEnv B) CredStmt (CredReply B)) : CredSys B :=
  ⟨f e σ.shared, σ.calls.set i ⟨q, tr ++ [⟨l, e, σ.shared, f e σ.shared⟩], k e σ.shared⟩⟩

/-- A request after the statement: it is unchanged, or it is the one that has run it. -/
lemma after_cases {j : ℕ} {c : CredCall B}
    (hj : (after σ i e q tr l f k).calls[j]? = some c) :
    j ≠ i ∧ σ.calls[j]? = some c ∨ j = i ∧
      c = ⟨q, tr ++ [⟨l, e, σ.shared, f e σ.shared⟩], k e σ.shared⟩ := by
  rcases getElem?_set_cases hj with h | h
  · exact .inr h
  · exact .inl h

/-- A request that has read a row has read it before, or it has just read it. -/
lemma readRow_after (hc : σ.calls[i]? = some ⟨q, tr, .stmt l f k⟩) {j : ℕ} {c : CredCall B}
    (hj : (after σ i e q tr l f k).calls[j]? = some c) {r : PendingMfaRow}
    (hr : r ∈ readRow c.trace) :
    (∃ c₀, σ.calls[j]? = some c₀ ∧ r ∈ readRow c₀.trace) ∨
      j = i ∧ tr = [] ∧ l = .getPending r.tokenHash ∧ e.fault = false ∧
        σ.shared.auth.pendingMfa.get r.tokenHash = some r := by
  rcases after_cases hj with ⟨-, hj⟩ | ⟨rfl, rfl⟩
  · exact .inl ⟨c, hj, hr⟩
  rcases eq_or_ne tr [] with rfl | hne
  · refine .inr ⟨rfl, rfl, ?_⟩
    cases l
    case getPending hash =>
      simp only [readRow, List.nil_append, List.head?_cons, Option.bind_some] at hr
      split at hr
      · cases hr
      · next hf =>
        have hkey : r.tokenHash = hash := Table.get_key hr
        subst hkey
        exact ⟨rfl, by simpa using hf, hr⟩
    all_goals cases hr
  · rw [readRow_append hne] at hr
    exact .inl ⟨_, hc, hr⟩

lemma Bumped.append (h : Bumped hash tr) (ev : CredEv B) : Bumped hash (tr ++ [ev]) := by
  obtain ⟨ev', hev', hrest⟩ := h
  exact ⟨ev', List.mem_append_left _ hev', hrest⟩

/-- What is behind stays behind. -/
lemma behind_after (hc : σ.calls[i]? = some ⟨q, tr, .stmt l f k⟩) {j : ℕ} {c c₀ : CredCall B}
    (hj : (after σ i e q tr l f k).calls[j]? = some c) (hj₀ : σ.calls[j]? = some c₀)
    {r r' : PendingMfaRow} (h : Behind c₀ r r') : Behind c r r' := by
  rcases after_cases hj with ⟨-, hj⟩ | ⟨rfl, rfl⟩
  · cases hj₀.symm.trans hj
    exact h
  · cases hj₀.symm.trans hc
    rcases h with ⟨hres, -⟩ | ⟨hb, hlt⟩
    · cases hres
    · exact .inr ⟨hb.append _, hlt⟩

lemma withdrawn_after {step : ℤ} (hc : σ.calls[i]? = some ⟨q, tr, .stmt l f k⟩) {j : ℕ}
    {c c₀ : CredCall B} (hj : (after σ i e q tr l f k).calls[j]? = some c)
    (hj₀ : σ.calls[j]? = some c₀) (h : Withdrawn user step c₀) : Withdrawn user step c := by
  rcases after_cases hj with ⟨-, hj⟩ | ⟨rfl, rfl⟩
  · cases hj₀.symm.trans hj
    exact h
  · cases hj₀.symm.trans hc
    cases h.1

/-- What a request knows of the row that it has read. -/
lemma rows_after (hc : σ.calls[i]? = some ⟨q, tr, .stmt l f k⟩) (hσ : Good σ)
    (hdo : CredStep X l e σ.shared (f e σ.shared)) (hl : kind l ≠ .pend) {j : ℕ} {c : CredCall B}
    (hj : (after σ i e q tr l f k).calls[j]? = some c) {r row : PendingMfaRow}
    (hr : r ∈ readRow c.trace) (hrow : row ∈ (f e σ.shared).auth.pendingMfa.get r.tokenHash) :
    r.attempts ≤ row.attempts ∧ (Bumped r.tokenHash c.trace → r.attempts < row.attempts) ∧
      ¬Deleted r.tokenHash c.trace := by
  obtain ⟨row₀, hrow₀, hle⟩ := pending_mono hdo hl hrow
  rcases readRow_after hc hj hr with ⟨c₀, hj₀, hr₀⟩ | ⟨rfl, rfl, rfl, -, hget⟩
  · obtain ⟨hold, hbump, hdel⟩ := hσ.rows c₀ (List.mem_of_getElem? hj₀) r hr₀ row₀ hrow₀
    rcases after_cases hj with ⟨-, hj⟩ | ⟨rfl, rfl⟩
    · cases hj₀.symm.trans hj
      exact ⟨hold.trans hle, fun h => lt_of_lt_of_le (hbump h) hle, hdel⟩
    · cases hj₀.symm.trans hc
      refine ⟨hold.trans hle, ?_, ?_⟩
      · rintro ⟨ev, hev, hname, hinc⟩
        rcases List.mem_append.mp hev with hev | hev
        · exact lt_of_lt_of_le (hbump ⟨ev, hev, hname, hinc⟩) hle
        · rw [List.mem_singleton.mp hev] at hinc
          obtain ⟨row', hrow', heq⟩ := hinc row₀ hrow₀
          cases Option.mem_unique hrow hrow'
          omega
      · rintro ⟨ev, hev, hname, hnone⟩
        rcases List.mem_append.mp hev with hev | hev
        · exact hdel ⟨ev, hev, hname, hnone⟩
        · rw [List.mem_singleton.mp hev] at hnone
          cases hnone.symm.trans hrow
  · cases hget.symm.trans hrow₀
    have hc' : c.trace = [⟨.getPending r.tokenHash, e, σ.shared, f e σ.shared⟩] := by
      rcases after_cases hj with ⟨hne, -⟩ | ⟨-, rfl⟩
      · exact absurd rfl hne
      · rfl
    refine ⟨hle, ?_, ?_⟩
    · rintro ⟨ev, hev, hname, -⟩
      rw [hc', List.mem_singleton] at hev
      rw [hev] at hname
      cases hname
    · rintro ⟨ev, hev, hname, -⟩
      rw [hc', List.mem_singleton] at hev
      rw [hev] at hname
      cases hname

/-- A request that has just read the row finds the others out of the way. -/
lemma behind_fresh (hσ : Good σ) {r r' : PendingMfaRow} {c' : CredCall B}
    (hserial : Serial σ (.getPending r.tokenHash) e) (hf : e.fault = false)
    (hget : σ.shared.auth.pendingMfa.get r.tokenHash = some r) (hc' : c' ∈ σ.calls)
    (hr' : r' ∈ readRow c'.trace) (heq : r'.tokenHash = r.tokenHash) : Behind c' r' r := by
  have hrow := hσ.rows c' hc' r' hr' r (heq ▸ hget)
  rcases hserial hf (by rw [hget]; rfl) c' hc' r' hr' heq with hb | hd | hs
  · rw [← heq] at hb
    exact .inr ⟨hb, hrow.2.1 hb⟩
  · rw [← heq] at hd
    exact absurd hd hrow.2.2
  · exact .inl hs

lemma claims_after {step : ℤ} (hc : σ.calls[i]? = some ⟨q, tr, .stmt l f k⟩) {j : ℕ}
    {c : CredCall B} (hj : (after σ i e q tr l f k).calls[j]? = some c)
    (h : Claims user step c.trace) :
    (∃ c₀, σ.calls[j]? = some c₀ ∧ Claims user step c₀.trace) ∨
      j = i ∧ l = .totpStepUsed user step ∧ e.fault = false ∧
        σ.shared.usedSteps.get (user, step) = none := by
  rcases after_cases hj with ⟨-, hj⟩ | ⟨rfl, rfl⟩
  · exact .inl ⟨c, hj, h⟩
  obtain ⟨ev, hev, hname, hf, hnone⟩ := h
  rcases List.mem_append.mp hev with hev | hev
  · exact .inl ⟨_, hc, ev, hev, hname, hf, hnone⟩
  · cases List.mem_singleton.mp hev
    exact .inr ⟨rfl, hname, hf, hnone⟩

/-- One statement keeps the requests apart. -/
lemma good_after (hc : σ.calls[i]? = some ⟨q, tr, .stmt l f k⟩) (hσ : Good σ)
    (hdo : CredStep X l e σ.shared (f e σ.shared)) (hl : kind l ≠ .pend) (hserial : Serial σ l e) :
    Good (after σ i e q tr l f k) := by
  refine ⟨fun row hrow => ?_, fun c hc' r hr => ?_, fun c hc' r hr row hrow => ?_, ?_, ?_⟩
  · obtain ⟨row₀, hrow₀, hle⟩ := pending_mono hdo hl (Table.get_of_mem hrow)
    exact (hσ.nonneg row₀ (Table.get_mem hrow₀)).trans hle
  · obtain ⟨j, hj⟩ := List.mem_iff_getElem?.mp hc'
    rcases readRow_after hc hj hr with ⟨c₀, hj₀, hr₀⟩ | ⟨-, -, -, -, hget⟩
    · exact hσ.low c₀ (List.mem_of_getElem? hj₀) r hr₀
    · exact hσ.nonneg r (Table.get_mem hget)
  · obtain ⟨j, hj⟩ := List.mem_iff_getElem?.mp hc'
    exact rows_after hc hσ hdo hl hj hr hrow
  · intro m n c c' hmn hm hn r hr r' hr' heq
    -- of two requests at most one has just read its row
    rcases readRow_after hc hm hr with ⟨c₀, hm₀, hr₀⟩ | ⟨rfl, -, rfl, hf, hget⟩ <;>
      rcases readRow_after hc hn hr' with ⟨c₀', hn₀, hr₀'⟩ | ⟨hni, -, hl', hf', hget'⟩
    · rcases hσ.apart m n c₀ c₀' hmn hm₀ hn₀ r hr₀ r' hr₀' heq with h | h
      · exact .inl (behind_after hc hm hm₀ h)
      · exact .inr (behind_after hc hn hn₀ h)
    · subst hni hl'
      exact .inl (behind_after hc hm hm₀
        (behind_fresh hσ hserial hf' hget' (List.mem_of_getElem? hm₀) hr₀ heq))
    · exact .inr (behind_after hc hn hn₀
        (behind_fresh hσ hserial hf hget (List.mem_of_getElem? hn₀) hr₀' heq.symm))
    · exact absurd hni.symm hmn
  · intro m n c c' hmn hm hn user step h h'
    rcases claims_after hc hm h with ⟨c₀, hm₀, h₀⟩ | ⟨rfl, rfl, hf, hnone⟩ <;>
      rcases claims_after hc hn h' with ⟨c₀', hn₀, h₀'⟩ | ⟨hni, hl', hf', hnone'⟩
    · rcases hσ.once m n c₀ c₀' hmn hm₀ hn₀ user step h₀ h₀' with hw | hw
      · exact .inl (withdrawn_after hc hm hm₀ hw)
      · exact .inr (withdrawn_after hc hn hn₀ hw)
    · subst hni hl'
      exact .inl (withdrawn_after hc hm hm₀
        (hserial hf' hnone' c₀ (List.mem_of_getElem? hm₀) h₀))
    · exact .inr (withdrawn_after hc hn hn₀
        (hserial hf hnone c₀' (List.mem_of_getElem? hn₀) h₀'))
    · exact absurd hni.symm hmn

/-- A new request has read nothing. -/
lemma good_call {p : Prog (CredDb B) (AuthEnv B) CredStmt (CredReply B)} (hσ : Good σ) :
    Good (⟨σ.shared, σ.calls ++ [⟨q, [], p⟩]⟩ : CredSys B) := by
  have hold : ∀ {j : ℕ} {c : CredCall B}, (σ.calls ++ [⟨q, [], p⟩])[j]? = some c →
      c.trace ≠ [] → σ.calls[j]? = some c := by
    intro j c hj hne
    rw [List.getElem?_append] at hj
    split at hj
    · exact hj
    · rw [List.mem_singleton.mp (List.mem_of_getElem? hj)] at hne
      exact absurd rfl hne
  have hread : ∀ {c : CredCall B} {r}, r ∈ readRow c.trace → c.trace ≠ [] := by
    rintro c r hr hnil
    rw [hnil] at hr
    cases hr
  have hclaim : ∀ {c : CredCall B} {user step}, Claims user step c.trace → c.trace ≠ [] := by
    rintro c user step ⟨ev, hev, -⟩ hnil
    rw [hnil] at hev
    cases hev
  refine ⟨hσ.nonneg, fun c hc r hr => ?_, fun c hc r hr => ?_,
    fun m n c c' hmn hm hn r hr r' hr' => ?_, fun m n c c' hmn hm hn user step h h' => ?_⟩
  · obtain ⟨j, hj⟩ := List.mem_iff_getElem?.mp hc
    exact hσ.low c (List.mem_of_getElem? (hold hj (hread hr))) r hr
  · obtain ⟨j, hj⟩ := List.mem_iff_getElem?.mp hc
    exact hσ.rows c (List.mem_of_getElem? (hold hj (hread hr))) r hr
  · exact hσ.apart m n c c' hmn (hold hm (hread hr)) (hold hn (hread hr')) r hr r' hr'
  · exact hσ.once m n c c' hmn (hold hm (hclaim h)) (hold hn (hclaim h')) user step h h'

end Step

lemma good_init (hdb : ∀ row ∈ db.auth.pendingMfa.rows, 0 ≤ row.attempts) :
    Good (init db : CredSys B) :=
  ⟨hdb, (by simp [init]), (by simp [init]), (by simp [init]), (by simp [init])⟩

/-- Every request keeps to the order. -/
abbrev Orderly (X : CredExt B) (σ : CredSys B) : Prop :=
  Sound (shaped X) (fun q _ tr _ => Shape X q tr) (fun _ => Does X) σ

lemma Orderly.shape {σ : CredSys B} (hσ : Orderly X σ) {c : CredCall B} (hc : c ∈ σ.calls) :
    Shape X c.req c.trace := by
  obtain ⟨i, hi⟩ := List.mem_iff_getElem?.mp hc
  have hheld := hσ.held i c hi
  cases hp : c.prog with
  | ret a => rwa [hp] at hheld
  | stmt l f k => exact (hp ▸ hheld).1

lemma wp_code [DecidableEq B] (hq : (pendingHash X q).isSome) :
    wp (shaped X q) (code X q) (fun _ tr _ => Shape X q tr) [] db := by
  cases q with
  | verifyLoginTotp req =>
    exact (wp_bind _ _ _ _ _).mpr (wp_mono (fun _ _ _ h => h) (wp_verifyLoginTotp req))
  | verifyLoginRecovery req =>
    exact (wp_bind _ _ _ _ _).mpr (wp_mono (fun _ _ _ h => h) (wp_verifyLoginRecovery req))
  | _ => cases hq

/-- After every such run the requests are apart. -/
lemma run_good [DecidableEq B] (hdb : ∀ row ∈ db.auth.pendingMfa.rows, 0 ≤ row.attempts)
    {as : List (CredAct B)} (has : Along (code X) (Careful X) (init db) as) :
    Orderly X (run (code X) (init db) as) ∧ Good (run (code X) (init db) as) := by
  refine run_sound (C := Careful X) (fun _ q hq => wp_code hq) (fun q => does_code q)
    (fun _ _ _ _ => trivial) (fun _ _ _ _ _ h => h) (fun _ _ _ _ _ _ _ _ _ _ => trivial)
    (fun _ _ _ hσ => good_call hσ) ?_ ⟨sound_init db, good_init hdb⟩ has
  intro σ i e q tr l f k hc hC _ hsound hσ
  have hmem : (⟨q, tr ++ [⟨l, e, σ.shared, f e σ.shared⟩], k e σ.shared⟩ : CredCall B) ∈
      σ.calls.set i ⟨q, tr ++ [⟨l, e, σ.shared, f e σ.shared⟩], k e σ.shared⟩ :=
    List.mem_set (List.getElem?_eq_some_iff.mp hc).1 _
  have hlast : (⟨l, e, σ.shared, f e σ.shared⟩ : CredEv B) ∈
      tr ++ [⟨l, e, σ.shared, f e σ.shared⟩] := by simp
  exact good_after hc hσ (hsound.every hmem _ hlast)
    ((Orderly.shape hsound hmem).quiet _ hlast) (hC _ hc l rfl)

/-! ### What a request that succeeds has done -/

/-- The request was answered with a session. -/
def answered : Option (CredReply B) → Bool
  | some (.session (.ok _)) => true
  | _ => false

/-- The last part of a request decides what a success has done. -/
lemma wp_bind_any {β : Type} {x : CredHandler B β} {f : β → CredHandler B α}
    {P : α → List (CredEv B) → CredDb B → Prop}
    (h : ∀ b tr db, wp anyRules (f b).run (Ok P) tr db) :
    wp anyRules (x >>= f).run (Ok P) tr db := by
  refine wp_bind_ok (wp_trivial (fun _ => trivial) ?_ _ _ _)
  rintro (_ | b) tr db
  · trivial
  · exact h b tr db

lemma wp_completeLogin_issued :
    wp anyRules (completeLogin X hash user).run (Ok fun _ tr _ => Issued tr) tr db := by
  unfold completeLogin
  refine wp_bind_any fun _ tr db => wp_bind_any fun _ tr db => wp_bind_any fun _ tr db => ?_
  rw [wp_bind_except, wp_orInternal]
  refine wp_statement trivial (fun _ _ _ _ => trivial) fun db₁ e₁ _ _ => ?_
  split
  · rw [wp_bind_except]
    refine wp_of_guarantees (J := fun tr _ => Issued tr)
      (guarantees_ignored (guarantees_true _)) (fun _ _ _ _ => trivial) (fun _ _ _ => trivial)
      (fun _ _ _ _ h _ => h) ?_ ?_
      ⟨_, List.mem_append_right _ (List.mem_singleton_self _), rfl⟩
    · rintro tr ev ⟨ev', hev', hk⟩ -
      exact ⟨ev', List.mem_append_left _ hev', hk⟩
    · rintro (_ | _) tr db h
      · trivial
      · exact h
  · trivial

lemma wp_code_issued [DecidableEq B] (q : CredReq B) :
    wp anyRules (code X q) (fun a tr _ => answered (some a) = true → Issued tr) [] db := by
  have hok : ∀ (r : Except ApiError (LoginFinishResp String)) (tr : List (CredEv B)) (db : CredDb B),
      Ok (fun _ tr _ => Issued tr) r tr db → answered (B := B) (some (.session r)) = true →
        Issued tr := by
    rintro (_ | resp) tr db h ha
    · cases ha
    · exact h
  cases q with
  | verifyLoginTotp req =>
    refine (wp_bind _ _ _ _ _).mpr (wp_mono hok ?_)
    refine wp_bind_any fun user tr db => wp_bind_any fun secret tr db => wp_bind_any fun now tr db =>
      wp_bind_any fun lock tr db => ?_
    split
    · trivial
    refine wp_bind_any fun step tr db => ?_
    split
    · exact wp_bind_any fun _ tr db => wp_bind_any fun _ tr db => trivial
    · refine wp_bind_any fun used tr db => ?_
      split
      · trivial
      · exact wp_bind_any fun _ tr db => wp_bind_any fun _ tr db => wp_completeLogin_issued
  | verifyLoginRecovery req =>
    refine (wp_bind _ _ _ _ _).mpr (wp_mono hok ?_)
    refine wp_bind_any fun user tr db => wp_bind_any fun hit tr db => ?_
    split
    · exact wp_bind_any fun _ tr db => trivial
    · exact wp_completeLogin_issued
  | _ =>
    exact (wp_bind _ _ _ _ _).mpr (wp_trivial (fun _ => trivial) (fun _ _ _ h => by cases h) _ _ _)

/-! ### Single use -/

/-- What a request that succeeds has used up: a step of its user if it came with a one-time
code, and its recovery code otherwise. -/
structure Accounts (X : CredExt B) (c : CredCall B) : Prop where
  issued : Issued c.trace
  step : isTotp c.req = true → ∃ r ∈ readRow c.trace, ∃ step, Marks r.userId step c.trace
  code : ∀ code ∈ recoveryHash X c.req, ∃ r ∈ readRow c.trace, ∃ ev ∈ c.trace,
    Redeems r.userId code ev

/-- Two requests do not get sessions for the same pending token, do not use the same step of the
same user and do not use the same recovery code. -/
structure Apart (X : CredExt B) (c c' : CredCall B) : Prop where
  issued : Issued c.trace → Issued c'.trace → pendingHash X c.req ≠ pendingHash X c'.req
  step : ∀ user step, Marks user step c.trace → ¬Marks user step c'.trace
  code : ∀ user code, (∃ ev ∈ c.trace, Redeems user code ev) →
    ¬∃ ev ∈ c'.trace, Redeems user code ev

/-- The requests that have evaluated a code against the pending token. -/
def tries (X : CredExt B) (hash : String) (σ : CredSys B) : List (CredCall B) :=
  σ.calls.filter fun c => pendingHash X c.req = some hash && evaluated c.req c.trace

structure SingleUse (X : CredExt B) (σ : CredSys B) : Prop where
  accounts : ∀ c ∈ σ.calls, answered c.prog.result = true → Accounts X c
  apart : σ.calls.Pairwise (Apart X)
  tries : ∀ hash, (tries X hash σ).length ≤ 5

/-- A request that has evaluated a code and has counted no attempt is not behind another one. -/
lemma Behind.lt {c : CredCall B} {r r' : PendingMfaRow} (h : Behind c r r')
    (hev : evaluated c.req c.trace = true) : Bumped r.tokenHash c.trace ∧ r.attempts < r'.attempts := by
  rcases h with ⟨-, hno⟩ | h
  · rw [hev] at hno
    cases hno
  · exact h

lemma Bumped.kind (h : Bumped hash tr) : ∃ ev ∈ tr, kind ev.name = .bump := by
  obtain ⟨ev, hev, hname, -⟩ := h
  exact ⟨ev, hev, by rw [hname]; rfl⟩

section Run

variable {σ : CredSys B}

lemma issued_apart (ho : Orderly X σ) (hg : Good σ) {i j : ℕ} {c c' : CredCall B} (hij : i ≠ j)
    (hi : σ.calls[i]? = some c) (hj : σ.calls[j]? = some c') (h : Issued c.trace)
    (h' : Issued c'.trace) : pendingHash X c.req ≠ pendingHash X c'.req := by
  have hs := ho.shape (List.mem_of_getElem? hi)
  have hs' := ho.shape (List.mem_of_getElem? hj)
  obtain ⟨hev, hnb⟩ := hs.issued h
  obtain ⟨hev', hnb'⟩ := hs'.issued h'
  obtain ⟨hash, hq, -, r, hr, -, hkey, -⟩ := hs.opened hev
  obtain ⟨hash', hq', -, r', hr', -, hkey', -⟩ := hs'.opened hev'
  intro heq
  have hhash : hash = hash' := by
    rw [Option.mem_def] at hq hq'
    rw [hq, hq'] at heq
    exact Option.some.inj heq
  rcases hg.apart i j c c' hij hi hj r hr r' hr' (by rw [hkey, hkey', hhash]) with hb | hb
  · obtain ⟨ev, hmem, hk⟩ := (hb.lt hev).1.kind
    exact hnb ev hmem hk
  · obtain ⟨ev, hmem, hk⟩ := (hb.lt hev').1.kind
    exact hnb' ev hmem hk

lemma marks_apart (ho : Orderly X σ) (hg : Good σ) {i j : ℕ} {c c' : CredCall B} (hij : i ≠ j)
    (hi : σ.calls[i]? = some c) (hj : σ.calls[j]? = some c') {step : ℤ}
    (h : Marks user step c.trace) : ¬Marks user step c'.trace := by
  intro h'
  rcases hg.once i j c c' hij hi hj user step
    ((ho.shape (List.mem_of_getElem? hi)).claimed user step h)
    ((ho.shape (List.mem_of_getElem? hj)).claimed user step h') with hw | hw
  · exact hw.2 h
  · exact hw.2 h'

/-- The attempts that a request has found. -/
def found (c : CredCall B) : ℤ := ((readRow c.trace).map (·.attempts)).getD 0

/-- Those that have evaluated a code have found different numbers of attempts below five. -/
lemma tries_le (ho : Orderly X σ) (hg : Good σ) (hash : String) : (tries X hash σ).length ≤ 5 := by
  have hread : ∀ c ∈ tries X hash σ, ∃ r ∈ readRow c.trace, r.tokenHash = hash ∧
      found c = r.attempts ∧ 0 ≤ r.attempts ∧ r.attempts < 5 := by
    intro c hc
    simp only [tries, List.mem_filter, Bool.and_eq_true, decide_eq_true_eq] at hc
    obtain ⟨hmem, hq, hev⟩ := hc
    obtain ⟨hash', hq', -, r, hr, -, hkey, hlt⟩ := (ho.shape hmem).opened hev
    cases Option.mem_unique hq hq'
    exact ⟨r, hr, hkey, by rw [found, Option.mem_def.mp hr]; rfl, hg.low c hmem r hr, hlt⟩
  have hpair : σ.calls.Pairwise fun c c' => evaluated c.req c.trace = true →
      evaluated c'.req c'.trace = true → ∀ r ∈ readRow c.trace, ∀ r' ∈ readRow c'.trace,
        r.tokenHash = r'.tokenHash → r.attempts ≠ r'.attempts := by
    rw [List.pairwise_iff_getElem]
    intro i j hi hj hij hev hev' r hr r' hr' heq
    rcases hg.apart i j _ _ (Nat.ne_of_lt hij) (List.getElem?_eq_getElem hi)
      (List.getElem?_eq_getElem hj) r hr r' hr' heq with hb | hb
    · exact ne_of_lt (hb.lt hev).2
    · exact ne_of_gt (hb.lt hev').2
  have hnodup : ((tries X hash σ).map found).Nodup := by
    refine List.pairwise_map.mpr ((hpair.filter _).imp_of_mem fun {c c'} hc hc' hne => ?_)
    obtain ⟨r, hr, hkey, hfound, -⟩ := hread c hc
    obtain ⟨r', hr', hkey', hfound', -⟩ := hread c' hc'
    rw [hfound, hfound']
    exact hne (Bool.and_eq_true_iff.mp (List.mem_filter.mp hc).2).2
      (Bool.and_eq_true_iff.mp (List.mem_filter.mp hc').2).2 r hr r' hr' (hkey.trans hkey'.symm)
  have hsub : ((tries X hash σ).map found).toFinset ⊆ Finset.Ico 0 5 := by
    intro n hn
    obtain ⟨c, hc, rfl⟩ := List.mem_map.mp (List.mem_toFinset.mp hn)
    obtain ⟨r, -, -, hfound, hlow, hlt⟩ := hread c hc
    rw [hfound, Finset.mem_Ico]
    exact ⟨hlow, hlt⟩
  have hcard := Finset.card_le_card hsub
  rwa [List.toFinset_card_of_nodup hnodup, List.length_map, Int.card_Ico] at hcard

end Run

/-- **Single use**: in every interleaving of the requests of the second step in which a request
reads a pending row or looks up a step when no other request is on its way with it. -/
theorem second_factor_single_use [DecidableEq B] (X : CredExt B) (db : CredDb B)
    (hdb : ∀ row ∈ db.auth.pendingMfa.rows, 0 ≤ row.attempts) (as : List (CredAct B))
    (has : Along (code X) (Careful X) (init db) as) :
    SingleUse X (run (code X) (init db) as) := by
  obtain ⟨ho, hg⟩ := run_good hdb has
  refine ⟨fun c hc ha => ?_, ?_, tries_le ho hg⟩
  · have hissued : Issued c.trace := by
      cases hres : c.prog.result with
      | none =>
        rw [hres] at ha
        cases ha
      | some a => exact run_post (fun q _ => wp_code_issued (X := X) q) db as c hc a hres (hres ▸ ha)
    exact ⟨hissued, (ho.shape hc).marked hissued, (ho.shape hc).redeemed hissued⟩
  · rw [List.pairwise_iff_getElem]
    intro i j hi hj hij
    have hi' := List.getElem?_eq_getElem hi
    have hj' := List.getElem?_eq_getElem hj
    refine ⟨issued_apart ho hg (Nat.ne_of_lt hij) hi' hj',
      fun user step => marks_apart ho hg (Nat.ne_of_lt hij) hi' hj', ?_⟩
    rintro user code ⟨ev, hev, hD⟩ ⟨ev', hev', hD'⟩
    have := run_once (D := Redeems user code) (does_code (X := X)) (fun _ h => h.2.1)
      (fun _ h => h.2.2) (fun _ h => usedUp_does h) db as hi' hj' hev hD hev' hD'
    omega

instance (c : CredCall B) : Decidable (Spent c) := inferInstanceAs (Decidable (_ ∧ _))
instance (step : ℤ) (tr : List (CredEv B)) : Decidable (Marks user step tr) :=
  inferInstanceAs (Decidable (∃ ev ∈ _, _))
instance (step : ℤ) (tr : List (CredEv B)) : Decidable (Claims user step tr) :=
  inferInstanceAs (Decidable (∃ ev ∈ _, _ ∧ _ ∧ _))
instance (step : ℤ) (c : CredCall B) : Decidable (Withdrawn user step c) :=
  inferInstanceAs (Decidable (_ ∧ _))
instance (tr : List (CredEv B)) : Decidable (Bumped hash tr) :=
  inferInstanceAs (Decidable (∃ ev ∈ _, _ ∧ ∀ row ∈ _, ∃ row' ∈ _, _))
instance (tr : List (CredEv B)) : Decidable (Deleted hash tr) :=
  inferInstanceAs (Decidable (∃ ev ∈ _, _ ∧ _))
instance (tr : List (CredEv B)) : Decidable (Issued tr) := inferInstanceAs (Decidable (∃ ev ∈ _, _))

instance (σ : CredSys B) (e : AuthEnv B) : ∀ l, Decidable (Serial σ l e) := fun l => by
  unfold Serial
  split <;> infer_instance

instance (σ : CredSys B) : ∀ a, Decidable (Careful X σ a)
  | .call _ => inferInstanceAs (Decidable (_ = true))
  | .exec _ _ => inferInstanceAs (Decidable (∀ c ∈ _, ∀ l ∈ _, Serial _ _ _))

/-- A user in the second step of a login, with a one-time secret and a recovery code. -/
def secondStep : CredDb (List ℕ) :=
  { oneUser with
    auth := { oneUser.auth with pendingMfa := ⟨[⟨"pending", 1, 0, 1000, 0⟩], by decide⟩ }
    totpSecrets := ⟨[(1, [7])], by decide⟩
    recoveryCodes := ⟨[⟨1, "code", false⟩], by decide⟩ }

/-- The user sends a wrong code, and then a one-time code and a recovery code with the same
pending token; the last request comes after the one before it has run `n` statements. -/
def sentBoth (n : ℕ) : List (CredAct (List ℕ)) :=
  let e : AuthEnv (List ℕ) := ⟨1, 5, [], false⟩
  serving 0 (.verifyLoginRecovery ⟨"pending", "wrong"⟩) 4 e ++
  serving 1 (.verifyLoginTotp ⟨"pending", bytes.totpGenerate [7] 0⟩) n e ++
  serving 2 (.verifyLoginRecovery ⟨"pending", "code"⟩) 8 { e with uuid := 6 } ++
  List.replicate (15 - n) (.exec 1 e)

theorem second_factor_single_use_serial :
    Along (code bytes) (Careful bytes) (init secondStep) (sentBoth 15) ∧
    SingleUse bytes (run (code bytes) (init secondStep) (sentBoth 15)) :=
  ⟨by decide +kernel, second_factor_single_use bytes secondStep (by decide +kernel) (sentBoth 15)
    (by decide +kernel)⟩

/-- Two requests that both read the pending row before one deletes it both get a session. -/
theorem pending_token_used_twice :
    ¬∀ as : List (CredAct (List ℕ)), SingleUse bytes (run (code bytes) (init secondStep) as) := by
  intro h
  have := (h (sentBoth 1)).apart.imp fun hc => hc.issued
  revert this
  decide +kernel

end Vautr.SecondFactor
