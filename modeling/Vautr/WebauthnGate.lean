import Vautr.Bearer
import Vautr.Webauthn

/-!
The wrapped key behind the second factor.

`account_status` withholds the wrapped key as long as the user has a security key and the
session carries no mark. The mark is set by `assert_verify` as soon as the signature is
checked, before the sign count is looked at and stored, so an assertion that is refused
because of its sign count leaves the mark behind. And whoever has a session may remove the
last security key with it, which lifts the requirement.
-/

namespace Vautr.WebauthnGate

open Vautr.Atomic Vautr.Interleave Vautr.Sql Vautr.Database Vautr.Api Vautr.Server Vautr.Auth
open Vautr.Zoom Vautr.Credentials Vautr.Tokens Vautr.CredEffects Vautr.Webauthn

variable {B α : Type} {X : WebauthnExt B} {db db' : WebauthnDb B} {tr : List (WebauthnEv B)}

/-! ### What a statement can do -/

/-- The user has registered a security key. -/
def HasKey (user : Ident) (db : WebauthnDb B) : Prop := ∃ r ∈ db.credentials.rows, r.userId = user

instance (user : Ident) (db : WebauthnDb B) : Decidable (HasKey user db) :=
  inferInstanceAs (Decidable (∃ r ∈ _, _))

inductive WebauthnStep : WebauthnStmt → WebauthnDb B → WebauthnDb B → Prop
  | same (l : WebauthnStmt) (db : WebauthnDb B) : WebauthnStep l db db
  | cred (l : CredStmt) (db : WebauthnDb B) (c : CredDb B) :
      WebauthnStep (.cred l) db { db with cred := c }
  | regs (l : WebauthnStmt) (db : WebauthnDb B)
      (regs : Table (Registration.requestId : Registration B → String)) :
      WebauthnStep l db { db with regs }
  | auths (l : WebauthnStmt) (db : WebauthnDb B)
      (auths : Table (Assertion.requestId : Assertion B → String)) :
      WebauthnStep l db { db with auths }
  | add (row : WebauthnCredentialRow B) (db : WebauthnDb B)
      (credentials : Table (WebauthnCredentialRow.key : WebauthnCredentialRow B → Ident × String))
      (h : db.credentials.insert row = some credentials) :
      WebauthnStep (.addCredential row.userId row.credId) db (db.setCredentials credentials)
  | update (user : Ident) (credId : String) (counter now : ℤ) (serialized : B)
      (db : WebauthnDb B) :
      WebauthnStep (.updateCounter user credId) db (db.setCredentials (db.credentials.update
        (fun r => r.userId = user && r.credId = credId)
        (fun r => { r with counter, serialized, updatedAt := now }) (by intro r; rfl)))
  | remove (user : Ident) (credId : String) (db : WebauthnDb B) :
      WebauthnStep (.removeCredential user credId) db (db.setCredentials
        (db.credentials.delete fun r => r.userId = user && r.credId = credId))
  | mark (token : String) (db : WebauthnDb B) :
      WebauthnStep (.markSatisfied token) db { db with verified := db.verified.insert token }

/-- The token that a statement marks. -/
def marking : WebauthnStmt → Option String
  | .markSatisfied token => some token
  | _ => none

/-- The statement is one of the above, and only an `assert_verify` marks its own token. -/
def Does (q : WebauthnReq B) (ev : WebauthnEv B) : Prop :=
  WebauthnStep ev.name ev.pre ev.post ∧
    ∀ token ∈ marking ev.name, ∃ req, q = .assertVerify token req

lemma does_unmarked {q : WebauthnReq B} {l : WebauthnStmt} {e : AuthEnv B}
    (h : WebauthnStep l db db') (hl : marking l = none) : Does q ⟨l, e, db, db'⟩ :=
  ⟨h, fun token ht => by rw [hl] at ht; cases ht⟩

/-- A user loses the security key to a `remove_credential` of the only one. -/
lemma hasKey_cases {l : WebauthnStmt} (h : WebauthnStep l db db') {user : Ident}
    (hk : HasKey user db) : HasKey user db' ∨ ∃ credId, l = .removeCredential user credId ∧
      db'.cred.auth.sessions = db.cred.auth.sessions ∧
      ∀ r ∈ db.credentials.rows, r.userId = user → r.credId = credId := by
  obtain ⟨r, hr, hu⟩ := hk
  cases h
  case add row credentials h =>
    refine .inl ⟨r, ?_, hu⟩
    change r ∈ credentials.rows
    rw [(Table.insert_eq_some h).2]
    exact List.mem_append_left _ hr
  case update user' credId counter now serialized =>
    refine .inl ⟨_, List.mem_map_of_mem hr, ?_⟩
    split <;> exact hu
  case remove user' credId =>
    by_cases hother : ∃ r' ∈ db.credentials.rows, r'.userId = user ∧
        (r'.userId = user' && r'.credId = credId) = false
    · obtain ⟨r', hr', hu', hkeep⟩ := hother
      exact .inl ⟨r', Table.mem_delete.mpr ⟨hr', hkeep⟩, hu'⟩
    · have hhit : ∀ r' ∈ db.credentials.rows, r'.userId = user →
          r'.userId = user' ∧ r'.credId = credId := by
        intro r' hr' hu'
        by_contra hne
        exact hother ⟨r', hr', hu', by simpa using hne⟩
      obtain rfl : user = user' := hu.symm.trans (hhit r hr hu).1
      exact .inr ⟨credId, rfl, rfl, fun r' hr' hu' => (hhit r' hr' hu').2⟩
  all_goals exact .inl ⟨r, hr, hu⟩

/-- Marks stay, and a new one is that of the statement. -/
lemma verified_cases {l : WebauthnStmt} (h : WebauthnStep l db db') {token : String}
    (ht : token ∈ db'.verified) : token ∈ db.verified ∨ l = .markSatisfied token := by
  cases h
  case mark token' =>
    rcases List.mem_insert_iff.mp ht with rfl | ht
    · exact .inr rfl
    · exact .inl ht
  all_goals exact .inl ht

lemma verified_of_unmarked {l : WebauthnStmt} (h : WebauthnStep l db db') (hl : marking l = none) :
    db'.verified = db.verified := by
  cases h
  case mark => cases hl
  all_goals rfl

/-! ### What the requests run -/

section Handlers

variable {rely : WebauthnStmt → WebauthnDb B → WebauthnDb B → Prop} {q : WebauthnReq B}

lemma does_onCred (x : CredHandler B α) : Guarantees rely (Does q) (onCred x).run :=
  guarantees_zoom_part x.run fun l _ t s => does_unmarked (.cred l t s) rfl

lemma does_statement {l : WebauthnStmt} (hl : marking l = none)
    {g : AuthEnv B → WebauthnDb B → WebauthnDb B × Except SqlError α}
    (h : ∀ e db, WebauthnStep l db (g e db).1) : Guarantees rely (Does q) (statement l g).run :=
  guarantees_statement (fun _ _ => does_unmarked (.same _ _) hl) fun e s => does_unmarked (h e s) hl

lemma does_orInternalError (r : Except String α) :
    Guarantees rely (Does q) (orInternalError r : WebauthnHandler B α).run := by
  cases r with
  | ok a => exact guarantees_pure_except a
  | error msg => exact guarantees_throw_except _

lemma does_listWebauthnCredentials (user : Ident) :
    Guarantees rely (Does q) (listWebauthnCredentials user : WebauthnRepo B _).run :=
  does_statement rfl fun _ _ => .same _ _

lemma does_addWebauthnCredential (row : WebauthnCredentialRow B) :
    Guarantees rely (Does q) (addWebauthnCredential row).run := by
  refine does_statement rfl fun e db => ?_
  cases h : db.credentials.insert row with
  | none => exact .same _ _
  | some credentials =>
    dsimp only
    split
    · exact .add row db credentials h
    · exact .same _ _

lemma does_registerStart (bearer label : String) :
    Guarantees rely (Does q) (registerStart X bearer label).run :=
  guarantees_bind_except (does_onCred _) fun _ =>
    guarantees_bind_except (guarantees_orInternal (does_listWebauthnCredentials _)) fun _ =>
    guarantees_bind_except (does_onCred _) fun _ =>
    guarantees_bind_except (does_orInternalError _) fun _ =>
    guarantees_bind_except (does_onCred _) fun _ =>
    guarantees_bind_except (guarantees_stmt (fun _ _ => does_unmarked (.regs _ _ _) rfl)
      fun _ _ => guarantees_ret _) fun _ =>
    guarantees_bind_except (does_orInternalError _) fun _ => guarantees_pure_except _

lemma does_registerVerify (bearer : String) (req : CeremonyReq B) :
    Guarantees rely (Does q) (registerVerify X bearer req).run := by
  refine guarantees_bind_except (does_onCred _) fun user =>
    guarantees_bind_except (guarantees_stmt (fun _ _ => does_unmarked (.regs _ _ _) rfl)
      fun _ _ => guarantees_ret _) ?_
  rintro (_ | reg)
  · exact guarantees_throw_except _
  dsimp only
  split
  · exact guarantees_throw_except _
  split
  · exact guarantees_throw_except _
  split
  · exact guarantees_throw_except _
  · exact guarantees_bind_except (does_orInternalError _) fun _ =>
      guarantees_bind_except (does_onCred _) fun _ =>
      guarantees_orInternal (does_addWebauthnCredential _)

lemma does_assertStart (bearer : String) : Guarantees rely (Does q) (assertStart X bearer).run := by
  refine guarantees_bind_except (does_onCred _) fun user =>
    guarantees_bind_except (guarantees_orInternal (does_listWebauthnCredentials _)) fun rows => ?_
  split
  · exact guarantees_throw_except _
  · exact guarantees_bind_except (does_orInternalError _) fun _ =>
      guarantees_bind_except (does_onCred _) fun _ =>
      guarantees_bind_except (does_orInternalError _) fun _ =>
      guarantees_bind_except (does_onCred _) fun _ =>
      guarantees_bind_except (guarantees_stmt (fun _ _ => does_unmarked (.auths _ _ _) rfl)
        fun _ _ => guarantees_ret _) fun _ =>
      guarantees_bind_except (does_orInternalError _) fun _ => guarantees_pure_except _

lemma does_persistCounter (user : Ident) (res : AuthenticationResult B) :
    Guarantees rely (Does q) (persistCounter X user res).run := by
  refine guarantees_bind_except (does_onCred _) fun now =>
    guarantees_bind_except (guarantees_orInternal (does_statement rfl fun _ _ => .same _ _)) ?_
  rintro (_ | ⟨serialized, oldCounter⟩)
  · exact guarantees_pure_except _
  dsimp only
  split
  · exact guarantees_bind_except (does_onCred _) fun _ => guarantees_throw_except _
  split
  · exact guarantees_pure_except _
  · exact guarantees_bind_except (does_orInternalError _) fun _ =>
      guarantees_bind_except (guarantees_orInternal (does_statement rfl
        fun _ _ => .update _ _ _ _ _ _)) fun _ => guarantees_pure_except _

lemma does_assertVerify (bearer : String) (req : CeremonyReq B) :
    Guarantees rely (Does (.assertVerify bearer req)) (assertVerify X bearer req).run := by
  refine guarantees_bind_except (does_onCred _) fun user =>
    guarantees_bind_except (guarantees_stmt (fun _ _ => does_unmarked (.auths _ _ _) rfl)
      fun _ _ => guarantees_ret _) ?_
  rintro (_ | assertion)
  · exact guarantees_throw_except _
  dsimp only
  split
  · exact guarantees_throw_except _
  split
  · exact guarantees_throw_except _
  split
  · exact guarantees_throw_except _
  · refine guarantees_bind_except (guarantees_stmt (fun _ _ => ⟨.mark _ _, ?_⟩)
      fun _ _ => guarantees_ret _) fun _ => does_persistCounter _ _
    rintro token ⟨⟩
    exact ⟨req, rfl⟩

lemma does_accountStatus (bearer : String) :
    Guarantees rely (Does q) (accountStatus X bearer).run := by
  refine guarantees_bind_except (does_onCred _) fun user =>
    guarantees_bind_except (does_onCred _) ?_
  rintro (_ | row)
  · exact guarantees_throw_except _
  refine guarantees_bind_except (guarantees_bind_except
    (guarantees_orInternal (does_statement rfl fun _ _ => .same _ _)) fun has => ?_) fun hold => ?_
  · split
    · exact guarantees_bind_except (guarantees_stmt (fun _ _ => does_unmarked (.same _ _) rfl)
        fun _ _ => guarantees_ret _) fun _ => guarantees_pure_except _
    · exact guarantees_pure_except _
  · split
    · exact guarantees_pure_except _
    · refine guarantees_bind_except (guarantees_bind_except (does_onCred _) fun required => ?_)
        fun _ => guarantees_pure_except _
      split
      · refine guarantees_bind_except (does_onCred _) fun totp => ?_
        split <;> exact guarantees_pure_except _
      · exact guarantees_pure_except _

/-- **Every statement of every request** is one of the list. -/
theorem does_serve [DecidableEq B] (q : WebauthnReq B) : Guarantees rely (Does q) (serve X q) := by
  cases q with
  | cred q =>
    refine guarantees_bind ?_ fun _ => guarantees_ret _
    exact guarantees_zoom_part _ fun l _ t s => does_unmarked (.cred l t s) rfl
  | registerStart bearer label =>
    exact guarantees_bind (does_registerStart _ _) fun _ => guarantees_ret _
  | registerVerify bearer req =>
    exact guarantees_bind (does_registerVerify _ _) fun _ => guarantees_ret _
  | assertStart bearer => exact guarantees_bind (does_assertStart _) fun _ => guarantees_ret _
  | assertVerify bearer req =>
    exact guarantees_bind (does_assertVerify _ _) fun _ => guarantees_ret _
  | webauthnStatus bearer =>
    refine guarantees_bind (guarantees_bind_except (does_onCred _) fun _ => ?_)
      fun _ => guarantees_ret _
    exact guarantees_bind_except (guarantees_orInternal (does_listWebauthnCredentials _))
      fun _ => guarantees_pure_except _
  | listCredentials bearer =>
    refine guarantees_bind (guarantees_bind_except (does_onCred _) fun _ => ?_)
      fun _ => guarantees_ret _
    exact guarantees_bind_except (guarantees_orInternal (does_listWebauthnCredentials _))
      fun _ => guarantees_pure_except _
  | removeCredential bearer credId =>
    refine guarantees_bind (guarantees_bind_except (does_onCred _) fun _ => ?_)
      fun _ => guarantees_ret _
    refine guarantees_bind_except (guarantees_orInternal (does_statement rfl
      fun _ _ => .remove _ _ _)) fun hit => ?_
    split
    · exact guarantees_throw_except _
    · exact guarantees_pure_except _
  | accountStatus bearer => exact guarantees_bind (does_accountStatus _) fun _ => guarantees_ret _

end Handlers

/-! ### One request -/

/-- An `assert_verify` that has set the mark goes on without an error: no statement fails, and
the sign count has not regressed. -/
def Uncloned (l : WebauthnStmt) (e : AuthEnv B) (db : WebauthnDb B) : Prop :=
  match l with
  | .getCredential user credId counter => e.fault = false ∧
    ∀ r ∈ db.credentials.get (user, credId), ¬(0 < r.counter ∧ counter ≤ r.counter)
  | .updateCounter _ _ => e.fault = false
  | _ => True

instance (l : WebauthnStmt) (e : AuthEnv B) (db : WebauthnDb B) : Decidable (Uncloned l e db) :=
  match l with
  | .getCredential _ _ _ => inferInstanceAs (Decidable (_ ∧ ∀ r ∈ _, ¬(_ ∧ _)))
  | .updateCounter _ _ => inferInstanceAs (Decidable (_ = false))
  | .cred _ | .listCredentials _ | .hasCredentials _ | .addCredential _ _ | .removeCredential _ _
  | .putRegistration | .takeRegistration _ | .putAssertion | .takeAssertion _ | .markSatisfied _
  | .isSatisfied _ => inferInstanceAs (Decidable True)

/-- Security keys have a JSON form. -/
def Serializes (X : WebauthnExt B) : Prop := ∀ sk, ∃ v, X.toVec sk = .ok v

def rules : Rules (WebauthnDb B) (AuthEnv B) WebauthnStmt :=
  assume (fun _ _ _ => True) fun tr => ∀ ev ∈ tr.getLast?, Uncloned ev.name ev.inp ev.pre

/-- What the rules say of the last statement. -/
lemma uncloned_of_ok {ev : WebauthnEv B} (h : (rules (B := B)).ok (tr ++ [ev])) :
    Uncloned ev.name ev.inp ev.pre := h ev List.getLast?_concat

lemma wp_persistCounter (hX : Serializes X) (user : Ident) (res : AuthenticationResult B) :
    wp rules (persistCounter X user res).run (fun r _ _ => ∃ a, r = .ok a) tr db := by
  unfold persistCounter
  rw [wp_bind_except]
  refine ⟨trivial, fun db₁ e₁ _ _ => ?_⟩
  change wp rules (ExceptT.run (orInternal _ >>= _)) _ _ _
  rw [wp_bind_except, wp_orInternal]
  refine wp_statement_cases trivial (fun db₂ e₂ hf _ hok => ?_) fun db₂ e₂ _ _ hok => ?_
  · have hnf : e₂.fault = false := (uncloned_of_ok hok).1
    exact absurd (hf.symm.trans hnf) (by decide)
  have hcount := (uncloned_of_ok hok).2
  cases hget : db₂.credentials.get (user, X.b64url res.credId) with
  | none => simp only [hget]; exact ⟨user, rfl⟩
  | some row =>
    simp only [hget]
    change wp rules (ExceptT.run (if 0 < row.counter ∧ (res.counter : ℤ) ≤ row.counter then _ else _))
      _ _ _
    rw [if_neg (hcount row hget)]
    split
    · exact ⟨user, rfl⟩
    · next sk hsk =>
      obtain ⟨v, hv⟩ := hX (X.updateCredential sk res)
      rw [wp_bind_except, hv]
      change wp rules (ExceptT.run (orInternal _ >>= _)) _ _ _
      rw [wp_bind_except, wp_orInternal]
      refine wp_statement_cases trivial (fun db₃ e₃ hf _ hok => ?_) fun db₃ e₃ _ _ _ => ⟨user, rfl⟩
      have hnf : e₃.fault = false := uncloned_of_ok hok
      exact absurd (hf.symm.trans hnf) (by decide)

/-- No statement has set a mark. -/
def NoMark (tr : List (WebauthnEv B)) : Prop := ∀ ev ∈ tr, marking ev.name = none

lemma NoMark.append {ev : WebauthnEv B} (h : NoMark tr) (hev : marking ev.name = none) :
    NoMark (tr ++ [ev]) := every_append h hev

/-- An `assert_verify` that fails has set no mark. -/
lemma wp_assertVerify (hX : Serializes X) (bearer : String) (req : CeremonyReq B) :
    wp rules (assertVerify X bearer req).run (fun r tr _ => ∀ err, r = .error err → NoMark tr) []
      db := by
  unfold assertVerify
  rw [wp_bind_except]
  have hcred : Guarantees (fun _ _ _ => True) (fun ev => marking ev.name = none)
      (onCred (authUser X.toCredExt bearer)).run :=
    guarantees_zoom_part _ fun _ _ _ _ => rfl
  refine wp_of_guarantees (J := fun tr _ => NoMark tr) hcred (fun _ _ _ _ => trivial)
    (fun _ _ _ => trivial) (fun _ _ _ _ h _ => h) (fun _ _ h hev => h.append hev) ?_ (by simp [NoMark])
  rintro (_ | user) tr db h
  · exact fun _ _ => h
  dsimp only
  rw [wp_bind_except]
  refine ⟨trivial, fun db₁ e₁ _ _ => ?_⟩
  have h' : ∀ db₂, NoMark (tr ++ [⟨.takeAssertion req.requestId, e₁, db₁, db₂⟩]) :=
    fun _ => h.append rfl
  simp only [wp_ret]
  cases db₁.auths.get req.requestId with
  | none => exact fun _ _ => h' _
  | some assertion =>
    dsimp only
    split
    · exact fun _ _ => h' _
    split
    · exact fun _ _ => h' _
    split
    · exact fun _ _ => h' _
    · next res _ =>
      rw [wp_bind_except]
      refine ⟨trivial, fun db₂ e₂ _ _ => ?_⟩
      simp only [wp_ret]
      refine wp_mono ?_ (wp_persistCounter hX user res)
      rintro r tr db ⟨a, rfl⟩ err herr
      cases herr

/-- An `account_status` that hands out the wrapped key has found that the user has no
security key or that its session is marked. -/
def Ungated (bearer : String) (user : Ident) (tr : List (WebauthnEv B)) : Prop :=
  ∃ ev ∈ tr, ¬HasKey user ev.pre ∨ ev.name = .isSatisfied bearer ∧ bearer ∈ ev.pre.verified

lemma Ungated.append {bearer : String} {user : Ident} (h : Ungated bearer user tr)
    (ev : WebauthnEv B) : Ungated bearer user (tr ++ [ev]) := by
  obtain ⟨ev', hev', hrest⟩ := h
  exact ⟨ev', List.mem_append_left _ hev', hrest⟩

lemma wp_withheld (bearer : String) (user : Ident) :
    wp rules (withheld bearer user).run (Ok fun held tr _ => held = false → Ungated bearer user tr)
      tr db := by
  refine wp_bind_ok (wp_orInternal_ok (wp_select_ok fun db₁ e₁ _ _ _ => ?_))
  split
  · refine wp_bind_ok ⟨trivial, fun db₂ e₂ _ _ => ?_⟩
    intro hheld
    refine ⟨⟨.isSatisfied bearer, e₂, db₂, db₂⟩, List.mem_append_right _ (List.mem_singleton_self _),
      .inr ⟨rfl, ?_⟩⟩
    simpa using hheld
  · next hnone =>
    intro _
    refine ⟨⟨_, e₁, db₁, db₁⟩, List.mem_append_right _ (List.mem_singleton_self _), .inl ?_⟩
    rintro ⟨r, hr, hu⟩
    exact hnone (List.any_eq_true.mpr ⟨r, hr, by simpa using hu⟩)

lemma wp_accountStatus (bearer : String) :
    wp rules (accountStatus X bearer).run
      (Ok fun resp tr _ => resp.svkCiphertextBlob ≠ "" → Ungated bearer resp.userId tr) tr db := by
  refine wp_bind_ok (wp_trivial (fun _ => trivial) (fun r tr db => ?_) _ _ _)
  rcases r with _ | user
  · trivial
  refine wp_bind_ok (wp_trivial (fun _ => trivial) (fun r tr db => ?_) _ _ _)
  rcases r with _ | _ | row
  · trivial
  · trivial
  refine wp_bind_ok (wp_mono ?_ (wp_withheld bearer user))
  rintro (_ | held) tr db h
  · trivial
  change wp rules (ExceptT.run (if held = true then _ else _)) _ _ _
  split
  · exact fun hne => absurd rfl hne
  · next hheld =>
    refine wp_bind_ok (wp_of_guarantees (J := fun tr _ => Ungated bearer user tr)
      (guarantees_true _) (fun _ _ _ _ => trivial) (fun _ _ _ => trivial) (fun _ _ _ _ h _ => h)
      (fun _ ev h _ => h.append ev) ?_ (h (by simpa using hheld)))
    rintro (_ | method) tr db h
    · trivial
    · exact fun _ => h

/-! ### Runs -/

/-- What stands behind an answer. -/
def Post : WebauthnReq B → WebauthnReply B → List (WebauthnEv B) → WebauthnDb B → Prop
  | .assertVerify _ _, a, tr, _ => ∃ r, a = .asserted r ∧ ∀ err, r = .error err → NoMark tr
  | .accountStatus bearer, .account (.ok resp), tr, _ =>
    resp.svkCiphertextBlob ≠ "" → Ungated bearer resp.userId tr
  | _, _, _, _ => True

lemma wp_serve [DecidableEq B] (hX : Serializes X) (q : WebauthnReq B) :
    wp rules (serve X q) (Post q) [] db := by
  cases q with
  | assertVerify bearer req =>
    refine (wp_bind _ _ _ _ _).mpr (wp_mono (fun r tr db h => ?_) (wp_assertVerify hX bearer req))
    exact ⟨r, rfl, h⟩
  | accountStatus bearer =>
    refine (wp_bind _ _ _ _ _).mpr (wp_mono ?_ (wp_accountStatus bearer))
    rintro (_ | resp) tr db h <;> exact h
  | _ => exact wp_trivial (fun _ => trivial) (fun _ _ _ => trivial) _ _ _

lemma post_any {q : WebauthnReq B} {a : WebauthnReply B} (h : Post q a tr db) : Post q a tr db' := by
  unfold Post at h ⊢
  split at h <;> exact h

/-- The call is an `assert_verify` with the session and has succeeded. -/
def asserted (X : WebauthnExt B) (hash : String) (c : WebauthnCall B) : Bool :=
  match c.req, c.prog.result with
  | .assertVerify bearer _, some (.asserted (.ok _)) => X.hashToken bearer = hash
  | _, _ => false

/-- The session has satisfied the second factor. -/
def Satisfied (X : WebauthnExt B) (σ : WebauthnSys B) (hash : String) : Prop :=
  ∃ c ∈ σ.calls, asserted X hash c = true

instance (X : WebauthnExt B) (σ : WebauthnSys B) (hash : String) : Decidable (Satisfied X σ hash) :=
  inferInstanceAs (Decidable (∃ c ∈ _, _))

/-- The call has set the mark of the token. -/
def Marked (token : String) (c : WebauthnCall B) : Prop :=
  ∃ ev ∈ c.trace, marking ev.name = some token

instance (token : String) (c : WebauthnCall B) : Decidable (Marked token c) :=
  inferInstanceAs (Decidable (∃ ev ∈ _, _))

/-- The sessions that a statement has created for users with a security key. -/
def bound (ev : WebauthnEv B) : List SessionRow :=
  ev.post.cred.auth.sessions.rows.filter fun r =>
    (ev.pre.cred.auth.sessions.get r.tokenHash).isNone && decide (HasKey r.userId ev.pre)

/-- While `account_status` looks at the mark of a session, no `assert_verify` with it is between
its mark and its answer; and a user's last security key is removed only when every session
that was created for the user under a security key has satisfied the factor. -/
def Settled (X : WebauthnExt B) (σ : WebauthnSys B) (l : WebauthnStmt) : Prop :=
  match l with
  | .isSatisfied token => ∀ c ∈ σ.calls, Marked token c → c.prog.result.isSome
  | .removeCredential user credId =>
    (∀ r ∈ σ.shared.credentials.rows, r.userId = user → r.credId = credId) →
      ∀ c ∈ σ.calls, ∀ ev ∈ c.trace, ∀ row ∈ bound ev, row.userId = user →
        Satisfied X σ row.tokenHash
  | _ => True

instance (X : WebauthnExt B) (σ : WebauthnSys B) (l : WebauthnStmt) : Decidable (Settled X σ l) :=
  match l with
  | .isSatisfied _ => inferInstanceAs (Decidable (∀ c ∈ _, Marked _ c → _))
  | .removeCredential _ _ => inferInstanceAs (Decidable ((∀ r ∈ _, _ → _) →
      ∀ c ∈ _, ∀ ev ∈ _, ∀ row ∈ _, _ → Satisfied X σ _))
  | .cred _ | .listCredentials _ | .hasCredentials _ | .addCredential _ _ | .getCredential _ _ _
  | .updateCounter _ _ | .putRegistration | .takeRegistration _ | .putAssertion
  | .takeAssertion _ | .markSatisfied _ => inferInstanceAs (Decidable True)

/-- What the next statement of a call must find. -/
def Careful (X : WebauthnExt B) (σ : WebauthnSys B) : WebauthnAct B → Prop
  | .call _ => True
  | .exec i e => ∀ c ∈ σ.calls[i]?, ∀ l ∈ c.prog.next, Uncloned l e σ.shared ∧ Settled X σ l

instance (X : WebauthnExt B) (σ : WebauthnSys B) : ∀ a, Decidable (Careful X σ a)
  | .call _ => inferInstanceAs (Decidable True)
  | .exec _ e => inferInstanceAs (Decidable (∀ c ∈ _, ∀ l ∈ Prog.next _, Uncloned l e _ ∧ Settled X σ l))

structure Good (X : WebauthnExt B) (σ : WebauthnSys B) : Prop where
  marks : ∀ token ∈ σ.shared.verified, ∃ c ∈ σ.calls, Marked token c
  reads : ∀ c ∈ σ.calls, ∀ ev ∈ c.trace, ∀ token, ev.name = .isSatisfied token →
    token ∈ ev.pre.verified → Satisfied X σ (X.hashToken token)
  bound : ∀ c ∈ σ.calls, ∀ ev ∈ c.trace, ∀ row ∈ bound ev,
    HasKey row.userId σ.shared ∨ Satisfied X σ row.tokenHash

section Exec

variable {σ : WebauthnSys B} {i : ℕ} {e : AuthEnv B} {q : WebauthnReq B} {l : WebauthnStmt}
  {f : AuthEnv B → WebauthnDb B → WebauthnDb B}
  {k : AuthEnv B → WebauthnDb B → Prog (WebauthnDb B) (AuthEnv B) WebauthnStmt (WebauthnReply B)}

/-- The system after the next statement of a call. -/
abbrev after (σ : WebauthnSys B) (i : ℕ) (e : AuthEnv B) (q : WebauthnReq B)
    (tr : List (WebauthnEv B)) (l : WebauthnStmt) (f : AuthEnv B → WebauthnDb B → WebauthnDb B)
    (k : AuthEnv B → WebauthnDb B → Prog (WebauthnDb B) (AuthEnv B) WebauthnStmt (WebauthnReply B)) :
    WebauthnSys B :=
  ⟨f e σ.shared, σ.calls.set i ⟨q, tr ++ [⟨l, e, σ.shared, f e σ.shared⟩], k e σ.shared⟩⟩

lemma satisfied_call [DecidableEq B] {hash : String} (h : Satisfied X σ hash) :
    Satisfied X ⟨σ.shared, σ.calls ++ [⟨q, [], serve X q⟩]⟩ hash := by
  obtain ⟨c, hc, hok⟩ := h
  exact ⟨c, List.mem_append_left _ hc, hok⟩

lemma satisfied_exec (hc : σ.calls[i]? = some ⟨q, tr, .stmt l f k⟩) {hash : String}
    (h : Satisfied X σ hash) : Satisfied X (after σ i e q tr l f k) hash := by
  obtain ⟨c, hmem, hok⟩ := h
  refine ⟨c, mem_set_of_result hc hmem ?_, hok⟩
  unfold asserted at hok
  split at hok
  · next hres => rw [hres]; rfl
  · cases hok

/-- An `assert_verify` that has set a mark and was answered has succeeded. -/
lemma satisfied_of_marked (hs : Sound (fun _ => rules) Post Does σ) {c : WebauthnCall B}
    (hc : c ∈ σ.calls) {token : String} (hm : Marked token c) (hres : c.prog.result.isSome) :
    Satisfied X σ (X.hashToken token) := by
  obtain ⟨ev, hev, hmark⟩ := hm
  obtain ⟨req, hreq⟩ := (hs.every hc ev hev).2 token hmark
  obtain ⟨a, ha⟩ := Option.isSome_iff_exists.mp hres
  have hpost := hs.post hc ha
  rw [hreq] at hpost
  obtain ⟨r, rfl, herr⟩ := hpost
  cases r with
  | error err =>
    have := herr err rfl ev hev
    rw [hmark] at this
    cases this
  | ok user => exact ⟨c, hc, by simp [asserted, hreq, ha]⟩

/-- A user with a security key keeps it or has satisfied the factor with every session. -/
lemma hasKey_exec (hc : σ.calls[i]? = some ⟨q, tr, .stmt l f k⟩) (hC : Careful X σ (.exec i e))
    (hev : Does q ⟨l, e, σ.shared, f e σ.shared⟩) {user : Ident} {hash : String}
    (hbound : ∃ c ∈ σ.calls, ∃ ev ∈ c.trace, ∃ row ∈ bound ev, row.userId = user ∧
      row.tokenHash = hash) (hk : HasKey user σ.shared) :
    HasKey user (f e σ.shared) ∨ Satisfied X σ hash := by
  refine (hasKey_cases hev.1 hk).imp id ?_
  rintro ⟨credId, hl, -, honly⟩
  simp only at hl
  subst hl
  obtain ⟨c, hmem, ev, hev, row, hrow, hu, rfl⟩ := hbound
  exact (hC _ hc _ rfl).2 honly c hmem ev hev row hrow hu

lemma good_exec (hc : σ.calls[i]? = some ⟨q, tr, .stmt l f k⟩) (hC : Careful X σ (.exec i e))
    (hs : Sound (fun _ => rules) Post Does σ) (hev : Does q ⟨l, e, σ.shared, f e σ.shared⟩)
    (hg : Good X σ) : Good X (after σ i e q tr l f k) := by
  have hlt : i < σ.calls.length := (List.getElem?_eq_some_iff.mp hc).1
  have hmem : (⟨q, tr ++ [⟨l, e, σ.shared, f e σ.shared⟩], k e σ.shared⟩ : WebauthnCall B) ∈
      (after σ i e q tr l f k).calls := List.mem_set hlt _
  refine ⟨?_, ?_, ?_⟩
  · intro token ht
    rcases verified_cases hev.1 ht with ht | hl
    · obtain ⟨c, hc', ev, hev', hmark⟩ := hg.marks token ht
      obtain ⟨c', hc'', hev''⟩ := ran_exec hc (.inl ⟨c, hc', hev'⟩)
      exact ⟨c', hc'', ev, hev'', hmark⟩
    · simp only at hl
      exact ⟨_, hmem, _, List.mem_append_right _ (List.mem_singleton_self _), by simp [hl, marking]⟩
  · intro c hmem' ev hev' token hname ht
    obtain ⟨j, hj⟩ := List.mem_iff_getElem?.mp hmem'
    rcases mem_trace_set hc hj hev' with rfl | ⟨c', hc', hev''⟩
    · simp only at hname ht
      subst hname
      obtain ⟨c', hc', hm⟩ := hg.marks token ht
      exact satisfied_exec hc (satisfied_of_marked hs hc' hm ((hC _ hc _ rfl).2 c' hc' hm))
    · exact satisfied_exec hc (hg.reads c' (List.mem_of_getElem? hc') ev hev'' token hname ht)
  · intro c hmem' ev hev' row hrow
    obtain ⟨j, hj⟩ := List.mem_iff_getElem?.mp hmem'
    rcases mem_trace_set hc hj hev' with rfl | ⟨c', hc', hev''⟩
    · obtain ⟨hnew, hcond⟩ := List.mem_filter.mp hrow
      rw [Bool.and_eq_true, decide_eq_true_eq] at hcond
      rcases hasKey_cases hev.1 hcond.2 with hk | ⟨credId, -, hsess, -⟩
      · exact .inl hk
      · simp only at hsess hnew hcond
        rw [hsess] at hnew
        rw [Table.get_of_mem hnew] at hcond
        cases hcond.1
    · rcases hg.bound c' (List.mem_of_getElem? hc') ev hev'' row hrow with hk | hsat
      · exact (hasKey_exec hc hC hev ⟨c', List.mem_of_getElem? hc', ev, hev'', row, hrow, rfl, rfl⟩
          hk).imp id (satisfied_exec hc)
      · exact .inr (satisfied_exec hc hsat)

/-- A session that was created for a user under a security key, and the calls made since the
`n`-th: as long as it has not satisfied the factor, they have found and left a security key. -/
structure Since (X : WebauthnExt B) (user : Ident) (hash : String) (n : ℕ) (σ : WebauthnSys B) :
    Prop where
  created : ∃ c ∈ σ.calls, ∃ ev ∈ c.trace, ∃ row ∈ bound ev, row.userId = user ∧
    row.tokenHash = hash
  key : HasKey user σ.shared ∨ Satisfied X σ hash
  seen : ∀ (j : ℕ) (c : WebauthnCall B), n ≤ j → σ.calls[j]? = some c → ∀ ev ∈ c.trace,
    HasKey user ev.pre ∧ HasKey user ev.post ∨ Satisfied X σ hash

lemma since_exec {user : Ident} {hash : String} {n : ℕ}
    (hc : σ.calls[i]? = some ⟨q, tr, .stmt l f k⟩) (hC : Careful X σ (.exec i e))
    (hev : Does q ⟨l, e, σ.shared, f e σ.shared⟩) (hs : Since X user hash n σ) :
    Since X user hash n (after σ i e q tr l f k) := by
  have hkey : HasKey user σ.shared ∧ HasKey user (f e σ.shared) ∨
      Satisfied X (after σ i e q tr l f k) hash := by
    rcases hs.key with hk | hsat
    · exact (hasKey_exec hc hC hev hs.created hk).imp (fun hk' => ⟨hk, hk'⟩) (satisfied_exec hc)
    · exact .inr (satisfied_exec hc hsat)
  refine ⟨?_, hkey.imp And.right id, ?_⟩
  · obtain ⟨c, hmem, ev, hev', hrow⟩ := hs.created
    obtain ⟨c', hc', hev''⟩ := ran_exec hc (.inl ⟨c, hmem, hev'⟩)
    exact ⟨c', hc', ev, hev'', hrow⟩
  · intro j c hj hjc ev hev'
    rcases mem_trace_set hc hjc hev' with rfl | ⟨c', hc', hev''⟩
    · exact hkey
    · exact (hs.seen j c' hj hc' ev hev'').imp id (satisfied_exec hc)

end Exec

lemma good_call [DecidableEq B] {σ : WebauthnSys B} (hg : Good X σ) (q : WebauthnReq B) :
    Good X ⟨σ.shared, σ.calls ++ [⟨q, [], serve X q⟩]⟩ := by
  have hold : ∀ c ∈ σ.calls ++ [⟨q, [], serve X q⟩], ∀ ev ∈ c.trace, c ∈ σ.calls := by
    intro c hc ev hev
    rcases List.mem_append.mp hc with hc | hc
    · exact hc
    · rw [List.mem_singleton.mp hc] at hev
      cases hev
  refine ⟨fun token ht => ?_, fun c hc ev hev token hname ht => ?_, fun c hc ev hev row hrow => ?_⟩
  · obtain ⟨c, hc, hm⟩ := hg.marks token ht
    exact ⟨c, List.mem_append_left _ hc, hm⟩
  · exact satisfied_call (hg.reads c (hold c hc ev hev) ev hev token hname ht)
  · exact (hg.bound c (hold c hc ev hev) ev hev row hrow).imp id satisfied_call

lemma since_call [DecidableEq B] {σ : WebauthnSys B} {user : Ident} {hash : String} {n : ℕ}
    (hs : Since X user hash n σ) (q : WebauthnReq B) :
    Since X user hash n ⟨σ.shared, σ.calls ++ [⟨q, [], serve X q⟩]⟩ := by
  obtain ⟨⟨c, hc, hrow⟩, hkey, hseen⟩ := hs
  refine ⟨⟨c, List.mem_append_left _ hc, hrow⟩, hkey.imp id satisfied_call, ?_⟩
  intro j c hj hjc ev hev
  rw [List.getElem?_append] at hjc
  split at hjc
  · exact (hseen j c hj hjc ev hev).imp id satisfied_call
  · rw [List.mem_singleton.mp (List.mem_of_getElem? hjc)] at hev
    cases hev

/-! ### The gate -/

/-- The session and the user to whom an `account_status` has handed out the wrapped key. -/
def handedOut (c : WebauthnCall B) : Option (String × Ident) :=
  match c.req, c.prog.result with
  | .accountStatus bearer, some (.account (.ok resp)) =>
    if resp.svkCiphertextBlob = "" then none else some (bearer, resp.userId)
  | _, _ => none

lemma ungated_of_handedOut {σ : WebauthnSys B} (hs : Sound (fun _ => rules) Post Does σ)
    {c : WebauthnCall B} (hc : c ∈ σ.calls) {bearer : String} {user : Ident}
    (h : (bearer, user) ∈ handedOut c) : Ungated bearer user c.trace := by
  unfold handedOut at h
  split at h
  · next b resp hreq hres =>
    split at h
    · cases h
    · next hne =>
      cases h
      have hpost := hs.post hc hres
      rw [hreq] at hpost
      exact hpost hne
  · cases h

/-- An `assert_verify` that was answered with an error. -/
def refused (c : WebauthnCall B) : Bool :=
  match c.req, c.prog.result with
  | .assertVerify _ _, some (.asserted (.error _)) => true
  | _, _ => false

/-- After the run `as`, in which sessions were created for users with a security key, and the
run `as'`: the wrapped key was handed out since to such a session only if it has satisfied the
factor, no request since has taken away the last security key of its user before, and an
`assert_verify` that was answered with an error has left all marks as they were. -/
def Gated [DecidableEq B] (X : WebauthnExt B) (db : WebauthnDb B) (as as' : List (WebauthnAct B)) :
    Prop :=
  let σ₁ := run (serve X) (init db) as
  let σ := run (serve X) (init db) (as ++ as')
  (∀ c₁ ∈ σ₁.calls, ∀ ev₁ ∈ c₁.trace, ∀ row ∈ bound ev₁, ∀ c ∈ σ.calls.drop σ₁.calls.length,
    ((∃ p ∈ handedOut c, X.hashToken p.1 = row.tokenHash ∧ p.2 = row.userId) ∨
      ∃ ev ∈ c.trace, HasKey row.userId ev.pre ∧ ¬HasKey row.userId ev.post) →
    Satisfied X σ row.tokenHash) ∧
  ∀ c ∈ σ.calls, refused c = true → ∀ ev ∈ c.trace, ev.post.verified = ev.pre.verified

instance [DecidableEq B] (X : WebauthnExt B) (db : WebauthnDb B) (as as' : List (WebauthnAct B)) :
    Decidable (Gated X db as as') :=
  inferInstanceAs (Decidable ((∀ c₁ ∈ _, ∀ ev₁ ∈ _, ∀ row ∈ _, ∀ c ∈ _,
    ((∃ p ∈ _, _ ∧ _) ∨ ∃ ev ∈ _, _ ∧ ¬_) → Satisfied X _ _) ∧ ∀ c ∈ _, _ → ∀ ev ∈ _, _ = _))

/-- The invariant rule for careful runs. -/
lemma run_careful [DecidableEq B] (hX : Serializes X) {P : WebauthnSys B → Prop}
    (hcall : ∀ σ q, P σ → P ⟨σ.shared, σ.calls ++ [⟨q, [], serve X q⟩]⟩)
    (hexec : ∀ (σ : WebauthnSys B) (i : ℕ) (e : AuthEnv B) (q : WebauthnReq B)
      (tr : List (WebauthnEv B)) (l : WebauthnStmt) (f : AuthEnv B → WebauthnDb B → WebauthnDb B)
      (k : AuthEnv B → WebauthnDb B →
        Prog (WebauthnDb B) (AuthEnv B) WebauthnStmt (WebauthnReply B)),
      σ.calls[i]? = some ⟨q, tr, .stmt l f k⟩ → Careful X σ (.exec i e) →
      Sound (fun _ => rules) Post Does σ → Does q ⟨l, e, σ.shared, f e σ.shared⟩ → P σ →
      P (after σ i e q tr l f k))
    {σ : WebauthnSys B} {as : List (WebauthnAct B)}
    (hσ : Sound (fun _ => rules) Post Does σ ∧ P σ) (has : Along (serve X) (Careful X) σ as) :
    Sound (fun _ => rules) Post Does (run (serve X) σ as) ∧ P (run (serve X) σ as) := by
  refine run_sound (fun _ q _ => wp_serve hX q) (fun q => does_serve (X := X) q)
    (fun _ _ _ _ => trivial) (fun _ _ _ _ _ h => post_any h) ?_ (fun σ q _ hP => hcall σ q hP) ?_
    hσ has
  · intro σ i e q tr l f k hc hC ev hev
    rw [List.getLast?_concat, Option.mem_some] at hev
    subst hev
    exact (hC _ hc _ rfl).1
  · intro σ i e q tr l f k hc hC hs hs' hP
    have hlt : i < σ.calls.length := (List.getElem?_eq_some_iff.mp hc).1
    exact hexec σ i e q tr l f k hc hC hs (hs'.every (List.mem_set hlt _) _ (by simp)) hP

/-- An assertion is the credential id, the sign count and the challenge. -/
def keys : WebauthnExt (List ℕ) :=
  { Bearer.bytes with
    fromSlice := .ok
    toVec := .ok
    toValue := .ok
    keyCredId := id
    updateCredential := fun sk _ => sk
    startRegistration := fun r _ _ => .ok (r, r)
    parseRegistration := .ok
    finishRegistration := fun pkc _ => .ok pkc
    startAuthentication := fun r _ => .ok (r, r)
    parseCredential := .ok
    finishAuthentication := fun pkc state =>
      match pkc with
      | cred :: counter :: challenge =>
        if challenge = state then .ok ⟨[cred], counter, []⟩ else .error "challenge"
      | _ => .error "malformed" }

/-- A user with a security key whose sign count is 5. -/
def keyHolder : WebauthnDb (List ℕ) where
  cred := { Bearer.oneUser with auth := { Bearer.oneUser.auth with
    users := ⟨[⟨1, "alice", [], [], [3], [], 1, 0, 0⟩], by decide⟩
    webauthnUsers := [1] } }
  credentials := ⟨[⟨1, Bearer.bytes.b64url [7], "key", [7], 5, 0, 0⟩], by decide⟩
  regs := .empty
  auths := .empty
  verified := []

/-- The request `q`, and `n` statements of it, as the `i`-th call. -/
def asking (i : ℕ) (q : WebauthnReq (List ℕ)) (n : ℕ) : List (WebauthnAct (List ℕ)) :=
  .call q :: List.replicate n (.exec i ⟨1, 5, [9], false⟩)

/-- A login. -/
def loggingIn : List (WebauthnAct (List ℕ)) :=
  asking 0 (.cred (.login (.loginStart ⟨"alice", some []⟩))) 3 ++
  asking 1 (.cred (.login (.loginFinish ⟨"alice", some [1], none⟩))) 9

/-- An assertion with the sign count `n`, and a request for the wrapped key. -/
def asserting (n : ℕ) : List (WebauthnAct (List ℕ)) :=
  let token := Bearer.bytes.b64 [9, 1]
  asking 2 (.assertStart token) 7 ++
  asking 3 (.assertVerify token ⟨Bearer.bytes.hyphenated 5, [7, n, 9]⟩) 8 ++
  asking 4 (.accountStatus token) 7

end Vautr.WebauthnGate
