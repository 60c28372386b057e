import Vautr.Auth
import Vautr.Interleave

/-!
Whom a login is for: a session, or a token for the second factor, is minted for a user only
when the `LOGIN_STATE` entry that was consumed comes from a `login_start` of that user.

`login_finish` takes the user from its own request and the entry from the handle the
request carries, and never compares the two. The binding therefore holds in the runs in
which every `login_finish` presents a key under which no other user's `login_start` has
stored its state.
-/

namespace Vautr.LoginBinding

open Vautr.Atomic Vautr.Interleave Vautr.Sql Vautr.Database Vautr.Api Vautr.Server Vautr.Auth

variable {B : Type} (X : Opaque B)

/-! ### The server -/

inductive AuthReq (B : Type)
  | registerStart (req : RegisterStartReq B)
  | registerFinish (req : RegisterFinishReq B)
  | loginStart (req : LoginStartReq B)
  | loginFinish (req : LoginFinishReq B)

inductive AuthReply (B : Type)
  | registerStart (r : Except ApiError (RegisterStartResp B))
  | registerFinish (r : Except ApiError RegisterFinishResp)
  | loginStart (r : Except ApiError (LoginStartResp B))
  | loginFinish (r : Except ApiError (LoginFinishResp B))

def serve [DecidableEq B] : AuthReq B → Prog (AuthDb B) (AuthEnv B) AuthStmt (AuthReply B)
  | .registerStart req => (registerStart X req).run >>= fun r => .ret (.registerStart r)
  | .registerFinish req => (registerFinish X req).run >>= fun r => .ret (.registerFinish r)
  | .loginStart req => (loginStart X req).run >>= fun r => .ret (.loginStart r)
  | .loginFinish req => (loginFinish X req).run >>= fun r => .ret (.loginFinish r)

abbrev AuthEv (B : Type) := Ev (AuthDb B) (AuthEnv B) AuthStmt

abbrev AuthSys (B : Type) := Sys (AuthReq B) (AuthDb B) (AuthEnv B) AuthStmt (AuthReply B)

/-! ### The property -/

/-- The key that the statement looks up in `LOGIN_STATE`. -/
def taking : AuthStmt → Option String
  | .takeLogin key => some key
  | _ => none

/-- The entry of `LOGIN_STATE` that the statement consumed. -/
def taken (ev : AuthEv B) : Option (LoginEntry B) :=
  (taking ev.name).bind ev.pre.loginState.get

/-- The users for whom the statement minted a session or a pending token. -/
def minted (ev : AuthEv B) : List Ident :=
  (ev.post.sessions.rows.filter (· ∉ ev.pre.sessions.rows)).map (·.userId) ++
    (ev.post.pendingMfa.rows.filter (· ∉ ev.pre.pendingMfa.rows)).map (·.userId)

/-- What a call mints is for the user whose `login_start` made the entry it consumed. -/
def Bound (tr : List (AuthEv B)) : Prop :=
  ∀ ev ∈ tr, ∀ user ∈ minted ev, ∃ ev' ∈ tr, ∃ en ∈ taken ev',
    ∃ r ∈ ev.pre.users.rows, r.id = user ∧ r.email = en.startedBy

instance (tr : List (AuthEv B)) : Decidable (Bound tr) :=
  inferInstanceAs (Decidable (∀ ev ∈ tr, _))

/-- The username and the handle under which a `login_start` stored its state. -/
def stores (ev : AuthEv B) : Option (String × String) :=
  match ev.name with
  | .storeLogin username => some (username, "vtr-lh-" ++ X.simple ev.inp.uuid)
  | _ => none

/-! ### What the statements do -/

/-- Accounts are never removed, and an entry of `LOGIN_STATE` is stored under the username
or the handle of its `login_start`. -/
structure Fair (ev : AuthEv B) : Prop where
  users : ∀ r ∈ ev.pre.users.rows, r ∈ ev.post.users.rows
  login : ∀ en ∈ ev.post.loginState.rows, en ∈ ev.pre.loginState.rows ∨
    ∃ p ∈ stores X ev, p.1 = en.startedBy ∧ (p.1 = en.key ∨ p.2 = en.key)

/-- A fair statement that mints nothing. -/
def Plain (ev : AuthEv B) : Prop := Fair X ev ∧ ∀ user, user ∉ minted ev

def usersStay (_ : AuthStmt) (s s' : AuthDb B) : Prop := ∀ r ∈ s.users.rows, r ∈ s'.users.rows

variable {X}

lemma mem_minted {ev : AuthEv B} {user : Ident} : user ∈ minted ev ↔
    (∃ r ∈ ev.post.sessions.rows, r ∉ ev.pre.sessions.rows ∧ r.userId = user) ∨
    ∃ r ∈ ev.post.pendingMfa.rows, r ∉ ev.pre.pendingMfa.rows ∧ r.userId = user := by
  simp [minted, and_assoc]

/-- A statement that leaves the four tables alone, or shrinks the last three. -/
lemma plain_of_sub {l : AuthStmt} {e : AuthEnv B} {s s' : AuthDb B}
    (hu : ∀ r ∈ s.users.rows, r ∈ s'.users.rows)
    (hs : ∀ r ∈ s'.sessions.rows, r ∈ s.sessions.rows)
    (hp : ∀ r ∈ s'.pendingMfa.rows, r ∈ s.pendingMfa.rows)
    (hl : ∀ r ∈ s'.loginState.rows, r ∈ s.loginState.rows) : Plain X ⟨l, e, s, s'⟩ := by
  refine ⟨⟨hu, fun en h => .inl (hl en h)⟩, ?_⟩
  intro user hm
  rcases mem_minted.mp hm with ⟨r, hr, hn, -⟩ | ⟨r, hr, hn, -⟩
  · exact hn (hs r hr)
  · exact hn (hp r hr)

lemma plain_self {l : AuthStmt} {e : AuthEnv B} (s : AuthDb B) : Plain X ⟨l, e, s, s⟩ :=
  plain_of_sub (fun _ h => h) (fun _ h => h) (fun _ h => h) fun _ h => h

section Plain

variable {α : Type} {rely : AuthStmt → AuthDb B → AuthDb B → Prop}

lemma plain_select (l : AuthStmt) (g : AuthDb B → α) :
    Guarantees rely (Plain X) (select l g : AuthRepo B α).run :=
  guarantees_statement (fun _ => plain_self) fun _ => plain_self

lemma plain_setConfig (key : String) (value : B) :
    Guarantees rely (Plain X) (setConfig key value).run :=
  guarantees_statement (fun _ => plain_self)
    fun _ _ => plain_of_sub (fun _ h => h) (fun _ h => h) (fun _ h => h) fun _ h => h

lemma plain_createUser (row : UserRow B) :
    Guarantees rely (Plain X) (createUser row).run := by
  refine guarantees_statement (fun _ => plain_self) fun e s => ?_
  split
  · exact plain_self s
  · cases h : s.users.insert row with
    | none => exact plain_self s
    | some users =>
      refine plain_of_sub (fun r hr => ?_) (fun _ h => h) (fun _ h => h) fun _ h => h
      rw [(Table.insert_eq_some h).2]
      exact List.mem_append_left _ hr

lemma plain_read {l : AuthStmt} {g : AuthEnv B → α} :
    Guarantees rely (Plain X)
      (ExceptT.mk (Prog.atom l fun e db => (db, .ok (g e))) : AuthHandler B α).run :=
  guarantees_stmt (fun _ => plain_self) fun _ _ => guarantees_ret _

lemma plain_orCryptoError (r : Except String α) :
    Guarantees rely (Plain X) (orCryptoError r : AuthHandler B α).run := by
  cases r with
  | ok a => exact guarantees_pure_except a
  | error msg => exact guarantees_throw_except _

/-- The two entries `login_start` writes carry its username, under one of its two keys. -/
lemma mem_put {t : Table (LoginEntry.key : LoginEntry B → String)} {key username : String}
    {sstate : B} {now : ℤ} {hf : ∀ r : LoginEntry B, LoginEntry.key { r with
      state := sstate, created := now, startedBy := username } = r.key} {en : LoginEntry B}
    (h : en ∈ (t.upsert ⟨key, sstate, now, username⟩ (fun r =>
      { r with state := sstate, created := now, startedBy := username }) hf).rows) :
    en ∈ t.rows ∨ (username = en.startedBy ∧ key = en.key) := by
  rcases Table.mem_upsert h with h | rfl | ⟨r, -, hk, rfl⟩
  · exact .inl h
  · exact .inr ⟨rfl, rfl⟩
  · exact .inr ⟨rfl, hk.symm⟩

lemma plain_storeLogin (username : String) (sstate : B) :
    Guarantees rely (Plain X) (storeLogin X username sstate).run := by
  refine guarantees_stmt (fun e s => ?_) fun _ _ => guarantees_ret _
  refine ⟨⟨fun _ h => h, fun en hen => ?_⟩, ?_⟩
  · rcases mem_put hen with hen | ⟨hu, hk⟩
    · rcases mem_put hen with hen | ⟨hu, hk⟩
      · exact .inl (Table.mem_delete.mp hen).1
      · exact .inr ⟨_, rfl, hu, .inr hk⟩
    · exact .inr ⟨_, rfl, hu, .inl hk⟩
  · intro user hm
    rcases mem_minted.mp hm with ⟨r, hr, hn, -⟩ | ⟨r, hr, hn, -⟩
    · exact hn hr
    · exact hn hr

lemma plain_serverSetup : Guarantees rely (Plain X) (serverSetup X).run := by
  unfold serverSetup
  rcases X.setupFile with _ | (_ | bytes)
  · refine guarantees_bind_except (guarantees_orInternal (plain_select _ _)) ?_
    rintro (_ | bytes)
    · dsimp only
      split
      · exact guarantees_throw_except _
      refine guarantees_bind_except plain_read fun r =>
        guarantees_bind_except (plain_orCryptoError _) fun fresh =>
        guarantees_bind_except (guarantees_orInternal (plain_setConfig _ _)) fun _ =>
        guarantees_bind_except (guarantees_orInternal (plain_select _ _)) ?_
      rintro (_ | stored)
      · exact guarantees_throw_except _
      · exact guarantees_pure_except _
    · dsimp only
      split
      · exact guarantees_pure_except _
      · exact guarantees_throw_except _
  · exact guarantees_throw_except _
  · dsimp only
    split
    · exact guarantees_pure_except _
    · exact guarantees_throw_except _

lemma plain_serverPublicKey : Guarantees rely (Plain X) (serverPublicKey X).run := by
  refine guarantees_bind_except (guarantees_orInternal (plain_select _ _)) fun pk => ?_
  split
  · exact guarantees_pure_except _
  refine guarantees_bind_except plain_read fun r =>
    guarantees_bind_except (guarantees_orInternal (plain_setConfig _ _)) fun _ =>
    guarantees_bind_except (guarantees_orInternal (plain_select _ _)) fun pk => ?_
  split
  · exact guarantees_pure_except _
  · exact guarantees_throw_except _

lemma plain_registerStart (req : RegisterStartReq B) :
    Guarantees rely (Plain X) (registerStart X req).run :=
  guarantees_bind_except plain_serverSetup fun _ =>
    guarantees_bind_except (guarantees_decodeB64 _) fun _ =>
    guarantees_bind_except (plain_orCryptoError _) fun _ =>
    guarantees_bind_except plain_serverPublicKey fun _ => guarantees_pure_except _

lemma plain_auditOrgEvent : Guarantees rely (Plain X) (auditOrgEvent : AuthRepo B Unit).run :=
  guarantees_statement (fun _ => plain_self) fun _ => plain_self

lemma plain_registerFinish [DecidableEq B] (req : RegisterFinishReq B) :
    Guarantees rely (Plain X) (registerFinish X req).run := by
  refine guarantees_bind_except plain_serverSetup fun _ =>
    guarantees_bind_except (guarantees_decodeB64 _) fun pk => ?_
  split
  · exact guarantees_throw_except _
  split
  · exact guarantees_throw_except _
  refine guarantees_bind_except plain_serverPublicKey fun stored => ?_
  split
  · exact guarantees_throw_except _
  refine guarantees_bind_except (guarantees_decodeB64 _) fun _ =>
    guarantees_bind_except (plain_orCryptoError _) fun _ =>
    guarantees_bind_except (guarantees_decodeB64 _) fun _ =>
    guarantees_bind_except (guarantees_decodeB64 _) fun _ =>
    guarantees_bind_except (guarantees_decodeB64 _) fun _ =>
    guarantees_bind_except plain_read fun _ =>
    guarantees_bind_except plain_read fun _ =>
    guarantees_bind_except (guarantees_orInternal (plain_select _ _)) fun found => ?_
  split
  · exact guarantees_throw_except _
  refine guarantees_bind_except (guarantees_bind (plain_createUser _) fun _ => guarantees_ret _)
    fun _ => guarantees_bind_except (guarantees_ignored ?_) fun _ => guarantees_pure_except _
  refine guarantees_bind_except (plain_select _ _) ?_
  rintro (_ | _)
  · exact guarantees_pure_except _
  · exact plain_auditOrgEvent

lemma plain_loginStart (req : LoginStartReq B) :
    Guarantees rely (Plain X) (loginStart X req).run := by
  refine guarantees_bind_except plain_serverSetup fun _ =>
    guarantees_bind_except (guarantees_orInternal (plain_select _ _)) ?_
  rintro (_ | user)
  · exact guarantees_throw_except _
  · exact guarantees_bind_except (guarantees_decodeB64 _) fun _ =>
      guarantees_bind_except plain_read fun _ =>
      guarantees_bind_except (plain_orCryptoError _) fun _ =>
      guarantees_bind_except (plain_storeLogin _ _) fun _ => guarantees_pure_except _

lemma plain_enforceMfaRequired (user : Ident) :
    Guarantees rely (Plain X) (enforceMfaRequired user : AuthHandler B Unit).run := by
  refine guarantees_bind_except (guarantees_orInternal (plain_select _ _)) fun required => ?_
  split
  · exact guarantees_pure_except _
  refine guarantees_bind_except (guarantees_bind_except (guarantees_orInternal (plain_select _ _))
    fun _ => guarantees_bind_except (guarantees_orInternal (plain_select _ _))
      fun _ => guarantees_pure_except _) fun methods => ?_
  split
  · exact guarantees_throw_except _
  · exact guarantees_pure_except _

end Plain

/-! ### `login_finish` -/

variable {tr : List (AuthEv B)} {s : AuthDb B} {q : AuthReq B} {user : UserRow B}

/-- What is known of the statements a call has run. -/
def Sound (X : Opaque B) (tr : List (AuthEv B)) : Prop := Every (Fair X) tr ∧ Bound tr

/-- The entry a `login_finish` consumed comes from a `login_start` of its username. -/
def Honored (q : AuthReq B) (tr : List (AuthEv B)) : Prop :=
  ∀ req, q = .loginFinish req → ∀ ev ∈ tr, ∀ en ∈ taken ev, en.startedBy = req.username

def rules (X : Opaque B) (q : AuthReq B) : Rules (AuthDb B) (AuthEnv B) AuthStmt :=
  ⟨usersStay, Honored q, Sound X⟩

def Post (X : Opaque B) (_ : AuthReq B) {α : Type} (_ : α) (tr : List (AuthEv B))
    (_ : AuthDb B) : Prop := Sound X tr

/-- The call has looked up the user, and has consumed an entry that a `login_start` of this
user made. -/
def Proven (X : Opaque B) (user : UserRow B) (tr : List (AuthEv B)) (s : AuthDb B) : Prop :=
  Sound X tr ∧ user ∈ s.users.rows ∧ ∃ ev ∈ tr, ∃ en ∈ taken ev, user.email = en.startedBy

lemma sound_nil : Sound X [] := ⟨every_nil, by simp [Bound]⟩

/-- Every mint so far stays accounted for; the new statement has to account for its own. -/
lemma sound_append {ev : AuthEv B} (h : Sound X tr) (hev : Fair X ev)
    (hmint : ∀ user ∈ minted ev, ∃ ev' ∈ tr, ∃ en ∈ taken ev',
      ∃ r ∈ ev.pre.users.rows, r.id = user ∧ r.email = en.startedBy) : Sound X (tr ++ [ev]) := by
  refine ⟨every_append h.1 hev, fun ev₁ h₁ u hm => ?_⟩
  have : ∃ ev' ∈ tr, ∃ en ∈ taken ev',
      ∃ r ∈ ev₁.pre.users.rows, r.id = u ∧ r.email = en.startedBy := by
    rcases List.mem_append.mp h₁ with h₁ | h₁
    · exact h.2 ev₁ h₁ u hm
    · rw [List.mem_singleton.mp h₁] at hm ⊢
      exact hmint u hm
  obtain ⟨ev', hev', rest⟩ := this
  exact ⟨ev', List.mem_append_left _ hev', rest⟩

lemma sound_plain {ev : AuthEv B} (h : Sound X tr) (hev : Plain X ev) : Sound X (tr ++ [ev]) :=
  sound_append h hev.1 fun u hm => absurd hm (hev.2 u)

lemma wp_of_plain {α : Type} {p : Prog (AuthDb B) (AuthEnv B) AuthStmt α}
    (hp : Guarantees usersStay (Plain X) p) (htr : Sound X tr) :
    wp (rules X q) p (Post X q) tr s :=
  wp_of_guarantees (J := fun tr _ => Sound X tr) hp (fun _ _ _ h => h) (fun _ _ h => h)
    (fun _ _ _ _ h _ => h) (fun _ _ h hev => sound_plain h hev) (fun _ _ _ h => h) htr

/-- A part of `login_finish` that mints nothing, after the entry was consumed. -/
lemma wp_proven {α : Type} {p : Prog (AuthDb B) (AuthEnv B) AuthStmt α}
    {Q : α → List (AuthEv B) → AuthDb B → Prop} (hp : Guarantees usersStay (Plain X) p)
    (h : Proven X user tr s) (hQ : ∀ a tr s, Proven X user tr s → Q a tr s) :
    wp (rules X q) p Q tr s := by
  refine wp_of_guarantees (J := Proven X user) hp (fun _ _ _ h => h) (fun _ _ h => h.1) ?_ ?_ hQ h
  · exact fun _ _ _ _ h hr => ⟨h.1, hr user h.2.1, h.2.2⟩
  · rintro tr ev ⟨hs, hu, ev', hev', en, ht, he⟩ hev
    exact ⟨sound_plain hs hev, hev.1.users user hu, ev', List.mem_append_left _ hev', en, ht, he⟩

/-- The statement that mints. -/
lemma wp_mint {l : AuthStmt} {g : AuthEnv B → AuthDb B → AuthDb B × Except SqlError Unit}
    {Q : Except SqlError Unit → List (AuthEv B) → AuthDb B → Prop} (h : Proven X user tr s)
    (hfair : ∀ e db, Fair X ⟨l, e, db, (g e db).1⟩)
    (hmint : ∀ e db, ∀ u ∈ minted (B := B) ⟨l, e, db, (g e db).1⟩, u = user.id)
    (hQ : ∀ a tr s, Sound X tr → Q a tr s) : wp (rules X q) (statement l g).run Q tr s := by
  obtain ⟨hs, hu, ev, hev, en, ht, he⟩ := h
  refine wp_statement hs (fun s' e _ _ => hQ _ _ _ (sound_plain hs (plain_self s'))) ?_
  refine fun s' e hr _ => hQ _ _ _ (sound_append hs (hfair e s') fun u hm => ?_)
  obtain rfl := hmint e s' u hm
  exact ⟨ev, hev, en, ht, user, hr user hu, rfl, he⟩

lemma wp_storeSession {Q : Except SqlError Unit → List (AuthEv B) → AuthDb B → Prop} (token : B)
    (expiresAt : ℤ) (h : Proven X user tr s) (hQ : ∀ a tr s, Sound X tr → Q a tr s) :
    wp (rules X q) (storeSession X token user.id expiresAt).run Q tr s := by
  refine wp_mint h (fun e db => ?_) (fun e db u hm => ?_) hQ
  · by_cases hu : (db.users.get user.id).isSome = true
    · simp only [hu, if_true]
      exact ⟨fun _ h => h, fun en h => .inl h⟩
    · simp only [hu]
      exact (plain_self db).1
  · by_cases hu : (db.users.get user.id).isSome = true
    · simp only [hu, if_true] at hm
      rcases mem_minted.mp hm with ⟨r, hr, hn, rfl⟩ | ⟨r, hr, hn, -⟩
      · rcases Table.mem_upsert hr with hr | rfl | ⟨_, -, -, rfl⟩
        · exact absurd hr hn
        · rfl
        · rfl
      · exact absurd hr hn
    · simp only [hu] at hm
      exact absurd hm ((plain_self (X := X) db).2 u)

lemma wp_storePendingMfa {Q : Except SqlError Unit → List (AuthEv B) → AuthDb B → Prop}
    (hash : String) (expiresAt : ℤ) (h : Proven X user tr s)
    (hQ : ∀ a tr s, Sound X tr → Q a tr s) :
    wp (rules X q) (storePendingMfa hash user.id expiresAt).run Q tr s := by
  refine wp_mint h (fun e db => ?_) (fun e db u hm => ?_) hQ
  · cases hi : db.pendingMfa.insert ⟨hash, user.id, e.now, expiresAt, 0⟩ with
    | none => exact (plain_self db).1
    | some t =>
      by_cases hu : (db.users.get user.id).isSome = true
      · simp only [hu, if_true]
        exact ⟨fun _ h => h, fun en h => .inl h⟩
      · simp only [hu]
        exact (plain_self db).1
  · cases hi : db.pendingMfa.insert ⟨hash, user.id, e.now, expiresAt, 0⟩ with
    | none =>
      simp only [hi] at hm
      exact absurd hm ((plain_self (X := X) db).2 u)
    | some t =>
      by_cases hu : (db.users.get user.id).isSome = true
      · simp only [hi, hu, if_true] at hm
        rcases mem_minted.mp hm with ⟨r, hr, hn, -⟩ | ⟨r, hr, hn, rfl⟩
        · exact absurd hr hn
        · simp only [(Table.insert_eq_some hi).2, List.mem_append, hn, false_or,
            List.mem_singleton] at hr
          rw [hr]
      · simp only [hi, hu] at hm
        exact absurd hm ((plain_self (X := X) db).2 u)

lemma wp_mintPending (h : Proven X user tr s) :
    wp (rules X q) (mintPending X user.id).run (Post X q) tr s := by
  unfold mintPending
  have hpurge : Guarantees usersStay (Plain X) (ignored purgeExpiredPendingMfa :
      AuthHandler B Unit).run :=
    guarantees_ignored (guarantees_statement (fun _ => plain_self) fun _ _ =>
      plain_of_sub (fun _ h => h) (fun _ h => h) (fun _ h => (Table.mem_delete.mp h).1)
        fun _ h => h)
  rw [wp_bind_except]
  refine wp_proven hpurge h ?_
  rintro (_ | _) tr s h
  · exact h.1
  dsimp only
  rw [wp_bind_except]
  refine wp_proven plain_read h ?_
  rintro (_ | uuid) tr s h
  · exact h.1
  dsimp only
  rw [wp_bind_except]
  refine wp_proven plain_read h ?_
  rintro (_ | now) tr s h
  · exact h.1
  dsimp only
  rw [wp_bind_except, wp_orInternal]
  refine wp_storePendingMfa _ _ h ?_
  rintro (_ | _) tr s h
  · exact h
  · exact h

lemma wp_mintSession (token : B) (h : Proven X user tr s) :
    wp (rules X q) (mintSession X user.id token).run (Post X q) tr s := by
  unfold mintSession
  rw [wp_bind_except]
  refine wp_proven plain_read h ?_
  rintro (_ | now) tr s h
  · exact h.1
  dsimp only
  rw [wp_bind_except, wp_orInternal]
  refine wp_storeSession _ _ h ?_
  rintro (_ | _) tr s h
  · exact h
  refine wp_of_plain (guarantees_bind_except (guarantees_ignored ?_) fun _ =>
    guarantees_bind_except (guarantees_ignored plain_auditOrgEvent)
      fun _ => guarantees_pure_except _) h
  exact guarantees_statement (fun _ => plain_self) fun _ _ =>
    plain_of_sub (fun _ h => h) (fun _ h => (Table.mem_delete.mp h).1) (fun _ h => h) fun _ h => h

/-- `login_finish` after it has consumed the entry. -/
lemma wp_afterTake (sstate lupload : B) (h : Proven X user tr s) :
    wp (rules X q) (ExceptT.run (do
      let sfin ← orCryptoError (X.serverLoginFinish sstate lupload)
      enforceMfaRequired user.id
      if ← orInternal (mfaHasTotp user.id) then mintPending X user.id
      else mintSession X user.id sfin)) (Post X q) tr s := by
  rw [wp_bind_except]
  refine wp_proven (plain_orCryptoError _) h ?_
  rintro (_ | sfin) tr s h
  · exact h.1
  dsimp only
  rw [wp_bind_except]
  refine wp_proven (plain_enforceMfaRequired _) h ?_
  rintro (_ | _) tr s h
  · exact h.1
  dsimp only
  rw [wp_bind_except]
  refine wp_proven (guarantees_orInternal (plain_select _ _)) h ?_
  rintro (_ | totp) tr s h
  · exact h.1
  dsimp only
  split
  · exact wp_mintPending h
  · exact wp_mintSession sfin h

lemma wp_loginFinish (req : LoginFinishReq B) (htr : Sound X tr) :
    wp (rules X (.loginFinish req)) (loginFinish X req).run (Post X (.loginFinish req)) tr s := by
  unfold loginFinish
  rw [wp_bind_except, wp_orInternal]
  refine wp_statement htr (fun s' _ _ _ => sound_plain htr (plain_self s')) fun s' e _ _ => ?_
  have htr' := sound_plain htr (plain_self (X := X) (l := .getUserByEmail req.username) (e := e) s')
  dsimp only [Except.mapError]
  cases hu : s'.users.rows.find? fun r => r.email = req.username with
  | none =>
    refine wp_of_plain ?_ htr'
    exact guarantees_bind_except (guarantees_ignored plain_auditOrgEvent)
      fun _ => guarantees_throw_except _
  | some user =>
    have hmem : user ∈ s'.users.rows := List.mem_of_find?_eq_some hu
    have hemail : user.email = req.username := by simpa using List.find?_some hu
    dsimp only
    rw [wp_bind_except]
    cases req.loginFinish with
    | none => exact htr'
    | some lupload =>
      simp only [decodeB64, wp_pure_except]
      rw [wp_bind_except]
      refine ⟨htr', fun s₂ e₂ hr hok => ?_⟩
      have hev : Plain X ⟨.takeLogin req.key, e₂, s₂,
          { s₂ with loginState := s₂.loginState.delete fun r => r.key = req.key }⟩ :=
        plain_of_sub (fun _ h => h) (fun _ h => h) (fun _ h => h)
          fun _ h => (Table.mem_delete.mp h).1
      have htr₂ := sound_plain htr' hev
      cases hen : s₂.loginState.get req.key with
      | none =>
        simp only [hen, Option.map_none, wp_ret]
        exact htr₂
      | some en =>
        simp only [hen, Option.map_some, wp_ret]
        have htake : en ∈ taken (B := B) ⟨.takeLogin req.key, e₂, s₂,
            { s₂ with loginState := s₂.loginState.delete fun r => r.key = req.key }⟩ := hen
        have hby := hok req rfl _ (List.mem_append_right _ (List.mem_singleton_self _)) en htake
        refine wp_afterTake _ _ ⟨htr₂, hr user hmem, _, ?_, en, htake, hemail.trans hby.symm⟩
        exact List.mem_append_right _ (List.mem_singleton_self _)

lemma wp_serve [DecidableEq B] (q : AuthReq B) (s : AuthDb B) :
    wp (rules X q) (serve X q) (Post X q) [] s := by
  cases q with
  | registerStart req =>
    exact wp_of_plain (guarantees_bind (plain_registerStart req) fun _ => guarantees_ret _) sound_nil
  | registerFinish req =>
    exact wp_of_plain (guarantees_bind (plain_registerFinish req) fun _ => guarantees_ret _) sound_nil
  | loginStart req =>
    exact wp_of_plain (guarantees_bind (plain_loginStart req) fun _ => guarantees_ret _) sound_nil
  | loginFinish req =>
    unfold serve
    rw [wp_bind]
    exact wp_loginFinish req sound_nil

/-! ### All calls together -/

variable {σ : AuthSys B}

/-- The request of a call that is a `login_finish`. -/
def AuthReq.finish? : AuthReq B → Option (LoginFinishReq B)
  | .loginFinish req => some req
  | _ => none

/-- A `login_finish` presents a key under which no `login_start` of another username has
stored its state: not a handle issued to another username, and not the username of
another. -/
def OwnKey (X : Opaque B) (σ : AuthSys B) : Act (AuthReq B) (AuthEnv B) → Prop
  | .call _ => True
  | .exec i _ => ∀ c ∈ σ.calls[i]?, ∀ req ∈ c.req.finish?, ∀ key ∈ c.prog.next.bind taking,
      ∀ d ∈ σ.calls, ∀ ev ∈ d.trace, ∀ p ∈ stores X ev,
        p.1 = key ∨ p.2 = key → p.1 = req.username

instance (σ : AuthSys B) (a : Act (AuthReq B) (AuthEnv B)) : Decidable (OwnKey X σ a) :=
  match a with
  | .call _ => inferInstanceAs (Decidable True)
  | .exec i _ => inferInstanceAs (Decidable (∀ c ∈ σ.calls[i]?, _))

/-- Every entry of `LOGIN_STATE` was stored by a `login_start`, under its username or its
handle. -/
def Keyed (X : Opaque B) (σ : AuthSys B) : Prop :=
  ∀ en ∈ σ.shared.loginState.rows, ∃ ev, Ran σ ev ∧ ∃ p ∈ stores X ev,
    p.1 = en.startedBy ∧ (p.1 = en.key ∨ p.2 = en.key)

structure Inv (X : Opaque B) (σ : AuthSys B) : Prop where
  held : Held (rules X) (fun q => Post X q) σ
  keyed : Keyed X σ
  honored : ∀ c ∈ σ.calls, Honored c.req c.trace

lemma sound_of_wp {α : Type} {p : Prog (AuthDb B) (AuthEnv B) AuthStmt α}
    (h : wp (rules X q) p (Post X q) tr s) : Sound X tr := by
  cases p with
  | ret a => exact h
  | stmt l f k => exact h.1

/-- The entry that a `login_finish` consumes is of its own user. -/
lemma honored_append {i : ℕ} {e : AuthEnv B} {l : AuthStmt} {f : AuthEnv B → AuthDb B → AuthDb B}
    {k : AuthEnv B → AuthDb B → Prog (AuthDb B) (AuthEnv B) AuthStmt (AuthReply B)}
    (hc : σ.calls[i]? = some ⟨q, tr, .stmt l f k⟩) (hkeyed : Keyed X σ)
    (ha : OwnKey X σ (.exec i e)) (htr : Honored q tr) :
    Honored q (tr ++ [⟨l, e, σ.shared, f e σ.shared⟩]) := by
  intro req hq ev hev en hen
  rcases List.mem_append.mp hev with hev | hev
  · exact htr req hq ev hev en hen
  · rw [List.mem_singleton.mp hev] at hen
    obtain ⟨key, hkey, hget⟩ := Option.bind_eq_some_iff.mp hen
    obtain ⟨ev', ⟨d, hd, hev'⟩, p, hp, hby, hpk⟩ := hkeyed en (Table.get_mem hget)
    rw [Table.get_key hget] at hpk
    rw [← hby]
    exact ha _ hc req (by rw [hq]; rfl) key hkey d hd ev' hev' p hp hpk

lemma inv_step [DecidableEq B] (hσ : Inv X σ) (a : Act (AuthReq B) (AuthEnv B)) (ha : OwnKey X σ a) :
    Inv X (step (serve X) σ a) := by
  rcases step_cases (h := serve X) σ a with ⟨q, rfl, hst⟩ |
    ⟨i, e, q, tr, l, f, k, rfl, hc, hst⟩ | hst
  · refine ⟨held_call hσ.held (wp_serve q σ.shared), fun en hen => ?_, ?_⟩
    · obtain ⟨ev, ⟨d, hd, hev⟩, hp⟩ := hσ.keyed en hen
      exact ⟨ev, ⟨d, List.mem_append_left _ hd, hev⟩, hp⟩
    · intro c hcm
      rcases List.mem_append.mp hcm with hcm | hcm
      · exact hσ.honored c hcm
      · rw [List.mem_singleton.mp hcm]
        intro _ _ ev hev
        cases hev
  · have hhon := honored_append (e := e) hc hσ.keyed ha (hσ.honored _ (List.mem_of_getElem? hc))
    have hsound := sound_of_wp ((hσ.held i _ hc).2 σ.shared e (fun _ h => h) hhon)
    have hfair := hsound.1 _ (List.mem_append_right _ (List.mem_singleton_self _))
    rw [hst]
    refine ⟨?_, fun en hen => ?_, fun c hcm => ?_⟩
    · exact held_exec hσ.held hc (fun _ h => h) hhon (fun _ _ _ _ _ h₁ h₂ r hr => h₂ r (h₁ r hr))
        (fun _ _ _ _ _ _ => hfair.users) (fun _ _ _ _ _ _ h => h)
    · rcases hfair.login en hen with hen | hp
      · obtain ⟨ev, hran, hp⟩ := hσ.keyed en hen
        exact ⟨ev, ran_exec hc (.inl hran), hp⟩
      · exact ⟨_, ran_exec hc (.inr rfl), hp⟩
    · rcases List.mem_or_eq_of_mem_set hcm with hcm | rfl
      · exact hσ.honored c hcm
      · exact hhon
  · rw [hst]
    exact hσ

/-- **A login is bound to its user**: in every interleaving of registrations and logins, from
any database and an empty `LOGIN_STATE`, in which every `login_finish` presents a key of its
own, whatever a call mints is for the user whose `login_start` made the entry the call
consumed. -/
theorem minted_for_starter [DecidableEq B] (X : Opaque B) (db : AuthDb B)
    (as : List (Act (AuthReq B) (AuthEnv B)))
    (has : Along (serve X) (OwnKey X) (init { db with loginState := .empty }) as) :
    ∀ c ∈ (run (serve X) (init { db with loginState := .empty }) as).calls, Bound c.trace := by
  have hinv : Inv X (run (serve X) (init { db with loginState := .empty }) as) :=
    run_induction (P := Inv X) (fun σ a hσ ha => inv_step hσ a ha)
      ⟨held_init _, fun _ h => absurd h (by simp [init, Table.empty]), by simp [init]⟩ has
  intro c hc
  obtain ⟨i, hi⟩ := List.mem_iff_getElem?.mp hc
  exact (sound_of_wp (hinv.held i c hi)).2

/-! ### Two accounts -/

/-- Messages are numbers, and an upload is accepted if it is the number the server stored. -/
def numbers : Opaque ℕ where
  setupFromBytes _ := true
  generateServerSetup := .ok
  serverRegisterStart _ creq _ := .ok creq
  serverRegisterFinish := .ok
  serverLoginStart _ _ record lreq _ := .ok (0, record.getD 0 + lreq)
  serverLoginFinish state upload := if state = upload then .ok upload else .error "login failed"
  len _ := 32
  allZero _ := false
  simple n := toString n
  sha256Hex := id
  hashSessionToken := toString
  setupFile := some (some 0)
  prod := false
  allowDb := false

def twoUsers : AuthDb ℕ :=
  ⟨⟨[⟨1, "alice", 0, 10, 0, 0, 1, 0, 0⟩, ⟨2, "mallory", 0, 20, 0, 0, 1, 0, 0⟩], by decide⟩,
    .empty, .empty, .empty, none, [], [], .empty⟩

/-- `mallory` starts a login; somebody finishes one for `username` with the handle that
`mallory` was given and the upload for it. -/
def loginAs (username : String) : List (Act (AuthReq ℕ) (AuthEnv ℕ)) :=
  [.call (.loginStart ⟨"mallory", some 5⟩)] ++ List.replicate 3 (.exec 0 ⟨0, 77, 0, false⟩) ++
  [.call (.loginFinish ⟨username, some 25, some "vtr-lh-77"⟩)] ++
  List.replicate 8 (.exec 1 ⟨0, 0, 0, false⟩)

theorem minted_for_starter_mallory :
    Along (serve numbers) (OwnKey numbers) (init { twoUsers with loginState := .empty })
      (loginAs "mallory") ∧
    ∀ c ∈ (run (serve numbers) (init { twoUsers with loginState := .empty })
      (loginAs "mallory")).calls, Bound c.trace :=
  ⟨by decide, minted_for_starter numbers twoUsers _ (by decide)⟩

/-- With her own handle and the name of another user, `mallory` gets a session of that
user. -/
theorem minted_for_other : ¬∀ as : List (Act (AuthReq ℕ) (AuthEnv ℕ)),
    ∀ c ∈ (run (serve numbers) (init twoUsers) as).calls, Bound c.trace := by
  intro h
  have := h (loginAs "alice")
  revert this
  decide

end Vautr.LoginBinding
