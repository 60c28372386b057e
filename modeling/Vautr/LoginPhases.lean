import Vautr.CredEffects

/-!
The phases of a login.

A `login_start` draws random bytes and stores the server state that it makes of them; a
`login_finish` takes a state and stores the session whose token the state and the upload
yield. Every other statement of the two is quiet: it leaves `LOGIN_STATE` alone and stores no
session.
-/

namespace Vautr.LoginPhases

open Vautr.Atomic Vautr.Interleave Vautr.Sql Vautr.Database Vautr.Api Vautr.Server Vautr.Auth
open Vautr.LoginBinding Vautr.CredEffects

variable {B α : Type} {X : Opaque B} {tr : List (AuthEv B)} {s : AuthDb B}

/-- Statements that neither store nor take a login state, and store no session. -/
def quiet : AuthStmt → Bool
  | .storeLogin _ => false
  | .takeLogin _ => false
  | .storeSession _ => false
  | _ => true

inductive Phase (B : Type)
  | before
  | drew (random : B)
  | took (state : B)
  | over

inductive Move (X : Opaque B) : Phase B → AuthEv B → Phase B → Prop
  | quiet (ph : Phase B) (ev : AuthEv B) (h : quiet ev.name = true) : Move X ph ev ph
  | draw (ev : AuthEv B) (h : ev.name = .random) : Move X .before ev (.drew ev.inp.random)
  | store (r : B) (ev : AuthEv B) (username : String) (sstate : B)
      (h : ev.name = .storeLogin username)
      (hpost : ev.post = loginStored X username sstate ev.inp ev.pre)
      (hstate : ∃ setup record lreq m,
        X.serverLoginStart r setup record lreq username = .ok (m, sstate)) :
      Move X (.drew r) ev .over
  | miss (ev : AuthEv B) (key : String) (h : ev.name = .takeLogin key)
      (hnone : ev.pre.loginState.get key = none)
      (hpost : ev.post = { ev.pre with loginState := ev.pre.loginState.delete fun r => r.key = key }) :
      Move X .before ev .over
  | take (ev : AuthEv B) (key : String) (en : LoginEntry B) (h : ev.name = .takeLogin key)
      (hget : ev.pre.loginState.get key = some en)
      (hpost : ev.post = { ev.pre with loginState := ev.pre.loginState.delete fun r => r.key = key }) :
      Move X .before ev (.took en.state)
  | mint (sstate upload key : B) (ev : AuthEv B) (user : Ident) (expiresAt : ℤ)
      (h : ev.name = .storeSession user) (hkey : X.serverLoginFinish sstate upload = .ok key)
      (hpost : ev.post =
        sessionStored (X.hashSessionToken key) user expiresAt ev.inp.now ev.pre) :
      Move X (.took sstate) ev .over
  | fail (sstate : B) (ev : AuthEv B) (user : Ident) (h : ev.name = .storeSession user)
      (hpost : ev.post = ev.pre) : Move X (.took sstate) ev .over

/-- The statements of a login lead to the phase `ph`. -/
abbrev At (X : Opaque B) (tr : List (AuthEv B)) (ph : Phase B) : Prop :=
  Follows (Move X) .before tr ph

/-- The statements follow the phases, whatever the others do. -/
def phased (X : Opaque B) : Rules (AuthDb B) (AuthEnv B) AuthStmt :=
  ⟨fun _ _ _ => True, fun _ => True, fun tr => ∃ ph, At X tr ph⟩

variable {ph : Phase B}

lemma at_append {ph' : Phase B} {ev : AuthEv B} (h : At X tr ph) (hm : Move X ph ev ph') :
    At X (tr ++ [ev]) ph' := (follows_append ev).mpr ⟨ph, h, hm⟩

/-- The random bytes were drawn by one of the statements. -/
lemma at_drew {r : B} (h : At X tr (.drew r)) : ∃ ev ∈ tr, ev.name = .random ∧ ev.inp.random = r := by
  induction tr using List.reverseRecOn with
  | nil => cases h
  | append_singleton tr ev ih =>
    obtain ⟨ph, hf, hm⟩ := (follows_append ev).mp h
    cases hm with
    | quiet _ _ _ =>
      obtain ⟨ev', hev', hrest⟩ := ih hf
      exact ⟨ev', List.mem_append_left _ hev', hrest⟩
    | draw _ hname => exact ⟨ev, List.mem_append_right _ (List.mem_singleton_self _), hname, rfl⟩

/-- The state was taken by one of the statements. -/
lemma at_took {sstate : B} (h : At X tr (.took sstate)) :
    ∃ ev ∈ tr, ∃ en ∈ taken ev, en.state = sstate := by
  induction tr using List.reverseRecOn with
  | nil => cases h
  | append_singleton tr ev ih =>
    obtain ⟨ph, hf, hm⟩ := (follows_append ev).mp h
    cases hm with
    | quiet _ _ _ =>
      obtain ⟨ev', hev', hrest⟩ := ih hf
      exact ⟨ev', List.mem_append_left _ hev', hrest⟩
    | take _ key en hname hget _ =>
      refine ⟨ev, List.mem_append_right _ (List.mem_singleton_self _), en, ?_, rfl⟩
      simp [taken, taking, hname, hget]

lemma over_stays (h : Follows (Move X) .over tr ph) : ph = .over := by
  refine h.invariant (P := fun ph => ph = .over) (fun a ev b ha hm => ?_) rfl
  subst ha
  cases hm
  rfl

/-- After the session is stored the login is over. -/
lemma over_of_storeSession {ev : AuthEv B} {user : Ident} (h : At X tr ph) (hev : ev ∈ tr)
    (hname : ev.name = .storeSession user) : ph = .over := by
  obtain ⟨a, b, tr', hm, hrest⟩ := h.mem hev
  cases hm with
  | quiet _ _ hq =>
    rw [hname] at hq
    cases hq
  | draw _ hn => rw [hname] at hn; cases hn
  | take _ _ _ hn => rw [hname] at hn; cases hn
  | store => exact over_stays hrest
  | miss => exact over_stays hrest
  | mint => exact over_stays hrest
  | fail => exact over_stays hrest

/-- The statement stores a login state that was made of random bytes of the same call, and
then the login is over. -/
lemma of_storeLogin {ev : AuthEv B} {username : String} (h : At X tr ph) (hev : ev ∈ tr)
    (hname : ev.name = .storeLogin username) : ph = .over ∧
      ∃ ev' ∈ tr, ev'.name = .random ∧ ∃ setup record lreq m sstate,
        X.serverLoginStart ev'.inp.random setup record lreq username = .ok (m, sstate) ∧
        ev.post = loginStored X username sstate ev.inp ev.pre := by
  induction tr using List.reverseRecOn generalizing ph with
  | nil => cases hev
  | append_singleton tr ev₁ ih =>
    obtain ⟨ph₁, hf, hm⟩ := (follows_append ev₁).mp h
    rcases List.mem_append.mp hev with hev | hev
    · obtain ⟨rfl, ev', hev', hrest⟩ := ih hf hev
      refine ⟨?_, ev', List.mem_append_left _ hev', hrest⟩
      cases hm
      rfl
    · rw [List.mem_singleton.mp hev] at hname ⊢
      cases hm with
      | quiet _ _ hq => rw [hname] at hq; cases hq
      | draw _ hn => rw [hname] at hn; cases hn
      | take _ _ _ hn => rw [hname] at hn; cases hn
      | miss _ _ hn => rw [hname] at hn; cases hn
      | mint _ _ _ _ _ _ hn => rw [hname] at hn; cases hn
      | fail _ _ _ hn => rw [hname] at hn; cases hn
      | store r _ username' sstate hn hpost hstate =>
        obtain ⟨ev', hev', hrand, rfl⟩ := at_drew hf
        rw [hname] at hn
        cases hn
        obtain ⟨setup, record, lreq, m, hst⟩ := hstate
        exact ⟨rfl, ev', List.mem_append_left _ hev', hrand, setup, record, lreq, m, sstate, hst,
          hpost⟩

/-! ### Quiet parts -/

section Quiet

variable {rely : AuthStmt → AuthDb B → AuthDb B → Prop}

def Quiet (ev : AuthEv B) : Prop := quiet ev.name = true

lemma quiet_statement {l : AuthStmt} (hl : quiet l = true)
    {g : AuthEnv B → AuthDb B → AuthDb B × Except SqlError α} :
    Guarantees rely Quiet (statement l g).run :=
  guarantees_statement (fun _ _ => hl) fun _ _ => hl

lemma quiet_read {l : AuthStmt} (hl : quiet l = true) {g : AuthEnv B → α} :
    Guarantees rely Quiet
      (ExceptT.mk (Prog.atom l fun e db => (db, .ok (g e))) : AuthHandler B α).run :=
  guarantees_stmt (fun _ _ => hl) fun _ _ => guarantees_ret _

lemma quiet_orCryptoError (r : Except String α) :
    Guarantees rely Quiet (orCryptoError r : AuthHandler B α).run := by
  cases r with
  | ok a => exact guarantees_pure_except a
  | error msg => exact guarantees_throw_except _

lemma quiet_serverSetup : Guarantees rely Quiet (serverSetup X).run := by
  unfold serverSetup
  rcases X.setupFile with _ | (_ | bytes)
  · refine guarantees_bind_except (guarantees_orInternal (quiet_statement rfl)) ?_
    rintro (_ | bytes)
    · dsimp only
      split
      · exact guarantees_throw_except _
      refine guarantees_bind_except (quiet_read rfl) fun r =>
        guarantees_bind_except (quiet_orCryptoError _) fun fresh =>
        guarantees_bind_except (guarantees_orInternal (quiet_statement rfl)) fun _ =>
        guarantees_bind_except (guarantees_orInternal (quiet_statement rfl)) ?_
      rintro (_ | stored)
      · exact guarantees_throw_except _
      · exact guarantees_pure_except _
    · dsimp only
      split
      · exact guarantees_pure_except _
      · exact guarantees_throw_except _
  · exact guarantees_throw_except _
  · dsimp only
    split
    · exact guarantees_pure_except _
    · exact guarantees_throw_except _

lemma quiet_enforceMfaRequired (user : Ident) :
    Guarantees rely Quiet (enforceMfaRequired user : AuthHandler B Unit).run := by
  refine guarantees_bind_except (guarantees_orInternal (quiet_statement rfl)) fun required => ?_
  split
  · exact guarantees_pure_except _
  refine guarantees_bind_except (guarantees_bind_except (guarantees_orInternal (quiet_statement rfl))
    fun _ => guarantees_bind_except (guarantees_orInternal (quiet_statement rfl))
      fun _ => guarantees_pure_except _) fun methods => ?_
  split
  · exact guarantees_throw_except _
  · exact guarantees_pure_except _

lemma quiet_mintPending (user : Ident) : Guarantees rely Quiet (mintPending X user).run :=
  guarantees_bind_except (guarantees_ignored (quiet_statement rfl)) fun _ =>
    guarantees_bind_except (quiet_read rfl) fun _ =>
    guarantees_bind_except (quiet_read rfl) fun _ =>
    guarantees_bind_except (guarantees_orInternal (quiet_statement rfl)) fun _ =>
      guarantees_pure_except _

end Quiet

/-- A quiet part keeps the phase. -/
lemma wp_quiet {p : Prog (AuthDb B) (AuthEnv B) AuthStmt α}
    {Q : α → List (AuthEv B) → AuthDb B → Prop} {J : List (AuthEv B) → Prop}
    (hp : Guarantees (fun _ _ _ => True) Quiet p)
    (hJ : ∀ tr ev, J tr → J (tr ++ [ev])) (h : At X tr ph) (hj : J tr)
    (hQ : ∀ a tr s, At X tr ph → J tr → Q a tr s) : wp (phased X) p Q tr s :=
  wp_of_guarantees (J := fun tr _ => At X tr ph ∧ J tr) hp (fun _ _ _ _ => trivial)
    (fun _ _ h => ⟨ph, h.1⟩) (fun _ _ _ _ h _ => h)
    (fun tr ev h hev => ⟨at_append h.1 (.quiet ph ev hev), hJ tr ev h.2⟩)
    (fun a tr s h => hQ a tr s h.1 h.2) ⟨h, hj⟩

/-! ### The two requests -/

lemma wp_orCryptoError {r : Except String α} {Q : Except ApiError α → List (AuthEv B) → AuthDb B → Prop}
    {R : Rules (AuthDb B) (AuthEnv B) AuthStmt} (herr : ∀ e, Q (.error e) tr s)
    (hok : ∀ a, r = .ok a → Q (.ok a) tr s) : wp R (orCryptoError r : AuthHandler B α).run Q tr s := by
  cases r with
  | ok a => exact hok a rfl
  | error msg => exact herr _

lemma wp_storeLogin {r sstate : B} {username : String}
    (hstate : ∃ setup record lreq m,
      X.serverLoginStart r setup record lreq username = .ok (m, sstate)) (h : At X tr (.drew r)) :
    wp (phased X) (storeLogin X username sstate).run (fun _ tr _ => ∃ ph, At X tr ph) tr s :=
  ⟨⟨_, h⟩, fun _ _ _ _ => ⟨.over, at_append h (.store r _ username sstate rfl rfl hstate)⟩⟩

lemma wp_loginStart (req : LoginStartReq B) (h : At X tr .before) :
    wp (phased X) (loginStart X req).run (fun _ tr _ => ∃ ph, At X tr ph) tr s := by
  unfold loginStart
  rw [wp_bind_except]
  refine wp_quiet (J := fun _ => True) quiet_serverSetup (fun _ _ h => h) h trivial ?_
  rintro (_ | setup) tr s h -
  · exact ⟨_, h⟩
  dsimp only
  rw [wp_bind_except]
  refine wp_quiet (J := fun _ => True) (guarantees_orInternal (quiet_statement rfl))
    (fun _ _ h => h) h trivial ?_
  rintro (_ | _ | user) tr s h -
  · exact ⟨_, h⟩
  · exact ⟨_, h⟩
  dsimp only
  rw [wp_bind_except]
  cases req.loginStart with
  | none => exact ⟨_, h⟩
  | some lreq =>
    simp only [decodeB64, wp_pure_except]
    rw [wp_bind_except]
    refine ⟨⟨_, h⟩, fun s₁ e₁ _ _ => ?_⟩
    have h₁ := at_append h (.draw ⟨.random, e₁, s₁, s₁⟩ rfl)
    change wp (phased X) (ExceptT.run (orCryptoError (X.serverLoginStart e₁.random setup
      (some user.opaqueRecord) lreq req.username) >>= _)) _ _ _
    rw [wp_bind_except]
    refine wp_orCryptoError (fun _ => ⟨_, h₁⟩) fun p hp => ?_
    dsimp only
    rw [wp_bind_except]
    refine wp_mono (fun r tr s h => ?_) (wp_storeLogin ⟨setup, some user.opaqueRecord, lreq, p.1, hp⟩ h₁)
    cases r with
    | ok handle => exact h
    | error e => exact h

/-- A login state was taken. -/
def HasTaken (tr : List (AuthEv B)) : Prop := ∃ ev ∈ tr, (taken ev).isSome

lemma hasTaken_append (ev : AuthEv B) (h : HasTaken tr) : HasTaken (tr ++ [ev]) := by
  obtain ⟨ev', hev', ht⟩ := h
  exact ⟨ev', List.mem_append_left _ hev', ht⟩

/-- The statements of a `login_finish` follow the phases, and if it succeeds it has taken a
state. -/
def Finished (X : Opaque B) (r : Except ApiError (LoginFinishResp B)) (tr : List (AuthEv B))
    (_ : AuthDb B) : Prop := (∃ ph, At X tr ph) ∧ (r.toOption.isSome → HasTaken tr)

lemma wp_mintSession {sstate upload key : B} {user : Ident} (h : At X tr (.took sstate))
    (ht : HasTaken tr) (hkey : X.serverLoginFinish sstate upload = .ok key) :
    wp (phased X) (mintSession X user key).run (Finished X) tr s := by
  unfold mintSession
  rw [wp_bind_except]
  refine wp_quiet (quiet_read rfl) (fun _ ev => hasTaken_append ev) h ht ?_
  rintro (_ | now) tr s h ht
  · exact ⟨⟨_, h⟩, fun _ => ht⟩
  dsimp only
  rw [wp_bind_except, wp_orInternal]
  refine wp_statement ⟨_, h⟩ (fun s' e _ _ => ?_) fun s' e _ _ => ?_
  · exact ⟨⟨_, at_append h (.fail sstate _ user rfl rfl)⟩, fun _ => hasTaken_append _ ht⟩
  · by_cases hu : (s'.users.get user).isSome = true
    · simp only [hu, if_true]
      have h' : At X (tr ++ [⟨.storeSession user, e, s', sessionStored (X.hashSessionToken key) user
          (now + 86400000) e.now s'⟩]) .over :=
        at_append h (.mint sstate upload key _ user (now + 86400000) rfl hkey rfl)
      refine wp_quiet ?_ (fun _ ev => hasTaken_append ev) h' (hasTaken_append _ ht)
        fun _ _ _ h ht => ⟨⟨_, h⟩, fun _ => ht⟩
      exact guarantees_bind_except (guarantees_ignored (quiet_statement rfl)) fun _ =>
        guarantees_bind_except (guarantees_ignored (quiet_statement rfl)) fun _ =>
          guarantees_pure_except _
    · simp only [hu]
      exact ⟨⟨_, at_append h (.fail sstate _ user rfl rfl)⟩, fun _ => hasTaken_append _ ht⟩

lemma wp_loginFinish (req : LoginFinishReq B) (h : At X tr .before) :
    wp (phased X) (loginFinish X req).run (Finished X) tr s := by
  unfold loginFinish
  rw [wp_bind_except]
  refine wp_quiet (J := fun _ => True) (guarantees_orInternal (quiet_statement rfl))
    (fun _ _ h => h) h trivial ?_
  -- the user is not found: the state is not looked at
  rintro (_ | _ | user) tr s h -
  · exact ⟨⟨_, h⟩, fun h => by cases h⟩
  · dsimp only
    rw [wp_bind_except]
    refine wp_quiet (J := fun _ => True) (guarantees_ignored (quiet_statement rfl))
      (fun _ _ h => h) h trivial ?_
    rintro (_ | _) tr s h -
    · exact ⟨⟨_, h⟩, fun h => by cases h⟩
    · exact ⟨⟨_, h⟩, fun h => by cases h⟩
  dsimp only
  rw [wp_bind_except]
  cases req.loginFinish with
  | none => exact ⟨⟨_, h⟩, fun h => by cases h⟩
  | some lupload =>
    simp only [decodeB64, wp_pure_except]
    rw [wp_bind_except]
    -- the state is taken, whatever comes of it
    refine ⟨⟨_, h⟩, fun s₁ e₁ _ _ => ?_⟩
    cases hget : s₁.loginState.get req.key with
    | none =>
      simp only [hget, Option.map_none, wp_ret]
      exact ⟨⟨_, at_append h (.miss _ req.key rfl hget rfl)⟩, fun h => by cases h⟩
    | some en =>
      simp only [hget, Option.map_some, wp_ret]
      have h₁ : At X (tr ++ [⟨.takeLogin req.key, e₁, s₁,
          { s₁ with loginState := s₁.loginState.delete fun r => r.key = req.key }⟩])
          (.took en.state) := at_append h (.take _ req.key en rfl hget rfl)
      have ht : HasTaken (tr ++ [⟨.takeLogin req.key, e₁, s₁,
          { s₁ with loginState := s₁.loginState.delete fun r => r.key = req.key }⟩]) :=
        ⟨_, List.mem_append_right _ (List.mem_singleton_self _), by simp [taken, taking, hget]⟩
      rw [wp_bind_except]
      refine wp_orCryptoError (fun _ => ⟨⟨_, h₁⟩, fun h => by cases h⟩) fun key hkey => ?_
      dsimp only
      rw [wp_bind_except]
      refine wp_quiet (quiet_enforceMfaRequired _) (fun _ ev => hasTaken_append ev) h₁ ht ?_
      rintro (_ | _) tr s h ht
      · exact ⟨⟨_, h⟩, fun h => by cases h⟩
      dsimp only
      rw [wp_bind_except]
      refine wp_quiet (guarantees_orInternal (quiet_statement rfl))
        (fun _ ev => hasTaken_append ev) h ht ?_
      rintro (_ | totp) tr s h ht
      · exact ⟨⟨_, h⟩, fun h => by cases h⟩
      dsimp only
      split
      · -- the second step is asked for, or a session is made
        exact wp_quiet (quiet_mintPending _) (fun _ ev => hasTaken_append ev) h ht
          fun _ _ _ h ht => ⟨⟨_, h⟩, fun _ => ht⟩
      · exact wp_mintSession h ht hkey

end Vautr.LoginPhases
