import Vautr.Bearer
import Vautr.LoginStates

/-!
Login states and session tokens are for one use.

`login_start` stores one server state under two keys, a fresh handle and the username, and
`login_finish` takes it from one of them. The other copy stays: the same state and the same
upload give the same session token once more, also after a logout. Nor does `login_finish`
look at the age of what it takes; old entries go only when the next `login_start` sweeps them.
-/

namespace Vautr.LoginReplay

open Vautr.Atomic Vautr.Interleave Vautr.Sql Vautr.Database Vautr.Api Vautr.Server Vautr.Auth
open Vautr.Zoom Vautr.Credentials Vautr.Tokens Vautr.CredEffects Vautr.Bearer Vautr.LoginBinding
open Vautr.LoginPhases Vautr.LoginStates

variable {B α : Type} {X : CredExt B} {db db' : CredDb B} {tr : List (CredEv B)}

/-! ### Logins as part of the server -/

/-- A statement on the tables of the login. -/
def loginEv (ev : CredEv B) : Option (AuthEv B) :=
  match ev.name with
  | .auth l => some ⟨l, ev.inp, ev.pre.auth, ev.post.auth⟩
  | _ => none

/-- The statements of a request on the tables of the login. -/
def logins (tr : List (CredEv B)) : List (AuthEv B) := tr.filterMap loginEv

lemma logins_append (ev : CredEv B) : logins (tr ++ [ev]) = logins tr ++ (loginEv ev).toList := by
  rw [logins, List.filterMap_append]
  cases h : loginEv ev <;> simp [logins, h]

/-- The requests in question. -/
def inScope : CredReq B → Bool
  | .login (.loginStart _) => true
  | .login (.loginFinish _) => true
  | .authUser _ => true
  | .authAny _ => true
  | .logout _ => true
  | _ => false

/-- The statements of a request follow the phases of a login. -/
def phasedC (X : CredExt B) : Rules (CredDb B) (AuthEnv B) CredStmt :=
  ⟨fun _ _ _ => True, fun _ => True, fun tr => ∃ ph, At X.loginExt (logins tr) ph⟩

/-- A `login_finish` was answered with a session or a pending token. -/
def finished : CredReq B → Option (CredReply B) → Bool
  | .login (.loginFinish _), some (.login (.loginFinish (.ok _))) => true
  | _, _ => false

lemma finished_none (q : CredReq B) : finished q none = false := by
  unfold finished
  split
  · next h => cases h
  · rfl

def Post (X : CredExt B) (q : CredReq B) (a : CredReply B) (tr : List (CredEv B)) (_ : CredDb B) :
    Prop :=
  (∃ ph, At X.loginExt (logins tr) ph) ∧ (finished q (some a) = true → HasTaken (logins tr))

lemma wp_zoom_login {p : Prog (AuthDb B) (AuthEnv B) AuthStmt α}
    {Q : α → List (AuthEv B) → AuthDb B → Prop}
    (hp : wp (phased X.loginExt) p Q (logins tr) db.auth) :
    wp (phasedC X) (zoom login p) (fun a tr db => Q a (logins tr) db.auth) tr db := by
  refine wp_zoom (J := fun tr tr' _ => tr = logins tr') (fun tr tr' _ h hmid => by subst h; exact hmid)
    (fun _ _ _ _ _ h _ => ⟨trivial, h⟩) (fun l e s tr tr' t h _ => ⟨trivial, ?_⟩)
    (fun a tr tr' t h hQ => h ▸ hQ) rfl hp
  rw [logins_append, h]
  rfl

/-- Statements that matter to no login. -/
def Calm (ev : CredEv B) : Prop := ∀ ev' ∈ loginEv ev, quiet ev'.name = true

section Calm

variable {rely : CredStmt → CredDb B → CredDb B → Prop}

lemma calm_statement {l : CredStmt} (hl : ∀ l', l = .auth l' → quiet l' = true)
    {g : AuthEnv B → CredDb B → CredDb B × Except SqlError α} :
    Guarantees rely Calm (statement l g).run := by
  have h : ∀ e db db', Calm (⟨l, e, db, db'⟩ : CredEv B) := by
    intro e db db' ev' hev'
    cases l <;> cases hev'
    exact hl _ rfl
  exact guarantees_statement (fun _ _ => h _ _ _) fun _ _ => h _ _ _

lemma calm_nowMs : Guarantees rely Calm (Credentials.nowMs : CredHandler B ℤ).run :=
  guarantees_stmt (fun _ _ _ h => by cases h; rfl) fun _ _ => guarantees_ret _

lemma calm_orElse {x : CredRepo B (Option α)} (h : Guarantees rely Calm x.run) (err : ApiError) :
    Guarantees rely Calm (orElse x err).run := by
  refine guarantees_bind_except (guarantees_orInternal h) ?_
  rintro (_ | a)
  · exact guarantees_throw_except _
  · exact guarantees_pure_except _

lemma calm_authUser (token : String) : Guarantees rely Calm (authUser X token).run := by
  refine guarantees_bind_except (calm_orElse (calm_statement (by simp)) _) fun session =>
    guarantees_bind_except calm_nowMs fun now => ?_
  split
  · exact guarantees_throw_except _
  refine guarantees_bind_except (guarantees_orInternal (calm_statement (by simp))) fun _ => ?_
  split
  · exact guarantees_throw_except _
  · exact guarantees_pure_except _

lemma calm_requireMachineAccount (row : AccessTokenRow) (now : ℤ) :
    Guarantees rely Calm (requireMachineAccount row now : CredHandler B Unit).run := by
  unfold requireMachineAccount
  split
  · exact guarantees_pure_except _
  refine guarantees_bind_except (calm_orElse (calm_statement (by simp)) _) fun ma => ?_
  split
  · exact guarantees_throw_except _
  split
  · exact guarantees_throw_except _
  · exact guarantees_pure_except _

lemma calm_authAny (token : String) : Guarantees rely Calm (authAny X token).run := by
  unfold authAny
  split
  · refine guarantees_bind_except (guarantees_bind_except calm_nowMs fun now =>
      guarantees_bind_except (calm_orElse (calm_statement (by simp)) _) fun row => ?_) fun _ =>
        guarantees_bind_except (calm_orElse (calm_statement (by simp)) _) fun _ =>
          guarantees_pure_except _
    split
    · exact guarantees_throw_except _
    split
    · exact guarantees_throw_except _
    refine guarantees_bind_except (calm_requireMachineAccount row now) fun _ =>
      guarantees_bind_except (guarantees_ignored (calm_statement (by simp))) fun _ =>
      guarantees_bind_except ?_ fun _ => guarantees_pure_except _
    unfold touchAccountOf
    split
    · exact guarantees_ignored (calm_statement (by simp))
    · exact guarantees_pure_except _
  · exact guarantees_bind_except (calm_authUser token) fun _ => guarantees_pure_except _

end Calm

lemma wp_calm {p : Prog (CredDb B) (AuthEnv B) CredStmt α} {q : CredReq B} {g : α → CredReply B}
    (hp : Guarantees (fun _ _ _ => True) Calm p) (hg : ∀ a, finished q (some (g a)) = false) :
    wp (phasedC X) (p >>= fun a => .ret (g a)) (Post X q) [] db := by
  refine (wp_bind _ _ _ _ _).mpr (wp_of_guarantees
    (J := fun tr _ => At X.loginExt (logins tr) .before) hp (fun _ _ _ _ => trivial)
    (fun _ _ h => ⟨_, h⟩) (fun _ _ _ _ h _ => h) (fun tr ev h hev => ?_)
    (fun a tr db h => ⟨⟨_, h⟩, fun hf => by rw [hg] at hf; cases hf⟩) rfl)
  rw [logins_append]
  cases hl : loginEv ev with
  | none => simpa using h
  | some ev' => exact at_append h (.quiet _ ev' (hev ev' hl))

lemma wp_code [DecidableEq B] (q : CredReq B) (hq : inScope q = true) :
    wp (phasedC X) (code X q) (Post X q) [] db := by
  cases q with
  | login q =>
    cases q with
    | loginStart req =>
      refine (wp_bind _ _ _ _ _).mpr (wp_mono ?_ (wp_zoom_login (Q := fun a tr _ =>
        (∃ ph, At X.loginExt tr ph) ∧ ∃ r, a = .loginStart r) ?_))
      · rintro _ tr db ⟨h, r, rfl⟩
        exact ⟨h, fun hf => by cases hf⟩
      · refine (wp_bind _ _ _ _ _).mpr (wp_mono (fun r tr s h => ?_) (wp_loginStart req rfl))
        exact ⟨h, r, rfl⟩
    | loginFinish req =>
      refine (wp_bind _ _ _ _ _).mpr (wp_mono ?_ (wp_zoom_login (Q := fun a tr _ =>
        ∃ r, a = .loginFinish r ∧ (∃ ph, At X.loginExt tr ph) ∧
          (r.toOption.isSome → HasTaken tr)) ?_))
      · rintro _ tr db ⟨r, rfl, h, ht⟩
        refine ⟨h, fun hf => ht ?_⟩
        cases r with
        | ok resp => rfl
        | error e => cases hf
      · refine (wp_bind _ _ _ _ _).mpr (wp_mono (fun r tr s h => ?_) (wp_loginFinish req rfl))
        exact ⟨r, rfl, h⟩
    | _ => cases hq
  | authUser bearer => exact wp_calm (calm_authUser bearer) fun _ => rfl
  | authAny bearer => exact wp_calm (calm_authAny bearer) fun _ => rfl
  | logout bearer =>
    exact wp_calm (guarantees_bind_except (calm_authUser bearer) fun _ =>
      guarantees_orInternal (calm_statement (by simp))) fun _ => rfl
  | _ => cases hq

/-! ### The log of a run -/

/-- The statements on the tables of the login that the calls have run. -/
def log (σ : CredSys B) : Log B := fun j => (σ.calls[j]?.map fun c => logins c.trace).getD []

lemma log_of_getElem {σ : CredSys B} {j : ℕ}
    {c : Call (CredReq B) (CredDb B) (AuthEnv B) CredStmt (CredReply B)}
    (h : σ.calls[j]? = some c) : log σ j = logins c.trace := by
  simp [log, h]

lemma mem_log {σ : CredSys B} {j : ℕ} {ev : AuthEv B} (h : ev ∈ log σ j) :
    ∃ c ∈ σ.calls, ev ∈ logins c.trace := by
  unfold log at h
  cases hj : σ.calls[j]? with
  | none => simp [hj] at h
  | some c => exact ⟨c, List.mem_of_getElem? hj, by simpa [hj] using h⟩

lemma log_call (σ : CredSys B) (q : CredReq B) (p : Prog (CredDb B) (AuthEnv B) CredStmt (CredReply B)) :
    log ⟨σ.shared, σ.calls ++ [⟨q, [], p⟩]⟩ = log σ := by
  funext j
  unfold log
  rw [List.getElem?_append]
  split
  · rfl
  · next hj =>
    rw [List.getElem?_eq_none (not_lt.mp hj)]
    rcases j - σ.calls.length with _ | n <;> simp [logins]

lemma log_exec {σ : CredSys B} {i : ℕ} {q : CredReq B} {ev : CredEv B}
    {p p' : Prog (CredDb B) (AuthEnv B) CredStmt (CredReply B)} (hc : σ.calls[i]? = some ⟨q, tr, p⟩)
    (s : CredDb B) : log ⟨s, σ.calls.set i ⟨q, tr ++ [ev], p'⟩⟩ =
      (loginEv ev).elim (log σ) ((log σ).extend i) := by
  have hlt : i < σ.calls.length := (List.getElem?_eq_some_iff.mp hc).1
  have hold := log_of_getElem hc
  funext j
  rcases eq_or_ne j i with rfl | hne
  · have hnew : log ⟨s, σ.calls.set j ⟨q, tr ++ [ev], p'⟩⟩ j = logins (tr ++ [ev]) :=
      log_of_getElem (c := ⟨q, tr ++ [ev], p'⟩) (List.getElem?_set_self hlt)
    rw [hnew, logins_append]
    cases loginEv ev with
    | none => simpa using hold.symm
    | some ev' => simp [Log.extend, hold]
  · have hnew : log ⟨s, σ.calls.set i ⟨q, tr ++ [ev], p'⟩⟩ j = log σ j := by
      simp only [log, List.getElem?_set_ne hne.symm]
    rw [hnew]
    cases loginEv ev with
    | none => rfl
    | some ev' => simp [Log.extend, hne]

/-- What a statement does to the tables of the login. -/
lemma login_cases {l : CredStmt} {e : AuthEnv B} (h : CredStep X l e db db') :
    (∃ l', l = .auth l' ∧ AuthStep X.loginExt l' e db.auth db'.auth) ∨
    (∀ l', l ≠ .auth l') ∧ db'.auth.loginState = db.auth.loginState ∧
      ∀ row ∈ db'.auth.sessions.rows, row ∈ db.auth.sessions.rows := by
  cases h
  case same =>
    cases l
    case auth l' => exact .inl ⟨l', rfl, .same _ _ _⟩
    all_goals exact .inr ⟨(fun _ hl => by cases hl), rfl, fun _ h => h⟩
  case login l' s h => exact .inl ⟨l', rfl, h⟩
  case deleteSession | revokeUserSessions =>
    exact .inr ⟨(fun _ hl => by cases hl), rfl, fun row hrow => (Table.mem_delete.mp hrow).1⟩
  case storeReclaim | clearReclaim | registerTotpFailure | clearTotpFailures =>
    right
    unfold CredDb.setCols
    split <;> exact ⟨(fun _ hl => by cases hl), rfl, fun _ h => h⟩
  all_goals exact .inr ⟨(fun _ hl => by cases hl), rfl, fun _ h => h⟩

/-! ### Careful runs -/

/-- The key under which a statement takes a login state. -/
def takingKey : CredStmt → Option String
  | .auth l => taking l
  | _ => none

/-- Only logins, logouts and requests that present a bearer token are made. A state is
presented under one of its two keys only, and before it has expired; and no random bytes are
drawn twice. -/
def Careful (byName : B → Bool) (σ : CredSys B) : CredAct B → Prop
  | .call q => inScope q = true
  | .exec i e => ∀ c ∈ σ.calls[i]?, ∀ l ∈ c.prog.next,
    (∀ key ∈ takingKey l, ∀ en ∈ σ.shared.auth.loginState.get key,
      Offered byName en ∧ e.now ≤ en.created + loginStateTtlMs) ∧
    (l = .auth .random → ∀ c' ∈ σ.calls, ∀ ev ∈ logins c'.trace, ev.name = .random →
      ev.inp.random ≠ e.random)

instance [DecidableEq B] (byName : B → Bool) (σ : CredSys B) : ∀ a, Decidable (Careful byName σ a)
  | .call _ => inferInstanceAs (Decidable (_ = true))
  | .exec _ _ => inferInstanceAs (Decidable (∀ c ∈ _, ∀ l ∈ Prog.next _,
      (∀ key ∈ takingKey l, ∀ en ∈ _, _ ∧ _) ∧ (_ → ∀ c' ∈ _, ∀ ev ∈ _, _ → _ ≠ _)))

/-- The statement deletes the session with this token hash. -/
def Deletes (hash : String) (ev : CredEv B) : Prop :=
  ev.name = .deleteSession hash ∧ (ev.pre.auth.sessions.get hash).isSome ∧
    ev.post.auth.sessions.get hash = none

structure Good (X : CredExt B) (byName : B → Bool) (σ : CredSys B) : Prop where
  held : Held (fun _ => phasedC X) (Post X) σ
  does : Held (fun _ => promise (fun _ _ _ => True) (Does X)) (fun _ _ tr _ => Every (Does X) tr) σ
  inv : Inv X.loginExt byName (log σ) σ.shared.auth
  gone : ∀ c ∈ σ.calls, ∀ ev ∈ c.trace, ∀ hash, Deletes hash ev →
    LoggedOut X.loginExt (log σ) σ.shared.auth hash
  inTime : ∀ c ∈ σ.calls, ∀ ev ∈ logins c.trace, ∀ en ∈ taken ev,
    ev.inp.now ≤ en.created + loginStateTtlMs

variable {byName : B → Bool} {σ : CredSys B}

/-- The statements of a call lead to a phase. -/
lemma phase_of_held (h : Held (fun _ => phasedC X) (Post X) σ) {i : ℕ}
    {c : Call (CredReq B) (CredDb B) (AuthEnv B) CredStmt (CredReply B)}
    (hc : σ.calls[i]? = some c) : ∃ ph, At X.loginExt (logins c.trace) ph := by
  have hwp := h i c hc
  cases hp : c.prog with
  | ret a => rw [hp] at hwp; exact hwp.1
  | stmt l f k => rw [hp] at hwp; exact hwp.1

section Exec

variable {i : ℕ} {e : AuthEnv B} {q : CredReq B} {l : CredStmt}
  {f : AuthEnv B → CredDb B → CredDb B}
  {k : AuthEnv B → CredDb B → Prog (CredDb B) (AuthEnv B) CredStmt (CredReply B)}

/-- What a statement of a careful run does to the log and the tables of the login. -/
lemma states_exec (hX : FreshStates X.loginExt) (hX' : FreshKeys X.loginExt)
    (hg : Good X byName σ) (hc : σ.calls[i]? = some ⟨q, tr, .stmt l f k⟩)
    (hC : Careful byName σ (.exec i e))
    (hdoes : Does X ⟨l, e, σ.shared, f e σ.shared⟩) {ph : Phase B}
    (hat : At X.loginExt (logins (tr ++ [⟨l, e, σ.shared, f e σ.shared⟩])) ph) :
    let L := (loginEv ⟨l, e, σ.shared, f e σ.shared⟩).elim (log σ) ((log σ).extend i)
    Inv X.loginExt byName L (f e σ.shared).auth ∧
      ∀ hash, LoggedOut X.loginExt (log σ) σ.shared.auth hash →
        LoggedOut X.loginExt L (f e σ.shared).auth hash := by
  rcases login_cases hdoes with ⟨l', hl, hstep⟩ | ⟨hl, hlogin, hsess⟩
  · simp only at hl hstep
    subst hl
    obtain ⟨htake, hrand⟩ := hC _ hc _ rfl
    rw [logins_append, ← log_of_getElem hc] at hat
    have hpre : Inv X.loginExt byName (log σ)
        (⟨l', e, σ.shared.auth, (f e σ.shared).auth⟩ : AuthEv B).pre := hg.inv
    refine ⟨inv_step hX hpre hat hstep ?_ ?_, fun hash hout =>
      loggedOut_step hX' hpre hat hstep hout⟩
    · intro en hen
      cases l' with
      | takeLogin key => exact (htake key rfl en hen).1
      | _ => cases hen
    · rintro rfl j ev' hev'
      obtain ⟨c, hc', hmem⟩ := mem_log hev'
      exact hrand rfl c hc' ev' hmem
  · have hnone : loginEv (⟨l, e, σ.shared, f e σ.shared⟩ : CredEv B) = none := by
      cases l <;> first | rfl | exact absurd rfl (hl _)
    simp only [hnone, Option.elim_none]
    exact ⟨inv_shrink hg.inv hlogin hsess, fun hash hout =>
      ⟨hout.1, fun row hrow => hout.2 row (hsess row hrow)⟩⟩

lemma good_exec (hX : FreshStates X.loginExt) (hX' : FreshKeys X.loginExt)
    (hg : Good X byName σ) (hc : σ.calls[i]? = some ⟨q, tr, .stmt l f k⟩)
    (hC : Careful byName σ (.exec i e)) :
    let σ' : CredSys B := ⟨f e σ.shared,
      σ.calls.set i ⟨q, tr ++ [⟨l, e, σ.shared, f e σ.shared⟩], k e σ.shared⟩⟩
    Good X byName σ' ∧ ∀ hash, LoggedOut X.loginExt (log σ) σ.shared.auth hash →
      LoggedOut X.loginExt (log σ') σ'.shared.auth hash := by
  intro σ'
  have hlt : i < σ.calls.length := (List.getElem?_eq_some_iff.mp hc).1
  have hi : σ'.calls[i]? = some ⟨q, tr ++ [⟨l, e, σ.shared, f e σ.shared⟩], k e σ.shared⟩ :=
    List.getElem?_set_self hlt
  have hheld : Held (fun _ => phasedC X) (Post X) σ' :=
    held_exec hg.held hc trivial trivial (fun _ _ _ _ _ _ _ => trivial)
      (fun _ _ _ _ _ _ => trivial) fun _ _ _ _ _ _ h => h
  have hdo : Held (fun _ => promise (fun _ _ _ => True) (Does X)) (fun _ _ tr _ => Every (Does X) tr)
      σ' :=
    held_exec hg.does hc trivial trivial (fun _ _ _ _ _ _ _ => trivial)
      (fun _ _ _ _ _ _ => trivial) fun _ _ _ _ _ _ h => h
  obtain ⟨ph, hat⟩ := phase_of_held hheld hi
  have hev : Does X ⟨l, e, σ.shared, f e σ.shared⟩ := wp_every (hdo i _ hi) _ (by simp)
  obtain ⟨hinv, hout⟩ := states_exec hX hX' hg hc hC hev hat
  have hlog : log σ' = _ := log_exec hc (f e σ.shared)
  rw [← hlog] at hinv hout
  -- a statement of the new system is the new one or was there before
  have hold : ∀ c ∈ σ'.calls, ∀ ev ∈ c.trace, ev = ⟨l, e, σ.shared, f e σ.shared⟩ ∨
      ∃ c' ∈ σ.calls, ev ∈ c'.trace := by
    intro c hmem ev hev
    obtain ⟨j, hj⟩ := List.mem_iff_getElem?.mp hmem
    rcases getElem?_set_cases hj with ⟨-, rfl⟩ | ⟨-, hj⟩
    · rcases List.mem_append.mp hev with hev | hev
      · exact .inr ⟨_, List.mem_of_getElem? hc, hev⟩
      · exact .inl (List.mem_singleton.mp hev)
    · exact .inr ⟨c, List.mem_of_getElem? hj, hev⟩
  refine ⟨⟨hheld, hdo, hinv, ?_, ?_⟩, hout⟩
  · intro c hmem ev hev hash hdel
    rcases hold c hmem ev hev with rfl | ⟨c', hc', hev'⟩
    · -- the new statement deletes the session
      obtain ⟨hname, hsome, hnone⟩ := hdel
      simp only at hname hsome hnone
      subst hname
      obtain ⟨row, hrow⟩ := Option.isSome_iff_exists.mp hsome
      obtain ⟨j, hmint⟩ := hg.inv.sessions row (Table.get_mem hrow)
      rw [Table.get_key hrow] at hmint
      have hlog : log σ' = log σ := log_exec hc _
      refine ⟨⟨j, hlog ▸ hmint⟩, fun row' hrow' heq => ?_⟩
      rw [← heq, Table.get_of_mem hrow'] at hnone
      cases hnone
    · exact hout hash (hg.gone c' hc' ev hev' hash hdel)
  · intro c hmem ev hev en hen
    obtain ⟨ev₀, hev₀, hl⟩ := List.mem_filterMap.mp hev
    rcases hold c hmem ev₀ hev₀ with rfl | ⟨c', hc', hev'⟩
    · -- the new statement takes a state: that is so only in time
      cases l with
      | auth l' =>
        cases hl
        cases l' with
        | takeLogin key => exact (((hC _ hc _ rfl).1 key rfl) en hen).2
        | _ => cases hen
      | _ => cases hl
    · exact hg.inTime c' hc' ev (List.mem_filterMap.mpr ⟨ev₀, hev', hl⟩) en hen

end Exec

lemma good_call [DecidableEq B] (hg : Good X byName σ) {q : CredReq B} (hq : inScope q = true) :
    Good X byName (step (code X) σ (.call q)) := by
  have hlog : log (step (code X) σ (.call q)) = log σ := log_call σ q _
  have hold : ∀ c ∈ (step (code X) σ (.call q)).calls, c ∈ σ.calls ∨ c.trace = [] := by
    intro c hc
    refine (List.mem_append.mp hc).imp id fun hc => ?_
    rw [List.mem_singleton.mp hc]
  refine ⟨held_call hg.held (wp_code q hq), held_call hg.does (does_code q [] σ.shared every_nil), ?_,
    ?_, ?_⟩
  · rw [hlog]
    exact hg.inv
  · intro c hc ev hev hash hdel
    rcases hold c hc with h | h
    · rw [hlog]
      exact hg.gone c h ev hev hash hdel
    · rw [h] at hev
      cases hev
  · intro c hc ev hev
    rcases hold c hc with h | h
    · exact hg.inTime c h ev hev
    · rw [h] at hev
      cases hev

lemma good_step [DecidableEq B] (hX : FreshStates X.loginExt) (hX' : FreshKeys X.loginExt)
    (a : CredAct B) (hg : Good X byName σ) (hC : Careful byName σ a) :
    Good X byName (step (code X) σ a) := by
  rcases step_cases (h := code X) σ a with ⟨q, rfl, -⟩ | ⟨i, e, q, tr, l, f, k, rfl, hc, hst⟩ | hst
  · exact good_call hg hC
  · rw [hst]
    exact (good_exec hX hX' hg hc hC).1
  · rwa [hst]

/-! ### What careful runs keep -/

/-- Two requests that have finished a login have not taken the same state. -/
def Apart (c c' : Call (CredReq B) (CredDb B) (AuthEnv B) CredStmt (CredReply B)) : Prop :=
  finished c.req c.prog.result = true → finished c'.req c'.prog.result = true →
    ∀ ev ∈ logins c.trace, ∀ en ∈ taken ev, ∀ ev' ∈ logins c'.trace, ∀ en' ∈ taken ev',
      en.state ≠ en'.state

instance [DecidableEq B] : DecidableRel (Apart (B := B)) := fun _ _ =>
  inferInstanceAs (Decidable (_ → _ → ∀ ev ∈ _, ∀ en ∈ _, ∀ ev' ∈ _, ∀ en' ∈ _, _))

/-- A request that has finished a login has taken a state that was stored at most
`LOGIN_STATE_TTL_MS` before. -/
def InTime (σ : CredSys B) : Prop :=
  ∀ c ∈ σ.calls, finished c.req c.prog.result = true → ∃ ev ∈ logins c.trace, ∃ en ∈ taken ev,
    ∃ c' ∈ σ.calls, ∃ ev' ∈ logins c'.trace, storedState ev' = some en.state ∧
      ev.inp.now ≤ ev'.inp.now + loginStateTtlMs

instance [DecidableEq B] (σ : CredSys B) : Decidable (InTime σ) :=
  inferInstanceAs (Decidable (∀ c ∈ σ.calls, _ → ∃ ev ∈ _, ∃ en ∈ _, ∃ c' ∈ σ.calls, ∃ ev' ∈ _, _ ∧ _))

/-- The bearer token that a request was accepted with as a session. -/
def acceptedSession : CredReq B → Option (CredReply B) → Option String
  | .authUser bearer, some (.authUser (.ok _)) => some bearer
  | .authAny bearer, some (.authAny (.ok ⟨_, none⟩)) => some bearer
  | _, _ => none

/-- No request that is made after a logout has deleted the session is accepted with it. -/
def NoRevival [DecidableEq B] (X : CredExt B) (db : CredDb B) (as as' : List (CredAct B)) : Prop :=
  ∀ c ∈ (run (code X) (init db) (as ++ as')).calls.drop (run (code X) (init db) as).calls.length,
    ∀ bearer ∈ acceptedSession c.req c.prog.result,
      ∀ c' ∈ (run (code X) (init db) as).calls, ∀ ev ∈ c'.trace, ¬Deletes (X.hashToken bearer) ev

instance (hash : String) (ev : CredEv B) : Decidable (Deletes hash ev) :=
  inferInstanceAs (Decidable (_ ∧ _ ∧ _ = none))

instance [DecidableEq B] (X : CredExt B) (db : CredDb B) (as as' : List (CredAct B)) :
    Decidable (NoRevival X db as as') :=
  inferInstanceAs (Decidable (∀ c ∈ _, ∀ bearer ∈ _, ∀ c' ∈ _, ∀ ev ∈ _, ¬Deletes _ ev))

/-- Since the end of `as` the token is deleted, and the calls made since have seen no session
with it. -/
structure Out (X : CredExt B) (byName : B → Bool) (hash : String) (n : ℕ) (σ : CredSys B) :
    Prop where
  good : Good X byName σ
  out : LoggedOut X.loginExt (log σ) σ.shared.auth hash
  seen : ∀ (j : ℕ) (c : Call (CredReq B) (CredDb B) (AuthEnv B) CredStmt (CredReply B)),
    n ≤ j → σ.calls[j]? = some c → ∀ ev ∈ c.trace, ev.pre.auth.sessions.get hash = none

lemma out_step [DecidableEq B] (hX : FreshStates X.loginExt) (hX' : FreshKeys X.loginExt)
    {hash : String} {n : ℕ} (a : CredAct B) (ho : Out X byName hash n σ)
    (hC : Careful byName σ a) : Out X byName hash n (step (code X) σ a) := by
  refine ⟨good_step hX hX' a ho.good hC, ?_, ?_⟩
  · rcases step_cases (h := code X) σ a with ⟨q, rfl, hst⟩ | ⟨i, e, q, tr, l, f, k, rfl, hc, hst⟩ | hst
    · rw [hst, log_call]
      exact ho.out
    · rw [hst]
      exact (good_exec hX hX' ho.good hc hC).2 hash ho.out
    · rw [hst]
      exact ho.out
  · have hnone : σ.shared.auth.sessions.get hash = none := by
      rw [Option.eq_none_iff_forall_not_mem]
      exact fun row hrow => ho.out.2 row (Table.get_mem hrow) (Table.get_key hrow)
    rcases step_cases (h := code X) σ a with ⟨q, rfl, hst⟩ | ⟨i, e, q, tr, l, f, k, rfl, hc, hst⟩ | hst
    · rw [hst]
      intro j c hj hjc ev hev
      rw [List.getElem?_append] at hjc
      split at hjc
      · exact ho.seen j c hj hjc ev hev
      · rw [List.mem_singleton.mp (List.mem_of_getElem? hjc)] at hev
        cases hev
    · rw [hst]
      intro j c hj hjc ev hev
      rcases getElem?_set_cases hjc with ⟨rfl, rfl⟩ | ⟨-, hjc⟩
      · rcases List.mem_append.mp hev with hev | hev
        · exact ho.seen j _ hj hc ev hev
        · rw [List.mem_singleton.mp hev]
          exact hnone
      · exact ho.seen j c hj hjc ev hev
    · rw [hst]
      exact ho.seen

/-- A request that was accepted has seen the session. -/
lemma seen_of_accepted [DecidableEq B] {db : CredDb B} {as : List (CredAct B)}
    {c : Call (CredReq B) (CredDb B) (AuthEnv B) CredStmt (CredReply B)}
    (hc : c ∈ (run (code X) (init db) as).calls) {bearer : String}
    (h : bearer ∈ acceptedSession c.req c.prog.result) :
    ∃ ev ∈ c.trace, (ev.pre.auth.sessions.get (X.hashToken bearer)).isSome := by
  have hadm : ∃ user, Admitted X bearer user c.trace := by
    unfold acceptedSession at h
    split at h
    · next b user hreq hres =>
      cases h
      have := post_of_run hc hres
      rw [hreq] at this
      exact ⟨user, this⟩
    · next b user hreq hres =>
      cases h
      have := post_of_run hc hres
      rw [hreq] at this
      exact ⟨user, this⟩
    · cases h
  obtain ⟨user, row, -, ⟨ev, hev, -, hrow⟩, -⟩ := hadm
  exact ⟨ev, hev, by rw [hrow]; rfl⟩

/-- **Logins are for one use**: in every careful run of logins and logouts, a login state
leads to at most one session or pending token, and only within its lifetime; and a token
that a logout has deleted is not accepted again. -/
theorem logins_single_use [DecidableEq B] (X : CredExt B) (hX : FreshStates X.loginExt)
    (hX' : FreshKeys X.loginExt) (byName : B → Bool) (db : CredDb B)
    (hlogin : db.auth.loginState = .empty) (hsess : db.auth.sessions = .empty)
    (as as' : List (CredAct B)) (has : Along (code X) (Careful byName) (init db) (as ++ as')) :
    (run (code X) (init db) (as ++ as')).calls.Pairwise Apart ∧
    InTime (run (code X) (init db) (as ++ as')) ∧ NoRevival X db as as' := by
  have hinit : Good X byName (init db) :=
    ⟨held_init db, held_init db, inv_init hlogin hsess, nofun, nofun⟩
  have hgood := run_induction (fun σ a hg hC => good_step hX hX' a hg hC) hinit has
  obtain ⟨has₁, has₂⟩ := (along_append as as' _).mp has
  have hgood₁ := run_induction (fun σ a hg hC => good_step hX hX' a hg hC) hinit has₁
  refine ⟨?_, ?_, ?_⟩
  · -- no two logins take one state
    rw [List.pairwise_iff_getElem]
    intro i j hi hj hij _ _ ev hev en hen ev' hev' en' hen' heq
    rw [← log_of_getElem (List.getElem?_eq_getElem hi)] at hev
    rw [← log_of_getElem (List.getElem?_eq_getElem hj)] at hev'
    exact absurd (hgood.inv.apart i j ev hev ev' hev' en hen en' hen' heq) (by omega)
  · intro c hc hfin
    obtain ⟨i, hi⟩ := List.mem_iff_getElem?.mp hc
    -- a login that is finished has taken a state that was stored in time
    have hpost := hgood.held i c hi
    cases hp : c.prog with
    | stmt l f k =>
      rw [hp] at hfin
      exact absurd hfin (by simp [Prog.result, finished_none])
    | ret a =>
      rw [hp] at hpost hfin
      obtain ⟨ev, hev, hsome⟩ := hpost.2 hfin
      obtain ⟨en, hen⟩ := Option.isSome_iff_exists.mp hsome
      have hlog := log_of_getElem hi
      obtain ⟨⟨j, ev', hev', hst, hnow⟩, -⟩ := hgood.inv.consumed i ev (hlog ▸ hev) en hen
      obtain ⟨c', hc', hmem⟩ := mem_log hev'
      exact ⟨ev, hev, en, hen, c', hc', ev', hmem, hst, hnow ▸ hgood.inTime c hc ev hev en hen⟩
  · intro c hc bearer hb c' hc' ev hev hdel
    -- a session that is deleted is not found again
    have hout : Out X byName (X.hashToken bearer) (run (code X) (init db) as).calls.length
        (run (code X) (init db) (as ++ as')) := by
      rw [run_append]
      refine run_induction (fun σ a ho hC => out_step hX hX' a ho hC)
        ⟨hgood₁, hgood₁.gone c' hc' ev hev _ hdel, ?_⟩ has₂
      intro j c hj hjc
      rw [List.getElem?_eq_none hj] at hjc
      cases hjc
    obtain ⟨j, hj⟩ := List.mem_iff_getElem?.mp hc
    rw [List.getElem?_drop] at hj
    obtain ⟨ev', hev', hsome⟩ := seen_of_accepted (List.mem_of_mem_drop hc) hb
    rw [hout.seen _ c (Nat.le_add_right _ _) hj ev' hev'] at hsome
    cases hsome

/-! ### A login state that is taken twice -/

/-- A server state is one byte, which its session key starts with. -/
def tagged : CredExt (List ℕ) :=
  { bytes with
    serverLoginFinish := fun state upload =>
      match state with
      | [a] => if a < 64 then .ok (4 * a :: upload) else .error "state"
      | _ => .error "state" }

lemma head_base64url (n : ℕ) (l : List ℕ) : (base64url (n :: l)).head? = some (sextet (n / 4)) := by
  rcases l with _ | ⟨b, _ | ⟨c, l⟩⟩ <;> rfl

lemma sextet_injective : ∀ m < 64, ∀ n < 64, sextet m = sextet n → m = n := by decide +kernel

lemma freshStates_tagged : FreshStates tagged.loginExt := by
  intro r r' _ _ _ _ _ _ _ _ m m' sstate h h'
  cases h
  cases h'
  rfl

lemma freshKeys_tagged : FreshKeys tagged.loginExt := by
  have hstate : ∀ {sstate upload key : List ℕ},
      tagged.loginExt.serverLoginFinish sstate upload = .ok key →
      ∃ a < 64, sstate = [a] ∧ key = 4 * a :: upload := by
    intro sstate upload key h
    simp only [tagged, CredExt.loginExt] at h
    split at h
    · next a =>
      split at h
      · next ha => exact ⟨a, ha, rfl, (Except.ok.inj h).symm⟩
      · cases h
    · cases h
  intro sstate sstate' upload upload' key key' h h' heq
  obtain ⟨a, ha, rfl, rfl⟩ := hstate h
  obtain ⟨a', ha', rfl, rfl⟩ := hstate h'
  have hlist : base64url (4 * a :: upload) = base64url (4 * a' :: upload') :=
    String.ofList_injective heq
  have hhead := congrArg List.head? hlist
  rw [head_base64url, head_base64url, Nat.mul_div_cancel_left _ (by decide),
    Nat.mul_div_cancel_left _ (by decide), Option.some.injEq] at hhead
  rw [sextet_injective a ha a' ha' hhead]

/-- Nobody has a session. -/
def noSessions : CredDb (List ℕ) :=
  { oneUser with auth := { oneUser.auth with sessions := .empty } }

/-- A login that is finished under its handle, and a logout. -/
def inAndOut : List (CredAct (List ℕ)) :=
  let e : AuthEnv (List ℕ) := ⟨1, 5, [9], false⟩
  serving 0 (.login (.loginStart ⟨"alice", some []⟩)) 3 e ++
  serving 1 (.login (.loginFinish ⟨"alice", some [1], some ("vtr-lh-" ++ bytes.simple 5)⟩)) 9 e ++
  serving 2 (.logout (bytes.b64 [36, 1])) 4 e

/-- The token is presented once more. -/
def presented (i : ℕ) : List (CredAct (List ℕ)) :=
  serving i (.authUser (bytes.b64 [36, 1])) 3 ⟨1, 5, [9], false⟩

/-- The login is finished once more, under the username and with the same upload. -/
def replayed : List (CredAct (List ℕ)) :=
  serving 3 (.login (.loginFinish ⟨"alice", some [1], none⟩)) 9 ⟨1, 5, [9], false⟩ ++ presented 4

theorem logins_single_use_once :
    (run (code tagged) (init noSessions) (inAndOut ++ presented 3)).calls.Pairwise Apart ∧
    InTime (run (code tagged) (init noSessions) (inAndOut ++ presented 3)) ∧
    NoRevival tagged noSessions inAndOut (presented 3) :=
  logins_single_use tagged freshStates_tagged freshKeys_tagged (fun _ => false) noSessions rfl rfl
    inAndOut (presented 3) (by decide +kernel)

/-- A state that was stored under two keys is taken twice, and the token that a logout has
deleted is accepted again. -/
theorem login_finished_twice :
    ¬∀ as as' : List (CredAct (List ℕ)),
      (run (code tagged) (init noSessions) (as ++ as')).calls.Pairwise Apart ∧
      InTime (run (code tagged) (init noSessions) (as ++ as')) ∧
      NoRevival tagged noSessions as as' := by
  intro h
  have := (h inAndOut replayed).2.2
  revert this
  decide +kernel

end Vautr.LoginReplay
