import Vautr.LoginPhases

/-!
What becomes of login states and session tokens, as long as every state is presented under
only one of the two keys under which `login_start` stores it.

The statements of all calls on the tables of the login are a log, one list for each call.
The invariant ties the log to the tables: every stored state was drawn by one call, a state
that was taken is not offered again, and every session token was made of a state that one
call has taken.
-/

namespace Vautr.LoginStates

open Vautr.Atomic Vautr.Interleave Vautr.Sql Vautr.Database Vautr.Api Vautr.Server Vautr.Auth
open Vautr.LoginBinding Vautr.CredEffects Vautr.LoginPhases

variable {B : Type} {X : Opaque B} {s s' : AuthDb B}

/-! ### Logs -/

/-- What each call has run. -/
abbrev Log (B : Type) := ℕ → List (AuthEv B)

/-- The log after the `i`-th call has run a statement. -/
def Log.extend (L : Log B) (i : ℕ) (ev : AuthEv B) : Log B :=
  fun j => if j = i then L j ++ [ev] else L j

variable {L : Log B} {i : ℕ} {ev : AuthEv B}

lemma mem_extend {ev' : AuthEv B} {j : ℕ} :
    ev' ∈ L.extend i ev j ↔ ev' ∈ L j ∨ j = i ∧ ev' = ev := by
  unfold Log.extend
  split
  · next h => simp [h]
  · next h => simp [h]

/-- The state that the statement stores. -/
def storedState (ev : AuthEv B) : Option B :=
  match ev.name with
  | .storeLogin username => (ev.post.loginState.get username).map (·.state)
  | _ => none

/-- The state was stored at the time `t`. -/
def Stored (L : Log B) (sstate : B) (t : ℤ) : Prop :=
  ∃ i, ∃ ev ∈ L i, storedState ev = some sstate ∧ ev.inp.now = t

/-- The `i`-th call has stored a session whose token hash is `hash`, of a state it took. -/
def Mints (X : Opaque B) (tr : List (AuthEv B)) (hash : String) : Prop :=
  (∃ ev ∈ tr, ∃ user, ev.name = .storeSession user) ∧ ∃ ev ∈ tr, ∃ en ∈ taken ev,
    ∃ upload key, X.serverLoginFinish en.state upload = .ok key ∧ hash = X.hashSessionToken key

/-! ### The entry that is meant to be taken -/

/-- The entry is under the key that is presented for its state: the username if `byName` says
so, the handle otherwise. -/
def Offered (byName : B → Bool) (en : LoginEntry B) : Prop :=
  en.key = en.startedBy ↔ byName en.state = true

instance (byName : B → Bool) (en : LoginEntry B) : Decidable (Offered byName en) :=
  inferInstanceAs (Decidable (_ ↔ _))

/-- The entries after a `login_start`: old ones, and those of the new state. -/
lemma mem_loginStored {username : String} {sstate : B} {e : AuthEnv B} {en : LoginEntry B}
    (h : en ∈ (loginStored X username sstate e s).loginState.rows) : en ∈ s.loginState.rows ∨
      en.state = sstate ∧ en.created = e.now ∧ en.startedBy = username ∧
        (en.key = username ∨ en.key = "vtr-lh-" ++ X.simple e.uuid) := by
  rcases Table.mem_upsert h with h | rfl | ⟨r, -, hk, rfl⟩
  · rcases Table.mem_upsert h with h | rfl | ⟨r, -, hk, rfl⟩
    · exact .inl (Table.mem_delete.mp h).1
    · exact .inr ⟨rfl, rfl, rfl, .inr rfl⟩
    · exact .inr ⟨rfl, rfl, rfl, .inr hk⟩
  · exact .inr ⟨rfl, rfl, rfl, .inl rfl⟩
  · exact .inr ⟨rfl, rfl, rfl, .inl hk⟩

lemma get_loginStored {username : String} {sstate : B} {e : AuthEnv B} :
    ((loginStored X username sstate e s).loginState.get username).map (·.state) = some sstate := by
  unfold loginStored
  rw [Table.get_upsert, if_pos rfl, Option.map_some]
  generalize Table.get _ username = o
  cases o <;> rfl

/-! ### The invariant -/

structure Inv (X : Opaque B) (byName : B → Bool) (L : Log B) (s : AuthDb B) : Prop where
  phases : ∀ i, ∃ ph, At X (L i) ph
  stored : ∀ en ∈ s.loginState.rows, Stored L en.state en.created
  distinct : ∀ en ∈ s.loginState.rows, ∀ en' ∈ s.loginState.rows, Offered byName en →
    Offered byName en' → en.state = en'.state → en.key = en'.key
  consumed : ∀ i, ∀ ev ∈ L i, ∀ en ∈ taken ev, Stored L en.state en.created ∧
    ∀ en' ∈ s.loginState.rows, Offered byName en' → en'.state ≠ en.state
  apart : ∀ i j, ∀ ev ∈ L i, ∀ ev' ∈ L j, ∀ en ∈ taken ev, ∀ en' ∈ taken ev',
    en.state = en'.state → i = j
  draws : ∀ i j, ∀ ev ∈ L i, ∀ ev' ∈ L j, ev.name = .random → ev'.name = .random →
    ev.inp.random = ev'.inp.random → i = j
  sessions : ∀ row ∈ s.sessions.rows, ∃ i, Mints X (L i) row.tokenHash

variable {byName : B → Bool}

lemma inv_init (hl : s.loginState = .empty) (hs : s.sessions = .empty) :
    Inv X byName (fun _ => []) s := by
  have hrows : s.loginState.rows = [] := by rw [hl]; rfl
  have hsess : s.sessions.rows = [] := by rw [hs]; rfl
  exact ⟨fun _ => ⟨.before, rfl⟩, by simp [hrows], by simp [hrows], by simp, by simp, by simp,
    by simp [hsess]⟩

/-- Statements on other tables may delete sessions. -/
lemma inv_shrink (hinv : Inv X byName L s) (hlogin : s'.loginState = s.loginState)
    (hsess : ∀ row ∈ s'.sessions.rows, row ∈ s.sessions.rows) : Inv X byName L s' := by
  refine ⟨hinv.phases, ?_, ?_, ?_, hinv.apart, hinv.draws,
    fun row hrow => hinv.sessions row (hsess row hrow)⟩
  · rw [hlogin]
    exact hinv.stored
  · rw [hlogin]
    exact hinv.distinct
  · rw [hlogin]
    exact hinv.consumed

/-- What is stored and what is minted stays so. -/
lemma stored_extend {sstate : B} {t : ℤ} (h : Stored L sstate t) :
    Stored (L.extend i ev) sstate t := by
  obtain ⟨j, ev', hev', hst⟩ := h
  exact ⟨j, ev', mem_extend.mpr (.inl hev'), hst⟩

lemma mints_extend {hash : String} (h : ∃ j, Mints X (L j) hash) :
    ∃ j, Mints X (L.extend i ev j) hash := by
  obtain ⟨j, ⟨ev₁, hev₁, hn⟩, ev₂, hev₂, hrest⟩ := h
  exact ⟨j, ⟨ev₁, mem_extend.mpr (.inl hev₁), hn⟩, ev₂, mem_extend.mpr (.inl hev₂), hrest⟩

lemma phases_extend (hinv : Inv X byName L s) {ph ph' : Phase B} (h : At X (L i) ph)
    (hm : Move X ph ev ph') (j : ℕ) : ∃ ph, At X (L.extend i ev j) ph := by
  unfold Log.extend
  split
  · next hj => exact ⟨ph', at_append (hj ▸ h) hm⟩
  · exact hinv.phases j

/-- Random bytes that were not drawn before. -/
def Fresh (L : Log B) (ev : AuthEv B) : Prop :=
  ev.name = .random → ∀ j, ∀ ev' ∈ L j, ev'.name = .random → ev'.inp.random ≠ ev.inp.random

lemma draws_extend (hinv : Inv X byName L s) (hfresh : Fresh L ev) :
    ∀ j k, ∀ ev₁ ∈ L.extend i ev j, ∀ ev₂ ∈ L.extend i ev k, ev₁.name = .random →
      ev₂.name = .random → ev₁.inp.random = ev₂.inp.random → j = k := by
  intro j k ev₁ hev₁ ev₂ hev₂ hn₁ hn₂ heq
  rcases mem_extend.mp hev₁ with h₁ | ⟨rfl, rfl⟩ <;> rcases mem_extend.mp hev₂ with h₂ | ⟨rfl, rfl⟩
  · exact hinv.draws j k ev₁ h₁ ev₂ h₂ hn₁ hn₂ heq
  · exact absurd heq (hfresh hn₂ j ev₁ h₁ hn₁)
  · exact absurd heq.symm (hfresh hn₁ k ev₂ h₂ hn₂)
  · rfl

/-- A statement that takes no state and brings none, and brings sessions only for states that
were taken. -/
lemma inv_calm (hinv : Inv X byName L ev.pre) (hph : ∀ j, ∃ ph, At X (L.extend i ev j) ph)
    (hfresh : Fresh L ev) (htaken : taken ev = none)
    (hlogin : ∀ en ∈ ev.post.loginState.rows, en ∈ ev.pre.loginState.rows)
    (hsess : ∀ row ∈ ev.post.sessions.rows, row ∈ ev.pre.sessions.rows ∨
      Mints X (L.extend i ev i) row.tokenHash) : Inv X byName (L.extend i ev) ev.post := by
  have htake : ∀ j, ∀ ev' ∈ L.extend i ev j, ∀ en ∈ taken ev', ev' ∈ L j := by
    intro j ev' hev' en hen
    rcases mem_extend.mp hev' with h | ⟨-, rfl⟩
    · exact h
    · rw [htaken] at hen
      cases hen
  refine ⟨hph, fun en hen => stored_extend (hinv.stored en (hlogin en hen)),
    fun en hen en' hen' => hinv.distinct en (hlogin en hen) en' (hlogin en' hen'), ?_, ?_,
    draws_extend hinv hfresh, ?_⟩
  · intro j ev' hev' en hen
    obtain ⟨hst, hne⟩ := hinv.consumed j ev' (htake j ev' hev' en hen) en hen
    exact ⟨stored_extend hst, fun en' hen' => hne en' (hlogin en' hen')⟩
  · intro j k ev₁ hev₁ ev₂ hev₂ en₁ hen₁ en₂ hen₂
    exact hinv.apart j k ev₁ (htake j ev₁ hev₁ en₁ hen₁) ev₂ (htake k ev₂ hev₂ en₂ hen₂) en₁ hen₁ en₂
      hen₂
  · intro row hrow
    rcases hsess row hrow with h | h
    · exact mints_extend (hinv.sessions row h)
    · exact ⟨i, h⟩

/-- A `login_start` stores a state that was not stored before. -/
lemma inv_store {username : String} {sstate : B} (hinv : Inv X byName L ev.pre)
    (hph : ∀ j, ∃ ph, At X (L.extend i ev j) ph) (hname : ev.name = .storeLogin username)
    (hpost : ev.post = loginStored X username sstate ev.inp ev.pre)
    (hnew : ∀ t, ¬Stored L sstate t) : Inv X byName (L.extend i ev) ev.post := by
  have htaken : taken ev = none := by simp [taken, taking, hname]
  have htake : ∀ j, ∀ ev' ∈ L.extend i ev j, ∀ en ∈ taken ev', ev' ∈ L j := by
    intro j ev' hev' en hen
    rcases mem_extend.mp hev' with h | ⟨-, rfl⟩
    · exact h
    · rw [htaken] at hen
      cases hen
  have hst : storedState ev = some sstate := by
    simp only [storedState, hname, hpost]
    exact get_loginStored
  have hrows : ∀ en ∈ ev.post.loginState.rows, en ∈ ev.pre.loginState.rows ∨
      en.state = sstate ∧ en.created = ev.inp.now ∧ en.startedBy = username ∧
        (en.key = username ∨ en.key = "vtr-lh-" ++ X.simple ev.inp.uuid) := by
    intro en hen
    rw [hpost] at hen
    exact mem_loginStored hen
  have hold : ∀ en ∈ ev.pre.loginState.rows, en.state ≠ sstate :=
    fun en hen heq => hnew _ (heq ▸ hinv.stored en hen)
  refine ⟨hph, ?_, ?_, ?_, ?_, draws_extend hinv (fun h => by rw [hname] at h; cases h), ?_⟩
  · -- each entry belongs to a state that was stored
    intro en hen
    rcases hrows en hen with h | ⟨hs, hc, -⟩
    · exact stored_extend (hinv.stored en h)
    · exact ⟨i, ev, mem_extend.mpr (.inr ⟨rfl, rfl⟩), by rw [hst, hs], hc.symm⟩
  · -- one state is offered under one key: the new one was not there before
    intro en hen en' hen' ho ho' heq
    rcases hrows en hen with h | ⟨hs, -, hby, hk⟩ <;> rcases hrows en' hen' with h' | ⟨hs', -, hby', hk'⟩
    · exact hinv.distinct en h en' h' ho ho' heq
    · exact absurd (heq.trans hs') (hold en h)
    · exact absurd (heq.symm.trans hs) (hold en' h')
    · unfold Offered at ho ho'
      rw [hby, hs] at ho
      rw [hby', hs'] at ho'
      have hiff : en.key = username ↔ en'.key = username := ho.trans ho'.symm
      rcases hk with hk | hk <;> rcases hk' with hk' | hk'
      · rw [hk, hk']
      · rw [hk, hiff.mp hk]
      · rw [hiff.mpr hk', hk']
      · rw [hk, hk']
  · intro j ev' hev' en hen
    -- what was taken before is not stored again
    obtain ⟨hst', hne⟩ := hinv.consumed j ev' (htake j ev' hev' en hen) en hen
    refine ⟨stored_extend hst', fun en' hen' ho' heq => ?_⟩
    rcases hrows en' hen' with h | ⟨hs, -⟩
    · exact hne en' h ho' heq
    · exact hnew _ (hs ▸ heq ▸ hst')
  · intro j k ev₁ hev₁ ev₂ hev₂ en₁ hen₁ en₂ hen₂
    exact hinv.apart j k ev₁ (htake j ev₁ hev₁ en₁ hen₁) ev₂ (htake k ev₂ hev₂ en₂ hen₂) en₁ hen₁ en₂
      hen₂
  · -- the sessions stay
    intro row hrow
    rw [hpost] at hrow
    exact mints_extend (hinv.sessions row hrow)

/-- A `login_finish` takes the entry that is meant to be taken. -/
lemma inv_take {key : String} {en : LoginEntry B} (hinv : Inv X byName L ev.pre)
    (hph : ∀ j, ∃ ph, At X (L.extend i ev j) ph) (hname : ev.name = .takeLogin key)
    (hget : ev.pre.loginState.get key = some en)
    (hpost : ev.post = { ev.pre with loginState := ev.pre.loginState.delete fun r => r.key = key })
    (hoff : Offered byName en) : Inv X byName (L.extend i ev) ev.post := by
  have htaken : taken ev = some en := by simp [taken, taking, hname, hget]
  have hmem := Table.get_mem hget
  have hrows : ∀ en' ∈ ev.post.loginState.rows, en' ∈ ev.pre.loginState.rows ∧ en'.key ≠ key := by
    intro en' hen'
    rw [hpost] at hen'
    simpa using Table.mem_delete.mp hen'
  refine ⟨hph, fun en' hen' => stored_extend (hinv.stored en' (hrows en' hen').1),
    fun en₁ h₁ en₂ h₂ => hinv.distinct en₁ (hrows en₁ h₁).1 en₂ (hrows en₂ h₂).1, ?_, ?_,
    draws_extend hinv (fun h => by rw [hname] at h; cases h), ?_⟩
  · intro j ev' hev' en' hen'
    rcases mem_extend.mp hev' with h | ⟨-, rfl⟩
    · obtain ⟨hst, hne⟩ := hinv.consumed j ev' h en' hen'
      exact ⟨stored_extend hst, fun en₁ h₁ => hne en₁ (hrows en₁ h₁).1⟩
    · rw [htaken, Option.mem_some] at hen'
      subst hen'
      refine ⟨stored_extend (hinv.stored en hmem), fun en₁ h₁ ho₁ heq => ?_⟩
      obtain ⟨hpre, hne⟩ := hrows en₁ h₁
      exact hne ((hinv.distinct en₁ hpre en hmem ho₁ hoff heq).trans (Table.get_key hget))
  · intro j k ev₁ hev₁ ev₂ hev₂ en₁ hen₁ en₂ hen₂ heq
    rcases mem_extend.mp hev₁ with h₁ | ⟨rfl, rfl⟩ <;> rcases mem_extend.mp hev₂ with h₂ | ⟨rfl, rfl⟩
    · exact hinv.apart j k ev₁ h₁ ev₂ h₂ en₁ hen₁ en₂ hen₂ heq
    · rw [htaken, Option.mem_some] at hen₂
      subst hen₂
      exact absurd heq.symm ((hinv.consumed j ev₁ h₁ en₁ hen₁).2 en hmem hoff)
    · rw [htaken, Option.mem_some] at hen₁
      subst hen₁
      exact absurd heq ((hinv.consumed k ev₂ h₂ en₂ hen₂).2 en hmem hoff)
    · rfl
  · intro row hrow
    rw [hpost] at hrow
    exact mints_extend (hinv.sessions row hrow)

/-- The sessions after one is stored: old ones, and one with the given hash. -/
lemma mem_sessionStored {hash : String} {user : Ident} {expiresAt now : ℤ} {row : SessionRow}
    (h : row ∈ (sessionStored hash user expiresAt now s).sessions.rows) :
    row ∈ s.sessions.rows ∨ row.tokenHash = hash := by
  rcases Table.mem_upsert h with h | rfl | ⟨r, -, hk, rfl⟩
  · exact .inl h
  · exact .inr rfl
  · exact .inr hk

/-- A `login_finish` stores a session for the state it took. -/
lemma inv_mint {sstate upload key : B} {user : Ident} {expiresAt : ℤ}
    (hinv : Inv X byName L ev.pre) (hph : ∀ j, ∃ ph, At X (L.extend i ev j) ph)
    (htook : At X (L i) (.took sstate)) (hname : ev.name = .storeSession user)
    (hkey : X.serverLoginFinish sstate upload = .ok key)
    (hpost : ev.post = sessionStored (X.hashSessionToken key) user expiresAt ev.inp.now ev.pre) :
    Inv X byName (L.extend i ev) ev.post := by
  refine inv_calm hinv hph (fun h => by rw [hname] at h; cases h) (by simp [taken, taking, hname])
    (fun en hen => by rw [hpost] at hen; exact hen) fun row hrow => ?_
  rw [hpost] at hrow
  refine (mem_sessionStored hrow).imp id fun hhash => ?_
  obtain ⟨ev', hev', en, hen, rfl⟩ := at_took htook
  exact ⟨⟨ev, mem_extend.mpr (.inr ⟨rfl, rfl⟩), user, hname⟩, ev', mem_extend.mpr (.inl hev'), en, hen,
    upload, key, hkey, hhash⟩

/-! ### A step -/

/-- A server state is made of random bytes that it determines. -/
def FreshStates (X : Opaque B) : Prop :=
  ∀ r r' setup setup' record record' lreq lreq' username username' m m' sstate,
    X.serverLoginStart r setup record lreq username = .ok (m, sstate) →
    X.serverLoginStart r' setup' record' lreq' username' = .ok (m', sstate) → r = r'

/-- A token hash belongs to one server state. -/
def FreshKeys (X : Opaque B) : Prop :=
  ∀ sstate sstate' upload upload' key key', X.serverLoginFinish sstate upload = .ok key →
    X.serverLoginFinish sstate' upload' = .ok key' →
    X.hashSessionToken key = X.hashSessionToken key' → sstate = sstate'

/-- A quiet statement brings neither a state nor a session. -/
lemma rows_of_quiet {l : AuthStmt} {e : AuthEnv B} (h : AuthStep X l e s s')
    (hq : quiet l = true) :
    s'.loginState = s.loginState ∧ ∀ row ∈ s'.sessions.rows, row ∈ s.sessions.rows := by
  cases h
  case storeLogin => cases hq
  case takeLogin => cases hq
  case storeSession => cases hq
  case purgeSessions => exact ⟨rfl, fun row hrow => (Table.mem_delete.mp hrow).1⟩
  all_goals exact ⟨rfl, fun _ h => h⟩

/-- The state that a `login_start` is about to store was not stored before. -/
lemma not_stored (hinv : Inv X byName L s) (hX : FreshStates X) {r sstate : B} {username : String}
    (hdrew : At X (L i) (.drew r))
    (hstate : ∃ setup record lreq m,
      X.serverLoginStart r setup record lreq username = .ok (m, sstate)) (t : ℤ) :
    ¬Stored L sstate t := by
  rintro ⟨j, ev, hev, hst, -⟩
  obtain ⟨ph, hph⟩ := hinv.phases j
  obtain ⟨setup, record, lreq, m, hr⟩ := hstate
  cases hname : ev.name with
  | storeLogin username' =>
    obtain ⟨-, ev', hev', hrand', setup', record', lreq', m', sstate', hr', hpost⟩ :=
      of_storeLogin hph hev hname
    obtain rfl : sstate' = sstate := by
      simp only [storedState, hname, hpost] at hst
      exact Option.some.inj (get_loginStored.symm.trans hst)
    -- the random bytes are the same, so it is the same call, and its login is over
    obtain ⟨ev₁, hev₁, hrand₁, rfl⟩ := at_drew hdrew
    obtain rfl : i = j :=
      hinv.draws i j ev₁ hev₁ ev' hev' hrand₁ hrand' (hX _ _ _ _ _ _ _ _ _ _ _ _ _ hr hr')
    cases (of_storeLogin hdrew hev hname).1
  | _ => simp [storedState, hname] at hst

/-- **One statement** of a login keeps the invariant. -/
lemma inv_step (hX : FreshStates X) (hinv : Inv X byName L ev.pre) {ph : Phase B}
    (hat : At X (L i ++ [ev]) ph) (hdoes : AuthDoes X ev)
    (hoff : ∀ en ∈ taken ev, Offered byName en) (hfresh : Fresh L ev) :
    Inv X byName (L.extend i ev) ev.post := by
  obtain ⟨ph₀, hat₀, hm⟩ := (follows_append ev).mp hat
  have hph : ∀ j, ∃ ph, At X (L.extend i ev j) ph := phases_extend hinv hat₀ hm
  have hquiet : quiet ev.name = true → Inv X byName (L.extend i ev) ev.post := by
    intro hq
    obtain ⟨hlogin, hsess⟩ := rows_of_quiet hdoes hq
    refine inv_calm hinv hph hfresh ?_ (fun en hen => hlogin ▸ hen) fun row hrow =>
      .inl (hsess row hrow)
    unfold taken
    cases hname : ev.name <;> first | rfl | (rw [hname] at hq; cases hq)
  cases hm with
  | quiet _ _ hq => exact hquiet hq
  | draw _ hname => exact hquiet (by rw [hname]; rfl)
  | store r _ username sstate hname hpost hstate =>
    exact inv_store hinv hph hname hpost (not_stored hinv hX hat₀ hstate)
  | miss _ key hname hnone hpost =>
    refine inv_calm hinv hph hfresh (by simp [taken, taking, hname, hnone]) (fun en hen => ?_)
      fun row hrow => .inl (by rw [hpost] at hrow; exact hrow)
    rw [hpost] at hen
    exact (Table.mem_delete.mp hen).1
  | take _ key en hname hget hpost =>
    exact inv_take hinv hph hname hget hpost (hoff en (by simp [taken, taking, hname, hget]))
  | mint sstate upload key _ user expiresAt hname hkey hpost =>
    exact inv_mint hinv hph hat₀ hname hkey hpost
  | fail sstate _ user hname hpost =>
    exact inv_calm hinv hph hfresh (by simp [taken, taking, hname]) (fun en hen => hpost ▸ hen)
      fun row hrow => .inl (hpost ▸ hrow)

/-! ### Tokens that were deleted -/

/-- The token was stored and is no more. -/
def LoggedOut (X : Opaque B) (L : Log B) (s : AuthDb B) (hash : String) : Prop :=
  (∃ j, Mints X (L j) hash) ∧ ∀ row ∈ s.sessions.rows, row.tokenHash ≠ hash

/-- **A deleted token stays deleted**: to store it again would take its state once more. -/
lemma loggedOut_step (hX : FreshKeys X) {hash : String} (hinv : Inv X byName L ev.pre)
    {ph : Phase B} (hat : At X (L i ++ [ev]) ph) (hdoes : AuthDoes X ev)
    (hout : LoggedOut X L ev.pre hash) : LoggedOut X (L.extend i ev) ev.post hash := by
  obtain ⟨ph₀, hat₀, hm⟩ := (follows_append ev).mp hat
  refine ⟨mints_extend hout.1, ?_⟩
  have hquiet : quiet ev.name = true → ∀ row ∈ ev.post.sessions.rows, row.tokenHash ≠ hash :=
    fun hq row hrow => hout.2 row ((rows_of_quiet hdoes hq).2 row hrow)
  cases hm with
  | quiet _ _ hq => exact hquiet hq
  | draw _ hname => exact hquiet (by rw [hname]; rfl)
  | store r _ username sstate hname hpost hstate => rw [hpost]; exact hout.2
  | miss _ key hname hnone hpost => rw [hpost]; exact hout.2
  | take _ key en hname hget hpost => rw [hpost]; exact hout.2
  | fail sstate _ user hname hpost => rw [hpost]; exact hout.2
  | mint sstate upload key _ user expiresAt hname hkey hpost =>
    rw [hpost]
    intro row hrow
    rcases mem_sessionStored hrow with h | h
    · exact hout.2 row h
    · rintro rfl
      obtain ⟨⟨j, ⟨ev₁, hev₁, user₁, hn₁⟩, ev₂, hev₂, en, hen, upload', key', hkey', hhash⟩, -⟩ := hout
      obtain ⟨ev₃, hev₃, en', hen', rfl⟩ := at_took hat₀
      have hst : en'.state = en.state := hX _ _ _ _ _ _ hkey hkey' (h.symm.trans hhash)
      obtain rfl : i = j := hinv.apart i j ev₃ hev₃ ev₂ hev₂ en' hen' en hen hst
      cases over_of_storeSession hat₀ hev₁ hn₁

end Vautr.LoginStates
