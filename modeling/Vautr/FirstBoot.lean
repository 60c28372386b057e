import Vautr.CredEffects

/-!
What the first requests of a new server agree on: the OPAQUE setup and the public key, which
the first request that needs them generates and stores in `server_config`.

`server_setup` and `server_public_key` read, generate, write and read again. Of two requests
that both found nothing the second overwrites what the first one wrote, so the first one has
already served a value that is gone. They agree in the runs in which no request writes a key
under which some request has read a value.
-/

namespace Vautr.FirstBoot

open Vautr.Atomic Vautr.Interleave Vautr.Sql Vautr.Database Vautr.Api Vautr.Server Vautr.Auth
open Vautr.LoginBinding Vautr.CredEffects

variable {B : Type}

/-! ### The requests -/

/-- A call of one of the two functions, or a request with such calls in it. -/
inductive BootReq (B : Type)
  | serverSetup
  | serverPublicKey
  | auth (q : AuthReq B)

inductive BootReply (B : Type)
  | serverSetup (r : Except ApiError B)
  | serverPublicKey (r : Except ApiError B)
  | auth (r : AuthReply B)

def boot [DecidableEq B] (X : Opaque B) :
    BootReq B → Prog (AuthDb B) (AuthEnv B) AuthStmt (BootReply B)
  | .serverSetup => (serverSetup X).run >>= fun r => .ret (.serverSetup r)
  | .serverPublicKey => (serverPublicKey X).run >>= fun r => .ret (.serverPublicKey r)
  | .auth q => serve X q >>= fun r => .ret (.auth r)

abbrev BootSys (B : Type) := Sys (BootReq B) (AuthDb B) (AuthEnv B) AuthStmt (BootReply B)

/-- The setup that the server has: that of the file, if it is told to use one. -/
def storedSetup (X : Opaque B) (db : AuthDb B) : Option B :=
  match X.setupFile with
  | some file => file
  | none => (db.config.get "opaque_server_setup").map (·.2)

def storedKey (db : AuthDb B) : Option B := (db.config.get "server_public_key").map (·.2)

/-! ### The client -/

/-- The client's side of OPAQUE. It keeps the password and its randomness from the start of an
exchange to the end. -/
structure OpaqueClient (B : Type) where
  registerStart : B → B → B
  registerFinish : B → B → B → Except String B
  loginStart : B → B → B
  loginFinish : B → B → B → Except String B

/-- Every login with the password against the setup and the record goes through. -/
def LogsIn (X : Opaque B) (C : OpaqueClient B) (setup record : B) (username : String)
    (password : B) : Prop :=
  ∀ r rs, ∃ sresp sstate cupload key,
    X.serverLoginStart rs setup (some record) (C.loginStart password r) username =
      .ok (sresp, sstate) ∧
    C.loginFinish password r sresp = .ok cupload ∧ X.serverLoginFinish sstate cupload = .ok key

/-- OPAQUE is correct: a record that was made with a setup is good for logins against it. -/
def Correct (X : Opaque B) (C : OpaqueClient B) : Prop :=
  ∀ setup username password r sresp cupload record,
    X.serverRegisterStart setup (C.registerStart password r) username = .ok sresp →
    C.registerFinish password r sresp = .ok cupload → X.serverRegisterFinish cupload = .ok record →
    LogsIn X C setup record username password

/-- What the requests were told is what the server has. -/
structure Agreed (X : Opaque B) (C : OpaqueClient B) (σ : BootSys B) : Prop where
  setup : ∀ c ∈ σ.calls, ∀ b, c.prog.result = some (.serverSetup (.ok b)) →
    storedSetup X σ.shared = some b
  publicKey : ∀ c ∈ σ.calls, ∀ b, c.prog.result = some (.serverPublicKey (.ok b)) →
    storedKey σ.shared = some b
  registered : ∀ c ∈ σ.calls, ∀ username password r resp,
    c.req = .auth (.registerStart ⟨username, some (C.registerStart password r)⟩) →
    c.prog.result = some (.auth (.registerStart (.ok resp))) →
    storedKey σ.shared = some resp.serverPublicKey ∧ ∀ cupload record,
      C.registerFinish password r resp.registrationResponse = .ok cupload →
      X.serverRegisterFinish cupload = .ok record →
      ∃ setup, storedSetup X σ.shared = some setup ∧ LogsIn X C setup record username password
  loggingIn : ∀ c ∈ σ.calls, ∀ req resp, c.req = .auth (.loginStart req) →
    c.prog.result = some (.auth (.loginStart (.ok resp))) →
    ∃ setup, storedSetup X σ.shared = some setup ∧ ∃ lreq ∈ req.loginStart, ∃ rs record sstate,
      X.serverLoginStart rs setup (some record) lreq req.username =
        .ok (resp.loginResponse, sstate)

/-! ### What was read -/

/-- The row of `server_config` that the statement has read. -/
def readConfig (ev : AuthEv B) : Option (String × B) :=
  match ev.name with
  | .getConfig key => if ev.inp.fault then none else ev.pre.config.get key
  | _ => none

def HasRead (key : String) (b : B) (tr : List (AuthEv B)) : Prop :=
  ∃ ev ∈ tr, readConfig ev = some (key, b)

/-- No request has read a value under the key that a statement writes. -/
def Unread (σ : BootSys B) : Act (BootReq B) (AuthEnv B) → Prop
  | .call _ => True
  | .exec i _ => ∀ c ∈ σ.calls[i]?, ∀ l ∈ c.prog.next,
    match l with
    | .setConfig key => ∀ c' ∈ σ.calls, ∀ ev ∈ c'.trace, ∀ p ∈ readConfig ev, p.1 ≠ key
    | _ => True

/-- What was read is what is stored. -/
def Current (σ : BootSys B) : Prop :=
  ∀ c ∈ σ.calls, ∀ ev ∈ c.trace, ∀ p ∈ readConfig ev, σ.shared.config.get p.1 = some p

variable {X : Opaque B} {tr : List (AuthEv B)} {db : AuthDb B}

/-- Only `set_config` changes the table, under its key. -/
lemma config_does {ev : AuthEv B} (h : AuthDoes X ev) {k : String}
    (hk : ∀ key, ev.name = .setConfig key → k ≠ key) :
    ev.post.config.get k = ev.pre.config.get k := by
  obtain ⟨l, e, s, s'⟩ := ev
  change AuthStep X l e s s' at h
  cases h with
  | setConfig key _ _ config hother => exact hother k (hk key rfl)
  | _ => rfl

lemma does_boot [DecidableEq B] (q : BootReq B) :
    Guarantees (fun _ _ _ => True) (AuthDoes X) (boot X q) := by
  cases q with
  | serverSetup => exact guarantees_bind auth_serverSetup fun _ => guarantees_ret _
  | serverPublicKey => exact guarantees_bind auth_serverPublicKey fun _ => guarantees_ret _
  | auth q => exact guarantees_bind (auth_serve q) fun _ => guarantees_ret _

lemma readConfig_eq {ev : AuthEv B} {p : String × B} (h : readConfig ev = some p) :
    ev.name = .getConfig p.1 ∧ ev.pre.config.get p.1 = some p := by
  unfold readConfig at h
  split at h
  · next key hname =>
    split at h
    · cases h
    · obtain rfl := Table.get_key h
      exact ⟨hname, h⟩
  · cases h

/-! ### One request -/

def others : Rules (AuthDb B) (AuthEnv B) AuthStmt := assume (fun _ _ _ => True) fun _ => True

/-- Where the setup that a request was given comes from. -/
def Served (X : Opaque B) (b : B) (tr : List (AuthEv B)) : Prop :=
  X.setupFile = some (some b) ∨ X.setupFile = none ∧ HasRead "opaque_server_setup" b tr

lemma HasRead.append {key : String} {b : B} (h : HasRead key b tr) (tr' : List (AuthEv B)) :
    HasRead key b (tr ++ tr') := by
  obtain ⟨ev, hev, hread⟩ := h
  exact ⟨ev, List.mem_append_left _ hev, hread⟩

lemma Served.append {b : B} (h : Served X b tr) (tr' : List (AuthEv B)) :
    Served X b (tr ++ tr') :=
  h.imp id fun h => ⟨h.1, h.2.append tr'⟩

lemma wp_getConfig (key : String) {P : Option B → List (AuthEv B) → AuthDb B → Prop}
    (h : ∀ db e, (∀ b, (db.config.get key).map (·.2) = some b → HasRead key b
      (tr ++ [⟨.getConfig key, e, db, db⟩])) → P ((db.config.get key).map (·.2))
      (tr ++ [⟨.getConfig key, e, db, db⟩]) db) :
    wp others (orInternal (getConfig key) : AuthHandler B (Option B)).run (Ok P) tr db := by
  refine wp_orInternal_ok (wp_select_ok fun db' e hf _ _ => h db' e fun b hb => ?_)
  obtain ⟨p, hp, rfl⟩ := Option.map_eq_some_iff.mp hb
  refine ⟨⟨.getConfig key, e, db', db'⟩, by simp, ?_⟩
  have hfault : e.fault = false := hf
  obtain rfl := Table.get_key hp
  simp [readConfig, hfault, hp]

lemma wp_serverSetup : wp others (serverSetup X).run (Ok fun b tr _ => Served X b tr) tr db := by
  unfold serverSetup
  cases hfile : X.setupFile with
  | some file =>
    rcases file with _ | bytes
    · exact wp_throw_ok _
    · dsimp only
      split
      · exact .inl hfile
      · exact wp_throw_ok _
  | none =>
    refine wp_bind_ok (wp_getConfig _ fun db₁ e₁ hread => ?_)
    split
    · next bytes hb =>
      split
      · exact .inr ⟨hfile, hread bytes hb⟩
      · exact wp_throw_ok _
    · split
      · exact wp_throw_ok _
      refine wp_bind_ok (wp_trivial (fun _ => trivial) ?_ _ _ _)
      rintro (_ | r) tr db
      · trivial
      refine wp_bind_ok (wp_trivial (fun _ => trivial) ?_ _ _ _)
      rintro (_ | fresh) tr db
      · trivial
      refine wp_bind_ok (wp_trivial (fun _ => trivial) ?_ _ _ _)
      rintro (_ | _) tr db
      · trivial
      refine wp_bind_ok (wp_getConfig _ fun db₂ e₂ hread => ?_)
      split
      · next stored hb => exact .inr ⟨hfile, hread stored hb⟩
      · exact wp_throw_ok _

lemma wp_serverPublicKey :
    wp others (serverPublicKey X).run (Ok fun b tr _ => HasRead "server_public_key" b tr) tr db := by
  refine wp_bind_ok (wp_getConfig _ fun db₁ e₁ hread => ?_)
  split
  · next pk hpk => exact hread pk (Option.filter_eq_some_iff.mp hpk).1
  · refine wp_bind_ok (wp_trivial (fun _ => trivial) ?_ _ _ _)
    rintro (_ | r) tr db
    · trivial
    refine wp_bind_ok (wp_trivial (fun _ => trivial) ?_ _ _ _)
    rintro (_ | _) tr db
    · trivial
    refine wp_bind_ok (wp_getConfig _ fun db₂ e₂ hread => ?_)
    split
    · next pk hpk => exact hread pk (Option.filter_eq_some_iff.mp hpk).1
    · exact wp_throw_ok _

lemma wp_registerStart (req : RegisterStartReq B) :
    wp others (registerStart X req).run (Ok fun resp tr _ =>
      (∃ setup, Served X setup tr ∧ ∃ creq ∈ req.registrationStart,
        X.serverRegisterStart setup creq req.username = .ok resp.registrationResponse) ∧
      HasRead "server_public_key" resp.serverPublicKey tr) tr db := by
  refine wp_bind_ok (wp_mono ?_ wp_serverSetup)
  rintro (_ | setup) tr db hsetup
  · trivial
  refine wp_bind_ok ?_
  cases hstart : req.registrationStart with
  | none => exact wp_throw_ok _
  | some creq =>
    refine wp_bind_ok ?_
    cases hresp : X.serverRegisterStart setup creq req.username with
    | error msg => exact wp_throw_ok _
    | ok sresp =>
      refine wp_bind_ok (wp_mono ?_ (wp_and (fun _ _ _ h => h) (fun _ h => h) wp_serverPublicKey
        (wp_kept (P := Served X setup) (fun _ ev h => h.append [ev]) (fun _ _ => trivial)
          (fun _ _ _ h => h) hsetup)))
      rintro (_ | pk) tr db ⟨hpk, hsetup⟩
      · trivial
      · exact ⟨⟨setup, hsetup, creq, rfl, hresp⟩, hpk⟩

lemma wp_loginStart (req : LoginStartReq B) :
    wp others (loginStart X req).run (Ok fun resp tr _ =>
      ∃ setup, Served X setup tr ∧ ∃ lreq ∈ req.loginStart, ∃ rs record sstate,
        X.serverLoginStart rs setup (some record) lreq req.username =
          .ok (resp.loginResponse, sstate)) tr db := by
  have hkept : ∀ {α : Type} {x : AuthHandler B α} {setup : B} {tr : List (AuthEv B)}
      {db : AuthDb B} {P : α → List (AuthEv B) → AuthDb B → Prop}, Served X setup tr →
      (∀ a tr db, Served X setup tr → P a tr db) → wp others x.run (Ok P) tr db := by
    intro α x setup tr db P h hP
    refine wp_kept (P := Served X setup) (fun _ ev h => h.append [ev]) (fun _ _ => trivial) ?_ h
    rintro (_ | a) tr db h
    · trivial
    · exact hP a tr db h
  refine wp_bind_ok (wp_mono ?_ wp_serverSetup)
  rintro (_ | setup) tr db hsetup
  · trivial
  refine wp_bind_ok (hkept hsetup fun found tr db hsetup => ?_)
  cases found with
  | none => exact wp_throw_ok _
  | some user =>
    refine wp_bind_ok ?_
    cases hstart : req.loginStart with
    | none => exact wp_throw_ok _
    | some lreq =>
      refine wp_bind_ok (hkept hsetup fun rs tr db hsetup => ?_)
      refine wp_bind_ok ?_
      cases hresp : X.serverLoginStart rs setup (some user.opaqueRecord) lreq req.username with
      | error msg => exact wp_throw_ok _
      | ok p =>
        refine wp_bind_ok (hkept hsetup fun handle tr db hsetup => ?_)
        exact ⟨setup, hsetup, lreq, rfl, rs, user.opaqueRecord, p.2, hresp⟩

/-- What stands behind the answer to a request. -/
def Told (X : Opaque B) (q : BootReq B) (a : BootReply B) (tr : List (AuthEv B)) : Prop :=
  match q, a with
  | .serverSetup, .serverSetup (.ok b) => Served X b tr
  | .serverPublicKey, .serverPublicKey (.ok b) => HasRead "server_public_key" b tr
  | .auth (.registerStart req), .auth (.registerStart (.ok resp)) =>
    (∃ setup, Served X setup tr ∧ ∃ creq ∈ req.registrationStart,
      X.serverRegisterStart setup creq req.username = .ok resp.registrationResponse) ∧
    HasRead "server_public_key" resp.serverPublicKey tr
  | .auth (.loginStart req), .auth (.loginStart (.ok resp)) =>
    ∃ setup, Served X setup tr ∧ ∃ lreq ∈ req.loginStart, ∃ rs record sstate,
      X.serverLoginStart rs setup (some record) lreq req.username =
        .ok (resp.loginResponse, sstate)
  | .auth _, .auth _ => True
  | .serverSetup, .serverSetup (.error _) => True
  | .serverPublicKey, .serverPublicKey (.error _) => True
  | _, _ => False

lemma wp_boot [DecidableEq B] (q : BootReq B) :
    wp others (boot X q) (fun a tr _ => Told X q a tr) tr db := by
  cases q with
  | serverSetup =>
    refine (wp_bind _ _ _ _ _).mpr (wp_mono ?_ wp_serverSetup)
    rintro (_ | b) tr db h
    · trivial
    · exact h
  | serverPublicKey =>
    refine (wp_bind _ _ _ _ _).mpr (wp_mono ?_ wp_serverPublicKey)
    rintro (_ | b) tr db h
    · trivial
    · exact h
  | auth q =>
    refine (wp_bind _ _ _ _ _).mpr ?_
    cases q with
    | registerStart req =>
      refine (wp_bind _ _ _ _ _).mpr (wp_mono ?_ (wp_registerStart req))
      rintro (_ | resp) tr db h
      · trivial
      · exact h
    | loginStart req =>
      refine (wp_bind _ _ _ _ _).mpr (wp_mono ?_ (wp_loginStart req))
      rintro (_ | resp) tr db h
      · trivial
      · exact h
    | registerFinish req =>
      exact (wp_bind _ _ _ _ _).mpr
        (wp_trivial (fun _ => trivial) (fun _ _ _ => trivial) _ _ _)
    | loginFinish req =>
      exact (wp_bind _ _ _ _ _).mpr
        (wp_trivial (fun _ => trivial) (fun _ _ _ => trivial) _ _ _)

/-! ### Runs -/

/-- A statement that writes no key that was read keeps what was read current. -/
lemma current_exec {σ : BootSys B} {i : ℕ} {e : AuthEnv B} {q : BootReq B} {l : AuthStmt}
    {f : AuthEnv B → AuthDb B → AuthDb B}
    {k : AuthEnv B → AuthDb B → Prog (AuthDb B) (AuthEnv B) AuthStmt (BootReply B)}
    (hc : σ.calls[i]? = some ⟨q, tr, .stmt l f k⟩) (hC : Unread σ (.exec i e))
    (hdo : AuthDoes X ⟨l, e, σ.shared, f e σ.shared⟩) (hσ : Current σ) :
    Current ⟨f e σ.shared,
      σ.calls.set i ⟨q, tr ++ [⟨l, e, σ.shared, f e σ.shared⟩], k e σ.shared⟩⟩ := by
  intro c hmem ev hev p hp
  obtain ⟨j, hj⟩ := List.mem_iff_getElem?.mp hmem
  rcases mem_trace_set hc hj hev with rfl | ⟨c', hj', hev'⟩
  · obtain ⟨hname, hget⟩ := readConfig_eq hp
    refine (config_does hdo fun key hkey => ?_).trans hget
    cases hname.symm.trans hkey
  · have hmem' := List.mem_of_getElem? hj'
    refine (config_does hdo ?_).trans (hσ c' hmem' ev hev' p hp)
    rintro key rfl
    exact hC _ hc _ rfl c' hmem' ev hev' p hp

/-- The sound states of the server. -/
abbrev Booting [DecidableEq B] (X : Opaque B) (σ : BootSys B) : Prop :=
  Interleave.Sound (fun _ => others) (fun q a tr _ => Told X q a tr) (fun _ => AuthDoes X) σ

lemma run_booting [DecidableEq B] (X : Opaque B) (db : AuthDb B)
    {as : List (Act (BootReq B) (AuthEnv B))} (has : Along (boot X) Unread (init db) as) :
    Booting X (run (boot X) (init db) as) ∧ Current (run (boot X) (init db) as) := by
  refine run_sound (fun _ q _ => wp_boot q) (fun q => does_boot q) (fun _ _ _ _ => trivial)
    (fun _ _ _ _ _ h => h) (fun _ _ _ _ _ _ _ _ _ _ => trivial) ?_ ?_
    ⟨sound_init db, by simp [Current, init]⟩ has
  · intro σ q _ hσ c hc ev hev
    rcases List.mem_append.mp hc with hc | hc
    · exact hσ c hc ev hev
    · rw [List.mem_singleton.mp hc] at hev
      cases hev
  · intro σ i e q tr l f k hc hC _ hsound hσ
    have hdo : AuthDoes X ⟨l, e, σ.shared, f e σ.shared⟩ := hsound.every
      (List.mem_set (List.getElem?_eq_some_iff.mp hc).1 _) _
      (List.mem_append_right _ (List.mem_singleton_self _))
    exact current_exec hc hC hdo hσ

lemma Current.hasRead {σ : BootSys B} (hσ : Current σ)
    {c : Call (BootReq B) (AuthDb B) (AuthEnv B) AuthStmt (BootReply B)} (hc : c ∈ σ.calls)
    {key : String} {b : B} (h : HasRead key b c.trace) :
    (σ.shared.config.get key).map (·.2) = some b := by
  obtain ⟨ev, hev, hread⟩ := h
  rw [hσ c hc ev hev _ hread]
  rfl

lemma Current.served {σ : BootSys B} (hσ : Current σ)
    {c : Call (BootReq B) (AuthDb B) (AuthEnv B) AuthStmt (BootReply B)} (hc : c ∈ σ.calls) {b : B}
    (h : Served X b c.trace) : storedSetup X σ.shared = some b := by
  unfold storedSetup
  rcases h with hfile | ⟨hfile, hread⟩
  · rw [hfile]
  · rw [hfile]
    exact hσ.hasRead hc hread

/-- **First boot**: when no request writes a key under which a request has read a value, all
requests are told the setup and the public key that the server has, and whoever has
registered with what they were told can log in. -/
theorem first_boot_agrees [DecidableEq B] (X : Opaque B) (C : OpaqueClient B) (hcorrect : Correct X C)
    (db : AuthDb B) (as : List (Act (BootReq B) (AuthEnv B)))
    (has : Along (boot X) Unread (init db) as) : Agreed X C (run (boot X) (init db) as) := by
  obtain ⟨hsound, hcur⟩ := run_booting X db has
  refine ⟨fun c hc b hb => ?_, fun c hc b hb => ?_, fun c hc username password r resp hreq hresp => ?_,
    fun c hc req resp hreq hresp => ?_⟩
  · have htold := hsound.post hc hb
    cases hreq : c.req with
    | serverSetup => exact hcur.served hc (by rwa [hreq] at htold)
    | serverPublicKey => exact absurd htold (by rw [hreq]; exact id)
    | auth q => exact absurd htold (by rw [hreq]; cases q <;> exact id)
  · have htold := hsound.post hc hb
    cases hreq : c.req with
    | serverSetup => exact absurd htold (by rw [hreq]; exact id)
    | serverPublicKey => exact hcur.hasRead hc (by rwa [hreq] at htold)
    | auth q => exact absurd htold (by rw [hreq]; cases q <;> exact id)
  · have htold := hsound.post hc hresp
    rw [hreq] at htold
    obtain ⟨⟨setup, hserved, creq, hcreq, hstart⟩, hpk⟩ := htold
    refine ⟨hcur.hasRead hc hpk, fun cupload record hupload hrecord =>
      ⟨setup, hcur.served hc hserved, ?_⟩⟩
    obtain rfl := Option.some.inj hcreq
    exact hcorrect setup username password r _ cupload record hstart hupload hrecord
  · have htold := hsound.post hc hresp
    rw [hreq] at htold
    obtain ⟨setup, hserved, h⟩ := htold
    exact ⟨setup, hcur.served hc hserved, h⟩

instance (σ : BootSys B) : ∀ a, Decidable (Unread σ a)
  | .call _ => inferInstanceAs (Decidable True)
  | .exec i _ => by
    unfold Unread
    refine @Option.decidableForallMem _ _ (fun c => @Option.decidableForallMem _ _ (fun l => ?_) _) _
    split <;> infer_instance

/-- An OPAQUE in the clear: the record is the setup and the password, and the answer to a login
says whether they are right. -/
def inClear : Opaque (List ℕ) where
  setupFromBytes _ := true
  generateServerSetup := .ok
  serverRegisterStart setup creq _ := .ok (setup ++ creq)
  serverRegisterFinish := .ok
  serverLoginStart rs setup record lreq _ :=
    .ok (if record = some (setup ++ lreq) then [1] else [0], rs)
  serverLoginFinish sstate upload := .ok (sstate ++ upload)
  len := List.length
  allZero l := l.all (· = 0)
  simple n := toString n
  sha256Hex := id
  hashSessionToken l := toString l
  setupFile := none
  prod := false
  allowDb := false

def inClearClient : OpaqueClient (List ℕ) where
  registerStart password _ := password
  registerFinish _ _ sresp := .ok sresp
  loginStart password _ := password
  loginFinish password _ sresp := if sresp = [1] then .ok password else .error "invalid login"

lemma correct_inClear : Correct inClear inClearClient := by
  rintro setup username password r sresp cupload record hstart hupload hrecord r' rs
  cases hstart
  cases hupload
  cases hrecord
  exact ⟨[1], rs, password, rs ++ password, by simp [inClear, inClearClient], rfl, rfl⟩

/-- Nothing is stored yet. -/
def newServer : AuthDb (List ℕ) := ⟨.empty, .empty, .empty, .empty, none, [], [], .empty⟩

/-- Two users start to register at the same time; the second one runs its first statement
after the first one has run `n`. -/
def registering (n : ℕ) : List (Act (BootReq (List ℕ)) (AuthEnv (List ℕ))) :=
  let e (b : ℕ) : AuthEnv (List ℕ) := ⟨0, 0, List.replicate 32 b, false⟩
  [.call (.auth (.registerStart ⟨"alice", some [7]⟩)),
    .call (.auth (.registerStart ⟨"bob", some [8]⟩))] ++
  List.replicate n (.exec 0 (e 1)) ++ [.exec 1 (e 2)] ++ List.replicate (8 - n) (.exec 0 (e 1)) ++
  List.replicate 7 (.exec 1 (e 2))

theorem first_boot_agrees_serial :
    Correct inClear inClearClient ∧
    Along (boot inClear) Unread (init newServer) (registering 8) ∧
    Agreed inClear inClearClient (run (boot inClear) (init newServer) (registering 8)) :=
  ⟨correct_inClear, by decide +kernel, first_boot_agrees inClear inClearClient correct_inClear
    newServer (registering 8) (by decide +kernel)⟩

/-- What a `register_start` has answered. -/
def registration : BootReply B → Option (B × B)
  | .auth (.registerStart (.ok resp)) => some (resp.registrationResponse, resp.serverPublicKey)
  | _ => none

lemma registration_eq {a : BootReply B} {p : B × B} (h : registration a = some p) :
    a = .auth (.registerStart (.ok ⟨p.1, p.2⟩)) := by
  unfold registration at h
  split at h
  · cases h
    rfl
  · cases h

/-- Of two requests that both find nothing stored, the first one is given a setup that the
second one overwrites, and the user it registers cannot log in. -/
theorem first_boot_disagrees :
    ¬∀ as : List (Act (BootReq (List ℕ)) (AuthEnv (List ℕ))),
      Agreed inClear inClearClient (run (boot inClear) (init newServer) as) := by
  intro h
  let σ := run (boot inClear) (init newServer) (registering 1)
  have hfirst : ∃ c ∈ σ.calls[0]?, ∃ a ∈ c.prog.result,
      registration a = some (List.replicate 32 1 ++ [7], List.replicate 32 1) := by decide +kernel
  obtain ⟨c, hc, a, ha, hreg⟩ := hfirst
  obtain rfl := registration_eq hreg
  have hreq : c.req = .auth (.registerStart ⟨"alice", some [7]⟩) := by
    have := req_of_call (h := boot inClear) (init newServer) [] (registering 1).tail
      (.auth (.registerStart ⟨"alice", some [7]⟩))
    change σ.calls[0]?.map (·.req) = _ at this
    rw [Option.mem_def.mp hc] at this
    exact Option.some.inj this
  obtain ⟨-, hlogin⟩ := (h (registering 1)).registered c (List.mem_of_getElem? hc) "alice" [7] []
    _ hreq ha
  obtain ⟨setup, hsetup, hlogs⟩ := hlogin _ _ rfl rfl
  have hstored : storedSetup inClear σ.shared = some (List.replicate 32 2) := by
    decide +kernel
  cases hsetup.symm.trans hstored
  obtain ⟨sresp, sstate, cupload, key, hstart, hfinish, -⟩ := hlogs [] []
  have hresp0 : sresp = [0] := by
    cases hstart
    rfl
  rw [hresp0] at hfinish
  cases hfinish

end Vautr.FirstBoot
