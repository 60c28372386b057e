import Vautr.Effects
import Vautr.Push
import Vautr.Recovery
import Vautr.SvkBlobs

/-!
Does the Emergency Kit open the vault?

An account keeps its vault key twice: under the master password, for a login, and under the
recovery key, for the kit. Logins, saves, pushes, rotations, rewrappings and recoveries of one
account follow each other; any of them may stop anywhere.
-/

namespace Vautr.EmergencyKit

open Vautr.Atomic Vautr.Session Vautr.Sql Vautr.Database Vautr.Api Vautr.Server Vautr.Handlers
  Vautr.Auth Vautr.Credentials Vautr.Recovery Vautr.ClientDb Vautr.Crypto Vautr.Client
  Vautr.Orchestrator Vautr.Zoom Vautr.Push
open Vautr.SvkBlobs (nil asKey wrapSvkWithAd unwrapSvkWithAdOrLegacy wrapSvkWithRk
  unwrapSvkWithRk)

/-! ### The site -/

/-- The server's tables and the devices. -/
structure Site where
  cred : CredDb Blob
  items : Table (ItemRow.key : ItemRow Blob → Ident × Ident)
  devices : ℕ → Device

structure SiteEnv where
  now : ℤ
  uuid : Ident
  random : Blob
  fault : Bool
  key : Key

inductive SiteName
  | client (n : Name)
  | cred (l : CredStmt)
  deriving DecidableEq

/-- The accounts, the items and the devices. -/
def onWorld : View World Site ClientEnv SiteEnv Name SiteName where
  get t := ⟨⟨t.cred.auth.users, t.items⟩, t.devices⟩
  put w t :=
    { cred := { t.cred with auth := { t.cred.auth with users := w.server.users } }
      items := w.server.items
      devices := w.devices }
  inp e := ⟨e.now, e.uuid, e.fault, e.key⟩
  name := .client
  get_put _ _ := rfl

/-- The tables that hold credentials. -/
def onCred : View (CredDb Blob) Site (AuthEnv Blob) SiteEnv CredStmt SiteName where
  get t := t.cred
  put c t := { t with cred := c }
  inp e := ⟨e.now, e.uuid, e.random, e.fault⟩
  name := .cred
  get_put _ _ := rfl

abbrev SiteProg := Prog Site SiteEnv SiteName

/-! ### The flows -/

/-- The master key that a password and its salt give, and the seed of a recovery phrase. -/
structure Secrets where
  masterKey : Key
  seed : Key

/-- `recover_svk`, for the seed of the phrase: the user's id first, the nil uuid then. -/
def recoverSvk (seed : Key) (user : Ident) (b : Blob) : Option Key :=
  (unwrapSvkWithRk b (.kekRk seed) user).or (unwrapSvkWithRk b (.kekRk seed) nil)

/-- Login on the device `d`: the blob comes from the server. -/
def login (d : ℕ) (u : Ident) (mk : Key) : Op Unit := do
  let (gen, blob) ← orFail "account/status" (roundTrip d (fun _ => .receive) (loginStatus u))
  unlockWithPassword d mk blob u (asU64 gen)
  connectSync d u

/-- What the user interface does to save an item: it seals it with the key in memory. -/
def sealAndSave (d : ℕ) (item : DomainModel) (plain : ℕ) : Op TaskOutcome := do
  let dek ← require d "vault locked" (·.dek)
  saveItem d item (encrypt dek item.uuid item.encKeyGen (.bytes plain))

/-- The end of a login on the web: a blob bound to the nil uuid is bound to the user. -/
def rekeySvk (X : Ext Blob) (d : ℕ) (u : Ident) (mk : Key) : Op Unit := do
  let (_, blob) ← orFail "account/status" (roundTrip d (fun _ => .receive) (loginStatus u))
  match unwrapSvkWithAdOrLegacy blob (.kek mk) u with
  | some (svk, true) =>
    orFail "account/rekey-svk" (roundTrip d (fun _ => .receive)
      (accountRekeySvk X u (some (wrapSvkWithAd svk (.kek mk) u))))
  | _ => return ()

/-- What a recovery chooses and computes anew: a salt, the OPAQUE record of the new password
and the public key of the new recovery key. -/
structure Renewal where
  salt : Blob
  record : Blob
  publicKey : Blob

/-- `complete_recovery_kit`: prove to have the old phrase, fetch and open the RK blob, and
store both blobs anew, for the secrets chosen with the new salt. A lost message is a flow
that stops. -/
def recoverKit (Y : CredExt Blob) (sign : Key → Blob → Blob) (chosen : Blob → Secrets)
    (email : String) (seed : Key) (new : Renewal) :
    Handler (CredDb Blob) (AuthEnv Blob) CredStmt Unit := do
  let nonce ← recoverChallenge email
  let verified ← recoverVerify Y ⟨email, none, some (sign seed nonce)⟩
  let info ← recoverInfo Y verified.recoveryToken
  match recoverSvk seed info.userId info.svkCiphertextBlobRk with
  | none => throw (.internalText "unwrap svk")
  | some svk =>
    let kekRk : DKey := .kekRk (chosen new.salt).seed
    let _ ← recoverComplete Y ⟨verified.recoveryToken, some new.record, some new.salt,
      some (wrapSvk (chosen new.salt).masterKey svk), some (wrapSvkWithRk svk kekRk info.userId),
      some new.publicKey⟩
    return ()

inductive Flow
  | login (d : ℕ) (mk : Key)
  | lock (d : ℕ)
  | save (d : ℕ) (item : DomainModel) (plain : ℕ)
  | push (d : ℕ)
  | overwrite (d : ℕ) (uuid : Ident) (serverVersion : UInt64)
  | rotateKey (d : ℕ) (gen : UInt64)
  | rekeySvk (d : ℕ) (mk : Key)
  | recover (email : String) (seed : Key) (new : Renewal)

/-- What is outside: other crates, and which secrets the user has chosen with which salt. -/
structure Outside where
  ext : Ext Blob
  cred : CredExt Blob
  sign : Key → Blob → Blob
  chosen : Blob → Secrets

/-- The result of a flow is not looked at. -/
def discard {α : Type} (p : SiteProg α) : SiteProg Unit := p >>= fun _ => .ret ()

/-- The code of the flows of the account `u`. -/
def code (O : Outside) (u : Ident) : Flow → SiteProg Unit
  | .login d mk => discard (zoom onWorld (login d u mk).run)
  | .lock d => discard (zoom onWorld (lock d).run)
  | .save d item plain => discard (zoom onWorld (sealAndSave d item plain).run)
  | .push d => discard (zoom onWorld (pushLocalChanges O.ext d).run)
  | .overwrite d uuid v => discard (zoom onWorld (resolveConflict O.ext d uuid v true).run)
  | .rotateKey d gen => discard (zoom onWorld (rotateKey O.ext d gen).run)
  | .rekeySvk d mk => discard (zoom onWorld (rekeySvk O.ext d u mk).run)
  | .recover email seed new =>
    discard (zoom onCred (recoverKit O.cred O.sign O.chosen email seed new).run)

abbrev KitSess := Sess Flow Site SiteEnv SiteName Unit

abbrev KitAct := Act Flow SiteEnv Empty

def nobody : Empty → Site → Site := fun x => x.elim

/-! ### What the kit should do -/

/-- The payload is sealed under the vault key. -/
def sealedUnder (svk : Key) : Blob → Bool
  | .box k _ _ _ => k = .dek svk
  | .raw _ => false

/-- The items of the user that were written last. -/
def newest (u : Ident) (t : Site) : List (ItemRow Blob) :=
  t.items.rows.filter fun r => decide (r.userId = u) && t.items.rows.all fun r' =>
    decide (r'.userId = u → r'.seq.getD 0 ≤ r.seq.getD 0)

/-- The vault key in the MP blob, for the password in force: the one chosen with the salt
that the server has. -/
def passwordKey (chosen : Blob → Secrets) (u : Ident) (t : Site) : Option Key :=
  (t.cred.auth.users.get u).bind fun r => unwrapSvk (chosen r.kdfSalt).masterKey u r.svkCiphertextBlob

/-- The vault key in the RK blob, for the recovery key in force. -/
def kitKey (chosen : Blob → Secrets) (u : Ident) (t : Site) : Option Key :=
  (t.cred.auth.users.get u).bind fun r => recoverSvk (chosen r.kdfSalt).seed u r.svkCiphertextBlobRk

/-- The password and the kit lead to one vault key, and the newest items are sealed under it. -/
def KitOpens (chosen : Blob → Secrets) (u : Ident) (t : Site) : Prop :=
  ∃ svk, passwordKey chosen u t = some svk ∧ kitKey chosen u t = some svk ∧
    ∀ r ∈ newest u t, r.payload.all (sealedUnder svk) = true

/-- The statement makes a rotation take effect: the server stores a new blob, or its word that
it has one arrives. -/
def rotates : SiteName → Bool
  | .client (_, .server (.updateSvk _)) => true
  | .client (_, .rotateAnswer _ _ (.ok _)) => true
  | _ => false

/-- No rotation takes effect. -/
def Unrotated (σ : KitSess) : KitAct → Prop
  | .exec e => ∀ c ∈ σ.cur, ∀ l ∈ c.prog.next, rotates l = true → e.fault = true
  | _ => True

/-! ### Nothing but one vault key -/

section Invariant

variable (chosen : Blob → Secrets) (u : Ident) (svk : Key)

/-- Both blobs of the row hold the vault key, for the secrets chosen with its salt. -/
structure Wrapped (r : UserRow Blob) : Prop where
  mp : ∃ ad, (ad = u ∨ ad = nil) ∧
    r.svkCiphertextBlob = encrypt (.kek (chosen r.kdfSalt).masterKey) ad 0 (.key svk)
  rk : ∃ ad, (ad = u ∨ ad = nil) ∧
    r.svkCiphertextBlobRk = encrypt (.kekRk (chosen r.kdfSalt).seed) ad 0 (.key svk)

/-- The account is there, with its vault key in both blobs. -/
def Account (users : Table (UserRow.id : UserRow Blob → Ident)) : Prop :=
  ∃ r, users.get u = some r ∧ Wrapped chosen u svk r

/-- What the device has on disk is sealed under the vault key, and so is what it saves. -/
structure Opened (c : Device) : Prop where
  payloads : ∀ r ∈ c.db.payloads.rows, sealedUnder svk r.payload = true
  dek : ∀ k ∈ c.mem.dek, k = .dek svk

structure Inv (w : World) : Prop where
  account : Account chosen u svk w.server.users
  items : ∀ r ∈ w.server.items.rows, r.userId = u → r.payload.all (sealedUnder svk) = true
  devices : ∀ d, Opened svk (w.devices d)

end Invariant

variable {chosen : Blob → Secrets} {u : Ident} {svk : Key} {X : Ext Blob} {d : ℕ} {w : World}
  {ε α : Type}

lemma recoverSvk_wrapped {seed : Key} {ad : ℕ} (had : ad = u ∨ ad = nil) :
    recoverSvk seed u (encrypt (.kekRk seed) ad 0 (.key svk)) = some svk := by
  rcases eq_or_ne ad u with rfl | hne
  · simp [recoverSvk, unwrapSvkWithRk, asKey]
  · obtain rfl := had.resolve_left hne
    have hd : decrypt (.kekRk seed) u 0 (encrypt (.kekRk seed) nil 0 (.key svk)) = none :=
      SvkBlobs.decrypt_of_ne (.inr hne)
    simp [recoverSvk, unwrapSvkWithRk, hd, asKey]

/-- Under the invariant the kit opens the vault. -/
lemma Inv.kitOpens {t : Site} (h : Inv chosen u svk (onWorld.get t)) : KitOpens chosen u t := by
  obtain ⟨r, hr, hw⟩ := h.account
  have hget : t.cred.auth.users.get u = some r := hr
  obtain ⟨ad, had, hmp⟩ := hw.mp
  obtain ⟨ad', had', hrk⟩ := hw.rk
  refine ⟨svk, ?_, ?_, fun r hr => ?_⟩
  · rw [passwordKey, hget, Option.bind_some, hmp, SvkBlobs.unwrapSvk_iff]
    exact had
  · rw [kitKey, hget, Option.bind_some, hrk]
    exact recoverSvk_wrapped had'
  · obtain ⟨hmem, hnew⟩ := List.mem_filter.mp hr
    simp only [Bool.and_eq_true, decide_eq_true_eq] at hnew
    exact h.items r hmem hnew.1

/-! ### What opens holds the vault key -/

/-- Whatever opens such a blob finds the vault key in it. -/
lemma decrypt_plain {k k' : DKey} {ad ad' : ℕ} {p : Plain}
    (h : decrypt k' ad' 0 (encrypt k ad 0 (.key svk)) = some p) :
    k = k' ∧ p = .key svk := by
  have heq := decrypt_eq_some h
  simp only [encrypt, Blob.box.injEq] at heq
  exact ⟨heq.1, heq.2.2.2.symm⟩

lemma Wrapped.openSvk {r : UserRow Blob} (h : Wrapped chosen u svk r) {mk : Key} {user : ℕ}
    {p : Plain} (hp : openSvk mk user r.svkCiphertextBlob = some p) : p = .key svk := by
  obtain ⟨ad, -, hmp⟩ := h.mp
  rw [hmp, Crypto.openSvk, Option.or_eq_some_iff] at hp
  rcases hp with hp | ⟨-, hp⟩
  · exact (decrypt_plain hp).2
  · exact (decrypt_plain hp).2

lemma bind_asKey {b : Option Plain} {k : Key} (h : b.bind asKey = some k) : b = some (.key k) := by
  rcases b with _ | _ | n
  · simp at h
  · simpa [asKey] using h
  · simp [asKey] at h

lemma Wrapped.rekey {r : UserRow Blob} (h : Wrapped chosen u svk r) {mk k : Key} {legacy : Bool}
    (hp : unwrapSvkWithAdOrLegacy r.svkCiphertextBlob (.kek mk) u = some (k, legacy)) :
    mk = (chosen r.kdfSalt).masterKey ∧ k = svk := by
  obtain ⟨ad, -, hmp⟩ := h.mp
  have key : ∀ {ad'}, (decrypt (.kek mk) ad' 0 r.svkCiphertextBlob).bind asKey = some k →
      mk = (chosen r.kdfSalt).masterKey ∧ k = svk := by
    intro ad' hd
    rw [hmp] at hd
    obtain ⟨hk, hpl⟩ := decrypt_plain (bind_asKey hd)
    exact ⟨(DKey.kek.inj hk).symm, Plain.key.inj hpl⟩
  unfold unwrapSvkWithAdOrLegacy at hp
  split at hp
  · next k' hd =>
    obtain ⟨rfl, -⟩ := Prod.mk.inj (Option.some.inj hp)
    exact key hd
  · obtain ⟨k', hd, hk'⟩ := Option.map_eq_some_iff.mp hp
    obtain ⟨rfl, -⟩ := Prod.mk.inj hk'
    exact key hd

lemma Wrapped.recoverSvk {r : UserRow Blob} (h : Wrapped chosen u svk r) {seed k : Key} {user : ℕ}
    (hp : recoverSvk seed user r.svkCiphertextBlobRk = some k) : k = svk := by
  obtain ⟨ad, -, hrk⟩ := h.rk
  rw [hrk, EmergencyKit.recoverSvk, Option.or_eq_some_iff] at hp
  rcases hp with hp | ⟨-, hp⟩
  · exact Plain.key.inj (decrypt_plain (bind_asKey hp)).2
  · exact Plain.key.inj (decrypt_plain (bind_asKey hp)).2

/-! ### Statements that keep the invariant -/

/-- The statement keeps the invariant. -/
def Keeping (chosen : Blob → Secrets) (u : Ident) (svk : Key) (ev : Ev World ClientEnv Name) :
    Prop :=
  Inv chosen u svk ev.pre → Inv chosen u svk ev.post

/-- Whatever happens in between, every statement of the program keeps the invariant. -/
abbrev Kept (chosen : Blob → Secrets) (u : Ident) (svk : Key) (p : Code α) : Prop :=
  Guarantees (fun _ _ _ => True) (Keeping chosen u svk) p

lemma Kept.safe {p : Code α} (h : Kept chosen u svk p) (hw : Inv chosen u svk w) :
    Safe (Inv chosen u svk) p (fun _ w => Inv chosen u svk w) w :=
  safe_of_guarantees h (fun _ hpre hG => hG hpre) (fun _ h => h) hw

/-- What follows a program that keeps the invariant may count on it. -/
lemma Kept.bind_safely {β : Type} {C : Ev World ClientEnv Name → Prop} {x : Op β} {f : β → Op α}
    (hx : Kept chosen u svk x.run) (h : Inv chosen u svk w)
    (hf : ∀ b w, Inv chosen u svk w →
      Safely C (Inv chosen u svk) (f b).run (fun _ w => Inv chosen u svk w) w) :
    Safely C (Inv chosen u svk) (x >>= f).run (fun _ w => Inv chosen u svk w) w := by
  rw [safely_bind_except]
  refine safely_mono (fun r w h => ?_) (hx.safe h).safely
  cases r with
  | error e => exact h
  | ok b => exact hf b w h

lemma Inv.setDevice (h : Inv chosen u svk w) {c : Device} (hc : Opened svk c) :
    Inv chosen u svk (w.setDevice d c) := by
  refine ⟨h.account, h.items, fun d' => ?_⟩
  rcases eq_or_ne d' d with rfl | hne
  · rw [World.setDevice_self]
    exact hc
  · rw [World.setDevice_of_ne w hne]
    exact h.devices d'

lemma kept_onMemory {l : Label} {g : ClientEnv → Memory → Memory × α}
    (hg : ∀ e m, (∀ k ∈ m.dek, k = .dek svk) → ∀ k ∈ (g e m).1.dek, k = .dek svk) :
    Kept chosen u svk (onMemory d l g : ExceptT ε Code α).run :=
  guarantees_onMemory fun e _ h =>
    h.setDevice ⟨(h.devices d).payloads, hg e _ (h.devices d).dek⟩

lemma kept_writeMemory {g : Memory → Memory}
    (hg : ∀ m, (∀ k ∈ m.dek, k = .dek svk) → ∀ k ∈ (g m).dek, k = .dek svk) :
    Kept chosen u svk (writeMemory d g : ExceptT ε Code Unit).run :=
  kept_onMemory fun _ => hg

lemma kept_readMemory {g : Memory → α} :
    Kept chosen u svk (readMemory d g : ExceptT ε Code α).run :=
  kept_onMemory fun _ _ h => h

lemma kept_publish {us : List Update} : Kept chosen u svk (publish d us : ExceptT ε Code Unit).run :=
  kept_onMemory fun _ _ h => h

lemma kept_readDb {l : Label} {context : String} {g : LocalDb Blob → α} :
    Kept chosen u svk (readDb d l context g).run :=
  guarantees_readDb fun _ _ h => h

lemma kept_writeDb {l : Label} {context : String} {g : LocalDb Blob → LocalDb Blob}
    (hg : ∀ db : LocalDb Blob, (∀ r ∈ db.payloads.rows, sealedUnder svk r.payload = true) →
      ∀ r ∈ (g db).payloads.rows, sealedUnder svk r.payload = true) :
    Kept chosen u svk (writeDb d l context g).run :=
  guarantees_writeDb (fun _ _ h => h) fun _ _ _ h =>
    h.setDevice ⟨hg _ (h.devices d).payloads, (h.devices d).dek⟩

lemma kept_require {msg : String} {g : Memory → Option α} :
    Kept chosen u svk (require d msg g).run := by
  refine guarantees_bind_except kept_readMemory fun r => ?_
  cases r with
  | none => exact guarantees_throw_except _
  | some a => exact guarantees_pure_except _

lemma kept_requireUnlocked : Kept chosen u svk (requireUnlocked d).run := by
  refine guarantees_bind_except kept_readMemory fun locked => ?_
  split
  · exact guarantees_throw_except _
  · exact guarantees_pure_except _

/-- A request whose statements keep the account and write no payload but sealed ones. -/
lemma kept_roundTrip {answer : Except ApiError α → Label} {x : ServerHandler Blob α}
    {G : DbEv Blob → Prop} (hx : Guarantees (fun _ _ _ => True) G x.run)
    (hG : ∀ (w : World) l e s, G ⟨l, e, w.server, s⟩ → Inv chosen u svk w →
      Inv chosen u svk { w with server := s }) :
    Kept chosen u svk (roundTrip d answer x).run :=
  guarantees_roundTrip hx (fun _ _ h => h) (fun l _ w s hs h => hG w l _ s hs h)
    fun _ _ _ h => h

/-- Rows that are none of the user's, or hold no payload, or a sealed one. -/
def Harmless (u : Ident) (svk : Key) (r : ItemRow Blob) : Prop :=
  r.userId = u → r.payload.all (sealedUnder svk) = true

lemma Inv.touches (h : Inv chosen u svk w) {s : Db Blob}
    (ht : Touches (Harmless u svk) w.server s) : Inv chosen u svk { w with server := s } := by
  refine ⟨?_, fun r hr hu => ?_, h.devices⟩
  · obtain ⟨r, hr, hw⟩ := h.account
    exact ⟨r, (congrArg (·.get u) ht.users).trans hr, hw⟩
  · by_cases hmem : r ∈ w.server.items.rows
    · exact h.items r hmem hu
    · exact ht.new hr hmem hu

lemma kept_pushBatch {user : Ident} {items : List Pushed}
    (hi : ∀ i ∈ items, ∀ p ∈ i.payload, sealedUnder svk p = true) :
    Kept chosen u svk (pushBatch X d user items).run := by
  refine guarantees_bind_except (kept_onMemory fun _ _ h => h) fun now =>
    guarantees_bind_except (kept_roundTrip (touching_syncPushBatch _) ?_) fun _ =>
      guarantees_pure_except _
  intro w l e s ht h
  refine h.touches (ht.mono ?_)
  rintro r ⟨item, hitem, now', v, n, p, hp, rfl⟩ -
  obtain ⟨i, hmem, rfl⟩ := List.mem_map.mp hitem
  have hpay : i.payload = p := by
    cases hi' : i.payload <;> cases p <;> simp_all [Pushed.toItem]
  cases p with
  | none => rfl
  | some p => exact hi i hmem p hpay

lemma kept_enginePushBatch {user : Ident} {items : List Pushed}
    (hi : ∀ i ∈ items, ∀ p ∈ i.payload, sealedUnder svk p = true) :
    Kept chosen u svk (enginePushBatch X d user items).run := by
  refine guarantees_bind_except (kept_pushBatch hi) fun outcomes => ?_
  split
  · exact guarantees_throw_except _
  · exact guarantees_pure_except _

/-! ### The flows -/

lemma kept_lock : Kept chosen u svk (lock d).run :=
  guarantees_bind_except (kept_writeMemory fun _ h => h) fun _ =>
    guarantees_bind_except (kept_writeMemory fun _ _ => by simp) fun _ =>
    guarantees_bind_except (kept_writeMemory fun _ h => h) fun _ =>
    guarantees_bind_except (kept_writeMemory fun _ h => h) fun _ => kept_publish

lemma kept_connectSync (user : Ident) : Kept chosen u svk (connectSync d user).run :=
  guarantees_bind_except (kept_writeMemory fun _ h => h) fun _ => kept_writeMemory fun _ h => h

lemma kept_openVault (localGen : UInt64) : Kept chosen u svk (openVault d localGen).run := by
  refine guarantees_bind_except (guarantees_bind_except (guarantees_inspect kept_readDb)
    fun r => ?_) fun _ => guarantees_bind_except (kept_writeMemory fun _ h => h) fun _ =>
    guarantees_bind_except (kept_writeMemory fun _ h => h) fun _ => guarantees_bind_except
      (guarantees_bind_except (guarantees_inspect kept_readDb) fun r => ?_) fun _ =>
        kept_writeMemory fun _ h => h
  · cases r <;> exact kept_writeMemory fun _ h => h
  · cases r with
    | ok t => exact kept_onMemory fun _ _ h => h
    | error e => exact guarantees_pure_except _

/-- An unlock with a blob that holds nothing but the vault key. -/
lemma kept_unlockWithPassword {mk : Key} {blob : Blob} {user : Ident} {gen : UInt64}
    (hb : ∀ p, openSvk mk user blob = some p → p = .key svk) :
    Kept chosen u svk (unlockWithPassword d mk blob user gen).run := by
  unfold unlockWithPassword
  split
  · exact guarantees_throw_except _
  · exact guarantees_throw_except _
  · next k hk =>
    obtain rfl := Plain.key.inj (hb _ hk)
    exact guarantees_bind_except (kept_writeMemory fun _ h => h) fun _ =>
      guarantees_bind_except (kept_writeMemory fun _ _ => by simp) fun _ =>
      guarantees_bind_except (kept_writeMemory fun _ h => h) fun _ =>
      guarantees_bind_except (kept_writeMemory fun _ h => h) fun _ => kept_openVault gen

lemma sealed_upsertPayload {t : Table (PayloadRow.uuid : PayloadRow Blob → Ident)}
    {p : PayloadRow Blob} (ht : ∀ r ∈ t.rows, sealedUnder svk r.payload = true)
    (hp : sealedUnder svk p.payload = true) :
    ∀ r ∈ (upsertPayload t p).rows, sealedUnder svk r.payload = true := by
  intro r hr
  rcases Table.mem_upsert hr with hr | rfl | ⟨r₀, -, -, rfl⟩
  · exact ht r hr
  · exact hp
  · exact hp

lemma kept_saveItem {item : DomainModel} {payload : Blob} (hp : sealedUnder svk payload = true) :
    Kept chosen u svk (saveItem d item payload).run := by
  refine guarantees_bind_except kept_readMemory fun locked => ?_
  split
  · exact guarantees_pure_except _
  refine guarantees_bind_except (kept_onMemory fun _ _ h => h) fun receipt =>
    guarantees_bind_except (guarantees_inspect ?_) fun r => ?_
  · refine guarantees_bind_except (guarantees_bind_except kept_readMemory fun g => ?_) fun _ =>
      guarantees_bind_except kept_readDb fun existing =>
        kept_writeDb fun db h => sealed_upsertPayload h hp
    split
    · exact guarantees_throw_except _
    · exact guarantees_pure_except _
  · cases r <;> exact guarantees_bind_except kept_publish fun _ => guarantees_pure_except _

lemma safe_sealAndSave (h : Inv chosen u svk w) (item : DomainModel) (plain : ℕ) :
    Safe (Inv chosen u svk) (sealAndSave d item plain).run (fun _ w => Inv chosen u svk w) w := by
  unfold sealAndSave
  rw [safe_bind_except]
  refine safe_require h (fun _ => h) fun dek hdek => Kept.safe (kept_saveItem ?_) h
  simp [sealedUnder, encrypt, (h.devices d).dek dek hdek]

lemma kept_flushPendingDeletes (user : Ident) :
    Kept chosen u svk (flushPendingDeletes X d user).run := by
  refine guarantees_bind_except (guarantees_inspect kept_readDb) fun r => ?_
  cases r with
  | error e => exact guarantees_pure_except _
  | ok pending =>
    dsimp only
    split
    · exact guarantees_pure_except _
    refine guarantees_bind_except (guarantees_inspect (kept_enginePushBatch ?_)) fun r => ?_
    · intro i hi
      obtain ⟨p, -, rfl⟩ := List.mem_map.mp hi
      simp
    cases r with
    | error e => exact guarantees_pure_except _
    | ok outcomes =>
      dsimp only
      split
      · exact guarantees_bind_except (guarantees_inspect (kept_writeDb fun db h => h)) fun _ =>
          guarantees_pure_except _
      · exact guarantees_pure_except _

lemma kept_reportConflicts (chunk : List (OverviewRow × Blob))
    (outcomes : List (Ident × PushOutcome)) :
    Kept chosen u svk (reportConflicts d chunk outcomes).run := by
  induction outcomes with
  | nil => exact guarantees_pure_except _
  | cons o rest ih =>
    obtain ⟨uuid, o⟩ := o
    cases o with
    | conflict v =>
      exact guarantees_bind_except kept_readMemory fun _ =>
        guarantees_bind_except kept_publish fun _ => ih
    | applied => exact ih
    | epochTooOld => exact ih

lemma kept_pushChunks (user : Ident) {cs : List (List (OverviewRow × Blob))}
    (hcs : ∀ r ∈ cs.flatten, sealedUnder svk r.2 = true) :
    Kept chosen u svk (pushChunks X d user cs).run := by
  induction cs with
  | nil => exact guarantees_pure_except _
  | cons c cs ih =>
    simp only [List.flatten_cons, List.mem_append] at hcs
    refine guarantees_bind_except (guarantees_orFail (kept_enginePushBatch ?_)) fun outcomes =>
      guarantees_bind_except (kept_reportConflicts c outcomes) fun _ =>
        ih fun r hr => hcs r (.inr hr)
    intro i hi p hp
    obtain ⟨r, hr, rfl⟩ := List.mem_map.mp hi
    obtain rfl := Option.mem_some_iff.mp hp
    exact hcs r (.inl hr)

lemma Inv.joined (h : Inv chosen u svk w) :
    ∀ r ∈ joined (w.devices d).db, sealedUnder svk r.2 = true := fun _ hr =>
  (h.devices d).payloads _ (Table.get_mem (mem_joined.mp hr).2)

lemma safely_pushLocalChanges {C : Ev World ClientEnv Name → Prop} (h : Inv chosen u svk w) :
    Safely C (Inv chosen u svk) (pushLocalChanges X d).run (fun _ w => Inv chosen u svk w) w := by
  refine kept_requireUnlocked.bind_safely h fun _ w h => kept_require.bind_safely h fun user w h =>
    (kept_flushPendingDeletes user).bind_safely h fun _ w h => Safe.safely ?_
  rw [safe_bind_except]
  exact safe_readDb h (fun _ => h) ((kept_pushChunks user fun r hr =>
    h.joined r ((mem_flatten_chunks (by decide)).mp hr)).safe h)

/-- What a login is told of the account holds nothing but the vault key. -/
lemma safe_status (h : Inv chosen u svk w) :
    Safe (Inv chosen u svk) (orFail "account/status"
      (roundTrip d (fun _ => .receive) (loginStatus u))).run
      (fun r w' => w' = w ∧ ∀ gen b, r = .ok (gen, b) → ∃ row, w.server.users.get u = some row ∧
        Wrapped chosen u svk row ∧ b = row.svkCiphertextBlob) w := by
  rw [safe_orFail]
  refine safe_roundTrip h ⟨rfl, by simp [Except.mapError]⟩ ?_
  unfold loginStatus
  rw [safe_bind_except, safe_orInternal]
  refine safe_statement h ⟨h, ⟨rfl, by simp [Except.mapError]⟩, rfl, ?_⟩ fun _ => ⟨h, ?_⟩
  · simp [Except.mapError, httpErr]
  · obtain ⟨row, hrow, hwr⟩ := h.account
    simp only [Except.mapError, hrow]
    refine ⟨h, ⟨rfl, by simp⟩, rfl, ?_⟩
    intro gen b heq
    simp only [Except.ok.injEq, Prod.mk.injEq] at heq
    exact ⟨row, rfl, hwr, heq.2.symm⟩

lemma safe_login (h : Inv chosen u svk w) (mk : Key) :
    Safe (Inv chosen u svk) (login d u mk).run (fun _ w => Inv chosen u svk w) w := by
  unfold login
  rw [safe_bind_except]
  refine safe_mono (fun r w' hr => ?_) (safe_status h)
  obtain ⟨rfl, hr⟩ := hr
  cases r with
  | error e => exact h
  | ok r =>
    obtain ⟨gen, b⟩ := r
    obtain ⟨row, -, hwr, rfl⟩ := hr gen b rfl
    dsimp only
    rw [safe_bind_except]
    refine safe_mono (fun r w h => ?_)
      ((kept_unlockWithPassword fun p hp => hwr.openSvk hp).safe h)
    cases r with
    | error e => exact h
    | ok _ => exact (kept_connectSync u).safe h

/-- An update of accounts that leaves the vault key in both blobs of `u`. -/
lemma account_update {users : Table (UserRow.id : UserRow Blob → Ident)}
    (h : Account chosen u svk users) {user : Ident} {f : UserRow Blob → UserRow Blob}
    {hf : ∀ r, (f r).id = r.id} (hw : user = u → ∀ r, users.get u = some r →
      Wrapped chosen u svk r → Wrapped chosen u svk (f r)) :
    Account chosen u svk (users.update (fun r => r.id = user) f hf) := by
  obtain ⟨r, hr, hwr⟩ := h
  have hid : r.id = u := Table.get_key hr
  rcases eq_or_ne user u with rfl | hne
  · exact ⟨f r, by simp [Table.get_update, hr, hid], hw rfl r hr hwr⟩
  · exact ⟨r, by simp [Table.get_update, hr, hid, hne.symm], hwr⟩

lemma Inv.withUsers (h : Inv chosen u svk w)
    {users : Table (UserRow.id : UserRow Blob → Ident)} (hu : Account chosen u svk users) :
    Inv chosen u svk { w with server := { w.server with users } } := ⟨hu, h.items, h.devices⟩

lemma safe_rekeySvk (h : Inv chosen u svk w) (mk : Key) :
    Safe (Inv chosen u svk) (rekeySvk X d u mk).run (fun _ w => Inv chosen u svk w) w := by
  unfold rekeySvk
  rw [safe_bind_except]
  refine safe_mono (fun r w' hr => ?_) (safe_status h)
  obtain ⟨rfl, hr⟩ := hr
  cases r with
  | error e => exact h
  | ok r =>
    obtain ⟨gen, b⟩ := r
    obtain ⟨row, hrow, hwr, rfl⟩ := hr gen b rfl
    dsimp only
    split
    · next k hk =>
      obtain ⟨rfl, rfl⟩ := hwr.rekey hk
      rw [safe_orFail]
      refine safe_roundTrip h h ?_
      change Safe _ (_ >>= _ : ServerHandler Blob Unit).run _ _
      rw [safe_bind_except]
      change Safe _ (ite _ _ _ : ServerHandler Blob Unit).run _ _
      split
      · exact ⟨h, h, h⟩
      rw [safe_bind_except, safe_orInternal]
      refine safe_statement h ⟨h, h, h⟩ fun e => ?_
      let set (r : UserRow Blob) : UserRow Blob := { r with
        svkCiphertextBlob := wrapSvkWithAd k (.kek (chosen row.kdfSalt).masterKey) u
        updatedAt := e.now }
      have hset : Account chosen u k (w'.server.users.update (fun r => r.id = u) set
          (by intro r; rfl)) := by
        refine account_update h.account fun _ r hr hw => ?_
        obtain rfl := Option.some.inj (hrow.symm.trans hr)
        exact ⟨⟨u, .inl rfl, rfl⟩, hw.rk⟩
      have hnew := h.withUsers hset
      refine ⟨hnew, ?_⟩
      change Safe _ ((auditLog : Repo Blob Unit).run >>= _) _ _
      rw [safe_bind]
      exact safe_statement hnew ⟨hnew, hnew, hnew⟩ fun _ => ⟨hnew, hnew, hnew, hnew⟩
    · exact h

/-- `resolve_conflict` with the local item. -/
lemma safely_overwrite {C : Ev World ClientEnv Name → Prop} (h : Inv chosen u svk w) (uuid : Ident)
    (v : UInt64) : Safely C (Inv chosen u svk) (resolveConflict X d uuid v true).run
      (fun _ w => Inv chosen u svk w) w := by
  refine kept_requireUnlocked.bind_safely h fun _ w h => kept_require.bind_safely h fun user w h =>
    Safe.safely ?_
  simp only [if_true]
  rw [safe_bind_except]
  refine safe_readDb h (fun _ => h) ?_
  dsimp only
  split
  · exact h
  · next r hr =>
    have hr' := List.mem_of_find?_eq_some hr
    refine Kept.safe (guarantees_bind_except (guarantees_orFail (kept_pushBatch ?_)) fun os => ?_) h
    · intro i hi p hp
      obtain rfl := List.mem_singleton.mp hi
      obtain rfl := Option.mem_some_iff.mp hp
      exact h.joined r hr'
    · split <;> first | exact guarantees_pure_except _ | exact guarantees_throw_except _

/-- The statement does not make a rotation take effect. -/
def Idle (ev : Ev World ClientEnv Name) : Prop :=
  rotates (.client ev.name) = true → ev.inp.fault = true

/-- On the server: the vault key is not replaced. -/
def IdleS (ev : DbEv Blob) : Prop := (∃ user, ev.name = .updateSvk user) → ev.inp.fault = true

/-- The server's part of a rotation that does not take effect. -/
lemma safely_accountRotateKey (h : Inv chosen u svk w) (req : RotateKeyReq Blob) :
    Safely IdleS (fun s => Inv chosen u svk { w with server := s }) (accountRotateKey X req).run
      (fun _ s => Inv chosen u svk { w with server := s }) w.server := by
  unfold accountRotateKey
  rw [safely_bind_except]
  cases req.newSvkCiphertextBlob with
  | none => exact h
  | some svk' =>
    change Safely _ _ (ite _ _ _ : ServerHandler Blob RotateKeyResp).run _ _
    split
    · exact h
    rw [safely_bind_except, safely_orInternal]
    refine safely_statement h h fun _ _ _ => ⟨h, ?_⟩
    obtain ⟨row, hrow⟩ | hrow : (∃ row, w.server.users.get req.userId = some row) ∨
        w.server.users.get req.userId = none := by
      cases w.server.users.get req.userId <;> simp
    · simp only [Except.mapError, hrow]
      split
      · exact h
      rw [safely_bind_except, safely_orInternal]
      refine safely_statement h h fun _ _ _ => ?_
      let set (r : UserRow Blob) : UserRow Blob := { r with minEncKeyGen := req.newMinEncKeyGen }
      have hset : Account chosen u svk (w.server.users.update (fun r => r.id = req.userId) set
          (by intro r; rfl)) := account_update h.account fun _ r _ hw => ⟨hw.mp, hw.rk⟩
      have hgen := h.withUsers hset
      refine ⟨hgen, ?_⟩
      dsimp only [Except.mapError]
      rw [safely_bind_except, safely_orInternal]
      refine safely_statement hgen hgen fun e hf hC => ?_
      have hft : e.fault = true := hC ⟨_, rfl⟩
      exact absurd (hft.symm.trans hf) (by decide)
    · simp only [Except.mapError, hrow]
      exact h

/-- The answer to a rotation that does not take effect does not arrive, or is an error. -/
lemma safely_rotateKeyRequest (h : Inv chosen u svk w) (user : Ident) (gen : UInt64) (b : Blob) :
    Safely Idle (Inv chosen u svk) (orFail "rotate_key" (rotateKeyRequest X d user gen b)).run
      (fun r w => Inv chosen u svk w ∧ ∀ gen, r ≠ .ok gen) w := by
  unfold rotateKeyRequest
  change Safely _ _ (_ >>= _) _ _
  rw [safely_bind, safely_bind_except]
  have hserver : ∀ l e w s, Idle ⟨(d, .server l), e, w, { w with server := s }⟩ →
      IdleS ⟨l, (onServer d).inp e, w.server, s⟩ := by
    rintro l e w s hC ⟨user, rfl⟩
    exact hC rfl
  refine safely_roundTrip h ⟨h, by simp [Except.mapError]⟩ hserver ?_
  refine safely_mono (fun r s hs => ⟨hs, ⟨hs, by simp [Except.mapError]⟩, fun e hC hf => ?_⟩)
    (safely_accountRotateKey h _)
  cases r with
  | error err => exact ⟨hs, by simp [Except.mapError]⟩
  | ok resp =>
    have hft : e.fault = true := hC rfl
    exact absurd (hft.symm.trans hf) (by decide)

/-- A rotation that does not take effect ends before it touches an item. -/
lemma safely_rotateKey (h : Inv chosen u svk w) (gen : UInt64) :
    Safely Idle (Inv chosen u svk) (rotateKey X d gen).run (fun _ w => Inv chosen u svk w) w := by
  refine kept_requireUnlocked.bind_safely h fun _ w h => kept_require.bind_safely h fun user w h =>
    kept_require.bind_safely h fun _ w h => kept_require.bind_safely h fun mk w h =>
    kept_require.bind_safely h fun old w h =>
    Kept.bind_safely (kept_onMemory fun _ _ h => h) h fun new w h => ?_
  rw [safely_bind_except]
  refine safely_mono (fun r w hr => ?_) (safely_rotateKeyRequest h user gen (wrapSvk mk new))
  cases r with
  | error e => exact hr.1
  | ok gen => exact absurd rfl (hr.2 gen)

/-! ### Recovery -/

variable {Y : CredExt Blob} {sign : Key → Blob → Blob} {c : CredDb Blob}

/-- The statement leaves the accounts as they are. -/
def UsersStay (ev : CredEv Blob) : Prop := ev.post.auth.users = ev.pre.auth.users

abbrev Stays (p : Prog (CredDb Blob) (AuthEnv Blob) CredStmt α) : Prop :=
  Guarantees (fun _ _ _ => True) UsersStay p

lemma stays_statement {l : CredStmt}
    {g : AuthEnv Blob → CredDb Blob → CredDb Blob × Except SqlError α}
    (hg : ∀ e c, (g e c).1.auth.users = c.auth.users) : Stays (statement l g).run :=
  guarantees_statement (fun _ _ => rfl) fun e c => hg e c

/-- The clock and the random numbers. -/
lemma stays_read {l : AuthStmt} {g : AuthEnv Blob → α} :
    Stays (zoomE Credentials.login
      (ExceptT.mk (Prog.atom l fun e db => (db, .ok (g e))) : AuthHandler Blob α)).run :=
  guarantees_stmt (fun _ _ => rfl) fun _ _ => guarantees_ret _

lemma stays_getUserByEmail (email : String) :
    Stays (Credentials.getUserByEmail email : CredRepo Blob (Option (UserRow Blob))).run := by
  have hread : Guarantees (fun _ _ _ => True)
      (fun ev : Ev (AuthDb Blob) (AuthEnv Blob) AuthStmt => ev.post = ev.pre)
      (Auth.getUserByEmail email).run := guarantees_statement (fun _ _ => rfl) fun _ _ => rfl
  exact guarantees_zoom hread (fun _ _ _ _ => trivial) fun _ _ _ _ h => congrArg AuthDb.users h

lemma stays_orElse {x : CredRepo Blob (Option α)} (h : Stays x.run) (err : ApiError) :
    Stays (orElse x err).run := by
  refine guarantees_bind_except (guarantees_orInternal h) ?_
  rintro (_ | a)
  · exact guarantees_throw_except _
  · exact guarantees_pure_except _

lemma stays_recoverChallenge (email : String) :
    Stays (recoverChallenge email : CredHandler Blob Blob).run := by
  refine guarantees_bind_except stays_read fun nonce =>
    guarantees_bind_except (guarantees_orInternal (stays_getUserByEmail _)) ?_
  rintro (_ | user)
  · exact guarantees_pure_except _
  · refine guarantees_bind_except stays_read fun _ => guarantees_bind_except stays_read fun _ =>
      guarantees_bind_except (guarantees_orInternal (stays_statement fun e c => ?_)) fun _ =>
        guarantees_pure_except _
    split <;> rfl

lemma stays_deleteRecoveryChallenge (user : Ident) :
    Stays (deleteRecoveryChallenge user : CredRepo Blob Unit).run :=
  stays_statement fun _ _ => rfl

lemma stays_mintRecovery (user : Ident) : Stays (mintRecovery Y user).run := by
  refine guarantees_bind_except (guarantees_orInternal (stays_deleteRecoveryChallenge _)) fun _ =>
    guarantees_bind_except stays_read fun _ => guarantees_bind_except stays_read fun _ =>
    guarantees_bind_except (guarantees_orInternal (stays_statement fun e c => ?_)) fun _ =>
      guarantees_pure_except _
  split
  · rfl
  · split <;> rfl

lemma stays_recoverVerify (email : String) (sig : Blob) :
    Stays (recoverVerify Y ⟨email, none, some sig⟩).run := by
  refine guarantees_bind_except (stays_orElse (stays_getUserByEmail _) _) fun user =>
    guarantees_bind_except (stays_orElse (guarantees_bind_except
      (stays_statement fun _ _ => rfl) fun _ => guarantees_pure_except _) _) fun key => ?_
  split
  · exact guarantees_throw_except _
  refine guarantees_bind_except (stays_orElse (stays_statement fun _ _ => rfl) _) fun challenge =>
    guarantees_bind_except stays_read fun now => ?_
  split
  · exact guarantees_bind_except (guarantees_ignored (stays_deleteRecoveryChallenge _)) fun _ =>
      guarantees_throw_except _
  refine guarantees_bind_except (guarantees_pure_except _) fun _ =>
    guarantees_bind_except (guarantees_decodeB64 _) fun s => ?_
  split
  · exact guarantees_throw_except _
  · exact stays_mintRecovery _

/-- The account has its vault key in both blobs. -/
abbrev AccountIn (chosen : Blob → Secrets) (u : Ident) (svk : Key) (c : CredDb Blob) : Prop :=
  Account chosen u svk c.auth.users

lemma Stays.safe {p : Prog (CredDb Blob) (AuthEnv Blob) CredStmt α} (h : Stays p)
    (hc : AccountIn chosen u svk c) :
    Safe (AccountIn chosen u svk) p (fun _ c => AccountIn chosen u svk c) c :=
  safe_of_guarantees h (fun _ hpre hG => show Account _ _ _ _ from hG ▸ hpre) (fun _ h => h) hc

/-- A token that the answer of `recover_info` belongs to, and the blob in it. -/
def Told (Y : CredExt Blob) (token : String) (info : RecoverInfoResp Blob) (c : CredDb Blob) :
    Prop :=
  (∃ row, c.recoverySessions.get (Y.hashToken token) = some row ∧ row.userId = info.userId) ∧
    ∃ row, c.auth.users.get info.userId = some row ∧
      info.svkCiphertextBlobRk = row.svkCiphertextBlobRk

lemma safe_orElse {I : CredDb Blob → Prop} {x : CredRepo Blob (Option α)} {err : ApiError}
    {P : Except ApiError α → CredDb Blob → Prop} :
    Safe I (orElse x err).run P c ↔ Safe I x.run (fun r c => match r with
      | .ok (some a) => P (.ok a) c
      | .ok none => P (.error err) c
      | .error e => P (.error (.internal e)) c) c := by
  unfold orElse
  rw [safe_bind_except, safe_orInternal]
  constructor <;> refine safe_mono fun r c h => ?_ <;> rcases r with _ | _ | _ <;> exact h

lemma safe_recoverInfo (hc : AccountIn chosen u svk c) (token : String) :
    Safe (AccountIn chosen u svk) (recoverInfo Y token).run (fun r c =>
      AccountIn chosen u svk c ∧ ∀ info, r = .ok info → Told Y token info c) c := by
  unfold recoverInfo
  rw [safe_bind_except, safe_orElse]
  refine safe_statement hc ⟨hc, by simp⟩ fun e => ⟨hc, ?_⟩
  rcases hs : ((c.recoverySessions.get (Y.hashToken token)).filter
      fun r => e.now < r.expiresAt).map fun r => (r.userId, r.expiresAt) with _ | ⟨user, exp⟩
  · simpa [hs] using hc
  simp only [hs]
  rw [safe_bind_except, safe_orElse]
  refine safe_statement hc ⟨hc, by simp⟩ fun _ => ⟨hc, ?_⟩
  rcases hu : c.auth.users.get user with _ | row
  · simpa [hu] using hc
  simp only [hu]
  refine ⟨hc, fun info hi => ?_⟩
  obtain rfl := Except.ok.inj hi
  obtain ⟨srow, hsrow, hpair⟩ := Option.map_eq_some_iff.mp hs
  obtain ⟨hsrow, -⟩ := Option.filter_eq_some_iff.mp hsrow
  exact ⟨⟨srow, hsrow, (Prod.mk.inj hpair).1⟩, row, hu, rfl⟩

/-- Both blobs are stored anew with what the old one held. -/
lemma safe_recoverComplete (hc : AccountIn chosen u svk c) {token : String}
    {info : RecoverInfoResp Blob} (ht : Told Y token info c) {seed k : Key}
    (hk : recoverSvk seed info.userId info.svkCiphertextBlobRk = some k) (new : Renewal) :
    Safe (AccountIn chosen u svk) (recoverComplete Y ⟨token, some new.record, some new.salt,
      some (wrapSvk (chosen new.salt).masterKey k),
      some (wrapSvkWithRk k (.kekRk (chosen new.salt).seed) info.userId),
      some new.publicKey⟩).run (fun _ c => AccountIn chosen u svk c) c := by
  obtain ⟨⟨srow, hsrow, hsu⟩, row, hrow, hblob⟩ := ht
  unfold recoverComplete
  rw [safe_bind_except, safe_orElse]
  refine safe_statement hc hc fun _ => ⟨hc, ?_⟩
  simp only [hsrow, Option.map_some]
  rw [safe_bind_except]
  intro e
  refine ⟨hc, ?_⟩
  change Safe _ (ite _ _ _ : CredHandler Blob Ident).run _ _
  split
  · exact hc
  change Safe _ (ite _ _ _ : CredHandler Blob Ident).run _ _
  split
  · exact hc
  rw [safe_bind_except]
  intro e
  refine ⟨hc, ?_⟩
  change Safe _ (_ >>= _ : CredHandler Blob Ident).run _ _
  rw [safe_bind_except, safe_orInternal]
  refine safe_statement hc hc fun _ => ?_
  have hnew : Account chosen u svk (c.auth.users.update (fun r => r.id = srow.userId)
      (fun r => { r with
        opaqueRecord := new.record, kdfSalt := new.salt
        svkCiphertextBlob := wrapSvk (chosen new.salt).masterKey k
        svkCiphertextBlobRk := wrapSvkWithRk k (.kekRk (chosen new.salt).seed) info.userId
        updatedAt := e.now }) (by intro r; rfl)) := by
    refine account_update hc fun hu r hr hw => ?_
    have hinfo : info.userId = u := hsu.symm.trans hu
    rw [hinfo] at hrow hk ⊢
    obtain rfl := Option.some.inj (hrow.symm.trans hr)
    rw [hblob] at hk
    obtain rfl := hw.recoverSvk hk
    exact ⟨⟨nil, .inr rfl, rfl⟩, u, .inl rfl, rfl⟩
  refine ⟨hnew, ?_⟩
  change Safe _ (_ >>= _ : CredHandler Blob Ident).run _ _
  rw [safe_bind_except, safe_orInternal]
  exact safe_statement hnew hnew fun _ => ⟨hnew, hnew⟩

lemma safe_recoverKit (hc : AccountIn chosen u svk c) (email : String) (seed : Key)
    (new : Renewal) : Safe (AccountIn chosen u svk) (recoverKit Y sign chosen email seed new).run
      (fun _ c => AccountIn chosen u svk c) c := by
  unfold recoverKit
  rw [safe_bind_except]
  refine safe_mono (fun r c hc => ?_) ((stays_recoverChallenge email).safe hc)
  cases r with
  | error e => exact hc
  | ok nonce =>
    dsimp only
    rw [safe_bind_except]
    refine safe_mono (fun r c hc => ?_) ((stays_recoverVerify email (sign seed nonce)).safe hc)
    cases r with
    | error e => exact hc
    | ok verified =>
      dsimp only
      rw [safe_bind_except]
      refine safe_mono (fun r c hr => ?_) (safe_recoverInfo hc verified.recoveryToken)
      cases r with
      | error e => exact hr.1
      | ok info =>
        dsimp only
        split
        · exact hr.1
        · next k hk =>
          rw [safe_bind_except]
          refine safe_mono (fun r c hc => ?_)
            (safe_recoverComplete hr.1 (hr.2 info rfl) hk new)
          cases r <;> exact hc

/-! ### Every run -/

/-- The account as a native client has just registered it, with no items yet, and devices
that have not seen it. -/
structure Registered (chosen : Blob → Secrets) (u : Ident) (svk : Key) (t : Site) : Prop where
  account : ∃ r, t.cred.auth.users.get u = some r ∧
    r.svkCiphertextBlob = wrapSvk (chosen r.kdfSalt).masterKey svk ∧
    r.svkCiphertextBlobRk = wrapSvkWithRk svk (.kekRk (chosen r.kdfSalt).seed) nil
  items : ∀ r ∈ t.items.rows, r.userId ≠ u
  payloads : ∀ d, (t.devices d).db.payloads.rows = []
  locked : ∀ d, (t.devices d).mem.dek = none

lemma Registered.inv {t : Site} (h : Registered chosen u svk t) :
    Inv chosen u svk (onWorld.get t) := by
  obtain ⟨r, hr, hmp, hrk⟩ := h.account
  refine ⟨⟨r, hr, ⟨nil, .inr rfl, hmp⟩, nil, .inr rfl, hrk⟩, fun r hr hu => ?_, fun d => ?_⟩
  · exact absurd hu (h.items r hr)
  · exact ⟨by simp [onWorld, h.payloads d], by simp [onWorld, h.locked d]⟩

/-- The statement does not make a rotation take effect. -/
def Idling (ev : Ev Site SiteEnv SiteName) : Prop := rotates ev.name = true → ev.inp.fault = true

/-- A flow on the accounts, the items and the devices. -/
lemma safely_onWorld {p : Code α} {t : Site}
    (hp : Safely Idle (Inv chosen u svk) p (fun _ w => Inv chosen u svk w) (onWorld.get t)) :
    Safely Idling (fun t => Inv chosen u svk (onWorld.get t)) (discard (zoom onWorld p))
      (fun _ _ => True) t := by
  unfold discard
  rw [safely_bind]
  refine safely_mono (fun _ _ _ => trivial) (P := fun _ t => Inv chosen u svk (onWorld.get t)) ?_
  exact safely_zoom (v := onWorld) (fun _ _ _ => rfl) (fun _ _ _ _ h => h) hp rfl

lemma safely_code {O : Outside} {t : Site} (h : Inv O.chosen u svk (onWorld.get t)) (q : Flow) :
    Safely Idling (fun t => Inv O.chosen u svk (onWorld.get t)) (code O u q)
      (fun _ _ => True) t := by
  cases q with
  | login d mk => exact safely_onWorld (safe_login h mk).safely
  | lock d => exact safely_onWorld (kept_lock.safe h).safely
  | save d item plain => exact safely_onWorld (safe_sealAndSave h item plain).safely
  | push d => exact safely_onWorld (safely_pushLocalChanges h)
  | overwrite d uuid v => exact safely_onWorld (safely_overwrite h uuid v)
  | rotateKey d gen => exact safely_onWorld (safely_rotateKey h gen)
  | rekeySvk d mk => exact safely_onWorld (safe_rekeySvk h mk).safely
  | recover email seed new =>
    refine Safe.safely ?_
    unfold code discard
    rw [safe_bind]
    refine safe_mono (fun _ _ _ => trivial) (P := fun _ t => Inv O.chosen u svk (onWorld.get t)) ?_
    have hput : ∀ c : CredDb Blob, AccountIn O.chosen u svk c →
        Inv O.chosen u svk (onWorld.get (onCred.put c t)) :=
      fun c hc => ⟨hc, h.items, h.devices⟩
    refine safe_zoom (v := onCred) (fun _ _ _ => rfl) (safe_weaken hput ?_) rfl
    exact safe_mono (fun _ c hc => hput c hc) (safe_recoverKit h.account email seed new)

/-- **The kit opens the vault while no rotation takes effect.** After any logins, saves,
pushes, rewrappings and recoveries of an account, each stopped anywhere or carried to its end,
the password and the recovery key in force open their blobs to one vault key, and the newest
items are sealed under it. -/
theorem kit_opens (O : Outside) (u : Ident) (svk : Key) (t : Site)
    (ht : Registered O.chosen u svk t) (as : List KitAct)
    (has : Along (code O u) nobody Unrotated (init t) as) :
    KitOpens O.chosen u (run (code O u) nobody (init t) as).shared := by
  have hop : ∀ (σ : KitSess) q, Inv O.chosen u svk (onWorld.get σ.shared) → Unrotated σ (.op q) →
      wp (keeps (fun t => Inv O.chosen u svk (onWorld.get t)) Eq (Every Idling)) (code O u q)
        (fun _ tr _ => Every (fun ev => Inv O.chosen u svk (onWorld.get ev.post)) tr) [] σ.shared :=
    fun σ q h _ => (safely_code h q).keeps every_nil
  have hexec : ∀ (σ : KitSess) e q tr l f k, σ.cur = some ⟨q, tr, .stmt l f k⟩ →
      Unrotated σ (.exec e) → Inv O.chosen u svk (onWorld.get σ.shared) → Every Idling tr →
      Every Idling (tr ++ [⟨l, e, σ.shared, f e σ.shared⟩]) :=
    fun σ e q tr l f k hc hC _ hok => every_append hok (hC _ hc l rfl)
  have hinv : Inv O.chosen u svk (onWorld.get (run (code O u) nobody (init t) as).shared) :=
    run_keeps (I := fun t => Inv O.chosen u svk (onWorld.get t)) hop hexec
      (fun _ x => x.elim) (fun _ => every_nil) (fun _ => rfl)
      (fun _ _ _ h₁ h₂ => h₁.trans h₂) ht.inv has
  exact hinv.kitOpens

/-! ### One account -/

/-- The signature of a nonce names the seed and the nonce. -/
def signWith (seed : Key) : Blob → Blob
  | .raw n => .box (.kekRk seed) 0 0 (.bytes n)
  | b => b

/-- Hashes are the texts themselves, and the public key of a seed is its number. -/
def plainCred : CredExt Blob where
  setupFromBytes _ := true
  generateServerSetup := .ok
  serverRegisterStart _ creq _ := .ok creq
  serverRegisterFinish := .ok
  serverLoginStart r _ _ _ _ := .ok (r, r)
  serverLoginFinish state _ := .ok state
  len
    | .raw _ => 32
    | .box _ _ _ _ => 64
  allZero _ := false
  simple _ := "simple"
  sha256Hex := id
  hashSessionToken _ := "session"
  setupFile := none
  prod := false
  allowDb := false
  b64 _ := "b64"
  b64url _ := "b64url"
  hashToken := id
  tokenHash := id
  recoveryCodeHash := id
  hyphenated _ := "token"
  trim := id
  verifyingKey _ := true
  verifyStrict
    | .raw seed => fun nonce sig => sig = signWith seed nonce
    | _ => fun _ _ => false
  totpVerifier _ := .ok ()
  totpGenerate _ _ := ""
  allowNonExpiring := false
  maxTokenLifetimeDays := none

/-- The salt `n` goes with the master key `10 + n` and the seed `20 + n`. -/
def outside : Outside where
  ext := ⟨fun _ => true, fun _ => 32⟩
  cred := plainCred
  sign := signWith
  chosen
    | .raw n => ⟨10 + n, 20 + n⟩
    | _ => ⟨0, 0⟩

/-- The user 7 has registered, with the vault key 100; the recovery key is published. -/
def registered : Site where
  cred :=
    { auth := ⟨⟨[⟨7, "u", .raw 1, .raw 0, wrapSvk 11 100, wrapSvkWithRk 100 (.kekRk 21) nil, 1, 0,
        0⟩], by decide⟩, .empty, .empty, .empty, none, [], [], .empty⟩
      cols := ⟨[⟨7, some (.raw 21), none, none, 0, 0⟩], by decide⟩
      machineAccounts := .empty
      accessTokens := .empty
      challenges := .empty
      stored := 0
      recoverySessions := .empty
      totpSecrets := .empty
      usedSteps := .empty
      recoveryCodes := .empty }
  items := .empty
  devices _ := ⟨⟨.empty, .empty, .single ⟨1, 0, 0, .raw 0⟩, .empty, .empty, .empty⟩,
    Memory.new⟩

/-- The flow and so many of its statements. -/
def flowing (q : Flow) (n : ℕ) (key : Key) : List KitAct :=
  .op q :: List.replicate n (.exec ⟨0, 5, .raw 6, false, key⟩)

/-- Login on a device, and an item saved and pushed; the server has no version of it yet. -/
def firstItem : List KitAct :=
  flowing (.login 0 11) 20 0 ++
    flowing (.save 0 ⟨1, 3, "t", "", "", "[]", 0, 0, false⟩ 5) 10 0 ++
    flowing (.overwrite 0 3 0) 30 0

/-- The item, a recovery with a new password and a new phrase, and a login on the web. -/
def recovering : List KitAct :=
  firstItem ++ flowing (.recover "u" 21 ⟨.raw 2, .raw 0, .raw 22⟩) 30 0 ++
    flowing (.rekeySvk 0 12) 10 0

instance (σ : KitSess) (a : KitAct) : Decidable (Unrotated σ a) := by
  cases a with
  | exec e => exact inferInstanceAs (Decidable (∀ c ∈ σ.cur, _))
  | op q => exact inferInstanceAs (Decidable True)
  | env x => exact x.elim

lemma registered_registered : Registered outside.chosen 7 100 registered :=
  ⟨⟨_, rfl, rfl, rfl⟩, by simp [registered, Table.empty], fun _ => rfl, fun _ => rfl⟩

theorem kit_opens_recovering :
    Registered outside.chosen 7 100 registered ∧
    Along (code outside 7) nobody Unrotated (init registered) recovering ∧
    KitOpens outside.chosen 7 (run (code outside 7) nobody (init registered) recovering).shared :=
  ⟨registered_registered, by decide +kernel,
    kit_opens outside 7 100 registered registered_registered recovering (by decide +kernel)⟩

/-- **A rotation makes the kit useless.** It stores a new vault key under the password and
leaves the old one under the recovery key. -/
theorem rotation_strands_kit :
    ¬ ∀ (O : Outside) (u : Ident) (svk : Key) (t : Site) (as : List KitAct),
      Registered O.chosen u svk t →
        KitOpens O.chosen u (run (code O u) nobody (init t) as).shared := by
  intro h
  obtain ⟨svk, hmp, hrk, -⟩ := h outside 7 100 registered
    (firstItem ++ flowing (.rotateKey 0 2) 40 200) registered_registered
  have hmp' : passwordKey outside.chosen 7 (run (code outside 7) nobody (init registered)
      (firstItem ++ flowing (.rotateKey 0 2) 40 200)).shared = some 200 := by decide +kernel
  have hrk' : kitKey outside.chosen 7 (run (code outside 7) nobody (init registered)
      (firstItem ++ flowing (.rotateKey 0 2) 40 200)).shared = some 100 := by decide +kernel
  obtain rfl := Option.some.inj (hmp.symm.trans hmp')
  exact absurd (hrk.symm.trans hrk') (by decide)

end Vautr.EmergencyKit
