import Vautr.Orchestrator
import Vautr.Push

/-!
What a statement of a client can do to its database, whatever command it belongs to.
-/

namespace Vautr.Effects

open Vautr.Atomic Vautr.Session Vautr.Sql Vautr.Server Vautr.Handlers Vautr.ClientDb Vautr.Crypto Vautr.Client
  Vautr.Orchestrator Vautr.Push

/-- The transactions on the local database, by the statement that runs them. -/
inductive DbStep : Label → LocalDb Blob → LocalDb Blob → Prop
  | same (l : Label) (db : LocalDb Blob) : DbStep l db db
  | save (o : OverviewRow) (p : Blob) (db : LocalDb Blob) :
    DbStep (.saveItem o.uuid) db (saveItemTxn o p db)
  | delete (uuid : Ident) (db : LocalDb Blob) : DbStep (.deleteItem uuid) db (deleteItemTxn uuid db)
  | clear (uuids : List Ident) (db : LocalDb Blob) :
    DbStep .clearPendingDeletes db (clearPendingDeletes uuids db)
  | page (us : List (PulledOverview × Blob)) (deletes : List Ident) (cursor minGen : ℤ)
    (db db' : LocalDb Blob) (h : applySyncBatchTxn (us.map fun u => PulledOverview.row u.1)
      (us.map fun u => ⟨u.1.uuid, u.2⟩) deletes cursor minGen db = some db') :
    DbStep (.persistPage (us.map (·.1.uuid))) db db'
  | blacklist (t : Table BlacklistRow.uuid) (db : LocalDb Blob) :
    DbStep .persistBlacklist db (persistDashmapTxn t db)
  | reencrypt (uuid : Ident) (p : Blob) (gen : ℤ) (db : LocalDb Blob) :
    DbStep (.reencryptItem uuid) db (reencryptItemTxn uuid p gen db)
  | storeBlob (b : Blob) (db db' : LocalDb Blob) (h : storeSvkBlob b db = some db') :
    DbStep .storeSvkBlob db db'

/-- A statement of the device `d`: the other devices stay, and its own database takes a
step. -/
structure Effect (d : ℕ) (ev : Ev World ClientEnv Name) : Prop where
  device : ev.name.1 = d
  others : ∀ d', d' ≠ d → ev.post.devices d' = ev.pre.devices d'
  own : DbStep ev.name.2 (ev.pre.devices d).db (ev.post.devices d).db

variable {X : Ext Blob} {d : ℕ} {ε α : Type}

/-- Whatever the others do, every statement of the program is such a statement of `d`. -/
abbrev Effects (d : ℕ) (p : Code α) : Prop := Guarantees (fun _ _ _ => True) (Effect d) p

lemma effect_same (l : Label) (e : ClientEnv) (w : World) : Effect d ⟨(d, l), e, w, w⟩ :=
  ⟨rfl, fun _ _ => rfl, .same l _⟩

lemma effect_setDevice {l : Label} {e : ClientEnv} {w : World} {c : Device}
    (h : DbStep l (w.devices d).db c.db) : Effect d ⟨(d, l), e, w, w.setDevice d c⟩ :=
  ⟨rfl, fun _ hne => World.setDevice_of_ne w hne c, by simpa using h⟩

lemma effects_onMemory {l : Label} {g : ClientEnv → Memory → Memory × α} :
    Effects d (onMemory d l g : ExceptT ε Code α).run :=
  guarantees_onMemory fun _ _ => effect_setDevice (.same l _)

lemma effects_readDb {l : Label} {context : String} {g : LocalDb Blob → α} :
    Effects d (readDb d l context g).run :=
  guarantees_readDb fun e w => effect_same l e w

/-! ### Lifecycle -/

lemma effects_openVault (localGen : UInt64) : Effects d (openVault d localGen).run := by
  refine guarantees_bind_except (guarantees_bind_except (guarantees_inspect effects_readDb)
    fun r => ?_) fun _ => guarantees_bind_except effects_onMemory fun _ =>
    guarantees_bind_except effects_onMemory fun _ => guarantees_bind_except
      (guarantees_bind_except (guarantees_inspect effects_readDb) fun r => ?_) fun _ =>
        effects_onMemory
  · cases r <;> exact effects_onMemory
  · cases r with
    | ok t => exact effects_onMemory
    | error e => exact guarantees_pure_except _

lemma effects_unlockWithPassword (mk : Key) (wrapped : Blob) (user : Ident) (gen : UInt64) :
    Effects d (unlockWithPassword d mk wrapped user gen).run := by
  unfold unlockWithPassword
  split
  · exact guarantees_throw_except _
  · exact guarantees_throw_except _
  · exact guarantees_bind_except effects_onMemory fun _ => guarantees_bind_except effects_onMemory
      fun _ => guarantees_bind_except effects_onMemory fun _ =>
      guarantees_bind_except effects_onMemory fun _ => effects_openVault gen

/-! ### Commands that work with the items -/

/-- Statements that belong to no rotation alone, and to no start of a client. -/
def ordinary : Label → Bool
  | .loadBlacklist => false
  | .restart => false
  | .newKey => false
  | .rotateAnswer _ _ _ => false
  | .listRotationItems => false
  | .reencryptItem _ => false
  | .storeSvkBlob => false
  | _ => true

/-- The memory stays, but for what is counted and published. -/
structure Steady (m m' : Memory) : Prop where
  svk : m'.svk = m.svk
  dek : m'.dek = m.dek
  masterKey : m'.mk = m.mk
  localGen : m'.localGen = m.localGen
  minEncKeyGen : m'.minEncKeyGen = m.minEncKeyGen
  locked : m'.locked = m.locked
  cursor : m'.cursor = m.cursor
  blacklist : m'.blacklist = m.blacklist
  blacklistDirty : m'.blacklistDirty = m.blacklistDirty
  transport : m'.transport = m.transport

lemma steady_refl (m : Memory) : Steady m m := ⟨rfl, rfl, rfl, rfl, rfl, rfl, rfl, rfl, rfl, rfl⟩

/-- The statements of a rotation. -/
def rotating : Label → Bool
  | .memory => true
  | .newKey => true
  | .rotateAnswer _ _ _ => true
  | .listRotationItems => true
  | .reencryptItem _ => true
  | .storeSvkBlob => true
  | _ => false

/-- The statements that store a page or the list of ignored items. -/
def storesLists : Label → Bool
  | .persistPage _ => true
  | .persistBlacklist => true
  | _ => false

/-- The memory stays, but for the keys and their generations. -/
structure Promoted (m m' : Memory) : Prop where
  masterKey : m'.mk = m.mk
  locked : m'.locked = m.locked
  cursor : m'.cursor = m.cursor
  blacklist : m'.blacklist = m.blacklist
  blacklistDirty : m'.blacklistDirty = m.blacklistDirty
  transport : m'.transport = m.transport

/-- `G` allows a device to use its memory and to ask the server, with the effects `R`. -/
structure Permits (d : ℕ) (R : Db Blob → Db Blob → Prop) (G : Ev World ClientEnv Name → Prop) :
    Prop where
  read : ∀ s, R s s
  memory : ∀ l e w m, ordinary l = true → Steady (w.devices d).mem m →
    G ⟨(d, l), e, w, w.setDevice d { w.devices d with mem := m }⟩
  server : ∀ l e w s, R w.server s → G ⟨(d, .server l), e, w, { w with server := s }⟩

/-- And it allows the transactions on the items of the local database. -/
structure PermitsDb (d : ℕ) (R : Db Blob → Db Blob → Prop) (G : Ev World ClientEnv Name → Prop) :
    Prop extends Permits d R G where
  database : ∀ l e w db, e.fault = false → ordinary l = true → storesLists l = false →
    DbStep l (w.devices d).db db → G ⟨(d, l), e, w, w.setDevice d { w.devices d with db }⟩

/-- And it allows to store pages and the list of ignored items, to set the cursor and to clear the
mark of that list. -/
structure PermitsLists (d : ℕ) (R : Db Blob → Db Blob → Prop)
    (G : Ev World ClientEnv Name → Prop) : Prop extends PermitsDb d R G where
  cursor : ∀ e w c, G ⟨(d, .memory), e, w,
    w.setDevice d { w.devices d with mem := { (w.devices d).mem with cursor := c } }⟩
  clean : ∀ e w, G ⟨(d, .memory), e, w,
    w.setDevice d { w.devices d with mem := { (w.devices d).mem with blacklistDirty := false } }⟩
  lists : ∀ l e w db, e.fault = false → storesLists l = true → DbStep l (w.devices d).db db →
    G ⟨(d, l), e, w, w.setDevice d { w.devices d with db }⟩

/-- And it allows to set the epoch gate. -/
structure PermitsSync (d : ℕ) (R : Db Blob → Db Blob → Prop)
    (G : Ev World ClientEnv Name → Prop) : Prop extends PermitsLists d R G where
  gate : ∀ e w g, G ⟨(d, .memory), e, w,
    w.setDevice d { w.devices d with mem := { (w.devices d).mem with minEncKeyGen := g } }⟩

/-- It allows to work with the items in a rotation. -/
structure PermitsItems (d : ℕ) (R : Db Blob → Db Blob → Prop)
    (G : Ev World ClientEnv Name → Prop) : Prop extends PermitsDb d R G where
  stay : ∀ l e w, rotating l = true → G ⟨(d, l), e, w, w⟩
  items : ∀ l e w db, e.fault = false → rotating l = true → DbStep l (w.devices d).db db →
    G ⟨(d, l), e, w, w.setDevice d { w.devices d with db }⟩

/-- And it allows the statements of a rotation. -/
structure PermitsRotation (d : ℕ) (R : Db Blob → Db Blob → Prop)
    (G : Ev World ClientEnv Name → Prop) : Prop extends PermitsDb d R G where
  keys : ∀ l e w m, rotating l = true → Promoted (w.devices d).mem m →
    G ⟨(d, l), e, w, w.setDevice d { w.devices d with mem := m }⟩
  items : ∀ l e w db, e.fault = false → rotating l = true → DbStep l (w.devices d).db db →
    G ⟨(d, l), e, w, w.setDevice d { w.devices d with db }⟩

/-- Anything may happen on the server. -/
def anyEffect : Db Blob → Db Blob → Prop := fun _ _ => True

/-- The device keeps what is stored, and of its memory all but what is counted and published. -/
structure Rests (d : ℕ) (ev : Ev World ClientEnv Name) : Prop where
  here : ev.name.1 = d
  label : ordinary ev.name.2 = true
  db : (ev.post.devices d).db = (ev.pre.devices d).db
  memory : Steady (ev.pre.devices d).mem (ev.post.devices d).mem

lemma permits_rests : Permits d anyEffect (Rests d) where
  read _ := trivial
  memory _ _ _ _ hl hm := ⟨rfl, hl, by simp, by simpa using hm⟩
  server _ _ _ _ _ := ⟨rfl, rfl, rfl, steady_refl _⟩

lemma permitsSync_effect : PermitsSync d anyEffect (Effect d) where
  read _ := trivial
  memory l _ _ _ _ _ := effect_setDevice (.same l _)
  server _ _ _ _ _ := ⟨rfl, fun _ _ => rfl, .same _ _⟩
  database _ _ _ _ _ _ _ h := effect_setDevice h
  cursor _ _ _ := effect_setDevice (.same .memory _)
  gate _ _ _ := effect_setDevice (.same .memory _)
  clean _ _ := effect_setDevice (.same .memory _)
  lists _ _ _ _ _ _ h := effect_setDevice h

lemma permitsRotation_effect : PermitsRotation d anyEffect (Effect d) where
  toPermitsDb := permitsSync_effect.toPermitsDb
  keys l _ _ _ _ _ := effect_setDevice (.same l _)
  items _ _ _ _ _ _ h := effect_setDevice h

section Work

variable {R : Db Blob → Db Blob → Prop} {G : Ev World ClientEnv Name → Prop}

/-- Whatever the others do, every statement is in `G`. -/
abbrev Promises (G : Ev World ClientEnv Name → Prop) (p : Code α) : Prop :=
  Guarantees (fun _ _ _ => True) G p

lemma Permits.mono {G' : Ev World ClientEnv Name → Prop} (h : Permits d R G)
    (hG : ∀ ev, G ev → G' ev) : Permits d R G' where
  read := h.read
  memory l e w m hl hm := hG _ (h.memory l e w m hl hm)
  server l e w s hs := hG _ (h.server l e w s hs)

lemma Permits.same (h : Permits d R G) {l : Label} (hl : ordinary l = true) (e : ClientEnv)
    (w : World) : G ⟨(d, l), e, w, w⟩ := by
  have := h.memory l e w (w.devices d).mem hl (steady_refl _)
  rwa [World.setDevice_eq_self] at this

lemma Permits.onMemory (h : Permits d R G) {l : Label} {g : ClientEnv → Memory → Memory × α}
    (hl : ordinary l = true) (hg : ∀ e m, Steady m (g e m).1) :
    Promises G (onMemory d l g : ExceptT ε Code α).run :=
  guarantees_onMemory fun e w => h.memory l e w _ hl (hg e _)

lemma Permits.readMemory (h : Permits d R G) {g : Memory → α} :
    Promises G (readMemory d g : ExceptT ε Code α).run :=
  h.onMemory rfl fun _ _ => ⟨rfl, rfl, rfl, rfl, rfl, rfl, rfl, rfl, rfl, rfl⟩

lemma Permits.publish (h : Permits d R G) {us : List Update} :
    Promises G (publish d us : ExceptT ε Code Unit).run :=
  h.onMemory rfl fun _ _ => ⟨rfl, rfl, rfl, rfl, rfl, rfl, rfl, rfl, rfl, rfl⟩

lemma Permits.readDb (h : Permits d R G) {l : Label} {context : String} {g : LocalDb Blob → α}
    (hl : ordinary l = true) : Promises G (readDb d l context g).run :=
  guarantees_readDb fun e w => h.same hl e w

lemma Permits.roundTrip (h : Permits d R G) {x : ServerHandler Blob α}
    (hx : Guarantees (fun _ _ _ => True) (fun ev => R ev.pre ev.post) x.run) :
    Promises G (Client.roundTrip d (fun _ => .receive) x).run :=
  guarantees_roundTrip hx (fun e w => h.same rfl e w) (fun l e w s hs => h.server l e w s hs)
    fun _ e w => h.same rfl e w

/-- A request that only reads. -/
lemma Permits.reading (h : Permits d R G) {x : ServerHandler Blob α}
    (hx : Guarantees (fun _ _ _ => True) Reading x.run) :
    Promises G (Client.roundTrip d (fun _ => .receive) x).run := by
  refine h.roundTrip (guarantees_mono (fun ev hev => ?_) hx)
  rw [show ev.post = ev.pre from hev]
  exact h.read _

/-- Any request. -/
lemma Permits.asking (h : Permits d anyEffect G) {x : ServerHandler Blob α} :
    Promises G (Client.roundTrip d (fun _ => .receive) x).run := h.roundTrip (guarantees_true _)

lemma Permits.require (h : Permits d R G) {msg : String} {g : Memory → Option α} :
    Promises G (require d msg g).run := by
  refine guarantees_bind_except h.readMemory fun r => ?_
  cases r with
  | none => exact guarantees_throw_except _
  | some a => exact guarantees_pure_except _

lemma Permits.requireUnlocked (h : Permits d R G) : Promises G (requireUnlocked d).run := by
  refine guarantees_bind_except h.readMemory fun locked => ?_
  split
  · exact guarantees_throw_except _
  · exact guarantees_pure_except _

lemma Permits.verifyEpoch (h : Permits d R G) (gen : UInt64) :
    Promises G (verifyEpoch d gen).run := by
  refine guarantees_bind_except h.readMemory fun g => ?_
  split
  · exact guarantees_throw_except _
  · exact guarantees_pure_except _

lemma Permits.commitTask (h : Permits d R G) {commit : Op Unit} {done : Update}
    (hc : Promises G commit.run) : Promises G (commitTask d commit done).run := by
  refine guarantees_bind_except (h.onMemory rfl fun _ _ =>
    ⟨rfl, rfl, rfl, rfl, rfl, rfl, rfl, rfl, rfl, rfl⟩) fun receipt =>
    guarantees_bind_except (guarantees_inspect hc) fun r => ?_
  cases r <;> exact guarantees_bind_except h.publish fun _ => guarantees_pure_except _

lemma Permits.fetchPayload (h : Permits d R G) (user uuid : Ident) (v : UInt64) :
    Promises G (fetchPayload d user uuid v).run :=
  guarantees_bind_except (h.reading (reading_syncPullPayloads _ _)) fun _ => guarantees_ret _

lemma Permits.fetchPayloadIfAllowed (h : Permits d R G) (user uuid : Ident) (v : UInt64) :
    Promises G (fetchPayloadIfAllowed d user uuid v).run := by
  refine guarantees_bind_except h.readMemory fun b => ?_
  split
  · exact guarantees_pure_except _
  · exact guarantees_bind_except (h.fetchPayload _ _ _) fun _ => guarantees_pure_except _

lemma Permits.fetchPage (h : Permits d R G) (user : Ident) (ovs : List PulledOverview)
    (page : Page) : Promises G (fetchPage d user ovs page).run := by
  induction ovs generalizing page with
  | nil => exact guarantees_pure_except _
  | cons ov rest ih =>
    refine guarantees_bind_except h.readMemory fun ignored => ?_
    split
    · exact ih _
    split
    · exact ih _
    refine guarantees_bind_except (guarantees_inspect (h.fetchPayloadIfAllowed _ _ _)) fun r => ?_
    rcases r with e | _ | p
    · exact guarantees_bind_except (h.onMemory rfl fun _ m => steady_refl m) fun _ => ih _
    · exact ih _
    · exact ih _

lemma Permits.updateEpochGate (h : Permits d R G) (hgate : ∀ e w g, G ⟨(d, .memory), e, w,
    w.setDevice d { w.devices d with mem := { (w.devices d).mem with minEncKeyGen := g } }⟩)
    (user : Ident) (gen : UInt64) : Promises G (updateEpochGate d user gen).run := by
  refine guarantees_bind_except (guarantees_inspect (guarantees_bind_except
    (h.reading (reading_accountStatus _)) fun _ => guarantees_pure_except _)) fun r => ?_
  cases r with
  | ok gen =>
    exact guarantees_bind_except (guarantees_onMemory fun e w => hgate e w gen) fun _ => h.publish
  | error e => exact guarantees_pure_except _

lemma Permits.pushBatch (h : Permits d anyEffect G) (user : Ident) (items : List Pushed) :
    Promises G (pushBatch X d user items).run :=
  guarantees_bind_except (h.onMemory rfl fun _ _ =>
    ⟨rfl, rfl, rfl, rfl, rfl, rfl, rfl, rfl, rfl, rfl⟩) fun _ =>
    guarantees_bind_except h.asking fun _ => guarantees_pure_except _

lemma Permits.enginePushBatch (h : Permits d anyEffect G) (user : Ident) (items : List Pushed) :
    Promises G (enginePushBatch X d user items).run := by
  refine guarantees_bind_except (h.pushBatch _ _) fun outs => ?_
  split
  · exact guarantees_throw_except _
  · exact guarantees_pure_except _

lemma Permits.reportConflicts (h : Permits d R G) (chunk : List (OverviewRow × Blob))
    (outs : List (Ident × PushOutcome)) : Promises G (reportConflicts d chunk outs).run := by
  induction outs with
  | nil => exact guarantees_pure_except _
  | cons x rest ih =>
    obtain ⟨uuid, out⟩ := x
    cases out with
    | conflict v =>
      exact guarantees_bind_except h.readMemory fun _ => guarantees_bind_except h.publish fun _ => ih
    | _ => exact ih

lemma Permits.pushChunks (h : Permits d anyEffect G) (user : Ident)
    (cs : List (List (OverviewRow × Blob))) : Promises G (pushChunks X d user cs).run := by
  induction cs with
  | nil => exact guarantees_pure_except _
  | cons chunk rest ih =>
    exact guarantees_bind_except (guarantees_orFail (h.enginePushBatch _ _)) fun _ =>
      guarantees_bind_except (h.reportConflicts _ _) fun _ => ih

/-- A rotation asks the server about conflicts. -/
lemma Permits.settleOutcomes (h : Permits d anyEffect G) (user : Ident) (oldSvk newSvk : Key) (gen : UInt64)
    (outs : List (PushOutcome × OverviewRow × Blob)) :
    Promises G (settleOutcomes X d user oldSvk newSvk gen outs).run := by
  induction outs with
  | nil => exact guarantees_pure_except _
  | cons x rest ih =>
    obtain ⟨out, o, payload⟩ := x
    refine guarantees_bind_except ?_ fun _ => ih
    cases out with
    | applied => exact guarantees_pure_except _
    | epochTooOld => exact guarantees_throw_except _
    | conflict v =>
      refine guarantees_bind_except (guarantees_orFail (h.fetchPayload _ _ _)) fun p => ?_
      split
      · exact guarantees_throw_except _
      · refine guarantees_bind_except (guarantees_orFail (h.pushBatch _ _)) fun retry => ?_
        split
        · exact guarantees_pure_except _
        · exact guarantees_throw_except _

lemma PermitsDb.writeDb (h : PermitsDb d R G) {l : Label} {context : String}
    {g : LocalDb Blob → LocalDb Blob} (hl : ordinary l = true) (hs : storesLists l = false)
    (hg : ∀ db, DbStep l db (g db)) : Promises G (writeDb d l context g).run :=
  guarantees_writeDb (fun e w => h.same hl e w) fun e w hf => h.database l e w _ hf hl hs (hg _)

lemma PermitsDb.saveItem (h : PermitsDb d R G) (item : DomainModel) (payload : Blob) :
    Promises G (saveItem d item payload).run := by
  refine guarantees_bind_except h.readMemory fun locked => ?_
  split
  · exact guarantees_pure_except _
  · exact h.commitTask (guarantees_bind_except (h.verifyEpoch _) fun _ =>
      guarantees_bind_except (h.readDb rfl) fun existing => h.writeDb rfl rfl fun db =>
        .save (item.row existing) payload db)

lemma PermitsDb.deleteItem (h : PermitsDb d R G) (uuid : Ident) :
    Promises G (deleteItem d uuid).run := by
  refine guarantees_bind_except h.readMemory fun locked => ?_
  split
  · exact guarantees_pure_except _
  · exact guarantees_bind_except h.readMemory fun gen =>
      h.commitTask (guarantees_bind_except (h.verifyEpoch _) fun _ =>
        h.writeDb rfl rfl fun db => .delete uuid db)

lemma PermitsLists.persistSyncedPage (h : PermitsLists d R G) (us : List (PulledOverview × Blob))
    (deletes : List Ident) (cursor : UInt64) :
    Promises G (persistSyncedPage d us deletes cursor).run := by
  refine guarantees_bind_except h.readMemory fun minGen =>
    guarantees_bind_except (guarantees_onDb (fun e w => h.same rfl e w) fun e w db a hf hdb => ?_)
      fun _ => h.publish
  obtain ⟨db', hpage, heq⟩ := Option.map_eq_some_iff.mp hdb
  obtain rfl : db' = db := congrArg Prod.fst heq
  exact h.lists _ e w _ hf rfl (.page us deletes _ _ _ _ hpage)

lemma PermitsLists.applyPage (h : PermitsLists d R G) (page : Page) (cursor : UInt64) :
    Promises G (applyPage d page cursor).run := by
  unfold Orchestrator.applyPage
  split
  · exact guarantees_pure_except _
  · refine guarantees_bind_except (guarantees_inspect (h.persistSyncedPage _ _ _)) fun r => ?_
    cases r with
    | ok _ => exact guarantees_pure_except _
    | error _ =>
      exact guarantees_bind_except (h.onMemory rfl fun _ _ =>
    ⟨rfl, rfl, rfl, rfl, rfl, rfl, rfl, rfl, rfl, rfl⟩) fun _ =>
        guarantees_pure_except _

lemma PermitsLists.syncPages (h : PermitsLists d R G) (user : Ident) (pages : ℕ) (cursor : UInt64)
    (failed : Bool) : Promises G (syncPages X d user pages cursor failed).run := by
  induction pages generalizing cursor failed with
  | zero => exact guarantees_throw_except _
  | succ pages ih =>
    refine guarantees_bind_except (guarantees_orFail (guarantees_bind_except
      (h.reading (reading_syncPull _ _ _)) fun _ => guarantees_pure_except _)) fun r => guarantees_bind_except (h.fetchPage _ _ _)
      fun page => guarantees_bind_except (h.applyPage _ _) fun failed => ?_
    split
    · exact ih _ _
    · exact guarantees_pure_except _

lemma PermitsLists.persistBlacklistIfDirty (h : PermitsLists d R G) :
    Promises G (persistBlacklistIfDirty d).run := by
  refine guarantees_bind_except h.readMemory fun dirty => ?_
  split
  · exact guarantees_bind_except h.readMemory fun t => guarantees_bind_except
      (guarantees_writeDb (fun e w => h.same rfl e w) fun e w hf => h.lists _ e w _ hf rfl
        (.blacklist t _)) fun _ => guarantees_onMemory h.clean
  · exact guarantees_pure_except _

lemma PermitsLists.advanceCursor (h : PermitsLists d R G) (cursor : UInt64) (failed : Bool) :
    Promises G (advanceCursor d cursor failed).run := by
  unfold Orchestrator.advanceCursor
  split
  · exact guarantees_pure_except _
  · exact guarantees_onMemory fun e w => h.cursor e w cursor

lemma PermitsSync.sync (h : PermitsSync d R G) : Promises G (sync X d).run :=
  guarantees_bind_except h.require fun _ =>
    guarantees_bind_except h.readMemory fun _ =>
    guarantees_bind_except h.publish fun _ =>
    guarantees_bind_except h.readMemory fun _ =>
    guarantees_bind_except (h.syncPages _ _ _ _) fun _ =>
    guarantees_bind_except (h.advanceCursor _ _) fun _ =>
    guarantees_bind_except (h.updateEpochGate h.gate _ _) fun _ =>
    guarantees_bind_except h.persistBlacklistIfDirty fun _ => h.publish

lemma PermitsDb.flushPendingDeletes (h : PermitsDb d anyEffect G) (user : Ident) :
    Promises G (flushPendingDeletes X d user).run := by
  refine guarantees_bind_except (guarantees_inspect (h.readDb rfl)) fun r => ?_
  cases r with
  | error e => exact guarantees_pure_except _
  | ok pending =>
    dsimp only
    split
    · exact guarantees_pure_except _
    refine guarantees_bind_except (guarantees_inspect (h.enginePushBatch _ _)) fun r => ?_
    cases r with
    | error e => exact guarantees_pure_except _
    | ok outs =>
      dsimp only
      split
      · exact guarantees_bind_except (guarantees_inspect (h.writeDb rfl rfl fun db => .clear _ db))
          fun _ => guarantees_pure_except _
      · exact guarantees_pure_except _

lemma PermitsDb.pushLocalChanges (h : PermitsDb d anyEffect G) : Promises G (pushLocalChanges X d).run :=
  guarantees_bind_except h.requireUnlocked fun _ =>
    guarantees_bind_except h.require fun _ =>
    guarantees_bind_except (h.flushPendingDeletes _) fun _ =>
    guarantees_bind_except (h.readDb rfl) fun _ => h.pushChunks _ _

lemma PermitsLists.resolveConflict (h : PermitsLists d anyEffect G) (uuid : Ident) (v : UInt64) (force : Bool) :
    Promises G (resolveConflict X d uuid v force).run := by
  refine guarantees_bind_except h.requireUnlocked fun _ =>
    guarantees_bind_except h.require fun user => ?_
  split
  · refine guarantees_bind_except (h.readDb rfl) fun rows => ?_
    split
    · exact guarantees_throw_except _
    · refine guarantees_bind_except (guarantees_orFail (h.pushBatch _ _)) fun outs => ?_
      split <;> first | exact guarantees_pure_except _ | exact guarantees_throw_except _
  · exact guarantees_bind_except (guarantees_orFail (h.fetchPayload _ _ _)) fun _ =>
      guarantees_bind_except h.readMemory fun _ => guarantees_bind_except h.readMemory
        fun _ => h.persistSyncedPage _ _ _

end Work

/-! ### Rotation -/

section Rotation

variable {R : Db Blob → Db Blob → Prop} {G : Ev World ClientEnv Name → Prop}

lemma promoted_refl (m : Memory) : Promoted m m := ⟨rfl, rfl, rfl, rfl, rfl, rfl⟩

lemma PermitsRotation.stay (h : PermitsRotation d R G) {l : Label} (hl : rotating l = true)
    (e : ClientEnv) (w : World) : G ⟨(d, l), e, w, w⟩ := by
  have := h.keys l e w (w.devices d).mem hl (promoted_refl _)
  rwa [World.setDevice_eq_self] at this

lemma PermitsRotation.promote (h : PermitsRotation d R G) {l : Label}
    {g : ClientEnv → Memory → Memory × α} (hl : rotating l = true)
    (hg : ∀ e m, Promoted m (g e m).1) : Promises G (onMemory d l g : ExceptT ε Code α).run :=
  guarantees_onMemory fun e w => h.keys l e w _ hl (hg e _)

lemma PermitsRotation.toItems (h : PermitsRotation d R G) : PermitsItems d R G :=
  { h.toPermitsDb with
    stay := fun _ e w hl => h.stay hl e w
    items := h.items }

lemma PermitsItems.onItems (h : PermitsItems d R G) {l : Label} {context : String}
    {g : LocalDb Blob → Option (LocalDb Blob × α)} (hl : rotating l = true)
    (hg : ∀ db db' a, g db = some (db', a) → DbStep l db db') :
    Promises G (onDb d l context g).run :=
  guarantees_onDb (fun e w => h.stay l e w hl) fun e w db a hf hga =>
    h.items l e w db hf hl (hg _ _ a hga)

lemma PermitsItems.reencryptRows (h : PermitsItems d R G) (oldSvk newSvk : Key)
    (gen : UInt64) (rows : List (OverviewRow × Blob)) :
    Promises G (reencryptRows d oldSvk newSvk gen rows).run := by
  induction rows with
  | nil => exact guarantees_pure_except _
  | cons row rest ih =>
    obtain ⟨o, payload⟩ := row
    unfold Orchestrator.reencryptRows
    split
    · exact guarantees_throw_except _
    · exact guarantees_bind_except (guarantees_writeDb (fun e w => h.stay _ e w rfl) fun e w hf =>
        h.items _ e w _ hf rfl (.reencrypt _ _ _ _)) fun _ =>
        guarantees_bind_except ih fun _ => guarantees_pure_except _

lemma PermitsItems.rotateBatches (h : PermitsItems d anyEffect G) (user : Ident)
    (oldSvk newSvk : Key) (gen : UInt64) (batches : List (List (OverviewRow × Blob))) :
    Promises G (rotateBatches X d user oldSvk newSvk gen batches).run := by
  induction batches with
  | nil => exact guarantees_pure_except _
  | cons rows rest ih =>
    exact guarantees_bind_except (h.reencryptRows _ _ _ _) fun _ =>
      guarantees_bind_except (guarantees_orFail (h.pushBatch _ _)) fun _ =>
      guarantees_bind_except (h.settleOutcomes _ _ _ _ _) fun _ => ih

lemma PermitsRotation.rotateItems (h : PermitsRotation d anyEffect G) (user : Ident)
    (mk oldSvk newSvk : Key) (gen : UInt64) :
    Promises G (rotateItems X d user mk oldSvk newSvk gen).run := by
  refine guarantees_bind_except (h.promote rfl fun _ _ => ⟨rfl, rfl, rfl, rfl, rfl, rfl⟩) fun _ =>
    guarantees_bind_except h.publish fun _ =>
    guarantees_bind_except (guarantees_readDb fun e w => h.stay rfl e w) fun _ =>
    guarantees_bind_except (h.toItems.rotateBatches _ _ _ _ _) fun _ =>
    guarantees_bind_except (h.toItems.onItems rfl fun db db' a hdb => ?_) fun _ =>
    guarantees_bind_except (h.promote rfl fun _ _ => ⟨rfl, rfl, rfl, rfl, rfl, rfl⟩) fun _ =>
    guarantees_bind_except (h.promote rfl fun _ _ => ⟨rfl, rfl, rfl, rfl, rfl, rfl⟩) fun _ =>
    guarantees_bind_except (h.promote rfl fun _ _ => ⟨rfl, rfl, rfl, rfl, rfl, rfl⟩) fun _ =>
    guarantees_bind_except (h.promote rfl fun _ _ => ⟨rfl, rfl, rfl, rfl, rfl, rfl⟩) fun _ => h.publish
  obtain ⟨db'', hblob, heq⟩ := Option.map_eq_some_iff.mp hdb
  obtain rfl : db'' = db' := congrArg Prod.fst heq
  exact .storeBlob _ db _ hblob

lemma PermitsRotation.rotateKey (h : PermitsRotation d anyEffect G) (newGen : UInt64) :
    Promises G (rotateKey X d newGen).run :=
  guarantees_bind_except h.requireUnlocked fun _ => guarantees_bind_except h.require fun _ =>
    guarantees_bind_except h.require fun _ => guarantees_bind_except h.require fun _ =>
    guarantees_bind_except h.require fun _ =>
    guarantees_bind_except (h.promote rfl fun _ m => promoted_refl m) fun _ =>
    guarantees_bind_except (guarantees_orFail (guarantees_bind_except
      (guarantees_roundTrip (guarantees_true _) (fun e w => h.same rfl e w)
        (fun l e w s _ => h.server l e w s trivial) fun _ e w => h.stay rfl e w)
      fun _ => guarantees_pure_except _)) fun _ => h.rotateItems _ _ _ _ _

end Rotation

/-! ### All commands -/

/-- **What a client does to its database**: every statement of every command is one of the
transactions, or leaves the database alone. -/
theorem effects_exec (X : Ext Blob) (d : ℕ) (q : Cmd) : Effects d (exec X d q).run := by
  cases q with
  | connectSync user =>
    exact guarantees_bind_except (guarantees_bind_except effects_onMemory fun _ => effects_onMemory)
      fun _ => guarantees_pure_except _
  | disconnectSync =>
    refine guarantees_bind_except ?_ fun _ => guarantees_pure_except _
    unfold disconnectSync
    exact effects_onMemory
  | unlockWithPassword mk wrapped user gen =>
    exact guarantees_bind_except (effects_unlockWithPassword _ _ _ _) fun _ =>
      guarantees_pure_except _
  | unlockWithRawKey key gen =>
    exact guarantees_bind_except (guarantees_bind_except effects_onMemory fun _ =>
      guarantees_bind_except effects_onMemory fun _ => guarantees_bind_except effects_onMemory
        fun _ => effects_openVault gen) fun _ => guarantees_pure_except _
  | lock =>
    exact guarantees_bind_except (guarantees_bind_except effects_onMemory fun _ =>
      guarantees_bind_except effects_onMemory fun _ => guarantees_bind_except effects_onMemory
        fun _ => guarantees_bind_except effects_onMemory fun _ => effects_onMemory) fun _ =>
      guarantees_pure_except _
  | restart =>
    refine guarantees_bind_except ?_ fun _ => guarantees_pure_except _
    unfold restart
    exact effects_onMemory
  | markIgnored uuid v toxic =>
    exact guarantees_bind_except (guarantees_bind_except effects_onMemory fun _ => effects_onMemory)
      fun _ => guarantees_pure_except _
  | saveItem item payload =>
    exact guarantees_bind_except (permitsSync_effect.saveItem _ _) fun _ => guarantees_pure_except _
  | deleteItem uuid =>
    exact guarantees_bind_except (permitsSync_effect.deleteItem _) fun _ => guarantees_pure_except _
  | sync => exact guarantees_bind_except permitsSync_effect.sync fun _ => guarantees_pure_except _
  | pushLocalChanges =>
    exact guarantees_bind_except permitsSync_effect.pushLocalChanges fun _ => guarantees_pure_except _
  | resolveConflict uuid v force =>
    exact guarantees_bind_except (permitsSync_effect.resolveConflict _ _ _) fun _ => guarantees_pure_except _
  | rotateKey gen =>
    exact guarantees_bind_except (permitsRotation_effect.rotateKey _) fun _ =>
      guarantees_pure_except _

/-! ### Commands that store nothing -/

/-- What the device `d` and the server store is the same. -/
def Same (d : ℕ) (w w' : World) : Prop :=
  (w'.devices d).db = (w.devices d).db ∧ w'.server = w.server

/-- `K` holds of what the device `d` and the server store. -/
def Holds (d : ℕ) (K : LocalDb Blob → Db Blob → Prop) (w : World) : Prop :=
  K (w.devices d).db w.server

@[simp] lemma holds_setDevice {K : LocalDb Blob → Db Blob → Prop} {w : World} (c : Device) :
    Holds d K (w.setDevice d c) ↔ K c.db w.server := by
  simp [Holds]

lemma Same.holds {K : LocalDb Blob → Db Blob → Prop} {w w' : World} (h : Same d w w')
    (hw : Holds d K w) : Holds d K w' := by
  rw [Holds, h.1, h.2]
  exact hw

/-- The statement stores nothing. -/
def Stays (d : ℕ) (ev : Ev World ClientEnv Name) : Prop := Same d ev.pre ev.post

lemma stays_onMemory {l : Label} {f : ClientEnv → Memory → Memory × α} :
    Guarantees (fun _ _ _ => True) (Stays d) (onMemory d l f : ExceptT ε Code α).run :=
  guarantees_onMemory fun e w => by simp [Stays, Same]

lemma stays_readDb {l : Label} {context : String} {f : LocalDb Blob → α} :
    Guarantees (fun _ _ _ => True) (Stays d) (readDb d l context f).run :=
  guarantees_readDb fun _ _ => ⟨rfl, rfl⟩

lemma safe_stays {p : Code α} {K : LocalDb Blob → Db Blob → Prop} {w : World}
    (hp : Guarantees (fun _ _ _ => True) (Stays d) p) (h : Holds d K w) :
    Safe (Holds d K) p (fun _ w => Holds d K w) w :=
  safe_of_guarantees hp (fun _ hpre hev => Same.holds hev hpre) (fun _ h => h) h

/-- A step on the memory, and what comes after it. -/
lemma safe_memory_bind {β : Type} {l : Label} {m : ClientEnv → Memory → Memory × α}
    {f : α → ExceptT ε Code β} {K : LocalDb Blob → Db Blob → Prop} {P : Except ε β → World → Prop}
    {w : World} (h : Holds d K w) (hf : ∀ a w', Same d w w' → Safe (Holds d K) (f a).run P w') :
    Safe (Holds d K) (onMemory d l m >>= f).run P w := by
  rw [safe_bind_except]
  exact safe_onMemory fun e => ⟨(holds_setDevice _).mpr h, hf _ _ (by simp [Same])⟩

/-- The commands that do not touch what is stored. -/
def lifecycle : Cmd → Bool
  | .connectSync _ => true
  | .disconnectSync => true
  | .unlockWithPassword _ _ _ _ => true
  | .unlockWithRawKey _ _ => true
  | .lock => true
  | .restart => true
  | .markIgnored _ _ _ => true
  | _ => false

lemma stays_openVault (localGen : UInt64) :
    Guarantees (fun _ _ _ => True) (Stays d) (openVault d localGen).run := by
  refine guarantees_bind_except (guarantees_bind_except (guarantees_inspect stays_readDb)
    fun r => ?_) fun _ => guarantees_bind_except stays_onMemory fun _ =>
    guarantees_bind_except stays_onMemory fun _ => guarantees_bind_except
      (guarantees_bind_except (guarantees_inspect stays_readDb) fun r => ?_) fun _ => stays_onMemory
  · cases r <;> exact stays_onMemory
  · cases r with
    | ok t => exact stays_onMemory
    | error e => exact guarantees_pure_except _

lemma stays_exec {q : Cmd} (hq : lifecycle q) :
    Guarantees (fun _ _ _ => True) (Stays d) (exec X d q).run := by
  cases q with
  | connectSync user =>
    exact guarantees_bind_except (guarantees_bind_except stays_onMemory fun _ => stays_onMemory)
      fun _ => guarantees_pure_except _
  | disconnectSync =>
    refine guarantees_bind_except ?_ fun _ => guarantees_pure_except _
    unfold disconnectSync
    exact stays_onMemory
  | unlockWithPassword mk wrapped user gen =>
    refine guarantees_bind_except ?_ fun _ => guarantees_pure_except _
    unfold unlockWithPassword
    split
    · exact guarantees_throw_except _
    · exact guarantees_throw_except _
    · exact guarantees_bind_except stays_onMemory fun _ => guarantees_bind_except stays_onMemory
        fun _ => guarantees_bind_except stays_onMemory fun _ =>
        guarantees_bind_except stays_onMemory fun _ => stays_openVault gen
  | unlockWithRawKey key gen =>
    exact guarantees_bind_except (guarantees_bind_except stays_onMemory fun _ =>
      guarantees_bind_except stays_onMemory fun _ => guarantees_bind_except stays_onMemory
        fun _ => stays_openVault gen) fun _ => guarantees_pure_except _
  | lock =>
    exact guarantees_bind_except (guarantees_bind_except stays_onMemory fun _ =>
      guarantees_bind_except stays_onMemory fun _ => guarantees_bind_except stays_onMemory fun _ =>
      guarantees_bind_except stays_onMemory fun _ => stays_onMemory) fun _ => guarantees_pure_except _
  | restart =>
    refine guarantees_bind_except ?_ fun _ => guarantees_pure_except _
    unfold restart
    exact stays_onMemory
  | markIgnored uuid v toxic =>
    exact guarantees_bind_except (guarantees_bind_except stays_onMemory fun _ => stays_onMemory)
      fun _ => guarantees_pure_except _
  | _ => cases hq

end Vautr.Effects
