import Vautr.Client

/-!
The operations of a client: locking, saving, deleting, syncing, pushing and rotating keys
(`orchestrator.rs`, `worker.rs`).
-/

namespace Vautr.Orchestrator

open Vautr.Atomic Vautr.Session Vautr.Sql Vautr.Server Vautr.Handlers Vautr.ClientDb Vautr.Crypto
  Vautr.Client

variable (X : Ext Blob) (d : ℕ)

/-- `ok_or_else(|| msg)?` of a value in memory. -/
def require {α : Type} (msg : String) (g : Memory → Option α) : Op α := do
  match ← readMemory d g with
  | some a => return a
  | none => throw (.text msg)

/-- `if self.is_locked() { return Err(..) }`. -/
def requireUnlocked : Op Unit := do
  if ← readMemory d (·.locked) then throw (.text "vault locked") else return ()

/-! ### Lifecycle -/

def connectSync (user : Ident) : Op Unit := do
  writeMemory d ({ · with transport := some user })
  writeMemory d ({ · with serverUserId := some user })

def disconnectSync : Op Unit := writeMemory d ({ · with transport := none })

def loadPersistedCursor : Op Unit := do
  match ← inspect (readDb d .getSyncCursor "get_sync_cursor" getSyncCursor) with
  | .ok c => writeMemory d ({ · with cursor := c })
  | .error _ => writeMemory d ({ · with cursor := 0 })

def loadBlacklist : Op Unit := do
  match ← inspect (readDb d .listBlacklist "list_blacklist" (·.localBlacklist)) with
  | .ok t => onMemory d .loadBlacklist fun _ m => ({ m with blacklist := t }, ())
  | .error _ => return ()

/-- What both ways to unlock end with. -/
def openVault (localGen : UInt64) : Op Unit := do
  loadPersistedCursor d
  writeMemory d ({ · with localGen })
  writeMemory d ({ · with minEncKeyGen := localGen })
  loadBlacklist d
  writeMemory d ({ · with locked := false })

/-- `unlock_with_password`, from the master key on that the password gives. The second
factor that may be asked for first is left out: it can only refuse the unlock. -/
def unlockWithPassword (mk : Key) (wrappedSvk : Blob) (serverUserId : Ident) (localGen : UInt64) :
    Op Unit := do
  match openSvk mk serverUserId wrappedSvk with
  | none => throw (.text "svk unwrap failed (wrong password?)")
  | some (.bytes _) => throw (.text "malformed svk blob")
  | some (.key svk) =>
    writeMemory d ({ · with svk := some svk })
    writeMemory d ({ · with dek := some (.dek svk) })
    writeMemory d ({ · with mk := some mk })
    writeMemory d ({ · with serverUserId := some serverUserId })
    openVault d localGen

def unlockWithRawKey (rawKey : Key) (localGen : UInt64) : Op Unit := do
  writeMemory d ({ · with svk := some rawKey })
  writeMemory d ({ · with dek := some (.dek rawKey) })
  writeMemory d ({ · with mk := none })
  openVault d localGen

def lock : Op Unit := do
  writeMemory d ({ · with svk := none })
  writeMemory d ({ · with dek := none })
  writeMemory d ({ · with mk := none })
  writeMemory d ({ · with locked := true })
  publish d [.vaultLocked]

/-- The process ends and is started again. -/
def restart : Op Unit := onMemory d .restart fun _ _ => (Memory.new, ())

def markIgnored (uuid : Ident) (ignoredVersion : ℤ) (toxic : Bool) : Op Unit := do
  let row : BlacklistRow :=
    ⟨uuid, ignoredVersion, if toxic then .toxicIgnored else .validIgnored⟩
  writeMemory d fun m => { m with
    blacklist := m.blacklist.upsert row (fun r => { row with uuid := r.uuid }) fun _ => rfl }
  writeMemory d ({ · with blacklistDirty := true })

/-! ### Saves and deletes (`worker.rs`) -/

/-- What `commit_save` stores of a `DomainModel`; `urls` is the JSON of the list of urls. -/
structure DomainModel where
  encKeyGen : UInt64
  uuid : Ident
  title : String
  subtitle : String
  iconKey : String
  urls : String
  createdAt : ℤ
  updatedAt : ℤ
  trashed : Bool

inductive TaskOutcome
  | committed (receipt : UInt64)
  | rejected (receipt : UInt64)
  deriving DecidableEq

/-- `verify_epoch`: the generation must not lag behind. -/
def verifyEpoch (localGen : UInt64) : Op Unit := do
  if localGen < (← readMemory d (·.minEncKeyGen)) then
    throw (.text "vault updated (KeyUpdateRequired): write rejected, reverting")
  else return ()

/-- The row that `commit_save` writes, with the version and the creation time of the row
that is there. -/
def DomainModel.row (item : DomainModel) (existing : Option (ℤ × ℤ)) : OverviewRow :=
  ⟨item.uuid, (existing.map (·.1)).getD 1, asI64 item.encKeyGen,
    if item.trashed then some item.updatedAt else none, item.title, item.subtitle, item.iconKey,
    item.urls, (existing.map (·.2)).getD item.createdAt, item.updatedAt⟩

def commitSave (item : DomainModel) (payload : Blob) : Op Unit := do
  verifyEpoch d item.encKeyGen
  let existing ← readDb d (.readVersion item.uuid) "read version" (readVersion item.uuid)
  writeDb d (.saveItem item.uuid) "save_item_txn" (saveItemTxn (item.row existing) payload)

def commitDelete (uuid : Ident) (localEncKeyGen : UInt64) : Op Unit := do
  verifyEpoch d localEncKeyGen
  writeDb d (.deleteItem uuid) "delete" (deleteItemTxn uuid)

def nextReceipt : Op UInt64 :=
  onMemory d .memory fun _ m => ({ m with receipts := m.receipts + 1 }, m.receipts)

/-- What `PersistenceWorker::save` and `delete` share: a receipt, the commit and what is
published of its result. -/
def commitTask (commit : Op Unit) (done : Update) : Op TaskOutcome := do
  let receipt ← nextReceipt d
  match ← inspect commit with
  | .ok () =>
    publish d [.mutationSucceeded receipt, done]
    return .committed receipt
  | .error _ =>
    publish d [.mutationFailed receipt]
    return .rejected receipt

def saveItem (item : DomainModel) (payload : Blob) : Op TaskOutcome := do
  if ← readMemory d (·.locked) then return .rejected 0
  else commitTask d (commitSave d item payload) (.overviewUpserted item.uuid)

def deleteItem (uuid : Ident) : Op TaskOutcome := do
  if ← readMemory d (·.locked) then return .rejected 0
  else
    let localGen ← readMemory d (·.localGen)
    commitTask d (commitDelete d uuid localGen) (.overviewDeleted uuid)

/-! ### Sync -/

/-- The overview that `persist_synced_page` stores of a pulled item. -/
def PulledOverview.row (ov : PulledOverview) : OverviewRow :=
  ⟨ov.uuid, asI64 ov.version, asI64 ov.encKeyGen,
    if ov.deleted then some (asI64 ov.version) else none, "", "", "", "[]", 0, 0⟩

def persistSyncedPage (upserts : List (PulledOverview × Blob)) (deletes : List Ident)
    (newCursor : UInt64) : Op Unit := do
  let minGen ← readMemory d (·.minEncKeyGen)
  onDb d (.persistPage (upserts.map (·.1.uuid))) "apply_sync_batch" fun db =>
    (applySyncBatchTxn (upserts.map fun u => PulledOverview.row u.1)
      (upserts.map fun u => ⟨u.1.uuid, u.2⟩) deletes (asI64 newCursor) (asI64 minGen) db).map (·, ())
  publish d (upserts.map (fun u => .overviewUpserted u.1.uuid) ++ deletes.map .overviewDeleted)

/-- What a page has come to: the items to store, those to delete, and whether something
failed. -/
structure Page where
  upserts : List (PulledOverview × Blob)
  deletes : List Ident
  failed : Bool

/-- The loop over the overviews of a page. -/
def fetchPage (user : Ident) : List PulledOverview → Page → Op Page
  | [], page => pure page
  | ov :: rest, page => do
    if ← readMemory d (·.isIgnored ov.uuid) then fetchPage user rest page
    else if ov.deleted then
      fetchPage user rest { page with deletes := page.deletes ++ [ov.uuid] }
    else
      match ← inspect (fetchPayloadIfAllowed d user ov.uuid ov.version) with
      | .ok (some payload) =>
        fetchPage user rest { page with upserts := page.upserts ++ [(ov, payload)] }
      | .ok none => fetchPage user rest page
      | .error _ =>
        warn d (.warnFetch ov)
        fetchPage user rest { page with failed := true }

/-- Store what a page has come to, if it is anything; whether something failed. -/
def applyPage (page : Page) (newCursor : UInt64) : Op Bool := do
  if page.upserts.isEmpty && page.deletes.isEmpty then return page.failed
  else
    match ← inspect (persistSyncedPage d page.upserts page.deletes newCursor) with
    | .ok () => return page.failed
    | .error _ =>
      warn d (.warnPersist (page.upserts.map (·.1)) page.deletes)
      return true

/-- The loop over the pages, at most so many; the cursor it ends with, and whether something
failed. -/
def syncPages (user : Ident) : ℕ → UInt64 → Bool → Op (UInt64 × Bool)
  | 0, _, _ => throw (.text "sync: exceeded 10000 pages (has_more loop?)")
  | pages + 1, cursor, failed => do
    let (next, overviews, hasMore) ← orFail "sync pull" (pull X d user cursor)
    let page ← fetchPage d user overviews ⟨[], [], failed⟩
    let failed ← applyPage d page next
    if hasMore then syncPages user pages next failed else return (next, failed)

def persistBlacklistIfDirty : Op Unit := do
  if ← readMemory d (·.blacklistDirty) then
    let snapshot ← readMemory d (·.blacklist)
    writeDb d .persistBlacklist "persist dashmap" (persistDashmapTxn snapshot)
    writeMemory d ({ · with blacklistDirty := false })
  else return ()

/-- The cursor is kept if nothing failed. -/
def advanceCursor (cursor : UInt64) (failed : Bool) : Op Unit :=
  if failed then return () else writeMemory d ({ · with cursor })

/-- The epoch gate is set to the generation of the server, if the server answers. -/
def updateEpochGate (user : Ident) (localGen : UInt64) : Op Unit := do
  match ← inspect (accountStatusGen d user) with
  | .ok minGen =>
    writeMemory d ({ · with minEncKeyGen := minGen })
    publish d (if localGen < minGen then [.keyUpdateRequired] else [])
  | .error _ => return ()

/-- `sync`. The guard `sync_inflight` lets one run at a time; nothing ever sets
`resync_requested`, so the outer loop runs once. -/
def sync : Op Unit := do
  let user ← require d "sync not connected" (·.transport)
  let start ← readMemory d (·.cursor)
  publish d [.syncStarted]
  let localGen ← readMemory d (·.localGen)
  let (cursor, failed) ← syncPages X d user 10000 start false
  advanceCursor d cursor failed
  updateEpochGate d user localGen
  persistBlacklistIfDirty d
  publish d [.syncCompleted]

/-! ### Push -/

def chunks {α : Type} (n : ℕ) (l : List α) : List (List α) :=
  (List.range ((l.length + n - 1) / n)).map fun i => (l.drop (i * n)).take n

lemma mem_flatten_chunks {α : Type} {n : ℕ} (hn : 0 < n) {l : List α} {a : α} :
    a ∈ (chunks n l).flatten ↔ a ∈ l := by
  simp only [chunks, List.mem_flatten, List.mem_map, List.mem_range]
  constructor
  · rintro ⟨_, ⟨i, -, rfl⟩, ha⟩
    exact List.mem_of_mem_drop (List.mem_of_mem_take ha)
  · intro ha
    obtain ⟨j, hj, rfl⟩ := List.mem_iff_getElem.mp ha
    have hdiv : j / n * n + j % n = j := Nat.div_add_mod' j n
    refine ⟨_, ⟨j / n, ?_, rfl⟩, List.mem_iff_getElem?.mpr ⟨j % n, ?_⟩⟩
    · rw [Nat.lt_div_iff_mul_lt hn]
      have := Nat.div_mul_le_self j n
      omega
    · rw [List.getElem?_take_of_lt (Nat.mod_lt j hn), List.getElem?_drop, hdiv,
        List.getElem?_eq_getElem hj]

lemma chunks_cons {α : Type} (n : ℕ) (a : α) (l : List α) :
    ∃ c cs, chunks (n + 1) (a :: l) = (a :: c) :: cs := by
  have hlen : ((a :: l).length + (n + 1) - 1) / (n + 1) = l.length / (n + 1) + 1 := by
    rw [show (a :: l).length + (n + 1) - 1 = l.length + (n + 1) by simp; omega,
      Nat.add_div_right _ (Nat.succ_pos n)]
  simp only [chunks, hlen, List.range_succ_eq_map, List.map_cons, Nat.zero_mul, List.drop_zero,
    List.take_succ_cons]
  exact ⟨_, _, rfl⟩

/-- The tombstones are pushed; they are cleared if all of them were applied. -/
def flushPendingDeletes (user : Ident) : Op Unit := do
  match ← inspect (readDb d .listPendingDeletes "list_pending_deletes" (·.pendingDeletes.rows)) with
  | .error _ => return ()
  | .ok pending =>
    if pending.isEmpty then return ()
    else
      let items := pending.map fun p => ⟨p.uuid, asU64 p.version, asU64 p.encKeyGen, none⟩
      match ← inspect (enginePushBatch X d user items) with
      | .error _ => return ()
      | .ok outcomes =>
        if outcomes.all (·.2 = .applied) then
          let _ ← inspect (writeDb d .clearPendingDeletes "clear_pending_deletes"
            (clearPendingDeletes (pending.map (·.uuid))))
          return ()
        else return ()

/-- The conflict that is published for an item of a pushed chunk. -/
def conflictOf (isToxic : Bool) (chunk : List (OverviewRow × Blob)) (uuid : Ident)
    (serverVersion : UInt64) : Update :=
  .conflictDetected ⟨uuid,
    ((chunk.find? (·.1.uuid = uuid)).map (asU64 ·.1.version)).getD serverVersion, serverVersion,
    isToxic⟩

def reportConflicts (chunk : List (OverviewRow × Blob)) : List (Ident × PushOutcome) → Op Unit
  | [] => pure ()
  | (uuid, .conflict serverVersion) :: rest => do
    let isToxic ← readMemory d (·.isToxic uuid)
    publish d [conflictOf isToxic chunk uuid serverVersion]
    reportConflicts chunk rest
  | _ :: rest => reportConflicts chunk rest

/-- The item of a row as it is pushed. -/
def toPushed (r : OverviewRow × Blob) : Pushed :=
  ⟨r.1.uuid, asU64 r.1.version, asU64 r.1.encKeyGen, some r.2⟩

def pushChunks (user : Ident) : List (List (OverviewRow × Blob)) → Op Unit
  | [] => pure ()
  | chunk :: rest => do
    let outcomes ← orFail "push batch" (enginePushBatch X d user (chunk.map toPushed))
    reportConflicts d chunk outcomes
    pushChunks user rest

def pushLocalChanges : Op Unit := do
  requireUnlocked d
  let user ← require d "sync not connected" (·.transport)
  flushPendingDeletes X d user
  let rows ← readDb d .listLocalItems "list local items" joined
  pushChunks X d user (chunks 100 rows)

def resolveConflict (uuid : Ident) (serverVersion : UInt64) (forceOverwrite : Bool) : Op Unit := do
  requireUnlocked d
  let user ← require d "sync not connected" (·.transport)
  if forceOverwrite then
    let rows ← readDb d .listLocalItems "list local items" joined
    match rows.find? (·.1.uuid = uuid) with
    | none => throw (.text ("no local item " ++ toString uuid))
    | some r =>
      let outcomes ← orFail "push conflict resolution" (pushBatch X d user
        [⟨uuid, serverVersion, asU64 r.1.encKeyGen, some r.2⟩])
      match outcomes.head? with
      | some .applied => return ()
      | some (.conflict v) =>
        throw (.text ("conflict resolution failed: server is at version " ++ toString v))
      | some .epochTooOld =>
        throw (.text "conflict resolution failed: local enc_key_gen is behind the server")
      | none => throw (.text "conflict resolution failed: no outcome returned")
  else
    let payload ← orFail "conflict fetch" (fetchPayload d user uuid serverVersion)
    let localGen ← readMemory d (·.localGen)
    let cursor ← readMemory d (·.cursor)
    persistSyncedPage d [(⟨uuid, serverVersion, localGen, false⟩, payload)] [] cursor

/-! ### Rotation -/

/-- Re-encrypt the rows of a batch, one transaction each, for the push. -/
def reencryptRows (oldSvk newSvk : Key) (gen : UInt64) :
    List (OverviewRow × Blob) → Op (List Pushed)
  | [] => pure []
  | (o, payload) :: rest => do
    match decrypt (.dek oldSvk) o.uuid (asU64 o.encKeyGen) payload with
    | none => throw (.text "re-encrypt decrypt failed")
    | some pt =>
      let new := encrypt (.dek newSvk) o.uuid gen pt
      writeDb d (.reencryptItem o.uuid) "persist re-encrypt" (reencryptItemTxn o.uuid new (asI64 gen))
      return ⟨o.uuid, asU64 o.version, gen, some new⟩ :: (← reencryptRows oldSvk newSvk gen rest)

/-- What a rotation does with the outcome of one item: on a conflict the server's payload is
re-encrypted and pushed at the server's version. -/
def settleOutcome (user : Ident) (oldSvk newSvk : Key) (gen : UInt64) (o : OverviewRow) :
    PushOutcome → Op Unit
  | .applied => pure ()
  | .epochTooOld => throw (.text ("rotate_key: server rejected epoch for item " ++ toString o.uuid))
  | .conflict serverVersion => do
    let payload ← orFail "rotate_key conflict fetch" (fetchPayload d user o.uuid serverVersion)
    match decrypt (.dek oldSvk) o.uuid (asU64 o.encKeyGen) payload with
    | none => throw (.text "rotate_key: cannot decrypt the server's current payload")
    | some pt =>
      let retry ← orFail "rotate_key conflict push" (pushBatch X d user
        [⟨o.uuid, serverVersion, gen, some (encrypt (.dek newSvk) o.uuid gen pt)⟩])
      if retry.head? = some .applied then return ()
      else throw (.text ("rotate_key: conflict re-push failed for item " ++ toString o.uuid))

/-- The loop over the outcomes of a batch. -/
def settleOutcomes (user : Ident) (oldSvk newSvk : Key) (gen : UInt64) :
    List (PushOutcome × OverviewRow × Blob) → Op Unit
  | [] => pure ()
  | (outcome, o, _) :: rest => do
    settleOutcome X d user oldSvk newSvk gen o outcome
    settleOutcomes user oldSvk newSvk gen rest

/-- The loop over the batches. -/
def rotateBatches (user : Ident) (oldSvk newSvk : Key) (gen : UInt64) :
    List (List (OverviewRow × Blob)) → Op Unit
  | [] => pure ()
  | rows :: rest => do
    let items ← reencryptRows d oldSvk newSvk gen rows
    let outcomes ← orFail "push_batch" (pushBatch X d user items)
    settleOutcomes X d user oldSvk newSvk gen (outcomes.zip rows)
    rotateBatches user oldSvk newSvk gen rest

/-- What a rotation does once the server has confirmed the generation. -/
def rotateItems (user : Ident) (mk oldSvk newSvk : Key) (gen : UInt64) : Op Unit := do
  writeMemory d ({ · with minEncKeyGen := gen })
  publish d [.keyUpdateRequired]
  let rows ← readDb d .listRotationItems "list rotation items" (listRotationItems (asI64 gen))
  rotateBatches X d user oldSvk newSvk gen (chunks 100 rows)
  onDb d .storeSvkBlob "store svk" fun db => (storeSvkBlob (wrapSvk mk newSvk) db).map (·, ())
  writeMemory d ({ · with localGen := gen })
  writeMemory d ({ · with minEncKeyGen := gen })
  writeMemory d ({ · with svk := some newSvk })
  writeMemory d ({ · with dek := some (.dek newSvk) })
  publish d [.syncCompleted]

/-- What a rotation says without a master key. -/
def noMasterKey : String :=
  "key rotation requires a master-password unlock " ++
    "(raw-key sessions must re-unlock with the MP first)"

def rotateKey (newGen : UInt64) : Op Unit := do
  requireUnlocked d
  let user ← require d "sync not connected" (·.transport)
  let _ ← require d "no server user id" (·.serverUserId)
  let mk ← require d noMasterKey (·.mk)
  let oldSvk ← require d "vault locked" (·.svk)
  let newSvk ← onMemory d .newKey fun e m => (m, e.key)
  let gen ← orFail "rotate_key" (rotateKeyRequest X d user newGen (wrapSvk mk newSvk))
  rotateItems X d user mk oldSvk newSvk gen

/-! ### A client -/

inductive Cmd
  | connectSync (user : Ident)
  | disconnectSync
  | unlockWithPassword (mk : Key) (wrappedSvk : Blob) (serverUserId : Ident) (localGen : UInt64)
  | unlockWithRawKey (rawKey : Key) (localGen : UInt64)
  | lock
  | restart
  | markIgnored (uuid : Ident) (ignoredVersion : ℤ) (toxic : Bool)
  | saveItem (item : DomainModel) (payload : Blob)
  | deleteItem (uuid : Ident)
  | sync
  | pushLocalChanges
  | resolveConflict (uuid : Ident) (serverVersion : UInt64) (forceOverwrite : Bool)
  | rotateKey (newGen : UInt64)

inductive CmdReply
  | done
  | task (outcome : TaskOutcome)
  deriving DecidableEq

/-- The code of a command of the device `d`. -/
def exec : Cmd → Op CmdReply
  | .connectSync user => do connectSync d user; return .done
  | .disconnectSync => do disconnectSync d; return .done
  | .unlockWithPassword mk wrapped user gen => do
    unlockWithPassword d mk wrapped user gen; return .done
  | .unlockWithRawKey key gen => do unlockWithRawKey d key gen; return .done
  | .lock => do lock d; return .done
  | .restart => do restart d; return .done
  | .markIgnored uuid v toxic => do markIgnored d uuid v toxic; return .done
  | .saveItem item payload => return .task (← saveItem d item payload)
  | .deleteItem uuid => return .task (← deleteItem d uuid)
  | .sync => do sync X d; return .done
  | .pushLocalChanges => do pushLocalChanges X d; return .done
  | .resolveConflict uuid v force => do resolveConflict X d uuid v force; return .done
  | .rotateKey gen => do rotateKey X d gen; return .done

/-! ### One device -/

/-- A device that does one thing after the other. -/
abbrev ClientSess := Session.Sess Cmd World ClientEnv Name (Except ClientError CmdReply)

/-- What happens to it, where others can do what is in `Y`. -/
abbrev SessAct (Y : Type) := Session.Act Cmd ClientEnv Y

def code (q : Cmd) : Code (Except ClientError CmdReply) := (exec X d q).run

def nobody : Empty → World → World := fun x => x.elim

section Sequential

variable {d}

lemma safe_require {α : Type} {msg : String} {m : Memory → Option α} {I : World → Prop} {w : World}
    {P : Except ClientError α → World → Prop} (hI : I w) (herr : ∀ e, P (.error e) w)
    (hok : ∀ a, m (w.devices d).mem = some a → P (.ok a) w) :
    Session.Safe I (require d msg m).run P w := by
  unfold require
  rw [Session.safe_bind_except]
  refine safe_readMemory hI ?_
  cases hm : m (w.devices d).mem with
  | none => exact herr _
  | some a => exact hok a hm

lemma alone_require {α : Type} {msg : String} {m : Memory → Option α} {a : α} {w : World}
    (e : ClientEnv) (h : m (w.devices d).mem = some a) :
    alone e (require d msg m).run w = (.ok a, w) := by
  unfold require
  rw [alone_bind_ok (alone_readMemory e m w), h]
  rfl

lemma alone_requireUnlocked {w : World} (e : ClientEnv) (h : (w.devices d).mem.locked = false) :
    alone e (requireUnlocked d).run w = (.ok (), w) := by
  unfold requireUnlocked
  rw [alone_bind_ok (alone_readMemory e _ w), h]
  rfl

end Sequential

end Vautr.Orchestrator
