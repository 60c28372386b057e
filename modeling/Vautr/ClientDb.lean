import Mathlib.Data.List.Sort
import Vautr.Handlers

/-!
The client's local database (`vautr-db`): the tables, the transactions on them (`txn.rs`) and
the queries (`query.rs`).

A transaction is atomic, so it is one function on the tables; one that can fail on the
tables themselves returns `none`, and is then rolled back. The client stores the texts of
values of type `Uuid` only, so the code that skips a text that does not parse has nothing
to skip. Blobs stay a parameter `B`. The full text index is left out.
-/

namespace Vautr.ClientDb

open Vautr.Sql Vautr.Server Vautr.Handlers

/-! ### The tables -/

/-- `item_overviews`. -/
structure OverviewRow where
  uuid : Ident
  version : ℤ
  encKeyGen : ℤ
  deletedDate : Option ℤ
  title : String
  subtitle : String
  iconKey : String
  urls : String
  createdAt : ℤ
  updatedAt : ℤ
  deriving DecidableEq

/-- `item_payloads`. -/
structure PayloadRow (B : Type) where
  uuid : Ident
  payload : B
  deriving DecidableEq

/-- `sync_meta`; the row 1 is the client's. -/
structure SyncMetaRow (B : Type) where
  id : ℕ
  syncCursor : ℤ
  minEncKeyGen : ℤ
  svkCiphertextBlob : B
  deriving DecidableEq

/-- `DashMapEntryState`, and the column `state` of `local_blacklist`. -/
inductive IgnoreState
  | toxicIgnored
  | validIgnored
  deriving DecidableEq

/-- `local_blacklist`. -/
structure BlacklistRow where
  uuid : Ident
  ignoredVersion : ℤ
  state : IgnoreState
  deriving DecidableEq

/-- `quarantine`. -/
structure QuarantineRow where
  uuid : Ident
  targetVersion : ℤ
  quarantineUntil : ℤ
  retries : ℤ
  deriving DecidableEq

/-- `pending_deletes`. -/
structure PendingDelete where
  uuid : Ident
  version : ℤ
  encKeyGen : ℤ
  deriving DecidableEq

structure LocalDb (B : Type) where
  overviews : Table OverviewRow.uuid
  payloads : Table (PayloadRow.uuid : PayloadRow B → Ident)
  syncMeta : Table (SyncMetaRow.id : SyncMetaRow B → ℕ)
  localBlacklist : Table BlacklistRow.uuid
  quarantine : Table QuarantineRow.uuid
  pendingDeletes : Table PendingDelete.uuid

variable {B : Type}

/-! ### Transactions (`txn.rs`) -/

/-- The `ON CONFLICT` of the upserts of a payload. -/
def setPayload (p : B) (r : PayloadRow B) : PayloadRow B := { r with payload := p }

lemma setPayload_uuid (p : B) (r : PayloadRow B) : (setPayload p r).uuid = r.uuid := rfl

def upsertPayload (t : Table (PayloadRow.uuid : PayloadRow B → Ident)) (p : PayloadRow B) :
    Table (PayloadRow.uuid : PayloadRow B → Ident) :=
  t.upsert p (setPayload p.payload) (setPayload_uuid _)

/-- The `ON CONFLICT` of `save_item_txn`: everything but `created_at`. -/
def OverviewRow.saved (o r : OverviewRow) : OverviewRow :=
  { o with uuid := r.uuid, createdAt := r.createdAt }

lemma OverviewRow.saved_uuid (o r : OverviewRow) : (o.saved r).uuid = r.uuid := rfl

def saveItemTxn (o : OverviewRow) (payload : B) (db : LocalDb B) : LocalDb B :=
  { db with
    overviews := db.overviews.upsert o o.saved o.saved_uuid
    payloads := upsertPayload db.payloads ⟨o.uuid, payload⟩
    localBlacklist := db.localBlacklist.delete (·.uuid = o.uuid)
    quarantine := db.quarantine.delete (·.uuid = o.uuid) }

/-- The `ON CONFLICT` of `apply_sync_batch_txn`: the plaintext columns stay. -/
def OverviewRow.synced (o r : OverviewRow) : OverviewRow :=
  { r with
    version := o.version
    encKeyGen := o.encKeyGen
    deletedDate := o.deletedDate
    updatedAt := o.updatedAt }

lemma OverviewRow.synced_uuid (o r : OverviewRow) : (o.synced r).uuid = r.uuid := rfl

def SyncMetaRow.setCursor (cursor minGen : ℤ) (r : SyncMetaRow B) : SyncMetaRow B :=
  { r with syncCursor := cursor, minEncKeyGen := minGen }

lemma SyncMetaRow.setCursor_id (cursor minGen : ℤ) (r : SyncMetaRow B) :
    (r.setCursor cursor minGen).id = r.id := rfl

/-- `apply_sync_batch_txn`; fails if the row of `sync_meta` is missing. -/
def applySyncBatchTxn (overviews : List OverviewRow) (payloads : List (PayloadRow B))
    (deletes : List Ident) (cursor minGen : ℤ) (db : LocalDb B) : Option (LocalDb B) :=
  if (db.syncMeta.get 1).isSome then
    some { db with
      overviews := overviews.foldl (fun t o => t.upsert o o.synced o.synced_uuid)
        (db.overviews.delete (·.uuid ∈ deletes))
      payloads := payloads.foldl upsertPayload (db.payloads.delete (·.uuid ∈ deletes))
      localBlacklist := db.localBlacklist.delete (·.uuid ∈ deletes)
      quarantine := db.quarantine.delete (·.uuid ∈ deletes)
      syncMeta := db.syncMeta.update (·.id = 1) (·.setCursor cursor minGen)
        (SyncMetaRow.setCursor_id _ _) }
  else none

/-- `persist_dashmap_txn`: the entries replace the table. -/
def persistDashmapTxn (entries : Table BlacklistRow.uuid) (db : LocalDb B) : LocalDb B :=
  { db with localBlacklist := entries }

def SyncMetaRow.setBlob (blob : B) (r : SyncMetaRow B) : SyncMetaRow B :=
  { r with svkCiphertextBlob := blob }

lemma SyncMetaRow.setBlob_id (blob : B) (r : SyncMetaRow B) : (r.setBlob blob).id = r.id := rfl

/-- `store_svk_blob`; fails if the row of `sync_meta` is missing. -/
def storeSvkBlob (blob : B) (db : LocalDb B) : Option (LocalDb B) :=
  if (db.syncMeta.get 1).isSome then
    some { db with
      syncMeta := db.syncMeta.update (·.id = 1) (·.setBlob blob) (SyncMetaRow.setBlob_id _) }
  else none

def OverviewRow.setGen (gen : ℤ) (r : OverviewRow) : OverviewRow := { r with encKeyGen := gen }

lemma OverviewRow.setGen_uuid (gen : ℤ) (r : OverviewRow) : (r.setGen gen).uuid = r.uuid := rfl

/-- `reencrypt_item_txn`: only the payload and the generation. -/
def reencryptItemTxn (uuid : Ident) (payload : B) (gen : ℤ) (db : LocalDb B) : LocalDb B :=
  { db with
    payloads := db.payloads.update (·.uuid = uuid) (setPayload payload) (setPayload_uuid _)
    overviews := db.overviews.update (·.uuid = uuid) (·.setGen gen) (OverviewRow.setGen_uuid _) }

/-- The `ON CONFLICT` of `record_pending_delete_txn`. -/
def PendingDelete.recorded (p r : PendingDelete) : PendingDelete := { p with uuid := r.uuid }

lemma PendingDelete.recorded_uuid (p r : PendingDelete) : (p.recorded r).uuid = r.uuid := rfl

def recordPendingDeleteTxn (p : PendingDelete) (db : LocalDb B) : LocalDb B :=
  { db with pendingDeletes := db.pendingDeletes.upsert p p.recorded p.recorded_uuid }

/-- The transaction of `commit_delete`: the tombstone is recorded if there is a row. -/
def deleteItemTxn (uuid : Ident) (db : LocalDb B) : LocalDb B :=
  let db :=
    match db.overviews.get uuid with
    | some o => recordPendingDeleteTxn ⟨uuid, o.version, o.encKeyGen⟩ db
    | none => db
  { db with
    overviews := db.overviews.delete (·.uuid = uuid)
    payloads := db.payloads.delete (·.uuid = uuid) }

def clearPendingDeletes (uuids : List Ident) (db : LocalDb B) : LocalDb B :=
  { db with pendingDeletes := db.pendingDeletes.delete (·.uuid ∈ uuids) }

/-! ### Queries (`query.rs`) -/

/-- `item_overviews o INNER JOIN item_payloads p ON p.uuid = o.uuid`. -/
def joined (db : LocalDb B) : List (OverviewRow × B) :=
  db.overviews.rows.filterMap fun o => (db.payloads.get o.uuid).map fun p => (o, p.payload)

/-- `list_rotation_items`: the live items below `maxGen`, in the order of their
generation. -/
def listRotationItems (maxGen : ℤ) (db : LocalDb B) : List (OverviewRow × B) :=
  ((joined db).filter fun (o, _) => o.deletedDate.isNone && o.encKeyGen < maxGen).insertionSort
    fun a b => a.1.encKeyGen ≤ b.1.encKeyGen

def getSyncCursor (db : LocalDb B) : UInt64 :=
  asU64 (max (((db.syncMeta.get 1).map (·.syncCursor)).getD 0) 0)

/-- `(version, created_at)` as `commit_save` reads it. -/
def readVersion (uuid : Ident) (db : LocalDb B) : Option (ℤ × ℤ) :=
  (db.overviews.get uuid).map fun o => (o.version, o.createdAt)

lemma mem_joined {db : LocalDb B} {o : OverviewRow} {p : B} :
    (o, p) ∈ joined db ↔ o ∈ db.overviews.rows ∧ db.payloads.get o.uuid = some ⟨o.uuid, p⟩ := by
  simp only [joined, List.mem_filterMap, Option.map_eq_some_iff, Prod.mk.injEq]
  constructor
  · rintro ⟨o', ho', r, hr, rfl, rfl⟩
    refine ⟨ho', hr.trans ?_⟩
    rw [← Table.get_key hr]
  · rintro ⟨ho, hp⟩
    exact ⟨o, ho, _, hp, rfl, rfl⟩

lemma mem_listRotationItems {db : LocalDb B} {maxGen : ℤ} {o : OverviewRow} {p : B} :
    (o, p) ∈ listRotationItems maxGen db ↔
      (o, p) ∈ joined db ∧ o.deletedDate = none ∧ o.encKeyGen < maxGen := by
  simp [listRotationItems, List.mem_insertionSort]

/-! ### A page of a sync -/

section Page

variable {u : Ident}

lemma get_foldl_synced {os : List OverviewRow} {t : Table OverviewRow.uuid}
    (h : u ∉ os.map (·.uuid)) :
    (os.foldl (fun t o => t.upsert o o.synced o.synced_uuid) t).get u = t.get u := by
  induction os generalizing t with
  | nil => rfl
  | cons o os ih =>
    simp only [List.map_cons, List.mem_cons, not_or] at h
    rw [List.foldl_cons, ih h.2, Table.get_upsert, if_neg fun heq => h.1 heq.symm]

lemma get_foldl_upsertPayload {ps : List (PayloadRow B)}
    {t : Table (PayloadRow.uuid : PayloadRow B → Ident)} (h : u ∉ ps.map (·.uuid)) :
    (ps.foldl upsertPayload t).get u = t.get u := by
  induction ps generalizing t with
  | nil => rfl
  | cons p ps ih =>
    simp only [List.map_cons, List.mem_cons, not_or] at h
    rw [List.foldl_cons, ih h.2, upsertPayload, Table.get_upsert, if_neg fun heq => h.1 heq.symm]

/-- If all overviews of an item in the page have the same version, it is stored at that. -/
lemma version_foldl_synced {os : List OverviewRow} {t : Table OverviewRow.uuid} {v : ℤ}
    (hv : ∀ o ∈ os, o.uuid = u → o.version = v)
    (h : u ∈ os.map (·.uuid) ∨ ∃ o ∈ t.get u, o.version = v) :
    ∃ o ∈ (os.foldl (fun t o => t.upsert o o.synced o.synced_uuid) t).get u, o.version = v := by
  induction os generalizing t with
  | nil => exact h.resolve_left (by simp)
  | cons o os ih =>
    refine ih (fun o' ho' => hv o' (List.mem_cons_of_mem _ ho')) ?_
    by_cases heq : o.uuid = u
    · have hov := hv o List.mem_cons_self heq
      refine .inr ⟨((t.get u).map o.synced).getD o, ?_, ?_⟩
      · rw [Table.get_upsert, if_pos heq]
        rfl
      · cases t.get u <;> exact hov
    · rw [Table.get_upsert, if_neg heq]
      refine h.imp_left fun hmem => ?_
      exact (List.mem_cons.mp hmem).resolve_left fun hu => heq hu.symm

lemma isSome_foldl_upsertPayload {ps : List (PayloadRow B)}
    {t : Table (PayloadRow.uuid : PayloadRow B → Ident)}
    (h : u ∈ ps.map (·.uuid) ∨ (t.get u).isSome = true) :
    ((ps.foldl upsertPayload t).get u).isSome = true := by
  induction ps generalizing t with
  | nil => exact h.resolve_left (by simp)
  | cons p ps ih =>
    refine ih ?_
    by_cases heq : p.uuid = u
    · exact .inr (by rw [upsertPayload, Table.get_upsert, if_pos heq]; rfl)
    · rw [upsertPayload, Table.get_upsert, if_neg heq]
      refine h.imp_left fun hmem => ?_
      exact (List.mem_cons.mp hmem).resolve_left fun hu => heq hu.symm

lemma get_delete_mem {R : Type} {key : R → Ident} (t : Table key) (us : List Ident) :
    (t.delete fun r => decide (key r ∈ us)).get u = if u ∈ us then none else t.get u := by
  rw [Table.get_delete]
  cases ht : t.get u with
  | none => simp
  | some r =>
    have hkey : key r = u := Table.get_key ht
    by_cases hu : u ∈ us <;> simp [hkey, hu]

/-- What a page does to the items that it does not store: those it deletes are gone, and the
others stay. -/
lemma applySyncBatchTxn_get {os : List OverviewRow} {ps : List (PayloadRow B)}
    {deletes : List Ident} {cursor minGen : ℤ} {db db' : LocalDb B}
    (h : applySyncBatchTxn os ps deletes cursor minGen db = some db') (u : Ident) :
    (u ∉ os.map (·.uuid) →
      db'.overviews.get u = if u ∈ deletes then none else db.overviews.get u) ∧
    (u ∉ ps.map (·.uuid) →
      db'.payloads.get u = if u ∈ deletes then none else db.payloads.get u) ∧
    db'.localBlacklist.get u = if u ∈ deletes then none else db.localBlacklist.get u := by
  unfold applySyncBatchTxn at h
  split at h
  · rw [← Option.some.inj h]
    refine ⟨fun hu => ?_, fun hu => ?_, get_delete_mem _ _⟩
    · exact (get_foldl_synced hu).trans (get_delete_mem _ _)
    · exact (get_foldl_upsertPayload hu).trans (get_delete_mem _ _)
  · cases h

/-- What a page does to the items that it stores. -/
lemma applySyncBatchTxn_stores {os : List OverviewRow} {ps : List (PayloadRow B)}
    {deletes : List Ident} {cursor minGen v : ℤ} {db db' : LocalDb B}
    (h : applySyncBatchTxn os ps deletes cursor minGen db = some db')
    (hv : ∀ o ∈ os, o.uuid = u → o.version = v) (ho : u ∈ os.map (·.uuid))
    (hp : u ∈ ps.map (·.uuid)) :
    (∃ o ∈ db'.overviews.get u, o.version = v) ∧ (db'.payloads.get u).isSome = true := by
  unfold applySyncBatchTxn at h
  split at h
  · rw [← Option.some.inj h]
    exact ⟨version_foldl_synced hv (.inl ho), isSome_foldl_upsertPayload (.inl hp)⟩
  · cases h

/-- A page sets the cursor. -/
lemma applySyncBatchTxn_cursor {os : List OverviewRow} {ps : List (PayloadRow B)}
    {deletes : List Ident} {cursor minGen : ℤ} {db db' : LocalDb B}
    (h : applySyncBatchTxn os ps deletes cursor minGen db = some db') :
    ((db'.syncMeta.get 1).map (·.syncCursor)) = some cursor := by
  unfold applySyncBatchTxn at h
  split at h
  · next hmeta =>
    rw [← Option.some.inj h]
    obtain ⟨row, hrow⟩ := Option.isSome_iff_exists.mp hmeta
    have hid : row.id = 1 := Table.get_key hrow
    simp [Table.get_update, hrow, hid, SyncMetaRow.setCursor]
  · cases h

end Page

end Vautr.ClientDb
