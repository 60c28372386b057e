import Vautr.Handlers
import Vautr.Interleave

/-!
The gateway for attachments (`handlers/files.rs`, `repository/files.rs`): manifests, the state of
their chunks, and the encrypted chunks themselves.

An initiation writes the manifest and then resets the state of the chunks in statements of their
own; a chunk is stored in one statement and marked in another. No statement deletes a manifest: none
of the repository does, and the deletion of a user, which would, is refused by SQLite (foreign key
mismatch: `project_items` refers to `items` by a column that is no key).
-/

namespace Vautr.Files

open Vautr.Atomic Vautr.Sql Vautr.Database Vautr.Api Vautr.Server Vautr.Handlers

/-- The column `status` of `file_manifests`. -/
inductive FileStatus
  | pendingUpload
  | available
  deriving DecidableEq

/-- Row mirror of `file_manifests`. -/
structure FileManifestRow where
  fileUuid : Ident
  ownerUserId : Ident
  totalSize : ℤ
  chunkSize : ℤ
  totalChunks : ℤ
  encKeyGen : ℤ
  contentType : String
  status : FileStatus
  lastModified : ℤ
  createdAt : ℤ
  deriving DecidableEq

/-- The column `status` of `file_chunks`. -/
inductive ChunkStatus
  | pending
  | uploaded
  deriving DecidableEq

/-- Row mirror of `file_chunks`. -/
structure FileChunkRow where
  fileUuid : Ident
  chunkIndex : ℤ
  status : ChunkStatus
  deriving DecidableEq

/-- Row mirror of `chunks`. -/
structure ChunkRow (B : Type) where
  fileUuid : Ident
  idx : ℤ
  bytes : B

def FileChunkRow.key (r : FileChunkRow) : Ident × ℤ := (r.fileUuid, r.chunkIndex)

def ChunkRow.key {B : Type} (r : ChunkRow B) : Ident × ℤ := (r.fileUuid, r.idx)

structure FilesDb (B : Type) where
  manifests : Table FileManifestRow.fileUuid
  fileChunks : Table FileChunkRow.key
  chunks : Table (ChunkRow.key : ChunkRow B → Ident × ℤ)

/-- The statements, by the repository function that runs them. -/
inductive FileStmt (B : Type)
  | sumFileBytes (user : Ident)
  | getFileManifest (uuid user : Ident)
  | clock
  | insertManifest (row : FileManifestRow)
  | selectOwner (uuid : Ident)
  | updateManifest (row : FileManifestRow)
  | deleteFileChunks (uuid : Ident)
  | insertFileChunk (uuid : Ident) (i : ℤ)
  | newUuid
  | putChunk (uuid : Ident) (idx : ℤ) (bytes : B)
  | setChunkUploaded (uuid : Ident) (idx : ℤ) (user : Ident)
  | chunkStatuses (uuid user : Ident)
  | countChunksUploaded (uuid user : Ident)
  | setFileStatus (uuid user : Ident) (old new : FileStatus)
  | getChunk (uuid : Ident) (idx : ℤ)

variable {B : Type}

abbrev FileEv (B : Type) := Ev (FilesDb B) Env (FileStmt B)

abbrev FileRepo (B : Type) := Query (FilesDb B) Env (FileStmt B)

abbrev FileHandler (B : Type) := Handler (FilesDb B) Env (FileStmt B)

/-! ### `repository/files.rs` -/

def getFileManifest (uuid user : Ident) : FileRepo B (Option FileManifestRow) :=
  select (.getFileManifest uuid user) fun db =>
    (db.manifests.get uuid).filter (·.ownerUserId = user)

/-- The declared sizes of the files of a user. -/
def declared (db : FilesDb B) (user : Ident) : ℤ :=
  ((db.manifests.rows.filter (·.ownerUserId = user)).map (·.totalSize)).sum

def sumFileBytesOwnedBy (user : Ident) : FileRepo B ℤ :=
  select (.sumFileBytes user) (declared · user)

/-- `INSERT INTO file_manifests ... ON CONFLICT(file_uuid) DO NOTHING`; returns
`rows_affected`. -/
def insertManifest (row : FileManifestRow) : FileRepo B ℕ :=
  statement (.insertManifest row) fun _ db =>
    match db.manifests.insert row with
    | some manifests => ({ db with manifests }, .ok 1)
    | none => (db, .ok 0)

/-- `SELECT owner_user_id FROM file_manifests WHERE file_uuid = ?`. -/
def selectOwner (uuid : Ident) : FileRepo B (Option Ident) :=
  select (.selectOwner uuid) fun db => (db.manifests.get uuid).map (·.ownerUserId)

/-- What the `UPDATE` of `upsert_file_manifest` sets. -/
def FileManifestRow.reset (row r : FileManifestRow) : FileManifestRow :=
  { row with ownerUserId := r.ownerUserId, fileUuid := r.fileUuid, status := .pendingUpload,
             createdAt := r.createdAt }

/-- `WHERE file_uuid = ? AND owner_user_id = ?`. -/
def FileManifestRow.hits (row r : FileManifestRow) : Bool :=
  r.fileUuid = row.fileUuid && r.ownerUserId = row.ownerUserId

def FilesDb.resetManifest (db : FilesDb B) (row : FileManifestRow) : FilesDb B :=
  { db with manifests := db.manifests.update row.hits row.reset fun _ => rfl }

/-- `UPDATE file_manifests SET ... WHERE file_uuid = ? AND owner_user_id = ?`. -/
def updateManifest (row : FileManifestRow) : FileRepo B Unit :=
  statement (.updateManifest row) fun _ db => (db.resetManifest row, .ok ())

def FilesDb.dropFileChunks (db : FilesDb B) (uuid : Ident) : FilesDb B :=
  { db with fileChunks := db.fileChunks.delete (·.fileUuid = uuid) }

/-- `DELETE FROM file_chunks WHERE file_uuid = ?`. -/
def deleteFileChunks (uuid : Ident) : FileRepo B Unit :=
  statement (.deleteFileChunks uuid) fun _ db => (db.dropFileChunks uuid, .ok ())

/-- `INSERT INTO file_chunks (file_uuid, chunk_index, status) VALUES (?, ?, 'pending')`. -/
def insertFileChunk (uuid : Ident) (i : ℤ) : FileRepo B Unit :=
  statement (.insertFileChunk uuid i) fun _ db =>
    match db.fileChunks.insert ⟨uuid, i, .pending⟩ with
    | none => (db, .error .unique)
    | some fileChunks =>
      -- the foreign key `file_uuid REFERENCES file_manifests(file_uuid)`
      if (db.manifests.get uuid).isSome then ({ db with fileChunks }, .ok ())
      else (db, .error .foreignKey)

inductive UpsertFileManifestError
  | ownerConflict
  | db (e : SqlError)
  deriving DecidableEq

abbrev Upserting (B : Type) :=
  ExceptT UpsertFileManifestError (Prog (FilesDb B) Env (FileStmt B))

/-- `?` on a query. -/
def orDb {α : Type} (x : FileRepo B α) : Upserting B α :=
  ExceptT.mk (x.run >>= fun r => .ret (r.mapError .db))

/-- The loop over the chunks. -/
def insertFileChunks (uuid : Ident) : List ℕ → Upserting B Unit
  | [] => pure ()
  | i :: rest => do
    orDb (insertFileChunk uuid i)
    insertFileChunks uuid rest

/-- What `upsert_file_manifest` does about the manifest. -/
def claimManifest (row : FileManifestRow) : Upserting B Unit := do
  if (← orDb (insertManifest row)) = 0 then
    match ← orDb (selectOwner row.fileUuid) with
    | some owner =>
      if owner = row.ownerUserId then orDb (updateManifest row) else throw .ownerConflict
    | none => throw (.db (.protocol "file manifest disappeared during upsert"))
  else return ()

/-- `total_chunks.clamp(0, 512)`. -/
def capped (totalChunks : ℤ) : ℤ := max 0 (min totalChunks 512)

def upsertFileManifest (row : FileManifestRow) : Upserting B Unit := do
  claimManifest row
  orDb (deleteFileChunks row.fileUuid)
  if capped row.totalChunks < row.totalChunks then
    throw (.db (.protocol "total_chunks exceeds 512"))
  else insertFileChunks row.fileUuid (List.range (capped row.totalChunks).toNat)

/-- `WHERE file_uuid = ? AND owner_user_id = ? AND status = ?`. -/
def hasStatus (uuid user : Ident) (old : FileStatus) (r : FileManifestRow) : Bool :=
  r.fileUuid = uuid && r.ownerUserId = user && r.status = old

def FilesDb.setStatus (db : FilesDb B) (uuid user : Ident) (old new : FileStatus) : FilesDb B :=
  { db with
    manifests := db.manifests.update (hasStatus uuid user old) ({ · with status := new })
      fun _ => rfl }

/-- `set_file_status`; whether the row was hit. -/
def setFileStatus (uuid user : Ident) (old new : FileStatus) : FileRepo B Bool :=
  statement (.setFileStatus uuid user old new) fun _ db =>
    (db.setStatus uuid user old new,
      .ok (db.manifests.rows.countP (hasStatus uuid user old) = 1))

/-- The file is there, and the user owns it. -/
def owns (db : FilesDb B) (uuid user : Ident) : Bool :=
  (db.manifests.get uuid).any (·.ownerUserId = user)

def getChunkStatuses (uuid user : Ident) : FileRepo B (List FileChunkRow) :=
  select (.chunkStatuses uuid user) fun db =>
    (db.fileChunks.rows.filter fun c => c.fileUuid = uuid && owns db uuid user).insertionSort
      fun a b => a.chunkIndex ≤ b.chunkIndex

def countChunksUploaded (uuid user : Ident) : FileRepo B ℤ :=
  select (.countChunksUploaded uuid user) fun db =>
    db.fileChunks.rows.countP fun c =>
      c.fileUuid = uuid && owns db uuid user && c.status = .uploaded

/-- The chunk is marked, if the user owns the file. -/
def FilesDb.markUploaded (db : FilesDb B) (uuid : Ident) (idx : ℤ) (user : Ident) : FilesDb B :=
  let hits (c : FileChunkRow) : Bool :=
    c.fileUuid = uuid && c.chunkIndex = idx && owns db uuid user
  { db with
    fileChunks := db.fileChunks.update hits ({ · with status := .uploaded }) fun _ => rfl }

def setChunkUploaded (uuid : Ident) (idx : ℤ) (user : Ident) : FileRepo B Unit :=
  statement (.setChunkUploaded uuid idx user) fun _ db => (db.markUploaded uuid idx user, .ok ())

def FilesDb.put (db : FilesDb B) (uuid : Ident) (idx : ℤ) (bytes : B) : FilesDb B :=
  { db with chunks := db.chunks.upsert ⟨uuid, idx, bytes⟩ ({ · with bytes }) fun _ => rfl }

def putChunk (uuid : Ident) (idx : ℤ) (bytes : B) : FileRepo B Unit :=
  statement (.putChunk uuid idx bytes) fun _ db => (db.put uuid idx bytes, .ok ())

def getChunk (uuid : Ident) (idx : ℤ) : FileRepo B (Option B) :=
  select (.getChunk uuid idx) fun db => (db.chunks.get (uuid, idx)).map (·.bytes)

/-! ### `handlers/files.rs` -/

structure InitiateReq where
  totalSize : UInt64
  chunkSize : UInt32
  totalChunks : UInt32
  encKeyGen : UInt64
  contentType : String
  lastModified : ℤ

/-- The `i`-th url is that of the chunk `i` of the file. -/
structure InitiateResp where
  fileUuid : Ident
  uploadId : Ident
  presignedUrls : List (Ident × ℕ)

def presignChunkUrls (uuid : Ident) (totalChunks : ℤ) : List (Ident × ℕ) :=
  (List.range totalChunks.toNat).map (uuid, ·)

def maxChunks : UInt32 := 512
def maxChunkSize : UInt32 := 8 * 1024 * 1024
def maxFileSize : UInt64 := 256 * 1024 * 1024

def now : FileHandler B ℤ := ExceptT.mk (Prog.atom .clock fun e db => (db, .ok e.now))

/-- `Uuid::new_v4()`. -/
def newUuid : FileHandler B Ident := ExceptT.mk (Prog.atom .newUuid fun e db => (db, .ok e.uuid))

/-- The quota, for the value of `VAUTR_FILE_QUOTA_BYTES` where it is set and a `u64`. -/
def quotaOf (var : Option UInt64) : UInt64 := var.getD (1024 * 1024 * 1024)

def saturatingAdd (a b : ℤ) : ℤ := max (-2 ^ 63) (min (a + b) (2 ^ 63 - 1))

def quotaExceeded : ApiError :=
  .new 413 "quota_exceeded" "file quota exceeded for this account"

def fileNotFound : ApiError := .new 404 "not_found" "file not found"

def alreadyAvailable : ApiError := .new 409 "already_available" "file upload already completed"

def notAvailable : ApiError := .new 409 "not_available" "file not fully uploaded"

/-- The error of `upsert_file_manifest`, as the handler passes it on. -/
def UpsertFileManifestError.toApi : UpsertFileManifestError → ApiError
  | .ownerConflict =>
    .new 409 "file_owner_conflict" "file already claimed by another owner"
  | .db e => .internal e

/-- The manifest that an initiation writes. -/
def InitiateReq.manifest (req : InitiateReq) (uuid user : Ident) (now : ℤ) : FileManifestRow :=
  ⟨uuid, user, asI64 req.totalSize, req.chunkSize.toNat, req.totalChunks.toNat,
    asI64 req.encKeyGen, req.contentType, .pendingUpload, req.lastModified, now⟩

/-- What an initiation does once the quota allows it. -/
def initiateAllowed (user uuid : Ident) (req : InitiateReq) : FileHandler B InitiateResp := do
  let existing ← orInternal (getFileManifest uuid user)
  if existing.any (·.status = .available) then throw alreadyAvailable
  else
    let now ← now
    ExceptT.mk ((upsertFileManifest (req.manifest uuid user now)).run >>= fun r =>
      .ret (r.mapError UpsertFileManifestError.toApi))
    let uploadId ← newUuid
    return ⟨uuid, uploadId, presignChunkUrls uuid req.totalChunks.toNat⟩

def uploadInitiate (var : Option UInt64) (user uuid : Ident) (req : InitiateReq) :
    FileHandler B InitiateResp := do
  if req.totalChunks = 0 ∨ maxChunks < req.totalChunks then
    throw (.badRequest "invalid_chunks" "total_chunks must be in 1..=512")
  else if req.chunkSize = 0 ∨ maxChunkSize < req.chunkSize then
    throw (.badRequest "invalid_chunk_size" "chunk_size must be in 1..=8MiB")
  else if maxFileSize < req.chunkSize.toUInt64 * req.totalChunks.toUInt64 then
    throw (.badRequest "invalid_file_size" "chunk_size * total_chunks exceeds 256 MiB")
  else if maxFileSize < req.totalSize then
    throw (.badRequest "invalid_file_size" "total_size exceeds 256 MiB")
  else
    let used ← orInternal (sumFileBytesOwnedBy user)
    if asI64 (quotaOf var) < saturatingAdd used (asI64 req.totalSize) then throw quotaExceeded
    else initiateAllowed user uuid req

structure StatusResp where
  fileUuid : Ident
  status : FileStatus
  uploadedChunks : List UInt32
  totalChunks : UInt32

/-- `as u32`, of an `i64`. -/
def asU32 (n : ℤ) : UInt32 := UInt32.ofNat (n % 2 ^ 32).toNat

/-- The manifest, or 404. -/
def requireManifest (user uuid : Ident) : FileHandler B FileManifestRow := do
  match ← orInternal (getFileManifest uuid user) with
  | none => throw fileNotFound
  | some manifest => return manifest

def uploadStatus (user uuid : Ident) : FileHandler B StatusResp := do
  let manifest ← requireManifest user uuid
  let chunks ← orInternal (getChunkStatuses uuid user)
  return ⟨uuid, manifest.status,
    (chunks.filter (·.status = .uploaded)).map fun c => asU32 c.chunkIndex,
    asU32 manifest.totalChunks⟩

/-- What `upload_complete` says of chunks that are missing. -/
def chunksIncomplete (uploaded totalChunks : ℤ) : ApiError :=
  .badRequest "chunks_incomplete" ("received " ++ toString uploaded ++ " of " ++
    toString totalChunks ++ " chunks; upload the remaining chunks before completing")

/-- `upload_complete`; the answer is the file and `Available`. -/
def uploadComplete (user uuid : Ident) : FileHandler B Ident := do
  let manifest ← requireManifest user uuid
  if manifest.status = .available then return uuid
  else
    let uploaded ← orInternal (countChunksUploaded uuid user)
    if uploaded ≠ manifest.totalChunks then throw (chunksIncomplete uploaded manifest.totalChunks)
    else if ← orInternal (setFileStatus uuid user .pendingUpload .available) then return uuid
    else
      let current ← orInternal (getFileManifest uuid user)
      if current.any (·.status = .available) then return uuid
      else throw (.internalText "file in unexpected upload state")

/-- The manifest of a file that can be downloaded. -/
def requireAvailable (user uuid : Ident) : FileHandler B FileManifestRow := do
  let manifest ← requireManifest user uuid
  if manifest.status = .available then return manifest else throw notAvailable

def download (user uuid : Ident) : FileHandler B (List (Ident × ℕ)) := do
  let manifest ← requireAvailable user uuid
  return presignChunkUrls uuid manifest.totalChunks

/-- `upload_chunk`, for what the body decodes to. -/
def uploadChunk (user uuid : Ident) (idx : UInt32) (bytes : Option B) : FileHandler B Unit := do
  let manifest ← requireManifest user uuid
  if asU32 manifest.totalChunks ≤ idx then
    throw (.badRequest "invalid_chunk_index" "chunk index out of range")
  else
    let bytes ← decodeB64 bytes
    orInternal (putChunk uuid idx.toNat bytes)
    orInternal (setChunkUploaded uuid idx.toNat user)

def downloadChunk (user uuid : Ident) (idx : UInt32) : FileHandler B B := do
  let _ ← requireAvailable user uuid
  match ← orInternal (getChunk uuid idx.toNat) with
  | none => throw (.new 404 "chunk_not_found" "chunk not stored")
  | some bytes => return bytes

/-! ### Requests -/

/-- What is asked of the gateway, for a user that `auth_user` has found. -/
inductive Req (B : Type)
  | initiate (user uuid : Ident) (req : InitiateReq)
  | status (user uuid : Ident)
  | complete (user uuid : Ident)
  | download (user uuid : Ident)
  | uploadChunk (user uuid : Ident) (idx : UInt32) (bytes : Option B)
  | downloadChunk (user uuid : Ident) (idx : UInt32)

inductive Reply (B : Type)
  | initiated (r : Except ApiError InitiateResp)
  | status (r : Except ApiError StatusResp)
  | completed (r : Except ApiError Ident)
  | urls (r : Except ApiError (List (Ident × ℕ)))
  | stored (r : Except ApiError Unit)
  | chunk (r : Except ApiError B)

def code (var : Option UInt64) : Req B → Prog (FilesDb B) Env (FileStmt B) (Reply B)
  | .initiate user uuid req => do return .initiated (← (uploadInitiate var user uuid req).run)
  | .status user uuid => do return .status (← (uploadStatus user uuid).run)
  | .complete user uuid => do return .completed (← (uploadComplete user uuid).run)
  | .download user uuid => do return .urls (← (Files.download user uuid).run)
  | .uploadChunk user uuid idx bytes => do
    return .stored (← (Files.uploadChunk user uuid idx bytes).run)
  | .downloadChunk user uuid idx => do return .chunk (← (Files.downloadChunk user uuid idx).run)

/-! ### What the statements do -/

/-- What a statement does to the tables. -/
inductive FileStep : FileStmt B → FilesDb B → FilesDb B → Prop
  | same (l : FileStmt B) (db : FilesDb B) : FileStep l db db
  | insertManifest (row : FileManifestRow) (db : FilesDb B) (t : Table FileManifestRow.fileUuid)
    (h : db.manifests.insert row = some t) :
    FileStep (.insertManifest row) db { db with manifests := t }
  | updateManifest (row : FileManifestRow) (db : FilesDb B) :
    FileStep (.updateManifest row) db (db.resetManifest row)
  | deleteFileChunks (uuid : Ident) (db : FilesDb B) :
    FileStep (.deleteFileChunks uuid) db (db.dropFileChunks uuid)
  | insertFileChunk (uuid : Ident) (i : ℤ) (db : FilesDb B) (t : Table FileChunkRow.key)
    (h : db.fileChunks.insert ⟨uuid, i, .pending⟩ = some t) :
    FileStep (.insertFileChunk uuid i) db { db with fileChunks := t }
  | putChunk (uuid : Ident) (idx : ℤ) (bytes : B) (db : FilesDb B) :
    FileStep (.putChunk uuid idx bytes) db (db.put uuid idx bytes)
  | setChunkUploaded (uuid : Ident) (idx : ℤ) (user : Ident) (db : FilesDb B) :
    FileStep (.setChunkUploaded uuid idx user) db (db.markUploaded uuid idx user)
  | setFileStatus (uuid user : Ident) (db : FilesDb B) :
    FileStep (.setFileStatus uuid user .pendingUpload .available) db
      (db.setStatus uuid user .pendingUpload .available)

def Steps (ev : FileEv B) : Prop := FileStep ev.name ev.pre ev.post

section Guarantees

variable {α β ε : Type} {var : Option UInt64}

/-- Whatever the others do, every statement is a step. -/
abbrev Does (p : Prog (FilesDb B) Env (FileStmt B) α) : Prop :=
  Guarantees (fun _ _ _ => True) Steps p

lemma does_select (l : FileStmt B) (g : FilesDb B → α) : Does (select l g).run :=
  guarantees_statement (fun _ db => .same l db) fun _ db => .same l db

lemma does_statement {l : FileStmt B} {g : Env → FilesDb B → FilesDb B × Except SqlError α}
    (h : ∀ e db, FileStep l db (g e db).1) : Does (statement l g).run :=
  guarantees_statement (fun _ db => .same l db) h

lemma does_read {l : FileStmt B} {g : Env → α} :
    Does (ExceptT.mk (Prog.atom l fun e db => (db, .ok (g e))) : FileHandler B α).run :=
  guarantees_stmt (fun _ db => .same l db) fun _ _ => guarantees_ret _

lemma does_orDb {x : FileRepo B α} (h : Does x.run) : Does (orDb x).run :=
  guarantees_bind h fun _ => guarantees_ret _

lemma does_insertManifest (row : FileManifestRow) : Does (insertManifest (B := B) row).run := by
  refine does_statement fun _ db => ?_
  cases h : db.manifests.insert row with
  | none => exact .same _ db
  | some t => exact .insertManifest row db t h

lemma does_insertFileChunk (uuid : Ident) (i : ℤ) : Does (insertFileChunk (B := B) uuid i).run := by
  refine does_statement fun _ db => ?_
  cases h : db.fileChunks.insert ⟨uuid, i, .pending⟩ with
  | none => exact .same _ db
  | some t =>
    dsimp only
    split
    · exact .insertFileChunk uuid i db t h
    · exact .same _ db

lemma does_insertFileChunks (uuid : Ident) (is : List ℕ) :
    Does (insertFileChunks (B := B) uuid is).run := by
  induction is with
  | nil => exact guarantees_pure_except _
  | cons i rest ih =>
    exact guarantees_bind_except (does_orDb (does_insertFileChunk uuid i)) fun _ => ih

lemma does_claimManifest (row : FileManifestRow) : Does (claimManifest (B := B) row).run := by
  refine guarantees_bind_except (does_orDb (does_insertManifest row)) fun n => ?_
  split
  · refine guarantees_bind_except (does_orDb (does_select _ _)) fun owner => ?_
    split
    · split
      · exact does_orDb (does_statement fun _ db => .updateManifest row db)
      · exact guarantees_throw_except _
    · exact guarantees_throw_except _
  · exact guarantees_pure_except _

lemma does_upsertFileManifest (row : FileManifestRow) :
    Does (upsertFileManifest (B := B) row).run := by
  refine guarantees_bind_except (does_claimManifest row) fun _ => guarantees_bind_except
    (does_orDb (does_statement fun _ db => .deleteFileChunks _ db)) fun _ => ?_
  split
  · exact guarantees_throw_except _
  · exact does_insertFileChunks _ _

lemma does_initiateAllowed (user uuid : Ident) (req : InitiateReq) :
    Does (initiateAllowed (B := B) user uuid req).run := by
  refine guarantees_bind_except (guarantees_orInternal (does_select _ _)) fun existing => ?_
  split
  · exact guarantees_throw_except _
  · exact guarantees_bind_except does_read fun _ => guarantees_bind_except
      (guarantees_bind (does_upsertFileManifest _) fun _ => guarantees_ret _) fun _ =>
      guarantees_bind_except does_read fun _ => guarantees_pure_except _

lemma does_uploadInitiate (user uuid : Ident) (req : InitiateReq) :
    Does (uploadInitiate (B := B) var user uuid req).run := by
  unfold uploadInitiate
  split
  · exact guarantees_throw_except _
  split
  · exact guarantees_throw_except _
  split
  · exact guarantees_throw_except _
  split
  · exact guarantees_throw_except _
  refine guarantees_bind_except (guarantees_orInternal (does_select _ _)) fun used => ?_
  split
  · exact guarantees_throw_except _
  · exact does_initiateAllowed _ _ _

lemma does_requireManifest (user uuid : Ident) :
    Does (requireManifest (B := B) user uuid).run := by
  refine guarantees_bind_except (guarantees_orInternal (does_select _ _)) fun m => ?_
  cases m with
  | none => exact guarantees_throw_except _
  | some m => exact guarantees_pure_except _

lemma does_requireAvailable (user uuid : Ident) :
    Does (requireAvailable (B := B) user uuid).run := by
  refine guarantees_bind_except (does_requireManifest _ _) fun m => ?_
  split
  · exact guarantees_pure_except _
  · exact guarantees_throw_except _

lemma does_uploadComplete (user uuid : Ident) : Does (uploadComplete (B := B) user uuid).run := by
  refine guarantees_bind_except (does_requireManifest _ _) fun m => ?_
  split
  · exact guarantees_pure_except _
  refine guarantees_bind_except (guarantees_orInternal (does_select _ _)) fun n => ?_
  split
  · exact guarantees_throw_except _
  refine guarantees_bind_except (guarantees_orInternal (does_statement fun _ db =>
    .setFileStatus _ _ db)) fun flipped => ?_
  split
  · exact guarantees_pure_except _
  refine guarantees_bind_except (guarantees_orInternal (does_select _ _)) fun current => ?_
  split
  · exact guarantees_pure_except _
  · exact guarantees_throw_except _

lemma does_uploadChunk (user uuid : Ident) (idx : UInt32) (bytes : Option B) :
    Does (uploadChunk user uuid idx bytes).run := by
  refine guarantees_bind_except (does_requireManifest _ _) fun m => ?_
  split
  · exact guarantees_throw_except _
  cases bytes with
  | none => exact guarantees_throw_except _
  | some bytes =>
    exact guarantees_bind_except (guarantees_pure_except _) fun _ => guarantees_bind_except
      (guarantees_orInternal (does_statement fun _ db => .putChunk _ _ _ db)) fun _ =>
      guarantees_orInternal (does_statement fun _ db => .setChunkUploaded _ _ _ db)

lemma does_downloadChunk (user uuid : Ident) (idx : UInt32) :
    Does (downloadChunk (B := B) user uuid idx).run := by
  refine guarantees_bind_except (does_requireAvailable _ _) fun _ => guarantees_bind_except
    (guarantees_orInternal (does_select _ _)) fun bytes => ?_
  cases bytes with
  | none => exact guarantees_throw_except _
  | some bytes => exact guarantees_pure_except _

/-- **What a request does**: every statement of every request is one of the steps. -/
theorem does_code (q : Req B) : Does (code var q) := by
  cases q with
  | initiate user uuid req =>
    exact guarantees_bind (does_uploadInitiate _ _ _) fun _ => guarantees_ret _
  | status user uuid =>
    exact guarantees_bind (guarantees_bind_except (does_requireManifest _ _) fun _ =>
      guarantees_bind_except (guarantees_orInternal (does_select _ _)) fun _ =>
      guarantees_pure_except _) fun _ => guarantees_ret _
  | complete user uuid => exact guarantees_bind (does_uploadComplete _ _) fun _ => guarantees_ret _
  | download user uuid =>
    exact guarantees_bind (guarantees_bind_except (does_requireAvailable _ _) fun _ =>
      guarantees_pure_except _) fun _ => guarantees_ret _
  | uploadChunk user uuid idx bytes =>
    exact guarantees_bind (does_uploadChunk _ _ _ _) fun _ => guarantees_ret _
  | downloadChunk user uuid idx =>
    exact guarantees_bind (does_downloadChunk _ _ _) fun _ => guarantees_ret _

end Guarantees

end Vautr.Files
