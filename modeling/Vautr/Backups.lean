import Vautr.Audit
import Vautr.Import
import Vautr.RestoreTest
import Vautr.Underway

/-!
The backups of a server (`handlers/backup.rs`, `repository/backup.rs`): exports, downloads and
restore tests.

The key of all archives is that of the process, or else the first one that came into the database.
An export writes its archive to a file of its own and records it after that; a restore test reads
the file that was recorded.
-/

namespace Vautr.Backups

open Vautr.Atomic Vautr.Interleave Vautr.Executions Vautr.Underway Vautr.Sql Vautr.Database
open Vautr.Api Vautr.Server Vautr.Audit
open Vautr.Projects (ProjDb)
open Vautr.FileStream (Bytes)
open Vautr.Archive (Aead Nonce currentFormatVersion)
open Vautr.Restore (ArchiveMeta Calls Codec Dest Sqlite Writes writeSnapshot)
open Vautr.RestoreTest (BackupError Fresh ReadsBack Store TestError TestOutcome createArchive
  runRestoreTest vaultId)

/-! ### The server -/

/-- A key of `XChaCha20Poly1305`. -/
abbrev Key32 := { key : Bytes // key.length = 32 }

/-- The environment of the process: `VAUTR_BACKUP_KEY` as what its base64 decodes to, `VAUTR_ENV`,
`VAUTR_ALLOW_DB_BACKUP_KEY` and `VAUTR_BACKUP_DIR`. -/
structure Settings where
  backupKey : Option (Option Bytes)
  vautrEnv : Option String
  allowDbBackupKey : Option String
  backupDir : Option String

/-- `BackupState`, the row of `backup_state`. -/
structure BackupState where
  enabled : Bool
  location : Option String
  schedule : String
  lastBackupAt : Option ℤ
  lastBackupSizeBytes : Option ℕ
  lastRestoreTestAt : Option ℤ
  lastRestoreTestStatus : Option String
  deriving DecidableEq

/-- The directory of an archive, and the backup in its name. -/
abbrev Path := String × Ident

/-- `BackupRun`, a row of `backup_runs`. -/
structure BackupRun where
  id : Ident
  createdAt : ℤ
  sizeBytes : ℕ
  checksum : String
  archivePath : Path
  vaultId : String
  entryCount : ℕ
  deriving DecidableEq

/-- The database: the tables of the backups, those of the organizations, and all others. -/
structure Tables (T : Type) where
  rest : T
  proj : ProjDb
  key : Option Bytes
  state : Option BackupState
  runs : Table BackupRun.id

/-- The database, the files of the archives, and the next id that `Uuid::new_v4` gives: no file has
it in its name yet. -/
structure World (T : Type) where
  db : Tables T
  archives : Path → Option Bytes
  nextId : Ident
  unused : ∀ p, nextId ≤ p.2 → archives p = none

/-- What a server is made of: its environment, the cipher, the codec of the manifest, SQLite and the
database under it, and the hash of an archive. -/
structure Deployment (T : Type) where
  settings : Settings
  aead : Aead Key32
  codec : Codec
  sqlite : Sqlite
  store : Store (Tables T) sqlite
  sha256Hex : Bytes → String

/-- What comes from outside with a statement: the clock, random bytes, whether it fails, what a
failed write leaves of a file, and the system calls of a restore test with its scratch file. -/
structure BackupEnv where
  now : ℤ
  nowRfc3339 : String
  keyBytes : Key32
  nonce : Nonce
  uuid : Ident
  fault : Bool
  leftover : Option Bytes
  calls : Calls
  scratch : Dest

instance : Faulty BackupEnv := ⟨BackupEnv.fault⟩

inductive BackupStmt
  | userIsOrgAdmin (user : Ident)
  | selectBackupKey
  | insertBackupKey
  | insertBackupState
  | selectBackupState
  | insertBackupRun (id : Ident)
  | updateBackupState
  | getBackupRun (id : Ident)
  | recordRestoreTest (status : String)
  | createDir
  | vacuumInto
  | countItems
  | draw
  | writeArchive
  | readArchive (path : Path)
  | restoreTest
  | testId
  | outside
  deriving DecidableEq

variable {T : Type}

abbrev BackupEv (T : Type) := Ev (World T) BackupEnv BackupStmt

abbrev BackupRepo (T : Type) := Query (World T) BackupEnv BackupStmt

abbrev BackupHandler (T : Type) := Handler (World T) BackupEnv BackupStmt

/-! ### `repository/backup.rs` -/

/-- `VAUTR_ENV` names production. -/
def Settings.prod (cfg : Settings) : Bool :=
  cfg.vautrEnv = some "prod" || cfg.vautrEnv = some "production"

/-- The bytes of a key, if they are 32. -/
def toKey (bytes : Bytes) : Option Key32 :=
  if h : bytes.length = 32 then some ⟨bytes, h⟩ else none

/-- `INSERT INTO backup_key (id, key) VALUES (1, ?)`, of random bytes. -/
def insertBackupKey : BackupRepo T Key32 :=
  statement .insertBackupKey fun e w =>
    match w.db.key with
    | some _ => (w, .error .unique)
    | none => ({ w with db := { w.db with key := some e.keyBytes.1 } }, .ok e.keyBytes)

def getOrCreateBackupKey (cfg : Settings) : BackupRepo T Key32 :=
  match cfg.backupKey with
  | some none => throw (.protocol "VAUTR_BACKUP_KEY base64")
  | some (some bytes) =>
    match toKey bytes with
    | some key => return key
    | none => throw (.protocol "VAUTR_BACKUP_KEY must decode to exactly 32 bytes")
  | none =>
    if cfg.prod && cfg.allowDbBackupKey ≠ some "1" then
      throw (.protocol ("VAUTR_BACKUP_KEY not set: refusing to derive the backup key from the " ++
        "database it protects (set VAUTR_ALLOW_DB_BACKUP_KEY=1 to override)"))
    else do
      let row ← select .selectBackupKey (·.db.key)
      match row.bind toKey with
      | some key => return key
      | none => insertBackupKey

/-- The row of `backup_state` by default. -/
def defaultState : BackupState := ⟨true, none, "daily", none, none, none, none⟩

def backupState : BackupRepo T BackupState := do
  statement .insertBackupState fun _ w =>
    ({ w with db := { w.db with state := w.db.state.or (some defaultState) } }, .ok ())
  statement .selectBackupState fun _ w =>
    match w.db.state with
    | some state => (w, .ok state)
    | none => (w, .error .database)

def recordBackupRun (r : BackupRun) (now : ℤ) : BackupRepo T Unit := do
  statement (.insertBackupRun r.id) fun _ w =>
    match w.db.runs.insert r with
    | some runs => ({ w with db := { w.db with runs := runs } }, .ok ())
    | none => (w, .error .unique)
  statement .updateBackupState fun _ w =>
    let state := w.db.state.map fun s =>
      { s with lastBackupAt := some now, lastBackupSizeBytes := some r.sizeBytes }
    ({ w with db := { w.db with state := state } }, .ok ())

def getBackupRun (id : Ident) : BackupRepo T (Option BackupRun) :=
  select (.getBackupRun id) (·.db.runs.get id)

def recordRestoreTest (status : String) (atMs : ℤ) : BackupRepo T Unit :=
  statement (.recordRestoreTest status) fun _ w =>
    let state := w.db.state.getD defaultState
    let state := { state with lastRestoreTestAt := some atMs, lastRestoreTestStatus := some status }
    ({ w with db := { w.db with state := some state } }, .ok ())

/-! ### The handlers -/

def requireAdmin (caller : Ident) : BackupHandler T Unit := do
  if ← orInternal (select (.userIsOrgAdmin caller) fun w => isOrgAdmin w.db.proj caller) then
    return ()
  else throw (.new 403 "admin_role_required" "organization admins only")

/-- A step on the files or outside the database: it does `g`, or fails with the message after
`failed`. -/
def system {α : Type} (l : BackupStmt) (msg : String) (failed : BackupEnv → World T → World T)
    (g : BackupEnv → World T → World T × Except ApiError α) : BackupHandler T α :=
  ExceptT.mk (Prog.atom l fun e w =>
    if e.fault then (failed e w, .error (.internalText msg)) else g e w)

/-- A read from outside, which cannot fail. -/
def outer {α : Type} (l : BackupStmt) (g : BackupEnv → α) : BackupHandler T α :=
  ExceptT.mk (Prog.atom l fun e w => (w, .ok (g e)))

/-- The text has no letter but white space. -/
def isBlank (s : String) : Bool := Import.trim s = ""

def resolveLocation (cfg : Settings) : BackupHandler T String := do
  let state ← orInternal backupState
  match state.location.filter (!isBlank ·) with
  | some l => return l
  | none => return (cfg.backupDir.filter (!isBlank ·)).getD "./backups"

lemma unused_update (w : World T) (location : String) (bytes : Option Bytes) (p : Path)
    (hp : w.nextId + 1 ≤ p.2) :
    Function.update w.archives (location, w.nextId) bytes p = none := by
  rw [Function.update_of_ne]
  · exact w.unused p (Nat.le_of_succ_le hp)
  · rintro rfl
    exact Nat.not_succ_le_self _ hp

/-- The file of the next id has these bytes. -/
def World.addFile (w : World T) (location : String) (bytes : Option Bytes) : World T :=
  ⟨w.db, Function.update w.archives (location, w.nextId) bytes, w.nextId + 1,
    unused_update w location bytes⟩

/-- The file of a new backup: its id is drawn and the archive is written. -/
def writeArchive (location : String) (archive : Bytes) : BackupHandler T (Ident × ℤ) :=
  system .writeArchive "write archive" (fun e w => w.addFile location e.leftover)
    fun e w => (w.addFile location (some archive), .ok (w.nextId, e.now))

/-- `std::fs::read`. -/
def readArchive (path : Path) : BackupHandler T Bytes :=
  system (.readArchive path) "read archive" (fun _ w => w) fun _ w =>
    match w.archives path with
    | some bytes => (w, .ok bytes)
    | none => (w, .error (.internalText "read archive"))

structure BackupExportResponse where
  backupId : Ident
  downloadUrl : Option Ident
  sizeBytes : ℕ
  checksum : String
  createdAt : ℤ
  deriving DecidableEq

structure BackupRestoreRequest where
  backupId : Option Ident
  archiveBase64 : Option (Option Bytes)

structure BackupRestoreResponse where
  status : String
  testId : Ident
  restoredRecords : ℕ
  restoredAt : ℤ
  deriving DecidableEq

variable (X : Deployment T)

/-- `create_archive`, as the export calls it. -/
def sealed (key : Key32) (nonce : Nonce) (snapshot : Bytes) (m : ArchiveMeta) :
    BackupHandler T Bytes :=
  match createArchive X.aead X.codec key nonce snapshot m with
  | .ok archive => return archive
  | .error (.archive _) => throw (.internalText "archive creation failed")

def exportBackup (caller : Ident) : BackupHandler T BackupExportResponse := do
  requireAdmin caller
  let key ← orInternal (getOrCreateBackupKey X.settings)
  let location ← resolveLocation X.settings
  system .createDir "create backup dir" (fun _ w => w) fun _ w => (w, .ok ())
  let snapshot ← system .vacuumInto "snapshot failed" (fun _ w => w) fun _ w =>
    (w, .ok (X.store.image w.db))
  let entryCount ← orInternal (select .countItems fun w => X.store.items w.db)
  let e ← outer .draw id
  let archive ← sealed X key e.nonce snapshot
    ⟨currentFormatVersion, e.nowRfc3339, vaultId, entryCount⟩
  let written ← writeArchive location archive
  let checksum := X.sha256Hex archive
  orInternal (recordBackupRun ⟨written.1, written.2, archive.length, checksum,
    (location, written.1), vaultId, entryCount⟩ written.2)
  return ⟨written.1, some written.1, archive.length, checksum, written.2⟩

def downloadBackup (caller id : Ident) : BackupHandler T Bytes := do
  requireAdmin caller
  match ← orInternal (getBackupRun id) with
  | some r => readArchive r.archivePath
  | none => throw (.new 404 "unknown_backup" "backup_id not found")

/-- The archive of a restore test: the bytes that were sent, or those of a backup. -/
def resolveArchive (body : BackupRestoreRequest) : BackupHandler T Bytes :=
  match body.archiveBase64, body.backupId with
  | some field, _ => decodeB64 field
  | none, some id => do
    match ← orInternal (getBackupRun id) with
    | some r => readArchive r.archivePath
    | none => throw (.badRequest "unknown_backup" "backup_id not found")
  | none, none => throw (.badRequest "missing_archive" "provide backup_id or archive_base64")

/-- `run_restore_test`, with a scratch file of a new name. -/
def restoreTest (key : Key32) (archive : Bytes) : BackupHandler T TestOutcome :=
  ExceptT.mk (Prog.atom .restoreTest fun e w =>
    match (runRestoreTest X.aead X.codec X.sqlite e.calls key archive e.scratch
      fun _ => none).1 with
    | .ok outcome => (w, .ok outcome)
    | .error (.setup _) => (w, .error (.internalText "restore test failed")))

def restoreBackup (caller : Ident) (body : BackupRestoreRequest) :
    BackupHandler T BackupRestoreResponse := do
  requireAdmin caller
  let archive ← resolveArchive body
  let key ← orInternal (getOrCreateBackupKey X.settings)
  let outcome ← restoreTest X key archive
  let status := if outcome.passed then "success" else "failed"
  let e ← outer .testId id
  orInternal (recordRestoreTest status e.now)
  return ⟨status, e.uuid, outcome.restoredRecords, e.now⟩

def backupStatus (caller : Ident) : BackupHandler T BackupState := do
  requireAdmin caller
  orInternal backupState

/-- What is asked of the server, by a caller that `auth_user` has named; and what others do to the
tables that are not the backups'. -/
inductive Req (T : Type)
  | backupStatus (caller : Ident)
  | exportBackup (caller : Ident)
  | downloadBackup (caller id : Ident)
  | restoreBackup (caller : Ident) (body : BackupRestoreRequest)
  | outside (rest : T) (proj : ProjDb)

inductive Reply
  | state (r : Except ApiError BackupState)
  | exported (r : Except ApiError BackupExportResponse)
  | archive (r : Except ApiError Bytes)
  | tested (r : Except ApiError BackupRestoreResponse)
  | outside
  deriving DecidableEq

def code : Req T → Prog (World T) BackupEnv BackupStmt Reply
  | .backupStatus caller => (backupStatus caller).run >>= fun r => .ret (.state r)
  | .exportBackup caller => (exportBackup X caller).run >>= fun r => .ret (.exported r)
  | .downloadBackup caller id => (downloadBackup caller id).run >>= fun r => .ret (.archive r)
  | .restoreBackup caller body => (restoreBackup X caller body).run >>= fun r => .ret (.tested r)
  | .outside rest proj => Prog.atom .outside fun _ w =>
    ({ w with db := { w.db with rest := rest, proj := proj } }, .outside)

/-! ### What stays -/

/-- A key that is there stays, as do the recorded backups and the files of the archives. -/
structure Grows (w w' : World T) : Prop where
  key : ∀ bytes, w.db.key = some bytes → w'.db.key = some bytes
  runs : ∀ id r, w.db.runs.get id = some r → w'.db.runs.get id = some r
  archives : ∀ p bytes, w.archives p = some bytes → w'.archives p = some bytes

variable {X} {w w' w'' : World T}

lemma Grows.refl (w : World T) : Grows w w := ⟨fun _ h => h, fun _ _ h => h, fun _ _ h => h⟩

lemma Grows.trans (h : Grows w w') (h' : Grows w' w'') : Grows w w'' :=
  ⟨fun b hb => h'.key b (h.key b hb), fun i r hr => h'.runs i r (h.runs i r hr),
    fun p b hb => h'.archives p b (h.archives p b hb)⟩

lemma grows_addFile (w : World T) (location : String) (bytes : Option Bytes) :
    Grows w (w.addFile location bytes) := by
  refine ⟨fun _ h => h, fun _ _ h => h, fun p b hb => ?_⟩
  change Function.update w.archives (location, w.nextId) bytes p = some b
  rw [Function.update_of_ne, hb]
  rintro rfl
  rw [w.unused _ le_rfl] at hb
  cases hb

section Programs

variable {α : Type} {rely : BackupStmt → World T → World T → Prop}

/-- The statements of a program keep what stays. -/
abbrev Growing (p : Prog (World T) BackupEnv BackupStmt α) : Prop :=
  Guarantees (fun _ _ _ => True) (fun ev => Grows ev.pre ev.post) p

lemma growing_statement {l : BackupStmt}
    {g : BackupEnv → World T → World T × Except SqlError α} (h : ∀ e w, Grows w (g e w).1) :
    Growing (statement l g).run :=
  guarantees_statement (fun _ w => .refl w) h

lemma growing_select {l : BackupStmt} (g : World T → α) : Growing (select l g).run :=
  growing_statement fun _ w => .refl w

lemma growing_atom {l : BackupStmt} {g : BackupEnv → World T → World T × α}
    (h : ∀ e w, Grows w (g e w).1) : Growing (Prog.atom l g) :=
  guarantees_stmt h fun _ _ => guarantees_ret _

lemma growing_system {l : BackupStmt} {msg : String} {failed : BackupEnv → World T → World T}
    {g : BackupEnv → World T → World T × Except ApiError α} (hfailed : ∀ e w, Grows w (failed e w))
    (h : ∀ e w, Grows w (g e w).1) : Growing (system l msg failed g).run := by
  refine growing_atom fun e w => ?_
  split
  · exact hfailed e w
  · exact h e w

lemma growing_outer {l : BackupStmt} (g : BackupEnv → α) :
    Growing (outer l g : BackupHandler T α).run :=
  growing_atom fun _ w => .refl w

lemma growing_requireAdmin (caller : Ident) :
    Growing (requireAdmin caller : BackupHandler T Unit).run := by
  refine guarantees_bind_except (guarantees_orInternal (growing_select _)) fun isAdmin => ?_
  split
  · exact guarantees_pure_except _
  · exact guarantees_throw_except _

lemma growing_insertBackupKey : Growing (insertBackupKey : BackupRepo T Key32).run := by
  refine growing_statement fun e w => ?_
  cases hkey : w.db.key with
  | some bytes => exact .refl w
  | none =>
    refine ⟨fun b hb => ?_, fun _ _ h => h, fun _ _ h => h⟩
    rw [hkey] at hb
    cases hb

lemma growing_getOrCreateBackupKey (cfg : Settings) :
    Growing (getOrCreateBackupKey cfg : BackupRepo T Key32).run := by
  unfold getOrCreateBackupKey
  split
  · exact guarantees_throw_except _
  · split
    · exact guarantees_pure_except _
    · exact guarantees_throw_except _
  · split
    · exact guarantees_throw_except _
    · refine guarantees_bind_except (growing_select _) fun row => ?_
      split
      · exact guarantees_pure_except _
      · exact growing_insertBackupKey

lemma growing_backupState : Growing (backupState : BackupRepo T BackupState).run := by
  refine guarantees_bind_except (growing_statement fun e w => ⟨fun _ h => h, fun _ _ h => h,
    fun _ _ h => h⟩) fun _ => growing_statement fun e w => ?_
  cases w.db.state <;> exact .refl w

lemma growing_resolveLocation (cfg : Settings) :
    Growing (resolveLocation cfg : BackupHandler T String).run := by
  refine guarantees_bind_except (guarantees_orInternal growing_backupState) fun state => ?_
  split <;> exact guarantees_pure_except _

lemma growing_recordBackupRun (r : BackupRun) (now : ℤ) :
    Growing (recordBackupRun r now : BackupRepo T Unit).run := by
  refine guarantees_bind_except (growing_statement fun e w => ?_) fun _ =>
    growing_statement fun e w => ⟨fun _ h => h, fun _ _ h => h, fun _ _ h => h⟩
  cases hins : w.db.runs.insert r with
  | none => exact .refl w
  | some runs =>
    refine ⟨fun _ h => h, fun id r' hr' => ?_, fun _ _ h => h⟩
    change runs.get id = some r'
    rw [Table.get_insert hins, if_neg, hr']
    rintro rfl
    rw [(Table.insert_eq_some hins).1] at hr'
    cases hr'

lemma growing_getBackupRun (id : Ident) :
    Growing (orInternal (getBackupRun id) : BackupHandler T (Option BackupRun)).run :=
  guarantees_orInternal (growing_select _)

lemma growing_readArchive (path : Path) : Growing (readArchive path : BackupHandler T Bytes).run :=
  growing_system (fun _ w => .refl w) fun _ w => by cases w.archives path <;> exact .refl w

lemma growing_restoreTest (key : Key32) (archive : Bytes) :
    Growing (restoreTest X key archive).run := by
  refine growing_atom fun e w => ?_
  split <;> exact .refl w

lemma growing_exportBackup (caller : Ident) : Growing (exportBackup X caller).run := by
  refine guarantees_bind_except (growing_requireAdmin caller) fun _ => ?_
  refine guarantees_bind_except (guarantees_orInternal (growing_getOrCreateBackupKey _))
    fun key => ?_
  refine guarantees_bind_except (growing_resolveLocation _) fun location => ?_
  refine guarantees_bind_except (growing_system (fun _ w => .refl w) fun _ w => .refl w) fun _ => ?_
  refine guarantees_bind_except (growing_system (fun _ w => .refl w) fun _ w => .refl w)
    fun snapshot => ?_
  refine guarantees_bind_except (guarantees_orInternal (growing_select _)) fun entryCount => ?_
  refine guarantees_bind_except (growing_outer _) fun e => ?_
  refine guarantees_bind_except ?_ fun archive => ?_
  · unfold sealed
    split
    · exact guarantees_pure_except _
    · exact guarantees_throw_except _
  refine guarantees_bind_except (growing_system (fun _ w => grows_addFile w _ _)
    fun _ w => grows_addFile w _ _) fun written => ?_
  exact guarantees_bind_except (guarantees_orInternal (growing_recordBackupRun _ _))
    fun _ => guarantees_pure_except _

lemma growing_downloadBackup (caller id : Ident) :
    Growing (downloadBackup caller id : BackupHandler T Bytes).run := by
  refine guarantees_bind_except (growing_requireAdmin caller) fun _ => ?_
  refine guarantees_bind_except (growing_getBackupRun id) fun found => ?_
  cases found with
  | some r => exact growing_readArchive _
  | none => exact guarantees_throw_except _

lemma growing_resolveArchive (body : BackupRestoreRequest) :
    Growing (resolveArchive body : BackupHandler T Bytes).run := by
  unfold resolveArchive
  split
  · exact guarantees_decodeB64 _
  · refine guarantees_bind_except (growing_getBackupRun _) fun found => ?_
    cases found with
    | some r => exact growing_readArchive _
    | none => exact guarantees_throw_except _
  · exact guarantees_throw_except _

lemma growing_restoreBackup (caller : Ident) (body : BackupRestoreRequest) :
    Growing (restoreBackup X caller body).run := by
  refine guarantees_bind_except (growing_requireAdmin caller) fun _ => ?_
  refine guarantees_bind_except (growing_resolveArchive body) fun archive => ?_
  refine guarantees_bind_except (guarantees_orInternal (growing_getOrCreateBackupKey _))
    fun key => ?_
  refine guarantees_bind_except (growing_restoreTest key archive) fun outcome => ?_
  refine guarantees_bind_except (growing_outer _) fun e => ?_
  exact guarantees_bind_except (guarantees_orInternal (growing_statement fun e w =>
    ⟨fun _ h => h, fun _ _ h => h, fun _ _ h => h⟩)) fun _ => guarantees_pure_except _

lemma growing_code (q : Req T) : Growing (code X q) := by
  cases q with
  | backupStatus caller =>
    refine guarantees_bind (guarantees_bind_except (growing_requireAdmin caller) fun _ => ?_)
      fun _ => guarantees_ret _
    exact guarantees_orInternal growing_backupState
  | exportBackup caller =>
    exact guarantees_bind (growing_exportBackup caller) fun _ => guarantees_ret _
  | downloadBackup caller id =>
    exact guarantees_bind (growing_downloadBackup caller id) fun _ => guarantees_ret _
  | restoreBackup caller body =>
    exact guarantees_bind (growing_restoreBackup caller body) fun _ => guarantees_ret _
  | outside rest proj =>
    exact growing_atom fun _ w => ⟨fun _ h => h, fun _ _ h => h, fun _ _ h => h⟩

end Programs

/-! ### What an answer says -/

section Answers

variable {α : Type} {tr : List (BackupEv T)}

lemma runs_system {l : BackupStmt} {msg : String} {failed : BackupEnv → World T → World T}
    {g : BackupEnv → World T → World T × Except ApiError α} {a : α}
    (h : Runs (system l msg failed g).run tr (.ok a)) :
    ∃ e w, tr = [⟨l, e, w, (g e w).1⟩] ∧ (g e w).2 = .ok a := by
  obtain ⟨e, w, htr, hr⟩ := runs_atom.mp h
  by_cases hf : e.fault
  · simp [hf] at hr
  · simp only [hf] at hr htr
    exact ⟨e, w, htr, hr.symm⟩

/-- The key comes from the environment, or it is the one in the database by now. -/
def Keyed (cfg : Settings) (key : Key32) (w : World T) : Prop :=
  cfg.backupKey = some (some key.1) ∨ cfg.backupKey = none ∧ w.db.key = some key.1

/-- There is one key only. -/
lemma Keyed.unique {cfg : Settings} {key key' : Key32} (h : Keyed cfg key w)
    (h' : Keyed cfg key' w) : key = key' := by
  refine Subtype.ext ?_
  rcases h with h | ⟨h, hk⟩
  · rcases h' with h' | ⟨h', -⟩
    · exact Option.some.inj (Option.some.inj (h.symm.trans h'))
    · cases h.symm.trans h'
  · rcases h' with h' | ⟨-, hk'⟩
    · cases h.symm.trans h'
    · exact Option.some.inj (hk.symm.trans hk')

/-- The statements were run before the state was reached. -/
def Behind (tr : List (BackupEv T)) (w : World T) : Prop := ∀ ev ∈ tr, Grows ev.post w

lemma behind_append {tr' : List (BackupEv T)} :
    Behind (tr ++ tr') w ↔ Behind tr w ∧ Behind tr' w := List.forall_mem_append

lemma behind_single {ev : BackupEv T} : Behind [ev] w ↔ Grows ev.post w := List.forall_mem_singleton

lemma runs_getOrCreateBackupKey {cfg : Settings} {key : Key32}
    (h : Runs (getOrCreateBackupKey cfg : BackupRepo T Key32).run tr (.ok key)) (hw : Behind tr w) :
    Keyed cfg key w := by
  have htoKey : ∀ {bytes}, toKey bytes = some key → bytes = key.1 := fun hk => by
    unfold toKey at hk
    split at hk
    · rw [← Option.some.inj hk]
    · cases hk
  unfold getOrCreateBackupKey at h
  split at h
  · cases h.2
  · next bytes hcfg =>
    split at h
    · next key' hk =>
      obtain rfl : key' = key := (Except.ok.inj h.2).symm
      exact .inl (hcfg.trans (by rw [htoKey hk]))
    · cases h.2
  · next hcfg =>
    refine .inr ⟨hcfg, ?_⟩
    split at h
    · cases h.2
    obtain ⟨row, tr₁, tr₂, rfl, hrow, h⟩ := runs_bind_ok.mp h
    obtain ⟨hw₁, hw₂⟩ := behind_append.mp hw
    obtain ⟨e, w₁, rfl, rfl⟩ := runs_select_ok hrow
    split at h
    · next key' hk =>
      obtain rfl : key' = key := (Except.ok.inj h.2).symm
      obtain ⟨bytes, hbytes, hk⟩ := Option.bind_eq_some_iff.mp hk
      exact (behind_single.mp hw₁).key _ (hbytes.trans (by rw [htoKey hk]))
    · obtain ⟨e', w₂, rfl, hr⟩ := runs_statement_ok h
      cases hkey : w₂.db.key with
      | some bytes =>
        rw [hkey] at hr
        cases hr
      | none =>
        rw [hkey] at hr
        refine (behind_single.mp hw₂).key _ ?_
        rw [← Except.ok.inj hr]
        simp only [hkey]

lemma runs_requireAdmin {caller : Ident} {x : Unit → BackupHandler T α} {a : α}
    (h : Runs (requireAdmin caller >>= x).run tr (.ok a)) :
    ∃ tr₁ tr₂, tr = tr₁ ++ tr₂ ∧ Runs (x ()).run tr₂ (.ok a) := by
  obtain ⟨_, tr₁, tr₂, htr, -, hx⟩ := runs_bind_ok.mp h
  exact ⟨tr₁, tr₂, htr, hx⟩

/-- The archive of the backup, seen from a later state. -/
def Recorded (w : World T) (id : Ident) (archive : Bytes) : Prop :=
  ∃ r, w.db.runs.get id = some r ∧ w.archives r.archivePath = some archive

lemma Recorded.unique {id : Ident} {archive archive' : Bytes} (h : Recorded w id archive)
    (h' : Recorded w id archive') : archive = archive' := by
  obtain ⟨r, hr, ha⟩ := h
  obtain ⟨r', hr', ha'⟩ := h'
  obtain rfl : r = r' := Option.some.inj (hr.symm.trans hr')
  exact Option.some.inj (ha.symm.trans ha')

lemma runs_readArchive {path : Path} {bytes : Bytes}
    (h : Runs (readArchive path : BackupHandler T Bytes).run tr (.ok bytes)) (hw : Behind tr w) :
    w.archives path = some bytes := by
  obtain ⟨e, w₁, rfl, hr⟩ := runs_system h
  cases hfile : w₁.archives path with
  | none =>
    rw [hfile] at hr
    cases hr
  | some found =>
    rw [hfile] at hr
    refine (behind_single.mp hw).archives _ _ ?_
    rw [← Except.ok.inj hr]
    simp only [hfile]

/-- The bytes of a backup, looked up by its id. -/
lemma runs_lookup {id : Ident} {err : ApiError} {bytes : Bytes}
    (h : Runs (orInternal (getBackupRun id) >>= fun found => match found with
      | some r => readArchive r.archivePath
      | none => throw err : BackupHandler T Bytes).run tr (.ok bytes)) (hw : Behind tr w) :
    Recorded w id bytes := by
  obtain ⟨found, tr₁, tr₂, rfl, hfound, h⟩ := runs_bind_ok.mp h
  obtain ⟨hw₁, hw₂⟩ := behind_append.mp hw
  obtain ⟨e, w₁, rfl, rfl⟩ := runs_select_ok (runs_orInternal_ok hfound)
  cases hrow : w₁.db.runs.get id with
  | none =>
    rw [hrow] at h
    cases h.2
  | some r =>
    rw [hrow] at h
    exact ⟨r, (behind_single.mp hw₁).runs _ _ hrow, runs_readArchive h hw₂⟩

lemma runs_downloadBackup {caller id : Ident} {bytes : Bytes}
    (h : Runs (downloadBackup caller id : BackupHandler T Bytes).run tr (.ok bytes))
    (hw : Behind tr w) : Recorded w id bytes := by
  obtain ⟨tr₁, tr₂, rfl, hrest⟩ := runs_requireAdmin h
  exact runs_lookup hrest (behind_append.mp hw).2

/-- The archive that the body of a restore test names. -/
def Named (w : World T) (body : BackupRestoreRequest) (archive : Bytes) : Prop :=
  body.archiveBase64 = some (some archive) ∨
    body.archiveBase64 = none ∧ ∃ id, body.backupId = some id ∧ Recorded w id archive

lemma runs_resolveArchive {body : BackupRestoreRequest} {archive : Bytes}
    (h : Runs (resolveArchive body : BackupHandler T Bytes).run tr (.ok archive))
    (hw : Behind tr w) : Named w body archive := by
  obtain ⟨backupId, archiveBase64⟩ := body
  cases archiveBase64 with
  | some field =>
    cases field with
    | none => cases h.2
    | some bytes => exact .inl (by rw [Except.ok.inj h.2])
  | none =>
    cases backupId with
    | some id => exact .inr ⟨rfl, id, rfl, runs_lookup h hw⟩
    | none => cases h.2

/-- What a restore test has found, seen from a later state. -/
lemma runs_restoreBackup {caller : Ident} {body : BackupRestoreRequest}
    {out : BackupRestoreResponse} (h : Runs (restoreBackup X caller body).run tr (.ok out))
    (hw : Behind tr w) : ∃ archive key calls scratch outcome, Named w body archive ∧
      Keyed X.settings key w ∧ (runRestoreTest X.aead X.codec X.sqlite calls key archive scratch
        fun _ => none).1 = .ok outcome ∧
      out.status = (if outcome.passed then "success" else "failed") ∧
      out.restoredRecords = outcome.restoredRecords := by
  obtain ⟨tr₀, tr', rfl, hrest⟩ := runs_requireAdmin h
  obtain ⟨archive, tr₁, tr', rfl, harchive, h⟩ := runs_bind_ok.mp hrest
  obtain ⟨key, tr₂, tr', rfl, hkey, h⟩ := runs_bind_ok.mp h
  obtain ⟨outcome, tr₃, tr', rfl, htest, h⟩ := runs_bind_ok.mp h
  obtain ⟨e, tr₄, tr', rfl, -, h⟩ := runs_bind_ok.mp h
  obtain ⟨_, tr₅, tr', rfl, -, h⟩ := runs_bind_ok.mp h
  obtain ⟨-, hw₁, hw₂, -⟩ := by simpa only [behind_append] using hw
  obtain ⟨e', w', -, hr⟩ := runs_atom.mp htest
  refine ⟨archive, key, e'.calls, e'.scratch, outcome, runs_resolveArchive harchive hw₁,
    runs_getOrCreateBackupKey (runs_orInternal_ok hkey) hw₂, ?_, ?_, ?_⟩
  · split at hr
    · next found hfound => rw [hfound, Except.ok.inj hr]
    · cases hr
  · rw [Except.ok.inj h.2]
  · rw [Except.ok.inj h.2]

/-- An archive of the database, made with the key. -/
def Archives (X : Deployment T) (w : World T) (db : Tables T) (archive : Bytes) : Prop :=
  ∃ key nonce createdAt n, Keyed X.settings key w ∧ createArchive X.aead X.codec key nonce
    (X.store.image db) ⟨currentFormatVersion, createdAt, vaultId, n⟩ = .ok archive

lemma runs_recordBackupRun {r : BackupRun} {now : ℤ}
    (h : Runs (recordBackupRun r now : BackupRepo T Unit).run tr (.ok ())) (hw : Behind tr w) :
    w.db.runs.get r.id = some r := by
  obtain ⟨_, tr₁, tr₂, rfl, hins, -⟩ := runs_bind_ok.mp h
  obtain ⟨e, w₁, rfl, hr⟩ := runs_statement_ok hins
  refine (behind_single.mp (behind_append.mp hw).1).runs _ _ ?_
  cases hrow : w₁.db.runs.insert r with
  | none =>
    rw [hrow] at hr
    cases hr
  | some runs =>
    change runs.get r.id = some r
    rw [Table.get_insert hrow, if_pos rfl]

lemma runs_writeArchive {location : String} {archive : Bytes} {written : Ident × ℤ}
    (h : Runs (writeArchive location archive : BackupHandler T (Ident × ℤ)).run tr (.ok written))
    (hw : Behind tr w) : w.archives (location, written.1) = some archive := by
  obtain ⟨e, w₁, rfl, hr⟩ := runs_system h
  refine (behind_single.mp hw).archives _ _ ?_
  rw [← Except.ok.inj hr]
  exact Function.update_self _ _ _

/-- What an export has left, seen from a later state. -/
lemma runs_exportBackup {caller : Ident} {resp : BackupExportResponse}
    (h : Runs (exportBackup X caller).run tr (.ok resp)) (hw : Behind tr w) :
    ∃ snap ∈ tr, snap.name = .vacuumInto ∧ ∃ archive, Archives X w snap.pre.db archive ∧
      Recorded w resp.backupId archive ∧ archive.length = resp.sizeBytes ∧
      X.sha256Hex archive = resp.checksum := by
  obtain ⟨tr₀, tr', rfl, hrest⟩ := runs_requireAdmin h
  obtain ⟨key, tr₁, tr', rfl, hkey, h⟩ := runs_bind_ok.mp hrest
  obtain ⟨location, tr₂, tr', rfl, -, h⟩ := runs_bind_ok.mp h
  obtain ⟨_, tr₃, tr', rfl, -, h⟩ := runs_bind_ok.mp h
  obtain ⟨snapshot, tr₄, tr', rfl, hsnap, h⟩ := runs_bind_ok.mp h
  obtain ⟨n, tr₅, tr', rfl, -, h⟩ := runs_bind_ok.mp h
  obtain ⟨drawn, tr₆, tr', rfl, -, h⟩ := runs_bind_ok.mp h
  obtain ⟨archive, tr₇, tr', rfl, hseal, h⟩ := runs_bind_ok.mp h
  obtain ⟨written, tr₈, tr', rfl, hwritten, h⟩ := runs_bind_ok.mp h
  obtain ⟨_, tr₉, tr', rfl, hrec, hresp⟩ := runs_bind_ok.mp h
  obtain ⟨-, hw₁, -, -, -, -, -, -, hw₈, hw₉, -⟩ := by simpa only [behind_append] using hw
  obtain ⟨e, w₁, rfl, hr⟩ := runs_system hsnap
  obtain rfl : X.store.image w₁.db = snapshot := Except.ok.inj hr
  have hmade : createArchive X.aead X.codec key drawn.nonce (X.store.image w₁.db)
      ⟨currentFormatVersion, drawn.nowRfc3339, vaultId, n⟩ = .ok archive := by
    unfold sealed at hseal
    split at hseal
    · next made hmade => rw [hmade, Except.ok.inj hseal.2]
    · cases hseal.2
  obtain rfl := Except.ok.inj hresp.2
  refine ⟨⟨.vacuumInto, e, w₁, w₁⟩, by simp, rfl, archive, ?_, ?_, rfl, rfl⟩
  · exact ⟨key, _, _, n, runs_getOrCreateBackupKey (runs_orInternal_ok hkey) hw₁, hmade⟩
  · exact ⟨_, runs_recordBackupRun (runs_orInternal_ok hrec) hw₉, runs_writeArchive hwritten hw₈⟩

end Answers

/-! ### Recorded backups restore -/

/-- A restore test of an archive of the database finds it intact, if it can look. -/
lemma restore_archives {calls : Calls} {scratch : Dest} {key : Key32} {db : Tables T}
    {archive : Bytes} {outcome : TestOutcome} (hC : ∀ createdAt, ReadsBack X.codec createdAt)
    (harchive : Archives X w db archive) (hkey : Keyed X.settings key w)
    (h : (runRestoreTest X.aead X.codec X.sqlite calls key archive scratch fun _ => none).1 =
      .ok outcome) : outcome.passed = true ∧ outcome.restoredRecords = X.store.items db := by
  obtain ⟨key', nonce, createdAt, n, hkey', hmade⟩ := harchive
  obtain rfl := hkey.unique hkey'
  have hdec := RestoreTest.decrypt_createArchive (hC createdAt) hmade
  have hfresh : Fresh scratch fun _ => none := ⟨rfl, rfl, rfl, rfl⟩
  by_cases hopen : calls.openTmp = true
  · by_cases hwrites : Writes calls
    · rw [RestoreTest.runRestoreTest_writes hdec rfl hopen hwrites] at h
      obtain ⟨⟨e, hex⟩, -⟩ | ⟨answer, m, -, hanswer, hitems, hex⟩ :=
        RestoreTest.examine_cases X.sqlite calls (X.store.image db) hfresh
      · rw [hex] at h
        cases h
      · rw [X.store.intact] at hanswer
        rw [X.store.counted] at hitems
        rw [hex, ← Option.some.inj hanswer, if_neg (not_not.mpr rfl)] at h
        rw [← Except.ok.inj h]
        exact ⟨rfl, (Option.some.inj hitems).symm⟩
    · obtain ⟨e, bytes, hwrite⟩ : ∃ e bytes, writeSnapshot calls (X.store.image db) scratch
          (fun _ => none) = (.error e, Function.update (fun _ => none) scratch.tmp (some bytes)) :=
        Restore.writeSnapshot_of_not_writes hopen hwrites
      simp [runRestoreTest, hdec, RestoreTest.validateInScratch, hwrite] at h
  · have hwrite : writeSnapshot calls (X.store.image db) scratch (fun _ => none) =
        (.error (.io "open tmp"), fun _ => none) :=
      Restore.writeSnapshot_of_not_openTmp (by simpa using hopen)
    simp [runRestoreTest, hdec, RestoreTest.validateInScratch, hwrite] at h

/-- What the answer to an export stands for: its archive is what downloads of the backup give, and
every restore test of it that is answered finds the items of the database. -/
structure BackedUp (X : Deployment T) (σ : Sys (Req T) (World T) BackupEnv BackupStmt Reply)
    (resp : BackupExportResponse) (db : Tables T) (archive : Bytes) : Prop where
  size : archive.length = resp.sizeBytes
  checksum : X.sha256Hex archive = resp.checksum
  download : ∀ c ∈ σ.calls, ∀ caller bytes, c.req = .downloadBackup caller resp.backupId →
    c.prog.result = some (.archive (.ok bytes)) → bytes = archive
  restore : ∀ c ∈ σ.calls, ∀ caller body out, c.req = .restoreBackup caller body →
    c.prog.result = some (.tested (.ok out)) →
    body.archiveBase64 = some (some archive) ∨
      body.archiveBase64 = none ∧ body.backupId = some resp.backupId →
    out.status = "success" ∧ out.restoredRecords = X.store.items db

/-- **Recorded backups restore.** In every interleaving of exports, downloads, restore tests and
writes of others, where every statement may fail and the first exports race for the key: the
archive of an export that was answered has the size and the hash of the answer, downloads give its
bytes, and a restore test of it that is answered is a success with as many items as the database
had at the snapshot of the export. -/
theorem backups_restore (X : Deployment T) (hC : ∀ createdAt, ReadsBack X.codec createdAt)
    (w : World T) (as : List (Act (Req T) BackupEnv)) :
    ∀ c ∈ (run (code X) (init w) as).calls, ∀ caller resp, c.req = .exportBackup caller →
      c.prog.result = some (.exported (.ok resp)) → ∃ snap ∈ c.trace, snap.name = .vacuumInto ∧
        ∃ archive, BackedUp X (run (code X) (init w) as) resp snap.pre.db archive := by
  have hruns := run_runs (code X) w as
  have hlater := run_later (growing_code (X := X)) Grows.refl (fun _ _ _ => Grows.trans) w as
  generalize run (code X) (init w) as = σ at *
  intro c hc caller resp hreq hres
  have hrun := hruns c hc _ hres
  rw [hreq] at hrun
  obtain ⟨r, hr, hrun⟩ := runs_map.mp hrun
  obtain rfl : r = .ok resp := (Reply.exported.inj hr).symm
  obtain ⟨snap, hsnap, hname, archive, harchive, hrec, hsize, hsum⟩ :=
    runs_exportBackup hrun (hlater c hc)
  refine ⟨snap, hsnap, hname, archive, hsize, hsum, ?_, ?_⟩
  · intro c' hc' caller' bytes hreq' hres'
    have hrun' := hruns c' hc' _ hres'
    rw [hreq'] at hrun'
    obtain ⟨r', hr', hrun'⟩ := runs_map.mp hrun'
    obtain rfl : r' = .ok bytes := (Reply.archive.inj hr').symm
    exact (runs_downloadBackup hrun' (hlater c' hc')).unique hrec
  · intro c' hc' caller' body out hreq' hres' hbody
    have hrun' := hruns c' hc' _ hres'
    rw [hreq'] at hrun'
    obtain ⟨r', hr', hrun'⟩ := runs_map.mp hrun'
    obtain rfl : r' = .ok out := (Reply.tested.inj hr').symm
    obtain ⟨found, key, calls, scratch, outcome, hnamed, hkey, htest, hstatus, hrecords⟩ :=
      runs_restoreBackup hrun' (hlater c' hc')
    have hfound : found = archive := by
      rcases hnamed with hsent | ⟨hnone, id, hid, hrec'⟩
      · rcases hbody with hbody | ⟨hnone, -⟩
        · exact Option.some.inj (Option.some.inj (hsent.symm.trans hbody))
        · cases hsent.symm.trans hnone
      · rcases hbody with hbody | ⟨-, hbody⟩
        · cases hbody.symm.trans hnone
        · obtain rfl := Option.some.inj (hid.symm.trans hbody)
          exact hrec'.unique hrec
    subst hfound
    obtain ⟨hpassed, hitems⟩ := restore_archives hC harchive hkey htest
    exact ⟨by rw [hstatus, hpassed]; rfl, hrecords.trans hitems⟩

/-! ### Two first exports -/

def writeNat (n : ℕ) : Bytes := List.replicate n 0 ++ [1]

def readNat (b : Bytes) : ℕ × Bytes :=
  ((b.takeWhile fun x => x = 0).length, (b.dropWhile fun x => x = 0).tail)

def readChars : ℕ → Bytes → List Char × Bytes
  | 0, b => ([], b)
  | n + 1, b =>
    let c := readNat b
    let rest := readChars n c.2
    (Char.ofNat c.1 :: rest.1, rest.2)

lemma readNat_writeNat (n : ℕ) (rest : Bytes) : readNat (writeNat n ++ rest) = (n, rest) := by
  have hzeros : ∀ b ∈ List.replicate n (0 : UInt8), decide (b = 0) = true := by
    intro b hb
    simpa using (List.mem_replicate.mp hb).2
  rw [readNat, writeNat, List.append_assoc, List.takeWhile_append_of_pos hzeros,
    List.dropWhile_append_of_pos hzeros]
  simp

lemma readChars_write (l : List Char) (rest : Bytes) :
    readChars l.length (l.flatMap (fun c => writeNat c.toNat) ++ rest) = (l, rest) := by
  induction l with
  | nil => rfl
  | cons c l ih =>
    simp only [List.length_cons, List.flatMap_cons, List.append_assoc, readChars, readNat_writeNat,
      ih, Char.ofNat_toNat]

/-- A manifest whose numbers are counted off. -/
def countedCodec : Codec where
  toJson p := writeNat p.manifest.entryCount ++ (writeNat p.manifest.createdAt.length ++
    (p.manifest.createdAt.toList.flatMap (fun c => writeNat c.toNat) ++ p.snapshot.getD []))
  fromJson b :=
    let n := readNat b
    let length := readNat n.2
    let createdAt := readChars length.1 length.2
    some ⟨⟨currentFormatVersion, String.ofList createdAt.1, vaultId, n.1⟩, some createdAt.2⟩

lemma readsBack_countedCodec (createdAt : String) : ReadsBack countedCodec createdAt := by
  intro n snapshot
  have hlen : createdAt.length = createdAt.toList.length := String.length_toList.symm
  simp only [countedCodec, hlen, readNat_writeNat, readChars_write, String.ofList_toList,
    Option.getD_some]

/-- A cipher that writes its key in front of the text. -/
def keyAead : Aead Key32 where
  encrypt key _ _ msg := some (key.1 ++ msg)
  decrypt key _ _ ct := if ct.take 32 = key.1 then some (ct.drop 32) else none
  decrypt_eq_some key _ _ ct msg := by
    simp only [Option.ite_none_right_eq_some, Option.some.injEq]
    constructor
    · rintro ⟨htake, rfl⟩
      rw [← htake, List.take_append_drop]
    · rintro rfl
      exact ⟨List.take_left' key.2, List.drop_left' key.2⟩
  ne_nil key _ _ msg ct h := by
    rw [← Option.some.inj h]
    exact fun hnil => absurd (congrArg List.length hnil) (by simp [key.2])

/-- A server whose other tables are a number of items, without a key of its own. -/
def small : Deployment ℕ where
  settings := ⟨none, none, none, none⟩
  aead := keyAead
  codec := countedCodec
  sqlite := RestoreTest.byteItems
  store := ⟨fun db => db.rest, fun db => List.replicate db.rest 5, fun _ => rfl,
    fun db => by simp [RestoreTest.byteItems]⟩
  sha256Hex _ := ""

/-- Three items; the user 3 is an owner. -/
def threeItems : World ℕ where
  db := ⟨3, ⟨.empty, .empty, .single ⟨10, 3, .owner, 0⟩, .empty, .empty, .empty, .empty, .empty,
    []⟩, none, none, .empty⟩
  archives _ := none
  nextId := 0
  unused _ _ := rfl

def keyOf (b : UInt8) : Key32 := ⟨List.replicate 32 b, List.length_replicate⟩

def tick (b : UInt8) : BackupEnv :=
  ⟨0, "", keyOf b, Archive.zeroNonce, 0, false, none, Restore.sunny, RestoreTest.scratchDb⟩

/-- Two exports find no key, and the second draws one that is refused; an item is deleted, and a
restore test of the first export follows. -/
def firstExports : List (Act (Req ℕ) BackupEnv) :=
  [.call (.exportBackup 3), .call (.exportBackup 3)] ++
    [.exec 0 (tick 1), .exec 0 (tick 1), .exec 1 (tick 2), .exec 1 (tick 2)] ++
    List.replicate 10 (.exec 0 (tick 1)) ++ [.exec 1 (tick 2)] ++
    [.call (.outside 2 threeItems.db.proj), .exec 2 (tick 0)] ++
    .call (.restoreBackup 3 ⟨some 0, none⟩) :: List.replicate 7 (.exec 3 (tick 4))

/-- The export that came second has no key; the archive of the first is restored with the items
of its snapshot. -/
theorem first_export_restores : ∃ c ∈ (run (code small) (init threeItems) firstExports).calls,
    c.prog.result = some (.exported (.ok ⟨0, some 0, 76, "", 0⟩)) ∧
    ∃ c₁ ∈ (run (code small) (init threeItems) firstExports).calls,
      c₁.prog.result = some (.exported (.error (.internal .unique))) ∧
    ∃ c₃ ∈ (run (code small) (init threeItems) firstExports).calls,
      c₃.prog.result = some (.tested (.ok ⟨"success", 0, 3, 0⟩)) ∧
      ∃ snap ∈ c.trace, small.store.items snap.pre.db = 3 := by
  refine ⟨_, List.mem_of_getElem? (i := 0) rfl, by decide +kernel, _,
    List.mem_of_getElem? (i := 1) rfl, by decide +kernel, _, List.mem_of_getElem? (i := 3) rfl,
    by decide +kernel, ?_⟩
  obtain ⟨snap, hsnap, -, archive, hback⟩ := backups_restore small readsBack_countedCodec threeItems
    firstExports _ (List.mem_of_getElem? (i := 0) rfl) 3 ⟨0, some 0, 76, "", 0⟩ rfl
    (by decide +kernel)
  have htested := hback.restore _ (List.mem_of_getElem? (i := 3) rfl) 3 ⟨some 0, none⟩
    ⟨"success", 0, 3, 0⟩ rfl (by decide +kernel) (.inr ⟨rfl, rfl⟩)
  exact ⟨snap, hsnap, htested.2.symm⟩

end Vautr.Backups
