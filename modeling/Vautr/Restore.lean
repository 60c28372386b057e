import Mathlib.Data.List.DropRight
import Vautr.Archive

/-!
Restoring a database from a backup archive (`vautr-backup/src/restore.rs`).

The snapshot is written to a temporary file next to the destination, which is then renamed. The log
files of the destination are removed after that, and the database is validated last. Each call of
the system may fail, and what a failed write has written is any part of the snapshot.
-/

namespace Vautr.Restore

open Vautr.FileStream Vautr.Archive

/-! ### Names of files -/

/-- A name of a file in the directory of the destination. -/
abbrev Name := List Char

/-- `Path::file_stem`. -/
def stem (name : Name) : Name :=
  let upToDot := name.rdropWhile (· ≠ '.')
  if upToDot.length ≤ 1 then name else upToDot.dropLast

def withExtension (name : Name) (ext : String) : Name := stem name ++ '.' :: ext.toList

/-- A name of a database, which is not one that SQLite gives to a log. -/
structure Dest where
  name : Name
  not_wal : ¬ "-wal".toList <:+ name
  not_shm : ¬ "-shm".toList <:+ name

namespace Dest

def tmp (d : Dest) : Name := withExtension d.name "db.tmp"

/-- The log of the database. -/
def wal (d : Dest) : Name := d.name ++ "-wal".toList

/-- The index of its log. -/
def shm (d : Dest) : Name := d.name ++ "-shm".toList

end Dest

/-! ### Archives -/

structure ArchiveMeta where
  formatVersion : ℕ
  createdAt : String
  vaultId : String
  entryCount : ℕ
  deriving DecidableEq

/-- `ArchivePayload`; the snapshot is what its text decodes to. -/
structure ArchivePayload where
  manifest : ArchiveMeta
  snapshot : Option Bytes
  deriving DecidableEq

def ArchiveMeta.verifyFormat (m : ArchiveMeta) : Except ArchiveError Unit :=
  if currentFormatVersion < m.formatVersion then .error (.unsupportedVersion m.formatVersion)
  else .ok ()

/-- The payload in JSON, and what is read from it. -/
structure Codec where
  toJson : ArchivePayload → Bytes
  fromJson : Bytes → Option ArchivePayload

inductive RestoreError
  | archive (e : ArchiveError)
  | payload
  | io (msg : String)
  | database (msg : String)
  deriving DecidableEq

variable {K : Type} (A : Aead K) (C : Codec)

def decryptArchive (key : K) (archive : Bytes) : Except RestoreError ArchivePayload :=
  match openArchive A key archive with
  | .error e => .error (.archive e)
  | .ok plaintext =>
    match C.fromJson plaintext with
    | none => .error .payload
    | some payload =>
      match payload.manifest.verifyFormat with
      | .error e => .error (.archive e)
      | .ok () => .ok payload

/-! ### The file system -/

/-- The files of the directory. -/
abbrev Files := Name → Option Bytes

/-- Which calls of the system succeed: opening the temporary file, writing it (or how many bytes
were written), syncing and renaming it, the `n`th removal of a log, and the calls of the
database. -/
structure Calls where
  openTmp : Bool
  write : Option ℕ
  fsync : Bool
  rename : Bool
  remove : ℕ → Bool
  connect : Bool
  integrity : Bool
  count : Bool

/-- `let _ = std::fs::remove_file(name)`. -/
def removeFile (succeeds : Bool) (name : Name) (f : Files) : Files :=
  if succeeds then Function.update f name none else f

/-- The files after the temporary file was renamed and logs were removed. -/
def installed (calls : Calls) (snapshot : Bytes) (d : Dest) (f : Files) : Files :=
  let f := Function.update (Function.update f d.name (some snapshot)) d.tmp none
  let f := removeFile (calls.remove 0) (withExtension d.name "db-wal") f
  let f := removeFile (calls.remove 1) (withExtension d.name "db-shm") f
  let f := removeFile (calls.remove 2) d.wal f
  removeFile (calls.remove 3) d.shm f

def writeSnapshot (calls : Calls) (snapshot : Bytes) (d : Dest) (f : Files) :
    Except RestoreError Unit × Files :=
  if calls.openTmp = false then (.error (.io "open tmp"), f)
  else
    match calls.write with
    | some n => (.error (.io "write tmp"), Function.update f d.tmp (some (snapshot.take n)))
    | none =>
      if calls.fsync = false then
        (.error (.io "fsync tmp"), Function.update f d.tmp (some snapshot))
      else if calls.rename = false then
        (.error (.io "rename"), Function.update f d.tmp (some snapshot))
      else (.ok (), installed calls snapshot d f)

/-- What SQLite finds in a database with its log, if any: the answer of `PRAGMA integrity_check`,
and the number of rows of `items`; `none` is an error. It leaves the files as they are. -/
structure Sqlite where
  integrityCheck : Option Bytes → Option Bytes → Option String
  countItems : Option Bytes → Option Bytes → Option ℕ

structure RestoreOutcome where
  restoredRecords : ℕ
  manifest : ArchiveMeta
  deriving DecidableEq

variable (Q : Sqlite)

/-- The end of `restore_to_db`: the database is opened, checked and counted. -/
def validate (calls : Calls) (manifest : ArchiveMeta) (d : Dest) (f : Files) :
    Except RestoreError RestoreOutcome :=
  if calls.connect = false then .error (.database "open")
  else if calls.integrity = false then .error (.database "integrity check")
  else
    match Q.integrityCheck (f d.name) (f d.wal) with
    | none => .error (.database "integrity check")
    | some answer =>
      if answer ≠ "ok" then .error (.database "integrity check failed")
      else if calls.count = false then .error (.database "count items")
      else
        match Q.countItems (f d.name) (f d.wal) with
        | none => .error (.database "count items")
        | some n => .ok ⟨n, manifest⟩

def restoreToDb (calls : Calls) (key : K) (archive : Bytes) (d : Dest) (f : Files) :
    Except RestoreError RestoreOutcome × Files :=
  match decryptArchive A C key archive with
  | .error e => (.error e, f)
  | .ok payload =>
    match payload.snapshot with
    | none => (.error (.io "snapshot base64 decode"), f)
    | some snapshot =>
      match writeSnapshot calls snapshot d f with
      | (.error e, f) => (.error e, f)
      | (.ok (), f) => (validate Q calls payload.manifest d f, f)

/-! ### The names differ -/

/-- A name with a suffix is longer. -/
lemma ne_append {name suffix : Name} (h : suffix ≠ []) : name ≠ name ++ suffix := fun he =>
  h (List.append_right_eq_self.mp he.symm)

/-- Names with different ends. -/
lemma ne_of_getLast {a b : Name} (x y : Name) {u v : Char} (h : u ≠ v) (ha : a = x ++ [u])
    (hb : b = y ++ [v]) : a ≠ b := by
  rintro rfl
  exact h (List.append_inj_right' (ha.symm.trans hb) rfl |> List.singleton_injective)

variable (d : Dest)

/-- The temporary file is not the destination: the last dot of a name comes before its extension,
and "db.tmp" has a dot in it. -/
lemma Dest.tmp_ne : d.tmp ≠ d.name := by
  intro h
  unfold Dest.tmp withExtension stem at h
  dsimp only at h
  split at h
  · exact ne_append (by simp) h.symm
  next hlen =>
  generalize hup : d.name.rdropWhile (fun c => decide (c ≠ '.')) = upToDot at h hlen
  have hne : upToDot ≠ [] := by
    rintro rfl
    exact hlen (by simp)
  have hsplit : upToDot ++ d.name.rtakeWhile (fun c => decide (c ≠ '.')) = d.name := by
    rw [← hup]
    exact List.rdropWhile_append_rtakeWhile
  have hlast : upToDot.getLast hne = '.' := by
    subst hup
    simpa using List.rdropWhile_last_not (fun c => decide (c ≠ '.')) d.name hne
  rw [← List.dropLast_append_getLast hne, hlast, List.append_assoc] at hsplit
  have hext : '.' :: "db.tmp".toList = '.' :: d.name.rtakeWhile (fun c => decide (c ≠ '.')) :=
    List.append_cancel_left (h.trans hsplit.symm)
  have hmem : '.' ∈ d.name.rtakeWhile (fun c => decide (c ≠ '.')) := by
    rw [← (List.cons.inj hext).2]
    decide
  simpa using List.mem_rtakeWhile_imp hmem

lemma Dest.wal_ne : d.wal ≠ d.name := (ne_append (by decide)).symm

lemma Dest.shm_ne : d.shm ≠ d.name := (ne_append (by decide)).symm

lemma Dest.wal_ne_shm : d.wal ≠ d.shm :=
  ne_of_getLast (d.name ++ "-wa".toList) (d.name ++ "-sh".toList) (by decide : 'l' ≠ 'm')
    (by simp [Dest.wal]) (by simp [Dest.shm])

/-- A name that ends in another way than the temporary file. -/
lemma Dest.tmp_ne_of_end {a : Name} (x : Name) {u : Char} (h : 'p' ≠ u) (ha : a = x ++ [u]) :
    d.tmp ≠ a :=
  ne_of_getLast (stem d.name ++ ".db.tm".toList) x h (by simp [Dest.tmp, withExtension]) ha

lemma Dest.tmp_ne_wal : d.tmp ≠ d.wal :=
  d.tmp_ne_of_end (d.name ++ "-wa".toList) (by decide : 'p' ≠ 'l') (by simp [Dest.wal])

lemma Dest.tmp_ne_shm : d.tmp ≠ d.shm :=
  d.tmp_ne_of_end (d.name ++ "-sh".toList) (by decide : 'p' ≠ 'm') (by simp [Dest.shm])

/-- The names that are made of the stem of the destination. -/
lemma Dest.withExtension_ne :
    withExtension d.name "db-wal" ≠ d.name ∧ withExtension d.name "db-shm" ≠ d.name ∧
      withExtension d.name "db-wal" ≠ d.shm ∧ withExtension d.name "db-shm" ≠ d.wal := by
  have hwal : withExtension d.name "db-wal" = stem d.name ++ ".db-wa".toList ++ ['l'] := by
    simp [withExtension]
  have hshm : withExtension d.name "db-shm" = stem d.name ++ ".db-sh".toList ++ ['m'] := by
    simp [withExtension]
  refine ⟨fun h => d.not_wal ?_, fun h => d.not_shm ?_, ?_, ?_⟩
  · rw [← h]
    exact ⟨stem d.name ++ ".db".toList, by simp [withExtension]⟩
  · rw [← h]
    exact ⟨stem d.name ++ ".db".toList, by simp [withExtension]⟩
  · exact ne_of_getLast _ (d.name ++ "-sh".toList) (by decide : 'l' ≠ 'm') hwal
      (by simp [Dest.shm])
  · exact ne_of_getLast _ (d.name ++ "-wa".toList) (by decide : 'm' ≠ 'l') hshm
      (by simp [Dest.wal])

/-! ### What is installed -/

/-- One of the two removals of the log hits it. -/
def removesWal (calls : Calls) (d : Dest) : Bool :=
  calls.remove 2 || (withExtension d.name "db-wal" = d.wal && calls.remove 0)

/-- One of the two removals of the index hits it. -/
def removesShm (calls : Calls) (d : Dest) : Bool :=
  calls.remove 3 || (withExtension d.name "db-shm" = d.shm && calls.remove 1)

variable {d} {calls : Calls} {snapshot : Bytes} {f : Files}

lemma removeFile_apply (succeeds : Bool) (name q : Name) :
    removeFile succeeds name f q = if succeeds = true ∧ q = name then none else f q := by
  cases succeeds with
  | false => simp [removeFile]
  | true => simp [removeFile, Function.update_apply]

lemma installed_name : installed calls snapshot d f d.name = some snapshot := by
  obtain ⟨h₀, h₁, -, -⟩ := d.withExtension_ne
  simp [installed, removeFile_apply, d.wal_ne.symm, d.shm_ne.symm, h₀.symm, h₁.symm,
    d.tmp_ne.symm]

lemma installed_wal : installed calls snapshot d f d.wal =
    if removesWal calls d then none else f d.wal := by
  obtain ⟨-, -, -, h₃⟩ := d.withExtension_ne
  simp only [installed, removeFile_apply, d.wal_ne_shm, h₃.symm, Function.update_apply,
    d.tmp_ne_wal.symm, d.wal_ne, and_false, if_false, and_true, removesWal, eq_comm (a := d.wal)]
  by_cases h₂ : calls.remove 2 = true <;> by_cases h₀ : calls.remove 0 = true <;> simp [h₂, h₀]

lemma installed_shm : installed calls snapshot d f d.shm =
    if removesShm calls d then none else f d.shm := by
  obtain ⟨-, -, h₂, -⟩ := d.withExtension_ne
  simp only [installed, removeFile_apply, d.wal_ne_shm.symm, h₂.symm, Function.update_apply,
    d.tmp_ne_shm.symm, d.shm_ne, and_false, if_false, and_true, removesShm, eq_comm (a := d.shm)]
  by_cases h₃ : calls.remove 3 = true <;> by_cases h₁ : calls.remove 1 = true <;> simp [h₃, h₁]

lemma installed_tmp : installed calls snapshot d f d.tmp = none := by
  simp [installed, removeFile_apply]

/-! ### When a restore is atomic -/

/-- The temporary file is written as a whole, and renamed. -/
def Writes (calls : Calls) : Prop :=
  calls.write = none ∧ calls.fsync = true ∧ calls.rename = true

/-- The database is opened, intact, and has items. -/
def Validates (Q : Sqlite) (calls : Calls) (db wal : Option Bytes) : Prop :=
  calls.connect = true ∧ calls.integrity = true ∧ Q.integrityCheck db wal = some "ok" ∧
    calls.count = true ∧ (Q.countItems db wal).isSome = true

/-- Destination and logs are as before, and there is no temporary file. -/
structure Unchanged (d : Dest) (f f' : Files) : Prop where
  name : f' d.name = f d.name
  wal : f' d.wal = f d.wal
  shm : f' d.shm = f d.shm
  tmp : f' d.tmp = none

/-- The destination is the snapshot, and has no log. -/
structure Restored (snapshot : Bytes) (d : Dest) (f' : Files) : Prop where
  name : f' d.name = some snapshot
  wal : f' d.wal = none
  shm : f' d.shm = none

/-- The archive is opened, and this snapshot is in it. -/
def Opens (A : Aead K) (C : Codec) (key : K) (archive snapshot : Bytes) : Prop :=
  ∃ payload, decryptArchive A C key archive = .ok payload ∧ payload.snapshot = some snapshot

/-- An error changes nothing, and a success restores the snapshot of the archive. -/
def AllOrNothing (A : Aead K) (C : Codec) (key : K) (archive : Bytes) (d : Dest) (f : Files)
    (outcome : Except RestoreError RestoreOutcome × Files) : Prop :=
  match outcome.1 with
  | .error _ => Unchanged d f outcome.2
  | .ok _ => ∃ snapshot, Opens A C key archive snapshot ∧ Restored snapshot d outcome.2

lemma writeSnapshot_of_not_openTmp (h : calls.openTmp = false) :
    writeSnapshot calls snapshot d f = (.error (.io "open tmp"), f) := if_pos h

/-- Once the temporary file is there, every error leaves it. -/
lemma writeSnapshot_of_not_writes (h : calls.openTmp = true) (hw : ¬ Writes calls) :
    ∃ e bytes, writeSnapshot calls snapshot d f =
      (.error e, Function.update f d.tmp (some bytes)) := by
  unfold writeSnapshot
  rw [if_neg (by simp [h])]
  cases hwrite : calls.write with
  | some n => exact ⟨_, _, rfl⟩
  | none =>
    by_cases hsync : calls.fsync = false
    · exact ⟨_, _, if_pos hsync⟩
    · by_cases hrename : calls.rename = false
      · exact ⟨_, _, (if_neg hsync).trans (if_pos hrename)⟩
      · exact absurd ⟨hwrite, by simpa using hsync, by simpa using hrename⟩ hw

lemma writeSnapshot_of_writes (h : calls.openTmp = true) (hw : Writes calls) :
    writeSnapshot calls snapshot d f = (.ok (), installed calls snapshot d f) := by
  obtain ⟨hwrite, hsync, hrename⟩ := hw
  simp [writeSnapshot, h, hwrite, hsync, hrename]

/-- The validation succeeds exactly if the database validates. -/
lemma validate_cases (Q : Sqlite) (calls : Calls) (manifest : ArchiveMeta) (d : Dest) (f : Files) :
    (∃ outcome, validate Q calls manifest d f = .ok outcome) ∧
        Validates Q calls (f d.name) (f d.wal) ∨
      (∃ e, validate Q calls manifest d f = .error e) ∧
        ¬ Validates Q calls (f d.name) (f d.wal) := by
  unfold validate Validates
  by_cases hconnect : calls.connect = false
  · exact .inr ⟨⟨_, if_pos hconnect⟩, by simp [hconnect]⟩
  rw [if_neg hconnect]
  by_cases hint : calls.integrity = false
  · exact .inr ⟨⟨_, if_pos hint⟩, by simp [hint]⟩
  rw [if_neg hint]
  cases hanswer : Q.integrityCheck (f d.name) (f d.wal) with
  | none => exact .inr ⟨⟨_, rfl⟩, by simp⟩
  | some answer =>
    dsimp only
    by_cases hok : answer ≠ "ok"
    · exact .inr ⟨⟨_, if_pos hok⟩, by simp [hok]⟩
    rw [if_neg hok]
    by_cases hcount : calls.count = false
    · exact .inr ⟨⟨_, if_pos hcount⟩, by simp [hcount]⟩
    rw [if_neg hcount]
    cases hitems : Q.countItems (f d.name) (f d.wal) with
    | none => exact .inr ⟨⟨_, rfl⟩, by simp⟩
    | some n =>
      exact .inl ⟨⟨_, rfl⟩, by simpa using hconnect, by simpa using hint,
        congrArg some (not_not.mp hok), by simpa using hcount, rfl⟩

/-- The log that is left to a restored database. -/
def leftWal (calls : Calls) (d : Dest) (f : Files) : Option Bytes :=
  if removesWal calls d then none else f d.wal

/-- Every log that is there is removed. -/
def RemovesLogs (calls : Calls) (d : Dest) (f : Files) : Prop :=
  (f d.wal = none ∨ removesWal calls d = true) ∧ (f d.shm = none ∨ removesShm calls d = true)

/-- No log that is there is removed. -/
def KeepsLogs (calls : Calls) (d : Dest) (f : Files) : Prop :=
  (f d.wal = none ∨ removesWal calls d = false) ∧ (f d.shm = none ∨ removesShm calls d = false)

lemma restored_installed_iff :
    Restored snapshot d (installed calls snapshot d f) ↔ RemovesLogs calls d f := by
  constructor
  · rintro ⟨-, hwal, hshm⟩
    rw [installed_wal] at hwal
    rw [installed_shm] at hshm
    refine ⟨?_, ?_⟩
    · by_cases h : removesWal calls d = true
      · exact .inr h
      · exact .inl (by rwa [if_neg h] at hwal)
    · by_cases h : removesShm calls d = true
      · exact .inr h
      · exact .inl (by rwa [if_neg h] at hshm)
  · rintro ⟨hwal, hshm⟩
    refine ⟨installed_name, ?_, ?_⟩
    · rw [installed_wal]
      rcases hwal with h | h <;> simp [h]
    · rw [installed_shm]
      rcases hshm with h | h <;> simp [h]

lemma unchanged_installed_iff :
    Unchanged d f (installed calls snapshot d f) ↔
      f d.name = some snapshot ∧ KeepsLogs calls d f := by
  have hpart : ∀ {b : Bool} {o : Option Bytes},
      (if b then none else o) = o ↔ o = none ∨ b = false := by
    intro b o
    cases b with
    | false => simp
    | true => simp [eq_comm]
  constructor
  · rintro ⟨hname, hwal, hshm, -⟩
    rw [installed_name] at hname
    rw [installed_wal] at hwal
    rw [installed_shm] at hshm
    exact ⟨hname.symm, hpart.mp hwal, hpart.mp hshm⟩
  · rintro ⟨hname, hwal, hshm⟩
    refine ⟨installed_name.trans hname.symm, ?_, ?_, installed_tmp⟩
    · rw [installed_wal]
      exact hpart.mpr hwal
    · rw [installed_shm]
      exact hpart.mpr hshm

/-- Nothing was done. -/
lemma unchanged_self_iff : Unchanged d f f ↔ f d.tmp = none :=
  ⟨Unchanged.tmp, fun htmp => ⟨rfl, rfl, rfl, htmp⟩⟩

/-- A temporary file that was written is left. -/
lemma not_unchanged_tmp {bytes : Bytes} :
    ¬ Unchanged d f (Function.update f d.tmp (some bytes)) := by
  intro h
  have htmp := h.tmp
  simp at htmp

/-- The restore ends before it touches a file: the archive does not open, or the temporary file
cannot be created. -/
def Stops (A : Aead K) (C : Codec) (calls : Calls) (key : K) (archive : Bytes) : Prop :=
  calls.openTmp = false ∨ ∀ snapshot, ¬ Opens A C key archive snapshot

/-- The temporary file is written and renamed; if the database then validates, the logs are
removed; and if it does not, it is what was there before, and no log is removed. -/
structure Safe (Q : Sqlite) (calls : Calls) (snapshot : Bytes) (d : Dest) (f : Files) : Prop where
  writes : Writes calls
  valid : Validates Q calls (some snapshot) (leftWal calls d f) → RemovesLogs calls d f
  invalid : ¬ Validates Q calls (some snapshot) (leftWal calls d f) →
    f d.name = some snapshot ∧ KeepsLogs calls d f

variable {A : Aead K} {C : Codec} {Q : Sqlite} {key : K} {archive : Bytes}

/-- An archive has at most one snapshot. -/
lemma Opens.unique {snapshot' : Bytes} (h : Opens A C key archive snapshot)
    (h' : Opens A C key archive snapshot') : snapshot' = snapshot := by
  obtain ⟨payload, hdec, hsnap⟩ := h
  obtain ⟨payload', hdec', hsnap'⟩ := h'
  rw [hdec] at hdec'
  cases hdec'
  exact Option.some.inj (hsnap'.symm.trans hsnap)

/-- An archive that opens, after the temporary file was created. -/
lemma allOrNothing_iff_safe (h : Opens A C key archive snapshot) (hopen : calls.openTmp = true) :
    AllOrNothing A C key archive d f (restoreToDb A C Q calls key archive d f) ↔
      Safe Q calls snapshot d f := by
  obtain ⟨payload, hdec, hsnap⟩ := id h
  simp only [restoreToDb, hdec, hsnap]
  by_cases hw : Writes calls
  · rw [writeSnapshot_of_writes hopen hw]
    have hval := validate_cases Q calls payload.manifest d (installed calls snapshot d f)
    rw [installed_name, installed_wal, ← leftWal] at hval
    obtain ⟨⟨outcome, hok⟩, hvalid⟩ | ⟨⟨e, herr⟩, hinvalid⟩ := hval
    · simp only [AllOrNothing, hok]
      constructor
      · rintro ⟨snapshot', hopens', hrestored⟩
        obtain rfl := h.unique hopens'
        exact ⟨hw, fun _ => restored_installed_iff.mp hrestored, fun hn => absurd hvalid hn⟩
      · intro hsafe
        exact ⟨snapshot, h, restored_installed_iff.mpr (hsafe.valid hvalid)⟩
    · simp only [AllOrNothing, herr]
      rw [unchanged_installed_iff]
      constructor
      · exact fun hkept => ⟨hw, fun hv => absurd hv hinvalid, fun _ => hkept⟩
      · exact fun hsafe => hsafe.invalid hinvalid
  · obtain ⟨e, bytes, hwrite⟩ : ∃ e bytes, writeSnapshot calls snapshot d f =
        (.error e, Function.update f d.tmp (some bytes)) := writeSnapshot_of_not_writes hopen hw
    rw [hwrite]
    exact iff_of_false not_unchanged_tmp fun hsafe => hw hsafe.writes

/-- A restore that ends before it touches a file is an error that leaves the files. -/
lemma restoreToDb_of_stops (h : Stops A C calls key archive) :
    ∃ e, restoreToDb A C Q calls key archive d f = (.error e, f) := by
  unfold restoreToDb
  cases hdec : decryptArchive A C key archive with
  | error e => exact ⟨e, rfl⟩
  | ok payload =>
    dsimp only
    cases hsnap : payload.snapshot with
    | none => exact ⟨_, rfl⟩
    | some snapshot =>
      obtain htmp | hnone := h
      · exact ⟨.io "open tmp", by simp only [writeSnapshot_of_not_openTmp htmp]⟩
      · exact absurd ⟨payload, hdec, hsnap⟩ (hnone snapshot)

/-- **When a restore is atomic.** For every key, archive and destination, and whatever calls fail, a
restore leaves the destination as it was and no temporary file, or restores the snapshot without a
log, exactly if there was no temporary file before one that stops, and any other is safe. -/
theorem restore_atomic_iff (A : Aead K) (C : Codec) (Q : Sqlite) (calls : Calls) (key : K)
    (archive : Bytes) (d : Dest) (f : Files) :
    AllOrNothing A C key archive d f (restoreToDb A C Q calls key archive d f) ↔
      (Stops A C calls key archive → f d.tmp = none) ∧
        ∀ snapshot, Opens A C key archive snapshot → calls.openTmp = true →
          Safe Q calls snapshot d f := by
  by_cases hstops : Stops A C calls key archive
  · obtain ⟨e, hres⟩ : ∃ e, restoreToDb A C Q calls key archive d f = (.error e, f) :=
      restoreToDb_of_stops hstops
    rw [hres]
    refine unchanged_self_iff.trans ⟨fun htmp => ⟨fun _ => htmp, fun snapshot hopens hopen => ?_⟩,
      fun h => h.1 hstops⟩
    obtain hopen' | hnone := hstops
    · rw [hopen] at hopen'
      cases hopen'
    · exact absurd hopens (hnone snapshot)
  · simp only [Stops, not_or, not_forall, not_not, Bool.not_eq_false] at hstops
    obtain ⟨hopen, snapshot, hopens⟩ := hstops
    rw [allOrNothing_iff_safe hopens hopen]
    refine ⟨fun hsafe => ⟨?_, fun snapshot' hopens' _ => ?_⟩, fun h => h.2 snapshot hopens hopen⟩
    · rintro (hopen' | hnone)
      · rw [hopen] at hopen'
        cases hopen'
      · exact absurd hopens (hnone snapshot)
    · rwa [hopens.unique hopens']

/-! ### A snapshot that is not a vault -/

/-- A payload of the main vault as the number of its items and its snapshot. -/
def plainCodec : Codec where
  toJson p := List.replicate p.manifest.entryCount 0 ++ 1 :: p.snapshot.getD []
  fromJson b :=
    match b.dropWhile (· = 0) with
    | 1 :: snapshot =>
      some ⟨⟨1, "", "vautr-main-vault", (b.takeWhile (· = 0)).length⟩, some snapshot⟩
    | _ => none

/-- Every call succeeds. -/
def sunny : Calls := ⟨true, none, true, true, fun _ => true, true, true, true⟩

/-- SQLite on short files: one of at most one byte is a database without tables, and no other is a
database. -/
def shortFiles : Sqlite where
  integrityCheck db _ := if db.all (·.length ≤ 1) then some "ok" else none
  countItems _ _ := none

def vaultDb : Dest := ⟨"vault.db".toList, by decide, by decide⟩

/-- A database of two bytes, without a log. -/
def twoBytes : Files := fun name => if name = vaultDb.name then some [5, 5] else none

/-- An archive with the snapshot `[9]`. -/
def nineArchive : Bytes :=
  magic ++ beBytes 4 1 ++ zeroNonce.1 ++ (List.replicate 16 7 ++ [1, 9])

/-- The snapshot has no items table, so the restore fails; but the database is gone. -/
theorem tableless_snapshot_replaces :
    (restoreToDb plainAead plainCodec shortFiles sunny 7 nineArchive vaultDb twoBytes).1 =
        .error (.database "count items") ∧
      (restoreToDb plainAead plainCodec shortFiles sunny 7 nineArchive vaultDb
        twoBytes).2 vaultDb.name = some [9] ∧
      ¬ AllOrNothing plainAead plainCodec 7 nineArchive vaultDb twoBytes
        (restoreToDb plainAead plainCodec shortFiles sunny 7 nineArchive vaultDb twoBytes) := by
  have hresult : (restoreToDb plainAead plainCodec shortFiles sunny 7 nineArchive vaultDb
      twoBytes).1 = .error (.database "count items") := by decide +kernel
  have hname : (restoreToDb plainAead plainCodec shortFiles sunny 7 nineArchive vaultDb
      twoBytes).2 vaultDb.name = some [9] := by decide +kernel
  refine ⟨hresult, hname, fun h => ?_⟩
  rw [AllOrNothing, hresult] at h
  have hkept := h.name
  rw [hname] at hkept
  exact absurd hkept (by decide)

end Vautr.Restore
