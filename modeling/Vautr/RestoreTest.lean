import Vautr.Executions
import Vautr.Restore

/-!
The restore test (`vautr-backup/src/restore_test.rs`), and the archives that an export makes
(`vautr-backup/src/backup.rs`, `handlers/backup.rs`).

The test restores the snapshot of an archive to a scratch file, looks at it and removes it. An
export takes the snapshot in one statement and counts the items in another, and other requests may
write in between.
-/

namespace Vautr.RestoreTest

open Vautr.Atomic Vautr.Database Vautr.Api Vautr.Executions Vautr.FileStream Vautr.Archive
open Vautr.Restore

/-! ### The test -/

/-- What the text `detail` says. -/
inductive Detail
  | notDecrypted (e : RestoreError)
  | snapshotCorrupt
  | integrityReported (answer : String)
  | validated
  deriving DecidableEq

/-- `RestoreTestOutcome`. -/
structure TestOutcome where
  passed : Bool
  restoredRecords : ℕ
  manifest : Option ArchiveMeta
  detail : Detail
  deriving DecidableEq

/-- `RestoreTestError`; the code gives no other one. -/
inductive TestError
  | setup (msg : String)
  deriving DecidableEq

variable {K : Type} (A : Aead K) (C : Codec) (Q : Sqlite)

/-- What the test asks the scratch database. -/
def examine (calls : Calls) (scratch : Dest) (f : Files) : Except TestError TestOutcome :=
  if calls.connect = false then .error (.setup "open scratch")
  else if calls.integrity = false then .error (.setup "integrity check")
  else
    match Q.integrityCheck (f scratch.name) (f scratch.wal) with
    | none => .error (.setup "integrity check")
    | some answer =>
      if calls.count = false then .error (.setup "count items")
      else
        match Q.countItems (f scratch.name) (f scratch.wal) with
        | none => .error (.setup "count items")
        | some n =>
          if answer ≠ "ok" then .ok ⟨false, n, none, .integrityReported answer⟩
          else .ok ⟨true, n, none, .validated⟩

def validateInScratch (calls : Calls) (snapshot : Option Bytes) (scratch : Dest) (f : Files) :
    Except TestError TestOutcome × Files :=
  match snapshot with
  | none => (.ok ⟨false, 0, none, .snapshotCorrupt⟩, f)
  | some snapshot =>
    match writeSnapshot calls snapshot scratch f with
    | (.error _, f) => (.error (.setup "write scratch DB"), f)
    | (.ok (), f) => (examine Q calls scratch f, f)

def runRestoreTest (calls : Calls) (key : K) (archive : Bytes) (scratch : Dest) (f : Files) :
    Except TestError TestOutcome × Files :=
  match decryptArchive A C key archive with
  | .error e => (.ok ⟨false, 0, none, .notDecrypted e⟩, f)
  | .ok payload =>
    match validateInScratch Q calls payload.snapshot scratch f with
    | (.error e, f) => (.error e, f)
    | (.ok outcome, f) =>
      (.ok { outcome with manifest := some payload.manifest },
        removeFile (calls.remove 4) scratch.name f)

/-! ### Exports -/

inductive BackupError
  | archive (msg : String)
  deriving DecidableEq

/-- `create_archive`, with the nonce that was drawn. -/
def createArchive (key : K) (nonce : Nonce) (snapshot : Bytes) (m : ArchiveMeta) :
    Except BackupError Bytes :=
  match m.verifyFormat with
  | .error _ => .error (.archive "unsupported format")
  | .ok () =>
    match sealArchive A key nonce (C.toJson ⟨m, some snapshot⟩) with
    | .error _ => .error (.archive "sealing failed")
    | .ok archive => .ok archive

/-- The database of the server: how many items it has, and the copy that `VACUUM INTO` makes, which
is intact and has the same items. -/
structure Store (S : Type) (Q : Sqlite) where
  items : S → ℕ
  image : S → Bytes
  intact : ∀ s, Q.integrityCheck (some (image s)) none = some "ok"
  counted : ∀ s, Q.countItems (some (image s)) none = some (items s)

def vaultId : String := "vautr-main-vault"

structure ExportEnv where
  fault : Bool

instance : Faulty ExportEnv := ⟨ExportEnv.fault⟩

inductive ExportStmt
  | vacuumInto
  | countItems
  deriving DecidableEq

variable {S : Type} {Q} (V : Store S Q)

/-- `export_backup`, from the snapshot to the archive. -/
def exportBackup (key : K) (nonce : Nonce) (createdAt : String) :
    Handler S ExportEnv ExportStmt Bytes := do
  let snapshot ← orInternal (select .vacuumInto V.image)
  let entryCount ← orInternal (select .countItems V.items)
  match createArchive A C key nonce snapshot ⟨currentFormatVersion, createdAt, vaultId, entryCount⟩
    with
  | .error (.archive msg) => throw (.internalText msg)
  | .ok archive => return archive

/-! ### What the test promises -/

/-- The archive opens, and its snapshot is an intact database with as many items as the manifest
says. -/
def Intact (A : Aead K) (C : Codec) (Q : Sqlite) (key : K) (archive : Bytes) : Prop :=
  ∃ payload snapshot, decryptArchive A C key archive = .ok payload ∧
    payload.snapshot = some snapshot ∧ Q.integrityCheck (some snapshot) none = some "ok" ∧
    Q.countItems (some snapshot) none = some payload.manifest.entryCount

/-- No call of the system fails. -/
def Calm (calls : Calls) : Prop :=
  calls.openTmp = true ∧ Writes calls ∧ calls.connect = true ∧ calls.integrity = true ∧
    calls.count = true

/-- No file of the scratch database is there. -/
structure Fresh (scratch : Dest) (f : Files) : Prop where
  name : f scratch.name = none
  tmp : f scratch.tmp = none
  wal : f scratch.wal = none
  shm : f scratch.shm = none

/-- What passes is intact, what is not intact fails the test, and no scratch file remains. -/
structure Verdict (A : Aead K) (C : Codec) (Q : Sqlite) (calls : Calls) (key : K) (archive : Bytes)
    (scratch : Dest) (outcome : Except TestError TestOutcome × Files) : Prop where
  sound : ∀ o, outcome.1 = .ok o → o.passed = true → Intact A C Q key archive
  complete : Calm calls → ¬ Intact A C Q key archive → ∃ o, outcome.1 = .ok o ∧ o.passed = false
  clean : Fresh scratch outcome.2

/-- Every question to the scratch database is answered, it can be removed, and if it is intact the
number of its items is that of the manifest. -/
structure Answered (Q : Sqlite) (calls : Calls) (snapshot : Bytes) (m : ArchiveMeta) : Prop where
  writes : Writes calls
  connect : calls.connect = true
  integrity : calls.integrity = true
  count : calls.count = true
  remove : calls.remove 4 = true
  answers : ∃ answer n, Q.integrityCheck (some snapshot) none = some answer ∧
    Q.countItems (some snapshot) none = some n ∧ (answer = "ok" → n = m.entryCount)

section Test

variable {A : Aead K} {C : Codec} {calls : Calls} {key : K} {archive snapshot : Bytes}
  {scratch : Dest} {f : Files} {payload : ArchivePayload}

lemma not_fresh_of_name {bytes : Bytes} {f' : Files} (h : f' scratch.name = some bytes) :
    ¬ Fresh scratch f' := fun hf => by
  have := hf.name
  rw [h] at this
  cases this

lemma installed_fresh (hf : Fresh scratch f) :
    installed calls snapshot scratch f scratch.wal = none ∧
      installed calls snapshot scratch f scratch.shm = none := by
  rw [installed_wal, installed_shm, hf.wal, hf.shm]
  exact ⟨by split <;> rfl, by split <;> rfl⟩

lemma fresh_removed (hf : Fresh scratch f) :
    Fresh scratch (removeFile true scratch.name (installed calls snapshot scratch f)) := by
  obtain ⟨hwal, hshm⟩ : installed calls snapshot scratch f scratch.wal = none ∧
      installed calls snapshot scratch f scratch.shm = none := installed_fresh hf
  refine ⟨?_, ?_, ?_, ?_⟩
  · simp [removeFile_apply]
  · simp [removeFile_apply, scratch.tmp_ne, installed_tmp]
  · simp [removeFile_apply, scratch.wal_ne, hwal]
  · simp [removeFile_apply, scratch.shm_ne, hshm]

lemma runRestoreTest_writes (hdec : decryptArchive A C key archive = .ok payload)
    (hsnap : payload.snapshot = some snapshot) (hopen : calls.openTmp = true)
    (hw : Writes calls) : runRestoreTest A C Q calls key archive scratch f =
      match examine Q calls scratch (installed calls snapshot scratch f) with
      | .error e => (.error e, installed calls snapshot scratch f)
      | .ok o => (.ok { o with manifest := some payload.manifest },
          removeFile (calls.remove 4) scratch.name (installed calls snapshot scratch f)) := by
  simp only [runRestoreTest, hdec, validateInScratch, hsnap, writeSnapshot_of_writes hopen hw]
  cases examine Q calls scratch (installed calls snapshot scratch f) with
  | error e => rfl
  | ok o => rfl

/-- An examination either asks everything or is an error. -/
lemma examine_cases (Q : Sqlite) (calls : Calls) (snapshot : Bytes) (hf : Fresh scratch f) :
    (∃ e, examine Q calls scratch (installed calls snapshot scratch f) = .error e) ∧
        ¬ (calls.connect = true ∧ calls.integrity = true ∧ calls.count = true ∧
          (Q.integrityCheck (some snapshot) none).isSome = true ∧
          (Q.countItems (some snapshot) none).isSome = true) ∨
      ∃ answer n, (calls.connect = true ∧ calls.integrity = true ∧ calls.count = true) ∧
        Q.integrityCheck (some snapshot) none = some answer ∧
        Q.countItems (some snapshot) none = some n ∧
        examine Q calls scratch (installed calls snapshot scratch f) =
          if answer ≠ "ok" then .ok ⟨false, n, none, .integrityReported answer⟩
          else .ok ⟨true, n, none, .validated⟩ := by
  unfold examine
  rw [installed_name, (installed_fresh hf).1]
  by_cases hconnect : calls.connect = false
  · exact .inl ⟨⟨_, if_pos hconnect⟩, by simp [hconnect]⟩
  rw [if_neg hconnect]
  by_cases hint : calls.integrity = false
  · exact .inl ⟨⟨_, if_pos hint⟩, by simp [hint]⟩
  rw [if_neg hint]
  cases hanswer : Q.integrityCheck (some snapshot) none with
  | none => exact .inl ⟨⟨_, rfl⟩, by simp⟩
  | some answer =>
    dsimp only
    by_cases hcount : calls.count = false
    · exact .inl ⟨⟨_, if_pos hcount⟩, by simp [hcount]⟩
    rw [if_neg hcount]
    cases hitems : Q.countItems (some snapshot) none with
    | none => exact .inl ⟨⟨_, rfl⟩, by simp⟩
    | some n =>
      exact .inr ⟨answer, n, ⟨by simpa using hconnect, by simpa using hint, by simpa using hcount⟩,
        rfl, rfl, rfl⟩

lemma backupIntact_iff (hdec : decryptArchive A C key archive = .ok payload)
    (hsnap : payload.snapshot = some snapshot) : Intact A C Q key archive ↔
      Q.integrityCheck (some snapshot) none = some "ok" ∧
        Q.countItems (some snapshot) none = some payload.manifest.entryCount := by
  constructor
  · rintro ⟨payload', snapshot', hdec', hsnap', hok⟩
    rw [hdec] at hdec'
    cases hdec'
    rw [hsnap] at hsnap'
    cases hsnap'
    exact hok
  · exact fun h => ⟨payload, snapshot, hdec, hsnap, h⟩

/-- The scratch database is left exactly if it cannot be removed. -/
lemma fresh_removeFile_iff (hf : Fresh scratch f) :
    Fresh scratch (removeFile (calls.remove 4) scratch.name
      (installed calls snapshot scratch f)) ↔ calls.remove 4 = true := by
  cases hremove : calls.remove 4 with
  | true => exact iff_of_true (fresh_removed hf) rfl
  | false => exact iff_of_false (not_fresh_of_name installed_name) Bool.false_ne_true

/-- The verdict on an archive that opens. -/
lemma verdict_iff_answered (hf : Fresh scratch f)
    (hdec : decryptArchive A C key archive = .ok payload)
    (hsnap : payload.snapshot = some snapshot) (hopen : calls.openTmp = true) :
    Verdict A C Q calls key archive scratch (runRestoreTest A C Q calls key archive scratch f) ↔
      Answered Q calls snapshot payload.manifest := by
  have hintact := backupIntact_iff (Q := Q) hdec hsnap
  by_cases hw : Writes calls
  · rw [runRestoreTest_writes hdec hsnap hopen hw]
    obtain ⟨⟨e, hex⟩, hasked⟩ | ⟨answer, n, ⟨hconnect, hint, hcount⟩, hanswer, hitems, hex⟩ :=
      examine_cases Q calls snapshot hf
    · rw [hex]
      -- a question is not answered: the scratch database stays
      refine iff_of_false (fun hv => not_fresh_of_name installed_name hv.clean) fun hasks => ?_
      obtain ⟨answer, n, hanswer, hitems, -⟩ := hasks.answers
      exact hasked ⟨hasks.connect, hasks.integrity, hasks.count, by simp [hanswer],
        by simp [hitems]⟩
    · -- all are answered: it is removed, and the verdict is on the answers
      have hcalm : Calm calls := ⟨hopen, hw, hconnect, hint, hcount⟩
      rw [hanswer, hitems] at hintact
      by_cases hok : answer = "ok"
      · rw [hex, if_neg (not_not.mpr hok)]
        constructor
        · intro hv
          have hgood := hintact.mp (hv.sound _ rfl rfl)
          exact ⟨hw, hconnect, hint, hcount, (fresh_removeFile_iff hf).mp hv.clean, answer, n,
            hanswer, hitems, fun _ => Option.some.inj hgood.2⟩
        · intro hasks
          obtain ⟨answer', n', hanswer', hitems', hsame⟩ := hasks.answers
          rw [hanswer] at hanswer'
          rw [hitems] at hitems'
          cases hanswer'
          cases hitems'
          have hgood := hintact.mpr ⟨congrArg some hok, congrArg some (hsame hok)⟩
          exact ⟨fun _ _ _ => hgood, fun _ hbad => absurd hgood hbad,
            (fresh_removeFile_iff hf).mpr hasks.remove⟩
      · rw [hex, if_pos hok]
        constructor
        · intro hv
          exact ⟨hw, hconnect, hint, hcount, (fresh_removeFile_iff hf).mp hv.clean, answer, n,
            hanswer, hitems, fun h => absurd h hok⟩
        · intro hasks
          refine ⟨fun o ho hpassed => ?_, fun _ _ => ⟨_, rfl, rfl⟩,
            (fresh_removeFile_iff hf).mpr hasks.remove⟩
          rw [← Except.ok.inj ho] at hpassed
          cases hpassed
  · -- the snapshot is not written, and a temporary file stays
    obtain ⟨e, bytes, hwrite⟩ : ∃ e bytes, writeSnapshot calls snapshot scratch f =
        (.error e, Function.update f scratch.tmp (some bytes)) :=
      writeSnapshot_of_not_writes hopen hw
    simp only [runRestoreTest, hdec, validateInScratch, hsnap, hwrite]
    refine iff_of_false (fun hv => ?_) fun hasks => hw hasks.writes
    have htmp := hv.clean.tmp
    simp at htmp

lemma verdict_of_not_opened (hf : Fresh scratch f)
    (h : ¬ ∃ snapshot, Opens A C key archive snapshot ∧ calls.openTmp = true) :
    Verdict A C Q calls key archive scratch
      (runRestoreTest A C Q calls key archive scratch f) := by
  unfold runRestoreTest
  cases hdec : decryptArchive A C key archive with
  | error e =>
    refine ⟨fun o ho hpassed => ?_, fun _ _ => ⟨_, rfl, rfl⟩, hf⟩
    rw [← Except.ok.inj ho] at hpassed
    cases hpassed
  | ok payload =>
    dsimp only
    cases hsnap : payload.snapshot with
    | none =>
      refine ⟨fun o ho hpassed => ?_, fun _ _ => ⟨_, rfl, rfl⟩, ?_⟩
      · rw [← Except.ok.inj ho] at hpassed
        cases hpassed
      · have hleave : removeFile (calls.remove 4) scratch.name f = f := by
          funext q
          rw [removeFile_apply]
          split
          · next hq => rw [hq.2, hf.name]
          · rfl
        change Fresh scratch (removeFile (calls.remove 4) scratch.name f)
        rwa [hleave]
    | some snapshot =>
      have hopen : calls.openTmp = false := by
        by_contra htrue
        exact h ⟨snapshot, ⟨payload, hdec, hsnap⟩, by simpa using htrue⟩
      simp only [validateInScratch, writeSnapshot_of_not_openTmp hopen]
      refine ⟨fun o ho => ?_, fun hcalm => ?_, hf⟩
      · cases ho
      · rw [hcalm.1] at hopen
        cases hopen

end Test

/-! ### What an export makes -/

/-- The payloads of exports at this time are read back from JSON. -/
def ReadsBack (C : Codec) (createdAt : String) : Prop :=
  ∀ n snapshot, C.fromJson (C.toJson ⟨⟨currentFormatVersion, createdAt, vaultId, n⟩,
    some snapshot⟩) = some ⟨⟨currentFormatVersion, createdAt, vaultId, n⟩, some snapshot⟩

/-- The archive is intact, and passes every test that nothing disturbs. -/
def Certified (A : Aead K) (C : Codec) (Q : Sqlite) (key : K) (archive : Bytes) : Prop :=
  Intact A C Q key archive ∧ ∀ calls scratch f, Calm calls → Fresh scratch f →
    ∃ o, (runRestoreTest A C Q calls key archive scratch f).1 = .ok o ∧ o.passed = true

section Export

variable {A : Aead K} {C : Codec} {V : Store S Q} {key : K} {nonce : Nonce} {createdAt : String}
  {archive : Bytes}

lemma runs_exportBackup {tr : List (Ev S ExportEnv ExportStmt)}
    (h : Runs (exportBackup A C V key nonce createdAt).run tr (.ok archive)) :
    ∃ snap count : Ev S ExportEnv ExportStmt, tr = [snap, count] ∧
      createArchive A C key nonce (V.image snap.pre)
        ⟨currentFormatVersion, createdAt, vaultId, V.items count.pre⟩ = .ok archive := by
  unfold exportBackup at h
  obtain ⟨snapshot, tr₁, tr', rfl, hsnap, h⟩ | ⟨e, -, he⟩ := runs_bind_except.mp h
  rotate_left
  · cases he
  obtain ⟨n, tr₂, tr₃, rfl, hcount, h⟩ | ⟨e, -, he⟩ := runs_bind_except.mp h
  rotate_left
  · cases he
  obtain ⟨r, hr, hsnap⟩ := runs_orInternal.mp hsnap
  obtain ⟨r', hr', hcount⟩ := runs_orInternal.mp hcount
  obtain ⟨e₁, s₁, rfl, hsel⟩ := runs_select.mp hsnap
  obtain ⟨e₂, s₂, rfl, hsel'⟩ := runs_select.mp hcount
  have hsnapshot : snapshot = V.image s₁ := by
    subst hsel
    split at hr <;> cases hr
    rfl
  have hitems : n = V.items s₂ := by
    subst hsel'
    split at hr' <;> cases hr'
    rfl
  subst hsnapshot hitems
  cases hcreate : createArchive A C key nonce (V.image s₁)
    ⟨currentFormatVersion, createdAt, vaultId, V.items s₂⟩ with
  | error e =>
    obtain ⟨msg⟩ := e
    rw [hcreate] at h
    cases (runs_throw_except.mp h).2
  | ok made =>
    rw [hcreate] at h
    obtain ⟨rfl, hmade⟩ := runs_pure_except.mp h
    cases hmade
    exact ⟨⟨.vacuumInto, e₁, s₁, s₁⟩, ⟨.countItems, e₂, s₂, s₂⟩, rfl, hcreate⟩

lemma decrypt_createArchive (hC : ReadsBack C createdAt) {snapshot : Bytes} {n : ℕ}
    (h : createArchive A C key nonce snapshot ⟨currentFormatVersion, createdAt, vaultId, n⟩ =
      .ok archive) : decryptArchive A C key archive =
        .ok ⟨⟨currentFormatVersion, createdAt, vaultId, n⟩, some snapshot⟩ := by
  unfold createArchive at h
  split at h
  · cases h
  split at h
  · cases h
  next hseal =>
  cases h
  obtain ⟨ct, henc, rfl⟩ := seal_iff.mp hseal
  have hopen := open_iff.mpr ⟨currentFormatVersion, le_rfl, nonce, ct, henc, rfl⟩
  have hread := hC n snapshot
  simp only [decryptArchive, hopen, hread]
  simp [ArchiveMeta.verifyFormat]

/-- An export is certified exactly if its two looks agree. -/
lemma certified_iff (hC : ReadsBack C createdAt) {s₁ s₂ : S}
    (h : createArchive A C key nonce (V.image s₁)
      ⟨currentFormatVersion, createdAt, vaultId, V.items s₂⟩ = .ok archive) :
    Certified A C Q key archive ↔ V.items s₂ = V.items s₁ := by
  have hdec := decrypt_createArchive hC h
  have hintact := backupIntact_iff (Q := Q) hdec rfl
  rw [V.intact, V.counted] at hintact
  constructor
  · intro hcert
    exact (Option.some.inj (hintact.mp hcert.1).2).symm
  · intro hsame
    refine ⟨hintact.mpr ⟨rfl, congrArg some hsame.symm⟩, fun calls scratch f hcalm hf => ?_⟩
    obtain ⟨hopen, hw, hconnect, hint, hcount⟩ := hcalm
    rw [runRestoreTest_writes hdec rfl hopen hw]
    obtain ⟨-, hasked⟩ | ⟨answer, n, -, hanswer, hitems, hex⟩ :=
      examine_cases Q calls (V.image s₁) hf
    · exact absurd ⟨hconnect, hint, hcount, by simp [V.intact], by simp [V.counted]⟩ hasked
    · rw [V.intact] at hanswer
      rw [hex, ← Option.some.inj hanswer, if_neg (not_not.mpr rfl)]
      exact ⟨_, rfl, rfl⟩

end Export

/-- **When the restore test can be trusted.** Whatever archive, key and failing calls: the verdict
is right and no file is left, exactly if every question about a snapshot that was opened is
answered, the scratch file can be removed, and the count of an intact snapshot is that of the
manifest. And whatever other requests do, an export gives a certified archive exactly if the items
that it counts are as many as those of its snapshot. -/
theorem restore_test_iff (A : Aead K) (C : Codec) (Q : Sqlite) (V : Store S Q) (createdAt : String)
    (hC : ReadsBack C createdAt) :
    (∀ calls key archive scratch f, Fresh scratch f →
      (Verdict A C Q calls key archive scratch (runRestoreTest A C Q calls key archive scratch f) ↔
        ∀ payload snapshot, decryptArchive A C key archive = .ok payload →
          payload.snapshot = some snapshot → calls.openTmp = true →
            Answered Q calls snapshot payload.manifest)) ∧
    ∀ key nonce tr archive, Runs (exportBackup A C V key nonce createdAt).run tr (.ok archive) →
      ∃ snap count, tr = [snap, count] ∧
        (Certified A C Q key archive ↔ V.items count.pre = V.items snap.pre) := by
  refine ⟨fun calls key archive scratch f hf => ?_, fun key nonce tr archive h => ?_⟩
  · by_cases hopen : ∃ snapshot, Opens A C key archive snapshot ∧ calls.openTmp = true
    · obtain ⟨snapshot, ⟨payload, hdec, hsnap⟩, htmp⟩ := hopen
      rw [verdict_iff_answered hf hdec hsnap htmp]
      refine ⟨fun h payload' snapshot' hdec' hsnap' _ => ?_, fun h => h _ _ hdec hsnap htmp⟩
      rw [hdec] at hdec'
      cases hdec'
      rw [hsnap] at hsnap'
      cases hsnap'
      exact h
    · refine iff_of_true (verdict_of_not_opened hf hopen) fun payload snapshot hdec hsnap htmp => ?_
      exact absurd ⟨snapshot, ⟨payload, hdec, hsnap⟩, htmp⟩ hopen
  · obtain ⟨snap, count, htr, harchive⟩ := runs_exportBackup h
    exact ⟨snap, count, htr, certified_iff hC harchive⟩

/-! ### A write between the two looks -/

/-- Databases whose bytes are their items. -/
def byteItems : Sqlite where
  integrityCheck _ _ := some "ok"
  countItems db _ := db.map List.length

def counting : Store ℕ byteItems where
  items n := n
  image n := List.replicate n 5
  intact _ := rfl
  counted n := by simp [byteItems]

lemma readsBack_plainCodec : ReadsBack plainCodec "" := by
  intro n snapshot
  have hzeros : ∀ b ∈ List.replicate n (0 : UInt8), decide (b = 0) = true := by
    intro b hb
    simpa using (List.mem_replicate.mp hb).2
  have hdrop : (List.replicate n 0 ++ 1 :: snapshot).dropWhile (fun b : UInt8 => decide (b = 0)) =
      1 :: snapshot := by
    rw [List.dropWhile_append_of_pos hzeros]
    rfl
  have htake : (List.replicate n 0 ++ 1 :: snapshot).takeWhile (fun b : UInt8 => decide (b = 0)) =
      List.replicate n 0 := by
    rw [List.takeWhile_append_of_pos hzeros]
    simp
  simp only [plainCodec, Option.getD_some, hdrop, htake, List.length_replicate]
  rfl

/-- The statements of an export of a server without items, to which an item is added before they are
counted. -/
def raced : List (Ev ℕ ExportEnv ExportStmt) :=
  [⟨.vacuumInto, ⟨false⟩, 0, 0⟩, ⟨.countItems, ⟨false⟩, 1, 1⟩]

/-- The archive that it makes: no item, and a manifest with one. -/
def racedArchive : Bytes :=
  magic ++ beBytes 4 1 ++ zeroNonce.1 ++ (List.replicate 16 7 ++ [0, 1])

lemma raced_runs :
    Runs (exportBackup plainAead plainCodec counting 7 zeroNonce "").run raced (.ok racedArchive) :=
  ⟨⟨false⟩, 0, _, rfl, ⟨false⟩, 1, _, rfl, rfl, rfl⟩

def scratchDb : Dest := ⟨"vautr-restore-test.db".toList, by decide, by decide⟩

/-- The archive of a server with one item. -/
def oneArchive : Bytes :=
  magic ++ beBytes 4 1 ++ zeroNonce.1 ++ (List.replicate 16 7 ++ [0, 1, 5])

theorem restore_test_iff_one : Certified plainAead plainCodec byteItems 7 oneArchive ∧
    Verdict plainAead plainCodec byteItems sunny 7 oneArchive scratchDb
      (runRestoreTest plainAead plainCodec byteItems sunny 7 oneArchive scratchDb
        fun _ => none) := by
  obtain ⟨htest, hexport⟩ :=
    restore_test_iff plainAead plainCodec byteItems counting "" readsBack_plainCodec
  have hruns : Runs (exportBackup plainAead plainCodec counting 7 zeroNonce "").run
      [⟨.vacuumInto, ⟨false⟩, 1, 1⟩, ⟨.countItems, ⟨false⟩, 1, 1⟩] (.ok oneArchive) :=
    ⟨⟨false⟩, 1, _, rfl, ⟨false⟩, 1, _, rfl, rfl, rfl⟩
  have hdec : decryptArchive plainAead plainCodec 7 oneArchive =
      .ok ⟨⟨1, "", "vautr-main-vault", 1⟩, some [5]⟩ := by decide +kernel
  constructor
  · obtain ⟨snap, count, htr, hiff⟩ := hexport 7 zeroNonce _ oneArchive hruns
    obtain ⟨rfl, hcount⟩ := List.cons.inj htr
    obtain ⟨rfl, -⟩ := List.cons.inj hcount
    exact hiff.mpr rfl
  · refine (htest sunny 7 oneArchive scratchDb (fun _ => none) ⟨rfl, rfl, rfl, rfl⟩).mpr ?_
    intro payload snapshot hdec' hsnap _
    rw [hdec] at hdec'
    cases hdec'
    cases hsnap
    exact ⟨⟨rfl, rfl, rfl⟩, rfl, rfl, rfl, rfl, "ok", 1, rfl, rfl, fun _ => rfl⟩

/-- The archive of an export that a write came into passes the test, although its snapshot has no
item and its manifest says one. -/
theorem raced_export_passes :
    Runs (exportBackup plainAead plainCodec counting 7 zeroNonce "").run raced
        (.ok racedArchive) ∧
      (runRestoreTest plainAead plainCodec byteItems sunny 7 racedArchive scratchDb
        fun _ => none).1 =
          .ok ⟨true, 0, some ⟨1, "", "vautr-main-vault", 1⟩, .validated⟩ ∧
      ¬ Intact plainAead plainCodec byteItems 7 racedArchive := by
  have hdec : decryptArchive plainAead plainCodec 7 racedArchive =
      .ok ⟨⟨1, "", "vautr-main-vault", 1⟩, some []⟩ := by decide +kernel
  refine ⟨raced_runs, by decide +kernel, fun h => ?_⟩
  obtain ⟨-, hcount⟩ := (backupIntact_iff hdec rfl).mp h
  exact absurd hcount (by decide)

end Vautr.RestoreTest
