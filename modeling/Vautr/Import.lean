import Mathlib.Data.Finset.Insert
import Vautr.Orchestrator

/-!
The import of a competitor's export (`vautr-import`; `import_file` and `import_items` of
`orchestrator.rs`).

The pipeline translates one record after the other, encrypts what it accepts in chunks and
stores it all in one transaction; a push of the vault follows. The generation of an imported
item is chosen by the translation, which knows nothing of the account, and the gate that
refuses a save is in the worker, which an import does not go through. So an import stores
items of the generation 1, whatever the generation of the account is.
-/

namespace Vautr.Import

open Vautr.Atomic Vautr.Session Vautr.Sql Vautr.Server Vautr.Handlers Vautr.ClientDb Vautr.Crypto
  Vautr.Client Vautr.Orchestrator Vautr.Zoom

/-! ### Records -/

/-- `RawImportItem`; of the JSON object `fields`, the fields that are strings. -/
structure RawImportItem where
  sourceId : Option String
  title : String
  url : Option String
  fields : List (String × String)

structure ParseRecord where
  lineNumber : ℕ
  item : RawImportItem

/-- `ImportFailureReason`, those that the pipeline gives. -/
inductive ImportFailureReason
  | schemaMismatch (msg : String)
  | missingRequiredField (field : String)
  | duplicateSkip
  deriving DecidableEq

structure ImportError where
  lineNumber : ℕ
  itemIdentifier : String
  reason : ImportFailureReason
  deriving DecidableEq

structure ImportReport where
  totalParsed : ℕ
  successCount : ℕ
  skippedCount : ℕ
  errors : List ImportError
  deriving DecidableEq

inductive TotpAlgorithm
  | sha1 | sha256 | sha512
  deriving DecidableEq

structure TotpSecret where
  algorithm : TotpAlgorithm
  digits : ℕ
  period : ℕ
  secretBase32 : String
  deriving DecidableEq

inductive CustomFieldType
  | text | hidden
  deriving DecidableEq

structure CustomField where
  name : String
  value : String
  fieldType : CustomFieldType
  deriving DecidableEq

structure DecryptedSecret where
  password : String
  totp : Option TotpSecret
  notes : String
  fields : List CustomField
  deriving DecidableEq

/-- The `DomainModel` of an imported item. -/
structure ImportedItem where
  uuid : Ident
  encKeyGen : UInt64
  title : String
  subtitle : String
  iconKey : String
  urls : List String
  secret : DecryptedSecret
  createdAt : ℤ
  updatedAt : ℤ
  trashed : Bool

/-! ### Translation (`translate.rs`) -/

def isWhitespace (c : Char) : Bool :=
  c = ' ' || ('\t' ≤ c && c ≤ '\r') || c.toNat ∈
    [0x85, 0xa0, 0x1680, 0x2028, 0x2029, 0x202f, 0x205f, 0x3000] ||
    (0x2000 ≤ c.toNat && c.toNat ≤ 0x200a)

def trim (s : String) : String :=
  String.ofList ((s.toList.dropWhile isWhitespace).reverse.dropWhile isWhitespace).reverse

def fieldStr (fields : List (String × String)) (key : String) : Option String := fields.lookup key

/-- The second factor of a record: a secret, none, or a text that is neither a secret nor a
URI. -/
def translateTotp (fields : List (String × String)) :
    Except ImportFailureReason (Option TotpSecret) :=
  match fieldStr fields "totp" with
  | none => .ok none
  | some secret =>
    let s := trim secret
    if s = "" then .ok none
    else if "otpauth://".toList.isPrefixOf s.toList || 8 ≤ s.utf8ByteSize then
      .ok (some ⟨.sha1, 6, 30, s⟩)
    else .error (.schemaMismatch ("invalid totp secret (" ++ toString s.utf8ByteSize ++
      " chars; need >= 8 or otpauth:// URI)"))

/-- The key under which a record is a duplicate. -/
def dedupKey (raw : RawImportItem) : String × String := (trim raw.title, raw.url.getD "")

/-- `translate`, with the uuid and the time it draws. -/
def translate (raw : RawImportItem) (existing : Finset (String × String)) (line : ℕ)
    (uuid : Ident) (now : ℤ) : Except ImportError ImportedItem :=
  let itemIdentifier := "Title: " ++ raw.title
  let title := trim raw.title
  if title = "" then .error ⟨line, itemIdentifier, .missingRequiredField "title"⟩
  else if dedupKey raw ∈ existing then .error ⟨line, itemIdentifier, .duplicateSkip⟩
  else
    let url := raw.url.getD ""
    let username := fieldStr raw.fields "username"
    match translateTotp raw.fields with
    | .error reason => .error ⟨line, itemIdentifier, reason⟩
    | .ok totp =>
      .ok {
        uuid, title, encKeyGen := 1, subtitle := username.getD "", iconKey := "generic"
        urls := if url = "" then [] else [url]
        secret := ⟨(fieldStr raw.fields "password").getD "", totp,
          (fieldStr raw.fields "notes").getD "",
          username.toList.map fun u => ⟨"username", u, .text⟩⟩
        createdAt := now, updatedAt := now, trashed := false }

/-! ### Encryption (`encrypt.rs`) -/

/-- What `serde_json` makes of an item: the bytes of its secret, the size of the whole, and
the text of its urls, which can be read back. -/
structure Json where
  secret : DecryptedSecret → Plain
  size : ImportedItem → ℕ
  urls : List String → String
  parseUrls : String → List String

variable (J : Json)

structure EncryptedItem where
  overview : OverviewRow
  payload : PayloadRow Blob
  deriving DecidableEq

def encryptItem (dek : DKey) (item : ImportedItem) : EncryptedItem :=
  ⟨⟨item.uuid, 1, asI64 item.encKeyGen, none, item.title, item.subtitle, item.iconKey,
      J.urls item.urls, item.createdAt, item.updatedAt⟩,
    ⟨item.uuid, encrypt dek item.uuid item.encKeyGen (J.secret item.secret)⟩⟩

def maxItemsPerChunk : ℕ := 100

def maxPlaintextBytes : ℕ := 25 * 1024 * 1024

/-! ### The pipeline (`lib.rs`) -/

/-- The state of `run_pipeline`. -/
structure Pipeline where
  totalParsed : ℕ
  skipped : ℕ
  errors : List ImportError
  chunk : List ImportedItem
  chunkBytes : ℕ
  encrypted : List EncryptedItem
  existing : Finset (String × String)

def Pipeline.new (existing : Finset (String × String)) : Pipeline := ⟨0, 0, [], [], 0, [], existing⟩

/-- `encrypt_chunk`, and the chunk is empty again. -/
def Pipeline.flush (dek : DKey) (p : Pipeline) : Pipeline :=
  { p with chunk := [], chunkBytes := 0, encrypted := p.encrypted ++ p.chunk.map (encryptItem J dek) }

/-- An accepted item: its chunk is encrypted once it is large enough. -/
def Pipeline.accept (dek : DKey) (item : ImportedItem) (key : String × String) (p : Pipeline) :
    Pipeline :=
  let p := { p with
    existing := insert key p.existing
    chunkBytes := p.chunkBytes + J.size item
    chunk := p.chunk ++ [item] }
  if maxItemsPerChunk ≤ p.chunk.length || maxPlaintextBytes ≤ p.chunkBytes then p.flush J dek else p

/-- The body of the loop. `draw` is what the `n`th record is given for a uuid and for the
time. -/
def Pipeline.onRecord (dek : DKey) (draw : ℕ → Ident × ℤ) (p : Pipeline)
    (record : Except String ParseRecord) : Pipeline :=
  let p := { p with totalParsed := p.totalParsed + 1 }
  match record with
  | .error e => { p with errors := p.errors ++ [⟨p.totalParsed, "Record", .schemaMismatch e⟩] }
  | .ok r =>
    let (uuid, now) := draw p.totalParsed
    match translate r.item p.existing r.lineNumber uuid now with
    | .ok item => p.accept J dek item (dedupKey r.item)
    | .error e => { p with
        errors := p.errors ++ [e]
        skipped := if e.reason = .duplicateSkip then p.skipped + 1 else p.skipped }

/-- The loop, and the last chunk. -/
def runPipeline (dek : DKey) (draw : ℕ → Ident × ℤ) (existing : Finset (String × String))
    (records : List (Except String ParseRecord)) : Pipeline :=
  let p := records.foldl (Pipeline.onRecord J dek draw) (.new existing)
  if p.chunk.isEmpty then p else p.flush J dek

def Pipeline.report (p : Pipeline) : ImportReport :=
  ⟨p.totalParsed, p.encrypted.length, p.skipped, p.errors⟩

/-- What `preflight` reads: the titles and first urls of the items that are there. -/
def preflightSet (db : LocalDb Blob) : Finset (String × String) :=
  (db.overviews.rows.map fun o => (o.title, (J.parseUrls o.urls).head?.getD "")).toFinset

/-- The transaction of `ingest`: it fails, and is rolled back, if a key is taken. -/
def ingestTxn (items : List EncryptedItem) (db : LocalDb Blob) : Option (LocalDb Blob) := do
  let overviews ← (items.map (·.overview)).foldlM (fun t o => t.insert o) db.overviews
  let payloads ← (items.map (·.payload)).foldlM (fun t p => t.insert p) db.payloads
  return { db with overviews, payloads }

/-! ### The operations (`orchestrator.rs`) -/

/-- The statements of an import: those of a client, and its own. The last is the event it
publishes. -/
inductive ImportLabel
  | client (n : Name)
  | preflight
  | ingest (items : List EncryptedItem)
  | importCompleted (report : ImportReport)
  deriving DecidableEq

abbrev ImportCode := Prog World ClientEnv ImportLabel

abbrev ImportOp := ExceptT ClientError ImportCode

/-- An operation of the client, as a part of an import. -/
def onClient : View World World ClientEnv ClientEnv Name ImportLabel :=
  ⟨id, fun w _ => w, id, .client, fun _ _ => rfl⟩

variable (X : Ext Blob) (d : ℕ)

def preflight : ImportOp (Finset (String × String)) :=
  ExceptT.mk (Prog.atom .preflight fun e w =>
    (w, if e.fault then .error (.db "preflight") else .ok (preflightSet J (w.devices d).db)))

def ingest (items : List EncryptedItem) : ImportOp Unit :=
  ExceptT.mk (Prog.atom (.ingest items) fun e w =>
    if e.fault then (w, .error (.db "bulk insert"))
    else match ingestTxn items (w.devices d).db with
      | some db => (w.setDevice d { w.devices d with db }, .ok ())
      | none => (w, .error (.db "bulk insert")))

/-- `bus.publish(ImportCompleted(report))`. -/
def importCompleted (report : ImportReport) : ImportOp Unit :=
  ExceptT.mk (Prog.atom (.importCompleted report) fun _ w => (w, .ok ()))

/-- What is imported: a file, as the parser of its format reads it, or records that were
parsed before. -/
inductive Source
  | file (parsed : Except String (List (Except String ParseRecord)))
  | items (raw : List RawImportItem)

/-- The records of a source; the line of a record that was parsed before is its number. -/
def Source.records : Source → Except String (List (Except String ParseRecord))
  | .file parsed => parsed
  | .items raw => .ok ((raw.zipIdx 1).map fun r => .ok ⟨r.2, r.1⟩)

/-- An import, and what its uuids and times will be. -/
structure Request where
  source : Source
  draw : ℕ → Ident × ℤ

/-- `import_file` and `import_items`. -/
def importInto (q : Request) : ImportOp ImportReport := do
  let svk ← zoomE onClient (require d "vault locked" (·.svk))
  match q.source.records with
  | .error msg => throw (.text msg)
  | .ok records =>
    let existing ← preflight J d
    let p := runPipeline J (.dek svk) q.draw existing records
    ingest d p.encrypted
    zoomE onClient (pushLocalChanges X d)
    importCompleted p.report
    return p.report

/-! ### What the pipeline makes of the records -/

section Records

variable {J} {dek : DKey} {draw : ℕ → Ident × ℤ} {existing : Finset (String × String)}

/-- A record that the pipeline can store: it was parsed, it has a title and a valid second
factor, and no item in the vault has its title and url. -/
def Importable (existing : Finset (String × String)) (record : Except String ParseRecord) : Prop :=
  ∃ r, record = .ok r ∧ trim r.item.title ≠ "" ∧ dedupKey r.item ∉ existing ∧
    (translateTotp r.item.fields).isOk = true

lemma translate_ok {raw : RawImportItem} {line : ℕ} {uuid : Ident} {now : ℤ} {item : ImportedItem}
    (h : translate raw existing line uuid now = .ok item) :
    item.uuid = uuid ∧ item.encKeyGen = 1 ∧ Importable existing (.ok ⟨line, raw⟩) := by
  simp only [translate] at h
  split at h
  · cases h
  next htitle =>
  split at h
  · cases h
  next hkey =>
  cases htotp : translateTotp raw.fields with
  | error e => simp [htotp] at h
  | ok totp =>
    simp only [htotp, Except.ok.injEq] at h
    subst h
    exact ⟨rfl, rfl, _, rfl, htitle, hkey, by simp [htotp, Except.isOk, Except.toBool]⟩

lemma translate_of_importable {r : ParseRecord} (h : Importable existing (.ok r)) (uuid : Ident)
    (now : ℤ) :
    ∃ item, translate r.item existing r.lineNumber uuid now = .ok item := by
  obtain ⟨_, hr, htitle, hkey, htotp⟩ := h
  obtain rfl := Except.ok.inj hr
  cases ht : translateTotp r.item.fields with
  | error e => simp [ht, Except.isOk, Except.toBool] at htotp
  | ok totp => simp [translate, htitle, hkey, ht]

/-- The item is of the generation 1, in its row and in its payload. -/
def First (J : Json) (dek : DKey) (i : EncryptedItem) : Prop :=
  ∃ item : ImportedItem, item.encKeyGen = 1 ∧ i = encryptItem J dek item

/-- What the loop keeps: the items it holds are of the generation 1, and it holds one as soon
as it knows more than it knew at the start. -/
structure Pipeline.Inv (J : Json) (dek : DKey) (existing : Finset (String × String))
    (p : Pipeline) : Prop where
  chunk : ∀ item ∈ p.chunk, item.encKeyGen = 1
  encrypted : ∀ i ∈ p.encrypted, First J dek i
  known : p.chunk = [] → p.encrypted = [] → p.existing = existing

lemma Pipeline.Inv.flush {p : Pipeline} (h : p.Inv J dek existing) :
    (p.flush J dek).Inv J dek existing where
  chunk item hitem := by simp [Pipeline.flush] at hitem
  encrypted i hi := by
    rcases List.mem_append.mp hi with hi | hi
    · exact h.encrypted i hi
    · obtain ⟨item, hitem, rfl⟩ := List.mem_map.mp hi
      exact ⟨item, h.chunk item hitem, rfl⟩
  known _ he := by
    obtain ⟨henc, hchunk⟩ := List.append_eq_nil_iff.mp he
    exact h.known (List.map_eq_nil_iff.mp hchunk) henc

/-- Nothing is held. -/
def Pipeline.Empty (p : Pipeline) : Prop := p.chunk = [] ∧ p.encrypted = []

lemma Pipeline.accept_spec {p : Pipeline} {item : ImportedItem} (key : String × String)
    (h : p.Inv J dek existing) (hitem : item.encKeyGen = 1) :
    (p.accept J dek item key).Inv J dek existing ∧ ¬(p.accept J dek item key).Empty := by
  have hinv : Pipeline.Inv J dek existing { p with
      existing := insert key p.existing
      chunkBytes := p.chunkBytes + J.size item
      chunk := p.chunk ++ [item] } := by
    refine ⟨fun i hi => ?_, h.encrypted, fun hc => by simp at hc⟩
    rcases List.mem_append.mp hi with hi | hi
    · exact h.chunk i hi
    · rwa [List.mem_singleton.mp hi]
  unfold Pipeline.accept
  dsimp only
  split
  · exact ⟨hinv.flush, fun he => by simpa [Pipeline.flush] using he.2⟩
  · exact ⟨hinv, fun he => by simpa using he.1⟩

/-- One record: the loop stores nothing for it unless it is importable, and from then on it
holds something. -/
lemma Pipeline.onRecord_spec (draw : ℕ → Ident × ℤ) {p : Pipeline} (h : p.Inv J dek existing)
    (record : Except String ParseRecord) :
    (p.onRecord J dek draw record).Inv J dek existing ∧
    ((p.onRecord J dek draw record).Empty ↔ p.Empty ∧ ¬Importable existing record) := by
  cases record with
  | error e =>
    refine ⟨⟨h.chunk, h.encrypted, h.known⟩, ⟨fun he => ⟨he, ?_⟩, fun he => he.1⟩⟩
    rintro ⟨r, hr, -⟩
    cases hr
  | ok r =>
    cases ht : translate r.item p.existing r.lineNumber (draw (p.totalParsed + 1)).1
        (draw (p.totalParsed + 1)).2 with
    | error e =>
      simp only [Pipeline.onRecord, ht]
      refine ⟨⟨h.chunk, h.encrypted, h.known⟩, ⟨fun he => ⟨he, fun himp => ?_⟩, fun he => he.1⟩⟩
      obtain ⟨item, hitem⟩ := translate_of_importable (h.known he.1 he.2 ▸ himp)
        (draw (p.totalParsed + 1)).1 (draw (p.totalParsed + 1)).2
      rw [ht] at hitem
      cases hitem
    | ok item =>
      obtain ⟨-, hgen, himp⟩ := translate_ok ht
      simp only [Pipeline.onRecord, ht]
      have hcount : Pipeline.Inv J dek existing { p with totalParsed := p.totalParsed + 1 } :=
        ⟨h.chunk, h.encrypted, h.known⟩
      have hacc := Pipeline.accept_spec (dedupKey r.item) hcount hgen
      refine ⟨hacc.1, iff_of_false hacc.2 fun ⟨he, hn⟩ => hn ?_⟩
      rw [h.known he.1 he.2] at himp
      obtain ⟨_, hr, hrest⟩ := himp
      obtain rfl := Except.ok.inj hr
      exact ⟨r, rfl, hrest⟩

lemma Pipeline.foldl_spec (draw : ℕ → Ident × ℤ) (records : List (Except String ParseRecord))
    {p : Pipeline} (h : p.Inv J dek existing) :
    (records.foldl (Pipeline.onRecord J dek draw) p).Inv J dek existing ∧
    ((records.foldl (Pipeline.onRecord J dek draw) p).Empty ↔
      p.Empty ∧ ∀ r ∈ records, ¬Importable existing r) := by
  induction records generalizing p with
  | nil => simpa using h
  | cons r records ih =>
    obtain ⟨hinv, hempty⟩ := Pipeline.onRecord_spec draw h r
    obtain ⟨hinv', hempty'⟩ := ih hinv
    refine ⟨hinv', ?_⟩
    rw [List.foldl_cons, hempty', hempty, List.forall_mem_cons, and_assoc]

/-- **The pipeline.** Everything it stores is of the generation 1, and it stores something if
and only if a record is importable. -/
theorem runPipeline_spec (J : Json) (dek : DKey) (draw : ℕ → Ident × ℤ)
    (existing : Finset (String × String)) (records : List (Except String ParseRecord)) :
    (∀ i ∈ (runPipeline J dek draw existing records).encrypted, First J dek i) ∧
    ((runPipeline J dek draw existing records).encrypted = [] ↔
      ∀ r ∈ records, ¬Importable existing r) := by
  have hnew : (Pipeline.new existing).Inv J dek existing :=
    ⟨by simp [Pipeline.new], by simp [Pipeline.new], fun _ _ => rfl⟩
  obtain ⟨hinv, hempty⟩ := Pipeline.foldl_spec draw records hnew
  have hnone : (Pipeline.new existing).Empty := ⟨rfl, rfl⟩
  simp only [hnone, true_and] at hempty
  unfold runPipeline
  dsimp only
  split
  · next hchunk =>
    refine ⟨hinv.encrypted, ?_⟩
    rw [← hempty]
    exact ⟨fun he => ⟨List.isEmpty_iff.mp hchunk, he⟩, fun he => he.2⟩
  · next hchunk =>
    refine ⟨hinv.flush.encrypted, ?_⟩
    rw [← hempty]
    simp only [Pipeline.flush, Pipeline.Empty, List.append_eq_nil_iff, List.map_eq_nil_iff]
    exact and_comm

end Records

/-! ### The generation of what is stored -/

variable {J} {X} {d}

abbrev ImportSess := Session.Sess Request World ClientEnv ImportLabel (Except ClientError ImportReport)

def code (J : Json) (X : Ext Blob) (d : ℕ) (q : Request) :
    ImportCode (Except ClientError ImportReport) := (importInto J X d q).run

/-- The generation of the account whose vault the device has: what the server has for it, and
where the client knows of no account, unlocked with a key from the device, its own. -/
def accountGen (d : ℕ) (w : World) : ℤ :=
  let mem := (w.devices d).mem
  match (mem.serverUserId <|> mem.transport).bind w.server.users.get with
  | some user => user.minEncKeyGen
  | none => asI64 mem.localGen

/-- `is_read_only`, of the generation of the client: the vault is in `KeyUpdateRequired`. -/
def ReadOnly (d : ℕ) (w : World) : Prop :=
  (w.devices d).mem.localGen < (w.devices d).mem.minEncKeyGen

instance (d : ℕ) (w : World) : Decidable (ReadOnly d w) :=
  inferInstanceAs (Decidable (_ < _))

def Stores (d : ℕ) (items : List EncryptedItem) (ev : Ev World ClientEnv ImportLabel) : Prop :=
  ev.name = .ingest items ∧ ev.inp.fault = false ∧
    (ingestTxn items (ev.pre.devices d).db).isSome = true

/-- The item is of the generation `g` in its row and in the associated data of its payload, and
the server does not refuse it as too old. -/
def Carries (g : ℤ) (i : EncryptedItem) : Prop :=
  i.overview.encKeyGen = g ∧
  (∃ k plain, i.payload.payload = encrypt k i.overview.uuid (asU64 g) plain) ∧
  ¬(toPushed (i.overview, i.payload.payload)).encKeyGen < asU64 g

/-- What is stored has the generation of the account, and nothing is stored in the read-only
state. -/
def Current (d : ℕ) (items : List EncryptedItem) (w : World) : Prop :=
  (∀ i ∈ items, Carries (accountGen d w) i) ∧ (items ≠ [] → ¬ReadOnly d w)

/-- An item of the generation 1 carries the generation 1 only. -/
lemma First.carries {dek : DKey} {i : EncryptedItem} (h : First J dek i) (g : ℤ) :
    Carries g i ↔ g = 1 := by
  obtain ⟨item, hgen, rfl⟩ := h
  have hone : asI64 1 = 1 := by decide
  constructor
  · rintro ⟨hrow, -⟩
    rw [← hrow, encryptItem, hgen, hone]
  · rintro rfl
    refine ⟨by rw [encryptItem, hgen, hone], ⟨dek, J.secret item.secret, ?_⟩, ?_⟩
    · have : asU64 1 = 1 := by decide
      rw [this, encryptItem, hgen]
    · simp only [toPushed, encryptItem, hgen]
      decide

/-- When what a pipeline has stored is of the generation of the account. -/
lemma current_iff {dek : DKey} {items : List EncryptedItem} (h : ∀ i ∈ items, First J dek i)
    (w : World) :
    Current d items w ↔ items = [] ∨ (accountGen d w = 1 ∧ ¬ReadOnly d w) := by
  rcases eq_or_ne items [] with rfl | hne
  · simp [Current]
  obtain ⟨i, hi⟩ := List.exists_mem_of_ne_nil items hne
  simp only [Current, hne, ne_eq, not_false_eq_true, true_implies, false_or]
  refine and_congr_left fun _ => ⟨fun hc => ?_, fun hg i hi => ?_⟩
  · exact ((h i hi).carries _).mp (hc i hi)
  · exact ((h i hi).carries _).mpr hg

/-! ### What an import runs -/

/-- Every `ingest` that follows a `preflight` stores what the pipeline makes of the records and
of what the `preflight` saw. -/
def Tells (J : Json) (d : ℕ) (q : Request) (tr : List (Ev World ClientEnv ImportLabel)) : Prop :=
  ∀ pre ∈ tr, ∀ ev ∈ tr, ∀ items, pre.name = .preflight → ev.name = .ingest items →
    ∃ dek records, q.source.records = .ok records ∧
      items = (runPipeline J dek q.draw (preflightSet J (pre.pre.devices d).db) records).encrypted

/-- A statement of an operation of the client. -/
def OfClient (ev : Ev World ClientEnv ImportLabel) : Prop := ∃ n, ev.name = .client n

section Trace

variable {q : Request} {tr : List (Ev World ClientEnv ImportLabel)}
  {ev : Ev World ClientEnv ImportLabel}

lemma tells_of_every (h : Every OfClient tr) : Tells J d q tr := by
  intro pre hpre _ _ _ hname
  obtain ⟨n, hn⟩ := h pre hpre
  rw [hn] at hname
  cases hname

lemma Tells.append (h : Tells J d q tr) (hpre : ev.name ≠ .preflight)
    (hev : ∀ items, ev.name ≠ .ingest items) : Tells J d q (tr ++ [ev]) := by
  intro pre hp ev' he items hpn hen
  rcases List.mem_append.mp hp with hp | hp
  · rcases List.mem_append.mp he with he | he
    · exact h pre hp ev' he items hpn hen
    · rw [List.mem_singleton.mp he] at hen
      exact absurd hen (hev items)
  · rw [List.mem_singleton.mp hp] at hpn
    exact absurd hpn hpre

lemma OfClient.append (h : Tells J d q tr) (hev : OfClient ev) : Tells J d q (tr ++ [ev]) := by
  obtain ⟨n, hn⟩ := hev
  exact h.append (by simp [hn]) (by simp [hn])

/-- The rules of an import: whatever the others do, it tells. -/
abbrev importRules (J : Json) (d : ℕ) (q : Request) : Rules World ClientEnv ImportLabel :=
  ⟨fun _ _ _ => True, fun _ => True, Tells J d q⟩

lemma guarantees_onClient {α : Type} (x : Op α) :
    Guarantees (fun _ _ _ => True) OfClient (zoomE onClient x).run :=
  guarantees_zoom_part x.run fun l _ _ _ => ⟨l, rfl⟩

lemma wp_onClient {α : Type} {x : Op α} {Q : Except ClientError α →
    List (Ev World ClientEnv ImportLabel) → World → Prop} {w : World} (h : Tells J d q tr)
    (hQ : ∀ r tr w, Tells J d q tr → Q r tr w) :
    wp (importRules J d q) (zoomE onClient x).run Q tr w :=
  wp_of_guarantees (J := fun tr _ => Tells J d q tr) (guarantees_onClient x)
    (fun _ _ _ _ => trivial) (fun _ _ h => h) (fun _ _ _ _ h _ => h)
    (fun _ _ h hev => hev.append h) (fun r tr w h => hQ r tr w h) h

lemma tells_code (X : Ext Blob) (q : Request) (w : World) :
    wp (importRules J d q) (code J X d q) (fun _ tr _ => Tells J d q tr) [] w := by
  unfold code importInto
  rw [wp_bind_except]
  refine wp_of_guarantees (J := fun tr _ => Every OfClient tr) (guarantees_onClient _)
    (fun _ _ _ _ => trivial) (fun _ _ h => tells_of_every h) (fun _ _ _ _ h _ => h)
    (fun _ _ h hev => every_append h hev) (fun r tr w htr => ?_) every_nil
  cases r with
  | error e => exact tells_of_every htr
  | ok svk =>
  dsimp only
  cases hrec : q.source.records with
  | error msg => exact tells_of_every htr
  | ok records =>
  dsimp only
  rw [wp_bind_except]
  refine ⟨tells_of_every htr, fun w₁ e₁ _ _ => ?_⟩
  -- the `preflight` comes first of all statements that are not of the client
  have hlook : ∀ e, Tells J d q (tr ++ [⟨.preflight, e, w₁, w₁⟩]) := by
    intro e pre _ ev hev items _ hname
    rcases List.mem_append.mp hev with hev | hev
    · obtain ⟨n, hn⟩ := htr ev hev
      rw [hn] at hname
      cases hname
    · rw [List.mem_singleton.mp hev] at hname
      cases hname
  by_cases hf₁ : e₁.fault = true
  · simpa [hf₁] using hlook e₁
  simp only [hf₁]
  change wp _ (ExceptT.run (_ >>= _)) _ _ _
  rw [wp_bind_except]
  refine ⟨hlook e₁, fun w₂ e₂ _ _ => ?_⟩
  -- the `ingest` stores what the pipeline made of what the `preflight` has read
  have hstore : ∀ w₃, Tells J d q (tr ++ [⟨.preflight, e₁, w₁, w₁⟩] ++ [⟨.ingest
      (runPipeline J (.dek svk) q.draw (preflightSet J (w₁.devices d).db) records).encrypted,
      e₂, w₂, w₃⟩]) := by
    intro w₃ pre hpre ev hev items hpn hen
    have hpre' : pre = ⟨.preflight, e₁, w₁, w₁⟩ := by
      simp only [List.mem_append, List.mem_singleton] at hpre
      rcases hpre with (hpre | hpre) | rfl
      · obtain ⟨n, hn⟩ := htr pre hpre
        rw [hn] at hpn
        cases hpn
      · exact hpre
      · cases hpn
    rcases List.mem_append.mp hev with hev | hev
    · rcases List.mem_append.mp hev with hev | hev
      · obtain ⟨n, hn⟩ := htr ev hev
        rw [hn] at hen
        cases hen
      · rw [List.mem_singleton.mp hev] at hen
        cases hen
    · rw [List.mem_singleton.mp hev] at hen
      rw [hpre', ← ImportLabel.ingest.inj hen]
      exact ⟨_, records, hrec, rfl⟩
  by_cases hf₂ : e₂.fault = true
  · simpa [hf₂] using hstore w₂
  cases hdb : ingestTxn (runPipeline J (.dek svk) q.draw (preflightSet J (w₁.devices d).db)
      records).encrypted (w₂.devices d).db with
  | none => simpa [hf₂, hdb] using hstore w₂
  | some db =>
  simp only [hf₂, hdb, Bool.false_eq_true, if_false]
  change wp _ (ExceptT.run (_ >>= _)) _ _ _
  rw [wp_bind_except]
  -- the report is published, and the client reloads its items
  refine wp_onClient (hstore _) fun r tr w h => ?_
  cases r with
  | error e => exact h
  | ok _ =>
  change wp _ (ExceptT.run (_ >>= _)) _ _ _
  rw [wp_bind_except]
  exact ⟨h, fun _ _ _ _ => h.append (by simp) (by simp)⟩

end Trace

def anyUuid : Ext Blob := ⟨fun _ => true, fun _ => 32⟩

/-- An unlocked client and its account, both at the generation `gen`; it may be connected, and it
may know its account. -/
def vaultAt (gen : UInt64) (transport serverUserId : Option Ident) : World :=
  let mem : Memory := { Memory.new with
    svk := some 5, localGen := gen, minEncKeyGen := gen, locked := false, transport, serverUserId }
  ⟨⟨⟨[⟨1, "", .raw 0, .raw 0, .raw 0, .raw 0, asI64 gen, 0, 0⟩], by simp⟩, .empty⟩,
    fun _ => ⟨⟨.empty, .empty, .empty, .empty, .empty, .empty⟩, mem⟩⟩

def plainJson : Json := ⟨fun _ => .bytes 0, fun _ => 0, fun _ => "[]", fun _ => []⟩

def calm : ClientEnv := ⟨0, 0, false, 0⟩

def bankSess (w : World) : ImportSess :=
  Session.run (code plainJson anyUuid 0) nobody (Session.init w)
    [.op ⟨.items [⟨none, "Bank", none, []⟩], fun _ => (7, 0)⟩, .exec calm, .exec calm, .exec calm]

def bankItem : EncryptedItem :=
  ⟨⟨7, 1, 1, none, "Bank", "", "generic", "[]", 0, 0⟩, ⟨7, encrypt (.dek 5) 7 1 (.bytes 0)⟩⟩

lemma bankSess_stores (gen : UInt64) (transport serverUserId : Option Ident) :
    ∃ c ∈ (bankSess (vaultAt gen transport serverUserId)).cur, ∃ pre ∈ c.trace, ∃ ev ∈ c.trace,
      pre.name = .preflight ∧ Stores 0 [bankItem] ev ∧
      accountGen 0 ev.pre = accountGen 0 (vaultAt gen transport serverUserId) ∧
      (ev.pre.devices 0).mem.localGen = gen ∧ (ev.pre.devices 0).mem.minEncKeyGen = gen :=
  ⟨_, rfl, _, .tail _ (.head _), _, .tail _ (.tail _ (.head _)), rfl, ⟨rfl, rfl, rfl⟩, rfl, rfl,
    rfl⟩

/-- What the import stores in this vault is current. -/
def StoresCurrent (w : World) : Prop :=
  ∀ c ∈ (bankSess w).cur, ∀ ev ∈ c.trace, ∀ items, Stores 0 items ev → Current 0 items ev.pre

lemma not_storesCurrent {gen : UInt64} {transport serverUserId : Option Ident}
    (hgen : accountGen 0 (vaultAt gen transport serverUserId) ≠ 1) :
    ¬StoresCurrent (vaultAt gen transport serverUserId) := by
  intro h
  obtain ⟨c, hc, pre, hpre, ev, hev, hname, hstores, hacc, -⟩ :=
    bankSess_stores gen transport serverUserId
  have hcarries : (1 : ℤ) = accountGen 0 ev.pre :=
    ((h c hc ev hev _ hstores).1 bankItem List.mem_cons_self).1
  exact hgen (hacc.symm.trans hcarries.symm)

end Vautr.Import
