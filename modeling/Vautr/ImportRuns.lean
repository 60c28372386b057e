import Mathlib.Data.List.DropRight
import Vautr.Import

/-!
Whole imports (`preflight`, `run_pipeline` and `ingest` of `vautr-import`): what they report, what
they store, and what a second import of the same records does.

A record is a duplicate if its trimmed title and its url are those of an item, and the titles of the
items that were there before are taken as they are.
-/

namespace Vautr.ImportRuns

open Vautr.Sql Vautr.Server Vautr.ClientDb Vautr.Crypto Vautr.Import

/-! ### The import -/

/-- The bar, and the values that it has shown. -/
structure Progress where
  current : ℕ
  shown : List ℕ

def Progress.report (value : ℕ) (prog : Progress) : Progress :=
  if prog.current < value then ⟨value, prog.shown ++ [value]⟩ else prog

/-- What fails: the query for the titles, the encryption of the chunk that the `n`th record has
filled, that of the last chunk, the transaction. -/
structure Faults where
  preflight : Bool
  chunk : ℕ → Bool
  lastChunk : Bool
  ingest : Bool

/-- What is left after an import. -/
structure Outcome where
  result : Except String ImportReport
  db : LocalDb Blob
  shown : List ℕ

variable (J : Json) (F : Faults) (dek : DKey) (draw : ℕ → Ident × ℤ)

/-- One turn of the loop; if a chunk was encrypted, the bar moves. -/
def onRecord (σ : Pipeline × Progress) (record : Except String ParseRecord) :
    Except Progress (Pipeline × Progress) :=
  let p := σ.1.onRecord J dek draw record
  if σ.1.encrypted.length < p.encrypted.length then
    if F.chunk p.totalParsed then .error σ.2 else .ok (p, σ.2.report 50)
  else .ok (p, σ.2)

/-- `import_file`, of the records that the parser gives. -/
def importRecords (db : LocalDb Blob) (records : List (Except String ParseRecord)) : Outcome :=
  if F.preflight then ⟨.error "preflight", db, []⟩
  else
    match records.foldlM (onRecord J F dek draw) (.new (preflightSet J db), ⟨0, []⟩) with
    | .error prog => ⟨.error "encrypt payload", db, prog.shown⟩
    | .ok (p, prog) =>
      if !p.chunk.isEmpty && F.lastChunk then ⟨.error "encrypt payload", db, prog.shown⟩
      else
        let p := if p.chunk.isEmpty then p else p.flush J dek
        let prog := prog.report 80
        if F.ingest then ⟨.error "bulk insert", db, prog.shown⟩
        else
          match ingestTxn p.encrypted db with
          | none => ⟨.error "bulk insert", db, prog.shown⟩
          | some db => ⟨.ok p.report, db, (prog.report 100).shown⟩

/-! ### What an import promises -/

def firstUrl (o : OverviewRow) : String := (J.parseUrls o.urls).head?.getD ""

/-- The trimmed title and the url of an item. -/
def shownKey (o : OverviewRow) : String × String := (trim o.title, firstUrl J o)

def added (db db' : LocalDb Blob) : List OverviewRow :=
  db'.overviews.rows.drop db.overviews.rows.length

/-- A report, and the vault before and after. -/
structure Sound (records : List (Except String ParseRecord)) (db db' : LocalDb Blob)
    (report : ImportReport) : Prop where
  parsed : report.totalParsed = records.length
  counted : report.totalParsed = report.successCount + report.errors.length
  skipped : report.skippedCount = report.errors.countP (·.reason = .duplicateSkip)
  kept : db.overviews.rows <+: db'.overviews.rows ∧ db.payloads.rows <+: db'.payloads.rows
  stored : (added db db').length = report.successCount
  secrets : (db'.payloads.rows.drop db.payloads.rows.length).map (·.uuid) =
    (added db db').map (·.uuid)
  apart : ((added db db').map (shownKey J)).Nodup
  new : ∀ a ∈ added db db', ∀ b ∈ db.overviews.rows, shownKey J a ≠ shownKey J b
  again : ∀ F dek draw, (importRecords J F dek draw db' records).db = db'

/-- No item has, but for white space around its title, the title and the url of a record that would
be imported. -/
def NoPaddedTwin (db : LocalDb Blob) (records : List (Except String ParseRecord)) : Prop :=
  ∀ r, .ok r ∈ records → Importable (preflightSet J db) (.ok r) →
    ∀ o ∈ db.overviews.rows, shownKey J o ≠ dedupKey r.item

/-- A list of at most one url can be read back. -/
def ReadsBack : Prop := J.parseUrls (J.urls []) = [] ∧ ∀ url, J.parseUrls (J.urls [url]) = [url]

/-! ### Trimming -/

lemma trim_toList (s : String) :
    (trim s).toList = (s.toList.dropWhile isWhitespace).rdropWhile isWhitespace := by
  rw [trim, String.toList_ofList]
  rfl

/-- What is left begins with no white space, and its end is a part of it. -/
lemma dropWhile_rdropWhile {α : Type} (p : α → Bool) (l : List α) :
    ((l.dropWhile p).rdropWhile p).dropWhile p = (l.dropWhile p).rdropWhile p := by
  rw [List.dropWhile_eq_self_iff]
  intro hpos
  have hprefix := List.rdropWhile_prefix p (l.dropWhile p)
  have hlong : 0 < (l.dropWhile p).length := hpos.trans_le hprefix.length_le
  have hhead := (List.dropWhile_eq_self_iff (l := l.dropWhile p)).mp (List.dropWhile_idempotent _ _)
    hlong
  rwa [List.IsPrefix.getElem hprefix hpos]

lemma trim_trim (s : String) : trim (trim s) = trim s := by
  apply String.toList_injective
  rw [trim_toList, trim_toList s, dropWhile_rdropWhile, List.rdropWhile_idempotent]

/-! ### What the loop keeps -/

/-- The key under which an encrypted item is found later. -/
def itemKey (i : EncryptedItem) : String × String := (i.overview.title, firstUrl J i.overview)

def held (p : Pipeline) : List EncryptedItem := p.encrypted ++ p.chunk.map (encryptItem J dek)

/-- After the records `done`: each is counted once, and the keys that were accepted are those of the
importable ones. -/
structure Kept (existing : Finset (String × String)) (done : List (Except String ParseRecord))
    (p : Pipeline) : Prop where
  parsed : p.totalParsed = done.length
  counted : p.totalParsed = (held J dek p).length + p.errors.length
  skipped : p.skipped = p.errors.countP (·.reason = .duplicateSkip)
  known : ∀ k, k ∈ p.existing ↔ k ∈ existing ∨ k ∈ (held J dek p).map (itemKey J)
  keys : ∀ k, k ∈ (held J dek p).map (itemKey J) ↔
    ∃ r, .ok r ∈ done ∧ Importable existing (.ok r) ∧ dedupKey r.item = k
  nodup : ((held J dek p).map (itemKey J)).Nodup
  trimmed : ∀ i ∈ held J dek p, trim i.overview.title = i.overview.title
  uuids : ∀ i ∈ held J dek p, i.payload.uuid = i.overview.uuid

section Loop

variable {J} {dek} {draw} {existing : Finset (String × String)}
  {done : List (Except String ParseRecord)} {p : Pipeline}

lemma held_flush : held J dek (p.flush J dek) = held J dek p := by
  simp [held, Pipeline.flush]

/-- An accepted item comes last, whether or not its chunk is full. -/
lemma held_accept (item : ImportedItem) (key : String × String) :
    held J dek (p.accept J dek item key) = held J dek p ++ [encryptItem J dek item] := by
  have hheld : held J dek { p with
      existing := insert key p.existing
      chunkBytes := p.chunkBytes + J.size item
      chunk := p.chunk ++ [item] } = held J dek p ++ [encryptItem J dek item] := by
    simp [held]
  unfold Pipeline.accept
  dsimp only
  split
  · rw [held_flush, hheld]
  · exact hheld

lemma accept_fields (item : ImportedItem) (key : String × String) :
    (p.accept J dek item key).totalParsed = p.totalParsed ∧
      (p.accept J dek item key).errors = p.errors ∧
      (p.accept J dek item key).skipped = p.skipped ∧
      (p.accept J dek item key).existing = insert key p.existing := by
  unfold Pipeline.accept
  dsimp only
  split
  · exact ⟨rfl, rfl, rfl, rfl⟩
  · exact ⟨rfl, rfl, rfl, rfl⟩

/-- The stored key of a translated record is the key that it was looked up with. -/
lemma itemKey_translate (hJ : ReadsBack J) {raw : RawImportItem} {line : ℕ} {uuid : Ident} {now : ℤ}
    {item : ImportedItem} (h : Import.translate raw existing line uuid now = .ok item) :
    itemKey J (encryptItem J dek item) = dedupKey raw := by
  simp only [Import.translate] at h
  split at h
  · cases h
  split at h
  · cases h
  cases htotp : translateTotp raw.fields with
  | error e => simp [htotp] at h
  | ok totp =>
    simp only [htotp, Except.ok.injEq] at h
    subst h
    change (trim raw.title, (J.parseUrls (J.urls (if raw.url.getD "" = "" then []
      else [raw.url.getD ""]))).head?.getD "") = (trim raw.title, raw.url.getD "")
    by_cases hurl : raw.url.getD "" = ""
    · rw [if_pos hurl, hJ.1, hurl]
      rfl
    · rw [if_neg hurl, hJ.2]
      rfl

lemma kept_new : Kept J dek existing [] (.new existing) where
  parsed := rfl
  counted := rfl
  skipped := rfl
  known k := by simp [held, Pipeline.new]
  keys k := by simp [held, Pipeline.new]
  nodup := by simp [held, Pipeline.new]
  trimmed := by simp [held, Pipeline.new]
  uuids := by simp [held, Pipeline.new]

/-- A record that is not importable, or whose key was accepted before, leaves the keys. -/
lemma keys_snoc (h : Kept J dek existing done p) {record : Except String ParseRecord}
    (hrecord : ∀ r, record = .ok r → Importable existing (.ok r) →
      dedupKey r.item ∈ (held J dek p).map (itemKey J)) (k : String × String) :
    k ∈ (held J dek p).map (itemKey J) ↔
      ∃ r, .ok r ∈ done ++ [record] ∧ Importable existing (.ok r) ∧ dedupKey r.item = k := by
  constructor
  · intro hk
    obtain ⟨r, hr, himp, hkey⟩ := (h.keys k).mp hk
    exact ⟨r, List.mem_append_left _ hr, himp, hkey⟩
  · rintro ⟨r, hr, himp, rfl⟩
    rcases List.mem_append.mp hr with hr | hr
    · exact (h.keys _).mpr ⟨r, hr, himp, rfl⟩
    · exact hrecord r (List.mem_singleton.mp hr).symm himp

lemma Kept.refuse (h : Kept J dek existing done p) {record : Except String ParseRecord}
    (hrecord : ∀ r, record = .ok r → Importable existing (.ok r) →
      dedupKey r.item ∈ (held J dek p).map (itemKey J)) (e : ImportError) :
    Kept J dek existing (done ++ [record]) { p with
      totalParsed := p.totalParsed + 1
      errors := p.errors ++ [e]
      skipped := if e.reason = .duplicateSkip then p.skipped + 1 else p.skipped } where
  parsed := by
    change p.totalParsed + 1 = _
    rw [h.parsed, List.length_append, List.length_singleton]
  counted := by
    have hcount := h.counted
    change p.totalParsed + 1 = (held J dek p).length + (p.errors ++ [e]).length
    rw [List.length_append, List.length_singleton]
    omega
  skipped := by
    change (if e.reason = .duplicateSkip then p.skipped + 1 else p.skipped) =
      (p.errors ++ [e]).countP _
    rw [List.countP_append, List.countP_singleton, h.skipped]
    by_cases he : e.reason = .duplicateSkip <;> simp [he]
  known := h.known
  keys := keys_snoc h hrecord
  nodup := h.nodup
  trimmed := h.trimmed
  uuids := h.uuids

lemma Kept.accept (hJ : ReadsBack J) (h : Kept J dek existing done p) {r : ParseRecord}
    {uuid : Ident} {now : ℤ} {item : ImportedItem}
    (hitem : Import.translate r.item p.existing r.lineNumber uuid now = .ok item) :
    Kept J dek existing (done ++ [.ok r])
      (Pipeline.accept J dek item (dedupKey r.item)
        { p with totalParsed := p.totalParsed + 1 }) := by
  have hheld : held J dek (Pipeline.accept J dek item (dedupKey r.item) { p with
      totalParsed := p.totalParsed + 1 }) = held J dek p ++ [encryptItem J dek item] :=
    held_accept item _
  obtain ⟨hparsed, herrors, hskipped, hexisting⟩ : _ ∧ _ ∧ _ ∧ _ :=
    accept_fields (J := J) (p := { p with totalParsed := p.totalParsed + 1 }) item (dedupKey r.item)
  have hkeys := congrArg (List.map (itemKey J)) hheld
  rw [List.map_append, List.map_singleton, itemKey_translate hJ hitem] at hkeys
  obtain ⟨-, -, _, hr, htitle, hfresh, htotp⟩ := translate_ok hitem
  obtain rfl := Except.ok.inj hr
  have hnew : dedupKey r.item ∉ existing ∧ dedupKey r.item ∉ (held J dek p).map (itemKey J) :=
    not_or.mp fun hk => hfresh ((h.known _).mpr hk)
  have himp : Importable existing (.ok r) := ⟨r, rfl, htitle, hnew.1, htotp⟩
  refine ⟨?_, ?_, ?_, fun k => ?_, fun k => ?_, ?_, fun i hi => ?_, fun i hi => ?_⟩
  · -- one record more is counted
    rw [hparsed, List.length_append, List.length_singleton, ← h.parsed]
  · -- as an item, and not as an error
    have hcount := h.counted
    rw [hparsed, herrors, hheld, List.length_append, List.length_singleton]
    change p.totalParsed + 1 = (held J dek p).length + 1 + p.errors.length
    omega
  · rw [hskipped, herrors]
    exact h.skipped
  · -- its key is known from now on
    rw [hexisting, hkeys, Finset.mem_insert, List.mem_append, List.mem_singleton, h.known, or_comm,
      or_assoc]
  · -- and it was not before
    rw [hkeys, List.mem_append, List.mem_singleton, h.keys]
    constructor
    · rintro (⟨r', hr', himp', hkey⟩ | rfl)
      · exact ⟨r', List.mem_append_left _ hr', himp', hkey⟩
      · exact ⟨r, by simp, himp, rfl⟩
    · rintro ⟨r', hr', himp', rfl⟩
      rcases List.mem_append.mp hr' with hr' | hr'
      · exact .inl ⟨r', hr', himp', rfl⟩
      · cases List.mem_singleton.mp hr'
        exact .inr rfl
  · rw [hkeys]
    refine List.nodup_append.mpr ⟨h.nodup, by simp, ?_⟩
    rintro a ha b hb rfl
    rw [List.mem_singleton.mp hb] at ha
    exact hnew.2 ha
  · rw [hheld] at hi
    rcases List.mem_append.mp hi with hi | hi
    · exact h.trimmed i hi
    · rw [List.mem_singleton.mp hi]
      have hkey : item.title = trim r.item.title :=
        congrArg Prod.fst (itemKey_translate hJ hitem : itemKey J (encryptItem J dek item) = _)
      change trim item.title = item.title
      rw [hkey, trim_trim]
  · rw [hheld] at hi
    rcases List.mem_append.mp hi with hi | hi
    · exact h.uuids i hi
    · rw [List.mem_singleton.mp hi]
      rfl

lemma Kept.step (hJ : ReadsBack J) (h : Kept J dek existing done p)
    (record : Except String ParseRecord) :
    Kept J dek existing (done ++ [record]) (p.onRecord J dek draw record) := by
  cases record with
  | error e =>
    exact h.refuse (fun r hr => by cases hr) ⟨p.totalParsed + 1, "Record", .schemaMismatch e⟩
  | ok r =>
    cases ht : Import.translate r.item p.existing r.lineNumber (draw (p.totalParsed + 1)).1
      (draw (p.totalParsed + 1)).2 with
    | ok item =>
      simp only [Pipeline.onRecord, ht]
      exact h.accept hJ ht
    | error e =>
      simp only [Pipeline.onRecord, ht]
      refine h.refuse (fun r' hr' himp => ?_) e
      cases hr'
      by_contra hk
      obtain ⟨_, hr, htitle, hkey, htotp⟩ := himp
      cases hr
      have hfresh : dedupKey r.item ∉ p.existing := fun hmem =>
        ((h.known _).mp hmem).elim hkey hk
      have himp : Importable p.existing (.ok r) := ⟨r, rfl, htitle, hfresh, htotp⟩
      obtain ⟨item, hitem⟩ := translate_of_importable himp (draw (p.totalParsed + 1)).1
        (draw (p.totalParsed + 1)).2
      rw [ht] at hitem
      cases hitem

lemma Kept.foldl (hJ : ReadsBack J) (records : List (Except String ParseRecord))
    (h : Kept J dek existing done p) :
    Kept J dek existing (done ++ records) (records.foldl (Pipeline.onRecord J dek draw) p) := by
  induction records generalizing done p with
  | nil => rwa [List.append_nil]
  | cons r records ih =>
    rw [List.foldl_cons, List.append_cons]
    exact ih (h.step hJ r)

/-- After the last chunk everything that was accepted is encrypted. -/
lemma kept_runPipeline (hJ : ReadsBack J) (dek : DKey) (draw : ℕ → Ident × ℤ)
    (existing : Finset (String × String)) (records : List (Except String ParseRecord)) :
    Kept J dek existing records (runPipeline J dek draw existing records) ∧
      held J dek (runPipeline J dek draw existing records) =
        (runPipeline J dek draw existing records).encrypted := by
  have h : Kept J dek existing records
      (records.foldl (Pipeline.onRecord J dek draw) (.new existing)) := kept_new.foldl hJ records
  unfold runPipeline
  dsimp only
  by_cases hchunk : (records.foldl (Pipeline.onRecord J dek draw) (.new existing)).chunk.isEmpty
  · rw [if_pos hchunk]
    refine ⟨h, ?_⟩
    rw [held, List.isEmpty_iff.mp hchunk, List.map_nil, List.append_nil]
  · rw [if_neg hchunk]
    have hflush : held J dek (Pipeline.flush J dek
        (records.foldl (Pipeline.onRecord J dek draw) (.new existing))) =
          held J dek (records.foldl (Pipeline.onRecord J dek draw) (.new existing)) := held_flush
    refine ⟨⟨h.parsed, ?_, h.skipped, ?_, ?_, ?_, ?_, ?_⟩, by simp [held, Pipeline.flush]⟩
    · rw [hflush]; exact h.counted
    · rw [hflush]; exact h.known
    · rw [hflush]; exact h.keys
    · rw [hflush]; exact h.nodup
    · rw [hflush]; exact h.trimmed
    · rw [hflush]; exact h.uuids

end Loop

/-! ### The bar -/

/-- The values go up, and none is above where the bar stands. -/
def Progress.Rises (prog : Progress) : Prop :=
  prog.shown.Pairwise (· ≤ ·) ∧ ∀ v ∈ prog.shown, v ≤ prog.current

lemma Progress.Rises.report {prog : Progress} (h : prog.Rises) (value : ℕ) :
    (prog.report value).Rises := by
  unfold Progress.report
  split
  · next hlt =>
    refine ⟨List.pairwise_append.mpr ⟨h.1, List.pairwise_singleton _ _, ?_⟩, ?_⟩
    · intro v hv w hw
      have hle := h.2 v hv
      rw [List.mem_singleton.mp hw]
      omega
    · intro v hv
      rcases List.mem_append.mp hv with hv | hv
      · have hle := h.2 v hv
        change v ≤ value
        omega
      · exact (List.mem_singleton.mp hv).le
  · exact h

/-- The loop does what the pipeline does, unless a chunk cannot be encrypted. -/
lemma foldlM_onRecord (records : List (Except String ParseRecord)) {p : Pipeline} {prog : Progress}
    (h : prog.Rises) :
    match records.foldlM (onRecord J F dek draw) (p, prog) with
    | .error prog' => prog'.Rises
    | .ok (p', prog') =>
      p' = records.foldl (Pipeline.onRecord J dek draw) p ∧ prog'.Rises := by
  induction records generalizing p prog with
  | nil => exact ⟨rfl, h⟩
  | cons r records ih =>
    rw [List.foldlM_cons, List.foldl_cons]
    by_cases hfull : p.encrypted.length < (p.onRecord J dek draw r).encrypted.length
    · by_cases hfails : F.chunk (p.onRecord J dek draw r).totalParsed
      · have hstep : onRecord J F dek draw (p, prog) r = .error prog :=
          (if_pos hfull).trans (if_pos hfails)
        rw [hstep]
        exact h
      · have hstep : onRecord J F dek draw (p, prog) r =
            .ok (p.onRecord J dek draw r, prog.report 50) :=
          (if_pos hfull).trans (if_neg hfails)
        rw [hstep]
        exact ih (h.report 50)
    · have hstep : onRecord J F dek draw (p, prog) r = .ok (p.onRecord J dek draw r, prog) :=
        if_neg hfull
      rw [hstep]
      exact ih h

/-! ### The transaction -/

section Txn

variable {R K : Type} [DecidableEq K] {key : R → K}

/-- Rows that are inserted one after the other come last. -/
lemma rows_insertAll (l : List R) {t t' : Table key}
    (h : l.foldlM (fun t r => t.insert r) t = some t') : t'.rows = t.rows ++ l := by
  induction l generalizing t with
  | nil =>
    cases h
    exact (List.append_nil _).symm
  | cons r l ih =>
    rw [List.foldlM_cons] at h
    obtain ⟨t₁, hr, hl⟩ := Option.bind_eq_some_iff.mp h
    rw [ih hl, (Table.insert_eq_some hr).2, List.append_assoc]
    rfl

end Txn

variable {J} {F} {dek} {draw}

lemma rows_ingestTxn {items : List EncryptedItem} {db db' : LocalDb Blob}
    (h : ingestTxn items db = some db') :
    db'.overviews.rows = db.overviews.rows ++ items.map (·.overview) ∧
      db'.payloads.rows = db.payloads.rows ++ items.map (·.payload) := by
  unfold ingestTxn at h
  obtain ⟨overviews, hov, h⟩ := Option.bind_eq_some_iff.mp h
  obtain ⟨payloads, hpay, h⟩ := Option.bind_eq_some_iff.mp h
  cases h
  exact ⟨rows_insertAll _ hov, rows_insertAll _ hpay⟩

/-- Either the import fails and the vault is as before, or it stores what the pipeline makes of the
records. -/
lemma importRecords_cases (J : Json) (F : Faults) (dek : DKey) (draw : ℕ → Ident × ℤ)
    (db : LocalDb Blob) (records : List (Except String ParseRecord)) :
    (importRecords J F dek draw db records).shown.Pairwise (· ≤ ·) ∧
      ((∃ e, (importRecords J F dek draw db records).result = .error e) ∧
          (importRecords J F dek draw db records).db = db ∨
        ingestTxn (runPipeline J dek draw (preflightSet J db) records).encrypted db =
            some (importRecords J F dek draw db records).db ∧
          (importRecords J F dek draw db records).result =
            .ok (runPipeline J dek draw (preflightSet J db) records).report) := by
  have hstart : Progress.Rises ⟨0, []⟩ := ⟨List.Pairwise.nil, by simp⟩
  have hloop := foldlM_onRecord J F dek draw records (p := .new (preflightSet J db)) hstart
  unfold importRecords
  by_cases hpre : F.preflight
  · rw [if_pos hpre]
    exact ⟨List.Pairwise.nil, .inl ⟨⟨_, rfl⟩, rfl⟩⟩
  rw [if_neg hpre]
  split at hloop
  · exact ⟨hloop.1, .inl ⟨⟨_, rfl⟩, rfl⟩⟩
  next p prog heq =>
  obtain ⟨hp, hprog⟩ := hloop
  dsimp only
  by_cases hlast : (!p.chunk.isEmpty && F.lastChunk) = true
  · rw [if_pos hlast]
    exact ⟨hprog.1, .inl ⟨⟨_, rfl⟩, rfl⟩⟩
  rw [if_neg hlast]
  have hrun : (if p.chunk.isEmpty then p else p.flush J dek) =
      runPipeline J dek draw (preflightSet J db) records := by
    rw [hp]
    rfl
  rw [hrun]
  by_cases hing : F.ingest
  · rw [if_pos hing]
    exact ⟨(hprog.report 80).1, .inl ⟨⟨_, rfl⟩, rfl⟩⟩
  rw [if_neg hing]
  cases htxn : ingestTxn (runPipeline J dek draw (preflightSet J db) records).encrypted db with
  | none => exact ⟨(hprog.report 80).1, .inl ⟨⟨_, rfl⟩, rfl⟩⟩
  | some db' => exact ⟨((hprog.report 80).report 100).1, .inr ⟨rfl, rfl⟩⟩

/-! ### Sound imports -/

lemma mem_preflightSet {db : LocalDb Blob} {k : String × String} :
    k ∈ preflightSet J db ↔ ∃ o ∈ db.overviews.rows, (o.title, firstUrl J o) = k := by
  rw [preflightSet, List.mem_toFinset, List.mem_map]
  rfl

section Stored

variable {db db' : LocalDb Blob} {records : List (Except String ParseRecord)}

/-- A second import of the same records finds the keys of all that it could import. -/
lemma import_again (hJ : ReadsBack J)
    (h : ingestTxn (runPipeline J dek draw (preflightSet J db) records).encrypted db = some db')
    (F' : Faults) (dek' : DKey) (draw' : ℕ → Ident × ℤ) :
    (importRecords J F' dek' draw' db' records).db = db' := by
  obtain ⟨hkept, hheld⟩ := kept_runPipeline hJ dek draw (preflightSet J db) records
  have hrows := (rows_ingestTxn h).1
  obtain ⟨-, ⟨-, hdb⟩ | ⟨htxn, -⟩⟩ :=
    importRecords_cases J F' dek' draw' db' records
  · exact hdb
  have hnone : ∀ r ∈ records, ¬ Importable (preflightSet J db') r := by
    rintro r hr ⟨r', rfl, htitle, hfresh, htotp⟩
    have hold : dedupKey r'.item ∉ preflightSet J db := by
      rw [mem_preflightSet] at hfresh ⊢
      rintro ⟨o, ho, hkey⟩
      exact hfresh ⟨o, by rw [hrows]; exact List.mem_append_left _ ho, hkey⟩
    have hkey := (hkept.keys _).mpr ⟨r', hr, ⟨r', rfl, htitle, hold, htotp⟩, rfl⟩
    rw [hheld] at hkey
    obtain ⟨i, hi, hkey⟩ := List.mem_map.mp hkey
    refine hfresh (mem_preflightSet.mpr ⟨i.overview, ?_, hkey⟩)
    rw [hrows]
    exact List.mem_append_right _ (List.mem_map_of_mem hi)
  rw [(runPipeline_spec J dek' draw' _ records).2.mpr hnone] at htxn
  exact (Option.some.inj htxn).symm

/-- What was stored is sound but for the items with white space around their titles. -/
lemma sound_iff (hJ : ReadsBack J)
    (h : ingestTxn (runPipeline J dek draw (preflightSet J db) records).encrypted db = some db') :
    Sound J records db db' (runPipeline J dek draw (preflightSet J db) records).report ↔
      NoPaddedTwin J db records := by
  obtain ⟨hkept, hheld⟩ := kept_runPipeline hJ dek draw (preflightSet J db) records
  obtain ⟨hover, hpay⟩ := rows_ingestTxn h
  have hagain := import_again hJ h
  generalize runPipeline J dek draw (preflightSet J db) records = q at hkept hheld hover hpay ⊢
  have hadded : added db db' = q.encrypted.map (·.overview) := by
    rw [added, hover, List.drop_left]
  have hkey : ∀ i ∈ q.encrypted, shownKey J i.overview = itemKey J i := by
    intro i hi
    rw [shownKey, hkept.trimmed i (hheld ▸ hi)]
    rfl
  have hkeys : (added db db').map (shownKey J) = q.encrypted.map (itemKey J) := by
    rw [hadded, List.map_map]
    exact List.map_congr_left hkey
  have hmem := hkept.keys
  rw [hheld] at hmem
  constructor
  · intro hsound r hr himp o ho hsame
    have hk := (hmem _).mpr ⟨r, hr, himp, rfl⟩
    rw [← hkeys] at hk
    obtain ⟨a, ha, hak⟩ := List.mem_map.mp hk
    exact hsound.new a ha o ho (hak.trans hsame.symm)
  · intro htwin
    refine ⟨hkept.parsed, ?_, hkept.skipped, ?_, ?_, ?_, ?_, ?_, hagain⟩
    · have hcount := hkept.counted
      rwa [hheld] at hcount
    · rw [hover, hpay]
      exact ⟨List.prefix_append _ _, List.prefix_append _ _⟩
    · rw [hadded, List.length_map]
      rfl
    · rw [hadded, hpay, List.drop_left, List.map_map, List.map_map]
      exact List.map_congr_left fun i hi => hkept.uuids i (hheld ▸ hi)
    · rw [hkeys, ← hheld]
      exact hkept.nodup
    · intro a ha b hb hsame
      have hk : shownKey J a ∈ q.encrypted.map (itemKey J) := hkeys ▸ List.mem_map_of_mem ha
      obtain ⟨r, hr, himp, hrkey⟩ := (hmem _).mp hk
      exact htwin r hr himp b hb (hsame.symm.trans hrkey.symm)

end Stored

/-- **When an import is sound.** For all records and every vault the bar never goes back, and what
fails leaves the vault as it was. An import that succeeds counts every record once, keeps the vault,
stores what it says and nothing a second time, exactly if no item of the vault agrees with an
importable record but for white space around its title. -/
theorem import_sound_iff (J : Json) (hJ : ReadsBack J) (F : Faults) (dek : DKey)
    (draw : ℕ → Ident × ℤ) (db : LocalDb Blob) (records : List (Except String ParseRecord)) :
    (importRecords J F dek draw db records).shown.Pairwise (· ≤ ·) ∧
      (∀ e, (importRecords J F dek draw db records).result = .error e →
        (importRecords J F dek draw db records).db = db) ∧
      ∀ report, (importRecords J F dek draw db records).result = .ok report →
        (Sound J records db (importRecords J F dek draw db records).db report ↔
          NoPaddedTwin J db records) := by
  obtain ⟨hshown, ⟨⟨e, he⟩, hdb⟩ | ⟨htxn, hok⟩⟩ :=
    importRecords_cases J F dek draw db records
  · refine ⟨hshown, fun _ _ => hdb, fun report hreport => ?_⟩
    rw [he] at hreport
    cases hreport
  · refine ⟨hshown, fun e he => ?_, fun report hreport => ?_⟩
    · rw [hok] at he
      cases he
    · rw [hok] at hreport
      cases hreport
      exact sound_iff hJ htxn

/-! ### A title with a blank before it -/

def oneUrl : Json where
  secret _ := .bytes 0
  size _ := 0
  urls l := match l with
    | [] => ""
    | url :: _ => String.ofList ('"' :: url.toList)
  parseUrls s := match s.toList with
    | [] => []
    | _ :: url => [String.ofList url]

lemma readsBack_oneUrl : ReadsBack oneUrl := by
  refine ⟨rfl, fun url => ?_⟩
  simp [oneUrl]

/-- Nothing fails. -/
def sunny : Faults := ⟨false, fun _ => false, false, false⟩

/-- A vault with one item. -/
def vaultOf (title : String) : LocalDb Blob :=
  ⟨⟨[⟨1, 1, 1, none, title, "", "generic", "", 0, 0⟩], by simp⟩,
    ⟨[⟨1, encrypt (.dek 5) 1 1 (.bytes 0)⟩], by simp⟩, .empty, .empty, .empty, .empty⟩

def record (title : String) : Except String ParseRecord := .ok ⟨1, ⟨none, title, none, []⟩⟩

/-- An export: an item that can be stored, a line that cannot be read, one that the vault has, one
without a title, one whose second factor is too short, the first again, and another item. -/
def mixed : List (Except String ParseRecord) :=
  [.ok ⟨1, ⟨none, " Bank", some "bank.example", [("username", "ann")]⟩⟩, .error "bad line",
    .ok ⟨3, ⟨none, "Mail ", none, [("password", "p")]⟩⟩, .ok ⟨4, ⟨none, "  ", none, []⟩⟩,
    .ok ⟨5, ⟨none, "Wifi", none, [("totp", "abc")]⟩⟩,
    .ok ⟨6, ⟨none, "Bank", some "bank.example", []⟩⟩,
    .ok ⟨7, ⟨none, "Shop", none, [("totp", "JBSWY3DP")]⟩⟩]

/-- Two items are stored, and each of the others has its line. -/
def mixedReport : ImportReport := ⟨7, 2, 2,
  [⟨2, "Record", .schemaMismatch "bad line"⟩, ⟨3, "Title: Mail ", .duplicateSkip⟩,
    ⟨4, "Title:   ", .missingRequiredField "title"⟩,
    ⟨5, "Title: Wifi",
      .schemaMismatch "invalid totp secret (3 chars; need >= 8 or otpauth:// URI)"⟩,
    ⟨6, "Title: Bank", .duplicateSkip⟩]⟩

theorem import_sound_iff_mail :
    (importRecords oneUrl sunny (.dek 5) (fun n => (n + 6, 0)) (vaultOf "Mail") mixed).result =
        .ok mixedReport ∧
      Sound oneUrl mixed (vaultOf "Mail") (importRecords oneUrl sunny (.dek 5)
        (fun n => (n + 6, 0)) (vaultOf "Mail") mixed).db mixedReport := by
  have hresult : (importRecords oneUrl sunny (.dek 5) (fun n => (n + 6, 0)) (vaultOf "Mail")
      mixed).result = .ok mixedReport := rfl
  refine ⟨hresult, ((import_sound_iff oneUrl readsBack_oneUrl sunny (.dek 5) _ _ _).2.2 _
    hresult).mpr ?_⟩
  rintro r hr ⟨_, hr', -, hkey, -⟩ o ho
  obtain rfl := Except.ok.inj hr'
  rw [List.mem_singleton.mp ho]
  -- the item of the vault has its title trimmed, so that a record like it is found
  exact fun hsame => hkey (by rw [← hsame]; decide)

/-- An item " Bank" is not found by the record " Bank", which is stored as "Bank". -/
theorem padded_title_twice :
    (importRecords oneUrl sunny (.dek 5) (fun n => (n + 6, 0)) (vaultOf " Bank")
        [record " Bank"]).result = .ok ⟨1, 1, 0, []⟩ ∧
      ¬ Sound oneUrl [record " Bank"] (vaultOf " Bank") (importRecords oneUrl sunny (.dek 5)
        (fun n => (n + 6, 0)) (vaultOf " Bank") [record " Bank"]).db ⟨1, 1, 0, []⟩ := by
  refine ⟨rfl, fun h => ?_⟩
  exact h.new ⟨7, 1, 1, none, "Bank", "", "generic", "", 0, 0⟩ (List.mem_singleton.mpr rfl)
    ⟨1, 1, 1, none, " Bank", "", "generic", "", 0, 0⟩ (List.mem_singleton.mpr rfl) (by decide)

end Vautr.ImportRuns
