import Vautr.ContentIndex
import Vautr.Import
import Vautr.Search

/-!
The search index of the local database (`items_fts`, an FTS5 table with `item_overviews` as its
content): the triggers that keep it, `rebuild_fts` and `ingest` that build it anew, and what
`search_overviews` finds by it. A query with nothing to search for is answered without the index.

The transactions are those of `ClientDb`; their statements on `item_overviews` are run here with the
triggers. A transaction can fail anywhere and is rolled back then. `rebuild_fts` is not a
transaction: it can stop after any of its statements.
-/

namespace Vautr.SearchIndex

open Vautr.Sql Vautr.Server Vautr.Crypto Vautr.ClientDb Vautr.Import Vautr.ContentIndex

deriving instance DecidableEq for Search.Overview

/-! ### The database with its index -/

/-- The indexed columns. -/
def doc (o : OverviewRow) : Search.Overview := ⟨o.title.toList, o.subtitle.toList, o.urls.toList⟩

abbrev Overviews := Content OverviewRow.uuid Search.Overview

structure IndexedDb where
  overviews : Overviews
  payloads : Table (PayloadRow.uuid : PayloadRow Blob → Ident)
  syncMeta : Table (SyncMetaRow.id : SyncMetaRow Blob → ℕ)
  localBlacklist : Table BlacklistRow.uuid
  quarantine : Table QuarantineRow.uuid
  pendingDeletes : Table PendingDelete.uuid

namespace IndexedDb

/-- The tables without the index. -/
def plain (db : IndexedDb) : LocalDb Blob where
  overviews := db.overviews.table
  payloads := db.payloads
  syncMeta := db.syncMeta
  localBlacklist := db.localBlacklist
  quarantine := db.quarantine
  pendingDeletes := db.pendingDeletes

/-- `item_overviews` and its index, and the other tables as in `l`. -/
def withTables (overviews : Overviews) (l : LocalDb Blob) : IndexedDb where
  overviews
  payloads := l.payloads
  syncMeta := l.syncMeta
  localBlacklist := l.localBlacklist
  quarantine := l.quarantine
  pendingDeletes := l.pendingDeletes

end IndexedDb

/-! ### Transactions -/

/-- The transactions, `deleteOverview` and `deletePayload` being the statements of
`delete_local_item`. -/
inductive Txn
  | saveItem (o : OverviewRow) (payload : Blob)
  | applySyncBatch (overviews : List OverviewRow) (payloads : List (PayloadRow Blob))
      (deletes : List Ident) (cursor minGen : ℤ)
  | reencryptItem (uuid : Ident) (payload : Blob) (gen : ℤ)
  | deleteItem (uuid : Ident)
  | deleteOverview (uuid : Ident)
  | deletePayload (uuid : Ident)
  | persistDashmap (entries : Table BlacklistRow.uuid)
  | storeSvkBlob (blob : Blob)
  | clearPendingDeletes (uuids : List Ident)
  | ingest (items : List EncryptedItem)

/-- The transaction on the tables. -/
def Txn.onTables : Txn → LocalDb Blob → Option (LocalDb Blob)
  | .saveItem o payload, l => some (saveItemTxn o payload l)
  | .applySyncBatch os ps deletes cursor minGen, l =>
    applySyncBatchTxn os ps deletes cursor minGen l
  | .reencryptItem uuid payload gen, l => some (reencryptItemTxn uuid payload gen l)
  | .deleteItem uuid, l => some (deleteItemTxn uuid l)
  | .deleteOverview uuid, l => some { l with overviews := l.overviews.delete (·.uuid = uuid) }
  | .deletePayload uuid, l => some { l with payloads := l.payloads.delete (·.uuid = uuid) }
  | .persistDashmap entries, l => some (persistDashmapTxn entries l)
  | .storeSvkBlob blob, l => ClientDb.storeSvkBlob blob l
  | .clearPendingDeletes uuids, l => some (ClientDb.clearPendingDeletes uuids l)
  | .ingest items, l => ingestTxn items l

/-- The deletes of a page; without any there is no statement. -/
def deleteRows (deletes : List Ident) (c : Overviews) : Option Overviews :=
  if deletes = [] then some c else c.delete doc (·.uuid ∈ deletes)

/-- Its statements on `item_overviews` and the index, if it has some. -/
def Txn.onOverviews : Txn → Overviews → Option Overviews
  | .saveItem o _, c => c.upsert doc o o.saved o.saved_uuid
  | .applySyncBatch os _ deletes _ _, c => do
    let c ← deleteRows deletes c
    os.foldlM (fun c o => c.upsert doc o o.synced o.synced_uuid) c
  | .reencryptItem uuid _ gen, c =>
    c.update doc (·.uuid = uuid) (·.setGen gen) (OverviewRow.setGen_uuid _)
  | .deleteItem uuid, c => c.delete doc (·.uuid = uuid)
  | .deleteOverview uuid, c => c.delete doc (·.uuid = uuid)
  | .deletePayload _, c => some c
  | .persistDashmap _, c => some c
  | .storeSvkBlob _, c => some c
  | .clearPendingDeletes _, c => some c
  -- `DROP_FTS_SQL`, the inserts, `RECREATE_FTS_SQL` and `REBUILD_FTS_SQL`
  | .ingest items, c => do
    let c ← (items.map (·.overview)).foldlM (fun c o => c.insert doc o)
      (c.dropIndex.setTriggers false)
    (c.createIndex.setTriggers true).populate doc

/-- `none` is an error, and the transaction is rolled back. -/
def Txn.run (t : Txn) (db : IndexedDb) : Option IndexedDb := do
  let overviews ← t.onOverviews db.overviews
  let l ← t.onTables db.plain
  return .withTables overviews l

/-! ### Rebuilding (`rebuild_fts`) -/

/-- The statements of `rebuild_fts`; each is a transaction of its own. -/
def rebuildFts : List (Overviews → Option Overviews) := [
  fun c => some c.dropIndex,
  fun c => some (c.setTrigger .insert false),
  fun c => some (c.setTrigger .delete false),
  fun c => some (c.setTrigger .update false),
  fun c => some c.createIndex,
  fun c => some (c.setTrigger .insert true),
  fun c => some (c.setTrigger .delete true),
  fun c => some (c.setTrigger .update true),
  fun c => c.populate doc]

/-- One statement after the other, until one fails. -/
def autocommit : List (Overviews → Option Overviews) → Overviews → Overviews
  | [], c => c
  | s :: ss, c => (s c).elim c (autocommit ss)

/-! ### Runs -/

/-- A transaction that is committed if it does not fail, or is not; the first statements of
`rebuild_fts`. -/
inductive Act
  | txn (t : Txn) (commits : Bool)
  | rebuild (statements : ℕ)

def step (a : Act) (db : IndexedDb) : IndexedDb :=
  match a with
  | .txn t commits => if commits then (t.run db).getD db else db
  | .rebuild n => { db with overviews := autocommit (rebuildFts.take n) db.overviews }

def run (acts : List Act) (db : IndexedDb) : IndexedDb := acts.foldl (fun db a => step a db) db

/-- The step without an index. -/
def stepTables (a : Act) (l : LocalDb Blob) : LocalDb Blob :=
  match a with
  | .txn t commits => if commits then (t.onTables l).getD l else l
  | .rebuild _ => l

def runTables (acts : List Act) (l : LocalDb Blob) : LocalDb Blob :=
  acts.foldl (fun l a => stepTables a l) l

/-! ### Searches -/

/-- `ORDER BY rank`: the order in which FTS5 puts the rows that match an expression. -/
structure Ranking where
  order : Search.Text → Overviews → List OverviewRow → List OverviewRow
  perm : ∀ expr c hits, (order expr c hits).Perm hits

def recentOverviews (limit : ℕ) (t : Table OverviewRow.uuid) : List OverviewRow :=
  (t.rows.insertionSort fun a b => b.updatedAt < a.updatedAt ∨
    b.updatedAt = a.updatedAt ∧ b.createdAt ≤ a.createdAt).take limit

/-- `search_overviews`: the rows, and whether the query makes for a slow scan; `none` is an
error. -/
def searchOverviews (U : Search.Unicode) (R : Ranking) (query : Search.Text) (db : IndexedDb) :
    Option (List OverviewRow × Bool) :=
  let prepared := Search.prepareSearch U query
  if prepared.isEmpty then some (recentOverviews 50 db.overviews.table, false)
  else do
    let _ ← Search.parse prepared.matchExpr
    let hits ← db.overviews.search (Search.matchesRow U prepared.matchExpr)
    return ((R.order prepared.matchExpr db.overviews hits).take 100, prepared.leadingWildcard)

/-- The rows that match a query. -/
def matching (U : Search.Unicode) (query : Search.Text) (t : Table OverviewRow.uuid) :
    List OverviewRow :=
  t.rows.filter fun o => Search.matchesRow U (Search.prepareSearch U query).matchExpr (doc o)

/-- With an exact index a search finds the first of the rows that match. -/
lemma searchOverviews_exact {db : IndexedDb} (h : db.overviews.Exact doc) (U : Search.Unicode)
    (R : Ranking) (query : Search.Text) :
    ∃ found : List OverviewRow, found.Perm (matching U query db.overviews.table) ∧
      searchOverviews U R query db = if (Search.prepareSearch U query).isEmpty
        then some (recentOverviews 50 db.overviews.table, false)
        else (Search.parse (Search.prepareSearch U query).matchExpr).map fun _ =>
          (found.take 100, (Search.prepareSearch U query).leadingWildcard) := by
  obtain ⟨hits, hhits, hp⟩ :=
    h.search (Search.matchesRow U (Search.prepareSearch U query).matchExpr)
  refine ⟨_, (R.perm (Search.prepareSearch U query).matchExpr db.overviews hits).trans hp, ?_⟩
  simp only [searchOverviews, hhits]
  congr 1
  cases Search.parse (Search.prepareSearch U query).matchExpr <;> rfl

/-! ### Transactions on an exact index -/

lemma ingest_overviews {items : List EncryptedItem} {c : Overviews} {t : Table OverviewRow.uuid}
    (ht : (items.map (·.overview)).foldlM (fun t o => t.insert o) c.table = some t) :
    ∃ c', (Txn.ingest items).onOverviews c = some c' ∧ c'.table = t ∧ c'.Exact doc := by
  obtain ⟨c₁, hc₁, ht₁, h₁⟩ := c.dropped_bare.foldlM_insert doc _ ht
  obtain ⟨c', hc', ht', h'⟩ := Content.recreated_exact doc h₁.index
  refine ⟨c', ?_, ht'.trans ht₁, h'⟩
  rw [Txn.onOverviews, hc₁]
  exact hc'

lemma onTables_ingest {items : List EncryptedItem} {l l' : LocalDb Blob}
    (h : (Txn.ingest items).onTables l = some l') :
    (items.map (·.overview)).foldlM (fun t o => t.insert o) l.overviews = some l'.overviews := by
  obtain ⟨t, ht, h⟩ := Option.bind_eq_some_iff.mp h
  obtain ⟨ps, -, h⟩ := Option.bind_eq_some_iff.mp h
  cases h
  exact ht

lemma delete_nil (t : Table OverviewRow.uuid) : t.delete (·.uuid ∈ ([] : List Ident)) = t :=
  Table.ext (List.filter_eq_self.mpr fun _ _ => rfl)

lemma deleteRows_exact {c : Overviews} (h : c.Exact doc) (deletes : List Ident) :
    ∃ c', deleteRows deletes c = some c' ∧ c'.table = c.table.delete (·.uuid ∈ deletes) ∧
      c'.Exact doc := by
  unfold deleteRows
  split
  · next hnil =>
    subst hnil
    exact ⟨c, rfl, (delete_nil _).symm, h⟩
  · exact h.delete _

lemma deleteItemTxn_overviews (uuid : Ident) (l : LocalDb Blob) :
    (deleteItemTxn uuid l).overviews = l.overviews.delete (·.uuid = uuid) := by
  unfold deleteItemTxn
  split <;> rfl

/-- The statements on `item_overviews` of a transaction that does not fail on the tables. -/
lemma onOverviews_exact {t : Txn} {c : Overviews} (h : c.Exact doc) {l l' : LocalDb Blob}
    (hl : l.overviews = c.table) (ht : t.onTables l = some l') :
    ∃ c', t.onOverviews c = some c' ∧ c'.table = l'.overviews ∧ c'.Exact doc := by
  cases t with
  | saveItem o payload =>
    cases ht
    rw [saveItemTxn, hl]
    exact h.upsert o o.saved o.saved_uuid
  | applySyncBatch os ps deletes cursor minGen =>
    obtain ⟨c₁, hc₁, ht₁, h₁⟩ := deleteRows_exact h deletes
    obtain ⟨c', hc', ht', h'⟩ := h₁.foldlM_upsert OverviewRow.synced_uuid os
    simp only [Txn.onTables, applySyncBatchTxn, Option.ite_none_right_eq_some] at ht
    cases ht.2
    refine ⟨c', ?_, by rw [ht', ht₁, hl], h'⟩
    rw [Txn.onOverviews, hc₁]
    exact hc'
  | reencryptItem uuid payload gen =>
    cases ht
    rw [reencryptItemTxn, hl]
    exact h.update _ _ _
  | deleteItem uuid =>
    cases ht
    rw [deleteItemTxn_overviews, hl]
    exact h.delete _
  | deleteOverview uuid =>
    cases ht
    rw [hl]
    exact h.delete _
  | deletePayload uuid => cases ht; exact ⟨c, rfl, hl.symm, h⟩
  | persistDashmap entries => cases ht; exact ⟨c, rfl, hl.symm, h⟩
  | storeSvkBlob blob =>
    simp only [Txn.onTables, ClientDb.storeSvkBlob, Option.ite_none_right_eq_some] at ht
    cases ht.2
    exact ⟨c, rfl, hl.symm, h⟩
  | clearPendingDeletes uuids => cases ht; exact ⟨c, rfl, hl.symm, h⟩
  | ingest items => exact ingest_overviews (hl ▸ onTables_ingest ht)

/-- With an exact index a transaction does to the tables what it does without. -/
lemma Txn.run_eq {t : Txn} {db : IndexedDb} {l : LocalDb Blob} (ht : t.onTables db.plain = some l)
    {c : Overviews} (hc : t.onOverviews db.overviews = some c) :
    t.run db = some (.withTables c l) := by
  rw [Txn.run, hc, ht]
  rfl

lemma plain_withTables {c : Overviews} {l : LocalDb Blob} (h : c.table = l.overviews) :
    (IndexedDb.withTables c l).plain = l := by
  simp [IndexedDb.withTables, IndexedDb.plain, h]

/-- Without an error on the tables there is none. -/
lemma Txn.run_none {t : Txn} {db : IndexedDb} (ht : t.onTables db.plain = none) :
    t.run db = none := by
  rw [Txn.run, ht]
  cases t.onOverviews db.overviews <;> rfl

/-! ### Runs -/

/-- Statements of `rebuild_fts`, but not all of them. -/
def Cut : Act → Prop
  | .txn _ _ => False
  | .rebuild n => 0 < n ∧ n < 9

/-- After it the index is exact. -/
def Repairs (l : LocalDb Blob) : Act → Prop
  | .txn (.ingest items) commits => commits ∧ (ingestTxn items l).isSome
  | .txn _ _ => False
  | .rebuild n => 9 ≤ n

lemma rebuild_exact (c : Overviews) {n : ℕ} (hn : 9 ≤ n) :
    (autocommit (rebuildFts.take n) c).table = c.table ∧
      (autocommit (rebuildFts.take n) c).Exact doc := by
  obtain ⟨c', hc', ht, h⟩ := Content.recreated_exact doc (c.dropped_bare).index
  rw [List.take_of_length_le hn]
  have hrun : autocommit rebuildFts c =
      (((c.dropIndex.setTriggers false).createIndex.setTriggers true).populate doc).elim
        ((c.dropIndex.setTriggers false).createIndex.setTriggers true) id := rfl
  rw [hrun, hc']
  exact ⟨ht, h⟩

/-- A step that does not cut a rebuild keeps an exact index. -/
lemma step_kept {a : Act} (ha : ¬Cut a) {db : IndexedDb} (h : db.overviews.Exact doc) :
    (step a db).plain = stepTables a db.plain ∧ (step a db).overviews.Exact doc := by
  cases a with
  | rebuild n =>
    rcases Nat.eq_zero_or_pos n with rfl | hn
    · exact ⟨rfl, h⟩
    · have hall : 9 ≤ n := by
        by_contra hlt
        exact ha ⟨hn, by omega⟩
      obtain ⟨ht, h'⟩ := rebuild_exact db.overviews hall
      refine ⟨?_, h'⟩
      simp only [step, stepTables, IndexedDb.plain, ht]
  | txn t commits =>
    cases commits with
    | false => exact ⟨rfl, h⟩
    | true =>
      cases hl : t.onTables db.plain with
      | none => simp [step, stepTables, hl, t.run_none hl, h]
      | some l =>
        obtain ⟨c, hc, htable, h'⟩ := onOverviews_exact h rfl hl
        simp only [step, stepTables, hl, Txn.run_eq hl hc, if_true, Option.getD_some]
        exact ⟨plain_withTables htable, h'⟩

/-- So does a whole run. -/
lemma run_kept {acts : List Act} (hacts : ∀ a ∈ acts, ¬Cut a) {db : IndexedDb}
    (h : db.overviews.Exact doc) :
    (run acts db).plain = runTables acts db.plain ∧ (run acts db).overviews.Exact doc := by
  induction acts generalizing db with
  | nil => exact ⟨rfl, h⟩
  | cons a acts ih =>
    obtain ⟨hplain, h'⟩ := step_kept (hacts a (by simp)) h
    have hrun := ih (fun a ha => hacts a (List.mem_cons_of_mem _ ha)) h'
    rw [hplain] at hrun
    exact hrun

/-- A repair makes the index exact, whatever it was. -/
lemma step_repairs {a : Act} {db : IndexedDb} (ha : Repairs db.plain a) :
    (step a db).plain = stepTables a db.plain ∧ (step a db).overviews.Exact doc := by
  cases a with
  | rebuild n =>
    obtain ⟨ht, h'⟩ := rebuild_exact db.overviews ha
    refine ⟨?_, h'⟩
    simp only [step, stepTables, IndexedDb.plain, ht]
  | txn t commits =>
    cases t with
    | ingest items =>
      obtain ⟨rfl, hsome⟩ := ha
      obtain ⟨l, hl⟩ := Option.isSome_iff_exists.mp hsome
      obtain ⟨c, hc, htable, h'⟩ := ingest_overviews (onTables_ingest hl)
      have hrun := @Txn.run_eq (.ingest items) db l hl c hc
      simp only [step, stepTables, hrun, Txn.onTables, hl, if_true, Option.getD_some]
      exact ⟨plain_withTables htable, h'⟩
    | _ => exact ha.elim

/-- **What a search finds after a repair.** Whatever the state of the index was: after an import
that succeeded, or a rebuild that was not cut, and any transactions after it, all tables are as
without an index. A search finds by the index the first hundred, in the order of their rank, of the
rows that match, each once; and one with nothing to search for the recent rows. -/
theorem found_after_repair {db : IndexedDb} {a : Act} (ha : Repairs db.plain a) {acts : List Act}
    (hacts : ∀ a ∈ acts, ¬Cut a) :
    (run (a :: acts) db).plain = runTables (a :: acts) db.plain ∧ ∀ U R query,
      ∃ found : List OverviewRow,
        found.Perm (matching U query (runTables (a :: acts) db.plain).overviews) ∧
        searchOverviews U R query (run (a :: acts) db) =
          if (Search.prepareSearch U query).isEmpty
          then some (recentOverviews 50 (runTables (a :: acts) db.plain).overviews, false)
          else (Search.parse (Search.prepareSearch U query).matchExpr).map fun _ =>
            (found.take 100, (Search.prepareSearch U query).leadingWildcard) := by
  obtain ⟨hplain, h⟩ := step_repairs ha
  obtain ⟨hrun, h⟩ := run_kept hacts h
  rw [hplain] at hrun
  refine ⟨hrun, fun U R query => ?_⟩
  have htable : (run (a :: acts) db).overviews.table = (runTables (a :: acts) db.plain).overviews :=
    congrArg LocalDb.overviews hrun
  rw [← htable]
  exact searchOverviews_exact h U R query

/-- A database as `migrate::init` makes it. -/
def fresh : IndexedDb :=
  ⟨⟨.empty, fun _ => 0, .entries [], true, true, true, by decide⟩, .empty,
    .single ⟨1, 0, 0, .raw 0⟩, .empty, .empty, .empty⟩

lemma fresh_exact : fresh.overviews.Exact doc := ⟨rfl, rfl, rfl, [], rfl, .rfl⟩

def loginRow : OverviewRow := ⟨0, 1, 1, none, "Login", "x", "icon", "[]", 0, 0⟩

/-- The rows in the order of the index. -/
def unranked : Ranking := ⟨fun _ _ hits => hits, fun _ _ _ => .rfl⟩

/-- A rebuild that was cut, one that was not, and an item. -/
theorem found_after_cut : searchOverviews Search.plain unranked "Login".toList
    (run [.rebuild 9, .txn (.saveItem loginRow (.raw 0)) true] (step (.rebuild 1) fresh)) =
      some ([loginRow], false) := by
  obtain ⟨-, h⟩ := @found_after_repair (step (.rebuild 1) fresh) (.rebuild 9) (le_refl 9)
    [.txn (.saveItem loginRow (.raw 0)) true] (by simp [Cut])
  obtain ⟨found, hp, hfound⟩ := h Search.plain unranked "Login".toList
  obtain rfl : found = [loginRow] := List.perm_singleton.mp (hp.trans (.of_eq (by decide +kernel)))
  rw [hfound]
  decide +kernel

/-! ### A rebuild that was cut -/

/-- It has a statement on `item_overviews`; that of an import drops the triggers first. -/
def Txn.writes : Txn → Bool
  | .saveItem _ _ => true
  | .applySyncBatch os _ deletes _ _ => deletes ≠ [] || os ≠ []
  | .reencryptItem _ _ _ => true
  | .deleteItem _ => true
  | .deleteOverview _ => true
  | .deletePayload _ => false
  | .persistDashmap _ => false
  | .storeSvkBlob _ => false
  | .clearPendingDeletes _ => false
  | .ingest _ => true

def IsIngest : Txn → Prop
  | .ingest _ => True
  | _ => False

/-- A transaction that writes is refused; another one goes on without the index. -/
lemma onOverviews_stuck {t : Txn} (ht : ¬IsIngest t) {c : Overviews} (h : c.Stuck) :
    t.onOverviews c = if t.writes then none else some c := by
  cases t with
  | saveItem o payload => exact h.upsert o _ _
  | applySyncBatch os ps deletes cursor minGen =>
    by_cases hd : deletes = []
    · cases os with
      | nil => simp [Txn.onOverviews, Txn.writes, deleteRows, hd]
      | cons o os => simp [Txn.onOverviews, Txn.writes, deleteRows, hd, h.upsert]
    · simp [Txn.onOverviews, Txn.writes, deleteRows, hd, h.delete]
  | reencryptItem uuid payload gen => exact h.update _ _ _
  | deleteItem uuid => exact h.delete _
  | deleteOverview uuid => exact h.delete _
  | ingest items => exact (ht trivial).elim
  | _ => rfl

/-- A transaction that does not write leaves `item_overviews`. -/
lemma onTables_overviews {t : Txn} (hw : t.writes = false) {l l' : LocalDb Blob}
    (h : t.onTables l = some l') : l'.overviews = l.overviews := by
  cases t with
  | applySyncBatch os ps deletes cursor minGen =>
    obtain ⟨rfl, rfl⟩ : deletes = [] ∧ os = [] := by simpa [Txn.writes] using hw
    simp only [Txn.onTables, applySyncBatchTxn, Option.ite_none_right_eq_some] at h
    cases h.2
    exact delete_nil _
  | deletePayload uuid => cases h; rfl
  | persistDashmap entries => cases h; rfl
  | storeSvkBlob blob =>
    simp only [Txn.onTables, ClientDb.storeSvkBlob, Option.ite_none_right_eq_some] at h
    cases h.2
    rfl
  | clearPendingDeletes uuids => cases h; rfl
  | _ => exact Bool.noConfusion hw

lemma step_stuck {t : Txn} (ht : ¬IsIngest t) (commits : Bool) {db : IndexedDb}
    (h : db.overviews.Stuck) :
    (step (.txn t commits) db).overviews = db.overviews ∧ (step (.txn t commits) db).plain =
      if t.writes then db.plain else stepTables (.txn t commits) db.plain := by
  cases commits with
  | false => simp [step, stepTables]
  | true =>
    have hover := onOverviews_stuck ht h
    cases hw : t.writes with
    | true =>
      rw [hw, if_pos rfl] at hover
      have hrun : t.run db = none := by rw [Txn.run, hover]; rfl
      simp [step, hrun]
    | false =>
      rw [hw, if_neg Bool.false_ne_true] at hover
      cases hl : t.onTables db.plain with
      | none => simp [step, stepTables, Txn.run_none hl, hl]
      | some l =>
        have hrun := Txn.run_eq hl hover
        simp only [step, stepTables, hrun, hl, if_true, Option.getD_some]
        exact ⟨rfl, plain_withTables (onTables_overviews hw hl).symm⟩

/-- The act of a transaction and whether it commits. -/
def txnAct (a : Txn × Bool) : Act := .txn a.1 a.2

lemma run_stuck {acts : List (Txn × Bool)} (hacts : ∀ a ∈ acts, ¬IsIngest a.1) {db : IndexedDb}
    (h : db.overviews.Stuck) :
    (run (acts.map txnAct) db).overviews = db.overviews ∧ (run (acts.map txnAct) db).plain =
      runTables ((acts.filter fun a => !a.1.writes).map txnAct) db.plain := by
  induction acts generalizing db with
  | nil => exact ⟨rfl, rfl⟩
  | cons a acts ih =>
    obtain ⟨hover, hplain⟩ := step_stuck (hacts a (by simp)) a.2 h
    obtain ⟨hover', hplain'⟩ := ih (fun a ha => hacts a (List.mem_cons_of_mem _ ha)) (hover ▸ h)
    refine ⟨hover'.trans hover, hplain'.trans ?_⟩
    rw [hplain]
    cases hw : a.1.writes <;> simp [hw, runTables, txnAct]

/-- With no table for the index only a query with nothing to search for is answered. -/
lemma searchOverviews_stuck {db : IndexedDb} (h : db.overviews.Stuck) (U : Search.Unicode)
    (R : Ranking) (query : Search.Text) :
    searchOverviews U R query db = if (Search.prepareSearch U query).isEmpty
      then some (recentOverviews 50 db.overviews.table, false) else none := by
  simp only [searchOverviews, h.search]
  congr 1
  cases Search.parse (Search.prepareSearch U query).matchExpr <;> rfl

/-- **What a cut leaves.** If `rebuild_fts` stops after its first statement, then every transaction
that writes `item_overviews` is refused from then on, until an import: the tables are as if only the
other ones had run, and no search with something to search for is answered. -/
theorem refused_after_cut {db : IndexedDb} (h : db.overviews.Exact doc) {acts : List (Txn × Bool)}
    (hacts : ∀ a ∈ acts, ¬IsIngest a.1) :
    (run (.rebuild 1 :: acts.map txnAct) db).plain =
        runTables ((acts.filter fun a => !a.1.writes).map txnAct) db.plain ∧
      (run (.rebuild 1 :: acts.map txnAct) db).overviews.table = db.overviews.table ∧
      (∀ t : Txn, ¬IsIngest t → t.writes = true →
        t.run (run (.rebuild 1 :: acts.map txnAct) db) = none) ∧
      ∀ U R query, searchOverviews U R query (run (.rebuild 1 :: acts.map txnAct) db) =
        if (Search.prepareSearch U query).isEmpty
        then some (recentOverviews 50 db.overviews.table, false) else none := by
  obtain ⟨hover, hplain⟩ :=
    @run_stuck acts hacts (step (.rebuild 1) db) (Content.Exact.stuck (c := db.overviews) h)
  have htable := congrArg Content.table hover
  change (run (.rebuild 1 :: acts.map txnAct) db).overviews.table = db.overviews.table at htable
  have hstuck : (run (acts.map txnAct) (step (.rebuild 1) db)).overviews.Stuck :=
    hover.symm ▸ Content.Exact.stuck (c := db.overviews) h
  refine ⟨hplain, htable, fun t ht hw => ?_, fun U R query => ?_⟩
  · have hrefused := onOverviews_stuck ht hstuck
    rw [if_pos hw] at hrefused
    change t.run (run (acts.map txnAct) (step (.rebuild 1) db)) = none
    rw [Txn.run, hrefused]
    rfl
  · rw [← htable]
    exact searchOverviews_stuck hstuck U R query

/-- An item that cannot be saved, the second time either. -/
theorem save_refused : (Txn.saveItem loginRow (.raw 0)).run
    (run (.rebuild 1 :: [(Txn.saveItem loginRow (.raw 0), true)].map txnAct) fresh) = none :=
  (@refused_after_cut fresh fresh_exact [(.saveItem loginRow (.raw 0), true)]
    (by simp [IsIngest])).2.2.1 (.saveItem loginRow (.raw 0)) (by simp [IsIngest]) rfl

end Vautr.SearchIndex
