import Vautr.WebSync

/-!
How a web client that is behind catches up.

A sync fetches one page of a hundred changes and moves the cursor to its end. While nobody else
writes, one successful sync for each hundred changes brings every item to where the server has it.
-/

namespace Vautr.WebCatchUp

open Vautr.WebEdits (anyUuid unlocked calm)
open Vautr.Atomic Vautr.Session Vautr.Sql Vautr.Database Vautr.Api Vautr.Server Vautr.Handlers
  Vautr.Crypto Vautr.Client Vautr.Zoom Vautr.WebClient Vautr.WebSync Vautr.Numbering Vautr.Paging

variable {X : Ext Blob} {user : Ident} {w w' : WebWorld}

/-! ### The cursor -/

lemma gives_syncPull_page {s : Db Blob} (cursor : UInt64) : Gives (syncPull user cursor none)
    (fun pull s' => s' = s ∧ ∃ gen, pull = page s user cursor 100 gen) s := by
  refine gives_bind (gives_orInternal (gives_select (P := fun _ s' => s' = s) rfl)) ?_
  rintro gen s rfl
  rw [if_neg (by simp)]
  refine gives_bind (gives_orInternal (gives_select (P := fun _ s' => s' = s) rfl)) ?_
  rintro n s rfl
  split
  · exact gives_throw _
  refine gives_bind (gives_orInternal (gives_select (P := fun rows s' => s' = s ∧
    rows = (itemsAfter s user (asI64 cursor)).take 101) ⟨rfl, rfl⟩)) ?_
  rintro rows s ⟨rfl, rfl⟩
  exact gives_pure ⟨rfl, gen.getD 1, rfl⟩

/-- Where a sync moves the cursor. -/
def nextCursor (user : Ident) (w : WebWorld) : UInt64 :=
  (page w.server user w.store.cursor 100 0).newCursor

lemma gives_cursorBody {w₀ : WebWorld} (hserver : w₀.server = w.server)
    (hstore : w₀.store = w.store) :
    Gives (syncBody X user) (fun _ w' => w'.store.cursor = nextCursor user w) w₀ := by
  refine gives_bind (P := fun state w' => w' = w₀ ∧ state = w.store) (gives_onStore ⟨rfl, hstore⟩)
    ?_
  rintro state w' ⟨hw', rfl⟩
  subst hw'
  refine gives_bind (gives_request (gives_syncPull_page _)) ?_
  rintro pull w₁ ⟨s, -, -, gen, hpull⟩
  have hcursor : pull.newCursor = nextCursor user w := by
    rw [hpull, hserver]
    rfl
  have hrest : ∀ w₂, Gives (do
      setState ({ · with minEncKeyGen := asU64 pull.minEncKeyGen })
      let localItems ← getItems
      let need ← applyPulled localItems pull.items
      fetchPayloads user (slices need)
      let items ← getItems
      pushPending X user (items.filter (·.pending))
      setState ({ · with cursor := pull.newCursor })
      emit [.syncCompleted]) (fun _ w' => w'.store.cursor = nextCursor user w) w₂ := by
    intro w₂
    refine gives_bind gives_true fun _ _ _ => gives_bind gives_true fun _ _ _ => ?_
    refine gives_bind gives_true fun _ _ _ => gives_bind gives_true fun _ _ _ => ?_
    refine gives_bind gives_true fun _ _ _ => gives_bind gives_true fun _ _ _ => ?_
    refine gives_bind (P := fun _ w' => w'.store.cursor = nextCursor user w)
      (gives_onStore hcursor) fun _ w₃ h₃ => ?_
    exact gives_onMem fun _ => h₃
  dsimp only
  split
  · exact gives_bind gives_true fun _ w₂ _ => hrest w₂
  · exact hrest _

lemma gives_cursor (w : WebWorld) : Gives (sync X user)
    (fun _ w' => w'.store.cursor = nextCursor user w) w := by
  refine gives_bind gives_requireDek ?_
  rintro dek w rfl
  refine gives_bind (P := fun _ w' => w'.server = w.server ∧ w'.store = w.store)
    (gives_onMem fun _ => ⟨rfl, rfl⟩) fun _ w₁ h₁ => ?_
  refine gives_tryCatch (gives_cursorBody h₁.1 h₁.2) fun err w₂ => ?_
  exact gives_bind (P := fun _ _ => True) gives_true fun _ _ _ => gives_throw _

/-! ### What is still to come -/

section Pages

variable {α : Type} {f : α → ℤ} {k : ℕ} {a last : α} {l : List α}

/-- In a list of growing numbers, what stands after the first `k` has the greater numbers. -/
lemma mem_drop_iff (hl : l.Pairwise fun a b => f a < f b)
    (hlast : (l.take k).getLast? = some last) : a ∈ l.drop k ↔ a ∈ l ∧ f last < f a := by
  have hsplit : (l.take k ++ l.drop k).Pairwise fun a b => f a < f b := by
    rwa [List.take_append_drop]
  obtain ⟨htake, -, hcross⟩ := List.pairwise_append.mp hsplit
  refine ⟨fun ha => ⟨List.mem_of_mem_drop ha, hcross _ (List.mem_of_getLast? hlast) _ ha⟩, ?_⟩
  rintro ⟨ha, hlt⟩
  rw [← List.take_append_drop k l, List.mem_append] at ha
  refine ha.resolve_left fun hmem => ?_
  obtain ⟨init, hinit⟩ := List.getLast?_eq_some_iff.mp hlast
  rw [hinit] at htake hmem
  rcases List.mem_append.mp hmem with hmem | hmem
  · exact lt_asymm hlt ((List.pairwise_append.mp htake).2.2 _ hmem _ (List.mem_singleton_self _))
  · rw [List.mem_singleton.mp hmem] at hlt
    exact lt_irrefl _ hlt

end Pages

variable (user w) in
/-- The changes after the cursor of the client. -/
def later : List (ItemRow Blob) := itemsAfter w.server user (asI64 w.store.cursor)

lemma mem_later {r : ItemRow Blob} : r ∈ later user w ↔
    r ∈ w.server.items.rows ∧ r.userId = user ∧ ∃ n, r.seq = some n ∧ asI64 w.store.cursor < n :=
  mem_itemsAfter

lemma nodup_later : (later user w).Nodup :=
  (List.perm_insertionSort _ _).nodup_iff.mpr ((w.server.items.nodup.of_map _).filter _)

/-- The numbers of the changes grow. -/
lemma pairwise_later (hs : Distinct w.server) :
    (later user w).Pairwise fun a b => a.seq.getD 0 < b.seq.getD 0 := by
  refine (pairwise_itemsAfter.and nodup_later).imp_of_mem fun {a b} ha hb ⟨hle, hne⟩ => ?_
  obtain ⟨hra, hua, n, hn, -⟩ := mem_later.mp ha
  obtain ⟨hrb, hub, m, hm, -⟩ := mem_later.mp hb
  refine hle.lt_of_ne fun heq => hne ?_
  rw [hn, hm, Option.getD_some, Option.getD_some] at heq
  exact hs a hra b hrb (hua.trans hub.symm) n hn (heq ▸ hm)

/-- From one sync to the next the cursor passes the page, and the server keeps its rows. -/
structure Passed (user : Ident) (w w' : WebWorld) : Prop where
  rows : ∀ k, w'.server.items.get k = w.server.items.get k
  cursor : w'.store.cursor = nextCursor user w

lemma Passed.mem_rows (h : Passed user w w') {r : ItemRow Blob} :
    r ∈ w'.server.items.rows ↔ r ∈ w.server.items.rows := by
  have hmem : ∀ t : Table ItemRow.key, r ∈ t.rows ↔ t.get r.key = some r := fun t => by
    rw [Table.get_eq_some_iff, and_iff_left rfl]
  rw [hmem, hmem, h.rows]

lemma Passed.has (h : Passed user w w') {n : ℤ} : Has w'.server user n ↔ Has w.server user n :=
  exists_congr fun _ => and_congr_left' h.mem_rows

lemma Passed.distinct (h : Passed user w w') (hs : Distinct w.server) : Distinct w'.server :=
  fun r hr r' hr' => hs r (h.mem_rows.mp hr) r' (h.mem_rows.mp hr')

lemma Passed.fits (h : Passed user w w') (hf : Fits user w.server) : Fits user w'.server :=
  fun n hn => hf n (h.has.mp hn)

lemma nextCursor_nil (h : (later user w).take 100 = []) : nextCursor user w = w.store.cursor := by
  unfold later at h
  simp [nextCursor, page, List.take_take, h]

lemma nextCursor_last {last : ItemRow Blob} {n : ℤ}
    (h : ((later user w).take 100).getLast? = some last) (hn : last.seq = some n) :
    nextCursor user w = asU64 n := by
  unfold later at h
  simp [nextCursor, page, List.take_take, h, hn]

/-- A sync leaves the changes after the first hundred to come. -/
lemma Passed.mem_later (h : Passed user w w') (hs : Distinct w.server) (hf : Fits user w.server)
    {r : ItemRow Blob} : r ∈ later user w' ↔ r ∈ (later user w).drop 100 := by
  rw [WebCatchUp.mem_later, h.mem_rows, h.cursor]
  cases hlast : ((later user w).take 100).getLast? with
  | none =>
    have hnil : (later user w).take 100 = [] := List.getLast?_eq_none_iff.mp hlast
    have hdrop : (later user w).drop 100 = later user w := by
      rw [(List.take_eq_nil_iff.mp hnil).resolve_left (by decide)]
      rfl
    rw [nextCursor_nil hnil, hdrop, WebCatchUp.mem_later]
  | some last =>
    have hmem := List.mem_of_mem_take (List.mem_of_getLast? hlast)
    obtain ⟨hrow, hu, n, hn, hlt⟩ := WebCatchUp.mem_later.mp hmem
    have hread : asI64 (asU64 n) = n :=
      asI64_asU64 ((neg_le_asI64 _).trans hlt.le) (hf n ⟨last, hrow, hu, hn⟩)
    rw [nextCursor_last hlast hn, hread, mem_drop_iff (pairwise_later hs) hlast,
      WebCatchUp.mem_later, hn, Option.getD_some, and_assoc, and_assoc]
    refine and_congr_right fun _ => and_congr_right fun _ => ?_
    constructor
    · rintro ⟨m, hm, hnm⟩
      exact ⟨⟨m, hm, hlt.trans hnm⟩, by rwa [hm]⟩
    · rintro ⟨⟨m, hm, -⟩, hnm⟩
      exact ⟨m, hm, by rwa [hm] at hnm⟩

lemma Passed.length_later (h : Passed user w w') (hs : Distinct w.server)
    (hf : Fits user w.server) : (later user w').length = (later user w).length - 100 := by
  rw [← List.length_drop]
  have hperm : (later user w').Perm ((later user w).drop 100) :=
    (List.perm_ext_iff_of_nodup nodup_later (nodup_later.sublist (List.drop_sublist _ _))).mpr
      fun _ => h.mem_later hs hf
  exact hperm.length_eq

/-! ### What the pages come to -/

/-- What a pull makes of an item that is held here, with the row that it lists. -/
def merge (held : Option StoredItem) : Option (ItemRow Blob) → Option StoredItem
  | none => held
  | some r =>
    if r.deletedDate.isSome then none
    else if r.payload.isNone || held.any (·.version = asU64 r.version) then held
    else some (pulledRow r)

lemma afterPull_merge (uuid : Ident) : afterPull user w uuid =
    merge (w.store.items.get uuid) ((pageRows user w).find? (·.uuid = uuid)) := by
  unfold afterPull
  cases (pageRows user w).find? (·.uuid = uuid) <;> rfl

variable (user w) in
/-- What one pull of all changes after the cursor would make of an item. -/
def pulledAll (uuid : Ident) : Option StoredItem :=
  merge (w.store.items.get uuid) ((later user w).find? (·.uuid = uuid))

/-- A list of rows of the user has one row of an item at most. -/
lemma find_row {rows : List (ItemRow Blob)} (hrows : ∀ r ∈ rows, r ∈ later user w)
    {r : ItemRow Blob} {uuid : Ident} :
    rows.find? (·.uuid = uuid) = some r ↔ r ∈ rows ∧ r.uuid = uuid := by
  refine ⟨fun h => ⟨List.mem_of_find?_eq_some h, by simpa using List.find?_some h⟩, ?_⟩
  rintro ⟨hr, rfl⟩
  cases hf : rows.find? (·.uuid = r.uuid) with
  | none => simpa using List.find?_eq_none.mp hf r hr
  | some r' =>
    have hu : r'.uuid = r.uuid := by simpa using List.find?_some hf
    have hkey : r'.key = r.key := by
      rw [ItemRow.key, ItemRow.key, hu, (mem_later.mp (hrows r hr)).2.1,
        (mem_later.mp (hrows r' (List.mem_of_find?_eq_some hf))).2.1]
    have hget := Table.get_of_mem (mem_later.mp (hrows r hr)).1
    rw [← hkey, Table.get_of_mem (mem_later.mp (hrows r' (List.mem_of_find?_eq_some hf))).1] at hget
    rw [Option.some.inj hget]

/-- A pull of a page and one of the rest are a pull of everything. -/
lemma merge_split {rows page rest : List (ItemRow Blob)} {held : Option StoredItem} {uuid : Ident}
    (h : ∀ r, rows.find? (·.uuid = uuid) = some r ↔
      page.find? (·.uuid = uuid) = some r ∨ rest.find? (·.uuid = uuid) = some r)
    (hone : page.find? (·.uuid = uuid) = none ∨ rest.find? (·.uuid = uuid) = none) :
    merge (merge held (page.find? (·.uuid = uuid))) (rest.find? (·.uuid = uuid)) =
      merge held (rows.find? (·.uuid = uuid)) := by
  rcases hone with hnone | hnone
  · have hsame : rows.find? (·.uuid = uuid) = rest.find? (·.uuid = uuid) :=
      Option.ext fun r => by rw [h, hnone, or_iff_right (by simp)]
    rw [hnone, hsame]
    rfl
  · have hsame : rows.find? (·.uuid = uuid) = page.find? (·.uuid = uuid) :=
      Option.ext fun r => by rw [h, hnone, or_iff_left (by simp)]
    rw [hnone, hsame]
    rfl

/-! ### The syncs -/

/-- A client that has nothing to push, of an account whose changes are numbered. -/
structure Quiet (user : Ident) (w : WebWorld) : Prop where
  idle : ∀ uuid i, w.store.items.get uuid = some i → i.pending = false
  distinct : Distinct w.server
  fits : Fits user w.server

/-- What a sync of such a client does. -/
structure Step (user : Ident) (w w' : WebWorld) : Prop where
  passed : Passed user w w'
  pulled : ∀ uuid, w'.store.items.get uuid = afterPull user w uuid

lemma Quiet.step (hw : Quiet user w) {pending : List StoredItem} {results : List PushResult}
    (h : Synced user w w' pending results) (hcursor : w'.store.cursor = nextCursor user w) :
    Step user w w' := by
  have hnone : pending = [] := by
    refine List.eq_nil_iff_forall_not_mem.mpr fun j hj => ?_
    obtain ⟨hafter, hpend⟩ := (h.mem j).mp hj
    rcases (afterPull_cases hafter).2 with hheld | ⟨r, -, rfl⟩
    · exact Bool.false_ne_true ((hw.idle _ _ hheld).symm.trans hpend)
    · exact Bool.false_ne_true hpend
  subst hnone
  exact ⟨⟨fun k => h.pushed.others k (by simp), hcursor⟩, fun uuid => h.others uuid (by simp)⟩

lemma Step.quiet (h : Step user w w') (hw : Quiet user w) : Quiet user w' := by
  refine ⟨fun uuid i hi => ?_, h.passed.distinct hw.distinct, h.passed.fits hw.fits⟩
  rw [h.pulled] at hi
  rcases (afterPull_cases hi).2 with hheld | ⟨r, -, rfl⟩
  · exact hw.idle _ _ hheld
  · rfl

/-- A sync takes nothing from what a pull of everything makes of an item, and adds nothing. -/
lemma Step.pulledAll (h : Step user w w') (hw : Quiet user w) (uuid : Ident) :
    pulledAll user w' uuid = pulledAll user w uuid := by
  have hlater := fun r => h.passed.mem_later hw.distinct hw.fits (r := r)
  have hpage : ∀ r ∈ pageRows user w, r ∈ later user w := fun r => List.mem_of_mem_take
  have hrest : ∀ r ∈ (later user w).drop 100, r ∈ later user w := fun r => List.mem_of_mem_drop
  have hfind : (later user w').find? (·.uuid = uuid) =
      ((later user w).drop 100).find? (·.uuid = uuid) := Option.ext fun r => by
    rw [find_row fun _ => id, find_row hrest, hlater]
  rw [WebCatchUp.pulledAll, h.pulled, afterPull_merge, hfind]
  refine merge_split (fun r => ?_) ?_
  · rw [find_row fun _ => id, find_row hpage, find_row hrest, ← or_and_right, ← List.mem_append]
    unfold pageRows
    rw [← later, List.take_append_drop]
  · by_contra! hboth
    obtain ⟨⟨r, hr⟩, r', hr'⟩ := And.intro (Option.ne_none_iff_exists'.mp hboth.1)
      (Option.ne_none_iff_exists'.mp hboth.2)
    obtain ⟨hmem, hu⟩ := (find_row hpage).mp hr
    obtain ⟨hmem', hu'⟩ := (find_row hrest).mp hr'
    -- the page and the rest have no row in common
    have heq := (find_row fun _ => id).mpr ⟨hpage _ hmem, hu⟩
    rw [(find_row fun _ => id).mpr ⟨hrest _ hmem', hu'⟩] at heq
    obtain rfl := Option.some.inj heq
    exact List.disjoint_take_drop nodup_later le_rfl hmem hmem'

/-- `k` syncs, one after the other. -/
def syncs (X : Ext Blob) (user : Ident) : ℕ → WebOp Unit
  | 0 => return ()
  | k + 1 => do
    sync X user
    syncs X user k

lemma gives_step (hw : Quiet user w) : Gives (sync X user) (fun _ w' => Step user w w') w := by
  refine gives_mono (gives_and (gives_sync w) (gives_cursor w)) ?_
  rintro _ w' ⟨⟨pending, results, h⟩, hcursor⟩
  exact hw.step h hcursor

lemma gives_syncs (k : ℕ) (hw : Quiet user w) (hk : (later user w).length ≤ 100 * k) :
    Gives (syncs X user k) (fun _ w' => (∀ uuid, serverRow user w' uuid = serverRow user w uuid) ∧
      ∀ uuid, w'.store.items.get uuid = pulledAll user w uuid) w := by
  induction k generalizing w with
  | zero =>
    have hnil : later user w = [] := List.eq_nil_of_length_eq_zero (by omega)
    exact gives_pure ⟨fun _ => rfl, fun uuid => by rw [pulledAll, hnil]; rfl⟩
  | succ k ih =>
    refine gives_bind (gives_step hw) fun _ w₁ h₁ => ?_
    have hlen := h₁.passed.length_later hw.distinct hw.fits
    refine gives_mono (ih (h₁.quiet hw) (by omega)) fun _ w₂ h₂ => ⟨fun uuid => ?_, fun uuid => ?_⟩
    · rw [h₂.1]
      exact h₁.passed.rows _
    · rw [h₂.2, h₁.pulledAll hw]

/-- An item the syncs bring to where the server has it: without a change after the cursor it is
there already; a change that is no deletion has a payload, unless it is held in that version,
and then it is held with the payload of the row. -/
structure Arrives (user : Ident) (w : WebWorld) (uuid : Ident) : Prop where
  same : (∀ r ∈ later user w, r.uuid ≠ uuid) →
    (w.store.items.get uuid).map content = liveContent (serverRow user w uuid)
  changed : ∀ r ∈ later user w, r.uuid = uuid → r.deletedDate = none →
    if (w.store.items.get uuid).any (·.version = asU64 r.version) then
      ∀ i, w.store.items.get uuid = some i → i.payload = r.payload
    else r.payload.isSome

lemma pulledAll_iff (uuid : Ident) :
    (pulledAll user w uuid).map content = liveContent (serverRow user w uuid) ↔
      Arrives user w uuid := by
  unfold pulledAll
  cases hf : (later user w).find? (·.uuid = uuid) with
  | none =>
    have hno : ∀ r ∈ later user w, r.uuid ≠ uuid := by simpa using List.find?_eq_none.mp hf
    exact ⟨fun h => ⟨fun _ => h, fun r hr hu => absurd hu (hno r hr)⟩, fun h => h.same hno⟩
  | some r =>
    obtain ⟨hr, rfl⟩ := (find_row fun _ => id).mp hf
    obtain ⟨hmem, rfl, -⟩ := mem_later.mp hr
    have hrow : serverRow r.userId w r.uuid = some r := Table.get_of_mem hmem
    have hone : ∀ r' ∈ later r.userId w, r'.uuid = r.uuid → r' = r := fun r' hr' hu => by
      rw [(find_row fun _ => id).mpr ⟨hr', hu⟩, Option.some.injEq] at hf
      exact hf
    have hiff : Arrives r.userId w r.uuid ↔ (r.deletedDate = none →
        if (w.store.items.get r.uuid).any (·.version = asU64 r.version) then
          ∀ i, w.store.items.get r.uuid = some i → i.payload = r.payload
        else r.payload.isSome) :=
      ⟨fun h => h.changed r hr rfl, fun h => ⟨fun hno => absurd rfl (hno r hr),
        fun r' hr' hu => by rw [hone r' hr' hu]; exact h⟩⟩
    rw [hiff, hrow]
    cases hdel : r.deletedDate with
    | some t => simp [merge, liveContent, hdel]
    | none =>
      cases hheld : w.store.items.get r.uuid with
      | none => cases hp : r.payload <;> simp [merge, liveContent, hdel, hp, pulledRow, content]
      | some i =>
        by_cases hv : i.version = asU64 r.version
        · simpa [merge, liveContent, hdel, hv, content] using eq_comm
        · have hv' : asU64 r.version ≠ i.version := Ne.symm hv
          cases hp : r.payload <;>
            simp [merge, liveContent, hdel, hp, pulledRow, content, hv, hv']

/-- **Catching up.** Of a client that has nothing to push, syncs that succeed while nobody else
writes, one for each hundred changes after the cursor, make of every item what one pull of all
those changes would make of it; all items are then as on the server if and only if each of them
arrives. -/
theorem catches_up (X : Ext Blob) (hw : Quiet user w) {k : ℕ}
    (hk : (later user w).length ≤ 100 * k) :
    Gives (syncs X user k) (fun _ w' => (∀ uuid, w'.store.items.get uuid = pulledAll user w uuid) ∧
      ((∀ uuid, (w'.store.items.get uuid).map content = liveContent (serverRow user w' uuid)) ↔
        ∀ uuid, Arrives user w uuid)) w := by
  refine gives_mono (gives_syncs k hw hk) fun _ w' h => ⟨h.2, forall_congr' fun uuid => ?_⟩
  rw [h.1, h.2, pulledAll_iff]

/-! ### A page of many, and the rest -/

lemma mem_manyItems {r : ItemRow Blob} (h : r ∈ manyItems.server.items.rows) :
    ∃ i < 101, r = written i := by
  obtain ⟨i, hi, rfl⟩ := List.mem_map.mp h
  exact ⟨i, List.mem_range.mp hi, rfl⟩

lemma quiet_manyItems : Quiet 1 manyItems where
  idle uuid i hi := by
    change Table.get Table.empty uuid = some i at hi
    simp at hi
  distinct r hr r' hr' _ n hn hn' := by
    obtain ⟨i, -, rfl⟩ := mem_manyItems hr
    obtain ⟨j, -, rfl⟩ := mem_manyItems hr'
    simp only [written, Option.some.injEq] at hn hn'
    obtain rfl : i = j := by omega
    rfl
  fits n := by
    rintro ⟨r, hr, -, hn⟩
    obtain ⟨i, hi, rfl⟩ := mem_manyItems hr
    simp only [written, Option.some.injEq] at hn
    omega

lemma length_later_le (user : Ident) (w : WebWorld) :
    (later user w).length ≤ w.server.items.rows.length := by
  rw [later, itemsAfter, List.length_insertionSort]
  exact List.length_filter_le _ _

lemma arrives_manyItems (uuid : Ident) : Arrives 1 manyItems uuid where
  same hno := by
    have hrow : serverRow 1 manyItems uuid = none := by
      rw [serverRow, Table.get_eq_none_iff]
      intro r hr hkey
      obtain ⟨i, hi, rfl⟩ := mem_manyItems hr
      refine hno (written i) (mem_later.mpr ⟨hr, rfl, i + 1, rfl, ?_⟩) (Prod.mk.inj hkey).1
      change (0 : ℤ) < i + 1
      omega
    rw [hrow]
    rfl
  changed r hr _ _ := by
    obtain ⟨i, -, rfl⟩ := mem_manyItems (mem_later.mp hr).1
    rfl

/-- The last of the 101 items, which the first sync leaves behind, comes with the second. -/
theorem page_then_rest : (later 1 manyItems).length ≤ 100 * 2 ∧ ∃ w',
    Ends (syncs anyUuid 1 2).run manyItems (.ok ()) w' ∧
      ∀ uuid, (w'.store.items.get uuid).map content = liveContent (serverRow 1 w' uuid) := by
  have hlen : (later 1 manyItems).length ≤ 100 * 2 :=
    (length_later_le _ _).trans (by simp [manyItems])
  have hrun : (alone calm (syncs anyUuid 1 2).run manyItems).1 = .ok () := by decide +kernel
  obtain ⟨w', hw'⟩ : ∃ w', Ends (syncs anyUuid 1 2).run manyItems (.ok ()) w' :=
    ⟨_, ends_of_alone hrun⟩
  have hends := Safe.ends (catches_up anyUuid quiet_manyItems hlen) hw'
  exact ⟨hlen, w', hw', hends.2.mpr arrives_manyItems⟩

end Vautr.WebCatchUp
