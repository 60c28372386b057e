import Vautr.Effects
import Vautr.Paging

/-!
The cursor that a client keeps on disk, and what was applied up to it.

A sync stores what it could fetch of a page together with the cursor at the end of the page,
whatever it could not fetch; only the cursor in memory waits for a sync without failures. So
the cursor on disk is safe as long as a page is stored only in a sync in which nothing has
failed before, and as long as no ignored item is forgotten: an item marked in memory is lost
with the process, and the list in memory replaces the one on disk.
-/

namespace Vautr.SyncCursor

open Vautr.Atomic Vautr.Session Vautr.Sql Vautr.Database Vautr.Api Vautr.Server Vautr.Handlers
  Vautr.ClientDb Vautr.Crypto Vautr.Zoom Vautr.Client Vautr.Orchestrator Vautr.Effects Vautr.Push
  Vautr.Numbering Vautr.Paging

/-! ### What was applied -/

/-- The item is stored at the version of the row. -/
def Stored (c : Device) (r : ItemRow Blob) : Prop :=
  ∃ o ∈ c.db.overviews.get r.uuid, o.version = r.version ∧ (c.db.payloads.get r.uuid).isSome = true

/-- The row is a tombstone, and the item is gone. -/
def Gone (c : Device) (r : ItemRow Blob) : Prop :=
  r.deletedDate.isSome = true ∧ c.db.overviews.get r.uuid = none

/-- The item is ignored, on disk or in memory. -/
def Ignored (c : Device) (u : Ident) : Prop :=
  (c.db.localBlacklist.get u).isSome = true ∨ c.mem.isIgnored u = true

def Applied (c : Device) (r : ItemRow Blob) : Prop := Stored c r ∨ Gone c r ∨ Ignored c r.uuid

/-- A row of the user that was last written at or before `n`. -/
def Old (user : Ident) (s : Db Blob) (n : ℤ) (r : ItemRow Blob) : Prop :=
  r ∈ s.items.rows ∧ r.userId = user ∧ ∃ m ∈ r.seq, m ≤ n

/-- The cursor in `sync_meta`. -/
def persisted (c : Device) : ℤ := ((c.db.syncMeta.get 1).map (·.syncCursor)).getD 0

/-- Every change up to the cursor on disk was applied. -/
def CursorSafe (user : Ident) (d : ℕ) (w : World) : Prop :=
  ∀ r ∈ w.server.items.rows, r.userId = user → ∀ m ∈ r.seq, m ≤ persisted (w.devices d) →
    Applied (w.devices d) r

instance (c : Device) (r : ItemRow Blob) : Decidable (Applied c r) :=
  inferInstanceAs (Decidable ((∃ o ∈ c.db.overviews.get r.uuid, _ ∧ _) ∨ (_ ∧ _) ∨ _ ∨ _))

instance (user : Ident) (d : ℕ) (w : World) : Decidable (CursorSafe user d w) :=
  inferInstanceAs (Decidable (∀ r ∈ w.server.items.rows, _ → ∀ m ∈ r.seq, _))

/-! ### The cursors -/

/-- What the server keeps: the numbers of a user are distinct, those and the versions fit an
`i64`, and an item has a uuid. -/
structure Sound (X : Ext Blob) (user : Ident) (s : Db Blob) : Prop where
  distinct : Distinct s
  uuid : ∀ r ∈ s.items.rows, r.userId = user → X.isUuid r.uuid = true
  version : ∀ r ∈ s.items.rows, r.userId = user → -2 ^ 63 ≤ r.version ∧ r.version < 2 ^ 63
  seq : ∀ m, Has s user m → 1 ≤ m ∧ m < 2 ^ 63

/-- The cursor is at a number that was given out, or at none. -/
def Behind (user : Ident) (s : Db Blob) (n : ℤ) : Prop := n ≤ 0 ∨ ∃ m, Has s user m ∧ n ≤ m

/-- Everything up to `n` was applied. -/
structure Reached (user : Ident) (s : Db Blob) (c : Device) (n : ℤ) : Prop where
  behind : Behind user s n
  applied : ∀ r, Old user s n r → Applied c r

/-- What holds between the statements: both cursors were reached, and the device is connected
for the user, if at all. -/
structure Inv (X : Ext Blob) (user : Ident) (d : ℕ) (w : World) : Prop where
  sound : Sound X user w.server
  transport : ∀ u ∈ (w.devices d).mem.transport, u = user
  disk : Reached user w.server (w.devices d) (persisted (w.devices d))
  memory : Reached user w.server (w.devices d) (asI64 (w.devices d).mem.cursor)

lemma Inv.cursorSafe {X : Ext Blob} {user : Ident} {d : ℕ} {w : World} (h : Inv X user d w) :
    CursorSafe user d w :=
  fun r hr hu m hm hle => h.disk.applied r ⟨hr, hu, m, hm, hle⟩

variable {X : Ext Blob} {user : Ident} {d : ℕ} {w w' : World} {s s' : Db Blob} {c c' : Device}
  {n : ℤ} {r : ItemRow Blob} {α β ε : Type}

/-! ### What the others do -/

/-- The parts of the device that the invariant is about. -/
structure SameDevice (c c' : Device) : Prop where
  db : c'.db = c.db
  cursor : c'.mem.cursor = c.mem.cursor
  blacklist : c'.mem.blacklist = c.mem.blacklist
  transport : c'.mem.transport = c.mem.transport

/-- The device stays, and the server numbers what is written. -/
structure Quietly (user : Ident) (d : ℕ) (w w' : World) : Prop where
  device : SameDevice (w.devices d) (w'.devices d)
  later : Later user w.server w'.server

lemma SameDevice.trans {c'' : Device} (h : SameDevice c c') (h' : SameDevice c' c'') :
    SameDevice c c'' :=
  ⟨h'.db.trans h.db, h'.cursor.trans h.cursor, h'.blacklist.trans h.blacklist,
    h'.transport.trans h.transport⟩

lemma Quietly.trans {w'' : World} (h : Quietly user d w w') (h' : Quietly user d w' w'') :
    Quietly user d w w'' := ⟨h.device.trans h'.device, h.later.trans h'.later⟩

lemma SameDevice.applied (h : SameDevice c c') (ha : Applied c r) : Applied c' r := by
  simpa only [Applied, Stored, Gone, Ignored, Memory.isIgnored, h.db, h.blacklist] using ha

lemma SameDevice.persisted (h : SameDevice c c') : persisted c' = persisted c := by
  rw [SyncCursor.persisted, h.db, SyncCursor.persisted]

lemma Behind.later (h : Behind user s n) (hl : Later user s s') : Behind user s' n := by
  rcases h with h | ⟨m, hm, hle⟩
  · exact .inl h
  · obtain ⟨m', hm', hle'⟩ := hl.has hm
    exact .inr ⟨m', hm', hle.trans hle'⟩

/-- What is written later is numbered above the cursor. -/
lemma Old.before (h : Old user s' n r) (hs : Sound X user s') (hb : Behind user s n)
    (hl : Later user s s') : Old user s n r := by
  obtain ⟨hr, hu, m, hm, hle⟩ := h
  rcases hl.new r hr hu with hold | ⟨m', hm', habove⟩
  · exact ⟨hold, hu, m, hm, hle⟩
  · have heq : m' = m := by
      rw [Option.mem_def, hm'] at hm
      exact Option.some.inj hm
    have hpos := (hs.seq m ⟨r, hr, hu, hm⟩).1
    rcases hb with hb | ⟨k, hk, hkn⟩
    · omega
    · have := habove k hk
      omega

lemma Reached.later (h : Reached user s c n) (hs : Sound X user s') (hl : Later user s s')
    (hc : SameDevice c c') : Reached user s' c' n :=
  ⟨h.behind.later hl, fun r hr => hc.applied (h.applied r (hr.before hs h.behind hl))⟩

lemma Inv.quietly (h : Inv X user d w) (hq : Quietly user d w w') (hs : Sound X user w'.server) :
    Inv X user d w' := by
  refine ⟨hs, ?_, ?_, ?_⟩
  · rw [hq.device.transport]
    exact h.transport
  · rw [hq.device.persisted]
    exact h.disk.later hs hq.later hq.device
  · rw [hq.device.cursor]
    exact h.memory.later hs hq.later hq.device

/-! ### The statements of the device -/

abbrev WorldEv := Ev World ClientEnv Name

def isWarn : Label → Bool
  | .warnFetch _ => true
  | .warnPersist _ _ => true
  | _ => false

/-- Something could not be fetched or stored. -/
def Warned (tr : List WorldEv) : Prop := ∃ ev ∈ tr, isWarn ev.name.2 = true

/-- Every item that is ignored in the one list is ignored in the other. -/
def Within (t t' : Table BlacklistRow.uuid) : Prop :=
  ∀ row ∈ t.rows, (t'.get row.uuid).isSome = true

/-- What a statement has to meet, after the statements `tr` of its operation. A page is stored
in a sync in which nothing has failed. An item that is ignored in memory is on disk when the
memory is lost, and the other way round when the list on disk is replaced. -/
def Careful (d : ℕ) (tr : List WorldEv) (ev : WorldEv) : Prop :=
  match ev.name.2 with
  | .persistPage _ => ev.inp.fault = false → ¬Warned tr
  | .restart => Within (ev.pre.devices d).mem.blacklist (ev.pre.devices d).db.localBlacklist
  | .loadBlacklist => Within (ev.pre.devices d).mem.blacklist (ev.pre.devices d).db.localBlacklist
  | .persistBlacklist => ev.inp.fault = false →
    Within (ev.pre.devices d).db.localBlacklist (ev.pre.devices d).mem.blacklist
  | _ => True

instance (tr : List WorldEv) : Decidable (Warned tr) :=
  inferInstanceAs (Decidable (∃ ev ∈ tr, _))

instance (t t' : Table BlacklistRow.uuid) : Decidable (Within t t') :=
  inferInstanceAs (Decidable (∀ row ∈ t.rows, _))

instance (d : ℕ) (tr : List WorldEv) (ev : WorldEv) : Decidable (Careful d tr ev) := by
  unfold Careful
  split <;> infer_instance

/-- An operation that keeps the invariant. -/
abbrev keeping (X : Ext Blob) (user : Ident) (d : ℕ) : Rules World ClientEnv Name :=
  keeps (Inv X user d) (Quietly user d) (Ordered (Careful d))

/-- The invariant was kept so far. -/
abbrev Kept (X : Ext Blob) (user : Ident) (d : ℕ) (tr : List WorldEv) : Prop :=
  Every (fun ev => Inv X user d ev.post) tr

/-- What is known stays known while the device is left alone. -/
def Lasting (X : Ext Blob) (user : Ident) (d : ℕ) (J : List WorldEv → World → Prop) : Prop :=
  ∀ tr w ev, J tr w → Quietly user d w ev.post → Sound X user ev.post.server → J (tr ++ [ev]) ev.post

/-- The statement changes nothing that the invariant is about. -/
structure Calm (d : ℕ) (ev : WorldEv) : Prop where
  server : ev.post.server = ev.pre.server
  device : SameDevice (ev.pre.devices d) (ev.post.devices d)

variable {J : List WorldEv → World → Prop} {tr : List WorldEv} {ev : WorldEv}

lemma sameDevice_refl (c : Device) : SameDevice c c := ⟨rfl, rfl, rfl, rfl⟩

lemma quietly_refl (w : World) : Quietly user d w w := ⟨sameDevice_refl _, later_refl _ _⟩

lemma Calm.quietly (h : Calm d ev) : Quietly user d ev.pre ev.post :=
  ⟨h.device, h.server ▸ later_refl user _⟩

lemma permits_calm : Permits d (fun s s' => s' = s) (Calm d) where
  read _ := rfl
  memory l e w m _ hm :=
    ⟨rfl, by
      rw [World.setDevice_self]
      exact ⟨rfl, hm.cursor, hm.blacklist, hm.transport⟩⟩
  server l e w s hs := ⟨hs, sameDevice_refl _⟩

lemma calm_gate (e : ClientEnv) (w : World) (g : UInt64) : Calm d ⟨(d, .memory), e, w,
    w.setDevice d { w.devices d with mem := { (w.devices d).mem with minEncKeyGen := g } }⟩ :=
  ⟨rfl, by rw [World.setDevice_self]; exact ⟨rfl, rfl, rfl, rfl⟩⟩

lemma Within.get {t t' : Table BlacklistRow.uuid} (h : Within t t') {u : Ident}
    (hu : (t.get u).isSome = true) : (t'.get u).isSome = true := by
  obtain ⟨row, hrow⟩ := Option.isSome_iff_exists.mp hu
  rw [← Table.get_key hrow]
  exact h row (Table.get_mem hrow)

/-- The state that a statement finds. -/
lemma inv_pre (hok : (keeping X user d).ok (tr ++ [ev])) : Inv X user d ev.pre :=
  hok.2 ev (List.mem_append_right _ (List.mem_singleton_self _))

lemma careful_last (hok : (keeping X user d).ok (tr ++ [ev])) : Careful d tr ev :=
  hok.1 tr ev [] rfl

/-- A program that leaves the device alone. -/
lemma wp_calm {p : Code α} (hp : Promises (Calm d) p) (hJ : Lasting X user d J)
    (htr : Kept X user d tr) (h : J tr w) :
    wp (keeping X user d) p (fun _ tr w => Kept X user d tr ∧ J tr w) tr w := by
  refine wp_of_guarantees_ok (J := fun tr w => Kept X user d tr ∧ J tr w) hp
    (fun _ _ _ _ => trivial) (fun _ _ h => h.1) (fun tr w ev h hr hok hev => ?_)
    (fun _ _ _ h => h) ⟨htr, h⟩
  have hsound : Sound X user ev.post.server := hev.server.symm ▸ (inv_pre hok).sound
  exact ⟨every_append h.1 ((inv_pre hok).quietly hev.quietly hsound),
    hJ tr w ev h.2 (Quietly.trans hr hev.quietly) hsound⟩

lemma wp_bind_calm {x : ExceptT ε Code β} {f : β → ExceptT ε Code α}
    {Q : Except ε α → List WorldEv → World → Prop} (hx : Promises (Calm d) x.run)
    (hJ : Lasting X user d J) (htr : Kept X user d tr) (h : J tr w)
    (herr : ∀ e tr w, Kept X user d tr → J tr w → Q (.error e) tr w)
    (hf : ∀ b tr w, Kept X user d tr → J tr w → wp (keeping X user d) (f b).run Q tr w) :
    wp (keeping X user d) (x >>= f).run Q tr w := by
  rw [wp_bind_except]
  refine wp_mono (fun r tr w hr => ?_) (wp_calm hx hJ htr h)
  cases r with
  | ok b => exact hf b tr w hr.1 hr.2
  | error e => exact herr e tr w hr.1 hr.2

/-- A read of the memory, with what it finds. -/
lemma wp_readMemory {g : Memory → α} {Q : Except ε α → List WorldEv → World → Prop}
    (hJ : Lasting X user d J) (htr : Kept X user d tr) (h : J tr w)
    (hQ : ∀ tr w, Kept X user d tr → Inv X user d w → J tr w →
      Q (.ok (g (w.devices d).mem)) tr w) :
    wp (keeping X user d) (readMemory d g : ExceptT ε Code α).run Q tr w := by
  refine ⟨htr, fun w' e hr hok => ?_⟩
  dsimp only at hok ⊢
  rw [World.setDevice_eq_self] at hok ⊢
  exact hQ _ _ (every_append htr (inv_pre hok)) (inv_pre hok)
    (hJ tr w _ h hr (inv_pre hok).sound)

/-! ### One page -/

/-- A row as the client sees it in a page. -/
def overview (r : ItemRow Blob) : PulledOverview :=
  ⟨r.uuid, asU64 r.version, asU64 r.encKeyGen, r.deletedDate.isSome⟩

/-- The item is still to be fetched, or it is in what the page has come to. -/
def Due (todo : List PulledOverview) (page : Page) (r : ItemRow Blob) : Prop :=
  overview r ∈ todo ∨ r.uuid ∈ page.deletes ∨ r.uuid ∈ page.upserts.map (·.1.uuid)

/-- A page up to the cursor `next`, of which `todo` is still to be fetched. What is known of
the rows up to `next` lasts, since whatever is written later is numbered above. -/
structure Doing (user : Ident) (d : ℕ) (next : UInt64) (todo : List PulledOverview) (page : Page)
    (w : World) : Prop where
  behind : Behind user w.server (asI64 next)
  le : asI64 (w.devices d).mem.cursor ≤ asI64 next
  due : ∀ r, Old user w.server (asI64 next) r → Applied (w.devices d) r ∨ Due todo page r
  deletes : ∀ r, Old user w.server (asI64 next) r → r.uuid ∈ page.deletes →
    r.deletedDate.isSome = true
  upserts : ∀ r, Old user w.server (asI64 next) r → ∀ u ∈ page.upserts, u.1.uuid = r.uuid →
    u.1 = overview r
  todo : ∀ r, Old user w.server (asI64 next) r → ∀ ov ∈ todo, ov.uuid = r.uuid → ov = overview r

/-- Either something has failed, and the log says so, or the page is as it should be. -/
structure Mode (user : Ident) (d : ℕ) (next : UInt64) (todo : List PulledOverview) (page : Page)
    (tr : List WorldEv) (w : World) : Prop where
  warned : page.failed = true → Warned tr
  doing : page.failed = false → Doing user d next todo page w

section Page

variable {next : UInt64} {ov : PulledOverview} {todo : List PulledOverview} {page : Page}

lemma Warned.append (h : Warned tr) (ev : WorldEv) : Warned (tr ++ [ev]) := by
  obtain ⟨ev', hev', hw⟩ := h
  exact ⟨ev', List.mem_append_left _ hev', hw⟩

lemma Doing.quietly (h : Doing user d next todo page w) (hq : Quietly user d w w')
    (hs : Sound X user w'.server) : Doing user d next todo page w' := by
  have hold : ∀ r, Old user w'.server (asI64 next) r → Old user w.server (asI64 next) r :=
    fun r hr => hr.before hs h.behind hq.later
  refine ⟨h.behind.later hq.later, hq.device.cursor ▸ h.le, fun r hr => ?_,
    fun r hr => h.deletes r (hold r hr), fun r hr => h.upserts r (hold r hr),
    fun r hr => h.todo r (hold r hr)⟩
  exact (h.due r (hold r hr)).imp_left hq.device.applied

lemma lasting_mode : Lasting X user d (Mode user d next todo page) :=
  fun _ _ ev h hq hs => ⟨fun hf => (h.warned hf).append ev, fun hf => (h.doing hf).quietly hq hs⟩

/-- An ignored item is applied. -/
lemma Doing.ignore (h : Doing user d next (ov :: todo) page w)
    (hi : (w.devices d).mem.isIgnored ov.uuid = true) : Doing user d next todo page w := by
  refine ⟨h.behind, h.le, fun r hr => ?_, h.deletes, h.upserts,
    fun r hr ov' hov' => h.todo r hr ov' (List.mem_cons_of_mem _ hov')⟩
  rcases h.due r hr with ha | htodo | hpage
  · exact .inl ha
  · rcases List.mem_cons.mp htodo with heq | htodo
    · refine .inl (.inr (.inr (.inr ?_)))
      rwa [← heq] at hi
    · exact .inr (.inl htodo)
  · exact .inr (.inr hpage)

lemma Doing.delete (h : Doing user d next (ov :: todo) page w) (hdel : ov.deleted = true) :
    Doing user d next todo { page with deletes := page.deletes ++ [ov.uuid] } w := by
  refine ⟨h.behind, h.le, fun r hr => ?_, fun r hr hmem => ?_, h.upserts,
    fun r hr ov' hov' => h.todo r hr ov' (List.mem_cons_of_mem _ hov')⟩
  · rcases h.due r hr with ha | htodo | hdeletes | hupserts
    · exact .inl ha
    · rcases List.mem_cons.mp htodo with heq | htodo
      · refine .inr (.inr (.inl (List.mem_append_right _ ?_)))
        rw [← heq]
        exact List.mem_singleton_self _
      · exact .inr (.inl htodo)
    · exact .inr (.inr (.inl (List.mem_append_left _ hdeletes)))
    · exact .inr (.inr (.inr hupserts))
  · rcases List.mem_append.mp hmem with hmem | hmem
    · exact h.deletes r hr hmem
    · have heq := h.todo r hr ov List.mem_cons_self (List.mem_singleton.mp hmem).symm
      rw [heq] at hdel
      exact hdel

lemma Doing.upsert (h : Doing user d next (ov :: todo) page w) (p : Blob) :
    Doing user d next todo { page with upserts := page.upserts ++ [(ov, p)] } w := by
  refine ⟨h.behind, h.le, fun r hr => ?_, h.deletes, fun r hr u hu huuid => ?_,
    fun r hr ov' hov' => h.todo r hr ov' (List.mem_cons_of_mem _ hov')⟩
  · rcases h.due r hr with ha | htodo | hdeletes | hupserts
    · exact .inl ha
    · rcases List.mem_cons.mp htodo with heq | htodo
      · refine .inr (.inr (.inr ?_))
        rw [List.map_append, ← heq]
        exact List.mem_append_right _ (List.mem_singleton_self _)
      · exact .inr (.inl htodo)
    · exact .inr (.inr (.inl hdeletes))
    · refine .inr (.inr (.inr ?_))
      rw [List.map_append]
      exact List.mem_append_left _ hupserts
  · rcases List.mem_append.mp hu with hu | hu
    · exact h.upserts r hr u hu huuid
    · obtain rfl := List.mem_singleton.mp hu
      exact h.todo r hr ov List.mem_cons_self huuid

/-- The log says that something has failed. -/
lemma wp_warn {l : Label} {Q : Except ε Unit → List WorldEv → World → Prop}
    (hl : isWarn l = true) (htr : Kept X user d tr)
    (hQ : ∀ tr w, Kept X user d tr → Warned tr → Q (.ok ()) tr w) :
    wp (keeping X user d) (warn d l : ExceptT ε Code Unit).run Q tr w := by
  refine ⟨htr, fun w' e _ hok => ?_⟩
  dsimp only at hok ⊢
  rw [World.setDevice_eq_self] at hok ⊢
  exact hQ _ _ (every_append htr (inv_pre hok))
    ⟨_, List.mem_append_right _ (List.mem_singleton_self _), hl⟩

/-- What the loop over a page comes to. -/
def Fetched (X : Ext Blob) (user : Ident) (d : ℕ) (next : UInt64) :
    Except ClientError Page → List WorldEv → World → Prop
  | .ok page, tr, w => Kept X user d tr ∧ Mode user d next [] page tr w
  | .error _, tr, _ => Kept X user d tr

/-- The loop over the overviews of a page. -/
lemma wp_fetchPage (ovs : List PulledOverview) (page : Page) (htr : Kept X user d tr)
    (h : Mode user d next ovs page tr w) :
    wp (keeping X user d) (fetchPage d user ovs page).run (Fetched X user d next) tr w := by
  induction ovs generalizing page tr w with
  | nil => exact ⟨htr, h⟩
  | cons ov rest ih =>
    unfold fetchPage
    rw [wp_bind_except]
    refine wp_readMemory lasting_mode htr h fun tr w htr _ h => ?_
    dsimp only
    split
    · next hi => exact ih page htr ⟨h.warned, fun hf => (h.doing hf).ignore hi⟩
    split
    · next hdel => exact ih _ htr ⟨h.warned, fun hf => (h.doing hf).delete hdel⟩
    rw [wp_bind_except, inspect, wp_lift]
    unfold fetchPayloadIfAllowed
    rw [wp_bind_except]
    refine wp_readMemory lasting_mode htr h fun tr w htr _ h => ?_
    dsimp only
    split
    · next hi => exact ih page htr ⟨h.warned, fun hf => (h.doing hf).ignore hi⟩
    refine wp_bind_calm (permits_calm.fetchPayload _ _ _) lasting_mode htr h
      (fun e tr w htr h => ?_) fun p tr w htr h => ?_
    · change wp _ (_ >>= _ : Client.Op Page).run _ tr w
      rw [wp_bind_except]
      exact wp_warn rfl htr fun tr w htr hwarned => ih _ htr ⟨fun _ => hwarned, by simp⟩
    · exact ih _ htr ⟨h.warned, fun hf => (h.doing hf).upsert p⟩

end Page

/-! ### The end of a page -/

section Page

variable {next : UInt64} {page : Page}

/-- Once the page is stored, every row up to its cursor is applied. -/
lemma Doing.stored (h : Doing user d next [] page w) (hs : Sound X user w.server)
    {minGen : ℤ} {db : LocalDb Blob}
    (hdb : applySyncBatchTxn (page.upserts.map fun u => PulledOverview.row u.1)
      (page.upserts.map fun u => ⟨u.1.uuid, u.2⟩) page.deletes (asI64 next) minGen
      (w.devices d).db = some db)
    (hr : Old user w.server (asI64 next) r) : Applied { w.devices d with db } r := by
  obtain ⟨hoverview, hpayload, hblacklist⟩ := applySyncBatchTxn_get hdb r.uuid
  have hos : (page.upserts.map fun u => PulledOverview.row u.1).map (·.uuid) =
      page.upserts.map (·.1.uuid) := by
    rw [List.map_map]
    rfl
  have hps : (page.upserts.map fun u => (⟨u.1.uuid, u.2⟩ : PayloadRow Blob)).map (·.uuid) =
      page.upserts.map (·.1.uuid) := by
    rw [List.map_map]
    rfl
  rw [hos] at hoverview
  rw [hps] at hpayload
  by_cases hup : r.uuid ∈ page.upserts.map (·.1.uuid)
  · have hversion := hs.version r hr.1 hr.2.1
    obtain ⟨⟨o, ho, hv⟩, hp⟩ := applySyncBatchTxn_stores (v := r.version) hdb (fun o ho huuid => by
      obtain ⟨u, hu, rfl⟩ := List.mem_map.mp ho
      rw [h.upserts r hr u hu huuid]
      exact asI64_asU64 hversion.1 hversion.2) (hos ▸ hup) (hps ▸ hup)
    exact .inl ⟨o, ho, hv, hp⟩
  · have hov := hoverview hup
    have hpl := hpayload hup
    by_cases hdel : r.uuid ∈ page.deletes
    · rw [if_pos hdel] at hov
      exact .inr (.inl ⟨h.deletes r hr hdel, hov⟩)
    · rw [if_neg hdel] at hov hpl hblacklist
      have happlied : Applied (w.devices d) r := by
        rcases h.due r hr with ha | htodo | hdel' | hup'
        · exact ha
        · cases htodo
        · exact absurd hdel' hdel
        · exact absurd hup' hup
      simpa only [Applied, Stored, Gone, Ignored, hov, hpl, hblacklist] using happlied

/-- A sync has come to `cursor`. -/
structure Come (user : Ident) (d : ℕ) (cursor : UInt64) (w : World) : Prop where
  le : asI64 (w.devices d).mem.cursor ≤ asI64 cursor
  reached : Reached user w.server (w.devices d) (asI64 cursor)

/-- The loop over the pages is at `cursor`, and maybe something has failed. -/
structure Arrived (user : Ident) (d : ℕ) (cursor : UInt64) (failed : Bool) (tr : List WorldEv)
    (w : World) : Prop where
  warned : failed = true → Warned tr
  come : failed = false → Come user d cursor w

lemma Come.quietly (h : Come user d next w) (hq : Quietly user d w w')
    (hs : Sound X user w'.server) : Come user d next w' :=
  ⟨hq.device.cursor ▸ h.le, h.reached.later hs hq.later hq.device⟩

lemma lasting_arrived {failed : Bool} : Lasting X user d (Arrived user d next failed) :=
  fun _ _ ev h hq hs => ⟨fun hf => (h.warned hf).append ev, fun hf => (h.come hf).quietly hq hs⟩

/-- A page without anything to store. -/
lemma Doing.nothing (h : Doing user d next [] page w) (hu : page.upserts = [])
    (hdel : page.deletes = []) : Come user d next w := by
  refine ⟨h.le, h.behind, fun r hr => ?_⟩
  rcases h.due r hr with ha | htodo | hmem | hmem
  · exact ha
  · cases htodo
  · rw [hdel] at hmem
    cases hmem
  · rw [hu] at hmem
    cases hmem

/-- The world in which the page is stored. -/
lemma Doing.persisted (h : Doing user d next [] page w) (hi : Inv X user d w)
    {minGen : ℤ} {db : LocalDb Blob}
    (hdb : applySyncBatchTxn (page.upserts.map fun u => PulledOverview.row u.1)
      (page.upserts.map fun u => ⟨u.1.uuid, u.2⟩) page.deletes (asI64 next) minGen
      (w.devices d).db = some db) :
    Inv X user d (w.setDevice d { w.devices d with db }) ∧
      Come user d next (w.setDevice d { w.devices d with db }) := by
  have hreached : Reached user w.server { w.devices d with db } (asI64 next) :=
    ⟨h.behind, fun r hr => h.stored hi.sound hdb hr⟩
  have hcursor : SyncCursor.persisted { w.devices d with db } = asI64 next := by
    simp only [SyncCursor.persisted]
    rw [applySyncBatchTxn_cursor hdb]
    rfl
  refine ⟨⟨hi.sound, ?_, ?_, ?_⟩, ?_, ?_⟩
  · rw [World.setDevice_self]
    exact hi.transport
  · rw [World.setDevice_self, hcursor]
    exact hreached
  · rw [World.setDevice_self]
    refine ⟨hi.memory.behind, fun r hold => ?_⟩
    obtain ⟨hr, hu, m, hm, hle⟩ := hold
    exact hreached.applied r ⟨hr, hu, m, hm, hle.trans h.le⟩
  · rw [World.setDevice_self]
    exact h.le
  · rw [World.setDevice_self]
    exact hreached

/-- Storing a page. -/
lemma wp_persistSyncedPage (htr : Kept X user d tr) (h : Mode user d next [] page tr w)
    {Q : Except ClientError Unit → List WorldEv → World → Prop}
    (hQ : ∀ tr w, Kept X user d tr → page.failed = false → Come user d next w → Q (.ok ()) tr w)
    (herr : ∀ e tr w, Kept X user d tr → Q (.error e) tr w) :
    wp (keeping X user d) (persistSyncedPage d page.upserts page.deletes next).run Q tr w := by
  unfold persistSyncedPage
  rw [wp_bind_except]
  refine wp_readMemory lasting_mode htr h fun tr w htr _ h => ?_
  dsimp only
  rw [wp_bind_except]
  refine wp_onDb_ok htr (fun w' e _ hok _ => herr _ _ _ (every_append htr (inv_pre hok)))
    fun w' e db a hr hok hf hdb => ?_
  have hfailed : page.failed = false := by
    by_contra hne
    exact careful_last hok hf (h.warned (by simpa using hne))
  obtain ⟨db', hdb', heq⟩ := Option.map_eq_some_iff.mp hdb
  obtain rfl : db' = db := congrArg Prod.fst heq
  have hdoing := (h.doing hfailed).quietly hr (inv_pre hok).sound
  obtain ⟨hinv, hcome⟩ := hdoing.persisted (inv_pre hok) hdb'
  have hlasting : Lasting X user d fun _ w => Come user d next w :=
    fun _ _ _ h hq hs => h.quietly hq hs
  exact wp_mono (fun r tr w hr => by
    cases r with
    | ok _ => exact hQ tr w hr.1 hfailed hr.2
    | error e => exact herr e tr w hr.1)
    (wp_calm permits_calm.publish hlasting (every_append htr hinv) hcome)

/-- The end of a page. -/
lemma wp_applyPage (htr : Kept X user d tr) (h : Mode user d next [] page tr w)
    {Q : Except ClientError Bool → List WorldEv → World → Prop}
    (hQ : ∀ failed tr w, Kept X user d tr → Arrived user d next failed tr w →
      Q (.ok failed) tr w) :
    wp (keeping X user d) (applyPage d page next).run Q tr w := by
  unfold applyPage
  split
  · next hempty =>
    simp only [Bool.and_eq_true, List.isEmpty_iff] at hempty
    exact hQ _ tr w htr ⟨h.warned, fun hf => (h.doing hf).nothing hempty.1 hempty.2⟩
  · rw [wp_bind_except, inspect, wp_lift]
    refine wp_persistSyncedPage htr h (fun tr w htr hf hcome => ?_) fun e tr w htr => ?_
    · refine hQ _ tr w htr ⟨fun hf' => ?_, fun _ => hcome⟩
      rw [hf] at hf'
      cases hf'
    · change wp _ (_ >>= _ : Client.Op Bool).run _ tr w
      rw [wp_bind_except]
      exact wp_warn rfl htr fun tr w htr hwarned => hQ true tr w htr ⟨fun _ => hwarned, by simp⟩

end Page

/-! ### A pull -/

section Pull

variable {cursor : UInt64} {failed : Bool}

/-- A read of the server, with what it finds. -/
lemma wp_readServer {l : Stmt} {g : Db Blob → β}
    {Q : Except ApiError β → List WorldEv → World → Prop} (hJ : Lasting X user d J)
    (htr : Kept X user d tr) (h : J tr w)
    (herr : ∀ tr w, Kept X user d tr → J tr w → Q (.error (.internal .database)) tr w)
    (hQ : ∀ tr w, Kept X user d tr → Inv X user d w → J tr w → Q (.ok (g w.server)) tr w) :
    wp (keeping X user d) (zoomE (onServer d) (orInternal (select l g))).run Q tr w := by
  rw [wp_zoom_orInternal]
  refine wp_zoom_statement (fun _ => rfl) htr (fun w' e hr hok => ?_) fun w' e hr hok => ?_
  · exact herr _ _ (every_append htr (inv_pre hok)) (hJ tr w _ h hr (inv_pre hok).sound)
  · exact hQ _ _ (every_append htr (inv_pre hok)) (inv_pre hok)
      (hJ tr w _ h hr (inv_pre hok).sound)

/-- The overviews in an answer to a pull. -/
def overviews (X : Ext Blob) (r : PullResp) : List PulledOverview :=
  (r.items.filter (X.isUuid ·.uuid)).map fun i =>
    ⟨i.uuid, asU64 i.version, asU64 i.encKeyGen, i.deletedDate.isSome⟩

/-- What is still to be done when a page arrives that was read in this state. -/
lemma Come.pulled {gen : ℤ} (h : Come user d cursor w) (hs : Sound X user w.server) :
    Doing user d (page w.server user cursor 100 gen).newCursor
      (overviews X (page w.server user cursor 100 gen)) ⟨[], [], false⟩ w := by
  have hnext : asI64 cursor ≤ asI64 (page w.server user cursor 100 gen).newCursor ∧
      Behind user w.server (asI64 (page w.server user cursor 100 gen).newCursor) := by
    have hcursor : (page w.server user cursor 100 gen).newCursor = cursor ∨
        ∃ n, Has w.server user n ∧ asI64 cursor < n ∧
          (page w.server user cursor 100 gen).newCursor = asU64 n := page_cursor
    rcases hcursor with heq | ⟨n, hn, hlt, heq⟩
    · rw [heq]
      exact ⟨le_rfl, h.reached.behind⟩
    · have hfit := hs.seq n hn
      rw [heq, asI64_asU64 (by omega) hfit.2]
      exact ⟨hlt.le, .inr ⟨n, hn, le_rfl⟩⟩
  refine ⟨hnext.2, h.le.trans hnext.1, fun r hr => ?_, by simp, by simp, fun r hr ov hov hu => ?_⟩
  · obtain ⟨hrow, hu, m, hm, hle⟩ := hr
    rcases le_or_gt m (asI64 cursor) with hold | hnew
    · exact .inl (h.reached.applied r ⟨hrow, hu, m, hm, hold⟩)
    have hafter : r ∈ itemsAfter w.server user (asI64 cursor) :=
      mem_itemsAfter.mpr ⟨hrow, hu, m, hm, hnew⟩
    have hitem : pullItem r ∈ (page w.server user cursor 100 gen).items := by
      cases hmore : (page w.server user cursor 100 gen).hasMore with
      | false => exact page_last hmore hafter
      | true =>
        obtain ⟨n, hn, hlt, heq, hall⟩ := page_more hs.distinct (by omega) hmore
        rw [heq, asI64_asU64 (by have := hs.seq n hn; omega) (hs.seq n hn).2] at hle
        exact hall r hafter ⟨m, hm, hle⟩
    exact .inr (.inl (List.mem_map.mpr ⟨pullItem r,
      List.mem_filter.mpr ⟨hitem, hs.uuid r hrow hu⟩, rfl⟩))
  · obtain ⟨i, hi, rfl⟩ := List.mem_map.mp hov
    have hitem := (List.mem_filter.mp hi).1
    rw [page_items] at hitem
    obtain ⟨r', hr', rfl⟩ := List.mem_map.mp hitem
    obtain ⟨hrow', hu', -⟩ := mem_itemsAfter.mp (List.mem_of_mem_take hr')
    have hkey : r'.key = r.key := Prod.ext hu (hu'.trans hr.2.1.symm)
    rw [Table.eq_of_key hrow' hr.1 hkey]
    rfl

lemma Arrived.pulled {gen : ℤ} (h : Arrived user d cursor failed tr w)
    (hs : Sound X user w.server) :
    Mode user d (page w.server user cursor 100 gen).newCursor
      (overviews X (page w.server user cursor 100 gen)) ⟨[], [], failed⟩ tr w :=
  ⟨h.warned, fun hf => by
    obtain rfl : failed = false := hf
    exact (h.come rfl).pulled hs⟩

/-- What a request for a page comes to. -/
def Pulled (X : Ext Blob) (user : Ident) (d : ℕ) (failed : Bool) :
    Except ClientError (UInt64 × List PulledOverview × Bool) → List WorldEv → World → Prop
  | .ok r, tr, w => Kept X user d tr ∧ Mode user d r.1 r.2.1 ⟨[], [], failed⟩ tr w
  | .error _, tr, _ => Kept X user d tr

/-- The handler, asked by the device. -/
lemma wp_syncPull_zoomed {Q : Except ApiError PullResp → List WorldEv → World → Prop}
    (htr : Kept X user d tr) (h : Arrived user d cursor failed tr w)
    (herr : ∀ e tr w, Kept X user d tr → Q (.error e) tr w)
    (hQ : ∀ r tr w, Kept X user d tr →
      Mode user d r.newCursor (overviews X r) ⟨[], [], failed⟩ tr w → Q (.ok r) tr w) :
    wp (keeping X user d) (zoomE (onServer d) (syncPull user cursor (some 100))).run Q tr w := by
  unfold syncPull
  rw [zoomE_bind, wp_bind_except]
  refine wp_readServer lasting_arrived htr h (fun tr w htr _ => herr _ tr w htr)
    fun tr w htr _ h => ?_
  dsimp only
  rw [if_neg (by simp), zoomE_bind, wp_bind_except]
  refine wp_readServer lasting_arrived htr h (fun tr w htr _ => herr _ tr w htr)
    fun tr w htr _ h => ?_
  dsimp only
  split
  · exact herr _ tr w htr
  rw [zoomE_bind, wp_bind_except]
  refine wp_readServer lasting_arrived htr h (fun tr w htr _ => herr _ tr w htr)
    fun tr w htr hi h => ?_
  exact hQ _ tr w htr (h.pulled hi.sound)

lemma wp_pull (htr : Kept X user d tr) (h : Arrived user d cursor failed tr w) :
    wp (keeping X user d) (orFail "sync pull" (pull X d user cursor)).run
      (Pulled X user d failed) tr w := by
  rw [wp_orFail]
  unfold pull roundTrip
  rw [wp_bind_except]
  refine wp_bind_calm (guarantees_message fun e w => permits_calm.same rfl e w) lasting_arrived htr h
    (fun e tr w htr _ => htr) fun _ tr w htr h => ?_
  rw [wp_bind_except, wp_lift]
  refine wp_syncPull_zoomed htr h (fun e tr w htr => ?_) fun r tr w htr h => ?_
  · refine wp_message htr fun w' e' r' _ hok hr' => ?_
    rcases hr' with rfl | rfl
    · exact every_append htr (inv_pre hok)
    · exact every_append htr (inv_pre hok)
  · refine wp_message htr fun w' e r' hr hok hr' => ?_
    rcases hr' with rfl | rfl
    · exact every_append htr (inv_pre hok)
    · exact ⟨every_append htr (inv_pre hok),
        lasting_mode tr w ⟨_, e, w', w'⟩ h hr (inv_pre hok).sound⟩

end Pull

/-! ### A sync -/

/-- What the others and the statements that leave the device alone do not change. -/
def Stable (X : Ext Blob) (user : Ident) (d : ℕ) (P : World → Prop) : Prop :=
  ∀ w w', P w → Quietly user d w w' → Sound X user w'.server → P w'

variable {P : World → Prop}

lemma Stable.lasting (h : Stable X user d P) : Lasting X user d fun _ w => P w :=
  fun _ w ev hP hq hs => h w ev.post hP hq hs

lemma Reached.device (h : Reached user s c n) (hc : ∀ r, Applied c r → Applied c' r) :
    Reached user s c' n := ⟨h.behind, fun r hr => hc r (h.applied r hr)⟩

/-- The device in another state that applied as much, with the same cursors. -/
lemma Inv.device (h : Inv X user d w) {c : Device} (htransport : ∀ u ∈ c.mem.transport, u = user)
    (happlied : ∀ r, Applied (w.devices d) r → Applied c r)
    (hdisk : persisted c = persisted (w.devices d))
    (hmemory : Reached user w.server c (asI64 c.mem.cursor)) :
    Inv X user d (w.setDevice d c) := by
  refine ⟨h.sound, ?_, ?_, ?_⟩
  · rwa [World.setDevice_self]
  · rw [World.setDevice_self, hdisk]
    exact h.disk.device happlied
  · rwa [World.setDevice_self]

/-- A change of the memory that the invariant survives. -/
lemma wp_change {l : Label} {g : ClientEnv → Memory → Memory × α} (hP : Stable X user d P)
    (htr : Kept X user d tr) (h : P w)
    (hg : ∀ e w m, m = (g e (w.devices d).mem).1 → Inv X user d w → P w →
      Careful d tr ⟨(d, l), e, w, w.setDevice d { w.devices d with mem := m }⟩ →
      Inv X user d (w.setDevice d { w.devices d with mem := m })) :
    wp (keeping X user d) (onMemory d l g : ExceptT ε Code α).run (fun _ tr _ => Kept X user d tr)
      tr w :=
  ⟨htr, fun w' e hr hok => every_append htr (hg e w' _ rfl (inv_pre hok)
    (hP w w' h hr (inv_pre hok).sound) (careful_last hok))⟩

lemma wp_then {x : ExceptT ε Code β} {f : β → ExceptT ε Code α}
    (hx : wp (keeping X user d) x.run (fun _ tr _ => Kept X user d tr) tr w)
    (hf : ∀ b tr w, Kept X user d tr →
      wp (keeping X user d) (f b).run (fun _ tr _ => Kept X user d tr) tr w) :
    wp (keeping X user d) (x >>= f).run (fun _ tr _ => Kept X user d tr) tr w := by
  rw [wp_bind_except]
  refine wp_mono (fun r tr w hr => ?_) hx
  cases r with
  | ok b => exact hf b tr w hr
  | error e => exact hr

lemma wp_quiet {p : Code α} (hp : Promises (Calm d) p) (htr : Kept X user d tr) :
    wp (keeping X user d) p (fun _ tr _ => Kept X user d tr) tr w :=
  wp_mono (fun _ _ _ h => h.1)
    (wp_calm (J := fun _ _ => True) hp (fun _ _ _ _ _ _ => trivial) htr trivial)

/-- What the loop over the pages comes to. -/
def Synced (X : Ext Blob) (user : Ident) (d : ℕ) :
    Except ClientError (UInt64 × Bool) → List WorldEv → World → Prop
  | .ok r, tr, w => Kept X user d tr ∧ Arrived user d r.1 r.2 tr w
  | .error _, tr, _ => Kept X user d tr

/-- The loop over the pages. -/
lemma wp_syncPages (pages : ℕ) {cursor : UInt64} {failed : Bool} (htr : Kept X user d tr)
    (h : Arrived user d cursor failed tr w) :
    wp (keeping X user d) (syncPages X d user pages cursor failed).run (Synced X user d) tr w := by
  induction pages generalizing cursor failed tr w with
  | zero => exact htr
  | succ pages ih =>
    unfold syncPages
    rw [wp_bind_except]
    refine wp_mono (fun r tr w hr => ?_) (wp_pull htr h)
    rcases r with e | ⟨next, ovs, hasMore⟩
    · exact hr
    obtain ⟨htr, h⟩ := hr
    dsimp only
    rw [wp_bind_except]
    refine wp_mono (fun r tr w hr => ?_) (wp_fetchPage ovs _ htr h)
    rcases r with e | page
    · exact hr
    obtain ⟨htr, h⟩ := hr
    dsimp only
    rw [wp_bind_except]
    refine wp_applyPage htr h fun failed tr w htr h => ?_
    dsimp only
    split
    · exact ih htr h
    · exact ⟨htr, h⟩

lemma stable_true : Stable X user d fun _ => True := fun _ _ _ _ _ => trivial

lemma wp_advanceCursor {cursor : UInt64} {failed : Bool} (htr : Kept X user d tr)
    (h : Arrived user d cursor failed tr w) :
    wp (keeping X user d) (advanceCursor d cursor failed).run (fun _ tr _ => Kept X user d tr)
      tr w := by
  unfold advanceCursor
  split
  · exact htr
  · next hf =>
    refine wp_change (fun _ _ h => h.quietly) htr (h.come (by simpa using hf)) ?_
    rintro e w m rfl hi hcome -
    exact hi.device hi.transport (fun _ hr => hr) rfl (hcome.reached.device fun _ hr => hr)

/-- The list of the ignored items is written to the disk. -/
lemma Inv.persistBlacklist (h : Inv X user d w)
    (hw : Within (w.devices d).db.localBlacklist (w.devices d).mem.blacklist) :
    Inv X user d (w.setDevice d { w.devices d with
      db := persistDashmapTxn (w.devices d).mem.blacklist (w.devices d).db }) := by
  have happlied : ∀ r, Applied (w.devices d) r → Applied { w.devices d with
      db := persistDashmapTxn (w.devices d).mem.blacklist (w.devices d).db } r := by
    rintro r (hr | hr | hr | hr)
    · exact .inl hr
    · exact .inr (.inl hr)
    · exact .inr (.inr (.inr (hw.get hr)))
    · exact .inr (.inr (.inr hr))
  exact h.device h.transport happlied rfl (h.memory.device happlied)

lemma calm_onMemory {l : Label} {g : ClientEnv → Memory → Memory × α}
    (hg : ∀ e m, (g e m).1.cursor = m.cursor ∧ (g e m).1.blacklist = m.blacklist ∧
      (g e m).1.transport = m.transport) :
    Promises (Calm d) (onMemory d l g : ExceptT ε Code α).run :=
  guarantees_onMemory fun e w => ⟨rfl, by
    obtain ⟨hcursor, hblacklist, htransport⟩ := hg e (w.devices d).mem
    rw [World.setDevice_self]
    exact ⟨rfl, hcursor, hblacklist, htransport⟩⟩

lemma wp_persistBlacklistIfDirty (htr : Kept X user d tr) :
    wp (keeping X user d) (persistBlacklistIfDirty d).run (fun _ tr _ => Kept X user d tr) tr w := by
  unfold persistBlacklistIfDirty
  rw [wp_bind_except]
  refine wp_readMemory stable_true.lasting htr trivial fun tr w htr _ _ => ?_
  dsimp only
  split
  · rw [wp_bind_except]
    refine wp_readMemory stable_true.lasting htr trivial fun tr w htr _ _ => ?_
    dsimp only
    rw [wp_bind_except]
    refine wp_onDb_ok htr (fun w' e _ hok _ => every_append htr (inv_pre hok))
      fun w' e db a hr hok hf hdb => ?_
    have hsnapshot : (w.devices d).mem.blacklist = (w'.devices d).mem.blacklist :=
      hr.device.blacklist.symm
    obtain rfl : persistDashmapTxn (w.devices d).mem.blacklist (w'.devices d).db = db :=
      congrArg Prod.fst (Option.some.inj hdb)
    have hinv := (inv_pre hok).persistBlacklist (careful_last hok hf)
    rw [← hsnapshot] at hinv
    exact wp_quiet (calm_onMemory fun _ _ => ⟨rfl, rfl, rfl⟩)
      (every_append htr hinv)
  · exact htr

/-- A sync for the user. -/
lemma wp_sync (htr : Kept X user d tr) :
    wp (keeping X user d) (sync X d).run (fun _ tr _ => Kept X user d tr) tr w := by
  unfold sync require
  rw [wp_bind_except, wp_bind_except]
  refine wp_readMemory stable_true.lasting htr trivial fun tr w htr hi _ => ?_
  cases htransport : (w.devices d).mem.transport with
  | none => exact htr
  | some u =>
    obtain rfl := hi.transport u htransport
    dsimp only
    rw [wp_pure_except]
    dsimp only
    rw [wp_bind_except]
    refine wp_readMemory stable_true.lasting htr trivial fun tr w htr hi _ => ?_
    have harrived : Arrived u d (w.devices d).mem.cursor false tr w :=
      ⟨by simp, fun _ => ⟨le_rfl, hi.memory⟩⟩
    dsimp only
    refine wp_bind_calm permits_calm.publish lasting_arrived htr harrived
      (fun _ _ _ htr _ => htr) fun _ tr w htr h => ?_
    refine wp_bind_calm permits_calm.readMemory lasting_arrived htr h
      (fun _ _ _ htr _ => htr) fun _ tr w htr h => ?_
    rw [wp_bind_except]
    refine wp_mono (fun r tr w hr => ?_) (wp_syncPages 10000 htr h)
    rcases r with e | ⟨cursor, failed⟩
    · exact hr
    exact wp_then (wp_advanceCursor hr.1 hr.2) fun _ tr w htr =>
      wp_then (wp_quiet (permits_calm.updateEpochGate calm_gate _ _) htr) fun _ tr w htr =>
      wp_then (wp_persistBlacklistIfDirty htr) fun _ tr w htr => wp_quiet permits_calm.publish htr

/-! ### The other commands -/

lemma reached_zero (hs : Sound X user s) : Reached user s c 0 :=
  ⟨.inl le_rfl, fun r ⟨hr, hu, m, hm, hle⟩ => by
    have := (hs.seq m ⟨r, hr, hu, hm⟩).1
    omega⟩

/-- The cursor on disk, as it is read. -/
lemma reached_getSyncCursor (h : Inv X user d w) :
    Reached user w.server (w.devices d) (asI64 (getSyncCursor (w.devices d).db)) := by
  have hread : getSyncCursor (w.devices d).db = asU64 (max (persisted (w.devices d)) 0) := rfl
  rw [hread]
  rcases h.disk.behind with hle | ⟨m, hm, hle⟩
  · rw [max_eq_right hle, asI64_asU64 (by omega) (by omega)]
    exact reached_zero h.sound
  · have hfit := h.sound.seq m hm
    rcases le_total (persisted (w.devices d)) 0 with hneg | hpos
    · rw [max_eq_right hneg, asI64_asU64 (by omega) (by omega)]
      exact reached_zero h.sound
    · rw [max_eq_left hpos, asI64_asU64 (by omega) (by omega)]
      exact h.disk

/-- A read of the database, with what it finds. -/
lemma wp_readLocal {l : Label} {context : String} {g : LocalDb Blob → α}
    {Q : Except ClientError α → List WorldEv → World → Prop} (htr : Kept X user d tr)
    (herr : ∀ e tr w, Kept X user d tr → Q (.error e) tr w)
    (hQ : ∀ tr w, Kept X user d tr → Inv X user d w → Q (.ok (g (w.devices d).db)) tr w) :
    wp (keeping X user d) (readDb d l context g).run Q tr w := by
  refine wp_onDb_ok htr (fun w' e _ hok _ => herr _ _ _ (every_append htr (inv_pre hok)))
    fun w' e db a _ hok _ hdb => ?_
  obtain ⟨rfl, rfl⟩ := Prod.mk.inj (Option.some.inj hdb)
  rw [World.setDevice_eq_self] at hok ⊢
  exact hQ _ _ (every_append htr (inv_pre hok)) (inv_pre hok)

/-- The cursor in memory is set to one that was reached. -/
lemma wp_setCursor {cursor : UInt64} (htr : Kept X user d tr)
    (hs : Stable X user d fun w => Reached user w.server (w.devices d) (asI64 cursor))
    (h : Reached user w.server (w.devices d) (asI64 cursor)) :
    wp (keeping X user d) (writeMemory d ({ · with cursor }) : Client.Op Unit).run
      (fun _ tr _ => Kept X user d tr) tr w := by
  refine wp_change hs htr h ?_
  rintro e w m rfl hi hreached -
  exact hi.device hi.transport (fun _ hr => hr) rfl (hreached.device fun _ hr => hr)

lemma stable_reached : Stable X user d fun w => Reached user w.server (w.devices d) n :=
  fun _ _ h hq hs => h.later hs hq.later hq.device

lemma wp_loadPersistedCursor (htr : Kept X user d tr) :
    wp (keeping X user d) (loadPersistedCursor d).run (fun _ tr _ => Kept X user d tr) tr w := by
  unfold loadPersistedCursor
  rw [wp_bind_except, inspect, wp_lift]
  refine wp_readLocal htr (fun e tr w htr => ?_) fun tr w htr hi => ?_
  · refine wp_change stable_true htr trivial ?_
    rintro e w m rfl hi - -
    exact hi.device hi.transport (fun _ hr => hr) rfl (reached_zero hi.sound)
  · exact wp_setCursor htr stable_reached (reached_getSyncCursor hi)

/-- The list of the ignored items is replaced. -/
lemma Inv.setBlacklist (h : Inv X user d w) {m : Memory}
    (htransport : ∀ u ∈ m.transport, u = user)
    (hcursor : m.cursor = (w.devices d).mem.cursor)
    (hw : ∀ u, (w.devices d).mem.isIgnored u = true →
      ((w.devices d).db.localBlacklist.get u).isSome = true ∨ m.isIgnored u = true) :
    Inv X user d (w.setDevice d { w.devices d with mem := m }) := by
  have happlied : ∀ r, Applied (w.devices d) r → Applied { w.devices d with mem := m } r := by
    rintro r (hr | hr | hr | hr)
    · exact .inl hr
    · exact .inr (.inl hr)
    · exact .inr (.inr (.inl hr))
    · exact .inr (.inr (hw r.uuid hr))
  refine h.device htransport happlied rfl ?_
  rw [show asI64 _ = asI64 (w.devices d).mem.cursor from congrArg asI64 hcursor]
  exact h.memory.device happlied

lemma wp_loadBlacklist (htr : Kept X user d tr) :
    wp (keeping X user d) (loadBlacklist d).run (fun _ tr _ => Kept X user d tr) tr w := by
  unfold loadBlacklist
  rw [wp_bind_except, inspect, wp_lift]
  refine wp_readLocal htr (fun e tr w htr => htr) fun tr w htr hi => ?_
  refine wp_change stable_true htr trivial ?_
  rintro e w m rfl hi - hcareful
  exact hi.setBlacklist hi.transport rfl fun u hu => .inl (Within.get hcareful hu)

lemma wp_openVault (localGen : UInt64) (htr : Kept X user d tr) :
    wp (keeping X user d) (openVault d localGen).run (fun _ tr _ => Kept X user d tr) tr w :=
  wp_then (wp_loadPersistedCursor htr) fun _ _ _ htr =>
    wp_then (wp_quiet (calm_onMemory fun _ _ => ⟨rfl, rfl, rfl⟩) htr) fun _ _ _ htr =>
    wp_then (wp_quiet (calm_onMemory fun _ _ => ⟨rfl, rfl, rfl⟩) htr) fun _ _ _ htr =>
    wp_then (wp_loadBlacklist htr) fun _ _ _ htr =>
    wp_quiet (calm_onMemory fun _ _ => ⟨rfl, rfl, rfl⟩) htr

lemma wp_unlockWithPassword (mk : Key) (wrapped : Blob) (u : Ident) (gen : UInt64)
    (htr : Kept X user d tr) :
    wp (keeping X user d) (unlockWithPassword d mk wrapped u gen).run
      (fun _ tr _ => Kept X user d tr) tr w := by
  unfold unlockWithPassword
  split
  · exact htr
  · exact htr
  · exact wp_then (wp_quiet (calm_onMemory fun _ _ => ⟨rfl, rfl, rfl⟩) htr) fun _ _ _ htr =>
      wp_then (wp_quiet (calm_onMemory fun _ _ => ⟨rfl, rfl, rfl⟩) htr) fun _ _ _ htr =>
      wp_then (wp_quiet (calm_onMemory fun _ _ => ⟨rfl, rfl, rfl⟩) htr) fun _ _ _ htr =>
      wp_then (wp_quiet (calm_onMemory fun _ _ => ⟨rfl, rfl, rfl⟩) htr) fun _ _ _ htr =>
      wp_openVault gen htr

lemma wp_unlockWithRawKey (key : Key) (gen : UInt64) (htr : Kept X user d tr) :
    wp (keeping X user d) (unlockWithRawKey d key gen).run (fun _ tr _ => Kept X user d tr) tr w :=
  wp_then (wp_quiet (calm_onMemory fun _ _ => ⟨rfl, rfl, rfl⟩) htr) fun _ _ _ htr =>
    wp_then (wp_quiet (calm_onMemory fun _ _ => ⟨rfl, rfl, rfl⟩) htr) fun _ _ _ htr =>
    wp_then (wp_quiet (calm_onMemory fun _ _ => ⟨rfl, rfl, rfl⟩) htr) fun _ _ _ htr =>
    wp_openVault gen htr

lemma calm_lock : Promises (Calm d) (lock d).run :=
  guarantees_bind_except (calm_onMemory fun _ _ => ⟨rfl, rfl, rfl⟩) fun _ =>
    guarantees_bind_except (calm_onMemory fun _ _ => ⟨rfl, rfl, rfl⟩) fun _ =>
    guarantees_bind_except (calm_onMemory fun _ _ => ⟨rfl, rfl, rfl⟩) fun _ =>
    guarantees_bind_except (calm_onMemory fun _ _ => ⟨rfl, rfl, rfl⟩) fun _ =>
    permits_calm.publish

lemma wp_restart (htr : Kept X user d tr) :
    wp (keeping X user d) (restart d).run (fun _ tr _ => Kept X user d tr) tr w := by
  refine wp_change stable_true htr trivial ?_
  rintro e w m rfl hi - hcareful
  have hblacklist := hi.setBlacklist (m := { (w.devices d).mem with
    blacklist := .empty, transport := none }) (by simp) rfl fun u hu => .inl (Within.get hcareful hu)
  have hnew := hblacklist.device (c := { w.devices d with mem := Memory.new }) (by simp [Memory.new])
    (fun r hr => by
      rw [World.setDevice_self] at hr
      exact hr) (by rw [World.setDevice_self]; rfl) (reached_zero hi.sound)
  exact ⟨hnew.sound, by simpa using hnew.transport, by simpa using hnew.disk,
    by simpa using hnew.memory⟩

lemma wp_markIgnored (u : Ident) (v : ℤ) (toxic : Bool) (htr : Kept X user d tr) :
    wp (keeping X user d) (markIgnored d u v toxic).run (fun _ tr _ => Kept X user d tr) tr w := by
  refine wp_then (wp_change stable_true htr trivial ?_) fun _ _ _ htr =>
    wp_quiet (calm_onMemory fun _ _ => ⟨rfl, rfl, rfl⟩) htr
  rintro e w m rfl hi - -
  refine hi.setBlacklist hi.transport rfl fun u' hu' => .inr ?_
  simp only [Memory.isIgnored, Table.get_upsert]
  split
  · rfl
  · exact hu'

lemma wp_connectSync (htr : Kept X user d tr) :
    wp (keeping X user d) (connectSync d user).run (fun _ tr _ => Kept X user d tr) tr w := by
  refine wp_then (wp_change stable_true htr trivial ?_) fun _ _ _ htr =>
    wp_quiet (calm_onMemory fun _ _ => ⟨rfl, rfl, rfl⟩) htr
  rintro e w m rfl hi - -
  exact hi.device (fun u hu => (Option.some.inj hu).symm) (fun _ hr => hr) rfl
    (hi.memory.device fun _ hr => hr)

lemma wp_disconnectSync (htr : Kept X user d tr) :
    wp (keeping X user d) (disconnectSync d).run (fun _ tr _ => Kept X user d tr) tr w := by
  unfold disconnectSync
  refine wp_change stable_true htr trivial ?_
  rintro e w m rfl hi - -
  exact hi.device (by simp) (fun _ hr => hr) rfl
    (hi.memory.device fun _ hr => hr)

/-! ### Runs -/

/-- Syncs of the user, and what may come between them. -/
def Command (user : Ident) : Cmd → Prop
  | .connectSync u => u = user
  | .saveItem _ _ => False
  | .deleteItem _ => False
  | .pushLocalChanges => False
  | .resolveConflict _ _ _ => False
  | .rotateKey _ => False
  | _ => True

/-- The others leave the device alone, and the server numbers what they write. -/
structure ByOthers (X : Ext Blob) (user : Ident) (d : ℕ) (w w' : World) : Prop where
  device : w'.devices d = w.devices d
  numbers : Numbers w.server w'.server
  sound : Sound X user w'.server

/-- The statement that is next meets its condition. -/
def CarefulNext (d : ℕ) (σ : ClientSess) (e : ClientEnv) : Prop :=
  match σ.cur with
  | some ⟨_, tr, .stmt l f _⟩ => Careful d tr ⟨l, e, σ.shared, f e σ.shared⟩
  | _ => True

/-- What can happen in a run: syncs of the user and what may come between them, statements
that meet their condition, and what others do. -/
def Syncing {Y : Type} (X : Ext Blob) (user : Ident) (d : ℕ) (others : Y → World → World)
    (σ : ClientSess) : SessAct Y → Prop
  | .op q => Command user q
  | .exec e => CarefulNext d σ e
  | .env y => ByOthers X user d σ.shared (others y σ.shared)

instance (user : Ident) (q : Cmd) : Decidable (Command user q) := by
  apply Cmd.casesOn (motive := fun q => Decidable (Command user q)) q <;> intros <;>
    (unfold Command; infer_instance)

instance (d : ℕ) (σ : ClientSess) (e : ClientEnv) : Decidable (CarefulNext d σ e) := by
  unfold CarefulNext
  split <;> infer_instance

instance (X : Ext Blob) (user : Ident) (d : ℕ) (σ : ClientSess) :
    ∀ a : SessAct Empty, Decidable (Syncing X user d nobody σ a)
  | .op q => inferInstanceAs (Decidable (Command user q))
  | .exec e => inferInstanceAs (Decidable (CarefulNext d σ e))
  | .env y => y.elim

/-- What was not applied is still to come, for a sync that starts at the cursor in memory. -/
def StillToCome (user : Ident) (d : ℕ) (w : World) : Prop :=
  ∀ r ∈ w.server.items.rows, r.userId = user → r.seq.isSome = true →
    ¬Applied (w.devices d) r → r ∈ itemsAfter w.server user (asI64 (w.devices d).mem.cursor)

lemma Inv.stillToCome (h : Inv X user d w) : StillToCome user d w := by
  intro r hr hu hseq hnot
  obtain ⟨m, hm⟩ := Option.isSome_iff_exists.mp hseq
  refine mem_itemsAfter.mpr ⟨hr, hu, m, hm, ?_⟩
  by_contra hle
  exact hnot (h.memory.applied r ⟨hr, hu, m, hm, not_lt.mp hle⟩)

lemma wp_command {q : Cmd} (hq : Command user q) (htr : Kept X user d tr) :
    wp (keeping X user d) (code X d q) (fun _ tr _ => Kept X user d tr) tr w := by
  cases q with
  | connectSync u =>
    obtain rfl : u = user := hq
    exact wp_then (wp_connectSync htr) fun _ _ _ htr => htr
  | disconnectSync => exact wp_then (wp_disconnectSync htr) fun _ _ _ htr => htr
  | unlockWithPassword mk wrapped u gen =>
    exact wp_then (wp_unlockWithPassword mk wrapped u gen htr) fun _ _ _ htr => htr
  | unlockWithRawKey key gen =>
    exact wp_then (wp_unlockWithRawKey key gen htr) fun _ _ _ htr => htr
  | lock => exact wp_then (wp_quiet calm_lock htr) fun _ _ _ htr => htr
  | restart => exact wp_then (wp_restart htr) fun _ _ _ htr => htr
  | markIgnored u v toxic => exact wp_then (wp_markIgnored u v toxic htr) fun _ _ _ htr => htr
  | sync => exact wp_then (wp_sync htr) fun _ _ _ htr => htr
  | saveItem _ _ => exact hq.elim
  | deleteItem _ => exact hq.elim
  | pushLocalChanges => exact hq.elim
  | resolveConflict _ _ _ => exact hq.elim
  | rotateKey _ => exact hq.elim

/-- **The cursor on disk is safe**, in every run of syncs, locks, unlocks and restarts of a
device, whatever requests are lost and whatever others write: if no page is stored in a sync
in which something has failed, and if no list of ignored items replaces another one that has
more of them, then every change up to the cursor on disk was applied, and every change that was
not applied is still to come. -/
theorem cursor_safe (X : Ext Blob) (user : Ident) (d : ℕ) {Y : Type} (others : Y → World → World)
    (w : World) (hw : Inv X user d w) (as : List (SessAct Y))
    (has : Along (code X d) others (Syncing X user d others) (init w) as) :
    CursorSafe user d (run (code X d) others (init w) as).shared ∧
      StillToCome user d (run (code X d) others (init w) as).shared := by
  have hinv : Inv X user d (run (code X d) others (init w) as).shared := by
    have hop : ∀ (σ : ClientSess) q, Inv X user d σ.shared → Syncing X user d others σ (.op q) →
        wp (keeping X user d) (code X d q) (fun _ tr _ => Kept X user d tr) [] σ.shared :=
      fun σ q _ hq => wp_command hq every_nil
    have hexec : ∀ (σ : ClientSess) e (q : Cmd) tr l f k, σ.cur = some ⟨q, tr, .stmt l f k⟩ →
        Syncing X user d others σ (.exec e) → Inv X user d σ.shared →
        Ordered (Careful d) tr → Ordered (Careful d) (tr ++ [⟨l, e, σ.shared, f e σ.shared⟩]) := by
      intro σ e q tr l f k hc hC _ hok
      simp only [Syncing, CarefulNext, hc] at hC
      exact ordered_append hok hC
    refine run_keeps (C := Syncing X user d others) hop hexec (fun σ y hi hy => ?_)
      (fun _ => ordered_nil) quietly_refl (fun _ _ _ => Quietly.trans) hw has
    have hquiet : Quietly user d σ.shared (others y σ.shared) :=
      ⟨hy.device.symm ▸ sameDevice_refl _, hy.numbers.later user⟩
    exact ⟨hi.quietly hquiet hy.sound, hquiet⟩
  exact ⟨hinv.cursorSafe, hinv.stillToCome⟩

/-! ### Two items -/

/-- Every text is a uuid, and every blob is 32 bytes long. -/
def anyUuid : Ext Blob := ⟨fun _ => true, fun _ => 32⟩

/-- Two items of the user 7 on the server, and a new device that is connected. -/
def twoItems : World where
  server :=
    ⟨.single ⟨7, "u", .raw 0, .raw 0, wrapSvk 9 100, .raw 0, 1, 0, 0⟩,
      ⟨[⟨3, 7, 1, 1, none, some (.raw 3), 0, some 1⟩,
        ⟨4, 7, 1, 1, none, some (.raw 4), 0, some 2⟩], by decide⟩⟩
  devices _ :=
    ⟨⟨.empty, .empty, .single ⟨1, 0, 0, .raw 0⟩, .empty, .empty, .empty⟩,
      { Memory.new with transport := some 7 }⟩

lemma inv_twoItems : Inv anyUuid 7 0 twoItems := by
  have hsound : Sound anyUuid 7 twoItems.server := by
    refine ⟨?_, fun _ _ _ => rfl, ?_, ?_⟩
    · rintro r hr r' hr' -
      simp only [twoItems, List.mem_cons, List.not_mem_nil, or_false] at hr hr'
      rcases hr with rfl | rfl <;> rcases hr' with rfl | rfl <;> simp
    · intro r hr _
      simp only [twoItems, List.mem_cons, List.not_mem_nil, or_false] at hr
      rcases hr with rfl | rfl <;> decide
    · rintro m ⟨r, hr, -, hm⟩
      simp only [twoItems, List.mem_cons, List.not_mem_nil, or_false] at hr
      rcases hr with rfl | rfl <;> cases hm <;> decide
  exact ⟨hsound, by simp [twoItems], reached_zero hsound, reached_zero hsound⟩

/-- The next `n` statements. -/
def go (n : ℕ) : List (SessAct Empty) := List.replicate n (.exec ⟨0, 0, false, 0⟩)

/-- The next statement fails. -/
def fail : List (SessAct Empty) := [.exec ⟨0, 0, true, 0⟩]

/-- The device takes both items. -/
theorem cursor_safe_twoItems :
    Inv anyUuid 7 0 twoItems ∧
    Along (code anyUuid 0) nobody (Syncing anyUuid 7 0 nobody) (init twoItems)
      (.op .sync :: go 36) ∧
    CursorSafe 7 0 (run (code anyUuid 0) nobody (init twoItems) (.op .sync :: go 36)).shared ∧
    StillToCome 7 0 (run (code anyUuid 0) nobody (init twoItems) (.op .sync :: go 36)).shared :=
  ⟨inv_twoItems, by decide +kernel,
    cursor_safe anyUuid 7 0 nobody twoItems inv_twoItems _ (by decide +kernel)⟩

/-- The request for the first item is lost, and the second item is stored with the cursor
behind both: after a restart and another sync the first item is still missing. -/
theorem cursor_passes_item :
    ¬(∀ as, CursorSafe 7 0 (run (code anyUuid 0) nobody (init twoItems) as).shared) ∧
    ((run (code anyUuid 0) nobody (init twoItems) (.op .sync :: go 11 ++ fail ++ go 20 ++
      .op .restart :: go 1 ++ .op (.unlockWithRawKey 100 1) :: go 10 ++
      .op (.connectSync 7) :: go 2 ++ .op .sync :: go 30)).shared.devices 0).db.overviews.get 3
      = none := by
  refine ⟨fun h => ?_, by decide +kernel⟩
  have := h (.op .sync :: go 11 ++ fail ++ go 20)
  revert this
  decide +kernel

end Vautr.SyncCursor
