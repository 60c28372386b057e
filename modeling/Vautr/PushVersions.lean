import Vautr.Effects
import Vautr.Push

/-!
How the versions of the client and of the server meet in a push.

The client numbers a new item 1, and pushes every item with its own version as the target.
The server takes the target 0 for a new item, and answers any other target without a row with
a conflict. So a push never creates anything: an item that was saved on a client reaches the
server only if the server holds it already.
-/

namespace Vautr.PushVersions

open Vautr.Atomic Vautr.Session Vautr.Sql Vautr.Database Vautr.Api Vautr.Server Vautr.Handlers
  Vautr.ClientDb Vautr.Crypto Vautr.Client Vautr.Orchestrator Vautr.Effects Vautr.Push

/-- The items of the device `d`, with their payloads. -/
def itemsOf (d : ℕ) (w : World) : List (OverviewRow × Blob) := joined (w.devices d).db

/-- Every item of the device `d` is on the server, with its payload and its version. -/
def Created (user : Ident) (d : ℕ) (w : World) : Prop :=
  ∀ r ∈ itemsOf d w, ∃ row ∈ w.server.items.get (r.1.uuid, user),
    row.payload = some r.2 ∧ row.version = r.1.version

instance (user : Ident) (d : ℕ) (w : World) : Decidable (Created user d w) :=
  inferInstanceAs (Decidable (∀ r ∈ itemsOf d w, ∃ row ∈ w.server.items.get (r.1.uuid, user), _))

/-! ### Pushes of unknown items -/

section Server

variable {B : Type} {X : Ext B} {user : Ident} {us : List Ident}
  {rely : Stmt → Db B → Db B → Prop}

/-- A statement that changes nothing as long as the server holds none of the items. -/
def Barren (user : Ident) (us : List Ident) (ev : DbEv B) : Prop :=
  (∀ u ∈ us, ev.pre.items.get (u, user) = none) → ev.post = ev.pre

lemma barren_updateItem (q : Upsert B) (hu : q.uuid ∈ us) :
    Guarantees rely (Barren q.userId us) (updateItem q).run := by
  refine guarantees_statement (fun _ _ _ => rfl) fun _ s hnone => ?_
  have hmiss : s.items.rows.countP q.hits = 0 := by
    refine List.countP_eq_zero.mpr fun r hr hit => ?_
    simp only [Upsert.hits, Bool.and_eq_true, decide_eq_true_eq] at hit
    have hget := Table.get_of_mem hr
    rw [show r.key = (q.uuid, q.userId) by simp [ItemRow.key, hit], hnone _ hu] at hget
    cases hget
  change ({ s with items := s.items.update q.hits _ _ } : Db B) = s
  rw [Table.update_eq_self _ hmiss]

/-- **A push of items that the server does not hold**, with targets other than 0, changes
nothing. -/
lemma barren_syncPushBatch (req : PushBatchReq B)
    (hreq : ∀ i ∈ req.items, i.uuid ∈ us ∧ asI64 i.targetVersion ≠ 0) :
    Guarantees rely (Barren req.userId us) (syncPushBatch X req).run := by
  refine guarantees_syncPushBatch (fun _ _ _ _ => rfl) fun now i hi p _ => ?_
  refine guarantees_upsertItemOcc (fun _ _ _ _ => rfl) ?_ fun hzero => ?_
  · exact barren_updateItem (i.upsert req.userId now p) (hreq i hi).1
  · exact absurd hzero (hreq i hi).2

end Server

variable {X : Ext Blob} {user : Ident} {d : ℕ} {us : List Ident} {ε α : Type} {s : Db Blob}
  {w : World}

/-- A statement of a push: it changes nothing on the device but what is published, and
nothing on the server as long as that holds none of the items. -/
structure Idle (user : Ident) (us : List Ident) (d : ℕ) (ev : Ev World ClientEnv Name) : Prop where
  server : (∀ u ∈ us, ev.pre.server.items.get (u, user) = none) → ev.post.server = ev.pre.server
  db : (ev.post.devices d).db = (ev.pre.devices d).db
  transport : (ev.post.devices d).mem.transport = (ev.pre.devices d).mem.transport

lemma idle_same (l : Label) (e : ClientEnv) (w : World) : Idle user us d ⟨(d, l), e, w, w⟩ :=
  ⟨fun _ => rfl, rfl, rfl⟩

lemma idle_onMemory {l : Label} {g : ClientEnv → Memory → Memory × α}
    (hg : ∀ e m, (g e m).1.transport = m.transport) :
    Promises (Idle user us d) (onMemory d l g : ExceptT ε Code α).run :=
  guarantees_onMemory fun e w => ⟨fun _ => rfl, by simp, by simp [hg]⟩

lemma idle_enginePushBatch (items : List Pushed)
    (hitems : ∀ i ∈ items, i.uuid ∈ us ∧ asI64 i.targetVersion ≠ 0) :
    Promises (Idle user us d) (enginePushBatch X d user items).run := by
  refine guarantees_bind_except (guarantees_bind_except (idle_onMemory fun _ _ => rfl) fun now =>
    guarantees_bind_except (guarantees_roundTrip (barren_syncPushBatch _ fun i hi => ?_)
      (idle_same _) (fun l e w s hs => ⟨hs, rfl, rfl⟩) fun _ => idle_same _)
    fun _ => guarantees_pure_except _) fun outs => ?_
  · obtain ⟨i, hmem, rfl⟩ := List.mem_map.mp hi
    exact hitems i hmem
  · split
    · exact guarantees_throw_except _
    · exact guarantees_pure_except _

lemma idle_reportConflicts (chunk : List (OverviewRow × Blob)) (outs : List (Ident × PushOutcome)) :
    Promises (Idle user us d) (reportConflicts d chunk outs).run := by
  induction outs with
  | nil => exact guarantees_pure_except _
  | cons x rest ih =>
    obtain ⟨uuid, out⟩ := x
    cases out with
    | conflict v =>
      exact guarantees_bind_except (idle_onMemory fun _ _ => rfl) fun _ =>
        guarantees_bind_except (idle_onMemory fun _ _ => rfl) fun _ => ih
    | _ => exact ih

lemma idle_pushChunks (cs : List (List (OverviewRow × Blob)))
    (hcs : ∀ r ∈ cs.flatten, r.1.uuid ∈ us ∧ r.1.version = 1) :
    Promises (Idle user us d) (pushChunks X d user cs).run := by
  induction cs with
  | nil => exact guarantees_pure_except _
  | cons chunk rest ih =>
    refine guarantees_bind_except (guarantees_orFail (idle_enginePushBatch _ fun i hi => ?_))
      fun _ => guarantees_bind_except (idle_reportConflicts _ _) fun _ => ih fun r hr => ?_
    · obtain ⟨r, hr, rfl⟩ := List.mem_map.mp hi
      obtain ⟨hu, hv⟩ := hcs r (by simp [hr])
      have htarget : asI64 (asU64 1) ≠ 0 := by decide
      exact ⟨hu, by simpa only [toPushed, hv] using htarget⟩
    · exact hcs r (by simp [List.mem_flatten.mp hr])

/-! ### Saves and pushes of one device -/

/-- Nothing that was saved has reached the server: its database is still `s`, which holds none
of the items, and their versions are 1. -/
structure Unsent (user : Ident) (s : Db Blob) (d : ℕ) (w : World) : Prop where
  server : w.server = s
  transport : (w.devices d).mem.transport = some user
  pending : (w.devices d).db.pendingDeletes.rows = []
  new : ∀ o ∈ (w.devices d).db.overviews.rows, o.version = 1 ∧ s.items.get (o.uuid, user) = none

lemma Unsent.memory (h : Unsent user s d w) {m : Memory}
    (hm : m.transport = (w.devices d).mem.transport) :
    Unsent user s d (w.setDevice d { w.devices d with mem := m }) :=
  ⟨h.server, by simpa [hm] using h.transport, by simpa using h.pending, by simpa using h.new⟩

/-- The row of a save has the version 1. -/
lemma version_row (h : Unsent user s d w) (item : DomainModel) :
    (item.row (readVersion item.uuid (w.devices d).db)).version = 1 := by
  simp only [DomainModel.row, readVersion]
  cases ho : (w.devices d).db.overviews.get item.uuid with
  | none => rfl
  | some o => exact (h.new o (Table.get_mem ho)).1

lemma Unsent.save (h : Unsent user s d w) (item : DomainModel) (payload : Blob)
    (hitem : s.items.get (item.uuid, user) = none) :
    Unsent user s d (w.setDevice d { w.devices d with
      db := saveItemTxn (item.row (readVersion item.uuid (w.devices d).db)) payload
        (w.devices d).db }) := by
  have hv := version_row h item
  generalize hrow : item.row (readVersion item.uuid (w.devices d).db) = row at hv ⊢
  have huuid : row.uuid = item.uuid := by rw [← hrow]; rfl
  refine ⟨h.server, by simpa using h.transport, by simpa [saveItemTxn] using h.pending, ?_⟩
  intro o ho
  rw [World.setDevice_self] at ho
  rcases Table.mem_upsert ho with hold | rfl | ⟨o', -, hkey, rfl⟩
  · exact h.new o hold
  · exact ⟨hv, huuid ▸ hitem⟩
  · refine ⟨hv, ?_⟩
    rw [OverviewRow.saved_uuid, hkey, huuid]
    exact hitem

lemma safe_commitSave (h : Unsent user s d w) (item : DomainModel) (payload : Blob)
    (hitem : s.items.get (item.uuid, user) = none) :
    Safe (Unsent user s d) (commitSave d item payload).run (fun _ => Unsent user s d) w := by
  unfold commitSave verifyEpoch
  rw [safe_bind_except, safe_bind_except]
  refine safe_readMemory h ?_
  dsimp only
  split
  · exact h
  change Safe _ (_ >>= _ : Op Unit).run _ w
  rw [safe_bind_except]
  refine safe_readDb h (fun _ => h) ?_
  refine safe_onDb h (fun _ => h) fun db a hdb => ?_
  simp only [Option.some.injEq, Prod.mk.injEq] at hdb
  rw [← hdb.1]
  exact ⟨h.save item payload hitem, h.save item payload hitem⟩

lemma safe_saveItem (h : Unsent user s d w) (item : DomainModel) (payload : Blob)
    (hitem : s.items.get (item.uuid, user) = none) :
    Safe (Unsent user s d) (saveItem d item payload).run (fun _ => Unsent user s d) w := by
  unfold saveItem commitTask
  rw [safe_bind_except]
  refine safe_readMemory h ?_
  dsimp only
  split
  · exact h
  rw [safe_bind_except]
  refine safe_onMemory fun e => ⟨h.memory rfl, ?_⟩
  dsimp only
  rw [safe_bind_except, inspect, safe_lift]
  have hnext := h.memory (m := { (w.devices d).mem with receipts := (w.devices d).mem.receipts + 1 })
    rfl
  refine safe_mono (fun r w h => ?_) (safe_commitSave hnext item payload hitem)
  cases r <;>
  · dsimp only
    rw [safe_bind_except]
    exact safe_onMemory fun e => ⟨h.memory rfl, h.memory rfl⟩

/-- The items are read, and their push changes nothing on the server. -/
lemma safe_pushRows (h : Unsent user s d w) :
    Safe (Unsent user s d)
      (readDb d .listLocalItems "list local items" joined >>= fun rows =>
        pushChunks X d user (chunks 100 rows)).run
      (fun _ w' => Unsent user s d w' ∧ (w'.devices d).db = (w.devices d).db) w := by
  rw [safe_bind_except]
  refine safe_readDb h (fun _ => ⟨h, rfl⟩) ?_
  have hrows : ∀ r ∈ (chunks 100 (joined (w.devices d).db)).flatten,
      r.1.uuid ∈ (w.devices d).db.overviews.rows.map (·.uuid) ∧ r.1.version = 1 := by
    intro r hr
    have hmem := (mem_joined.mp ((mem_flatten_chunks (by decide)).mp hr)).1
    exact ⟨List.mem_map_of_mem hmem, (h.new r.1 hmem).1⟩
  have hnone : ∀ u ∈ (w.devices d).db.overviews.rows.map (·.uuid),
      s.items.get (u, user) = none := by
    intro u hu
    obtain ⟨o, ho, rfl⟩ := List.mem_map.mp hu
    exact (h.new o ho).2
  refine safe_of_guarantees (J := fun w' => Unsent user s d w' ∧
    (w'.devices d).db = (w.devices d).db) (idle_pushChunks _ hrows) (fun ev hpre hev => ?_)
    (fun _ h => h.1) ⟨h, rfl⟩
  have hdb := hev.db.trans hpre.2
  refine ⟨⟨?_, hev.transport.trans hpre.1.transport, ?_, ?_⟩, hdb⟩
  · refine (hev.server fun u hu => ?_).trans hpre.1.server
    rw [hpre.1.server]
    exact hnone u hu
  · rw [hdb]
    exact h.pending
  · rw [hdb]
    exact h.new

/-- A push leaves everything as it was, but for what it publishes. -/
lemma safe_pushLocalChanges (h : Unsent user s d w) :
    Safe (Unsent user s d) (pushLocalChanges X d).run
      (fun _ w' => Unsent user s d w' ∧ (w'.devices d).db = (w.devices d).db) w := by
  unfold pushLocalChanges requireUnlocked
  rw [safe_bind_except, safe_bind_except]
  refine safe_readMemory h ?_
  dsimp only
  split
  · exact ⟨h, rfl⟩
  change Safe _ (_ >>= _ : Op Unit).run _ w
  rw [safe_bind_except]
  refine safe_require h (fun _ => ⟨h, rfl⟩) fun u hu => ?_
  obtain rfl : user = u := Option.some.inj (h.transport.symm.trans hu)
  -- there are no tombstones to push
  dsimp only
  rw [safe_bind_except, flushPendingDeletes, safe_bind_except, inspect, safe_lift]
  refine safe_readDb h (fun _ => safe_pushRows h) ?_
  rw [h.pending]
  exact safe_pushRows h

/-- Nothing was saved on the device yet, and it is connected for the user. -/
structure Fresh (user : Ident) (d : ℕ) (w : World) : Prop where
  transport : (w.devices d).mem.transport = some user
  overviews : (w.devices d).db.overviews.rows = []
  pending : (w.devices d).db.pendingDeletes.rows = []

/-- Saves of items that the server does not hold, and pushes. -/
def SavesAndPushes (user : Ident) (σ : ClientSess) : SessAct Empty → Prop
  | .op (.saveItem item _) => σ.shared.server.items.get (item.uuid, user) = none
  | .op .pushLocalChanges => True
  | .op _ => False
  | _ => True

instance (user : Ident) (σ : ClientSess) (a : SessAct Empty) :
    Decidable (SavesAndPushes user σ a) := by
  unfold SavesAndPushes
  split <;> infer_instance

lemma Fresh.unsent (h : Fresh user d w) : Unsent user w.server d w :=
  ⟨rfl, h.transport, h.pending, by simp [h.overviews]⟩

/-- One operation. -/
lemma safe_op {q : Cmd} {σ : ClientSess} (h : Unsent user s d σ.shared)
    (hC : SavesAndPushes user σ (.op q)) :
    Safe (Unsent user s d) (code X d q) (fun _ _ => True) σ.shared := by
  cases q with
  | saveItem item payload =>
    have hitem : s.items.get (item.uuid, user) = none := h.server ▸ hC
    change Safe _ (_ >>= _ : Client.Op CmdReply).run _ _
    rw [safe_bind_except]
    exact safe_mono (fun r _ _ => by cases r <;> trivial) (safe_saveItem h item payload hitem)
  | pushLocalChanges =>
    change Safe _ (_ >>= _ : Client.Op CmdReply).run _ _
    rw [safe_bind_except]
    exact safe_mono (fun r _ _ => by cases r <;> trivial) (safe_pushLocalChanges h)
  | _ => cases hC

/-- Whatever is saved and pushed, the server stays as it was. -/
lemma unsent_run (h : Fresh user d w) {as : List (SessAct Empty)}
    (has : Along (code X d) nobody (SavesAndPushes user) (init w) as) :
    Unsent user w.server d (run (code X d) nobody (init w) as).shared := by
  have hop : ∀ (σ : ClientSess) q, Unsent user w.server d σ.shared →
      SavesAndPushes user σ (.op q) → wp (keeps (Unsent user w.server d) Eq fun _ => True)
        (code X d q) (fun _ tr _ => Every (fun ev => Unsent user w.server d ev.post) tr) []
        σ.shared := fun σ q hσ hC => (safe_op hσ hC).keeps every_nil
  exact run_keeps (C := SavesAndPushes user) hop (fun _ _ _ _ _ _ _ _ _ _ _ => trivial)
    (fun _ x => x.elim) (fun _ => trivial) (fun _ => rfl) (fun _ _ _ h₁ h₂ => h₁.trans h₂)
    h.unsent has

/-- **A push creates nothing**: a device on which any items that the server does not hold are
saved and pushed, any number of times and in any order, has all of its items on the server only
if it has none. -/
theorem push_creates_iff (X : Ext Blob) (d : ℕ) (user : Ident) (w : World) (h : Fresh user d w)
    (as : List (SessAct Empty))
    (has : Along (code X d) nobody (SavesAndPushes user) (init w) as) :
    Created user d (run (code X d) nobody (init w) as).shared ↔
      itemsOf d (run (code X d) nobody (init w) as).shared = [] := by
  have hσ := unsent_run h has
  constructor
  · intro hcreated
    refine List.eq_nil_iff_forall_not_mem.mpr fun r hr => ?_
    obtain ⟨row, hrow, -⟩ := hcreated r hr
    rw [hσ.server, (hσ.new r.1 (mem_joined.mp hr).1).2] at hrow
    cases hrow
  · intro hnil r hr
    rw [hnil] at hr
    cases hr

/-! ### One item -/

/-- Every text is a uuid, and every blob is 32 bytes long. -/
def anyUuid : Ext Blob := ⟨fun _ => true, fun _ => 32⟩

/-- An unlocked device of the user 7 with the vault key 100, and no items anywhere. -/
def empty : World where
  server := ⟨.single ⟨7, "u", .raw 0, .raw 0, wrapSvk 9 100, .raw 0, 1, 0, 0⟩, .empty⟩
  devices _ :=
    ⟨⟨.empty, .empty, .single ⟨1, 0, 0, .raw 0⟩, .empty, .empty, .empty⟩,
      { Memory.new with
        svk := some 100
        dek := some (.dek 100)
        mk := some 9
        locked := false
        transport := some 7
        serverUserId := some 7 }⟩

lemma fresh_empty (d : ℕ) : Fresh 7 d empty := ⟨rfl, rfl, rfl⟩

/-- An item is saved and pushed. -/
def saveAndPush : List (SessAct Empty) :=
  .op (.saveItem ⟨1, 3, "t", "", "", "[]", 0, 0, false⟩ (encrypt (.dek 100) 3 1 (.bytes 5))) ::
    List.replicate 6 (.exec ⟨0, 0, false, 0⟩) ++
    .op .pushLocalChanges :: List.replicate 20 (.exec ⟨0, 0, false, 0⟩)

/-- The push under way has returned without an error. -/
def PushDone (σ : ClientSess) : Prop := ∃ c ∈ σ.cur, c.prog.result = some (.ok .done)

instance (σ : ClientSess) : Decidable (PushDone σ) :=
  inferInstanceAs (Decidable (∃ c ∈ σ.cur, c.prog.result = _))

theorem push_creates_iff_once :
    Fresh 7 0 empty ∧
    Along (code anyUuid 0) nobody (SavesAndPushes 7) (init empty) saveAndPush ∧
    (Created 7 0 (run (code anyUuid 0) nobody (init empty) saveAndPush).shared ↔
      itemsOf 0 (run (code anyUuid 0) nobody (init empty) saveAndPush).shared = []) :=
  ⟨fresh_empty 0, by decide,
    push_creates_iff anyUuid 0 7 empty (fresh_empty 0) saveAndPush (by decide)⟩

/-- A push that returned without an error has created nothing. -/
theorem push_creates_nothing : ¬∀ as : List (SessAct Empty),
    Along (code anyUuid 0) nobody (SavesAndPushes 7) (init empty) as →
    PushDone (run (code anyUuid 0) nobody (init empty) as) →
    Created 7 0 (run (code anyUuid 0) nobody (init empty) as).shared := by
  intro h
  have := h saveAndPush
  revert this
  decide +kernel

end Vautr.PushVersions
