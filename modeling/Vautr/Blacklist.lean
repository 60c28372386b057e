import Vautr.Effects
import Vautr.SyncCursor

/-!
The list of ignored items of a client: in memory (`dashmap.rs`) and in the table
`local_blacklist`.

A sync writes the list in memory to the table, an unlock reads it back. A save removes the item
from the table only, and a recovered item (`quarantine.rs`) is removed from neither.
-/

namespace Vautr.Blacklist

open Vautr.Atomic Vautr.Session Vautr.Sql Vautr.Server Vautr.Handlers Vautr.ClientDb Vautr.Crypto
  Vautr.Client Vautr.Orchestrator Vautr.Effects

inductive ItemStatus
  | valid
  | tombstoned
  deriving DecidableEq

inductive ReaperEvent
  | itemRecovered (uuid : Ident)
  | itemPermanentlyDeleted (uuid : Ident)
  deriving DecidableEq

/-- What was done with an item last: nothing that matters, it was marked as ignored, or it was
saved or recovered. -/
inductive Standing
  | unknown
  | ignored
  | cleared
  deriving DecidableEq

/-- The world and the quarantine of one client; beside them whether the table was read since the
client was started, and what was done with each item last. -/
structure Local where
  world : World
  quarantine : List Ident
  loaded : Bool
  standing : Ident → Standing

inductive Label
  | client (l : Name)
  | mark
  | markToxic
  | reap (metadata : List (Ident × ItemStatus))
  | notice (uuid : Ident)

abbrev Task := Prog Local ClientEnv Label

def Local.stand (s : Local) (u : Ident) (st : Standing) : Local :=
  { s with standing := fun v => if v = u then st else s.standing v }

/-- What a statement of the client means for the rest of the state. -/
def Local.note (s : Local) (l : Client.Label) (e : ClientEnv) : Local :=
  match l with
  | .saveItem u => if e.fault then s else s.stand u .cleared
  | .loadBlacklist => { s with loaded := true }
  | .restart => { s with loaded := false, quarantine := [] }
  | _ => s

/-- An operation of the client. -/
def onClient {α : Type} : Code α → Task α
  | .ret a => .ret a
  | .stmt l f k =>
    .stmt (.client l) (fun e s => ({ s with world := f e s.world } : Local).note l.2 e) fun e s =>
      onClient (k e s.world)

variable (X : Ext Blob) (d : ℕ)

/-! ### The operations -/

lemma uuid_ignore (row r : BlacklistRow) : { row with uuid := r.uuid }.uuid = r.uuid :=
  rfl

/-- The memory after `mark_ignored`. -/
def markedIgnored (uuid : Ident) (ignoredVersion : ℤ) (toxic : Bool) (m : Memory) : Memory :=
  let row : BlacklistRow :=
    ⟨uuid, ignoredVersion, if toxic then .toxicIgnored else .validIgnored⟩
  { m with
    blacklist := m.blacklist.upsert row (fun r => { row with uuid := r.uuid }) (uuid_ignore row)
    blacklistDirty := true }

/-- `mark_ignored`, which nothing can interrupt. -/
def markIgnored (uuid : Ident) (ignoredVersion : ℤ) (toxic : Bool) : Task Unit :=
  Prog.atom .mark fun _ s =>
    let c := s.world.devices d
    let w := s.world.setDevice d { c with mem := markedIgnored uuid ignoredVersion toxic c.mem }
    (({ s with world := w } : Local).stand uuid .ignored, ())

def markItemToxic (uuid : Ident) : Task Unit :=
  Prog.atom .markToxic fun _ s => ({ s with quarantine := s.quarantine.insert uuid }, ())

/-- `quarantine::evaluate`: what stays in the quarantine, and the events. -/
def evaluate (quarantine : List Ident) (metadata : List (Ident × ItemStatus)) :
    List Ident × List ReaperEvent :=
  (quarantine.filter fun u => (metadata.lookup u).isNone,
    quarantine.filterMap fun u => (metadata.lookup u).map fun
      | .valid => .itemRecovered u
      | .tombstoned => .itemPermanentlyDeleted u)

lemma mem_evaluate {quarantine : List Ident} {metadata : List (Ident × ItemStatus)} {u : Ident} :
    .itemRecovered u ∈ (evaluate quarantine metadata).2 ↔
      u ∈ quarantine ∧ metadata.lookup u = some .valid := by
  simp only [evaluate, List.mem_filterMap, Option.map_eq_some_iff]
  constructor
  · rintro ⟨v, hv, st, hst, heq⟩
    cases st with
    | valid =>
      obtain rfl : v = u := ReaperEvent.itemRecovered.inj heq
      exact ⟨hv, hst⟩
    | tombstoned => cases heq
  · exact fun ⟨hu, hst⟩ => ⟨u, hu, .valid, hst, rfl⟩

/-- `run_quarantine_reap`: for each recovered item it starts a sync of its own. -/
def runQuarantineReap (metadata : List (Ident × ItemStatus)) : Task (List ReaperEvent) :=
  Prog.atom (.reap metadata) fun _ s =>
    let r := evaluate s.quarantine metadata
    ({ s with
      quarantine := r.1
      standing := fun u => if .itemRecovered u ∈ r.2 then .cleared else s.standing u }, r.2)

/-- The server tells that an item is recovered. The client does not listen to it. -/
def serverNotice (uuid : Ident) : Task Unit :=
  Prog.atom (.notice uuid) fun _ s => (s.stand uuid .cleared, ())

/-- What is asked of the client. -/
inductive Req
  | command (q : Cmd) (h : ∀ u v toxic, q ≠ .markIgnored u v toxic)
  | markIgnored (uuid : Ident) (ignoredVersion : ℤ) (toxic : Bool)
  | markItemToxic (uuid : Ident)
  | runQuarantineReap (metadata : List (Ident × ItemStatus))
  | serverNotice (uuid : Ident)
  | persistBlacklistNow

inductive Reply
  | command (r : Except ClientError CmdReply)
  | done
  | events (es : List ReaperEvent)

def code : Req → Task Reply
  | .command q _ => do return .command (← onClient (Orchestrator.code X d q))
  | .markIgnored u v toxic => do markIgnored d u v toxic; return .done
  | .markItemToxic u => do markItemToxic u; return .done
  | .runQuarantineReap metadata => do return .events (← runQuarantineReap metadata)
  | .serverNotice u => do serverNotice u; return .done
  | .persistBlacklistNow => do
    let _ ← onClient (persistBlacklistIfDirty d).run
    return .done

/-- The table in the database of the client. -/
abbrev Local.table (s : Local) : Table BlacklistRow.uuid := (s.world.devices d).db.localBlacklist

/-- The memory of the client. -/
abbrev Local.mem (s : Local) : Memory := (s.world.devices d).mem

/-- The item is in neither list. -/
def Absent (s : Local) (u : Ident) : Prop :=
  (s.mem d).blacklist.get u = none ∧ (s.table d).get u = none

/-- The lists are as they should be. -/
structure Kept (s : Local) : Prop where
  same : s.loaded = true → (s.mem d).blacklistDirty = false →
    ∀ u, (s.mem d).blacklist.get u = (s.table d).get u
  cleared : ∀ u, s.standing u = .cleared → Absent d s u
  ignored : ∀ u, s.standing u = .ignored → (s.mem d).isIgnored u = true ∨
    s.loaded = false ∧ ((s.table d).get u).isSome = true
  opened : (s.mem d).locked = false → s.loaded = true

/-- What a statement has to meet. An item that is saved or recovered is in neither list, and
nothing that is in memory only is lost when the list in memory is replaced. The table is read when
the vault is opened; before that, no entry of it is replaced or deleted. -/
def Meets (ev : Ev Local ClientEnv Label) : Prop :=
  match ev.name with
  | .client (_, .saveItem u) => ev.inp.fault = false → Absent d ev.pre u
  | .client (_, .persistPage _) =>
    ev.inp.fault = false → ev.pre.loaded = true ∨ (ev.pre.table d).rows = []
  | .client (_, .persistBlacklist) => ev.inp.fault = false →
    ev.pre.loaded = true ∨ SyncCursor.Within (ev.pre.table d) (ev.pre.mem d).blacklist
  | .client (_, .listBlacklist) => ev.inp.fault = false
  | .client (_, .loadBlacklist) => SyncCursor.Within (ev.pre.mem d).blacklist (ev.pre.table d)
  | .client (_, .restart) => SyncCursor.Within (ev.pre.mem d).blacklist (ev.pre.table d)
  | .reap metadata => ∀ u ∈ ev.pre.quarantine, metadata.lookup u = some .valid → Absent d ev.pre u
  | .notice u => Absent d ev.pre u
  | _ => True

variable {X d}

/-! ### What a statement does to the lists -/

abbrev WorldEv := Ev World ClientEnv Name

/-- What a statement does to the table. -/
inductive TableStep (e : ClientEnv) (c c' : Device) : Client.Label → Prop
  | same (l : Client.Label) (h : ∀ u, c'.db.localBlacklist.get u = c.db.localBlacklist.get u) :
    TableStep e c c' l
  | save (u : Ident) (hf : e.fault = false) (h : ∀ v, c'.db.localBlacklist.get v =
      if v = u then none else c.db.localBlacklist.get v) : TableStep e c c' (.saveItem u)
  | persist (hf : e.fault = false) (h : c'.db.localBlacklist = c.mem.blacklist) :
    TableStep e c c' .persistBlacklist
  | page (us : List Ident) (hf : e.fault = false) (h : ∀ v, c'.db.localBlacklist.get v = c.db.localBlacklist.get v ∨
      c'.db.localBlacklist.get v = none ∧ c.mem.blacklist.get v = none) :
    TableStep e c c' (.persistPage us)

/-- What a statement does to the lists. A list that is not marked as changed any more is the same
in both places. -/
inductive Touch (e : ClientEnv) (c c' : Device) : Client.Label → Prop
  | load (hlist : c'.mem.blacklist = c.db.localBlacklist)
    (hdirty : c'.mem.blacklistDirty = c.mem.blacklistDirty) (hdb : c'.db = c.db) :
    Touch e c c' .loadBlacklist
  | restart (hmem : c'.mem = Memory.new) (hdb : c'.db = c.db) : Touch e c c' .restart
  | other {l : Client.Label} (hload : l ≠ .loadBlacklist) (hrestart : l ≠ .restart)
    (hlist : c'.mem.blacklist = c.mem.blacklist)
    (hdirty : c'.mem.blacklistDirty = c.mem.blacklistDirty ∨
      c'.mem.blacklistDirty = false ∧ ∀ u, c.mem.blacklist.get u = c.db.localBlacklist.get u)
    (htable : TableStep e c c' l) : Touch e c c' l

/-- A statement of the device `d`. -/
def Touches (d : ℕ) (ev : WorldEv) : Prop :=
  ev.name.1 = d ∧ Touch ev.inp (ev.pre.devices d) (ev.post.devices d) ev.name.2

lemma ordinary_ne {l : Client.Label} (h : ordinary l = true) :
    l ≠ .loadBlacklist ∧ l ≠ .restart := by
  constructor
  · rintro rfl
    cases h
  · rintro rfl
    cases h

lemma rotating_ne {l : Client.Label} (h : rotating l = true) :
    l ≠ .loadBlacklist ∧ l ≠ .restart := by
  constructor
  · rintro rfl
    cases h
  · rintro rfl
    cases h

lemma get_delete_uuid (t : Table BlacklistRow.uuid) (u v : Ident) :
    (t.delete fun r => r.uuid = u).get v = if v = u then none else t.get v := by
  rw [Table.get_delete]
  cases ht : t.get v with
  | none => simp
  | some r =>
    have hkey : r.uuid = v := Table.get_key ht
    by_cases hv : v = u <;> simp [hkey, hv]

/-- A transaction on the items. -/
lemma tableStep_of_dbStep {e : ClientEnv} {c : Device} {l : Client.Label} {db : LocalDb Blob}
    (hf : e.fault = false) (hl : storesLists l = false) (h : DbStep l c.db db) :
    TableStep e c { c with db } l := by
  obtain ⟨cdb, mem⟩ := c
  cases h with
  | same => exact .same _ fun _ => rfl
  | save o p => exact .save _ hf fun v => get_delete_uuid _ _ _
  | delete uuid =>
    refine .same _ fun _ => ?_
    simp only [deleteItemTxn]
    split <;> rfl
  | clear uuids => exact .same _ fun _ => rfl
  | page us deletes cursor minGen db' h => cases hl
  | blacklist t => cases hl
  | reencrypt uuid p gen => exact .same _ fun _ => rfl
  | storeBlob b _ _ hb =>
    refine .same _ fun _ => ?_
    unfold storeSvkBlob at hb
    split at hb
    · rw [← Option.some.inj hb]
    · cases hb

lemma touches_setDevice {l : Client.Label} {e : ClientEnv} {w : World} {c : Device}
    (h : Touch e (w.devices d) c l) : Touches d ⟨(d, l), e, w, w.setDevice d c⟩ :=
  ⟨rfl, by rwa [World.setDevice_self]⟩

lemma touch_memory {l : Client.Label} {e : ClientEnv} {c : Device} {m : Memory}
    (hl : l ≠ .loadBlacklist ∧ l ≠ .restart) (hlist : m.blacklist = c.mem.blacklist)
    (hdirty : m.blacklistDirty = c.mem.blacklistDirty) : Touch e c { c with mem := m } l :=
  .other hl.1 hl.2 hlist (.inl hdirty) (.same l fun _ => rfl)

lemma touch_db {l : Client.Label} {e : ClientEnv} {c : Device} {db : LocalDb Blob}
    (hl : l ≠ .loadBlacklist ∧ l ≠ .restart) (h : TableStep e c { c with db } l) :
    Touch e c { c with db } l :=
  .other hl.1 hl.2 rfl (.inl rfl) h

lemma touches_rests {ev : WorldEv} (h : Rests d ev) : Touches d ev :=
  ⟨h.here, .other (ordinary_ne h.label).1 (ordinary_ne h.label).2 h.memory.blacklist
    (.inl h.memory.blacklistDirty) (.same _ fun _ => by rw [h.db])⟩

lemma permitsDb_touches : PermitsDb d anyEffect (Touches d) where
  toPermits := permits_rests.mono fun _ => touches_rests
  database _ _ _ _ hf hl hs h := touches_setDevice
    (touch_db (ordinary_ne hl) (tableStep_of_dbStep hf hs h))

lemma permitsRotation_touches : PermitsRotation d anyEffect (Touches d) where
  toPermitsDb := permitsDb_touches
  keys _ _ _ _ hl hm := touches_setDevice
    (touch_memory (rotating_ne hl) hm.blacklist hm.blacklistDirty)
  items l _ _ _ hf hl h := touches_setDevice (touch_db (rotating_ne hl)
    (tableStep_of_dbStep hf (by cases l <;> first | rfl | cases hl) h))

/-! ### The flow of a sync -/

section Flow

variable {α β ε : Type} {J : World → Prop} {L : Table BlacklistRow.uuid}

/-- The others leave the lists of the device alone. -/
def SameLists (d : ℕ) (w w' : World) : Prop :=
  (w'.devices d).mem.blacklist = (w.devices d).mem.blacklist ∧
    (w'.devices d).db.localBlacklist = (w.devices d).db.localBlacklist

/-- An operation from a state in `J`, while the others leave the lists alone. -/
abbrev Flows (d : ℕ) (J : World → Prop) (P : α → World → Prop) (p : Code α) : Prop :=
  Secures (SameLists d) (fun _ => True) (Touches d) J P p

/-- The statement does nothing to the lists. -/
structure Quiet (d : ℕ) (ev : WorldEv) : Prop where
  touches : Touches d ev
  same : SameLists d ev.pre ev.post

/-- The list in memory. -/
def Lists (d : ℕ) (L : Table BlacklistRow.uuid) (w : World) : Prop :=
  (w.devices d).mem.blacklist = L

lemma stable_lists : Stable (SameLists d) (Lists d L) := fun _ _ hw h => h.1.trans hw

lemma permits_quiet : Permits d anyEffect (Quiet d) :=
  permits_rests.mono fun _ h => ⟨touches_rests h, h.memory.blacklist, by rw [h.db]⟩

lemma quiet_writeMemory {g : Memory → Memory} (hlist : ∀ m, (g m).blacklist = m.blacklist)
    (hdirty : ∀ m, (g m).blacklistDirty = m.blacklistDirty) :
    Promises (Quiet d) (writeMemory d g : ExceptT ε Code Unit).run :=
  guarantees_onMemory fun _ w => ⟨touches_setDevice
    (touch_memory ⟨nofun, nofun⟩ (hlist _) (hdirty _)), by simp [SameLists, hlist]⟩

lemma quiet_gate (e : ClientEnv) (w : World) (g : UInt64) : Quiet d ⟨(d, .memory), e, w,
    w.setDevice d { w.devices d with mem := { (w.devices d).mem with minEncKeyGen := g } }⟩ :=
  ⟨touches_setDevice (touch_memory ⟨nofun, nofun⟩ rfl rfl), by simp [SameLists]⟩

/-- A quiet program, as a part of an operation. -/
lemma flows_quiet {p : Code α} (hp : Promises (Quiet d) p) (hJ : Stable (SameLists d) J) :
    Flows d J (fun _ w => J w) p :=
  secures_stable hp hJ fun _ hev => ⟨hev.touches, hev.same⟩

/-- A read of the memory. -/
lemma flows_readMemory {g : Memory → α} (hJ : Stable (SameLists d) J) :
    Flows d J (fun r w => J w ∧ r = .ok (g (w.devices d).mem))
      (readMemory d g : ExceptT ε Code α).run := by
  refine secures_atom hJ fun e w hw _ => ?_
  dsimp only
  rw [World.setDevice_eq_self]
  exact ⟨(permits_quiet.same rfl e w).touches, hw, rfl⟩

/-- A transaction on the database. -/
lemma flows_onDb {l : Client.Label} {context : String}
    {g : LocalDb Blob → Option (LocalDb Blob × α)} {P : Except ClientError α → World → Prop}
    (hl : ordinary l = true) (hJ : Stable (SameLists d) J) (herr : ∀ e w, J w → P (.error e) w)
    (hrun : ∀ e w db a, J w → e.fault = false → g (w.devices d).db = some (db, a) →
      Touch e (w.devices d) { w.devices d with db } l ∧
        P (.ok a) (w.setDevice d { w.devices d with db })) :
    Flows d J P (onDb d l context g).run := by
  refine secures_atom hJ fun e w hw _ => ?_
  have hsame := (permits_quiet.same (d := d) hl e w).touches
  cases hf : e.fault with
  | true => simpa [hf] using ⟨hsame, herr _ w hw⟩
  | false =>
    cases hg : g (w.devices d).db with
    | none => simpa [hf, hg] using ⟨hsame, herr _ w hw⟩
    | some r =>
      obtain ⟨htouch, hP⟩ := hrun e w r.1 r.2 hw hf hg
      simpa [hf, hg] using ⟨touches_setDevice htouch, hP⟩

/-- What a page deletes is not in the list. -/
def Deletes (L : Table BlacklistRow.uuid) (page : Page) : Prop :=
  ∀ u ∈ page.deletes, L.get u = none

lemma flows_fetchPage (user : Ident) (ovs : List PulledOverview) {page : Page}
    (hpage : Deletes L page) :
    Flows d (Lists d L) (fun r w => Lists d L w ∧ IfOk (Deletes L) r)
      (fetchPage d user ovs page).run := by
  induction ovs generalizing page with
  | nil => exact secures_ret fun _ hw => ⟨hw, hpage⟩
  | cons ov rest ih =>
    refine secures_bind_run (flows_readMemory stable_lists) (fun ignored => ?_) fun _ _ h => by cases h.2
    refine secures_mono (J := fun w => Lists d L w ∧ ignored = (L.get ov.uuid).isSome) ?_
      (fun _ _ h => h) (secures_of_fact fun hig => ?_)
    · rintro w ⟨hw, heq⟩
      exact ⟨hw, by rw [Except.ok.inj heq, Memory.isIgnored, hw]⟩
    split
    · exact ih hpage
    · next hno =>
      have hnone : L.get ov.uuid = none := by simpa [hig] using hno
      split
      · refine ih fun u hu => ?_
        rcases List.mem_append.mp hu with hu | hu
        · exact hpage u hu
        · rwa [List.mem_singleton.mp hu]
      refine secures_bind_run (flows_quiet (guarantees_inspect
        (permits_quiet.fetchPayloadIfAllowed _ _ _)) stable_lists) (fun r => ?_)
        fun _ _ hw => ⟨hw, trivial⟩
      rcases r with e | _ | payload
      · exact secures_bind_run (flows_quiet (permits_quiet.onMemory rfl fun _ m => steady_refl m)
          stable_lists) (fun _ => ih hpage) fun _ _ hw => ⟨hw, trivial⟩
      · exact ih hpage
      · exact ih hpage

/-- A page is stored. -/
lemma touch_page {us : List (PulledOverview × Blob)} {deletes : List Ident} {cursor minGen : ℤ}
    {c : Device} {db : LocalDb Blob} {e : ClientEnv} (hf : e.fault = false)
    (hpage : ∀ u ∈ deletes, c.mem.blacklist.get u = none)
    (hdb : applySyncBatchTxn (us.map fun u => PulledOverview.row u.1)
      (us.map fun u => ⟨u.1.uuid, u.2⟩) deletes cursor minGen c.db = some db) :
    Touch e c { c with db } (.persistPage (us.map (·.1.uuid))) := by
  refine touch_db ⟨nofun, nofun⟩ (.page _ hf fun v => ?_)
  obtain ⟨-, -, hlist⟩ := applySyncBatchTxn_get hdb v
  by_cases hv : v ∈ deletes
  · exact .inr ⟨by rw [hlist, if_pos hv], hpage v hv⟩
  · exact .inl (by rw [hlist, if_neg hv])

lemma flows_persistSyncedPage (us : List (PulledOverview × Blob)) {deletes : List Ident}
    (cursor : UInt64) (hpage : ∀ u ∈ deletes, L.get u = none) :
    Flows d (Lists d L) (fun _ w => Lists d L w) (persistSyncedPage d us deletes cursor).run := by
  refine secures_bind_run (flows_quiet permits_quiet.readMemory stable_lists) (fun minGen => ?_)
    fun _ _ hw => hw
  refine secures_bind_run (flows_onDb (P := fun _ w => Lists d L w) rfl stable_lists
    (fun _ _ hw => hw) fun e w db a hw hf hdb => ?_) (fun _ => flows_quiet permits_quiet.publish
    stable_lists) fun _ _ hw => hw
  obtain ⟨db', hpage', heq⟩ := Option.map_eq_some_iff.mp hdb
  obtain rfl : db' = db := congrArg Prod.fst heq
  refine ⟨touch_page hf (fun u hu => ?_) hpage', by simpa [Lists] using hw⟩
  rw [show (w.devices d).mem.blacklist = L from hw]
  exact hpage u hu

lemma flows_applyPage {page : Page} (cursor : UInt64) (hpage : Deletes L page) :
    Flows d (Lists d L) (fun _ w => Lists d L w) (applyPage d page cursor).run := by
  unfold applyPage
  split
  · exact secures_ret fun _ hw => hw
  · refine secures_bind_run (P := fun _ w => Lists d L w) ?_ (fun r => ?_) fun _ _ hw => hw
    · unfold inspect
      rw [ExceptT.run_lift]
      exact secures_bind (flows_persistSyncedPage _ _ hpage) fun r => secures_ret fun _ hw => hw
    · cases r with
      | ok u => exact secures_ret fun _ hw => hw
      | error e =>
        exact secures_bind_run (flows_quiet (permits_quiet.onMemory rfl fun _ m => steady_refl m)
          stable_lists) (fun _ => secures_ret fun _ hw => hw) fun _ _ hw => hw

lemma flows_syncPages (user : Ident) (pages : ℕ) (cursor : UInt64) (failed : Bool) :
    Flows d (Lists d L) (fun _ w => Lists d L w) (syncPages X d user pages cursor failed).run := by
  induction pages generalizing cursor failed with
  | zero => exact secures_ret fun _ hw => hw
  | succ pages ih =>
    refine secures_bind_run (flows_quiet (guarantees_orFail (guarantees_bind_except
      (permits_quiet.reading (Push.reading_syncPull _ _ _)) fun _ => guarantees_pure_except _))
      stable_lists) (fun r => ?_) fun _ _ hw => hw
    refine secures_bind_run (flows_fetchPage user r.2.1 (show Deletes L ⟨[], [], failed⟩ from nofun))
      (fun page => ?_) fun _ _ hw => hw.1
    refine secures_of_fact fun hpage => ?_
    refine secures_bind_run (flows_applyPage r.1 hpage) (fun failed => ?_) fun _ _ hw => hw
    split
    · exact ih _ _
    · exact secures_ret fun _ hw => hw

/-- The list is written, and only then it is not marked as changed any more. -/
lemma flows_persistBlacklistIfDirty :
    Flows d (Lists d L) (fun _ w => Lists d L w) (persistBlacklistIfDirty d).run := by
  refine secures_bind_run (flows_quiet permits_quiet.readMemory stable_lists) (fun dirty => ?_)
    fun _ _ hw => hw
  split
  · refine secures_bind_run (flows_readMemory stable_lists) (fun t => ?_) fun _ _ h => by cases h.2
    refine secures_mono (J := fun w => Lists d L w ∧ t = L) ?_ (fun _ _ h => h)
      (secures_of_fact fun ht => ?_)
    · rintro w ⟨hw, heq⟩
      exact ⟨hw, (Except.ok.inj heq).trans hw⟩
    subst ht
    have hstable : Stable (SameLists d)
        fun w => Lists d t w ∧ (w.devices d).db.localBlacklist = t :=
      fun _ _ hw h => ⟨stable_lists _ _ hw.1 h, h.2.trans hw.2⟩
    refine secures_bind_run (flows_onDb (P := fun r w => Lists d t w ∧
      IfOk (fun _ => (w.devices d).db.localBlacklist = t) r) rfl stable_lists
      (fun _ _ hw => ⟨hw, trivial⟩) fun e w db a hw hf hdb => ?_) (fun _ => ?_) fun _ _ hw => hw.1
    · obtain ⟨rfl, -⟩ := Prod.mk.inj (Option.some.inj hdb)
      exact ⟨touch_db (ordinary_ne rfl) (.persist hf hw.symm), by simpa [Lists] using hw,
        by simp [IfOk, persistDashmapTxn]⟩
    · refine secures_atom hstable fun e w hw _ => ⟨touches_setDevice ?_, by simpa [Lists] using hw.1⟩
      exact .other (ordinary_ne rfl).1 (ordinary_ne rfl).2 rfl
        (.inr ⟨rfl, fun u => by rw [hw.1, hw.2]⟩) (.same _ fun _ => rfl)
  · exact secures_ret fun _ hw => hw

lemma quiet_advanceCursor (cursor : UInt64) (failed : Bool) :
    Promises (Quiet d) (advanceCursor d cursor failed).run := by
  unfold advanceCursor
  split
  · exact guarantees_pure_except _
  · exact quiet_writeMemory (fun _ => rfl) fun _ => rfl

/-- A part of an operation that is quiet, and the rest. -/
lemma flows_then {x : ExceptT ε Code β} {f : β → ExceptT ε Code α}
    (hx : Promises (Quiet d) x.run) (hf : ∀ b, Flows d (Lists d L) (fun _ w => Lists d L w) (f b).run) :
    Flows d (Lists d L) (fun _ w => Lists d L w) (x >>= f).run :=
  secures_bind_run (flows_quiet hx stable_lists) hf fun _ _ hw => hw

lemma flows_sync : Flows d (Lists d L) (fun _ w => Lists d L w) (sync X d).run :=
  flows_then permits_quiet.require fun _ => flows_then permits_quiet.readMemory fun _ =>
    flows_then permits_quiet.publish fun _ => flows_then permits_quiet.readMemory fun _ =>
    secures_bind_run (flows_syncPages _ _ _ _)
      (fun _ => flows_then (quiet_advanceCursor _ _) fun _ =>
        flows_then (permits_quiet.updateEpochGate quiet_gate _ _) fun _ =>
        secures_bind_run flows_persistBlacklistIfDirty
          (fun _ => flows_quiet permits_quiet.publish stable_lists) fun _ _ hw => hw)
      fun _ _ hw => hw

/-! ### The commands -/

/-- An operation from any state. -/
abbrev Fine (d : ℕ) (p : Code α) : Prop := Flows d (fun _ => True) (fun _ _ => True) p

lemma fine_of_promises {p : Code α} (hp : Promises (Touches d) p) : Fine d p :=
  secures_of_guarantees hp fun _ _ => trivial

/-- The list in memory is known when the operation begins. -/
lemma fine_of_flows {p : Code α} (h : ∀ L, Flows d (Lists d L) (fun _ w => Lists d L w) p) :
    Fine d p :=
  fun tr w htr _ => wp_mono (fun _ _ _ h => ⟨h.1, trivial⟩)
    (h (w.devices d).mem.blacklist tr w htr rfl)

lemma fine_bind {x : ExceptT ε Code β} {f : β → ExceptT ε Code α} (hx : Fine d x.run)
    (hf : ∀ b, Fine d (f b).run) : Fine d (x >>= f).run :=
  secures_bind_run hx hf fun _ _ _ => trivial

lemma fine_pure (a : α) : Fine d (pure a : ExceptT ε Code α).run := secures_ret fun _ _ => trivial

lemma fine_throw (e : ε) : Fine d (throw e : ExceptT ε Code α).run := secures_ret fun _ _ => trivial

lemma fine_quiet {p : Code α} (hp : Promises (Quiet d) p) : Fine d p :=
  fine_of_promises (guarantees_mono (fun _ h => h.touches) hp)

lemma fine_write {g : Memory → Memory} (hlist : ∀ m, (g m).blacklist = m.blacklist)
    (hdirty : ∀ m, (g m).blacklistDirty = m.blacklistDirty) :
    Fine d (writeMemory d g : ExceptT ε Code Unit).run :=
  fine_quiet (quiet_writeMemory hlist hdirty)

/-- The table replaces the list in memory. -/
lemma fine_loadBlacklist : Fine d (loadBlacklist d).run := by
  refine secures_bind_run (P := fun r w => IfOk (fun r => IfOk
    (fun t => (w.devices d).db.localBlacklist = t) r) r) ?_ (fun r => ?_) fun _ _ _ => trivial
  · unfold inspect
    rw [ExceptT.run_lift]
    refine secures_bind (P := fun r w => IfOk (fun t => (w.devices d).db.localBlacklist = t) r)
      (flows_onDb rfl (fun _ _ _ _ => trivial) (fun _ _ _ => trivial)
        fun e w db a _ hf hdb => ?_) fun r => ?_
    · obtain ⟨rfl, rfl⟩ := Prod.mk.inj (Option.some.inj hdb)
      exact ⟨touch_db ⟨nofun, nofun⟩ (.same _ fun _ => rfl), by simp [IfOk]⟩
    · refine secures_ret fun w hw => ?_
      exact hw
  · cases r with
    | error e => exact fine_pure ()
    | ok t =>
      refine secures_atom (fun _ _ hw h => h.2.trans hw) fun e w hw _ => ⟨?_, trivial⟩
      exact touches_setDevice (.load hw.symm rfl rfl)

lemma fine_openVault (localGen : UInt64) : Fine d (openVault d localGen).run := by
  refine fine_bind (fine_bind (fine_quiet (guarantees_inspect (permits_quiet.readDb rfl)))
    fun r => ?_) fun _ => fine_bind (fine_write (fun _ => rfl) fun _ => rfl) fun _ =>
    fine_bind (fine_write (fun _ => rfl) fun _ => rfl) fun _ => fine_bind fine_loadBlacklist
      fun _ => fine_write (fun _ => rfl) fun _ => rfl
  cases r <;> exact fine_write (fun _ => rfl) fun _ => rfl

lemma fine_resolveConflict (uuid : Ident) (v : UInt64) (force : Bool) :
    Fine d (resolveConflict X d uuid v force).run := by
  refine fine_bind (fine_quiet permits_quiet.requireUnlocked) fun _ =>
    fine_bind (fine_quiet permits_quiet.require) fun user => ?_
  split
  · refine fine_bind (fine_quiet (permits_quiet.readDb rfl)) fun rows => ?_
    split
    · exact fine_throw _
    · refine fine_bind (fine_quiet (guarantees_orFail (permits_quiet.pushBatch _ _))) fun outs => ?_
      split <;> first | exact fine_pure _ | exact fine_throw _
  · exact fine_bind (fine_quiet (guarantees_orFail (permits_quiet.fetchPayload _ _ _))) fun _ =>
      fine_bind (fine_quiet permits_quiet.readMemory) fun _ =>
      fine_bind (fine_quiet permits_quiet.readMemory) fun _ =>
      fine_of_flows fun _ => flows_persistSyncedPage _ _ nofun

/-- **What a command does to the lists**, as long as the others leave them alone. -/
lemma fine_exec {q : Cmd} (hq : ∀ u v toxic, q ≠ .markIgnored u v toxic) :
    Fine d (exec X d q).run := by
  cases q with
  | markIgnored u v toxic => exact absurd rfl (hq u v toxic)
  | connectSync user =>
    exact fine_bind (fine_bind (fine_write (fun _ => rfl) fun _ => rfl) fun _ =>
      fine_write (fun _ => rfl) fun _ => rfl) fun _ => fine_pure _
  | disconnectSync => exact fine_bind (fine_write (fun _ => rfl) fun _ => rfl) fun _ => fine_pure _
  | unlockWithPassword mk wrapped user gen =>
    refine fine_bind ?_ fun _ => fine_pure _
    unfold unlockWithPassword
    split
    · exact fine_throw _
    · exact fine_throw _
    · exact fine_bind (fine_write (fun _ => rfl) fun _ => rfl) fun _ =>
        fine_bind (fine_write (fun _ => rfl) fun _ => rfl) fun _ =>
        fine_bind (fine_write (fun _ => rfl) fun _ => rfl) fun _ =>
        fine_bind (fine_write (fun _ => rfl) fun _ => rfl) fun _ => fine_openVault gen
  | unlockWithRawKey key gen =>
    exact fine_bind (fine_bind (fine_write (fun _ => rfl) fun _ => rfl) fun _ =>
      fine_bind (fine_write (fun _ => rfl) fun _ => rfl) fun _ =>
      fine_bind (fine_write (fun _ => rfl) fun _ => rfl) fun _ => fine_openVault gen)
      fun _ => fine_pure _
  | lock =>
    exact fine_bind (fine_bind (fine_write (fun _ => rfl) fun _ => rfl) fun _ =>
      fine_bind (fine_write (fun _ => rfl) fun _ => rfl) fun _ =>
      fine_bind (fine_write (fun _ => rfl) fun _ => rfl) fun _ =>
      fine_bind (fine_write (fun _ => rfl) fun _ => rfl) fun _ => fine_quiet permits_quiet.publish)
      fun _ => fine_pure _
  | restart =>
    refine fine_bind (secures_atom (fun _ _ _ _ => trivial) fun e w _ _ => ⟨?_, trivial⟩)
      fun _ => fine_pure _
    exact touches_setDevice (.restart rfl rfl)
  | saveItem item payload =>
    exact fine_bind (fine_of_promises (permitsDb_touches.saveItem _ _)) fun _ => fine_pure _
  | deleteItem uuid =>
    exact fine_bind (fine_of_promises (permitsDb_touches.deleteItem _)) fun _ => fine_pure _
  | sync => exact fine_bind (fine_of_flows fun _ => flows_sync) fun _ => fine_pure _
  | pushLocalChanges =>
    exact fine_bind (fine_of_promises permitsDb_touches.pushLocalChanges) fun _ => fine_pure _
  | resolveConflict uuid v force => exact fine_bind (fine_resolveConflict _ _ _) fun _ => fine_pure _
  | rotateKey gen =>
    exact fine_bind (fine_of_promises (permitsRotation_touches.rotateKey _)) fun _ => fine_pure _

end Flow

/-! ### The vault is opened once the table was read -/

section Opening

variable {α β ε : Type} {P : Bool → α → Prop} {b : Bool}

/-- Whether the list in memory comes from the table, after a statement. -/
def seen (b : Bool) : Client.Label → Bool
  | .loadBlacklist => true
  | .restart => false
  | _ => b

lemma seen_mono {b b' : Bool} {l : Client.Label} (hb : b = true → b' = true)
    (h : seen b l = true) : seen b' l = true := by
  cases l <;> first | exact hb h | exact h

/-- The statement does not open the vault. -/
def Shut (d : ℕ) (ev : WorldEv) : Prop :=
  (ev.post.devices d).mem.locked = false → (ev.pre.devices d).mem.locked = false

/-- The program opens the vault only when the list in memory comes from the table, as long as no
read of the table fails. At the end, `P` holds. -/
def Opens (d : ℕ) (P : Bool → α → Prop) : Bool → Code α → Prop
  | b, .ret a => P b a
  | b, .stmt l f k => ∀ e w, (b = true ∨ Shut d ⟨l, e, w, f e w⟩) ∧
      ((l.2 = .listBlacklist → e.fault = false) → Opens d P (seen b l.2) (k e w))

lemma opens_mono {P' : Bool → α → Prop} {p : Code α} (hP : ∀ b a, P b a → P' b a)
    (h : Opens d P b p) : Opens d P' b p := by
  induction p generalizing b with
  | ret a => exact hP b a h
  | stmt l f k ih => exact fun e w => ⟨(h e w).1, fun hf => ih e w ((h e w).2 hf)⟩

lemma opens_bind {P : Bool → β → Prop} {p : Code α} {g : α → Code β}
    (h : Opens d (fun b a => Opens d P b (g a)) b p) : Opens d P b (p >>= g) := by
  induction p generalizing b with
  | ret a => exact h
  | stmt l f k ih => exact fun e w => ⟨(h e w).1, fun hf => ih e w ((h e w).2 hf)⟩

lemma opens_bind_except {P : Bool → Except ε β → Prop} {x : ExceptT ε Code α}
    {f : α → ExceptT ε Code β} (h : Opens d (fun b r => match r with
      | .ok a => Opens d P b (f a).run
      | .error err => P b (.error err)) b x.run) : Opens d P b (x >>= f).run := by
  rw [ExceptT.run_bind]
  refine opens_bind (opens_mono (fun b r hr => ?_) h)
  cases r <;> exact hr

lemma opens_of_wp {p : Code α} {tr : List WorldEv} {w : World}
    (hp : wp (promise (fun _ _ _ => True) (Shut d)) p (fun _ tr _ => Every (Shut d) tr) tr w) :
    Opens d (fun _ _ => True) b p := by
  induction p generalizing b tr w with
  | ret a => trivial
  | stmt l f k ih =>
    intro e w'
    have hk := hp.2 w' e trivial trivial
    exact ⟨.inr (wp_every hk ⟨l, e, w', f e w'⟩ (by simp)), fun _ => ih e w' hk⟩

/-- A program that never opens the vault. -/
lemma opens_of_shut {p : Code α} (hp : Promises (Shut d) p) : Opens d (fun _ _ => True) b p := by
  cases p with
  | ret a => trivial
  | stmt l f k => exact fun e w => opens_of_wp (hp [] w every_nil) e w

lemma opens_then {x : ExceptT ε Code α} {f : α → ExceptT ε Code β}
    (hx : Opens d (fun _ _ => True) b x.run) (hf : ∀ b a, Opens d (fun _ _ => True) b (f a).run) :
    Opens d (fun _ _ => True) b (x >>= f).run := by
  refine opens_bind_except (opens_mono (fun b r _ => ?_) hx)
  cases r with
  | ok a => exact hf b a
  | error err => trivial

lemma opens_bind_shut {x : ExceptT ε Code α} {f : α → ExceptT ε Code β}
    (hx : Promises (Shut d) x.run) (hf : ∀ b a, Opens d (fun _ _ => True) b (f a).run) :
    Opens d (fun _ _ => True) b (x >>= f).run := opens_then (opens_of_shut hx) hf

lemma shut_setDevice {l : Client.Label} {e : ClientEnv} {w : World} {c : Device}
    (h : c.mem.locked = (w.devices d).mem.locked) : Shut d ⟨(d, l), e, w, w.setDevice d c⟩ := by
  simp [Shut, h]

lemma permitsSync_shut : PermitsSync d anyEffect (Shut d) where
  read _ := trivial
  memory _ _ _ _ _ hm := shut_setDevice hm.locked
  server _ _ _ _ _ := id
  database _ _ _ _ _ _ _ _ := shut_setDevice rfl
  cursor _ _ _ := shut_setDevice rfl
  gate _ _ _ := shut_setDevice rfl
  clean _ _ := shut_setDevice rfl
  lists _ _ _ _ _ _ _ := shut_setDevice rfl

lemma permitsRotation_shut : PermitsRotation d anyEffect (Shut d) where
  toPermitsDb := permitsSync_shut.toPermitsDb
  keys _ _ _ _ _ hm := shut_setDevice hm.locked
  items _ _ _ _ _ _ _ := shut_setDevice rfl

lemma shut_write {g : Memory → Memory}
    (hg : ∀ m, (g m).locked = false → m.locked = false) :
    Promises (Shut d) (writeMemory d g : ExceptT ε Code Unit).run :=
  guarantees_onMemory fun _ w => by simpa [Shut] using hg _

/-- If the table can be read, the list in memory comes from it. -/
lemma opens_loadBlacklist : Opens d (fun b _ => b = true) b (loadBlacklist d).run := by
  refine fun e w => ⟨.inr ?_, fun hf => ?_⟩
  · simp only [Shut]
    split <;> simp
  have hfault : e.fault = false := hf rfl
  simp only [hfault]
  exact fun e' w' => ⟨.inr (by simp [Shut]), fun _ => rfl⟩

lemma opens_openVault (localGen : UInt64) :
    Opens d (fun _ _ => True) b (openVault d localGen).run := by
  refine opens_bind_shut (guarantees_bind_except (guarantees_inspect
    (permitsSync_shut.readDb rfl)) fun r => ?_) fun b _ =>
    opens_bind_shut (shut_write fun _ => id) fun b _ =>
    opens_bind_shut (shut_write fun _ => id) fun b _ => opens_bind_except ?_
  · cases r <;> exact shut_write fun _ => id
  · refine opens_mono (fun b r hb => ?_) opens_loadBlacklist
    cases r with
    | error err => trivial
    | ok u => exact fun e w => ⟨.inl hb, fun _ => trivial⟩

/-- **When a command opens the vault**: after it has read the table. -/
lemma opens_exec (q : Cmd) : Opens d (fun _ _ => True) b (exec X d q).run := by
  cases q with
  -- the two ways to unlock load the list when the vault opens
  | unlockWithPassword mk wrapped user gen =>
    refine opens_then ?_ fun _ _ => trivial
    unfold unlockWithPassword
    split
    · trivial
    · trivial
    · exact opens_bind_shut (shut_write fun _ => id) fun b _ =>
        opens_bind_shut (shut_write fun _ => id) fun b _ =>
        opens_bind_shut (shut_write fun _ => id) fun b _ =>
        opens_bind_shut (shut_write fun _ => id) fun b _ => opens_openVault gen
  | unlockWithRawKey key gen =>
    refine opens_then ?_ fun _ _ => trivial
    exact opens_bind_shut (shut_write fun _ => id) fun b _ =>
      opens_bind_shut (shut_write fun _ => id) fun b _ =>
      opens_bind_shut (shut_write fun _ => id) fun b _ => opens_openVault gen
  -- no other command opens the vault
  | connectSync user =>
    exact opens_of_shut (guarantees_bind_except (guarantees_bind_except (shut_write fun _ => id)
      fun _ => shut_write fun _ => id) fun _ => guarantees_pure_except _)
  | disconnectSync =>
    exact opens_of_shut (guarantees_bind_except (shut_write fun _ => id)
      fun _ => guarantees_pure_except _)
  | lock =>
    exact opens_of_shut (guarantees_bind_except (guarantees_bind_except (shut_write fun _ => id)
      fun _ => guarantees_bind_except (shut_write fun _ => id) fun _ =>
      guarantees_bind_except (shut_write fun _ => id) fun _ =>
      guarantees_bind_except (shut_write fun _ h => by cases h) fun _ => permitsSync_shut.publish) fun _ =>
      guarantees_pure_except _)
  | restart =>
    exact opens_of_shut (guarantees_bind_except (guarantees_onMemory fun _ w => by
      simp [Shut, Memory.new]) fun _ => guarantees_pure_except _)
  | markIgnored uuid v toxic =>
    exact opens_of_shut (guarantees_bind_except (guarantees_bind_except (shut_write fun _ => id)
      fun _ => shut_write fun _ => id) fun _ => guarantees_pure_except _)
  | saveItem item payload =>
    exact opens_of_shut (guarantees_bind_except (permitsSync_shut.saveItem _ _) fun _ =>
      guarantees_pure_except _)
  | deleteItem uuid =>
    exact opens_of_shut (guarantees_bind_except (permitsSync_shut.deleteItem _) fun _ =>
      guarantees_pure_except _)
  | sync =>
    exact opens_of_shut (guarantees_bind_except permitsSync_shut.sync fun _ =>
      guarantees_pure_except _)
  | pushLocalChanges =>
    exact opens_of_shut (guarantees_bind_except permitsSync_shut.pushLocalChanges fun _ =>
      guarantees_pure_except _)
  | resolveConflict uuid v force =>
    exact opens_of_shut (guarantees_bind_except (permitsSync_shut.resolveConflict _ _ _) fun _ =>
      guarantees_pure_except _)
  | rotateKey gen =>
    exact opens_of_shut (guarantees_bind_except (permitsRotation_shut.rotateKey _) fun _ =>
      guarantees_pure_except _)

end Opening

/-! ### What a statement preserves -/

section Step

variable {s : Local} {u : Ident}

@[simp] lemma stand_world (st : Standing) : (s.stand u st).world = s.world := rfl

@[simp] lemma stand_loaded (st : Standing) : (s.stand u st).loaded = s.loaded := rfl

@[simp] lemma note_world (l : Client.Label) (e : ClientEnv) : (s.note l e).world = s.world := by
  cases l <;> simp only [Local.note] <;> split <;> rfl

/-- What `note` does, other than for a start of the client and for a read of the table. -/
lemma note_loaded {l : Client.Label} {e : ClientEnv} :
    (s.note l e).loaded = seen s.loaded l := by
  cases l <;> simp only [Local.note, seen] <;> split <;> rfl

lemma note_standing (l : Client.Label) (e : ClientEnv) (u : Ident) :
    (s.note l e).standing u = s.standing u ∨
      l = .saveItem u ∧ e.fault = false ∧ (s.note l e).standing u = .cleared := by
  cases l with
  | saveItem v =>
    simp only [Local.note]
    split
    · exact .inl rfl
    · next hf =>
      by_cases hu : u = v
      · exact .inr ⟨by rw [hu], by simpa using hf, if_pos hu⟩
      · exact .inl (if_neg hu)
  | _ => exact .inl rfl

/-- What is asked of the entries of one item, in memory and in the table. -/
structure Fitting (loaded dirty : Bool) (m t : Option BlacklistRow) (st : Standing) : Prop where
  same : loaded = true → dirty = false → m = t
  cleared : st = .cleared → m = none ∧ t = none
  ignored : st = .ignored → m.isSome = true ∨ loaded = false ∧ t.isSome = true

lemma Kept.fitting (h : Kept d s) (u : Ident) : Fitting s.loaded (s.mem d).blacklistDirty
    ((s.mem d).blacklist.get u) ((s.table d).get u) (s.standing u) :=
  ⟨fun hl hd => h.same hl hd u, h.cleared u, h.ignored u⟩

lemma kept_of_fitting (h : ∀ u, Fitting s.loaded (s.mem d).blacklistDirty
    ((s.mem d).blacklist.get u) ((s.table d).get u) (s.standing u))
    (hopened : (s.mem d).locked = false → s.loaded = true) : Kept d s :=
  ⟨fun hl hd u => (h u).same hl hd, fun u => (h u).cleared, fun u => (h u).ignored, hopened⟩

lemma within_get {t t' : Table BlacklistRow.uuid} (h : SyncCursor.Within t t')
    (hu : (t.get u).isSome = true) : (t'.get u).isSome = true := SyncCursor.Within.get h hu

variable {loaded dirty : Bool} {m t : Option BlacklistRow} {st : Standing}

/-- The list in memory comes from the table. -/
lemma Fitting.load (h : Fitting loaded dirty m t st) (hw : m.isSome = true → t.isSome = true)
    (dirty' : Bool) : Fitting true dirty' t t st where
  same _ _ := rfl
  cleared hst := ⟨(h.cleared hst).2, (h.cleared hst).2⟩
  ignored hst := .inl ((h.ignored hst).elim hw And.right)

/-- The memory is lost. -/
lemma Fitting.restart (h : Fitting loaded dirty m t st) (hw : m.isSome = true → t.isSome = true) :
    Fitting false false none t st where
  same := nofun
  cleared hst := ⟨rfl, (h.cleared hst).2⟩
  ignored hst := .inr ⟨rfl, (h.ignored hst).elim hw And.right⟩

/-- The item is deleted from the table, where it is not in memory. -/
lemma Fitting.delete (h : Fitting loaded dirty m t st) (hm : m = none)
    (hl : loaded = true ∨ t = none) (dirty' : Bool) : Fitting loaded dirty' m none st where
  same _ _ := hm
  cleared _ := ⟨hm, rfl⟩
  ignored hst := by
    rcases h.ignored hst with hs | ⟨hl', hs⟩
    · exact .inl hs
    · rcases hl with hl | rfl
      · rw [hl'] at hl
        cases hl
      · cases hs

/-- The table comes from the list in memory. -/
lemma Fitting.persist (h : Fitting loaded dirty m t st)
    (hw : loaded = true ∨ (t.isSome = true → m.isSome = true)) (dirty' : Bool) :
    Fitting loaded dirty' m m st where
  same _ _ := rfl
  cleared hst := ⟨(h.cleared hst).1, (h.cleared hst).1⟩
  ignored hst := by
    rcases h.ignored hst with hs | ⟨hl, hs⟩
    · exact .inl hs
    · rcases hw with hw | hw
      · rw [hl] at hw
        cases hw
      · exact .inl (hw hs)

/-- The list is not marked as changed any more. -/
lemma Fitting.clean (h : Fitting loaded dirty m t st) {dirty' : Bool}
    (hd : dirty' = dirty ∨ dirty' = false ∧ m = t) : Fitting loaded dirty' m t st where
  same hl hd' := by
    rcases hd with rfl | ⟨-, heq⟩
    · exact h.same hl hd'
    · exact heq
  cleared := h.cleared
  ignored := h.ignored

/-- The item is in neither list. -/
lemma fitting_absent (loaded dirty : Bool) : Fitting loaded dirty none none .cleared :=
  ⟨fun _ _ => rfl, fun _ => ⟨rfl, rfl⟩, nofun⟩

lemma Fitting.table {e : ClientEnv} {l : Client.Label} {s' s'' : Local} {x : ℕ}
    (hm : Meets d ⟨.client (x, l), e, s, s''⟩)
    (htable : TableStep e (s.world.devices d) (s'.world.devices d) l) (u : Ident)
    (h : Fitting s.loaded dirty ((s.mem d).blacklist.get u) ((s.table d).get u) st) :
    Fitting s.loaded dirty ((s.mem d).blacklist.get u) ((s'.table d).get u) st := by
  cases htable with
  | same l hsame => rwa [hsame u]
  | save v hf hsave =>
    rw [hsave u]
    split
    · next hu =>
      subst hu
      obtain ⟨hmem, htab⟩ : Absent d s u := hm hf
      exact h.delete hmem (.inr htab) dirty
    · exact h
  | persist hf hpersist =>
    rw [show s'.table d = (s.mem d).blacklist from hpersist]
    have hw : s.loaded = true ∨ SyncCursor.Within (s.table d) (s.mem d).blacklist := hm hf
    exact h.persist (hw.imp id within_get) dirty
  | page us hf hpage =>
    rcases hpage u with hsame | ⟨hnone, hmem⟩
    · rwa [hsame]
    · rw [hnone]
      have hl : s.loaded = true ∨ (s.table d).rows = [] := hm hf
      refine h.delete hmem (hl.imp id fun hrows => ?_) dirty
      simp [Table.get, hrows]

/-- **What a statement of a command preserves.** -/
lemma Kept.client {e : ClientEnv} {l : Name} {w' : World} (h : Kept d s)
    (ht : Touches d ⟨l, e, s.world, w'⟩)
    (hm : Meets d ⟨.client l, e, s, ({ s with world := w' } : Local).note l.2 e⟩)
    (hopens : s.loaded = true ∨ Shut d ⟨l, e, s.world, w'⟩) :
    Kept d (({ s with world := w' } : Local).note l.2 e) := by
  obtain ⟨x, l⟩ := l
  obtain ⟨-, htouch⟩ := ht
  dsimp only at htouch hm ⊢
  cases htouch with
  | load hlist hdirty hdb =>
    refine kept_of_fitting (fun u => ?_) fun _ => rfl
    have hfit := (h.fitting u).load (within_get hm) (s.mem d).blacklistDirty
    simpa [Local.note, Local.mem, Local.table, hlist, hdirty, hdb] using hfit
  | restart hmem hdb =>
    refine kept_of_fitting (fun u => ?_) fun hlocked => ?_
    · simpa [Local.note, Local.mem, Local.table, hmem, hdb, Memory.new] using
        (h.fitting u).restart (within_get hm)
    · simp [Local.note, Local.mem, hmem, Memory.new] at hlocked
  | other hload hrestart hlist hdirty htable =>
    set s' := ({ s with world := w' } : Local).note l e
    have hworld : s'.world = w' := note_world l e
    have hloaded : s'.loaded = s.loaded := by
      simp only [s', note_loaded]
      cases l <;> first | rfl | exact absurd rfl hload | exact absurd rfl hrestart
    have hfit : ∀ u st, Fitting s.loaded (s.mem d).blacklistDirty ((s.mem d).blacklist.get u)
        ((s.table d).get u) st → Fitting s'.loaded (s'.mem d).blacklistDirty
        ((s'.mem d).blacklist.get u) ((s'.table d).get u) st := by
      intro u st hst
      have hclean : Fitting s.loaded (s'.mem d).blacklistDirty _ _ st := hst.clean
        (by simpa [Local.mem, hworld] using hdirty.imp id fun hd => ⟨hd.1, hd.2 u⟩)
      rw [hloaded, (congrArg (fun w => (w.devices d).mem.blacklist) hworld).trans hlist]
      exact hclean.table hm (by rwa [hworld]) u
    refine kept_of_fitting (fun u => ?_) fun hlocked' => ?_
    · rcases note_standing (s := { s with world := w' }) l e u with hst | ⟨rfl, hf, hst⟩
      · rw [hst]
        exact hfit u _ (h.fitting u)
      · obtain ⟨hmem, htab⟩ : Absent d s u := hm hf
        rw [hst]
        refine hfit u _ ?_
        rw [hmem, htab]
        exact fitting_absent _ _
    · rw [hloaded]
      refine hopens.elim id fun hshut => h.opened (hshut ?_)
      simpa [Local.mem, hworld] using hlocked'

/-- An item is marked as ignored. -/
lemma Kept.mark (h : Kept d s) (uuid : Ident) (v : ℤ) (toxic : Bool) :
    Kept d (({ s with world := s.world.setDevice d { s.world.devices d with
      mem := markedIgnored uuid v toxic (s.world.devices d).mem } } : Local).stand uuid .ignored) := by
  refine kept_of_fitting (fun u => ?_) fun hlocked => ?_
  · by_cases hu : u = uuid
    · subst hu
      exact ⟨fun _ hd => by simp [Local.stand, Local.mem, markedIgnored] at hd,
        fun hst => by simp [Local.stand] at hst,
        fun _ => .inl (by simp [Local.stand, Local.mem, markedIgnored])⟩
    · have hfit := h.fitting u
      refine ⟨fun _ hd => by simp [Local.stand, Local.mem, markedIgnored] at hd, fun hst => ?_,
        fun hst => ?_⟩
      · simpa [Local.stand, Local.mem, Local.table, markedIgnored, hu, Ne.symm hu] using
          hfit.cleared (by simpa [Local.stand, hu] using hst)
      · simpa [Local.stand, Local.mem, Local.table, markedIgnored, hu, Ne.symm hu] using
          hfit.ignored (by simpa [Local.stand, hu] using hst)
  · exact h.opened (by simpa [Local.stand, Local.mem, markedIgnored] using hlocked)

/-- Items that are in neither list are recovered. -/
lemma Kept.recover (h : Kept d s) {quarantine : List Ident} {standing : Ident → Standing}
    (hst : ∀ u, standing u = s.standing u ∨ standing u = .cleared ∧ Absent d s u) :
    Kept d { s with quarantine, standing } where
  same := h.same
  cleared u hu := (hst u).elim (fun heq => h.cleared u (heq.symm.trans hu)) And.right
  ignored u hu := by
    rcases hst u with heq | ⟨hc, -⟩
    · exact h.ignored u (heq.symm.trans hu)
    · rw [show standing u = _ from hu] at hc
      cases hc
  opened := h.opened

end Step

/-! ### Runs -/

section Runs

variable {α : Type} {s : Local}

/-- The others leave the client alone. -/
def Aside (d : ℕ) (s s' : Local) : Prop :=
  s'.world.devices d = s.world.devices d ∧ s'.loaded = s.loaded

abbrev keeping (d : ℕ) : Rules Local ClientEnv Label :=
  keeps (Kept d) (Aside d) (Every (Meets d))

/-- An operation of the client. -/
lemma keeps_onClient {p : Code α} {b : Bool} {tr : List WorldEv} {w : World}
    {tr' : List (Ev Local ClientEnv Label)}
    (hp : wp (meeting (SameLists d) (fun _ => True) (Touches d)) p
      (fun _ tr _ => Every (Touches d) tr) tr w)
    (hopens : Opens d (fun _ _ => True) b p) (hw : w.devices d = s.world.devices d)
    (hb : b = true → s.loaded = true) (htr' : Every (fun ev => Kept d ev.post) tr') :
    wp (keeping d) (onClient p) (fun _ tr _ => Every (fun ev => Kept d ev.post) tr) tr' s := by
  induction p generalizing b tr w tr' s with
  | ret a => exact htr'
  | stmt l f k ih =>
    refine ⟨htr', fun s' e hr hok => ?_⟩
    have hmeets := hok.1 _ (List.mem_append_right _ (List.mem_singleton_self _))
    have hpre := hok.2 _ (List.mem_append_right _ (List.mem_singleton_self _))
    have hsame : SameLists d w s'.world := by
      rw [SameLists, hr.1, hw]
      exact ⟨rfl, rfl⟩
    have hk := hp.2 s'.world e hsame fun _ _ => trivial
    have htouches := wp_mid hk (fun _ _ h => h) ⟨l, e, s'.world, f e s'.world⟩ (by simp)
    have hloaded : b = true → s'.loaded = true := fun hbt => hr.2.trans (hb hbt)
    have hpost := hpre.client htouches hmeets ((hopens e s'.world).1.imp_left hloaded)
    have hread : l.2 = .listBlacklist → e.fault = false := by
      obtain ⟨x, l⟩ := l
      rintro rfl
      exact hmeets
    exact ih e _ hk ((hopens e s'.world).2 hread) (by rw [note_world])
      (fun hseen => by rw [note_loaded]; exact seen_mono hloaded hseen) (every_append htr' hpost)

/-- **What an operation preserves.** -/
lemma keeps_code (q : Req) (s : Local) : wp (keeping d) (code X d q)
    (fun _ tr _ => Every (fun ev => Kept d ev.post) tr) [] s := by
  have hclient : ∀ {β : Type} {p : Code β} {g : β → Task Reply}, Fine d p →
      Opens d (fun _ _ => True) false p → (∀ b tr s, Every (fun ev => Kept d ev.post) tr →
        wp (keeping d) (g b) (fun _ tr _ => Every (fun ev => Kept d ev.post) tr) tr s) →
      wp (keeping d) (onClient p >>= g) (fun _ tr _ => Every (fun ev => Kept d ev.post) tr) [] s := by
    intro β p g hfine hopens hg
    rw [wp_bind]
    refine wp_mono (fun b tr s h => hg b tr s h) (keeps_onClient (wp_mono (fun _ _ _ h => h.1)
      (hfine [] s.world every_nil trivial)) hopens rfl nofun every_nil)
  have hatom : ∀ {β : Type} {l : Label} {f : ClientEnv → Local → Local × β} {g : β → Reply},
      (∀ e s, Kept d s → Meets d ⟨l, e, s, (f e s).1⟩ → Kept d (f e s).1) →
      wp (keeping d) (Prog.atom l f >>= fun b => (pure (g b) : Task Reply))
        (fun _ tr _ => Every (fun ev => Kept d ev.post) tr) [] s := by
    intro β l f g hf
    refine ⟨every_nil, fun s' e _ hok => ?_⟩
    exact every_append every_nil (hf e s'
      (hok.2 _ (List.mem_append_right _ (List.mem_singleton_self _)))
      (hok.1 _ (List.mem_append_right _ (List.mem_singleton_self _))))
  cases q with
  | command q hq => exact hclient (fine_exec hq) (opens_exec q) fun _ _ _ h => h
  | markIgnored uuid v toxic => exact hatom fun _ _ h _ => h.mark uuid v toxic
  | markItemToxic uuid => exact hatom fun _ _ h _ => h.recover fun _ => .inl rfl
  | runQuarantineReap metadata =>
    refine hatom fun _ s h hm => h.recover fun u => ?_
    split
    · next hu =>
      obtain ⟨hin, hvalid⟩ := mem_evaluate.mp hu
      exact .inr ⟨rfl, hm u hin hvalid⟩
    · exact .inl rfl
  | serverNotice uuid =>
    refine hatom fun _ s h hm => h.recover fun u => ?_
    by_cases hu : u = uuid
    · subst hu
      exact .inr ⟨if_pos rfl, hm⟩
    · exact .inl (if_neg hu)
  | persistBlacklistNow =>
    exact hclient (fine_of_flows fun _ => flows_persistBlacklistIfDirty)
      (opens_of_shut permitsSync_shut.persistBlacklistIfDirty) fun _ _ _ h => h

end Runs

abbrev LocalSess := Sess Req Local ClientEnv Label Reply

abbrev LocalAct (Y : Type) := Act Req ClientEnv Y

/-- What others do to the world. -/
def onWorld {Y : Type} (others : Y → World → World) (y : Y) (s : Local) : Local :=
  { s with world := others y s.world }

/-- The statement that is next meets its condition. -/
def MeetsNext (d : ℕ) (σ : LocalSess) (e : ClientEnv) : Prop :=
  match σ.cur with
  | some ⟨_, _, .stmt l f _⟩ => Meets d ⟨l, e, σ.shared, f e σ.shared⟩
  | _ => True

/-- Every statement meets its condition, and the others leave the device alone. -/
def Mindful {Y : Type} (d : ℕ) (others : Y → World → World) (σ : LocalSess) : LocalAct Y → Prop
  | .op _ => True
  | .exec e => MeetsNext d σ e
  | .env y => (others y σ.shared.world).devices d = σ.shared.world.devices d

/-- A client that was just started. -/
def start (w : World) : Local := ⟨w, [], false, fun _ => .unknown⟩

/-- **The lists of ignored items agree**, in every run of a client, whatever commands begin, are
cut off, fail or succeed, and whatever others do meanwhile: as long as every statement meets its
condition, the two lists are the same unless the one in memory is marked as changed, an item that
was saved or recovered is in neither, and an item that was marked as ignored stays ignored. -/
theorem lists_kept (X : Ext Blob) (d : ℕ) {Y : Type} (others : Y → World → World) (w : World)
    (hw : (w.devices d).mem = Memory.new) (as : List (LocalAct Y))
    (has : Along (code X d) (onWorld others) (Mindful d others) (init (start w)) as) :
    Kept d (run (code X d) (onWorld others) (init (start w)) as).shared := by
  have hexec : ∀ (σ : LocalSess) e (q : Req) tr l f k, σ.cur = some ⟨q, tr, .stmt l f k⟩ →
      Mindful d others σ (.exec e) → Kept d σ.shared → Every (Meets d) tr →
      Every (Meets d) (tr ++ [⟨l, e, σ.shared, f e σ.shared⟩]) := by
    intro σ e q tr l f k hc hC _ hok
    simp only [Mindful, MeetsNext, hc] at hC
    exact every_append hok hC
  have henv : ∀ (σ : LocalSess) y, Kept d σ.shared → Mindful d others σ (.env y) →
      Kept d (onWorld others y σ.shared) ∧ Aside d σ.shared (onWorld others y σ.shared) := by
    intro σ y h hy
    have hsame : (others y σ.shared.world).devices d = σ.shared.world.devices d := hy
    refine ⟨⟨?_, ?_, ?_, ?_⟩, hy, rfl⟩
    · simpa [onWorld, Local.mem, Local.table, hsame] using h.same
    · simpa [onWorld, Absent, Local.mem, Local.table, hsame] using h.cleared
    · simpa [onWorld, Local.mem, Local.table, hsame] using h.ignored
    · simpa [onWorld, Local.mem, hsame] using h.opened
  refine run_keeps (C := Mindful d others) (fun σ q _ _ => keeps_code q σ.shared) hexec henv
    (fun _ => every_nil) (fun _ => ⟨rfl, rfl⟩) (fun _ _ _ h h' => ⟨h'.1.trans h.1, h'.2.trans h.2⟩)
    ⟨fun h => ?_, fun _ h => ?_, fun _ h => ?_, fun h => ?_⟩ has
  · cases h
  · cases h
  · cases h
  · simp [start, Local.mem, hw, Memory.new] at h

/-! ### One client -/

/-- A new client, and a server that knows nothing. -/
def newClient : World where
  server := ⟨.empty, .empty⟩
  devices _ := ⟨⟨.empty, .empty, .empty, .empty, .empty, .empty⟩, Memory.new⟩

/-- The operation and so many of its statements. -/
def running (q : Req) (n : ℕ) : List (LocalAct Empty) :=
  .op q :: List.replicate n (.exec ⟨0, 5, false, 9⟩)

/-- The client is unlocked. -/
def unlocking : List (LocalAct Empty) := running (.command (.unlockWithRawKey 100 0) nofun) 10

/-- The item 3 is ignored, and the list is written. -/
def ignoring : List (LocalAct Empty) :=
  unlocking ++ running (.markIgnored 3 1 true) 1 ++ running .persistBlacklistNow 4

/-- The item 4 is saved, the item 5 is recovered, and the client is started again. -/
def restarting : List (LocalAct Empty) :=
  ignoring ++ running (.command (.saveItem ⟨1, 4, "t", "", "", "[]", 0, 0, false⟩ (.raw 7)) nofun) 9 ++
    running (.markItemToxic 5) 1 ++ running (.runQuarantineReap [(5, .valid)]) 1 ++
    running (.command .restart nofun) 1 ++ unlocking

instance (s : Local) (u : Ident) : Decidable (Absent d s u) :=
  inferInstanceAs (Decidable (_ ∧ _))

instance (ev : Ev Local ClientEnv Label) : Decidable (Meets d ev) := by
  unfold Meets
  split <;> infer_instance

instance (σ : LocalSess) (e : ClientEnv) : Decidable (MeetsNext d σ e) := by
  unfold MeetsNext
  split <;> infer_instance

instance (σ : LocalSess) : ∀ a : LocalAct Empty, Decidable (Mindful d nobody σ a)
  | .op _ => inferInstanceAs (Decidable True)
  | .exec e => inferInstanceAs (Decidable (MeetsNext d σ e))
  | .env y => y.elim

theorem lists_kept_restarted :
    Along (code SyncCursor.anyUuid 0) (onWorld nobody) (Mindful 0 nobody) (init (start newClient))
      restarting ∧
    Kept 0 (run (code SyncCursor.anyUuid 0) (onWorld nobody) (init (start newClient))
      restarting).shared :=
  ⟨by decide +kernel,
    lists_kept SyncCursor.anyUuid 0 nobody newClient rfl restarting (by decide +kernel)⟩

/-- The ignored item is saved. -/
def savingIgnored : List (LocalAct Empty) :=
  ignoring ++ running (.command (.saveItem ⟨1, 3, "t", "", "", "[]", 0, 0, false⟩ (.raw 7)) nofun) 9

/-- **An item that is saved stays ignored in memory.** -/
theorem saved_still_ignored :
    ¬ ∀ (X : Ext Blob) (d : ℕ) (w : World) (as : List (LocalAct Empty)),
      (w.devices d).mem = Memory.new →
      Kept d (run (code X d) (onWorld nobody) (init (start w)) as).shared := by
  intro h
  have hkept := h SyncCursor.anyUuid 0 newClient savingIgnored rfl
  have hcleared := (hkept.cleared 3 (by decide +kernel)).1
  revert hcleared
  decide +kernel

end Vautr.Blacklist
