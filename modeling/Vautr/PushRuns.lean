import Vautr.Executions
import Vautr.Occ
import Vautr.Push

/-!
Executions of a push.

A push that reports an item as stored has written its row with one statement, at a moment when the
row had the version the push was aimed at; for an item that it reports as refused it has written
nothing.
-/

namespace Vautr.PushRuns

open Vautr.Atomic Vautr.Sql Vautr.Database Vautr.Api Vautr.Server Vautr.Handlers Vautr.Executions
  Vautr.Occ

variable {B α : Type} {X : Ext B} {tr : List (DbEv B)} {user uuid : Ident}

/-- The row of the upsert was written, by one statement, and no other row. -/
def WroteOnce (q : Upsert B) (tr : List (DbEv B)) : Prop :=
  ∃ tr₁ ev tr₂, tr = tr₁ ++ ev :: tr₂ ∧ Quiet tr₁ ∧ Writes q ev ∧ Quiet tr₂

lemma WroteOnce.append {q : Upsert B} {before after : List (DbEv B)} (hbefore : Quiet before)
    (h : WroteOnce q tr) (hafter : Quiet after) : WroteOnce q (before ++ tr ++ after) := by
  obtain ⟨tr₁, ev, tr₂, rfl, h₁, hev, h₂⟩ := h
  refine ⟨before ++ tr₁, ev, tr₂ ++ after, by simp, ?_, hev, ?_⟩
  · exact List.forall_mem_append.mpr ⟨hbefore, h₁⟩
  · exact List.forall_mem_append.mpr ⟨h₂, hafter⟩

/-! ### Reads -/

lemma quiet_select {l : Stmt} {g : Db B → α} {r : Except SqlError α}
    (h : Runs (select l g : Repo B α).run tr r) : Quiet tr := by
  obtain ⟨e, s, rfl, -⟩ := runs_select.mp h
  simp [Quiet, Every]

lemma quiet_orInternal {x : Repo B α} {r : Except ApiError α}
    (hx : ∀ tr r, Runs x.run tr r → Quiet tr) (h : Runs (orInternal x).run tr r) : Quiet tr := by
  obtain ⟨r, -, h⟩ := runs_orInternal.mp h
  exact hx tr r h

/-! ### One upsert -/

/-- What an upsert that is through has run. -/
lemma runs_upsertItemOcc [Nonempty (Db B)] {isUuid : IsUuid} {q : Upsert B}
    {r : Except SqlError UpsertOutcome} (h : Runs (upsertItemOcc isUuid q).run tr r) :
    if isApplied r then WroteOnce q tr else Quiet tr := by
  obtain ⟨s⟩ := ‹Nonempty (Db B)›
  obtain ⟨_, hpost⟩ := h.post (fun _ _ _ => trivial) (fun _ => trivial)
    (wp_upsertItemOcc (q := q) isUuid (s := s) every_nil)
  by_cases hr : isApplied r = true
  · rw [Post, if_pos hr] at hpost
    rw [if_pos hr]
    obtain ⟨tr', ev, htr, hquiet, hev⟩ := hpost
    exact ⟨tr', ev, [], htr, hquiet, hev, every_nil⟩
  · rw [Post, if_neg hr] at hpost
    rwa [if_neg hr]

/-! ### One item of a push -/

/-- What the handler comes to for an item. -/
def Pushed (user : Ident) (now : ℤ) (item : PushItem B) (tr : List (DbEv B)) (res : PushResult) :
    Prop :=
  if res.status = .success then
    ∃ p, item.payload = Option.map some p ∧ WroteOnce (item.upsert user now p) tr
  else Quiet tr

lemma runs_pushedRow {item : PushItem B} {res : PushResult}
    (h : Runs (pushedRow user item).run tr (.ok res)) : Quiet tr ∧ res.status = .success := by
  rcases runs_bind_except.mp h with ⟨row, tr₁, tr₂, rfl, h₁, h₂⟩ | ⟨e, -, hr⟩
  · have hquiet := quiet_orInternal (fun _ _ => quiet_select) h₁
    cases row with
    | none => cases h₂.2
    | some row =>
      obtain ⟨rfl, hr⟩ := h₂
      cases hr
      exact ⟨by rwa [List.append_nil], rfl⟩
  · cases hr

lemma runs_decodePayload {payload : Option (Option B)} {p : Option B}
    (h : Runs (decodePayload payload).run tr (.ok p)) : tr = [] ∧ payload = Option.map some p := by
  rcases payload with _ | _ | b
  · obtain ⟨rfl, hr⟩ := h
    cases hr
    exact ⟨rfl, rfl⟩
  · cases h.2
  · obtain ⟨rfl, hr⟩ := h
    cases hr
    exact ⟨rfl, rfl⟩

lemma runs_afterUpsert {item : PushItem B} {q : UpsertOutcome} {res : PushResult}
    (h : Runs (Push.afterUpsert user item q).run tr (.ok res)) :
    Quiet tr ∧ (res.status = .success ↔ isApplied (.ok q) = true) := by
  cases q with
  | updated => exact (runs_pushedRow h).imp id fun hs => by simp [hs, isApplied]
  | recovered => exact (runs_pushedRow h).imp id fun hs => by simp [hs, isApplied]
  | conflict =>
    rcases runs_bind_except.mp h with ⟨row, tr₁, tr₂, rfl, h₁, h₂⟩ | ⟨e, -, hr⟩
    · have hquiet := quiet_orInternal (fun _ _ => quiet_select) h₁
      obtain ⟨rfl, hr⟩ := h₂
      cases hr
      exact ⟨by rwa [List.append_nil], by simp [PushResult.refused, isApplied]⟩
    · cases hr
  | epochTooOld =>
    obtain ⟨rfl, hr⟩ := h
    cases hr
    exact ⟨every_nil, by simp [PushResult.refused, isApplied]⟩

lemma runs_pushItem [Nonempty (Db B)] {now : ℤ} {item : PushItem B} {res : PushResult}
    (h : Runs (pushItem X user now item).run tr (.ok res)) : Pushed user now item tr res := by
  rcases runs_bind_except.mp h with ⟨gen, tr₁, tr₂, rfl, h₁, h₂⟩ | ⟨e, -, hr⟩
  rotate_left
  · cases hr
  have hgen := quiet_orInternal (fun _ _ => quiet_select) h₁
  dsimp only at h₂
  split at h₂
  · obtain ⟨rfl, hr⟩ := h₂
    cases hr
    simpa [Pushed, PushResult.refused] using hgen
  rcases runs_bind_except.mp h₂ with ⟨p, tr₃, tr₄, rfl, h₃, h₄⟩ | ⟨e, -, hr⟩
  rotate_left
  · cases hr
  obtain ⟨rfl, hp⟩ := runs_decodePayload h₃
  rcases runs_bind_except.mp h₄ with ⟨q, tr₅, tr₆, rfl, h₅, h₆⟩ | ⟨e, -, hr⟩
  rotate_left
  · cases hr
  obtain ⟨r, hr, hup⟩ := runs_orInternal.mp h₅
  cases r with
  | error e => cases hr
  | ok q =>
    cases hr
    obtain ⟨hafter, hstatus⟩ := runs_afterUpsert h₆
    have hwrote := runs_upsertItemOcc hup
    rw [List.nil_append, ← List.append_assoc]
    unfold Pushed
    by_cases hq : isApplied (.ok q) = true
    · rw [if_pos hq] at hwrote
      rw [if_pos (hstatus.mpr hq)]
      exact ⟨p, hp, hwrote.append hgen hafter⟩
    · rw [if_neg hq] at hwrote
      rw [if_neg fun hs => hq (hstatus.mp hs)]
      exact List.forall_mem_append.mpr ⟨List.forall_mem_append.mpr ⟨hgen, hwrote⟩, hafter⟩

/-! ### A push -/

/-- What the handler comes to for the items of a push, one after the other. -/
inductive PushedAll (user : Ident) (now : ℤ) :
    List (PushItem B) → List (DbEv B) → List PushResult → Prop
  | nil : PushedAll user now [] [] []
  | cons {item : PushItem B} {items : List (PushItem B)} {tr tr' : List (DbEv B)}
    {res : PushResult} {rs : List PushResult} (head : Pushed user now item tr res)
    (tail : PushedAll user now items tr' rs) :
    PushedAll user now (item :: items) (tr ++ tr') (res :: rs)

lemma runs_pushItems [Nonempty (Db B)] {now : ℤ} {items : List (PushItem B)}
    {rs : List PushResult} (h : Runs (pushItems X user now items).run tr (.ok rs)) :
    PushedAll user now items tr rs := by
  induction items generalizing tr rs with
  | nil =>
    obtain ⟨rfl, hr⟩ := h
    cases hr
    exact .nil
  | cons item items ih =>
    rcases runs_bind_except.mp h with ⟨res, tr₁, tr₂, rfl, h₁, h₂⟩ | ⟨e, -, hr⟩
    · rcases runs_bind_except.mp h₂ with ⟨rest, tr₃, tr₄, rfl, h₃, h₄⟩ | ⟨e, -, hr⟩
      · obtain ⟨rfl, hr⟩ := h₄
        cases hr
        rw [List.append_nil]
        exact .cons (runs_pushItem h₁) (ih h₃)
      · cases hr
    · cases hr

lemma PushedAll.length_eq {now : ℤ} {items : List (PushItem B)} {rs : List PushResult}
    (h : PushedAll user now items tr rs) : rs.length = items.length := by
  induction h with
  | nil => rfl
  | cons _ _ ih => rw [List.length_cons, List.length_cons, ih]

/-! ### Which rows a push changes -/

/-- The statement changes the row with this key. -/
def Changes (k : Ident × Ident) (ev : DbEv B) : Prop := ev.post.items.get k ≠ ev.pre.items.get k

lemma changes_writes {q : Upsert B} {ev : DbEv B} (h : Writes q ev) : Changes q.key ev := by
  intro heq
  obtain ⟨hversion, hrow⟩ := h
  have hpost := hrow q.key
  rw [if_pos rfl, heq] at hpost
  simp [version, hpost, Upsert.row] at hversion

lemma not_changes_quiet {k : Ident × Ident} (h : Quiet tr) : ∀ ev ∈ tr, ¬Changes k ev :=
  fun ev hev hk => hk (by rw [h ev hev])

/-- Only the row of the item is changed, and only if the push of the item succeeds. -/
lemma Pushed.changes_iff {now : ℤ} {item : PushItem B} {res : PushResult}
    (h : Pushed user now item tr res) (k : Ident × Ident) :
    (∃ ev ∈ tr, Changes k ev) ↔ res.status = .success ∧ k = (item.uuid, user) := by
  unfold Pushed at h
  split at h
  · next hs =>
    obtain ⟨p, -, tr₁, ev, tr₂, rfl, h₁, hev, h₂⟩ := h
    constructor
    · rintro ⟨ev', hmem, hk⟩
      refine ⟨hs, by_contra fun hne => ?_⟩
      rcases List.mem_append.mp hmem with hmem | hmem
      · exact not_changes_quiet h₁ ev' hmem hk
      · rcases List.mem_cons.mp hmem with rfl | hmem
        · exact hk ((hev.2 k).trans (if_neg hne))
        · exact not_changes_quiet h₂ ev' hmem hk
    · rintro ⟨-, rfl⟩
      exact ⟨ev, by simp, changes_writes hev⟩
  · next hs =>
    constructor
    · rintro ⟨ev, hev, hk⟩
      exact absurd hk (not_changes_quiet h ev hev)
    · exact fun h => absurd h.1 hs

lemma PushedAll.changes {now : ℤ} {items : List (PushItem B)} {rs : List PushResult}
    (h : PushedAll user now items tr rs) {k : Ident × Ident} (hk : ∃ ev ∈ tr, Changes k ev) :
    ∃ item ∈ items, k = (item.uuid, user) := by
  induction h with
  | nil =>
    obtain ⟨ev, hev, -⟩ := hk
    cases hev
  | cons head _ ih =>
    obtain ⟨ev, hev, hk⟩ := hk
    rcases List.mem_append.mp hev with hev | hev
    · exact ⟨_, List.mem_cons_self, ((head.changes_iff k).mp ⟨ev, hev, hk⟩).2⟩
    · obtain ⟨item, hitem, hkey⟩ := ih ⟨ev, hev, hk⟩
      exact ⟨item, List.mem_cons_of_mem _ hitem, hkey⟩

/-- **A push of different items** changes the rows of all of them exactly if it succeeds for all of
them. -/
lemma PushedAll.all_changed_iff {now : ℤ} {items : List (PushItem B)} {rs : List PushResult}
    (h : PushedAll user now items tr rs) (hnodup : (items.map (·.uuid)).Nodup) :
    (∀ item ∈ items, ∃ ev ∈ tr, Changes (item.uuid, user) ev) ↔
      ∀ res ∈ rs, res.status = .success := by
  induction h with
  | nil => simp
  | cons head tail ih =>
    next item items t t' res rs =>
    rw [List.map_cons, List.nodup_cons] at hnodup
    have hhead : (∃ ev ∈ t ++ t', Changes (item.uuid, user) ev) ↔ res.status = .success := by
      constructor
      · rintro ⟨ev, hev, hk⟩
        rcases List.mem_append.mp hev with hev | hev
        · exact ((head.changes_iff _).mp ⟨ev, hev, hk⟩).1
        · obtain ⟨item', hitem', hkey⟩ := tail.changes ⟨ev, hev, hk⟩
          exact absurd (List.mem_map.mpr ⟨item', hitem', (congrArg Prod.fst hkey).symm⟩) hnodup.1
      · intro hs
        obtain ⟨ev, hev, hk⟩ := (head.changes_iff (item.uuid, user)).mpr ⟨hs, rfl⟩
        exact ⟨ev, List.mem_append_left _ hev, hk⟩
    have htail : ∀ item' ∈ items, (∃ ev ∈ t ++ t', Changes (item'.uuid, user) ev) ↔
        ∃ ev ∈ t', Changes (item'.uuid, user) ev := by
      intro item' hitem'
      constructor
      · rintro ⟨ev, hev, hk⟩
        rcases List.mem_append.mp hev with hev | hev
        · have hkey := ((head.changes_iff _).mp ⟨ev, hev, hk⟩).2
          exact absurd (List.mem_map.mpr ⟨item', hitem', congrArg Prod.fst hkey⟩) hnodup.1
        · exact ⟨ev, hev, hk⟩
      · rintro ⟨ev, hev, hk⟩
        exact ⟨ev, List.mem_append_right _ hev, hk⟩
    rw [List.forall_mem_cons, List.forall_mem_cons, hhead, ← ih hnodup.2]
    exact and_congr_right fun _ => forall₂_congr htail

/-! ### What a push finds -/

/-- The item of a statement. -/
def itemOf : Stmt → Option Ident
  | .updateItem uuid _ _ => some uuid
  | .insertItem uuid _ _ => some uuid
  | .getItem uuid _ => some uuid
  | _ => none

/-- What a write looks for is there: the `UPDATE` looks for the version that the item is made for,
and the `INSERT` for no row, and the user. -/
def Finds (uuid : Ident) (target : ℤ) (db : Db B) : Stmt → Prop
  | .updateItem uuid' user _ =>
    uuid' = uuid ∧ (db.items.get (uuid, user)).map (·.version) = some target
  | .insertItem uuid' user _ =>
    uuid' = uuid ∧ db.items.get (uuid, user) = none ∧ (db.users.get user).isSome = true
  | _ => False

/-- A row is inserted for a user who is not there. -/
def Orphans (uuid : Ident) (db : Db B) : Stmt → Prop
  | .insertItem uuid' user _ =>
    uuid' = uuid ∧ db.items.get (uuid, user) = none ∧ db.users.get user = none
  | _ => False

/-- The row is not there when it is read. -/
def Misses (uuid : Ident) (db : Db B) : Stmt → Prop
  | .getItem uuid' user => uuid' = uuid ∧ db.items.get (uuid, user) = none
  | _ => False

/-- What the statements found: each with the database that it was run on. -/
def seen (tr : List (DbEv B)) : List (Db B × Stmt) := tr.map fun ev => (ev.pre, ev.name)

/-- A write of the item found what it looks for. -/
def Lands (uuid : Ident) (target : ℤ) (found : List (Db B × Stmt)) : Prop :=
  ∃ s ∈ found, Finds uuid target s.1 s.2

/-- The item cannot be answered for: its user is not there, or the row that was written is gone
when it is read back. -/
def Stuck (uuid : Ident) (target : ℤ) (found : List (Db B × Stmt)) : Prop :=
  (∃ s ∈ found, Orphans uuid s.1 s.2) ∨
    Lands uuid target found ∧ ∃ s ∈ found, Misses uuid s.1 s.2

section Decidable

variable (uuid : Ident) (target : ℤ) (db : Db B)

instance (l : Stmt) : Decidable (Finds uuid target db l) :=
  match l with
  | .updateItem _ _ _ => inferInstanceAs (Decidable (_ ∧ _))
  | .insertItem _ _ _ => inferInstanceAs (Decidable (_ ∧ _ ∧ _))
  | .minEncKeyGen _ | .probeItem _ _ _ | .getItem _ _ | .minSeq _ | .pullPage _ | .getUserById _
  | .updateMinEncKeyGen _ _ | .updateSvk _ | .updateSvkBlobOnly _ | .auditLog | .clock =>
    inferInstanceAs (Decidable False)

instance (l : Stmt) : Decidable (Orphans uuid db l) :=
  match l with
  | .insertItem _ _ _ => inferInstanceAs (Decidable (_ ∧ _ ∧ _))
  | .minEncKeyGen _ | .probeItem _ _ _ | .updateItem _ _ _ | .getItem _ _ | .minSeq _
  | .pullPage _ | .getUserById _ | .updateMinEncKeyGen _ _ | .updateSvk _
  | .updateSvkBlobOnly _ | .auditLog | .clock =>
    inferInstanceAs (Decidable False)

instance (l : Stmt) : Decidable (Misses uuid db l) :=
  match l with
  | .getItem _ _ => inferInstanceAs (Decidable (_ ∧ _))
  | .minEncKeyGen _ | .probeItem _ _ _ | .updateItem _ _ _ | .insertItem _ _ _ | .minSeq _
  | .pullPage _ | .getUserById _ | .updateMinEncKeyGen _ _ | .updateSvk _
  | .updateSvkBlobOnly _ | .auditLog | .clock =>
    inferInstanceAs (Decidable False)

instance (found : List (Db B × Stmt)) : Decidable (Lands uuid target found) :=
  inferInstanceAs (Decidable (∃ s ∈ found, _))

instance (found : List (Db B × Stmt)) : Decidable (Stuck uuid target found) :=
  inferInstanceAs (Decidable ((∃ s ∈ found, _) ∨ _ ∧ ∃ s ∈ found, _))

end Decidable

/-- A statement of a push of the item writes its row exactly if it finds what it looks for, and it
writes no other. -/
structure Telling (uuid user : Ident) (target : ℤ) (ev : DbEv B) : Prop where
  lands : Faulty.fault ev.inp = false → Finds uuid target ev.pre ev.name → Changes (uuid, user) ev
  same : ¬(Faulty.fault ev.inp = false ∧ Finds uuid target ev.pre ev.name) →
    ev.post.items = ev.pre.items
  only : ∀ k, Changes k ev → k = (uuid, user)
  item : ∀ uuid' ∈ itemOf ev.name, uuid' = uuid

section Telling

variable {target : ℤ} {q : Upsert B} {rely : Stmt → Db B → Db B → Prop} {isUuid : IsUuid}

lemma telling_same {l : Stmt} {e : Env} {s : Db B}
    (h : ¬(Faulty.fault e = false ∧ Finds uuid target s l))
    (hl : ∀ uuid' ∈ itemOf l, uuid' = uuid) :
    Telling uuid user target ⟨l, e, s, s⟩ :=
  ⟨fun hf hfinds => absurd ⟨hf, hfinds⟩ h, fun _ => rfl, fun _ hk => absurd rfl hk, hl⟩

/-- A statement that is no write of an item. -/
lemma telling_select {l : Stmt} {g : Db B → α} (h : ∀ db : Db B, ¬Finds uuid target db l)
    (hl : ∀ uuid' ∈ itemOf l, uuid' = uuid) :
    Guarantees rely (Telling uuid user target) (select l g : Repo B α).run := by
  have hsame : ∀ e s, Telling uuid user target ⟨l, e, s, s⟩ := fun e s =>
    telling_same (fun hf => h s hf.2) hl
  exact guarantees_statement hsame hsame

lemma telling_updateItem :
    Guarantees rely (Telling q.uuid q.userId q.targetVersion) (updateItem q).run := by
  have hitem : ∀ uuid ∈ itemOf (.updateItem q.uuid q.userId q.encKeyGen), uuid = q.uuid := by
    simp [itemOf]
  refine guarantees_statement_cases (fun e s hf => telling_same (by simp [hf]) hitem)
    fun e s hf => ?_
  have honly : ∀ k, (s.items.update q.hits (q.set (nextSeq s q.userId)) (q.set_key _)).get k ≠
      s.items.get k → k = q.key := by
    intro k hk
    by_contra hne
    refine hk ?_
    rw [Table.get_update]
    cases hr : s.items.get k with
    | none => rfl
    | some row =>
      have hit : q.hits row = false := Bool.eq_false_iff.mpr fun hit =>
        hne ((Table.get_key hr).symm.trans (hits_iff.mp hit).1)
      simp [hit]
  cases hr : s.items.get q.key with
  | none =>
    have hz : s.items.rows.countP q.hits = 0 := by simp [countP_hits, hr]
    refine ⟨fun _ h => ?_, fun _ => Table.update_eq_self (q.set_key _) hz, honly, hitem⟩
    have := h.2
    rw [show (q.uuid, q.userId) = q.key from rfl, hr] at this
    cases this
  | some row =>
    by_cases hit : q.hits row
    · refine ⟨fun _ _ heq => ?_, fun h => ?_, honly, hitem⟩
      · have hget := Table.get_update s.items q.hits (q.set (nextSeq s q.userId)) (q.set_key _)
          q.key
        rw [show (q.uuid, q.userId) = q.key from rfl] at heq
        rw [heq, hr, Option.map_some, if_pos hit, Option.some.injEq] at hget
        have hversion : row.version = row.version + 1 := congrArg ItemRow.version hget
        omega
      · refine absurd ⟨hf, rfl, ?_⟩ h
        rw [show (q.uuid, q.userId) = q.key from rfl, hr, Option.map_some, (hits_iff.mp hit).2]
    · have hz : s.items.rows.countP q.hits = 0 := by simp [countP_hits, hr, hit]
      refine ⟨fun _ h => ?_, fun _ => Table.update_eq_self (q.set_key _) hz, honly, hitem⟩
      have hv := h.2
      rw [show (q.uuid, q.userId) = q.key from rfl, hr, Option.map_some] at hv
      exact absurd (hits_iff.mpr ⟨Table.get_key hr, Option.some.inj hv⟩) hit

lemma telling_insertItem :
    Guarantees rely (Telling q.uuid q.userId q.targetVersion) (insertItem q).run := by
  have hitem : ∀ uuid ∈ itemOf (.insertItem q.uuid q.userId q.encKeyGen), uuid = q.uuid := by
    simp [itemOf]
  refine guarantees_statement_cases (fun e s hf => telling_same (by simp [hf]) hitem)
    fun e s hf => ?_
  cases hi : s.items.insert (q.row 1 (nextSeq s q.userId)) with
  | none =>
    have hsome : (s.items.get q.key).isSome := Table.insert_eq_none_iff.mp hi
    refine telling_same (fun h => ?_) hitem
    rw [show s.items.get q.key = none from h.2.2.1] at hsome
    cases hsome
  | some items =>
    obtain ⟨hnone, hrows⟩ := Table.insert_eq_some hi
    cases hu : s.users.get q.userId with
    | none =>
      refine telling_same (fun h => ?_) hitem
      have := h.2.2.2
      rw [hu] at this
      cases this
    | some u =>
      refine ⟨fun _ _ heq => ?_, fun h => absurd ⟨hf, rfl, hnone, by rw [hu]; rfl⟩ h,
        fun k hk => by_contra fun hne => hk ?_, hitem⟩
      rotate_left
      · exact (Table.get_insert hi k).trans (if_neg fun h => hne h.symm)
      have hget := Table.get_insert hi q.key
      rw [if_pos (show (q.row 1 (nextSeq s q.userId)).key = q.key from rfl),
        show items.get q.key = s.items.get q.key from heq,
        show s.items.get q.key = none from hnone] at hget
      cases hget

lemma telling_upsertItemOcc :
    Guarantees rely (Telling q.uuid q.userId q.targetVersion) (upsertItemOcc isUuid q).run :=
  guarantees_upsertItemOcc_of_parts (telling_select (fun _ => id) (by simp [itemOf]))
    (telling_select (fun _ => id) (by simp [itemOf])) telling_updateItem fun _ => telling_insertItem

end Telling

/-! ### When a push is answered -/

section Answered

variable {q : Upsert B} {isUuid : IsUuid} {target : ℤ} {item : PushItem B}
  {items : List (PushItem B)} {now : ℤ}

/-- Nothing fails. -/
def Faultless (tr : List (DbEv B)) : Prop := Every (fun ev => Faulty.fault ev.inp = false) tr

lemma seen_append (tr tr' : List (DbEv B)) : seen (tr ++ tr') = seen tr ++ seen tr' :=
  List.map_append

lemma runs_statement_of_faultless {l : Stmt} {g : Env → Db B → Db B × Except SqlError α}
    {r : Except SqlError α} (h : Runs (statement l g).run tr r) (hok : Faultless tr) :
    ∃ e s, tr = [⟨l, e, s, (g e s).1⟩] ∧ r = (g e s).2 := by
  obtain ⟨e, s, ⟨hf, rfl, -⟩ | ⟨-, htr, hr⟩⟩ := runs_statement.mp h
  · have : Faulty.fault e = false := hok ⟨l, e, s, s⟩ (List.mem_singleton_self _)
    rw [this] at hf
    cases hf
  · exact ⟨e, s, htr, hr⟩

/-- A statement that does not fail, and what comes after it. -/
lemma runs_statement_bind {l : Stmt} {g : Env → Db B → Db B × Except SqlError α}
    {f : α → Repo B β} {r : Except SqlError β} {a : Env → Db B → α}
    (hret : ∀ e s, (g e s).2 = .ok (a e s)) (h : Runs (statement l g >>= f : Repo B β).run tr r)
    (hok : Faultless tr) :
    ∃ e s tr', tr = ⟨l, e, s, (g e s).1⟩ :: tr' ∧ Faultless tr' ∧
      Runs (f (a e s)).run tr' r := by
  rcases runs_bind_except.mp h with ⟨b, tr₁, tr₂, rfl, h₁, h₂⟩ | ⟨err, h₁, -⟩
  · obtain ⟨hok₁, hok₂⟩ := List.forall_mem_append.mp hok
    obtain ⟨e, s, rfl, hr⟩ := runs_statement_of_faultless h₁ hok₁
    obtain rfl : b = a e s := Except.ok.inj (hr.trans (hret e s))
    exact ⟨e, s, tr₂, rfl, hok₂, h₂⟩
  · obtain ⟨e, s, -, hr⟩ := runs_statement_of_faultless h₁ hok
    rw [hret e s] at hr
    cases hr

/-- A read of a handler, and what comes after it. -/
lemma runs_select_bind {l : Stmt} {g : Db B → α} {f : α → ServerHandler B β}
    {r : Except ApiError β} (h : Runs (orInternal (select l g) >>= f : ServerHandler B β).run tr r)
    (hok : Faultless tr) :
    ∃ e s tr', tr = ⟨l, e, s, s⟩ :: tr' ∧ Faultless tr' ∧ Runs (f (g s)).run tr' r := by
  rcases runs_bind_except.mp h with ⟨b, tr₁, tr₂, rfl, h₁, h₂⟩ | ⟨err, h₁, -⟩
  · obtain ⟨hok₁, hok₂⟩ := List.forall_mem_append.mp hok
    obtain ⟨e, s, rfl, hr⟩ := runs_statement_of_faultless (runs_orInternal_ok h₁) hok₁
    obtain rfl : b = g s := Except.ok.inj hr
    exact ⟨e, s, tr₂, rfl, hok₂, h₂⟩
  · obtain ⟨_, hr, hget⟩ := runs_orInternal.mp h₁
    obtain ⟨_, _, -, rfl⟩ := runs_statement_of_faultless hget hok
    cases hr

/-- An insert with which nothing fails is refused for the foreign key if no row is in its way and
the user is not there. -/
lemma runs_insertItem_of_faultless {r : Except SqlError Unit}
    (h : Runs (insertItem q).run tr r) (hok : Faultless tr) :
    ∃ e s s', tr = [⟨.insertItem q.uuid q.userId q.encKeyGen, e, s, s'⟩] ∧
      (r = .error .foreignKey ∧ s.items.get q.key = none ∧ s.users.get q.userId = none ∨
        (r = .ok () ∨ r = .error .unique) ∧
          ¬(s.items.get q.key = none ∧ s.users.get q.userId = none)) := by
  obtain ⟨e, s, rfl, rfl⟩ := runs_statement_of_faultless h hok
  refine ⟨e, s, _, rfl, ?_⟩
  cases hi : s.items.insert (q.row 1 (nextSeq s q.userId)) with
  | none =>
    have hsome : (s.items.get q.key).isSome := Table.insert_eq_none_iff.mp hi
    refine .inr ⟨.inr rfl, fun h => ?_⟩
    rw [h.1] at hsome
    cases hsome
  | some items =>
    have hnone : s.items.get q.key = none := (Table.insert_eq_some hi).1
    cases hu : s.users.get q.userId with
    | none => exact .inl ⟨by simp, hnone, rfl⟩
    | some u => exact .inr ⟨.inl (by simp), by simp⟩

/-- An upsert with which nothing fails ends with an error exactly if it inserts a row for a user
who is not there. -/
lemma upsert_fails_iff {r : Except SqlError UpsertOutcome} (hid : isUuid q.uuid = true)
    (h : Runs (upsertItemOcc isUuid q).run tr r) (hok : Faultless tr) :
    (∃ e, r = .error e) ↔ ∃ s ∈ seen tr, Orphans q.uuid s.1 s.2 := by
  unfold upsertItemOcc at h
  simp only [hid, Bool.not_true, Bool.false_eq_true, if_false] at h
  obtain ⟨e₁, s₁, tr₁, rfl, hok, h⟩ := runs_statement_bind (fun _ _ => rfl) h hok
  split at h
  -- the generation is behind
  · obtain ⟨rfl, rfl⟩ := h
    simp [seen, Orphans]
  obtain ⟨e₃, s₃, tr₃, rfl, hok, h⟩ := runs_statement_bind (fun _ _ => rfl) h hok
  obtain ⟨e₅, s₅, tr₅, rfl, hok, h⟩ := runs_statement_bind (fun _ _ => rfl) h hok
  split at h
  -- the row was updated
  · obtain ⟨rfl, rfl⟩ := h
    simp [seen, Orphans]
  split at h
  rotate_left
  -- the row stands in the way
  · obtain ⟨rfl, rfl⟩ := h
    simp [seen, Orphans]
  -- the row is inserted, if none is there and the user is
  rcases runs_bind_except.mp h with ⟨o, tr₇, tr₈, rfl, h₇, h₈⟩ | ⟨e, h₇, -⟩
  rotate_left
  · obtain ⟨_, hr, -⟩ := runs_attempt.mp h₇
    cases hr
  obtain ⟨o, hr, hins⟩ := runs_attempt.mp h₇
  cases hr
  obtain ⟨e₇, s₇, s₇', rfl, ⟨rfl, horphan⟩ | ⟨rfl | rfl, hnot⟩⟩ :=
    runs_insertItem_of_faultless hins (List.forall_mem_append.mp hok).1
  · obtain ⟨rfl, rfl⟩ := h₈
    exact iff_of_true ⟨_, rfl⟩ (by simpa [seen, Orphans, Upsert.key] using horphan)
  all_goals
    obtain ⟨rfl, rfl⟩ := h₈
    exact iff_of_false (by simp) (by simpa [seen, Orphans, Upsert.key] using hnot)

/-- An upsert with which nothing fails is applied exactly if a write of it finds what it looks
for. -/
lemma applied_iff_lands [Nonempty (Db B)] {o : UpsertOutcome}
    (h : Runs (upsertItemOcc isUuid q).run tr (.ok o)) (hok : Faultless tr) :
    isApplied (.ok o) = true ↔ Lands q.uuid q.targetVersion (seen tr) := by
  have htelling := h.every telling_upsertItemOcc
  have hwrote := runs_upsertItemOcc h
  constructor
  · intro happ
    rw [if_pos happ] at hwrote
    obtain ⟨tr₁, ev, tr₂, rfl, -, hev, -⟩ := hwrote
    have hmem : ev ∈ tr₁ ++ ev :: tr₂ := List.mem_append_right _ List.mem_cons_self
    refine ⟨_, List.mem_map_of_mem hmem, by_contra fun hfinds => changes_writes hev ?_⟩
    rw [(htelling ev hmem).same fun hf => hfinds hf.2]
  · rintro ⟨s, hs, hfinds⟩
    obtain ⟨ev, hev, rfl⟩ := List.mem_map.mp hs
    by_contra happ
    rw [if_neg happ] at hwrote
    exact not_changes_quiet hwrote ev hev ((htelling ev hev).lands (hok ev hev) hfinds)

lemma finds_item {db : Db B} {l : Stmt} (h : Finds uuid target db l) : itemOf l = some uuid := by
  cases l <;> simp_all [Finds, itemOf]

lemma orphans_item {db : Db B} {l : Stmt} (h : Orphans uuid db l) : itemOf l = some uuid := by
  cases l <;> simp_all [Orphans, itemOf]

lemma misses_item {db : Db B} {l : Stmt} (h : Misses uuid db l) : itemOf l = some uuid := by
  cases l <;> simp_all [Misses, itemOf]

/-- What concerns other items does not count. -/
lemma stuck_filter {found : List (Db B × Stmt)} : Stuck uuid target found ↔
    Stuck uuid target (found.filter fun s => itemOf s.2 = some uuid) := by
  have hdrop : ∀ P : Db B → Stmt → Prop, (∀ {db l}, P db l → itemOf l = some uuid) →
      ((∃ s ∈ found.filter fun s => itemOf s.2 = some uuid, P s.1 s.2) ↔
        ∃ s ∈ found, P s.1 s.2) := by
    intro P hP
    refine exists_congr fun s => ⟨fun ⟨hs, hPs⟩ => ⟨List.mem_of_mem_filter hs, hPs⟩, ?_⟩
    exact fun ⟨hs, hPs⟩ => ⟨List.mem_filter.mpr ⟨hs, by simpa using hP hPs⟩, hPs⟩
  unfold Stuck Lands
  rw [hdrop (Orphans uuid) orphans_item, hdrop (Finds uuid target) finds_item,
    hdrop (Misses uuid) misses_item]

lemma stuck_append_left {found found' : List (Db B × Stmt)}
    (h : ∀ s ∈ found', itemOf s.2 ≠ some uuid) :
    Stuck uuid target (found ++ found') ↔ Stuck uuid target found := by
  have hnil : found'.filter (fun s => itemOf s.2 = some uuid) = [] := by simpa using h
  rw [stuck_filter, List.filter_append, hnil, List.append_nil, ← stuck_filter]

lemma stuck_append_right {found found' : List (Db B × Stmt)}
    (h : ∀ s ∈ found, itemOf s.2 ≠ some uuid) :
    Stuck uuid target (found ++ found') ↔ Stuck uuid target found' := by
  have hnil : found.filter (fun s => itemOf s.2 = some uuid) = [] := by simpa using h
  rw [stuck_filter, List.filter_append, hnil, List.nil_append, ← stuck_filter]

lemma lands_append_right {found found' : List (Db B × Stmt)}
    (h : ∀ s ∈ found, itemOf s.2 ≠ some uuid) :
    Lands uuid target (found ++ found') ↔ Lands uuid target found' := by
  constructor
  · rintro ⟨s, hs, hfinds⟩
    rcases List.mem_append.mp hs with hs | hs
    · exact absurd (finds_item hfinds) (h s hs)
    · exact ⟨s, hs, hfinds⟩
  · rintro ⟨s, hs, hfinds⟩
    exact ⟨s, List.mem_append_right _ hs, hfinds⟩

/-- The statements of an upsert do not read the row back. -/
lemma upsert_reads [Nonempty (Db B)] {r : Except SqlError UpsertOutcome}
    (h : Runs (upsertItemOcc isUuid q).run tr r) : ¬∃ s ∈ seen tr, Misses q.uuid s.1 s.2 := by
  have hnot : Every (fun ev : DbEv B => ¬Misses q.uuid ev.pre ev.name) tr :=
    h.every (guarantees_upsertItemOcc_of_parts (guarantees_statement (fun _ _ => id) fun _ _ => id)
      (guarantees_statement (fun _ _ => id) fun _ _ => id)
      (guarantees_statement (fun _ _ => id) fun _ _ => id) fun _ =>
      guarantees_statement (fun _ _ => id) fun _ _ => id)
  rintro ⟨s, hs, hmiss⟩
  obtain ⟨ev, hev, rfl⟩ := List.mem_map.mp hs
  exact hnot ev hev hmiss

/-- A row that was written cannot be reported if it is gone. -/
lemma pushedRow_fails_iff {r : Except ApiError PushResult}
    (h : Runs (pushedRow user item).run tr r) (hok : Faultless tr) :
    ∃ b, seen tr = [(b, .getItem item.uuid user)] ∧
      ((∃ e, r = .error e) ↔ b.items.get (item.uuid, user) = none) := by
  obtain ⟨e, s, tr', rfl, -, h⟩ := runs_select_bind h hok
  refine ⟨s, ?_, ?_⟩
  · cases hrow : s.items.get (item.uuid, user) <;> rw [hrow] at h <;> rw [h.1] <;> rfl
  · cases hrow : s.items.get (item.uuid, user) <;> rw [hrow] at h <;> simp [h.2]

/-- An item whose row is written and read back is stuck exactly if the row is gone. -/
lemma stuck_readBack {found : List (Db B × Stmt)} {b : Db B}
    (horphan : ¬∃ s ∈ found, Orphans uuid s.1 s.2) (hreads : ¬∃ s ∈ found, Misses uuid s.1 s.2)
    (hlands : Lands uuid target found) :
    Stuck uuid target (found ++ [(b, .getItem uuid user)]) ↔ b.items.get (uuid, user) = none := by
  constructor
  · rintro (⟨s, hs, h⟩ | ⟨-, s, hs, h⟩) <;> rcases List.mem_append.mp hs with hs | hs
    · exact absurd ⟨s, hs, h⟩ horphan
    · rw [List.mem_singleton.mp hs] at h
      cases h
    · exact absurd ⟨s, hs, h⟩ hreads
    · rw [List.mem_singleton.mp hs] at h
      exact h.2
  · intro hnone
    obtain ⟨s, hs, hfinds⟩ := hlands
    exact .inr ⟨⟨s, List.mem_append_left _ hs, hfinds⟩, _, List.mem_append_right _
      (List.mem_singleton_self _), rfl, hnone⟩

/-- An item for which no statement wants to insert and none writes is not stuck. -/
lemma not_stuck {found : List (Db B × Stmt)} (horphan : ¬∃ s ∈ found, Orphans uuid s.1 s.2)
    (hlands : ¬Lands uuid target found) : ¬Stuck uuid target found := by
  rintro (h | h)
  · exact horphan h
  · exact hlands h.1

/-- The answer to an item that nothing keeps from being decoded is an error exactly if the item is
stuck. -/
lemma pushItem_fails_iff [Nonempty (Db B)] {r : Except ApiError PushResult}
    (hid : X.isUuid item.uuid = true) (hp : item.payload ≠ some none)
    (h : Runs (pushItem X user now item).run tr r) (hok : Faultless tr) :
    (∃ e, r = .error e) ↔ Stuck item.uuid (asI64 item.targetVersion) (seen tr) := by
  unfold pushItem at h
  obtain ⟨e₁, s₁, tr₁, rfl, hok, h⟩ := runs_select_bind h hok
  rw [← List.singleton_append, seen_append, stuck_append_right (by simp [seen, itemOf])]
  dsimp only at h
  split at h
  -- the generation is behind
  · obtain ⟨rfl, rfl⟩ := h
    exact iff_of_false (by simp) (not_stuck (by simp [seen]) (by simp [seen, Lands]))
  rcases runs_bind_except.mp h with ⟨p, tr₃, tr₄, rfl, h₃, h₄⟩ | ⟨e, h₃, -⟩
  rotate_left
  · rcases hpay : item.payload with _ | _ | b <;> rw [hpay] at h₃ <;>
      first | exact absurd hpay hp | cases h₃.2
  obtain ⟨rfl, -⟩ := runs_decodePayload h₃
  rw [List.nil_append] at hok ⊢
  rcases runs_bind_except.mp h₄ with ⟨o, tr₅, tr₆, rfl, h₅, h₆⟩ | ⟨e, h₅, rfl⟩
  rotate_left
  -- the upsert fails
  · obtain ⟨r', hr, hup⟩ := runs_orInternal.mp h₅
    refine iff_of_true ⟨e, rfl⟩ (.inl ((upsert_fails_iff hid hup hok).mp ?_))
    cases r' with
    | error e => exact ⟨e, rfl⟩
    | ok o => cases hr
  obtain ⟨hok₅, hok₆⟩ := List.forall_mem_append.mp hok
  have hup := runs_orInternal_ok h₅
  have horphan : ¬∃ s ∈ seen tr₅, Orphans item.uuid s.1 s.2 :=
    mt (upsert_fails_iff hid hup hok₅).mpr (by simp)
  have happ : isApplied (.ok o) = true ↔
      Lands item.uuid (asI64 item.targetVersion) (seen tr₅) := applied_iff_lands hup hok₅
  rw [seen_append]
  have hwritten : isApplied (.ok o) = true → Runs (pushedRow user item).run tr₆ r →
      ((∃ e, r = .error e) ↔ Stuck item.uuid (asI64 item.targetVersion)
        (seen tr₅ ++ seen tr₆)) := by
    intro hq hrow
    obtain ⟨b, hb, hfails⟩ := pushedRow_fails_iff hrow hok₆
    rw [hfails, hb]
    exact (stuck_readBack horphan (upsert_reads hup) (happ.mp hq)).symm
  cases o with
  -- the row is written, and read back
  | updated => exact hwritten rfl h₆
  | recovered => exact hwritten rfl h₆
  -- nothing is written
  | conflict =>
    have hlands := mt happ.mpr (by simp [isApplied])
    obtain ⟨e, b, tr', rfl, -, rfl, rfl⟩ := runs_select_bind h₆ hok₆
    refine iff_of_false (by simp) (not_stuck ?_ ?_)
    · simpa [seen, Orphans, or_imp, forall_and] using horphan
    · simpa [seen, Lands, Finds, or_imp, forall_and] using hlands
  | epochTooOld =>
    have hlands := mt happ.mpr (by simp [isApplied])
    obtain ⟨rfl, rfl⟩ := h₆
    rw [show seen ([] : List (DbEv B)) = [] from rfl, List.append_nil]
    exact iff_of_false (by simp) (not_stuck horphan hlands)

/-- The statements of an answer to one item. -/
lemma telling_pushItem : Guarantees (fun _ _ _ => True)
    (fun ev : DbEv B => Telling item.uuid user (asI64 item.targetVersion) ev)
    (pushItem X user now item).run := by
  have hrow : Guarantees (fun _ _ _ => True)
      (fun ev : DbEv B => Telling item.uuid user (asI64 item.targetVersion) ev)
      (pushedRow user item).run := by
    refine guarantees_bind_except (guarantees_orInternal
      (telling_select (fun _ => id) (by simp [itemOf]))) fun row => ?_
    cases row <;> exact guarantees_ret _
  refine guarantees_bind_except (guarantees_orInternal
    (telling_select (fun _ => id) (by simp [itemOf]))) fun gen => ?_
  dsimp only
  split
  · exact guarantees_pure_except _
  refine guarantees_bind_except ?_ fun p => guarantees_bind_except (guarantees_orInternal
    (telling_upsertItemOcc (q := item.upsert user now p))) fun o => ?_
  · rcases item.payload with _ | _ | b <;> exact guarantees_ret _
  cases o with
  | conflict =>
    exact guarantees_bind_except (guarantees_orInternal
      (telling_select (fun _ => id) (by simp [itemOf]))) fun _ => guarantees_pure_except _
  | epochTooOld => exact guarantees_pure_except _
  | _ => exact hrow

lemma item_of_pushItem [Nonempty (Db B)] {r : Except ApiError PushResult}
    (h : Runs (pushItem X user now item).run tr r) :
    ∀ s ∈ seen tr, ∀ uuid ∈ itemOf s.2, uuid = item.uuid := by
  intro s hs
  obtain ⟨ev, hev, rfl⟩ := List.mem_map.mp hs
  exact (h.every telling_pushItem ev hev).item

/-- **A push of different items**, with which nothing fails, is answered exactly if none of them is
stuck. -/
lemma pushItems_answered_iff [Nonempty (Db B)] {r : Except ApiError (List PushResult)}
    (hnodup : (items.map (·.uuid)).Nodup)
    (hgood : ∀ item ∈ items, X.isUuid item.uuid = true ∧ item.payload ≠ some none)
    (h : Runs (pushItems X user now items).run tr r) (hok : Faultless tr) :
    ((∃ rs, r = .ok rs) ↔ ∀ item ∈ items,
      ¬Stuck item.uuid (asI64 item.targetVersion) (seen tr)) ∧
    ∀ s ∈ seen tr, ∀ uuid ∈ itemOf s.2, uuid ∈ items.map (·.uuid) := by
  induction items generalizing tr r with
  | nil =>
    obtain ⟨rfl, rfl⟩ := h
    exact ⟨by simp, by simp [seen]⟩
  | cons item items ih =>
    rw [List.map_cons, List.nodup_cons] at hnodup
    obtain ⟨⟨hid, hp⟩, hgood⟩ := List.forall_mem_cons.mp hgood
    rcases runs_bind_except.mp h with ⟨res, tr₁, tr₂, rfl, h₁, h₂⟩ | ⟨e, h₁, rfl⟩
    rotate_left
    -- the item fails, and ends the push
    · have hstuck := (pushItem_fails_iff hid hp h₁ hok).mp ⟨e, rfl⟩
      refine ⟨iff_of_false (by simp) fun hall => hall item List.mem_cons_self hstuck, ?_⟩
      intro s hs uuid huuid
      rw [item_of_pushItem h₁ s hs uuid huuid]
      exact List.mem_cons_self
    -- it does not fail, and the rest is pushed
    obtain ⟨hok₁, hok₂⟩ := List.forall_mem_append.mp hok
    have hnot := mt (pushItem_fails_iff hid hp h₁ hok₁).mpr (by simp)
    have hitem := item_of_pushItem h₁
    obtain ⟨tr₃, rest, hrest, hr⟩ : ∃ tr₃ rest, Runs (pushItems X user now items).run tr₃ rest ∧
        tr₂ = tr₃ ∧ ((∃ rs, r = .ok rs) ↔ ∃ rs, rest = .ok rs) := by
      rcases runs_bind_except.mp h₂ with ⟨rs, tr₃, tr₄, rfl, h₃, rfl, rfl⟩ | ⟨e, h₃, rfl⟩
      · exact ⟨tr₃, _, h₃, List.append_nil _, by simp⟩
      · exact ⟨tr₂, _, h₃, rfl, by simp⟩
    obtain ⟨rfl, hr⟩ := hr
    obtain ⟨hiff, hitems⟩ := ih hnodup.2 hgood hrest hok₂
    rw [seen_append]
    refine ⟨?_, fun s hs uuid huuid => ?_⟩
    · rw [hr, hiff, List.forall_mem_cons, and_iff_right]
      · -- no statement of it is about another item
        refine forall₂_congr fun item' hitem' => not_congr (stuck_append_right ?_).symm
        intro s hs heq
        refine hnodup.1 ?_
        rw [← hitem s hs _ heq]
        exact List.mem_map_of_mem hitem'
      · rwa [stuck_append_left fun s hs heq => hnodup.1 (hitems s hs _ heq)]
    · rcases List.mem_append.mp hs with hs | hs
      · rw [hitem s hs uuid huuid]
        exact List.mem_cons_self
      · exact List.mem_cons_of_mem _ (hitems s hs uuid huuid)

/-- Each statement of a push is one for an item of it. -/
lemma telling_pushItems : Guarantees (fun _ _ _ => True) (fun ev : DbEv B => ∃ item ∈ items,
    Telling item.uuid user (asI64 item.targetVersion) ev) (pushItems X user now items).run := by
  induction items with
  | nil => exact guarantees_pure_except _
  | cons item items ih =>
    refine guarantees_bind_except (guarantees_mono (fun ev hev => ?_) telling_pushItem) fun res =>
      guarantees_bind_except (guarantees_mono (fun ev hev => ?_) ih) fun _ =>
        guarantees_pure_except _
    · exact ⟨item, List.mem_cons_self, hev⟩
    · obtain ⟨item', hitem', htell⟩ := hev
      exact ⟨item', List.mem_cons_of_mem _ hitem', htell⟩

/-- The row of an item is written exactly if a write of the item finds what it looks for. -/
lemma changes_iff_lands [Nonempty (Db B)] {r : Except ApiError (List PushResult)}
    (hnodup : (items.map (·.uuid)).Nodup) (h : Runs (pushItems X user now items).run tr r)
    (hok : Faultless tr) (hitem : item ∈ items) :
    (∃ ev ∈ tr, ∃ user', Changes (item.uuid, user') ev) ↔
      Lands item.uuid (asI64 item.targetVersion) (seen tr) := by
  have htelling := h.every telling_pushItems
  have hsame : ∀ {item'}, item' ∈ items → item'.uuid = item.uuid → item' = item :=
    fun h' heq => List.inj_on_of_nodup_map hnodup h' hitem heq
  constructor
  · rintro ⟨ev, hev, user', hchange⟩
    obtain ⟨item', hitem', htell⟩ := htelling ev hev
    obtain rfl := hsame hitem' (congrArg Prod.fst (htell.only _ hchange)).symm
    refine ⟨_, List.mem_map_of_mem hev, by_contra fun hfinds => hchange ?_⟩
    rw [htell.same fun hf => hfinds hf.2]
  · rintro ⟨s, hs, hfinds⟩
    obtain ⟨ev, hev, rfl⟩ := List.mem_map.mp hs
    obtain ⟨item', hitem', htell⟩ := htelling ev hev
    obtain rfl := hsame hitem' (htell.item _ (finds_item hfinds)).symm
    exact ⟨ev, hev, user, htell.lands (hok ev hev) hfinds⟩

end Answered

/-! ### The request -/

lemma length_le_of_runs {req : PushBatchReq B} {rs : List PushResult}
    (h : Runs (syncPushBatch X req).run tr (.ok rs)) : req.items.length ≤ 100 := by
  unfold syncPushBatch at h
  split at h
  · cases h.2
  · next hle => exact not_lt.mp hle

/-- **A push** reads the clock and takes one item after the other. -/
lemma runs_syncPushBatch_of_le {req : PushBatchReq B} {r : Except ApiError (List PushResult)}
    (hle : req.items.length ≤ 100) (h : Runs (syncPushBatch X req).run tr r) :
    ∃ now ev tr', tr = ev :: tr' ∧ ev.post = ev.pre ∧ itemOf ev.name = none ∧
      Runs (pushItems X req.userId now req.items).run tr' r := by
  unfold syncPushBatch at h
  rw [if_neg (not_lt.mpr hle)] at h
  rcases runs_bind_except.mp h with ⟨now, tr₁, tr₂, rfl, h₁, h₂⟩ | ⟨e, h₁, -⟩
  · obtain ⟨e, s, rfl, -⟩ := runs_atom.mp h₁
    exact ⟨now, _, tr₂, rfl, rfl, rfl, h₂⟩
  · obtain ⟨_, _, -, hr⟩ := runs_atom.mp h₁
    cases hr

lemma runs_syncPushBatch [Nonempty (Db B)] {req : PushBatchReq B} {rs : List PushResult}
    (h : Runs (syncPushBatch X req).run tr (.ok rs)) :
    ∃ now ev tr', tr = ev :: tr' ∧ ev.post = ev.pre ∧
      PushedAll req.userId now req.items tr' rs := by
  obtain ⟨now, ev, tr', htr, hev, -, hrun⟩ := runs_syncPushBatch_of_le (length_le_of_runs h) h
  exact ⟨now, ev, tr', htr, hev, runs_pushItems hrun⟩

end Vautr.PushRuns
