import Vautr.Effects
import Vautr.Interleave
import Vautr.RotationAgreement

/-!
Pending tombstones and live items.

A client that deletes an item remembers a tombstone until a push has delivered it. The
tombstone of an item should be pending only while the item is deleted: a push delivers
whatever is pending, and the next sync then deletes the item here as well.
-/

namespace Vautr.Tombstones

open Vautr.Atomic Vautr.Interleave Vautr.Sql Vautr.Server Vautr.Handlers Vautr.ClientDb
  Vautr.Crypto Vautr.Client Vautr.Orchestrator Vautr.Effects

/-- A tombstone is pending only for items that are not there. -/
def OnlyDeleted (db : LocalDb Blob) : Prop :=
  ∀ p ∈ db.pendingDeletes.rows, db.overviews.get p.uuid = none

instance (db : LocalDb Blob) : Decidable (OnlyDeleted db) :=
  inferInstanceAs (Decidable (∀ p ∈ _, _))

/-- No tombstone is pending for the item. -/
def Free (db : LocalDb Blob) (uuid : Ident) : Prop := db.pendingDeletes.get uuid = none

instance (db : LocalDb Blob) (uuid : Ident) : Decidable (Free db uuid) :=
  decidable_of_iff ((db.pendingDeletes.get uuid).isNone = true) Option.isNone_iff_eq_none

/-- The statement brings no item back whose tombstone is pending. -/
def NoRevival (db : LocalDb Blob) : Label → Prop
  | .saveItem uuid => Free db uuid
  | .persistPage upserts => ∀ uuid ∈ upserts, Free db uuid
  | _ => True

instance (db : LocalDb Blob) (l : Label) : Decidable (NoRevival db l) := by
  apply Label.casesOn (motive := fun l => Decidable (NoRevival db l)) l <;> intros <;>
    (unfold NoRevival; infer_instance)

variable {db db' : LocalDb Blob} {l : Label}

lemma onlyDeleted_iff : OnlyDeleted db ↔
    ∀ uuid, (db.overviews.get uuid).isSome → Free db uuid := by
  constructor
  · intro h uuid hlive
    cases hp : db.pendingDeletes.get uuid with
    | none => exact hp
    | some p =>
      obtain ⟨hmem, rfl⟩ := Table.get_eq_some_iff.mp hp
      simp [h p hmem] at hlive
  · intro h p hp
    by_contra hne
    have := h p.uuid (Option.isSome_iff_ne_none.mpr hne)
    rw [Free, Table.get_of_mem hp] at this
    cases this

/-- Storing a page adds the items of the page, and no others. -/
lemma isSome_of_foldl_upsert {os : List OverviewRow} {t : Table OverviewRow.uuid} {uuid : Ident}
    (h : ((os.foldl (fun t o => t.upsert o o.synced o.synced_uuid) t).get uuid).isSome) :
    uuid ∈ os.map (·.uuid) ∨ (t.get uuid).isSome := by
  induction os generalizing t with
  | nil => exact .inr h
  | cons o rest ih =>
    rcases ih h with hmem | hsome
    · exact .inl (List.mem_cons_of_mem _ hmem)
    · rw [Table.get_upsert] at hsome
      split at hsome
      · next heq => exact .inl (by simp [heq])
      · exact .inr hsome

lemma isSome_of_page {us : List (PulledOverview × Blob)} {deletes : List Ident} {cursor minGen : ℤ}
    (h : applySyncBatchTxn (us.map fun u => PulledOverview.row u.1)
      (us.map fun u => ⟨u.1.uuid, u.2⟩) deletes cursor minGen db = some db') {uuid : Ident}
    (hlive : (db'.overviews.get uuid).isSome) :
    uuid ∈ us.map (·.1.uuid) ∨ (db.overviews.get uuid).isSome := by
  unfold applySyncBatchTxn at h
  split at h
  · obtain rfl := Option.some.inj h
    rcases isSome_of_foldl_upsert hlive with hmem | hsome
    · exact .inl (by simpa [PulledOverview.row, Function.comp_def] using hmem)
    · rw [Table.get_delete] at hsome
      exact .inr (Option.isSome_of_isSome_filter _ _ hsome)
  · cases h

lemma pendingDeletes_of_page {os : List OverviewRow} {ps : List (PayloadRow Blob)}
    {deletes : List Ident} {cursor minGen : ℤ}
    (h : applySyncBatchTxn os ps deletes cursor minGen db = some db') :
    db'.pendingDeletes = db.pendingDeletes := by
  unfold applySyncBatchTxn at h
  split at h
  · rw [← Option.some.inj h]
  · cases h

/-- Deleting an item records its tombstone, and leaves the tombstones of the others. -/
lemma free_deleteItemTxn {uuid v : Ident} (hne : v ≠ uuid) (h : Free db v) :
    Free (deleteItemTxn uuid db) v := by
  unfold deleteItemTxn
  split
  · simpa [Free, recordPendingDeleteTxn, hne.symm] using h
  · exact h

/-- **One statement** that brings no item back. -/
lemma DbStep.onlyDeleted (h : DbStep l db db') (hC : NoRevival db l) (hdb : OnlyDeleted db) :
    OnlyDeleted db' := by
  rw [onlyDeleted_iff] at hdb ⊢
  intro v hv
  cases h with
  | same => exact hdb v hv
  | save o p =>
    change (((db.overviews.upsert o _ _).get v)).isSome at hv
    rw [Table.get_upsert] at hv
    split at hv
    · next heq => exact heq ▸ hC
    · exact hdb v hv
  | delete uuid =>
    have hv' : ((db.overviews.delete (·.uuid = uuid)).get v).isSome := by
      unfold deleteItemTxn at hv
      split at hv <;> exact hv
    rw [Table.get_delete] at hv'
    obtain ⟨o, ho⟩ := Option.isSome_iff_exists.mp hv'
    obtain ⟨hget, hne⟩ := Option.filter_eq_some_iff.mp ho
    have huuid : o.uuid = v := Table.get_key hget
    refine free_deleteItemTxn (fun heq => ?_) (hdb v (by simp [hget]))
    simp [huuid, heq] at hne
  | clear uuids => simp [Free, clearPendingDeletes, show db.pendingDeletes.get v = none from hdb v hv]
  | page us deletes cursor minGen _ _ hpage =>
    rw [Free, pendingDeletes_of_page hpage]
    rcases isSome_of_page hpage hv with hmem | hsome
    · exact hC v hmem
    · exact hdb v hsome
  | blacklist t => exact hdb v hv
  | reencrypt uuid p gen =>
    refine hdb v ?_
    simpa [reencryptItemTxn] using hv
  | storeBlob b _ _ hb =>
    unfold storeSvkBlob at hb
    split at hb
    · rw [← Option.some.inj hb] at hv ⊢
      exact hdb v hv
    · cases hb

/-! ### All commands together -/

abbrev ClientSys := Sys (ℕ × Cmd) World ClientEnv Name (Except ClientError CmdReply)

abbrev ClientAct := Act (ℕ × Cmd) ClientEnv

/-- The code of a command of a device. -/
def code (X : Ext Blob) (q : ℕ × Cmd) : Code (Except ClientError CmdReply) := (exec X q.1 q.2).run

/-- No statement of the device `d` brings an item back whose tombstone is pending. -/
def Respectful (d : ℕ) (σ : ClientSys) : ClientAct → Prop
  | .call _ => True
  | .exec i _ => ∀ c ∈ σ.calls[i]?, ∀ l ∈ c.prog.next, l.1 = d →
    NoRevival (σ.shared.devices d).db l.2

instance (d : ℕ) (σ : ClientSys) (a : ClientAct) : Decidable (Respectful d σ a) := by
  cases a with
  | call q => exact inferInstanceAs (Decidable True)
  | exec i e => exact inferInstanceAs (Decidable (∀ c ∈ σ.calls[i]?, ∀ l ∈ c.prog.next, _ → _))

/-- **A tombstone is pending only while the item is deleted**, in every interleaving of any
commands of any devices, as long as no save and no stored page brings an item back whose
tombstone is pending. -/
theorem tombstones_of_deleted (X : Ext Blob) (d : ℕ) (w : World)
    (hw : OnlyDeleted (w.devices d).db) (as : List ClientAct)
    (has : Along (code X) (Respectful d) (init w) as) :
    OnlyDeleted ((run (code X) (init w) as).shared.devices d).db := by
  refine run_invariant (G := fun ev => Effect ev.name.1 ev)
    (I := fun w => OnlyDeleted (w.devices d).db) (C := Respectful d) (fun q => ?_) ?_ hw has
  · have hdev : ∀ ev, Effect q.1 ev → Effect ev.name.1 ev := fun ev hev => by
      rw [hev.device]
      exact hev
    exact guarantees_mono hdev (effects_exec X q.1 q.2)
  · intro σ i e q tr l f k hc hC hev hI
    rcases eq_or_ne l.1 d with rfl | hne
    · exact DbStep.onlyDeleted hev.own (hC _ hc l rfl rfl) hI
    · rw [show (f e σ.shared).devices d = σ.shared.devices d from hev.others d hne.symm]
      exact hI

/-! ### An item is deleted and saved again -/

/-- The device 0 makes the call, the `i`-th, and it runs to its end. -/
def doing (i n : ℕ) (q : Cmd) : List ClientAct :=
  .call (0, q) :: List.replicate n (.exec i ⟨0, 0, false, 0⟩)

/-- An item, as it is saved. -/
def saved (uuid : Ident) : DomainModel := ⟨1, uuid, "t", "", "", "[]", 0, 0, false⟩

/-- The device deletes its item, saves another one, pushes, and saves the first one again. -/
def orderly : List ClientAct :=
  doing 0 6 (.deleteItem 3) ++ doing 1 6 (.saveItem (saved 4) (.raw 4)) ++
    doing 2 25 .pushLocalChanges ++ doing 3 6 (.saveItem (saved 3) (.raw 6))

open RotationAgreement in
/-- The tombstone is pending while the other item is saved, and is flushed before the item is saved
again. -/
theorem tombstones_of_deleted_pushed :
    OnlyDeleted (oneItem.devices 0).db ∧
    Along (code anyUuid) (Respectful 0) (init oneItem) orderly ∧
    ¬Free ((run (code anyUuid) (init oneItem) (orderly.take 14)).shared.devices 0).db 3 ∧
    (∀ uuid ∈ [3, 4], (((run (code anyUuid) (init oneItem) orderly).shared.devices
      0).db.overviews.get uuid).isSome) ∧
    OnlyDeleted ((run (code anyUuid) (init oneItem) orderly).shared.devices 0).db :=
  ⟨by decide, by decide +kernel, by decide +kernel, by decide +kernel,
    tombstones_of_deleted anyUuid 0 oneItem (by decide) _ (by decide +kernel)⟩

/-- The item is there on the device 0, and deleted on the server. -/
def DeletedOnServer (w : World) : Prop :=
  ((w.devices 0).db.overviews.get 3).isSome ∧
    (w.server.items.get (3, 7)).any (·.deletedDate.isSome) = true

instance (w : World) : Decidable (DeletedOnServer w) := inferInstanceAs (Decidable (_ ∧ _))

open RotationAgreement in
/-- The device deletes its item and saves it again: the tombstone is still pending, and the
next push deletes the item on the server. -/
theorem saved_item_deleted :
    ¬(∀ as, OnlyDeleted ((run (code anyUuid) (init oneItem) as).shared.devices 0).db) ∧
    DeletedOnServer (run (code anyUuid) (init oneItem) (doing 0 6 (.deleteItem 3) ++
      doing 1 6 (.saveItem (saved 3) (.raw 6)) ++ doing 2 25 .pushLocalChanges)).shared := by
  refine ⟨fun h => ?_, by decide +kernel⟩
  have := h (doing 0 6 (.deleteItem 3) ++ doing 1 6 (.saveItem (saved 3) (.raw 6)))
  revert this
  decide +kernel

end Vautr.Tombstones
