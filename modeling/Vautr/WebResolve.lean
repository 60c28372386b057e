import Vautr.WebSync

/-!
What the web client holds after a conflict was resolved in favour of the server.

The local copy is dropped, and the sync that follows is to bring the server's back. But a sync
asks for what changed after the cursor, and only for the first hundred changes: a row that the
cursor has passed does not come back, and the item is gone here although it lives on the server.
The other items meet an ordinary sync.
-/

namespace Vautr.WebResolve

open Vautr.WebEdits (anyUuid unlocked calm steps started_unlocked Started)
open Vautr.Atomic Vautr.Interleave Vautr.Session Vautr.Sql Vautr.Database Vautr.Api Vautr.Server
  Vautr.Handlers Vautr.Crypto Vautr.Client Vautr.Zoom Vautr.WebClient Vautr.WebSync

variable {X : Ext Blob} (user : Ident)

/-! ### What is promised, and what it takes -/

/-- The server's version of an item as a sync stores it; a deleted item is none. -/
def serverCopy (w : WebWorld) (uuid : Ident) : Option StoredItem :=
  ((serverRow user w uuid).filter (·.deletedDate.isNone)).map pulledRow

/-- **The server's version is adopted**: the item is here as on the server, and every other item
is as it was. -/
structure Adopted (uuid : Ident) (w w' : WebWorld) : Prop where
  copy : w'.store.items.get uuid = serverCopy user w' uuid
  others : ∀ v, v ≠ uuid → w'.store.items.get v = w.store.items.get v

/-- The item is deleted on the server, or the pull of a sync lists it and it has a payload. -/
def Listed (w : WebWorld) (uuid : Ident) : Prop :=
  ∀ r, serverRow user w uuid = some r → r.deletedDate = none →
    r ∈ pageRows user w ∧ r.payload.isSome

/-- The pull leaves the item as it is, and if it is pending its push is refused: for the
generation, or by a row that has no other version to tell. -/
def Undisturbed (w : WebWorld) (uuid : Ident) : Prop :=
  afterPull user w uuid = w.store.items.get uuid ∧
    ∀ i, w.store.items.get uuid = some i → i.pending →
      tooOld (generation w.server user) w.mem.localKeyGen ∨
        accepts (serverRow user w uuid) (asI64 i.version) = false ∧
          ∀ r, serverRow user w uuid = some r → asU64 r.version = i.version

/-! ### One item and one sync -/

section Item

variable {user} {w w' : WebWorld} {pending : List StoredItem} {results : List PushResult}
  {uuid : Ident}

/-- A sync does not touch the server's row of an item that is not pending after the pull. -/
lemma serverRow_of_not_pushed (h : Synced user w w' pending results)
    (hno : ∀ i ∈ pending, i.uuid ≠ uuid) : serverRow user w' uuid = serverRow user w uuid := by
  refine h.pushed.others _ fun item hitem he => ?_
  obtain ⟨i, hi, rfl⟩ := List.mem_map.mp hitem
  exact hno i hi (Prod.mk.inj he).1

/-- What was not here before the sync is not pushed by it. -/
lemma not_pushed_of_none (h : Synced user w w' pending results)
    (hnone : w.store.items.get uuid = none) : ∀ i ∈ pending, i.uuid ≠ uuid := by
  rintro i hi rfl
  obtain ⟨hafter, hpend⟩ := (h.mem i).mp hi
  rcases (afterPull_cases hafter).2 with hheld | ⟨r, -, rfl⟩
  · rw [hnone] at hheld
    cases hheld
  · cases hpend

/-- The pull of an item that is not here. -/
lemma afterPull_of_none (hnone : w.store.items.get uuid = none) :
    afterPull user w uuid = (((pageRows user w).find? (·.uuid = uuid)).filter fun r =>
      r.deletedDate.isNone && r.payload.isSome).map pulledRow := by
  unfold afterPull
  rw [hnone]
  cases hf : (pageRows user w).find? (·.uuid = uuid) with
  | none => rfl
  | some r => cases hd : r.deletedDate <;> cases hp : r.payload <;> simp [hd, hp, Option.filter]

/-- An item that is not here before a sync is here as on the server after it if and only if it is
listed. -/
lemma copy_iff (h : Synced user w w' pending results) (hnone : w.store.items.get uuid = none) :
    w'.store.items.get uuid = serverCopy user w' uuid ↔ Listed user w uuid := by
  have hnot := not_pushed_of_none h hnone
  rw [h.others uuid hnot, serverCopy, serverRow_of_not_pushed h hnot, afterPull_of_none hnone,
    Listed]
  cases hf : (pageRows user w).find? (·.uuid = uuid) with
  | none =>
    have hno : ∀ r ∈ pageRows user w, r.uuid ≠ uuid := by simpa using List.find?_eq_none.mp hf
    cases hrow : serverRow user w uuid with
    | none => simp
    | some r =>
      have huuid : r.uuid = uuid := congrArg Prod.fst (Table.get_key hrow)
      cases hd : r.deletedDate with
      | none => simpa [Option.filter, hd] using fun hr => absurd huuid (hno r hr)
      | some t => simp [Option.filter, hd]
  | some r =>
    have hr := List.mem_of_find?_eq_some hf
    obtain rfl : r.uuid = uuid := by simpa using List.find?_some hf
    rw [serverRow_of_mem hr]
    cases hd : r.deletedDate <;> cases hp : r.payload <;> simp [Option.filter, hd, hp, hr]

lemma settle_eq_self_iff {i : StoredItem} : i.settle results = i ↔
    ((updatedOf results i.uuid).or (retargetOf results i.uuid)).getD i.version = i.version ∧
      (updatedOf results i.uuid).isNone = i.pending := by
  cases i
  simp [StoredItem.settle]

/-- An item is after a sync as before it if and only if it is undisturbed. -/
lemma unchanged_iff (h : Synced user w w' pending results) :
    w'.store.items.get uuid = w.store.items.get uuid ↔ Undisturbed user w uuid := by
  by_cases hex : ∃ j ∈ pending, j.uuid = uuid
  · -- the item was pushed, and settled by the outcome of the push
    obtain ⟨j, hj, rfl⟩ := hex
    obtain ⟨hafter, hpend⟩ := (h.mem j).mp hj
    have hheld : w.store.items.get j.uuid = some j := by
      rcases (afterPull_cases hafter).2 with hheld | ⟨r, -, rfl⟩
      · exact hheld
      · cases hpend
    have hnodup : (results.map (·.uuid)).Nodup := by
      rw [h.pushed.uuids, List.map_map]
      exact h.nodup
    obtain ⟨r, hr, hu, hout⟩ := h.pushed.outcome _ (List.mem_map_of_mem hj)
    change r.uuid = j.uuid at hu
    change Outcome _ _ (serverRow user w j.uuid) (serverRow user w' j.uuid) r at hout
    have hupdated : updatedOf results j.uuid =
        if r.status = .success then r.version.map asU64 else none := hu ▸ updatedOf_eq hnodup hr
    have hretarget : retargetOf results j.uuid = if r.status = .conflict then
        ((r.currentServerState.map (·.version)).or r.version).map asU64 else none :=
      hu ▸ retargetOf_eq hnodup hr
    have hsettled := h.settled j hj
    have hcond : Undisturbed user w j.uuid ↔
        (tooOld (generation w.server user) w.mem.localKeyGen ∨
          accepts (serverRow user w j.uuid) (asI64 j.version) = false ∧
            ∀ r, serverRow user w j.uuid = some r → asU64 r.version = j.version) := by
      rw [Undisturbed, hafter, hheld]
      simp only [Option.some.injEq, forall_eq', hpend, true_and, forall_true_left]
    rw [hsettled, hheld, hcond, Option.some.injEq, settle_eq_self_iff]
    cases hout with
    -- nothing is said of it
    | tooOld hold hrow hs =>
      exact iff_of_true (by simp [hupdated, hretarget, hs, hpend]) (.inl hold)
    -- it is moved to the version of the server, unless it is there already
    | conflict hok hno hrow hs htold =>
      have hno : accepts (serverRow user w j.uuid) (asI64 j.version) = false := hno
      have hok : tooOld (generation w.server user) w.mem.localKeyGen = false := hok
      rw [hupdated, hretarget, hs, htold, hpend, hno, hok]
      cases serverRow user w j.uuid <;> simp
    -- it is not pending any more
    | applied row hok hyes hrow hpayload hdeleted hs hv =>
      refine iff_of_false ?_ ?_
      · simp [hupdated, hs, hv, hpend]
      · rintro (hold | ⟨hno, -⟩)
        · exact Bool.false_ne_true (hok.symm.trans hold)
        · exact Bool.false_ne_true (hno.symm.trans hyes)
  · -- it was not pushed
    have hno : ∀ i ∈ pending, i.uuid ≠ uuid := fun i hi hu => hex ⟨i, hi, hu⟩
    rw [h.others uuid hno, Undisturbed, iff_self_and]
    intro hsame i hi hp
    obtain rfl : i.uuid = uuid := Table.get_key hi
    exact absurd rfl (hno i ((h.mem i).mpr ⟨hsame.trans hi, hp⟩))

end Item

/-! ### The resolution -/

/-- The client without its copy of the item. -/
structure Dropped (uuid : Ident) (w w' : WebWorld) : Prop where
  server : w'.server = w.server
  gen : w'.mem.localKeyGen = w.mem.localKeyGen
  cursor : w'.store.cursor = w.store.cursor
  items : ∀ v, w'.store.items.get v = if uuid = v then none else w.store.items.get v

section Resolution

variable {user} {uuid : Ident} {w w' : WebWorld}

lemma Dropped.serverRow (h : Dropped uuid w w') (v : Ident) :
    serverRow user w' v = WebSync.serverRow user w v := by
  rw [WebSync.serverRow, WebSync.serverRow, h.server]

lemma Dropped.pageRows (h : Dropped uuid w w') : pageRows user w' = WebSync.pageRows user w := by
  rw [WebSync.pageRows, WebSync.pageRows, h.server, h.cursor]

lemma Dropped.listed (h : Dropped uuid w w') : Listed user w' uuid ↔ Listed user w uuid := by
  rw [Listed, Listed, h.serverRow, h.pageRows]

lemma Dropped.undisturbed (h : Dropped uuid w w') {v : Ident} (hv : v ≠ uuid) :
    Undisturbed user w' v ↔ Undisturbed user w v := by
  have hitem : w'.store.items.get v = w.store.items.get v := by
    rw [h.items, if_neg hv.symm]
  have hafter : afterPull user w' v = afterPull user w v := by
    rw [afterPull, afterPull, h.pageRows, hitem]
  rw [Undisturbed, Undisturbed, hafter, hitem, h.server, h.gen, h.serverRow]

/-- **What becomes of an item whose conflict is resolved for the server.** If nobody else writes
meanwhile and the call succeeds, the item is here as on the server and every other item is as it
was, if and only if the item is deleted on the server or its row, with its payload, is among the
first hundred after the cursor, and every other item is left alone by the sync. -/
theorem adopted_iff (X : Ext Blob) (user uuid : Ident) (w : WebWorld) :
    Gives (resolveConflict X user uuid .acceptServer)
      (fun _ w' => Adopted user uuid w w' ↔
        Listed user w uuid ∧ ∀ v, v ≠ uuid → Undisturbed user w v) w := by
  refine gives_bind gives_requireDek ?_
  rintro dek w rfl
  refine gives_bind (P := fun _ w' => ∃ past, w' = { w with past }) (gives_onStore ⟨_, rfl⟩) ?_
  rintro item _ ⟨past, rfl⟩
  refine gives_bind (P := fun _ w' => Dropped uuid w w')
    (gives_onStore ⟨rfl, rfl, rfl, get_drop uuid⟩) fun _ w₀ h₀ => ?_
  refine gives_bind (P := fun _ w' => Dropped uuid w w')
    (gives_onMem fun _ => ⟨h₀.server, h₀.gen, h₀.cursor, h₀.items⟩) fun _ w₁ h₁ => ?_
  refine gives_mono (gives_sync w₁) ?_
  rintro _ w' ⟨pending, results, h⟩
  have hnone : w₁.store.items.get uuid = none := by rw [h₁.items, if_pos rfl]
  have hcopy : w'.store.items.get uuid = serverCopy user w' uuid ↔ Listed user w uuid :=
    (copy_iff h hnone).trans h₁.listed
  have hother : ∀ v, v ≠ uuid →
      (w'.store.items.get v = w.store.items.get v ↔ Undisturbed user w v) := fun v hv => by
    rw [← h₁.undisturbed hv, ← unchanged_iff h, h₁.items, if_neg hv.symm]
  constructor
  · exact fun hw => ⟨hcopy.mp hw.copy, fun v hv => (hother v hv).mp (hw.others v hv)⟩
  · exact fun hw => ⟨hcopy.mpr hw.1, fun v hv => (hother v hv).mpr (hw.2 v hv)⟩

end Resolution

/-! ### An item that does not come back -/

/-- Two syncs push an item, so that a conflict is reported; then another device rotates the
account, and a sync passes the row of the item, which stays pending. -/
def passedBy : List WebAct :=
  .call (.addItem (.bytes 3)) :: steps 0 4 ++ .call .sync :: steps 1 18 ++
  .call .sync :: steps 2 12 ++ steps 1 20 ++ steps 2 20 ++
  .call (.other (.rotate ⟨1, 2, some (.raw 3)⟩)) :: steps 3 12 ++ .call .sync :: steps 4 40

/-- **The item is gone** after its conflict was resolved for the server, where it is live. -/
theorem accepted_item_lost :
    4 ∈ WebEdits.reported (run (webCode anyUuid 1) (init unlocked) passedBy).shared.mem.bus ∧
    ∃ w', Ends (resolveConflict anyUuid 1 4 .acceptServer).run
        (run (webCode anyUuid 1) (init unlocked) passedBy).shared (.ok ()) w' ∧
      w'.store.items.get 4 = none ∧ (serverCopy 1 w' 4).isSome := by
  have hrun : 4 ∈ WebEdits.reported
        (run (webCode anyUuid 1) (init unlocked) passedBy).shared.mem.bus ∧
      (alone calm (resolveConflict anyUuid 1 4 .acceptServer).run
        (run (webCode anyUuid 1) (init unlocked) passedBy).shared).1 = .ok () ∧
      (alone calm (resolveConflict anyUuid 1 4 .acceptServer).run
        (run (webCode anyUuid 1) (init unlocked) passedBy).shared).2.store.items.get 4 = none ∧
      (serverCopy 1 (alone calm (resolveConflict anyUuid 1 4 .acceptServer).run
        (run (webCode anyUuid 1) (init unlocked) passedBy).shared).2 4).isSome := by
    decide +kernel
  exact ⟨hrun.1, _, ends_of_alone hrun.2.1, hrun.2.2⟩

end Vautr.WebResolve
