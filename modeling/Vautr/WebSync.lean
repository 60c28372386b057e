import Vautr.Paging
import Vautr.WebEdits

/-!
What one sync of the web client leaves behind, when nobody else writes.

A sync asks for one page of changes, fetches the payloads it lacks, and pushes what is pending.
An item whose change stands after the first hundred stays as it is here; the cursor passes the
page only, and nothing asks for the next one before the next sync.
-/

namespace Vautr.WebSync

open Vautr.WebEdits (reported anyUuid unlocked calm)
open Vautr.Atomic Vautr.Session Vautr.Sql Vautr.Database Vautr.Api Vautr.Server Vautr.Handlers
  Vautr.Crypto Vautr.Client Vautr.Zoom Vautr.WebClient Vautr.Paging

variable {X : Ext Blob} {user : Ident}

/-! ### The server's part -/

section Server

variable {s : Db Blob}

lemma gives_syncPull (cursor : UInt64) : Gives (syncPull user cursor none) (fun pull s' => s' = s ∧
    pull.items = ((itemsAfter s user (asI64 cursor)).take 100).map pullItem) s := by
  refine gives_bind (gives_orInternal (gives_select (P := fun _ s' => s' = s) rfl)) ?_
  rintro gen s rfl
  rw [if_neg (by simp)]
  refine gives_bind (gives_orInternal (gives_select (P := fun _ s' => s' = s) rfl)) ?_
  rintro n s rfl
  split
  · exact gives_throw _
  refine gives_bind (gives_orInternal (gives_select (P := fun rows s' => s' = s ∧
    rows = (itemsAfter s user (asI64 cursor)).take 101) ⟨rfl, rfl⟩)) ?_
  rintro rows s ⟨rfl, rfl⟩
  exact gives_pure ⟨rfl, by rw [List.take_take]; rfl⟩

lemma gives_pullPayloads (targets : List (Ident × UInt64)) : Gives (pullPayloads user targets)
    (fun results s' => s' = s ∧
      results = targets.map fun t => payloadResult t.1 t.2 (s.items.get (t.1, user))) s := by
  induction targets with
  | nil => exact gives_pure ⟨rfl, rfl⟩
  | cons t targets ih =>
    refine gives_bind (gives_orInternal (gives_select (P := fun row s' => s' = s ∧
      row = s.items.get (t.1, user)) ⟨rfl, rfl⟩)) ?_
    rintro row s ⟨rfl, rfl⟩
    refine gives_bind ih ?_
    rintro results s ⟨rfl, rfl⟩
    exact gives_pure ⟨rfl, rfl⟩

lemma gives_syncPullPayloads (targets : List (Ident × UInt64)) :
    Gives (syncPullPayloads user targets) (fun results s' => s' = s ∧
      results = targets.map fun t => payloadResult t.1 t.2 (s.items.get (t.1, user))) s := by
  unfold syncPullPayloads
  split
  · exact gives_throw _
  · exact gives_pullPayloads targets

/-- A push of this generation is refused for its generation, in the handler or by the upsert. -/
def tooOld (gen : Option ℤ) (g : UInt64) : Bool := g < asU64 (gen.getD 1) || gen.any (asI64 g < ·)

/-- A push of this version meets the row that is there. -/
def accepts (row : Option (ItemRow Blob)) (target : ℤ) : Bool :=
  match row with
  | some r => r.version = target
  | none => target = 0

/-- An upsert touches no other row, and no user. -/
structure OneRow (k : Ident × Ident) (s s' : Db Blob) : Prop where
  users : s'.users = s.users
  others : ∀ k', k' ≠ k → s'.items.get k' = s.items.get k'

lemma OneRow.refl (k : Ident × Ident) (s : Db Blob) : OneRow k s s := ⟨rfl, fun _ _ => rfl⟩

/-- What an upsert comes to. -/
def Upserted (q : Upsert Blob) (s s' : Db Blob) : UpsertOutcome → Prop
  | .epochTooOld => s' = s ∧ (s.users.get q.userId).any (q.encKeyGen < ·.minEncKeyGen)
  | .conflict => s' = s ∧ (s.users.get q.userId).any (q.encKeyGen < ·.minEncKeyGen) = false ∧
    accepts (s.items.get q.key) q.targetVersion = false
  | _ => OneRow q.key s s' ∧ (s.users.get q.userId).any (q.encKeyGen < ·.minEncKeyGen) = false ∧
    accepts (s.items.get q.key) q.targetVersion ∧ ∃ row, s'.items.get q.key = some row ∧
      row.payload = q.payload ∧ row.deletedDate = q.deletedDate

lemma key_of_hits {q : Upsert Blob} {r : ItemRow Blob} (h : q.hits r) : r.key = q.key := by
  simp only [Upsert.hits, Bool.and_eq_true, decide_eq_true_eq] at h
  simp [ItemRow.key, Upsert.key, h]

/-- The rows an upsert hits are the row it is about, if it has the version it is for. -/
lemma countP_hits (q : Upsert Blob) : s.items.rows.countP q.hits = 1 ↔
    ∃ r, s.items.get q.key = some r ∧ r.version = q.targetVersion := by
  rw [Table.countP_rows s.items fun _ => key_of_hits]
  rcases hg : s.items.get q.key with _ | r
  · simp
  · have hk := Table.get_key hg
    simp only [ItemRow.key, Upsert.key, Prod.mk.injEq] at hk
    simp [Upsert.hits, hk]

lemma countP_hits_zero {q : Upsert Blob} (h : s.items.rows.countP q.hits ≠ 1) :
    s.items.rows.countP q.hits = 0 := by
  have hle : s.items.rows.countP q.hits ≤ 1 := by
    rw [Table.countP_rows s.items fun _ => key_of_hits]
    exact List.countP_le_length.trans (by cases s.items.get q.key <;> simp)
  omega

/-- An upsert that is applied sets its row. -/
lemma get_set {q : Upsert Blob} {n : ℤ} {r : ItemRow Blob} (hg : s.items.get q.key = some r)
    (hv : r.version = q.targetVersion) :
    (s.items.update q.hits (q.set n) (q.set_key _)).get q.key = some (q.set n r) := by
  have hk := Table.get_key hg
  simp only [ItemRow.key, Upsert.key, Prod.mk.injEq] at hk
  simp [hg, Upsert.hits, hk, hv]

lemma oneRow_update (q : Upsert Blob) (n : ℤ) :
    OneRow q.key s { s with items := s.items.update q.hits (q.set n) (q.set_key _) } := by
  refine ⟨rfl, fun k' hk' => ?_⟩
  rw [Table.get_update]
  cases hg : s.items.get k' with
  | none => rfl
  | some r =>
    have hno : ¬q.hits r := fun h => hk' ((Table.get_key hg).symm.trans (key_of_hits h))
    simp [hno]

lemma oneRow_insert {q : Upsert Blob} {n : ℤ} {items : Table ItemRow.key}
    (h : s.items.insert (q.row 1 n) = some items) :
    OneRow q.key s { s with items := items } ∧ s.items.get q.key = none ∧
      items.get q.key = some (q.row 1 n) := by
  have hkey : ItemRow.key (q.row 1 n) = q.key := rfl
  refine ⟨⟨rfl, fun k' hk' => ?_⟩, hkey ▸ (Table.insert_eq_some h).1, ?_⟩
  · rw [Table.get_insert h, hkey, if_neg hk'.symm]
  · rw [Table.get_insert h, if_pos hkey]

/-- What the `INSERT` of an upsert comes to. -/
def Inserted (q : Upsert Blob) (s s' : Db Blob) : Except SqlError Unit → Prop
  | .ok () => Upserted q s s' .updated
  | .error .unique => Upserted q s s' .conflict
  | .error _ => True

lemma gives_upsertItemOcc (isUuid : IsUuid) (q : Upsert Blob) :
    Gives (upsertItemOcc isUuid q) (fun o s' => Upserted q s s' o) s := by
  unfold upsertItemOcc
  split
  · exact gives_throw _
  refine gives_bind (gives_select (P := fun gen s' => s' = s ∧
    gen = (s.users.get q.userId).map (·.minEncKeyGen)) ⟨rfl, rfl⟩) ?_
  rintro gen s ⟨rfl, rfl⟩
  rw [Option.any_map]
  split
  · next hgen => exact gives_pure ⟨rfl, hgen⟩
  next hgen =>
  rw [Bool.not_eq_true] at hgen
  refine gives_bind (gives_select (P := fun _ s' => s' = s) rfl) ?_
  rintro prior s rfl
  refine gives_bind (gives_statement (P := fun n s' => n = s.items.rows.countP q.hits ∧
    s' = { s with items := s.items.update q.hits (q.set (nextSeq s q.userId)) (q.set_key _) })
    fun _ _ ha => ⟨(Except.ok.inj ha).symm, rfl⟩) ?_
  rintro n s' ⟨rfl, hs'⟩
  split
  · next hone =>
    -- the version is there
    obtain ⟨r, hr, hv⟩ := (countP_hits q).mp hone
    have hacc : accepts (s.items.get q.key) q.targetVersion := by simp [accepts, hr, hv]
    have hup : ∀ o, o = .updated ∨ o = .recovered → Upserted q s s' o := by
      subst hs'
      rintro o (rfl | rfl) <;>
        exact ⟨oneRow_update q _, hgen, hacc, q.set _ r, get_set hr hv, rfl, rfl⟩
    refine gives_pure (hup _ ?_)
    split <;> simp
  · next hone =>
    -- the version is not there
    have hs : s = s' := by
      rw [hs', Table.update_eq_self _ (countP_hits_zero hone)]
    subst hs
    have hno : ∀ r, s.items.get q.key = some r → r.version ≠ q.targetVersion :=
      fun r hr hv => hone ((countP_hits q).mpr ⟨r, hr, hv⟩)
    split
    · next htarget =>
      -- for the target 0 a row is made, unless one is there
      refine gives_bind (gives_lift (P := fun r s' => Inserted q s s' r) ?_) ?_
      · refine safe_statement trivial trivial fun e => ⟨trivial, ?_⟩
        cases hins : s.items.insert (q.row 1 (nextSeq s q.userId)) with
        | none =>
          have hsome := Table.insert_eq_none_iff.mp hins
          obtain ⟨r, hr⟩ := Option.isSome_iff_exists.mp hsome
          have hr : s.items.get q.key = some r := hr
          exact ⟨rfl, hgen, by simpa [accepts, hr] using hno r hr⟩
        | some items =>
          obtain ⟨hone', hnone, hget⟩ := oneRow_insert hins
          by_cases huser : (s.users.get q.userId).isSome
          · simp only [huser, if_true]
            exact ⟨hone', hgen, by simp [accepts, hnone, htarget], _, hget, rfl, rfl⟩
          · simp only [huser]
            trivial
      · rintro (e | _) s' hs'
        · cases e with
          | unique => exact gives_pure hs'
          | protocol msg => exact gives_throw _
          | foreignKey => exact gives_throw _
          | database => exact gives_throw _
        · exact gives_pure hs'
    · next htarget =>
      refine gives_pure ⟨rfl, hgen, ?_⟩
      cases hg : s.items.get q.key with
      | none => simp [accepts, htarget]
      | some r => simpa [accepts] using hno r hg

/-- What a push of an item comes to, with its row before and after, and its answer. -/
inductive Outcome (gen : Option ℤ) (item : PushItem Blob) (before after : Option (ItemRow Blob))
    (r : PushResult) : Prop
  | tooOld (h : tooOld gen item.encKeyGen) (hsame : after = before)
    (hr : r.status = .epochTooOld)
  | conflict (h : tooOld gen item.encKeyGen = false)
    (hno : accepts before (asI64 item.targetVersion) = false) (hsame : after = before)
    (hr : r.status = .conflict)
    (htold : (r.currentServerState.map (·.version)).or r.version = before.map (·.version))
  | applied (row : ItemRow Blob) (h : tooOld gen item.encKeyGen = false)
    (hyes : accepts before (asI64 item.targetVersion)) (hrow : after = some row)
    (hpayload : item.payload = row.payload.map some) (hdeleted : row.deletedDate = item.deletedDate)
    (hr : r.status = .success) (hv : r.version = some row.version)

def generation (s : Db Blob) (user : Ident) : Option ℤ := (s.users.get user).map (·.minEncKeyGen)

/-- What a push of one item does. -/
structure PushedOne (user : Ident) (item : PushItem Blob) (s s' : Db Blob) (r : PushResult) :
    Prop where
  one : OneRow (item.uuid, user) s s'
  uuid : r.uuid = item.uuid
  outcome : Outcome (generation s user) item (s.items.get (item.uuid, user))
    (s'.items.get (item.uuid, user)) r

lemma gives_pushedRow {s₀ : Db Blob} {item : PushItem Blob} {p : Option Blob}
    (hp : item.payload = p.map some) (h : tooOld (generation s₀ user) item.encKeyGen = false)
    {now : ℤ} {o : UpsertOutcome} (ho : o = .updated ∨ o = .recovered)
    (hs : Upserted (item.upsert user now p) s₀ s o) :
    Gives (pushedRow user item) (fun r s' => PushedOne user item s₀ s' r) s := by
  obtain ⟨hone, -, hacc, row, hrow, hpay, hdel⟩ : OneRow (item.uuid, user) s₀ s ∧
      (s₀.users.get user).any (asI64 item.encKeyGen < ·.minEncKeyGen) = false ∧
      accepts (s₀.items.get (item.uuid, user)) (asI64 item.targetVersion) ∧
      ∃ row, s.items.get (item.uuid, user) = some row ∧
        row.payload = p ∧ row.deletedDate = item.deletedDate := by
    rcases ho with rfl | rfl <;> exact hs
  refine gives_bind (gives_orInternal (gives_select (P := fun found s' => s' = s ∧
    found = s.items.get (item.uuid, user)) ⟨rfl, rfl⟩)) ?_
  rintro found s ⟨rfl, rfl⟩
  rw [hrow]
  exact gives_pure ⟨hone, rfl, .applied row h hacc hrow (hp.trans (by rw [hpay])) hdel rfl rfl⟩

lemma gives_pushItem (now : ℤ) (item : PushItem Blob) :
    Gives (pushItem X user now item) (fun r s' => PushedOne user item s s' r) s := by
  refine gives_bind (gives_orInternal (gives_select (P := fun gen s' => s' = s ∧
    gen = generation s user) ⟨rfl, rfl⟩)) ?_
  rintro gen s ⟨rfl, rfl⟩
  dsimp only
  split
  · next hold =>
    exact gives_pure ⟨.refl _ _, rfl, .tooOld (by simp [tooOld, hold]) rfl rfl⟩
  next hold =>
  have hafter : ∀ p, item.payload = Option.map some p → Gives
      (orInternal (upsertItemOcc X.isUuid (item.upsert user now p)) >>= Push.afterUpsert user item)
      (fun r s' => PushedOne user item s s' r) s := by
    intro p hp
    have htooOld : tooOld (generation s user) item.encKeyGen =
        (s.users.get user).any (asI64 item.encKeyGen < ·.minEncKeyGen) := by
      rw [tooOld, decide_eq_false hold, Bool.false_or, generation, Option.any_map]
    refine gives_bind (gives_orInternal (gives_upsertItemOcc _ _)) fun o s' ho => ?_
    cases o with
    | updated => exact gives_pushedRow hp (htooOld.trans ho.2.1) (.inl rfl) ho
    | recovered => exact gives_pushedRow hp (htooOld.trans ho.2.1) (.inr rfl) ho
    | conflict =>
      obtain ⟨rfl, hgen, hno⟩ := ho
      refine gives_bind (gives_orInternal (gives_select (P := fun row s'' => s'' = s' ∧
        row = s'.items.get (item.uuid, user)) ⟨rfl, rfl⟩)) ?_
      rintro row s ⟨rfl, rfl⟩
      refine gives_pure ⟨.refl _ _, rfl, .conflict (htooOld.trans hgen) hno rfl rfl ?_⟩
      simp [PushResult.refused, Function.comp_def]
    | epochTooOld =>
      obtain ⟨rfl, hgen⟩ := ho
      exact gives_pure ⟨.refl _ _, rfl, .tooOld (htooOld.trans hgen) rfl rfl⟩
  rcases hp : item.payload with _ | _ | p
  · exact hafter none hp
  · exact gives_throw _
  · exact hafter (some p) hp

/-- What a push of items does: there is an answer for every item, and what it says is so at the
end. -/
structure PushedAll (user : Ident) (items : List (PushItem Blob)) (s s' : Db Blob)
    (results : List PushResult) : Prop where
  users : s'.users = s.users
  others : ∀ k, (∀ item ∈ items, (item.uuid, user) ≠ k) → s'.items.get k = s.items.get k
  uuids : results.map (·.uuid) = items.map (·.uuid)
  outcome : ∀ item ∈ items, ∃ r ∈ results, r.uuid = item.uuid ∧
    Outcome (generation s user) item (s.items.get (item.uuid, user))
      (s'.items.get (item.uuid, user)) r

lemma gives_pushItems (now : ℤ) {items : List (PushItem Blob)}
    (hnodup : (items.map (·.uuid)).Nodup) :
    Gives (pushItems X user now items) (fun results s' => PushedAll user items s s' results) s := by
  induction items generalizing s with
  | nil => exact gives_pure ⟨rfl, fun _ _ => rfl, rfl, by simp⟩
  | cons item items ih =>
    rw [List.map_cons, List.nodup_cons] at hnodup
    have hne : ∀ i ∈ items, (i.uuid, user) ≠ (item.uuid, user) := fun i hi he =>
      hnodup.1 ((Prod.mk.inj he).1 ▸ List.mem_map_of_mem hi)
    refine gives_bind (gives_pushItem now item) fun r s₁ h₁ => ?_
    refine gives_bind (ih hnodup.2) fun results s₂ h₂ => ?_
    have hgen : generation s₁ user = generation s user := by
      rw [generation, h₁.one.users]
      rfl
    refine gives_pure ⟨h₂.users.trans h₁.one.users, fun k hk => ?_, ?_, fun i hi => ?_⟩
    · rw [h₂.others k fun i hi => hk i (List.mem_cons_of_mem _ hi),
        h₁.one.others k (hk item List.mem_cons_self).symm]
    · rw [List.map_cons, List.map_cons, h₁.uuid, h₂.uuids]
    · rcases List.mem_cons.mp hi with rfl | hi
      · refine ⟨r, List.mem_cons_self, h₁.uuid, ?_⟩
        rw [h₂.others _ hne]
        exact h₁.outcome
      · obtain ⟨r', hr', huuid, hout⟩ := h₂.outcome i hi
        rw [hgen, h₁.one.others _ (hne i hi)] at hout
        exact ⟨r', List.mem_cons_of_mem _ hr', huuid, hout⟩

lemma gives_syncPushBatch {items : List (PushItem Blob)} (hnodup : (items.map (·.uuid)).Nodup) :
    Gives (syncPushBatch X ⟨user, items⟩)
      (fun results s' => PushedAll user items s s' results) s := by
  unfold syncPushBatch
  split
  · exact gives_throw _
  refine gives_bind (P := fun _ s' => s' = s) (gives_atom fun _ _ _ => rfl) ?_
  rintro now s rfl
  exact gives_pushItems now hnodup

end Server

/-! ### The client's statements -/

section Client

variable {α : Type} {w : WebWorld}

/-- The server and the client's generation are as they were, and no conflict is reported. -/
structure Calm (w w' : WebWorld) : Prop where
  server : w'.server = w.server
  gen : w'.mem.localKeyGen = w.mem.localKeyGen
  bus : ∃ us, w'.mem.bus = w.mem.bus ++ us ∧ reported us = []

lemma Calm.refl (w : WebWorld) : Calm w w := ⟨rfl, rfl, [], by simp, rfl⟩

lemma reported_append (us us' : List WebUpdate) :
    reported (us ++ us') = reported us ++ reported us' := List.filterMap_append

lemma Calm.trans {w' w'' : WebWorld} (h : Calm w w') (h' : Calm w' w'') : Calm w w'' := by
  obtain ⟨us, hus, hr⟩ := h.bus
  obtain ⟨us', hus', hr'⟩ := h'.bus
  refine ⟨h'.server.trans h.server, h'.gen.trans h.gen, us ++ us', ?_, ?_⟩
  · rw [hus', hus, List.append_assoc]
  · rw [reported_append, hr, hr', List.append_nil]

lemma gives_onMem {P : α → WebWorld → Prop} {l : WebLabel}
    {g : ClientEnv → WebWorld → WebWorld × α} (h : ∀ e, P (g e w).2 (g e w).1) :
    Gives (onMem l g) P w :=
  gives_atom fun e _ ha => Except.ok.inj ha ▸ h e

lemma gives_onStore {P : α → WebWorld → Prop} {l : WebLabel} {g : WebWorld → WebWorld × α}
    (h : P (g w).2 (g w).1) : Gives (onStore l g) P w := by
  refine gives_atom fun e a ha => ?_
  cases hf : e.fault with
  | true => simp [hf] at ha
  | false =>
    simp only [hf, Bool.false_eq_true, if_false, Except.ok.injEq] at ha ⊢
    exact ha ▸ h

lemma gives_readMem (g : WebMemory → α) : Gives (readMem g) (fun _ w' => w' = w) w :=
  gives_onMem fun _ => rfl

lemma gives_emit {us : List WebUpdate} (h : reported us = []) :
    Gives (emit us) (fun _ w' => Calm w w' ∧ w'.store = w.store) w :=
  gives_onMem fun _ => ⟨⟨rfl, rfl, us, rfl, h⟩, rfl⟩

lemma gives_setState (g : WebStore → WebStore) :
    Gives (setState g) (fun _ w' => Calm w w' ∧ w'.store.items = w.store.items) w :=
  gives_onStore ⟨⟨rfl, rfl, [], by simp, rfl⟩, rfl⟩

lemma get_put (i : StoredItem) (uuid : Ident) :
    (w.put i).store.items.get uuid = if i.uuid = uuid then some i else w.store.items.get uuid := by
  simp only [WebWorld.put, Table.get_upsert]
  split
  · next h =>
    cases hg : w.store.items.get uuid with
    | none => rfl
    | some j =>
      have hj := Table.get_key hg
      simp [StoredItem.replace, hj, ← h]
  · rfl

lemma get_drop (u uuid : Ident) :
    (w.drop u).store.items.get uuid = if u = uuid then none else w.store.items.get uuid := by
  simp only [WebWorld.drop, Table.get_delete]
  cases hg : w.store.items.get uuid with
  | none => simp
  | some j =>
    have hj := Table.get_key hg
    by_cases h : u = uuid
    · simp [hj, h]
    · simp [hj, h, Ne.symm h]

lemma gives_putItem (l : WebLabel) (i : StoredItem) (note : Past → Past) :
    Gives (putItem l i note) (fun _ w' => Calm w w' ∧ ∀ uuid, w'.store.items.get uuid =
      if i.uuid = uuid then some i else w.store.items.get uuid) w :=
  gives_onStore ⟨⟨rfl, rfl, [], by simp [WebWorld.put], rfl⟩, get_put i⟩

lemma gives_deleteItem (l : WebLabel) (u : Ident) :
    Gives (deleteItem l u) (fun _ w' => Calm w w' ∧ ∀ uuid, w'.store.items.get uuid =
      if u = uuid then none else w.store.items.get uuid) w :=
  gives_onStore ⟨⟨rfl, rfl, [], by simp [WebWorld.drop], rfl⟩, get_drop u⟩

lemma gives_half (l : WebLabel) (r : Except WebError α) :
    Gives (half l r) (fun a w' => w' = w ∧ r = .ok a) w := by
  refine gives_atom fun e a ha => ?_
  cases hf : e.fault with
  | true => simp [hf] at ha
  | false => exact ⟨rfl, by simpa [hf] using ha⟩

/-- A request that nobody disturbs. -/
lemma gives_request {r : WebRequest} {x : ServerHandler Blob α} {P : α → Db Blob → Prop}
    (h : Gives x P w.server) :
    Gives (request r x) (fun a w' => ∃ s, w' = { w with server := s } ∧ P a s) w := by
  refine gives_bind (gives_half _ _) ?_
  rintro _ w ⟨rfl, -⟩
  refine gives_bind (P := fun answer w' => ∃ s, w' = { w with server := s } ∧ Succeeds P answer s)
    (gives_lift (safe_zoom (fun _ _ _ => rfl) (safe_mono (fun answer s hs => ⟨s, rfl, hs⟩) h) rfl))
    ?_
  rintro answer w' ⟨s, rfl, hs⟩
  refine gives_mono (gives_half _ _) ?_
  rintro a w' ⟨rfl, ha⟩
  cases answer with
  | error e => cases ha
  | ok b =>
    obtain rfl : b = a := by simpa [Except.mapError] using ha
    exact ⟨s, rfl, hs⟩

end Client

/-! ### The pull -/

section Pull

variable {w : WebWorld}

/-- What the loop over the pulled items asks the payloads of. -/
def needed (localItems : List StoredItem) (items : List PullItem) : List (Ident × UInt64) :=
  (items.filter fun i => i.deletedDate.isNone &&
    !(localItems.find? (·.uuid = i.uuid)).any (·.version = asU64 i.version)).map
    fun i => (i.uuid, asU64 i.version)

lemma gives_applyPulled (localItems : List StoredItem) (items : List PullItem) :
    Gives (applyPulled localItems items) (fun need w' => Calm w w' ∧
      need = needed localItems items ∧ ∀ uuid, w'.store.items.get uuid =
        if ∃ i ∈ items, i.uuid = uuid ∧ i.deletedDate.isSome then none
        else w.store.items.get uuid) w := by
  induction items generalizing w with
  | nil => exact gives_pure ⟨.refl w, rfl, by simp⟩
  | cons i items ih =>
    unfold applyPulled
    split
    · next hdel =>
      refine gives_bind (gives_deleteItem _ _) fun _ w₁ h₁ => ?_
      refine gives_bind (gives_emit rfl) fun _ w₂ h₂ => ?_
      refine gives_mono ih fun need w₃ h₃ => ⟨h₁.1.trans (h₂.1.trans h₃.1), ?_, fun uuid => ?_⟩
      · have : i.deletedDate.isNone = false := by simpa using hdel
        rw [h₃.2.1, needed, needed, List.filter_cons_of_neg (by simp [this])]
      · rw [h₃.2.2, h₂.2, h₁.2]
        by_cases hi : i.uuid = uuid
        · simp [hi, hdel]
        · simp [hi]
    · next hlive =>
      have hnone : i.deletedDate.isNone := by simpa using hlive
      refine gives_bind ih fun need w' h => ?_
      have hget : ∀ uuid, w'.store.items.get uuid =
          if ∃ j ∈ i :: items, j.uuid = uuid ∧ j.deletedDate.isSome then none
          else w.store.items.get uuid := fun uuid => by
        rw [h.2.2]
        simp [hlive]
      dsimp only
      split
      · next hheld =>
        refine gives_pure ⟨h.1, ?_, hget⟩
        rw [h.2.1, needed, needed, List.filter_cons_of_neg (by simp [hheld])]
      · next hheld =>
        refine gives_pure ⟨h.1, ?_, hget⟩
        rw [h.2.1, needed, needed, List.filter_cons_of_pos (by simp [hheld, hnone]),
          List.map_cons]

/-- A payload came with the answer. -/
def delivered (r : PayloadResult Blob) : Bool :=
  r.payload.isSome && r.status = .payloadDelivered

lemma gives_storePulled {f : Ident → Option StoredItem} {results : List (PayloadResult Blob)}
    (hf : ∀ r ∈ results, delivered r → f r.uuid = some (pulledItem r)) :
    Gives (storePulled results) (fun _ w' => Calm w w' ∧ ∀ uuid, w'.store.items.get uuid =
      if ∃ r ∈ results, r.uuid = uuid ∧ delivered r then f uuid
      else w.store.items.get uuid) w := by
  induction results generalizing w with
  | nil => exact gives_pure ⟨.refl w, by simp⟩
  | cons r results ih =>
    have ih' : ∀ {w : WebWorld}, Gives (storePulled results) _ w :=
      ih fun r' hr' => hf r' (List.mem_cons_of_mem _ hr')
    -- a payload that was not delivered is left out
    have hskip : delivered r = false → Gives (storePulled results) (fun _ w' => Calm w w' ∧
        ∀ uuid, w'.store.items.get uuid =
          if ∃ r' ∈ r :: results, r'.uuid = uuid ∧ delivered r' then f uuid
          else w.store.items.get uuid) w := fun hno =>
      gives_mono ih' fun _ w' h => ⟨h.1, fun uuid => by rw [h.2]; simp [hno]⟩
    unfold storePulled
    split
    · next hp => exact hskip (by simp [delivered, hp])
    next payload hp =>
    split
    · next hst => exact hskip (by simp [delivered, hst])
    next hst =>
    have hd : delivered r := by simpa [delivered, hp] using hst
    -- one that was is put, whether or not it can be read
    have hput : ∀ us, reported us = [] → ∀ w', Calm w w' → w'.store = w.store →
        Gives (do
          putItem (.putPulled r.uuid) (pulledItem r) (·.pulled r payload)
          emit us
          storePulled results) (fun _ w' => Calm w w' ∧ ∀ uuid, w'.store.items.get uuid =
            if ∃ r' ∈ r :: results, r'.uuid = uuid ∧ delivered r' then f uuid
            else w.store.items.get uuid) w' := by
      intro us hus w' hw' hstore
      refine gives_bind (gives_putItem _ _ _) fun _ w₁ h₁ => ?_
      refine gives_bind (gives_emit hus) fun _ w₂ h₂ => ?_
      refine gives_mono ih' fun _ w₃ h₃ =>
        ⟨hw'.trans (h₁.1.trans (h₂.1.trans h₃.1)), fun uuid => ?_⟩
      rw [h₃.2, h₂.2, h₁.2, hstore]
      by_cases hi : r.uuid = uuid
      · have := hf r List.mem_cons_self hd
        simp [← hi, hd, this, pulledItem]
      · simp [hi, pulledItem]
    refine gives_bind (gives_readMem _) ?_
    rintro dek w rfl
    dsimp only
    split
    · refine gives_bind (P := fun _ w' => Calm w w' ∧ w'.store = w.store)
        (gives_onMem fun _ => ⟨⟨rfl, rfl, [], by simp, rfl⟩, rfl⟩) fun _ w' h => ?_
      exact hput _ (by split <;> rfl) w' h.1 h.2
    · exact hput _ (by split <;> rfl) w (.refl w) rfl

/-- A row as a sync stores it. -/
def pulledRow (r : ItemRow Blob) : StoredItem :=
  ⟨r.uuid, asU64 r.version, asU64 r.encKeyGen, r.deletedDate, r.payload, false⟩

/-- The payload of this version is there to be fetched. -/
def fetches (s : Db Blob) (user : Ident) (t : Ident × UInt64) : Bool :=
  (s.items.get (t.1, user)).any fun r => asU64 r.version = t.2 && r.payload.isSome

lemma delivered_payloadResult (s : Db Blob) (t : Ident × UInt64) :
    delivered (payloadResult t.1 t.2 (s.items.get (t.1, user))) = fetches s user t := by
  rcases hg : s.items.get (t.1, user) with _ | r
  · simp [fetches, hg, payloadResult, delivered]
  · by_cases hv : asU64 r.version = t.2
    · simp [fetches, hg, payloadResult, delivered, hv]
    · simp [fetches, hg, payloadResult, delivered, hv]

lemma payloadResult_uuid (s : Db Blob) (t : Ident × UInt64) :
    (payloadResult t.1 t.2 (s.items.get (t.1, user))).uuid = t.1 := by
  rcases hg : s.items.get (t.1, user) with _ | r
  · rfl
  · have hk : r.uuid = t.1 := congrArg Prod.fst (Table.get_key hg)
    by_cases hv : asU64 r.version = t.2
    · simp [payloadResult, hv, hk]
    · simp [payloadResult, hv, hk]

lemma pulledItem_payloadResult {s : Db Blob} {t : Ident × UInt64} (h : fetches s user t) :
    (s.items.get (t.1, user)).map pulledRow =
      some (pulledItem (payloadResult t.1 t.2 (s.items.get (t.1, user)))) := by
  rcases hg : s.items.get (t.1, user) with _ | r
  · simp [fetches, hg] at h
  · simp only [fetches, hg, Option.any_some, Bool.and_eq_true, decide_eq_true_eq] at h
    simp [payloadResult, h.1, pulledItem, pulledRow]

lemma gives_fetchPayloads (batches : List (List (Ident × UInt64))) :
    Gives (fetchPayloads user batches) (fun _ w' => Calm w w' ∧ ∀ uuid,
      w'.store.items.get uuid =
        if ∃ t ∈ batches.flatten, t.1 = uuid ∧ fetches w.server user t then
          (w.server.items.get (uuid, user)).map pulledRow
        else w.store.items.get uuid) w := by
  induction batches generalizing w with
  | nil => exact gives_pure ⟨.refl w, by simp⟩
  | cons batch batches ih =>
    refine gives_bind (gives_request (gives_syncPullPayloads batch)) ?_
    rintro results w' ⟨s, rfl, rfl, rfl⟩
    refine gives_bind (gives_storePulled
      (f := fun uuid => (w.server.items.get (uuid, user)).map pulledRow) ?_) fun _ w₁ h₁ => ?_
    · intro r hr hd
      obtain ⟨t, -, rfl⟩ := List.mem_map.mp hr
      rw [delivered_payloadResult] at hd
      rw [payloadResult_uuid, pulledItem_payloadResult hd]
    · refine gives_mono ih fun _ w₂ h₂ => ⟨h₁.1.trans h₂.1, fun uuid => ?_⟩
      have hbatch : (∃ r ∈ batch.map fun t =>
          payloadResult t.1 t.2 (w.server.items.get (t.1, user)), r.uuid = uuid ∧ delivered r) ↔
          ∃ t ∈ batch, t.1 = uuid ∧ fetches w.server user t := by
        simp only [List.mem_map, exists_exists_and_eq_and, payloadResult_uuid,
          delivered_payloadResult]
      have hall : (∃ t ∈ (batch :: batches).flatten, t.1 = uuid ∧ fetches w.server user t) ↔
          (∃ t ∈ batch, t.1 = uuid ∧ fetches w.server user t) ∨
            ∃ t ∈ batches.flatten, t.1 = uuid ∧ fetches w.server user t := by
        simp only [List.flatten_cons, List.mem_append, or_and_right, exists_or]
      rw [h₂.2, h₁.1.server, h₁.2]
      simp only [hbatch, hall]
      by_cases hlater : ∃ t ∈ batches.flatten, t.1 = uuid ∧ fetches w.server user t
      · rw [if_pos hlater, if_pos (.inr hlater)]
      · rw [if_neg hlater]
        exact if_congr (or_iff_left hlater).symm rfl rfl

lemma flatten_slices {α : Type} (l : List α) : (slices l).flatten = l := by
  have h : ∀ n, ((List.range n).map fun i => (l.drop (i * 100)).take 100).flatten =
      l.take (n * 100) := by
    intro n
    induction n with
    | zero => simp
    | succ n ih =>
      rw [List.range_succ, List.map_append, List.flatten_append, ih, Nat.succ_mul, List.take_add]
      simp
  rw [slices, h, List.take_of_length_le (by omega)]

end Pull

/-! ### The push -/

section Push

variable {w : WebWorld} {pending : List StoredItem} {results : List PushResult}

lemma gives_settlePushed (results : List PushResult)
    (hnodup : (pending.map (·.uuid)).Nodup) : Gives (settlePushed results pending)
      (fun _ w' => Calm w w' ∧
        (∀ uuid, (∀ i ∈ pending, i.uuid ≠ uuid) →
          w'.store.items.get uuid = w.store.items.get uuid) ∧
        ∀ i ∈ pending, w'.store.items.get i.uuid = some (i.settle results)) w := by
  induction pending generalizing w with
  | nil => exact gives_pure ⟨.refl w, fun _ _ => rfl, by simp⟩
  | cons i pending ih =>
    rw [List.map_cons, List.nodup_cons] at hnodup
    have hne : ∀ j ∈ pending, j.uuid ≠ i.uuid := fun j hj he =>
      hnodup.1 (he ▸ List.mem_map_of_mem hj)
    have huuid : (i.settle results).uuid = i.uuid := rfl
    refine gives_bind (gives_putItem _ _ _) fun _ w₁ h₁ => ?_
    refine gives_mono (ih hnodup.2) fun _ w₂ h₂ => ⟨h₁.1.trans h₂.1, fun uuid hu => ?_, ?_⟩
    · rw [h₂.2.1 uuid fun j hj => hu j (List.mem_cons_of_mem _ hj), h₁.2, huuid,
        if_neg (hu i List.mem_cons_self)]
    · intro j hj
      rcases List.mem_cons.mp hj with rfl | hj
      · rw [h₂.2.1 _ hne, h₁.2, huuid, if_pos rfl]
      · exact h₂.2.2 j hj

lemma reported_conflicts (evs : List ConflictEvent) :
    reported (evs.map .conflictDetected) = evs.map (·.uuid) := by
  rw [reported, List.filterMap_map, ← List.filterMap_eq_map]
  rfl

/-- What the push of the pending items leaves behind. -/
structure AfterPush (user : Ident) (pending : List StoredItem) (w w' : WebWorld)
    (results : List PushResult) : Prop where
  pushed : PushedAll user (pending.map (·.push w.mem.localKeyGen)) w.server w'.server results
  bus : ∃ us, w'.mem.bus = w.mem.bus ++ us ∧
    reported us = (conflictsOf pending results).map (·.uuid)
  others : ∀ uuid, (∀ i ∈ pending, i.uuid ≠ uuid) →
    w'.store.items.get uuid = w.store.items.get uuid
  settled : ∀ i ∈ pending, w'.store.items.get i.uuid = some (i.settle results)

lemma gives_pushPending (hnodup : (pending.map (·.uuid)).Nodup) :
    Gives (pushPending X user pending)
      (fun _ w' => ∃ results, AfterPush user pending w w' results) w := by
  unfold pushPending
  split
  · next hempty =>
    obtain rfl := List.isEmpty_iff.mp hempty
    exact gives_pure ⟨[], ⟨rfl, fun _ _ => rfl, rfl, by simp⟩, ⟨[], by simp, rfl⟩,
      fun _ _ => rfl, by simp⟩
  refine gives_bind (P := fun items w' => w' = w ∧
    items = pending.map (·.push w.mem.localKeyGen)) (gives_onMem fun _ => ⟨rfl, rfl⟩) ?_
  rintro items w ⟨rfl, rfl⟩
  have huuids : ((pending.map (·.push w.mem.localKeyGen)).map (·.uuid)).Nodup := by
    rw [List.map_map]
    exact hnodup
  refine gives_bind (gives_request (gives_syncPushBatch huuids)) ?_
  rintro results w' ⟨s, rfl, hpushed⟩
  refine gives_bind (gives_settlePushed results hnodup) fun _ w₁ h₁ => ?_
  refine gives_onMem fun _ => ⟨results, ?_, ?_, h₁.2.1, h₁.2.2⟩
  · have hs : w₁.server = s := h₁.1.server
    exact hs ▸ hpushed
  · obtain ⟨us, hus, hr⟩ := h₁.1.bus
    refine ⟨us ++ (conflictsOf pending results).map .conflictDetected, ?_, ?_⟩
    · simp [hus]
    · rw [reported_append, hr, List.nil_append, reported_conflicts]

/-- An answer is the only one for its item. -/
lemma find_answer {p : PushResult → Bool} {r : PushResult}
    (hnodup : (results.map (·.uuid)).Nodup) (hr : r ∈ results)
    (hp : ∀ r' ∈ results, p r' → r'.uuid = r.uuid) :
    results.reverse.find? p = if p r then some r else none := by
  have huniq : ∀ r' ∈ results, p r' → r' = r := fun r' hr' h =>
    List.inj_on_of_nodup_map hnodup hr' hr (hp r' hr' h)
  split
  · next h =>
    cases hf : results.reverse.find? p with
    | none => exact absurd h (List.find?_eq_none.mp hf r (List.mem_reverse.mpr hr))
    | some r' =>
      rw [huniq r' (List.mem_reverse.mp (List.mem_of_find?_eq_some hf)) (List.find?_some hf)]
  · next h =>
    refine List.find?_eq_none.mpr fun r' hr' hr'p => h ?_
    rwa [← huniq r' (List.mem_reverse.mp hr') hr'p]

lemma updatedOf_eq {r : PushResult} (hnodup : (results.map (·.uuid)).Nodup) (hr : r ∈ results) :
    updatedOf results r.uuid = if r.status = .success then r.version.map asU64 else none := by
  rw [updatedOf, find_answer hnodup hr fun r' _ h => ?_]
  · by_cases hs : r.status = .success
    · cases hv : r.version <;> simp [hs, hv]
    · simp [hs]
  · simp only [Bool.and_eq_true, decide_eq_true_eq] at h
    exact h.1.1

lemma retargetOf_eq {r : PushResult} (hnodup : (results.map (·.uuid)).Nodup) (hr : r ∈ results) :
    retargetOf results r.uuid = if r.status = .conflict then
      ((r.currentServerState.map (·.version)).or r.version).map asU64 else none := by
  rw [retargetOf, find_answer hnodup hr fun r' _ h => ?_]
  · by_cases hs : r.status = .conflict
    · cases hc : r.currentServerState <;> cases hv : r.version <;> simp [hs, hc, hv]
    · simp [hs]
  · simp only [Bool.and_eq_true, decide_eq_true_eq] at h
    exact h.1.1

lemma mem_conflicts {uuid : Ident} : uuid ∈ (conflictsOf pending results).map (·.uuid) ↔
    ∃ r ∈ results, r.uuid = uuid ∧ r.status = .conflict := by
  simp only [conflictsOf, List.map_map, List.mem_map, List.mem_filter, decide_eq_true_eq,
    Function.comp_apply]
  exact exists_congr fun r => by rw [and_assoc, and_comm (a := r.uuid = uuid)]

end Push

/-! ### What becomes of an item -/

section Item

variable (user : Ident) (w : WebWorld)

/-- The rows that the pull of a sync lists: one page of 100. -/
def pageRows : List (ItemRow Blob) :=
  (itemsAfter w.server user (asI64 w.store.cursor)).take 100

def serverRow (uuid : Ident) : Option (ItemRow Blob) := w.server.items.get (uuid, user)

/-- What the pull of a sync makes of an item. -/
def afterPull (uuid : Ident) : Option StoredItem :=
  let held := w.store.items.get uuid
  match (pageRows user w).find? (·.uuid = uuid) with
  | none => held
  | some r =>
    if r.deletedDate.isSome then none
    else if r.payload.isNone || held.any (·.version = asU64 r.version) then held
    else some (pulledRow r)

variable {user w}

lemma serverRow_of_mem {r : ItemRow Blob} (h : r ∈ pageRows user w) :
    serverRow user w r.uuid = some r := by
  obtain ⟨hr, rfl, -⟩ := mem_itemsAfter.mp (List.mem_of_mem_take h)
  exact Table.get_of_mem hr

/-- An item is listed once. -/
lemma eq_of_listed {r r' : ItemRow Blob} (h : r ∈ pageRows user w) (h' : r' ∈ pageRows user w)
    (hu : r'.uuid = r.uuid) : r' = r := by
  have := serverRow_of_mem h'
  rw [hu, serverRow_of_mem h] at this
  exact (Option.some.inj this).symm

lemma mem_needed {t : Ident × UInt64} :
    t ∈ needed w.store.items.rows ((pageRows user w).map pullItem) ↔
      ∃ r ∈ pageRows user w, r.deletedDate = none ∧
        (w.store.items.get r.uuid).any (·.version = asU64 r.version) = false ∧
        t = (r.uuid, asU64 r.version) := by
  simp only [needed, List.mem_map, List.mem_filter, pullItem, Bool.and_eq_true,
    Option.isNone_iff_eq_none, Bool.not_eq_true']
  constructor
  · rintro ⟨_, ⟨⟨r, hr, rfl⟩, hdel, hheld⟩, rfl⟩
    exact ⟨r, hr, hdel, hheld, rfl⟩
  · rintro ⟨r, hr, hdel, hheld, rfl⟩
    exact ⟨_, ⟨⟨r, hr, rfl⟩, hdel, hheld⟩, rfl⟩

/-- The pull drops what is listed as deleted and stores what it could fetch. -/
lemma afterPull_eq (uuid : Ident) : afterPull user w uuid =
    if ∃ t ∈ needed w.store.items.rows ((pageRows user w).map pullItem),
        t.1 = uuid ∧ fetches w.server user t then (serverRow user w uuid).map pulledRow
    else if ∃ i ∈ (pageRows user w).map pullItem, i.uuid = uuid ∧ i.deletedDate.isSome then none
    else w.store.items.get uuid := by
  unfold afterPull
  cases hf : (pageRows user w).find? (·.uuid = uuid) with
  | none =>
    -- the page does not list the item
    have hno : ∀ r ∈ pageRows user w, r.uuid ≠ uuid := by simpa using List.find?_eq_none.mp hf
    rw [if_neg, if_neg]
    · rintro ⟨_, hi, hu, -⟩
      obtain ⟨r, hr, rfl⟩ := List.mem_map.mp hi
      exact hno r hr hu
    · rintro ⟨t, ht, hu, -⟩
      obtain ⟨r, hr, -, -, rfl⟩ := mem_needed.mp ht
      exact hno r hr hu
  | some r =>
    have hr := List.mem_of_find?_eq_some hf
    obtain rfl : r.uuid = uuid := by simpa using List.find?_some hf
    have hrow := serverRow_of_mem hr
    -- it lists it as a tombstone
    have hdel : (∃ i ∈ (pageRows user w).map pullItem, i.uuid = r.uuid ∧ i.deletedDate.isSome) ↔
        r.deletedDate.isSome := by
      constructor
      · rintro ⟨_, hi, hu, hd⟩
        obtain ⟨r', hr', rfl⟩ := List.mem_map.mp hi
        obtain rfl := eq_of_listed hr hr' hu
        exact hd
      · exact fun hd => ⟨_, List.mem_map_of_mem hr, rfl, hd⟩
    -- or it is asked for, if its version is not the one that is here
    have hneed : (∃ t ∈ needed w.store.items.rows ((pageRows user w).map pullItem),
        t.1 = r.uuid ∧ fetches w.server user t) ↔
        r.deletedDate = none ∧ r.payload.isSome ∧
          (w.store.items.get r.uuid).any (·.version = asU64 r.version) = false := by
      have hfetch : fetches w.server user (r.uuid, asU64 r.version) = r.payload.isSome := by
        have : w.server.items.get (r.uuid, user) = some r := hrow
        simp [fetches, this]
      constructor
      · rintro ⟨_, ht, hu, hfet⟩
        obtain ⟨r', hr', hd, hheld, rfl⟩ := mem_needed.mp ht
        obtain rfl := eq_of_listed hr hr' hu
        exact ⟨hd, hfetch ▸ hfet, hheld⟩
      · rintro ⟨hd, hp, hheld⟩
        exact ⟨_, mem_needed.mpr ⟨r, hr, hd, hheld, rfl⟩, rfl, hfetch.trans hp⟩
    simp only [hdel, hneed, hrow, Option.map_some]
    cases hd : r.deletedDate with
    | some t => simp
    | none =>
      cases hp : r.payload with
      | none => simp
      | some b => cases hheld : (w.store.items.get r.uuid).any (·.version = asU64 r.version) <;> simp

end Item

/-! ### Completeness -/

section Complete

/-- What is compared of an item that is held here. -/
def content (i : StoredItem) : UInt64 × Option Blob := (i.version, i.payload)

/-- The same of a row that is not deleted. -/
def liveContent (r : Option (ItemRow Blob)) : Option (UInt64 × Option Blob) :=
  (r.filter (·.deletedDate.isNone)).map fun r => (asU64 r.version, r.payload)

/-- A conflict of the item was reported since `w`. -/
def ReportedSince (w w' : WebWorld) (uuid : Ident) : Prop :=
  uuid ∈ reported (w'.mem.bus.drop w.mem.bus.length)

variable (user : Ident)

/-- **A complete sync**, as far as one item is concerned: unless a conflict was reported, the
item is here as on the server, and if it was pending its payload is on the server and it is no
longer pending. -/
structure Complete (w w' : WebWorld) (uuid : Ident) : Prop where
  equal : ¬ReportedSince w w' uuid →
    (w'.store.items.get uuid).map content = liveContent (serverRow user w' uuid)
  pushed : ∀ i, w.store.items.get uuid = some i → i.pending → ReportedSince w w' uuid ∨
    ∃ r j, serverRow user w' uuid = some r ∧ r.payload = i.payload ∧
      w'.store.items.get uuid = some j ∧ j.pending = false

/-- **What an item needs for that.** If it is pending, the pull leaves its payload in place or
brings the same; what is pending after the pull may be pushed, and is no deletion that would be
applied; what is not is then as on the server. -/
structure Ready (w : WebWorld) (uuid : Ident) : Prop where
  kept : ∀ i, w.store.items.get uuid = some i → i.pending →
    ∃ j, afterPull user w uuid = some j ∧ j.payload = i.payload
  pushable : ∀ j, afterPull user w uuid = some j → j.pending →
    tooOld (generation w.server user) w.mem.localKeyGen = false ∧
      (accepts (serverRow user w uuid) (asI64 j.version) → j.deletedDate = none)
  same : (∀ j, afterPull user w uuid = some j → j.pending = false) →
    (afterPull user w uuid).map content = liveContent (serverRow user w uuid)

/-- What a sync leaves behind, with what it pushed and the answers. -/
structure Synced (w w' : WebWorld) (pending : List StoredItem) (results : List PushResult) :
    Prop where
  nodup : (pending.map (·.uuid)).Nodup
  mem : ∀ j, j ∈ pending ↔ afterPull user w j.uuid = some j ∧ j.pending
  pushed : PushedAll user (pending.map (·.push w.mem.localKeyGen)) w.server w'.server results
  conflicts : ∀ uuid, ReportedSince w w' uuid ↔
    ∃ r ∈ results, r.uuid = uuid ∧ r.status = .conflict
  others : ∀ uuid, (∀ i ∈ pending, i.uuid ≠ uuid) →
    w'.store.items.get uuid = afterPull user w uuid
  settled : ∀ i ∈ pending, w'.store.items.get i.uuid = some (i.settle results)

variable {user} {w w' : WebWorld} {pending : List StoredItem} {results : List PushResult}
  {uuid : Ident}

/-- What is here after the pull was here before, or it is the server's row. -/
lemma afterPull_cases {j : StoredItem} (h : afterPull user w uuid = some j) :
    j.uuid = uuid ∧ (w.store.items.get uuid = some j ∨
      ∃ r, serverRow user w uuid = some r ∧ j = pulledRow r) := by
  unfold afterPull at h
  cases hf : (pageRows user w).find? (·.uuid = uuid) with
  | none =>
    simp only [hf] at h
    exact ⟨Table.get_key h, .inl h⟩
  | some r =>
    simp only [hf] at h
    obtain rfl : r.uuid = uuid := by simpa using List.find?_some hf
    have hrow := serverRow_of_mem (List.mem_of_find?_eq_some hf)
    split at h
    · cases h
    split at h
    · exact ⟨Table.get_key h, .inl h⟩
    · obtain rfl := Option.some.inj h
      exact ⟨rfl, .inr ⟨r, hrow, rfl⟩⟩

/-- An item that is not pushed. -/
lemma Synced.complete_of_not_pushed (h : Synced user w w' pending results)
    (hno : ∀ j, afterPull user w uuid = some j → j.pending = false) :
    Complete user w w' uuid ↔ Ready user w uuid := by
  have hne : ∀ i ∈ pending, i.uuid ≠ uuid := by
    rintro i hi rfl
    obtain ⟨hget, hpend⟩ := (h.mem i).mp hi
    rw [hno i hget] at hpend
    cases hpend
  have hget := h.others uuid hne
  have hrow : serverRow user w' uuid = serverRow user w uuid := by
    refine h.pushed.others _ fun item hitem he => ?_
    obtain ⟨i, hi, rfl⟩ := List.mem_map.mp hitem
    exact hne i hi (Prod.mk.inj he).1
  have hrep : ¬ReportedSince w w' uuid := by
    rw [h.conflicts]
    rintro ⟨r, hr, hu, -⟩
    have : r.uuid ∈ results.map (·.uuid) := List.mem_map_of_mem hr
    rw [h.pushed.uuids, List.map_map] at this
    obtain ⟨i, hi, hiu⟩ := List.mem_map.mp this
    exact hne i hi (hiu.trans hu)
  constructor
  · -- the pull alone has made it so
    intro hc
    refine ⟨fun i hi hp => ?_, fun j hj hp => ?_, fun _ => ?_⟩
    · obtain hr | ⟨r, j, hr, hpay, hj, -⟩ := hc.pushed i hi hp
      · exact absurd hr hrep
      · rw [hget] at hj
        rw [hrow] at hr
        refine ⟨j, hj, ?_⟩
        rcases (afterPull_cases hj).2 with hheld | ⟨r', hr', rfl⟩
        · rw [hi] at hheld
          rw [Option.some.inj hheld]
        · rw [← hpay, ← Option.some.inj (hr'.symm.trans hr)]
          rfl
    · rw [hno j hj] at hp
      cases hp
    · rw [← hget, ← hrow]
      exact hc.equal hrep
  · intro hr
    refine ⟨fun _ => ?_, fun i hi hp => .inr ?_⟩
    · rw [hget, hrow]
      exact hr.same hno
    · obtain ⟨j, hj, hpay⟩ := hr.kept i hi hp
      -- an edit that is not pending any more has come back with the pull
      have hidle := hno j hj
      rcases (afterPull_cases hj).2 with hheld | ⟨r, hr, rfl⟩
      · rw [hi] at hheld
        rw [← Option.some.inj hheld, hp] at hidle
        cases hidle
      · exact ⟨r, _, hrow.trans hr, hpay, hget.trans hj, hidle⟩

/-- An item that is pushed. -/
lemma Synced.complete_of_pushed (h : Synced user w w' pending results) {j : StoredItem}
    (hj : j ∈ pending) : Complete user w w' j.uuid ↔ Ready user w j.uuid := by
  obtain ⟨hafter, hpend⟩ := (h.mem j).mp hj
  have hheld : w.store.items.get j.uuid = some j := by
    rcases (afterPull_cases hafter).2 with hheld | ⟨r, -, rfl⟩
    · exact hheld
    · cases hpend
  have hnodup : (results.map (·.uuid)).Nodup := by
    rw [h.pushed.uuids, List.map_map]
    exact h.nodup
  obtain ⟨r, hr, hu, hout⟩ := h.pushed.outcome _ (List.mem_map_of_mem hj)
  change r.uuid = j.uuid at hu
  change Outcome _ _ (serverRow user w j.uuid) (serverRow user w' j.uuid) r at hout
  have hupdated : updatedOf results j.uuid =
      if r.status = .success then r.version.map asU64 else none := hu ▸ updatedOf_eq hnodup hr
  have hreported : ReportedSince w w' j.uuid ↔ r.status = .conflict := by
    rw [h.conflicts]
    constructor
    · rintro ⟨r', hr', hu', hs⟩
      rwa [← List.inj_on_of_nodup_map hnodup hr' hr (hu'.trans hu.symm)]
    · exact fun hs => ⟨r, hr, hu, hs⟩
  have hsettled := h.settled j hj
  have hkept : ∀ i, w.store.items.get j.uuid = some i → i.pending →
      ∃ j', afterPull user w j.uuid = some j' ∧ j'.payload = i.payload := by
    intro i hi _
    rw [hheld] at hi
    exact ⟨j, hafter, congrArg _ (Option.some.inj hi)⟩
  have hsame : (∀ j', afterPull user w j.uuid = some j' → j'.pending = false) →
      (afterPull user w j.uuid).map content = liveContent (serverRow user w j.uuid) := by
    intro hno
    rw [hno j hafter] at hpend
    cases hpend
  have hready : Ready user w j.uuid ↔
      tooOld (generation w.server user) w.mem.localKeyGen = false ∧
        (accepts (serverRow user w j.uuid) (asI64 j.version) → j.deletedDate = none) := by
    refine ⟨fun hr => hr.pushable j hafter hpend, fun hr => ⟨hkept, fun j' hj' _ => ?_, hsame⟩⟩
    rw [hafter] at hj'
    rwa [← Option.some.inj hj']
  rw [hready]
  cases hout with
  | tooOld hold hrow hs =>
    -- nothing is said of it, and it stays pending
    refine iff_of_false (fun hc => ?_) fun hr => ?_
    · rcases hc.pushed j hheld hpend with hrep | ⟨_, j', -, -, hj', hidle⟩
      · rw [hreported, hs] at hrep
        cases hrep
      · rw [hsettled] at hj'
        rw [← Option.some.inj hj'] at hidle
        simp [StoredItem.settle, hupdated, hs] at hidle
    · exact Bool.false_ne_true (hr.1.symm.trans hold)
  | conflict hok hno hrow hs _ =>
    -- a conflict is reported
    have hrep : ReportedSince w w' j.uuid := hreported.mpr hs
    exact iff_of_true ⟨fun h => absurd hrep h, fun _ _ _ => .inl hrep⟩
      ⟨hok, fun hyes => absurd (hno.symm.trans hyes) Bool.false_ne_true⟩
  | applied row hok hyes hrow hpayload hdeleted hs hv =>
    -- it is at the server, and is shown unless it is deleted there
    have hrep : ¬ReportedSince w w' j.uuid := fun h => by
      rw [hreported, hs] at h
      cases h
    have hpay : row.payload = j.payload :=
      (Option.map_injective (Option.some_injective _) hpayload).symm
    have hj' : w'.store.items.get j.uuid =
        some { j with version := asU64 row.version, pending := false } := by
      rw [hsettled, StoredItem.settle, hupdated, hs, hv]
      rfl
    constructor
    · refine fun hc => ⟨hok, fun _ => ?_⟩
      have heq := hc.equal hrep
      rw [hj', hrow] at heq
      cases hd : row.deletedDate with
      | none => exact hdeleted.symm.trans hd
      | some t => simp [liveContent, hd] at heq
    · rintro ⟨-, hlive⟩
      have hd : row.deletedDate = none := hdeleted.trans (hlive hyes)
      refine ⟨fun _ => ?_, fun i hi _ => .inr ⟨row, _, hrow, ?_, hj', rfl⟩⟩
      · rw [hj', hrow]
        simp [liveContent, content, hd, hpay]
      · rw [hheld] at hi
        rw [hpay, Option.some.inj hi]

/-- Per item, a sync is complete if the item is ready. -/
lemma Synced.complete_iff (h : Synced user w w' pending results) (uuid : Ident) :
    Complete user w w' uuid ↔ Ready user w uuid := by
  by_cases hex : ∃ j, afterPull user w uuid = some j ∧ j.pending
  · obtain ⟨j, hj, hp⟩ := hex
    obtain rfl := (afterPull_cases hj).1
    exact h.complete_of_pushed ((h.mem j).mpr ⟨hj, hp⟩)
  · refine h.complete_of_not_pushed fun j hj => ?_
    simpa using fun hp => hex ⟨j, hj, hp⟩

end Complete

/-! ### The sync -/

section Sync

variable {w : WebWorld}

/-- The pull and the payloads: what every item is then. -/
lemma Calm.afterPull {w₁ w₂ w₃ : WebWorld} {need : List (Ident × UInt64)} (h₁ : Calm w w₁)
    (hitems : w₁.store.items = w.store.items) (h₂ : Calm w₁ w₂)
    (hneed : need = needed w₁.store.items.rows ((pageRows user w).map pullItem))
    (hdrop : ∀ uuid, w₂.store.items.get uuid =
      if ∃ i ∈ (pageRows user w).map pullItem, i.uuid = uuid ∧ i.deletedDate.isSome then none
      else w₁.store.items.get uuid)
    (hfetch : ∀ uuid, w₃.store.items.get uuid =
      if ∃ t ∈ need, t.1 = uuid ∧ fetches w₂.server user t then
        (w₂.server.items.get (uuid, user)).map pulledRow
      else w₂.store.items.get uuid) (uuid : Ident) :
    w₃.store.items.get uuid = WebSync.afterPull user w uuid := by
  rw [hfetch, hdrop, hneed, hitems, (h₁.trans h₂).server]
  exact (afterPull_eq uuid).symm

lemma nodup_pending (t : Table StoredItem.uuid) :
    ((t.rows.filter (·.pending)).map (·.uuid)).Nodup :=
  t.nodup.sublist (List.filter_sublist.map _)

lemma synced_of_push {w₄ w₅ w₇ : WebWorld} {results : List PushResult} (h₄ : Calm w w₄)
    (hafter : ∀ uuid, w₄.store.items.get uuid = afterPull user w uuid)
    (h₅ : AfterPush user (w₄.store.items.rows.filter (·.pending)) w₄ w₅ results)
    (h₇ : Calm w₅ w₇) (hitems : w₇.store.items = w₅.store.items) :
    Synced user w w₇ (w₄.store.items.rows.filter (·.pending)) results where
  nodup := nodup_pending _
  mem j := by
    rw [List.mem_filter, ← hafter, Table.get_eq_some_iff, and_iff_left rfl]
  pushed := by
    rw [h₇.server, ← h₄.server, ← h₄.gen]
    exact h₅.pushed
  conflicts uuid := by
    obtain ⟨us, hus, hr⟩ := h₄.bus
    obtain ⟨us', hus', hr'⟩ := h₅.bus
    obtain ⟨us'', hus'', hr''⟩ := h₇.bus
    have hdrop : w₇.mem.bus.drop w.mem.bus.length = us ++ us' ++ us'' := by
      rw [hus'', hus', hus, List.append_assoc, List.append_assoc, List.drop_left,
        List.append_assoc]
    rw [ReportedSince, hdrop, reported_append, reported_append, hr, hr', hr'', List.nil_append,
      List.append_nil, mem_conflicts]
  others uuid hne := by
    rw [hitems, h₅.others uuid hne, hafter]
  settled i hi := by
    rw [hitems]
    exact h₅.settled i hi

/-- What the sync leaves behind at its end. -/
lemma gives_syncBody {w₀ : WebWorld} (h₀ : Calm w w₀) (hstore : w₀.store = w.store) :
    Gives (syncBody X user) (fun _ w' => ∃ pending results, Synced user w w' pending results)
      w₀ := by
  refine gives_bind (P := fun state w' => w' = w₀ ∧ state = w.store) (gives_onStore ⟨rfl, hstore⟩)
    ?_
  rintro state w' ⟨hw', rfl⟩
  subst hw'
  refine gives_bind (gives_request (gives_syncPull _)) ?_
  rintro pull w₁ ⟨s, hw₁, hs, hpage⟩
  obtain rfl : w₁ = w' := by rw [hw₁, hs]
  have hlisted : pull.items = (pageRows user w).map pullItem := by
    rw [hpage, h₀.server]
    rfl
  -- what follows the event that may be emitted for a new minimum
  have hrest : ∀ w₁, Calm w w₁ → w₁.store = w.store → Gives (do
      setState ({ · with minEncKeyGen := asU64 pull.minEncKeyGen })
      let localItems ← getItems
      let need ← applyPulled localItems pull.items
      fetchPayloads user (slices need)
      let items ← getItems
      pushPending X user (items.filter (·.pending))
      setState ({ · with cursor := pull.newCursor })
      emit [.syncCompleted])
      (fun _ w' => ∃ pending results, Synced user w w' pending results) w₁ := by
    intro w₁ h₁ hstore₁
    refine gives_bind (gives_setState _) fun _ w₂ h₂ => ?_
    have hitems : w₂.store.items = w.store.items := h₂.2.trans (by rw [hstore₁])
    refine gives_bind (P := fun items w' => w' = w₂ ∧ items = w₂.store.items.rows)
      (gives_onStore ⟨rfl, rfl⟩) ?_
    rintro localItems _ ⟨rfl, rfl⟩
    refine gives_bind (gives_applyPulled _ _) fun need w₃ h₃ => ?_
    refine gives_bind (gives_fetchPayloads _) fun _ w₄ h₄ => ?_
    rw [hlisted] at h₃
    rw [flatten_slices] at h₄
    have hafter := (h₁.trans h₂.1).afterPull hitems h₃.1 h₃.2.1 h₃.2.2 h₄.2
    have hcalm := (h₁.trans h₂.1).trans (h₃.1.trans h₄.1)
    refine gives_bind (P := fun items w' => w' = w₄ ∧ items = w₄.store.items.rows)
      (gives_onStore ⟨rfl, rfl⟩) ?_
    rintro items _ ⟨rfl, rfl⟩
    refine gives_bind (gives_pushPending (nodup_pending _)) fun _ w₅ ⟨results, h₅⟩ => ?_
    refine gives_bind (gives_setState _) fun _ w₆ h₆ => ?_
    refine gives_mono (gives_emit rfl) fun _ w₇ h₇ => ?_
    have hitems₇ : w₇.store.items = w₅.store.items := by rw [h₇.2, h₆.2]
    exact ⟨_, results, synced_of_push hcalm hafter h₅ (h₆.1.trans h₇.1) hitems₇⟩
  dsimp only
  split
  · refine gives_bind (gives_emit rfl) fun _ w₂ h₂ => ?_
    exact hrest w₂ (h₀.trans h₂.1) (h₂.2.trans hstore)
  · exact hrest _ h₀ hstore

lemma gives_requireDek : Gives requireDek (fun _ w' => w' = w) w := by
  refine gives_bind (gives_readMem _) ?_
  rintro dek w rfl
  cases dek with
  | none => exact gives_throw _
  | some dek => exact gives_pure rfl

lemma gives_sync (w : WebWorld) : Gives (sync X user)
    (fun _ w' => ∃ pending results, Synced user w w' pending results) w := by
  refine gives_bind gives_requireDek ?_
  rintro dek w rfl
  refine gives_bind (gives_emit rfl) fun _ w₁ h₁ => ?_
  refine gives_tryCatch (gives_syncBody h₁.1 h₁.2) fun err w₂ => ?_
  have hfailed : Gives (emit [.syncFailed]) _ w₂ := gives_emit rfl
  exact gives_bind hfailed fun _ _ _ => gives_throw _

/-- **Completeness of a sync.** A sync that succeeds while nobody else writes leaves every item as
on the server and has pushed what was pending, the reported conflicts aside, if and only if
every item is ready for it at the start. -/
theorem sync_complete_iff (X : Ext Blob) (user : Ident) (w : WebWorld) :
    Gives (sync X user) (fun _ w' => (∀ uuid, Complete user w w' uuid) ↔ ∀ uuid, Ready user w uuid)
      w := by
  refine gives_mono (gives_sync w) ?_
  rintro _ w' ⟨pending, results, h⟩
  exact forall_congr' h.complete_iff

end Sync

/-! ### A page of many -/

/-- The row of an item that was written once. -/
def written (i : ℕ) : ItemRow Blob :=
  ⟨i, 1, 1, 1, none, some (encrypt (.dek 7) i 1 (.bytes i)), 0, some (i + 1)⟩

/-- A client that holds nothing yet, of an account with 101 items. -/
def manyItems : WebWorld where
  server := ⟨unlocked.server.users, ⟨(List.range 101).map written, by
    have hkey : ItemRow.key ∘ written = fun i => (i, 1) := rfl
    rw [List.map_map, hkey]
    exact List.nodup_range.map fun _ _ h => (Prod.mk.inj h).1⟩⟩
  store := unlocked.store
  mem := unlocked.mem
  past := .nothing

/-- **The last of 101 changed items is left behind** by a sync that succeeds. -/
theorem page_leaves_behind : ∃ w', Ends (sync anyUuid 1).run manyItems (.ok ()) w' ∧
    ¬∀ uuid, Complete 1 manyItems w' uuid := by
  have hrun : (alone calm (sync anyUuid 1).run manyItems).1 = .ok () ∧
      100 ∉ reported ((alone calm (sync anyUuid 1).run manyItems).2.mem.bus.drop 0) ∧
      ((alone calm (sync anyUuid 1).run manyItems).2.store.items.get 100).map content ≠
        liveContent (serverRow 1 (alone calm (sync anyUuid 1).run manyItems).2 100) := by
    decide +kernel
  exact ⟨_, ends_of_alone hrun.1, fun h => hrun.2.2 ((h 100).equal hrun.2.1)⟩


end Vautr.WebSync
