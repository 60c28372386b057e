import Vautr.Handlers

/-!
What pushes and pulls do to the server's tables, whatever others do in between.

No statement of a push touches an account, and the row of an item either stays or becomes
the row that one of the pushed items stands for.
-/

namespace Vautr.Push

open Vautr.Atomic Vautr.Session Vautr.Sql Vautr.Database Vautr.Api Vautr.Server Vautr.Handlers

variable {B α : Type} {X : Ext B} {P P' : ItemRow B → Prop} {s s' : Db B}
  {rely : Stmt → Db B → Db B → Prop}

/-- From `s` to `s'` the accounts stay, and every row of an item stays or becomes one in
`P`. -/
structure Touches (P : ItemRow B → Prop) (s s' : Db B) : Prop where
  users : s'.users = s.users
  items : ∀ k, s'.items.get k = s.items.get k ∨ ∃ r, s'.items.get k = some r ∧ P r

lemma touches_refl (s : Db B) : Touches P s s := ⟨rfl, fun _ => .inl rfl⟩

lemma Touches.mono (hP : ∀ r, P r → P' r) (h : Touches P s s') : Touches P' s s' :=
  ⟨h.users, fun k => (h.items k).imp_right fun ⟨r, hr, hPr⟩ => ⟨r, hr, hP r hPr⟩⟩

/-- A row that was not there before is in `P`. -/
lemma Touches.new (h : Touches P s s') {r : ItemRow B} (hr : r ∈ s'.items.rows)
    (hn : r ∉ s.items.rows) : P r := by
  have hget := Table.get_of_mem hr
  rcases h.items r.key with heq | ⟨r', hr', hP⟩
  · rw [heq] at hget
    exact absurd (Table.get_mem hget) hn
  · rw [hr', Option.some.injEq] at hget
    exact hget ▸ hP

/-- The statement touches only rows in `P`. -/
def Touching (P : ItemRow B → Prop) (ev : DbEv B) : Prop := Touches P ev.pre ev.post

/-! ### `upsert_item_occ` -/

/-- The row is one that the call writes. -/
def Upsert.Wrote (q : Upsert B) (r : ItemRow B) : Prop := ∃ v n, r = q.row v n

lemma wrote_set {q : Upsert B} {r : ItemRow B} (n : ℤ) (hit : q.hits r) :
    Upsert.Wrote q (q.set n r) := by
  simp only [Upsert.hits, Bool.and_eq_true, decide_eq_true_eq] at hit
  exact ⟨r.version + 1, n, by simp [Upsert.set, Upsert.row, hit]⟩

lemma touches_update (q : Upsert B) (n : ℤ) (s : Db B) :
    Touches (Upsert.Wrote q) s { s with items := s.items.update q.hits (q.set n) (q.set_key n) } := by
  refine ⟨rfl, fun k => ?_⟩
  rw [Table.get_update]
  cases hk : s.items.get k with
  | none => exact .inl rfl
  | some r =>
    by_cases hit : q.hits r = true
    · exact .inr ⟨q.set n r, by simp [hit], wrote_set n hit⟩
    · exact .inl (by simp [hit])

lemma touches_insert {q : Upsert B} {n : ℤ} {s : Db B} {items : Table ItemRow.key}
    (hins : s.items.insert (q.row 1 n) = some items) :
    Touches (Upsert.Wrote q) s { s with items } := by
  refine ⟨rfl, fun k => ?_⟩
  rw [Table.get_insert hins]
  split
  · exact .inr ⟨_, rfl, 1, n, rfl⟩
  · exact .inl rfl

lemma touching_updateItem (q : Upsert B) :
    Guarantees rely (Touching (Upsert.Wrote q)) (updateItem q).run :=
  guarantees_statement (fun _ s => touches_refl s) fun _ s => touches_update q _ s

lemma touching_insertItem (q : Upsert B) :
    Guarantees rely (Touching (Upsert.Wrote q)) (insertItem q).run := by
  refine guarantees_statement (fun _ s => touches_refl s) fun _ s => ?_
  cases hins : s.items.insert (q.row 1 (nextSeq s q.userId)) with
  | none => exact touches_refl s
  | some items =>
    by_cases hu : (s.users.get q.userId).isSome = true
    · simp only [hu, if_true]
      exact touches_insert hins
    · simp only [hu]
      exact touches_refl s

lemma touching_upsertItemOcc (isUuid : IsUuid) (q : Upsert B) :
    Guarantees rely (Touching (Upsert.Wrote q)) (upsertItemOcc isUuid q).run :=
  guarantees_upsertItemOcc (fun _ _ s => touches_refl s) (touching_updateItem q) fun _ =>
    touching_insertItem q

/-! ### The handlers -/

/-- The row is one that a push of the item writes. -/
def PushItem.Wrote (user : Ident) (item : PushItem B) (r : ItemRow B) : Prop :=
  ∃ now v n p, item.payload = Option.map some p ∧ r = (item.upsert user now p).row v n

/-- The row is one that the push of the items writes. -/
def WroteOne (user : Ident) (items : List (PushItem B)) (r : ItemRow B) : Prop :=
  ∃ item ∈ items, PushItem.Wrote user item r

/-- **A push** writes nothing but rows of its items. -/
lemma touching_syncPushBatch (req : PushBatchReq B) :
    Guarantees rely (Touching (WroteOne req.userId req.items)) (syncPushBatch X req).run := by
  refine guarantees_syncPushBatch (fun _ _ s => touches_refl s) fun now item hitem p hp =>
    guarantees_mono (fun _ => Touches.mono ?_) (touching_upsertItemOcc X.isUuid _)
  rintro r ⟨v, n, hr⟩
  exact ⟨item, hitem, now, v, n, p, hp, hr⟩

/-! ### Reads -/

/-- The statement changes nothing. -/
def Reading (ev : DbEv B) : Prop := ev.post = ev.pre

lemma reading_select (l : Stmt) (g : Db B → α) :
    Guarantees rely Reading (select l g : Repo B α).run := guarantees_select (fun _ _ _ => rfl) l g

lemma reading_syncPullPayloads (user : Ident) (items : List (Ident × UInt64)) :
    Guarantees rely Reading (syncPullPayloads user items : ServerHandler B _).run := by
  unfold syncPullPayloads
  split
  · exact guarantees_throw_except _
  induction items with
  | nil => exact guarantees_pure_except _
  | cons i rest ih =>
    refine guarantees_bind_except (guarantees_orInternal (reading_select _ _)) fun row =>
      guarantees_bind_except ?_ fun _ => guarantees_pure_except _
    exact ih (by simp at *; omega)

lemma reading_syncPull (user : Ident) (cursor : UInt64) (limit : Option ℕ) :
    Guarantees rely Reading (syncPull user cursor limit : ServerHandler B PullResp).run := by
  refine guarantees_bind_except (guarantees_orInternal (reading_select _ _)) fun gen => ?_
  dsimp only
  split
  · exact guarantees_throw_except _
  refine guarantees_bind_except (guarantees_orInternal (reading_select _ _)) fun minSeq => ?_
  split
  · exact guarantees_throw_except _
  exact guarantees_bind_except (guarantees_orInternal (reading_select _ _))
    fun _ => guarantees_pure_except _

lemma reading_accountStatus (user : Ident) :
    Guarantees rely Reading (accountStatus user : ServerHandler B ℤ).run := by
  refine guarantees_bind_except (guarantees_orInternal (reading_select _ _)) fun row => ?_
  cases row with
  | none => exact guarantees_throw_except _
  | some row => exact guarantees_pure_except _

/-! ### A push that nobody interferes with -/

section Sequential

variable {I J : Db B → Prop} {s : Db B}

/-- The statements of a push keep `J`, and `J` is all that is asked of a state in between. -/
structure Keeps (P : ItemRow B → Prop) (I J : Db B → Prop) : Prop where
  safe : ∀ s, J s → I s
  touch : ∀ s s', J s → Touches P s s' → J s'

lemma Keeps.mono (hP : ∀ r, P r → P' r) (h : Keeps P' I J) : Keeps P I J :=
  ⟨h.safe, fun s s' hs ht => h.touch s s' hs (ht.mono hP)⟩

/-- Whatever else the statements keep. -/
lemma Keeps.and (h : Keeps P I J) (J' : Db B → Prop) (h' : ∀ s s', J' s → Touches P s s' → J' s') :
    Keeps P I (fun s => J s ∧ J' s) :=
  ⟨fun s hs => h.safe s hs.1, fun s s' hs ht => ⟨h.touch s s' hs.1 ht, h' s s' hs.2 ht⟩⟩

lemma Keeps.select (h : Keeps P I J) (hs : J s) {l : Stmt} {g : Db B → α}
    {Q : Except SqlError α → Db B → Prop} (herr : ∀ e, Q (.error e) s) (hok : Q (.ok (g s)) s) :
    Safe I (select l g : Repo B α).run Q s :=
  safe_statement (h.safe s hs) (herr _) fun _ => ⟨h.safe s hs, hok⟩

/-- One row was hit, so the row of the call is written. -/
lemma wrote_of_countP {q : Upsert B} {n : ℤ} (h : s.items.rows.countP q.hits = 1) :
    ∃ r, (s.items.update q.hits (q.set n) (q.set_key n)).get q.key = some r ∧ Upsert.Wrote q r := by
  obtain ⟨r, hr, hit⟩ := List.countP_pos_iff.mp (by omega : 0 < s.items.rows.countP q.hits)
  have hkey : r.key = q.key := by
    simp only [Upsert.hits, Bool.and_eq_true, decide_eq_true_eq] at hit
    simp [ItemRow.key, Upsert.key, hit]
  refine ⟨q.set n r, ?_, wrote_set n hit⟩
  rw [Table.get_update, ← hkey, Table.get_of_mem hr]
  simp [hit]

/-- An `upsert_item_occ` that reports to have written has written. -/
lemma Keeps.upsertItemOcc {q : Upsert B} (h : Keeps (Upsert.Wrote q) I J) (hs : J s)
    (isUuid : IsUuid) :
    Safe I (upsertItemOcc isUuid q).run (fun r s => J s ∧ (r = .ok .updated ∨ r = .ok .recovered →
      ∃ r, s.items.get q.key = some r ∧ Upsert.Wrote q r)) s := by
  unfold Server.upsertItemOcc
  split
  · exact ⟨hs, by simp⟩
  rw [safe_bind_except]
  refine h.select hs (fun _ => ⟨hs, by simp⟩) ?_
  dsimp only
  split
  · exact ⟨hs, by simp⟩
  rw [safe_bind_except]
  refine h.select hs (fun _ => ⟨hs, by simp⟩) ?_
  dsimp only
  rw [safe_bind_except]
  have hupd := h.touch s _ hs (touches_update q (nextSeq s q.userId) s)
  refine safe_statement (h.safe s hs) ⟨hs, by simp⟩ fun _ => ⟨h.safe _ hupd, ?_⟩
  dsimp only
  split
  · next hcount => exact ⟨hupd, fun _ => wrote_of_countP hcount⟩
  split
  · rw [safe_bind_except, safe_attempt]
    refine safe_statement (h.safe _ hupd) ⟨hupd, by simp⟩ fun _ => ?_
    dsimp only
    split
    · exact ⟨h.safe _ hupd, hupd, by simp⟩
    · next items hins =>
      split
      · have hnew := h.touch _ _ hupd (touches_insert hins)
        have hget := (Table.get_insert hins q.key).trans (if_pos rfl)
        exact ⟨h.safe _ hnew, hnew, fun _ => ⟨_, hget, 1, _, rfl⟩⟩
      · exact ⟨h.safe _ hupd, hupd, by simp⟩
  · exact ⟨hupd, by simp⟩

/-- The row with the key `k` is in `P`. -/
def Present (P : ItemRow B → Prop) (k : Ident × Ident) (s : Db B) : Prop :=
  ∃ r, s.items.get k = some r ∧ P r

lemma Present.mono {k : Ident × Ident} (hP : ∀ r, P r → P' r) (h : Present P k s) :
    Present P' k s :=
  let ⟨r, hr, hPr⟩ := h
  ⟨r, hr, hP r hPr⟩

lemma Touches.present {k : Ident × Ident} (h : Touches P s s') (hk : Present P k s) :
    Present P k s' := by
  obtain ⟨r, hr, hPr⟩ := hk
  rcases h.items k with heq | hnew
  · exact ⟨r, heq.trans hr, hPr⟩
  · exact hnew

lemma Keeps.pushedRow (h : Keeps P I J) (hs : J s) (user : Ident) (item : PushItem B) :
    Safe I (pushedRow user item).run (fun _ s' => s' = s) s := by
  unfold Handlers.pushedRow
  rw [safe_bind_except, safe_orInternal]
  refine h.select hs (fun _ => rfl) ?_
  dsimp only [Except.mapError]
  split <;> exact rfl

/-- What `push_item` does with the outcome of the upsert. -/
def afterUpsert (user : Ident) (item : PushItem B) : UpsertOutcome → ServerHandler B PushResult
  | .updated => Handlers.pushedRow user item
  | .recovered => Handlers.pushedRow user item
  | .conflict => do
    let row ← orInternal (getItem item.uuid user)
    return .refused item.uuid .conflict (row.map fun r => ⟨r.version, r.encKeyGen⟩)
  | .epochTooOld => return .refused item.uuid .epochTooOld none

lemma Keeps.outcome {user : Ident} {item : PushItem B} (h : Keeps P I J) (hs : J s)
    (q : UpsertOutcome) {P' : ItemRow B → Prop} :
    (q = .updated ∨ q = .recovered → Present P' (item.uuid, user) s) →
    Safe I (afterUpsert user item q).run (fun r s => J s ∧ ∀ res, r = .ok res →
      res.status = .success → Present P' (item.uuid, user) s) s := by
  intro hq
  have hrow : (q = .updated ∨ q = .recovered) → Safe I (Handlers.pushedRow user item).run
      (fun r s => J s ∧ ∀ res, r = .ok res → res.status = .success →
        Present P' (item.uuid, user) s) s := by
    intro hq'
    refine safe_mono ?_ (h.pushedRow hs user item)
    rintro r _ rfl
    exact ⟨hs, fun _ _ _ => hq hq'⟩
  cases q with
  | updated => exact hrow (.inl rfl)
  | recovered => exact hrow (.inr rfl)
  | conflict =>
    rw [afterUpsert, safe_bind_except, safe_orInternal]
    refine h.select hs (fun _ => ⟨hs, by simp⟩) ⟨hs, ?_⟩
    rintro _ ⟨⟩ hst
    simp [PushResult.refused] at hst
  | epochTooOld =>
    refine ⟨hs, ?_⟩
    rintro _ ⟨⟩ hst
    simp [PushResult.refused] at hst

/-- A push of an item that is reported as success has arrived. -/
lemma Keeps.pushItem {user : Ident} {item : PushItem B} (h : Keeps (PushItem.Wrote user item) I J)
    (hs : J s) (now : ℤ) :
    Safe I (pushItem X user now item).run (fun r s => J s ∧ ∀ res, r = .ok res →
      res.status = .success → Present (PushItem.Wrote user item) (item.uuid, user) s) s := by
  unfold Handlers.pushItem
  rw [safe_bind_except, safe_orInternal]
  refine h.select hs (fun _ => ⟨hs, by simp⟩) ?_
  dsimp only [Except.mapError]
  split
  · refine ⟨hs, ?_⟩
    rintro _ ⟨⟩ hst
    simp [PushResult.refused] at hst
  have hafter : ∀ p, item.payload = Option.map some p → Safe I (orInternal
      (Server.upsertItemOcc X.isUuid (item.upsert user now p)) >>= afterUpsert user item).run
      (fun r s => J s ∧ ∀ res, r = .ok res →
        res.status = .success → Present (PushItem.Wrote user item) (item.uuid, user) s) s := by
    intro p hp
    have hwrote : ∀ r, Upsert.Wrote (item.upsert user now p) r → PushItem.Wrote user item r := by
      rintro r ⟨v, n, hr⟩
      exact ⟨now, v, n, p, hp, hr⟩
    rw [safe_bind_except, safe_orInternal]
    refine safe_mono (fun r s hr => ?_) ((h.mono hwrote).upsertItemOcc hs X.isUuid)
    cases r with
    | error e => exact ⟨hr.1, by simp⟩
    | ok q => exact h.outcome hr.1 q fun hq => Present.mono hwrote (hr.2 (by simpa using hq))
  rcases hp : item.payload with _ | _ | p
  · exact hafter none hp
  · exact ⟨hs, by simp⟩
  · exact hafter (some p) hp

/-- Each item of a push that is reported as success has arrived. -/
lemma Keeps.pushItems {user : Ident} {items : List (PushItem B)} (h : Keeps P I J)
    (hP : ∀ r, WroteOne user items r → P r) (hs : J s) (now : ℤ) :
    Safe I (pushItems X user now items).run (fun r s => J s ∧ ∀ rs, r = .ok rs →
      List.Forall₂ (fun item res => res.status = .success → Present P (item.uuid, user) s) items rs)
      s := by
  induction items generalizing J s with
  | nil =>
    refine ⟨hs, ?_⟩
    rintro _ ⟨⟩
    exact .nil
  | cons item rest ih =>
    have hitem : ∀ r, PushItem.Wrote user item r → P r :=
      fun r hr => hP r ⟨item, List.mem_cons_self, hr⟩
    have hrest : ∀ r, WroteOne user rest r → P r :=
      fun r ⟨i, hi, hr⟩ => hP r ⟨i, List.mem_cons_of_mem _ hi, hr⟩
    unfold Handlers.pushItems
    rw [safe_bind_except]
    refine safe_mono (fun r s hr => ?_) ((h.mono hitem).pushItem hs now)
    cases r with
    | error e => exact ⟨hr.1, by simp⟩
    | ok res =>
      -- the first item stays arrived while the others are pushed
      have hkeep := h.and (fun s => res.status = .success → Present P (item.uuid, user) s)
        fun s s' hJ' ht hst => ht.present (hJ' hst)
      have hfirst : res.status = .success → Present P (item.uuid, user) s :=
        fun hst => Present.mono hitem (hr.2 res rfl hst)
      dsimp only
      rw [safe_bind_except]
      refine safe_mono (fun r s hr => ?_) (ih hkeep hrest ⟨hr.1, hfirst⟩)
      cases r with
      | error e => exact ⟨hr.1.1, by simp⟩
      | ok rs =>
        refine ⟨hr.1.1, ?_⟩
        rintro _ ⟨⟩
        exact .cons hr.1.2 (hr.2 rs rfl)

/-- **A push that nobody interferes with**: each item that is reported as success has
arrived. -/
lemma Keeps.syncPushBatch (h : Keeps P I J) (req : PushBatchReq B)
    (hP : ∀ r, WroteOne req.userId req.items r → P r) (hs : J s) :
    Safe I (syncPushBatch X req).run (fun r s => J s ∧ ∀ rs, r = .ok rs →
      List.Forall₂ (fun item res => res.status = .success →
        Present P (item.uuid, req.userId) s) req.items rs) s := by
  unfold Handlers.syncPushBatch
  split
  · exact ⟨hs, by simp⟩
  · rw [safe_bind_except]
    exact fun e => ⟨h.safe s hs, h.pushItems hP hs e.now⟩

end Sequential

end Vautr.Push
