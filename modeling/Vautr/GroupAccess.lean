import Vautr.Sharing

/-!
Who may write and read a group of the relay, over every interleaving of its requests.

A group's row stays as it was made, so that the admin whom a request has found is still its admin
when the request writes.
-/

namespace Vautr.GroupAccess

open Vautr.Atomic Vautr.Interleave Vautr.Sql Vautr.Database Vautr.Api Vautr.Server Vautr.Underway
open Vautr.Sharing

variable {B : Type}

/-! ### The rows of a group -/

section Rows

variable {R K : Type} [DecidableEq K] {key : R → K} {grp : R → Ident} {g : Ident}

/-- The rows of a table that belong to the group. -/
def rowsOf (grp : R → Ident) (t : Table key) (g : Ident) : List R := t.rows.filter (grp · = g)

lemma rowsOf_insert {t t' : Table key} {r : R} (h : t.insert r = some t') (hr : grp r ≠ g) :
    rowsOf grp t' g = rowsOf grp t g := by
  rw [rowsOf, (Table.insert_eq_some h).2, List.filter_append]
  simp [rowsOf, hr]

omit [DecidableEq K] in
lemma rowsOf_delete {t : Table key} {p : R → Bool} (hp : ∀ r, p r → grp r ≠ g) :
    rowsOf grp (t.delete p) g = rowsOf grp t g := by
  rw [rowsOf, rowsOf, Table.delete, List.filter_filter]
  refine List.filter_congr fun r _ => ?_
  by_cases hr : grp r = g
  · have : p r = false := by simpa using fun h => hp r h hr
    simp [hr, this]
  · simp [hr]

omit [DecidableEq K] in
lemma rowsOf_update {t : Table key} {p : R → Bool} {f : R → R} {hf : ∀ r, key (f r) = key r}
    (hp : ∀ r, p r → grp r ≠ g) (hgrp : ∀ r, grp (f r) = grp r) :
    rowsOf grp (t.update p f hf) g = rowsOf grp t g := by
  simp only [rowsOf, Table.update]
  induction t.rows with
  | nil => rfl
  | cons r rows ih =>
    rw [List.map_cons, List.filter_cons, List.filter_cons, ih]
    cases hr : p r with
    | false => simp
    | true => simp [hgrp, hp r hr]

lemma rowsOf_upsert {t : Table key} {r : R} {f : R → R} {hf : ∀ r, key (f r) = key r}
    (hr : grp r ≠ g) (hkey : ∀ r', key r' = key r → grp r' = grp r)
    (hgrp : ∀ r, grp (f r) = grp r) : rowsOf grp (t.upsert r f hf) g = rowsOf grp t g := by
  unfold Table.upsert
  cases h : t.insert r with
  | some t' => exact rowsOf_insert h hr
  | none => exact rowsOf_update (fun r' hr' => by simp [hkey r' (by simpa using hr'), hr]) hgrp

end Rows

/-- What the relay holds for a group. -/
structure Contents (B : Type) where
  members : List GroupMemberRow
  wrapped : List (GroupWrappedRow B)
  items : List (GroupItemRow B)

def contents (db : SharingDb B) (g : Ident) : Contents B :=
  ⟨rowsOf (·.groupId) db.members g, rowsOf (·.groupId) db.wrapped g,
    rowsOf (·.groupId) db.groupItems g⟩

/-! ### What one statement does -/

/-- The group that the statement may write. -/
def touches : SharingStmt → Option Ident
  | .addGroupMember g _ => some g
  | .removeGroupMember g _ => some g
  | .storeGroupWrappedSik g _ => some g
  | .deleteGroupWrappedSik g _ => some g
  | .replaceGroupWrappedSiks g => some g
  | .addGroupItem g _ => some g
  | .deleteGroupItem g _ => some g
  | _ => none

/-- The groups stay as they are. -/
def Kept (db db' : SharingDb B) : Prop :=
  ∀ g row, db.groups.get g = some row → db'.groups.get g = some row

lemma Kept.refl (db : SharingDb B) : Kept db db := fun _ _ h => h

lemma Kept.trans {db₁ db₂ db₃ : SharingDb B} (h : Kept db₁ db₂) (h' : Kept db₂ db₃) :
    Kept db₁ db₃ := fun g row hg => h' g row (h g row hg)

structure Effect (ev : SharingEv B) : Prop where
  kept : Kept ev.pre ev.post
  others : ∀ g, touches ev.name ≠ some g → contents ev.post g = contents ev.pre g
  absent : ∀ g u, ev.name ≠ .addGroupMember g u → ev.pre.members.get (g, u) = none →
    ev.post.members.get (g, u) = none

lemma effect_same {l : SharingStmt} {e : Env} {db db' : SharingDb B} (hg : db'.groups = db.groups)
    (hm : db'.members = db.members) (hw : db'.wrapped = db.wrapped)
    (hi : db'.groupItems = db.groupItems) : Effect ⟨l, e, db, db'⟩ where
  kept g row h := by simpa [hg] using h
  others g _ := by simp [contents, hm, hw, hi]
  absent g u _ h := by simpa [hm] using h

/-- The admin of the group has been found. -/
def Authed (caller g : Ident) (tr : List (SharingEv B)) : Prop :=
  ∃ ev ∈ tr, ∃ row, ev.post.groups.get g = some row ∧ row.adminUserId = caller

lemma Authed.append {caller g : Ident} {tr : List (SharingEv B)} (h : Authed caller g tr)
    (tr' : List (SharingEv B)) : Authed caller g (tr ++ tr') := by
  obtain ⟨ev, hev, hrest⟩ := h
  exact ⟨ev, List.mem_append_left _ hev, hrest⟩

/-- The caller of a request that writes a group. -/
def caller : Req B → Option Ident
  | .createGroup admin _ => some admin
  | .addGroupMember caller _ _ => some caller
  | .removeGroupMember caller _ _ => some caller
  | .rotateGroup caller _ _ => some caller
  | .addGroupItem caller _ _ _ => some caller
  | .deleteGroupItem caller _ _ => some caller
  | _ => none

/-- The request adds the user to the group. -/
def Adds (g u : Ident) (q : Req B) : Prop :=
  ∃ caller req, q = .addGroupMember caller g req ∧ req.memberUuid = u

/-- What a call has run before a statement. -/
structure Before (q : Req B) (tr : List (SharingEv B)) (ev : SharingEv B) : Prop where
  authed : ∀ g, touches ev.name = some g → ∃ user, caller q = some user ∧ Authed user g tr
  adds : ∀ g u, ev.name = .addGroupMember g u → Adds g u q ∨ Authed u g tr

/-- What is known of each statement of a call. -/
def Known (q : Req B) (tr : List (SharingEv B)) (ev : SharingEv B) : Prop :=
  Effect ev ∧ Before q tr ev

variable {q : Req B} {tr : List (SharingEv B)} {α : Type}

lemma before_none {l : SharingStmt} {e : Env} {db db' : SharingDb B} (hl : touches l = none) :
    Before q tr ⟨l, e, db, db'⟩ where
  authed g h := by simp [hl] at h
  adds g u h := by
    cases h
    cases hl

lemma known_same {l : SharingStmt} (hl : touches l = none) (e : Env) (db : SharingDb B) :
    Known q tr ⟨l, e, db, db⟩ := ⟨effect_same rfl rfl rfl rfl, before_none hl⟩

/-! ### The statements that write a group -/

lemma effect_createGroup (row : GroupRow) (e : Env) (db : SharingDb B) :
    Effect ⟨.createGroup row.id row.adminUserId, e, db, (db.insertGroup row).1⟩ := by
  unfold SharingDb.insertGroup
  cases h : db.groups.insert row with
  | none => exact effect_same rfl rfl rfl rfl
  | some groups =>
    dsimp only
    split
    · refine ⟨fun g row' hg => ?_, fun _ _ => rfl, fun _ _ _ h => h⟩
      have hne : row.id ≠ g := fun he => by
        rw [← he, (Table.insert_eq_some h).1] at hg
        cases hg
      rw [Table.get_insert h, if_neg hne]
      exact hg
    · exact effect_same rfl rfl rfl rfl

lemma effect_addGroupMember (g u : Ident) (e : Env) (db : SharingDb B) :
    Effect ⟨.addGroupMember g u, e, db, (db.insertMember g u).1⟩ := by
  unfold SharingDb.insertMember
  cases h : db.members.insert ⟨g, u⟩ with
  | none => exact effect_same rfl rfl rfl rfl
  | some members =>
    dsimp only
    split
    · refine ⟨fun _ _ h => h, fun g' hg' => ?_, fun g' u' hne hnone => ?_⟩
      · have hne : g ≠ g' := fun he => hg' (by rw [he]; rfl)
        have hrows : rowsOf (·.groupId) members g' = rowsOf (·.groupId) db.members g' :=
          rowsOf_insert h hne
        simp only [contents, hrows]
      · have hkey : (⟨g, u⟩ : GroupMemberRow).key ≠ (g', u') := fun he => hne (by cases he; rfl)
        rw [Table.get_insert h, if_neg hkey]
        exact hnone
    · exact effect_same rfl rfl rfl rfl

lemma effect_removeGroupMember (g u : Ident) (e : Env) (db : SharingDb B) :
    Effect ⟨.removeGroupMember g u, e, db, db.dropMember g u⟩ where
  kept _ _ h := h
  others g' hg' := by
    have : ∀ r : GroupMemberRow, decide (r.key = (g, u)) → r.groupId ≠ g' := by
      rintro r hr rfl
      exact hg' (congrArg some (congrArg Prod.fst (of_decide_eq_true hr)).symm)
    simp only [contents, SharingDb.dropMember, rowsOf_delete this]
  absent g' u' _ h := by simp [SharingDb.dropMember, h]

/-- The keys of another group are left alone. -/
lemma insertWrapped_ok {db db' : SharingDb B} {rows : List (GroupWrappedRow B)}
    (h : db.insertWrapped rows = .ok db') :
    db'.groups = db.groups ∧ db'.members = db.members ∧ db'.groupItems = db.groupItems ∧
    ∀ g, (∀ r ∈ rows, r.groupId ≠ g) →
      rowsOf (·.groupId) db'.wrapped g = rowsOf (·.groupId) db.wrapped g := by
  induction rows generalizing db with
  | nil =>
    cases h
    simp
  | cons row rows ih =>
    rw [SharingDb.insertWrapped] at h
    cases hi : db.wrapped.insert row with
    | none => simp [hi] at h
    | some wrapped =>
      rw [hi] at h
      dsimp only at h
      split at h
      · obtain ⟨hg, hm, hitems, hrows⟩ := ih h
        refine ⟨hg, hm, hitems, fun g hne => ?_⟩
        rw [hrows g fun r hr => hne r (List.mem_cons_of_mem _ hr)]
        exact rowsOf_insert hi (hne row List.mem_cons_self)
      · cases h

lemma effect_replace {g : Ident} {rows : List (GroupWrappedRow B)}
    (hrows : ∀ r ∈ rows, r.groupId = g) (e : Env) (db : SharingDb B) :
    Effect ⟨.replaceGroupWrappedSiks g, e, db, (db.replaceWrapped g rows).1⟩ := by
  unfold SharingDb.replaceWrapped
  cases h : { db with wrapped := db.wrapped.delete (·.groupId = g) : SharingDb B }.insertWrapped
      rows with
  | error err => exact effect_same rfl rfl rfl rfl
  | ok db' =>
    obtain ⟨hg, hm, hitems, hwrapped⟩ := insertWrapped_ok h
    refine ⟨fun g' row hrow => ?_, fun g' hg' => ?_, fun g' u _ hnone => ?_⟩
    · rw [hg]
      exact hrow
    · have hne : g ≠ g' := fun he => hg' (by rw [he]; rfl)
      have hdel : ∀ r : GroupWrappedRow B, decide (r.groupId = g) → r.groupId ≠ g' := by
        rintro r hr rfl
        exact hne (of_decide_eq_true hr).symm
      simp only [contents, hm, hitems,
        hwrapped g' fun r hr => (hrows r hr).symm ▸ hne, rowsOf_delete hdel]
    · rw [hm]
      exact hnone

lemma effect_storeGroupWrappedSik (row : GroupWrappedRow B) (e : Env) (db : SharingDb B) :
    Effect ⟨.storeGroupWrappedSik row.groupId row.recipientUserId, e, db, db.putWrapped row⟩ where
  kept _ _ h := h
  others g hg := by
    have hne : row.groupId ≠ g := fun he => hg (by rw [he]; rfl)
    have hrows : rowsOf (·.groupId) (db.putWrapped row).wrapped g =
        rowsOf (·.groupId) db.wrapped g :=
      rowsOf_upsert hne (fun r hr => congrArg Prod.fst hr) fun _ => rfl
    simp only [contents, hrows]
    rfl
  absent _ _ _ h := h

lemma effect_deleteGroupWrappedSik (g u : Ident) (e : Env) (db : SharingDb B) :
    Effect ⟨.deleteGroupWrappedSik g u, e, db,
      { db with wrapped := db.wrapped.delete (·.key = (g, u)) }⟩ where
  kept _ _ h := h
  others g' hg' := by
    have : ∀ r : GroupWrappedRow B, decide (r.key = (g, u)) → r.groupId ≠ g' := by
      rintro r hr rfl
      exact hg' (congrArg some (congrArg Prod.fst (of_decide_eq_true hr)).symm)
    simp only [contents, rowsOf_delete this]
  absent _ _ _ h := h

lemma effect_addGroupItem (row : GroupItemRow B) (e : Env) (db : SharingDb B) :
    Effect ⟨.addGroupItem row.groupId row.itemUuid, e, db, db.putItem row⟩ where
  kept _ _ h := h
  others g hg := by
    have hne : row.groupId ≠ g := fun he => hg (by rw [he]; rfl)
    have hrows : rowsOf (·.groupId) (db.putItem row).groupItems g =
        rowsOf (·.groupId) db.groupItems g :=
      rowsOf_upsert hne (fun r hr => congrArg Prod.fst hr) fun _ => rfl
    simp only [contents, hrows]
    rfl
  absent _ _ _ h := h

lemma effect_deleteGroupItem (g item : Ident) (e : Env) (db : SharingDb B) :
    Effect ⟨.deleteGroupItem g item, e, db,
      { db with groupItems := db.groupItems.delete (·.key = (g, item)) }⟩ where
  kept _ _ h := h
  others g' hg' := by
    have : ∀ r : GroupItemRow B, decide (r.key = (g, item)) → r.groupId ≠ g' := by
      rintro r hr rfl
      exact hg' (congrArg some (congrArg Prod.fst (of_decide_eq_true hr)).symm)
    simp only [contents, rowsOf_delete this]
  absent _ _ _ h := h

/-! ### Programs that keep what a call has found -/

/-- The program keeps a property of what the call has run. -/
def Keeps (P : List (SharingEv B) → Prop) (q : Req B) {ε : Type}
    (x : ExceptT ε (Prog (SharingDb B) Env SharingStmt) α) : Prop :=
  ∀ tr, P tr → Meets (Known q) x.run (fun _ => P) tr

section Keeps

variable {P : List (SharingEv B) → Prop} {ε β : Type}

lemma keeps_bind {x : ExceptT ε (Prog (SharingDb B) Env SharingStmt) β}
    {f : β → ExceptT ε (Prog (SharingDb B) Env SharingStmt) α} (hx : Keeps P q x)
    (hf : ∀ b, Keeps P q (f b)) : Keeps P q (x >>= f) :=
  fun tr htr => meets_bind_except (hx tr htr) (fun b tr' h => hf b tr' h) fun _ _ h => h

lemma keeps_ret (r : Except ε α) :
    Keeps P q (ExceptT.mk (.ret r) : ExceptT ε (Prog (SharingDb B) Env SharingStmt) α) :=
  fun _ htr => htr

lemma keeps_pure (a : α) :
    Keeps P q (pure a : ExceptT ε (Prog (SharingDb B) Env SharingStmt) α) := fun _ htr => htr

lemma keeps_throw (e : ε) :
    Keeps P q (throw e : ExceptT ε (Prog (SharingDb B) Env SharingStmt) α) := fun _ htr => htr

lemma keeps_orInternal {x : SharingRepo B α} (hx : Keeps P q x) : Keeps P q (orInternal x) :=
  fun tr htr => meets_bind.mpr (meets_mono (fun _ _ h => h) (fun _ _ h => h) (hx tr htr))

lemma keeps_attempt {x : SharingRepo B α} (hx : Keeps P q x) : Keeps P q (attempt x) := by
  intro tr htr
  have : (attempt x).run = x.run >>= fun r => .ret (.ok r) := by
    simp only [attempt, ExceptT.run_lift]
    rfl
  rw [this]
  exact meets_bind.mpr (meets_mono (fun _ _ h => h) (fun _ _ h => h) (hx tr htr))

lemma keeps_decodeB64 (field : Option B) : Keeps P q (decodeB64 field : SharingHandler B B) := by
  cases field with
  | none => exact keeps_throw _
  | some b => exact keeps_pure b

variable (hP : ∀ tr ev, P tr → P (tr ++ [ev]))

include hP

lemma keeps_statement {l : SharingStmt} {f : Env → SharingDb B → SharingDb B × Except SqlError α}
    (hf : ∀ tr, P tr → ∀ e db, Known q tr ⟨l, e, db, db⟩ ∧ Known q tr ⟨l, e, db, (f e db).1⟩) :
    Keeps P q (statement l f) :=
  fun tr htr => meets_statement (fun e db => ⟨(hf tr htr e db).1, hP _ _ htr⟩)
    fun e db => ⟨(hf tr htr e db).2, hP _ _ htr⟩

/-- A statement that does not write a group. -/
lemma keeps_aside {l : SharingStmt} {f : Env → SharingDb B → SharingDb B × Except SqlError α}
    (hl : touches l = none) (hf : ∀ e db, Effect ⟨l, e, db, (f e db).1⟩) :
    Keeps P q (statement l f) :=
  keeps_statement hP fun _ _ e db => ⟨known_same hl e db, hf e db, before_none hl⟩

lemma keeps_read {l : SharingStmt} {f : SharingDb B → α} (hl : touches l = none) :
    Keeps P q (select l f) := keeps_aside hP hl fun _ _ => effect_same rfl rfl rfl rfl

end Keeps

/-! ### The requests -/

/-- A program that does not write a group. -/
abbrev Aside (q : Req B) {ε : Type} (x : ExceptT ε (Prog (SharingDb B) Env SharingStmt) α) : Prop :=
  Keeps (fun _ => True) q x

lemma aside_read {l : SharingStmt} {f : SharingDb B → α} (hl : touches l = none) :
    Aside q (select l f) := keeps_read (fun _ _ h => h) hl

lemma aside_statement {l : SharingStmt} {f : Env → SharingDb B → SharingDb B × Except SqlError α}
    (hl : touches l = none) (hf : ∀ e db, Effect ⟨l, e, db, (f e db).1⟩) :
    Aside q (statement l f) := keeps_aside (fun _ _ h => h) hl hf

/-- A statement that writes tables of its own. -/
lemma aside_write {l : SharingStmt} {f : SharingDb B → SharingDb B} (hl : touches l = none)
    (hf : ∀ db, (f db).groups = db.groups ∧ (f db).members = db.members ∧
      (f db).wrapped = db.wrapped ∧ (f db).groupItems = db.groupItems) :
    Aside q (statement l fun _ db => (f db, .ok ())) :=
  aside_statement hl fun _ db =>
    effect_same (hf db).1 (hf db).2.1 (hf db).2.2.1 (hf db).2.2.2

lemma aside_itemOwner (item : Ident) : Aside q (itemOwner item : SharingRepo B _) := by
  refine keeps_bind (aside_read rfl) fun owner => ?_
  cases owner with
  | some owner => exact keeps_pure _
  | none =>
    refine keeps_bind (aside_read rfl) fun owner => ?_
    cases owner with
    | some owner => exact keeps_pure _
    | none =>
      refine keeps_bind (aside_read rfl) fun rows => ?_
      rcases rows with _ | ⟨single, _ | ⟨next, rows⟩⟩ <;> exact keeps_pure _

lemma aside_pragma (on : Bool) : Aside q (pragma (B := B) on) :=
  aside_write rfl fun _ => ⟨rfl, rfl, rfl, rfl⟩

lemma aside_unchecked {x : SharingRepo B α} (hx : Aside q x) : Aside q (unchecked x) :=
  keeps_bind (aside_pragma false) fun _ => keeps_bind (keeps_attempt hx) fun _ =>
    keeps_bind (keeps_attempt (aside_pragma true)) fun _ => keeps_bind (keeps_ret _) fun _ =>
      keeps_bind (keeps_ret _) fun _ => keeps_pure _

lemma aside_publicKey (user : Ident) : Aside q (publicKey (B := B) user) := by
  refine keeps_bind (keeps_orInternal (aside_read rfl)) fun pk => ?_
  cases pk with
  | none => exact keeps_throw _
  | some pk => exact keeps_pure _

lemma aside_acceptsPath (caller path : Ident) : Aside q (acceptsPath (B := B) caller path) := by
  unfold acceptsPath
  split
  · exact keeps_pure _
  · exact keeps_bind (keeps_orInternal (aside_read rfl)) fun _ => keeps_pure _

lemma aside_upsertSharingPublicKey (user : Ident) (pk : B) :
    Aside q (upsertSharingPublicKey user pk) := by
  refine aside_statement rfl fun _ db => ?_
  dsimp only
  split <;> exact effect_same rfl rfl rfl rfl

lemma aside_putPublicKey (len : B → ℕ) (caller path : Ident) (pk : Option B) :
    Aside q (putPublicKey len caller path pk) := by
  refine keeps_bind (aside_acceptsPath caller path) fun accepted => ?_
  split
  · refine keeps_bind (keeps_decodeB64 pk) fun pk => ?_
    split
    · exact keeps_bind (keeps_orInternal (aside_upsertSharingPublicKey caller pk))
        fun _ => keeps_pure _
    · exact keeps_throw _
  · exact keeps_throw _

lemma aside_createShare (sender : Ident) (req : CreateShareReq B) :
    Aside q (createShare sender req) := by
  refine keeps_bind (keeps_orInternal (aside_itemOwner req.itemUuid)) fun owner => ?_
  split
  · exact keeps_bind (keeps_decodeB64 _) fun _ => keeps_bind (keeps_decodeB64 _) fun _ =>
      keeps_bind (keeps_orInternal (aside_unchecked
        (aside_write rfl fun _ => ⟨rfl, rfl, rfl, rfl⟩))) fun _ => keeps_pure _
  · exact keeps_throw _

lemma aside_requireShareOwner (owner share : Ident) :
    Aside q (requireShareOwner (B := B) owner share) := by
  refine keeps_bind (keeps_orInternal (aside_read rfl)) fun owned => ?_
  split
  · exact keeps_pure _
  · exact keeps_throw _

lemma aside_ensurePayloadTable : Aside q (ensurePayloadTable (B := B)) :=
  aside_write rfl fun _ => ⟨rfl, rfl, rfl, rfl⟩

lemma aside_uploadPayload (owner share : Ident) (payload : Option B) :
    Aside q (uploadPayload owner share payload) :=
  keeps_bind (aside_requireShareOwner owner share) fun _ => keeps_bind (keeps_decodeB64 _) fun _ =>
    keeps_bind (keeps_orInternal (keeps_bind aside_ensurePayloadTable fun _ =>
      aside_write rfl fun _ => ⟨rfl, rfl, rfl, rfl⟩)) fun _ => keeps_pure _

lemma aside_inboxItems (shares : List (ShareRow B)) : Aside q (inboxItems shares) := by
  induction shares with
  | nil => exact keeps_pure _
  | cons s rest ih =>
    exact keeps_bind (keeps_orInternal (keeps_bind aside_ensurePayloadTable fun _ =>
      aside_read rfl)) fun _ => keeps_bind ih fun _ => keeps_pure _

lemma aside_revokeShare (owner share : Ident) : Aside q (revokeShare (B := B) owner share) :=
  keeps_bind (aside_requireShareOwner owner share) fun _ =>
    keeps_bind (keeps_orInternal (aside_unchecked
      (aside_write rfl fun _ => ⟨rfl, rfl, rfl, rfl⟩))) fun _ =>
    keeps_bind (keeps_orInternal (keeps_bind aside_ensurePayloadTable fun _ =>
      aside_write rfl fun _ => ⟨rfl, rfl, rfl, rfl⟩)) fun _ => keeps_pure _

lemma keeps_groupInboxItems {P : List (SharingEv B) → Prop}
    (hP : ∀ tr ev, P tr → P (tr ++ [ev])) (user : Ident) (groups : List GroupRow) :
    Keeps P q (groupInboxItems user groups) := by
  induction groups with
  | nil => exact keeps_pure _
  | cons g rest ih =>
    exact keeps_bind (keeps_orInternal (keeps_read hP rfl)) fun _ => keeps_bind ih fun _ =>
      keeps_pure _

/-! ### The requests of an admin -/

lemma meets_requireAdmin (g user : Ident) :
    Meets (Known q) (requireAdmin g user : SharingHandler B Unit).run
      (fun r tr => r = .ok () → Authed user g tr) tr := by
  refine meets_bind_except (P := fun r tr' => ∀ group, r = .ok (some group) →
    ∃ ev ∈ tr', ev.post.groups.get g = some group) ?_ ?_ (by simp)
  · refine meets_bind.mpr (meets_select (fun e db => known_same rfl e db) ?_ ?_)
    · rintro e db group ⟨⟩
    · intro e db group hgroup
      have hgroup : (.ok (db.groups.get g) : Except ApiError _) = .ok (some group) := hgroup
      exact ⟨⟨.getGroup g, e, db, db⟩, by simp, Except.ok.inj hgroup⟩
  · intro group tr' hfound
    cases group with
    | none => exact fun h => by cases h
    | some group =>
      dsimp only
      split
      · next hadmin =>
        obtain ⟨ev, hev, hpost⟩ := hfound group rfl
        exact fun _ => ⟨ev, hev, group, hpost, hadmin⟩
      · exact fun h => by cases h

/-- What an admin's request does once the admin has been found. -/
lemma meets_admin {g user : Ident} {x : SharingHandler B α}
    {Q : Except ApiError α → List (SharingEv B) → Prop} (herr : ∀ e tr, Q (.error e) tr)
    (hx : ∀ tr, Authed user g tr → Meets (Known q) x.run Q tr) :
    Meets (Known q) (requireAdmin g user >>= fun _ => x).run Q tr :=
  meets_bind_except (meets_requireAdmin g user) (fun _ tr htr => hx tr (htr rfl))
    fun e tr _ => herr e tr

variable {g user : Ident}

lemma known_authed {l : SharingStmt} {e : Env} {db db' : SharingDb B}
    (hcaller : caller q = some user) (hl : touches l = some g)
    (hadds : ∀ u, l = .addGroupMember g u → Adds g u q ∨ u = user)
    (heff : Effect ⟨l, e, db, db'⟩) (htr : Authed user g tr) : Known q tr ⟨l, e, db, db'⟩ := by
  refine ⟨heff, fun g' hg' => ?_, fun g' u hu => ?_⟩
  · obtain rfl := Option.some.inj (hl.symm.trans hg')
    exact ⟨user, hcaller, htr⟩
  · obtain rfl : g = g' := by
      rw [show l = .addGroupMember g' u from hu] at hl
      exact (Option.some.inj hl).symm
    exact (hadds u hu).imp_right fun h : u = user => h ▸ htr

lemma keeps_authed {l : SharingStmt} {f : Env → SharingDb B → SharingDb B × Except SqlError α}
    (hcaller : caller q = some user) (hl : touches l = some g)
    (hadds : ∀ u, l = .addGroupMember g u → Adds g u q ∨ u = user)
    (hf : ∀ e db, Effect ⟨l, e, db, (f e db).1⟩) : Keeps (Authed user g) q (statement l f) :=
  keeps_statement (fun _ ev h => h.append [ev]) fun _ htr e db =>
    ⟨known_authed hcaller hl hadds (effect_same rfl rfl rfl rfl) htr,
      known_authed hcaller hl hadds (hf e db) htr⟩

lemma keeps_addGroupMemberRow {u : Ident} (hcaller : caller q = some user)
    (hadds : Adds g u q ∨ u = user) : Keeps (Authed user g) q (addGroupMemberRow (B := B) g u) :=
  keeps_authed hcaller rfl (fun _ h => by cases h; exact hadds) fun e db =>
    effect_addGroupMember g u e db

lemma insertGroup_ok {db : SharingDb B} {row : GroupRow} (h : (db.insertGroup row).2 = .ok ()) :
    (db.insertGroup row).1.groups.get row.id = some row := by
  unfold SharingDb.insertGroup at h ⊢
  cases hi : db.groups.insert row with
  | none => simp [hi] at h
  | some groups =>
    simp only [hi] at h ⊢
    split at h
    · next hu =>
      rw [if_pos hu, Table.get_insert hi, if_pos rfl]
    · cases h

lemma meets_createGroup (admin : Ident) (name : String)
    {Q : Except ApiError GroupRow → List (SharingEv B) → Prop} (hQ : ∀ r tr, Q r tr) :
    Meets (Known (.createGroup admin name)) (createGroup admin name : SharingHandler B _).run Q
      [] := by
  refine meets_bind_except (P := fun _ _ => True) (meets_atom fun e db =>
    ⟨known_same rfl e db, trivial⟩) (fun gid tr _ => ?_) fun e tr _ => hQ _ tr
  refine meets_bind_except (P := fun r tr => r = .ok () → Authed admin gid tr) ?_ ?_
    fun e tr _ => hQ _ tr
  · refine meets_bind.mpr (meets_statement (fun e db => ⟨known_same rfl e db, fun h => by cases h⟩)
      fun e db => ⟨⟨effect_createGroup _ e db, before_none rfl⟩, fun h => ?_⟩)
    have hok : (db.insertGroup ⟨gid, name, admin⟩).2 = .ok () := by
      cases hr : (db.insertGroup ⟨gid, name, admin⟩).2 with
      | ok a => rfl
      | error err => simp [hr, Except.mapError] at h
    exact ⟨_, List.mem_append_right _ (List.mem_singleton_self _), _, insertGroup_ok hok, rfl⟩
  · intro _ tr htr
    exact meets_bind_except
      (keeps_orInternal (keeps_addGroupMemberRow rfl (.inr rfl)) tr (htr rfl))
      (fun _ tr _ => hQ _ tr) fun e tr _ => hQ _ tr

lemma meets_admin_keeps {x : SharingHandler B α} (hx : Keeps (Authed user g) q x) :
    Meets (Known q) (requireAdmin g user >>= fun _ => x).run (fun _ _ => True) tr :=
  meets_admin (fun _ _ => trivial) fun tr htr =>
    meets_mono (fun _ _ h => h) (fun _ _ _ => trivial) (hx tr htr)

/-- The keys of a rotation are the group's. -/
lemma meets_decodeWrapped (keys : List (WrappedKeyJson B)) :
    Meets (Known q) (decodeWrapped g keys).run (fun r tr' => tr' = tr ∧
      ∀ rows, r = .ok rows → ∀ row ∈ rows, row.groupId = g) tr := by
  induction keys with
  | nil => exact ⟨rfl, fun rows h => by cases h; simp⟩
  | cons k rest ih =>
    have hdecode : ∀ field : Option B, Meets (Known q) (decodeB64 field : SharingHandler B B).run
        (fun _ tr' => tr' = tr) tr := fun field => by cases field <;> rfl
    refine meets_bind_except (hdecode k.wrappedSik) ?_ fun e tr' h => ⟨h, by simp⟩
    rintro ws tr' rfl
    refine meets_bind_except (hdecode k.ephemeralPublicKey) ?_ fun e tr' h => ⟨h, by simp⟩
    rintro pk tr' rfl
    refine meets_bind_except ih ?_ fun e tr' h => ⟨h.1, by simp⟩
    rintro rows tr' ⟨rfl, hrows⟩
    refine ⟨rfl, fun rows' h => ?_⟩
    cases h
    exact List.forall_mem_cons.mpr ⟨rfl, hrows rows rfl⟩

/-- The inbox shows one entry for each group that was listed. -/
lemma meets_groupInboxItems (user : Ident) (groups : List GroupRow) {q : Req B}
    {tr : List (SharingEv B)} :
    Meets (Known q) (groupInboxItems user groups : SharingHandler B _).run
      (fun r _ => ∀ items, r = .ok items → items.map (·.groupId) = groups.map (·.id)) tr := by
  induction groups generalizing tr with
  | nil => exact fun items h => by cases h; rfl
  | cons g rest ih =>
    refine meets_bind_except (P := fun _ _ => True) (keeps_orInternal (aside_read rfl) _ trivial)
      (fun wrapped tr' _ => ?_) (by simp)
    refine meets_bind_except ih (fun items tr'' h => ?_) (by simp)
    intro items' h'
    cases h'
    simp [h items rfl]

/-! ### What an answered call has found -/

/-- What is known of an answered call. -/
def Answers : Req B → Reply B → List (SharingEv B) → Prop
  | .removeGroupMember caller g u, .done (.ok ()), tr => Authed caller g tr ∧
    ∃ ev ∈ tr, ev.name = .removeGroupMember g u ∧ ev.post.members.get (g, u) = none
  | .listGroupItems caller g, .items (.ok _), tr =>
    ∃ ev ∈ tr, (ev.pre.members.get (g, caller)).isSome
  | .groupInbox user, .groupInbox (.ok items), tr =>
    ∃ ev ∈ tr, ∀ item ∈ items, (ev.pre.members.get (item.groupId, user)).isSome
  | _, _, _ => True

lemma meets_removeGroupMember (user g u : Ident) :
    Meets (Known (B := B) (.removeGroupMember user g u)) (removeGroupMember user g u).run
      (fun r tr => r = .ok () → Authed user g tr ∧
        ∃ ev ∈ tr, ev.name = .removeGroupMember g u ∧ ev.post.members.get (g, u) = none) [] := by
  refine meets_admin (by simp) fun tr htr => ?_
  refine meets_bind_except (P := fun r tr => r = .ok () → Authed user g tr ∧
    ∃ ev ∈ tr, ev.name = .removeGroupMember g u ∧ ev.post.members.get (g, u) = none) ?_ ?_
    (by simp)
  · refine meets_bind.mpr (meets_statement (fun e db => ⟨known_authed rfl rfl (by simp)
      (effect_same rfl rfl rfl rfl) htr, fun h => by cases h⟩) fun e db => ⟨known_authed rfl rfl
        (by simp) (effect_removeGroupMember g u e db) htr, fun _ => ?_⟩)
    refine ⟨htr.append _, _, List.mem_append_right _ (List.mem_singleton_self _), rfl, ?_⟩
    simp only [SharingDb.dropMember, Table.get_delete]
    cases hm : db.members.get (g, u) with
    | none => rfl
    | some m => simp [Table.get_key hm]
  · intro _ tr htr
    obtain ⟨hauthed, ev, hev, hrest⟩ := htr rfl
    have hkeeps : Keeps (fun tr => Authed user g tr ∧ ev ∈ tr) (.removeGroupMember user g u)
        (orInternal (deleteGroupWrappedSik (B := B) g u)) :=
      keeps_orInternal (keeps_statement (fun tr ev' h => ⟨h.1.append _, by simp [h.2]⟩)
        fun tr htr e db => ⟨known_authed rfl rfl (by simp) (effect_same rfl rfl rfl rfl) htr.1,
          known_authed rfl rfl (by simp) (effect_deleteGroupWrappedSik g u e db) htr.1⟩)
    exact meets_mono (fun _ _ h => h) (fun _ tr h _ => ⟨h.1, ev, h.2, hrest⟩)
      (hkeeps tr ⟨hauthed, hev⟩)

lemma meets_listGroupItems (user g : Ident) {q : Req B} :
    Meets (Known q) (listGroupItems user g).run
      (fun r tr => ∀ rows, r = .ok rows → ∃ ev ∈ tr, (ev.pre.members.get (g, user)).isSome) [] := by
  refine meets_bind_except (P := fun r tr => r = .ok true →
    ∃ ev ∈ tr, (ev.pre.members.get (g, user)).isSome) ?_ (fun member tr hmember => ?_) (by simp)
  · refine meets_bind.mpr (meets_select (fun e db => known_same rfl e db) (fun e db h => by cases h)
      fun e db h => ?_)
    have h : (.ok (db.members.get (g, user)).isSome : Except ApiError _) = .ok true := h
    exact ⟨⟨.isGroupMember g user, e, db, db⟩, by simp, Except.ok.inj h⟩
  · cases member with
    | false => exact fun rows h => by cases h
    | true =>
      obtain ⟨ev, hev, hrest⟩ := hmember rfl
      have hkeeps : Keeps (fun tr => ev ∈ tr) q (orInternal (listGroupItemRows (B := B) g)) :=
        keeps_orInternal (keeps_read (fun tr ev' h => by simp [h]) rfl)
      exact meets_mono (fun _ _ h => h) (fun _ tr h _ _ => ⟨ev, h, hrest⟩) (hkeeps tr hev)

lemma meets_groupInbox (user : Ident) {q : Req B} :
    Meets (Known q) (groupInbox user).run (fun r tr => ∀ items, r = .ok items →
      ∃ ev ∈ tr, ∀ item ∈ items, (ev.pre.members.get (item.groupId, user)).isSome) [] := by
  refine meets_bind_except (P := fun r tr => ∀ groups, r = .ok groups →
    ∃ ev ∈ tr, ∀ group ∈ groups, (ev.pre.members.get (group.id, user)).isSome) ?_
    (fun groups tr hgroups => ?_) (by simp)
  · refine meets_bind.mpr (meets_select (fun e db => known_same rfl e db)
      (fun e db _ h => by cases h) fun e db groups h => ?_)
    cases h
    refine ⟨⟨.listGroupsForMember user, e, db, db⟩, by simp, fun group hgroup => ?_⟩
    obtain ⟨m, hm, hget⟩ := List.mem_filterMap.mp hgroup
    obtain ⟨hm, huser⟩ := List.mem_filter.mp hm
    have hkey : m.key = (group.id, user) := by
      rw [Table.get_key hget, ← of_decide_eq_true huser]
      rfl
    rw [← hkey, Table.get_of_mem hm]
    rfl
  · obtain ⟨ev, hev, hrest⟩ := hgroups groups rfl
    have hkeeps : Keeps (fun tr => ev ∈ tr) q (groupInboxItems user groups) :=
      keeps_groupInboxItems (fun tr ev' h => by simp [h]) user groups
    refine meets_mono (fun _ _ h => h) (fun r tr h items hitems => ⟨ev, h.1, fun item hitem => ?_⟩)
      (meets_and (hkeeps tr hev) (meets_groupInboxItems user groups))
    have : item.groupId ∈ groups.map (·.id) := h.2 items hitems ▸ List.mem_map_of_mem hitem
    obtain ⟨group, hgroup, heq⟩ := List.mem_map.mp this
    exact heq ▸ hrest group hgroup

/-- A request that does not write a group. -/
lemma meets_aside {x : SharingHandler B α} {f : Except ApiError α → Reply B}
    (hx : Aside q x) (hf : ∀ r tr, Answers q (f r) tr) :
    Meets (Known q) (x.run >>= fun r => pure (f r)) (Answers q) [] :=
  meets_bind.mpr (meets_mono (fun _ _ h => h) (fun r tr _ => hf r tr) (hx [] trivial))

lemma meets_addGroupMember (user g : Ident) (req : AddMemberReq B) :
    Meets (Known (.addGroupMember user g req)) (addGroupMember user g req).run (fun _ _ => True)
      [] :=
  meets_admin_keeps (keeps_bind (keeps_decodeB64 _) fun ws => keeps_bind (keeps_decodeB64 _)
    fun pk => keeps_bind (keeps_orInternal (keeps_addGroupMemberRow rfl (.inl ⟨_, _, rfl, rfl⟩)))
      fun _ => keeps_orInternal (keeps_authed rfl rfl (fun _ h => by cases h) fun e db => by
        dsimp only
        split
        · exact effect_storeGroupWrappedSik ⟨g, req.memberUuid, ws, pk⟩ e db
        · exact effect_same rfl rfl rfl rfl))

lemma meets_rotateGroup (user g : Ident) (keys : List (WrappedKeyJson B)) :
    Meets (Known (.rotateGroup user g keys)) (rotateGroup user g keys).run (fun _ _ => True)
      [] := by
  refine meets_admin (fun _ _ => trivial) fun tr htr => ?_
  refine meets_bind_except (meets_decodeWrapped keys) ?_ fun _ _ _ => trivial
  rintro rows tr' ⟨rfl, hrows⟩
  have hkeeps : Keeps (Authed user g) (.rotateGroup user g keys)
      (orInternal (replaceGroupWrappedSiks g rows)) :=
    keeps_orInternal (keeps_authed rfl rfl (fun _ h => by cases h)
      (effect_replace (hrows rows rfl)))
  exact meets_mono (fun _ _ h => h) (fun _ _ _ => trivial) (hkeeps tr' htr)

lemma meets_addGroupItem (user g item : Ident) (payload : Option B) :
    Meets (Known (.addGroupItem user g item payload)) (addGroupItem user g item payload).run
      (fun _ _ => True) [] :=
  meets_admin_keeps (keeps_bind (keeps_decodeB64 _) fun payload => keeps_bind
    (keeps_orInternal (keeps_authed rfl rfl (fun _ h => by cases h) fun e db => by
      dsimp only
      split
      · exact effect_addGroupItem ⟨g, item, payload⟩ e db
      · exact effect_same rfl rfl rfl rfl)) fun _ => keeps_pure _)

lemma meets_deleteGroupItem (user g item : Ident) :
    Meets (Known (B := B) (.deleteGroupItem user g item)) (deleteGroupItem user g item).run
      (fun _ _ => True) [] :=
  meets_admin_keeps (keeps_orInternal (keeps_authed rfl rfl (fun _ h => by cases h)
    (effect_deleteGroupItem g item)))

/-- **What every request is known of.** -/
theorem meets_code (len : B → ℕ) (q : Req B) : Meets (Known q) (code len q) (Answers q) [] := by
  cases q with
  | publicKey user => exact meets_aside (aside_publicKey user) fun _ _ => trivial
  | putPublicKey caller path pk =>
    exact meets_aside (aside_putPublicKey len caller path pk) fun _ _ => trivial
  | createShare sender req => exact meets_aside (aside_createShare sender req) fun _ _ => trivial
  | uploadPayload owner share payload =>
    exact meets_aside (aside_uploadPayload owner share payload) fun _ _ => trivial
  | inbox recipient =>
    exact meets_aside (keeps_bind (keeps_orInternal (aside_read rfl)) aside_inboxItems)
      fun _ _ => trivial
  | revokeShare owner share => exact meets_aside (aside_revokeShare owner share) fun _ _ => trivial
  | createGroup admin name =>
    exact meets_bind.mpr (meets_createGroup admin name fun _ _ => trivial)
  | addGroupMember user g req =>
    exact meets_bind.mpr (meets_addGroupMember user g req)
  | removeGroupMember user g u =>
    refine meets_bind.mpr (meets_mono (fun _ _ h => h) (fun r tr h => ?_)
      (meets_removeGroupMember user g u))
    cases r with
    | error err => exact trivial
    | ok a => exact h rfl
  | rotateGroup user g keys => exact meets_bind.mpr (meets_rotateGroup user g keys)
  | groupInbox user =>
    refine meets_bind.mpr (meets_mono (fun _ _ h => h) (fun r tr h => ?_) (meets_groupInbox user))
    cases r with
    | error err => exact trivial
    | ok items => exact h items rfl
  | addGroupItem user g item payload =>
    exact meets_bind.mpr (meets_addGroupItem user g item payload)
  | listGroupItems user g =>
    refine meets_bind.mpr (meets_mono (fun _ _ h => h) (fun r tr h => ?_)
      (meets_listGroupItems user g))
    cases r with
    | error err => exact trivial
    | ok rows => exact h rows rfl
  | deleteGroupItem user g item => exact meets_bind.mpr (meets_deleteGroupItem user g item)
  | outside users owners =>
    exact meets_atom fun e db => ⟨⟨effect_same rfl rfl rfl rfl, before_none rfl⟩, trivial⟩

/-! ### Every run -/

abbrev SharingSys (B : Type) := Sys (Req B) (SharingDb B) Env SharingStmt (Reply B)

abbrev SharingCall (B : Type) := Call (Req B) (SharingDb B) Env SharingStmt (Reply B)

abbrev SharingAct (B : Type) := Act (Req B) Env

variable (len : B → ℕ) (db : SharingDb B)

/-- **Only its admin writes a group**: whatever a call does to the members, the wrapped keys or the
items of a group, the call is its admin's, and that admin remains the group's. -/
theorem group_is_admins (as : List (Act (Req B) Env)) :
    ∀ c ∈ (run (code len) (init db) as).calls, ∀ ev ∈ c.trace, ∀ g,
      contents ev.post g ≠ contents ev.pre g →
      ∃ row, ev.pre.groups.get g = some row ∧ caller c.req = some row.adminUserId ∧
        (run (code len) (init db) as).shared.groups.get g = some row := by
  intro c hc ev hev g hne
  obtain ⟨hpost, hsplit⟩ := run_known (T := Kept) (meets_code len) (fun _ _ _ h => h.1.kept)
    Kept.refl (fun _ _ _ => Kept.trans) db as c hc
  obtain ⟨tr, rest, htr⟩ := List.append_of_mem hev
  obtain ⟨⟨heff, hbefore⟩, hle⟩ := hsplit tr ev rest htr
  have htouch : touches ev.name = some g := by
    by_contra h
    exact hne (heff.others g h)
  obtain ⟨user, hcaller, ev', hev', row, hrow, rfl⟩ := hbefore.authed g htouch
  have hpre := hle ev' hev' g row hrow
  exact ⟨row, hpre, hcaller, hpost ev hev g row (heff.kept g row hpre)⟩

/-- A group of users 1 and 2, of which 1 is the admin. -/
def twoMembers : SharingDb ℕ where
  users := ⟨[⟨1, 11⟩, ⟨2, 12⟩], by decide⟩
  owners := ⟨[], [], []⟩
  publicKeys := .empty
  shares := .empty
  payloads := .empty
  groups := .single ⟨7, "group", 1⟩
  members := ⟨[⟨7, 1⟩, ⟨7, 2⟩], by decide⟩
  wrapped := .empty
  groupItems := .single ⟨7, 5, 0⟩

/-- The statements of the `i`-th call run, without a fault. -/
def finish (i : ℕ) : List (SharingAct ℕ) := List.replicate 3 (.exec i ⟨0, 0, false⟩)

/-- The admin deletes an item. -/
theorem admin_deletes : ∃ row, (run (code id) (init twoMembers) (.call (.deleteGroupItem 1 7 5) ::
    finish 0)).shared.groups.get 7 = some row ∧ row.adminUserId = 1 := by
  obtain ⟨c, hc, hreq⟩ := Option.map_eq_some_iff.mp (req_of_call (h := code id) (init twoMembers)
    [] (finish 0) (.deleteGroupItem 1 7 5))
  have hdeletes : ∀ c ∈ (run (code id) (init twoMembers) (.call (.deleteGroupItem 1 7 5) ::
      finish 0)).calls[0]?, (c.trace[1]?).any (fun ev =>
        (contents ev.post 7).items.length ≠ (contents ev.pre 7).items.length) = true := by
    decide +kernel
  obtain ⟨ev, hev, hne⟩ := (Option.any_eq_true _ _).mp (hdeletes c hc)
  obtain ⟨row, -, hcaller, hrow⟩ := group_is_admins id twoMembers (.call (.deleteGroupItem 1 7 5) ::
    finish 0) c (List.mem_of_getElem? hc) ev (List.mem_of_getElem? hev) 7 fun heq => by
      simp [heq] at hne
  rw [hreq] at hcaller
  exact ⟨row, hrow, (Option.some.inj hcaller).symm⟩

/-! ### A member that has been removed -/

/-- While user `u` is removed by the `j`-th call and not added: the admin that the call has found is
the group's, and once its statement has run, the user is not a member. -/
structure Removing (admin g u : Ident) (j : ℕ) (σ : SharingSys B) : Prop where
  meets : AllMeet Known Answers σ
  kept : ∀ c ∈ σ.calls, ∀ ev ∈ c.trace, Kept ev.post σ.shared
  adds : ∀ c ∈ σ.calls, Adds g u c.req → c.prog.result.isSome
  call : ∃ c, σ.calls[j]? = some c ∧ c.req = .removeGroupMember admin g u ∧
    ∀ ev ∈ c.trace, ev.name = .removeGroupMember g u → ev.post.members.get (g, u) = none →
      Authed admin g c.trace ∧ σ.shared.members.get (g, u) = none

variable {len} {admin u : Ident} {j : ℕ} {σ : SharingSys B}

/-- A group has one admin. -/
lemma Removing.admin_eq {tr tr' : List (SharingEv B)} {db : SharingDb B} {user : Ident}
    (htr : ∀ ev ∈ tr, Kept ev.post db) (htr' : ∀ ev ∈ tr', Kept ev.post db)
    (h : Authed user g tr) (h' : Authed u g tr') : user = u := by
  obtain ⟨ev, hev, row, hrow, rfl⟩ := h
  obtain ⟨ev', hev', row', hrow', rfl⟩ := h'
  cases (htr ev hev g row hrow).symm.trans (htr' ev' hev' g row' hrow')
  rfl

/-- A statement that a call runs does not add the user. -/
lemma Removing.not_adds {tr tr' : List (SharingEv B)} {l : SharingStmt} {e : Env}
    {f : Env → SharingDb B → SharingDb B}
    {k : Env → SharingDb B → Prog (SharingDb B) Env SharingStmt (Reply B)} {i : ℕ}
    (h : Removing admin g u j σ) (hne : admin ≠ u) (hc : σ.calls[i]? = some ⟨q, tr, .stmt l f k⟩)
    (hauthed : Authed admin g tr') (hkept : ∀ ev ∈ tr', Kept ev.post σ.shared) :
    l ≠ .addGroupMember g u := by
  rintro rfl
  obtain ⟨⟨-, hbefore⟩, -⟩ := h.meets _ (List.mem_of_getElem? hc) e σ.shared
  rcases hbefore.adds g u rfl with hadds | hadmin
  · cases h.adds _ (List.mem_of_getElem? hc) hadds
  · exact hne (Removing.admin_eq hkept (h.kept _ (List.mem_of_getElem? hc)) hauthed hadmin)

lemma Removing.step (hne : admin ≠ u) (h : Removing admin g u j σ) {a : SharingAct B}
    (ha : ∀ q, Adds g u q → a ≠ .call q) : Removing admin g u j (step (code len) σ a) := by
  have hmeets := h.meets.step (meets_code len) a
  obtain ⟨c₀, hc₀, hreq₀, habsent⟩ := h.call
  rcases step_cases (h := code len) σ a with
    ⟨q, rfl, hst⟩ | ⟨i, e, q, tr, l, f, k, rfl, hc, hst⟩ | hst
  · -- a new call, which is no addition of the member
    rw [hst] at hmeets ⊢
    refine ⟨hmeets, fun c hmem => ?_, fun c hmem hadds => ?_, c₀, ?_, hreq₀, habsent⟩
    · rcases List.mem_append.mp hmem with hmem | hmem
      · exact h.kept c hmem
      · simp [List.mem_singleton.mp hmem]
    · rcases List.mem_append.mp hmem with hmem | hmem
      · exact h.adds c hmem hadds
      · rw [List.mem_singleton.mp hmem] at hadds
        exact absurd rfl (ha q hadds)
    · rwa [List.getElem?_append_left (List.getElem?_eq_some_iff.mp hc₀).1]
  · -- a statement: it does not bring the member back
    obtain ⟨⟨heff, hbefore⟩, -⟩ := h.meets _ (List.mem_of_getElem? hc) e σ.shared
    have hkept : ∀ c ∈ σ.calls, ∀ ev ∈ c.trace, Kept ev.post (f e σ.shared) :=
      fun c hmem ev hev => (h.kept c hmem ev hev).trans heff.kept
    have hstays : Authed admin g c₀.trace → σ.shared.members.get (g, u) = none →
        (f e σ.shared).members.get (g, u) = none := fun hauthed =>
      heff.absent g u (h.not_adds hne hc (e := e) hauthed (h.kept c₀ (List.mem_of_getElem? hc₀)))
    rw [hst] at hmeets ⊢
    refine ⟨hmeets, fun c hmem => ?_, fun c hmem hadds => ?_, ?_⟩
    · obtain ⟨n, hn⟩ := List.mem_iff_getElem?.mp hmem
      rcases getElem?_set_cases hn with ⟨-, rfl⟩ | ⟨-, hn⟩
      · exact List.forall_mem_append.mpr ⟨hkept _ (List.mem_of_getElem? hc),
          by simpa using Kept.refl _⟩
      · exact hkept c (List.mem_of_getElem? hn)
    · obtain ⟨n, hn⟩ := List.mem_iff_getElem?.mp hmem
      rcases getElem?_set_cases hn with ⟨-, rfl⟩ | ⟨-, hn⟩
      · cases h.adds _ (List.mem_of_getElem? hc) hadds
      · exact h.adds c (List.mem_of_getElem? hn) hadds
    · -- the removal itself, or another call
      rcases eq_or_ne i j with rfl | hij
      · cases hc.symm.trans hc₀
        refine ⟨_, List.getElem?_set_self (List.getElem?_eq_some_iff.mp hc).1, hreq₀,
          List.forall_mem_append.mpr ⟨fun ev hev hname hpost => ?_, ?_⟩⟩
        · obtain ⟨hauthed, hshared⟩ := habsent ev hev hname hpost
          exact ⟨hauthed.append _, hstays hauthed hshared⟩
        · simp only [List.mem_singleton, forall_eq]
          intro hname hpost
          obtain ⟨user, hcaller, hauthed⟩ := hbefore.authed g (by rw [hname]; rfl)
          rw [show q = .removeGroupMember admin g u from hreq₀] at hcaller
          cases hcaller
          exact ⟨hauthed.append _, hpost⟩
      · refine ⟨c₀, by rwa [List.getElem?_set_ne hij], hreq₀, fun ev hev hname hpost => ?_⟩
        obtain ⟨hauthed, hshared⟩ := habsent ev hev hname hpost
        exact ⟨hauthed, hstays hauthed hshared⟩
  · rw [hst] at hmeets ⊢
    exact h

/-- Once the removal has been answered the user is not a member. -/
lemma Removing.absent (h : Removing admin g u j σ)
    (hdone : ∀ c, σ.calls[j]? = some c → c.prog.result = some (.done (.ok ()))) :
    σ.shared.members.get (g, u) = none := by
  obtain ⟨c, hc, hreq, habsent⟩ := h.call
  have hmeets := h.meets c (List.mem_of_getElem? hc)
  rw [Prog.result_eq_some (hdone c hc), hreq] at hmeets
  obtain ⟨-, ev, hev, hname, hpost⟩ := hmeets
  exact (habsent ev hev hname hpost).2

/-- A call that has ended stays as it is. -/
lemma step_ended {c : SharingCall B} {r : Reply B} (hc : σ.calls[j]? = some c)
    (hr : c.prog.result = some r) (a : SharingAct B) :
    (step (code len) σ a).calls[j]? = some c := by
  rcases step_cases (h := code len) σ a with
    ⟨q, rfl, hst⟩ | ⟨i, e, q, tr, l, f, k, rfl, hc', hst⟩ | hst
  · rw [hst, List.getElem?_append_left (List.getElem?_eq_some_iff.mp hc).1]
    exact hc
  · have hij : i ≠ j := by
      rintro rfl
      cases hc.symm.trans hc'
      cases hr
    rw [hst, List.getElem?_set_ne hij]
    exact hc
  · rwa [hst]

variable (len)

/-- When the removal is asked for, it has run nothing. -/
lemma removing_start (as : List (SharingAct B))
    (hended : ∀ c ∈ (run (code len) (init db) as).calls, Adds g u c.req → c.prog.result.isSome) :
    Removing admin g u (run (code len) (init db) as).calls.length
      (run (code len) (init db) (as ++ [.call (.removeGroupMember admin g u)])) where
  meets := run_meets (meets_code len) db _
  kept c hc := (run_known (T := Kept) (meets_code len) (fun _ _ _ h => h.1.kept) Kept.refl
    (fun _ _ _ => Kept.trans) db _ c hc).1
  adds := by
    rw [run_append]
    refine List.forall_mem_append.mpr ⟨hended, ?_⟩
    simp only [List.mem_singleton, forall_eq]
    rintro ⟨caller, req, heq, -⟩
    cases heq
  call := by
    rw [run_append]
    exact ⟨_, List.getElem?_concat_length .., rfl, by simp⟩

/-- **A removed member reads nothing.** Of a user whom the admin has removed, and who is not being
added, no later request lists the group's items, and no later inbox has the group. -/
theorem removed_member (as bs cs : List (SharingAct B)) (hne : admin ≠ u)
    (hended : ∀ c ∈ (run (code len) (init db) as).calls, Adds g u c.req → c.prog.result.isSome)
    (hno : ∀ q, Adds g u q → Act.call q ∉ bs ++ cs)
    (hremoved : ∀ c, (run (code len) (init db) (as ++ .call (.removeGroupMember admin g u) ::
      bs)).calls[(run (code len) (init db) as).calls.length]? = some c →
        c.prog.result = some (.done (.ok ())))
    {i : ℕ} {c : SharingCall B}
    (hi : (run (code len) (init db) (as ++ .call (.removeGroupMember admin g u) ::
      bs)).calls.length ≤ i)
    (hc : (run (code len) (init db) (as ++ .call (.removeGroupMember admin g u) :: bs ++
      cs)).calls[i]? = some c) :
    (c.req = .listGroupItems u g → ∀ rows, c.prog.result ≠ some (.items (.ok rows))) ∧
    (c.req = .groupInbox u → ∀ items, c.prog.result = some (.groupInbox (.ok items)) →
      ∀ item ∈ items, item.groupId ≠ g) := by
  have hallowed : ∀ a ∈ bs ++ cs, ∀ q, Adds g u q → a ≠ .call q := fun a ha q hq heq =>
    hno q hq (heq ▸ ha)
  rw [run_append] at hc
  rw [show as ++ .call (.removeGroupMember admin g u) :: bs =
    as ++ [.call (.removeGroupMember admin g u)] ++ bs by simp] at hremoved hi hc
  rw [run_append _ _ bs] at hremoved hi hc
  have hstart : Removing admin g u (run (code len) (init db) as).calls.length
      (run (code len) (init db) (as ++ [.call (.removeGroupMember admin g u)])) :=
    removing_start len db as hended
  -- until the removal has been answered
  obtain ⟨hmid, -⟩ := run_keeps (h := code len)
    (P := Removing admin g u (run (code len) (init db) as).calls.length)
    (fun σ a ha h => h.step hne ha) hstart
    (show ∀ a ∈ bs, _ from fun a ha => hallowed a (List.mem_append_left _ ha))
  generalize run (code len) (run (code len) (init db) (as ++
    [.call (.removeGroupMember admin g u)])) bs = σ at *
  obtain ⟨c₁, hc₁, -⟩ := hmid.call
  have hdone := hremoved c₁ hc₁
  -- and from then on
  obtain ⟨⟨hend, -⟩, hcalls⟩ := run_keeps
    (P := fun σ => Removing admin g u (run (code len) (init db) as).calls.length σ ∧
      σ.calls[(run (code len) (init db) as).calls.length]? = some c₁)
    (fun σ a ha h => ⟨h.1.step hne ha, step_ended h.2 hdone a⟩) ⟨hmid, hc₁⟩
    fun a ha => hallowed a (List.mem_append_right _ ha)
  obtain ⟨rest, hrest, hpre⟩ := hcalls i c hc
  have hnew : traceAt σ i = [] := by simp [traceAt, List.getElem?_eq_none hi]
  have habsent : ∀ ev ∈ c.trace, ev.pre.members.get (g, u) = none := by
    rw [hrest, hnew, List.nil_append]
    intro ev hev
    obtain ⟨σ', ⟨h, hj⟩, heq⟩ := hpre ev hev
    rw [heq]
    exact h.absent fun c' hc' => by
      cases hj.symm.trans hc'
      exact hdone
  have hmeets := hend.meets c (List.mem_of_getElem? hc)
  refine ⟨fun hreq rows hres => ?_, fun hreq items hres item hitem heq => ?_⟩
  · rw [Prog.result_eq_some hres, hreq] at hmeets
    obtain ⟨ev, hev, hmember⟩ := hmeets
    simp [habsent ev hev] at hmember
  · rw [Prog.result_eq_some hres, hreq] at hmeets
    obtain ⟨ev, hev, hmember⟩ := hmeets
    have := hmember item hitem
    rw [heq, habsent ev hev] at this
    cases this

/-- The member lists the group's items, and is refused once it is removed. -/
theorem member_then_refused :
    (∀ c ∈ (run (code id) (init twoMembers) (.call (.listGroupItems 2 7) ::
      finish 0)).calls[0]?, c.prog.result = some (.items (.ok [⟨7, 5, 0⟩]))) ∧
    ∃ c, c.prog.result.isSome ∧ (∀ rows, c.prog.result ≠ some (.items (.ok rows))) ∧
      (run (code id) (init twoMembers) ([] ++ .call (.removeGroupMember 1 7 2) :: finish 0 ++
        (.call (.listGroupItems 2 7) :: finish 1))).calls[1]? = some c := by
  refine ⟨by decide +kernel, ?_⟩
  obtain ⟨c, hc, hreq⟩ := Option.map_eq_some_iff.mp (req_of_call (h := code id) (init twoMembers)
    ([] ++ .call (.removeGroupMember 1 7 2) :: finish 0) (finish 1) (.listGroupItems 2 7))
  have hended : ∀ c ∈ (run (code id) (init twoMembers) ([] ++ .call (.removeGroupMember 1 7 2) ::
      finish 0 ++ (.call (.listGroupItems 2 7) :: finish 1))).calls[1]?,
      c.prog.result.isSome := by decide +kernel
  have hremoved : ∀ c ∈ (run (code id) (init twoMembers) ([] ++ .call
      (.removeGroupMember 1 7 2) :: finish 0)).calls[0]?,
      c.prog.result = some (.done (.ok ())) := by decide +kernel
  refine ⟨c, hended c hc, (removed_member id twoMembers [] (finish 0)
    (.call (.listGroupItems 2 7) :: finish 1) (by decide) (by simp [init, run]) ?_ hremoved
    (by decide +kernel) hc).1 hreq, hc⟩
  rintro _ ⟨caller, req, rfl, -⟩
  simp [finish]

end Vautr.GroupAccess
