import Mathlib.Data.Int.Interval
import Vautr.Files
import Vautr.Turns

/-!
Uploads of a client that keeps to the order: of one file it runs one initiation after the other, and
asks for the completion when the last one has succeeded.

Everything else may happen at the same time: chunks of this file that are stored and read, also by
requests from before the last initiation, and all requests of other users and about other files.
-/

namespace Vautr.Uploads

open Vautr.Atomic Vautr.Interleave Vautr.Sql Vautr.Database Vautr.Api Vautr.Server Vautr.Files
open Vautr.Turns

variable {B : Type}

/-! ### A file in the tables -/

/-- The manifest of the file, if it is the user's. -/
def mine (db : FilesDb B) (user uuid : Ident) : Option FileManifestRow :=
  (db.manifests.get uuid).filter (·.ownerUserId = user)

def Listed (db : FilesDb B) (uuid : Ident) (i : ℤ) : Prop :=
  (db.fileChunks.get (uuid, i)).isSome

def Marked (db : FilesDb B) (uuid : Ident) (i : ℤ) : Prop :=
  db.fileChunks.get (uuid, i) = some ⟨uuid, i, .uploaded⟩

def Stored (db : FilesDb B) (uuid : Ident) (i : ℤ) : Prop := (db.chunks.get (uuid, i)).isSome

/-- All chunks of the file are marked. -/
def Full (db : FilesDb B) (uuid : Ident) (totalChunks : ℤ) : Prop :=
  ∀ i, 0 ≤ i → i < totalChunks → Marked db uuid i

/-- Only chunks of the file are listed. -/
def Ready (db : FilesDb B) (user uuid : Ident) : Prop :=
  ∀ m, mine db user uuid = some m → ∀ i, Listed db uuid i → 0 ≤ i ∧ i < m.totalChunks

/-- An available file is full, and what is marked is stored. -/
structure Whole (db : FilesDb B) : Prop where
  full : ∀ m ∈ db.manifests.rows, m.status = .available → Full db m.fileUuid m.totalChunks
  stored : ∀ uuid i, Marked db uuid i → Stored db uuid i

/-! ### Requests and their turns -/

def initiates : Req B → Option (Ident × Ident)
  | .initiate user uuid _ => some (user, uuid)
  | _ => none

def completes : Req B → Option (Ident × Ident)
  | .complete user uuid => some (user, uuid)
  | _ => none

/-- An initiation ends the initiations and completions that the user asked for before. -/
def Ends (q' q : Req B) : Prop :=
  ∃ file, initiates q' = some file ∧ (initiates q = some file ∨ completes q = some file)

def Clash (q q' : Req B) : Prop := Ends q q' ∨ Ends q' q

/-- What other requests leave of a file. -/
structure SameFile (user uuid : Ident) (db db' : FilesDb B) : Prop where
  total : (mine db' user uuid).map (·.totalChunks) = (mine db user uuid).map (·.totalChunks)
  listed : mine db user uuid ≠ none → ∀ i, Listed db' uuid i → Listed db uuid i
  marked : mine db user uuid ≠ none → ∀ i, Marked db uuid i → Marked db' uuid i

/-- What a request relies on. -/
def Relies : Req B → FilesDb B → FilesDb B → Prop
  | .initiate user uuid _, db, db' =>
    SameFile user uuid db db' ∧ mine db' user uuid = mine db user uuid
  | .complete user uuid, db, db' => SameFile user uuid db db'
  | .uploadChunk _ uuid idx _, db, db' =>
    Stored db uuid idx.toNat → Stored db' uuid idx.toNat
  | _, _, _ => True

/-- When a request may run a statement. -/
def Guard (q : Req B) (l : FileStmt B) (db : FilesDb B) : Prop :=
  match l with
  | .insertManifest row =>
    initiates q = some (row.ownerUserId, row.fileUuid) ∧ row.status = .pendingUpload
  | .updateManifest row => initiates q = some (row.ownerUserId, row.fileUuid) ∧
    ∀ m, mine db row.ownerUserId row.fileUuid = some m → m.status = .pendingUpload
  | .deleteFileChunks uuid => ∃ user m, initiates q = some (user, uuid) ∧
    mine db user uuid = some m ∧ m.status = .pendingUpload
  | .insertFileChunk uuid _ => ∃ user m, initiates q = some (user, uuid) ∧
    mine db user uuid = some m
  | .setFileStatus uuid user _ _ => completes q = some (user, uuid) ∧
    ∀ m, mine db user uuid = some m → Full db uuid m.totalChunks
  | .setChunkUploaded uuid i _ => Stored db uuid i
  | _ => True

def Promises (q : Req B) (ev : FileEv B) : Prop := Steps ev ∧ Guard q ev.name ev.pre

/-- What a request finds. -/
def Starts : Req B → FilesDb B → Prop
  | .complete user uuid, db => Ready db user uuid
  | _, _ => True

/-- What a request leaves. -/
def Leaves : Req B → Reply B → FilesDb B → Prop
  | .initiate user uuid _, .initiated (.ok _), db => Ready db user uuid
  | _, _, _ => True

lemma clash_symm {q q' : Req B} (h : Clash q q') : Clash q' q := Or.symm h

/-! ### What a step leaves of a file -/

section Step

variable {q : Req B} {l : FileStmt B} {db db' : FilesDb B} {user uuid : Ident}

lemma mine_eq_some {m : FileManifestRow} : mine db user uuid = some m ↔
    db.manifests.get uuid = some m ∧ m.ownerUserId = user := by
  simp [mine, Option.filter_eq_some_iff]

lemma mine_update (p : FileManifestRow → Bool) (g : FileManifestRow → FileManifestRow)
    (hg : ∀ r, (g r).fileUuid = r.fileUuid) (hown : ∀ r, (g r).ownerUserId = r.ownerUserId) :
    mine { db with manifests := db.manifests.update p g hg } user uuid =
      (mine db user uuid).map fun r => if p r then g r else r := by
  rw [mine, Table.get_update, mine, Option.filter_map]
  congr 1
  refine congrArg (Option.filter · _) (funext fun r => ?_)
  simp only [Function.comp_apply]
  split
  · rw [hown]
  · rfl

lemma mine_insert {row : FileManifestRow} {t : Table FileManifestRow.fileUuid}
    (h : db.manifests.insert row = some t) (hne : (row.ownerUserId, row.fileUuid) ≠ (user, uuid)) :
    mine { db with manifests := t } user uuid = mine db user uuid := by
  simp only [mine, Table.get_insert h]
  by_cases hk : row.fileUuid = uuid
  · have hown : row.ownerUserId ≠ user := fun ho => hne (by rw [ho, hk])
    have hnone : db.manifests.get uuid = none := hk ▸ (Table.insert_eq_some h).1
    simp [hk, hnone, hown]
  · simp [hk]

/-- Who does not ask for the initiation or the completion of the file leaves its manifest. -/
lemma mine_step (h : FileStep l db db') (hguard : Guard q l db)
    (hinit : initiates q ≠ some (user, uuid)) :
    mine db' user uuid = mine db user uuid ∨ completes q = some (user, uuid) ∧
      (mine db' user uuid).map (·.totalChunks) = (mine db user uuid).map (·.totalChunks) := by
  cases h with
  | insertManifest row _ t h => exact .inl (mine_insert h fun he => hinit (he ▸ hguard.1))
  | updateManifest row =>
    refine .inl ((mine_update row.hits row.reset (fun _ => rfl) fun _ => rfl).trans ?_)
    refine (Option.map_congr fun r hr => ?_).trans Option.map_id'
    obtain ⟨hget, hown⟩ := mine_eq_some.mp hr
    refine if_neg fun hhits => hinit ?_
    simp only [FileManifestRow.hits, Bool.and_eq_true, decide_eq_true_eq] at hhits
    rw [hguard.1, ← hhits.1, ← hhits.2, hown, Table.get_key hget]
  | setFileStatus f u =>
    have hmap : mine (db.setStatus f u .pendingUpload .available) user uuid =
        (mine db user uuid).map fun r =>
          if hasStatus f u .pendingUpload r then { r with status := .available } else r :=
      mine_update (hasStatus f u .pendingUpload) ({ · with status := .available })
        (fun _ => rfl) fun _ => rfl
    by_cases he : (u, f) = (user, uuid)
    · refine .inr ⟨he ▸ hguard.1, ?_⟩
      rw [hmap, Option.map_map]
      refine Option.map_congr fun r _ => ?_
      simp only [Function.comp_apply]
      split <;> rfl
    · refine .inl (hmap.trans ((Option.map_congr fun r hr => ?_).trans Option.map_id'))
      obtain ⟨hget, hown⟩ := mine_eq_some.mp hr
      refine if_neg fun hhits => he ?_
      simp only [hasStatus, Bool.and_eq_true, decide_eq_true_eq] at hhits
      rw [← hhits.1.1, ← hhits.1.2, hown, Table.get_key hget]
  | _ => exact .inl rfl

/-- A file that somebody else owns is another one. -/
lemma file_ne {u f : Ident} {m : FileManifestRow} (hm : mine db user uuid ≠ none)
    (hf : mine db u f = some m) (hne : (u, f) ≠ (user, uuid)) : f ≠ uuid := by
  rintro rfl
  obtain ⟨m', hm'⟩ := Option.ne_none_iff_exists'.mp hm
  obtain ⟨hget, hown⟩ := mine_eq_some.mp hm'
  obtain ⟨hget', hown'⟩ := mine_eq_some.mp hf
  rw [hget, Option.some.injEq] at hget'
  exact hne (by rw [← hown', ← hown, hget'])

/-- The chunk that is marked. -/
def hits (db : FilesDb B) (f : Ident) (j : ℤ) (u : Ident) (c : FileChunkRow) : Bool :=
  c.fileUuid = f && c.chunkIndex = j && owns db f u

lemma get_markUploaded (f : Ident) (j : ℤ) (u : Ident) (k : Ident × ℤ) :
    (db.markUploaded f j u).fileChunks.get k = (db.fileChunks.get k).map fun c =>
      if hits db f j u c then { c with status := .uploaded } else c :=
  Table.get_update db.fileChunks (hits db f j u) ({ · with status := .uploaded }) (fun _ => rfl) k

lemma listed_step (h : FileStep l db db') (hguard : Guard q l db)
    (hinit : initiates q ≠ some (user, uuid)) (hm : mine db user uuid ≠ none) {i : ℤ}
    (hi : Listed db' uuid i) : Listed db uuid i := by
  unfold Listed at hi ⊢
  cases h with
  | deleteFileChunks f =>
    rw [FilesDb.dropFileChunks, Table.get_delete] at hi
    exact Option.isSome_of_isSome_filter _ _ hi
  | insertFileChunk f j _ t h =>
    obtain ⟨u, m, hq, hf⟩ := hguard
    have hne := file_ne hm hf fun he => hinit (he ▸ hq)
    simp only [Table.get_insert h] at hi
    rwa [if_neg fun hk => hne (congrArg Prod.fst hk)] at hi
  | setChunkUploaded f j u =>
    simpa [get_markUploaded] using hi
  | _ => exact hi

/-- A mark stays until the chunks of its file are deleted. -/
lemma marked_kept (h : FileStep l db db') (hl : l ≠ .deleteFileChunks uuid) {i : ℤ}
    (hi : Marked db uuid i) : Marked db' uuid i := by
  unfold Marked at hi ⊢
  cases h with
  | deleteFileChunks f =>
    have hne : uuid ≠ f := fun he => hl (by rw [he])
    rw [FilesDb.dropFileChunks, Table.get_delete, hi]
    simp [hne]
  | insertFileChunk f j _ t h =>
    simp only [Table.get_insert h]
    rw [if_neg fun hk => ?_]
    · exact hi
    · have hnone := (Table.insert_eq_some h).1
      rw [hk, hi] at hnone
      cases hnone
  | setChunkUploaded f j u =>
    rw [get_markUploaded, hi]
    simp
  | _ => exact hi

lemma sameFile_step (h : FileStep l db db') (hguard : Guard q l db)
    (hinit : initiates q ≠ some (user, uuid)) : SameFile user uuid db db' where
  total := by
    rcases mine_step h hguard hinit with hsame | ⟨-, htotal⟩
    · rw [hsame]
    · exact htotal
  listed hm _ := listed_step h hguard hinit hm
  marked hm _ hi := by
    refine marked_kept h ?_ hi
    rintro rfl
    obtain ⟨u, m, hq, hf, -⟩ := hguard
    exact file_ne hm hf (fun he => hinit (he ▸ hq)) rfl

lemma get_put (f : Ident) (j : ℤ) (bytes : B) (k : Ident × ℤ) :
    (db.put f j bytes).chunks.get k = if (f, j) = k then
      some (((db.chunks.get k).map ({ · with bytes })).getD ⟨f, j, bytes⟩) else db.chunks.get k :=
  Table.get_upsert db.chunks ⟨f, j, bytes⟩ ({ · with bytes }) (fun _ => rfl) k

lemma stored_step (h : FileStep l db db') {i : ℤ} (hi : Stored db uuid i) : Stored db' uuid i := by
  unfold Stored at hi ⊢
  cases h with
  | putChunk f j bytes =>
    rw [get_put]
    split
    · rfl
    · exact hi
  | _ => exact hi

/-- What is marked after a step was marked before, or its chunk is stored. -/
lemma stored_of_marked (h : FileStep l db db') (hguard : Guard q l db) {i : ℤ}
    (hi : Marked db' uuid i) : Marked db uuid i ∨ Stored db uuid i := by
  unfold Marked at hi ⊢
  cases h with
  | deleteFileChunks f =>
    rw [FilesDb.dropFileChunks, Table.get_delete] at hi
    exact .inl (Option.filter_eq_some_iff.mp hi).1
  | insertFileChunk f j _ t h =>
    simp only [Table.get_insert h] at hi
    split at hi
    · cases hi
    · exact .inl hi
  | setChunkUploaded f j u =>
    rw [get_markUploaded, Option.map_eq_some_iff] at hi
    obtain ⟨c, hget, hc⟩ := hi
    split at hc
    · next hhits =>
      simp only [hits, Bool.and_eq_true, decide_eq_true_eq] at hhits
      have hkey := Table.get_key hget
      rw [FileChunkRow.key, hhits.1.1, hhits.1.2, Prod.mk.injEq] at hkey
      exact .inr (hkey.1 ▸ hkey.2 ▸ hguard)
    · exact .inl (hc ▸ hget)
  | _ => exact .inl hi

/-- An available manifest was there before, or its file is full. -/
lemma available_step (h : FileStep l db db') (hguard : Guard q l db) {m : FileManifestRow}
    (hm : m ∈ db'.manifests.rows) (hstatus : m.status = .available) :
    m ∈ db.manifests.rows ∨ Full db' m.fileUuid m.totalChunks := by
  cases h with
  | insertManifest row _ t h =>
    rw [(Table.insert_eq_some h).2, List.mem_append, List.mem_singleton] at hm
    rcases hm with hm | rfl
    · exact .inl hm
    · rw [hguard.2] at hstatus
      cases hstatus
  | updateManifest row =>
    obtain ⟨r, hr, rfl⟩ := List.mem_map.mp hm
    split at hstatus
    · cases hstatus
    · next hno => exact .inl (by simpa [hno] using hr)
  | setFileStatus f u =>
    obtain ⟨r, hr, rfl⟩ := List.mem_map.mp hm
    split
    · next hhits =>
      simp only [hasStatus, Bool.and_eq_true, decide_eq_true_eq] at hhits
      refine .inr ?_
      have hget := Table.get_of_mem hr
      rw [hhits.1.1] at hget ⊢
      exact hguard.2 r (mine_eq_some.mpr ⟨hget, hhits.1.2⟩)
    · exact .inl hr
  | _ => exact .inl hm

/-- The chunks of an available file are not deleted. -/
lemma not_deleted (hguard : Guard q l db) {m : FileManifestRow} (hm : m ∈ db.manifests.rows)
    (hstatus : m.status = .available) : l ≠ .deleteFileChunks m.fileUuid := by
  rintro rfl
  obtain ⟨u, m', -, hf, hpending⟩ := hguard
  obtain ⟨hget, -⟩ := mine_eq_some.mp hf
  rw [Table.get_of_mem hm, Option.some.injEq] at hget
  rw [← hget, hstatus] at hpending
  cases hpending

lemma whole_step (h : FileStep l db db') (hguard : Guard q l db) (hwhole : Whole db) :
    Whole db' where
  full m hm hstatus := by
    rcases available_step h hguard hm hstatus with hold | hfull
    · intro i hi hlt
      exact marked_kept h (not_deleted hguard hold hstatus)
        (hwhole.full m hold hstatus i hi hlt)
    · exact hfull
  stored f i hi := by
    rcases stored_of_marked h hguard hi with hold | hstored
    · exact stored_step h (hwhole.stored f i hold)
    · exact stored_step h hstored

/-- An available manifest stays. -/
lemma available_kept (h : FileStep l db db') (hguard : Guard q l db) {m : FileManifestRow}
    (hm : m ∈ db.manifests.rows) (hstatus : m.status = .available) : m ∈ db'.manifests.rows := by
  cases h with
  | insertManifest row _ t h =>
    rw [(Table.insert_eq_some h).2]
    exact List.mem_append_left _ hm
  | updateManifest row =>
    refine List.mem_map.mpr ⟨m, hm, if_neg fun hhits => ?_⟩
    simp only [FileManifestRow.hits, Bool.and_eq_true, decide_eq_true_eq] at hhits
    have hget := Table.get_of_mem hm
    rw [hhits.1] at hget
    rw [hguard.2 m (mine_eq_some.mpr ⟨hget, hhits.2⟩)] at hstatus
    cases hstatus
  | setFileStatus f u =>
    refine List.mem_map.mpr ⟨m, hm, if_neg fun hhits => ?_⟩
    simp only [hasStatus, Bool.and_eq_true, decide_eq_true_eq] at hhits
    rw [hhits.2] at hstatus
    cases hstatus
  | _ => exact hm

end Step

/-! ### What the requests promise -/

section Requests

variable {α ε : Type} {q : Req B} {J : FilesDb B → Prop} {user uuid : Ident} {req : InitiateReq}
  {var : Option UInt64}

/-- On the way of the request `q`. -/
abbrev Keeps (q : Req B) (J : FilesDb B → Prop) (P : α → FilesDb B → Prop)
    (p : Prog (FilesDb B) Env (FileStmt B) α) : Prop :=
  Secures (Relies q) (fun _ => True) (Promises q) J P p

lemma keeps_select {P : α → FilesDb B → Prop} {l : FileStmt B} {g : FilesDb B → α}
    (hJ : Stable (Relies q) J) (hl : ∀ db, Guard q l db) (h : ∀ db, J db → P (g db) db) :
    Keeps q J (Succeeds P) (select l g).run :=
  secures_select hJ fun _ db hs _ => ⟨⟨.same l db, hl db⟩, h db hs⟩

lemma keeps_read {P : α → FilesDb B → Prop} {l : FileStmt B} {g : Env → α}
    (hJ : Stable (Relies q) J) (hl : ∀ db, Guard q l db) (h : ∀ a db, J db → P a db) :
    Keeps q J (Succeeds P) (ExceptT.mk (Prog.atom l fun e db => (db, .ok (g e))) :
      FileHandler B α).run :=
  secures_atom hJ fun _ db hs _ => ⟨⟨.same l db, hl db⟩, h _ db hs⟩

lemma keeps_orDb {P : α → FilesDb B → Prop} {x : FileRepo B α}
    (h : Keeps q J (Succeeds P) x.run) : Keeps q J (Succeeds P) (orDb x).run := by
  refine secures_bind h fun r => secures_ret fun s hr => ?_
  cases r with
  | ok a => exact hr
  | error e => trivial

lemma keeps_throw {P : α → FilesDb B → Prop} (e : ε) :
    Keeps q J (Succeeds P) (throw e : ExceptT ε (Prog (FilesDb B) Env (FileStmt B)) α).run :=
  secures_ret fun _ _ => trivial

/-- What an initiation knows of the manifest once it has written it. -/
def Claimed (user uuid : Ident) (n : ℤ) (db : FilesDb B) : Prop :=
  ∃ m, mine db user uuid = some m ∧ m.status = .pendingUpload ∧ m.totalChunks = n

/-- What it knows while it lists the chunks. -/
def Listing (user uuid : Ident) (n : ℤ) (db : FilesDb B) : Prop :=
  Claimed user uuid n db ∧ ∀ i, Listed db uuid i → 0 ≤ i ∧ i < n

lemma stable_mine (ex : Option FileManifestRow) :
    Stable (Relies (.initiate user uuid req)) fun db : FilesDb B => mine db user uuid = ex :=
  fun _ _ hs hr => hr.2.trans hs

lemma stable_claimed (n : ℤ) :
    Stable (Relies (.initiate user uuid req)) (Claimed (B := B) user uuid n) := by
  rintro s s' ⟨m, hm, h⟩ hr
  exact ⟨m, hr.2.trans hm, h⟩

lemma Claimed.ne_none {n : ℤ} {db : FilesDb B} (h : Claimed user uuid n db) :
    mine db user uuid ≠ none := by
  obtain ⟨m, hm, -⟩ := h
  simp [hm]

lemma stable_listing (n : ℤ) :
    Stable (Relies (.initiate user uuid req)) (Listing (B := B) user uuid n) :=
  fun s s' hs hr => ⟨stable_claimed n s s' hs.1 hr, fun i hi =>
    hs.2 i (hr.1.listed hs.1.ne_none i hi)⟩

lemma Listing.ready {n : ℤ} {db : FilesDb B} (h : Listing user uuid n db) :
    Ready db user uuid := by
  obtain ⟨m, hm, -, rfl⟩ := h.1
  intro m' hm' i hi
  rw [hm, Option.some.injEq] at hm'
  exact hm' ▸ h.2 i hi

lemma keeps_insertManifest {row : FileManifestRow} {ex : Option FileManifestRow}
    (hfile : row.fileUuid = uuid) (howner : row.ownerUserId = user)
    (hpending : row.status = .pendingUpload) :
    Keeps (.initiate user uuid req) (fun db => mine db user uuid = ex)
      (Succeeds fun n (db : FilesDb B) => if n = 0 then mine db user uuid = ex
        else Claimed user uuid row.totalChunks db) (insertManifest row).run := by
  have hguard (db : FilesDb B) : Guard (.initiate user uuid req) (.insertManifest row) db :=
    ⟨by rw [hfile, howner]; rfl, hpending⟩
  refine secures_statement (stable_mine ex) (fun _ db _ _ => ⟨.same _ db, hguard db⟩)
    fun _ db hs _ => ?_
  cases h : db.manifests.insert row with
  | none => exact ⟨⟨.same _ db, hguard db⟩, hs⟩
  | some t =>
    refine ⟨⟨.insertManifest row db t h, hguard db⟩, row, ?_, hpending, rfl⟩
    rw [mine_eq_some, Table.get_insert h, if_pos hfile]
    exact ⟨rfl, howner⟩

lemma keeps_updateManifest {row : FileManifestRow} {ex : Option FileManifestRow}
    (hfile : row.fileUuid = uuid) (howner : row.ownerUserId = user)
    (hex : ∀ m, ex = some m → m.status = .pendingUpload) (hne : ex ≠ none) :
    Keeps (.initiate user uuid req) (fun db => mine db user uuid = ex)
      (Succeeds fun _ (db : FilesDb B) => Claimed user uuid row.totalChunks db)
      (updateManifest row).run := by
  obtain ⟨m, rfl⟩ := Option.ne_none_iff_exists'.mp hne
  have hguard (db : FilesDb B) (hs : mine db user uuid = some m) :
      Guard (.initiate user uuid req) (.updateManifest row) db := by
    refine ⟨by rw [hfile, howner]; rfl, fun m' hm' => ?_⟩
    rw [hfile, howner, hs] at hm'
    exact hex m' hm'
  refine secures_statement (stable_mine _) (fun _ db hs _ => ⟨.same _ db, hguard db hs⟩)
    fun _ db hs _ => ⟨⟨.updateManifest row db, hguard db hs⟩, row.reset m, ?_, rfl, rfl⟩
  obtain ⟨hget, hown⟩ := mine_eq_some.mp hs
  have hhits : row.hits m = true := by
    simp [FileManifestRow.hits, hfile, howner, hown, Table.get_key hget]
  refine (mine_update row.hits row.reset (fun _ => rfl) fun _ => rfl).trans ?_
  rw [hs, Option.map_some, if_pos hhits]

lemma keeps_claimManifest {row : FileManifestRow} {ex : Option FileManifestRow}
    (hfile : row.fileUuid = uuid) (howner : row.ownerUserId = user)
    (hpending : row.status = .pendingUpload) (hex : ∀ m, ex = some m → m.status = .pendingUpload) :
    Keeps (.initiate user uuid req) (fun db => mine db user uuid = ex)
      (Succeeds fun _ (db : FilesDb B) => Claimed user uuid row.totalChunks db)
      (claimManifest row).run := by
  refine secures_bind_except (keeps_orDb (keeps_insertManifest hfile howner hpending))
    (fun n => ?_) fun _ _ => trivial
  split
  · next hn =>
    subst hn
    have howns : Keeps (B := B) (.initiate user uuid req) (fun db => mine db user uuid = ex)
        (Succeeds fun owner db => mine db user uuid = ex ∧ (owner = some user → ex ≠ none))
        (selectOwner row.fileUuid).run := by
      refine keeps_select (stable_mine ex) (fun _ => trivial) fun db hs => ⟨hs, fun ho => ?_⟩
      rw [hfile] at ho
      obtain ⟨m, hget, hown⟩ := Option.map_eq_some_iff.mp ho
      rw [← hs, mine_eq_some.mpr ⟨hget, hown⟩]
      exact Option.some_ne_none m
    refine secures_bind_except (keeps_orDb howns) (fun owner => ?_) fun _ _ => trivial
    cases owner with
    | none => exact keeps_throw _
    | some o =>
      refine secures_of_fact fun hne => ?_
      dsimp only
      split
      · next ho =>
        have hsome := hne (by rw [ho, howner])
        exact keeps_orDb (keeps_updateManifest hfile howner hex hsome)
      · exact keeps_throw _
  · exact secures_ret fun _ hs => hs

lemma keeps_deleteFileChunks (n : ℤ) :
    Keeps (.initiate user uuid req) (Claimed (B := B) user uuid n)
      (Succeeds fun _ => Listing user uuid n) (deleteFileChunks uuid).run := by
  have hguard (db : FilesDb B) (hs : Claimed user uuid n db) :
      Guard (.initiate user uuid req) (.deleteFileChunks uuid) db := by
    obtain ⟨m, hm, hpending, -⟩ := hs
    exact ⟨user, m, rfl, hm, hpending⟩
  refine secures_statement (stable_claimed n) (fun _ db hs _ => ⟨.same _ db, hguard db hs⟩)
    fun _ db hs _ => ⟨⟨.deleteFileChunks uuid db, hguard db hs⟩, hs, fun i hi => ?_⟩
  unfold Listed FilesDb.dropFileChunks at hi
  rw [Table.get_delete] at hi
  obtain ⟨c, hc⟩ := Option.isSome_iff_exists.mp hi
  obtain ⟨hget, hne⟩ := Option.filter_eq_some_iff.mp hc
  have hfile : c.fileUuid = uuid := congrArg Prod.fst (Table.get_key hget)
  simp [hfile] at hne

lemma keeps_insertFileChunk {n : ℤ} {i : ℕ} (hi : (i : ℤ) < n) :
    Keeps (.initiate user uuid req) (Listing (B := B) user uuid n)
      (Succeeds fun _ => Listing user uuid n) (insertFileChunk uuid i).run := by
  have hguard (db : FilesDb B) (hs : Listing user uuid n db) :
      Guard (.initiate user uuid req) (.insertFileChunk uuid i) db := by
    obtain ⟨⟨m, hm, -⟩, -⟩ := hs
    exact ⟨user, m, rfl, hm⟩
  refine secures_statement (stable_listing n) (fun _ db hs _ => ⟨.same _ db, hguard db hs⟩)
    fun _ db hs _ => ?_
  cases h : db.fileChunks.insert ⟨uuid, i, .pending⟩ with
  | none => exact ⟨⟨.same _ db, hguard db hs⟩, trivial⟩
  | some t =>
    dsimp only
    split
    · refine ⟨⟨.insertFileChunk uuid i db t h, hguard db hs⟩, hs.1, fun j hj => ?_⟩
      unfold Listed at hj
      rw [Table.get_insert h] at hj
      split at hj
      · next hk =>
        have hij : (i : ℤ) = j := congrArg Prod.snd hk
        exact ⟨by omega, by omega⟩
      · exact hs.2 j hj
    · exact ⟨⟨.same _ db, hguard db hs⟩, trivial⟩

lemma keeps_insertFileChunks {n : ℤ} (is : List ℕ) (his : ∀ i ∈ is, (i : ℤ) < n) :
    Keeps (.initiate user uuid req) (Listing (B := B) user uuid n)
      (Succeeds fun _ => Listing user uuid n) (insertFileChunks uuid is).run := by
  induction is with
  | nil => exact secures_ret fun _ hs => hs
  | cons i rest ih =>
    exact secures_bind_except (keeps_orDb (keeps_insertFileChunk (his i (by simp))))
      (fun _ => ih fun j hj => his j (List.mem_cons_of_mem _ hj)) fun _ _ => trivial

lemma keeps_upsertFileManifest {row : FileManifestRow} {ex : Option FileManifestRow}
    (hfile : row.fileUuid = uuid) (howner : row.ownerUserId = user)
    (hpending : row.status = .pendingUpload) (hex : ∀ m, ex = some m → m.status = .pendingUpload) :
    Keeps (.initiate user uuid req) (fun db => mine db user uuid = ex)
      (Succeeds fun _ (db : FilesDb B) => Ready db user uuid) (upsertFileManifest row).run := by
  refine secures_bind_except (keeps_claimManifest hfile howner hpending hex) (fun _ => ?_)
    fun _ _ => trivial
  rw [hfile]
  refine secures_bind_except (keeps_orDb (keeps_deleteFileChunks row.totalChunks)) (fun _ => ?_)
    fun _ _ => trivial
  split
  · exact keeps_throw _
  · next hle =>
    refine secures_mono (fun _ h => h) (fun r db hr => ?_) (keeps_insertFileChunks _ fun i hi => ?_)
    · cases r with
      | ok _ => exact Listing.ready hr
      | error _ => trivial
    · rw [List.mem_range] at hi
      unfold capped at hi
      omega

/-- Chunks are listed under the manifest that the user has. -/
lemma stable_ready : ∀ s s' : FilesDb B, Ready s user uuid → SameFile user uuid s s' →
    Ready s' user uuid := by
  intro s s' hs hr m hm i hi
  have htotal := hr.total
  rw [hm, Option.map_some] at htotal
  obtain ⟨m', hm', htot⟩ := Option.map_eq_some_iff.mp htotal.symm
  have := hs m' hm' i (hr.listed (by simp [hm']) i hi)
  exact htot ▸ this

lemma keeps_initiateAllowed : Keeps (B := B) (.initiate user uuid req) (fun _ => True)
    (Succeeds fun _ db => Ready db user uuid) (initiateAllowed user uuid req).run := by
  have hexisting : Keeps (B := B) (.initiate user uuid req) (fun _ => True)
      (Succeeds fun ex db => mine db user uuid = ex) (getFileManifest uuid user).run :=
    keeps_select (fun _ _ _ _ => trivial) (fun _ => trivial) fun _ _ => rfl
  refine secures_bind_except (secures_orInternal hexisting) (fun ex => ?_) fun _ _ => trivial
  split
  · exact keeps_throw _
  · next hno =>
    have hex : ∀ m, ex = some m → m.status = .pendingUpload := by
      rintro m rfl
      cases hm : m.status with
      | pendingUpload => rfl
      | available => simp [hm] at hno
    refine secures_bind_except (keeps_read (stable_mine ex) (fun _ => trivial) fun _ _ h => h)
      (fun now => ?_) fun _ _ => trivial
    refine secures_bind_except (P := fun _ db => Ready db user uuid) (secures_bind
      (keeps_upsertFileManifest rfl rfl rfl hex) fun r => secures_ret fun db hr => ?_) (fun _ => ?_)
      fun _ _ => trivial
    · cases r with
      | ok _ => exact hr
      | error _ => trivial
    · exact secures_bind_except (keeps_read (fun s s' hs hr => stable_ready s s' hs hr.1)
        (fun _ => trivial) fun _ _ h => h) (fun _ => secures_ret fun _ h => h) fun _ _ => trivial

lemma keeps_uploadInitiate : Keeps (B := B) (.initiate user uuid req) (fun _ => True)
    (Succeeds fun _ db => Ready db user uuid) (uploadInitiate var user uuid req).run := by
  unfold uploadInitiate
  split
  · exact keeps_throw _
  split
  · exact keeps_throw _
  split
  · exact keeps_throw _
  split
  · exact keeps_throw _
  refine secures_bind_except (P := fun _ _ => True) (secures_orInternal
    (keeps_select (fun _ _ _ _ => trivial) (fun _ => trivial) fun _ _ => trivial)) (fun used => ?_)
    fun _ _ => trivial
  split
  · exact keeps_throw _
  · exact keeps_initiateAllowed

/-- What a completion knows of the file once it has read the manifest. -/
def Known (user uuid : Ident) (n : ℤ) (db : FilesDb B) : Prop :=
  Ready db user uuid ∧ (mine db user uuid).map (·.totalChunks) = some n

lemma stable_known (n : ℤ) : Stable (Relies (.complete user uuid)) (Known (B := B) user uuid n) :=
  fun s s' hs hr => ⟨stable_ready s s' hs.1 hr, hr.total.trans hs.2⟩

lemma stable_full (n : ℤ) : Stable (Relies (.complete user uuid)) fun db : FilesDb B =>
    Known user uuid n db ∧ Full db uuid n := by
  rintro s s' ⟨hs, hfull⟩ hr
  refine ⟨stable_known n s s' hs hr, fun i hi hlt => hr.marked ?_ i (hfull i hi hlt)⟩
  intro hnone
  have := hs.2
  rw [hnone] at this
  cases this

/-- As many numbers below `n` as there are. -/
lemma mem_of_length {l : List ℤ} {n : ℤ} (hnodup : l.Nodup) (hrange : ∀ i ∈ l, 0 ≤ i ∧ i < n)
    (hlength : (l.length : ℤ) = n) {i : ℤ} (hi : 0 ≤ i) (hlt : i < n) : i ∈ l := by
  have hsub : l.toFinset ⊆ Finset.Ico 0 n := fun j hj =>
    Finset.mem_Ico.mpr (hrange j (List.mem_toFinset.mp hj))
  have hcard : (Finset.Ico 0 n).card ≤ l.toFinset.card := by
    rw [List.toFinset_card_of_nodup hnodup, Int.card_Ico]
    omega
  have heq := Finset.eq_of_subset_of_card_le hsub hcard
  exact List.mem_toFinset.mp (heq ▸ Finset.mem_Ico.mpr ⟨hi, hlt⟩)

/-- If as many chunks are marked as the file has, and no others are listed, then all are marked. -/
lemma full_of_count {db : FilesDb B} {n : ℤ} (h : Known user uuid n db)
    (hcount : ((db.fileChunks.rows.countP fun c =>
      c.fileUuid = uuid && owns db uuid user && c.status = .uploaded : ℕ) : ℤ) = n) :
    Full db uuid n := by
  obtain ⟨m, hm, hn⟩ := Option.map_eq_some_iff.mp h.2
  let marked := db.fileChunks.rows.filter fun c =>
    c.fileUuid = uuid && owns db uuid user && c.status = .uploaded
  have hmarked : ∀ c ∈ marked,
      c ∈ db.fileChunks.rows ∧ c.fileUuid = uuid ∧ c.status = .uploaded := by
    intro c hc
    have := List.mem_filter.mp hc
    simp only [Bool.and_eq_true, decide_eq_true_eq] at this
    exact ⟨this.1, this.2.1.1, this.2.2⟩
  have hnodup : (marked.map (·.chunkIndex)).Nodup := by
    have hkeys : marked.map FileChunkRow.key = (marked.map (·.chunkIndex)).map (uuid, ·) := by
      rw [List.map_map]
      exact List.map_congr_left fun c hc => by simp [FileChunkRow.key, (hmarked c hc).2.1]
    have hsub : (marked.map FileChunkRow.key).Sublist
        (db.fileChunks.rows.map FileChunkRow.key) := List.filter_sublist.map _
    exact (hkeys ▸ db.fileChunks.nodup.sublist hsub).of_map _
  have hrange : ∀ i ∈ marked.map (·.chunkIndex), 0 ≤ i ∧ i < n := by
    intro i hi
    obtain ⟨c, hc, rfl⟩ := List.mem_map.mp hi
    obtain ⟨hrow, hfile, -⟩ := hmarked c hc
    have hget := Table.get_of_mem hrow
    rw [FileChunkRow.key, hfile] at hget
    exact hn ▸ h.1 m hm _ (by rw [Listed, hget]; rfl)
  have hlength : ((marked.map (·.chunkIndex)).length : ℤ) = n := by
    rw [List.length_map, ← hcount, List.countP_eq_length_filter]
  intro i hi hlt
  have hmem := mem_of_length hnodup hrange hlength hi hlt
  obtain ⟨c, hc, rfl⟩ := List.mem_map.mp hmem
  obtain ⟨hrow, hfile, hstatus⟩ := hmarked c hc
  have hget := Table.get_of_mem hrow
  rw [FileChunkRow.key, hfile] at hget
  rw [Marked, hget]
  cases c
  simp_all

lemma keeps_requireManifest {J : FilesDb B → Prop} (hJ : Stable (Relies q) J) :
    Keeps q J (Succeeds fun m db => J db ∧ mine db user uuid = some m)
      (requireManifest (B := B) user uuid).run := by
  have hget : Keeps q J (Succeeds fun ex db => J db ∧ mine db user uuid = ex)
      (getFileManifest uuid user).run :=
    keeps_select hJ (fun _ => trivial) fun db hs => ⟨hs, rfl⟩
  refine secures_bind_except (secures_orInternal hget) (fun ex => ?_) fun _ _ => trivial
  cases ex with
  | none => exact keeps_throw _
  | some m => exact secures_ret fun _ hs => hs

lemma keeps_setFileStatus (n : ℤ) :
    Keeps (B := B) (.complete user uuid) (fun db => Known user uuid n db ∧ Full db uuid n)
      (Succeeds fun _ _ => True) (setFileStatus uuid user .pendingUpload .available).run := by
  have hguard (db : FilesDb B) (hs : Known user uuid n db ∧ Full db uuid n) : Guard
      (.complete user uuid) (.setFileStatus uuid user .pendingUpload .available) db := by
    refine ⟨rfl, fun m hm => ?_⟩
    have htotal := hs.1.2
    rw [hm, Option.map_some, Option.some.injEq] at htotal
    exact htotal ▸ hs.2
  exact secures_statement (stable_full n) (fun _ db hs _ => ⟨.same _ db, hguard db hs⟩)
    fun _ db hs _ => ⟨⟨.setFileStatus uuid user db, hguard db hs⟩, trivial⟩

lemma keeps_uploadComplete : Keeps (B := B) (.complete user uuid) (Ready · user uuid)
    (Succeeds fun _ _ => True) (uploadComplete user uuid).run := by
  refine secures_bind_except (keeps_requireManifest fun s s' => stable_ready s s') (fun m => ?_)
    fun _ _ => trivial
  refine secures_mono (J := Known user uuid m.totalChunks) (fun db hs => ⟨hs.1, by simp [hs.2]⟩)
    (fun _ _ h => h) ?_
  split
  · exact secures_ret fun _ _ => trivial
  refine secures_bind_except (P := fun n db => Known user uuid m.totalChunks db ∧
    (n = m.totalChunks → Full db uuid m.totalChunks)) (secures_orInternal (keeps_select
      (stable_known _) (fun _ => trivial) fun db hs => ⟨hs, full_of_count hs⟩)) (fun n => ?_)
    fun _ _ => trivial
  split
  · exact keeps_throw _
  · next hn =>
    refine secures_bind_except (P := fun _ _ => True) (secures_orInternal (secures_mono
      (fun db hs => ⟨hs.1, hs.2 (not_not.mp hn)⟩) (fun _ _ h => h) (keeps_setFileStatus _)))
      (fun flipped => ?_) fun _ _ => trivial
    split
    · exact secures_ret fun _ _ => trivial
    · refine secures_bind_except (P := fun _ _ => True) (secures_orInternal (keeps_select
        (fun _ _ _ _ => trivial) (fun _ => trivial) fun _ _ => trivial)) (fun current => ?_)
        fun _ _ => trivial
      split
      · exact secures_ret fun _ _ => trivial
      · exact keeps_throw _

lemma keeps_uploadChunk {idx : UInt32} {bytes : Option B} :
    Keeps (.uploadChunk user uuid idx bytes) (fun _ => True) (Succeeds fun _ _ => True)
      (uploadChunk user uuid idx bytes).run := by
  refine secures_bind_except (keeps_requireManifest fun _ _ _ _ => trivial) (fun m => ?_)
    fun _ _ => trivial
  split
  · exact keeps_throw _
  cases bytes with
  | none => exact keeps_throw _
  | some bytes =>
    have hput (b : B) : Keeps (.uploadChunk user uuid idx (some bytes)) (fun _ => True)
        (Succeeds fun _ db => Stored db uuid idx.toNat) (putChunk uuid idx.toNat b).run := by
      refine secures_statement (fun _ _ _ _ => trivial) (fun _ db _ _ => ⟨.same _ db, trivial⟩)
        fun _ db _ _ => ⟨⟨.putChunk _ _ b db, trivial⟩, ?_⟩
      change Stored (db.put uuid idx.toNat b) uuid idx.toNat
      rw [Stored, get_put, if_pos rfl]
      rfl
    have hmark : Keeps (B := B) (.uploadChunk user uuid idx (some bytes))
        (Stored · uuid idx.toNat) (Succeeds fun _ _ => True)
        (setChunkUploaded uuid idx.toNat user).run :=
      secures_statement (fun _ _ hs hr => hr hs) (fun _ db hs _ => ⟨.same _ db, hs⟩)
        fun _ db hs _ => ⟨⟨.setChunkUploaded _ _ _ db, hs⟩, trivial⟩
    exact secures_bind_except (P := fun _ _ => True) (secures_ret fun _ _ => trivial)
      (fun b => secures_bind_except (secures_mono (fun _ _ => trivial) (fun _ _ h => h)
        (secures_orInternal (hput b))) (fun _ => secures_orInternal hmark) fun _ _ => trivial)
      fun _ _ => trivial

end Requests

/-! ### Whole runs -/

section Runs

variable {var : Option UInt64} {user uuid : Ident}

abbrev FileSys (B : Type) := Sys (Req B) (FilesDb B) Env (FileStmt B) (Reply B)

/-- What a client keeps to: a request that was ended is over, and a completion is asked for only
when the last initiation has succeeded. -/
def Orderly (σ : FileSys B) : Act (Req B) Env → Prop
  | .call q => ∀ file, completes q = some file → ∀ i c, σ.calls[i]? = some c →
    Live Ends σ.calls i c.req → initiates c.req = some file →
      ∃ r, c.prog.result = some (.initiated (.ok r))
  | .exec i _ => ∀ c, σ.calls[i]? = some c → Live Ends σ.calls i c.req

lemma promises_select {α : Type} {q : Req B} {l : FileStmt B} {g : FilesDb B → α}
    (hl : ∀ db, Guard q l db) : Guarantees (fun _ _ _ => True) (Promises q) (select l g).run :=
  guarantees_statement (fun _ db => ⟨.same l db, hl db⟩) fun _ db => ⟨.same l db, hl db⟩

lemma promises_requireManifest {q : Req B} :
    Guarantees (fun _ _ _ => True) (Promises q) (requireManifest (B := B) user uuid).run := by
  refine guarantees_bind_except (guarantees_orInternal (promises_select fun _ => trivial))
    fun m => ?_
  cases m with
  | none => exact guarantees_throw_except _
  | some m => exact guarantees_pure_except _

lemma promises_requireAvailable {q : Req B} :
    Guarantees (fun _ _ _ => True) (Promises q) (requireAvailable (B := B) user uuid).run := by
  refine guarantees_bind_except promises_requireManifest fun m => ?_
  split
  · exact guarantees_pure_except _
  · exact guarantees_throw_except _

lemma secures_code (q : Req B) : Keeps q (Starts q) (Leaves q) (code var q) := by
  cases q with
  | initiate user uuid req =>
    refine secures_bind keeps_uploadInitiate fun r => secures_ret fun db hr => ?_
    cases r with
    | ok _ => exact hr
    | error _ => trivial
  | complete user uuid =>
    exact secures_bind keeps_uploadComplete fun r => secures_ret fun _ _ => trivial
  | uploadChunk user uuid idx bytes =>
    exact secures_bind keeps_uploadChunk fun r => secures_ret fun _ _ => trivial
  | status user uuid =>
    refine secures_of_guarantees ?_ fun _ _ => trivial
    exact guarantees_bind (guarantees_bind_except promises_requireManifest fun _ =>
      guarantees_bind_except (guarantees_orInternal (promises_select fun _ => trivial)) fun _ =>
      guarantees_pure_except _) fun _ => guarantees_ret _
  | download user uuid =>
    refine secures_of_guarantees ?_ fun _ _ => trivial
    exact guarantees_bind (guarantees_bind_except promises_requireAvailable fun _ =>
      guarantees_pure_except _) fun _ => guarantees_ret _
  | downloadChunk user uuid idx =>
    refine secures_of_guarantees ?_ fun _ _ => trivial
    refine guarantees_bind (guarantees_bind_except promises_requireAvailable fun _ =>
      guarantees_bind_except (guarantees_orInternal (promises_select fun _ => trivial))
        fun bytes => ?_) fun _ => guarantees_ret _
    cases bytes with
    | none => exact guarantees_throw_except _
    | some bytes => exact guarantees_pure_except _

/-- What a request that does not clash does is what the other one relies on. -/
lemma relies_step {q q' : Req B} {ev : FileEv B} (hev : Promises q' ev) (hclash : ¬Clash q q') :
    Relies q ev.pre ev.post := by
  cases q with
  | initiate user uuid req =>
    have hinit : initiates q' ≠ some (user, uuid) := fun he =>
      hclash (.inr ⟨(user, uuid), he, .inl rfl⟩)
    refine ⟨sameFile_step hev.1 hev.2 hinit, ?_⟩
    rcases mine_step hev.1 hev.2 hinit with h | ⟨he, -⟩
    · exact h
    · exact absurd (.inl ⟨(user, uuid), rfl, .inr he⟩) hclash
  | complete user uuid =>
    exact sameFile_step hev.1 hev.2 fun he => hclash (.inr ⟨(user, uuid), he, .inr rfl⟩)
  | uploadChunk user uuid idx bytes => exact stored_step hev.1
  | _ => trivial

lemma leaves_step {q q' : Req B} {a : Reply B} {ev : FileEv B} (hev : Promises q' ev)
    (hends : ¬(Ends q' q ∧ Ends q q')) (h : Leaves q a ev.pre) : Leaves q a ev.post := by
  cases q with
  | initiate user uuid req =>
    cases a with
    | initiated r =>
      cases r with
      | ok _ =>
        refine stable_ready _ _ h (sameFile_step hev.1 hev.2 fun he => hends ?_)
        exact ⟨⟨(user, uuid), he, .inl rfl⟩, ⟨(user, uuid), rfl, .inl he⟩⟩
      | error _ => trivial
    | _ => trivial
  | _ => trivial

lemma SameFile.refl (db : FilesDb B) : SameFile user uuid db db :=
  ⟨rfl, fun _ _ => id, fun _ _ => id⟩

lemma SameFile.trans {s₁ s₂ s₃ : FilesDb B} (h : SameFile user uuid s₁ s₂)
    (h' : SameFile user uuid s₂ s₃) : SameFile user uuid s₁ s₃ := by
  have hne : mine s₁ user uuid ≠ none → mine s₂ user uuid ≠ none := by
    intro h₁ h₂
    have := h.total
    rw [h₂, Option.map_none] at this
    exact h₁ (Option.map_eq_none_iff.mp this.symm)
  exact ⟨h'.total.trans h.total, fun hm i hi => h.listed hm i (h'.listed (hne hm) i hi),
    fun hm i hi => h'.marked (hne hm) i (h.marked hm i hi)⟩

lemma relies_refl (q : Req B) (s : FilesDb B) : Relies q s s := by
  cases q with
  | initiate user uuid req => exact ⟨.refl s, rfl⟩
  | complete user uuid => exact .refl s
  | uploadChunk user uuid idx bytes => exact id
  | _ => trivial

lemma relies_trans (q : Req B) (s₁ s₂ s₃ : FilesDb B) (h : Relies q s₁ s₂) (h' : Relies q s₂ s₃) :
    Relies q s₁ s₃ := by
  cases q with
  | initiate user uuid req => exact ⟨h.1.trans h'.1, h'.2.trans h.2⟩
  | complete user uuid => exact SameFile.trans h h'
  | uploadChunk user uuid idx bytes => exact fun hs => h' (h hs)
  | _ => trivial

variable (var) in
lemma tolerant : Tolerant (code (B := B) var) Ends Clash Relies Promises Starts Leaves Whole where
  secures := secures_code
  refl := relies_refl
  trans := relies_trans
  symm _ _ := clash_symm
  inv _ _ hev := whole_step hev.1 hev.2
  rely _ _ _ hev _ := relies_step hev
  post _ _ _ _ hev _ := leaves_step hev

/-- Who has not asked for an initiation has no manifest. -/
def Asked (σ : FileSys B) : Prop :=
  ∀ user uuid, (∀ c ∈ σ.calls, initiates c.req ≠ some (user, uuid)) →
    mine σ.shared user uuid = none

lemma ends_initiates {q : Req B} {file file' : Ident × Ident} (hq : initiates q = some file)
    (h : initiates q = some file' ∨ completes q = some file') : file = file' := by
  rcases h with h | h
  · rw [hq, Option.some.injEq] at h
    exact h
  · cases q with
    | complete user uuid => cases hq
    | _ => cases h

/-- The last initiation is live. -/
lemma exists_live {file : Ident × Ident} {calls : List (Call (Req B) (FilesDb B) Env (FileStmt B)
    (Reply B))} (h : ∃ c ∈ calls, initiates c.req = some file) :
    ∃ i c, calls[i]? = some c ∧ initiates c.req = some file ∧ Live Ends calls i c.req := by
  induction calls using List.reverseRecOn with
  | nil => simp at h
  | append_singleton calls last ih =>
    by_cases hlast : initiates last.req = some file
    · refine ⟨calls.length, last, by simp, hlast, fun j c hj hc => ?_⟩
      have := (List.getElem?_eq_some_iff.mp hc).1
      simp only [List.length_append, List.length_singleton] at this
      omega
    · obtain ⟨c, hc, hinit⟩ := h
      have hold : c ∈ calls := by
        rcases List.mem_append.mp hc with hc | hc
        · exact hc
        · exact absurd (List.mem_singleton.mp hc ▸ hinit) hlast
      obtain ⟨i, c', hi, hinit', hlive⟩ := ih ⟨c, hold, hinit⟩
      have hlt := (List.getElem?_eq_some_iff.mp hi).1
      refine ⟨i, c', by rw [List.getElem?_append_left hlt, hi], hinit', fun j d hij hd => ?_⟩
      rcases lt_or_ge j calls.length with hj | hj
      · exact hlive j d hij (by rwa [List.getElem?_append_left hj] at hd)
      · obtain rfl : d = last := by
          rw [List.getElem?_append_right hj] at hd
          simpa using List.mem_of_getElem? hd
        rintro ⟨file', hfile, h⟩
        exact hlast (by rw [hfile, ← ends_initiates hinit' h])

lemma Orderly.inTurn {σ : FileSys B} {a : Act (Req B) Env} (h : Orderly σ a) :
    InTurn Ends Clash σ a := by
  cases a with
  | exec i e => exact h
  | call q =>
    intro i c hc hlive hclash
    rcases hclash with ⟨file, hinit, hq⟩ | hends
    · rcases hq with hq | hq
      · exact .inl ⟨file, hq, .inl hinit⟩
      · obtain ⟨r, hr⟩ := h file hq i c hc hlive hinit
        exact .inr (hr ▸ rfl)
    · exact .inl hends

/-- A completion that is asked for finds the listing of the last initiation. -/
lemma starts_of_orderly {σ : FileSys B} {q : Req B} (h : Orderly σ (.call q))
    (hσ : Going Ends Clash Relies Promises Leaves Whole Asked σ) : Starts q σ.shared := by
  cases q with
  | complete user uuid =>
    by_cases hasked : ∃ c ∈ σ.calls, initiates c.req = some (user, uuid)
    · obtain ⟨i, c, hc, hinit, hlive⟩ := exists_live hasked
      obtain ⟨r, hr⟩ := h (user, uuid) rfl i c hc hlive hinit
      have hpost := hσ.live i c hc hlive
      rw [Prog.result_eq_some hr, wp_ret] at hpost
      obtain ⟨req, tr, p⟩ := c
      cases req with
      | initiate user' uuid' req =>
        obtain ⟨rfl, rfl⟩ : user' = user ∧ uuid' = uuid := by simpa [initiates] using hinit
        exact hpost.2
      | _ => cases hinit
    · have hnone := hσ.rest user uuid fun c hc he => hasked ⟨c, hc, he⟩
      intro m hm
      rw [hnone] at hm
      cases hm
  | _ => trivial

lemma asked_exec {σ : FileSys B} {i : ℕ} {e : Env} {q : Req B} {tr : List (FileEv B)}
    {l : FileStmt B} {f : Env → FilesDb B → FilesDb B}
    {k : Env → FilesDb B → Prog (FilesDb B) Env (FileStmt B) (Reply B)}
    (hc : σ.calls[i]? = some ⟨q, tr, .stmt l f k⟩)
    (hev : Promises q ⟨l, e, σ.shared, f e σ.shared⟩) (hσ : Asked σ) : Asked ⟨f e σ.shared,
      σ.calls.set i ⟨q, tr ++ [⟨l, e, σ.shared, f e σ.shared⟩], k e σ.shared⟩⟩ := by
  intro user uuid hcalls
  have hlt := (List.getElem?_eq_some_iff.mp hc).1
  have hold : ∀ c ∈ σ.calls, initiates c.req ≠ some (user, uuid) := by
    intro c hmem
    obtain ⟨j, hj⟩ := List.mem_iff_getElem?.mp hmem
    rcases eq_or_ne j i with rfl | hne
    · rw [hc, Option.some.injEq] at hj
      have hnew := hcalls ⟨q, tr ++ [⟨l, e, σ.shared, f e σ.shared⟩], k e σ.shared⟩
        (List.mem_set hlt _)
      rw [← hj]
      exact hnew
    · exact hcalls c (List.mem_iff_getElem?.mpr ⟨j, by rw [List.getElem?_set_ne hne.symm, hj]⟩)
  have hnone := hσ user uuid hold
  have hstep := mine_step hev.1 hev.2 (hold _ (List.mem_of_getElem? hc))
  rw [hnone] at hstep
  rcases hstep with h | ⟨-, h⟩
  · exact h
  · exact Option.map_eq_none_iff.mp h

/-- Nobody has a file. -/
def noFiles : FilesDb B := ⟨.empty, .empty, .empty⟩

lemma going_run {σ : FileSys B} {as : List (Act (Req B) Env)}
    (hσ : Going Ends Clash Relies Promises Leaves Whole Asked σ)
    (has : Along (code var) Orderly σ as) :
    Going Ends Clash Relies Promises Leaves Whole Asked (run (code var) σ as) :=
  run_turns (tolerant var) (fun _ _ => Orderly.inTurn) (fun _ _ => starts_of_orderly)
    (fun _ _ _ hσ user uuid hcalls => hσ user uuid fun c hc =>
      hcalls c (List.mem_append_left _ hc))
    (fun _ _ _ _ _ _ _ _ hc hev hσ => asked_exec hc hev hσ) hσ has

lemma going_noFiles : Going Ends Clash Relies Promises Leaves Whole Asked
    (init (noFiles : FilesDb B)) := by
  refine going_init ⟨fun m hm => ?_, fun f i hi => ?_⟩ fun _ _ _ => rfl
  · simp [noFiles, Table.empty] at hm
  · simp [Marked, noFiles] at hi

/-- From a state on, an available manifest stays as it is. -/
lemma available_run {σ : FileSys B} {as : List (Act (Req B) Env)}
    (hσ : Going Ends Clash Relies Promises Leaves Whole Asked σ)
    (has : Along (code var) Orderly σ as) {m : FileManifestRow}
    (hm : m ∈ σ.shared.manifests.rows) (hstatus : m.status = .available) :
    m ∈ (run (code var) σ as).shared.manifests.rows := by
  induction as generalizing σ with
  | nil => exact hm
  | cons a as ih =>
    have hfirst : Along (code var) Orderly σ [a] := ⟨has.1, trivial⟩
    refine ih (going_run hσ hfirst) has.2 ?_
    rcases step_cases (h := code var) σ a with ⟨q, rfl, hst⟩ |
      ⟨i, e, q, tr, l, f, k, rfl, hc, hst⟩ | hst
    · rw [hst]
      exact hm
    · rw [hst]
      have hev := hσ.does (tolerant var) (e := e) hc (has.1 _ hc)
      exact available_kept hev.1 hev.2 hm hstatus
    · rw [hst]
      exact hm

/-- **An available file is whole.** However the requests of a client that keeps to the order run
beside all others: once a manifest is available it never changes, and from then on every chunk of
the file is stored. -/
theorem available_whole {as as' : List (Act (Req B) Env)}
    (has : Along (code var) Orderly (init noFiles) (as ++ as')) {m : FileManifestRow}
    (hm : m ∈ (run (code var) (init noFiles) as).shared.manifests.rows)
    (hstatus : m.status = .available) :
    m ∈ (run (code var) (init noFiles) (as ++ as')).shared.manifests.rows ∧
      ∀ i, 0 ≤ i → i < m.totalChunks →
        Stored (run (code var) (init noFiles) (as ++ as')).shared m.fileUuid i := by
  obtain ⟨hfirst, hrest⟩ := (along_append as as' _).mp has
  have hstays := available_run (going_run going_noFiles hfirst) hrest hm hstatus
  rw [← run_append] at hstays
  have hwhole := (going_run going_noFiles has).inv
  exact ⟨hstays, fun i hi hlt => hwhole.stored _ _ (hwhole.full m hstays hstatus i hi hlt)⟩

end Runs

/-! ### An upload -/

lemma ends_iff {q' q : Req B} : (initiates q' ≠ none ∧
    (initiates q = initiates q' ∨ completes q = initiates q')) ↔ Ends q' q := by
  constructor
  · rintro ⟨hne, h⟩
    obtain ⟨file, hfile⟩ := Option.ne_none_iff_exists'.mp hne
    exact ⟨file, hfile, hfile ▸ h⟩
  · rintro ⟨file, hfile, h⟩
    exact ⟨by simp [hfile], hfile ▸ h⟩

instance (q' q : Req B) : Decidable (Ends q' q) := decidable_of_iff _ ends_iff

/-- No call from the place `i` on ends it. -/
def liveFrom (calls : List (Call (Req B) (FilesDb B) Env (FileStmt B) (Reply B))) (i : ℕ)
    (q : Req B) : Bool :=
  (calls.drop (i + 1)).all fun c => !decide (Ends c.req q)

def initiated : Option (Reply B) → Bool
  | some (.initiated (.ok _)) => true
  | _ => false

/-- `Orderly`, to be computed. -/
def orderly (σ : FileSys B) : Act (Req B) Env → Bool
  | .call q => (List.range σ.calls.length).all fun i => (σ.calls[i]?).all fun c =>
    (initiates c.req = none || completes q ≠ initiates c.req || initiated c.prog.result)
  | .exec i _ => (σ.calls[i]?).all fun c => liveFrom σ.calls i c.req

lemma live_of_liveFrom {calls : List (Call (Req B) (FilesDb B) Env (FileStmt B) (Reply B))} {i : ℕ}
    {q : Req B} (h : liveFrom calls i q = true) : Live Ends calls i q := by
  intro j c hij hc
  have hmem : c ∈ calls.drop (i + 1) := by
    refine List.mem_iff_getElem?.mpr ⟨j - (i + 1), ?_⟩
    rw [List.getElem?_drop, Nat.add_sub_cancel' hij, hc]
  simpa using List.all_eq_true.mp h c hmem

lemma orderly_sound {σ : FileSys B} {a : Act (Req B) Env} (h : orderly σ a = true) :
    Orderly σ a := by
  cases a with
  | exec i e =>
    intro c hc
    refine live_of_liveFrom ?_
    simpa [orderly, hc] using h
  | call q =>
    intro file hq i c hc _ hinit
    have hi := List.all_eq_true.mp h i (List.mem_range.mpr (List.getElem?_eq_some_iff.mp hc).1)
    simp only [hc, Option.all_some, hinit, hq] at hi
    cases hres : c.prog.result with
    | none => simp [hres, initiated] at hi
    | some a =>
      cases a with
      | initiated r =>
        cases r with
        | ok r => exact ⟨r, rfl⟩
        | error e => simp [hres, initiated] at hi
      | _ => simp [hres, initiated] at hi

/-- A run that is orderly all along, to be computed. -/
def orderlyRun (var : Option UInt64) : FileSys B → List (Act (Req B) Env) → Bool
  | _, [] => true
  | σ, a :: as => orderly σ a && orderlyRun var (step (code var) σ a) as

lemma along_of_orderlyRun {var : Option UInt64} {as : List (Act (Req B) Env)} {σ : FileSys B}
    (h : orderlyRun var σ as = true) : Along (code var) Orderly σ as := by
  induction as generalizing σ with
  | nil => trivial
  | cons a as ih =>
    rw [orderlyRun, Bool.and_eq_true] at h
    exact ⟨orderly_sound h.1, ih h.2⟩

/-- One chunk is initiated, stored and completed. -/
def smallUpload : List (Act (Req Bool) Env) :=
  .call (.initiate 1 7 ⟨1, 1, 1, 1, "", 0⟩) :: List.replicate 7 (.exec 0 ⟨0, 0, false⟩) ++
    .call (.uploadChunk 1 7 0 (some true)) :: List.replicate 3 (.exec 1 ⟨0, 0, false⟩) ++
    .call (.complete 1 7) :: List.replicate 3 (.exec 2 ⟨0, 0, false⟩)

/-- What was uploaded stays, also if the chunk is stored once more. -/
theorem small_available : Stored (run (code none) (init noFiles) (smallUpload ++
    .call (.uploadChunk 1 7 0 (some false)) :: List.replicate 3 (.exec 3 ⟨0, 0, false⟩))).shared
    7 0 := by
  exact (available_whole (m := ⟨7, 1, 1, 1, 1, 1, "", .available, 0, 0⟩)
    (along_of_orderlyRun (by decide)) (by decide) rfl).2 0 (le_refl 0) (by decide)

end Vautr.Uploads
