import Vautr.Uploads

/-!
Whose chunks the gateway for attachments hands out, whatever its requests do to each other.

A manifest never changes its owner, so who has found a file to be theirs can rely on it. Nor is one
deleted: manifests go only with their user, and SQLite refuses `DELETE FROM users` (foreign key
mismatch: `project_items` refers to `items` by a column that is no key). Nothing is assumed of the
order of the requests.
-/

namespace Vautr.FileOwners

open Vautr.Atomic Vautr.Interleave Vautr.Sql Vautr.Database Vautr.Api Vautr.Server Vautr.Files
open Vautr.Turns Vautr.Uploads

variable {B α : Type} {q : Req B} {var : Option UInt64} {user uuid : Ident}

/-! ### Statements on chunks -/

/-- It neither stores nor reads a chunk. -/
def Plain : FileStmt B → Prop
  | .putChunk _ _ _ => False
  | .getChunk _ _ => False
  | _ => True

/-- A chunk is stored and read only for a user who owns the file. -/
def Allowed (q : Req B) (l : FileStmt B) (db : FilesDb B) : Prop :=
  match l with
  | .putChunk uuid i bytes => ∃ user idx, q = .uploadChunk user uuid idx (some bytes) ∧
    i = idx.toNat ∧ mine db user uuid ≠ none
  | .getChunk uuid i => ∃ user idx, q = .downloadChunk user uuid idx ∧ i = idx.toNat ∧
    mine db user uuid ≠ none
  | _ => True

def Moves (q : Req B) (ev : FileEv B) : Prop := Files.Steps ev ∧ Allowed q ev.name ev.pre

/-- Files stay with their owners. -/
def Owned (db db' : FilesDb B) : Prop :=
  ∀ user uuid, mine db user uuid ≠ none → mine db' user uuid ≠ none

lemma Plain.allowed {l : FileStmt B} (h : Plain l) (db : FilesDb B) : Allowed q l db := by
  cases l with
  | putChunk => exact h.elim
  | getChunk => exact h.elim
  | _ => trivial

lemma mine_update_ne {db : FilesDb B} (p : FileManifestRow → Bool)
    (g : FileManifestRow → FileManifestRow) (hg : ∀ r, (g r).fileUuid = r.fileUuid)
    (hown : ∀ r, (g r).ownerUserId = r.ownerUserId) (hne : mine db user uuid ≠ none) :
    mine { db with manifests := db.manifests.update p g hg } user uuid ≠ none := by
  rw [mine_update p g hg hown]
  simpa using hne

lemma owned_step {l : FileStmt B} {db db' : FilesDb B} (h : FileStep l db db') : Owned db db' := by
  intro user uuid hne
  cases h with
  | insertManifest row _ t h =>
    obtain ⟨m, hm⟩ := Option.ne_none_iff_exists'.mp hne
    obtain ⟨hget, hown⟩ := mine_eq_some.mp hm
    have hfile : row.fileUuid ≠ uuid := by
      rintro rfl
      rw [(Table.insert_eq_some h).1] at hget
      cases hget
    simpa [mine, Table.get_insert h, hfile] using hne
  | updateManifest row =>
    exact mine_update_ne row.hits row.reset (fun _ => rfl) (fun _ => rfl) hne
  | setFileStatus f u =>
    exact mine_update_ne (hasStatus f u .pendingUpload) ({ · with status := .available })
      (fun _ => rfl) (fun _ => rfl) hne
  | _ => exact hne

/-! ### What the requests do with chunks -/

/-- Statements with a plain name. -/
abbrev PlainOnly (p : Prog (FilesDb B) Env (FileStmt B) α) : Prop :=
  Guarantees (fun _ _ _ => True) (fun ev => Plain ev.name) p

lemma plain_statement {l : FileStmt B} {g : Env → FilesDb B → FilesDb B × Except SqlError α}
    (hl : Plain l) : PlainOnly (statement l g).run :=
  guarantees_statement (fun _ _ => hl) fun _ _ => hl

lemma plain_orDb {x : FileRepo B α} (h : PlainOnly x.run) : PlainOnly (orDb x).run :=
  guarantees_bind h fun _ => guarantees_ret _

lemma plain_read {l : FileStmt B} {g : Env → α} (hl : Plain l) :
    PlainOnly (ExceptT.mk (Prog.atom l fun e db => (db, .ok (g e))) : FileHandler B α).run :=
  guarantees_stmt (fun _ _ => hl) fun _ _ => guarantees_ret _

lemma plain_insertFileChunks (is : List ℕ) : PlainOnly (insertFileChunks (B := B) uuid is).run := by
  induction is with
  | nil => exact guarantees_pure_except _
  | cons i rest ih =>
    exact guarantees_bind_except (plain_orDb (plain_statement trivial)) fun _ => ih

lemma plain_claimManifest (row : FileManifestRow) :
    PlainOnly (claimManifest (B := B) row).run := by
  refine guarantees_bind_except (plain_orDb (plain_statement trivial)) fun n => ?_
  split
  · refine guarantees_bind_except (plain_orDb (plain_statement trivial)) fun owner => ?_
    cases owner with
    | none => exact guarantees_throw_except _
    | some o =>
      dsimp only
      split
      · exact plain_orDb (plain_statement trivial)
      · exact guarantees_throw_except _
  · exact guarantees_pure_except _

lemma plain_initiateAllowed (req : InitiateReq) :
    PlainOnly (initiateAllowed (B := B) user uuid req).run := by
  refine guarantees_bind_except (guarantees_orInternal (plain_statement trivial)) fun ex => ?_
  split
  · exact guarantees_throw_except _
  refine guarantees_bind_except (plain_read trivial) fun now => guarantees_bind_except
    (guarantees_bind (guarantees_bind_except (plain_claimManifest _) fun _ =>
      guarantees_bind_except (plain_orDb (plain_statement trivial)) fun _ => ?_) fun _ =>
      guarantees_ret _) fun _ => guarantees_bind_except (plain_read trivial) fun _ =>
      guarantees_pure_except _
  split
  · exact guarantees_throw_except _
  · exact plain_insertFileChunks _

lemma plain_uploadInitiate (req : InitiateReq) :
    PlainOnly (uploadInitiate (B := B) var user uuid req).run := by
  unfold uploadInitiate
  split
  · exact guarantees_throw_except _
  split
  · exact guarantees_throw_except _
  split
  · exact guarantees_throw_except _
  split
  · exact guarantees_throw_except _
  refine guarantees_bind_except (guarantees_orInternal (plain_statement trivial)) fun used => ?_
  split
  · exact guarantees_throw_except _
  · exact plain_initiateAllowed req

lemma plain_requireManifest : PlainOnly (requireManifest (B := B) user uuid).run := by
  refine guarantees_bind_except (guarantees_orInternal (plain_statement trivial)) fun m => ?_
  cases m with
  | none => exact guarantees_throw_except _
  | some m => exact guarantees_pure_except _

lemma plain_uploadComplete : PlainOnly (uploadComplete (B := B) user uuid).run := by
  refine guarantees_bind_except plain_requireManifest fun m => ?_
  split
  · exact guarantees_pure_except _
  refine guarantees_bind_except (guarantees_orInternal (plain_statement trivial)) fun n => ?_
  split
  · exact guarantees_throw_except _
  refine guarantees_bind_except (guarantees_orInternal (plain_statement trivial)) fun b => ?_
  split
  · exact guarantees_pure_except _
  refine guarantees_bind_except (guarantees_orInternal (plain_statement trivial)) fun ex => ?_
  split
  · exact guarantees_pure_except _
  · exact guarantees_throw_except _

lemma plain_requireAvailable : PlainOnly (requireAvailable (B := B) user uuid).run := by
  refine guarantees_bind_except plain_requireManifest fun m => ?_
  split
  · exact guarantees_pure_except _
  · exact guarantees_throw_except _

/-- On the way, while files stay with their owners. -/
abbrev Keeps (q : Req B) (J : FilesDb B → Prop) (P : α → FilesDb B → Prop)
    (p : Prog (FilesDb B) Env (FileStmt B) α) : Prop :=
  Secures Owned (fun _ => True) (Moves q) J P p

lemma keeps_of_plain {p : Prog (FilesDb B) Env (FileStmt B) α} (hp : PlainOnly p) (hdoes : Does p) :
    Keeps q (fun _ => True) (fun _ _ => True) p :=
  secures_of_guarantees (guarantees_mono (fun ev hev => ⟨hev.1, hev.2.allowed ev.pre⟩)
    (guarantees_and hdoes hp)) fun _ _ => trivial

lemma stable_mine : Stable Owned fun db : FilesDb B => mine db user uuid ≠ none :=
  fun _ _ hs hr => hr user uuid hs

lemma keeps_requireManifest : Keeps (B := B) q (fun _ => True)
    (Succeeds fun _ db => mine db user uuid ≠ none) (requireManifest user uuid).run := by
  have hget : Keeps (B := B) q (fun _ => True)
      (Succeeds fun ex db => ex.isSome → mine db user uuid ≠ none)
      (getFileManifest uuid user).run := by
    refine secures_select (fun _ _ _ _ => trivial) fun _ db _ _ => ⟨⟨.same _ db, trivial⟩, ?_⟩
    exact Option.isSome_iff_ne_none.mp
  refine secures_bind_except (secures_orInternal hget) (fun ex => ?_) fun _ _ => trivial
  cases ex with
  | none => exact secures_ret fun _ _ => trivial
  | some m => exact secures_ret fun db hs => hs rfl

lemma keeps_requireAvailable : Keeps (B := B) q (fun _ => True)
    (Succeeds fun _ db => mine db user uuid ≠ none) (requireAvailable user uuid).run := by
  refine secures_bind_except keeps_requireManifest (fun m => ?_) fun _ _ => trivial
  split
  · exact secures_ret fun _ hs => hs
  · exact secures_ret fun _ _ => trivial

lemma keeps_uploadChunk {idx : UInt32} {bytes : Option B} :
    Keeps (.uploadChunk user uuid idx bytes) (fun _ => True) (Succeeds fun _ _ => True)
      (uploadChunk user uuid idx bytes).run := by
  refine secures_bind_except keeps_requireManifest (fun m => ?_) fun _ _ => trivial
  split
  · exact secures_ret fun _ _ => trivial
  cases bytes with
  | none => exact secures_ret fun _ _ => trivial
  | some bytes =>
    have hput : Keeps (.uploadChunk user uuid idx (some bytes)) (mine · user uuid ≠ none)
        (Succeeds fun _ _ => True) (putChunk uuid idx.toNat bytes).run := by
      have hallowed (db : FilesDb B) (hs : mine db user uuid ≠ none) : Allowed
          (.uploadChunk user uuid idx (some bytes)) (.putChunk uuid idx.toNat bytes) db :=
        ⟨user, idx, rfl, rfl, hs⟩
      exact secures_statement stable_mine (fun _ db hs _ => ⟨.same _ db, hallowed db hs⟩)
        fun _ db hs _ => ⟨⟨.putChunk _ _ bytes db, hallowed db hs⟩, trivial⟩
    have hmark : Keeps (B := B) (.uploadChunk user uuid idx (some bytes)) (fun _ => True)
        (Succeeds fun _ _ => True) (setChunkUploaded uuid idx.toNat user).run :=
      secures_statement (fun _ _ _ _ => trivial) (fun _ db _ _ => ⟨.same _ db, trivial⟩)
        fun _ db _ _ => ⟨⟨.setChunkUploaded _ _ _ db, trivial⟩, trivial⟩
    refine secures_bind_except (P := fun b db => mine db user uuid ≠ none ∧ b = bytes)
      (secures_ret fun _ hs => ⟨hs, rfl⟩) (fun b => secures_of_fact fun hb => ?_) fun _ _ => trivial
    subst hb
    exact secures_bind_except (secures_orInternal hput) (fun _ => secures_orInternal hmark)
      fun _ _ => trivial

lemma keeps_downloadChunk {idx : UInt32} :
    Keeps (B := B) (.downloadChunk user uuid idx) (fun _ => True) (fun _ _ => True)
      (downloadChunk user uuid idx).run := by
  refine secures_bind_except keeps_requireAvailable (fun _ => ?_) fun _ _ => trivial
  have hget : Keeps (B := B) (.downloadChunk user uuid idx) (mine · user uuid ≠ none)
      (Succeeds fun _ _ => True) (getChunk uuid idx.toNat).run :=
    secures_select stable_mine fun _ db hs _ => ⟨⟨.same _ db, user, idx, rfl, rfl, hs⟩, trivial⟩
  refine secures_bind_except (secures_orInternal hget) (fun bytes => ?_) fun _ _ => trivial
  cases bytes with
  | none => exact secures_ret fun _ _ => trivial
  | some bytes => exact secures_ret fun _ _ => trivial

lemma keeps_code (q : Req B) : Keeps q (fun _ => True) (fun _ _ => True) (code var q) := by
  cases q with
  | initiate user uuid req =>
    exact keeps_of_plain (guarantees_bind (plain_uploadInitiate req) fun _ => guarantees_ret _)
      (does_code (.initiate user uuid req))
  | complete user uuid =>
    exact keeps_of_plain (guarantees_bind plain_uploadComplete fun _ => guarantees_ret _)
      (@does_code _ var (.complete user uuid))
  | uploadChunk user uuid idx bytes =>
    exact secures_bind keeps_uploadChunk fun r => secures_ret fun _ _ => trivial
  | status user uuid =>
    exact keeps_of_plain (guarantees_bind (guarantees_bind_except plain_requireManifest fun _ =>
      guarantees_bind_except (guarantees_orInternal (plain_statement trivial)) fun _ =>
      guarantees_pure_except _) fun _ => guarantees_ret _)
      (@does_code _ var (.status user uuid))
  | download user uuid =>
    exact keeps_of_plain (guarantees_bind (guarantees_bind_except plain_requireAvailable fun _ =>
      guarantees_pure_except _) fun _ => guarantees_ret _)
      (@does_code _ var (.download user uuid))
  | downloadChunk user uuid idx =>
    exact secures_bind keeps_downloadChunk fun r => secures_ret fun _ _ => trivial

/-! ### Where the chunks come from -/

/-- The chunk was stored by a request of this user for it, and was there when it was stored. -/
def Put (calls : List (Call (Req B) (FilesDb B) Env (FileStmt B) (Reply B))) (user uuid : Ident)
    (idx : UInt32) (bytes : B) : Prop :=
  ∃ c ∈ calls, c.req = .uploadChunk user uuid idx (some bytes) ∧
    ∃ ev ∈ c.trace, ev.name = .putChunk uuid idx.toNat bytes ∧
      (ev.post.chunks.get (uuid, (idx.toNat : ℤ))).map (·.bytes) = some bytes

/-- Every chunk was stored by the owner of its file. -/
def Uploaded (calls : List (Call (Req B) (FilesDb B) Env (FileStmt B) (Reply B))) (db : FilesDb B) :
    Prop :=
  ∀ uuid i r, db.chunks.get (uuid, i) = some r → ∃ user idx, i = UInt32.toNat idx ∧
    mine db user uuid ≠ none ∧ Put calls user uuid idx r.bytes

variable {calls calls' : List (Call (Req B) (FilesDb B) Env (FileStmt B) (Reply B))}

lemma Uploaded.mono {db : FilesDb B} (h : Uploaded calls db)
    (hput : ∀ user uuid idx bytes, Put calls user uuid idx bytes → Put calls' user uuid idx bytes) :
    Uploaded calls' db := by
  intro uuid i r hr
  obtain ⟨user, idx, hi, hmine, hp⟩ := h uuid i r hr
  exact ⟨user, idx, hi, hmine, hput user uuid idx r.bytes hp⟩

/-- What a statement leaves was stored before, or is stored by it. -/
lemma uploaded_step {ev : FileEv B} (hev : Moves q ev)
    (hnew : ∀ user uuid idx bytes, q = .uploadChunk user uuid idx (some bytes) →
      ev.name = .putChunk uuid idx.toNat bytes →
      (ev.post.chunks.get (uuid, (idx.toNat : ℤ))).map (·.bytes) = some bytes →
      Put calls user uuid idx bytes)
    (h : Uploaded calls ev.pre) : Uploaded calls ev.post := by
  obtain ⟨l, e, db, db'⟩ := ev
  obtain ⟨hstep, hallowed⟩ := hev
  change FileStep l db db' at hstep
  have howned := owned_step hstep
  have hold {uuid : Ident} {i : ℤ} {r : ChunkRow B} (hr : db.chunks.get (uuid, i) = some r) :
      ∃ user idx, i = UInt32.toNat idx ∧ mine db' user uuid ≠ none ∧
        Put calls user uuid idx r.bytes := by
    obtain ⟨user, idx, hi, hmine, hp⟩ := h uuid i r hr
    exact ⟨user, idx, hi, howned user uuid hmine, hp⟩
  intro uuid i r hr
  cases hstep with
  | putChunk f j bytes =>
    obtain ⟨user, idx, hq, hj, hmine⟩ := hallowed
    have hpost := hr
    dsimp only at hr
    rw [get_put] at hr
    split at hr
    · next hkey =>
      obtain ⟨rfl, rfl⟩ := Prod.mk.inj hkey
      have hbytes : r.bytes = bytes := by
        cases hget : db.chunks.get (f, j) with
        | none => rw [hget] at hr; cases hr; rfl
        | some r' => rw [hget] at hr; cases hr; rfl
      refine ⟨user, idx, hj, howned user f hmine, ?_⟩
      subst hbytes hj
      exact hnew user f idx r.bytes hq rfl (by rw [hpost, Option.map_some])
    · exact hold hr
  | _ => exact hold hr

/-- The chunks of the state, and those that the statements so far have found. -/
structure Sourced (σ : FileSys B) : Prop where
  now : Uploaded σ.calls σ.shared
  found : ∀ c ∈ σ.calls, ∀ ev ∈ c.trace, Uploaded σ.calls ev.pre

lemma put_exec {σ : FileSys B} {i : ℕ} {tr : List (FileEv B)} {ev : FileEv B}
    {p p' : Prog (FilesDb B) Env (FileStmt B) (Reply B)} (hc : σ.calls[i]? = some ⟨q, tr, p⟩)
    {idx : UInt32} {bytes : B} (h : Put σ.calls user uuid idx bytes) :
    Put (σ.calls.set i ⟨q, tr ++ [ev], p'⟩) user uuid idx bytes := by
  obtain ⟨c, hmem, hreq, ev', hev, hstored⟩ := h
  rcases mem_set_of_mem (b := ⟨q, tr ++ [ev], p'⟩) hc hmem with rfl | hstays
  · have hlt := (List.getElem?_eq_some_iff.mp hc).1
    exact ⟨_, List.mem_set hlt _, hreq, ev', List.mem_append_left _ hev, hstored⟩
  · exact ⟨c, hstays, hreq, ev', hev, hstored⟩

lemma sourced_call {σ : FileSys B} (hσ : Sourced σ) (q : Req B) :
    Sourced ⟨σ.shared, σ.calls ++ [⟨q, [], code var q⟩]⟩ := by
  have hput (user uuid : Ident) (idx : UInt32) (bytes : B) (h : Put σ.calls user uuid idx bytes) :
      Put (σ.calls ++ [⟨q, [], code var q⟩]) user uuid idx bytes :=
    h.imp fun _ hc => ⟨List.mem_append_left _ hc.1, hc.2⟩
  refine ⟨hσ.now.mono hput, fun c hc ev hev => ?_⟩
  rcases List.mem_append.mp hc with hc | hc
  · exact (hσ.found c hc ev hev).mono hput
  · rw [List.mem_singleton.mp hc] at hev
    cases hev

lemma sourced_exec {σ : FileSys B} {i : ℕ} {e : Env} {tr : List (FileEv B)} {l : FileStmt B}
    {f : Env → FilesDb B → FilesDb B}
    {k : Env → FilesDb B → Prog (FilesDb B) Env (FileStmt B) (Reply B)}
    (hc : σ.calls[i]? = some ⟨q, tr, .stmt l f k⟩)
    (hev : Moves q ⟨l, e, σ.shared, f e σ.shared⟩) (hσ : Sourced σ) : Sourced ⟨f e σ.shared,
      σ.calls.set i ⟨q, tr ++ [⟨l, e, σ.shared, f e σ.shared⟩], k e σ.shared⟩⟩ := by
  have hlt := (List.getElem?_eq_some_iff.mp hc).1
  have hput (user uuid : Ident) (idx : UInt32) (bytes : B) (h : Put σ.calls user uuid idx bytes) :
      Put (σ.calls.set i ⟨q, tr ++ [⟨l, e, σ.shared, f e σ.shared⟩], k e σ.shared⟩) user uuid idx
        bytes := put_exec hc h
  have hnow := hσ.now.mono hput
  refine ⟨uploaded_step hev (fun user uuid idx bytes hq hname hstored => ?_) hnow,
    fun c hmem ev hevm => ?_⟩
  · exact ⟨_, List.mem_set hlt _, hq, _, List.mem_append_right _ (List.mem_singleton_self _),
      hname, hstored⟩
  · obtain ⟨j, hj⟩ := List.mem_iff_getElem?.mp hmem
    rcases mem_trace_set hc hj hevm with rfl | ⟨c', hc', hold⟩
    · exact hnow
    · exact (hσ.found c' (List.mem_of_getElem? hc') ev hold).mono hput

/-! ### Whole runs -/

/-- All calls run on. -/
abbrev Never (_ _ : Req B) : Prop := False

variable (var) in
lemma tolerant : Tolerant (code (B := B) var) Never Never (fun _ => Owned) Moves
    (fun _ _ => True) (fun _ _ _ => True) fun _ => True where
  secures := keeps_code
  refl _ _ _ _ h := h
  trans _ _ _ _ h h' user uuid hne := h' user uuid (h user uuid hne)
  symm _ _ h := h
  inv _ _ _ _ := trivial
  rely _ _ _ hev _ _ := owned_step hev.1
  post _ _ _ _ _ _ _ _ := trivial

lemma going_run (as : List (Act (Req B) Env)) : Going Never Never (fun _ => Owned) Moves
    (fun _ _ _ => True) (fun _ => True) Sourced (run (code var) (init noFiles) as) := by
  refine run_turns (C := fun _ _ => True) (P := Sourced) (tolerant var) (fun σ a _ => ?_)
    (fun _ _ _ _ => trivial) (fun _ q _ hσ => sourced_call hσ q)
    (fun _ _ _ _ _ _ _ _ hc hev hσ => sourced_exec hc hev hσ)
    (going_init trivial ⟨fun uuid i r hr => ?_, fun c hc => ?_⟩) (along_true as _)
  · cases a with
    | call q => exact fun _ _ _ _ h => h.elim
    | exec i e => exact fun _ _ _ _ _ _ h => h
  · cases hr
  · cases hc

/-- The chunk is what a statement has read. -/
def Reads (tr : List (FileEv B)) (uuid : Ident) (idx : UInt32) (bytes : B) : Prop :=
  ∃ ev ∈ tr, ev.name = .getChunk uuid idx.toNat ∧
    (ev.pre.chunks.get (uuid, (idx.toNat : ℤ))).map (·.bytes) = some bytes

/-- What a download answers it has read. -/
def Found (q : Req B) (a : Reply B) (tr : List (FileEv B)) : Prop :=
  ∀ user uuid idx bytes, q = .downloadChunk user uuid idx → a = .chunk (.ok bytes) →
    Reads tr uuid idx bytes

lemma wp_downloadChunk (idx : UInt32) (tr : List (FileEv B)) (s : FilesDb B) :
    wp (assume (fun _ _ _ => True) fun _ => True) (downloadChunk user uuid idx).run
      (Ok fun bytes tr _ => Reads tr uuid idx bytes) tr s := by
  refine wp_bind_ok (wp_trivial (fun _ => trivial) (fun r tr s => ?_) _ tr s)
  cases r with
  | error e => trivial
  | ok m =>
    refine wp_bind_ok (wp_orInternal_ok (wp_select_ok fun s' e _ _ _ => ?_))
    cases hget : (s'.chunks.get (uuid, (idx.toNat : ℤ))).map (·.bytes) with
    | none => trivial
    | some bytes => exact ⟨_, List.mem_append_right _ (List.mem_singleton_self _), rfl, hget⟩

lemma wp_found (q : Req B) (s : FilesDb B) : wp (assume (fun _ _ _ => True) fun _ => True)
    (code var q) (fun a tr _ => Found q a tr) [] s := by
  cases q with
  | downloadChunk user uuid idx =>
    refine (wp_bind _ _ _ _ _).mpr (wp_mono (fun r tr s hr => ?_) (wp_downloadChunk idx [] s))
    intro user' uuid' idx' bytes hq ha
    cases hq
    cases ha
    exact hr
  | _ => exact wp_trivial (fun _ => trivial) (fun _ _ _ _ _ _ _ h => by cases h) _ _ _

/-- A file has one owner. -/
lemma owner_unique {db : FilesDb B} {u : Ident} (h : mine db user uuid ≠ none)
    (h' : mine db u uuid ≠ none) : u = user := by
  obtain ⟨m, hm⟩ := Option.ne_none_iff_exists'.mp h
  obtain ⟨m', hm'⟩ := Option.ne_none_iff_exists'.mp h'
  obtain ⟨hget, rfl⟩ := mine_eq_some.mp hm
  obtain ⟨hget', rfl⟩ := mine_eq_some.mp hm'
  rw [hget, Option.some.injEq] at hget'
  rw [hget']

/-- **Attachments stay with their owners.** Whatever the requests do to each other: a chunk that a
user is handed out for a file was stored for that file, at that place, by a request of the same
user. -/
theorem downloads_own {as : List (Act (Req B) Env)}
    {c : Call (Req B) (FilesDb B) Env (FileStmt B) (Reply B)}
    (hc : c ∈ (run (code var) (init noFiles) as).calls) {idx : UInt32} {bytes : B}
    (hreq : c.req = .downloadChunk user uuid idx)
    (hres : c.prog.result = some (.chunk (.ok bytes))) :
    Put (run (code var) (init noFiles) as).calls user uuid idx bytes := by
  obtain ⟨ev, hev, hname, hget⟩ := run_post (fun q s => wp_found q s) noFiles as c hc _ hres
    user uuid idx bytes hreq rfl
  have hσ := @going_run B var as
  obtain ⟨i, hi⟩ := List.mem_iff_getElem?.mp hc
  have hmoves : Every (Moves c.req) c.trace :=
    wp_mid (hσ.live i c hi fun _ _ _ _ h => h) fun _ _ h => h.1
  obtain ⟨r, hr, rfl⟩ := Option.map_eq_some_iff.mp hget
  obtain ⟨owner, idx', hidx, howner, hput⟩ := hσ.rest.found c hc ev hev uuid _ r hr
  have hallowed := (hmoves ev hev).2
  rw [hname, hreq] at hallowed
  obtain ⟨user', _, hq, -, hmine⟩ := hallowed
  cases hq
  obtain rfl := owner_unique hmine howner
  obtain rfl : idx = idx' := UInt32.toNat_inj.mp (by exact_mod_cast hidx)
  exact hput

def handedOut : Option (Reply B) → Option B
  | some (.chunk (.ok bytes)) => some bytes
  | _ => none

lemma handedOut_eq_some {r : Option (Reply B)} {bytes : B} (h : handedOut r = some bytes) :
    r = some (.chunk (.ok bytes)) := by
  unfold handedOut at h
  split at h
  · rw [Option.some.injEq] at h
    rw [h]
  · cases h

/-- The owner downloads what was uploaded. -/
def smallDownload : List (Act (Req Bool) Env) :=
  smallUpload ++ .call (.downloadChunk 1 7 0) :: List.replicate 2 (.exec 3 ⟨0, 0, false⟩)

theorem small_downloads : Put (run (code none) (init noFiles) smallDownload).calls 1 7 0 true := by
  obtain ⟨c, hc, hreq⟩ := Option.map_eq_some_iff.mp (req_of_call (h := code none) (init noFiles)
    smallUpload (List.replicate 2 (.exec 3 ⟨0, 0, false⟩)) (.downloadChunk 1 7 0))
  have hanswered : ∀ c ∈ (run (code none) (init noFiles) smallDownload).calls[3]?,
      handedOut c.prog.result = some true := by decide
  exact downloads_own (List.mem_of_getElem? hc) hreq (handedOut_eq_some (hanswered c hc))

end Vautr.FileOwners
