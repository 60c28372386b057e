import Vautr.Api
import Vautr.Interleave
import Vautr.Sql
import Mathlib.Data.List.Basic
import Mathlib.Data.List.Sort
import Mathlib.Data.Int.Order.Basic

/-!
The server's tables of accounts and items, and the repository statements on them
(`repository/users.rs`, `repository/items.rs`).

Every `sqlx` query is one atomic statement. It may fail, with no effect on the tables.
Identifiers are texts of which only equality is used, so they are numbers here; `i64`
columns are integers. Blobs stay a parameter `B`: the server stores them and never looks
inside.
-/

namespace Vautr.Server

open Vautr.Atomic Vautr.Sql Vautr.Database

abbrev Ident := ℕ

/-- What a statement reads from outside the database: the clock, a fresh `Uuid::new_v4()`
and whether the database refuses to run it. -/
structure Env where
  now : ℤ
  uuid : Ident
  fault : Bool
  deriving DecidableEq

instance : Faulty Env := ⟨Env.fault⟩

/-- Row mirror of `users`. -/
structure UserRow (B : Type) where
  id : Ident
  email : String
  kdfSalt : B
  opaqueRecord : B
  svkCiphertextBlob : B
  svkCiphertextBlobRk : B
  minEncKeyGen : ℤ
  createdAt : ℤ
  updatedAt : ℤ

/-- Row mirror of `items`. -/
structure ItemRow (B : Type) where
  uuid : Ident
  userId : Ident
  version : ℤ
  encKeyGen : ℤ
  deletedDate : Option ℤ
  payload : Option B
  updatedAt : ℤ
  seq : Option ℤ
  deriving DecidableEq

/-- The primary key of `items`. -/
def ItemRow.key {B : Type} (r : ItemRow B) : Ident × Ident := (r.uuid, r.userId)

structure Db (B : Type) where
  users : Table (UserRow.id : UserRow B → Ident)
  items : Table (ItemRow.key : ItemRow B → Ident × Ident)

/-- The statements, by the repository function that runs them. `updateItem` and
`insertItem` are the two writes of `upsert_item_occ`, and `probeItem` its read of the
prior row. -/
inductive Stmt
  | minEncKeyGen (user : Ident)
  | probeItem (uuid user : Ident) (gen : ℤ)
  | updateItem (uuid user : Ident) (gen : ℤ)
  | insertItem (uuid user : Ident) (gen : ℤ)
  | getItem (uuid user : Ident)
  | minSeq (user : Ident)
  | pullPage (user : Ident)
  | getUserById (user : Ident)
  | updateMinEncKeyGen (user : Ident) (gen : ℤ)
  | updateSvk (user : Ident)
  | updateSvkBlobOnly (user : Ident)
  | auditLog
  | clock
  deriving DecidableEq

variable {B : Type}

/-- A statement that was run on the database. -/
abbrev DbEv (B : Type) := Ev (Db B) Env Stmt

/-- A repository call. -/
abbrev Repo (B : Type) := Query (Db B) Env Stmt

/-! ### `repository/users.rs` -/

def minEncKeyGen (user : Ident) : Repo B (Option ℤ) :=
  select (.minEncKeyGen user) fun db => (db.users.get user).map (·.minEncKeyGen)

def getUserById (user : Ident) : Repo B (Option (UserRow B)) :=
  select (.getUserById user) fun db => db.users.get user

/-- `UPDATE users SET ... WHERE id = ?`. -/
def updateUser (l : Stmt) (user : Ident) (f : UserRow B → UserRow B)
    (hf : ∀ r, (f r).id = r.id) : Repo B Unit :=
  statement l fun _ db => ({ db with users := db.users.update (fun r => r.id = user) f hf }, .ok ())

def updateMinEncKeyGen (user : Ident) (gen : ℤ) : Repo B Unit :=
  updateUser (.updateMinEncKeyGen user gen) user (fun r => { r with minEncKeyGen := gen })
    (by intro r; rfl)

def updateSvk (user : Ident) (blob blobRk : B) : Repo B Unit :=
  updateUser (.updateSvk user) user
    (fun r => { r with svkCiphertextBlob := blob, svkCiphertextBlobRk := blobRk })
    (by intro r; rfl)

def updateSvkBlobOnly (user : Ident) (blob : B) : Repo B Unit :=
  statement (.updateSvkBlobOnly user) fun e db =>
    let set (r : UserRow B) : UserRow B := { r with svkCiphertextBlob := blob, updatedAt := e.now }
    ({ db with users := db.users.update (fun r => r.id = user) set (by intro r; rfl) }, .ok ())

/-! ### `repository/items.rs` -/

/-- `SELECT COALESCE(MAX(seq), 0) + 1 FROM items WHERE user_id = ?`. -/
def nextSeq (db : Db B) (user : Ident) : ℤ :=
  (((db.items.rows.filter fun r => r.userId = user).filterMap (·.seq)).max?).getD 0 + 1

def getItem (uuid user : Ident) : Repo B (Option (ItemRow B)) :=
  select (.getItem uuid user) fun db => db.items.get (uuid, user)

/-- `SELECT MIN(seq) FROM items WHERE user_id = ? AND seq IS NOT NULL`, read as an `i64`: the
`NULL` of a user without items is read as 0. -/
def minSeq (user : Ident) : Repo B ℤ :=
  select (.minSeq user) fun db =>
    (((db.items.rows.filter fun r => r.userId = user).filterMap (·.seq)).min?).getD 0

/-- The rows of a user after `cursor`, in the order of `seq`. -/
def itemsAfter (db : Db B) (user : Ident) (cursor : ℤ) : List (ItemRow B) :=
  (db.items.rows.filter fun r => decide (r.userId = user) && r.seq.any (cursor < ·)).insertionSort
    fun a b => a.seq.getD 0 ≤ b.seq.getD 0

/-- `SELECT * FROM items WHERE user_id = ? AND seq IS NOT NULL AND seq > ? ORDER BY seq ASC
LIMIT ?`. -/
def pullPage (user : Ident) (cursor : ℤ) (limit : ℕ) : Repo B (List (ItemRow B)) :=
  select (.pullPage user) fun db => (itemsAfter db user cursor).take limit

/-- The arguments of `upsert_item_occ`. -/
structure Upsert (B : Type) where
  uuid : Ident
  userId : Ident
  targetVersion : ℤ
  encKeyGen : ℤ
  payload : Option B
  deletedDate : Option ℤ
  now : ℤ

/-- The row the call is about. -/
def Upsert.key (q : Upsert B) : Ident × Ident := (q.uuid, q.userId)

/-- The row an applied call leaves behind, with version `v` and sequence number `n`. -/
def Upsert.row (q : Upsert B) (v n : ℤ) : ItemRow B :=
  ⟨q.uuid, q.userId, v, q.encKeyGen, q.deletedDate, q.payload, q.now, some n⟩

/-- `WHERE uuid = ? AND user_id = ? AND version = ?`. -/
def Upsert.hits (q : Upsert B) (r : ItemRow B) : Bool :=
  r.uuid = q.uuid && r.userId = q.userId && r.version = q.targetVersion

/-- `SET payload = ?, version = version + 1, enc_key_gen = ?, deleted_date = ?,
updated_at = ?, seq = ?`. -/
def Upsert.set (q : Upsert B) (n : ℤ) (r : ItemRow B) : ItemRow B :=
  { r with
    payload := q.payload
    version := r.version + 1
    encKeyGen := q.encKeyGen
    deletedDate := q.deletedDate
    updatedAt := q.now
    seq := some n }

lemma Upsert.set_key (q : Upsert B) (n : ℤ) (r : ItemRow B) : (q.set n r).key = r.key := rfl

/-- The `UPDATE` of `upsert_item_occ`; returns `rows_affected`. -/
def updateItem (q : Upsert B) : Repo B ℕ :=
  statement (.updateItem q.uuid q.userId q.encKeyGen) fun _ db =>
    ({ db with
        items := db.items.update q.hits (q.set (nextSeq db q.userId)) (q.set_key _) },
      .ok (db.items.rows.countP q.hits))

/-- `INSERT INTO items (...) VALUES (?, ?, 1, ...)`. -/
def insertItem (q : Upsert B) : Repo B Unit :=
  statement (.insertItem q.uuid q.userId q.encKeyGen) fun _ db =>
    match db.items.insert (q.row 1 (nextSeq db q.userId)) with
    | none => (db, .error .unique)
    | some items =>
      -- the foreign key `user_id REFERENCES users(id)`
      if (db.users.get q.userId).isSome then ({ db with items }, .ok ())
      else (db, .error .foreignKey)

/-- Result of an OCC upsert. -/
inductive UpsertOutcome
  | updated
  | recovered
  | conflict
  | epochTooOld
  deriving DecidableEq

/-- `Uuid::parse_str(..).is_ok()`, of the `uuid` crate. -/
abbrev IsUuid := Ident → Bool

def upsertItemOcc (isUuid : IsUuid) (q : Upsert B) : Repo B UpsertOutcome := do
  if !isUuid q.uuid then
    throw (.protocol "invalid item uuid")
  else if (← minEncKeyGen q.userId).any (q.encKeyGen < ·) then
    return .epochTooOld
  else
    let prior ← select (.probeItem q.uuid q.userId q.encKeyGen) fun db => db.items.get q.key
    let priorTombstoned := (prior.map (·.deletedDate.isSome)).getD false
    if (← updateItem q) = 1 then
      return if priorTombstoned && q.deletedDate.isNone then .recovered else .updated
    else if q.targetVersion = 0 then
      -- the result of the `INSERT` is inspected, not propagated
      match ← attempt (insertItem q) with
      | .ok () => return .updated
      | .error .unique => return .conflict
      | .error e => throw e
    else
      return .conflict

/-! ### What the calls promise -/

section Guarantees

variable {α : Type} {rely : Stmt → Db B → Db B → Prop} {G : DbEv B → Prop}

lemma guarantees_select (hsame : ∀ l e s, G ⟨l, e, s, s⟩) (l : Stmt) (g : Db B → α) :
    Guarantees rely G (select l g : Repo B α).run :=
  guarantees_statement (fun e s => hsame l e s) fun e s => hsame l e s

/-- The call reads, and runs its `UPDATE`, and the `INSERT` only for the version 0. -/
lemma guarantees_upsertItemOcc_of_parts {isUuid : IsUuid} {q : Upsert B}
    (hgate : Guarantees rely G (minEncKeyGen q.userId : Repo B _).run)
    (hprobe : Guarantees rely G (select (.probeItem q.uuid q.userId q.encKeyGen)
      fun db => db.items.get q.key : Repo B _).run)
    (hupdate : Guarantees rely G (updateItem q).run)
    (hinsert : q.targetVersion = 0 → Guarantees rely G (insertItem q).run) :
    Guarantees rely G (upsertItemOcc isUuid q).run := by
  unfold upsertItemOcc
  split
  · exact guarantees_throw_except _
  refine guarantees_bind_except hgate fun gen => ?_
  split
  · exact guarantees_pure_except _
  refine guarantees_bind_except hprobe fun prior => guarantees_bind_except hupdate fun n => ?_
  split
  · exact guarantees_pure_except _
  split
  · next htarget =>
    refine guarantees_bind_except (guarantees_attempt (hinsert htarget)) ?_
    rintro (e | _)
    · cases e <;> first | exact guarantees_pure_except _ | exact guarantees_throw_except _
    · exact guarantees_pure_except _
  · exact guarantees_pure_except _

lemma guarantees_upsertItemOcc (hsame : ∀ l e s, G ⟨l, e, s, s⟩) {isUuid : IsUuid} {q : Upsert B}
    (hupdate : Guarantees rely G (updateItem q).run)
    (hinsert : q.targetVersion = 0 → Guarantees rely G (insertItem q).run) :
    Guarantees rely G (upsertItemOcc isUuid q).run :=
  guarantees_upsertItemOcc_of_parts (guarantees_select hsame _ _) (guarantees_select hsame _ _)
    hupdate hinsert

end Guarantees

end Vautr.Server
