import Vautr.Server

/-!
The HTTP handlers that write items and rotate keys (`handlers/account.rs`,
`handlers/sync.rs`), for a caller that `auth_user` has identified.

The functions of third-party crates the handlers use are the parameter `X`.
-/

namespace Vautr.Handlers

open Vautr.Atomic Vautr.Database Vautr.Api Vautr.Server

/-- Functions of third-party crates: `Uuid::parse_str(..).is_ok()` and `Vec::len` of a
blob. -/
structure Ext (B : Type) where
  isUuid : IsUuid
  len : B → ℕ

variable {B : Type} (X : Ext B)

abbrev ServerHandler (B : Type) := Handler (Db B) Env Stmt

/-- `now_ms()`. -/
def nowMs : ServerHandler B ℤ := ExceptT.mk (Prog.atom .clock fun e db => (db, .ok e.now))

/-! ### `handlers/account.rs` -/

structure RotateKeyReq (B : Type) where
  userId : Ident
  newMinEncKeyGen : ℤ
  newSvkCiphertextBlob : Option B

structure RotateKeyResp where
  status : String
  minEncKeyGen : ℤ
  deriving DecidableEq

def auditLog : Repo B Unit := statement .auditLog fun _ db => (db, .ok ())

def accountRotateKey (req : RotateKeyReq B) : ServerHandler B RotateKeyResp := do
  let svk ← decodeB64 req.newSvkCiphertextBlob
  if X.len svk = 0 ∨ 4096 < X.len svk then
    throw (.badRequest "invalid_blob_size" "svk blob must be 1..=4096 bytes")
  else
    match ← orInternal (getUserById req.userId) with
    | none => throw (.badRequest "not_found" "unknown user")
    | some user =>
      if req.newMinEncKeyGen ≤ user.minEncKeyGen then
        return ⟨"success", user.minEncKeyGen⟩
      else
        orInternal (updateMinEncKeyGen req.userId req.newMinEncKeyGen)
        orInternal (updateSvk req.userId svk user.svkCiphertextBlobRk)
        orInternal auditLog
        return ⟨"success", req.newMinEncKeyGen⟩

/-- `account_rekey_svk`, for the user of the session. -/
def accountRekeySvk (user : Ident) (newSvkCiphertextBlob : Option B) : ServerHandler B Unit := do
  let blob ← decodeB64 newSvkCiphertextBlob
  if X.len blob = 0 ∨ 4096 < X.len blob then
    throw (.badRequest "invalid_blob_size" "svk blob must be 1..=4096 bytes")
  else
    orInternal (updateSvkBlobOnly user blob)
    ignored auditLog

/-- What a sync reads of `account_status`: the user's generation. -/
def accountStatus (user : Ident) : ServerHandler B ℤ := do
  match ← orInternal (getUserById user) with
  | none => throw (.badRequest "not_found" "unknown user")
  | some user => return user.minEncKeyGen

/-- What a login reads of it: the generation and the vault key under the master password. -/
def loginStatus (user : Ident) : ServerHandler B (ℤ × B) := do
  match ← orInternal (getUserById user) with
  | none => throw (.badRequest "not_found" "unknown user")
  | some user => return (user.minEncKeyGen, user.svkCiphertextBlob)

/-! ### `handlers/sync.rs` -/

/-- `as i64` of a `u64`. -/
def asI64 (n : UInt64) : ℤ := n.toBitVec.toInt

/-- `as u64` of an `i64`. -/
def asU64 (z : ℤ) : UInt64 := UInt64.ofNat (z % 2 ^ 64).toNat

@[simp] lemma asU64_asI64 (n : UInt64) : asU64 (asI64 n) = n := by
  have hlt : n.toNat < 2 ^ 64 := n.toNat_lt
  have hn : n.toBitVec.toNat = n.toNat := rfl
  have h : asI64 n % 2 ^ 64 = n.toNat := by
    rw [asI64, BitVec.toInt_eq_toNat_cond]
    split <;> omega
  rw [asU64, h]
  simp

structure PullItem where
  uuid : Ident
  version : ℤ
  encKeyGen : ℤ
  deletedDate : Option ℤ
  deriving DecidableEq

structure PullResp where
  newCursor : UInt64
  hasMore : Bool
  minEncKeyGen : ℤ
  items : List PullItem
  deriving DecidableEq

/-- `i64::saturating_sub(1)`. -/
def saturatingPred (z : ℤ) : ℤ := max (z - 1) (-2 ^ 63)

def syncPull (user : Ident) (cursor : UInt64) (limit : Option ℕ) : ServerHandler B PullResp := do
  let minGen := (← orInternal (minEncKeyGen user)).getD 1
  let limit := limit.getD 100
  if limit = 0 ∨ 1000 < limit then
    throw (.badRequest "payload_limit_exceeded" "limit must be between 1 and 1000")
  else
    if asI64 cursor < saturatingPred (← orInternal (minSeq user)) then
      throw (.new 410 "cursor_expired" "The requested sync cursor is no longer available.")
    else
      let rows ← orInternal (pullPage user (asI64 cursor) (limit + 1))
      let taken := rows.take limit
      return ⟨((taken.getLast?.bind (·.seq)).map asU64).getD cursor, limit < rows.length, minGen,
        taken.map fun r => ⟨r.uuid, r.version, r.encKeyGen, r.deletedDate⟩⟩

/-- The `status` field of a `PayloadResult`. -/
inductive PayloadStatus
  | payloadDelivered
  | versionMismatch
  deriving DecidableEq

structure PayloadResult (B : Type) where
  uuid : Ident
  status : PayloadStatus
  version : ℤ
  encKeyGen : ℤ
  deletedDate : Option ℤ
  payload : Option B

/-- What is answered for one target, with the row that was found. -/
def payloadResult (uuid : Ident) (version : UInt64) : Option (ItemRow B) → PayloadResult B
  | some r =>
    if asU64 r.version = version then
      ⟨r.uuid, .payloadDelivered, r.version, r.encKeyGen, r.deletedDate, r.payload⟩
    else ⟨r.uuid, .versionMismatch, r.version, r.encKeyGen, r.deletedDate, none⟩
  | none => ⟨uuid, .versionMismatch, 0, 0, none, none⟩

/-- The loop over the targets. -/
def pullPayloads (user : Ident) : List (Ident × UInt64) → ServerHandler B (List (PayloadResult B))
  | [] => pure []
  | (uuid, version) :: rest => do
    let row ← orInternal (getItem uuid user)
    return payloadResult uuid version row :: (← pullPayloads user rest)

def syncPullPayloads (user : Ident) (items : List (Ident × UInt64)) :
    ServerHandler B (List (PayloadResult B)) := do
  if 100 < items.length then
    throw (.badRequest "payload_limit_exceeded" "max 100 items per pull-payloads")
  else
    pullPayloads user items

structure PushItem (B : Type) where
  uuid : Ident
  targetVersion : UInt64
  encKeyGen : UInt64
  payload : Option (Option B)
  deletedDate : Option ℤ

/-- The `status` field of a `PushResult`. -/
inductive PushStatus
  | success
  | conflict
  | epochTooOld
  deriving DecidableEq

structure ServerState where
  version : ℤ
  encKeyGen : ℤ
  deriving DecidableEq

structure PushResult where
  uuid : Ident
  status : PushStatus
  version : Option ℤ
  encKeyGen : Option ℤ
  updatedAt : Option ℤ
  currentServerState : Option ServerState
  deriving DecidableEq

def PushResult.refused (uuid : Ident) (status : PushStatus) (st : Option ServerState) :
    PushResult := ⟨uuid, status, none, none, none, st⟩

/-- The answer to a push that was applied: the row is read back, and `unwrap`ped. -/
def pushedRow (user : Ident) (item : PushItem B) : ServerHandler B PushResult := do
  match ← orInternal (getItem item.uuid user) with
  | some row =>
    return ⟨item.uuid, .success, some row.version, some row.encKeyGen, some row.updatedAt, none⟩
  | none => throw .panic

/-- The arguments of `upsert_item_occ` for one item of a batch. -/
def PushItem.upsert (user : Ident) (now : ℤ) (item : PushItem B) (payload : Option B) :
    Upsert B :=
  ⟨item.uuid, user, asI64 item.targetVersion, asI64 item.encKeyGen, payload, item.deletedDate,
    now⟩

/-- A push without a payload is a tombstone. -/
def decodePayload : Option (Option B) → ServerHandler B (Option B)
  | some p => some <$> decodeB64 p
  | none => pure none

/-- One item of a batch. -/
def pushItem (user : Ident) (now : ℤ) (item : PushItem B) : ServerHandler B PushResult := do
  let minGen := (← orInternal (minEncKeyGen user)).getD 1
  if item.encKeyGen < asU64 minGen then
    return .refused item.uuid .epochTooOld none
  else
    let payload ← decodePayload item.payload
    match ← orInternal (upsertItemOcc X.isUuid (item.upsert user now payload)) with
    | .updated => pushedRow user item
    | .recovered => pushedRow user item
    | .conflict =>
      let row ← orInternal (getItem item.uuid user)
      return .refused item.uuid .conflict (row.map fun r => ⟨r.version, r.encKeyGen⟩)
    | .epochTooOld => return .refused item.uuid .epochTooOld none

/-- The loop over the batch. -/
def pushItems (user : Ident) (now : ℤ) : List (PushItem B) → ServerHandler B (List PushResult)
  | [] => pure []
  | item :: rest => do
    let r ← pushItem X user now item
    return r :: (← pushItems user now rest)

structure PushBatchReq (B : Type) where
  userId : Ident
  items : List (PushItem B)

def syncPushBatch (req : PushBatchReq B) : ServerHandler B (List PushResult) := do
  if 100 < req.items.length then
    throw (.badRequest "payload_limit_exceeded" "max 100 items per push-batch")
  else
    let now ← nowMs
    pushItems X req.userId now req.items

/-! ### The server -/

/-- What clients ask of the server. `upsert` stands for a direct use of the repository. -/
inductive Req (B : Type)
  | upsert (q : Upsert B)
  | push (req : PushBatchReq B)
  | rotate (req : RotateKeyReq B)

inductive Reply
  | upsert (r : Except SqlError UpsertOutcome)
  | push (r : Except ApiError (List PushResult))
  | rotate (r : Except ApiError RotateKeyResp)
  deriving DecidableEq

def serve : Req B → Prog (Db B) Env Stmt Reply
  | .upsert q => (upsertItemOcc X.isUuid q).run >>= fun r => .ret (.upsert r)
  | .push req => (syncPushBatch X req).run >>= fun r => .ret (.push r)
  | .rotate req => (accountRotateKey X req).run >>= fun r => .ret (.rotate r)

/-! ### What a push promises -/

section Guarantees

variable {X} {rely : Stmt → Db B → Db B → Prop} {G : DbEv B → Prop}

lemma guarantees_pushedRow (hsame : ∀ l e s, G ⟨l, e, s, s⟩) (user : Ident) (item : PushItem B) :
    Guarantees rely G (pushedRow user item).run := by
  refine guarantees_bind_except (guarantees_orInternal (guarantees_select hsame _ _)) fun row => ?_
  cases row with
  | none => exact guarantees_throw_except _
  | some row => exact guarantees_pure_except _

lemma guarantees_pushItem (hsame : ∀ l e s, G ⟨l, e, s, s⟩) {user : Ident} {now : ℤ}
    {item : PushItem B} (hup : ∀ p, item.payload = Option.map some p →
      Guarantees rely G (upsertItemOcc X.isUuid (item.upsert user now p)).run) :
    Guarantees rely G (pushItem X user now item).run := by
  refine guarantees_bind_except (guarantees_orInternal (guarantees_select hsame _ _)) fun gen => ?_
  dsimp only
  split
  · exact guarantees_pure_except _
  have hafter : ∀ p, item.payload = Option.map some p → Guarantees rely G
      (do match ← orInternal (upsertItemOcc X.isUuid (item.upsert user now p)) with
        | .updated => pushedRow user item
        | .recovered => pushedRow user item
        | .conflict =>
          let row ← orInternal (getItem item.uuid user)
          return .refused item.uuid .conflict (row.map fun r => ⟨r.version, r.encKeyGen⟩)
        | .epochTooOld => return .refused item.uuid .epochTooOld none :
        ServerHandler B PushResult).run := by
    intro p hp
    refine guarantees_bind_except (guarantees_orInternal (hup p hp)) ?_
    rintro (_ | _ | _ | _)
    · exact guarantees_pushedRow hsame user item
    · exact guarantees_pushedRow hsame user item
    · exact guarantees_bind_except (guarantees_orInternal (guarantees_select hsame _ _))
        fun _ => guarantees_pure_except _
    · exact guarantees_pure_except _
  rcases hp : item.payload with _ | _ | p
  · exact hafter none hp
  · exact guarantees_throw_except _
  · exact hafter (some p) hp

lemma guarantees_pushItems (hsame : ∀ l e s, G ⟨l, e, s, s⟩) {user : Ident} {now : ℤ}
    {items : List (PushItem B)} (hup : ∀ item ∈ items, ∀ p, item.payload = Option.map some p →
      Guarantees rely G (upsertItemOcc X.isUuid (item.upsert user now p)).run) :
    Guarantees rely G (pushItems X user now items).run := by
  induction items with
  | nil => exact guarantees_pure_except _
  | cons item rest ih =>
    exact guarantees_bind_except (guarantees_pushItem hsame (hup item List.mem_cons_self)) fun _ =>
      guarantees_bind_except (ih fun i hi => hup i (List.mem_cons_of_mem _ hi)) fun _ =>
        guarantees_pure_except _

/-- A push promises what its upserts promise. -/
lemma guarantees_syncPushBatch (hsame : ∀ l e s, G ⟨l, e, s, s⟩) {req : PushBatchReq B}
    (hup : ∀ now, ∀ item ∈ req.items, ∀ p, item.payload = Option.map some p →
      Guarantees rely G (upsertItemOcc X.isUuid (item.upsert req.userId now p)).run) :
    Guarantees rely G (syncPushBatch X req).run := by
  unfold syncPushBatch
  split
  · exact guarantees_throw_except _
  · exact guarantees_bind_except (guarantees_stmt (fun e s => hsame _ e s) fun _ _ =>
      guarantees_ret _) fun now => guarantees_pushItems hsame (hup now)

/-- A rotation writes the generation and the vault key of its user. -/
lemma guarantees_accountRotateKey (hsame : ∀ l e s, G ⟨l, e, s, s⟩) {req : RotateKeyReq B}
    (hgen : Guarantees rely G (updateMinEncKeyGen req.userId req.newMinEncKeyGen).run)
    (hsvk : ∀ b b', Guarantees rely G (updateSvk req.userId b b').run) :
    Guarantees rely G (accountRotateKey X req).run := by
  refine guarantees_bind_except (guarantees_decodeB64 _) fun svk => ?_
  split
  · exact guarantees_throw_except _
  refine guarantees_bind_except (guarantees_orInternal (guarantees_select hsame _ _)) ?_
  rintro (_ | user)
  · exact guarantees_throw_except _
  dsimp only
  split
  · exact guarantees_pure_except _
  · exact guarantees_bind_except (guarantees_orInternal hgen) fun _ =>
      guarantees_bind_except (guarantees_orInternal (hsvk _ _)) fun _ =>
      guarantees_bind_except (guarantees_orInternal (guarantees_statement
        (fun e s => hsame _ e s) fun e s => hsame _ e s)) fun _ => guarantees_pure_except _

end Guarantees

end Vautr.Handlers
