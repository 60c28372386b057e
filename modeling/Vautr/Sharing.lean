import Vautr.Api
import Vautr.Server
import Vautr.Underway

/-!
The relay for shares and groups (`handlers/sharing.rs`, `repository/sharing.rs`).

The server hands on public keys, wrapped keys and ciphertexts, and decides who may write and read
them: a share is its item's owner's, and a group is its admin's.
-/

namespace Vautr.Sharing

open Vautr.Atomic Vautr.Interleave Vautr.Sql Vautr.Database Vautr.Api Vautr.Server Vautr.Underway

/-! ### Tables -/

/-- The columns of `users` that are read here; an id and an email are texts. -/
structure UserRow where
  id : Ident
  email : Ident
  deriving DecidableEq

/-- Row mirror of `user_sharing_keys`. -/
structure SharingKeyRow (B : Type) where
  userId : Ident
  publicKey : B

/-- Row mirror of `shares`. -/
structure ShareRow (B : Type) where
  itemUuid : Ident
  ownerUserId : Ident
  recipientUserId : Ident
  wrappedSik : B
  ephemeralPublicKey : B

/-- Row mirror of `share_payloads`. -/
structure PayloadRow (B : Type) where
  shareId : Ident
  payload : B

/-- Row mirror of `sharing_groups`. -/
structure GroupRow where
  id : Ident
  name : String
  adminUserId : Ident
  deriving DecidableEq

/-- Row mirror of `group_members`. -/
structure GroupMemberRow where
  groupId : Ident
  userId : Ident
  deriving DecidableEq

/-- Row mirror of `group_wrapped_sik`. -/
structure GroupWrappedRow (B : Type) where
  groupId : Ident
  recipientUserId : Ident
  wrappedSik : B
  ephemeralPublicKey : B

/-- Row mirror of `group_items`. -/
structure GroupItemRow (B : Type) where
  groupId : Ident
  itemUuid : Ident
  payload : B
  deriving DecidableEq

variable {B : Type}

def ShareRow.key (r : ShareRow B) : Ident × Ident := (r.itemUuid, r.recipientUserId)

def GroupMemberRow.key (r : GroupMemberRow) : Ident × Ident := (r.groupId, r.userId)

def GroupWrappedRow.key (r : GroupWrappedRow B) : Ident × Ident := (r.groupId, r.recipientUserId)

def GroupItemRow.key (r : GroupItemRow B) : Ident × Ident := (r.groupId, r.itemUuid)

/-- Who wrote an item: `secrets.created_by`, `project_items.added_by` and `items.user_id`. -/
structure Owners where
  secrets : List (Ident × Ident)
  projectItems : List (Ident × Ident)
  items : List (Ident × Ident)

structure SharingDb (B : Type) where
  users : Table UserRow.id
  owners : Owners
  publicKeys : Table (SharingKeyRow.userId : SharingKeyRow B → Ident)
  shares : Table (ShareRow.key : ShareRow B → Ident × Ident)
  payloads : Table (PayloadRow.shareId : PayloadRow B → Ident)
  groups : Table GroupRow.id
  members : Table GroupMemberRow.key
  wrapped : Table (GroupWrappedRow.key : GroupWrappedRow B → Ident × Ident)
  groupItems : Table (GroupItemRow.key : GroupItemRow B → Ident × Ident)

/-- The statements, by the repository function that runs them. -/
inductive SharingStmt
  | getSharingPublicKey (user : Ident)
  | getUserById (user : Ident)
  | upsertSharingPublicKey (user : Ident)
  | secretOwner (item : Ident)
  | projectItemOwner (item : Ident)
  | itemHolders (item : Ident)
  | pragma (foreignKeys : Bool)
  | createShare (item owner recipient : Ident)
  | isShareOwner (item owner : Ident)
  | getInbox (recipient : Ident)
  | ensurePayloadTable
  | storeSharePayload (item : Ident)
  | getSharePayload (item : Ident)
  | deleteSharesByOwnerItem (item owner : Ident)
  | deleteSharePayload (item : Ident)
  | createGroup (g admin : Ident)
  | getGroup (g : Ident)
  | listGroupsForMember (user : Ident)
  | addGroupMember (g user : Ident)
  | removeGroupMember (g user : Ident)
  | isGroupMember (g user : Ident)
  | storeGroupWrappedSik (g user : Ident)
  | getGroupWrappedSik (g user : Ident)
  | deleteGroupWrappedSik (g user : Ident)
  | replaceGroupWrappedSiks (g : Ident)
  | addGroupItem (g item : Ident)
  | listGroupItems (g : Ident)
  | deleteGroupItem (g item : Ident)
  | newUuid
  | outside
  deriving DecidableEq

abbrev SharingEv (B : Type) := Ev (SharingDb B) Env SharingStmt

abbrev SharingRepo (B : Type) := Query (SharingDb B) Env SharingStmt

abbrev SharingHandler (B : Type) := Handler (SharingDb B) Env SharingStmt

/-! ### `repository/sharing.rs` -/

def getSharingPublicKey (user : Ident) : SharingRepo B (Option B) :=
  select (.getSharingPublicKey user) fun db => (db.publicKeys.get user).map (·.publicKey)

def getUserById (user : Ident) : SharingRepo B (Option UserRow) :=
  select (.getUserById user) fun db => db.users.get user

/-- A foreign key on `users(id)`. -/
def SharingDb.isUser (db : SharingDb B) (user : Ident) : Bool := (db.users.get user).isSome

/-- A foreign key on `sharing_groups(id)`. -/
def SharingDb.isGroup (db : SharingDb B) (g : Ident) : Bool := (db.groups.get g).isSome

def upsertSharingPublicKey (user : Ident) (publicKey : B) : SharingRepo B Unit :=
  statement (.upsertSharingPublicKey user) fun _ db =>
    let publicKeys := db.publicKeys.upsert ⟨user, publicKey⟩ ({ · with publicKey }) fun _ => rfl
    if db.isUser user then ({ db with publicKeys }, .ok ()) else (db, .error .foreignKey)

/-- The owner that one of the tables has for the item. -/
def ownerIn (owners : List (Ident × Ident)) (item : Ident) : Option Ident :=
  (owners.find? (·.1 = item)).map (·.2)

def itemOwner (item : Ident) : SharingRepo B (Option Ident) := do
  match ← select (.secretOwner item) fun db => ownerIn db.owners.secrets item with
  | some owner => return some owner
  | none =>
    match ← select (.projectItemOwner item) fun db => ownerIn db.owners.projectItems item with
    | some owner => return some owner
    | none =>
      match ← select (.itemHolders item) fun db => db.owners.items.filter (·.1 = item) with
      | [single] => return some single.2
      | _ => return none

/-- `PRAGMA foreign_keys = ..`, of the connection. -/
def pragma (foreignKeys : Bool) : SharingRepo B Unit :=
  statement (.pragma foreignKeys) fun _ db => (db, .ok ())

/-- A statement on a connection whose foreign keys are off for its time. -/
def unchecked {α : Type} (x : SharingRepo B α) : SharingRepo B α := do
  pragma false
  let res ← attempt x
  let restore ← attempt (pragma true)
  let a ← ExceptT.mk (.ret res)
  ExceptT.mk (.ret restore)
  return a

def SharingDb.putShare (db : SharingDb B) (row : ShareRow B) : SharingDb B :=
  let set (r : ShareRow B) : ShareRow B :=
    { r with wrappedSik := row.wrappedSik, ephemeralPublicKey := row.ephemeralPublicKey }
  { db with shares := db.shares.upsert row set fun _ => rfl }

/-- `create_share`. -/
def createShareRow (row : ShareRow B) : SharingRepo B Unit :=
  unchecked (statement (.createShare row.itemUuid row.ownerUserId row.recipientUserId)
    fun _ db => (db.putShare row, .ok ()))

def getInbox (recipient : Ident) : SharingRepo B (List (ShareRow B)) :=
  select (.getInbox recipient) fun db => db.shares.rows.filter (·.recipientUserId = recipient)

/-- The user owns a share of the item. -/
def SharingDb.sharesOf (db : SharingDb B) (item owner : Ident) : Bool :=
  db.shares.rows.any fun r => r.itemUuid = item && r.ownerUserId = owner

def isShareOwner (item owner : Ident) : SharingRepo B Bool :=
  select (.isShareOwner item owner) fun db => db.sharesOf item owner

def SharingDb.dropShares (db : SharingDb B) (item owner : Ident) : SharingDb B :=
  { db with shares := db.shares.delete fun r => r.itemUuid = item && r.ownerUserId = owner }

def deleteSharesByOwnerItem (item owner : Ident) : SharingRepo B Unit :=
  unchecked (statement (.deleteSharesByOwnerItem item owner)
    fun _ db => (db.dropShares item owner, .ok ()))

def ensurePayloadTable : SharingRepo B Unit :=
  statement .ensurePayloadTable fun _ db => (db, .ok ())

def SharingDb.putPayload (db : SharingDb B) (item : Ident) (payload : B) : SharingDb B :=
  { db with payloads := db.payloads.upsert ⟨item, payload⟩ ({ · with payload }) fun _ => rfl }

def storeSharePayload (item : Ident) (payload : B) : SharingRepo B Unit := do
  ensurePayloadTable
  statement (.storeSharePayload item) fun _ db => (db.putPayload item payload, .ok ())

def getSharePayload (item : Ident) : SharingRepo B (Option B) := do
  ensurePayloadTable
  select (.getSharePayload item) fun db => (db.payloads.get item).map (·.payload)

def deleteSharePayload (item : Ident) : SharingRepo B Unit := do
  ensurePayloadTable
  statement (.deleteSharePayload item) fun _ db =>
    ({ db with payloads := db.payloads.delete (·.shareId = item) }, .ok ())

def SharingDb.insertGroup (db : SharingDb B) (row : GroupRow) :
    SharingDb B × Except SqlError Unit :=
  match db.groups.insert row with
  | none => (db, .error .unique)
  | some groups =>
    if db.isUser row.adminUserId then ({ db with groups }, .ok ()) else (db, .error .foreignKey)

/-- `create_group`. -/
def createGroupRow (row : GroupRow) : SharingRepo B Unit :=
  statement (.createGroup row.id row.adminUserId) fun _ db => db.insertGroup row

def getGroup (g : Ident) : SharingRepo B (Option GroupRow) :=
  select (.getGroup g) fun db => db.groups.get g

def listGroupsForMember (user : Ident) : SharingRepo B (List GroupRow) :=
  select (.listGroupsForMember user) fun db =>
    (db.members.rows.filter (·.userId = user)).filterMap fun m => db.groups.get m.groupId

/-- `INSERT INTO group_members ... ON CONFLICT DO NOTHING`. -/
def SharingDb.insertMember (db : SharingDb B) (g user : Ident) :
    SharingDb B × Except SqlError Unit :=
  match db.members.insert ⟨g, user⟩ with
  | none => (db, .ok ())
  | some members =>
    if db.isGroup g ∧ db.isUser user then ({ db with members }, .ok ())
    else (db, .error .foreignKey)

/-- `add_group_member`. -/
def addGroupMemberRow (g user : Ident) : SharingRepo B Unit :=
  statement (.addGroupMember g user) fun _ db => db.insertMember g user

def SharingDb.dropMember (db : SharingDb B) (g user : Ident) : SharingDb B :=
  { db with members := db.members.delete (·.key = (g, user)) }

/-- `remove_group_member`. -/
def removeGroupMemberRow (g user : Ident) : SharingRepo B Unit :=
  statement (.removeGroupMember g user) fun _ db => (db.dropMember g user, .ok ())

def isGroupMember (g user : Ident) : SharingRepo B Bool :=
  select (.isGroupMember g user) fun db => (db.members.get (g, user)).isSome

def SharingDb.putWrapped (db : SharingDb B) (row : GroupWrappedRow B) : SharingDb B :=
  let set (r : GroupWrappedRow B) : GroupWrappedRow B :=
    { r with wrappedSik := row.wrappedSik, ephemeralPublicKey := row.ephemeralPublicKey }
  { db with wrapped := db.wrapped.upsert row set fun _ => rfl }

def storeGroupWrappedSik (row : GroupWrappedRow B) : SharingRepo B Unit :=
  statement (.storeGroupWrappedSik row.groupId row.recipientUserId) fun _ db =>
    if db.isGroup row.groupId ∧ db.isUser row.recipientUserId then (db.putWrapped row, .ok ())
    else (db, .error .foreignKey)

def getGroupWrappedSik (g user : Ident) : SharingRepo B (Option (GroupWrappedRow B)) :=
  select (.getGroupWrappedSik g user) fun db => db.wrapped.get (g, user)

def deleteGroupWrappedSik (g user : Ident) : SharingRepo B Unit :=
  statement (.deleteGroupWrappedSik g user) fun _ db =>
    ({ db with wrapped := db.wrapped.delete (·.key = (g, user)) }, .ok ())

/-- The `INSERT`s of a rotation. -/
def SharingDb.insertWrapped (db : SharingDb B) :
    List (GroupWrappedRow B) → Except SqlError (SharingDb B)
  | [] => .ok db
  | row :: rest =>
    match db.wrapped.insert row with
    | none => .error .unique
    | some wrapped =>
      if db.isGroup row.groupId ∧ db.isUser row.recipientUserId then
        { db with wrapped }.insertWrapped rest
      else .error .foreignKey

def SharingDb.replaceWrapped (db : SharingDb B) (g : Ident) (rows : List (GroupWrappedRow B)) :
    SharingDb B × Except SqlError Unit :=
  match { db with wrapped := db.wrapped.delete (·.groupId = g) }.insertWrapped rows with
  | .ok db' => (db', .ok ())
  | .error err => (db, .error err)

/-- `replace_group_wrapped_siks`, one transaction. -/
def replaceGroupWrappedSiks (g : Ident) (rows : List (GroupWrappedRow B)) : SharingRepo B Unit :=
  statement (.replaceGroupWrappedSiks g) fun _ db => db.replaceWrapped g rows

def SharingDb.putItem (db : SharingDb B) (row : GroupItemRow B) : SharingDb B :=
  { db with
    groupItems := db.groupItems.upsert row ({ · with payload := row.payload }) fun _ => rfl }

/-- `add_group_item`. -/
def addGroupItemRow (row : GroupItemRow B) : SharingRepo B Unit :=
  statement (.addGroupItem row.groupId row.itemUuid) fun _ db =>
    if db.isGroup row.groupId then (db.putItem row, .ok ()) else (db, .error .foreignKey)

/-- `list_group_items` of the repository. -/
def listGroupItemRows (g : Ident) : SharingRepo B (List (GroupItemRow B)) :=
  select (.listGroupItems g) fun db => db.groupItems.rows.filter (·.groupId = g)

/-- `delete_group_item` of the repository. -/
def deleteGroupItemRow (g item : Ident) : SharingRepo B Unit :=
  statement (.deleteGroupItem g item) fun _ db =>
    ({ db with groupItems := db.groupItems.delete (·.key = (g, item)) }, .ok ())

/-! ### `handlers/sharing.rs` -/

structure PublicKeyResp (B : Type) where
  userId : Ident
  publicKey : B
  deriving DecidableEq

def publicKey (user : Ident) : SharingHandler B (PublicKeyResp B) := do
  match ← orInternal (getSharingPublicKey user) with
  | none => throw (.new 404 "not_found" "user has no sharing public key")
  | some pk => return ⟨user, pk⟩

/-- Whether the path names the caller, by id or by email. -/
def acceptsPath (caller path : Ident) : SharingHandler B Bool := do
  if caller = path then return true
  else return (← orInternal (getUserById caller)).any (·.email = path)

/-- `put_public_key`, for what the field decodes to. -/
def putPublicKey (len : B → ℕ) (caller path : Ident) (publicKey : Option B) :
    SharingHandler B (PublicKeyResp B) := do
  if ← acceptsPath caller path then
    let pk ← decodeB64 publicKey
    if len pk = 32 then
      orInternal (upsertSharingPublicKey caller pk)
      return ⟨caller, pk⟩
    else throw (.badRequest "bad_request" "sharing public key must be 32 bytes")
  else throw (.new 403 "forbidden" "you may only set your own sharing public key")

structure CreateShareReq (B : Type) where
  itemUuid : Ident
  recipientUuid : Ident
  wrappedSik : Option B
  ephemeralPublicKey : Option B

structure ShareInfoResp where
  shareId : Ident
  senderUuid : Ident
  recipientUuid : Ident
  itemUuid : Ident
  deriving DecidableEq

def createShare (sender : Ident) (req : CreateShareReq B) : SharingHandler B ShareInfoResp := do
  if (← orInternal (itemOwner req.itemUuid)) = some sender then
    let wrappedSik ← decodeB64 req.wrappedSik
    let ephemeralPk ← decodeB64 req.ephemeralPublicKey
    orInternal (createShareRow ⟨req.itemUuid, sender, req.recipientUuid, wrappedSik, ephemeralPk⟩)
    return ⟨req.itemUuid, sender, req.recipientUuid, req.itemUuid⟩
  else throw (.new 403 "not_item_owner" "you do not own this item")

/-- The caller has a share of the item, or 404. -/
def requireShareOwner (owner share : Ident) : SharingHandler B Unit := do
  if ← orInternal (isShareOwner share owner) then return ()
  else throw (.new 404 "not_found" "share not found or forbidden")

def uploadPayload (owner share : Ident) (payload : Option B) : SharingHandler B Ident := do
  requireShareOwner owner share
  let payload ← decodeB64 payload
  orInternal (storeSharePayload share payload)
  return share

structure InboxItem (B : Type) where
  shareId : Ident
  senderUuid : Ident
  itemUuid : Ident
  wrappedSik : B
  ephemeralPublicKey : B
  encryptedPayload : Option B
  deriving DecidableEq

/-- The loop of `inbox` over the shares. -/
def inboxItems : List (ShareRow B) → SharingHandler B (List (InboxItem B))
  | [] => pure []
  | s :: rest => do
    let payload ← orInternal (getSharePayload s.itemUuid)
    let items ← inboxItems rest
    return ⟨s.itemUuid, s.ownerUserId, s.itemUuid, s.wrappedSik, s.ephemeralPublicKey, payload⟩ ::
      items

def inbox (recipient : Ident) : SharingHandler B (List (InboxItem B)) := do
  let shares ← orInternal (getInbox recipient)
  inboxItems shares

def revokeShare (owner share : Ident) : SharingHandler B Ident := do
  requireShareOwner owner share
  orInternal (deleteSharesByOwnerItem share owner)
  orInternal (deleteSharePayload share)
  return share

def requireAdmin (g caller : Ident) : SharingHandler B Unit := do
  match ← orInternal (getGroup g) with
  | none => throw (.new 404 "not_found" "group not found")
  | some group =>
    if group.adminUserId = caller then return ()
    else throw (.new 403 "forbidden" "only the group admin may manage membership")

def createGroup (admin : Ident) (name : String) : SharingHandler B GroupRow := do
  let gid ← ExceptT.mk (Prog.atom .newUuid fun e db => (db, .ok e.uuid))
  orInternal (createGroupRow ⟨gid, name, admin⟩)
  orInternal (addGroupMemberRow gid admin)
  return ⟨gid, name, admin⟩

structure AddMemberReq (B : Type) where
  memberUuid : Ident
  wrappedSik : Option B
  ephemeralPublicKey : Option B

def addGroupMember (caller g : Ident) (req : AddMemberReq B) : SharingHandler B Unit := do
  requireAdmin g caller
  let wrappedSik ← decodeB64 req.wrappedSik
  let ephemeralPk ← decodeB64 req.ephemeralPublicKey
  orInternal (addGroupMemberRow g req.memberUuid)
  orInternal (storeGroupWrappedSik ⟨g, req.memberUuid, wrappedSik, ephemeralPk⟩)

def removeGroupMember (caller g member : Ident) : SharingHandler B Unit := do
  requireAdmin g caller
  orInternal (removeGroupMemberRow g member)
  orInternal (deleteGroupWrappedSik g member)

structure WrappedKeyJson (B : Type) where
  recipientUserId : Ident
  wrappedSik : Option B
  ephemeralPublicKey : Option B

/-- The loop of `rotate_group` over the keys. -/
def decodeWrapped (g : Ident) :
    List (WrappedKeyJson B) → SharingHandler B (List (GroupWrappedRow B))
  | [] => pure []
  | k :: rest => do
    let wrappedSik ← decodeB64 k.wrappedSik
    let ephemeralPk ← decodeB64 k.ephemeralPublicKey
    let rows ← decodeWrapped g rest
    return ⟨g, k.recipientUserId, wrappedSik, ephemeralPk⟩ :: rows

def rotateGroup (caller g : Ident) (keys : List (WrappedKeyJson B)) : SharingHandler B Unit := do
  requireAdmin g caller
  let rows ← decodeWrapped g keys
  orInternal (replaceGroupWrappedSiks g rows)

structure GroupInboxItem (B : Type) where
  groupId : Ident
  name : String
  adminUuid : Ident
  wrappedSik : Option B
  ephemeralPublicKey : Option B
  deriving DecidableEq

/-- The loop of `group_inbox` over the groups. -/
def groupInboxItems (user : Ident) : List GroupRow → SharingHandler B (List (GroupInboxItem B))
  | [] => pure []
  | g :: rest => do
    let wrapped ← orInternal (getGroupWrappedSik g.id user)
    let items ← groupInboxItems user rest
    return ⟨g.id, g.name, g.adminUserId, wrapped.map (·.wrappedSik),
      wrapped.map (·.ephemeralPublicKey)⟩ :: items

def groupInbox (user : Ident) : SharingHandler B (List (GroupInboxItem B)) := do
  let groups ← orInternal (listGroupsForMember user)
  groupInboxItems user groups

def addGroupItem (caller g item : Ident) (payload : Option B) :
    SharingHandler B (GroupItemRow B) := do
  requireAdmin g caller
  let payload ← decodeB64 payload
  orInternal (addGroupItemRow ⟨g, item, payload⟩)
  return ⟨g, item, payload⟩

def listGroupItems (caller g : Ident) : SharingHandler B (List (GroupItemRow B)) := do
  if ← orInternal (isGroupMember g caller) then orInternal (listGroupItemRows g)
  else throw (.new 403 "forbidden" "only group members may read group items")

def deleteGroupItem (caller g item : Ident) : SharingHandler B Unit := do
  requireAdmin g caller
  orInternal (deleteGroupItemRow g item)

/-! ### Requests -/

/-- What is asked of the relay, for a user that `auth_user` has found; `outside` is what other
handlers do to the tables that are only read here. It deletes nothing from the
other tables: their rows would go with a user, and SQLite refuses to delete one (foreign key
mismatch: `project_items` refers to `items` by a column that is no key). -/
inductive Req (B : Type)
  | publicKey (user : Ident)
  | putPublicKey (caller path : Ident) (publicKey : Option B)
  | createShare (sender : Ident) (req : CreateShareReq B)
  | uploadPayload (owner share : Ident) (payload : Option B)
  | inbox (recipient : Ident)
  | revokeShare (owner share : Ident)
  | createGroup (admin : Ident) (name : String)
  | addGroupMember (caller g : Ident) (req : AddMemberReq B)
  | removeGroupMember (caller g member : Ident)
  | rotateGroup (caller g : Ident) (keys : List (WrappedKeyJson B))
  | groupInbox (user : Ident)
  | addGroupItem (caller g item : Ident) (payload : Option B)
  | listGroupItems (caller g : Ident)
  | deleteGroupItem (caller g item : Ident)
  | outside (users : Table UserRow.id) (owners : Owners)

inductive Reply (B : Type)
  | publicKey (r : Except ApiError (PublicKeyResp B))
  | share (r : Except ApiError ShareInfoResp)
  | payload (r : Except ApiError Ident)
  | inbox (r : Except ApiError (List (InboxItem B)))
  | group (r : Except ApiError GroupRow)
  | done (r : Except ApiError Unit)
  | groupInbox (r : Except ApiError (List (GroupInboxItem B)))
  | item (r : Except ApiError (GroupItemRow B))
  | items (r : Except ApiError (List (GroupItemRow B)))
  deriving DecidableEq

def code (len : B → ℕ) : Req B → Prog (SharingDb B) Env SharingStmt (Reply B)
  | .publicKey user => do return .publicKey (← (publicKey user).run)
  | .putPublicKey caller path pk => do
    return .publicKey (← (putPublicKey len caller path pk).run)
  | .createShare sender req => do return .share (← (createShare sender req).run)
  | .uploadPayload owner share payload => do
    return .payload (← (uploadPayload owner share payload).run)
  | .inbox recipient => do return .inbox (← (inbox recipient).run)
  | .revokeShare owner share => do return .payload (← (revokeShare owner share).run)
  | .createGroup admin name => do return .group (← (createGroup admin name).run)
  | .addGroupMember caller g req => do return .done (← (addGroupMember caller g req).run)
  | .removeGroupMember caller g member => do
    return .done (← (removeGroupMember caller g member).run)
  | .rotateGroup caller g keys => do return .done (← (rotateGroup caller g keys).run)
  | .groupInbox user => do return .groupInbox (← (groupInbox user).run)
  | .addGroupItem caller g item payload => do
    return .item (← (addGroupItem caller g item payload).run)
  | .listGroupItems caller g => do return .items (← (listGroupItems caller g).run)
  | .deleteGroupItem caller g item => do return .done (← (deleteGroupItem caller g item).run)
  | .outside users owners => Prog.atom .outside fun _ db =>
    ({ db with users, owners }, .done (.ok ()))

end Vautr.Sharing
