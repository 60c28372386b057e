import Vautr.Client
import Vautr.Interleave

/-!
The web client (`realClient.ts`): its store, its memory and its operations.

The code is single-threaded and every `await` is a point where other code of the client may
run: so between two statements any other operation may take a step, and the other devices may
write to the server. A statement is one call of the store, one half of a request, or what the
code does between two `await`s.
-/

namespace Vautr.WebClient

open Vautr.Atomic Vautr.Interleave Vautr.Sql Vautr.Database Vautr.Api Vautr.Server Vautr.Handlers
  Vautr.Crypto Vautr.Client Vautr.Zoom

/-! ### What the client holds -/

structure StoredItem where
  uuid : Ident
  version : UInt64
  encKeyGen : UInt64
  deletedDate : Option ℤ
  payload : Option Blob
  pending : Bool
  deriving DecidableEq

/-- The IndexedDB store: of `StoredState` what the operations below read, and the items. -/
structure WebStore where
  cursor : UInt64
  localKeyGen : UInt64
  minEncKeyGen : UInt64
  items : Table StoredItem.uuid

/-- `VaultStateUpdate`. -/
inductive WebUpdate
  | syncStarted
  | syncCompleted
  | syncFailed
  | overviewUpserted (uuid : Ident)
  | overviewDeleted (uuid : Ident)
  | conflictDetected (ev : ConflictEvent)
  | keyUpdateRequired
  | itemQuarantined (uuid : Ident)
  deriving DecidableEq

/-- The fields of `VautrWebClient`; `bus` is what was emitted. -/
structure WebMemory where
  svk : Option Key
  dek : Option DKey
  localKeyGen : UInt64
  quarantined : List Ident
  bus : List WebUpdate

/-- What has happened; no code reads it. The edits of the user that were stored, those that are
known to have reached the server, and those the user gave up for the server's version; the versions of an
item that were stored here, those the user chose to overwrite, and those that a refused push
was told; the secret values that were encrypted, with their project, their plaintext and the
generation. -/
structure Past where
  edits : List (Ident × Blob)
  acked : List Ident
  accepted : List Ident
  seen : List (Ident × UInt64)
  chosen : List (Ident × UInt64)
  retargeted : List (Ident × UInt64)
  issued : List (Ident × Blob × Plain × UInt64)

def Past.nothing : Past := ⟨[], [], [], [], [], [], []⟩

/-- The server, the client and its past. -/
structure WebWorld where
  server : Db Blob
  store : WebStore
  mem : WebMemory
  past : Past

/-! ### Statements -/

deriving instance DecidableEq for PushItem

inductive ConflictChoice
  | acceptServer
  | pushLocal
  deriving DecidableEq

/-- What is sent to the server. -/
inductive WebRequest
  | pull (cursor : UInt64)
  | pullPayloads (targets : List (Ident × UInt64))
  | pushBatch (items : List (PushItem Blob))
  | status
  | rotateKey
  deriving DecidableEq

/-- The statements of the client, those of the server's handlers included, with the request
they are run for. A `deleteItem` or a `putItem` is named by what it is for. -/
inductive WebLabel
  | served (r : WebRequest) (l : Stmt)
  | elsewhere (l : Stmt)
  | send (r : WebRequest)
  | receive
  | memory
  | emit
  | getState
  | setState
  | getItems
  | getItem (uuid : Ident)
  | choose (uuid : Ident) (choice : ConflictChoice)
  | dropDeleted (uuid : Ident)
  | dropEvent (uuid : Ident)
  | dropAccepted (uuid : Ident)
  | newItem
  | putNew (uuid : Ident)
  | putPulled (uuid : Ident)
  | putPushed (uuid : Ident)
  | putPending (uuid : Ident)
  | batch (pending : List StoredItem)
  | sealValue (project : Ident)
  | openValue (project : Ident) (value : Blob)
  deriving DecidableEq

abbrev WebCode := Prog WebWorld ClientEnv WebLabel

/-- What a `throw` throws. -/
inductive WebError
  | text (msg : String)
  | store
  | network
  | api (e : ApiError)
  deriving DecidableEq

abbrev WebOp := ExceptT WebError WebCode

abbrev WebEv := Ev WebWorld ClientEnv WebLabel

section Statements

variable {α : Type}

/-- What the code does between two `await`s. -/
def onMem (l : WebLabel) (g : ClientEnv → WebWorld → WebWorld × α) : WebOp α :=
  ExceptT.mk (Prog.atom l fun e w => ((g e w).1, .ok (g e w).2))

def readMem (g : WebMemory → α) : WebOp α := onMem .memory fun _ w => (w, g w.mem)

def emit (us : List WebUpdate) : WebOp Unit :=
  onMem .emit fun _ w => ({ w with mem := { w.mem with bus := w.mem.bus ++ us } }, ())

/-- A call of the store: it is rejected, or does `g`. -/
def onStore (l : WebLabel) (g : WebWorld → WebWorld × α) : WebOp α :=
  ExceptT.mk (Prog.atom l fun e w =>
    if e.fault then (w, .error .store) else ((g w).1, .ok (g w).2))

def getState : WebOp WebStore := onStore .getState fun w => (w, w.store)

def setState (g : WebStore → WebStore) : WebOp Unit :=
  onStore .setState fun w => ({ w with store := { g w.store with items := w.store.items } }, ())

def getItems : WebOp (List StoredItem) := onStore .getItems fun w => (w, w.store.items.rows)

def getItem (uuid : Ident) : WebOp (Option StoredItem) :=
  onStore (.getItem uuid) fun w => (w, w.store.items.get uuid)

def StoredItem.replace (i r : StoredItem) : StoredItem := { i with uuid := r.uuid }

lemma StoredItem.replace_uuid (i r : StoredItem) : (i.replace r).uuid = r.uuid := rfl

/-- An IndexedDB `put`. -/
def WebWorld.put (w : WebWorld) (i : StoredItem) : WebWorld :=
  { w with store := { w.store with
    items := w.store.items.upsert i i.replace i.replace_uuid } }

/-- An IndexedDB `delete`. -/
def WebWorld.drop (w : WebWorld) (uuid : Ident) : WebWorld :=
  { w with store := { w.store with items := w.store.items.delete (·.uuid = uuid) } }

/-- `store.putItem`, and what is remembered of it. -/
def putItem (l : WebLabel) (i : StoredItem) (note : Past → Past) : WebOp Unit :=
  onStore l fun w => ({ w.put i with past := note w.past }, ())

def deleteItem (l : WebLabel) (uuid : Ident) : WebOp Unit := onStore l fun w => (w.drop uuid, ())

/-- A handler of the server, whose statements are named so. -/
def webServer (name : Stmt → WebLabel) : View (Db Blob) WebWorld Env ClientEnv Stmt WebLabel where
  get w := w.server
  put s w := { w with server := s }
  inp e := ⟨e.now, e.uuid, e.fault⟩
  name := name
  get_put _ _ := rfl

/-- One half of a request: it arrives or is lost. -/
def half (l : WebLabel) (r : Except WebError α) : WebOp α :=
  ExceptT.mk (Prog.atom l fun e w => (w, if e.fault then .error .network else r))

def request (r : WebRequest) (x : ServerHandler Blob α) : WebOp α := do
  half (.send r) (.ok ())
  let answer ← ExceptT.lift (zoom (webServer (.served r)) x.run)
  half .receive (answer.mapError .api)

end Statements

/-! ### Sync -/

variable (X : Ext Blob) (user : Ident)

/-- The loop over the pulled items: tombstones are dropped, and the items whose version is not
the one that is here are returned. -/
def applyPulled (localItems : List StoredItem) : List PullItem → WebOp (List (Ident × UInt64))
  | [] => pure []
  | item :: rest => do
    if item.deletedDate.isSome then
      deleteItem (.dropDeleted item.uuid) item.uuid
      emit [.overviewDeleted item.uuid]
      applyPulled localItems rest
    else
      let need ← applyPulled localItems rest
      let held := localItems.find? (·.uuid = item.uuid)
      if held.any (·.version = asU64 item.version) then return need
      else return (item.uuid, asU64 item.version) :: need

/-- The plaintext of an item is a JSON text; a key is none. -/
def isJson : Plain → Bool
  | .bytes _ => true
  | .key _ => false

/-- The item that a delivered payload is stored as. -/
def pulledItem (r : PayloadResult Blob) : StoredItem :=
  ⟨r.uuid, asU64 r.version, asU64 r.encKeyGen, r.deletedDate, r.payload, false⟩

/-- What is remembered of it: an edit that comes back has reached the server. -/
def Past.pulled (r : PayloadResult Blob) (payload : Blob) (p : Past) : Past :=
  { p with
    seen := p.seen ++ [(r.uuid, asU64 r.version)]
    acked := if (r.uuid, payload) ∈ p.edits then p.acked ++ [r.uuid] else p.acked }

/-- The loop over the answers of `/sync/pull-payloads`: what is delivered is stored, and
quarantined if it cannot be read. -/
def storePulled : List (PayloadResult Blob) → WebOp Unit
  | [] => pure ()
  | r :: rest => do
    match r.payload with
    | none => storePulled rest
    | some payload =>
      if r.status ≠ .payloadDelivered then storePulled rest
      else
        let dek ← readMem (·.dek)
        let read := (dek.bind fun dek => decrypt dek r.uuid (asU64 r.encKeyGen) payload).any isJson
        if !read then
          onMem .memory fun _ w =>
            ({ w with mem := { w.mem with quarantined := w.mem.quarantined ++ [r.uuid] } }, ())
        putItem (.putPulled r.uuid) (pulledItem r) (·.pulled r payload)
        emit [if read then .overviewUpserted r.uuid else .itemQuarantined r.uuid]
        storePulled rest

/-- `arr.slice(i, i + 100)` for `i` in steps of 100. -/
def slices {α : Type} (l : List α) : List (List α) :=
  (List.range ((l.length + 99) / 100)).map fun i => (l.drop (i * 100)).take 100

def fetchPayloads : List (List (Ident × UInt64)) → WebOp Unit
  | [] => pure ()
  | batch :: rest => do
    let results ← request (.pullPayloads batch) (syncPullPayloads user batch)
    storePulled results
    fetchPayloads rest

/-- What is pushed of a pending item: the generation is that of the client. -/
def StoredItem.push (localKeyGen : UInt64) (i : StoredItem) : PushItem Blob :=
  ⟨i.uuid, i.version, localKeyGen, i.payload.map some, i.deletedDate⟩

/-- `updated`: the versions of what was applied. -/
def updatedOf (results : List PushResult) (uuid : Ident) : Option UInt64 :=
  (results.reverse.find? fun r => r.uuid = uuid && r.status = .success && r.version.isSome).bind
    fun r => r.version.map asU64

/-- `retarget`: the versions that refused pushes were told. -/
def retargetOf (results : List PushResult) (uuid : Ident) : Option UInt64 :=
  (results.reverse.find? fun r => r.uuid = uuid && r.status = .conflict &&
    (r.currentServerState.isSome || r.version.isSome)).bind
    fun r => ((r.currentServerState.map (·.version)).or r.version).map asU64

/-- `conflicts`. -/
def conflictsOf (pending : List StoredItem) (results : List PushResult) : List ConflictEvent :=
  (results.filter (·.status = .conflict)).map fun r =>
    let held := ((pending.find? (·.uuid = r.uuid)).map (·.version)).getD 0
    let told := ((r.currentServerState.map (·.version)).or r.version).map asU64
    ⟨r.uuid, held, told.getD (held + 1), false⟩

/-- A pending item after its push. -/
def StoredItem.settle (results : List PushResult) (i : StoredItem) : StoredItem :=
  { i with
    version := ((updatedOf results i.uuid).or (retargetOf results i.uuid)).getD i.version
    pending := (updatedOf results i.uuid).isNone }

def Past.settled (results : List PushResult) (i : StoredItem) (p : Past) : Past :=
  match updatedOf results i.uuid with
  | some v => { p with acked := p.acked ++ [i.uuid], seen := p.seen ++ [(i.uuid, v)] }
  | none =>
    { p with
      retargeted := p.retargeted ++ ((retargetOf results i.uuid).toList.map fun v => (i.uuid, v)) }

def settlePushed (results : List PushResult) : List StoredItem → WebOp Unit
  | [] => pure ()
  | i :: rest => do
    putItem (.putPushed i.uuid) (i.settle results) (·.settled results i)
    settlePushed results rest

def pushPending (pending : List StoredItem) : WebOp Unit := do
  if pending.isEmpty then return ()
  else
    let items ← onMem (.batch pending) fun _ w => (w, pending.map (·.push w.mem.localKeyGen))
    let results ← request (.pushBatch items) (syncPushBatch X ⟨user, items⟩)
    settlePushed results pending
    emit ((conflictsOf pending results).map .conflictDetected)

/-- What is inside the `try` of `sync`. -/
def syncBody : WebOp Unit := do
  let state ← getState
  let pull ← request (.pull state.cursor) (syncPull user state.cursor none)
  if state.localKeyGen < asU64 pull.minEncKeyGen then emit [.keyUpdateRequired]
  setState ({ · with minEncKeyGen := asU64 pull.minEncKeyGen })
  let localItems ← getItems
  let need ← applyPulled localItems pull.items
  fetchPayloads user (slices need)
  let items ← getItems
  pushPending X user (items.filter (·.pending))
  setState ({ · with cursor := pull.newCursor })
  emit [.syncCompleted]

/-- `throw new Error('vault is locked')`, without a key. -/
def requireDek : WebOp DKey := do
  match ← readMem (·.dek) with
  | some dek => return dek
  | none => throw (.text "vault is locked")

def sync : WebOp Unit := do
  let _ ← requireDek
  emit [.syncStarted]
  tryCatch (syncBody X user) fun e => do
    emit [.syncFailed]
    throw e

/-! ### Items and events -/

/-- `addItem`: the only edit there is. -/
def addItem (plaintext : Plain) : WebOp Unit := do
  let dek ← requireDek
  let item ← onMem .newItem fun e w =>
    (w, (⟨e.uuid, 0, w.mem.localKeyGen, none,
      some (encrypt dek e.uuid w.mem.localKeyGen plaintext), true⟩ : StoredItem))
  putItem (.putNew item.uuid) item fun p =>
    { p with edits := p.edits ++ item.payload.toList.map fun b => (item.uuid, b) }
  emit [.overviewUpserted item.uuid]

/-- `reveal`, and `getItemPlaintext`. -/
def reveal (uuid : Ident) : WebOp Plain := do
  let dek ← requireDek
  match ← getItem uuid with
  | some ⟨_, _, gen, _, some payload, _⟩ =>
    match decrypt dek uuid gen payload with
    | some p => return p
    | none => throw (.text "decrypt")
  | _ => throw (.text "item payload not available locally; sync first")

inductive ServerEvent
  | itemPermanentlyDeleted (uuid : Ident)
  | itemRecovered (uuid : Ident)
  deriving DecidableEq

def onServerEvent : ServerEvent → WebOp Unit
  | .itemPermanentlyDeleted uuid => do
    deleteItem (.dropEvent uuid) uuid
    emit [.overviewDeleted uuid]
  | .itemRecovered _ => do
    if (← readMem (·.dek)).isSome then
      emit [.syncStarted]
      tryCatch (sync X user) fun _ => return ()
    else return ()

def resolveConflict (uuid : Ident) (choice : ConflictChoice) : WebOp Unit := do
  let _ ← requireDek
  let item ← onStore (.choose uuid choice) fun w =>
    let held := w.store.items.get uuid
    let past := match choice with
      | .acceptServer => { w.past with accepted := w.past.accepted ++ [uuid] }
      | .pushLocal =>
        { w.past with chosen := w.past.chosen ++ held.toList.map fun i => (uuid, i.version) }
    ({ w with past }, held)
  match choice with
  | .acceptServer =>
    deleteItem (.dropAccepted uuid) uuid
    emit [.overviewDeleted uuid]
    sync X user
  | .pushLocal =>
    match item with
    | some i => putItem (.putPending uuid) { i with pending := true } id
    | none => pure ()
    sync X user

/-! ### Keys and secret values -/

/-- `rotateKey`: the same vault key is wrapped again, under the key `mk` of the password that
is given. -/
def rotateKey (mk : Key) : WebOp UInt64 := do
  match ← readMem (·.svk) with
  | none => throw (.text "vault is locked")
  | some svk =>
    let status ← request .status (accountStatus user)
    let _ ← getState
    let resp ← request .rotateKey
      (accountRotateKey X ⟨user, status + 1, some (wrapSvk mk svk)⟩)
    let gen := asU64 resp.minEncKeyGen
    onMem .memory fun _ w => ({ w with mem := { w.mem with localKeyGen := gen } }, ())
    setState ({ · with localKeyGen := gen, minEncKeyGen := gen })
    return gen

def encryptSecretValue (project : Ident) (plaintext : Plain) : WebOp Blob := do
  let dek ← requireDek
  onMem (.sealValue project) fun _ w =>
    let gen := w.mem.localKeyGen
    let value := encrypt dek project gen plaintext
    ({ w with past := { w.past with
      issued := w.past.issued ++ [(project, value, plaintext, gen)] } }, value)

def decryptSecretValue (project : Ident) (value : Blob) : WebOp Plain := do
  let dek ← requireDek
  match ← onMem (.openValue project value) fun _ w =>
    (w, decrypt dek project w.mem.localKeyGen value) with
  | some p => return p
  | none => throw (.text "decrypt")

/-! ### The client among others -/

/-- What is asked of the client, or what another device asks of the server. -/
inductive WebCmd
  | addItem (plaintext : Plain)
  | sync
  | event (ev : ServerEvent)
  | resolveConflict (uuid : Ident) (choice : ConflictChoice)
  | reveal (uuid : Ident)
  | rotateKey (mk : Key)
  | encryptSecretValue (project : Ident) (plaintext : Plain)
  | decryptSecretValue (project : Ident) (value : Blob)
  | other (req : Req Blob)

inductive WebReply
  | done
  | plain (p : Plain)
  | gen (g : UInt64)
  | value (b : Blob)
  deriving DecidableEq

def webExec : WebCmd → WebOp WebReply
  | .addItem p => do addItem p; return .done
  | .sync => do sync X user; return .done
  | .event ev => do onServerEvent X user ev; return .done
  | .resolveConflict uuid choice => do resolveConflict X user uuid choice; return .done
  | .reveal uuid => return .plain (← reveal uuid)
  | .rotateKey mk => return .gen (← rotateKey X user mk)
  | .encryptSecretValue project p => return .value (← encryptSecretValue project p)
  | .decryptSecretValue project value => return .plain (← decryptSecretValue project value)
  | .other req => do
    let _ ← ExceptT.lift (zoom (webServer .elsewhere) (serve X req))
    return .done

abbrev WebSys := Sys WebCmd WebWorld ClientEnv WebLabel (Except WebError WebReply)

abbrev WebAct := Interleave.Act WebCmd ClientEnv

def webCode (q : WebCmd) : WebCode (Except WebError WebReply) := (webExec X user q).run

end Vautr.WebClient
