import Vautr.ClientDb
import Vautr.Crypto
import Vautr.Zoom

/-!
The clients of the server: what a client holds in memory and on disk, and how it talks to the
server (`orchestrator.rs`, `sync_transport.rs`, `vautr-sync/src/engine.rs`).

The world is the server's database and the devices. A device runs programs whose statements
are those of the server's handlers, those of its local database, and reads and writes of its
memory; every `await` of the source stands between two statements. A request may be lost on
the way to the server, and so may the answer on the way back: what the server did in between
stays done.
-/

namespace Vautr.Client

open Vautr.Atomic Vautr.Session Vautr.Sql Vautr.Database Vautr.Api Vautr.Server Vautr.Handlers
  Vautr.ClientDb Vautr.Crypto Vautr.Zoom

/-! ### What a client holds -/

structure ConflictEvent where
  uuid : Ident
  localVersion : UInt64
  serverVersion : UInt64
  isToxic : Bool
  deriving DecidableEq

/-- `VaultStateUpdate`: what a client publishes to its user interface. -/
inductive Update
  | syncStarted
  | syncCompleted
  | overviewUpserted (uuid : Ident)
  | overviewDeleted (uuid : Ident)
  | conflictDetected (ev : ConflictEvent)
  | keyUpdateRequired
  | vaultLocked
  | mutationSucceeded (receipt : UInt64)
  | mutationFailed (receipt : UInt64)
  deriving DecidableEq

/-- The memory of a client (`VautrClient`). `transport` is the account that the session token
of the connected transport belongs to; `bus` is what was published. -/
structure Memory where
  of ::
  svk : Option Key
  dek : Option DKey
  mk : Option Key
  localGen : UInt64
  minEncKeyGen : UInt64
  locked : Bool
  cursor : UInt64
  blacklist : Table BlacklistRow.uuid
  blacklistDirty : Bool
  transport : Option Ident
  serverUserId : Option Ident
  receipts : UInt64
  bus : List Update

def Memory.new : Memory :=
  ⟨none, none, none, 1, 0, true, 0, .empty, false, none, none, 1, []⟩

def Memory.isIgnored (m : Memory) (uuid : Ident) : Bool := (m.blacklist.get uuid).isSome

def Memory.isToxic (m : Memory) (uuid : Ident) : Bool :=
  (m.blacklist.get uuid).any (·.state = .toxicIgnored)

structure Device where
  db : LocalDb Blob
  mem : Memory

/-- The server and the devices. -/
structure World where
  server : Db Blob
  devices : ℕ → Device

def World.setDevice (w : World) (d : ℕ) (c : Device) : World :=
  { w with devices := fun d' => if d' = d then c else w.devices d' }

@[simp] lemma World.setDevice_server (w : World) (d : ℕ) (c : Device) :
    (w.setDevice d c).server = w.server := rfl

@[simp] lemma World.setDevice_self (w : World) (d : ℕ) (c : Device) :
    (w.setDevice d c).devices d = c := by
  simp [setDevice]

lemma World.setDevice_of_ne (w : World) {d d' : ℕ} (h : d' ≠ d) (c : Device) :
    (w.setDevice d c).devices d' = w.devices d' := by
  simp [setDevice, h]

lemma World.setDevice_eq_self (w : World) (d : ℕ) : w.setDevice d (w.devices d) = w := by
  have : (fun d' => if d' = d then w.devices d else w.devices d') = w.devices := by
    funext d'
    split
    · next h => rw [h]
    · rfl
  rw [setDevice, this]

/-! ### Statements -/

/-- What a statement of a client reads from outside: what a statement of the server reads,
and a fresh key. A network statement with a fault is a lost message. -/
structure ClientEnv where
  now : ℤ
  uuid : Ident
  fault : Bool
  key : Key
  deriving DecidableEq

instance : Faulty ClientEnv := ⟨ClientEnv.fault⟩

structure PulledOverview where
  uuid : Ident
  version : UInt64
  encKeyGen : UInt64
  deleted : Bool
  deriving DecidableEq

/-- The statements of a client, those of the server's handlers included. `rotateAnswer` is
the arrival of the answer to a rotation; it names the user, the blob that was sent and the
answer. A page is stored with the items that are in it, and what could not be fetched or
stored is named in the log. -/
inductive Label
  | server (l : Stmt)
  | send
  | receive
  | rotateAnswer (user : Ident) (sent : Blob) (answer : Except ApiError RotateKeyResp)
  | clock
  | newKey
  | memory
  | publish
  | readVersion (uuid : Ident)
  | saveItem (uuid : Ident)
  | deleteItem (uuid : Ident)
  | listPendingDeletes
  | clearPendingDeletes
  | listLocalItems
  | listRotationItems
  | reencryptItem (uuid : Ident)
  | storeSvkBlob
  | getSyncCursor
  | listBlacklist
  | loadBlacklist
  | restart
  | persistPage (upserts : List Ident)
  | persistBlacklist
  | warnFetch (ov : PulledOverview)
  | warnPersist (upserts : List PulledOverview) (deletes : List Ident)
  deriving DecidableEq

/-- A step of the device `d`. -/
abbrev Name := ℕ × Label

/-- A program of a client. -/
abbrev Code := Prog World ClientEnv Name

/-- `TransportError`. `request` is an error of the HTTP client itself, with its text. -/
inductive TransportError
  | http (code : ℕ)
  | cursorExpired
  | other (msg : String)
  | request
  deriving DecidableEq

/-- The `String` a client operation fails with: a text, or a context and the text of the
error inside. -/
inductive ClientError
  | text (s : String)
  | db (context : String)
  | net (context : String) (e : TransportError)
  deriving DecidableEq

abbrev Op := ExceptT ClientError Code

abbrev Net := ExceptT TransportError Code

variable (X : Ext Blob) (d : ℕ)

/-- A read or write of the memory, which does not fail. -/
def onMemory {ε α : Type} (l : Label) (g : ClientEnv → Memory → Memory × α) :
    ExceptT ε Code α :=
  ExceptT.mk (Prog.atom (d, l) fun e w =>
    let r := g e (w.devices d).mem
    (w.setDevice d { w.devices d with mem := r.1 }, .ok r.2))

def readMemory {ε α : Type} (g : Memory → α) : ExceptT ε Code α :=
  onMemory d .memory fun _ m => (m, g m)

def writeMemory {ε : Type} (g : Memory → Memory) : ExceptT ε Code Unit :=
  onMemory d .memory fun _ m => (g m, ())

def publish {ε : Type} (us : List Update) : ExceptT ε Code Unit :=
  onMemory d .publish fun _ m => ({ m with bus := m.bus ++ us }, ())

/-- A statement or transaction on the local database: it fails, or does `g`. -/
def onDb {α : Type} (l : Label) (context : String)
    (g : LocalDb Blob → Option (LocalDb Blob × α)) : Op α :=
  ExceptT.mk (Prog.atom (d, l) fun e w =>
    if e.fault then (w, .error (.db context))
    else match g (w.devices d).db with
      | some (db, a) => (w.setDevice d { w.devices d with db }, .ok a)
      | none => (w, .error (.db context)))

def readDb {α : Type} (l : Label) (context : String) (g : LocalDb Blob → α) : Op α :=
  onDb d l context fun db => some (db, g db)

def writeDb (l : Label) (context : String) (g : LocalDb Blob → LocalDb Blob) : Op Unit :=
  onDb d l context fun db => some (g db, ())

/-- A line in the log, for what the code does when something failed and it goes on. -/
def warn {ε : Type} (l : Label) : ExceptT ε Code Unit := onMemory d l fun _ m => (m, ())

/-- `x.await`, with a look at the result. -/
def inspect {ε ε' α : Type} (x : ExceptT ε Code α) : ExceptT ε' Code (Except ε α) :=
  ExceptT.lift x.run

/-- `map_err(|e| format!("{context}: {e}"))?`. -/
def orFail {α : Type} (context : String) (x : Net α) : Op α :=
  ExceptT.mk (x.run >>= fun r => .ret (r.mapError (.net context)))

/-! ### The transport (`sync_transport.rs`) -/

/-- A handler of the server, run for the device `d`. -/
def onServer : View (Db Blob) World Env ClientEnv Stmt Name where
  get w := w.server
  put s w := { w with server := s }
  inp e := ⟨e.now, e.uuid, e.fault⟩
  name l := (d, .server l)
  get_put _ _ := rfl

/-- `http_err`, of the answer the server gives for an error. -/
def httpErr : ApiError → TransportError
  | .new 410 _ _ => .cursorExpired
  | .new 422 _ _ => .other "key_generation_too_old"
  | .new 412 _ _ => .other "precondition_failed"
  | .new status _ _ => .http status
  | .internal _ => .http 500
  | .internalText _ => .http 500
  | .panic => .request

/-- A message over the network: it arrives or is lost. -/
def message {α : Type} (l : Label) (r : Except TransportError α) : Net α :=
  ExceptT.mk (Prog.atom (d, l) fun e w => (w, if e.fault then .error .request else r))

/-- A request and its answer. -/
def roundTrip {α : Type} (answer : Except ApiError α → Label) (x : ServerHandler Blob α) :
    Net α := do
  message d .send (.ok ())
  let r ← ExceptT.lift (zoom (onServer d) x.run)
  message d (answer r) (r.mapError httpErr)

def pull (user : Ident) (cursor : UInt64) : Net (UInt64 × List PulledOverview × Bool) := do
  let r ← roundTrip d (fun _ => .receive) (syncPull user cursor (some 100))
  return (r.newCursor,
    (r.items.filter (X.isUuid ·.uuid)).map fun i =>
      ⟨i.uuid, asU64 i.version, asU64 i.encKeyGen, i.deletedDate.isSome⟩,
    r.hasMore)

/-- The payload in the answer to a request for one. -/
def delivered : List (PayloadResult Blob) → Except TransportError Blob
  | r :: _ =>
    if r.status = .payloadDelivered then
      match r.payload with
      | some p => .ok p
      | none => .error (.other "payload_delivered without payload")
    else .error (.other "payload not available")
  | [] => .error (.other "payload not available")

def fetchPayload (user uuid : Ident) (version : UInt64) : Net Blob := do
  let rs ← roundTrip d (fun _ => .receive) (syncPullPayloads user [(uuid, version)])
  ExceptT.mk (.ret (delivered rs))

inductive PushOutcome
  | applied
  | conflict (serverVersion : UInt64)
  | epochTooOld
  deriving DecidableEq

def PushResult.outcome (r : PushResult) : PushOutcome :=
  match r.status with
  | .success => .applied
  | .epochTooOld => .epochTooOld
  | .conflict => .conflict ((r.currentServerState.map (asU64 ·.version)).getD 0)

/-- An item to push: a payload, or none for a tombstone. -/
structure Pushed where
  uuid : Ident
  targetVersion : UInt64
  encKeyGen : UInt64
  payload : Option Blob
  deriving DecidableEq

/-- The item as it is sent: without a payload, it is a deletion at `now`. -/
def Pushed.toItem (now : ℤ) (i : Pushed) : PushItem Blob :=
  ⟨i.uuid, i.targetVersion, i.encKeyGen, i.payload.map some,
    if i.payload.isNone then some now else none⟩

def pushBatch (user : Ident) (items : List Pushed) : Net (List PushOutcome) := do
  let now ← onMemory d .clock fun e m => (m, e.now)
  let rs ← roundTrip d (fun _ => .receive) (syncPushBatch X ⟨user, items.map (Pushed.toItem now)⟩)
  return rs.map PushResult.outcome

/-- `Transport::account_status`, the generation in it. -/
def accountStatusGen (user : Ident) : Net UInt64 := do
  let gen ← roundTrip d (fun _ => .receive) (accountStatus user)
  return asU64 gen

/-- `Transport::rotate_key`. -/
def rotateKeyRequest (user : Ident) (newGen : UInt64) (blob : Blob) : Net UInt64 := do
  let r ← roundTrip d (.rotateAnswer user blob) (accountRotateKey X ⟨user, asI64 newGen, some blob⟩)
  return asU64 r.minEncKeyGen

/-! ### The sync engine (`engine.rs`) -/

def fetchPayloadIfAllowed (user uuid : Ident) (version : UInt64) : Net (Option Blob) := do
  if ← readMemory d (·.isIgnored uuid) then
    return none
  else
    return some (← fetchPayload d user uuid version)

/-- `Engine::push_batch`: one outcome for each item, or an error. -/
def enginePushBatch (user : Ident) (items : List Pushed) : Net (List (Ident × PushOutcome)) := do
  let outcomes ← pushBatch X d user items
  if outcomes.length ≠ items.length then
    throw (.other "push_batch: transport returned another number of outcomes")
  else
    return (items.map (·.uuid)).zip outcomes

/-! ### What the statements promise -/

section Guarantees

variable {X d} {ε ε' α : Type} {rely : Name → World → World → Prop}
  {G : Ev World ClientEnv Name → Prop}

lemma guarantees_onMemory {l : Label} {g : ClientEnv → Memory → Memory × α}
    (h : ∀ e w, G ⟨(d, l), e, w,
      w.setDevice d { w.devices d with mem := (g e (w.devices d).mem).1 }⟩) :
    Guarantees rely G (onMemory d l g : ExceptT ε Code α).run :=
  guarantees_stmt h fun _ _ => guarantees_ret _

lemma guarantees_readMemory {g : Memory → α} (h : ∀ e w, G ⟨(d, .memory), e, w, w⟩) :
    Guarantees rely G (readMemory d g : ExceptT ε Code α).run := by
  refine guarantees_onMemory fun e w => ?_
  dsimp only
  rw [World.setDevice_eq_self]
  exact h e w

lemma guarantees_onDb {l : Label} {context : String}
    {g : LocalDb Blob → Option (LocalDb Blob × α)} (hsame : ∀ e w, G ⟨(d, l), e, w, w⟩)
    (hrun : ∀ e w db a, e.fault = false → g (w.devices d).db = some (db, a) →
      G ⟨(d, l), e, w, w.setDevice d { w.devices d with db }⟩) :
    Guarantees rely G (onDb d l context g).run := by
  refine guarantees_stmt (fun e w => ?_) fun _ _ => guarantees_ret _
  cases hf : e.fault with
  | true => simpa [hf] using hsame e w
  | false =>
    cases hg : g (w.devices d).db with
    | none => simpa [hf, hg] using hsame e w
    | some r => simpa [hf, hg] using hrun e w r.1 r.2 hf hg

lemma guarantees_writeDb {l : Label} {context : String} {g : LocalDb Blob → LocalDb Blob}
    (hsame : ∀ e w, G ⟨(d, l), e, w, w⟩)
    (hrun : ∀ e w, e.fault = false →
      G ⟨(d, l), e, w, w.setDevice d { w.devices d with db := g (w.devices d).db }⟩) :
    Guarantees rely G (writeDb d l context g).run :=
  guarantees_onDb hsame fun e w db a hf h => by
    simp only [Option.some.injEq, Prod.mk.injEq] at h
    rw [← h.1]
    exact hrun e w hf

lemma guarantees_readDb {l : Label} {context : String} {g : LocalDb Blob → α}
    (h : ∀ e w, G ⟨(d, l), e, w, w⟩) : Guarantees rely G (readDb d l context g).run := by
  refine guarantees_onDb h fun e w db a _ hg => ?_
  simp only [Option.some.injEq, Prod.mk.injEq] at hg
  rw [← hg.1]
  exact (World.setDevice_eq_self w d).symm ▸ h e w

lemma guarantees_message {l : Label} {r : Except TransportError α}
    (h : ∀ e w, G ⟨(d, l), e, w, w⟩) : Guarantees rely G (message d l r).run :=
  guarantees_stmt h fun _ _ => guarantees_ret _

lemma guarantees_lift {p : Code α} (h : Guarantees rely G p) :
    Guarantees rely G (ExceptT.lift p : ExceptT ε Code α).run := by
  have : (ExceptT.lift p : ExceptT ε Code α).run = p >>= fun a => .ret (.ok a) := by
    rw [ExceptT.run_lift]
    rfl
  rw [this]
  exact guarantees_bind h fun _ => guarantees_ret _

lemma guarantees_inspect {x : ExceptT ε Code α} (h : Guarantees rely G x.run) :
    Guarantees rely G (inspect x : ExceptT ε' Code (Except ε α)).run := guarantees_lift h

lemma guarantees_orFail {context : String} {x : Net α} (h : Guarantees rely G x.run) :
    Guarantees rely G (orFail context x).run := guarantees_bind h fun _ => guarantees_ret _

lemma guarantees_roundTrip {Gs : DbEv Blob → Prop} {answer : Except ApiError α → Label}
    {x : ServerHandler Blob α} (hx : Guarantees (fun _ _ _ => True) Gs x.run)
    (hsend : ∀ e w, G ⟨(d, .send), e, w, w⟩)
    (hserver : ∀ l e w s, Gs ⟨l, (onServer d).inp e, w.server, s⟩ →
      G ⟨(d, .server l), e, w, { w with server := s }⟩)
    (hanswer : ∀ r e w, G ⟨(d, answer r), e, w, w⟩) :
    Guarantees rely G (roundTrip d answer x).run := by
  refine guarantees_bind_except (guarantees_message hsend) fun _ =>
    guarantees_bind_except (guarantees_lift (guarantees_zoom hx (fun _ _ _ _ => trivial) ?_))
      fun r => guarantees_message (hanswer r)
  exact fun l e w s h => hserver l e w s h

lemma wp_orFail {R : Rules World ClientEnv Name} {context : String} {x : Net α}
    {Q : Except ClientError α → List (Ev World ClientEnv Name) → World → Prop}
    {tr : List (Ev World ClientEnv Name)} {w : World} :
    wp R (orFail context x).run Q tr w ↔
      wp R x.run (fun r => Q (r.mapError (.net context))) tr w := wp_bind _ _ _ _ _

lemma wp_lift {R : Rules World ClientEnv Name} {p : Code α}
    {Q : Except ε α → List (Ev World ClientEnv Name) → World → Prop}
    {tr : List (Ev World ClientEnv Name)} {w : World} :
    wp R (ExceptT.lift p : ExceptT ε Code α).run Q tr w ↔ wp R p (fun a => Q (.ok a)) tr w := by
  have : (ExceptT.lift p : ExceptT ε Code α).run = p >>= fun a => .ret (.ok a) := by
    rw [ExceptT.run_lift]
    rfl
  rw [this, wp_bind]
  rfl

lemma wp_zoom_orInternal {R : Rules World ClientEnv Name} {x : Repo Blob α}
    {Q : Except ApiError α → List (Ev World ClientEnv Name) → World → Prop}
    {tr : List (Ev World ClientEnv Name)} {w : World} :
    wp R (zoomE (onServer d) (orInternal x)).run Q tr w ↔
      wp R (zoom (onServer d) x.run) (fun r => Q (r.mapError .internal)) tr w := by
  change wp R (zoom _ (x.run >>= _)) Q tr w ↔ _
  rw [zoom_bind, wp_bind]
  rfl

/-- A message is lost or arrives. -/
lemma wp_message {R : Rules World ClientEnv Name} {l : Label} {r : Except TransportError α}
    {Q : Except TransportError α → List (Ev World ClientEnv Name) → World → Prop}
    {tr : List (Ev World ClientEnv Name)} {w : World} (hmid : R.mid tr)
    (h : ∀ w' e r', R.rely (d, l) w w' → R.ok (tr ++ [⟨(d, l), e, w', w'⟩]) →
      r' = .error .request ∨ r' = r → Q r' (tr ++ [⟨(d, l), e, w', w'⟩]) w') :
    wp R (message d l r).run Q tr w := by
  refine ⟨hmid, fun w' e hr hok => h w' e _ hr hok ?_⟩
  by_cases hf : e.fault = true
  · exact .inl (if_pos hf)
  · exact .inr (if_neg hf)

/-- A statement on the local database fails and changes nothing, or does `g`. -/
lemma wp_onDb_ok {R : Rules World ClientEnv Name} {l : Label} {context : String}
    {g : LocalDb Blob → Option (LocalDb Blob × α)}
    {Q : Except ClientError α → List (Ev World ClientEnv Name) → World → Prop}
    {tr : List (Ev World ClientEnv Name)} {w : World} (hmid : R.mid tr)
    (hfail : ∀ w' e, R.rely (d, l) w w' → R.ok (tr ++ [⟨(d, l), e, w', w'⟩]) →
      (e.fault = false → g (w'.devices d).db = none) →
      Q (.error (.db context)) (tr ++ [⟨(d, l), e, w', w'⟩]) w')
    (hrun : ∀ w' e db a, R.rely (d, l) w w' →
      R.ok (tr ++ [⟨(d, l), e, w', w'.setDevice d { w'.devices d with db }⟩]) →
      e.fault = false → g (w'.devices d).db = some (db, a) →
      Q (.ok a) (tr ++ [⟨(d, l), e, w', w'.setDevice d { w'.devices d with db }⟩])
        (w'.setDevice d { w'.devices d with db })) :
    wp R (onDb d l context g).run Q tr w := by
  refine ⟨hmid, fun w' e hr hok => ?_⟩
  by_cases hf : e.fault = true
  · simpa [hf] using hfail w' e hr (by simpa [hf] using hok) (by simp [hf])
  · cases hg : g (w'.devices d).db with
    | none => simpa [hf, hg] using hfail w' e hr (by simpa [hf, hg] using hok) fun _ => hg
    | some r =>
      simpa [hf, hg] using hrun w' e r.1 r.2 hr (by simpa [hf, hg] using hok) (by simpa using hf) hg

lemma wp_onDb {R : Rules World ClientEnv Name} {l : Label} {context : String}
    {g : LocalDb Blob → Option (LocalDb Blob × α)}
    {Q : Except ClientError α → List (Ev World ClientEnv Name) → World → Prop}
    {tr : List (Ev World ClientEnv Name)} {w : World} (hmid : R.mid tr)
    (hfail : ∀ w' e, R.rely (d, l) w w' → (e.fault = false → g (w'.devices d).db = none) →
      Q (.error (.db context)) (tr ++ [⟨(d, l), e, w', w'⟩]) w')
    (hrun : ∀ w' e db a, R.rely (d, l) w w' → e.fault = false →
      g (w'.devices d).db = some (db, a) →
      Q (.ok a) (tr ++ [⟨(d, l), e, w', w'.setDevice d { w'.devices d with db }⟩])
        (w'.setDevice d { w'.devices d with db })) :
    wp R (onDb d l context g).run Q tr w :=
  wp_onDb_ok hmid (fun w' e hr _ => hfail w' e hr) fun w' e db a hr _ => hrun w' e db a hr

lemma wp_writeDb {R : Rules World ClientEnv Name} {l : Label} {context : String}
    {g : LocalDb Blob → LocalDb Blob}
    {Q : Except ClientError Unit → List (Ev World ClientEnv Name) → World → Prop}
    {tr : List (Ev World ClientEnv Name)} {w : World} (hmid : R.mid tr)
    (hfail : ∀ w' e, R.rely (d, l) w w' → e.fault = true →
      Q (.error (.db context)) (tr ++ [⟨(d, l), e, w', w'⟩]) w')
    (hrun : ∀ w' e, R.rely (d, l) w w' → e.fault = false →
      Q (.ok ()) (tr ++ [⟨(d, l), e, w',
        w'.setDevice d { w'.devices d with db := g (w'.devices d).db }⟩])
        (w'.setDevice d { w'.devices d with db := g (w'.devices d).db })) :
    wp R (writeDb d l context g).run Q tr w := by
  refine wp_onDb hmid (fun w' e hr hf => ?_) fun w' e db a hr hf hg => ?_
  · exact hfail w' e hr (by simpa using hf)
  · simp only [Option.some.injEq, Prod.mk.injEq] at hg
    rw [← hg.1]
    exact hrun w' e hr hf

lemma wp_readDb {R : Rules World ClientEnv Name} {l : Label} {context : String}
    {g : LocalDb Blob → α}
    {Q : Except ClientError α → List (Ev World ClientEnv Name) → World → Prop}
    {tr : List (Ev World ClientEnv Name)} {w : World} (hmid : R.mid tr)
    (hfail : ∀ w' e, R.rely (d, l) w w' → e.fault = true →
      Q (.error (.db context)) (tr ++ [⟨(d, l), e, w', w'⟩]) w')
    (hrun : ∀ w' e, R.rely (d, l) w w' → e.fault = false →
      Q (.ok (g (w'.devices d).db)) (tr ++ [⟨(d, l), e, w', w'⟩]) w') :
    wp R (readDb d l context g).run Q tr w := by
  refine wp_onDb hmid (fun w' e hr hf => ?_) fun w' e db a hr hf hg => ?_
  · exact hfail w' e hr (by simpa using hf)
  · simp only [Option.some.injEq, Prod.mk.injEq] at hg
    rw [← hg.1, ← hg.2, World.setDevice_eq_self]
    exact hrun w' e hr hf

end Guarantees

/-! ### A client that nobody interferes with -/

section Sequential

variable {X d} {ε ε' α : Type} {I : World → Prop} {w : World}

lemma safe_onMemory {l : Label} {g : ClientEnv → Memory → Memory × α}
    {P : Except ε α → World → Prop}
    (h : ∀ e, I (w.setDevice d { w.devices d with mem := (g e (w.devices d).mem).1 }) ∧
      P (.ok (g e (w.devices d).mem).2)
        (w.setDevice d { w.devices d with mem := (g e (w.devices d).mem).1 })) :
    Safe I (onMemory d l g : ExceptT ε Code α).run P w := h

lemma safe_readMemory {g : Memory → α} {P : Except ε α → World → Prop} (hI : I w)
    (h : P (.ok (g (w.devices d).mem)) w) : Safe I (readMemory d g : ExceptT ε Code α).run P w := by
  refine safe_onMemory fun e => ?_
  dsimp only
  rw [World.setDevice_eq_self]
  exact ⟨hI, h⟩

lemma safe_onDb {l : Label} {context : String} {g : LocalDb Blob → Option (LocalDb Blob × α)}
    {P : Except ClientError α → World → Prop} (hI : I w) (herr : ∀ e, P (.error e) w)
    (hok : ∀ db a, g (w.devices d).db = some (db, a) →
      I (w.setDevice d { w.devices d with db }) ∧ P (.ok a) (w.setDevice d { w.devices d with db })) :
    Safe I (onDb d l context g).run P w := by
  intro e
  by_cases hf : e.fault = true
  · simpa [hf] using ⟨hI, herr _⟩
  · cases hg : g (w.devices d).db with
    | none => simpa [hf, hg] using ⟨hI, herr _⟩
    | some r => simpa [hf, hg] using hok r.1 r.2 hg

lemma safe_readDb {l : Label} {context : String} {g : LocalDb Blob → α}
    {P : Except ClientError α → World → Prop} (hI : I w) (herr : ∀ e, P (.error e) w)
    (hok : P (.ok (g (w.devices d).db)) w) : Safe I (readDb d l context g).run P w := by
  refine safe_onDb hI herr fun db a hg => ?_
  simp only [Option.some.injEq, Prod.mk.injEq] at hg
  obtain ⟨rfl, rfl⟩ := hg
  exact (World.setDevice_eq_self w d).symm ▸ ⟨hI, hok⟩

lemma safe_orFail {context : String} {x : Net α} {P : Except ClientError α → World → Prop} :
    Safe I (orFail context x).run P w ↔
      Safe I x.run (fun r => P (r.mapError (.net context))) w := safe_bind _ _ _ _

lemma safe_lift {p : Code α} {P : Except ε α → World → Prop} :
    Safe I (ExceptT.lift p : ExceptT ε Code α).run P w ↔ Safe I p (fun a => P (.ok a)) w := by
  have : (ExceptT.lift p : ExceptT ε Code α).run = p >>= fun a => .ret (.ok a) := by
    rw [ExceptT.run_lift]
    rfl
  rw [this, safe_bind]
  rfl

lemma alone_readMemory (e : ClientEnv) (g : Memory → α) (w : World) :
    alone e (readMemory d g : ExceptT ε Code α).run w = (.ok (g (w.devices d).mem), w) := by
  change (_, w.setDevice d { w.devices d with mem := (w.devices d).mem }) = _
  rw [World.setDevice_eq_self]

/-- A request is lost, or the server runs it, and then the answer is lost or arrives. -/
lemma safe_roundTrip {answer : Except ApiError α → Label} {x : ServerHandler Blob α}
    {P : Except TransportError α → World → Prop} (hI : I w) (hlost : P (.error .request) w)
    (hx : Safe (fun s => I { w with server := s }) x.run (fun r s => I { w with server := s } ∧
      P (.error .request) { w with server := s } ∧ P (r.mapError httpErr) { w with server := s })
      w.server) : Safe I (roundTrip d answer x).run P w := by
  unfold roundTrip
  rw [safe_bind_except]
  intro e
  refine ⟨hI, ?_⟩
  by_cases hf : e.fault = true
  · simpa [hf] using hlost
  simp only [hf]
  change Safe I (_ >>= _ : Net α).run P w
  rw [safe_bind_except, safe_lift]
  refine safe_zoom (v := onServer d) (fun _ _ _ => rfl) (safe_mono (fun r s h => ?_) hx) rfl
  refine fun e => ⟨h.1, ?_⟩
  by_cases hf : e.fault = true
  · simpa [hf, onServer] using h.2.1
  · simpa [hf, onServer] using h.2.2

/-- The same, while the statements meet the condition `C`. -/
lemma safely_roundTrip {C : Ev World ClientEnv Name → Prop} {C' : DbEv Blob → Prop}
    {answer : Except ApiError α → Label} {x : ServerHandler Blob α}
    {P : Except TransportError α → World → Prop} (hI : I w) (hlost : P (.error .request) w)
    (hC : ∀ l e w s, C ⟨(d, .server l), e, w, { w with server := s }⟩ →
      C' ⟨l, (onServer d).inp e, w.server, s⟩)
    (hx : Safely C' (fun s => I { w with server := s }) x.run (fun r s =>
      I { w with server := s } ∧ P (.error .request) { w with server := s } ∧
      ∀ e, C ⟨(d, answer r), e, { w with server := s }, { w with server := s }⟩ →
        e.fault = false → P (r.mapError httpErr) { w with server := s }) w.server) :
    Safely C I (roundTrip d answer x).run P w := by
  unfold roundTrip
  rw [safely_bind_except]
  intro e _
  refine ⟨hI, ?_⟩
  by_cases hf : e.fault = true
  · simpa [hf] using hlost
  simp only [hf]
  change Safely C I (_ >>= _ : Net α).run P w
  rw [safely_bind_except]
  have hlift : (ExceptT.lift (zoom (onServer d) x.run) : Net (Except ApiError α)).run =
      zoom (onServer d) x.run >>= fun a => .ret (.ok a) := by
    rw [ExceptT.run_lift]
    rfl
  rw [hlift, safely_bind]
  refine safely_zoom (v := onServer d) (fun _ _ _ => rfl) hC (safely_mono (fun r s h => ?_) hx) rfl
  intro e hCe
  refine ⟨h.1, ?_⟩
  by_cases hf : e.fault = true
  · simpa [hf, onServer] using h.2.1
  · simpa [hf, onServer] using h.2.2 e hCe (by simpa using hf)

end Sequential

end Vautr.Client
