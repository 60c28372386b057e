import Vautr.Push
import Vautr.Zoom

/-!
The events that the server pushes to its clients (`handlers/events.rs`).

Each user has a broadcast channel. A client that subscribes gets what is published from then on,
and what it has not read yet is kept for it, up to 256 events. The reaper scans for tombstones and
announces each of them once.
-/

namespace Vautr.VaultEvents

open Vautr.Atomic Vautr.Interleave Vautr.Sql Vautr.Database Vautr.Api Vautr.Server Vautr.Handlers
  Vautr.Push Vautr.Zoom

inductive VaultEvent
  | itemRecovered (userId uuid : Ident)
  | itemPermanentlyDeleted (userId uuid : Ident)
  deriving DecidableEq

def VaultEvent.userId : VaultEvent → Ident
  | .itemRecovered user _ => user
  | .itemPermanentlyDeleted user _ => user

def VaultEvent.uuid : VaultEvent → Ident
  | .itemRecovered _ uuid => uuid
  | .itemPermanentlyDeleted _ uuid => uuid

def eventChannelCapacity : ℕ := 256

/-- An event on a channel, and the time it was published at. -/
structure Posted where
  event : VaultEvent
  time : ℕ
  deriving DecidableEq

/-- What a client is sent. -/
inductive Frame
  | hello
  | data (p : Posted)
  | error
  deriving DecidableEq

/-- A stream of events: its receiver stands before the event `next` of the channel of its user. -/
structure Stream where
  id : ℕ
  userId : Ident
  next : ℕ
  closing : Bool
  frames : List Frame
  deriving DecidableEq

/-- The server's database, the channels, the streams, and the set of the reaper. `time` counts the
statements on the database, and `diedAt` says when an item was tombstoned last. -/
structure Hub (B : Type) where
  db : Db B
  channels : Ident → List Posted
  streams : List Stream
  nextId : ℕ
  seen : List (Ident × Ident)
  time : ℕ
  diedAt : Ident × Ident → ℕ

/-- What a statement reads from outside: what one of the database reads, whether the session has to
be validated again, and whether it is still valid. -/
structure HubEnv where
  base : Env
  due : Bool
  valid : Bool

instance : Faulty HubEnv := ⟨fun e => e.base.fault⟩

inductive HubStmt
  | db (l : Stmt)
  | publish (ev : VaultEvent)
  | subscribe
  | poll (id : ℕ)
  | disconnect (id : ℕ)
  | scanTombstones
  | announce (user uuid : Ident)
  deriving DecidableEq

variable {B : Type}

abbrev HubEv (B : Type) := Ev (Hub B) HubEnv HubStmt

abbrev HubHandler (B : Type) := Handler (Hub B) HubEnv HubStmt

/-- The item is there, and it is tombstoned. -/
def tombstoned (db : Db B) (key : Ident × Ident) : Bool :=
  (db.items.get key).any (·.deletedDate.isSome)

/-- A statement on the database. -/
def Hub.setDb (db : Db B) (s : Hub B) : Hub B :=
  { s with
    db
    time := s.time + 1
    diedAt := fun key =>
      if tombstoned db key && !tombstoned s.db key then s.time + 1 else s.diedAt key }

def onDb : View (Db B) (Hub B) Env HubEnv Stmt HubStmt where
  get := Hub.db
  put := Hub.setDb
  inp := HubEnv.base
  name := .db
  get_put _ _ := rfl

/-! ### The bus -/

/-- `UserEventBus::publish`. -/
def Hub.post (s : Hub B) (ev : VaultEvent) : Hub B :=
  { s with channels := fun user =>
      if user = ev.userId then s.channels user ++ [⟨ev, s.time⟩] else s.channels user }

def publish (ev : VaultEvent) : HubHandler B Unit :=
  ExceptT.mk (Prog.atom (.publish ev) fun _ s => (s.post ev, .ok ()))

/-- `UserEventBus::subscribe`, and the first frame. -/
def subscribe (user : Ident) : HubHandler B ℕ :=
  ExceptT.mk (Prog.atom .subscribe fun _ s =>
    ({ s with
      streams := ⟨s.nextId, user, (s.channels user).length, false, [.hello]⟩ :: s.streams
      nextId := s.nextId + 1 }, .ok s.nextId))

/-- `events_stream`, for what `auth_user` answers. -/
def eventsStream (auth : Except ApiError Ident) : HubHandler B ℕ :=
  match auth with
  | .ok user => subscribe user
  | .error e => throw e

/-- One turn of the loop of a stream. -/
def Stream.poll (due valid : Bool) (channel : List Posted) (t : Stream) : Stream :=
  if t.closing then t
  else if due then
    if valid then t else { t with frames := t.frames ++ [.error], closing := true }
  -- `RecvError::Lagged`: the receiver goes on with the oldest event that is kept
  else if t.next + eventChannelCapacity < channel.length then
    { t with next := channel.length - eventChannelCapacity }
  else
    match channel[t.next]? with
    | some p => { t with frames := t.frames ++ [.data p], next := t.next + 1 }
    | none => t

def Hub.poll (id : ℕ) (due valid : Bool) (s : Hub B) : Hub B :=
  let turn (t : Stream) : Stream :=
    if t.id = id then t.poll due valid (s.channels t.userId) else t
  { s with streams := s.streams.map turn }

def poll (id : ℕ) : Prog (Hub B) HubEnv HubStmt Unit :=
  Prog.atom (.poll id) fun e s => (s.poll id e.due e.valid, ())

/-- The client goes away, or its stream has ended. -/
def disconnect (id : ℕ) : Prog (Hub B) HubEnv HubStmt Unit :=
  Prog.atom (.disconnect id) fun _ s => ({ s with streams := s.streams.filter (·.id ≠ id) }, ())

/-! ### Mutations

`parse` is `Uuid::parse_str` of the `uuid` crate. -/

variable (parse : Ident → Option Ident)

/-- `uuid.parse().unwrap_or_default()`. -/
def parseOrNil (uuid : Ident) : Ident := (parse uuid).getD 0

/-- `upsert_item_occ`. -/
def upsert (q : Upsert B) : HubHandler B UpsertOutcome :=
  zoomE onDb (orInternal (upsertItemOcc (fun u => (parse u).isSome) q))

/-- One item of a batch of `sync_push_batch`. -/
def pushItem (user : Ident) (now : ℤ) (item : PushItem B) : HubHandler B PushResult := do
  let minGen := (← zoomE onDb (orInternal (minEncKeyGen user))).getD 1
  if item.encKeyGen < asU64 minGen then
    return .refused item.uuid .epochTooOld none
  else
    let payload ← zoomE onDb (decodePayload item.payload)
    match ← upsert parse (item.upsert user now payload) with
    | .updated => zoomE onDb (pushedRow user item)
    | .recovered => do
      publish (.itemRecovered user (parseOrNil parse item.uuid))
      zoomE onDb (pushedRow user item)
    | .conflict =>
      let row ← zoomE onDb (orInternal (getItem item.uuid user))
      return .refused item.uuid .conflict (row.map fun r => ⟨r.version, r.encKeyGen⟩)
    | .epochTooOld => return .refused item.uuid .epochTooOld none

/-- The loop over the batch. -/
def pushItems (user : Ident) (now : ℤ) : List (PushItem B) → HubHandler B (List PushResult)
  | [] => pure []
  | item :: rest => do
    let r ← pushItem parse user now item
    return r :: (← pushItems user now rest)

def syncPushBatch (req : PushBatchReq B) : HubHandler B (List PushResult) := do
  if 100 < req.items.length then
    throw (.badRequest "payload_limit_exceeded" "max 100 items per push-batch")
  else
    let now ← zoomE onDb nowMs
    pushItems parse req.userId now req.items

structure ItemPutResp where
  uuid : Ident
  version : ℤ
  encKeyGen : ℤ
  updatedAt : ℤ
  deriving DecidableEq

def itemNotFound : ApiError := .new 404 "not_found" "item not found"
def versionConflict : ApiError := .new 412 "precondition_failed" "version conflict"
def generationTooOld : ApiError :=
  .new 422 "key_generation_too_old" "enc_key_gen behind server epoch"

/-- The answer to a put that was applied. -/
def putRow (user uuid : Ident) : HubHandler B ItemPutResp := do
  match ← zoomE onDb (orInternal (getItem uuid user)) with
  | some row => return ⟨uuid, row.version, row.encKeyGen, row.updatedAt⟩
  | none => throw .panic

def itemPut (user uuid : Ident) (encKeyGen : UInt64) (payload : Option B) :
    HubHandler B ItemPutResp := do
  match ← zoomE onDb (orInternal (getItem uuid user)) with
  | none => throw itemNotFound
  | some row =>
    let payload ← zoomE onDb (decodeB64 payload)
    let now ← zoomE onDb nowMs
    match ← upsert parse ⟨uuid, user, asI64 (asU64 (row.version + 1)), asI64 encKeyGen, some payload,
      none, now⟩ with
    | .updated => putRow user uuid
    | .recovered => do
      publish (.itemRecovered user (parseOrNil parse uuid))
      putRow user uuid
    | .conflict => throw versionConflict
    | .epochTooOld => throw generationTooOld

def itemDelete (user uuid : Ident) : HubHandler B ItemPutResp := do
  match ← zoomE onDb (orInternal (getItem uuid user)) with
  | none => throw itemNotFound
  | some row =>
    let now ← zoomE onDb nowMs
    match ← upsert parse ⟨uuid, user, asI64 (asU64 (row.version + 1)), row.encKeyGen, none, some now,
      now⟩ with
    | .updated => do
      publish (.itemPermanentlyDeleted user (parseOrNil parse uuid))
      return ⟨uuid, row.version + 1, row.encKeyGen, now⟩
    | .recovered => return ⟨uuid, row.version + 1, row.encKeyGen, now⟩
    | .conflict => throw versionConflict
    | .epochTooOld => throw generationTooOld

/-! ### The reaper -/

/-- `SELECT uuid, user_id FROM items WHERE deleted_date IS NOT NULL`, where the uuid can be
parsed. -/
def tombstones (db : Db B) : List (Ident × Ident) :=
  db.items.rows.filterMap fun r =>
    if r.deletedDate.isSome then (parse r.uuid).map (r.userId, ·) else none

def tombstonedItemsWithOwner : Query (Hub B) HubEnv HubStmt (List (Ident × Ident)) :=
  select .scanTombstones fun s => tombstones parse s.db

/-- A tombstone that was found is announced, unless it was announced before. -/
def announce (user uuid : Ident) : Prog (Hub B) HubEnv HubStmt Unit :=
  Prog.atom (.announce user uuid) fun _ s =>
    if (user, uuid) ∈ s.seen then (s, ())
    else ({ s with seen := (user, uuid) :: s.seen }.post (.itemPermanentlyDeleted user uuid), ())

def announceAll : List (Ident × Ident) → Prog (Hub B) HubEnv HubStmt Unit
  | [] => pure ()
  | x :: rest => do
    announce x.1 x.2
    announceAll rest

/-! ### Requests -/

inductive Req (B : Type)
  | pushBatch (req : PushBatchReq B)
  | itemPut (user uuid : Ident) (encKeyGen : UInt64) (payload : Option B)
  | itemDelete (user uuid : Ident)
  | eventsStream (auth : Except ApiError Ident)
  | poll (id : ℕ)
  | disconnect (id : ℕ)
  | scan

inductive Reply
  | pushed (r : Except ApiError (List PushResult))
  | item (r : Except ApiError ItemPutResp)
  | stream (r : Except ApiError ℕ)
  | done
  | scanned
  | scanFailed

/-- One scan of `spawn_reaper`. -/
def scan : Prog (Hub B) HubEnv HubStmt Reply := do
  match ← (tombstonedItemsWithOwner parse).run with
  | .error _ => return .scanFailed
  | .ok rows => do
    announceAll rows
    return .scanned

def code : Req B → Prog (Hub B) HubEnv HubStmt Reply
  | .pushBatch req => do return .pushed (← (syncPushBatch parse req).run)
  | .itemPut user uuid gen payload => do return .item (← (itemPut parse user uuid gen payload).run)
  | .itemDelete user uuid => do return .item (← (itemDelete parse user uuid).run)
  | .eventsStream auth => do return .stream (← (eventsStream auth).run)
  | .poll id => do poll id; return .done
  | .disconnect id => do disconnect id; return .done
  | .scan => scan parse

abbrev HubSys (B : Type) := Sys (Req B) (Hub B) HubEnv HubStmt Reply

abbrev HubAct (B : Type) := Act (Req B) HubEnv

/-! ### What a scan should do -/

/-- What a channel that keeps `cap` events keeps for a receiver that stands before the event
`next`. -/
def window {α : Type} (cap next : ℕ) (log : List α) : List α := log.drop (max next (log.length - cap))

/-- The events that are kept for a stream. -/
def Hub.unread (s : Hub B) (t : Stream) : List Posted :=
  window eventChannelCapacity t.next (s.channels t.userId)

/-- The stream was sent, or there is kept for it, that the item was deleted, and this was published
since the time `n`. -/
def Told (s : Hub B) (t : Stream) (uuid : Ident) (n : ℕ) : Prop :=
  ∃ p, (.data p ∈ t.frames ∨ p ∈ s.unread t) ∧ p.event = .itemPermanentlyDeleted t.userId uuid ∧
    n ≤ p.time

/-- A scan that has run the statements `tr` has told every stream that was there when it read the
tombstones, and is open at its end, of every tombstone of its user that it read. -/
def Delivered (tr : List (HubEv B)) : Prop :=
  ∀ first last, tr.head? = some first → tr.getLast? = some last →
    ∀ t ∈ last.post.streams, t.closing = false → t.id < first.pre.nextId →
      ∀ r ∈ first.pre.db.items.rows, r.deletedDate.isSome → r.userId = t.userId →
        ∃ uuid, parse r.uuid = some uuid ∧ Told last.post t uuid (first.pre.diedAt r.key)

/-- The user has an item of this name. -/
def Owns (s : Hub B) (user uuid : Ident) : Prop :=
  ∃ r ∈ s.db.items.rows, r.userId = user ∧ parse r.uuid = some uuid

/-- A stream is sent events about items of its user only. -/
def OwnEvents (s : Hub B) : Prop :=
  ∀ t ∈ s.streams, ∀ p, .data p ∈ t.frames → p.event.userId = t.userId ∧
    Owns parse s t.userId p.event.uuid

/-- What a scan should keep. -/
structure Keeps (σ : HubSys B) : Prop where
  scans : ∀ c ∈ σ.calls, c.req = .scan → c.prog.result = some .scanned → Delivered parse c.trace
  own : OwnEvents parse σ.shared

/-- Every tombstone that was announced before was told to the streams of its user since the item was
deleted last. -/
def Informed (s : Hub B) : Prop :=
  ∀ t ∈ s.streams, t.closing = false → ∀ r ∈ s.db.items.rows, r.deletedDate.isSome → r.userId = t.userId →
    ∀ uuid ∈ parse r.uuid, (t.userId, uuid) ∈ s.seen → Told s t uuid (s.diedAt r.key)

/-- No stream of the user loses an unread `ItemPermanentlyDeleted` when one more event is
published. -/
def Room (s : Hub B) (user : Ident) : Prop :=
  ∀ t ∈ s.streams, t.closing = false → t.userId = user → (s.unread t).length = eventChannelCapacity →
    ∀ p ∈ (s.unread t).head?, p.event ≠ .itemPermanentlyDeleted user p.event.uuid

/-- The server starts: nobody is there, and nothing was announced. -/
def start (db : Db B) : Hub B := ⟨db, fun _ => [], [], 0, [], 0, fun _ => 0⟩

/-- What a statement has to meet. -/
def Meets (ev : HubEv B) : Prop :=
  match ev.name with
  | .scanTombstones => Faulty.fault ev.inp = false → Informed parse ev.pre
  | .publish e => Room ev.pre e.userId
  | .announce user uuid => (user, uuid) ∉ ev.pre.seen → Room ev.pre user
  | _ => True

def Attentive (σ : HubSys B) : HubAct B → Prop
  | .call _ => True
  | .exec i e =>
    match σ.calls[i]? with
    | some ⟨_, _, .stmt l f _⟩ => Meets parse ⟨l, e, σ.shared, f e σ.shared⟩
    | _ => True

variable {parse}

/-! ### Channels -/

section Window

variable {α : Type} {cap next : ℕ} {log : List α}

/-- A full channel drops the oldest event when one more is published. -/
lemma window_append (hcap : 0 < cap) (hnext : next ≤ log.length) (a : α) :
    window cap next (log ++ [a]) = (if (window cap next log).length = cap
      then (window cap next log).tail else window cap next log) ++ [a] := by
  simp only [window, List.length_append, List.length_singleton, List.length_drop]
  split
  · next hfull =>
    rw [List.tail_drop, List.drop_append_of_le_length (by omega)]
    congr 2
    omega
  · next hroom =>
    rw [List.drop_append_of_le_length (by omega)]
    congr 2
    omega

/-- A receiver that lags goes on where the channel begins. -/
lemma window_lag (h : next ≤ log.length - cap) :
    window cap (log.length - cap) log = window cap next log := by
  unfold window
  congr 1
  omega

lemma window_get {a : α} (hlag : ¬ next + cap < log.length) (h : log[next]? = some a) :
    window cap next log = a :: window cap (next + 1) log := by
  obtain ⟨hlt, ha⟩ := List.getElem?_eq_some_iff.mp h
  unfold window
  rw [max_eq_left (by omega), max_eq_left (by omega), List.drop_eq_getElem_cons hlt, ha]

end Window

/-! ### What the statements keep -/

/-- The items stay. -/
def Lives (db db' : Db B) : Prop := ∀ k, (db.items.get k).isSome → (db'.items.get k).isSome

/-- From `s` to `s'` no item goes, no tombstone is forgotten by the reaper, no open stream loses
that an item was deleted, and what is announced is told to the streams that were there. -/
structure Grows (s s' : Hub B) : Prop where
  lives : Lives s.db s'.db
  nextId : s.nextId ≤ s'.nextId
  time : s.time ≤ s'.time
  seen : ∀ x ∈ s.seen, x ∈ s'.seen
  told : ∀ t' ∈ s'.streams, t'.closing = false → t'.id < s.nextId → ∃ t ∈ s.streams,
    t.closing = false ∧ t.id = t'.id ∧ t.userId = t'.userId ∧ ∀ u n, Told s t u n → Told s' t' u n
  announced : ∀ x ∈ s'.seen, x ∈ s.seen ∨ ∀ t' ∈ s'.streams, t'.closing = false → t'.userId = x.1 →
    t'.id < s.nextId → Told s' t' x.2 s.time

lemma grows_refl (s : Hub B) : Grows s s where
  lives _ h := h
  nextId := le_rfl
  time := le_rfl
  seen _ h := h
  told t ht hopen _ := ⟨t, ht, hopen, rfl, rfl, fun _ _ h => h⟩
  announced _ h := .inl h

lemma Told.mono {s : Hub B} {t : Stream} {u : Ident} {n n' : ℕ} (h : Told s t u n) (hn : n' ≤ n) :
    Told s t u n' := by
  obtain ⟨p, hp, hev, ht⟩ := h
  exact ⟨p, hp, hev, hn.trans ht⟩

lemma Grows.trans {s₁ s₂ s₃ : Hub B} (h : Grows s₁ s₂) (h' : Grows s₂ s₃) : Grows s₁ s₃ where
  lives k hk := h'.lives k (h.lives k hk)
  nextId := h.nextId.trans h'.nextId
  time := h.time.trans h'.time
  seen x hx := h'.seen x (h.seen x hx)
  told t₃ ht₃ hopen₃ hid := by
    obtain ⟨t₂, ht₂, hopen₂, hid₂, huser₂, htold₂⟩ :=
      h'.told t₃ ht₃ hopen₃ (hid.trans_le h.nextId)
    obtain ⟨t₁, ht₁, hopen₁, hid₁, huser₁, htold₁⟩ := h.told t₂ ht₂ hopen₂ (hid₂ ▸ hid)
    exact ⟨t₁, ht₁, hopen₁, hid₁.trans hid₂, huser₁.trans huser₂,
      fun u n hn => htold₂ u n (htold₁ u n hn)⟩
  announced x hx := by
    rcases h'.announced x hx with hx | hnew
    · refine (h.announced x hx).imp_right fun hnew t₃ ht₃ hopen₃ huser hid => ?_
      obtain ⟨t₂, ht₂, hopen₂, hid₂, huser₂, htold₂⟩ :=
        h'.told t₃ ht₃ hopen₃ (hid.trans_le h.nextId)
      exact htold₂ _ _ (hnew t₂ ht₂ hopen₂ (huser₂.trans huser) (hid₂ ▸ hid))
    · exact .inr fun t₃ ht₃ hopen₃ huser hid =>
        (hnew t₃ ht₃ hopen₃ huser (hid.trans_le h.nextId)).mono h.time

variable (parse) in
/-- What every state keeps. -/
structure Inv (s : Hub B) : Prop where
  parsed : ∀ r ∈ s.db.items.rows, (parse r.uuid).isSome
  times : ∀ key, s.diedAt key ≤ s.time
  next : ∀ t ∈ s.streams, t.next ≤ (s.channels t.userId).length
  channels : ∀ user, ∀ p ∈ s.channels user, p.event.userId = user ∧ Owns parse s user p.event.uuid
  frames : ∀ t ∈ s.streams, ∀ p, .data p ∈ t.frames → p ∈ s.channels t.userId

lemma Inv.own {s : Hub B} (h : Inv parse s) : OwnEvents parse s :=
  fun t ht p hp => h.channels t.userId p (h.frames t ht p hp)

lemma Lives.owns {s s' : Hub B} {user uuid : Ident} (h : Lives s.db s'.db)
    (ho : Owns parse s user uuid) : Owns parse s' user uuid := by
  obtain ⟨r, hr, huser, hparse⟩ := ho
  have hget := h r.key (by rw [Table.get_of_mem hr]; rfl)
  obtain ⟨r', hr'⟩ := Option.isSome_iff_exists.mp hget
  obtain ⟨hmem, hkey⟩ := Table.get_eq_some_iff.mp hr'
  have huuid : r'.uuid = r.uuid := congrArg Prod.fst hkey
  have huser' : r'.userId = r.userId := congrArg Prod.snd hkey
  exact ⟨r', hmem, huser'.trans huser, huuid ▸ hparse⟩

/-- What a statement keeps. -/
structure Good (parse : Ident → Option Ident) (ev : HubEv B) : Prop where
  grows : Grows ev.pre ev.post
  inv : Inv parse ev.post

variable {s : Hub B}

/-- Nothing happens. -/
lemma good_same {l : HubStmt} {e : HubEnv} (h : Inv parse s) : Good parse ⟨l, e, s, s⟩ :=
  ⟨grows_refl s, h⟩

/-! #### The database -/

lemma good_setDb {l : HubStmt} {e : HubEnv} {db : Db B} (h : Inv parse s) (hlives : Lives s.db db)
    (hparsed : ∀ r ∈ db.items.rows, (parse r.uuid).isSome) :
    Good parse ⟨l, e, s, s.setDb db⟩ where
  grows :=
    { lives := hlives
      nextId := le_rfl
      time := Nat.le_succ _
      seen := fun _ h => h
      told := fun t ht hopen _ => ⟨t, ht, hopen, rfl, rfl, fun _ _ h => h⟩
      announced := fun _ h => .inl h }
  inv :=
    { parsed := hparsed
      times := fun key => by
        have := h.times key
        simp only [Hub.setDb]
        split <;> omega
      next := h.next
      channels := fun user p hp => by
        have howns : Lives s.db (s.setDb db).db := hlives
        exact ⟨(h.channels user p hp).1, howns.owns (h.channels user p hp).2⟩
      frames := h.frames }

/-! #### The bus -/

lemma unread_post (ev : VaultEvent) {t : Stream} (ht : t.userId = ev.userId)
    (hnext : t.next ≤ (s.channels t.userId).length) :
    (s.post ev).unread t = (if (s.unread t).length = eventChannelCapacity then (s.unread t).tail
      else s.unread t) ++ [⟨ev, s.time⟩] := by
  have hc : (s.post ev).channels t.userId = s.channels t.userId ++ [⟨ev, s.time⟩] := by
    simp [Hub.post, ht]
  rw [Hub.unread, hc, window_append (by decide) hnext]
  rfl

lemma unread_post_of_ne (ev : VaultEvent) {t : Stream} (ht : t.userId ≠ ev.userId) :
    (s.post ev).unread t = s.unread t := by
  simp [Hub.unread, Hub.post, ht]

/-- Where there is room, a stream loses nothing that matters. -/
lemma Told.post {ev : VaultEvent} {t : Stream} {u : Ident} {n : ℕ} (h : Told s t u n)
    (hroom : Room s ev.userId) (ht : t ∈ s.streams) (hopen : t.closing = false)
    (hnext : t.next ≤ (s.channels t.userId).length) : Told (s.post ev) t u n := by
  obtain ⟨p, hp, hev, hn⟩ := h
  refine ⟨p, hp.imp_right fun hp => ?_, hev, hn⟩
  by_cases huser : t.userId = ev.userId
  · rw [unread_post ev huser hnext]
    refine List.mem_append_left _ ?_
    split
    · next hfull =>
      cases hu : s.unread t with
      | nil => simp [hu] at hp
      | cons q rest =>
        rw [hu] at hp
        refine (List.mem_cons.mp hp).resolve_left ?_
        rintro rfl
        have hne := hroom t ht hopen huser hfull p (by simp [hu])
        rw [hev, huser] at hne
        exact hne rfl
    · exact hp
  · rwa [unread_post_of_ne ev huser]

/-- What is published is told to the streams of the user. -/
lemma told_post (user uuid : Ident) {t : Stream} (ht : t.userId = user)
    (hnext : t.next ≤ (s.channels t.userId).length) :
    Told (s.post (.itemPermanentlyDeleted user uuid)) t uuid s.time :=
  ⟨⟨.itemPermanentlyDeleted user uuid, s.time⟩,
    .inr (by rw [unread_post _ ht hnext]; exact List.mem_append_right _ (List.mem_singleton_self _)),
    by rw [ht], le_rfl⟩

lemma inv_post {ev : VaultEvent} (h : Inv parse s) (ho : Owns parse s ev.userId ev.uuid) :
    Inv parse (s.post ev) where
  parsed := h.parsed
  times := h.times
  next t ht := by
    have := h.next t ht
    simp only [Hub.post]
    split
    · simp only [List.length_append]
      omega
    · exact this
  channels user p hp := by
    simp only [Hub.post] at hp
    split at hp
    · next huser =>
      rcases List.mem_append.mp hp with hp | hp
      · exact h.channels user p hp
      · rw [List.mem_singleton.mp hp, huser]
        exact ⟨rfl, ho⟩
    · exact h.channels user p hp
  frames t ht p hp := by
    have := h.frames t ht p hp
    simp only [Hub.post]
    split
    · exact List.mem_append_left _ this
    · exact this

lemma grows_post {ev : VaultEvent} (h : Inv parse s) (hroom : Room s ev.userId) :
    Grows s (s.post ev) where
  lives _ h := h
  nextId := le_rfl
  time := le_rfl
  seen _ h := h
  told t ht hopen _ := ⟨t, ht, hopen, rfl, rfl, fun _ _ hn => hn.post hroom ht hopen (h.next t ht)⟩
  announced _ h := .inl h

lemma good_announce {l : HubStmt} {e : HubEnv} {user uuid : Ident} (h : Inv parse s)
    (hroom : Room s user) (ho : Owns parse s user uuid) : Good parse ⟨l, e, s,
      { s with seen := (user, uuid) :: s.seen }.post (.itemPermanentlyDeleted user uuid)⟩ := by
  have hg : Grows s (s.post (.itemPermanentlyDeleted user uuid)) := grows_post h hroom
  have hi : Inv parse (s.post (.itemPermanentlyDeleted user uuid)) := inv_post h ho
  refine ⟨⟨hg.lives, hg.nextId, hg.time, fun x hx => List.mem_cons_of_mem _ hx, hg.told,
    fun x hx => ?_⟩, ⟨hi.parsed, hi.times, hi.next, hi.channels, hi.frames⟩⟩
  rcases List.mem_cons.mp hx with rfl | hx
  · exact .inr fun t ht _ huser _ => told_post user uuid huser (h.next t ht)
  · exact .inl hx

/-! #### The streams -/

lemma good_subscribe {l : HubStmt} {e : HubEnv} (user : Ident) (h : Inv parse s) :
    Good parse ⟨l, e, s, { s with
      streams := ⟨s.nextId, user, (s.channels user).length, false, [.hello]⟩ :: s.streams
      nextId := s.nextId + 1 }⟩ where
  grows :=
    { lives := fun _ h => h
      nextId := Nat.le_succ _
      time := le_rfl
      seen := fun _ h => h
      told := fun t ht hopen hid => by
        rcases List.mem_cons.mp ht with rfl | ht
        · exact absurd hid (lt_irrefl _)
        · exact ⟨t, ht, hopen, rfl, rfl, fun _ _ h => h⟩
      announced := fun _ h => .inl h }
  inv :=
    { parsed := h.parsed
      times := h.times
      next := fun t ht => by
        rcases List.mem_cons.mp ht with rfl | ht
        · exact le_rfl
        · exact h.next t ht
      channels := h.channels
      frames := fun t ht p hp => by
        rcases List.mem_cons.mp ht with rfl | ht
        · simp at hp
        · exact h.frames t ht p hp }

lemma good_disconnect {l : HubStmt} {e : HubEnv} (id : ℕ) (h : Inv parse s) :
    Good parse ⟨l, e, s, { s with streams := s.streams.filter (·.id ≠ id) }⟩ where
  grows :=
    { lives := fun _ h => h
      nextId := le_rfl
      time := le_rfl
      seen := fun _ h => h
      told := fun t ht hopen _ =>
        ⟨t, List.mem_of_mem_filter ht, hopen, rfl, rfl, fun _ _ h => h⟩
      announced := fun _ h => .inl h }
  inv :=
    { parsed := h.parsed
      times := h.times
      next := fun t ht => h.next t (List.mem_of_mem_filter ht)
      channels := h.channels
      frames := fun t ht => h.frames t (List.mem_of_mem_filter ht) }

/-- What a turn of a stream does to it. -/
structure Turned (channel : List Posted) (t t' : Stream) : Prop where
  id : t'.id = t.id
  userId : t'.userId = t.userId
  closing : t'.closing = false → t.closing = false
  next : t.next ≤ channel.length → t'.next ≤ channel.length
  frames : ∀ p, .data p ∈ t'.frames → .data p ∈ t.frames ∨ p ∈ channel
  keeps : t'.closing = false → ∀ p, .data p ∈ t.frames ∨ p ∈ window eventChannelCapacity t.next channel →
    .data p ∈ t'.frames ∨ p ∈ window eventChannelCapacity t'.next channel

lemma turned_refl (channel : List Posted) (t : Stream) : Turned channel t t :=
  ⟨rfl, rfl, id, id, fun _ => .inl, fun _ _ h => h⟩

lemma turned_poll (due valid : Bool) (channel : List Posted) (t : Stream) :
    Turned channel t (t.poll due valid channel) := by
  unfold Stream.poll
  split
  · exact turned_refl channel t
  split
  · split
    · exact turned_refl channel t
    · refine ⟨rfl, rfl, nofun, id, fun p hp => .inl ?_, nofun⟩
      simpa using hp
  split
  · next hlag =>
    refine ⟨rfl, rfl, id, fun _ => Nat.sub_le _ _, fun _ => .inl, fun _ p hp => ?_⟩
    refine hp.imp_right fun hp => ?_
    have hle : t.next ≤ channel.length - eventChannelCapacity := by omega
    rwa [window_lag hle]
  · next hlag =>
    split
    · next p hget =>
      have hlt := (List.getElem?_eq_some_iff.mp hget).1
      refine ⟨rfl, rfl, id, fun _ => hlt, fun q hq => ?_, fun _ q hq => ?_⟩
      · simp only [List.mem_append, List.mem_singleton, Frame.data.injEq] at hq
        refine hq.imp_right ?_
        rintro rfl
        exact List.mem_of_getElem? hget
      · rw [window_get hlag hget] at hq
        rcases hq with hq | hq
        · exact .inl (List.mem_append_left _ hq)
        rcases List.mem_cons.mp hq with rfl | hq
        · exact .inl (List.mem_append_right _ (List.mem_singleton_self _))
        · exact .inr hq
    · exact turned_refl channel t

lemma good_poll {l : HubStmt} {e : HubEnv} (id : ℕ) (due valid : Bool) (h : Inv parse s) :
    Good parse ⟨l, e, s, s.poll id due valid⟩ := by
  have hmem : ∀ t' ∈ (s.poll id due valid).streams,
      ∃ t ∈ s.streams, Turned (s.channels t.userId) t t' := by
    intro t' ht'
    obtain ⟨t, ht, rfl⟩ := List.mem_map.mp ht'
    refine ⟨t, ht, ?_⟩
    split
    · exact turned_poll _ _ _ t
    · exact turned_refl _ t
  refine ⟨⟨fun _ h => h, le_rfl, le_rfl, fun _ h => h, fun t' ht' hopen _ => ?_, fun _ h => .inl h⟩,
    ⟨h.parsed, h.times, fun t' ht' => ?_, h.channels, fun t' ht' p hp => ?_⟩⟩
  · obtain ⟨t, ht, hturn⟩ := hmem t' ht'
    refine ⟨t, ht, hturn.closing hopen, hturn.id.symm, hturn.userId.symm, ?_⟩
    rintro u n ⟨p, hp, hev, hn⟩
    refine ⟨p, ?_, by rw [hturn.userId]; exact hev, hn⟩
    have := hturn.keeps hopen p hp
    rwa [Hub.unread, hturn.userId]
  · obtain ⟨t, ht, hturn⟩ := hmem t' ht'
    rw [hturn.userId]
    exact hturn.next (h.next t ht)
  · obtain ⟨t, ht, hturn⟩ := hmem t' ht'
    rw [hturn.userId]
    exact (hturn.frames p hp).elim (h.frames t ht p) fun hp => hp

/-! ### Mutations -/

/-- Every uuid in the table of items can be parsed. -/
def Parsed (parse : Ident → Option Ident) (db : Db B) : Prop :=
  ∀ r ∈ db.items.rows, (parse r.uuid).isSome

/-- What a statement on the database keeps. -/
def DbGood (parse : Ident → Option Ident) (ev : DbEv B) : Prop :=
  Lives ev.pre ev.post ∧ (Parsed parse ev.pre → Parsed parse ev.post)

lemma dbGood_same {l : Stmt} {e : Env} {db : Db B} : DbGood parse ⟨l, e, db, db⟩ :=
  ⟨fun _ h => h, id⟩

lemma dbGood_touches {l : Stmt} {e : Env} {db db' : Db B} {P : ItemRow B → Prop}
    (h : Touches P db db') (hP : ∀ r, P r → (parse r.uuid).isSome) :
    DbGood parse ⟨l, e, db, db'⟩ := by
  refine ⟨fun k hk => ?_, fun hparsed r hr => ?_⟩
  · rcases h.items k with heq | ⟨r, hr, -⟩
    · rwa [heq]
    · rw [hr]
      rfl
  · by_cases hold : r ∈ db.items.rows
    · exact hparsed r hold
    · exact hP r (h.new hr hold)

/-- What a write of the item is known to have done. -/
def Written (parse : Ident → Option Ident) (q : Upsert B) (db : Db B) : Prop :=
  (parse q.uuid).isSome ∧ (db.items.get q.key).isSome

/-- A write that was applied has found or made the item. -/
lemma secures_upsertItemOcc (q : Upsert B) :
    Secures Lives (fun _ => True) (DbGood parse) (fun _ => True)
      (Succeeds fun o db => o = .updated ∨ o = .recovered → Written parse q db)
      (upsertItemOcc (fun u => (parse u).isSome) q).run := by
  have htrue : Stable (Lives (B := B)) fun _ => True := fun _ _ _ _ => trivial
  have hselect : ∀ {β : Type} (l : Stmt) (g : Db B → β), Secures Lives (fun _ => True)
      (DbGood parse) (fun _ => True) (Succeeds fun _ _ => True) (select l g : Repo B β).run :=
    fun l g => secures_select htrue fun _ _ _ _ => ⟨dbGood_same, trivial⟩
  unfold upsertItemOcc
  split
  · exact secures_ret fun _ _ => trivial
  next hparse =>
  replace hparse : (parse q.uuid).isSome = true := by simpa [Option.isSome_iff_ne_none] using hparse
  have hwrote : ∀ r, Upsert.Wrote q r → (parse r.uuid).isSome := by
    rintro r ⟨v, n, rfl⟩
    exact hparse
  refine secures_bind_except (hselect _ _) (fun gen => ?_) fun _ _ => trivial
  split
  · exact secures_ret fun _ _ h => by rcases h with h | h <;> cases h
  refine secures_bind_except (hselect _ _) (fun prior => ?_) fun _ _ => trivial
  refine secures_bind_except (P := fun n db => n = 1 → (db.items.get q.key).isSome)
    (secures_statement htrue (fun _ _ _ _ => dbGood_same) fun e db _ _ =>
      ⟨dbGood_touches (touches_update q _ db) hwrote, fun hn => ?_⟩) (fun n => ?_) fun _ _ => trivial
  · -- the `UPDATE` has hit a row, which has the key of the item
    obtain ⟨r, hr, hhit⟩ := List.countP_pos_iff.mp (hn ▸ Nat.one_pos)
    have hkey : r.key = q.key := by
      simp only [Upsert.hits, Bool.and_eq_true, decide_eq_true_eq] at hhit
      exact Prod.ext hhit.1.1 hhit.1.2
    simp [← hkey, Table.get_of_mem hr]
  split
  · -- the row was updated
    next hn => exact secures_ret fun _ hdb _ => ⟨hparse, hdb hn⟩
  split
  · refine secures_mono (fun _ _ => trivial) (fun _ _ h => h) (secures_bind_run
      (P := fun r db => r = .ok (.ok ()) → (db.items.get q.key).isSome)
      (secures_bind (P := fun r db => r = .ok () → (db.items.get q.key).isSome)
        (secures_atom htrue fun e db _ _ => ?_)
        fun r => secures_ret fun db h hr => h (Except.ok.inj hr)) (fun r => ?_) fun _ _ _ => trivial)
    · split
      · exact ⟨dbGood_same, fun h => by cases h⟩
      dsimp only
      cases hins : db.items.insert (q.row 1 (nextSeq db q.userId)) with
      | none => exact ⟨dbGood_same, fun h => by cases h⟩
      | some items =>
        dsimp only
        split
        · refine ⟨dbGood_touches (touches_insert hins) hwrote, fun _ => ?_⟩
          rw [Table.get_insert hins]
          exact congrArg Option.isSome (if_pos rfl)
        · exact ⟨dbGood_same, fun h => by cases h⟩
    · -- the row was made, or one was there
      rcases r with e | ⟨⟩
      · cases e <;> exact secures_ret fun _ _ => by simp [Succeeds, IfOk]
      · exact secures_ret fun _ h _ => ⟨hparse, h rfl⟩
  · exact secures_ret fun _ _ h => by rcases h with h | h <;> cases h

/-- What the run gives of a statement. -/
abbrev Given (parse : Ident → Option Ident) (ev : HubEv B) : Prop :=
  Meets parse ev ∧ Inv parse ev.pre

/-- A part of a request that begins in `J`. -/
abbrev Holds {α : Type} (parse : Ident → Option Ident) (J : Hub B → Prop) (P : α → Hub B → Prop)
    (p : Prog (Hub B) HubEnv HubStmt α) : Prop :=
  Secures Grows (Given parse) (Good parse) J P p

/-- A part of a request of which nothing else is known. -/
abbrev Fine {α : Type} (parse : Ident → Option Ident) (p : Prog (Hub B) HubEnv HubStmt α) : Prop :=
  Holds parse (fun _ => True) (fun _ _ => True) p

variable {α β ε : Type}

lemma stable_true : Stable (Grows (B := B)) fun _ => True := fun _ _ _ _ => trivial

lemma fine_mono {J : Hub B → Prop} {p : Prog (Hub B) HubEnv HubStmt α} (h : Fine parse p) :
    Holds parse J (fun _ _ => True) p := secures_mono (fun _ _ => trivial) (fun _ _ h => h) h

lemma fine_ret (a : α) : Fine parse (.ret a : Prog (Hub B) HubEnv HubStmt α) :=
  secures_ret fun _ _ => trivial

lemma fine_bind {x : HubHandler B β} {f : β → HubHandler B α} (hx : Fine parse x.run)
    (hf : ∀ b, Fine parse (f b).run) : Fine parse (x >>= f).run :=
  secures_bind_run hx hf fun _ _ _ => trivial

lemma holds_db {P : α → Db B → Prop} {p : Prog (Db B) Env Stmt α}
    (hp : Secures Lives (fun _ => True) (DbGood parse) (fun _ => True) P p) :
    Holds parse (fun _ => True) (fun a s => P a s.db) (zoom onDb p) :=
  secures_zoom_view hp (fun _ _ h => h.lives) (fun _ _ _ _ _ => trivial) fun _ _ _ _ hM hG =>
    good_setDb hM.2 hG.1 (hG.2 hM.2.parsed)

/-- What only reads the database. -/
lemma fine_read {p : Prog (Db B) Env Stmt α} (hp : Guarantees (fun _ _ _ => True) Reading p) :
    Fine parse (zoom onDb p) := by
  refine holds_db (P := fun _ _ => True)
    (secures_of_guarantees (guarantees_mono (fun ev hev => ?_) hp) fun _ _ => trivial)
  have hsame : ev.post = ev.pre := hev
  rw [DbGood, hsame]
  exact ⟨fun _ h => h, id⟩

lemma fine_select (l : Stmt) (g : Db B → α) :
    Fine parse (zoomE onDb (orInternal (select l g))).run :=
  fine_read (guarantees_orInternal (reading_select l g))

lemma fine_nowMs : Fine parse (zoomE onDb (nowMs : ServerHandler B ℤ)).run :=
  fine_read (guarantees_stmt (fun _ _ => rfl) fun _ _ => guarantees_ret _)

lemma fine_pushedRow (user : Ident) (item : PushItem B) :
    Fine parse (zoomE onDb (pushedRow user item)).run := by
  refine fine_read (guarantees_bind_except (guarantees_orInternal (reading_select _ _)) fun r => ?_)
  cases r with
  | none => exact guarantees_throw_except _
  | some row => exact guarantees_pure_except _

lemma fine_decodePayload (payload : Option (Option B)) :
    Fine parse (zoomE onDb (decodePayload payload)).run := by
  refine fine_read ?_
  rcases payload with _ | _ | p
  · exact guarantees_pure_except _
  · exact guarantees_throw_except _
  · exact guarantees_pure_except _

lemma fine_decodeB64 (payload : Option B) :
    Fine parse (zoomE onDb (decodeB64 payload : ServerHandler B B)).run := by
  refine fine_read ?_
  cases payload with
  | none => exact guarantees_throw_except _
  | some p => exact guarantees_pure_except _

lemma holds_upsert (q : Upsert B) : Holds parse (fun _ => True)
    (Succeeds fun o s => o = .updated ∨ o = .recovered → Written parse q s.db)
    (upsert parse q).run := by
  refine secures_mono (fun _ h => h) (fun r s h => ?_)
    (holds_db (secures_orInternal (secures_upsertItemOcc q)))
  cases r <;> exact h

lemma Written.owns {q : Upsert B} (h : Written parse q s.db) :
    Owns parse s q.userId (parseOrNil parse q.uuid) := by
  obtain ⟨r, hr⟩ := Option.isSome_iff_exists.mp h.2
  obtain ⟨u, hu⟩ := Option.isSome_iff_exists.mp h.1
  obtain ⟨hmem, hkey⟩ := Table.get_eq_some_iff.mp hr
  have huuid : r.uuid = q.uuid := congrArg Prod.fst hkey
  exact ⟨r, hmem, congrArg Prod.snd hkey, by rw [huuid, parseOrNil, hu]; rfl⟩

/-- An event about an item of the user is published. -/
lemma holds_publish (ev : VaultEvent) : Holds parse (fun s => Owns parse s ev.userId ev.uuid)
    (fun _ _ => True) (publish ev : HubHandler B Unit).run :=
  secures_atom (fun _ _ h hT => hT.lives.owns h) fun _ _ ho hM =>
    ⟨⟨grows_post hM.2 hM.1, inv_post hM.2 ho⟩, trivial⟩

/-- What follows a write that was applied. -/
lemma holds_notify {q : Upsert B} {ev : VaultEvent} {x : HubHandler B α} (huser : ev.userId = q.userId)
    (huuid : ev.uuid = parseOrNil parse q.uuid) (hx : Fine parse x.run) :
    Holds parse (fun s => Written parse q s.db) (fun _ _ => True)
      (do publish ev; x : HubHandler B α).run :=
  secures_bind_run (secures_mono (fun s hs => by rw [huser, huuid]; exact hs.owns) (fun _ _ h => h)
    (holds_publish ev)) (fun _ => fine_mono hx) fun _ _ _ => trivial

lemma fine_pushItem (user : Ident) (now : ℤ) (item : PushItem B) :
    Fine parse (pushItem parse user now item).run := by
  refine fine_bind (fine_select _ _) fun gen => ?_
  dsimp only
  split
  · exact fine_ret _
  refine fine_bind (fine_decodePayload _) fun payload =>
    secures_bind_except (holds_upsert _) (fun o => ?_) fun _ _ => trivial
  cases o with
  | updated => exact fine_mono (fine_pushedRow _ _)
  | recovered =>
    exact secures_mono (fun s hs => hs (.inr rfl)) (fun _ _ h => h)
      (holds_notify rfl rfl (fine_pushedRow _ _))
  | conflict => exact fine_mono (fine_bind (fine_select _ _) fun _ => fine_ret _)
  | epochTooOld => exact fine_mono (fine_ret _)

lemma fine_pushItems (user : Ident) (now : ℤ) (items : List (PushItem B)) :
    Fine parse (pushItems parse user now items).run := by
  induction items with
  | nil => exact fine_ret _
  | cons item rest ih =>
    exact fine_bind (fine_pushItem user now item) fun _ => fine_bind ih fun _ => fine_ret _

lemma fine_syncPushBatch (req : PushBatchReq B) : Fine parse (syncPushBatch parse req).run := by
  unfold syncPushBatch
  split
  · exact fine_ret _
  · exact fine_bind fine_nowMs fun now => fine_pushItems _ _ _

lemma fine_putRow (user uuid : Ident) : Fine parse (putRow user uuid : HubHandler B ItemPutResp).run := by
  refine fine_bind (fine_select _ _) fun r => ?_
  cases r <;> exact fine_ret _

lemma fine_itemPut (user uuid : Ident) (gen : UInt64) (payload : Option B) :
    Fine parse (itemPut parse user uuid gen payload).run := by
  refine fine_bind (fine_select _ _) fun r => ?_
  cases r with
  | none => exact fine_ret _
  | some row =>
    refine fine_bind (fine_decodeB64 _) fun payload => fine_bind fine_nowMs fun now =>
      secures_bind_except (holds_upsert _) (fun o => ?_) fun _ _ => trivial
    cases o with
    | updated => exact fine_mono (fine_putRow _ _)
    | recovered =>
      exact secures_mono (fun s hs => hs (.inr rfl)) (fun _ _ h => h)
        (holds_notify rfl rfl (fine_putRow _ _))
    | conflict => exact fine_mono (fine_ret _)
    | epochTooOld => exact fine_mono (fine_ret _)

lemma fine_itemDelete (user uuid : Ident) : Fine parse (itemDelete (B := B) parse user uuid).run := by
  refine fine_bind (fine_select _ _) fun r => ?_
  cases r with
  | none => exact fine_ret _
  | some row =>
    refine fine_bind fine_nowMs fun now =>
      secures_bind_except (holds_upsert _) (fun o => ?_) fun _ _ => trivial
    cases o with
    | updated =>
      exact secures_mono (fun s hs => hs (.inl rfl)) (fun _ _ h => h)
        (holds_notify rfl rfl (fine_ret _))
    | recovered => exact fine_mono (fine_ret _)
    | conflict => exact fine_mono (fine_ret _)
    | epochTooOld => exact fine_mono (fine_ret _)

/-! ### Scans -/

lemma mem_tombstones {db : Db B} {x : Ident × Ident} : x ∈ tombstones parse db ↔
    ∃ r ∈ db.items.rows, r.deletedDate.isSome ∧ r.userId = x.1 ∧ parse r.uuid = some x.2 := by
  simp only [tombstones, List.mem_filterMap]
  refine exists_congr fun r => and_congr_right fun _ => ?_
  split
  · next hdead =>
    simp only [hdead, true_and, Option.map_eq_some_iff]
    constructor
    · rintro ⟨u, hu, rfl⟩
      exact ⟨rfl, hu⟩
    · rintro ⟨huser, hu⟩
      exact ⟨x.2, hu, Prod.ext huser rfl⟩
  · next hlive => simp [hlive]

/-- The trace ends in the state `s`. -/
def EndsIn (tr : List (HubEv B)) (s : Hub B) : Prop := ∃ ev, tr.getLast? = some ev ∧ ev.post = s

lemma endsIn_append (tr : List (HubEv B)) (ev : HubEv B) : EndsIn (tr ++ [ev]) ev.post :=
  ⟨ev, List.getLast?_concat, rfl⟩

/-- After the loop over the tombstones, all of them were announced. -/
lemma wp_announceAll (rows : List (Ident × Ident)) {tr : List (HubEv B)}
    (htr : Every (Good parse) tr) (hlast : EndsIn tr s)
    (howns : ∀ x ∈ rows, Owns parse s x.1 x.2) :
    wp (meeting Grows (Given parse) (Good parse)) (announceAll rows) (fun _ tr' s' =>
      Every (Good parse) tr' ∧ tr <+: tr' ∧ EndsIn tr' s' ∧ Grows s s' ∧ ∀ x ∈ rows, x ∈ s'.seen)
      tr s := by
  induction rows generalizing tr s with
  | nil => exact ⟨htr, List.prefix_rfl, hlast, grows_refl s, by simp⟩
  | cons x rest ih =>
    refine ⟨htr, fun s₁ e hr hok => ?_⟩
    have hgiven := hok _ (List.mem_append_right _ (List.mem_singleton_self _))
    have hnext : ∀ s₂, Good parse ⟨.announce x.1 x.2, e, s₁, s₂⟩ → x ∈ s₂.seen →
        wp (meeting Grows (Given parse) (Good parse)) (announceAll rest) (fun _ tr' s' =>
          Every (Good parse) tr' ∧ tr <+: tr' ∧ EndsIn tr' s' ∧ Grows s s' ∧
            ∀ y ∈ x :: rest, y ∈ s'.seen) (tr ++ [⟨.announce x.1 x.2, e, s₁, s₂⟩]) s₂ := by
      intro s₂ hgood hseen
      have hgrows : Grows s s₂ := hr.trans hgood.grows
      refine wp_mono (fun _ tr' s' h => ?_) (ih (every_append htr hgood) (endsIn_append _ _)
        fun y hy => hgrows.lives.owns (howns y (List.mem_cons_of_mem _ hy)))
      obtain ⟨hevery, hprefix, hends, hgrows', hall⟩ := h
      refine ⟨hevery, (List.prefix_append _ _).trans hprefix, hends, hgrows.trans hgrows',
        fun y hy => ?_⟩
      rcases List.mem_cons.mp hy with rfl | hy
      · exact hgrows'.seen _ hseen
      · exact hall y hy
    have howned : Owns parse s₁ x.1 x.2 := hr.lives.owns (howns x List.mem_cons_self)
    by_cases hseen : (x.1, x.2) ∈ s₁.seen
    · simp only [hseen, if_true] at hgiven ⊢
      exact hnext s₁ (good_same hgiven.2) hseen
    · simp only [hseen, if_false] at hgiven ⊢
      exact hnext _ (good_announce hgiven.2 (hgiven.1 hseen) howned) List.mem_cons_self

/-- **A scan** tells every stream of every tombstone. -/
lemma wp_scan (s : Hub B) : wp (meeting Grows (Given parse) (Good parse)) (scan parse)
    (fun a tr _ => Every (Good parse) tr ∧ (a = .scanned → Delivered parse tr)) [] s := by
  refine ⟨every_nil, fun s₀ e _ hok => ?_⟩
  have hgiven := hok _ (List.mem_append_right _ (List.mem_singleton_self _))
  cases hf : Faulty.fault e with
  | true =>
    simp only [hf, if_true] at hgiven ⊢
    exact ⟨every_append every_nil (good_same hgiven.2), nofun⟩
  | false =>
    simp only [hf, Bool.false_eq_true, if_false] at hgiven ⊢
    obtain ⟨hinformed, hinv⟩ := hgiven
    replace hinformed : Informed parse s₀ := hinformed hf
    have hfirst : Every (Good parse) ([] ++ [⟨.scanTombstones, e, s₀, s₀⟩]) :=
      every_append every_nil (good_same hinv)
    change wp _ (announceAll (tombstones parse s₀.db) >>= fun _ => .ret Reply.scanned) _ _ _
    refine (wp_bind _ _ _ _ _).mpr (wp_mono (fun _ tr s' h => ?_) (wp_announceAll
      (tombstones parse s₀.db) hfirst (endsIn_append _ _) fun x hx => ?_))
    rotate_left
    · obtain ⟨r, hr, -, huser, hu⟩ := mem_tombstones.mp hx
      exact ⟨r, hr, huser, hu⟩
    obtain ⟨hevery, hprefix, ⟨ev, hev, rfl⟩, hgrows, hall⟩ := h
    refine ⟨hevery, fun _ first last hhead hlast t ht hopen hid r hr hdead huser => ?_⟩
    obtain ⟨rest, rfl⟩ := hprefix
    obtain rfl : (⟨.scanTombstones, e, s₀, s₀⟩ : HubEv B) = first := by simpa using hhead
    obtain rfl : ev = last := Option.some.inj (hev.symm.trans hlast)
    obtain ⟨u, hu⟩ := Option.isSome_iff_exists.mp (hinv.parsed r hr)
    refine ⟨u, hu, ?_⟩
    rcases hgrows.announced _ (hall (r.userId, u) (mem_tombstones.mpr
        ⟨r, hr, hdead, rfl, hu⟩)) with hseen | hnew
    · obtain ⟨t₀, ht₀, hopen₀, -, huser₀, htold⟩ := hgrows.told t ht hopen hid
      exact htold _ _ (hinformed t₀ ht₀ hopen₀ r hr hdead (huser.trans huser₀.symm) u hu
        (by rwa [huser₀, ← huser]))
    · exact (hnew t ht hopen huser.symm hid).mono (hinv.times r.key)

/-! ### Runs -/

/-- **What a request keeps.** -/
lemma wp_code (q : Req B) (s : Hub B) : wp (meeting Grows (Given parse) (Good parse)) (code parse q)
    (fun a tr _ => Every (Good parse) tr ∧ (q = .scan → a = .scanned → Delivered parse tr)) [] s := by
  have hfine : ∀ {β : Type} {p : Prog (Hub B) HubEnv HubStmt β} {g : β → Reply}, q ≠ .scan →
      Fine parse p → wp (meeting Grows (Given parse) (Good parse)) (do return g (← p))
        (fun a tr _ => Every (Good parse) tr ∧ (q = .scan → a = .scanned → Delivered parse tr)) [] s :=
    fun hq hp => (wp_bind _ _ _ _ _).mpr (wp_mono (fun _ _ _ h => ⟨h.1, fun h => absurd h hq⟩)
      (hp [] s every_nil trivial))
  cases q with
  | pushBatch req => exact hfine nofun (fine_syncPushBatch req)
  | itemPut user uuid gen payload => exact hfine nofun (fine_itemPut _ _ _ _)
  | itemDelete user uuid => exact hfine nofun (fine_itemDelete _ _)
  | eventsStream auth =>
    refine hfine nofun ?_
    cases auth with
    | error e => exact fine_ret _
    | ok user =>
      exact secures_atom stable_true fun _ _ _ hM => ⟨good_subscribe user hM.2, trivial⟩
  | poll id =>
    exact hfine (g := fun _ => .done) nofun
      (secures_atom stable_true fun e _ _ hM => ⟨good_poll id e.due e.valid hM.2, trivial⟩)
  | disconnect id =>
    exact hfine (g := fun _ => .done) nofun
      (secures_atom stable_true fun _ _ _ hM => ⟨good_disconnect id hM.2, trivial⟩)
  | scan => exact wp_mono (fun _ _ _ h => ⟨h.1, fun _ => h.2⟩) (wp_scan s)

/-- **Deletions reach the clients.** If a scan finds no tombstone that was announced before and that
an open stream of its user does not know of, and no stream loses an unread deletion, then every scan
tells the streams of every tombstone; and no stream is sent anything about another user's item. -/
theorem tombstones_delivered (parse : Ident → Option Ident) (db : Db B) (hdb : Parsed parse db)
    (as : List (HubAct B)) (has : Along (code parse) (Attentive parse) (init (start db)) as) :
    Keeps parse (run (code parse) (init (start db)) as) := by
  have hstart : Inv parse (start db) :=
    ⟨hdb, fun _ => le_rfl, by simp [start], by simp [start], by simp [start]⟩
  have hmet := run_meeting (P := fun q a tr => q = .scan → a = .scanned → Delivered parse tr)
    (T := Grows) (M := Given parse) (G := Good parse) (I := Inv parse)
    (fun _ q s _ => wp_code q s) grows_refl (fun _ _ _ => Grows.trans) (fun _ h => h.grows)
    (fun σ i e q tr l f k hc hC hI => ⟨by simpa only [Attentive, hc] using hC, hI⟩)
    (fun _ _ h => h.inv) (met_init hstart) has
  exact ⟨fun c hc hq hres => hmet.post hc hres hq rfl, hmet.inv.own⟩

/-! ### One user -/

/-- The user 7 has no items yet. -/
def newDb : Db ℕ := ⟨⟨[⟨7, "u", 0, 0, 0, 0, 0, 0, 0⟩], by simp⟩, .empty⟩

/-- So many statements of the `i`-th request. -/
def going (i n : ℕ) : List (HubAct ℕ) := List.replicate n (.exec i ⟨⟨0, 0, false⟩, false, true⟩)

/-- The item 3 is made, with a tombstone. -/
def tombstoning : List (HubAct ℕ) :=
  .call (.pushBatch ⟨7, [⟨3, 0, 1, none, some 1⟩]⟩) :: going 0 9

/-- A client listens, and two scans are made. -/
def listening : List (HubAct ℕ) :=
  tombstoning ++ .call (.eventsStream (.ok 7)) :: going 1 1 ++ .call .scan :: going 2 2 ++
    .call (.poll 0) :: going 3 1 ++ .call .scan :: going 4 2

instance (s : Hub B) (t : Stream) (u n : ℕ) : Decidable (Told s t u n) :=
  decidable_of_iff (∃ p ∈ t.frames.filterMap (fun f => match f with
      | .data p => some p
      | _ => none) ++ s.unread t, p.event = .itemPermanentlyDeleted t.userId u ∧ n ≤ p.time) <| by
    refine exists_congr fun p => ?_
    rw [List.mem_append, List.mem_filterMap]
    refine and_congr_left fun _ => or_congr_left ⟨?_, fun h => ⟨_, h, rfl⟩⟩
    rintro ⟨f, hf, hp⟩
    split at hp <;> simp_all

instance (parse : Ident → Option Ident) (s : Hub B) : Decidable (Informed parse s) :=
  inferInstanceAs (Decidable (∀ t ∈ s.streams, _ → ∀ r ∈ s.db.items.rows, _ → _ →
    ∀ uuid ∈ parse r.uuid, _ → _))

instance (s : Hub B) (user : Ident) : Decidable (Room s user) :=
  inferInstanceAs (Decidable (∀ t ∈ s.streams, _ → _ → _ → ∀ p ∈ (s.unread t).head?, _))

instance (parse : Ident → Option Ident) (ev : HubEv B) : Decidable (Meets parse ev) := by
  unfold Meets
  split <;> infer_instance

instance (parse : Ident → Option Ident) (σ : HubSys B) :
    ∀ a : HubAct B, Decidable (Attentive parse σ a)
  | .call _ => inferInstanceAs (Decidable True)
  | .exec i e => by
    unfold Attentive
    dsimp only
    split <;> infer_instance

theorem tombstones_delivered_twice :
    Along (code some) (Attentive some) (init (start newDb)) listening ∧
    Keeps some (run (code some) (init (start newDb)) listening) :=
  ⟨by decide +kernel, tombstones_delivered some newDb (by simp [Parsed]) listening (by decide +kernel)⟩

/-- A client listens when the tombstone was announced already. -/
def listeningLate : List (HubAct ℕ) :=
  tombstoning ++ .call .scan :: going 1 2 ++ .call (.eventsStream (.ok 7)) :: going 2 1 ++
    .call .scan :: going 3 2

/-- **A scan does not tell a client that subscribed after the first one.** -/
theorem late_client_untold : ¬ ∀ (parse : Ident → Option Ident) (db : Db ℕ) (as : List (HubAct ℕ)),
    Parsed parse db → Keeps parse (run (code parse) (init (start db)) as) := by
  intro h
  have hkeeps := h some newDb listeningLate (by simp [Parsed])
  have huntold : ∀ c ∈ (run (code some) (init (start newDb)) listeningLate).calls[3]?,
      ∃ first ∈ c.trace.head?, ∃ last ∈ c.trace.getLast?, ∃ t ∈ last.post.streams,
        t.closing = false ∧ t.id < first.pre.nextId ∧ ∃ r ∈ first.pre.db.items.rows,
          r.deletedDate.isSome ∧ r.userId = t.userId ∧
            ¬Told last.post t r.uuid (first.pre.diedAt r.key) := by decide +kernel
  have hscan : (run (code some) (init (start newDb)) listeningLate).calls[3]?.map
      (fun c => (c.req, c.prog.result)) = some (.scan, some .scanned) := rfl
  obtain ⟨c, hc, heq⟩ := Option.map_eq_some_iff.mp hscan
  obtain ⟨first, hfirst, last, hlast, t, ht, hopen, hid, r, hr, hdead, huser, hnot⟩ := huntold c hc
  obtain ⟨u, hu, htold⟩ := hkeeps.scans c (List.mem_of_getElem? hc) (congrArg Prod.fst heq)
    (congrArg Prod.snd heq) first last hfirst hlast t ht hopen hid r hr hdead huser
  obtain rfl : r.uuid = u := Option.some.inj hu
  exact hnot htold

end Vautr.VaultEvents
