import Mathlib.Logic.Function.Basic
import Vautr.Server
import Vautr.Underway

/-!
The group keys of the native client (`orchestrator.rs`, `sharing.rs`), over every interleaving of
its operations.

The clients talk to an untrusted relay, which passes public keys and wrapped group keys on. Every
rotation draws a new group key, wraps it for the admin alone, and puts it in the place of the old
one; who is added after that is wrapped the key that is there then. So whatever is shared to the
group after a removal opens for the admin, and for those who were added since.
-/

namespace Vautr.GroupKeys

open Vautr.Atomic Vautr.Interleave Vautr.Server Vautr.Underway

/-! ### Keys and envelopes -/

/-- A symmetric item key, here that of a group. -/
abbrev Sik := ℕ

/-- The secret half of a sharing keypair. -/
abbrev SecretKey := ℕ

/-- A sharing public key: that of a secret key, or one with which no key is agreed. -/
inductive PublicKey
  | of (secret : SecretKey)
  | lowOrder
  deriving DecidableEq

/-- `SharedEnvelope`: a key, wrapped for a public key; the associated data is that public key and
the id. -/
structure SharedEnvelope where
  recipient : PublicKey
  id : Ident
  sik : Sik
  deriving DecidableEq

/-- `share_item` of the KEM. -/
def kemShareItem (sik : Sik) (pk : PublicKey) (id : Ident) : Except String SharedEnvelope :=
  match pk with
  | .lowOrder => .error "malformed ciphertext"
  | .of _ => .ok ⟨pk, id, sik⟩

def unwrapSharedItem (env : SharedEnvelope) (secret : SecretKey) (id : Ident) : Option Sik :=
  if env.recipient = .of secret ∧ env.id = id then some env.sik else none

/-- The payload of an item, encrypted under a key; the associated data is the item's uuid. -/
structure Cipher where
  sik : Sik
  item : Ident
  plain : ℕ
  deriving DecidableEq

structure ShareGroup where
  groupId : Ident
  name : String
  adminUuid : Ident
  deriving DecidableEq

structure ShareGroupKey where
  group : ShareGroup
  groupSik : Sik
  deriving DecidableEq

structure WrappedGroupKey where
  groupId : Ident
  memberUuid : Ident
  env : SharedEnvelope
  deriving DecidableEq

def ShareGroupKey.encryptItem (key : ShareGroupKey) (item : Ident) (plain : ℕ) : Cipher :=
  ⟨key.groupSik, item, plain⟩

def decryptItem (sik : Sik) (item : Ident) (c : Cipher) : Option ℕ :=
  if c.sik = sik ∧ c.item = item then some c.plain else none

def unwrapGroupKey (w : WrappedGroupKey) (secret : SecretKey) : Option Sik :=
  unwrapSharedItem w.env secret w.groupId

/-- A group key, wrapped for one member. -/
def wrapFor (key : ShareGroupKey) (member : Ident) (pk : PublicKey) :
    Except String WrappedGroupKey := do
  let env ← (kemShareItem key.groupSik pk key.group.groupId).mapError
    ("share crypto failure: " ++ ·)
  return ⟨key.group.groupId, member, env⟩

/-! ### Clients and relay -/

/-- A client, as far as it shares with groups. -/
structure Device where
  shareTransport : Bool
  serverUserId : Option Ident
  groups : Ident → Option ShareGroupKey

/-- The clients and the relay, with what they draw next. No code reads `puts`, the group keys that
were put in their place, or `delivered`, the wrapped keys that have reached the relay. -/
structure World where
  devices : ℕ → Device
  publicKeys : Ident → Option PublicKey
  groupWrapped : Ident × Ident → Option WrappedGroupKey
  nextSik : Sik
  nextGroup : Ident
  puts : List (ℕ × ShareGroupKey)
  delivered : List WrappedGroupKey

/-- Whether a request is lost, or its answer. -/
structure NetEnv where
  lost : Bool
  unanswered : Bool
  deriving DecidableEq

inductive Stmt
  | readTransport (d : ℕ)
  | readUserId (d : ℕ)
  | getGroup (d : ℕ) (g : Ident)
  | createGroup (d : ℕ)
  | fetchPublicKey (user : Ident)
  | rotate
  | storeGroupWrappedKey (w : WrappedGroupKey)
  | replaceGroupWrappedKeys (ws : List WrappedGroupKey)
  | putGroup (d : ℕ) (key : ShareGroupKey)
  | outside
  deriving DecidableEq

abbrev GroupEv := Ev World NetEnv Stmt

abbrev Op := ExceptT String (Prog World NetEnv Stmt)

variable {α : Type}

def onWorld (l : Stmt) (g : World → World × Except String α) : Op α :=
  ExceptT.mk (Prog.atom l fun _ w => g w)

/-- A request to the relay that does `g`. -/
def onRelay (l : Stmt) (g : World → World × Except String α) : Op α :=
  ExceptT.mk (Prog.atom l fun e w =>
    if e.lost then (w, .error "relay")
    else if e.unanswered then ((g w).1, .error "relay")
    else g w)

/-- `groups.put`. -/
def World.putGroup (d : ℕ) (key : ShareGroupKey) (w : World) : World :=
  let dev : Device := { w.devices d with
    groups := Function.update (w.devices d).groups key.group.groupId (some key) }
  { w with devices := Function.update w.devices d dev, puts := w.puts ++ [(d, key)] }

/-- `InMemoryShareRelay::store_group_wrapped_key`. -/
def World.storeWrapped (k : WrappedGroupKey) (w : World) : World :=
  { w with
    groupWrapped := Function.update w.groupWrapped (k.groupId, k.memberUuid) (some k)
    delivered := w.delivered ++ [k] }

/-- `InMemoryShareRelay::replace_group_wrapped_keys`: the keys of the first one's group go. -/
def World.replaceWrapped (ks : List WrappedGroupKey) (w : World) : World :=
  let gid := ks.head?.map (·.groupId)
  let kept : Ident × Ident → Option WrappedGroupKey := fun k =>
    if gid = some k.1 then none else w.groupWrapped k
  ks.foldl (fun w k => w.storeWrapped k) { w with groupWrapped := kept }

/-! ### The operations -/

section Operations

variable (d : ℕ)

/-- The transport, or the error without one. -/
def connected : Op Unit :=
  onWorld (.readTransport d) fun w =>
    (w, if (w.devices d).shareTransport then .ok () else .error "sharing not connected")

def getGroup (g : Ident) : Op ShareGroupKey :=
  onWorld (.getGroup d g) fun w => (w, match (w.devices d).groups g with
    | some key => .ok key
    | none => .error "no such group")

def fetchPublicKey (user : Ident) : Op PublicKey :=
  onRelay (.fetchPublicKey user) fun w => (w, match w.publicKeys user with
    | some pk => .ok pk
    | none => .error "recipient has no sharing public key")

/-- What the crates compute between two `await`s. -/
def pureOp (r : Except String α) : Op α := ExceptT.mk (.ret r)

def createGroup (name : String) : Op ShareGroupKey := do
  let admin ← onWorld (.readUserId d) fun w => (w, match (w.devices d).serverUserId with
    | some user => .ok user
    | none => .error "no server user id")
  onWorld (.createGroup d) fun w =>
    let key : ShareGroupKey := ⟨⟨w.nextGroup, name, admin⟩, w.nextSik⟩
    let w := { w with nextSik := w.nextSik + 1, nextGroup := w.nextGroup + 1 }
    (w.putGroup d key, .ok key)

def addGroupMember (g member : Ident) : Op WrappedGroupKey := do
  connected d
  let key ← getGroup d g
  let pk ← fetchPublicKey member
  let wrapped ← pureOp (wrapFor key member pk)
  onRelay (.storeGroupWrappedKey wrapped) fun w => (w.storeWrapped wrapped, .ok ())
  return wrapped

/-- `rotate_group_sik` of the crate, for the admin alone: a new key, and it wrapped. -/
def rotation (group : ShareGroup) (pk : PublicKey) : Op (ShareGroupKey × WrappedGroupKey) := do
  let sik ← onWorld .rotate fun w => ({ w with nextSik := w.nextSik + 1 }, .ok w.nextSik)
  let newKey : ShareGroupKey := ⟨group, sik⟩
  let wrapped ← pureOp (wrapFor newKey group.adminUuid pk)
  return (newKey, wrapped)

/-- What the relay and the store get of a rotation. -/
def relayRotation (newKey : ShareGroupKey) (rewrapped : List WrappedGroupKey) : Op Unit := do
  onRelay (.replaceGroupWrappedKeys rewrapped) fun w => (w.replaceWrapped rewrapped, .ok ())
  onWorld (.putGroup d newKey) fun w => (w.putGroup d newKey, .ok ())

def removeGroupMember (g member : Ident) : Op Unit := do
  connected d
  let key ← getGroup d g
  let pk ← fetchPublicKey key.group.adminUuid
  if key.group.adminUuid = member then
    throw "group error: member being removed must not be in the remaining set"
  let (newKey, wrapped) ← rotation key.group pk
  relayRotation d newKey [wrapped]

def rotateGroupSik (g : Ident) : Op Unit := do
  connected d
  let key ← getGroup d g
  let pk ← fetchPublicKey key.group.adminUuid
  let (newKey, wrapped) ← rotation key.group pk
  relayRotation d newKey [wrapped]

def shareToGroup (g item : Ident) (plain : ℕ) : Op Cipher := do
  let key ← getGroup d g
  return key.encryptItem item plain

end Operations

/-! ### Requests -/

/-- What can be asked of the clients, and what happens outside: a key is published, and a client
is connected or signed in. -/
inductive Req
  | createGroup (d : ℕ) (name : String)
  | addGroupMember (d : ℕ) (g member : Ident)
  | removeGroupMember (d : ℕ) (g member : Ident)
  | rotateGroupSik (d : ℕ) (g : Ident)
  | shareToGroup (d : ℕ) (g item : Ident) (plain : ℕ)
  | publish (user : Ident) (pk : PublicKey)
  | connect (d : ℕ) (transport : Bool) (user : Option Ident)
  deriving DecidableEq

inductive Reply
  | group (r : Except String ShareGroupKey)
  | wrapped (r : Except String WrappedGroupKey)
  | done (r : Except String Unit)
  | cipher (r : Except String Cipher)
  deriving DecidableEq

def code : Req → Prog World NetEnv Stmt Reply
  | .createGroup d name => do return .group (← (createGroup d name).run)
  | .addGroupMember d g member => do return .wrapped (← (addGroupMember d g member).run)
  | .removeGroupMember d g member => do return .done (← (removeGroupMember d g member).run)
  | .rotateGroupSik d g => do return .done (← (rotateGroupSik d g).run)
  | .shareToGroup d g item plain => do return .cipher (← (shareToGroup d g item plain).run)
  | .publish user pk => Prog.atom .outside fun _ w =>
    ({ w with publicKeys := Function.update w.publicKeys user (some pk) }, .done (.ok ()))
  | .connect d transport user => Prog.atom .outside fun _ w =>
    let dev : Device := ⟨transport, user, (w.devices d).groups⟩
    ({ w with devices := Function.update w.devices d dev }, .done (.ok ()))

abbrev GroupCall := Call Req World NetEnv Stmt Reply

abbrev GroupSys := Sys Req World NetEnv Stmt Reply

abbrev GroupAct := Act Req NetEnv

/-- Nobody has published a key, and no group is there yet. -/
def start : World where
  devices _ := ⟨false, none, fun _ => none⟩
  publicKeys _ := none
  groupWrapped _ := none
  nextSik := 0
  nextGroup := 0
  puts := []
  delivered := []

/-! ### What one statement does -/

/-- The statement draws a group key. -/
def draws : Stmt → Bool
  | .createGroup _ => true
  | .rotate => true
  | _ => false

/-- The statement puts a group key in its place. -/
def puts : Stmt → Bool
  | .createGroup _ => true
  | .putGroup .. => true
  | _ => false

/-- The statement only reads. -/
def reads : Stmt → Bool
  | .readTransport _ => true
  | .readUserId _ => true
  | .getGroup .. => true
  | .fetchPublicKey _ => true
  | _ => false

/-- The key is put in its place, and nothing else is. -/
structure Put (d : ℕ) (key : ShareGroupKey) (w w' : World) : Prop where
  puts : w'.puts = w.puts ++ [(d, key)]
  groups : ∀ d' g, (w'.devices d').groups g =
    if d' = d ∧ key.group.groupId = g then some key else (w.devices d').groups g

structure Effect (ev : GroupEv) : Prop where
  sik : ev.post.nextSik = ev.pre.nextSik + if draws ev.name then 1 else 0
  group : ev.pre.nextGroup ≤ ev.post.nextGroup
  same : puts ev.name = false → ev.post.puts = ev.pre.puts ∧
    ∀ d g, (ev.post.devices d).groups g = (ev.pre.devices d).groups g
  put : puts ev.name → ∃ d key, Put d key ev.pre ev.post ∧
    (ev.name = .putGroup d key ∨ ev.name = .createGroup d ∧ key.groupSik = ev.pre.nextSik ∧
      key.group.groupId = ev.pre.nextGroup ∧ ev.pre.nextGroup < ev.post.nextGroup)
  delivered : ∃ ws, ev.post.delivered = ev.pre.delivered ++ ws ∧ ∀ w ∈ ws,
    ev.name = .storeGroupWrappedKey w ∨ ∃ ks, ev.name = .replaceGroupWrappedKeys ks ∧ w ∈ ks

/-- The call has read the key of the group. -/
def ReadKey (d : ℕ) (g : Ident) (key : ShareGroupKey) (ev : GroupEv) : Prop :=
  ev.name = .getGroup d g ∧ (ev.pre.devices d).groups g = some key

/-- The relay has given the call this public key for the user. -/
def Gave (user : Ident) (pk : PublicKey) (ev : GroupEv) : Prop :=
  ev.name = .fetchPublicKey user ∧ ev.pre.publicKeys user = some pk

/-- The key was wrapped for a public key that the relay has given for its member. -/
def Given (w : WrappedGroupKey) (tr : List GroupEv) : Prop :=
  ∃ ev ∈ tr, Gave w.memberUuid w.env.recipient ev

/-- What a call has run before a statement. -/
structure Before (q : Req) (tr : List GroupEv) (ev : GroupEv) : Prop where
  draw : draws ev.name → ∀ ev' ∈ tr, draws ev'.name = false
  put : ∀ d key, ev.name = .putGroup d key →
    (∃ ev' ∈ tr, draws ev'.name ∧ ev'.pre.nextSik = key.groupSik) ∧
    (∀ ev' ∈ tr, puts ev'.name = false) ∧
    (∃ ev' ∈ tr, ∃ g key', ReadKey d g key' ev' ∧ key.group = key'.group) ∧
    ∀ ev' ∈ tr, ∀ ks, ev'.name = .replaceGroupWrappedKeys ks →
      ∀ w ∈ ks, w.memberUuid = key.group.adminUuid
  create : ∀ d, ev.name = .createGroup d → ∀ ev' ∈ tr, reads ev'.name
  replace : ∀ ks, ev.name = .replaceGroupWrappedKeys ks → (∀ ev' ∈ tr, puts ev'.name = false) ∧
    (∃ ev' ∈ tr, draws ev'.name ∧ ∀ w ∈ ks, w.env.sik = ev'.pre.nextSik) ∧ ∀ w ∈ ks, Given w tr
  store : ∀ w, ev.name = .storeGroupWrappedKey w → Given w tr ∧
    ∃ d g key, q = .addGroupMember d g w.memberUuid ∧ (∃ ev' ∈ tr, ReadKey d g key ev') ∧
      w.env.sik = key.groupSik

/-- What is known of each statement of a call. -/
def Known (q : Req) (tr : List GroupEv) (ev : GroupEv) : Prop := Effect ev ∧ Before q tr ev

variable {q : Req} {tr : List GroupEv} {d : ℕ} {g : Ident}

lemma effect_same {l : Stmt} {e : NetEnv} {w w' : World} (hd : draws l = false)
    (hp : puts l = false) (hsik : w'.nextSik = w.nextSik) (hputs : w'.puts = w.puts)
    (hgroups : ∀ d g, (w'.devices d).groups g = (w.devices d).groups g)
    (hdel : w'.delivered = w.delivered) (hgroup : w'.nextGroup = w.nextGroup) :
    Effect ⟨l, e, w, w'⟩ where
  sik := by simp [hd, hsik]
  group := hgroup.ge
  same _ := ⟨hputs, hgroups⟩
  put h := by simp [hp] at h
  delivered := ⟨[], by simp [hdel], by simp⟩

lemma known_read {l : Stmt} (hl : reads l) (e : NetEnv) (w : World) : Known q tr ⟨l, e, w, w⟩ := by
  refine ⟨effect_same ?_ ?_ rfl rfl (fun _ _ => rfl) rfl rfl, ?_, ?_, ?_, ?_, ?_⟩ <;>
    cases l <;> simp_all [reads, draws, puts]

/-- The call has only read so far, and the group's key was there. -/
structure Reading (d : ℕ) (g : Ident) (key : ShareGroupKey) (tr : List GroupEv) : Prop where
  reads : ∀ ev ∈ tr, reads ev.name
  key : ∃ ev ∈ tr, ReadKey d g key ev

/-- The call begins by reading. -/
lemma meets_onWorld {l : Stmt} {f : World → Except String α}
    {P : Except String α → List GroupEv → Prop} (hl : reads l)
    (hP : ∀ e w, P (f w) (tr ++ [⟨l, e, w, w⟩])) :
    Meets (Known q) (onWorld l fun w => (w, f w)).run P tr :=
  meets_atom fun e w => ⟨known_read hl e w, hP e w⟩

lemma meets_connected {P : Except String Unit → List GroupEv → Prop}
    (hP : ∀ r e w, P r (tr ++ [⟨.readTransport d, e, w, w⟩])) :
    Meets (Known q) (connected d).run P tr := meets_onWorld rfl fun e w => hP _ e w

lemma meets_getGroup {P : Except String ShareGroupKey → List GroupEv → Prop}
    (herr : ∀ tr, P (.error "no such group") tr)
    (hP : ∀ key ev, ReadKey d g key ev → P (.ok key) (tr ++ [ev])) :
    Meets (Known q) (getGroup d g).run P tr := by
  refine meets_onWorld rfl fun e w => ?_
  cases hg : (w.devices d).groups g with
  | none => exact herr _
  | some key => exact hP key _ ⟨rfl, hg⟩

/-- A request does nothing, or what it is for. -/
lemma meets_onRelay {l : Stmt} {f : World → World × Except String α}
    {P : Except String α → List GroupEv → Prop}
    (hlost : ∀ e w, Known q tr ⟨l, e, w, w⟩ ∧ P (.error "relay") (tr ++ [⟨l, e, w, w⟩]))
    (hsent : ∀ e w, Known q tr ⟨l, e, w, (f w).1⟩ ∧
      P (.error "relay") (tr ++ [⟨l, e, w, (f w).1⟩]) ∧ P (f w).2 (tr ++ [⟨l, e, w, (f w).1⟩])) :
    Meets (Known q) (onRelay l f).run P tr := by
  refine meets_atom fun e w => ?_
  cases hl : e.lost with
  | true => simpa [hl] using hlost e w
  | false =>
    obtain ⟨hknown, herr, hok⟩ := hsent e w
    cases hu : e.unanswered with
    | true => simpa [hl, hu] using ⟨hknown, herr⟩
    | false => simpa [hl, hu] using ⟨hknown, hok⟩

lemma meets_fetchPublicKey {user : Ident} {P : Except String PublicKey → List GroupEv → Prop}
    (herr : ∀ m e w, P (.error m) (tr ++ [⟨.fetchPublicKey user, e, w, w⟩]))
    (hP : ∀ pk ev, Gave user pk ev → P (.ok pk) (tr ++ [ev])) :
    Meets (Known q) (fetchPublicKey user).run P tr := by
  refine meets_onRelay (fun e w => ⟨known_read rfl e w, herr _ e w⟩)
    fun e w => ⟨known_read rfl e w, herr _ e w, ?_⟩
  dsimp only
  cases hpk : w.publicKeys user with
  | none => exact herr _ e w
  | some pk => exact hP pk _ ⟨rfl, hpk⟩

/-- What the operations on a group begin with. -/
lemma meets_lookup (user : ShareGroupKey → Ident) {f : ShareGroupKey → PublicKey → Op α}
    {Q : Except String α → List GroupEv → Prop} (herr : ∀ e tr, Q (.error e) tr)
    (hf : ∀ key pk tr, Reading d g key tr → (∃ ev ∈ tr, Gave (user key) pk ev) →
      Meets (Known q) (f key pk).run Q tr) :
    Meets (Known q) (do
      connected d
      let key ← getGroup d g
      let pk ← fetchPublicKey (user key)
      f key pk : Op α).run Q [] := by
  refine meets_bind_except (P := fun _ tr => ∀ ev ∈ tr, reads ev.name)
    (meets_connected fun _ e w => by simp [reads]) (fun _ tr htr => ?_) fun e tr _ => herr e tr
  refine meets_bind_except (P := fun r tr => ∀ key, r = .ok key → Reading d g key tr)
    (meets_getGroup (by simp) ?_) (fun key tr htr => ?_) fun e tr _ => herr e tr
  · rintro key ev hev _ ⟨⟩
    refine ⟨List.forall_mem_append.mpr ⟨htr, ?_⟩, ev, by simp, hev⟩
    simp [hev.1, reads]
  obtain ⟨hreads, ev, hev, hkey⟩ := htr key rfl
  refine meets_bind_except (P := fun r tr => ∀ pk, r = .ok pk →
    Reading d g key tr ∧ ∃ ev ∈ tr, Gave (user key) pk ev)
    (meets_fetchPublicKey (by simp) fun pk ev' hgave => ?_)
    (fun pk tr htr => hf key pk tr (htr pk rfl).1 (htr pk rfl).2) fun e tr _ => herr e tr
  rintro _ ⟨⟩
  refine ⟨⟨List.forall_mem_append.mpr ⟨hreads, ?_⟩, ev, List.mem_append_left _ hev, hkey⟩, ev',
    by simp, hgave⟩
  simp [hgave.1, reads]

/-! ### The operations, one by one -/

lemma put_putGroup (d : ℕ) (key : ShareGroupKey) (w : World) : Put d key w (w.putGroup d key) := by
  refine ⟨rfl, fun d' g => ?_⟩
  by_cases hd : d' = d
  · subst hd
    by_cases hg : key.group.groupId = g
    · simp [World.putGroup, hg]
    · simp [World.putGroup, hg, Function.update_of_ne (Ne.symm hg)]
  · simp [World.putGroup, hd]

lemma effect_putGroup {key : ShareGroupKey} (e : NetEnv) (w : World) :
    Effect ⟨.putGroup d key, e, w, w.putGroup d key⟩ where
  sik := rfl
  group := Nat.le_refl _
  same h := by cases h
  put _ := ⟨d, key, put_putGroup d key w, .inl rfl⟩
  delivered := ⟨[], by simp [World.putGroup], by simp⟩

lemma effect_rotate (e : NetEnv) (w : World) :
    Effect ⟨.rotate, e, w, { w with nextSik := w.nextSik + 1 }⟩ where
  sik := rfl
  group := Nat.le_refl _
  same _ := ⟨rfl, fun _ _ => rfl⟩
  put h := by cases h
  delivered := ⟨[], by simp, by simp⟩

lemma effect_storeWrapped (k : WrappedGroupKey) (e : NetEnv) (w : World) :
    Effect ⟨.storeGroupWrappedKey k, e, w, w.storeWrapped k⟩ where
  sik := rfl
  group := Nat.le_refl _
  same _ := ⟨rfl, fun _ _ => rfl⟩
  put h := by cases h
  delivered := ⟨[k], rfl, by simp⟩

/-- What the relay stores is added to what has reached it. -/
lemma foldl_storeWrapped (ks : List WrappedGroupKey) (w : World) :
    (ks.foldl (fun w k => w.storeWrapped k) w).nextSik = w.nextSik ∧
    (ks.foldl (fun w k => w.storeWrapped k) w).nextGroup = w.nextGroup ∧
    (ks.foldl (fun w k => w.storeWrapped k) w).puts = w.puts ∧
    (ks.foldl (fun w k => w.storeWrapped k) w).devices = w.devices ∧
    (ks.foldl (fun w k => w.storeWrapped k) w).delivered = w.delivered ++ ks := by
  induction ks generalizing w with
  | nil => simp
  | cons k ks ih =>
    obtain ⟨hsik, hgroup, hputs, hdev, hdel⟩ := ih (w.storeWrapped k)
    exact ⟨hsik, hgroup, hputs, hdev, hdel.trans (List.append_assoc w.delivered [k] ks)⟩

lemma effect_replaceWrapped (ks : List WrappedGroupKey) (e : NetEnv) (w : World) :
    Effect ⟨.replaceGroupWrappedKeys ks, e, w, w.replaceWrapped ks⟩ := by
  let kept : Ident × Ident → Option WrappedGroupKey := fun k =>
    if ks.head?.map (·.groupId) = some k.1 then none else w.groupWrapped k
  have hfold := foldl_storeWrapped ks { w with groupWrapped := kept }
  refine ⟨hfold.1, hfold.2.1.ge, fun _ => ⟨hfold.2.2.1, fun d g => ?_⟩, fun h => ?_, ks,
    hfold.2.2.2.2, ?_⟩
  · exact congrArg (fun dev => (dev d).groups g) hfold.2.2.2.1
  · cases h
  · exact fun w hw => .inr ⟨ks, rfl, hw⟩

/-- A request that was lost. -/
lemma effect_lost {l : Stmt} (hd : draws l = false) (hp : puts l = false) (e : NetEnv) (w : World) :
    Effect ⟨l, e, w, w⟩ := effect_same hd hp rfl rfl (fun _ _ => rfl) rfl rfl

lemma wrapFor_eq_ok {key : ShareGroupKey} {member : Ident} {pk : PublicKey} {w : WrappedGroupKey}
    (h : wrapFor key member pk = .ok w) :
    w.memberUuid = member ∧ w.env.sik = key.groupSik ∧ w.env.recipient = pk := by
  cases pk with
  | lowOrder => cases h
  | of secret =>
    cases h
    exact ⟨rfl, rfl, rfl⟩

/-- The call draws a key, has the relay store it and puts it in its place. -/
lemma meets_rotation {key : ShareGroupKey} {pk : PublicKey}
    {Q : Except String Unit → List GroupEv → Prop} (htr : Reading d g key tr)
    (hgave : ∃ ev ∈ tr, Gave key.group.adminUuid pk ev) (herr : ∀ e tr, Q (.error e) tr)
    (hok : ∀ tr' newKey ev, Reading d g key tr → newKey.group = key.group →
      ev.name = .putGroup d newKey → Q (.ok ()) (tr ++ tr' ++ [ev])) :
    Meets (Known q) (do
      let (newKey, wrapped) ← rotation key.group pk
      relayRotation d newKey [wrapped] : Op Unit).run Q tr := by
  have hreads : ∀ ev ∈ tr, draws ev.name = false ∧ puts ev.name = false ∧
      ∀ ks, ev.name ≠ .replaceGroupWrappedKeys ks := fun ev hev => by
    have := htr.reads ev hev
    cases hname : ev.name <;> simp_all [reads, draws, puts]
  -- the draw
  refine meets_bind_except (P := fun r tr' => ∀ p, r = .ok p → ∃ ev : GroupEv,
    tr' = tr ++ [ev] ∧ ev.name = .rotate ∧ p.1 = ⟨key.group, ev.pre.nextSik⟩ ∧
      p.2.memberUuid = key.group.adminUuid ∧ p.2.env.sik = ev.pre.nextSik ∧
      p.2.env.recipient = pk) ?_ ?_ fun e tr _ => herr e tr
  · refine meets_bind_except (P := fun r tr' => ∀ sik, r = .ok sik → ∃ ev : GroupEv,
      tr' = tr ++ [ev] ∧ ev.name = .rotate ∧ sik = ev.pre.nextSik) ?_ ?_ (by simp)
    · refine meets_atom fun e w => ⟨⟨effect_rotate e w, ?_⟩, ?_⟩
      · refine ⟨fun _ ev hev => (hreads ev hev).1, ?_, ?_, ?_, ?_⟩ <;> simp
      · rintro _ ⟨⟩
        exact ⟨_, rfl, rfl, rfl⟩
    · intro sik tr' hsik
      obtain ⟨ev, htr', hname, rfl⟩ := hsik sik rfl
      refine meets_bind_except (P := fun r tr'' => tr'' = tr' ∧
        r = wrapFor ⟨key.group, ev.pre.nextSik⟩ key.group.adminUuid pk) ⟨rfl, rfl⟩ ?_ (by simp)
      rintro wrapped _ ⟨rfl, hw⟩ p ⟨⟩
      obtain ⟨hmember, hwsik, hrecipient⟩ := wrapFor_eq_ok hw.symm
      exact ⟨ev, htr', hname, rfl, hmember, hwsik, hrecipient⟩
  rintro ⟨newKey, wrapped⟩ tr₁ hdrawn
  obtain ⟨ev, rfl, hname, hkey, hmember, hsik, hrecipient⟩ := hdrawn _ rfl
  have hevs : ∀ ev' ∈ tr ++ [ev], puts ev'.name = false ∧
      ∀ ks, ev'.name ≠ .replaceGroupWrappedKeys ks := by
    refine List.forall_mem_append.mpr ⟨fun ev hev => (hreads ev hev).2, ?_⟩
    simp [hname, puts]
  have hdraw : ∃ ev' ∈ tr ++ [ev], draws ev'.name ∧ ev'.pre.nextSik = ev.pre.nextSik :=
    ⟨ev, by simp, by simp [hname, draws], rfl⟩
  -- the relay
  refine meets_bind_except (P := fun r tr₂ => ∃ ev₂ : GroupEv, tr₂ = tr ++ [ev] ++ [ev₂] ∧
    ev₂.name = .replaceGroupWrappedKeys [wrapped]) ?_ ?_ fun e tr _ => herr e tr
  · have hbefore : ∀ e w w', Before q (tr ++ [ev])
        ⟨.replaceGroupWrappedKeys [wrapped], e, w, w'⟩ := by
      refine fun e w w' => ⟨by simp [draws], by simp, by simp, ?_, by simp⟩
      rintro _ ⟨⟩
      refine ⟨fun ev' hev' => (hevs ev' hev').1, ⟨ev, by simp, by simp [hname, draws], by
        simpa using hsik⟩, ?_⟩
      obtain ⟨ev₀, hev₀, hgave⟩ := hgave
      rw [← hmember, ← hrecipient] at hgave
      exact List.forall_mem_singleton.mpr ⟨ev₀, List.mem_append_left _ hev₀, hgave⟩
    exact meets_onRelay
      (fun e w => ⟨⟨effect_lost rfl rfl e w, hbefore e w _⟩, _, rfl, rfl⟩)
      fun e w => ⟨⟨effect_replaceWrapped _ e w, hbefore e w _⟩, ⟨_, rfl, rfl⟩, _, rfl, rfl⟩
  -- the store
  rintro ⟨⟩ _ ⟨ev₂, rfl, hname₂⟩
  refine meets_atom fun e w =>
    ⟨⟨effect_putGroup e w, by simp [draws], ?_, by simp, by simp, by simp⟩, ?_⟩
  · rintro _ _ ⟨⟩
    obtain rfl := hkey
    refine ⟨⟨ev, by simp, by simp [hname, draws], rfl⟩, ?_, ?_, ?_⟩
    · refine List.forall_mem_append.mpr ⟨fun ev' hev' => (hevs ev' hev').1, ?_⟩
      simp [hname₂, puts]
    · obtain ⟨ev₀, hev₀, hread⟩ := htr.key
      exact ⟨ev₀, by simp [hev₀], g, key, hread, rfl⟩
    · refine List.forall_mem_append.mpr ⟨fun ev' hev' ks hks => absurd hks ((hevs ev' hev').2 ks),
        ?_⟩
      simp only [List.mem_singleton, forall_eq, hname₂]
      rintro _ ⟨⟩
      simpa using hmember
  · have := hok [ev, ev₂] newKey ⟨.putGroup d newKey, e, w, w.putGroup d newKey⟩ htr
      (by rw [show newKey = _ from hkey]) rfl
    simpa using this

/-- The call ends by putting a new key in the place of a group of which it has read one. -/
def Rotated (d : ℕ) (g : Ident) (P : ShareGroupKey → Prop) (tr : List GroupEv) : Prop :=
  ∃ key newKey ev, (∃ ev' ∈ tr, ReadKey d g key ev') ∧ P key ∧ newKey.group = key.group ∧
    ev.name = .putGroup d newKey ∧ tr.getLast? = some ev

/-- What an answered call has run. -/
def Answers : Req → Reply → List GroupEv → Prop
  | .removeGroupMember d g member, .done (.ok ()), tr =>
    Rotated d g (fun key => key.group.adminUuid ≠ member) tr
  | .rotateGroupSik d g, .done (.ok ()), tr => Rotated d g (fun _ => True) tr
  | .shareToGroup d g item plain, .cipher (.ok c), tr => ∃ ev ∈ tr, ∃ key, ReadKey d g key ev ∧
    c = key.encryptItem item plain
  | _, _, _ => True

lemma meets_createGroup {name : String} {Q : Except String ShareGroupKey → List GroupEv → Prop}
    (hQ : ∀ r tr, Q r tr) : Meets (Known q) (createGroup d name).run Q [] := by
  refine meets_bind_except (P := fun _ tr => ∀ ev ∈ tr, reads ev.name)
    (meets_onWorld rfl fun e w => by simp [reads]) (fun admin tr htr => ?_) fun e tr _ => hQ _ tr
  refine meets_atom fun e w =>
    ⟨⟨⟨rfl, Nat.le_succ _, ?_, fun _ => ?_, [], ?_, by simp⟩, ?_, ?_, ?_, ?_, ?_⟩, hQ _ _⟩
  · simp [puts]
  · have hput := put_putGroup d ⟨⟨w.nextGroup, name, admin⟩, w.nextSik⟩
      { w with nextSik := w.nextSik + 1, nextGroup := w.nextGroup + 1 }
    exact ⟨d, _, ⟨hput.puts, hput.groups⟩, .inr ⟨rfl, rfl, rfl, Nat.lt_succ_self _⟩⟩
  · simp [World.putGroup]
  · intro _ ev hev
    have := htr ev hev
    cases hname : ev.name <;> simp_all [reads, draws]
  · simp
  · exact fun _ _ => htr
  all_goals simp

/-- **What every call is known of.** -/
lemma meets_code (q : Req) : Meets (Known q) (code q) (Answers q) [] := by
  cases q with
  | createGroup d name =>
    exact meets_bind.mpr (meets_createGroup fun _ _ => trivial)
  | addGroupMember d g member =>
    refine meets_bind.mpr (meets_lookup (fun _ => member) (fun _ _ => trivial) ?_)
    -- the key is wrapped for the public key that the server gave for the member
    intro key pk tr htr hgave
    refine meets_bind_except (P := fun r tr' => tr' = tr ∧ r = wrapFor key member pk) ⟨rfl, rfl⟩ ?_
      fun _ _ _ => trivial
    rintro wrapped tr' ⟨rfl, hw⟩
    obtain ⟨rfl, hsik, rfl⟩ := wrapFor_eq_ok hw.symm
    refine meets_bind_except (P := fun _ _ => True) ?_ (fun _ _ _ => trivial) fun _ _ _ => trivial
    have hbefore : ∀ e w w', Before (.addGroupMember d g wrapped.memberUuid) tr'
        ⟨.storeGroupWrappedKey wrapped, e, w, w'⟩ := by
      refine fun e w w' => ⟨by simp [draws], by simp, by simp, by simp, ?_⟩
      rintro _ ⟨⟩
      exact ⟨hgave, d, g, key, rfl, htr.key, hsik⟩
    exact meets_onRelay (fun e w => ⟨⟨effect_lost rfl rfl e w, hbefore e w _⟩, trivial⟩)
      fun e w => ⟨⟨effect_storeWrapped _ e w, hbefore e w _⟩, trivial, trivial⟩
  | removeGroupMember d g member =>
    refine meets_bind.mpr (meets_lookup (fun key => key.group.adminUuid)
      (fun _ _ => trivial) ?_)
    intro key pk tr htr hgave
    split
    · exact trivial
    · -- the rotation after a removal goes on only without the member
      next hmember =>
      refine meets_rotation htr hgave (fun _ _ => trivial)
        fun tr' newKey ev hread hgroup hname => ?_
      obtain ⟨ev', hev', hkey⟩ := hread.key
      exact ⟨key, newKey, ev, ⟨ev', by simp [hev'], hkey⟩, hmember, hgroup, hname, by simp⟩
  | rotateGroupSik d g =>
    refine meets_bind.mpr (meets_lookup (fun key => key.group.adminUuid)
      (fun _ _ => trivial) ?_)
    intro key pk tr htr hgave
    refine meets_rotation htr hgave (fun _ _ => trivial) fun tr' newKey ev hread hgroup hname => ?_
    obtain ⟨ev', hev', hkey⟩ := hread.key
    exact ⟨key, newKey, ev, ⟨ev', by simp [hev'], hkey⟩, trivial, hgroup, hname, by simp⟩
  | shareToGroup d g item plain =>
    refine meets_bind.mpr (meets_bind_except (P := fun r tr => ∀ key, r = .ok key →
      ∃ ev ∈ tr, ReadKey d g key ev) (meets_getGroup (by simp) ?_) ?_ fun _ _ _ => trivial)
    · rintro key ev hev _ ⟨⟩
      exact ⟨ev, by simp, hev⟩
    · -- what is shared is encrypted with the group key that was read
      intro key tr htr
      obtain ⟨ev, hev, hread⟩ := htr key rfl
      exact ⟨ev, hev, key, hread, rfl⟩
  | publish user pk =>
    refine meets_atom fun e w =>
      ⟨⟨effect_same rfl rfl rfl rfl (fun _ _ => rfl) rfl rfl, ?_⟩, trivial⟩
    constructor <;> simp [draws]
  | connect d transport user =>
    refine meets_atom fun e w =>
      ⟨⟨effect_same rfl rfl rfl rfl (fun d' g => ?_) rfl rfl, ?_⟩, trivial⟩
    · rcases eq_or_ne d' d with rfl | hne
      · simp
      · simp [Function.update_of_ne hne]
    · constructor <;> simp [draws]

/-! ### Every run -/

/-- What comes later has more keys. -/
structure Later (w w' : World) : Prop where
  sik : w.nextSik ≤ w'.nextSik
  puts : w.puts <+: w'.puts

lemma Later.refl (w : World) : Later w w := ⟨le_refl _, List.prefix_refl _⟩

lemma Later.trans {w₁ w₂ w₃ : World} (h : Later w₁ w₂) (h' : Later w₂ w₃) : Later w₁ w₃ :=
  ⟨h.sik.trans h'.sik, h.puts.trans h'.puts⟩

lemma Effect.later {ev : GroupEv} (h : Effect ev) : Later ev.pre ev.post := by
  refine ⟨h.sik ▸ Nat.le_add_right _ _, ?_⟩
  cases hp : puts ev.name with
  | false => exact (h.same hp).1 ▸ List.prefix_refl _
  | true =>
    obtain ⟨d, key, hput, -⟩ := h.put hp
    exact ⟨_, hput.puts.symm⟩

/-- The keys that were put in the place of a group. -/
def putsOf (d : ℕ) (g : Ident) (ps : List (ℕ × ShareGroupKey)) : List (ℕ × ShareGroupKey) :=
  ps.filter fun p => p.1 = d ∧ p.2.group.groupId = g

/-- Every key that was put was drawn before, in the place of a group is the last one, and the keys
of a group are for the same group. -/
structure Sane (w : World) : Prop where
  below : ∀ p ∈ w.puts, p.2.groupSik < w.nextSik
  fresh : ∀ p ∈ w.puts, p.2.group.groupId < w.nextGroup
  same : ∀ p ∈ w.puts, ∀ p' ∈ w.puts, p.2.group.groupId = p'.2.group.groupId →
    p.2.group = p'.2.group
  current : ∀ d g key, (w.devices d).groups g = some key →
    (putsOf d g w.puts).getLast? = some (d, key)

lemma Sane.mem {w : World} (h : Sane w) {key : ShareGroupKey}
    (hkey : (w.devices d).groups g = some key) : (d, key) ∈ w.puts ∧ key.group.groupId = g := by
  have := List.mem_of_getLast? (h.current d g key hkey)
  simp only [putsOf, List.mem_filter, decide_eq_true_eq] at this
  exact ⟨this.1, this.2.2⟩

/-- The keys of the puts, and of one more. -/
lemma Sane.snoc {w w' : World} {key : ShareGroupKey} (h : Sane w) (hsik : w.nextSik ≤ w'.nextSik)
    (hgroup : w.nextGroup ≤ w'.nextGroup) (hput : Put d key w w')
    (hbelow : key.groupSik < w'.nextSik)
    (hkey : (∃ p ∈ w.puts, p.2.group = key.group) ∨
      key.group.groupId = w.nextGroup ∧ w.nextGroup < w'.nextGroup) : Sane w' := by
  have hnew : ∀ p ∈ w.puts, p.2.group.groupId = key.group.groupId → p.2.group = key.group := by
    intro p hp heq
    rcases hkey with ⟨p', hp', hgroup'⟩ | ⟨hid, -⟩
    · exact (h.same p hp p' hp' (by rw [heq, hgroup'])).trans hgroup'
    · exact absurd (heq.trans hid) (h.fresh p hp).ne
  refine ⟨?_, ?_, ?_, fun d' g key' hkey' => ?_⟩
  · rw [hput.puts]
    exact List.forall_mem_append.mpr ⟨fun p hp => (h.below p hp).trans_le hsik, by simpa⟩
  · rw [hput.puts]
    refine List.forall_mem_append.mpr ⟨fun p hp => (h.fresh p hp).trans_le hgroup, ?_⟩
    rcases hkey with ⟨p', hp', hgroup'⟩ | ⟨hid, hlt⟩
    · simpa [← hgroup'] using (h.fresh p' hp').trans_le hgroup
    · simpa [hid] using hlt
  · rw [hput.puts]
    refine List.forall_mem_append.mpr ⟨fun p hp => List.forall_mem_append.mpr
      ⟨h.same p hp, by simpa using hnew p hp⟩, ?_⟩
    simp only [List.mem_singleton, forall_eq]
    refine List.forall_mem_append.mpr ⟨fun p hp heq => (hnew p hp heq.symm).symm, by simp⟩
  · rw [hput.groups] at hkey'
    rw [hput.puts, putsOf, List.filter_append]
    split at hkey'
    · next hhere =>
      obtain ⟨rfl, rfl⟩ := hhere
      obtain rfl := Option.some.inj hkey'
      simp
    · next helse =>
      have hno : ¬(d = d' ∧ key.group.groupId = g) := fun h => helse ⟨h.1.symm, h.2⟩
      rw [List.filter_cons_of_neg (by simpa using hno), List.filter_nil, List.append_nil]
      exact h.current d' g key' hkey'

lemma Effect.sane {ev : GroupEv} (h : Effect ev) (hs : Sane ev.pre)
    (hput : ∀ d key, ev.name = .putGroup d key →
      key.groupSik < ev.pre.nextSik ∧ ∃ p ∈ ev.pre.puts, p.2.group = key.group) : Sane ev.post := by
  cases hp : puts ev.name with
  | false =>
    obtain ⟨hputs, hgroups⟩ := h.same hp
    refine ⟨fun p hp => ?_, fun p hp => ?_, ?_, fun d g key hkey => ?_⟩
    · exact (hs.below p (hputs ▸ hp)).trans_le h.later.sik
    · exact (hs.fresh p (hputs ▸ hp)).trans_le h.group
    · exact hputs ▸ hs.same
    · exact hputs ▸ hs.current d g key (hgroups d g ▸ hkey)
  | true =>
    obtain ⟨d, key, hadd, hname | ⟨hname, hsik, hid, hlt⟩⟩ := h.put hp
    · obtain ⟨hbelow, hold⟩ := hput d key hname
      exact hs.snoc h.later.sik h.group hadd (hbelow.trans_le h.later.sik) (.inl hold)
    · refine hs.snoc h.later.sik h.group hadd ?_ (.inr ⟨hid, hlt⟩)
      rw [h.sik, hsik, hname]
      simp [draws]

/-- Where a key that was put comes from: a call that drew it, put it, and had it wrapped for the
admin only. -/
structure Source (σ : GroupSys) (key : ShareGroupKey) (i : ℕ) (q : Req) : Prop where
  drew : ∃ ev, Has σ i q ev ∧ draws ev.name ∧ ev.pre.nextSik = key.groupSik
  put : ∃ ev, Has σ i q ev ∧ puts ev.name
  admin : ∀ ev ks, Has σ i q ev → ev.name = .replaceGroupWrappedKeys ks →
    ∀ w ∈ ks, w.memberUuid = key.group.adminUuid

/-- Where a wrapped key comes from: a rotation that drew the key, or the addition of its member,
which read it; the relay has given the public key for the member. -/
inductive Wrapped (σ : GroupSys) (w : WrappedGroupKey) : Prop
  | rotated (i : ℕ) (q : Req) (ev ev' ev₀ : GroupEv) (ks : List WrappedGroupKey)
      (hev : Has σ i q ev) (hdraw : draws ev.name) (hsik : ev.pre.nextSik = w.env.sik)
      (hev' : Has σ i q ev') (hname : ev'.name = .replaceGroupWrappedKeys ks) (hw : w ∈ ks)
      (hev₀ : Has σ i q ev₀) (hgave : Gave w.memberUuid w.env.recipient ev₀)
  | added (i : ℕ) (d : ℕ) (g : Ident) (key : ShareGroupKey) (ev ev₀ : GroupEv)
      (hev : Has σ i (.addGroupMember d g w.memberUuid) ev) (hread : ReadKey d g key ev)
      (hsik : w.env.sik = key.groupSik) (hev₀ : Has σ i (.addGroupMember d g w.memberUuid) ev₀)
      (hgave : Gave w.memberUuid w.env.recipient ev₀)

structure Inv (σ : GroupSys) : Prop where
  sane : Sane σ.shared
  before : ∀ i q ev, Has σ i q ev → Sane ev.pre ∧ Later ev.pre σ.shared
  drawn : ∀ i q ev, Has σ i q ev → draws ev.name → ev.pre.nextSik < σ.shared.nextSik
  unique : ∀ i q ev j q' ev', Has σ i q ev → Has σ j q' ev' → draws ev.name → draws ev'.name →
    ev.pre.nextSik = ev'.pre.nextSik → i = j
  nodup : (σ.shared.puts.map (·.2.groupSik)).Nodup
  source : ∀ p ∈ σ.shared.puts, ∃ i q, Source σ p.2 i q
  wrapped : ∀ w ∈ σ.shared.delivered, Wrapped σ w

lemma inv_start : Inv (init start) where
  sane := by constructor <;> simp [init, start]
  before _ _ _ h := absurd h (not_has_init _)
  drawn _ _ _ h := absurd h (not_has_init _)
  unique _ _ _ _ _ _ h := absurd h (not_has_init _)
  nodup := by simp [init, start]
  source := by simp [init, start]
  wrapped := by simp [init, start]

variable {σ : GroupSys} {w : World} {q' : Req} {p : Prog World NetEnv Stmt Reply}

/-- A new call has drawn and put nothing. -/
lemma Source.call {key : ShareGroupKey} {i : ℕ} (h : Source σ key i q) :
    Source ⟨w, σ.calls ++ [⟨q', [], p⟩]⟩ key i q where
  drew := h.drew.imp fun _ hev => ⟨has_call.mpr hev.1, hev.2⟩
  put := h.put.imp fun _ hev => ⟨has_call.mpr hev.1, hev.2⟩
  admin ev ks hev := h.admin ev ks (has_call.mp hev)

lemma Wrapped.call {k : WrappedGroupKey} (h : Wrapped σ k) :
    Wrapped ⟨w, σ.calls ++ [⟨q', [], p⟩]⟩ k := by
  cases h with
  | rotated i q ev ev' ev₀ ks hev hdraw hsik hev' hname hks hev₀ hgave =>
    exact .rotated i q ev ev' ev₀ ks (has_call.mpr hev) hdraw hsik (has_call.mpr hev') hname hks
      (has_call.mpr hev₀) hgave
  | added i d g key ev ev₀ hev hread hsik hev₀ hgave =>
    exact .added i d g key ev ev₀ (has_call.mpr hev) hread hsik (has_call.mpr hev₀) hgave

section Exec

variable {σ : GroupSys} {i : ℕ} {e : NetEnv} {q : Req} {tr : List GroupEv} {l : Stmt}
  {f : NetEnv → World → World} {k : NetEnv → World → Prog World NetEnv Stmt Reply}

/-- The statement that the call runs. -/
abbrev ran (σ : GroupSys) (l : Stmt) (f : NetEnv → World → World) (e : NetEnv) : GroupEv :=
  ⟨l, e, σ.shared, f e σ.shared⟩

/-- The system after the statement. -/
abbrev next (σ : GroupSys) (i : ℕ) (q : Req) (tr : List GroupEv) (l : Stmt)
    (f : NetEnv → World → World) (k : NetEnv → World → Prog World NetEnv Stmt Reply) (e : NetEnv) :
    GroupSys :=
  ⟨f e σ.shared, σ.calls.set i ⟨q, tr ++ [ran σ l f e], k e σ.shared⟩⟩

lemma mem_of_has {q' : Req} {ev : GroupEv} (hc : σ.calls[i]? = some ⟨q, tr, .stmt l f k⟩)
    (hev : Has σ i q' ev) : ev ∈ tr := by
  obtain ⟨c, hc', -, hev⟩ := hev
  cases hc.symm.trans hc'
  exact hev

/-- A key that was put, or that the statement puts. -/
lemma Effect.mem_puts {ev : GroupEv} (h : Effect ev) {p : ℕ × ShareGroupKey}
    (hp : p ∈ ev.post.puts) : p ∈ ev.pre.puts ∨ puts ev.name ∧ (ev.name = .putGroup p.1 p.2 ∨
      p.2.groupSik = ev.pre.nextSik ∧ ∃ d, ev.name = .createGroup d) := by
  cases hpb : puts ev.name with
  | false => exact .inl ((h.same hpb).1 ▸ hp)
  | true =>
    obtain ⟨d, key, hadd, hname⟩ := h.put hpb
    rw [hadd.puts] at hp
    rcases List.mem_append.mp hp with hp | hp
    · exact .inl hp
    · rw [List.mem_singleton.mp hp]
      exact .inr ⟨rfl, hname.imp_right fun hn => ⟨hn.2.1, d, hn.1⟩⟩

variable (hc : σ.calls[i]? = some ⟨q, tr, .stmt l f k⟩) (hknown : Known q tr (ran σ l f e))
  (h : Inv σ)
include hc hknown h

/-- A key that is put was drawn by the call, for a group that had a key. -/
lemma exec_put (d : ℕ) (key : ShareGroupKey) (hname : l = .putGroup d key) :
    key.groupSik < σ.shared.nextSik ∧ ∃ p ∈ σ.shared.puts, p.2.group = key.group := by
  obtain ⟨⟨ev', hev', hdraw, hsik⟩, -, ⟨ev₀, hev₀, g, key', hread, hgroup⟩, -⟩ :=
    hknown.2.put d key hname
  obtain ⟨hsane, hle⟩ := h.before i q ev₀ ⟨_, hc, rfl, hev₀⟩
  exact ⟨hsik ▸ h.drawn i q ev' ⟨_, hc, rfl, hev'⟩ hdraw, (d, key'),
    hle.puts.mem (hsane.mem hread.2).1, hgroup.symm⟩

/-- A key that is put was not put before: the call that drew it would have put it. -/
lemma exec_nodup : ((f e σ.shared).puts.map (·.2.groupSik)).Nodup := by
  obtain ⟨heff, hbefore⟩ := hknown
  cases hpb : puts l with
  | false =>
    have hsame : (f e σ.shared).puts = σ.shared.puts := (heff.same hpb).1
    exact hsame ▸ h.nodup
  | true =>
    obtain ⟨d, key, hadd, hname⟩ := heff.put hpb
    have hsame : (f e σ.shared).puts = σ.shared.puts ++ [(d, key)] := hadd.puts
    rw [hsame, List.map_append, List.nodup_append]
    refine ⟨h.nodup, by simp, fun sik hsik sik' hsik' heq => ?_⟩
    obtain ⟨p, hp, rfl⟩ := List.mem_map.mp hsik
    rw [List.map_singleton, List.mem_singleton] at hsik'
    have heq : p.2.groupSik = key.groupSik := heq.trans hsik'
    rcases hname with hname | ⟨-, hnew, -⟩
    -- the end of a rotation: the call drew the key, and has put nothing
    · obtain ⟨⟨ev₁, hev₁, hdraw₁, hsik₁⟩, hno, -⟩ := hbefore.put d key hname
      obtain ⟨j, q', hsource⟩ := h.source p hp
      obtain ⟨ev₂, hev₂, hdraw₂, hsik₂⟩ := hsource.drew
      obtain rfl := h.unique _ _ _ _ _ _ hev₂ ⟨_, hc, rfl, hev₁⟩ hdraw₂ hdraw₁
        (hsik₂.trans (heq.trans hsik₁.symm))
      obtain ⟨ev₃, hev₃, hput₃⟩ := hsource.put
      rw [hno ev₃ (mem_of_has hc hev₃)] at hput₃
      cases hput₃
    -- a new group: its key is drawn by the statement itself
    · exact (h.sane.below p hp).ne (heq.trans hnew)

/-- Where the keys come from that are put then. -/
lemma exec_source : ∀ p ∈ (f e σ.shared).puts, ∃ j q', Source (next σ i q tr l f k e) p.2 j q' := by
  obtain ⟨heff, hbefore⟩ := hknown
  have hlast : Has (next σ i q tr l f k e) i q (ran σ l f e) :=
    (has_exec hc).mpr (.inr ⟨rfl, rfl, rfl⟩)
  intro p hp
  rcases heff.mem_puts hp with hold | ⟨hpb, hname | ⟨hnew, d, hname⟩⟩
  -- it was put before, and its call replaces nothing any more
  · obtain ⟨j, q', hsource⟩ := h.source p hold
    obtain ⟨ev₁, hev₁, hrest₁⟩ := hsource.drew
    obtain ⟨ev₂, hev₂, hput₂⟩ := hsource.put
    refine ⟨j, q', ⟨ev₁, (has_exec hc).mpr (.inl hev₁), hrest₁⟩,
      ⟨ev₂, (has_exec hc).mpr (.inl hev₂), hput₂⟩, fun ev' ks hev' hks => ?_⟩
    rcases (has_exec hc).mp hev' with hev' | ⟨rfl, rfl, rfl⟩
    · exact hsource.admin ev' ks hev' hks
    · rw [(hbefore.replace ks hks).1 ev₂ (mem_of_has hc hev₂)] at hput₂
      cases hput₂
  -- the end of a rotation
  · obtain ⟨⟨ev₁, hev₁, hrest₁⟩, -, -, hadmin⟩ := hbefore.put p.1 p.2 hname
    refine ⟨i, q, ⟨ev₁, (has_exec hc).mpr (.inl ⟨_, hc, rfl, hev₁⟩), hrest₁⟩, ⟨_, hlast, hpb⟩,
      fun ev' ks hev' hks => ?_⟩
    rcases (has_exec hc).mp hev' with hev' | ⟨-, -, rfl⟩
    · exact hadmin ev' (mem_of_has hc hev') ks hks
    · cases hname.symm.trans hks
  -- a new group: the call has only read before
  · have hdraw : draws (ran σ l f e).name := by rw [hname]; rfl
    refine ⟨i, q, ⟨_, hlast, hdraw, hnew.symm⟩, ⟨_, hlast, hpb⟩, fun ev' ks hev' hks => ?_⟩
    rcases (has_exec hc).mp hev' with hev' | ⟨-, -, rfl⟩
    · have := hbefore.create d hname ev' (mem_of_has hc hev')
      rw [hks] at this
      cases this
    · cases hname.symm.trans hks

/-- Where the wrapped keys come from that have reached the relay then. -/
lemma exec_wrapped : ∀ w ∈ (f e σ.shared).delivered, Wrapped (next σ i q tr l f k e) w := by
  obtain ⟨heff, hbefore⟩ := hknown
  have hold : ∀ {j q' ev'}, Has σ j q' ev' → Has (next σ i q tr l f k e) j q' ev' := fun hev' =>
    (has_exec hc).mpr (.inl hev')
  intro w hw
  obtain ⟨ws, hdel, hws⟩ := heff.delivered
  rw [hdel] at hw
  rcases List.mem_append.mp hw with hw | hw
  · cases h.wrapped w hw with
    | rotated j q' ev₁ ev₂ ev₀ ks hev₁ hdraw hsik hev₂ hname hks hev₀ hgave =>
      exact .rotated j q' ev₁ ev₂ ev₀ ks (hold hev₁) hdraw hsik (hold hev₂) hname hks (hold hev₀)
        hgave
    | added j d g key ev₁ ev₀ hev₁ hread hsik hev₀ hgave =>
      exact .added j d g key ev₁ ev₀ (hold hev₁) hread hsik (hold hev₀) hgave
  · have hmem : ∀ ev' ∈ tr, Has (next σ i q tr l f k e) i q ev' := fun ev' hev' =>
      hold ⟨_, hc, rfl, hev'⟩
    rcases hws w hw with hname | ⟨ks, hname, hks⟩
    · obtain ⟨⟨ev₀, hev₀, hgave⟩, d, g, key, rfl, ⟨ev₁, hev₁, hread⟩, hsik⟩ :=
        hbefore.store w hname
      exact .added i d g key ev₁ ev₀ (hmem ev₁ hev₁) hread hsik (hmem ev₀ hev₀) hgave
    · obtain ⟨-, ⟨ev₁, hev₁, hdraw, hsik⟩, hgiven⟩ := hbefore.replace ks hname
      obtain ⟨ev₀, hev₀, hgave⟩ := hgiven w hks
      exact .rotated i q ev₁ (ran σ l f e) ev₀ ks (hmem ev₁ hev₁) hdraw (hsik w hks).symm
        ((has_exec hc).mpr (.inr ⟨rfl, rfl, rfl⟩)) hname hks (hmem ev₀ hev₀) hgave

/-- A statement of a call that has run `tr`. -/
lemma inv_exec : Inv (next σ i q tr l f k e) := by
  have heff := hknown.1
  have hlater : Later σ.shared (f e σ.shared) := heff.later
  refine ⟨heff.sane h.sane fun d key hname => exec_put hc hknown h d key hname, ?_, ?_, ?_,
    exec_nodup hc hknown h, exec_source hc hknown h, exec_wrapped hc hknown h⟩
  · intro j q' ev' hev'
    rcases (has_exec hc).mp hev' with hev' | ⟨-, -, rfl⟩
    · exact ⟨(h.before j q' ev' hev').1, (h.before j q' ev' hev').2.trans hlater⟩
    · exact ⟨h.sane, hlater⟩
  · intro j q' ev' hev' hdraw
    rcases (has_exec hc).mp hev' with hev' | ⟨-, -, rfl⟩
    · exact (h.drawn j q' ev' hev' hdraw).trans_le hlater.sik
    · have := heff.sik
      rw [hdraw, if_pos rfl] at this
      exact this ▸ Nat.lt_succ_self _
  -- what was drawn before is below what is drawn now
  · intro j q' ev' j' q'' ev'' hev' hev'' hdraw' hdraw'' hsame
    rcases (has_exec hc).mp hev' with hold' | ⟨hj', -, hnew'⟩ <;>
      rcases (has_exec hc).mp hev'' with hold'' | ⟨hj'', -, hnew''⟩
    · exact h.unique _ _ _ _ _ _ hold' hold'' hdraw' hdraw'' hsame
    · rw [hnew''] at hsame
      exact absurd hsame (h.drawn _ _ _ hold' hdraw').ne
    · rw [hnew'] at hsame
      exact absurd hsame.symm (h.drawn _ _ _ hold'' hdraw'').ne
    · rw [hj', hj'']

end Exec

/-- **The invariant of every run**. -/
theorem inv_run (as : List GroupAct) : Inv (run code (init start) as) := by
  induction as using List.reverseRecOn with
  | nil => exact inv_start
  | append_singleton as a ih =>
    have hmeets := run_meets meets_code start as
    rw [run_append]
    generalize run code (init start) as = σ at *
    change Inv (step code σ a)
    rcases step_cases (h := code) σ a with
      ⟨q, rfl, hst⟩ | ⟨i, e, q, tr, l, f, k, rfl, hc, hst⟩ | hst
    · rw [hst]
      exact ⟨ih.sane, fun i q ev hev => ih.before i q ev (has_call.mp hev),
        fun i q ev hev => ih.drawn i q ev (has_call.mp hev),
        fun i q ev j q' ev' hev hev' =>
          ih.unique i q ev j q' ev' (has_call.mp hev) (has_call.mp hev'), ih.nodup,
        fun p hp => (ih.source p hp).imp fun i => Exists.imp fun q hq => hq.call,
        fun w hw => (ih.wrapped w hw).call⟩
    · rw [hst]
      exact inv_exec hc (hmeets _ (List.mem_of_getElem? hc) e σ.shared).1 ih
    · rwa [hst]

/-! ### What is shared after a removal -/

lemma later_after (as bs : List GroupAct) :
    Later (run code (init start) as).shared (run code (init start) (as ++ bs)).shared ∧
    ∀ (i : ℕ) (c : GroupCall), (run code (init start) (as ++ bs)).calls[i]? = some c →
      ∃ rest, c.trace = traceAt (run code (init start) as) i ++ rest ∧
        ∀ ev ∈ rest, Later (run code (init start) as).shared ev.pre :=
  run_after (fun q => meets_mono (fun _ _ h => h.1.later) (fun _ _ h => h) (meets_code q))
    Later.refl (fun _ _ _ => Later.trans) start as bs

/-- The call reads the group's key when `σ` has been. -/
def ReadsSince (σ : GroupSys) (i : ℕ) (c : GroupCall) (d : ℕ) (g : Ident) (key : ShareGroupKey) :
    Prop :=
  ∃ ev ∈ c.trace.drop (traceAt σ i).length, ReadKey d g key ev

/-- The member opens what was encrypted, with a wrapped key and the secret half of a keypair. -/
def Opens (w : WrappedGroupKey) (secret : SecretKey) (item : Ident) (c : Cipher) : Prop :=
  ∃ sik, unwrapGroupKey w secret = some sik ∧ decryptItem sik item c ≠ none

lemma Opens.recipient {k : WrappedGroupKey} {secret : SecretKey} {item : Ident} {c : Cipher}
    (h : Opens k secret item c) : k.env.recipient = .of secret := by
  obtain ⟨sik, hunwrap, -⟩ := h
  simp only [unwrapGroupKey, unwrapSharedItem] at hunwrap
  by_contra hne
  rw [if_neg fun h => hne h.1] at hunwrap
  cases hunwrap

lemma Opens.sik {k : WrappedGroupKey} {secret : SecretKey} {item : Ident} {c : Cipher}
    (h : Opens k secret item c) : k.env.sik = c.sik := by
  obtain ⟨sik, hunwrap, hopen⟩ := h
  have henv : k.env.sik = sik := by
    simp only [unwrapGroupKey, unwrapSharedItem] at hunwrap
    split at hunwrap
    · exact Option.some.inj hunwrap
    · cases hunwrap
  rw [henv]
  simp only [decryptItem] at hopen
  by_contra hne
  exact hopen (if_neg fun h => hne h.1.symm)

/-- A key that is read is among those that were put. -/
lemma Inv.read_mem {i : ℕ} {ev : GroupEv} {key : ShareGroupKey} (h : Inv σ) (hev : Has σ i q ev)
    (hread : ReadKey d g key ev) : (d, key) ∈ ev.pre.puts ∧ key.group.groupId = g :=
  (h.before i q ev hev).1.mem hread.2

lemma eq_of_nodup {ps : List (ℕ × ShareGroupKey)} (h : (ps.map (·.2.groupSik)).Nodup)
    {p p' : ℕ × ShareGroupKey} (hp : p ∈ ps) (hp' : p' ∈ ps) (heq : p.2.groupSik = p'.2.groupSik) :
    p = p' := List.inj_on_of_nodup_map h hp hp' heq

/-- The key in the place of a group is not from before the last one that was put there. -/
lemma Sane.not_before {ps ps' : List (ℕ × ShareGroupKey)} {key newKey : ShareGroupKey}
    (h : Sane w) (hputs : ps ++ [(d, newKey)] ++ ps' = w.puts) (hnodup : w.puts.Nodup)
    (hnew : newKey.group.groupId = g) (hkey : (w.devices d).groups g = some key) :
    (d, key) ∉ ps := by
  intro hmem
  have hlast := h.current d g key hkey
  have hgid := (h.mem hkey).2
  rw [← hputs] at hlast hnodup
  have hfilter : putsOf d g (ps ++ [(d, newKey)] ++ ps') =
      putsOf d g ps ++ ((d, newKey) :: putsOf d g ps') := by
    simp [putsOf, hnew]
  rw [hfilter, List.getLast?_append_of_ne_nil _ (List.cons_ne_nil _ _)] at hlast
  have hin : (d, key) ∈ (d, newKey) :: ps' := by
    rcases List.mem_cons.mp (List.mem_of_getLast? hlast) with heq | hin
    · exact heq ▸ List.mem_cons_self
    · exact List.mem_cons_of_mem _ (List.mem_of_mem_filter hin)
  rw [List.append_assoc, List.singleton_append, List.nodup_append] at hnodup
  exact hnodup.2.2 _ hmem _ hin rfl

/-- The statement with which a rotation ends puts its key. -/
lemma ends_put {P : ShareGroupKey → Prop} (as : List GroupAct) (a : GroupAct) {j : ℕ} {r : Reply}
    (hrotated : Rotated d g P tr)
    (hended : (run code (init start) (as ++ [a])).calls[j]? = some ⟨q, tr, .ret r⟩)
    (hunder : ∀ c, (run code (init start) as).calls[j]? = some c → c.prog.result = none) :
    ∃ key newKey, P key ∧ newKey.group = key.group ∧ key.group.groupId = g ∧
      (run code (init start) (as ++ [a])).shared.puts =
        (run code (init start) as).shared.puts ++ [(d, newKey)] ∧
      ∀ l q ev d' g' key', Has (run code (init start) (as ++ [a])) l q ev →
        ReadKey d' g' key' ev → Has (run code (init start) as) l q ev := by
  obtain ⟨key, newKey, ev, ⟨ev', hev', hread⟩, hP, hgroup, hname, hlast⟩ := hrotated
  have hgid : key.group.groupId = g :=
    ((inv_run (as ++ [a])).read_mem ⟨_, hended, rfl, hev'⟩ hread).2
  refine ⟨key, newKey, hP, hgroup, hgid, ?_⟩
  have hmeets := run_meets meets_code start as
  rw [run_append] at hended ⊢
  generalize run code (init start) as = σ at *
  change (step code σ a).calls[j]? = _ at hended
  change (step code σ a).shared.puts = _ ∧ ∀ l q ev d' g' key', Has (step code σ a) l q ev → _
  have hsame : σ.calls[j]? ≠ some ⟨q, tr, .ret r⟩ := fun hc => by cases hunder _ hc
  rcases step_cases (h := code) σ a with
    ⟨q', rfl, hst⟩ | ⟨i, e, q', tr', l, f, k, rfl, hc, hst⟩ | hst
  · -- the call cannot have ended with its first statement
    rw [hst] at hended
    rcases lt_or_ge j σ.calls.length with hlt | hge
    · exact absurd (List.getElem?_append_left hlt ▸ hended) hsame
    · rw [List.getElem?_append_right hge] at hended
      have htr : tr = [] :=
        congrArg Call.trace (List.mem_singleton.mp (List.mem_of_getElem? hended))
      simp [htr] at hlast
  · -- the last statement of the rotation puts the new key, and no key is read in it
    rw [hst] at hended
    rcases getElem?_set_cases hended with ⟨rfl, heq⟩ | ⟨-, hj⟩
    · obtain ⟨heff, -⟩ := (hmeets _ (List.mem_of_getElem? hc) e σ.shared).1
      obtain rfl : q = q' := congrArg Call.req heq
      obtain rfl : tr = tr' ++ [⟨l, e, σ.shared, f e σ.shared⟩] := congrArg Call.trace heq
      rw [List.getLast?_concat, Option.some.injEq] at hlast
      subst hlast
      obtain rfl : l = .putGroup d newKey := hname
      rw [hst]
      obtain ⟨d', key', hput, hname' | ⟨hname', -⟩⟩ := heff.put rfl
      · cases hname'
        refine ⟨hput.puts, fun l q ev d' g' key' hev hread' => ?_⟩
        rcases (has_exec hc).mp hev with hev | ⟨-, -, rfl⟩
        · exact hev
        · cases hread'.1
      · cases hname'
    · exact absurd hj hsame
  · rw [hst] at hended
    exact absurd hended hsame

/-- The relay has given the call the public key of the secret for the user. -/
def GaveSecret (call : GroupCall) (user : Ident) (secret : SecretKey) : Prop :=
  ∃ ev ∈ call.trace, Gave user (.of secret) ev

/-- The call drew the key. -/
def Drew (call : GroupCall) (key : ShareGroupKey) : Prop :=
  ∃ ev ∈ call.trace, draws ev.name ∧ ev.pre.nextSik = key.groupSik

/-- **Forward secrecy.** Once a member's removal has ended, what is shared to the group opens only
with a secret whose public key the relay has given for the admin, who was not the one removed, to
the call that drew the key of the share, or for someone whose addition has read the group's key
since, to that addition. -/
theorem forward_secrecy (as bs : List GroupAct) (a : GroupAct) {i j : ℕ} {d : ℕ}
    {g member item : Ident} {plain : ℕ} {removal share : GroupCall} {c : Cipher}
    (hremoval : (run code (init start) (as ++ [a])).calls[j]? = some removal)
    (hasked : removal.req = .removeGroupMember d g member)
    (hremoved : removal.prog.result = some (.done (.ok ())))
    (hunder : ∀ c, (run code (init start) as).calls[j]? = some c → c.prog.result = none)
    (hshare : (run code (init start) (as ++ [a] ++ bs)).calls[i]? = some share)
    (hasked' : share.req = .shareToGroup d g item plain)
    (hshared : share.prog.result = some (.cipher (.ok c)))
    (hnew : traceAt (run code (init start) (as ++ [a])) i = []) {k : WrappedGroupKey}
    (hk : k ∈ (run code (init start) (as ++ [a] ++ bs)).shared.delivered) {secret : SecretKey}
    (hopens : Opens k secret item c) :
    (k.memberUuid ≠ member ∧ ∃ ev ∈ share.trace, ∃ key, ReadKey d g key ev ∧
      k.memberUuid = key.group.adminUuid ∧
      ∃ call ∈ (run code (init start) (as ++ [a] ++ bs)).calls, Drew call key ∧
        GaveSecret call key.group.adminUuid secret) ∨
    ∃ l call key, (run code (init start) (as ++ [a] ++ bs)).calls[l]? = some call ∧
      call.req = .addGroupMember d g k.memberUuid ∧
      ReadsSince (run code (init start) (as ++ [a])) l call d g key ∧
      GaveSecret call k.memberUuid secret := by
  obtain ⟨q, tr, p⟩ := removal
  obtain rfl : q = .removeGroupMember d g member := hasked
  obtain rfl : p = .ret (.done (.ok ())) := Prog.result_eq_some hremoved
  obtain ⟨q, tr', p⟩ := share
  obtain rfl : q = .shareToGroup d g item plain := hasked'
  obtain rfl : p = .ret (.cipher (.ok c)) := Prog.result_eq_some hshared
  have hinv := inv_run (as ++ [a] ++ bs)
  obtain ⟨oldKey, newKey, hmember, hgroup, hgid, hputs, hreads⟩ := ends_put as a
    (run_meets meets_code start (as ++ [a]) _ (List.mem_of_getElem? hremoval)) hremoval hunder
  obtain ⟨evs, hevs, key, hread, rfl⟩ :=
    run_meets meets_code start (as ++ [a] ++ bs) _ (List.mem_of_getElem? hshare)
  have hevs' : Has (run code (init start) (as ++ [a] ++ bs)) i _ evs := ⟨_, hshare, rfl, hevs⟩
  obtain ⟨hsane, hle⟩ := hinv.before i _ evs hevs'
  obtain ⟨-, hafter⟩ := later_after (as ++ [a]) bs
  obtain ⟨rest, hrest, hlater⟩ := hafter i _ hshare
  rw [hnew, List.nil_append] at hrest
  obtain ⟨ps', hps'⟩ := (hlater evs (hrest ▸ hevs)).puts
  rw [hputs] at hps'
  have hnodup : evs.pre.puts.Nodup := (List.Nodup.of_map _ hinv.nodup).sublist hle.puts.sublist
  -- the key that is read is the removal's, or a later one
  have hfresh : (d, key) ∉ (run code (init start) as).shared.puts :=
    hsane.not_before hps' hnodup (hgroup ▸ hgid) hread.2
  have hmem : (d, key) ∈ (run code (init start) (as ++ [a] ++ bs)).shared.puts :=
    hle.puts.mem (hsane.mem hread.2).1
  have hadmin : key.group = newKey.group :=
    hsane.same (d, key) (hsane.mem hread.2).1 (d, newKey) (hps' ▸ by simp)
      ((hsane.mem hread.2).2.trans (hgroup ▸ hgid.symm))
  have hsik : k.env.sik = key.groupSik := hopens.sik
  cases hinv.wrapped k hk with
  | rotated l q ev₁ ev₂ ev₀ ks hev₁ hdraw hdrawn hev₂ hname hks hev₀ hgave =>
    obtain ⟨l', q', hsource⟩ := hinv.source _ hmem
    obtain ⟨ev₃, hev₃, hdraw₃, hdrawn₃⟩ := hsource.drew
    obtain rfl := hinv.unique _ _ _ _ _ _ hev₁ hev₃ hdraw hdraw₃
      (hdrawn.trans (hsik.trans hdrawn₃.symm))
    obtain rfl := hev₁.req_eq hev₃
    have hfor : k.memberUuid = key.group.adminUuid := hsource.admin ev₂ ks hev₂ hname k hks
    rw [hopens.recipient, hfor] at hgave
    obtain ⟨call, hcall, -, hmem₁⟩ := hev₁
    obtain ⟨call', hcall', -, hmem₀⟩ := hev₀
    obtain rfl : call = call' := Option.some.inj (hcall.symm.trans hcall')
    refine .inl ⟨?_, evs, hevs, key, hread, hfor, call, List.mem_of_getElem? hcall,
      ⟨ev₁, hmem₁, hdraw, hdrawn.trans hsik⟩, ev₀, hmem₀, hgave⟩
    rw [hfor, hadmin, hgroup]
    exact hmember
  | added l d' g' key' ev₁ ev₀ hev₁ hread₁ hsik₁ hev₀ hgave =>
    obtain ⟨hsane₁, hle₁⟩ := hinv.before l _ ev₁ hev₁
    obtain ⟨hmem₁, hgid₁⟩ := hsane₁.mem hread₁.2
    cases eq_of_nodup hinv.nodup (hle₁.puts.mem hmem₁) hmem (hsik₁.symm.trans hsik)
    obtain rfl : g' = g := hgid₁.symm.trans (hsane.mem hread.2).2
    rw [hopens.recipient] at hgave
    obtain ⟨call, hcall, hreq, hmem₂⟩ := hev₁
    obtain ⟨call', hcall', -, hmem₀⟩ := hev₀
    obtain rfl : call = call' := Option.some.inj (hcall.symm.trans hcall')
    refine .inr ⟨l, call, key, hcall, hreq, ⟨ev₁, ?_, hread₁⟩, ev₀, hmem₀, hgave⟩
    obtain ⟨rest₁, hrest₁, -⟩ := hafter l call hcall
    rw [hrest₁, List.drop_left]
    rcases List.mem_append.mp (hrest₁ ▸ hmem₂) with hold | hsince
    · -- an addition from before the removal has read a key from before it
      obtain ⟨q, hold⟩ := has_of_mem_traceAt hold
      obtain ⟨-, hle₀⟩ := (inv_run as).before l q ev₁ (hreads l q ev₁ _ _ _ hold hread₁)
      exact absurd (hle₀.puts.mem hmem₁) hfresh
    · exact hsince

/-- The keys of 10, 11 and 12 are published, 10 makes a group, adds 11 and removes them, up to the
removal's last statement. -/
def departure : List GroupAct :=
  [.call (.publish 10 (.of 30)), .exec 0 ⟨false, false⟩, .call (.publish 11 (.of 31)),
    .exec 1 ⟨false, false⟩, .call (.publish 12 (.of 32)), .exec 2 ⟨false, false⟩,
    .call (.connect 0 true (some 10)), .exec 3 ⟨false, false⟩] ++
  .call (.createGroup 0 "group") :: List.replicate 2 (.exec 4 ⟨false, false⟩) ++
  .call (.addGroupMember 0 0 11) :: List.replicate 4 (.exec 5 ⟨false, false⟩) ++
  .call (.removeGroupMember 0 0 11) :: List.replicate 5 (.exec 6 ⟨false, false⟩)

/-- 10 shares an item to the group and adds 12. -/
def arrival : List GroupAct :=
  [.call (.shareToGroup 0 0 5 7), .exec 7 ⟨false, false⟩] ++
  .call (.addGroupMember 0 0 12) :: List.replicate 4 (.exec 8 ⟨false, false⟩)

/-- The newcomer opens what was shared after the departure, and the addition has read the key
since. -/
theorem newcomer_opens :
    Opens ⟨0, 12, ⟨.of 32, 0, 1⟩⟩ 32 5 ⟨1, 5, 7⟩ ∧
    ∃ l call key, (run code (init start)
        (departure ++ [.exec 6 ⟨false, false⟩] ++ arrival)).calls[l]? = some call ∧
      call.req = .addGroupMember 0 0 12 ∧
      ReadsSince (run code (init start) (departure ++ [.exec 6 ⟨false, false⟩]))
        l call 0 0 key ∧ GaveSecret call 12 32 := by
  have hopens : Opens ⟨0, 12, ⟨.of 32, 0, 1⟩⟩ 32 5 ⟨1, 5, 7⟩ := ⟨1, by decide, by decide⟩
  obtain ⟨removal, hremoval⟩ := Option.isSome_iff_exists.mp
    (show (run code (init start) (departure ++ [.exec 6 ⟨false, false⟩])).calls[6]?.isSome by
      decide +kernel)
  obtain ⟨share, hshare⟩ := Option.isSome_iff_exists.mp
    (show (run code (init start)
      (departure ++ [.exec 6 ⟨false, false⟩] ++ arrival)).calls[7]?.isSome by decide +kernel)
  have hended : ∀ c ∈ (run code (init start) (departure ++ [.exec 6 ⟨false, false⟩])).calls[6]?,
      c.req = .removeGroupMember 0 0 11 ∧ c.prog.result = some (.done (.ok ())) := by
    decide +kernel
  have hunder : ∀ c ∈ (run code (init start) departure).calls[6]?, c.prog.result = none := by
    decide +kernel
  have hshared : ∀ c ∈ (run code (init start)
      (departure ++ [.exec 6 ⟨false, false⟩] ++ arrival)).calls[7]?,
      c.req = .shareToGroup 0 0 5 7 ∧ c.prog.result = some (.cipher (.ok ⟨1, 5, 7⟩)) ∧
      ∀ ev ∈ c.trace, ∀ key ∈ (ev.pre.devices 0).groups 0, key.group.adminUuid = 10 := by
    decide +kernel
  have hnew : (traceAt (run code (init start)
      (departure ++ [.exec 6 ⟨false, false⟩])) 7).isEmpty := by decide +kernel
  refine ⟨hopens, ?_⟩
  obtain ⟨hreq, hres⟩ := hended removal hremoval
  obtain ⟨hreq', hres', hadmin⟩ := hshared share hshare
  rcases forward_secrecy departure arrival (.exec 6 ⟨false, false⟩) hremoval hreq hres hunder hshare
    hreq' hres' (List.isEmpty_iff.mp hnew) (k := ⟨0, 12, ⟨.of 32, 0, 1⟩⟩) (by decide +kernel)
    hopens with ⟨-, ev, hev, key, hread, heq, -⟩ | hadded
  · exact absurd (heq.trans (hadmin ev hev key hread.2)) (by decide)
  · exact hadded

end Vautr.GroupKeys
