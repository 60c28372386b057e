import Vautr.EmergencyKit
import Vautr.Interleave

/-!
What a lock leaves in memory, while other operations of the client are under way.

A lock wipes the keys and the secret handles one after the other and locks the vault then. An
unlock and a recovery put keys in memory before they open the vault, and a rotation puts its new
key in memory at its end, whatever has happened to the vault meanwhile.
-/

namespace Vautr.KeyWipe

open Vautr.Atomic Vautr.Interleave Vautr.Sql Vautr.Server Vautr.Handlers Vautr.ClientDb
  Vautr.Crypto Vautr.Client Vautr.Orchestrator Vautr.Effects

/-- The world, and what else one client holds in memory: the secret handles (`handles.rs`) and
the recovery under way. -/
structure Desk where
  world : World
  handles : List (UInt64 × Plain)
  nextHandle : UInt64
  recoveryCreds : Option Key
  recoveryPending : Bool

inductive Label
  | client (l : Name)
  | wipeSvk
  | wipeDek
  | wipeMk
  | clearHandles
  | lockVault
  | openVault
  | setRecoveryCreds
  | setRecoveryPending
  | issue (uuid : Ident)
  | access (handle : UInt64)
  | release (handle : UInt64)
  | reap
  | others

abbrev Task := Prog Desk ClientEnv Label

/-- An operation of the client on the world. -/
def onClient {α : Type} : Code α → Task α
  | .ret a => .ret a
  | .stmt l f k =>
    .stmt (.client l) (fun e s => { s with world := f e s.world }) fun e s => onClient (k e s.world)

variable (X : Ext Blob) (d : ℕ)

/-- The memory of the client. -/
abbrev Desk.mem (s : Desk) : Memory := (s.world.devices d).mem

def Desk.setMem (s : Desk) (m : Memory) : Desk :=
  { s with world := s.world.setDevice d { s.world.devices d with mem := m } }

/-- One write to the memory. -/
def write (l : Label) (g : Memory → Memory) : Task Unit :=
  Prog.atom l fun _ s => (s.setMem d (g (s.mem d)), ())

/-! ### The operations -/

def lock : Task Unit := do
  write d .wipeSvk ({ · with svk := none })
  write d .wipeDek ({ · with dek := none })
  write d .wipeMk ({ · with mk := none })
  Prog.atom .clearHandles fun _ s => ({ s with handles := [] }, ())
  write d .lockVault ({ · with locked := true })
  let _ ← onClient (publish d [.vaultLocked] : Client.Op Unit).run

/-- `recover_with_key`; `mnemonic` is the seed that the words stand for, if they are valid. -/
def recoverWithKey (mnemonic : Option Key) (wrappedSvkRk : Blob) (serverUserId : Ident) :
    Task (Except ClientError Unit) :=
  match mnemonic with
  | none => return .error (.text "invalid recovery key")
  | some seed =>
    match EmergencyKit.recoverSvk seed serverUserId wrappedSvkRk with
    | none => return .error (.text "recovery unwrap failed (bad recovery key?)")
    | some svk => do
      let _ ← onClient (writeMemory d ({ · with svk := some svk }) : Client.Op Unit).run
      let _ ← onClient (writeMemory d ({ · with dek := some (.dek svk) }) : Client.Op Unit).run
      let _ ← onClient
        (writeMemory d ({ · with serverUserId := some serverUserId }) : Client.Op Unit).run
      let _ ← onClient (loadPersistedCursor d).run
      write d .openVault ({ · with locked := false })
      Prog.atom .setRecoveryCreds fun _ s => ({ s with recoveryCreds := some seed }, ())
      Prog.atom .setRecoveryPending fun _ s => ({ s with recoveryPending := true }, ())
      return .ok ()

/-- `get_secret_material`. -/
def secretMaterial (uuid : Ident) (db : LocalDb Blob) : Option (ℤ × Blob) :=
  (db.overviews.get uuid).bind fun o => (db.payloads.get uuid).map fun p => (o.encKeyGen, p.payload)

/-- What `reveal_secret` does while it holds the lock of `dek`: it opens the secret and stores it
behind a fresh handle. -/
def issue (uuid : Ident) (gen : UInt64) (payload : Blob) : Task (Except ClientError UInt64) :=
  Prog.atom (.issue uuid) fun _ s =>
    match (s.mem d).dek with
    | none => (s, .error (.text "vault locked"))
    | some dek =>
      match decrypt dek uuid gen payload with
      | none => (s, .error (.text "secret decrypt failed"))
      | some pt =>
        ({ s with
          handles := (s.nextHandle, pt) :: s.handles.filter (·.1 ≠ s.nextHandle)
          nextHandle := s.nextHandle + 1 }, .ok s.nextHandle)

/-- `reveal_secret`, up to the lock of `dek`. -/
def readSecretMaterial (uuid : Ident) : Client.Op (Option (ℤ × Blob)) := do
  requireUnlocked d
  readDb d (.readVersion uuid) "get_secret_material" (secretMaterial uuid)

def revealSecret (uuid : Ident) : Task (Except ClientError UInt64) := do
  match ← onClient (readSecretMaterial d uuid).run with
  | .error e => return .error e
  | .ok none => return .error (.text "item has no local secret")
  | .ok (some (gen, payload)) => issue d uuid (asU64 gen) payload

def readSecret (handle : UInt64) : Task (Except ClientError Plain) :=
  Prog.atom (.access handle) fun _ s =>
    (s, if (s.mem d).locked then .error (.text "vault locked")
      else match s.handles.lookup handle with
        | none => .error (.text "secret handle expired or invalid")
        | some pt => .ok pt)

def releaseSecret (handle : UInt64) : Task Unit :=
  Prog.atom (.release handle) fun _ s => ({ s with handles := s.handles.filter (·.1 ≠ handle) }, ())

/-- What the reaper (`reaper.rs`) does with the handles that were idle too long. -/
def reap (idle : List UInt64) : Task Unit :=
  Prog.atom .reap fun _ s => ({ s with handles := s.handles.filter (·.1 ∉ idle) }, ())

/-- The others change the world, but not this device. -/
def others (f : World → World) : Task Unit :=
  Prog.atom .others fun _ s =>
    ({ s with world := (f s.world).setDevice d (s.world.devices d) }, ())

/-- What is asked of a client that runs. -/
inductive Req
  | command (q : Cmd) (hlock : q ≠ .lock) (hrestart : q ≠ .restart)
  | lock
  | recoverWithKey (mnemonic : Option Key) (wrappedSvkRk : Blob) (serverUserId : Ident)
  | revealSecret (uuid : Ident)
  | readSecret (handle : UInt64)
  | releaseSecret (handle : UInt64)
  | reap (idle : List UInt64)
  | others (f : World → World)

inductive Reply
  | command (r : Except ClientError CmdReply)
  | done
  | recovered (r : Except ClientError Unit)
  | handle (r : Except ClientError UInt64)
  | secret (r : Except ClientError Plain)

def code : Req → Task Reply
  | .command q _ _ => do return .command (← onClient (Orchestrator.code X d q))
  | .lock => do lock d; return .done
  | .recoverWithKey mnemonic wrapped user => do
    return .recovered (← recoverWithKey d mnemonic wrapped user)
  | .revealSecret uuid => do return .handle (← revealSecret d uuid)
  | .readSecret handle => do return .secret (← readSecret d handle)
  | .releaseSecret handle => do releaseSecret handle; return .done
  | .reap idle => do reap idle; return .done
  | .others f => do others d f; return .done

abbrev DeskSys := Sys Req Desk ClientEnv Label Reply

abbrev DeskAct := Act Req ClientEnv

/-! ### What a lock should leave -/

/-- Neither a key nor a secret handle is in memory. -/
structure Wiped (s : Desk) : Prop where
  svk : (s.mem d).svk = none
  dek : (s.mem d).dek = none
  masterKey : (s.mem d).mk = none
  handles : s.handles = []

/-- An unlock or a recovery. -/
def opener : Req → Bool
  | .command (.unlockWithPassword _ _ _ _) _ _ => true
  | .command (.unlockWithRawKey _ _) _ _ => true
  | .recoverWithKey _ _ _ => true
  | _ => false

/-- While the vault is locked and no unlock is under way, neither a key nor a secret handle is in
memory. -/
def LockedWiped (σ : DeskSys) : Prop :=
  (σ.shared.mem d).locked = true → (∀ c ∈ σ.calls, opener c.req = true → c.prog.result.isSome) →
    Wiped d σ.shared

/-- How far a lock is that has begun and has still to lock the vault. -/
def progress : Option Label → ℕ
  | some .wipeDek => 1
  | some .wipeMk => 2
  | some .clearHandles => 3
  | some .lockVault => 4
  | _ => 0

/-- A key is the same as before, or it is not in memory any more. -/
def falls {K : Type} [DecidableEq K] (k k' : Option K) : Bool := k' = k || k' = none

/-- No key is put in memory. -/
structure KeysFall (m m' : Memory) : Prop where
  svk : falls m.svk m'.svk = true
  dek : falls m.dek m'.dek = true
  masterKey : falls m.mk m'.mk = true

/-- What a step to the memory `m'` has to meet: a key is put in memory only while no lock has
wiped that key already and has still to lock the vault, and, unless an unlock or a recovery does
it, only while the vault is open. -/
structure Timely (σ : DeskSys) (q : Req) (m' : Memory) : Prop where
  svk : falls (σ.shared.mem d).svk m'.svk = false → ∀ c ∈ σ.calls, progress c.prog.next < 1
  dek : falls (σ.shared.mem d).dek m'.dek = false → ∀ c ∈ σ.calls, progress c.prog.next < 2
  masterKey : falls (σ.shared.mem d).mk m'.mk = false → ∀ c ∈ σ.calls, progress c.prog.next < 3
  unlocked : KeysFall (σ.shared.mem d) m' ∨ opener q = true ∨ (σ.shared.mem d).locked = false

def Orderly (σ : DeskSys) : DeskAct → Prop
  | .call _ => True
  | .exec i e =>
    match σ.calls[i]? with
    | some ⟨q, _, .stmt _ f _⟩ => Timely d σ q ((f e σ.shared).mem d)
    | _ => True

variable {X d} {α ε : Type}

/-! ### What the statements of a client do to its memory -/

abbrev WorldEv := Ev World ClientEnv Name

abbrev DeskEv := Ev Desk ClientEnv Label

/-- The statement does not lock the vault. -/
def StaysOpen (d : ℕ) (ev : WorldEv) : Prop :=
  (ev.post.devices d).mem.locked = true → (ev.pre.devices d).mem.locked = true

lemma staysOpen_setDevice {l : Client.Label} {e : ClientEnv} {w : World} {c : Device}
    (h : c.mem.locked = (w.devices d).mem.locked) : StaysOpen d ⟨(d, l), e, w, w.setDevice d c⟩ := by
  intro hl
  rw [← h]
  simpa using hl

lemma permitsSync_staysOpen : PermitsSync d anyEffect (StaysOpen d) where
  read _ := trivial
  memory _ _ _ _ _ hm := staysOpen_setDevice hm.locked
  server _ _ _ _ _ h := h
  database _ _ _ _ _ _ _ _ := staysOpen_setDevice rfl
  cursor _ _ _ := staysOpen_setDevice rfl
  gate _ _ _ := staysOpen_setDevice rfl
  clean _ _ := staysOpen_setDevice rfl
  lists _ _ _ _ _ _ _ := staysOpen_setDevice rfl

lemma permitsRotation_staysOpen : PermitsRotation d anyEffect (StaysOpen d) where
  toPermitsDb := permitsSync_staysOpen.toPermitsDb
  keys _ _ _ _ _ hm := staysOpen_setDevice hm.locked
  items _ _ _ _ _ _ _ := staysOpen_setDevice rfl

lemma staysOpen_write {g : Memory → Memory} (hg : ∀ m, (g m).locked = true → m.locked = true) :
    Promises (StaysOpen d) (writeMemory d g : ExceptT ε Code Unit).run :=
  guarantees_onMemory fun e w hl => hg _ (by simpa using hl)

lemma staysOpen_loadPersistedCursor : Promises (StaysOpen d) (loadPersistedCursor d).run := by
  refine guarantees_bind_except
    (guarantees_inspect (permitsSync_staysOpen.readDb rfl)) fun r => ?_
  cases r <;> exact staysOpen_write fun _ h => h

lemma staysOpen_openVault (gen : UInt64) : Promises (StaysOpen d) (openVault d gen).run := by
  refine guarantees_bind_except staysOpen_loadPersistedCursor fun _ =>
    guarantees_bind_except (staysOpen_write fun _ h => h) fun _ =>
    guarantees_bind_except (staysOpen_write fun _ h => h) fun _ =>
    guarantees_bind_except (guarantees_bind_except
      (guarantees_inspect (permitsSync_staysOpen.readDb rfl)) fun r => ?_) fun _ =>
    staysOpen_write nofun
  cases r with
  | ok t => exact guarantees_onMemory fun _ _ => staysOpen_setDevice rfl
  | error _ => exact guarantees_pure_except _

/-- Only a lock and a new start lock the vault. -/
lemma staysOpen_exec {q : Cmd} (hlock : q ≠ .lock) (hrestart : q ≠ .restart) :
    Promises (StaysOpen d) (exec X d q).run := by
  have h := permitsSync_staysOpen (d := d)
  cases q with
  | lock => exact absurd rfl hlock
  | restart => exact absurd rfl hrestart
  | connectSync user =>
    exact guarantees_bind_except (guarantees_bind_except (staysOpen_write fun _ h => h) fun _ =>
      staysOpen_write fun _ h => h) fun _ => guarantees_pure_except _
  | disconnectSync =>
    refine guarantees_bind_except ?_ fun _ => guarantees_pure_except _
    exact staysOpen_write fun _ h => h
  | unlockWithPassword mk wrapped user gen =>
    refine guarantees_bind_except ?_ fun _ => guarantees_pure_except _
    unfold unlockWithPassword
    split
    · exact guarantees_throw_except _
    · exact guarantees_throw_except _
    · exact guarantees_bind_except (staysOpen_write fun _ h => h) fun _ =>
        guarantees_bind_except (staysOpen_write fun _ h => h) fun _ =>
        guarantees_bind_except (staysOpen_write fun _ h => h) fun _ =>
        guarantees_bind_except (staysOpen_write fun _ h => h) fun _ => staysOpen_openVault gen
  | unlockWithRawKey key gen =>
    exact guarantees_bind_except (guarantees_bind_except (staysOpen_write fun _ h => h) fun _ =>
      guarantees_bind_except (staysOpen_write fun _ h => h) fun _ =>
      guarantees_bind_except (staysOpen_write fun _ h => h) fun _ => staysOpen_openVault gen)
      fun _ => guarantees_pure_except _
  | markIgnored uuid v toxic =>
    exact guarantees_bind_except (guarantees_bind_except (staysOpen_write fun _ h => h) fun _ =>
      staysOpen_write fun _ h => h) fun _ => guarantees_pure_except _
  | saveItem item payload =>
    exact guarantees_bind_except (h.saveItem _ _) fun _ => guarantees_pure_except _
  | deleteItem uuid => exact guarantees_bind_except (h.deleteItem _) fun _ => guarantees_pure_except _
  | sync => exact guarantees_bind_except h.sync fun _ => guarantees_pure_except _
  | pushLocalChanges =>
    exact guarantees_bind_except h.pushLocalChanges fun _ => guarantees_pure_except _
  | resolveConflict uuid v force =>
    exact guarantees_bind_except (h.resolveConflict _ _ _) fun _ => guarantees_pure_except _
  | rotateKey gen =>
    exact guarantees_bind_except (permitsRotation_staysOpen.rotateKey _) fun _ =>
      guarantees_pure_except _

/-! ### Unlocks and recoveries -/

/-- The vault is open. -/
def Open (d : ℕ) (w : World) : Prop := (w.devices d).mem.locked = false

/-- The statement puts no key in memory. -/
def Falls (d : ℕ) (ev : WorldEv) : Prop :=
  KeysFall (ev.pre.devices d).mem (ev.post.devices d).mem

/-- The operation cannot fail. -/
abbrev Answers (x : ExceptT ε Code α) : Prop := Returns (fun r => ∃ a, r = .ok a) x.run

lemma answers_onMemory {l : Client.Label} {g : ClientEnv → Memory → Memory × α} :
    Answers (onMemory d l g : ExceptT ε Code α) := fun _ _ => ⟨_, rfl⟩

lemma answers_bind {β : Type} {x : ExceptT ε Code β} {f : β → ExceptT ε Code α} (hx : Answers x)
    (hf : ∀ b, Answers (f b)) : Answers (x >>= f) :=
  returns_bind_except hx (fun b _ => hf b) fun _ => nofun

lemma answers_inspect {ε' : Type} {x : ExceptT ε Code α} :
    Answers (inspect x : ExceptT ε' Code (Except ε α)) :=
  returns_bind (returns_true _) fun _ _ => ⟨_, rfl⟩

lemma answers_loadPersistedCursor : Answers (loadPersistedCursor d) := by
  refine answers_bind answers_inspect fun r => ?_
  cases r <;> exact answers_onMemory

lemma answers_loadBlacklist : Answers (loadBlacklist d) := by
  refine answers_bind answers_inspect fun r => ?_
  cases r with
  | ok t => exact answers_onMemory
  | error _ => exact ⟨_, rfl⟩

/-- The operation opens the vault, and puts no key in memory after that. -/
abbrev Opens (d : ℕ) (p : Code α) : Prop := Until (Open d) (Falls d) p

lemma opens_bind {β : Type} {x : ExceptT ε Code β} {f : β → ExceptT ε Code α} (hx : Answers x)
    (hf : ∀ b, Opens d (f b).run) : Opens d (x >>= f).run := by
  rw [ExceptT.run_bind]
  refine until_bind_right hx ?_
  rintro _ ⟨b, rfl⟩
  exact hf b

lemma opens_openVault (gen : UInt64) : Opens d (openVault d gen).run := by
  refine opens_bind answers_loadPersistedCursor fun _ => opens_bind answers_onMemory fun _ =>
    opens_bind answers_onMemory fun _ => opens_bind answers_loadBlacklist fun _ e w =>
    .inr ⟨?_, trivial⟩
  simp [Open]

/-- An unlock opens the vault, or it puts no key in memory. -/
lemma opens_exec {q : Cmd} (hlock : q ≠ .lock) (hrestart : q ≠ .restart)
    (h : opener (.command q hlock hrestart) = true) :
    Opens d (Orchestrator.code X d q) ∨ Steps (Falls d) (Orchestrator.code X d q) := by
  have hdone : ∀ {x : Client.Op Unit}, Opens d x.run →
      Opens d (x >>= fun _ => (pure CmdReply.done : Client.Op CmdReply)).run := by
    intro x hx
    rw [ExceptT.run_bind]
    refine until_bind_left hx fun r => ?_
    cases r <;> trivial
  cases q with
  | unlockWithPassword mk wrapped user gen =>
    cases hsvk : openSvk mk user wrapped with
    | none =>
      right
      simp only [Orchestrator.code, exec, unlockWithPassword, hsvk]
      trivial
    | some pt =>
      cases pt with
      | bytes b =>
        right
        simp only [Orchestrator.code, exec, unlockWithPassword, hsvk]
        trivial
      | key svk =>
        refine .inl (hdone ?_)
        simp only [unlockWithPassword, hsvk]
        exact opens_bind answers_onMemory fun _ => opens_bind answers_onMemory fun _ =>
          opens_bind answers_onMemory fun _ => opens_bind answers_onMemory fun _ =>
          opens_openVault gen
  | unlockWithRawKey key gen =>
    exact .inl (hdone (opens_bind answers_onMemory fun _ => opens_bind answers_onMemory fun _ =>
      opens_bind answers_onMemory fun _ => opens_openVault gen))
  | _ => cases h

/-! ### The operations of a desk -/

lemma steps_onClient {G : WorldEv → Prop} {A : DeskEv → Prop} {p : Code α} (hp : Steps G p)
    (h : ∀ l e s w, G ⟨l, e, Desk.world s, w⟩ → A ⟨.client l, e, s, { s with world := w }⟩) :
    Steps A (onClient p) := by
  induction p with
  | ret a => trivial
  | stmt l f k ih => exact fun e s => ⟨h _ _ _ _ (hp e s.world).1, ih e s.world (hp e s.world).2⟩

lemma until_onClient {J : World → Prop} {G : WorldEv → Prop} {J' : Desk → Prop}
    {A : DeskEv → Prop} {p : Code α} (hp : Until J G p)
    (hJ : ∀ (s : Desk) w, J w → J' { s with world := w })
    (h : ∀ l e s w, G ⟨l, e, Desk.world s, w⟩ → A ⟨.client l, e, s, { s with world := w }⟩) :
    Until J' A (onClient p) := by
  induction p with
  | ret a => exact hp
  | stmt l f k ih =>
    exact fun e s => (hp e s.world).imp (ih e s.world) fun hw => ⟨hJ s _ hw.1, steps_onClient hw.2 h⟩

/-- What every statement but those of a lock does: it does not lock the vault, and without a key it
stores no secret behind a handle. -/
structure Loose (d : ℕ) (ev : DeskEv) : Prop where
  name : progress (some ev.name) = 0
  staysOpen : (ev.post.mem d).locked = true → (ev.pre.mem d).locked = true
  handles : (ev.pre.mem d).dek = none → ev.pre.handles = [] → ev.post.handles = []

/-- The operation of a desk opens the vault, and puts no key in memory after that. -/
abbrev DeskOpens (d : ℕ) (p : Task α) : Prop :=
  Until (fun s => (s.mem d).locked = false)
    (fun ev => KeysFall (ev.pre.mem d) (ev.post.mem d)) p

abbrev DeskFalls (d : ℕ) (p : Task α) : Prop :=
  Steps (fun ev => KeysFall (ev.pre.mem d) (ev.post.mem d)) p

lemma falls_refl {K : Type} [DecidableEq K] (k : Option K) : falls k k = true := by simp [falls]

lemma keysFall_refl (m : Memory) : KeysFall m m := ⟨falls_refl _, falls_refl _, falls_refl _⟩

@[simp] lemma mem_setMem (s : Desk) (m : Memory) : (s.setMem d m).mem d = m := by
  simp [Desk.setMem, Desk.mem]

@[simp] lemma handles_setMem (s : Desk) (m : Memory) : (s.setMem d m).handles = s.handles := rfl

lemma loose_onClient {p : Code α} (hp : Promises (StaysOpen d) p) (w : World) :
    Steps (Loose d) (onClient p) :=
  steps_onClient (steps_of_guarantees hp w) fun _ _ _ _ h => ⟨rfl, h, fun _ hh => hh⟩

/-- A statement that leaves the memory alone. -/
lemma loose_atom {l : Label} {g : ClientEnv → Desk → Desk × α} (hl : progress (some l) = 0)
    (hmem : ∀ e s, (g e s).1.mem d = s.mem d)
    (hg : ∀ e s, (s.mem d).dek = none → s.handles = [] → (g e s).1.handles = []) :
    Steps (Loose d) (Prog.atom l g) :=
  fun e s => ⟨⟨hl, fun h => by rwa [hmem] at h, hg e s⟩, trivial⟩

lemma loose_write {l : Label} {g : Memory → Memory} (hl : progress (some l) = 0)
    (hg : ∀ m, (g m).locked = true → m.locked = true) : Steps (Loose d) (write d l g) :=
  fun e s => ⟨⟨hl, fun h => hg _ (by simpa [write] using h), fun _ hh => hh⟩, trivial⟩

lemma loose_recoverWithKey (mnemonic : Option Key) (wrapped : Blob) (user : Ident) (w : World) :
    Steps (Loose d) (recoverWithKey d mnemonic wrapped user) := by
  unfold recoverWithKey
  split
  · trivial
  split
  · trivial
  refine steps_bind (loose_onClient (staysOpen_write fun _ h => h) w) fun _ =>
    steps_bind (loose_onClient (staysOpen_write fun _ h => h) w) fun _ =>
    steps_bind (loose_onClient (staysOpen_write fun _ h => h) w) fun _ =>
    steps_bind (loose_onClient staysOpen_loadPersistedCursor w) fun _ =>
    steps_bind (loose_write rfl nofun) fun _ =>
    steps_bind (loose_atom rfl (fun _ _ => rfl) fun _ _ _ h => h) fun _ =>
    steps_bind (loose_atom rfl (fun _ _ => rfl) fun _ _ _ h => h) fun _ => trivial

lemma loose_issue (uuid : Ident) (gen : UInt64) (payload : Blob) :
    Steps (Loose d) (issue d uuid gen payload) := by
  refine loose_atom rfl (fun e s => ?_) fun e s hdek hh => ?_
  · split
    · rfl
    split <;> rfl
  · rw [hdek]
    exact hh

lemma loose_revealSecret (uuid : Ident) (w : World) :
    Steps (Loose d) (revealSecret d uuid) := by
  refine steps_bind (loose_onClient ?_ w) fun r => ?_
  · exact guarantees_bind_except permitsSync_staysOpen.requireUnlocked fun _ =>
      permitsSync_staysOpen.readDb rfl
  · rcases r with e | _ | ⟨gen, payload⟩
    · trivial
    · trivial
    · exact loose_issue _ _ _

/-- **What an operation does**, unless it is a lock. -/
lemma loose_code {q : Req} (hq : q ≠ .lock) (w : World) : Steps (Loose d) (code X d q) := by
  cases q with
  | lock => exact absurd rfl hq
  | command q hlock hrestart =>
    exact steps_bind (loose_onClient (staysOpen_exec hlock hrestart) w) fun _ => trivial
  | recoverWithKey mnemonic wrapped user =>
    exact steps_bind (loose_recoverWithKey _ _ _ w) fun _ => trivial
  | revealSecret uuid => exact steps_bind (loose_revealSecret uuid w) fun _ => trivial
  | readSecret handle =>
    exact steps_bind (loose_atom rfl (fun _ _ => rfl) fun _ _ _ h => h) fun _ => trivial
  | releaseSecret handle =>
    exact steps_bind (loose_atom rfl (fun _ _ => rfl) fun _ _ _ h => by simp [h]) fun _ => trivial
  | reap idle =>
    exact steps_bind (loose_atom rfl (fun _ _ => rfl) fun _ _ _ h => by simp [h]) fun _ => trivial
  | others f =>
    exact steps_bind (loose_atom rfl (fun _ _ => by simp [Desk.mem]) fun _ _ _ h => h)
      fun _ => trivial

/-- An unlock or a recovery opens the vault, or it puts no key in memory. -/
lemma opens_code {q : Req} (hq : opener q = true) :
    DeskOpens d (code X d q) ∨ DeskFalls d (code X d q) := by
  cases q with
  | command q hlock hrestart =>
    refine (opens_exec (X := X) (d := d) hlock hrestart hq).imp (fun h => ?_) fun h => ?_
    · exact until_bind_left (until_onClient h (fun _ _ hw => hw) fun _ _ _ _ hf => hf)
        fun _ => trivial
    · exact steps_bind (steps_onClient h fun _ _ _ _ hf => hf) fun _ => trivial
  | recoverWithKey mnemonic wrapped user =>
    simp only [code, recoverWithKey]
    split
    · exact .inr trivial
    split
    · exact .inr trivial
    refine .inl (until_bind_left ?_ fun _ => trivial)
    refine until_bind_right (returns_true _) fun _ _ => until_bind_right (returns_true _) fun _ _ =>
      until_bind_right (returns_true _) fun _ _ => until_bind_right (returns_true _) fun _ _ =>
      fun e s => .inr ⟨by simp, ?_⟩
    exact fun _ _ => ⟨keysFall_refl _, fun _ _ => ⟨keysFall_refl _, trivial⟩⟩
  | _ => cases hq

/-! ### The stages of a lock -/

variable (d) in
/-- What a lock does when it has done the first `n` of its steps. -/
def stage : ℕ → Task Reply
  | 0 => do write d .wipeSvk ({ · with svk := none }); afterSvk
  | 1 => afterSvk
  | 2 => afterDek
  | 3 => afterMk
  | 4 => afterHandles
  | 5 => afterLock
  | _ => return .done
where
  afterLock : Task Reply := do
    let _ ← onClient (publish d [.vaultLocked] : Client.Op Unit).run
    return .done
  afterHandles : Task Reply := do
    write d .lockVault ({ · with locked := true })
    afterLock
  afterMk : Task Reply := do
    Prog.atom .clearHandles fun _ s => ({ s with handles := [] }, ())
    afterHandles
  afterDek : Task Reply := do
    write d .wipeMk ({ · with mk := none })
    afterMk
  afterSvk : Task Reply := do
    write d .wipeDek ({ · with dek := none })
    afterDek

/-- What is gone from memory when a lock has done `n` of its steps. -/
structure Gone (d n : ℕ) (s : Desk) : Prop where
  svk : 1 ≤ n → (s.mem d).svk = none
  dek : 2 ≤ n → (s.mem d).dek = none
  masterKey : 3 ≤ n → (s.mem d).mk = none
  handles : 4 ≤ n → s.handles = []

lemma gone_zero (s : Desk) : Gone d 0 s := ⟨nofun, nofun, nofun, nofun⟩

lemma Gone.wiped {s : Desk} (h : Gone d 4 s) : Wiped d s :=
  ⟨h.svk (by decide), h.dek (by decide), h.masterKey (by decide), h.handles (by decide)⟩

/-- A step that puts no key in memory, and stores no secret behind a handle without a key. -/
structure Wipes (d : ℕ) (s s' : Desk) : Prop where
  keys : KeysFall (s.mem d) (s'.mem d)
  handles : (s.mem d).dek = none → s.handles = [] → s'.handles = []

lemma falls_none {K : Type} [DecidableEq K] {k k' : Option K} (h : falls k k' = true)
    (hk : k = none) : k' = none := by
  subst hk
  simpa [falls] using h

lemma Wiped.kept {s s' : Desk} (h : Wiped d s) (hs : Wipes d s s') : Wiped d s' :=
  ⟨falls_none hs.keys.svk h.svk, falls_none hs.keys.dek h.dek,
    falls_none hs.keys.masterKey h.masterKey, hs.handles h.dek h.handles⟩

/-- What a lock has wiped stays so, if no key that it has wiped is put in memory. -/
lemma Gone.kept {n : ℕ} {s s' : Desk} (h : Gone d n s)
    (hsvk : falls (s.mem d).svk (s'.mem d).svk = false → n < 1)
    (hdek : falls (s.mem d).dek (s'.mem d).dek = false → n < 2)
    (hmk : falls (s.mem d).mk (s'.mem d).mk = false → n < 3)
    (hh : (s.mem d).dek = none → s.handles = [] → s'.handles = []) : Gone d n s' where
  svk hn := falls_none (by by_contra hf; have := hsvk (by simpa using hf); omega) (h.svk hn)
  dek hn := falls_none (by by_contra hf; have := hdek (by simpa using hf); omega) (h.dek hn)
  masterKey hn :=
    falls_none (by by_contra hf; have := hmk (by simpa using hf); omega) (h.masterKey hn)
  handles hn := hh (h.dek (by omega)) (h.handles hn)

lemma Gone.wipes {n : ℕ} {s s' : Desk} (h : Gone d n s) (hs : Wipes d s s') : Gone d n s' :=
  h.kept (fun hf => by simp [hs.keys.svk] at hf) (fun hf => by simp [hs.keys.dek] at hf)
    (fun hf => by simp [hs.keys.masterKey] at hf) hs.handles

/-- The next step of a lock wipes what is next, and leads to its next stage. Only its fifth step
locks the vault. -/
structure LockStep (d n : ℕ) (s s' : Desk) : Prop where
  wipes : Wipes d s s'
  next : Gone d n s → n < 4 → Gone d (n + 1) s'
  locked : n ≠ 4 → (s'.mem d).locked = (s.mem d).locked

lemma lockStep_write {n : ℕ} {g : Memory → Memory} (hkeys : ∀ m, KeysFall m (g m))
    (hnext : ∀ s, Gone d n s → n < 4 → Gone d (n + 1) (s.setMem d (g (s.mem d))))
    (hlocked : n ≠ 4 → ∀ m, (g m).locked = m.locked) (s : Desk) :
    LockStep d n s (s.setMem d (g (s.mem d))) where
  wipes := ⟨by simpa using hkeys (s.mem d), fun _ hh => hh⟩
  next := hnext s
  locked hn := by simpa using hlocked hn (s.mem d)

lemma stage_step {n : ℕ} {l : Label} {f : ClientEnv → Desk → Desk}
    {k : ClientEnv → Desk → Task Reply} (h : stage d n = .stmt l f k) (e : ClientEnv) (s : Desk) :
    k e s = stage d (n + 1) ∧ LockStep d n s (f e s) := by
  match n, h with
  | 0, h =>
    cases h
    refine ⟨rfl, lockStep_write (n := 0) (g := ({ · with svk := none }))
      (fun m => ⟨by simp [falls], falls_refl _, falls_refl _⟩) (fun s h _ => ?_) (fun _ _ => rfl) s⟩
    exact ⟨fun _ => by simp, by omega, by omega, by omega⟩
  | 1, h =>
    cases h
    refine ⟨rfl, lockStep_write (n := 1) (g := ({ · with dek := none }))
      (fun m => ⟨falls_refl _, by simp [falls], falls_refl _⟩) (fun s h _ => ?_) (fun _ _ => rfl) s⟩
    exact ⟨fun _ => by simpa using h.svk (by decide), fun _ => by simp, by omega, by omega⟩
  | 2, h =>
    cases h
    refine ⟨rfl, lockStep_write (n := 2) (g := ({ · with mk := none }))
      (fun m => ⟨falls_refl _, falls_refl _, by simp [falls]⟩) (fun s h _ => ?_) (fun _ _ => rfl) s⟩
    exact ⟨fun _ => by simpa using h.svk (by decide), fun _ => by simpa using h.dek (by decide),
      fun _ => by simp, by omega⟩
  | 3, h =>
    cases h
    exact ⟨rfl, ⟨keysFall_refl _, fun _ _ => rfl⟩,
      fun h _ => ⟨fun _ => h.svk (by decide), fun _ => h.dek (by decide),
        fun _ => h.masterKey (by decide), fun _ => rfl⟩, fun _ => rfl⟩
  | 4, h =>
    cases h
    exact ⟨rfl, lockStep_write (n := 4) (g := ({ · with locked := true }))
      (fun m => ⟨falls_refl _, falls_refl _, falls_refl _⟩) (fun s h hn => by omega)
      (fun hn => by omega) s⟩
  | 5, h =>
    cases h
    exact ⟨rfl, lockStep_write (n := 5) (g := fun m => { m with bus := m.bus ++ [.vaultLocked] })
      (fun m => ⟨falls_refl _, falls_refl _, falls_refl _⟩) (fun s h hn => by omega)
      (fun _ _ => rfl) s⟩
  | n + 6, h => cases h

lemma progress_stage (n : ℕ) : progress (stage d n).next = if n ≤ 4 then n else 0 := by
  match n with
  | 0 => rfl
  | 1 => rfl
  | 2 => rfl
  | 3 => rfl
  | 4 => rfl
  | 5 => rfl
  | n + 6 => simp [stage, progress]

/-! ### What runs keep -/

/-- Where a call may be. -/
structure At (d : ℕ) (q : Req) (p : Task Reply) : Prop where
  lock : q = .lock → ∃ n, p = stage d n
  loose : q ≠ .lock → Steps (Loose d) p
  opens : opener q = true → DeskOpens d p ∨ DeskFalls d p

lemma at_code (w : World) (q : Req) : At d q (code X d q) where
  lock hq := by
    subst hq
    exact ⟨0, rfl⟩
  loose hq := loose_code hq w
  opens hq := opens_code hq

lemma at_next {q : Req} {l : Label} {f : ClientEnv → Desk → Desk}
    {k : ClientEnv → Desk → Task Reply} (h : At d q (.stmt l f k)) (e : ClientEnv) (s : Desk) :
    At d q (k e s) where
  lock hq := by
    obtain ⟨n, hn⟩ := h.lock hq
    exact ⟨n + 1, (stage_step hn.symm e s).1⟩
  loose hq := (h.loose hq e s).2
  opens hq := by
    rcases h.opens hq with ho | hf
    · exact (ho e s).imp_right (·.2)
    · exact .inr (hf e s).2

/-- What a lock under way has wiped is gone; and while the vault is locked, everything is, or an
unlock or a recovery is about to open it. -/
structure Inv (d : ℕ) (σ : DeskSys) : Prop where
  gone : ∀ c ∈ σ.calls, Gone d (progress c.prog.next) σ.shared
  clean : (σ.shared.mem d).locked = true → Wiped d σ.shared ∨
    ∃ c ∈ σ.calls, opener c.req = true ∧ DeskOpens d c.prog

/-- No lock has begun where an operation other than a lock is about to go on. -/
lemma progress_loose {p : Task Reply} (h : Steps (Loose d) p) (e : ClientEnv) (s : Desk) :
    progress p.next = 0 := by
  cases p with
  | ret a => rfl
  | stmt l f k => exact (h e s).1.name

lemma progress_code (s : Desk) (q : Req) : progress (code X d q).next = 0 := by
  by_cases hlock : q = .lock
  · subst hlock
    exact progress_stage 0
  · exact progress_loose (loose_code hlock s.world) ⟨0, 0, false, 0⟩ s

/-- A step of a lock. -/
lemma inv_lock {σ : DeskSys} {i : ℕ} {e : ClientEnv} {tr : List DeskEv} {n : ℕ} {l : Label}
    {f : ClientEnv → Desk → Desk} {k : ClientEnv → Desk → Task Reply}
    (hc : σ.calls[i]? = some ⟨.lock, tr, .stmt l f k⟩) (hn : stage d n = .stmt l f k)
    (h : Inv d σ) : Inv d ⟨f e σ.shared,
      σ.calls.set i ⟨.lock, tr ++ [⟨l, e, σ.shared, f e σ.shared⟩], k e σ.shared⟩⟩ := by
  obtain ⟨hk, hstep⟩ := stage_step hn e σ.shared
  have hgone := h.gone _ (List.mem_of_getElem? hc)
  rw [← hn, progress_stage] at hgone
  refine ⟨fun c hmem => ?_, fun hl => ?_⟩
  · rcases List.mem_or_eq_of_mem_set hmem with hmem | rfl
    · exact (h.gone c hmem).wipes hstep.wipes
    · dsimp only
      rw [hk, progress_stage]
      split
      · next hle =>
        rw [if_pos (by omega)] at hgone
        exact hstep.next hgone (by omega)
      · exact gone_zero _
  · by_cases h4 : n = 4
    · subst h4
      exact .inl (hgone.wiped.kept hstep.wipes)
    · rw [hstep.locked h4] at hl
      refine (h.clean hl).imp (·.kept hstep.wipes) ?_
      rintro ⟨c, hmem, ho, hopens⟩
      rcases mem_set_of_mem hc hmem with rfl | hmem
      · cases ho
      · exact ⟨c, hmem, ho, hopens⟩

/-- A step of another operation. -/
lemma inv_loose {σ : DeskSys} {i : ℕ} {e : ClientEnv} {q : Req} {tr : List DeskEv} {l : Label}
    {f : ClientEnv → Desk → Desk} {k : ClientEnv → Desk → Task Reply}
    (hc : σ.calls[i]? = some ⟨q, tr, .stmt l f k⟩) (hq : At d q (.stmt l f k)) (hne : q ≠ .lock)
    (hC : Timely d σ q ((f e σ.shared).mem d)) (h : Inv d σ) : Inv d ⟨f e σ.shared,
      σ.calls.set i ⟨q, tr ++ [⟨l, e, σ.shared, f e σ.shared⟩], k e σ.shared⟩⟩ := by
  obtain ⟨hl, hk⟩ := hq.loose hne e σ.shared
  refine ⟨fun c hmem => ?_, fun hlocked => ?_⟩
  · rcases List.mem_or_eq_of_mem_set hmem with hmem | rfl
    · exact (h.gone c hmem).kept (fun hf => hC.svk hf c hmem) (fun hf => hC.dek hf c hmem)
        (fun hf => hC.masterKey hf c hmem) hl.handles
    · dsimp only
      rw [progress_loose hk e σ.shared]
      exact gone_zero _
  have hpre : (σ.shared.mem d).locked = true := hl.staysOpen hlocked
  -- an unlock that still has to open the vault goes on, or has just opened it
  have hself : opener q = true → DeskOpens d (.stmt l f k) → ∃ c ∈ σ.calls.set i
      ⟨q, tr ++ [⟨l, e, σ.shared, f e σ.shared⟩], k e σ.shared⟩,
      opener c.req = true ∧ DeskOpens d c.prog := by
    intro ho hopens
    rcases hopens e σ.shared with hopens | ⟨hopen, -⟩
    · exact ⟨_, List.mem_set (List.getElem?_eq_some_iff.mp hc).1 _, ho, hopens⟩
    · rw [hopen] at hlocked
      cases hlocked
  rcases h.clean hpre with hw | ⟨c, hmem, ho, hopens⟩
  · have hkeep : KeysFall (σ.shared.mem d) ((f e σ.shared).mem d) →
        Wiped d (f e σ.shared) := fun hkeys => hw.kept ⟨hkeys, hl.handles⟩
    rcases hC.unlocked with hkeys | ho | hopen
    · exact .inl (hkeep hkeys)
    · rcases hq.opens ho with hopens | hfalls
      · exact .inr (hself ho hopens)
      · exact .inl (hkeep (hfalls e σ.shared).1)
    · rw [hopen] at hpre
      cases hpre
  · rcases mem_set_of_mem hc hmem with rfl | hmem
    · exact .inr (hself ho hopens)
    · exact .inr ⟨c, hmem, ho, hopens⟩

/-- **What a lock leaves.** If the keys are put in memory only while no lock is under way that has
wiped them already, and only by an unlock, a recovery, or while the vault is open, then neither a
key nor a secret handle is in memory while the vault is locked and no unlock is under way. -/
theorem lock_wipes (X : Ext Blob) (d : ℕ) (s : Desk)
    (hs : (s.mem d).locked = true → Wiped d s) (as : List DeskAct)
    (has : Along (code X d) (Orderly d) (init s) as) :
    LockedWiped d (run (code X d) (init s) as) := by
  have hinv : Inv d (run (code X d) (init s) as) := by
    refine (run_stages (K := At d) (at_code s.world) (fun q l f k h e s => at_next h e s)
      (fun σ q _ h => ?_) (fun σ i e q tr l f k hc hC _ hq h => ?_)
      ⟨by simp [init], fun hl => .inl (hs hl)⟩ has).2
    · refine ⟨fun c hmem => ?_, fun hl => (h.clean hl).imp_right ?_⟩
      · rcases List.mem_append.mp hmem with hmem | hmem
        · exact h.gone c hmem
        · rw [List.mem_singleton.mp hmem]
          dsimp only
          rw [progress_code σ.shared]
          exact gone_zero _
      · rintro ⟨c, hmem, hc⟩
        exact ⟨c, List.mem_append_left _ hmem, hc⟩
    · simp only [Orderly, hc] at hC
      by_cases hlock : q = .lock
      · subst hlock
        obtain ⟨n, hn⟩ := hq.lock rfl
        exact inv_lock hc hn.symm h
      · exact inv_loose hc hq hlock hC h
  intro hl hdone
  refine (hinv.clean hl).resolve_right ?_
  rintro ⟨c, hmem, ho, hopens⟩
  obtain ⟨a, ha⟩ := Option.isSome_iff_exists.mp (hdone c hmem ho)
  rw [Prog.result_eq_some ha] at hopens
  exact hopens

/-! ### One client -/

/-- A new client; the server has the user 7. -/
def newDesk : Desk where
  world :=
    { server := ⟨⟨[⟨7, "u", .raw 1, .raw 0, .raw 0, .raw 0, 0, 0, 0⟩], by simp⟩, .empty⟩
      devices := fun _ => ⟨⟨.empty, .empty, ⟨[⟨1, 0, 0, wrapSvk 200 100⟩], by decide⟩, .empty, .empty,
        .empty⟩, Memory.new⟩ }
  handles := []
  nextHandle := 1
  recoveryCreds := none
  recoveryPending := false

/-- Every text is an identifier. -/
def anyUuid : Ext Blob := ⟨fun _ => true, fun _ => 60⟩

/-- So many statements of the `i`-th operation. -/
def going (i n : ℕ) : List DeskAct := List.replicate n (.exec i ⟨0, 5, false, 300⟩)

/-- The client is unlocked with a password. -/
def unlocking : List DeskAct :=
  .call (.command (.unlockWithPassword 200 (wrapSvk 200 100) 7 0) nofun nofun) :: going 0 11

instance (m m' : Memory) : Decidable (KeysFall m m') :=
  decidable_of_iff (falls m.svk m'.svk = true ∧ falls m.dek m'.dek = true ∧
    falls m.mk m'.mk = true) ⟨fun h => ⟨h.1, h.2.1, h.2.2⟩, fun h => ⟨h.svk, h.dek, h.masterKey⟩⟩

instance (σ : DeskSys) (q : Req) (m : Memory) : Decidable (Timely d σ q m) :=
  decidable_of_iff
    ((falls (σ.shared.mem d).svk m.svk = false → ∀ c ∈ σ.calls, progress c.prog.next < 1) ∧
      (falls (σ.shared.mem d).dek m.dek = false → ∀ c ∈ σ.calls, progress c.prog.next < 2) ∧
      (falls (σ.shared.mem d).mk m.mk = false → ∀ c ∈ σ.calls, progress c.prog.next < 3) ∧
      (KeysFall (σ.shared.mem d) m ∨ opener q = true ∨ (σ.shared.mem d).locked = false))
    ⟨fun h => ⟨h.1, h.2.1, h.2.2.1, h.2.2.2⟩, fun h => ⟨h.svk, h.dek, h.masterKey, h.unlocked⟩⟩

instance (σ : DeskSys) : ∀ a : DeskAct, Decidable (Orderly d σ a)
  | .call _ => inferInstanceAs (Decidable True)
  | .exec i e => by
    unfold Orderly
    dsimp only
    split <;> infer_instance

/-- The client is unlocked, and the item 3 is saved. Its secret is revealed when a lock has begun. -/
def lockingUp : List DeskAct :=
  unlocking ++ .call (.command (.saveItem ⟨1, 3, "t", "", "", "[]", 0, 0, false⟩
    (encrypt (.dek 100) 3 1 (.bytes 9))) nofun nofun) :: going 1 9 ++
    .call (.revealSecret 3) :: going 2 2 ++ .call .lock :: going 3 1 ++ going 2 1 ++ going 3 5

theorem lock_wipes_revealed :
    ((run (code anyUuid 0) (init newDesk) lockingUp).shared.mem 0).locked = true ∧
    (run (code anyUuid 0) (init newDesk) lockingUp).shared.nextHandle = 2 ∧
    LockedWiped 0 (run (code anyUuid 0) (init newDesk) lockingUp) :=
  ⟨by decide +kernel, by decide +kernel,
    lock_wipes anyUuid 0 newDesk (fun _ => ⟨rfl, rfl, rfl, rfl⟩) lockingUp (by decide +kernel)⟩

/-- A rotation is under way when the client is locked, and it goes on. -/
def rotatingOn : List DeskAct :=
  unlocking ++ .call (.command (.connectSync 7) nofun nofun) :: going 1 2 ++
    .call (.command (.rotateKey 5) nofun nofun) :: going 2 15 ++ .call .lock :: going 3 6 ++
    going 2 10

/-- **A rotation puts its new key in the memory of a locked client.** -/
theorem rotation_ends_locked : ¬ ∀ (X : Ext Blob) (d : ℕ) (s : Desk) (as : List DeskAct),
    ((s.mem d).locked = true → Wiped d s) → LockedWiped d (run (code X d) (init s) as) := by
  intro h
  have hwiped := h anyUuid 0 newDesk rotatingOn (fun _ => ⟨rfl, rfl, rfl, rfl⟩)
    (by decide +kernel) (by decide +kernel)
  have hsvk := hwiped.svk
  revert hsvk
  decide +kernel

end Vautr.KeyWipe
