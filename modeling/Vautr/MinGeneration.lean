import Vautr.Effects

/-!
The minimum generation that a client knows, and what the epoch gate lets in.

A sync and a rotation set the minimum to what the server says, and an unlock sets it to the
generation it is called with. A save is checked with the generation of the item, a delete and the
streaming export with the one of the client, and the export in one piece is not checked at all.
-/

namespace Vautr.MinGeneration

open Vautr.Atomic Vautr.Session Vautr.Zoom Vautr.Sql Vautr.Server Vautr.Handlers Vautr.ClientDb
  Vautr.Crypto Vautr.Client Vautr.Orchestrator Vautr.Effects

/-- The world of one client; beside it the highest minimum it has known, whether a write or an
export was let in while its generation was below that, and whether it was started again. -/
structure Watch where
  world : World
  known : UInt64
  late : Bool
  restarted : Bool

inductive Label
  | client (l : Name)
  | admitExport

abbrev Task := Prog Watch ClientEnv Label

/-- The statements of a save and of a delete that write. -/
def isWrite : Client.Label → Bool
  | .saveItem _ => true
  | .deleteItem _ => true
  | _ => false

variable (X : Ext Blob) (d : ℕ)

/-- The memory of the client. -/
abbrev memOf (w : World) : Memory := (w.devices d).mem

/-- The higher one of what was known and what is known now. -/
def higher (known now : UInt64) : UInt64 := if known ≤ now then now else known

/-- What a statement of the client means for the rest of the state; `asked` says whether it
belongs to a save or a delete. -/
def Watch.next (s : Watch) (asked : Bool) (l : Client.Label) (e : ClientEnv) (w : World) :
    Watch where
  world := w
  known := higher s.known (memOf d w).minEncKeyGen
  late := s.late || asked && isWrite l && !e.fault && decide ((memOf d s.world).localGen < s.known)
  restarted := s.restarted || decide (l = .restart)

/-- An operation of the client. -/
def onClient {α : Type} (asked : Bool) : Code α → Task α
  | .ret a => .ret a
  | .stmt l f k =>
    .stmt (.client l) (fun e s => s.next d asked l.2 e (f e s.world)) fun e s =>
      onClient asked (k e s.world)

/-! ### Exports -/

/-- A row of the export: the overview and the secret. -/
abbrev ExportRow := OverviewRow × Plain

def exportBlocked : String := "export blocked: vault locked or in read-only gate (EpochMismatch)"

/-- What `export_vault` checks first. -/
def exportGate : Client.Op Unit := do
  if ← readMemory d (·.locked) then throw (.text exportBlocked)
  let localGen ← readMemory d (·.localGen)
  if localGen < (← readMemory d (·.minEncKeyGen)) then throw (.text exportBlocked)

def getOverview (uuid : Ident) : Client.Op OverviewRow := do
  match ← readDb d (.readVersion uuid) "get_overview" (·.overviews.get uuid) with
  | none => throw (.text "get_overview: overview not found")
  | some o => return o

/-- The loop over the items of `export_vault`. -/
def exportRows : List (OverviewRow × Blob) → Client.Op (List ExportRow)
  | [] => return []
  | (o, payload) :: rest => do
    let overview ← getOverview d o.uuid
    let dek ← require d "vault locked" (·.dek)
    match decrypt dek o.uuid (asU64 o.encKeyGen) payload with
    | none => throw (.text ("export decrypt " ++ toString o.uuid ++ ": secret decrypt failed"))
    | some pt =>
      let rows ← exportRows rest
      return (overview, pt) :: rows

/-- What `export_vault` does after its checks. -/
def exportItems : Client.Op (List ExportRow) := do
  exportRows d (← readDb d .listLocalItems "list local items" joined)

/-- What `export_to_json` checks first. -/
def jsonGate : Client.Op DKey := do
  requireUnlocked d
  require d "vault locked" (·.dek)

/-- The loop over the items of `export_to_json`. -/
def jsonRows (dek : DKey) : List (OverviewRow × Blob) → Client.Op (List ExportRow)
  | [] => return []
  | (o, payload) :: rest => do
    match decrypt dek o.uuid (asU64 o.encKeyGen) payload with
    | none => throw (.text ("export decrypt " ++ toString o.uuid))
    | some pt =>
      let overview ← getOverview d o.uuid
      let rows ← jsonRows dek rest
      return (overview, pt) :: rows

/-- `list_enc_key_gens`, and what `export_to_json` does with it. -/
def jsonItems (dek : DKey) : Client.Op (List ExportRow) := do
  let rows ← readDb d .listLocalItems "list_enc_key_gens" fun db =>
    (joined db).insertionSort fun a b => a.1.encKeyGen ≤ b.1.encKeyGen
  jsonRows d dek rows

/-- An export that has passed its checks. -/
def admitExport : Task Unit :=
  Prog.atom .admitExport fun _ s =>
    ({ s with late := s.late || decide ((memOf d s.world).localGen < s.known) }, ())

/-- An export: its checks, and what it does then. -/
def exportBy {α : Type} (gate : Client.Op α) (items : α → Client.Op (List ExportRow)) :
    Task (Except ClientError (List ExportRow)) := do
  match ← onClient d false gate.run with
  | .error e => return .error e
  | .ok a => do admitExport d; onClient d false (items a).run

/-! ### Requests -/

inductive Req
  | command (q : Cmd)
  | exportVault
  | exportToJson

inductive Reply
  | command (r : Except ClientError CmdReply)
  | rows (r : Except ClientError (List ExportRow))

/-- The command is a save or a delete. -/
def asksWrite : Cmd → Bool
  | .saveItem _ _ => true
  | .deleteItem _ => true
  | _ => false

def code : Req → Task Reply
  | .command q => do return .command (← onClient d (asksWrite q) (Orchestrator.code X d q))
  | .exportVault => do return .rows (← exportBy d (exportGate d) fun () => exportItems d)
  | .exportToJson => do return .rows (← exportBy d (jsonGate d) (jsonItems d))

/-! ### What a run should keep -/

/-- Nothing was let in too late, and the minimum that is known has not become lower. When the
client is started again, it knows no minimum before it is unlocked. -/
structure Kept (s : Watch) : Prop where
  le : (memOf d s.world).minEncKeyGen ≤ s.known
  opened : (memOf d s.world).locked = false → s.known ≤ (memOf d s.world).minEncKeyGen
  running : s.restarted = false → s.known ≤ (memOf d s.world).minEncKeyGen
  late : s.late = false

/-- What a statement has to meet: the server does not say a lower generation than the client has
known. -/
def Told (k : UInt64) (l : Client.Label) (db : Db Blob) : Prop :=
  match l with
  | .server (.getUserById user) => ∀ row ∈ db.users.get user, k ≤ asU64 row.minEncKeyGen
  | .rotateAnswer _ _ (.ok resp) => k ≤ asU64 resp.minEncKeyGen
  | _ => True

/-- What a request has to meet: an unlock is called with a generation that is not lower than what
the client has known; while the client is behind, no item is saved with a generation that is
higher than the one of the client, and nothing is exported in one piece. -/
def Fair (s : Watch) : Req → Prop
  | .command (.unlockWithPassword _ _ _ gen) => s.known ≤ gen
  | .command (.unlockWithRawKey _ gen) => s.known ≤ gen
  | .command (.saveItem item _) => (memOf d s.world).localGen < s.known →
    item.encKeyGen ≤ (memOf d s.world).localGen
  | .exportToJson => (memOf d s.world).locked = false → s.known ≤ (memOf d s.world).localGen
  | _ => True

variable {X d} {α β ε : Type} {k : UInt64}

/-! ### Order -/

lemma higher_of_le {a b : UInt64} (h : a ≤ b) : higher a b = b := if_pos h

lemma higher_of_ge {a b : UInt64} (h : b ≤ a) : higher a b = a := by
  unfold higher
  split <;> grind

lemma le_higher_left (a b : UInt64) : a ≤ higher a b := by
  unfold higher
  split <;> grind

lemma le_higher (a b : UInt64) : b ≤ higher a b := by
  unfold higher
  split <;> grind

/-! ### What a statement does to the minimum -/

abbrev WorldEv := Ev World ClientEnv Name

/-- The minimum, the generation and the lock of the device stay. -/
structure SameGate (d : ℕ) (w w' : World) : Prop where
  min : (memOf d w').minEncKeyGen = (memOf d w).minEncKeyGen
  gen : (memOf d w').localGen = (memOf d w).localGen
  locked : (memOf d w').locked = (memOf d w).locked

/-- A statement of a command, when the client has known `k`: the minimum stays, or it is set to
what is at least `k` and not lower; and the vault is opened only when the minimum is at least
`k`. -/
inductive Rises (d : ℕ) (k : UInt64) (ev : WorldEv) : Prop
  | keep (hname : ev.name.2 ≠ .restart)
    (hmin : (memOf d ev.post).minEncKeyGen = (memOf d ev.pre).minEncKeyGen)
    (hlocked : (memOf d ev.post).locked = false → (memOf d ev.pre).locked = false)
  | raise (hname : ev.name.2 ≠ .restart) (hk : k ≤ (memOf d ev.post).minEncKeyGen)
    (hle : (memOf d ev.pre).minEncKeyGen ≤ (memOf d ev.post).minEncKeyGen)
    (hlocked : (memOf d ev.post).locked = (memOf d ev.pre).locked)
  | unlock (hname : ev.name.2 ≠ .restart)
    (hmin : (memOf d ev.post).minEncKeyGen = (memOf d ev.pre).minEncKeyGen)
    (hk : k ≤ (memOf d ev.pre).minEncKeyGen)

/-- The statement leaves the gate alone. -/
structure Quiet (d : ℕ) (ev : WorldEv) : Prop where
  name : ev.name.2 ≠ .restart
  same : SameGate d ev.pre ev.post

lemma sameGate_refl (w : World) : SameGate d w w := ⟨rfl, rfl, rfl⟩

lemma Quiet.rises {ev : WorldEv} (h : Quiet d ev) : Rises d k ev :=
  .keep h.name h.same.min fun hl => h.same.locked.symm.trans hl

lemma sameGate_setDevice {w : World} {c : Device}
    (hmin : c.mem.minEncKeyGen = (memOf d w).minEncKeyGen)
    (hgen : c.mem.localGen = (memOf d w).localGen) (hlocked : c.mem.locked = (memOf d w).locked) :
    SameGate d w (w.setDevice d c) :=
  ⟨by simp [memOf, hmin], by simp [memOf, hgen], by simp [memOf, hlocked]⟩

lemma ordinary_ne {l : Client.Label} (h : ordinary l = true) : l ≠ .restart := by
  rintro rfl
  cases h

lemma rotating_ne {l : Client.Label} (h : rotating l = true) : l ≠ .restart := by
  rintro rfl
  cases h

lemma storesLists_ne {l : Client.Label} (h : storesLists l = true) : l ≠ .restart := by
  rintro rfl
  cases h

lemma permitsLists_quiet : PermitsLists d anyEffect (Quiet d) where
  read _ := trivial
  memory _ _ _ _ hl hm :=
    ⟨ordinary_ne hl, sameGate_setDevice hm.minEncKeyGen hm.localGen hm.locked⟩
  server _ _ _ _ _ := ⟨nofun, rfl, rfl, rfl⟩
  database _ _ _ _ _ hl _ _ := ⟨ordinary_ne hl, sameGate_setDevice rfl rfl rfl⟩
  cursor _ _ _ := ⟨nofun, sameGate_setDevice rfl rfl rfl⟩
  clean _ _ := ⟨nofun, sameGate_setDevice rfl rfl rfl⟩
  lists _ _ _ _ _ hl _ := ⟨storesLists_ne hl, sameGate_setDevice rfl rfl rfl⟩

lemma permitsItems_quiet : PermitsItems d anyEffect (Quiet d) where
  toPermitsDb := permitsLists_quiet.toPermitsDb
  stay _ _ _ hl := ⟨rotating_ne hl, sameGate_refl _⟩
  items _ _ _ _ _ hl _ := ⟨rotating_ne hl, sameGate_setDevice rfl rfl rfl⟩

lemma quiet_write {g : Memory → Memory} (hmin : ∀ m, (g m).minEncKeyGen = m.minEncKeyGen)
    (hgen : ∀ m, (g m).localGen = m.localGen) (hlocked : ∀ m, (g m).locked = m.locked) :
    Promises (Quiet d) (writeMemory d g : ExceptT ε Code Unit).run :=
  guarantees_onMemory fun _ _ => ⟨nofun, sameGate_setDevice (hmin _) (hgen _) (hlocked _)⟩

/-! ### The flow of a command -/

section Flow

variable {J : World → Prop}

/-- What the server says, where the client has known `k`. -/
abbrev TellsEv (k : UInt64) (ev : WorldEv) : Prop := Told k ev.name.2 ev.pre.server

/-- A part of a command that begins in `J`, while the others leave the gate alone. -/
abbrev Flows (d : ℕ) (k : UInt64) (J : World → Prop) (P : α → World → Prop) (p : Code α) : Prop :=
  Secures (SameGate d) (TellsEv k) (Rises d k) J P p

/-- The minimum is not above `k`. -/
def Below (d : ℕ) (k : UInt64) (w : World) : Prop := (memOf d w).minEncKeyGen ≤ k

lemma stable_below : Stable (SameGate d) (Below d k) := by
  intro w w' hw h
  rw [Below, h.min]
  exact hw

lemma flows_quiet {p : Code α} (hp : Promises (Quiet d) p) (hJ : Stable (SameGate d) J) :
    Flows d k J (fun _ w => J w) p :=
  secures_stable hp hJ fun _ hev => ⟨hev.rises, hev.same⟩

/-- A part of a command of which nothing else is known. -/
abbrev Fine (d : ℕ) (k : UInt64) (J : World → Prop) (p : Code α) : Prop :=
  Flows d k J (fun _ _ => True) p

lemma fine_quiet {p : Code α} (hp : Promises (Quiet d) p) : Fine d k J p :=
  secures_of_guarantees (guarantees_mono (fun _ h => h.rises) hp) fun _ _ => trivial

lemma fine_pure (a : α) : Fine d k J (pure a : ExceptT ε Code α).run :=
  secures_ret fun _ _ => trivial

/-- A quiet part, and the rest. -/
lemma flows_then {x : ExceptT ε Code β} {f : β → ExceptT ε Code α}
    (hx : Promises (Quiet d) x.run) (hJ : Stable (SameGate d) J)
    (hf : ∀ b, Fine d k J (f b).run) : Fine d k J (x >>= f).run :=
  secures_bind_run (flows_quiet hx hJ) hf fun _ _ _ => trivial

/-- The minimum is set. -/
lemma flows_setMin {g : UInt64} (hk : k ≤ g) (hJ : Stable (SameGate d) J)
    (hle : ∀ w, J w → (memOf d w).minEncKeyGen ≤ g) :
    Flows d k J (fun _ w => (memOf d w).minEncKeyGen = g)
      (writeMemory d ({ · with minEncKeyGen := g }) : ExceptT ε Code Unit).run := by
  refine secures_atom hJ fun e w hw _ => ⟨.raise nofun ?_ ?_ ?_, ?_⟩
  · simpa [memOf] using hk
  · simpa [memOf] using hle w hw
  · simp [memOf]
  · simp [memOf]

/-- The generation of the client is set, which leaves the minimum. -/
lemma flows_setGen (g : UInt64) {K : UInt64 → Prop} :
    Flows d k (fun w => K (memOf d w).minEncKeyGen) (fun _ w => K (memOf d w).minEncKeyGen)
      (writeMemory d ({ · with localGen := g }) : ExceptT ε Code Unit).run := by
  refine secures_atom (fun w w' hw h => ?_) fun e w hw _ => ⟨.keep nofun ?_ ?_, ?_⟩
  · rwa [h.min]
  · simp [memOf]
  · simp [memOf]
  · simpa [memOf] using hw

lemma stable_min {g : UInt64} :
    Stable (SameGate d) fun w => (memOf d w).minEncKeyGen = g := fun _ _ hw h => h.min.trans hw

/-- The vault is opened with a generation that is not lower than `k`. -/
lemma fine_openVault {g : UInt64} (hk : k ≤ g) : Fine d k (Below d k) (openVault d g).run := by
  have hload : Promises (Quiet d) (loadPersistedCursor d).run := by
    refine guarantees_bind_except (guarantees_inspect (permitsLists_quiet.readDb rfl)) fun r => ?_
    cases r <;> exact quiet_write (fun _ => rfl) (fun _ => rfl) fun _ => rfl
  have hlist : Promises (Quiet d) (loadBlacklist d).run := by
    refine guarantees_bind_except (guarantees_inspect (permitsLists_quiet.readDb rfl)) fun r => ?_
    cases r with
    | error e => exact guarantees_pure_except _
    | ok t => exact guarantees_onMemory fun _ _ => ⟨nofun, sameGate_setDevice rfl rfl rfl⟩
  refine flows_then hload stable_below fun _ =>
    secures_bind_run (flows_setGen g (K := (· ≤ k))) (fun _ => ?_) fun _ _ _ => trivial
  refine secures_bind_run (flows_setMin hk stable_below fun w hw => UInt64.le_trans hw hk) (fun _ => ?_)
    fun _ _ _ => trivial
  refine flows_then hlist stable_min fun _ => ?_
  refine secures_atom stable_min fun e w hw _ => ⟨.unlock nofun ?_ ?_, trivial⟩
  · simp [memOf]
  · rw [show (memOf d w).minEncKeyGen = g from hw]
    exact hk

lemma quiet_setKey {g : Memory → Memory} (hg : ∀ m, (g m).minEncKeyGen = m.minEncKeyGen ∧
    (g m).localGen = m.localGen ∧ (g m).locked = m.locked) :
    Promises (Quiet d) (writeMemory d g : ExceptT ε Code Unit).run :=
  quiet_write (fun m => (hg m).1) (fun m => (hg m).2.1) fun m => (hg m).2.2

lemma quiet_same {l : Client.Label} (hl : l ≠ .restart) (e : ClientEnv) (w : World) :
    Quiet d ⟨(d, l), e, w, w⟩ := ⟨hl, sameGate_refl _⟩

/-- A request to the server, and what is known of its answer. -/
lemma flows_roundTrip {answer : Except Api.ApiError α → Client.Label} {x : ServerHandler Blob α}
    {K : Except Api.ApiError α → Prop} {P : α → Prop} (hname : ∀ r, answer r ≠ .restart)
    (hx : Flows d k (Below d k) (fun r w => Below d k w ∧ K r) (zoom (onServer d) x.run))
    (hanswer : ∀ a db, K (.ok a) → Told k (answer (.ok a)) db → P a) :
    Flows d k (Below d k) (fun r w => Below d k w ∧ IfOk P r) (roundTrip d answer x).run := by
  unfold roundTrip
  refine secures_bind_run (flows_quiet (guarantees_message fun e w => quiet_same (l := .send) nofun e w)
    stable_below) (fun _ => ?_) fun _ _ hw => ⟨hw, trivial⟩
  refine secures_bind_run (P := fun r w => Below d k w ∧ ∀ a ∈ r.toOption, K a) ?_ (fun r => ?_)
    fun _ _ hw => ⟨hw.1, trivial⟩
  · rw [ExceptT.run_lift]
    refine secures_bind hx fun r => secures_ret fun w hw => ⟨hw.1, ?_⟩
    intro a ha
    obtain rfl : r = a := Option.some.inj ha
    exact hw.2
  refine secures_mono (J := fun w => Below d k w ∧ K r) (fun w hw => ⟨hw.1, hw.2 r rfl⟩)
    (fun _ _ h => h) (secures_of_fact fun hK => ?_)
  refine secures_atom stable_below fun e w hw htold => ⟨(quiet_same (hname r) e w).rises, hw, ?_⟩
  cases hf : e.fault with
  | true => simp [IfOk]
  | false =>
    cases r with
    | error err => simp [Except.mapError, IfOk]
    | ok a =>
      have hP : P a := hanswer a w.server hK htold
      simpa [Except.mapError, IfOk] using hP

/-- The server says a generation that is not lower than `k`. -/
lemma flows_accountStatusGen (user : Ident) :
    Flows d k (Below d k) (fun r w => Below d k w ∧ IfOk (k ≤ ·) r) (accountStatusGen d user).run := by
  refine secures_bind_run (flows_roundTrip (K := IfOk fun gen => k ≤ asU64 gen)
    (P := fun gen => k ≤ asU64 gen) (fun _ => nofun) ?_ fun _ _ hK _ => hK)
    (fun gen => secures_ret fun w hw => hw) fun _ _ hw => hw
  refine secures_stmt stable_below fun e w hw htold => ⟨?_, Below d k, hw, ?_⟩
  · exact (permitsLists_quiet.server _ e w _ trivial).rises
  have hfault : Database.Faulty.fault ((onServer d).inp e) = e.fault := rfl
  cases hf : e.fault with
  | true =>
    simp only [hfault, hf, if_true]
    exact secures_ret fun w hw => ⟨hw, trivial⟩
  | false =>
    simp only [hfault, hf, Bool.false_eq_true, if_false]
    cases hrow : w.server.users.get user with
    | none =>
      rw [show ((onServer d).get w).users.get user = none from hrow]
      exact secures_ret fun w hw => ⟨hw, trivial⟩
    | some row =>
      rw [show ((onServer d).get w).users.get user = some row from hrow]
      exact secures_ret fun w hw => ⟨hw, htold row hrow⟩

/-- The answer to a rotation is not lower than `k`. -/
lemma flows_rotateKeyRequest (user : Ident) (newGen : UInt64) (blob : Blob) :
    Flows d k (Below d k) (fun r w => Below d k w ∧ IfOk (k ≤ ·) r)
      (rotateKeyRequest X d user newGen blob).run := by
  have hrun : Guarantees (fun _ _ _ => True) (fun _ => True)
      (accountRotateKey X ⟨user, asI64 newGen, some blob⟩).run := guarantees_true _
  have hserver : Promises (Quiet d)
      (zoom (onServer d) (accountRotateKey X ⟨user, asI64 newGen, some blob⟩).run) :=
    guarantees_zoom hrun (fun _ _ _ _ => trivial) fun l e w s _ =>
      permitsLists_quiet.server l e w s trivial
  refine secures_bind_run (flows_roundTrip (K := fun _ => True)
    (P := fun resp => k ≤ asU64 resp.minEncKeyGen) (fun _ => nofun)
    (secures_mono (fun _ h => h) (fun _ _ h => ⟨h, trivial⟩) (flows_quiet hserver stable_below))
    fun resp db _ htold => htold) (fun resp => secures_ret fun w hw => hw) fun _ _ hw => hw

lemma fine_updateEpochGate (user : Ident) (gen : UInt64) :
    Fine d k (Below d k) (updateEpochGate d user gen).run := by
  refine secures_bind_run (P := fun r w => Below d k w ∧ IfOk (IfOk (k ≤ ·)) r) ?_ (fun r => ?_)
    fun _ _ _ => trivial
  · unfold inspect
    rw [ExceptT.run_lift]
    exact secures_bind (flows_accountStatusGen user) fun r => secures_ret fun _ hw => hw
  refine secures_of_fact fun hr => ?_
  cases r with
  | error e => exact fine_pure _
  | ok g =>
    exact secures_bind_run (flows_setMin hr stable_below fun w hw => UInt64.le_trans hw hr)
      (fun _ => fine_quiet permitsLists_quiet.publish) fun _ _ _ => trivial

lemma fine_sync : Fine d k (Below d k) (sync X d).run :=
  flows_then permitsLists_quiet.require stable_below fun _ =>
    flows_then permitsLists_quiet.readMemory stable_below fun _ =>
    flows_then permitsLists_quiet.publish stable_below fun _ =>
    flows_then permitsLists_quiet.readMemory stable_below fun _ =>
    flows_then (permitsLists_quiet.syncPages _ _ _ _) stable_below fun _ =>
    flows_then (permitsLists_quiet.advanceCursor _ _) stable_below fun _ =>
    secures_bind_run (fine_updateEpochGate _ _) (fun _ => fine_quiet
      (guarantees_bind_except permitsLists_quiet.persistBlacklistIfDirty fun _ =>
        permitsLists_quiet.publish)) fun _ _ _ => trivial

lemma fine_rotateItems (user : Ident) (mk oldSvk newSvk : Key) {gen : UInt64} (hk : k ≤ gen) :
    Fine d k (Below d k) (rotateItems X d user mk oldSvk newSvk gen).run := by
  refine secures_bind_run (flows_setMin hk stable_below fun w hw => UInt64.le_trans hw hk) (fun _ => ?_)
    fun _ _ _ => trivial
  refine flows_then permitsItems_quiet.publish stable_min fun _ =>
    flows_then (guarantees_readDb fun e w => permitsItems_quiet.stay _ e w rfl) stable_min fun _ =>
    flows_then (permitsItems_quiet.rotateBatches _ _ _ _ _) stable_min fun _ =>
    flows_then (permitsItems_quiet.onItems rfl fun db db' a hdb => ?_) stable_min fun _ =>
    secures_bind_run (flows_setGen gen (K := (· = gen))) (fun _ =>
      secures_bind_run (flows_setMin hk stable_min fun w hw => by grind) (fun _ => fine_quiet
        (guarantees_bind_except (quiet_setKey fun _ => ⟨rfl, rfl, rfl⟩) fun _ =>
          guarantees_bind_except (quiet_setKey fun _ => ⟨rfl, rfl, rfl⟩) fun _ =>
          permitsItems_quiet.publish)) fun _ _ _ => trivial) fun _ _ _ => trivial
  obtain ⟨db'', hblob, heq⟩ := Option.map_eq_some_iff.mp hdb
  obtain rfl : db'' = db' := congrArg Prod.fst heq
  exact .storeBlob _ db _ hblob

/-- What a command has to meet, for a client of the generation `gen` that has known `k`. -/
def FairCmd (k gen : UInt64) : Cmd → Prop
  | .unlockWithPassword _ _ _ g => k ≤ g
  | .unlockWithRawKey _ g => k ≤ g
  | .saveItem item _ => gen < k → item.encKeyGen ≤ gen
  | _ => True

/-- A command that neither writes an item nor starts the client. -/
def Plainly (q : Cmd) : Prop := asksWrite q = false ∧ q ≠ .restart

/-- **What a command does to the minimum**, while the others leave the gate alone. -/
lemma fine_exec {gen : UInt64} {q : Cmd} (hq : Plainly q) (hfair : FairCmd k gen q) :
    Fine d k (Below d k) (exec X d q).run := by
  obtain ⟨hwrite, hrestart⟩ := hq
  cases q with
  -- no writes and no restart here
  | saveItem item payload => cases hwrite
  | deleteItem uuid => cases hwrite
  | restart => exact absurd rfl hrestart
  | connectSync user =>
    exact fine_quiet (guarantees_bind_except (guarantees_bind_except
      (quiet_setKey fun _ => ⟨rfl, rfl, rfl⟩) fun _ => quiet_setKey fun _ => ⟨rfl, rfl, rfl⟩)
      fun _ => guarantees_pure_except _)
  | disconnectSync =>
    exact fine_quiet (guarantees_bind_except (quiet_setKey fun _ => ⟨rfl, rfl, rfl⟩)
      fun _ => guarantees_pure_except _)
  -- the ways to unlock store the generation as it is read
  | unlockWithPassword mk wrapped user g =>
    refine secures_bind_run (P := fun _ _ => True) ?_ (fun _ => fine_pure _) fun _ _ _ => trivial
    unfold unlockWithPassword
    split
    · exact secures_ret fun _ _ => trivial
    · exact secures_ret fun _ _ => trivial
    · exact flows_then (quiet_setKey fun _ => ⟨rfl, rfl, rfl⟩) stable_below fun _ =>
        flows_then (quiet_setKey fun _ => ⟨rfl, rfl, rfl⟩) stable_below fun _ =>
        flows_then (quiet_setKey fun _ => ⟨rfl, rfl, rfl⟩) stable_below fun _ =>
        flows_then (quiet_setKey fun _ => ⟨rfl, rfl, rfl⟩) stable_below fun _ => fine_openVault hfair
  | unlockWithRawKey key g =>
    refine secures_bind_run (P := fun _ _ => True) ?_ (fun _ => fine_pure _) fun _ _ _ => trivial
    exact flows_then (quiet_setKey fun _ => ⟨rfl, rfl, rfl⟩) stable_below fun _ =>
      flows_then (quiet_setKey fun _ => ⟨rfl, rfl, rfl⟩) stable_below fun _ =>
      flows_then (quiet_setKey fun _ => ⟨rfl, rfl, rfl⟩) stable_below fun _ => fine_openVault hfair
  | lock =>
    -- a lock wipes the keys, and keeps the generations
    have hkey : ∀ {g : Memory → Memory}, (∀ m, (g m).minEncKeyGen = m.minEncKeyGen ∧
        (g m).localGen = m.localGen ∧ (g m).locked = m.locked) →
        Promises (Rises d k) (writeMemory d g : ExceptT ClientError Code Unit).run :=
      fun hg => guarantees_mono (fun _ h => h.rises) (quiet_setKey hg)
    have hlock : Promises (Rises d k)
        (writeMemory d ({ · with locked := true }) : ExceptT ClientError Code Unit).run :=
      guarantees_onMemory fun _ w => .keep nofun (by simp [memOf]) (by simp [memOf])
    refine secures_of_guarantees ?_ fun _ _ => trivial
    exact guarantees_bind_except (guarantees_bind_except (hkey fun _ => ⟨rfl, rfl, rfl⟩) fun _ =>
      guarantees_bind_except (hkey fun _ => ⟨rfl, rfl, rfl⟩) fun _ =>
      guarantees_bind_except (hkey fun _ => ⟨rfl, rfl, rfl⟩) fun _ =>
      guarantees_bind_except hlock fun _ =>
      guarantees_mono (fun _ h => h.rises) permitsLists_quiet.publish) fun _ =>
      guarantees_pure_except _
  | markIgnored uuid v toxic =>
    exact fine_quiet (guarantees_bind_except (guarantees_bind_except
      (quiet_setKey fun _ => ⟨rfl, rfl, rfl⟩) fun _ => quiet_setKey fun _ => ⟨rfl, rfl, rfl⟩)
      fun _ => guarantees_pure_except _)
  | sync => exact secures_bind_run fine_sync (fun _ => fine_pure _) fun _ _ _ => trivial
  | pushLocalChanges =>
    exact fine_quiet (guarantees_bind_except permitsLists_quiet.pushLocalChanges fun _ =>
      guarantees_pure_except _)
  | resolveConflict uuid v force =>
    exact fine_quiet (guarantees_bind_except (permitsLists_quiet.resolveConflict _ _ _) fun _ =>
      guarantees_pure_except _)
  -- a rotation sets the generation that the server has confirmed
  | rotateKey g =>
    refine secures_bind_run (P := fun _ _ => True) ?_ (fun _ => fine_pure _) fun _ _ _ => trivial
    refine flows_then permitsLists_quiet.requireUnlocked stable_below fun _ =>
      flows_then permitsLists_quiet.require stable_below fun user =>
      flows_then permitsLists_quiet.require stable_below fun _ =>
      flows_then permitsLists_quiet.require stable_below fun mk =>
      flows_then permitsLists_quiet.require stable_below fun oldSvk =>
      flows_then (guarantees_onMemory fun _ _ => ⟨nofun, sameGate_setDevice rfl rfl rfl⟩)
        stable_below fun newSvk => ?_
    refine secures_bind_run (P := fun r w => Below d k w ∧ IfOk (k ≤ ·) r) ?_ (fun g =>
      secures_of_fact fun hg => fine_rotateItems _ _ _ _ hg) fun _ _ _ => trivial
    refine secures_bind (flows_rotateKeyRequest _ _ _) fun r => secures_ret fun w hw => ?_
    cases r <;> exact hw

end Flow

/-! ### Saves and deletes -/

section Writes

variable {J : World → Prop} {gen : UInt64}

/-- A write is let in only when the generation of the client is not lower than `k` and than the
minimum. -/
def Admits (d : ℕ) (k : UInt64) (ev : WorldEv) : Prop :=
  isWrite ev.name.2 = true → ev.inp.fault = false →
    k ≤ (memOf d ev.pre).localGen ∧ (memOf d ev.pre).minEncKeyGen ≤ (memOf d ev.pre).localGen

/-- A part of a save or a delete. -/
abbrev Writes (d : ℕ) (k : UInt64) (J : World → Prop) (P : α → World → Prop) (p : Code α) : Prop :=
  Secures (SameGate d) (TellsEv k) (fun ev => Rises d k ev ∧ Admits d k ev) J P p

/-- The statement is no write, and it leaves the gate alone. -/
structure Idle (d : ℕ) (ev : WorldEv) : Prop extends Quiet d ev where
  noWrite : isWrite ev.name.2 = false

lemma Idle.admits {ev : WorldEv} (h : Idle d ev) : Admits d k ev := by
  intro hw
  rw [h.noWrite] at hw
  cases hw

lemma idle_onMemory {l : Client.Label} {g : ClientEnv → Memory → Memory × α}
    (hl : l ≠ .restart ∧ isWrite l = false) (hg : ∀ e m, Steady m (g e m).1) :
    Promises (Idle d) (onMemory d l g : ExceptT ε Code α).run :=
  guarantees_onMemory fun e w => ⟨⟨hl.1, sameGate_setDevice (hg e _).minEncKeyGen
    (hg e _).localGen (hg e _).locked⟩, hl.2⟩

lemma writes_idle {p : Code α} (hp : Promises (Idle d) p) (hJ : Stable (SameGate d) J) :
    Writes d k J (fun _ w => J w) p :=
  secures_stable hp hJ fun _ hev => ⟨⟨hev.toQuiet.rises, hev.admits⟩, hev.same⟩

/-- A read of the memory. -/
lemma writes_readMemory {g : Memory → α} (hJ : Stable (SameGate d) J) :
    Writes d k J (fun r w => J w ∧ r = .ok (g (memOf d w)))
      (readMemory d g : ExceptT ε Code α).run := by
  refine secures_atom hJ fun e w hw _ => ?_
  dsimp only
  rw [World.setDevice_eq_self]
  exact ⟨⟨(quiet_same (l := .memory) nofun e w).rises, nofun⟩, hw, rfl⟩

/-- What is known when the vault is open: the minimum is `k`, and the generation of the client. -/
def Open (d : ℕ) (k gen : UInt64) (w : World) : Prop :=
  (memOf d w).minEncKeyGen = k ∧ (memOf d w).localGen = gen

lemma stable_open : Stable (SameGate d) (Open d k gen) :=
  fun _ _ hw h => ⟨h.min.trans hw.1, h.gen.trans hw.2⟩

/-- What passes the gate is not below the minimum. -/
lemma writes_verifyEpoch (g : UInt64) :
    Writes d k (Open d k gen) (fun r w => Open d k gen w ∧ IfOk (fun _ => k ≤ g) r)
      (verifyEpoch d g).run := by
  refine secures_bind_run (writes_readMemory stable_open) (fun m => ?_) fun _ _ h => by cases h.2
  refine secures_mono (J := fun w => Open d k gen w ∧ m = k) (fun w hw => ⟨hw.1, ?_⟩)
    (fun _ _ h => h) (secures_of_fact fun hm => ?_)
  · rw [Except.ok.inj hw.2]
    exact hw.1.1
  subst hm
  split
  · exact secures_ret fun w hw => ⟨hw, trivial⟩
  · next hlt => exact secures_ret fun w hw => ⟨hw, show m ≤ g by grind⟩

/-- A write that is let in only when the client is not behind. -/
lemma writes_writeDb {l : Client.Label} {context : String} {g : LocalDb Blob → LocalDb Blob}
    (hl : l ≠ .restart) (hgen : k ≤ gen) :
    Writes d k (Open d k gen) (fun _ _ => True) (writeDb d l context g).run := by
  refine secures_atom stable_open fun e w hw _ => ⟨⟨?_, fun _ _ => ?_⟩, trivial⟩
  · refine Quiet.rises ⟨hl, ?_⟩
    dsimp only
    split
    · exact sameGate_refl w
    · exact sameGate_setDevice rfl rfl rfl
  · dsimp only
    rw [hw.1, hw.2]
    exact ⟨hgen, hgen⟩

lemma writes_commitSave (item : DomainModel) (payload : Blob)
    (hfair : gen < k → item.encKeyGen ≤ gen) :
    Writes d k (Open d k gen) (fun _ _ => True) (commitSave d item payload).run := by
  refine secures_bind_run (writes_verifyEpoch _) (fun _ => secures_of_fact fun hle => ?_)
    fun _ _ _ => trivial
  have hgen : k ≤ gen := by
    by_cases hlt : gen < k
    · have hitem := hfair hlt
      have hmin : k ≤ item.encKeyGen := hle
      grind
    · grind
  refine secures_bind_run (writes_idle (guarantees_readDb fun e w =>
    ⟨quiet_same (l := .readVersion item.uuid) nofun e w, rfl⟩)
    stable_open) (fun existing => writes_writeDb nofun hgen) fun _ _ _ => trivial

lemma writes_commitDelete (uuid : Ident) :
    Writes d k (Open d k gen) (fun _ _ => True) (commitDelete d uuid gen).run :=
  secures_bind_run (writes_verifyEpoch _) (fun _ => secures_of_fact fun hle =>
    writes_writeDb nofun hle) fun _ _ _ => trivial

/-- A commit, with the receipt and what is published. -/
lemma writes_commitTask {commit : Client.Op Unit} {done : Update}
    (h : Writes d k (Open d k gen) (fun _ _ => True) commit.run) :
    Writes d k (Open d k gen) (fun _ _ => True) (commitTask d commit done).run := by
  have hpublish : ∀ {us : List Update} {J : World → Prop},
      Writes d k J (fun _ _ => True) (publish d us : Client.Op Unit).run := fun {us J} =>
    secures_of_guarantees (guarantees_mono (fun _ h => ⟨h.toQuiet.rises, h.admits⟩)
      (idle_onMemory ⟨nofun, rfl⟩ fun _ _ => ⟨rfl, rfl, rfl, rfl, rfl, rfl, rfl, rfl, rfl, rfl⟩))
      fun _ _ => trivial
  refine secures_bind_run (writes_idle (idle_onMemory ⟨nofun, rfl⟩ fun _ _ =>
    ⟨rfl, rfl, rfl, rfl, rfl, rfl, rfl, rfl, rfl, rfl⟩) stable_open) (fun receipt => ?_)
    fun _ _ _ => trivial
  refine secures_bind_run (P := fun _ _ => True) ?_ (fun r => ?_) fun _ _ _ => trivial
  · unfold inspect
    rw [ExceptT.run_lift]
    exact secures_bind h fun r => secures_ret fun _ _ => trivial
  · cases r <;> exact secures_bind_run hpublish (fun _ => secures_ret fun _ _ => trivial)
      fun _ _ _ => trivial

/-- What is known when a save or a delete begins. -/
structure Begins (d : ℕ) (k gen : UInt64) (w : World) : Prop where
  opened : (memOf d w).locked = false → (memOf d w).minEncKeyGen = k
  gen : (memOf d w).localGen = gen

lemma stable_begins : Stable (SameGate d) (Begins d k gen) := fun _ _ hw h =>
  ⟨fun hl => h.min.trans (hw.opened (h.locked.symm.trans hl)), h.gen.trans hw.gen⟩

/-- What an open vault is asked for. -/
lemma writes_unlocked {x y : Client.Op β} (hx : ∀ J, Writes d k J (fun _ _ => True) x.run)
    (hy : Writes d k (Open d k gen) (fun _ _ => True) y.run) :
    Writes d k (Begins d k gen) (fun _ _ => True)
      (do if ← readMemory d (·.locked) then x else y : Client.Op β).run := by
  refine secures_bind_run (writes_readMemory stable_begins) (fun locked => ?_) fun _ _ _ => trivial
  cases locked with
  | true => exact hx _
  | false =>
    refine secures_mono (fun w hw => ?_) (fun _ _ h => h) hy
    exact ⟨hw.1.opened (Except.ok.inj hw.2).symm, hw.1.gen⟩

/-- **What lets a write in.** -/
lemma writes_exec {q : Cmd} (hq : asksWrite q = true) (hfair : FairCmd k gen q) :
    Writes d k (Begins d k gen) (fun _ _ => True) (exec X d q).run := by
  cases q with
  | saveItem item payload =>
    refine secures_bind_run (writes_unlocked (fun _ => secures_ret fun _ _ => trivial) ?_)
      (fun _ => secures_ret fun _ _ => trivial) fun _ _ _ => trivial
    exact writes_commitTask (writes_commitSave item payload hfair)
  | deleteItem uuid =>
    refine secures_bind_run (writes_unlocked (fun _ => secures_ret fun _ _ => trivial) ?_)
      (fun _ => secures_ret fun _ _ => trivial) fun _ _ _ => trivial
    refine secures_bind_run (writes_readMemory stable_open) (fun g => ?_) fun _ _ _ => trivial
    refine secures_mono (J := fun w => Open d k gen w ∧ g = gen) (fun w hw => ⟨hw.1, ?_⟩)
      (fun _ _ h => h) (secures_of_fact fun hg => ?_)
    · rw [Except.ok.inj hw.2]
      exact hw.1.2
    · subst hg
      exact writes_commitTask (writes_commitDelete uuid)
  | _ => cases hq

end Writes

/-! ### What a statement preserves -/

section Step

variable {s : Watch} {asked : Bool}

/-- The others leave the client alone. -/
structure Aside (d : ℕ) (s s' : Watch) : Prop where
  device : s'.world.devices d = s.world.devices d
  known : s'.known = s.known

/-- What has to hold of every statement. -/
def Meets (d : ℕ) (ev : Ev Watch ClientEnv Label) : Prop :=
  match ev.name with
  | .client l => Told ev.pre.known l.2 ev.pre.world.server
  | .admitExport => True

abbrev keeping (d : ℕ) : Rules Watch ClientEnv Label :=
  keeps (Kept d) (Aside d) (Every (Meets d))

lemma Told.mono {k k' : UInt64} {l : Client.Label} {db : Db Blob} (hk : k ≤ k')
    (h : Told k' l db) : Told k l db := by
  unfold Told at h ⊢
  split
  · exact fun row hrow => UInt64.le_trans hk (h row hrow)
  · exact UInt64.le_trans hk h
  · trivial

/-- **What a statement of a command preserves**, of a command that began when the client had
known `k`. -/
lemma Kept.client {l : Name} {e : ClientEnv} {w' : World} (h : Kept d s)
    (hev : Rises d k ⟨l, e, s.world, w'⟩)
    (hallow : asked = true → Admits d k ⟨l, e, s.world, w'⟩)
    (hknown : s.known ≤ k ∨ s.known ≤ (memOf d s.world).minEncKeyGen) :
    Kept d (s.next d asked l.2 e w') ∧
      ((s.next d asked l.2 e w').known ≤ k ∨
        (s.next d asked l.2 e w').known ≤ (memOf d w').minEncKeyGen) := by
  have hlate : (s.next d asked l.2 e w').late = false := by
    cases hwrite : asked && isWrite l.2 && !e.fault with
    | false => simp [Watch.next, h.late, hwrite]
    | true =>
      simp only [Bool.and_eq_true, Bool.not_eq_true'] at hwrite
      obtain ⟨⟨hasked, hl⟩, hf⟩ := hwrite
      obtain ⟨hgen, hmin⟩ := hallow hasked hl hf
      have hnot : ¬(memOf d s.world).localGen < s.known := by
        rcases hknown with hk | hk <;> dsimp only at hgen hmin <;> grind
      simp [Watch.next, h.late, hnot]
  cases hev with
  | keep hname hmin hlocked =>
    have hsame : (s.next d asked l.2 e w').known = s.known := by
      refine higher_of_ge ?_
      dsimp only at hmin
      rw [hmin]
      exact h.le
    refine ⟨⟨?_, fun hl => ?_, fun hr => ?_, hlate⟩, ?_⟩
    · exact le_higher _ _
    · rw [hsame]
      exact UInt64.le_trans (h.opened (hlocked hl)) (UInt64.le_of_eq hmin.symm)
    · rw [hsame]
      refine UInt64.le_trans (h.running ?_) (UInt64.le_of_eq hmin.symm)
      simpa [Watch.next, hname] using hr
    · rw [hsame]
      exact hknown.imp id fun hk => UInt64.le_trans hk (UInt64.le_of_eq hmin.symm)
  | raise hname hk hle hlocked =>
    have hup : s.known ≤ (memOf d w').minEncKeyGen :=
      hknown.elim (fun h => UInt64.le_trans h hk) fun h => UInt64.le_trans h hle
    have hsame : (s.next d asked l.2 e w').known = (memOf d w').minEncKeyGen := higher_of_le hup
    refine ⟨⟨le_higher _ _, fun _ => ?_, fun _ => ?_, hlate⟩, .inr ?_⟩ <;> exact UInt64.le_of_eq hsame
  | unlock hname hmin hk =>
    have hup : s.known ≤ (memOf d w').minEncKeyGen := by
      refine UInt64.le_trans ?_ (UInt64.le_of_eq hmin.symm)
      exact hknown.elim (fun h => UInt64.le_trans h hk) id
    have hsame : (s.next d asked l.2 e w').known = (memOf d w').minEncKeyGen := higher_of_le hup
    refine ⟨⟨le_higher _ _, fun _ => ?_, fun _ => ?_, hlate⟩, .inr ?_⟩ <;> exact UInt64.le_of_eq hsame

/-- An operation of the client, of which its statements and its result are known. -/
lemma keeps_onClient {p : Code α} {G : WorldEv → Prop} {P : α → World → Prop}
    {tr : List WorldEv} {w : World} {tr' : List (Ev Watch ClientEnv Label)}
    (hG : ∀ ev, G ev → Rises d k ev ∧ (asked = true → Admits d k ev))
    (hp : wp (meeting (SameGate d) (TellsEv k) G) p (fun a tr w => Every G tr ∧ P a w) tr w)
    (htr : Every (TellsEv k) tr) (hw : w.devices d = s.world.devices d) (hk : k ≤ s.known)
    (hknown : s.known ≤ k ∨ s.known ≤ (memOf d s.world).minEncKeyGen)
    (htr' : Every (fun ev => Kept d ev.post) tr') :
    wp (keeping d) (onClient d asked p) (fun a tr' s' => Every (fun ev => Kept d ev.post) tr' ∧
      (∃ w, P a w ∧ w.devices d = s'.world.devices d) ∧ k ≤ s'.known ∧
      (s'.known ≤ k ∨ s'.known ≤ (memOf d s'.world).minEncKeyGen)) tr' s := by
  induction p generalizing tr w tr' s with
  | ret a => exact ⟨htr', ⟨w, hp.2, hw⟩, hk, hknown⟩
  | stmt l f kont ih =>
    refine ⟨htr', fun s' e hr hok => ?_⟩
    have hmeets := hok.1 _ (List.mem_append_right _ (List.mem_singleton_self _))
    have hpre := hok.2 _ (List.mem_append_right _ (List.mem_singleton_self _))
    have hmem : memOf d s'.world = memOf d s.world := congrArg Device.mem hr.device
    have hsame : SameGate d w s'.world := by
      have hmem' : memOf d s'.world = memOf d w := hmem.trans (congrArg Device.mem hw).symm
      exact ⟨by rw [hmem'], by rw [hmem'], by rw [hmem']⟩
    have hk' : k ≤ s'.known := by rwa [hr.known]
    have htold : TellsEv k ⟨l, e, s'.world, f e s'.world⟩ := Told.mono hk' hmeets
    have hwp := hp.2 s'.world e hsame (every_append htr htold)
    have hev := hG _ ((wp_mid hwp fun _ _ h => h.1) ⟨l, e, s'.world, f e s'.world⟩ (by simp))
    obtain ⟨hkept, hknown'⟩ := hpre.client hev.1 hev.2 (by rw [hr.known, hmem]; exact hknown)
    exact ih e _ hwp (every_append htr htold) rfl (UInt64.le_trans hk' (le_higher_left _ _))
      hknown' (every_append htr' hkept)

/-- What an operation of the client keeps, of which nothing else is known. -/
lemma keeps_part {p : Code α} {G : WorldEv → Prop} {J : World → Prop}
    {tr' : List (Ev Watch ClientEnv Label)}
    (hG : ∀ ev, G ev → Rises d s.known ev ∧ (asked = true → Admits d s.known ev))
    (hp : Secures (SameGate d) (TellsEv s.known) G J (fun _ _ => True) p) (hJ : J s.world)
    (htr' : Every (fun ev => Kept d ev.post) tr') :
    wp (keeping d) (onClient d asked p) (fun _ tr' _ => Every (fun ev => Kept d ev.post) tr')
      tr' s :=
  wp_mono (fun _ _ _ h => h.1) (keeps_onClient hG (hp [] s.world every_nil hJ) every_nil rfl
    (UInt64.le_refl _) (.inl (UInt64.le_refl _)) htr')

/-- The client is started again. -/
lemma Kept.restart (h : Kept d s) (e : ClientEnv) {c : Device} (hc : c.mem = Memory.new) :
    Kept d (s.next d asked .restart e (s.world.setDevice d c)) := by
  refine ⟨?_, fun hl => ?_, fun hr => ?_, ?_⟩
  · exact le_higher _ _
  · simp [Watch.next, memOf, hc, Memory.new] at hl
  · simp [Watch.next] at hr
  · simp [Watch.next, h.late, isWrite]

/-! ### Exports -/

section Exports

/-- What is known when an export passes its checks: the client is not behind. -/
def Ahead (d : ℕ) (k : UInt64) (w : World) : Prop :=
  k ≤ (memOf d w).localGen ∧ (memOf d w).minEncKeyGen ≤ (memOf d w).localGen

/-- What an export has to meet, which is checked only with the generation of the client. -/
lemma writes_exportGate {gen : UInt64} :
    Writes d k (Begins d k gen) (fun r w => IfOk (fun _ => Ahead d k w) r) (exportGate d).run := by
  refine secures_bind_run (writes_readMemory stable_begins) (fun locked => ?_) fun _ _ _ => trivial
  cases locked with
  | true => exact secures_ret fun _ _ => trivial
  | false =>
    refine secures_mono (J := Open d k gen) (fun w hw =>
      ⟨hw.1.opened (Except.ok.inj hw.2).symm, hw.1.gen⟩) (fun _ _ h => h) ?_
    refine secures_bind_run (writes_readMemory stable_open) (fun g => ?_) fun _ _ _ => trivial
    refine secures_mono (J := fun w => Open d k gen w ∧ g = gen) (fun w hw => ⟨hw.1, ?_⟩)
      (fun _ _ h => h) (secures_of_fact fun hg => ?_)
    · rw [Except.ok.inj hw.2]
      exact hw.1.2
    subst hg
    refine secures_bind_run (writes_readMemory stable_open) (fun m => ?_) fun _ _ _ => trivial
    refine secures_mono (J := fun w => Open d k g w ∧ m = k) (fun w hw => ⟨hw.1, ?_⟩)
      (fun _ _ h => h) (secures_of_fact fun hm => ?_)
    · rw [Except.ok.inj hw.2]
      exact hw.1.1
    subst hm
    split
    · exact secures_ret fun _ _ => trivial
    · next hlt =>
      refine secures_ret fun w hw => ?_
      have hle : m ≤ g := UInt64.not_lt.mp hlt
      refine ⟨?_, ?_⟩
      · rwa [hw.2]
      · rwa [hw.1, hw.2]

/-- The export in one piece is not checked with a generation at all. -/
lemma writes_jsonGate :
    Writes d k (fun w => (memOf d w).locked = false → Ahead d k w)
      (fun r w => IfOk (fun _ => Ahead d k w) r) (jsonGate d).run := by
  have hahead : Stable (SameGate d) (Ahead d k) := fun w w' hw h => by
    rw [Ahead, h.min, h.gen]
    exact hw
  have hlocked : Stable (SameGate d) fun w => (memOf d w).locked = false → Ahead d k w :=
    fun w w' hw h hl => hahead _ _ (hw (h.locked.symm.trans hl)) h
  refine secures_bind_run (P := fun r w => IfOk (fun _ => Ahead d k w) r) ?_ (fun _ => ?_)
    fun _ _ _ => trivial
  · refine secures_bind_run (writes_readMemory hlocked) (fun locked => ?_) fun _ _ _ => trivial
    cases locked with
    | true => exact secures_ret fun _ _ => trivial
    | false => exact secures_ret fun w hw => hw.1 (Except.ok.inj hw.2).symm
  · refine secures_bind_run (writes_readMemory (J := Ahead d k) hahead) (fun dek => ?_)
      fun _ _ _ => trivial
    cases dek with
    | none => exact secures_ret fun _ _ => trivial
    | some dek => exact secures_ret fun w hw => hw.1

lemma quiet_getOverview (uuid : Ident) : Promises (Quiet d) (getOverview d uuid).run := by
  refine guarantees_bind_except (permitsLists_quiet.readDb rfl) fun r => ?_
  cases r with
  | none => exact guarantees_throw_except _
  | some o => exact guarantees_pure_except _

lemma quiet_exportRows (rows : List (OverviewRow × Blob)) :
    Promises (Quiet d) (exportRows d rows).run := by
  induction rows with
  | nil => exact guarantees_pure_except _
  | cons row rest ih =>
    refine guarantees_bind_except (quiet_getOverview _) fun _ =>
      guarantees_bind_except permitsLists_quiet.require fun dek => ?_
    split
    · exact guarantees_throw_except _
    · exact guarantees_bind_except ih fun _ => guarantees_pure_except _

lemma quiet_jsonRows (dek : DKey) (rows : List (OverviewRow × Blob)) :
    Promises (Quiet d) (jsonRows d dek rows).run := by
  induction rows with
  | nil => exact guarantees_pure_except _
  | cons row rest ih =>
    unfold jsonRows
    split
    · exact guarantees_throw_except _
    · exact guarantees_bind_except (quiet_getOverview _) fun _ =>
        guarantees_bind_except ih fun _ => guarantees_pure_except _

/-- An export whose checks let it in only when the client is not behind. -/
lemma keeps_exportBy {gate : Client.Op α} {items : α → Client.Op (List ExportRow)}
    {J : World → Prop} (hgate : Writes d s.known J (fun r w => IfOk (fun _ => Ahead d s.known w) r)
      gate.run) (hJ : J s.world) (hitems : ∀ a, Promises (Quiet d) (items a).run) :
    wp (keeping d) (exportBy d gate items) (fun _ tr _ => Every (fun ev => Kept d ev.post) tr)
      [] s := by
  unfold exportBy
  rw [wp_bind]
  refine wp_mono (fun r tr s' h => ?_) (keeps_onClient (fun _ h => ⟨h.1, nofun⟩)
    (hgate [] s.world every_nil hJ) every_nil rfl (UInt64.le_refl _) (.inl (UInt64.le_refl _))
    every_nil)
  obtain ⟨htr, ⟨w, hr, hw⟩, hk, hknown⟩ := h
  cases r with
  | error e => exact htr
  | ok a =>
    refine ⟨htr, fun s₂ e hrely hok => ?_⟩
    have hpre : Kept d s₂ := hok.2 _ (List.mem_append_right _ (List.mem_singleton_self _))
    have hmem : memOf d s₂.world = memOf d w :=
      congrArg Device.mem (hrely.device.trans hw.symm)
    have hahead : Ahead d s.known w := hr
    have hnot : ¬(memOf d s₂.world).localGen < s₂.known := by
      have hmem' : memOf d s'.world = memOf d w := congrArg Device.mem hw.symm
      rw [hmem'] at hknown
      rw [hmem, hrely.known]
      have h₁ := hahead.1
      have h₂ := hahead.2
      rcases hknown with hle | hle <;> grind
    have hlate : (s₂.late || decide ((memOf d s₂.world).localGen < s₂.known)) = false := by
      simp [hpre.late, hnot]
    refine keeps_part (fun _ h => ⟨h, nofun⟩) (fine_quiet (J := fun _ => True) (hitems a)) trivial
      (every_append htr ?_)
    exact ⟨hpre.le, hpre.opened, hpre.running, hlate⟩

end Exports

/-- **What an operation preserves.** -/
lemma keeps_code (q : Req) {s : Watch} (h : Kept d s) (hfair : Fair d s q) :
    wp (keeping d) (code X d q) (fun _ tr _ => Every (fun ev => Kept d ev.post) tr) [] s := by
  have hbegins : Begins d s.known (memOf d s.world).localGen s.world :=
    ⟨fun hl => UInt64.le_antisymm h.le (h.opened hl), rfl⟩
  have hbelow : Below d s.known s.world := h.le
  cases q with
  | command q =>
    change wp (keeping d) (onClient d (asksWrite q) (Orchestrator.code X d q) >>= _) _ [] s
    rw [wp_bind]
    have hcmd : FairCmd s.known (memOf d s.world).localGen q := by
      cases q <;> first | exact hfair | trivial
    cases hw : asksWrite q with
    | true =>
      exact keeps_part (fun _ h => ⟨h.1, fun _ => h.2⟩) (writes_exec hw hcmd) hbegins every_nil
    | false =>
      by_cases hrestart : q = .restart
      · subst hrestart
        refine ⟨every_nil, fun s' e _ hok => every_append every_nil ?_⟩
        have hpre : Kept d s' := hok.2 _ (List.mem_append_right _ (List.mem_singleton_self _))
        exact hpre.restart e rfl
      · exact keeps_part (fun _ h => ⟨h, nofun⟩) (fine_exec ⟨hw, hrestart⟩ hcmd) hbelow every_nil
  | exportVault =>
    change wp (keeping d) (exportBy d (exportGate d) _ >>= _) _ [] s
    rw [wp_bind]
    exact keeps_exportBy writes_exportGate hbegins fun _ =>
      guarantees_bind_except (permitsLists_quiet.readDb rfl) fun _ => quiet_exportRows _
  | exportToJson =>
    change wp (keeping d) (exportBy d (jsonGate d) _ >>= _) _ [] s
    rw [wp_bind]
    refine keeps_exportBy writes_jsonGate (fun hl => ?_) fun dek =>
      guarantees_bind_except (permitsLists_quiet.readDb rfl) fun _ => quiet_jsonRows _ _
    exact ⟨hfair hl, UInt64.le_trans h.le (hfair hl)⟩

end Step

abbrev WatchSess := Sess Req Watch ClientEnv Label Reply

abbrev WatchAct (Y : Type) := Act Req ClientEnv Y

/-- What others do to the world. -/
def onWorld {Y : Type} (others : Y → World → World) (y : Y) (s : Watch) : Watch :=
  { s with world := others y s.world }

/-- The statement that is next meets its condition. -/
def MeetsNext (d : ℕ) (σ : WatchSess) (e : ClientEnv) : Prop :=
  match σ.cur with
  | some ⟨_, _, .stmt l f _⟩ => Meets d ⟨l, e, σ.shared, f e σ.shared⟩
  | _ => True

/-- Every request and every statement meets its condition, and the others leave the device
alone. -/
def Mindful {Y : Type} (d : ℕ) (others : Y → World → World) (σ : WatchSess) : WatchAct Y → Prop
  | .op q => Fair d σ.shared q
  | .exec e => MeetsNext d σ e
  | .env y => (others y σ.shared.world).devices d = σ.shared.world.devices d

/-- A client that was just started. -/
def start (w : World) : Watch := ⟨w, 0, false, false⟩

/-- **Nothing is let in too late, and the minimum does not become lower**, in every run of a
client in which every request and every statement meets its condition, whatever begins, is cut
off, fails or succeeds, and whatever others do meanwhile. -/
theorem floor_kept (X : Ext Blob) (d : ℕ) {Y : Type} (others : Y → World → World) (w : World)
    (hw : (w.devices d).mem = Memory.new) (as : List (WatchAct Y))
    (has : Along (code X d) (onWorld others) (Mindful d others) (init (start w)) as) :
    Kept d (run (code X d) (onWorld others) (init (start w)) as).shared := by
  have hexec : ∀ (σ : WatchSess) e (q : Req) tr l f k, σ.cur = some ⟨q, tr, .stmt l f k⟩ →
      Mindful d others σ (.exec e) → Kept d σ.shared → Every (Meets d) tr →
      Every (Meets d) (tr ++ [⟨l, e, σ.shared, f e σ.shared⟩]) := by
    intro σ e q tr l f k hc hC _ hok
    simp only [Mindful, MeetsNext, hc] at hC
    exact every_append hok hC
  have henv : ∀ (σ : WatchSess) y, Kept d σ.shared → Mindful d others σ (.env y) →
      Kept d (onWorld others y σ.shared) ∧ Aside d σ.shared (onWorld others y σ.shared) := by
    intro σ y h hy
    have hmem : memOf d (others y σ.shared.world) = memOf d σ.shared.world :=
      congrArg Device.mem hy
    refine ⟨⟨?_, ?_, ?_, h.late⟩, hy, rfl⟩
    · simpa [onWorld, hmem] using h.le
    · simpa [onWorld, hmem] using h.opened
    · simpa [onWorld, hmem] using h.running
  refine run_keeps (C := Mindful d others) (fun σ q h hq => keeps_code q h hq) hexec henv
    (fun _ => every_nil) (fun _ => ⟨rfl, rfl⟩)
    (fun _ _ _ h h' => ⟨h'.device.trans h.device, h'.known.trans h.known⟩) ?_ has
  refine ⟨?_, fun hl => ?_, fun _ => ?_, rfl⟩
  · simp [start, memOf, hw, Memory.new]
  · simp [start, memOf, hw, Memory.new] at hl
  · simp [start]

/-! ### One client -/

/-- A new client; the server has the user 7, in the generation `gen`. -/
def newClient (gen : ℤ) : World where
  server := ⟨⟨[⟨7, "u", .raw 1, .raw 0, .raw 0, .raw 0, gen, 0, 0⟩], by simp⟩, .empty⟩
  devices _ := ⟨⟨.empty, .empty, .empty, .empty, .empty, .empty⟩, Memory.new⟩

/-- The request and so many of its statements. -/
def running (q : Req) (n : ℕ) : List (WatchAct Empty) :=
  .op q :: List.replicate n (.exec ⟨0, 5, false, 9⟩)

/-- Unlocked with a key of the generation `gen`. -/
def unlocking (gen : UInt64) : List (WatchAct Empty) :=
  running (.command (.unlockWithRawKey 100 gen)) 12

/-- The client learns the generation of the server. -/
def learning (gen : UInt64) : List (WatchAct Empty) :=
  unlocking gen ++ running (.command (.connectSync 7)) 2 ++ running (.command .sync) 30

/-- An item of the generation `gen` is saved. -/
def saving (gen : UInt64) : List (WatchAct Empty) :=
  running (.command (.saveItem ⟨gen, 3, "t", "", "", "[]", 0, 0, false⟩ (.raw 7))) 9

/-- The client learns that it is behind; it is started again, and unlocked with the new
generation. -/
def catchingUp : List (WatchAct Empty) :=
  learning 1 ++ saving 1 ++ running (.command .restart) 1 ++ unlocking 3 ++ saving 3 ++
    running .exportVault 20

instance (k : UInt64) (l : Client.Label) (db : Db Blob) : Decidable (Told k l db) := by
  unfold Told
  split <;> infer_instance

instance (s : Watch) (q : Req) : Decidable (Fair d s q) := by
  unfold Fair
  split <;> infer_instance

instance (ev : Ev Watch ClientEnv Label) : Decidable (Meets d ev) := by
  unfold Meets
  split <;> infer_instance

instance (σ : WatchSess) (e : ClientEnv) : Decidable (MeetsNext d σ e) := by
  unfold MeetsNext
  split <;> infer_instance

instance (σ : WatchSess) : ∀ a : WatchAct Empty, Decidable (Mindful d nobody σ a)
  | .op q => inferInstanceAs (Decidable (Fair d σ.shared q))
  | .exec e => inferInstanceAs (Decidable (MeetsNext d σ e))
  | .env y => y.elim

/-- Every text is an identifier. -/
def anyUuid : Ext Blob := ⟨fun _ => true, fun _ => 60⟩

theorem floor_kept_caughtUp :
    Along (code anyUuid 0) (onWorld nobody) (Mindful 0 nobody) (init (start (newClient 3)))
      catchingUp ∧
    Kept 0 (run (code anyUuid 0) (onWorld nobody) (init (start (newClient 3))) catchingUp).shared :=
  ⟨by decide +kernel, floor_kept anyUuid 0 nobody (newClient 3) rfl catchingUp (by decide +kernel)⟩

/-- **An unlock with the old generation lowers the minimum**, and the client writes again. -/
theorem stale_unlock_writes :
    ¬ ∀ (X : Ext Blob) (d : ℕ) (w : World) (as : List (WatchAct Empty)),
      (w.devices d).mem = Memory.new →
      Kept d (run (code X d) (onWorld nobody) (init (start w)) as).shared := by
  intro h
  have hkept := h anyUuid 0 (newClient 3) (learning 1 ++ unlocking 1 ++ saving 1) rfl
  have hlate := hkept.late
  revert hlate
  decide +kernel

end Vautr.MinGeneration
