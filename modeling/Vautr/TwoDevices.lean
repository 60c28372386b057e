import Vautr.PushVersions

/-!
What a second device sees of the items that were saved on a first one.

The first device saves any items and pushes them; then the second device syncs, and then the
first one syncs again. The items of an account whose vault is empty on the server never get
there (`PushVersions`), so the second device sees none of them, and what it holds agrees with
the first device only if nothing was saved at all.
-/

namespace Vautr.TwoDevices

open Vautr.Atomic Vautr.Session Vautr.Sql Vautr.Database Vautr.Api Vautr.Server Vautr.Handlers
  Vautr.ClientDb Vautr.Crypto Vautr.Client Vautr.Orchestrator Vautr.Effects Vautr.Push
  Vautr.PushVersions

/-- What an item decrypts to on the device `d`. -/
def secretOf (d : ℕ) (w : World) (r : OverviewRow × Blob) : Option Plain :=
  (w.devices d).mem.dek.bind fun k => decrypt k r.1.uuid (asU64 r.1.encKeyGen) r.2

/-- Two overviews show the same. -/
def SameOverview (o o' : OverviewRow) : Prop :=
  o'.uuid = o.uuid ∧ o'.title = o.title ∧ o'.subtitle = o.subtitle ∧ o'.iconKey = o.iconKey ∧
    o'.urls = o.urls ∧ o'.deletedDate.isSome = o.deletedDate.isSome

/-- The device `b` holds every item of the device `a`, with the same overview, and reads the
same secret. -/
def Agree (a b : ℕ) (w : World) : Prop :=
  ∀ r ∈ itemsOf a w, ∃ r' ∈ itemsOf b w, SameOverview r.1 r'.1 ∧
    (secretOf a w r).isSome = true ∧ secretOf b w r' = secretOf a w r

instance (o o' : OverviewRow) : Decidable (SameOverview o o') :=
  inferInstanceAs (Decidable (_ ∧ _))

instance (a b : ℕ) (w : World) : Decidable (Agree a b w) :=
  inferInstanceAs (Decidable (∀ r ∈ itemsOf a w, ∃ r' ∈ itemsOf b w, _ ∧ _))

/-- The server holds no item of the user. -/
def NoItems (user : Ident) (s : Db Blob) : Prop := ∀ r ∈ s.items.rows, r.userId ≠ user

/-- The device `d` saves the items, one after the other. -/
def Saves (X : Ext Blob) (d : ℕ) : List (DomainModel × Blob) → World → World → Prop
  | [], w, w' => w' = w
  | (item, payload) :: rest, w, w' =>
    ∃ r w₁, Ends (code X d (.saveItem item payload)) w r w₁ ∧ Saves X d rest w₁ w'

variable {X : Ext Blob} {user : Ident} {a b d : ℕ} {α ε : Type} {s : Db Blob} {w w' : World}

lemma NoItems.get (h : NoItems user s) (u : Ident) : s.items.get (u, user) = none :=
  Table.get_eq_none_iff.mpr fun r hr hkey => h r hr (congrArg Prod.snd hkey)

/-! ### A sync of an empty vault -/

/-- A pull from an empty vault brings nothing. -/
lemma safe_syncPull (h : NoItems user s) (cursor : UInt64) (limit : Option ℕ) :
    Safe (· = s) (syncPull user cursor limit : ServerHandler Blob PullResp).run
      (fun r s' => s' = s ∧ ∀ resp, r = .ok resp → resp.items = []) s := by
  have hnone : ∀ c, itemsAfter s user c = [] := by
    intro c
    have hempty : s.items.rows.filter (fun r => decide (r.userId = user) && r.seq.any (c < ·)) = [] :=
      List.filter_eq_nil_iff.mpr fun r hr => by simp [h r hr]
    rw [itemsAfter, hempty]
    rfl
  unfold syncPull
  rw [safe_bind_except, safe_orInternal]
  refine safe_statement rfl ⟨rfl, by simp⟩ fun _ => ⟨rfl, ?_⟩
  dsimp only [Except.mapError]
  split
  · exact ⟨rfl, by simp⟩
  rw [safe_bind_except, safe_orInternal]
  refine safe_statement rfl ⟨rfl, by simp⟩ fun _ => ⟨rfl, ?_⟩
  dsimp only [Except.mapError]
  split
  · exact ⟨rfl, by simp⟩
  rw [safe_bind_except, safe_orInternal]
  refine safe_statement rfl ⟨rfl, by simp⟩ fun _ => ⟨rfl, rfl, ?_⟩
  intro resp hresp
  simp only [hnone, List.take_nil] at hresp
  rw [← Except.ok.inj hresp]
  rfl

/-- The server and the items of the device are as they were in `w₀`. -/
structure Still (d : ℕ) (w₀ w : World) : Prop where
  server : w.server = w₀.server
  overviews : (w.devices d).db.overviews = (w₀.devices d).db.overviews
  payloads : (w.devices d).db.payloads = (w₀.devices d).db.payloads

section Sync

variable {w₀ : World}

lemma Still.items (h : Still d w₀ w) : itemsOf d w = itemsOf d w₀ := by
  simp only [itemsOf, joined, h.overviews, h.payloads]

lemma Still.memory (h : Still d w₀ w) (m : Memory) :
    Still d w₀ (w.setDevice d { w.devices d with mem := m }) :=
  ⟨h.server, by simpa using h.overviews, by simpa using h.payloads⟩

lemma safe_still_onMemory {l : Label} {g : ClientEnv → Memory → Memory × α} (h : Still d w₀ w) :
    Safe (fun _ => True) (onMemory d l g : ExceptT ε Code α).run (fun _ => Still d w₀) w :=
  safe_onMemory fun _ => ⟨trivial, h.memory _⟩

/-- A request that only reads. -/
lemma safe_still_roundTrip {answer : Except ApiError α → Label} {x : ServerHandler Blob α}
    {P : α → Prop} (h : Still d w₀ w) (hx : Safe (· = w.server) x.run
      (fun r s => s = w.server ∧ ∀ v, r = .ok v → P v) w.server) :
    Safe (fun _ => True) (roundTrip d answer x).run
      (fun r w => Still d w₀ w ∧ ∀ v, r = .ok v → P v) w := by
  refine safe_roundTrip trivial ⟨h, by simp⟩ (safe_weaken (fun _ _ => trivial)
    (safe_mono (fun r s hr => ?_) hx))
  obtain ⟨rfl, hP⟩ := hr
  refine ⟨trivial, ⟨h, by simp⟩, h, fun v hv => ?_⟩
  cases r with
  | error e => cases hv
  | ok v' => exact hP v (congrArg Except.ok (Except.ok.inj hv))

lemma safe_syncPages (h : Still d w₀ w) (hnone : NoItems user w₀.server) (pages : ℕ)
    (cursor : UInt64) (failed : Bool) :
    Safe (fun _ => True) (syncPages X d user pages cursor failed).run (fun _ => Still d w₀) w := by
  induction pages generalizing w cursor failed with
  | zero => exact h
  | succ pages ih =>
    unfold syncPages
    rw [safe_bind_except, safe_orFail, pull, safe_bind_except]
    have hpull := safe_syncPull (h.server ▸ hnone : NoItems user w.server) cursor (some 100)
    refine safe_mono (fun r w hr => ?_) (safe_still_roundTrip h hpull)
    obtain ⟨h, hitems⟩ := hr
    cases r with
    | error e => exact h
    | ok resp =>
      -- the page is empty, so there is nothing to fetch and nothing to store
      dsimp only
      rw [hitems resp rfl]
      change Safe _ (_ >>= _ : Client.Op (UInt64 × Bool)).run _ w
      rw [safe_bind_except]
      change Safe _ (_ >>= _ : Client.Op (UInt64 × Bool)).run _ w
      rw [safe_bind_except]
      change Safe _ (if resp.hasMore = true then _ else _ : Client.Op (UInt64 × Bool)).run _ w
      split
      · exact ih h _ _
      · exact h

lemma safe_updateEpochGate (h : Still d w₀ w) (gen : UInt64) :
    Safe (fun _ => True) (updateEpochGate d user gen).run (fun _ => Still d w₀) w := by
  unfold updateEpochGate accountStatusGen
  rw [safe_bind_except, inspect, safe_lift, safe_bind_except]
  have hstatus : Safe (· = w.server) (accountStatus user : ServerHandler Blob ℤ).run
      (fun _ s => s = w.server) w.server :=
    safe_of_guarantees (J := (· = w.server)) (reading_accountStatus user)
      (fun ev hpre hev => (show ev.post = ev.pre from hev).trans hpre) (fun _ h => h) rfl
  refine safe_mono (fun r w hr => ?_) (safe_still_roundTrip (P := fun _ => True) h
    (safe_mono (fun _ _ h => ⟨h, fun _ _ => trivial⟩) hstatus))
  cases r with
  | error e => exact hr.1
  | ok gen =>
    change Safe _ (_ >>= _ : Client.Op Unit).run _ w
    rw [safe_bind_except]
    exact safe_onMemory fun _ => ⟨trivial, safe_still_onMemory (hr.1.memory _)⟩

lemma safe_persistBlacklistIfDirty (h : Still d w₀ w) :
    Safe (fun _ => True) (persistBlacklistIfDirty d).run (fun _ => Still d w₀) w := by
  unfold persistBlacklistIfDirty
  rw [safe_bind_except]
  refine safe_readMemory trivial ?_
  dsimp only
  split
  · rw [safe_bind_except]
    refine safe_readMemory trivial ?_
    dsimp only
    rw [safe_bind_except]
    refine safe_onDb trivial (fun _ => h) fun db _ hdb => ⟨trivial, ?_⟩
    simp only [Option.some.injEq, Prod.mk.injEq] at hdb
    refine safe_still_onMemory ?_
    rw [← hdb.1]
    refine ⟨h.server, ?_, ?_⟩
    · rw [World.setDevice_self]
      exact h.overviews
    · rw [World.setDevice_self]
      exact h.payloads
  · exact h

/-- **A sync of an empty vault** changes no items of the device, and nothing on the server. -/
lemma safe_sync (hnone : NoItems user w.server)
    (htransport : (w.devices d).mem.transport = some user) :
    Safe (fun _ => True) (sync X d).run (fun _ => Still d w) w := by
  have h : Still d w w := ⟨rfl, rfl, rfl⟩
  unfold sync
  rw [safe_bind_except]
  refine safe_require trivial (fun _ => h) fun u hu => ?_
  obtain rfl : user = u := Option.some.inj (htransport.symm.trans hu)
  dsimp only
  rw [safe_bind_except]
  refine safe_readMemory trivial ?_
  dsimp only
  rw [safe_bind_except]
  refine safe_onMemory fun _ => ⟨trivial, ?_⟩
  have h := h.memory { (w.devices d).mem with bus := (w.devices d).mem.bus ++ [.syncStarted] }
  dsimp only
  rw [safe_bind_except]
  refine safe_readMemory trivial ?_
  dsimp only
  rw [safe_bind_except]
  -- the pages have no items, and leave the database as it is
  refine safe_mono (fun r w' h => ?_) (safe_syncPages h hnone 10000 _ false)
  rcases r with e | ⟨cursor, failed⟩
  · exact h
  dsimp only
  rw [safe_bind_except]
  have hadvance : Safe (fun _ => True) (advanceCursor d cursor failed).run
      (fun _ => Still d w) w' := by
    unfold advanceCursor
    split
    · exact h
    · exact safe_still_onMemory h
  refine safe_mono (fun r w' h => ?_) hadvance
  cases r with
  | error e => exact h
  | ok _ =>
  dsimp only
  rw [safe_bind_except]
  -- nor does the end of the sync store one
  refine safe_mono (fun r w' h => ?_) (safe_updateEpochGate h _)
  cases r with
  | error e => exact h
  | ok _ =>
  dsimp only
  rw [safe_bind_except]
  refine safe_mono (fun r w' h => ?_) (safe_persistBlacklistIfDirty h)
  cases r with
  | error e => exact h
  | ok _ => exact safe_still_onMemory h

end Sync

/-! ### Two devices -/

/-- Nothing was saved yet: the vault is empty on the server and on both devices, which are
connected for its user. -/
structure Start (user : Ident) (a b : ℕ) (w : World) : Prop where
  two : b ≠ a
  server : NoItems user w.server
  first : Fresh user a w
  second : itemsOf b w = []
  transport : (w.devices b).mem.transport = some user

/-- A device does not touch another one. -/
lemma ends_others {q : Cmd} {r : Except ClientError CmdReply} (hne : b ≠ d)
    (h : Ends (code X d q) w r w') : w'.devices b = w.devices b := by
  have hsafe : Safe (fun _ => True) (code X d q) (fun _ w' => w'.devices b = w.devices b) w :=
    safe_of_guarantees (J := fun w' : World => w'.devices b = w.devices b) (effects_exec X d q)
      (fun ev hpre hev => (hev.others b hne).trans hpre) (fun _ _ => trivial) rfl
  exact hsafe.ends h

lemma ends_saveItem {item : DomainModel} {payload : Blob} {r : Except ClientError CmdReply}
    (hs : NoItems user s) (h : Unsent user s d w)
    (hend : Ends (code X d (.saveItem item payload)) w r w') : Unsent user s d w' := by
  refine Safe.ends (I := Unsent user s d) (P := fun _ => Unsent user s d) ?_ hend
  change Safe _ (_ >>= _ : Client.Op CmdReply).run _ w
  rw [safe_bind_except]
  refine safe_mono (fun r w h => ?_) (safe_saveItem h item payload (hs.get item.uuid))
  cases r <;> exact h

lemma ends_pushLocalChanges {r : Except ClientError CmdReply} (h : Unsent user s d w)
    (hend : Ends (code X d .pushLocalChanges) w r w') :
    Unsent user s d w' ∧ (w'.devices d).db = (w.devices d).db := by
  refine Safe.ends (I := Unsent user s d)
    (P := fun _ w' => Unsent user s d w' ∧ (w'.devices d).db = (w.devices d).db) ?_ hend
  change Safe _ (_ >>= _ : Client.Op CmdReply).run _ w
  rw [safe_bind_except]
  refine safe_mono (fun r w h => ?_) (safe_pushLocalChanges h)
  cases r <;> exact h

lemma ends_sync {r : Except ClientError CmdReply} (hs : NoItems user w.server)
    (ht : (w.devices d).mem.transport = some user) (hend : Ends (code X d .sync) w r w') :
    Still d w w' := by
  refine Safe.ends (I := fun _ => True) (P := fun _ => Still d w) ?_ hend
  change Safe _ (_ >>= _ : Client.Op CmdReply).run _ w
  rw [safe_bind_except]
  refine safe_mono (fun r w h => ?_) (safe_sync hs ht)
  cases r <;> exact h

lemma saves_unsent {saves : List (DomainModel × Blob)} (hs : NoItems user s)
    (h : Unsent user s d w) (hsaves : Saves X d saves w w') :
    Unsent user s d w' ∧ ∀ b, b ≠ d → w'.devices b = w.devices b := by
  induction saves generalizing w with
  | nil =>
    obtain rfl : w' = w := hsaves
    exact ⟨h, fun _ _ => rfl⟩
  | cons save rest ih =>
    obtain ⟨r, w₁, hend, hrest⟩ := hsaves
    obtain ⟨hunsent, hothers⟩ := ih (ends_saveItem hs h hend) hrest
    exact ⟨hunsent, fun b hne => (hothers b hne).trans (ends_others hne hend)⟩

/-- **Two devices of an empty vault**: the first one saves items and pushes them, the second
one syncs, and then the first one syncs again. The second device holds the items of the first
one, and the last sync changes none of them, only if the first device had nothing to push. -/
theorem devices_agree_iff (X : Ext Blob) (user : Ident) (a b : ℕ) (w w₁ w₂ w₃ w₄ : World)
    (saves : List (DomainModel × Blob)) (r : Except ClientError CmdReply)
    (hstart : Start user a b w) (hsaves : Saves X a saves w w₁)
    (hpush : Ends (code X a .pushLocalChanges) w₁ (.ok .done) w₂)
    (hsync : Ends (code X b .sync) w₂ (.ok .done) w₃) (hagain : Ends (code X a .sync) w₃ r w₄) :
    (Agree a b w₃ ∧ itemsOf a w₄ = itemsOf a w₃) ↔ itemsOf a w₁ = [] := by
  obtain ⟨hunsent, hothers⟩ := saves_unsent hstart.server hstart.first.unsent hsaves
  obtain ⟨hunsent₂, hdb₂⟩ := ends_pushLocalChanges hunsent hpush
  have hb₂ : w₂.devices b = w.devices b :=
    (ends_others hstart.two hpush).trans (hothers b hstart.two)
  have hempty₂ : NoItems user w₂.server := hunsent₂.server.symm ▸ hstart.server
  have hb₃ : Still b w₂ w₃ := by
    refine ends_sync hempty₂ ?_ hsync
    rw [hb₂]
    exact hstart.transport
  have ha₃ : w₃.devices a = w₂.devices a := ends_others hstart.two.symm hsync
  have ha₄ : Still a w₃ w₄ := by
    refine ends_sync (hb₃.server.symm ▸ hempty₂ : NoItems user w₃.server) ?_ hagain
    rw [ha₃]
    exact hunsent₂.transport
  have hfirst : itemsOf a w₃ = itemsOf a w₁ := by rw [itemsOf, ha₃, hdb₂, itemsOf]
  have hsecond : itemsOf b w₃ = [] := by
    rw [hb₃.items, itemsOf, hb₂]
    exact hstart.second
  constructor
  · rintro ⟨hagree, -⟩
    refine List.eq_nil_iff_forall_not_mem.mpr fun r hr => ?_
    obtain ⟨r', hr', -⟩ := hagree r (hfirst ▸ hr)
    rw [hsecond] at hr'
    cases hr'
  · intro hnil
    refine ⟨fun r hr => ?_, ha₄.items⟩
    rw [hfirst, hnil] at hr
    cases hr

/-! ### One item -/

/-- Nothing is lost on the way. -/
def good : ClientEnv := ⟨0, 0, false, 0⟩

/-- What a command leaves behind. -/
def after (d : ℕ) (q : Cmd) (w : World) : World := (alone good (code anyUuid d q) w).2

/-- An item that is saved on the first device. -/
def item : DomainModel × Blob :=
  (⟨1, 3, "t", "", "", "[]", 0, 0, false⟩, encrypt (.dek 100) 3 1 (.bytes 5))

def saved : World := after 0 (.saveItem item.1 item.2) empty

def pushed : World := after 0 .pushLocalChanges saved

def synced : World := after 1 .sync pushed

lemma start_empty : Start 7 0 1 empty :=
  ⟨by decide, by simp [NoItems, empty, Table.empty], fresh_empty 0, rfl, rfl⟩

lemma saves_item : Saves anyUuid 0 [item] empty saved := ⟨_, saved, ends_of_alone rfl, rfl⟩

theorem devices_agree_iff_item :
    Start 7 0 1 empty ∧ Saves anyUuid 0 [item] empty saved ∧
    ((Agree 0 1 synced ∧ itemsOf 0 (after 0 .sync synced) = itemsOf 0 synced) ↔
      itemsOf 0 saved = []) :=
  ⟨start_empty, saves_item,
    devices_agree_iff anyUuid 7 0 1 empty saved pushed synced (after 0 .sync synced) [item] _
      start_empty saves_item (ends_of_alone (by decide +kernel)) (ends_of_alone (by decide +kernel))
      (ends_of_alone rfl)⟩

/-- The second device does not see the item. -/
theorem devices_disagree : ¬∀ (saves : List (DomainModel × Blob)) (w₁ w₂ w₃ w₄ : World),
    Saves anyUuid 0 saves empty w₁ → Ends (code anyUuid 0 .pushLocalChanges) w₁ (.ok .done) w₂ →
    Ends (code anyUuid 1 .sync) w₂ (.ok .done) w₃ →
    Ends (code anyUuid 0 .sync) w₃ (.ok .done) w₄ →
    Agree 0 1 w₃ ∧ itemsOf 0 w₄ = itemsOf 0 w₃ := by
  intro h
  have hagree := (h [item] saved pushed synced (after 0 .sync synced) saves_item
    (ends_of_alone (by decide +kernel)) (ends_of_alone (by decide +kernel))
    (ends_of_alone (by decide +kernel))).1
  revert hagree
  decide +kernel

end Vautr.TwoDevices
