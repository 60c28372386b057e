import Vautr.Interleave
import Vautr.Orchestrator
import Vautr.Push

/-!
Rotations of several devices of one account.

When the server reports success for a generation to a device, is the vault key blob that it
stores for this generation the one that the device sent? It is as long as every rotation
finds a lower generation than the one it asks for, and no rotation raises the generation
while another one has raised it and not stored its blob yet. A request for a generation that
the server has reached already is answered with success as well, and its blob is dropped;
so two devices that rotate to the same generation go on with two vault keys.
-/

namespace Vautr.RotationAgreement

open Vautr.Atomic Vautr.Interleave Vautr.Sql Vautr.Database Vautr.Api Vautr.Server Vautr.Handlers
  Vautr.Crypto Vautr.Zoom Vautr.ClientDb Vautr.Client Vautr.Orchestrator Vautr.Push

abbrev WorldEv := Ev World ClientEnv Name

/-- The runs of `rotate_key`: which device, and to which generation. -/
abbrev RotSys := Sys (ℕ × UInt64) World ClientEnv Name (Except ClientError Unit)

abbrev RotCall := Call (ℕ × UInt64) World ClientEnv Name (Except ClientError Unit)

abbrev RotAct := Act (ℕ × UInt64) ClientEnv

def code (X : Ext Blob) (q : ℕ × UInt64) : Code (Except ClientError Unit) :=
  (rotateKey X q.1 q.2).run

/-- The account of the user on the server. -/
def account (w : World) (u : Ident) : Option (UserRow Blob) := w.server.users.get u

/-- The statement wrote the row `r` of the user `u`. -/
def Wrote (u : Ident) (ev : WorldEv) (r : ItemRow Blob) : Prop :=
  r.userId = u ∧ r ∈ ev.post.server.items.rows ∧ r ∉ ev.pre.server.items.rows

/-- The payload of the row is encrypted under the vault key `k`, for its generation. -/
def SealedUnder (k : Key) (r : ItemRow Blob) : Prop :=
  ∃ pt, r.payload = some (encrypt (.dek k) r.uuid (asU64 r.encKeyGen) pt)

/-! ### What a rotation may do, step by step -/

/-- How far a rotation has come: the generation it has raised, and the keys whose blob it
has stored. -/
inductive Stage
  | idle
  | bumped (g : ℤ)
  | stored (g : ℤ) (mk k : Key)

/-- The statement does nothing to the account, writes no row of the user and is no report of
success. -/
structure Quiet (u : Ident) (ev : WorldEv) : Prop where
  account : account ev.post u = account ev.pre u
  wrote : ∀ r, ¬Wrote u ev r
  answer : ∀ d sent resp, ev.name ≠ (d, .rotateAnswer u sent (.ok resp))

/-- What comes after the blob is stored: rows of this generation under this key, and the
report of this generation and this blob. -/
structure Tail (u : Ident) (g : ℤ) (mk k : Key) (ev : WorldEv) : Prop where
  account : account ev.post u = account ev.pre u
  wrote : ∀ r, Wrote u ev r → r.encKeyGen = g ∧ SealedUnder k r
  answer : ∀ d sent resp, ev.name = (d, .rotateAnswer u sent (.ok resp)) →
    sent = wrapSvk mk k ∧ resp.minEncKeyGen = g

/-- `update_min_enc_key_gen` to `g`, from below. -/
structure Bump (u : Ident) (g : ℤ) (ev : WorldEv) : Prop where
  account : ∃ row, account ev.pre u = some row ∧ row.minEncKeyGen < g ∧
    account ev.post u = some { row with minEncKeyGen := g }
  wrote : ∀ r, ¬Wrote u ev r
  name : ∃ d, ev.name = (d, .server (.updateMinEncKeyGen u g))

/-- `update_svk`, at the generation `g`. -/
structure Store (u : Ident) (g : ℤ) (mk k : Key) (ev : WorldEv) : Prop where
  account : ∃ row rk, account ev.pre u = some row ∧ row.minEncKeyGen = g ∧
    account ev.post u =
      some { row with svkCiphertextBlob := wrapSvk mk k, svkCiphertextBlobRk := rk }
  wrote : ∀ r, ¬Wrote u ev r
  name : ∃ d, ev.name = (d, .server (.updateSvk u))

inductive Moves (u : Ident) : Stage → WorldEv → Stage → Prop
  | quiet {st ev} : Quiet u ev → Moves u st ev st
  | bump {g ev} : Bump u g ev → Moves u .idle ev (.bumped g)
  | store {g mk k ev} : Store u g mk k ev → Moves u (.bumped g) ev (.stored g mk k)
  | tail {g mk k ev} : Tail u g mk k ev → Moves u (.stored g mk k) ev (.stored g mk k)

/-- The statements of a rotation, from its start to the stage `st`. -/
abbrev At (u : Ident) (tr : List WorldEv) (st : Stage) : Prop := Follows (Moves u) .idle tr st

/-- What is assumed of the statements of a rotation to `newGen`: the generation is read and
raised from below. -/
structure Fresh (u : Ident) (newGen : UInt64) (ev : WorldEv) : Prop where
  read : ∀ d, ev.name = (d, .server (.getUserById u)) →
    ∀ row ∈ account ev.pre u, row.minEncKeyGen < asI64 newGen
  raise : ∀ d g, ev.name = (d, .server (.updateMinEncKeyGen u g)) →
    ∀ row ∈ account ev.pre u, row.minEncKeyGen < g

/-- While a rotation is about to store its blob, the generation stays; and no account is
ever deleted. -/
def Tolerates (u : Ident) (l : Name) (w w' : World) : Prop :=
  ((account w u).isSome → (account w' u).isSome) ∧
  (l.2 = .server (.updateSvk u) →
    (account w' u).map (·.minEncKeyGen) = (account w u).map (·.minEncKeyGen))

def rotRules (u : Ident) (newGen : UInt64) : Rules World ClientEnv Name :=
  ⟨Tolerates u, Every (Fresh u newGen), fun tr => ∃ st, At u tr st⟩

variable {X : Ext Blob} {u : Ident} {d : ℕ} {newGen : UInt64} {α β ε : Type}
  {tr : List WorldEv} {w : World} {st : Stage}

lemma at_append {ev : WorldEv} {st' : Stage} (h : At u tr st) (hm : Moves u st ev st') :
    At u (tr ++ [ev]) st' := (follows_append ev).mpr ⟨st, h, hm⟩

/-- A program that stays in its stage. -/
lemma wp_stays {G : WorldEv → Prop} {p : Code α} (hG : ∀ ev, G ev → Moves u st ev st)
    (hp : Guarantees (fun _ _ _ => True) G p) (htr : At u tr st) :
    wp (rotRules u newGen) p (fun _ tr _ => At u tr st) tr w :=
  wp_of_guarantees (J := fun tr _ => At u tr st) hp (fun _ _ _ _ => trivial)
    (fun _ _ h => ⟨st, h⟩) (fun _ _ _ _ h _ => h) (fun _ ev h hev => at_append h (hG ev hev))
    (fun _ _ _ h => h) htr

lemma wp_bind_stays {G : WorldEv → Prop} {x : ExceptT ε Code β} {f : β → ExceptT ε Code α}
    {P : Except ε α → List WorldEv → World → Prop} (hG : ∀ ev, G ev → Moves u st ev st)
    (hx : Guarantees (fun _ _ _ => True) G x.run) (htr : At u tr st)
    (hf : ∀ b tr w, At u tr st → wp (rotRules u newGen) (f b).run P tr w)
    (herr : ∀ e tr w, At u tr st → P (.error e) tr w) :
    wp (rotRules u newGen) (x >>= f).run P tr w := by
  rw [wp_bind_except]
  refine wp_mono (fun r tr w h => ?_) (wp_stays hG hx htr)
  cases r with
  | ok b => exact hf b tr w h
  | error e => exact herr e tr w h

/-! ### The items -/

/-- A label that is no answer to a rotation. -/
def Plain (l : Label) : Prop := ∀ u sent answer, l ≠ .rotateAnswer u sent answer

/-- A row of the user, of this generation, under this key. -/
def RowOf (user : Ident) (gen : UInt64) (k : Key) (r : ItemRow Blob) : Prop :=
  r.userId = user ∧ r.encKeyGen = asI64 gen ∧ SealedUnder k r

/-- An item that is pushed at this generation, under this key. -/
def ItemOf (gen : UInt64) (k : Key) (i : Pushed) : Prop :=
  i.encKeyGen = gen ∧ ∃ pt, i.payload = some (encrypt (.dek k) i.uuid gen pt)

section Items

variable {G : WorldEv → Prop} {user : Ident} {gen : UInt64} {oldSvk k mk : Key}

/-- The promise `G` allows everything on the device, and rows of this kind on the server. -/
structure Allows (d : ℕ) (user : Ident) (gen : UInt64) (k : Key) (G : WorldEv → Prop) : Prop where
  onDevice : ∀ l e w c, Plain l → G ⟨(d, l), e, w, w.setDevice d c⟩
  onServer : ∀ l e w s, Touches (RowOf user gen k) w.server s →
    G ⟨(d, .server l), e, w, { w with server := s }⟩

lemma Allows.same (h : Allows d user gen k G) {l : Label} (hl : Plain l) (e : ClientEnv)
    (w : World) : G ⟨(d, l), e, w, w⟩ := by
  have := h.onDevice l e w (w.devices d) hl
  rwa [World.setDevice_eq_self] at this

lemma Allows.onMemory {l : Label} {g : ClientEnv → Memory → Memory × β} (h : Allows d user gen k G)
    (hl : Plain l) :
    Guarantees (fun _ _ _ => True) G (onMemory d l g : ExceptT ε Code β).run :=
  guarantees_onMemory fun e w => h.onDevice l e w _ hl

lemma Allows.onDb {l : Label} {context : String} {g : LocalDb Blob → Option (LocalDb Blob × β)}
    (h : Allows d user gen k G) (hl : Plain l) :
    Guarantees (fun _ _ _ => True) G (onDb d l context g).run :=
  guarantees_onDb (h.same hl) fun e w _ _ _ _ => h.onDevice l e w _ hl

/-- What a push of such items writes. -/
lemma rowOf_of_wroteOne {items : List Pushed} {now : ℤ} {r : ItemRow Blob}
    (hitems : ∀ i ∈ items, ItemOf gen k i)
    (hr : WroteOne user (items.map (Pushed.toItem now)) r) :
    RowOf user gen k r ∧ r.uuid ∈ items.map (·.uuid) := by
  obtain ⟨item, hitem, now', v, n, p, hp, rfl⟩ := hr
  obtain ⟨i, hi, rfl⟩ := List.mem_map.mp hitem
  obtain ⟨hgen, pt, hpt⟩ := hitems i hi
  rw [show (i.toItem now).payload = i.payload.map some from rfl, hpt] at hp
  obtain rfl : p = some (encrypt (.dek k) i.uuid gen pt) := by
    cases p with
    | none => simp at hp
    | some p => simpa using hp.symm
  refine ⟨⟨rfl, congrArg asI64 hgen, pt, ?_⟩, List.mem_map_of_mem hi⟩
  change some _ = some (encrypt (.dek k) i.uuid (asU64 (asI64 i.encKeyGen)) pt)
  rw [asU64_asI64, hgen]

lemma Allows.pushBatch (h : Allows d user gen k G) {items : List Pushed}
    (hitems : ∀ i ∈ items, ItemOf gen k i) :
    Guarantees (fun _ _ _ => True) G (pushBatch X d user items).run :=
  guarantees_bind_except (h.onMemory (by simp [Plain])) fun now =>
    guarantees_bind_except (guarantees_roundTrip (touching_syncPushBatch _)
      (h.same (by simp [Plain]))
      (fun l e w s hs => h.onServer l e w s (hs.mono fun _ hr => (rowOf_of_wroteOne hitems hr).1))
      fun _ => h.same (by simp [Plain])) fun _ => guarantees_pure_except _

lemma Allows.fetchPayload (h : Allows d user gen k G) (uuid : Ident) (version : UInt64) :
    Guarantees (fun _ _ _ => True) G (fetchPayload d user uuid version).run := by
  refine guarantees_bind_except (guarantees_roundTrip (reading_syncPullPayloads _ _)
    (h.same (by simp [Plain])) (fun l e w s hs => ?_) fun _ => h.same (by simp [Plain]))
    fun _ => guarantees_ret _
  exact h.onServer l e w s (by rw [show s = w.server from hs]; exact touches_refl _)

lemma returns_reencryptRows (rows : List (OverviewRow × Blob)) :
    Returns (fun r => ∀ items, r = .ok items → ∀ i ∈ items, ItemOf gen k i)
      (reencryptRows d oldSvk k gen rows).run := by
  induction rows with
  | nil =>
    rintro items h
    cases h
    simp
  | cons row rest ih =>
    obtain ⟨o, payload⟩ := row
    unfold reencryptRows
    split
    · rintro items h
      cases h
    · next pt hpt =>
      refine returns_bind_except (returns_true _) (fun _ _ => ?_) (fun _ _ _ h => by cases h)
      refine returns_bind_except ih (fun items hitems => ?_) (fun _ _ _ h => by cases h)
      rintro _ h i hi
      cases h
      rcases List.mem_cons.mp hi with rfl | hi
      · exact ⟨rfl, pt, rfl⟩
      · exact hitems items rfl i hi

lemma Allows.reencryptRows (h : Allows d user gen k G) (rows : List (OverviewRow × Blob)) :
    Guarantees (fun _ _ _ => True) G (reencryptRows d oldSvk k gen rows).run := by
  induction rows with
  | nil => exact guarantees_pure_except _
  | cons row rest ih =>
    obtain ⟨o, payload⟩ := row
    unfold Orchestrator.reencryptRows
    split
    · exact guarantees_throw_except _
    · exact guarantees_bind_except (h.onDb (by simp [Plain])) fun _ =>
        guarantees_bind_except ih fun _ => guarantees_pure_except _

lemma Allows.settleOutcome (h : Allows d user gen k G) (o : OverviewRow) (outcome : PushOutcome) :
    Guarantees (fun _ _ _ => True) G (settleOutcome X d user oldSvk k gen o outcome).run := by
  cases outcome with
  | applied => exact guarantees_pure_except _
  | epochTooOld => exact guarantees_throw_except _
  | conflict v =>
    refine guarantees_bind_except (guarantees_orFail (h.fetchPayload _ _)) fun payload => ?_
    split
    · exact guarantees_throw_except _
    · next pt _ =>
      refine guarantees_bind_except (guarantees_orFail (h.pushBatch fun i hi => ?_)) fun retry => ?_
      · rw [List.mem_singleton.mp hi]
        exact ⟨rfl, pt, rfl⟩
      · split
        · exact guarantees_pure_except _
        · exact guarantees_throw_except _

lemma Allows.settleOutcomes (h : Allows d user gen k G)
    (outcomes : List (PushOutcome × OverviewRow × Blob)) :
    Guarantees (fun _ _ _ => True) G (settleOutcomes X d user oldSvk k gen outcomes).run := by
  induction outcomes with
  | nil => exact guarantees_pure_except _
  | cons r rest ih =>
    exact guarantees_bind_except (h.settleOutcome r.2.1 r.1) fun _ => ih

lemma Allows.rotateBatches (h : Allows d user gen k G)
    (batches : List (List (OverviewRow × Blob))) :
    Guarantees (fun _ _ _ => True) G (rotateBatches X d user oldSvk k gen batches).run := by
  induction batches with
  | nil => exact guarantees_pure_except _
  | cons rows rest ih =>
    refine guarantees_bind_returns (h.reencryptRows rows) (returns_reencryptRows rows)
      fun items hitems => ?_
    exact guarantees_bind_except (guarantees_orFail (h.pushBatch (hitems items rfl))) fun _ =>
      guarantees_bind_except (h.settleOutcomes _) fun _ => ih

lemma Allows.rotateItems (h : Allows d user gen k G) :
    Guarantees (fun _ _ _ => True) G (rotateItems X d user mk oldSvk k gen).run := by
  have hmem : ∀ g : Memory → Memory,
      Guarantees (fun _ _ _ => True) G (writeMemory d g : Op Unit).run :=
    fun _ => h.onMemory (by simp [Plain])
  have hpub : ∀ us, Guarantees (fun _ _ _ => True) G (publish d us : Op Unit).run :=
    fun _ => h.onMemory (by simp [Plain])
  exact guarantees_bind_except (hmem _) fun _ => guarantees_bind_except (hpub _) fun _ =>
    guarantees_bind_except (guarantees_readDb (h.same (by simp [Plain]))) fun rows =>
    guarantees_bind_except (h.rotateBatches _) fun _ =>
    guarantees_bind_except (h.onDb (by simp [Plain])) fun _ =>
    guarantees_bind_except (hmem _) fun _ => guarantees_bind_except (hmem _) fun _ =>
    guarantees_bind_except (hmem _) fun _ => guarantees_bind_except (hmem _) fun _ => hpub _

end Items

/-! ### One rotation -/

lemma not_wrote_of_items_eq {ev : WorldEv} (h : ev.post.server.items = ev.pre.server.items)
    (r : ItemRow Blob) : ¬Wrote u ev r := fun hr => hr.2.2 (h ▸ hr.2.1)

lemma quiet_device {l : Label} (hl : Plain l) (e : ClientEnv) (w : World) (c : Device) :
    Quiet u ⟨(d, l), e, w, w.setDevice d c⟩ where
  account := rfl
  wrote := not_wrote_of_items_eq rfl
  answer := fun _ sent resp h => hl u sent (.ok resp) (congrArg Prod.snd h)

lemma quiet_same {l : Label} (hl : Plain l) (e : ClientEnv) (w : World) :
    Quiet u ⟨(d, l), e, w, w⟩ := by
  have := quiet_device (u := u) (d := d) hl e w (w.devices d)
  rwa [World.setDevice_eq_self] at this

lemma Quiet.tail {ev : WorldEv} {g : ℤ} {mk k : Key} (h : Quiet u ev) : Tail u g mk k ev :=
  ⟨h.account, fun r hr => absurd hr (h.wrote r),
    fun d sent resp hn => absurd hn (h.answer d sent resp)⟩

lemma allows_tail (mk k : Key) (gen : UInt64) : Allows d u gen k (Tail u (asI64 gen) mk k) where
  onDevice l e w c hl := (quiet_device hl e w c).tail
  onServer l e w s hs :=
    { account := congrArg (·.get u) hs.users
      wrote := fun r hr => (hs.new hr.2.1 hr.2.2).2
      answer := fun _ _ _ h => by cases h }

lemma allows_quiet {user : Ident} (hne : user ≠ u) (k : Key) (gen : UInt64) :
    Allows d user gen k (Quiet u) where
  onDevice l e w c hl := quiet_device hl e w c
  onServer l e w s hs :=
    { account := congrArg (·.get u) hs.users
      wrote := fun r hr => hne ((hs.new hr.2.1 hr.2.2).1.symm.trans hr.1)
      answer := fun _ _ _ h => by cases h }

/-- What a rotation promises of the server's answer: a report of success comes after the
bump and the store of this rotation. -/
def Answered (u : Ident) (g : ℤ) (mk k : Key) (tr : List WorldEv) :
    Except ApiError RotateKeyResp → Prop
  | .ok resp => At u tr (.stored g mk k) ∧ resp.minEncKeyGen = g
  | .error _ => ∃ st, At u tr st

lemma quiet_server (l : Stmt) (e : ClientEnv) (w : World) (htr : At u tr st) :
    At u (tr ++ [⟨(d, .server l), e, w, w⟩]) st :=
  at_append htr (.quiet (quiet_same (by simp [Plain]) e w))

/-- An `UPDATE` of the account. -/
lemma wp_updateUser {l : Stmt} {f : UserRow Blob → UserRow Blob} {hf : ∀ r, (f r).id = r.id}
    {P : Except SqlError Unit → List WorldEv → World → Prop} (htr : At u tr st)
    (hfault : ∀ tr w, At u tr st → P (.error .database) tr w)
    (hrun : ∀ e w' w'', Tolerates u (d, .server l) w w' →
      Fresh u newGen ⟨(d, .server l), e, w', w''⟩ → account w'' u = (account w' u).map f →
      w''.server.items = w'.server.items → P (.ok ()) (tr ++ [⟨(d, .server l), e, w', w''⟩]) w'') :
    wp (rotRules u newGen) (zoom (onServer d) (updateUser l u f hf).run) P tr w := by
  refine wp_zoom_statement (fun _ => rfl) ⟨_, htr⟩
    (fun w e _ _ => hfault _ _ (quiet_server _ e w htr)) fun w' e hr hok => ?_
  refine hrun e w' _ hr (hok _ (List.mem_append_right _ (List.mem_singleton_self _))) ?_ rfl
  change (w'.server.users.update (fun r => r.id = u) f hf).get u = (w'.server.users.get u).map f
  rw [Table.get_update]
  cases hrow : w'.server.users.get u with
  | none => rfl
  | some row => simp [Table.get_key hrow]

/-- The generation is raised and the blob is stored. -/
lemma wp_raise {mk k : Key} {rk : Blob} (htr : At u tr .idle) (hrow : (account w u).isSome) :
    wp (rotRules u newGen) (zoomE (onServer d) (do
        orInternal (updateMinEncKeyGen u (asI64 newGen))
        orInternal (updateSvk u (wrapSvk mk k) rk)
        orInternal auditLog
        return ⟨"success", asI64 newGen⟩ : ServerHandler Blob RotateKeyResp)).run
      (fun r tr _ => Answered u (asI64 newGen) mk k tr r) tr w := by
  rw [zoomE_bind, wp_bind_except, wp_zoom_orInternal]
  refine wp_updateUser htr (fun _ _ h => ⟨_, h⟩) fun e₁ w₁ w₁' hr₁ hok₁ hpost₁ hitems₁ => ?_
  obtain ⟨row₁, hrow₁⟩ := Option.isSome_iff_exists.mp (hr₁.1 hrow)
  rw [hrow₁] at hpost₁
  have hbump : Bump u (asI64 newGen)
      ⟨(d, .server (.updateMinEncKeyGen u (asI64 newGen))), e₁, w₁, w₁'⟩ :=
    ⟨⟨row₁, hrow₁, hok₁.raise d _ rfl row₁ hrow₁, hpost₁⟩, not_wrote_of_items_eq hitems₁, d, rfl⟩
  have htr₁ := at_append htr (.bump hbump)
  dsimp only [Except.mapError]
  rw [zoomE_bind, wp_bind_except, wp_zoom_orInternal]
  refine wp_updateUser htr₁ (fun _ _ h => ⟨_, h⟩) fun e₂ w₂ w₂' hr₂ _ hpost₂ hitems₂ => ?_
  -- nobody raised the generation in between
  obtain ⟨row₂, hrow₂⟩ := Option.isSome_iff_exists.mp (hr₂.1 (by simp [hpost₁]))
  have hgen : row₂.minEncKeyGen = asI64 newGen := by
    have := hr₂.2 rfl
    simpa [hrow₂, hpost₁] using this
  rw [hrow₂] at hpost₂
  have hstore : Store u (asI64 newGen) mk k ⟨(d, .server (.updateSvk u)), e₂, w₂, w₂'⟩ :=
    ⟨⟨row₂, rk, hrow₂, hgen, hpost₂⟩, not_wrote_of_items_eq hitems₂, d, rfl⟩
  have htr₂ := at_append htr₁ (.store hstore)
  dsimp only [Except.mapError]
  rw [zoomE_bind, wp_bind_except, wp_zoom_orInternal]
  refine wp_zoom_statement (fun _ => rfl) ⟨_, htr₂⟩
    (fun w e _ _ => ⟨_, quiet_server _ e w htr₂⟩) fun w e _ _ => ?_
  exact ⟨quiet_server _ e w htr₂, rfl⟩

lemma wp_accountRotateKey {mk k : Key} (htr : At u tr .idle) :
    wp (rotRules u newGen)
      (zoomE (onServer d) (accountRotateKey X ⟨u, asI64 newGen, some (wrapSvk mk k)⟩)).run
      (fun r tr _ => Answered u (asI64 newGen) mk k tr r) tr w := by
  unfold accountRotateKey
  rw [show (decodeB64 (some (wrapSvk mk k)) : ServerHandler Blob Blob) = pure (wrapSvk mk k)
    from rfl, pure_bind]
  split
  · exact ⟨_, htr⟩
  rw [zoomE_bind, wp_bind_except, wp_zoom_orInternal]
  refine wp_zoom_statement (fun _ => rfl) ⟨_, htr⟩
    (fun w e _ _ => ⟨_, quiet_server _ e w htr⟩) fun w e _ hok => ?_
  have hread := (hok _ (List.mem_append_right _ (List.mem_singleton_self _))).read d rfl
  have htr₁ := quiet_server (.getUserById u) e w (d := d) htr
  dsimp only [Except.mapError]
  cases hrow : account w u with
  | none =>
    rw [show (onServer d).get w = w.server from rfl, show w.server.users.get u = none from hrow]
    exact ⟨_, htr₁⟩
  | some row =>
    rw [show (onServer d).get w = w.server from rfl, show w.server.users.get u = some row from hrow]
    dsimp only
    rw [if_neg (not_le.mpr (hread row hrow))]
    exact wp_raise htr₁ (Option.isSome_iff_exists.mpr ⟨row, hrow⟩)

lemma quiet_readMemory {g : Memory → β} :
    Guarantees (fun _ _ _ => True) (Quiet u) (readMemory d g : ExceptT ε Code β).run :=
  guarantees_readMemory fun e w => quiet_same (by simp [Plain]) e w

lemma quiet_require (msg : String) (g : Memory → Option α) :
    Guarantees (fun _ _ _ => True) (Quiet u) (require d msg g).run := by
  refine guarantees_bind_except quiet_readMemory fun a => ?_
  cases a with
  | none => exact guarantees_throw_except _
  | some a => exact guarantees_pure_except _

lemma quiet_requireUnlocked :
    Guarantees (fun _ _ _ => True) (Quiet u) (requireUnlocked d).run := by
  refine guarantees_bind_except quiet_readMemory fun locked => ?_
  cases locked with
  | true => exact guarantees_throw_except _
  | false => exact guarantees_pure_except _

/-- The statement leaves the items and the account of `u` alone. -/
def Elsewhere (u : Ident) (ev : DbEv Blob) : Prop :=
  ev.post.items = ev.pre.items ∧ ev.post.users.get u = ev.pre.users.get u

lemma elsewhere_updateUser {user : Ident} (hne : user ≠ u) (l : Stmt)
    (f : UserRow Blob → UserRow Blob) (hf : ∀ r, (f r).id = r.id) :
    Guarantees (fun _ _ _ => True) (Elsewhere u) (updateUser l user f hf).run := by
  refine guarantees_statement (fun _ _ => ⟨rfl, rfl⟩) fun _ s => ⟨rfl, ?_⟩
  rw [Table.get_update]
  cases hrow : s.users.get u with
  | none => rfl
  | some row => simp [Table.get_key hrow, hne.symm]

/-- The rotation of another account. -/
lemma elsewhere_accountRotateKey {user : Ident} (hne : user ≠ u) (gen : ℤ) (blob : Option Blob) :
    Guarantees (fun _ _ _ => True) (Elsewhere u) (accountRotateKey X ⟨user, gen, blob⟩).run := by
  refine guarantees_bind_except (guarantees_decodeB64 _) fun svk => ?_
  split
  · exact guarantees_throw_except _
  refine guarantees_bind_except (guarantees_orInternal
    (guarantees_statement (fun _ _ => ⟨rfl, rfl⟩) fun _ _ => ⟨rfl, rfl⟩)) fun row => ?_
  cases row with
  | none => exact guarantees_throw_except _
  | some row =>
    dsimp only
    split
    · exact guarantees_pure_except _
    · exact guarantees_bind_except (guarantees_orInternal (elsewhere_updateUser hne _ _ _)) fun _ =>
        guarantees_bind_except (guarantees_orInternal (elsewhere_updateUser hne _ _ _)) fun _ =>
        guarantees_bind_except (guarantees_orInternal
          (guarantees_statement (fun _ _ => ⟨rfl, rfl⟩) fun _ _ => ⟨rfl, rfl⟩)) fun _ =>
        guarantees_pure_except _

lemma quiet_rotateKeyRequest {user : Ident} (hne : user ≠ u) (blob : Blob) :
    Guarantees (fun _ _ _ => True) (Quiet u) (rotateKeyRequest X d user newGen blob).run := by
  refine guarantees_bind_except (guarantees_roundTrip (elsewhere_accountRotateKey hne _ _)
    (fun e w => quiet_same (by simp [Plain]) e w) (fun l e w s hs => ?_) fun r e w => ?_)
    fun _ => guarantees_pure_except _
  · exact ⟨hs.2, not_wrote_of_items_eq hs.1, fun _ _ _ h => by cases h⟩
  · refine ⟨rfl, not_wrote_of_items_eq rfl, fun d' sent resp h => hne ?_⟩
    cases h
    rfl

/-- The request of a rotation of this account. -/
lemma wp_rotateKeyRequest {mk k : Key} (htr : At u tr .idle)
    {P : Except TransportError UInt64 → List WorldEv → World → Prop}
    (hok : ∀ tr w, At u tr (.stored (asI64 newGen) mk k) → P (.ok newGen) tr w)
    (herr : ∀ e tr w, (∃ st, At u tr st) → P (.error e) tr w) :
    wp (rotRules u newGen) (rotateKeyRequest X d u newGen (wrapSvk mk k)).run P tr w := by
  unfold rotateKeyRequest roundTrip
  rw [wp_bind_except, wp_bind_except]
  refine wp_mono (fun r tr w htr => ?_) (wp_stays (fun _ h => .quiet h) (guarantees_message
    fun e w => quiet_same (by simp [Plain]) e w) htr)
  cases r with
  | error e => exact herr e tr w ⟨_, htr⟩
  | ok _ =>
    dsimp only
    rw [wp_bind_except, wp_lift]
    refine wp_mono (fun r tr w h => ?_) (wp_accountRotateKey htr)
    cases r with
    | error e =>
      obtain ⟨st, htr⟩ := h
      refine ⟨⟨_, htr⟩, fun w' e' _ _ => ?_⟩
      have hquiet : Quiet u ⟨(d, .rotateAnswer u (wrapSvk mk k) (.error e)), e', w', w'⟩ :=
        ⟨rfl, not_wrote_of_items_eq rfl, fun _ _ _ h => by cases h⟩
      have htr' := at_append htr (.quiet hquiet)
      cases hf : e'.fault <;> simpa [hf, Except.mapError] using herr _ _ w' ⟨_, htr'⟩
    | ok resp =>
      obtain ⟨htr, hresp⟩ := h
      refine ⟨⟨_, htr⟩, fun w' e' _ _ => ?_⟩
      have htail : Tail u (asI64 newGen) mk k
          ⟨(d, .rotateAnswer u (wrapSvk mk k) (.ok resp)), e', w', w'⟩ := by
        refine ⟨rfl, fun r hr => absurd hr (not_wrote_of_items_eq rfl r), fun _ _ _ h => ?_⟩
        cases h
        exact ⟨rfl, hresp⟩
      have htr' := at_append htr (.tail htail)
      cases hf : e'.fault with
      | true => simpa [hf] using herr _ _ w' ⟨_, htr'⟩
      | false => simpa [hf, Except.mapError, hresp] using hok _ w' htr'

/-- **One rotation** goes through the stages, whatever it does next. -/
lemma wp_rotateKey :
    wp (rotRules u newGen) (rotateKey X d newGen).run (fun _ tr _ => ∃ st, At u tr st) [] w := by
  have herr : ∀ (e : ClientError) tr (w : World), At u tr .idle → ∃ st, At u tr st :=
    fun _ _ _ h => ⟨_, h⟩
  have hq : ∀ ev, Quiet u ev → Moves u .idle ev .idle := fun _ h => .quiet h
  unfold rotateKey
  refine wp_bind_stays hq quiet_requireUnlocked rfl (fun _ tr w htr => ?_) herr
  refine wp_bind_stays hq (quiet_require _ _) htr (fun user tr w htr => ?_) herr
  refine wp_bind_stays hq (quiet_require _ _) htr (fun _ tr w htr => ?_) herr
  refine wp_bind_stays hq (quiet_require _ _) htr (fun mk tr w htr => ?_) herr
  refine wp_bind_stays hq (quiet_require _ _) htr (fun oldSvk tr w htr => ?_) herr
  refine wp_bind_stays hq (guarantees_onMemory fun e w => quiet_device (by simp [Plain]) e w _) htr
    (fun newSvk tr w htr => ?_) herr
  by_cases hu : user = u
  · subst hu
    rw [wp_bind_except, wp_orFail]
    refine wp_rotateKeyRequest htr (fun tr w htr => ?_) fun e tr w h => h
    exact wp_mono (fun _ _ _ h => ⟨_, h⟩)
      (wp_stays (fun _ h => .tail h) (allows_tail mk newSvk newGen).rotateItems htr)
  · refine wp_bind_stays hq (guarantees_orFail (quiet_rotateKeyRequest hu _)) htr
      (fun gen tr w htr => ?_) herr
    exact wp_mono (fun _ _ _ h => ⟨_, h⟩)
      (wp_stays hq (allows_quiet hu newSvk gen).rotateItems htr)

/-! ### All rotations together -/

/-- What must hold when a rotation takes its next step: it reads the generation from below
the one it asks for, and it raises it from below while no other rotation is about to store
its blob. -/
def Apart (u : Ident) (σ : RotSys) (newGen : UInt64) : Label → Prop
  | .server (.getUserById u') =>
    u' = u → ∀ row ∈ account σ.shared u, row.minEncKeyGen < asI64 newGen
  | .server (.updateMinEncKeyGen u' g) =>
    u' = u → (∀ row ∈ account σ.shared u, row.minEncKeyGen < g) ∧
      ∀ c ∈ σ.calls, ∀ l ∈ c.prog.next, l.2 ≠ .server (.updateSvk u)
  | _ => True

/-- The condition on the steps of a run. -/
def OneByOne (u : Ident) (σ : RotSys) : RotAct → Prop
  | .call _ => True
  | .exec i _ => ∀ c ∈ σ.calls[i]?, ∀ l ∈ c.prog.next, Apart u σ c.req.2 l.2

instance (σ : RotSys) (newGen : UInt64) (l : Label) : Decidable (Apart u σ newGen l) := by
  cases l with
  | server st => cases st <;> (unfold Apart; infer_instance)
  | _ => exact inferInstanceAs (Decidable True)

instance (σ : RotSys) (a : RotAct) : Decidable (OneByOne u σ a) :=
  match a with
  | .call _ => inferInstanceAs (Decidable True)
  | .exec i _ => inferInstanceAs (Decidable (∀ c ∈ σ.calls[i]?, _))

/-- The generation a rotation has raised. -/
def Stage.gen : Stage → Option ℤ
  | .idle => none
  | .bumped g => some g
  | .stored g _ _ => some g

structure Inv (u : Ident) (σ : RotSys) : Prop where
  held : Held (fun q => rotRules u q.2) (fun _ _ tr _ => ∃ st, At u tr st) σ
  fresh : ∀ (i : ℕ) (c : RotCall), σ.calls[i]? = some c → Every (Fresh u c.req.2) c.trace
  /-- No rotation has raised the generation past where it is. -/
  le : ∀ (i : ℕ) (c : RotCall), σ.calls[i]? = some c → ∀ st, At u c.trace st →
    ∀ g, st.gen = some g → ∃ row, account σ.shared u = some row ∧ g ≤ row.minEncKeyGen
  /-- No two rotations have raised it to the same value. -/
  apart : ∀ (i j : ℕ) (c c' : RotCall), σ.calls[i]? = some c → σ.calls[j]? = some c' →
    ∀ st st', At u c.trace st → At u c'.trace st' →
    ∀ g, st.gen = some g → st'.gen = some g → i = j
  /-- The blob is that of the rotation that has raised it last, if it has stored its own. -/
  blob : ∀ (i : ℕ) (c : RotCall), σ.calls[i]? = some c → ∀ g mk k,
    At u c.trace (.stored g mk k) → ∀ row, account σ.shared u = some row → row.minEncKeyGen = g →
    row.svkCiphertextBlob = wrapSvk mk k

variable {σ : RotSys} {ev : WorldEv} {st' : Stage}

lemma at_of_wp {p : Code α} (h : wp (rotRules u newGen) p (fun _ tr _ => ∃ st, At u tr st) tr w) :
    ∃ st, At u tr st := by
  cases p with
  | ret a => exact h
  | stmt l f k => exact h.1

/-- The generation of a rotation changes with its bump only. -/
lemma Moves.gen_eq (h : Moves u st ev st') :
    st'.gen = st.gen ∨ ∃ g, st' = .bumped g ∧ Bump u g ev := by
  cases h with
  | bump hb => exact .inr ⟨_, rfl, hb⟩
  | _ => exact .inl rfl

/-- What a move does to the account: nothing, or it is the bump or the store of the
rotation. -/
lemma Moves.account_cases (h : Moves u st ev st') :
    account ev.post u = account ev.pre u ∨ (∃ g, Bump u g ev) ∨
      ∃ g mk k, st = .bumped g ∧ Store u g mk k ev := by
  cases h with
  | quiet h => exact .inl h.account
  | bump hb => exact .inr (.inl ⟨_, hb⟩)
  | store hs => exact .inr (.inr ⟨_, _, _, rfl, hs⟩)
  | tail h => exact .inl h.account

/-- The generation never falls. -/
lemma Moves.le (h : Moves u st ev st') {row : UserRow Blob} (hrow : account ev.pre u = some row) :
    ∃ row', account ev.post u = some row' ∧ row.minEncKeyGen ≤ row'.minEncKeyGen := by
  rcases h.account_cases with heq | ⟨g, hb⟩ | ⟨g, mk, k, -, hs⟩
  · exact ⟨row, heq.trans hrow, le_rfl⟩
  · obtain ⟨row₁, hrow₁, hlt, hpost⟩ := hb.account
    rw [hrow, Option.some.injEq] at hrow₁
    exact ⟨_, hpost, hrow₁ ▸ hlt.le⟩
  · obtain ⟨row₁, rk, hrow₁, -, hpost⟩ := hs.account
    rw [hrow, Option.some.injEq] at hrow₁
    exact ⟨_, hpost, hrow₁ ▸ le_rfl⟩

/-- A move is tolerated by a rotation that is not about to store its blob, or if it raises
nothing. -/
lemma Moves.tolerates (h : Moves u st ev st') {l : Name}
    (hl : ∀ g, Bump u g ev → l.2 ≠ .server (.updateSvk u)) : Tolerates u l ev.pre ev.post := by
  refine ⟨fun hsome => ?_, fun hname => ?_⟩
  · obtain ⟨row, hrow⟩ := Option.isSome_iff_exists.mp hsome
    obtain ⟨row', hrow', -⟩ := h.le hrow
    simp [hrow']
  · rcases h.account_cases with heq | ⟨g, hb⟩ | ⟨g, mk, k, -, hs⟩
    · rw [heq]
    · exact absurd hname (hl g hb)
    · obtain ⟨row, rk, hrow, -, hpost⟩ := hs.account
      simp [hrow, hpost]

lemma fresh_of_apart {l : Name} {e : ClientEnv} {w' : World} (h : Apart u σ newGen l.2) :
    Fresh u newGen ⟨l, e, σ.shared, w'⟩ := by
  constructor
  · rintro d hl
    obtain rfl : l = (d, .server (.getUserById u)) := hl
    exact h rfl
  · rintro d g hl
    obtain rfl : l = (d, .server (.updateMinEncKeyGen u g)) := hl
    exact (h rfl).1

/-- The stage of a rotation after one more statement. -/
lemma at_append_cases (h : At u (tr ++ [ev]) st') : ∃ st, At u tr st ∧ Moves u st ev st' :=
  (follows_append ev).mp h

lemma inv_call (hσ : Inv u σ) (q : ℕ × UInt64) : Inv u (step (code X) σ (.call q)) := by
  have hcases : ∀ (i : ℕ) (c : RotCall), (σ.calls ++ [⟨q, [], code X q⟩])[i]? = some c →
      σ.calls[i]? = some c ∨ c.trace = [] := by
    intro i c hc
    rw [List.getElem?_append] at hc
    split at hc
    · exact .inl hc
    · rcases List.mem_singleton.mp (List.mem_of_getElem? hc) with rfl
      exact .inr rfl
  have hidle : ∀ (c : RotCall) st g, c.trace = [] → At u c.trace st → st.gen ≠ some g := by
    intro c st g htr hst
    rw [htr] at hst
    simp [← show Stage.idle = st from hst, Stage.gen]
  refine ⟨held_call hσ.held wp_rotateKey, ?_, ?_, ?_, ?_⟩
  · intro i c hc
    rcases hcases i c hc with h | h
    · exact hσ.fresh i c h
    · rw [h]
      exact every_nil
  · intro i c hc st hst g hg
    rcases hcases i c hc with h | h
    · exact hσ.le i c h st hst g hg
    · exact absurd hg (hidle c st g h hst)
  · intro i j c c' hc hc' st st' hst hst' g hg hg'
    rcases hcases i c hc with h | h
    · rcases hcases j c' hc' with h' | h'
      · exact hσ.apart i j c c' h h' st st' hst hst' g hg hg'
      · exact absurd hg' (hidle c' st' g h' hst')
    · exact absurd hg (hidle c st g h hst)
  · intro i c hc g mk k hst
    rcases hcases i c hc with h | h
    · exact hσ.blob i c h g mk k hst
    · exact absurd rfl (hidle c _ g h hst)

/-- A statement of one rotation. -/
lemma inv_exec (hσ : Inv u σ) {i : ℕ} {e : ClientEnv} {q : ℕ × UInt64} {tr : List WorldEv}
    {l : Name} {f : ClientEnv → World → World}
    {k : ClientEnv → World → Code (Except ClientError Unit)}
    (hc : σ.calls[i]? = some ⟨q, tr, .stmt l f k⟩) (hC : Apart u σ q.2 l.2) :
    Inv u ⟨f e σ.shared,
      σ.calls.set i ⟨q, tr ++ [⟨l, e, σ.shared, f e σ.shared⟩], k e σ.shared⟩⟩ := by
  have hrefl : ∀ l w, Tolerates u l w w := fun _ _ => ⟨id, fun _ => rfl⟩
  have hfresh : Every (Fresh u q.2) (tr ++ [⟨l, e, σ.shared, f e σ.shared⟩]) :=
    every_append (hσ.fresh i _ hc) (fresh_of_apart hC)
  obtain ⟨st', hst'⟩ := at_of_wp ((hσ.held i _ hc).2 σ.shared e (hrefl _ _) hfresh)
  obtain ⟨st, hst, hmove⟩ := at_append_cases hst'
  -- the generation of the rotation that runs, in whatever way its stages are read
  have hgen : ∀ st, At u (tr ++ [⟨l, e, σ.shared, f e σ.shared⟩]) st → ∀ g, st.gen = some g →
      (∃ st₀, At u tr st₀ ∧ st₀.gen = some g) ∨ Bump u g ⟨l, e, σ.shared, f e σ.shared⟩ := by
    intro st hst g hg
    obtain ⟨st₀, hst₀, hm⟩ := at_append_cases hst
    rcases hm.gen_eq with heq | ⟨g', rfl, hb⟩
    · exact .inl ⟨st₀, hst₀, heq ▸ hg⟩
    · rw [Stage.gen, Option.some.injEq] at hg
      exact .inr (hg ▸ hb)
  -- nobody has raised the generation as far as a bump does
  have hbump : ∀ g, Bump u g ⟨l, e, σ.shared, f e σ.shared⟩ → ∀ (j : ℕ) (c : RotCall),
      σ.calls[j]? = some c → ∀ st, At u c.trace st → st.gen ≠ some g := by
    intro g hb j c hj st hst hg
    obtain ⟨row, hrow, hle⟩ := hσ.le j c hj st hst g hg
    obtain ⟨row', hrow', hlt, -⟩ := hb.account
    rw [show account σ.shared u = some row' from hrow', Option.some.injEq] at hrow
    subst hrow
    omega
  refine ⟨held_exec hσ.held hc (hrefl _ _) hfresh ?_ ?_ (fun _ _ _ _ _ _ h => h), ?_, ?_, ?_, ?_⟩
  · exact fun q l w₁ w₂ w₃ h₁ h₂ => ⟨fun h => h₂.1 (h₁.1 h), fun h => (h₂.2 h).trans (h₁.2 h)⟩
  · intro j c _ hj l' hl'
    refine hmove.tolerates fun g hb hname => ?_
    obtain ⟨d, rfl⟩ : ∃ d, l = (d, .server (.updateMinEncKeyGen u g)) := hb.name
    exact (hC rfl).2 c (List.mem_of_getElem? hj) l' hl' hname
  · intro j c hj
    rcases getElem?_set_cases hj with ⟨-, rfl⟩ | ⟨-, hj⟩
    · exact hfresh
    · exact hσ.fresh j c hj
  · intro j c hj st hst g hg
    have hold : ∀ row, account σ.shared u = some row → g ≤ row.minEncKeyGen →
        ∃ row', account (f e σ.shared) u = some row' ∧ g ≤ row'.minEncKeyGen := by
      intro row hrow hle
      obtain ⟨row', hrow', hle'⟩ := hmove.le hrow
      exact ⟨row', hrow', hle.trans hle'⟩
    rcases getElem?_set_cases hj with ⟨-, rfl⟩ | ⟨-, hj⟩
    · rcases hgen st hst g hg with ⟨st₀, hst₀, hg₀⟩ | hb
      · obtain ⟨row, hrow, hle⟩ := hσ.le i _ hc st₀ hst₀ g hg₀
        exact hold row hrow hle
      · obtain ⟨row, -, -, hpost⟩ := hb.account
        exact ⟨_, hpost, le_rfl⟩
    · obtain ⟨row, hrow, hle⟩ := hσ.le j c hj st hst g hg
      exact hold row hrow hle
  · intro j₁ j₂ c₁ c₂ h₁ h₂ st₁ st₂ hst₁ hst₂ g hg₁ hg₂
    rcases getElem?_set_cases h₁ with ⟨hi₁, rfl⟩ | ⟨-, hj₁⟩ <;>
      rcases getElem?_set_cases h₂ with ⟨hi₂, rfl⟩ | ⟨-, hj₂⟩
    · rw [hi₁, hi₂]
    · rcases hgen st₁ hst₁ g hg₁ with ⟨st₀, hst₀, hg₀⟩ | hb
      · exact hi₁ ▸ hσ.apart _ _ _ c₂ hc hj₂ st₀ st₂ hst₀ hst₂ g hg₀ hg₂
      · exact absurd hg₂ (hbump g hb j₂ c₂ hj₂ st₂ hst₂)
    · rcases hgen st₂ hst₂ g hg₂ with ⟨st₀, hst₀, hg₀⟩ | hb
      · exact hi₂ ▸ hσ.apart _ _ c₁ _ hj₁ hc st₁ st₀ hst₁ hst₀ g hg₁ hg₀
      · exact absurd hg₁ (hbump g hb j₁ c₁ hj₁ st₁ hst₁)
    · exact hσ.apart _ _ c₁ c₂ hj₁ hj₂ st₁ st₂ hst₁ hst₂ g hg₁ hg₂
  · intro j c hj g mk kk hstored row hrow hgrow
    rcases getElem?_set_cases hj with ⟨-, rfl⟩ | ⟨hne, hj⟩
    · obtain ⟨st₀, hst₀, hm⟩ := at_append_cases hstored
      cases hm with
      | quiet hq => exact hσ.blob i _ hc g mk kk hst₀ row (hq.account ▸ hrow) hgrow
      | tail ht => exact hσ.blob i _ hc g mk kk hst₀ row (ht.account ▸ hrow) hgrow
      | store hs =>
        obtain ⟨row₀, rk, -, -, hpost⟩ := hs.account
        rw [show account (f e σ.shared) u = some row from hrow, Option.some.injEq] at hpost
        rw [hpost]
    · rcases hmove.account_cases with heq | ⟨g', hb⟩ | ⟨g', mk', k', rfl, hs⟩
      · exact hσ.blob j c hj g mk kk hstored row (heq ▸ hrow) hgrow
      · obtain ⟨row₀, -, -, hpost⟩ := hb.account
        rw [show account (f e σ.shared) u = some row from hrow, Option.some.injEq] at hpost
        obtain rfl : g' = g := by rw [← hgrow, hpost]
        exact absurd rfl (hbump g' hb j c hj _ hstored)
      · obtain ⟨row₀, rk, -, hg', hpost⟩ := hs.account
        rw [show account (f e σ.shared) u = some row from hrow, Option.some.injEq] at hpost
        obtain rfl : g' = g := by rw [← hgrow, hpost, ← hg']
        exact absurd (hσ.apart j i c _ hj hc _ _ hstored hst g' rfl rfl) hne

/-! ### What the devices and the server agree on -/

/-- If the statement is the report of success to a device of `u`, for the generation that the
account is at, then the blob of the account is the one the device sent. -/
def ReportHolds (u : Ident) (w : World) (ev : WorldEv) : Prop :=
  match ev.name.2 with
  | .rotateAnswer u' sent (.ok resp) => u' = u →
    ∀ row ∈ account w u, row.minEncKeyGen = resp.minEncKeyGen → row.svkCiphertextBlob = sent
  | _ => True

instance (u : Ident) (w : World) (ev : WorldEv) : Decidable (ReportHolds u w ev) := by
  unfold ReportHolds
  split <;> infer_instance

/-- The row was written by one of the rotations. -/
def Written (u : Ident) (σ : RotSys) (r : ItemRow Blob) : Prop :=
  ∃ c ∈ σ.calls, ∃ ev ∈ c.trace, Wrote u ev r

structure Agreed (u : Ident) (σ : RotSys) : Prop where
  /-- What a device was told of a generation is what the server stores for it. -/
  reports : ∀ c ∈ σ.calls, Every (ReportHolds u σ.shared) c.trace
  /-- All rows of one generation are under one key. -/
  sameKey : ∀ g, ∃ k, ∀ r, Written u σ r → r.encKeyGen = g → SealedUnder k r
  /-- It is the key in the blob of the account, for the generation that the account is at. -/
  storedKey : ∀ row, account σ.shared u = some row → ∀ r, Written u σ r →
    r.encKeyGen = row.minEncKeyGen → ∃ mk k, row.svkCiphertextBlob = wrapSvk mk k ∧ SealedUnder k r

/-- Once the blob is stored, the stage stays. -/
lemma stored_stays {g : ℤ} {mk k : Key} (h : Follows (Moves u) (.stored g mk k) tr st) :
    st = .stored g mk k := by
  refine h.invariant (P := (· = .stored g mk k)) (fun a ev b ha hm => ?_) rfl
  subst ha
  cases hm <;> rfl

/-- A row that a rotation wrote is of its generation, under its key. -/
lemma At.wrote (h : At u tr st) (hev : ev ∈ tr) {r : ItemRow Blob} (hr : Wrote u ev r) :
    ∃ mk k, st = .stored r.encKeyGen mk k ∧ SealedUnder k r := by
  obtain ⟨a, b, tr', hm, hrest⟩ := Follows.mem h hev
  cases hm with
  | quiet hq => exact absurd hr (hq.wrote r)
  | bump hb => exact absurd hr (hb.wrote r)
  | store hs => exact absurd hr (hs.wrote r)
  | tail ht =>
    obtain ⟨rfl, hsealed⟩ := ht.wrote r hr
    exact ⟨_, _, stored_stays hrest, hsealed⟩

/-- A report of success is of the generation and the blob of the rotation. -/
lemma At.report (h : At u tr st) (hev : ev ∈ tr) {d : ℕ} {sent : Blob} {resp : RotateKeyResp}
    (hn : ev.name = (d, .rotateAnswer u sent (.ok resp))) :
    ∃ mk k, st = .stored resp.minEncKeyGen mk k ∧ sent = wrapSvk mk k := by
  obtain ⟨a, b, tr', hm, hrest⟩ := Follows.mem h hev
  cases hm with
  | quiet hq => exact absurd hn (hq.answer d sent resp)
  | bump hb =>
    obtain ⟨d', hn'⟩ := hb.name
    simp [hn'] at hn
  | store hs =>
    obtain ⟨d', hn'⟩ := hs.name
    simp [hn'] at hn
  | tail ht =>
    obtain ⟨rfl, rfl⟩ := ht.answer d sent resp hn
    exact ⟨_, _, stored_stays hrest, rfl⟩

lemma Inv.stage (hσ : Inv u σ) {i : ℕ} {c : RotCall} (hc : σ.calls[i]? = some c) :
    ∃ st, At u c.trace st := at_of_wp (hσ.held i c hc)

lemma Inv.agreed (hσ : Inv u σ) : Agreed u σ := by
  refine ⟨fun c hc ev hev => ?_, fun g => ?_, ?_⟩
  · obtain ⟨i, hi⟩ := List.mem_iff_getElem?.mp hc
    obtain ⟨st, hst⟩ := hσ.stage hi
    unfold ReportHolds
    split
    · next u' sent resp hname =>
      rintro rfl row hrow hgen
      obtain ⟨mk, k, rfl, rfl⟩ := hst.report hev (d := ev.name.1) (Prod.ext rfl hname)
      exact hσ.blob i c hi _ mk k hst row hrow hgen
    · trivial
  · -- all rows of a generation are of one rotation, and so under its key
    by_cases hex : ∃ r, Written u σ r ∧ r.encKeyGen = g
    · obtain ⟨r, ⟨c, hc, ev, hev, hr⟩, rfl⟩ := hex
      obtain ⟨i, hi⟩ := List.mem_iff_getElem?.mp hc
      obtain ⟨st, hst⟩ := hσ.stage hi
      obtain ⟨mk, k, rfl, -⟩ := hst.wrote hev hr
      refine ⟨k, ?_⟩
      rintro r' ⟨c', hc', ev', hev', hr'⟩ hg
      obtain ⟨j, hj⟩ := List.mem_iff_getElem?.mp hc'
      obtain ⟨st', hst'⟩ := hσ.stage hj
      obtain ⟨mk', k', rfl, hsealed⟩ := hst'.wrote hev' hr'
      obtain rfl := hσ.apart i j c c' hi hj _ _ hst hst' r.encKeyGen rfl (by rw [← hg]; rfl)
      rw [hi, Option.some.injEq] at hj
      subst hj
      obtain ⟨mk₂, k₂, heq, hsealed₂⟩ := hst.wrote hev' hr'
      rw [Stage.stored.injEq] at heq
      exact heq.2.2 ▸ hsealed₂
    · exact ⟨0, fun r hr hg => absurd ⟨r, hr, hg⟩ hex⟩
  · rintro row hrow r ⟨c, hc, ev, hev, hr⟩ hg
    obtain ⟨i, hi⟩ := List.mem_iff_getElem?.mp hc
    obtain ⟨st, hst⟩ := hσ.stage hi
    obtain ⟨mk, k, rfl, hsealed⟩ := hst.wrote hev hr
    exact ⟨mk, k, hσ.blob i c hi _ mk k hst row hrow hg.symm, hsealed⟩

/-- **Agreement of rotations**: in every interleaving of the rotations of any devices in
which every rotation of `u` reads and raises the generation from below, and raises it while
no other one is about to store its blob, a device that was told of success for a generation
has its blob stored for it, and all rows that rotations wrote at a generation are under one
key, that in the blob of the account. -/
theorem rotations_agree (X : Ext Blob) (w : World) (u : Ident) (as : List RotAct)
    (has : Along (code X) (OneByOne u) (init w) as) : Agreed u (run (code X) (init w) as) := by
  have hinv : Inv u (run (code X) (init w) as) := by
    refine run_induction (P := Inv u) (fun σ a hσ hC => ?_)
      ⟨held_init w, by simp [init], by simp [init], by simp [init], by simp [init]⟩ has
    rcases step_cases (h := code X) σ a with ⟨q, rfl, -⟩ |
      ⟨i, e, q, tr, l, f, k, rfl, hc, hst⟩ | hst
    · exact inv_call hσ q
    · rw [hst]
      exact inv_exec hσ hc (hC _ hc l rfl)
    · rwa [hst]
  exact hinv.agreed

/-! ### Two devices -/

/-- Every text is a uuid, and every blob is 32 bytes long. -/
def anyUuid : Ext Blob := ⟨fun _ => true, fun _ => 32⟩

/-- An unlocked device of the user 7 with the master key 9 and the vault key 100. -/
def unlocked : Memory :=
  { Memory.new with
    svk := some 100
    dek := some (.dek 100)
    mk := some 9
    locked := false
    transport := some 7
    serverUserId := some 7 }

/-- One item, of the generation 1, on the server and on every device. -/
def oneItem : World where
  server :=
    ⟨.single ⟨7, "u", .raw 0, .raw 0, wrapSvk 9 100, .raw 0, 1, 0, 0⟩,
      .single ⟨3, 7, 1, 1, none, some (encrypt (.dek 100) 3 1 (.bytes 5)), 0, some 1⟩⟩
  devices _ :=
    ⟨⟨.single ⟨3, 1, 1, none, "t", "", "", "[]", 0, 0⟩,
      .single ⟨3, encrypt (.dek 100) 3 1 (.bytes 5)⟩,
      .single ⟨1, 0, 0, .raw 0⟩, .empty, .empty, .empty⟩, unlocked⟩

/-- The device `d` rotates to the generation `g` with the new vault key `k`. -/
def rotation (i d : ℕ) (g : UInt64) (k : Key) : List RotAct :=
  .call (d, g) :: List.replicate 31 (.exec i ⟨0, 0, false, k⟩)

theorem rotations_agree_twice :
    Along (code anyUuid) (OneByOne 7) (init oneItem) (rotation 0 0 2 200 ++ rotation 1 0 3 300) ∧
    Agreed 7 (run (code anyUuid) (init oneItem) (rotation 0 0 2 200 ++ rotation 1 0 3 300)) :=
  ⟨by decide, rotations_agree anyUuid oneItem 7 _ (by decide)⟩

/-- Two devices rotate to the same generation, one after the other: the second one is told
of success, and its blob is dropped. -/
theorem rotations_disagree : ¬∀ as : List RotAct,
    Agreed 7 (run (code anyUuid) (init oneItem) as) := by
  intro h
  have := (h (rotation 0 0 2 200 ++ rotation 1 1 2 300)).reports
  revert this
  decide +kernel

end Vautr.RotationAgreement
