import Vautr.Effects
import Vautr.Interleave

/-!
Saves and syncs that run while the same device rotates its vault key.

A rotation lists the rows it has to re-encrypt once, after the server has confirmed the
generation, and drops the old key at its end. The list holds the live rows of a lower
generation only, and nothing keeps a save or a page of a sync from storing ciphertext of the
old key after it was made: the save was let in by the epoch gate before the rotation raised
it, and a page is not gated at all. So a rotation that ends well leaves everything readable as
long as every row with a payload is in the list, and what is stored later is of the new key or
is still to be re-encrypted.
-/

namespace Vautr.RotationRace

open Vautr.Atomic Vautr.Interleave Vautr.Sql Vautr.Server Vautr.Handlers Vautr.ClientDb
  Vautr.Crypto Vautr.Zoom Vautr.Client Vautr.Orchestrator Vautr.Effects

abbrev WorldEv := Ev World ClientEnv Name

/-- The commands that run at the same time on one device. -/
abbrev RaceSys := Sys Cmd World ClientEnv Name (Except ClientError CmdReply)

abbrev RaceCall := Call Cmd World ClientEnv Name (Except ClientError CmdReply)

abbrev RaceAct := Act Cmd ClientEnv

/-- The rows of the device `d` that have a payload, trashed ones included. -/
def rowsOf (d : ℕ) (w : World) : List (OverviewRow × Blob) := joined (w.devices d).db

/-- The key that the device `d` reads its rows with. -/
def dekOf (d : ℕ) (w : World) : Option DKey := (w.devices d).mem.dek

/-- The row opens with the key, for the generation in it. -/
def Opens (k : DKey) (r : OverviewRow × Blob) : Prop :=
  (decrypt k r.1.uuid (asU64 r.1.encKeyGen) r.2).isSome = true

/-- Every row with a payload opens with the key in memory. -/
def ReadsAll (d : ℕ) (w : World) : Prop := ∃ k ∈ dekOf d w, ∀ r ∈ rowsOf d w, Opens k r

instance (k : DKey) (r : OverviewRow × Blob) : Decidable (Opens k r) :=
  inferInstanceAs (Decidable (_ = true))

instance (d : ℕ) (w : World) : Decidable (ReadsAll d w) :=
  inferInstanceAs (Decidable (∃ k ∈ dekOf d w, ∀ r ∈ rowsOf d w, Opens k r))

/-! ### How far a rotation has come -/

/-- The new vault key, the generation the server has confirmed, and the listed items that are
still to be re-encrypted. -/
inductive Stage
  | start
  | keyed (k : Key)
  | confirmed (k : Key) (gen : UInt64)
  | listed (k : Key) (gen : UInt64) (left : List Ident)
  deriving DecidableEq

def advance (d : ℕ) : Stage → WorldEv → Stage
  | .start, ev =>
    match ev.name.2 with
    | .newKey => .keyed ev.inp.key
    | _ => .start
  | .keyed k, ev =>
    match ev.name.2, ev.inp.fault with
    | .rotateAnswer _ _ (.ok resp), false => .confirmed k (asU64 resp.minEncKeyGen)
    | _, _ => .keyed k
  | .confirmed k gen, ev =>
    match ev.name.2, ev.inp.fault with
    | .listRotationItems, false =>
      .listed k gen ((listRotationItems (asI64 gen) (ev.pre.devices d).db).map (·.1.uuid))
    | _, _ => .confirmed k gen
  | .listed k gen left, ev =>
    match ev.name.2, ev.inp.fault with
    | .reencryptItem uuid, false => .listed k gen (left.filter (· ≠ uuid))
    | _, _ => .listed k gen left

def stageOf (d : ℕ) (tr : List WorldEv) : Stage := tr.foldl (advance d) .start

variable {X : Ext Blob} {d : ℕ} {α β ε : Type} {tr : List WorldEv} {w : World} {st : Stage}
  {ev : WorldEv} {k oldSvk : Key} {gen : UInt64} {left : List Ident}

@[simp] lemma stageOf_append : stageOf d (tr ++ [ev]) = advance d (stageOf d tr) ev := by
  simp [stageOf]

lemma advance_ordinary (h : ordinary ev.name.2 = true) : advance d st ev = st := by
  cases st <;> unfold advance <;> cases hn : ev.name.2 <;> simp_all [ordinary]

/-- After the list is made, only re-encryption takes items from it. -/
lemma advance_listed (h : ev.inp.fault = false → ∀ u, ev.name.2 ≠ .reencryptItem u) :
    advance d (.listed k gen left) ev = .listed k gen left := by
  simp only [advance]
  split
  · next hn hf => exact absurd hn (h hf _)
  · rfl

/-! ### What the statements do with the rows -/

section Rows

variable {db db' : LocalDb Blob} {r : OverviewRow × Blob}

lemma mem_joined_iff_get : r ∈ joined db ↔
    db.overviews.get r.1.uuid = some r.1 ∧ db.payloads.get r.1.uuid = some ⟨r.1.uuid, r.2⟩ := by
  rw [show r = (r.1, r.2) from rfl, mem_joined]
  refine and_congr_left fun _ => ⟨Table.get_of_mem, Table.get_mem⟩

/-- The items that a save or a page stores. -/
def touched : Label → List Ident
  | .saveItem uuid => [uuid]
  | .persistPage uuids => uuids
  | _ => []

/-- A row after a statement of a save or of a sync: an item that it stored, or an old row. -/
lemma mem_joined_of_dbStep {l : Label} (h : DbStep l db db') (hl : ordinary l = true)
    (hr : r ∈ joined db') : r.1.uuid ∈ touched l ∨ r ∈ joined db := by
  rw [mem_joined_iff_get] at hr ⊢
  obtain ⟨ho, hp⟩ := hr
  cases h with
  | same => exact .inr ⟨ho, hp⟩
  | clear => exact .inr ⟨ho, hp⟩
  | blacklist => exact .inr ⟨ho, hp⟩
  | reencrypt => cases hl
  | storeBlob => cases hl
  | save o p =>
    rcases eq_or_ne o.uuid r.1.uuid with heq | hne
    · exact .inl (by simp [touched, heq])
    · simp only [saveItemTxn, upsertPayload, Table.get_upsert, hne, if_false] at ho hp
      exact .inr ⟨ho, hp⟩
  | delete uuid =>
    have hdel : (deleteItemTxn uuid db).overviews = db.overviews.delete (·.uuid = uuid) ∧
        (deleteItemTxn uuid db).payloads = db.payloads.delete (·.uuid = uuid) := by
      unfold deleteItemTxn
      split <;> exact ⟨rfl, rfl⟩
    rw [hdel.1, Table.get_delete] at ho
    rw [hdel.2, Table.get_delete] at hp
    exact .inr ⟨(Option.filter_eq_some_iff.mp ho).1, (Option.filter_eq_some_iff.mp hp).1⟩
  | page us deletes cursor minGen _ _ hpage =>
    by_cases hmem : r.1.uuid ∈ us.map (·.1.uuid)
    · exact .inl hmem
    obtain ⟨hov, hpay, -⟩ := applySyncBatchTxn_get hpage r.1.uuid
    rw [hov (by simpa [PulledOverview.row, Function.comp_def] using hmem)] at ho
    rw [hpay (by simpa [Function.comp_def] using hmem)] at hp
    split at ho
    · cases ho
    · next hkeep => exact .inr ⟨ho, by simpa [hkeep] using hp⟩

/-- A row after the re-encryption of an item: that item, under the new key, or an old row. -/
lemma mem_joined_reencrypt {u : Ident} {pt : Plain}
    (hr : r ∈ joined (reencryptItemTxn u (encrypt (.dek k) u gen pt) (asI64 gen) db)) :
    r.1.uuid = u ∧ Opens (.dek k) r ∨ r.1.uuid ≠ u ∧ r ∈ joined db := by
  rw [mem_joined_iff_get] at hr ⊢
  obtain ⟨ho, hp⟩ := hr
  obtain ⟨o, ho, heq⟩ := Table.get_of_get_update (OverviewRow.setGen_uuid _) ho
  obtain ⟨p, hp, hpq⟩ := Table.get_of_get_update (setPayload_uuid _) hp
  have huo : o.uuid = r.1.uuid := Table.get_key ho
  have hup : p.uuid = r.1.uuid := Table.get_key hp
  rcases eq_or_ne r.1.uuid u with hu | hu
  · simp only [huo, hup, hu, decide_true, if_true] at heq hpq
    refine .inl ⟨hu, ?_⟩
    have hgen : r.1.encKeyGen = asI64 gen := by rw [← heq]; rfl
    have hpay : r.2 = encrypt (.dek k) u gen pt := by
      have := congrArg PayloadRow.payload hpq
      exact this.symm
    rw [Opens, hgen, hpay, hu, asU64_asI64, decrypt_encrypt]
    rfl
  · simp only [huo, hup, hu, decide_false, Bool.false_eq_true, if_false] at heq hpq
    exact .inr ⟨hu, by rw [ho, heq], by rw [hp, hpq]⟩

end Rows

/-! ### The rotation -/

/-- What a statement of a rotation does with the rows: nothing, or it re-encrypts one under
the new key. -/
inductive Fits (d : ℕ) (tr : List WorldEv) (ev : WorldEv) : Prop
  | stay (hrows : rowsOf d ev.post = rowsOf d ev.pre)
    (hname : ev.inp.fault = false → ∀ u, ev.name.2 ≠ .reencryptItem u)
  | reencrypt {k : Key} {gen : UInt64} {left : List Ident} {u : Ident} {pt : Plain}
    (hst : stageOf d tr = .listed k gen left) (hname : ev.name.2 = .reencryptItem u)
    (hfault : ev.inp.fault = false) (hdb : (ev.post.devices d).db =
      reencryptItemTxn u (encrypt (.dek k) u gen pt) (asI64 gen) (ev.pre.devices d).db)

/-- The statements of a rotation that has come to the stage `st`. -/
structure At (d : ℕ) (st : Stage) (tr : List WorldEv) : Prop where
  fits : Ordered (Fits d) tr
  stage : stageOf d tr = st

/-- The others leave the key in memory alone. -/
def rotRules (d : ℕ) : Rules World ClientEnv Name :=
  ⟨fun _ w w' => dekOf d w' = dekOf d w, fun _ => True, Ordered (Fits d)⟩

/-- What a rotation that ended well has done: nothing is left to re-encrypt, and the key in
memory is the new one. -/
def Ended (d : ℕ) : Except ε α → List WorldEv → World → Prop
  | .ok _, tr, w => ∃ k gen, At d (.listed k gen []) tr ∧ dekOf d w = some (.dek k)
  | .error _, tr, _ => Ordered (Fits d) tr

/-- The statement does nothing that the rotation is about. -/
structure Quiet (d : ℕ) (ev : WorldEv) : Prop where
  rows : rowsOf d ev.post = rowsOf d ev.pre
  dek : dekOf d ev.post = dekOf d ev.pre
  name : ordinary ev.name.2 = true

lemma permits_still : Permits d anyEffect (Quiet d) :=
  permits_rests.mono fun _ h => ⟨congrArg joined h.db, h.memory.dek, h.label⟩

lemma At.snoc {st' : Stage} (h : At d st tr) (hev : Fits d tr ev) (hst : advance d st ev = st') :
    At d st' (tr ++ [ev]) :=
  ⟨ordered_append h.fits hev, by rw [stageOf_append, h.stage, hst]⟩

lemma Quiet.fits (h : Quiet d ev) : Fits d tr ev := by
  refine .stay h.rows fun _ u hu => ?_
  have := h.name
  rw [hu] at this
  cases this

lemma At.quiet (h : At d st tr) (hev : Quiet d ev) : At d st (tr ++ [ev]) :=
  h.snoc hev.fits (advance_ordinary hev.name)

lemma wp_quiet {p : Code α} (hp : Promises (Quiet d) p) (h : At d st tr) :
    wp (rotRules d) p (fun _ tr w' => At d st tr ∧ dekOf d w' = dekOf d w) tr w :=
  wp_of_guarantees (J := fun tr w' => At d st tr ∧ dekOf d w' = dekOf d w) hp
    (fun _ _ _ _ => trivial) (fun _ _ h => h.1.fits) (fun _ _ _ _ h hr => ⟨h.1, hr.trans h.2⟩)
    (fun _ _ h hev => ⟨h.1.quiet hev, hev.dek.trans h.2⟩) (fun _ _ _ h => h) ⟨h, rfl⟩

lemma wp_bind_quiet {x : ExceptT ε Code β} {f : β → ExceptT ε Code α}
    {Q : Except ε α → List WorldEv → World → Prop} (hx : Promises (Quiet d) x.run)
    (h : At d st tr) (herr : ∀ e tr w, Ordered (Fits d) tr → Q (.error e) tr w)
    (hf : ∀ b tr w', At d st tr → dekOf d w' = dekOf d w → wp (rotRules d) (f b).run Q tr w') :
    wp (rotRules d) (x >>= f).run Q tr w := by
  rw [wp_bind_except]
  refine wp_mono (fun r tr w' hr => ?_) (wp_quiet hx h)
  cases r with
  | ok b => exact hf b tr w' hr.1 hr.2
  | error e => exact herr e tr w' hr.1.fits

/-- The answer of the server is the generation that the rotation goes on with. -/
lemma wp_rotateKeyRequest {user : Ident} {newGen : UInt64} {blob : Blob} (h : At d (.keyed k) tr) :
    wp (rotRules d) (rotateKeyRequest X d user newGen blob).run (fun r tr _ => match r with
      | .ok gen => At d (.confirmed k gen) tr
      | .error _ => Ordered (Fits d) tr) tr w := by
  unfold rotateKeyRequest roundTrip
  rw [wp_bind_except]
  refine wp_bind_quiet (guarantees_message fun e w => permits_still.same rfl e w) h
    (fun _ _ _ h => h) fun _ tr w' htr _ => ?_
  have hrun : Guarantees (fun _ _ _ => True) (fun _ => True)
      (accountRotateKey X ⟨user, asI64 newGen, some blob⟩).run := guarantees_true _
  have hserver : Promises (Quiet d)
      (zoom (onServer d) (accountRotateKey X ⟨user, asI64 newGen, some blob⟩).run) :=
    guarantees_zoom hrun (fun _ _ _ _ => trivial) fun l e w s _ =>
      permits_still.server l e w s trivial
  refine wp_bind_quiet (guarantees_lift hserver) htr (fun _ _ _ h => h) fun r tr w' htr _ => ?_
  refine ⟨htr.fits, fun w' e _ _ => ?_⟩
  have hfits : Fits d tr ⟨(d, .rotateAnswer user blob r), e, w', w'⟩ :=
    .stay rfl fun _ u hu => by cases hu
  by_cases hf : e.fault = true
  · simpa [hf] using ordered_append htr.fits hfits
  · cases r with
    | error err => simpa [hf, Except.mapError] using ordered_append htr.fits hfits
    | ok resp =>
      have hst : advance d (.keyed k) ⟨(d, .rotateAnswer user blob (.ok resp)), e, w', w'⟩ =
          .confirmed k (asU64 resp.minEncKeyGen) := by
        simp [advance, hf]
      simpa [hf, Except.mapError] using htr.snoc hfits hst

/-- The transaction that re-encrypts an item takes it from the list. -/
lemma At.reencrypt (h : At d (.listed k gen left) tr) (u : Ident) (pt : Plain) {e : ClientEnv}
    (hf : e.fault = false) (w : World) :
    At d (.listed k gen (left.filter (· ≠ u))) (tr ++ [⟨(d, .reencryptItem u), e, w,
      w.setDevice d { w.devices d with
        db := reencryptItemTxn u (encrypt (.dek k) u gen pt) (asI64 gen) (w.devices d).db }⟩]) :=
  h.snoc (.reencrypt h.stage rfl hf (congrArg Device.db (World.setDevice_self w d _)))
    (by simp [advance, hf])

/-- Of the items that were left, none of those done is left. -/
def Leaves (d : ℕ) (k : Key) (gen : UInt64) (left done : List Ident) (tr : List WorldEv) : Prop :=
  ∃ left', At d (.listed k gen left') tr ∧ ∀ u ∈ left', u ∈ left ∧ u ∉ done

lemma Leaves.after {left' done done' : List Ident} (h : Leaves d k gen left' done' tr)
    (hsub : ∀ u ∈ left', u ∈ left ∧ u ∉ done) : Leaves d k gen left (done ++ done') tr := by
  obtain ⟨left'', hat, hsub'⟩ := h
  refine ⟨left'', hat, fun u hu => ?_⟩
  obtain ⟨hu', hdone'⟩ := hsub' u hu
  obtain ⟨hleft, hdone⟩ := hsub u hu'
  exact ⟨hleft, by simp [hdone, hdone']⟩

/-- What the loops of a rotation come to. -/
def Worked (d : ℕ) (k : Key) (gen : UInt64) (left done : List Ident) :
    Except ClientError α → List WorldEv → World → Prop
  | .ok _, tr, _ => Leaves d k gen left done tr
  | .error _, tr, _ => Ordered (Fits d) tr

lemma wp_reencryptRows (rows : List (OverviewRow × Blob)) (h : At d (.listed k gen left) tr) :
    wp (rotRules d) (reencryptRows d oldSvk k gen rows).run
      (Worked d k gen left (rows.map (·.1.uuid))) tr w := by
  induction rows generalizing left tr w with
  | nil => exact ⟨left, h, fun u hu => ⟨hu, by simp⟩⟩
  | cons row rest ih =>
    obtain ⟨o, payload⟩ := row
    unfold reencryptRows
    split
    · exact h.fits
    · next pt _ =>
      rw [wp_bind_except]
      refine wp_writeDb h.fits (fun w' e _ hf => ?_) fun w' e _ hf => ?_
      · exact ordered_append h.fits (.stay rfl (by simp [hf]))
      · dsimp only
        rw [wp_bind_except]
        refine wp_mono (fun r tr w hr => ?_) (ih (h.reencrypt o.uuid pt hf w'))
        cases r with
        | error e => exact hr
        | ok items =>
          have hsub : ∀ u ∈ left.filter (· ≠ o.uuid), u ∈ left ∧ u ∉ [o.uuid] := by simp
          exact hr.after hsub

lemma wp_rotateBatches {user : Ident} (batches : List (List (OverviewRow × Blob)))
    (h : At d (.listed k gen left) tr) :
    wp (rotRules d) (rotateBatches X d user oldSvk k gen batches).run
      (Worked d k gen left (batches.flatten.map (·.1.uuid))) tr w := by
  induction batches generalizing left tr w with
  | nil => exact ⟨left, h, fun u hu => ⟨hu, by simp⟩⟩
  | cons rows rest ih =>
    unfold rotateBatches
    rw [wp_bind_except]
    refine wp_mono (fun r tr w hr => ?_) (wp_reencryptRows rows h)
    cases r with
    | error e => exact hr
    | ok items =>
      obtain ⟨left', hat, hsub⟩ := hr
      refine wp_bind_quiet (guarantees_orFail (permits_still.pushBatch _ _)) hat
        (fun _ _ _ h => h) fun outs tr w hat _ => wp_bind_quiet
        (permits_still.settleOutcomes _ _ _ _ _) hat (fun _ _ _ h => h) fun _ tr w hat _ => ?_
      refine wp_mono (fun r tr w hr => ?_) (ih hat)
      cases r with
      | error e => exact hr
      | ok _ => simpa [Worked] using Leaves.after hr hsub

lemma quiet_writeMemory {g : Memory → Memory} (hg : ∀ m, (g m).dek = m.dek) :
    Promises (Quiet d) (writeMemory d g : ExceptT ε Code Unit).run :=
  guarantees_onMemory fun e w => ⟨by simp [rowsOf], by simp [dekOf, hg], rfl⟩

lemma wp_listRotationItems (h : At d (.confirmed k gen) tr) :
    wp (rotRules d) (readDb d .listRotationItems "list rotation items"
      (listRotationItems (asI64 gen))).run (fun r tr _ => match r with
      | .ok rows => At d (.listed k gen (rows.map (·.1.uuid))) tr
      | .error _ => Ordered (Fits d) tr) tr w := by
  refine wp_readDb h.fits (fun w' e _ hf => ?_) fun w' e _ hf => ?_
  · exact ordered_append h.fits (.stay rfl (by simp [hf]))
  · exact h.snoc (.stay rfl (by simp)) (by simp [advance, hf])

lemma wp_storeSvkBlob {blob : Blob} (h : At d (.listed k gen left) tr) :
    wp (rotRules d) (onDb d .storeSvkBlob "store svk"
      fun db => (storeSvkBlob blob db).map (·, ())).run (Worked d k gen left []) tr w := by
  refine wp_onDb h.fits (fun w' e _ _ => ?_) fun w' e db a _ _ hdb => ?_
  · exact ordered_append h.fits (.stay rfl (by simp))
  obtain ⟨db', hstore, heq⟩ := Option.map_eq_some_iff.mp hdb
  obtain rfl : db' = db := congrArg Prod.fst heq
  have hrows : joined db' = joined (w'.devices d).db := by
    unfold storeSvkBlob at hstore
    split at hstore
    · rw [← Option.some.inj hstore]
      rfl
    · cases hstore
  have hat : At d (.listed k gen left) (tr ++ [⟨(d, .storeSvkBlob), e, w',
      w'.setDevice d { w'.devices d with db := db' }⟩]) :=
    h.snoc (.stay (by simpa [rowsOf] using hrows) (by simp)) (advance_listed (by simp))
  exact ⟨left, hat, fun u hu => ⟨hu, by simp⟩⟩

/-- The new key takes the place of the old one. -/
lemma wp_setDek (h : At d st tr) :
    wp (rotRules d) (writeMemory d ({ · with dek := some (.dek k) }) : Op Unit).run
      (fun _ tr w => At d st tr ∧ dekOf d w = some (.dek k)) tr w := by
  refine ⟨h.fits, fun w' e _ _ => ?_⟩
  exact ⟨h.snoc (.stay (by simp [rowsOf]) (by simp)) (advance_ordinary rfl), by simp [dekOf]⟩

/-- What a rotation does once the server has confirmed the generation. -/
lemma wp_rotateItems {user : Ident} {mk : Key} (h : At d (.confirmed k gen) tr) :
    wp (rotRules d) (rotateItems X d user mk oldSvk k gen).run (Ended d) tr w := by
  unfold rotateItems
  refine wp_bind_quiet (quiet_writeMemory fun _ => rfl) h (fun _ _ _ h => h) fun _ tr w h _ =>
    wp_bind_quiet permits_still.publish h (fun _ _ _ h => h) fun _ tr w h _ => ?_
  rw [wp_bind_except]
  refine wp_mono (fun r tr w hr => ?_) (wp_listRotationItems h)
  rcases r with e | rows
  · exact hr
  dsimp only
  rw [wp_bind_except]
  refine wp_mono (fun r tr w hr => ?_) (wp_rotateBatches (chunks 100 rows) hr)
  rcases r with e | _
  · exact hr
  -- every listed row was in some batch, so nothing is left
  obtain ⟨left, hat, hsub⟩ := hr
  obtain rfl : left = [] := by
    refine List.eq_nil_iff_forall_not_mem.mpr fun u hu => ?_
    obtain ⟨hlist, hdone⟩ := hsub u hu
    obtain ⟨row, hrow, rfl⟩ := List.mem_map.mp hlist
    exact hdone (List.mem_map_of_mem ((mem_flatten_chunks (by decide)).mpr hrow))
  dsimp only
  rw [wp_bind_except]
  refine wp_mono (fun r tr w hr => ?_) (wp_storeSvkBlob hat)
  rcases r with e | _
  · exact hr
  obtain ⟨left, hat, hsub⟩ := hr
  obtain rfl : left = [] := List.eq_nil_iff_forall_not_mem.mpr fun u hu => by simpa using hsub u hu
  refine wp_bind_quiet (quiet_writeMemory fun _ => rfl) hat (fun _ _ _ h => h) fun _ tr w h _ =>
    wp_bind_quiet (quiet_writeMemory fun _ => rfl) h (fun _ _ _ h => h) fun _ tr w h _ =>
    wp_bind_quiet (quiet_writeMemory fun _ => rfl) h (fun _ _ _ h => h) fun _ tr w h _ => ?_
  rw [wp_bind_except]
  refine wp_mono (fun r tr w hr => ?_) (wp_setDek h)
  rcases r with e | _
  · exact hr.1.fits
  refine wp_mono (fun r tr w' hr' => ?_) (wp_quiet permits_still.publish hr.1)
  cases r with
  | error e => exact hr'.1.fits
  | ok _ => exact ⟨k, gen, hr'.1, hr'.2.trans hr.2⟩

/-- **The rotation**: if it ends well, it has re-encrypted everything it has listed, and the
key in memory is the one it has made. -/
lemma wp_rotateKey (newGen : UInt64) (h : At d .start tr) :
    wp (rotRules d) (rotateKey X d newGen).run (Ended d) tr w := by
  unfold rotateKey
  refine wp_bind_quiet permits_still.requireUnlocked h (fun _ _ _ h => h) fun _ tr w h _ =>
    wp_bind_quiet permits_still.require h (fun _ _ _ h => h) fun user tr w h _ =>
    wp_bind_quiet permits_still.require h (fun _ _ _ h => h) fun _ tr w h _ =>
    wp_bind_quiet permits_still.require h (fun _ _ _ h => h) fun mk tr w h _ =>
    wp_bind_quiet permits_still.require h (fun _ _ _ h => h) fun oldSvk tr w h _ => ?_
  rw [wp_bind_except]
  refine ⟨h.fits, fun w' e _ _ => ?_⟩
  have hkeyed : At d (.keyed e.key) (tr ++ [⟨(d, .newKey), e, w', w'⟩]) :=
    h.snoc (.stay rfl (by simp)) rfl
  dsimp only
  rw [World.setDevice_eq_self]
  change wp _ (orFail _ _ >>= _ : Op Unit).run _ _ _
  rw [wp_bind_except, wp_orFail]
  refine wp_mono (fun r tr w hr => ?_) (wp_rotateKeyRequest hkeyed)
  cases r with
  | error e => exact hr
  | ok gen => exact wp_rotateItems hr

/-! ### Saves and syncs -/

/-- What the others do: they leave the key alone, and store the items they name. -/
structure Mild (d : ℕ) (ev : WorldEv) : Prop where
  dek : dekOf d ev.post = dekOf d ev.pre
  rows : ∀ r ∈ rowsOf d ev.post, r.1.uuid ∈ touched ev.name.2 ∨ r ∈ rowsOf d ev.pre

lemma permitsSync_mild : PermitsSync d anyEffect (Mild d) where
  read _ := trivial
  memory l e w m hl hm := ⟨by simp [dekOf, hm.dek], fun r hr => .inr (by simpa [rowsOf] using hr)⟩
  server l e w s _ := ⟨rfl, fun _ hr => .inr hr⟩
  database l e w db _ hl _ h :=
    ⟨by simp [dekOf], fun r hr => mem_joined_of_dbStep h hl (by simpa [rowsOf] using hr)⟩
  cursor e w c := ⟨by simp [dekOf], fun r hr => .inr (by simpa [rowsOf] using hr)⟩
  gate e w g := ⟨by simp [dekOf], fun r hr => .inr (by simpa [rowsOf] using hr)⟩
  clean e w := ⟨by simp [dekOf], fun r hr => .inr (by simpa [rowsOf] using hr)⟩
  lists l e w db _ hl h :=
    ⟨by simp [dekOf], fun r hr => mem_joined_of_dbStep h (by cases l <;> first | rfl | cases hl)
      (by simpa [rowsOf] using hr)⟩

/-! ### All of them at the same time -/

def isRotation : Cmd → Bool
  | .rotateKey _ => true
  | _ => false

/-- Saves and syncs are asked for at any time, and one rotation. -/
def Asked (σ : RaceSys) : RaceAct → Prop
  | .call (.saveItem _ _) => True
  | .call .sync => True
  | .call (.rotateKey _) => ∀ c ∈ σ.calls, isRotation c.req = false
  | .call _ => False
  | .exec _ _ => True

/-- What a statement has to meet, as far as the rotation has come. When the rows are listed,
all of them are live and of a lower generation. What a save or a page stores later opens with
the new key, or is of an item that is still to be re-encrypted. -/
def Allowed (d : ℕ) : Stage → WorldEv → Prop
  | .confirmed _ gen, ev => ev.name.2 = .listRotationItems →
    ∀ r ∈ rowsOf d ev.pre, r.1.deletedDate = none ∧ r.1.encKeyGen < asI64 gen
  | .listed k _ left, ev => ∀ r ∈ rowsOf d ev.post, r.1.uuid ∈ touched ev.name.2 →
    Opens (.dek k) r ∨ r.1.uuid ∈ left
  | _, _ => True

/-- The actions of a run: they are asked for, and the statements meet the condition. -/
def Clean (d : ℕ) (σ : RaceSys) (a : RaceAct) : Prop :=
  Asked σ a ∧ ∀ x ∈ ranBy σ a, ∀ c ∈ σ.calls, isRotation c.req = true →
    Allowed d (stageOf d c.trace) x.2.2

instance (σ : RaceSys) (a : RaceAct) : Decidable (Asked σ a) := by
  unfold Asked
  split <;> infer_instance

instance (d : ℕ) (st : Stage) (ev : WorldEv) : Decidable (Allowed d st ev) := by
  unfold Allowed
  split <;> infer_instance

instance (d : ℕ) (σ : RaceSys) (a : RaceAct) : Decidable (Clean d σ a) :=
  inferInstanceAs (Decidable (_ ∧ _))

/-- A rotation returned without an error. -/
def Rotated (σ : RaceSys) : Prop :=
  ∃ c ∈ σ.calls, isRotation c.req = true ∧ c.prog.result = some (.ok .done)

instance (σ : RaceSys) : Decidable (Rotated σ) :=
  inferInstanceAs (Decidable (∃ c ∈ σ.calls, isRotation c.req = true ∧ c.prog.result = _))

def rules (d : ℕ) (q : Cmd) : Rules World ClientEnv Name :=
  if isRotation q then rotRules d else promise (fun _ _ _ => True) (Mild d)

def Post (d : ℕ) (q : Cmd) : Except ClientError CmdReply → List WorldEv → World → Prop :=
  if isRotation q then Ended d else fun _ tr _ => Every (Mild d) tr

lemma rules_rotation {q : Cmd} (hq : isRotation q = true) : rules d q = rotRules d := if_pos hq

lemma rules_other {q : Cmd} (hq : isRotation q = false) :
    rules d q = promise (fun _ _ _ => True) (Mild d) := by
  simp [rules, hq]

lemma post_rotation {q : Cmd} (hq : isRotation q = true) : Post d q = Ended d := if_pos hq

lemma post_other {q : Cmd} (hq : isRotation q = false) :
    Post d q = fun _ tr _ => Every (Mild d) tr := by
  simp [Post, hq]

/-- The rows that do not open with the new key are still to be re-encrypted. -/
def Covered (d : ℕ) : Stage → World → Prop
  | .listed k _ left, w => ∀ r ∈ rowsOf d w, Opens (.dek k) r ∨ r.1.uuid ∈ left
  | _, _ => True

structure Inv (d : ℕ) (σ : RaceSys) : Prop where
  held : Held (rules d) (Post d) σ
  one : ∀ (i j : ℕ) (c c' : RaceCall), σ.calls[i]? = some c → σ.calls[j]? = some c' → isRotation c.req = true →
    isRotation c'.req = true → i = j
  covered : ∀ c ∈ σ.calls, isRotation c.req = true → Covered d (stageOf d c.trace) σ.shared

/-- A statement of the rotation itself. -/
lemma covered_own (hf : Fits d tr ev) (h : Covered d (stageOf d tr) ev.pre)
    (hC : Allowed d (stageOf d tr) ev) : Covered d (stageOf d (tr ++ [ev])) ev.post := by
  rw [stageOf_append]
  cases hf with
  | stay hrows hname =>
    cases hst : stageOf d tr with
    | start =>
      simp only [advance]
      split <;> trivial
    | keyed k =>
      simp only [advance]
      split <;> trivial
    | confirmed k gen =>
      rw [hst] at hC
      simp only [advance]
      split
      · next hn _ =>
        intro r hr
        rw [hrows] at hr
        have hlist := mem_listRotationItems.mpr ⟨hr, hC hn r hr⟩
        exact .inr (List.mem_map_of_mem hlist)
      · trivial
    | listed k gen left =>
      rw [hst] at h
      rw [advance_listed hname]
      intro r hr
      exact h r (hrows ▸ hr)
  | @reencrypt k gen left u pt hst hname hfault hdb =>
    rw [hst] at h ⊢
    simp only [advance, hname, hfault]
    intro r hr
    rw [rowsOf, hdb] at hr
    rcases mem_joined_reencrypt hr with ⟨-, hopens⟩ | ⟨hne, hr⟩
    · exact .inl hopens
    · rcases h r hr with hopens | hleft
      · exact .inl hopens
      · exact .inr (List.mem_filter.mpr ⟨hleft, by simpa using hne⟩)

/-- A statement of a save or of a sync. -/
lemma covered_other (hm : Mild d ev) (h : Covered d st ev.pre) (hC : Allowed d st ev) :
    Covered d st ev.post := by
  cases st with
  | listed k gen left =>
    intro r hr
    rcases hm.rows r hr with hmem | hr'
    · exact hC r hr hmem
    · exact h r hr'
  | _ => trivial

lemma promises_mild {q : Cmd} {σ : RaceSys} (hq : Asked σ (.call q)) (hr : isRotation q = false) :
    Promises (Mild d) (code X d q) := by
  cases q with
  | saveItem item payload =>
    exact guarantees_bind_except (permitsSync_mild.saveItem item payload) fun _ =>
      guarantees_pure_except _
  | sync => exact guarantees_bind_except permitsSync_mild.sync fun _ => guarantees_pure_except _
  | rotateKey gen => cases hr
  | _ => cases hq

lemma wp_call {q : Cmd} {σ : RaceSys} (hq : Asked σ (.call q)) :
    wp (rules d q) (code X d q) (Post d q) [] w := by
  cases hr : isRotation q with
  | true =>
    rw [rules_rotation hr, post_rotation hr]
    cases q with
    | rotateKey gen =>
      refine (wp_bind_except _ _ _ _ _).mpr (wp_mono (fun r tr w h => ?_)
        (wp_rotateKey gen ⟨ordered_nil, rfl⟩))
      cases r <;> exact h
    | _ => cases hr
  | false =>
    rw [rules_other hr, post_other hr]
    exact promises_mild hq hr [] w every_nil

section Step

variable {σ : RaceSys}

lemma ordered_of_wp {p : Code (Except ClientError CmdReply)}
    (h : wp (rotRules d) p (Ended d) tr w) : Ordered (Fits d) tr := by
  rcases p with r | ⟨l, f, k⟩
  · cases r with
    | ok a => exact h.choose_spec.choose_spec.1.fits
    | error e => exact h
  · exact h.1

lemma inv_call (hσ : Inv d σ) {q : Cmd} (hC : Clean d σ (.call q)) :
    Inv d (step (code X d) σ (.call q)) := by
  refine ⟨held_call hσ.held (wp_call hC.1), ?_, ?_⟩
  · have hnone : ∀ c ∈ σ.calls, isRotation q = true → isRotation c.req = false := by
      intro c hc hr
      cases q with
      | rotateKey gen => exact hC.1 c hc
      | _ => cases hr
    intro i j c c' hi hj hc hc'
    simp only [step, List.getElem?_append] at hi hj
    split at hi <;> split at hj
    · exact hσ.one i j c c' hi hj hc hc'
    · obtain rfl := List.mem_singleton.mp (List.mem_of_getElem? hj)
      rw [hnone c (List.mem_of_getElem? hi) hc'] at hc
      cases hc
    · obtain rfl := List.mem_singleton.mp (List.mem_of_getElem? hi)
      rw [hnone c' (List.mem_of_getElem? hj) hc] at hc'
      cases hc'
    · have hi' := (List.getElem?_eq_some_iff.mp hi).1
      have hj' := (List.getElem?_eq_some_iff.mp hj).1
      simp only [List.length_singleton] at hi' hj'
      omega
  · intro c hc hr
    rcases List.mem_append.mp hc with hc | hc
    · exact hσ.covered c hc hr
    · rw [List.mem_singleton.mp hc]
      trivial

variable {i : ℕ} {e : ClientEnv} {q : Cmd} {l : Name} {f : ClientEnv → World → World}
  {k : ClientEnv → World → Code (Except ClientError CmdReply)}

/-- A statement of the rotation fits, and one of another call is mild. -/
lemma Inv.statement (hσ : Inv d σ) (hc : σ.calls[i]? = some ⟨q, tr, .stmt l f k⟩) (e : ClientEnv) :
    isRotation q = true ∧ Fits d tr ⟨l, e, σ.shared, f e σ.shared⟩ ∨
    isRotation q = false ∧ Mild d ⟨l, e, σ.shared, f e σ.shared⟩ := by
  have hwp := hσ.held i _ hc
  cases hq : isRotation q with
  | true =>
    rw [rules_rotation hq, post_rotation hq] at hwp
    exact .inl ⟨rfl, ordered_of_wp (hwp.2 σ.shared e rfl trivial) _ _ [] rfl⟩
  | false =>
    rw [rules_other hq, post_other hq] at hwp
    exact .inr ⟨rfl, wp_every (hwp.2 σ.shared e trivial trivial) _ (by simp)⟩

lemma inv_exec (hσ : Inv d σ) (hc : σ.calls[i]? = some ⟨q, tr, .stmt l f k⟩)
    (hC : ∀ c ∈ σ.calls, isRotation c.req = true →
      Allowed d (stageOf d c.trace) ⟨l, e, σ.shared, f e σ.shared⟩) :
    Inv d ⟨f e σ.shared,
      σ.calls.set i ⟨q, tr ++ [⟨l, e, σ.shared, f e σ.shared⟩], k e σ.shared⟩⟩ := by
  have hstmt := hσ.statement hc e
  -- the rotation is not disturbed by another call
  have hdek : ∀ (j : ℕ) (c : RaceCall), j ≠ i → σ.calls[j]? = some c → isRotation c.req = true →
      dekOf d (f e σ.shared) = dekOf d σ.shared := by
    intro j c hne hj hr
    rcases hstmt with ⟨hq, -⟩ | ⟨-, hm⟩
    · exact absurd (hσ.one j i c _ hj hc hr hq) hne
    · exact hm.dek
  refine ⟨held_exec hσ.held hc ?_ ?_ ?_ ?_ ?_, ?_, ?_⟩
  · unfold rules
    split <;> trivial
  · unfold rules
    split <;> trivial
  · -- only a rotation relies on the others
    intro q l s₁ s₂ s₃ h h'
    cases hr : isRotation q with
    | true =>
      rw [rules_rotation hr] at h h' ⊢
      exact Eq.trans h' h
    | false =>
      rw [rules_other hr]
      trivial
  · intro j c hne hj l' _
    cases hr : isRotation c.req with
    | true =>
      rw [rules_rotation hr]
      exact hdek j c hne hj hr
    | false =>
      rw [rules_other hr]
      trivial
  · intro j c hne hj r _ hpost
    cases hr : isRotation c.req with
    | true =>
      rw [post_rotation hr] at hpost ⊢
      cases r with
      | ok a =>
        obtain ⟨k, gen, hat, hk⟩ := hpost
        exact ⟨k, gen, hat, (hdek j c hne hj hr).trans hk⟩
      | error e => exact hpost
    | false =>
      rw [post_other hr] at hpost ⊢
      exact hpost
  · -- there is still one rotation
    intro j j' c c' hj hj' hr hr'
    obtain ⟨c₀, hj₀, hreq⟩ : ∃ c₀ : RaceCall, σ.calls[j]? = some c₀ ∧ c₀.req = c.req := by
      rcases getElem?_set_cases hj with ⟨rfl, rfl⟩ | ⟨-, hj⟩
      · exact ⟨_, hc, rfl⟩
      · exact ⟨c, hj, rfl⟩
    obtain ⟨c₁, hj₁, hreq'⟩ : ∃ c₁ : RaceCall, σ.calls[j']? = some c₁ ∧ c₁.req = c'.req := by
      rcases getElem?_set_cases hj' with ⟨rfl, rfl⟩ | ⟨-, hj'⟩
      · exact ⟨_, hc, rfl⟩
      · exact ⟨c', hj', rfl⟩
    exact hσ.one j j' c₀ c₁ hj₀ hj₁ (hreq ▸ hr) (hreq' ▸ hr')
  · -- what it has covered, it covers after a statement of its own or of another call
    intro c hmem hr
    obtain ⟨j, hj⟩ := List.mem_iff_getElem?.mp hmem
    rcases getElem?_set_cases hj with ⟨rfl, rfl⟩ | ⟨hne, hj⟩
    · have hi := List.mem_of_getElem? hc
      rcases hstmt with ⟨-, hf⟩ | ⟨hq, -⟩
      · exact covered_own hf (hσ.covered _ hi hr) (hC _ hi hr)
      · rw [hq] at hr
        cases hr
    · have hmem' := List.mem_of_getElem? hj
      rcases hstmt with ⟨hq, -⟩ | ⟨-, hm⟩
      · exact absurd (hσ.one j i c _ hj hc hr hq) hne
      · exact covered_other hm (hσ.covered c hmem' hr) (hC c hmem' hr)

/-- A rotation that returned has left nothing unreadable. -/
lemma Inv.readsAll (hσ : Inv d σ) (h : Rotated σ) : ReadsAll d σ.shared := by
  obtain ⟨c, hmem, hr, hres⟩ := h
  obtain ⟨i, hi⟩ := List.mem_iff_getElem?.mp hmem
  have hwp := hσ.held i c hi
  rw [rules_rotation hr, post_rotation hr, Prog.result_eq_some hres] at hwp
  obtain ⟨k, gen, hat, hdek⟩ := hwp
  have hcov := hσ.covered c hmem hr
  rw [hat.stage] at hcov
  refine ⟨.dek k, hdek, fun r hr => ?_⟩
  rcases hcov r hr with hopens | hleft
  · exact hopens
  · cases hleft

end Step

/-- **Nothing of the old key is left**: in every interleaving of saves, syncs and one rotation
on a device in which the rotation lists every row with a payload, and in which what a save or
a page stores later is of the new key or is still to be re-encrypted, every row with a payload
opens with the key in memory once the rotation has returned without an error. -/
theorem rotation_reads_all (X : Ext Blob) (d : ℕ) (w : World) (as : List RaceAct)
    (has : Along (code X d) (Clean d) (init w) as)
    (hdone : Rotated (run (code X d) (init w) as)) :
    ReadsAll d (run (code X d) (init w) as).shared := by
  have hinv : Inv d (run (code X d) (init w) as) := by
    refine run_induction (P := Inv d) (fun σ a hσ hC => ?_)
      ⟨held_init w, by simp [init], by simp [init]⟩ has
    rcases step_cases (h := code X d) σ a with ⟨q, rfl, -⟩ |
      ⟨i, e, q, tr, l, f, k, rfl, hc, hst⟩ | hst
    · exact inv_call hσ hC
    · rw [hst]
      exact inv_exec hσ hc (hC.2 _ (by rw [ranBy_exec hc]; exact List.mem_singleton_self _))
    · rwa [hst]
  exact hinv.readsAll hdone

/-! ### One device -/

/-- Every text is a uuid, and every blob is 32 bytes long. -/
def anyUuid : Ext Blob := ⟨fun _ => true, fun _ => 32⟩

/-- An unlocked device of the user 7 with the vault key 100, and the item 3 on it and on the
server. -/
def oneItem (deletedDate : Option ℤ) : World where
  server :=
    ⟨.single ⟨7, "u", .raw 0, .raw 0, wrapSvk 9 100, .raw 0, 1, 0, 0⟩,
      .single ⟨3, 7, 1, 1, none, some (encrypt (.dek 100) 3 1 (.bytes 5)), 0, some 1⟩⟩
  devices _ :=
    ⟨⟨.single ⟨3, 1, 1, deletedDate, "t", "", "", "[]", 0, 0⟩,
      .single ⟨3, encrypt (.dek 100) 3 1 (.bytes 5)⟩,
      .single ⟨1, 0, 0, .raw 0⟩, .empty, .empty, .empty⟩,
      { Memory.new with
        svk := some 100
        dek := some (.dek 100)
        mk := some 9
        locked := false
        transport := some 7
        serverUserId := some 7 }⟩

/-- The next `n` statements of the `i`-th call; the new vault key is 200. -/
def go (i n : ℕ) : List RaceAct := List.replicate n (.exec i ⟨0, 0, false, 200⟩)

/-- A save of the item under the old key. -/
def edit : Cmd :=
  .saveItem ⟨1, 3, "new", "", "", "[]", 0, 1, false⟩ (encrypt (.dek 100) 3 1 (.bytes 6))

/-- The save is stored after the rotation has begun, and before it lists the rows. -/
def editFirst : List RaceAct :=
  [.call edit, .call (.rotateKey 2)] ++ go 0 4 ++ go 1 14 ++ go 0 2 ++ go 1 17

theorem rotation_reads_edit :
    Along (code anyUuid 0) (Clean 0) (init (oneItem none)) editFirst ∧
    Rotated (run (code anyUuid 0) (init (oneItem none)) editFirst) ∧
    ReadsAll 0 (run (code anyUuid 0) (init (oneItem none)) editFirst).shared :=
  ⟨by decide +kernel, by decide +kernel,
    rotation_reads_all anyUuid 0 (oneItem none) editFirst (by decide +kernel) (by decide +kernel)⟩

/-- Two rows of the old key that a rotation leaves: that of a trashed item, which it does not
list, and that of a save that was let in before the rotation and stored after the item was
re-encrypted. -/
theorem rotation_leaves_old_rows :
    (¬∀ as : List RaceAct, Along (code anyUuid 0) Asked (init (oneItem (some 0))) as →
      Rotated (run (code anyUuid 0) (init (oneItem (some 0))) as) →
      ReadsAll 0 (run (code anyUuid 0) (init (oneItem (some 0))) as).shared) ∧
    ¬∀ as : List RaceAct, Along (code anyUuid 0) Asked (init (oneItem none)) as →
      Rotated (run (code anyUuid 0) (init (oneItem none)) as) →
      ReadsAll 0 (run (code anyUuid 0) (init (oneItem none)) as).shared := by
  refine ⟨fun h => ?_, fun h => ?_⟩
  · have := h ([.call (.rotateKey 2)] ++ go 0 31)
    revert this
    decide +kernel
  · have := h ([.call edit, .call (.rotateKey 2)] ++ go 0 4 ++ go 1 16 ++ go 0 2 ++ go 1 15)
    revert this
    decide +kernel

end Vautr.RotationRace
