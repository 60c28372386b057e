import Vautr.ItemServer
import Vautr.PushRuns

/-!
What the answer to a batch of pushes tells.

The items are pushed one after the other, each with statements of its own. A failure ends the batch
with an error, whatever was written before it. A row that was written is read back for the answer,
and so is a row that stood in the way; if another client writes it in between, the answer tells what
that client has written.
-/

namespace Vautr.PushBatch

open Vautr.Atomic Vautr.Interleave Vautr.Sql Vautr.Database Vautr.Api Vautr.Server Vautr.Handlers
  Vautr.Occ Vautr.Push Vautr.Zoom Vautr.VaultEvents Vautr.Executions Vautr.ItemServer

open Vautr.PushRuns (Finds Telling Changes itemOf telling_select telling_upsertItemOcc)

variable {B : Type}

/-! ### The turns of the loop -/

/-- One turn of the loop over the batch: its item, its statements and what came of it. -/
structure Turn (B : Type) where
  item : PushItem B
  trace : List (HubEv B)
  result : Except ApiError PushResult

variable (parse : Ident → Option Ident) (user : Ident) (now : ℤ)

/-- The statements of a batch, cut into its turns. -/
inductive Turns : List (PushItem B) → List (HubEv B) → List (Turn B) → Prop
  | nil : Turns [] [] []
  | stop {item : PushItem B} {rest : List (PushItem B)} {tr : List (HubEv B)} {e : ApiError}
      (h : Runs (VaultEvents.pushItem parse user now item).run tr (.error e)) :
    Turns (item :: rest) tr [⟨item, tr, .error e⟩]
  | next {item : PushItem B} {rest : List (PushItem B)} {tr tr' : List (HubEv B)} {r : PushResult}
      {ts : List (Turn B)} (h : Runs (VaultEvents.pushItem parse user now item).run tr (.ok r))
      (hrest : Turns rest tr' ts) : Turns (item :: rest) (tr ++ tr') (⟨item, tr, .ok r⟩ :: ts)

/-! ### What an answer should tell -/

/-- What is told of a row that stands in the way. -/
def stateOf (row : Option (ItemRow B)) : Option ServerState :=
  row.map fun r => ⟨r.version, r.encKeyGen⟩

/-- What a result tells of its turn is true. -/
def Truthful (t : Turn B) (r : PushResult) : Prop :=
  r.uuid = t.item.uuid ∧ match r.status with
    | .success => ∃ w ∈ writeOf t.trace, ∃ row, rowAt (t.item.uuid, user) w.post = some row ∧
        PushItem.Wrote user t.item row ∧
        row.version = Occ.version w.pre.db (t.item.uuid, user) + 1 ∧
        r.version = some row.version ∧ r.encKeyGen = some row.encKeyGen
    | .conflict => Every Unchanged t.trace ∧
        ∃ w ∈ writeOf t.trace, r.currentServerState = stateOf (rowAt (t.item.uuid, user) w.pre)
    | .epochTooOld => Every Unchanged t.trace

/-- Either there is one true result for each item, in order, or an error and nothing is written. -/
def Told (items : List (PushItem B)) (ts : List (Turn B)) : Except ApiError (List PushResult) → Prop
  | .ok rs => ts.map (·.item) = items ∧ List.Forall₂ (Truthful user) ts rs
  | .error _ => ∀ t ∈ ts, Every Unchanged t.trace

/-! ### What ends a batch -/

/-- The generation of the item is behind the one that the user has. -/
def Closed (item : PushItem B) (s : Hub B) : Prop :=
  item.encKeyGen < asU64 (((s.db.users.get user).map (·.minEncKeyGen)).getD 1)

/-- The payload is not base64, or the uuid is none. -/
def Malformed (item : PushItem B) : Prop := item.payload = some none ∨ parse item.uuid = none

/-- What ends a batch in the turn: the database refuses a statement, the item is malformed and its
generation is not behind, the item is to be made for a user who is not there, or the row that was
written is gone. -/
inductive Broken (t : Turn B) : Prop
  | fault (ev : HubEv B) (hev : ev ∈ t.trace) (hname : ∃ l, ev.name = .db l)
      (hf : Faulty.fault ev.inp = true)
  | malformed (g : HubEv B) (hg : g ∈ t.trace.head?) (hopen : ¬Closed user t.item g.pre)
      (hbad : Malformed parse t.item)
  | orphan (w : HubEv B) (hw : w ∈ writeOf t.trace)
      (hrow : rowAt (t.item.uuid, user) w.pre = none) (huser : w.pre.db.users.get user = none)
      (htarget : asI64 t.item.targetVersion = 0)
  | gone (w b : HubEv B) (hw : w ∈ writeOf t.trace) (hb : b ∈ t.trace.getLast?)
      (hwrote : rowAt (t.item.uuid, user) w.post ≠ rowAt (t.item.uuid, user) w.pre)
      (hrow : rowAt (t.item.uuid, user) b.pre = none)

/-- Nobody else writes the row between the last write of the turn and its end. -/
def Steady (t : Turn B) : Prop :=
  ∀ w ∈ writeOf t.trace, ∀ b ∈ t.trace.getLast?,
    stateOf (rowAt (t.item.uuid, user) b.pre) = stateOf (rowAt (t.item.uuid, user) w.post)

/-- The database does not refuse the statement, and what it looks for is there. -/
def Lands (item : PushItem B) (ev : HubEv B) : Prop :=
  Faulty.fault ev.inp = false ∧
    ∃ l, ev.name = .db l ∧ Finds item.uuid (asI64 item.targetVersion) ev.pre.db l

/-- No turn is broken and every row is read back as it was left, or a turn is broken and no write
of the batch finds what it looks for. -/
def Settled (ts : List (Turn B)) : Prop :=
  (∀ t ∈ ts, ¬Broken parse user t ∧ Steady user t) ∨
    (∃ t ∈ ts, Broken parse user t) ∧ ∀ t ∈ ts, ∀ ev ∈ t.trace, ¬Lands t.item ev

variable {parse user now} {tr : List (HubEv B)} {item : PushItem B}

/-! ### Writes -/

section Writes

variable {α : Type} {rely : HubStmt → Hub B → Hub B → Prop}

/-- The statement changes an item exactly if it finds what it looks for. -/
def HubTelling (item : PushItem B) (ev : HubEv B) : Prop := Unchanged ev ↔ ¬Lands item ev

lemma guarantees_hubTelling (user : Ident) {p : Prog (Db B) Env Stmt α}
    (h : Guarantees (fun _ _ _ => True) (fun ev : DbEv B =>
      Telling item.uuid user (asI64 item.targetVersion) ev) p) :
    Guarantees rely (HubTelling item) (zoom onDb p) := by
  refine guarantees_zoom h (fun _ _ _ _ => trivial) fun l e t s htell => ?_
  constructor
  · rintro hsame ⟨hok, _, ⟨rfl⟩, hfinds⟩
    exact htell.lands hok hfinds (congrArg (·.get (item.uuid, user)) hsame)
  · exact fun hnot => htell.same fun h => hnot ⟨h.1, l, rfl, h.2⟩

lemma guarantees_hubTelling_select (user : Ident) {l : Stmt} {g : Db B → α}
    (h : ∀ db : Db B, ¬Finds item.uuid (asI64 item.targetVersion) db l)
    (hl : ∀ uuid ∈ itemOf l, uuid = item.uuid) :
    Guarantees rely (HubTelling item) (zoomE onDb (orInternal (select l g))).run :=
  guarantees_hubTelling user (guarantees_orInternal (telling_select h hl))

/-- **The writes of a turn**: a statement changes an item exactly if it finds what it looks for. -/
lemma guarantees_pushItem_telling :
    Guarantees rely (HubTelling item) (VaultEvents.pushItem parse user now item).run := by
  have hrow : Guarantees rely (HubTelling item) (zoomE onDb (pushedRow user item)).run := by
    refine guarantees_hubTelling user (guarantees_bind_except
      (guarantees_orInternal (telling_select (fun _ => id) (by simp [itemOf]))) fun row => ?_)
    cases row <;> exact guarantees_ret _
  refine guarantees_bind_except (guarantees_hubTelling_select user (fun _ => id)
    (by simp [itemOf])) fun gen => ?_
  dsimp only
  split
  · exact guarantees_pure_except _
  have hpayload : Guarantees rely (HubTelling item)
      (zoomE onDb (decodePayload item.payload : ServerHandler B _)).run := by
    rcases item.payload with _ | _ | p <;> exact guarantees_ret _
  refine guarantees_bind_except hpayload fun payload => guarantees_bind_except
    (guarantees_hubTelling user (guarantees_orInternal
      (telling_upsertItemOcc (q := item.upsert user now payload)))) fun o => ?_
  cases o with
  | updated => exact hrow
  | recovered =>
    refine guarantees_bind_except (guarantees_stmt (fun e s => iff_of_true rfl ?_) fun _ _ =>
      guarantees_ret _) fun _ => hrow
    rintro ⟨-, l, hname, -⟩
    cases hname
  | conflict =>
    exact guarantees_bind_except (guarantees_hubTelling_select user (fun _ => id)
      (by simp [itemOf])) fun _ => guarantees_pure_except _
  | epochTooOld => exact guarantees_pure_except _

end Writes

/-! ### Turns -/

lemma turns_unique {items : List (PushItem B)} {ts ts' : List (Turn B)}
    (h : Turns parse user now items tr ts) (h' : Turns parse user now items tr ts') : ts = ts' := by
  induction h generalizing ts' with
  | nil =>
    cases h'
    rfl
  | @stop item rest tr e h =>
    cases h' with
    | stop h' =>
      obtain ⟨-, hr⟩ := runs_unique h h' (rfl : tr ++ [] = tr ++ [])
      rw [hr]
    | @next _ _ tr₁ tr₂ _ _ h' =>
      obtain ⟨-, hr⟩ := runs_unique h h' (List.append_nil (tr₁ ++ tr₂))
      cases hr
  | @next item rest tr tr' r ts h _ ih =>
    generalize htr : tr ++ tr' = whole at h'
    cases h' with
    | stop h' =>
      obtain ⟨-, hr⟩ := runs_unique h h' (htr.trans (List.append_nil whole).symm)
      cases hr
    | next h' hrest' =>
      obtain ⟨rfl, hr⟩ := runs_unique h h' htr
      cases hr
      rw [ih (List.append_cancel_left htr ▸ hrest')]

/-- What the loop over the batch does. -/
lemma turns_of_runs {items : List (PushItem B)} {a : Except ApiError (List PushResult)}
    (h : Runs (VaultEvents.pushItems parse user now items).run tr a) :
    ∃ ts, Turns parse user now items tr ts ∧ a = ts.mapM (·.result) := by
  induction items generalizing tr a with
  | nil =>
    obtain ⟨rfl, rfl⟩ := h
    exact ⟨[], .nil, rfl⟩
  | cons item rest ih =>
    unfold VaultEvents.pushItems at h
    rw [runs_bind_except] at h
    rcases h with ⟨r, tr₁, tr₂, rfl, hitem, h⟩ | ⟨e, hitem, rfl⟩
    · rw [runs_bind_except] at h
      rcases h with ⟨rs, tr₂, _, rfl, hrest, rfl, rfl⟩ | ⟨e, hrest, rfl⟩
      · obtain ⟨ts, hts, ha⟩ := ih hrest
        refine ⟨_, .next hitem (by rwa [List.append_nil]), ?_⟩
        rw [List.mapM_cons, ← ha]
        rfl
      · obtain ⟨ts, hts, ha⟩ := ih hrest
        refine ⟨_, .next hitem hts, ?_⟩
        rw [List.mapM_cons, ← ha]
        rfl
    · exact ⟨_, .stop hitem, rfl⟩

section OneTurn

variable {r : Except ApiError PushResult} {rest : List (HubEv B)} {w b : HubEv B}

lemma runs_decodePayload {payload : Option (Option B)} {r : Except ApiError (Option B)}
    (h : Runs (zoomE onDb (decodePayload payload)).run tr r) : tr = [] ∧
      (payload = some none ∧ (∃ e, r = .error e) ∨
        ∃ p, payload = Option.map some p ∧ r = .ok p) := by
  rcases payload with _ | _ | p <;> obtain ⟨rfl, rfl⟩ := h
  · exact ⟨rfl, .inr ⟨none, rfl, rfl⟩⟩
  · exact ⟨rfl, .inl ⟨rfl, _, rfl⟩⟩
  · exact ⟨rfl, .inr ⟨some p, rfl, rfl⟩⟩

lemma runs_pushedRow (h : Runs (zoomE onDb (pushedRow user item)).run tr r) :
    ∃ b, tr = [b] ∧ (∃ l, b.name = .db l) ∧ isWrite b.name = false ∧
      (Faulty.fault b.inp = true ∧ (∃ e, r = .error e) ∨ Faulty.fault b.inp = false ∧
        (rowAt (item.uuid, user) b.pre = none ∧ r = .error .panic ∨
          ∃ row, rowAt (item.uuid, user) b.pre = some row ∧ r = .ok ⟨item.uuid, .success,
            some row.version, some row.encKeyGen, some row.updatedAt, none⟩)) := by
  unfold Handlers.pushedRow at h
  rw [zoomE_bind, runs_bind_except] at h
  rcases h with ⟨row, t, rest, rfl, hread, h⟩ | ⟨e, hread, rfl⟩
  · obtain ⟨b, rfl, hname, -, ⟨-, hr⟩ | ⟨hok, hr⟩⟩ := runs_read hread
    · cases hr
    have hrow : row = rowAt (item.uuid, user) b.pre := Except.ok.inj hr
    have hwrite : isWrite b.name = false := by rw [hname]; rfl
    cases row with
    | none =>
      obtain ⟨rfl, rfl⟩ := h
      exact ⟨b, rfl, ⟨_, hname⟩, hwrite, .inr ⟨hok, .inl ⟨hrow.symm, rfl⟩⟩⟩
    | some row =>
      obtain ⟨rfl, rfl⟩ := h
      exact ⟨b, rfl, ⟨_, hname⟩, hwrite, .inr ⟨hok, .inr ⟨row, hrow.symm, rfl⟩⟩⟩
  · obtain ⟨b, rfl, hname, -, ⟨hf, -⟩ | ⟨-, hr⟩⟩ := runs_read hread
    · exact ⟨b, rfl, ⟨_, hname⟩, by rw [hname]; rfl, .inl ⟨hf, e, rfl⟩⟩
    · cases hr

/-- The end of a turn that has written: an event may be published, and the row is read back. -/
structure Reported (user : Ident) (item : PushItem B) (tr : List (HubEv B)) (b : HubEv B)
    (r : Except ApiError PushResult) : Prop where
  last : tr.getLast? = some b
  write : ∀ ev ∈ tr, isWrite ev.name = false
  db : ∃ l, b.name = .db l
  only : ∀ ev ∈ tr, (∃ l, ev.name = .db l) → ev = b
  row : Faulty.fault b.inp = true ∧ (∃ e, r = .error e) ∨ Faulty.fault b.inp = false ∧
    (rowAt (item.uuid, user) b.pre = none ∧ r = .error .panic ∨
      ∃ row, rowAt (item.uuid, user) b.pre = some row ∧ r = .ok ⟨item.uuid, .success,
        some row.version, some row.encKeyGen, some row.updatedAt, none⟩)

lemma reported_of_pushedRow (h : Runs (zoomE onDb (pushedRow user item)).run tr r) :
    ∃ b, Reported user item tr b r := by
  obtain ⟨b, rfl, hdb, hwrite, hrow⟩ := runs_pushedRow h
  exact ⟨b, rfl, by simpa using hwrite, hdb, by simp, hrow⟩

lemma reported_of_notified {e : VaultEvent}
    (h : Runs (do publish e; zoomE onDb (pushedRow user item) : HubHandler B PushResult).run tr r) :
    ∃ b, Reported user item tr b r := by
  rw [runs_bind_except] at h
  rcases h with ⟨⟨⟩, t, rest, rfl, hpub, h⟩ | ⟨e, hpub, rfl⟩
  · obtain ⟨p, rfl, hname, -⟩ := runs_publish hpub
    obtain ⟨b, hb⟩ := reported_of_pushedRow h
    refine ⟨b, by rw [List.getLast?_append, hb.last]; rfl, ?_, hb.db, ?_, hb.row⟩
    · exact List.forall_mem_cons.mpr ⟨by rw [hname]; rfl, hb.write⟩
    · refine List.forall_mem_cons.mpr ⟨?_, hb.only⟩
      rintro ⟨l, hl⟩
      rw [hname] at hl
      cases hl
  · obtain ⟨_, -, -, -, hr⟩ := runs_publish hpub
    cases hr

/-- Nothing breaks the turn. -/
lemma not_broken {t : Turn B} (hok : ∀ ev ∈ t.trace, (∃ l, ev.name = .db l) →
      Faulty.fault ev.inp = false)
    (hgood : (∃ g ∈ t.trace.head?, Closed user t.item g.pre) ∨ ¬Malformed parse t.item)
    (horphan : ∀ w ∈ writeOf t.trace, rowAt (t.item.uuid, user) w.pre = none →
      asI64 t.item.targetVersion = 0 → (w.pre.db.users.get user).isSome)
    (hgone : ∀ w ∈ writeOf t.trace, ∀ b ∈ t.trace.getLast?,
      rowAt (t.item.uuid, user) w.post ≠ rowAt (t.item.uuid, user) w.pre →
        (rowAt (t.item.uuid, user) b.pre).isSome) : ¬Broken parse user t := by
  intro h
  cases h with
  | fault ev hev hname hf =>
    rw [hok ev hev hname] at hf
    cases hf
  | malformed g hg hopen hbad =>
    rcases hgood with ⟨g', hg', hclosed⟩ | hgood
    · obtain rfl := Option.some.inj (hg.symm.trans hg')
      exact hopen hclosed
    · exact hgood hbad
  | orphan w hw hrow huser htarget =>
    have := horphan w hw hrow htarget
    rw [huser] at this
    cases this
  | gone w b hw hb hwrote hrow =>
    have := hgone w hw b hb hwrote
    rw [hrow] at this
    cases this

/-- The generation was found to be behind. -/
lemma turn_behind (hok : ∀ ev ∈ tr, Faulty.fault ev.inp = false) (hq : Every Unchanged tr)
    (hnone : writeOf tr = none)
    (hgood : (∃ g ∈ tr.head?, Closed user item g.pre) ∨ ¬Malformed parse item)
    (hr : r = .ok (.refused item.uuid .epochTooOld none)) : ∃ res, r = .ok res ∧
      ¬Broken parse user ⟨item, tr, r⟩ ∧
      (Truthful user ⟨item, tr, r⟩ res ↔ Steady user ⟨item, tr, r⟩) := by
  refine ⟨_, hr, not_broken (fun ev hev _ => hok ev hev) hgood ?_ ?_, iff_of_true ⟨rfl, hq⟩ ?_⟩ <;>
    · intro w hw
      simp only [hnone] at hw
      cases hw

/-- The row stood in the way, and is read. -/
lemma turn_conflict (before : List (HubEv B)) {q : Upsert B} {p : Option B}
    (hq : q = item.upsert user now p) (htr : tr = before ++ w :: [b]) (hok : Faultless tr)
    (hsame : Every Unchanged tr) (hb : isWrite b.name = false) (hw : Missed q w)
    (hgood : ¬Malformed parse item)
    (hr : r = .ok (.refused item.uuid .conflict (stateOf (rowAt (item.uuid, user) b.pre)))) :
    ∃ res, r = .ok res ∧ ¬Broken parse user ⟨item, tr, r⟩ ∧
      (Truthful user ⟨item, tr, r⟩ res ↔ Steady user ⟨item, tr, r⟩) := by
  have hwrite : writeOf tr = some w := by
    rw [htr]
    exact writeOf_append hw.name (by simpa using hb)
  have hlast : tr.getLast? = some b := by
    rw [htr, List.getLast?_append]
    rfl
  have hpost : rowAt (item.uuid, user) w.post = rowAt (item.uuid, user) w.pre := by
    rw [rowAt, hw.same, rowAt]
  subst hq
  refine ⟨_, hr, not_broken (fun ev hev _ => hok ev hev) (.inr hgood) ?_ ?_, ?_⟩
  · intro w' hw' hrow htarget
    obtain rfl := Option.some.inj (hwrite.symm.trans hw')
    have hsome := hw.present htarget
    rw [Upsert.key, PushItem.upsert, hrow] at hsome
    cases hsome
  · intro w' hw' b' _ hne
    obtain rfl := Option.some.inj (hwrite.symm.trans hw')
    exact absurd hpost hne
  · simp only [Truthful, Steady, PushResult.refused, hwrite, hlast, Option.mem_some_iff,
      exists_eq_left', forall_eq', hpost, true_and]
    exact and_iff_right hsame

/-- The item was written, and its row is read back. -/
lemma turn_written (before : List (HubEv B)) {q : Upsert B} {p : Option B} {row : ItemRow B}
    (hq : q = item.upsert user now p) (hp : item.payload = Option.map some p)
    (htr : tr = before ++ w :: rest) (hlast : tr.getLast? = some b)
    (hrest : ∀ ev ∈ rest, isWrite ev.name = false)
    (hok : ∀ ev ∈ tr, (∃ l, ev.name = .db l) → Faulty.fault ev.inp = false)
    (hw : Wrote q w) (hgood : ¬Malformed parse item)
    (hrow : rowAt (item.uuid, user) b.pre = some row)
    (hr : r = .ok ⟨item.uuid, .success, some row.version, some row.encKeyGen, some row.updatedAt,
      none⟩) :
    ∃ res, r = .ok res ∧ ¬Broken parse user ⟨item, tr, r⟩ ∧
      (Truthful user ⟨item, tr, r⟩ res ↔ Steady user ⟨item, tr, r⟩) := by
  have hwrite : writeOf tr = some w := by
    rw [htr]
    exact writeOf_append hw.name hrest
  subst hq
  refine ⟨_, hr, not_broken hok (.inr hgood) ?_ ?_, ?_⟩
  · intro w' hw' hnone _
    obtain rfl := Option.some.inj (hwrite.symm.trans hw')
    exact hw.owner hnone
  · intro w' hw' b' hb' _
    obtain rfl := Option.some.inj (hlast.symm.trans hb')
    exact Option.isSome_iff_exists.mpr ⟨row, hrow⟩
  obtain ⟨n, hpost⟩ := hw.row
  have hversion := hw.version
  simp only [Truthful, Steady, hwrite, hlast, Option.mem_some_iff, exists_eq_left', forall_eq',
    hrow, true_and]
  constructor
  · rintro ⟨row', hpost', -, -, hv, hg⟩
    rw [hpost', stateOf, stateOf, Option.map_some, Option.map_some, Option.some.inj hv,
      Option.some.inj hg]
  · intro hstate
    rw [Upsert.key, PushItem.upsert] at hpost hversion
    rw [hpost, stateOf, stateOf, Option.map_some, Option.map_some, Option.some.injEq,
      ServerState.mk.injEq] at hstate
    exact ⟨_, hpost, ⟨now, _, n, p, hp, rfl⟩, by rw [hversion]; rfl, congrArg some hstate.1,
      congrArg some hstate.2⟩

/-- The row that was written cannot be read back. -/
lemma broken_of_lost (before : List (HubEv B)) {q : Upsert B} {p : Option B}
    (hq : q = item.upsert user now p) (htr : tr = before ++ w :: rest)
    (hlast : tr.getLast? = some b) (hrest : ∀ ev ∈ rest, isWrite ev.name = false) (hw : Wrote q w)
    (hrow : rowAt (item.uuid, user) b.pre = none) : Broken parse user ⟨item, tr, r⟩ := by
  have hwrite : writeOf tr = some w := by
    rw [htr]
    exact writeOf_append hw.name hrest
  subst hq
  exact .gone w b hwrite hlast hw.changed hrow

end OneTurn

/-- What comes of a turn: it is broken and ends the batch, or its result is true exactly if the row
is read back as it was left. -/
def Judged (parse : Ident → Option Ident) (user : Ident) (t : Turn B) : Prop :=
  (∃ e, t.result = .error e) ∧ Broken parse user t ∨ ∃ res, t.result = .ok res ∧
    ¬Broken parse user t ∧ (Truthful user t res ↔ Steady user t)

section Judged

variable {r : Except ApiError PushResult} {before rest tru : List (HubEv B)} {g w : HubEv B}
  {p : Option B}

lemma not_malformed (hp : item.payload = Option.map some p)
    (hid : (parse item.uuid).isSome = true) : ¬Malformed parse item := by
  rintro (hbad | hbad)
  · rw [hp] at hbad
    cases p <;> cases hbad
  · rw [hbad] at hid
    cases hid

/-- The write found another version, so the row is read for the answer. -/
lemma judged_of_missed (hok : Faultless before) (hsame : Every Unchanged before)
    (hw : Missed (item.upsert user now p) w) (hgood : ¬Malformed parse item)
    (h : Runs (do
      let row ← zoomE onDb (orInternal (getItem item.uuid user))
      return .refused item.uuid .conflict (stateOf row) : HubHandler B PushResult).run rest r) :
    Judged parse user ⟨item, before ++ w :: rest, r⟩ := by
  rw [runs_bind_except] at h
  rcases h with ⟨row, t, rest, rfl, hread, rfl, rfl⟩ | ⟨e, hread, rfl⟩
  · obtain ⟨b, rfl, hbname, hbsame, ⟨-, hr⟩ | ⟨hbok, hr⟩⟩ := runs_read hread
    · cases hr
    cases hr
    have hbwrite : isWrite b.name = false := by rw [hbname]; rfl
    have hall : ∀ {P : HubEv B → Prop}, Every P before → P w → P b →
        Every P (before ++ w :: ([b] ++ [])) := by
      intro P hbefore hPw hPb
      simpa [Every, or_imp, forall_and] using ⟨hbefore, hPw, hPb⟩
    exact .inr (turn_conflict before rfl (by simp) (hall hok hw.ok hbok)
      (hall hsame hw.same hbsame) hbwrite hw hgood rfl)
  · obtain ⟨b, rfl, hbname, -, ⟨hf, -⟩ | ⟨-, hr⟩⟩ := runs_read hread
    · exact .inl ⟨⟨_, rfl⟩, .fault b (by simp) ⟨_, hbname⟩ hf⟩
    · cases hr

/-- The item was written, and its row is read back. -/
lemma judged_of_wrote {b : HubEv B} (hok : Faultless before) (hw : Wrote (item.upsert user now p) w)
    (hp : item.payload = Option.map some p) (hgood : ¬Malformed parse item)
    (hb : Reported user item rest b r) : Judged parse user ⟨item, before ++ w :: rest, r⟩ := by
  have hlast : (before ++ w :: rest).getLast? = some b := by
    rw [List.getLast?_append, List.getLast?_cons, hb.last]
    rfl
  rcases hb.row with ⟨hf, herr⟩ | ⟨hbok, ⟨hrow, rfl⟩ | ⟨row, hrow, hr⟩⟩
  · exact .inl ⟨herr, .fault b (List.mem_of_getLast? hlast) hb.db hf⟩
  · exact .inl ⟨⟨_, rfl⟩, broken_of_lost before rfl rfl hlast hb.write hw hrow⟩
  · refine .inr (turn_written before rfl hp rfl hlast hb.write ?_ hw hgood hrow hr)
    intro ev hev hdb
    rcases List.mem_append.mp hev with hev | hev
    · exact hok ev hev
    rcases List.mem_cons.mp hev with rfl | hev
    · exact hw.ok
    · rwa [hb.only ev hev hdb]

lemma broken_of_upsert {e : ApiError} (hopen : ¬Closed user item g.pre)
    (h : Runs (upsert parse (item.upsert user now p)).run tru (.error e)) :
    Broken parse user ⟨item, g :: tru, r⟩ := by
  have hended := ended_of_runs h
  generalize hq : item.upsert user now p = q at hended
  generalize hr : (Except.error e : Except ApiError UpsertOutcome) = r' at hended
  cases hended with
  | malformed hid =>
    refine .malformed g rfl hopen (.inr ?_)
    rw [← hq] at hid
    simpa [PushItem.upsert] using hid
  | fault hfault =>
    obtain ⟨ev, hev, hf⟩ := hfault
    exact .fault ev (List.mem_cons_of_mem _ hev) (db_of_upsert h ev hev) hf
  | @orphan tru w _ h0 _ _ hw hrow huser =>
    subst hq
    refine .orphan w ?_ hrow huser h0
    change writeOf ((g :: tru) ++ w :: []) = some w
    exact writeOf_append hw (by simp)
  | behind => cases hr
  | missed => cases hr
  | wrote => cases hr

/-- A turn whose item is decoded and not behind. -/
lemma judged_of_open (hgname : isWrite g.name = false) (hgsame : Unchanged g)
    (hgok : Faulty.fault g.inp = false) (hopen : ¬Closed user item g.pre)
    (hp : item.payload = Option.map some p)
    (h : Runs (do match ← upsert parse (item.upsert user now p) with
      | .updated => zoomE onDb (pushedRow user item)
      | .recovered => do
        publish (.itemRecovered user (parseOrNil parse item.uuid))
        zoomE onDb (pushedRow user item)
      | .conflict =>
        let row ← zoomE onDb (orInternal (getItem item.uuid user))
        return .refused item.uuid .conflict (row.map fun r => ⟨r.version, r.encKeyGen⟩)
      | .epochTooOld => return .refused item.uuid .epochTooOld none :
      HubHandler B PushResult).run rest r) : Judged parse user ⟨item, g :: rest, r⟩ := by
  rw [runs_bind_except] at h
  rcases h with ⟨o, tru, rest, rfl, hupsert, h⟩ | ⟨e, hupsert, rfl⟩
  rotate_left
  · exact .inl ⟨⟨e, rfl⟩, broken_of_upsert hopen hupsert⟩
  have hended := ended_of_runs hupsert
  generalize hq : item.upsert user now p = q at hended
  have huuid : q.uuid = item.uuid := by rw [← hq]; rfl
  have hbefore : ∀ {P : HubEv B → Prop} {tru : List (HubEv B)}, P g → Every P tru →
      Every P (g :: tru) := fun hg htru => List.forall_mem_cons.mpr ⟨hg, htru⟩
  cases hended with
  | @behind g' hid hok hname hsame =>
    obtain ⟨rfl, rfl⟩ := h
    have hgwrite' : isWrite g'.name = false := by rw [hname]; rfl
    exact .inr (turn_behind (by simp [hgok, hok]) (by simp [Every, hgsame, hsame])
      (writeOf_eq_none (by simp [hgname, hgwrite'])) (.inr (not_malformed hp (huuid ▸ hid))) rfl)
  | @missed tru w hid hok hsame hw =>
    subst hq
    have hjudged := judged_of_missed (hbefore hgok hok) (hbefore hgsame hsame) hw
      (not_malformed hp hid) h
    simpa using hjudged
  | @wrote tru w o hid hok hsame hw ho =>
    subst hq
    obtain ⟨b, hb⟩ : ∃ b, Reported user item rest b r := by
      rcases ho with rfl | rfl
      · exact reported_of_pushedRow h
      · exact reported_of_notified h
    have hjudged := judged_of_wrote (hbefore hgok hok) hw hp (not_malformed hp hid) hb
    simpa using hjudged

end Judged

/-- One turn, whatever the others do. -/
lemma turn_cases {r : Except ApiError PushResult}
    (h : Runs (VaultEvents.pushItem parse user now item).run tr r) :
    Judged parse user ⟨item, tr, r⟩ := by
  unfold VaultEvents.pushItem at h
  rw [runs_bind_except] at h
  rcases h with ⟨gen, t, rest, rfl, hgate, h⟩ | ⟨e, hgate, rfl⟩
  rotate_left
  · obtain ⟨g, rfl, hname, -, ⟨hf, -⟩ | ⟨-, hr⟩⟩ := runs_read hgate
    · exact .inl ⟨⟨e, rfl⟩, .fault g (List.mem_singleton_self _) ⟨_, hname⟩ hf⟩
    · cases hr
  obtain ⟨g, rfl, hgname, hgsame, ⟨-, hr⟩ | ⟨hgok, hr⟩⟩ := runs_read hgate
  · cases hr
  cases hr
  have hgwrite : isWrite g.name = false := by rw [hgname]; rfl
  dsimp only at h
  split at h
  -- the generation of the item is behind
  · next hclosed =>
    obtain ⟨rfl, rfl⟩ := h
    exact .inr (turn_behind (by simpa using hgok) (by simpa [Every] using hgsame)
      (writeOf_eq_none (by simpa using hgwrite)) (.inl ⟨g, rfl, hclosed⟩) rfl)
  next hopen =>
  rw [runs_bind_except] at h
  rcases h with ⟨p, t, rest, rfl, hdec, h⟩ | ⟨e, hdec, rfl⟩
  rotate_left
  -- the payload is not base64
  · obtain ⟨rfl, ⟨hbad, -⟩ | ⟨p, -, hr⟩⟩ := runs_decodePayload hdec
    · exact .inl ⟨⟨e, rfl⟩, .malformed g rfl hopen (.inl hbad)⟩
    · cases hr
  obtain ⟨rfl, ⟨-, e, hr⟩ | ⟨p, hp, hr⟩⟩ := runs_decodePayload hdec
  · cases hr
  cases hr
  exact judged_of_open hgwrite hgsame hgok hopen hp h

/-! ### Batches -/

variable {items : List (PushItem B)} {ts : List (Turn B)}

lemma runs_of_turns (h : Turns parse user now items tr ts) :
    ∀ t ∈ ts, Runs (VaultEvents.pushItem parse user now t.item).run t.trace t.result := by
  induction h with
  | nil => simp
  | stop h => simpa using h
  | next h _ ih => exact List.forall_mem_cons.mpr ⟨h, ih⟩

lemma quiet_iff (h : Turns parse user now items tr ts) :
    (∀ t ∈ ts, Every Unchanged t.trace) ↔ ∀ t ∈ ts, ∀ ev ∈ t.trace, ¬Lands t.item ev := by
  refine forall₂_congr fun t ht => forall₂_congr fun ev hev => ?_
  have : Nonempty (Hub B) := ⟨ev.pre⟩
  exact (runs_of_turns h t ht).every guarantees_pushItem_telling ev hev

/-- Where no turn has failed, there is one result for each item, in order. -/
lemma results_of_turns (h : Turns parse user now items tr ts)
    (hok : ∀ t ∈ ts, ∃ r, t.result = .ok r) : ts.map (·.item) = items ∧
      ∃ rs, ts.mapM (·.result) = .ok rs ∧ List.Forall₂ (fun t r => t.result = .ok r) ts rs := by
  induction h with
  | nil => exact ⟨rfl, [], rfl, .nil⟩
  | stop h =>
    obtain ⟨r, hr⟩ := hok _ (List.mem_singleton_self _)
    cases hr
  | @next item rest tr tr' r ts h _ ih =>
    obtain ⟨hitems, rs, hrs, hall⟩ := ih fun t ht => hok t (List.mem_cons_of_mem _ ht)
    refine ⟨by rw [List.map_cons, hitems], r :: rs, ?_, .cons rfl hall⟩
    rw [List.mapM_cons, hrs]
    rfl

lemma error_of_failed {t : Turn B} (ht : t ∈ ts) {e : ApiError} (he : t.result = .error e) :
    ∃ e, ts.mapM (·.result) = .error e := by
  induction ts with
  | nil => cases ht
  | cons t' ts ih =>
    rw [List.mapM_cons]
    rcases List.mem_cons.mp ht with rfl | ht
    · exact ⟨e, by rw [he]; rfl⟩
    · obtain ⟨e', he'⟩ := ih ht
      rw [he']
      cases t'.result <;> exact ⟨_, rfl⟩

lemma forall₂_iff {α β : Type} {R P : α → β → Prop} {K : α → Prop} {as : List α} {bs : List β}
    (h : List.Forall₂ R as bs) (hiff : ∀ a ∈ as, ∀ b, R a b → (P a b ↔ K a)) :
    List.Forall₂ P as bs ↔ ∀ a ∈ as, K a := by
  induction h with
  | nil => simp
  | cons hab _ ih =>
    rw [List.forall₂_cons, List.forall_mem_cons, hiff _ List.mem_cons_self _ hab]
    exact and_congr_right fun _ => ih fun a ha => hiff a (List.mem_cons_of_mem _ ha)

/-- **A batch**, whatever the others do. -/
lemma told_iff_settled (h : Turns parse user now items tr ts) :
    Told user items ts (ts.mapM (·.result)) ↔ Settled parse user ts := by
  have hcases := fun t ht => turn_cases (runs_of_turns h t ht)
  by_cases hbroken : ∃ t ∈ ts, Broken parse user t
  · obtain ⟨t, ht, hb⟩ := hbroken
    have hfailed : ∃ e, t.result = .error e := by
      rcases hcases t ht with ⟨he, -⟩ | ⟨_, -, hnot, -⟩
      · exact he
      · exact absurd hb hnot
    obtain ⟨e, he⟩ := hfailed
    obtain ⟨e', he'⟩ := error_of_failed ht he
    rw [he']
    refine (quiet_iff h).trans ⟨fun hquiet => .inr ⟨⟨t, ht, hb⟩, hquiet⟩, ?_⟩
    rintro (hall | ⟨-, hquiet⟩)
    · exact absurd hb (hall t ht).1
    · exact hquiet
  · have hnot : ∀ t ∈ ts, ¬Broken parse user t := fun t ht hb => hbroken ⟨t, ht, hb⟩
    have hok : ∀ t ∈ ts, ∃ r, t.result = .ok r ∧ (Truthful user t r ↔ Steady user t) := by
      intro t ht
      rcases hcases t ht with ⟨-, hb⟩ | ⟨r, hr, -, hiff⟩
      · exact absurd hb (hnot t ht)
      · exact ⟨r, hr, hiff⟩
    obtain ⟨hitems, rs, hrs, hall⟩ := results_of_turns h fun t ht =>
      let ⟨r, hr, _⟩ := hok t ht
      ⟨r, hr⟩
    have htold : List.Forall₂ (Truthful user) ts rs ↔ ∀ t ∈ ts, Steady user t := by
      refine forall₂_iff hall fun t ht r hr => ?_
      obtain ⟨r', hr', hiff⟩ := hok t ht
      obtain rfl := Except.ok.inj (hr.symm.trans hr')
      exact hiff
    rw [hrs]
    constructor
    · exact fun ⟨_, htrue⟩ => .inl fun t ht => ⟨hnot t ht, htold.mp htrue t ht⟩
    · rintro (hsteady | ⟨hb, -⟩)
      · exact ⟨hitems, htold.mpr fun t ht => (hsteady t ht).2⟩
      · exact absurd hb hbroken

/-- What `sync_push_batch` runs: it looks at the clock, and then come the turns. -/
lemma turns_of_syncPushBatch {req : PushBatchReq B} {a : Except ApiError (List PushResult)}
    (h : Runs (VaultEvents.syncPushBatch parse req).run tr a) (hsize : req.items.length ≤ 100) :
    ∃ clock rest ts, tr = clock :: rest ∧
      Turns parse req.userId clock.inp.base.now req.items rest ts ∧ a = ts.mapM (·.result) := by
  unfold VaultEvents.syncPushBatch at h
  rw [if_neg (by omega), runs_bind_except] at h
  rcases h with ⟨now, t, rest, rfl, hclock, h⟩ | ⟨e, hclock, rfl⟩
  · obtain ⟨clock, rfl, -, -, hnow⟩ := runs_nowMs hclock
    cases hnow
    obtain ⟨ts, hts, ha⟩ := turns_of_runs h
    exact ⟨clock, rest, ts, rfl, hts, ha⟩
  · obtain ⟨_, -, -, -, hr⟩ := runs_nowMs hclock
    cases hr

/-- **What the answer to a batch tells**: it is true, or it is an error and nothing was written,
exactly if every row is read back as it was left and the batch is not ended after a write. -/
theorem batch_told_iff (parse : Ident → Option Ident) (X : Ext B) (s : Hub B)
    (as : List (ItemAct B)) : ∀ c ∈ (run (ItemServer.code parse X) (init s) as).calls, ∀ req a,
      c.req = .hub (.pushBatch req) → req.items.length ≤ 100 →
      c.prog.result = some (.hub (.pushed a)) → ∃ clock rest ts, c.trace = clock :: rest ∧
        (∀ ts', Turns parse req.userId clock.inp.base.now req.items rest ts' ↔ ts' = ts) ∧
        (Told req.userId req.items ts a ↔ Settled parse req.userId ts) := by
  intro c hc req a hreq hsize hres
  have hruns := run_runs (ItemServer.code parse X) s as c hc _ hres
  rw [hreq] at hruns
  obtain ⟨_, hrep, hhub⟩ := runs_map.mp hruns
  cases hrep
  obtain ⟨_, hrep, hpush⟩ := runs_map.mp hhub
  cases hrep
  obtain ⟨clock, rest, ts, htr, hts, rfl⟩ := turns_of_syncPushBatch hpush hsize
  refine ⟨clock, rest, ts, htr, fun ts' => ⟨fun hts' => turns_unique hts' hts, ?_⟩,
    told_iff_settled hts⟩
  rintro rfl
  exact hts

/-! ### A batch of two items -/

/-- The payload of the second item is not base64. -/
def twoItems : List (PushItem ℕ) := [⟨3, 0, 1, some (some 9), none⟩, ⟨4, 0, 1, some none, none⟩]

def served (as : List (ItemAct ℕ)) : ItemSys ℕ :=
  run (ItemServer.code some ⟨fun _ => true, fun _ => 0⟩) (init (start newDb)) as

/-- The batch is pushed, and nobody interferes. -/
def pushing : List (ItemAct ℕ) :=
  .call (.hub (.pushBatch ⟨7, twoItems⟩)) :: List.replicate 8 (.exec 0 ⟨⟨0, 0, false⟩, false, true⟩)

def batchCall : Call (ItemServer.Req ℕ) (Hub ℕ) HubEnv HubStmt ItemServer.Reply :=
  (served pushing).calls.get ⟨0, by decide⟩

def notBase64 : ApiError := .badRequest "invalid_base64" "base64 decode failed"

theorem batch_told_iff_two : ∃ clock rest ts, batchCall.trace = clock :: rest ∧
    (∀ ts', Turns some 7 clock.inp.base.now twoItems rest ts' ↔ ts' = ts) ∧
    (Told 7 twoItems ts (.error notBase64) ↔ Settled some 7 ts) :=
  batch_told_iff some _ (start newDb) pushing batchCall (List.get_mem _ _) ⟨7, twoItems⟩ _ rfl
    (by decide) rfl

lemma flatten_turns (h : Turns parse user now items tr ts) : (ts.map (·.trace)).flatten = tr := by
  induction h with
  | nil => rfl
  | stop => simp
  | next _ _ ih => rw [List.map_cons, List.flatten_cons, ih]

/-- The batch is answered with an error, and its first item stays written. -/
theorem first_item_stays_written : batchCall ∈ (served pushing).calls ∧
    batchCall.req = .hub (.pushBatch ⟨7, twoItems⟩) ∧
    batchCall.prog.result = some (.hub (.pushed (.error notBase64))) ∧
    ∀ ts, Turns some 7 0 twoItems batchCall.trace.tail ts →
      ¬Told 7 twoItems ts (.error notBase64) := by
  refine ⟨List.get_mem _ _, rfl, rfl, fun ts hts htold => ?_⟩
  have hall : Every Unchanged batchCall.trace.tail := by
    rw [← flatten_turns hts]
    intro ev hev
    obtain ⟨tr, htr, hev⟩ := List.mem_flatten.mp hev
    obtain ⟨t, ht, rfl⟩ := List.mem_map.mp htr
    exact htold t ht ev hev
  have hsame : ∀ ev ∈ batchCall.trace.tail,
      ev.post.db.items.rows.length = ev.pre.db.items.rows.length :=
    fun ev hev => congrArg (·.rows.length) (hall ev hev)
  revert hsame
  decide

end Vautr.PushBatch
