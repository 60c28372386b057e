import Vautr.Executions
import Vautr.Occ
import Vautr.VaultEvents

/-!
The endpoints that write items, with rotations of the account in between, and what the executions
of `upsert_item_occ` look like.

Whatever the others do, an execution that reports a write ends with the statement that wrote, and
one that reports a conflict ends with the statement that found no row to write.
-/

namespace Vautr.ItemServer

open Vautr.Atomic Vautr.Interleave Vautr.Sql Vautr.Database Vautr.Api Vautr.Server Vautr.Handlers
  Vautr.Occ Vautr.Push Vautr.Zoom Vautr.VaultEvents Vautr.Executions

variable {B : Type}

/-! ### Requests -/

inductive Req (B : Type)
  | hub (q : VaultEvents.Req B)
  | rotate (req : RotateKeyReq B)

inductive Reply
  | hub (r : VaultEvents.Reply)
  | rotate (r : Except ApiError RotateKeyResp)

/-- `parse` is `Uuid::parse_str`, and `X.len` the length of a blob. -/
def code (parse : Ident → Option Ident) (X : Ext B) : Req B → Prog (Hub B) HubEnv HubStmt Reply
  | .hub q => do return .hub (← VaultEvents.code parse q)
  | .rotate req => do return .rotate (← (zoomE onDb (accountRotateKey X req)).run)

abbrev ItemSys (B : Type) := Sys (Req B) (Hub B) HubEnv HubStmt Reply

abbrev ItemAct (B : Type) := Act (Req B) HubEnv

/-! ### Statements of a call -/

/-- The row of an item. -/
def rowAt (k : Ident × Ident) (s : Hub B) : Option (ItemRow B) := s.db.items.get k

/-- The statement is one of the two writes of `upsert_item_occ`. -/
def isWrite : HubStmt → Bool
  | .db (.updateItem ..) => true
  | .db (.insertItem ..) => true
  | _ => false

/-- The last statement of a call that was to write an item. -/
def writeOf (tr : List (HubEv B)) : Option (HubEv B) := tr.reverse.find? fun ev => isWrite ev.name

/-- The database refused none of the statements. -/
def Faultless (tr : List (HubEv B)) : Prop := Every (fun ev => Faulty.fault ev.inp = false) tr

/-- The statement changed no item. -/
def Unchanged (ev : HubEv B) : Prop := ev.post.db.items = ev.pre.db.items

instance (tr : List (HubEv B)) : Decidable (Faultless tr) :=
  inferInstanceAs (Decidable (∀ ev ∈ tr, _ = _))

variable {tr : List (HubEv B)} {w : HubEv B}

/-- Nothing after `w` is a write. -/
lemma writeOf_append (hw : isWrite w.name = true) {rest : List (HubEv B)}
    (hrest : ∀ ev ∈ rest, isWrite ev.name = false) : writeOf (tr ++ w :: rest) = some w := by
  have hnone : rest.reverse.find? (fun ev => isWrite ev.name) = none := by
    rw [List.find?_eq_none]
    exact fun ev hev => by simp [hrest ev (List.mem_reverse.mp hev)]
  rw [writeOf, List.reverse_append, List.reverse_cons, List.append_assoc, List.find?_append, hnone,
    Option.none_or, List.singleton_append]
  exact List.find?_cons_of_pos hw

lemma writeOf_eq_none (h : ∀ ev ∈ tr, isWrite ev.name = false) : writeOf tr = none := by
  rw [writeOf, List.find?_eq_none]
  exact fun ev hev => by simp [h ev (List.mem_reverse.mp hev)]

/-! ### Executions of `upsert_item_occ` -/

/-- The user's generation is beyond that of the call. -/
def Behind (q : Upsert B) (s : Hub B) : Prop :=
  ∃ u, s.db.users.get q.userId = some u ∧ q.encKeyGen < u.minEncKeyGen

/-- The statement of the call that wrote: it found the version that the call was made for. -/
structure Wrote (q : Upsert B) (w : HubEv B) : Prop where
  name : isWrite w.name = true
  ok : Faulty.fault w.inp = false
  version : Occ.version w.pre.db q.key = q.targetVersion
  row : ∃ n, rowAt q.key w.post = some (q.row (q.targetVersion + 1) n)
  owner : rowAt q.key w.pre = none → (w.pre.db.users.get q.userId).isSome

/-- The statement of the call that found no row to write, or the item there already. -/
structure Missed (q : Upsert B) (w : HubEv B) : Prop where
  name : isWrite w.name = true
  ok : Faulty.fault w.inp = false
  same : Unchanged w
  version : q.targetVersion ≠ 0 → (rowAt q.key w.pre).map (·.version) ≠ some q.targetVersion
  present : q.targetVersion = 0 → (rowAt q.key w.pre).isSome

lemma Wrote.changed {q : Upsert B} (hw : Wrote q w) : rowAt q.key w.post ≠ rowAt q.key w.pre := by
  obtain ⟨n, hpost⟩ := hw.row
  have hv := hw.version
  intro heq
  rw [Occ.version, ← rowAt, ← heq, hpost] at hv
  simp only [Upsert.row, Option.map_some, Option.getD_some] at hv
  omega

/-- How an execution of `upsert_item_occ` ends. -/
inductive Ended (isUuid : IsUuid) (q : Upsert B) :
    List (HubEv B) → Except ApiError UpsertOutcome → Prop
  | malformed (h : isUuid q.uuid = false) :
    Ended isUuid q [] (.error (.internal (.protocol "invalid item uuid")))
  | fault {tr : List (HubEv B)} (h : ∃ ev ∈ tr, Faulty.fault ev.inp = true)
      (hq : Every Unchanged tr) : Ended isUuid q tr (.error (.internal .database))
  | orphan {tr : List (HubEv B)} {w : HubEv B} (h : isUuid q.uuid = true)
      (h0 : q.targetVersion = 0) (hok : Faultless tr) (hq : Every Unchanged (tr ++ [w]))
      (hw : isWrite w.name = true) (hrow : rowAt q.key w.pre = none)
      (huser : w.pre.db.users.get q.userId = none) :
    Ended isUuid q (tr ++ [w]) (.error (.internal .foreignKey))
  | behind {g : HubEv B} (h : isUuid q.uuid = true) (hok : Faulty.fault g.inp = false)
      (hname : g.name = .db (.minEncKeyGen q.userId)) (hq : Unchanged g) (hg : Behind q g.pre) :
    Ended isUuid q [g] (.ok .epochTooOld)
  | wrote {tr : List (HubEv B)} {w : HubEv B} {o : UpsertOutcome} (h : isUuid q.uuid = true)
      (hok : Faultless tr) (hq : Every Unchanged tr) (hw : Wrote q w)
      (ho : o = .updated ∨ o = .recovered) : Ended isUuid q (tr ++ [w]) (.ok o)
  | missed {tr : List (HubEv B)} {w : HubEv B} (h : isUuid q.uuid = true) (hok : Faultless tr)
      (hq : Every Unchanged tr) (hw : Missed q w) : Ended isUuid q (tr ++ [w]) (.ok .conflict)

lemma unchanged_of_shows {ev : DbEv B} (h : Shows onDb ev w) (hev : ev.post.items = ev.pre.items) :
    Unchanged w := by
  have hpost : w.post.db = ev.post := h.get_post
  have hpre : ev.pre = w.pre.db := h.pre
  rw [Unchanged, hpost, ← hpre, hev]

section Shown

variable {α : Type} {t rest : List (DbEv B)} {q : Upsert B}

/-- A read of the database. -/
lemma shown_read {l : Stmt} {g : Db B → α} {r : Except SqlError α}
    (h : Runs (select l g : Repo B α).run t r) (hs : List.Forall₂ (Shows onDb) (t ++ rest) tr) :
    ∃ ev tr₁, tr = ev :: tr₁ ∧ List.Forall₂ (Shows onDb) rest tr₁ ∧ ev.name = .db l ∧ Unchanged ev ∧
      (Faulty.fault ev.inp = true ∧ r = .error .database ∨
        Faulty.fault ev.inp = false ∧ r = .ok (g ev.pre.db)) := by
  obtain ⟨e, s, rfl, rfl⟩ := runs_select.mp h
  obtain _ | @⟨_, ev, _, tr₁, hev, hs⟩ := hs
  refine ⟨ev, tr₁, rfl, hs, hev.name, unchanged_of_shows hev rfl, ?_⟩
  have hinp : Faulty.fault e = Faulty.fault ev.inp := congrArg Env.fault hev.inp
  have hpre : s = ev.pre.db := hev.pre
  rw [hinp, hpre]
  cases Faulty.fault ev.inp <;> simp

/-- The `UPDATE`. -/
lemma shown_update {r : Except SqlError ℕ} (h : Runs (updateItem q).run t r)
    (hs : List.Forall₂ (Shows onDb) (t ++ rest) tr) :
    ∃ w tr₁, tr = w :: tr₁ ∧ List.Forall₂ (Shows onDb) rest tr₁ ∧ isWrite w.name = true ∧
      (Faulty.fault w.inp = true ∧ Unchanged w ∧ r = .error .database ∨ Wrote q w ∧ r = .ok 1 ∨
        Faulty.fault w.inp = false ∧ Unchanged w ∧
          (rowAt q.key w.pre).map (·.version) ≠ some q.targetVersion ∧ r = .ok 0) := by
  obtain ⟨e, s, hstmt⟩ := runs_statement.mp h
  rcases hstmt with ⟨hf, rfl, rfl⟩ | ⟨hf, rfl, rfl⟩
  · obtain _ | @⟨_, w, _, tr₁, hw, hs⟩ := hs
    have hname : isWrite w.name = true := by rw [hw.name]; rfl
    have hinp : Faulty.fault e = Faulty.fault w.inp := congrArg Env.fault hw.inp
    exact ⟨w, tr₁, rfl, hs, hname, .inl ⟨hinp ▸ hf, unchanged_of_shows hw rfl, rfl⟩⟩
  obtain _ | @⟨_, w, _, tr₁, hw, hs⟩ := hs
  have hname : isWrite w.name = true := by rw [hw.name]; rfl
  have hinp : Faulty.fault e = Faulty.fault w.inp := congrArg Env.fault hw.inp
  have hpre : s = w.pre.db := hw.pre
  have hpost : w.post.db.items =
      s.items.update q.hits (q.set (nextSeq s q.userId)) (q.set_key _) :=
    congrArg Db.items hw.get_post
  subst hpre
  refine ⟨w, tr₁, rfl, hs, hname, .inr ?_⟩
  have hmiss : w.pre.db.items.rows.countP q.hits = 0 → Unchanged w := fun hz => by
    rw [Unchanged, hpost]
    exact Table.update_eq_self (q.set_key _) hz
  cases hr : w.pre.db.items.get q.key with
  | none =>
    have hz : w.pre.db.items.rows.countP q.hits = 0 := by simp [countP_hits, hr]
    refine .inr ⟨hinp ▸ hf, hmiss hz, by simp [rowAt, hr], ?_⟩
    rw [hz]
  | some row =>
    by_cases hit : q.hits row
    · have hc : w.pre.db.items.rows.countP q.hits = 1 := by simp [countP_hits, hr, hit]
      refine .inl ⟨⟨hname, hinp ▸ hf, ?_, ⟨nextSeq w.pre.db q.userId, ?_⟩, ?_⟩, by rw [hc]⟩
      · simp [Occ.version, hr, (hits_iff.mp hit).2]
      · rw [rowAt, hpost]
        simp [hr, hit, set_eq_row]
      · simp [rowAt, hr]
    · have hz : w.pre.db.items.rows.countP q.hits = 0 := by simp [countP_hits, hr, hit]
      refine .inr ⟨hinp ▸ hf, hmiss hz, fun hv => hit ?_, by rw [hz]⟩
      rw [rowAt, hr] at hv
      exact hits_iff.mpr ⟨Table.get_key hr, Option.some.inj hv⟩

/-- The `INSERT`. -/
lemma shown_insert {r : Except SqlError Unit} (h0 : q.targetVersion = 0)
    (h : Runs (insertItem q).run t r) (hs : List.Forall₂ (Shows onDb) (t ++ rest) tr) :
    ∃ w tr₁, tr = w :: tr₁ ∧ List.Forall₂ (Shows onDb) rest tr₁ ∧ isWrite w.name = true ∧
      (Faulty.fault w.inp = true ∧ Unchanged w ∧ r = .error .database ∨ Wrote q w ∧ r = .ok () ∨
        Faulty.fault w.inp = false ∧ Unchanged w ∧
          (r = .error .unique ∧ (rowAt q.key w.pre).isSome ∨ r = .error .foreignKey ∧
            rowAt q.key w.pre = none ∧ w.pre.db.users.get q.userId = none)) := by
  obtain ⟨e, s, hstmt⟩ := runs_statement.mp h
  rcases hstmt with ⟨hf, rfl, rfl⟩ | ⟨hf, rfl, rfl⟩
  · obtain _ | @⟨_, w, _, tr₁, hw, hs⟩ := hs
    have hname : isWrite w.name = true := by rw [hw.name]; rfl
    have hinp : Faulty.fault e = Faulty.fault w.inp := congrArg Env.fault hw.inp
    exact ⟨w, tr₁, rfl, hs, hname, .inl ⟨hinp ▸ hf, unchanged_of_shows hw rfl, rfl⟩⟩
  obtain _ | @⟨_, w, _, tr₁, hw, hs⟩ := hs
  have hname : isWrite w.name = true := by rw [hw.name]; rfl
  have hinp : Faulty.fault e = Faulty.fault w.inp := congrArg Env.fault hw.inp
  have hpre : s = w.pre.db := hw.pre
  subst hpre
  refine ⟨w, tr₁, rfl, hs, hname, .inr ?_⟩
  cases hi : w.pre.db.items.insert (q.row 1 (nextSeq w.pre.db q.userId)) with
  | none =>
    simp only [hi] at hw ⊢
    exact .inr ⟨hinp ▸ hf, unchanged_of_shows hw rfl, .inl ⟨trivial, Table.insert_eq_none_iff.mp hi⟩⟩
  | some items =>
    have hnone : w.pre.db.items.get q.key = none := (Table.insert_eq_some hi).1
    cases hu : w.pre.db.users.get q.userId with
    | none =>
      simp only [hi, hu] at hw ⊢
      exact .inr ⟨hinp ▸ hf, unchanged_of_shows hw rfl, .inr ⟨rfl, hnone, trivial⟩⟩
    | some user =>
      simp only [hi, hu] at hw ⊢
      have hpost : w.post.db = { w.pre.db with items } := hw.get_post
      refine .inl ⟨⟨hname, hinp ▸ hf, by simp [Occ.version, hnone, h0],
        ⟨nextSeq w.pre.db q.userId, ?_⟩, fun _ => by rw [hu]; rfl⟩, rfl⟩
      rw [rowAt, hpost, h0]
      exact (Table.get_insert hi q.key).trans (if_pos rfl)

end Shown

/-- **How `upsert_item_occ` ends**, whatever the others do. -/
lemma ended_of_runs {parse : Ident → Option Ident} {q : Upsert B} {r : Except ApiError UpsertOutcome}
    (h : Runs (upsert parse q).run tr r) : Ended (fun u => (parse u).isSome) q tr r := by
  obtain ⟨tr', horInternal, hshow⟩ := runs_zoom h
  obtain ⟨r', rfl, hrun⟩ := runs_orInternal.mp horInternal
  clear h horInternal
  unfold upsertItemOcc at hrun
  split at hrun
  · -- the uuid is none: nothing is run
    next hid =>
    obtain ⟨rfl, rfl⟩ := hrun
    cases hshow
    exact .malformed (by simpa using hid)
  next hid =>
  replace hid : (parse q.uuid).isSome = true := by simpa [Option.isSome_iff_ne_none] using hid
  rw [runs_bind_except] at hrun
  rcases hrun with ⟨gen, t, rest, rfl, hgate, hrun⟩ | ⟨e, hgate, rfl⟩
  rotate_left
  · -- the look at the generation fails
    rw [← List.append_nil tr'] at hshow
    obtain ⟨g, tr₁, rfl, hshow, -, hgsame, ⟨hgf, hr⟩ | ⟨-, hr⟩⟩ := shown_read hgate hshow <;> cases hr
    cases hshow
    exact .fault ⟨g, List.mem_singleton_self _, hgf⟩ (by simpa [Every] using hgsame)
  obtain ⟨g, tr₁, rfl, hshow, hgname, hgsame, ⟨-, hr⟩ | ⟨hgok, hr⟩⟩ := shown_read hgate hshow <;>
    cases hr
  split at hrun
  · -- the generation is behind
    next hbehind =>
    obtain ⟨rfl, rfl⟩ := hrun
    cases hshow
    refine .behind hid hgok hgname hgsame ?_
    cases hu : g.pre.db.users.get q.userId with
    | none => simp [hu] at hbehind
    | some u => exact ⟨u, hu, by simpa [hu] using hbehind⟩
  rw [runs_bind_except] at hrun
  rcases hrun with ⟨prior, t, rest, rfl, hprobe, hrun⟩ | ⟨e, hprobe, rfl⟩
  rotate_left
  · -- the look at the row fails
    rw [← List.append_nil rest] at hshow
    obtain ⟨p, tr₁, rfl, hshow, -, hpsame, ⟨hpf, hr⟩ | ⟨-, hr⟩⟩ := shown_read hprobe hshow <;>
      cases hr
    cases hshow
    exact .fault ⟨p, by simp, hpf⟩ (by simp [Every, hgsame, hpsame])
  obtain ⟨p, tr₁, rfl, hshow, -, hpsame, ⟨-, hr⟩ | ⟨hpok, hr⟩⟩ := shown_read hprobe hshow <;>
    cases hr
  have hok : Faultless [g, p] := by simp [Faultless, Every, hgok, hpok]
  have hq : Every Unchanged [g, p] := by simp [Every, hgsame, hpsame]
  dsimp only at hrun
  rw [runs_bind_except] at hrun
  rcases hrun with ⟨n, t, rest, rfl, hupd, hrun⟩ | ⟨e, hupd, rfl⟩
  rotate_left
  · -- the `UPDATE` fails
    rw [← List.append_nil rest] at hshow
    obtain ⟨w, tr₁, rfl, hshow, -, ⟨hwf, hsame, hr⟩ | ⟨-, hr⟩ | ⟨-, -, -, hr⟩⟩ :=
      shown_update hupd hshow
    · cases hr
      cases hshow
      exact .fault ⟨w, by simp, hwf⟩ (by simp [Every, hgsame, hpsame, hsame])
    · cases hr
    · cases hr
  obtain ⟨w, tr₁, rfl, hshow, hname, ⟨-, -, hr⟩ | ⟨hw, hr⟩ | ⟨hwok, hsame, hv, hr⟩⟩ :=
    shown_update hupd hshow
  · cases hr
  · cases hr
    rw [if_pos rfl] at hrun
    obtain ⟨rfl, rfl⟩ := hrun
    cases hshow
    -- the `UPDATE` has hit the row
    refine Ended.wrote hid hok hq hw ?_
    split <;> simp
  cases hr
  rw [if_neg (by decide)] at hrun
  split at hrun
  rotate_left
  · -- no row, and the target is not 0: there is no `INSERT`
    next h0 =>
    obtain ⟨rfl, rfl⟩ := hrun
    cases hshow
    exact Ended.missed hid hok hq ⟨hname, hwok, hsame, fun _ => hv, fun h => absurd h h0⟩
  next h0 =>
  rw [runs_bind_except] at hrun
  rcases hrun with ⟨r, t, rest, rfl, hins, hrun⟩ | ⟨e, hins, rfl⟩
  rotate_left
  · obtain ⟨r, hr, -⟩ := runs_attempt.mp hins
    cases hr
  obtain ⟨r, hr, hins⟩ := runs_attempt.mp hins
  cases hr
  have hok : Faultless [g, p, w] := by simp [Faultless, Every, hgok, hpok, hwok]
  have hq : Every Unchanged [g, p, w] := by simp [Every, hgsame, hpsame, hsame]
  -- the `INSERT` fails, makes the row, meets another one, or has no user
  obtain ⟨i, tr₁, rfl, hshow, hname, ⟨hif, hisame, rfl⟩ | ⟨hi, rfl⟩ |
    ⟨hiok, hisame, ⟨rfl, hsome⟩ | ⟨rfl, hrow, huser⟩⟩⟩ := shown_insert h0 hins hshow <;>
    obtain ⟨rfl, rfl⟩ := hrun <;> cases hshow
  · exact .fault ⟨i, by simp, hif⟩ (by simp [Every, hgsame, hpsame, hsame, hisame])
  · exact Ended.wrote hid hok hq hi (.inl rfl)
  · exact Ended.missed hid hok hq ⟨hname, hiok, hisame, fun h => absurd h0 h, fun _ => hsome⟩
  · exact Ended.orphan hid h0 hok (by simp [Every, hgsame, hpsame, hsame, hisame]) hname hrow huser

/-! ### Executions of the other parts of a handler -/

section Parts

variable {α : Type}

/-- A read of the database by a handler. -/
lemma runs_read {l : Stmt} {g : Db B → α} {r : Except ApiError α}
    (h : Runs (zoomE onDb (orInternal (select l g))).run tr r) :
    ∃ ev, tr = [ev] ∧ ev.name = .db l ∧ Unchanged ev ∧
      (Faulty.fault ev.inp = true ∧ r = .error (.internal .database) ∨
        Faulty.fault ev.inp = false ∧ r = .ok (g ev.pre.db)) := by
  obtain ⟨tr', horInternal, hshow⟩ := runs_zoom h
  obtain ⟨r', rfl, hrun⟩ := runs_orInternal.mp horInternal
  rw [← List.append_nil tr'] at hshow
  obtain ⟨ev, tr₁, rfl, hshow, hname, hsame, hr⟩ := shown_read hrun hshow
  cases hshow
  refine ⟨ev, rfl, hname, hsame, hr.imp ?_ ?_⟩
  · rintro ⟨hf, rfl⟩
    exact ⟨hf, rfl⟩
  · rintro ⟨hf, rfl⟩
    exact ⟨hf, rfl⟩

/-- A look at the clock. -/
lemma runs_nowMs {r : Except ApiError ℤ}
    (h : Runs (zoomE onDb (nowMs : ServerHandler B ℤ)).run tr r) :
    ∃ ev, tr = [ev] ∧ ev.name = .db .clock ∧ Unchanged ev ∧ r = .ok ev.inp.base.now := by
  obtain ⟨e, s, rest, rfl, rfl, rfl⟩ := h
  exact ⟨_, rfl, rfl, rfl, rfl⟩

/-- All statements of an upsert are on the database. -/
lemma db_of_upsert {parse : Ident → Option Ident} {q : Upsert B} {r : Except ApiError UpsertOutcome}
    (h : Runs (upsert parse q).run tr r) : ∀ ev ∈ tr, ∃ l, ev.name = .db l := by
  obtain ⟨tr', -, hshow⟩ := runs_zoom h
  clear h
  induction hshow with
  | nil => simp
  | cons hev _ ih => exact List.forall_mem_cons.mpr ⟨⟨_, hev.name⟩, ih⟩

lemma runs_publish {ev : VaultEvent} {r : Except ApiError Unit}
    (h : Runs (publish ev : HubHandler B Unit).run tr r) :
    ∃ p, tr = [p] ∧ p.name = .publish ev ∧ Unchanged p ∧ r = .ok () := by
  obtain ⟨e, s, rfl, rfl⟩ := runs_atom.mp h
  exact ⟨_, rfl, rfl, rfl, rfl⟩

end Parts

/-! ### What all requests keep -/

section Keeps

variable {α : Type} {parse : Ident → Option Ident} {R : Db B → Db B → Prop}

/-- The statement moves the database by `R`. -/
abbrev Moves (R : Db B → Db B → Prop) (ev : HubEv B) : Prop := R ev.pre.db ev.post.db

/-- A part of a request whose statements move the database by `R`. -/
abbrev Moving {α : Type} (R : Db B → Db B → Prop) (p : Prog (Hub B) HubEnv HubStmt α) : Prop :=
  Guarantees (fun _ _ _ => True) (Moves R) p

lemma moving_db {p : Prog (Db B) Env Stmt α}
    (h : Guarantees (fun _ _ _ => True) (fun ev => R ev.pre ev.post) p) : Moving R (zoom onDb p) :=
  guarantees_zoom h (fun _ _ _ _ => trivial) fun _ _ _ _ h => h

lemma moving_select (hrefl : ∀ s, R s s) (l : Stmt) (g : Db B → α) :
    Moving R (zoomE onDb (orInternal (select l g))).run :=
  moving_db (guarantees_orInternal (guarantees_select (fun _ _ _ => hrefl _) _ _))

lemma moving_atom (hrefl : ∀ s, R s s) {l : HubStmt} {g : HubEnv → Hub B → Hub B × α}
    (hg : ∀ e s, (g e s).1.db = s.db) : Moving R (Prog.atom l g) :=
  guarantees_stmt (fun e s => by rw [Moves, hg]; exact hrefl _) fun _ _ => guarantees_ret _

lemma moving_publish (hrefl : ∀ s, R s s) (ev : VaultEvent) :
    Moving R (publish ev : HubHandler B Unit).run := moving_atom hrefl fun _ _ => rfl

lemma moving_nowMs (hrefl : ∀ s, R s s) : Moving R (zoomE onDb (nowMs : ServerHandler B ℤ)).run :=
  moving_db (guarantees_stmt (fun _ _ => hrefl _) fun _ _ => guarantees_ret _)

lemma moving_upsert {q : Upsert B} (h : Guarantees (fun _ _ _ => True) (fun ev => R ev.pre ev.post)
    (upsertItemOcc (fun u => (parse u).isSome) q).run) : Moving R (upsert parse q).run :=
  moving_db (guarantees_orInternal h)

variable (hrefl : ∀ s, R s s) (hupsert : ∀ q : Upsert B, Moving R (upsert parse q).run)
include hrefl hupsert

lemma moving_pushItem (user : Ident) (now : ℤ) (item : PushItem B) :
    Moving R (pushItem parse user now item).run := by
  have hrow : Moving R (zoomE onDb (pushedRow user item)).run :=
    moving_db (guarantees_pushedRow (fun _ _ _ => hrefl _) _ _)
  refine guarantees_bind_except (moving_select hrefl _ _) fun gen => ?_
  dsimp only
  split
  · exact guarantees_pure_except _
  have hpayload : Moving R (zoomE onDb (decodePayload item.payload : ServerHandler B _)).run := by
    rcases item.payload with _ | _ | p <;> exact guarantees_ret _
  refine guarantees_bind_except hpayload fun payload => guarantees_bind_except (hupsert _) fun o => ?_
  cases o with
  | updated => exact hrow
  | recovered => exact guarantees_bind_except (moving_publish hrefl _) fun _ => hrow
  | conflict =>
    exact guarantees_bind_except (moving_select hrefl _ _) fun _ => guarantees_pure_except _
  | epochTooOld => exact guarantees_pure_except _

lemma moving_syncPushBatch (req : PushBatchReq B) : Moving R (VaultEvents.syncPushBatch parse req).run := by
  unfold VaultEvents.syncPushBatch
  split
  · exact guarantees_throw_except _
  refine guarantees_bind_except (moving_nowMs hrefl) fun now => ?_
  induction req.items with
  | nil => exact guarantees_pure_except _
  | cons item rest ih =>
    exact guarantees_bind_except (moving_pushItem hrefl hupsert _ _ _) fun _ =>
      guarantees_bind_except ih fun _ => guarantees_pure_except _

omit hupsert in
lemma moving_putRow (user uuid : Ident) :
    Moving R (putRow user uuid : HubHandler B ItemPutResp).run := by
  refine guarantees_bind_except (moving_select hrefl _ _) fun row => ?_
  cases row <;> exact guarantees_ret _

lemma moving_itemPut (user uuid : Ident) (gen : UInt64) (payload : Option B) :
    Moving R (itemPut parse user uuid gen payload).run := by
  refine guarantees_bind_except (moving_select hrefl _ _) fun row => ?_
  cases row with
  | none => exact guarantees_throw_except _
  | some row =>
    have hpayload : Moving R (zoomE onDb (decodeB64 payload : ServerHandler B B)).run := by
      cases payload <;> exact guarantees_ret _
    refine guarantees_bind_except hpayload fun payload =>
      guarantees_bind_except (moving_nowMs hrefl) fun now =>
        guarantees_bind_except (hupsert _) fun o => ?_
    cases o with
    | updated => exact moving_putRow hrefl _ _
    | recovered =>
      exact guarantees_bind_except (moving_publish hrefl _) fun _ => moving_putRow hrefl _ _
    | conflict => exact guarantees_throw_except _
    | epochTooOld => exact guarantees_throw_except _

lemma moving_itemDelete (user uuid : Ident) : Moving R (itemDelete (B := B) parse user uuid).run := by
  refine guarantees_bind_except (moving_select hrefl _ _) fun row => ?_
  cases row with
  | none => exact guarantees_throw_except _
  | some row =>
    refine guarantees_bind_except (moving_nowMs hrefl) fun now =>
      guarantees_bind_except (hupsert _) fun o => ?_
    cases o with
    | updated =>
      exact guarantees_bind_except (moving_publish hrefl _) fun _ => guarantees_pure_except _
    | recovered => exact guarantees_pure_except _
    | conflict => exact guarantees_throw_except _
    | epochTooOld => exact guarantees_throw_except _

omit hupsert in
lemma moving_scan : Moving R (scan parse : Prog (Hub B) HubEnv HubStmt VaultEvents.Reply) := by
  have hread : Moving R (tombstonedItemsWithOwner (B := B) parse).run :=
    guarantees_statement (fun _ _ => hrefl _) fun _ _ => hrefl _
  refine guarantees_bind hread fun r => ?_
  rcases r with e | rows
  · exact guarantees_ret _
  refine guarantees_bind ?_ fun _ => guarantees_ret _
  induction rows with
  | nil => exact guarantees_ret _
  | cons x rest ih =>
    refine guarantees_bind (moving_atom hrefl fun _ s => ?_) fun _ => ih
    split <;> rfl

/-- **What every request keeps**: what the upserts and the rotations keep. -/
lemma moving_code {X : Ext B}
    (hrotate : ∀ req, Moving R (zoomE onDb (accountRotateKey X req)).run) (q : Req B) :
    Moving R (code parse X q) := by
  cases q with
  | rotate req => exact guarantees_bind (hrotate req) fun _ => guarantees_ret _
  | hub q =>
    refine guarantees_bind ?_ fun _ => guarantees_ret _
    cases q with
    | pushBatch req =>
      exact guarantees_bind (moving_syncPushBatch hrefl hupsert req) fun _ => guarantees_ret _
    | itemPut user uuid gen payload =>
      exact guarantees_bind (moving_itemPut hrefl hupsert _ _ _ _) fun _ => guarantees_ret _
    | itemDelete user uuid =>
      exact guarantees_bind (moving_itemDelete hrefl hupsert _ _) fun _ => guarantees_ret _
    | eventsStream auth =>
      refine guarantees_bind ?_ fun _ => guarantees_ret _
      cases auth with
      | ok user => exact moving_atom hrefl fun _ _ => rfl
      | error e => exact guarantees_throw_except _
    | poll id => exact guarantees_bind (moving_atom hrefl fun _ _ => rfl) fun _ => guarantees_ret _
    | disconnect id =>
      exact guarantees_bind (moving_atom hrefl fun _ _ => rfl) fun _ => guarantees_ret _
    | scan => exact moving_scan hrefl

end Keeps

end Vautr.ItemServer
