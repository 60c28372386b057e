import Vautr.ItemServer

/-!
A put or a delete of an item that is there.

The handler reads the row and asks for its version plus one as the version to be replaced, while
`upsert_item_occ` matches the stored version. So the call is refused where nobody interferes, and
it is applied where exactly one write came in between.
-/

namespace Vautr.ItemWrites

open Vautr.Atomic Vautr.Interleave Vautr.Sql Vautr.Database Vautr.Api Vautr.Server Vautr.Handlers
  Vautr.Occ Vautr.Zoom Vautr.VaultEvents Vautr.Executions Vautr.ItemServer

variable {B : Type}

/-! ### What a put or a delete should do -/

/-- The handler has found the row. -/
def Found (k : Ident × Ident) (r : ItemRow B) (tr : List (HubEv B)) : Prop :=
  ∃ ev ∈ tr.head?, rowAt k ev.pre = some r

/-- The statement has raised the version of the row by one, the row is a tombstone or not, and the
answer tells the version. -/
structure Raised (k : Ident × Ident) (r : ItemRow B) (dead : Bool) (w : HubEv B)
    (a : Except ApiError ItemPutResp) : Prop where
  row : ∃ r', rowAt k w.post = some r' ∧ r'.version = r.version + 1 ∧ r'.deletedDate.isSome = dead
  answer : ∃ resp, a = .ok resp ∧ resp.version = r.version + 1

/-- The call was answered with 412, and has written nothing. -/
structure Refused (tr : List (HubEv B)) (a : Except ApiError ItemPutResp) : Prop where
  answer : a = .error versionConflict
  unchanged : Every Unchanged tr

/-- The call comes to its write. It is applied if that finds the row as the handler read it, and
refused if another write came in between. -/
def Behaves (k : Ident × Ident) (r : ItemRow B) (dead : Bool) (tr : List (HubEv B))
    (a : Except ApiError ItemPutResp) : Prop :=
  ∃ w, writeOf tr = some w ∧ (rowAt k w.pre = some r → Raised k r dead w a) ∧
    (rowAt k w.pre ≠ some r → Refused tr a)

/-- Another write came in between, and it was not the only one. -/
def Overtaken (k : Ident × Ident) (r : ItemRow B) (tr : List (HubEv B)) : Prop :=
  ∃ w, writeOf tr = some w ∧ rowAt k w.pre ≠ some r ∧
    (rowAt k w.pre).map (·.version) ≠ some (r.version + 1)

/-- The generation is not behind the one that the user has when it is looked at. -/
def Admitted (user : Ident) (gen : UInt64) (tr : List (HubEv B)) : Prop :=
  ∀ ev ∈ tr, ev.name = .db (.minEncKeyGen user) → ∀ u, ev.pre.db.users.get user = some u →
    u.minEncKeyGen ≤ gen.toNat

/-- The names and the versions of the items are such as the server gives them. -/
def Valid (parse : Ident → Option Ident) (db : Db B) : Prop :=
  ∀ r ∈ db.items.rows, (parse r.uuid).isSome ∧ 0 < r.version

variable {parse : Ident → Option Ident} {tr rest : List (HubEv B)} {r : ItemRow B}
  {q : Upsert B} {a : Except ApiError ItemPutResp} {dead : Bool}

/-! ### The version that is asked for -/

/-- The version that a handler asks for is the one after the version it read. -/
lemma target_eq {v : ℤ} (hpos : 0 < v) (hlt : v + 1 < 2 ^ 63) : asI64 (asU64 (v + 1)) = v + 1 := by
  obtain ⟨n, hn⟩ : ∃ n : ℕ, v + 1 = n := ⟨(v + 1).toNat, (Int.toNat_of_nonneg (by omega)).symm⟩
  rw [hn] at hlt ⊢
  have hmod : ((n : ℤ) % 2 ^ 64).toNat = n := by omega
  rw [asU64, hmod, asI64, BitVec.toInt_eq_toNat_of_lt]
  · simp
    omega
  · simp
    omega

/-- What a call made for the version after that of the row makes of it. -/
lemma behaves_iff_of_ended {pre tru : List (HubEv B)} {o : Except ApiError UpsertOutcome}
    (hpre : ∀ ev ∈ pre, isWrite ev.name = false) (hsame : Every Unchanged pre)
    (hrest : ∀ ev ∈ rest, isWrite ev.name = false) (hpos : 0 < r.version)
    (htarget : q.targetVersion = r.version + 1) (hok : Faultless tru)
    (hid : (parse q.uuid).isSome = true) (hended : Ended (fun u => (parse u).isSome) q tru o)
    (hconflict : o = .ok .conflict → rest = [] ∧ a = .error versionConflict)
    (hbehind : o = .ok .epochTooOld → rest = []) :
    Behaves q.key r dead (pre ++ (tru ++ rest)) a ↔ Overtaken q.key r (pre ++ (tru ++ rest)) := by
  cases hended with
  -- the uuid is one, nothing fails and the target is not 0
  | malformed h =>
    rw [hid] at h
    cases h
  | fault h =>
    obtain ⟨ev, hev, hf⟩ := h
    have hfalse : Faulty.fault ev.inp = false := hok ev hev
    rw [hf] at hfalse
    cases hfalse
  | orphan _ h0 =>
    rw [htarget] at h0
    omega
  -- the generation is behind: the call does not come to its write
  | @behind g _ _ hname =>
    obtain rfl := hbehind rfl
    have hnone : writeOf (pre ++ ([g] ++ [])) = none := writeOf_eq_none fun ev hev => by
      rcases List.mem_append.mp hev with hev | hev
      · exact hpre ev hev
      · obtain rfl := List.mem_singleton.mp hev
        rw [hname]
        rfl
    rw [Behaves, Overtaken, hnone]
    simp
  | @wrote tr w _ _ _ _ hw =>
    -- the version was that of the target, so somebody else has written, and the call writes too
    have hwrite : writeOf (pre ++ (tr ++ [w] ++ rest)) = some w := by
      rw [List.append_assoc, ← List.append_assoc]
      exact writeOf_append hw.name hrest
    obtain ⟨row, hrow, hv⟩ : ∃ row, rowAt q.key w.pre = some row ∧ row.version = r.version + 1 := by
      have hv := hw.version
      rw [Occ.version, htarget] at hv
      cases hrow : rowAt q.key w.pre with
      | none =>
        rw [rowAt] at hrow
        rw [hrow] at hv
        simp only [Option.map_none, Option.getD_none] at hv
        omega
      | some row =>
        rw [rowAt] at hrow
        rw [hrow] at hv
        exact ⟨row, rfl, hv⟩
    have hne : rowAt q.key w.pre ≠ some r := by
      rw [hrow]
      rintro ⟨⟩
      omega
    refine iff_of_false ?_ ?_
    · rintro ⟨w', hw', -, hrefused⟩
      obtain rfl := Option.some.inj (hwrite.symm.trans hw')
      have hsame := (hrefused hne).unchanged w (by simp)
      obtain ⟨n, hpost⟩ := hw.row
      rw [rowAt, hsame, ← rowAt, hrow] at hpost
      have := congrArg ItemRow.version (Option.some.inj hpost)
      simp only [Upsert.row, htarget, hv] at this
      omega
    · rintro ⟨w', hw', -, hover⟩
      obtain rfl := Option.some.inj (hwrite.symm.trans hw')
      exact hover (by rw [hrow, Option.map_some, hv])
  -- it is refused, as it should be unless the row is the one it has read
  | @missed tr w _ _ hq hw =>
    obtain ⟨rfl, rfl⟩ := hconflict rfl
    have hwrite : writeOf (pre ++ (tr ++ [w] ++ [])) = some w := by
      rw [List.append_assoc, ← List.append_assoc]
      exact writeOf_append hw.name hrest
    have hmiss := hw.version (by rw [htarget]; omega)
    rw [htarget] at hmiss
    have hall : Every Unchanged (pre ++ (tr ++ [w] ++ [])) := by
      rw [List.append_nil, ← List.append_assoc]
      refine every_append (fun ev hev => ?_) hw.same
      exact (List.mem_append.mp hev).elim (hsame ev) (hq ev)
    constructor
    · rintro ⟨w', hw', hraised, -⟩
      obtain rfl := Option.some.inj (hwrite.symm.trans hw')
      refine ⟨w, hwrite, fun hrow => ?_, hmiss⟩
      obtain ⟨resp, hresp, -⟩ := (hraised hrow).answer
      cases hresp
    · rintro ⟨w', hw', hne, -⟩
      obtain rfl := Option.some.inj (hwrite.symm.trans hw')
      exact ⟨w, hwrite, fun hrow => absurd hrow hne, fun _ => ⟨rfl, hall⟩⟩

/-! ### The handlers -/

/-- Reading the row back is no write. -/
lemma isWrite_putRow {user uuid : Ident}
    (h : Runs (putRow user uuid : HubHandler B ItemPutResp).run tr a) :
    ∀ ev ∈ tr, isWrite ev.name = false := by
  unfold putRow at h
  rw [runs_bind_except] at h
  rcases h with ⟨row, t, rest, rfl, hread, h⟩ | ⟨e, hread, rfl⟩
  · obtain ⟨ev, rfl, hname, -⟩ := runs_read hread
    have hrest : rest = [] := by
      cases row <;> exact h.1
    subst hrest
    simp [hname, isWrite]
  · obtain ⟨ev, rfl, hname, -⟩ := runs_read hread
    simp [hname, isWrite]

/-- Nor is an event that is published before. -/
lemma isWrite_notified {user uuid : Ident} {e : VaultEvent}
    (h : Runs (do publish e; putRow user uuid : HubHandler B ItemPutResp).run tr a) :
    ∀ ev ∈ tr, isWrite ev.name = false := by
  rw [runs_bind_except] at h
  rcases h with ⟨⟨⟩, t, rest, rfl, hpub, h⟩ | ⟨e, hpub, rfl⟩
  · obtain ⟨p, rfl, hname, -⟩ := runs_publish hpub
    intro ev hev
    rcases List.mem_append.mp hev with hev | hev
    · obtain rfl := List.mem_singleton.mp hev
      rw [hname]
      rfl
    · exact isWrite_putRow h ev hev
  · obtain ⟨_, -, -, -, hr⟩ := runs_publish hpub
    cases hr

lemma isWrite_deleted {e : VaultEvent} {resp : ItemPutResp}
    (h : Runs (do publish e; return resp : HubHandler B ItemPutResp).run tr a) :
    ∀ ev ∈ tr, isWrite ev.name = false := by
  rw [runs_bind_except] at h
  rcases h with ⟨⟨⟩, t, rest, rfl, hpub, rfl, -⟩ | ⟨e, hpub, rfl⟩
  · obtain ⟨p, rfl, hname, -⟩ := runs_publish hpub
    simp [hname, isWrite]
  · obtain ⟨_, -, -, -, hr⟩ := runs_publish hpub
    cases hr

/-- What is left of a handler after its upsert. -/
lemma behaves_iff_of_upsert {pre : List (HubEv B)} {f : UpsertOutcome → HubHandler B ItemPutResp}
    (h : Runs (upsert parse q >>= f).run tr a) (hpre : ∀ ev ∈ pre, isWrite ev.name = false)
    (hsame : Every Unchanged pre) (hpos : 0 < r.version) (htarget : q.targetVersion = r.version + 1)
    (hok : Faultless tr) (hid : (parse q.uuid).isSome = true)
    (hconflict : f .conflict = throw versionConflict)
    (hbehind : f .epochTooOld = throw generationTooOld)
    (hupdated : ∀ {t}, Runs (f .updated).run t a → ∀ ev ∈ t, isWrite ev.name = false)
    (hrecovered : ∀ {t}, Runs (f .recovered).run t a → ∀ ev ∈ t, isWrite ev.name = false) :
    Behaves q.key r dead (pre ++ tr) a ↔ Overtaken q.key r (pre ++ tr) := by
  rw [runs_bind_except] at h
  rcases h with ⟨o, t, rest, rfl, hupsert, h⟩ | ⟨e, hupsert, rfl⟩
  · have hok' : Faultless t := fun e he => hok e (List.mem_append_left _ he)
    refine behaves_iff_of_ended hpre hsame ?_ hpos htarget hok' hid (ended_of_runs hupsert) ?_ ?_
    · cases o with
      | updated => exact hupdated h
      | recovered => exact hrecovered h
      | conflict =>
        rw [hconflict] at h
        simp [h.1]
      | epochTooOld =>
        rw [hbehind] at h
        simp [h.1]
    · rintro ⟨⟩
      rwa [hconflict] at h
    · rintro ⟨⟩
      rw [hbehind] at h
      exact h.1
  · rw [← List.append_nil tr]
    exact behaves_iff_of_ended hpre hsame (by simp) hpos htarget hok hid (ended_of_runs hupsert) nofun
      nofun

/-- A handler begins with the row it has found. -/
lemma found_of_read {user uuid : Ident} {o : Except ApiError (Option (ItemRow B))}
    {t : List (HubEv B)} (hfound : Found (uuid, user) r (t ++ rest)) (hok : Faultless (t ++ rest))
    (h : Runs (zoomE onDb (orInternal (getItem uuid user))).run t o) :
    o = .ok (some r) ∧ ∃ ev, t = [ev] ∧ isWrite ev.name = false ∧ Unchanged ev := by
  obtain ⟨ev, rfl, hname, hsame, ⟨hf, -⟩ | ⟨-, rfl⟩⟩ := runs_read h
  · have hfalse : Faulty.fault ev.inp = false := hok ev (by simp)
    rw [hf] at hfalse
    cases hfalse
  · obtain ⟨ev', hev', hrow⟩ := hfound
    obtain rfl := Option.some.inj hev'
    exact ⟨congrArg _ hrow, ev, rfl, by rw [hname]; rfl, hsame⟩

/-- **A put**, whatever the others do. -/
lemma put_behaves_iff {user uuid : Ident} {gen : UInt64} {payload : B}
    (h : Runs (itemPut parse user uuid gen (some payload)).run tr a) (hok : Faultless tr)
    (hfound : Found (uuid, user) r tr) (hid : (parse uuid).isSome) (hpos : 0 < r.version)
    (hlt : r.version + 1 < 2 ^ 63) :
    Behaves (uuid, user) r false tr a ↔ Overtaken (uuid, user) r tr := by
  unfold itemPut at h
  rw [runs_bind_except] at h
  rcases h with ⟨row, t, rest, rfl, hread, h⟩ | ⟨e, hread, rfl⟩
  rotate_left
  · rw [← List.append_nil tr] at hfound hok
    obtain ⟨hr, -⟩ := found_of_read hfound hok hread
    cases hr
  obtain ⟨hr, ev, rfl, hev, hsame⟩ := found_of_read hfound hok hread
  cases hr
  dsimp only at h
  rw [runs_bind_except] at h
  rcases h with ⟨p, t, rest, rfl, ⟨rfl, hp⟩, h⟩ | ⟨e, ⟨-, hr⟩, rfl⟩
  rotate_left
  · cases hr
  cases hp
  rw [runs_bind_except] at h
  rcases h with ⟨now, t, rest, rfl, hclock, h⟩ | ⟨e, hclock, rfl⟩
  rotate_left
  · obtain ⟨_, -, -, -, hr⟩ := runs_nowMs hclock
    cases hr
  obtain ⟨c, rfl, hc, hcsame, -⟩ := runs_nowMs hclock
  have hpre : ∀ e ∈ [ev, c], isWrite e.name = false :=
    List.forall_mem_cons.mpr ⟨hev, by simp [hc, isWrite]⟩
  have hpre' : Every Unchanged [ev, c] := by simp [Every, hsame, hcsame]
  refine behaves_iff_of_upsert h hpre hpre' hpos (target_eq hpos hlt) (fun e he => hok e ?_) hid rfl
    rfl (fun h => isWrite_putRow h) fun h => isWrite_notified h
  simp [he]

/-- **A delete**, whatever the others do. -/
lemma delete_behaves_iff {user uuid : Ident} (h : Runs (itemDelete parse user uuid).run tr a)
    (hok : Faultless tr) (hfound : Found (uuid, user) r tr) (hid : (parse uuid).isSome)
    (hpos : 0 < r.version) (hlt : r.version + 1 < 2 ^ 63) :
    Behaves (uuid, user) r true tr a ↔ Overtaken (uuid, user) r tr := by
  unfold itemDelete at h
  rw [runs_bind_except] at h
  rcases h with ⟨row, t, rest, rfl, hread, h⟩ | ⟨e, hread, rfl⟩
  rotate_left
  · rw [← List.append_nil tr] at hfound hok
    obtain ⟨hr, -⟩ := found_of_read hfound hok hread
    cases hr
  obtain ⟨hr, ev, rfl, hev, hsame⟩ := found_of_read hfound hok hread
  cases hr
  dsimp only at h
  rw [runs_bind_except] at h
  rcases h with ⟨now, t, rest, rfl, hclock, h⟩ | ⟨e, hclock, rfl⟩
  rotate_left
  · obtain ⟨_, -, -, -, hr⟩ := runs_nowMs hclock
    cases hr
  obtain ⟨c, rfl, hc, hcsame, -⟩ := runs_nowMs hclock
  have hpre : ∀ e ∈ [ev, c], isWrite e.name = false :=
    List.forall_mem_cons.mpr ⟨hev, by simp [hc, isWrite]⟩
  have hpre' : Every Unchanged [ev, c] := by simp [Every, hsame, hcsame]
  refine behaves_iff_of_upsert h hpre hpre' hpos (target_eq hpos hlt) (fun e he => hok e ?_) hid rfl
    rfl (fun h => isWrite_deleted h) fun h => by simp [h.1]
  simp [he]

/-! ### Runs -/

lemma keepsValid_upsertItemOcc (q : Upsert B) : Guarantees (fun _ _ _ => True)
    (fun ev => Valid parse ev.pre → Valid parse ev.post)
    (upsertItemOcc (fun u => (parse u).isSome) q).run := by
  by_cases hid : (parse q.uuid).isSome
  rotate_left
  · rw [upsertItemOcc, if_pos (by simpa using hid)]
    exact guarantees_throw_except _
  refine guarantees_upsertItemOcc (fun _ _ _ h => h)
    (guarantees_statement (fun _ _ h => h) fun _ db h row hrow => ?_) fun _ =>
    guarantees_statement (fun _ _ h => h) fun _ db h => ?_
  · obtain ⟨row', hrow', rfl⟩ := List.mem_map.mp hrow
    obtain ⟨hparse, hpos⟩ := h row' hrow'
    split
    · exact ⟨hparse, by simp only [Upsert.set]; omega⟩
    · exact ⟨hparse, hpos⟩
  · cases hins : db.items.insert (q.row 1 (nextSeq db q.userId)) with
    | none => exact h
    | some items =>
      dsimp only
      split
      · intro row hrow
        rw [(Table.insert_eq_some hins).2, List.mem_append, List.mem_singleton] at hrow
        rcases hrow with hrow | rfl
        · exact h row hrow
        · exact ⟨hid, Int.one_pos⟩
      · exact h

/-- Whatever is asked of the server, the items stay valid. -/
lemma keepsValid_code (X : Ext B) (q : ItemServer.Req B) :
    Moving (fun db db' => Valid parse db → Valid parse db') (ItemServer.code parse X q) := by
  refine moving_code (fun _ h => h) (fun q => moving_upsert (keepsValid_upsertItemOcc q))
    (fun req => moving_db ?_) q
  have hsame : ∀ (l : Stmt) (e : Env) (db : Db B),
      (fun ev : DbEv B => Valid parse ev.pre → Valid parse ev.post) ⟨l, e, db, db⟩ :=
    fun _ _ _ h => h
  exact guarantees_accountRotateKey hsame (guarantees_statement (fun _ _ h => h) fun _ _ h => h)
    fun _ _ => guarantees_statement (fun _ _ h => h) fun _ _ h => h

/-- **Puts and deletes of an item that is there** do what they should exactly if another write came
in between and was not the only one. -/
theorem behaves_iff (parse : Ident → Option Ident) (X : Ext B) (s : Hub B)
    (hs : Valid parse s.db) (as : List (ItemAct B)) :
    ∀ c ∈ (run (ItemServer.code parse X) (init s) as).calls, Faultless c.trace → ∀ user uuid r a,
      Found (uuid, user) r c.trace → r.version + 1 < 2 ^ 63 →
      c.prog.result = some (.hub (.item a)) →
      (∀ gen payload, c.req = .hub (.itemPut user uuid gen (some payload)) →
        Admitted user gen c.trace →
          (Behaves (uuid, user) r false c.trace a ↔ Overtaken (uuid, user) r c.trace)) ∧
      (c.req = .hub (.itemDelete user uuid) →
        (Behaves (uuid, user) r true c.trace a ↔ Overtaken (uuid, user) r c.trace)) := by
  intro c hc hok user uuid r a hfound hlt hres
  obtain ⟨ev, hev, hrow⟩ := hfound
  have hvalid : Valid parse ev.pre.db := run_pre (I := fun s => Valid parse s.db)
    (C := fun _ _ => True) (keepsValid_code X) (fun _ _ _ _ _ _ _ _ _ _ hG hI => hG hI) hs
    (along_true as (init s)) c hc ev (List.mem_of_mem_head? hev)
  obtain ⟨hmem, hkey⟩ := Table.get_eq_some_iff.mp hrow
  obtain ⟨hid, hpos⟩ := hvalid r hmem
  have huuid : r.uuid = uuid := congrArg Prod.fst hkey
  rw [huuid] at hid
  have hruns := run_runs (ItemServer.code parse X) s as c hc _ hres
  refine ⟨fun gen payload hreq _ => ?_, fun hreq => ?_⟩
  · rw [hreq] at hruns
    obtain ⟨_, hrep, hhub⟩ := runs_map.mp hruns
    cases hrep
    obtain ⟨_, hrep, hput⟩ := runs_map.mp hhub
    cases hrep
    exact put_behaves_iff hput hok ⟨ev, hev, hrow⟩ hid hpos hlt
  · rw [hreq] at hruns
    obtain ⟨_, hrep, hhub⟩ := runs_map.mp hruns
    cases hrep
    obtain ⟨_, hrep, hdelete⟩ := runs_map.mp hhub
    cases hrep
    exact delete_behaves_iff hdelete hok ⟨ev, hev, hrow⟩ hid hpos hlt

/-! ### One item -/

def row : ItemRow ℕ := ⟨3, 7, 1, 1, none, some 0, 0, some 1⟩

/-- The user 7 has the item 3. -/
def oneItem : Db ℕ := ⟨⟨[⟨7, "u", 0, 0, 0, 0, 1, 0, 0⟩], by simp⟩, ⟨[row], by simp⟩⟩

/-- The item is put, and nobody interferes. -/
def putting : List (ItemAct ℕ) :=
  .call (.hub (.itemPut 7 3 1 (some 9))) :: List.replicate 5 (.exec 0 ⟨⟨0, 0, false⟩, false, true⟩)

def served (as : List (ItemAct ℕ)) : ItemSys ℕ :=
  run (ItemServer.code some ⟨fun _ => true, fun _ => 0⟩) (init (start oneItem)) as

lemma valid_oneItem : Valid some oneItem := by
  intro r hr
  obtain rfl := List.mem_singleton.mp hr
  exact ⟨rfl, Int.one_pos⟩

/-- The put is the only call. -/
def putCall : Call (ItemServer.Req ℕ) (Hub ℕ) HubEnv HubStmt ItemServer.Reply :=
  (served putting).calls.get ⟨0, by decide⟩

lemma admitted_put : Admitted 7 1 putCall.trace := by
  intro ev hev _ u hu
  have hgen : ∀ ev ∈ putCall.trace, (ev.pre.db.users.get 7).map (·.minEncKeyGen) = some 1 := by
    decide
  have hu' := hgen ev hev
  rw [hu] at hu'
  exact (Option.some.inj hu').le

theorem behaves_iff_put : Behaves (3, 7) row false putCall.trace (.error versionConflict) ↔
    Overtaken (3, 7) row putCall.trace :=
  (behaves_iff some _ (start oneItem) valid_oneItem putting putCall (List.get_mem _ _)
    (by decide) 7 3 row _ ⟨_, rfl, rfl⟩ (by decide) rfl).1 1 9 rfl admitted_put

/-- A put that nobody interferes with is refused. -/
theorem undisturbed_put_refused : putCall ∈ (served putting).calls ∧
    putCall.req = .hub (.itemPut 7 3 1 (some 9)) ∧ Faultless putCall.trace ∧
    Admitted 7 1 putCall.trace ∧ Found (3, 7) row putCall.trace ∧
    (∀ ev ∈ putCall.trace, rowAt (3, 7) ev.pre = some row) ∧
    putCall.prog.result = some (.hub (.item (.error versionConflict))) ∧
    ¬Behaves (3, 7) row false putCall.trace (.error versionConflict) := by
  refine ⟨List.get_mem _ _, rfl, by decide, admitted_put, ⟨_, rfl, rfl⟩, by decide, rfl, ?_⟩
  rintro ⟨w, hw, hraised, -⟩
  cases hw
  obtain ⟨resp, hresp, -⟩ := (hraised rfl).answer
  cases hresp

end Vautr.ItemWrites
