import Vautr.Handlers

/-!
Optimistic concurrency control of items: what any number of `upsert_item_occ` calls do to
a row when their statements interleave in any way.

One call writes at most once, and the write is the last statement it runs: either the
`UPDATE` that matched the version, or the `INSERT` that found no row. So a call that
reports success has written exactly once, at a moment when the stored version was its
`target_version`, and every other call has written nothing.
-/

namespace Vautr.Occ

open Vautr.Atomic Vautr.Interleave Vautr.Sql Vautr.Database Vautr.Server

variable {B : Type}

/-- The version of an item; an item without a row has version 0. -/
def version (db : Db B) (k : Ident × Ident) : ℤ := ((db.items.get k).map (·.version)).getD 0

/-- The outcomes that report success. -/
def isApplied : Except SqlError UpsertOutcome → Bool
  | .ok .updated => true
  | .ok .recovered => true
  | _ => false

abbrev UpsertCall (B : Type) := Call (Upsert B) (Db B) Env Stmt (Except SqlError UpsertOutcome)

abbrev OccSys (B : Type) := Sys (Upsert B) (Db B) Env Stmt (Except SqlError UpsertOutcome)

/-- The call is finished and reported success. -/
def applied (c : UpsertCall B) : Bool := c.prog.result.any isApplied

/-- The code of a call. -/
def code (isUuid : IsUuid) (q : Upsert B) : Prog (Db B) Env Stmt (Except SqlError UpsertOutcome) :=
  (upsertItemOcc isUuid q).run

/-! ### The statements of one call -/

/-- None of the statements changed an item. -/
def Quiet (tr : List (DbEv B)) : Prop := Every (fun ev => ev.post.items = ev.pre.items) tr

/-- The statement found version `target_version` and wrote the row of the call, and no
other. -/
def Writes (q : Upsert B) (ev : DbEv B) : Prop :=
  version ev.pre q.key = q.targetVersion ∧ ∀ k, ev.post.items.get k =
    if k = q.key then some (q.row (q.targetVersion + 1) (nextSeq ev.pre q.userId))
    else ev.pre.items.get k

def rules : Rules (Db B) Env Stmt := ⟨fun _ _ _ => True, fun _ => True, Quiet⟩

/-- A successful call wrote with its last statement, any other call wrote nothing. -/
def Post (q : Upsert B) (r : Except SqlError UpsertOutcome) (tr : List (DbEv B)) (_ : Db B) :
    Prop :=
  if isApplied r then ∃ tr' ev, tr = tr' ++ [ev] ∧ Quiet tr' ∧ Writes q ev else Quiet tr

variable {tr : List (DbEv B)} {s : Db B} {q : Upsert B}

lemma wp_select {α : Type} {l : Stmt} {g : Db B → α}
    {Q : Except SqlError α → List (DbEv B) → Db B → Prop} (htr : Quiet tr)
    (h : ∀ r tr s, Quiet tr → Q r tr s) : wp rules (select l g).run Q tr s :=
  wp_statement htr (fun _ _ _ _ => h _ _ _ (every_append htr rfl))
    fun _ _ _ _ => h _ _ _ (every_append htr rfl)

lemma hits_iff {r : ItemRow B} :
    q.hits r ↔ r.key = q.key ∧ r.version = q.targetVersion := by
  simp [Upsert.hits, ItemRow.key, Upsert.key, and_assoc]

lemma set_eq_row {r : ItemRow B} (n : ℤ) (h : q.hits r) :
    q.set n r = q.row (q.targetVersion + 1) n := by
  simp only [Upsert.hits, Bool.and_eq_true, decide_eq_true_eq] at h
  obtain ⟨⟨h₁, h₂⟩, h₃⟩ := h
  simp [Upsert.set, Upsert.row, h₁, h₂, h₃]

/-- The rows an `UPDATE` of the call changes: the row of the call, if its version matches. -/
lemma countP_hits (db : Db B) :
    db.items.rows.countP q.hits = (db.items.get q.key).toList.countP q.hits :=
  db.items.countP_rows fun _ h => (hits_iff.mp h).1

lemma wp_updateItem {Q : Except SqlError ℕ → List (DbEv B) → Db B → Prop} (htr : Quiet tr)
    (hnone : ∀ r tr s, r ≠ .ok 1 → Quiet tr → Q r tr s)
    (hone : ∀ tr ev s, Quiet tr → Writes q ev → Q (.ok 1) (tr ++ [ev]) s) :
    wp rules (updateItem q).run Q tr s := by
  refine wp_statement htr (fun _ _ _ _ => hnone _ _ _ (by simp) (every_append htr rfl)) ?_
  intro db e _ _
  cases hr : db.items.get q.key with
  | none =>
    have hz : db.items.rows.countP q.hits = 0 := by simp [countP_hits, hr]
    exact hnone _ _ _ (by simp [hz]) (every_append htr (Table.update_eq_self (q.set_key _) hz))
  | some r =>
    by_cases hit : q.hits r
    · have hc : db.items.rows.countP q.hits = 1 := by simp [countP_hits, hr, hit]
      simp only [hc]
      refine hone _ _ _ htr ⟨?_, fun k => ?_⟩
      · simp [version, hr, (hits_iff.mp hit).2]
      · by_cases hk : k = q.key
        · subst hk
          simp [hr, hit, set_eq_row]
        · simp only [Table.get_update, if_neg hk]
          cases hr' : db.items.get k with
          | none => rfl
          | some r' =>
            have : ¬q.hits r' = true := fun h => hk ((Table.get_key hr').symm.trans (hits_iff.mp h).1)
            simp [this]
    · have hz : db.items.rows.countP q.hits = 0 := by simp [countP_hits, hr, hit]
      exact hnone _ _ _ (by simp [hz]) (every_append htr (Table.update_eq_self (q.set_key _) hz))

lemma wp_insertItem {Q : Except SqlError Unit → List (DbEv B) → Db B → Prop} (htr : Quiet tr)
    (h0 : q.targetVersion = 0) (hfail : ∀ e tr s, Quiet tr → Q (.error e) tr s)
    (hok : ∀ tr ev s, Quiet tr → Writes q ev → Q (.ok ()) (tr ++ [ev]) s) :
    wp rules (insertItem q).run Q tr s := by
  refine wp_statement htr (fun _ _ _ _ => hfail _ _ _ (every_append htr rfl)) ?_
  intro db e _ _
  cases hi : db.items.insert (q.row 1 (nextSeq db q.userId)) with
  | none => exact hfail _ _ _ (every_append htr rfl)
  | some items =>
    by_cases hu : (db.users.get q.userId).isSome = true
    · simp only [hu, if_true]
      refine hok _ _ _ htr ⟨?_, fun k => ?_⟩
      · have : db.items.get q.key = none := (Table.insert_eq_some hi).1
        simp [version, this, h0]
      · rw [Table.get_insert hi, h0]
        by_cases hk : k = q.key
        · subst hk
          simp [Upsert.row, ItemRow.key, Upsert.key]
        · rw [if_neg hk, if_neg]
          exact fun h => hk h.symm
    · simp only [hu]
      exact hfail _ _ _ (every_append htr rfl)

lemma post_of_quiet {r : Except SqlError UpsertOutcome} (hr : isApplied r = false)
    (h : Quiet tr) : Post q r tr s := by
  simpa [Post, hr] using h

lemma post_of_writes {r : Except SqlError UpsertOutcome} {ev : DbEv B} (hr : isApplied r = true)
    (h : Quiet tr) (hw : Writes q ev) : Post q r (tr ++ [ev]) s := by
  simp only [Post, hr, if_true]
  exact ⟨tr, ev, rfl, h, hw⟩

/-- One call, whatever the others do. -/
lemma wp_upsertItemOcc (isUuid : IsUuid) (htr : Quiet tr) :
    wp rules (code isUuid q) (Post q) tr s := by
  unfold code upsertItemOcc
  split
  · exact post_of_quiet rfl htr
  rw [wp_bind_except]
  refine wp_select htr fun r tr s htr => ?_
  rcases r with _ | gen
  · exact post_of_quiet rfl htr
  dsimp only
  split
  · exact post_of_quiet rfl htr
  rw [wp_bind_except]
  refine wp_select htr fun r tr s htr => ?_
  rcases r with _ | prior
  · exact post_of_quiet rfl htr
  dsimp only
  rw [wp_bind_except]
  refine wp_updateItem htr (fun r tr s hr htr => ?_) (fun tr ev s htr hw => ?_)
  · rcases r with _ | n
    · exact post_of_quiet rfl htr
    have hn : n ≠ 1 := fun h => hr (by rw [h])
    simp only [hn, if_false]
    split
    · next h0 =>
      rw [wp_bind_except, wp_attempt]
      refine wp_insertItem htr h0 (fun e tr s htr => ?_) (fun tr ev s htr hw => ?_)
      · cases e <;> exact post_of_quiet rfl htr
      · exact post_of_writes rfl htr hw
    · exact post_of_quiet rfl htr
  · simp only [if_true, wp_pure_except]
    refine post_of_writes ?_ htr hw
    split <;> rfl

/-! ### The serial order -/

/-- The applied calls one after the other: each found the rows the one before it left. -/
inductive Serial (db : Db B) : List (UpsertCall B) → Db B → Prop
  | nil {s : Db B} (hs : s.items = db.items) : Serial db [] s
  | quiet {order : List (UpsertCall B)} {s s' : Db B} (h : Serial db order s)
      (hs : s'.items = s.items) : Serial db order s'
  | snoc {order : List (UpsertCall B)} {c : UpsertCall B} {tr : List (DbEv B)} {ev : DbEv B}
      (h : Serial db order ev.pre) (htr : c.trace = tr ++ [ev]) (hw : Writes c.req ev) :
      Serial db (order ++ [c]) ev.post

variable {isUuid : IsUuid} {db : Db B} {σ : OccSys B}

lemma version_writes {ev : DbEv B} (h : Writes q ev) (k : Ident × Ident) :
    version ev.post k = if q.key = k then version ev.pre k + 1 else version ev.pre k := by
  obtain ⟨hv, hrow⟩ := h
  by_cases hk : q.key = k
  · subst hk
    rw [if_pos rfl, hv, version, hrow, if_pos rfl]
    rfl
  · rw [if_neg hk, version, hrow, if_neg (Ne.symm hk)]
    rfl

lemma Serial.version_eq {order : List (UpsertCall B)} (h : Serial db order s)
    (k : Ident × Ident) :
    version s k = version db k + (order.filter fun c => c.req.key = k).length := by
  induction h with
  | nil hs => simp [version, hs]
  | quiet _ hs ih => rw [← ih, version, version, hs]
  | snoc _ _ hw ih =>
    rw [version_writes hw, ih, List.filter_append]
    split
    · next hk => simp [hk, Int.add_assoc]
    · next hk => simp [hk]

/-- The stored version is beyond every target that was applied. -/
lemma Serial.target_lt {order : List (UpsertCall B)} (h : Serial db order s)
    {c : UpsertCall B} (hc : c ∈ order) : c.req.targetVersion < version s c.req.key := by
  induction h with
  | nil hs => simp at hc
  | quiet _ hs ih =>
    have := ih hc
    rwa [version, hs]
  | snoc _ _ hw ih =>
    rw [version_writes hw]
    rcases List.mem_append.mp hc with hc | hc
    · have := ih hc
      split <;> omega
    · rw [List.mem_singleton.mp hc, if_pos rfl, hw.1]
      omega

/-- No target is applied twice. -/
lemma Serial.nodup {order : List (UpsertCall B)} (h : Serial db order s) (k : Ident × Ident) :
    ((order.filter fun c => c.req.key = k).map fun c => c.req.targetVersion).Nodup := by
  induction h with
  | nil hs => simp
  | quiet _ hs ih => exact ih
  | @snoc order c tr ev hs _ hw ih =>
    rw [List.filter_append, List.map_append]
    refine List.nodup_append.mpr ⟨ih, ?_, ?_⟩
    · by_cases hk : c.req.key = k <;> simp [hk]
    · intro v hv v' hv' heq
      by_cases hk : c.req.key = k
      · simp only [hk, decide_true, List.filter_cons_of_pos, List.filter_nil, List.map_cons,
          List.map_nil, List.mem_singleton] at hv'
        obtain ⟨d, hd, rfl⟩ := List.mem_map.mp hv
        simp only [List.mem_filter, decide_eq_true_eq] at hd
        have hlt := hs.target_lt hd.1
        rw [hd.2, ← hk, hw.1, heq, hv'] at hlt
        exact lt_irrefl _ hlt
      · simp [hk] at hv'

/-- Where the row of an item comes from: it is the row of the start, or the row of the
applied call with the highest target. -/
def From (db : Db B) (order : List (UpsertCall B)) (s : Db B) (k : Ident × Ident) : Prop :=
  ((∀ c ∈ order, c.req.key ≠ k) ∧ s.items.get k = db.items.get k) ∨
  ∃ c ∈ order, c.req.key = k ∧ c.req.targetVersion + 1 = version s k ∧
    ∃ n, s.items.get k = some (c.req.row (version s k) n)

lemma Serial.origin {order : List (UpsertCall B)} (h : Serial db order s) (k : Ident × Ident) :
    From db order s k := by
  induction h with
  | nil hs => exact .inl ⟨by simp, by rw [hs]⟩
  | quiet _ hs ih => simpa only [From, version, hs] using ih
  | @snoc order c tr ev hs _ hw ih =>
    have hv := version_writes hw k
    by_cases hk : c.req.key = k
    · subst hk
      rw [if_pos rfl, hw.1] at hv
      refine .inr ⟨c, by simp, rfl, hv.symm, nextSeq ev.pre c.req.userId, ?_⟩
      rw [hw.2, if_pos rfl, hv]
    · rw [if_neg hk] at hv
      have hrow : ev.post.items.get k = ev.pre.items.get k := by
        rw [hw.2, if_neg (Ne.symm hk)]
      rcases ih with ⟨hno, hr⟩ | ⟨d, hd, hdk, hdv, n, hr⟩
      · refine .inl ⟨fun d hd => ?_, hrow.trans hr⟩
        rcases List.mem_append.mp hd with hd | hd
        · exact hno d hd
        · rw [List.mem_singleton.mp hd]
          exact hk
      · exact .inr ⟨d, List.mem_append_left _ hd, hdk, hdv.trans hv.symm, n, by rw [hrow, hv, hr]⟩

/-- What an applied call replaced was left there by the calls before it. -/
lemma Serial.found {order : List (UpsertCall B)} (h : Serial db order s) {c : UpsertCall B}
    (hc : c ∈ order) : ∃ tr ev order', c.trace = tr ++ [ev] ∧ Writes c.req ev ∧
      (∀ d ∈ order', d ∈ order) ∧ Serial db order' ev.pre := by
  induction h with
  | nil hs => simp at hc
  | quiet _ hs ih => exact ih hc
  | @snoc order d tr ev hs htr hw ih =>
    rcases List.mem_append.mp hc with hc | hc
    · obtain ⟨tr', ev', order', htr', hw', hsub, hs'⟩ := ih hc
      exact ⟨tr', ev', order', htr', hw', fun d hd => List.mem_append_left _ (hsub d hd), hs'⟩
    · rw [List.mem_singleton.mp hc]
      exact ⟨tr, ev, order, htr, hw, fun d hd => List.mem_append_left _ hd, hs⟩

/-! ### All calls together -/

/-- The invariant of a run: every call is where its code has it, and the applied calls
have a serial order that explains the items. -/
def Inv (db : Db B) (σ : OccSys B) : Prop :=
  Held (fun _ => rules) Post σ ∧
    ∃ order, order.Perm (σ.calls.filter applied) ∧ Serial db order σ.shared

lemma applied_stmt {q : Upsert B} {tr : List (DbEv B)} {l : Stmt} {f : Env → Db B → Db B}
    {k : Env → Db B → Prog (Db B) Env Stmt (Except SqlError UpsertOutcome)} :
    applied ⟨q, tr, .stmt l f k⟩ = false := rfl

/-- Where a call is in its code tells what its statements did. -/
lemma trace_cases {c : UpsertCall B} (h : wp rules c.prog (Post c.req) c.trace s) :
    (applied c = false ∧ Quiet c.trace) ∨
    (applied c = true ∧ ∃ tr ev, c.trace = tr ++ [ev] ∧ Quiet tr ∧ Writes c.req ev) := by
  obtain ⟨q, tr, p⟩ := c
  cases p with
  | ret r =>
    have hp : Post q r tr s := h
    cases hr : isApplied r with
    | true => exact .inr ⟨by simp [applied, hr], by simpa [Post, hr] using hp⟩
    | false => exact .inl ⟨by simp [applied, hr], by simpa [Post, hr] using hp⟩
  | stmt l f k => exact .inl ⟨rfl, h.1⟩

lemma inv_step (hσ : Inv db σ) (a : Act (Upsert B) Env) : Inv db (step (code isUuid) σ a) := by
  obtain ⟨hheld, order, hperm, hser⟩ := hσ
  rcases step_cases (h := code isUuid) σ a with ⟨q, rfl, hst⟩ |
    ⟨i, e, q, tr, l, f, k, rfl, hc, hst⟩ | hst
  · refine ⟨held_call hheld (wp_upsertItemOcc isUuid every_nil), order, ?_, ?_⟩
    · have hnew : applied ⟨q, [], code isUuid q⟩ = false := by
        rcases trace_cases (c := ⟨q, [], code isUuid q⟩)
          (wp_upsertItemOcc isUuid every_nil (s := σ.shared)) with h | ⟨_, tr, ev, h, _⟩
        · exact h.1
        · simp at h
      rw [hst, List.filter_append]
      simpa [hnew] using hperm
    · rw [hst]
      exact hser
  · have hheld' := held_exec (e := e) hheld hc trivial trivial (fun _ _ _ _ _ _ _ => trivial)
      (fun _ _ _ _ _ _ => trivial) (fun _ _ _ _ _ _ h => h)
    rw [hst]
    refine ⟨hheld', ?_⟩
    have hlt : i < σ.calls.length := (List.getElem?_eq_some_iff.mp hc).1
    rcases trace_cases (hheld' i _ (List.getElem?_set_self hlt)) with
      ⟨hna, hq⟩ | ⟨ha, tr', ev, htr, -, hw⟩
    · have hev : (f e σ.shared).items = σ.shared.items :=
        hq _ (List.mem_append_right tr (List.mem_singleton_self _))
      refine ⟨order, ?_, .quiet hser hev⟩
      rwa [filter_set_of_false hc applied_stmt hna]
    · obtain ⟨-, hev⟩ := List.append_inj' htr rfl
      obtain rfl := List.singleton_inj.mp hev
      refine ⟨order ++ [_], ?_, .snoc hser htr hw⟩
      exact (hperm.append_right _).trans (filter_set_perm hc applied_stmt ha).symm
  · rw [hst]
    exact ⟨hheld, order, hperm, hser⟩

lemma inv_run (db : Db B) (as : List (Act (Upsert B) Env)) :
    Inv db (run (code isUuid) (init db) as) :=
  run_induction' (P := Inv db) (fun _ a hσ => inv_step hσ a)
    ⟨held_init db, [], by simp [init], .nil rfl⟩ as

/-- The applied calls on one item. -/
def appliedOn (σ : OccSys B) (k : Ident × Ident) : List (UpsertCall B) :=
  (σ.calls.filter applied).filter fun c => c.req.key = k

/-- The write of the call found no row. -/
def creates (c : UpsertCall B) : Bool :=
  c.trace.getLast?.any fun ev => (ev.pre.items.get c.req.key).isNone

variable {order : List (UpsertCall B)} {k : Ident × Ident}

lemma mem_appliedOn {c : UpsertCall B} :
    c ∈ appliedOn σ k ↔ c ∈ σ.calls ∧ applied c = true ∧ c.req.key = k := by
  simp only [appliedOn, List.mem_filter, decide_eq_true_eq, and_assoc]

lemma perm_appliedOn (hperm : order.Perm (σ.calls.filter applied)) :
    (order.filter fun c => c.req.key = k).Perm (appliedOn σ k) := hperm.filter _

lemma mem_appliedOn_of_perm (hperm : order.Perm (σ.calls.filter applied)) {c : UpsertCall B}
    (hc : c ∈ order) (hk : c.req.key = k) : c ∈ appliedOn σ k := by
  refine (perm_appliedOn hperm).mem_iff.mp ?_
  simp [hc, hk]

lemma target_of_creates {c : UpsertCall B} {tr : List (DbEv B)} {ev : DbEv B}
    (htr : c.trace = tr ++ [ev]) (hw : Writes c.req ev) (h : creates c = true) :
    c.req.targetVersion = 0 := by
  have hnone : ev.pre.items.get c.req.key = none := by simpa [creates, htr] using h
  rw [← hw.1, version, hnone]
  rfl

/-- **Optimistic concurrency control**: after any interleaving of any number of calls, on
any database, the version of an item has risen by the number of calls on it that reported
success, no two of them had the same target, at most one of them created the row, every
call that did not report success changed nothing, the row is the one of the successful
call with the highest target, and every successful call replaced the row it had seen: the
one written by the call with the target before its own. -/
theorem upsertItemOcc_serializable (isUuid : IsUuid) (db : Db B)
    (as : List (Act (Upsert B) Env)) (k : Ident × Ident) :
    let σ := run (code isUuid) (init db) as
    version σ.shared k = version db k + (appliedOn σ k).length ∧
    ((appliedOn σ k).map fun c => c.req.targetVersion).Nodup ∧
    ((appliedOn σ k).filter creates).length ≤ 1 ∧
    (∀ c ∈ σ.calls, applied c = false → Quiet c.trace) ∧
    ((appliedOn σ k = [] ∧ σ.shared.items.get k = db.items.get k) ∨
      ∃ c ∈ appliedOn σ k, c.req.targetVersion + 1 = version σ.shared k ∧
        (∀ d ∈ appliedOn σ k, d.req.targetVersion ≤ c.req.targetVersion) ∧
        ∃ n, σ.shared.items.get k = some (c.req.row (version σ.shared k) n)) ∧
    ∀ c ∈ appliedOn σ k, ∃ tr ev, c.trace = tr ++ [ev] ∧ Quiet tr ∧ Writes c.req ev ∧
      (ev.pre.items.get k = db.items.get k ∨
        ∃ d ∈ appliedOn σ k, d.req.targetVersion + 1 = c.req.targetVersion ∧
          ∃ n, ev.pre.items.get k = some (d.req.row c.req.targetVersion n)) := by
  intro σ
  obtain ⟨hheld, order, hperm, hser⟩ : Inv db σ := inv_run db as
  have hon := perm_appliedOn (k := k) hperm
  have htrace : ∀ c ∈ σ.calls, (applied c = false ∧ Quiet c.trace) ∨
      (applied c = true ∧ ∃ tr ev, c.trace = tr ++ [ev] ∧ Quiet tr ∧ Writes c.req ev) := by
    intro c hc
    obtain ⟨i, hi⟩ := List.mem_iff_getElem?.mp hc
    exact trace_cases (hheld i c hi)
  have hnodup : ((appliedOn σ k).map fun c => c.req.targetVersion).Nodup :=
    (hon.map _).nodup_iff.mp (hser.nodup k)
  refine ⟨?_, hnodup, ?_, ?_, ?_, ?_⟩
  · -- each applied call raises the version by one
    rw [hser.version_eq k, hon.length_eq]
  · -- a call that found no row had target 0
    have hzero : ∀ v ∈ ((appliedOn σ k).filter creates).map fun c => c.req.targetVersion,
        v = 0 := by
      intro v hv
      obtain ⟨c, hc, rfl⟩ := List.mem_map.mp hv
      obtain ⟨hcσ, hcr⟩ := List.mem_filter.mp hc
      obtain ⟨hmem, happ, -⟩ := mem_appliedOn.mp hcσ
      rcases htrace c hmem with ⟨h, -⟩ | ⟨-, tr, ev, htr, -, hw⟩
      · rw [h] at happ
        cases happ
      · exact target_of_creates htr hw hcr
    have := hnodup.sublist (List.Sublist.map _ (List.filter_sublist (p := creates)))
    rw [List.eq_replicate_of_mem hzero, List.nodup_replicate] at this
    simpa using this
  · -- a call that is not applied has written nothing
    intro c hc hna
    rcases htrace c hc with ⟨-, hq⟩ | ⟨ha, -⟩
    · exact hq
    · rw [ha] at hna
      cases hna
  · -- the row is that of the last applied call, or the one that was there
    rcases hser.origin k with ⟨hno, hrow⟩ | ⟨c, hc, rfl, hv, hrow⟩
    · refine .inl ⟨List.eq_nil_iff_forall_not_mem.mpr fun c hc => ?_, hrow⟩
      have := hon.mem_iff.mpr hc
      simp only [List.mem_filter, decide_eq_true_eq] at this
      exact hno c this.1 this.2
    · refine .inr ⟨c, mem_appliedOn_of_perm hperm hc rfl, hv, fun d hd => ?_, hrow⟩
      have hd' := hon.mem_iff.mpr hd
      simp only [List.mem_filter, decide_eq_true_eq] at hd'
      have := hser.target_lt hd'.1
      rw [hd'.2] at this
      omega
  · -- and each of them has found the row of the one before it
    intro c hc
    obtain ⟨hmem, happ, hk⟩ := mem_appliedOn.mp hc
    subst hk
    have hord : c ∈ order := hperm.mem_iff.mpr (List.mem_filter.mpr ⟨hmem, happ⟩)
    obtain ⟨tr, ev, order', htr, hw, hsub, hser'⟩ := hser.found hord
    have hq : Quiet tr := by
      rcases htrace c hmem with ⟨h, -⟩ | ⟨-, tr', ev', htr', hq', -⟩
      · rw [h] at happ
        cases happ
      · obtain ⟨rfl, -⟩ := List.append_inj' (htr.symm.trans htr') rfl
        exact hq'
    refine ⟨tr, ev, htr, hq, hw, ?_⟩
    rcases hser'.origin c.req.key with ⟨-, hrow⟩ | ⟨d, hd, hdk, hv, hrow⟩
    · exact .inl hrow
    · rw [hw.1] at hv hrow
      exact .inr ⟨d, mem_appliedOn_of_perm hperm (hsub d hd) hdk, hv, hrow⟩

-- two creates of one item, both past the probe before either writes
example :
    let user : UserRow Bool := ⟨7, "u", true, true, true, true, 1, 0, 0⟩
    let db : Db Bool := ⟨⟨[user], by decide⟩, .empty⟩
    let q : Upsert Bool := ⟨1, 7, 0, 1, some true, none, 0⟩
    let go (i : ℕ) : Act (Upsert Bool) Env := .exec i ⟨0, 0, false⟩
    ((run (code fun _ => true) (init db) ([.call q, .call q] ++
      [go 0, go 1, go 0, go 1, go 0, go 1, go 1, go 0])).calls.map (·.prog.result)) =
        [some (.ok .conflict), some (.ok .updated)] := by decide

end Vautr.Occ
