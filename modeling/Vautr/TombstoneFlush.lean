import Vautr.ClientRuns
import Vautr.RotationAgreement

/-!
The tombstones of a client on their way to the server.

`push_local_changes` sends the recorded tombstones first, as one request, and clears them if the
server reports each of them as applied. So one that is refused keeps all the others, more than the
server takes in a request are never sent, and what is cleared is whatever is recorded for these
items by then.
-/

namespace Vautr.TombstoneFlush

open Vautr.Atomic Vautr.Interleave Vautr.Sql Vautr.Database Vautr.Api Vautr.Server Vautr.Handlers
  Vautr.ClientDb Vautr.Crypto Vautr.Client Vautr.Zoom Vautr.Executions Vautr.Orchestrator
  Vautr.PushRuns Vautr.ClientRuns

/-! ### What a call has done -/

/-- What a call has run before it lists the local items. -/
def flush (d : ℕ) (tr : List ClientEv) : List ClientEv :=
  tr.takeWhile (·.name ≠ (d, .listLocalItems))

def pending (d : ℕ) (w : World) : List PendingDelete := (w.devices d).db.pendingDeletes.rows

/-- The tombstones, as the call listed them. -/
def listed (d : ℕ) (fl : List ClientEv) : Option (List PendingDelete) :=
  (fl.find? (·.name = (d, .listPendingDeletes))).map fun ev => pending d ev.pre

/-- The account that the call found the device connected to. -/
def connected (d : ℕ) (fl : List ClientEv) : Option Ident :=
  fl[1]?.bind fun ev => (ev.pre.devices d).mem.transport

/-- The tombstone as it is sent. -/
def toPushed (p : PendingDelete) : Pushed := ⟨p.uuid, asU64 p.version, asU64 p.encKeyGen, none⟩

/-- The request with the tombstones was answered with an outcome for each of them. -/
def Answered (X : Ext Blob) (d : ℕ) (fl : List ClientEv) (ps : List PendingDelete) : Prop :=
  ∃ user ∈ connected d fl, ∃ t outcomes, t <+: fl.dropWhile (·.name ≠ (d, .clock)) ∧
    Runs (enginePushBatch X d user (ps.map toPushed)).run t (.ok outcomes)

/-- The server applied the tombstone. -/
def Applied (fl : List ClientEv) (p : PendingDelete) : Prop :=
  ∃ ev ∈ fl, ∃ user,
    ev.post.server.items.get (p.uuid, user) ≠ ev.pre.server.items.get (p.uuid, user)

/-- The server found the item deleted. -/
def FoundDeleted (fl : List ClientEv) (p : PendingDelete) : Prop :=
  ∃ ev ∈ fl, ∃ row ∈ readRow ev, row.uuid = p.uuid ∧ row.deletedDate.isSome

/-- The server is done with the tombstone. -/
def Settled (fl : List ClientEv) (p : PendingDelete) : Prop := Applied fl p ∨ FoundDeleted fl p

/-! ### What a call promises -/

/-- What the flush of the tombstones `ps` promises: they are delivered, those that the server is
done with are no longer pending at its end, and no others are cleared. -/
structure Flushes (X : Ext Blob) (d : ℕ) (fl : List ClientEv) (ps : List PendingDelete) : Prop where
  delivered : ps ≠ [] → Answered X d fl ps
  settled : ∀ p ∈ ps, Settled fl p → ∀ last ∈ fl.getLast?, p ∉ pending d last.post
  others : ∀ ev ∈ fl, ∀ p ∈ pending d ev.pre, p ∉ pending d ev.post → p ∈ ps ∧ Settled fl p

/-- Nothing else is recorded for the items of the tombstones when they are cleared. -/
def NoneNew (d : ℕ) (fl : List ClientEv) (ps : List PendingDelete) : Prop :=
  ∀ ev ∈ fl, ev.name = (d, .clearPendingDeletes) → ∀ p ∈ pending d ev.pre,
    p.uuid ∈ ps.map (·.uuid) → p ∈ ps

/-- The server finds the item in the version that the tombstone is for. -/
def Meets (fl : List ClientEv) (p : PendingDelete) : Prop :=
  Lands p.uuid (asI64 (toPushed p).targetVersion) (served fl)

/-- The server cannot answer for the tombstone: its user is not there, or another has removed the
row that it has just written. -/
def Unanswerable (fl : List ClientEv) (p : PendingDelete) : Prop :=
  Stuck p.uuid (asI64 (toPushed p).targetVersion) (served fl)

/-- The tombstone is gone before the last statement of the flush. -/
def Elsewhere (d : ℕ) (fl : List ClientEv) (p : PendingDelete) : Prop :=
  ∀ last ∈ fl.getLast?, p ∉ pending d last.pre

/-- There are no more tombstones than go into a request, and the server can answer for each of them.
It finds all of them in their versions, and nothing else is recorded for their items when they are
cleared; or it does not, and those that it finds in their versions or deleted are cleared by another
flush of the device. -/
def Smooth (d : ℕ) (fl : List ClientEv) (ps : List PendingDelete) : Prop :=
  ps = [] ∨ (ps.length ≤ 100 ∧ ∀ p ∈ ps, ¬Unanswerable fl p) ∧
    ((∀ p ∈ ps, Meets fl p) ∧ NoneNew d fl ps ∨ (¬∀ p ∈ ps, Meets fl p) ∧
      ∀ p ∈ ps, Meets fl p ∨ FoundDeleted fl p → Elsewhere d fl p)

/-- The call has pushed the local changes of the device, nothing failed until it listed the local
items, and these were the tombstones; their ids are uuids, as the client sends no others. -/
structure Attempted (X : Ext Blob) (c : Call) (d : ℕ) (ps : List PendingDelete) : Prop where
  req : c.req = .client d .pushLocalChanges
  done : c.prog.result.isSome
  works : ∀ ev ∈ flush d c.trace, ev.inp.fault = false
  listed : listed d (flush d c.trace) = some ps
  uuids : ∀ p ∈ ps, X.isUuid p.uuid = true

/-- The call keeps its promise, if it is such a call. -/
def Delivers (X : Ext Blob) (c : Call) : Prop :=
  ∀ d ps, Attempted X c d ps → Flushes X d (flush d c.trace) ps

/-- The condition, for such a call. -/
def Unhindered (X : Ext Blob) (c : Call) : Prop :=
  ∀ d ps, Attempted X c d ps → Smooth d (flush d c.trace) ps

variable {X : Ext Blob} {d : ℕ} {user : Ident} {tr : List ClientEv}

/-! ### The request -/

def requesting : Label → Bool
  | .clock => true
  | .send => true
  | .server _ => true
  | .receive => true
  | _ => false

def Requests (d : ℕ) (ev : ClientEv) : Prop :=
  ev.name.1 = d ∧ requesting ev.name.2 = true ∧ Quiet d ev

lemma requests_pushBatch (items : List Pushed) :
    Guarantees (fun _ _ _ => True) (Requests d) (pushBatch X d user items).run :=
  guarantees_bind_except (guarantees_onMemory fun _ _ => ⟨rfl, rfl, World.setDevice_self _ _ _⟩)
    fun _ => guarantees_bind_except (guarantees_roundTrip (guarantees_true _)
      (fun _ _ => ⟨rfl, rfl, rfl⟩) (fun _ _ _ _ _ => ⟨rfl, rfl, rfl⟩) fun _ _ _ => ⟨rfl, rfl, rfl⟩)
      fun _ => guarantees_pure_except _

lemma requests_enginePushBatch (items : List Pushed) :
    Guarantees (fun _ _ _ => True) (Requests d) (enginePushBatch X d user items).run := by
  refine guarantees_bind_except (requests_pushBatch items) fun outcomes => ?_
  split
  · exact guarantees_throw_except _
  · exact guarantees_pure_except _

lemma clock_of_runs {items : List Pushed} {r : Except TransportError (List (Ident × PushOutcome))}
    (h : Runs (enginePushBatch X d user items).run tr r) :
    ∃ ev rest, tr = ev :: rest ∧ ev.name = (d, .clock) := by
  have hpush : ∀ {tr r}, Runs (pushBatch X d user items).run tr r →
      ∃ ev rest, tr = ev :: rest ∧ ev.name = (d, .clock) := by
    intro tr r h
    rcases runs_bind_except.mp h with ⟨now, tr₁, tr₂, rfl, h₁, -⟩ | ⟨e, h₁, -⟩
    · obtain ⟨e, w, rfl, -⟩ := runs_atom.mp h₁
      exact ⟨_, tr₂, rfl, rfl⟩
    · obtain ⟨e, w, rfl, -⟩ := runs_atom.mp h₁
      exact ⟨_, [], rfl, rfl⟩
  rcases runs_bind_except.mp h with ⟨outs, tr₁, tr₂, rfl, h₁, -⟩ | ⟨e, h₁, -⟩
  · obtain ⟨ev, rest, rfl, hev⟩ := hpush h₁
    exact ⟨ev, rest ++ tr₂, rfl, hev⟩
  · exact hpush h₁

/-- What a request changes at the server, its statements there change. -/
lemma changed_iff {c s f : ClientEv} {t : List ClientEv} {ev : DbEv Blob} {t' : List (DbEv Blob)}
    (hshow : List.Forall₂ (Shows (onServer d)) (ev :: t') t) (hev : ev.post = ev.pre)
    (hc : c.post = c.pre) (hs : s.post = s.pre) (hf : f.post = f.pre) (k : Ident × Ident) :
    (∃ ev ∈ c :: s :: t ++ [f], ev.post.server.items.get k ≠ ev.pre.server.items.get k) ↔
      ∃ ev ∈ t', Changes k ev := by
  obtain ⟨hshown, hof⟩ := exists_shows hshow
  constructor
  · rintro ⟨ev', hev', hne⟩
    simp only [List.cons_append, List.mem_cons, List.mem_append, List.not_mem_nil,
      or_false] at hev'
    rcases hev' with rfl | rfl | hev' | rfl
    · exact absurd (by rw [hc]) hne
    · exact absurd (by rw [hs]) hne
    · obtain ⟨ev₀, hev₀, hshow'⟩ := hof ev' hev'
      have hchange : Changes k ev₀ := fun heq => hne
        ((congrArg (·.items.get k) hshow'.get_post).trans
          (heq.trans (congrArg (·.items.get k) hshow'.pre)))
      rcases List.mem_cons.mp hev₀ with rfl | hev₀
      · exact absurd (by rw [hev]) hchange
      · exact ⟨ev₀, hev₀, hchange⟩
    · exact absurd (by rw [hf]) hne
  · rintro ⟨ev₀, hev₀, hchange⟩
    obtain ⟨ev', hev', hshow'⟩ := hshown ev₀ (List.mem_cons_of_mem _ hev₀)
    exact ⟨ev', by simp [hev'], fun heq => hchange
      ((congrArg (·.items.get k) hshow'.get_post).symm.trans
        (heq.trans (congrArg (·.items.get k) hshow'.pre).symm))⟩

/-- All tombstones are applied exactly if their outcomes say so. -/
lemma applied_iff {ps : List PendingDelete} (hnodup : (ps.map (·.uuid)).Nodup)
    {outcomes : List (Ident × PushOutcome)}
    (h : Runs (enginePushBatch X d user (ps.map toPushed)).run tr (.ok outcomes)) :
    ps.length ≤ 100 ∧ ((∀ p ∈ ps, Applied tr p) ↔ ∀ o ∈ outcomes, o.2 = .applied) := by
  unfold enginePushBatch at h
  rcases runs_bind_except.mp h with ⟨outs, tr₁, tr₂, rfl, h₁, h₂⟩ | ⟨e, -, hr⟩
  rotate_left
  · cases hr
  split at h₂
  · cases h₂.2
  next hlen =>
  obtain ⟨rfl, hr⟩ := h₂
  cases hr
  obtain ⟨c, s, t, f, now, now', ev, t', rs, rfl, hc, hs, -, hf, hshow, hev, hall, rfl, hle⟩ :=
    runs_pushBatch_ok h₁
  have happlied : ∀ p, Applied (c :: s :: t ++ [f] ++ []) p ↔
      ∃ ev ∈ t', Changes (p.uuid, user) ev := by
    intro p
    rw [List.append_nil]
    constructor
    · rintro ⟨ev', hev', u, hne⟩
      obtain ⟨ev₀, hev₀, hchange⟩ := (changed_iff hshow hev hc hs hf _).mp ⟨ev', hev', hne⟩
      -- the request writes rows of its user only
      obtain ⟨item, -, hkey⟩ := hall.changes ⟨ev₀, hev₀, hchange⟩
      obtain rfl := congrArg Prod.snd hkey
      exact ⟨ev₀, hev₀, hchange⟩
    · intro hchange
      obtain ⟨ev', hev', hne⟩ := (changed_iff hshow hev hc hs hf _).mpr hchange
      exact ⟨ev', hev', user, hne⟩
  have hall' := hall.all_changed_iff
    (by simpa [toPushed, Pushed.toItem, Function.comp_def] using hnodup)
  have houtcome : ∀ res : PushResult, res.status = .success ↔
      Client.PushResult.outcome res = .applied := by
    intro res
    cases hst : res.status <;> simp [Client.PushResult.outcome, hst]
  -- there are as many outcomes as items
  have hzip : ∀ {us : List Ident} {os : List PushOutcome}, os.length ≤ us.length →
      ((∀ o ∈ us.zip os, o.2 = .applied) ↔ ∀ o ∈ os, o = .applied) := by
    intro us os h
    conv_rhs => rw [← List.map_snd_zip h, List.forall_mem_map]
  refine ⟨by simpa using hle, ?_⟩
  rw [hzip (by simp at hlen; simp [hlen]), List.forall_mem_map]
  simp only [← houtcome, ← hall', List.map_map, List.forall_mem_map, happlied]
  rfl

lemma runs_request {items : List Pushed}
    {r : Except TransportError (List (Ident × PushOutcome))} (hle : items.length ≤ 100)
    (h : Runs (enginePushBatch X d user items).run tr r) (hok : ∀ ev ∈ tr, ev.inp.fault = false) :
    ∃ now now' ev t r', itemOf ev.name = none ∧ served tr = seen (ev :: t) ∧ Faultless t ∧
      Runs (pushItems X user now' (items.map (Pushed.toItem now))).run t r' ∧
      ((∃ outcomes, r = .ok outcomes) ↔ ∃ rs, r' = .ok rs) ∧
      ∀ k, (∃ ev ∈ tr, ev.post.server.items.get k ≠ ev.pre.server.items.get k) ↔
        ∃ ev ∈ t, Changes k ev := by
  -- the server answers with an outcome for each item
  have hpush : ∃ r₁, Runs (pushBatch X d user items).run tr r₁ ∧ ((∃ outcomes, r = .ok outcomes) ↔
      ∃ outcomes, r₁ = .ok outcomes ∧ outcomes.length = items.length) := by
    rcases runs_bind_except.mp h with ⟨outs, tr₁, tr₂, rfl, h₁, h₂⟩ | ⟨e, h₁, rfl⟩
    · split at h₂
      · next hlen =>
        obtain ⟨rfl, rfl⟩ := h₂
        exact ⟨_, by rwa [List.append_nil], iff_of_false (by simp) (by simpa using hlen)⟩
      · next hlen =>
        obtain ⟨rfl, rfl⟩ := h₂
        exact ⟨_, by rwa [List.append_nil], iff_of_true ⟨_, rfl⟩ ⟨_, rfl, not_not.mp hlen⟩⟩
    · exact ⟨_, h₁, by simp⟩
  obtain ⟨r₁, hpush, hr⟩ := hpush
  obtain ⟨c, s, t₁, f, now, now', ev, t, r', rfl, ⟨hc, hc'⟩, ⟨hs, hs'⟩, ⟨hf, hf'⟩, hshow, hev,
    hitem, hrun, hr₁⟩ := runs_pushBatch_of_faultless hle hpush hok
  obtain ⟨hshown, -⟩ := exists_shows hshow
  refine ⟨now, now', ev, t, r', hitem, ?_, fun ev₀ hev₀ => ?_, hrun, hr.trans ?_,
    changed_iff hshow hev hc' hs' hf'⟩
  · rw [← served_of_shows hshow, List.cons_append, ← List.singleton_append, ← List.singleton_append,
      served_append, served_append, served_append]
    simp [served, hc, hs, hf]
  · obtain ⟨ev', hev', hshow'⟩ := hshown ev₀ (List.mem_cons_of_mem _ hev₀)
    rw [hshow'.inp]
    exact hok ev' (by simp [hev'])
  · -- the server fails in one item, or there is an outcome for each
    cases r' with
    | error e =>
      refine iff_of_false ?_ (by simp)
      rintro ⟨outs, rfl, -⟩
      cases hr₁
    | ok rs =>
      cases r₁ with
      | error e => cases hr₁
      | ok outs =>
        obtain rfl := Option.some.inj hr₁
        refine iff_of_true ⟨_, rfl, ?_⟩ ⟨_, rfl⟩
        rw [List.length_map, (runs_pushItems hrun).length_eq, List.length_map]

/-- **A request with tombstones**, with which nothing fails: it is answered exactly if the server
can answer for each of them, and a tombstone is applied exactly if it meets its version. -/
lemma request_iff {ps : List PendingDelete} (hle : ps.length ≤ 100)
    (hnodup : (ps.map (·.uuid)).Nodup) (hids : ∀ p ∈ ps, X.isUuid p.uuid = true)
    {r : Except TransportError (List (Ident × PushOutcome))}
    (h : Runs (enginePushBatch X d user (ps.map toPushed)).run tr r)
    (hok : ∀ ev ∈ tr, ev.inp.fault = false) :
    ((∃ outcomes, r = .ok outcomes) ↔ ∀ p ∈ ps, ¬Unanswerable tr p) ∧
      ∀ p ∈ ps, (Applied tr p ↔ Meets tr p) := by
  obtain ⟨now, now', ev, t, r', hitem, hserved, hok', hrun, hr, hchanges⟩ :=
    runs_request (by simpa using hle) h hok
  have hnodup' : (((ps.map toPushed).map (Pushed.toItem now)).map (·.uuid)).Nodup := by
    simpa [toPushed, Pushed.toItem, Function.comp_def] using hnodup
  have hgood : ∀ item ∈ (ps.map toPushed).map (Pushed.toItem now),
      X.isUuid item.uuid = true ∧ item.payload ≠ some none := by
    simp only [List.forall_mem_map]
    exact fun p hp => ⟨hids p hp, by simp [toPushed, Pushed.toItem]⟩
  have hclock : ∀ uuid, ∀ s ∈ seen [ev], itemOf s.2 ≠ some uuid := by
    simp [seen, hitem]
  have hcons : seen (ev :: t) = seen [ev] ++ seen t := rfl
  constructor
  · rw [hr, (pushItems_answered_iff hnodup' hgood hrun hok').1, List.forall_mem_map,
      List.forall_mem_map]
    refine forall₂_congr fun p _ => not_congr ?_
    rw [Unanswerable, hserved, hcons, stuck_append_right (hclock _)]
    rfl
  · intro p hp
    have hlands := changes_iff_lands hnodup' hrun hok'
      (List.mem_map_of_mem (List.mem_map_of_mem hp))
    rw [Meets, hserved, hcons, lands_append_right (hclock _)]
    refine Iff.trans ?_ hlands
    constructor
    · rintro ⟨ev, hev, user', hne⟩
      obtain ⟨ev₀, hev₀, hchange⟩ := (hchanges _).mp ⟨ev, hev, hne⟩
      exact ⟨ev₀, hev₀, user', hchange⟩
    · rintro ⟨ev₀, hev₀, user', hchange⟩
      obtain ⟨ev, hev, hne⟩ := (hchanges _).mpr ⟨ev₀, hev₀, hchange⟩
      exact ⟨ev, hev, user', hne⟩

/-! ### The flush -/

def clearing (d : ℕ) (ps : List PendingDelete) (e : ClientEnv) (w : World) : ClientEv :=
  ⟨(d, .clearPendingDeletes), e, w, w.setDevice d { w.devices d with
    db := clearPendingDeletes (ps.map (·.uuid)) (w.devices d).db }⟩

/-- What a flush has run, when nothing fails: it listed the tombstones `ps`, sent them if there are
any, and cleared them if all were applied. -/
inductive Flush (X : Ext Blob) (d : ℕ) (user : Ident) : List PendingDelete → List ClientEv → Prop
  | nothing (e : ClientEnv) (w : World) (h : pending d w = []) :
    Flush X d user [] [⟨(d, .listPendingDeletes), e, w, w⟩]
  | kept {e : ClientEnv} {w : World} {t : List ClientEv}
    {r : Except TransportError (List (Ident × PushOutcome))} (hne : pending d w ≠ [])
    (hrun : Runs (enginePushBatch X d user ((pending d w).map toPushed)).run t r)
    (hr : ∀ outcomes, r = .ok outcomes → ¬∀ o ∈ outcomes, o.2 = .applied) :
    Flush X d user (pending d w) (⟨(d, .listPendingDeletes), e, w, w⟩ :: t)
  | cleared {e e' : ClientEnv} {w w' : World} {t : List ClientEv}
    {outcomes : List (Ident × PushOutcome)} (hne : pending d w ≠ [])
    (hrun : Runs (enginePushBatch X d user ((pending d w).map toPushed)).run t (.ok outcomes))
    (hall : ∀ o ∈ outcomes, o.2 = .applied) :
    Flush X d user (pending d w)
      (⟨(d, .listPendingDeletes), e, w, w⟩ :: (t ++ [clearing d (pending d w) e' w']))

lemma flush_of_runs {r : Except ClientError Unit}
    (hworks : ∀ ev ∈ tr, ev.inp.fault = false)
    (h : Runs (flushPendingDeletes X d user).run tr r) :
    r = .ok () ∧ ∃ ps, Flush X d user ps tr := by
  unfold flushPendingDeletes at h
  rcases runs_bind_except.mp h with ⟨listing, tr₁, tr₂, rfl, h₁, h₂⟩ | ⟨e, h₁, -⟩
  rotate_left
  · obtain ⟨_, hr, -⟩ := runs_inspect.mp h₁
    cases hr
  obtain ⟨_, hr, hlist⟩ := runs_inspect.mp h₁
  cases hr
  obtain ⟨e, w, rfl, rfl⟩ := runs_readDb hlist
  have he : e.fault = false := hworks ⟨(d, .listPendingDeletes), e, w, w⟩ (by simp)
  simp only [he, Bool.false_eq_true, if_false] at h₂
  split at h₂
  · -- there are no tombstones
    next hempty =>
    obtain ⟨rfl, rfl⟩ := h₂
    exact ⟨rfl, _, .nothing e w (List.isEmpty_iff.mp hempty)⟩
  next hne =>
  have hne : pending d w ≠ [] := fun h => hne (List.isEmpty_iff.mpr h)
  rcases runs_bind_except.mp h₂ with ⟨res, t, tr₃, rfl, h₃, h₄⟩ | ⟨e, h₃, -⟩
  rotate_left
  · obtain ⟨_, hr, -⟩ := runs_inspect.mp h₃
    cases hr
  obtain ⟨_, hr, hpush⟩ := runs_inspect.mp h₃
  cases hr
  cases res with
  -- the request fails: they stay
  | error e =>
    obtain ⟨rfl, rfl⟩ := h₄
    rw [List.append_nil]
    exact ⟨rfl, _, .kept hne hpush fun _ h => by cases h⟩
  | ok outcomes =>
    dsimp only at h₄
    split at h₄
    · -- all were applied: they are cleared
      next hall =>
      rcases runs_bind_except.mp h₄ with ⟨res, t', tr₄, rfl, h₅, h₆⟩ | ⟨e, h₅, -⟩
      rotate_left
      · obtain ⟨_, hr, -⟩ := runs_inspect.mp h₅
        cases hr
      obtain ⟨_, -, hclear⟩ := runs_inspect.mp h₅
      obtain ⟨e', w', rfl⟩ := runs_writeDb hclear
      obtain ⟨rfl, rfl⟩ := h₆
      have he' : e'.fault = false := hworks _ (List.mem_append_right _
        (List.mem_append_right _ (List.mem_append_left _ List.mem_cons_self)))
      simp only [he', Bool.false_eq_true, if_false]
      exact ⟨trivial, _, .cleared hne hpush (by simpa using hall)⟩
    · next hall =>
      obtain ⟨rfl, rfl⟩ := h₄
      rw [List.append_nil]
      refine ⟨rfl, _, .kept hne hpush fun outcomes' h => ?_⟩
      cases h
      simpa using hall

/-! ### What the flush comes to -/

/-- What a call runs before its flush. -/
def Looks (d : ℕ) (user : Ident) (look : List ClientEv) : Prop :=
  ∃ e₁ w₁ e₂ w₂, look = [⟨(d, .memory), e₁, w₁, w₁⟩, ⟨(d, .memory), e₂, w₂, w₂⟩] ∧
    (w₂.devices d).mem.transport = some user

variable {look t t' : List ClientEv} {ps : List PendingDelete} {e : ClientEnv} {w : World}

/-- The statements around the request do nothing at the server. -/
lemma applied_request (hlook : Looks d user look) (hafter : ∀ ev ∈ t',
    ev.post.server = ev.pre.server) (p : PendingDelete) :
    Applied (look ++ ⟨(d, .listPendingDeletes), e, w, w⟩ :: (t ++ t')) p ↔ Applied t p := by
  obtain ⟨e₁, w₁, e₂, w₂, rfl, -⟩ := hlook
  constructor
  · rintro ⟨ev, hev, user, hne⟩
    simp only [List.cons_append, List.nil_append, List.mem_cons, List.mem_append] at hev
    rcases hev with rfl | rfl | rfl | hev | hev
    · exact absurd rfl hne
    · exact absurd rfl hne
    · exact absurd rfl hne
    · exact ⟨ev, hev, user, hne⟩
    · exact absurd (by rw [hafter ev hev]) hne
  · rintro ⟨ev, hev, user, hne⟩
    exact ⟨ev, by simp [hev], user, hne⟩

lemma answered_iff {r : Except TransportError (List (Ident × PushOutcome))}
    (hlook : Looks d user look) (hrun : Runs (enginePushBatch X d user (ps.map toPushed)).run t r) :
    Answered X d (look ++ ⟨(d, .listPendingDeletes), e, w, w⟩ :: (t ++ t')) ps ↔
      ∃ outcomes, r = .ok outcomes := by
  obtain ⟨e₁, w₁, e₂, w₂, rfl, huser⟩ := hlook
  obtain ⟨ev, rest, rfl, hev⟩ := clock_of_runs hrun
  have hdrop : ([⟨(d, .memory), e₁, w₁, w₁⟩, ⟨(d, .memory), e₂, w₂, w₂⟩] ++
      ⟨(d, .listPendingDeletes), e, w, w⟩ :: (ev :: rest ++ t') : List ClientEv).dropWhile
        (·.name ≠ (d, .clock)) = ev :: rest ++ t' := by
    simp [hev]
  constructor
  · rintro ⟨user', huser', t₀, outcomes, ⟨after, hafter⟩, hrun'⟩
    obtain rfl : user = user' := Option.some.inj (huser.symm.trans huser')
    rw [hdrop] at hafter
    exact ⟨outcomes, (runs_unique hrun hrun' hafter.symm).2⟩
  · rintro ⟨outcomes, rfl⟩
    refine ⟨user, huser, _, outcomes, ?_, hrun⟩
    rw [hdrop]
    exact List.prefix_append _ _

lemma mem_pending_quiet {ev : ClientEv} (h : Quiet d ev) {p : PendingDelete}
    (hp : p ∈ pending d ev.pre) : p ∈ pending d ev.post := by
  rwa [pending, h]

lemma mem_pending_cleared {p : PendingDelete} :
    p ∈ pending d (clearing d ps e w).post ↔ p ∈ pending d w ∧ p.uuid ∉ ps.map (·.uuid) := by
  simp [pending, clearing, clearPendingDeletes, Table.mem_delete]

/-- Of a flush, the server runs the request only. -/
lemma served_flush (hlook : Looks d user look) (hafter : served t' = []) :
    served (look ++ ⟨(d, .listPendingDeletes), e, w, w⟩ :: (t ++ t')) = served t := by
  obtain ⟨e₁, w₁, e₂, w₂, rfl, -⟩ := hlook
  rw [List.cons_append, List.cons_append, List.nil_append]
  simp only [served, List.filterMap_cons, List.filterMap_append] at hafter ⊢
  rw [hafter, List.append_nil]

lemma request_of_flush (e : ClientEnv) (w : World) (t' : List ClientEv)
    (hlook : Looks d user look) (hafter : served t' = [])
    (hsame : ∀ ev ∈ t', ev.post.server = ev.pre.server) (hle : ps.length ≤ 100)
    (hnodup : (ps.map (·.uuid)).Nodup) (hids : ∀ p ∈ ps, X.isUuid p.uuid = true)
    {r : Except TransportError (List (Ident × PushOutcome))}
    (hrun : Runs (enginePushBatch X d user (ps.map toPushed)).run t r)
    (hok : ∀ ev ∈ t, ev.inp.fault = false) :
    let fl := look ++ ⟨(d, .listPendingDeletes), e, w, w⟩ :: (t ++ t')
    (Answered X d fl ps ↔ ∀ p ∈ ps, ¬Unanswerable fl p) ∧
      ∀ p ∈ ps, (Applied fl p ↔ Meets fl p) := by
  obtain ⟨hans, happ⟩ := request_iff hle hnodup hids hrun hok
  dsimp only
  simp only [Unanswerable, Meets, served_flush hlook hafter] at hans happ ⊢
  refine ⟨(answered_iff hlook hrun).trans hans, fun p hp => ?_⟩
  exact (applied_request hlook hsame p).trans (happ p hp)

lemma quiet_of_looks (hlook : Looks d user look) :
    ∀ ev ∈ look, Quiet d ev ∧ ev.name = (d, .memory) := by
  obtain ⟨e₁, w₁, e₂, w₂, rfl, -⟩ := hlook
  simp [Quiet]

/-- With no tombstones there is nothing to do. -/
lemma flushes_nothing (hlook : Looks d user look) :
    Flushes X d (look ++ [⟨(d, .listPendingDeletes), e, w, w⟩]) [] := by
  refine ⟨fun h => absurd rfl h, by simp, fun ev hev p hp hp' => ?_⟩
  refine absurd (mem_pending_quiet ?_ hp) hp'
  rcases List.mem_append.mp hev with hev | hev
  · exact (quiet_of_looks hlook ev hev).1
  · rw [List.mem_singleton.mp hev]
    rfl

/-- If no statement touches the device, a tombstone is gone at the end if it was before. -/
lemma elsewhere_iff {fl : List ClientEv} (hfl : ∀ ev ∈ fl, Quiet d ev) (p : PendingDelete) :
    (∀ last ∈ fl.getLast?, p ∉ pending d last.post) ↔ Elsewhere d fl p := by
  refine forall₂_congr fun last hlast => ?_
  rw [pending, hfl last (List.mem_of_getLast? hlast), pending]

/-- The tombstones are kept: the server has not answered, or has not applied one of them. -/
lemma flushes_kept_iff (hlook : Looks d user look) (hne : pending d w ≠ [])
    {r : Except TransportError (List (Ident × PushOutcome))}
    (hrun : Runs (enginePushBatch X d user ((pending d w).map toPushed)).run t r)
    (hr : ∀ outcomes, r = .ok outcomes → ¬∀ o ∈ outcomes, o.2 = .applied)
    (hok : ∀ ev ∈ t, ev.inp.fault = false) (hids : ∀ p ∈ pending d w, X.isUuid p.uuid = true) :
    Flushes X d (look ++ ⟨(d, .listPendingDeletes), e, w, w⟩ :: t) (pending d w) ↔
      Smooth d (look ++ ⟨(d, .listPendingDeletes), e, w, w⟩ :: t) (pending d w) := by
  have hnodup := (w.devices d).db.pendingDeletes.nodup
  have hflush := fun hle => request_of_flush e w [] hlook rfl (by simp) hle hnodup hids hrun hok
  have hstays : ∀ ev ∈ look ++ ⟨(d, .listPendingDeletes), e, w, w⟩ :: t, Quiet d ev := by
    intro ev hev
    simp only [List.mem_append, List.mem_cons] at hev
    rcases hev with hev | rfl | hev
    · exact (quiet_of_looks hlook ev hev).1
    · rfl
    · exact (hrun.every (requests_enginePushBatch _) ev hev).2.2
  have hsome : ∀ {outcomes}, r = .ok outcomes → (pending d w).length ≤ 100 ∧
      ¬∀ p ∈ pending d w, Applied (look ++ ⟨(d, .listPendingDeletes), e, w, w⟩ :: (t ++ [])) p := by
    rintro outcomes rfl
    obtain ⟨hle, happ⟩ := applied_iff hnodup hrun
    exact ⟨hle, fun hall => hr outcomes rfl (happ.mp fun p hp =>
      (applied_request hlook (by simp) p).mp (hall p hp))⟩
  rw [← List.append_nil t] at hstays ⊢
  constructor
  · intro hF
    obtain ⟨outcomes, rfl⟩ := (answered_iff hlook hrun).mp (hF.delivered hne)
    obtain ⟨hle, hnot⟩ := hsome rfl
    obtain ⟨hans, happ⟩ := hflush hle
    refine .inr ⟨⟨hle, hans.mp (hF.delivered hne)⟩, .inr ⟨?_, fun p hp hdone => ?_⟩⟩
    · exact fun hall => hnot fun p hp => (happ p hp).mpr (hall p hp)
    · exact (elsewhere_iff hstays p).mp (hF.settled p hp (hdone.imp_left (happ p hp).mpr))
  · rintro (hnil | ⟨⟨hle, hserve⟩, hcase⟩)
    · exact absurd hnil hne
    obtain ⟨hans, happ⟩ := hflush hle
    have hanswered := hans.mpr hserve
    obtain ⟨outcomes, rfl⟩ := (answered_iff hlook hrun).mp hanswered
    rcases hcase with ⟨hall, -⟩ | ⟨-, hothers⟩
    · exact absurd (fun p hp => (happ p hp).mpr (hall p hp)) (hsome rfl).2
    · refine ⟨fun _ => hanswered, fun p hp hdone => ?_, fun ev hev p hp hp' => ?_⟩
      · exact (elsewhere_iff hstays p).mpr (hothers p hp (hdone.imp_left (happ p hp).mp))
      · exact absurd (mem_pending_quiet (hstays ev hev) hp) hp'

/-- All of them were applied, and are cleared. -/
lemma flushes_cleared_iff {e' : ClientEnv} {w' : World} (hlook : Looks d user look)
    (hne : pending d w ≠ []) {outcomes : List (Ident × PushOutcome)}
    (hrun : Runs (enginePushBatch X d user ((pending d w).map toPushed)).run t (.ok outcomes))
    (hall : ∀ o ∈ outcomes, o.2 = .applied) (hok : ∀ ev ∈ t, ev.inp.fault = false)
    (hids : ∀ p ∈ pending d w, X.isUuid p.uuid = true) :
    let fl := look ++ ⟨(d, .listPendingDeletes), e, w, w⟩ ::
      (t ++ [clearing d (pending d w) e' w'])
    Flushes X d fl (pending d w) ↔ Smooth d fl (pending d w) := by
  intro fl
  obtain ⟨hle, happ⟩ := applied_iff (w.devices d).db.pendingDeletes.nodup hrun
  obtain ⟨hans, hmeets⟩ := request_of_flush e w [clearing d (pending d w) e' w'] hlook rfl
    (by simp [clearing]) hle (w.devices d).db.pendingDeletes.nodup hids hrun hok
  have hanswered : Answered X d fl (pending d w) := (answered_iff hlook hrun).mpr ⟨outcomes, rfl⟩
  have happlied : ∀ p ∈ pending d w, Applied fl p := fun p hp =>
    (applied_request hlook (by simp [clearing]) p).mpr (happ.mpr hall p hp)
  -- only the last statement clears anything
  have hcases : ∀ ev ∈ fl, ev = clearing d (pending d w) e' w' ∨
      Quiet d ev ∧ ev.name ≠ (d, .clearPendingDeletes) := by
    intro ev hev
    simp only [fl, List.mem_append, List.mem_cons, List.not_mem_nil, or_false] at hev
    rcases hev with hev | rfl | hev | rfl
    · obtain ⟨hquiet, hname⟩ := quiet_of_looks hlook ev hev
      exact .inr ⟨hquiet, by simp [hname]⟩
    · exact .inr ⟨rfl, by simp⟩
    · obtain ⟨-, hname, hquiet⟩ := hrun.every (requests_enginePushBatch _) ev hev
      refine .inr ⟨hquiet, fun h => ?_⟩
      rw [h] at hname
      cases hname
    · exact .inl rfl
  constructor
  · intro hF
    refine .inr ⟨⟨hle, hans.mp hanswered⟩, .inl ⟨fun p hp => (hmeets p hp).mp (happlied p hp),
      fun ev hev hname p hp huuid => (hF.others ev hev p hp ?_).1⟩⟩
    rcases hcases ev hev with rfl | ⟨-, hne⟩
    · exact fun h => (mem_pending_cleared.mp h).2 huuid
    · exact absurd hname hne
  · rintro (hnil | ⟨-, ⟨-, hnew⟩ | ⟨hnot, -⟩⟩)
    · exact absurd hnil hne
    · refine ⟨fun _ => hanswered, fun p hp _ last hlast => ?_, fun ev hev p hp hp' => ?_⟩
      · obtain rfl : last = clearing d (pending d w) e' w' := by
          simpa [fl, List.getLast?_append, List.getLast?_cons, eq_comm] using hlast
        exact fun h => (mem_pending_cleared.mp h).2 (List.mem_map_of_mem hp)
      · rcases hcases ev hev with rfl | ⟨hquiet, -⟩
        · have huuid : p.uuid ∈ (pending d w).map (·.uuid) := by
            by_contra h
            exact hp' (mem_pending_cleared.mpr ⟨hp, h⟩)
          have hmem := hnew _ hev rfl p hp huuid
          exact ⟨hmem, .inl (happlied p hmem)⟩
        · exact absurd (mem_pending_quiet hquiet hp) hp'
    · exact absurd (fun p hp => (hmeets p hp).mp (happlied p hp)) hnot

/-- **A flush**, when nothing fails. -/
lemma flushes_iff (hlook : Looks d user look) (h : Flush X d user ps t)
    (hok : ∀ ev ∈ t, ev.inp.fault = false) (hids : ∀ p ∈ ps, X.isUuid p.uuid = true) :
    Flushes X d (look ++ t) ps ↔ Smooth d (look ++ t) ps := by
  cases h with
  | nothing e w h => exact iff_of_true (flushes_nothing hlook) (.inl rfl)
  | kept hne hrun hr =>
    exact flushes_kept_iff hlook hne hrun hr
      (fun ev hev => hok ev (List.mem_cons_of_mem _ hev)) hids
  | cleared hne hrun hall =>
    exact flushes_cleared_iff hlook hne hrun hall
      (fun ev hev => hok ev (List.mem_cons_of_mem _ (List.mem_append_left _ hev))) hids

/-! ### The flush of a call -/

lemma unlisting_flush : Guarantees (fun _ _ _ => True) (fun ev => ev.name ≠ (d, .listLocalItems))
    (flushPendingDeletes X d user).run := by
  unfold flushPendingDeletes
  refine guarantees_bind_except (guarantees_inspect (guarantees_readDb fun _ _ => by simp))
    fun r => ?_
  cases r with
  | error e => exact guarantees_pure_except _
  | ok rows =>
    dsimp only
    split
    · exact guarantees_pure_except _
    refine guarantees_bind_except (guarantees_inspect (guarantees_mono (fun ev hev => ?_)
      (requests_enginePushBatch _))) fun r => ?_
    · rintro hname
      have := hev.2.1
      rw [hname] at this
      cases this
    · cases r with
      | error e => exact guarantees_pure_except _
      | ok outcomes =>
        dsimp only
        split
        · exact guarantees_bind_except (guarantees_inspect (guarantees_writeDb (fun _ _ => by simp)
            fun _ _ _ => by simp)) fun _ => guarantees_pure_except _
        · exact guarantees_pure_except _

/-- What a call runs before it lists the local items: it looks at the memory and flushes. -/
lemma flush_of_push {r : Except ClientError Unit} (h : Runs (pushLocalChanges X d).run tr r) :
    listed d (flush d tr) = none ∨ ∃ user look t r', flush d tr = look ++ t ∧
      Looks d user look ∧ Runs (flushPendingDeletes X d user).run t r' := by
  unfold pushLocalChanges at h
  rcases runs_bind_except.mp h with ⟨⟨⟩, tr₁, tr₂, rfl, h₁, h₂⟩ | ⟨e, h₁, rfl⟩
  rotate_left
  · obtain ⟨e₁, w₁, rfl⟩ := runs_requireUnlocked h₁
    exact .inl (by simp [flush, listed])
  obtain ⟨e₁, w₁, rfl⟩ := runs_requireUnlocked h₁
  rcases runs_bind_except.mp h₂ with ⟨user, tr₃, tr₄, rfl, h₃, h₄⟩ | ⟨e, h₃, rfl⟩
  rotate_left
  · obtain ⟨e₃, w₃, rfl, -⟩ := runs_require h₃
    exact .inl (by simp [flush, listed])
  obtain ⟨e₃, w₃, rfl, huser⟩ := runs_require h₃
  right
  have hlooks : Looks d user [⟨(d, .memory), e₁, w₁, w₁⟩, ⟨(d, .memory), e₃, w₃, w₃⟩] :=
    ⟨e₁, w₁, e₃, w₃, rfl, huser user rfl⟩
  have htake : ∀ {t rest : List ClientEv} {r'},
      Runs (flushPendingDeletes X d user).run t r' →
      (∀ ev ∈ rest.head?, ev.name = (d, .listLocalItems)) →
      flush d (⟨(d, .memory), e₁, w₁, w₁⟩ :: ⟨(d, .memory), e₃, w₃, w₃⟩ :: (t ++ rest)) =
        [⟨(d, .memory), e₁, w₁, w₁⟩, ⟨(d, .memory), e₃, w₃, w₃⟩] ++ t := by
    intro t rest r' ht hrest
    have hall : ∀ ev ∈ t, decide (ev.name ≠ (d, .listLocalItems)) = true := fun ev hev =>
      decide_eq_true (ht.every unlisting_flush ev hev)
    have hnil : rest.takeWhile (fun ev => decide (ev.name ≠ (d, .listLocalItems))) = [] := by
      cases rest with
      | nil => rfl
      | cons ev rest => simp [hrest ev rfl]
    simp only [flush, List.takeWhile_cons]
    rw [List.takeWhile_append_of_pos hall, hnil]
    simp
  rcases runs_bind_except.mp h₄ with ⟨⟨⟩, t, rest, rfl, h₅, h₆⟩ | ⟨e, h₅, rfl⟩
  · refine ⟨user, _, t, _, htake h₅ fun ev hev => ?_, hlooks, h₅⟩
    rcases runs_bind_except.mp h₆ with ⟨rows, tr₅, tr₆, rfl, h₇, -⟩ | ⟨e, h₇, -⟩
    · obtain ⟨_, _, rfl, -⟩ := runs_readDb h₇
      cases hev
      rfl
    · obtain ⟨_, _, rfl, -⟩ := runs_readDb h₇
      cases hev
      rfl
  · refine ⟨user, _, tr₄, _, ?_, hlooks, h₅⟩
    rw [← htake h₅ (show ∀ ev ∈ ([] : List ClientEv).head?, _ by simp), List.append_nil]
    rfl

/-! ### Every call of every run -/

section Decidable

variable (fl : List ClientEv) (p : PendingDelete) (ps : List PendingDelete)

instance : Decidable (FoundDeleted fl p) :=
  inferInstanceAs (Decidable (∃ ev ∈ fl, ∃ row ∈ readRow ev, _))

instance : Decidable (NoneNew d fl ps) :=
  inferInstanceAs (Decidable (∀ ev ∈ fl, ev.name = _ → ∀ p ∈ pending d ev.pre, _ → _))

instance : Decidable (Meets fl p) := inferInstanceAs (Decidable (Lands _ _ _))

instance : Decidable (Unanswerable fl p) := inferInstanceAs (Decidable (Stuck _ _ _))

instance : Decidable (Elsewhere d fl p) :=
  inferInstanceAs (Decidable (∀ last ∈ fl.getLast?, _))

instance : Decidable (Smooth d fl ps) :=
  inferInstanceAs (Decidable (_ ∨ (_ ∧ ∀ p ∈ ps, _) ∧ ((∀ p ∈ ps, _) ∧ _ ∨ (¬∀ p ∈ ps, _) ∧
    ∀ p ∈ ps, _ ∨ _ → _)))

end Decidable

/-- **When the tombstones are flushed as they should.** In every run of any devices and others: a
call that pushes the local changes, and with which nothing fails, delivers the tombstones, clears
those that the server is done with and no others, if and only if there are none or the condition
holds. -/
theorem delivers_iff (X : Ext Blob) (w : World) (as : List WorldAct) :
    ∀ c ∈ (run (code X) (init w) as).calls, Delivers X c ↔ Unhindered X c := by
  intro c hc
  refine forall₃_congr fun d ps ⟨hreq, hres, hworks, hps, hids⟩ => ?_
  obtain ⟨a, ha⟩ := Option.isSome_iff_exists.mp hres
  have hruns := run_runs (code X) w as c hc a ha
  rw [hreq] at hruns
  obtain ⟨r, -, hruns⟩ := runs_map.mp hruns
  have hpush : ∃ r, Runs (pushLocalChanges X d).run c.trace r := by
    rcases runs_bind_except.mp hruns with ⟨⟨⟩, tr₁, tr₂, htr, h₁, h₂⟩ | ⟨e, h₁, -⟩
    · rw [h₂.1, List.append_nil] at htr
      exact ⟨_, htr ▸ h₁⟩
    · exact ⟨_, h₁⟩
  obtain ⟨r, hpush⟩ := hpush
  rcases flush_of_push hpush with hnone | ⟨user, look, t, r', htr, hlook, ht⟩
  · rw [hnone] at hps
    cases hps
  rw [htr] at hworks hps ⊢
  have hok : ∀ ev ∈ t, ev.inp.fault = false := fun ev hev =>
    hworks ev (List.mem_append_right _ hev)
  obtain ⟨-, ps', hflush⟩ := flush_of_runs hok ht
  have hlisted : listed d (look ++ t) = some ps' := by
    obtain ⟨e₁, w₁, e₂, w₂, rfl, -⟩ := hlook
    cases hflush <;> simp [listed, *]
  obtain rfl := Option.some.inj (hlisted.symm.trans hps)
  exact flushes_iff hlook hflush hok hids

open RotationAgreement (anyUuid oneItem) in
/-- A device deletes its item and pushes. -/
theorem deleted_item_pushed :
    ∃ as, ∃ c ∈ (run (code anyUuid) (init oneItem) as).calls,
      c.req = .client 1 .pushLocalChanges ∧ c.prog.result.isSome ∧
        (∀ ev ∈ flush 1 c.trace, ev.inp.fault = false) ∧
        (listed 1 (flush 1 c.trace)).map (·.map (·.uuid)) = some [3] ∧ Delivers anyUuid c := by
  obtain ⟨c, hc, hreq⟩ := Option.map_eq_some_iff.mp (req_of_call (h := code anyUuid)
    (init oneItem)
    (.call (.client 1 (.deleteItem 3)) :: List.replicate 6 (.exec 0 ⟨0, 0, false, 0⟩))
    (List.replicate 25 (.exec 1 ⟨0, 0, false, 0⟩)) (.client 1 .pushLocalChanges))
  have hend : ∀ c ∈ (run (code anyUuid) (init oneItem)
      (.call (.client 1 (.deleteItem 3)) :: List.replicate 6 (.exec 0 ⟨0, 0, false, 0⟩) ++
        .call (.client 1 .pushLocalChanges) ::
          List.replicate 25 (.exec 1 ⟨0, 0, false, 0⟩))).calls[1]?, c.prog.result.isSome ∧
      (∀ ev ∈ flush 1 c.trace, ev.inp.fault = false) ∧
      (listed 1 (flush 1 c.trace)).map (·.map (·.uuid)) = some [3] ∧
      ∀ ps ∈ listed 1 (flush 1 c.trace), Smooth 1 (flush 1 c.trace) ps := by
    decide +kernel
  obtain ⟨hres, hworks, hlisted, hsmooth⟩ := hend c hc
  have hmem := List.mem_of_getElem? hc
  refine ⟨_, c, hmem, hreq, hres, hworks, hlisted, (delivers_iff anyUuid oneItem _ c hmem).mpr ?_⟩
  intro d ps h
  obtain rfl : d = 1 := by
    have := h.req.symm.trans hreq
    injection this
  exact hsmooth ps h.listed

/-- A tombstone that the server is done with and that stays. -/
lemma undelivered (X : Ext Blob) (w : World) (before after : List WorldAct) (d : ℕ)
    (hun : ∀ c ∈ (run (code X) (init w) (before ++ .call (.client d .pushLocalChanges) ::
        after)).calls[(run (code X) (init w) before).calls.length]?,
      c.prog.result.isSome ∧ (∀ ev ∈ flush d c.trace, ev.inp.fault = false) ∧
        ∃ ps ∈ listed d (flush d c.trace), (∀ p ∈ ps, X.isUuid p.uuid = true) ∧ ∃ p ∈ ps,
          FoundDeleted (flush d c.trace) p ∧
            ∃ last ∈ (flush d c.trace).getLast?, p ∈ pending d last.post) :
    ∃ as, ∃ c ∈ (run (code X) (init w) as).calls, ¬Delivers X c := by
  obtain ⟨c, hc, hreq⟩ := Option.map_eq_some_iff.mp (req_of_call (h := code X) (init w) before after
    (.client d .pushLocalChanges))
  obtain ⟨hres, hworks, ps, hps, hids, p, hp, hfound, last, hlast, hpending⟩ := hun c hc
  exact ⟨_, c, List.mem_of_getElem? hc, fun h =>
    (h d ps ⟨hreq, hres, hworks, hps, hids⟩).settled p hp (.inr hfound) last hlast hpending⟩

open RotationAgreement (anyUuid oneItem) in
/-- Two devices delete the item and push: the second tombstone meets a deleted row, and stays. -/
theorem deleted_item_stays_pending :
    ∃ as, ∃ c ∈ (run (code anyUuid) (init oneItem) as).calls, ¬Delivers anyUuid c :=
  undelivered anyUuid oneItem
    (.call (.client 1 (.deleteItem 3)) :: List.replicate 6 (.exec 0 ⟨0, 0, false, 0⟩) ++
      .call (.client 1 .pushLocalChanges) :: List.replicate 25 (.exec 1 ⟨0, 0, false, 0⟩) ++
      .call (.client 0 (.deleteItem 3)) :: List.replicate 6 (.exec 2 ⟨0, 0, false, 0⟩))
    (List.replicate 25 (.exec 3 ⟨0, 0, false, 0⟩)) 0 (by decide +kernel)

end Vautr.TombstoneFlush
