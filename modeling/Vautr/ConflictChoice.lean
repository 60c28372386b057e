import Vautr.ClientRuns
import Vautr.RotationAgreement

/-!
What becomes of an item in conflict when the user of a client decides for one of its two sides.

Any number of devices run any of their commands, and others use the server. A call that keeps the
server's side stores a row that it makes up itself: the version that it was asked for, the
generation of the device, and no deletion. A call that pushes the local side writes on the server
only.
-/

namespace Vautr.ConflictChoice

open Vautr.Atomic Vautr.Interleave Vautr.Sql Vautr.Database Vautr.Api Vautr.Server Vautr.Handlers
  Vautr.ClientDb Vautr.Crypto Vautr.Client Vautr.Zoom Vautr.Executions Vautr.Orchestrator
  Vautr.ClientRuns

/-! ### What a call has done -/

/-- The server's row, as the call found it. -/
def found (tr : List ClientEv) : Option (ItemRow Blob) := tr.findSome? readRow

/-- The generation of the device, as the call found it after that. -/
def genRead (d : ℕ) (tr : List ClientEv) : Option UInt64 :=
  ((tr.dropWhile fun ev => (readRow ev).isNone).find? (·.name.2 = .memory)).map
    fun ev => (ev.pre.devices d).mem.localGen

/-- What the call has stored on the device. -/
def stored (d : ℕ) (uuid : Ident) (tr : List ClientEv) : Option (LocalDb Blob) :=
  (tr.find? (·.name.2 = .persistPage [uuid])).map fun ev => (ev.post.devices d).db

/-- The statement wrote the server's row of the item, which is `row` then. -/
def Wrote (uuid : Ident) (row : ItemRow Blob) (ev : ClientEv) : Prop :=
  ∃ user, ev.post.server.items.get (uuid, user) = some row ∧
    ev.pre.server.items.get (uuid, user) ≠ some row

def localVersion (d : ℕ) (uuid : Ident) (w : World) : Option ℤ :=
  ((w.devices d).db.overviews.get uuid).map (·.version)

/-! ### What a call promises -/

/-- The item on the device is the server's row: its version, its generation, whether it is
deleted, and its payload, which opens for everybody for whom the server's opens. -/
structure Same (row : ItemRow Blob) (o : OverviewRow) (p : PayloadRow Blob) : Prop where
  version : asU64 o.version = asU64 row.version
  gen : asU64 o.encKeyGen = asU64 row.encKeyGen
  deleted : o.deletedDate.isSome = row.deletedDate.isSome
  payload : row.payload = some p.payload
  opens : ∀ k plain, decrypt k row.uuid (asU64 row.encKeyGen) p.payload = some plain →
    decrypt k o.uuid (asU64 o.encKeyGen) p.payload = some plain

/-- What a call that resolves a conflict promises, for what it returns. -/
def Promise (d : ℕ) (uuid : Ident) (version : UInt64) (tr : List ClientEv) :
    Bool → Except ClientError CmdReply → Prop
  | _, .error _ => Every (Quiet d) tr
  | false, .ok _ => ∃ row ∈ found tr, asU64 row.version = version ∧
    ∃ db ∈ stored d uuid tr, ∃ o ∈ db.overviews.get uuid, ∃ p ∈ db.payloads.get uuid, Same row o p
  | true, .ok _ => ∃ ev ∈ tr, ∃ row, Wrote uuid row ev ∧
    ∃ last ∈ tr.getLast?, localVersion d uuid last.post = some row.version

/-- The server's row is live and of the device's generation; or the local row has the version
after that of the conflict already, before the last statement of the call. -/
def Lucky (d : ℕ) (uuid : Ident) (version : UInt64) (tr : List ClientEv) :
    Bool → Except ClientError CmdReply → Prop
  | _, .error _ => True
  | false, .ok _ =>
    ∃ row ∈ found tr, genRead d tr = some (asU64 row.encKeyGen) ∧ row.deletedDate = none
  | true, .ok _ => ∃ last ∈ tr.getLast?, localVersion d uuid last.pre = some (asI64 version + 1)

/-- The call keeps its promise, if it is one that resolves a conflict. -/
def Resolves (c : Call) : Prop :=
  ∀ d uuid version force, c.req = .client d (.resolveConflict uuid version force) →
    ∀ r, c.prog.result = some (.client r) → Promise d uuid version c.trace force r

/-- The call is lucky, if it is one that resolves a conflict. -/
def Favoured (c : Call) : Prop :=
  ∀ d uuid version force, c.req = .client d (.resolveConflict uuid version force) →
    ∀ r, c.prog.result = some (.client r) → Lucky d uuid version c.trace force r

variable {X : Ext Blob} {d : ℕ} {user uuid : Ident} {version : UInt64} {tr : List ClientEv}

/-! ### The two ways to resolve a conflict -/

/-- Push the local side. -/
def pushLocal (X : Ext Blob) (d : ℕ) (user uuid : Ident) (version : UInt64) : Op Unit := do
  let rows ← readDb d .listLocalItems "list local items" joined
  match rows.find? (·.1.uuid = uuid) with
  | none => throw (.text ("no local item " ++ toString uuid))
  | some r =>
    let outcomes ← orFail "push conflict resolution" (pushBatch X d user
      [⟨uuid, version, asU64 r.1.encKeyGen, some r.2⟩])
    match outcomes.head? with
    | some .applied => return ()
    | some (.conflict v) =>
      throw (.text ("conflict resolution failed: server is at version " ++ toString v))
    | some .epochTooOld =>
      throw (.text "conflict resolution failed: local enc_key_gen is behind the server")
    | none => throw (.text "conflict resolution failed: no outcome returned")

/-- Keep the server's side. -/
def keepServer (d : ℕ) (user uuid : Ident) (version : UInt64) : Op Unit := do
  let payload ← orFail "conflict fetch" (fetchPayload d user uuid version)
  let localGen ← readMemory d (·.localGen)
  let cursor ← readMemory d (·.cursor)
  persistSyncedPage d [(⟨uuid, version, localGen, false⟩, payload)] [] cursor

lemma resolveConflict_eq (force : Bool) :
    resolveConflict X d uuid version force = (do
      requireUnlocked d
      let user ← require d "sync not connected" (·.transport)
      if force then pushLocal X d user uuid version else keepServer d user uuid version) := rfl

/-! ### Keeping the server's side -/

/-- What is on the device after a page with one item. -/
lemma get_of_page {ov : PulledOverview} {payload : Blob} {cursor minGen : ℤ} {db db' : LocalDb Blob}
    (h : applySyncBatchTxn [PulledOverview.row ov] [⟨ov.uuid, payload⟩] [] cursor minGen db =
      some db') :
    (∃ o, db'.overviews.get ov.uuid = some o ∧ o.uuid = ov.uuid ∧ o.version = asI64 ov.version ∧
      o.encKeyGen = asI64 ov.encKeyGen ∧ o.deletedDate = (PulledOverview.row ov).deletedDate) ∧
    db'.payloads.get ov.uuid = some ⟨ov.uuid, payload⟩ := by
  unfold applySyncBatchTxn at h
  split at h
  · obtain rfl := Option.some.inj h
    constructor
    · simp only [List.foldl_cons, List.foldl_nil, Table.get_upsert]
      rw [if_pos (show (PulledOverview.row ov).uuid = ov.uuid from rfl)]
      refine ⟨_, rfl, ?_⟩
      cases hget : (db.overviews.delete (·.uuid ∈ ([] : List Ident))).get ov.uuid with
      | none => exact ⟨rfl, rfl, rfl, rfl⟩
      | some o =>
        have hkey : o.uuid = ov.uuid := Table.get_key hget
        exact ⟨hkey, rfl, rfl, rfl⟩
    · simp only [List.foldl_cons, List.foldl_nil, upsertPayload, Table.get_upsert, if_true]
      cases hget : (db.payloads.delete (·.uuid ∈ ([] : List Ident))).get ov.uuid with
      | none => rfl
      | some p =>
        have hkey : p.uuid = ov.uuid := Table.get_key hget
        simp [setPayload, hkey]
  · cases h

/-- What a call has run that keeps the server's side: it read the row, the generation of the
device, and stored the page it made up. -/
structure Keeps (d : ℕ) (uuid : Ident) (version : UInt64) (tr : List ClientEv) (row : ItemRow Blob)
    (gen : UInt64) (o : OverviewRow) (p : PayloadRow Blob) : Prop where
  found : found tr = some row
  read : genRead d tr = some gen
  stored : ∃ db, stored d uuid tr = some db ∧ db.overviews.get uuid = some o ∧
    db.payloads.get uuid = some p
  uuid : row.uuid = uuid ∧ o.uuid = uuid
  asked : asU64 row.version = version
  overview : o.version = asI64 version ∧ o.encKeyGen = asI64 gen ∧ o.deletedDate = none
  payload : row.payload = some p.payload

lemma keeps_of_runs {t : List ClientEv} (ht : ∀ ev ∈ t, ev.name = (d, .memory))
    (h : Runs (keepServer d user uuid version).run tr (.ok ())) :
    ∃ row gen o p, Keeps d uuid version (t ++ tr) row gen o p := by
  unfold keepServer at h
  rcases runs_bind_except.mp h with ⟨payload, tr₁, tr₂, rfl, h₁, h₂⟩ | ⟨e, -, hr⟩
  rotate_left
  · cases hr
  obtain ⟨r, hr, hfetch⟩ := runs_orFail.mp h₁
  cases r with
  | error e => cases hr
  | ok payload' =>
  cases hr
  obtain ⟨s, f, a, row, rfl, hs, hf, ha, hrow, hversion, hpayload⟩ := runs_fetchPayload_ok hfetch
  rcases runs_bind_except.mp h₂ with ⟨gen, tr₃, tr₄, rfl, h₃, h₄⟩ | ⟨e, -, hr⟩
  rotate_left
  · cases hr
  obtain ⟨e₃, w₃, rfl, hgen⟩ := runs_readMemory.mp h₃
  cases hgen
  rcases runs_bind_except.mp h₄ with ⟨cursor, tr₅, tr₆, rfl, h₅, h₆⟩ | ⟨e, -, hr⟩
  rotate_left
  · cases hr
  obtain ⟨e₅, w₅, rfl, -⟩ := runs_readMemory.mp h₅
  rcases runs_persistSyncedPage h₆ with ⟨⟨e, hr⟩, -⟩ |
    ⟨-, m, p, b, minGen, db, rfl, hm, hp, hb, hpage, hdb⟩
  · cases hr
  have hkey : row.uuid = uuid := congrArg Prod.fst (Table.get_key hrow)
  obtain ⟨⟨o, ho, hou, hov, hog, hod⟩, hpay⟩ := get_of_page hpage
  have hread : ∀ ev ∈ t, readRow ev = none := fun ev hev => by simp [readRow, ht ev hev]
  have hfound : t.findSome? readRow = none := List.findSome?_eq_none_iff.mpr hread
  have hnone : t.find? (fun ev => ev.name.2 = .persistPage [uuid]) = none :=
    List.find?_eq_none.mpr fun ev hev => by simp [ht ev hev]
  refine ⟨row, _, o, ⟨uuid, payload⟩, ⟨?_, ?_, ⟨db, ?_, ho, hpay⟩, ⟨hkey, hou⟩, hversion,
    ⟨hov, hog, hod⟩, hpayload⟩⟩
  · simp [found, hfound, readRow, hs, hf, hrow]
  · rw [genRead, List.dropWhile_append_of_pos fun ev hev => by simp [hread ev hev]]
    simp [readRow, hs, hf, hrow, ha]
  · simp [stored, hnone, hs, hf, ha, hm, hp, hdb]

/-- **The server's side is kept** if the row is live and of the device's generation. -/
lemma same_iff {row : ItemRow Blob} {gen : UInt64} {o : OverviewRow} {p : PayloadRow Blob}
    (h : Keeps d uuid version tr row gen o p) :
    Same row o p ↔ gen = asU64 row.encKeyGen ∧ row.deletedDate = none := by
  obtain ⟨hov, hog, hod⟩ := h.overview
  constructor
  · intro hsame
    refine ⟨?_, ?_⟩
    · have := hsame.gen
      rwa [hog, asU64_asI64] at this
    · have := hsame.deleted
      rw [hod] at this
      exact Option.isSome_eq_false_iff.mp this.symm |> Option.isNone_iff_eq_none.mp
  · rintro ⟨rfl, hlive⟩
    refine ⟨?_, ?_, ?_, h.payload, ?_⟩
    · rw [hov, asU64_asI64, h.asked]
    · rw [hog, asU64_asI64]
    · rw [hod, hlive]
    · intro k plain hplain
      rwa [hog, asU64_asI64, h.uuid.2, ← h.uuid.1]

lemma promise_keep_iff {row : ItemRow Blob} {gen : UInt64} {o : OverviewRow} {p : PayloadRow Blob}
    (h : Keeps d uuid version tr row gen o p) (r : CmdReply) :
    Promise d uuid version tr false (.ok r) ↔ Lucky d uuid version tr false (.ok r) := by
  obtain ⟨db, hdb, ho, hp⟩ := h.stored
  simp only [Promise, Lucky, h.found, hdb, h.read, Option.mem_some_iff, exists_eq_left', ho, hp,
    same_iff h, h.asked, true_and, Option.some.injEq]

/-! ### Pushing the local side -/

/-- What a call has run that pushes the local side: it wrote the server's row, with the version
after that of the conflict, and its last statement was the answer. -/
structure Pushes (uuid : Ident) (version : UInt64) (tr : List ClientEv) : Prop where
  last : ∃ f, tr.getLast? = some f ∧ f.post = f.pre
  wrote : ∃ ev ∈ tr, ∃ row, Wrote uuid row ev
  next : ∀ ev ∈ tr, ∀ row, Wrote uuid row ev → row.version = asI64 version + 1

lemma not_wrote_of_same {ev : ClientEv} (h : ev.post = ev.pre) (row : ItemRow Blob) :
    ¬Wrote uuid row ev := by
  rintro ⟨user, hpost, hpre⟩
  rw [h] at hpost
  exact hpre hpost

/-- The upsert of the item wrote its row at the server, and nothing else did. -/
lemma pushes_of_wroteOnce {q : Upsert Blob} (hkey : q.key = (uuid, user)) {t : List (DbEv Blob)}
    {t' : List ClientEv} (h : PushRuns.WroteOnce q t)
    (hshow : List.Forall₂ (Shows (onServer d)) t t') :
    (∃ ev ∈ t', ∃ row, Wrote uuid row ev) ∧
      ∀ ev ∈ t', ∀ row, Wrote uuid row ev → row.version = q.targetVersion + 1 := by
  obtain ⟨t₁, ev, t₂, rfl, h₁, ⟨hversion, hrow⟩, h₂⟩ := h
  obtain ⟨hshown, hof⟩ := exists_shows hshow
  constructor
  · obtain ⟨ev', hev', hs⟩ := hshown ev (List.mem_append_right _ List.mem_cons_self)
    have hpost := hrow q.key
    rw [if_pos rfl, hkey] at hpost
    refine ⟨ev', hev', _, user, (congrArg (·.items.get (uuid, user)) hs.get_post).trans hpost,
      fun hpre => ?_⟩
    -- the version was the one aimed at, and is the next one now
    have hpre' : ev.pre.items.get (uuid, user) = _ :=
      (congrArg (·.items.get (uuid, user)) hs.pre).trans hpre
    simp [Occ.version, hkey, hpre', Upsert.row] at hversion
  · rintro ev' hev' row ⟨user', hpost, hpre⟩
    obtain ⟨ev₀, hev₀, hs⟩ := hof ev' hev'
    replace hpost := (congrArg (·.items.get (uuid, user')) hs.get_post).symm.trans hpost
    replace hpre : ev₀.pre.items.get (uuid, user') ≠ some row := by
      rw [hs.pre]
      exact hpre
    have hquiet : ∀ ev₁, ev₁.post.items = ev₁.pre.items → ev₁ = ev₀ → False := by
      rintro _ hq rfl
      rw [← hq] at hpre
      exact hpre hpost
    rcases List.mem_append.mp hev₀ with hmem | hmem
    · exact (hquiet ev₀ (h₁ ev₀ hmem) rfl).elim
    · rcases List.mem_cons.mp hmem with rfl | hmem
      · replace hpost := (hrow (uuid, user')).symm.trans hpost
        split at hpost
        · cases hpost
          rfl
        · exact absurd hpost hpre
      · exact (hquiet ev₀ (h₂ ev₀ hmem) rfl).elim

lemma pushes_of_runs {t : List ClientEv} (ht : ∀ ev ∈ t, ev.post = ev.pre)
    (h : Runs (pushLocal X d user uuid version).run tr (.ok ())) :
    Pushes uuid version (t ++ tr) := by
  unfold pushLocal at h
  rcases runs_bind_except.mp h with ⟨rows, tr₁, tr₂, rfl, h₁, h₂⟩ | ⟨e, -, hr⟩
  rotate_left
  · cases hr
  obtain ⟨e₁, w₁, rfl, -⟩ := runs_readDb h₁
  split at h₂
  · cases h₂.2
  -- the row of the item is there, and is pushed alone
  next r hr =>
  rcases runs_bind_except.mp h₂ with ⟨outcomes, tr₃, tr₄, rfl, h₃, h₄⟩ | ⟨e, -, hr⟩
  rotate_left
  · cases hr
  obtain ⟨res, hres, hpush⟩ := runs_orFail.mp h₃
  cases res with
  | error e => cases hres
  | ok outcomes =>
  cases hres
  split at h₄
  · -- it was applied: one statement of the request has written it
    next happlied =>
    obtain ⟨rfl, -⟩ := h₄
    obtain ⟨c, s, t', f, now, now', ev, t₀, rs, rfl, hc, hs, -, hf, hshow, hev, hall, rfl, -⟩ :=
      runs_pushBatch_ok hpush
    obtain _ | ⟨hitem, _ | _⟩ := hall
    next t res =>
    have hsuccess : res.status = .success := by
      cases hst : res.status <;> simp [PushResult.outcome, hst] at happlied ⊢
    rw [PushRuns.Pushed, if_pos hsuccess] at hitem
    obtain ⟨p, -, hwrote⟩ := hitem
    have hevs : Occ.Quiet [ev] := by simp [Occ.Quiet, Every, hev]
    obtain ⟨⟨ev', hev', row, hrow⟩, hnext⟩ := pushes_of_wroteOnce
      (show _ = (uuid, user) from rfl)
      (hwrote.append hevs every_nil) hshow
    refine ⟨⟨f, by simp [List.getLast?_append, List.getLast?_cons], hf⟩,
      ⟨ev', by simp [hev'], row, hrow⟩, fun e he row hrow => ?_⟩
    have hsame := fun h => not_wrote_of_same h row hrow
    simp only [List.mem_append, List.mem_cons, List.not_mem_nil, or_false, List.cons_append,
      List.nil_append, List.append_assoc] at he
    rcases he with he | rfl | rfl | rfl | he | rfl
    · exact (hsame (ht e he)).elim
    · exact (hsame rfl).elim
    · exact (hsame hc).elim
    · exact (hsame hs).elim
    · exact hnext e he row hrow
    · exact (hsame hf).elim
  -- with any other outcome the push fails
  all_goals cases h₄.2

/-- **The local version is the server's new one** only if it was that before. -/
lemma promise_push_iff (h : Pushes uuid version tr) (r : CmdReply) :
    Promise d uuid version tr true (.ok r) ↔ Lucky d uuid version tr true (.ok r) := by
  obtain ⟨f, hf, hsame⟩ := h.last
  simp only [Promise, Lucky, hf, Option.mem_some_iff, exists_eq_left', hsame]
  constructor
  · rintro ⟨ev, hev, row, hrow, hversion⟩
    rw [hversion, h.next ev hev row hrow]
  · intro hversion
    obtain ⟨ev, hev, row, hrow⟩ := h.wrote
    exact ⟨ev, hev, row, hrow, by rw [hversion, h.next ev hev row hrow]⟩

/-! ### Errors -/

lemma quiet_pushLocal : Guarantees (fun _ _ _ => True) (Quiet d)
    (pushLocal X d user uuid version).run := by
  unfold pushLocal
  refine guarantees_bind_except (guarantees_readDb fun _ _ => rfl) fun rows => ?_
  split
  · exact guarantees_throw_except _
  refine guarantees_bind_except (guarantees_orFail (quiet_pushBatch _)) fun outcomes => ?_
  split
  · exact guarantees_pure_except _
  all_goals exact guarantees_throw_except _

lemma quiet_keepServer {e : ClientError}
    (h : Runs (keepServer d user uuid version).run tr (.error e)) : Every (Quiet d) tr := by
  unfold keepServer at h
  rcases runs_bind_except.mp h with ⟨payload, tr₁, tr₂, rfl, h₁, h₂⟩ | ⟨_, h₁, -⟩
  · rcases runs_bind_except.mp h₂ with ⟨gen, tr₃, tr₄, rfl, h₃, h₄⟩ | ⟨_, h₃, -⟩
    · rcases runs_bind_except.mp h₄ with ⟨cursor, tr₅, tr₆, rfl, h₅, h₆⟩ | ⟨_, h₅, -⟩
      · rcases runs_persistSyncedPage h₆ with ⟨-, hquiet⟩ | ⟨hr, -⟩
        · obtain ⟨_, _, rfl, -⟩ := runs_readMemory.mp h₃
          obtain ⟨_, _, rfl, -⟩ := runs_readMemory.mp h₅
          refine List.forall_mem_append.mpr
            ⟨h₁.every (guarantees_orFail (quiet_fetchPayload _ _)), ?_⟩
          exact List.forall_mem_cons.mpr ⟨rfl, List.forall_mem_cons.mpr ⟨rfl, hquiet⟩⟩
        · cases hr
      · obtain ⟨_, _, -, hr⟩ := runs_readMemory.mp h₅
        cases hr
    · obtain ⟨_, _, -, hr⟩ := runs_readMemory.mp h₃
      cases hr
  · exact h₁.every (guarantees_orFail (quiet_fetchPayload _ _))

/-- The memory is looked at first. -/
lemma runs_resolveConflict {force : Bool} {r : Except ClientError Unit}
    (h : Runs (resolveConflict X d uuid version force).run tr r) :
    (∃ e, r = .error e) ∧ Every (Quiet d) tr ∨ ∃ user t tr', tr = t ++ tr' ∧
      (∀ ev ∈ t, ev.name = (d, .memory) ∧ ev.post = ev.pre) ∧
      Runs (if force then pushLocal X d user uuid version
        else keepServer d user uuid version).run tr' r := by
  rw [resolveConflict_eq] at h
  rcases runs_bind_except.mp h with ⟨⟨⟩, tr₁, tr₂, rfl, h₁, h₂⟩ | ⟨e, h₁, rfl⟩
  · obtain ⟨e₁, w₁, rfl⟩ := runs_requireUnlocked h₁
    rcases runs_bind_except.mp h₂ with ⟨user, tr₃, tr₄, rfl, h₃, h₄⟩ | ⟨e, h₃, rfl⟩
    · obtain ⟨e₃, w₃, rfl, -⟩ := runs_require h₃
      exact .inr ⟨user, [_, _], tr₄, rfl, by simp, h₄⟩
    · obtain ⟨e₃, w₃, rfl, -⟩ := runs_require h₃
      exact .inl ⟨⟨e, rfl⟩, by simp [Every, Quiet]⟩
  · obtain ⟨e₁, w₁, rfl⟩ := runs_requireUnlocked h₁
    exact .inl ⟨⟨e, rfl⟩, by simp [Every, Quiet]⟩

lemma promise_iff {force : Bool} {r : Except ClientError CmdReply}
    (h : Runs (exec X d (.resolveConflict uuid version force)).run tr r) :
    Promise d uuid version tr force r ↔ Lucky d uuid version tr force r := by
  have herror : ∀ {e : ClientError},
      Runs (resolveConflict X d uuid version force).run tr (.error e) →
      (Promise d uuid version tr force (.error e) ↔ Lucky d uuid version tr force (.error e)) := by
    intro e h
    have hquiet : Every (Quiet d) tr := by
      rcases runs_resolveConflict h with ⟨-, hquiet⟩ | ⟨user, t, tr', rfl, ht, h⟩
      · exact hquiet
      · refine List.forall_mem_append.mpr ⟨fun ev hev =>
            congrArg (fun w : World => w.devices d) (ht ev hev).2, ?_⟩
        cases force with
        | true => exact h.every quiet_pushLocal
        | false => exact quiet_keepServer h
    cases force <;> exact iff_of_true hquiet trivial
  rcases runs_bind_except.mp h with ⟨⟨⟩, tr₁, tr₂, rfl, h₁, h₂⟩ | ⟨e, h₁, rfl⟩
  · obtain ⟨rfl, rfl⟩ := runs_pure_except.mp h₂
    rw [List.append_nil] at *
    rcases runs_resolveConflict h₁ with ⟨⟨e, hr⟩, -⟩ | ⟨user, t, tr', rfl, ht, h⟩
    · cases hr
    cases force with
    | true => exact promise_push_iff (pushes_of_runs (fun ev hev => (ht ev hev).2) h) _
    | false =>
      obtain ⟨row, gen, o, p, hkeeps⟩ := keeps_of_runs (fun ev hev => (ht ev hev).1) h
      exact promise_keep_iff hkeeps _
  · exact herror h₁

/-! ### Every call of every run -/

variable {w : World} {as : List WorldAct} {c : Call} {force : Bool}
  {r : Except ClientError CmdReply}

lemma promise_iff_of_mem (hc : c ∈ (run (code X) (init w) as).calls)
    (hreq : c.req = .client d (.resolveConflict uuid version force))
    (hres : c.prog.result = some (.client r)) :
    Promise d uuid version c.trace force r ↔ Lucky d uuid version c.trace force r := by
  have hruns := run_runs (code X) w as c hc _ hres
  rw [hreq] at hruns
  obtain ⟨r', hr, hruns⟩ := runs_map.mp hruns
  cases hr
  exact promise_iff hruns

/-- **When a conflict is resolved.** For every call of every run of any devices and others: if it
is to keep the server's side and succeeds, the item on the device is the server's row, if and only
if that row is live and of the device's generation; if it is to push the local side and succeeds,
the local version is the server's new one, if and only if it was that before; and if it fails,
nothing has changed on the device. -/
theorem resolves_iff (X : Ext Blob) (w : World) (as : List WorldAct) :
    ∀ c ∈ (run (code X) (init w) as).calls, Resolves c ↔ Favoured c := by
  intro c hc
  constructor
  · exact fun h d uuid version force hreq r hres =>
      (promise_iff_of_mem hc hreq hres).mp (h d uuid version force hreq r hres)
  · exact fun h d uuid version force hreq r hres =>
      (promise_iff_of_mem hc hreq hres).mpr (h d uuid version force hreq r hres)

instance : Decidable (Lucky d uuid version tr force r) :=
  match force, r with
  | true, .error _ => inferInstanceAs (Decidable True)
  | false, .error _ => inferInstanceAs (Decidable True)
  | false, .ok _ => inferInstanceAs (Decidable (∃ row ∈ found tr, _ ∧ _))
  | true, .ok _ => inferInstanceAs (Decidable (∃ last ∈ tr.getLast?, _))

open RotationAgreement (anyUuid oneItem) in
/-- A device keeps the server's side of an item of its own generation. -/
theorem current_item_kept :
    ∃ as, ∃ c ∈ (run (code anyUuid) (init oneItem) as).calls,
      c.prog.result = some (.client (.ok .done)) ∧ Resolves c := by
  obtain ⟨c, hc, hreq⟩ := Option.map_eq_some_iff.mp (req_of_call (h := code anyUuid)
    (init oneItem) [] (List.replicate 12 (.exec 0 ⟨0, 0, false, 0⟩))
    (.client 1 (.resolveConflict 3 1 false)))
  have hend : ∀ c ∈ (run (code anyUuid) (init oneItem)
      ([] ++ .call (.client 1 (.resolveConflict 3 1 false)) ::
        List.replicate 12 (.exec 0 ⟨0, 0, false, 0⟩))).calls[0]?,
      c.prog.result = some (.client (.ok .done)) ∧ Lucky 1 3 1 c.trace false (.ok .done) := by
    decide +kernel
  obtain ⟨hres, hlucky⟩ := hend c hc
  have hmem := List.mem_of_getElem? hc
  refine ⟨_, c, hmem, hres, (resolves_iff anyUuid oneItem _ c hmem).mpr ?_⟩
  intro d uuid version force hreq' r hres'
  cases hreq.symm.trans hreq'
  cases hres.symm.trans hres'
  exact hlucky

/-- A call that succeeds without luck. -/
lemma unresolved (X : Ext Blob) (w : World) (before after : List WorldAct) (d : ℕ)
    (uuid : Ident) (version : UInt64) (force : Bool) (r : Except ClientError CmdReply)
    (hun : ∀ c ∈ (run (code X) (init w) (before ++
        .call (.client d (.resolveConflict uuid version force)) :: after)).calls[
          (run (code X) (init w) before).calls.length]?,
      c.prog.result = some (.client r) ∧ ¬Lucky d uuid version c.trace force r) :
    ∃ as, ∃ c ∈ (run (code X) (init w) as).calls, ¬Resolves c := by
  obtain ⟨c, hc, hreq⟩ := Option.map_eq_some_iff.mp (req_of_call (h := code X) (init w) before after
    (.client d (.resolveConflict uuid version force)))
  have hmem := List.mem_of_getElem? hc
  obtain ⟨hres, hlucky⟩ := hun c hc
  exact ⟨_, c, hmem, fun h => hlucky ((promise_iff_of_mem hmem hreq hres).mp
    (h d uuid version force hreq r hres))⟩

open RotationAgreement (anyUuid oneItem) in
/-- A device keeps the server's side of an item that another device has rotated. -/
theorem rotated_item_kept :
    ∃ as, ∃ c ∈ (run (code anyUuid) (init oneItem) as).calls, ¬Resolves c :=
  unresolved anyUuid oneItem
    (.call (.client 0 (.rotateKey 2)) :: List.replicate 31 (.exec 0 ⟨0, 0, false, 200⟩))
    (List.replicate 12 (.exec 1 ⟨0, 0, false, 0⟩)) 1 3 2 false (.ok .done) (by decide +kernel)

end Vautr.ConflictChoice
