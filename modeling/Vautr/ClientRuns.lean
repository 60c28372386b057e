import Vautr.Executions
import Vautr.Orchestrator
import Vautr.PushRuns

/-!
Whole executions of the operations of a client.

A statement of a client is a look at its memory, a statement on its own database, a message, or a
statement of the server that runs for it; the last two leave the device as it is.
-/

namespace Vautr.ClientRuns

open Vautr.Atomic Vautr.Sql Vautr.Database Vautr.Api Vautr.Server Vautr.Handlers Vautr.ClientDb
  Vautr.Crypto Vautr.Client Vautr.Zoom Vautr.Executions Vautr.Interleave Vautr.Orchestrator

abbrev ClientEv := Ev World ClientEnv Name

/-- The statement left the device `d` as it was. -/
def Quiet (d : ℕ) (ev : ClientEv) : Prop := ev.post.devices d = ev.pre.devices d

variable {X : Ext Blob} {d : ℕ} {α ε : Type} {tr : List ClientEv} {user uuid : Ident}

/-! ### Parts of an operation -/

lemma runs_readMemory {g : Memory → α} {r : Except ε α} :
    Runs (readMemory d g : ExceptT ε Code α).run tr r ↔
      ∃ e w, tr = [⟨(d, .memory), e, w, w⟩] ∧ r = .ok (g (w.devices d).mem) := by
  unfold readMemory onMemory
  rw [ExceptT.run_mk, runs_atom]
  refine exists_congr fun e => exists_congr fun w => ?_
  dsimp only
  rw [World.setDevice_eq_self]

lemma runs_onDb {l : Label} {context : String} {g : LocalDb Blob → Option (LocalDb Blob × α)}
    {r : Except ClientError α} (h : Runs (onDb d l context g).run tr r) : ∃ e w,
      tr = [⟨(d, l), e, w, w⟩] ∧ r = .error (.db context) ∨
      ∃ db a, g (w.devices d).db = some (db, a) ∧ r = .ok a ∧
        tr = [⟨(d, l), e, w, w.setDevice d { w.devices d with db }⟩] := by
  obtain ⟨e, w, rfl, rfl⟩ := runs_atom.mp h
  refine ⟨e, w, ?_⟩
  cases e.fault with
  | true => exact .inl ⟨rfl, rfl⟩
  | false =>
    cases hg : g (w.devices d).db with
    | none => exact .inl ⟨by simp, by simp⟩
    | some r => exact .inr ⟨r.1, r.2, rfl, by simp, by simp⟩

lemma runs_readDb {l : Label} {context : String} {g : LocalDb Blob → α} {r : Except ClientError α}
    (h : Runs (readDb d l context g).run tr r) :
    ∃ e w, tr = [⟨(d, l), e, w, w⟩] ∧
      r = if e.fault then .error (.db context) else .ok (g (w.devices d).db) := by
  obtain ⟨e, w, rfl, rfl⟩ := runs_atom.mp h
  have hw : w.setDevice d ⟨(w.devices d).db, (w.devices d).mem⟩ = w := World.setDevice_eq_self w d
  refine ⟨e, w, ?_⟩
  cases e.fault <;> simp [hw]

lemma runs_writeDb {l : Label} {context : String} {g : LocalDb Blob → LocalDb Blob}
    {r : Except ClientError Unit} (h : Runs (writeDb d l context g).run tr r) :
    ∃ e w, tr = [⟨(d, l), e, w,
      if e.fault then w else w.setDevice d { w.devices d with db := g (w.devices d).db }⟩] := by
  obtain ⟨e, w, rfl, -⟩ := runs_atom.mp h
  refine ⟨e, w, ?_⟩
  cases e.fault <;> simp

lemma runs_lift {p : Code α} {r : Except ε α} :
    Runs (ExceptT.lift p : ExceptT ε Code α).run tr r ↔ ∃ a, r = .ok a ∧ Runs p tr a := by
  have : (ExceptT.lift p : ExceptT ε Code α).run = p >>= fun a => .ret (.ok a) := by
    rw [ExceptT.run_lift]
    rfl
  rw [this, runs_map]

lemma runs_inspect {ε' : Type} {x : ExceptT ε Code α} {r : Except ε' (Except ε α)} :
    Runs (inspect x).run tr r ↔ ∃ r', r = .ok r' ∧ Runs x.run tr r' := runs_lift

lemma runs_orFail {context : String} {x : Net α} {r : Except ClientError α} :
    Runs (orFail context x).run tr r ↔ ∃ r', r = r'.mapError (.net context) ∧ Runs x.run tr r' :=
  runs_map

/-- A value that the operation needs is in memory, or the operation ends there. -/
lemma runs_require {msg : String} {g : Memory → Option α} {r : Except ClientError α}
    (h : Runs (require d msg g).run tr r) : ∃ e w, tr = [⟨(d, .memory), e, w, w⟩] ∧
      ∀ a, r = .ok a → g (w.devices d).mem = some a := by
  unfold require at h
  rcases runs_bind_except.mp h with ⟨o, tr₁, tr₂, rfl, h₁, h₂⟩ | ⟨e, h₁, -⟩
  · obtain ⟨e, w, rfl, ho⟩ := runs_readMemory.mp h₁
    cases Except.ok.inj ho
    refine ⟨e, w, ?_⟩
    cases hg : g (w.devices d).mem with
    | none =>
      rw [hg] at h₂
      obtain ⟨rfl, rfl⟩ := h₂
      exact ⟨rfl, fun _ h => by cases h⟩
    | some b =>
      rw [hg] at h₂
      obtain ⟨rfl, rfl⟩ := h₂
      exact ⟨rfl, fun _ h => congrArg some (Except.ok.inj h)⟩
  · obtain ⟨_, _, -, hr⟩ := runs_readMemory.mp h₁
    cases hr

lemma runs_requireUnlocked {r : Except ClientError Unit} (h : Runs (requireUnlocked d).run tr r) :
    ∃ e w, tr = [⟨(d, .memory), e, w, w⟩] := by
  unfold requireUnlocked at h
  rcases runs_bind_except.mp h with ⟨b, tr₁, tr₂, rfl, h₁, h₂⟩ | ⟨e, h₁, -⟩
  · obtain ⟨e, w, rfl, -⟩ := runs_readMemory.mp h₁
    cases b <;> exact ⟨e, w, by rw [h₂.1]; rfl⟩
  · obtain ⟨_, _, -, hr⟩ := runs_readMemory.mp h₁
    cases hr

/-- An answer arrives only to a request that arrived. -/
lemma runs_roundTrip_ok {answer : Except ApiError α → Label} {x : ServerHandler Blob α} {a : α}
    (h : Runs (roundTrip d answer x).run tr (.ok a)) :
    ∃ s t f, tr = s :: t ++ [f] ∧ s.name = (d, .send) ∧ s.post = s.pre ∧
      Runs (zoom (onServer d) x.run) t (.ok a) ∧ f.name = (d, answer (.ok a)) ∧
      f.post = f.pre := by
  unfold roundTrip message at h
  rcases runs_bind_except.mp h with ⟨⟨⟩, tr₁, tr₂, rfl, h₁, h₂⟩ | ⟨e, -, hr⟩
  · obtain ⟨e₁, w₁, rfl, -⟩ := runs_atom.mp h₁
    rcases runs_bind_except.mp h₂ with ⟨b, t, tr₃, rfl, hx, h₃⟩ | ⟨e, -, hr⟩
    · obtain ⟨r, hr, hrun⟩ := runs_lift.mp hx
      cases hr
      obtain ⟨e₃, w₃, rfl, hr⟩ := runs_atom.mp h₃
      by_cases hf : e₃.fault = true
      · simp [hf] at hr
      · cases b with
        | error e => simp [hf, Except.mapError] at hr
        | ok a' =>
          simp only [hf, Bool.false_eq_true, if_false, Except.mapError, Except.ok.injEq] at hr
          subst hr
          exact ⟨_, t, _, rfl, rfl, rfl, hrun, rfl, rfl⟩
    · cases hr
  · cases hr

/-- A request with which nothing fails brings the answer of the server. -/
lemma runs_roundTrip_of_faultless {answer : Except ApiError α → Label} {x : ServerHandler Blob α}
    {r : Except TransportError α} (h : Runs (roundTrip d answer x).run tr r)
    (hok : ∀ ev ∈ tr, ev.inp.fault = false) :
    ∃ s t f r', tr = s :: t ++ [f] ∧ s.name = (d, .send) ∧ s.post = s.pre ∧
      Runs (zoom (onServer d) x.run) t r' ∧ f.name = (d, answer r') ∧ f.post = f.pre ∧
      r = r'.mapError httpErr := by
  unfold roundTrip message at h
  rcases runs_bind_except.mp h with ⟨⟨⟩, tr₁, tr₂, rfl, h₁, h₂⟩ | ⟨e, h₁, -⟩
  rotate_left
  · obtain ⟨e₁, w₁, rfl, hr⟩ := runs_atom.mp h₁
    simp [show e₁.fault = false from hok ⟨(d, .send), e₁, w₁, w₁⟩ (by simp)] at hr
  obtain ⟨e₁, w₁, rfl, -⟩ := runs_atom.mp h₁
  rcases runs_bind_except.mp h₂ with ⟨b, t, tr₃, rfl, hx, h₃⟩ | ⟨e, hx, -⟩
  rotate_left
  · obtain ⟨_, hr, -⟩ := runs_lift.mp hx
    cases hr
  obtain ⟨r', hr, hrun⟩ := runs_lift.mp hx
  cases hr
  obtain ⟨e₃, w₃, rfl, hr⟩ := runs_atom.mp h₃
  have he₃ : e₃.fault = false := hok ⟨(d, answer b), e₃, w₃, w₃⟩ (by simp)
  simp only [he₃, Bool.false_eq_true, if_false] at hr
  exact ⟨_, t, _, b, rfl, rfl, rfl, hrun, rfl, rfl, hr⟩

/-- A page is stored as a whole, or the device stays as it is. -/
lemma runs_persistSyncedPage {upserts : List (PulledOverview × Blob)} {deletes : List Ident}
    {cursor : UInt64} {r : Except ClientError Unit}
    (h : Runs (persistSyncedPage d upserts deletes cursor).run tr r) :
    (∃ e, r = .error e) ∧ Every (Quiet d) tr ∨
      r = .ok () ∧ ∃ m p b minGen db, tr = [m, p, b] ∧ m.name = (d, .memory) ∧
        p.name = (d, .persistPage (upserts.map (·.1.uuid))) ∧ b.name = (d, .publish) ∧
        applySyncBatchTxn (upserts.map fun u => PulledOverview.row u.1)
          (upserts.map fun u => ⟨u.1.uuid, u.2⟩) deletes (asI64 cursor) minGen
          (p.pre.devices d).db = some db ∧
        (p.post.devices d).db = db := by
  unfold persistSyncedPage at h
  rcases runs_bind_except.mp h with ⟨gen, tr₁, tr₂, rfl, h₁, h₂⟩ | ⟨e, h₁, -⟩
  rotate_left
  · obtain ⟨_, _, -, hr⟩ := runs_readMemory.mp h₁
    cases hr
  obtain ⟨e₁, w₁, rfl, -⟩ := runs_readMemory.mp h₁
  rcases runs_bind_except.mp h₂ with ⟨⟨⟩, tr₃, tr₄, rfl, h₃, h₄⟩ | ⟨e, h₃, rfl⟩
  · obtain ⟨e₃, w₃, ⟨-, hr⟩ | ⟨db, ⟨⟩, hg, -, rfl⟩⟩ := runs_onDb h₃
    · cases hr
    obtain ⟨e₄, w₄, rfl, rfl⟩ := runs_atom.mp h₄
    obtain ⟨db', hpage, heq⟩ := Option.map_eq_some_iff.mp hg
    obtain ⟨rfl, -⟩ := Prod.mk.inj heq
    exact .inr ⟨rfl, _, _, _, _, db', rfl, rfl, rfl, rfl, hpage, by simp⟩
  · obtain ⟨e₃, w₃, ⟨rfl, -⟩ | ⟨_, _, -, hr, -⟩⟩ := runs_onDb h₃
    · exact .inl ⟨⟨e, rfl⟩, by simp [Every, Quiet]⟩
    · cases hr

/-- The server delivers the payload of a row that has the version that was asked for. -/
lemma runs_fetchPayload_ok {version : UInt64} {payload : Blob}
    (h : Runs (fetchPayload d user uuid version).run tr (.ok payload)) :
    ∃ s f a row, tr = [s, f, a] ∧ s.name = (d, .send) ∧
      f.name = (d, .server (.getItem uuid user)) ∧ a.name = (d, .receive) ∧
      f.pre.server.items.get (uuid, user) = some row ∧ asU64 row.version = version ∧
      row.payload = some payload := by
  unfold fetchPayload at h
  rcases runs_bind_except.mp h with ⟨rs, tr₁, tr₂, rfl, h₁, h₂⟩ | ⟨e, -, hr⟩
  rotate_left
  · cases hr
  obtain ⟨rfl, hdelivered⟩ : tr₂ = [] ∧ Except.ok payload = delivered rs := h₂
  obtain ⟨s, t, a, rfl, hs, -, hrun, ha, -⟩ := runs_roundTrip_ok h₁
  obtain ⟨t₀, hrun, hshow⟩ := runs_zoom hrun
  rw [syncPullPayloads, if_neg (by simp), pullPayloads] at hrun
  rcases runs_bind_except.mp hrun with ⟨row, t₁, t₂, rfl, hget, hrest⟩ | ⟨e, -, hr⟩
  rotate_left
  · cases hr
  rcases runs_bind_except.mp hrest with ⟨l, t₃, t₄, rfl, hnil, hpure⟩ | ⟨e, -, hr⟩
  rotate_left
  · cases hr
  obtain ⟨rfl, hl⟩ := runs_pure_except.mp hnil
  obtain ⟨rfl, hrs⟩ := runs_pure_except.mp hpure
  cases hl
  cases hrs
  obtain ⟨r, hr, hsel⟩ := runs_orInternal.mp hget
  obtain ⟨e, s₀, rfl, rfl⟩ := runs_select.mp hsel
  obtain _ | ⟨hf, _ | _⟩ := hshow
  next f =>
  split at hr
  · cases hr
  have hpre : s₀ = f.pre.server := hf.pre
  cases hr
  cases hrow : s₀.items.get (uuid, user) with
  | none => simp [payloadResult, hrow, delivered] at hdelivered
  | some row =>
    simp only [payloadResult, hrow, delivered] at hdelivered
    split at hdelivered
    · next hv =>
      cases hp : row.payload with
      | none => simp [hp] at hdelivered
      | some p =>
        simp only [hp, if_true, Except.ok.injEq] at hdelivered
        exact ⟨s, f, a, row, rfl, hs, hf.name, ha, hpre ▸ hrow, hv, by rw [hp, hdelivered]⟩
    · simp at hdelivered

instance : Nonempty (Db Blob) := ⟨⟨.empty, .empty⟩⟩

/-- The outcomes of a push that reach the device are those of its items at the server. -/
lemma runs_pushBatch_ok {items : List Pushed} {outcomes : List PushOutcome}
    (h : Runs (pushBatch X d user items).run tr (.ok outcomes)) :
    ∃ c s t f now now' ev t' rs, tr = c :: s :: t ++ [f] ∧ c.post = c.pre ∧ s.post = s.pre ∧
      f.name = (d, .receive) ∧ f.post = f.pre ∧
      List.Forall₂ (Shows (onServer d)) (ev :: t') t ∧ ev.post = ev.pre ∧
      PushRuns.PushedAll user now' (items.map (Pushed.toItem now)) t' rs ∧
      outcomes = rs.map PushResult.outcome ∧ items.length ≤ 100 := by
  unfold pushBatch at h
  rcases runs_bind_except.mp h with ⟨now, tr₁, tr₂, rfl, h₁, h₂⟩ | ⟨e, -, hr⟩
  rotate_left
  · cases hr
  obtain ⟨e₁, w₁, rfl, -⟩ := runs_atom.mp h₁
  rcases runs_bind_except.mp h₂ with ⟨rs, tr₃, tr₄, rfl, h₃, h₄⟩ | ⟨e, -, hr⟩
  rotate_left
  · cases hr
  obtain ⟨rfl, hr⟩ := h₄
  cases hr
  obtain ⟨s, t, f, rfl, -, hs, hrun, hf, hpost⟩ := runs_roundTrip_ok h₃
  obtain ⟨t₀, hrun, hshow⟩ := runs_zoom hrun
  obtain ⟨now', ev, t', rfl, hev, hall⟩ := PushRuns.runs_syncPushBatch hrun
  have hw : w₁.setDevice d ⟨(w₁.devices d).db, (w₁.devices d).mem⟩ = w₁ :=
    World.setDevice_eq_self w₁ d
  exact ⟨⟨(d, .clock), e₁, w₁, w₁⟩, s, t, f, now, now', ev, t', rs, by simp [hw], rfl, hs, hf,
    hpost, hshow, hev, hall, rfl, by simpa using PushRuns.length_le_of_runs hrun⟩

/-- What the statements of the server found that ran for a device. -/
def served (tr : List ClientEv) : List (Db Blob × Stmt) :=
  tr.filterMap fun ev => match ev.name.2 with
    | .server l => some (ev.pre.server, l)
    | _ => none

lemma served_append (tr tr' : List ClientEv) : served (tr ++ tr') = served tr ++ served tr' :=
  List.filterMap_append

lemma served_of_shows {t : List (DbEv Blob)} {t' : List ClientEv}
    (h : List.Forall₂ (Shows (onServer d)) t t') : served t' = PushRuns.seen t := by
  induction h with
  | nil => rfl
  | @cons ev ev' _ _ hshow _ ih =>
    have hname : ev'.name = (d, .server ev.name) := hshow.name
    have hpre : ev.pre = ev'.pre.server := hshow.pre
    rw [PushRuns.seen, List.map_cons, ← PushRuns.seen, ← ih, hpre]
    simp [served, hname]

/-- What a push with which nothing fails has run: it looks at the clock and sends the items, and the
server answers for them. -/
lemma runs_pushBatch_of_faultless {items : List Pushed}
    {r : Except TransportError (List PushOutcome)} (hle : items.length ≤ 100)
    (h : Runs (pushBatch X d user items).run tr r) (hok : ∀ ev ∈ tr, ev.inp.fault = false) :
    ∃ c s t f now now' ev t' r', tr = c :: s :: t ++ [f] ∧
      (c.name = (d, .clock) ∧ c.post = c.pre) ∧ (s.name = (d, .send) ∧ s.post = s.pre) ∧
      (f.name = (d, .receive) ∧ f.post = f.pre) ∧ List.Forall₂ (Shows (onServer d)) (ev :: t') t ∧
      ev.post = ev.pre ∧ PushRuns.itemOf ev.name = none ∧
      Runs (pushItems X user now' (items.map (Pushed.toItem now))).run t' r' ∧
      r.toOption = r'.toOption.map (·.map PushResult.outcome) := by
  unfold pushBatch at h
  rcases runs_bind_except.mp h with ⟨now, tr₁, tr₂, rfl, h₁, h₂⟩ | ⟨e, h₁, -⟩
  rotate_left
  · obtain ⟨_, _, -, hr⟩ := runs_atom.mp h₁
    cases hr
  obtain ⟨e₁, w₁, rfl, -⟩ := runs_atom.mp h₁
  have hw : w₁.setDevice d ⟨(w₁.devices d).db, (w₁.devices d).mem⟩ = w₁ :=
    World.setDevice_eq_self w₁ d
  have htrip : ∃ r₁, Runs (roundTrip d (fun _ => .receive) (syncPushBatch X
      ⟨user, items.map (Pushed.toItem now)⟩)).run tr₂ r₁ ∧
      r.toOption = r₁.toOption.map (·.map PushResult.outcome) := by
    rcases runs_bind_except.mp h₂ with ⟨rs, tr₃, tr₄, rfl, h₃, rfl, rfl⟩ | ⟨e, h₃, rfl⟩
    · exact ⟨_, by rwa [List.append_nil], rfl⟩
    · exact ⟨_, h₃, rfl⟩
  obtain ⟨r₁, htrip, hr⟩ := htrip
  obtain ⟨s, t, f, r', rfl, hs, hs', hrun, hf, hf', rfl⟩ := runs_roundTrip_of_faultless htrip
    fun ev hev => hok ev (List.mem_append_right _ hev)
  obtain ⟨t₀, hrun, hshow⟩ := runs_zoom hrun
  obtain ⟨now', ev, t', rfl, hev, hitem, hrun⟩ :=
    PushRuns.runs_syncPushBatch_of_le (by simpa using hle) hrun
  refine ⟨⟨(d, .clock), e₁, w₁, w₁⟩, s, t, f, now, now', ev, t', r', by simp [hw], ⟨rfl, rfl⟩,
    ⟨hs, hs'⟩, ⟨hf, hf'⟩, hshow, hev, hitem, hrun, ?_⟩
  rw [hr]
  cases r' <;> rfl

/-! ### What leaves the device as it is -/

section Quiet

variable {rely : Name → World → World → Prop}

lemma quiet_roundTrip {answer : Except ApiError α → Label} (x : ServerHandler Blob α) (d' : ℕ) :
    Guarantees rely (Quiet d') (roundTrip d answer x).run :=
  guarantees_roundTrip (guarantees_true _) (fun _ _ => rfl)
    (fun _ _ _ _ _ => rfl) fun _ _ _ => rfl

lemma quiet_fetchPayload (version : UInt64) (d' : ℕ) :
    Guarantees rely (Quiet d') (fetchPayload d user uuid version).run :=
  guarantees_bind_except (quiet_roundTrip _ d') fun _ => guarantees_ret _

lemma quiet_pushBatch (items : List Pushed) :
    Guarantees rely (Quiet d) (pushBatch X d user items).run :=
  guarantees_bind_except (guarantees_onMemory fun _ _ => World.setDevice_self _ _ _) fun _ =>
    guarantees_bind_except (quiet_roundTrip _ d) fun _ => guarantees_pure_except _

instance : Nonempty World :=
  ⟨⟨⟨.empty, .empty⟩, fun _ => ⟨⟨.empty, .empty, .empty, .empty, .empty, .empty⟩, .new⟩⟩⟩

end Quiet

/-! ### Devices and others -/

inductive WorldReq
  | client (d : ℕ) (q : Cmd)
  | server (d : ℕ) (q : Handlers.Req Blob)

inductive WorldReply
  | client (r : Except ClientError CmdReply)
  | server (r : Handlers.Reply)
  deriving DecidableEq

def code (X : Ext Blob) : WorldReq → Code WorldReply
  | .client d q => (exec X d q).run >>= fun r => .ret (.client r)
  | .server d q => zoom (onServer d) (serve X q) >>= fun r => .ret (.server r)

abbrev WorldAct := Act WorldReq ClientEnv

abbrev Call := Interleave.Call WorldReq World ClientEnv Name WorldReply

/-- The row that a statement of the server read. -/
def readRow (ev : ClientEv) : Option (ItemRow Blob) :=
  match ev.name.2 with
  | .server (.getItem uuid user) => ev.pre.server.items.get (uuid, user)
  | _ => none

end Vautr.ClientRuns
