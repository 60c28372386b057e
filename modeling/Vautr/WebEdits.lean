import Vautr.Push
import Vautr.WebClient

/-!
Local edits and unseen server versions, over every run of the web client.

An edit is stored as a pending item, and three things may replace or drop what is stored: a
pulled tombstone, a pulled payload and a deletion event. None of them looks whether the item is
pending. A push that is refused takes over the version it was told, so that the next push
overwrites a version that nobody here has seen.

As long as none of this meets an open edit (one that has not reached the server, was not given
up and was not reported as a conflict), and no item is pushed at a version it was only told,
every open edit stays stored and pending, and a push overwrites only versions that were stored
here or chosen to be overwritten.
-/

namespace Vautr.WebEdits

open Vautr.Atomic Vautr.Interleave Vautr.Sql Vautr.Database Vautr.Api Vautr.Server Vautr.Handlers
  Vautr.Push Vautr.Crypto Vautr.Client Vautr.Zoom Vautr.WebClient

/-! ### The server -/

/-- From `s` to `s'` no row goes, versions stay positive, and a row that changes is in `H`. -/
structure Rewrites (H : ItemRow Blob → Prop) (s s' : Db Blob) : Prop where
  positive : (∀ r ∈ s.items.rows, 1 ≤ r.version) → ∀ r ∈ s'.items.rows, 1 ≤ r.version
  rows : ∀ k, (s.items.get k).isSome → (s'.items.get k).isSome
  stays : ∀ r ∈ s.items.rows, r ∈ s'.items.rows ∨ H r

def Rewriting (H : ItemRow Blob → Prop) (ev : DbEv Blob) : Prop := Rewrites H ev.pre ev.post

variable {H : ItemRow Blob → Prop} {s s' : Db Blob}

lemma rewrites_of_items (h : s'.items = s.items) : Rewrites H s s' := by
  refine ⟨?_, ?_, ?_⟩ <;> rw [h]
  · exact id
  · exact fun _ => id
  · exact fun r hr => .inl hr

lemma Rewrites.mono {H' : ItemRow Blob → Prop} (hH : ∀ r, H r → H' r) (h : Rewrites H s s') :
    Rewrites H' s s' :=
  ⟨h.positive, h.rows, fun r hr => (h.stays r hr).imp_right (hH r)⟩

/-- The row is at the version that the call wants to replace. -/
def Target (q : Upsert Blob) (r : ItemRow Blob) : Prop :=
  r.uuid = q.uuid ∧ r.version = q.targetVersion

lemma rewrites_update (q : Upsert Blob) (n : ℤ) (s : Db Blob) :
    Rewrites (Target q) s { s with items := s.items.update q.hits (q.set n) (q.set_key n) } := by
  refine ⟨fun hpos r hr => ?_, fun k hk => ?_, fun r hr => ?_⟩
  · obtain ⟨r', hr', rfl⟩ := List.mem_map.mp hr
    have := hpos r' hr'
    split
    · simp only [Upsert.set]
      omega
    · exact this
  · simpa using hk
  · by_cases hit : q.hits r = true
    · simp only [Upsert.hits, Bool.and_eq_true, decide_eq_true_eq] at hit
      exact .inr ⟨hit.1.1, hit.2⟩
    · exact .inl (List.mem_map.mpr ⟨r, hr, by simp [hit]⟩)

lemma rewrites_insert {q : Upsert Blob} {n : ℤ} {items : Table ItemRow.key}
    (hins : s.items.insert (q.row 1 n) = some items) : Rewrites H s { s with items } := by
  have hrows := (Table.insert_eq_some hins).2
  refine ⟨fun hpos r hr => ?_, fun k hk => ?_, fun r hr => .inl ?_⟩
  · rw [hrows] at hr
    rcases List.mem_append.mp hr with hr | hr
    · exact hpos r hr
    · rw [List.mem_singleton.mp hr]
      exact le_refl _
  · rw [Table.get_insert hins]
    split
    · rfl
    · exact hk
  · rw [hrows]
    exact List.mem_append_left _ hr

lemma rewriting_upsertItemOcc (isUuid : IsUuid) (q : Upsert Blob) :
    Guarantees (fun _ _ _ => True) (Rewriting (Target q)) (upsertItemOcc isUuid q).run := by
  refine guarantees_upsertItemOcc (fun _ _ _ => rewrites_of_items rfl) ?_ fun _ => ?_
  · exact guarantees_statement (fun _ _ => rewrites_of_items rfl) fun _ s => rewrites_update q _ s
  · refine guarantees_statement (fun _ _ => rewrites_of_items rfl) fun _ s => ?_
    cases hins : s.items.insert (q.row 1 (nextSeq s q.userId)) with
    | none => exact rewrites_of_items rfl
    | some items =>
      dsimp only
      split
      · exact rewrites_insert hins
      · exact rewrites_of_items rfl

/-- The row is at a version that one of the items wants to replace. -/
def TargetOne (items : List (PushItem Blob)) (r : ItemRow Blob) : Prop :=
  ∃ i ∈ items, r.uuid = i.uuid ∧ r.version = asI64 i.targetVersion

variable (X : Ext Blob)

lemma rewriting_syncPushBatch (req : PushBatchReq Blob) :
    Guarantees (fun _ _ _ => True) (Rewriting (TargetOne req.items)) (syncPushBatch X req).run :=
  guarantees_syncPushBatch (fun _ _ _ => rewrites_of_items rfl) fun now i hi p _ =>
    guarantees_mono (fun _ => Rewrites.mono fun _ h => ⟨i, hi, h.1, h.2⟩)
      (rewriting_upsertItemOcc X.isUuid (i.upsert req.userId now p))

lemma rewriting_accountRotateKey (req : RotateKeyReq Blob) :
    Guarantees (fun _ _ _ => True) (Rewriting H) (accountRotateKey X req).run :=
  guarantees_accountRotateKey (fun _ _ _ => rewrites_of_items rfl)
    (guarantees_statement (fun _ _ => rewrites_of_items rfl) fun _ _ => rewrites_of_items rfl)
    fun _ _ => guarantees_statement (fun _ _ => rewrites_of_items rfl) fun _ _ =>
      rewrites_of_items rfl

lemma rewriting_serve (req : Req Blob) :
    Guarantees (fun _ _ _ => True) (Rewriting fun _ => True) (serve X req) := by
  cases req with
  | upsert q =>
    exact guarantees_bind (guarantees_mono (fun _ => Rewrites.mono fun _ _ => trivial)
      (rewriting_upsertItemOcc _ q)) fun _ => guarantees_ret _
  | push req =>
    exact guarantees_bind (guarantees_mono (fun _ => Rewrites.mono fun _ _ => trivial)
      (rewriting_syncPushBatch X req)) fun _ => guarantees_ret _
  | rotate req =>
    exact guarantees_bind (rewriting_accountRotateKey X req) fun _ => guarantees_ret _

lemma rewriting_of_reading {α : Type} {p : Prog (Db Blob) Env Stmt α}
    (h : Guarantees (fun _ _ _ => True) Reading p) :
    Guarantees (fun _ _ _ => True) (Rewriting H) p :=
  guarantees_mono (fun _ hev => rewrites_of_items (congrArg _ hev)) h

/-! ### Open edits -/

/-- The items of which a conflict was reported. -/
def reported (bus : List WebUpdate) : List Ident :=
  bus.filterMap fun
    | .conflictDetected ev => some ev.uuid
    | _ => none

/-- The edits of the item are settled: they have reached the server, were given up, or a
conflict was reported. -/
def Closed (w : WebWorld) (uuid : Ident) : Prop :=
  uuid ∈ w.past.acked ∨ uuid ∈ w.past.accepted ∨ uuid ∈ reported w.mem.bus

instance (w : WebWorld) : DecidablePred (Closed w) :=
  fun uuid => inferInstanceAs (Decidable (uuid ∈ _ ∨ uuid ∈ _ ∨ uuid ∈ _))

def Open (w : WebWorld) (x : Ident × Blob) : Prop := x ∈ w.past.edits ∧ ¬Closed w x.1

variable (user : Ident)

/-- The uuid is in use: an item of this client has it, or a row of the server. -/
def Known (w : WebWorld) (uuid : Ident) : Prop :=
  (∃ x ∈ w.past.edits, x.1 = uuid) ∨ (w.server.items.get (uuid, user)).isSome

instance (w : WebWorld) : DecidablePred (Known user w) :=
  fun uuid => inferInstanceAs (Decidable ((∃ x ∈ w.past.edits, x.1 = uuid) ∨ _))

/-- **What the steps only add to.** An edit is new only for an item that is not known. -/
structure Grows (w w' : WebWorld) : Prop where
  fresh : ∀ x ∈ w'.past.edits, x ∈ w.past.edits ∨ ¬Known user w x.1
  edits : w.past.edits ⊆ w'.past.edits
  closed : ∀ uuid, Closed w uuid → Closed w' uuid
  rows : ∀ k, (w.server.items.get k).isSome → (w'.server.items.get k).isSome
  seen : w.past.seen ⊆ w'.past.seen
  chosen : w.past.chosen ⊆ w'.past.chosen
  retargeted : w.past.retargeted ⊆ w'.past.retargeted

variable {user} {w w' : WebWorld} {uuid : Ident}

lemma Grows.refl (w : WebWorld) : Grows user w w :=
  ⟨fun _ => .inl, fun _ => id, fun _ => id, fun _ => id, fun _ => id, fun _ => id, fun _ => id⟩

lemma Grows.known (h : Grows user w w') (hk : Known user w uuid) : Known user w' uuid :=
  hk.imp (fun ⟨x, hx, he⟩ => ⟨x, h.edits hx, he⟩) (h.rows _)

lemma Grows.trans {w'' : WebWorld} (h : Grows user w w') (h' : Grows user w' w'') :
    Grows user w w'' where
  fresh x hx := (h'.fresh x hx).elim (h.fresh x) fun hn => .inr fun hk => hn (h.known hk)
  edits _ hx := h'.edits (h.edits hx)
  closed _ hc := h'.closed _ (h.closed _ hc)
  rows _ hk := h'.rows _ (h.rows _ hk)
  seen _ hx := h'.seen (h.seen hx)
  chosen _ hx := h'.chosen (h.chosen hx)
  retargeted _ hx := h'.retargeted (h.retargeted hx)

variable (user)

/-- This payload may be stored for the item: it is that of the open edit, if there is one. -/
structure Fits (w : WebWorld) (uuid : Ident) (payload : Option Blob) : Prop where
  known : Known user w uuid
  edit : ∀ x, Open w x → x.1 = uuid → payload = some x.2

/-- The item is new, or its version was stored, chosen or told. -/
def Versioned (w : WebWorld) (uuid : Ident) (v : UInt64) : Prop :=
  v = 0 ∨ (uuid, v) ∈ w.past.seen ∨ (uuid, v) ∈ w.past.chosen ∨ (uuid, v) ∈ w.past.retargeted

/-- The item is new, or its version was stored here or chosen to be overwritten. -/
def Licensed (w : WebWorld) (uuid : Ident) (v : UInt64) : Prop :=
  v = 0 ∨ (uuid, v) ∈ w.past.seen ∨ (uuid, v) ∈ w.past.chosen

variable {user}

/-- An edit that is open was open before, unless the item was not known. -/
lemma Grows.open (h : Grows user w w') (hk : Known user w uuid) {x : Ident × Blob}
    (hx : Open w' x) (he : x.1 = uuid) : Open w x :=
  ⟨(h.fresh x hx.1).resolve_right fun hn => hn (he ▸ hk), fun hc => hx.2 (h.closed _ hc)⟩

lemma Grows.fits (h : Grows user w w') {payload : Option Blob} (hf : Fits user w uuid payload) :
    Fits user w' uuid payload :=
  ⟨h.known hf.known, fun x hx he => hf.edit x (h.open hf.known hx he) he⟩

lemma Grows.versioned (h : Grows user w w') {v : UInt64} (hv : Versioned w uuid v) :
    Versioned w' uuid v :=
  hv.imp_right (Or.imp (fun hx => h.seen hx) (Or.imp (fun hx => h.chosen hx) fun hx =>
    h.retargeted hx))

lemma Grows.licensed (h : Grows user w w') {v : UInt64} (hv : Licensed w uuid v) :
    Licensed w' uuid v :=
  hv.imp_right (Or.imp (fun hx => h.seen hx) fun hx => h.chosen hx)

/-! ### What a statement does -/

variable (user) in
/-- **The invariant.** Every open edit is stored and pending. -/
structure Inv (w : WebWorld) : Prop where
  kept : ∀ x, Open w x →
    ∃ i, w.store.items.get x.1 = some i ∧ i.pending = true ∧ i.payload = some x.2
  known : ∀ i ∈ w.store.items.rows, Known user w i.uuid
  versions : ∀ i ∈ w.store.items.rows, Versioned w i.uuid i.version
  rows : ∀ r ∈ w.server.items.rows, 1 ≤ r.version

variable (user) in
/-- **The condition on a step.** No open edit is met by a tombstone that is pulled, by a payload
that is delivered and is not its own, or by a deletion event; what is pushed is not pushed at a
version that was only told; and a new uuid is one that nobody has used. -/
def Spares (w : WebWorld) : WebLabel → Prop
  | .served (.pull cursor) (.pullPage _) =>
    ∀ r ∈ (itemsAfter w.server user (asI64 cursor)).take 100, r.deletedDate.isSome →
      ∀ x ∈ w.past.edits, x.1 = r.uuid → Closed w x.1
  | .served (.pullPayloads targets) (.getItem uuid _) =>
    ∀ r ∈ w.server.items.get (uuid, user), (uuid, asU64 r.version) ∈ targets →
      ∀ b ∈ r.payload, ∀ x ∈ w.past.edits, x.1 = uuid → Closed w x.1 ∨ x.2 = b
  | .dropEvent uuid => ∀ x ∈ w.past.edits, x.1 = uuid → Closed w x.1
  | .batch pending =>
    ∀ i ∈ pending, (i.uuid, i.version) ∈ w.past.retargeted → Licensed w i.uuid i.version
  | .putNew uuid => ¬Known user w uuid
  | _ => True

instance (uuid : Ident) (v : UInt64) : Decidable (Licensed w uuid v) :=
  inferInstanceAs (Decidable (_ ∨ _ ∨ _))

instance : DecidablePred (Spares user w) := fun l => by
  unfold Spares
  split <;> infer_instance

variable (user) in
/-- What is known of a statement before it is run. -/
def Meets (ev : WebEv) : Prop := Inv user ev.pre ∧ Spares user ev.pre ev.name

/-- A push overwrites only what was stored here or chosen to be overwritten. -/
def OverwritesSeen (ev : WebEv) : Prop :=
  match ev.name with
  | .served (.pushBatch _) _ => ∀ r ∈ ev.pre.server.items.rows, r ∈ ev.post.server.items.rows ∨
      (r.uuid, asU64 r.version) ∈ ev.pre.past.seen ∨ (r.uuid, asU64 r.version) ∈ ev.pre.past.chosen
  | _ => True

instance : DecidablePred OverwritesSeen := fun ev => by
  unfold OverwritesSeen
  split <;> infer_instance

variable (user) in
structure Does (ev : WebEv) : Prop where
  inv : Inv user ev.post
  grows : Grows user ev.pre ev.post
  overwrites : OverwritesSeen ev

lemma overwritesSeen_same {ev : WebEv} (h : ev.post.server = ev.pre.server) :
    OverwritesSeen ev := by
  unfold OverwritesSeen
  split
  · rw [h]
    exact fun r hr => .inl hr
  · trivial

lemma Does.same {l : WebLabel} {e : ClientEnv} (h : Inv user w) : Does user ⟨l, e, w, w⟩ :=
  ⟨h, .refl w, overwritesSeen_same rfl⟩

/-- A statement that leaves the server and the items alone. -/
lemma Does.aside {l : WebLabel} {e : ClientEnv} (h : Inv user w) (hserver : w'.server = w.server)
    (hitems : w'.store.items = w.store.items) (hgrows : Grows user w w')
    (hedits : w'.past.edits = w.past.edits) : Does user ⟨l, e, w, w'⟩ := by
  refine ⟨⟨fun x hx => ?_, fun i hi => ?_, fun i hi => ?_, ?_⟩, hgrows, overwritesSeen_same hserver⟩
  · rw [hitems]
    exact h.kept x ⟨hedits ▸ hx.1, fun hc => hx.2 (hgrows.closed _ hc)⟩
  · exact hgrows.known (h.known i (hitems ▸ hi))
  · exact hgrows.versioned (h.versions i (hitems ▸ hi))
  · rw [hserver]
    exact h.rows

/-- What is stored may be stored again. -/
lemma Inv.fits (h : Inv user w) {i : StoredItem} (hi : i ∈ w.store.items.rows) :
    Fits user w i.uuid i.payload := by
  refine ⟨h.known i hi, fun x hx he => ?_⟩
  obtain ⟨i', hi', -, hp⟩ := h.kept x hx
  rw [he, Table.get_of_mem hi, Option.some.injEq] at hi'
  rw [hi', hp]

/-- An item is dropped that has no open edit. -/
lemma Does.drop {l : WebLabel} {e : ClientEnv} (h : Inv user w)
    (hopen : ∀ x, Open w x → x.1 ≠ uuid) : Does user ⟨l, e, w, w.drop uuid⟩ := by
  have hgrows : Grows user w (w.drop uuid) := ⟨fun _ => .inl, fun _ => id, fun _ => id, fun _ => id,
    fun _ => id, fun _ => id, fun _ => id⟩
  refine ⟨⟨fun x hx => ?_, fun i hi => ?_, fun i hi => ?_, h.rows⟩, hgrows, overwritesSeen_same rfl⟩
  · obtain ⟨i, hi, hrest⟩ := h.kept x hx
    refine ⟨i, ?_, hrest⟩
    have hne : i.uuid ≠ uuid := fun he => hopen x hx ((Table.get_key hi).symm.trans he)
    simp [WebWorld.drop, hi, hne]
  · exact h.known i (Table.mem_delete.mp hi).1
  · exact h.versions i (Table.mem_delete.mp hi).1

/-- An item is stored that fits, pending if its edit stays open. -/
lemma Does.put {l : WebLabel} {e : ClientEnv} {i : StoredItem} {past : Past} (h : Inv user w)
    (hgrows : Grows user w { w.put i with past }) (hedits : past.edits = w.past.edits)
    (hfits : Fits user w i.uuid i.payload)
    (hversion : Versioned { w.put i with past } i.uuid i.version)
    (hpending : ∀ x, Open w x → x.1 = i.uuid → i.pending = true ∨
      Closed { w.put i with past } x.1) : Does user ⟨l, e, w, { w.put i with past }⟩ := by
  refine ⟨⟨fun x hx => ?_, fun i' hi' => ?_, fun i' hi' => ?_, h.rows⟩, hgrows,
    overwritesSeen_same rfl⟩
  · have hopen : Open w x := ⟨hedits ▸ hx.1, fun hc => hx.2 (hgrows.closed _ hc)⟩
    by_cases he : i.uuid = x.1
    · refine ⟨i, ?_, (hpending x hopen he.symm).resolve_right hx.2, hfits.edit x hopen he.symm⟩
      simp only [WebWorld.put, Table.get_upsert, he, if_true]
      cases hget : w.store.items.get x.1 with
      | none => rfl
      | some i₀ =>
        have hk : i₀.uuid = i.uuid := (Table.get_key hget).trans he.symm
        simp [StoredItem.replace, hk]
    · obtain ⟨i', hi', hrest⟩ := h.kept x hopen
      exact ⟨i', by simpa [WebWorld.put, he] using hi', hrest⟩
  · rcases Table.mem_upsert hi' with hi' | rfl | ⟨i₀, -, hk, rfl⟩
    · exact hgrows.known (h.known i' hi')
    · exact hgrows.known hfits.known
    · rw [StoredItem.replace_uuid, hk]
      exact hgrows.known hfits.known
  · rcases Table.mem_upsert hi' with hi' | rfl | ⟨i₀, -, hk, rfl⟩
    · exact hgrows.versioned (h.versions i' hi')
    · exact hversion
    · rw [StoredItem.replace_uuid, hk]
      exact hversion

/-! ### Steps -/

section Steps

variable {α β : Type} {J : WebWorld → Prop} {P : α → WebWorld → Prop}

variable (user) in
/-- From a world in `J` the program does what every statement does, and ends in `P`. -/
abbrev Sec (J : WebWorld → Prop) (P : α → WebWorld → Prop) (p : WebCode α) : Prop :=
  Secures (Grows user) (Meets user) (Does user) J P p

variable (user) in
abbrev StableJ (J : WebWorld → Prop) : Prop := Stable (Grows user) J

/-- What is of no use any more is forgotten. -/
lemma sec_any {P : Except WebError α → WebWorld → Prop} {x : WebOp α}
    (h : Sec user (fun _ => True) P x.run) : Sec user J P x.run :=
  secures_mono (fun _ _ => trivial) (fun _ _ => id) h

lemma stable_any : StableJ user fun _ => True := fun _ _ _ _ => trivial

lemma sec_then {P' : β → WebWorld → Prop} {x : WebOp α} {f : α → WebOp β}
    (hx : Sec user J (Succeeds P) x.run) (hf : ∀ a, Sec user (P a) (Succeeds P') (f a).run) :
    Sec user J (Succeeds P') (x >>= f).run :=
  secures_bind_except hx hf fun _ _ => trivial

/-- What nobody harms is carried along. -/
lemma sec_frame {K : WebWorld → Prop} {x : WebOp α} (hK : StableJ user K)
    (h : Sec user J (Succeeds P) x.run) :
    Sec user (fun w => K w ∧ J w) (Succeeds fun a w => K w ∧ P a w) x.run := by
  refine secures_mono (fun _ => id) (fun r w hr => ?_) (secures_frame hK (fun _ h => h.grows) h)
  cases r with
  | ok a => exact hr
  | error e => trivial

/-- A step that needs nothing and gives nothing, past which `J` is carried. -/
lemma sec_past {P' : β → WebWorld → Prop} {x : WebOp α} {f : α → WebOp β}
    (hJ : StableJ user J) (hx : Sec user (fun _ => True) (Succeeds fun _ _ => True) x.run)
    (hf : ∀ a, Sec user J (Succeeds P') (f a).run) : Sec user J (Succeeds P') (x >>= f).run := by
  refine sec_then (P := fun _ => J) (secures_mono (fun _ h => ⟨h, trivial⟩) (fun r w hr => ?_)
    (sec_frame hJ hx)) hf
  cases r with
  | ok a => exact hr.1
  | error e => trivial

lemma sec_onMem {l : WebLabel} {g : ClientEnv → WebWorld → WebWorld × α} (hJ : StableJ user J)
    (h : ∀ e w, J w → Inv user w → Spares user w l →
      Does user ⟨l, e, w, (g e w).1⟩ ∧ P (g e w).2 (g e w).1) :
    Sec user J (Succeeds P) (onMem l g).run :=
  secures_atom hJ fun e w hw hM => h e w hw hM.1 hM.2

lemma sec_onStore {l : WebLabel} {g : WebWorld → WebWorld × α} (hJ : StableJ user J)
    (h : ∀ e w, J w → Inv user w → Spares user w l →
      Does user ⟨l, e, w, (g w).1⟩ ∧ P (g w).2 (g w).1) :
    Sec user J (Succeeds P) (onStore l g).run := by
  refine secures_atom hJ fun e w hw hM => ?_
  cases hf : e.fault with
  | true => exact ⟨by simpa [hf] using Does.same hM.1, trivial⟩
  | false =>
    simp only [hf, Bool.false_eq_true, if_false] at hM ⊢
    exact h e w hw hM.1 hM.2

lemma closed_bus (us : List WebUpdate) (uuid : Ident) (h : Closed w uuid) :
    Closed { w with mem := { w.mem with bus := w.mem.bus ++ us } } uuid := by
  refine h.imp_right (Or.imp_right fun hr => ?_)
  simp only [reported, List.filterMap_append]
  exact List.mem_append_left _ hr

lemma sec_emit (us : List WebUpdate) :
    Sec user (fun _ => True) (Succeeds fun _ _ => True) (emit us).run :=
  sec_onMem stable_any fun _ _ _ hw _ => ⟨.aside hw rfl rfl ⟨fun _ => .inl, fun _ => id,
    closed_bus us, fun _ => id, fun _ => id, fun _ => id, fun _ => id⟩ rfl, trivial⟩

lemma sec_readMem (g : WebMemory → α) :
    Sec user (fun _ => True) (Succeeds fun _ _ => True) (readMem g).run :=
  sec_onMem stable_any fun _ _ _ hw _ => ⟨.same hw, trivial⟩

/-- A change of the memory that no conflict is in. -/
lemma sec_setMem {l : WebLabel} {g : WebMemory → WebMemory} (hbus : ∀ m, (g m).bus = m.bus) :
    Sec user (fun _ => True) (Succeeds fun _ _ => True)
      (onMem l fun _ w => ({ w with mem := g w.mem }, ())).run :=
  sec_onMem stable_any fun _ _ _ hw _ => ⟨.aside hw rfl rfl ⟨fun _ => .inl, fun _ => id,
    fun uuid hc => by simpa [Closed, hbus] using hc, fun _ => id, fun _ => id, fun _ => id,
    fun _ => id⟩ rfl, trivial⟩

lemma sec_getState : Sec user (fun _ => True) (Succeeds fun _ _ => True) getState.run :=
  sec_onStore stable_any fun _ _ _ hw _ => ⟨.same hw, trivial⟩

lemma sec_setState (g : WebStore → WebStore) :
    Sec user (fun _ => True) (Succeeds fun _ _ => True) (setState g).run :=
  sec_onStore stable_any fun _ _ _ hw _ => ⟨.aside hw rfl rfl ⟨fun _ => .inl, fun _ => id,
    fun _ => id, fun _ => id, fun _ => id, fun _ => id, fun _ => id⟩ rfl, trivial⟩

variable (user) in
/-- The item may be stored again. -/
def Fit (i : StoredItem) (w : WebWorld) : Prop :=
  Fits user w i.uuid i.payload ∧ Versioned w i.uuid i.version

lemma stable_fit (i : StoredItem) : StableJ user (Fit user i) :=
  fun _ _ h hT => ⟨hT.fits h.1, hT.versioned h.2⟩

lemma stable_all {ι : Type} {l : List ι} {K : ι → WebWorld → Prop} (hK : ∀ i, StableJ user (K i)) :
    StableJ user fun w => ∀ i ∈ l, K i w :=
  fun w w' h hT i hi => hK i w w' (h i hi) hT

lemma sec_getItems :
    Sec user (fun _ => True) (Succeeds fun items w => ∀ i ∈ items, Fit user i w) getItems.run :=
  sec_onStore stable_any fun _ _ _ hw _ =>
    ⟨.same hw, fun i hi => ⟨hw.fits hi, hw.versions i hi⟩⟩

/-- An item of which no edit is open may be dropped. -/
lemma sec_deleteItem {l : WebLabel} (hJ : StableJ user J)
    (h : ∀ w, J w → Spares user w l → ∀ x, Open w x → x.1 ≠ uuid) :
    Sec user J (Succeeds fun _ _ => True) (deleteItem l uuid).run :=
  sec_onStore hJ fun _ w hJw hw hs => ⟨.drop hw (h w hJw hs), trivial⟩

/-! ### Requests -/

lemma sec_half (l : WebLabel) (r : Except WebError α) :
    Sec user (fun _ => True) (fun r' _ => ∀ a, r' = .ok a → r = .ok a) (half l r).run := by
  refine secures_atom stable_any fun e w _ hM => ⟨.same hM.1, fun a ha => ?_⟩
  dsimp only at ha
  split at ha
  · cases ha
  · exact ha

/-- A request gives what the server answers. -/
lemma sec_request {r : WebRequest} {x : ServerHandler Blob α} (hJ : StableJ user J)
    (hP : ∀ a, StableJ user (P a))
    (hx : Sec user J (Succeeds P) (zoom (webServer (.served r)) x.run)) :
    Sec user J (Succeeds P) (request r x).run := by
  have hanswer : Sec user J (Succeeds fun answer : Except ApiError α => Succeeds P answer)
      (ExceptT.lift (zoom (webServer (.served r)) x.run) : WebOp (Except ApiError α)).run := by
    rw [ExceptT.run_lift]
    exact secures_bind hx fun _ => secures_ret fun _ h => h
  have hsend : Sec user (fun _ => True) (Succeeds fun _ _ => True)
      (half (.send r) (.ok () : Except WebError Unit)).run :=
    secures_mono (fun _ => id) (fun r _ _ => by cases r <;> trivial) (sec_half _ _)
  refine sec_past hJ hsend fun _ => sec_then hanswer fun answer => ?_
  have hstable : StableJ user (Succeeds P answer) := by
    cases answer with
    | ok a => exact hP a
    | error e => exact fun _ _ _ _ => trivial
  refine secures_mono (fun _ h => ⟨h, trivial⟩) (fun r' w hr => ?_)
    (secures_frame hstable (fun _ h => h.grows) (sec_half .receive (answer.mapError .api)))
  cases r' with
  | error e => trivial
  | ok a =>
    cases answer with
    | ok b =>
      cases hr.2 a rfl
      exact hr.1
    | error e => cases hr.2 a rfl

end Steps

/-! ### Pulls -/

section Pulls

variable {J : WebWorld → Prop}

/-- A read of the server. -/
lemma sec_read {α : Type} {P : α → WebWorld → Prop} {name : Stmt → WebLabel} {l : Stmt}
    {g : Db Blob → α} (hJ : StableJ user J)
    (h : ∀ w, J w → Inv user w → Spares user w (name l) → P (g w.server) w) :
    Sec user J (Succeeds P) (zoom (webServer name) (orInternal (select l g)).run) := by
  have hread : Sec user J (Succeeds P) (zoom (webServer name) (select l g).run) :=
    secures_zoom_select (fun _ => rfl) hJ fun _ w hw hM => ⟨.same hM.1, h w hw hM.1 hM.2⟩
  have heq : zoom (webServer name) (orInternal (select l g : Repo Blob α)).run =
      zoom (webServer name) (select l g : Repo Blob α).run >>= fun r =>
        .ret (r.mapError .internal) := zoom_bind _ _
  rw [heq]
  refine secures_bind hread fun r => secures_ret fun w hr => ?_
  cases r with
  | ok a => exact hr
  | error e => trivial

/-- The first step of a handler, and the rest of it. -/
lemma sec_handler {α β : Type} {P : α → WebWorld → Prop} {P' : β → WebWorld → Prop}
    {name : Stmt → WebLabel} {x : ServerHandler Blob α} {f : α → ServerHandler Blob β}
    (hx : Sec user J (Succeeds P) (zoom (webServer name) x.run))
    (hf : ∀ a, Sec user (P a) (Succeeds P') (zoom (webServer name) (f a).run)) :
    Sec user J (Succeeds P') (zoom (webServer name) (x >>= f).run) := by
  rw [ExceptT.run_bind, zoom_bind]
  refine secures_bind hx fun r => ?_
  cases r with
  | ok a => exact hf a
  | error e => exact secures_ret fun _ _ => trivial

/-- No edit of the item is open, and none will be. -/
lemma fits_none {uuid : Ident} (hk : Known user w uuid) (h : ∀ x, Open w x → x.1 ≠ uuid) :
    Fits user w uuid none :=
  ⟨hk, fun x hx he => absurd he (h x hx)⟩

/-- No edit of a tombstone that is pulled is open. -/
lemma sec_syncPull (cursor : UInt64) : Sec user (fun _ => True)
    (Succeeds fun pull w => ∀ i ∈ pull.items, i.deletedDate.isSome → Fits user w i.uuid none)
    (request (.pull cursor) (syncPull user cursor none)).run := by
  have hstable : ∀ pull : PullResp, StableJ user fun w =>
      ∀ i ∈ pull.items, i.deletedDate.isSome → Fits user w i.uuid none :=
    fun _ _ _ h hT i hi hd => hT.fits (h i hi hd)
  refine sec_request stable_any hstable ?_
  refine sec_handler (P := fun _ _ => True) (sec_read stable_any fun _ _ _ _ => trivial) fun gen => ?_
  dsimp only
  split
  · exact secures_ret fun _ _ => trivial
  refine sec_handler (P := fun _ _ => True) (sec_read stable_any fun _ _ _ _ => trivial) fun first => ?_
  split
  · exact secures_ret fun _ _ => trivial
  refine sec_handler (P := fun rows w => ∀ r ∈ rows.take 100, r.deletedDate.isSome →
      Fits user w r.uuid none) (sec_read stable_any fun w _ hw hs r hr hd => ?_) fun rows => ?_
  · have hmem : r ∈ (itemsAfter w.server user (asI64 cursor)).take 100 := by
      rw [List.take_take] at hr
      exact hr
    have hrow : r ∈ w.server.items.rows ∧ r.userId = user := by
      have := List.mem_of_mem_take hmem
      simp only [itemsAfter, List.mem_insertionSort, List.mem_filter, Bool.and_eq_true,
        decide_eq_true_eq] at this
      exact ⟨this.1, this.2.1⟩
    refine fits_none (.inr ?_) fun x hx he => hx.2 (hs r hmem hd x hx.1 he)
    rw [show (r.uuid, user) = r.key by rw [← hrow.2]; rfl, Table.get_of_mem hrow.1]
    rfl
  · refine secures_ret fun w h i hi hd => ?_
    obtain ⟨r, hr, rfl⟩ := List.mem_map.mp hi
    exact h r hr hd

/-- What is delivered may be stored. -/
def Deliverable (user : Ident) (r : PayloadResult Blob) (w : WebWorld) : Prop :=
  ∀ b, r.payload = some b → Fits user w r.uuid (some b)

lemma stable_deliverable (r : PayloadResult Blob) : StableJ user (Deliverable user r) :=
  fun _ _ h hT b hb => hT.fits (h b hb)

lemma sec_pullPayloads {all targets : List (Ident × UInt64)} (hsub : targets ⊆ all) :
    Sec user (fun _ => True) (Succeeds fun rs w => ∀ r ∈ rs, Deliverable user r w)
      (zoom (webServer (.served (.pullPayloads all))) (pullPayloads user targets).run) := by
  induction targets with
  | nil => exact secures_ret fun _ _ => by simp [Succeeds, IfOk]
  | cons t rest ih =>
    obtain ⟨uuid, version⟩ := t
    have htarget : (uuid, version) ∈ all := hsub List.mem_cons_self
    refine sec_handler (P := fun row w => Deliverable user (payloadResult uuid version row) w)
      (sec_read stable_any fun w _ hw hs b hb => ?_) fun row => ?_
    · cases hget : w.server.items.get (uuid, user) with
      | none => simp [payloadResult, hget] at hb
      | some r =>
        have hkey : r.uuid = uuid := congrArg Prod.fst (Table.get_key hget)
        simp only [payloadResult, hget] at hb ⊢
        split at hb
        · next hv =>
          rw [if_pos hv]
          dsimp only at hb ⊢
          rw [hkey]
          refine ⟨.inr (by simp [hget]), fun x hx he => ?_⟩
          have := hs r hget (by rw [hv]; exact htarget) b hb x hx.1 he
          rw [this.resolve_left hx.2]
        · cases hb
    · refine sec_handler (P := fun rs w => Deliverable user (payloadResult uuid version row) w ∧
        ∀ r ∈ rs, Deliverable user r w) ?_ fun rs => secures_ret fun w h => ?_
      · refine secures_mono (fun _ h => ⟨h, trivial⟩) (fun r w hr => ?_)
          (secures_frame (stable_deliverable _) (fun _ h => h.grows)
            (ih fun t ht => hsub (List.mem_cons_of_mem _ ht)))
        cases r with
        | ok rs => exact hr
        | error e => trivial
      · simpa [Succeeds, IfOk] using h

lemma sec_syncPullPayloads (targets : List (Ident × UInt64)) :
    Sec user (fun _ => True) (Succeeds fun rs w => ∀ r ∈ rs, Deliverable user r w)
      (request (.pullPayloads targets) (syncPullPayloads user targets)).run := by
  refine sec_request stable_any (fun rs => stable_all stable_deliverable) ?_
  unfold syncPullPayloads
  split
  · exact secures_ret fun _ _ => trivial
  · exact sec_pullPayloads fun _ => id

/-- The tombstones of a page are dropped. -/
lemma sec_applyPulled (localItems : List StoredItem) (items : List PullItem) :
    Sec user (fun w => ∀ i ∈ items, i.deletedDate.isSome → Fits user w i.uuid none)
      (Succeeds fun _ _ => True) (applyPulled localItems items).run := by
  induction items with
  | nil => exact secures_ret fun _ _ => trivial
  | cons i rest ih =>
    have hstable : ∀ l : List PullItem, StableJ user fun w =>
        ∀ i ∈ l, i.deletedDate.isSome → Fits user w i.uuid none :=
      fun _ _ _ h hT i hi hd => hT.fits (h i hi hd)
    have hrest : Sec user (fun w => ∀ i' ∈ i :: rest, i'.deletedDate.isSome →
        Fits user w i'.uuid none) (Succeeds fun _ _ => True) (applyPulled localItems rest).run :=
      secures_mono (fun w h i' hi' => h i' (List.mem_cons_of_mem _ hi')) (fun _ _ => id) ih
    unfold applyPulled
    split
    · next hd =>
      have hdrop : Sec user (fun w => ∀ i' ∈ i :: rest, i'.deletedDate.isSome →
          Fits user w i'.uuid none) (Succeeds fun _ _ => True)
          (deleteItem (.dropDeleted i.uuid) i.uuid).run :=
        sec_deleteItem (hstable _) fun w h _ x hx he => by
          cases (h i List.mem_cons_self hd).edit x hx he
      refine sec_then (P := fun _ w => ∀ i' ∈ i :: rest, i'.deletedDate.isSome →
          Fits user w i'.uuid none) (secures_mono (fun _ h => ⟨h, h⟩) (fun r w hr => ?_)
            (sec_frame (hstable _) hdrop)) fun _ =>
        sec_past (hstable _) (sec_emit _) fun _ => hrest
      cases r with
      | ok a => exact hr.1
      | error e => trivial
    · refine sec_then hrest fun need => ?_
      dsimp only
      split <;> exact secures_ret fun _ _ => trivial

end Pulls

/-! ### Stores and pushes -/

section Pushes

variable {J : WebWorld → Prop}

/-- An item is stored, and what is remembered of it only adds to the past. -/
lemma sec_putItem {l : WebLabel} {i : StoredItem} {note : Past → Past} (hJ : StableJ user J)
    (h : ∀ w, J w → Fits user w i.uuid i.payload ∧
      Grows user w { w.put i with past := note w.past } ∧ (note w.past).edits = w.past.edits ∧
      Versioned { w.put i with past := note w.past } i.uuid i.version ∧
      ∀ x, Open w x → x.1 = i.uuid → i.pending = true ∨
        Closed { w.put i with past := note w.past } x.1) :
    Sec user J (Succeeds fun _ _ => True) (putItem l i note).run :=
  sec_onStore hJ fun _ w hJw hw _ =>
    have ⟨hfits, hgrows, hedits, hversion, hpending⟩ := h w hJw
    ⟨.put hw hgrows hedits hfits hversion hpending, trivial⟩

/-- What is delivered is stored; an edit that comes back has reached the server. -/
lemma sec_putPulled {r : PayloadResult Blob} {payload : Blob} (hp : r.payload = some payload) :
    Sec user (Deliverable user r) (Succeeds fun _ _ => True)
      (putItem (.putPulled r.uuid) (pulledItem r) (·.pulled r payload)).run := by
  refine sec_putItem (stable_deliverable r) fun w hr => ?_
  have hfits : Fits user w r.uuid (some payload) := hr payload hp
  refine ⟨by simpa [pulledItem, hp] using hfits, ⟨fun _ => .inl, fun _ => id, fun u hc => ?_,
    fun _ => id, List.subset_append_left _ _, fun _ => id, fun _ => id⟩, rfl,
    .inr (.inl (List.mem_append_right _ (List.mem_singleton_self _))), fun x hx he => .inr (.inl ?_)⟩
  · refine hc.imp_left fun ha => ?_
    simp only [Past.pulled]
    split
    · exact List.mem_append_left _ ha
    · exact ha
  · have hback : (r.uuid, payload) ∈ w.past.edits := by
      have hx2 : payload = x.2 := Option.some.inj (hfits.edit x hx he)
      rw [hx2, ← show x.1 = r.uuid from he]
      exact hx.1
    simp only [Past.pulled, if_pos hback]
    rw [show x.1 = r.uuid from he]
    exact List.mem_append_right _ (List.mem_singleton_self _)

lemma sec_storePulled (results : List (PayloadResult Blob)) :
    Sec user (fun w => ∀ r ∈ results, Deliverable user r w) (Succeeds fun _ _ => True)
      (storePulled results).run := by
  induction results with
  | nil => exact secures_ret fun _ _ => trivial
  | cons r rest ih =>
    have hstable : StableJ user fun w => ∀ r' ∈ r :: rest, Deliverable user r' w :=
      stable_all stable_deliverable
    have hrest : Sec user (fun w => ∀ r' ∈ r :: rest, Deliverable user r' w)
        (Succeeds fun _ _ => True) (storePulled rest).run :=
      secures_mono (fun w h r' hr' => h r' (List.mem_cons_of_mem _ hr')) (fun _ _ => id) ih
    unfold storePulled
    split
    · exact hrest
    · next payload hp =>
      split
      · exact hrest
      refine sec_past hstable (sec_readMem _) fun dek => ?_
      have hput : Sec user (fun w => ∀ r' ∈ r :: rest, Deliverable user r' w)
          (Succeeds fun _ w => ∀ r' ∈ r :: rest, Deliverable user r' w)
          (putItem (.putPulled r.uuid) (pulledItem r) (·.pulled r payload)).run :=
        secures_mono (fun w h => ⟨h, h r List.mem_cons_self⟩) (fun r w hr => by
          cases r with
          | ok a => exact hr.1
          | error e => trivial) (sec_frame hstable (sec_putPulled hp))
      dsimp only
      split
      · exact sec_past hstable (sec_setMem (g := fun m =>
            { m with quarantined := m.quarantined ++ [r.uuid] }) fun _ => rfl) fun _ =>
          sec_then hput fun _ => sec_past hstable (sec_emit _) fun _ => hrest
      · exact sec_then hput fun _ => sec_past hstable (sec_emit _) fun _ => hrest

lemma sec_fetchPayloads (batches : List (List (Ident × UInt64))) :
    Sec user (fun _ => True) (Succeeds fun _ _ => True) (fetchPayloads user batches).run := by
  induction batches with
  | nil => exact secures_ret fun _ _ => trivial
  | cons batch rest ih =>
    exact sec_then (sec_syncPullPayloads batch) fun results =>
      sec_then (sec_storePulled results) fun _ => ih

/-- A pending item after its push is stored at the version the server answered. -/
lemma sec_putPushed (results : List PushResult) (i : StoredItem) :
    Sec user (Fit user i) (Succeeds fun _ _ => True)
      (putItem (.putPushed i.uuid) (i.settle results) (·.settled results i)).run := by
  refine sec_putItem (stable_fit i) fun w hi => ?_
  cases hu : updatedOf results i.uuid with
  | some v =>
    refine ⟨hi.1, ⟨fun x hx => .inl (by simpa [Past.settled, hu] using hx), ?_, fun u hc => ?_,
      fun _ => id, ?_, ?_, ?_⟩, ?_, .inr (.inl ?_), fun x hx he => .inr (.inl ?_)⟩
    all_goals simp only [Past.settled, hu]
    · exact fun _ => id
    · exact hc.imp_left fun ha => by simpa [Past.settled, hu] using .inl ha
    · exact List.subset_append_left _ _
    · exact fun _ => id
    · exact fun _ => id
    · simp [StoredItem.settle, hu]
    · rw [he]
      exact List.mem_append_right _ (List.mem_singleton_self _)
  | none =>
    refine ⟨hi.1, ⟨fun x hx => .inl (by simpa [Past.settled, hu] using hx), ?_, fun u hc => ?_,
      fun _ => id, ?_, ?_, ?_⟩, ?_, ?_, fun x hx he => .inl (by simp [StoredItem.settle, hu])⟩
    all_goals simp only [Past.settled, hu]
    · exact fun _ => id
    · exact hc
    · exact fun _ => id
    · exact fun _ => id
    · exact List.subset_append_left _ _
    · cases hr : retargetOf results i.uuid with
      | some v => exact .inr (.inr (.inr (by simp [StoredItem.settle, hu, hr])))
      | none => simpa [StoredItem.settle, hu, hr, Versioned] using hi.2

lemma sec_settlePushed (results : List PushResult) (pending : List StoredItem) :
    Sec user (fun w => ∀ i ∈ pending, Fit user i w) (Succeeds fun _ _ => True)
      (settlePushed results pending).run := by
  induction pending with
  | nil => exact secures_ret fun _ _ => trivial
  | cons i rest ih =>
    have hstable : StableJ user fun w => ∀ i' ∈ rest, Fit user i' w := stable_all stable_fit
    refine sec_then (P := fun _ w => ∀ i' ∈ rest, Fit user i' w)
      (secures_mono (fun w h => ⟨fun i' hi' => h i' (List.mem_cons_of_mem _ hi'),
        h i List.mem_cons_self⟩) (fun r w hr => ?_) (sec_frame hstable (sec_putPushed results i)))
      fun _ => ih
    cases r with
    | ok a => exact hr.1
    | error e => trivial

/-- No item is pushed at a version that was only told. -/
def LicensedAll (items : List (PushItem Blob)) (w : WebWorld) : Prop :=
  ∀ i ∈ items, Licensed w i.uuid i.targetVersion

lemma stable_licensed (items : List (PushItem Blob)) : StableJ user (LicensedAll items) :=
  fun _ _ h hT i hi => hT.licensed (h i hi)

/-- A statement of the server that a request runs. -/
lemma Does.serve {e : ClientEnv} {db : Db Blob} {l : WebLabel} (h : Inv user w)
    (hdb : Rewrites H w.server db) (hl : OverwritesSeen ⟨l, e, w, { w with server := db }⟩) :
    Does user ⟨l, e, w, { w with server := db }⟩ := by
  have hgrows : Grows user w { w with server := db } := ⟨fun _ => .inl, fun _ => id, fun _ => id,
    hdb.rows, fun _ => id, fun _ => id, fun _ => id⟩
  exact ⟨⟨h.kept, fun i hi => hgrows.known (h.known i hi), h.versions, hdb.positive h.rows⟩,
    hgrows, hl⟩

/-- **What a push overwrites** was stored here or chosen to be overwritten. -/
lemma sec_syncPushBatch (items : List (PushItem Blob)) :
    Sec user (LicensedAll items) (Succeeds fun _ _ => True)
      (request (.pushBatch items) (syncPushBatch X ⟨user, items⟩)).run := by
  refine sec_request (stable_licensed items) (fun _ _ _ _ _ => trivial)
    (secures_mono (fun _ => id) (fun r _ _ => by cases r <;> trivial)
      (secures_zoom (C := fun _ => True) (P := fun _ => True) (secures_of_guarantees
        (rewriting_syncPushBatch X ⟨user, items⟩) fun _ _ => trivial) (stable_licensed items)
        (fun _ h => h.grows) (fun _ _ _ _ _ => trivial) fun l e w db hJ hM hG =>
          .serve hM.1 hG fun r hr => ?_))
  refine (hG.stays r hr).imp_right fun ⟨i, hi, hu, hv⟩ => ?_
  have hpos : 1 ≤ r.version := hM.1.rows r hr
  have hat : (r.uuid, asU64 r.version) = (i.uuid, i.targetVersion) := by
    rw [hu, hv, asU64_asI64]
  rw [hat]
  refine (hJ i hi).resolve_left fun h0 => ?_
  rw [hv, h0] at hpos
  exact absurd hpos (by decide)

lemma sec_pushPending (pending : List StoredItem) :
    Sec user (fun w => ∀ i ∈ pending, Fit user i w) (Succeeds fun _ _ => True)
      (pushPending X user pending).run := by
  have hfit : StableJ user fun w => ∀ i ∈ pending, Fit user i w := stable_all stable_fit
  unfold pushPending
  split
  · exact secures_ret fun _ _ => trivial
  refine sec_then (P := fun items w => (∀ i ∈ pending, Fit user i w) ∧ LicensedAll items w)
    (sec_onMem hfit fun _ w hJ hw hs => ⟨.same hw, hJ, fun item hitem => ?_⟩) fun items => ?_
  · obtain ⟨i, hi, rfl⟩ := List.mem_map.mp hitem
    rcases (hJ i hi).2 with h | h | h | h
    · exact .inl h
    · exact .inr (.inl h)
    · exact .inr (.inr h)
    · exact hs i hi h
  · refine sec_then (P := fun _ w => ∀ i ∈ pending, Fit user i w) (secures_mono (fun _ => id)
      (fun r w hr => ?_) (sec_frame hfit (sec_syncPushBatch X items))) fun results =>
        sec_then (P := fun _ _ => True) (sec_settlePushed results pending) fun _ => sec_emit _
    cases r with
    | ok a => exact hr.1
    | error e => trivial

end Pushes

/-! ### The operations -/

section Ops

variable {J : WebWorld → Prop}

lemma sec_syncBody :
    Sec user (fun _ => True) (Succeeds fun _ _ => True) (syncBody X user).run := by
  refine sec_then sec_getState fun state => sec_then (sec_syncPull state.cursor) fun pull => ?_
  have hpull : StableJ user fun w =>
      ∀ i ∈ pull.items, i.deletedDate.isSome → Fits user w i.uuid none :=
    fun _ _ h hT i hi hd => hT.fits (h i hi hd)
  have hrest : Sec user (fun w => ∀ i ∈ pull.items, i.deletedDate.isSome → Fits user w i.uuid none)
      (Succeeds fun _ _ => True) (do
        setState ({ · with minEncKeyGen := asU64 pull.minEncKeyGen })
        let localItems ← getItems
        let need ← applyPulled localItems pull.items
        fetchPayloads user (slices need)
        let items ← getItems
        pushPending X user (items.filter (·.pending))
        setState ({ · with cursor := pull.newCursor })
        emit [.syncCompleted] : WebOp Unit).run := by
    refine sec_past hpull (sec_setState _) fun _ => sec_past hpull
      (secures_mono (fun _ => id) (fun r _ _ => by cases r <;> trivial) sec_getItems)
      fun localItems => sec_then (sec_applyPulled localItems pull.items) fun need =>
      sec_then (sec_fetchPayloads (slices need)) fun _ => sec_then (sec_any sec_getItems) fun items =>
      sec_then (P := fun _ _ => True) (secures_mono (fun w h i hi => h i (List.mem_filter.mp hi).1)
        (fun _ _ => id) (sec_pushPending X (items.filter (·.pending)))) fun _ =>
      sec_then (sec_setState _) fun _ => sec_emit _
  dsimp only
  split
  · exact sec_past hpull (sec_emit _) fun _ => hrest
  · exact hrest

lemma sec_requireDek : Sec user (fun _ => True) (Succeeds fun _ _ => True) requireDek.run := by
  refine sec_then (sec_readMem _) fun dek => ?_
  cases dek <;> exact secures_ret fun _ _ => trivial

lemma sec_tryCatch {α : Type} {P : α → WebWorld → Prop} {x : WebOp α} {f : WebError → WebOp α}
    (hx : Sec user J (Succeeds P) x.run)
    (hf : ∀ e, Sec user (fun _ => True) (Succeeds P) (f e).run) :
    Sec user J (Succeeds P) (tryCatch x f).run := by
  refine secures_bind hx fun r => ?_
  cases r with
  | ok a => exact secures_ret fun _ h => h
  | error e => exact sec_any (hf e)

lemma sec_sync : Sec user (fun _ => True) (Succeeds fun _ _ => True) (sync X user).run :=
  sec_then sec_requireDek fun _ => sec_then (sec_emit _) fun _ =>
    sec_tryCatch (sec_syncBody X) fun _ => sec_then (sec_emit _) fun _ =>
      secures_ret fun _ _ => trivial

/-- A new item is stored under a uuid that nobody has used. -/
lemma sec_putNew {i : StoredItem} {b : Blob} (hv : i.version = 0) (hpending : i.pending = true)
    (hp : i.payload = some b) :
    Sec user (fun _ => True) (Succeeds fun _ _ => True) (putItem (.putNew i.uuid) i fun p =>
      { p with edits := p.edits ++ i.payload.toList.map fun b => (i.uuid, b) }).run := by
  refine sec_onStore stable_any fun e w _ hw hnew => ⟨?_, trivial⟩
  let w' : WebWorld := { w.put i with past := { w.past with
    edits := w.past.edits ++ i.payload.toList.map fun b => (i.uuid, b) } }
  have hnew' : ¬Known user w i.uuid := hnew
  have hgrows : Grows user w w' := by
    refine ⟨fun x hx => ?_, List.subset_append_left _ _, fun _ => id, fun _ => id, fun _ => id,
      fun _ => id, fun _ => id⟩
    rcases List.mem_append.mp hx with hx | hx
    · exact .inl hx
    · obtain ⟨b, -, rfl⟩ := List.mem_map.mp hx
      exact .inr hnew'
  have hget : ∀ u, w'.store.items.get u =
      if i.uuid = u then some (((w.store.items.get u).map i.replace).getD i)
      else w.store.items.get u := fun u => Table.get_upsert ..
  have hself : w.store.items.get i.uuid = none :=
    Table.get_eq_none_iff.mpr fun i' hi' he => hnew' (he ▸ hw.known i' hi')
  refine ⟨⟨fun x hx => ?_, fun i' hi' => ?_, fun i' hi' => ?_, hw.rows⟩, hgrows,
    overwritesSeen_same rfl⟩
  · rcases List.mem_append.mp hx.1 with hmem | hmem
    · obtain ⟨i', hi', hrest⟩ := hw.kept x ⟨hmem, fun hc => hx.2 (hgrows.closed _ hc)⟩
      have hne : i.uuid ≠ x.1 := fun he => hnew' (.inl ⟨x, hmem, he.symm⟩)
      exact ⟨i', (hget x.1).trans (by rw [if_neg hne, hi']), hrest⟩
    · obtain ⟨b', hb, rfl⟩ := List.mem_map.mp hmem
      exact ⟨i, (hget _).trans (by simp [hself]), hpending, by simpa using hb⟩
  · rcases Table.mem_upsert hi' with hi' | rfl | ⟨i₀, hi₀, hk, -⟩
    · exact hgrows.known (hw.known i' hi')
    · exact .inl ⟨(i'.uuid, b), List.mem_append_right _ (by simp [hp]), rfl⟩
    · exact absurd (hw.known i₀ hi₀) (hk ▸ hnew')
  · rcases Table.mem_upsert hi' with hi' | rfl | ⟨i₀, hi₀, hk, -⟩
    · exact hgrows.versioned (hw.versions i' hi')
    · exact .inl hv
    · exact absurd (hw.known i₀ hi₀) (hk ▸ hnew')

lemma sec_addItem (p : Plain) :
    Sec user (fun _ => True) (Succeeds fun _ _ => True) (addItem p).run := by
  have hnew : ∀ dek : DKey, Sec user (fun _ => True)
      (Succeeds fun i _ => i.version = 0 ∧ i.pending = true ∧ ∃ b, i.payload = some b)
      (onMem .newItem fun e w => (w, (⟨e.uuid, 0, w.mem.localKeyGen, none,
        some (encrypt dek e.uuid w.mem.localKeyGen p), true⟩ : StoredItem))).run :=
    fun dek => sec_onMem stable_any fun _ _ _ hw _ => ⟨.same hw, rfl, rfl, _, rfl⟩
  refine sec_then sec_requireDek fun dek => sec_then (hnew dek) fun i => ?_
  intro tr w htr ⟨hv, hpending, b, hp⟩
  exact sec_then (sec_putNew hv hpending hp) (fun _ => sec_emit _) tr w htr trivial

lemma sec_onServerEvent (ev : ServerEvent) :
    Sec user (fun _ => True) (Succeeds fun _ _ => True) (onServerEvent X user ev).run := by
  cases ev with
  | itemPermanentlyDeleted uuid =>
    exact sec_then (sec_deleteItem stable_any fun w _ hs x hx he => hx.2 (hs x hx.1 he)) fun _ =>
      sec_emit _
  | itemRecovered uuid =>
    refine sec_then (sec_readMem _) fun dek => ?_
    split
    · exact sec_then (sec_emit _) fun _ => sec_tryCatch (sec_sync X) fun _ =>
        secures_ret fun _ _ => trivial
    · exact secures_ret fun _ _ => trivial

lemma stable_closed (uuid : Ident) : StableJ user fun w => Closed w uuid :=
  fun _ _ h hT => hT.closed _ h

/-- What the user chooses is noted: to give the edit up, or to overwrite the version that is
held. -/
lemma sec_choose (uuid : Ident) (choice : ConflictChoice) : Sec user (fun _ => True)
    (Succeeds fun held w => (choice = .acceptServer → Closed w uuid) ∧
      ∀ i ∈ held, i.uuid = uuid ∧ Fit user i w)
    (onStore (.choose uuid choice) fun w =>
      let held := w.store.items.get uuid
      let past := match choice with
        | .acceptServer => { w.past with accepted := w.past.accepted ++ [uuid] }
        | .pushLocal =>
          { w.past with chosen := w.past.chosen ++ held.toList.map fun i => (uuid, i.version) }
      ({ w with past }, held)).run := by
  refine sec_onStore stable_any fun e w _ hw _ => ?_
  have hfit : ∀ i ∈ w.store.items.get uuid, i.uuid = uuid ∧ Fit user i w := fun i hi =>
    ⟨Table.get_key hi, hw.fits (Table.get_mem hi), hw.versions i (Table.get_mem hi)⟩
  cases choice with
  | acceptServer =>
    have hgrows : Grows user w { w with past :=
        { w.past with accepted := w.past.accepted ++ [uuid] } } :=
      ⟨fun _ => .inl, fun _ => id, fun _ hc => hc.imp_right (Or.imp_left (List.mem_append_left _)),
        fun _ => id, fun _ => id, fun _ => id, fun _ => id⟩
    exact ⟨.aside hw rfl rfl hgrows rfl,
      fun _ => .inr (.inl (List.mem_append_right _ (List.mem_singleton_self _))),
      fun i hi => ⟨(hfit i hi).1, stable_fit i _ _ (hfit i hi).2 hgrows⟩⟩
  | pushLocal =>
    let chosen := w.past.chosen ++ (w.store.items.get uuid).toList.map fun i => (uuid, i.version)
    have hgrows : Grows user w { w with past := { w.past with chosen } } :=
      ⟨fun _ => .inl, fun _ => id, fun _ => id, fun _ => id, fun _ => id,
        List.subset_append_left _ _, fun _ => id⟩
    exact ⟨.aside hw rfl rfl hgrows rfl, nofun,
      fun i hi => ⟨(hfit i hi).1, stable_fit i _ _ (hfit i hi).2 hgrows⟩⟩

/-- An item that may be stored again is stored as pending. -/
lemma sec_putPending (i : StoredItem) : Sec user (Fit user i) (Succeeds fun _ _ => True)
    (putItem (.putPending i.uuid) { i with pending := true } id).run :=
  sec_putItem (stable_fit i) fun _ hi => ⟨hi.1, ⟨fun _ => .inl, fun _ => id, fun _ => id,
    fun _ => id, fun _ => id, fun _ => id, fun _ => id⟩, rfl, hi.2, fun _ _ _ => .inl rfl⟩

lemma sec_resolveConflict (uuid : Ident) (choice : ConflictChoice) :
    Sec user (fun _ => True) (Succeeds fun _ _ => True) (resolveConflict X user uuid choice).run := by
  refine sec_then sec_requireDek fun _ => sec_then (sec_choose uuid choice) fun held => ?_
  cases choice with
  | acceptServer =>
    refine secures_mono (J := fun w => Closed w uuid) (fun w h => h.1 rfl) (fun _ _ => id) ?_
    exact sec_then (sec_deleteItem (stable_closed uuid) fun w hc _ x hx he => hx.2 (he ▸ hc))
      fun _ => sec_then (sec_emit _) fun _ => sec_sync X
  | pushLocal =>
    cases held with
    | none => exact sec_any (sec_sync X)
    | some i =>
      rintro tr w htr ⟨-, h⟩
      obtain ⟨rfl, hfit⟩ := h i rfl
      exact sec_then (P := fun _ _ => True) (sec_putPending i) (fun _ => sec_sync X) tr w htr hfit

/-- A request that pushes nothing. -/
lemma sec_ask {α : Type} {r : WebRequest} {x : ServerHandler Blob α}
    (hr : ∀ items, r ≠ .pushBatch items)
    (hx : Guarantees (fun _ _ _ => True) (Rewriting fun _ => True) x.run) :
    Sec user (fun _ => True) (Succeeds fun _ _ => True) (request r x).run := by
  refine sec_request stable_any (fun _ => stable_any)
    (secures_mono (fun _ => id) (fun r _ _ => by cases r <;> trivial)
      (secures_zoom (C := fun _ => True) (P := fun _ => True) (secures_of_guarantees hx
        fun _ _ => trivial) stable_any (fun _ h => h.grows) (fun _ _ _ _ _ => trivial)
        fun l e w db _ hM hG => .serve hM.1 hG ?_))
  unfold OverwritesSeen
  split
  · next items l' heq => exact absurd (by injection heq) (hr items)
  · trivial

lemma sec_rotateKey (mk : Key) :
    Sec user (fun _ => True) (Succeeds fun _ _ => True) (rotateKey X user mk).run := by
  refine sec_then (sec_readMem _) fun svk => ?_
  cases svk with
  | none => exact secures_ret fun _ _ => trivial
  | some svk =>
    exact sec_then (sec_ask (by simp) (rewriting_of_reading (reading_accountStatus user)))
      fun status => sec_then sec_getState fun _ =>
      sec_then (sec_ask (by simp) (rewriting_accountRotateKey X _)) fun resp =>
      sec_then (sec_setMem (g := fun m => { m with localKeyGen := asU64 resp.minEncKeyGen })
        fun _ => rfl) fun _ =>
      sec_then (sec_setState _) fun _ => secures_ret fun _ _ => trivial

lemma sec_encryptSecretValue (project : Ident) (p : Plain) :
    Sec user (fun _ => True) (Succeeds fun _ _ => True) (encryptSecretValue project p).run :=
  sec_then sec_requireDek fun _ => sec_onMem stable_any fun _ _ _ hw _ =>
    ⟨.aside hw rfl rfl ⟨fun _ => .inl, fun _ => id, fun _ => id, fun _ => id, fun _ => id,
      fun _ => id, fun _ => id⟩ rfl, trivial⟩

lemma sec_decryptSecretValue (project : Ident) (value : Blob) :
    Sec user (fun _ => True) (Succeeds fun _ _ => True) (decryptSecretValue project value).run := by
  refine sec_then sec_requireDek fun dek => sec_then (P := fun _ _ => True)
    (sec_onMem stable_any fun _ _ _ hw _ => ⟨.same hw, trivial⟩) fun p => ?_
  cases p <;> exact secures_ret fun _ _ => trivial

lemma sec_reveal (uuid : Ident) :
    Sec user (fun _ => True) (Succeeds fun _ _ => True) (reveal uuid).run := by
  refine sec_then sec_requireDek fun dek => sec_then (P := fun _ _ => True)
    (sec_onStore stable_any fun _ _ _ hw _ => ⟨.same hw, trivial⟩) fun i => ?_
  rcases i with _ | ⟨_, _, gen, _, _ | payload, _⟩
  · exact secures_ret fun _ _ => trivial
  · exact secures_ret fun _ _ => trivial
  · dsimp only
    cases decrypt dek uuid gen payload <;> exact secures_ret fun _ _ => trivial

lemma sec_done {α : Type} {x : WebOp α} (f : α → WebReply)
    (h : Sec user (fun _ => True) (Succeeds fun _ _ => True) x.run) :
    Sec user (fun _ => True) (Succeeds fun _ _ => True) (do return f (← x) : WebOp WebReply).run :=
  sec_then h fun _ => secures_ret fun _ _ => trivial

/-- What another device asks of the server. -/
lemma sec_other (req : Req Blob) : Sec user (fun _ => True) (Succeeds fun _ _ => True)
    (ExceptT.lift (zoom (webServer .elsewhere) (serve X req)) : WebOp Reply).run := by
  rw [ExceptT.run_lift]
  refine secures_bind (secures_zoom (C := fun _ => True) (P := fun _ => True)
    (secures_of_guarantees (rewriting_serve X req) fun _ _ => trivial) stable_any
    (fun _ h => h.grows) (fun _ _ _ _ _ => trivial) fun l e w db _ hM hG =>
      .serve hM.1 hG trivial) fun _ => secures_ret fun _ _ => trivial

/-- **Every call** keeps the open edits and overwrites only what was seen or chosen. -/
lemma sec_webCode (q : WebCmd) :
    Sec user (fun _ => True) (Succeeds fun _ _ => True) (webCode X user q) := by
  cases q with
  | addItem p => exact sec_done (fun _ => .done) (sec_addItem p)
  | sync => exact sec_done (fun _ => .done) (sec_sync X)
  | event ev => exact sec_done (fun _ => .done) (sec_onServerEvent X ev)
  | resolveConflict uuid choice => exact sec_done (fun _ => .done) (sec_resolveConflict X uuid choice)
  | reveal uuid => exact sec_done .plain (sec_reveal uuid)
  | rotateKey mk => exact sec_done .gen (sec_rotateKey X mk)
  | encryptSecretValue project p => exact sec_done .value (sec_encryptSecretValue project p)
  | decryptSecretValue project value => exact sec_done .plain (sec_decryptSecretValue project value)
  | other req => exact sec_done (fun _ => .done) (sec_other X req)

end Ops

/-! ### Runs -/

section Runs

variable {X} {as : List WebAct}

variable (user) in
/-- **The condition on a run.** Every statement meets the condition on a step. -/
def Careful (σ : WebSys) : WebAct → Prop
  | .call _ => True
  | .exec i _ => ∀ l ∈ σ.calls[i]?.bind (·.prog.next), Spares user σ.shared l

instance (σ : WebSys) : DecidablePred (Careful user σ) := fun a => by
  unfold Careful
  split <;> infer_instance

/-- A client that has stored nothing yet, at a server whose versions are positive. -/
structure Started (w : WebWorld) : Prop where
  items : w.store.items = .empty
  past : w.past = .nothing
  rows : ∀ r ∈ w.server.items.rows, 1 ≤ r.version

lemma Started.inv (hw : Started w) : Inv user w := by
  refine ⟨fun x hx => ?_, ?_, ?_, hw.rows⟩
  · have := hx.1
    rw [hw.past] at this
    cases this
  · simp [hw.items, Table.empty]
  · simp [hw.items, Table.empty]

/-- The edit has reached the server, was given up, was reported, or is stored and pending. -/
def Accounted (w : WebWorld) (x : Ident × Blob) : Prop :=
  Closed w x.1 ∨ ∃ i ∈ w.store.items.get x.1, i.pending = true ∧ i.payload = some x.2

instance (w : WebWorld) : DecidablePred (Accounted w) :=
  fun _ => inferInstanceAs (Decidable (_ ∨ ∃ _ ∈ _, _))

/-- **No edit is lost, and nothing unseen is overwritten**, in every run along the condition:
every edit of the user has reached the server, was given up, was reported as a conflict, or is
stored and pending; and every version that a push overwrote had been stored here or chosen by
the user to be overwritten. -/
theorem edits_accounted (hw : Started w) (has : Along (webCode X user) (Careful user) (init w) as) :
    (∀ x ∈ (run (webCode X user) (init w) as).shared.past.edits,
      Accounted (run (webCode X user) (init w) as).shared x) ∧
    ∀ c ∈ (run (webCode X user) (init w) as).calls, Every OverwritesSeen c.trace := by
  have hmet : Met (Grows user) (Meets user) (Does user) (Inv user) (fun _ _ _ => True)
      (run (webCode X user) (init w) as) := by
    refine run_meeting (C := Careful user) (fun σ q s _ => ?_) Grows.refl
      (fun _ _ _ h h' => h.trans h') (fun _ h => h.grows)
      (fun σ i e q tr l f k hc hC hinv => ⟨hinv, hC l (by simp [hc])⟩) (fun ev _ hev => hev.inv)
      (met_init hw.inv) has
    exact wp_mono (fun _ _ _ h => ⟨h.1, trivial⟩) (sec_webCode X q [] s every_nil trivial)
  refine ⟨fun x hx => ?_, fun c hc ev hev => (hmet.every hc ev hev).overwrites⟩
  by_cases hc : Closed (run (webCode X user) (init w) as).shared x.1
  · exact .inl hc
  · obtain ⟨i, hi, hrest⟩ := hmet.inv.kept x ⟨hx, hc⟩
    exact .inr ⟨i, hi, hrest⟩

end Runs

/-! ### An edit that is lost, and a version that is overwritten unseen -/

/-- Any uuid parses, and any blob has a fitting size. -/
def anyUuid : Ext Blob := ⟨fun _ => true, fun _ => 1⟩

/-- The client of a user with one item, unlocked. -/
def unlocked : WebWorld where
  server := ⟨⟨[⟨1, "a", .raw 0, .raw 0, wrapSvk 5 7, .raw 0, 1, 0, 0⟩], by simp⟩,
    ⟨[⟨9, 1, 1, 1, none, some (encrypt (.dek 7) 9 1 (.bytes 1)), 0, some 1⟩], by simp⟩⟩
  store := ⟨0, 1, 1, .empty⟩
  mem := ⟨some 7, some (.dek 7), 1, [], []⟩
  past := .nothing

def calm : ClientEnv := ⟨0, 4, false, 0⟩

def lost : ClientEnv := { calm with fault := true }

/-- The next `n` statements of a call. -/
def steps (i n : ℕ) : List WebAct := List.replicate n (.exec i calm)

/-- What another device writes to an item. -/
def rewrite (uuid : Ident) (version : UInt64) (p : Plain) : WebCmd :=
  .other (.push ⟨1, [⟨uuid, version, 1, some (some (encrypt (.dek 7) uuid 1 p)), none⟩]⟩)

/-- An item is added, the answer to its push is lost, another device changes the item, and the
client syncs. -/
def lostAnswer : List WebAct :=
  .call (.addItem (.bytes 3)) :: steps 0 4 ++ .call .sync :: steps 1 26 ++ [.exec 1 lost] ++
  steps 1 2 ++ .call (rewrite 4 1 (.bytes 5)) :: steps 2 9 ++ .call .sync :: steps 3 30

/-- Two syncs push the same item, so that the second is refused; and so is the next one, for
another device has changed the item; the one after it overwrites what that device wrote. -/
def toldTwice : List WebAct :=
  .call (.addItem (.bytes 3)) :: steps 0 4 ++ .call .sync :: steps 1 18 ++
  .call .sync :: steps 2 12 ++ steps 1 20 ++ steps 2 20 ++
  .call .sync :: steps 3 12 ++ .call (rewrite 4 1 (.bytes 5)) :: steps 4 9 ++ steps 3 20 ++
  .call .sync :: steps 5 30

/-- An edit is pushed, its answer is lost, and it comes back; another device adds and changes
another item meanwhile. -/
def undisturbed : List WebAct :=
  .call (rewrite 9 0 (.bytes 6)) :: steps 0 9 ++ .call (.addItem (.bytes 3)) :: steps 1 4 ++
  .call .sync :: steps 2 30 ++ [.exec 2 lost] ++ steps 2 2 ++
  .call (rewrite 9 1 (.bytes 7)) :: steps 3 9 ++ .call .sync :: steps 4 40

lemma started_unlocked : Started unlocked := by
  constructor <;> simp [unlocked]

/-- An edit whose answer was lost comes back, and is accounted for. -/
theorem edits_accounted_undisturbed :
    (∀ x ∈ (run (webCode anyUuid 1) (init unlocked) undisturbed).shared.past.edits,
      Accounted (run (webCode anyUuid 1) (init unlocked) undisturbed).shared x) ∧
    ∀ c ∈ (run (webCode anyUuid 1) (init unlocked) undisturbed).calls,
      Every OverwritesSeen c.trace :=
  edits_accounted started_unlocked (by decide +kernel)

/-- **A pending edit is replaced** by what was pulled, and no conflict is reported; and **a version
is overwritten** that was never stored here and that nobody chose to overwrite. -/
theorem sync_replaces_and_overwrites :
    (¬∀ x ∈ (run (webCode anyUuid 1) (init unlocked) lostAnswer).shared.past.edits,
      Accounted (run (webCode anyUuid 1) (init unlocked) lostAnswer).shared x) ∧
    ¬∀ c ∈ (run (webCode anyUuid 1) (init unlocked) toldTwice).calls,
      Every OverwritesSeen c.trace := by
  decide +kernel

end Vautr.WebEdits
