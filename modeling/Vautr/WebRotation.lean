import Vautr.Push
import Vautr.WebClient

/-!
The generation of a payload, over every run of the web client.

A payload is bound to the generation it was sealed under. The client keeps one generation for
everything it seals, pushes and opens, and a rotation moves it: what was sealed before and is
pushed or opened after is named by a generation it is not bound to. As long as nothing that
was sealed before a rotation is pushed after it, and no secret value sealed before a rotation
is opened after it, every push names the generation of its payload, every secret value opens,
and every stored item opens.
-/

namespace Vautr.WebRotation

open Vautr.Atomic Vautr.Interleave Vautr.Sql Vautr.Database Vautr.Api Vautr.Server Vautr.Handlers
  Vautr.Push Vautr.Crypto Vautr.Client Vautr.Zoom Vautr.WebClient

/-! ### What a payload is bound to -/

/-- The generation in the associated data of a payload. -/
def boundGen : Blob → Option UInt64
  | .raw _ => none
  | .box _ _ gen _ => some gen

/-- The payload, if it was sealed, was sealed under this generation. -/
def Bound (gen : UInt64) (payload : Option Blob) : Prop :=
  ∀ b ∈ payload, ∀ g ∈ boundGen b, g = gen

instance (gen : UInt64) (payload : Option Blob) : Decidable (Bound gen payload) :=
  -- along the option, and not over all the generations there are
  have (b : Blob) : Decidable (∀ g ∈ boundGen b, g = gen) := Option.decidableForallMem _
  inferInstanceAs (Decidable (∀ b ∈ payload, ∀ g ∈ boundGen b, g = gen))

lemma bound_encrypt (k : DKey) (uuid : Ident) (gen : UInt64) (p : Plain) :
    Bound gen (some (encrypt k uuid gen p)) := by
  rintro b ⟨⟩ g ⟨⟩
  rfl

lemma bound_none (gen : UInt64) : Bound gen none := by
  rintro b ⟨⟩

/-- What is bound to the generation it is opened with opens. -/
lemma Bound.opens {gen g : UInt64} {k : DKey} {uuid : Ident} {p : Plain}
    (h : Bound gen (some (encrypt k uuid g p))) :
    decrypt k uuid gen (encrypt k uuid g p) = some p := by
  rw [← h _ rfl g rfl, decrypt_encrypt]

/-- A pushed item names the generation of its payload. -/
def Named (i : PushItem Blob) : Prop := Bound i.encKeyGen i.payload.join

instance : DecidablePred Named := fun _ => inferInstanceAs (Decidable (Bound _ _))

def RowsNamed (db : Db Blob) : Prop :=
  ∀ r ∈ db.items.rows, Bound (asU64 r.encKeyGen) r.payload

instance : DecidablePred RowsNamed :=
  fun db => inferInstanceAs (Decidable (∀ r ∈ db.items.rows, _))

/-- What another device asks of the server names the generations of its payloads. -/
def ReqNamed : Req Blob → Prop
  | .upsert q => Bound (asU64 q.encKeyGen) q.payload
  | .push req => ∀ i ∈ req.items, Named i
  | .rotate _ => True

instance : DecidablePred ReqNamed
  | .upsert _ => inferInstanceAs (Decidable (Bound _ _))
  | .push req => inferInstanceAs (Decidable (∀ i ∈ req.items, Named i))
  | .rotate _ => inferInstanceAs (Decidable True)

/-! ### The server -/

/-- The statement keeps the rows named. -/
def KeepsRows (ev : DbEv Blob) : Prop := RowsNamed ev.pre → RowsNamed ev.post

lemma keepsRows_of_items {ev : DbEv Blob} (h : ev.post.items = ev.pre.items) : KeepsRows ev := by
  intro hrows r hr
  exact hrows r (h ▸ hr)

lemma keepsRows_of_touching {P : ItemRow Blob → Prop} {ev : DbEv Blob}
    (hP : ∀ r, P r → Bound (asU64 r.encKeyGen) r.payload) (h : Touching P ev) : KeepsRows ev := by
  intro hrows r hr
  by_cases hold : r ∈ ev.pre.items.rows
  · exact hrows r hold
  · exact hP r (h.new hr hold)

variable (X : Ext Blob)

lemma keepsRows_syncPushBatch {req : PushBatchReq Blob} (hreq : ∀ i ∈ req.items, Named i) :
    Guarantees (fun _ _ _ => True) KeepsRows (syncPushBatch X req).run := by
  refine guarantees_mono (fun ev => keepsRows_of_touching ?_) (touching_syncPushBatch req)
  rintro r ⟨i, hi, now, v, n, p, hp, rfl⟩
  have hnamed := hreq i hi
  cases p with
  | none => exact bound_none _
  | some b =>
    rw [Named, hp] at hnamed
    simpa [PushItem.upsert, Upsert.row] using hnamed

lemma keepsRows_accountRotateKey (req : RotateKeyReq Blob) :
    Guarantees (fun _ _ _ => True) KeepsRows (accountRotateKey X req).run :=
  guarantees_accountRotateKey (fun _ _ _ => keepsRows_of_items rfl)
    (guarantees_statement (fun _ _ => keepsRows_of_items rfl) fun _ _ => keepsRows_of_items rfl)
    fun _ _ => guarantees_statement (fun _ _ => keepsRows_of_items rfl) fun _ _ =>
      keepsRows_of_items rfl

lemma keepsRows_serve {req : Req Blob} (hreq : ReqNamed req) :
    Guarantees (fun _ _ _ => True) KeepsRows (serve X req) := by
  cases req with
  | upsert q =>
    refine guarantees_bind (guarantees_mono (fun ev => keepsRows_of_touching ?_)
      (touching_upsertItemOcc _ q)) fun _ => guarantees_ret _
    rintro r ⟨v, n, rfl⟩
    exact hreq
  | push req => exact guarantees_bind (keepsRows_syncPushBatch X hreq) fun _ => guarantees_ret _
  | rotate req =>
    exact guarantees_bind (keepsRows_accountRotateKey X req) fun _ => guarantees_ret _

lemma keepsRows_of_reading {α : Type} {p : Prog (Db Blob) Env Stmt α}
    (h : Guarantees (fun _ _ _ => True) Reading p) :
    Guarantees (fun _ _ _ => True) KeepsRows p :=
  guarantees_mono (fun _ hev => keepsRows_of_items (congrArg _ hev)) h

/-- What `/sync/pull-payloads` delivers. -/
def Delivered (rs : List (PayloadResult Blob)) : Prop :=
  ∀ r ∈ rs, Bound (asU64 r.encKeyGen) r.payload

/-- A pull of payloads from named rows delivers each with its generation. -/
lemma delivered_syncPullPayloads (user : Ident) (items : List (Ident × UInt64)) :
    Yields (fun ev => RowsNamed ev.pre) KeepsRows (IfOk Delivered)
      (syncPullPayloads user items).run := by
  unfold syncPullPayloads
  split
  · exact yields_ret trivial
  clear *-
  induction items with
  | nil => exact yields_ret (by simp [IfOk, Delivered])
  | cons i rest ih =>
    obtain ⟨uuid, version⟩ := i
    refine yields_bind_except (P := fun row => Bound
        (asU64 (payloadResult uuid version row).encKeyGen) (payloadResult uuid version row).payload)
      (yields_orInternal (yields_select (fun _ _ _ => id) fun e db hdb => ?_)) (fun row hrow => ?_)
      fun _ => trivial
    · cases hget : db.items.get (uuid, user) with
      | none => exact bound_none _
      | some r =>
        simp only [payloadResult]
        split
        · exact hdb r (Table.get_mem hget)
        · exact bound_none _
    · refine yields_bind_except ih (fun rs hrs => yields_ret ?_) fun _ => trivial
      simpa [IfOk, Delivered] using ⟨hrow, hrs⟩

/-! ### The client -/

/-- The key of the client, and what is bound to the generation it is stored with. -/
structure Inv (k : Option DKey) (w : WebWorld) : Prop where
  dek : w.mem.dek = k
  rows : RowsNamed w.server
  items : ∀ i ∈ w.store.items.rows, Bound i.encKeyGen i.payload
  issued : ∀ x ∈ w.past.issued, ∃ key, k = some key ∧ x.2.1 = encrypt key x.1 x.2.2.2 x.2.2.1

/-- **The condition on a step.** What is pushed was sealed, or delivered, under the generation
now in force, and a secret value is opened under the generation it was sealed under. -/
def InForce (w : WebWorld) : WebLabel → Prop
  | .batch pending => ∀ i ∈ pending, i.encKeyGen = w.mem.localKeyGen
  | .openValue project value =>
    ∀ x ∈ w.past.issued, x.1 = project → x.2.1 = value → x.2.2.2 = w.mem.localKeyGen
  | _ => True

instance (w : WebWorld) : DecidablePred (InForce w) := fun l => by
  apply WebLabel.casesOn (motive := fun l => Decidable (InForce w l)) l <;> intros <;>
    (unfold InForce; infer_instance)

/-- What is known of a statement before it is run. -/
def Meets (k : Option DKey) (ev : WebEv) : Prop := Inv k ev.pre ∧ InForce ev.pre ev.name

/-- **What a statement does.** It keeps the invariant; what is sent to be pushed names its
generations; what was issued stays issued. -/
structure Does (k : Option DKey) (ev : WebEv) : Prop where
  inv : Inv k ev.post
  named : ∀ items, ev.name = .send (.pushBatch items) → ∀ i ∈ items, Named i
  issued : ev.pre.past.issued ⊆ ev.post.past.issued

section Steps

variable {k : Option DKey} {α : Type} {P : α → Prop} {w : WebWorld}

/-- A statement that leaves the server, the key and what was issued alone. -/
lemma Does.of {l : WebLabel} {e : ClientEnv} {w' : WebWorld} (h : Inv k w)
    (hl : ∀ items, l ≠ .send (.pushBatch items)) (hserver : w'.server = w.server)
    (hdek : w'.mem.dek = w.mem.dek) (hissued : w'.past.issued = w.past.issued)
    (hitems : ∀ i ∈ w'.store.items.rows, Bound i.encKeyGen i.payload) : Does k ⟨l, e, w, w'⟩ where
  inv := ⟨hdek.trans h.dek, by rw [hserver]; exact h.rows, hitems, by rw [hissued]; exact h.issued⟩
  named items heq := absurd heq (hl items)
  issued := by rw [hissued]; exact fun _ => id

lemma Does.same {l : WebLabel} {e : ClientEnv} (h : Inv k w)
    (hl : ∀ items, l ≠ .send (.pushBatch items)) : Does k ⟨l, e, w, w⟩ :=
  .of h hl rfl rfl rfl h.items

lemma yields_onMem {l : WebLabel} {g : ClientEnv → WebWorld → WebWorld × α}
    (h : ∀ e w, Inv k w → InForce w l → Does k ⟨l, e, w, (g e w).1⟩ ∧ P (g e w).2) :
    Yields (Meets k) (Does k) (IfOk P) (onMem l g).run :=
  yields_stmt fun e w hM => ⟨(h e w hM.1 hM.2).1, yields_ret (h e w hM.1 hM.2).2⟩

lemma yields_readMem {g : WebMemory → α} (h : ∀ w, Inv k w → P (g w.mem)) :
    Yields (Meets k) (Does k) (IfOk P) (readMem g).run :=
  yields_onMem fun _ w hw _ => ⟨.same hw (by simp), h w hw⟩

lemma yields_emit (us : List WebUpdate) :
    Yields (Meets k) (Does k) (IfOk fun _ => True) (emit us).run :=
  yields_onMem fun _ _ hw _ => ⟨.of hw (by simp) rfl rfl rfl hw.items, trivial⟩

lemma yields_onStore {l : WebLabel} {g : WebWorld → WebWorld × α}
    (hl : ∀ items, l ≠ .send (.pushBatch items))
    (h : ∀ e w, Inv k w → Does k ⟨l, e, w, (g w).1⟩ ∧ P (g w).2) :
    Yields (Meets k) (Does k) (IfOk P) (onStore l g).run := by
  refine yields_stmt fun e w hM => ?_
  cases hf : e.fault with
  | true => simpa [hf] using ⟨Does.same hM.1 hl, yields_ret trivial⟩
  | false => simpa [hf] using ⟨(h e w hM.1).1, yields_ret (h e w hM.1).2⟩

lemma yields_getItems : Yields (Meets k) (Does k)
    (IfOk fun items => ∀ i ∈ items, Bound i.encKeyGen i.payload) getItems.run :=
  yields_onStore (by simp) fun _ _ hw => ⟨.same hw (by simp), hw.items⟩

lemma yields_setState (g : WebStore → WebStore) :
    Yields (Meets k) (Does k) (IfOk fun _ => True) (setState g).run :=
  yields_onStore (by simp) fun _ _ hw => ⟨.of hw (by simp) rfl rfl rfl hw.items, trivial⟩

/-- What is put names its generation. -/
lemma yields_putItem {l : WebLabel} {i : StoredItem} {note : Past → Past}
    (hl : ∀ items, l ≠ .send (.pushBatch items)) (hi : Bound i.encKeyGen i.payload)
    (hnote : ∀ p, (note p).issued = p.issued) :
    Yields (Meets k) (Does k) (IfOk fun _ => True) (putItem l i note).run := by
  refine yields_onStore hl fun e w hw => ⟨.of hw hl rfl rfl (hnote _) fun r hr => ?_, trivial⟩
  rcases Table.mem_upsert hr with hr | rfl | ⟨r₀, -, -, rfl⟩
  · exact hw.items r hr
  · exact hi
  · exact hi

lemma yields_deleteItem {l : WebLabel} (hl : ∀ items, l ≠ .send (.pushBatch items))
    (uuid : Ident) : Yields (Meets k) (Does k) (IfOk fun _ => True) (deleteItem l uuid).run :=
  yields_onStore hl fun _ _ hw => ⟨.of hw hl rfl rfl rfl fun r hr =>
    hw.items r (Table.mem_delete.mp hr).1, trivial⟩

/-- A program of the server, run for the client or for another device. -/
lemma yields_server {name : Stmt → WebLabel} {p : Prog (Db Blob) Env Stmt α}
    (hname : ∀ l items, name l ≠ .send (.pushBatch items))
    (hp : Yields (fun ev => RowsNamed ev.pre) KeepsRows P p) :
    Yields (Meets k) (Does k) P (zoom (webServer name) p) :=
  yields_zoom hp (fun _ _ _ _ hM => hM.1.rows) fun l _ _ _ hM hG =>
    ⟨⟨hM.1.dek, hG hM.1.rows, hM.1.items, hM.1.issued⟩, fun items h => absurd h (hname l items),
      fun _ => id⟩

lemma yields_half {l : WebLabel} {r : Except WebError α} (hr : IfOk P r)
    (hl : ∀ items, l = .send (.pushBatch items) → ∀ i ∈ items, Named i) :
    Yields (Meets k) (Does k) (IfOk P) (half l r).run := by
  refine yields_stmt fun e w hM => ⟨⟨hM.1, hl, fun _ => id⟩, yields_ret ?_⟩
  dsimp only
  split
  · trivial
  · exact hr

/-- A request yields what the server answers. -/
lemma yields_request {r : WebRequest} {x : ServerHandler Blob α}
    (hr : ∀ items, r = .pushBatch items → ∀ i ∈ items, Named i)
    (hx : Yields (fun ev => RowsNamed ev.pre) KeepsRows (IfOk P) x.run) :
    Yields (Meets k) (Does k) (IfOk P) (request r x).run := by
  have hsend : Yields (Meets k) (Does k) (IfOk fun _ : Unit => True)
      (half (.send r) (.ok ())).run :=
    yields_half trivial fun items h => hr items (by injection h)
  have hanswer : Yields (Meets k) (Does k) (IfOk (IfOk P))
      (ExceptT.lift (zoom (webServer (.served r)) x.run) : WebOp (Except ApiError α)).run := by
    rw [ExceptT.run_lift]
    exact yields_bind (yields_server (by simp) hx) fun _ ha => yields_ret ha
  refine yields_bind_except hsend (fun _ _ => yields_bind_except hanswer (fun answer ha =>
    yields_half ?_ (by simp)) fun _ => trivial) fun _ => trivial
  cases answer with
  | ok a => exact ha
  | error e => trivial

end Steps

/-! ### The operations -/

section Ops

variable {k : Option DKey} (user : Ident)

/-- A program in two parts, of which nothing is said when the first one fails. -/
lemma yields_then {α β : Type} {P : α → Prop} {P' : β → Prop} {x : WebOp α} {f : α → WebOp β}
    (hx : Yields (Meets k) (Does k) (IfOk P) x.run)
    (hf : ∀ a, P a → Yields (Meets k) (Does k) (IfOk P') (f a).run) :
    Yields (Meets k) (Does k) (IfOk P') (x >>= f).run :=
  yields_bind_except hx hf fun _ => trivial

lemma yields_applyPulled (localItems : List StoredItem) (items : List PullItem) :
    Yields (Meets k) (Does k) (IfOk fun _ => True) (applyPulled localItems items).run := by
  induction items with
  | nil => exact yields_ret trivial
  | cons item rest ih =>
    unfold applyPulled
    split
    · exact yields_then (yields_deleteItem (by simp) _) fun _ _ =>
        yields_then (yields_emit _) fun _ _ => ih
    · refine yields_then ih fun need _ => ?_
      dsimp only
      split <;> exact yields_ret trivial

/-- What was delivered with its generation is stored with it. -/
lemma yields_storePulled {results : List (PayloadResult Blob)} (h : Delivered results) :
    Yields (Meets k) (Does k) (IfOk fun _ => True) (storePulled results).run := by
  induction results with
  | nil => exact yields_ret trivial
  | cons r rest ih =>
    have hrest := ih fun r' hr' => h r' (List.mem_cons_of_mem _ hr')
    have hr : Bound (asU64 r.encKeyGen) r.payload := h r List.mem_cons_self
    unfold storePulled
    split
    · exact hrest
    · next payload hp =>
      split
      · exact hrest
      refine yields_then (P := fun _ => True) (yields_readMem fun _ _ => trivial) fun dek _ => ?_
      have hput : Yields (Meets k) (Does k) (IfOk fun _ => True)
          (putItem (.putPulled r.uuid) (pulledItem r) (·.pulled r payload)).run :=
        yields_putItem (by simp) hr fun _ => rfl
      dsimp only
      split
      · exact yields_then (P := fun _ => True) (yields_onMem fun _ _ hw _ =>
          ⟨.of hw (by simp) rfl rfl rfl hw.items, trivial⟩) fun _ _ =>
            yields_then hput fun _ _ => yields_then (yields_emit _) fun _ _ => hrest
      · exact yields_then hput fun _ _ => yields_then (yields_emit _) fun _ _ => hrest

lemma yields_fetchPayloads (batches : List (List (Ident × UInt64))) :
    Yields (Meets k) (Does k) (IfOk fun _ => True) (fetchPayloads user batches).run := by
  induction batches with
  | nil => exact yields_ret trivial
  | cons batch rest ih =>
    exact yields_then (yields_request (by simp) (delivered_syncPullPayloads user batch))
      fun results hr => yields_then (yields_storePulled hr) fun _ _ => ih

lemma yields_settlePushed (results : List PushResult) {pending : List StoredItem}
    (h : ∀ i ∈ pending, Bound i.encKeyGen i.payload) :
    Yields (Meets k) (Does k) (IfOk fun _ => True) (settlePushed results pending).run := by
  induction pending with
  | nil => exact yields_ret trivial
  | cons i rest ih =>
    refine yields_then (yields_putItem (by simp) (h i List.mem_cons_self) fun p => ?_) fun _ _ =>
      ih fun i' hi' => h i' (List.mem_cons_of_mem _ hi')
    unfold Past.settled
    split <;> rfl

/-- **What is pushed names its generation**, as the condition has it. -/
lemma yields_pushPending {pending : List StoredItem}
    (h : ∀ i ∈ pending, Bound i.encKeyGen i.payload) :
    Yields (Meets k) (Does k) (IfOk fun _ => True) (pushPending X user pending).run := by
  unfold pushPending
  split
  · exact yields_ret trivial
  refine yields_then (P := fun items => ∀ i ∈ items, Named i)
    (yields_onMem fun _ w hw hforce => ⟨.same hw (by simp), ?_⟩) fun items hitems => ?_
  · intro item hitem
    obtain ⟨i, hi, rfl⟩ := List.mem_map.mp hitem
    have hgen : i.encKeyGen = w.mem.localKeyGen := hforce i hi
    have hjoin : (i.payload.map some).join = i.payload := by cases i.payload <;> rfl
    simpa [Named, StoredItem.push, hjoin, ← hgen] using h i hi
  · refine yields_then (P := fun _ => True) (yields_request (fun items' heq => ?_)
      (yields_of_guarantees (keepsRows_syncPushBatch X hitems) fun r => by cases r <;> trivial))
      fun results _ => yields_then (yields_settlePushed results h) fun _ _ => yields_emit _
    cases heq
    exact hitems

lemma yields_reading {α : Type} {r : WebRequest} {x : ServerHandler Blob α}
    (hr : ∀ items, r ≠ .pushBatch items) (hx : Guarantees (fun _ _ _ => True) Reading x.run) :
    Yields (Meets k) (Does k) (IfOk fun _ => True) (request r x).run :=
  yields_request (fun items heq => absurd heq (hr items))
    (yields_of_guarantees (keepsRows_of_reading hx) fun r => by cases r <;> trivial)

lemma yields_syncBody : Yields (Meets k) (Does k) (IfOk fun _ => True) (syncBody X user).run := by
  refine yields_then (P := fun _ => True) (yields_onStore (by simp) fun _ _ hw =>
    ⟨.same hw (by simp), trivial⟩) fun state _ =>
    yields_then (yields_reading (by simp) (reading_syncPull user _ _)) fun pull _ => ?_
  have hrest : Yields (Meets k) (Does k) (IfOk fun _ => True) (do
      setState ({ · with minEncKeyGen := asU64 pull.minEncKeyGen })
      let localItems ← getItems
      let need ← applyPulled localItems pull.items
      fetchPayloads user (slices need)
      let items ← getItems
      pushPending X user (items.filter (·.pending))
      setState ({ · with cursor := pull.newCursor })
      emit [.syncCompleted] : WebOp Unit).run :=
    yields_then (yields_setState _) fun _ _ => yields_then yields_getItems fun localItems _ =>
      yields_then (yields_applyPulled _ _) fun need _ =>
      yields_then (yields_fetchPayloads user _) fun _ _ =>
      yields_then yields_getItems fun items hitems =>
      yields_then (yields_pushPending X user fun i hi => hitems i (List.mem_filter.mp hi).1)
        fun _ _ => yields_then (yields_setState _) fun _ _ => yields_emit _
  dsimp only
  split
  · exact yields_then (yields_emit _) fun _ _ => hrest
  · exact hrest

/-- The key that the code has in hand is the key of the client. -/
lemma yields_requireDek : Yields (Meets k) (Does k) (IfOk fun dek => k = some dek)
    requireDek.run := by
  refine yields_then (P := fun dek => dek = k) (yields_readMem fun w hw => hw.dek) fun dek hdek => ?_
  cases dek with
  | none => exact yields_ret trivial
  | some dek => exact yields_ret hdek.symm

lemma yields_tryCatch {α : Type} {P : α → Prop} {x : WebOp α} {f : WebError → WebOp α}
    (hx : Yields (Meets k) (Does k) (IfOk P) x.run)
    (hf : ∀ e, Yields (Meets k) (Does k) (IfOk P) (f e).run) :
    Yields (Meets k) (Does k) (IfOk P) (tryCatch x f).run := by
  refine yields_bind hx fun r hr => ?_
  cases r with
  | ok a => exact yields_ret hr
  | error e => exact hf e

lemma yields_sync : Yields (Meets k) (Does k) (IfOk fun _ => True) (sync X user).run :=
  yields_then yields_requireDek fun _ _ => yields_then (yields_emit _) fun _ _ =>
    yields_tryCatch (yields_syncBody X user) fun _ =>
      yields_then (yields_emit _) fun _ _ => yields_ret trivial

lemma yields_addItem (p : Plain) :
    Yields (Meets k) (Does k) (IfOk fun _ => True) (addItem p).run := by
  refine yields_then yields_requireDek fun dek _ =>
    yields_then (P := fun i => Bound i.encKeyGen i.payload) (yields_onMem fun e w hw _ =>
      ⟨.same hw (by simp), bound_encrypt _ _ _ _⟩) fun item hitem =>
    yields_then (yields_putItem (by simp) hitem fun _ => rfl) fun _ _ => yields_emit _

lemma yields_onServerEvent (ev : ServerEvent) :
    Yields (Meets k) (Does k) (IfOk fun _ => True) (onServerEvent X user ev).run := by
  cases ev with
  | itemPermanentlyDeleted uuid =>
    exact yields_then (yields_deleteItem (by simp) _) fun _ _ => yields_emit _
  | itemRecovered uuid =>
    refine yields_then (P := fun _ => True) (yields_readMem fun _ _ => trivial) fun dek _ => ?_
    split
    · exact yields_then (yields_emit _) fun _ _ =>
        yields_tryCatch (yields_sync X user) fun _ => yields_ret trivial
    · exact yields_ret trivial

lemma yields_resolveConflict (uuid : Ident) (choice : ConflictChoice) :
    Yields (Meets k) (Does k) (IfOk fun _ => True) (resolveConflict X user uuid choice).run := by
  refine yields_then yields_requireDek fun _ _ =>
    yields_then (P := fun i => ∀ i' ∈ i, Bound i'.encKeyGen i'.payload)
      (yields_onStore (by simp) fun e w hw => ⟨.of hw (by simp) rfl rfl ?_ hw.items, ?_⟩)
      fun item hitem => ?_
  · cases choice <;> rfl
  · exact fun i hi => hw.items i (Table.get_mem hi)
  · cases choice with
    | acceptServer =>
      exact yields_then (yields_deleteItem (by simp) _) fun _ _ =>
        yields_then (yields_emit _) fun _ _ => yields_sync X user
    | pushLocal =>
      cases item with
      | none => exact yields_sync X user
      | some i =>
        exact yields_then (yields_putItem (l := .putPending uuid) (by simp) (hitem i rfl)
          fun _ => rfl) fun _ _ => yields_sync X user

lemma yields_rotateKey (mk : Key) :
    Yields (Meets k) (Does k) (IfOk fun _ => True) (rotateKey X user mk).run := by
  refine yields_then (P := fun _ => True) (yields_readMem fun _ _ => trivial) fun svk _ => ?_
  cases svk with
  | none => exact yields_ret trivial
  | some svk =>
    exact yields_then (yields_reading (by simp) (reading_accountStatus user)) fun status _ =>
      yields_then (P := fun _ => True) (yields_onStore (by simp) fun _ _ hw =>
        ⟨.same hw (by simp), trivial⟩) fun _ _ =>
      yields_then (P := fun _ => True) (yields_request (by simp) (yields_of_guarantees
        (keepsRows_accountRotateKey X _) fun r => by cases r <;> trivial)) fun resp _ =>
      yields_then (P := fun _ => True) (yields_onMem fun _ _ hw _ =>
        ⟨.of hw (by simp) rfl rfl rfl hw.items, trivial⟩) fun _ _ =>
      yields_then (yields_setState _) fun _ _ => yields_ret trivial

/-- A secret value is sealed under the key of the client. -/
lemma yields_encryptSecretValue (project : Ident) (p : Plain) :
    Yields (Meets k) (Does k) (IfOk fun _ => True) (encryptSecretValue project p).run := by
  refine yields_then yields_requireDek fun dek hdek =>
    yields_onMem fun e w hw _ => ⟨⟨⟨hw.dek, hw.rows, hw.items, fun x hx => ?_⟩, by simp,
      List.subset_append_left _ _⟩, trivial⟩
  rcases List.mem_append.mp hx with hx | hx
  · exact hw.issued x hx
  · rw [List.mem_singleton.mp hx]
    exact ⟨dek, hdek, rfl⟩

end Ops

/-! ### The calls -/

/-- What an answer says: a secret value that was issued is opened, and so is an item that was
found. -/
def Opens (k : Option DKey) : WebCmd → Except WebError WebReply → List WebEv → Prop
  | .decryptSecretValue project value, r, tr =>
    (k.isSome → ∃ ev ∈ tr, ev.name = .openValue project value) ∧
    ∀ ev ∈ tr, ev.name = .openValue project value → ∀ x ∈ ev.pre.past.issued, x.1 = project →
      x.2.1 = value → r = .ok (.plain x.2.2.1)
  | .reveal uuid, r, tr =>
    ∀ ev ∈ tr, ev.name = .getItem uuid → ev.inp.fault = false →
      ∀ i, ev.pre.store.items.get uuid = some i → ∀ key gen p, k = some key →
        i.payload = some (encrypt key uuid gen p) → r = .ok (.plain p)
  | _, _, _ => True

section Calls

variable {k : Option DKey} (user : Ident)

/-- What is issued opens, as the condition has it. -/
lemma wp_decryptSecretValue (project : Ident) (value : Blob) (w : WebWorld) :
    wp (meeting (fun _ _ => True) (Meets k) (Does k)) (webCode X user (.decryptSecretValue project value))
      (fun r tr _ => Every (Does k) tr ∧ Opens k (.decryptSecretValue project value) r tr) [] w := by
  refine ⟨every_nil, fun w₁ e₁ _ hok₁ => ?_⟩
  have hM₁ : Meets k _ := hok₁ _ (List.mem_append_right _ (List.mem_singleton_self _))
  have htr₁ := every_append every_nil (Does.same (e := e₁) hM₁.1 (l := .memory) (by simp))
  have hdek : w₁.mem.dek = k := hM₁.1.dek
  dsimp only
  rw [hdek]
  cases k with
  | none =>
    refine ⟨htr₁, fun h => by simp at h, fun ev hev hname => ?_⟩
    rw [List.mem_singleton.mp hev] at hname
    cases hname
  | some key =>
    refine ⟨htr₁, fun w₂ e₂ _ hok₂ => ?_⟩
    have hM₂ : Meets (some key) _ := hok₂ _ (List.mem_append_right _ (List.mem_singleton_self _))
    have htr₂ := every_append htr₁
      (Does.same (e := e₂) hM₂.1 (l := .openValue project value) (by simp))
    -- a value that the client has issued opens under the key and the generation it has
    have hopen : ∀ x ∈ w₂.past.issued, x.1 = project → x.2.1 = value →
        decrypt key project w₂.mem.localKeyGen value = some x.2.2.1 := by
      rintro ⟨_, _, p, gen⟩ hx rfl rfl
      obtain ⟨key', hkey, hval⟩ := hM₂.1.issued _ hx
      have hgen : gen = w₂.mem.localKeyGen := hM₂.2 _ hx rfl rfl
      cases hkey
      dsimp only at hval ⊢
      rw [hval, hgen, decrypt_encrypt]
    have hends : ∀ r, (∀ x ∈ w₂.past.issued, x.1 = project → x.2.1 = value →
        r = .ok (.plain x.2.2.1)) → Opens (some key) (.decryptSecretValue project value) r
          (([] ++ [⟨.memory, e₁, w₁, w₁⟩]) ++ [⟨.openValue project value, e₂, w₂, w₂⟩]) := by
      refine fun r hr => ⟨fun _ => ⟨_, List.mem_append_right _ (List.mem_singleton_self _), rfl⟩,
        fun ev hev hname => ?_⟩
      rcases List.mem_append.mp hev with hev | hev
      · rw [List.nil_append] at hev
        rw [List.mem_singleton.mp hev] at hname
        cases hname
      · rw [List.mem_singleton.mp hev]
        exact hr
    dsimp only
    cases hd : decrypt key project w₂.mem.localKeyGen value with
    | none => exact ⟨htr₂, hends _ fun x hx hp hv => absurd (hopen x hx hp hv) (by simp [hd])⟩
    | some p =>
      refine ⟨htr₂, hends _ fun x hx hp hv => ?_⟩
      rw [hopen x hx hp hv, Option.some.injEq] at hd
      rw [hd]

/-- What is stored opens, for it is stored with its generation. -/
lemma wp_reveal (uuid : Ident) (w : WebWorld) :
    wp (meeting (fun _ _ => True) (Meets k) (Does k)) (webCode X user (.reveal uuid))
      (fun r tr _ => Every (Does k) tr ∧ Opens k (.reveal uuid) r tr) [] w := by
  refine ⟨every_nil, fun w₁ e₁ _ hok₁ => ?_⟩
  have hM₁ : Meets k _ := hok₁ _ (List.mem_append_right _ (List.mem_singleton_self _))
  have htr₁ := every_append every_nil (Does.same (e := e₁) hM₁.1 (l := .memory) (by simp))
  have hdek : w₁.mem.dek = k := hM₁.1.dek
  dsimp only
  rw [hdek]
  cases k with
  | none =>
    refine ⟨htr₁, fun ev hev hname => ?_⟩
    rw [List.mem_singleton.mp hev] at hname
    cases hname
  | some key =>
    refine ⟨htr₁, fun w₂ e₂ _ hok₂ => ?_⟩
    have hends : ∀ r, (e₂.fault = false → ∀ i, w₂.store.items.get uuid = some i → ∀ gen p,
        i.payload = some (encrypt key uuid gen p) → r = .ok (.plain p)) →
        Opens (some key) (.reveal uuid) r
          (([] ++ [⟨.memory, e₁, w₁, w₁⟩]) ++ [⟨.getItem uuid, e₂, w₂, w₂⟩]) := by
      refine fun r hr ev hev hname => ?_
      rcases List.mem_append.mp hev with hev | hev
      · rw [List.nil_append] at hev
        rw [List.mem_singleton.mp hev] at hname
        cases hname
      · rw [List.mem_singleton.mp hev]
        rintro hf i hi _ gen p ⟨⟩
        exact hr hf i hi gen p
    cases hf : e₂.fault with
    | true =>
      simp only [hf] at hok₂ ⊢
      have hM₂ : Meets (some key) _ := hok₂ _ (List.mem_append_right _ (List.mem_singleton_self _))
      have htr₂ := every_append htr₁ (Does.same (e := e₂) hM₂.1 (l := .getItem uuid) (by simp))
      exact ⟨htr₂, hends _ fun h => absurd hf (by simp [h])⟩
    | false =>
      simp only [hf] at hok₂ ⊢
      have hM₂ : Meets (some key) _ := hok₂ _ (List.mem_append_right _ (List.mem_singleton_self _))
      have htr₂ := every_append htr₁ (Does.same (e := e₂) hM₂.1 (l := .getItem uuid) (by simp))
      rcases hget : w₂.store.items.get uuid with _ | ⟨i, v, gen, d, _ | payload, b⟩
      · exact ⟨htr₂, hends _ fun _ i hi => by cases hget.symm.trans hi⟩
      · refine ⟨htr₂, hends _ fun _ i hi g p hp => ?_⟩
        cases hget.symm.trans hi
        cases hp
      · -- the payload opens for the generation that is stored beside it
        have hbound : Bound gen (some payload) := hM₂.1.items _ (Table.get_mem hget)
        have hopen : ∀ g p, payload = encrypt key uuid g p → decrypt key uuid gen payload = some p := by
          rintro g p rfl
          exact hbound.opens
        simp only [Bool.false_eq_true, if_false, Prog.bind, ExceptT.bindCont]
        cases hd : decrypt key uuid gen payload with
        | none =>
          refine ⟨htr₂, hends _ fun _ i hi g p hp => ?_⟩
          cases hget.symm.trans hi
          exact absurd (hopen g p (Option.some.inj hp)) (by simp [hd])
        | some q =>
          refine ⟨htr₂, hends _ fun _ i hi g p hp => ?_⟩
          cases hget.symm.trans hi
          rw [hopen g p (Option.some.inj hp), Option.some.injEq] at hd
          rw [hd]

end Calls

section Runs

variable (user : Ident)

/-- A call of which nothing more is said. -/
lemma wp_done {k : Option DKey} (q : WebCmd) {α : Type} {x : WebOp α} (f : α → WebReply)
    (hq : ∀ r tr, Opens k q r tr) (hcode : webExec X user q = (do return f (← x)))
    (h : Yields (Meets k) (Does k) (IfOk fun _ => True) x.run) (w : WebWorld) :
    wp (meeting (fun _ _ => True) (Meets k) (Does k)) (webCode X user q)
      (fun r tr _ => Every (Does k) tr ∧ Opens k q r tr) [] w := by
  have hdone : Yields (Meets k) (Does k) (IfOk fun _ => True)
      (do return f (← x) : WebOp WebReply).run :=
    yields_then h fun _ _ => yields_ret trivial
  rw [webCode, hcode]
  exact wp_mono (fun _ _ _ h => ⟨h.1, hq _ _⟩) (hdone [] w every_nil trivial)

/-- Every call keeps the invariant, pushes what it names, and opens what was issued. -/
lemma wp_webCode {k : Option DKey} {q : WebCmd} (hq : ∀ req, q = .other req → ReqNamed req)
    (w : WebWorld) : wp (meeting (fun _ _ => True) (Meets k) (Does k)) (webCode X user q)
      (fun r tr _ => Every (Does k) tr ∧ Opens k q r tr) [] w := by
  cases q with
  | reveal uuid => exact wp_reveal X user uuid w
  | decryptSecretValue project value => exact wp_decryptSecretValue X user project value w
  | addItem p =>
    exact wp_done X user (.addItem p) (fun _ => .done) (fun _ _ => trivial) rfl (yields_addItem p) w
  | sync =>
    exact wp_done X user .sync (fun _ => .done) (fun _ _ => trivial) rfl (yields_sync X user) w
  | event ev =>
    exact wp_done X user (.event ev) (fun _ => .done) (fun _ _ => trivial) rfl
      (yields_onServerEvent X user ev) w
  | resolveConflict uuid choice =>
    exact wp_done X user (.resolveConflict uuid choice) (fun _ => .done) (fun _ _ => trivial) rfl
      (yields_resolveConflict X user uuid choice) w
  | rotateKey mk =>
    exact wp_done X user (.rotateKey mk) .gen (fun _ _ => trivial) rfl (yields_rotateKey X user mk) w
  | encryptSecretValue project p =>
    exact wp_done X user (.encryptSecretValue project p) .value (fun _ _ => trivial) rfl (yields_encryptSecretValue project p) w
  | other req =>
    have hother : Yields (Meets k) (Does k) (IfOk fun _ => True)
        (ExceptT.lift (zoom (webServer .elsewhere) (serve X req)) : WebOp Reply).run := by
      rw [ExceptT.run_lift]
      exact yields_bind (yields_server (by simp) (yields_of_guarantees (P := fun _ => True)
        (keepsRows_serve X (hq req rfl)) fun _ => trivial)) fun _ _ => yields_ret trivial
    exact wp_done X user (.other req) (fun _ => .done) (fun _ _ => trivial) rfl hother w

/-- **The condition on a run.** Every statement meets the condition, and the other devices name
the generations of their payloads. -/
def Careful (σ : WebSys) : WebAct → Prop
  | .call (.other req) => ReqNamed req
  | .call _ => True
  | .exec i _ => ∀ l ∈ σ.calls[i]?.bind (·.prog.next), InForce σ.shared l

instance (σ : WebSys) : DecidablePred (Careful σ)
  | .call q => by
    apply WebCmd.casesOn (motive := fun q => Decidable (Careful σ (.call q))) q <;> intros <;>
      (unfold Careful; infer_instance)
  | .exec i _ => inferInstanceAs (Decidable (∀ l ∈ σ.calls[i]?.bind (·.prog.next), _))

/-- Where a run starts: what is stored, here and at the server, names its generation, and no
secret value was issued yet. -/
structure Started (w : WebWorld) : Prop where
  rows : RowsNamed w.server
  items : ∀ i ∈ w.store.items.rows, Bound i.encKeyGen i.payload
  issued : w.past.issued = []

/-- A push names the generation of each of its payloads. -/
def PushesNamed (ev : WebEv) : Prop :=
  match ev.name with
  | .send (.pushBatch items) => ∀ i ∈ items, Named i
  | _ => True

instance : DecidablePred PushesNamed := fun ⟨name, e, s, s'⟩ => by
  apply WebLabel.casesOn (motive := fun name => Decidable (PushesNamed ⟨name, e, s, s'⟩)) name
  case send =>
    intro r
    apply WebRequest.casesOn (motive := fun r => Decidable (PushesNamed ⟨.send r, e, s, s'⟩)) r <;>
      intros <;> (unfold PushesNamed; infer_instance)
  all_goals
    intros
    exact inferInstanceAs (Decidable True)

variable {X user} {w : WebWorld} {as : List WebAct}

lemma run_met (hw : Started w) (has : Along (webCode X user) Careful (init w) as) :
    Met (fun _ _ => True) (Meets w.mem.dek) (Does w.mem.dek) (Inv w.mem.dek) (Opens w.mem.dek)
      (run (webCode X user) (init w) as) := by
  refine run_meeting (C := Careful) (fun σ q s hC => wp_webCode X user (fun req hreq => ?_) s)
    (fun _ => trivial) (fun _ _ _ _ _ => trivial) (fun _ _ => trivial) (fun σ i e q tr l f k hc hC hinv => ⟨hinv, ?_⟩) (fun ev _ hev => hev.inv)
    (met_init ⟨rfl, hw.rows, hw.items, by simp [hw.issued]⟩) has
  · subst hreq
    exact hC
  · exact hC l (by simp [hc])

/-- **Generations agree**, in every run along the condition: every push names the generations of
its payloads; a secret value that was issued before it is asked for opens to its plaintext; and
a stored item that is revealed opens to its plaintext. -/
theorem web_generations (hw : Started w) (has : Along (webCode X user) Careful (init w) as) :
    (∀ c ∈ (run (webCode X user) (init w) as).calls, Every PushesNamed c.trace) ∧
    (∀ before project value after,
      as = before ++ .call (.decryptSecretValue project value) :: after →
      ∀ p gen, (project, value, p, gen) ∈
        (run (webCode X user) (init w) before).shared.past.issued →
      ∀ c, (run (webCode X user) (init w) as).calls[
          (run (webCode X user) (init w) before).calls.length]? = some c →
        ∀ r ∈ c.prog.result, r = .ok (.plain p)) ∧
    ∀ c ∈ (run (webCode X user) (init w) as).calls, ∀ uuid, c.req = .reveal uuid →
      ∀ r ∈ c.prog.result, ∀ ev ∈ c.trace, ev.name = .getItem uuid → ev.inp.fault = false →
        ∀ i, ev.pre.store.items.get uuid = some i → ∀ key gen p, w.mem.dek = some key →
          i.payload = some (encrypt key uuid gen p) → r = .ok (.plain p) := by
  have hmet := run_met hw has
  refine ⟨fun c hc ev hev => ?_, ?_, fun c hc uuid hreq r hr => ?_⟩
  · unfold PushesNamed
    split
    · next items hname => exact (hmet.every hc ev hev).named items hname
    · trivial
  · rintro before project value after rfl p gen hx c hc r hr
    have hreq : c.req = .decryptSecretValue project value := by
      have := req_of_call (h := webCode X user) (init w) before after
        (.decryptSecretValue project value)
      rw [hc] at this
      simpa using this
    have hb := ((along_append before (.call (.decryptSecretValue project value) :: after)
      (init w)).mp has).1
    have hval := (run_met hw hb).inv.issued _ hx
    rw [run_append, run_cons] at hmet hc
    -- what was issued before the call is issued at every statement of it
    have hfinds := run_finds (T := fun w => (project, value, p, gen) ∈ w.past.issued)
      (G := Does w.mem.dek) hx (fun ev hev h => hev.issued h)
      (fun c hc => hmet.every hc) hc
    obtain ⟨hread, hopen⟩ : Opens w.mem.dek (.decryptSecretValue project value) r c.trace :=
      hreq ▸ hmet.post (List.mem_of_getElem? hc) hr
    obtain ⟨key, hkey, -⟩ := hval
    obtain ⟨ev, hev, hname⟩ := hread (by simp [hkey])
    exact hopen ev hev hname _ (hfinds ev hev) rfl rfl
  · have := hmet.post hc hr
    rw [hreq] at this
    exact this

end Runs

/-! ### A rotation between two steps -/

/-- Any uuid parses, and any blob has a fitting size. -/
def anyUuid : Ext Blob := ⟨fun _ => true, fun _ => 1⟩

/-- The client of a user without items, unlocked. -/
def unlocked : WebWorld where
  server := ⟨.single ⟨1, "a", .raw 0, .raw 0, wrapSvk 5 7, .raw 0, 1, 0, 0⟩, .empty⟩
  store := ⟨0, 1, 1, .empty⟩
  mem := ⟨some 7, some (.dek 7), 1, [], []⟩
  past := .nothing

def calm : ClientEnv := ⟨0, 4, false, 0⟩

/-- An item is added, the key is rotated, and the item is pushed. -/
def addRotatePush : List WebAct :=
  .call (.addItem (.bytes 3)) :: List.replicate 4 (.exec 0 calm) ++
  .call (.rotateKey 5) :: List.replicate 13 (.exec 1 calm) ++
  .call .sync :: List.replicate 13 (.exec 2 calm)

/-- A secret value is sealed, the key is rotated, and the value is opened. -/
def sealRotateOpen : List WebAct :=
  .call (.encryptSecretValue 9 (.bytes 3)) :: List.replicate 2 (.exec 0 calm) ++
  .call (.rotateKey 5) :: List.replicate 13 (.exec 1 calm) ++
  .call (.decryptSecretValue 9 (encrypt (.dek 7) 9 1 (.bytes 3))) ::
    List.replicate 2 (.exec 2 calm)

/-- The same with the rotation after everything was pushed and opened. -/
def rotateLast : List WebAct :=
  .call (.encryptSecretValue 9 (.bytes 3)) :: List.replicate 2 (.exec 0 calm) ++
  .call (.addItem (.bytes 3)) :: List.replicate 4 (.exec 1 calm) ++
  .call .sync :: List.replicate 30 (.exec 2 calm) ++
  .call (.decryptSecretValue 9 (encrypt (.dek 7) 9 1 (.bytes 3))) ::
    List.replicate 2 (.exec 3 calm) ++
  .call (.rotateKey 5) :: List.replicate 13 (.exec 4 calm)

lemma started_unlocked : Started unlocked := by
  constructor <;> simp [unlocked, RowsNamed, Past.nothing, Table.empty]

/-- With the rotation last, what was pushed names its generation. -/
theorem web_generations_rotateLast :
    Started unlocked ∧
    ∀ c ∈ (run (webCode anyUuid 1) (init unlocked) rotateLast).calls, Every PushesNamed c.trace :=
  ⟨started_unlocked, (web_generations started_unlocked (by decide +kernel)).1⟩

/-- **A rotation in between**: the push names a generation that its payload is not bound to, and
the secret value that was sealed before the rotation does not open after it. -/
theorem rotation_mislabels :
    (¬∀ c ∈ (run (webCode anyUuid 1) (init unlocked) addRotatePush).calls, Every PushesNamed c.trace) ∧
    (9, encrypt (.dek 7) 9 1 (.bytes 3), .bytes 3, 1) ∈
      (run (webCode anyUuid 1) (init unlocked) sealRotateOpen).shared.past.issued ∧
    (run (webCode anyUuid 1) (init unlocked) sealRotateOpen).calls[2]?.bind (·.prog.result) =
      some (.error (.text "decrypt")) := by
  decide +kernel

end Vautr.WebRotation
