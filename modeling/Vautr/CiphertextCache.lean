import Mathlib.Logic.Function.Basic
import Vautr.Interleave

/-!
The cache of ciphertexts of the browser extension (`createItemCiphertextStore` of `extension.ts`,
and `vaultActions.ts`).

All ciphertexts are one record in `chrome.storage.local`. An operation on an item reads the whole
record, changes the item, and writes the whole record back; `secureLock` removes the record. Each
access to a storage is a statement, and the operations interleave at them.
-/

namespace Vautr.CiphertextCache

open Vautr.Atomic Vautr.Interleave

structure ItemCiphertext where
  uuid : ℕ
  encKeyGen : ℕ
  payload : List ℕ
  deriving DecidableEq

/-- The columns of a `StoredItem` that the cache reads. -/
structure StoredItem where
  uuid : ℕ
  encKeyGen : ℕ
  payload : Option String

abbrev Record := ℕ → Option ItemCiphertext

/-- The storage areas: the records under `CIPHERTEXT_STORAGE_KEY` and `SVK_STORAGE_KEY`, and
whether the session area is for trusted contexts only. -/
structure Storage where
  vautrCiphertext : Option Record
  vautrSvk : Option (List ℕ)
  trustedContexts : Bool

/-- What a statement finds outside of them: the items in IndexedDB, and whether the browser has
`setAccessLevel`. -/
structure Browser where
  items : List StoredItem
  hasAccessLevel : Bool

/-- A change of the record. -/
inductive Op
  | cache (item : ItemCiphertext)
  | remove (uuid : ℕ)
  | clear

inductive Label
  | get
  | set (op : Op) (all : Record)
  | getItems
  | removeSvk
  | removeAll
  | setAccessLevel

abbrev Task := Prog Storage Browser Label

/-! ### The operations -/

/-- The record that is stored. -/
def Storage.record (s : Storage) : Record := s.vautrCiphertext.getD fun _ => none

def readAll : Task Record := Prog.atom .get fun _ s => (s, s.record)

def cache (item : ItemCiphertext) : Task Unit := do
  let all ← readAll
  Prog.atom (.set (.cache item) all) fun _ s =>
    ({ s with vautrCiphertext := some (Function.update all item.uuid (some item)) }, ())

def read (uuid : ℕ) : Task (Option ItemCiphertext) := do
  let all ← readAll
  return all uuid

def remove (uuid : ℕ) : Task Unit := do
  let all ← readAll
  Prog.atom (.set (.remove uuid) all) fun _ s =>
    ({ s with vautrCiphertext := some (Function.update all uuid none) }, ())

variable (atob : String → Option (List ℕ))

/-- The loop of `cacheAllCiphertexts`. It ends at a payload that is not base64. -/
def cacheEach : List StoredItem → Task Unit
  | [] => return
  | item :: rest =>
    match item.payload with
    | none => cacheEach rest
    | some "" => cacheEach rest
    | some payload =>
      match atob payload with
      | none => return
      | some payloadBytes => do
        cache ⟨item.uuid, item.encKeyGen, payloadBytes⟩
        cacheEach rest

def cacheAllCiphertexts : Task Unit := do
  let storedItems ← Prog.atom .getItems fun e s => (s, e.items)
  cacheEach atob storedItems

def clearSvkForSw : Task Unit :=
  Prog.atom .removeSvk fun _ s => ({ s with vautrSvk := none }, ())

def clearCiphertextCache : Task Unit :=
  Prog.atom .removeAll fun _ s => ({ s with vautrCiphertext := none }, ())

def secureLock : Task Unit := do
  clearSvkForSw
  clearCiphertextCache
  Prog.atom .setAccessLevel fun e s =>
    ({ s with trustedContexts := s.trustedContexts || e.hasAccessLevel }, ())

/-- What is called. -/
inductive Req
  | cache (item : ItemCiphertext)
  | read (uuid : ℕ)
  | remove (uuid : ℕ)
  | cacheAllCiphertexts
  | secureLock

inductive Reply
  | done
  | found (item : Option ItemCiphertext)

def code : Req → Task Reply
  | .cache item => do cache item; return .done
  | .read uuid => do return .found (← read uuid)
  | .remove uuid => do remove uuid; return .done
  | .cacheAllCiphertexts => do cacheAllCiphertexts atob; return .done
  | .secureLock => do secureLock; return .done

abbrev CacheSys := Sys Req Storage Browser Label Reply
abbrev CacheAct := Act Req Browser
abbrev CacheEv := Ev Storage Browser Label

/-! ### The property -/

/-- What a change makes of a record in which `f` stands for the cached items. -/
def Op.on {α : Type} (f : ItemCiphertext → α) : Op → (ℕ → Option α) → ℕ → Option α
  | .cache item, r => Function.update r item.uuid (some (f item))
  | .remove uuid, r => Function.update r uuid none
  | .clear, _ => fun _ => none

/-- The change of the record that a statement makes. -/
def written (ev : CacheEv) : Option Op :=
  match ev.name with
  | .set op _ => some op
  | .removeAll => some .clear
  | _ => none

/-- The changes of a run in the order in which they were written, each with its call. -/
def changes (hist : List (ℕ × Req × CacheEv)) : List (ℕ × Op) :=
  hist.filterMap fun p => (written p.2.2).map (Prod.mk p.1)

/-- The changes of one call. -/
def changesOf (i : ℕ) (ops : List (ℕ × Op)) : List Op :=
  ops.filterMap fun p => if p.1 = i then some p.2 else none

/-- The record with the calls that cached what is in it. -/
def shown (r : Record) (ops : List (ℕ × Op)) : ℕ → Option (Option ℕ × ItemCiphertext) :=
  ops.foldl (fun m p => p.2.on (Prod.mk (some p.1)) m) fun u => (r u).map (Prod.mk none)

/-- What `cacheAllCiphertexts` caches of the items it has found. -/
def cachable : List StoredItem → List ItemCiphertext
  | [] => []
  | item :: rest =>
    match item.payload with
    | none => cachable rest
    | some "" => cachable rest
    | some payload =>
      match atob payload with
      | none => []
      | some payloadBytes => ⟨item.uuid, item.encKeyGen, payloadBytes⟩ :: cachable rest

/-- The changes that a call is there for. -/
def Asked : Req → List Op → Prop
  | .cache item, ops => ops = [.cache item]
  | .read _, ops => ops = []
  | .remove uuid, ops => ops = [.remove uuid]
  | .cacheAllCiphertexts, ops => ∃ items, ops = (cachable atob items).map .cache
  | .secureLock, ops => ops = [.clear]

/-- The changes in the given order explain what is stored. -/
structure Explains (s : Storage) (as : List CacheAct) (order : List (ℕ × Op)) : Prop where
  record : (run (code atob) (init s) as).shared.record =
    order.foldl (fun r p => p.2.on id r) s.record
  calls : ∀ p ∈ order, p.1 < (run (code atob) (init s) as).calls.length
  /-- A completed call has made its changes, each once. -/
  complete : ∀ (i : ℕ) c, (run (code atob) (init s) as).calls[i]? = some c →
    c.prog.result.isSome → Asked atob c.req (changesOf i order)
  /-- At every moment of the run the order has first what was begun, and then what was not
  completed. -/
  realTime : ∀ past later, as = past ++ later → ∃ first rest, order = first ++ rest ∧
    (∀ p ∈ first, p.1 < (run (code atob) (init s) past).calls.length) ∧
    ∀ p ∈ rest, ∀ c ∈ (run (code atob) (init s) past).calls[p.1]?, c.prog.result = none
  /-- What is stored after a lock is completed was cached by a call that began after the lock. -/
  locked : ∀ (i : ℕ) c, (run (code atob) (init s) as).calls[i]? = some c → c.req = .secureLock →
    c.prog.result.isSome → ∀ u item, (run (code atob) (init s) as).shared.record u = some item →
      ∃ j, i < j ∧ shown s.record order u = some (some j, item)

/-- The record is what the changes of the operations make of it, one after the other, in an order
that agrees with real time; and a completed lock leaves nothing of what was begun before. -/
def Linear (s : Storage) (as : List CacheAct) : Prop := ∃ order, Explains atob s as order

/-- The uuid of a change of one item. -/
def Op.uuid : Op → Option ℕ
  | .cache item => some item.uuid
  | .remove uuid => some uuid
  | .clear => none

def Op.caches : Op → Bool
  | .cache _ => true
  | _ => false

/-- When an operation writes, the stored record is as it has read it, its own uuid apart; and no
lock that began after a caching operation has removed the record before that operation writes. -/
def Careful (σ : CacheSys) : CacheAct → Prop
  | .call _ => True
  | .exec i _ => ∀ c ∈ σ.calls[i]?, ∀ op all, c.prog.next = some (.set op all) →
    (∀ u, op.uuid ≠ some u → all u = σ.shared.record u) ∧
    (op.caches = true → ∀ j c', i < j → σ.calls[j]? = some c' →
      ∀ ev ∈ c'.trace, ev.name ≠ .removeAll)

variable {atob : String → Option (List ℕ)} {q : Req} {s : Storage} {tr : List CacheEv}

/-! ### What the statements do -/

/-- A statement reads, or it is the removal of a lock, or it writes a record back. -/
inductive Does (q : Req) (ev : CacheEv) : Prop
  | reads (hw : written ev = none) (hpost : ev.post.record = ev.pre.record)
  | clears (hq : q = .secureLock) (hname : ev.name = .removeAll)
    (hpost : ev.post.record = fun _ => none)
  | sets (hq : q ≠ .secureLock) (op : Op) (all : Record) (hname : ev.name = .set op all)
    (hpost : ev.post.record = op.on id all)

lemma does_readAll : Guarantees (fun _ _ _ => True) (Does q) readAll :=
  guarantees_stmt (fun _ _ => .reads rfl rfl) fun _ _ => guarantees_ret _

lemma does_cache (hq : q ≠ .secureLock) (item : ItemCiphertext) :
    Guarantees (fun _ _ _ => True) (Does q) (cache item) :=
  guarantees_bind does_readAll fun all =>
    guarantees_stmt (fun _ _ => .sets hq (.cache item) all rfl rfl) fun _ _ => guarantees_ret _

lemma does_remove (hq : q ≠ .secureLock) (uuid : ℕ) :
    Guarantees (fun _ _ _ => True) (Does q) (remove uuid) :=
  guarantees_bind does_readAll fun all =>
    guarantees_stmt (fun _ _ => .sets hq (.remove uuid) all rfl rfl) fun _ _ => guarantees_ret _

lemma does_cacheEach (hq : q ≠ .secureLock) (items : List StoredItem) :
    Guarantees (fun _ _ _ => True) (Does q) (cacheEach atob items) := by
  induction items with
  | nil => exact guarantees_ret _
  | cons item rest ih =>
    rw [cacheEach]
    split
    · exact ih
    · exact ih
    · split
      · exact guarantees_ret _
      · exact guarantees_bind (does_cache hq _) fun _ => ih

lemma does_secureLock : Guarantees (fun _ _ _ => True) (Does .secureLock) secureLock :=
  guarantees_bind (guarantees_stmt (fun _ _ => .reads rfl rfl) fun _ _ => guarantees_ret _) fun _ =>
    guarantees_bind (guarantees_stmt (fun _ _ => .clears rfl rfl rfl) fun _ _ => guarantees_ret _)
      fun _ => guarantees_stmt (fun _ _ => .reads rfl rfl) fun _ _ => guarantees_ret _

lemma does_code (q : Req) : Guarantees (fun _ _ _ => True) (Does q) (code atob q) := by
  cases q with
  | cache item => exact guarantees_bind (does_cache (by nofun) _) fun _ => guarantees_ret _
  | read uuid =>
    exact guarantees_bind (guarantees_bind does_readAll fun _ => guarantees_ret _) fun _ =>
      guarantees_ret _
  | remove uuid => exact guarantees_bind (does_remove (by nofun) _) fun _ => guarantees_ret _
  | cacheAllCiphertexts =>
    refine guarantees_bind (guarantees_bind ?_ fun items => does_cacheEach (by nofun) items)
      fun _ => guarantees_ret _
    exact guarantees_stmt (fun _ _ => .reads rfl rfl) fun _ _ => guarantees_ret _
  | secureLock => exact guarantees_bind does_secureLock fun _ => guarantees_ret _

/-! ### What a call has written when it is completed -/

/-- Nothing is assumed of the other calls. -/
def alone : Rules Storage Browser Label := assume (fun _ _ _ => True) fun _ => True

lemma wp_access {α : Type} {l : Label} {g : Browser → Storage → Storage × α}
    {P : α → List CacheEv → Storage → Prop}
    (h : ∀ e s, P (g e s).2 (tr ++ [⟨l, e, s, (g e s).1⟩]) (g e s).1) :
    wp alone (Prog.atom l g) P tr s :=
  (wp_stmt _ _ _).mpr ⟨trivial, fun s e _ _ => h e s⟩

lemma wp_cache (item : ItemCiphertext) :
    wp alone (cache item)
      (fun _ tr' _ => tr'.filterMap written = tr.filterMap written ++ [.cache item]) tr s := by
  refine (wp_bind _ _ _ _ _).mpr (wp_access fun e s => wp_access fun e' s' => ?_)
  rw [List.append_assoc, List.filterMap_append]
  rfl

lemma wp_remove (uuid : ℕ) :
    wp alone (remove uuid)
      (fun _ tr' _ => tr'.filterMap written = tr.filterMap written ++ [.remove uuid]) tr s := by
  refine (wp_bind _ _ _ _ _).mpr (wp_access fun e s => wp_access fun e' s' => ?_)
  rw [List.append_assoc, List.filterMap_append]
  rfl

lemma wp_cacheEach (items : List StoredItem) :
    wp alone (cacheEach atob items) (fun _ tr' _ => tr'.filterMap written =
      tr.filterMap written ++ (cachable atob items).map .cache) tr s := by
  induction items generalizing tr s with
  | nil => simp [cacheEach, cachable]
  | cons item rest ih =>
    rw [cacheEach, cachable]
    split
    · exact ih
    · exact ih
    · split
      · simp
      · refine (wp_bind _ _ _ _ _).mpr (wp_mono (fun _ tr' s' h => ?_) (wp_cache _))
        refine wp_mono (fun _ tr'' s'' h' => ?_) ih
        rw [h', h, List.append_assoc, List.map_cons, List.singleton_append]

/-- Each operation makes the changes that it is there for, whatever the others do. -/
lemma wp_code (q : Req) :
    wp alone (code atob q) (fun _ tr _ => Asked atob q (tr.filterMap written)) [] s := by
  cases q with
  | cache item => exact (wp_bind _ _ _ _ _).mpr (wp_mono (fun _ _ _ h => h) (wp_cache item))
  | read uuid =>
    refine (wp_bind _ _ _ _ _).mpr ((wp_bind _ _ _ _ _).mpr (wp_access fun e s => ?_))
    exact rfl
  | remove uuid => exact (wp_bind _ _ _ _ _).mpr (wp_mono (fun _ _ _ h => h) (wp_remove uuid))
  | cacheAllCiphertexts =>
    refine (wp_bind _ _ _ _ _).mpr ((wp_bind _ _ _ _ _).mpr (wp_access fun e s => ?_))
    exact wp_mono (fun _ _ _ h => ⟨e.items, h.trans (List.nil_append _)⟩) (wp_cacheEach e.items)
  | secureLock =>
    refine (wp_bind _ _ _ _ _).mpr ((wp_bind _ _ _ _ _).mpr (wp_access fun e s => ?_))
    refine (wp_bind _ _ _ _ _).mpr (wp_access fun e s => wp_access fun e s => ?_)
    exact rfl

variable (atob) in
/-- A run: every call is on its way to what it is asked for. -/
lemma run_asked (s : Storage) (as : List CacheAct) :
    Sound (fun _ => alone) (fun q _ tr _ => Asked atob q (tr.filterMap written)) Does
      (run (code atob) (init s) as) :=
  (run_sound (C := fun _ _ => True) (P := fun _ => True) (fun _ q _ => wp_code q) does_code
    (fun _ _ _ _ => trivial) (fun _ _ _ _ _ h => h) (fun _ _ _ _ _ _ _ _ _ _ => trivial)
    (fun _ _ _ _ => trivial) (fun _ _ _ _ _ _ _ _ _ _ _ _ _ => trivial)
    ⟨sound_init s, trivial⟩ (along_true as (init s))).1

/-! ### The order of the changes -/

section History

variable {Q S E L α : Type} {h : Q → Prog S E L α}

/-- The statements of one call, in the order of the run, are those that it has run. -/
lemma history_trace (s : S) (as : List (Act Q E)) (i : ℕ) :
    ((history h (init s) as).filterMap fun p => if p.1 = i then some p.2.2 else none) =
      ((run h (init s) as).calls[i]?.map (·.trace)).getD [] := by
  induction as using List.reverseRecOn with
  | nil => simp [init, history]
  | append_singleton as a ih =>
    rw [history_snoc, List.filterMap_append, ih, run_append, run_cons, run_nil]
    generalize run h (init s) as = σ
    clear ih
    rcases ranBy_cases (h := h) σ a with ⟨q, rfl⟩ | ⟨j, e, q, tr, l, f, k, rfl, hj⟩ | ⟨hst, hnone⟩
    · rw [step, List.getElem?_append]
      split
      · simp [ranBy]
      · next hge =>
        rw [List.getElem?_eq_none (by omega)]
        cases i - σ.calls.length <;> simp [ranBy]
    · rw [step_exec hj, ranBy_exec hj]
      rcases eq_or_ne j i with rfl | hne
      · have hlt := (List.getElem?_eq_some_iff.mp hj).1
        rw [List.getElem?_set_self hlt, hj]
        simp
      · rw [List.getElem?_set_ne hne]
        simp [hne]
    · rw [hst, hnone, List.filterMap_nil, List.append_nil]

/-- The statements of a run are of calls that are not finished before it. -/
lemma unfinished_of_history (as : List (Act Q E)) {σ : Sys Q S E L α} {p : ℕ × Q × Ev S E L}
    (hp : p ∈ history h σ as) {c : Call Q S E L α} (hc : σ.calls[p.1]? = some c) :
    c.prog.result = none := by
  induction as generalizing σ c with
  | nil => cases hp
  | cons a as ih =>
    rcases ranBy_cases (h := h) σ a with ⟨q, rfl⟩ | ⟨j, e, q, tr, l, f, k, rfl, hj⟩ | ⟨hst, hnone⟩
    · refine ih hp ?_
      rw [step, List.getElem?_append_left (List.getElem?_eq_some_iff.mp hc).1, hc]
    · rw [history, ranBy_exec hj, List.singleton_append, List.mem_cons] at hp
      rcases hp with rfl | hp
      · rw [hj] at hc
        cases hc
        rfl
      · rw [step_exec hj] at hp
        obtain ⟨c', hc', -, -, hsame⟩ : ∃ c', (σ.calls.set j ⟨q, tr ++ [⟨l, e, σ.shared,
          f e σ.shared⟩], k e σ.shared⟩)[p.1]? = some c' ∧ Grown c c' := grown_exec hj hc
        have hnone := ih hp hc'
        by_contra hres
        rw [hsame (Option.isSome_iff_ne_none.mpr hres)] at hnone
        exact hres hnone
    · rw [history, hnone, hst, List.nil_append] at hp
      exact ih hp hc

end History

lemma changes_append (l l' : List (ℕ × Req × CacheEv)) :
    changes (l ++ l') = changes l ++ changes l' := List.filterMap_append

/-- The changes of a run are of its calls. -/
lemma lt_of_change {as : List CacheAct} {p : ℕ × Op}
    (hp : p ∈ changes (history (code atob) (init s) as)) :
    p.1 < (run (code atob) (init s) as).calls.length := by
  obtain ⟨⟨i, q, ev⟩, hmem, hw⟩ := List.mem_filterMap.mp hp
  obtain ⟨op, -, rfl⟩ := Option.map_eq_some_iff.mp hw
  obtain ⟨c, hc, -⟩ := (mem_history s as i q ev).mp hmem
  exact (List.getElem?_eq_some_iff.mp hc).1

/-- The changes of a call are those of its statements. -/
lemma changesOf_history (s : Storage) (as : List CacheAct) (i : ℕ) :
    changesOf i (changes (history (code atob) (init s) as)) =
      (((run (code atob) (init s) as).calls[i]?.map (·.trace)).getD []).filterMap written := by
  rw [← history_trace, changesOf, changes, List.filterMap_filterMap, List.filterMap_filterMap]
  refine List.filterMap_congr fun p _ => ?_
  by_cases hp : p.1 = i <;> cases hw : written p.2.2 <;> simp [hp, hw]

/-! ### What is stored -/

variable {r : Record} {ops : List (ℕ × Op)}

lemma map_on {α β : Type} {f : ItemCiphertext → α} (g : α → β) (op : Op) (m : ℕ → Option α) :
    (fun u => (op.on f m u).map g) = op.on (g ∘ f) fun u => (m u).map g := by
  funext u
  cases op with
  | cache item =>
    rcases eq_or_ne u item.uuid with rfl | hne
    · simp [Op.on]
    · simp [Op.on, hne]
  | remove uuid =>
    rcases eq_or_ne u uuid with rfl | hne
    · simp [Op.on]
    · simp [Op.on, hne]
  | clear => rfl

/-- Who has cached an item does not matter for the record. -/
lemma record_shown (r : Record) (ops : List (ℕ × Op)) :
    (fun u => (shown r ops u).map Prod.snd) = ops.foldl (fun r p => p.2.on id r) r := by
  induction ops using List.reverseRecOn with
  | nil =>
    funext u
    simp [shown, Function.comp_def]
  | append_singleton ops p ih =>
    rw [shown, List.foldl_append, List.foldl_append, List.foldl_cons, List.foldl_nil, map_on]
    change p.2.on _ (fun u => (shown r ops u).map Prod.snd) = _
    rw [ih]
    rfl

/-- A change of one item depends on the other items only. -/
lemma on_congr {op : Op} {all r : Record} (h : ∀ u, op.uuid ≠ some u → all u = r u) :
    op.on id all = op.on id r := by
  cases op with
  | cache item =>
    funext u
    rcases eq_or_ne u item.uuid with rfl | hne
    · simp [Op.on]
    · simpa [Op.on, hne] using h u fun heq => hne (Option.some.inj heq).symm
  | remove uuid =>
    funext u
    rcases eq_or_ne u uuid with rfl | hne
    · simp [Op.on]
    · simpa [Op.on, hne] using h u fun heq => hne (Option.some.inj heq).symm
  | clear => rfl

/-- What is stored after a change was stored before, or it is what the change caches. -/
lemma shown_append {i u : ℕ} {op : Op} {x : Option ℕ × ItemCiphertext}
    (h : shown r (ops ++ [(i, op)]) u = some x) :
    op ≠ .clear ∧ (shown r ops u = some x ∨ op.caches = true ∧ x.1 = some i) := by
  rw [shown, List.foldl_append, List.foldl_cons, List.foldl_nil] at h
  change op.on _ (shown r ops) u = some x at h
  cases op with
  | cache item =>
    refine ⟨nofun, ?_⟩
    rcases eq_or_ne u item.uuid with rfl | hne
    · rw [Op.on, Function.update_self, Option.some.injEq] at h
      exact .inr ⟨rfl, by rw [← h]⟩
    · exact .inl (by simpa [Op.on, hne] using h)
  | remove uuid =>
    refine ⟨nofun, .inl ?_⟩
    rcases eq_or_ne u uuid with rfl | hne
    · simp [Op.on] at h
    · simpa [Op.on, hne] using h
  | clear => cases h

/-- What is stored as cached by a call was cached by a change of that call. -/
lemma cached_by {j u : ℕ} {item : ItemCiphertext} (h : shown r ops u = some (some j, item)) :
    ∃ p ∈ ops, p.1 = j := by
  induction ops using List.reverseRecOn with
  | nil =>
    obtain ⟨x, -, hx⟩ := Option.map_eq_some_iff.mp h
    cases hx
  | append_singleton ops p ih =>
    rcases (shown_append h).2 with h | ⟨-, h⟩
    · obtain ⟨p', hp', hj⟩ := ih h
      exact ⟨p', List.mem_append_left _ hp', hj⟩
    · exact ⟨p, List.mem_append_right _ (List.mem_singleton_self p), (Option.some.inj h).symm⟩

/-- The call has removed the record. -/
def Cleared (σ : CacheSys) (i : ℕ) : Prop :=
  ∃ c, σ.calls[i]? = some c ∧ ∃ ev ∈ c.trace, ev.name = .removeAll

/-- The record is made by the changes so far; and what is stored after a lock has removed it was
cached by a later call. -/
structure Stored (s : Storage) (σ : CacheSys) (ops : List (ℕ × Op)) : Prop where
  record : σ.shared.record = ops.foldl (fun r p => p.2.on id r) s.record
  since : ∀ i, Cleared σ i → ∀ u x, shown s.record ops u = some x → ∃ j, x.1 = some j ∧ i < j

lemma Stored.exec {σ : CacheSys} {i : ℕ} {e : Browser} {l : Label}
    {f : Browser → Storage → Storage} {k : Browser → Storage → Task Reply}
    (h : Stored s σ ops) (hi : σ.calls[i]? = some ⟨q, tr, .stmt l f k⟩)
    (hC : Careful σ (.exec i e))
    (hdoes : Every (Does q) (tr ++ [⟨l, e, σ.shared, f e σ.shared⟩])) :
    Stored s ⟨f e σ.shared,
        σ.calls.set i ⟨q, tr ++ [⟨l, e, σ.shared, f e σ.shared⟩], k e σ.shared⟩⟩
      (ops ++ changes [(i, q, ⟨l, e, σ.shared, f e σ.shared⟩)]) := by
  -- what has removed the record did so before, unless this statement does
  have hcleared : ∀ j, Cleared ⟨f e σ.shared, σ.calls.set i
      ⟨q, tr ++ [⟨l, e, σ.shared, f e σ.shared⟩], k e σ.shared⟩⟩ j →
      l ≠ .removeAll → Cleared σ j := by
    rintro j ⟨c, hc, ev, hev, hname⟩ hl
    rcases mem_trace_set hi hc hev with rfl | ⟨c', hc', hev'⟩
    · exact absurd hname hl
    · exact ⟨c', hc', ev, hev', hname⟩
  cases hdoes _ (List.mem_append_right _ (List.mem_singleton_self _)) with
  | reads hw hpost =>
    rw [show changes [(i, q, _)] = [] by simp [changes, hw], List.append_nil]
    refine ⟨hpost.trans h.record, fun j hj => h.since j (hcleared j hj ?_)⟩
    rintro rfl
    cases hw
  | clears hq hname hpost =>
    obtain rfl : l = .removeAll := hname
    rw [show changes [(i, q, _)] = [(i, .clear)] from rfl]
    refine ⟨?_, fun j hj u x hx => absurd rfl (shown_append hx).1⟩
    rw [List.foldl_append]
    exact hpost
  | sets hq op all hname hpost =>
    obtain rfl : l = .set op all := hname
    obtain ⟨hread, hlock⟩ := hC _ hi op all rfl
    rw [show changes [(i, q, _)] = [(i, op)] from rfl]
    refine ⟨?_, fun j hj u x hx => ?_⟩
    · rw [List.foldl_append, ← h.record]
      exact hpost.trans (on_congr hread)
    · have hj := hcleared j hj nofun
      rcases (shown_append hx).2 with hx | ⟨hcaches, hx⟩
      · exact h.since j hj u x hx
      · refine ⟨i, hx, ?_⟩
        obtain ⟨c, hc, ev, hev, hname⟩ := hj
        rcases Nat.lt_trichotomy j i with hlt | rfl | hlt
        · exact hlt
        · -- a call that caches is no lock
          rw [hi, Option.some.injEq] at hc
          subst hc
          cases hdoes ev (List.mem_append_left _ hev) with
          | reads hw =>
            rw [written, hname] at hw
            cases hw
          | clears hq' => exact absurd hq' hq
          | sets _ op' all' hname' =>
            rw [hname] at hname'
            cases hname'
        · exact absurd hname (hlock hcaches j c hlt hc ev hev)

lemma stored_run {as : List CacheAct} (has : Along (code atob) Careful (init s) as) :
    Stored s (run (code atob) (init s) as) (changes (history (code atob) (init s) as)) := by
  induction as using List.reverseRecOn with
  | nil =>
    refine ⟨rfl, ?_⟩
    rintro i ⟨c, hc, -⟩
    simp [init] at hc
  | append_singleton as a ih =>
    rw [along_append] at has
    have ih := ih has.1
    have hcareful := has.2.1
    have hsound := run_asked atob s (as ++ [a])
    rw [run_append, run_cons, run_nil] at hsound ⊢
    rw [history_snoc, changes_append]
    generalize run (code atob) (init s) as = σ at ih hcareful hsound
    generalize changes (history (code atob) (init s) as) = ops at ih
    rcases ranBy_cases (h := code atob) σ a with
      ⟨q, rfl⟩ | ⟨i, e, q, tr, l, f, k, rfl, hi⟩ | ⟨hst, hnone⟩
    · rw [show changes (ranBy σ (.call q)) = [] from rfl, List.append_nil]
      refine ⟨ih.record, ?_⟩
      rintro i ⟨c, hc, ev, hev, hname⟩
      refine ih.since i ⟨c, ?_, ev, hev, hname⟩
      rw [step, List.getElem?_append] at hc
      split at hc
      · exact hc
      · rw [List.mem_singleton.mp (List.mem_of_getElem? hc)] at hev
        cases hev
    · rw [step_exec hi] at hsound ⊢
      rw [ranBy_exec hi]
      have hmem := List.mem_of_getElem? (List.getElem?_set_self (a :=
        (⟨q, tr ++ [⟨l, e, σ.shared, f e σ.shared⟩], k e σ.shared⟩ : Call _ _ _ _ _))
        (List.getElem?_eq_some_iff.mp hi).1)
      exact ih.exec hi hcareful (hsound.every hmem)
    · rw [hst, hnone]
      simpa [changes] using ih

/-- **The cache in a run of careful steps**: when every operation finds, as it writes, the other
items as it has read them, and no caching operation writes after a later lock has removed the
record, the record is what the operations make of it one after the other, and a completed lock
leaves nothing that was begun before it. -/
theorem linear_of_careful (atob : String → Option (List ℕ)) (s : Storage) (as : List CacheAct)
    (has : Along (code atob) Careful (init s) as) : Linear atob s as := by
  have hstored := stored_run has
  have hsound := run_asked atob s as
  refine ⟨changes (history (code atob) (init s) as), hstored.record, fun p hp => ?_,
    fun i c hi hres => ?_, ?_, fun i c hi hq hres u item hitem => ?_⟩
  · exact lt_of_change hp
  · obtain ⟨a, ha⟩ := Option.isSome_iff_exists.mp hres
    rw [changesOf_history, hi]
    exact hsound.post (List.mem_of_getElem? hi) ha
  · rintro past later rfl
    refine ⟨changes (history (code atob) (init s) past),
      changes (history (code atob) (run (code atob) (init s) past) later),
      by rw [history_append, changes_append], fun p hp => lt_of_change hp, fun p hp c hc => ?_⟩
    obtain ⟨p', hp', hw⟩ := List.mem_filterMap.mp hp
    obtain ⟨op, -, rfl⟩ := Option.map_eq_some_iff.mp hw
    exact unfinished_of_history later hp' hc
  · obtain ⟨a, ha⟩ := Option.isSome_iff_exists.mp hres
    have hasked := hsound.post (List.mem_of_getElem? hi) ha
    rw [hq] at hasked
    -- the lock has removed the record
    obtain ⟨ev, hev, hw⟩ := List.mem_filterMap.mp (hasked ▸ List.mem_singleton_self Op.clear)
    have hname : ev.name = .removeAll := by
      cases hsound.every (List.mem_of_getElem? hi) ev hev with
      | reads hw' =>
        rw [hw'] at hw
        cases hw
      | clears _ hname => exact hname
      | sets hq' => exact absurd hq hq'
    have hshown : (shown s.record (changes (history (code atob) (init s) as)) u).map Prod.snd =
        some item := by
      rw [← hitem, hstored.record]
      exact congrFun (record_shown _ _) u
    obtain ⟨x, hx, rfl⟩ := Option.map_eq_some_iff.mp hshown
    obtain ⟨j, hj, hlt⟩ := hstored.since i ⟨c, hi, ev, hev, hname⟩ u x hx
    exact ⟨j, hlt, by rw [hx, ← hj]⟩

section Careful

variable {σ : CacheSys} {i : ℕ} {e : Browser} {c : Call Req Storage Browser Label Reply} {l : Label}

lemma careful_of_next (hi : σ.calls[i]? = some c) (hnext : c.prog.next = some l)
    (hl : ∀ op all, l ≠ .set op all) : Careful σ (.exec i e) := by
  intro c' hc' op all hset
  obtain rfl := Option.mem_unique hc' hi
  rw [hnext] at hset
  exact absurd (Option.some.inj hset) (hl op all)

def Label.removes : Label → Bool
  | .removeAll => true
  | _ => false

/-- A call may write what it has read, its own uuid apart, as long as no later one has removed the
record. -/
lemma careful_set {op : Op} {all : Record} (hi : σ.calls[i]? = some c)
    (hset : c.prog.next = some (.set op all))
    (hsame : ∀ u, op.uuid ≠ some u → all u = σ.shared.record u)
    (hlater : ((σ.calls.drop (i + 1)).all fun c => c.trace.all fun ev => !ev.name.removes) = true) :
    Careful σ (.exec i e) := by
  intro c' hc' op' all' hset'
  obtain rfl := Option.mem_unique hc' hi
  rw [hset] at hset'
  cases hset'
  refine ⟨hsame, fun _ j c'' hlt hj ev hev hname => ?_⟩
  have hmem : c'' ∈ σ.calls.drop (i + 1) := by
    refine List.mem_of_getElem? (i := j - (i + 1)) ?_
    rw [List.getElem?_drop, ← hj]
    congr 1
    omega
  have := List.all_eq_true.mp (List.all_eq_true.mp hlater c'' hmem) ev hev
  rw [hname] at this
  cases this

end Careful

/-- Two items are cached, one of them twice at once; a lock begins while the other is cached, and
removes the record after it is; and an item is cached after that. -/
def overlapping : List CacheAct :=
  let e : Browser := ⟨[], true⟩
  [.call (.cache ⟨1, 1, [10]⟩), .call (.cache ⟨1, 2, [11]⟩), .exec 0 e, .exec 1 e, .exec 0 e,
    .exec 1 e, .call (.cache ⟨2, 1, [20]⟩), .exec 2 e, .call .secureLock, .exec 3 e, .exec 2 e,
    .exec 3 e, .exec 3 e, .call (.cache ⟨3, 1, [30]⟩), .exec 4 e, .exec 4 e]

theorem linear_overlapping : Linear (fun _ => none) ⟨none, none, false⟩ overlapping := by
  have hget : ∀ op all, Label.get ≠ .set op all := nofun
  have hsvk : ∀ op all, Label.removeSvk ≠ .set op all := nofun
  have hall : ∀ op all, Label.removeAll ≠ .set op all := nofun
  have haccess : ∀ op all, Label.setAccessLevel ≠ .set op all := nofun
  refine linear_of_careful _ _ _ ⟨trivial, trivial, careful_of_next rfl rfl hget,
    careful_of_next rfl rfl hget, careful_set rfl rfl (fun _ _ => rfl) rfl,
    -- the other call has written the same uuid
    careful_set rfl rfl (fun u hu => ?_) rfl,
    trivial, careful_of_next rfl rfl hget, trivial, careful_of_next rfl rfl hsvk,
    careful_set rfl rfl (fun _ _ => rfl) rfl, careful_of_next rfl rfl hall,
    careful_of_next rfl rfl haccess, trivial, careful_of_next rfl rfl hget,
    careful_set rfl rfl (fun _ _ => rfl) rfl, trivial⟩
  have hne : u ≠ 1 := fun h => hu (congrArg some h.symm)
  exact (Function.update_of_ne hne _ _).symm

/-- An item is cached while the vault is locked: the operation has read the record before the lock
removes it, and writes it after that. -/
def cachedAcrossLock : List CacheAct :=
  let e : Browser := ⟨[], true⟩
  [.call (.cache ⟨1, 1, [10]⟩), .exec 0 e, .call .secureLock, .exec 1 e, .exec 1 e, .exec 1 e,
    .exec 0 e]

/-- It is stored after the lock, although it was begun before. -/
theorem cached_across_lock : ¬ ∀ atob s as, Linear atob s as := by
  intro h
  obtain ⟨order, horder⟩ := h (fun _ => none) ⟨none, none, false⟩ cachedAcrossLock
  obtain ⟨j, hlt, hj⟩ := horder.locked 1 _ rfl rfl rfl 1 ⟨1, 1, [10]⟩ rfl
  obtain ⟨p, hp, rfl⟩ := cached_by hj
  have := horder.calls p hp
  exact absurd this (Nat.not_lt.mpr hlt)

end Vautr.CiphertextCache
