import Mathlib.Data.Int.Notation
import Mathlib.Data.List.Basic
import Mathlib.Data.List.Induction
import Mathlib.Logic.Function.Basic
import Vautr.Interleave

/-!
The store of the user interface (`store.ts`) and the worker whose outcomes it is told of
(`worker.rs`).

The interface shows a mutation before the worker has committed it. The worker answers with events,
which the store applies one by one, among any other actions and events.
-/

namespace Vautr.UiStore

open Vautr.Interleave (getElem?_set_cases)

structure DecryptedOverview where
  uuid : ℕ
  title : String
  subtitle : String
  iconKey : String
  urls : List String
  updatedAt : ℤ
  deriving DecidableEq

structure ConflictEvent where
  uuid : ℕ
  localVersion : ℕ
  serverVersion : ℕ
  isToxic : Bool
  deriving DecidableEq

structure Draft where
  uuid : ℕ
  syncEpoch : ℕ
  title : String
  subtitle : String
  iconKey : String
  urls : List String
  password : Option String
  notes : Option String

/-- `RevertibleState`, of which the store is told the overview. -/
inductive RevertibleState
  | saved (overview : DecryptedOverview)
  | deleted (overview : DecryptedOverview)

def RevertibleState.overview : RevertibleState → DecryptedOverview
  | .saved overview => overview
  | .deleted overview => overview

inductive VaultStateUpdate
  | syncStarted
  | syncProgress (progressPercentage : ℕ)
  | syncCompleted
  | syncFailed (error : String)
  | overviewUpserted (overview : DecryptedOverview)
  | overviewDeleted (uuid : ℕ)
  | conflictDetected (event : ConflictEvent)
  | keyUpdateRequired
  | vaultLocked
  | newerVersionAvailable (uuid : ℕ)
  | mutationSucceeded (receipt : ℕ)
  | mutationFailed (receipt : ℕ) (error : String) (originalState : RevertibleState)

structure SyncState where
  isSyncing : Bool
  progress : ℕ

/-- `VaultStoreState`. -/
structure Store where
  items : ℕ → Option DecryptedOverview
  drafts : ℕ → Option Draft
  isLocked : Bool
  isReadOnly : Bool
  sync : SyncState
  conflictQueue : List ConflictEvent
  ignoredConflicts : ℕ → Option ConflictEvent

namespace Store

def init : Store := ⟨fun _ => none, fun _ => none, true, false, ⟨false, 0⟩, [], fun _ => none⟩

variable (s : Store)

def upsertOverview (overview : DecryptedOverview) : Store :=
  { s with items := Function.update s.items overview.uuid (some overview) }

def deleteOverview (uuid : ℕ) : Store := { s with items := Function.update s.items uuid none }

def setDraft (receipt : ℕ) (draft : Draft) : Store :=
  { s with drafts := Function.update s.drafts receipt (some draft) }

def clearDraft (receipt : ℕ) : Store :=
  { s with drafts := Function.update s.drafts receipt none }

def wipeDrafts : Store := { s with drafts := fun _ => none }

def enqueueConflict (event : ConflictEvent) : Store :=
  if s.conflictQueue.any (·.uuid == event.uuid) then s
  else { s with
    conflictQueue := s.conflictQueue ++ [event]
    ignoredConflicts := Function.update s.ignoredConflicts event.uuid none }

def resolveConflict (uuid : ℕ) : Store :=
  { s with conflictQueue := s.conflictQueue.filter (·.uuid != uuid) }

def dismissConflict (event : ConflictEvent) : Store :=
  { s with
    conflictQueue := s.conflictQueue.filter (·.uuid != event.uuid)
    ignoredConflicts := Function.update s.ignoredConflicts event.uuid (some event) }

def lock (_ : Store) : Store where
  items := fun _ => none
  drafts := fun _ => none
  isLocked := true
  isReadOnly := false
  sync := ⟨false, 0⟩
  conflictQueue := []
  ignoredConflicts := fun _ => none

def unlock : Store := { s with isLocked := false, isReadOnly := false }

/-- `setSync`, of which each part of the patch may be left out. -/
def setSync (isSyncing : Option Bool) (progress : Option ℕ) : Store :=
  { s with sync := ⟨isSyncing.getD s.sync.isSyncing, progress.getD s.sync.progress⟩ }

def applyUpdate : VaultStateUpdate → Store
  | .syncStarted => s.setSync (some true) none
  | .syncProgress progressPercentage => s.setSync (some true) (some progressPercentage)
  | .syncCompleted => s.setSync (some false) (some 0)
  | .syncFailed _ => s.setSync (some false) none
  | .overviewUpserted overview => s.upsertOverview overview
  | .overviewDeleted uuid => s.deleteOverview uuid
  | .conflictDetected event => s.enqueueConflict event
  | .keyUpdateRequired => { s with isReadOnly := true }
  | .vaultLocked =>
    { s.wipeDrafts with items := fun _ => none, isLocked := true, isReadOnly := false }
  | .newerVersionAvailable _ => s
  | .mutationSucceeded receipt => s.clearDraft receipt
  | .mutationFailed _ _ originalState => s.upsertOverview originalState.overview

end Store

/-! ### The worker -/

/-- A command for the worker: `SaveCommand` or `DeleteCommand`. -/
inductive Mutation
  | save (overview : DecryptedOverview)
  | delete (uuid : ℕ)

def Mutation.uuid : Mutation → ℕ
  | .save overview => overview.uuid
  | .delete uuid => uuid

/-- What is shown of a mutation before it is committed. -/
def Mutation.optimistic (s : Store) : Mutation → Store
  | .save overview => s.upsertOverview overview
  | .delete uuid => s.deleteOverview uuid

/-- What `PersistenceWorker::save` publishes. -/
def workerSave (receipt : ℕ) (overview : DecryptedOverview) :
    Except String Unit → List VaultStateUpdate
  | .ok () => [.mutationSucceeded receipt, .overviewUpserted overview]
  | .error reason => [.mutationFailed receipt reason (.saved overview)]

/-- What `PersistenceWorker::delete` publishes. -/
def workerDelete (receipt : ℕ) (uuid : ℕ) : Except String Unit → List VaultStateUpdate
  | .ok () => [.mutationSucceeded receipt, .overviewDeleted uuid]
  | .error reason => [.mutationFailed receipt reason (.deleted ⟨uuid, "", "", "", [], 0⟩)]

def published (receipt : ℕ) : Mutation → Except String Unit → List VaultStateUpdate
  | .save overview => workerSave receipt overview
  | .delete uuid => workerDelete receipt uuid

/-- A call of the worker: the mutation, and how its commit ended, with the number of the events
published for it that the store has applied. -/
structure Task where
  mutation : Mutation
  outcome : Option (Except String Unit × ℕ)

/-- The events of the call that the store has not applied. -/
def Task.pending (receipt : ℕ) (t : Task) : List VaultStateUpdate :=
  match t.outcome with
  | none => []
  | some (r, applied) => (published receipt t.mutation r).drop applied

/-- The store has applied one event more. -/
def Task.told (t : Task) : Task :=
  { t with outcome := t.outcome.map fun p => (p.1, p.2 + 1) }

/-- The store has been told how the mutation ended. -/
def Task.Settled (receipt : ℕ) (t : Task) : Prop := t.outcome.isSome ∧ t.pending receipt = []

/-! ### Runs -/

/-- The store and the calls of the worker, the `i`-th of which has the receipt `i + 1`. Beside
them what the committed changes make of the items, and the conflicts that the user has dismissed
(their uuids and server versions), both since the vault was locked last. -/
structure Sys where
  store : Store
  tasks : List Task
  committed : ℕ → Option DecryptedOverview
  dismissed : List (ℕ × ℕ)

/-- An action on the store. `upsertOverview` and `deleteOverview` are those that show what is in
the vault; those that show a mutation in advance belong to the mutation. -/
inductive Action
  | upsertOverview (overview : DecryptedOverview)
  | deleteOverview (uuid : ℕ)
  | setDraft (receipt : ℕ) (draft : Draft)
  | clearDraft (receipt : ℕ)
  | wipeDrafts
  | enqueueConflict (event : ConflictEvent)
  | resolveConflict (uuid : ℕ)
  | dismissConflict (event : ConflictEvent)
  | lock
  | unlock
  | setSync (isSyncing : Option Bool) (progress : Option ℕ)

def Store.perform (s : Store) : Action → Store
  | .upsertOverview overview => s.upsertOverview overview
  | .deleteOverview uuid => s.deleteOverview uuid
  | .setDraft receipt draft => s.setDraft receipt draft
  | .clearDraft receipt => s.clearDraft receipt
  | .wipeDrafts => s.wipeDrafts
  | .enqueueConflict event => s.enqueueConflict event
  | .resolveConflict uuid => s.resolveConflict uuid
  | .dismissConflict event => s.dismissConflict event
  | .lock => s.lock
  | .unlock => s.unlock
  | .setSync isSyncing progress => s.setSync isSyncing progress

/-- A step: an action, an event that is not about a mutation, a mutation that is shown and handed
to the worker, the end of a commit, or the next event of a call of the worker. -/
inductive Act
  | action (a : Action)
  | update (event : VaultStateUpdate)
  | mutate (m : Mutation)
  | commit (i : ℕ) (r : Except String Unit)
  | deliver (i : ℕ)

def VaultStateUpdate.ofMutation : VaultStateUpdate → Bool
  | .mutationSucceeded _ => true
  | .mutationFailed _ _ _ => true
  | _ => false

/-- The items after an event that tells of a committed change. -/
def committedBy (items : ℕ → Option DecryptedOverview) :
    VaultStateUpdate → ℕ → Option DecryptedOverview
  | .overviewUpserted overview => Function.update items overview.uuid (some overview)
  | .overviewDeleted uuid => Function.update items uuid none
  | .vaultLocked => fun _ => none
  | _ => items

def Sys.apply (g : Sys) (event : VaultStateUpdate) : Sys :=
  { g with
    store := g.store.applyUpdate event
    committed := committedBy g.committed event
    dismissed := match event with
      | .vaultLocked => []
      | _ => g.dismissed }

def Sys.perform (g : Sys) (a : Action) : Sys :=
  { g with
    store := g.store.perform a
    committed := match a with
      | .upsertOverview overview => Function.update g.committed overview.uuid (some overview)
      | .deleteOverview uuid => Function.update g.committed uuid none
      | .lock => fun _ => none
      | _ => g.committed
    dismissed := match a with
      | .dismissConflict event => (event.uuid, event.serverVersion) :: g.dismissed
      | .lock => []
      | _ => g.dismissed }

def step (g : Sys) : Act → Sys
  | .action a => g.perform a
  | .update event => if event.ofMutation then g else g.apply event
  | .mutate m => { g with store := m.optimistic g.store, tasks := g.tasks ++ [⟨m, none⟩] }
  | .commit i r =>
    match g.tasks[i]? with
    | some ⟨m, none⟩ => { g with tasks := g.tasks.set i ⟨m, some (r, 0)⟩ }
    | _ => g
  | .deliver i =>
    match g.tasks[i]? with
    | none => g
    | some t =>
      match t.pending (i + 1) with
      | [] => g
      | event :: _ =>
        { g.apply event with tasks := g.tasks.set i t.told }

def start : Sys := ⟨.init, [], fun _ => none, []⟩

def run (acts : List Act) : Sys := acts.foldl step start

/-! ### The property -/

/-- No item is in the queue twice, or queued and ignored. -/
structure Tidy (s : Store) : Prop where
  distinct : (s.conflictQueue.map (·.uuid)).Nodup
  disjoint : ∀ e ∈ s.conflictQueue, s.ignoredConflicts e.uuid = none

/-- Every mutation of the item is settled. -/
def Quiet (tasks : List Task) (u : ℕ) : Prop :=
  ∀ (i : ℕ) t, tasks[i]? = some t → t.mutation.uuid = u → t.Settled (i + 1)

/-- An item of which every mutation is settled is as the committed changes have made it. -/
def Shows (g : Sys) : Prop := ∀ u, Quiet g.tasks u → g.store.items u = g.committed u

structure Holds (g : Sys) : Prop where
  tidy : Tidy g.store
  shows : Shows g

/-- What a step promises: a conflict that was dismissed is not queued again, and the event
`VaultLocked` is the action `lock`. -/
def Promise (g : Sys) : Act → Prop
  | .update (.conflictDetected event) => (event.uuid, event.serverVersion) ∈ g.dismissed →
    (∀ e ∈ g.store.conflictQueue, e.uuid ≠ event.uuid) →
    ∀ e ∈ (step g (.update (.conflictDetected event))).store.conflictQueue, e.uuid ≠ event.uuid
  | .update .vaultLocked => (step g (.update .vaultLocked)).store = g.store.lock
  | _ => True

/-- The condition: a dismissed conflict is detected again only when its item is queued anyway; the
vault is locked by the event only when nothing is queued, ignored or synced; and a mutation fails
only when it is reverted to what is committed, or another mutation of the item is not settled. -/
def Meets (g : Sys) : Act → Prop
  | .update (.conflictDetected event) => (event.uuid, event.serverVersion) ∈ g.dismissed →
    ∃ e ∈ g.store.conflictQueue, e.uuid = event.uuid
  | .update .vaultLocked => g.store.conflictQueue = [] ∧
    g.store.ignoredConflicts = (fun _ => none) ∧ g.store.sync = ⟨false, 0⟩
  | .deliver i => ∀ t ∈ g.tasks[i]?, ∀ receipt error original,
    (t.pending (i + 1)).head? = some (.mutationFailed receipt error original) →
    g.committed original.overview.uuid = some original.overview ∨
      ∃ (j : ℕ) (t' : Task), j ≠ i ∧ g.tasks[j]? = some t' ∧
        t'.mutation.uuid = original.overview.uuid ∧ ¬ t'.Settled (j + 1)
  | _ => True

variable {s s' : Store} {g : Sys}

/-! ### The queue of conflicts -/

lemma Tidy.of_eq (h : Tidy s) (hq : s'.conflictQueue = s.conflictQueue)
    (hi : s'.ignoredConflicts = s.ignoredConflicts) : Tidy s' :=
  ⟨by rw [hq]; exact h.distinct, by rw [hq, hi]; exact h.disjoint⟩

lemma queued_iff {event : ConflictEvent} :
    s.conflictQueue.any (·.uuid == event.uuid) = true ↔
      ∃ e ∈ s.conflictQueue, e.uuid = event.uuid := by
  simp only [List.any_eq_true, beq_iff_eq]

lemma Tidy.enqueueConflict (h : Tidy s) (event : ConflictEvent) :
    Tidy (s.enqueueConflict event) := by
  rw [Store.enqueueConflict]
  split
  · exact h
  · next hnew =>
    rw [queued_iff] at hnew
    constructor
    · simp only [List.map_append, List.map_cons, List.map_nil]
      refine List.nodup_append.mpr ⟨h.distinct, by simp, ?_⟩
      rintro u hu v hv rfl
      obtain ⟨e, he, rfl⟩ := List.mem_map.mp hu
      exact hnew ⟨e, he, List.mem_singleton.mp hv⟩
    · intro e he
      rcases eq_or_ne e.uuid event.uuid with heq | hne
      · simp [heq]
      · rcases List.mem_append.mp he with he | he
        · simpa [hne] using h.disjoint e he
        · exact absurd (congrArg _ (List.mem_singleton.mp he)) hne

lemma Tidy.resolveConflict (h : Tidy s) (uuid : ℕ) : Tidy (s.resolveConflict uuid) :=
  ⟨h.distinct.sublist (List.filter_sublist.map _),
    fun e he => h.disjoint e (List.mem_of_mem_filter he)⟩

lemma Tidy.dismissConflict (h : Tidy s) (event : ConflictEvent) :
    Tidy (s.dismissConflict event) := by
  refine ⟨h.distinct.sublist (List.filter_sublist.map _), fun e he => ?_⟩
  obtain ⟨he, hne⟩ := List.mem_filter.mp he
  simp only [bne_iff_ne] at hne
  simpa [Store.dismissConflict, hne] using h.disjoint e he

lemma tidy_empty (hq : s.conflictQueue = []) : Tidy s := by
  constructor <;> simp [hq]

lemma Tidy.perform (h : Tidy s) (a : Action) : Tidy (s.perform a) := by
  cases a with
  | enqueueConflict event => exact h.enqueueConflict event
  | resolveConflict uuid => exact h.resolveConflict uuid
  | dismissConflict event => exact h.dismissConflict event
  | lock => exact tidy_empty rfl
  | upsertOverview overview => exact h.of_eq rfl rfl
  | deleteOverview uuid => exact h.of_eq rfl rfl
  | setDraft receipt draft => exact h.of_eq rfl rfl
  | clearDraft receipt => exact h.of_eq rfl rfl
  | wipeDrafts => exact h.of_eq rfl rfl
  | unlock => exact h.of_eq rfl rfl
  | setSync isSyncing progress => exact h.of_eq rfl rfl

lemma Tidy.applyUpdate (h : Tidy s) (event : VaultStateUpdate) : Tidy (s.applyUpdate event) := by
  cases event with
  | conflictDetected event => exact h.enqueueConflict event
  | _ => exact h.of_eq rfl rfl

lemma Tidy.optimistic (h : Tidy s) (m : Mutation) : Tidy (m.optimistic s) := by
  cases m with
  | save overview => exact h.of_eq rfl rfl
  | delete uuid => exact h.of_eq rfl rfl

/-! ### The items -/

lemma update_congr {f f' : ℕ → Option DecryptedOverview} {u v : ℕ} {x : Option DecryptedOverview}
    (h : f u = f' u) : Function.update f v x u = Function.update f' v x u := by
  rcases eq_or_ne u v with rfl | hne
  · simp
  · simpa [hne] using h

/-- An action changes the items as it changes what is committed. -/
lemma items_perform (a : Action) {u : ℕ} (h : g.store.items u = g.committed u) :
    (g.perform a).store.items u = (g.perform a).committed u := by
  cases a with
  | upsertOverview overview => exact update_congr h
  | deleteOverview uuid => exact update_congr h
  | lock => rfl
  | enqueueConflict event =>
    change (g.store.enqueueConflict event).items u = _
    rw [Store.enqueueConflict]
    split <;> exact h
  | _ => exact h

/-- So does every event but the failure of a mutation. -/
lemma items_apply {event : VaultStateUpdate} {u : ℕ} (h : g.store.items u = g.committed u)
    (hev : ∀ receipt error original, event ≠ .mutationFailed receipt error original) :
    (g.apply event).store.items u = (g.apply event).committed u := by
  cases event with
  | overviewUpserted overview => exact update_congr h
  | overviewDeleted uuid => exact update_congr h
  | vaultLocked => rfl
  | conflictDetected event =>
    change (g.store.enqueueConflict event).items u = _
    rw [Store.enqueueConflict]
    split <;> exact h
  | mutationFailed receipt error original => exact absurd rfl (hev receipt error original)
  | _ => exact h

/-! ### The events of the worker -/

/-- The item that an event of the worker changes in the store. -/
def VaultStateUpdate.item : VaultStateUpdate → Option ℕ
  | .overviewUpserted overview => some overview.uuid
  | .overviewDeleted uuid => some uuid
  | .mutationFailed _ _ original => some original.overview.uuid
  | _ => none

variable {t : Task} {receipt i u : ℕ} {event : VaultStateUpdate} {rest : List VaultStateUpdate}

/-- A call ends with an event that changes its item, and tells of a success before that. -/
lemma published_cases (receipt : ℕ) (m : Mutation) (r : Except String Unit) :
    ∃ last, last.item = some m.uuid ∧
      (published receipt m r = [.mutationSucceeded receipt, last] ∨
        published receipt m r = [last]) := by
  cases m with
  | save overview =>
    cases r with
    | ok _ => exact ⟨_, rfl, .inl rfl⟩
    | error reason => exact ⟨_, rfl, .inr rfl⟩
  | delete uuid =>
    cases r with
    | ok _ => exact ⟨_, rfl, .inl rfl⟩
    | error reason => exact ⟨_, rfl, .inr rfl⟩

/-- The next event of a call tells of its success, or it is the last one and changes its item. -/
lemma told_cases (h : t.pending receipt = event :: rest) :
    t.outcome.isSome ∧ t.told.pending receipt = rest ∧
      ((∃ n, event = .mutationSucceeded n) ∧ rest ≠ [] ∨
        event.item = some t.mutation.uuid ∧ rest = []) := by
  obtain ⟨m, outcome⟩ := t
  cases outcome with
  | none => cases h
  | some p =>
    obtain ⟨r, applied⟩ := p
    change (published receipt m r).drop applied = event :: rest at h
    refine ⟨rfl, ?_, ?_⟩
    · change (published receipt m r).drop (applied + 1) = rest
      rw [← List.tail_drop, h, List.tail_cons]
    · obtain ⟨last, hlast, hpub | hpub⟩ := published_cases receipt m r
      · rw [hpub] at h
        rcases applied with _ | _ | applied
        · obtain ⟨rfl, rfl⟩ := List.cons.inj h
          exact .inl ⟨⟨_, rfl⟩, by simp⟩
        · obtain ⟨rfl, rfl⟩ := List.cons.inj h
          exact .inr ⟨hlast, rfl⟩
        · simp at h
      · rw [hpub] at h
        rcases applied with _ | applied
        · obtain ⟨rfl, rfl⟩ := List.cons.inj h
          exact .inr ⟨hlast, rfl⟩
        · simp at h

lemma unsettled_commit (m : Mutation) (r : Except String Unit) :
    ¬ (⟨m, some (r, 0)⟩ : Task).Settled receipt := by
  rintro ⟨-, h⟩
  change (published receipt m r).drop 0 = [] at h
  obtain ⟨last, -, hpub | hpub⟩ := published_cases receipt m r
  · rw [hpub] at h
    cases h
  · rw [hpub] at h
    cases h

lemma items_optimistic (m : Mutation) (hne : u ≠ m.uuid) :
    (m.optimistic s).items u = s.items u := by
  cases m with
  | save overview => exact Function.update_of_ne hne _ _
  | delete uuid => exact Function.update_of_ne hne _ _

/-- An event changes no item but its own. -/
lemma apply_of_ne {v : ℕ} (hitem : event.item = some v) (hne : u ≠ v) :
    (g.apply event).store.items u = g.store.items u ∧
      (g.apply event).committed u = g.committed u := by
  cases event with
  | overviewUpserted overview =>
    cases hitem
    exact ⟨Function.update_of_ne hne _ _, Function.update_of_ne hne _ _⟩
  | overviewDeleted uuid =>
    cases hitem
    exact ⟨Function.update_of_ne hne _ _, Function.update_of_ne hne _ _⟩
  | mutationFailed receipt error original =>
    cases hitem
    exact ⟨Function.update_of_ne hne _ _, rfl⟩
  | _ => cases hitem

/-- The item of an event that tells of a committed change is as committed after it. -/
lemma apply_item (hitem : event.item = some u)
    (hev : ∀ receipt error original, event ≠ .mutationFailed receipt error original) :
    (g.apply event).store.items u = (g.apply event).committed u := by
  cases event with
  | overviewUpserted overview =>
    cases hitem
    exact (Function.update_self _ _ _).trans (Function.update_self _ _ g.committed).symm
  | overviewDeleted uuid =>
    cases hitem
    exact (Function.update_self _ _ _).trans (Function.update_self _ _ g.committed).symm
  | mutationFailed receipt error original => exact absurd rfl (hev receipt error original)
  | _ => cases hitem

/-! ### Steps -/

/-- What is settled after a call was told of an event was settled before, the call apart. -/
lemma quiet_of_set {tasks : List Task} {t t' : Task} (hi : tasks[i]? = some t)
    (hu : t.mutation.uuid ≠ u) (h : Quiet (tasks.set i t') u) : Quiet tasks u := by
  intro j t₀ hj huuid
  rcases eq_or_ne j i with rfl | hne
  · rw [hi, Option.some.injEq] at hj
    exact absurd (hj ▸ huuid) hu
  · exact h j t₀ (by rw [List.getElem?_set_ne hne.symm, hj]) huuid

lemma quiet_set {tasks : List Task} {t t' : Task} (hi : tasks[i]? = some t)
    (h : Quiet (tasks.set i t') u) (hu : t'.mutation.uuid = u) : t'.Settled (i + 1) :=
  h i t' (List.getElem?_set_self (List.getElem?_eq_some_iff.mp hi).1) hu

/-- A mutation that is handed to the worker changes its own item only. -/
lemma Shows.mutate (h : Shows g) (m : Mutation) : Shows (step g (.mutate m)) := by
  intro u hquiet
  have hne : u ≠ m.uuid := by
    rintro rfl
    have := hquiet g.tasks.length ⟨m, none⟩ (by simp [step]) rfl
    cases this.1
  refine (items_optimistic m hne).trans (h u fun i t hi hu => hquiet i t ?_ hu)
  rw [step, List.getElem?_append_left (List.getElem?_eq_some_iff.mp hi).1, hi]

lemma Shows.commit (h : Shows g) (i : ℕ) (r : Except String Unit) :
    Shows (step g (.commit i r)) := by
  rw [step]
  split
  · next m hi =>
    intro u hquiet
    refine h u (quiet_of_set hi (fun hu => ?_) hquiet)
    exact unsettled_commit m r (quiet_set hi hquiet hu)
  · exact h

/-- An event of the worker keeps the items as committed exactly if it meets the condition. -/
lemma shows_deliver (h : Shows g) (hi : g.tasks[i]? = some t)
    (hp : t.pending (i + 1) = event :: rest) :
    Shows { g.apply event with tasks := g.tasks.set i t.told } ↔ Meets g (.deliver i) := by
  obtain ⟨hdone, htold, hcase⟩ := told_cases hp
  have hmeets : Meets g (.deliver i) ↔ ∀ receipt error original,
      event = .mutationFailed receipt error original →
      g.committed original.overview.uuid = some original.overview ∨
        ∃ (j : ℕ) (t' : Task), j ≠ i ∧ g.tasks[j]? = some t' ∧
          t'.mutation.uuid = original.overview.uuid ∧ ¬ t'.Settled (j + 1) := by
    rw [Meets, hi]
    simp [hp]
  rw [hmeets]
  rcases hcase with ⟨⟨n, rfl⟩, hrest⟩ | ⟨hitem, hrest⟩
  · -- the mutation is not settled yet
    refine iff_of_true (fun u hquiet => h u (quiet_of_set hi (fun hu => ?_) hquiet)) nofun
    exact hrest (htold ▸ (quiet_set hi hquiet hu).2)
  · have hother : ∀ u ≠ t.mutation.uuid, Quiet (g.tasks.set i t.told) u →
        (g.apply event).store.items u = (g.apply event).committed u := by
      intro u hne hquiet
      rw [(apply_of_ne hitem hne).1, (apply_of_ne hitem hne).2]
      exact h u (quiet_of_set hi hne.symm hquiet)
    by_cases hfailed : ∃ receipt error original, event = .mutationFailed receipt error original
    · -- a failure: the view shows the original again
      obtain ⟨receipt, error, original, rfl⟩ := hfailed
      have huuid : original.overview.uuid = t.mutation.uuid := Option.some.inj hitem
      have hsettled : t.told.Settled (i + 1) := by
        refine ⟨?_, htold.trans hrest⟩
        rw [Task.told, Option.isSome_map]
        exact hdone
      have hshown : (g.apply (.mutationFailed receipt error original)).store.items
          original.overview.uuid = some original.overview := Function.update_self _ _ _
      constructor
      · rintro hshows _ _ _ ⟨⟩
        by_contra hno
        refine hno (.inl ((hshows original.overview.uuid fun j t' hj hu => ?_).symm.trans hshown))
        rcases getElem?_set_cases hj with ⟨rfl, rfl⟩ | ⟨hne, hj⟩
        · exact hsettled
        · by_contra hunsettled
          exact hno (.inr ⟨j, t', hne, hj, hu, hunsettled⟩)
      · intro hcond u hquiet
        rcases eq_or_ne u t.mutation.uuid with rfl | hne
        · rw [← huuid] at hquiet ⊢
          rcases hcond _ _ _ rfl with hcommitted | ⟨j, t', hne, hj, hu, hunsettled⟩
          · exact hshown.trans hcommitted.symm
          · exact absurd (hquiet j t' (by rw [List.getElem?_set_ne hne.symm, hj]) hu) hunsettled
        · exact hother u hne hquiet
    · -- any other event shows what was committed
      refine iff_of_true (fun u hquiet => ?_) fun receipt error original heq =>
        absurd ⟨receipt, error, original, heq⟩ hfailed
      rcases eq_or_ne u t.mutation.uuid with rfl | hne
      · exact apply_item hitem fun receipt error original heq => hfailed ⟨_, _, _, heq⟩
      · exact hother u hne hquiet

lemma holds_perform (h : Holds g) (a : Action) : Holds (g.perform a) :=
  ⟨h.tidy.perform a, fun u hquiet => items_perform a (h.shows u hquiet)⟩

lemma holds_apply (h : Holds g) {event : VaultStateUpdate} (hev : event.ofMutation = false) :
    Holds (g.apply event) := by
  refine ⟨h.tidy.applyUpdate event, fun u hquiet => items_apply (h.shows u hquiet) ?_⟩
  rintro receipt error original rfl
  cases hev

/-- A dismissed conflict that is detected again is queued, unless its item is in the queue. -/
lemma promise_detected (event : ConflictEvent) :
    Promise g (.update (.conflictDetected event)) ↔
      Meets g (.update (.conflictDetected event)) := by
  have hstore : (step g (.update (.conflictDetected event))).store =
      g.store.enqueueConflict event := rfl
  rw [Promise, Meets, hstore]
  refine imp_congr_right fun _ => ?_
  rw [Store.enqueueConflict]
  split
  · next hq => exact iff_of_true (fun h => h) (queued_iff.mp hq)
  · next hq =>
    rw [queued_iff] at hq
    refine iff_of_false (fun h => ?_) hq
    refine h (fun e he heq => hq ⟨e, he, heq⟩) event ?_ rfl
    exact List.mem_append_right _ (List.mem_singleton_self event)

/-- The event and the action are the same only when there is nothing that the event leaves. -/
lemma promise_locked : Promise g (.update .vaultLocked) ↔ Meets g (.update .vaultLocked) := by
  change g.store.applyUpdate .vaultLocked = g.store.lock ↔ _
  rw [Meets]
  constructor
  · intro h
    have hq := congrArg Store.conflictQueue h
    have hi := congrArg Store.ignoredConflicts h
    have hs := congrArg Store.sync h
    exact ⟨hq, hi, hs⟩
  · rintro ⟨hq, hi, hs⟩
    simp only [Store.applyUpdate, Store.wipeDrafts, Store.lock, hq, hi, hs]

/-- **One step**: from a state in which everything is in order, a step is in order exactly if it
meets the condition. -/
lemma step_iff (h : Holds g) (a : Act) : Promise g a ∧ Holds (step g a) ↔ Meets g a := by
  cases a with
  | action a => exact iff_of_true ⟨trivial, holds_perform h a⟩ trivial
  | update event =>
    have hstep : Holds (step g (.update event)) := by
      rw [step]
      split
      · exact h
      · next hev => exact holds_apply h (Bool.eq_false_iff.mpr hev)
    rw [and_iff_left hstep]
    cases event with
    | conflictDetected event => exact promise_detected event
    | vaultLocked => exact promise_locked
    | _ => exact Iff.rfl
  | mutate m =>
    exact iff_of_true ⟨trivial, h.tidy.optimistic m, h.shows.mutate m⟩ trivial
  | commit i r =>
    refine iff_of_true ⟨trivial, ?_, h.shows.commit i r⟩ trivial
    rw [step]
    split
    · exact h.tidy
    · exact h.tidy
  | deliver i =>
    rw [step]
    split
    · next hnone =>
      refine iff_of_true ⟨trivial, h⟩ ?_
      rw [Meets, hnone]
      nofun
    · next t hi =>
      split
      · next hp =>
        refine iff_of_true ⟨trivial, h⟩ ?_
        rw [Meets, hi]
        rintro _ ⟨⟩ receipt error original hhead
        rw [hp] at hhead
        cases hhead
      · next event rest hp =>
        rw [← shows_deliver h.shows hi hp]
        exact ⟨fun h' => h'.2.shows, fun h' => ⟨trivial, h.tidy.applyUpdate event, h'⟩⟩

/-! ### Runs -/

lemma run_append (acts : List Act) (a : Act) : run (acts ++ [a]) = step (run acts) a := by
  rw [run, List.foldl_append]
  rfl

lemma holds_start : Holds start := ⟨tidy_empty rfl, fun _ _ => rfl⟩

/-- Everything is in order at every state and every step of the run. -/
def InOrder (acts : List Act) : Prop :=
  ∀ past, past <+: acts → Holds (run past) ∧ ∀ a, past ++ [a] <+: acts → Promise (run past) a

/-- **The store is in order all along a run if and only if every step meets the condition**: the
queue of conflicts has no item twice and none that is ignored, a dismissed conflict is not queued
again, the event `VaultLocked` does what the action `lock` does, and the items are as the committed
changes have made them. -/
theorem inOrder_iff (acts : List Act) :
    InOrder acts ↔ ∀ past a, past ++ [a] <+: acts → Meets (run past) a := by
  constructor
  · intro h past a hp
    have hbefore := h past ((List.prefix_append past [a]).trans hp)
    have hafter := (h (past ++ [a]) hp).1
    rw [run_append] at hafter
    exact (step_iff hbefore.1 a).mp ⟨hbefore.2 a hp, hafter⟩
  · intro h
    have hholds : ∀ past, past <+: acts → Holds (run past) := by
      intro past
      induction past using List.reverseRecOn with
      | nil => exact fun _ => holds_start
      | append_singleton past a ih =>
        intro hp
        rw [run_append]
        exact ((step_iff (ih ((List.prefix_append past [a]).trans hp)) a).mpr (h past a hp)).2
    exact fun past hp => ⟨hholds past hp, fun a hp' => ((step_iff (hholds past hp) a).mpr
      (h past a hp')).1⟩

/-- A conflict that the user has dismissed is detected again. -/
def dismissedAgain : List Act :=
  let event : ConflictEvent := ⟨1, 2, 3, false⟩
  [.action (.dismissConflict event), .update (.conflictDetected event)]

/-- The vault is locked by the event while a conflict is queued. -/
def lockedInConflict : List Act :=
  [.update (.conflictDetected ⟨1, 2, 3, false⟩), .update .vaultLocked]

/-- The commit of an edit fails. -/
def failedEdit : List Act :=
  [.update (.overviewUpserted ⟨1, "old", "", "", [], 0⟩),
    .mutate (.save ⟨1, "new", "", "", [], 1⟩), .commit 0 (.error "write rejected"), .deliver 0]

/-- The dismissed conflict is queued, the conflict outlives the session, and the edit that was not
committed is shown. -/
theorem store_out_of_order :
    ¬ InOrder dismissedAgain ∧ ¬ InOrder lockedInConflict ∧ ¬ InOrder failedEdit := by
  refine ⟨fun h => ?_, fun h => ?_, fun h => ?_⟩
  · have hp := (h [.action (.dismissConflict ⟨1, 2, 3, false⟩)] ⟨[_], rfl⟩).2 _ List.prefix_rfl
    exact hp (List.mem_singleton_self _) (fun _ he => by cases he) _
      (List.mem_singleton_self _) rfl
  · have hp := (h [.update (.conflictDetected ⟨1, 2, 3, false⟩)] ⟨[_], rfl⟩).2 _ List.prefix_rfl
    cases congrArg Store.conflictQueue hp
  · have hquiet : Quiet (run failedEdit).tasks 1 := by
      intro i t hi _
      cases i with
      | zero =>
        cases hi
        exact ⟨rfl, rfl⟩
      | succ i => cases hi
    exact absurd ((h failedEdit List.prefix_rfl).1.shows 1 hquiet) (by decide)

end Vautr.UiStore
