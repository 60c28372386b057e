import Mathlib.Data.List.Range
import Vautr.Interleave
import Vautr.Orchestrator

/-!
The queue of a client that is offline (`offline.rs`, and its part of `orchestrator.rs`).

Saves and deletes are queued and applied later, by a flush that goes through a copy of the
queue and removes the front of the queue after each mutation that was committed. Any number of
calls run at the same time: saves and deletes to the queue, flushes, and all other operations of
all devices, locking included.
-/

namespace Vautr.OfflineQueue

open Vautr.Atomic Vautr.Interleave Vautr.Server Vautr.Handlers Vautr.Crypto Vautr.ClientDb
  Vautr.Client Vautr.Orchestrator Vautr.Zoom

inductive QueuedMutation
  | save (item : DomainModel) (payload : Blob)
  | delete (uuid : Ident)

/-- An entry of the queue. Its number, which the code does not have, is how many mutations were
queued before it. -/
structure Queued where
  number : ℕ
  mutation : QueuedMutation

/-- The world and the queue of one client; beside them what was queued, and the numbers of the
mutations that were committed, in that order. -/
structure Offline where
  world : World
  queue : List Queued
  queued : List Queued
  applied : List ℕ

/-- The statements: those of the queue, those that apply a mutation, and all others. -/
inductive Label
  | push
  | peekAll
  | applying (n : ℕ) (l : Name)
  | pop (n : ℕ)
  | checkLock (n : ℕ)
  | client (l : Name)

abbrev Task := Prog Offline ClientEnv Label

/-- Other operations, on the world. -/
def onWorld : View World Offline ClientEnv ClientEnv Name Label where
  get s := s.world
  put w s := { s with world := w }
  inp e := e
  name := .client
  get_put _ _ := rfl

/-- The transaction of a save or of a delete, when it does not fail. -/
def commits (l : Name) (e : ClientEnv) : Bool :=
  match l.2 with
  | .saveItem _ => !e.fault
  | .deleteItem _ => !e.fault
  | _ => false

/-- An operation that applies the mutation `n`. -/
def applying {α : Type} (n : ℕ) : Code α → Task α
  | .ret a => .ret a
  | .stmt l f k =>
    .stmt (.applying n l)
      (fun e s => { s with
        world := f e s.world
        applied := if commits l e then s.applied ++ [n] else s.applied })
      fun e s => applying n (k e s.world)

variable (X : Ext Blob) (d : ℕ)

/-! ### The queue -/

/-- `OfflineQueue::push`; the new length. -/
def push (m : QueuedMutation) : Task ℕ :=
  Prog.atom .push fun _ s =>
    let entry : Queued := ⟨s.queued.length, m⟩
    ({ s with queue := s.queue ++ [entry], queued := s.queued ++ [entry] }, s.queue.length + 1)

def peekAll : Task (List Queued) := Prog.atom .peekAll fun _ s => (s, s.queue)

/-- `OfflineQueue::pop_front_if`, on the queue. -/
def popFrontIf (p : QueuedMutation → Bool) : List Queued → List Queued
  | [] => []
  | head :: rest => if p head.mutation then rest else head :: rest

/-- What a flush compares with the front of the queue. -/
def QueuedMutation.looksLike : QueuedMutation → QueuedMutation → Bool
  | .save a _, .save b _ => a.uuid = b.uuid
  | .delete a, .delete b => a = b
  | _, _ => false

lemma looksLike_self (m : QueuedMutation) : m.looksLike m = true := by
  cases m <;> simp [QueuedMutation.looksLike]

/-- `is_locked`, in the flush. -/
def isLocked (n : ℕ) : Task Bool :=
  Prog.atom (.checkLock n) fun _ s => (s, (s.world.devices d).mem.locked)

/-- The operation that applies a mutation. -/
def QueuedMutation.apply : QueuedMutation → Op TaskOutcome
  | .save item payload => saveItem d item payload
  | .delete uuid => deleteItem d uuid

/-- The front of the queue is removed if it looks like the mutation that was committed; how many
were. -/
def settle (m : Queued) (applied : ℕ) : Except ClientError TaskOutcome → Task ℕ
  | .ok (.committed _) => do
    Prog.atom (.pop m.number) fun _ s =>
      ({ s with queue := popFrontIf (·.looksLike m.mutation) s.queue }, ())
    return applied + 1
  | _ => return applied

/-- The loop over the copy of the queue. -/
def flushLoop : List Queued → ℕ → Task ℕ
  | [], applied => return applied
  | m :: rest, applied => do
    let result ← applying m.number (m.mutation.apply d).run
    let applied ← settle m applied result
    if ← isLocked d m.number then return applied else flushLoop rest applied

/-- What is left after the loop. -/
def finishFlush (applied : ℕ) : Task (Except ClientError ℕ) := do
  if 0 < applied then
    match ← zoom onWorld (pushLocalChanges X d).run with
    | .ok () => return .ok applied
    | .error e => return .error e
  else return .ok applied

def flushOfflineQueue : Task (Except ClientError ℕ) := do
  let mutations ← peekAll
  if mutations.isEmpty then return .ok 0
  else finishFlush X d (← flushLoop d mutations 0)

/-! ### The calls -/

/-- What is asked of the client `d`, or of another device; the client is not restarted. -/
inductive Req (d : ℕ)
  | offlineSave (item : DomainModel) (payload : Blob)
  | offlineDelete (uuid : Ident)
  | flush
  | other (d' : ℕ) (q : Cmd) (h : d' = d → q ≠ .restart)

inductive Reply
  | length (n : ℕ)
  | flushed (r : Except ClientError ℕ)
  | other (r : Except ClientError CmdReply)

def code : Req d → Task Reply
  | .offlineSave item payload => do return .length (← push (.save item payload))
  | .offlineDelete uuid => do return .length (← push (.delete uuid))
  | .flush => do return .flushed (← flushOfflineQueue X d)
  | .other d' q _ => do return .other (← zoom onWorld (Orchestrator.code X d' q))

abbrev System (d : ℕ) := Sys (Req d) Offline ClientEnv Label Reply

/-- Nothing was queued yet. -/
def start (w : World) : Offline := ⟨w, [], [], []⟩

/-- The statements of the loop of a flush. -/
def Label.inLoop : Label → Bool
  | .applying _ _ => true
  | .pop _ => true
  | .checkLock _ => true
  | _ => false

/-- The rest of a call is in the loop of a flush. -/
def inLoop (p : Task Reply) : Bool := p.next.any Label.inLoop

/-- What holds of the queue in a system. -/
structure Kept (σ : System d) : Prop where
  numbered : σ.shared.queued.map (·.number) = List.range σ.shared.queued.length
  kept : ∀ m ∈ σ.shared.queued, m ∈ σ.shared.queue ∨ m.number ∈ σ.shared.applied
  queued : ∀ m ∈ σ.shared.queue, m ∈ σ.shared.queued
  inOrder : σ.shared.applied.Pairwise (· < ·)
  once : σ.shared.applied.Nodup
  removed : (∀ c ∈ σ.calls, inLoop c.prog = false) →
    ∀ m ∈ σ.shared.queue, m.number ∉ σ.shared.applied

/-- What is asked of the next statement of a call. -/
def Fits (σ : System d) (e : ClientEnv) : Option Label → Prop
  | some .peekAll => ∀ c ∈ σ.calls, inLoop c.prog = false
  | some (.applying n l) => commits l e = true → σ.shared.queue.head?.map (·.number) = some n
  | _ => True

/-- A flush copies the queue while no other is in its loop, and commits a mutation only while
that is at the front of the queue. -/
def InTurn (σ : System d) : Act (Req d) ClientEnv → Prop
  | .call _ => True
  | .exec i e => Fits d σ e ((σ.calls[i]?).bind (·.prog.next))

instance decidableFits (σ : System d) (e : ClientEnv) : ∀ l, Decidable (Fits d σ e l)
  | none => inferInstanceAs (Decidable True)
  | some .push => inferInstanceAs (Decidable True)
  | some .peekAll => inferInstanceAs (Decidable (∀ c ∈ σ.calls, inLoop c.prog = false))
  | some (.applying n l) => inferInstanceAs
      (Decidable (commits l e = true → σ.shared.queue.head?.map (·.number) = some n))
  | some (.pop _) => inferInstanceAs (Decidable True)
  | some (.checkLock _) => inferInstanceAs (Decidable True)
  | some (.client _) => inferInstanceAs (Decidable True)

instance decidableInTurn (σ : System d) : ∀ a, Decidable (InTurn d σ a)
  | .call _ => inferInstanceAs (Decidable True)
  | .exec i e => decidableFits d σ e ((σ.calls[i]?).bind (·.prog.next))

/-! ### Mutations commit at most once -/

section Marks

variable {α β ε : Type}

/-- The program commits at most once from here on, and not at all if `b`; at the end `P` knows
whether something was committed. -/
def Marks (b : Bool) : Code α → (Bool → α → Prop) → Prop
  | .ret a, P => P b a
  | .stmt l _ k, P => ∀ e w, (commits l e = true → b = false) ∧ Marks (b || commits l e) (k e w) P

lemma marks_bind {p : Code α} {g : α → Code β} {P : Bool → β → Prop} {b : Bool}
    (h : Marks b p fun b a => Marks b (g a) P) : Marks b (p >>= g) P := by
  induction p generalizing b with
  | ret a => exact h
  | stmt l f k ih => exact fun e w => ⟨(h e w).1, ih _ _ (h e w).2⟩

lemma marks_mono {p : Code α} {P P' : Bool → α → Prop} {b : Bool} (hP : ∀ b a, P b a → P' b a)
    (h : Marks b p P) : Marks b p P' := by
  induction p generalizing b with
  | ret a => exact hP _ _ h
  | stmt l f k ih => exact fun e w => ⟨(h e w).1, ih _ _ (h e w).2⟩

lemma marks_bind_except {x : ExceptT ε Code α} {g : α → ExceptT ε Code β}
    {P : Bool → Except ε β → Prop} {b : Bool}
    (h : Marks b x.run fun b r => match r with
      | .ok a => Marks b (g a).run P
      | .error e => P b (.error e)) : Marks b (x >>= g).run P := by
  rw [ExceptT.run_bind]
  refine marks_bind (marks_mono (fun b r hr => ?_) h)
  cases r <;> exact hr

lemma marks_inspect {ε' : Type} {x : ExceptT ε Code α} {P : Bool → Except ε' (Except ε α) → Prop}
    {b : Bool} (h : Marks b x.run fun b r => P b (.ok r)) : Marks b (inspect x).run P := by
  unfold inspect
  rw [ExceptT.run_lift]
  exact marks_bind (p := x.run) h

variable {d}

lemma marks_onMemory {l : Client.Label} {g : ClientEnv → Memory → Memory × α} {b : Bool}
    {P : Bool → Except ε α → Prop} (hl : ∀ e, commits (d, l) e = false)
    (h : ∀ e m, P b (.ok (g e m).2)) : Marks b (onMemory d l g).run P := by
  intro e w
  rw [hl e, Bool.or_false]
  exact ⟨nofun, h e _⟩

lemma marks_readMemory {g : Memory → α} {b : Bool} {P : Bool → Except ε α → Prop}
    (h : ∀ a, P b (.ok a)) : Marks b (readMemory d g : ExceptT ε Code α).run P :=
  marks_onMemory (fun _ => rfl) fun _ _ => h _

lemma marks_readDb {l : Client.Label} {context : String} {g : LocalDb Blob → α} {b : Bool}
    {P : Bool → Except ClientError α → Prop} (hl : ∀ e, commits (d, l) e = false)
    (h : ∀ r, P b r) : Marks b (readDb d l context g).run P := by
  intro e w
  rw [hl e, Bool.or_false]
  exact ⟨nofun, h _⟩

/-- The transaction that commits. -/
lemma marks_writeDb {l : Client.Label} {context : String} {g : LocalDb Blob → LocalDb Blob}
    {P : Bool → Except ClientError Unit → Prop} (hl : ∀ e, commits (d, l) e = !e.fault)
    (herr : ∀ e, P false (.error e)) (hok : P true (.ok ())) :
    Marks false (writeDb d l context g).run P := by
  intro e w
  rw [hl e, Bool.false_or]
  refine ⟨fun _ => rfl, ?_⟩
  cases hf : e.fault
  · simpa [hf, Marks] using hok
  · simpa [hf, Marks] using herr _

/-- The outcome says whether the mutation was committed. -/
def Tells (b : Bool) : Except ClientError TaskOutcome → Prop
  | .ok (.committed _) => b = true
  | _ => b = false

lemma marks_commitTask {commit : Op Unit} {done : Update}
    (h : Marks false commit.run fun b r => b = r.isOk) :
    Marks false (commitTask d commit done).run Tells := by
  unfold commitTask
  refine marks_bind_except (marks_onMemory (fun _ => rfl) fun _ m => ?_)
  refine marks_bind_except (marks_inspect (marks_mono (fun b r hr => ?_) h))
  cases r with
  | ok u => exact marks_bind_except (marks_onMemory (fun _ => rfl) fun _ _ => hr)
  | error e => exact marks_bind_except (marks_onMemory (fun _ => rfl) fun _ _ => hr)

lemma marks_verifyEpoch {gen : UInt64} {P : Bool → Except ClientError Unit → Prop} {b : Bool}
    (h : ∀ r, P b r) : Marks b (verifyEpoch d gen).run P := by
  unfold verifyEpoch
  refine marks_bind_except (marks_readMemory fun m => ?_)
  dsimp only
  split
  · exact h _
  · exact h _

lemma marks_commitSave (item : DomainModel) (payload : Blob) :
    Marks false (commitSave d item payload).run fun b r => b = r.isOk := by
  unfold commitSave
  refine marks_bind_except (marks_verifyEpoch fun r => ?_)
  cases r with
  | error e => rfl
  | ok u =>
    refine marks_bind_except (marks_readDb (fun _ => rfl) fun r => ?_)
    cases r with
    | error e => rfl
    | ok existing => exact marks_writeDb (fun _ => rfl) (fun _ => rfl) rfl

lemma marks_commitDelete (uuid : Ident) (gen : UInt64) :
    Marks false (commitDelete d uuid gen).run fun b r => b = r.isOk := by
  unfold commitDelete
  refine marks_bind_except (marks_verifyEpoch fun r => ?_)
  cases r with
  | error e => rfl
  | ok u => exact marks_writeDb (fun _ => rfl) (fun _ => rfl) rfl

/-- A mutation is committed at most once, and the outcome tells whether it was. -/
lemma marks_apply (m : QueuedMutation) : Marks false (m.apply d).run Tells := by
  cases m with
  | save item payload =>
    refine marks_bind_except (marks_readMemory fun locked => ?_)
    cases locked with
    | true => rfl
    | false => exact marks_commitTask (marks_commitSave item payload)
  | delete uuid =>
    refine marks_bind_except (marks_readMemory fun locked => ?_)
    cases locked with
    | true => rfl
    | false =>
      exact marks_bind_except (marks_readMemory fun gen =>
        marks_commitTask (marks_commitDelete uuid gen))

end Marks

/-! ### The queue and what was applied -/

/-- The queue is what was queued, from some place on. -/
structure Fifo (s : Offline) : Prop where
  numbered : s.queued.map (·.number) = List.range s.queued.length
  rest : ∃ k ≤ s.queued.length, s.queue = s.queued.drop k

/-- What is not in the queue was applied. -/
def Settled (s : Offline) : Prop := s.applied = List.range (s.queued.length - s.queue.length)

/-- The front of the queue was applied as well. -/
def Ahead (s : Offline) (m : Queued) : Prop :=
  s.queue.head? = some m ∧ s.applied = List.range (s.queued.length - s.queue.length + 1)

lemma Fifo.mem_queued {s : Offline} (h : Fifo s) {m : Queued} (hm : m ∈ s.queue) :
    m ∈ s.queued := by
  obtain ⟨k, -, hk⟩ := h.rest
  rw [hk] at hm
  exact List.mem_of_mem_drop hm

lemma Fifo.number_eq {s : Offline} (h : Fifo s) {k : ℕ} {m : Queued} (hm : s.queued[k]? = some m) :
    m.number = k := by
  have hnum : (s.queued.map (·.number))[k]? = some m.number := by simp [hm]
  have hk : k < s.queued.length := (List.getElem?_eq_some_iff.mp hm).1
  rw [h.numbered, List.getElem?_range hk] at hnum
  exact (Option.some.inj hnum).symm

lemma Fifo.number_inj {s : Offline} (h : Fifo s) {m m' : Queued} (hm : m ∈ s.queued)
    (hm' : m' ∈ s.queued) (heq : m.number = m'.number) : m = m' := by
  obtain ⟨k, hk⟩ := List.mem_iff_getElem?.mp hm
  obtain ⟨k', hk'⟩ := List.mem_iff_getElem?.mp hm'
  have : k = k' := by rw [← h.number_eq hk, ← h.number_eq hk', heq]
  subst this
  exact Option.some.inj (hk.symm.trans hk')

/-- The number of the front of the queue. -/
lemma Fifo.head_number {s : Offline} (h : Fifo s) {m : Queued} (hm : s.queue.head? = some m) :
    m.number = s.queued.length - s.queue.length := by
  obtain ⟨k, hk, hq⟩ := h.rest
  rw [hq, List.head?_drop] at hm
  rw [h.number_eq hm, hq, List.length_drop]
  omega

lemma Fifo.length_le {s : Offline} (h : Fifo s) : s.queue.length ≤ s.queued.length := by
  obtain ⟨k, -, hk⟩ := h.rest
  rw [hk, List.length_drop]
  omega

/-- To queue a mutation. -/
def Offline.push (s : Offline) (m : QueuedMutation) : Offline :=
  { s with
    queue := s.queue ++ [⟨s.queued.length, m⟩]
    queued := s.queued ++ [⟨s.queued.length, m⟩] }

lemma Fifo.push {s : Offline} (h : Fifo s) (m : QueuedMutation) : Fifo (s.push m) := by
  obtain ⟨k, hk, hq⟩ := h.rest
  refine ⟨?_, k, by simp [Offline.push]; omega, ?_⟩
  · simp [Offline.push, h.numbered, List.range_succ]
  · simp [Offline.push, hq, List.drop_append_of_le_length hk]

lemma Settled.push {s : Offline} (h : Settled s) (m : QueuedMutation) : Settled (s.push m) := by
  simpa [Settled, Offline.push] using h

lemma Ahead.push {s : Offline} {m : Queued} (h : Ahead s m) (m' : QueuedMutation) :
    Ahead (s.push m') m := by
  refine ⟨?_, by simpa [Offline.push] using h.2⟩
  simp [Offline.push, List.head?_append, h.1]

/-- To commit the front of the queue. -/
lemma Settled.commit {s : Offline} (hf : Fifo s) (h : Settled s) {m : Queued} (hm : m ∈ s.queued)
    (hhead : s.queue.head?.map (·.number) = some m.number) (w : World) :
    Ahead { s with world := w, applied := s.applied ++ [m.number] } m := by
  obtain ⟨m', hm', hnum⟩ := Option.map_eq_some_iff.mp hhead
  obtain rfl := hf.number_inj (hf.mem_queued (List.mem_of_mem_head? hm')) hm hnum
  refine ⟨hm', ?_⟩
  dsimp only
  rw [List.range_succ, h, hf.head_number hm']

/-- To remove the front of the queue, which was applied. -/
lemma Ahead.pop {s : Offline} {m : Queued} (hf : Fifo s) (h : Ahead s m) :
    Fifo { s with queue := popFrontIf (·.looksLike m.mutation) s.queue } ∧
      Settled { s with queue := popFrontIf (·.looksLike m.mutation) s.queue } := by
  obtain ⟨hhead, happ⟩ := h
  obtain ⟨k, hk, hq⟩ := hf.rest
  have hlen := hf.length_le
  cases hqueue : s.queue with
  | nil => simp [hqueue] at hhead
  | cons m' rest =>
    obtain rfl : m' = m := by simpa [hqueue] using hhead
    have hpop : popFrontIf (·.looksLike m'.mutation) (m' :: rest) = rest := by
      simp [popFrontIf, looksLike_self]
    rw [hqueue, List.length_cons] at happ hlen
    rw [hpop]
    refine ⟨⟨hf.numbered, k + 1, ?_, ?_⟩, ?_⟩
    · dsimp only
      have := congrArg List.length (hqueue.symm.trans hq)
      rw [List.length_cons, List.length_drop] at this
      omega
    · dsimp only
      rw [← List.drop_drop, ← hq, hqueue]
      rfl
    · change s.applied = List.range (s.queued.length - rest.length)
      rw [happ]
      congr 1
      omega

/-! ### The stages of a call -/

/-- The rest of a call touches the world only. -/
def Outside : Task Reply → Prop
  | .ret _ => True
  | .stmt l f k => (∃ name, l = .client name) ∧
      (∀ e s, ∃ w, f e s = { s with world := w }) ∧ ∀ e s, Outside (k e s)

lemma outside_zoom_bind {α : Type} (p : Code α) {g : α → Task Reply} (hg : ∀ a, Outside (g a)) :
    Outside (zoom onWorld p >>= g) := by
  induction p with
  | ret a => exact hg a
  | stmt l f k ih => exact ⟨⟨l, rfl⟩, fun e s => ⟨_, rfl⟩, fun e s => ih _ _⟩

/-- What is left of a flush whose loop goes on with `p`. -/
def goOn (p : Task ℕ) : Task Reply := do
  return .flushed (← (do finishFlush X d (← p)))

/-- What is left of the loop after the result of a mutation. -/
def thenCheck (m : Queued) (rest : List Queued) (n : ℕ) : Task ℕ := do
  if ← isLocked d m.number then return n else flushLoop d rest n

def thenSettle (m : Queued) (rest : List Queued) (n : ℕ) (r : Except ClientError TaskOutcome) :
    Task ℕ := do
  thenCheck d m rest (← settle m n r)

lemma outside_finish (n : ℕ) : Outside (goOn X d (.ret n)) := by
  change Outside (finishFlush X d n >>= fun r => .ret (.flushed r))
  unfold finishFlush
  split
  · rw [bind_assoc]
    refine outside_zoom_bind _ fun r => ?_
    cases r <;> exact trivial
  · exact trivial

/-- Where a call can be, in the state `s`. -/
inductive Stage (s : Offline) : Task Reply → Prop
  | outside {p : Task Reply} (h : Outside p) : Stage s p
  | pushing (m : QueuedMutation) : Stage s (do return .length (← push m))
  | starting : Stage s (do return .flushed (← flushOfflineQueue X d))
  | trying {m : Queued} {rest : List Queued} (n : ℕ) {l : Name} {f : ClientEnv → World → World}
      {k : ClientEnv → World → Code (Except ClientError TaskOutcome)} {b : Bool}
      (hm : m ∈ s.queued) (hrest : ∀ m' ∈ rest, m' ∈ s.queued) (hk : Marks b (.stmt l f k) Tells)
      (hs : if b then Ahead s m else Settled s) :
      Stage s (goOn X d (applying m.number (.stmt l f k) >>= thenSettle d m rest n))
  | popping {m : Queued} {rest : List Queued} (n : ℕ) (receipt : UInt64)
      (hrest : ∀ m' ∈ rest, m' ∈ s.queued) (hs : Ahead s m) :
      Stage s (goOn X d (thenSettle d m rest n (.ok (.committed receipt))))
  | checking (m : Queued) {rest : List Queued} (n : ℕ) (hrest : ∀ m' ∈ rest, m' ∈ s.queued)
      (hs : Settled s) : Stage s (goOn X d (thenCheck d m rest n))

variable {X d}

/-- The stages after a statement of an operation that applies a mutation. -/
lemma stage_applying {s : Offline} {m : Queued} {rest : List Queued} {n : ℕ}
    {p : Code (Except ClientError TaskOutcome)} {b : Bool} (hm : m ∈ s.queued)
    (hrest : ∀ m' ∈ rest, m' ∈ s.queued) (hp : Marks b p Tells)
    (hs : if b then Ahead s m else Settled s) :
    Stage X d s (goOn X d (applying m.number p >>= thenSettle d m rest n)) := by
  cases p with
  | stmt l f k => exact .trying n hm hrest hp hs
  | ret r =>
    rcases r with e | receipt | receipt
    · obtain rfl : b = false := hp
      exact .checking m n hrest hs
    · obtain rfl : b = true := hp
      exact .popping n receipt hrest hs
    · obtain rfl : b = false := hp
      exact .checking m n hrest hs

/-- The loop begins in a stage. -/
lemma stage_flushLoop {s : Offline} {ms : List Queued} (n : ℕ) (hms : ∀ m ∈ ms, m ∈ s.queued)
    (hs : Settled s) : Stage X d s (goOn X d (flushLoop d ms n)) := by
  cases ms with
  | nil => exact .outside (outside_finish X d n)
  | cons m rest =>
    exact stage_applying (hms m (List.mem_cons_self ..)) (fun m' hm' =>
      hms m' (List.mem_cons_of_mem _ hm')) (marks_apply m.mutation) (b := false) hs

/-- A call begins in a stage, outside of the loop. -/
lemma stage_code (s : Offline) (q : Req d) : Stage X d s (code X d q) := by
  cases q with
  | offlineSave item payload => exact .pushing _
  | offlineDelete uuid => exact .pushing _
  | flush => exact .starting
  | other d' q h => exact .outside (outside_zoom_bind _ fun _ => trivial)

lemma inLoop_of_outside {p : Task Reply} (h : Outside p) : inLoop p = false := by
  cases p with
  | ret a => rfl
  | stmt l f k =>
    obtain ⟨⟨name, rfl⟩, -⟩ := h
    rfl

lemma inLoop_code (q : Req d) : inLoop (code X d q) = false := by
  cases q with
  | offlineSave item payload => rfl
  | offlineDelete uuid => rfl
  | flush => rfl
  | other d' q h => exact inLoop_of_outside (outside_zoom_bind _ fun _ => trivial)

/-- Outside of the loop, the stage of a call does not depend on the state. -/
lemma Stage.of_not_inLoop {s s' : Offline} {p : Task Reply} (h : Stage X d s p)
    (hp : inLoop p = false) : Stage X d s' p := by
  cases h with
  | outside h => exact .outside h
  | pushing m => exact .pushing m
  | starting => exact .starting
  | trying n hm hrest hk hs => cases hp
  | popping n receipt hrest hs => cases hp
  | checking m n hrest hs => cases hp

lemma Stage.world {s : Offline} {p : Task Reply} (h : Stage X d s p) (w : World) :
    Stage X d { s with world := w } p := by
  cases h with
  | outside h => exact .outside h
  | pushing m => exact .pushing m
  | starting => exact .starting
  | trying n hm hrest hk hs => exact .trying n hm hrest hk hs
  | popping n receipt hrest hs => exact .popping n receipt hrest hs
  | checking m n hrest hs => exact .checking m n hrest hs

lemma Stage.push {s : Offline} {p : Task Reply} (h : Stage X d s p) (m : QueuedMutation) :
    Stage X d (s.push m) p := by
  have hmem : ∀ m' ∈ s.queued, m' ∈ (s.push m).queued := fun _ => List.mem_append_left _
  cases h with
  | outside h => exact .outside h
  | pushing m => exact .pushing m
  | starting => exact .starting
  | @trying _ _ n _ _ _ b hm hrest hk hs =>
    refine .trying n (hmem _ hm) (fun m' hm' => hmem _ (hrest m' hm')) hk ?_
    cases b with
    | true => exact Ahead.push hs m
    | false => exact Settled.push hs m
  | popping n receipt hrest hs =>
    exact .popping n receipt (fun m' hm' => hmem _ (hrest m' hm')) (hs.push m)
  | checking m' n hrest hs =>
    exact .checking m' n (fun m' hm' => hmem _ (hrest m' hm')) (hs.push m)

/-- What a statement of a call in a stage does: the queue stays in order, the call goes on to a
stage, and what it does to the other calls depends on whether it is in the loop. -/
structure Step (s : Offline) (l : Label) (s' : Offline) (p' : Task Reply) : Prop where
  fifo : Fifo s'
  stage : Stage X d s' p'
  enters : l.inLoop = false → inLoop p' = true → l = .peekAll
  others : l.inLoop = false → ∀ p, Stage X d s p → Stage X d s' p
  settled : l.inLoop = false → Settled s → Settled s'
  leaves : l.inLoop = true → inLoop p' = false → Settled s'

/-- The statement is in turn. -/
def Label.InTurn (s : Offline) (e : ClientEnv) : Label → Prop
  | .peekAll => Settled s
  | .applying n l => commits l e = true → s.queue.head?.map (·.number) = some n
  | _ => True

lemma Step.of_inLoop {s s' : Offline} {l : Label} {p' : Task Reply} (hl : l.inLoop = true)
    (hf : Fifo s') (hp : Stage X d s' p') (hs : inLoop p' = false → Settled s') :
    Step (X := X) (d := d) s l s' p' :=
  ⟨hf, hp, fun h => absurd hl (by simp [h]), fun h => absurd hl (by simp [h]),
    fun h => absurd hl (by simp [h]), fun _ => hs⟩

lemma inLoop_goOn_applying (m : Queued) (rest : List Queued) (n : ℕ)
    (p : Code (Except ClientError TaskOutcome)) :
    inLoop (goOn X d (applying m.number p >>= thenSettle d m rest n)) = true := by
  cases p with
  | stmt l f k => rfl
  | ret r => rcases r with e | receipt | receipt <;> rfl

/-- **Statements of a call.** -/
lemma step_of_stage {s : Offline} {l : Label} {f : ClientEnv → Offline → Offline}
    {k : ClientEnv → Offline → Task Reply} {e : ClientEnv} (hf : Fifo s)
    (hp : Stage X d s (.stmt l f k)) (hl : l.InTurn s e) :
    Step (X := X) (d := d) s l (f e s) (k e s) := by
  cases hp with
  -- not in the loop: only the world moves
  | outside h =>
    obtain ⟨⟨name, rfl⟩, hw, hk⟩ := h
    obtain ⟨w, hw⟩ := hw e s
    rw [hw]
    refine ⟨⟨hf.numbered, hf.rest⟩, .outside (hk e s), fun _ hin => ?_, fun _ p hp => hp.world w,
      fun _ => id, nofun⟩
    rw [inLoop_of_outside (hk e s)] at hin
    cases hin
  -- a mutation is queued
  | pushing m =>
    exact ⟨hf.push m, .outside trivial, nofun, fun _ p hp => hp.push m, fun _ h => h.push m, nofun⟩
  -- the loop starts, with what is queued now
  | starting =>
    refine ⟨hf, ?_, fun _ _ => rfl, fun _ p => id, fun _ => id, nofun⟩
    change Stage X d s (((if s.queue.isEmpty then pure (.ok 0)
      else do finishFlush X d (← flushLoop d s.queue 0)) : Task (Except ClientError ℕ)) >>=
        fun r => pure (.flushed r))
    split
    · exact .outside trivial
    · exact stage_flushLoop 0 (fun m hm => hf.mem_queued hm) hl
  -- a mutation is being applied, and this statement may commit it
  | @trying m rest n l f k b hm hrest hk hs =>
    obtain ⟨honce, hk⟩ := hk e s.world
    refine .of_inLoop rfl ⟨hf.numbered, hf.rest⟩ (stage_applying hm hrest hk ?_) fun hin => ?_
    · cases hc : commits l e with
      | true =>
        obtain rfl := honce hc
        simpa [hc] using Settled.commit hf hs hm (hl hc) (f e s.world)
      | false =>
        simp only [Bool.or_false, hc, Bool.false_eq_true, if_false]
        cases b with
        | true => exact hs
        | false => exact hs
    · change inLoop (goOn X d (applying m.number (k e s.world) >>= thenSettle d m rest n)) = _ at hin
      rw [inLoop_goOn_applying] at hin
      cases hin
  -- it is committed, and leaves the queue
  | @popping m rest n receipt hrest hs =>
    obtain ⟨hf', hs'⟩ := hs.pop hf
    exact .of_inLoop rfl hf' (.checking m (n + 1) hrest hs') nofun
  -- the loop stops if the vault is locked
  | @checking m rest n hrest hs =>
    refine .of_inLoop rfl hf ?_ fun _ => hs
    change Stage X d s (goOn X d (if (s.world.devices d).mem.locked then pure n
      else flushLoop d rest n))
    split
    · exact .outside (outside_finish X d n)
    · exact stage_flushLoop n hrest hs

/-! ### Runs -/

variable (X) in
/-- Every call is in a stage, at most one is in the loop of a flush, and if none is, the queue
and what was applied fit together. -/
structure Inv (σ : System d) : Prop where
  fifo : Fifo σ.shared
  stages : ∀ c ∈ σ.calls, Stage X d σ.shared c.prog
  one : ∀ (i j : ℕ) (c c' : Call (Req d) Offline ClientEnv Label Reply), σ.calls[i]? = some c →
    σ.calls[j]? = some c' → inLoop c.prog = true → inLoop c'.prog = true → i = j
  settled : (∀ c ∈ σ.calls, inLoop c.prog = false) → Settled σ.shared

lemma inv_start (w : World) : Inv X (init (start w) : System d) :=
  ⟨⟨rfl, 0, le_rfl, rfl⟩, by simp [init], by simp [init], fun _ => rfl⟩

lemma Inv.call {σ : System d} (h : Inv X σ) (q : Req d) :
    Inv X (⟨σ.shared, σ.calls ++ [⟨q, [], code X d q⟩]⟩ : System d) := by
  have hold : ∀ (i : ℕ) (c : Call (Req d) Offline ClientEnv Label Reply),
      (σ.calls ++ [⟨q, [], code X d q⟩])[i]? = some c → inLoop c.prog = true →
      σ.calls[i]? = some c := by
    intro i c hc hin
    rw [List.getElem?_append] at hc
    split at hc
    · exact hc
    · rw [List.mem_singleton.mp (List.mem_of_getElem? hc), inLoop_code] at hin
      cases hin
  refine ⟨h.fifo, fun c hc => ?_, fun i j c c' hi hj hin hin' => ?_, fun hnone => ?_⟩
  · rcases List.mem_append.mp hc with hc | hc
    · exact h.stages c hc
    · rw [List.mem_singleton.mp hc]
      exact stage_code _ q
  · exact h.one i j c c' (hold i c hi hin) (hold j c' hj hin') hin hin'
  · exact h.settled fun c hc => hnone c (List.mem_append_left _ hc)

/-- A statement is in turn in the system. -/
lemma Inv.inTurn {σ : System d} (h : Inv X σ) {i : ℕ} {e : ClientEnv} {q : Req d}
    {tr : List (Ev Offline ClientEnv Label)} {l : Label} {f : ClientEnv → Offline → Offline}
    {k : ClientEnv → Offline → Task Reply} (hc : σ.calls[i]? = some ⟨q, tr, .stmt l f k⟩)
    (hC : InTurn d σ (.exec i e)) : l.InTurn σ.shared e := by
  simp only [InTurn, hc, Option.bind_some, Prog.next] at hC
  cases l with
  | peekAll => exact h.settled hC
  | applying n l => exact hC
  | _ => trivial

lemma Inv.exec {σ : System d} (h : Inv X σ) {i : ℕ} {e : ClientEnv} {q : Req d}
    {tr : List (Ev Offline ClientEnv Label)} {l : Label} {f : ClientEnv → Offline → Offline}
    {k : ClientEnv → Offline → Task Reply} (hc : σ.calls[i]? = some ⟨q, tr, .stmt l f k⟩)
    (hC : InTurn d σ (.exec i e)) :
    Inv X (⟨f e σ.shared, σ.calls.set i
      ⟨q, tr ++ [⟨l, e, σ.shared, f e σ.shared⟩], k e σ.shared⟩⟩ : System d) := by
  have hst : Step (X := X) (d := d) σ.shared l (f e σ.shared) (k e σ.shared) :=
    step_of_stage h.fifo (h.stages _ (List.mem_of_getElem? hc)) (h.inTurn hc hC)
  have hlen := (List.getElem?_eq_some_iff.mp hc).1
  -- the other calls are not in the loop if this one is, before or after
  have hother : ∀ (j : ℕ) (c : Call (Req d) Offline ClientEnv Label Reply), σ.calls[j]? = some c →
      j ≠ i → l.inLoop = true ∨ inLoop (k e σ.shared) = true → inLoop c.prog = false := by
    intro j c hj hne hin
    by_cases hl : l.inLoop = true
    · by_contra hloop
      exact hne (h.one j i c _ hj hc (by simpa using hloop) hl)
    · rw [Bool.not_eq_true] at hl
      have hk := hin.resolve_left (by simp [hl])
      obtain rfl := hst.enters hl hk
      simp only [InTurn, hc, Option.bind_some, Prog.next, Fits] at hC
      exact hC c (List.mem_of_getElem? hj)
  refine ⟨hst.fifo, fun c hmem => ?_, fun a b c c' ha hb hin hin' => ?_, fun hnone => ?_⟩
  · obtain ⟨j, hj⟩ := List.mem_iff_getElem?.mp hmem
    rcases getElem?_set_cases hj with ⟨rfl, rfl⟩ | ⟨hne, hj⟩
    · exact hst.stage
    · have hold := h.stages c (List.mem_of_getElem? hj)
      cases hl : l.inLoop with
      | true => exact hold.of_not_inLoop (hother j c hj hne (.inl hl))
      | false => exact hst.others hl _ hold
  · -- two calls in the loop are one
    rcases getElem?_set_cases ha with ⟨rfl, rfl⟩ | ⟨hne, ha'⟩
    · rcases getElem?_set_cases hb with ⟨rfl, -⟩ | ⟨hne, hb'⟩
      · rfl
      · rw [hother b c' hb' hne (.inr hin)] at hin'
        cases hin'
    · rcases getElem?_set_cases hb with ⟨rfl, rfl⟩ | ⟨-, hb'⟩
      · rw [hother a c ha' hne (.inr hin')] at hin
        cases hin
      · exact h.one a b c c' ha' hb' hin hin'
  · -- no call is in the loop any more
    have hk : inLoop (k e σ.shared) = false := hnone _ (List.mem_set hlen _)
    cases hl : l.inLoop with
    | true => exact hst.leaves hl hk
    | false =>
      refine hst.settled hl (h.settled fun c hmem => ?_)
      obtain ⟨j, hj⟩ := List.mem_iff_getElem?.mp hmem
      by_cases hji : j = i
      · subst hji
        obtain rfl := Option.some.inj (hc.symm.trans hj)
        exact hl
      · refine hnone c (List.mem_of_getElem? (i := j) ?_)
        rwa [List.getElem?_set_ne (Ne.symm hji)]

lemma Inv.run {w : World} {as : List (Act (Req d) ClientEnv)}
    (has : Along (code X d) (InTurn d) (init (start w)) as) :
    Inv X (run (code X d) (init (start w)) as) := by
  refine run_induction (P := Inv X) (fun σ a hσ hC => ?_) (inv_start w) has
  rcases step_cases (h := code X d) σ a with ⟨q, rfl, hst⟩ |
    ⟨i, e, q, tr, l, f, k, rfl, hc, hst⟩ | hst
  · rw [hst]
    exact hσ.call q
  · rw [hst]
    exact hσ.exec hc hC
  · rwa [hst]

/-- What was applied is what is not in the queue, and perhaps the front of the queue. -/
lemma Inv.applied {σ : System d} (h : Inv X σ) :
    Settled σ.shared ∨ ∃ m, Ahead σ.shared m := by
  by_cases hnone : ∀ c ∈ σ.calls, inLoop c.prog = false
  · exact .inl (h.settled hnone)
  · push Not at hnone
    obtain ⟨c, hc, hin⟩ := hnone
    have hst := h.stages c hc
    generalize c.prog = p at hin hst
    cases hst with
    | outside hp => exact absurd (inLoop_of_outside hp) hin
    | pushing m => exact absurd rfl hin
    | starting => exact absurd rfl hin
    | @trying m rest n l f k b hm hrest hk hs =>
      cases b with
      | true => exact .inr ⟨m, hs⟩
      | false => exact .inl hs
    | popping n receipt hrest hs => exact .inr ⟨_, hs⟩
    | checking m n hrest hs => exact .inl hs

lemma Inv.applied_range {σ : System d} (h : Inv X σ) :
    ∃ j ≥ σ.shared.queued.length - σ.shared.queue.length, σ.shared.applied = List.range j := by
  rcases h.applied with hs | ⟨m, hm⟩
  · exact ⟨_, le_rfl, hs⟩
  · exact ⟨_, Nat.le_succ _, hm.2⟩

/-- What is queued is in the queue exactly from the place on that fits its length. -/
lemma Fifo.mem_queue_iff {s : Offline} (h : Fifo s) {m : Queued} (hm : m ∈ s.queued) :
    m ∈ s.queue ↔ s.queued.length - s.queue.length ≤ m.number := by
  obtain ⟨k, hk, hq⟩ := h.rest
  obtain ⟨i, hi⟩ := List.mem_iff_getElem?.mp hm
  have hlt := (List.getElem?_eq_some_iff.mp hi).1
  rw [h.number_eq hi, hq, List.length_drop]
  constructor
  · intro hmem
    obtain ⟨j, hj⟩ := List.mem_iff_getElem?.mp hmem
    rw [List.getElem?_drop] at hj
    have : k + j = i := by rw [← h.number_eq hi, ← h.number_eq hj]
    omega
  · intro hle
    refine List.mem_iff_getElem?.mpr ⟨i - k, ?_⟩
    rw [List.getElem?_drop, Nat.add_sub_cancel' (by omega)]
    exact hi

/-- **Nothing queued is lost, applied twice or out of order**, as long as a flush copies the queue
while no other is in its loop, and commits a mutation only while it is at the front of the queue:
then a mutation is still queued or was committed, once and in its turn, and what is committed
is out of the queue when the flush is over. -/
theorem queue_kept {w : World} {as : List (Act (Req d) ClientEnv)}
    (has : Along (code X d) (InTurn d) (init (start w)) as) :
    Kept d (run (code X d) (init (start w)) as) := by
  have h : Inv X (run (code X d) (init (start w)) as) := Inv.run has
  obtain ⟨j, hj, happ⟩ := h.applied_range
  refine ⟨h.fifo.numbered, fun m hm => ?_, fun m => h.fifo.mem_queued, ?_, ?_, fun hnone m hm => ?_⟩
  · by_cases hq : m ∈ (run (code X d) (init (start w)) as).shared.queue
    · exact .inl hq
    · rw [h.fifo.mem_queue_iff hm] at hq
      rw [happ, List.mem_range]
      exact .inr (by omega)
  · rw [happ]
    exact List.pairwise_lt_range
  · rw [happ]
    exact List.nodup_range
  · have hle := (h.fifo.mem_queue_iff (h.fifo.mem_queued hm)).mp hm
    rw [h.settled hnone, List.mem_range]
    omega

/-! ### Two edits of one item -/

/-- Every text is a uuid, and every blob is a byte long. -/
def anyUuid : Ext Blob := ⟨fun _ => true, fun _ => 1⟩

/-- A client without a server, unlocked, that has learned of the generation 2. -/
def rotated : World where
  server := ⟨.empty, .empty⟩
  devices _ :=
    ⟨⟨.empty, .empty, .empty, .empty, .empty, .empty⟩,
      { Memory.new with
        svk := some 100, dek := some (.dek 100), localGen := 2, minEncKeyGen := 2, locked := false }⟩

/-- An edit of the item 3, with the key of this generation. -/
def edit (gen : UInt64) (title : String) : Req 0 :=
  .offlineSave ⟨gen, 3, title, "", "", "[]", 0, 0, false⟩ (.raw 1)

/-- The next `n` statements of a call. -/
def go (i n : ℕ) : List (Act (Req 0) ClientEnv) := List.replicate n (.exec i ⟨0, 0, false, 0⟩)

/-- An edit is queued, another one while the first is applied, and both are applied. -/
def flushed : List (Act (Req 0) ClientEnv) :=
  .call (edit 2 "a") :: go 0 1 ++ .call .flush :: go 1 4 ++ .call (edit 2 "b") :: go 2 1 ++
    go 1 8 ++ .call .flush :: go 3 12

theorem queue_kept_flushed :
    Along (code anyUuid 0) (InTurn 0) (init (start rotated)) flushed ∧
    (run (code anyUuid 0) (init (start rotated)) flushed).shared.applied = [0, 1] ∧
    Kept 0 (run (code anyUuid 0) (init (start rotated)) flushed) :=
  ⟨by decide +kernel, by decide +kernel, queue_kept (by decide +kernel)⟩

/-- The first edit is of a generation that is over. -/
def outdated : List (Act (Req 0) ClientEnv) :=
  .call (edit 1 "a") :: go 0 1 ++ .call (edit 2 "b") :: go 1 1 ++ .call .flush :: go 2 16 ++
    .call .flush :: go 3 14

/-- **The flush removes an edit that it did not apply, and applies another one twice**: the first
edit is rejected, the second one is applied and the first one removed for it. -/
theorem edit_lost_and_applied_twice :
    (¬∀ as, Kept 0 (run (code anyUuid 0) (init (start rotated)) as)) ∧
    (run (code anyUuid 0) (init (start rotated)) outdated).shared.queued.map (·.number) = [0, 1] ∧
    (run (code anyUuid 0) (init (start rotated)) outdated).shared.queue.map (·.number) = [] ∧
    (run (code anyUuid 0) (init (start rotated)) outdated).shared.applied = [1, 1] := by
  have happ : (run (code anyUuid 0) (init (start rotated)) outdated).shared.applied = [1, 1] := by
    decide +kernel
  refine ⟨fun h => ?_, by decide +kernel, by decide +kernel, happ⟩
  have honce := (h outdated).once
  rw [happ] at honce
  exact absurd honce (by decide)

end Vautr.OfflineQueue
