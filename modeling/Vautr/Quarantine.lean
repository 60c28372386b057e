import Mathlib.Data.Finset.Basic
import Mathlib.Data.Finset.Dedup
import Vautr.Blacklist

/-!
The quarantine and its reaper (`quarantine.rs`).

A tick takes the items the metadata mention out of the quarantine, and only then sends their
events over the channel, one after the other. `mark_toxic` may run between two of the sends.
-/

namespace Vautr.Quarantine

open Vautr.Server Vautr.Blacklist

/-- The item of an event. -/
def uuid : ReaperEvent → Ident
  | .itemRecovered u => u
  | .itemPermanentlyDeleted u => u

/-- `saturating_add(1)` of a `u32`. -/
def saturatingSucc (n : ℕ) : ℕ := min (n + 1) (2 ^ 32 - 1)

/-- The quarantine, and what the task of `spawn_quarantine_reaper` holds: its counter of failures,
the events of the tick that it has not sent yet, and whether it has not returned. Beside them
what came out of the channel. -/
structure Reaper where
  toxic : Finset Ident
  consecutiveFailures : ℕ
  sending : List ReaperEvent
  running : Bool
  delivered : List ReaperEvent

/-- A step of the client: a call of `mark_toxic`, a tick with the answer of `fetch_metadata` and
the order in which the set is read, or the next send of the tick and whether it succeeds. -/
inductive Act
  | markToxic (uuid : Ident)
  | tick (metadata : Except String (List (Ident × ItemStatus))) (order : List Ident)
  | send (event : ReaperEvent) (ok : Bool)

/-- The task waits for its next tick. -/
def Reaper.Idle (s : Reaper) : Prop := s.running = true ∧ s.sending = []

instance (s : Reaper) : Decidable s.Idle := inferInstanceAs (Decidable (_ ∧ _))

/-- The next send of a tick fails. -/
def Reaper.failed (s : Reaper) (rest : List ReaperEvent) : Reaper :=
  let failures := saturatingSucc s.consecutiveFailures
  if 5 ≤ failures then
    { s with consecutiveFailures := failures, sending := [], running := false }
  else { s with consecutiveFailures := failures, sending := rest }

/-- The next send of a tick succeeds. -/
def Reaper.sent (s : Reaper) (event : ReaperEvent) (rest : List ReaperEvent) : Reaper :=
  { s with consecutiveFailures := 0, sending := rest, delivered := s.delivered ++ [event] }

def step (s : Reaper) : Act → Option Reaper
  | .markToxic u => some { s with toxic := insert u s.toxic }
  | .tick (.error _) _ =>
    if s.Idle then some { s with consecutiveFailures := saturatingSucc s.consecutiveFailures }
    else none
  | .tick (.ok metadata) order =>
    if s.Idle ∧ order.Nodup ∧ order.toFinset = s.toxic then
      let r := evaluate order metadata
      some { s with toxic := r.1.toFinset, consecutiveFailures := 0, sending := r.2 }
    else none
  | .send event ok =>
    match s.sending with
    | [] => none
    | next :: rest =>
      if next = event then some (if ok then s.sent event rest else s.failed rest) else none

def init : Reaper := ⟨∅, 0, [], true, []⟩

def run (acts : List Act) : Option Reaper := acts.foldlM step init

/-! ### What is promised for an item -/

/-- Whether the item is to be in the quarantine, the event that is decided and not sent yet, and
the events that are to be delivered. -/
structure Item where
  parked : Bool
  due : Option ReaperEvent
  delivered : List ReaperEvent
  deriving DecidableEq

/-- The event of an item with the status. -/
def eventOf (u : Ident) : ItemStatus → ReaperEvent
  | .valid => .itemRecovered u
  | .tombstoned => .itemPermanentlyDeleted u

/-- A parked item leaves the quarantine with the first metadata that mention it, and is back in it
when its event could not be delivered. -/
def Item.next (u : Ident) (t : Item) : Act → Item
  | .markToxic v => if v = u then { t with parked := true } else t
  | .tick (.error _) _ => t
  | .tick (.ok metadata) _ =>
    match t.parked, metadata.lookup u with
    | true, some status => { t with parked := false, due := some (eventOf u status) }
    | _, _ => t
  | .send event ok =>
    if uuid event = u then
      if ok then { t with due := none, delivered := t.delivered ++ t.due.toList }
      else { t with parked := true, due := none }
    else t

def promised (u : Ident) (acts : List Act) : Item :=
  acts.foldl (Item.next u) ⟨false, none, []⟩

/-- The reaper has done with the item what is promised. -/
def KeptFor (u : Ident) (s : Reaper) (t : Item) : Prop :=
  (u ∈ s.toxic ↔ t.parked = true) ∧
    s.sending.filter (uuid · = u) = t.due.toList ∧
    s.delivered.filter (uuid · = u) = t.delivered

def Keeps (acts : List Act) (s : Reaper) : Prop := ∀ u, KeptFor u s (promised u acts)

/-- A send may fail only for an item that was parked again in the meantime, and the fifth failure
in a row only with the last event of the tick. -/
def Harmless (s : Reaper) : Act → Prop
  | .send event false =>
    uuid event ∈ s.toxic ∧
      (5 ≤ saturatingSucc s.consecutiveFailures → s.sending = [event])
  | _ => True

variable {s s' : Reaper} {t : Item} {u : Ident} {event : ReaperEvent} {rest : List ReaperEvent}

/-! ### The tick -/

@[simp] lemma uuid_eventOf (st : ItemStatus) : uuid (eventOf u st) = u := by cases st <;> rfl

lemma events_eq (quarantine : List Ident) (metadata : List (Ident × ItemStatus)) :
    (evaluate quarantine metadata).2 =
      quarantine.filterMap fun u => (metadata.lookup u).map (eventOf u) := by
  refine List.filterMap_congr fun u _ => ?_
  cases metadata.lookup u with
  | none => rfl
  | some st => cases st <;> rfl

lemma mem_rest {quarantine : List Ident} {metadata : List (Ident × ItemStatus)} :
    u ∈ (evaluate quarantine metadata).1 ↔ u ∈ quarantine ∧ metadata.lookup u = none := by
  rw [evaluate, List.mem_filter, Option.isNone_iff_eq_none]

/-- A tick makes one event of a parked item that is mentioned, and none of another item. -/
lemma filter_events {order : List Ident} (metadata : List (Ident × ItemStatus))
    (hd : order.Nodup) :
    (evaluate order metadata).2.filter (uuid · = u) =
      if u ∈ order then ((metadata.lookup u).map (eventOf u)).toList else [] := by
  rw [events_eq]
  induction order with
  | nil => rfl
  | cons v order ih =>
    obtain ⟨hv, hd⟩ := List.nodup_cons.mp hd
    have ih := ih hd
    by_cases huv : v = u
    · subst huv
      rw [if_neg hv] at ih
      cases hl : metadata.lookup v with
      | none => simpa [hl] using ih
      | some st => simpa [hl] using ih
    · cases hl : metadata.lookup v with
      | none => simpa [hl, Ne.symm huv] using ih
      | some st => simpa [hl, huv, Ne.symm huv] using ih

lemma KeptFor.tick {metadata : Except String (List (Ident × ItemStatus))} {order : List Ident}
    (h : KeptFor u s t) (hs : step s (.tick metadata order) = some s') :
    KeptFor u s' (t.next u (.tick metadata order)) := by
  obtain ⟨hpark, hdue, hdel⟩ := h
  cases metadata with
  | error e =>
    rw [step] at hs
    split at hs
    · cases hs
      exact ⟨hpark, hdue, hdel⟩
    · cases hs
  | ok metadata =>
    rw [step] at hs
    split at hs
    · next hok =>
      cases hs
      obtain ⟨⟨-, hidle⟩, hd, horder⟩ := hok
      have hmem : u ∈ order ↔ t.parked = true := by rw [← hpark, ← horder, List.mem_toFinset]
      have hnone : t.due = none := by
        cases hd : t.due with
        | none => rfl
        | some ev => rw [hidle, hd] at hdue; cases hdue
      refine ⟨?_, ?_, ?_⟩
      · rw [List.mem_toFinset, mem_rest, hmem, Item.next]
        cases hp : t.parked <;> cases metadata.lookup u <;> simp [hp]
      · rw [filter_events metadata hd, if_congr hmem rfl rfl, Item.next]
        cases t.parked <;> cases metadata.lookup u <;> simp [hnone]
      · rw [hdel, Item.next]
        cases t.parked <;> cases metadata.lookup u <;> rfl
    · cases hs

/-! ### The sends -/

/-- The event at the head is the one that is due for its item, which has no other. -/
lemma head_due {o : Option ReaperEvent}
    (h : (event :: rest).filter (uuid · = uuid event) = o.toList) :
    o = some event ∧ rest.filter (uuid · = uuid event) = [] := by
  rw [List.filter_cons_of_pos (by simp)] at h
  cases o with
  | none => cases h
  | some ev =>
    obtain ⟨rfl, hrest⟩ := List.cons.inj h
    exact ⟨rfl, hrest⟩

lemma filter_tail (h : uuid event ≠ u) :
    (event :: rest).filter (uuid · = u) = rest.filter (uuid · = u) :=
  List.filter_cons_of_neg (by simpa using h)

lemma KeptFor.sent (h : KeptFor u s t) (hs : s.sending = event :: rest) :
    KeptFor u (s.sent event rest) (t.next u (.send event true)) := by
  obtain ⟨hpark, hdue, hdel⟩ := h
  rw [hs] at hdue
  rw [Item.next]
  split
  · next heq =>
    subst heq
    obtain ⟨hd, hrest⟩ := head_due hdue
    refine ⟨hpark, hrest, ?_⟩
    rw [Reaper.sent, List.filter_append, hdel, hd]
    simp
  · next hne =>
    rw [filter_tail hne] at hdue
    refine ⟨hpark, hdue, ?_⟩
    rw [Reaper.sent, List.filter_append, hdel]
    simp [hne]

/-- After a send that fails the promise is kept only if the item was parked again, and the task
goes on or had no other event. -/
lemma failed_iff {t : Ident → Item} (h : ∀ u, KeptFor u s (t u)) (hs : s.sending = event :: rest) :
    (∀ u, KeptFor u (s.failed rest) ((t u).next u (.send event false))) ↔
      Harmless s (.send event false) := by
  have hown := head_due (hs ▸ (h (uuid event)).2.1)
  rw [Harmless, hs]
  constructor
  · -- if every item is kept, that of the event too, so that it was parked
    intro h'
    have hparked := (h' (uuid event)).1
    rw [Item.next, if_pos rfl] at hparked
    refine ⟨?_, fun hmany => ?_⟩
    · rw [Reaper.failed] at hparked
      split at hparked
      all_goals exact hparked.mpr rfl
    · cases rest with
      | nil => rfl
      | cons ev rest =>
        -- the item of the next event is left without it
        have hne : uuid event ≠ uuid ev := fun heq => by
          have := hown.2
          rw [heq, List.filter_cons_of_pos (by simp)] at this
          cases this
        have hdue := (h (uuid ev)).2.1
        have hdue' := (h' (uuid ev)).2.1
        rw [hs, filter_tail hne, List.filter_cons_of_pos (by simp)] at hdue
        rw [Item.next, if_neg hne, Reaper.failed, if_pos hmany, ← hdue] at hdue'
        cases hdue'
  · -- an event that fails goes back, and nothing follows it
    rintro ⟨hpark, hlast⟩ u
    obtain ⟨hu, hdue, hdel⟩ := h u
    rw [hs] at hdue
    have hsend : (s.failed rest).sending = rest := by
      rw [Reaper.failed]
      split
      · next hmany => rw [(List.cons.inj (hlast hmany)).2]
      · rfl
    have htoxic : (s.failed rest).toxic = s.toxic := by
      rw [Reaper.failed]
      split <;> rfl
    have hdelivered : (s.failed rest).delivered = s.delivered := by
      rw [Reaper.failed]
      split <;> rfl
    rw [KeptFor, htoxic, hsend, hdelivered, Item.next]
    by_cases heq : uuid event = u
    · subst heq
      rw [if_pos rfl]
      exact ⟨iff_of_true hpark rfl, hown.2, hdel⟩
    · rw [if_neg heq]
      rw [filter_tail heq] at hdue
      exact ⟨hu, hdue, hdel⟩

/-! ### Runs -/

lemma run_append {acts : List Act} {a : Act} :
    run (acts ++ [a]) = (run acts).bind fun s => step s a := by
  rw [run, List.foldlM_append]
  cases h : acts.foldlM step init with
  | none => simp [run, h]
  | some s => simp [run, h]

lemma promised_append (u : Ident) (acts : List Act) (a : Act) :
    promised u (acts ++ [a]) = (promised u acts).next u a := by
  rw [promised, List.foldl_append]
  rfl

lemma keeps_init : Keeps [] init := fun u => by
  simp [KeptFor, init, promised]

/-- A step keeps the promise if and only if it is harmless. -/
lemma keeps_step {acts : List Act} {a : Act} (h : Keeps acts s) (hs : step s a = some s') :
    Keeps (acts ++ [a]) s' ↔ Harmless s a := by
  simp only [Keeps, promised_append]
  cases a with
  | markToxic v =>
    rw [step] at hs
    cases hs
    refine iff_of_true (fun u => ?_) trivial
    obtain ⟨hpark, hdue, hdel⟩ := h u
    rw [Item.next]
    split
    · next heq => exact ⟨iff_of_true (by simp [heq]) rfl, hdue, hdel⟩
    · next hne =>
      refine ⟨?_, hdue, hdel⟩
      rw [Finset.mem_insert, or_iff_right (Ne.symm hne)]
      exact hpark
  | tick metadata order => exact iff_of_true (fun u => (h u).tick hs) trivial
  | send event ok =>
    rw [step] at hs
    split at hs
    · cases hs
    · next next rest hsend =>
      split at hs
      · next heq =>
        subst heq
        cases hs
        cases ok with
        | true => exact iff_of_true (fun u => (h u).sent hsend) trivial
        | false => exact failed_iff h hsend
      · cases hs

/-- The steps of a history after which the reaper still runs are those of its beginnings. -/
lemma run_of_append {acts : List Act} {a : Act} (h : run (acts ++ [a]) = some s') :
    ∃ s, run acts = some s ∧ step s a = some s' := by
  rw [run_append] at h
  exact Option.bind_eq_some_iff.mp h

/-- **Each parking of an item leads to exactly one delivered event, as the first metadata that
mention the item say, and an item whose event could not be delivered is still in the quarantine,
if and only if no send fails** but for an item parked again in the meantime, and five in a row fail
only at the end of a tick. -/
theorem keeps_iff (acts : List Act) :
    (∀ past s, past <+: acts → run past = some s → Keeps past s) ↔
      ∀ past a s s', past ++ [a] <+: acts → run past = some s → step s a = some s' →
        Harmless s a := by
  constructor
  · intro h past a s s' hp hrun hs
    have hbefore := h past s ((List.prefix_append past [a]).trans hp) hrun
    have hafter := h (past ++ [a]) s' hp (by rw [run_append, hrun]; exact hs)
    exact (keeps_step hbefore hs).mp hafter
  · intro h past
    induction past using List.reverseRecOn with
    | nil =>
      intro s _ hrun
      cases hrun
      exact keeps_init
    | append_singleton past a ih =>
      intro s' hp hrun
      obtain ⟨s, hpast, hs⟩ := run_of_append hrun
      exact (keeps_step (ih s ((List.prefix_append past [a]).trans hp) hpast) hs).mpr
        (h past a s s' hp hpast hs)

/-- An item becomes readable, and the send of its event fails. -/
def lostEvent : List Act :=
  [.markToxic 7, .tick (.ok [(7, .valid)]) [7], .send (.itemRecovered 7) false]

/-- It is in the quarantine no more, and nothing was delivered. -/
theorem event_lost :
    ¬ ∀ acts past s, past <+: acts → run past = some s → Keeps past s := by
  intro h
  have := (h lostEvent lostEvent ⟨∅, 1, [], true, []⟩ List.prefix_rfl (by rfl) 7).1
  revert this
  decide

end Vautr.Quarantine
