import Vautr.Sql
import Mathlib.Algebra.Order.Group.Nat
import Mathlib.Data.List.Induction
import Mathlib.Data.List.Sort
import Mathlib.Tactic.Common

/-!
Counting calls in aligned windows of time.

Time is cut into windows of one length. For each key there is a counter with the start of the
window it counts in; it is made at the first call and starts again when the window is over. Counters
whose window ended are thrown away when there are too many.
-/

namespace Vautr.FixedWindow

open Vautr.Sql

/-- The counter of a key. -/
structure Window (ι : Type) where
  key : ι
  start : ℕ
  count : ℕ

abbrev Windows (ι : Type) := Table (Window.key : Window ι → ι)

variable {ι κ : Type} [DecidableEq ι]

/-- The start of the window that `now` is in. -/
def windowStart (window now : ℕ) : ℕ := now - now % window

/-- Where there are more than `cap` counters, those that ended before `now` are thrown away. -/
def evict (cap window now : ℕ) (s : Windows ι) : Windows ι :=
  if cap < s.rows.length then s.delete fun w => !decide (now ≤ w.start + window) else s

/-- A counter of another window starts again. -/
def Window.at (w : Window ι) (start : ℕ) : Window ι :=
  if w.start = start then w else { w with start, count := 0 }

def Window.hit (start : ℕ) (w : Window ι) : Window ι :=
  { w.at start with count := (w.at start).count + 1 }

omit [DecidableEq ι] in
lemma Window.hit_key (start : ℕ) (w : Window ι) : (w.hit start).key = w.key := by
  unfold Window.hit Window.at
  split <;> rfl

/-- A call of `key` at `now`, and its number in its window. -/
def count (cap window : ℕ) (key : ι) (now : ℕ) (s : Windows ι) : Windows ι × ℕ :=
  let start := windowStart window now
  let s := evict cap window now s
  let w := ((s.get key).getD ⟨key, start, 0⟩).hit start
  (s.upsert w (Window.hit start) (Window.hit_key start), w.count)

/-! ### Windows -/

variable {cap window : ℕ}

lemma windowStart_eq (window now : ℕ) : windowStart window now = window * (now / window) := by
  have := Nat.div_add_mod now window
  unfold windowStart
  omega

lemma windowStart_le (window now : ℕ) : windowStart window now ≤ now := Nat.sub_le _ _

lemma lt_windowStart (hw : 0 < window) (now : ℕ) : now < windowStart window now + window := by
  have := Nat.mod_lt now hw
  unfold windowStart
  omega

lemma windowStart_inj (hw : 0 < window) {t t' : ℕ} :
    windowStart window t = windowStart window t' ↔ t / window = t' / window := by
  rw [windowStart_eq, windowStart_eq]
  exact Nat.mul_right_inj (Nat.pos_iff_ne_zero.mp hw)

/-- What the counter of a key shows in the window that starts at `start`. -/
def shown (s : Windows ι) (key : ι) (start : ℕ) : ℕ :=
  ((s.get key).map fun w => (w.at start).count).getD 0

/-- Throwing counters away changes none that counts in the window of a later time. -/
lemma shown_evict (cap : ℕ) (hw : 0 < window) (s : Windows ι) (key : ι) {now t : ℕ} (h : now ≤ t) :
    shown (evict cap window now s) key (windowStart window t) =
      shown s key (windowStart window t) := by
  unfold evict
  split
  rotate_left
  · rfl
  have hlt := lt_windowStart hw t
  unfold shown
  rw [Table.get_delete]
  cases hk : s.get key with
  | none => rfl
  | some w =>
    rw [Option.filter_some]
    by_cases hkeep : now ≤ w.start + window
    · simp [hkeep]
    · have hother : w.start ≠ windowStart window t := by omega
      simp [hkeep, Window.at, hother]

/-- A call is counted for its key in its window, and not in a later one. -/
lemma shown_count (hw : 0 < window) (s : Windows ι) (key k : ι) {now t : ℕ} (h : now ≤ t) :
    shown (count cap window key now s).1 k (windowStart window t) =
      if key = k then
        if windowStart window now = windowStart window t then
          shown s k (windowStart window t) + 1
        else 0
      else shown s k (windowStart window t) := by
  rw [← shown_evict cap hw s k h, count]
  generalize evict cap window now s = s'
  have hkey : ∀ w : Window ι, (w.hit (windowStart window now)).key = w.key := Window.hit_key _
  by_cases hk : key = k
  · subst hk
    have hget : ((s'.get key).getD ⟨key, windowStart window now, 0⟩).key = key := by
      cases hg : s'.get key with
      | none => rfl
      | some w => exact Table.get_key hg
    rw [if_pos rfl, shown, Table.get_upsert, if_pos (by rw [hkey, hget]), shown]
    cases hg : s'.get key with
    | none =>
      by_cases hsame : windowStart window now = windowStart window t
      · simp [Window.hit, Window.at, hsame]
      · simp [Window.hit, Window.at, hsame]
    | some w =>
      by_cases hsame : windowStart window now = windowStart window t
      · by_cases h : w.start = windowStart window t <;> simp [Window.hit, Window.at, hsame, h]
      · by_cases h : w.start = windowStart window now <;> simp [Window.hit, Window.at, hsame, h]
  · have hget : ((s'.get key).getD ⟨key, windowStart window now, 0⟩).key = key := by
      cases hg : s'.get key with
      | none => rfl
      | some w => exact Table.get_key hg
    rw [if_neg hk, shown, Table.get_upsert, if_neg (by rw [hkey, hget]; exact hk), shown]

/-! ### Runs of a limiter -/

section Runs

variable {ε α : Type} [DecidableEq κ]

/-- What a limiter does with a call, a client at a time. -/
abbrev Check (κ ι ε α : Type) := κ → ℕ → Windows ι → Windows ι × Except ε α

variable (check : Check κ ι ε α)

/-- The counters after some calls. -/
def after (calls : List (κ × ℕ)) : Windows ι :=
  calls.foldl (fun s c => (check c.1 c.2 s).1) .empty

/-- The calls that are allowed. -/
def allowed (s : Windows ι) : List (κ × ℕ) → List (κ × ℕ)
  | [] => []
  | c :: calls =>
    if (check c.1 c.2 s).2.isOk then c :: allowed (check c.1 c.2 s).1 calls
    else allowed (check c.1 c.2 s).1 calls

/-- The number of calls of the client in the window with this number. -/
def calledIn (window : ℕ) (client : κ) (j : ℕ) (calls : List (κ × ℕ)) : ℕ :=
  calls.countP fun c => c.1 = client ∧ c.2 / window = j

/-- What a limiter owes its clients, whose counters have the names `key`. -/
structure Fair (cap window : ℕ) (max : κ → ℕ) (key : κ → ι) (calls : List (κ × ℕ)) : Prop where
  bound : ∀ client j, calledIn window client j (allowed check .empty calls) ≤ max client
  refused : ∀ past client now rest, calls = past ++ (client, now) :: rest →
    (check client now (after check past)).2.isOk = false →
      max client ≤ calledIn window client (now / window) past
  kept : ∀ past client now rest, calls = past ++ (client, now) :: rest → ∀ client',
    shown (after check past) (key client') (windowStart window now) =
        calledIn window client' (now / window) past ∧
      shown (evict cap window now (after check past)) (key client') (windowStart window now) =
        calledIn window client' (now / window) past

/-- The limiter counts the call under its key, and allows it if its number is within the limit. -/
structure Counts (cap window : ℕ) (max : κ → ℕ) (key : κ → ι) : Prop where
  state : ∀ c now s, (check c now s).1 = (count cap window (key c) now s).1
  isOk : ∀ c now s, (check c now s).2.isOk = decide ((count cap window (key c) now s).2 ≤ max c)

variable {check} {max : κ → ℕ} {key : κ → ι}

omit [DecidableEq κ] [DecidableEq ι] in
lemma after_concat (calls : List (κ × ℕ)) (c : κ × ℕ) :
    after check (calls ++ [c]) = (check c.1 c.2 (after check calls)).1 := by
  simp [after]

omit [DecidableEq κ] [DecidableEq ι] in
lemma allowed_append (s : Windows ι) (calls calls' : List (κ × ℕ)) :
    allowed check s (calls ++ calls') = allowed check s calls ++
      allowed check (calls.foldl (fun s c => (check c.1 c.2 s).1) s) calls' := by
  induction calls generalizing s with
  | nil => rfl
  | cons c calls ih =>
    simp only [List.cons_append, allowed, List.foldl_cons, ih]
    split <;> rfl

/-- The number of a call is one more than what its counter has shown. -/
lemma count_snd (hw : 0 < window) (s : Windows ι) (key : ι) (now : ℕ) :
    (count cap window key now s).2 = shown s key (windowStart window now) + 1 := by
  rw [← shown_evict cap hw s key le_rfl, count]
  generalize evict cap window now s = s'
  cases hg : s'.get key with
  | none => simp [shown, hg, Window.hit, Window.at]
  | some w =>
    by_cases h : w.start = windowStart window now <;> simp [shown, hg, Window.hit, Window.at, h]

/-- **What the counters show**: the calls of each client in the window, at every later time. -/
theorem shown_after (hw : 0 < window) (hkey : Function.Injective key)
    (hcheck : Counts check cap window max key) {calls : List (κ × ℕ)}
    (hsorted : (calls.map (·.2)).Pairwise (· ≤ ·)) (client : κ) {t : ℕ}
    (ht : ∀ c ∈ calls, c.2 ≤ t) :
    shown (after check calls) (key client) (windowStart window t) =
      calledIn window client (t / window) calls := by
  induction calls using List.reverseRecOn generalizing t with
  | nil => simp [after, shown, calledIn]
  | append_singleton calls c ih =>
    rw [List.map_append, List.pairwise_append] at hsorted
    obtain ⟨hpast, -, hlast⟩ := hsorted
    have hle : ∀ c' ∈ calls, c'.2 ≤ c.2 := fun c' hc' =>
      hlast c'.2 (List.mem_map_of_mem hc') c.2 (by simp)
    have hct : c.2 ≤ t := ht c (by simp)
    have hold := ih hpast fun c' hc' => (hle c' hc').trans hct
    rw [after_concat, hcheck.state, shown_count hw _ _ _ hct, hold, calledIn, calledIn,
      List.countP_append, List.countP_singleton]
    by_cases hk : c.1 = client
    · rw [if_pos (congrArg key hk)]
      by_cases hsame : c.2 / window = t / window
      · rw [if_pos ((windowStart_inj hw).mpr hsame), if_pos (by simp [hk, hsame])]
      · rw [if_neg fun h => hsame ((windowStart_inj hw).mp h), if_neg (by simp [hsame])]
        -- an earlier call is not in the window of `t` either
        symm
        rw [Nat.add_zero, List.countP_eq_zero]
        intro c' hc' h
        have hlt : c.2 / window < t / window :=
          lt_of_le_of_ne (Nat.div_le_div_right hct) hsame
        have hle' : c'.2 / window ≤ c.2 / window := Nat.div_le_div_right (hle c' hc')
        have : c'.2 / window = t / window := (decide_eq_true_eq.mp h).2
        omega
    · rw [if_neg fun h => hk (hkey h), if_neg (by simp [hk]), Nat.add_zero]

/-- A call is allowed if fewer calls than the limit of its client came before it in its window. -/
lemma isOk_iff (hw : 0 < window) (hkey : Function.Injective key)
    (hcheck : Counts check cap window max key) {past : List (κ × ℕ)} {client : κ} {now : ℕ}
    (hsorted : ((past ++ [(client, now)]).map (·.2)).Pairwise (· ≤ ·)) :
    (check client now (after check past)).2.isOk = true ↔
      calledIn window client (now / window) past < max client := by
  rw [List.map_append, List.pairwise_append] at hsorted
  obtain ⟨hpast, -, hlast⟩ := hsorted
  have hle : ∀ c ∈ past, c.2 ≤ now := fun c hc =>
    hlast c.2 (List.mem_map_of_mem hc) now (by simp)
  rw [hcheck.isOk, count_snd hw, shown_after hw hkey hcheck hpast client hle, decide_eq_true_eq,
    Nat.succ_le_iff]

/-- As many calls are allowed in a window as were made, up to the limit. -/
lemma calledIn_allowed (hw : 0 < window) (hkey : Function.Injective key)
    (hcheck : Counts check cap window max key) {calls : List (κ × ℕ)}
    (hsorted : (calls.map (·.2)).Pairwise (· ≤ ·)) (client : κ) (j : ℕ) :
    calledIn window client j (allowed check .empty calls) =
      min (max client) (calledIn window client j calls) := by
  induction calls using List.reverseRecOn with
  | nil => simp [allowed, calledIn]
  | append_singleton calls c ih =>
    obtain ⟨client', now⟩ := c
    have hiff := isOk_iff hw hkey hcheck hsorted
    have hpast : (calls.map (·.2)).Pairwise (· ≤ ·) := by
      rw [List.map_append, List.pairwise_append] at hsorted
      exact hsorted.1
    have hold := ih hpast
    have hlast : allowed check (after check calls) [(client', now)] =
        if (check client' now (after check calls)).2.isOk then [(client', now)] else [] := rfl
    rw [allowed_append, ← after, hlast]
    simp only [calledIn, List.countP_append, List.countP_singleton] at hold ⊢
    rw [hold]
    by_cases hmine : client' = client ∧ now / window = j
    · obtain ⟨rfl, rfl⟩ := hmine
      simp only [calledIn] at hiff
      by_cases hlt : calls.countP (fun c => c.1 = client' ∧ c.2 / window = now / window) < max client'
      · rw [if_pos (hiff.mpr hlt)]
        simp only [List.countP_singleton, and_self, decide_true, if_true]
        omega
      · rw [if_neg fun h => hlt (hiff.mp h)]
        simp only [List.countP_nil, and_self, decide_true, if_true]
        omega
    · have hnone : decide (client' = client ∧ now / window = j) = false := decide_eq_false hmine
      have hadd (n : ℕ) :
          n + (if decide (client' = client ∧ now / window = j) = true then 1 else 0) = n := by
        simp [hnone]
      rw [hadd]
      split
      · rw [List.countP_singleton, hadd]
      · rw [List.countP_nil, Nat.add_zero]

/-- **A limiter that counts is fair.** -/
theorem fair_of_counts (hw : 0 < window) (hkey : Function.Injective key)
    (hcheck : Counts check cap window max key) {calls : List (κ × ℕ)}
    (hsorted : (calls.map (·.2)).Pairwise (· ≤ ·)) : Fair check cap window max key calls where
  bound client j := by
    rw [calledIn_allowed hw hkey hcheck hsorted]
    exact Nat.min_le_left _ _
  refused past client now rest hcalls hno := by
    have hprefix : ((past ++ [(client, now)]).map (·.2)).Pairwise (· ≤ ·) := by
      have hsplit : calls = (past ++ [(client, now)]) ++ rest := by simp [hcalls]
      rw [hsplit, List.map_append, List.pairwise_append] at hsorted
      exact hsorted.1
    by_contra hlt
    rw [(isOk_iff hw hkey hcheck hprefix).mpr (by omega)] at hno
    cases hno
  kept past client now rest hcalls client' := by
    have hall := hsorted
    rw [hcalls, List.map_append, List.pairwise_append] at hall
    obtain ⟨hpast, -, hlast⟩ := hall
    have hle : ∀ c ∈ past, c.2 ≤ now := fun c hc =>
      hlast c.2 (List.mem_map_of_mem hc) now (by simp)
    rw [shown_evict cap hw _ _ le_rfl]
    have hshown := shown_after hw hkey hcheck hpast client' hle
    exact ⟨hshown, hshown⟩

end Runs

end Vautr.FixedWindow
