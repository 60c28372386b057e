import Mathlib.Algebra.Order.BigOperators.Group.List
import Mathlib.Algebra.Order.Group.Nat
import Vautr.Telemetry

/-!
What the telemetry of an installation delivers, over whole runs.

No observation is lost or delivered twice as long as ticks do not overlap: it is in the current
window, in the metrics that are pending, with the tick that took it, or in a report that was
delivered. What was recorded before consent was revoked stays in the current window, though.
-/

namespace Vautr.TelemetryRuns

open Vautr.Atomic Vautr.Interleave Vautr.Telemetry

variable {pct : Estimate}

/-! ### Measures -/

/-- The histograms. -/
inductive Timing
  | sync
  | argon2
  | aeadDecrypt
  deriving DecidableEq

def Timing.read : Timing → AggregatedMetrics → Histogram
  | .sync, m => m.syncDurationMs
  | .argon2, m => m.argon2DurationMs
  | .aeadDecrypt, m => m.aeadDecryptDurationUs

def Timing.value : Timing → Observation → Option ℕ
  | .sync, .syncDurationMs ms => some ms
  | .argon2, .argon2DurationMs ms => some ms
  | .aeadDecrypt, .aeadDecryptDurationUs us => some us
  | _, _ => none

/-- What is counted: the counters, the counts for each error type, the counts and the sums of
the histograms. -/
inductive Measure
  | syncAttempts
  | reaperOrphansCleaned
  | quarantineTtlResets
  | syncFailures (errorType : String)
  | occConflicts (errorType : String)
  | count (t : Timing)
  | sum (t : Timing)
  deriving DecidableEq

def Measure.read : Measure → AggregatedMetrics → ℕ
  | .syncAttempts, m => m.syncAttempts
  | .reaperOrphansCleaned, m => m.reaperOrphansCleaned
  | .quarantineTtlResets, m => m.quarantineTtlResets
  | .syncFailures t, m => m.syncFailureCounts.get t
  | .occConflicts t, m => m.occConflictCounts.get t
  | .count t, m => (t.read m).count
  | .sum t, m => (t.read m).sum

/-- What one observation adds. -/
def Measure.weigh : Measure → Observation → ℕ
  | .syncAttempts, .syncAttempt => 1
  | .reaperOrphansCleaned, .reaperOrphansCleaned => 1
  | .quarantineTtlResets, .quarantineTtlResets => 1
  | .syncFailures t, .syncFailure t' => if t' = t then 1 else 0
  | .occConflicts t, .occConflict t' => if t' = t then 1 else 0
  | .count t, o => if (t.value o).isSome then 1 else 0
  | .sum t, o => (t.value o).getD 0
  | _, _ => 0

def Measure.total (μ : Measure) (noted : List Noted) : ℕ := (noted.map (μ.weigh ·.obs)).sum

lemma get_cons (t t' : String) (n : ℕ) (m : Counts) :
    Counts.get ((t, n) :: m) t' = if t' = t then n else m.get t' := by
  by_cases h : t' = t
  · simp [Counts.get, h]
  · simp [Counts.get, List.lookup_cons, beq_false_of_ne h, h]

lemma get_bump (m : Counts) (t t' : String) :
    (m.bump t).get t' = if t = t' then (m.get t' + 1) % 2 ^ 64 else m.get t' := by
  induction m with
  | nil =>
    rw [Counts.bump, get_cons]
    simp [Counts.get, eq_comm]
  | cons p m ih =>
    obtain ⟨t₀, n⟩ := p
    rw [Counts.bump, get_cons]
    by_cases h : t = t₀
    · rw [if_pos h, get_cons]
      subst h
      by_cases ht : t' = t
      · simp [ht]
      · simp [ht, Ne.symm ht]
    · rw [if_neg h, get_cons, ih]
      by_cases ht : t' = t₀
      · subst ht
        simp [h]
      · simp [ht]

lemma saturatingAdd_eq {a b : ℕ} (h : a + b ≤ u64Max) : saturatingAdd a b = a + b :=
  Nat.min_eq_left h

/-- An observation reaches the histogram it is for. -/
lemma read_record (t : Timing) (m : AggregatedMetrics) (o : Observation) :
    t.read (m.record pct o) = (t.value o).elim (t.read m) ((t.read m).record pct) := by
  cases t <;> cases o <;> rfl

/-- Below the bound, an observation adds its weight. -/
lemma read_record_measure {μ : Measure} {m : AggregatedMetrics} {o : Observation}
    (h : μ.read m + μ.weigh o ≤ u64Max) : μ.read (m.record pct o) = μ.read m + μ.weigh o := by
  cases μ with
  | syncAttempts => cases o <;> first | rfl | exact saturatingAdd_eq h
  | reaperOrphansCleaned => cases o <;> first | rfl | exact saturatingAdd_eq h
  | quarantineTtlResets => cases o <;> first | rfl | exact saturatingAdd_eq h
  | syncFailures t =>
    cases o with
    | syncFailure t' =>
      change (m.syncFailureCounts.bump t').get t = _
      rw [get_bump]
      by_cases ht : t' = t
      · have h' : m.syncFailureCounts.get t + 1 ≤ u64Max := by
          simpa [Measure.weigh, Measure.read, ht] using h
        simp only [ht, Measure.weigh, Measure.read, u64Max, if_true] at h' ⊢
        omega
      · simp [Measure.weigh, Measure.read, ht]
    | _ => rfl
  | occConflicts t =>
    cases o with
    | occConflict t' =>
      change (m.occConflictCounts.bump t').get t = _
      rw [get_bump]
      by_cases ht : t' = t
      · have h' : m.occConflictCounts.get t + 1 ≤ u64Max := by
          simpa [Measure.weigh, Measure.read, ht] using h
        simp only [ht, Measure.weigh, Measure.read, u64Max, if_true] at h' ⊢
        omega
      · simp [Measure.weigh, Measure.read, ht]
    | _ => rfl
  | count t =>
    simp only [Measure.read, Measure.weigh, read_record] at h ⊢
    cases hv : t.value o with
    | none => simp
    | some v => exact saturatingAdd_eq (by simpa [hv] using h)
  | sum t =>
    simp only [Measure.read, Measure.weigh, read_record] at h ⊢
    cases hv : t.value o with
    | none => simp
    | some v => exact saturatingAdd_eq (by simpa [hv] using h)

lemma read_note (μ : Measure) (m : AggregatedMetrics) (n : Noted) :
    μ.read (m.note pct n) = μ.read (m.record pct n.obs) := by
  cases μ with
  | count t => cases t <;> rfl
  | sum t => cases t <;> rfl
  | _ => rfl

lemma read_empty (μ : Measure) : μ.read .empty = 0 := by
  cases μ with
  | count t => cases t <;> rfl
  | sum t => cases t <;> rfl
  | _ => rfl

/-- The metrics of a window into which this was recorded. -/
def gathered (pct : Estimate) (ns : List Noted) : AggregatedMetrics :=
  ns.foldl (fun m n => m.note pct n) .empty

lemma gathered_append (ns : List Noted) (n : Noted) :
    gathered pct (ns ++ [n]) = (gathered pct ns).note pct n := by
  rw [gathered, List.foldl_append]
  rfl

/-- The metrics are what was recorded into them. -/
def Exact (pct : Estimate) (m : AggregatedMetrics) : Prop := m = gathered pct m.noted

lemma exact_empty : Exact pct .empty := rfl

lemma Exact.note {m : AggregatedMetrics} (h : Exact pct m) (n : Noted) :
    Exact pct (m.note pct n) := by
  have hn : (m.note pct n).noted = m.noted ++ [n] := rfl
  rw [Exact, hn, gathered_append, ← h]

lemma total_append (μ : Measure) (ns ns' : List Noted) :
    μ.total (ns ++ ns') = μ.total ns + μ.total ns' := by
  simp [Measure.total]

lemma read_gathered {μ : Measure} {ns : List Noted} (h : μ.total ns ≤ u64Max) :
    μ.read (gathered pct ns) = μ.total ns := by
  induction ns using List.reverseRecOn with
  | nil => exact read_empty μ
  | append_singleton ns n ih =>
    have hn : μ.total [n] = μ.weigh n.obs := by simp [Measure.total]
    rw [total_append, hn] at h ⊢
    have hns := ih (by omega)
    rw [gathered_append, read_note, read_record_measure (by omega), hns]

/-- Below the bound, exact metrics read what was recorded. -/
lemma Exact.read {m : AggregatedMetrics} (h : Exact pct m) {μ : Measure}
    (hμ : μ.total m.noted ≤ u64Max) : μ.read m = μ.total m.noted := by
  have hread : μ.read (gathered pct m.noted) = μ.total m.noted := read_gathered hμ
  rwa [← h] at hread

/-! ### Stages -/

/-- What is left of a call. -/
inductive Stage (pct : Estimate) : TelemetryCmd → TelemetryCode → Prop
  | record (o : Observation) : Stage pct (.record o) (record pct o)
  | write (o : Observation) : Stage pct (.record o) (write pct o)
  | grant : Stage pct .grantConsent grantConsent
  | revoke : Stage pct .revokeConsent revokeConsent
  | tick : Stage pct .tick tick
  | take : Stage pct .tick take
  | send (m : AggregatedMetrics) : Stage pct .tick (send m)
  | restore (m : AggregatedMetrics) (err : SendError) : Stage pct .tick (restore m err)
  | done (q : TelemetryCmd) (r : TelemetryReply) : Stage pct q (.ret r)

lemma stage_begin (q : TelemetryCmd) : Stage pct q (code pct q) := by
  cases q with
  | record o => exact .record o
  | grantConsent => exact .grant
  | revokeConsent => exact .revoke
  | tick => exact .tick

lemma stage_next (q : TelemetryCmd) (l : TelemetryLabel) (f : TelemetryEnv → Controller → Controller)
    (k : TelemetryEnv → Controller → TelemetryCode) (h : Stage pct q (.stmt l f k))
    (e : TelemetryEnv) (s : Controller) : Stage pct q (k e s) := by
  cases h with
  | record o =>
    change Stage pct _ (if s.consent = .granted then write pct o else .ret .done)
    split
    · exact .write o
    · exact .done _ _
  | write o => exact .done _ _
  | grant => exact .done _ _
  | revoke => exact .done _ _
  | tick =>
    change Stage pct _ (if s.consent = .granted ∧ s.sender then Telemetry.take
      else .ret (.tick (.ok false)))
    split
    · exact .take
    · exact .done _ _
  | take =>
    dsimp only
    split
    · exact .done _ _
    · exact .send _
  | send m =>
    dsimp only
    split
    · exact .done _ _
    · exact .restore _ _
  | restore m err => exact .done _ _

abbrev TelemetryCall := Call TelemetryCmd Controller TelemetryEnv TelemetryLabel TelemetryReply

/-- A tick is under way: it has seen that there is consent, and it is not over. -/
def UnderWay (c : TelemetryCall) : Prop :=
  match c.prog.next with
  | some .take => True
  | some (.send _) => True
  | some (.restore _) => True
  | _ => False

instance : DecidablePred UnderWay := fun c => by
  unfold UnderWay
  split <;> infer_instance

/-- The statement is one of a tick. -/
def ofTick : TelemetryLabel → Bool
  | .checkTick => true
  | .take => true
  | .send _ => true
  | .restore _ => true
  | _ => false

/-! ### What a tick takes -/

section Take

variable {s : Controller} {now : ℕ}

lemma takeDue_pending {m : AggregatedMetrics} (now : ℕ) (hp : s.pending = some m) :
    s.takeDue now = ({ s with pending := none }, some m) := by
  simp only [Controller.takeDue, hp]

lemma takeDue_window (hp : s.pending = none) (hdue : s.aggregator.windowElapsed now) :
    s.takeDue now = ({ s with aggregator :=
      { s.aggregator with current := .empty, windowStartedAt := now } },
      some s.aggregator.current) := by
  simp [Controller.takeDue, hp, DailyAggregator.rollWindow, hdue]

lemma takeDue_none (hp : s.pending = none) (hdue : ¬s.aggregator.windowElapsed now) :
    s.takeDue now = (s, none) := by
  have hroll : s.aggregator.rollWindow now = (s.aggregator, none) := by
    simp [DailyAggregator.rollWindow, hdue]
  unfold Controller.takeDue
  split
  · next m hm => simp [hp] at hm
  · rw [hroll]

end Take

/-! ### Conservation -/

/-- **Ticks do not overlap**, and consent is not revoked: a tick's statement is run while no
other tick is under way. -/
def Apart (σ : TelemetrySys) : TelemetryAct → Prop
  | .call q => q ≠ .revokeConsent
  | .exec i _ => ∀ l ∈ (σ.calls[i]?).bind (·.prog.next), ofTick l →
      ∀ j < σ.calls.length, j ≠ i → ∀ c ∈ σ.calls[j]?, ¬UnderWay c

instance : ∀ (σ : TelemetrySys) (a : TelemetryAct), Decidable (Apart σ a)
  | _, .call q => inferInstanceAs (Decidable (q ≠ .revokeConsent))
  | σ, .exec i _ => inferInstanceAs (Decidable (∀ l ∈ (σ.calls[i]?).bind (·.prog.next), ofTick l →
      ∀ j < σ.calls.length, j ≠ i → ∀ c ∈ σ.calls[j]?, ¬UnderWay c))

/-- What a tick has taken and not dealt with. -/
def heldBy (c : TelemetryCall) : List AggregatedMetrics :=
  match c.prog.next with
  | some (.send m) => [m]
  | some (.restore m) => [m]
  | _ => []

/-- What a call has recorded, when it is over. -/
def recordedBy (c : TelemetryCall) : List Observation :=
  match c.req, c.prog.result with
  | .record o, some _ => [o]
  | _, _ => []

section Totals

variable (μ : Measure)

def heldTotal (c : TelemetryCall) : ℕ := ((heldBy c).map fun m => μ.total m.noted).sum

def recordedTotal (c : TelemetryCall) : ℕ := ((recordedBy c).map μ.weigh).sum

/-- What is stored and what was delivered. -/
def storedTotal (s : Controller) : ℕ :=
  (s.delivered.map fun r => μ.total r.metrics.noted).sum +
    s.pending.elim 0 (fun m => μ.total m.noted) + μ.total s.aggregator.current.noted

end Totals

/-- All metrics are what was recorded into them, and everything recorded is somewhere. -/
structure Conserved (pct : Estimate) (σ : TelemetrySys) : Prop where
  granted : σ.shared.consent = .granted
  quiet : ∀ c ∈ σ.calls, c.req ≠ .revokeConsent
  free : ∀ c ∈ σ.calls, heldBy c ≠ [] → σ.shared.pending = none
  held : ∀ c ∈ σ.calls, ∀ m ∈ heldBy c, Exact pct m
  current : Exact pct σ.shared.aggregator.current
  pending : ∀ m ∈ σ.shared.pending, Exact pct m
  delivered : ∀ r ∈ σ.shared.delivered, Exact pct r.metrics
  balance : ∀ μ, (σ.calls.map (recordedTotal μ)).sum =
    (σ.calls.map (heldTotal μ)).sum + storedTotal μ σ.shared

variable {σ : TelemetrySys}

/-- A statement that moves metrics, or records, and keeps the balance. -/
lemma Conserved.exec (h : Conserved pct σ) {i : ℕ} {c c' : TelemetryCall} {s : Controller}
    (hc : σ.calls[i]? = some c) (hreq : c'.req = c.req) (hgranted : s.consent = .granted)
    (hfree : heldBy c' ≠ [] → s.pending = none)
    (hothers : ∀ j ≠ i, ∀ c₂, σ.calls[j]? = some c₂ → heldBy c₂ ≠ [] → s.pending = none)
    (hheld : ∀ m ∈ heldBy c', Exact pct m) (hcurrent : Exact pct s.aggregator.current)
    (hpending : ∀ m ∈ s.pending, Exact pct m)
    (hdelivered : ∀ r ∈ s.delivered, Exact pct r.metrics)
    (hbalance : ∀ μ, recordedTotal μ c' + heldTotal μ c + storedTotal μ σ.shared =
      recordedTotal μ c + heldTotal μ c' + storedTotal μ s) :
    Conserved pct ⟨s, σ.calls.set i c'⟩ where
  granted := hgranted
  quiet c₂ hc₂ := by
    rcases List.mem_or_eq_of_mem_set hc₂ with hc₂ | rfl
    · exact h.quiet c₂ hc₂
    · rw [hreq]
      exact h.quiet c (List.mem_of_getElem? hc)
  free c₂ hc₂ := by
    obtain ⟨j, hj⟩ := List.mem_iff_getElem?.mp hc₂
    rcases getElem?_set_cases hj with ⟨-, rfl⟩ | ⟨hne, hj⟩
    · exact hfree
    · exact hothers j hne c₂ hj
  held c₂ hc₂ := by
    rcases List.mem_or_eq_of_mem_set hc₂ with hc₂ | rfl
    · exact h.held c₂ hc₂
    · exact hheld
  current := hcurrent
  pending := hpending
  delivered := hdelivered
  balance μ := by
    have hrec : ((σ.calls.set i c').map (recordedTotal μ)).sum + recordedTotal μ c =
        (σ.calls.map (recordedTotal μ)).sum + recordedTotal μ c' := sum_map_set hc
    have hhold : ((σ.calls.set i c').map (heldTotal μ)).sum + heldTotal μ c =
        (σ.calls.map (heldTotal μ)).sum + heldTotal μ c' := sum_map_set hc
    have hbal := h.balance μ
    have hstep := hbalance μ
    dsimp only
    omega

lemma Conserved.call (h : Conserved pct σ) {q : TelemetryCmd} (hq : q ≠ .revokeConsent) :
    Conserved pct ⟨σ.shared, σ.calls ++ [⟨q, [], code pct q⟩]⟩ := by
  have hheld : heldBy ⟨q, [], code pct q⟩ = [] := by cases q <;> rfl
  have hrec : recordedBy ⟨q, [], code pct q⟩ = [] := by cases q <;> rfl
  refine ⟨h.granted, ?_, ?_, ?_, h.current, h.pending, h.delivered, fun μ => ?_⟩
  · intro c hc
    rcases List.mem_append.mp hc with hc | hc
    · exact h.quiet c hc
    · rw [List.mem_singleton.mp hc]
      exact hq
  · intro c hc
    rcases List.mem_append.mp hc with hc | hc
    · exact h.free c hc
    · rw [List.mem_singleton.mp hc, hheld]
      exact fun hno => absurd rfl hno
  · intro c hc
    rcases List.mem_append.mp hc with hc | hc
    · exact h.held c hc
    · rw [List.mem_singleton.mp hc, hheld]
      simp
  · have hbal := h.balance μ
    simp only [List.map_append, List.sum_append, List.map_cons, List.map_nil, List.sum_cons,
      List.sum_nil, recordedTotal, heldTotal, hheld, hrec] at hbal ⊢
    omega

/-- A statement that only looks. -/
lemma Conserved.look (h : Conserved pct σ) {i : ℕ} {c c' : TelemetryCall}
    (hc : σ.calls[i]? = some c) (hreq : c'.req = c.req) (hheld : heldBy c' = heldBy c)
    (hrec : recordedBy c' = recordedBy c) : Conserved pct ⟨σ.shared, σ.calls.set i c'⟩ := by
  have hmem := List.mem_of_getElem? hc
  refine h.exec hc hreq h.granted (fun hne => h.free c hmem (hheld ▸ hne))
    (fun j _ c₂ hj => h.free c₂ (List.mem_of_getElem? hj)) (fun m hm => h.held c hmem m (hheld ▸ hm))
    h.current h.pending h.delivered fun μ => ?_
  simp only [recordedTotal, heldTotal, hheld, hrec]

lemma heldBy_of_not_underWay {c : TelemetryCall} (h : ¬UnderWay c) : heldBy c = [] := by
  unfold UnderWay at h
  unfold heldBy
  split at h <;> simp_all

lemma Conserved.step {i : ℕ} {e : TelemetryEnv} {q : TelemetryCmd}
    {tr : List (Ev Controller TelemetryEnv TelemetryLabel)} {l : TelemetryLabel}
    {f : TelemetryEnv → Controller → Controller} {k : TelemetryEnv → Controller → TelemetryCode}
    (hc : σ.calls[i]? = some ⟨q, tr, .stmt l f k⟩) (hC : Apart σ (.exec i e))
    (hstage : Stage pct q (.stmt l f k)) (h : Conserved pct σ) : Conserved pct ⟨f e σ.shared,
      σ.calls.set i ⟨q, tr ++ [⟨l, e, σ.shared, f e σ.shared⟩], k e σ.shared⟩⟩ := by
  have hmem := List.mem_of_getElem? hc
  have hfree : ∀ j ≠ i, ∀ c₂, σ.calls[j]? = some c₂ → heldBy c₂ ≠ [] →
      σ.shared.pending = none := fun j _ c₂ hj => h.free c₂ (List.mem_of_getElem? hj)
  have halone : ofTick l → ∀ j ≠ i, ∀ c₂, σ.calls[j]? = some c₂ → ¬UnderWay c₂ :=
    fun hl j hne c₂ hj => hC l (by simp [hc]) hl j (List.getElem?_eq_some_iff.mp hj).1 hne c₂ hj
  cases hstage with
  -- consent is looked at; nothing is counted yet
  | record o =>
    refine h.look hc rfl ?_ ?_ <;> dsimp only <;> rw [if_pos h.granted] <;> rfl
  -- what was recorded is in the window
  | write o =>
    refine h.exec hc rfl h.granted (fun hne => absurd rfl hne) hfree (by simp [heldBy])
      (h.current.note _) h.pending h.delivered fun μ => ?_
    have hnoted : (σ.shared.aggregator.current.note pct
        ⟨o, σ.shared.consent, σ.shared.revokes⟩).noted = σ.shared.aggregator.current.noted ++
          [⟨o, σ.shared.consent, σ.shared.revokes⟩] := rfl
    simp only [recordedTotal, heldTotal, storedTotal, recordedBy, heldBy, hnoted, total_append,
      Prog.next, Prog.result]
    simp [Measure.total]
    omega
  | grant =>
    refine h.exec hc rfl rfl (fun hne => absurd rfl hne) hfree (by simp [heldBy])
      h.current h.pending h.delivered fun μ => rfl
  | revoke => exact absurd rfl (h.quiet _ hmem)
  | tick =>
    refine h.look hc rfl ?_ ?_ <;> dsimp only <;> split <;> rfl
  -- a report that waits is taken first, and the window only after it
  | take =>
    cases hp : σ.shared.pending with
    | some m =>
      have htake := takeDue_pending e.now hp
      dsimp only
      rw [htake]
      refine h.exec hc rfl h.granted (fun _ => rfl) (fun _ _ _ _ _ => rfl) ?_ h.current
        (by simp) h.delivered fun μ => ?_
      · intro m' hm'
        rw [List.mem_singleton.mp hm']
        exact h.pending m hp
      · simp [recordedTotal, heldTotal, storedTotal, recordedBy, heldBy, send, hp]
        omega
    | none =>
      by_cases hdue : σ.shared.aggregator.windowElapsed e.now
      · have htake := takeDue_window hp hdue
        dsimp only
        rw [htake]
        refine h.exec hc rfl h.granted (fun _ => hp) hfree ?_ exact_empty
          (by simp [hp]) h.delivered fun μ => ?_
        · intro m' hm'
          rw [List.mem_singleton.mp hm']
          exact h.current
        · simp [recordedTotal, heldTotal, storedTotal, recordedBy, heldBy, send, hp,
            Measure.total, AggregatedMetrics.empty]
          omega
      · have htake := takeDue_none hp hdue
        dsimp only
        rw [htake]
        exact h.look hc rfl rfl rfl
  -- what is sent arrives or is held to be put back
  | send m =>
    have hm : Exact pct m := h.held _ hmem m (by simp [heldBy])
    have hpend : σ.shared.pending = none := h.free _ hmem (by simp [heldBy])
    cases ha : e.answer with
    | none =>
      simp only [ha]
      refine h.exec hc rfl h.granted (fun hne => absurd rfl hne) hfree (by simp [heldBy])
        h.current h.pending ?_ fun μ => ?_
      · intro r hr
        rcases List.mem_append.mp hr with hr | hr
        · exact h.delivered r hr
        · rw [List.mem_singleton.mp hr]
          exact hm
      · simp [recordedTotal, heldTotal, storedTotal, recordedBy, heldBy, HeartbeatReport.build]
        omega
    | some err =>
      simp only [ha]
      exact h.look hc rfl rfl rfl
  -- nothing is waiting, so that nothing is overwritten
  | restore m err =>
    have hm : Exact pct m := h.held _ hmem m (by simp [heldBy])
    have hpend : σ.shared.pending = none := h.free _ hmem (by simp [heldBy])
    refine h.exec hc rfl h.granted (fun hne => absurd rfl hne) ?_ (by simp [heldBy])
      h.current (by simpa using hm) h.delivered fun μ => ?_
    · intro j hne c₂ hj hheld
      exact absurd (heldBy_of_not_underWay (halone rfl j hne c₂ hj)) hheld
    · simp [recordedTotal, heldTotal, storedTotal, recordedBy, heldBy, hpend]
      omega

/-- Consent is given and nothing is recorded yet. -/
structure Fresh (s : Controller) : Prop where
  consent : s.consent = .granted
  current : s.aggregator.current = .empty
  pending : s.pending = none
  delivered : s.delivered = []

lemma Fresh.conserved {s : Controller} (h : Fresh s) : Conserved pct (init s) where
  granted := h.consent
  quiet := by simp [init]
  free := by simp [init]
  held := by simp [init]
  current := h.current ▸ exact_empty
  pending := by simp [init, h.pending]
  delivered := by simp [init, h.delivered]
  balance μ := by
    simp [init, storedTotal, h.pending, h.delivered, h.current, Measure.total,
      AggregatedMetrics.empty]

/-- **Nothing recorded is lost or delivered twice.** As long as consent is given and ticks do not
overlap: when no tick is under way, what the delivered reports, the pending metrics and the
current window show adds up to what the finished calls have recorded, for every counter, error
type and histogram whose total stays below the bound, whatever the sender answers. -/
theorem observations_conserved {s : Controller} (hs : Fresh s) {as : List TelemetryAct}
    (has : Along (code pct) Apart (init s) as)
    (hidle : ∀ c ∈ (run (code pct) (init s) as).calls, ¬UnderWay c) {μ : Measure}
    (hμ : ((run (code pct) (init s) as).calls.map (recordedTotal μ)).sum < u64Max) :
    ((run (code pct) (init s) as).shared.delivered.map fun r => μ.read r.metrics).sum +
      (run (code pct) (init s) as).shared.pending.elim 0 μ.read +
      μ.read (run (code pct) (init s) as).shared.aggregator.current =
      ((run (code pct) (init s) as).calls.map (recordedTotal μ)).sum := by
  have h : Conserved pct (run (code pct) (init s) as) :=
    (run_stages stage_begin stage_next (fun _ _ hC h => h.call hC)
      (fun _ _ _ _ _ _ _ _ hc hC _ hstage h => h.step hc hC hstage) hs.conserved has).2
  generalize run (code pct) (init s) as = σ at h hidle hμ
  have hheld : (σ.calls.map (heldTotal μ)).sum = 0 := by
    refine List.sum_eq_zero fun n hn => ?_
    obtain ⟨c, hc, rfl⟩ := List.mem_map.mp hn
    simp [heldTotal, heldBy_of_not_underWay (hidle c hc)]
  have hbal := h.balance μ
  rw [hheld, Nat.zero_add, storedTotal] at hbal
  have hcurrent := h.current.read (show μ.total _ ≤ u64Max by omega)
  have hpending : σ.shared.pending.elim 0 μ.read =
      σ.shared.pending.elim 0 fun m => μ.total m.noted := by
    cases hp : σ.shared.pending with
    | none => rfl
    | some m =>
      rw [hp, Option.elim_some] at hbal
      exact (h.pending m hp).read (by omega)
  have hdelivered : σ.shared.delivered.map (fun r => μ.read r.metrics) =
      σ.shared.delivered.map fun r => μ.total r.metrics.noted := by
    refine List.map_congr_left fun r hr => (h.delivered r hr).read ?_
    have hle : μ.total r.metrics.noted ≤
        (σ.shared.delivered.map fun r => μ.total r.metrics.noted).sum :=
      List.single_le_sum (fun _ _ => Nat.zero_le _) _ (List.mem_map_of_mem hr)
    omega
  rw [hcurrent, hpending, hdelivered, hbal]

/-- A controller whose window elapses at once. -/
def started : Controller := ⟨⟨.empty, 0, 0⟩, .granted, 1, true, "linux", "0.1.0", none, 0, []⟩

def answered : TelemetryEnv := ⟨0, 0, none⟩

def refused : TelemetryEnv := ⟨0, 0, some (.httpStatus 503)⟩

def noEstimate : Estimate := fun _ => ⟨none, none, none⟩

/-- A report that is refused, something recorded meanwhile, and two reports that arrive. -/
def retried : List TelemetryAct :=
  [.call (.record .syncAttempt), .exec 0 answered, .exec 0 answered, .call .tick, .exec 1 answered,
    .exec 1 answered, .exec 1 refused, .call (.record .syncAttempt), .exec 2 answered,
    .exec 2 answered, .exec 1 answered, .call .tick, .exec 3 answered, .exec 3 answered,
    .exec 3 answered, .call .tick, .exec 4 answered, .exec 4 answered, .exec 4 answered]

lemma fresh_started : Fresh started := ⟨rfl, rfl, rfl, rfl⟩

/-- The attempts of both windows are delivered. -/
theorem observations_conserved_retried :
    ((run (code noEstimate) (init started) retried).shared.delivered.map fun r =>
        Measure.syncAttempts.read r.metrics).sum +
      (run (code noEstimate) (init started) retried).shared.pending.elim 0
        Measure.syncAttempts.read +
      Measure.syncAttempts.read
        (run (code noEstimate) (init started) retried).shared.aggregator.current =
      ((run (code noEstimate) (init started) retried).calls.map
        (recordedTotal .syncAttempts)).sum :=
  observations_conserved fresh_started (by decide +kernel) (by decide +kernel) (by decide +kernel)

/-! ### Consent -/

/-- What was recorded into the metrics was recorded with consent, after it was last revoked. -/
def Consented (s : Controller) (m : AggregatedMetrics) : Prop :=
  ∀ n ∈ m.noted, n.consent = .granted ∧ n.revokes = s.revokes

/-- What is handed to the sender is handed with consent, and was recorded since it was last
revoked. -/
def Private (ev : Ev Controller TelemetryEnv TelemetryLabel) : Prop :=
  match ev.name with
  | .send m => ev.pre.consent = .granted ∧ Consented ev.pre m
  | _ => True

instance : DecidablePred Private := fun ev => by
  unfold Private
  split
  · exact inferInstanceAs (Decidable (_ ∧ ∀ n ∈ _, _))
  · infer_instance

/-- **Nothing is left to discard**: consent is revoked while no tick is under way, and given
again while the current window is empty. -/
def Discarded (σ : TelemetrySys) : TelemetryAct → Prop
  | .call _ => True
  | .exec i _ => match (σ.calls[i]?).bind (·.prog.next) with
    | some .revoke => ∀ c ∈ σ.calls, ¬UnderWay c
    | some .grant => σ.shared.consent = .denied → σ.shared.aggregator.current = .empty
    | _ => True

instance (σ : TelemetrySys) (a : TelemetryAct) : Decidable (Discarded σ a) := by
  unfold Discarded
  split
  · infer_instance
  · split <;> infer_instance

/-- What is stored or under way may be sent. -/
structure Kept (σ : TelemetrySys) : Prop where
  current : σ.shared.consent = .granted → Consented σ.shared σ.shared.aggregator.current
  pending : ∀ m ∈ σ.shared.pending, σ.shared.consent = .granted ∧ Consented σ.shared m
  underWay : ∀ c ∈ σ.calls, UnderWay c →
    σ.shared.consent = .granted ∧ ∀ m ∈ heldBy c, Consented σ.shared m
  sent : ∀ c ∈ σ.calls, Every Private c.trace

lemma kept_exec (h : Kept σ) {i : ℕ} {q : TelemetryCmd}
    {tr : List (Ev Controller TelemetryEnv TelemetryLabel)} {p p' : TelemetryCode}
    {ev : Ev Controller TelemetryEnv TelemetryLabel} {s : Controller}
    (hc : σ.calls[i]? = some ⟨q, tr, p⟩) (hev : Private ev)
    (hcurrent : s.consent = .granted → Consented s s.aggregator.current)
    (hpending : ∀ m ∈ s.pending, s.consent = .granted ∧ Consented s m)
    (hothers : ∀ c ∈ σ.calls, UnderWay c → s.consent = .granted ∧ ∀ m ∈ heldBy c, Consented s m)
    (hself : UnderWay ⟨q, tr ++ [ev], p'⟩ →
      s.consent = .granted ∧ ∀ m ∈ heldBy ⟨q, tr ++ [ev], p'⟩, Consented s m) :
    Kept ⟨s, σ.calls.set i ⟨q, tr ++ [ev], p'⟩⟩ where
  current := hcurrent
  pending := hpending
  underWay c hmem hc' := by
    rcases List.mem_or_eq_of_mem_set hmem with hmem | rfl
    · exact hothers c hmem hc'
    · exact hself hc'
  sent c hmem := by
    rcases List.mem_or_eq_of_mem_set hmem with hmem | rfl
    · exact h.sent c hmem
    · exact every_append (h.sent _ (List.mem_of_getElem? hc)) hev

/-- A statement that only looks. -/
lemma kept_look (h : Kept σ) {i : ℕ} {q : TelemetryCmd}
    {tr : List (Ev Controller TelemetryEnv TelemetryLabel)} {p p' : TelemetryCode}
    {ev : Ev Controller TelemetryEnv TelemetryLabel}
    (hc : σ.calls[i]? = some ⟨q, tr, p⟩) (hev : Private ev)
    (hself : UnderWay ⟨q, tr ++ [ev], p'⟩ → σ.shared.consent = .granted ∧
      ∀ m ∈ heldBy ⟨q, tr ++ [ev], p'⟩, Consented σ.shared m) :
    Kept ⟨σ.shared, σ.calls.set i ⟨q, tr ++ [ev], p'⟩⟩ :=
  kept_exec h hc hev h.current h.pending h.underWay hself

lemma consented_empty (s : Controller) : Consented s .empty := by
  simp [Consented, AggregatedMetrics.empty]

lemma kept_step {i : ℕ} {e : TelemetryEnv} {q : TelemetryCmd}
    {tr : List (Ev Controller TelemetryEnv TelemetryLabel)} {l : TelemetryLabel}
    {f : TelemetryEnv → Controller → Controller} {k : TelemetryEnv → Controller → TelemetryCode}
    (hc : σ.calls[i]? = some ⟨q, tr, .stmt l f k⟩) (hC : Discarded σ (.exec i e))
    (hstage : Stage pct q (.stmt l f k)) (h : Kept σ) : Kept ⟨f e σ.shared,
      σ.calls.set i ⟨q, tr ++ [⟨l, e, σ.shared, f e σ.shared⟩], k e σ.shared⟩⟩ := by
  have hmem := List.mem_of_getElem? hc
  simp only [Discarded, hc, Option.bind_some, Prog.next] at hC
  cases hstage with
  | record o =>
    refine kept_look h hc trivial fun hway => ?_
    dsimp only at hway
    split at hway <;> exact False.elim hway
  -- an observation carries the consent it was made under
  | write o =>
    refine kept_exec h hc trivial (fun hgranted n hn => ?_) h.pending h.underWay
      False.elim
    rcases List.mem_append.mp hn with hn | hn
    · exact h.current hgranted n hn
    · rw [List.mem_singleton.mp hn]
      exact ⟨hgranted, rfl⟩
  -- what was recorded before is gone when consent is given again
  | grant =>
    refine kept_exec h hc trivial (fun _ => ?_) (fun m hm => ⟨rfl, (h.pending m hm).2⟩)
      (fun c hmem hway => ⟨rfl, (h.underWay c hmem hway).2⟩) False.elim
    cases hd : σ.shared.consent with
    | denied =>
      have hempty := hC hd
      dsimp only
      rw [hempty]
      exact consented_empty _
    | granted => exact h.current hd
  | revoke =>
    refine kept_exec h hc trivial (fun hgranted => ?_) (by simp)
      (fun c hmem hway => absurd hway (hC c hmem)) False.elim
    cases hgranted
  | tick =>
    refine kept_look h hc trivial fun hway => ?_
    dsimp only at hway ⊢
    split at hway
    · next hok =>
      rw [if_pos hok]
      exact ⟨hok.1, by simp [heldBy, take]⟩
    · exact False.elim hway
  -- the consent of the tick is that of what it takes
  | take =>
    have hgranted := (h.underWay _ hmem trivial).1
    have hsend : ∀ {m : AggregatedMetrics} {s : Controller}
        {tr : List (Ev Controller TelemetryEnv TelemetryLabel)}, Consented s m →
        ∀ m' ∈ heldBy ⟨.tick, tr, send m⟩, Consented s m' := by
      intro m s tr hm m' hm'
      rwa [List.mem_singleton.mp hm']
    cases hp : σ.shared.pending with
    | some m =>
      have htake := takeDue_pending e.now hp
      dsimp only
      rw [htake]
      exact kept_exec h hc trivial h.current (by simp) h.underWay
        fun _ => ⟨hgranted, hsend (h.pending m hp).2⟩
    | none =>
      by_cases hdue : σ.shared.aggregator.windowElapsed e.now
      · have htake := takeDue_window hp hdue
        dsimp only
        rw [htake]
        exact kept_exec h hc trivial (fun _ => consented_empty _) h.pending h.underWay
          fun _ => ⟨hgranted, hsend (h.current hgranted)⟩
      · have htake := takeDue_none hp hdue
        dsimp only
        rw [htake]
        exact kept_look h hc trivial False.elim
  -- and that of what it sends
  | send m =>
    obtain ⟨hgranted, hheld⟩ := h.underWay _ hmem trivial
    have hm : Consented σ.shared m := hheld m (by simp [heldBy])
    cases ha : e.answer with
    | none =>
      simp only [ha]
      exact kept_exec h hc ⟨hgranted, hm⟩ h.current h.pending h.underWay
        False.elim
    | some err =>
      simp only [ha]
      exact kept_look h hc ⟨hgranted, hm⟩ fun _ => ⟨hgranted, hheld⟩
  | restore m err =>
    obtain ⟨hgranted, hheld⟩ := h.underWay _ hmem trivial
    refine kept_exec h hc trivial h.current (fun m' hm' => ?_) h.underWay
      False.elim
    obtain rfl := Option.mem_some_iff.mp hm'
    exact ⟨hgranted, hheld _ (by simp [heldBy])⟩

/-- Nothing has been recorded, with consent or without. -/
structure Unused (s : Controller) : Prop where
  current : s.aggregator.current = .empty
  pending : s.pending = none

lemma Unused.kept {s : Controller} (h : Unused s) : Kept (init s) where
  current _ := h.current ▸ consented_empty s
  pending := by simp [init, h.pending]
  underWay := by simp [init]
  sent := by simp [init]

/-- **Nothing is sent against the user's will**, in every run along the condition: what is handed
to the sender is handed while there is consent, and was recorded with consent after it was last
revoked. -/
theorem reports_consented {s : Controller} (hs : Unused s) {as : List TelemetryAct}
    (has : Along (code pct) Discarded (init s) as) :
    ∀ c ∈ (run (code pct) (init s) as).calls, Every Private c.trace :=
  (run_stages stage_begin stage_next
    (fun σ q _ h => by
      have hno : ¬UnderWay ⟨q, [], code pct q⟩ := by cases q <;> exact id
      refine ⟨h.current, h.pending, fun c hc hway => ?_, fun c hc => ?_⟩
      · rcases List.mem_append.mp hc with hc | hc
        · exact h.underWay c hc hway
        · rw [List.mem_singleton.mp hc] at hway
          exact absurd hway hno
      · rcases List.mem_append.mp hc with hc | hc
        · exact h.sent c hc
        · rw [List.mem_singleton.mp hc]
          exact every_nil)
    (fun _ _ _ _ _ _ _ _ hc hC _ hstage h => kept_step hc hC hstage h) hs.kept has).2.sent

/-- A new controller whose window elapses at once. -/
def unused : Controller := ⟨⟨.empty, 0, 0⟩, .denied, 1, true, "linux", "0.1.0", none, 0, []⟩

/-- The next `n` statements of a call. -/
def steps (i n : ℕ) : List TelemetryAct := List.replicate n (.exec i answered)

/-- What was recorded is delivered before consent is revoked, and then given again. -/
def delivered : List TelemetryAct :=
  .call .grantConsent :: steps 0 1 ++ .call (.record .syncAttempt) :: steps 1 2 ++
  .call .tick :: steps 2 3 ++ .call .revokeConsent :: steps 3 1 ++ .call .grantConsent ::
  steps 4 1 ++ .call (.record (.syncDurationMs 9)) :: steps 5 2 ++ .call .tick :: steps 6 3

/-- Something is recorded, consent is revoked and given again, and a tick sends it. -/
def regranted : List TelemetryAct :=
  .call .grantConsent :: steps 0 1 ++ .call (.record .syncAttempt) :: steps 1 2 ++
  .call .revokeConsent :: steps 2 1 ++ .call .grantConsent :: steps 3 1 ++ .call .tick :: steps 4 3

theorem reports_consented_delivered :
    Unused unused ∧
    ∀ c ∈ (run (code noEstimate) (init unused) delivered).calls, Every Private c.trace :=
  ⟨⟨rfl, rfl⟩, reports_consented ⟨rfl, rfl⟩ (by decide +kernel)⟩

/-- **A revocation keeps the current window**: what was recorded before it is sent after. -/
theorem revoke_keeps_window :
    ¬∀ c ∈ (run (code noEstimate) (init unused) regranted).calls, Every Private c.trace := by
  decide +kernel

end Vautr.TelemetryRuns
