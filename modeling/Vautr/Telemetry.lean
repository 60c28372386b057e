import Vautr.Database
import Vautr.Interleave

/-!
The telemetry of one installation (`vautr-telemetry`): what is recorded, the window it is
gathered in, and the heartbeat that delivers a window.

A statement is what the code does while it holds a lock. Where it holds the lock of `pending`
and takes another one, nobody else can see `pending` meanwhile, and both are one statement. The
`u64` counters are numbers, with the bound where the code has it; the percentiles of a histogram
are floating-point work on its samples, which is the parameter `pct`.
-/

namespace Vautr.Telemetry

open Vautr.Atomic Vautr.Interleave

/-! ### `consent.rs` -/

inductive Consent
  | denied
  | granted
  deriving DecidableEq

/-! ### `aggregate.rs` -/

structure HistogramPercentiles where
  p50 : Option ℕ
  p95 : Option ℕ
  p99 : Option ℕ
  deriving DecidableEq

abbrev Estimate := List ℕ → HistogramPercentiles

def u64Max : ℕ := 2 ^ 64 - 1

def saturatingAdd (a b : ℕ) : ℕ := min (a + b) u64Max

structure Histogram where
  count : ℕ
  sum : ℕ
  min : Option ℕ
  max : Option ℕ
  percentiles : HistogramPercentiles
  reservoir : List ℕ
  deriving DecidableEq

def Histogram.empty : Histogram := ⟨0, 0, none, none, ⟨none, none, none⟩, []⟩

def reservoirCap : ℕ := 4096

def Histogram.record (pct : Estimate) (h : Histogram) (value : ℕ) : Histogram :=
  let kept := if reservoirCap ≤ h.reservoir.length then h.reservoir.drop 1 else h.reservoir
  ⟨saturatingAdd h.count 1, saturatingAdd h.sum value, some (h.min.elim value (Nat.min · value)),
    some (h.max.elim value (Nat.max · value)), pct (kept ++ [value]), kept ++ [value]⟩

/-- A `BTreeMap<String, u64>`; only what it holds matters, not the order. -/
abbrev Counts := List (String × ℕ)

def Counts.get (m : Counts) (t : String) : ℕ := (m.lookup t).getD 0

/-- `*entry(t).or_insert(0) += 1`, which wraps around. -/
def Counts.bump (t : String) : Counts → Counts
  | [] => [(t, 1)]
  | (t', n) :: m => if t = t' then (t', (n + 1) % 2 ^ 64) :: m else (t', n) :: Counts.bump t m

/-- What can be recorded. -/
inductive Observation
  | syncAttempt
  | syncDurationMs (ms : ℕ)
  | argon2DurationMs (ms : ℕ)
  | aeadDecryptDurationUs (us : ℕ)
  | syncFailure (errorType : String)
  | occConflict (errorType : String)
  | reaperOrphansCleaned
  | quarantineTtlResets
  deriving DecidableEq

/-- An observation that was recorded: the consent there was, and how often it had been
revoked. -/
structure Noted where
  obs : Observation
  consent : Consent
  revokes : ℕ
  deriving DecidableEq

/-- `AggregatedMetrics`. No code reads `noted`: it is what was recorded. -/
structure AggregatedMetrics where
  syncDurationMs : Histogram
  argon2DurationMs : Histogram
  aeadDecryptDurationUs : Histogram
  syncFailureCounts : Counts
  occConflictCounts : Counts
  reaperOrphansCleaned : ℕ
  quarantineTtlResets : ℕ
  syncAttempts : ℕ
  noted : List Noted
  deriving DecidableEq

def AggregatedMetrics.empty : AggregatedMetrics := ⟨.empty, .empty, .empty, [], [], 0, 0, 0, []⟩

section Metrics

variable (pct : Estimate) (m : AggregatedMetrics)

def AggregatedMetrics.recordSyncAttempt : AggregatedMetrics :=
  { m with syncAttempts := saturatingAdd m.syncAttempts 1 }

def AggregatedMetrics.recordSyncDurationMs (ms : ℕ) : AggregatedMetrics :=
  { m with syncDurationMs := m.syncDurationMs.record pct ms }

def AggregatedMetrics.recordArgon2DurationMs (ms : ℕ) : AggregatedMetrics :=
  { m with argon2DurationMs := m.argon2DurationMs.record pct ms }

def AggregatedMetrics.recordAeadDecryptDurationUs (us : ℕ) : AggregatedMetrics :=
  { m with aeadDecryptDurationUs := m.aeadDecryptDurationUs.record pct us }

def AggregatedMetrics.recordSyncFailure (errorType : String) : AggregatedMetrics :=
  { m with syncFailureCounts := m.syncFailureCounts.bump errorType }

def AggregatedMetrics.recordOccConflict (errorType : String) : AggregatedMetrics :=
  { m with occConflictCounts := m.occConflictCounts.bump errorType }

def AggregatedMetrics.incrementReaperOrphansCleaned : AggregatedMetrics :=
  { m with reaperOrphansCleaned := saturatingAdd m.reaperOrphansCleaned 1 }

def AggregatedMetrics.incrementQuarantineTtlResets : AggregatedMetrics :=
  { m with quarantineTtlResets := saturatingAdd m.quarantineTtlResets 1 }

/-- The `record_*` and `increment_*` of `DailyAggregator`. -/
def AggregatedMetrics.record : Observation → AggregatedMetrics
  | .syncAttempt => m.recordSyncAttempt
  | .syncDurationMs ms => m.recordSyncDurationMs pct ms
  | .argon2DurationMs ms => m.recordArgon2DurationMs pct ms
  | .aeadDecryptDurationUs us => m.recordAeadDecryptDurationUs pct us
  | .syncFailure t => m.recordSyncFailure t
  | .occConflict t => m.recordOccConflict t
  | .reaperOrphansCleaned => m.incrementReaperOrphansCleaned
  | .quarantineTtlResets => m.incrementQuarantineTtlResets

/-- The same, and it is noted. -/
def AggregatedMetrics.note (n : Noted) : AggregatedMetrics :=
  { m.record pct n.obs with noted := m.noted ++ [n] }

end Metrics

/-- `DailyAggregator`; an `Instant` is a number of seconds. -/
structure DailyAggregator where
  current : AggregatedMetrics
  windowStartedAt : ℕ
  windowDuration : ℕ

def DailyAggregator.windowElapsed (a : DailyAggregator) (now : ℕ) : Bool :=
  a.windowDuration ≤ now - a.windowStartedAt

def DailyAggregator.rollWindow (a : DailyAggregator) (now : ℕ) :
    DailyAggregator × Option AggregatedMetrics :=
  if !a.windowElapsed now then (a, none)
  else ({ a with current := .empty, windowStartedAt := now }, some a.current)

/-! ### `report.rs` -/

structure WindowMeta where
  windowStartUnixSecs : ℕ
  windowEndUnixSecs : ℕ
  deriving DecidableEq

structure HeartbeatReport where
  installationUuid : ℕ
  osVersion : String
  appVersion : String
  window : WindowMeta
  metrics : AggregatedMetrics
  deriving DecidableEq

/-- `HeartbeatReport::build`, at the time `unix`. -/
def HeartbeatReport.build (unix installationUuid : ℕ) (osVersion appVersion : String)
    (windowDurationSecs : ℕ) (metrics : AggregatedMetrics) : HeartbeatReport :=
  ⟨installationUuid, osVersion, appVersion, ⟨unix - windowDurationSecs, unix⟩, metrics⟩

/-! ### `controller.rs` -/

inductive SendError
  | httpStatus (status : ℕ)
  | transport (msg : String)
  deriving DecidableEq

/-- `Inner`; of the sender, whether there is one. No code reads `revokes` and `delivered`: how
often consent was revoked, and the reports that the sender has delivered. -/
structure Controller where
  aggregator : DailyAggregator
  consent : Consent
  installationUuid : ℕ
  sender : Bool
  osVersion : String
  appVersion : String
  pending : Option AggregatedMetrics
  revokes : ℕ
  delivered : List HeartbeatReport

/-- The clocks, and what the sender answers. -/
structure TelemetryEnv where
  now : ℕ
  unix : ℕ
  answer : Option SendError

/-- The statements; `send` hands a report with these metrics to the sender. -/
inductive TelemetryLabel
  | check
  | write (o : Observation)
  | grant
  | revoke
  | checkTick
  | take
  | send (metrics : AggregatedMetrics)
  | restore (metrics : AggregatedMetrics)

inductive TelemetryReply
  | done
  | tick (r : Except SendError Bool)
  deriving DecidableEq

abbrev TelemetryCode := Prog Controller TelemetryEnv TelemetryLabel TelemetryReply

variable (pct : Estimate)

/-- The aggregator's part of a `record_*`. -/
def write (o : Observation) : TelemetryCode :=
  .stmt (.write o) (fun _ s => { s with aggregator := { s.aggregator with
    current := s.aggregator.current.note pct ⟨o, s.consent, s.revokes⟩ } }) fun _ _ => .ret .done

/-- The `record_*` and `increment_*` of `TelemetryController`. -/
def record (o : Observation) : TelemetryCode :=
  .stmt .check (fun _ s => s) fun _ s =>
    if s.consent = .granted then write pct o else .ret .done

def grantConsent : TelemetryCode :=
  .stmt .grant (fun _ s => { s with consent := .granted }) fun _ _ => .ret .done

def revokeConsent : TelemetryCode :=
  .stmt .revoke (fun _ s => { s with pending := none, consent := .denied, revokes := s.revokes + 1 })
    fun _ _ => .ret .done

/-- The metrics are put back for the next tick. -/
def restore (metrics : AggregatedMetrics) (e : SendError) : TelemetryCode :=
  .stmt (.restore metrics) (fun _ s => { s with pending := some metrics }) fun _ _ =>
    .ret (.tick (.error e))

def window24h : ℕ := 24 * 60 * 60

/-- The report is built and handed to the sender. -/
def send (metrics : AggregatedMetrics) : TelemetryCode :=
  .stmt (.send metrics)
    (fun e s =>
      let report := HeartbeatReport.build e.unix s.installationUuid s.osVersion s.appVersion
        window24h metrics
      if e.answer.isNone then { s with delivered := s.delivered ++ [report] } else s)
    fun e _ => match e.answer with
      | none => .ret (.tick (.ok true))
      | some err => restore metrics err

/-- What is due: the metrics that are pending, or the window if it has elapsed. -/
def Controller.takeDue (s : Controller) (now : ℕ) : Controller × Option AggregatedMetrics :=
  match s.pending with
  | some m => ({ s with pending := none }, some m)
  | none => ({ s with aggregator := (s.aggregator.rollWindow now).1 },
      (s.aggregator.rollWindow now).2)

def take : TelemetryCode :=
  .stmt .take (fun e s => (s.takeDue e.now).1) fun e s =>
    match (s.takeDue e.now).2 with
    | none => .ret (.tick (.ok false))
    | some m => send m

def tick : TelemetryCode :=
  .stmt .checkTick (fun _ s => s) fun _ s =>
    if s.consent = .granted ∧ s.sender then take else .ret (.tick (.ok false))

/-! ### Calls -/

inductive TelemetryCmd
  | record (o : Observation)
  | grantConsent
  | revokeConsent
  | tick
  deriving DecidableEq

def code : TelemetryCmd → TelemetryCode
  | .record o => record pct o
  | .grantConsent => grantConsent
  | .revokeConsent => revokeConsent
  | .tick => tick

abbrev TelemetrySys := Sys TelemetryCmd Controller TelemetryEnv TelemetryLabel TelemetryReply

abbrev TelemetryAct := Interleave.Act TelemetryCmd TelemetryEnv

end Vautr.Telemetry
