import Vautr.FixedWindow

/-!
The rate limiters of the server (`middleware.rs`): one for each client, and one for each client and
class of routes.

Both keep their counters in one map, by a text. Times are seconds and, as the counts, naturals: the
clock gives fewer than `2 ^ 63` seconds, so the end of a window fits in a `u64`.
-/

namespace Vautr.RateLimits

open Vautr.Sql Vautr.FixedWindow

structure RateInfo where
  limit : ℕ
  remaining : ℕ
  resetUnixSecs : ℕ
  deriving DecidableEq

structure RateLimited where
  retryAfterSecs : ℕ
  deriving DecidableEq

/-- What both limiters answer to the call with this number in its window. -/
def answer (max window now count : ℕ) : Except RateLimited RateInfo :=
  let reset := windowStart window now + window
  if max < count then .error ⟨Nat.max (reset - now) 1⟩ else .ok ⟨max, max - count, reset⟩

/-- The end of a window is a `u64` for every time that the clock can give. -/
lemma reset_lt {window now : ℕ} (hwindow : window < 2 ^ 64) (hnow : now < 2 ^ 63) :
    windowStart window now + window < 2 ^ 64 := by
  by_cases h : now < window
  · have hzero : windowStart window now = 0 := by
      rw [windowStart, Nat.mod_eq_of_lt h, Nat.sub_self]
    omega
  · have := windowStart_le window now
    omega

/-! ### One limit for each client -/

/-- `RateLimiter`, without its counters. -/
structure RateLimiter where
  maxPerWindow : ℕ
  windowSecs : ℕ
  windowSecs_pos : 0 < windowSecs

def RateLimiter.new (maxPerWindow windowSecs : ℕ) : RateLimiter :=
  ⟨maxPerWindow, max windowSecs 1, by omega⟩

def RateLimiter.checkAt (l : RateLimiter) : Check String String RateLimited RateInfo :=
  fun key now s =>
    let r := count 4096 l.windowSecs key now s
    (r.1, answer l.maxPerWindow l.windowSecs now r.2)

/-! ### One limit for each client and class of routes -/

inductive RouteClass
  | auth
  | syncPush
  | syncPull
  | files
  | default
  deriving DecidableEq

def RouteClass.of (path : String) : RouteClass :=
  if path.startsWith "/auth/" then .auth
  else if path.startsWith "/sync/push-batch" then .syncPush
  else if path.startsWith "/sync/" then .syncPull
  else if path.startsWith "/files/" then .files
  else .default

/-- The `Debug` text of a class. -/
def RouteClass.debug : RouteClass → String
  | .auth => "Auth"
  | .syncPush => "SyncPush"
  | .syncPull => "SyncPull"
  | .files => "Files"
  | .default => "Default"

def RouteClass.defaultMax : RouteClass → ℕ
  | .auth => 10
  | .syncPush => 30
  | .syncPull => 600
  | .files => 120
  | .default => 300

def RouteClass.envMax : RouteClass → String
  | .auth => "VAUTR_RATE_AUTH_MAX"
  | .syncPush => "VAUTR_RATE_SYNC_PUSH_MAX"
  | .syncPull => "VAUTR_RATE_SYNC_PULL_MAX"
  | .files => "VAUTR_RATE_FILES_MAX"
  | .default => "VAUTR_RATE_DEFAULT_MAX"

/-- `budget`: the limit and the length of the window. `env` is what the variables of the
environment are parsed to. -/
def RouteClass.budget (env : String → Option ℕ) (c : RouteClass) : ℕ × ℕ :=
  ((env c.envMax).getD c.defaultMax, 60)

/-- The name of a counter: `format!("{class:?}|{client}")`. -/
def counterKey (c : RouteClass × String) : String := c.1.debug ++ "|" ++ c.2

/-- `PerRouteRateLimiter::check`, at the time `now`. -/
def check (env : String → Option ℕ) :
    Check (RouteClass × String) String RateLimited RateInfo :=
  fun c now s =>
    let r := count 8192 (c.1.budget env).2 (counterKey c) now s
    (r.1, answer (c.1.budget env).1 (c.1.budget env).2 now r.2)

/-! ### Both are fair -/

lemma isOk_answer (max window now count : ℕ) :
    (answer max window now count).isOk = decide (count ≤ max) := by
  unfold answer
  by_cases h : max < count
  · have : ¬count ≤ max := by omega
    simp [h, this, Except.isOk, Except.toBool]
  · have : count ≤ max := by omega
    simp [h, this, Except.isOk, Except.toBool]

lemma counts_checkAt (l : RateLimiter) :
    Counts l.checkAt 4096 l.windowSecs (fun _ => l.maxPerWindow) id where
  state _ _ _ := rfl
  isOk _ _ _ := isOk_answer _ _ _ _

lemma counts_check (env : String → Option ℕ) :
    Counts (check env) 8192 60 (fun c => (c.1.budget env).1) counterKey where
  state _ _ _ := rfl
  isOk _ _ _ := isOk_answer _ _ _ _

/-- No class has a `|` in its text. -/
lemma debug_toList_inj {c c' : RouteClass} {client client' : List Char}
    (h : c.debug.toList ++ '|' :: client = c'.debug.toList ++ '|' :: client') :
    c = c' ∧ client = client' := by
  cases c <;> cases c' <;> simp [RouteClass.debug] at h ⊢ <;> exact h

/-- Different pairs of a class and a client have different counters. -/
lemma counterKey_injective : Function.Injective counterKey := by
  rintro ⟨c, client⟩ ⟨c', client'⟩ h
  have hlist := congrArg String.toList h
  simp only [counterKey, String.toList_append] at hlist
  obtain ⟨rfl, hclient⟩ := debug_toList_inj (by simpa using hlist)
  rw [String.toList_inj.mp hclient]

/-- **The limiters are fair**: while time does not run backwards, no client gets more calls through
in a window than its limit, none is refused one before it has made so many, and throwing counters
away resets none of the current window. The limiter of routes is fair to each pair of a class and a
client. -/
theorem limiters_fair :
    (∀ (l : RateLimiter) (calls : List (String × ℕ)), (calls.map (·.2)).Pairwise (· ≤ ·) →
      Fair l.checkAt 4096 l.windowSecs (fun _ => l.maxPerWindow) id calls) ∧
    ∀ (env : String → Option ℕ) (calls : List ((RouteClass × String) × ℕ)),
      (calls.map (·.2)).Pairwise (· ≤ ·) →
        Fair (check env) 8192 60 (fun c => (c.1.budget env).1) counterKey calls := by
  refine ⟨fun l calls hsorted => ?_, fun env calls hsorted => ?_⟩
  · exact fair_of_counts l.windowSecs_pos Function.injective_id (counts_checkAt l) hsorted
  · exact fair_of_counts (by omega) counterKey_injective (counts_check env) hsorted

/-- Two calls in one window, and one in the next. -/
theorem limiters_fair_three :
    Fair (RateLimiter.new 1 60).checkAt 4096 60 (fun _ => 1) id [("a", 5), ("a", 59), ("a", 60)] ∧
    Fair (check fun _ => none) 8192 60 (fun c => (c.1.budget fun _ => none).1) counterKey
      [((.auth, "a"), 5), ((.files, "a"), 59), ((.auth, "a"), 60)] :=
  ⟨limiters_fair.1 (.new 1 60) _ (by decide), limiters_fair.2 _ _ (by decide)⟩

end Vautr.RateLimits
