import Mathlib.Data.List.DropRight
import Vautr.Telemetry

/-!
Histograms that are merged (`aggregate.rs`).

A histogram keeps the last samples for its percentiles. To merge two of them comes to the same as to
record the samples of the second into the first: this holds sample by sample, also when samples are
dropped at the capacity and when the counters stop at their bound.
-/

namespace Vautr.Histograms

open Vautr.Telemetry

/-! ### `aggregate.rs` -/

/-- The nearest rank, in a sorted list that is not empty. -/
def rank (sorted : List ℕ) (p : Float) : ℕ :=
  let n := sorted.length
  let idx := min ((p * Float.ofNat n).ceil.toUInt64.toNat - 1) (n - 1)
  sorted.getD idx 0

def recomputePercentiles (reservoir : List ℕ) : HistogramPercentiles :=
  if reservoir.isEmpty then ⟨none, none, none⟩
  else
    let sorted := reservoir.mergeSort
    ⟨some (rank sorted 0.50), some (rank sorted 0.95), some (rank sorted 0.99)⟩

/-- `Histogram::record`, with the percentiles of the source. -/
abbrev record (h : Histogram) (value : ℕ) : Histogram := h.record recomputePercentiles value

/-- The smaller or the greater one, of what there is. -/
def combine (f : ℕ → ℕ → ℕ) : Option ℕ → Option ℕ → Option ℕ
  | some a, some b => some (f a b)
  | some a, none => some a
  | none, some b => some b
  | none, none => none

def merge (h other : Histogram) : Histogram :=
  let folded := h.reservoir ++ other.reservoir
  let reservoir :=
    if reservoirCap < folded.length then folded.drop (folded.length - reservoirCap) else folded
  ⟨saturatingAdd h.count other.count, saturatingAdd h.sum other.sum,
    combine Nat.min h.min other.min, combine Nat.max h.max other.max,
    recomputePercentiles reservoir, reservoir⟩

/-- The histogram of the samples, recorded one after the other. -/
def recorded (samples : List ℕ) : Histogram := samples.foldl record .empty

/-- Windows that are merged in some grouping. -/
inductive Windows
  | window (samples : List ℕ)
  | merged (a b : Windows)

def Windows.histogram : Windows → Histogram
  | .window samples => recorded samples
  | .merged a b => merge a.histogram b.histogram

def Windows.samples : Windows → List ℕ
  | .window samples => samples
  | .merged a b => a.samples ++ b.samples

/-! ### The last elements of a list -/

section Rtake

variable {α : Type} {n : ℕ}

lemma rtake_of_length_le {l : List α} (h : l.length ≤ n) : l.rtake n = l := by
  rw [List.rtake, Nat.sub_eq_zero_of_le h, List.drop_zero]

lemma length_rtake_le (l : List α) : (l.rtake n).length ≤ n := by
  rw [List.rtake, List.length_drop]
  omega

lemma rtake_rtake_append (xs ys : List α) : (xs.rtake n ++ ys).rtake n = (xs ++ ys).rtake n := by
  by_cases hxs : xs.length ≤ n
  · rw [rtake_of_length_le hxs]
  · simp only [List.rtake, List.length_append, List.length_drop, List.drop_append, List.drop_drop]
    congr 2 <;> omega

lemma rtake_append_rtake (xs ys : List α) : (xs ++ ys.rtake n).rtake n = (xs ++ ys).rtake n := by
  by_cases hys : ys.length ≤ n
  · rw [rtake_of_length_le hys]
  · have hlen : (ys.rtake n).length = n := by
      rw [List.rtake, List.length_drop]
      omega
    have hdrop : ∀ zs : List α, n ≤ zs.length → (xs ++ zs).rtake n = zs.rtake n := by
      intro zs hzs
      rw [List.rtake, List.rtake, List.length_append, List.drop_append,
        List.drop_eq_nil_of_le (by omega), List.nil_append]
      congr 1
      omega
    rw [hdrop _ hlen.ge, hdrop _ (by omega), rtake_of_length_le hlen.le]

/-- A full list drops its first element for a new one. -/
lemma append_singleton_rtake (hn : 0 < n) {l : List α} (h : l.length ≤ n) (x : α) :
    (if n ≤ l.length then l.drop 1 else l) ++ [x] = (l ++ [x]).rtake n := by
  split
  · next hfull =>
    have hone : (l ++ [x]).length - n = 1 := by
      rw [List.length_append, List.length_singleton]
      omega
    rw [List.rtake, hone, List.drop_append_of_le_length (by omega)]
  · next hfree =>
    rw [rtake_of_length_le]
    rw [List.length_append, List.length_singleton]
    omega

end Rtake

/-! ### One sample more -/

/-- What holds of a histogram that samples were recorded in. -/
structure Sound (h : Histogram) : Prop where
  count : h.count ≤ u64Max
  sum : h.sum ≤ u64Max
  reservoir : h.reservoir.length ≤ reservoirCap
  percentiles : h.percentiles = recomputePercentiles h.reservoir

variable {h k : Histogram}

lemma saturatingAdd_assoc (a b c : ℕ) :
    saturatingAdd a (saturatingAdd b c) = saturatingAdd (saturatingAdd a b) c := by
  simp only [saturatingAdd]
  omega

/-- The samples that a histogram keeps are the last ones. -/
lemma reservoir_record (hlen : h.reservoir.length ≤ reservoirCap) (value : ℕ) :
    (record h value).reservoir = (h.reservoir ++ [value]).rtake reservoirCap :=
  append_singleton_rtake (Nat.succ_pos _) hlen value

lemma reservoir_merge (h k : Histogram) :
    (merge h k).reservoir = (h.reservoir ++ k.reservoir).rtake reservoirCap := by
  unfold merge
  dsimp only
  split
  · rfl
  · next hle => rw [rtake_of_length_le (Nat.not_lt.mp hle)]

lemma Sound.record (hh : Sound h) (value : ℕ) : Sound (record h value) where
  count := Nat.min_le_right _ _
  sum := Nat.min_le_right _ _
  reservoir := by
    rw [reservoir_record hh.reservoir]
    exact length_rtake_le _
  percentiles := rfl

lemma recorded_concat (samples : List ℕ) (value : ℕ) :
    recorded (samples ++ [value]) = record (recorded samples) value := List.foldl_concat ..

lemma sound_recorded (samples : List ℕ) : Sound (recorded samples) := by
  induction samples using List.reverseRecOn with
  | nil => exact ⟨Nat.zero_le _, Nat.zero_le _, Nat.zero_le _, rfl⟩
  | append_singleton samples value ih =>
    rw [recorded_concat]
    exact ih.record value

/-- Nothing was recorded in the second one. -/
lemma merge_empty (hh : Sound h) : merge h .empty = h := by
  have hres : (merge h .empty).reservoir = h.reservoir := by
    have hnil : h.reservoir ++ Histogram.empty.reservoir = h.reservoir := List.append_nil _
    rw [reservoir_merge, hnil, rtake_of_length_le hh.reservoir]
  have hpct : (merge h .empty).percentiles = h.percentiles := by
    rw [hh.percentiles, ← hres]
    rfl
  have hcount : saturatingAdd h.count 0 = h.count := Nat.min_eq_left hh.count
  have hsum : saturatingAdd h.sum 0 = h.sum := Nat.min_eq_left hh.sum
  have hmin : combine Nat.min h.min none = h.min := by cases h.min <;> rfl
  have hmax : combine Nat.max h.max none = h.max := by cases h.max <;> rfl
  obtain ⟨count, sum, min, max, percentiles, reservoir⟩ := h
  exact (Histogram.mk.injEq ..).mpr ⟨hcount, hsum, hmin, hmax, hpct, hres⟩

/-- **One sample more** in the second one is one sample more in both together. -/
lemma merge_record (hk : Sound k) (value : ℕ) :
    merge h (record k value) = record (merge h k) value := by
  have hmerged : (merge h k).reservoir.length ≤ reservoirCap := by
    rw [reservoir_merge]
    exact length_rtake_le _
  have hres : (merge h (record k value)).reservoir = (record (merge h k) value).reservoir := by
    rw [reservoir_merge, reservoir_record hk.reservoir, reservoir_record hmerged, reservoir_merge,
      rtake_append_rtake, rtake_rtake_append, List.append_assoc]
  have hpct : (merge h (record k value)).percentiles = (record (merge h k) value).percentiles := by
    change recomputePercentiles _ = recomputePercentiles _
    exact congrArg _ hres
  refine (Histogram.mk.injEq ..).mpr ⟨saturatingAdd_assoc _ _ _, saturatingAdd_assoc _ _ _, ?_, ?_,
    hpct, hres⟩
  · change combine Nat.min h.min (some (k.min.elim value (Nat.min · value))) =
      some ((combine Nat.min h.min k.min).elim value (Nat.min · value))
    cases h.min <;> cases k.min <;> simp [combine, Nat.min_assoc]
  · change combine Nat.max h.max (some (k.max.elim value (Nat.max · value))) =
      some ((combine Nat.max h.max k.max).elim value (Nat.max · value))
    cases h.max <;> cases k.max <;> simp [combine, Nat.max_assoc]

lemma merge_foldl (hh : Sound h) (samples : List ℕ) :
    merge h (recorded samples) = samples.foldl record h := by
  induction samples using List.reverseRecOn with
  | nil => exact merge_empty hh
  | append_singleton samples value ih =>
    rw [recorded_concat, merge_record (sound_recorded samples), List.foldl_concat, ← ih]

/-- **Merging histograms** gives the histogram of all the samples, for two of them and for any
number of them in any grouping. -/
theorem merge_recorded :
    (∀ a b : List ℕ, merge (recorded a) (recorded b) = recorded (a ++ b)) ∧
      ∀ windows : Windows, windows.histogram = recorded windows.samples := by
  have hmerge : ∀ a b : List ℕ, merge (recorded a) (recorded b) = recorded (a ++ b) := by
    intro a b
    rw [merge_foldl (sound_recorded a), recorded, recorded, List.foldl_append]
  refine ⟨hmerge, fun windows => ?_⟩
  induction windows with
  | window samples => rfl
  | merged a b iha ihb => rw [Windows.histogram, iha, ihb, hmerge, Windows.samples]

end Vautr.Histograms
