import Vautr.CrashReports
import Vautr.Words

/-!
The scrubber for a text that is sent with a crash report (`scrub_for_crash_report`).

It goes over the characters and counts the token characters of the run that it is in. At the end of
a long run it writes a mark. The token characters themselves are written nowhere, so a run that is
too short for a mark is lost.
-/

namespace Vautr.CrashText

open Vautr.CrashReports Vautr.Words

/-- `is_ascii_alphanumeric`, or one of five signs. -/
def isTokenChar (c : Char) : Bool :=
  c.isAlphanum || c = '+' || c = '/' || c = '=' || c = '-' || c = '_'

def mark : Text := "[REDACTED]".toList

/-- The variables of the loop. -/
structure Scan where
  out : Text
  tokenLen : ℕ

/-- The mark for the run that ends here, if it is long. -/
def Scan.flush (s : Scan) : Text := if 24 ≤ s.tokenLen then s.out ++ mark else s.out

/-- One turn of the loop. -/
def Scan.step (s : Scan) (c : Char) : Scan :=
  if isTokenChar c then { s with tokenLen := s.tokenLen + 1 } else ⟨s.flush ++ [c], 0⟩

def scrubForCrashReport (raw : Text) : Text := (raw.foldl Scan.step ⟨[], 0⟩).flush

/-! ### What it is to do -/

/-- The run is one of token characters, and long. -/
def isToken (w : Text) : Bool := w.all isTokenChar && 24 ≤ w.length

/-- The text with a mark for each long run of token characters. -/
def redact (raw : Text) : Text :=
  (runs isTokenChar raw).flatMap fun w => if isToken w then mark else w

/-! ### What it does -/

/-- What is written for a run. -/
def written (w : Text) : Text :=
  if w.all isTokenChar then if 24 ≤ w.length then mark else [] else w

lemma foldl_token {w : Text} (hw : ∀ c ∈ w, isTokenChar c = true) (s : Scan) :
    w.foldl Scan.step s = { s with tokenLen := s.tokenLen + w.length } := by
  induction w generalizing s with
  | nil => rfl
  | cons c w ih =>
    have hc : isTokenChar c = true := hw c List.mem_cons_self
    rw [List.foldl_cons, ih (fun x hx => hw x (List.mem_cons_of_mem _ hx)), Scan.step, if_pos hc,
      List.length_cons, Nat.add_assoc, Nat.add_comm 1]

lemma foldl_other {w : Text} (hne : w ≠ []) (hw : ∀ c ∈ w, isTokenChar c = false) (s : Scan) :
    w.foldl Scan.step s = ⟨s.flush ++ w, 0⟩ := by
  induction w generalizing s with
  | nil => exact absurd rfl hne
  | cons c w ih =>
    have hc : ¬isTokenChar c = true := by simp [hw c List.mem_cons_self]
    have hstep : s.step c = ⟨s.flush ++ [c], 0⟩ := if_neg hc
    rw [List.foldl_cons, hstep]
    rcases eq_or_ne w [] with rfl | hw'
    · rfl
    · rw [ih hw' fun x hx => hw x (List.mem_cons_of_mem _ hx)]
      simp [Scan.flush]

lemma written_token {w : Text} (hw : ∀ c ∈ w, isTokenChar c = true) (out : Text) :
    out ++ written w = Scan.flush ⟨out, w.length⟩ := by
  rw [written, if_pos (List.all_eq_true.mpr hw), Scan.flush]
  split
  · rfl
  · exact List.append_nil out

lemma written_other {w : Text} (hne : w ≠ []) (hw : ∀ c ∈ w, isTokenChar c = false) :
    written w = w := by
  obtain ⟨c, w, rfl⟩ := List.exists_cons_of_ne_nil hne
  rw [written, if_neg]
  simp [hw c List.mem_cons_self]

/-- The loop over runs. Before a run of token characters the count is zero. -/
lemma flush_foldl {b : Bool} {ws : List Text} (h : Alternates isTokenChar b ws) :
    ∀ s : Scan, b = false ∨ s.tokenLen = 0 →
      (ws.flatten.foldl Scan.step s).flush = s.flush ++ ws.flatMap written := by
  induction h with
  | nil => simp
  | @cons b w ws hne hw hws ih =>
    intro s hs
    rw [List.flatten_cons, List.foldl_append, List.flatMap_cons, ← List.append_assoc]
    cases b with
    | true =>
      have hzero : s.tokenLen = 0 := hs.resolve_left (by simp)
      have hflush : s.flush = s.out := by simp [Scan.flush, hzero]
      rw [foldl_token hw, ih _ (.inl rfl), hflush, written_token hw, hzero, Nat.zero_add]
    | false =>
      rw [foldl_other hne hw, ih _ (.inr rfl), written_other hne hw]
      simp [Scan.flush]

/-- The scrubber writes something for each run. -/
lemma scrubForCrashReport_eq (raw : Text) :
    scrubForCrashReport raw = (runs isTokenChar raw).flatMap written := by
  obtain ⟨b, h⟩ := runs_alternate isTokenChar raw
  have hloop := flush_foldl h ⟨[], 0⟩ (.inr rfl)
  rw [flatten_runs] at hloop
  exact hloop

/-- What is lost of a run. -/
def lost (w : Text) : ℕ := if w.all isTokenChar ∧ w.length < 24 then w.length else 0

lemma length_written (w : Text) :
    (written w).length + lost w = (if isToken w then mark else w).length := by
  unfold written lost isToken
  by_cases hw : w.all isTokenChar = true
  · by_cases hlen : 24 ≤ w.length
    · simp [hw, hlen, Nat.not_lt.mpr hlen]
    · simp [hw, hlen, Nat.not_le.mp hlen]
  · simp [hw]

lemma length_flatMap_written (ws : List Text) :
    (ws.flatMap written).length + (ws.map lost).sum =
      (ws.flatMap fun w => if isToken w then mark else w).length := by
  induction ws with
  | nil => rfl
  | cons w ws ih =>
    have hw := length_written w
    simp only [List.flatMap_cons, List.length_append, List.map_cons, List.sum_cons] at ih ⊢
    omega

/-- **Scrubbing a text**: the long runs of token characters are replaced by a mark and all else
stays, exactly if the text has no short run of them. -/
theorem scrub_iff_no_short_run (raw : Text) :
    scrubForCrashReport raw = redact raw ↔
      ∀ w ∈ runs isTokenChar raw, w.all isTokenChar → 24 ≤ w.length := by
  obtain ⟨b, h⟩ := runs_alternate isTokenChar raw
  rw [scrubForCrashReport_eq, redact]
  constructor
  · intro heq w hw htoken
    have hsum : ((runs isTokenChar raw).map lost).sum = 0 := by
      have := length_flatMap_written (runs isTokenChar raw)
      rw [heq] at this
      omega
    have hlost : lost w = 0 :=
      List.sum_eq_zero_iff_forall_eq_nat.mp hsum _ (List.mem_map_of_mem hw)
    have hpos : 0 < w.length := List.length_pos_of_ne_nil (h.ne_nil w hw)
    by_contra hshort
    rw [lost, if_pos ⟨htoken, Nat.lt_of_not_le hshort⟩] at hlost
    omega
  · intro hlong
    refine List.flatMap_congr fun w hw => ?_
    unfold written isToken
    by_cases htoken : w.all isTokenChar = true
    · simp [htoken, hlong w hw htoken]
    · simp [htoken]

/-- Of an ordinary sentence the scrubber leaves the blanks. -/
theorem words_lost :
    scrubForCrashReport "vault sync failed".toList ≠ redact "vault sync failed".toList := by
  decide

example : scrubForCrashReport "vault sync failed".toList = "  ".toList := by decide

end Vautr.CrashText
