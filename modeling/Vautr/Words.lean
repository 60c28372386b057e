import Mathlib.Algebra.Ring.Nat
import Mathlib.Data.List.DropRight
import Mathlib.Data.List.Infix
import Mathlib.Data.List.SplitBy
import Mathlib.Tactic.Common

/-!
A list cut into pieces at its separators, and a list cut into the runs of elements of one kind.

The pieces are not empty and contain no separator. If a function of lists is additive at separators,
its value is put together from its values at the pieces. The runs are all of the list, and are of
the one kind and of the other in turn.
-/

namespace Vautr.Words

variable {α β : Type} {sep : α → Bool}

/-- The longest parts without a separator. -/
def pieces (sep : α → Bool) (l : List α) : List (List α) :=
  (l.splitOnP sep).filter fun w => !w.isEmpty

@[simp] lemma pieces_nil : pieces sep [] = [] := by
  simp [pieces, List.splitOnP_nil]

lemma pieces_append_cons (xs ys : List α) {x : α} (hx : sep x = true) :
    pieces sep (xs ++ x :: ys) = pieces sep xs ++ pieces sep ys := by
  rw [pieces, List.splitOnP_append_cons xs ys hx, List.filter_append]
  rfl

/-- A list without separators is one piece. -/
lemma pieces_of_none {l : List α} (hne : l ≠ []) (h : ∀ x ∈ l, sep x = false) :
    pieces sep l = [l] := by
  rw [pieces, List.splitOnP_eq_singleton h]
  simpa using hne

/-- Either there is no separator, or the list is cut at one. -/
lemma separator_cases (sep : α → Bool) (l : List α) :
    (∀ x ∈ l, sep x = false) ∨ ∃ xs x ys, l = xs ++ x :: ys ∧ sep x = true := by
  by_cases h : ∃ x ∈ l, sep x = true
  · obtain ⟨x, hx, hsep⟩ := h
    obtain ⟨xs, ys, rfl⟩ := List.append_of_mem hx
    exact .inr ⟨xs, x, ys, rfl, hsep⟩
  · refine .inl fun x hx => ?_
    by_contra hsep
    exact h ⟨x, hx, by simpa using hsep⟩

/-- What is additive at separators is put together from the pieces. -/
theorem flatMap_pieces (sep : α → Bool) (f : List α → List β) (hnil : f [] = [])
    (happend : ∀ xs x ys, sep x = true → f (xs ++ x :: ys) = f xs ++ f ys) (l : List α) :
    (pieces sep l).flatMap f = f l := by
  induction hn : l.length using Nat.strong_induction_on generalizing l with
  | _ n ih =>
    rcases separator_cases sep l with hnone | ⟨xs, x, ys, rfl, hx⟩
    · rcases eq_or_ne l [] with rfl | hne
      · simp [hnil]
      · rw [pieces_of_none hne hnone]
        simp
    · have hlen : (xs ++ x :: ys).length = xs.length + ys.length + 1 := by
        rw [List.length_append, List.length_cons]
        omega
      rw [pieces_append_cons xs ys hx, List.flatMap_append, happend xs x ys hx,
        ih xs.length (by omega) xs rfl, ih ys.length (by omega) ys rfl]

lemma pieces_cons {x : α} (hx : sep x = true) (l : List α) :
    pieces sep (x :: l) = pieces sep l := by
  have h := pieces_append_cons [] l hx
  rwa [List.nil_append, pieces_nil, List.nil_append] at h

/-- There is no piece exactly if there are separators only. -/
lemma pieces_eq_nil_iff {l : List α} : pieces sep l = [] ↔ ∀ x ∈ l, sep x = true := by
  constructor
  · intro h x hx
    have hflat := flatMap_pieces sep (fun l => l.filter fun x => !sep x) rfl
      (fun xs x ys hx => by simp [hx]) l
    rw [h, List.flatMap_nil] at hflat
    simpa using List.filter_eq_nil_iff.mp hflat.symm x hx
  · intro h
    induction l with
    | nil => exact pieces_nil
    | cons x l ih =>
      rw [pieces_cons (h x List.mem_cons_self)]
      exact ih fun y hy => h y (List.mem_cons_of_mem _ hy)

/-- Separators at the end make no piece. -/
lemma pieces_append_separators (xs : List α) {ys : List α} (h : ∀ y ∈ ys, sep y = true) :
    pieces sep (xs ++ ys) = pieces sep xs := by
  cases ys with
  | nil => rw [List.append_nil]
  | cons y ys =>
    have hys : pieces sep ys = [] :=
      pieces_eq_nil_iff.mpr fun z hz => h z (List.mem_cons_of_mem _ hz)
    rw [pieces_append_cons xs ys (h y List.mem_cons_self), hys, List.append_nil]

lemma pieces_dropWhile (l : List α) : pieces sep (l.dropWhile sep) = pieces sep l := by
  induction l with
  | nil => rfl
  | cons x l ih =>
    by_cases hx : sep x = true
    · rw [List.dropWhile_cons_of_pos hx, pieces_cons hx, ih]
    · rw [List.dropWhile_cons_of_neg hx]

lemma pieces_rdropWhile (l : List α) : pieces sep (l.rdropWhile sep) = pieces sep l := by
  have hsplit : l.rdropWhile sep ++ l.rtakeWhile sep = l := List.rdropWhile_append_rtakeWhile
  have hseps : ∀ y ∈ l.rtakeWhile sep, sep y = true := fun y hy => List.mem_rtakeWhile_imp hy
  conv_rhs => rw [← hsplit]
  exact (pieces_append_separators _ hseps).symm

/-! ### Runs -/

/-- The longest parts whose elements are of one kind. -/
def runs (kind : α → Bool) (l : List α) : List (List α) := l.splitBy fun a b => kind a == kind b

/-- Runs that are of the one kind and of the other in turn, the first one of the kind `b`. -/
inductive Alternates (kind : α → Bool) : Bool → List (List α) → Prop
  | nil (b : Bool) : Alternates kind b []
  | cons {b : Bool} {w : List α} {ws : List (List α)} (hne : w ≠ []) (hw : ∀ x ∈ w, kind x = b)
      (hws : Alternates kind (!b) ws) : Alternates kind b (w :: ws)

variable {kind : α → Bool}

@[simp] lemma flatten_runs (l : List α) : (runs kind l).flatten = l := List.flatten_splitBy _ l

lemma kind_of_isChain {w : List α} (h : w.IsChain fun x y => kind x == kind y) (hne : w ≠ []) :
    ∀ x ∈ w, kind x = kind (w.head hne) := by
  induction w with
  | nil => exact absurd rfl hne
  | cons a w ih =>
    cases w with
    | nil => simp
    | cons b w =>
      obtain ⟨hab, hchain⟩ := List.isChain_cons_cons.mp h
      intro x hx
      rcases List.mem_cons.mp hx with rfl | hx
      · rfl
      · rw [ih hchain (by simp) x hx, List.head_cons, List.head_cons, beq_iff_eq.mp hab]

lemma alternates_of_isChain {ws : List (List α)} (hne : [] ∉ ws)
    (hkind : ∀ w ∈ ws, w.IsChain fun x y => kind x == kind y)
    (hchange : ws.IsChain fun v w => ∃ hv hw, (kind (v.getLast hv) == kind (w.head hw)) = false) :
    ∀ b, (∀ w ∈ ws.head?, ∀ x ∈ w, kind x = b) → Alternates kind b ws := by
  induction ws with
  | nil => exact fun b _ => .nil b
  | cons w ws ih =>
    intro b hb
    have hw : w ≠ [] := fun h => hne (h ▸ List.mem_cons_self)
    have hwb : ∀ x ∈ w, kind x = b := hb w rfl
    refine .cons hw hwb (ih (fun h => hne (List.mem_cons_of_mem _ h))
      (fun v hv => hkind v (List.mem_cons_of_mem _ hv)) hchange.tail _ ?_)
    intro v hv x hx
    obtain ⟨ws, rfl⟩ : ∃ ws', ws = v :: ws' := by
      cases ws with
      | nil => cases hv
      | cons v' ws => exact ⟨ws, by rw [Option.mem_some.mp hv]⟩
    obtain ⟨⟨hv₁, hv₂, hdiff⟩, -⟩ := List.isChain_cons_cons.mp hchange
    have hlast : kind (w.getLast hv₁) = b := hwb _ (List.getLast_mem _)
    have hx' := kind_of_isChain (hkind v (by simp)) hv₂ x hx
    rw [hx', Bool.eq_not]
    rw [hlast] at hdiff
    exact (beq_eq_false_iff_ne.mp hdiff).symm

/-- **The runs of a list** are of the one kind and of the other in turn. -/
theorem runs_alternate (kind : α → Bool) (l : List α) : ∃ b, Alternates kind b (runs kind l) := by
  have hnil : [] ∉ runs kind l := List.nil_notMem_splitBy _ _
  have hkind : ∀ w ∈ runs kind l, w.IsChain fun x y => kind x == kind y :=
    fun w hw => List.isChain_of_mem_splitBy hw
  have hchange := List.isChain_getLast_head_splitBy (fun a b => kind a == kind b) l
  cases h : runs kind l with
  | nil => exact ⟨true, .nil true⟩
  | cons w ws =>
    have hw : w ∈ runs kind l := by simp [h]
    have hne : w ≠ [] := fun hw' => hnil (hw' ▸ hw)
    refine ⟨kind (w.head hne), ?_⟩
    rw [← h]
    refine alternates_of_isChain hnil hkind hchange _ fun v hv x hx => ?_
    obtain rfl : w = v := by simpa [h] using hv
    exact kind_of_isChain (hkind w hw) hne x hx

lemma Alternates.ne_nil {b : Bool} {ws : List (List α)} (h : Alternates kind b ws) :
    ∀ w ∈ ws, w ≠ [] := by
  induction h with
  | nil => simp
  | cons hne _ _ ih => exact List.forall_mem_cons.mpr ⟨hne, ih⟩

end Vautr.Words
