import Mathlib.Algebra.Ring.Nat
import Mathlib.Data.Fintype.Card
import Mathlib.Data.List.Forall2
import Mathlib.Data.List.GetD
import Mathlib.Data.List.Perm.Basic
import Mathlib.Data.Nat.Notation
import Mathlib.Tactic.Common

/-!
The password generator of the client SDK (`generator.ts`).

The random words are a list that the generator takes from; a list is long enough if it returns. The
quotient of two numbers up to `2 ^ 32` is rounded to a double that has the same integral part, so
the limit of the rejection sampling is that of the natural numbers.
-/

namespace Vautr.Generator

/-! ### Computations that draw words -/

/-- An element of a `Uint32Array`. -/
abbrev Word := Fin (2 ^ 32)

/-- Takes words from the list, and does not return if there are not enough. -/
abbrev Draw := StateT (List Word) Option

/-- All that the computation can return. -/
def Always {α : Type} (x : Draw α) (P : α → Prop) : Prop :=
  ∀ words a rest, x words = some (a, rest) → P a

section Always

variable {α β : Type} {P : α → Prop} {Q : β → Prop}

lemma always_pure {a : α} (h : P a) : Always (pure a) P := by
  intro words b rest hb
  obtain ⟨rfl, -⟩ := Prod.mk.inj (Option.some.inj hb)
  exact h

lemma always_bind {x : Draw α} {f : α → Draw β} (hx : Always x P) (hf : ∀ a, P a → Always (f a) Q) :
    Always (x >>= f) Q := by
  intro words b rest hb
  obtain ⟨⟨a, rest'⟩, ha, hb⟩ := Option.bind_eq_some_iff.mp hb
  exact hf a (hx words a rest' ha) rest' b rest hb

lemma Always.mono {x : Draw α} {P' : α → Prop} (hx : Always x P) (h : ∀ a, P a → P' a) :
    Always x P' := fun words a rest ha => h a (hx words a rest ha)

end Always

/-! ### Random numbers -/

/-- The words from here on are rejected. -/
def limit (max : ℕ) : ℕ := 2 ^ 32 / max * max

/-- The loop: the first word below the limit. -/
def draw (max : ℕ) : Draw ℕ
  | [] => none
  | word :: words => if limit max ≤ word then draw max words else some (word % max, words)

def secureRandomInt (max : ℕ) : Draw ℕ := if max = 0 then pure 0 else draw max

/-- The words that are accepted for the value `v`. -/
def acceptedFor (max v : ℕ) : Finset Word :=
  Finset.univ.filter fun word => word < limit max ∧ word % max = v

lemma limit_le (max : ℕ) : limit max ≤ 2 ^ 32 := Nat.div_mul_le_self _ _

lemma le_limit {max : ℕ} (hpos : 0 < max) (hle : max ≤ 2 ^ 32) : max ≤ limit max :=
  Nat.le_mul_of_pos_left _ (Nat.div_pos hle hpos)

lemma always_draw {max : ℕ} (hpos : 0 < max) : Always (draw max) (· < max) := by
  intro words v rest h
  induction words with
  | nil => cases h
  | cons word words ih =>
    rw [draw] at h
    split at h
    · exact ih h
    · obtain ⟨rfl, -⟩ := Prod.mk.inj (Option.some.inj h)
      exact Nat.mod_lt _ hpos

lemma always_secureRandomInt {max : ℕ} (hpos : 0 < max) :
    Always (secureRandomInt max) (· < max) := by
  rw [secureRandomInt, if_neg hpos.ne']
  exact always_draw hpos

/-- A word is taken for each number that is drawn. -/
lemma length_of_draw {max v : ℕ} {words rest : List Word} (h : draw max words = some (v, rest)) :
    rest.length < words.length := by
  induction words with
  | nil => cases h
  | cons word words ih =>
    rw [draw] at h
    split at h
    · exact (ih h).trans (Nat.lt_succ_self _)
    · obtain ⟨-, rfl⟩ := Prod.mk.inj (Option.some.inj h)
      exact Nat.lt_succ_self _

section Words

variable {max v : ℕ} {word : Word} {words : List Word}

/-- A word that is accepted for a value gives this value, and no other word does. -/
lemma secureRandomInt_cons_iff (hpos : 0 < max) :
    secureRandomInt max (word :: words) = some (v, words) ↔ word ∈ acceptedFor max v := by
  rw [secureRandomInt, if_neg hpos.ne', draw, acceptedFor, Finset.mem_filter_univ]
  split
  · next hlimit =>
    refine iff_of_false (fun h => ?_) fun h => absurd h.1 (Nat.not_lt.mpr hlimit)
    exact absurd (length_of_draw h) (lt_irrefl _)
  · next hlimit => simp [Nat.not_le.mp hlimit]

/-- A word that is accepted for no value is passed over. -/
lemma secureRandomInt_cons_of_rejected (hpos : 0 < max) (h : ∀ v, word ∉ acceptedFor max v) :
    secureRandomInt max (word :: words) = secureRandomInt max words := by
  have hlimit : limit max ≤ word := by
    by_contra hlt
    exact h _ (Finset.mem_filter.mpr ⟨Finset.mem_univ _, Nat.not_le.mp hlt, rfl⟩)
  rw [secureRandomInt, if_neg hpos.ne', draw, if_pos hlimit]

/-- A value below the bound is drawn by the word of the same number. -/
lemma mem_acceptedFor_self (hle : max ≤ 2 ^ 32) (hv : v < max) :
    (⟨v, hv.trans_le hle⟩ : Word) ∈ acceptedFor max v :=
  Finset.mem_filter.mpr ⟨Finset.mem_univ _,
    hv.trans_le (le_limit (Nat.zero_lt_of_lt hv) hle), Nat.mod_eq_of_lt hv⟩

/-- The accepted words for a value are one in each block of `max` words. -/
lemma card_acceptedFor (hv : v < max) : (acceptedFor max v).card = 2 ^ 32 / max := by
  have hpos : 0 < max := Nat.zero_lt_of_lt hv
  have hlt : ∀ q < 2 ^ 32 / max, q * max + v < limit max := by
    intro q hq
    calc q * max + v < q * max + max := Nat.add_lt_add_left hv _
      _ = (q + 1) * max := (Nat.succ_mul q max).symm
      _ ≤ limit max := Nat.mul_le_mul_right _ hq
  rw [← Finset.card_range (2 ^ 32 / max)]
  symm
  refine Finset.card_bij (fun q hq => ⟨q * max + v,
    (hlt q (Finset.mem_range.mp hq)).trans_le (limit_le max)⟩) ?_ ?_ ?_
  · intro q hq
    refine Finset.mem_filter.mpr ⟨Finset.mem_univ _, hlt q (Finset.mem_range.mp hq), ?_⟩
    change (q * max + v) % max = v
    rw [Nat.mul_comm, Nat.mul_add_mod, Nat.mod_eq_of_lt hv]
  · intro q hq q' hq' heq
    have hval : q * max + v = q' * max + v := congrArg Fin.val heq
    exact Nat.eq_of_mul_eq_mul_right hpos (Nat.add_right_cancel hval)
  · intro word hword
    obtain ⟨-, hlimit, hmod⟩ := Finset.mem_filter.mp hword
    refine ⟨word / max, Finset.mem_range.mpr ?_, Fin.ext ?_⟩
    · exact Nat.div_lt_of_lt_mul (Nat.mul_comm max _ ▸ hlimit)
    · change (word : ℕ) / max * max + v = word
      rw [← hmod]
      exact Nat.div_add_mod' _ _

end Words

/-! ### The shuffle -/

section Shuffle

variable {α β : Type}

/-- `parts[i]` and `parts[j]` change places. -/
def swap [Inhabited α] (parts : List α) (i j : ℕ) : List α :=
  let a := parts.getD i default
  let b := parts.getD j default
  (parts.set i b).set j a

/-- The loop of the shuffle, from the index `i` down to 1. -/
def shuffleLoop [Inhabited α] : ℕ → List α → Draw (List α)
  | 0, parts => pure parts
  | i + 1, parts => do
    let j ← secureRandomInt (i + 2)
    shuffleLoop i (swap parts (i + 1) j)

/-- The indices that the loop draws. -/
def indices : ℕ → Draw (List ℕ)
  | 0 => pure []
  | i + 1 => do
    let j ← secureRandomInt (i + 2)
    let js ← indices i
    return j :: js

/-- What the loop does when these are the indices it draws. -/
def shuffleBy [Inhabited α] : ℕ → List ℕ → List α → List α
  | i + 1, j :: js, parts => shuffleBy i js (swap parts (i + 1) j)
  | _, _, parts => parts

/-- The indices that the loop can draw. -/
def IsDraws : ℕ → List ℕ → Prop
  | 0, js => js = []
  | _ + 1, [] => False
  | i + 1, j :: js => j < i + 2 ∧ IsDraws i js

lemma always_indices (i : ℕ) : Always (indices i) (IsDraws i) := by
  induction i with
  | zero => exact always_pure rfl
  | succ i ih =>
    refine always_bind (always_secureRandomInt (Nat.succ_pos _)) fun j hj => ?_
    exact always_bind ih fun js hjs => always_pure ⟨hj, hjs⟩

/-- The loop draws its indices and swaps as they say. -/
lemma shuffleLoop_eq [Inhabited α] (i : ℕ) (parts : List α) :
    shuffleLoop i parts = (shuffleBy i · parts) <$> indices i := by
  induction i generalizing parts with
  | zero => rfl
  | succ i ih =>
    simp only [shuffleLoop, indices, ih, map_bind, bind_pure_comp, Functor.map_map, shuffleBy]

variable [Inhabited α] {i : ℕ} {js : List ℕ}

lemma length_swap (l : List α) (i j : ℕ) : (swap l i j).length = l.length := by
  simp [swap]

lemma swap_append {l : List α} {j : ℕ} (hi : i < l.length) (hj : j < l.length) (t : List α) :
    swap (l ++ t) i j = swap l i j ++ t := by
  simp only [swap, List.getD_append _ _ _ _ hi, List.getD_append _ _ _ _ hj]
  rw [List.set_append_left _ _ hi, List.set_append_left _ _ (by simpa using hj)]

lemma swap_perm {l : List α} {j : ℕ} (hi : i < l.length) (hj : j < l.length) :
    (swap l i j).Perm l := by
  simp only [swap, List.getD_eq_getElem _ _ hi, List.getD_eq_getElem _ _ hj]
  exact List.set_set_perm hi hj

/-- The last element changes places. -/
lemma swap_last (m : List α) (y : α) {j : ℕ} (hj : j ≤ m.length) :
    swap (m ++ [y]) m.length j = m.set j y ++ [(m ++ [y]).getD j default] := by
  have hy : (m ++ [y]).getD m.length default = y := by simp
  simp only [swap, hy]
  rw [List.set_append_right _ _ le_rfl, Nat.sub_self, List.set_cons_zero]
  rcases hj.lt_or_eq with hlt | rfl
  · rw [List.set_append_left _ _ hlt]
  · rw [List.set_append_right _ _ le_rfl, Nat.sub_self, List.set_cons_zero, hy,
      List.set_eq_of_length_le le_rfl]

lemma shuffleBy_append (hjs : IsDraws i js) {l : List α} (hi : i < l.length) (t : List α) :
    shuffleBy i js (l ++ t) = shuffleBy i js l ++ t := by
  induction i generalizing js l with
  | zero => rfl
  | succ i ih =>
    cases js with
    | nil => exact hjs.elim
    | cons j js =>
      obtain ⟨hj, hjs⟩ := hjs
      have hlen := length_swap l (i + 1) j
      simp only [shuffleBy]
      rw [swap_append hi (by omega), ih hjs (by omega)]

lemma shuffleBy_perm (hjs : IsDraws i js) {l : List α} (hi : i < l.length) :
    (shuffleBy i js l).Perm l := by
  induction i generalizing js l with
  | zero => exact .refl _
  | succ i ih =>
    cases js with
    | nil => exact hjs.elim
    | cons j js =>
      obtain ⟨hj, hjs⟩ := hjs
      have hlen := length_swap l (i + 1) j
      exact (ih hjs (by omega)).trans (swap_perm hi (by omega))

/-- The elements are moved as their places are. -/
lemma shuffleBy_map [Inhabited β] (f : α → β) (hjs : IsDraws i js) {l : List α}
    (hi : i < l.length) : shuffleBy i js (l.map f) = (shuffleBy i js l).map f := by
  induction i generalizing js l with
  | zero => rfl
  | succ i ih =>
    cases js with
    | nil => exact hjs.elim
    | cons j js =>
      obtain ⟨hj, hjs⟩ := hjs
      have hlen := length_swap l (i + 1) j
      have hswap : swap (l.map f) (i + 1) j = (swap l (i + 1) j).map f := by
        have hget : ∀ k < l.length, (l.map f).getD k default = f (l.getD k default) := by
          intro k hk
          simp [List.getD, List.getElem?_eq_getElem hk]
        simp only [swap, List.map_set, hget _ hi, hget j (by omega)]
      simp only [shuffleBy]
      rw [hswap, ih hjs (by omega)]

/-- **Each permutation** of different elements is what exactly one list of indices makes. -/
lemma existsUnique_draws {l l' : List α} (hlen : l.length = i + 1) (hl : l.Nodup)
    (hperm : l'.Perm l) : ∃! js, IsDraws i js ∧ shuffleBy i js l = l' := by
  induction i generalizing l l' with
  | zero =>
    obtain ⟨a, rfl⟩ := List.length_eq_one_iff.mp hlen
    exact ⟨[], ⟨rfl, (List.perm_singleton.mp hperm).symm⟩, fun js hjs => hjs.1⟩
  | succ i ih =>
    obtain ⟨m, y, rfl⟩ : ∃ m y, l = m ++ [y] :=
      ⟨l.dropLast, l.getLast (by rintro rfl; cases hlen), (List.dropLast_append_getLast _).symm⟩
    obtain ⟨m', x, rfl⟩ : ∃ m' x, l' = m' ++ [x] := by
      have hne : l' ≠ [] := by
        rintro rfl
        simpa using hperm.length_eq
      exact ⟨l'.dropLast, l'.getLast hne, (List.dropLast_append_getLast _).symm⟩
    have hm : m.length = i + 1 := by simpa using hlen
    -- the last element of the result says which index is drawn first
    obtain ⟨j, hj, hget⟩ := List.mem_iff_getElem.mp (hperm.subset (by simp : x ∈ m' ++ [x]))
    have hj' : j ≤ m.length := by simpa using Nat.lt_succ_iff.mp (by simpa using hj)
    have hfirst : ∀ k, k < i + 2 → swap (m ++ [y]) (i + 1) k =
        m.set k y ++ [(m ++ [y]).getD k default] := fun k hk => by
      rw [← hm]
      exact swap_last m y (by omega)
    have hx : (m ++ [y]).getD j default = x := by rw [List.getD_eq_getElem _ _ hj, hget]
    have hset : (m.set j y ++ [x]).Perm (m ++ [y]) := by
      rw [← hx, ← hfirst j (by omega)]
      exact swap_perm (by simp [hm]) hj
    -- the other elements are a permutation of what the first swap has left
    have hrest : m'.Perm (m.set j y) :=
      (List.perm_append_right_iff [x]).mp (hperm.trans hset.symm)
    have hnodup : (m.set j y).Nodup := (hset.nodup_iff.mpr hl).of_append_left
    obtain ⟨js, ⟨hjs, hmake⟩, hunique⟩ := ih (by simpa using hm) hnodup hrest
    refine ⟨j :: js, ⟨⟨by omega, hjs⟩, ?_⟩, ?_⟩
    · rw [shuffleBy, hfirst j (by omega), hx, shuffleBy_append hjs (by simp [hm]), hmake]
    · -- other indices would put another element last, or arrange the rest differently
      rintro (_ | ⟨k, ks⟩) ⟨hks, hmake'⟩
      · exact hks.elim
      obtain ⟨hk, hks⟩ := hks
      rw [shuffleBy, hfirst k hk, shuffleBy_append hks (by simp [hm])] at hmake'
      obtain ⟨hinit, hlast⟩ := List.append_inj' hmake' rfl
      have hkj : k = j := by
        have hklt : k < (m ++ [y]).length := by
          rw [List.length_append, List.length_singleton]
          omega
        rw [List.getD_eq_getElem _ _ hklt, List.cons.injEq] at hlast
        exact (hl.getElem_inj_iff).mp (hlast.1.trans hget.symm)
      subst hkj
      rw [hunique ks ⟨hks, hinit⟩]

/-- The loop returns what the indices it draws make of the elements. -/
lemma shuffleLoop_eq_some_iff (parts : List α) {words rest : List Word} {out : List α} :
    shuffleLoop i parts words = some (out, rest) ↔
      ∃ js, indices i words = some (js, rest) ∧ out = shuffleBy i js parts := by
  rw [shuffleLoop_eq]
  change (indices i words).bind _ = _ ↔ _
  rw [Option.bind_eq_some_iff]
  constructor
  · rintro ⟨⟨js, rest'⟩, hdraw, heq⟩
    obtain ⟨rfl, rfl⟩ := Prod.mk.inj (Option.some.inj heq)
    exact ⟨js, hdraw, rfl⟩
  · rintro ⟨js, hdraw, rfl⟩
    exact ⟨(js, rest), hdraw, rfl⟩

/-- All indices below their bounds can be drawn. -/
lemma indices_of_draws (hjs : IsDraws i js) (hi : i < 2 ^ 32) :
    ∃ words, indices i words = some (js, []) := by
  induction i generalizing js with
  | zero => exact ⟨[], by rw [show js = [] from hjs]; rfl⟩
  | succ i ih =>
    cases js with
    | nil => exact hjs.elim
    | cons j js =>
      obtain ⟨hj, hjs⟩ := hjs
      obtain ⟨words, hwords⟩ := ih hjs (by omega)
      have hword := mem_acceptedFor_self (show i + 2 ≤ 2 ^ 32 by omega) hj
      refine ⟨⟨j, by omega⟩ :: words, ?_⟩
      change (secureRandomInt (i + 2) _).bind _ = _
      rw [(secureRandomInt_cons_iff (Nat.succ_pos _)).mpr hword]
      change (indices i words).bind _ = _
      rw [hwords]
      rfl

/-- Whatever the elements, they are moved as their places are. -/
lemma shuffleBy_eq (parts : List α) (hjs : IsDraws (parts.length - 1) js) :
    shuffleBy (parts.length - 1) js parts =
      (shuffleBy (parts.length - 1) js (List.range parts.length)).map (parts.getD · default) := by
  have hparts : (List.range parts.length).map (parts.getD · default) = parts := by
    refine List.ext_getElem (by simp) fun k hk hk' => ?_
    simp [hk']
  rcases eq_or_ne parts [] with rfl | hne
  · rw [show js = [] from hjs]
    rfl
  · have hpos := List.length_pos_of_ne_nil hne
    rw [← shuffleBy_map _ hjs (by rw [List.length_range]; omega), hparts]

lemma existsUnique_places {n : ℕ} {places : List ℕ} (h : places.Perm (List.range n)) :
    ∃! js, IsDraws (n - 1) js ∧ shuffleBy (n - 1) js (List.range n) = places := by
  cases n with
  | zero => exact ⟨[], ⟨rfl, (List.perm_nil.mp h).symm⟩, fun js hjs => hjs.1⟩
  | succ n => exact existsUnique_draws List.length_range List.nodup_range h

end Shuffle

/-! ### The generator -/

abbrev Text := List Char

/-- The keys of `CHARSETS`. -/
inductive CharClass
  | upper
  | lower
  | digits
  | symbols
  deriving DecidableEq

/-- `CHARSETS`. -/
def charset : CharClass → Text
  | .upper => "ABCDEFGHIJKLMNOPQRSTUVWXYZ".toList
  | .lower => "abcdefghijklmnopqrstuvwxyz".toList
  | .digits => "0123456789".toList
  | .symbols => "!@#$%^&*()-_=+[]\x7b\x7d;:,.<>?".toList

def ambiguous : Text := "0O1lI|".toList

structure GeneratorOptions where
  length : Option ℕ
  upper : Option Bool
  lower : Option Bool
  digits : Option Bool
  symbols : Option Bool
  excludeAmbiguous : Option Bool

/-- `Required<GeneratorOptions>`. -/
structure RequiredOptions where
  length : ℕ
  upper : Bool
  lower : Bool
  digits : Bool
  symbols : Bool
  excludeAmbiguous : Bool

def defaultOptions : RequiredOptions := ⟨20, true, true, true, true, true⟩

/-- `{ ...DEFAULT_OPTIONS, ...options }`. -/
def GeneratorOptions.withDefaults (o : GeneratorOptions) : RequiredOptions where
  length := o.length.getD defaultOptions.length
  upper := o.upper.getD defaultOptions.upper
  lower := o.lower.getD defaultOptions.lower
  digits := o.digits.getD defaultOptions.digits
  symbols := o.symbols.getD defaultOptions.symbols
  excludeAmbiguous := o.excludeAmbiguous.getD defaultOptions.excludeAmbiguous

namespace RequiredOptions

def has (opts : RequiredOptions) : CharClass → Bool
  | .upper => opts.upper
  | .lower => opts.lower
  | .digits => opts.digits
  | .symbols => opts.symbols

/-- The classes that are enabled. -/
def enabled (opts : RequiredOptions) : List CharClass :=
  [.upper, .lower, .digits, .symbols].filter opts.has

/-- The characters without the ambiguous ones, if these are excluded. -/
def clear (opts : RequiredOptions) (chars : Text) : Text :=
  if opts.excludeAmbiguous then chars.filter (· ∉ ambiguous) else chars

end RequiredOptions

/-- `chars[i] ?? ''`. -/
def charAt (chars : Text) (i : ℕ) : Text := chars[i]?.toList

/-- The loop that takes one character of each enabled class. -/
def guarantee (opts : RequiredOptions) : List CharClass → List Text → Draw (List Text)
  | [], parts => pure parts
  | k :: ks, parts => do
    let chars := opts.clear (charset k)
    if 0 < chars.length then
      let i ← secureRandomInt chars.length
      guarantee opts ks (parts ++ [charAt chars i])
    else guarantee opts ks parts

/-- The loop that fills up, with so many turns to go; each makes the list longer by one. -/
def fill (filtered : Text) : ℕ → List Text → Draw (List Text)
  | 0, parts => pure parts
  | n + 1, parts => do
    let i ← secureRandomInt filtered.length
    fill filtered n (parts ++ [charAt filtered i])

def generatePassword (options : GeneratorOptions) : Draw Text :=
  let opts := options.withDefaults
  if opts.enabled.isEmpty then pure []
  else do
    let filtered := opts.clear (opts.enabled.flatMap charset)
    let parts ← guarantee opts opts.enabled []
    let parts ← fill filtered (opts.length - parts.length) parts
    let parts ← shuffleLoop (parts.length - 1) parts
    return parts.flatten

/-! ### What it generates -/

/-- What a password is to be: as long as asked, or as there are classes, of the characters of the
enabled classes, and with one of each. -/
structure Meets (opts : RequiredOptions) (password : Text) : Prop where
  length : password.length = max opts.length opts.enabled.length
  allowed : ∀ c ∈ password, ∃ k ∈ opts.enabled, c ∈ opts.clear (charset k)
  each : ∀ k ∈ opts.enabled, ∃ c ∈ password, c ∈ opts.clear (charset k)

variable {opts : RequiredOptions}

lemma length_clear_pos (opts : RequiredOptions) (k : CharClass) :
    0 < (opts.clear (charset k)).length := by
  unfold RequiredOptions.clear
  cases opts.excludeAmbiguous <;> cases k <;> decide

lemma mem_clear {chars : Text} {c : Char} :
    c ∈ opts.clear chars ↔ c ∈ chars ∧ (opts.excludeAmbiguous = true → c ∉ ambiguous) := by
  unfold RequiredOptions.clear
  split
  · next h => simp [h]
  · next h => simp [h]

/-- A character is drawn of those there are. -/
lemma charAt_eq {chars : Text} {i : ℕ} (hi : i < chars.length) :
    ∃ c ∈ chars, charAt chars i = [c] :=
  ⟨chars[i], List.getElem_mem hi, by rw [charAt, List.getElem?_eq_getElem hi, Option.toList_some]⟩

lemma always_guarantee (ks : List CharClass) (parts : List Text) :
    Always (guarantee opts ks parts) fun out => ∃ cs : Text,
      out = parts ++ cs.map ([·]) ∧ List.Forall₂ (fun k c => c ∈ opts.clear (charset k)) ks cs := by
  induction ks generalizing parts with
  | nil => exact always_pure ⟨[], (List.append_nil parts).symm, .nil⟩
  | cons k ks ih =>
    have hpos := length_clear_pos opts k
    rw [guarantee, if_pos hpos]
    refine always_bind (always_secureRandomInt hpos) fun i hi => ?_
    obtain ⟨c, hc, hchar⟩ := charAt_eq hi
    refine (ih _).mono ?_
    rintro out ⟨cs, rfl, hcs⟩
    exact ⟨c :: cs, by rw [hchar, List.map_cons, List.append_assoc, List.singleton_append],
      .cons hc hcs⟩

lemma always_fill {filtered : Text} (hpos : 0 < filtered.length) (n : ℕ) (parts : List Text) :
    Always (fill filtered n parts) fun out => ∃ cs : Text,
      out = parts ++ cs.map ([·]) ∧ cs.length = n ∧ ∀ c ∈ cs, c ∈ filtered := by
  induction n generalizing parts with
  | zero => exact always_pure ⟨[], (List.append_nil parts).symm, rfl, by simp⟩
  | succ n ih =>
    refine always_bind (always_secureRandomInt hpos) fun i hi => ?_
    obtain ⟨c, hc, hchar⟩ := charAt_eq hi
    refine (ih _).mono ?_
    rintro out ⟨cs, rfl, rfl, hcs⟩
    exact ⟨c :: cs, by rw [hchar, List.map_cons, List.append_assoc, List.singleton_append], rfl,
      List.forall_mem_cons.mpr ⟨hc, hcs⟩⟩

lemma flatten_singletons (cs : Text) : (cs.map ([·])).flatten = cs := by
  induction cs with
  | nil => rfl
  | cons c cs ih => rw [List.map_cons, List.flatten_cons, ih, List.singleton_append]

/-- A shuffle of characters is a permutation of them. -/
lemma always_shuffle (cs : Text) :
    Always (shuffleLoop ((cs.map ([·])).length - 1) (cs.map ([·]))) fun out =>
      out.flatten.Perm cs := by
  intro words out rest hout
  obtain ⟨js, hdraw, rfl⟩ := (shuffleLoop_eq_some_iff _).mp hout
  have hjs := always_indices _ _ _ _ hdraw
  rcases eq_or_ne cs [] with rfl | hne
  · rw [show js = [] from hjs]
    exact .refl _
  · have hlt : (cs.map ([·])).length - 1 < (cs.map ([·])).length := by
      have := List.length_pos_of_ne_nil hne
      rw [List.length_map]
      omega
    have hperm := (shuffleBy_perm hjs hlt).flatten
    rwa [flatten_singletons] at hperm

lemma exists_of_forall₂ {α β : Type} {R : α → β → Prop} {as : List α} {bs : List β}
    (h : List.Forall₂ R as bs) : (∀ a ∈ as, ∃ b ∈ bs, R a b) ∧ ∀ b ∈ bs, ∃ a ∈ as, R a b := by
  induction h with
  | nil => simp
  | cons hab _ ih =>
    simp only [List.forall_mem_cons, List.exists_mem_cons_iff]
    exact ⟨⟨.inl hab, fun a ha => .inr (ih.1 a ha)⟩, .inl hab, fun b hb => .inr (ih.2 b hb)⟩

lemma mem_filtered {c : Char} (hc : c ∈ opts.clear (opts.enabled.flatMap charset)) :
    ∃ k ∈ opts.enabled, c ∈ opts.clear (charset k) := by
  obtain ⟨hmem, hclear⟩ := mem_clear.mp hc
  obtain ⟨k, hk, hck⟩ := List.mem_flatMap.mp hmem
  exact ⟨k, hk, mem_clear.mpr ⟨hck, hclear⟩⟩

/-- A password is what it is to be. -/
lemma always_generatePassword {options : GeneratorOptions}
    (h : options.withDefaults.enabled ≠ []) :
    Always (generatePassword options) (Meets options.withDefaults) := by
  unfold generatePassword
  generalize options.withDefaults = opts at h
  obtain ⟨k, hk⟩ := List.exists_mem_of_ne_nil _ h
  have hpos : 0 < (opts.clear (opts.enabled.flatMap charset)).length := by
    obtain ⟨c, hc⟩ := List.exists_mem_of_length_pos (length_clear_pos opts k)
    obtain ⟨hmem, hclear⟩ := mem_clear.mp hc
    exact List.length_pos_of_mem (mem_clear.mpr ⟨List.mem_flatMap.mpr ⟨k, hk, hmem⟩, hclear⟩)
  dsimp only
  rw [if_neg (by simpa using h)]
  refine always_bind (always_guarantee _ _) ?_
  rintro _ ⟨first, rfl, hfirst⟩
  refine always_bind (always_fill hpos _ _) ?_
  rintro _ ⟨more, rfl, hmore, hfiltered⟩
  rw [List.nil_append, ← List.map_append]
  refine always_bind (always_shuffle (first ++ more)) fun out hperm => always_pure ?_
  rw [List.nil_append, List.length_map] at hmore
  have hlen : first.length = opts.enabled.length := hfirst.length_eq.symm
  refine ⟨?_, fun c hc => ?_, fun k hk => ?_⟩
  · rw [hperm.length_eq, List.length_append, hmore, hlen]
    omega
  · rcases List.mem_append.mp (hperm.mem_iff.mp hc) with hc | hc
    · exact (exists_of_forall₂ hfirst).2 c hc
    · exact mem_filtered (hfiltered c hc)
  · obtain ⟨c, hc, hck⟩ := (exists_of_forall₂ hfirst).1 k hk
    exact ⟨c, hperm.mem_iff.mpr (List.mem_append_left _ hc), hck⟩

/-- **The generator**: a password is as long as it is to be, of the enabled characters and with one
of each class; a random number is below its bound, it is drawn by the words that are accepted for
it, which are equally many for each one, and other words are passed over; and the shuffle permutes
the places by the indices that it draws, each permutation being made by one sequence of indices,
which can be drawn. -/
theorem generator_sound :
    (∀ options : GeneratorOptions, options.withDefaults.enabled ≠ [] →
      ∀ words password rest, generatePassword options words = some (password, rest) →
        Meets options.withDefaults password) ∧
    (∀ max, 0 < max → max ≤ 2 ^ 32 →
      (∀ words v rest, secureRandomInt max words = some (v, rest) → v < max) ∧
      (∀ word words v,
        secureRandomInt max (word :: words) = some (v, words) ↔ word ∈ acceptedFor max v) ∧
      (∀ word words, (∀ v, word ∉ acceptedFor max v) →
        secureRandomInt max (word :: words) = secureRandomInt max words) ∧
      0 < 2 ^ 32 / max ∧ ∀ v < max, (acceptedFor max v).card = 2 ^ 32 / max) ∧
    ∀ parts : List Text,
      (∀ words out rest, shuffleLoop (parts.length - 1) parts words = some (out, rest) ↔
        ∃ js, indices (parts.length - 1) words = some (js, rest) ∧
          out = shuffleBy (parts.length - 1) js parts) ∧
      (∀ words js rest, indices (parts.length - 1) words = some (js, rest) →
        IsDraws (parts.length - 1) js) ∧
      (parts.length ≤ 2 ^ 32 → ∀ js, IsDraws (parts.length - 1) js →
        ∃ words, indices (parts.length - 1) words = some (js, [])) ∧
      (∀ js, IsDraws (parts.length - 1) js →
        shuffleBy (parts.length - 1) js parts =
          (shuffleBy (parts.length - 1) js (List.range parts.length)).map (parts.getD · default)) ∧
      ∀ places, places.Perm (List.range parts.length) →
        ∃! js, IsDraws (parts.length - 1) js ∧
          shuffleBy (parts.length - 1) js (List.range parts.length) = places := by
  refine ⟨fun options h => always_generatePassword h, fun max hpos hle => ?_, fun parts => ?_⟩
  · exact ⟨always_secureRandomInt hpos, fun _ _ _ => secureRandomInt_cons_iff hpos,
      fun _ _ => secureRandomInt_cons_of_rejected hpos, Nat.div_pos hle hpos,
      fun v hv => card_acceptedFor hv⟩
  · exact ⟨fun _ _ _ => shuffleLoop_eq_some_iff parts, always_indices _,
      fun hlen js hjs => indices_of_draws hjs (by omega), fun js hjs => shuffleBy_eq parts hjs,
      fun places h => existsUnique_places h⟩

/-- Three digits. -/
def pin : GeneratorOptions := ⟨some 3, some false, some false, none, some false, none⟩

theorem generator_sound_pin :
    Meets pin.withDefaults "432".toList ∧ (acceptedFor 10 3).card = 2 ^ 32 / 10 ∧
    secureRandomInt 10 [4294967295, 13] = secureRandomInt 10 [13] ∧
    (∃ words, indices 1 words = some ([0], [])) ∧
    ∃! js, IsDraws 1 js ∧ shuffleBy 1 js (List.range 2) = [1, 0] := by
  have hrejected : ∀ v, (4294967295 : Word) ∉ acceptedFor 10 v := by
    intro v hv
    exact absurd (Finset.mem_filter.mp hv).2.1 (by decide)
  have hten := generator_sound.2.1 10 (by decide) (by decide)
  have htwo := generator_sound.2.2 [[], []]
  exact ⟨generator_sound.1 pin (by decide) [0, 1, 2, 0, 1] _ [] (by decide +kernel),
    hten.2.2.2.2 3 (by decide), hten.2.2.1 _ [13] hrejected,
    htwo.2.2.1 (by decide) [0] ⟨by decide, rfl⟩, htwo.2.2.2.2 [1, 0] (by decide)⟩

end Vautr.Generator
