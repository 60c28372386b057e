import Mathlib.Data.Nat.ModEq
import Vautr.FileStream

/-!
The base32 decoder of the clients (`ui-logic/src/security.ts`), and the encoding it reads.

The decoder keeps the bits that it has read in a number of 32 bits, and takes a byte from them as
soon as it has eight. The bits above those stay in the number until they fall out at the top.
-/

namespace Vautr.Base32

open Vautr.FileStream

/-- `BASE32`. -/
def alphabet : List Char := "ABCDEFGHIJKLMNOPQRSTUVWXYZ234567".toList

/-! ### The decoder -/

/-- `\s` of a regular expression. -/
def isSpace (c : Char) : Bool :=
  c.toNat ∈ [0x9, 0xa, 0xb, 0xc, 0xd, 0x20, 0xa0, 0x1680, 0x2028, 0x2029, 0x202f, 0x205f, 0x3000,
    0xfeff] || (0x2000 ≤ c.toNat && c.toNat ≤ 0x200a)

/-- What `toUpperCase` makes of a character, as far as there are letters of the alphabet in it. -/
def upper (c : Char) : List Char :=
  if 'a' ≤ c ∧ c ≤ 'z' then [Char.ofNat (c.toNat - 32)]
  else match c.toNat with
    | 0xdf => ['S', 'S']
    | 0x131 => ['I']
    | 0x149 => [Char.ofNat 0x2bc, 'N']
    | 0x17f => ['S']
    | 0x1f0 => ['J', Char.ofNat 0x30c]
    | 0x1e96 => ['H', Char.ofNat 0x331]
    | 0x1e97 => ['T', Char.ofNat 0x308]
    | 0x1e98 => ['W', Char.ofNat 0x30a]
    | 0x1e99 => ['Y', Char.ofNat 0x30a]
    | 0x1e9a => ['A', Char.ofNat 0x2be]
    | 0xfb00 => ['F', 'F']
    | 0xfb01 => ['F', 'I']
    | 0xfb02 => ['F', 'L']
    | 0xfb03 => ['F', 'F', 'I']
    | 0xfb04 => ['F', 'F', 'L']
    | 0xfb05 => ['S', 'T']
    | 0xfb06 => ['S', 'T']
    | _ => [c]

/-- `input.replace(/[\s=]/g, '').toUpperCase()`. -/
def clean (input : List Char) : List Char :=
  (input.filter fun c => !isSpace c && c != '=').flatMap upper

/-- The variables of the loop. -/
structure Acc where
  bits : ℕ
  value : BitVec 32
  out : Bytes

/-- One character. -/
def Acc.read (s : Acc) (ch : Char) : Acc :=
  if ch ∈ alphabet then
    let value := (s.value <<< 5) ||| BitVec.ofNat 32 (alphabet.idxOf ch)
    let bits := s.bits + 5
    if 8 ≤ bits then
      ⟨bits - 8, value, s.out ++ [UInt8.ofNat ((value >>> (bits - 8)) &&& 0xff#32).toNat]⟩
    else ⟨bits, value, s.out⟩
  else s

def base32Decode (input : List Char) : Bytes := ((clean input).foldl Acc.read ⟨0, 0, []⟩).out

/-! ### The encoding -/

/-- The number that digits to the base 32 stand for. -/
def ofDigits (ds : List ℕ) : ℕ := ds.foldl (fun n d => n * 32 + d) 0

/-- The lowest digits of a number, the highest one first. -/
def toDigits : ℕ → ℕ → List ℕ
  | 0, _ => []
  | k + 1, n => toDigits k (n / 32) ++ [n % 32]

/-- The bytes in the bits of the digits; what is left over is dropped. -/
def bytesOf (ds : List ℕ) : Bytes :=
  beBytes (5 * ds.length / 8) (ofDigits ds / 2 ^ (5 * ds.length % 8))

/-- The digits for some bytes: their bits, and zeros to fill the last digit. -/
def digitsOf (bytes : Bytes) : List ℕ :=
  let k := (8 * bytes.length + 4) / 5
  toDigits k (ofBeBytes bytes * 2 ^ (5 * k - 8 * bytes.length))

/-- The letters for some bytes. -/
def encode (bytes : Bytes) : List Char := (digitsOf bytes).map fun d => alphabet.getD d 'A'

/-- The text is one for this secret: in any case, with any spacing and padding. -/
def Spells (text : List Char) (secret : Bytes) : Prop :=
  secret ≠ [] ∧ (∀ c ∈ clean text, c ∈ alphabet) ∧
    bytesOf ((clean text).map alphabet.idxOf) = secret

/-! ### What the decoder reads -/

lemma ofDigits_concat (ds : List ℕ) (d : ℕ) : ofDigits (ds ++ [d]) = ofDigits ds * 32 + d := by
  simp [ofDigits]

lemma idxOf_lt {c : Char} (h : c ∈ alphabet) : alphabet.idxOf c < 32 :=
  List.idxOf_lt_length_iff.mpr h

/-- The value after one more digit. -/
lemma toNat_value (v : BitVec 32) {d : ℕ} (hd : d < 32) :
    ((v <<< 5) ||| BitVec.ofNat 32 d).toNat = (v.toNat * 32 + d) % 2 ^ 32 := by
  have hv := v.isLt
  have hlow : (BitVec.ofNat 32 d).toNat = d := by
    rw [BitVec.toNat_ofNat]
    omega
  have hhigh : (v <<< 5).toNat = (v.toNat % 2 ^ 27) <<< 5 := by
    rw [BitVec.toNat_shiftLeft, Nat.shiftLeft_eq, Nat.shiftLeft_eq]
    omega
  rw [BitVec.toNat_or, hlow, hhigh, ← Nat.shiftLeft_add_eq_or_of_lt (by omega), Nat.shiftLeft_eq]
  omega

/-- The byte at a place of the value. -/
lemma toNat_byte (v : BitVec 32) (n : ℕ) :
    UInt8.ofNat ((v >>> n) &&& 0xff#32).toNat = UInt8.ofNat (v.toNat / 2 ^ n) := by
  have hmask : ((v >>> n) &&& 0xff#32).toNat = v.toNat / 2 ^ n % 2 ^ 8 := by
    rw [BitVec.toNat_and, BitVec.toNat_ushiftRight, Nat.shiftRight_eq_div_pow]
    exact Nat.and_two_pow_sub_one_eq_mod _ 8
  rw [hmask]
  apply UInt8.toNat_inj.mp
  simp

/-- What the loop has read: the bytes in the bits so far, and in the value those that are left. -/
structure Read (ds : List ℕ) (s : Acc) : Prop where
  bits : s.bits = 5 * ds.length % 8
  value : s.value.toNat ≡ ofDigits ds [MOD 2 ^ s.bits]
  out : s.out = bytesOf ds

lemma read_step {ds : List ℕ} {s : Acc} (h : Read ds s) {c : Char} (hc : c ∈ alphabet) :
    Read (ds ++ [alphabet.idxOf c]) (s.read c) := by
  obtain ⟨bits, value, out⟩ := s
  obtain ⟨hbits, hvalue, hout⟩ := h
  dsimp only at hbits hvalue hout
  unfold Acc.read
  rw [if_pos hc]
  have hd := idxOf_lt hc
  generalize alphabet.idxOf c = d at hd ⊢
  have hlen : (ds ++ [d]).length = ds.length + 1 := by simp
  -- the value and the number agree on five bits more
  have hmod : ((value <<< 5) ||| BitVec.ofNat 32 d).toNat ≡ ofDigits (ds ++ [d])
      [MOD 2 ^ (bits + 5)] := by
    rw [toNat_value _ hd, ofDigits_concat]
    have hpow : 2 ^ (bits + 5) ∣ 2 ^ 32 := Nat.pow_dvd_pow 2 (by omega)
    have hhigh : value.toNat * 32 ≡ ofDigits ds * 32 [MOD 2 ^ (bits + 5)] := by
      rw [pow_add]
      exact hvalue.mul_right' 32
    exact ((Nat.mod_modEq _ _).of_dvd hpow).trans (hhigh.add_right _)
  have hdiv : ofDigits (ds ++ [d]) / 2 ^ (bits + 5) = ofDigits ds / 2 ^ bits := by
    rw [ofDigits_concat, pow_add, Nat.mul_comm (2 ^ bits), ← Nat.div_div_eq_div_mul]
    congr 1
    omega
  dsimp only
  by_cases h8 : 8 ≤ bits + 5
  · -- a whole byte is there, and goes out
    rw [if_pos h8]
    have hbits' : bits + 5 - 8 = 5 * (ds ++ [d]).length % 8 := by omega
    have hbytes : 5 * (ds ++ [d]).length / 8 = 5 * ds.length / 8 + 1 := by omega
    have hpow : 2 ^ (bits + 5) = 2 ^ (bits + 5 - 8) * 256 := by
      calc 2 ^ (bits + 5) = 2 ^ (bits + 5 - 8 + 8) := by rw [Nat.sub_add_cancel h8]
        _ = 2 ^ (bits + 5 - 8) * 256 := pow_add _ _ _
    have hdvd : 2 ^ (bits + 5 - 8) ∣ 2 ^ (bits + 5) := Nat.pow_dvd_pow 2 (Nat.sub_le _ _)
    refine ⟨hbits', hmod.of_dvd hdvd, ?_⟩
    have hbyte : ((value <<< 5) ||| BitVec.ofNat 32 d).toNat / 2 ^ (bits + 5 - 8) % 256 =
        ofDigits (ds ++ [d]) / 2 ^ (bits + 5 - 8) % 256 := by
      rw [← Nat.mod_mul_right_div_self, ← Nat.mod_mul_right_div_self, ← hpow]
      exact congrArg (· / 2 ^ (bits + 5 - 8)) hmod
    have hlow : UInt8.ofNat (((value <<< 5) ||| BitVec.ofNat 32 d).toNat / 2 ^ (bits + 5 - 8)) =
        UInt8.ofNat (ofDigits (ds ++ [d]) / 2 ^ (bits + 5 - 8)) := by
      apply UInt8.toNat_inj.mp
      simpa using hbyte
    rw [toNat_byte, hlow, hout, bytesOf, bytesOf, hbytes, ← hbits', ← hbits, beBytes,
      Nat.div_div_eq_div_mul, ← hpow, hdiv]
  · -- the bits are kept for the next character
    rw [if_neg h8]
    have hbits' : bits + 5 = 5 * (ds ++ [d]).length % 8 := by omega
    have hbytes : 5 * (ds ++ [d]).length / 8 = 5 * ds.length / 8 := by omega
    refine ⟨hbits', hmod, ?_⟩
    rw [hout, bytesOf, bytesOf, hbytes, ← hbits', ← hbits, hdiv]

/-- **The decoder** gives the bytes in the bits of the letters. -/
theorem base32Decode_eq {text : List Char} (h : ∀ c ∈ clean text, c ∈ alphabet) :
    base32Decode text = bytesOf ((clean text).map alphabet.idxOf) := by
  suffices ∀ cs : List Char, (∀ c ∈ cs, c ∈ alphabet) →
      Read (cs.map alphabet.idxOf) (cs.foldl Acc.read ⟨0, 0, []⟩) from (this _ h).out
  intro cs hcs
  induction cs using List.reverseRecOn with
  | nil => exact ⟨rfl, by simp [ofDigits, Nat.ModEq], rfl⟩
  | append_singleton cs c ih =>
    rw [List.map_append, List.foldl_append]
    exact read_step (ih fun c' hc' => hcs c' (by simp [hc'])) (hcs c (by simp))

lemma base32Decode_of_spells {text : List Char} {secret : Bytes} (h : Spells text secret) :
    base32Decode text = secret := (base32Decode_eq h.2.1).trans h.2.2

/-! ### Every secret is spelled by its encoding -/

@[simp] lemma length_toDigits (k n : ℕ) : (toDigits k n).length = k := by
  induction k generalizing n with
  | zero => rfl
  | succ k ih => simp [toDigits, ih]

lemma toDigits_lt {k n d : ℕ} (h : d ∈ toDigits k n) : d < 32 := by
  induction k generalizing n with
  | zero => cases h
  | succ k ih =>
    rw [toDigits, List.mem_append, List.mem_singleton] at h
    rcases h with h | rfl
    · exact ih h
    · exact Nat.mod_lt _ (by omega)

lemma ofDigits_toDigits {k n : ℕ} (hn : n < 32 ^ k) : ofDigits (toDigits k n) = n := by
  induction k generalizing n with
  | zero =>
    rw [pow_zero] at hn
    have : n = 0 := by omega
    rw [this]
    rfl
  | succ k ih =>
    rw [pow_succ] at hn
    rw [toDigits, ofDigits_concat, ih (Nat.div_lt_of_lt_mul (by omega))]
    omega

lemma ofBeBytes_lt (bytes : Bytes) : ofBeBytes bytes < 256 ^ bytes.length := by
  induction bytes using List.reverseRecOn with
  | nil => decide
  | append_singleton bytes b ih =>
    have hb : b.toNat < 256 := b.toNat_lt
    rw [ofBeBytes_concat, List.length_append, List.length_singleton, pow_succ]
    omega

/-- The bits of the digits for some bytes are those of the bytes. -/
lemma bytesOf_digitsOf (bytes : Bytes) : bytesOf (digitsOf bytes) = bytes := by
  have hlt := ofBeBytes_lt bytes
  generalize hk : (8 * bytes.length + 4) / 5 = k
  generalize hr : 5 * k - 8 * bytes.length = r
  have hdigits : digitsOf bytes = toDigits k (ofBeBytes bytes * 2 ^ r) := by
    rw [digitsOf, hk, hr]
  have hsum : 5 * k = 8 * bytes.length + r := by omega
  have hfits : ofBeBytes bytes * 2 ^ r < 32 ^ k := by
    have hpow : (32 : ℕ) ^ k = 256 ^ bytes.length * 2 ^ r := by
      calc (32 : ℕ) ^ k = 2 ^ (5 * k) := by rw [pow_mul]; rfl
        _ = 2 ^ (8 * bytes.length) * 2 ^ r := by rw [hsum, pow_add]
        _ = 256 ^ bytes.length * 2 ^ r := by rw [pow_mul]; rfl
    rw [hpow]
    exact Nat.mul_lt_mul_of_pos_right hlt (Nat.two_pow_pos r)
  have hlen : 5 * (digitsOf bytes).length / 8 = bytes.length := by
    rw [hdigits, length_toDigits]
    omega
  have hrest : 5 * (digitsOf bytes).length % 8 = r := by
    rw [hdigits, length_toDigits]
    omega
  rw [bytesOf, hlen, hrest, hdigits, ofDigits_toDigits hfits,
    Nat.mul_div_cancel _ (Nat.two_pow_pos r), beBytes_ofBeBytes]

lemma map_idxOf_encode (bytes : Bytes) : (encode bytes).map alphabet.idxOf = digitsOf bytes := by
  have hletter : ∀ d < 32, alphabet.idxOf (alphabet.getD d 'A') = d := by decide
  rw [encode, List.map_map]
  refine (List.map_congr_left fun d hd => ?_).trans (List.map_id _)
  exact hletter d (toDigits_lt hd)

/-- Letters for the bytes, in any case, with any spacing and padding. -/
theorem spells_of_clean_eq {text : List Char} {secret : Bytes} (hne : secret ≠ [])
    (h : clean text = encode secret) : Spells text secret := by
  have hletters : ∀ d < 32, alphabet.getD d 'A' ∈ alphabet := by decide
  refine ⟨hne, ?_, ?_⟩
  · rw [h]
    intro c hc
    obtain ⟨d, hd, rfl⟩ := List.mem_map.mp hc
    exact hletters d (toDigits_lt hd)
  · rw [h, map_idxOf_encode, bytesOf_digitsOf]

example : Spells "jb== Sq".toList [72, 101] :=
  spells_of_clean_eq (by decide) (by decide)

end Vautr.Base32
