import Vautr.Base32
import Vautr.Executions
import Vautr.Mfa

/-!
The one-time codes of the clients (`ui-logic/src/security.ts`), and those that the server accepts.

HMAC-SHA1 is any function to 20 bytes, and `new URL(..).searchParams.get('secret')` any function. A
client takes the whole last byte of the MAC as the place of the code, where only the low four bits
of it are meant.
-/

namespace Vautr.Totp

open Vautr.FileStream Vautr.Base32 Vautr.Database Vautr.Api Vautr.Credentials Vautr.Mfa
  Vautr.Executions

abbrev Mac := Vector UInt8 20

/-- HMAC-SHA1, of a key and a message. -/
abbrev Hmac := Bytes → Bytes → Mac

/-- `new URL(..).searchParams.get('secret')`: it throws, finds no secret, or finds one. -/
abbrev UrlSecret := List Char → Option (Option (List Char))

/-- What is thrown instead of a code. -/
inductive TotpError
  | invalidUrl
  | noSecret
  | emptyKey
  deriving DecidableEq

/-- `String(code).padStart(6, '0')`. -/
def padded (code : ℕ) : String := String.ofList ((Nat.toDigits 10 code).leftpad 6 '0')

/-! ### The client -/

/-- The character is in the class `[A-Za-z2-7]`. -/
def isSecretChar (c : Char) : Bool :=
  ('A' ≤ c && c ≤ 'Z') || ('a' ≤ c && c ≤ 'z') || ('2' ≤ c && c ≤ '7')

/-- The group of the first match of `secret=([A-Za-z2-7]+)`. -/
def matchSecret : List Char → Option (List Char)
  | [] => none
  | c :: cs =>
    let found := if "secret=".toList.isPrefixOf (c :: cs) then
      ((c :: cs).drop 7).takeWhile isSecretChar else []
    if found.isEmpty then matchSecret cs else some found

/-- `otpauth.startsWith('otpauth://')`. -/
def isUri (otpauth : List Char) : Bool := "otpauth://".toList.isPrefixOf otpauth

def totpSecret (url : UrlSecret) (otpauth : List Char) : Except TotpError (List Char) :=
  if isUri otpauth then
    match url otpauth with
    | none => .error .invalidUrl
    | some secret =>
      if secret.getD [] ≠ [] then .ok (secret.getD [])
      else .ok ((matchSecret otpauth).getD [])
  else .ok otpauth

/-- `hmac[i] ?? 0`. -/
def byteAt (m : Mac) (i : ℕ) : ℕ := (m[i]?.map UInt8.toNat).getD 0

/-- The bits of the four bytes at `offset`, less the highest. -/
def word (m : Mac) (offset : ℕ) : ℕ :=
  ((byteAt m offset &&& 0x7f) <<< 24) ||| ((byteAt m (offset + 1) &&& 0xff) <<< 16) |||
    ((byteAt m (offset + 2) &&& 0xff) <<< 8) ||| (byteAt m (offset + 3) &&& 0xff)

/-- `totpCode` at `now`, in milliseconds, with the default step. A key without bytes is refused by
`importKey`. -/
def totpCode (hmac : Hmac) (url : UrlSecret) (otpauth : List Char) (now : ℕ) :
    Except TotpError String := do
  let secret ← totpSecret url otpauth
  if secret = [] then throw .noSecret
  else
    let key := base32Decode secret
    if key = [] then throw .emptyKey
    else
      let counter := now / 1000 / 30
      let buf := beBytes 4 (counter >>> 32) ++ beBytes 4 (counter &&& 0xffffffff)
      let m := hmac key buf
      return padded (word m (byteAt m 19) % 1000000)

/-! ### RFC 6238 and RFC 4226 -/

/-- The four bytes from `offset` on, as a number less its highest bit; bytes after the end are
zero. -/
def numberAt (m : Mac) (offset : ℕ) : ℕ :=
  ofBeBytes (((m.toList ++ [0, 0, 0]).drop offset).take 4) % 2 ^ 31

/-- Dynamic truncation: the place is in the low four bits of the last byte. -/
def truncated (m : Mac) : ℕ := numberAt m (m[19].toNat % 16)

/-- The code for a time step. -/
def rfcCode (hmac : Hmac) (secret : Bytes) (step : ℕ) : String :=
  padded (truncated (hmac secret (beBytes 8 step)) % 10 ^ 6)

/-- The crate `totp-rs` follows the RFC. -/
def Rfc6238 (X : CredExt Bytes) (hmac : Hmac) : Prop :=
  ∀ secret (time : ℕ), X.totpGenerate secret time = rfcCode hmac secret (time / 30)

/-- The server accepts the code for the secret, in the time step. -/
def Accepted (X : CredExt Bytes) (secret : Bytes) (code : String) (step : ℕ) : Prop :=
  ∀ tr r, Runs (verifyTotpWithStep X secret code).run tr r →
    (∀ ev ∈ tr, ev.inp.now / 1000 / 30 = step) → ∃ matched, r = .ok (some matched)

/-- The text that holds the secret: all of the input, or what the URI has for it. -/
inductive Carries (url : UrlSecret) : List Char → List Char → Prop
  | bare {text : List Char} (h : isUri text = false) : Carries url text text
  | uri {otpauth text : List Char} (h : isUri otpauth = true)
      (hurl : url otpauth = some (some text)) : Carries url otpauth text

/-- The last byte is its own low four bits, or the bytes at the place that the whole of it names
give the same code. -/
def SamePlace (m : Mac) : Prop :=
  m[19].toNat < 16 ∨ 16 ≤ m[19].toNat ∧ numberAt m m[19].toNat % 10 ^ 6 = truncated m % 10 ^ 6

instance (m : Mac) : Decidable (SamePlace m) := inferInstanceAs (Decidable (_ ∨ _))

/-! ### Codes -/

lemma padded_injective : Function.Injective padded := by
  intro n n' h
  have hlist := String.ofList_injective h
  have hvalue : ∀ n, Nat.ofDigitChars 10 ((Nat.toDigits 10 n).leftpad 6 '0') 0 = n := by
    intro n
    rw [List.leftpad, Nat.ofDigitChars_append, Nat.ofDigitChars_replicate_zero, Nat.mul_zero,
      Nat.ofDigitChars_ten_toDigits]
  rw [← hvalue n, hlist, hvalue]

/-- Four bytes put together by their bits. -/
lemma lor_bytes {a b c d : ℕ} (hb : b < 256) (hc : c < 256) (hd : d < 256) :
    (a <<< 24) ||| (b <<< 16) ||| (c <<< 8) ||| d = ((a * 256 + b) * 256 + c) * 256 + d := by
  have hlow : (c <<< 8) ||| d = c * 256 + d := by
    rw [← Nat.shiftLeft_add_eq_or_of_lt hd, Nat.shiftLeft_eq]
  have hmid : (b <<< 16) ||| (c * 256 + d) = b * 65536 + (c * 256 + d) := by
    rw [← Nat.shiftLeft_add_eq_or_of_lt (by omega), Nat.shiftLeft_eq]
  rw [Nat.or_assoc, Nat.or_assoc, hlow, hmid, ← Nat.shiftLeft_add_eq_or_of_lt (by omega),
    Nat.shiftLeft_eq]
  omega

lemma byteAt_of_lt {m : Mac} {i : ℕ} (h : i < 20) : byteAt m i = (m.get ⟨i, h⟩).toNat := by
  unfold byteAt
  rw [Vector.getElem?_eq_getElem h]
  rfl

lemma byteAt_of_le {m : Mac} {i : ℕ} (h : 20 ≤ i) : byteAt m i = 0 := by
  unfold byteAt
  rw [Vector.getElem?_eq_none h]
  rfl

/-- The bytes of the MAC, with zeros after the end. -/
lemma byteAt_eq {m : Mac} {i : ℕ} (h : i < (m.toList ++ [0, 0, 0]).length) :
    byteAt m i = ((m.toList ++ [0, 0, 0])[i]).toNat := by
  have hlen : m.toList.length = 20 := by simp
  by_cases hi : i < 20
  · rw [byteAt_of_lt hi, List.getElem_append_left (by omega)]
    simp [Vector.get]
  · rw [byteAt_of_le (by omega), List.getElem_append_right (by omega)]
    have hzero : ∀ b ∈ ([0, 0, 0] : Bytes), b.toNat = 0 := by simp
    exact (hzero _ (List.getElem_mem _)).symm

lemma ofBeBytes_zeros {bytes : Bytes} (h : ∀ b ∈ bytes, b.toNat = 0) : ofBeBytes bytes = 0 := by
  induction bytes using List.reverseRecOn with
  | nil => rfl
  | append_singleton bytes b ih =>
    rw [ofBeBytes_concat, ih fun b' hb' => h b' (by simp [hb']), h b (by simp)]

/-- The client reads the four bytes at the place that it takes. -/
lemma word_eq (m : Mac) (offset : ℕ) : word m offset = numberAt m offset := by
  have hlen : (m.toList ++ [0, 0, 0]).length = 23 := by simp
  have hbyte (i : ℕ) : byteAt m i < 256 := by
    by_cases hi : i < 20
    · rw [byteAt_of_lt hi]
      exact UInt8.toNat_lt _
    · rw [byteAt_of_le (by omega)]
      omega
  have hmask (i : ℕ) : byteAt m i &&& 0xff = byteAt m i := by
    have := hbyte i
    rw [Nat.and_two_pow_sub_one_eq_mod _ 8]
    omega
  have hhigh : byteAt m offset &&& 0x7f = byteAt m offset % 128 :=
    Nat.and_two_pow_sub_one_eq_mod _ 7
  rw [word, hmask, hmask, hmask, hhigh, lor_bytes (hbyte _) (hbyte _) (hbyte _), numberAt]
  have h0 := hbyte offset
  have h1 := hbyte (offset + 1)
  have h2 := hbyte (offset + 2)
  have h3 := hbyte (offset + 3)
  by_cases ho : offset < 20
  · have hfour : ofBeBytes (((m.toList ++ [0, 0, 0]).drop offset).take 4) =
        ((byteAt m offset * 256 + byteAt m (offset + 1)) * 256 + byteAt m (offset + 2)) * 256 +
          byteAt m (offset + 3) := by
      rw [List.drop_eq_getElem_cons (by omega), List.drop_eq_getElem_cons (by omega),
        List.drop_eq_getElem_cons (by omega), List.drop_eq_getElem_cons (by omega),
        byteAt_eq (by omega), byteAt_eq (by omega), byteAt_eq (by omega), byteAt_eq (by omega)]
      simp only [List.take_succ_cons, List.take_zero, ofBeBytes, List.foldl_cons, List.foldl_nil,
        Nat.zero_mul, Nat.zero_add, Nat.add_assoc, Nat.reduceAdd]
    rw [hfour]
    omega
  · have hzeros : ofBeBytes (((m.toList ++ [0, 0, 0]).drop offset).take 4) = 0 := by
      refine ofBeBytes_zeros fun b hb => ?_
      have hdrop : (m.toList ++ [0, 0, 0]).drop offset = [0, 0, 0].drop (offset - 20) := by
        rw [List.drop_append]
        simp [List.drop_eq_nil_of_le (show m.toList.length ≤ offset by simp; omega)]
      rw [hdrop] at hb
      have hzero : ∀ b ∈ ([0, 0, 0] : Bytes), b.toNat = 0 := by simp
      exact hzero b (List.mem_of_mem_drop (List.mem_of_mem_take hb))
    rw [hzeros, byteAt_of_le (by omega), byteAt_of_le (by omega), byteAt_of_le (by omega),
      byteAt_of_le (by omega)]
    rfl

/-- The counter in eight bytes, in two halves. -/
lemma beBytes_halves (n : ℕ) :
    beBytes 4 (n >>> 32) ++ beBytes 4 (n &&& 0xffffffff) = beBytes 8 n := by
  have hlow : n &&& 0xffffffff = n % 256 ^ 4 := Nat.and_two_pow_sub_one_eq_mod n 32
  have hhigh : n >>> 32 = n / 256 ^ 4 := Nat.shiftRight_eq_div_pow n 32
  rw [hhigh, hlow, beBytes_mod, beBytes_add 4 4]

/-! ### The client and the RFC -/

variable {hmac : Hmac} {url : UrlSecret} {otpauth text : List Char} {secret : Bytes}

/-- A text that spells a secret is not empty. -/
lemma ne_nil_of_spells (h : Spells text secret) : text ≠ [] := by
  rintro rfl
  obtain ⟨hne, -, hbytes⟩ := h
  exact hne hbytes.symm

lemma totpSecret_of_carries (hc : Carries url otpauth text) (hne : text ≠ []) :
    totpSecret url otpauth = .ok text := by
  unfold totpSecret
  cases hc with
  | bare h => rw [h, if_neg (by decide)]
  | uri h hurl =>
    rw [h, if_pos rfl, hurl]
    exact if_pos hne

/-- The code of the client, for a secret of any spelling. -/
lemma totpCode_eq (hc : Carries url otpauth text) (hs : Spells text secret) (now : ℕ) :
    totpCode hmac url otpauth now =
      let m := hmac secret (beBytes 8 (now / 1000 / 30))
      .ok (padded (numberAt m m[19].toNat % 10 ^ 6)) := by
  have hne := ne_nil_of_spells hs
  have hlast (m : Mac) : byteAt m 19 = m[19].toNat := byteAt_of_lt (by omega)
  unfold totpCode
  rw [totpSecret_of_carries hc hne]
  change (if text = [] then _ else _) = _
  rw [if_neg hne, base32Decode_of_spells hs, if_neg hs.1]
  dsimp only
  rw [beBytes_halves, hlast, word_eq]
  rfl

/-- The place that the client takes is the right one, or it does not matter. -/
lemma samePlace_iff (m : Mac) :
    numberAt m m[19].toNat % 10 ^ 6 = truncated m % 10 ^ 6 ↔ SamePlace m := by
  by_cases h : m[19].toNat < 16
  · have hsame : truncated m = numberAt m m[19].toNat := by
      rw [truncated, Nat.mod_eq_of_lt h]
    exact iff_of_true (by rw [hsame]) (.inl h)
  · rw [SamePlace, or_iff_right h, and_iff_right (by omega)]

lemma totpCode_eq_rfcCode_iff (hc : Carries url otpauth text) (hs : Spells text secret) (now : ℕ) :
    totpCode hmac url otpauth now = .ok (rfcCode hmac secret (now / 1000 / 30)) ↔
      SamePlace (hmac secret (beBytes 8 (now / 1000 / 30))) := by
  rw [totpCode_eq hc hs, ← samePlace_iff]
  dsimp only
  rw [rfcCode, Except.ok.injEq, padded_injective.eq_iff]

/-! ### The server -/

lemma runs_nowMs {tr : List (CredEv Bytes)} {r : Except ApiError ℤ}
    (h : Runs (nowMs : CredHandler Bytes ℤ).run tr r) :
    ∃ ev, tr = [ev] ∧ r = .ok ev.inp.now := by
  obtain ⟨e, s, rest, rfl, rfl, rfl⟩ := h
  exact ⟨_, rfl, rfl⟩

/-- The server accepts the code of the RFC for the time step it is in. -/
lemma accepted_rfcCode {X : CredExt Bytes} (hX : Rfc6238 X hmac)
    (hv : X.totpVerifier secret = .ok ()) (step : ℕ) :
    Accepted X secret (rfcCode hmac secret step) step := by
  intro tr r hruns hstep
  unfold verifyTotpWithStep at hruns
  rw [hv] at hruns
  dsimp only at hruns
  rw [runs_bind_except] at hruns
  rcases hruns with ⟨now, t, rest, rfl, hclock, hruns⟩ | ⟨e, hclock, rfl⟩
  rotate_left
  · obtain ⟨_, -, hr⟩ := runs_nowMs hclock
    cases hr
  obtain ⟨ev, rfl, hnow⟩ := runs_nowMs hclock
  obtain ⟨rfl, rfl⟩ := hruns
  have hcurrent : now / 1000 / 30 = step := by
    rw [Except.ok.inj hnow]
    exact hstep ev (by simp)
  have hcode : X.totpGenerate secret ((step : ℤ) * 30) = rfcCode hmac secret step := by
    have h := hX secret (step * 30)
    rw [Nat.mul_div_cancel _ (by omega)] at h
    exact_mod_cast h
  have hfound : ([now / 1000 / 30 - 1, now / 1000 / 30, now / 1000 / 30 + 1].find? fun step' =>
      decide (X.totpGenerate secret (step' * 30) = rfcCode hmac secret step)).isSome := by
    rw [List.find?_isSome]
    exact ⟨step, by simp [hcurrent], by simp [hcode]⟩
  obtain ⟨matched, hmatched⟩ := Option.isSome_iff_exists.mp hfound
  exact ⟨matched, congrArg Except.ok hmatched⟩

/-- A MAC with the code 872921. -/
def sampleMac : Mac := ⟨#[0x1f, 0x86, 0x98, 0x69, 0x0e, 0x02, 0xca, 0x16, 0x61, 0x85, 0x50, 0xef,
  0x7f, 0x19, 0xda, 0x8e, 0x94, 0x5b, 0x55, 0x5a], rfl⟩

/-- The crates of a server whose codes are those of `hmac`. -/
def crates (hmac : Hmac) : CredExt Bytes where
  setupFromBytes _ := true
  generateServerSetup := .ok
  serverRegisterStart _ creq _ := .ok creq
  serverRegisterFinish := .ok
  serverLoginStart r _ _ _ _ := .ok ([], r)
  serverLoginFinish state upload := .ok (state ++ upload)
  len := List.length
  allZero l := l.all (· = 0)
  simple := toString
  sha256Hex := id
  hashSessionToken _ := ""
  setupFile := none
  prod := false
  allowDb := false
  b64 _ := ""
  b64url _ := ""
  hashToken := id
  tokenHash := id
  recoveryCodeHash := id
  hyphenated := toString
  trim := id
  verifyingKey _ := true
  verifyStrict _ _ _ := true
  totpVerifier _ := .ok ()
  totpGenerate secret time := rfcCode hmac secret (time.toNat / 30)
  allowNonExpiring := false
  maxTokenLifetimeDays := none

/-- The secret "He", bare. -/
def sampleText : List Char := "jbSQ".toList

lemma spells_sampleText : Spells sampleText [72, 101] :=
  spells_of_clean_eq (by decide) (by decide)

/-- A MAC whose last byte is 5, with the code 105254. -/
def lowMac : Mac := ⟨#[0xe3, 0x24, 0xbc, 0x74, 0x4e, 0x2b, 0x47, 0x7c, 0xa6, 0x7c, 0x23, 0xd1,
  0xa2, 0xaf, 0x1b, 0xf2, 0xf0, 0x3d, 0xed, 0x05], rfl⟩

end Vautr.Totp
