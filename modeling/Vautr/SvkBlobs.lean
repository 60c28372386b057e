import Vautr.Crypto
import Mathlib.Data.Nat.Pairing

/-!
The two stored wrappings of an account's vault key.

The MP blob is sealed under a key derived from the master password, the RK blob under a key
derived from the recovery phrase. Web and native clients both write and both read them, and
each site picks its own associated data: the nil uuid or the account's id. The salt of the master
key never comes from the server: each browser and each installation has the one that it stored when
it registered, and only a native client stores the one of a recovery. An account is followed
through registration, unlocks, rotations and recoveries in all places, with who wrote each blob
last, and for which secret and vault key, noted beside it.
-/

namespace Vautr.SvkBlobs

open Crypto

/-- The nil uuid. -/
def nil : ℕ := 0

/-- The key derivations and the word list the clients call: a password and its salt give a
master key, a mnemonic gives a seed, and no two inputs the same; a mnemonic written out in
words decodes to itself. -/
structure Kdf where
  Password : Type
  Salt : Type
  Mnemonic : Type
  Phrase : Type
  masterKey : Password → Salt → Key
  masterKey_inj : ∀ {p q s t}, masterKey p s = masterKey q t → p = q ∧ s = t
  seed : Mnemonic → Key
  seed_inj : ∀ {m n}, seed m = seed n → m = n
  words : Mnemonic → Phrase
  decode : Phrase → Option Mnemonic
  decode_words : ∀ m, decode (words m) = some m

/-- A vault key is 32 bytes; anything else is malformed. -/
def asKey : Plain → Option Key
  | .key k => some k
  | .bytes _ => none

variable {κ : Kdf}

/-! ### The web client -/

def wasmWrapSvk (svk : Key) (kek : DKey) : Blob := encrypt kek nil 0 (.key svk)

def wasmUnwrapSvk (b : Blob) (kek : DKey) : Option Key := (decrypt kek nil 0 b).bind asKey

def wrapSvkWithAd (svk : Key) (kek : DKey) (user : ℕ) : Blob := encrypt kek user 0 (.key svk)

def unwrapSvkWithAd (b : Blob) (kek : DKey) (user : ℕ) : Option Key :=
  (decrypt kek user 0 b).bind asKey

/-- The user's id first, the nil uuid then; with whether the latter was needed. -/
def unwrapSvkWithAdOrLegacy (b : Blob) (kek : DKey) (user : ℕ) : Option (Key × Bool) :=
  match unwrapSvkWithAd b kek user with
  | some svk => some (svk, false)
  | none => (wasmUnwrapSvk b kek).map (·, true)

/-- `recovery::wrap_svk_with_rk` -/
def wrapSvkWithRk (svk : Key) (kekRk : DKey) (user : ℕ) : Blob := encrypt kekRk user 0 (.key svk)

/-- `recovery::unwrap_svk_with_rk` -/
def unwrapSvkWithRk (b : Blob) (kekRk : DKey) (user : ℕ) : Option Key :=
  (decrypt kekRk user 0 b).bind asKey

def deriveKekRk (κ : Kdf) (m : κ.Mnemonic) : DKey := .kekRk (κ.seed m)

/-- `recover_svk_js`: only the user's id is tried. -/
def recoverSvkJs (κ : Kdf) (phrase : κ.Phrase) (b : Blob) (user : ℕ) : Option Key :=
  (κ.decode phrase).bind fun m => unwrapSvkWithRk b (deriveKekRk κ m) user

/-! ### The native clients -/

/-- `recover_svk` of the key ring, which the foreign interface repeats: the user's id first,
the nil uuid then. -/
def recoverSvk (κ : Kdf) (phrase : κ.Phrase) (b : Blob) (user : ℕ) : Option Key :=
  (κ.decode phrase).bind fun m =>
    (unwrapSvkWithRk b (deriveKekRk κ m) user).or (unwrapSvkWithRk b (deriveKekRk κ m) nil)

/-- The desktop's login: the blob must open for the nil uuid, and is then handed to
`unlock_with_password` with the nil uuid as the user's id. -/
def desktopUnlock (mk : Key) (b : Blob) : Option Key :=
  ((decrypt (.kek mk) nil 0 b).bind asKey).bind fun _ => unwrapSvk mk nil b

/-! ### Writers and readers -/

inductive Client
  | web
  | native
  deriving DecidableEq

inductive MpWriter
  | register (c : Client)
  | rotateKey (c : Client)
  | recover (c : Client)
  | webRekey
  deriving DecidableEq

/-- The MP blob as each flow writes it. -/
def MpWriter.wrap (user : ℕ) (mk svk : Key) : MpWriter → Blob
  | .webRekey => wrapSvkWithAd svk (.kek mk) user
  | .register .web | .rotateKey .web | .recover .web => wasmWrapSvk svk (.kek mk)
  | .register .native | .rotateKey .native | .recover .native => wrapSvk mk svk

inductive RkWriter
  | register (c : Client)
  | recover (c : Client)
  deriving DecidableEq

/-- The RK blob as each flow writes it: only the native recovery binds it to the user. -/
def RkWriter.wrap (κ : Kdf) (user : ℕ) (m : κ.Mnemonic) (svk : Key) : RkWriter → Blob
  | .register .web | .recover .web => wrapSvkWithRk svk (deriveKekRk κ m) nil
  | .register .native => wrapSvkWithRk svk (deriveKekRk κ m) nil
  | .recover .native => wrapSvkWithRk svk (deriveKekRk κ m) user

/-- The paths that open the MP blob. `ffiUnlock` is the exported `unlock_with_password`, which
is given the server's user id; the login of the same interface passes the nil uuid. -/
inductive MpReader
  | webLogin
  | webUnlock
  | desktop
  | ffiLogin
  | ffiUnlock
  deriving DecidableEq

def MpReader.unlock (user : ℕ) (mk : Key) (b : Blob) : MpReader → Option Key
  | .webLogin => (unwrapSvkWithAdOrLegacy b (.kek mk) user).map Prod.fst
  | .webUnlock => wasmUnwrapSvk b (.kek mk)
  | .desktop => desktopUnlock mk b
  | .ffiLogin => unwrapSvk mk nil b
  | .ffiUnlock => unwrapSvk mk user b

/-- The paths that open the RK blob. -/
def Client.recover (κ : Kdf) (user : ℕ) (phrase : κ.Phrase) (b : Blob) : Client → Option Key
  | .web => recoverSvkJs κ phrase b user
  | .native => recoverSvk κ phrase b user

/-! ### An account and its flows -/

/-- A browser, or an installation of a native client. -/
abbrev Place := Client × ℕ

/-- What an unlocked client has in memory; a native one its master key, from this password and
salt. -/
structure Session (κ : Kdf) where
  password : κ.Password
  salt : κ.Salt
  svk : Key

/-- What the server stores for an account, and beside each blob its last writer, the secret it
was sealed for and the vault key in it; and what the places have stored and in memory. -/
structure Account (κ : Kdf) where
  user : ℕ
  mp : Blob
  rk : Blob
  mpBy : MpWriter
  password : κ.Password
  salt : κ.Salt
  mpSvk : Key
  rkBy : RkWriter
  mnemonic : κ.Mnemonic
  rkSvk : Key
  stored : Place → Option κ.Salt
  session : Place → Option (Session κ)

def Account.storeMp (a : Account κ) (w : MpWriter) (pw : κ.Password) (salt : κ.Salt)
    (svk : Key) : Account κ :=
  { a with mp := w.wrap a.user (κ.masterKey pw salt) svk
           mpBy := w, password := pw, salt := salt, mpSvk := svk }

def Account.storeRk (a : Account κ) (w : RkWriter) (m : κ.Mnemonic) (svk : Key) : Account κ :=
  { a with rk := w.wrap κ a.user m svk, rkBy := w, mnemonic := m, rkSvk := svk }

def Account.storeSalt (a : Account κ) (p : Place) (salt : Option κ.Salt) : Account κ :=
  { a with stored := Function.update a.stored p salt }

def Account.setSession (a : Account κ) (p : Place) (s : Option (Session κ)) : Account κ :=
  { a with session := Function.update a.session p s }

/-- A new account: both blobs hold the same fresh vault key. In other places there may be salts
of other accounts. -/
def register (p : Place) (others : Place → Option κ.Salt) (user : ℕ) (pw : κ.Password)
    (salt : κ.Salt) (m : κ.Mnemonic) (svk : Key) : Account κ where
  user := user
  mp := (MpWriter.register p.1).wrap user (κ.masterKey pw salt) svk
  rk := (RkWriter.register p.1).wrap κ user m svk
  mpBy := .register p.1
  password := pw
  salt := salt
  mpSvk := svk
  rkBy := .register p.1
  mnemonic := m
  rkSvk := svk
  stored := Function.update others p (some salt)
  session _ := none

def MpReader.client : MpReader → Client
  | .webLogin | .webUnlock => .web
  | .desktop | .ffiLogin | .ffiUnlock => .native

/-- The salt that a path uses in the place `n` of its client: the stored one, without which it
fails. `ffiUnlock` is given one. -/
def MpReader.salt (a : Account κ) (n : ℕ) (given : κ.Salt) : MpReader → Option κ.Salt
  | .webLogin | .webUnlock => a.stored (.web, n)
  | .desktop | .ffiLogin => a.stored (.native, n)
  | .ffiUnlock => some given

/-- What a path comes to in a place, with this password. -/
def Account.opens (a : Account κ) (r : MpReader) (n : ℕ) (pw : κ.Password) (given : κ.Salt) :
    Option Key :=
  (r.salt a n given).bind fun salt => r.unlock a.user (κ.masterKey pw salt) a.mp

/-- What can happen to the blobs of an account: an unlock (and whether the blob that a login on the
web rewraps arrives), a lock, a rotation that takes effect, and a recovery; and another account can
take a place over. -/
inductive Flow (κ : Kdf)
  | unlock (r : MpReader) (n : ℕ) (pw : κ.Password) (given : κ.Salt) (arrives : Bool)
  | lock (p : Place)
  | rotateKey (p : Place) (pw : κ.Password) (svk : Key)
  | recover (p : Place) (phrase : κ.Phrase) (pw : κ.Password) (salt : κ.Salt) (m : κ.Mnemonic)
  | replace (p : Place) (salt : Option κ.Salt)

/-- A path that has opened the blob. -/
def enter (a : Account κ) (r : MpReader) (n : ℕ) (pw : κ.Password) (salt : κ.Salt) (arrives : Bool)
    (svk : Key) : Account κ :=
  let a := a.setSession (r.client, n) (some ⟨pw, salt, svk⟩)
  let opened := unwrapSvkWithAdOrLegacy a.mp (.kek (κ.masterKey pw salt)) a.user
  -- a login on the web rebinds a blob that opened under the nil uuid to the user
  if r = .webLogin ∧ opened.any Prod.snd ∧ arrives then a.storeMp .webRekey pw salt svk else a

def step (a : Account κ) : Flow κ → Account κ
  | .unlock r n pw given arrives =>
    match r.salt a n given, a.opens r n pw given with
    | some salt, some svk => enter a r n pw salt arrives svk
    | _, _ => a
  | .lock p => a.setSession p none
  | .rotateKey p pw svk =>
    match p.1, a.session p, a.stored p with
    -- the web wraps the key that it has, under the password it is given
    | .web, some s, some salt => a.storeMp (.rotateKey .web) pw salt s.svk
    | .native, some s, _ =>
      (a.storeMp (.rotateKey .native) s.password s.salt svk).setSession p (some { s with svk })
    | _, _, _ => a
  | .recover p phrase pw salt m =>
    match p.1.recover κ a.user phrase a.rk with
    | some svk =>
      let a := (a.storeMp (.recover p.1) pw salt svk).storeRk (.recover p.1) m svk
      -- the web does not store the new salt
      if p.1 = .native then a.storeSalt p (some salt) else a
    | none => a
  | .replace p salt => (a.storeSalt p salt).setSession p none

/-! ### What opens what -/

lemma decrypt_of_ne {k k' : DKey} {u u' : ℕ} {g : UInt64} {p : Plain} (h : k ≠ k' ∨ u ≠ u') :
    decrypt k' u' g (encrypt k u g p) = none := by
  rw [encrypt, decrypt, if_neg]
  rintro ⟨hk, hu, -⟩
  rcases h with h | h
  · exact h hk
  · exact h hu

lemma unwrapSvk_none {mk mk' svk : Key} {u user : ℕ} (h : mk' ≠ mk) :
    unwrapSvk mk' user (encrypt (.kek mk) u 0 (.key svk)) = none := by
  have hk : (DKey.kek mk) ≠ .kek mk' := by simpa using h.symm
  rw [unwrapSvk, openSvk, decrypt_of_ne (.inl hk), decrypt_of_ne (.inl hk)]
  rfl

lemma unwrapSvk_iff {mk svk : Key} {u user : ℕ} :
    unwrapSvk mk user (encrypt (.kek mk) u 0 (.key svk)) = some svk ↔ u = user ∨ u = nil := by
  rcases eq_or_ne u user with rfl | hu
  · simp [unwrapSvk, openSvk]
  · rw [unwrapSvk, openSvk, decrypt_of_ne (.inr hu)]
    rcases eq_or_ne u nil with rfl | hn
    · simp [nil]
    · have hd : decrypt (.kek mk) 0 0 (encrypt (.kek mk) u 0 (.key svk)) = none :=
        decrypt_of_ne (.inr hn)
      simp [hd, hu, hn]

lemma bind_asKey_iff {k : DKey} {svk : Key} {u user : ℕ} :
    (decrypt k user 0 (encrypt k u 0 (.key svk))).bind asKey = some svk ↔ u = user := by
  rcases eq_or_ne u user with rfl | hu
  · simp [asKey]
  · simp [decrypt_of_ne (.inr hu), hu]

/-- The associated data a reader accepts. -/
def MpReader.accepts (user : ℕ) : MpReader → List ℕ
  | .webLogin | .ffiUnlock => [user, nil]
  | .webUnlock | .desktop | .ffiLogin => [nil]

/-- **A reader with the right master key** opens what is bound to what it accepts. -/
lemma unlock_iff {r : MpReader} {mk svk : Key} {u user : ℕ} :
    r.unlock user mk (encrypt (.kek mk) u 0 (.key svk)) = some svk ↔ u ∈ r.accepts user := by
  cases r with
  | webLogin =>
    rcases eq_or_ne u user with rfl | hu
    · simp [MpReader.unlock, unwrapSvkWithAdOrLegacy, unwrapSvkWithAd, MpReader.accepts, asKey]
    · have hd : decrypt (.kek mk) user 0 (encrypt (.kek mk) u 0 (.key svk)) = none :=
        decrypt_of_ne (.inr hu)
      simp [MpReader.unlock, unwrapSvkWithAdOrLegacy, unwrapSvkWithAd, wasmUnwrapSvk, hd, hu,
        Function.comp_def, bind_asKey_iff, MpReader.accepts]
  | webUnlock => simp [MpReader.unlock, wasmUnwrapSvk, bind_asKey_iff, MpReader.accepts]
  | desktop =>
    rcases eq_or_ne u nil with rfl | hu
    · have : unwrapSvk mk nil (encrypt (.kek mk) nil 0 (.key svk)) = some svk :=
        unwrapSvk_iff.mpr (.inl rfl)
      simp [MpReader.unlock, desktopUnlock, asKey, this, MpReader.accepts]
    · simp [MpReader.unlock, desktopUnlock, decrypt_of_ne (.inr hu), hu, MpReader.accepts]
  | ffiLogin => simp [MpReader.unlock, unwrapSvk_iff, MpReader.accepts]
  | ffiUnlock => simp [MpReader.unlock, unwrapSvk_iff, MpReader.accepts]

/-- With another master key nothing opens. -/
lemma unlock_none {r : MpReader} {mk mk' svk : Key} {u user : ℕ} (h : mk' ≠ mk) :
    r.unlock user mk' (encrypt (.kek mk) u 0 (.key svk)) = none := by
  have hk : (DKey.kek mk) ≠ .kek mk' := by simpa using h.symm
  cases r with
  | webLogin =>
    simp [MpReader.unlock, unwrapSvkWithAdOrLegacy, unwrapSvkWithAd, wasmUnwrapSvk,
      decrypt_of_ne (.inl hk)]
  | webUnlock => simp [MpReader.unlock, wasmUnwrapSvk, decrypt_of_ne (.inl hk)]
  | desktop => simp [MpReader.unlock, desktopUnlock, decrypt_of_ne (.inl hk)]
  | ffiLogin => simp [MpReader.unlock, unwrapSvk_none h]
  | ffiUnlock => simp [MpReader.unlock, unwrapSvk_none h]

/-- The associated data a client accepts when it recovers. -/
def Client.accepts (user : ℕ) : Client → List ℕ
  | .web => [user]
  | .native => [user, nil]

lemma recover_iff {c : Client} {m : κ.Mnemonic} {phrase : κ.Phrase} {svk : Key} {u user : ℕ}
    (hp : κ.decode phrase = some m) :
    c.recover κ user phrase (encrypt (deriveKekRk κ m) u 0 (.key svk)) = some svk ↔
      u ∈ c.accepts user := by
  cases c with
  | web => simp [Client.recover, recoverSvkJs, hp, unwrapSvkWithRk, bind_asKey_iff, Client.accepts]
  | native =>
    rcases eq_or_ne u user with rfl | hu
    · simp [Client.recover, recoverSvk, hp, unwrapSvkWithRk, asKey, Client.accepts]
    · simp [Client.recover, recoverSvk, hp, unwrapSvkWithRk, decrypt_of_ne (.inr hu),
        bind_asKey_iff, hu, Client.accepts]

lemma recover_none {c : Client} {m : κ.Mnemonic} {phrase : κ.Phrase} {svk : Key} {u user : ℕ}
    (hp : κ.decode phrase ≠ some m) :
    c.recover κ user phrase (encrypt (deriveKekRk κ m) u 0 (.key svk)) = none := by
  rcases hd : κ.decode phrase with _ | n
  · cases c <;> simp [Client.recover, recoverSvkJs, recoverSvk, hd]
  · have hk : deriveKekRk κ m ≠ deriveKekRk κ n := by
      intro h
      rw [hd, κ.seed_inj (DKey.kekRk.inj h)] at hp
      exact hp rfl
    cases c <;>
      simp [Client.recover, recoverSvkJs, recoverSvk, hd, unwrapSvkWithRk, decrypt_of_ne (.inl hk)]

/-! ### What the flows keep -/

/-- The associated data of an MP blob. -/
def MpWriter.binds (user : ℕ) : MpWriter → ℕ
  | .webRekey => user
  | _ => nil

lemma MpWriter.wrap_eq (w : MpWriter) (user : ℕ) (mk svk : Key) :
    w.wrap user mk svk = encrypt (.kek mk) (w.binds user) 0 (.key svk) := by
  rcases w with c | c | c | _
  case webRekey => rfl
  all_goals cases c <;> rfl

/-- The associated data of an RK blob. -/
def RkWriter.binds (user : ℕ) : RkWriter → ℕ
  | .recover .native => user
  | _ => nil

lemma RkWriter.wrap_eq (w : RkWriter) (user : ℕ) (m : κ.Mnemonic) (svk : Key) :
    w.wrap κ user m svk = encrypt (deriveKekRk κ m) (w.binds user) 0 (.key svk) := by
  rcases w with c | c <;> cases c <;> rfl

/-- Both blobs are what the notes beside them say. -/
structure Noted (a : Account κ) : Prop where
  mp : a.mp = a.mpBy.wrap a.user (κ.masterKey a.password a.salt) a.mpSvk
  rk : a.rk = a.rkBy.wrap κ a.user a.mnemonic a.rkSvk

lemma noted_storeMp {a : Account κ} (h : Noted a) (w : MpWriter) (pw : κ.Password)
    (salt : κ.Salt) (svk : Key) : Noted (a.storeMp w pw salt svk) := ⟨rfl, h.rk⟩

lemma noted_storeRk {a : Account κ} (h : Noted a) (w : RkWriter) (m : κ.Mnemonic) (svk : Key) :
    Noted (a.storeRk w m svk) := ⟨h.mp, rfl⟩

lemma noted_storeSalt {a : Account κ} (h : Noted a) (p : Place) (salt : Option κ.Salt) :
    Noted (a.storeSalt p salt) := ⟨h.mp, h.rk⟩

lemma noted_setSession {a : Account κ} (h : Noted a) (p : Place) (s : Option (Session κ)) :
    Noted (a.setSession p s) := ⟨h.mp, h.rk⟩

lemma noted_step {a : Account κ} (h : Noted a) (f : Flow κ) : Noted (step a f) := by
  cases f with
  | unlock r n pw given arrives =>
    simp only [step]
    split
    · unfold enter
      dsimp only
      split
      · exact noted_storeMp (noted_setSession h _ _) ..
      · exact noted_setSession h _ _
    · exact h
  | lock p => exact noted_setSession h _ _
  | rotateKey p pw svk =>
    simp only [step]
    split
    · exact noted_storeMp h ..
    · exact noted_setSession (noted_storeMp h ..) _ _
    · exact h
  | recover p phrase pw salt m =>
    simp only [step]
    split
    · split
      · exact noted_storeSalt (noted_storeRk (noted_storeMp h ..) ..) _ _
      · exact noted_storeRk (noted_storeMp h ..) ..
    · exact h
  | replace p salt => exact noted_setSession (noted_storeSalt h _ _) _ _

lemma noted_run {a : Account κ} (h : Noted a) (fs : List (Flow κ)) : Noted (fs.foldl step a) := by
  induction fs generalizing a with
  | nil => exact h
  | cons f fs ih => exact ih (noted_step h f)

/-! ### The matrix -/

/-- A path opens the MP blob if it has the salt that the blob was sealed with, and knows the
associated data. -/
lemma opens_iff {a : Account κ} (h : Noted a) (r : MpReader) (n : ℕ) (given : κ.Salt) :
    a.opens r n a.password given = some a.mpSvk ↔ r.salt a n given = some a.salt ∧
      (a.mpBy = .webRekey → a.user = nil ∨ r = .webLogin ∨ r = .ffiUnlock) := by
  unfold Account.opens
  rw [h.mp, a.mpBy.wrap_eq]
  cases hs : r.salt a n given with
  | none => simp
  | some salt =>
    rcases eq_or_ne salt a.salt with rfl | hne
    · rw [Option.bind_some, unlock_iff, and_iff_right rfl]
      rcases a.mpBy with _ | _ | _ | _ <;> cases r <;> simp [MpWriter.binds, MpReader.accepts]
    · refine iff_of_false ?_ fun hsame => hne (Option.some.inj hsame.1)
      rw [Option.bind_some, unlock_none fun hk => hne (κ.masterKey_inj hk).2]
      simp

/-- Derivations without collisions, on numbers. -/
abbrev numbers : Kdf where
  Password := ℕ
  Salt := ℕ
  Mnemonic := ℕ
  Phrase := ℕ
  masterKey := Nat.pair
  masterKey_inj := Nat.pair_eq_pair.mp
  seed := id
  seed_inj := id
  words := id
  decode := some
  decode_words _ := rfl

/-- An account of user 7 that registered in a browser and then logged in there. -/
def rebound : Account numbers :=
  [Flow.unlock (κ := numbers) .webLogin 0 11 0 true].foldl step
    (register (κ := numbers) (.web, 0) (fun _ => none) 7 11 12 13 14)

end Vautr.SvkBlobs
