import Mathlib.Algebra.Ring.Nat
import Mathlib.Data.List.Basic
import Mathlib.Data.Nat.Notation
import Mathlib.Data.Prod.Lex
import Mathlib.Tactic.Lemma

/-!
The desktop updater (`updater.rs`): which packages it accepts from a server that serves what it
likes.

The version of the manifest decides whether there is an update; the signature covers the bytes
of the package only. The check of a signature is the parameter `verify`.
-/

namespace Vautr.Updater

abbrev Bytes := List UInt8

/-- `VerifyingKey::verify_strict`, of the `ed25519-dalek` crate, for the key of the updater: the
package and the 64 bytes of a signature. -/
abbrev Verify := Bytes → Bytes → Bool

/-! ### Versions -/

/-- The part of a list before the first element in `p`. -/
def before (p : Char → Bool) (s : List Char) : List Char := s.takeWhile fun c => !p c

/-- `str::split` at a character. -/
def splitAt (sep : Char) : List Char → List (List Char)
  | [] => [[]]
  | c :: s =>
    if c = sep then [] :: splitAt sep s
    else match splitAt sep s with
      | [] => [[c]]
      | part :: parts => (c :: part) :: parts

/-- The number that digits stand for. -/
def digits : List Char → Option ℕ
  | s => s.foldl (fun n c => n.bind fun n =>
      if c.isDigit then some (n * 10 + (c.toNat - '0'.toNat)) else none) (some 0)

/-- `str::parse::<u32>`. -/
def parseU32 (s : List Char) : Option ℕ :=
  let body := match s with
    | '+' :: rest => rest
    | _ => s
  if body.isEmpty then none else (digits body).bind fun n => if n < 2 ^ 32 then some n else none

abbrev Version := ℕ ×ₗ ℕ ×ₗ ℕ

def parseVersion (v : String) : Version :=
  let core := before (fun c => c = '-' || c = '+') v.toList
  let part (i : ℕ) : ℕ := (((splitAt '.' core)[i]?).bind parseU32).getD 0
  toLex (part 0, toLex (part 1, part 2))

def versionIsNewer (current candidate : String) : Bool :=
  parseVersion current < parseVersion candidate

/-! ### Signatures -/

/-- The characters that `str::trim` removes. -/
def isWhitespace (c : Char) : Bool :=
  (9 ≤ c.toNat && c.toNat ≤ 13) || c.toNat ∈ [0x20, 0x85, 0xA0, 0x1680] ||
  (0x2000 ≤ c.toNat && c.toNat ≤ 0x200A) || c.toNat ∈ [0x2028, 0x2029, 0x202F, 0x205F, 0x3000]

def trim (s : List Char) : List Char :=
  ((s.dropWhile isWhitespace).reverse.dropWhile isWhitespace).reverse

def hexVal (c : UInt8) : Option UInt8 :=
  if 48 ≤ c && c ≤ 57 then some (c - 48)
  else if 97 ≤ c && c ≤ 102 then some (c - 97 + 10)
  else if 65 ≤ c && c ≤ 70 then some (c - 65 + 10)
  else none

/-- The loop over the pairs of digits. -/
def hexPairs : Bytes → Option Bytes
  | hi :: lo :: rest => do
    let hi ← hexVal hi
    let lo ← hexVal lo
    return ((hi <<< 4) ||| lo) :: (← hexPairs rest)
  | _ => some []

def hexDecode64 (s : String) : Option Bytes :=
  let bytes := (trim s.toList).flatMap String.utf8EncodeChar
  if bytes.length ≠ 128 then none else hexPairs bytes

/-! ### The updater -/

/-- `UpdateManifest`, and `UpdateInfo`. -/
structure UpdateManifest where
  version : String
  url : String
  sha256 : String
  signature : String
  deriving DecidableEq

inductive UpdateDecision
  | disabled
  | upToDate
  | available (info : UpdateManifest)
  deriving DecidableEq

inductive UpdateError
  | badManifest (msg : String)
  | signatureInvalid
  | unparseableVersion (version : String)
  | source (msg : String)
  deriving DecidableEq

/-- `UpdateSource`: what the server answers. -/
structure UpdateSource where
  fetchManifest : Except String UpdateManifest
  downloadPackage : String → Except String Bytes

/-- `Updater`; the public key is in `verify`. -/
structure Updater where
  verify : Verify
  currentVersion : String
  autoUpdateEnabled : Bool

variable (u : Updater) (source : UpdateSource)

def Updater.verifySignature (package : Bytes) (signatureHex : String) : Bool :=
  match hexDecode64 signatureHex with
  | some sig => u.verify package sig
  | none => false

def Updater.check : Except UpdateError UpdateDecision := do
  if !u.autoUpdateEnabled then return .disabled
  else
    let manifest ← source.fetchManifest.mapError .source
    if !versionIsNewer u.currentVersion manifest.version then return .upToDate
    else return .available manifest

def Updater.downloadAndVerify (info : UpdateManifest) : Except UpdateError Bytes := do
  let pkg ← (source.downloadPackage info.url).mapError .source
  if !u.verifySignature pkg info.signature then throw .signatureInvalid
  else return pkg

/-- `check`, followed by `download_and_verify` of what is available. -/
def Updater.accepted : Except UpdateError (Option Bytes) := do
  match ← u.check source with
  | .available info => return some (← u.downloadAndVerify source info)
  | _ => return none

/-! ### Rollback -/

/-- A package that was released, with the signature it was released with. -/
structure Release where
  version : String
  package : Bytes
  signature : String
  deriving DecidableEq

/-- What the updater accepts of this server was released for newer versions only. -/
def NoRollback (releases : List Release) : Prop :=
  ∀ pkg, u.accepted source = .ok (some pkg) →
    ∀ r ∈ releases, r.package = pkg → versionIsNewer u.currentVersion r.version

/-- The last version there can be. -/
def lastVersion : String := "4294967295.4294967295.4294967295"

lemma parseU32_le {s : List Char} {n : ℕ} (h : parseU32 s = some n) : n ≤ 4294967295 := by
  simp only [parseU32, Option.ite_none_left_eq_some, Option.bind_eq_some_iff,
    Option.ite_none_right_eq_some] at h
  obtain ⟨-, m, -, hm, heq⟩ := h
  cases heq
  omega

lemma getD_parseU32_le (o : Option (List Char)) : (o.bind parseU32).getD 0 ≤ 4294967295 := by
  cases h : o.bind parseU32 with
  | none => simp
  | some n =>
    obtain ⟨s, -, hs⟩ := Option.bind_eq_some_iff.mp h
    exact parseU32_le hs

lemma parseVersion_last :
    parseVersion lastVersion = toLex (4294967295, toLex (4294967295, 4294967295)) := by
  decide +kernel

lemma toLex_le_toLex {α β : Type} [PartialOrder α] [PartialOrder β] {a a' : α} {b b' : β}
    (ha : a ≤ a') (hb : b ≤ b') : toLex (a, b) ≤ toLex (a', b') :=
  Prod.Lex.toLex_mono ⟨ha, hb⟩

lemma parseVersion_le_last (v : String) : parseVersion v ≤ parseVersion lastVersion := by
  rw [parseVersion_last]
  exact toLex_le_toLex (getD_parseU32_le _) (toLex_le_toLex (getD_parseU32_le _)
    (getD_parseU32_le _))

/-- No version is newer than the running one exactly if that is the last one. -/
lemma newer_last_iff (v : String) :
    versionIsNewer v lastVersion ↔ parseVersion v ≠ parseVersion lastVersion := by
  simp only [versionIsNewer, decide_eq_true_eq]
  exact lt_iff_le_and_ne.trans (and_iff_right (parseVersion_le_last v))

/-- A package is accepted exactly if the manifest has a newer version, and a signature of that
package. -/
lemma accepted_iff {pkg : Bytes} : u.accepted source = .ok (some pkg) ↔
    u.autoUpdateEnabled ∧ ∃ m, source.fetchManifest = .ok m ∧
      versionIsNewer u.currentVersion m.version ∧ source.downloadPackage m.url = .ok pkg ∧
      u.verifySignature pkg m.signature := by
  unfold Updater.accepted Updater.check Updater.downloadAndVerify
  cases hon : u.autoUpdateEnabled
  · simp [bind, Except.bind, pure, Except.pure]
  cases hm : source.fetchManifest with
  | error e => simp [bind, Except.bind, Except.mapError]
  | ok m =>
    cases hnew : versionIsNewer u.currentVersion m.version
    · simp [bind, Except.bind, pure, Except.pure, Except.mapError, hnew]
    cases hdown : source.downloadPackage m.url with
    | error e => simp [bind, Except.bind, pure, Except.pure, Except.mapError, hnew, hdown]
    | ok p =>
      by_cases hsig : u.verifySignature p m.signature
      · simp [bind, Except.bind, pure, Except.pure, Except.mapError, hnew, hdown, hsig]
        rintro rfl
        exact hsig
      · simp [bind, Except.bind, pure, Except.pure, Except.mapError, hnew, hdown, hsig]
        rintro rfl
        simpa using hsig

/-- The server that serves a release under the last version. -/
def replay (r : Release) : UpdateSource where
  fetchManifest := .ok ⟨lastVersion, "", "", r.signature⟩
  downloadPackage _ := .ok r.package

lemma accepted_replay {r : Release} (hon : u.autoUpdateEnabled)
    (hv : parseVersion u.currentVersion ≠ parseVersion lastVersion)
    (hr : u.verifySignature r.package r.signature) :
    u.accepted (replay r) = .ok (some r.package) :=
  (accepted_iff u _).mpr ⟨hon, _, rfl, (newer_last_iff _).mpr hv, rfl, hr⟩

/-- **No server can roll the client back exactly if** it asks for no updates, runs the last
version there can be, or every release is newer than what it runs. The signature does not cover
the version, so it does not matter what the packages were released as. -/
theorem no_rollback_iff (releases : List Release)
    (h : ∀ r ∈ releases, u.verifySignature r.package r.signature) :
    (∀ source, NoRollback u source releases) ↔
      u.autoUpdateEnabled = false ∨ parseVersion u.currentVersion = parseVersion lastVersion ∨
        ∀ r ∈ releases, versionIsNewer u.currentVersion r.version := by
  constructor
  · intro hall
    by_cases hon : u.autoUpdateEnabled
    · by_cases hv : parseVersion u.currentVersion = parseVersion lastVersion
      · exact .inr (.inl hv)
      · exact .inr (.inr fun r hr =>
          hall (replay r) _ (accepted_replay u hon hv (h r hr)) r hr rfl)
    · exact .inl (by simpa using hon)
  · intro hcond source pkg hacc r hr _
    obtain ⟨hon, m, -, hm, -⟩ := (accepted_iff u source).mp hacc
    obtain hoff | hlast | hnew := hcond
    · simp [hoff] at hon
    · simp only [versionIsNewer, decide_eq_true_eq, hlast] at hm
      exact absurd hm (parseVersion_le_last _).not_gt
    · exact hnew r hr

/-- The release 0.8.0. -/
def oldRelease : Release := ⟨"0.8.0", [8], String.ofList (List.replicate 128 'a')⟩

/-- A client that runs 0.9.0; of the vendor's signatures it knows that of 0.8.0. -/
def client : Updater where
  verify pkg sig := pkg = [8] && sig = List.replicate 64 0xaa
  currentVersion := "0.9.0"
  autoUpdateEnabled := true

lemma verifySignature_oldRelease :
    ∀ r ∈ [oldRelease], client.verifySignature r.package r.signature := by
  simp only [List.mem_singleton, forall_eq]
  decide +kernel

theorem no_rollback_iff_client :
    (∀ source, NoRollback client source [oldRelease]) ↔
      client.autoUpdateEnabled = false ∨
        parseVersion client.currentVersion = parseVersion lastVersion ∨
        ∀ r ∈ [oldRelease], versionIsNewer client.currentVersion r.version :=
  no_rollback_iff client [oldRelease] verifySignature_oldRelease

/-- A manifest for 99.0.0 with the package and the signature of 0.8.0: the client that runs 0.9.0
takes it. -/
theorem old_release_accepted :
    ∃ source : UpdateSource, source.fetchManifest =
        .ok ⟨"99.0.0", "https://updates/old", "", oldRelease.signature⟩ ∧
      client.accepted source = .ok (some oldRelease.package) ∧
      ¬ NoRollback client source [oldRelease] := by
  let source : UpdateSource :=
    { fetchManifest := .ok ⟨"99.0.0", "https://updates/old", "", oldRelease.signature⟩
      downloadPackage := fun _ => .ok oldRelease.package }
  have hacc : client.accepted source = .ok (some oldRelease.package) :=
    (accepted_iff client source).mpr ⟨rfl, _, rfl, by decide +kernel, rfl,
      verifySignature_oldRelease _ (List.mem_singleton_self _)⟩
  refine ⟨source, rfl, hacc, fun hno => ?_⟩
  exact absurd (hno _ hacc _ (List.mem_singleton_self _) rfl) (by decide +kernel)

end Vautr.Updater
