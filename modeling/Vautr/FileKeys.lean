import Vautr.Interleave
import Vautr.Orchestrator

/-!
Attachments and the keys they are encrypted under (`vautr-files`, `file_transfer.rs`).

The key of a file is derived from the vault key and travels in the manifest, in an envelope
that is sealed under the vault key of the upload. A rotation draws a new vault key and walks
the item tables only; nothing wraps the envelopes again. So an attachment can be read as long
as the client has the vault key it was uploaded under.
-/

namespace Vautr.FileKeys

open Vautr.Atomic Vautr.Interleave Vautr.Session Vautr.Sql Vautr.Server Vautr.Handlers Vautr.Crypto
  Vautr.Client Vautr.Orchestrator Vautr.Zoom

/-! ### Manifests (`manifest.rs`) -/

/-- A file key, `HKDF(SVK, "vautr-fek-{file_uuid}")`. -/
structure FileKey where
  svk : Key
  uuid : Ident
  deriving DecidableEq

/-- The file key as the manifest holds it, sealed under a vault key for a file. -/
structure WrappedFek where
  svk : Key
  uuid : Ident
  fek : FileKey
  deriving DecidableEq

inductive AttachmentState
  | pendingUpload
  | available
  deriving DecidableEq

structure FileManifest where
  fileUuid : Ident
  totalSize : ℕ
  chunkSize : ℕ
  totalChunks : ℕ
  encKeyGen : UInt64
  contentType : String
  lastModified : ℤ
  status : AttachmentState
  fekWrapped : Option WrappedFek
  deriving DecidableEq

/-- `CHUNK_SIZE`, and `PLAINTEXT_CHUNK`: 1 MiB. The code below is written for any such size
`cs`. -/
def chunkSize : ℕ := 1048576

variable (cs : ℕ)

/-- `total_size.div_ceil(chunk_size).max(1) as u32`. -/
def chunkCount (totalSize chunkSize : ℕ) : ℕ :=
  max ((totalSize + chunkSize - 1) / chunkSize) 1 % 2 ^ 32

def FileManifest.new (fileUuid : Ident) (totalSize : ℕ) (encKeyGen : UInt64) (contentType : String)
    (lastModified : ℤ) : FileManifest :=
  ⟨fileUuid, totalSize, cs, chunkCount totalSize cs, encKeyGen, contentType,
    lastModified, .pendingUpload, none⟩

def FileManifest.chunkLen (M : FileManifest) (index : ℕ) : ℕ :=
  min (M.totalSize - index * M.chunkSize) M.chunkSize

def FileManifest.validate (M : FileManifest) : Bool :=
  M.chunkSize ≠ 0 && M.totalChunks = chunkCount M.totalSize M.chunkSize

/-! ### Streams (`file.rs`) -/

inductive FileError
  | manifestGeometry
  | lengthIntegrity
  | malformedChunk
  | tagMismatch
  deriving DecidableEq

/-- One encrypted chunk: nonce, ciphertext and tag, sealed for the chunk `index` of a file. -/
structure ChunkBox where
  key : FileKey
  uuid : Ident
  gen : UInt64
  index : ℕ
  plain : List UInt8
  deriving DecidableEq

def ChunkBox.open (b : ChunkBox) (key : FileKey) (M : FileManifest) (index : ℕ) :
    Option (List UInt8) :=
  if b.key = key ∧ b.uuid = M.fileUuid ∧ b.gen = M.encKeyGen ∧ b.index = index then some b.plain
  else none

/-- The loop of `encrypt_file_stream`; every round but the last takes a byte of the input, so
it ends within `fuel` rounds if there are more of them than bytes. -/
def encryptStream (key : FileKey) (M : FileManifest) :
    (fuel index remaining : ℕ) → List UInt8 → Except FileError (List ChunkBox)
  | 0, _, _, _ => .error .lengthIntegrity
  | fuel + 1, index, remaining, input =>
    if remaining = 0 then .ok []
    else
      let chunk := input.take (min remaining cs)
      if chunk = [] then .error .lengthIntegrity
      else
        (encryptStream key M fuel (index + 1) (remaining - chunk.length)
          (input.drop chunk.length)).map (⟨key, M.fileUuid, M.encKeyGen, index, chunk⟩ :: ·)

def encryptFileStream (input : List UInt8) (key : FileKey) (M : FileManifest) :
    Except FileError (List ChunkBox) :=
  if M.validate then encryptStream cs key M (M.totalSize + 1) 0 M.totalSize input
  else .error .manifestGeometry

/-- The loop of `decrypt_file_stream`. A chunk is read with the length that the manifest gives
it. -/
def decryptStream (key : FileKey) (M : FileManifest) :
    (index remaining : ℕ) → List ChunkBox → Except FileError (List UInt8)
  | _, remaining, [] => if remaining = 0 then .ok [] else .error .malformedChunk
  | index, remaining, b :: rest =>
    if remaining = 0 then .error .lengthIntegrity
    else if b.plain.length ≠ M.chunkLen index then .error .malformedChunk
    else
      match b.open key M index with
      | none => .error .tagMismatch
      | some p => (decryptStream key M (index + 1) (remaining - p.length) rest).map (p ++ ·)

def decryptFileStream (input : List ChunkBox) (key : FileKey) (M : FileManifest) :
    Except FileError (List UInt8) :=
  if M.validate then decryptStream key M 0 M.totalSize input else .error .manifestGeometry

/-! ### File keys (`file_transfer.rs`) -/

def deriveFek (svk : Key) (fileUuid : Ident) : FileKey := ⟨svk, fileUuid⟩

def wrapFek (svk : Key) (fileUuid : Ident) (fek : FileKey) : WrappedFek := ⟨svk, fileUuid, fek⟩

def unwrapFek (svk : Key) (fileUuid : Ident) (w : WrappedFek) : Option FileKey :=
  if w.svk = svk ∧ w.uuid = fileUuid then some w.fek else none

def resolveFek (svk : Key) (M : FileManifest) : Except ClientError FileKey :=
  match M.fekWrapped with
  | some w =>
    match unwrapFek svk M.fileUuid w with
    | some fek => .ok fek
    | none => .error (.text ("attachment key envelope does not match the current vault key (file " ++
        toString M.fileUuid ++ " was created before a key rotation and cannot be decrypted)"))
  | none => .ok (deriveFek svk M.fileUuid)

/-! ### The world of a client and its attachments -/

/-- A file that a client uploads: what it is given and the vault key it finds. -/
structure Attachment where
  uuid : Ident
  svk : Key
  plaintext : List UInt8
  contentType : String
  lastModified : ℤ
  deriving DecidableEq

/-- The manifest that `upload_bytes` makes. -/
def Attachment.manifest (a : Attachment) : FileManifest :=
  { FileManifest.new cs a.uuid a.plaintext.length 0 a.contentType a.lastModified with
    fekWrapped := some (wrapFek a.svk a.uuid (deriveFek a.svk a.uuid)) }

@[simp] lemma Attachment.manifest_fileUuid (a : Attachment) :
    (a.manifest cs).fileUuid = a.uuid := rfl

/-- The ciphertext that `upload_bytes` makes. -/
def Attachment.ciphertext (a : Attachment) : Except FileError (List ChunkBox) :=
  encryptFileStream cs a.plaintext (deriveFek a.svk a.uuid) (a.manifest cs)

/-- A chunk as the blob store holds it: a piece of the ciphertext. -/
structure StoredChunk where
  fileUuid : Ident
  index : ℕ
  data : List ChunkBox

def StoredChunk.key (c : StoredChunk) : Ident × ℕ := (c.fileUuid, c.index)

/-- The clients with their server, the blob store, and the next uuid that nobody has drawn.
`started` and `finished` are the uploads that drew a uuid and those that were completed; no
code reads them. -/
structure FilesWorld where
  of ::
  world : World
  chunks : Table StoredChunk.key
  nextUuid : Ident
  started : List Attachment
  finished : List Attachment

/-- Nothing was uploaded yet. -/
def FilesWorld.new (w : World) : FilesWorld := ⟨w, .empty, 0, [], []⟩

inductive FileLabel
  | client (n : Name)
  | fileTransport
  | newUuid
  | initiateUpload (fileUuid : Ident)
  | uploadChunk (fileUuid : Ident) (index : ℕ)
  | completeUpload (fileUuid : Ident)
  | fetchChunk (fileUuid : Ident) (index : ℕ)
  deriving DecidableEq

abbrev FileCode := Prog FilesWorld ClientEnv FileLabel

abbrev FileOp := ExceptT ClientError FileCode

def onWorld : View World FilesWorld ClientEnv ClientEnv Name FileLabel :=
  ⟨FilesWorld.world, fun w s => { s with world := w }, id, .client, fun _ _ => rfl⟩

/-- A statement on the blob store: it fails, or does `g`. -/
def onFiles {α : Type} (l : FileLabel) (context : String)
    (g : FilesWorld → FilesWorld × Except ClientError α) : FileOp α :=
  ExceptT.mk (Prog.atom l fun e s => if e.fault then (s, .error (.text context)) else g s)

/-- `file_worker`: there is a file transport. -/
def fileTransport : FileOp Unit :=
  onFiles .fileTransport "file transport not connected" fun s => (s, .ok ())

/-- `Uuid::new_v4`, which gives no uuid twice. -/
def newUuid (make : Ident → Attachment) : FileOp Attachment :=
  ExceptT.mk (Prog.atom .newUuid fun _ s =>
    let a := make s.nextUuid
    ({ s with nextUuid := s.nextUuid + 1, started := s.started ++ [a] }, .ok a))

def initiateUpload (M : FileManifest) : FileOp Unit :=
  onFiles (.initiateUpload M.fileUuid) "initiate upload" fun s => (s, .ok ())

def StoredChunk.set (data : List ChunkBox) (c : StoredChunk) : StoredChunk := { c with data }

lemma StoredChunk.set_key (data : List ChunkBox) (c : StoredChunk) : (c.set data).key = c.key := rfl

/-- The blob store keeps the last bytes it was given for a chunk. -/
def FilesWorld.putChunk (s : FilesWorld) (fileUuid : Ident) (index : ℕ) (data : List ChunkBox) :
    FilesWorld :=
  let chunks := s.chunks.upsert ⟨fileUuid, index, data⟩ (·.set data) (StoredChunk.set_key data)
  { s with chunks }

def uploadChunk (fileUuid : Ident) (index : ℕ) (data : List ChunkBox) : FileOp Unit :=
  onFiles (.uploadChunk fileUuid index) "upload chunk" fun s =>
    (s.putChunk fileUuid index data, .ok ())

def completeUpload (a : Attachment) : FileOp Unit :=
  onFiles (.completeUpload a.uuid) "complete upload" fun s =>
    ({ s with finished := s.finished ++ [a] }, .ok ())

def fetchChunk (fileUuid : Ident) (index : ℕ) : FileOp (List ChunkBox) :=
  onFiles (.fetchChunk fileUuid index) "fetch chunk" fun s =>
    (s, match s.chunks.get (fileUuid, index) with
      | some c => .ok c.data
      | none => .error (.text "missing chunk"))

/-- The piece of the ciphertext that is uploaded as the chunk `index`. -/
def piece (ct : List ChunkBox) (index : ℕ) : List ChunkBox := (ct.drop index).take 1

/-- The loop over the chunks of an upload. -/
def uploadChunks (fileUuid : Ident) (ct : List ChunkBox) : List ℕ → FileOp Unit
  | [] => pure ()
  | index :: rest => do
    uploadChunk fileUuid index (piece ct index)
    uploadChunks fileUuid ct rest

/-- The loop over the chunks of a download. -/
def fetchChunks (fileUuid : Ident) : List ℕ → FileOp (List ChunkBox)
  | [] => pure []
  | index :: rest => do
    let chunk ← fetchChunk fileUuid index
    return chunk ++ (← fetchChunks fileUuid rest)

variable (X : Ext Blob) (d : ℕ)

/-- `upload_file`, with `upload_bytes`. -/
def uploadFile (plaintext : List UInt8) (contentType : String) (lastModified : ℤ) :
    FileOp FileManifest := do
  zoomE onWorld (requireUnlocked d)
  let svk ← zoomE onWorld (require d "vault locked" (·.svk))
  fileTransport
  let a ← newUuid fun uuid => ⟨uuid, svk, plaintext, contentType, lastModified⟩
  match a.ciphertext cs with
  | .error _ => throw (.text "encrypt stream")
  | .ok ct =>
    initiateUpload (a.manifest cs)
    uploadChunks a.uuid ct (List.range (a.manifest cs).totalChunks)
    completeUpload a
    return a.manifest cs

/-- `download_file`, with `download`. -/
def downloadFile (M : FileManifest) : FileOp (List UInt8) := do
  zoomE onWorld (requireUnlocked d)
  let svk ← zoomE onWorld (require d "vault locked" (·.svk))
  fileTransport
  match resolveFek svk M with
  | .error e => throw e
  | .ok fek =>
    let ct ← fetchChunks M.fileUuid (List.range M.totalChunks)
    match decryptFileStream ct fek M with
    | .error _ => throw (.text "decrypt stream")
    | .ok plaintext => return plaintext

/-- What is asked of the device `d`. -/
inductive FileCmd
  | client (q : Cmd)
  | upload (plaintext : List UInt8) (contentType : String) (lastModified : ℤ)
  | download (M : FileManifest)

inductive FileReply
  | client (r : CmdReply)
  | manifest (M : FileManifest)
  | plaintext (p : List UInt8)
  deriving DecidableEq

def fileExec : FileCmd → FileOp FileReply
  | .client q => return .client (← zoomE onWorld (exec X d q))
  | .upload p contentType lastModified =>
    return .manifest (← uploadFile cs d p contentType lastModified)
  | .download M => return .plaintext (← downloadFile d M)

/-- Any number of operations of any devices at the same time. -/
abbrev FileSys := Sys (ℕ × FileCmd) FilesWorld ClientEnv FileLabel (Except ClientError FileReply)

abbrev FileAct := Interleave.Act (ℕ × FileCmd) ClientEnv

def fileCode (q : ℕ × FileCmd) : FileCode (Except ClientError FileReply) := (fileExec cs X q.1 q.2).run

/-! ### Streams -/

section Streams

variable {cs} {key : FileKey} {M : FileManifest}

/-- What is left after a chunk. -/
lemma sub_min_eq (t a c : ℕ) : t - a - min (t - a) c = t - (a + c) := by
  omega

/-- A chunk less is a round less. -/
lemma rounds_succ {r c : ℕ} (hr : 0 < r) (hc : 0 < c) :
    (r - min r c + c - 1) / c + 1 = (r + c - 1) / c := by
  rcases Nat.lt_or_ge c r with h | h
  · rw [Nat.min_eq_right h.le, show r - c + c - 1 = r - 1 by omega,
      show r + c - 1 = r - 1 + c by omega, Nat.add_div_right _ hc]
  · rw [Nat.min_eq_left h, show r - r + c - 1 = c - 1 by omega,
      show r + c - 1 = r - 1 + c by omega, Nat.add_div_right _ hc,
      Nat.div_eq_of_lt (by omega), Nat.div_eq_of_lt (by omega)]

/-- An input of the length that is left is encrypted, in as many chunks as it takes, and
decrypted to what it was. -/
lemma encryptStream_spec (key : FileKey) (hcs : 0 < cs) (hM : M.chunkSize = cs) :
    ∀ {fuel index remaining : ℕ} (input : List UInt8), remaining < fuel →
      remaining = M.totalSize - index * cs → input.length = remaining →
      ∃ ct, encryptStream cs key M fuel index remaining input = .ok ct ∧
        ct.length = (remaining + cs - 1) / cs ∧
        decryptStream key M index remaining ct = .ok input := by
  intro fuel
  induction fuel with
  | zero => intro index remaining input h; omega
  | succ fuel ih =>
    intro index remaining input hfuel hrem hlen
    unfold encryptStream
    by_cases hzero : remaining = 0
    · subst hzero
      refine ⟨[], rfl, ?_, ?_⟩
      · rw [Nat.div_eq_of_lt (by omega), List.length_nil]
      · rw [List.length_eq_zero_iff.mp hlen, decryptStream, if_pos rfl]
    have hpos : 0 < min remaining cs := by
      omega
    have hchunk : (input.take (min remaining cs)).length = min remaining cs := by
      rw [List.length_take]
      omega
    have hne : input.take (min remaining cs) ≠ [] := by
      intro h
      rw [h, List.length_nil] at hchunk
      omega
    have hrest : remaining - min remaining cs = M.totalSize - (index + 1) * cs := by
      rw [hrem, Nat.add_one_mul, sub_min_eq]
    obtain ⟨ct, hct, hcount, hdec⟩ := ih (input.drop (min remaining cs)) (by omega) hrest (by rw [List.length_drop, hlen])
    dsimp only
    rw [if_neg hzero, if_neg hne, hchunk, hct]
    refine ⟨_, rfl, ?_, ?_⟩
    · rw [List.length_cons, hcount, rounds_succ (Nat.pos_of_ne_zero hzero) hcs]
    · have hlen' : M.chunkLen index = min remaining cs := by
        rw [FileManifest.chunkLen, hM, hrem]
      have hopen : (⟨key, M.fileUuid, M.encKeyGen, index, input.take (min remaining cs)⟩ :
          ChunkBox).open key M index = some (input.take (min remaining cs)) := by
        simp [ChunkBox.open]
      rw [decryptStream, if_neg hzero, if_neg (by rw [hchunk, hlen']; simp), hopen]
      dsimp only
      rw [hchunk, hdec, Except.map, List.take_append_drop]

/-- What was decrypted has the length that was left, and every chunk gave at most its share. -/
lemma decryptStream_bound : ∀ {ct : List ChunkBox} {index remaining : ℕ} {p : List UInt8},
    remaining = M.totalSize - index * M.chunkSize →
    decryptStream key M index remaining ct = .ok p →
      p.length = remaining ∧ remaining ≤ ct.length * M.chunkSize := by
  intro ct
  induction ct with
  | nil =>
    intro index remaining p _ h
    simp only [decryptStream] at h
    split at h
    · next hzero =>
      obtain rfl := Except.ok.inj h
      simp [hzero]
    · cases h
  | cons b rest ih =>
    intro index remaining p hrem h
    simp only [decryptStream] at h
    split at h
    · cases h
    split at h
    · cases h
    next hlen =>
    cases hopen : b.open key M index with
    | none => simp [hopen] at h
    | some q =>
      obtain rfl : b.plain = q := by
        simp only [ChunkBox.open, Option.ite_none_right_eq_some, Option.some.injEq] at hopen
        exact hopen.2
      simp only [hopen] at h
      cases hrest : decryptStream key M (index + 1) (remaining - b.plain.length) rest with
      | error e => simp [hrest, Except.map] at h
      | ok p' =>
        simp only [hrest, Except.map, Except.ok.injEq] at h
        have hlen' : b.plain.length = min remaining M.chunkSize := by
          rw [not_not] at hlen
          rw [hlen, FileManifest.chunkLen, hrem]
        obtain ⟨hp, hbound⟩ := ih (by rw [hlen', hrem, Nat.add_one_mul, sub_min_eq]) hrest
        subst h
        refine ⟨by rw [List.length_append, hp]; omega, ?_⟩
        rw [List.length_cons, Nat.add_one_mul]
        omega

/-- The pieces of a ciphertext, one after the other. -/
lemma flatten_pieces (ct : List ChunkBox) (n : ℕ) :
    ((List.range n).map (piece ct)).flatten = ct.take n := by
  induction n with
  | zero => rfl
  | succ n ih =>
    rw [List.range_succ, List.map_append, List.flatten_append, ih, List.take_add_one]
    cases hn : ct[n]? with
    | none =>
      have : ct.drop n = [] := List.drop_eq_nil_iff.mpr (List.getElem?_eq_none_iff.mp hn)
      simp [piece, this]
    | some b =>
      have : ct.drop n = b :: ct.drop (n + 1) := by
        obtain ⟨h, rfl⟩ := List.getElem?_eq_some_iff.mp hn
        exact List.drop_eq_getElem_cons h
      simp [piece, this]

end Streams

/-! ### Uploads -/

/-- The ciphertext of an attachment decrypts to its bytes. -/
lemma Attachment.ciphertext_spec {cs : ℕ} (hcs : 0 < cs) (a : Attachment) : ∃ ct, a.ciphertext cs = .ok ct ∧
    ct.length = (a.plaintext.length + cs - 1) / cs ∧
    decryptFileStream ct (deriveFek a.svk a.uuid) (a.manifest cs) = .ok a.plaintext := by
  have hvalid : (a.manifest cs).validate = true := by
    simp [FileManifest.validate, Attachment.manifest, FileManifest.new, hcs.ne']
  have hstart : (a.manifest cs).totalSize = (a.manifest cs).totalSize - 0 * cs := by
    rw [Nat.zero_mul, Nat.sub_zero]
  obtain ⟨ct, hct, hlen, hdec⟩ := encryptStream_spec (deriveFek a.svk a.uuid) hcs (M := (a.manifest cs)) rfl
    a.plaintext (Nat.lt_succ_self _) hstart rfl
  refine ⟨ct, ?_, hlen, ?_⟩
  · rw [Attachment.ciphertext, encryptFileStream, if_pos hvalid, hct]
  · rw [decryptFileStream, if_pos hvalid, hdec]

/-- What the upload of an attachment stores as the chunk `index`. -/
def Attachment.stored (a : Attachment) (index : ℕ) : List ChunkBox :=
  match a.ciphertext cs with
  | .ok ct => piece ct index
  | .error _ => []

/-- The chunk is there. -/
def Present (s : FilesWorld) (uuid : Ident) (index : ℕ) : Prop :=
  (s.chunks.get (uuid, index)).isSome = true

/-- What the blob store holds comes from the uploads, and it holds all of those that were
completed. -/
structure Sound (s : FilesWorld) : Prop where
  drawn : ∀ a ∈ s.started, a.uuid < s.nextUuid
  unique : ∀ a ∈ s.started, ∀ b ∈ s.started, a.uuid = b.uuid → a = b
  stored : ∀ u i, ∀ c ∈ s.chunks.get (u, i), ∃ a ∈ s.started, a.uuid = u ∧ c.data = a.stored cs i
  finished : ∀ a ∈ s.finished, a ∈ s.started ∧ ∀ i < (a.manifest cs).totalChunks, Present s a.uuid i

/-- Nothing that was started or stored goes away. -/
structure Grows (s s' : FilesWorld) : Prop where
  started : ∀ a ∈ s.started, a ∈ s'.started
  present : ∀ u i, Present s u i → Present s' u i

lemma Grows.refl (s : FilesWorld) : Grows s s := ⟨fun _ h => h, fun _ _ h => h⟩

lemma Grows.trans {s₁ s₂ s₃ : FilesWorld} (h : Grows s₁ s₂) (h' : Grows s₂ s₃) : Grows s₁ s₃ :=
  ⟨fun a ha => h'.started a (h.started a ha), fun u i hi => h'.present u i (h.present u i hi)⟩

/-- The statement keeps the blob store sound. -/
def Keeps (ev : Ev FilesWorld ClientEnv FileLabel) : Prop :=
  Grows ev.pre ev.post ∧ (Sound cs ev.pre → Sound cs ev.post)

/-- The others only add to what is there. -/
abbrev growing (_ : FileLabel) : FilesWorld → FilesWorld → Prop := Grows

abbrev fileRules : Rules FilesWorld ClientEnv FileLabel := promise growing (Keeps cs)

section Upload

variable {cs : ℕ} {s : FilesWorld} {tr : List (Ev FilesWorld ClientEnv FileLabel)} {α : Type}

lemma keeps_of_eq (l : FileLabel) (e : ClientEnv) (s : FilesWorld) : Keeps cs ⟨l, e, s, s⟩ :=
  ⟨.refl s, id⟩

/-- What the clients do leaves the blob store alone. -/
lemma keeps_world (l : FileLabel) (e : ClientEnv) (s : FilesWorld) (w : World) :
    Keeps cs ⟨l, e, s, { s with world := w }⟩ :=
  ⟨⟨fun _ h => h, fun _ _ h => h⟩, fun h => ⟨h.drawn, h.unique, h.stored, h.finished⟩⟩

lemma guarantees_onWorld (x : Op α) : Guarantees growing (Keeps cs) (zoomE onWorld x).run :=
  guarantees_zoom_part x.run fun l e s w => keeps_world (.client l) e s w

/-- A statement on the blob store, in a program that knows `P`. -/
lemma wp_onFiles {l : FileLabel} {context : String} {g : FilesWorld → FilesWorld × Except ClientError α}
    {Q : Except ClientError α → List (Ev FilesWorld ClientEnv FileLabel) → FilesWorld → Prop}
    {P : FilesWorld → Prop} (htr : Every (Keeps cs) tr) (hP : ∀ s', Grows s s' → P s')
    (hg : ∀ e s, P s → Keeps cs ⟨l, e, s, (g s).1⟩)
    (herr : ∀ err tr s, Every (Keeps cs) tr → Q (.error err) tr s)
    (hok : ∀ tr s, Every (Keeps cs) tr → P s → Q (g s).2 tr (g s).1) :
    wp (fileRules cs) (onFiles l context g).run Q tr s := by
  refine ⟨htr, fun s' e hr _ => ?_⟩
  by_cases hf : e.fault = true
  · simp only [hf, if_true]
    exact herr _ _ _ (every_append htr (keeps_of_eq l e s'))
  · simp only [hf, Bool.false_eq_true, if_false]
    exact hok _ _ (every_append htr (hg e s' (hP s' hr))) (hP s' hr)

/-- A new upload. -/
lemma keeps_newUuid (cs : ℕ) {a : Attachment} (e : ClientEnv) (h : a.uuid = s.nextUuid) :
    Keeps cs ⟨.newUuid, e, s, { s with nextUuid := s.nextUuid + 1, started := s.started ++ [a] }⟩ := by
  refine ⟨⟨fun _ h => List.mem_append_left _ h, fun _ _ h => h⟩, fun hs => ⟨?_, ?_, ?_, ?_⟩⟩
  · intro b hb
    rcases List.mem_append.mp hb with hb | hb
    · exact (hs.drawn b hb).trans (Nat.lt_succ_self _)
    · rw [List.mem_singleton.mp hb, h]
      exact Nat.lt_succ_self _
  · intro b hb c hc heq
    simp only [List.mem_append, List.mem_singleton] at hb hc
    rcases hb with hb | rfl <;> rcases hc with hc | rfl
    · exact hs.unique b hb c hc heq
    · exact absurd (hs.drawn b hb) (by rw [heq, h]; exact lt_irrefl _)
    · exact absurd (hs.drawn c hc) (by rw [← heq, h]; exact lt_irrefl _)
    · rfl
  · intro u i c hc
    obtain ⟨b, hb, hrest⟩ := hs.stored u i c hc
    exact ⟨b, List.mem_append_left _ hb, hrest⟩
  · exact fun b hb => ⟨List.mem_append_left _ (hs.finished b hb).1, (hs.finished b hb).2⟩

lemma get_putChunk {a : Attachment} {i : ℕ} {u j : ℕ} {c : StoredChunk}
    (h : (s.putChunk a.uuid i (a.stored cs i)).chunks.get (u, j) = some c) :
    (a.uuid = u ∧ c.data = a.stored cs j) ∨ s.chunks.get (u, j) = some c := by
  simp only [FilesWorld.putChunk, Table.get_upsert] at h
  split at h
  · next hkey =>
    simp only [StoredChunk.key, Prod.mk.injEq] at hkey
    obtain ⟨hu, rfl⟩ := hkey
    refine .inl ⟨hu, ?_⟩
    rw [← Option.some.inj h]
    cases s.chunks.get (u, i) <;> rfl
  · exact .inr h

lemma present_putChunk (cs : ℕ) (a : Attachment) (i u j : ℕ) :
    Present (s.putChunk a.uuid i (a.stored cs i)) u j ↔ (a.uuid = u ∧ i = j) ∨ Present s u j := by
  simp only [Present, FilesWorld.putChunk, Table.get_upsert, StoredChunk.key, Prod.mk.injEq]
  split
  · next h => simp [h]
  · next h => simp [h]

/-- A chunk of an upload that was started. -/
lemma keeps_uploadChunk {a : Attachment} {i : ℕ} (l : FileLabel) (e : ClientEnv)
    (ha : a ∈ s.started) : Keeps cs ⟨l, e, s, s.putChunk a.uuid i (a.stored cs i)⟩ := by
  refine ⟨⟨fun _ h => h, fun u j h => (present_putChunk cs a i u j).mpr (.inr h)⟩,
    fun hs => ⟨hs.drawn, hs.unique, fun u j c hc => ?_, fun b hb => ⟨(hs.finished b hb).1,
      fun j hj => (present_putChunk cs a i _ j).mpr (.inr ((hs.finished b hb).2 j hj))⟩⟩⟩
  rcases get_putChunk hc with ⟨hu, hdata⟩ | hc
  · exact ⟨a, ha, hu, hdata⟩
  · exact hs.stored u j c hc

/-- What an upload knows: it was started, and it has stored the chunks `done`. -/
def Going (a : Attachment) (done : List ℕ) (s : FilesWorld) : Prop :=
  a ∈ s.started ∧ ∀ i ∈ done, Present s a.uuid i

lemma Going.grows {a : Attachment} {done : List ℕ} {s' : FilesWorld} (h : Going a done s)
    (hs : Grows s s') : Going a done s' :=
  ⟨hs.started a h.1, fun i hi => hs.present _ _ (h.2 i hi)⟩

lemma wp_uploadChunks {a : Attachment} {ct : List ChunkBox} (hct : a.ciphertext cs = .ok ct) :
    ∀ {todo : List ℕ} (done : List ℕ) {s : FilesWorld} {tr : List (Ev FilesWorld ClientEnv FileLabel)},
      Every (Keeps cs) tr → Going a done s →
      wp (fileRules cs) (uploadChunks a.uuid ct todo).run (fun r tr s => Every (Keeps cs) tr ∧
        (r = .ok () → Going a (done ++ todo) s)) tr s := by
  intro todo
  induction todo with
  | nil => exact fun done _ _ htr h => ⟨htr, fun _ => by simpa using h⟩
  | cons i rest ih =>
    intro done s tr htr h
    have hstored : a.stored cs i = piece ct i := by rw [Attachment.stored, hct]
    unfold uploadChunks
    rw [wp_bind_except]
    refine wp_onFiles (P := Going a done) htr (fun s' hs => h.grows hs) (fun e s hs => ?_)
      (fun err tr s htr => ⟨htr, by simp⟩) fun tr s htr hs => ?_
    · rw [← hstored]
      exact keeps_uploadChunk _ e hs.1
    · have hgoing : Going a (done ++ [i]) (s.putChunk a.uuid i (a.stored cs i)) := by
        refine ⟨hs.1, fun j hj => (present_putChunk cs a i _ j).mpr ?_⟩
        rcases List.mem_append.mp hj with hj | hj
        · exact .inr (hs.2 j hj)
        · exact .inl ⟨rfl, (List.mem_singleton.mp hj).symm⟩
      have := ih (done ++ [i]) htr hgoing
      rw [List.append_assoc, List.singleton_append, hstored] at this
      exact this

/-- An upload keeps the blob store sound. -/
lemma guarantees_uploadFile (hcs : 0 < cs) (d : ℕ) (plaintext : List UInt8) (contentType : String)
    (lastModified : ℤ) :
    Guarantees growing (Keeps cs) (uploadFile cs d plaintext contentType lastModified).run := by
  unfold uploadFile
  refine guarantees_bind_except (guarantees_onWorld _) fun _ =>
    guarantees_bind_except (guarantees_onWorld _) fun svk => ?_
  intro tr s htr
  rw [wp_bind_except]
  refine wp_onFiles (P := fun _ => True) htr (fun _ _ => trivial) (fun e s _ => keeps_of_eq _ e s)
    (fun _ _ _ htr => htr) fun tr s htr _ => ?_
  change wp _ (ExceptT.run (_ >>= _)) _ _ _
  rw [wp_bind_except]
  refine ⟨htr, fun s' e _ _ => ?_⟩
  -- the uuid is new, so the upload starts an attachment of its own
  have hnew := keeps_newUuid cs (s := s') (a := ⟨s'.nextUuid, svk, plaintext, contentType,
    lastModified⟩) e rfl
  have htr' := every_append htr hnew
  revert htr'
  have hstarted : (⟨s'.nextUuid, svk, plaintext, contentType, lastModified⟩ : Attachment) ∈
      s'.started ++ [⟨s'.nextUuid, svk, plaintext, contentType, lastModified⟩] := by simp
  dsimp only
  generalize (⟨s'.nextUuid, svk, plaintext, contentType, lastModified⟩ : Attachment) = a at hstarted ⊢
  intro htr'
  obtain ⟨ct, hct, -⟩ := a.ciphertext_spec hcs
  rw [wp_ret]
  dsimp only
  rw [hct]
  dsimp only
  rw [wp_bind_except]
  refine wp_onFiles (P := fun s => a ∈ s.started) htr' (fun s hs => hs.started a hstarted)
    (fun e s _ => keeps_of_eq _ e s) (fun _ _ _ htr => htr) fun tr s htr ha => ?_
  change wp _ (ExceptT.run (_ >>= _)) _ _ _
  rw [wp_bind_except]
  -- the chunks, of which an upload that fails leaves some
  refine wp_mono (fun r tr s h => ?_) (wp_uploadChunks hct [] htr
    ⟨ha, fun _ h => absurd h List.not_mem_nil⟩)
  cases r with
  | error e => exact h.1
  | ok _ =>
  -- all chunks are stored, and the upload is finished
  have hgoing := h.2 rfl
  change wp _ (ExceptT.run (_ >>= _)) _ _ _
  rw [wp_bind_except]
  refine wp_onFiles (P := Going a (List.range (a.manifest cs).totalChunks)) h.1
    (fun s' hs => hgoing.grows hs) (fun e s hs => ?_) (fun _ _ _ htr => htr)
    fun tr s htr _ => htr
  refine ⟨⟨fun _ h => h, fun _ _ h => h⟩, fun hsound => ⟨hsound.drawn, hsound.unique,
    hsound.stored, fun b hb => ?_⟩⟩
  rcases List.mem_append.mp hb with hb | hb
  · exact hsound.finished b hb
  · rw [List.mem_singleton.mp hb]
    exact ⟨hs.1, fun i hi => hs.2 i (List.mem_range.mpr hi)⟩

lemma guarantees_onFiles_read {l : FileLabel} {context : String}
    {g : FilesWorld → Except ClientError α} :
    Guarantees growing (Keeps cs) (onFiles l context fun s => (s, g s)).run :=
  guarantees_stmt (fun e s => by
    by_cases hf : e.fault = true <;> simpa [hf] using keeps_of_eq l e s) fun _ _ => guarantees_ret _

lemma guarantees_fetchChunks (uuid : Ident) (is : List ℕ) :
    Guarantees growing (Keeps cs) (fetchChunks uuid is).run := by
  induction is with
  | nil => exact guarantees_pure_except _
  | cons i rest ih =>
    exact guarantees_bind_except guarantees_onFiles_read fun _ =>
      guarantees_bind_except ih fun _ => guarantees_pure_except _

lemma guarantees_downloadFile (d : ℕ) (M : FileManifest) :
    Guarantees growing (Keeps cs) (downloadFile d M).run := by
  unfold downloadFile
  refine guarantees_bind_except (guarantees_onWorld _) fun _ =>
    guarantees_bind_except (guarantees_onWorld _) fun svk =>
    guarantees_bind_except guarantees_onFiles_read fun _ => ?_
  cases resolveFek svk M with
  | error e => exact guarantees_throw_except _
  | ok fek =>
    refine guarantees_bind_except (guarantees_fetchChunks _ _) fun ct => ?_
    cases decryptFileStream ct fek M with
    | error e => exact guarantees_throw_except _
    | ok p => exact guarantees_pure_except _

lemma guarantees_fileCode (hcs : 0 < cs) (X : Ext Blob) (q : ℕ × FileCmd) :
    Guarantees growing (Keeps cs) (fileCode cs X q) := by
  obtain ⟨d, cmd⟩ := q
  cases cmd with
  | client q => exact guarantees_bind_except (guarantees_onWorld _) fun _ => guarantees_pure_except _
  | upload p c m =>
    exact guarantees_bind_except (guarantees_uploadFile hcs d p c m) fun _ => guarantees_pure_except _
  | download M =>
    exact guarantees_bind_except (guarantees_downloadFile d M) fun _ => guarantees_pure_except _

/-- Any uploads, downloads and other operations, in any interleaving, leave the blob store
sound. -/
lemma run_sound (hcs : 0 < cs) (X : Ext Blob) (w : World) (as : List FileAct) :
    Sound cs (Interleave.run (fileCode cs X) (Interleave.init (.new w)) as).shared :=
  run_relying (guarantees_fileCode hcs X) (fun _ => Grows.refl) (fun _ _ _ _ => Grows.trans)
    (fun _ _ h => h.1) (fun _ h => h.2)
    ⟨by simp [FilesWorld.new], by simp [FilesWorld.new], by simp [FilesWorld.new],
      by simp [FilesWorld.new]⟩ as

end Upload

/-! ### Downloads -/

section Download

variable {cs : ℕ} {d : ℕ} {e : ClientEnv} {s : FilesWorld} {α : Type}

lemma alone_onWorld {x : Op α} {r : Except ClientError α}
    (h : alone e x.run s.world = (r, s.world)) : alone e (zoomE onWorld x).run s = (r, s) := by
  refine (alone_zoom (v := onWorld) (fun _ _ _ => rfl) rfl).trans ?_
  change ((alone e x.run s.world).1, { s with world := (alone e x.run s.world).2 }) = _
  rw [h]

lemma alone_onFiles (l : FileLabel) (context : String)
    (g : FilesWorld → FilesWorld × Except ClientError α) (he : e.fault = false) :
    alone e (onFiles l context g).run s = ((g s).2, (g s).1) := by
  change (if e.fault then (s, .error (.text context)) else g s).swap = _
  rw [he]
  rfl

/-- Chunks that are there are fetched, in their order. -/
lemma alone_fetchChunks (he : e.fault = false) {u : Ident} {data : ℕ → List ChunkBox} :
    ∀ {is : List ℕ}, (∀ i ∈ is, ∃ c, s.chunks.get (u, i) = some c ∧ c.data = data i) →
      alone e (fetchChunks u is).run s = (.ok (is.map data).flatten, s) := by
  intro is
  induction is with
  | nil => exact fun _ => rfl
  | cons i rest ih =>
    intro h
    obtain ⟨c, hc, hdata⟩ := h i List.mem_cons_self
    have hfetch : alone e (fetchChunk u i).run s = (.ok (data i), s) := by
      rw [fetchChunk, alone_onFiles _ _ _ he, hc]
      simp [hdata]
    unfold fetchChunks
    rw [alone_bind_ok hfetch, alone_bind_ok (ih fun j hj => h j (List.mem_cons_of_mem _ hj))]
    rfl

/-- What a download of a completed attachment gives when the client has the vault key `k`. -/
lemma alone_downloadFile {a : Attachment} {k : Key} {ct : List ChunkBox} (hs : Sound cs s)
    (ha : a ∈ s.finished) (hct : a.ciphertext cs = .ok ct)
    (hunlocked : (s.world.devices d).mem.locked = false)
    (hsvk : (s.world.devices d).mem.svk = some k) (he : e.fault = false) :
    (alone e (downloadFile d (a.manifest cs)).run s).1 =
      if a.svk = k then
        match decryptFileStream (ct.take (a.manifest cs).totalChunks) (deriveFek a.svk a.uuid)
            (a.manifest cs) with
        | .error _ => .error (.text "decrypt stream")
        | .ok plaintext => .ok plaintext
      else .error (.text ("attachment key envelope does not match the current vault key (file " ++
        toString a.uuid ++ " was created before a key rotation and cannot be decrypted)")) := by
  have hresolve : resolveFek k (a.manifest cs) =
      if a.svk = k then .ok (deriveFek a.svk a.uuid)
      else .error (.text ("attachment key envelope does not match the current vault key (file " ++
        toString a.uuid ++ " was created before a key rotation and cannot be decrypted)")) := by
    by_cases hk : a.svk = k <;>
      simp [resolveFek, unwrapFek, wrapFek, Attachment.manifest, FileManifest.new, hk]
  unfold downloadFile
  rw [alone_bind_ok (alone_onWorld (alone_requireUnlocked e hunlocked)),
    alone_bind_ok (alone_onWorld (alone_require e hsvk)),
    alone_bind_ok (alone_onFiles _ _ _ he), hresolve]
  by_cases hk : a.svk = k
  · rw [if_pos hk, if_pos hk]
    obtain ⟨hstarted, hpresent⟩ := hs.finished a ha
    have hget : ∀ i ∈ List.range (a.manifest cs).totalChunks, ∃ c,
        s.chunks.get (a.uuid, i) = some c ∧ c.data = piece ct i := by
      intro i hi
      obtain ⟨c, hc⟩ := Option.isSome_iff_exists.mp (hpresent i (List.mem_range.mp hi))
      obtain ⟨b, hb, hu, hdata⟩ := hs.stored _ _ c hc
      obtain rfl := hs.unique b hb a hstarted hu
      exact ⟨c, hc, by rw [hdata, Attachment.stored, hct]⟩
    dsimp only
    rw [Attachment.manifest_fileUuid, alone_bind_ok (alone_fetchChunks he hget), flatten_pieces]
    cases decryptFileStream (ct.take (a.manifest cs).totalChunks) (deriveFek a.svk a.uuid)
      (a.manifest cs) <;> rfl
  · rw [if_neg hk, if_neg hk]
    rfl

/-- A file of more than `2 ^ 32 - 1` chunks loses the rest of them: their number is cut off. -/
lemma decrypt_uploaded_iff (hcs : 0 < cs) {a : Attachment} {ct : List ChunkBox}
    (hct : a.ciphertext cs = .ok ct) :
    decryptFileStream (ct.take (a.manifest cs).totalChunks) (deriveFek a.svk a.uuid)
      (a.manifest cs) = .ok a.plaintext ↔ a.plaintext.length ≤ (2 ^ 32 - 1) * cs := by
  obtain ⟨ct', hct', hlen, hdec⟩ := a.ciphertext_spec hcs
  obtain rfl : ct = ct' := Except.ok.inj (hct.symm.trans hct')
  have htotal : (a.manifest cs).totalChunks = max ct.length 1 % 2 ^ 32 := by rw [hlen]; rfl
  have hrounds : ct.length ≤ 2 ^ 32 - 1 ↔ a.plaintext.length ≤ (2 ^ 32 - 1) * cs := by
    rw [hlen, Nat.div_le_iff_le_mul_add_pred hcs, Nat.mul_comm]
    omega
  constructor
  · intro h
    have hvalid : (a.manifest cs).validate = true := by
      simp [FileManifest.validate, Attachment.manifest, FileManifest.new, hcs.ne']
    have hstart : (a.manifest cs).totalSize =
        (a.manifest cs).totalSize - 0 * (a.manifest cs).chunkSize := by
      rw [Nat.zero_mul, Nat.sub_zero]
    rw [decryptFileStream, if_pos hvalid] at h
    calc a.plaintext.length
      _ ≤ (ct.take (a.manifest cs).totalChunks).length * cs := (decryptStream_bound hstart h).2
      _ ≤ (2 ^ 32 - 1) * cs := by
        refine Nat.mul_le_mul_right cs ?_
        rw [List.length_take, htotal]
        omega
  · intro hsmall
    have hcount := hrounds.mpr hsmall
    rw [List.take_of_length_le (by rw [htotal]; omega), hdec]

/-- **An attachment is read with the vault key of its upload.** In every interleaving of
uploads, downloads, rotations and all else that clients do, a completed upload can be
downloaded by an unlocked client, and gives its original bytes, if and only if the client has
the vault key that the upload found, and the file has fewer than `2 ^ 32` chunks. -/
theorem download_iff (X : Ext Blob) (w : World) (as : List FileAct) :
    let s := (Interleave.run (fileCode chunkSize X) (Interleave.init (.new w)) as).shared
    ∀ a ∈ s.finished, ∀ d k e, (s.world.devices d).mem.locked = false →
      (s.world.devices d).mem.svk = some k → e.fault = false →
      ((alone e (downloadFile d (a.manifest chunkSize)).run s).1 = .ok a.plaintext ↔
        k = a.svk ∧ a.plaintext.length ≤ (2 ^ 32 - 1) * chunkSize) := by
  intro s a ha d k e hunlocked hsvk he
  have hcs : 0 < chunkSize := by decide
  obtain ⟨ct, hct, -⟩ := a.ciphertext_spec hcs
  rw [alone_downloadFile (run_sound hcs X w as) ha hct hunlocked hsvk he,
    ← decrypt_uploaded_iff hcs hct]
  by_cases hk : a.svk = k
  · rw [if_pos hk]
    simp only [hk.symm, true_and]
    cases decryptFileStream (ct.take (a.manifest chunkSize).totalChunks) (deriveFek a.svk a.uuid)
      (a.manifest chunkSize) <;> simp
  · rw [if_neg hk]
    simp [Ne.symm hk]

end Download

/-! ### One attachment -/

def anyUuid : Ext Blob := ⟨fun _ => true, fun _ => 32⟩

/-- An unlocked device of the user 7 with the vault key 100, and no items. -/
def fileVault : World where
  server := ⟨⟨[⟨7, "u", .raw 0, .raw 0, wrapSvk 9 100, .raw 0, 1, 0, 0⟩], by decide⟩, .empty⟩
  devices _ :=
    ⟨⟨.empty, .empty, ⟨[⟨1, 0, 0, .raw 0⟩], by simp⟩, .empty, .empty, .empty⟩,
      { Memory.new with
        svk := some 100
        dek := some (.dek 100)
        mk := some 9
        locked := false
        transport := some 7
        serverUserId := some 7 }⟩

/-- An input without a fault; a new vault key is 200. -/
def calm : ClientEnv := ⟨0, 0, false, 200⟩

/-- Three bytes are uploaded, and with `rotate` the vault key is rotated then. -/
def uploaded (rotate : Bool) : FileSys :=
  Interleave.run (fileCode chunkSize anyUuid) (Interleave.init (.new fileVault))
    ([.call (0, .upload [1, 2, 3] "text/plain" 0)] ++ List.replicate 7 (.exec 0 calm) ++
      if rotate then [.call (0, .client (.rotateKey 2))] ++ List.replicate 30 (.exec 1 calm) else [])

theorem download_uploaded :
    (alone calm (downloadFile 0 ((⟨0, 100, [1, 2, 3], "text/plain", 0⟩ : Attachment).manifest
      chunkSize)).run (uploaded false).shared).1 = .ok [1, 2, 3] :=
  (download_iff anyUuid fileVault _ ⟨0, 100, [1, 2, 3], "text/plain", 0⟩ (by decide +kernel) 0 100
    calm (by decide +kernel) (by decide +kernel) rfl).mpr (by decide)

/-- After a rotation the attachment is there, and the client that uploaded it cannot read it. -/
theorem rotation_loses_attachment :
    ¬∀ as : List FileAct,
      let s := (Interleave.run (fileCode chunkSize anyUuid) (Interleave.init (.new fileVault))
        as).shared
      ∀ a ∈ s.finished, (s.world.devices 0).mem.locked = false →
        (s.world.devices 0).mem.svk.isSome = true →
        (alone calm (downloadFile 0 (a.manifest chunkSize)).run s).1 = .ok a.plaintext := by
  intro h
  have := h _ (⟨0, 100, [1, 2, 3], "text/plain", 0⟩ : Attachment)
    (show _ ∈ (uploaded true).shared.finished by decide +kernel) (by decide +kernel)
    (by decide +kernel)
  revert this
  decide +kernel

end Vautr.FileKeys
