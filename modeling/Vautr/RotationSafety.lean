import Vautr.Effects
import Vautr.RotationAgreement

/-!
Does a rotation lose items?

A rotation replaces the vault key on the server before it re-encrypts the items, and the one
on the device after. In between an item is under the old key or the new one, and has to be
opened with what the two blobs hold. The device may stop anywhere, be started again, and
rotate again.
-/

namespace Vautr.RotationSafety

open Vautr.Atomic Vautr.Session Vautr.Sql Vautr.Database Vautr.Api Vautr.Server Vautr.Handlers
  Vautr.ClientDb Vautr.Crypto Vautr.Client Vautr.Orchestrator Vautr.Effects Vautr.Push
  Vautr.RotationAgreement

/-! ### What can be opened -/

/-- An item as it is stored somewhere. -/
structure Stored where
  uuid : Ident
  gen : ℤ
  payload : Option Blob
  deriving DecidableEq

/-- The live items on a device. -/
def localItems (db : LocalDb Blob) : List Stored :=
  ((joined db).filter (·.1.deletedDate.isNone)).map fun r => ⟨r.1.uuid, r.1.encKeyGen, some r.2⟩

/-- The live items of the user `u` on the server. -/
def serverItems (u : Ident) (s : Db Blob) : List Stored :=
  (s.items.rows.filter fun r => r.userId = u && r.deletedDate.isNone).map fun r =>
    ⟨r.uuid, r.encKeyGen, r.payload⟩

/-- The vault key in the blob on the device, for who has the master key. -/
def localKey (mk : Key) (u : Ident) (db : LocalDb Blob) : Option Key :=
  (db.syncMeta.get 1).bind fun r => unwrapSvk mk u r.svkCiphertextBlob

/-- The vault key in the blob on the server, for who has the master key. -/
def serverKey (mk : Key) (u : Ident) (s : Db Blob) : Option Key :=
  (s.users.get u).bind fun r => unwrapSvk mk u r.svkCiphertextBlob

/-- The item opens with the key. -/
def Stored.opensWith (k : Option Key) (i : Stored) : Bool :=
  k.any fun k => i.payload.any fun p => (decrypt (.dek k) i.uuid (asU64 i.gen) p).isSome

/-- Every live item, on the device and on the server, opens with the key in one of the two
blobs. -/
def Decryptable (mk : Key) (u : Ident) (db : LocalDb Blob) (s : Db Blob) : Prop :=
  ∀ i ∈ localItems db ++ serverItems u s,
    i.opensWith (serverKey mk u s) ∨ i.opensWith (localKey mk u db)

instance (mk : Key) (u : Ident) (db : LocalDb Blob) (s : Db Blob) :
    Decidable (Decryptable mk u db s) :=
  inferInstanceAs (Decidable (∀ i ∈ _, _))

variable {X : Ext Blob} {d : ℕ} {mk new old : Key} {u : Ident} {gen g : UInt64} {o : Option Key}
  {L A B : List Ident} {db : LocalDb Blob} {s s' : Db Blob} {w : World}

lemma mem_localItems {i : Stored} : i ∈ localItems db ↔
    ∃ r p, db.overviews.get i.uuid = some r ∧ db.payloads.get i.uuid = some ⟨i.uuid, p⟩ ∧
      r.deletedDate = none ∧ i = ⟨r.uuid, r.encKeyGen, some p⟩ := by
  simp only [localItems, List.mem_map, List.mem_filter, Option.isNone_iff_eq_none, Prod.exists]
  constructor
  · rintro ⟨r, p, ⟨hrp, hlive⟩, rfl⟩
    obtain ⟨hr, hp⟩ := mem_joined.mp hrp
    exact ⟨r, p, Table.get_of_mem hr, hp, hlive, rfl⟩
  · rintro ⟨r, p, hr, hp, hlive, rfl⟩
    exact ⟨r, p, ⟨mem_joined.mpr ⟨Table.get_mem hr, hp⟩, hlive⟩, rfl⟩

lemma mem_serverItems {i : Stored} : i ∈ serverItems u s ↔
    ∃ r, s.items.get (i.uuid, u) = some r ∧ r.deletedDate = none ∧
      i = ⟨r.uuid, r.encKeyGen, r.payload⟩ := by
  simp only [serverItems, List.mem_map, List.mem_filter, Option.isNone_iff_eq_none,
    Bool.and_eq_true, decide_eq_true_eq]
  constructor
  · rintro ⟨r, ⟨hr, rfl, hlive⟩, rfl⟩
    exact ⟨r, Table.get_of_mem hr, hlive, rfl⟩
  · rintro ⟨r, hr, hlive, rfl⟩
    obtain ⟨hmem, hkey⟩ := Table.get_eq_some_iff.mp hr
    exact ⟨r, ⟨hmem, congrArg Prod.snd hkey, hlive⟩, rfl⟩

/-- Re-encrypting one item leaves the others. -/
lemma localItems_reencryptItemTxn {uuid : Ident} {p : Blob} {gen : ℤ} {i : Stored}
    (h : i ∈ localItems (reencryptItemTxn uuid p gen db)) :
    (∃ j ∈ localItems db, j.uuid = i.uuid) ∧
      (i ∈ localItems db ∧ i.uuid ≠ uuid ∨ i = ⟨uuid, gen, some p⟩) := by
  obtain ⟨r, q, hr, hq, hlive, hi⟩ := mem_localItems.mp h
  simp only [reencryptItemTxn, Table.get_update, Option.map_eq_some_iff] at hr hq
  obtain ⟨r₀, hr₀, rfl⟩ := hr
  obtain ⟨⟨v, q₀⟩, hq₀, hset⟩ := hq
  obtain rfl : v = i.uuid := Table.get_key hq₀
  have hk : r₀.uuid = i.uuid := Table.get_key hr₀
  have hlive₀ : r₀.deletedDate = none := by
    split at hlive <;> exact hlive
  have hmem : (⟨r₀.uuid, r₀.encKeyGen, some q₀⟩ : Stored) ∈ localItems db :=
    mem_localItems.mpr ⟨r₀, q₀, by rwa [hk], by rwa [hk], hlive₀, rfl⟩
  refine ⟨⟨_, hmem, hk⟩, ?_⟩
  by_cases hu : i.uuid = uuid
  · rw [if_pos (by simpa using hu)] at hset
    rw [if_pos (by simpa [hk] using hu)] at hi
    refine .inr (hi.trans ?_)
    simp only [setPayload, PayloadRow.mk.injEq, true_and] at hset
    simp [OverviewRow.setGen, hk, hu, hset]
  · rw [if_neg (by simpa using hu)] at hset
    rw [if_neg (by simpa [hk] using hu)] at hi
    simp only [PayloadRow.mk.injEq, true_and] at hset
    exact .inl ⟨by rwa [hi, ← hset], hu⟩

lemma opensWith_encrypt {i : Stored} {pt : Plain}
    (h : i.payload = some (encrypt (.dek new) i.uuid (asU64 i.gen) pt)) :
    i.opensWith (some new) = true := by
  simp [Stored.opensWith, h]

/-! ### A rotation under way -/

/-- The server has the new key and the device the old one `o`. Only items in `L` are around;
on the device those in `A` are under the new key, and on the server those in `B`. -/
structure Mid (mk : Key) (u : Ident) (o : Option Key) (new : Key) (L A B : List Ident)
    (db : LocalDb Blob) (s : Db Blob) : Prop where
  localKey : localKey mk u db = o
  serverKey : serverKey mk u s = some new
  known : ∀ i ∈ localItems db ++ serverItems u s, i.uuid ∈ L
  onDevice : ∀ i ∈ localItems db, i.opensWith (some new) ∨ i.uuid ∉ A ∧ i.opensWith o
  onServer : ∀ i ∈ serverItems u s, i.opensWith (some new) ∨ i.uuid ∉ B ∧ i.opensWith o

lemma Mid.decryptable (h : Mid mk u o new L A B db s) : Decryptable mk u db s := by
  intro i hi
  rw [h.serverKey, h.localKey]
  rcases List.mem_append.mp hi with hi | hi
  · exact (h.onDevice i hi).imp_right And.right
  · exact (h.onServer i hi).imp_right And.right

/-- One more item of the device is under the new key. -/
lemma Mid.reencrypt (h : Mid mk u o new L A B db s) (gen : UInt64) (uuid : Ident) (pt : Plain) :
    Mid mk u o new L (uuid :: A) B
      (reencryptItemTxn uuid (encrypt (.dek new) uuid gen pt) (asI64 gen) db) s := by
  refine ⟨h.localKey, h.serverKey, fun i hi => ?_, fun i hi => ?_, h.onServer⟩
  · rcases List.mem_append.mp hi with hi | hi
    · obtain ⟨⟨j, hj, hji⟩, -⟩ := localItems_reencryptItemTxn hi
      exact hji ▸ h.known j (List.mem_append_left _ hj)
    · exact h.known i (List.mem_append_right _ hi)
  · rcases (localItems_reencryptItemTxn hi).2 with ⟨hi, hne⟩ | rfl
    · refine (h.onDevice i hi).imp_right fun ⟨hA, ho⟩ => ⟨?_, ho⟩
      simp [hne, hA]
    · exact .inl (opensWith_encrypt (by rw [asU64_asI64]))

/-- A row that the rotation pushes. -/
def RowIn (u : Ident) (gen : UInt64) (k : Key) (L : List Ident) (r : ItemRow Blob) : Prop :=
  RowOf u gen k r ∧ r.uuid ∈ L

lemma RowIn.opensWith {r : ItemRow Blob} (h : RowIn u gen new L r) :
    (⟨r.uuid, r.encKeyGen, r.payload⟩ : Stored).opensWith (some new) = true := by
  obtain ⟨⟨-, -, pt, hpt⟩, -⟩ := h
  exact opensWith_encrypt hpt

/-- What the rotation pushes does not harm. -/
lemma Mid.touches (h : Mid mk u o new L A B db s) (ht : Touches (RowIn u gen new L) s s') :
    Mid mk u o new L A B db s' := by
  have hitem : ∀ i ∈ serverItems u s', i ∈ serverItems u s ∨
      i.opensWith (some new) = true ∧ i.uuid ∈ L := by
    intro i hi
    obtain ⟨r, hr, hlive, rfl⟩ := mem_serverItems.mp hi
    rcases ht.items (r.uuid, u) with heq | ⟨r', hr', hrow⟩
    · exact .inl (mem_serverItems.mpr ⟨r, heq ▸ hr, hlive, rfl⟩)
    · obtain rfl : r' = r := Option.some.inj (hr'.symm.trans hr)
      exact .inr ⟨hrow.opensWith, hrow.2⟩
  refine ⟨h.localKey, ?_, fun i hi => ?_, h.onDevice, fun i hi => ?_⟩
  · rw [← h.serverKey, RotationSafety.serverKey, ht.users, RotationSafety.serverKey]
  · rcases List.mem_append.mp hi with hi | hi
    · exact h.known i (List.mem_append_left _ hi)
    · rcases hitem i hi with hi | ⟨-, hL⟩
      · exact h.known i (List.mem_append_right _ hi)
      · exact hL
  · rcases hitem i hi with hi | ⟨hopen, -⟩
    · exact h.onServer i hi
    · exact .inl hopen

/-- One more item of the server is under the new key. -/
lemma Mid.present (h : Mid mk u o new L A B db s) {uuid : Ident}
    (hp : Present (RowIn u gen new L) (uuid, u) s) : Mid mk u o new L A (uuid :: B) db s := by
  refine ⟨h.localKey, h.serverKey, h.known, h.onDevice, fun i hi => ?_⟩
  rcases h.onServer i hi with hopen | ⟨hB, ho⟩
  · exact .inl hopen
  by_cases hu : i.uuid = uuid
  · obtain ⟨r, hr, -, rfl⟩ := mem_serverItems.mp hi
    obtain ⟨r', hr', hrow⟩ := hp
    rw [← hu] at hr'
    obtain rfl : r' = r := Option.some.inj (hr'.symm.trans hr)
    exact .inl hrow.opensWith
  · exact .inr ⟨by simp [hu, hB], ho⟩

lemma localItems_storeSvkBlob {db' : LocalDb Blob} {b : Blob} (hdb : storeSvkBlob b db = some db') :
    localItems db' = localItems db := by
  unfold storeSvkBlob at hdb
  split at hdb
  · rw [← Option.some.inj hdb]
    rfl
  · cases hdb

/-- The rotation is over: the device has the new key too. -/
lemma Mid.stored (h : Mid mk u o new L A B db s) (hA : ∀ v ∈ L, v ∈ A) (hB : ∀ v ∈ L, v ∈ B)
    {db' : LocalDb Blob} {b : Blob} (hdb : storeSvkBlob b db = some db') : Decryptable mk u db' s := by
  intro i hi
  rw [localItems_storeSvkBlob hdb] at hi
  have hL := h.known i hi
  rw [h.serverKey]
  rcases List.mem_append.mp hi with hi | hi
  · exact .inl ((h.onDevice i hi).resolve_right fun hn => hn.1 (hA _ hL))
  · exact .inl ((h.onServer i hi).resolve_right fun hn => hn.1 (hB _ hL))

lemma Mid.mono {A' B' : List Ident} (h : Mid mk u o new L A B db s) (hA : ∀ v ∈ A', v ∈ A)
    (hB : ∀ v ∈ B', v ∈ B) : Mid mk u o new L A' B' db s :=
  ⟨h.localKey, h.serverKey, h.known,
    fun i hi => (h.onDevice i hi).imp_right fun ⟨hn, ho⟩ => ⟨fun hm => hn (hA _ hm), ho⟩,
    fun i hi => (h.onServer i hi).imp_right fun ⟨hn, ho⟩ => ⟨fun hm => hn (hB _ hm), ho⟩⟩

lemma Mid.presentAll (h : Mid mk u o new L A B db s) (vs : List Ident)
    (hp : ∀ v ∈ vs, Present (RowIn u gen new L) (v, u) s) :
    Mid mk u o new L A (vs ++ B) db s := by
  induction vs with
  | nil => exact h
  | cons v vs ih =>
    exact (ih fun v' hv' => hp v' (List.mem_cons_of_mem _ hv')).present (hp v List.mem_cons_self)

/-! ### The steps of a rotation -/

/-- What the rotation pushes. -/
def PushIn (gen : UInt64) (k : Key) (L : List Ident) (i : Pushed) : Prop :=
  ItemOf gen k i ∧ i.uuid ∈ L

lemma safe_reencryptRows {rows : List (OverviewRow × Blob)} (hL : ∀ r ∈ rows, r.1.uuid ∈ L)
    (h : Holds d (Mid mk u o new L A B) w) :
    Safe (Holds d (Decryptable mk u)) (reencryptRows d old new gen rows).run (fun r w =>
      ∀ items, r = .ok items → Holds d (Mid mk u o new L (rows.map (·.1.uuid) ++ A) B) w ∧
        items.map (·.uuid) = rows.map (·.1.uuid) ∧ ∀ i ∈ items, PushIn gen new L i) w := by
  induction rows generalizing A w with
  | nil =>
    rintro _ ⟨⟩
    exact ⟨h, rfl, by simp⟩
  | cons row rest ih =>
    obtain ⟨ov, payload⟩ := row
    unfold reencryptRows
    split
    · rintro _ ⟨⟩
    · next pt hpt =>
      rw [safe_bind_except]
      refine safe_onDb h.decryptable (by simp) fun db a hdb => ?_
      simp only [Option.some.injEq, Prod.mk.injEq] at hdb
      have hmid := h.reencrypt gen ov.uuid pt
      rw [hdb.1] at hmid
      refine ⟨by simpa using hmid.decryptable, ?_⟩
      dsimp only
      rw [safe_bind_except]
      refine safe_mono (fun r w hr => ?_) (ih (fun r hr => hL r (List.mem_cons_of_mem _ hr))
        (w := w.setDevice d { w.devices d with db }) (by simpa using hmid))
      cases r with
      | error e => rintro _ ⟨⟩
      | ok items =>
        rintro _ ⟨⟩
        obtain ⟨hw, huuid, hitems⟩ := hr items rfl
        refine ⟨hw.mono (fun _ hv => List.perm_middle.mem_iff.mpr hv) (fun _ hv => hv), by simp [huuid], fun i hi => ?_⟩
        rcases List.mem_cons.mp hi with rfl | hi
        · exact ⟨⟨rfl, pt, rfl⟩, hL _ List.mem_cons_self⟩
        · exact hitems i hi

lemma safe_pushBatch {items : List Pushed} (hitems : ∀ i ∈ items, PushIn gen new L i)
    (h : Holds d (Mid mk u o new L A B) w) :
    Safe (Holds d (Decryptable mk u)) (pushBatch X d u items).run (fun r w =>
      Holds d (Mid mk u o new L A B) w ∧ ∀ outs, r = .ok outs → List.Forall₂ (fun i out =>
        out = .applied → Present (RowIn u gen new L) (i.uuid, u) w.server) items outs) w := by
  unfold pushBatch
  rw [safe_bind_except]
  refine safe_onMemory fun e => ⟨by simpa using h.decryptable, ?_⟩
  dsimp only
  rw [World.setDevice_eq_self, safe_bind_except]
  have hkeep : Keeps (RowIn u gen new L) (fun s => Holds d (Decryptable mk u) { w with server := s })
      (fun s => Holds d (Mid mk u o new L A B) { w with server := s }) :=
    ⟨fun s hs => Mid.decryptable hs, fun s s' hs ht => Mid.touches hs ht⟩
  have hrow : ∀ r, WroteOne u (items.map (Pushed.toItem e.now)) r → RowIn u gen new L r := by
    intro r hr
    obtain ⟨hof, hmem⟩ := rowOf_of_wroteOne (fun i hi => (hitems i hi).1) hr
    obtain ⟨i, hi, hiu⟩ := List.mem_map.mp hmem
    exact ⟨hof, hiu ▸ (hitems i hi).2⟩
  refine safe_roundTrip h.decryptable ⟨h, by simp⟩ (safe_mono (fun r s hr => ?_)
    (hkeep.syncPushBatch ⟨u, items.map (Pushed.toItem e.now)⟩ hrow h))
  refine ⟨Mid.decryptable hr.1, ⟨hr.1, by simp⟩, ?_⟩
  cases r with
  | error e => exact ⟨hr.1, by simp⟩
  | ok rs =>
    refine ⟨hr.1, ?_⟩
    rintro _ ⟨⟩
    have hf := hr.2 rs rfl
    rw [List.forall₂_map_left_iff] at hf
    rw [List.forall₂_map_right_iff]
    refine hf.imp fun i res hres hout => hres ?_
    unfold Client.PushResult.outcome at hout
    split at hout <;> first | assumption | cases hout

lemma safe_fetchPayload {uuid : Ident} {v : UInt64} {K : LocalDb Blob → Db Blob → Prop}
    {I : World → Prop} (hI : ∀ w, Holds d K w → I w) (h : Holds d K w) :
    Safe I (fetchPayload d u uuid v).run (fun _ w => Holds d K w) w := by
  unfold fetchPayload
  rw [safe_bind_except]
  refine safe_roundTrip (hI w h) h (safe_mono (fun r s hs => ?_) (safe_of_guarantees
    (J := fun s => Holds d K { w with server := s }) (reading_syncPullPayloads u [(uuid, v)])
    (fun ev hpre hev => by rwa [show ev.post = ev.pre from hev]) (fun s hs => hI _ hs) h))
  refine ⟨hI _ hs, hs, ?_⟩
  cases r <;> exact hs

lemma safe_settleOutcome {ov : OverviewRow} {out : PushOutcome} (hL : ov.uuid ∈ L)
    (hout : out = .applied → ov.uuid ∈ B) (h : Holds d (Mid mk u o new L A B) w) :
    Safe (Holds d (Decryptable mk u)) (settleOutcome X d u old new gen ov out).run (fun r w =>
      ∀ a, r = .ok a → Holds d (Mid mk u o new L A (ov.uuid :: B)) w) w := by
  cases out with
  | applied =>
    rintro _ ⟨⟩
    exact h.mono (fun _ hv => hv) (by simpa using hout rfl)
  | epochTooOld => rintro _ ⟨⟩
  | conflict v =>
    unfold settleOutcome
    rw [safe_bind_except, safe_orFail]
    refine safe_mono (fun r w h => ?_) (safe_fetchPayload (fun _ => Mid.decryptable) h)
    cases r with
    | error e => rintro _ ⟨⟩
    | ok payload =>
      dsimp only [Except.mapError]
      split
      · rintro _ ⟨⟩
      · next pt hpt =>
        rw [safe_bind_except, safe_orFail]
        have hitem : PushIn gen new L
            ⟨ov.uuid, v, gen, some (encrypt (.dek new) ov.uuid gen pt)⟩ := ⟨⟨rfl, pt, rfl⟩, hL⟩
        refine safe_mono (fun r w hr => ?_)
          (safe_pushBatch (fun i hi => List.mem_singleton.mp hi ▸ hitem) h)
        cases r with
        | error e => rintro _ ⟨⟩
        | ok outs =>
          dsimp only [Except.mapError]
          split
          · next happ =>
            rintro _ ⟨⟩
            obtain ⟨hmid, hpres⟩ := hr
            cases hpres outs rfl with
            | cons hhead htail => exact hmid.present (hhead (by simpa using happ))
          · rintro _ ⟨⟩

lemma safe_settleOutcomes {l : List (PushOutcome × OverviewRow × Blob)}
    (hL : ∀ x ∈ l, x.2.1.uuid ∈ L) (hout : ∀ x ∈ l, x.1 = .applied → x.2.1.uuid ∈ B)
    (h : Holds d (Mid mk u o new L A B) w) :
    Safe (Holds d (Decryptable mk u)) (settleOutcomes X d u old new gen l).run (fun r w =>
      ∀ a, r = .ok a → Holds d (Mid mk u o new L A (l.map (·.2.1.uuid) ++ B)) w) w := by
  induction l generalizing B w with
  | nil =>
    rintro _ ⟨⟩
    exact h
  | cons x rest ih =>
    obtain ⟨out, ov, payload⟩ := x
    unfold settleOutcomes
    rw [safe_bind_except]
    refine safe_mono (fun r w hr => ?_) (safe_settleOutcome (hL _ List.mem_cons_self)
      (hout _ List.mem_cons_self) h)
    cases r with
    | error e => rintro _ ⟨⟩
    | ok a =>
      refine safe_mono (fun r w hr a ha => ?_) (ih (fun x hx => hL x (List.mem_cons_of_mem _ hx))
        (fun x hx ha => List.mem_cons_of_mem _ (hout x (List.mem_cons_of_mem _ hx) ha)) (hr a rfl))
      exact (hr a ha).mono (fun _ hv => hv) fun _ hv => List.perm_middle.mem_iff.mpr hv

/-- The outcomes of a push, by the rows it was made from. -/
lemma zip_of_forall₂ {rows : List (OverviewRow × Blob)} {items : List Pushed}
    {outs : List PushOutcome} {R : Ident → PushOutcome → Prop}
    (huuid : items.map (·.uuid) = rows.map (·.1.uuid))
    (h : List.Forall₂ (fun i out => R i.uuid out) items outs) :
    outs.length = rows.length ∧ ∀ x ∈ outs.zip rows, R x.2.1.uuid x.1 := by
  rw [← List.forall₂_map_left_iff (f := Pushed.uuid), huuid, List.forall₂_map_left_iff] at h
  obtain ⟨hlen, hzip⟩ := List.forall₂_iff_zip.mp h.flip
  exact ⟨hlen, fun x hx => hzip hx⟩

lemma safe_rotateBatches {batches : List (List (OverviewRow × Blob))}
    (hL : ∀ r ∈ batches.flatten, r.1.uuid ∈ L) (h : Holds d (Mid mk u o new L A B) w) :
    Safe (Holds d (Decryptable mk u)) (rotateBatches X d u old new gen batches).run (fun r w =>
      ∀ a, r = .ok a → Holds d (Mid mk u o new L (batches.flatten.map (·.1.uuid) ++ A)
        (batches.flatten.map (·.1.uuid) ++ B)) w) w := by
  induction batches generalizing A B w with
  | nil =>
    rintro _ ⟨⟩
    exact h
  | cons rows rest ih =>
    have hrows : ∀ r ∈ rows, r.1.uuid ∈ L := fun r hr => hL r (by simp [hr])
    unfold rotateBatches
    rw [safe_bind_except]
    refine safe_mono (fun r w hr => ?_) (safe_reencryptRows hrows h)
    cases r with
    | error e => rintro _ ⟨⟩
    | ok items =>
      -- the rows of the batch are under the new key
      obtain ⟨hmid, huuid, hitems⟩ := hr items rfl
      dsimp only
      rw [safe_bind_except, safe_orFail]
      refine safe_mono (fun r w hr => ?_) (safe_pushBatch hitems hmid)
      cases r with
      | error e => rintro _ ⟨⟩
      | ok outs =>
        -- they were pushed, and those that were applied are at the server
        obtain ⟨hmid, hpres⟩ := hr
        obtain ⟨hlen, happ⟩ := zip_of_forall₂ (R := fun v out => out = .applied →
          Present (RowIn u gen new L) (v, u) w.server) huuid (hpres outs rfl)
        dsimp only [Except.mapError]
        rw [safe_bind_except]
        have hzip : ∀ x ∈ outs.zip rows, x.2 ∈ rows := fun x hx => (List.of_mem_zip hx).2
        have hmap : (outs.zip rows).map (·.2.1.uuid) = rows.map (·.1.uuid) := by
          calc (outs.zip rows).map (·.2.1.uuid)
              = ((outs.zip rows).map Prod.snd).map (·.1.uuid) := by rw [List.map_map]; rfl
            _ = rows.map (·.1.uuid) := by rw [List.map_snd_zip (by omega)]
        have hmid' := hmid.presentAll (((outs.zip rows).filter (·.1 = .applied)).map (·.2.1.uuid))
          fun v hv => by
            obtain ⟨x, hx, rfl⟩ := List.mem_map.mp hv
            obtain ⟨hx, hxa⟩ := List.mem_filter.mp hx
            exact happ x hx (by simpa using hxa)
        refine safe_mono (fun r w hr => ?_) (safe_settleOutcomes (L := L)
          (fun x hx => hrows _ (hzip x hx)) (fun x hx hxa => ?_) hmid')
        · cases r with
          | error e => rintro _ ⟨⟩
          | ok a =>
            -- the conflicts are settled, and the rest follows by induction
            refine safe_mono (fun r w hr a ha => ?_)
              (ih (fun r hr => hL r (List.mem_append_right _ hr)) (hr a rfl))
            refine (hr a ha).mono (fun v hv => ?_) fun v hv => ?_
            · simp only [List.flatten_cons, List.map_append, List.mem_append] at hv ⊢
              tauto
            · rw [hmap]
              simp only [List.flatten_cons, List.map_append, List.mem_append] at hv ⊢
              tauto
        · exact List.mem_append_left _ (List.mem_map.mpr ⟨x, List.mem_filter.mpr ⟨hx, by simpa⟩, rfl⟩)

/-! ### The rotation -/

/-- The server takes the new blob, and leaves the items. -/
lemma safe_accountRotateKey_fresh {I : Db Blob → Prop} (hI : ∀ s', s'.items = s.items → I s')
    (hgen : ∀ row ∈ s.users.get u, row.minEncKeyGen < asI64 g) (b : Blob) :
    Safe I (accountRotateKey X ⟨u, asI64 g, some b⟩).run (fun r s' => s'.items = s.items ∧
      ∀ resp, r = .ok resp → resp.minEncKeyGen = asI64 g ∧
        (s'.users.get u).map (·.svkCiphertextBlob) = some b) s := by
  unfold accountRotateKey
  change Safe I (ite _ _ _ : ServerHandler Blob RotateKeyResp).run _ s
  split
  · exact ⟨rfl, by simp⟩
  rw [safe_bind_except, safe_orInternal]
  refine safe_statement (hI s rfl) ⟨rfl, by simp⟩ fun _ => ⟨hI s rfl, ?_⟩
  dsimp only [Except.mapError]
  split
  · exact ⟨rfl, by simp⟩
  · next row hrow =>
    rw [if_neg (not_le.mpr (hgen row hrow)), safe_bind_except, safe_orInternal]
    refine safe_statement (hI s rfl) ⟨rfl, by simp⟩ fun _ => ⟨hI _ rfl, ?_⟩
    dsimp only [Except.mapError]
    rw [safe_bind_except, safe_orInternal]
    refine safe_statement (hI _ rfl) ⟨rfl, by simp⟩ fun _ => ⟨hI _ rfl, ?_⟩
    dsimp only [Except.mapError]
    rw [safe_bind_except, safe_orInternal]
    refine safe_statement (hI _ rfl) ⟨rfl, by simp⟩ fun _ => ⟨hI _ rfl, rfl, ?_⟩
    rintro _ ⟨⟩
    have hid : row.id = u := Table.get_key hrow
    exact ⟨rfl, by simp [hrow, hid]⟩

/-- The server has reached the generation already, and drops the new blob. -/
lemma safe_accountRotateKey_reached {I : Db Blob → Prop} (hI : I s)
    (hgen : ∀ row ∈ s.users.get u, asI64 g ≤ row.minEncKeyGen) (b : Blob) :
    Safe I (accountRotateKey X ⟨u, asI64 g, some b⟩).run (fun r s' => s' = s ∧
      ∀ resp, r = .ok resp → (s.users.get u).map (·.minEncKeyGen) = some resp.minEncKeyGen) s := by
  unfold accountRotateKey
  change Safe I (ite _ _ _ : ServerHandler Blob RotateKeyResp).run _ s
  split
  · exact ⟨rfl, by simp⟩
  rw [safe_bind_except, safe_orInternal]
  refine safe_statement hI ⟨rfl, by simp⟩ fun _ => ⟨hI, ?_⟩
  dsimp only [Except.mapError]
  split
  · exact ⟨rfl, by simp⟩
  · next row hrow =>
    rw [if_pos (hgen row hrow)]
    refine ⟨rfl, ?_⟩
    rintro _ ⟨⟩
    simp [hrow]

/-- The last part of a rotation: the device stores its blob and takes the new key. -/
lemma safe_storeSvkBlob (h : Holds d (Decryptable mk u) w)
    (hstore : ∀ db, storeSvkBlob (wrapSvk mk new) (w.devices d).db = some db →
      Decryptable mk u db w.server) :
    Safe (Holds d (Decryptable mk u)) (do
      onDb d .storeSvkBlob "store svk" fun db => (storeSvkBlob (wrapSvk mk new) db).map (·, ())
      writeMemory d ({ · with localGen := gen })
      writeMemory d ({ · with minEncKeyGen := gen })
      writeMemory d ({ · with svk := some new })
      writeMemory d ({ · with dek := some (.dek new) })
      publish d [.syncCompleted] : Client.Op Unit).run (fun _ _ => True) w := by
  have hpromote : Guarantees (fun _ _ _ => True) (Stays d) (do
      writeMemory d ({ · with localGen := gen })
      writeMemory d ({ · with minEncKeyGen := gen })
      writeMemory d ({ · with svk := some new })
      writeMemory d ({ · with dek := some (.dek new) })
      publish d [.syncCompleted] : Client.Op Unit).run :=
    guarantees_bind_except stays_onMemory fun _ => guarantees_bind_except stays_onMemory fun _ =>
      guarantees_bind_except stays_onMemory fun _ => guarantees_bind_except stays_onMemory fun _ =>
      stays_onMemory
  rw [safe_bind_except]
  refine safe_onDb h (fun _ => trivial) fun db a hdb => ?_
  obtain ⟨db', hdb', heq⟩ := Option.map_eq_some_iff.mp hdb
  obtain rfl : db' = db := congrArg Prod.fst heq
  have hdec := (holds_setDevice (w := w) (d := d) { w.devices d with db := db' }).mpr (hstore db' hdb')
  exact ⟨hdec, safe_mono (fun _ _ _ => trivial) (safe_stays hpromote hdec)⟩

/-- A rotation of everything that is around. -/
lemma safe_rotateItems_fresh (h : Holds d (Mid mk u o new L [] []) w)
    (hL : ∀ v, v ∈ L ↔ v ∈ (listRotationItems (asI64 gen) (w.devices d).db).map (·.1.uuid)) :
    Safe (Holds d (Decryptable mk u)) (rotateItems X d u mk old new gen).run (fun _ _ => True) w := by
  refine safe_memory_bind h.decryptable fun _ w₁ h₁ =>
    safe_memory_bind (h₁.holds h).decryptable fun _ w₂ h₂ => ?_
  have hmid : Holds d (Mid mk u o new L [] []) w₂ := h₂.holds (h₁.holds h)
  rw [← h₁.1, ← h₂.1] at hL
  rw [safe_bind_except]
  refine safe_readDb hmid.decryptable (fun _ => trivial) ?_
  dsimp only
  rw [safe_bind_except]
  have hrows : ∀ r ∈ (chunks 100 (listRotationItems (asI64 gen) (w₂.devices d).db)).flatten,
      r.1.uuid ∈ L := fun r hr =>
    (hL _).mpr (List.mem_map_of_mem ((mem_flatten_chunks (by decide)).mp hr))
  refine safe_mono (fun r w hr => ?_) (safe_rotateBatches hrows hmid)
  cases r with
  | error e => trivial
  | ok a =>
    have hall : ∀ v ∈ L, v ∈ (chunks 100 (listRotationItems (asI64 gen)
        (w₂.devices d).db)).flatten.map (·.1.uuid) ++ [] := fun v hv => by
      obtain ⟨r, hr, rfl⟩ := List.mem_map.mp ((hL v).mp hv)
      rw [List.append_nil]
      exact List.mem_map_of_mem ((mem_flatten_chunks (by decide)).mpr hr)
    exact safe_storeSvkBlob (hr a rfl).decryptable fun db hdb => (hr a rfl).stored hall hall hdb

/-- Every live item opens with the key that the server has. -/
def ServerOpens (mk : Key) (u : Ident) (db : LocalDb Blob) (s : Db Blob) : Prop :=
  ∀ i ∈ localItems db ++ serverItems u s, i.opensWith (serverKey mk u s) = true

/-- A rotation that has nothing to do, or stops at the first item. -/
lemma safe_rotateItems_reached (h : Decryptable mk u (w.devices d).db w.server)
    (hrows : listRotationItems (asI64 gen) (w.devices d).db = [] ∧ Holds d (ServerOpens mk u) w ∨
      ∃ ov p, (listRotationItems (asI64 gen) (w.devices d).db).head? = some (ov, p) ∧
        decrypt (.dek old) ov.uuid (asU64 ov.encKeyGen) p = none) :
    Safe (Holds d (Decryptable mk u)) (rotateItems X d u mk old new gen).run (fun _ _ => True) w := by
  refine safe_memory_bind h fun _ w₁ h₁ => safe_memory_bind (h₁.holds h) fun _ w₂ h₂ => ?_
  have hdec : Holds d (Decryptable mk u) w₂ := h₂.holds (h₁.holds h)
  rw [← h₁.1, ← h₂.1] at hrows
  rw [safe_bind_except]
  refine safe_readDb hdec (fun _ => trivial) ?_
  dsimp only
  rcases hrows with ⟨hnil, hopens⟩ | ⟨ov, p, hhead, hfail⟩
  · rw [hnil]
    refine safe_storeSvkBlob hdec fun db hdb i hi => .inl ?_
    rw [localItems_storeSvkBlob hdb] at hi
    exact (h₂.holds (h₁.holds hopens)) i hi
  · obtain ⟨rest, hrest⟩ : ∃ rest, listRotationItems (asI64 gen) (w₂.devices d).db =
        (ov, p) :: rest := by
      cases hl : listRotationItems (asI64 gen) (w₂.devices d).db with
      | nil => simp [hl] at hhead
      | cons r rest => exact ⟨rest, by simpa [hl] using hhead⟩
    obtain ⟨c, cs, hchunks⟩ := chunks_cons 99 (ov, p) rest
    rw [hrest, hchunks]
    unfold rotateBatches reencryptRows
    simp only [hfail]
    exact trivial

/-! ### When a rotation is safe -/

/-- The device refuses to rotate. -/
def Idle (m : Memory) : Prop :=
  m.locked = true ∨ m.transport = none ∨ m.serverUserId = none ∨ m.mk = none ∨ m.svk = none

/-- The generation is new, every item opens with the key on the device, every item of the
device is of an older generation, and the device has every item of the server. -/
structure Fresh (mk : Key) (u : Ident) (g : UInt64) (db : LocalDb Blob) (s : Db Blob) : Prop where
  gen : ∀ row ∈ s.users.get u, row.minEncKeyGen < asI64 g
  opens : ∀ i ∈ localItems db ++ serverItems u s, i.opensWith (localKey mk u db) = true
  older : ∀ i ∈ localItems db, i.gen < asI64 g
  held : ∀ i ∈ serverItems u s, i.uuid ∈ (localItems db).map (·.uuid)

/-- What a rotation re-encrypts first. -/
def firstItem (row : UserRow Blob) (db : LocalDb Blob) : Option (OverviewRow × Blob) :=
  (listRotationItems (asI64 (asU64 row.minEncKeyGen)) db).head?

/-- The server has reached the generation, and on the device nothing is older, with every
item under the key that the server has, or the first item that is older does not open. -/
structure Reached (mk : Key) (u : Ident) (g : UInt64) (old : Option Key) (db : LocalDb Blob)
    (s : Db Blob) : Prop where
  gen : ∀ row ∈ s.users.get u, asI64 g ≤ row.minEncKeyGen
  rest : ∀ row ∈ s.users.get u, firstItem row db = none ∧ ServerOpens mk u db s ∨
    ∃ r ∈ firstItem row db, ∀ k ∈ old,
      decrypt (.dek k) r.1.uuid (asU64 r.1.encKeyGen) r.2 = none

/-- A rotation to the generation `g` loses nothing, wherever it stops. -/
def Ready (mk : Key) (u : Ident) (d : ℕ) (g : UInt64) (w : World) : Prop :=
  Idle (w.devices d).mem ∨ (w.devices d).mem.transport = some u ∧ (w.devices d).mem.mk = some mk ∧
    (Fresh mk u g (w.devices d).db w.server ∨
      Reached mk u g (w.devices d).mem.svk (w.devices d).db w.server)

lemma Fresh.decryptable (h : Fresh mk u g db s) {s' : Db Blob} (hs : s'.items = s.items) :
    Decryptable mk u db s' := by
  intro i hi
  rw [show serverItems u s' = serverItems u s by rw [serverItems, hs, serverItems]] at hi
  exact .inr (h.opens i hi)

/-- The server has taken the new blob. -/
lemma Fresh.mid (h : Fresh mk u g db s) {s' : Db Blob} (hs : s'.items = s.items)
    (hblob : (s'.users.get u).map (·.svkCiphertextBlob) = some (wrapSvk mk new)) :
    Mid mk u (localKey mk u db) new ((localItems db).map (·.uuid)) [] [] db s' := by
  have hitems : serverItems u s' = serverItems u s := by rw [serverItems, hs, serverItems]
  refine ⟨rfl, ?_, fun i hi => ?_, fun i hi => ?_, fun i hi => ?_⟩
  · obtain ⟨row, hrow, hb⟩ := Option.map_eq_some_iff.mp hblob
    simp [serverKey, hrow, hb]
  · rw [hitems] at hi
    rcases List.mem_append.mp hi with hi | hi
    · exact List.mem_map_of_mem hi
    · exact h.held i hi
  · exact .inr ⟨by simp, h.opens i (List.mem_append_left _ hi)⟩
  · rw [hitems] at hi
    exact .inr ⟨by simp, h.opens i (List.mem_append_right _ hi)⟩

/-- The rotation will go through everything that is on the device. -/
lemma Fresh.rotates (h : Fresh mk u g db s) (v : Ident) : v ∈ (localItems db).map (·.uuid) ↔
    v ∈ (listRotationItems (asI64 g) db).map (·.1.uuid) := by
  constructor
  · intro hv
    obtain ⟨i, hi, rfl⟩ := List.mem_map.mp hv
    obtain ⟨r, p, hr, hp, hlive, rfl⟩ := mem_localItems.mp hi
    refine List.mem_map.mpr ⟨(r, p), mem_listRotationItems.mpr ⟨?_, hlive, h.older _ hi⟩, rfl⟩
    exact mem_joined.mpr ⟨Table.get_mem hr, hp⟩
  · intro hv
    obtain ⟨⟨r, p⟩, hr, rfl⟩ := List.mem_map.mp hv
    obtain ⟨hrp, hlive, -⟩ := mem_listRotationItems.mp hr
    obtain ⟨hmem, hp⟩ := mem_joined.mp hrp
    exact List.mem_map.mpr
      ⟨_, mem_localItems.mpr ⟨r, p, Table.get_of_mem hmem, hp, hlive, rfl⟩, rfl⟩

lemma safe_request_fresh (h : Fresh mk u g (w.devices d).db w.server) :
    Safe (Holds d (Decryptable mk u)) (do
      let gen ← orFail "rotate_key" (rotateKeyRequest X d u g (wrapSvk mk new))
      rotateItems X d u mk old new gen : Client.Op Unit).run (fun _ _ => True) w := by
  rw [safe_bind_except, safe_orFail]
  unfold rotateKeyRequest
  rw [safe_bind_except]
  have hdec : ∀ s, s.items = w.server.items → Holds d (Decryptable mk u) { w with server := s } :=
    fun s hs => h.decryptable hs
  refine safe_roundTrip (hdec w.server rfl) trivial (safe_mono (fun r s hr => ?_)
    (safe_accountRotateKey_fresh hdec h.gen (wrapSvk mk new)))
  refine ⟨hdec s hr.1, trivial, ?_⟩
  cases r with
  | error e => trivial
  | ok resp =>
    obtain ⟨hgen, hblob⟩ := hr.2 resp rfl
    change Safe _ (rotateItems X d u mk old new (asU64 resp.minEncKeyGen)).run _ _
    rw [hgen, asU64_asI64]
    exact safe_rotateItems_fresh (h.mid hr.1 hblob) h.rotates

lemma safe_request_reached (hdec : Holds d (Decryptable mk u) w)
    (h : Reached mk u g (some old) (w.devices d).db w.server) :
    Safe (Holds d (Decryptable mk u)) (do
      let gen ← orFail "rotate_key" (rotateKeyRequest X d u g (wrapSvk mk new))
      rotateItems X d u mk old new gen : Client.Op Unit).run (fun _ _ => True) w := by
  rw [safe_bind_except, safe_orFail]
  unfold rotateKeyRequest
  rw [safe_bind_except]
  refine safe_roundTrip hdec trivial (safe_mono (fun r s hr => ?_)
    (safe_accountRotateKey_reached (I := fun s => Holds d (Decryptable mk u) { w with server := s })
      hdec h.gen (wrapSvk mk new)))
  obtain ⟨rfl, hresp⟩ := hr
  refine ⟨hdec, trivial, ?_⟩
  cases r with
  | error e => trivial
  | ok resp =>
    obtain ⟨row, hrow, hmin⟩ := Option.map_eq_some_iff.mp (hresp resp rfl)
    refine safe_rotateItems_reached hdec ?_
    rcases h.rest row hrow with ⟨hnone, hopens⟩ | ⟨⟨ov, p⟩, hfirst, hfail⟩
    · exact .inl ⟨by simpa [firstItem, hmin] using hnone, hopens⟩
    · exact .inr ⟨ov, p, by simpa [firstItem, hmin] using hfirst, hfail old rfl⟩

/-- **One rotation** that is ready loses nothing, wherever it stops. -/
lemma safe_rotateKey (hdec : Holds d (Decryptable mk u) w) (h : Ready mk u d g w) :
    Safe (Holds d (Decryptable mk u)) (rotateKey X d g).run (fun _ _ => True) w := by
  unfold rotateKey requireUnlocked
  rw [safe_bind_except, safe_bind_except]
  refine safe_readMemory hdec ?_
  cases hlocked : (w.devices d).mem.locked with
  | true => trivial
  | false =>
    simp only [Bool.false_eq_true, if_false]
    change Safe _ (_ >>= _ : Client.Op Unit).run _ w
    rw [safe_bind_except]
    refine safe_require hdec (fun _ => trivial) fun user huser => ?_
    dsimp only
    rw [safe_bind_except]
    refine safe_require hdec (fun _ => trivial) fun uid huid => ?_
    dsimp only
    rw [safe_bind_except]
    refine safe_require hdec (fun _ => trivial) fun mk' hmk => ?_
    dsimp only
    rw [safe_bind_except]
    refine safe_require hdec (fun _ => trivial) fun old hold => ?_
    refine safe_memory_bind hdec fun new w' hw => ?_
    rcases h with hidle | ⟨hu, hmk', hcase⟩
    · simp [Idle, hlocked, huser, huid, hmk, hold] at hidle
    · obtain rfl : user = u := Option.some.inj (huser.symm.trans hu)
      obtain rfl : mk' = mk := Option.some.inj (hmk.symm.trans hmk')
      rw [hold, ← hw.1, ← hw.2] at hcase
      rcases hcase with hfresh | hreached
      · exact safe_request_fresh hfresh
      · exact safe_request_reached (hw.holds hdec) hreached

instance (m : Memory) : Decidable (Idle m) := inferInstanceAs (Decidable (_ ∨ _))

instance (mk : Key) (u : Ident) (db : LocalDb Blob) (s : Db Blob) :
    Decidable (ServerOpens mk u db s) := inferInstanceAs (Decidable (∀ i ∈ _, _))

instance (mk : Key) (u : Ident) (g : UInt64) (db : LocalDb Blob) (s : Db Blob) :
    Decidable (Fresh mk u g db s) :=
  decidable_of_iff (_ ∧ _ ∧ _ ∧ _) ⟨fun ⟨h₁, h₂, h₃, h₄⟩ => ⟨h₁, h₂, h₃, h₄⟩,
    fun h => ⟨h.gen, h.opens, h.older, h.held⟩⟩

instance (mk : Key) (u : Ident) (g : UInt64) (old : Option Key) (db : LocalDb Blob) (s : Db Blob) :
    Decidable (Reached mk u g old db s) :=
  decidable_of_iff (_ ∧ _) ⟨fun ⟨h₁, h₂⟩ => ⟨h₁, h₂⟩, fun h => ⟨h.gen, h.rest⟩⟩

instance (mk : Key) (u : Ident) (d : ℕ) (g : UInt64) (w : World) : Decidable (Ready mk u d g w) :=
  inferInstanceAs (Decidable (_ ∨ _ ∧ _ ∧ _))

/-! ### Rotations, one after the other -/

/-- Every command is a rotation, or one that does not touch what is stored. -/
def Rotating : ClientSess → SessAct Empty → Prop
  | _, .op (.rotateKey _) => True
  | _, .op q => lifecycle q = true
  | _, _ => True

/-- And every rotation is ready. -/
def Careful (mk : Key) (u : Ident) (d : ℕ) (σ : ClientSess) : SessAct Empty → Prop
  | .op (.rotateKey g) => Ready mk u d g σ.shared
  | .op q => lifecycle q = true
  | _ => True

instance (σ : ClientSess) (a : SessAct Empty) : Decidable (Rotating σ a) := by
  rcases a with q | _ | x
  · cases q with
    | rotateKey g => exact inferInstanceAs (Decidable True)
    | _ => exact inferInstanceAs (Decidable (_ = _))
  · exact inferInstanceAs (Decidable True)
  · exact x.elim

instance (mk : Key) (u : Ident) (d : ℕ) (σ : ClientSess) (a : SessAct Empty) :
    Decidable (Careful mk u d σ a) := by
  rcases a with q | _ | x
  · cases q with
    | rotateKey g => exact inferInstanceAs (Decidable (Ready _ _ _ _ _))
    | _ => exact inferInstanceAs (Decidable (_ = _))
  · exact inferInstanceAs (Decidable True)
  · exact x.elim

/-- **Rotations lose nothing.** A device rotates, stops anywhere, is locked, unlocked and
started again, and rotates again, as often as it likes. If every rotation is ready when it
begins, then at every moment every live item on the device and on the server opens with the
key in one of the two blobs. -/
theorem rotations_decryptable (X : Ext Blob) (d : ℕ) (mk : Key) (u : Ident) (w : World)
    (hw : Decryptable mk u (w.devices d).db w.server) (as : List (SessAct Empty))
    (has : Along (code X d) nobody (Careful mk u d) (init w) as) :
    Holds d (Decryptable mk u) (run (code X d) nobody (init w) as).shared := by
  have hop : ∀ (σ : ClientSess) q, Holds d (Decryptable mk u) σ.shared → Careful mk u d σ (.op q) →
      wp (keeps (Holds d (Decryptable mk u)) Eq fun _ => True) (code X d q)
        (fun _ tr _ => Every (fun ev => Holds d (Decryptable mk u) ev.post) tr) [] σ.shared := by
    intro σ q hσ hC
    have hstays : lifecycle q → Safe (Holds d (Decryptable mk u)) (code X d q)
        (fun _ w => Holds d (Decryptable mk u) w) σ.shared := fun hq => safe_stays (stays_exec hq) hσ
    cases q with
    | rotateKey g =>
      refine Safe.keeps (P := fun _ _ => True) ?_ every_nil
      change Safe _ (_ >>= _ : Client.Op CmdReply).run _ σ.shared
      rw [safe_bind_except]
      exact safe_mono (fun r w _ => by cases r <;> trivial) (safe_rotateKey hσ hC)
    | _ => exact (hstays hC).keeps every_nil
  exact run_keeps (C := Careful mk u d) hop (fun _ _ _ _ _ _ _ _ _ _ _ => trivial)
    (fun _ x => x.elim) (fun _ => trivial) (fun _ => rfl) (fun _ _ _ h₁ h₂ => h₁.trans h₂) hw has

/-! ### One item -/

/-- One item, with the blob of its key on the server and on the device. -/
def settled : World where
  server := oneItem.server
  devices _ := { oneItem.devices 0 with
    db := { (oneItem.devices 0).db with syncMeta := ⟨[⟨1, 0, 0, wrapSvk 9 100⟩], by decide⟩ } }

/-- So many statements, with the new vault key `k` when one is asked for. -/
def statements (n : ℕ) (k : Key) : List (SessAct Empty) := List.replicate n (.exec ⟨0, 0, false, k⟩)

/-- A rotation stops right after the server has taken its blob; the next one goes on to its
end. -/
def twice : List (SessAct Empty) :=
  .op (.rotateKey 2) :: statements 10 200 ++ .op (.rotateKey 3) :: statements 35 300

theorem rotations_decryptable_twice :
    Decryptable 9 7 (settled.devices 0).db settled.server ∧
    Along (code anyUuid 0) nobody (Careful 9 7 0) (init settled) twice ∧
    Holds 0 (Decryptable 9 7) (run (code anyUuid 0) nobody (init settled) twice).shared :=
  ⟨by decide, by decide +kernel,
    rotations_decryptable anyUuid 0 9 7 settled (by decide) twice (by decide +kernel)⟩

/-- The first rotation of a vault: the device has no blob yet, and as soon as the server has
taken the new one, nothing opens the items. -/
theorem rotation_loses_items : ¬∀ (w : World) (as : List (SessAct Empty)),
    Decryptable 9 7 (w.devices 0).db w.server →
    Along (code anyUuid 0) nobody Rotating (init w) as →
    Holds 0 (Decryptable 9 7) (run (code anyUuid 0) nobody (init w) as).shared := by
  intro h
  have := h oneItem (.op (.rotateKey 2) :: statements 10 200) (by decide) (by decide +kernel)
  revert this
  unfold Holds
  decide +kernel

end Vautr.RotationSafety
