import Mathlib.Data.List.Infix
import Vautr.Sql

/-!
What is taken out of a crash report before it is sent (`vautr-app-state/src/hardening.rs`).

Texts are lists of characters. The source looks at the bytes of a text; all it looks for is ASCII,
and an ASCII byte of a text is a character of it.
-/

namespace Vautr.CrashReports

open Vautr.Sql

abbrev Text := List Char

/-! ### Reports -/

/-- `serde_json::Value`; of a number only that it has no text in it matters. -/
inductive Json
  | null
  | bool (b : Bool)
  | number (n : ℤ)
  | string (s : Text)
  | array (vs : List Json)
  | object (entries : List (Text × Json))

def Json.asStr : Json → Option Text
  | .string s => some s
  | _ => none

structure CrashBreadcrumb where
  message : Text
  category : Option Text

structure CrashUser where
  id : Option Text
  email : Option Text

/-- A `serde_json::Map`. -/
abbrev JsonMap := Table (Prod.fst : Text × Json → Text)

@[ext]
structure CrashEvent where
  message : Option Text
  breadcrumbs : List CrashBreadcrumb
  stacktrace : Option (List Text)
  extra : JsonMap
  user : Option CrashUser

/-! ### The scrubber -/

/-- `is_ascii_digit`, or between `a` and `f`, or between `A` and `F`. -/
def isHex (c : Char) : Bool :=
  c.isDigit || ('a' ≤ c && c ≤ 'f') || ('A' ≤ c && c ≤ 'F')

/-- The places of the dashes in a uuid. -/
def dashes : List ℕ := [8, 13, 18, 23]

def isUuidAt (s : Text) (start : ℕ) : Bool :=
  (dashes.all fun d => s[start + d]? = some '-') &&
    (List.range 36).all fun i => i ∈ dashes || s[start + i]?.any isHex

def looksLikeUuid (s : Text) : Bool :=
  if s.length < 36 then false else (List.range (s.length - 36 + 1)).any (isUuidAt s)

/-- `contains`, of a text. -/
def contains (s : Text) (part : String) : Bool := decide (part.toList <:+: s)

def isSecretKey (key : Text) : Bool :=
  let k := key.map Char.toLower
  contains k "secret" || contains k "password" || contains k "token" || contains k "decrypted" ||
    contains k "plaintext" || contains k "title" || contains k "email" || contains k "mnemonic" ||
    k = "uuid".toList

/-- The test that a message and a value in `extra` are put to. -/
def isSensitive (s : Text) : Bool :=
  looksLikeUuid s || contains s "DecryptedSecret" || contains s "DecryptedOverview"

def redacted : Text := "[redacted]".toList

def scrubMessage (message : Option Text) : Option Text :=
  message.map fun msg => if isSensitive msg then redacted else msg

/-- A non-empty address is dropped, and an id that looks like a uuid. -/
def scrubUser (user : CrashUser) : CrashUser where
  email := user.email.filter (·.isEmpty)
  id := user.id.filter fun id => !looksLikeUuid id

/-- Whether an entry of `extra` is removed. -/
def isRemoved (entry : Text × Json) : Bool :=
  isSecretKey entry.1 || entry.2.asStr.any isSensitive

def scrubCrashEvent (event : CrashEvent) : CrashEvent where
  message := scrubMessage event.message
  breadcrumbs := event.breadcrumbs
  stacktrace := event.stacktrace
  user := event.user.map scrubUser
  extra :=
    let toRemove := (event.extra.rows.filter isRemoved).map (·.1)
    event.extra.delete fun entry => entry.1 ∈ toRemove

/-! ### What should not be in a report -/

/-- An RFC 4122 uuid: groups of 8, 4, 4, 4 and 12 hexadecimal digits. -/
def IsUuid (u : Text) : Prop :=
  ∃ a b c d e : Text, u = a ++ '-' :: b ++ '-' :: c ++ '-' :: d ++ '-' :: e ∧
    (a ++ b ++ c ++ d ++ e).all isHex ∧
    a.length = 8 ∧ b.length = 4 ∧ c.length = 4 ∧ d.length = 4 ∧ e.length = 12

def isLocalChar (c : Char) : Bool := c.isAlphanum || c ∈ ['.', '_', '%', '+', '-']

def isHostChar (c : Char) : Bool := c.isAlphanum || c ∈ ['.', '-']

/-- An e-mail address: a name, a host and a top-level domain. -/
def IsEmail (s : Text) : Prop :=
  ∃ name host tld : Text, s = name ++ '@' :: host ++ '.' :: tld ∧ name ≠ [] ∧ host ≠ [] ∧
    2 ≤ tld.length ∧ name.all isLocalChar ∧ host.all isHostChar ∧ tld.all Char.isAlpha

def HasUuid (s : Text) : Prop := ∃ u, IsUuid u ∧ u <:+: s

def HasEmail (s : Text) : Prop := ∃ e, IsEmail e ∧ e <:+: s

/-- The text names one of the types of decrypted data. -/
def HasTypeName (s : Text) : Prop :=
  "DecryptedSecret".toList <:+: s ∨ "DecryptedOverview".toList <:+: s

/-- Nothing in the text is a uuid, an e-mail address or the name of a type of decrypted data. -/
structure CleanText (s : Text) : Prop where
  uuid : ¬HasUuid s
  email : ¬HasEmail s
  typeName : ¬HasTypeName s

/-- The text is in the value, at any depth. -/
inductive TextIn (s : Text) : Json → Prop
  | string : TextIn s (.string s)
  | array {v : Json} {vs : List Json} (hv : v ∈ vs) (h : TextIn s v) : TextIn s (.array vs)
  | key {v : Json} {entries : List (Text × Json)} (h : (s, v) ∈ entries) :
    TextIn s (.object entries)
  | value {k : Text} {v : Json} {entries : List (Text × Json)} (hv : (k, v) ∈ entries)
      (h : TextIn s v) : TextIn s (.object entries)

/-- The key is in the value, at any depth. -/
inductive KeyIn (k : Text) : Json → Prop
  | array {v : Json} {vs : List Json} (hv : v ∈ vs) (h : KeyIn k v) : KeyIn k (.array vs)
  | key {v : Json} {entries : List (Text × Json)} (h : (k, v) ∈ entries) : KeyIn k (.object entries)
  | value {k' : Text} {v : Json} {entries : List (Text × Json)} (hv : (k', v) ∈ entries)
      (h : KeyIn k v) : KeyIn k (.object entries)

/-- All texts in the value are clean, and no key is named like a secret. -/
structure CleanValue (v : Json) : Prop where
  text : ∀ s, TextIn s v → CleanText s
  key : ∀ k, KeyIn k v → isSecretKey k = false

/-- An entry of `extra`. -/
structure CleanEntry (entry : Text × Json) : Prop where
  name : CleanText entry.1
  key : isSecretKey entry.1 = false
  value : CleanValue entry.2

structure CleanCrumb (b : CrashBreadcrumb) : Prop where
  message : CleanText b.message
  category : ∀ c ∈ b.category, CleanText c

/-- Nothing in the report is a uuid, an e-mail address, the name of a type of decrypted data or a
key that is named like a secret. -/
structure Clean (event : CrashEvent) : Prop where
  message : ∀ msg ∈ event.message, CleanText msg
  breadcrumbs : ∀ b ∈ event.breadcrumbs, CleanCrumb b
  stacktrace : ∀ frames ∈ event.stacktrace, ∀ frame ∈ frames, CleanText frame
  extra : ∀ entry ∈ event.extra.rows, CleanEntry entry
  userId : ∀ user ∈ event.user, ∀ id ∈ user.id, CleanText id
  userEmail : ∀ user ∈ event.user, ∀ email ∈ user.email, CleanText email

/-- What the scrubber owes a report: it is clean, it is as it was if it was clean before, and to
scrub it once more changes nothing. -/
structure Scrubbed (event : CrashEvent) : Prop where
  clean : Clean (scrubCrashEvent event)
  same : Clean event → scrubCrashEvent event = event
  again : scrubCrashEvent (scrubCrashEvent event) = scrubCrashEvent event

/-- What is clean already where the scrubber does not look: e-mail addresses in a message that it
keeps, all of the breadcrumbs and stack frames, an id that is no uuid, and of an entry that it keeps
the name of the key and all that is inside the value. A user without an address has none that is
not empty. -/
structure CleanElsewhere (event : CrashEvent) : Prop where
  message : ∀ msg ∈ event.message, isSensitive msg = false → ¬HasEmail msg
  breadcrumbs : ∀ b ∈ event.breadcrumbs, CleanCrumb b
  stacktrace : ∀ frames ∈ event.stacktrace, ∀ frame ∈ frames, CleanText frame
  extra : ∀ entry ∈ event.extra.rows, isRemoved entry = false →
    CleanText entry.1 ∧ CleanValue entry.2
  userId : ∀ user ∈ event.user, ∀ id ∈ user.id, looksLikeUuid id = false →
    ¬HasEmail id ∧ ¬HasTypeName id
  userEmail : Clean event → ∀ user ∈ event.user, ∀ email ∈ user.email, email = []

/-! ### Uuids -/

/-- The character may stand at this place of a uuid. -/
def Fits (i : ℕ) (c : Char) : Prop := if i ∈ dashes then c = '-' else isHex c = true

lemma isUuidAt_iff {s : Text} {start : ℕ} :
    isUuidAt s start = true ↔ ∀ i < 36, ∃ c, s[start + i]? = some c ∧ Fits i c := by
  have hdash : ∀ d ∈ dashes, d < 36 := by decide
  simp only [isUuidAt, Bool.and_eq_true, List.all_eq_true, List.mem_range, Bool.or_eq_true,
    decide_eq_true_eq, Option.any_eq_true]
  constructor
  · rintro ⟨hdashes, hhex⟩ i hi
    by_cases hd : i ∈ dashes
    · exact ⟨'-', hdashes i hd, by rw [Fits, if_pos hd]⟩
    · obtain ⟨c, hc, hx⟩ := (hhex i hi).resolve_left hd
      exact ⟨c, hc, by rwa [Fits, if_neg hd]⟩
  · intro h
    refine ⟨fun d hd => ?_, fun i hi => ?_⟩
    · obtain ⟨c, hc, hfit⟩ := h d (hdash d hd)
      rw [Fits, if_pos hd] at hfit
      rw [hc, hfit]
    · by_cases hd : i ∈ dashes
      · exact .inl hd
      · obtain ⟨c, hc, hfit⟩ := h i hi
        rw [Fits, if_neg hd] at hfit
        exact .inr ⟨c, hc, hfit⟩

lemma fits_of_isUuid {u : Text} (h : IsUuid u) :
    u.length = 36 ∧ ∀ i < 36, ∃ c, u[i]? = some c ∧ Fits i c := by
  obtain ⟨a, b, c, d, e, rfl, hhex, ha, hb, hc, hd, he⟩ := h
  have hmem : ∀ x, x ∈ a ∨ x ∈ b ∨ x ∈ c ∨ x ∈ d ∨ x ∈ e → isHex x = true := by
    intro x hx
    refine List.all_eq_true.mp hhex x ?_
    simp only [List.mem_append]
    tauto
  have hlen : (a ++ '-' :: b ++ '-' :: c ++ '-' :: d ++ '-' :: e).length = 36 := by
    simp [ha, hb, hc, hd, he]
  refine ⟨hlen, fun i hi => ⟨_, List.getElem?_eq_getElem (hlen ▸ hi), ?_⟩⟩
  simp only [Fits, dashes, List.mem_cons, List.not_mem_nil, or_false]
  simp only [List.getElem_append, List.getElem_cons, List.length_append, List.length_cons, ha, hb,
    hc, hd]
  split_ifs <;> first | omega | rfl | skip
  · exact hmem _ (.inl (List.getElem_mem _))
  · exact hmem _ (.inr (.inl (List.getElem_mem _)))
  · exact hmem _ (.inr (.inr (.inl (List.getElem_mem _))))
  · exact hmem _ (.inr (.inr (.inr (.inl (List.getElem_mem _)))))
  · exact hmem _ (.inr (.inr (.inr (.inr (List.getElem_mem _)))))

/-- The characters of a part of a text. -/
lemma getElem?_of_mem_take_drop {u : Text} {n k : ℕ} {x : Char} (h : x ∈ (u.drop n).take k) :
    ∃ i, n ≤ i ∧ i < n + k ∧ u[i]? = some x := by
  obtain ⟨j, hj⟩ := List.mem_iff_getElem?.mp h
  rw [List.getElem?_take] at hj
  split at hj
  · next hlt => exact ⟨n + j, by omega, by omega, by rw [← hj, List.getElem?_drop]⟩
  · cases hj

lemma isUuid_of_fits {u : Text} (hlen : u.length = 36)
    (h : ∀ i < 36, ∃ c, u[i]? = some c ∧ Fits i c) : IsUuid u := by
  -- the text is cut at the dashes, and what is between them is hexadecimal
  have hdash : ∀ n ∈ dashes, u.drop n = '-' :: u.drop (n + 1) := by
    intro n hn
    have hlt : ∀ n ∈ dashes, n < 36 := by decide
    obtain ⟨c, hc, hfit⟩ := h n (hlt n hn)
    rw [Fits, if_pos hn] at hfit
    obtain ⟨hn', rfl⟩ := List.getElem?_eq_some_iff.mp hc
    rw [List.drop_eq_getElem_cons hn', hfit]
  have hpart (n k : ℕ) : u.drop n = (u.drop n).take k ++ u.drop (n + k) := by
    rw [← List.drop_drop, List.take_append_drop]
  have hhex (n k : ℕ) (hbound : n + k ≤ 36) (hnone : ∀ i, n ≤ i → i < n + k → i ∉ dashes) :
      ∀ x ∈ (u.drop n).take k, isHex x = true := by
    intro x hx
    obtain ⟨i, hni, hik, hi⟩ := getElem?_of_mem_take_drop hx
    obtain ⟨c, hc, hfit⟩ := h i (by omega)
    rw [Fits, if_neg (hnone i hni hik)] at hfit
    obtain rfl := Option.some.inj (hi.symm.trans hc)
    exact hfit
  have hno {n k : ℕ} (hd : ∀ d ∈ dashes, d < n ∨ n + k ≤ d) :
      ∀ i, n ≤ i → i < n + k → i ∉ dashes := by
    intro i hni hik hi
    have := hd i hi
    omega
  refine ⟨(u.drop 0).take 8, (u.drop 9).take 4, (u.drop 14).take 4, (u.drop 19).take 4,
    (u.drop 24).take 12, ?_, ?_, by simp [hlen], by simp [hlen], by simp [hlen], by simp [hlen],
    by simp [hlen]⟩
  · have hend : u.drop (24 + 12) = [] := List.drop_eq_nil_of_le (by omega)
    calc u = u.drop 0 := rfl
      _ = (u.drop 0).take 8 ++ '-' :: u.drop 9 := by rw [← hdash 8 (by decide)]; exact hpart 0 8
      _ = (u.drop 0).take 8 ++ '-' :: (u.drop 9).take 4 ++ '-' :: u.drop 14 := by
        rw [List.append_assoc, List.cons_append, ← hdash 13 (by decide), ← hpart 9 4]
      _ = (u.drop 0).take 8 ++ '-' :: (u.drop 9).take 4 ++ '-' :: (u.drop 14).take 4 ++
          '-' :: u.drop 19 := by
        rw [List.append_assoc _ ('-' :: (u.drop 14).take 4), List.cons_append,
          ← hdash 18 (by decide), ← hpart 14 4]
      _ = (u.drop 0).take 8 ++ '-' :: (u.drop 9).take 4 ++ '-' :: (u.drop 14).take 4 ++
          '-' :: (u.drop 19).take 4 ++ '-' :: u.drop 24 := by
        rw [List.append_assoc _ ('-' :: (u.drop 19).take 4), List.cons_append,
          ← hdash 23 (by decide), ← hpart 19 4]
      _ = (u.drop 0).take 8 ++ '-' :: (u.drop 9).take 4 ++ '-' :: (u.drop 14).take 4 ++
          '-' :: (u.drop 19).take 4 ++ '-' :: (u.drop 24).take 12 := by
        rw [hpart 24 12, hend, List.append_nil, List.take_take]
        rfl
  · rw [List.all_eq_true]
    intro x hx
    simp only [List.mem_append] at hx
    rcases hx with (((hx | hx) | hx) | hx) | hx
    · exact hhex 0 8 (by omega) (hno (by decide)) x hx
    · exact hhex 9 4 (by omega) (hno (by decide)) x hx
    · exact hhex 14 4 (by omega) (hno (by decide)) x hx
    · exact hhex 19 4 (by omega) (hno (by decide)) x hx
    · exact hhex 24 12 (by omega) (hno (by decide)) x hx

/-- The scan finds the uuids. -/
lemma looksLikeUuid_iff {s : Text} : looksLikeUuid s = true ↔ HasUuid s := by
  have hwindow {start : ℕ} (i : ℕ) (hi : i < 36) :
      ((s.drop start).take 36)[i]? = s[start + i]? := by
    rw [List.getElem?_take_of_lt hi, List.getElem?_drop]
  unfold looksLikeUuid
  constructor
  · intro h
    split at h
    · cases h
    next hlen =>
    obtain ⟨start, hstart, hat⟩ := List.any_eq_true.mp h
    rw [List.mem_range] at hstart
    refine ⟨(s.drop start).take 36, isUuid_of_fits ?_ fun i hi => ?_,
      ⟨s.take start, (s.drop start).drop 36, ?_⟩⟩
    · rw [List.length_take, List.length_drop]
      omega
    · rw [hwindow i hi]
      exact isUuidAt_iff.mp hat i hi
    · rw [List.append_assoc, List.take_append_drop, List.take_append_drop]
  · rintro ⟨u, hu, before, rest, rfl⟩
    obtain ⟨hlen, hfits⟩ := fits_of_isUuid hu
    rw [if_neg (by simp only [List.length_append]; omega), List.any_eq_true]
    refine ⟨before.length, ?_, isUuidAt_iff.mpr fun i hi => ?_⟩
    · rw [List.mem_range]
      simp only [List.length_append]
      omega
    · rw [List.append_assoc, List.getElem?_append_right (by omega), Nat.add_sub_cancel_left,
        List.getElem?_append_left (by omega)]
      exact hfits i hi

/-! ### Texts -/

lemma isSensitive_iff {s : Text} : isSensitive s = true ↔ HasUuid s ∨ HasTypeName s := by
  simp only [isSensitive, contains, Bool.or_eq_true, decide_eq_true_eq, looksLikeUuid_iff,
    HasTypeName, or_assoc]

lemma cleanText_iff {s : Text} : CleanText s ↔ isSensitive s = false ∧ ¬HasEmail s := by
  rw [← Bool.not_eq_true, isSensitive_iff, not_or]
  constructor
  · rintro ⟨huuid, hemail, htype⟩
    exact ⟨⟨huuid, htype⟩, hemail⟩
  · rintro ⟨⟨huuid, htype⟩, hemail⟩
    exact ⟨huuid, hemail, htype⟩

/-- A text without `@` has no e-mail address. -/
lemma not_hasEmail {s : Text} (h : '@' ∉ s) : ¬HasEmail s := by
  rintro ⟨e, ⟨name, host, tld, rfl, -⟩, hinfix⟩
  exact h (List.IsInfix.subset hinfix (by simp))

lemma isSensitive_redacted : isSensitive redacted = false := by decide

lemma cleanText_redacted : CleanText redacted :=
  cleanText_iff.mpr ⟨isSensitive_redacted, not_hasEmail (by decide)⟩

lemma cleanText_nil : CleanText [] := cleanText_iff.mpr ⟨by decide, not_hasEmail (by decide)⟩

/-! ### The parts of a report -/

variable {event : CrashEvent}

/-- The entries that stay. -/
lemma rows_extra (event : CrashEvent) :
    (scrubCrashEvent event).extra.rows = event.extra.rows.filter fun entry => !isRemoved entry := by
  refine List.filter_congr fun entry hentry => ?_
  have hiff : entry.1 ∈ (event.extra.rows.filter isRemoved).map (·.1) ↔ isRemoved entry = true := by
    rw [List.mem_map]
    constructor
    · rintro ⟨entry', hentry', hkey⟩
      obtain ⟨hmem, hremoved⟩ := List.mem_filter.mp hentry'
      rwa [← Table.eq_of_key hmem hentry hkey]
    · exact fun hremoved => ⟨entry, List.mem_filter.mpr ⟨hentry, hremoved⟩, rfl⟩
  dsimp only
  by_cases h : isRemoved entry = true
  · rw [h, decide_eq_true (hiff.mpr h)]
  · rw [decide_eq_false (mt hiff.mp h), Bool.eq_false_iff.mpr h]

lemma mem_extra {entry : Text × Json} : entry ∈ (scrubCrashEvent event).extra.rows ↔
    entry ∈ event.extra.rows ∧ isRemoved entry = false := by
  rw [rows_extra, List.mem_filter, Bool.not_eq_true']

lemma mem_scrubMessage {message : Option Text} {msg : Text} :
    msg ∈ scrubMessage message ↔ ∃ m ∈ message, msg = if isSensitive m then redacted else m := by
  unfold scrubMessage
  cases message with
  | none => simp
  | some m =>
    rw [Option.map_some, Option.mem_some_iff]
    simp only [Option.mem_some_iff, exists_eq_left']
    exact eq_comm

lemma cleanMessage_iff {message : Option Text} :
    (∀ msg ∈ scrubMessage message, CleanText msg) ↔
      ∀ msg ∈ message, isSensitive msg = false → ¬HasEmail msg := by
  constructor
  · intro h msg hmsg hkept
    have hclean := h msg (mem_scrubMessage.mpr ⟨msg, hmsg, by rw [hkept]; rfl⟩)
    exact hclean.email
  · intro h msg hmsg
    obtain ⟨m, hm, rfl⟩ := mem_scrubMessage.mp hmsg
    cases hkept : isSensitive m with
    | true => exact cleanText_redacted
    | false => exact cleanText_iff.mpr ⟨hkept, h m hm hkept⟩

/-- An entry that is kept is no secret itself. -/
lemma cleanEntry_iff {entry : Text × Json} (hkept : isRemoved entry = false) :
    CleanEntry entry ↔ CleanText entry.1 ∧ CleanValue entry.2 := by
  have hkey : isSecretKey entry.1 = false := by
    rw [isRemoved, Bool.or_eq_false_iff] at hkept
    exact hkept.1
  constructor
  · rintro ⟨hname, -, hvalue⟩
    exact ⟨hname, hvalue⟩
  · rintro ⟨hname, hvalue⟩
    exact ⟨hname, hkey, hvalue⟩

lemma cleanId_iff {user : CrashUser} : (∀ id ∈ (scrubUser user).id, CleanText id) ↔
    ∀ id ∈ user.id, looksLikeUuid id = false → ¬HasEmail id ∧ ¬HasTypeName id := by
  simp only [scrubUser, Option.mem_filter_iff, Bool.not_eq_true', and_imp]
  refine forall_congr' fun id => forall_congr' fun _ => forall_congr' fun hkept => ?_
  have huuid : ¬HasUuid id := by
    rw [← looksLikeUuid_iff, hkept]
    exact Bool.false_ne_true
  constructor
  · exact fun h => ⟨h.email, h.typeName⟩
  · rintro ⟨hemail, htype⟩
    exact ⟨huuid, hemail, htype⟩

lemma cleanEmail (user : CrashUser) : ∀ email ∈ (scrubUser user).email, CleanText email := by
  intro email hemail
  simp only [scrubUser, Option.mem_filter_iff, List.isEmpty_iff] at hemail
  rw [hemail.2]
  exact cleanText_nil

/-! ### The scrubber -/

/-- What has been scrubbed once stays. -/
lemma scrub_scrub (event : CrashEvent) :
    scrubCrashEvent (scrubCrashEvent event) = scrubCrashEvent event := by
  ext1
  · change scrubMessage (scrubMessage event.message) = scrubMessage event.message
    cases event.message with
    | none => rfl
    | some msg =>
      cases h : isSensitive msg with
      | true => simp [scrubMessage, h, isSensitive_redacted]
      | false => simp [scrubMessage, h]
  · rfl
  · rfl
  · ext1
    rw [rows_extra (scrubCrashEvent event), List.filter_eq_self]
    intro entry hentry
    rw [(mem_extra.mp hentry).2]
    rfl
  · change (event.user.map scrubUser).map scrubUser = event.user.map scrubUser
    cases event.user with
    | none => rfl
    | some user => simp [scrubUser, Option.filter_filter]

/-- A clean report stays as it is if its user has no address that is not empty. -/
lemma scrub_eq_self_iff (h : Clean event) : scrubCrashEvent event = event ↔
    ∀ user ∈ event.user, ∀ email ∈ user.email, email = [] := by
  constructor
  · -- an email that is not empty is taken out
    intro heq user huser email hemail
    have huser' : scrubUser user = user := by
      have := congrArg CrashEvent.user heq
      -- the id of the user is no uuid, and the email is empty
      change event.user.map scrubUser = event.user at this
      rw [Option.mem_def.mp huser] at this
      exact Option.some.inj this
    rw [← huser'] at hemail
    simp only [scrubUser, Option.mem_filter_iff, List.isEmpty_iff] at hemail
    exact hemail.2
  · intro hempty
    ext1
    · -- the message has nothing to take out
      change scrubMessage event.message = event.message
      cases hm : event.message with
      | none => rfl
      | some msg =>
        have hkept := (cleanText_iff.mp (h.message msg hm)).1
        simp [scrubMessage, hkept]
    · rfl
    · rfl
    · ext1
      -- no entry has a sensitive key or value
      rw [rows_extra, List.filter_eq_self]
      intro entry hentry
      obtain ⟨-, hkey, hvalue⟩ := h.extra entry hentry
      have hstring : entry.2.asStr.any isSensitive = false := by
        cases hv : entry.2 with
        | string s =>
          have hs : TextIn s entry.2 := by
            rw [hv]
            exact .string
          exact (cleanText_iff.mp (hvalue.text s hs)).1
        | _ => rfl
      rw [isRemoved, hkey, hstring]
      rfl
    · change event.user.map scrubUser = event.user
      cases hu : event.user with
      | none => rfl
      | some user =>
        have hid : user.id.filter (fun id => !looksLikeUuid id) = user.id := by
          cases hi : user.id with
          | none => rfl
          | some id =>
            have hclean := h.userId user hu id hi
            have hno : looksLikeUuid id = false := by
              rw [← Bool.not_eq_true, looksLikeUuid_iff]
              exact hclean.uuid
            simp [hno]
        have hemail : user.email.filter (·.isEmpty) = user.email := by
          cases he : user.email with
          | none => rfl
          | some email =>
            rw [hempty user hu email he]
            rfl
        rw [Option.map_some, scrubUser, hid, hemail]

/-- **Crash reports**: the scrubber does what it owes a report exactly if the report is clean where
it does not look. -/
theorem scrubbed_iff_cleanElsewhere (event : CrashEvent) :
    Scrubbed event ↔ CleanElsewhere event := by
  constructor
  · rintro ⟨hclean, hsame, -⟩
    refine ⟨cleanMessage_iff.mp hclean.message, hclean.breadcrumbs, hclean.stacktrace, ?_, ?_, ?_⟩
    · intro entry hentry hkept
      exact (cleanEntry_iff hkept).mp (hclean.extra entry (mem_extra.mpr ⟨hentry, hkept⟩))
    · intro user huser
      exact cleanId_iff.mp (hclean.userId (scrubUser user) (Option.mem_map_of_mem _ huser))
    · exact fun h => (scrub_eq_self_iff h).mp (hsame h)
  · rintro ⟨hmessage, hcrumbs, hframes, hextra, hid, hemail⟩
    refine ⟨⟨cleanMessage_iff.mpr hmessage, hcrumbs, hframes, ?_, ?_, ?_⟩,
      fun h => (scrub_eq_self_iff h).mpr (hemail h), scrub_scrub event⟩
    · intro entry hentry
      obtain ⟨hmem, hkept⟩ := mem_extra.mp hentry
      exact (cleanEntry_iff hkept).mpr (hextra entry hmem hkept)
    · intro user huser
      obtain ⟨user, huser', rfl⟩ := Option.map_eq_some_iff.mp huser
      exact cleanId_iff.mpr (hid user huser')
    · intro user huser
      obtain ⟨user, -, rfl⟩ := Option.map_eq_some_iff.mp huser
      exact cleanEmail user

/-- An entry with a password inside its value. -/
def nestedEntry : Text × Json :=
  ("ctx".toList, .object [("password".toList, .string "hunter2".toList)])

def nestedReport : CrashEvent where
  message := none
  breadcrumbs := []
  stacktrace := none
  extra := ⟨[nestedEntry], by simp⟩
  user := none

/-- The password is still there after the scrubbing. -/
theorem nested_password_stays : ¬Scrubbed nestedReport := by
  intro h
  have hentry := h.clean.extra nestedEntry (mem_extra.mpr ⟨List.mem_singleton_self _, by decide⟩)
  have hkey := hentry.value.key "password".toList (.key (List.mem_singleton_self _))
  revert hkey
  decide

end Vautr.CrashReports
