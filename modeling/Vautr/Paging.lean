import Vautr.Interleave
import Vautr.Numbering
import Vautr.Push
import Mathlib.Data.List.Induction

/-!
Walking through the changes of an account page by page (`sync_pull`), while others write.

A page lists the rows after the cursor in the order of their numbers, and the next cursor is
the number of its last row. A write moves its row behind everything that was ever numbered,
so a row is either behind the cursor and unchanged since it was listed, or still to come.
-/

namespace Vautr.Paging

open Vautr.Atomic Vautr.Interleave Vautr.Sql Vautr.Database Vautr.Api Vautr.Server Vautr.Handlers
open Vautr.Numbering Vautr.Push

variable {B : Type} {X : Ext B}

/-! ### The clients -/

/-- A client that asks for one page after the other until there is no more, with the page
sizes `limits`; `none` if the sizes do not suffice. -/
def walk (user : Ident) : List (Option ℕ) → UInt64 → ServerHandler B (Option (List PullItem))
  | [], _ => pure none
  | limit :: limits, cursor => do
    let page ← syncPull user cursor limit
    if page.hasMore then
      return (← walk user limits page.newCursor).map (page.items ++ ·)
    else
      return some page.items

/-- What clients ask of the server: writes and key rotations, one page, a whole walk. -/
inductive PageReq (B : Type)
  | serve (q : Req B)
  | pull (user : Ident) (cursor : UInt64) (limit : Option ℕ)
  | walk (user : Ident) (cursor : UInt64) (limits : List (Option ℕ))

inductive PageReply
  | serve (r : Reply)
  | pull (r : Except ApiError PullResp)
  | walk (r : Except ApiError (Option (List PullItem)))
  deriving DecidableEq

def code (X : Ext B) : PageReq B → Prog (Db B) Env Stmt PageReply
  | .serve q => serve X q >>= fun r => .ret (.serve r)
  | .pull user cursor limit => (syncPull user cursor limit).run >>= fun r => .ret (.pull r)
  | .walk user cursor limits => (walk user limits cursor).run >>= fun r => .ret (.walk r)

abbrev PageSys (B : Type) := Sys (PageReq B) (Db B) Env Stmt PageReply

lemma reading_walk {rely : Stmt → Db B → Db B → Prop} (user : Ident) (limits : List (Option ℕ))
    (cursor : UInt64) : Guarantees rely Reading (walk user limits cursor : ServerHandler B _).run := by
  induction limits generalizing cursor with
  | nil => exact guarantees_pure_except _
  | cons limit limits ih =>
    refine guarantees_bind_except (reading_syncPull _ _ _) fun page => ?_
    split
    · exact guarantees_bind_except (ih _) fun _ => guarantees_pure_except _
    · exact guarantees_pure_except _

lemma numbered_of_reading (ev : DbEv B) (h : Reading ev) : Numbered ev :=
  numbers_of_items (congrArg Db.items h)

lemma numbered_code {rely : Stmt → Db B → Db B → Prop} (q : PageReq B) :
    Guarantees rely Numbered (code X q) := by
  cases q with
  | serve q => exact guarantees_bind (numbered_serve q) fun _ => guarantees_ret _
  | pull user cursor limit =>
    exact guarantees_bind (guarantees_mono numbered_of_reading (reading_syncPull _ _ _))
      fun _ => guarantees_ret _
  | walk user cursor limits =>
    exact guarantees_bind (guarantees_mono numbered_of_reading (reading_walk _ _ _))
      fun _ => guarantees_ret _

/-! ### One page -/

/-- A row as a page lists it. -/
def pullItem (r : ItemRow B) : PullItem := ⟨r.uuid, r.version, r.encKeyGen, r.deletedDate⟩

/-- The answer to a pull that finds the rows `s`. -/
def page (s : Db B) (user : Ident) (cursor : UInt64) (limit : ℕ) (minGen : ℤ) : PullResp :=
  let rows := (itemsAfter s user (asI64 cursor)).take (limit + 1)
  let taken := rows.take limit
  ⟨((taken.getLast?.bind (·.seq)).map asU64).getD cursor, limit < rows.length, minGen,
    taken.map pullItem⟩

variable {s s' : Db B} {user : Ident} {cursor : UInt64} {limit : ℕ} {gen c : ℤ}

lemma mem_itemsAfter {r : ItemRow B} : r ∈ itemsAfter s user c ↔
    r ∈ s.items.rows ∧ r.userId = user ∧ ∃ n, r.seq = some n ∧ c < n := by
  simp [itemsAfter, List.mem_insertionSort, Option.any_eq_true]

/-- The rows after the cursor stand in the order of their numbers. -/
lemma pairwise_itemsAfter :
    (itemsAfter s user c).Pairwise fun a b => a.seq.getD 0 ≤ b.seq.getD 0 := by
  have : IsTrans (ItemRow B) fun a b => a.seq.getD 0 ≤ b.seq.getD 0 := ⟨fun _ _ _ => le_trans⟩
  have : Std.Total (α := ItemRow B) fun a b => a.seq.getD 0 ≤ b.seq.getD 0 :=
    ⟨fun a b => le_total _ _⟩
  exact List.pairwise_insertionSort _ _

lemma page_items : (page s user cursor limit gen).items =
    ((itemsAfter s user (asI64 cursor)).take limit).map pullItem := by
  simp [page, List.take_take]

/-- What a page lists is numbered after the cursor. -/
lemma mem_page {i : PullItem} (h : i ∈ (page s user cursor limit gen).items) :
    ∃ r ∈ s.items.rows, r.key = (i.uuid, user) ∧ ∃ n, r.seq = some n ∧ asI64 cursor < n := by
  rw [page_items] at h
  obtain ⟨r, hr, rfl⟩ := List.mem_map.mp h
  obtain ⟨hmem, hu, hn⟩ := mem_itemsAfter.mp (List.mem_of_mem_take hr)
  exact ⟨r, hmem, by simp [ItemRow.key, pullItem, hu], hn⟩

/-- A last page lists everything after the cursor. -/
lemma page_last (h : (page s user cursor limit gen).hasMore = false) {r : ItemRow B}
    (hr : r ∈ itemsAfter s user (asI64 cursor)) :
    pullItem r ∈ (page s user cursor limit gen).items := by
  have hlen : (itemsAfter s user (asI64 cursor)).length ≤ limit := by
    simp only [page, List.length_take, decide_eq_false_iff_not] at h
    omega
  rw [page_items, List.take_of_length_le hlen]
  exact List.mem_map_of_mem hr

/-- Any other page lists everything up to the next cursor, which is the number of a row. -/
lemma page_more (hs : Distinct s) (hlimit : 0 < limit)
    (h : (page s user cursor limit gen).hasMore = true) :
    ∃ n, Has s user n ∧ asI64 cursor < n ∧ (page s user cursor limit gen).newCursor = asU64 n ∧
      ∀ r ∈ itemsAfter s user (asI64 cursor), (∃ m, r.seq = some m ∧ m ≤ n) →
        pullItem r ∈ (page s user cursor limit gen).items := by
  have hlen : limit < (itemsAfter s user (asI64 cursor)).length := by
    simp only [page, List.length_take, decide_eq_true_eq] at h
    omega
  generalize hrows : itemsAfter s user (asI64 cursor) = rows at hlen
  have hne : rows.take limit ≠ [] := by
    intro he
    have := congrArg List.length he
    simp only [List.length_take, List.length_nil] at this
    omega
  obtain ⟨last, hlast⟩ := Option.isSome_iff_exists.mp (List.getLast?_isSome.mpr hne)
  have hmem : last ∈ rows := List.mem_of_mem_take (List.mem_of_getLast? hlast)
  obtain ⟨hrow, hu, n, hn, hlt⟩ := mem_itemsAfter.mp (hrows ▸ hmem)
  refine ⟨n, ⟨last, hrow, hu, hn⟩, hlt, ?_, fun r hr hm => ?_⟩
  · simp [page, hrows, List.take_take, hlast, hn]
  · rw [page_items, hrows]
    refine List.mem_map_of_mem ?_
    obtain ⟨m, hm, hle⟩ := hm
    have hsort : (rows.take limit ++ rows.drop limit).Pairwise
        fun a b => a.seq.getD 0 ≤ b.seq.getD 0 := by
      rw [List.take_append_drop, ← hrows]
      exact pairwise_itemsAfter
    rw [← List.take_append_drop limit rows, List.mem_append] at hr
    rcases hr with hr | hr
    · exact hr
    -- a row that was cut off has at least the last number, and no other row has it
    · have hge := (List.pairwise_append.mp hsort).2.2 last (List.mem_of_getLast? hlast) r hr
      rw [hn, hm, Option.getD_some, Option.getD_some] at hge
      obtain ⟨hrow', hu', -⟩ := mem_itemsAfter.mp (hrows ▸ List.mem_of_mem_drop hr)
      obtain rfl : m = n := le_antisymm hle hge
      rw [hs r hrow' last hrow (hu'.trans hu.symm) m hm hn]
      exact List.mem_of_getLast? hlast

/-- The next cursor is the cursor, or the number of a row after it. -/
lemma page_cursor : (page s user cursor limit gen).newCursor = cursor ∨
    ∃ n, Has s user n ∧ asI64 cursor < n ∧
      (page s user cursor limit gen).newCursor = asU64 n := by
  cases hlast : ((itemsAfter s user (asI64 cursor)).take limit).getLast? with
  | none => exact .inl (by simp [page, List.take_take, hlast])
  | some last =>
    obtain ⟨hrow, hu, n, hn, hlt⟩ :=
      mem_itemsAfter.mp (List.mem_of_mem_take (List.mem_of_getLast? hlast))
    exact .inr ⟨n, ⟨last, hrow, hu, hn⟩, hlt, by simp [page, List.take_take, hlast, hn]⟩

/-! ### A walk -/

/-- The numbers of the user fit the column, an `i64`. -/
def Fits (user : Ident) (db : Db B) : Prop := ∀ n, Has db user n → n < 2 ^ 63

/-- The list has every item of the user that was written after `c`, as it is in `db`, and no
item whose last write is at or before `c`. -/
structure Lists (db : Db B) (user : Ident) (c : ℤ) (items : List PullItem) : Prop where
  complete : ∀ r ∈ db.items.rows, r.userId = user → (∃ n, r.seq = some n ∧ c < n) →
    pullItem r ∈ items
  sound : ∀ i ∈ items, ∃ r ∈ db.items.rows, r.key = (i.uuid, user) ∧
    ∃ n, r.seq = some n ∧ c < n

/-- The last statement reads a page, and the list is right for the rows that it found. -/
def Listed (user : Ident) (c : ℤ) (items : List PullItem) (tr : List (DbEv B)) : Prop :=
  ∃ tr' ev, tr = tr' ++ [ev] ∧ ev.name = .pullPage user ∧
    (Fits user ev.pre → Lists ev.pre user c items)

/-- What the others may do. -/
def others (s s' : Db B) : Prop := (Distinct s → Distinct s') ∧ ∀ user, Later user s s'

def rules : Rules (Db B) Env Stmt := ⟨fun _ => others, fun _ => True, fun _ => True⟩

/-- A walk from `c` has come to `cursor` and listed `acc`: what is numbered in between is
listed, and everything listed is still numbered after `c`. The cursor is where the walk
began or a number that was in use. -/
structure Ready (user : Ident) (c : ℤ) (cursor : UInt64) (acc : List PullItem) (s : Db B) :
    Prop where
  le : c ≤ asI64 cursor
  used : asI64 cursor = c ∨ ∃ m, Has s user m ∧ asI64 cursor ≤ m
  complete : ∀ r ∈ s.items.rows, r.userId = user →
    (∃ n, r.seq = some n ∧ c < n ∧ n ≤ asI64 cursor) → pullItem r ∈ acc
  sound : ∀ i ∈ acc, ∃ r ∈ s.items.rows, r.key = (i.uuid, user) ∧ ∃ n, r.seq = some n ∧ c < n

/-- What a walk knows between its pages. -/
def Walking (user : Ident) (c : ℤ) (cursor : UInt64) (acc : List PullItem) (s : Db B) : Prop :=
  Distinct s ∧ (Fits user s → Ready user c cursor acc s)

variable {acc : List PullItem} {tr : List (DbEv B)}

lemma asI64_asU64 {z : ℤ} (hlo : -2 ^ 63 ≤ z) (hhi : z < 2 ^ 63) : asI64 (asU64 z) = z := by
  have hmod : ((z % 2 ^ 64).toNat : ℤ) = z % 2 ^ 64 := Int.toNat_of_nonneg (by omega)
  have hlt : (z % 2 ^ 64).toNat < 2 ^ 64 := by omega
  have hnat : (asU64 z).toBitVec.toNat = (z % 2 ^ 64).toNat := by
    change (BitVec.ofNat 64 _).toNat = _
    rw [BitVec.toNat_ofNat, Nat.mod_eq_of_lt hlt]
  rw [asI64, BitVec.toInt_eq_toNat_cond, hnat]
  split <;> omega

lemma neg_le_asI64 (n : UInt64) : -2 ^ 63 ≤ asI64 n := by
  rw [asI64, BitVec.toInt_eq_toNat_cond]
  have := n.toBitVec.isLt
  split <;> omega

lemma fits_of_later (h : Later user s s') (hfit : Fits user s') : Fits user s := by
  intro n hn
  obtain ⟨m, hm, hle⟩ := h.has hn
  have := hfit m hm
  omega

/-- An item that was listed stays numbered after the start. -/
lemma stays_listed (h : Later user s s') {i : PullItem}
    (hi : ∃ r ∈ s.items.rows, r.key = (i.uuid, user) ∧ ∃ n, r.seq = some n ∧ c < n) :
    ∃ r ∈ s'.items.rows, r.key = (i.uuid, user) ∧ ∃ n, r.seq = some n ∧ c < n := by
  obtain ⟨r, hr, hk, n, hn, hlt⟩ := hi
  obtain ⟨r', hr', hk', n', hn', hle⟩ := h.kept r hr (Prod.ext_iff.mp hk).2 n hn
  exact ⟨r', hr', hk'.trans hk, n', hn', by omega⟩

/-- What the others write is numbered after the cursor. -/
lemma Walking.others (h : Walking user c cursor acc s) (ho : others s s') :
    Walking user c cursor acc s' := by
  refine ⟨ho.1 h.1, fun hfit => ?_⟩
  have hl := ho.2 user
  obtain ⟨hle, hused, hcomplete, hsound⟩ := h.2 (fits_of_later hl hfit)
  refine ⟨hle, ?_, fun r hr hu hn => ?_, fun i hi => stays_listed hl (hsound i hi)⟩
  · refine hused.imp_right fun ⟨m, hm, hcm⟩ => ?_
    obtain ⟨n, hn, hmn⟩ := hl.has hm
    exact ⟨n, hn, hcm.trans hmn⟩
  · rcases hl.new r hr hu with hold | ⟨m, hm, hall⟩
    · exact hcomplete r hold hu hn
    · obtain ⟨n, hn, hcn, hnc⟩ := hn
      obtain rfl : m = n := by simpa [hm] using hn
      rcases hused with he | ⟨m', hm', hcm⟩
      · omega
      · have := hall m' hm'
        omega

/-- A last page completes the list. -/
lemma Walking.last (h : Walking user c cursor acc s)
    (hmore : (page s user cursor limit gen).hasMore = false) (hfit : Fits user s) :
    Lists s user c (acc ++ (page s user cursor limit gen).items) := by
  have hr := h.2 hfit
  refine ⟨fun r hmem hu ⟨n, hn, hlt⟩ => ?_, fun i hi => ?_⟩
  · rcases le_or_gt n (asI64 cursor) with hle | hgt
    · exact List.mem_append_left _ (hr.complete r hmem hu ⟨n, hn, hlt, hle⟩)
    · exact List.mem_append_right _ (page_last hmore (mem_itemsAfter.mpr ⟨hmem, hu, n, hn, hgt⟩))
  · rcases List.mem_append.mp hi with hi | hi
    · exact hr.sound i hi
    · obtain ⟨r, hmem, hk, n, hn, hlt⟩ := mem_page hi
      exact ⟨r, hmem, hk, n, hn, hr.le.trans_lt hlt⟩

/-- Any other page takes the walk to the next cursor. -/
lemma Walking.more (h : Walking user c cursor acc s) (hlimit : 0 < limit)
    (hmore : (page s user cursor limit gen).hasMore = true) :
    Walking user c (page s user cursor limit gen).newCursor
      (acc ++ (page s user cursor limit gen).items) s := by
  refine ⟨h.1, fun hfit => ?_⟩
  have hr := h.2 hfit
  obtain ⟨n, hn, hlt, hnew, hpage⟩ := page_more h.1 hlimit hmore
  have hread : asI64 (page s user cursor limit gen).newCursor = n := by
    rw [hnew]
    exact asI64_asU64 ((neg_le_asI64 cursor).trans hlt.le) (hfit n hn)
  refine ⟨?_, .inr ⟨n, hn, hread.le⟩, fun r hmem hu ⟨m, hm, hcm, hmn⟩ => ?_, fun i hi => ?_⟩
  · rw [hread]
    exact hr.le.trans hlt.le
  · rw [hread] at hmn
    rcases le_or_gt m (asI64 cursor) with hle | hgt
    · exact List.mem_append_left _ (hr.complete r hmem hu ⟨m, hm, hcm, hle⟩)
    · exact List.mem_append_right _
        (hpage r (mem_itemsAfter.mpr ⟨hmem, hu, m, hm, hgt⟩) ⟨m, hm, hmn⟩)
  · rcases List.mem_append.mp hi with hi | hi
    · exact hr.sound i hi
    · obtain ⟨r, hmem, hk, m, hm, hcm⟩ := mem_page hi
      exact ⟨r, hmem, hk, m, hm, hr.le.trans_lt hcm⟩

/-- One `sync_pull`: if it answers, its last statement has found the rows it lists. -/
lemma wp_syncPull {limit : Option ℕ}
    {Q : Except ApiError PullResp → List (DbEv B) → Db B → Prop}
    (hs : Walking user c cursor acc s) (herr : ∀ e tr s, Q (.error e) tr s)
    (hok : ∀ gen limit tr ev, Walking user c cursor acc ev.pre → ev.name = .pullPage user →
      0 < limit → Q (.ok (page ev.pre user cursor limit gen)) (tr ++ [ev]) ev.pre) :
    wp rules (syncPull user cursor limit).run Q tr s := by
  unfold syncPull
  rw [wp_bind_except, wp_orInternal]
  refine wp_statement trivial (fun _ _ _ _ => herr _ _ _) fun s₁ e₁ h₁ _ => ?_
  dsimp only [Except.mapError]
  split
  · exact herr _ _ _
  · next hlimit =>
    rw [wp_bind_except, wp_orInternal]
    refine wp_statement trivial (fun _ _ _ _ => herr _ _ _) fun s₂ e₂ h₂ _ => ?_
    dsimp only [Except.mapError]
    split
    · exact herr _ _ _
    · rw [wp_bind_except, wp_orInternal]
      refine wp_statement trivial (fun _ _ _ _ => herr _ _ _) fun s₃ e₃ h₃ _ => ?_
      exact hok _ _ _ ⟨.pullPage user, e₃, s₃, s₃⟩ (((hs.others h₁).others h₂).others h₃) rfl
        (by omega)

/-- **A walk**, whatever the others write in between. -/
lemma wp_walk (limits : List (Option ℕ)) (hs : Walking user c cursor acc s) :
    wp rules (walk user limits cursor).run
      (fun r tr _ => ∀ items, r = .ok (some items) → Listed user c (acc ++ items) tr) tr s := by
  induction limits generalizing cursor acc tr s with
  | nil => simp [walk]
  | cons limit limits ih =>
    unfold walk
    rw [wp_bind_except]
    refine wp_syncPull hs (fun _ _ _ => by simp) fun gen limit tr ev hev hname hlimit => ?_
    dsimp only
    cases hmore : (page ev.pre user cursor limit gen).hasMore with
    | false =>
      rintro items ⟨⟩
      exact ⟨tr, ev, rfl, hname, hev.last hmore⟩
    | true =>
      simp only [if_true]
      rw [wp_bind_except]
      refine wp_mono ?_ (ih (hev.more hlimit hmore))
      rintro (_ | _ | rest) tr s h
      · simp
      · simp
      · rintro items ⟨⟩
        rw [← List.append_assoc]
        exact h rest rfl

/-! ### All clients together -/

/-- A walk that came to its end has listed the right items. -/
def Post : PageReq B → PageReply → List (DbEv B) → Db B → Prop
  | .walk user cursor _, .walk (.ok (some items)), tr, _ => Listed user (asI64 cursor) items tr
  | _, _, _, _ => True

/-- What a walk has listed does not depend on what happens later. -/
lemma post_any {q : PageReq B} {a : PageReply} {tr : List (DbEv B)} (s' : Db B)
    (h : Post q a tr s) : Post q a tr s' := by
  cases q with
  | walk user cursor limits =>
    rcases a with _ | _ | _ | _ | items
    · trivial
    · trivial
    · trivial
    · trivial
    · exact h
  | _ => trivial

lemma walking_start (hs : Distinct s) : Walking user (asI64 cursor) cursor [] s :=
  ⟨hs, fun _ => ⟨le_rfl, .inl rfl, fun _ _ _ ⟨_, _, h₁, h₂⟩ => by omega, by simp⟩⟩

lemma wp_code (q : PageReq B) (hs : Distinct s) : wp rules (code X q) (Post q) [] s := by
  cases q with
  | serve q => exact wp_trivial (fun _ => trivial) (fun _ _ _ => trivial) _ _ _
  | pull user cursor limit => exact wp_trivial (fun _ => trivial) (fun _ _ _ => trivial) _ _ _
  | walk user cursor limits =>
    unfold code
    rw [wp_bind]
    refine wp_mono ?_ (wp_walk limits (walking_start hs))
    rintro (_ | _ | items) tr s h
    · trivial
    · trivial
    · exact h items rfl

lemma others_of_numbered {ev : DbEv B} (h : Numbered ev) : others ev.pre ev.post :=
  ⟨h.distinct, h.later⟩

lemma later_run (db : Db B) (as as' : List (Act (PageReq B) Env)) (user : Ident) :
    Later user (run (code X) (init db) as).shared (run (code X) (init db) (as ++ as')).shared := by
  induction as' using List.reverseRecOn with
  | nil =>
    rw [List.append_nil]
    exact later_refl _ _
  | append_singleton as' a ih =>
    rw [← List.append_assoc]
    rcases run_snoc (numbered_code (X := X)) db (as ++ as') a with heq | ⟨ev, hev, hpre, hpost⟩
    · rwa [heq]
    · rw [← hpre] at ih
      rw [← hpost]
      exact ih.trans (Numbers.later hev user)

/-- A row that an action wrote is numbered above every number of its user so far. -/
lemma written_above (db : Db B) (as as' : List (Act (PageReq B) Env)) (a : Act (PageReq B) Env)
    {r : ItemRow B} (hr : r ∈ (run (code X) (init db) (as ++ as' ++ [a])).shared.items.rows)
    (hnew : r ∉ (run (code X) (init db) (as ++ as')).shared.items.rows) :
    ∃ n, r.seq = some n ∧ ∀ m, Has (run (code X) (init db) as).shared r.userId m → m < n := by
  rcases run_snoc (numbered_code (X := X)) db (as ++ as') a with heq | ⟨ev, hev, hpre, hpost⟩
  · exact absurd (heq ▸ hr) hnew
  · obtain ⟨k, hk⟩ := Numbers.new hev
    rw [← hpost] at hr
    rcases hk r hr with hr | ⟨-, hn⟩
    · exact absurd (hpre ▸ hr) hnew
    · refine ⟨_, hn, fun m hm => ?_⟩
      obtain ⟨m', hm', hle⟩ := (later_run (X := X) db as as' r.userId).has hm
      rw [← hpre] at hm'
      exact hle.trans_lt (lt_nextSeq hm')

/-- **Paging is complete.** In every interleaving of writes, pulls and walks, statement by
statement: the numbers of a user stay distinct; a row that is written takes a number above
all numbers the user's rows ever had; and a walk that came to its last page has listed every
item written after its start as that page finds it, and no other. The cursor is a number as
the server reads it, and numbers fit an `i64`. -/
theorem walk_lists (X : Ext B) {db : Db B} (hdb : Distinct db) :
    (∀ as, Distinct (run (code X) (init db) as).shared) ∧
    (∀ as as' a, ∀ r ∈ (run (code X) (init db) (as ++ as' ++ [a])).shared.items.rows,
      r ∉ (run (code X) (init db) (as ++ as')).shared.items.rows →
      ∃ n, r.seq = some n ∧ ∀ m, Has (run (code X) (init db) as).shared r.userId m → m < n) ∧
    ∀ as, ∀ call ∈ (run (code X) (init db) as).calls, ∀ user cursor limits items,
      call.req = .walk user cursor limits → call.prog.result = some (.walk (.ok (some items))) →
      Listed user (asI64 cursor) items call.trace := by
  have hheld : ∀ as, Distinct (run (code X) (init db) as).shared ∧
      Held (fun _ => rules) Post (run (code X) (init db) as) := fun as =>
    run_held (C := fun _ _ => True) numbered_code
      (fun _ _ _ _ _ _ _ _ _ _ hev => Numbers.distinct hev)
      (fun q _ hs => wp_code q hs) (fun _ _ s => ⟨id, fun u => later_refl u s⟩)
      (fun _ _ _ _ _ h h' => ⟨fun hs => h'.1 (h.1 hs), fun u => (h.2 u).trans (h'.2 u)⟩)
      (fun _ _ _ hev _ _ => others_of_numbered hev)
      (fun _ _ _ _ _ _ => post_any _) (fun _ _ _ _ _ _ _ _ _ _ _ => trivial)
      hdb (along_true as _)
  refine ⟨fun as => (hheld as).1, fun as as' a r hr hnew => written_above db as as' a hr hnew, ?_⟩
  intro as call hcall user cursor limits items hreq hres
  obtain ⟨i, hi⟩ := List.mem_iff_getElem?.mp hcall
  have hpost := (hheld as).2 i call hi
  rw [Prog.result_eq_some hres, wp_ret, hreq] at hpost
  exact hpost

/-! ### One account -/

def fixedExt : Ext ℕ := ⟨fun _ => true, fun _ => 32⟩

/-- The user 7, without items. -/
def account : Db ℕ := ⟨⟨[⟨7, "alice", 0, 0, 0, 0, 1, 0, 0⟩], by decide⟩, .empty⟩

/-- The next `n` statements of the `i`-th call. -/
def executing (i n : ℕ) : List (Act (PageReq ℕ) Env) := List.replicate n (.exec i ⟨0, 0, false⟩)

/-- The `i`-th call is a write of the item `uuid` at the version `target`, and runs to its
end. -/
def writing (i : ℕ) (uuid : Ident) (target : ℤ) : List (Act (PageReq ℕ) Env) :=
  .call (.serve (.upsert ⟨uuid, 7, target, 1, some 0, none, 0⟩)) :: executing i 4

/-- A walk by pages of one item: after the first page the item that was listed is written
again, and the walk comes to it once more. -/
def walking : List (Act (PageReq ℕ) Env) :=
  writing 0 3 0 ++ writing 1 4 0 ++ [.call (.walk 7 0 [some 1, some 1, some 1])] ++
  executing 2 3 ++ writing 3 3 1 ++ executing 2 6

theorem walk_lists_moved : Distinct account ∧
    ∃ c ∈ (run (code fixedExt) (init account) walking).calls,
      c.prog.result = some (.walk (.ok (some [⟨3, 1, 1, none⟩, ⟨4, 1, 1, none⟩, ⟨3, 2, 1, none⟩]))) ∧
      Listed 7 (asI64 0) [⟨3, 1, 1, none⟩, ⟨4, 1, 1, none⟩, ⟨3, 2, 1, none⟩] c.trace := by
  have hdb : Distinct account := by simp [Distinct, account, Table.empty]
  refine ⟨hdb, _, List.mem_of_getElem? (i := 2) rfl, by decide, ?_⟩
  exact (walk_lists fixedExt hdb).2.2 walking _ (List.mem_of_getElem? (i := 2) rfl) 7 0
    [some 1, some 1, some 1] _ rfl (by decide)

end Vautr.Paging
