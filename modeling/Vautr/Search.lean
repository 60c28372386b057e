import Vautr.Import
import Vautr.Words

/-!
The search over titles (`vautr-db/src/search.rs`): a query is rewritten into an expression for the
full-text index, which is searched for it.

The index cuts a text into tokens at the characters that are neither letters nor digits, and folds
case and diacritics. A quoted term stands for its tokens, one after the other. The folding and the
lower case of the standard library know different letters.
-/

namespace Vautr.Search

open Vautr.Words Vautr.Import

abbrev Text := List Char

/-- The characters that are dropped from a word, next to the star. -/
def stripped : List Char := ['"', '\\', '\'']

/-- Characters that stand between tokens, as far as they matter here. -/
def separator (c : Char) : Bool := isWhitespace c || c ∈ ['"', '\\', '\'', '*', '[', ']']

/-- U+0000. -/
def nul : Char := Char.ofNat 0

/-- `str::to_lowercase`, and the tokenizer `unicode61`: which characters are letters or digits, and
what they are folded to; the marks that it drops are folded to nothing. Lower case neither makes a
character one of those that are dropped or U+0000, nor one of these another. -/
structure Unicode where
  lower : Text → Text
  tokenChar : Char → Bool
  fold : Char → Text
  lower_stripped : ∀ s, (∀ c ∈ lower s, c ∈ stripped) ↔ ∀ c ∈ s, c ∈ stripped
  lower_nul : ∀ s, nul ∈ lower s ↔ nul ∈ s
  tokenChar_separator : ∀ c, separator c = true → tokenChar c = false
  fold_separator : ∀ c, separator c = true → fold c ≠ []

variable (U : Unicode)

/-! ### `prepare_search` -/

structure PreparedSearch where
  matchExpr : Text
  leadingWildcard : Bool
  isEmpty : Bool
  deriving DecidableEq

def stopwords : List Text :=
  ["the".toList, "a".toList, "an".toList, "and".toList, "or".toList, "of".toList, "to".toList,
    "in".toList, "on".toList, "for".toList, "is".toList, "it".toList, "with".toList, "by".toList,
    "at".toList, "from".toList, "as".toList, "be".toList, "that".toList, "this".toList,
    "was".toList, "are".toList]

/-- `token.ends_with('*')`. -/
def endsWithStar (token : Text) : Bool := token.getLast? = some '*'

/-- The word in lower case, without its stars. -/
def bare (token : Text) : Text := U.lower (token.filter (· ≠ '*'))

instance : LawfulBEq Text := inferInstance

/-- The word is searched for. -/
def survives (token : Text) : Bool :=
  if bare U token = [] then false
  else if (bare U token).length ≤ 2 && '*' ∈ token then false
  else if bare U token ∈ stopwords && '*' ∉ token then false
  else true

/-- The word without quotes, apostrophes and backslashes. -/
def stem (token : Text) : Text := (bare U token).filter (· ∉ stripped)

/-- A term in an expression. -/
structure Term where
  text : Text
  star : Bool
  deriving DecidableEq

def Term.render (t : Term) : Text :=
  if t.star then '"' :: t.text ++ ['"', '*'] else '"' :: t.text ++ ['"']

/-- The wildcard is not at the end alone. -/
def scans (token : Text) : Bool :=
  token.head? = some '*' || ('*' ∈ token && !endsWithStar token)

/-- `tokens.join(" ")`. -/
def join : List Text → Text
  | [] => []
  | [t] => t
  | t :: ts => t ++ ' ' :: join ts

/-- `raw.trim()`. -/
def trimmed (raw : Text) : Text := (raw.dropWhile isWhitespace).rdropWhile isWhitespace

/-- The terms for the words of a query. -/
def termsOf (raw : Text) : List Term :=
  ((pieces isWhitespace raw).filter (survives U)).map fun w => ⟨stem U w, endsWithStar w⟩

def prepareSearch (raw : Text) : PreparedSearch :=
  if trimmed raw = [] then ⟨[], false, true⟩
  else
    let tokens := (termsOf U (trimmed raw)).map Term.render
    let leadingWildcard := (pieces isWhitespace (trimmed raw)).any scans
    if tokens = [] then ⟨[], leadingWildcard, true⟩ else ⟨join tokens, leadingWildcard, false⟩

/-! ### The index -/

/-- Where the reader of an expression is: between terms, inside the quotes, after a quote, after the
star. -/
inductive Phase
  | gap
  | inside (t : Text)
  | closed (t : Text)
  | starred (t : Text)

/-- The terms of an expression that consists of quoted terms; a doubled quote is one. -/
def scan : Phase → List Term → Text → Option (List Term)
  | .gap, acc, [] => some acc
  | .gap, acc, c :: s =>
    if c = '"' then scan (.inside []) acc s else if c = ' ' then scan .gap acc s else none
  | .inside _, _, [] => none
  | .inside t, acc, c :: s =>
    if c = '"' then scan (.closed t) acc s else scan (.inside (t ++ [c])) acc s
  | .closed t, acc, [] => some (acc ++ [⟨t, false⟩])
  | .closed t, acc, c :: s =>
    if c = '"' then scan (.inside (t ++ ['"'])) acc s
    else if c = '*' then scan (.starred t) acc s
    else if c = ' ' then scan .gap (acc ++ [⟨t, false⟩]) s
    else none
  | .starred t, acc, [] => some (acc ++ [⟨t, true⟩])
  | .starred t, acc, c :: s => if c = ' ' then scan .gap (acc ++ [⟨t, true⟩]) s else none

/-- What FTS5 reads of an expression: it takes the text as a C string, which ends at U+0000. -/
def parse (expr : Text) : Option (List Term) := scan .gap [] (expr.takeWhile (· ≠ nul))

/-- `unicode61`. -/
def tokens (s : Text) : List Text :=
  (pieces (fun c => !U.tokenChar c) (s.filter (U.fold · ≠ []))).map (·.flatMap U.fold)

/-- The tokens of a term at the start of those of a text; with a star, the last one may go on. -/
def fits (star : Bool) : List Text → List Text → Bool
  | [], _ => true
  | _ :: _, [] => false
  | t :: ts, c :: cs =>
    if ts = [] then (if star then t.isPrefixOf c else t = c) else t = c && fits star ts cs

def occurs (star : Bool) (ts col : List Text) : Bool := col.tails.any (fits star ts)

/-- The indexed columns of a row of `item_overviews`. -/
structure Overview where
  title : Text
  subtitle : Text
  urls : Text

/-- `items_fts MATCH expr`: every term occurs in a column; terms without tokens are passed over, and
with no token at all there is no match. -/
def matchesRow (expr : Text) (o : Overview) : Bool :=
  match parse expr with
  | none => false
  | some terms =>
    terms.any (fun t => tokens U t.text ≠ []) &&
      terms.all fun t => [o.title, o.subtitle, o.urls].any fun col =>
        occurs t.star (tokens U t.text) (tokens U col)

/-! ### Reading an expression -/

section Scan

variable {acc : List Term}

lemma scan_inside (u : Text) {t : Text} (ht : '"' ∉ t) (rest : Text) :
    scan (.inside u) acc (t ++ rest) = scan (.inside (u ++ t)) acc rest := by
  induction t generalizing u with
  | nil => rw [List.append_nil, List.nil_append]
  | cons c t ih =>
    have hc : c ≠ '"' := fun h => ht (by simp [h])
    have ht' : '"' ∉ t := fun h => ht (List.mem_cons_of_mem _ h)
    rw [List.cons_append, scan, if_neg hc, ih _ ht', List.append_assoc]
    rfl

/-- A term, and what comes after it. -/
lemma scan_render {t : Term} (ht : '"' ∉ t.text) (rest : Text) :
    scan .gap acc (t.render ++ ' ' :: rest) = scan .gap (acc ++ [t]) rest ∧
      scan .gap acc t.render = some (acc ++ [t]) := by
  obtain ⟨text, star⟩ := t
  have hopen : ∀ s, scan .gap acc ('"' :: text ++ s) = scan (.inside text) acc s := fun s =>
    scan_inside [] ht s
  cases star with
  | true =>
    constructor
    · change scan .gap acc (('"' :: text ++ ['"', '*']) ++ ' ' :: rest) = _
      rw [List.append_assoc, hopen]
      rfl
    · exact hopen ['"', '*']
  | false =>
    constructor
    · change scan .gap acc (('"' :: text ++ ['"']) ++ ' ' :: rest) = _
      rw [List.append_assoc, hopen]
      rfl
    · exact hopen ['"']

/-- U+0000 in a term ends the expression inside the quotes. -/
lemma scan_render_nul {t : Term} (ht : '"' ∉ t.text) (hnul : nul ∈ t.text) (rest : Text) :
    scan .gap acc ((t.render ++ rest).takeWhile (· ≠ nul)) = none := by
  obtain ⟨text, star⟩ := t
  have hcut : ∀ s, ('"' :: text ++ s).takeWhile (· ≠ nul) = '"' :: text.takeWhile (· ≠ nul) := by
    intro s
    rw [List.cons_append, List.takeWhile_cons_of_pos (by decide), List.takeWhile_append, if_neg]
    intro hlen
    have hall := List.takeWhile_eq_self_iff.mp ((List.takeWhile_prefix _).eq_of_length hlen)
    simpa using hall nul hnul
  have hend : scan .gap acc ('"' :: text.takeWhile (· ≠ nul)) = none := by
    have hread : scan (.inside []) acc (text.takeWhile (· ≠ nul) ++ []) = none :=
      scan_inside [] (fun hq => ht ((List.takeWhile_prefix _).mem hq)) []
    rwa [List.append_nil] at hread
  cases star with
  | true =>
    change scan .gap acc ((('"' :: text ++ ['"', '*']) ++ rest).takeWhile _) = none
    rw [List.append_assoc, hcut, hend]
  | false =>
    change scan .gap acc ((('"' :: text ++ ['"']) ++ rest).takeWhile _) = none
    rw [List.append_assoc, hcut, hend]

lemma nul_not_mem_render {t : Term} (h : nul ∉ t.text) : ∀ c ∈ t.render, c ≠ nul := by
  obtain ⟨text, star⟩ := t
  rintro c hc rfl
  cases star <;> simp only [Term.render, if_true, Bool.false_eq_true, if_false, List.mem_append,
    List.mem_cons, List.not_mem_nil, or_false, h] at hc <;> revert hc <;> decide

/-- A term without U+0000 is read, and then the rest. -/
lemma takeWhile_render {t : Term} (h : nul ∉ t.text) (rest : Text) :
    (t.render ++ ' ' :: rest).takeWhile (· ≠ nul) =
      t.render ++ ' ' :: rest.takeWhile (· ≠ nul) := by
  rw [List.takeWhile_append_of_pos fun c hc => by simpa using nul_not_mem_render h c hc,
    List.takeWhile_cons_of_pos (by decide)]

/-- An expression of terms is read exactly if U+0000 is in none of them. -/
lemma scan_takeWhile_join (acc : List Term) {ts : List Term} (h : ∀ t ∈ ts, '"' ∉ t.text) :
    scan .gap acc ((join (ts.map Term.render)).takeWhile (· ≠ nul)) =
      if ∀ t ∈ ts, nul ∉ t.text then some (acc ++ ts) else none := by
  induction ts generalizing acc with
  | nil => simp [join, scan]
  | cons t ts ih =>
    have ht := h t List.mem_cons_self
    have hrest := ih (acc ++ [t]) fun t hts => h t (List.mem_cons_of_mem _ hts)
    rw [List.append_assoc] at hrest
    by_cases hnul : nul ∈ t.text
    · rw [if_neg fun hall => hall t List.mem_cons_self hnul]
      cases ts with
      | nil =>
        have hcut : scan .gap acc ((t.render ++ []).takeWhile (· ≠ nul)) = none :=
          scan_render_nul ht hnul []
        rwa [List.append_nil] at hcut
      | cons t' ts => exact scan_render_nul ht hnul _
    · simp only [List.forall_mem_cons, hnul, not_false_eq_true, true_and]
      cases ts with
      | nil =>
        have hself : t.render.takeWhile (· ≠ nul) = t.render :=
          List.takeWhile_eq_self_iff.mpr fun c hc => by simpa using nul_not_mem_render hnul c hc
        change scan .gap acc (t.render.takeWhile _) = _
        rw [hself, (scan_render ht []).2]
        simp
      | cons t' ts =>
        change scan .gap acc
          ((t.render ++ ' ' :: join ((t' :: ts).map Term.render)).takeWhile _) = _
        rw [takeWhile_render hnul, (scan_render ht _).1]
        exact hrest

end Scan

/-! ### The expression for a query -/

variable {U}

lemma pieces_trimmed (raw : Text) :
    pieces isWhitespace (trimmed raw) = pieces isWhitespace raw := by
  rw [trimmed, pieces_rdropWhile, pieces_dropWhile]

lemma termsOf_trimmed (raw : Text) : termsOf U (trimmed raw) = termsOf U raw := by
  rw [termsOf, pieces_trimmed]
  rfl

lemma quote_not_mem {raw : Text} : ∀ t ∈ termsOf U raw, '"' ∉ t.text := by
  intro t ht hmem
  obtain ⟨w, -, rfl⟩ := List.mem_map.mp ht
  have hq := (List.mem_filter.mp hmem).2
  simp [stripped] at hq

/-- Nothing is left exactly if no word survives. -/
lemma isEmpty_prepareSearch (raw : Text) :
    (prepareSearch U raw).isEmpty = true ↔ termsOf U raw = [] := by
  unfold prepareSearch
  split
  · next hempty =>
    have hpieces := pieces_trimmed raw
    rw [hempty, pieces_nil] at hpieces
    simp [termsOf, ← hpieces]
  · simp only [termsOf_trimmed, List.map_eq_nil_iff]
    split
    · next h => simp [h]
    · next h => simp [h]

lemma nul_mem_stem_iff {w : Text} : nul ∈ stem U w ↔ nul ∈ w := by
  have hstripped : nul ∉ stripped := by decide
  have hstar : nul ≠ '*' := by decide
  rw [stem, List.mem_filter, bare, U.lower_nul, List.mem_filter]
  simp [hstripped, hstar]

lemma mem_termsOf {raw : Text} {t : Term} : t ∈ termsOf U raw ↔
    ∃ w ∈ pieces isWhitespace raw, survives U w = true ∧ ⟨stem U w, endsWithStar w⟩ = t := by
  simp [termsOf, and_assoc]

lemma forall_termsOf {raw : Text} {P : Term → Prop} : (∀ t ∈ termsOf U raw, P t) ↔
    ∀ w ∈ pieces isWhitespace raw, survives U w = true → P ⟨stem U w, endsWithStar w⟩ := by
  constructor
  · exact fun h w hw hsurvives => h _ (mem_termsOf.mpr ⟨w, hw, hsurvives, rfl⟩)
  · rintro h t ht
    obtain ⟨w, hw, hsurvives, rfl⟩ := mem_termsOf.mp ht
    exact h w hw hsurvives

/-- No word that survives has U+0000 in it. -/
def Clean (U : Unicode) (raw : Text) : Prop :=
  ∀ w ∈ pieces isWhitespace raw, survives U w = true → nul ∉ w

lemma clean_iff {raw : Text} : Clean U raw ↔ ∀ t ∈ termsOf U raw, nul ∉ t.text := by
  simp only [forall_termsOf, nul_mem_stem_iff, Clean]

/-- What is searched for are the terms. -/
lemma parse_prepareSearch {raw : Text} (h : termsOf U raw ≠ []) [Decidable (Clean U raw)] :
    parse (prepareSearch U raw).matchExpr =
      if Clean U raw then some (termsOf U raw) else none := by
  have hexpr : (prepareSearch U raw).matchExpr = join ((termsOf U raw).map Term.render) := by
    unfold prepareSearch
    split
    · next hempty =>
      have hpieces := pieces_trimmed raw
      rw [hempty, pieces_nil] at hpieces
      exact absurd (by simp [termsOf, ← hpieces]) h
    · simp only [termsOf_trimmed, List.map_eq_nil_iff, if_neg h]
  rw [hexpr, parse, scan_takeWhile_join [] quote_not_mem]
  exact if_congr clean_iff.symm rfl rfl

/-! ### Tokens of words -/

lemma tokens_append_cons {c : Char} (hc : separator c = true) (xs ys : Text) :
    tokens U (xs ++ c :: ys) = tokens U xs ++ tokens U ys := by
  rw [tokens, List.filter_append, List.filter_cons_of_pos (by simpa using U.fold_separator c hc),
    pieces_append_cons _ _ (by simp [U.tokenChar_separator c hc]), List.map_append]
  rfl

/-- The tokens of a text are those of its words. -/
lemma tokens_words (s : Text) : (pieces isWhitespace s).flatMap (tokens U) = tokens U s :=
  flatMap_pieces isWhitespace (tokens U) (by simp [tokens])
    (fun xs _ ys hc => tokens_append_cons (by simp [separator, hc]) xs ys) s

lemma tokens_of_word {w s : Text} (hw : w ∈ pieces isWhitespace s) :
    tokens U w <:+: tokens U s := by
  obtain ⟨xs, ys, hsplit⟩ := List.append_of_mem hw
  refine ⟨xs.flatMap (tokens U), ys.flatMap (tokens U), ?_⟩
  rw [← tokens_words s, hsplit, List.flatMap_append, List.flatMap_cons, List.append_assoc]

lemma stem_ne_nil_iff {w : Text} :
    stem U w ≠ [] ↔ ∃ c ∈ w, c ≠ '*' ∧ c ∉ stripped := by
  have hall : stem U w = [] ↔ ∀ c ∈ w.filter (· ≠ '*'), c ∈ stripped := by
    rw [← U.lower_stripped, stem, bare, List.filter_eq_nil_iff]
    simp
  rw [ne_eq, hall]
  simp

/-! ### Where terms occur -/

lemma fits_append (star : Bool) (ts rest : List Text) : fits star ts (ts ++ rest) = true := by
  induction ts with
  | nil => rfl
  | cons t ts ih =>
    rw [List.cons_append, fits]
    split
    · cases star <;> simp
    · simp [ih]

lemma occurs_of_part {star : Bool} {ts col : List Text} (h : ts <:+: col) :
    occurs star ts col = true := by
  obtain ⟨xs, ys, rfl⟩ := h
  refine List.any_eq_true.mpr ⟨ts ++ ys, ?_, fits_append star ts ys⟩
  rw [List.mem_tails, List.append_assoc]
  exact List.suffix_append _ _

lemma occurs_nil {star : Bool} {ts : List Text} (h : occurs star ts [] = true) : ts = [] := by
  cases ts with
  | nil => rfl
  | cons t ts => simp [occurs, fits] at h

/-- No tokens occur anywhere. -/
lemma occurs_of_nil {star : Bool} {col : List Text} : occurs star [] col = true :=
  occurs_of_part (List.nil_infix)

/-! ### Sound searches -/

/-- A list of quoted terms, each with a character in it. -/
def WellFormed (expr : Text) : Prop :=
  ∃ terms, parse expr = some terms ∧ terms ≠ [] ∧ ∀ t ∈ terms, t.text ≠ []

variable (U) in
/-- The search for the title of an item matches the item. -/
def Found (o : Overview) : Prop :=
  (prepareSearch U o.title).isEmpty = false ∧
    matchesRow U (prepareSearch U o.title).matchExpr o = true

variable (U) in
/-- A token of the title is not a stopword. -/
def Searchable (title : Text) : Prop := ∃ t ∈ tokens U title, t ∉ stopwords

/-- A query is read exactly if it is clean. -/
lemma readable_iff (raw : Text) :
    ((prepareSearch U raw).isEmpty = false →
      ∃ terms, parse (prepareSearch U raw).matchExpr = some terms) ↔ Clean U raw := by
  classical
  by_cases hnil : termsOf U raw = []
  · have hempty := (isEmpty_prepareSearch raw).mpr hnil
    exact iff_of_true (by simp [hempty]) (clean_iff.mpr (by simp [hnil]))
  · have hne : (prepareSearch U raw).isEmpty = false := by
      rw [Bool.eq_false_iff, ne_eq, isEmpty_prepareSearch]
      exact hnil
    rw [parse_prepareSearch hnil]
    by_cases hclean : Clean U raw <;> simp [hne, hclean]

/-- A query gives well-formed terms exactly if every word that survives keeps a character, and none
has U+0000 in it. -/
lemma wellFormed_iff (raw : Text) :
    (prepareSearch U raw).isEmpty = true ∨ WellFormed (prepareSearch U raw).matchExpr ↔
      ∀ w ∈ pieces isWhitespace raw, survives U w = true →
        nul ∉ w ∧ ∃ c ∈ w, c ≠ '*' ∧ c ∉ stripped := by
  classical
  have hterms : (∀ w ∈ pieces isWhitespace raw, survives U w = true →
      nul ∉ w ∧ ∃ c ∈ w, c ≠ '*' ∧ c ∉ stripped) ↔
      Clean U raw ∧ ∀ t ∈ termsOf U raw, t.text ≠ [] := by
    simp only [forall_termsOf, stem_ne_nil_iff, Clean, imp_and, forall_and]
  rw [isEmpty_prepareSearch, hterms]
  by_cases hnil : termsOf U raw = []
  · exact iff_of_true (.inl hnil) ⟨clean_iff.mpr (by simp [hnil]), by simp [hnil]⟩
  · rw [or_iff_right hnil, WellFormed, parse_prepareSearch hnil]
    by_cases hclean : Clean U raw <;> simp [hnil, hclean]

/-- When the search for a title finds a row: it is read, some term has a token, and each occurs. -/
lemma found_iff (o : Overview) : Found U o ↔
    (∃ w ∈ pieces isWhitespace o.title, survives U w = true ∧ tokens U (stem U w) ≠ []) ∧
      Clean U o.title ∧ ∀ w ∈ pieces isWhitespace o.title, survives U w = true →
        ∃ col ∈ [o.title, o.subtitle, o.urls],
          occurs (endsWithStar w) (tokens U (stem U w)) (tokens U col) = true := by
  classical
  have hany : (∃ t ∈ termsOf U o.title, tokens U t.text ≠ []) ↔
      ∃ w ∈ pieces isWhitespace o.title, survives U w = true ∧ tokens U (stem U w) ≠ [] := by
    constructor
    · rintro ⟨t, ht, htok⟩
      obtain ⟨w, hw, hsurvives, rfl⟩ := mem_termsOf.mp ht
      exact ⟨w, hw, hsurvives, htok⟩
    · rintro ⟨w, hw, hsurvives, htok⟩
      exact ⟨_, mem_termsOf.mpr ⟨w, hw, hsurvives, rfl⟩, htok⟩
  by_cases hnil : termsOf U o.title = []
  · have hempty := (isEmpty_prepareSearch (U := U) o.title).mpr hnil
    refine iff_of_false (fun h => ?_) fun h => ?_
    · rw [h.1] at hempty
      cases hempty
    · obtain ⟨t, ht, -⟩ := hany.mpr h.1
      rw [hnil] at ht
      cases ht
  · have hne : (prepareSearch U o.title).isEmpty = false := by
      rw [Bool.eq_false_iff, ne_eq, isEmpty_prepareSearch]
      exact hnil
    rw [Found, matchesRow, parse_prepareSearch hnil, ← hany,
      ← forall_termsOf (P := fun t => ∃ col ∈ [o.title, o.subtitle, o.urls],
        occurs t.star (tokens U t.text) (tokens U col) = true)]
    by_cases hclean : Clean U o.title <;> simp [hne, hclean]

/-- An item with nothing to search for but its title. -/
def bareItem (title : Text) : Overview := ⟨title, [], ['[', ']']⟩

lemma tokens_brackets : tokens U ['[', ']'] = [] := by
  rw [tokens, List.map_eq_nil_iff, pieces_eq_nil_iff]
  intro c hc
  have hsep : separator c = true := by
    have hmem : c = '[' ∨ c = ']' := by simpa using List.mem_of_mem_filter hc
    rcases hmem with rfl | rfl <;> decide
  simp [U.tokenChar_separator c hsep]

/-- The terms of a title are found in an item with nothing else exactly if they occur in the
title. -/
lemma occurs_bareItem {star : Bool} {ts : List Text} {title : Text}
    (h : ∃ col ∈ [(bareItem title).title, (bareItem title).subtitle, (bareItem title).urls],
      occurs star ts (tokens U col) = true) : occurs star ts (tokens U title) = true := by
  obtain ⟨col, hcol, hoccurs⟩ := h
  have hother : tokens U col = [] → occurs star ts (tokens U title) = true := fun hnil => by
    rw [hnil] at hoccurs
    rw [occurs_nil hoccurs]
    exact occurs_of_nil
  simp only [bareItem, List.mem_cons, List.not_mem_nil, or_false] at hcol
  rcases hcol with rfl | rfl | rfl
  · exact hoccurs
  · exact hother (by simp [tokens])
  · exact hother tokens_brackets

/-- **When searches are sound.** A query gives no syntax error exactly if no word that survives has
U+0000 in it. It gives nothing or a list of terms that are not empty exactly if, moreover, every
such word has a character next to stars, quotes, apostrophes and backslashes. The search for a title
with a token that is no stopword matches every item with this title exactly if no surviving word has
U+0000 in it, one has a token when it is in lower case and without these characters, and each that
becomes another sequence of tokens so occurs in the title all the same. -/
theorem search_sound_iff (U : Unicode) (s : Text) :
    (((prepareSearch U s).isEmpty = false →
        ∃ terms, parse (prepareSearch U s).matchExpr = some terms) ↔
        ∀ w ∈ pieces isWhitespace s, survives U w = true → nul ∉ w) ∧
      ((prepareSearch U s).isEmpty = true ∨ WellFormed (prepareSearch U s).matchExpr ↔
        ∀ w ∈ pieces isWhitespace s, survives U w = true →
          nul ∉ w ∧ ∃ c ∈ w, c ≠ '*' ∧ c ∉ stripped) ∧
      ((Searchable U s → ∀ o : Overview, o.title = s → Found U o) ↔ (Searchable U s →
        (∃ w ∈ pieces isWhitespace s, survives U w = true ∧ tokens U (stem U w) ≠ []) ∧
          ∀ w ∈ pieces isWhitespace s, survives U w = true → nul ∉ w ∧
            (tokens U (stem U w) ≠ tokens U w →
              occurs (endsWithStar w) (tokens U (stem U w)) (tokens U s) = true))) := by
  refine ⟨readable_iff s, wellFormed_iff s, forall_congr' fun _ => ⟨fun h => ?_, ?_⟩⟩
  · obtain ⟨hword, hclean, hall⟩ := (found_iff (bareItem s)).mp (h (bareItem s) rfl)
    exact ⟨hword, fun w hw hsurvives => ⟨hclean w hw hsurvives, fun _ =>
      occurs_bareItem (hall w hw hsurvives)⟩⟩
  · rintro ⟨hword, hall⟩ o rfl
    refine (found_iff o).mpr ⟨hword, fun w hw hsurvives => (hall w hw hsurvives).1,
      fun w hw hsurvives => ⟨o.title, by simp, ?_⟩⟩
    by_cases hsame : tokens U (stem U w) = tokens U w
    · rw [hsame]
      exact occurs_of_part (tokens_of_word hw)
    · exact (hall w hw hsurvives).2 hsame

/-! ### An apostrophe, a quote alone and U+0000 -/

/-- Texts that have no upper case, no diacritics, and only letters and digits between separators. -/
def plain : Unicode where
  lower := id
  tokenChar c := !separator c
  fold c := [c]
  lower_stripped _ := Iff.rfl
  lower_nul _ := Iff.rfl
  tokenChar_separator c hc := by simp [hc]
  fold_separator c _ := by simp

/-- The item "o'brien" is not found by its title, the query of one quote gives an empty term, and
that of U+0000 and two letters a syntax error. -/
theorem apostrophe_not_found :
    Searchable plain "o'brien".toList ∧
      (prepareSearch plain "o'brien".toList).matchExpr = "\"obrien\"".toList ∧
      ¬ Found plain (bareItem "o'brien".toList) ∧
      (prepareSearch plain ['"']).matchExpr = ['"', '"'] ∧
      ¬ WellFormed (prepareSearch plain ['"']).matchExpr ∧
      (prepareSearch plain [nul, 'a', 'b']).isEmpty = false ∧
      parse (prepareSearch plain [nul, 'a', 'b']).matchExpr = none := by
  refine ⟨⟨"brien".toList, by decide +kernel, by decide⟩, by decide +kernel, ?_, by decide +kernel,
    ?_, by decide +kernel, by decide +kernel⟩
  · rintro ⟨-, hmatch⟩
    exact absurd hmatch (by decide +kernel)
  · rintro ⟨terms, hparse, -, hne⟩
    have hexpr : parse (prepareSearch plain ['"']).matchExpr = some [⟨[], false⟩] := by
      decide +kernel
    rw [hexpr] at hparse
    exact hne ⟨[], false⟩ (by simp [← Option.some.inj hparse]) rfl

end Vautr.Search
