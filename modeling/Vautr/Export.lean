import Mathlib.Data.List.Basic
import Mathlib.Tactic.Common

/-!
The two writers of plaintext exports (`vautr-export/src/export.rs`): one that is given the rows one
after the other, as `export_vault` of the orchestrator does, and one that loops over all of them.

A record of a CSV file is encoded independently of those before it. The flag that cancels an export
is read before each row; what it shows then is any function of the number of the row.
-/

namespace Vautr.Export

abbrev Text := List Char

structure TotpExport where
  algorithm : Text
  digits : ℕ
  period : ℕ
  secretBase32 : Text

structure ExportRow where
  uuid : Text
  title : Text
  username : Text
  password : Text
  urls : List Text
  notes : Text
  totp : Option TotpExport

inductive ExportFormat
  | csv
  | json
  deriving DecidableEq

structure ExportReport where
  itemsExported : ℕ
  bytesWritten : ℕ
  format : ExportFormat
  path : Text
  cancelled : Bool
  deriving DecidableEq

inductive ExportError
  | io (msg : String)
  | serialize (msg : String)
  deriving DecidableEq

/-- A record in a CSV file, of the crate `csv`, and a row in JSON, of `serde_json`. -/
structure Encoders (B : Type) where
  csvRecord : List Text → List B
  toJson : ExportRow → List B
  ascii : Char → B

variable {B : Type} (E : Encoders B)

/-! ### Rows -/

/-- `sanitize_csv_cell`: what a spreadsheet would take for a formula gets a quote before it. -/
def sanitizeCsvCell (raw : Text) : Text :=
  match raw.head? with
  | some c => if c ∈ ['=', '+', '-', '@', '\t', '\r'] then '\'' :: raw else raw
  | none => raw

/-- The names of the columns. -/
def csvHeader : List Text :=
  ["uuid".toList, "title".toList, "username".toList, "password".toList, "urls".toList,
    "notes".toList, "totp".toList]

/-- The URI of a one-time secret, or nothing. -/
def totpCell (row : ExportRow) : Text :=
  match row.totp with
  | some t => "otpauth://totp/".toList ++ row.title ++ "?secret=".toList ++ t.secretBase32
  | none => []

/-- The record of `write_csv_row`. -/
def csvCells (row : ExportRow) : List Text :=
  [row.uuid, sanitizeCsvCell row.title, sanitizeCsvCell row.username, sanitizeCsvCell row.password,
    sanitizeCsvCell (" | ".toList.intercalate row.urls), sanitizeCsvCell row.notes,
    sanitizeCsvCell (totpCell row)]

/-! ### The writer that is given the rows -/

/-- `ExportWriter`, with the bytes that it has written. -/
structure ExportWriter (B : Type) where
  out : List B
  format : ExportFormat
  path : Text
  itemsExported : ℕ
  firstJson : Bool
  finished : Bool

/-- `begin`. -/
def ExportWriter.start (path : Text) (format : ExportFormat) : ExportWriter B :=
  let out := match format with
    | .csv => E.csvRecord csvHeader
    | .json => [E.ascii '[']
  ⟨out, format, path, 0, true, false⟩

def ExportWriter.writeRow (w : ExportWriter B) (row : ExportRow) : ExportWriter B :=
  match w.format with
  | .csv =>
    { w with out := w.out ++ E.csvRecord (csvCells row), itemsExported := w.itemsExported + 1 }
  | .json =>
    let separator := if w.firstJson then [] else [E.ascii ',']
    { w with
      out := w.out ++ separator ++ E.toJson row
      firstJson := false
      itemsExported := w.itemsExported + 1 }

/-- `finish`: the file and the report. -/
def ExportWriter.finish (w : ExportWriter B) : Except ExportError (List B × ExportReport) :=
  if w.finished then .error (.io "already finished")
  else
    let out := match w.format with
      | .csv => w.out
      | .json => w.out ++ [E.ascii ']']
    .ok (out, ⟨w.itemsExported, out.length, w.format, w.path, false⟩)

/-- The loop of `export_vault`, from the row with the number `i` on. -/
def writeRows (cancel : ℕ → Bool) (i : ℕ) (w : ExportWriter B) : List ExportRow → ExportWriter B
  | [] => w
  | row :: rows => if cancel i then w else writeRows cancel (i + 1) (w.writeRow E row) rows

/-- What `export_vault` does with the rows. -/
def exportVault (rows : List ExportRow) (format : ExportFormat) (path : Text) (cancel : ℕ → Bool) :
    Except ExportError (List B × ExportReport) :=
  (writeRows E cancel 0 (.start E path format) rows).finish E

/-! ### The writer that loops over the rows -/

/-- The variables of the loop. -/
structure Loop (B : Type) where
  out : List B
  itemsExported : ℕ
  first : Bool
  cancelled : Bool

/-- The loop over the records. -/
def csvLoop (cancel : ℕ → Bool) (i : ℕ) (s : Loop B) : List ExportRow → Loop B
  | [] => s
  | row :: rows =>
    if cancel i then { s with cancelled := true }
    else
      csvLoop cancel (i + 1)
        { s with out := s.out ++ E.csvRecord (csvCells row), itemsExported := s.itemsExported + 1 }
        rows

/-- The loop over the objects. -/
def jsonLoop (cancel : ℕ → Bool) (i : ℕ) (s : Loop B) : List ExportRow → Loop B
  | [] => s
  | row :: rows =>
    if cancel i then { s with cancelled := true }
    else
      let separator := if s.first then [] else [E.ascii ',']
      jsonLoop cancel (i + 1)
        { s with
          out := s.out ++ separator ++ E.toJson row
          first := false
          itemsExported := s.itemsExported + 1 } rows

/-- `export_rows`: the file and the report. -/
def exportRows (rows : List ExportRow) (format : ExportFormat) (path : Text) (cancel : ℕ → Bool) :
    List B × ExportReport :=
  match format with
  | .csv =>
    let s := csvLoop E cancel 0 ⟨E.csvRecord csvHeader, 0, true, false⟩ rows
    (s.out, ⟨s.itemsExported, s.out.length, .csv, path, s.cancelled⟩)
  | .json =>
    let s := jsonLoop E cancel 0 ⟨[E.ascii '['], 0, true, false⟩ rows
    let out := s.out ++ [E.ascii ']']
    (out, ⟨s.itemsExported, out.length, .json, path, s.cancelled⟩)

/-! ### Both write the same -/

variable {E} {cancel : ℕ → Bool}

/-- The writer has come as far as the loop. -/
structure Matches (w : ExportWriter B) (s : Loop B) : Prop where
  out : w.out = s.out
  items : w.itemsExported = s.itemsExported
  first : w.firstJson = s.first
  finished : w.finished = false

lemma matches_csvLoop {w : ExportWriter B} (hw : w.format = .csv) {s : Loop B} (h : Matches w s)
    (i : ℕ) (rows : List ExportRow) :
    Matches (writeRows E cancel i w rows) (csvLoop E cancel i s rows) ∧
      (writeRows E cancel i w rows).format = .csv ∧
      (writeRows E cancel i w rows).path = w.path := by
  induction rows generalizing w s i with
  | nil => exact ⟨h, hw, rfl⟩
  | cons row rows ih =>
    unfold writeRows csvLoop
    by_cases hc : cancel i = true
    · rw [if_pos hc, if_pos hc]
      exact ⟨⟨h.out, h.items, h.first, h.finished⟩, hw, rfl⟩
    · rw [if_neg hc, if_neg hc]
      have hstep : w.writeRow E row = { w with
          out := w.out ++ E.csvRecord (csvCells row), itemsExported := w.itemsExported + 1 } := by
        unfold ExportWriter.writeRow
        rw [hw]
      have hnext : Matches (w.writeRow E row) { s with
          out := s.out ++ E.csvRecord (csvCells row), itemsExported := s.itemsExported + 1 } := by
        rw [hstep]
        exact ⟨congrArg (· ++ _) h.out, congrArg (· + 1) h.items, h.first, h.finished⟩
      have hformat : (w.writeRow E row).format = .csv := by rw [hstep]; exact hw
      have hpath : (w.writeRow E row).path = w.path := by rw [hstep]
      rw [← hpath]
      exact ih hformat hnext (i + 1)

lemma matches_jsonLoop {w : ExportWriter B} (hw : w.format = .json) {s : Loop B} (h : Matches w s)
    (i : ℕ) (rows : List ExportRow) :
    Matches (writeRows E cancel i w rows) (jsonLoop E cancel i s rows) ∧
      (writeRows E cancel i w rows).format = .json ∧
      (writeRows E cancel i w rows).path = w.path := by
  induction rows generalizing w s i with
  | nil => exact ⟨h, hw, rfl⟩
  | cons row rows ih =>
    unfold writeRows jsonLoop
    by_cases hc : cancel i = true
    · rw [if_pos hc, if_pos hc]
      exact ⟨⟨h.out, h.items, h.first, h.finished⟩, hw, rfl⟩
    · rw [if_neg hc, if_neg hc]
      have hstep : w.writeRow E row = { w with
          out := w.out ++ (if w.firstJson then [] else [E.ascii ',']) ++ E.toJson row
          firstJson := false
          itemsExported := w.itemsExported + 1 } := by
        unfold ExportWriter.writeRow
        rw [hw]
      have hnext : Matches (w.writeRow E row) { s with
          out := s.out ++ (if s.first then [] else [E.ascii ',']) ++ E.toJson row
          first := false
          itemsExported := s.itemsExported + 1 } := by
        rw [hstep]
        refine ⟨?_, congrArg (· + 1) h.items, rfl, h.finished⟩
        show w.out ++ (if w.firstJson then [] else [E.ascii ',']) ++ E.toJson row = _
        rw [h.out, h.first]
      have hformat : (w.writeRow E row).format = .json := by rw [hstep]; exact hw
      have hpath : (w.writeRow E row).path = w.path := by rw [hstep]
      rw [← hpath]
      exact ih hformat hnext (i + 1)

/-- Both give the same file, and the same report but for whether it was cancelled. -/
lemma exportVault_eq (rows : List ExportRow) (format : ExportFormat) (path : Text)
    (cancel : ℕ → Bool) : exportVault E rows format path cancel =
      .ok ((exportRows E rows format path cancel).1,
        { (exportRows E rows format path cancel).2 with cancelled := false }) := by
  cases format with
  | csv =>
    have hstart : Matches (.start E path .csv) (⟨E.csvRecord csvHeader, 0, true, false⟩ : Loop B) :=
      ⟨rfl, rfl, rfl, rfl⟩
    obtain ⟨⟨hout, hitems, -, hfinished⟩, hformat, hpath⟩ := @matches_csvLoop B E cancel _ rfl _
      hstart 0 rows
    rw [exportVault, ExportWriter.finish, hfinished, hformat, hitems, hout, hpath]
    rfl
  | json =>
    have hstart : Matches (.start E path .json) (⟨[E.ascii '['], 0, true, false⟩ : Loop B) :=
      ⟨rfl, rfl, rfl, rfl⟩
    obtain ⟨⟨hout, hitems, -, hfinished⟩, hformat, hpath⟩ := @matches_jsonLoop B E cancel _ rfl _
      hstart 0 rows
    rw [exportVault, ExportWriter.finish, hfinished, hformat, hitems, hout, hpath]
    rfl

/-! ### Cancelling -/

/-- The flag is seen before one of `n` rows, the first of which has the number `i`. -/
def SeenFrom (cancel : ℕ → Bool) (i n : ℕ) : Prop := ∃ j < n, cancel (i + j) = true

lemma not_seenFrom_zero (i : ℕ) : ¬ SeenFrom cancel i 0 := by
  rintro ⟨j, hj, -⟩
  exact absurd hj (Nat.not_lt_zero j)

lemma seenFrom_succ (i n : ℕ) :
    SeenFrom cancel i (n + 1) ↔ cancel i = true ∨ SeenFrom cancel (i + 1) n := by
  constructor
  · rintro ⟨j, hj, hseen⟩
    cases j with
    | zero => exact .inl hseen
    | succ j =>
      refine .inr ⟨j, by omega, ?_⟩
      rwa [show i + 1 + j = i + (j + 1) by omega]
  · rintro (hseen | ⟨j, hj, hseen⟩)
    · exact ⟨0, by omega, hseen⟩
    · refine ⟨j + 1, by omega, ?_⟩
      rwa [show i + (j + 1) = i + 1 + j by omega]

lemma cancelled_csvLoop (s : Loop B) (i : ℕ) (rows : List ExportRow) :
    (csvLoop E cancel i s rows).cancelled = true ↔
      s.cancelled = true ∨ SeenFrom cancel i rows.length := by
  induction rows generalizing s i with
  | nil => simp [csvLoop, not_seenFrom_zero]
  | cons row rows ih =>
    rw [List.length_cons, seenFrom_succ, csvLoop]
    by_cases hc : cancel i = true
    · simp [hc]
    · rw [if_neg hc, ih]
      simp [hc]

lemma cancelled_jsonLoop (s : Loop B) (i : ℕ) (rows : List ExportRow) :
    (jsonLoop E cancel i s rows).cancelled = true ↔
      s.cancelled = true ∨ SeenFrom cancel i rows.length := by
  induction rows generalizing s i with
  | nil => simp [jsonLoop, not_seenFrom_zero]
  | cons row rows ih =>
    rw [List.length_cons, seenFrom_succ, jsonLoop]
    by_cases hc : cancel i = true
    · simp [hc]
    · rw [if_neg hc, ih]
      simp [hc]

/-- The batch writer says that it was cancelled when the flag was seen before one of the rows. -/
lemma cancelled_exportRows (rows : List ExportRow) (format : ExportFormat) (path : Text) :
    (exportRows E rows format path cancel).2.cancelled = true ↔
      SeenFrom cancel 0 rows.length := by
  cases format with
  | csv => exact (cancelled_csvLoop _ 0 rows).trans (by simp)
  | json => exact (cancelled_jsonLoop _ 0 rows).trans (by simp)

/-- **When the two exports agree.** For all rows, both formats and whatever the flag shows before
each row, `exportVault` gives the file and the report of `exportRows` exactly if the flag is not
seen before any of the rows: the report of `finish` always says that nothing was cancelled. -/
theorem export_eq_iff_not_seen (E : Encoders B) (rows : List ExportRow) (format : ExportFormat)
    (path : Text) (cancel : ℕ → Bool) :
    exportVault E rows format path cancel = .ok (exportRows E rows format path cancel) ↔
      ∀ i < rows.length, cancel i = false := by
  have hseen : SeenFrom cancel 0 rows.length ↔ ¬ ∀ i < rows.length, cancel i = false := by
    simp [SeenFrom]
  have hflag : (exportRows E rows format path cancel).2.cancelled = true ↔
      ¬ ∀ i < rows.length, cancel i = false :=
    (cancelled_exportRows rows format path).trans hseen
  rw [exportVault_eq]
  constructor
  · intro h
    have hreport := congrArg (·.2.cancelled) (Except.ok.inj h)
    by_contra hne
    exact absurd (hreport.trans (hflag.2 hne)) Bool.false_ne_true
  · intro h
    have hfalse : (exportRows E rows format path cancel).2.cancelled = false :=
      Bool.eq_false_iff.2 fun htrue => hflag.1 htrue h
    rw [← hfalse]

/-- Records and objects as texts, without any escapes. -/
def plainEncoders : Encoders Char :=
  ⟨fun cells => ",".toList.intercalate cells ++ ['\n'], fun row => '"' :: row.title ++ ['"'], id⟩

/-- A row with a title only. -/
def titled (title : Text) : ExportRow := ⟨[], title, [], [], [], [], none⟩

/-- An export of one item that is cancelled before it: the batch writer reports it as cancelled, the
other one as complete. -/
theorem cancelled_export_reported_complete :
    exportRows plainEncoders [titled ['a']] .json ['p'] (fun _ => true) =
        (['[', ']'], ⟨0, 2, .json, ['p'], true⟩) ∧
      exportVault plainEncoders [titled ['a']] .json ['p'] (fun _ => true) =
        .ok (['[', ']'], ⟨0, 2, .json, ['p'], false⟩) ∧
      ¬ ∀ (rows : List ExportRow) (format : ExportFormat) (path : Text) (cancel : ℕ → Bool),
        exportVault plainEncoders rows format path cancel =
          .ok (exportRows plainEncoders rows format path cancel) := by
  refine ⟨rfl, rfl, fun h => ?_⟩
  have hsame := congrArg (·.2.cancelled)
    (Except.ok.inj (h [titled ['a']] .json ['p'] (fun _ => true)))
  exact absurd hsame (by decide)

end Vautr.Export
