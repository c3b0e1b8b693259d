import DumpRouter.Proofs.Export.Requests
import Mathlib.Data.List.Induction

/-!
# DumpRouter.Proofs.Export.Csv

What is exported as comma-separated values can be read again, whatever the tables are called.

* `Csv.Reading`: a reader of RFC 4180, with a line feed as the end of a record and with all
  characters for text. It refuses a quote or a carriage return in a field without quotes, and
  anything but a separator behind a closing quote. `Csv.parse` reads a whole text.
* `feedAll_field`, `feedAll_written`: a written field, and a written record, is read as what it is.
* `Csv.parse_text`: the records of an export.
* `CsvExport.Wrote`: what an export in progress has written, kept by every request.
* `CsvExport.finished_parses`: the file of an export that has been finished.
-/

namespace DumpRouter
namespace Csv

/-! ## The reader -/

/-- Where a reader stands in a field. -/
inductive Place where
  | start
  /-- In a field without quotes. -/
  | plain
  | quoted
  /-- Behind a quote in a quoted field. It may be the end of the field, or half of a quote. -/
  | closing
  deriving DecidableEq, Repr

structure Reading where
  place : Place
  /-- The characters of the field so far. -/
  field : List Char
  /-- The fields in front of it. -/
  record : List String
  records : List (List String)
  deriving DecidableEq, Repr

namespace Reading

def start : Reading := ⟨.start, [], [], []⟩

def endField (r : Reading) : Reading :=
  { r with place := .start, field := [], record := r.record ++ [String.ofList r.field] }

def endRecord (r : Reading) : Reading :=
  ⟨.start, [], [], r.records ++ [r.record ++ [String.ofList r.field]]⟩

def take (r : Reading) (place : Place) (c : Char) : Reading :=
  { r with place := place, field := r.field ++ [c] }

/-- The end of a field, or else what `other` makes of the character. -/
def separate (r : Reading) (c : Char) (other : Option Reading) : Option Reading :=
  if c = ',' then some r.endField else if c = '\n' then some r.endRecord else other

/-- A character that stands for itself outside of quotes. -/
def bare (r : Reading) (c : Char) : Option Reading :=
  if c = '"' ∨ c = '\r' then none else some (r.take .plain c)

def feed (r : Reading) (c : Char) : Option Reading :=
  match r.place with
  | .start => if c = '"' then some { r with place := .quoted } else r.separate c (r.bare c)
  | .plain => r.separate c (r.bare c)
  | .quoted => if c = '"' then some { r with place := .closing } else some (r.take .quoted c)
  | .closing => if c = '"' then some (r.take .quoted c) else r.separate c none

def feedAll (r : Reading) (s : List Char) : Option Reading := s.foldlM feed r

/-- The records, if the text may end here. The last record need not have an end of its own. -/
def ended? (r : Reading) : Option (List (List String)) :=
  match r.place with
  | .quoted => none
  | .start => if r.record = [] then some r.records else some r.endRecord.records
  | _ => some r.endRecord.records

end Reading

/-- The records of a text. -/
def parse (text : String) : Option (List (List String)) :=
  (Reading.start.feedAll text.toList).bind Reading.ended?

/-! ## Reading what is written -/

/-- A record as it is written. -/
def written (fields : List String) : List Char :=
  [','].intercalate (fields.map fun f => CsvExport.field f.toList) ++ ['\n']

namespace Reading

theorem feedAll_append (r : Reading) (s t : List Char) :
    r.feedAll (s ++ t) = (r.feedAll s).bind fun r' => r'.feedAll t := List.foldlM_append

theorem feedAll_cons (r : Reading) (c : Char) (s : List Char) :
    r.feedAll (c :: s) = (r.feed c).bind fun r' => r'.feedAll s := List.foldlM_cons

theorem feed_comma {r : Reading} (h : r.place ≠ .quoted) : r.feed ',' = some r.endField := by
  unfold feed
  cases hp : r.place with
  | quoted => exact absurd hp h
  | start => rfl
  | plain => rfl
  | closing => rfl

theorem feed_newline {r : Reading} (h : r.place ≠ .quoted) : r.feed '\n' = some r.endRecord := by
  unfold feed
  cases hp : r.place with
  | quoted => exact absurd hp h
  | start => rfl
  | plain => rfl
  | closing => rfl

theorem feed_bare {r : Reading} {c : Char} (hp : r.place = .start ∨ r.place = .plain)
    (hc : CsvExport.needsQuotes c = false) : r.feed c = some (r.take .plain c) := by
  simp only [CsvExport.needsQuotes, Bool.or_eq_false_iff, beq_eq_false_iff_ne] at hc
  obtain ⟨⟨⟨hcomma, hquote⟩, hnewline⟩, hreturn⟩ := hc
  unfold feed separate bare
  rcases hp with hp | hp <;> simp [hp, hcomma, hquote, hnewline, hreturn]

theorem feedAll_bare {r : Reading} {s : List Char} (hp : r.place = .start ∨ r.place = .plain)
    (hs : ∀ c ∈ s, CsvExport.needsQuotes c = false) :
    ∃ place, place ≠ .quoted ∧
      r.feedAll s = some { r with place := place, field := r.field ++ s } := by
  induction s generalizing r with
  | nil =>
    refine ⟨r.place, ?_, ?_⟩
    · rcases hp with hp | hp <;> simp [hp]
    · rw [List.append_nil]
      rfl
  | cons c s ih =>
    obtain ⟨place, hplace, hrest⟩ := ih (r := r.take .plain c) (.inr rfl)
      fun d hd => hs d (List.mem_cons_of_mem c hd)
    refine ⟨place, hplace, ?_⟩
    rw [feedAll_cons, feed_bare hp (hs c (by simp)), Option.bind_some, hrest]
    simp [take]

theorem feedAll_doubled_cons {r : Reading} (hp : r.place = .quoted) (c : Char) (s : List Char) :
    r.feedAll (CsvExport.doubled (c :: s)) = (r.take .quoted c).feedAll (CsvExport.doubled s) := by
  rw [CsvExport.doubled]
  by_cases hc : c = '"'
  · -- the first quote seems to close the field, and the second one opens it again
    subst hc
    have hclose : r.feed '"' = some { r with place := .closing } := by simp [feed, hp]
    rw [if_pos rfl, feedAll_cons, hclose, Option.bind_some, feedAll_cons]
    rfl
  · have htake : r.feed c = some (r.take .quoted c) := by simp [feed, hp, hc]
    rw [if_neg hc, feedAll_cons, htake, Option.bind_some]

theorem feedAll_doubled {r : Reading} (s : List Char) (hp : r.place = .quoted) :
    r.feedAll (CsvExport.doubled s) = some { r with field := r.field ++ s } := by
  induction s generalizing r with
  | nil => simp [CsvExport.doubled, feedAll]
  | cons c s ih =>
    rw [feedAll_doubled_cons hp, ih rfl]
    simp [take, hp]

/-- A written field is read as what it is, up to a separator. -/
theorem feedAll_field {r : Reading} (s : List Char) (hp : r.place = .start) (hf : r.field = []) :
    ∃ place, place ≠ .quoted ∧
      r.feedAll (CsvExport.field s) = some { r with place := place, field := s } := by
  unfold CsvExport.field
  by_cases hs : s.any CsvExport.needsQuotes = true
  · refine ⟨.closing, nofun, ?_⟩
    have hopen : r.feed '"' = some { r with place := .quoted } := by simp [feed, hp]
    rw [if_pos hs, List.cons_append, feedAll_cons, hopen, Option.bind_some, feedAll_append,
      feedAll_doubled s rfl]
    simp [feedAll, feed, hf]
  · rw [if_neg hs]
    have hnone : ∀ c ∈ s, CsvExport.needsQuotes c = false := by
      simpa using hs
    simpa [hf] using feedAll_bare (.inl hp) hnone

/-- A written record is read as its fields, behind those that have been read of it. -/
theorem feedAll_written {fields : List String} (hne : fields ≠ []) (record : List String)
    (records : List (List String)) :
    feedAll ⟨.start, [], record, records⟩ (written fields) =
      some ⟨.start, [], [], records ++ [record ++ fields]⟩ := by
  unfold written
  -- the last field ends the record, and each of the others only itself
  induction fields generalizing record with
  | nil => exact absurd rfl hne
  | cons f fields ih =>
    obtain ⟨place, hplace, hfield⟩ :=
      feedAll_field (r := ⟨.start, [], record, records⟩) f.toList rfl rfl
    cases fields with
    | nil =>
      have hend := feed_newline (r := ⟨place, f.toList, record, records⟩) hplace
      simp only [List.map_cons, List.map_nil, List.intercalate_singleton]
      rw [feedAll_append, hfield, Option.bind_some, feedAll_cons, hend]
      simp [endRecord, feedAll]
    | cons g fields =>
      have hend := feed_comma (r := ⟨place, f.toList, record, records⟩) hplace
      have hrest := ih (by simp) (record ++ [f])
      rw [List.append_assoc, List.singleton_append] at hrest
      rw [List.map_cons, List.map_cons, List.intercalate_cons_cons, List.append_assoc,
        List.append_assoc, feedAll_append, hfield, Option.bind_some, List.singleton_append,
        feedAll_cons, hend, Option.bind_some, endField, String.ofList_toList]
      exact hrest

end Reading

/-! ## The records of an export -/

def columns : List String :=
  ["table_name", "insert_count", "create_count", "statement_count", "total_bytes"]

/-- The name of a table and its counters in decimal. -/
def fields (t : TableStats) : List String :=
  [t.name, Nat.repr t.inserts.toNat, Nat.repr t.creates.toNat, Nat.repr t.statements.toNat,
    Nat.repr t.bytes.toNat]

/-- The text of an export: a record with the names of the columns, and one for each table. -/
def text (ts : List TableStats) : String :=
  ts.foldl (fun text t => text ++ String.ofList (CsvExport.row t)) CsvExport.header

theorem text_concat (ts : List TableStats) (t : TableStats) :
    text (ts ++ [t]) = text ts ++ String.ofList (CsvExport.row t) := by
  rw [text, List.foldl_append]
  rfl

theorem header_eq : CsvExport.header.toList = written columns := by decide +kernel

theorem field_number (n : UInt64) : CsvExport.field (CsvExport.number n) = CsvExport.number n := by
  have hplain : ∀ c ∈ CsvExport.number n, CsvExport.needsQuotes c = false := by
    intro c hc
    rw [CsvExport.number, Nat.toList_repr] at hc
    have hdigit := Nat.isDigit_of_mem_toDigits (by decide) (by decide) hc
    have hne : ∀ d : Char, d.isDigit = false → c ≠ d := by
      rintro d hd rfl
      exact absurd hdigit (by simp [hd])
    simp [CsvExport.needsQuotes, hne ',' rfl, hne '"' rfl, hne '\n' rfl, hne '\r' rfl]
  rw [CsvExport.field, if_neg]
  simpa using hplain

theorem row_eq (t : TableStats) : CsvExport.row t = written (fields t) := by
  have hnumber : ∀ n : UInt64, CsvExport.field (Nat.repr n.toNat).toList = CsvExport.number n :=
    field_number
  unfold written fields CsvExport.row
  simp only [List.map_cons, List.map_nil, hnumber, List.intercalate_cons_cons,
    List.intercalate_singleton]
  simp

theorem feedAll_text (ts : List TableStats) :
    Reading.start.feedAll (text ts).toList =
      some ⟨.start, [], [], columns :: ts.map fields⟩ := by
  induction ts using List.reverseRecOn with
  | nil =>
    rw [text, List.foldl_nil, header_eq]
    exact Reading.feedAll_written (by simp [columns]) [] []
  | append_singleton ts t ih =>
    rw [text_concat, String.toList_append, String.toList_ofList, Reading.feedAll_append, ih,
      Option.bind_some, row_eq, Reading.feedAll_written (by simp [fields]) [] _]
    simp

/-- The text of an export is read as its records. -/
theorem parse_text (ts : List TableStats) :
    parse (text ts) = some (columns :: ts.map fields) := by
  rw [parse, feedAll_text, Option.bind_some]
  rfl

end Csv

namespace CsvExport

/-- The export has written the tables `ts`, in this order. As long as there are none, the names of
the columns may be missing. -/
structure Wrote (p : Path) (x : CsvExport) (s : Site) (ts : List TableStats) : Prop where
  fills : x.output.Fills p s.disk (if x.headed then Csv.text ts else "")
  unheaded : x.headed = false → ts = []

variable {p : Path} {x : CsvExport} {s : Site} {ts : List TableStats}

theorem Wrote.headed (h : x.Wrote p s ts) (hx : x.headed = true) :
    x.output.Fills p s.disk (Csv.text ts) := by
  have hfills := h.fills
  rwa [if_pos hx] at hfills

theorem wrote_of_headed (hx : x.headed = true) (h : x.output.Fills p s.disk (Csv.text ts)) :
    x.Wrote p s ts := by
  refine ⟨?_, fun hnot => ?_⟩
  · rwa [if_pos hx]
  · cases hx.symm.trans hnot

theorem ensureHeader_ok (h : x.Wrote p s ts) :
    ∃ x' s', x.ensureHeader s = (.ok (), x', s') ∧ x'.headed = true ∧
      x'.output.Fills p s'.disk (Csv.text ts) := by
  unfold ensureHeader
  cases hx : x.headed with
  | true => exact ⟨x, s, rfl, hx, h.headed hx⟩
  | false =>
    have hfills := h.fills
    obtain rfl := h.unheaded hx
    rw [hx] at hfills
    obtain ⟨b, d, hwrite, hb⟩ := hfills.write header
    rw [hwrite]
    rw [if_neg Bool.false_ne_true, String.empty_append] at hb
    exact ⟨_, _, rfl, rfl, hb⟩

theorem exportTable_ok (h : x.Wrote p s ts) (t : TableStats) :
    ∃ x' s', x.exportTable t s = (.ok (), x', s') ∧ x'.Wrote p s' (ts ++ [t]) := by
  obtain ⟨x₁, s₁, hheader, hx₁, h₁⟩ := ensureHeader_ok h
  obtain ⟨b, d, hwrite, hb⟩ := h₁.write (String.ofList (row t))
  refine ⟨_, _, ?_, wrote_of_headed (x := { x₁ with
    output := b, tally := x₁.tally.countExported }) (s := s₁.setDisk d) hx₁ ?_⟩
  · rw [exportTable, hheader]
    dsimp only
    rw [hwrite]
  · rw [Csv.text_concat]
    exact hb

theorem finish_ok (h : x.Wrote p s ts) :
    ∃ x' s', x.finish s = (.ok (), x', s') ∧ x'.Wrote p s' ts ∧
      s'.disk.readFile p = .ok (Text.encode (Csv.text ts)) := by
  obtain ⟨x₁, s₁, hheader, hx₁, h₁⟩ := ensureHeader_ok h
  obtain ⟨b, d, hflush, hb, hread⟩ := h₁.flush
  unfold finish
  rw [hheader]
  dsimp only
  rw [hflush]
  exact ⟨_, _, rfl, wrote_of_headed hx₁ hb, hread⟩

/-- The same of the exporter as it is used. -/
def Inv (p : Path) (y : Exporter) (s : Site) (ts : List TableStats) : Prop :=
  ∃ x, y = .csv x ∧ x.Wrote p s ts

theorem inv_exportTable {y : Exporter} (h : Inv p y s ts) (t : TableStats) :
    ∃ y' s', StatsExporter.exportTable y t s = (.ok (), y', s') ∧ Inv p y' s' (ts ++ [t]) := by
  obtain ⟨x, rfl, hx⟩ := h
  obtain ⟨x', s', hexport, hx'⟩ := exportTable_ok hx t
  exact ⟨.csv x', s', congrArg (Exporter.wrap .csv) hexport, x', rfl, hx'⟩

theorem inv_finish {y : Exporter} (h : Inv p y s ts) :
    ∃ y' s', StatsExporter.finish y s = (.ok (), y', s') ∧ Inv p y' s' ts ∧
      s'.disk.readFile p = .ok (Text.encode (Csv.text ts)) := by
  obtain ⟨x, rfl, hx⟩ := h
  obtain ⟨x', s', hfinish, hx', hread⟩ := finish_ok hx
  exact ⟨.csv x', s', congrArg (Exporter.wrap .csv) hfinish, ⟨x', rfl, hx'⟩, hread⟩

end CsvExport

theorem Exporter.createCsv_ok {p : Path} {overwrite : Bool} {s s' : Site} {x : Exporter}
    (h : createCsv p overwrite s = (.ok x, s'))
    (hfile : ∃ l c, s'.disk.stat p = .ok (l, .file c)) :
    ∃ b, x = .csv ⟨b, .opened, false⟩ ∧ b.Fills p s'.disk "" ∧ b.capacity = Export.bufferSize := by
  unfold createCsv CsvExport.create at h
  cases hopen : Export.openTarget p overwrite s with
  | mk r s₁ =>
    rw [hopen] at h
    cases r with
    | error e => cases h
    | ok b =>
      cases h
      obtain ⟨hleads, hcarries, hcapacity⟩ := Export.openTarget_ok hopen
      exact ⟨b, rfl, .of_stat hcarries hleads hfile, hcapacity⟩

/-- The exporter with a buffer of another size. -/
def Exporter.buffered (capacity : Nat) : Exporter → Exporter
  | .csv x => .csv { x with output := { x.output with capacity := capacity } }
  | .json x => .json { x with output := { x.output with capacity := capacity } }
  | .rehearsal x => .rehearsal x

namespace CsvExport

/-- Whatever an exporter to a regular file is asked for, once it is asked to finish the file has the
records of all tables, each in one record behind the names of the columns. The buffer that it goes
through does not show. -/
theorem finished_parses {p : Path} {overwrite : Bool} {s s₀ : Site} {x : Exporter}
    (hcreate : Exporter.createCsv p overwrite s = (.ok x, s₀))
    (hfile : ∃ l c, s₀.disk.stat p = .ok (l, .file c)) (asked : List Request) :
    x.buffered Export.bufferSize = x ∧
      ∃ text, Csv.parse text =
          some (Csv.columns :: (asked.flatMap Request.tables).map Csv.fields) ∧
        ∀ capacity, ∃ x' s',
          Request.answerAll (x.buffered capacity) s₀ (asked ++ [Request.finish]) =
            ((asked ++ [Request.finish]).map fun _ => .ok (), x', s') ∧
          s'.disk.readFile p = .ok (Text.encode text) ∧ s'.disk.readText p = .ok text := by
  obtain ⟨b, rfl, hfills, hcapacity⟩ := Exporter.createCsv_ok hcreate hfile
  refine ⟨?_, Csv.text (asked.flatMap Request.tables), Csv.parse_text _, fun capacity => ?_⟩
  · rw [← hcapacity]
    rfl
  have hstart : Inv p (.csv ⟨{ b with capacity := capacity }, .opened, false⟩) s₀ [] :=
    ⟨_, rfl, hfills.capacity capacity, fun _ => rfl⟩
  have hkeeps : Request.finish ∈ asked → ∀ {y s ts}, Inv p y s ts → ∃ y' s',
      StatsExporter.finish y s = (.ok (), y', s') ∧ Inv p y' s' ts := by
    intro _ y s ts h
    obtain ⟨y', s', hfinish, h', -⟩ := inv_finish h
    exact ⟨y', s', hfinish, h'⟩
  have hlast : ∀ {y s ts}, Inv p y s ts → ∃ y' s', StatsExporter.finish y s = (.ok (), y', s') ∧
      s'.disk.readFile p = .ok (Text.encode (Csv.text ts)) := by
    intro y s ts h
    obtain ⟨y', s', hfinish, -, hread⟩ := inv_finish h
    exact ⟨y', s', hfinish, hread⟩
  obtain ⟨x', s', hanswers, hread⟩ :=
    Request.answerAll_finish inv_exportTable hkeeps hlast hstart
  exact ⟨x', s', hanswers, hread, Disk.readText_encode hread⟩

/-- A table with all the characters in its name that a field can end with. -/
def awkward : TableStats := ⟨"a,\"b\"\r\n", 7, 1, 18446744073709551615, 90⟩

/-- An export that has just been opened, in a directory that was not there. -/
def awkwardOpened : Except Failure Exporter × Site :=
  Exporter.createCsv ⟨"out/stats.csv"⟩ false (.ofDisk .blank)

theorem finished_parses_awkward :
    ∃ x s₀, awkwardOpened = (.ok x, s₀) ∧
      (∃ l c, s₀.disk.stat ⟨"out/stats.csv"⟩ = .ok (l, .file c)) ∧
      ∃ text, Csv.parse text = some [Csv.columns,
          ["a,\"b\"\r\n", "7", "1", "18446744073709551615", "90"], ["", "0", "0", "0", "0"]] ∧
        ∃ x' s', Request.answerAll (x.buffered 60) s₀
            [.table awkward, .finish, .batch [.zero ""], .finish] =
              ([.ok (), .ok (), .ok (), .ok ()], x', s') ∧
          s'.disk.readText ⟨"out/stats.csv"⟩ = .ok text := by
  have hcreate : awkwardOpened.1 = .ok (.csv ⟨⟨⟨.ofNames ["work", "out", "stats.csv"], 0⟩,
      Export.bufferSize, .empty⟩, .opened, false⟩) := by
    decide +kernel
  have hfile : awkwardOpened.2.disk.stat ⟨"out/stats.csv"⟩ =
      .ok (.ofNames ["work", "out", "stats.csv"], .file .empty) := by
    decide +kernel
  obtain ⟨-, text, hparse, hanswers⟩ := finished_parses (Prod.ext hcreate rfl) ⟨_, _, hfile⟩
    [.table awkward, .finish, .batch [.zero ""]]
  obtain ⟨x', s', hanswers, -, hread⟩ := hanswers 60
  refine ⟨_, _, Prod.ext hcreate rfl, ⟨_, _, hfile⟩, text, ?_, x', s', hanswers, hread⟩
  rw [hparse]
  decide +kernel

end CsvExport
end DumpRouter
