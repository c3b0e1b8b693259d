import DumpRouter.Proofs.Export.JsonWritten
import DumpRouter.Proofs.Export.Requests

/-!
# DumpRouter.Proofs.Export.Json

The file of an export as JSON.

* `JsonExport.Wrote`: what an export in progress has written, kept by every table.
* `JsonExport.finished_parses_array`: the file of an export that has been finished, read again.
-/

namespace DumpRouter
namespace JsonExport

/-- The export has written the tables `ts`, in this order, and is not finished. -/
structure Wrote (p : Path) (pretty : Bool) (x : JsonExport) (s : Site) (ts : List TableStats) :
    Prop where
  fills : x.output.Fills p s.disk (String.ofList (Json.begun pretty ts))
  fresh : x.fresh = ts.isEmpty
  spread : x.pretty = pretty

variable {p : Path} {pretty : Bool} {x : JsonExport} {s : Site} {ts : List TableStats}

theorem bytes_eq (cs : List Char) : bytes cs = Text.encode (String.ofList cs) := rfl

/-- The texts that are written for a table. -/
def texts (x : JsonExport) (t : TableStats) : List String :=
  (if x.fresh then [] else [String.ofList (separator x.pretty)]) ++
    [String.ofList (record x.pretty t)]

theorem exportTable_ok (h : x.Wrote p pretty s ts) (t : TableStats) :
    ∃ x' s', x.exportTable t s = (.ok (), x', s') ∧ x'.Wrote p pretty s' (ts ++ [t]) := by
  obtain ⟨hfills, hfresh, rfl⟩ := h
  have hchunks : (if x.fresh then [] else [bytes (separator x.pretty)]) ++
      [bytes (record x.pretty t)] = (x.texts t).map Text.encode := by
    unfold texts
    cases x.fresh <;> rfl
  obtain ⟨b, d, hwrite, hb⟩ := hfills.writeChunks (x.texts t)
  have hbegun : b.Fills p d (String.ofList (Json.begun x.pretty (ts ++ [t]))) := by
    rw [Json.begun_concat, ← hfresh]
    unfold texts at hb
    cases hx : x.fresh with
    | true => simpa [hx] using hb
    | false => simpa [hx, String.append_assoc] using hb
  unfold exportTable
  dsimp only
  rw [hchunks, hwrite]
  exact ⟨_, _, rfl, hbegun, by simp, rfl⟩

theorem finish_ok (h : x.Wrote p pretty s ts) :
    ∃ x' s', x.finish s = (.ok (), x', s') ∧
      s'.disk.readFile p = .ok (Text.encode (String.ofList (Json.document pretty ts))) := by
  obtain ⟨hfills, hfresh, rfl⟩ := h
  obtain ⟨b, d, hwrite, hb⟩ := hfills.write (String.ofList (closing x.pretty x.fresh))
  obtain ⟨b', d', hflush, -, hread⟩ := hb.flush
  rw [← String.ofList_append, hfresh] at hread
  unfold finish
  rw [bytes_eq, hwrite]
  dsimp only
  rw [hflush]
  exact ⟨_, _, rfl, hread⟩

/-- The same of the exporter as it is used. -/
def Inv (p : Path) (pretty : Bool) (y : Exporter) (s : Site) (ts : List TableStats) : Prop :=
  ∃ x, y = .json x ∧ x.Wrote p pretty s ts

theorem inv_exportTable {y : Exporter} (h : Inv p pretty y s ts) (t : TableStats) :
    ∃ y' s', StatsExporter.exportTable y t s = (.ok (), y', s') ∧
      Inv p pretty y' s' (ts ++ [t]) := by
  obtain ⟨x, rfl, hx⟩ := h
  obtain ⟨x', s', hexport, hx'⟩ := exportTable_ok hx t
  exact ⟨.json x', s', congrArg (Exporter.wrap .json) hexport, x', rfl, hx'⟩

theorem inv_finish {y : Exporter} (h : Inv p pretty y s ts) :
    ∃ y' s', StatsExporter.finish y s = (.ok (), y', s') ∧
      s'.disk.readFile p = .ok (Text.encode (String.ofList (Json.document pretty ts))) := by
  obtain ⟨x, rfl, hx⟩ := h
  obtain ⟨x', s', hfinish, hread⟩ := finish_ok hx
  exact ⟨.json x', s', congrArg (Exporter.wrap .json) hfinish, hread⟩

theorem inv_createJson {overwrite : Bool} {y : Exporter} {s' : Site}
    (h : Exporter.createJson p overwrite pretty s = (.ok y, s'))
    (hfile : ∃ l c, s'.disk.stat p = .ok (l, .file c)) : Inv p pretty y s' [] := by
  unfold Exporter.createJson create at h
  cases hopen : Export.openTarget p overwrite s with
  | mk r s₁ =>
    rw [hopen] at h
    cases r with
    | error e => cases h
    | ok b =>
      obtain ⟨hleads, hcarries, -⟩ := Export.openTarget_ok hopen
      have hleaves := Buffered.write_leaves hcarries (bytes (opening pretty))
      dsimp only at h
      cases hwrite : b.write (bytes (opening pretty)) s₁.disk with
      | mk r y =>
        obtain ⟨b', d⟩ := y
        rw [hwrite] at h hleaves
        cases r with
        | error f => cases h
        | ok _ =>
          cases h
          have hleads' := hleads.sameTree hleaves.touches.tree
          rw [← hleaves.location] at hleads'
          have hbegun : Json.begun pretty [] = opening pretty := by simp [Json.begun]
          refine ⟨_, rfl, .of_stat ?_ hleads' hfile, rfl, rfl⟩
          rw [hbegun]
          exact hleaves.carries rfl

/-- The tables that an exporter to a regular file gets before it is finished are a JSON document
afterwards: an array with an object for each table, in their order. -/
theorem finished_parses_array {p : Path} {overwrite pretty : Bool} {s s₀ : Site} {x : Exporter}
    (hcreate : Exporter.createJson p overwrite pretty s = (.ok x, s₀))
    (hfile : ∃ l c, s₀.disk.stat p = .ok (l, .file c)) {asked : List Request}
    (hasked : Request.finish ∉ asked) :
    ∃ text x' s',
      Request.answerAll x s₀ (asked ++ [Request.finish]) =
        ((asked ++ [Request.finish]).map fun _ => .ok (), x', s') ∧
      s'.disk.readFile p = .ok (Text.encode text) ∧ s'.disk.readText p = .ok text ∧
      Json.parse text =
        some (.array ((asked.flatMap Request.tables).map fun t => .object (Json.fields t))) := by
  have hnone : Request.finish ∈ asked → ∀ {y s ts}, Inv p pretty y s ts → ∃ y' s',
      StatsExporter.finish y s = (.ok (), y', s') ∧ Inv p pretty y' s' ts :=
    fun hmem => absurd hmem hasked
  obtain ⟨x', s', hanswers, hread⟩ := Request.answerAll_finish inv_exportTable hnone inv_finish
    (inv_createJson hcreate hfile)
  exact ⟨_, x', s', hanswers, hread, Disk.readText_encode hread, Json.parse_document pretty _⟩

/-- A table with characters in its name that a string cannot have as they are. -/
def awkward : TableStats := ⟨"a\"\\\r\n\x01é", 7, 1, 18446744073709551615, 90⟩

/-- An export with indentation that has just been opened, in a directory that was not there. -/
def awkwardOpened : Except Failure Exporter × Site :=
  Exporter.createJson ⟨"out/stats.json"⟩ false true (.ofDisk .blank)

theorem finished_parses_array_awkward :
    ∃ x s₀, awkwardOpened = (.ok x, s₀) ∧
      (∃ l c, s₀.disk.stat ⟨"out/stats.json"⟩ = .ok (l, .file c)) ∧
      Request.finish ∉ [.table awkward, .table (.zero "")] ∧
      ∃ text x' s',
        Request.answerAll x s₀ [.table awkward, .table (.zero ""), .finish] =
          ([.ok (), .ok (), .ok ()], x', s') ∧
        s'.disk.readText ⟨"out/stats.json"⟩ = .ok text ∧
        Json.parse text = some (.array [
          .object [("table_name", .string "a\"\\\r\n\x01é"), ("insert_count", .number 7 0),
            ("create_count", .number 1 0), ("statement_count", .number 18446744073709551615 0),
            ("total_bytes", .number 90 0)],
          .object [("table_name", .string ""), ("insert_count", .number 0 0),
            ("create_count", .number 0 0), ("statement_count", .number 0 0),
            ("total_bytes", .number 0 0)]]) := by
  have hcreate : awkwardOpened.1 = .ok (.json ⟨⟨⟨.ofNames ["work", "out", "stats.json"], 0⟩,
      Export.bufferSize, Bytes.pack [91, 10]⟩, .opened, true, true⟩) := by
    decide +kernel
  have hfile : awkwardOpened.2.disk.stat ⟨"out/stats.json"⟩ =
      .ok (.ofNames ["work", "out", "stats.json"], .file .empty) := by
    decide +kernel
  have hasked : Request.finish ∉ [.table awkward, .table (.zero "")] := by decide
  obtain ⟨text, x', s', hanswers, -, hread, hparse⟩ :=
    finished_parses_array (Prod.ext hcreate rfl) ⟨_, _, hfile⟩ hasked
  exact ⟨_, _, Prod.ext hcreate rfl, ⟨_, _, hfile⟩, hasked, text, x', s', hanswers, hread, hparse⟩

end JsonExport
end DumpRouter
