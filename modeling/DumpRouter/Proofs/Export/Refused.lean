import Mathlib.Data.List.Forall2
import DumpRouter.Job.Export
import DumpRouter.Proofs.Disk.Keeps
import DumpRouter.Proofs.Export.Apart

/-!
# DumpRouter.Proofs.Export.Refused

An export that is refused, since a file is there already that may not be overwritten. The files are
opened one after the other, so by then those in front of the refused one are open, and some of them
have been emptied. Nothing else is lost.

* `Export.Entry`: where an export goes, and whether it may overwrite what is there.
* `Export.Opens`: what it means for the disk to open an export, or to refuse it.
* `Export.Opened`: the disk and the exporters when some entries are open; `openAll_refused` is the
  induction over the others.
* `ExportSettings.exportTables_refused`: what is left of the files when an export is refused.
-/

namespace DumpRouter
namespace Export

/-- Where an export goes, and whether a file that is there may be overwritten. -/
structure Entry where
  path : Path
  overwrite : Bool
  deriving DecidableEq, Repr

/-- The places of the files that some entries may overwrite. -/
def Overwritable (es : List Entry) (d : Disk) (l : Location) : Prop :=
  ∃ e ∈ es, e.overwrite = true ∧ d.Leads e.path l

theorem Overwritable.mono {es es' : List Entry} {d d' : Disk} {l : Location}
    (h : Overwritable es d l) (hes : es ⊆ es') (hd : d.KeepsDirectories d') :
    Overwritable es' d' l := by
  obtain ⟨e, he, ho, hl⟩ := h
  exact ⟨e, hes he, ho, hl.keeps hd⟩

theorem makeParent_adds (p : Path) (d : Disk) : d.AddsDirectories (makeParent p d).2 := by
  unfold makeParent
  split
  · exact Disk.mkdirAll_adds d _
  · exact .refl d

/-! ## One entry -/

/-- The exporter of an entry: it is opened where its path leads, on a file that may be overwritten
or where nothing was, or it is refused for a file that may not. -/
structure Opens (e : Entry) (o : Site → Except Failure Exporter × Site) : Prop where
  ok : ∀ {s x s'}, o s = (.ok x, s') → ∃ l, x.footprint = .at_ l ∧ s'.disk.Leads e.path l ∧
    (e.overwrite = true ∨ s.disk.node? l = none) ∧
    s.disk.Keeps (fun k => e.overwrite = true ∧ k = l) s'.disk
  refused : ∀ {s p s'}, o s = (.error (.config (.exportExists p)), s') →
    p = e.path ∧ e.overwrite = false ∧ s.disk.AddsDirectories s'.disk

theorem openTarget_opens {e : Entry} {s s' : Site} {w : Buffered}
    (h : openTarget e.path e.overwrite s = (.ok w, s')) :
    s'.disk.Leads e.path w.handle.location ∧
      (e.overwrite = true ∨ s.disk.node? w.handle.location = none) ∧
      s.disk.Keeps (fun k => e.overwrite = true ∧ k = w.handle.location) s'.disk := by
  obtain ⟨hleads, -, -⟩ := openTarget_ok h
  have hadds := makeParent_adds e.path s.disk
  unfold openTarget at h
  rcases hparent : makeParent e.path s.disk with ⟨_ | _, d⟩
  · rw [hparent] at h
    cases h
  · rw [hparent] at h hadds
    dsimp only at h
    unfold Buffered.create at h
    rcases hc : d.create e.path (!e.overwrite) with _ | ⟨l, d'⟩
    · rw [hc] at h
      cases h
    · rw [hc] at h
      cases h
      have hkeeps := Disk.create_keeps hc
      simp only [Bool.not_eq_false'] at hkeeps
      refine ⟨hleads, ?_, (hadds.keeps _).trans hkeeps fun _ => .inl⟩
      cases ho : e.overwrite with
      | true => exact .inl rfl
      | false =>
        rw [ho] at hc
        exact .inr ((hadds.keeps fun _ => False).none (Disk.create_fresh hc))

theorem refusal_exists {p q : Path} {overwrite : Bool} {f : Fault}
    (h : refusal p overwrite f = .config (.exportExists q)) : q = p ∧ overwrite = false := by
  unfold refusal at h
  split at h
  · next hf =>
    cases h
    exact ⟨rfl, by simp_all⟩
  · cases h

theorem openTarget_refused {p q : Path} {overwrite : Bool} {s s' : Site}
    (h : openTarget p overwrite s = (.error (.config (.exportExists q)), s')) :
    q = p ∧ overwrite = false ∧ s.disk.AddsDirectories s'.disk := by
  have hadds := makeParent_adds p s.disk
  unfold openTarget at h
  rcases hparent : makeParent p s.disk with ⟨f | _, d⟩
  · rw [hparent] at h
    cases h
  · rw [hparent] at h hadds
    dsimp only at h
    rcases hc : Buffered.create d p (!overwrite) bufferSize with f | ⟨w, d'⟩
    · rw [hc] at h
      obtain ⟨hfailure, hsite⟩ := Prod.mk.inj h
      obtain ⟨hq, ho⟩ := refusal_exists (Except.error.inj hfailure)
      refine ⟨hq, ho, ?_⟩
      rw [← hsite, Except.error.inj hfailure]
      exact hadds
    · rw [hc] at h
      cases h

theorem createCsv_opens (e : Entry) : Opens e (Exporter.createCsv e.path e.overwrite) where
  ok {s x s'} h := by
    unfold Exporter.createCsv CsvExport.create at h
    rcases ho : openTarget e.path e.overwrite s with ⟨_ | w, s₁⟩
    · rw [ho] at h
      cases h
    · rw [ho] at h
      cases h
      exact ⟨_, rfl, openTarget_opens ho⟩
  refused {s p s'} h := by
    unfold Exporter.createCsv CsvExport.create at h
    rcases ho : openTarget e.path e.overwrite s with ⟨f | w, s₁⟩
    · rw [ho] at h
      cases h
      exact openTarget_refused ho
    · rw [ho] at h
      cases h

theorem createJson_opens (e : Entry) (pretty : Bool) :
    Opens e fun s => Exporter.createJson e.path e.overwrite pretty s where
  ok {s x s'} h := by
    unfold Exporter.createJson JsonExport.create at h
    rcases ho : openTarget e.path e.overwrite s with ⟨_ | w, s₁⟩
    · rw [ho] at h
      cases h
    · rw [ho] at h
      dsimp only at h
      obtain ⟨hleads, hplace, hkeeps⟩ := openTarget_opens ho
      have hstays :=
        (w.write_keepsPlace (JsonExport.bytes (JsonExport.opening pretty))).stays s₁.disk
      have hbracket := w.write_keeps (JsonExport.bytes (JsonExport.opening pretty)) s₁.disk
      rcases hw : w.write (JsonExport.bytes (JsonExport.opening pretty)) s₁.disk with
        ⟨_ | _, w', d⟩
      · rw [hw] at h
        cases h
      · rw [hw] at h hstays hbracket
        cases h
        refine ⟨w.handle.location, hstays, hleads.keeps hbracket.keepsDirectories,
          hplace, hkeeps.trans hbracket fun l hl => ?_⟩
        exact hplace.imp (fun ho => ⟨ho, hl⟩) fun hn => hl ▸ hn
  refused {s p s'} h := by
    unfold Exporter.createJson JsonExport.create at h
    rcases ho : openTarget e.path e.overwrite s with ⟨f | w, s₁⟩
    · rw [ho] at h
      cases h
      exact openTarget_refused ho
    · rw [ho] at h
      dsimp only at h
      rcases hw : w.write (JsonExport.bytes (JsonExport.opening pretty)) s₁.disk with
        ⟨_ | _, w', d⟩
      · rw [hw] at h
        cases h
      · rw [hw] at h
        cases h

/-! ## One entry after the other -/

/-- The disk and the open exporters when the entries `es` are open. -/
structure Opened (d : Disk) (es : List Entry) (m : Multi Exporter) (s : Site) : Prop where
  keeps : d.Keeps (Overwritable es s.disk) s.disk
  places : ∀ e ∈ m, ∀ l, e.1.footprint.writes l → Overwritable es s.disk l ∨ d.node? l = none

theorem Opened.step {d : Disk} {es : List Entry} {m : Multi Exporter} {s s' : Site} {e : Entry}
    {o : Site → Except Failure Exporter × Site} {x : Exporter} (h : Opened d es m s)
    (ho : Opens e o) (hx : o s = (.ok x, s')) : Opened d (es ++ [e]) (m.add x) s' := by
  obtain ⟨l, hfootprint, hleads, hplace, hkeeps⟩ := ho.ok hx
  have hmono : ∀ k, Overwritable es s.disk k → Overwritable (es ++ [e]) s'.disk k :=
    fun k hk => hk.mono (List.subset_append_left es [e]) hkeeps.keepsDirectories
  have hown : e.overwrite = true → Overwritable (es ++ [e]) s'.disk l :=
    fun hover => ⟨e, by simp, hover, hleads⟩
  constructor
  · refine (h.keeps.mono hmono).trans hkeeps fun k hk => .inl ?_
    rw [hk.2]
    exact hown hk.1
  · intro y hy k hk
    rcases List.mem_append.1 hy with hy | hy
    · exact (h.places y hy k hk).imp_left (hmono k)
    · rw [List.mem_singleton.1 hy, hfootprint] at hk
      rw [show k = l from hk]
      exact hplace.imp hown h.keeps.none

/-- New directories do not matter to what is open. -/
theorem Opened.adds {d : Disk} {es : List Entry} {m : Multi Exporter} {s s' : Site}
    (h : Opened d es m s) (hadds : s.disk.AddsDirectories s'.disk) : Opened d es m s' := by
  have hkeeps := hadds.keeps (Overwritable es s.disk)
  have hmono : ∀ k, Overwritable es s.disk k → Overwritable es s'.disk k :=
    fun k hk => hk.mono (List.Subset.refl es) hkeeps.keepsDirectories
  exact ⟨(h.keeps.trans hkeeps fun _ => .inl).mono hmono,
    fun y hy k hk => (h.places y hy k hk).imp_left (hmono k)⟩

end Export

/-! ## Exporters that are given up -/

theorem Exporter.drop_keeps (x : Exporter) (s : Site) :
    s.disk.Keeps x.footprint.writes (x.drop s).disk := by
  cases x with
  | csv x => exact x.output.flush_keeps s.disk
  | json x => exact x.output.flush_keeps s.disk
  | rehearsal x => exact .refl _ _

theorem Multi.drop_keeps {d : Disk} {P : Location → Prop} {m : Multi Exporter} {s : Site}
    (hm : ∀ e ∈ m, ∀ l, e.1.footprint.writes l → P l ∨ d.node? l = none)
    (h : d.Keeps P s.disk) : d.Keeps P (m.drop s).disk := by
  induction m generalizing s with
  | nil => exact h
  | cons e m ih =>
    exact ih (fun e' he' => hm e' (by simp [he']))
      (h.trans (e.1.drop_keeps s) (hm e (by simp)))

namespace Export

/-- When exporters are given up their files are where they were. -/
theorem Opened.drop {d : Disk} {es : List Entry} {m : Multi Exporter} {s : Site}
    (h : Opened d es m s) : d.Keeps (Overwritable es (m.drop s).disk) (m.drop s).disk := by
  have hdrop : s.disk.Keeps (fun _ => True) (m.drop s).disk :=
    Multi.drop_keeps (fun _ _ _ _ => .inl trivial) (.refl _ _)
  exact (Multi.drop_keeps h.places h.keeps).mono fun l hl =>
    hl.mono (List.Subset.refl es) hdrop.keepsDirectories

end Export

/-! ## The failures of exporters at the end -/

namespace Exporter

/-- The answer is not that the settings are at fault. -/
def NotConfig (y : Except Failure Unit) : Prop := ∀ f, y ≠ .error (.config f)

theorem ensureHeader_notConfig (x : CsvExport) (s : Site) : NotConfig (x.ensureHeader s).1 := by
  intro f h
  unfold CsvExport.ensureHeader at h
  split at h
  · cases h
  · split at h <;> cases h

theorem finish_notConfig (x : Exporter) (s : Site) : NotConfig (x.finish s).1 := by
  intro f h
  cases x with
  | csv x =>
    have hheader := ensureHeader_notConfig x s
    simp only [finish, wrap, CsvExport.finish] at h
    split at h
    · next hx =>
      rw [hx] at hheader
      exact hheader f h
    · split at h <;> cases h
  | json x =>
    simp only [finish, wrap, JsonExport.finish] at h
    split at h
    · cases h
    · split at h <;> cases h
  | rehearsal x =>
    simp only [finish, wrap, Rehearsal.finish, Rehearsal.fail] at h
    split at h <;> cases h

end Exporter

namespace Multi

theorem verdict_mem {ys : List (Except Failure Unit)} {e : Failure} (h : verdict ys = .error e) :
    .error e ∈ ys := by
  induction ys with
  | nil => cases h
  | cons y ys ih =>
    cases y with
    | ok _ => exact List.mem_cons_of_mem _ (ih h)
    | error e' =>
      cases h
      exact List.mem_cons_self

theorem askEach_answers {ε : Type} [StatsExporter ε] {P : Except Failure Unit → Prop} (r : Request)
    (hP : ∀ (x : ε) s, P (r.answer x s).1) (m : Multi ε) (s : Site) :
    ∀ y ∈ (m.askEach r s).1, P y := by
  induction m generalizing s with
  | nil => simp [askEach]
  | cons e m ih =>
    intro y hy
    rcases List.mem_cons.1 hy with rfl | hy
    · exact hP e.1 s
    · exact ih _ y hy

end Multi

namespace ExportSettings

open Export

/-- The entries in the order in which they are opened. -/
def entries (c : ExportSettings) : List Entry :=
  (c.csv.map fun e => ⟨⟨e.path⟩, e.overwrite⟩) ++ c.json.map fun e => ⟨⟨e.path⟩, e.overwrite⟩

theorem openers_opens (c : ExportSettings) : List.Forall₂ Opens c.entries c.openers := by
  refine List.rel_append ?_ ?_
  · rw [List.forall₂_map_left_iff, List.forall₂_map_right_iff, List.forall₂_same]
    exact fun e _ => createCsv_opens ⟨⟨e.path⟩, e.overwrite⟩
  · rw [List.forall₂_map_left_iff, List.forall₂_map_right_iff, List.forall₂_same]
    exact fun e _ => createJson_opens ⟨⟨e.path⟩, e.overwrite⟩ e.pretty

theorem openAll_refused {es : List Entry} {os : List (Site → Except Failure Exporter × Site)}
    (hopens : List.Forall₂ Opens es os) {d : Disk} {opened : List Entry} {m : Multi Exporter}
    {s s' : Site} (h : Opened d opened m s) {p : Path}
    (hr : openAll m s os = (.error (.config (.exportExists p)), s')) :
    ∃ before e after, es = before ++ e :: after ∧ e.path = p ∧ e.overwrite = false ∧
      d.Keeps (Overwritable (opened ++ before) s'.disk) s'.disk := by
  induction hopens generalizing opened m s with
  | nil => cases hr
  | @cons e o es os ho _ ih =>
    rw [openAll] at hr
    rcases hx : o s with ⟨f | x, s₁⟩
    · rw [hx] at hr
      cases hr
      obtain ⟨hp, hover, hadds⟩ := ho.refused hx
      refine ⟨[], e, es, rfl, hp.symm, hover, ?_⟩
      rw [List.append_nil]
      exact (h.adds hadds).drop
    · rw [hx] at hr
      obtain ⟨before, e', after, hes, hp, hover, hkeeps⟩ := ih (h.step ho hx) hr
      refine ⟨e :: before, e', after, by rw [hes]; rfl, hp, hover, ?_⟩
      rwa [List.append_assoc] at hkeeps

/-- Where an export is refused since a file is there already, that is one of its entries, and may
not be overwritten. What was in a file is in it still, unless an entry in front of that one leads to
it, and may overwrite it. -/
theorem exportTables_refused {c : ExportSettings} {tables : List TableStats} {s s' : Site}
    {p : Path} (h : c.exportTables tables s = (.error (.config (.exportExists p)), s')) :
    ∃ before e after, c.entries = before ++ e :: after ∧ e.path = p ∧ e.overwrite = false ∧
      ∀ q content, s.disk.readFile q = .ok content → s'.disk.readFile q = .ok content ∨
        ∃ e' ∈ before, e'.overwrite = true ∧ ∃ l, s'.disk.Leads e'.path l ∧ s'.disk.Leads q l := by
  have hbuild : c.buildExporters s = (.error (.config (.exportExists p)), s') := by
    unfold exportTables at h
    split at h
    · next hb =>
      cases h
      exact hb
    · split at h
      · cases h
      · next m s₁ _ _ =>
        exfalso
        have hanswers := Multi.askEach_answers (P := Exporter.NotConfig) .finish
          Exporter.finish_notConfig (m.exportBatch s₁ tables).1 (m.exportBatch s₁ tables).2
        have hfinish := congrArg Prod.fst h
        dsimp only at hfinish
        rw [Multi.finishAll_eq] at hfinish
        exact hanswers _ (Multi.verdict_mem hfinish) _ rfl
  have hstart : Opened s.disk [] [] s := ⟨.refl _ _, by simp⟩
  obtain ⟨before, e, after, hentries, hp, hover, hkeeps⟩ :=
    openAll_refused c.openers_opens hstart hbuild
  refine ⟨before, e, after, hentries, hp, hover, fun q content hq => ?_⟩
  refine (hkeeps.readFile hq).imp_right ?_
  rintro ⟨l, ⟨e', he', hover', hleads'⟩, hleads⟩
  exact ⟨e', he', hover', l, hleads', hleads⟩

/-! Three files that are there already, the second of which may not be overwritten. -/

def secondRefused : ExportSettings where
  csv := [⟨"a.csv", true⟩, ⟨"b.csv", false⟩]
  json := [⟨"c.json", true, true⟩]

def allThere : Site :=
  .ofDisk (((Disk.blank.place ⟨"a.csv"⟩ (some [97])).place ⟨"b.csv"⟩ (some [98])).place
    ⟨"c.json"⟩ (some [99]))

theorem exportTables_second : ∃ s', secondRefused.exportTables [] allThere =
    (.error (.config (.exportExists ⟨"b.csv"⟩)), s') ∧ s'.disk.readFile ⟨"a.csv"⟩ = .ok [] := by
  have hrefused : (secondRefused.exportTables [] allThere).1 =
      .error (.config (.exportExists ⟨"b.csv"⟩)) := by
    decide +kernel
  have hemptied : (secondRefused.exportTables [] allThere).2.disk.readFile ⟨"a.csv"⟩ = .ok [] := by
    decide +kernel
  rcases hx : secondRefused.exportTables [] allThere with ⟨y, s'⟩
  rw [hx] at hrefused hemptied
  exact ⟨s', congrArg (·, s') hrefused, hemptied⟩

/-- The file behind the one that is refused has what it had. -/
theorem exportTables_refused_second :
    allThere.disk.readFile ⟨"c.json"⟩ = .ok [99] ∧
      ∃ s', secondRefused.exportTables [] allThere =
          (.error (.config (.exportExists ⟨"b.csv"⟩)), s') ∧
        s'.disk.readFile ⟨"c.json"⟩ = .ok [99] := by
  have hthere : allThere.disk.readFile ⟨"c.json"⟩ = .ok [99] := by decide +kernel
  obtain ⟨s', hs', -⟩ := exportTables_second
  obtain ⟨before, e, after, hentries, hp, -, hkept⟩ := exportTables_refused hs'
  refine ⟨hthere, s', hs', (hkept _ _ hthere).resolve_right ?_⟩
  rintro ⟨e', he', -, l, hleads', hleads⟩
  -- only the first entry stands in front of the refused one
  have hfirst : e' = ⟨⟨"a.csv"⟩, true⟩ := by
    have hthree : [⟨⟨"a.csv"⟩, true⟩, ⟨⟨"b.csv"⟩, false⟩, ⟨⟨"c.json"⟩, true⟩] =
        before ++ e :: after := hentries
    rcases before with _ | ⟨x, _ | ⟨y, before⟩⟩
    · cases he'
    · simp only [List.cons_append, List.cons.injEq] at hthree
      rw [List.mem_singleton.1 he', hthree.1]
    · simp only [List.cons_append, List.cons.injEq] at hthree
      have he : e ∈ before ++ e :: after := by simp
      rw [← hthree.2.2] at he
      rw [List.mem_singleton.1 he] at hp
      exact absurd hp (by decide)
  have hjoin : ∀ name, (⟨""⟩ : Path).join ⟨name⟩ = ⟨name⟩ := by simp [Path.join]
  rw [hfirst, ← hjoin] at hleads'
  rw [← hjoin] at hleads
  have hsame := Disk.leads_join_inj (by constructor <;> decide +kernel)
    (by constructor <;> decide +kernel) hleads' hleads
  exact absurd hsame (by decide)

/-- The first file, which may be overwritten, has been emptied by then. -/
theorem not_unchanged_of_refused :
    ¬ ∀ (c : ExportSettings) (tables : List TableStats) (s s' : Site) (p : Path),
      c.exportTables tables s = (.error (.config (.exportExists p)), s') →
        ∀ q content, s.disk.readFile q = .ok content → s'.disk.readFile q = .ok content := by
  intro h
  obtain ⟨s', hs', hafter⟩ := exportTables_second
  have hbefore : allThere.disk.readFile ⟨"a.csv"⟩ = .ok [97] := by decide +kernel
  cases hafter.symm.trans (h _ _ _ _ _ hs' _ _ hbefore)

end ExportSettings
end DumpRouter
