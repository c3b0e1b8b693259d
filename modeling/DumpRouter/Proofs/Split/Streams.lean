import DumpRouter.Proofs.Reader.Dump
import DumpRouter.Split

/-!
# DumpRouter.Proofs.Split.Streams

The loop of a run as a relation: statements are routed one after the other, up to the end of the
dump or the first failure. Portions, interruptions and reports of the meter do not occur in it, so
what holds of a run is proved by induction on the statements.

* `Splitter.Streams`: the relation.
* `route_eq`, `stream_eq`: one statement, and one turn of the loop.
* `stream_streams`: it is what `Splitter.stream` does with the dump ahead of a reader.
-/

namespace DumpRouter

theorem Site.note_noteAll (s : Site) (es : List Event) (e : Event) :
    (s.noteAll es).note e = s.noteAll (es ++ [e]) := by
  simp [Site.noteAll]

namespace Splitter

/-- A splitter `sp` at the site `s` that streams the statements of a dump, which ends with `fault`,
comes to the outcome `x`. Between the statements anything may be noted in the journal. -/
inductive Streams : Splitter → Site → List Statement → Option Fault → Except Failure Unit →
    Splitter → Site → Prop where
  | finished {sp : Splitter} {s : Site} (notes : List Event) :
      Streams sp s [] none (.ok ()) sp (s.noteAll notes)
  | failed {sp : Splitter} {s : Site} (notes : List Event) (fault : Fault) :
      Streams sp s [] (some fault) (.error (.read fault)) sp (s.noteAll notes)
  | broken {sp sp' : Splitter} {s s' : Site} {t : Statement} {ts : List Statement}
      {fault : Option Fault} {e : Failure} (notes : List Event) :
      sp.route t (s.noteAll notes) = (.error e, sp', s') →
      Streams sp s (t :: ts) fault (.error e) sp' s'
  | routed {sp sp₁ sp' : Splitter} {s s₁ s' : Site} {t : Statement} {ts : List Statement}
      {fault : Option Fault} {x : Except Failure Unit} (notes : List Event) :
      sp.route t (s.noteAll notes) = (.ok (), sp₁, s₁) →
      Streams sp₁ s₁ ts fault x sp' s' → Streams sp s (t :: ts) fault x sp' s'

/-- One statement, with the counters that it leaves. -/
theorem route_eq (sp : Splitter) (t : Statement) (s : Site) :
    sp.route t s =
      match sp.destination? t with
      | none => (.ok (), { sp with stats := sp.stats.countRead }, s)
      | some table =>
        match sp.deliver table t s with
        | (.error e, p, s') => (.error e, { sp with pool := p, stats := sp.stats.countRead }, s')
        | (.ok (), p, s') =>
          (.ok (), { sp with
            pool := p
            stats := sp.stats.countRead.countRouted table t.length }, s') := rfl

/-- The loop without the evidence that it ends. -/
theorem stream_eq (sp : Splitter) (r : Reader) (s : Site) :
    sp.stream r s =
      match r.read s.disk with
      | (x, r') =>
        let s := s.noteAll (r'.takeReports.1.map .progress)
        match x with
        | .finished => (.ok (), sp, s)
        | .failed f => (.error (.read f), sp, s.note .readFailed)
        | .statement t =>
          match sp.route t s with
          | (.error e, sp', s') => (.error e, sp', s')
          | (.ok (), sp', s') => sp'.stream r'.takeReports.2 s' := by
  rw [stream]
  split
  next x r' h =>
    conv_rhs => rw [h]
    cases x with
    | finished => rfl
    | failed f => rfl
    | statement t => rfl

theorem stream_streams (sp : Splitter) (s : Site) {r : Reader} {es : List Script.Event}
    (h : r.Ahead es) :
    Streams sp s (Reader.dump es).statements (Reader.dump es).fault (sp.stream r s).1
      (sp.stream r s).2.1 (sp.stream r s).2.2 := by
  induction r using Reader.induction_read generalizing sp s es with
  | _ r ih =>
    obtain ⟨ho, ha, -⟩ := Reader.read_cut h s.disk
    rw [stream_eq]
    cases hr : r.read s.disk with
    | mk x r' =>
      rw [hr] at ho ha
      cases x with
      | finished =>
        rw [Reader.dump_finished ho.symm]
        exact .finished _
      | failed f =>
        rw [Reader.dump_failed ho.symm]
        dsimp only
        rw [Site.note_noteAll]
        exact .failed _ f
      | statement t =>
        rw [Reader.dump_statement ho.symm]
        dsimp only
        cases hroute : sp.route t (s.noteAll (r'.takeReports.1.map .progress)) with
        | mk y z =>
          cases y with
          | error e => exact .broken _ hroute
          | ok _ => exact .routed _ hroute (ih _ _ _ hr _ _ (Reader.ahead_takeReports ha))

end Splitter
end DumpRouter
