import DumpRouter.Proofs.Reader.Lossless

/-!
# DumpRouter.Proofs.Reader.Dump

A dump as a list of statements: those that a reader gives before its first call that gives none, and
the failure of that call, if it is one. `Reader.dump` makes it of the events of a source alone.

`cut_rest_lt`: each statement uses up events. `induction_read` is the induction that goes with it,
for loops that read statement after statement.
-/

namespace DumpRouter
namespace Reader

/-- The statements of a dump, and the failure behind the last one. -/
structure Dump where
  statements : List Statement
  fault : Option Fault
  deriving DecidableEq, Repr

theorem atEnd_length_le {es es' : List Script.Event} (h : Script.AtEnd es es') :
    es'.length ≤ es.length := by
  cases h <;> simp

theorem cut_rest_lt {es : List Script.Event} {t : Statement}
    (h : (cut .code [] es).outcome = .statement t) :
    (cut .code [] es).rest.length < es.length := by
  obtain ⟨mid, he, hends⟩ := cut_code_ends es
  have hlen : es.length = (cut .code [] es).used.length + mid.length := by
    simpa using congrArg List.length he
  have pos : ∀ {u : Bytes} {b : UInt8}, b ∈ u → 0 < u.length := List.length_pos_of_mem
  rw [h] at hends
  cases hends with
  | terminated _ _ hlast =>
    have := pos (List.mem_of_getLast? hlast)
    omega
  | cutOff _ hblank hend =>
    obtain ⟨b, hb, -⟩ := hblank
    have := pos hb
    have := atEnd_length_le hend
    omega

/-- The dump that the events of a source make. -/
def dump (es : List Script.Event) : Dump :=
  match _h : (cut .code [] es).outcome with
  | .statement t =>
    let d := dump (cut .code [] es).rest
    ⟨t :: d.statements, d.fault⟩
  | .finished => ⟨[], none⟩
  | .failed f => ⟨[], some f⟩
termination_by es.length
decreasing_by exact cut_rest_lt _h

section

variable {es : List Script.Event}

theorem dump_statement {t : Statement} (h : (cut .code [] es).outcome = .statement t) :
    dump es = ⟨t :: (dump (cut .code [] es).rest).statements,
      (dump (cut .code [] es).rest).fault⟩ := by
  rw [dump]
  split
  · next t' h' =>
    cases h.symm.trans h'
    rfl
  · next h' => cases h.symm.trans h'
  · next h' => cases h.symm.trans h'

theorem dump_finished (h : (cut .code [] es).outcome = .finished) : dump es = ⟨[], none⟩ := by
  rw [dump]
  split
  · next h' => cases h.symm.trans h'
  · rfl
  · next h' => cases h.symm.trans h'

theorem dump_failed {f : Fault} (h : (cut .code [] es).outcome = .failed f) :
    dump es = ⟨[], some f⟩ := by
  rw [dump]
  split
  · next h' => cases h.symm.trans h'
  · next h' => cases h.symm.trans h'
  · next f' h' =>
    cases h.symm.trans h'
    rfl

end

/-- Induction on what the source of a reader still holds: a statement that is read uses up some of
it. -/
@[elab_as_elim]
theorem induction_read {motive : Reader → Prop}
    (step : ∀ r : Reader,
      (∀ d t r', r.read d = (.statement t, r') → motive r'.takeReports.2) → motive r)
    (r : Reader) : motive r := by
  induction hn : r.remaining using Nat.strongRecOn generalizing r with
  | _ n ih =>
    refine step r fun d t r' hr => ih _ ?_ _ rfl
    rw [remaining_takeReports, ← hn]
    exact remaining_read_lt hr

end Reader
end DumpRouter
