import DumpRouter.Proofs.Reader.Dump

/-!
# DumpRouter.Proofs.Reader.Reread

Statements that were cut out of a dump, written one to a line and read again. They come back in
their order, each with at most a newline in front of it and one behind it.

* `Reader.WellCut`: what statements are like that a dump has been cut into; any of them still are.
* `dump_bytes`: a dump without failures and early ends is cut into such statements.
* `dump_lines`: they are read again.
* `nexts_dump`: the iteration over a dump.
-/

namespace DumpRouter
namespace Reader

/-- Statements that each end with the semicolon that ends them. The last one may lack it. -/
inductive WellCut : List Statement → Prop where
  | nil : WellCut []
  | cutOff {t : Statement} : (Scanner.State.code.scan t.bytes).2 = none →
      (∃ b ∈ t.bytes, Bytes.isBlank b = false) → WellCut [t]
  | terminated {t : Statement} {ts : List Statement} :
      (Scanner.State.code.scan t.bytes).2 = some t.bytes.length → WellCut ts → WellCut (t :: ts)

theorem WellCut.sublist {ts us : List Statement} (h : WellCut ts) (hs : us.Sublist ts) :
    WellCut us := by
  induction h generalizing us with
  | nil =>
    rw [List.sublist_nil.1 hs]
    exact .nil
  | cutOff hscan hblank =>
    rcases List.sublist_singleton.1 hs with rfl | rfl
    · exact .nil
    · exact .cutOff hscan hblank
  | terminated hscan _ ih =>
    cases hs with
    | cons _ hs => exact ih hs
    | cons_cons _ hs => exact .terminated hscan (ih hs)

/-- A source without failures, and without ends before its last byte. -/
def OnlyBytes (es : List Script.Event) : Prop := ∀ e ∈ es, ∃ b, e = .byte b

theorem onlyBytes_map (u : Bytes) : OnlyBytes (u.map .byte) := by
  intro e he
  obtain ⟨b, -, rfl⟩ := List.mem_map.1 he
  exact ⟨b, rfl⟩

theorem wellCut_dump {es : List Script.Event} (h : OnlyBytes es) :
    (dump es).fault = none ∧ WellCut (dump es).statements := by
  -- by induction on the events that are left; only the end of them all can cut a statement off
  induction hn : es.length using Nat.strong_induction_on generalizing es with
  | _ n ih =>
    obtain ⟨mid, he, hends⟩ := cut_code_ends es
    have hmid : OnlyBytes mid := fun e hm => h e (by rw [he]; simp [hm])
    cases ho : (cut .code [] es).outcome with
    | statement t =>
      have hlt := cut_rest_lt ho
      rw [ho] at hends
      rw [dump_statement ho]
      generalize (cut .code [] es).used = u at hends
      generalize (cut .code [] es).rest = rest at hends hlt
      cases hends with
      | terminated _ hscan =>
        obtain ⟨hf, hwell⟩ := ih _ (hn ▸ hlt) hmid rfl
        exact ⟨hf, .terminated hscan hwell⟩
      | cutOff hscan hblank hend =>
        cases hend with
        | exhausted =>
          rw [dump_finished rfl]
          exact ⟨rfl, .cutOff hscan hblank⟩
        | finish =>
          obtain ⟨b, hb⟩ := hmid .finish (by simp)
          cases hb
    | finished =>
      rw [dump_finished ho]
      exact ⟨rfl, .nil⟩
    | failed f =>
      rw [ho] at hends
      cases hends with
      | failed m rest =>
        obtain ⟨b, hb⟩ := hmid (.fault m) (by simp)
        cases hb

/-- The text of statements, a newline behind each. -/
def lines (ts : List Statement) : Bytes := ts.flatMap fun t => t.bytes ++ [10]

/-- What stands around a statement that is read again. -/
def Newline (w : Bytes) : Prop := w = [] ∨ w = [10]

/-- The statement `u` is `t` with at most a newline in front of it and one behind it. -/
def Padded (t u : Statement) : Prop :=
  ∃ lead trail, Newline lead ∧ Newline trail ∧ u.bytes = lead ++ t.bytes ++ trail

theorem scan_lead {lead : Bytes} (h : Newline lead) (t : Bytes) :
    Scanner.State.code.scan (lead ++ t) =
      ((Scanner.State.code.scan t).1, (Scanner.State.code.scan t).2.map (lead.length + ·)) := by
  rcases h with rfl | rfl
  · simp
  · rw [Scanner.State.scan_append]
    rfl

theorem advance_newline (st : Scanner.State) : (st.advance 10).2 = false := by
  cases st <;> rfl

theorem atEnd_statement {u : Bytes} (h : ∃ b ∈ u, Bytes.isBlank b = false) :
    atEnd u = .statement ⟨u⟩ := by
  have hne : Bytes.trim u ≠ [] := by
    rw [Ne, Bytes.trim_eq_nil_iff]
    obtain ⟨b, hb, hblank⟩ := h
    intro hall
    rw [hall b hb] at hblank
    cases hblank
  rw [atEnd, if_neg (by simpa using hne)]

theorem dump_lines {ts : List Statement} (h : WellCut ts) {lead : Bytes} (hl : Newline lead) :
    ∃ us, dump ((lead ++ lines ts).map .byte) = ⟨us, none⟩ ∧ List.Forall₂ Padded ts us := by
  -- the newline behind a statement is the lead of the next one
  induction h generalizing lead with
  | nil =>
    refine ⟨[], dump_finished ?_, .nil⟩
    rcases hl with rfl | rfl <;> rfl
  | @cutOff t hscan hblank =>
    -- a newline ends no statement, so this one still goes on to the end of the source
    have hnone : Scanner.State.code.scan (lead ++ t.bytes) =
        ((Scanner.State.code.scan t.bytes).1, none) := by
      rw [scan_lead hl, hscan]
      rfl
    have hall := Scanner.State.scan_concat hnone 10
    rw [advance_newline] at hall
    have hcut := cut_bytes_none hall [] []
    rw [List.append_nil, List.nil_append] at hcut
    have hsome : ∃ b ∈ lead ++ t.bytes ++ [10], Bytes.isBlank b = false := by
      obtain ⟨b, hb, hne⟩ := hblank
      exact ⟨b, by simp [hb], hne⟩
    have ho : (cut .code [] ((lead ++ t.bytes ++ [10]).map .byte)).outcome =
        .statement ⟨lead ++ t.bytes ++ [10]⟩ := by
      rw [hcut]
      exact atEnd_statement hsome
    have hlines : lead ++ lines [t] = lead ++ t.bytes ++ [10] := by simp [lines]
    refine ⟨[⟨lead ++ t.bytes ++ [10]⟩], ?_, .cons ⟨lead, [10], hl, .inr rfl, rfl⟩ .nil⟩
    rw [hlines, dump_statement ho, hcut]
    dsimp only [cut]
    rw [dump_finished rfl]
  | @terminated t ts hscan _ ih =>
    obtain ⟨us, hus, hpad⟩ := ih (.inr rfl)
    have hend : Scanner.State.code.scan (lead ++ t.bytes) =
        ((Scanner.State.code.scan t.bytes).1, some (lead ++ t.bytes).length) := by
      rw [scan_lead hl, hscan, List.length_append]
      rfl
    have hcut := cut_bytes_some hend [] (([10] ++ lines ts).map .byte)
    rw [List.take_length, List.drop_length, List.nil_append, List.map_nil, List.nil_append,
      ← List.map_append] at hcut
    have ho : (cut .code [] ((lead ++ t.bytes ++ ([10] ++ lines ts)).map .byte)).outcome =
        .statement ⟨lead ++ t.bytes⟩ := by
      rw [hcut]
    have hlines : lead ++ lines (t :: ts) = lead ++ t.bytes ++ ([10] ++ lines ts) := by
      simp [lines]
    refine ⟨⟨lead ++ t.bytes⟩ :: us, ?_, .cons ⟨lead, [], hl, .inl rfl, by simp⟩ hpad⟩
    rw [hlines, dump_statement ho, hcut, hus]

/-! ## Iterations -/

section Iterations

variable {es : List Script.Event} {fault : Option Fault}

theorem cut_of_dump_nil (h : dump es = ⟨[], none⟩) : (cut .code [] es).outcome = .finished := by
  cases ho : (cut .code [] es).outcome with
  | statement t => cases (dump_statement ho).symm.trans h
  | finished => rfl
  | failed f => cases (dump_failed ho).symm.trans h

theorem cut_of_dump_cons {t : Statement} {ts : List Statement} (h : dump es = ⟨t :: ts, fault⟩) :
    (cut .code [] es).outcome = .statement t ∧ dump (cut .code [] es).rest = ⟨ts, fault⟩ := by
  cases ho : (cut .code [] es).outcome with
  | statement u =>
    cases (dump_statement ho).symm.trans h
    exact ⟨rfl, rfl⟩
  | finished => cases (dump_finished ho).symm.trans h
  | failed f => cases (dump_failed ho).symm.trans h

end Iterations

theorem outcomes_tally (k m : Nat) (cs : List Cut) :
    (tally k m cs).map (·.outcome) = cs.map (·.outcome) := by
  induction cs generalizing k m with
  | nil => rfl
  | cons c cs ih => rw [tally, List.map_cons, List.map_cons, ih]

theorem outcomes_cuts {ts : List Statement} {es : List Script.Event} (h : dump es = ⟨ts, none⟩) :
    (cuts es (ts.length + 1)).map (·.outcome) = ts.map .statement ++ [.finished] := by
  induction ts generalizing es with
  | nil => simp [cuts, cut_of_dump_nil h]
  | cons t ts ih =>
    obtain ⟨ho, hrest⟩ := cut_of_dump_cons h
    rw [List.length_cons, cuts, List.map_cons, ho, ih hrest]
    rfl

theorem endAtFailure_statements (ts : List Statement) :
    endAtFailure (ts.map .statement ++ [.finished]) = ts.map .statement ++ [.finished] := by
  induction ts with
  | nil => rfl
  | cons t ts ih => exact congrArg (Outcome.statement t :: ·) ih

/-- An iteration over a dump without failures gives its statements and then the end. -/
theorem nexts_dump {ts : List Statement} {es : List Script.Event} (h : dump es = ⟨ts, none⟩)
    {r : Reader} (ha : r.Ahead es) (hf : r.failed = false) (d : Disk) {p : BufferPool}
    (hp : p.Clean) :
    nexts d p r (ts.length + 1) = ts.map .statement ++ [.finished] := by
  rw [nexts_eq hf, calls_cuts ha hp, outcomes_tally, outcomes_cuts h, endAtFailure_statements]

end Reader
end DumpRouter
