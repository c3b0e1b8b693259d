import DumpRouter.Proofs.Statement.Positions.Names
import DumpRouter.Proofs.Statement.Stripping

/-!
# DumpRouter.Proofs.Statement.Positions.Classified

The classification told by positions.

* `safe_stripComments`: each round of the loop over comment lines leaves less of the statement.
* `classify_within`: no scan leaves the statement.
-/

namespace DumpRouter

namespace Keyword

variable {s t : Bytes}

theorem stripComments_skipBlank (s : Bytes) :
    stripComments (Bytes.skipBlank s) = stripComments s := by
  have hblank : Blank (s.takeWhile Bytes.isBlank) := List.all_eq_true.1 List.all_takeWhile
  have hsplit : s.takeWhile Bytes.isBlank ++ Bytes.skipBlank s = s :=
    List.takeWhile_append_dropWhile
  have hlead := stripComments_lead hblank.lead (Bytes.skipBlank s)
  rw [hsplit] at hlead
  exact hlead.symm

theorem stripped_skipBlank (h : ¬ [45, 45].isPrefixOf (Bytes.skipBlank s) = true) :
    Stripped (Bytes.skipBlank s) where
  not_blank b hb := by
    have hnot := List.head?_dropWhile_not Bytes.isBlank s
    rw [Bytes.skipBlank, Option.mem_def] at hb
    simpa [hb] using hnot
  not_comment := mt List.isPrefixOf_iff_prefix.2 h

/-- A line that begins with two dashes is dropped. -/
theorem stripComments_line {c u : Bytes} (hc : 10 ∉ c) (h : [45, 45] <+: c ++ 10 :: u) :
    stripComments (c ++ 10 :: u) = stripComments u := by
  obtain ⟨v, hv⟩ := h
  match c, hv, hc with
  | [], hv, _ => simp at hv
  | [_], hv, _ => simp at hv
  | _ :: _ :: c, hv, hc =>
    simp only [List.cons_append, List.nil_append, List.cons.injEq] at hv
    obtain ⟨rfl, rfl, -⟩ := hv
    simpa using stripComments_lead (.comment (c := c) (by simpa using hc) .nil) u

theorem recognise?_suffix {k : Kind} (h : Phrase.recognise? s = some (k, t)) : t <:+ s := by
  obtain ⟨-, -, -, x, -, rfl⟩ := Phrase.parted_of_recognise? h
  exact List.suffix_append x t

end Keyword

namespace Positions

open Walk
open Bytes (place place_le slice_to_end findIdx?_cases)
open Keyword (stripComments_skipBlank stripComments_line stripped_skipBlank recognise?_suffix)

variable {s t : Bytes}

def tableName? (k : Kind) (s : Bytes) (p : Nat) : Walk (Option String) := do
  handed s p
  match ← scan? k s p with
  | some name => pure (some (Text.decodeLossy name))
  | none => pure (Fallback.table? k s)

/-- Drops blanks and comment lines in front of the first word, one line in each round. -/
def stripComments (s : Bytes) : Walk Bytes := do
  let p ← skipBlank s 0
  let t ← slice s p s.length
  if [45, 45].isPrefixOf t then
    match t.findIdx? (· == 10) with
    | some n => do
      let u ← slice t (n + 1) t.length
      round s.length u.length fun _h => stripComments u
    | none => pure []
  else pure t
termination_by s.length

def classify (s : Bytes) : Walk Classified := do
  let t ← stripComments s
  let t := Bytes.trim t
  if t.length < shortestClassified then pure (.unknown s.length)
  else
    match ← recognise? t with
    | none => pure (.unknown s.length)
    | some (k, p) => do
      match ← tableName? k t p with
      | none => pure (.unknown s.length)
      | some table => pure (.known k table s.length)

theorem safe_tableName? (k : Kind) (h : t <:+ s) :
    (tableName? k s (place s t)).Safe (DumpRouter.tableName? k s t) := by
  refine (safe_handed (place_le s t)).bind ((safe_scan? k h).bind ?_)
  unfold DumpRouter.tableName?
  cases TableName.scan? k t <;> exact .pure _

theorem safe_stripComments (s : Bytes) : (stripComments s).Safe (Keyword.stripComments s) := by
  -- each round drops a line at least
  induction hn : s.length using Nat.strongRecOn generalizing s with
  | _ n ih =>
    have hskip := Bytes.skipBlank_suffix s
    have hstart := safe_skipBlank (List.suffix_refl s)
    rw [Bytes.place_self] at hstart
    rw [stripComments, ← stripComments_skipBlank]
    refine hstart.bind ((safe_slice (place_le s _) (Nat.le_refl _)).bind ?_)
    rw [slice_to_end hskip]
    by_cases hdash : [45, 45].isPrefixOf (Bytes.skipBlank s) = true
    · rw [if_pos hdash]
      have hprefix := List.isPrefixOf_iff_prefix.1 hdash
      rcases findIdx?_cases 10 (Bytes.skipBlank s) with
        ⟨hnone, hfind, -⟩ | ⟨c, u, hc, hcut, hfind, -, -⟩
      · obtain ⟨v, hv⟩ := hprefix
        rw [hfind, ← hv, List.cons_append, List.cons_append, List.nil_append,
          Keyword.stripComments_comment,
          Keyword.stripFrom_unfinished fun hmem => hnone (by simp [← hv, hmem])]
        exact .pure _
      · rw [hfind]
        have hlen := hskip.length_le
        rw [hcut, List.length_append, List.length_cons] at hlen
        have hrest : ((c ++ 10 :: u).take (c ++ 10 :: u).length).drop (c.length + 1) = u := by
          rw [List.take_length, List.drop_append]
          simp
        rw [hcut] at hprefix ⊢
        refine (safe_slice (by simp) (Nat.le_refl _)).bind ?_
        rw [hrest, stripComments_line hc hprefix]
        exact safe_round (by omega) (ih u.length (by omega) u rfl)
    · rw [if_neg hdash, Keyword.stripComments_of_stripped (stripped_skipBlank hdash)]
      exact .pure _

theorem safe_classify (s : Bytes) : (classify s).Safe (DumpRouter.classify s) := by
  refine (safe_stripComments s).bind ?_
  unfold DumpRouter.classify classifyStripped
  dsimp only
  split
  · exact .pure _
  · refine (safe_recognise? _).bind ?_
    cases hphrase : Keyword.Phrase.recognise? (Bytes.trim (Keyword.stripComments s)) with
    | none => exact .pure _
    | some r =>
      refine (safe_tableName? r.1 (recognise?_suffix hphrase)).bind ?_
      dsimp only
      cases DumpRouter.tableName? r.1 _ r.2 <;> exact .pure _

/-- No scan leaves the statement, whatever its bytes are: classified by positions, each statement
comes to its kind and table with every index and slice within what it is applied to, no position
handed on behind the end, and each round of the loops over comment lines and over the parts of a
name nearer to the end. -/
theorem classify_within (s : Bytes) :
    (classify s).result = some (DumpRouter.classify s) ∧ ∀ u ∈ (classify s).uses, u.Within :=
  ⟨(safe_classify s).result, (safe_classify s).within⟩

/-- A comment, and a statement that ends in the middle of a name. -/
def endingInName : Bytes := Text.encode "--\nDROP TABLE a.b"

/-- The round behind the dot ends at the end of the statement. -/
theorem classify_within_endingInName :
    (classify endingInName).result = some (DumpRouter.classify endingInName) ∧
      Use.round 2 0 ∈ (classify endingInName).uses ∧ (Use.round 2 0).Within := by
  obtain ⟨hresult, hwithin⟩ := classify_within endingInName
  have hround : Use.round 2 0 ∈ (classify endingInName).uses := by decide +kernel
  exact ⟨hresult, hround, hwithin _ hround⟩

end Positions
end DumpRouter
