import DumpRouter.Proofs.Statement.Positions.Walk
import DumpRouter.Statement.Keyword

/-!
# DumpRouter.Proofs.Statement.Positions.Words

The scans for words and keyword phrases told by positions: each is given the whole statement and the
position at which it begins, and gives the position behind what it has read.

Each definition has a law of the same kind: at the place of an end of the statement, the scan gives
the place of what the scan of that end leaves, and it stays within the statement.

* `safe_skipBlank`, `safe_standing?`: blanks, and a word with a blank behind it.
* `safe_phrase?`: words parted by blanks.
* `safe_recognise?`: the keyword phrase of a statement.
-/

namespace DumpRouter
namespace Positions

open Walk
open Bytes (place place_le length_place getElem?_place getElem?_place_cons place_cons place_drop
  slice_place)

variable {s t : Bytes}

/-- Passes the blanks from a position on. -/
def skipFrom (s : Bytes) (p : Nat) : Walk Nat :=
  if _h : p < s.length then do
    let b ← index s p
    if Bytes.isBlank b then skipFrom s (p + 1) else pure p
  else pure p
termination_by s.length - p

def skipBlank (s : Bytes) (p : Nat) : Walk Nat := do
  handed s p
  skipFrom s p

theorem safe_skipFrom (h : t <:+ s) :
    (skipFrom s (place s t)).Safe (place s (Bytes.skipBlank t)) := by
  induction t with
  | nil =>
    rw [skipFrom, dif_neg (by simp [place])]
    exact .pure _
  | cons b t ih =>
    have hlt := (List.getElem?_eq_some_iff.1 (getElem?_place_cons h)).1
    rw [skipFrom, dif_pos hlt]
    refine (safe_index (getElem?_place_cons h)).bind ?_
    by_cases hb : Bytes.isBlank b = true
    · have hskip : Bytes.skipBlank (b :: t) = Bytes.skipBlank t := List.dropWhile_cons_of_pos hb
      rw [if_pos hb, hskip, ← place_cons h]
      exact ih ((List.suffix_cons b t).trans h)
    · have hskip : Bytes.skipBlank (b :: t) = b :: t := List.dropWhile_cons_of_neg hb
      rw [if_neg hb, hskip]
      exact .pure _

theorem safe_skipBlank (h : t <:+ s) :
    (skipBlank s (place s t)).Safe (place s (Bytes.skipBlank t)) :=
  (safe_handed (place_le s t)).bind (safe_skipFrom h)

/-! ## Words -/

/-- Matches a word, whatever follows. -/
def word? (w s : Bytes) (p : Nat) : Walk (Option Nat) := do
  handed s p
  if s.length < p + w.length then pure none
  else
    let text ← slice s p (p + w.length)
    pure (if Bytes.sameLetters text w then some (p + w.length) else none)

/-- Matches a word if a blank follows it. -/
def standing? (w s : Bytes) (p : Nat) : Walk (Option Nat) := do
  handed s p
  if s.length ≤ p + w.length then pure none
  else
    let b ← index s (p + w.length)
    if Bytes.isBlank b then
      let text ← slice s p (p + w.length)
      pure (if Bytes.sameLetters text w then some (p + w.length) else none)
    else pure none

/-- Matches words that are each led in by at least one blank. -/
def furtherWords? (s : Bytes) : List Bytes → Nat → Walk (Option Nat)
  | [], p => pure (some p)
  | w :: ws, p => do
    let q ← skipBlank s p
    if q = p then pure none
    else
      match ← word? w s q with
      | some q => furtherWords? s ws q
      | none => pure none

/-- Matches words that are parted by blanks, at the start of the statement. -/
def phrase? (s : Bytes) : List Bytes → Walk (Option Nat)
  | [] => pure (some 0)
  | w :: ws => do
    match ← word? w s 0 with
    | some p => furtherWords? s ws p
    | none => pure none

theorem not_sameLetters {w : Bytes} (h : t.length < w.length) :
    Bytes.sameLetters (t.take w.length) w = false := by
  refine Bool.eq_false_iff.2 fun hsame => ?_
  have hlen := congrArg List.length (eq_of_beq hsame)
  rw [List.length_map, List.length_map, List.length_take] at hlen
  omega

theorem safe_word? (w : Bytes) (h : t <:+ s) :
    (word? w s (place s t)).Safe ((Keyword.word? w t).map (place s)) := by
  have hlen := length_place h
  refine (safe_handed (place_le s t)).bind ?_
  unfold Keyword.word?
  by_cases hw : t.length < w.length
  · rw [if_pos (by omega), not_sameLetters hw]
    exact .pure _
  · rw [if_neg (by omega)]
    refine (safe_slice (by omega) (by omega)).bind ?_
    rw [slice_place h, ← place_drop h (by omega)]
    split
    · exact .pure _
    · exact .pure _

theorem safe_standing? (w : Bytes) (h : t <:+ s) :
    (standing? w s (place s t)).Safe ((Keyword.standing? w t).map (place s)) := by
  have hlen := length_place h
  refine (safe_handed (place_le s t)).bind ?_
  unfold Keyword.standing? Keyword.word?
  by_cases hw : t.length ≤ w.length
  · rw [if_pos (by omega), List.drop_eq_nil_iff.2 hw]
    split
    · next heq => split at heq <;> cases heq
    · exact .pure _
  · rw [if_neg (by omega)]
    obtain ⟨b, u, hd⟩ := List.exists_cons_of_ne_nil (mt List.drop_eq_nil_iff.1 hw)
    have hb : s[place s t + w.length]? = some b := by
      rw [getElem?_place h, ← Nat.add_zero w.length, ← List.getElem?_drop, hd]
      rfl
    have hplace : place s (b :: u) = place s t + w.length := by
      rw [← hd, place_drop h (by omega)]
    refine (safe_index hb).bind ?_
    rw [hd, ← hplace]
    by_cases hblank : Bytes.isBlank b = true
    · rw [if_pos hblank]
      refine (safe_slice (by rw [hplace]; omega) (place_le s _)).bind ?_
      rw [hplace, slice_place h, ← hplace]
      split
      · simpa [hblank] using Safe.pure _
      · exact .pure _
    · rw [if_neg hblank]
      split
      · next heq =>
        split at heq
        · cases heq
          rw [if_neg hblank]
          exact .pure _
        · cases heq
      · exact .pure _

theorem safe_furtherWords? (ws : List Bytes) (h : t <:+ s) :
    (furtherWords? s ws (place s t)).Safe ((Keyword.furtherWords? ws t).map (place s)) := by
  induction ws generalizing t with
  | nil => exact .pure _
  | cons w ws ih =>
    have hskip := (Bytes.skipBlank_suffix t).trans h
    refine (safe_skipBlank h).bind ?_
    cases t with
    | nil =>
      have hnil : Bytes.skipBlank [] = [] := rfl
      rw [hnil, if_pos rfl]
      exact .pure _
    | cons b t =>
      by_cases hb : Bytes.isBlank b = true
      · have hne : place s (Bytes.skipBlank (b :: t)) ≠ place s (b :: t) := by
          have hle := (Bytes.skipBlank_suffix t).length_le
          have hcons : Bytes.skipBlank (b :: t) = Bytes.skipBlank t :=
            List.dropWhile_cons_of_pos hb
          have hlen := length_place h
          have hlen' := length_place hskip
          rw [hcons] at hlen' ⊢
          rw [List.length_cons] at hlen
          omega
        rw [if_neg hne, Keyword.furtherWords?, if_pos hb]
        refine (safe_word? w hskip).bind ?_
        cases hw : Keyword.word? w (Bytes.skipBlank (b :: t)) with
        | none => exact .pure _
        | some u => exact ih ((Keyword.word?_suffix hw).trans hskip)
      · have hcons : Bytes.skipBlank (b :: t) = b :: t := List.dropWhile_cons_of_neg hb
        rw [hcons, if_pos rfl, Keyword.furtherWords?, if_neg hb]
        exact .pure _

theorem safe_phrase? (s : Bytes) (ws : List Bytes) :
    (phrase? s ws).Safe ((Keyword.phrase? ws s).map (place s)) := by
  cases ws with
  | nil =>
    have hself : (Keyword.phrase? [] s).map (place s) = some 0 :=
      congrArg some (Bytes.place_self s)
    rw [hself]
    exact .pure _
  | cons w ws =>
    have hword := safe_word? w (List.suffix_refl s)
    rw [Bytes.place_self] at hword
    refine hword.bind ?_
    rw [Keyword.phrase?]
    cases hw : Keyword.word? w s with
    | none => exact .pure _
    | some t => exact safe_furtherWords? ws (Keyword.word?_suffix hw)

/-! ## Phrases -/

/-- Tries phrases word by word. -/
def firstOf? (s : Bytes) : List Keyword.Phrase → Walk (Option (Kind × Nat))
  | [] => pure none
  | p :: ps => do
    match ← phrase? s p.words with
    | some q => pure (some (p.kind, q))
    | none => firstOf? s ps

/-- The kind that the phrase at the start of the statement gives, and the position behind the
phrase. -/
def recognise? (s : Bytes) : Walk (Option (Kind × Nat)) := do
  let text ← slice s 0 (min s.length Keyword.Phrase.lookLength)
  let look := text.map Bytes.upper
  match Keyword.Phrase.all.find? fun p => p.text.isPrefixOf look with
  | some p => pure (some (p.kind, p.text.length))
  | none => firstOf? s (Keyword.Phrase.all.filter fun p =>
      p.words.head?.any (·.isPrefixOf look))

/-- The position of what is left behind a phrase. -/
def placed (s : Bytes) (r : Kind × Bytes) : Kind × Nat := (r.1, place s r.2)

theorem safe_firstOf? (s : Bytes) (ps : List Keyword.Phrase) :
    (firstOf? s ps).Safe ((ps.findSome? fun p =>
      (Keyword.phrase? p.words s).map (p.kind, ·)).map (placed s)) := by
  induction ps with
  | nil => exact .pure _
  | cons p ps ih =>
    refine (safe_phrase? s p.words).bind ?_
    rw [List.findSome?_cons]
    cases Keyword.phrase? p.words s with
    | some t => exact .pure _
    | none => exact ih

theorem safe_recognise? (s : Bytes) :
    (recognise? s).Safe ((Keyword.Phrase.recognise? s).map (placed s)) := by
  have htake : (s.take (min s.length Keyword.Phrase.lookLength)).drop 0 =
      s.take Keyword.Phrase.lookLength := by
    rw [List.drop_zero, Nat.min_comm, ← List.take_take, List.take_length]
  refine (safe_slice (Nat.zero_le _) (Nat.min_le_left _ _)).bind ?_
  rw [htake]
  dsimp only
  unfold Keyword.Phrase.recognise? Keyword.Phrase.quick? Keyword.Phrase.look
  split
  · next p hp =>
    have hlook := List.find?_some hp
    have hle := (List.isPrefixOf_iff_prefix.1 hlook).length_le
    rw [List.length_map, List.length_take] at hle
    have hplace := place_drop (List.suffix_refl s) (n := p.text.length) (by omega)
    rw [Bytes.place_self, Nat.zero_add] at hplace
    rw [hp, ← hplace]
    exact .pure _
  · next hnone =>
    rw [hnone]
    exact safe_firstOf? s _

end Positions
end DumpRouter
