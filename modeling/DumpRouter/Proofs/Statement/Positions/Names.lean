import DumpRouter.Proofs.Statement.Names
import DumpRouter.Proofs.Statement.Positions.Words

/-!
# DumpRouter.Proofs.Statement.Positions.Names

The scans for the name of the table told by positions, with the law that the scans for words have.

* `safe_skipModifiers`: modifiers.
* `safe_identifier?`, `safe_qualified?`: an identifier, and identifiers joined by dots. Each round
  of the loop over these gets nearer to the end of the statement.
* `safe_scan?`: the name of the table behind a keyword phrase.
-/

namespace DumpRouter

namespace TableName

variable {t : Bytes}

theorem skipWord_suffix (w t : Bytes) : skipWord w t <:+ t := by
  unfold skipWord
  split
  · next u hu => exact (Bytes.skipBlank_suffix u).trans (Keyword.standing?_suffix hu)
  · exact List.suffix_refl t

theorem skipModifiers_suffix (t : Bytes) : skipModifiers t <:+ t := by
  have honly := skipWord_suffix only t
  unfold skipModifiers
  dsimp only
  split
  · exact honly
  · next u hu =>
    split
    · next v hv =>
      exact (Bytes.skipBlank_suffix v).trans <| (Keyword.standing?_suffix hv).trans <|
        (skipWord_suffix _ _).trans <| (Bytes.skipBlank_suffix u).trans <|
          (Keyword.standing?_suffix hu).trans honly
    · exact honly

/-- What reading on behind an identifier gives. -/
def behind? (name : Bytes) : Bytes → Option (Bytes × Bytes)
  | [] => some (name, [])
  | b :: t => if b == dot then qualified? t else some (name, b :: t)

theorem qualified?_eq (t : Bytes) :
    qualified? t = (identifier? t).bind fun r => behind? r.1 r.2 := by
  cases h : identifier? t with
  | none =>
    rw [qualified?]
    split
    · rfl
    · next hsome =>
      rw [h] at hsome
      cases hsome
  | some r =>
    obtain ⟨name, rest⟩ := r
    cases rest with
    | nil => exact qualified?_last h (by simp)
    | cons b u =>
      simp only [Option.bind_some, behind?]
      by_cases hb : b = dot
      · rw [if_pos (by simpa using hb)]
        exact qualified?_dotted (hb ▸ h)
      · rw [if_neg (by simpa using hb)]
        exact qualified?_last h (by simpa using hb)

theorem qualified?_suffix {name rest : Bytes} (h : qualified? t = some (name, rest)) :
    rest <:+ t := by
  induction hn : t.length using Nat.strongRecOn generalizing t with
  | _ n ih =>
    rw [qualified?_eq] at h
    obtain ⟨⟨first, u⟩, hid, hbehind⟩ := Option.bind_eq_some_iff.1 h
    obtain ⟨hsuffix, hlt⟩ := identifier?_suffix hid
    refine List.IsSuffix.trans ?_ hsuffix
    cases u with
    | nil =>
      cases hbehind
      exact List.suffix_refl _
    | cons b u =>
      simp only [behind?] at hbehind
      split at hbehind
      · rw [List.length_cons] at hlt
        exact (ih u.length (by omega) hbehind rfl).trans (List.suffix_cons b u)
      · cases hbehind
        exact List.suffix_refl _

end TableName

namespace Positions

open Walk
open Bytes (place place_le length_place getElem?_place getElem?_place_cons place_cons place_drop
  slice_place slice_to_end findIdx?_cases)
open TableName (skipWord_suffix skipModifiers_suffix behind? qualified?_eq qualified?_suffix)

variable {s t : Bytes}

/-! ## Modifiers -/

/-- Passes a word that stands alone, and the blanks behind it. -/
def skipWord (w s : Bytes) (p : Nat) : Walk Nat := do
  match ← standing? w s p with
  | some q => skipBlank s q
  | none => pure p

/-- Passes `ONLY`, and then `IF EXISTS` or `IF NOT EXISTS`. -/
def skipModifiers (s : Bytes) (p : Nat) : Walk Nat := do
  let p ← skipWord TableName.only s p
  match ← standing? TableName.ifWord s p with
  | none => pure p
  | some q => do
    let q ← skipBlank s q
    let q ← skipWord TableName.notWord s q
    match ← standing? TableName.exists_ s q with
    | some q => skipBlank s q
    | none => pure p

theorem safe_skipWord (w : Bytes) (h : t <:+ s) :
    (skipWord w s (place s t)).Safe (place s (TableName.skipWord w t)) := by
  refine (safe_standing? w h).bind ?_
  unfold TableName.skipWord
  cases hw : Keyword.standing? w t with
  | some u => exact safe_skipBlank ((Keyword.standing?_suffix hw).trans h)
  | none => exact .pure _

theorem safe_skipModifiers (h : t <:+ s) :
    (skipModifiers s (place s t)).Safe (place s (TableName.skipModifiers t)) := by
  have honly := (skipWord_suffix TableName.only t).trans h
  refine (safe_skipWord TableName.only h).bind ((safe_standing? TableName.ifWord honly).bind ?_)
  unfold TableName.skipModifiers
  dsimp only
  cases hif : Keyword.standing? TableName.ifWord (TableName.skipWord TableName.only t) with
  | none => exact .pure _
  | some u =>
    have hu := (Keyword.standing?_suffix hif).trans honly
    have hblank := (Bytes.skipBlank_suffix u).trans hu
    have hnot := (skipWord_suffix TableName.notWord _).trans hblank
    refine (safe_skipBlank hu).bind <| (safe_skipWord TableName.notWord hblank).bind <|
      (safe_standing? TableName.exists_ hnot).bind ?_
    cases hexists : Keyword.standing? TableName.exists_
        (TableName.skipWord TableName.notWord (Bytes.skipBlank u)) with
    | some v =>
      dsimp only
      rw [hexists]
      exact safe_skipBlank ((Keyword.standing?_suffix hexists).trans hnot)
    | none =>
      dsimp only
      rw [hexists]
      exact .pure _

/-! ## Names -/

/-- Reads up to the quote that closes a name, from behind the one that opens it. -/
def quoted? (quote : UInt8) (s : Bytes) (p : Nat) : Walk (Option (Bytes × Nat)) := do
  let rest ← slice s p s.length
  match rest.findIdx? (· == quote) with
  | none => pure none
  | some n =>
    if 0 < n then do
      let name ← slice s p (p + n)
      pure (some (name, p + n + 1))
    else pure none

/-- Reads up to the first byte that a bare name may not hold. -/
def bare? (s : Bytes) (p : Nat) : Walk (Option (Bytes × Nat)) := do
  let rest ← slice s p s.length
  let n := rest.findIdx (!TableName.isBare ·)
  if 0 < n then do
    let name ← slice rest 0 n
    pure (some (name, p + n))
  else pure none

/-- Reads one identifier, and gives it with the position behind it. -/
def identifier? (s : Bytes) (p : Nat) : Walk (Option (Bytes × Nat)) := do
  handed s p
  match s[p]? with
  | none => pure none
  | some b => if TableName.isQuote b then quoted? b s (p + 1) else bare? s p

/-- Reads on behind an identifier as long as dots follow, each with one more identifier. -/
def qualifiedFrom? (s : Bytes) (name : Bytes) (p : Nat) : Walk (Option (Bytes × Nat)) :=
  if s[p]? = some TableName.dot then do
    match ← identifier? s (p + 1) with
    | none => pure none
    | some (name', q) =>
      round (s.length - p) (s.length - q) fun _h => qualifiedFrom? s name' q
  else pure (some (name, p))
termination_by s.length - p

/-- Reads identifiers joined by dots, and gives the last of them with the position behind it. -/
def qualified? (s : Bytes) (p : Nat) : Walk (Option (Bytes × Nat)) := do
  match ← identifier? s p with
  | none => pure none
  | some (name, q) => qualifiedFrom? s name q

/-- A name and the position of what is left behind it. -/
def named (s : Bytes) (r : Bytes × Bytes) : Bytes × Nat := (r.1, place s r.2)

theorem safe_quoted? {b : UInt8} (hq : TableName.isQuote b = true) (h : t <:+ s) :
    (quoted? b s (place s t)).Safe ((TableName.identifier? (b :: t)).map (named s)) := by
  refine (safe_slice (place_le s t) (Nat.le_refl _)).bind ?_
  rw [slice_to_end h, TableName.identifier?, if_pos hq]
  rcases findIdx?_cases b t with ⟨-, hfind, hdrop⟩ | ⟨c, u, -, rfl, hfind, htake, hdrop⟩
  · rw [hfind, hdrop]
    cases t.takeWhile (· != b) <;> exact .pure _
  · rw [hfind, htake, hdrop]
    cases c with
    | nil => exact .pure _
    | cons a c =>
      have hclosed : place s (b :: u) = place s (a :: c ++ b :: u) + (a :: c).length := by
        rw [← place_drop h (by simp), List.drop_left]
      have hbehind := place_cons ((List.suffix_append (a :: c) _).trans h)
      have hle := place_le s (b :: u)
      dsimp only
      rw [if_pos (by simp)]
      refine (safe_slice (Nat.le_add_right _ _) (by omega)).bind ?_
      rw [slice_place h, List.take_left, ← hclosed, ← hbehind]
      exact .pure _

theorem safe_bare? {b : UInt8} (hq : ¬ TableName.isQuote b = true) (h : b :: t <:+ s) :
    (bare? s (place s (b :: t))).Safe ((TableName.identifier? (b :: t)).map (named s)) := by
  have htake : (b :: t).takeWhile TableName.isBare =
      (b :: t).take ((b :: t).findIdx (!TableName.isBare ·)) :=
    List.takeWhile_eq_take_findIdx_not
  have hdrop : (b :: t).dropWhile TableName.isBare =
      (b :: t).drop ((b :: t).findIdx (!TableName.isBare ·)) :=
    List.dropWhile_eq_drop_findIdx_not
  refine (safe_slice (place_le s _) (Nat.le_refl _)).bind ?_
  rw [slice_to_end h, TableName.identifier?, if_neg hq]
  dsimp only
  by_cases hb : TableName.isBare b = true
  · rw [List.takeWhile_cons_of_pos hb] at htake
    rw [List.dropWhile_cons_of_pos hb] at hdrop
    have hle : (b :: t).findIdx (!TableName.isBare ·) ≤ (b :: t).length := List.findIdx_le_length
    have hpos : 0 < (b :: t).findIdx (!TableName.isBare ·) := by
      rw [List.findIdx_cons, hb]
      exact Nat.succ_pos _
    rw [if_pos hpos, if_pos hb, htake, hdrop]
    refine (safe_slice (Nat.zero_le _) hle).bind ?_
    rw [List.drop_zero, ← place_drop h hle]
    exact .pure _
  · have hzero : (b :: t).findIdx (!TableName.isBare ·) = 0 := by
      rw [List.findIdx_cons, Bool.eq_false_iff.2 hb]
      rfl
    rw [hzero, if_neg (Nat.lt_irrefl 0), if_neg hb]
    exact .pure _

theorem safe_identifier? (h : t <:+ s) :
    (identifier? s (place s t)).Safe ((TableName.identifier? t).map (named s)) := by
  refine (safe_handed (place_le s t)).bind ?_
  cases t with
  | nil =>
    have hnone : s[place s []]? = none := getElem?_place h 0
    rw [hnone]
    exact .pure _
  | cons b t =>
    rw [getElem?_place_cons h]
    dsimp only
    split
    · next hq =>
      rw [← place_cons h]
      exact safe_quoted? hq ((List.suffix_cons b t).trans h)
    · next hq => exact safe_bare? hq h

theorem safe_qualifiedFrom? (name : Bytes) (h : t <:+ s) :
    (qualifiedFrom? s name (place s t)).Safe ((behind? name t).map (named s)) := by
  -- each round leaves less of the statement
  induction hn : t.length using Nat.strongRecOn generalizing name t with
  | _ n ih =>
    rw [qualifiedFrom?]
    cases t with
    | nil =>
      have hnone : s[place s []]? = none := getElem?_place h 0
      rw [hnone, if_neg (by simp)]
      exact .pure _
    | cons b t =>
      have ht := (List.suffix_cons b t).trans h
      rw [getElem?_place_cons h, behind?]
      by_cases hb : b = TableName.dot
      · rw [if_pos (by rw [hb]), if_pos (by rw [hb]; rfl), ← place_cons h, qualified?_eq]
        refine (safe_identifier? ht).bind ?_
        cases hid : TableName.identifier? t with
        | none => exact .pure _
        | some r =>
          obtain ⟨name', rest⟩ := r
          obtain ⟨hsuffix, hlt⟩ := TableName.identifier?_suffix hid
          have hrest := hsuffix.trans ht
          have hless : s.length - place s rest < s.length - place s (b :: t) := by
            have := length_place h
            have := length_place hrest
            rw [List.length_cons] at *
            omega
          have hround : rest.length < n := by
            rw [← hn, List.length_cons]
            omega
          exact safe_round hless (ih _ hround name' hrest rfl)
      · rw [if_neg (by simpa using hb), if_neg (by simpa using hb)]
        exact .pure _

theorem safe_qualified? (h : t <:+ s) :
    (qualified? s (place s t)).Safe ((TableName.qualified? t).map (named s)) := by
  rw [qualified?_eq]
  refine (safe_identifier? h).bind ?_
  cases hid : TableName.identifier? t with
  | none => exact .pure _
  | some r => exact safe_qualifiedFrom? r.1 ((TableName.identifier?_suffix hid).1.trans h)

/-- The table of a statement whose phrase is followed by the name, behind a position. -/
def direct? (s : Bytes) (p : Nat) : Walk (Option Bytes) := do
  let q ← skipBlank s p
  let q ← skipModifiers s q
  let r ← qualified? s q
  pure (r.map (·.1))

/-- The table of a statement whose phrase is followed by the name of an index, `ON` and the name of
the table, behind a position. -/
def indexed? (s : Bytes) (p : Nat) : Walk (Option Bytes) := do
  let q ← skipBlank s p
  let q ← skipModifiers s q
  match ← qualified? s q with
  | none => pure none
  | some (_, q) => do
    let q ← skipBlank s q
    match ← standing? TableName.on s q with
    | none => pure none
    | some q => do
      let q ← skipBlank s q
      let r ← qualified? s q
      pure (r.map (·.1))

/-- The table by the reading that the kind calls for. -/
def scan? (k : Kind) (s : Bytes) (p : Nat) : Walk (Option Bytes) :=
  if k = .createIndex then indexed? s p else direct? s p

theorem safe_direct? (h : t <:+ s) : (direct? s (place s t)).Safe (TableName.direct? t) := by
  have hskip := (Bytes.skipBlank_suffix t).trans h
  have hmodifiers := (skipModifiers_suffix _).trans hskip
  refine (safe_skipBlank h).bind <| (safe_skipModifiers hskip).bind <|
    (safe_qualified? hmodifiers).bind ?_
  rw [TableName.direct?, Option.map_map]
  exact .pure _

theorem safe_indexed? (h : t <:+ s) : (indexed? s (place s t)).Safe (TableName.indexed? t) := by
  have hskip := (Bytes.skipBlank_suffix t).trans h
  have hmodifiers := (skipModifiers_suffix _).trans hskip
  refine (safe_skipBlank h).bind <| (safe_skipModifiers hskip).bind <|
    (safe_qualified? hmodifiers).bind ?_
  unfold TableName.indexed?
  cases hindex : TableName.qualified? (TableName.skipModifiers (Bytes.skipBlank t)) with
  | none => exact .pure _
  | some r =>
    have hr := (qualified?_suffix hindex).trans hmodifiers
    have hblank := (Bytes.skipBlank_suffix r.2).trans hr
    refine (safe_skipBlank hr).bind ((safe_standing? TableName.on hblank).bind ?_)
    dsimp only
    cases hon : Keyword.standing? TableName.on (Bytes.skipBlank r.2) with
    | none => exact .pure _
    | some u =>
      have hu := (Keyword.standing?_suffix hon).trans hblank
      have hname := (Bytes.skipBlank_suffix u).trans hu
      refine (safe_skipBlank hu).bind ((safe_qualified? hname).bind ?_)
      rw [Option.map_map]
      exact .pure _

theorem safe_scan? (k : Kind) (h : t <:+ s) :
    (scan? k s (place s t)).Safe (TableName.scan? k t) := by
  unfold scan? TableName.scan?
  split
  · exact safe_indexed? h
  · exact safe_direct? h

end Positions
end DumpRouter
