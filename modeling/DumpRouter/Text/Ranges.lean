/-!
# DumpRouter.Text.Ranges

Tables of code points as search trees. A table lists ranges in ascending order, each with its first
and last code point and what is known of it; the tree finds the range of a code point in as many
steps as it is high.

* `toList_ofList`: the tree of a table has the ranges of the table, in order.
* `find?_eq`: what a tree finds is what a search through its ranges finds, where these are in
  ascending order.
* `find?_ofList`, `contains_ofPairs`: so the tree of a table finds what the table has, if the table
  passes `ascends`.
-/

namespace DumpRouter
namespace Text

/-- Whether a code point lies in one of the ranges, first and last included. -/
def inRanges (ranges : List (Nat × Nat)) (n : Nat) : Bool :=
  ranges.any fun r => r.1 ≤ n && n ≤ r.2

/-- Ranges of code points with values. Below a node are the ranges before its own, above it those
behind. -/
inductive Ranges (α : Type) where
  | empty
  | node (below : Ranges α) (first last : Nat) (value : α) (above : Ranges α)

namespace Ranges

variable {α : Type}

def find? (n : Nat) : Ranges α → Option α
  | .empty => none
  | .node below first last value above =>
    if n < first then below.find? n
    else if last < n then above.find? n
    else some value

def contains (n : Nat) (t : Ranges α) : Bool := (t.find? n).isSome

def toList : Ranges α → List (Nat × Nat × α)
  | .empty => []
  | .node below first last value above =>
    below.toList ++ (first, last, value) :: above.toList

/-- The tree of a height with as many ranges of a table as it has room for, and the ranges that are
left. -/
def build : Nat → List (Nat × Nat × α) → Ranges α × List (Nat × Nat × α)
  | 0, rs => (.empty, rs)
  | h + 1, rs =>
    match build h rs with
    | (below, []) => (below, [])
    | (below, (first, last, value) :: rs) =>
      (.node below first last value (build h rs).1, (build h rs).2)

def ofList (rs : List (Nat × Nat × α)) : Ranges α := (build (rs.length.log2 + 1) rs).1

def ofPairs (rs : List (Nat × Nat)) : Ranges Unit :=
  ofList (rs.map fun (first, last) => (first, last, ()))

theorem toList_build (h : Nat) (rs : List (Nat × Nat × α)) :
    (build h rs).1.toList ++ (build h rs).2 = rs := by
  induction h generalizing rs with
  | zero => rfl
  | succ h ih =>
    have hb := ih rs
    unfold build
    split
    · next below heq => rw [heq] at hb; exact hb
    · next below first last value rest heq =>
      rw [heq] at hb
      simp only [toList, List.append_assoc, List.cons_append, ih rest]
      exact hb

theorem length_build (h : Nat) (rs : List (Nat × Nat × α)) :
    (build h rs).2.length = rs.length - (Nat.pow 2 h - 1) := by
  induction h generalizing rs with
  | zero => simp [build]
  | succ h ih =>
    have hb := ih rs
    have hp : 0 < Nat.pow 2 h := Nat.two_pow_pos h
    have hs : Nat.pow 2 (h + 1) = Nat.pow 2 h * 2 := rfl
    unfold build
    split
    · next below heq =>
      rw [heq] at hb
      simp only [List.length_nil] at hb ⊢
      omega
    · next below first last value rest heq =>
      rw [heq] at hb
      simp only [List.length_cons] at hb
      simp only [ih rest]
      omega

theorem toList_ofList (rs : List (Nat × Nat × α)) : (ofList rs).toList = rs := by
  have hlen := length_build (rs.length.log2 + 1) rs
  have hlt : rs.length < Nat.pow 2 (rs.length.log2 + 1) := Nat.lt_log2_self
  have hnil : (build (rs.length.log2 + 1) rs).2 = [] := List.eq_nil_of_length_eq_zero (by omega)
  have happ := toList_build (rs.length.log2 + 1) rs
  rwa [hnil, List.append_nil] at happ

/-- Ranges that are not empty and stand in ascending order. -/
def Ascending (rs : List (Nat × Nat × α)) : Prop :=
  (∀ r ∈ rs, r.1 ≤ r.2.1) ∧ rs.Pairwise fun r s => r.2.1 < s.1

theorem find?_eq (n : Nat) {t : Ranges α} (ht : Ascending t.toList) :
    t.find? n = (t.toList.find? fun r => r.1 ≤ n && n ≤ r.2.1).map (·.2.2) := by
  induction t with
  | empty => rfl
  | node below first last value above ihb iha =>
    obtain ⟨hle, hord⟩ := ht
    simp only [toList] at hle hord ⊢
    obtain ⟨hob, hoa, hx⟩ := List.pairwise_append.1 hord
    obtain ⟨hfirst, hoa⟩ := List.pairwise_cons.1 hoa
    have hself : first ≤ last := hle (first, last, value) (by simp)
    have hb := ihb ⟨fun r hr => hle r (by simp [hr]), hob⟩
    have ha := iha ⟨fun r hr => hle r (by simp [hr]), hoa⟩
    have hbelow : first ≤ n → below.toList.find? (fun r => r.1 ≤ n && n ≤ r.2.1) = none := by
      intro hn
      refine List.find?_eq_none.2 fun r hr => ?_
      have : r.2.1 < first := hx r hr (first, last, value) (by simp)
      simp only [Bool.and_eq_true, decide_eq_true_eq]
      omega
    have habove : n ≤ last → above.toList.find? (fun r => r.1 ≤ n && n ≤ r.2.1) = none := by
      intro hn
      refine List.find?_eq_none.2 fun r hr => ?_
      have : last < r.1 := hfirst r hr
      simp only [Bool.and_eq_true, decide_eq_true_eq]
      omega
    unfold find?
    rw [List.find?_append, List.find?_cons]
    by_cases h1 : n < first
    · have hn : ¬first ≤ n := by omega
      simp [h1, hn, hb, habove (by omega)]
    · by_cases h2 : last < n
      · have hn : ¬n ≤ last := by omega
        simp [h1, h2, hn, ha, hbelow (by omega)]
      · have hf : first ≤ n := by omega
        have hl : n ≤ last := by omega
        simp [h1, h2, hf, hl, hbelow hf]

/-- Checks that ranges are not empty and stand in ascending order, none of them in front of `n`. -/
def ascends (n : Nat) : List (Nat × Nat × α) → Bool
  | [] => true
  | (first, last, _) :: rs => n ≤ first && first ≤ last && ascends (last + 1) rs

theorem ascending_of_ascends {n : Nat} {rs : List (Nat × Nat × α)} (h : ascends n rs = true) :
    Ascending rs ∧ ∀ r ∈ rs, n ≤ r.1 := by
  induction rs generalizing n with
  | nil => exact ⟨⟨nofun, .nil⟩, nofun⟩
  | cons r rs ih =>
    obtain ⟨first, last, value⟩ := r
    simp only [ascends, Bool.and_eq_true, decide_eq_true_eq] at h
    obtain ⟨⟨hn, hle⟩, hrest⟩ := h
    obtain ⟨⟨hles, hord⟩, hbehind⟩ := ih hrest
    refine ⟨⟨?_, List.pairwise_cons.2 ⟨fun r hr => hbehind r hr, hord⟩⟩, ?_⟩
    · exact List.forall_mem_cons.2 ⟨hle, hles⟩
    · refine List.forall_mem_cons.2 ⟨hn, fun r hr => ?_⟩
      have := hbehind r hr
      omega

theorem find?_ofList {rs : List (Nat × Nat × α)} (h : ascends 0 rs = true) (n : Nat) :
    (ofList rs).find? n = (rs.find? fun r => r.1 ≤ n && n ≤ r.2.1).map (·.2.2) := by
  have hasc : Ascending (ofList rs).toList := by
    rw [toList_ofList]
    exact (ascending_of_ascends h).1
  rw [find?_eq n hasc, toList_ofList]

theorem contains_ofPairs {rs : List (Nat × Nat)}
    (h : ascends 0 (rs.map fun (first, last) => (first, last, ())) = true) (n : Nat) :
    (ofPairs rs).contains n = inRanges rs n := by
  rw [contains, ofPairs, find?_ofList h, Option.isSome_map, List.isSome_find?, List.any_map]
  rfl

end Ranges
end Text
end DumpRouter
