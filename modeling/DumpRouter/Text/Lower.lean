import DumpRouter.Text.Lower.Table
import DumpRouter.Text.Ranges

/-!
# DumpRouter.Text.Lower

Lower case of whole texts by Unicode's full mapping. Two characters do not go one to one:

* U+0130 becomes two characters;
* a capital sigma becomes a final sigma at the end of a word, that is, if a cased character stands
  before it and none behind it, where ignorable characters on both sides are looked through.

* `isCased_eq`, `isIgnorable_eq`, `char_eq`: the search trees find what the tables have.
* `lower_append_break`: a character that is neither cased nor ignorable parts a text into halves
  that are lowered on their own.
-/

namespace DumpRouter
namespace Text

namespace Lower

/-- The tables `cased`, `ignorable` and `runs` as search trees. -/
def casedTree : Ranges Unit := .ofPairs cased
def ignorableTree : Ranges Unit := .ofPairs ignorable
def runTree : Ranges Run := .ofList (runs.map fun r => (r.first, r.last, r))

def isCased (c : Char) : Bool :=
  if c.toNat < 128 then c.isAlpha else casedTree.contains c.toNat

def isIgnorable (c : Char) : Bool :=
  if c.toNat < 128 then [0x27, 0x2E, 0x3A, 0x5E, 0x60].contains c.toNat
  else ignorableTree.contains c.toNat

/-- The code point that a run gives to one between its ends, if that is one of its steps. -/
def Run.image? (r : Run) (n : Nat) : Option Nat :=
  if (n - r.first) % r.step == 0 then some (n - r.first + r.target) else none

theorem ascends_cased :
    Ranges.ascends 0 (cased.map fun (first, last) => (first, last, ())) = true := by
  decide +kernel

theorem ascends_ignorable :
    Ranges.ascends 0 (ignorable.map fun (first, last) => (first, last, ())) = true := by
  decide +kernel

theorem ascends_runs : Ranges.ascends 0 (runs.map fun r => (r.first, r.last, r)) = true := by
  decide +kernel

theorem isCased_eq (c : Char) :
    isCased c = if c.toNat < 128 then c.isAlpha else inRanges cased c.toNat := by
  rw [isCased, casedTree, Ranges.contains_ofPairs ascends_cased]

theorem isIgnorable_eq (c : Char) :
    isIgnorable c =
      if c.toNat < 128 then [0x27, 0x2E, 0x3A, 0x5E, 0x60].contains c.toNat
      else inRanges ignorable c.toNat := by
  rw [isIgnorable, ignorableTree, Ranges.contains_ofPairs ascends_ignorable]

/-- The lower case of one character wherever it stands. -/
def char (c : Char) : List Char :=
  if c.toNat < 128 then [c.toLower]
  else if c.toNat == 0x130 then ['i', Char.ofNat 0x307]
  else match (runTree.find? c.toNat).bind (·.image? c.toNat) with
    | some n => [Char.ofNat n]
    | none => [c]

/-- A character in a run goes where the run sends it, if it is one of its steps. -/
theorem char_eq (c : Char) :
    char c =
      if c.toNat < 128 then [c.toLower]
      else if c.toNat == 0x130 then ['i', Char.ofNat 0x307]
      else match (runs.find? fun r => r.first ≤ c.toNat && c.toNat ≤ r.last).bind
          (·.image? c.toNat) with
        | some n => [Char.ofNat n]
        | none => [c] := by
  have hfind : runTree.find? c.toNat =
      runs.find? fun r => r.first ≤ c.toNat && c.toNat ≤ r.last := by
    rw [runTree, Ranges.find?_ofList ascends_runs, List.find?_map, Option.map_map]
    exact congrFun Option.map_id _
  rw [char, hfind]

/-- Whether the first character that is not ignorable is cased. -/
def casedAhead (s : List Char) : Bool := (s.dropWhile isIgnorable).head?.any isCased

/-- Lowers a text of which `before` says whether the last character in front of it that is not
ignorable is cased. -/
def chars (before : Bool) : List Char → List Char
  | [] => []
  | c :: s =>
    let low :=
      if c == 'Σ' then (if before && !casedAhead s then ['ς'] else ['σ']) else char c
    low ++ chars (if isIgnorable c then before else isCased c) s

end Lower

def lower (s : String) : String := String.ofList (Lower.chars false s.toList)

namespace Lower

theorem casedAhead_append_break (s : List Char) {c : Char} (hi : isIgnorable c = false)
    (hc : isCased c = false) (t : List Char) : casedAhead (s ++ c :: t) = casedAhead s := by
  induction s with
  | nil => simp [casedAhead, hi, hc]
  | cons d s ih =>
    by_cases hd : isIgnorable d = true
    · simpa [casedAhead, hd] using ih
    · simp [casedAhead, hd]

theorem lower_append_break (before : Bool) (s : List Char) {c : Char} (hi : isIgnorable c = false)
    (hc : isCased c = false) (t : List Char) :
    chars before (s ++ c :: t) = chars before s ++ chars false (c :: t) := by
  induction s generalizing before with
  | nil =>
    have hs : (c == 'Σ') = false := by
      cases h : c == 'Σ' with
      | false => rfl
      | true => rw [eq_of_beq h] at hc; exact absurd hc (by decide +kernel)
    simp [chars, hi, hc, hs]
  | cons d s ih => simp [chars, ih, casedAhead_append_break s hi hc t]

end Lower
end Text
end DumpRouter
