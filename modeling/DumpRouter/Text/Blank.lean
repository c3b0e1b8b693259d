import DumpRouter.Text.Ranges

/-!
# DumpRouter.Text.Blank

White space in texts: the 25 characters with Unicode's property White_Space. (The blanks between
the words of a statement are four bytes only; see `Bytes.isBlank`.)

* `isBlankText_iff`: a text is blank exactly when trimming leaves nothing of it.
* `shown`: a blank text made visible, in double quotes and with every character but the space
  written as an escape.
-/

namespace DumpRouter
namespace Text

def isBlank (c : Char) : Bool :=
  inRanges [(9, 13), (32, 32), (0x85, 0x85), (0xA0, 0xA0), (0x1680, 0x1680), (0x2000, 0x200A),
    (0x2028, 0x2029), (0x202F, 0x202F), (0x205F, 0x205F), (0x3000, 0x3000)] c.toNat

def trim (s : String) : String :=
  String.ofList (((s.toList.dropWhile isBlank).reverse.dropWhile isBlank).reverse)

def isBlankText (s : String) : Bool := s.toList.all isBlank

def asciiLower (s : String) : String := String.ofList (s.toList.map Char.toLower)

theorem isBlank_of_isWhitespace {c : Char} (h : c.isWhitespace = true) : isBlank c = true := by
  simp only [Char.isWhitespace, Bool.or_eq_true, decide_eq_true_eq] at h
  rcases h with ((rfl | rfl) | rfl) | rfl <;> rfl

theorem dropWhile_eq_nil_iff {α : Type} (p : α → Bool) (l : List α) :
    l.dropWhile p = [] ↔ ∀ a ∈ l, p a = true := by
  induction l with
  | nil => simp
  | cons a l ih => by_cases h : p a = true <;> simp [h, ih]

theorem isBlankText_iff (s : String) : isBlankText s = true ↔ trim s = "" := by
  have hof : ∀ l : List Char, String.ofList l = "" ↔ l = [] := fun l => by
    rw [← String.toList_inj]; simp
  rw [trim, hof, List.reverse_eq_nil_iff, dropWhile_eq_nil_iff, isBlankText, List.all_eq_true]
  constructor
  · intro h c hc
    rw [List.mem_reverse] at hc
    exact h c ((List.dropWhile_suffix _).subset hc)
  · intro h
    have hnil : s.toList.dropWhile isBlank = [] := by
      cases hs : s.toList.dropWhile isBlank with
      | nil => rfl
      | cons c t =>
        have hc := h c (by simp [hs])
        have := List.head?_dropWhile_not isBlank s.toList
        simp [hs, hc] at this
    exact (dropWhile_eq_nil_iff _ _).1 hnil

/-! ## Blank texts made visible -/

def hex (n : Nat) : String := String.ofList (Nat.toDigits 16 n)

/-- One character inside the quotes. Letters and other visible characters stand for themselves. -/
def shownChar (c : Char) : String :=
  if c == '\t' then "\\t"
  else if c == '\n' then "\\n"
  else if c == '\r' then "\\r"
  else if c == '"' then "\\\""
  else if c == '\\' then "\\\\"
  else if c == ' ' then " "
  else if isBlank c || c.toNat < 0x20 then "\\u\x7b" ++ hex c.toNat ++ "\x7d"
  else c.toString

def shown (s : String) : String := "\"" ++ String.join (s.toList.map shownChar) ++ "\""

end Text
end DumpRouter
