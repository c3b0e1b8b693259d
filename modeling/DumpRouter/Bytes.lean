/-!
# DumpRouter.Bytes

Byte strings and the ASCII operations on them that the rest of the library is built from: the
blanks between the words of a statement, letters compared without case, and cutting at a byte.

`trim_eq_nil_iff`: a byte string is trimmed to nothing exactly when it holds blanks only.

Files and buffers hold their bytes packed. `unpack_pack` and `unpack_append` say that this loses
nothing.
-/

namespace DumpRouter

/-- A string of bytes, with no promise about its encoding. -/
abbrev Bytes := List UInt8

namespace Bytes

def ascii (cs : List Char) : Bytes := cs.map fun c => c.toNat.toUInt8

/-- Space, tab, line feed and carriage return; no other byte parts two words. -/
def isBlank (b : UInt8) : Bool := b == 32 || b == 9 || b == 10 || b == 13

/-- ASCII letters in upper case, every other byte as it is. -/
def upper (b : UInt8) : UInt8 := if 97 ≤ b && b ≤ 122 then b - 32 else b

/-- ASCII letters in lower case, every other byte as it is. -/
def lower (b : UInt8) : UInt8 := if 65 ≤ b && b ≤ 90 then b + 32 else b

/-- Equality that does not see the case of ASCII letters. -/
def sameLetters (s t : Bytes) : Bool := s.map upper == t.map upper

def skipBlank (s : Bytes) : Bytes := s.dropWhile isBlank

def trimEnd (s : Bytes) : Bytes := (s.reverse.dropWhile isBlank).reverse

def trim (s : Bytes) : Bytes := trimEnd (skipBlank s)

/-- The pieces between the occurrences of `sep`; there is one more piece than there are
occurrences, so the empty string has one empty piece. -/
def pieces (sep : UInt8) : Bytes → List Bytes
  | [] => [[]]
  | b :: s =>
    if b == sep then [] :: pieces sep s
    else match pieces sep s with
      | [] => [[b]]
      | p :: ps => (b :: p) :: ps

def repeated (s : Bytes) (n : Nat) : Bytes := (List.replicate n s).flatten

def pack (s : Bytes) : ByteArray := s.toByteArray

def unpack (a : ByteArray) : Bytes := a.data.toList

@[simp] theorem unpack_pack (s : Bytes) : unpack (pack s) = s := by
  simp [unpack, pack, List.data_toByteArray]

@[simp] theorem unpack_empty : unpack .empty = [] := rfl

@[simp] theorem unpack_append (a b : ByteArray) : unpack (a ++ b) = unpack a ++ unpack b := by
  simp [unpack, ByteArray.data_append]

@[simp] theorem length_unpack (a : ByteArray) : (unpack a).length = a.size := by
  simp [unpack]

@[simp] theorem size_pack (s : Bytes) : (pack s).size = s.length := by
  simp [pack, List.size_toByteArray]

theorem unpack_extract (a : ByteArray) (i j : Nat) :
    unpack (a.extract i j) = ((unpack a).take j).drop i := by
  simp [unpack, ByteArray.data_extract, List.drop_take]

-- Deriving handlers are to find this instance whatever a module imports.
instance (priority := high) : DecidableEq ByteArray := ByteArray.decEq

theorem unpack_inj {a b : ByteArray} : unpack a = unpack b ↔ a = b := by
  constructor
  · intro h
    exact ByteArray.ext (Array.toList_inj.1 h)
  · rintro rfl
    rfl

theorem skipBlank_suffix (s : Bytes) : skipBlank s <:+ s := List.dropWhile_suffix _

theorem trimEnd_prefix (s : Bytes) : trimEnd s <+: s := by
  have h := List.dropWhile_suffix isBlank (l := s.reverse)
  simpa [trimEnd] using List.reverse_prefix.2 h

theorem dropWhile_isBlank_eq_nil_iff (s : Bytes) :
    s.dropWhile isBlank = [] ↔ ∀ b ∈ s, isBlank b = true := by
  induction s with
  | nil => simp
  | cons b s ih =>
    by_cases h : isBlank b = true <;> simp [h, ih]

theorem trim_eq_nil_iff (s : Bytes) : trim s = [] ↔ ∀ b ∈ s, isBlank b = true := by
  constructor
  · intro h b hb
    have hall : ∀ c ∈ s.dropWhile isBlank, isBlank c = true := by
      have := (dropWhile_isBlank_eq_nil_iff (s.dropWhile isBlank).reverse).1
        (by simpa [trim, trimEnd, skipBlank] using h)
      simpa using this
    have hnil : s.dropWhile isBlank = [] := by
      cases hs : s.dropWhile isBlank with
      | nil => rfl
      | cons c t =>
        have hc : isBlank c = true := hall c (by simp [hs])
        have := List.head?_dropWhile_not isBlank s
        simp [hs, hc] at this
    exact (dropWhile_isBlank_eq_nil_iff s).1 hnil b hb
  · intro h
    have : skipBlank s = [] := (dropWhile_isBlank_eq_nil_iff s).2 h
    simp [trim, this, trimEnd]

end Bytes

end DumpRouter
