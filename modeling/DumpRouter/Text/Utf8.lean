import DumpRouter.Bytes

/-!
# DumpRouter.Text.Utf8

UTF-8, read three ways.

* `encode` writes a text.
* `units` cuts any byte string into units: a unit is a character, or one ill-formed stretch as long
  as the Unicode standard's "maximal subpart" makes it. A continuation byte out of place is told
  apart from the other ill-formed stretches.
* `decodeLossy` shows every ill-formed stretch as U+FFFD; `decode?` refuses it.
-/

namespace DumpRouter
namespace Text

def encode (s : String) : Bytes := s.toList.flatMap String.utf8EncodeChar

namespace Utf8

inductive TextUnit where
  | char (c : Char)
  /-- A continuation byte that continues nothing. -/
  | stray
  /-- An ill-formed stretch that begins with any other byte. -/
  | broken
  deriving DecidableEq, Repr

namespace TextUnit

def char? : TextUnit → Option Char
  | .char c => some c
  | _ => none

/-- Whether the unit is a character with a property. -/
def is (p : Char → Bool) (u : TextUnit) : Bool := u.char?.any p

end TextUnit

/-- The second bytes that may follow a leading byte, and how many bytes follow in all. -/
def followers (b : UInt8) : Option (UInt8 × UInt8 × Nat) :=
  if 0xC2 ≤ b && b ≤ 0xDF then some (0x80, 0xBF, 1)
  else if b == 0xE0 then some (0xA0, 0xBF, 2)
  else if b == 0xED then some (0x80, 0x9F, 2)
  else if 0xE1 ≤ b && b ≤ 0xEF then some (0x80, 0xBF, 2)
  else if b == 0xF0 then some (0x90, 0xBF, 3)
  else if 0xF1 ≤ b && b ≤ 0xF3 then some (0x80, 0xBF, 3)
  else if b == 0xF4 then some (0x80, 0x8F, 3)
  else none

/-- Reads `n` continuation bytes onto the value `v` of the bits before them. The number counts the
bytes accepted, also when the stretch breaks off. -/
def continuation (v accepted : Nat) : Nat → Bytes → TextUnit × Nat
  | 0, _ => (.char (Char.ofNat v), accepted)
  | _ + 1, [] => (.broken, accepted)
  | n + 1, b :: s =>
    if 0x80 ≤ b && b ≤ 0xBF then continuation (v * 64 + (b.toNat - 0x80)) (accepted + 1) n s
    else (.broken, accepted)

/-- The unit that starts with byte `b`, and how many of the bytes after `b` belong to it. -/
def headUnit (b : UInt8) (s : Bytes) : TextUnit × Nat :=
  if b < 0x80 then (.char (Char.ofNat b.toNat), 0)
  else match followers b with
    | none => (if b < 0xC0 then .stray else .broken, 0)
    | some (lo, hi, n) =>
      match s with
      | [] => (.broken, 0)
      | c :: t =>
        if lo ≤ c && c ≤ hi then
          let lead := b.toNat % Nat.pow 2 (6 - n)
          continuation (lead * 64 + (c.toNat - 0x80)) 1 (n - 1) t
        else (.broken, 0)

/-- `unitsOnto acc k s` drops `k` bytes of `s`, cuts the rest into units and puts the units of
`acc`, which are in reverse, in front. -/
def unitsOnto (acc : List TextUnit) : Nat → Bytes → List TextUnit
  | _, [] => acc.reverse
  | k + 1, _ :: s => unitsOnto acc k s
  | 0, b :: s => unitsOnto ((headUnit b s).1 :: acc) (headUnit b s).2 s

def units (s : Bytes) : List TextUnit := unitsOnto [] 0 s

theorem unitsOnto_eq (acc : List TextUnit) (k : Nat) (s : Bytes) :
    unitsOnto acc k s = acc.reverse ++ unitsOnto [] k s := by
  induction s generalizing acc k with
  | nil => cases k <;> simp [unitsOnto]
  | cons b s ih =>
    cases k with
    | succ k => exact ih acc k
    | zero =>
      rw [unitsOnto, ih, unitsOnto, ih [(headUnit b s).1]]
      simp

theorem units_cons (b : UInt8) (s : Bytes) :
    units (b :: s) = (headUnit b s).1 :: unitsOnto [] (headUnit b s).2 s := by
  rw [units, unitsOnto, unitsOnto_eq]; rfl

theorem units_ascii_cons {b : UInt8} (h : b < 0x80) (s : Bytes) :
    units (b :: s) = .char (Char.ofNat b.toNat) :: units s := by
  rw [units_cons]
  simp [headUnit, h, units]

end Utf8

/-- The text of a byte string, with U+FFFD for each ill-formed stretch. -/
def decodeLossy (s : Bytes) : String :=
  String.ofList ((Utf8.units s).map (·.char?.getD '\uFFFD'))

/-- The text of a byte string, if it is well-formed UTF-8. -/
def decode? (s : Bytes) : Option String :=
  ((Utf8.units s).mapM Utf8.TextUnit.char?).map String.ofList

end Text
end DumpRouter
