/-!
# DumpRouter.Text.Decimal

Numbers as decimal text with a fixed number of places. A double is taken at its exact value, and a
value halfway between two texts goes to the even one.

`roundDiv_near`: a rounded quotient is within one half of the exact one.
-/

namespace DumpRouter
namespace Decimal

/-- A quotient rounded to the nearest whole number, halves to the even one. -/
def roundDiv (num den : Nat) : Nat :=
  let q := num / den
  let r := num % den
  if 2 * r < den then q
  else if den < 2 * r then q + 1
  else if q % 2 = 0 then q else q + 1

theorem roundDiv_near (num : Nat) {den : Nat} (h : 0 < den) :
    2 * num ≤ (2 * roundDiv num den + 1) * den ∧ (2 * roundDiv num den) * den ≤ 2 * num + den := by
  have hd := Nat.div_add_mod num den
  have hm := Nat.mod_lt num h
  have hc : den * (num / den) = (num / den) * den := Nat.mul_comm _ _
  simp only [roundDiv]
  split
  · constructor <;> simp only [Nat.add_mul, Nat.mul_assoc] <;> omega
  · split
    · constructor <;> simp only [Nat.add_mul, Nat.mul_add, Nat.mul_assoc] <;> omega
    · split
      · constructor <;> simp only [Nat.add_mul, Nat.mul_assoc] <;> omega
      · constructor <;> simp only [Nat.add_mul, Nat.mul_add, Nat.mul_assoc] <;> omega

/-- The significand and the power of two of a finite double, its sign left out. -/
def parts (x : Float) : Nat × Int :=
  let bits := x.toBits.toNat
  let exponent : Nat := (bits >>> 52) % 0x800
  let fraction : Nat := bits % 0x10000000000000
  if exponent = 0 then (fraction, -1074)
  else (fraction + 0x10000000000000, (exponent : Int) - 1075)

/-- A double that is not negative in units of the last of `places` decimal places. -/
def scaled (places : Nat) (x : Float) : Nat :=
  match parts x with
  | (m, .ofNat e) => (m * Nat.pow 10 places) <<< e
  | (m, .negSucc e) => roundDiv (m * Nat.pow 10 places) (Nat.pow 2 (e + 1))

/-- Whole units, and behind a point the rest in exactly `places` digits. -/
def point (places n : Nat) : String :=
  let rest := Nat.repr (n % Nat.pow 10 places)
  Nat.repr (n / Nat.pow 10 places) ++ "." ++
    String.ofList (List.replicate (places - rest.length) '0') ++ rest

/-- A double that is not negative as text with at least one place. -/
def fixed (places : Nat) (x : Float) : String := point places (scaled places x)

end Decimal
end DumpRouter
