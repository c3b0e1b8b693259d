import DumpRouter.Toml.Value

/-!
# DumpRouter.Toml.Scalar

The values of TOML without parts: the four kinds of strings, integers in four bases, floats,
booleans, dates and times. Each reader takes the characters of a text and gives the value with what
follows it.
-/

namespace DumpRouter
namespace Toml

/-- A value with the text behind it. -/
abbrev Read (α : Type) := Option (α × List Char)

def isWs (c : Char) : Bool := c == ' ' || c == '\t'

/-- Characters that a line may hold behind a number sign. -/
def isLineChar (c : Char) : Bool :=
  c == '\t' || (0x20 ≤ c.toNat && c.toNat ≤ 0x7E) || 0x80 ≤ c.toNat

/-- What follows a line break, if the text starts with one. -/
def newline? : List Char → Option (List Char)
  | '\n' :: s => some s
  | '\r' :: '\n' :: s => some s
  | _ => none

def expect (lead : List Char) (s : List Char) : Option (List Char) :=
  if lead.isPrefixOf s then some (s.drop lead.length) else none

def hexValue? (c : Char) : Option Nat :=
  if c.isDigit then some (c.toNat - 48)
  else if 'a' ≤ c && c ≤ 'f' then some (c.toNat - 87)
  else if 'A' ≤ c && c ≤ 'F' then some (c.toNat - 55)
  else none

def hexDigits (value : Nat) : Nat → List Char → Read Nat
  | 0, s => some (value, s)
  | n + 1, c :: s => (hexValue? c).bind fun d => hexDigits (value * 16 + d) n s
  | _ + 1, [] => none

/-- The character of a code point, if it is one. -/
def scalar? (n : Nat) : Option Char :=
  if n < 0xD800 || (0xDFFF < n && n < 0x110000) then some (Char.ofNat n) else none

/-- What an escape stands for, read from behind the backslash. -/
def escape : List Char → Read Char
  | 'b' :: s => some ('\x08', s)
  | 'f' :: s => some ('\x0c', s)
  | 'n' :: s => some ('\n', s)
  | 'r' :: s => some ('\r', s)
  | 't' :: s => some ('\t', s)
  | '"' :: s => some ('"', s)
  | '\\' :: s => some ('\\', s)
  | 'u' :: s => (hexDigits 0 4 s).bind fun (n, t) => (scalar? n).map (·, t)
  | 'U' :: s => (hexDigits 0 8 s).bind fun (n, t) => (scalar? n).map (·, t)
  | _ => none

/-- The rest of a string in double quotes. The number bounds the characters. -/
def basicRest (acc : List Char) : Nat → List Char → Read String
  | 0, _ => none
  | n + 1, s =>
    match s with
    | [] => none
    | '"' :: t => some (String.ofList acc.reverse, t)
    | '\\' :: t => (escape t).bind fun (c, u) => basicRest (c :: acc) n u
    | c :: t => if isLineChar c then basicRest (c :: acc) n t else none

/-- The rest of a string in single quotes. -/
def literalRest (acc : List Char) : List Char → Read String
  | [] => none
  | c :: s =>
    if c == '\'' then some (String.ofList acc.reverse, s)
    else if isLineChar c then literalRest (c :: acc) s
    else none

/-- How many of a quote the text starts with, at most five. -/
def quoteRun (q : Char) (s : List Char) : Nat := ((s.take 5).takeWhile (· == q)).length

/-- What three quotes or more amount to at the end of a string over several lines: up to two belong
to the string. -/
def closeMulti (q : Char) (acc s : List Char) : Read String :=
  let n := quoteRun q s
  some (String.ofList (List.replicate (n - 3) q ++ acc).reverse, s.drop n)

/-- Skips blanks and line breaks. -/
def skipLines : Nat → List Char → List Char
  | 0, s => s
  | n + 1, s =>
    let t := s.dropWhile isWs
    match newline? t with
    | some u => skipLines n u
    | none => t

/-- What follows a backslash at the end of a line, and the blanks and line breaks behind it. -/
def lineJoin? (n : Nat) (s : List Char) : Option (List Char) :=
  (newline? (s.dropWhile isWs)).map (skipLines n)

/-- The rest of a string in three double quotes. -/
def multiBasicRest (acc : List Char) : Nat → List Char → Read String
  | 0, _ => none
  | n + 1, s =>
    if 3 ≤ quoteRun '"' s then closeMulti '"' acc s
    else match newline? s with
      | some t => multiBasicRest ('\n' :: acc) n t
      | none =>
        match s with
        | [] => none
        | '\\' :: t =>
          match lineJoin? n t with
          | some u => multiBasicRest acc n u
          | none => (escape t).bind fun (c, u) => multiBasicRest (c :: acc) n u
        | c :: t => if isLineChar c then multiBasicRest (c :: acc) n t else none

/-- The rest of a string in three single quotes. -/
def multiLiteralRest (acc : List Char) : Nat → List Char → Read String
  | 0, _ => none
  | n + 1, s =>
    if 3 ≤ quoteRun '\'' s then closeMulti '\'' acc s
    else match newline? s with
      | some t => multiLiteralRest ('\n' :: acc) n t
      | none =>
        match s with
        | [] => none
        | c :: t => if isLineChar c then multiLiteralRest (c :: acc) n t else none

/-- Drops a line break in front. -/
def skipNewline (s : List Char) : List Char := (newline? s).getD s

/-- A string on one line. The number bounds the characters. -/
def shortString (n : Nat) : List Char → Read String
  | '"' :: s => basicRest [] n s
  | '\'' :: s => literalRest [] s
  | _ => none

/-- A string of any kind. The number bounds the characters. -/
def string (n : Nat) (s : List Char) : Read String :=
  match s with
  | '"' :: '"' :: '"' :: t => multiBasicRest [] n (skipNewline t)
  | '\'' :: '\'' :: '\'' :: t => multiLiteralRest [] n (skipNewline t)
  | _ => shortString n s

/-- The longest run of digits in which an underscore may stand between two; the underscores are left
out. -/
def digitRun (p : Char → Bool) : List Char → List Char × List Char
  | [] => ([], [])
  | '_' :: c :: s =>
    if p c then
      let (ds, t) := digitRun p s
      (c :: ds, t)
    else ([], '_' :: c :: s)
  | c :: s =>
    if p c then
      let (ds, t) := digitRun p s
      (c :: ds, t)
    else ([], c :: s)

def digits (p : Char → Bool) (s : List Char) : Read (List Char) :=
  if s.head?.any p then some (digitRun p s) else none

/-- The sign of a number: whether it is negative, and what follows. -/
def sign : List Char → Bool × List Char
  | '+' :: s => (false, s)
  | '-' :: s => (true, s)
  | s => (false, s)

/-- Decimal digits without a zero in front. -/
def wholePart : List Char → Read (List Char)
  | '0' :: s => some (['0'], s)
  | s => digits Char.isDigit s

/-- The number that digits of a base stand for. -/
def ofDigits (base : Nat) (ds : List Char) : Nat :=
  ds.foldl (fun n c => n * base + (hexValue? c).getD 0) 0

def significant (ds : List Char) : List Char := ds.dropWhile (· == '0')

/-- Integers are words of 64 bits with a sign. -/
def inWord (i : Int) : Bool := -0x8000000000000000 ≤ i && i < 0x8000000000000000

/-- The integer that digits of a base stand for, if it is a word. In every base more than 64 digits
are too many. -/
def word? (negative : Bool) (base : Nat) (ds : List Char) : Option Value :=
  let ds := significant ds
  if 64 < ds.length then none
  else
    let n : Int := ofDigits base ds
    let i := if negative then -n else n
    if inWord i then some (.integer i) else none

/-- Digits of a base behind its mark. -/
def based (base : Nat) (s : List Char) : Read Value :=
  (digits (fun c => (hexValue? c).any (· < base)) s).bind fun (ds, t) =>
    (word? false base ds).map (·, t)

def integer (s : List Char) : Read Value :=
  match s with
  | '0' :: 'x' :: t => based 16 t
  | '0' :: 'o' :: t => based 8 t
  | '0' :: 'b' :: t => based 2 t
  | _ =>
    let (negative, t) := sign s
    (wholePart t).bind fun (ds, u) => (word? negative 10 ds).map (·, u)

/-- The number that an exponent's digits stand for. Once it has reached 65536 no more digits count,
since there are no doubles of such a size. -/
def exponentValue (ds : List Char) : Nat :=
  ds.foldl (fun n c => if n < 65536 then n * 10 + (c.toNat - 48) else n) 0

def exponent : List Char → Read Int
  | c :: s =>
    if c == 'e' || c == 'E' then
      let (negative, t) := sign s
      (digits Char.isDigit t).map fun (ds, u) =>
        let n : Int := exponentValue ds
        (if negative then -n else n, u)
    else none
  | [] => none

/-- The least number that is too large for a double lies half a unit above the largest double. It
has 309 digits. -/
def doubleBound : Nat := Nat.pow 2 1024 - Nat.pow 2 970

/-- Whether the number with digits `ds` before the point and `fs` behind it, times a power of ten,
is too large for a double. If its whole part has as many digits as the bound, the whole part alone
decides. -/
def overflows (ds fs : List Char) (power : Int) : Bool :=
  let all := significant (ds ++ fs)
  let size : Int := all.length - fs.length + power
  if all.isEmpty || size < 309 then false
  else if 309 < size then true
  else
    let first := all.take 309
    doubleBound ≤ ofDigits 10 first * Nat.pow 10 (309 - first.length)

/-- The digits and the exponent behind the point of a float; one of the two must be there. -/
def fraction (s : List Char) : Read (List Char × Int) :=
  match exponent s with
  | some (e, t) => some (([], e), t)
  | none =>
    match s with
    | '.' :: t =>
      (digits Char.isDigit t).map fun (ds, u) =>
        match exponent u with
        | some (e, v) => ((ds, e), v)
        | none => ((ds, 0), u)
    | _ => none

/-- A float. One that is too large is refused, unless it is negative. -/
def float (s : List Char) : Read Value :=
  let (negative, t) := sign s
  match expect ['i', 'n', 'f'] t, expect ['n', 'a', 'n'] t with
  | some u, _ => some (.float, u)
  | none, some u => some (.float, u)
  | none, none =>
    (wholePart t).bind fun (ds, u) =>
      (fraction u).bind fun ((fs, e), v) =>
        if !negative && overflows ds fs e then none else some (.float, v)

/-- Exactly `n` decimal digits. -/
def fixedDigits (value : Nat) : Nat → List Char → Read Nat
  | 0, s => some (value, s)
  | n + 1, c :: s => if c.isDigit then fixedDigits (value * 10 + (c.toNat - 48)) n s else none
  | _ + 1, [] => none

/-- `n` decimal digits of a number in a range. -/
def inRange (n lo hi : Nat) (s : List Char) : Read Nat :=
  (fixedDigits 0 n s).bind fun (v, t) => if lo ≤ v && v ≤ hi then some (v, t) else none

def isLeap (year : Nat) : Bool := year % 4 = 0 && (year % 100 ≠ 0 || year % 400 = 0)

def daysIn (year month : Nat) : Nat :=
  if month = 2 then (if isLeap year then 29 else 28)
  else if [4, 6, 9, 11].contains month then 30
  else 31

/-- What follows a date. -/
def date? (s : List Char) : Option (List Char) :=
  (fixedDigits 0 4 s).bind fun (year, s) =>
    (expect ['-'] s).bind fun s =>
      (inRange 2 1 12 s).bind fun (month, s) =>
        (expect ['-'] s).bind fun s =>
          (inRange 2 1 (daysIn year month) s).map (·.2)

/-- What follows the fraction of a second, if there is one. -/
def secondFraction (s : List Char) : List Char :=
  match s with
  | '.' :: c :: t => if c.isDigit then t.dropWhile Char.isDigit else s
  | _ => s

/-- What follows a time of day. A minute may have a leap second. -/
def time? (s : List Char) : Option (List Char) :=
  (inRange 2 0 23 s).bind fun (_, s) =>
    (expect [':'] s).bind fun s =>
      (inRange 2 0 59 s).bind fun (_, s) =>
        (expect [':'] s).bind fun s =>
          (inRange 2 0 60 s).map fun (_, s) => secondFraction s

/-- What follows a distance to Greenwich, if there is one. -/
def offset (s : List Char) : List Char :=
  let numeric (t : List Char) : List Char :=
    ((inRange 2 0 23 t).bind fun (_, u) =>
      (expect [':'] u).bind fun u => (inRange 2 0 59 u).map (·.2)).getD s
  match s with
  | 'Z' :: t => t
  | 'z' :: t => t
  | '+' :: t => numeric t
  | '-' :: t => numeric t
  | _ => s

def datetime (s : List Char) : Read Value :=
  match date? s with
  | some t =>
    let behind := match t with
      | c :: u => if c == 'T' || c == 't' || c == ' ' then (time? u).map offset else none
      | [] => none
    some (.datetime, behind.getD t)
  | none => (time? s).map (.datetime, ·)

def boolean (s : List Char) : Read Value :=
  match expect ['t', 'r', 'u', 'e'] s, expect ['f', 'a', 'l', 's', 'e'] s with
  | some t, _ => some (.boolean true, t)
  | none, some t => some (.boolean false, t)
  | none, none => none

/-- A value without parts. The number bounds the characters. -/
def scalar (n : Nat) (s : List Char) : Read Value :=
  match s with
  | [] => none
  | c :: _ =>
    if c == '"' || c == '\'' then (string n s).map fun (x, t) => (.string x, t)
    else if c.isDigit || c == '+' || c == '-' then
      match datetime s with
      | some r => some r
      | none =>
        match float s with
        | some r => some r
        | none => integer s
    else if c == 'i' || c == 'n' then float s
    else boolean s

end Toml
end DumpRouter
