import Mathlib.Data.List.Forall2

/-!
# DumpRouter.Proofs.Export.JsonText

A reader of JSON, and what it takes for a piece of text to be read.

* `Json.value`, `Json.parse`: the reader. It takes blanks between tokens, all escapes of a string,
  surrogates in pairs, fractions and exponents, and refuses control characters in a string and zeros
  in front of a number.
* `Json.Reads`: a piece of text is read as something, whatever stands behind it.
* `reads_sequence`: items with commas between them, and with blanks around them, are read as a list.
-/

namespace DumpRouter

/-- A JSON value. A number is a mantissa and an exponent of ten. -/
inductive Json where
  | null
  | bool (b : Bool)
  | number (mantissa exponent : Int)
  | string (s : String)
  | array (items : List Json)
  | object (members : List (String × Json))

namespace Json

/-- A reader gives what it has read and the text behind it. -/
abbrev Read (α : Type) := List Char → Option (α × List Char)

def isBlank (c : Char) : Bool := c == ' ' || c == '\t' || c == '\n' || c == '\r'

def skip (s : List Char) : List Char := s.dropWhile isBlank

/-! ## Strings -/

def hexDigit? (c : Char) : Option Nat :=
  if c.isDigit then some (c.toNat - '0'.toNat)
  else if 'a' ≤ c ∧ c ≤ 'f' then some (c.toNat - 'a'.toNat + 10)
  else if 'A' ≤ c ∧ c ≤ 'F' then some (c.toNat - 'A'.toNat + 10)
  else none

/-- Four hexadecimal digits. -/
def codeUnit : Read Nat
  | a :: b :: c :: d :: s => do
    let a ← hexDigit? a
    let b ← hexDigit? b
    let c ← hexDigit? c
    let d ← hexDigit? d
    some (((a * 16 + b) * 16 + c) * 16 + d, s)
  | _ => none

/-- A character in one code unit, or in two that are a pair of surrogates. -/
def unicode : Read Char := fun s => do
  let (n, s) ← codeUnit s
  if n < 0xD800 ∨ 0xDFFF < n then some (Char.ofNat n, s)
  else if 0xDC00 ≤ n then none
  else match s with
    | '\\' :: 'u' :: s => do
      let (m, s) ← codeUnit s
      if m < 0xDC00 ∨ 0xDFFF < m then none
      else some (Char.ofNat (0x10000 + (n - 0xD800) * 0x400 + (m - 0xDC00)), s)
    | _ => none

def escapes : List (Char × Char) := [
  ('"', '"'), ('\\', '\\'), ('/', '/'), ('b', '\x08'), ('f', '\x0c'), ('n', '\n'), ('r', '\r'),
  ('t', '\t')]

/-- One character of a string, as it is or as an escape. -/
def character : Read Char
  | [] => none
  | c :: s =>
    if c = '\\' then
      match s with
      | [] => none
      | e :: s => if e = 'u' then unicode s else (escapes.lookup e).map fun c => (c, s)
    else if c.toNat < 0x20 then none
    else some (c, s)

/-- The characters up to the closing quote, fewer than the bound. -/
def characters : Nat → Read (List Char)
  | 0, _ => none
  | n + 1, s =>
    if s.head? = some '"' then some ([], s.tail)
    else do
      let (c, s) ← character s
      let (cs, s) ← characters n s
      some (c :: cs, s)

/-- A string. Every character takes up text, so that there are not more of them than the text is
long. -/
def text : Read String := fun s =>
  if s.head? = some '"' then
    (characters s.length s.tail).map fun (cs, s) => (String.ofList cs, s)
  else none

/-! ## Numbers -/

def digits (s : List Char) : List Char × List Char :=
  (s.takeWhile Char.isDigit, s.dropWhile Char.isDigit)

/-- The digits in front of the point. A zero stands alone. -/
def whole (s : List Char) : Option (List Char × List Char) :=
  let (ds, s) := digits s
  if ds = [] ∨ ds.head? = some '0' ∧ ds.length ≠ 1 then none else some (ds, s)

/-- The digits behind the point, if there is one. -/
def fraction (s : List Char) : Option (List Char × List Char) :=
  if s.head? = some '.' then
    let (ds, s) := digits s.tail
    if ds = [] then none else some (ds, s)
  else some ([], s)

def sign (s : List Char) : Int × List Char :=
  if s.head? = some '-' then (-1, s.tail) else (1, s)

/-- The exponent, if there is one. -/
def exponent : Read Int := fun s =>
  if s.head? = some 'e' ∨ s.head? = some 'E' then
    let (k, s) := if s.tail.head? = some '+' then (1, s.tail.tail) else sign s.tail
    let (ds, s) := digits s
    if ds = [] then none else some (k * Nat.ofDigitChars 10 ds 0, s)
  else some (0, s)

def numeral : Read Json := fun s => do
  let (k, s) := sign s
  let (ds, s) ← whole s
  let (fs, s) ← fraction s
  let (e, s) ← exponent s
  some (.number (k * Nat.ofDigitChars 10 (ds ++ fs) 0) (e - fs.length), s)

/-! ## Values -/

section

variable {α : Type} (close : Char) (item : Read α)

/-- Items with commas between them, one at least, and the closing bracket; at most `n` items. -/
def items : Nat → Read (List α)
  | 0, _ => none
  | n + 1, s => do
    let (x, s) ← item (skip s)
    match skip s with
    | [] => none
    | c :: s =>
      if c = close then some ([x], s)
      else if c = ',' then do
        let (xs, s) ← items n s
        some (x :: xs, s)
      else none

/-- What stands between brackets, behind the opening one. -/
def sequence : Read (List α) := fun s =>
  match skip s with
  | [] => none
  | c :: t => if c = close then some ([], t) else items close item s.length s

end

def member (value : Read Json) : Read (String × Json) := fun s => do
  let (k, s) ← text s
  let s := skip s
  if s.head? = some ':' then do
    let (v, s) ← value (skip s.tail)
    some ((k, v), s)
  else none

def constants : List (List Char × Json) :=
  [("null".toList, .null), ("true".toList, .bool true), ("false".toList, .bool false)]

def constant : Read Json := fun s =>
  constants.findSome? fun (w, v) => if w.isPrefixOf s then some (v, s.drop w.length) else none

/-- A value with fewer than the given number of brackets around one another. -/
def value : Nat → Read Json
  | 0, _ => none
  | _ + 1, [] => none
  | n + 1, c :: s =>
    if c = '[' then (sequence ']' (value n) s).map fun (xs, s) => (.array xs, s)
    else if c = '\x7b' then
      (sequence '\x7d' (member (value n)) s).map fun (ms, s) => (.object ms, s)
    else if c = '"' then (text (c :: s)).map fun (t, s) => (.string t, s)
    else constant (c :: s) <|> numeral (c :: s)

/-- The value that a text is, blanks around it left out. -/
def parse (document : String) : Option Json :=
  match value document.toList.length (skip document.toList) with
  | none => none
  | some (v, s) => if skip s = [] then some v else none

/-! ## Pieces of text that are read -/

/-- The first piece, and each of the others behind a separator. -/
theorem intercalate_cons {α : Type} (sep w : List α) (ws : List (List α)) :
    sep.intercalate (w :: ws) = w ++ ws.flatMap (sep ++ ·) := by
  induction ws generalizing w with
  | nil => simp
  | cons v ws ih =>
    rw [List.intercalate_cons_cons, ih, List.flatMap_cons, List.append_assoc, List.append_assoc]

/-- Behind a value: nothing that could go on with a number. -/
def Stops (s : List Char) : Prop :=
  ∀ c, s.head? = some c → c.isDigit = false ∧ c ≠ '.' ∧ c ≠ 'e' ∧ c ≠ 'E'

/-- The piece of text `w` is read as `v`, and cannot be taken for a blank or a closing bracket. -/
structure Reads {α : Type} (read : Read α) (w : List Char) (v : α) : Prop where
  begins : ∃ c t, w = c :: t ∧ isBlank c = false ∧ c ≠ ']' ∧ c ≠ '\x7d'
  reads : ∀ s, Stops s → read (w ++ s) = some (v, s)

theorem skip_blanks {b : List Char} (hb : b.all isBlank = true) (s : List Char) :
    skip (b ++ s) = skip s := List.dropWhile_append_of_pos (List.all_eq_true.1 hb)

theorem skip_cons {c : Char} (hc : isBlank c = false) (s : List Char) : skip (c :: s) = c :: s :=
  List.dropWhile_cons_of_neg (by simp [hc])

theorem stops_cons {c : Char} (hc : c ∈ [',', ']', '\x7d'] ∨ isBlank c = true) (s : List Char) :
    Stops (c :: s) := by
  intro d hd
  obtain rfl := Option.some.inj hd
  have hmem : c = ',' ∨ c = ']' ∨ c = '\x7d' ∨ c = ' ' ∨ c = '\t' ∨ c = '\n' ∨ c = '\r' := by
    simpa [isBlank, or_assoc] using hc
  rcases hmem with rfl | rfl | rfl | rfl | rfl | rfl | rfl
  all_goals decide

section Sequence

variable {α : Type} {item : Read α} {w : List Char} {v : α}

theorem Reads.skip (h : Reads item w v) (s : List Char) : skip (w ++ s) = w ++ s := by
  obtain ⟨c, t, rfl, hc, -, -⟩ := h.begins
  exact skip_cons hc (t ++ s)

theorem Reads.length_pos (h : Reads item w v) : 0 < w.length := by
  obtain ⟨c, t, rfl, -⟩ := h.begins
  exact Nat.succ_pos _

variable {close : Char} (hclose : close = ']' ∨ close = '\x7d') {lead trail : List Char}
  (hlead : lead.all isBlank = true) (htrail : trail.all isBlank = true)

include hclose in
theorem isBlank_close : isBlank close = false := by
  rcases hclose with rfl | rfl <;> rfl

include hclose htrail in
theorem stops_trail (s : List Char) : Stops (trail ++ close :: s) := by
  cases trail with
  | nil =>
    refine stops_cons (.inl ?_) s
    rcases hclose with rfl | rfl <;> simp
  | cons c t =>
    rw [List.all_cons, Bool.and_eq_true] at htrail
    exact stops_cons (.inr htrail.1) _

include hclose hlead htrail in
theorem items_written {ws : List (List Char)} {vs : List α} (h : List.Forall₂ (Reads item) ws vs)
    (hne : ws ≠ []) {n : Nat} (hn : ws.length ≤ n) (s : List Char) :
    items close item n ([','].intercalate (ws.map (lead ++ ·)) ++ (trail ++ close :: s)) =
      some (vs, s) := by
  induction h generalizing n with
  | nil => exact absurd rfl hne
  | @cons w v ws vs hw hws ih =>
    obtain ⟨n, rfl⟩ := Nat.exists_eq_succ_of_ne_zero (Nat.ne_of_gt (Nat.lt_of_lt_of_le
      (Nat.succ_pos ws.length) hn))
    cases hws with
    | nil =>
      have hitem := hw.reads _ (stops_trail hclose htrail s)
      rw [List.map_singleton, List.intercalate_singleton, List.append_assoc, items,
        skip_blanks hlead, hw.skip, hitem]
      simp [skip_blanks htrail, skip_cons (isBlank_close hclose)]
    | @cons w' v' ws vs hw' hws =>
      have hcomma : close ≠ ',' := by rcases hclose with rfl | rfl <;> decide
      have hrest := ih (by simp) (n := n) (by simpa using hn)
      rw [List.map_cons] at hrest
      have hitem := hw.reads (',' :: ([','].intercalate ((lead ++ w') :: ws.map (lead ++ ·)) ++
        (trail ++ close :: s))) (stops_cons (.inl (by simp)) _)
      rw [List.map_cons, List.map_cons, List.intercalate_cons_cons, List.append_assoc,
        List.append_assoc, List.append_assoc, List.singleton_append, items, skip_blanks hlead,
        hw.skip, hitem]
      simp [skip_cons, isBlank, hcomma.symm, hrest]

theorem length_le_written {ws : List (List Char)} {vs : List α}
    (h : List.Forall₂ (Reads item) ws vs) :
    ws.length ≤ ([','].intercalate (ws.map (lead ++ ·))).length := by
  cases h with
  | nil => exact Nat.zero_le _
  | @cons w v ws vs hw hws =>
    have hrest : ws.length ≤ ((ws.map (lead ++ ·)).flatMap ([','] ++ ·)).length := by
      clear hws
      induction ws with
      | nil => exact Nat.zero_le _
      | cons w' ws ih =>
        rw [List.map_cons, List.flatMap_cons]
        simp only [List.length_append, List.length_cons] at ih ⊢
        omega
    have hpos := hw.length_pos
    rw [List.map_cons, intercalate_cons]
    simp only [List.length_append, List.length_cons] at hrest ⊢
    omega

include hclose hlead htrail in
/-- Items with commas between them and with blanks around them. -/
theorem sequence_written {ws : List (List Char)} {vs : List α}
    (h : List.Forall₂ (Reads item) ws vs) (hne : ws ≠ []) (s : List Char) :
    sequence close item ([','].intercalate (ws.map (lead ++ ·)) ++ (trail ++ close :: s)) =
      some (vs, s) := by
  have hlength : ws.length ≤
      ([','].intercalate (ws.map (lead ++ ·)) ++ (trail ++ close :: s)).length := by
    rw [List.length_append]
    exact Nat.le_add_right_of_le (length_le_written h)
  have hitems := items_written hclose hlead htrail h hne hlength s
  cases h with
  | nil => exact absurd rfl hne
  | @cons w v ws vs hw hws =>
    obtain ⟨c, t, hwrite, -, hbracket, hbrace⟩ := hw.begins
    have hopen : c ≠ close := by
      rcases hclose with rfl | rfl
      · exact hbracket
      · exact hbrace
    have hskip : ∃ r, skip ([','].intercalate ((w :: ws).map (lead ++ ·)) ++
        (trail ++ close :: s)) = c :: r := by
      rw [List.map_cons, intercalate_cons, List.append_assoc, List.append_assoc,
        skip_blanks hlead, hw.skip, hwrite]
      exact ⟨_, rfl⟩
    obtain ⟨r, hskip⟩ := hskip
    unfold sequence
    rw [hskip]
    dsimp only
    rw [if_neg hopen, hitems]

include hclose in
theorem sequence_nothing {b : List Char} (hb : b.all isBlank = true) (s : List Char) :
    sequence close item (b ++ close :: s) = some ([], s) := by
  unfold sequence
  rw [skip_blanks hb, skip_cons (isBlank_close hclose)]
  dsimp only
  rw [if_pos rfl]

end Sequence

section Values

variable {n : Nat} {lead trail : List Char} (hlead : lead.all isBlank = true)
  (htrail : trail.all isBlank = true) {ws : List (List Char)}

include hlead htrail

theorem value_array {vs : List Json} (h : List.Forall₂ (Reads (value n)) ws vs) (hne : ws ≠ [])
    (s : List Char) :
    value (n + 1) ('[' :: ([','].intercalate (ws.map (lead ++ ·)) ++ (trail ++ ']' :: s))) =
      some (.array vs, s) := by
  rw [value, if_pos rfl, sequence_written (.inl rfl) hlead htrail h hne s]
  rfl

theorem reads_object {ms : List (String × Json)}
    (h : List.Forall₂ (Reads (member (value n))) ws ms) (hne : ws ≠ []) :
    Reads (value (n + 1))
      ('\x7b' :: ([','].intercalate (ws.map (lead ++ ·)) ++ (trail ++ ['\x7d']))) (.object ms) := by
  refine ⟨⟨_, _, rfl, rfl, by decide, by decide⟩, fun s _ => ?_⟩
  have hsequence := sequence_written (.inr rfl) hlead htrail h hne s
  rw [List.cons_append, List.append_assoc, List.append_assoc, List.singleton_append, value,
    if_neg (by decide), if_pos rfl, hsequence]
  rfl

end Values

theorem reads_member {n : Nat} {k w b : List Char} {name : String} {v : Json}
    (hk : Reads text k name) (hw : Reads (value n) w v) (hb : b.all isBlank = true) :
    Reads (member (value n)) (k ++ ':' :: (b ++ w)) (name, v) := by
  refine ⟨?_, fun s hs => ?_⟩
  · obtain ⟨c, t, rfl, hc⟩ := hk.begins
    exact ⟨c, _, rfl, hc⟩
  have hstop : Stops (':' :: (b ++ w ++ s)) := by
    intro d hd
    obtain rfl := Option.some.inj hd
    decide
  have hname := hk.reads _ hstop
  unfold member
  rw [List.append_assoc, List.cons_append, hname]
  simp [skip_cons, isBlank, skip_blanks hb, hw.skip, hw.reads s hs]

end Json
end DumpRouter
