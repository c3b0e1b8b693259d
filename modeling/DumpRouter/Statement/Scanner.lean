import DumpRouter.Bytes

/-!
# DumpRouter.Statement.Scanner

Where a statement ends. The scanner reads one byte at a time and knows quoted literals, comments
that run from two dashes to the end of the line, and backslashes that make the next byte inert.
A semicolon ends the statement unless it stands in a literal or a comment.

* `State.advance`: one byte.
* `State.scan`: up to the end of the statement.
* `State.scan_append`: a text may be scanned in portions.
-/

namespace DumpRouter
namespace Scanner

/-- The two quotes that literals are written in. -/
inductive Quote where
  | single
  | double
  deriving DecidableEq, Repr

def Quote.byte : Quote → UInt8
  | .single => 39
  | .double => 34

def terminator : UInt8 := 59

inductive State where
  /-- Between tokens. -/
  | code
  /-- Behind one dash, which a second dash would turn into a comment. -/
  | dash
  /-- Behind a backslash outside literals. -/
  | escape
  | literal (q : Quote)
  /-- Behind a backslash inside a literal. -/
  | literalEscape (q : Quote)
  | comment
  deriving DecidableEq, Repr

namespace State

def inLiteral : State → Bool
  | .literal _ | .literalEscape _ => true
  | _ => false

def escapePending : State → Bool
  | .escape | .literalEscape _ => true
  | _ => false

def inComment : State → Bool
  | .comment => true
  | _ => false

/-- What a byte outside literals, comments and escapes leads to. -/
def start (dashBefore : Bool) (b : UInt8) : State :=
  if b == Quote.single.byte then .literal .single
  else if b == Quote.double.byte then .literal .double
  else if b == 45 then (if dashBefore then .comment else .dash)
  else if b == 92 then .escape
  else .code

/-- The state behind byte `b`, and whether `b` ends the statement. -/
def advance (s : State) (b : UInt8) : State × Bool :=
  match s with
  | .code => (start false b, b == terminator)
  | .dash => (start true b, b == terminator)
  | .escape => (.code, b == terminator)
  | .literal q => (if b == q.byte then .code else if b == 92 then .literalEscape q else s, false)
  | .literalEscape q => (.literal q, false)
  | .comment => (if b == 10 then .code else .comment, false)

/-- Scans a text of which `n` bytes lie behind. -/
def scanFrom (n : Nat) (s : State) : Bytes → State × Option Nat
  | [] => (s, none)
  | b :: t =>
    match s.advance b with
    | (s', true) => (s', some (n + 1))
    | (s', false) => scanFrom (n + 1) s' t

/-- Scans up to the end of the statement and gives the number of bytes up to there, or `none` if
the statement goes on. -/
def scan (s : State) (t : Bytes) : State × Option Nat := scanFrom 0 s t

theorem advance_terminates {s s' : State} {b : UInt8} (h : s.advance b = (s', true)) :
    s' = .code ∧ b = terminator := by
  cases s with
  | code =>
    obtain ⟨rfl, hb⟩ := Prod.mk.inj h
    rw [eq_of_beq hb]
    exact ⟨rfl, rfl⟩
  | dash =>
    obtain ⟨rfl, hb⟩ := Prod.mk.inj h
    rw [eq_of_beq hb]
    exact ⟨rfl, rfl⟩
  | escape =>
    obtain ⟨rfl, hb⟩ := Prod.mk.inj h
    exact ⟨rfl, eq_of_beq hb⟩
  | literal q => simp [advance] at h
  | literalEscape q => simp [advance] at h
  | comment => simp [advance] at h

theorem scanFrom_eq (n : Nat) (s : State) (t : Bytes) :
    scanFrom n s t = ((scan s t).1, (scan s t).2.map (n + ·)) := by
  have key : ∀ (t : Bytes) (m n : Nat) (s : State),
      scanFrom (n + m) s t = ((scanFrom m s t).1, (scanFrom m s t).2.map (n + ·)) := by
    intro t
    induction t with
    | nil => intros; rfl
    | cons b t ih =>
      intro m n s
      unfold scanFrom
      cases h : s.advance b with
      | mk s' e =>
        cases e
        · exact ih (m + 1) n s'
        · simp [Nat.add_assoc]
  exact key t 0 n s

theorem scan_cons (s : State) (b : UInt8) (t : Bytes) :
    scan s (b :: t) =
      if (s.advance b).2 then ((s.advance b).1, some 1)
      else ((scan (s.advance b).1 t).1, (scan (s.advance b).1 t).2.map (1 + ·)) := by
  unfold scan
  rw [scanFrom]
  cases h : s.advance b with
  | mk s' e =>
    cases e
    · simp [scanFrom_eq 1, scan]
    · simp

theorem scan_append (s : State) (t u : Bytes) :
    scan s (t ++ u) =
      match scan s t with
      | (s', some n) => (s', some n)
      | (s', none) => ((scan s' u).1, (scan s' u).2.map (t.length + ·)) := by
  induction t generalizing s with
  | nil => simp [scan, scanFrom]
  | cons b t ih =>
    rw [List.cons_append, scan_cons, scan_cons]
    by_cases h : (s.advance b).2 = true
    · simp [h]
    · simp only [h, Bool.false_eq_true, if_false, ih]
      cases hs : scan (s.advance b).1 t with
      | mk s' o =>
        cases o with
        | some n => simp
        | none => simp [Option.map_map, Function.comp_def, Nat.add_assoc, Nat.add_comm]

theorem scan_le {s s' : State} {t : Bytes} {n : Nat} (h : scan s t = (s', some n)) :
    0 < n ∧ n ≤ t.length := by
  induction t generalizing s n with
  | nil => simp [scan, scanFrom] at h
  | cons b t ih =>
    rw [scan_cons] at h
    by_cases hb : (s.advance b).2 = true
    · simp [hb] at h
      simp [← h.2]
    · simp only [hb, Bool.false_eq_true, if_false, Prod.mk.injEq, Option.map_eq_some_iff] at h
      obtain ⟨hs, m, hm, rfl⟩ := h
      have := @ih (s.advance b).1 m (Prod.ext hs hm)
      simp only [List.length_cons]
      omega

end State
end Scanner
end DumpRouter
