import DumpRouter.Statement.Scanner

/-!
# DumpRouter.Proofs.Statement.Tokens

What the scanner recognises. A text is read as a row of tokens: quoted literals, comments, bytes
behind a backslash and single bytes. The statement ends with the first token that is a semicolon, or
a semicolon behind a backslash, and so never inside a literal or a comment.

* `Token`, `Token.Fits`, `Reads`: the tokens, and which of them a text begins with.
* `reads_unique`: a text begins with one token at most.
* `Stops`: where a reader that takes one token after the other meets the end of the statement.
* `scan_reads`: the scanner passes over a token as a whole, or ends with it.
* `scan_stops`: it gives the place where the reader of tokens stops, and none if that stops nowhere.
-/

namespace DumpRouter
namespace Scanner

/-- What stands in a literal: a byte for itself, or a byte behind a backslash. -/
inductive Inner where
  | plain (b : UInt8)
  | escaped (b : UInt8)
  deriving DecidableEq, Repr

namespace Inner

def bytes : Inner → Bytes
  | .plain b => [b]
  | .escaped b => [92, b]

/-- Only the quote that ends the literal and the backslash cannot stand for themselves; the other
quote, dashes and semicolons can. -/
def Within (q : Quote) : Inner → Prop
  | .plain b => b ≠ q.byte ∧ b ≠ 92
  | .escaped _ => True

end Inner

inductive Token where
  | literal (q : Quote) (body : List Inner)
  /-- Two dashes and what stands behind them up to the end of the line. -/
  | comment (body : Bytes)
  /-- A byte behind a backslash. -/
  | escaped (b : UInt8)
  | single (b : UInt8)
  deriving DecidableEq, Repr

namespace Token

def bytes : Token → Bytes
  | .literal q body => q.byte :: (body.flatMap Inner.bytes ++ [q.byte])
  | .comment body => 45 :: 45 :: (body ++ [10])
  | .escaped b => [92, b]
  | .single b => [b]

/-- Whether the statement ends with the token. -/
def ends : Token → Bool
  | .escaped b | .single b => b == terminator
  | .literal .. | .comment _ => false

/-- The token can be read where `rest` stands behind it. A single byte begins no other token. -/
def Fits : Token → Bytes → Prop
  | .literal q body, _ => ∀ i ∈ body, i.Within q
  | .comment body, _ => 10 ∉ body
  | .escaped _, _ => True
  | .single b, rest =>
    (∀ q : Quote, b ≠ q.byte) ∧ b ≠ 92 ∧ ¬ (b = 45 ∧ rest.head? = some 45)

theorem length_pos (x : Token) : 0 < x.bytes.length := by
  cases x <;> simp [bytes]

end Token

/-- The text begins with the token, and `rest` stands behind it. -/
structure Reads (x : Token) (t rest : Bytes) : Prop where
  text : t = x.bytes ++ rest
  fits : x.Fits rest

/-- A reader that takes one token after the other ends the statement with the `k`th byte. -/
inductive Stops : Bytes → Nat → Prop where
  | here {x : Token} {t rest : Bytes} : Reads x t rest → x.ends = true → Stops t x.bytes.length
  | later {x : Token} {t rest : Bytes} {k : Nat} : Reads x t rest → x.ends = false →
      Stops rest k → Stops t (x.bytes.length + k)

variable {q : Quote} {body body' : List Inner} {rest rest' t : Bytes}

theorem Quote.byte_inj {q q' : Quote} (h : q.byte = q'.byte) : q = q' := by
  cases q <;> cases q' <;> first | rfl | exact absurd h (by decide)

theorem literal_unique (h : ∀ i ∈ body, i.Within q) (h' : ∀ i ∈ body', i.Within q)
    (he : body.flatMap Inner.bytes ++ q.byte :: rest =
      body'.flatMap Inner.bytes ++ q.byte :: rest') : body = body' ∧ rest = rest' := by
  have hq : q.byte ≠ 92 := by cases q <;> decide
  induction body generalizing body' with
  | nil =>
    cases body' with
    | nil => exact ⟨rfl, (List.cons.inj he).2⟩
    | cons i body' =>
      -- the quote would be the first byte inside
      have hi := h' i (by simp)
      cases i with
      | plain b => exact absurd (List.cons.inj he).1.symm hi.1
      | escaped b => exact absurd (List.cons.inj he).1 hq
  | cons i body ih =>
    have hi := h i (by simp)
    have hbody : ∀ j ∈ body, j.Within q := fun j hj => h j (by simp [hj])
    cases body' with
    | nil =>
      cases i with
      | plain b => exact absurd (List.cons.inj he).1 hi.1
      | escaped b => exact absurd (List.cons.inj he).1.symm hq
    | cons i' body' =>
      have hi' := h' i' (by simp)
      have hbody' : ∀ j ∈ body', j.Within q := fun j hj => h' j (by simp [hj])
      cases i with
      | plain b =>
        cases i' with
        | plain b' =>
          obtain ⟨rfl, ht⟩ := List.cons.inj he
          obtain ⟨rfl, rfl⟩ := ih hbody hbody' ht
          exact ⟨rfl, rfl⟩
        | escaped b' => exact absurd (List.cons.inj he).1 hi.2
      | escaped b =>
        cases i' with
        | plain b' => exact absurd (List.cons.inj he).1.symm hi'.2
        | escaped b' =>
          obtain ⟨rfl, ht⟩ := List.cons.inj (List.cons.inj he).2
          obtain ⟨rfl, rfl⟩ := ih hbody hbody' ht
          exact ⟨rfl, rfl⟩

theorem comment_unique {a b : Bytes} (ha : 10 ∉ a) (hb : 10 ∉ b)
    (he : a ++ 10 :: rest = b ++ 10 :: rest') : a = b ∧ rest = rest' := by
  have hspan : ∀ {c u : Bytes}, 10 ∉ c →
      (c ++ 10 :: u).takeWhile (· != 10) = c ∧ (c ++ 10 :: u).dropWhile (· != 10) = 10 :: u := by
    intro c u hc
    have hall : ∀ x ∈ c, (x != 10) = true := by
      intro x hx
      simpa using ne_of_mem_of_not_mem hx hc
    exact ⟨by simp [List.takeWhile_append_of_pos hall], by simp [List.dropWhile_append_of_pos hall]⟩
  have ht := congrArg (List.takeWhile (· != 10)) he
  have hd := congrArg (List.dropWhile (· != 10)) he
  rw [(hspan ha).1, (hspan hb).1] at ht
  rw [(hspan ha).2, (hspan hb).2] at hd
  exact ⟨ht, (List.cons.inj hd).2⟩

theorem reads_unique {x y : Token} (hx : Reads x t rest) (hy : Reads y t rest') :
    x = y ∧ rest = rest' := by
  have he : x.bytes ++ rest = y.bytes ++ rest' := hx.text.symm.trans hy.text
  have hx := hx.fits
  have hy := hy.fits
  cases x with
  | literal q body =>
    cases y with
    | literal q' body' =>
      obtain ⟨hq, ht⟩ := List.cons.inj he
      obtain rfl := Quote.byte_inj hq
      obtain ⟨rfl, rfl⟩ := literal_unique hx hy (by simpa using ht)
      exact ⟨rfl, rfl⟩
    | comment body' => exact absurd (List.cons.inj he).1 (by cases q <;> decide)
    | escaped b => exact absurd (List.cons.inj he).1 (by cases q <;> decide)
    | single b => exact absurd (List.cons.inj he).1.symm (hy.1 q)
  | comment body =>
    cases y with
    | literal q' body' => exact absurd (List.cons.inj he).1 (by cases q' <;> decide)
    | comment body' =>
      have ht := (List.cons.inj (List.cons.inj he).2).2
      obtain ⟨rfl, rfl⟩ := comment_unique hx hy (by simpa using ht)
      exact ⟨rfl, rfl⟩
    | escaped b => exact absurd (List.cons.inj he).1 (by decide)
    | single b =>
      obtain ⟨rfl, ht⟩ := List.cons.inj he
      exact absurd ⟨rfl, by rw [← show _ = rest' from ht]; rfl⟩ hy.2.2
  | escaped b =>
    cases y with
    | literal q' body' => exact absurd (List.cons.inj he).1 (by cases q' <;> decide)
    | comment body' => exact absurd (List.cons.inj he).1 (by decide)
    | escaped b' => simpa [Token.bytes] using he
    | single b' => exact absurd (List.cons.inj he).1.symm hy.2.1
  | single b =>
    cases y with
    | literal q' body' => exact absurd (List.cons.inj he).1 (hx.1 q')
    | comment body' =>
      obtain ⟨rfl, ht⟩ := List.cons.inj he
      exact absurd ⟨rfl, by rw [show rest = _ from ht]; rfl⟩ hx.2.2
    | escaped b' => exact absurd (List.cons.inj he).1 hx.2.1
    | single b' => simpa [Token.bytes] using he

namespace State

theorem pass_cons {s s' s'' : State} {b : UInt8} (h : s.advance b = (s', false))
    (ht : scan s' t = (s'', none)) : scan s (b :: t) = (s'', none) := by
  simp [scan_cons, h, ht]

theorem scan_literal (h : ∀ i ∈ body, i.Within q) :
    scan (.literal q) (body.flatMap Inner.bytes ++ [q.byte]) = (.code, none) := by
  induction body with
  | nil => exact pass_cons (by simp [advance]) rfl
  | cons i body ih =>
    have hi := h i (by simp)
    have ih := ih fun j hj => h j (by simp [hj])
    rw [List.flatMap_cons, List.append_assoc]
    cases i with
    | plain b =>
      have hstep : (literal q).advance b = (.literal q, false) := by
        simp [advance, hi.1, hi.2]
      exact pass_cons hstep ih
    | escaped b =>
      have hstep : (literal q).advance 92 = (.literalEscape q, false) := by
        cases q <;> rfl
      exact pass_cons hstep (pass_cons rfl ih)

theorem scan_comment {body : Bytes} (h : 10 ∉ body) :
    scan .comment (body ++ [10]) = (.code, none) := by
  induction body with
  | nil => rfl
  | cons b body ih =>
    simp only [List.mem_cons, not_or] at h
    have hstep : comment.advance b = (.comment, false) := by
      simp [advance, Ne.symm h.1]
    exact pass_cons hstep (ih h.2)

/-- The state that a token leaves behind. -/
def after : Token → State
  | .single b => if b = 45 then .dash else .code
  | _ => .code

/-- A dash in front of a text matters only if the text begins with another one. -/
theorem scan_after {x : Token} (h : x.Fits rest) :
    (scan (after x) rest).2 = (scan .code rest).2 := by
  cases x with
  | single b =>
    by_cases hb : b = 45
    · cases rest with
      | nil => simp [scan, scanFrom]
      | cons c rest =>
        have hc : c ≠ 45 := fun he => h.2.2 ⟨hb, by simp [he]⟩
        have hstep : dash.advance c = code.advance c := by
          simp [advance, start, hc]
        rw [after, if_pos hb, scan_cons, scan_cons, hstep]
    · rw [after, if_neg hb]
  | _ => rfl

theorem scan_token {x : Token} (h : x.Fits rest) :
    scan .code x.bytes = (after x, if x.ends then some x.bytes.length else none) := by
  cases x with
  | literal q body =>
    have hstep : code.advance q.byte = (.literal q, false) := by cases q <;> rfl
    exact pass_cons hstep (scan_literal h)
  | comment body =>
    have hdash : code.advance 45 = (.dash, false) := rfl
    have hopen : dash.advance 45 = (.comment, false) := rfl
    exact pass_cons hdash (pass_cons hopen (scan_comment h))
  | escaped b =>
    have hstep : code.advance 92 = (.escape, false) := rfl
    have hlast : scan .escape [b] = (.code, if b == terminator then some 1 else none) := by
      rw [scan_cons]
      cases hb : b == terminator <;> simp [advance, hb, scan, scanFrom]
    rw [Token.bytes, scan_cons, hstep, hlast]
    cases hb : b == terminator <;> simp [Token.ends, after, hb]
  | single b =>
    obtain ⟨hq, hb, -⟩ := h
    have hstep : code.advance b = (after (.single b), b == terminator) := by
      simp [advance, start, after, hq, hb]
    rw [Token.bytes, scan_cons, hstep]
    cases hb : b == terminator <;> simp [Token.ends, hb, scan, scanFrom]

theorem scan_reads {x : Token} (h : Reads x t rest) :
    (scan .code t).2 =
      if x.ends then some x.bytes.length else (scan .code rest).2.map (x.bytes.length + ·) := by
  rw [h.text, scan_append, scan_token h.fits]
  cases hx : x.ends with
  | true => rfl
  | false => simp [scan_after h.fits]

theorem none_cons {s s' : State} {b : UInt8} (h : s.advance b = (s', false))
    (ht : (scan s' t).2 = none) : (scan s (b :: t)).2 = none := by
  simp [scan_cons, h, ht]

/-- A literal is closed, or the scanner stays in it. -/
theorem literal_or_none (q : Quote) (t : Bytes) :
    (∃ (body : List Inner) (rest : Bytes), (∀ i ∈ body, i.Within q) ∧
        t = body.flatMap Inner.bytes ++ q.byte :: rest) ∨
      (scan (.literal q) t).2 = none := by
  match t with
  | [] => exact .inr rfl
  | b :: u =>
    by_cases hq : b = q.byte
    · exact .inl ⟨[], u, by simp, by simp [hq]⟩
    · by_cases he : b = 92
      · have hstep : (literal q).advance 92 = (.literalEscape q, false) := by
          cases q <;> rfl
        subst he
        match u with
        | [] => exact .inr (none_cons hstep rfl)
        | c :: v =>
          rcases literal_or_none q v with ⟨body, rest, hbody, rfl⟩ | hnone
          · exact .inl ⟨.escaped c :: body, rest, by simpa [Inner.Within] using hbody, rfl⟩
          · exact .inr (none_cons hstep (none_cons rfl hnone))
      · have hstep : (literal q).advance b = (.literal q, false) := by
          simp [advance, hq, he]
        rcases literal_or_none q u with ⟨body, rest, hbody, rfl⟩ | hnone
        · exact .inl ⟨.plain b :: body, rest, by simpa [Inner.Within, hq, he] using hbody, rfl⟩
        · exact .inr (none_cons hstep hnone)
termination_by t.length

/-- A comment has an end, or the scanner stays in it. -/
theorem comment_or_none (t : Bytes) :
    (∃ body rest, 10 ∉ body ∧ t = body ++ 10 :: rest) ∨ (scan .comment t).2 = none := by
  induction t with
  | nil => exact .inr rfl
  | cons b t ih =>
    by_cases hb : b = 10
    · exact .inl ⟨[], t, by simp, by simp [hb]⟩
    · have hstep : comment.advance b = (.comment, false) := by
        simp [advance, hb]
      rcases ih with ⟨body, rest, hbody, rfl⟩ | hnone
      · exact .inl ⟨b :: body, rest, by simp [hbody, Ne.symm hb], rfl⟩
      · exact .inr (none_cons hstep hnone)

/-- A text begins with a token, or the scanner reads it to its end. -/
theorem reads_or_none (t : Bytes) : (∃ x rest, Reads x t rest) ∨ (scan .code t).2 = none := by
  match t with
  | [] => exact .inr rfl
  | b :: u =>
    by_cases hq : ∃ q : Quote, b = q.byte
    · obtain ⟨q, rfl⟩ := hq
      have hstep : code.advance q.byte = (.literal q, false) := by cases q <;> rfl
      rcases literal_or_none q u with ⟨body, rest, hbody, rfl⟩ | hnone
      · exact .inl ⟨.literal q body, rest, by simp [Token.bytes], hbody⟩
      · exact .inr (none_cons hstep hnone)
    · by_cases he : b = 92
      · subst he
        match u with
        | [] => exact .inr rfl
        | c :: v => exact .inl ⟨.escaped c, v, rfl, trivial⟩
      · by_cases hd : b = 45 ∧ u.head? = some 45
        · obtain ⟨rfl, hu⟩ := hd
          obtain ⟨v, rfl⟩ := List.head?_eq_some_iff.1 hu
          rcases comment_or_none v with ⟨body, rest, hbody, rfl⟩ | hnone
          · exact .inl ⟨.comment body, rest, by simp [Token.bytes], hbody⟩
          · have hdash : code.advance 45 = (.dash, false) := rfl
            have hopen : dash.advance 45 = (.comment, false) := rfl
            exact .inr (none_cons hdash (none_cons hopen hnone))
        · exact .inl ⟨.single b, u, rfl, fun q hb => hq ⟨q, hb⟩, he, hd⟩

theorem stops_of_scan {k : Nat} (h : (scan .code t).2 = some k) : Stops t k := by
  -- a token is not empty, so what stands behind it is shorter
  induction hn : t.length using Nat.strongRecOn generalizing t k with
  | _ n ih =>
    rcases reads_or_none t with ⟨x, rest, hx⟩ | hnone
    · rw [scan_reads hx] at h
      cases he : x.ends with
      | true =>
        rw [he, if_pos rfl] at h
        cases h
        exact .here hx he
      | false =>
        rw [he, if_neg Bool.false_ne_true] at h
        obtain ⟨m, hm, rfl⟩ := Option.map_eq_some_iff.1 h
        have hlt : rest.length < n := by
          have := x.length_pos
          rw [← hn, hx.text, List.length_append]
          omega
        exact .later hx he (ih _ hlt hm rfl)
    · rw [hnone] at h
      cases h

theorem scan_of_stops {k : Nat} (h : Stops t k) : (scan .code t).2 = some k := by
  induction h with
  | here hx he => rw [scan_reads hx, if_pos he]
  | later hx he _ ih => simp [scan_reads hx, he, ih]

/-- The scanner ends a statement where a reader of tokens does, and nowhere if that does not. The
reader never has a choice, since a text begins with one token at most. -/
theorem scan_stops (t : Bytes) :
    (∀ k, (scan .code t).2 = some k ↔ Stops t k) ∧
      ((scan .code t).2 = none ↔ ∀ k, ¬ Stops t k) ∧
      ∀ x y rest rest', Reads x t rest → Reads y t rest' → x = y ∧ rest = rest' := by
  refine ⟨fun k => ⟨stops_of_scan, scan_of_stops⟩, ?_, fun _ _ _ _ => reads_unique⟩
  constructor
  · intro h k hk
    rw [scan_of_stops hk] at h
    cases h
  · intro h
    exact Option.eq_none_iff_forall_not_mem.2 fun k hk => h k (stops_of_scan hk)

end State

end Scanner
end DumpRouter
