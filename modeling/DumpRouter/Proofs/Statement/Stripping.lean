import DumpRouter.Proofs.Statement.Margins
import DumpRouter.Proofs.Statement.Tokens

/-!
# DumpRouter.Proofs.Statement.Stripping

What is stripped in front of a statement. Comments are read in two places: by the scanner, one byte
at a time, in search of the end of the statement, and by the search for its first word, which drops
them line by line. Both take the same bytes for comments.

* `Stripped`: the texts that begin with neither a blank nor a comment.
* `stripComments_cases`: a text is a lead and a stripped text, or it ends in a comment that goes on.
* `State.scan_lead`, `State.scan_unfinished`: how the scanner passes over these.
* `scan_stripComments`: the scanner ends a statement where it ends what is left when the statement
  has been stripped.
-/

namespace DumpRouter

/-- Neither a blank nor a comment begins the text. -/
structure Stripped (s : Bytes) : Prop where
  not_blank : ∀ b ∈ s.head?, Bytes.isBlank b = false
  not_comment : ¬ [45, 45] <+: s

/-- Blanks and comment lines, and then a comment whose line does not end. -/
def Unfinished (p : Bytes) : Prop := ∃ q c, Lead q ∧ 10 ∉ c ∧ p = q ++ 45 :: 45 :: c

theorem Stripped.nil : Stripped [] := ⟨nofun, by simp⟩

theorem Unfinished.append {p q : Bytes} (hq : Unfinished q) (h : ∀ r, Lead r → Lead (p ++ r)) :
    Unfinished (p ++ q) := by
  obtain ⟨r, c, hr, hc, rfl⟩ := hq
  exact ⟨p ++ r, c, h r hr, hc, (List.append_assoc ..).symm⟩

namespace Keyword

theorem stripFrom_unfinished {c : Bytes} (hc : 10 ∉ c) : stripFrom true c = [] := by
  induction c with
  | nil => rfl
  | cons b c ih =>
    simp only [List.mem_cons, not_or] at hc
    have hb : (b != 10) = true := by simpa using Ne.symm hc.1
    rw [stripFrom, if_pos rfl, hb]
    exact ih hc.2

theorem stripComments_comment (s : Bytes) :
    stripComments (45 :: 45 :: s) = stripFrom true s := rfl

theorem stripComments_of_stripped {s : Bytes} (h : Stripped s) : stripComments s = s := by
  cases s with
  | nil => rfl
  | cons b s =>
    have hb : Bytes.isBlank b = false := h.not_blank b rfl
    have hd : (b == 45 && s.head? == some 45) = false := by
      rw [Bool.eq_false_iff]
      intro hd
      simp only [Bool.and_eq_true, beq_iff_eq] at hd
      obtain ⟨rfl, hs⟩ := hd
      obtain ⟨t, rfl⟩ := List.head?_eq_some_iff.1 hs
      exact h.not_comment (by simp)
    simp [stripComments, stripFrom, hb, hd]

/-- What is stripped is blanks and comment lines, and what is left is stripped; or the text ends in
a comment and nothing is left. -/
theorem stripComments_cases (s : Bytes) :
    ∃ p, s = p ++ stripComments s ∧ Stripped (stripComments s) ∧
      (Lead p ∨ Unfinished p ∧ stripComments s = []) := by
  -- what stands behind a blank or a comment line is shorter
  induction hn : s.length using Nat.strongRecOn generalizing s with
  | _ n ih =>
    have behind : ∀ q t, s = q ++ t → q ≠ [] → (∀ r, Lead r → Lead (q ++ r)) →
        stripComments s = stripComments t →
        ∃ p, s = p ++ stripComments s ∧ Stripped (stripComments s) ∧
          (Lead p ∨ Unfinished p ∧ stripComments s = []) := by
      rintro q t rfl hne hlead hstrip
      have hlt : t.length < n := by
        have := List.length_pos_iff.2 hne
        rw [← hn, List.length_append]
        omega
      obtain ⟨p, ht, hs, hp⟩ := ih _ hlt t rfl
      rw [hstrip]
      refine ⟨q ++ p, by rw [List.append_assoc, ← ht], hs, ?_⟩
      exact hp.imp (hlead p) fun ⟨hu, hnil⟩ => ⟨hu.append hlead, hnil⟩
    cases s with
    | nil => exact ⟨[], rfl, .nil, .inl .nil⟩
    | cons b u =>
      by_cases hb : Bytes.isBlank b = true
      · refine behind [b] u rfl (by simp) (fun r hr => .blank hb hr) ?_
        simp [stripComments, stripFrom, hb]
      · by_cases hd : [45, 45] <+: b :: u
        · obtain ⟨v, hv⟩ := hd
          rw [List.cons_append, List.cons_append, List.nil_append] at hv
          obtain ⟨rfl, rfl⟩ := List.cons.inj hv
          by_cases hend : 10 ∈ v
          · obtain ⟨c, t, rfl, hc⟩ := List.eq_append_cons_of_mem hend
            refine behind (45 :: 45 :: (c ++ [10])) t (by simp) (by simp) ?_ ?_
            · intro r hr
              simpa using Lead.comment hc hr
            · rw [stripComments_comment, stripFrom_comment hc]
              rfl
          · have hnil : stripComments (45 :: 45 :: v) = [] := by
              rw [stripComments_comment, stripFrom_unfinished hend]
            refine ⟨45 :: 45 :: v, ?_, ?_, .inr ⟨⟨[], v, .nil, hend, rfl⟩, hnil⟩⟩
            · exact (hnil.symm ▸ List.append_nil _).symm
            · exact hnil.symm ▸ .nil
        · have hs : Stripped (b :: u) := ⟨by simpa using hb, hd⟩
          rw [stripComments_of_stripped hs]
          exact ⟨[], rfl, hs, .inl .nil⟩

end Keyword

namespace Scanner.State

theorem advance_blank {b : UInt8} (h : Bytes.isBlank b = true) :
    code.advance b = (.code, false) := by
  simp only [Bytes.isBlank, Bool.or_eq_true, beq_iff_eq] at h
  rcases h with ((rfl | rfl) | rfl) | rfl <;> rfl

theorem scan_lead {p : Bytes} (h : Lead p) : scan .code p = (.code, none) := by
  induction h with
  | nil => rfl
  | blank hb _ ih => exact pass_cons (advance_blank hb) ih
  | @comment c p hc _ ih =>
    have hbytes : 45 :: 45 :: (c ++ 10 :: p) = (Token.comment c).bytes ++ p := by
      simp [Token.bytes]
    have hfits : (Token.comment c).Fits p := hc
    rw [hbytes, scan_append, scan_token hfits]
    simp [Token.ends, after, ih]

theorem scan_unfinished {p : Bytes} (h : Unfinished p) : scan .code p = (.comment, none) := by
  obtain ⟨q, c, hq, hc, rfl⟩ := h
  have hin : scan .comment c = (.comment, none) := by
    clear hq
    induction c with
    | nil => rfl
    | cons b c ih =>
      simp only [List.mem_cons, not_or] at hc
      have hstep : comment.advance b = (.comment, false) := by
        simp [advance, Ne.symm hc.1]
      exact pass_cons hstep (ih hc.2)
  have hdash : code.advance 45 = (.dash, false) := rfl
  have hopen : dash.advance 45 = (.comment, false) := rfl
  rw [scan_append, scan_lead hq]
  simp [pass_cons hdash (pass_cons hopen hin)]

end Scanner.State

open Keyword (stripComments)
open Scanner (State)

/-- The scanner passes over what is stripped in front of a statement, the end of the statement is
where it ends what is left, and in what is left there is nothing more to strip. It is then between
tokens, unless an unfinished comment has taken in all the rest. -/
theorem scan_stripComments (s : Bytes) :
    ∃ p, s = p ++ stripComments s ∧
      (Lead p ∧ State.code.scan p = (.code, none) ∨
        Unfinished p ∧ State.code.scan p = (.comment, none) ∧ stripComments s = []) ∧
      (State.code.scan s).2 = (State.code.scan (stripComments s)).2.map (p.length + ·) ∧
      Stripped (stripComments s) ∧ stripComments (stripComments s) = stripComments s := by
  obtain ⟨p, hs, hstripped, hp⟩ := Keyword.stripComments_cases s
  have hagain := Keyword.stripComments_of_stripped hstripped
  rcases hp with hp | ⟨hp, hnil⟩
  · have hscan := State.scan_lead hp
    have happ := State.scan_append .code p (stripComments s)
    rw [← hs, hscan] at happ
    exact ⟨p, hs, .inl ⟨hp, hscan⟩, congrArg Prod.snd happ, hstripped, hagain⟩
  · have hscan := State.scan_unfinished hp
    refine ⟨p, hs, .inr ⟨hp, hscan, hnil⟩, ?_, hstripped, hagain⟩
    rw [hnil, List.append_nil] at hs
    rw [hnil, hs, hscan]
    rfl

end DumpRouter
