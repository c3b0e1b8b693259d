import DumpRouter.Statement.Classified

/-!
# DumpRouter.Proofs.Statement.Margins

Blanks around a statement do not change what it is classified as, nor do comment lines in front.

* `Bytes.trim_append_blank`: blanks at the end of a text are trimmed.
* `Keyword.stripFrom_append_blank`: they do not change what comment lines are stripped.
* `Lead`, `stripComments_lead`: blanks and comment lines in front of a text are stripped.
* `target_surrounded`: a statement with these in front of it and blanks behind it.
* `classify_surrounded`: what that means for its kind, its table and its length.
-/

namespace DumpRouter

/-- The bytes are blanks, if there are any. -/
def Blank (w : Bytes) : Prop := ∀ b ∈ w, Bytes.isBlank b = true

instance (w : Bytes) : Decidable (Blank w) :=
  decidable_of_iff (w.all Bytes.isBlank = true) List.all_eq_true

/-- Blanks and complete comment lines, in any order. -/
inductive Lead : Bytes → Prop where
  | nil : Lead []
  | blank {b : UInt8} {p : Bytes} : Bytes.isBlank b = true → Lead p → Lead (b :: p)
  | comment {c p : Bytes} : 10 ∉ c → Lead p → Lead (45 :: 45 :: (c ++ 10 :: p))

theorem Blank.lead {w : Bytes} (h : Blank w) : Lead w := by
  induction w with
  | nil => exact .nil
  | cons b w ih => exact .blank (h b (by simp)) (ih fun c hc => h c (by simp [hc]))

namespace Bytes

variable {w : Bytes}

theorem trimEnd_append_blank (s : Bytes) (hw : Blank w) : trimEnd (s ++ w) = trimEnd s := by
  unfold trimEnd
  rw [List.reverse_append, List.dropWhile_append_of_pos]
  intro b hb
  exact hw b (List.mem_reverse.1 hb)

theorem trim_append_blank (s : Bytes) (hw : Blank w) : trim (s ++ w) = trim s := by
  unfold trim skipBlank
  rw [List.dropWhile_append]
  split
  · next h =>
    have hnone : w.dropWhile isBlank = [] := (dropWhile_isBlank_eq_nil_iff w).2 hw
    rw [hnone, List.isEmpty_iff.1 h]
  · exact trimEnd_append_blank _ hw

end Bytes

namespace Keyword

variable {w : Bytes}

theorem stripFrom_blank (inComment : Bool) (hw : Blank w) : stripFrom inComment w = [] := by
  induction w generalizing inComment with
  | nil => rfl
  | cons b w ih =>
    have hb : Bytes.isBlank b = true := hw b (by simp)
    have hrest : Blank w := fun c hc => hw c (by simp [hc])
    unfold stripFrom
    rw [hb]
    cases inComment with
    | true => exact ih _ hrest
    | false => exact ih _ hrest

/-- A dash that ends a text is no comment, and blanks behind it do not make it one. -/
theorem head?_append_blank (s : Bytes) (hw : Blank w) :
    ((s ++ w).head? == some 45) = (s.head? == some 45) := by
  cases s with
  | cons b s => rfl
  | nil =>
    cases w with
    | nil => rfl
    | cons b w =>
      have hb : Bytes.isBlank b = true := hw b (by simp)
      have hne : b ≠ 45 := by
        rintro rfl
        exact absurd hb (by decide)
      simp [hne]

theorem stripFrom_append_blank (inComment : Bool) (s : Bytes) (hw : Blank w) :
    Bytes.trim (stripFrom inComment (s ++ w)) = Bytes.trim (stripFrom inComment s) := by
  -- with the blanks behind it the text takes the same branches, up to its own end
  induction s generalizing inComment with
  | nil =>
    rw [List.nil_append, stripFrom_blank inComment hw]
    rfl
  | cons b s ih =>
    rw [List.cons_append, stripFrom, stripFrom, head?_append_blank s hw]
    split
    · exact ih _
    · split
      · exact ih _
      · split
        · exact ih _
        · exact Bytes.trim_append_blank (b :: s) hw

theorem stripFrom_comment {c : Bytes} (hc : 10 ∉ c) (s : Bytes) :
    stripFrom true (c ++ 10 :: s) = stripFrom false s := by
  induction c with
  | nil => rfl
  | cons b c ih =>
    simp only [List.mem_cons, not_or] at hc
    have hb : (b != 10) = true := by simpa using Ne.symm hc.1
    rw [List.cons_append, stripFrom, if_pos rfl, hb]
    exact ih hc.2

theorem stripComments_lead {p : Bytes} (hp : Lead p) (s : Bytes) :
    stripComments (p ++ s) = stripComments s := by
  induction hp with
  | nil => rfl
  | blank hb _ ih =>
    rw [← ih]
    unfold stripComments
    rw [List.cons_append, stripFrom, hb]
    rfl
  | @comment c p hc _ ih =>
    rw [← ih]
    unfold stripComments
    rw [List.cons_append, List.cons_append, List.append_assoc, List.cons_append]
    exact stripFrom_comment hc (p ++ s)

/-- Neither blank nor dash is in front of the text, so nothing is stripped. -/
theorem stripComments_eq_self {b : UInt8} (hb : Bytes.isBlank b = false) (hd : b ≠ 45)
    (s : Bytes) : stripComments (b :: s) = b :: s := by
  simp [stripComments, stripFrom, hb, hd]

end Keyword

theorem target_classifyStripped (n m : Nat) (s : Bytes) :
    (classifyStripped n s).target = (classifyStripped m s).target := by
  unfold classifyStripped
  split
  · rfl
  · split
    · rfl
    · split
      · rfl
      · unfold Classified.known
        split <;> rfl

theorem target_surrounded {p w : Bytes} (hp : Lead p) (s : Bytes) (hw : Blank w) :
    (classify (p ++ s ++ w)).target = (classify s).target := by
  unfold classify
  rw [target_classifyStripped _ s.length, List.append_assoc, Keyword.stripComments_lead hp]
  unfold Keyword.stripComments
  rw [Keyword.stripFrom_append_blank false s hw]

theorem target_margins {p w : Bytes} (hp : Blank p) (s : Bytes) (hw : Blank w) :
    (classify (p ++ s ++ w)).target = (classify s).target :=
  target_surrounded hp.lead s hw

/-- What stands around a statement counts in its length only: blanks and comment lines in front of
it and blanks behind it leave its kind and its table as they are, whatever the statement itself
begins and ends with and however its table is found. -/
theorem classify_surrounded {p w : Bytes} (hp : Lead p) (s : Bytes) (hw : Blank w) :
    (classify (p ++ s ++ w)).kind = (classify s).kind ∧
      (classify (p ++ s ++ w)).table? = (classify s).table? ∧
      (classify (p ++ s ++ w)).byteLength = p.length + s.length + w.length := by
  have h := target_surrounded hp s hw
  refine ⟨?_, ?_, ?_⟩
  · rw [Classified.kind, h]
    rfl
  · rw [Classified.table?, h]
    rfl
  · rw [byteLength_classify, List.length_append, List.length_append]

/-- A comment line with a quote and a semicolon in it, and an empty line. -/
def heading : Bytes := Text.encode "\n-- rows; of 'a'\n \n"

/-- A statement whose name is in a quote that is not closed, so that only the expression finds it,
behind a comment of its own. -/
def unclosed : Bytes := Text.encode "-- b\nDROP TABLE \"c;"

theorem classify_surrounded_unclosed :
    Lead heading ∧ Blank [32, 10] ∧
      TableName.direct? (Text.encode " \"c;") = none ∧
      (classify unclosed).kind = .dropTable ∧
      (classify (heading ++ unclosed ++ [32, 10])).kind = .dropTable ∧
      (classify (heading ++ unclosed ++ [32, 10])).table? = some "c" ∧
      (classify (heading ++ unclosed ++ [32, 10])).byteLength = 40 := by
  have hlead : Lead heading := by
    have hbytes : heading = 10 :: 45 :: 45 :: (Text.encode " rows; of 'a'" ++ 10 :: [32, 10]) := by
      decide +kernel
    have hblank : Blank [32, 10] := by decide
    rw [hbytes]
    exact .blank rfl (.comment (by decide +kernel) hblank.lead)
  have hblank : Blank [32, 10] := by decide
  have hkind : (classify unclosed).kind = .dropTable := by decide +kernel
  have htable : (classify unclosed).table? = some "c" := by decide +kernel
  have hname : TableName.direct? (Text.encode " \"c;") = none := by decide +kernel
  obtain ⟨hk, ht, hlen⟩ := classify_surrounded hlead unclosed hblank
  exact ⟨hlead, hblank, hname, hkind, hk.trans hkind, ht.trans htable, hlen⟩

end DumpRouter
