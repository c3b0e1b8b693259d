import DumpRouter.Proofs.Statement.Grammar
import DumpRouter.Proofs.Text.Utf8

/-!
# DumpRouter.Proofs.Statement.ModifierWords

Words that may be modifiers or names. `ONLY` is looked for right behind the keyword phrase and in
front of an existence clause; a statement that has it elsewhere gets it for its table.

* `Led`: a text begins with modifiers.
* `skipModifiers_of_not_led`: without modifiers in front a text stays as it is.
* `direct?_only`, `direct?_existence_only`: `ONLY` in front of a name, and behind an existence
  clause.
* `target_only`: `ONLY` in front of the table of an `ALTER TABLE` or of an index.
-/

namespace DumpRouter

open Keyword (parted_of_phrase? standing?)
open Keyword.Phrase (create table index unique alter)
open TableName

/-- Something of the form `P`, and not nothing, stands in front of the text. -/
def Led (P : Bytes → Prop) (s : Bytes) : Prop := ∃ m r, P m ∧ m ≠ [] ∧ s = m ++ r

namespace TableName

variable {s a t v q n g o m r : Bytes}

/-- Where a word is found to stand alone, it is written with a gap behind it. -/
theorem gap_of_standing? {w : Bytes} (h : standing? w s = some t) :
    ∃ x y, Spells w x ∧ Gap y ∧ s = x ++ (y ++ Bytes.skipBlank t) := by
  obtain ⟨x, b, u, hx, rfl, hb, rfl⟩ := Keyword.spells_of_standing? h
  refine ⟨x, _, hx, gap_takeWhile hb u, congrArg (x ++ ·) ?_⟩
  exact (List.takeWhile_append_dropWhile ..).symm

/-- Where an existence clause is read, one is written. -/
theorem led_of_standing? (hi : standing? ifWord a = some t)
    (he : standing? exists_ (skipWord notWord (Bytes.skipBlank t)) = some v) :
    Led Existence a := by
  obtain ⟨x, y, hx, hy, rfl⟩ := gap_of_standing? hi
  cases hn : standing? notWord (Bytes.skipBlank t) with
  | none =>
    rw [skipWord_of_none hn] at he
    obtain ⟨z, g, hz, hg, hrest⟩ := gap_of_standing? he
    refine ⟨_, Bytes.skipBlank v, .words (.head _) (.words hx (.cons hy hz .nil)) hg, ?_, ?_⟩
    · simp [hg.ne_nil]
    · simp [hrest]
  | some t' =>
    obtain ⟨x', y', hx', hy', hnot⟩ := gap_of_standing? hn
    rw [skipWord, hn] at he
    obtain ⟨z, g, hz, hg, hrest⟩ := gap_of_standing? he
    refine ⟨_, Bytes.skipBlank v,
      .words (.tail _ (.head _)) (.words hx (.cons hy hx' (.cons hy' hz .nil))) hg, ?_, ?_⟩
    · simp [hg.ne_nil]
    · simp [hnot, hrest]

/-- Without an existence clause behind `ONLY`, only that is skipped. -/
theorem skipModifiers_of_skipWord (ho : skipWord only s = a) (h : ¬ Led Existence a) :
    skipModifiers s = a := by
  cases hi : standing? ifWord a with
  | none => exact skipModifiers_of_none ho hi
  | some t =>
    cases he : standing? exists_ (skipWord notWord (Bytes.skipBlank t)) with
    | none => simp only [skipModifiers, ho, hi, he]
    | some v => exact absurd (led_of_standing? hi he) h

/-- Without modifiers in front a text stays as it is. -/
theorem skipModifiers_of_not_led (h : ¬ Led Modifiers s) : skipModifiers s = s := by
  refine skipModifiers_of_skipWord (skipWord_of_none ?_) ?_
  · cases ho : standing? only s with
    | none => rfl
    | some t =>
      obtain ⟨x, b, u, hx, rfl, hb, rfl⟩ := Keyword.spells_of_standing? ho
      have hb : Gap [b] := ⟨by simp, by simpa [Blank] using hb⟩
      exact absurd ⟨_, u, .both (.word hx hb) .absent, by simp, by simp⟩ h
  · rintro ⟨m, r, hm, hne, rfl⟩
    exact h ⟨m, r, .both .absent hm, hne, rfl⟩

/-- Without modifiers in front of it, the name is what the text begins with. -/
theorem direct?_eq (hg : Gap g) (hs : Bytes.skipBlank s = s) (h : ¬ Led Modifiers s) :
    direct? (g ++ s) = (qualified? s).map (·.1) := by
  rw [direct?, skipBlank_append_blank hg.blank, hs, skipModifiers_of_not_led h]

theorem not_led_existence (h : standing? ifWord s = none) : ¬ Led Existence s := by
  rintro ⟨e, r, he, hne, rfl⟩
  obtain ⟨t, g, hi, -⟩ := standing?_existence he hne r
  rw [h] at hi
  cases hi

theorem not_led_modifiers (ho : standing? only s = none) (hi : standing? ifWord s = none) :
    ¬ Led Modifiers s := by
  rintro ⟨m, r, ⟨hm, he⟩, hne, rfl⟩
  cases hm with
  | absent => exact not_led_existence hi ⟨_, r, he, hne, rfl⟩
  | word hx hg =>
    rw [List.append_assoc, List.append_assoc, Keyword.standing?_spells hx hg] at ho
    cases ho

/-- A name behind `ONLY` is read if it is not taken for an existence clause. -/
theorem direct?_only (hg : Gap g) (ho : Spells only o) (hr : Gap r) (hq : Qualified q n)
    (ht : Stop t) (h : ¬ Led Existence (q ++ t)) :
    direct? (g ++ (o ++ (r ++ (q ++ t)))) = some n := by
  have hskip : skipWord only (o ++ (r ++ (q ++ t))) = q ++ t := by
    rw [skipWord_spells ho hr, hq.skipBlank]
  rw [direct?, skipBlank_append_blank hg.blank, (ho.isWord isWord_only).skipBlank,
    skipModifiers_of_skipWord hskip h, qualified?_written hq ht]
  rfl

theorem qualified_only (ho : Spells only o) : Qualified o o := by
  have hletters := (ho.isWord isWord_only).letters
  obtain ⟨b, u, rfl⟩ := List.exists_cons_of_ne_nil (ho.isWord isWord_only).ne_nil
  exact .last (.bare (isBare_of_isLetter (hletters b (by simp))).2 fun c hc =>
    (isBare_of_isLetter (hletters c hc)).1)

/-- Behind an existence clause `ONLY` is not skipped and is read for a name. -/
theorem direct?_existence_only {e : Bytes} (hg : Gap g) (he : Existence e) (hne : e ≠ [])
    (ho : Spells only o) (hr : Gap r) (s : Bytes) :
    direct? (g ++ (e ++ (o ++ (r ++ s)))) = some o := by
  have hskip := skipModifiers_existence .absent he hne (o ++ (r ++ s))
  rw [List.nil_append, (ho.isWord isWord_only).skipBlank] at hskip
  have hmodifiers : Modifiers e := .both .absent he
  have hblank := hmodifiers.skipBlank ((ho.isWord isWord_only).skipBlank (r ++ s))
  rw [direct?, skipBlank_append_blank hg.blank, hblank, hskip,
    qualified?_written (qualified_only ho) (stop_gap hr s)]
  rfl

end TableName

/-- The statements that name a table behind `ONLY`: changes to a table, to one that need not exist,
and indexes on it. -/
inductive BehindOnly : Kind → Bytes → Bytes → Prop where
  | alter {x g o r q n t : Bytes} : Parted [alter, table] x → Gap g → Spells only o → Gap r →
      Qualified q n → ¬ Spells only n → Stop t →
      BehindOnly .alterTable n (x ++ (g ++ (o ++ (r ++ (q ++ t)))))
  | existing {x g y g₁ o r q n t : Bytes} : Parted [alter, table] x → Gap g →
      Parted [ifWord, exists_] y → Gap g₁ → Spells only o → Gap r → Qualified q n →
      ¬ Spells only n → Stop t →
      BehindOnly .alterTable n (x ++ (g ++ (y ++ (g₁ ++ (o ++ (r ++ (q ++ t)))))))
  | index {ws : List Bytes} {x g i j g₁ w g₂ o r q n t : Bytes} :
      ws ∈ [[create, index], [create, unique, index]] → Parted ws x → Gap g → Qualified i j →
      ¬ Spells only i → ¬ Spells ifWord i → Gap g₁ → Spells on w → Gap g₂ → Spells only o → Gap r →
      Qualified q n → ¬ Spells only n → Stop t → BehindOnly .createIndex n
        (x ++ (g ++ (i ++ (g₁ ++ (w ++ (g₂ ++ (o ++ (r ++ (q ++ t)))))))))

section Only

variable {p g o r q n t : Bytes}

/-- `ONLY` right behind `ALTER TABLE` is skipped. Behind an existence clause, and in front of the
table of an index, it is taken for the table. -/
theorem target_only (hp : Lead p) (hg : Gap g) (ho : Spells only o) (hr : Gap r)
    (hq : Qualified q n) (ht : Stop t) :
    (∀ x, Parted [alter, table] x → ¬ Led Existence (q ++ Bytes.trimEnd t) →
      (classify (p ++ (x ++ (g ++ (o ++ (r ++ (q ++ t))))))).target =
        some (.alterTable, Text.decodeLossy n)) ∧
    (∀ x e, Parted [alter, table] x → Existence e → e ≠ [] →
      (classify (p ++ (x ++ (g ++ (e ++ (o ++ (r ++ (q ++ t)))))))).target =
        some (.alterTable, Text.decodeLossy o)) ∧
    ∀ ws x m i j g₁ w g₂, ws ∈ [[create, index], [create, unique, index]] → Parted ws x →
      Modifiers m → Qualified i j → ¬ Spells only i → ¬ Spells ifWord i → Gap g₁ → Spells on w →
      Gap g₂ → (classify (p ++ (x ++ (g ++ (m ++ (i ++ (g₁ ++ (w ++ (g₂ ++
        (o ++ (r ++ (q ++ t)))))))))))).target = some (.createIndex, Text.decodeLossy o) := by
  refine ⟨fun x hx hled => ?_, fun x e hx he hne => ?_, ?_⟩
  · have hname := direct?_only hg ho hr hq ht.trimEnd hled
    have h := target_of_name (t := t) (n := n) Direct.alterTable.mem_all hp hx (g ++ (o ++ r)) hq
      (by simpa only [Direct.alterTable.scan?_eq, List.append_assoc] using hname)
    simpa only [List.append_assoc] using h
  · have hname := direct?_existence_only hg he hne ho hr (q ++ Bytes.trimEnd t)
    have h := target_of_name (t := t) (n := o) Direct.alterTable.mem_all hp hx
      (g ++ (e ++ (o ++ r))) hq
      (by simpa only [Direct.alterTable.scan?_eq, List.append_assoc] using hname)
    simpa only [List.append_assoc] using h
  · intro ws x m i j g₁ w g₂ hws hx hm hi honly hif hg₁ hw hg₂
    have hname := indexed?_written hg hm hi honly hif hg₁ hw hg₂ (qualified_only ho)
      (stop_gap hr (q ++ Bytes.trimEnd t))
    have h := target_of_name (t := t) (n := o) (indexed_mem_all hws) hp hx
      (g ++ (m ++ (i ++ (g₁ ++ (w ++ (g₂ ++ (o ++ r))))))) hq
      (by simpa only [TableName.scan?, if_true, List.append_assoc] using hname)
    simpa only [List.append_assoc] using h

/-- A constraint that is dropped from a table alone, if the table is there. -/
def droppedKey : Bytes :=
  Text.encode "ALTER TABLE IF EXISTS ONLY public.items DROP CONSTRAINT items_pkey;"

theorem parted_alterTable : Parted [alter, table] (Text.encode "ALTER TABLE") :=
  parted_of_phrase? (by decide) (by decide) (by decide +kernel)

theorem parted_ifExists : Parted [ifWord, exists_] (Text.encode "IF EXISTS") :=
  parted_of_phrase? (by decide) (by decide) (by decide +kernel)

theorem qualified_items :
    Qualified (Text.encode "public" ++ 46 :: Text.encode "items") (Text.encode "items") :=
  .dotted (.bare (by decide) (List.all_eq_true.1 (by decide)))
    (.last (.bare (by decide) (List.all_eq_true.1 (by decide))))

theorem behindOnly_droppedKey : BehindOnly .alterTable (Text.encode "items") droppedKey := by
  have hspace : Gap (Text.encode " ") := by decide
  have honly : Spells only (Text.encode "ONLY") := by decide
  have hother : ¬ Spells only (Text.encode "items") := by decide
  have hstop : Stop (Text.encode " DROP CONSTRAINT items_pkey;") := by decide
  have h := BehindOnly.existing parted_alterTable hspace parted_ifExists hspace honly hspace
    qualified_items hother hstop
  exact (congrArg (BehindOnly .alterTable (Text.encode "items")) (by decide +kernel)).mp h

theorem not_target_of_behindOnly : ¬ ∀ k n s, BehindOnly k n s →
    (classify s).target = some (k, Text.decodeLossy n) := by
  intro h
  have hitems : (classify droppedKey).target = some (.alterTable, "items") :=
    (h _ _ _ behindOnly_droppedKey).trans (by decide +kernel)
  have honly : (classify droppedKey).target = some (.alterTable, "ONLY") := by decide +kernel
  exact absurd (hitems.symm.trans honly) (by decide)

/-- `ONLY` in the three places. -/
theorem target_only_items :
    (classify (Text.encode "ALTER TABLE ONLY public.items ADD UNIQUE (id);")).target =
        some (.alterTable, "items") ∧
      (classify droppedKey).target = some (.alterTable, "ONLY") ∧
      (classify (Text.encode "CREATE INDEX items_id ON ONLY public.items (id);")).target =
        some (.createIndex, "ONLY") := by
  have hspace : Gap (Text.encode " ") := by decide
  have honly : Spells only (Text.encode "ONLY") := by decide
  have hclause : Existence (Text.encode "IF EXISTS" ++ Text.encode " ") :=
    .words (.head _) parted_ifExists hspace
  have hphrase : Parted [create, index] (Text.encode "CREATE INDEX") :=
    parted_of_phrase? (by decide) (by decide) (by decide +kernel)
  have hname : Qualified (Text.encode "items_id") (Text.encode "items_id") :=
    .last (.bare (by decide) (List.all_eq_true.1 (by decide)))
  obtain ⟨halter, -⟩ := target_only (t := Text.encode " ADD UNIQUE (id);") .nil hspace honly hspace
    qualified_items (by decide)
  obtain ⟨-, hexisting, -⟩ := target_only (t := Text.encode " DROP CONSTRAINT items_pkey;") .nil
    hspace honly hspace qualified_items (by decide)
  obtain ⟨-, -, hindex⟩ := target_only (t := Text.encode " (id);") .nil hspace honly hspace
    qualified_items (by decide)
  have halter := halter _ parted_alterTable (not_led_existence (by decide +kernel))
  have hexisting := hexisting _ _ parted_alterTable hclause (by decide)
  have hindex := hindex _ _ [] _ _ _ _ _ (.head _) hphrase (.both .absent .absent) hname (by decide)
    (by decide) hspace (by decide : Spells on (Text.encode "ON")) hspace
  rw [Text.decodeLossy_encode] at halter hexisting hindex
  exact ⟨(congrArg (fun s => (classify s).target) (by decide +kernel)).trans halter,
    (congrArg (fun s => (classify s).target) (by decide +kernel)).trans hexisting,
    (congrArg (fun s => (classify s).target) (by decide +kernel)).trans hindex⟩

end Only

end DumpRouter
