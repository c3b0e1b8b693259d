import DumpRouter.Proofs.Statement.Phrases

/-!
# DumpRouter.Proofs.Statement.Names

Names of tables as they may be written, with what may stand in front of them and behind them.

* `Identifier`, `Qualified`: one identifier, and identifiers joined by dots; each with the name that
  it stands for.
* `Modifiers`, `Stop`: what may stand between a keyword phrase and a name, and behind a name.
* `qualified?_written`: a name is read as it is written.
* `standing?_qualified`: a name is taken for a word only if it is that word and stands alone.
* `skipModifiers_written`: modifiers are skipped up to the name.
-/

namespace DumpRouter
namespace Keyword

variable {w v s g r t x : Bytes}

theorem standing?_spells (h : Spells w s) (hg : Gap g) (r : Bytes) :
    standing? w (s ++ (g ++ r)) = some (g ++ r) := by
  obtain ⟨b, u, rfl⟩ := List.exists_cons_of_ne_nil hg.ne_nil
  have hb : Bytes.isBlank b = true := hg.blank b (by simp)
  rw [standing?, word?_eq_some_iff.2 ⟨s, h, rfl⟩]
  exact if_pos hb

theorem spells_of_standing? (h : standing? w s = some t) :
    ∃ x b u, Spells w x ∧ t = b :: u ∧ Bytes.isBlank b = true ∧ s = x ++ b :: u := by
  unfold standing? at h
  split at h
  · next b u hw =>
    split at h
    · next hb =>
      cases h
      obtain ⟨x, hx, rfl⟩ := word?_eq_some_iff.1 hw
      exact ⟨x, b, u, hx, rfl, hb, rfl⟩
    · cases h
  · cases h

/-- A text that begins with another word does not begin with this one. -/
theorem standing?_clash (h : clash (w.map Bytes.upper) (v.map Bytes.upper) = true)
    (hv : Spells v s) (r : Bytes) : standing? w (s ++ r) = none := by
  cases hs : standing? w (s ++ r) with
  | none => rfl
  | some t =>
    obtain ⟨x, b, u, hx, -, -, he⟩ := spells_of_standing? hs
    exact (not_spells_of_clash h hx hv he.symm).elim

end Keyword

namespace TableName

open Keyword (standing?)

/-- An identifier as it is written, and the name that it stands for. -/
inductive Identifier : Bytes → Bytes → Prop where
  | bare {b : UInt8} {n : Bytes} : isQuote b = false → (∀ c ∈ b :: n, isBare c = true) →
      Identifier (b :: n) (b :: n)
  | quoted {q : UInt8} {n : Bytes} : isQuote q = true → n ≠ [] → q ∉ n →
      Identifier (q :: (n ++ [q])) n

/-- Identifiers joined by dots, and the name that the last of them stands for. -/
inductive Qualified : Bytes → Bytes → Prop where
  | last {s n : Bytes} : Identifier s n → Qualified s n
  | dotted {s m t n : Bytes} : Identifier s m → Qualified t n → Qualified (s ++ dot :: t) n

/-- What may stand behind a name: nothing, or a blank, a parenthesis that opens, a semicolon or a
comma and anything behind that. -/
def Stop (t : Bytes) : Prop :=
  ∀ b ∈ t.head?, Bytes.isBlank b = true ∨ b = 40 ∨ b = 59 ∨ b = 44

instance (t : Bytes) : Decidable (Stop t) :=
  decidable_of_iff
    (t.head?.all (fun b => Bytes.isBlank b = true ∨ b = 40 ∨ b = 59 ∨ b = 44) = true)
    (by simp [Stop, Option.all_eq_true])

/-- `ONLY` with a gap behind it, or nothing. -/
inductive Only : Bytes → Prop where
  | absent : Only []
  | word {o g : Bytes} : Spells only o → Gap g → Only (o ++ g)

/-- `IF EXISTS` or `IF NOT EXISTS` with a gap behind it, or nothing. -/
inductive Existence : Bytes → Prop where
  | absent : Existence []
  | words {ws : List Bytes} {x g : Bytes} : ws ∈ [[ifWord, exists_], [ifWord, notWord, exists_]] →
      Parted ws x → Gap g → Existence (x ++ g)

inductive Modifiers : Bytes → Prop where
  | both {o e : Bytes} : Only o → Existence e → Modifiers (o ++ e)

/-- The name `q` with `t` behind it is not a modifier that stands alone. -/
def NoModifier (q t : Bytes) : Prop :=
  ∀ b ∈ t.head?, Bytes.isBlank b = true → ¬ Spells only q ∧ ¬ Spells ifWord q

instance (q t : Bytes) : Decidable (NoModifier q t) :=
  decidable_of_iff
    (t.head?.all (fun b => Bytes.isBlank b = true → ¬ Spells only q ∧ ¬ Spells ifWord q) = true)
    (by simp only [NoModifier, Option.all_eq_true, Option.mem_def, decide_eq_true_eq])

variable {s n q m t r w : Bytes}

theorem isBare_iff (b : UInt8) :
    isBare b = true ↔ Bytes.isBlank b = false ∧ b ≠ 40 ∧ b ≠ 59 ∧ b ≠ 44 ∧ b ≠ dot := by
  simp [isBare, and_assoc]

theorem isBare_of_isLetter {b : UInt8} (h : isLetter b = true) :
    isBare b = true ∧ isQuote b = false := by
  have hblank := not_isBlank_of_isLetter h
  rw [isLetter_iff] at h
  rw [isBare_iff]
  unfold isQuote dot
  grind

theorem Stop.head (h : Stop t) : ∀ b ∈ t.head?, isBare b = false ∧ b ≠ dot := by
  intro b hb
  have hstop := h b hb
  rw [Bool.eq_false_iff, Ne, isBare_iff]
  unfold Bytes.isBlank dot at *
  grind

theorem span_bare (h : ∀ c ∈ s, isBare c = true) (hr : ∀ b ∈ r.head?, isBare b = false) :
    (s ++ r).takeWhile isBare = s ∧ (s ++ r).dropWhile isBare = r := by
  rw [List.takeWhile_append_of_pos h, List.dropWhile_append_of_pos h]
  cases r with
  | nil => simp
  | cons b r =>
    have := hr b rfl
    simp [this]

/-- Where two runs of bare bytes end in one text, they are one run. -/
theorem span_bare_unique {x u : Bytes} (hs : ∀ c ∈ s, isBare c = true)
    (hx : ∀ c ∈ x, isBare c = true) (hr : ∀ b ∈ r.head?, isBare b = false)
    (hu : ∀ b ∈ u.head?, isBare b = false) (he : s ++ r = x ++ u) : s = x ∧ r = u := by
  obtain ⟨hst, hsd⟩ := span_bare hs hr
  obtain ⟨hxt, hxd⟩ := span_bare hx hu
  rw [he] at hst hsd
  exact ⟨hst.symm.trans hxt, hsd.symm.trans hxd⟩

theorem identifier?_written (h : Identifier s n) (hr : ∀ b ∈ r.head?, isBare b = false) :
    identifier? (s ++ r) = some (n, r) := by
  cases h with
  | @bare b n hq hall =>
    have hb := hall b (by simp)
    obtain ⟨htake, hdrop⟩ := span_bare (fun c hc => hall c (List.mem_cons_of_mem b hc)) hr
    rw [List.cons_append, identifier?, hq, if_neg Bool.false_ne_true, if_pos hb, htake, hdrop]
  | @quoted q _ hq hne hmem =>
    have hall : ∀ c ∈ n, (c != q) = true := by
      intro c hc
      simpa using ne_of_mem_of_not_mem hc hmem
    obtain ⟨c, u, rfl⟩ := List.exists_cons_of_ne_nil hne
    rw [List.cons_append, List.append_assoc, identifier?, if_pos hq,
      List.takeWhile_append_of_pos hall, List.dropWhile_append_of_pos hall]
    simp

theorem qualified?_last (h : identifier? s = some (n, r)) (hr : ∀ b ∈ r.head?, b ≠ dot) :
    qualified? s = some (n, r) := by
  rw [qualified?]
  split
  · next hn =>
    rw [h] at hn
    cases hn
  · next hs =>
    rw [h] at hs
    cases hs
    cases r with
    | nil => rfl
    | cons b r =>
      have hb := hr b rfl
      simp [hb]

theorem qualified?_dotted (h : identifier? s = some (n, dot :: r)) :
    qualified? s = qualified? r := by
  rw [qualified?]
  split
  · next hn =>
    rw [h] at hn
    cases hn
  · next hs =>
    rw [h] at hs
    cases hs
    simp

/-- No name begins with a byte that is neither bare nor a quote. -/
theorem qualified?_of_not_bare {b : UInt8} (hq : isQuote b = false) (hb : isBare b = false)
    (r : Bytes) : qualified? (b :: r) = none := by
  have hnone : identifier? (b :: r) = none := by simp [identifier?, hq, hb]
  rw [qualified?]
  split
  · rfl
  · next hs =>
    rw [hnone] at hs
    cases hs

theorem Identifier.head (h : Identifier s n) : ∃ b u, s = b :: u ∧ Bytes.isBlank b = false := by
  cases h with
  | @bare b n _ hall => exact ⟨b, n, rfl, ((isBare_iff b).1 (hall b (by simp))).1⟩
  | @quoted q n hq _ _ =>
    refine ⟨q, n ++ [q], rfl, ?_⟩
    unfold isQuote at hq
    unfold Bytes.isBlank
    grind

/-- The first identifier, with nothing or a dot behind it. -/
theorem Qualified.first (h : Qualified q n) :
    ∃ s m z, Identifier s m ∧ q = s ++ z ∧ ∀ b ∈ z.head?, b = dot := by
  cases h with
  | last h => exact ⟨q, n, [], h, by simp, by simp⟩
  | @dotted s m t _ h _ => exact ⟨s, m, dot :: t, h, rfl, by simp⟩

theorem Qualified.skipBlank (h : Qualified q n) (t : Bytes) :
    Bytes.skipBlank (q ++ t) = q ++ t := by
  obtain ⟨s, m, z, hs, rfl, -⟩ := h.first
  obtain ⟨b, u, rfl, hb⟩ := hs.head
  exact skipBlank_eq_self (by simpa using hb)

theorem qualified?_written (h : Qualified q n) (ht : Stop t) :
    qualified? (q ++ t) = some (n, t) := by
  induction h with
  | last h =>
    exact qualified?_last (identifier?_written h fun b hb => (ht.head b hb).1)
      fun b hb => (ht.head b hb).2
  | @dotted s m u n h _ ih =>
    have hdot : isBare dot = false := by decide
    rw [List.append_assoc, List.cons_append,
      qualified?_dotted (identifier?_written h (by simpa using hdot))]
    exact ih

theorem standing?_of_not_letter {b : UInt8} (hw : IsWord w) (hb : isLetter b = false) (r : Bytes) :
    standing? w (b :: r) = none := by
  cases hs : standing? w (b :: r) with
  | none => rfl
  | some y =>
    obtain ⟨x, c, u, hx, -, -, he⟩ := Keyword.spells_of_standing? hs
    obtain ⟨d, v, rfl⟩ := List.exists_cons_of_ne_nil (hx.isWord hw).ne_nil
    obtain rfl := (List.cons.inj he).1
    rw [(hx.isWord hw).letters b (by simp)] at hb
    cases hb

/-- An identifier is taken for a word only if it is the word and a blank stands behind it. -/
theorem standing?_identifier (hw : IsWord w) (h : Identifier s m)
    (hr : ∀ b ∈ r.head?, isBare b = false)
    (halone : ∀ b ∈ r.head?, Bytes.isBlank b = true → ¬ Spells w s) :
    standing? w (s ++ r) = none := by
  cases hs : standing? w (s ++ r) with
  | none => rfl
  | some y =>
    exfalso
    obtain ⟨x, b, u, hx, -, hb, he⟩ := Keyword.spells_of_standing? hs
    have hletters := (hx.isWord hw).letters
    cases h with
    | @bare c k _ hall =>
      have hblank : ∀ d ∈ (b :: u).head?, isBare d = false := by
        simp [isBare, hb]
      have hbare := fun d hd => (isBare_of_isLetter (hletters d hd)).1
      -- the word and the identifier are the same run of bytes
      obtain ⟨rfl, rfl⟩ := span_bare_unique hall hbare hr hblank he
      exact halone b rfl hb hx
    | @quoted c k hc _ _ =>
      obtain ⟨d, v, rfl⟩ := List.exists_cons_of_ne_nil (hx.isWord hw).ne_nil
      obtain rfl := (List.cons.inj he).1
      have := (isBare_of_isLetter (hletters c (by simp))).2
      rw [hc] at this
      cases this

/-- A name is taken for a word only if it is the word and stands alone. -/
theorem standing?_qualified (hw : IsWord w) (h : Qualified q n) (ht : Stop t)
    (halone : ∀ b ∈ t.head?, Bytes.isBlank b = true → ¬ Spells w q) :
    standing? w (q ++ t) = none := by
  obtain ⟨s, m, z, hident, rfl, hz⟩ := h.first
  rw [List.append_assoc]
  cases z with
  | nil =>
    rw [List.append_nil] at halone
    exact standing?_identifier hw hident (fun b hb => (ht.head b hb).1) halone
  | cons d z =>
    obtain rfl := hz d rfl
    exact standing?_identifier hw hident (by simp [isBare]) (by simp [Bytes.isBlank, dot])

theorem skipWord_spells {g : Bytes} (h : Spells w s) (hg : Gap g) (r : Bytes) :
    skipWord w (s ++ (g ++ r)) = Bytes.skipBlank r := by
  rw [skipWord, Keyword.standing?_spells h hg]
  exact skipBlank_append_blank hg.blank r

theorem skipWord_of_none (h : standing? w s = none) : skipWord w s = s := by
  rw [skipWord, h]

theorem isWord_only : IsWord only := by decide
theorem isWord_if : IsWord ifWord := by decide
theorem isWord_not : IsWord notWord := by decide
theorem isWord_exists : IsWord exists_ := by decide

/-- An existence clause is read from its first word to the gap behind its last. -/
theorem standing?_existence {e : Bytes} (h : Existence e) (hne : e ≠ []) (r : Bytes) :
    ∃ t g, standing? ifWord (e ++ r) = some t ∧ Gap g ∧
      standing? exists_ (skipWord notWord (Bytes.skipBlank t)) = some (g ++ r) := by
  cases h with
  | absent => exact absurd rfl hne
  | @words ws x g hws hx hg =>
    simp only [List.mem_cons, List.not_mem_nil, or_false] at hws
    rcases hws with rfl | rfl
    · cases hx with
      | @words _ a _ _ ha hf =>
        cases hf with
        | @cons g₁ _ b _ _ hg₁ hb hf =>
          cases hf
          have hnot : standing? notWord (b ++ (g ++ r)) = none :=
            Keyword.standing?_clash (by decide) hb _
          refine ⟨g₁ ++ (b ++ (g ++ r)), g, ?_, hg, ?_⟩
          · simpa using Keyword.standing?_spells ha hg₁ (b ++ (g ++ r))
          · rw [skipBlank_append_blank hg₁.blank, (hb.isWord isWord_exists).skipBlank,
              skipWord_of_none hnot]
            exact Keyword.standing?_spells hb hg r
    · cases hx with
      | @words _ a _ _ ha hf =>
        cases hf with
        | @cons g₁ _ b _ _ hg₁ hb hf =>
          cases hf with
          | @cons g₂ _ c _ _ hg₂ hc hf =>
            cases hf
            refine ⟨g₁ ++ (b ++ (g₂ ++ (c ++ (g ++ r)))), g, ?_, hg, ?_⟩
            · simpa using Keyword.standing?_spells ha hg₁ (b ++ (g₂ ++ (c ++ (g ++ r))))
            · rw [skipBlank_append_blank hg₁.blank, (hb.isWord isWord_not).skipBlank,
                skipWord_spells hb hg₂, (hc.isWord isWord_exists).skipBlank]
              exact Keyword.standing?_spells hc hg r

theorem skipModifiers_of_existence {a t u : Bytes} (ho : skipWord only s = a)
    (hi : standing? ifWord a = some t)
    (he : standing? exists_ (skipWord notWord (Bytes.skipBlank t)) = some u) :
    skipModifiers s = Bytes.skipBlank u := by
  simp only [skipModifiers, ho, hi, he]

theorem skipModifiers_of_none {a : Bytes} (ho : skipWord only s = a)
    (hi : standing? ifWord a = none) : skipModifiers s = a := by
  simp only [skipModifiers, ho, hi]

/-- What stands behind `ONLY` is no `ONLY`. -/
theorem skipWord_only {o : Bytes} (ho : Only o) (hr : standing? only r = none)
    (hblank : Bytes.skipBlank r = r) : skipWord only (o ++ r) = r := by
  cases ho with
  | absent => exact skipWord_of_none hr
  | @word o g ho hg => rw [List.append_assoc, skipWord_spells ho hg, hblank]

/-- An existence clause begins with a word and a gap, and another word follows. -/
theorem Existence.first {e : Bytes} (he : Existence e) (hne : e ≠ []) :
    ∃ x y z, Spells ifWord x ∧ Gap y ∧ e = x ++ (y ++ z) ∧
      ∃ b u, z = b :: u ∧ isLetter b = true := by
  cases he with
  | absent => exact absurd rfl hne
  | @words ws x g hws hx hg =>
    obtain ⟨v, vs, rfl, hv⟩ : ∃ v vs, ws = ifWord :: v :: vs ∧ IsWord v := by
      simp only [List.mem_cons, List.not_mem_nil, or_false] at hws
      rcases hws with rfl | rfl
      · exact ⟨_, _, rfl, isWord_exists⟩
      · exact ⟨_, _, rfl, isWord_not⟩
    cases hx with
    | @words _ a _ _ ha hf =>
      cases hf with
      | @cons y _ z w _ hy hz hw =>
        refine ⟨a, y, z ++ (w ++ g), ha, hy, by simp, ?_⟩
        obtain ⟨b, u, rfl⟩ := List.exists_cons_of_ne_nil (hz.isWord hv).ne_nil
        exact ⟨b, u ++ (w ++ g), rfl, (hz.isWord hv).letters b (by simp)⟩

theorem Existence.head {e : Bytes} (h : Existence e) (hne : e ≠ []) :
    ∃ a t, Spells ifWord a ∧ e = a ++ t := by
  obtain ⟨x, y, z, hx, -, rfl, -⟩ := h.first hne
  exact ⟨x, y ++ z, hx, rfl⟩

/-- `ONLY` and an existence clause behind it are skipped, whatever follows. -/
theorem skipModifiers_existence {o e : Bytes} (ho : Only o) (he : Existence e) (hne : e ≠ [])
    (r : Bytes) : skipModifiers (o ++ (e ++ r)) = Bytes.skipBlank r := by
  obtain ⟨a, u, ha, rfl⟩ := he.head hne
  have honly : standing? only (a ++ (u ++ r)) = none := Keyword.standing?_clash (by decide) ha _
  have hblank := (ha.isWord isWord_if).skipBlank (u ++ r)
  obtain ⟨y, g, hif, hg, hexists⟩ := standing?_existence he hne r
  rw [List.append_assoc] at hif ⊢
  rw [skipModifiers_of_existence (skipWord_only ho honly hblank) hif hexists,
    skipBlank_append_blank hg.blank]

/-- Modifiers are skipped up to what is none. -/
theorem skipModifiers_append (hm : Modifiers m) (hr : Bytes.skipBlank r = r)
    (honly : standing? only r = none) (hif : standing? ifWord r = none) :
    skipModifiers (m ++ r) = r := by
  obtain ⟨ho, he⟩ := hm
  next o e =>
    rw [List.append_assoc]
    by_cases hne : e = []
    · subst hne
      exact skipModifiers_of_none (skipWord_only ho honly hr) hif
    · rw [skipModifiers_existence ho he hne, hr]

theorem skipModifiers_written (hm : Modifiers m) (hq : Qualified q n) (ht : Stop t)
    (hno : NoModifier q t) : skipModifiers (m ++ (q ++ t)) = q ++ t := by
  have honly := standing?_qualified isWord_only hq ht fun b hb hblank => (hno b hb hblank).1
  have hif := standing?_qualified isWord_if hq ht fun b hb hblank => (hno b hb hblank).2
  exact skipModifiers_append hm (hq.skipBlank t) honly hif

end TableName
end DumpRouter
