import DumpRouter.Proofs.Statement.Margins

/-!
# DumpRouter.Proofs.Statement.Phrases

Keyword phrases as they may be written: the words in any letter case, with any blanks between them.

* `Spells`, `Gap`, `Parted`: one word, the blanks between two words, and the words of a phrase.
* `phrase?_eq_some_iff`: matching word by word finds a phrase at the start of a text exactly when it
  is written there, and gives what stands behind it.
* `phrase_unique`: no text begins with two of the phrases.
* `recognise?_eq_some_iff`: the quick look at the first bytes changes nothing of what is found.
* `recognise?_parted`, `parted_of_recognise?`: a phrase is recognised exactly where it is written.
-/

namespace DumpRouter

/-- A letter of the ASCII alphabet in either case. -/
def isLetter (b : UInt8) : Bool := 65 ≤ Bytes.upper b && Bytes.upper b ≤ 90

/-- One blank or more. -/
structure Gap (g : Bytes) : Prop where
  ne_nil : g ≠ []
  blank : Blank g

instance (g : Bytes) : Decidable (Gap g) :=
  decidable_of_iff (g ≠ [] ∧ Blank g) ⟨fun h => ⟨h.1, h.2⟩, fun h => ⟨h.ne_nil, h.blank⟩⟩

/-- The text is the word in any letter case. -/
def Spells (w s : Bytes) : Prop := s.map Bytes.upper = w.map Bytes.upper

instance (w s : Bytes) : Decidable (Spells w s) := inferInstanceAs (Decidable (_ = _))

/-- A word has letters only. -/
structure IsWord (w : Bytes) : Prop where
  ne_nil : w ≠ []
  letters : ∀ b ∈ w, isLetter b = true

instance (w : Bytes) : Decidable (IsWord w) :=
  decidable_of_iff (w ≠ [] ∧ w.all isLetter = true)
    ⟨fun h => ⟨h.1, List.all_eq_true.1 h.2⟩, fun h => ⟨h.ne_nil, List.all_eq_true.2 h.letters⟩⟩

/-- Words, each with a gap in front. -/
inductive Further : List Bytes → Bytes → Prop where
  | nil : Further [] []
  | cons {g w s t : Bytes} {ws : List Bytes} : Gap g → Spells w s → Further ws t →
      Further (w :: ws) (g ++ (s ++ t))

/-- Words with gaps between them. -/
inductive Parted : List Bytes → Bytes → Prop where
  | words {w s t : Bytes} {ws : List Bytes} : Spells w s → Further ws t → Parted (w :: ws) (s ++ t)

theorem isLetter_iff (b : UInt8) :
    isLetter b = true ↔ 65 ≤ b ∧ b ≤ 90 ∨ 97 ≤ b ∧ b ≤ 122 := by
  unfold isLetter Bytes.upper
  grind

theorem not_isBlank_of_isLetter {b : UInt8} (h : isLetter b = true) : Bytes.isBlank b = false := by
  rw [isLetter_iff] at h
  unfold Bytes.isBlank
  grind

section Spells

variable {w v s s' t t' g : Bytes}

theorem Spells.refl (w : Bytes) : Spells w w := rfl

theorem Spells.length_eq (h : Spells w s) : s.length = w.length := by
  simpa using congrArg List.length h

theorem Spells.isWord (h : Spells w s) (hw : IsWord w) : IsWord s := by
  have hlen := h.length_eq
  refine ⟨?_, ?_⟩
  · rintro rfl
    exact hw.ne_nil (List.length_eq_zero_iff.1 hlen.symm)
  · intro b hb
    have hmem : Bytes.upper b ∈ w.map Bytes.upper := h ▸ List.mem_map_of_mem hb
    obtain ⟨c, hc, he⟩ := List.mem_map.1 hmem
    have := hw.letters c hc
    unfold isLetter at this ⊢
    rwa [he] at this

/-- What a text begins with fixes what stands behind it. -/
theorem Spells.unique (h : Spells w s) (h' : Spells w s') (he : s ++ t = s' ++ t') :
    s = s' ∧ t = t' :=
  List.append_inj he (h.length_eq.trans h'.length_eq.symm)

theorem skipBlank_append_blank (hg : Blank g) (s : Bytes) :
    Bytes.skipBlank (g ++ s) = Bytes.skipBlank s :=
  List.dropWhile_append_of_pos hg

theorem skipBlank_eq_self (h : ∀ b ∈ s.head?, Bytes.isBlank b = false) : Bytes.skipBlank s = s := by
  cases s with
  | nil => rfl
  | cons b s =>
    have := h b rfl
    simp [Bytes.skipBlank, this]

theorem IsWord.skipBlank (h : IsWord s) (t : Bytes) : Bytes.skipBlank (s ++ t) = s ++ t := by
  obtain ⟨b, u, rfl⟩ := List.exists_cons_of_ne_nil h.ne_nil
  have hb := not_isBlank_of_isLetter (h.letters b (by simp))
  exact skipBlank_eq_self (by simpa using hb)

theorem gap_takeWhile {b : UInt8} (h : Bytes.isBlank b = true) (s : Bytes) :
    Gap ((b :: s).takeWhile Bytes.isBlank) :=
  ⟨by simp [h], List.all_eq_true.1 List.all_takeWhile⟩

end Spells

namespace Keyword

variable {w v s t r r' : Bytes} {ws vs : List Bytes} {k : Kind} {p q : Phrase}

theorem word?_eq_some_iff : word? w s = some t ↔ ∃ x, Spells w x ∧ s = x ++ t := by
  unfold word? Bytes.sameLetters
  constructor
  · intro h
    split at h
    · next he =>
      cases h
      exact ⟨s.take w.length, eq_of_beq he, (List.take_append_drop ..).symm⟩
    · cases h
  · rintro ⟨x, hx, rfl⟩
    rw [← hx.length_eq, List.take_left, List.drop_left, if_pos (beq_iff_eq.2 hx)]

theorem furtherWords?_eq_some_iff (hws : ∀ w ∈ ws, IsWord w) :
    furtherWords? ws s = some r ↔ ∃ x, Further ws x ∧ s = x ++ r := by
  induction ws generalizing s with
  | nil =>
    constructor
    · intro h
      cases h
      exact ⟨[], .nil, rfl⟩
    · rintro ⟨x, hx, rfl⟩
      cases hx
      rfl
  | cons w ws ih =>
    have hw := hws w (by simp)
    have ih := fun s => @ih s fun v hv => hws v (by simp [hv])
    constructor
    · intro h
      unfold furtherWords? at h
      split at h
      · cases h
      · next b u =>
        split at h
        · next hb =>
          split at h
          · next t ht =>
            obtain ⟨x, hx, hs⟩ := word?_eq_some_iff.1 ht
            obtain ⟨y, hy, rfl⟩ := (ih t).1 h
            refine ⟨_, .cons (gap_takeWhile hb u) hx hy, ?_⟩
            rw [List.append_assoc, List.append_assoc, ← hs]
            exact (List.takeWhile_append_dropWhile ..).symm
          · cases h
        · cases h
    · rintro ⟨x, hx, rfl⟩
      cases hx with
      | @cons g _ y z _ hg hy hz =>
        obtain ⟨b, u, rfl⟩ := List.exists_cons_of_ne_nil hg.ne_nil
        have hb : Bytes.isBlank b = true := hg.blank b (by simp)
        have hskip : Bytes.skipBlank ((b :: u) ++ (y ++ (z ++ r))) = y ++ (z ++ r) :=
          (skipBlank_append_blank hg.blank _).trans ((hy.isWord hw).skipBlank _)
        rw [List.append_assoc, List.append_assoc, List.cons_append, furtherWords?, if_pos hb]
        rw [List.cons_append] at hskip
        rw [hskip, word?_eq_some_iff.2 ⟨y, hy, rfl⟩]
        exact (ih _).2 ⟨z, hz, rfl⟩

theorem phrase?_eq_some_iff (hne : ws ≠ []) (hws : ∀ w ∈ ws, IsWord w) :
    phrase? ws s = some r ↔ ∃ x, Parted ws x ∧ s = x ++ r := by
  obtain ⟨w, ws, rfl⟩ := List.exists_cons_of_ne_nil hne
  have hfurther := fun s => @furtherWords?_eq_some_iff s r ws fun v hv => hws v (by simp [hv])
  constructor
  · intro h
    rw [phrase?] at h
    split at h
    · next t ht =>
      obtain ⟨x, hx, rfl⟩ := word?_eq_some_iff.1 ht
      obtain ⟨y, hy, rfl⟩ := (hfurther t).1 h
      exact ⟨x ++ y, .words hx hy, (List.append_assoc ..).symm⟩
    · cases h
  · rintro ⟨x, hx, rfl⟩
    cases hx with
    | words hy hz =>
      rw [List.append_assoc, phrase?, word?_eq_some_iff.2 ⟨_, hy, rfl⟩]
      exact (hfurther _).2 ⟨_, hz, rfl⟩

theorem parted_of_phrase? (hne : ws ≠ []) (hws : ∀ w ∈ ws, IsWord w)
    (h : phrase? ws s = some []) : Parted ws s := by
  obtain ⟨y, hy, rfl⟩ := (phrase?_eq_some_iff hne hws).1 h
  rwa [List.append_nil]

/-- Neither word begins with the other, so no text begins with both. -/
def clash (w v : Bytes) : Bool := !(w.isPrefixOf v || v.isPrefixOf w)

/-- The phrases have the same words up to two that clash. -/
def diverge : List Bytes → List Bytes → Bool
  | w :: ws, v :: vs => clash (w.map Bytes.upper) (v.map Bytes.upper) || w == v && diverge ws vs
  | _, _ => false

theorem not_spells_of_clash {x y u : Bytes}
    (h : clash (w.map Bytes.upper) (v.map Bytes.upper) = true) (hx : Spells w x) (hy : Spells v y)
    (he : x ++ t = y ++ u) : False := by
  simp only [clash, Bool.not_eq_true', Bool.or_eq_false_iff] at h
  have hpre : ∀ {a b : Bytes}, a <+: b →
      (a.map Bytes.upper).isPrefixOf (b.map Bytes.upper) = true :=
    fun hab => List.isPrefixOf_iff_prefix.2 (hab.map _)
  rcases List.prefix_or_prefix_of_prefix (List.prefix_append x t) (he ▸ List.prefix_append y u) with
    hxy | hyx
  · have := hpre hxy
    rw [hx, hy, h.1] at this
    cases this
  · have := hpre hyx
    rw [hx, hy, h.2] at this
    cases this

theorem further_diverge {x y : Bytes} (hws : ∀ w ∈ ws, IsWord w) (hvs : ∀ v ∈ vs, IsWord v)
    (h : diverge ws vs = true) (hx : Further ws x) (hy : Further vs y) (he : x ++ t = y ++ r) :
    False := by
  induction hx generalizing vs y with
  | nil => simp [diverge] at h
  | @cons g w a x ws hg hw hx ih =>
    cases hy with
    | nil => simp [diverge] at h
    | @cons g' v b y vs hg' hv hy =>
      have hskip := congrArg Bytes.skipBlank he
      simp only [List.append_assoc] at hskip
      rw [skipBlank_append_blank hg.blank, skipBlank_append_blank hg'.blank,
        (hw.isWord (hws w (by simp))).skipBlank, (hv.isWord (hvs v (by simp))).skipBlank] at hskip
      simp only [diverge, Bool.or_eq_true, Bool.and_eq_true, beq_iff_eq] at h
      rcases h with h | ⟨rfl, h⟩
      · exact not_spells_of_clash h hw hv hskip
      · exact ih (fun u hu => hws u (by simp [hu])) (fun u hu => hvs u (by simp [hu])) h hy
          (hw.unique hv hskip).2

theorem parted_diverge {x y : Bytes} (hws : ∀ w ∈ ws, IsWord w) (hvs : ∀ v ∈ vs, IsWord v)
    (h : diverge ws vs = true) (hx : Parted ws x) (hy : Parted vs y) (he : x ++ t = y ++ r) :
    False := by
  cases hx with
  | words ha hx =>
    cases hy with
    | words hb hy =>
      simp only [List.append_assoc] at he
      simp only [diverge, Bool.or_eq_true, Bool.and_eq_true, beq_iff_eq] at h
      rcases h with h | ⟨rfl, h⟩
      · exact not_spells_of_clash h ha hb he
      · exact further_diverge (fun u hu => hws u (by simp [hu]))
          (fun u hu => hvs u (by simp [hu])) h hx hy (ha.unique hb he).2

namespace Phrase

theorem words_ne_nil (hp : p ∈ all) : p.words ≠ [] := by
  revert p
  decide

theorem isWord_of_mem (hp : p ∈ all) (hw : w ∈ p.words) : IsWord w := by
  have hall : ∀ p ∈ all, ∀ w ∈ p.words, IsWord w := by decide
  exact hall p hp w hw

theorem diverge_words (hp : p ∈ all) (hq : q ∈ all) (h : p.words ≠ q.words) :
    diverge p.words q.words = true := by
  have hall : ∀ p ∈ all, ∀ q ∈ all, p.words ≠ q.words → diverge p.words q.words = true := by decide
  exact hall p hp q hq h

theorem eq_of_words (hp : p ∈ all) (hq : q ∈ all) (h : p.words = q.words) : p = q := by
  have hall : ∀ p ∈ all, ∀ q ∈ all, p.words = q.words → p.kind = q.kind := by decide
  have hk := hall p hp q hq h
  cases p
  cases q
  exact congr (congrArg _ h) hk

theorem phrase?_words (hp : p ∈ all) :
    phrase? p.words s = some r ↔ ∃ x, Parted p.words x ∧ s = x ++ r :=
  phrase?_eq_some_iff (words_ne_nil hp) fun _ hw => isWord_of_mem hp hw

/-- At most one phrase is found at the start of a text. -/
theorem phrase_unique (hp : p ∈ all) (hq : q ∈ all) (h : phrase? p.words s = some r)
    (h' : phrase? q.words s = some r') : p = q ∧ r = r' := by
  have hpq : p = q := by
    obtain ⟨x, hx, rfl⟩ := (phrase?_words hp).1 h
    obtain ⟨y, hy, he⟩ := (phrase?_words hq).1 h'
    refine eq_of_words hp hq (Decidable.byContradiction fun hne => ?_)
    exact parted_diverge (fun _ hw => isWord_of_mem hp hw) (fun _ hw => isWord_of_mem hq hw)
      (diverge_words hp hq hne) hx hy he
  subst hpq
  exact ⟨rfl, Option.some.inj (h.symm.trans h')⟩

theorem parted_of_spells_text {ws : List Bytes} {x : Bytes} (hne : ws ≠ [])
    (h : Spells ([32].intercalate ws) x) : Parted ws x := by
  obtain ⟨w, ws, rfl⟩ := List.exists_cons_of_ne_nil hne
  have key : ∀ (ws : List Bytes) (w x : Bytes), Spells ([32].intercalate (w :: ws)) x →
      ∃ a t, x = a ++ t ∧ Spells w a ∧ Further ws t := by
    intro ws
    induction ws with
    | nil =>
      intro w x h
      exact ⟨x, [], by simp, by simpa [List.intercalate] using h, .nil⟩
    | cons v ws ih =>
      intro w x h
      have htext : [32].intercalate (w :: v :: ws) = w ++ 32 :: [32].intercalate (v :: ws) := by
        simp [List.intercalate]
      rw [htext, Spells, List.map_append, List.map_eq_append_iff] at h
      obtain ⟨a, u, rfl, ha, hu⟩ := h
      rw [List.map_cons, List.map_eq_cons_iff] at hu
      obtain ⟨b, y, rfl, hb, hy⟩ := hu
      obtain ⟨c, t, rfl, hc, ht⟩ := ih v y hy
      have hspace : b = 32 := by
        unfold Bytes.upper at hb
        grind
      subst hspace
      have hgap : Gap [32] := ⟨by simp, by simp [Blank, Bytes.isBlank]⟩
      exact ⟨a, _, rfl, ha, .cons hgap hc ht⟩
  obtain ⟨a, t, rfl, ha, ht⟩ := key ws w x h
  exact .words ha ht

theorem spells_of_isPrefixOf_look (hp : p ∈ all) (h : p.text.isPrefixOf (look s) = true) :
    Spells p.text (s.take p.text.length) := by
  have hupper : ∀ p ∈ all, p.text.map Bytes.upper = p.text := by decide
  have htake := List.prefix_iff_eq_take.1 (List.isPrefixOf_iff_prefix.1 h)
  rw [look, ← List.map_take, List.take_take, Nat.min_eq_left (text_length_le p hp)] at htake
  rw [Spells, hupper p hp]
  exact htake.symm

/-- A phrase that the quick look sees is there word by word. -/
theorem phrase?_of_look (hp : p ∈ all) (h : p.text.isPrefixOf (look s) = true) :
    phrase? p.words s = some (s.drop p.text.length) := by
  have hparted := parted_of_spells_text (words_ne_nil hp) (spells_of_isPrefixOf_look hp h)
  exact (phrase?_words hp).2 ⟨_, hparted, (List.take_append_drop ..).symm⟩

theorem phrase?_of_quick? (h : quick? s = some (k, r)) :
    ∃ p ∈ all, p.kind = k ∧ phrase? p.words s = some r := by
  unfold quick? at h
  obtain ⟨p, hf, he⟩ := Option.map_eq_some_iff.1 h
  obtain ⟨rfl, rfl⟩ := Prod.mk.inj he
  have hp := List.mem_of_find?_eq_some hf
  have hlook := List.find?_some hf
  exact ⟨p, hp, rfl, phrase?_of_look hp hlook⟩

theorem phrase?_of_slow? (h : slow? s = some (k, r)) :
    ∃ p ∈ all, p.kind = k ∧ phrase? p.words s = some r := by
  unfold slow? at h
  obtain ⟨p, hp, he⟩ := List.exists_of_findSome?_eq_some h
  obtain ⟨t, ht, he⟩ := Option.map_eq_some_iff.1 he
  obtain ⟨rfl, rfl⟩ := Prod.mk.inj he
  exact ⟨p, (List.mem_filter.1 hp).1, rfl, ht⟩

theorem head_isPrefixOf_look (hp : p ∈ all) {x : Bytes} (h : Parted p.words x) (r : Bytes) :
    p.words.head?.any (·.isPrefixOf (look (x ++ r))) = true := by
  have hfirst : ∀ p ∈ all, ∀ w ∈ p.words.head?, w.length ≤ lookLength ∧ w.map Bytes.upper = w := by
    decide
  have hfirst := hfirst p hp
  revert h hfirst
  generalize p.words = ws
  rintro ⟨ha, -⟩ hfirst
  next w a t ws =>
    obtain ⟨hlen, hupper⟩ := hfirst w rfl
    refine List.isPrefixOf_iff_prefix.2 (List.prefix_iff_eq_take.2 ?_)
    rw [look, ← List.map_take, List.take_take, Nat.min_eq_left hlen, ← ha.length_eq,
      List.append_assoc, List.take_left, ha, hupper]

/-- The words are tried of every phrase that is there. -/
theorem slow?_isSome (hp : p ∈ all) (h : phrase? p.words s = some r) : (slow? s).isSome = true := by
  have hlook : p.words.head?.any (·.isPrefixOf (look s)) = true := by
    obtain ⟨x, hx, rfl⟩ := (phrase?_words hp).1 h
    exact head_isPrefixOf_look hp hx r
  unfold slow?
  rw [List.isSome_findSome?]
  exact List.any_eq_true.2 ⟨p, List.mem_filter.2 ⟨hp, hlook⟩, by simp [h]⟩

/-- A search that gives phrases which are there, and gives one wherever there is one, gives exactly
the phrase that is there. -/
theorem search_eq_some_iff {a : Option (Kind × Bytes)}
    (hfound : ∀ x, a = some x → ∃ p ∈ all, p.kind = x.1 ∧ phrase? p.words s = some x.2)
    (hsome : ∀ p ∈ all, ∀ r, phrase? p.words s = some r → a.isSome = true) :
    a = some (k, r) ↔ ∃ p ∈ all, p.kind = k ∧ phrase? p.words s = some r := by
  refine ⟨hfound _, ?_⟩
  rintro ⟨p, hp, rfl, h⟩
  obtain ⟨x, hx⟩ := Option.isSome_iff_exists.1 (hsome p hp r h)
  obtain ⟨q, hq, hk, h'⟩ := hfound x hx
  obtain ⟨rfl, rfl⟩ := phrase_unique hp hq h h'
  rw [hx, hk]

/-- The quick look at the first bytes changes nothing: a phrase is recognised exactly where it is
found word by word. -/
theorem recognise?_eq_some_iff :
    recognise? s = some (k, r) ↔ ∃ p ∈ all, p.kind = k ∧ phrase? p.words s = some r := by
  refine search_eq_some_iff (fun x h => ?_) fun p hp r h => ?_
  · unfold recognise? at h
    split at h
    · next hq =>
      cases h
      exact phrase?_of_quick? hq
    · exact phrase?_of_slow? h
  · unfold recognise?
    split
    · rfl
    · exact slow?_isSome hp h

theorem recognise?_parted (hp : p ∈ all) {x : Bytes} (h : Parted p.words x) (r : Bytes) :
    recognise? (x ++ r) = some (p.kind, r) :=
  recognise?_eq_some_iff.2 ⟨p, hp, rfl, (phrase?_words hp).2 ⟨x, h, rfl⟩⟩

theorem parted_of_recognise? (h : recognise? s = some (k, r)) :
    ∃ p ∈ all, p.kind = k ∧ ∃ x, Parted p.words x ∧ s = x ++ r := by
  obtain ⟨p, hp, hk, h⟩ := recognise?_eq_some_iff.1 h
  exact ⟨p, hp, hk, (phrase?_words hp).1 h⟩

end Phrase
end Keyword
end DumpRouter
