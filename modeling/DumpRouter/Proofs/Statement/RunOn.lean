import DumpRouter.Proofs.Statement.Grammar

/-!
# DumpRouter.Proofs.Statement.RunOn

What stands right behind a keyword phrase. The expressions ask for white space there; the reading by
hand does not, and takes a word that the phrase runs on into for the name.

* `Fallback.blank_of_table?`: where an expression finds a name behind a phrase, white space stands
  in between.
* `Whole`, `not_whole_of_target`: a statement that belongs to a table need not begin with whole
  words.
* `classify_runOn`: a statement that belongs to a table begins with a phrase of its kind, and if the
  phrase runs on into a word, the name is what is read by hand from the rest of that word.
-/

namespace DumpRouter

open Text.Utf8 (units TextUnit)

/-- A byte that words are made of: an ASCII letter, a digit or the underscore. -/
def isWordByte (b : UInt8) : Bool := isLetter b || (48 ≤ b && b ≤ 57) || b == 95

namespace Text

theorem units_ascii_append {a : Bytes} (ha : ∀ b ∈ a, b < 0x80) (s : Bytes) :
    units (a ++ s) = a.map (fun b => .char (Char.ofNat b.toNat)) ++ units s := by
  induction a with
  | nil => rfl
  | cons b a ih =>
    have hrest := ih fun c hc => ha c (by simp [hc])
    rw [List.cons_append, Utf8.units_ascii_cons (ha b (by simp)), hrest]
    rfl

end Text

namespace Fallback

open Expression

variable {p : TextUnit → Bool} {s t : List TextUnit}

section Expressions

/-! What an expression leaves of a text, and what it has taken from it. -/

theorem of_mem_one (h : t ∈ one p s) : ∃ u, p u = true ∧ s = u :: t := by
  cases s with
  | nil => cases h
  | cons u s =>
    rw [one] at h
    split at h
    · next hu => exact ⟨u, hu, congrArg _ (List.mem_singleton.1 h).symm⟩
    · cases h

theorem of_mem_manyOnto {acc : List (List TextUnit)} (h : t ∈ manyOnto acc p s) :
    t ∈ acc ∨ ∃ l, (∀ u ∈ l, p u = true) ∧ s = l ++ t := by
  induction s generalizing acc with
  | nil =>
    rcases List.mem_cons.1 h with rfl | h
    · exact .inr ⟨[], by simp⟩
    · exact .inl h
  | cons u s ih =>
    unfold manyOnto at h
    split at h
    · next hu =>
      rcases ih h with h | ⟨l, hl, rfl⟩
      · rcases List.mem_cons.1 h with rfl | h
        · exact .inr ⟨[], by simp⟩
        · exact .inl h
      · exact .inr ⟨u :: l, by simpa [hu] using hl, rfl⟩
    · rcases List.mem_cons.1 h with rfl | h
      · exact .inr ⟨[], by simp⟩
      · exact .inl h

theorem of_mem_many (h : t ∈ many p s) : ∃ l, (∀ u ∈ l, p u = true) ∧ s = l ++ t :=
  (of_mem_manyOnto h).resolve_left List.not_mem_nil

theorem of_mem_some (h : t ∈ Expression.some p s) :
    ∃ u l, (∀ v ∈ u :: l, p v = true) ∧ s = u :: (l ++ t) := by
  obtain ⟨v, hv, ht⟩ := List.mem_flatMap.1 h
  obtain ⟨u, hu, rfl⟩ := of_mem_one hv
  obtain ⟨l, hl, rfl⟩ := of_mem_many ht
  exact ⟨u, l, by simpa [hu] using hl, rfl⟩

theorem of_mem_letters {cs : List Char} (h : t ∈ letters cs s) : t = s.drop cs.length := by
  induction cs generalizing s with
  | nil => simpa [letters] using h
  | cons c cs ih =>
    obtain ⟨v, hv, ht⟩ := List.mem_flatMap.1 h
    obtain ⟨u, -, rfl⟩ := of_mem_one hv
    exact ih ht

theorem toNat_of_isBlank {d : Char} (h : Text.isBlank d = true) :
    d.toNat ≤ 32 ∨ 0x85 ≤ d.toNat ∧ d.toNat ≠ 0x17F ∧ d.toNat ≠ 0x212A := by
  simp [Text.isBlank, Text.inRanges] at h
  omega

theorem toUpper_of_isBlank {d : Char} (h : Text.isBlank d = true) : d.toUpper = d := by
  have hrange := toNat_of_isBlank h
  have hlower : ¬ ('a'.val ≤ d.val ∧ d.val ≤ 'z'.val) := by
    simp only [UInt32.le_iff_toNat_le]
    change ¬ (97 ≤ d.toNat ∧ d.toNat ≤ 122)
    omega
  exact dif_neg hlower

/-- No letter is white space. -/
theorem not_blank_of_sameLetter {c : Char} (hc : c.isUpper = true) {u : TextUnit}
    (h : sameLetter c u = true) : blank u = false := by
  cases u with
  | stray => rfl
  | broken => rfl
  | char d =>
    rw [Bool.eq_false_iff]
    intro hd
    have hrange := toNat_of_isBlank (d := d) hd
    have hletter : (d.toUpper == c || (c == 'S' && d == '\u017F') ||
      (c == 'K' && d == '\u212A')) = true := h
    rw [toUpper_of_isBlank hd] at hletter
    simp only [Bool.or_eq_true, Bool.and_eq_true, beq_iff_eq] at hletter
    rcases hletter with (rfl | ⟨-, rfl⟩) | ⟨-, rfl⟩
    · obtain ⟨hlow, hhigh⟩ := of_decide_eq_true hc
      have hlow : 65 ≤ d.toNat := UInt32.le_iff_toNat_le.1 hlow
      have hhigh : d.toNat ≤ 90 := UInt32.le_iff_toNat_le.1 hhigh
      omega
    · exact absurd hrange (by decide)
    · exact absurd hrange (by decide)

/-- The text begins with white space, or it begins with something else. -/
def Begins (isBlank : Bool) (s : List TextUnit) : Prop := ∃ u v, s = u :: v ∧ blank u = isBlank

theorem Begins.unique {b b' : Bool} (h : Begins b s) (h' : Begins b' s) : b = b' := by
  obtain ⟨u, v, rfl, rfl⟩ := h
  obtain ⟨u', v', he, rfl⟩ := h'
  cases he
  rfl

/-- An expression for words matches only where the first of them stands. -/
theorem begins_of_mem_keywords {w : List Char} {ws : List (List Char)} (hw : w ≠ [])
    (hup : w.all Char.isUpper = true) (h : t ∈ keywords (w :: ws) s) :
    Begins false s := by
  obtain ⟨v, hv, -⟩ := List.mem_flatMap.1 h
  obtain ⟨v', hv', -⟩ := List.mem_flatMap.1 hv
  obtain ⟨c, cs, rfl⟩ := List.exists_cons_of_ne_nil hw
  obtain ⟨v'', hv'', -⟩ := List.mem_flatMap.1 hv'
  obtain ⟨u, hu, rfl⟩ := of_mem_one hv''
  exact ⟨u, v'', rfl, not_blank_of_sameLetter (List.all_eq_true.1 hup c (by simp)) hu⟩

end Expressions

section Keywords

theorem units_blank {g : Bytes} (hg : Blank g) (s : Bytes) :
    ∃ l, (∀ u ∈ l, blank u = true) ∧ units (g ++ s) = l ++ units s := by
  have hall : ∀ b : UInt8, Bytes.isBlank b = true →
      b < 0x80 ∧ Text.isBlank (Char.ofNat b.toNat) = true := by
    intro b hb
    simp only [Bytes.isBlank, Bool.or_eq_true, beq_iff_eq] at hb
    rcases hb with ((rfl | rfl) | rfl) | rfl <;> decide
  refine ⟨_, ?_, Text.units_ascii_append (fun b hb => (hall b (hg b hb)).1) s⟩
  intro u hu
  obtain ⟨b, hb, rfl⟩ := List.mem_map.1 hu
  exact (hall b (hg b hb)).2

/-- White space is taken in front of two texts that go on with something else. -/
theorem eq_of_blank_append {l l' : List TextUnit} (hl : ∀ u ∈ l, blank u = true)
    (hl' : ∀ u ∈ l', blank u = true) (hs : Begins false s) (ht : Begins false t)
    (h : l ++ s = l' ++ t) : s = t := by
  have hdrop := congrArg (List.dropWhile blank) h
  obtain ⟨u, v, rfl, hu⟩ := hs
  obtain ⟨u', v', rfl, hu'⟩ := ht
  rwa [List.dropWhile_append_of_pos hl, List.dropWhile_append_of_pos hl',
    List.dropWhile_cons_of_neg (by simp [hu]), List.dropWhile_cons_of_neg (by simp [hu'])] at hdrop

theorem isWordByte_of_isLetter {b : UInt8} (h : isLetter b = true) : isWordByte b = true := by
  simp [isWordByte, h]

theorem range_of_isWordByte {b : UInt8} (h : isWordByte b = true) : 48 ≤ b ∧ b < 0x80 := by
  simp only [isWordByte, Bool.or_eq_true, isLetter_iff, Bool.and_eq_true, decide_eq_true_eq,
    beq_iff_eq] at h
  grind

theorem begins_wordByte {b : UInt8} (h : isWordByte b = true) (s : Bytes) :
    Begins false (units (b :: s)) := by
  obtain ⟨hlow, hhigh⟩ := range_of_isWordByte h
  rw [UInt8.le_iff_toNat_le] at hlow
  rw [UInt8.lt_iff_toNat_lt] at hhigh
  refine ⟨_, _, Text.Utf8.units_ascii_cons (UInt8.lt_iff_toNat_lt.2 hhigh) s, ?_⟩
  rw [Bool.eq_false_iff]
  intro hb
  have hrange := toNat_of_isBlank (d := Char.ofNat b.toNat) hb
  change 48 ≤ b.toNat at hlow
  change b.toNat < 128 at hhigh
  have hvalid : b.toNat.isValidChar := .inl (by omega)
  rw [Char.ofNat, dif_pos hvalid] at hrange
  change b.toNat ≤ 32 ∨ 0x85 ≤ b.toNat ∧ _ at hrange
  omega

theorem begins_word {w : Bytes} (h : IsWord w) (s : Bytes) : Begins false (units (w ++ s)) := by
  obtain ⟨b, w, rfl⟩ := List.exists_cons_of_ne_nil h.ne_nil
  exact begins_wordByte (isWordByte_of_isLetter (h.letters b (by simp))) (w ++ s)

/-- Where a word is written, an expression for it takes the word and white space behind it. -/
theorem of_mem_keyword {w : List Char} {a r : Bytes} (hw : IsWord a)
    (ha : Spells (Bytes.ascii w) a) (h : t ∈ keyword w (units (a ++ r))) :
    ∃ u l, (∀ v ∈ u :: l, blank v = true) ∧ units r = u :: (l ++ t) := by
  obtain ⟨v, hv, ht⟩ := List.mem_flatMap.1 h
  have hascii : ∀ b ∈ a, b < 0x80 := fun b hb =>
    (range_of_isWordByte (isWordByte_of_isLetter (hw.letters b hb))).2
  have hlen : (a.map fun b => TextUnit.char (Char.ofNat b.toNat)).length = w.length := by
    rw [List.length_map, ha.length_eq, Bytes.ascii, List.length_map]
  have hbehind : v = units r := by
    rw [of_mem_letters hv, Text.units_ascii_append hascii, ← hlen, List.drop_left]
  rw [hbehind] at ht
  exact of_mem_some ht

/-- Where the words of a phrase are written, an expression for them matches only with white space
behind the last of them. -/
theorem begins_of_parted {ws : List (List Char)} {x r : Bytes}
    (hword : ∀ w ∈ ws, IsWord (Bytes.ascii w)) (hup : ∀ w ∈ ws, w.all Char.isUpper = true)
    (hx : Parted (ws.map Bytes.ascii) x) (h : t ∈ keywords ws (units (x ++ r))) :
    Begins true (units r) := by
  induction ws generalizing x t with
  | nil => cases hx
  | cons w ws ih =>
    cases hx with | @words _ a y _ ha hy =>
    obtain ⟨v, hk, ht⟩ := List.mem_flatMap.1 h
    rw [List.append_assoc] at hk
    obtain ⟨u, l, hl, he⟩ := of_mem_keyword (ha.isWord (hword w (by simp))) ha hk
    cases ws with
    | nil =>
      cases hy
      exact ⟨u, _, he, hl u (by simp)⟩
    | cons w' ws =>
      cases hy with | @cons g _ a' z _ hg ha' hz =>
      have hword' := ha'.isWord (hword w' (by simp))
      have hne : w' ≠ [] := fun h => (hword w' (by simp)).ne_nil (by rw [h]; rfl)
      obtain ⟨l', hl', he'⟩ := units_blank hg.blank (a' ++ (z ++ r))
      have hnext : v = units (a' ++ (z ++ r)) := by
        refine eq_of_blank_append hl hl' ?_ (begins_word hword' _) (he.symm.trans ?_)
        · exact begins_of_mem_keywords hne (hup w' (by simp)) ht
        · rw [← he']
          simp only [List.append_assoc]
      rw [hnext, ← List.append_assoc] at ht
      exact ih (fun w hw => hword w (by simp [hw])) (fun w hw => hup w (by simp [hw]))
        (.words ha' hz) ht

end Keywords

/-- The phrases that the name follows are what the expressions for their kinds begin with. -/
theorem lead_direct {k : Kind} {ws : List Bytes} (h : Direct k ws) :
    ∃ cs e, lead k = (keywords cs).andThen e ∧ cs.map Bytes.ascii = ws ∧
      ∀ w ∈ cs, w.all Char.isUpper = true := by
  cases h
  · exact ⟨[create, table], _, rfl, rfl, by decide⟩
  · exact ⟨[insert, into], _, rfl, rfl, by decide⟩
  · exact ⟨[alter, table], _, rfl, rfl, by decide⟩
  · exact ⟨[drop, table], _, rfl, rfl, by decide⟩

theorem name?_isSome {e : Expression} {w : List TextUnit} (h : name? e s = Option.some w) :
    ∃ t, t ∈ e s := by
  obtain ⟨v, hv, -⟩ := List.exists_of_findSome?_eq_some h
  obtain ⟨t, ht, -⟩ := List.mem_flatMap.1 hv
  exact ⟨t, ht⟩

/-- Where an expression finds a name behind a phrase, white space stands in between. -/
theorem blank_of_table? {k : Kind} {ws : List Bytes} {x r : Bytes} {n : String}
    (hk : Direct k ws) (hx : Parted ws x) (h : table? k (x ++ r) = Option.some n) :
    Begins true (units r) := by
  have hwords : ∀ w ∈ ws, IsWord w := fun _ hw => Keyword.Phrase.isWord_of_mem hk.mem_all hw
  obtain ⟨cs, e, hlead, rfl, hup⟩ := lead_direct hk
  rw [table?, if_neg hk.ne_createIndex] at h
  obtain ⟨w, hw, -⟩ := Option.map_eq_some_iff.1 h
  obtain ⟨t, ht⟩ := name?_isSome hw
  obtain ⟨v, hv, ht⟩ := List.mem_flatMap.1 ht
  rw [hlead] at ht
  obtain ⟨t', ht', -⟩ := List.mem_flatMap.1 ht
  -- the text begins with the phrase, so there is no white space to be taken in front
  obtain ⟨b, y, rfl, hb⟩ := hx.head hwords
  have hstart := begins_wordByte (isWordByte_of_isLetter hb) (y ++ r)
  obtain ⟨l, hl, he⟩ := of_mem_many hv
  cases l with
  | nil =>
    subst he
    exact begins_of_parted (fun w hw => hwords _ (List.mem_map_of_mem hw)) hup hx ht'
  | cons u l => exact absurd (hstart.unique ⟨u, l ++ v, he, hl u (by simp)⟩) (by decide)

end Fallback

/-- The phrase that the statement begins with is not followed by a byte of a word. -/
def Whole (s : Bytes) : Prop :=
  ∀ ph ∈ Keyword.Phrase.all, ∀ x b r, Parted ph.words x →
    Bytes.trim (Keyword.stripComments s) = x ++ b :: r → isWordByte b = false

theorem direct_of_mem {ph : Keyword.Phrase} (h : ph ∈ Keyword.Phrase.all)
    (hk : ph.kind ≠ .createIndex) : Direct ph.kind ph.words := by
  simp only [Keyword.Phrase.all, List.mem_cons, List.not_mem_nil, or_false] at h
  rcases h with rfl | rfl | rfl | rfl | rfl | rfl
  · exact .createTable
  · exact .insertInto
  · exact absurd rfl hk
  · exact absurd rfl hk
  · exact .alterTable
  · exact .dropTable

/-- A statement that belongs to a table begins with a phrase of its kind. -/
theorem parted_of_target {s : Bytes} {k : Kind} {n : String}
    (h : (classify s).target = some (k, n)) : ∃ ph ∈ Keyword.Phrase.all, ph.kind = k ∧
      ∃ x r, Parted ph.words x ∧ Bytes.trim (Keyword.stripComments s) = x ++ r := by
  unfold classify classifyStripped at h
  split at h
  · cases h
  · split at h
    · cases h
    · next kind r hrec =>
      obtain ⟨ph, hph, hkind, x, hx⟩ := Keyword.Phrase.parted_of_recognise? hrec
      split at h
      · cases h
      · refine ⟨ph, hph, hkind.trans ?_, x, r, hx⟩
        unfold Classified.known at h
        split at h
        · cases h
        · cases h
          rfl

/-- Where a phrase runs on into a word and no name is read by hand, none is found by expression. -/
theorem table?_runOn {ph : Keyword.Phrase} (hph : ph ∈ Keyword.Phrase.all)
    (hk : ph.kind ≠ .createIndex) {x : Bytes} (hx : Parted ph.words x) {b : UInt8}
    (hb : isWordByte b = true) (r : Bytes) : Fallback.table? ph.kind (x ++ b :: r) = none := by
  cases htable : Fallback.table? ph.kind (x ++ b :: r) with
  | none => rfl
  | some n =>
    have hblank := Fallback.blank_of_table? (direct_of_mem hph hk) hx htable
    exact absurd (hblank.unique (Fallback.begins_wordByte hb r)) (by decide)

/-- A statement that belongs to a table begins with a phrase of its kind. Where the phrase runs on
into a word, the name that is read by hand from the rest of that word is the table's, and only an
index whose name is not read so may still find its table by expression. -/
theorem classify_runOn (s : Bytes) :
    (∀ k n, (classify s).target = some (k, n) → ∃ ph ∈ Keyword.Phrase.all, ph.kind = k ∧
      ∃ x r, Parted ph.words x ∧ Bytes.trim (Keyword.stripComments s) = x ++ r) ∧
    ∀ ph ∈ Keyword.Phrase.all, ∀ x b r, Parted ph.words x →
      Bytes.trim (Keyword.stripComments s) = x ++ b :: r → isWordByte b = true →
        (∀ n, TableName.scan? ph.kind (b :: r) = some n →
          (classify s).target = some (ph.kind, Text.decodeLossy n)) ∧
        (TableName.scan? ph.kind (b :: r) = none → ph.kind ≠ .createIndex →
          (classify s).target = none) := by
  refine ⟨fun _ _ => parted_of_target, ?_⟩
  intro ph hph x b r hx hs hb
  rw [target_parted hph hx hs, tableName?]
  constructor
  · intro n hn
    rw [hn]
    rfl
  · intro hnone hk
    rw [hnone, table?_runOn hph hk hx hb r]
    rfl

/-- The second word of the phrase is only what a longer word begins with. -/
def tablespace : Bytes := Text.encode "CREATE TABLESPACE fast LOCATION '/ssd';"

theorem parted_tablespace :
    Parted [Keyword.Phrase.create, Keyword.Phrase.table] (Text.encode "CREATE TABLE") := by
  have h : Parted [Keyword.Phrase.create, Keyword.Phrase.table] (Text.encode "CREATE" ++
      (Text.encode " " ++ (Text.encode "TABLE" ++ []))) :=
    .words (by decide) (.cons (by decide) (by decide) .nil)
  exact (congrArg (Parted _) (by decide +kernel)).mp h

theorem trim_tablespace : Bytes.trim (Keyword.stripComments tablespace) =
    Text.encode "CREATE TABLE" ++ 83 :: Text.encode "PACE fast LOCATION '/ssd';" := by
  decide +kernel

theorem not_whole_of_target :
    ¬ ∀ s k n, (classify s).target = some (k, n) → Whole s := by
  intro h
  have htarget : (classify tablespace).target = some (.createTable, "SPACE") := by decide +kernel
  have hbyte := h _ _ _ htarget _ Direct.createTable.mem_all _ _ _ parted_tablespace trim_tablespace
  exact absurd hbyte (by decide)

theorem classify_runOn_tablespace :
    isWordByte 83 = true ∧ (classify tablespace).target = some (.createTable, "SPACE") := by
  have hname : TableName.scan? .createTable (83 :: Text.encode "PACE fast LOCATION '/ssd';") =
      some (Text.encode "SPACE") := by
    decide +kernel
  have hrest := (classify_runOn tablespace).2 _ Direct.createTable.mem_all _ _ _ parted_tablespace
    trim_tablespace (by decide)
  exact ⟨by decide, (hrest.1 _ hname).trans (by decide +kernel)⟩

end DumpRouter
