import DumpRouter.Proofs.Statement.Expressions
import DumpRouter.Proofs.Text.Utf8

/-!
# DumpRouter.Proofs.Statement.PlainNames

Names of letters, digits and underscores. The reading by hand and the expressions take them alike,
bare or in quotes.

* `PlainName`: such a name.
* `prefers_quotes`: an expression for a name takes it with the quotes around it.
* `schema_eq_nil`: a name with no dot behind it is not taken for a schema.
* `table?_of_prefers`: the name behind what the expression of a kind prefers to take is the table.
-/

namespace DumpRouter

open TableName
open Text.Utf8 (TextUnit units)

/-- A name of ASCII letters, digits and underscores. -/
structure PlainName (n : String) : Prop where
  ne_empty : n ≠ ""
  wordBytes : ∀ b ∈ Text.encode n, isWordByte b = true

instance (n : String) : Decidable (PlainName n) :=
  decidable_of_iff (n ≠ "" ∧ (Text.encode n).all isWordByte = true)
    ⟨fun h => ⟨h.1, List.all_eq_true.1 h.2⟩, fun h => ⟨h.ne_empty, List.all_eq_true.2 h.wordBytes⟩⟩

variable {n : String} {q : UInt8}

theorem isBare_of_isWordByte {b : UInt8} (h : isWordByte b = true) :
    isBare b = true ∧ isQuote b = false := by
  simp only [isWordByte, Bool.or_eq_true, Bool.and_eq_true, decide_eq_true_eq, beq_iff_eq] at h
  rcases h with (h | h) | rfl
  · exact isBare_of_isLetter h
  · rw [isBare_iff]
    unfold isQuote dot Bytes.isBlank
    grind
  · exact ⟨rfl, rfl⟩

theorem PlainName.encode_ne_nil (h : PlainName n) : Text.encode n ≠ [] := by
  intro hnil
  have hdecode := Text.decode?_encode n
  rw [hnil] at hdecode
  exact h.ne_empty (Option.some.inj hdecode).symm

theorem PlainName.bare (h : PlainName n) : Identifier (Text.encode n) (Text.encode n) := by
  have hbytes := h.wordBytes
  obtain ⟨b, u, he⟩ := List.exists_cons_of_ne_nil h.encode_ne_nil
  rw [he] at hbytes ⊢
  exact .bare (isBare_of_isWordByte (hbytes b (by simp))).2 fun c hc =>
    (isBare_of_isWordByte (hbytes c hc)).1

theorem PlainName.quoted (h : PlainName n) (hq : isQuote q = true) :
    Identifier (q :: (Text.encode n ++ [q])) (Text.encode n) := by
  refine .quoted hq h.encode_ne_nil fun hmem => ?_
  rw [(isBare_of_isWordByte (h.wordBytes q hmem)).2] at hq
  cases hq

theorem PlainName.ascii (hn : PlainName n) : ∀ c ∈ Text.encode n, c < 0x80 :=
  fun c hc => (Fallback.range_of_isWordByte (hn.wordBytes c hc)).2

namespace Fallback

open Expression

variable {s t r u x g a : Bytes}

/-- What stands behind a name is no part of it. -/
structure Parts (r : Bytes) : Prop where
  word : ∀ v ∈ (units r).head?, Expression.word v = false
  quote : ∀ v ∈ (units r).head?, Expression.quote v = false

theorem units_cons_ascii {c : UInt8} (hc : c < 0x80) (r : Bytes) :
    units (c :: r) = asciiUnit c :: units r :=
  Text.Utf8.units_ascii_cons hc r

theorem parts_cons {c : UInt8} (hc : c < 0x80) (hword : isWordByte c = false)
    (hquote : isQuote c = false) (r : Bytes) : Parts (c :: r) := by
  rw [← word_ascii hc] at hword
  rw [← quote_ascii hc] at hquote
  constructor
  · rw [units_cons_ascii hc]
    rintro _ ⟨rfl⟩
    exact hword
  · rw [units_cons_ascii hc]
    rintro _ ⟨rfl⟩
    exact hquote

theorem not_name_of_isBlank {c : UInt8} (h : Bytes.isBlank c = true) :
    isWordByte c = false ∧ isQuote c = false := by
  simp only [Bytes.isBlank, Bool.or_eq_true, beq_iff_eq] at h
  rcases h with ((rfl | rfl) | rfl) | rfl <;> decide

theorem Parts.of_stop (h : Stop u) : Parts u := by
  cases u with
  | nil => constructor <;> rintro _ ⟨⟩
  | cons c u =>
    rcases h c rfl with hc | rfl | rfl | rfl
    · obtain ⟨hword, hquote⟩ := not_name_of_isBlank hc
      exact parts_cons (ascii_of_isBlank hc) hword hquote u
    all_goals exact parts_cons (by decide) (by decide) (by decide) u

theorem units_name (hn : PlainName n) (r : Bytes) :
    units (Text.encode n ++ r) = (Text.encode n).map asciiUnit ++ units r :=
  Text.units_ascii_append hn.ascii r

theorem word_name (hn : PlainName n) : ∀ v ∈ (Text.encode n).map asciiUnit, word v = true := by
  intro v hv
  obtain ⟨c, hc, rfl⟩ := List.mem_map.1 hv
  rw [word_ascii (hn.ascii c hc), hn.wordBytes c hc]

/-- An expression for a name takes the quote in front of it, if there is one, and that behind it. -/
theorem prefers_quotes (hn : PlainName n) (hs : Identifier s (Text.encode n)) (hr : Parts r) :
    ∃ c, Prefers (Expression.optional (one quote)) (units (s ++ r))
        ((Text.encode n).map asciiUnit ++ c) ∧
      (∀ v ∈ c.head?, word v = false) ∧
      Prefers (Expression.optional (one quote)) c (units r) := by
  generalize hm : Text.encode n = k at hs
  cases hs with
  | @bare c k hc _ =>
    refine ⟨units r, ?_, hr.word, prefers_without (one_eq_nil hr.quote)⟩
    have hascii := hn.ascii
    rw [hm] at hascii
    rw [Text.units_ascii_append hascii]
    refine prefers_without (one_eq_nil ?_)
    rintro _ ⟨rfl⟩
    exact (quote_ascii (hascii c (by simp))).trans hc
  | @quoted q _ hq _ _ =>
    have hclass : q < 0x80 ∧ isWordByte q = false := by
      simp only [isQuote, Bool.or_eq_true, beq_iff_eq] at hq
      rcases hq with rfl | rfl <;> decide
    obtain ⟨hqascii, hword⟩ := hclass
    have hquote : quote (asciiUnit q) = true := (quote_ascii hqascii).trans hq
    refine ⟨asciiUnit q :: units r, ?_, ?_, (prefers_one hquote _).optional⟩
    · rw [List.cons_append, List.append_assoc, units_cons_ascii hqascii,
        Text.units_ascii_append (hm ▸ hn.ascii), List.singleton_append, units_cons_ascii hqascii]
      exact (prefers_one hquote _).optional
    · rintro _ ⟨rfl⟩
      exact (word_ascii hqascii).trans hword

theorem blank_blanks (ha : Blank a) : ∀ v ∈ a.map asciiUnit, blank v = true := by
  intro v hv
  obtain ⟨c, hc, rfl⟩ := List.mem_map.1 hv
  rw [blank_ascii (ascii_of_isBlank (ha c hc)), ha c hc]
  rfl

theorem units_blanks (ha : Blank a) (r : Bytes) : units (a ++ r) = a.map asciiUnit ++ units r :=
  Text.units_ascii_append (fun c hc => ascii_of_isBlank (ha c hc)) r

theorem not_isBreak_of_isWordByte {c : UInt8} (hc : isWordByte c = true) :
    c < 0x80 ∧ isBreak (asciiUnit c) = false := by
  obtain ⟨hlow, hascii⟩ := range_of_isWordByte hc
  refine ⟨hascii, ?_⟩
  rw [isBreak, blank_ascii hascii, isDot_ascii hascii]
  unfold Bytes.isBlank dot
  grind

/-- A name as it is written has no break in it. -/
theorem not_isBreak_written (hn : PlainName n) (ht : Identifier t (Text.encode n)) :
    ∀ c ∈ t, c < 0x80 ∧ isBreak (asciiUnit c) = false := by
  have hquote : ∀ c, isQuote c = true → c < 0x80 ∧ isBreak (asciiUnit c) = false := by
    intro c hc
    simp only [isQuote, Bool.or_eq_true, beq_iff_eq] at hc
    rcases hc with rfl | rfl <;> decide
  intro c hc
  generalize hm : Text.encode n = k at ht
  cases ht with
  | bare => exact not_isBreak_of_isWordByte (hn.wordBytes c (hm ▸ hc))
  | quoted hq _ _ =>
    rcases List.mem_cons.1 hc with rfl | hc
    · exact hquote c hq
    · rcases List.mem_append.1 hc with hc | hc
      · exact not_isBreak_of_isWordByte (hn.wordBytes c (hm ▸ hc))
      · exact hquote c (List.mem_singleton.1 hc ▸ hq)

theorem begins_name (hn : PlainName n) (ht : Identifier t (Text.encode n)) (u : Bytes) :
    Begins false (units (t ++ u)) := by
  have hbreak := not_isBreak_written hn ht
  obtain ⟨c, v, rfl, -⟩ := ht.head
  obtain ⟨hascii, hc⟩ := hbreak c (by simp)
  exact ⟨_, _, units_cons_ascii hascii (v ++ u), (Bool.or_eq_false_iff.1 hc).1⟩

/-- Behind blanks no dot is found where something else stands. -/
theorem one_isDot_eq_nil {l s t : List TextUnit} {u : TextUnit} (hl : ∀ v ∈ l, blank v = true)
    (hu : isBreak u = false) (ht : t ∈ many blank (l ++ u :: s)) : one isDot t = [] := by
  obtain ⟨hblank, hdot⟩ := Bool.or_eq_false_iff.1 hu
  refine one_eq_nil fun d hd => ?_
  obtain ⟨v, rfl⟩ := List.head?_eq_some_iff.1 hd
  obtain ⟨l', hl', he⟩ := of_mem_many ht
  rw [Bool.eq_false_iff]
  intro hisDot
  have hnot : blank d = false := by
    cases d with
    | stray => cases hisDot
    | broken => cases hisDot
    | char c =>
      obtain rfl : c = '.' := eq_of_beq hisDot
      rfl
  obtain ⟨rfl, -⟩ := List.cons.inj (eq_of_blank_append hl hl' ⟨u, s, rfl, hblank⟩
    ⟨d, v, rfl, hnot⟩ he)
  rw [hisDot] at hdot
  cases hdot

/-- The units that a word leaves are the rest of the name and what stands behind it. -/
theorem of_mem_some_word {l s t : List TextUnit} (hl : ∀ u ∈ s.head?, word u = false)
    (h : t ∈ Expression.some word (l ++ s)) : ∃ a, t = a ++ s ∧ ∀ u ∈ a, u ∈ l := by
  obtain ⟨u, x, hx, he⟩ := of_mem_some h
  rw [← List.cons_append, List.append_eq_append_iff] at he
  rcases he with ⟨y, hy, rfl⟩ | ⟨y, rfl, rfl⟩
  · cases y with
    | nil => exact ⟨[], rfl, by simp⟩
    | cons v y =>
      have hword := hx v (by simp [hy])
      rw [hl v rfl] at hword
      cases hword
  · exact ⟨y, rfl, fun v hv => by simp [hv]⟩

/-- A name with no dot behind it is not taken for a schema. -/
theorem schema_eq_nil (hn : PlainName n) (hg : Gap g) {c : UInt8} (hc : c < 0x80)
    (hbreak : isBreak (asciiUnit c) = false) (r : Bytes) :
    schema (units (Text.encode n ++ (g ++ c :: r))) = [] := by
  have hname : ∀ v ∈ (Text.encode n).map asciiUnit, isBreak v = false ∧ quote v = false := by
    intro v hv
    obtain ⟨b, hb, rfl⟩ := List.mem_map.1 hv
    have hword := hn.wordBytes b hb
    exact ⟨(not_isBreak_of_isWordByte hword).2,
      (quote_ascii (hn.ascii b hb)).trans (isBare_of_isWordByte hword).2⟩
  have hbehind := Parts.of_stop (stop_gap hg (c :: r))
  have hquotes : ∀ a : List TextUnit, (∀ v ∈ a, v ∈ (Text.encode n).map asciiUnit) →
      Expression.optional (one quote) (a ++ units (g ++ c :: r)) = [a ++ units (g ++ c :: r)] := by
    intro a ha
    rw [Expression.optional, one_eq_nil, List.nil_append]
    cases a with
    | nil => exact hbehind.quote
    | cons v a =>
      rintro _ ⟨rfl⟩
      exact (hname v (ha v (by simp))).2
  refine List.eq_nil_iff_forall_not_mem.2 fun t ht => ?_
  rw [units_name hn] at ht
  obtain ⟨t₁, h₁, ht⟩ := List.mem_flatMap.1 ht
  rw [hquotes _ fun v hv => hv] at h₁
  obtain rfl := List.mem_singleton.1 h₁
  obtain ⟨t₂, h₂, ht⟩ := List.mem_flatMap.1 ht
  obtain ⟨a, rfl, ha⟩ := of_mem_some_word hbehind.word h₂
  obtain ⟨t₃, h₃, ht⟩ := List.mem_flatMap.1 ht
  rw [hquotes a ha] at h₃
  obtain rfl := List.mem_singleton.1 h₃
  obtain ⟨t₄, h₄, ht⟩ := List.mem_flatMap.1 ht
  -- a dot would have to stand in the rest of the name or right behind the blanks
  have hnone : one isDot t₄ = [] := by
    cases a with
    | nil =>
      rw [List.nil_append, units_blanks hg.blank, units_cons_ascii hc] at h₄
      exact one_isDot_eq_nil (blank_blanks hg.blank) hbreak h₄
    | cons v a =>
      exact one_isDot_eq_nil (l := []) (List.forall_mem_nil _) (hname v (ha v (by simp))).1 h₄
  obtain ⟨t₅, h₅, -⟩ := List.mem_flatMap.1 ht
  exact List.not_mem_nil (hnone ▸ h₅)

/-- The name behind what the expression of a kind prefers to take is the table. -/
theorem table?_of_prefers {k : Kind} {ws : List Bytes} (hk : Direct k ws) (hx : Parted ws x)
    (hlead : Prefers (lead k) (units (x ++ r)) (units (t ++ u))) (hn : PlainName n)
    (ht : Identifier t (Text.encode n)) (hu : Stop u) : table? k (x ++ r) = Option.some n := by
  obtain ⟨c, hfront, hc, -⟩ := prefers_quotes hn ht (Parts.of_stop hu)
  have hne : (Text.encode n).map asciiUnit ≠ [] := by simpa using hn.encode_ne_nil
  have hstart : Begins false (units (x ++ r)) := by
    obtain ⟨c, y, rfl, hc⟩ := hx.head fun _ hw => Keyword.Phrase.isWord_of_mem hk.mem_all hw
    exact begins_wordByte (isWordByte_of_isLetter hc) _
  -- the text begins with the phrase, so there is no white space to be taken in front
  have hmany := prefers_many (p := blank) (l := []) (List.forall_mem_nil _) hstart.head
  have hname := name?_of_prefers (hmany.andThen hlead) hfront (word_name hn) hne hc
  have hchars : (Text.encode n).map asciiUnit = n.toList.map TextUnit.char := by
    have h := units_name hn []
    rw [List.append_nil, Text.encode, Text.Utf8.units_encode] at h
    exact (h.trans (List.append_nil _)).symm
  rw [List.nil_append, hchars] at hname
  have htext : (n.toList.map TextUnit.char).filterMap (·.char?) = n.toList := by
    rw [List.filterMap_map]
    exact List.filterMap_some
  rw [table?, if_neg hk.ne_createIndex, hname, Option.map_some, htext, String.ofList_toList]

end Fallback
end DumpRouter
