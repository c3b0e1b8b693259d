import DumpRouter.Proofs.Statement.ModifierWords
import DumpRouter.Proofs.Statement.PlainNames

/-!
# DumpRouter.Proofs.Statement.Spellings

One name bare, in backquotes and in double quotes. Every kind of statement has its modifiers
skipped, so a bare name that is spelled like one is skipped too where a gap stands behind it.

* `Modifiers.first`, `PlainName.behind`: a name that begins modifiers is their first word.
* `target_insertInto`: the table that rows belong to, its name in each of the three spellings.
-/

namespace DumpRouter

open Keyword (parted_of_phrase?)
open Keyword.Phrase (insert into)
open TableName
open Fallback (asciiUnit isBreak isWordByte_of_isLetter not_isBreak_of_isWordByte)

variable {n : String} {q : UInt8} {g t w m r : Bytes}

namespace TableName

/-- Modifiers begin with a word and a gap, and nothing or another word follows. -/
theorem Modifiers.first (hm : Modifiers m) (hne : m ≠ []) :
    ∃ x y z, IsWord x ∧ Gap y ∧ m = x ++ (y ++ z) ∧ ∀ b ∈ z.head?, isLetter b = true := by
  obtain ⟨ho, he⟩ := hm
  next o e =>
    cases ho with
    | absent =>
      obtain ⟨x, y, z, hx, hy, rfl, b, u, rfl, hb⟩ := he.first hne
      refine ⟨x, y, b :: u, hx.isWord isWord_if, hy, rfl, ?_⟩
      rintro _ ⟨rfl⟩
      exact hb
    | @word o g ho hg =>
      refine ⟨o, g, e, ho.isWord isWord_only, hg, List.append_assoc .., ?_⟩
      by_cases he' : e = []
      · simp [he']
      · obtain ⟨a, u, ha, rfl⟩ := he.head he'
        obtain ⟨b, v, rfl⟩ := List.exists_cons_of_ne_nil (ha.isWord isWord_if).ne_nil
        rintro _ ⟨rfl⟩
        exact (ha.isWord isWord_if).letters b (by simp)

/-- Behind modifiers that no name follows none is read. -/
theorem direct?_closed {b : UInt8} (hg : Gap g) (hm : Modifiers m) (hb : b = 40 ∨ b = 59 ∨ b = 44)
    (r : Bytes) : direct? (g ++ (m ++ b :: r)) = none := by
  obtain ⟨hblank, hletter, hquote, hbare⟩ : Bytes.isBlank b = false ∧ isLetter b = false ∧
      isQuote b = false ∧ isBare b = false := by
    rcases hb with rfl | rfl | rfl <;> decide
  have hskip : Bytes.skipBlank (b :: r) = b :: r := skipBlank_eq_self (by simpa using hblank)
  have honly := standing?_of_not_letter isWord_only hletter r
  have hif := standing?_of_not_letter isWord_if hletter r
  rw [direct?, skipBlank_append_blank hg.blank, hm.skipBlank hskip,
    skipModifiers_append hm hskip honly hif, qualified?_of_not_bare hquote hbare]
  rfl

theorem not_spells_quoted (hw : IsWord w) (hq : isQuote q = true) : ¬ Spells w (q :: t) := by
  intro h
  rw [(isBare_of_isLetter ((h.isWord hw).letters q (by simp))).2] at hq
  cases hq

theorem direct?_of_not_led {s m : Bytes} (hg : Gap g) (hs : Qualified s m) (ht : Stop t)
    (h : ¬ Led Modifiers (s ++ t)) : direct? (g ++ (s ++ t)) = some m := by
  rw [direct?_eq hg (hs.skipBlank t) h, qualified?_written hs ht]
  rfl

end TableName

/-- A name that begins modifiers has a gap behind it, and no dot behind that. -/
theorem PlainName.behind {b : UInt8} (hn : PlainName n) (ht : Stop t) (hm : Modifiers m)
    (hb : b = 40 ∨ b = 59 ∨ b = 44) (he : Text.encode n ++ t = m ++ b :: r) :
    ∃ g c u, Gap g ∧ t = g ++ c :: u ∧ c < 0x80 ∧ isBreak (asciiUnit c) = false := by
  obtain ⟨hword, hascii, hbreak⟩ : isWordByte b = false ∧ b < 0x80 ∧
      isBreak (asciiUnit b) = false := by
    rcases hb with rfl | rfl | rfl <;> decide
  have hne : m ≠ [] := by
    rintro rfl
    obtain ⟨c, u, hc⟩ := List.exists_cons_of_ne_nil hn.encode_ne_nil
    rw [hc] at he
    have hc := hn.wordBytes c (by simp [hc])
    rw [(List.cons.inj he).1, hword] at hc
    cases hc
  obtain ⟨x, g, y, hx, hg, rfl, hy⟩ := hm.first hne
  simp only [List.append_assoc] at he
  have hgap := stop_gap hg (y ++ b :: r)
  obtain ⟨-, rfl⟩ := span_bare_unique (fun c hc => (isBare_of_isWordByte (hn.wordBytes c hc)).1)
    (fun c hc => (isBare_of_isLetter (hx.letters c hc)).1) (fun c hc => (ht.head c hc).1)
    (fun c hc => (hgap.head c hc).1) he
  cases y with
  | nil => exact ⟨g, b, r, hg, rfl, hascii, hbreak⟩
  | cons c y =>
    have hletter := not_isBreak_of_isWordByte (isWordByte_of_isLetter (hy c rfl))
    exact ⟨g, c, y ++ b :: r, hg, rfl, hletter⟩

def insertInto : Bytes := Text.encode "INSERT INTO "

theorem parted_insertInto : Parted [insert, into] (Text.encode "INSERT INTO") :=
  parted_of_phrase? (by decide) (by decide) (by decide +kernel)

theorem target_insertInto_eq {s k : Bytes} (y : Bytes) (hs : Qualified s k) (t : Bytes) :
    (classify (insertInto ++ (y ++ (s ++ t)))).target =
      (tableName? .insert (Text.encode "INSERT INTO" ++ (Text.encode " " ++
          (y ++ (s ++ Bytes.trimEnd t))))
        (Text.encode " " ++ (y ++ (s ++ Bytes.trimEnd t)))).map fun n => (.insert, n) := by
  have hsplit : insertInto = Text.encode "INSERT INTO" ++ Text.encode " " := by decide +kernel
  have htarget := target_qualified (p := []) (t := t) Direct.insertInto.mem_all .nil
    parted_insertInto (Text.encode " " ++ y) hs
  rw [hsplit]
  simpa only [List.append_assoc, List.nil_append] using htarget

theorem target_insertInto_of_name {s k m t : Bytes} (y : Bytes) (hs : Qualified s k)
    (hn : direct? (Text.encode " " ++ (y ++ (s ++ Bytes.trimEnd t))) = some m) :
    (classify (insertInto ++ (y ++ (s ++ t)))).target = some (.insert, Text.decodeLossy m) := by
  rw [target_insertInto_eq y hs, tableName?, Direct.insertInto.scan?_eq, hn]
  rfl

/-- The expression finds a bare name with no dot behind it. -/
theorem table?_insertInto (hn : PlainName n) (hg : Gap g) {c : UInt8} (hc : c < 0x80)
    (hbreak : isBreak (asciiUnit c) = false) (r : Bytes) :
    Fallback.table? .insert (Text.encode "INSERT INTO" ++
      (Text.encode " " ++ (Text.encode n ++ (g ++ c :: r)))) = some n := by
  have hkeywords := Fallback.prefers_keywords [Fallback.insert, Fallback.into] (by decide)
    (by decide) parted_insertInto (by decide : Gap (Text.encode " "))
    (Fallback.begins_name hn hn.bare (g ++ c :: r))
  have hschema := Fallback.prefers_without (Fallback.schema_eq_nil hn hg hc hbreak r)
  exact Fallback.table?_of_prefers .insertInto parted_insertInto (hkeywords.andThen hschema) hn
    hn.bare (stop_gap hg (c :: r))

/-- Rows belong to the table that is named in quotes. Where the name is bare they do so unless it
begins modifiers. These are skipped with it, and the table is what is named behind them; if nothing
is, the expression finds the name after all. -/
theorem target_insertInto (hn : PlainName n) (ht : Stop t) :
    (∀ q, isQuote q = true →
      (classify (insertInto ++ (q :: (Text.encode n ++ [q]) ++ t))).target = some (.insert, n)) ∧
    (¬ Led Modifiers (Text.encode n ++ Bytes.trimEnd t) →
      (classify (insertInto ++ (Text.encode n ++ t))).target = some (.insert, n)) ∧
    (∀ m s k u, Modifiers m → Text.encode n ++ t = m ++ (s ++ u) → Qualified s k → Stop u →
      NoModifier s u →
      (classify (insertInto ++ (Text.encode n ++ t))).target =
        some (.insert, Text.decodeLossy k)) ∧
    ∀ m b r, Modifiers m → (b = 40 ∨ b = 59 ∨ b = 44) → Text.encode n ++ t = m ++ b :: r →
      (classify (insertInto ++ (Text.encode n ++ t))).target = some (.insert, n) := by
  have hstop := ht.trimEnd
  have hspace : Gap (Text.encode " ") := by decide
  refine ⟨fun q hq => ?_, fun hled => ?_, fun m s k u hm he hs hu hno => ?_,
    fun m b r hm hb he => ?_⟩
  · have hname : Qualified (q :: (Text.encode n ++ [q])) (Text.encode n) := .last (hn.quoted hq)
    have honly := standing?_qualified isWord_only hname hstop fun _ _ _ =>
      not_spells_quoted isWord_only hq
    have hif := standing?_qualified isWord_if hname hstop fun _ _ _ =>
      not_spells_quoted isWord_if hq
    have hread := direct?_of_not_led hspace hname hstop (not_led_modifiers honly hif)
    have h := target_insertInto_of_name [] hname hread
    rwa [Text.decodeLossy_encode] at h
  · have hname : Qualified (Text.encode n) (Text.encode n) := .last hn.bare
    have hread := direct?_of_not_led hspace hname hstop hled
    have h := target_insertInto_of_name [] hname hread
    rwa [Text.decodeLossy_encode] at h
  · have hname := direct?_written hspace hm hs hu.trimEnd hno.trimEnd
    rw [he]
    exact target_insertInto_of_name m hs hname
  · have hblank : Bytes.isBlank b = false := by rcases hb with rfl | rfl | rfl <;> rfl
    have he : Text.encode n ++ Bytes.trimEnd t = m ++ b :: Bytes.trimEnd r := by
      rw [← trimEnd_append_cons hblank, ← he]
      exact (trimEnd_qualified (.last hn.bare) [] t).symm
    have hread := direct?_closed hspace hm hb (Bytes.trimEnd r)
    rw [← he] at hread
    obtain ⟨g, c, u, hg, hbehind, hc, hbreak⟩ := hn.behind hstop hm hb he
    have htable := table?_insertInto hn hg hc hbreak u
    rw [← hbehind] at htable
    have htarget := target_insertInto_eq [] (.last hn.bare) t
    rw [List.nil_append, List.nil_append] at htarget
    rw [htarget, tableName?, Direct.insertInto.scan?_eq, hread, htable]
    rfl

/-- A name bare, in backquotes and in double quotes. -/
def spellings (n : String) : List Bytes :=
  [Text.encode n, 96 :: (Text.encode n ++ [96]), 34 :: (Text.encode n ++ [34])]

/-- The three spellings of a name need not name one table. -/
theorem not_target_of_spellings : ¬ ∀ n t, PlainName n →
    (∀ b ∈ t.head?, Bytes.isBlank b = true ∨ b = 40 ∨ b = 59) → ∀ s ∈ spellings n,
      (classify (insertInto ++ (s ++ t))).target = some (.insert, n) := by
  intro h
  have honly := h "only" (Text.encode " VALUES (1);") (by decide +kernel)
    (by decide +kernel) _ (.head _)
  have hvalues : (classify (insertInto ++
      (Text.encode "only" ++ Text.encode " VALUES (1);"))).target = some (.insert, "VALUES") := by
    decide +kernel
  exact absurd (honly.symm.trans hvalues) (by decide)

/-- A table whose name may be a modifier. -/
theorem target_insertInto_only :
    PlainName "only" ∧
      (classify (Text.encode "INSERT INTO \"only\" VALUES (1);")).target = some (.insert, "only") ∧
      (classify (Text.encode "INSERT INTO only(id) VALUES (1);")).target = some (.insert, "only") ∧
      (classify (Text.encode "INSERT INTO only (id) VALUES (1);")).target =
        some (.insert, "only") ∧
      (classify (Text.encode "INSERT INTO only VALUES (1);")).target =
        some (.insert, "VALUES") := by
  have hplain : PlainName "only" := by decide +kernel
  obtain ⟨hquoted, -, hskipped, -⟩ := target_insertInto (t := Text.encode " VALUES (1);") hplain
    (by decide +kernel)
  obtain ⟨-, hbare, -⟩ := target_insertInto (t := Text.encode "(id) VALUES (1);") hplain
    (by decide +kernel)
  obtain ⟨-, -, -, hclosed⟩ := target_insertInto (t := Text.encode " (id) VALUES (1);") hplain
    (by decide +kernel)
  have hquoted := hquoted 34 rfl
  have hbare := hbare (not_led_modifiers (by decide +kernel) (by decide +kernel))
  have hmodifiers : Modifiers ((Text.encode "only" ++ Text.encode " ") ++ []) :=
    .both (.word (by decide) (by decide)) .absent
  have hvalues : Qualified (Text.encode "VALUES") (Text.encode "VALUES") :=
    .last (.bare (by decide) (List.all_eq_true.1 (by decide)))
  have hskipped := hskipped _ _ _ (Text.encode " (1);") hmodifiers (by decide +kernel) hvalues
    (by decide) (by decide)
  have hclosed := hclosed _ 40 (Text.encode "id) VALUES (1);") hmodifiers (.inl rfl)
    (by decide +kernel)
  rw [Text.decodeLossy_encode] at hskipped
  exact ⟨hplain,
    (congrArg (fun s => (classify s).target) (by decide +kernel)).trans hquoted,
    (congrArg (fun s => (classify s).target) (by decide +kernel)).trans hbare,
    (congrArg (fun s => (classify s).target) (by decide +kernel)).trans hclosed,
    (congrArg (fun s => (classify s).target) (by decide +kernel)).trans hskipped⟩

end DumpRouter
