import DumpRouter.Proofs.Statement.Names

/-!
# DumpRouter.Proofs.Statement.Grammar

A grammar of the statements that belong to a table, and that all of them are classified.

* `Written`: the statements of a kind on the table of a name. Comment lines may stand in front, and
  anything may follow the name that a name does not go on with.
* `direct?_written`, `indexed?_written`: the name is read from what follows the keyword phrase.
* `classify_written`: a statement of the grammar is classified as that of its kind on its table.
-/

namespace DumpRouter

open Keyword.Phrase (create table index unique insert into alter drop)
open TableName (Qualified Modifiers Stop NoModifier only ifWord on)

/-- The phrases that the name of the table follows. -/
inductive Direct : Kind → List Bytes → Prop where
  | createTable : Direct .createTable [create, table]
  | insertInto : Direct .insert [insert, into]
  | alterTable : Direct .alterTable [alter, table]
  | dropTable : Direct .dropTable [drop, table]

theorem Direct.mem_all {k : Kind} {ws : List Bytes} (h : Direct k ws) :
    ⟨ws, k⟩ ∈ Keyword.Phrase.all := by
  cases h <;> simp [Keyword.Phrase.all]

theorem Direct.ne_createIndex {k : Kind} {ws : List Bytes} (h : Direct k ws) :
    k ≠ .createIndex := by
  cases h <;> decide

theorem indexed_mem_all {ws : List Bytes} (h : ws ∈ [[create, index], [create, unique, index]]) :
    ⟨ws, .createIndex⟩ ∈ Keyword.Phrase.all := by
  simp only [List.mem_cons, List.not_mem_nil, or_false] at h
  rcases h with rfl | rfl <;> simp [Keyword.Phrase.all]

/-- The statements of kind `k` that name their table as `n`. -/
inductive Written : Kind → Bytes → Bytes → Prop where
  | direct {k : Kind} {ws : List Bytes} {p x g m q n t : Bytes} : Direct k ws → Lead p →
      Parted ws x → Gap g → Modifiers m → Qualified q n → Stop t → NoModifier q t →
      Written k n (p ++ (x ++ (g ++ (m ++ (q ++ t)))))
  | indexed {ws : List Bytes} {p x g m i j g₁ o g₂ q n t : Bytes} :
      ws ∈ [[create, index], [create, unique, index]] → Lead p → Parted ws x → Gap g →
      Modifiers m → Qualified i j → ¬ Spells only i → ¬ Spells ifWord i → Gap g₁ → Spells on o →
      Gap g₂ → Qualified q n → Stop t →
      Written .createIndex n (p ++ (x ++ (g ++ (m ++ (i ++ (g₁ ++ (o ++ (g₂ ++ (q ++ t)))))))))

namespace TableName

variable {s g m q n t i j g₁ o g₂ : Bytes}

theorem Modifiers.skipBlank (hm : Modifiers m) (hs : Bytes.skipBlank s = s) :
    Bytes.skipBlank (m ++ s) = m ++ s := by
  obtain ⟨ho, he⟩ := hm
  next o e =>
    have hrest : Bytes.skipBlank (e ++ s) = e ++ s := by
      by_cases hne : e = []
      · rw [hne]
        exact hs
      · obtain ⟨a, u, ha, rfl⟩ := he.head hne
        rw [List.append_assoc]
        exact (ha.isWord isWord_if).skipBlank _
    rw [List.append_assoc]
    cases ho with
    | absent => exact hrest
    | word ho hg =>
      rw [List.append_assoc]
      exact (ho.isWord isWord_only).skipBlank _

theorem direct?_written (hg : Gap g) (hm : Modifiers m) (hq : Qualified q n) (ht : Stop t)
    (hno : NoModifier q t) : direct? (g ++ (m ++ (q ++ t))) = some n := by
  rw [direct?, skipBlank_append_blank hg.blank, hm.skipBlank (hq.skipBlank t),
    skipModifiers_written hm hq ht hno, qualified?_written hq ht]
  rfl

theorem stop_gap (hg : Gap g) (t : Bytes) : Stop (g ++ t) := by
  obtain ⟨b, u, rfl⟩ := List.exists_cons_of_ne_nil hg.ne_nil
  intro c hc
  cases hc
  exact .inl (hg.blank b (by simp))

theorem isWord_on : IsWord on := by decide

theorem indexed?_written (hg : Gap g) (hm : Modifiers m) (hi : Qualified i j)
    (honly : ¬ Spells only i) (hif : ¬ Spells ifWord i) (hg₁ : Gap g₁) (ho : Spells on o)
    (hg₂ : Gap g₂) (hq : Qualified q n) (ht : Stop t) :
    indexed? (g ++ (m ++ (i ++ (g₁ ++ (o ++ (g₂ ++ (q ++ t))))))) = some n := by
  have hstop := stop_gap hg₁ (o ++ (g₂ ++ (q ++ t)))
  rw [indexed?, skipBlank_append_blank hg.blank, hm.skipBlank (hi.skipBlank _),
    skipModifiers_written hm hi hstop fun _ _ _ => ⟨honly, hif⟩, qualified?_written hi hstop]
  dsimp only
  rw [skipBlank_append_blank hg₁.blank, (ho.isWord isWord_on).skipBlank,
    Keyword.standing?_spells ho hg₂]
  dsimp only
  rw [skipBlank_append_blank hg₂.blank, hq.skipBlank, qualified?_written hq ht]
  rfl

theorem Identifier.ends (h : Identifier s n) :
    ∃ u b, s = u ++ [b] ∧ Bytes.isBlank b = false := by
  cases h with
  | @bare b n _ hall =>
    have hne : b :: n ≠ [] := List.cons_ne_nil b n
    have hlast := hall _ (List.getLast_mem hne)
    exact ⟨_, _, (List.dropLast_concat_getLast hne).symm, ((isBare_iff _).1 hlast).1⟩
  | @quoted c n hc _ _ =>
    refine ⟨c :: n, c, rfl, ?_⟩
    unfold isQuote at hc
    unfold Bytes.isBlank
    grind

theorem Qualified.ends (h : Qualified q n) : ∃ u b, q = u ++ [b] ∧ Bytes.isBlank b = false := by
  induction h with
  | last h => exact h.ends
  | @dotted s _ _ _ _ _ ih =>
    obtain ⟨u, b, rfl, hb⟩ := ih
    exact ⟨s ++ dot :: u, b, by simp, hb⟩

theorem trimEnd_append_cons {b : UInt8} (hb : Bytes.isBlank b = false) (s t : Bytes) :
    Bytes.trimEnd (s ++ b :: t) = s ++ b :: Bytes.trimEnd t := by
  unfold Bytes.trimEnd
  rw [List.reverse_append, List.reverse_cons, List.append_assoc, List.dropWhile_append]
  split
  · next he => simp [List.isEmpty_iff.1 he, hb]
  · simp

/-- Blanks behind a name are trimmed, and nothing of the name is. -/
theorem trimEnd_qualified (h : Qualified q n) (s t : Bytes) :
    Bytes.trimEnd (s ++ (q ++ t)) = s ++ (q ++ Bytes.trimEnd t) := by
  obtain ⟨u, b, rfl, hb⟩ := h.ends
  simpa using trimEnd_append_cons hb (s ++ u) t

theorem mem_head?_of_isPrefix {u : Bytes} (h : u <+: t) : ∀ b ∈ u.head?, b ∈ t.head? := by
  intro b hb
  obtain ⟨v, rfl⟩ := h
  obtain ⟨w, rfl⟩ := List.head?_eq_some_iff.1 hb
  rfl

theorem Stop.trimEnd (h : Stop t) : Stop (Bytes.trimEnd t) :=
  fun b hb => h b (mem_head?_of_isPrefix (Bytes.trimEnd_prefix t) b hb)

theorem NoModifier.trimEnd (h : NoModifier q t) : NoModifier q (Bytes.trimEnd t) :=
  fun b hb => h b (mem_head?_of_isPrefix (Bytes.trimEnd_prefix t) b hb)

end TableName

theorem Parted.head {ws : List Bytes} {x : Bytes} (h : Parted ws x) (hws : ∀ w ∈ ws, IsWord w) :
    ∃ b u, x = b :: u ∧ isLetter b = true := by
  obtain ⟨ha, -⟩ := h
  next w a t ws =>
    have ha := ha.isWord (hws w (by simp))
    obtain ⟨b, u, rfl⟩ := List.exists_cons_of_ne_nil ha.ne_nil
    exact ⟨b, u ++ t, rfl, ha.letters b (by simp)⟩

theorem Further.length_le {ws : List Bytes} {x : Bytes} (h : Further ws x) :
    ws.flatten.length ≤ x.length := by
  induction h with
  | nil => exact Nat.le_refl _
  | cons _ hs _ ih =>
    simp only [List.flatten_cons, List.length_append, hs.length_eq]
    omega

theorem Parted.length_le {ws : List Bytes} {x : Bytes} (h : Parted ws x) :
    ws.flatten.length ≤ x.length := by
  cases h with
  | words hs hf =>
    have := hf.length_le
    simp only [List.flatten_cons, List.length_append, hs.length_eq]
    omega

/-- The kind is that of the phrase that the stripped statement begins with, and the table is read
from what stands behind the phrase. -/
theorem target_parted {ph : Keyword.Phrase} {s x r : Bytes} (hph : ph ∈ Keyword.Phrase.all)
    (hx : Parted ph.words x) (hs : Bytes.trim (Keyword.stripComments s) = x ++ r) :
    (classify s).target = (tableName? ph.kind (x ++ r) r).map fun n => (ph.kind, n) := by
  have hlen : ¬ (x ++ r).length < shortestClassified := by
    have hlong : ∀ p ∈ Keyword.Phrase.all, shortestClassified ≤ p.words.flatten.length := by
      decide
    have := hlong ph hph
    have := hx.length_le
    rw [List.length_append]
    omega
  have hkind : ph.kind ≠ .unknown := by
    have hall : ∀ p ∈ Keyword.Phrase.all, p.kind ≠ .unknown := by decide
    exact hall ph hph
  unfold classify
  rw [hs, classifyStripped, if_neg hlen, Keyword.Phrase.recognise?_parted hph hx]
  dsimp only
  cases tableName? ph.kind (x ++ r) r with
  | none => rfl
  | some n => simp [Classified.known, hkind]

/-- Of a statement is left the phrase and what stands behind that, up to the blanks at its end. -/
theorem trim_parted {ph : Keyword.Phrase} {p x r u : Bytes} (hph : ph ∈ Keyword.Phrase.all)
    (hp : Lead p) (hx : Parted ph.words x) (ht : Bytes.trimEnd (x ++ r) = x ++ u) :
    Bytes.trim (Keyword.stripComments (p ++ (x ++ r))) = x ++ u := by
  obtain ⟨b, y, rfl, hb⟩ := hx.head fun _ hw => Keyword.Phrase.isWord_of_mem hph hw
  have hblank := not_isBlank_of_isLetter hb
  have hdash : b ≠ 45 := by
    rintro rfl
    exact absurd hb (by decide)
  have hstrip : Keyword.stripComments (p ++ ((b :: y) ++ r)) = (b :: y) ++ r :=
    (Keyword.stripComments_lead hp _).trans (Keyword.stripComments_eq_self hblank hdash _)
  rw [hstrip, ← ht, Bytes.trim, skipBlank_eq_self (by simpa using hblank)]

/-- A statement is what stands in front of its phrase, the phrase, and what stands behind that. If
the name is read from there, the statement belongs to that table. -/
theorem target_of_scan? {ph : Keyword.Phrase} {p x r u n : Bytes} (hph : ph ∈ Keyword.Phrase.all)
    (hp : Lead p) (hx : Parted ph.words x) (ht : Bytes.trimEnd (x ++ r) = x ++ u)
    (hn : TableName.scan? ph.kind u = some n) :
    (classify (p ++ (x ++ r))).target = some (ph.kind, Text.decodeLossy n) := by
  rw [target_parted hph hx (trim_parted hph hp hx ht), tableName?, hn]
  rfl

theorem Direct.scan?_eq {k : Kind} {ws : List Bytes} (h : Direct k ws) (s : Bytes) :
    TableName.scan? k s = TableName.direct? s := by
  rw [TableName.scan?, if_neg h.ne_createIndex]

/-- Behind a name in it, nothing of a statement but blanks at its end is trimmed. -/
theorem target_qualified {ph : Keyword.Phrase} {p x q t m : Bytes} (hph : ph ∈ Keyword.Phrase.all)
    (hp : Lead p) (hx : Parted ph.words x) (y : Bytes) (hq : Qualified q m) :
    (classify (p ++ (x ++ (y ++ (q ++ t))))).target =
      (tableName? ph.kind (x ++ (y ++ (q ++ Bytes.trimEnd t)))
        (y ++ (q ++ Bytes.trimEnd t))).map fun n => (ph.kind, n) := by
  have htrim := TableName.trimEnd_qualified hq (x ++ y) t
  simp only [List.append_assoc] at htrim
  exact target_parted hph hx (trim_parted hph hp hx htrim)

theorem target_of_name {ph : Keyword.Phrase} {p x q t n m : Bytes} (hph : ph ∈ Keyword.Phrase.all)
    (hp : Lead p) (hx : Parted ph.words x) (y : Bytes) (hq : Qualified q m)
    (hn : TableName.scan? ph.kind (y ++ (q ++ Bytes.trimEnd t)) = some n) :
    (classify (p ++ (x ++ (y ++ (q ++ t))))).target = some (ph.kind, Text.decodeLossy n) := by
  rw [target_qualified hph hp hx y hq, tableName?, hn]
  rfl

/-- A statement of the grammar belongs to the table that it names. -/
theorem classify_written {k : Kind} {n s : Bytes} (h : Written k n s) :
    (classify s).target = some (k, Text.decodeLossy n) := by
  cases h with
  | @direct _ ws p x g m q _ t hk hp hx hg hm hq ht hno =>
    have htrim := TableName.trimEnd_qualified hq (x ++ (g ++ m)) t
    simp only [List.append_assoc] at htrim
    have hpre := TableName.mem_head?_of_isPrefix (Bytes.trimEnd_prefix t)
    have hname := TableName.direct?_written hg hm hq (fun b hb => ht b (hpre b hb))
      fun b hb => hno b (hpre b hb)
    refine target_of_scan? hk.mem_all hp hx htrim ?_
    rw [TableName.scan?, if_neg hk.ne_createIndex]
    exact hname
  | @indexed ws p x g m i j g₁ o g₂ q _ t hws hp hx hg hm hi honly hif hg₁ ho hg₂ hq ht =>
    have htrim := TableName.trimEnd_qualified hq (x ++ (g ++ (m ++ (i ++ (g₁ ++ (o ++ g₂)))))) t
    simp only [List.append_assoc] at htrim
    have hpre := TableName.mem_head?_of_isPrefix (Bytes.trimEnd_prefix t)
    have hname := TableName.indexed?_written hg hm hi honly hif hg₁ ho hg₂ hq
      fun b hb => ht b (hpre b hb)
    exact target_of_scan? (indexed_mem_all hws) hp hx htrim hname

/-- A comment with a quote and a semicolon in it, modifiers, a quoted schema and a quoted name. -/
def alteredOrder : Bytes :=
  Text.encode "-- it's;\n\tAlter\r\n TABLE only If Not  exists `a.b`.\"order item\"(x"

/-- An index that is called by the word behind its name, on a table in a schema. -/
def indexedOrder : Bytes := Text.encode "create UNIQUE  index on ON\nshop.Order;\n"

theorem written_alteredOrder : Written .alterTable (Text.encode "order item") alteredOrder := by
  have hlead : Lead (Text.encode "-- it's;\n\t") :=
    .comment (c := Text.encode " it's;") (by decide) (.blank rfl .nil)
  have hphrase : Parted [alter, table] (Text.encode "Alter" ++ (Text.encode "\r\n " ++
      (Text.encode "TABLE" ++ []))) :=
    .words (by decide) (.cons (by decide) (by decide) .nil)
  have honly : TableName.Only (Text.encode "only" ++ Text.encode " ") :=
    .word (by decide) (by decide)
  have hexistence : TableName.Existence ((Text.encode "If" ++ (Text.encode " " ++
      (Text.encode "Not" ++ (Text.encode "  " ++ (Text.encode "exists" ++ []))))) ++
      Text.encode " ") :=
    .words (.tail _ (.head _))
      (.words (by decide) (.cons (by decide) (by decide) (.cons (by decide) (by decide) .nil)))
      (by decide)
  have hname : Qualified (Text.encode "`a.b`" ++ 46 :: Text.encode "\"order item\"")
      (Text.encode "order item") :=
    .dotted (.quoted (n := Text.encode "a.b") (by decide) (by decide) (by decide))
      (.last (.quoted (n := Text.encode "order item") (by decide) (by decide) (by decide)))
  have hspace : Gap (Text.encode " ") := by decide
  have hstop : Stop (Text.encode "(x") := by decide
  have h := Written.direct .alterTable hlead hphrase hspace (.both honly hexistence) hname hstop
    (by decide)
  exact (congrArg (Written .alterTable (Text.encode "order item")) (by decide +kernel)).mp h

theorem written_indexedOrder : Written .createIndex (Text.encode "Order") indexedOrder := by
  have hphrase : Parted [create, unique, index] (Text.encode "create" ++ (Text.encode " " ++
      (Text.encode "UNIQUE" ++ (Text.encode "  " ++ (Text.encode "index" ++ []))))) :=
    .words (by decide) (.cons (by decide) (by decide) (.cons (by decide) (by decide) .nil))
  have hindex : Qualified (Text.encode "on") (Text.encode "on") :=
    .last (.bare (by decide) (List.all_eq_true.1 (by decide)))
  have hname : Qualified (Text.encode "shop" ++ 46 :: Text.encode "Order") (Text.encode "Order") :=
    .dotted (.bare (by decide) (List.all_eq_true.1 (by decide)))
      (.last (.bare (by decide) (List.all_eq_true.1 (by decide))))
  have hspace : Gap (Text.encode " ") := by decide
  have hline : Gap (Text.encode "\n") := by decide
  have hon : Spells on (Text.encode "ON") := by decide
  have hstop : Stop (Text.encode ";\n") := by decide
  have h := Written.indexed (.tail _ (.head _)) .nil hphrase hspace (.both .absent .absent) hindex
    (by decide) (by decide) hspace hon hline hname hstop
  exact (congrArg (Written .createIndex (Text.encode "Order")) (by decide +kernel)).mp h

theorem classify_written_orders :
    Written .alterTable (Text.encode "order item") alteredOrder ∧
      (classify alteredOrder).target = some (.alterTable, "order item") ∧
      Written .createIndex (Text.encode "Order") indexedOrder ∧
      (classify indexedOrder).target = some (.createIndex, "Order") := by
  have hname : Text.decodeLossy (Text.encode "order item") = "order item" := by decide +kernel
  have hname' : Text.decodeLossy (Text.encode "Order") = "Order" := by decide +kernel
  have haltered := classify_written written_alteredOrder
  have hindexed := classify_written written_indexedOrder
  rw [hname] at haltered
  rw [hname'] at hindexed
  exact ⟨written_alteredOrder, haltered, written_indexedOrder, hindexed⟩

end DumpRouter
