import DumpRouter.Proofs.Statement.ModifierWords
import DumpRouter.Proofs.Statement.PlainNames

/-!
# DumpRouter.Proofs.Statement.Schema

A schema in front of a table, with blanks around the dot. The expressions allow for such blanks on
either side. The reading by hand does not: a blank behind the dot makes it give up, so that the
expression answers, but with a blank in front of the dot it takes the schema for the table.

* `prefers_schema`: an expression for a schema takes it with its dot and the blanks around that.
* `table?_schema`: the expression of a kind finds the table behind the schema.
* `target_schema`: the table of a statement by the blanks around the dot.
-/

namespace DumpRouter

open Keyword (parted_of_phrase?)
open TableName
open Text.Utf8 (TextUnit units)

variable {m n : String} {s t a b g r u x : Bytes}

/-- A schema `m` and a table `n` as they are written, and the blanks in front of the dot and behind
it. The schema is not spelled like the first word of a modifier. -/
structure Dotted (m n : String) (s a b t : Bytes) : Prop where
  schema : PlainName m
  schemaWritten : Identifier s (Text.encode m)
  noModifier : ¬ Spells only s ∧ ¬ Spells ifWord s
  before : Blank a
  behind : Blank b
  table : PlainName n
  tableWritten : Identifier t (Text.encode n)

namespace Fallback

open Expression

theorem Parts.of_dot (ha : Blank a) (r : Bytes) : Parts (a ++ dot :: r) := by
  cases a with
  | nil => exact parts_cons (by decide) (by decide) (by decide) r
  | cons c a =>
    have hc := ha c (by simp)
    obtain ⟨hword, hquote⟩ := not_name_of_isBlank hc
    exact parts_cons (ascii_of_isBlank hc) hword hquote _

/-- A schema is taken with its dot and the blanks around that. -/
theorem prefers_schema (hd : Dotted m n s a b t) (u : Bytes) :
    Prefers schema (units (s ++ (a ++ dot :: (b ++ (t ++ u))))) (units (t ++ u)) := by
  obtain ⟨c, hfront, hc, hback⟩ :=
    prefers_quotes hd.schema hd.schemaWritten (Parts.of_dot hd.before (b ++ (t ++ u)))
  have hne : (Text.encode m).map asciiUnit ≠ [] := by simpa using hd.schema.encode_ne_nil
  have hdot : isDot (asciiUnit dot) = true := rfl
  have hbefore : Prefers (many blank) (units (a ++ dot :: (b ++ (t ++ u))))
      (asciiUnit dot :: units (b ++ (t ++ u))) := by
    rw [units_blanks hd.before, units_cons_ascii (by decide)]
    refine prefers_many (blank_blanks hd.before) ?_
    rintro _ ⟨rfl⟩
    rfl
  have hbehind : Prefers (many blank) (units (b ++ (t ++ u))) (units (t ++ u)) := by
    rw [units_blanks hd.behind]
    exact prefers_many (blank_blanks hd.behind) (begins_name hd.table hd.tableWritten u).head
  exact hfront.andThen <| (prefers_some (word_name hd.schema) hne hc).andThen <| hback.andThen <|
    hbefore.andThen <| (prefers_one hdot _).andThen hbehind

/-- No modifier is found in front of a schema that is not spelled like it. -/
theorem keyword_schema {cs : List Char} (hup : cs.all Char.isUpper = true)
    (hm : PlainName m) (hs : Identifier s (Text.encode m)) (hno : ¬ Spells (Bytes.ascii cs) s)
    (ha : Blank a) (r : Bytes) : keyword cs (units (s ++ (a ++ dot :: r))) = [] := by
  have hbreak := not_isBreak_written hm hs
  have hascii : ∀ c ∈ s, c < 0x80 := fun c hc => (hbreak c hc).1
  obtain ⟨v, w, he, hv⟩ : ∃ v w, units (a ++ dot :: r) = v :: w ∧ isBreak v = true := by
    cases a with
    | nil => exact ⟨_, _, units_cons_ascii (by decide) r, rfl⟩
    | cons c a =>
      have hc := ha c (by simp)
      have hcascii := ascii_of_isBlank hc
      refine ⟨_, _, units_cons_ascii hcascii (a ++ dot :: r), ?_⟩
      rw [isBreak, blank_ascii hcascii, hc]
      rfl
  rw [Text.units_ascii_append hascii, he]
  exact keyword_eq_nil hup hascii (fun c hc => (hbreak c hc).2) hno hv w

theorem prefers_lead {k : Kind} {ws : List Bytes} (hk : Direct k ws) (hx : Parted ws x) (hg : Gap g)
    (hd : Dotted m n s a b t) (u : Bytes) :
    Prefers (lead k) (units (x ++ (g ++ (s ++ (a ++ dot :: (b ++ (t ++ u)))))))
      (units (t ++ u)) := by
  have hschema := (prefers_schema hd u).optional
  have hstart := begins_name hd.schema hd.schemaWritten (a ++ dot :: (b ++ (t ++ u)))
  have honly : keyword Fallback.only (units (s ++ (a ++ dot :: (b ++ (t ++ u))))) = [] :=
    keyword_schema (by decide) hd.schema hd.schemaWritten hd.noModifier.1 hd.before _
  have hif : keyword Fallback.ifWord (units (s ++ (a ++ dot :: (b ++ (t ++ u))))) = [] :=
    keyword_schema (by decide) hd.schema hd.schemaWritten hd.noModifier.2 hd.before _
  cases hk with
  | createTable =>
    exact (prefers_keywords [create, table] (by decide) (by decide) hx hg hstart).andThen
      ((prefers_without (keywords_eq_nil hif)).andThen hschema)
  | insertInto =>
    exact (prefers_keywords [insert, into] (by decide) (by decide) hx hg hstart).andThen
      hschema
  | alterTable =>
    exact (prefers_keywords [alter, table] (by decide) (by decide) hx hg hstart).andThen
      ((prefers_without honly).andThen ((prefers_without (keywords_eq_nil hif)).andThen hschema))
  | dropTable =>
    exact (prefers_keywords [drop, table] (by decide) (by decide) hx hg hstart).andThen
      ((prefers_without (keywords_eq_nil hif)).andThen hschema)

/-- The expression of a kind finds the table behind the schema. -/
theorem table?_schema {k : Kind} {ws : List Bytes} (hk : Direct k ws) (hx : Parted ws x)
    (hg : Gap g) (hd : Dotted m n s a b t) (hu : Stop u) :
    table? k (x ++ (g ++ (s ++ (a ++ dot :: (b ++ (t ++ u)))))) = Option.some n :=
  table?_of_prefers hk hx (prefers_lead hk hx hg hd u) hd.table hd.tableWritten hu

end Fallback

theorem qualified?_of_none (h : identifier? s = none) : qualified? s = none := by
  rw [qualified?]
  split
  · rfl
  · next hs =>
    rw [h] at hs
    cases hs

theorem identifier?_blank {c : UInt8} (hc : Bytes.isBlank c = true) (r : Bytes) :
    identifier? (c :: r) = none := by
  have hquote := (Fallback.not_name_of_isBlank hc).2
  have hbare : isBare c = false := by simp [isBare, hc]
  simp [identifier?, hquote, hbare]

namespace Dotted

theorem head (hd : Dotted m n s a b t) (r : Bytes) :
    ∀ c ∈ (a ++ dot :: r).head?, isBare c = false := by
  rintro c hc
  cases a with
  | nil =>
    obtain rfl : dot = c := Option.some.inj hc
    rfl
  | cons c' a =>
    obtain rfl : c' = c := Option.some.inj hc
    simp [isBare, hd.before c' (by simp)]

/-- The schema is not taken for a modifier. -/
theorem not_led (hd : Dotted m n s a b t) (r : Bytes) :
    ¬ Led Modifiers (s ++ (a ++ dot :: r)) := by
  have hhead := hd.head r
  exact not_led_modifiers
    (standing?_identifier isWord_only hd.schemaWritten hhead fun _ _ _ => hd.noModifier.1)
    (standing?_identifier isWord_if hd.schemaWritten hhead fun _ _ _ => hd.noModifier.2)

theorem direct?_eq (hd : Dotted m n s a b t) (hg : Gap g) (r : Bytes) :
    direct? (g ++ (s ++ (a ++ dot :: r))) =
      (qualified? (s ++ (a ++ dot :: r))).map (·.1) :=
  TableName.direct?_eq hg ((Qualified.last hd.schemaWritten).skipBlank _) (hd.not_led r)

/-- With a blank in front of the dot the name that is read is the schema's. With a blank behind it
alone there is none. -/
theorem direct?_written (hd : Dotted m n s a b t) (hg : Gap g) (hu : Stop u) :
    direct? (g ++ (s ++ (a ++ dot :: (b ++ (t ++ u))))) =
      if a ≠ [] then some (Text.encode m) else if b = [] then some (Text.encode n) else none := by
  rw [hd.direct?_eq hg]
  by_cases ha : a = []
  · subst ha
    rw [if_neg (by simp), List.nil_append]
    have hdot : ∀ c ∈ (dot :: (b ++ (t ++ u))).head?, isBare c = false := by simp [isBare]
    rw [qualified?_dotted (identifier?_written hd.schemaWritten hdot)]
    by_cases hb : b = []
    · subst hb
      rw [if_pos rfl, List.nil_append, qualified?_written (.last hd.tableWritten) hu]
      rfl
    · obtain ⟨c, v, rfl⟩ := List.exists_cons_of_ne_nil hb
      have hc := hd.behind c (by simp)
      have hnone : identifier? ((c :: v) ++ (t ++ u)) = none := identifier?_blank hc _
      rw [if_neg hb, qualified?_of_none hnone]
      rfl
  · have hgap : Gap a := ⟨ha, hd.before⟩
    rw [if_pos ha, qualified?_written (.last hd.schemaWritten) (stop_gap hgap _)]
    rfl

end Dotted

/-- The expression finds the table whatever blanks stand around the dot. The statement belongs to it
unless there are some in front of the dot; then it belongs to a table called like the schema. -/
theorem target_schema {k : Kind} {ws : List Bytes} (hk : Direct k ws) (hx : Parted ws x)
    (hg : Gap g) (hd : Dotted m n s a b t) (hu : Stop u) :
    Fallback.table? k (x ++ (g ++ (s ++ (a ++ dot :: (b ++ (t ++ u)))))) = some n ∧
      (classify (x ++ (g ++ (s ++ (a ++ dot :: (b ++ (t ++ u))))))).target =
        some (k, if a = [] then n else m) := by
  have hstop := hu.trimEnd
  refine ⟨Fallback.table?_schema hk hx hg hd hu, ?_⟩
  have htarget := target_qualified (p := []) (t := u) hk.mem_all .nil hx
    (g ++ (s ++ (a ++ dot :: b))) (.last hd.tableWritten)
  simp only [List.append_assoc, List.cons_append, List.nil_append] at htarget
  rw [htarget, tableName?, hk.scan?_eq, hd.direct?_written hg hstop,
    Fallback.table?_schema hk hx hg hd hstop]
  by_cases ha : a = []
  · by_cases hb : b = []
    · simp [ha, hb, Text.decodeLossy_encode]
    · simp [ha, hb]
  · simp [ha, Text.decodeLossy_encode]

/-- A blank in front of the dot. -/
def shopOrder : Bytes := Text.encode "INSERT INTO shop .orders VALUES (1);"

theorem dotted_shopOrder : Dotted "shop" "orders" (Text.encode "shop") (Text.encode " ") []
    (Text.encode "orders") where
  schema := by decide +kernel
  schemaWritten := .bare (by decide) (List.all_eq_true.1 (by decide))
  noModifier := by decide
  before := by decide
  behind := by decide
  table := by decide +kernel
  tableWritten := .bare (by decide) (List.all_eq_true.1 (by decide))

/-- A statement need not belong to the table that its expression finds. -/
theorem not_target_of_dotted : ¬ ∀ k ws m n s a b t u, Direct k ws → Dotted m n s a b t →
    (∀ w ∈ [only, ifWord, notWord, exists_], ¬ Spells w s ∧ ¬ Spells w t) →
    (∃ c v, u = c :: v ∧ (Bytes.isBlank c = true ∨ c = 40 ∨ c = 59)) →
    (classify (Keyword.Phrase.text ⟨ws, k⟩ ++
      32 :: (s ++ (a ++ dot :: (b ++ (t ++ u)))))).target = some (k, n) := by
  intro h
  have horders := h _ _ _ _ _ _ _ _ (Text.encode " VALUES (1);") .insertInto dotted_shopOrder
    (by decide) ⟨_, _, rfl, by decide⟩
  have hshop : (classify shopOrder).target = some (.insert, "shop") := by decide +kernel
  have hsame : (classify shopOrder).target = some (.insert, "orders") :=
    (congrArg (fun s => (classify s).target) (by decide +kernel)).trans horders
  exact absurd (hshop.symm.trans hsame) (by decide)

/-- With blanks behind the dot alone the name is left to the expression. -/
theorem target_schema_orders :
    Fallback.table? .insert shopOrder = some "orders" ∧
      (classify shopOrder).target = some (.insert, "shop") ∧
      (classify (Text.encode "DROP TABLE `shop`. \"orders\";")).target =
        some (.dropTable, "orders") := by
  have hspace : Gap (Text.encode " ") := by decide
  have hinsert : Parted [Keyword.Phrase.insert, Keyword.Phrase.into] (Text.encode "INSERT INTO") :=
    parted_of_phrase? (by decide) (by decide) (by decide +kernel)
  have hdrop : Parted [Keyword.Phrase.drop, Keyword.Phrase.table] (Text.encode "DROP TABLE") :=
    parted_of_phrase? (by decide) (by decide) (by decide +kernel)
  have hquoted : Dotted "shop" "orders" (96 :: (Text.encode "shop" ++ [96])) [] (Text.encode " ")
      (34 :: (Text.encode "orders" ++ [34])) :=
    ⟨dotted_shopOrder.schema, dotted_shopOrder.schema.quoted rfl, by decide, by decide, by decide,
      dotted_shopOrder.table, dotted_shopOrder.table.quoted rfl⟩
  have hfront := target_schema (u := Text.encode " VALUES (1);") .insertInto hinsert hspace
    dotted_shopOrder (by decide)
  have hbehind := target_schema (u := Text.encode ";") .dropTable hdrop hspace hquoted (by decide)
  refine ⟨(congrArg (Fallback.table? .insert) (by decide +kernel)).trans hfront.1,
    (congrArg (fun s => (classify s).target) (by decide +kernel)).trans hfront.2,
    (congrArg (fun s => (classify s).target) (by decide +kernel)).trans hbehind.2⟩

end DumpRouter
