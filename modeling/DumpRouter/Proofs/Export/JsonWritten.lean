import DumpRouter.Export.Json
import DumpRouter.Proofs.Export.JsonText
import Mathlib.Tactic.SplitIfs

/-!
# DumpRouter.Proofs.Export.JsonWritten

What an export writes is JSON, whatever the tables are called.

* `reads_quoted`, `reads_number`: strings and counters.
* `indented_eq`: to move the lines of a text is to put two spaces behind its line feeds, as long as
  there is no carriage return in it.
* `printable`: there are no control characters in what is written for a member, so that its line
  feeds are those between the members.
* `record_eq`, `reads_recordText`: the object of a table, on one line or on several.
* `parse_document`: the text of an export is read as an array of objects.
-/

namespace DumpRouter
namespace Json

/-! ## Strings -/

theorem hexDigit?_digitChar : ∀ d < 16, hexDigit? (Nat.digitChar d) = some d := by decide

theorem hex4_eq : ∀ n < 0x20, JsonExport.hex4 n =
    [Nat.digitChar 0, Nat.digitChar 0, Nat.digitChar (n / 16), Nat.digitChar (n % 16)] := by
  decide

theorem codeUnit_hex4 {n : Nat} (hn : n < 0x20) (s : List Char) :
    codeUnit (JsonExport.hex4 n ++ s) = some (n, s) := by
  have hzero := hexDigit?_digitChar 0 (by decide)
  have hhigh := hexDigit?_digitChar (n / 16) (by omega)
  have hlow := hexDigit?_digitChar (n % 16) (by omega)
  have hvalue : n / 16 * 16 + n % 16 = n := Nat.div_add_mod' n 16
  simp [hex4_eq n hn, codeUnit, hzero, hhigh, hlow, hvalue]

/-- A character is read back from its written form, which does not begin with a quote. -/
theorem character_escaped (c : Char) (s : List Char) :
    (JsonExport.escaped c ++ s).head? ≠ some '"' ∧
      character (JsonExport.escaped c ++ s) = some (c, s) := by
  unfold JsonExport.escaped
  split_ifs with hquote hback hnewline hreturn htab hb hf hlow
  · subst hquote; exact ⟨by simp, rfl⟩
  · subst hback; exact ⟨by simp, rfl⟩
  · subst hnewline; exact ⟨by simp, rfl⟩
  · subst hreturn; exact ⟨by simp, rfl⟩
  · subst htab; exact ⟨by simp, rfl⟩
  · subst hb; exact ⟨by simp, rfl⟩
  · subst hf; exact ⟨by simp, rfl⟩
  · refine ⟨by simp, ?_⟩
    have hshort : c.toNat < 0xD800 ∨ 0xDFFF < c.toNat := by omega
    simp [character, unicode, codeUnit_hex4 hlow, hshort, Char.ofNat_toNat]
  · exact ⟨by simpa using hquote, by simp [character, hback, hlow]⟩

theorem characters_escaped (cs s : List Char) {n : Nat} (hn : cs.length < n) :
    characters n (cs.flatMap JsonExport.escaped ++ '"' :: s) = some (cs, s) := by
  induction cs generalizing n with
  | nil =>
    obtain ⟨n, rfl⟩ := Nat.exists_eq_succ_of_ne_zero (Nat.ne_of_gt hn)
    rfl
  | cons c cs ih =>
    obtain ⟨n, rfl⟩ := Nat.exists_eq_succ_of_ne_zero (Nat.ne_of_gt (Nat.zero_lt_of_lt hn))
    have hrest := ih (n := n) (by simpa using hn)
    obtain ⟨hhead, hread⟩ :=
      character_escaped c (cs.flatMap JsonExport.escaped ++ '"' :: s)
    rw [List.flatMap_cons, List.append_assoc, characters, if_neg hhead, hread]
    simp [hrest]

theorem length_le_escaped (cs : List Char) :
    cs.length ≤ (cs.flatMap JsonExport.escaped).length := by
  induction cs with
  | nil => exact Nat.zero_le _
  | cons c cs ih =>
    have hpos : 0 < (JsonExport.escaped c).length := by
      unfold JsonExport.escaped
      split_ifs <;> simp
    rw [List.flatMap_cons, List.length_append, List.length_cons]
    omega

theorem reads_text (cs : List Char) : Reads text (JsonExport.quoted cs) (String.ofList cs) := by
  refine ⟨⟨'"', _, rfl, rfl, by decide, by decide⟩, fun s _ => ?_⟩
  have hlength := length_le_escaped cs
  have hquoted : JsonExport.quoted cs ++ s =
      '"' :: (cs.flatMap JsonExport.escaped ++ '"' :: s) := by
    simp [JsonExport.quoted]
  rw [hquoted, text, List.head?_cons, if_pos rfl, List.tail_cons,
    characters_escaped cs s (by rw [List.length_cons, List.length_append]; omega)]
  rfl

theorem reads_quoted (n : Nat) (cs : List Char) :
    Reads (value (n + 1)) (JsonExport.quoted cs) (.string (String.ofList cs)) := by
  refine ⟨⟨'"', _, rfl, rfl, by decide, by decide⟩, fun s hs => ?_⟩
  have htext := (reads_text cs).reads s hs
  rw [JsonExport.quoted, List.cons_append, List.cons_append] at htext ⊢
  rw [value, if_neg (by decide), if_neg (by decide), if_pos rfl, htext]
  rfl

/-! ## Counters -/

theorem head?_toDigits {n : Nat} (hn : 0 < n) : (Nat.toDigits 10 n).head? ≠ some '0' := by
  induction n using Nat.strongRecOn with
  | _ n ih =>
    by_cases hsmall : n < 10
    · have hdigit : ∀ d < 10, 0 < d → Nat.digitChar d ≠ '0' := by decide
      rw [Nat.toDigits_of_lt_base hsmall, List.head?_singleton]
      exact fun h => hdigit n hsmall hn (Option.some.inj h)
    · rw [Nat.toDigits_of_base_le (by decide) (Nat.not_lt.1 hsmall),
        List.head?_append_of_ne_nil _ Nat.toDigits_ne_nil]
      exact ih (n / 10) (by omega) (by omega)

theorem digits_toDigits (n : Nat) {s : List Char} (hs : Stops s) :
    digits (Nat.toDigits 10 n ++ s) = (Nat.toDigits 10 n, s) := by
  have hall : ∀ c ∈ Nat.toDigits 10 n, c.isDigit = true := fun c hc =>
    Nat.isDigit_of_mem_toDigits (by decide) (by decide) hc
  have hnone : s.takeWhile Char.isDigit = [] ∧ s.dropWhile Char.isDigit = s := by
    cases s with
    | nil => exact ⟨rfl, rfl⟩
    | cons c s =>
      have hc := (hs c rfl).1
      exact ⟨List.takeWhile_cons_of_neg (by simp [hc]), List.dropWhile_cons_of_neg (by simp [hc])⟩
  unfold digits
  rw [List.takeWhile_append_of_pos hall, List.dropWhile_append_of_pos hall, hnone.1, hnone.2,
    List.append_nil]

theorem whole_toDigits (n : Nat) {s : List Char} (hs : Stops s) :
    whole (Nat.toDigits 10 n ++ s) = some (Nat.toDigits 10 n, s) := by
  have hzero : ¬ ((Nat.toDigits 10 n).head? = some '0' ∧ (Nat.toDigits 10 n).length ≠ 1) := by
    rintro ⟨hhead, hlength⟩
    rcases Nat.eq_zero_or_pos n with rfl | hn
    · exact hlength rfl
    · exact head?_toDigits hn hhead
  unfold whole
  rw [digits_toDigits n hs]
  dsimp only
  rw [if_neg (not_or.2 ⟨Nat.toDigits_ne_nil, hzero⟩)]

theorem begins_toDigits (n : Nat) :
    ∃ c t, Nat.toDigits 10 n = c :: t ∧ ∀ d : Char, d.isDigit = false → c ≠ d := by
  obtain ⟨c, t, h⟩ := List.exists_cons_of_ne_nil (Nat.toDigits_ne_nil (n := n) (b := 10))
  refine ⟨c, t, h, ?_⟩
  rintro d hd rfl
  have hc : c.isDigit = true :=
    Nat.isDigit_of_mem_toDigits (b := 10) (n := n) (by decide) (by decide) (by simp [h])
  exact absurd hc (by simp [hd])

theorem numeral_toDigits (n : Nat) {s : List Char} (hs : Stops s) :
    numeral (Nat.toDigits 10 n ++ s) = some (.number n 0, s) := by
  have hsign : sign (Nat.toDigits 10 n ++ s) = (1, Nat.toDigits 10 n ++ s) := by
    obtain ⟨c, t, h, hne⟩ := begins_toDigits n
    unfold sign
    rw [h, List.cons_append, List.head?_cons, if_neg]
    exact fun hc => hne '-' rfl (Option.some.inj hc)
  have hfraction : fraction s = some ([], s) := if_neg fun h => (hs _ h).2.1 rfl
  have hexponent : exponent s = some (0, s) := by
    refine if_neg ?_
    rintro (h | h)
    · exact (hs _ h).2.2.1 rfl
    · exact (hs _ h).2.2.2 rfl
  unfold numeral
  rw [hsign]
  simp [whole_toDigits n hs, hfraction, hexponent, Nat.ofDigitChars_ten_toDigits]

theorem reads_number (n : Nat) (k : UInt64) :
    Reads (value (n + 1)) (JsonExport.number k) (.number k.toNat 0) := by
  have hwritten : JsonExport.number k = Nat.toDigits 10 k.toNat := Nat.toList_repr
  rw [hwritten]
  obtain ⟨c, t, h, hne⟩ := begins_toDigits k.toNat
  refine ⟨⟨c, t, h, ?_, hne _ rfl, hne _ rfl⟩, fun s hs => ?_⟩
  · simp [isBlank, hne ' ' rfl, hne '\t' rfl, hne '\n' rfl, hne '\r' rfl]
  · have hnumeral := numeral_toDigits k.toNat hs
    have hconstant : constant (c :: (t ++ s)) = none := by
      simp [constant, constants, (hne 'n' rfl).symm, (hne 't' rfl).symm, (hne 'f' rfl).symm]
    rw [h, List.cons_append] at hnumeral ⊢
    rw [value, if_neg (hne _ rfl), if_neg (hne _ rfl), if_neg (hne _ rfl), hconstant, hnumeral]
    rfl

/-! ## Lines that are moved -/

/-- The characters of a text, with two spaces behind each line feed. -/
def moved (s : List Char) : List Char :=
  s.flatMap fun c => if c = '\n' then ['\n', ' ', ' '] else [c]

theorem moved_append (s t : List Char) : moved (s ++ t) = moved s ++ moved t :=
  List.flatMap_append

theorem moved_newline (s : List Char) : moved ('\n' :: s) = '\n' :: ' ' :: ' ' :: moved s := rfl

theorem moved_cons {c : Char} (hc : c ≠ '\n') (s : List Char) : moved (c :: s) = c :: moved s := by
  simp [moved, hc]

theorem moved_eq_self {s : List Char} (h : '\n' ∉ s) : moved s = s := by
  induction s with
  | nil => rfl
  | cons c s ih =>
    rw [List.mem_cons, not_or] at h
    rw [moved_cons (Ne.symm h.1), ih h.2]

theorem linesOnto_ne_nil {line s : List Char} (h : line ≠ [] ∨ s ≠ []) :
    JsonExport.linesOnto line s ≠ [] := by
  induction s generalizing line with
  | nil =>
    have hline : line ≠ [] := by simpa using h
    simp [JsonExport.linesOnto, hline]
  | cons c s ih =>
    rw [JsonExport.linesOnto]
    by_cases hc : c = '\n'
    · simp [hc]
    · rw [if_neg hc]
      exact ih (.inl (by simp))

/-- As long as no line ends with a carriage return, and the last one is not empty. -/
theorem linesOnto_moved {line s : List Char} (hline : '\r' ∉ line) (hs : '\r' ∉ s)
    (hne : line ≠ [] ∨ s ≠ []) (hlast : s.getLast? ≠ some '\n') :
    ['\n'].intercalate ((JsonExport.linesOnto line s).map fun l => ' ' :: ' ' :: l) =
      ' ' :: ' ' :: (line.reverse ++ moved s) := by
  -- on the text that is left; what has been read of the line is carried along
  induction s generalizing line with
  | nil =>
    have hline : line ≠ [] := by simpa using hne
    rw [JsonExport.linesOnto, if_neg hline, List.map_singleton, List.intercalate_singleton]
    simp [moved]
  | cons c s ih =>
    rw [List.mem_cons, not_or] at hs
    rw [JsonExport.linesOnto]
    by_cases hc : c = '\n'
    · subst hc
      have hrest : s ≠ [] := by
        rintro rfl
        exact hlast rfl
      have hkept : ¬ line.head? = some '\r' := fun h => hline (List.mem_of_head? h)
      rw [List.getLast?_cons_of_ne_nil hrest] at hlast
      have hmoved := ih List.not_mem_nil hs.2 (.inr hrest) hlast
      have hlines : JsonExport.linesOnto [] s ≠ [] := linesOnto_ne_nil (.inr hrest)
      obtain ⟨l, ls, hls⟩ := List.exists_cons_of_ne_nil hlines
      rw [hls, List.map_cons] at hmoved
      rw [if_pos rfl, if_neg hkept, hls, List.map_cons, List.map_cons,
        List.intercalate_cons_cons, hmoved, moved_newline]
      simp
    · have hcons : '\r' ∉ c :: line := by simp [hs.1, hline]
      have hlast' : s.getLast? ≠ some '\n' := by
        cases s with
        | nil => simp
        | cons d s => rwa [List.getLast?_cons_cons] at hlast
      have hmoved := ih hcons hs.2 (.inl (by simp)) hlast'
      rw [if_neg hc, hmoved, moved_cons hc]
      simp

theorem indented_eq {s : List Char} (hs : '\r' ∉ s) (hne : s ≠ [])
    (hlast : s.getLast? ≠ some '\n') : JsonExport.indented s = ' ' :: ' ' :: moved s :=
  linesOnto_moved (by simp) hs (.inr hne) hlast

theorem moved_intercalate (sep : List Char) (ws : List (List Char)) :
    moved (sep.intercalate ws) = (moved sep).intercalate (ws.map moved) := by
  cases ws with
  | nil => rfl
  | cons w ws =>
    have hrest : moved (ws.flatMap (sep ++ ·)) = ws.flatMap fun v => moved sep ++ moved v := by
      unfold moved
      rw [List.flatMap_assoc]
      simp
    rw [List.map_cons, intercalate_cons, intercalate_cons, moved_append, hrest, List.flatMap_map]

/-- Blanks behind each comma are blanks in front of each item, but for the first one. -/
theorem lead_intercalate (lead : List Char) {ws : List (List Char)} (hne : ws ≠ []) :
    lead ++ (',' :: lead).intercalate ws = [','].intercalate (ws.map (lead ++ ·)) := by
  obtain ⟨w, ws, rfl⟩ := List.exists_cons_of_ne_nil hne
  rw [List.map_cons, intercalate_cons, intercalate_cons, List.flatMap_map]
  simp

theorem not_mem_intercalate {c : Char} {sep : List Char} {ws : List (List Char)} (hsep : c ∉ sep)
    (hws : ∀ w ∈ ws, c ∉ w) : c ∉ sep.intercalate ws := by
  cases ws with
  | nil => simp
  | cons w ws =>
    rw [intercalate_cons, List.mem_append, List.mem_flatMap]
    rintro (hc | ⟨v, hv, hc⟩)
    · exact hws w (by simp) hc
    · rcases List.mem_append.1 hc with hc | hc
      · exact hsep hc
      · exact hws v (by simp [hv]) hc

/-! ## The object of a table -/

/-- Whether there are no control characters in the text. -/
def printable (s : List Char) : Bool := s.all fun c => decide (0x20 ≤ c.toNat)

theorem printable_append (s t : List Char) :
    printable (s ++ t) = (printable s && printable t) := List.all_append

theorem not_mem_of_printable {s : List Char} (h : printable s = true) {c : Char}
    (hc : c.toNat < 0x20) : c ∉ s := by
  intro hmem
  have hle := of_decide_eq_true (List.all_eq_true.1 h c hmem)
  omega

theorem printable_hex4 : ∀ n < 0x20, printable (JsonExport.hex4 n) = true := by decide

theorem printable_escaped (c : Char) : printable (JsonExport.escaped c) = true := by
  unfold JsonExport.escaped
  split_ifs with hquote hback hnewline hreturn htab hb hf hlow
  · rfl
  · rfl
  · rfl
  · rfl
  · rfl
  · rfl
  · rfl
  · exact printable_hex4 c.toNat hlow
  · simpa [printable] using hlow

theorem printable_quoted (cs : List Char) : printable (JsonExport.quoted cs) = true := by
  have hall : printable (cs.flatMap JsonExport.escaped) = true := by
    induction cs with
    | nil => rfl
    | cons c cs ih => rw [List.flatMap_cons, printable_append, printable_escaped, ih, Bool.and_self]
  have hquoted : JsonExport.quoted cs = ['"'] ++ (cs.flatMap JsonExport.escaped ++ ['"']) := rfl
  rw [hquoted, printable_append, printable_append, hall]
  rfl

theorem printable_number (k : UInt64) : printable (JsonExport.number k) = true := by
  refine List.all_eq_true.2 fun c hc => decide_eq_true ?_
  rw [JsonExport.number, Nat.toList_repr] at hc
  have hdigit : c.isDigit = true := Nat.isDigit_of_mem_toDigits (by decide) (by decide) hc
  simp only [Char.isDigit, Bool.and_eq_true, decide_eq_true_eq] at hdigit
  exact Nat.le_trans (by decide) (UInt32.le_iff_toNat_le.1 hdigit.1)

/-- The value of a table: its name and its counters. -/
def fields (t : TableStats) : List (String × Json) := [
  ("table_name", .string t.name), ("insert_count", .number t.inserts.toNat 0),
  ("create_count", .number t.creates.toNat 0), ("statement_count", .number t.statements.toNat 0),
  ("total_bytes", .number t.bytes.toNat 0)]

/-- The members as they are written, with the blanks `b` behind each colon. -/
def memberTexts (b : List Char) (t : TableStats) : List (List Char) :=
  (JsonExport.members t).map fun (k, v) => JsonExport.quoted k ++ ':' :: (b ++ v)

theorem memberTexts_ne_nil (b : List Char) (t : TableStats) : memberTexts b t ≠ [] := by
  simp [memberTexts, JsonExport.members]

theorem reads_members (n : Nat) {b : List Char} (hb : b.all isBlank = true) (t : TableStats) :
    List.Forall₂ (Reads (member (value (n + 1)))) (memberTexts b t) (fields t) := by
  have hname : ∀ name : String, Reads text (JsonExport.quoted name.toList) name := fun name => by
    simpa using reads_text name.toList
  have hstring : ∀ s : String, Reads (value (n + 1)) (JsonExport.quoted s.toList) (.string s) :=
    fun s => by simpa using reads_quoted n s.toList
  have hnumber : ∀ (name : String) (k : UInt64), Reads (member (value (n + 1)))
      (JsonExport.quoted name.toList ++ ':' :: (b ++ JsonExport.number k))
      (name, .number k.toNat 0) :=
    fun name k => reads_member (hname name) (reads_number n k) hb
  exact .cons (reads_member (hname _) (hstring _) hb) (.cons (hnumber _ _)
    (.cons (hnumber _ _) (.cons (hnumber _ _) (.cons (hnumber _ _) .nil))))

theorem reads_compact (n : Nat) (t : TableStats) :
    Reads (value (n + 2)) (JsonExport.compact t) (.object (fields t)) := by
  have h : Reads (value (n + 2))
      ('\x7b' :: ([','].intercalate ((memberTexts [] t).map ([] ++ ·)) ++ ([] ++ ['\x7d'])))
      (.object (fields t)) :=
    reads_object rfl rfl (reads_members n rfl t) (memberTexts_ne_nil [] t)
  simpa [JsonExport.compact, memberTexts, JsonExport.braceOpen, JsonExport.braceClose,
    Function.comp_def] using h

theorem printable_memberTexts {b : List Char} (hb : printable b = true) (t : TableStats) :
    ∀ w ∈ memberTexts b t, printable w = true := by
  intro w hw
  obtain ⟨⟨k, v⟩, hmem, rfl⟩ := List.mem_map.1 hw
  have hv : printable v = true := by
    simp only [JsonExport.members, List.mem_cons, Prod.mk.injEq, List.not_mem_nil,
      or_false] at hmem
    rcases hmem with ⟨-, rfl⟩ | ⟨-, rfl⟩ | ⟨-, rfl⟩ | ⟨-, rfl⟩ | ⟨-, rfl⟩
    · exact printable_quoted _
    · exact printable_number _
    · exact printable_number _
    · exact printable_number _
    · exact printable_number _
  have hbehind : printable (':' :: (b ++ v)) = true := by
    rw [← List.singleton_append, printable_append, printable_append, hb, hv]
    rfl
  dsimp only
  rw [printable_append, printable_quoted, hbehind, Bool.and_self]

/-- The lines of the members when the object is spread out. -/
def memberLines (t : TableStats) : List (List Char) := (memberTexts [' '] t).map ([' ', ' '] ++ ·)

theorem spread_eq (t : TableStats) :
    JsonExport.spread t =
      '\x7b' :: '\n' :: ([',', '\n'].intercalate (memberLines t) ++ ['\n', '\x7d']) := by
  simp [JsonExport.spread, memberLines, memberTexts, JsonExport.braceOpen, JsonExport.braceClose,
    Function.comp_def]

theorem printable_memberLines (t : TableStats) : ∀ w ∈ memberLines t, printable w = true := by
  intro w hw
  obtain ⟨m, hm, rfl⟩ := List.mem_map.1 hw
  rw [printable_append, printable_memberTexts rfl t m hm]
  rfl

/-- Moving the lines of the object puts its members two levels below the array. -/
theorem moved_spread (t : TableStats) :
    moved (JsonExport.spread t) = '\x7b' :: ([','].intercalate
      ((memberTexts [' '] t).map (['\n', ' ', ' ', ' ', ' '] ++ ·)) ++
        (['\n', ' ', ' '] ++ ['\x7d'])) := by
  have hline : ∀ w ∈ memberLines t, moved w = w := fun w hw =>
    moved_eq_self (not_mem_of_printable (printable_memberLines t w hw) (by decide))
  have hlines : (memberLines t).map moved = memberLines t :=
    (List.map_congr_left hline).trans (List.map_id _)
  have hne : memberLines t ≠ [] := by simpa [memberLines] using memberTexts_ne_nil [' '] t
  have hlead := lead_intercalate ['\n', ' ', ' '] hne
  have hcomma : moved [',', '\n'] = ',' :: ['\n', ' ', ' '] := rfl
  have hend : moved ['\n', '\x7d'] = ['\n', ' ', ' ', '\x7d'] := rfl
  -- only the line feeds between the members are there to be moved
  rw [spread_eq, moved_cons (by decide), moved_newline, moved_append, moved_intercalate, hlines,
    hcomma, hend]
  simpa [memberLines, Function.comp_def] using
    congrArg (fun s => '\x7b' :: (s ++ ['\n', ' ', ' ', '\x7d'])) hlead

theorem indented_spread (t : TableStats) :
    JsonExport.indented (JsonExport.spread t) = ' ' :: ' ' :: moved (JsonExport.spread t) := by
  have hreturn : '\r' ∉ JsonExport.spread t := by
    have hmembers : '\r' ∉ [',', '\n'].intercalate (memberLines t) :=
      not_mem_intercalate (by decide) fun w hw =>
        not_mem_of_printable (printable_memberLines t w hw) (by decide)
    rw [spread_eq]
    simp [hmembers]
  have hlast : (JsonExport.spread t).getLast? ≠ some '\n' := by
    rw [spread_eq, ← List.cons_append, ← List.cons_append, List.getLast?_append]
    simp
  exact indented_eq hreturn (by simp [spread_eq]) hlast

theorem reads_moved_spread (n : Nat) (t : TableStats) :
    Reads (value (n + 2)) (moved (JsonExport.spread t)) (.object (fields t)) := by
  rw [moved_spread]
  exact reads_object rfl rfl (reads_members n rfl t)
    (memberTexts_ne_nil [' '] t)

/-- The object of a table in the array, without the blanks in front of it. -/
def recordText (pretty : Bool) (t : TableStats) : List Char :=
  if pretty then moved (JsonExport.spread t) else JsonExport.compact t

theorem record_eq (pretty : Bool) (t : TableStats) :
    JsonExport.record pretty t = (if pretty then [' ', ' '] else []) ++ recordText pretty t := by
  cases pretty with
  | false => rfl
  | true => exact indented_spread t

theorem reads_recordText (n : Nat) (pretty : Bool) (t : TableStats) :
    Reads (value (n + 2)) (recordText pretty t) (.object (fields t)) := by
  cases pretty with
  | false => exact reads_compact n t
  | true => exact reads_moved_spread n t

/-! ## The text of an export -/

/-- What an export has written before it is finished. -/
def begun (pretty : Bool) (ts : List TableStats) : List Char :=
  JsonExport.opening pretty ++
    (JsonExport.separator pretty).intercalate (ts.map (JsonExport.record pretty))

def document (pretty : Bool) (ts : List TableStats) : List Char :=
  begun pretty ts ++ JsonExport.closing pretty ts.isEmpty

theorem begun_concat (pretty : Bool) (ts : List TableStats) (t : TableStats) :
    begun pretty (ts ++ [t]) = begun pretty ts ++
      ((if ts.isEmpty then [] else JsonExport.separator pretty) ++ JsonExport.record pretty t) := by
  unfold begun
  rw [List.map_append, List.map_singleton]
  cases ts with
  | nil => simp
  | cons u ts =>
    rw [List.map_cons, List.cons_append, intercalate_cons, intercalate_cons, List.flatMap_append]
    simp

/-- The blanks in front of an object of the array, and behind the last one. -/
def lead (pretty : Bool) : List Char := if pretty then ['\n', ' ', ' '] else []

def trail (pretty : Bool) : List Char := if pretty then ['\n'] else []

theorem document_nil (pretty : Bool) :
    document pretty [] = '[' :: (trail pretty ++ [']', '\n']) := by
  cases pretty <;> rfl

/-- Seen from the reader, the blanks are all in front of the objects. -/
theorem document_cons (pretty : Bool) {ts : List TableStats} (hne : ts ≠ []) :
    document pretty ts =
      '[' :: ([','].intercalate ((ts.map (recordText pretty)).map (lead pretty ++ ·)) ++
        (trail pretty ++ ']' :: ['\n'])) := by
  have hrecord : ts.map (JsonExport.record pretty) =
      ts.map fun t => (if pretty then [' ', ' '] else []) ++ recordText pretty t :=
    List.map_congr_left fun t _ => record_eq pretty t
  have hempty : ts.isEmpty = false := by simpa using hne
  unfold document begun
  rw [hrecord, hempty]
  cases pretty with
  | false =>
    simp [JsonExport.opening, JsonExport.separator, JsonExport.closing, lead, trail,
      Function.comp_def]
  | true =>
    have hsome : (ts.map fun t => [' ', ' '] ++ recordText true t) ≠ [] := by simpa using hne
    have hlead := lead_intercalate ['\n'] hsome
    simpa [JsonExport.opening, JsonExport.separator, JsonExport.closing, lead, trail,
      Function.comp_def] using congrArg (fun s => '[' :: (s ++ ['\n', ']', '\n'])) hlead

theorem value_document (n : Nat) (pretty : Bool) (ts : List TableStats) :
    value (n + 3) (document pretty ts) =
      some (.array (ts.map fun t => .object (fields t)), ['\n']) := by
  have hlead : (lead pretty).all isBlank = true := by cases pretty <;> rfl
  have htrail : (trail pretty).all isBlank = true := by cases pretty <;> rfl
  by_cases hne : ts = []
  · subst hne
    rw [document_nil, value, if_pos rfl, sequence_nothing (.inl rfl) htrail]
    rfl
  · have hobjects : List.Forall₂ (Reads (value (n + 2))) (ts.map (recordText pretty))
        (ts.map fun t => .object (fields t)) := by
      rw [List.forall₂_map_left_iff, List.forall₂_map_right_iff, List.forall₂_same]
      exact fun t _ => reads_recordText n pretty t
    rw [document_cons pretty hne]
    exact value_array hlead htrail hobjects (by simpa using hne) ['\n']

/-- The text of an export is read as the array of its objects. -/
theorem parse_document (pretty : Bool) (ts : List TableStats) :
    parse (String.ofList (document pretty ts)) =
      some (.array (ts.map fun t => .object (fields t))) := by
  have hbegins : ∃ s, document pretty ts = '[' :: (s ++ [']', '\n']) := by
    by_cases hne : ts = []
    · exact ⟨_, hne ▸ document_nil pretty⟩
    · rw [document_cons pretty hne, ← List.append_assoc]
      exact ⟨_, rfl⟩
  obtain ⟨s, hs⟩ := hbegins
  have hlength : (document pretty ts).length = s.length + 3 := by simp [hs]
  have hskip : skip (document pretty ts) = document pretty ts := by
    rw [hs]
    exact skip_cons (by decide) _
  unfold parse
  rw [String.toList_ofList, hskip, hlength, value_document]
  rfl

end Json

end DumpRouter
