import DumpRouter.Proofs.Statement.RunOn

/-!
# DumpRouter.Proofs.Statement.Expressions

What an expression takes of a text that is written for it. The first of its ways to match is the
one that counts, as long as what follows matches behind it.

* `Prefers`: the text that an expression prefers to leave, from part to part of the expression.
* `name?_of_prefers`: a word behind what is preferred is the name.
* `prefers_keywords`: the words of a phrase are taken with the blanks behind them.
* `keyword_eq_nil`: a word is not found where another text stands in front of a break.
-/

namespace DumpRouter
namespace Fallback

open Text.Utf8 (TextUnit units)
open Expression

/-- The unit of a byte that is an ASCII character. -/
def asciiUnit (b : UInt8) : TextUnit := .char (Char.ofNat b.toNat)

def isDot (u : TextUnit) : Bool := u.is (· == '.')

section Ascii

/-! The classes of characters, byte by byte. -/

variable {b : UInt8} {c : Char}

/-- What holds of the ASCII characters is settled one by one. -/
theorem of_forall_ascii {P : UInt8 → Prop} (h : ∀ k < 128, P (UInt8.ofNat k)) (hb : b < 0x80) :
    P b := by
  have hk := h b.toNat (UInt8.lt_iff_toNat_lt.1 hb)
  rwa [UInt8.ofNat_toNat] at hk

/-- Line tabs and form feeds are white space here, but no blanks between words. -/
theorem classes_ascii (hb : b < 0x80) :
    word (asciiUnit b) = isWordByte b ∧ quote (asciiUnit b) = TableName.isQuote b ∧
      isDot (asciiUnit b) = (b == TableName.dot) ∧
      blank (asciiUnit b) = (Bytes.isBlank b || b == 11 || b == 12) ∧
      (Char.ofNat b.toNat).toNat = b.toNat ∧
      (Char.ofNat b.toNat).toUpper = Char.ofNat (Bytes.upper b).toNat ∧ Bytes.upper b < 0x80 ∧
      Char.ofNat b.toNat ≠ '\u017F' ∧ Char.ofNat b.toNat ≠ '\u212A' :=
  of_forall_ascii (P := fun b => word (asciiUnit b) = isWordByte b ∧
    quote (asciiUnit b) = TableName.isQuote b ∧ isDot (asciiUnit b) = (b == TableName.dot) ∧
    blank (asciiUnit b) = (Bytes.isBlank b || b == 11 || b == 12) ∧
    (Char.ofNat b.toNat).toNat = b.toNat ∧
    (Char.ofNat b.toNat).toUpper = Char.ofNat (Bytes.upper b).toNat ∧ Bytes.upper b < 0x80 ∧
    Char.ofNat b.toNat ≠ '\u017F' ∧ Char.ofNat b.toNat ≠ '\u212A') (by decide +kernel) hb

theorem word_ascii (hb : b < 0x80) : word (asciiUnit b) = isWordByte b := (classes_ascii hb).1

theorem quote_ascii (hb : b < 0x80) : quote (asciiUnit b) = TableName.isQuote b :=
  (classes_ascii hb).2.1

theorem isDot_ascii (hb : b < 0x80) : isDot (asciiUnit b) = (b == TableName.dot) :=
  (classes_ascii hb).2.2.1

theorem blank_ascii (hb : b < 0x80) :
    blank (asciiUnit b) = (Bytes.isBlank b || b == 11 || b == 12) :=
  (classes_ascii hb).2.2.2.1

theorem ofNat_eq_iff (hb : b < 0x80) : Char.ofNat b.toNat = c ↔ b.toNat = c.toNat := by
  constructor
  · rintro rfl
    exact (classes_ascii hb).2.2.2.2.1.symm
  · intro h
    rw [h, Char.ofNat_toNat]

/-- Of the ASCII characters an upper case letter stands for itself and its lower case. -/
theorem sameLetter_ascii (hc : c.isUpper = true) (hb : b < 0x80) :
    sameLetter c (asciiUnit b) = true ↔ Bytes.upper b = c.toNat.toUInt8 := by
  obtain ⟨-, -, -, -, -, hupper, hlow, hlong, hkelvin⟩ := classes_ascii hb
  have hhigh : c.toNat ≤ 90 := UInt32.le_iff_toNat_le.1 (of_decide_eq_true hc).2
  have hbyte : c.toNat.toUInt8.toNat = c.toNat := Nat.mod_eq_of_lt (by omega)
  have hletter : sameLetter c (asciiUnit b) = ((Char.ofNat b.toNat).toUpper == c ||
    (c == 'S' && Char.ofNat b.toNat == '\u017F') ||
    (c == 'K' && Char.ofNat b.toNat == '\u212A')) := rfl
  rw [hletter, beq_false_of_ne hlong, beq_false_of_ne hkelvin, Bool.and_false, Bool.and_false,
    Bool.or_false, Bool.or_false, beq_iff_eq, hupper, ofNat_eq_iff hlow, ← UInt8.toNat_inj, hbyte]

end Ascii

/-- The expression matches, and the first of the ways to match leaves `t`. -/
def Prefers (e : Expression) (s t : List TextUnit) : Prop := (e s).head? = Option.some t

section Prefers

variable {e f : Expression} {p : TextUnit → Bool} {s t l w : List TextUnit} {u : TextUnit}

theorem Prefers.andThen (h : Prefers e s t) (h' : Prefers f t l) : Prefers (e.andThen f) s l := by
  obtain ⟨v, hv⟩ := List.head?_eq_some_iff.1 h
  obtain ⟨v', hv'⟩ := List.head?_eq_some_iff.1 h'
  rw [Prefers, Expression.andThen, hv, List.flatMap_cons, hv']
  rfl

theorem Prefers.optional (h : Prefers e s t) : Prefers (optional e) s t := by
  obtain ⟨v, hv⟩ := List.head?_eq_some_iff.1 h
  rw [Prefers, Expression.optional, hv]
  rfl

/-- What may be left out is left out where it does not match. -/
theorem prefers_without (h : e s = []) : Prefers (Expression.optional e) s s := by
  rw [Prefers, Expression.optional, h]
  rfl

theorem prefers_one (hu : p u = true) (s : List TextUnit) : Prefers (one p) (u :: s) s := by
  rw [Prefers, one, if_pos hu]
  rfl

theorem one_eq_nil (h : ∀ u ∈ s.head?, p u = false) : one p s = [] := by
  cases s with
  | nil => rfl
  | cons u s =>
    have hu := h u rfl
    rw [one, hu]
    rfl

/-- As many units as there are of the class. -/
theorem prefers_many (hl : ∀ u ∈ l, p u = true) (ht : ∀ u ∈ t.head?, p u = false) :
    Prefers (many p) (l ++ t) t := by
  have key : ∀ acc, (manyOnto acc p (l ++ t)).head? = Option.some t := by
    induction l with
    | nil =>
      intro acc
      cases t with
      | nil => rfl
      | cons u t =>
        have hu := ht u rfl
        rw [List.nil_append, manyOnto, hu]
        rfl
    | cons u l ih =>
      intro acc
      rw [List.cons_append, manyOnto, if_pos (hl u (by simp))]
      exact ih (fun v hv => hl v (by simp [hv])) _
  exact key []

theorem prefers_some (hl : ∀ u ∈ l, p u = true) (hne : l ≠ []) (ht : ∀ u ∈ t.head?, p u = false) :
    Prefers (Expression.some p) (l ++ t) t := by
  obtain ⟨u, v, rfl⟩ := List.exists_cons_of_ne_nil hne
  exact (prefers_one (hl u (by simp)) (v ++ t)).andThen
    (prefers_many (fun w hw => hl w (by simp [hw])) ht)

/-- A word behind what is preferred is the name, with or without a quote in front of it. -/
theorem name?_of_prefers (h : Prefers e s t)
    (ht : Prefers (Expression.optional (one quote)) t (w ++ l)) (hw : ∀ u ∈ w, word u = true)
    (hne : w ≠ []) (hl : ∀ u ∈ l.head?, word u = false) : name? e s = Option.some w := by
  obtain ⟨v, hv⟩ := List.head?_eq_some_iff.1 (h.andThen ht)
  have htake : (w ++ l).takeWhile word = w := by
    rw [List.takeWhile_append_of_pos hw]
    cases l with
    | nil => simp
    | cons u l =>
      have hu := hl u rfl
      simp [hu]
  obtain ⟨u, w, rfl⟩ := List.exists_cons_of_ne_nil hne
  rw [name?, hv, List.findSome?_cons, htake]

end Prefers

section Words

variable {cs : List Char} {a g r : Bytes} {s t : List TextUnit}

theorem ascii_of_isBlank {b : UInt8} (h : Bytes.isBlank b = true) : b < 0x80 := by
  simp only [Bytes.isBlank, Bool.or_eq_true, beq_iff_eq] at h
  rcases h with ((rfl | rfl) | rfl) | rfl <;> decide

theorem upper_of_isUpper {c : Char} (h : c.isUpper = true) :
    Bytes.upper c.toNat.toUInt8 = c.toNat.toUInt8 := by
  have hhigh : c.toNat ≤ 90 := UInt32.le_iff_toNat_le.1 (of_decide_eq_true h).2
  have hbyte : c.toNat.toUInt8.toNat = c.toNat := Nat.mod_eq_of_lt (by omega)
  have hnot : ¬ (97 : UInt8) ≤ c.toNat.toUInt8 := by
    rw [UInt8.le_iff_toNat_le, hbyte]
    exact Nat.not_le_of_lt (Nat.lt_of_le_of_lt hhigh (by decide))
  simp [Bytes.upper, hnot]

theorem Begins.head (h : Begins false s) : ∀ u ∈ s.head?, blank u = false := by
  obtain ⟨u, v, rfl, hu⟩ := h
  rintro _ ⟨rfl⟩
  exact hu

theorem prefers_letters (hup : cs.all Char.isUpper = true) (ha : ∀ b ∈ a, b < 0x80)
    (h : Spells (Bytes.ascii cs) a) (s : List TextUnit) :
    Prefers (letters cs) (a.map asciiUnit ++ s) s := by
  induction cs generalizing a with
  | nil =>
    obtain rfl := List.length_eq_zero_iff.1 h.length_eq
    rfl
  | cons c cs ih =>
    cases a with
    | nil => cases h
    | cons b a =>
      obtain ⟨hb, h⟩ := List.cons.inj h
      rw [List.all_cons, Bool.and_eq_true] at hup
      obtain ⟨hc, hup⟩ := hup
      rw [upper_of_isUpper hc] at hb
      have hsame := (sameLetter_ascii hc (ha b (by simp))).2 hb
      exact (prefers_one hsame _).andThen (ih hup (fun b hb => ha b (by simp [hb])) h)

theorem prefers_keyword (hup : cs.all Char.isUpper = true) (ha : IsWord a)
    (h : Spells (Bytes.ascii cs) a) (hg : Gap g) (hr : Begins false (units r)) :
    Prefers (keyword cs) (units (a ++ (g ++ r))) (units r) := by
  have hascii : ∀ b ∈ a, b < 0x80 := fun b hb =>
    (range_of_isWordByte (isWordByte_of_isLetter (ha.letters b hb))).2
  have hgap : ∀ b ∈ g, b < 0x80 := fun b hb => ascii_of_isBlank (hg.blank b hb)
  have hblank : ∀ u ∈ g.map asciiUnit, blank u = true := by
    intro u hu
    obtain ⟨b, hb, rfl⟩ := List.mem_map.1 hu
    rw [blank_ascii (hgap b hb), hg.blank b hb]
    rfl
  have hne : g.map asciiUnit ≠ [] := by simpa using hg.ne_nil
  rw [Text.units_ascii_append hascii, Text.units_ascii_append hgap]
  exact (prefers_letters hup hascii h _).andThen (prefers_some hblank hne hr.head)

theorem prefers_keywords (ws : List (List Char)) {x : Bytes}
    (hword : ∀ w ∈ ws, IsWord (Bytes.ascii w)) (hup : ∀ w ∈ ws, w.all Char.isUpper = true)
    (hx : Parted (ws.map Bytes.ascii) x) (hg : Gap g) (hr : Begins false (units r)) :
    Prefers (keywords ws) (units (x ++ (g ++ r))) (units r) := by
  induction ws generalizing x with
  | nil => cases hx
  | cons w ws ih =>
    cases hx with | @words _ a y _ ha hy =>
    have hupw := hup w (by simp)
    have hworda := ha.isWord (hword w (by simp))
    rw [List.append_assoc]
    cases ws with
    | nil =>
      cases hy
      exact (prefers_keyword hupw hworda ha hg hr).andThen rfl
    | cons w' ws =>
      cases hy with | @cons g' _ a' z _ hg' ha' hz =>
      have hworda' := ha'.isWord (hword w' (by simp))
      have hnext := begins_word hworda' (z ++ (g ++ r))
      have hrest := ih (fun w hw => hword w (by simp [hw])) (fun w hw => hup w (by simp [hw]))
        (.words ha' hz)
      have hfirst := prefers_keyword hupw hworda ha hg' hnext
      simp only [List.append_assoc] at hrest ⊢
      exact hfirst.andThen hrest

/-- White space and dots, which end a name's first part. -/
def isBreak (u : TextUnit) : Bool := blank u || isDot u

theorem not_isBreak_of_sameLetter {c : Char} (hc : c.isUpper = true) {u : TextUnit}
    (h : sameLetter c u = true) : isBreak u = false := by
  rw [isBreak, not_blank_of_sameLetter hc h, Bool.false_or, Bool.eq_false_iff]
  intro hdot
  cases u with
  | stray => cases hdot
  | broken => cases hdot
  | char d =>
    obtain rfl : d = '.' := eq_of_beq hdot
    have hbyte := (sameLetter_ascii (b := TableName.dot) hc (by decide)).1 h
    have hlow : 65 ≤ c.toNat := UInt32.le_iff_toNat_le.1 (of_decide_eq_true hc).1
    have hhigh : c.toNat ≤ 90 := UInt32.le_iff_toNat_le.1 (of_decide_eq_true hc).2
    have hnat : 46 = c.toNat % 256 := congrArg UInt8.toNat hbyte
    omega

/-- Between the start of a text and its first break, an expression for a word matches that word. -/
theorem spells_of_mem_letters (hup : cs.all Char.isUpper = true) (ha : ∀ b ∈ a, b < 0x80)
    (hbreak : ∀ b ∈ a, isBreak (asciiUnit b) = false) {u v : TextUnit} (hu : isBreak u = true)
    (hv : isBreak v = true) (h : v :: t ∈ letters cs (a.map asciiUnit ++ u :: s)) :
    Spells (Bytes.ascii cs) a := by
  induction cs generalizing a with
  | nil =>
    cases a with
    | nil => rfl
    | cons b a =>
      obtain ⟨rfl, -⟩ := List.cons.inj (List.mem_singleton.1 h)
      rw [hbreak b (by simp)] at hv
      cases hv
  | cons c cs ih =>
    rw [List.all_cons, Bool.and_eq_true] at hup
    obtain ⟨hc, hup⟩ := hup
    obtain ⟨y, hy, hrest⟩ := List.mem_flatMap.1 h
    obtain ⟨w, hw, he⟩ := of_mem_one hy
    cases a with
    | nil =>
      obtain ⟨rfl, rfl⟩ := List.cons.inj he
      rw [not_isBreak_of_sameLetter hc hw] at hu
      cases hu
    | cons b a =>
      obtain ⟨rfl, rfl⟩ := List.cons.inj he
      have hb := (sameLetter_ascii hc (ha b (by simp))).1 hw
      have hspells := ih hup (fun b hb => ha b (by simp [hb]))
        (fun b hb => hbreak b (by simp [hb])) hrest
      exact List.cons_eq_cons.2 ⟨hb.trans (upper_of_isUpper hc).symm, hspells⟩

/-- A word is not found where another text stands in front of a break. -/
theorem keyword_eq_nil (hup : cs.all Char.isUpper = true) (ha : ∀ b ∈ a, b < 0x80)
    (hbreak : ∀ b ∈ a, isBreak (asciiUnit b) = false) (h : ¬ Spells (Bytes.ascii cs) a)
    {u : TextUnit} (hu : isBreak u = true) (s : List TextUnit) :
    keyword cs (a.map asciiUnit ++ u :: s) = [] := by
  refine List.eq_nil_iff_forall_not_mem.2 fun t ht => ?_
  obtain ⟨v, hv, ht⟩ := List.mem_flatMap.1 ht
  obtain ⟨w, l, hw, rfl⟩ := of_mem_some ht
  have hbreakw : isBreak w = true := by
    rw [isBreak, hw w (by simp)]
    rfl
  exact h (spells_of_mem_letters hup ha hbreak hu hbreakw hv)

theorem keywords_eq_nil {ws : List (List Char)} (h : keyword cs s = []) :
    keywords (cs :: ws) s = [] := by
  rw [keywords, Expression.andThen, h]
  rfl

end Words

end Fallback
end DumpRouter
