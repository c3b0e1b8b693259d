import DumpRouter.Proofs.Statement.Grammar

/-!
# DumpRouter.Proofs.Statement.Recognition

The ways to recognise a keyword phrase agree: by the quick look at the first bytes and, where that
fails, by the words of those phrases whose first word is there; or simply by the words of every
phrase in turn. The order of the phrases in the table counts for nothing in either.

* `quickIn?`, `slowIn?`, `recogniseIn?`, `plainIn?`: recognition by a table of phrases.
* `findSome?_perm`: what no two elements of a list answer differently is found in any order.
* `recognise?_eq_plain?`: the quick look may be left out.
* `target_plain`: the kind and the table of a statement, from its phrase as it is found word by
  word.
* `classify_anyOrder`: all of them find the one phrase that is there.
-/

namespace DumpRouter

/-- Where no two elements give different answers, the order of a list does not matter. -/
theorem findSome?_perm {α β : Type} {f : α → Option β} {l l' : List α} (h : l.Perm l')
    (hone : ∀ a ∈ l, ∀ b ∈ l, ∀ x y, f a = some x → f b = some y → x = y) :
    l.findSome? f = l'.findSome? f := by
  cases hl : l.findSome? f with
  | none =>
    rw [List.findSome?_eq_none_iff] at hl
    exact (List.findSome?_eq_none_iff.2 fun a ha => hl a (h.mem_iff.2 ha)).symm
  | some x =>
    obtain ⟨a, ha, hx⟩ := List.exists_of_findSome?_eq_some hl
    cases hl' : l'.findSome? f with
    | none =>
      rw [List.findSome?_eq_none_iff] at hl'
      rw [hl' a (h.mem_iff.1 ha)] at hx
      cases hx
    | some y =>
      obtain ⟨b, hb, hy⟩ := List.exists_of_findSome?_eq_some hl'
      rw [hone a ha b (h.mem_iff.2 hb) x y hx hy]

namespace Keyword.Phrase

/-- The quick look with the phrases of a table. -/
def quickIn? (ps : List Phrase) (s : Bytes) : Option (Kind × Bytes) :=
  (ps.find? fun p => p.text.isPrefixOf (look s)).map fun p => (p.kind, s.drop p.text.length)

/-- The words of the phrases of a table whose first word the text begins with. -/
def slowIn? (ps : List Phrase) (s : Bytes) : Option (Kind × Bytes) :=
  (ps.filter fun p => p.words.head?.any (·.isPrefixOf (look s))).findSome? fun p =>
    (phrase? p.words s).map (p.kind, ·)

def recogniseIn? (ps : List Phrase) (s : Bytes) : Option (Kind × Bytes) :=
  match quickIn? ps s with
  | some r => some r
  | none => slowIn? ps s

/-- The words of every phrase of a table in turn. -/
def plainIn? (ps : List Phrase) (s : Bytes) : Option (Kind × Bytes) :=
  ps.findSome? fun p => (phrase? p.words s).map (p.kind, ·)

theorem recogniseIn?_all (s : Bytes) : recogniseIn? all s = recognise? s := rfl

theorem plainIn?_all (s : Bytes) : plainIn? all s = plain? s := rfl

variable {ps qs : List Phrase} {r : Bytes} {k : Kind}

/-- A search that gives phrases which are there gives the same one in any order. -/
theorem findSome?_phrases {f : Phrase → Option (Kind × Bytes)} (s : Bytes) (h : ps.Perm qs)
    (hqs : ∀ p ∈ qs, p ∈ all)
    (hf : ∀ p ∈ all, ∀ x, f p = some x → p.kind = x.1 ∧ phrase? p.words s = some x.2) :
    ps.findSome? f = qs.findSome? f := by
  refine findSome?_perm h fun p hp q hq x y hx hy => ?_
  have hp := hqs p (h.mem_iff.1 hp)
  have hq := hqs q (h.mem_iff.1 hq)
  obtain ⟨hpx, hx⟩ := hf p hp x hx
  obtain ⟨hqy, hy⟩ := hf q hq y hy
  obtain ⟨rfl, hr⟩ := phrase_unique hp hq hx hy
  exact Prod.ext (hpx.symm.trans hqy) hr

theorem plainIn?_perm (hps : ps.Perm all) (s : Bytes) : plainIn? ps s = plainIn? all s := by
  refine findSome?_phrases s hps (fun _ hp => hp) fun p _ x hx => ?_
  obtain ⟨r, hr, rfl⟩ := Option.map_eq_some_iff.1 hx
  exact ⟨rfl, hr⟩

theorem slowIn?_perm (hps : ps.Perm all) (s : Bytes) : slowIn? ps s = slowIn? all s := by
  refine findSome?_phrases s (hps.filter _) (fun _ hp => (List.mem_filter.1 hp).1) ?_
  intro p _ x hx
  obtain ⟨r, hr, rfl⟩ := Option.map_eq_some_iff.1 hx
  exact ⟨rfl, hr⟩

theorem quickIn?_perm (hps : ps.Perm all) (s : Bytes) : quickIn? ps s = quickIn? all s := by
  have hsearch : ∀ l : List Phrase, quickIn? l s = l.findSome? fun p =>
      if p.text.isPrefixOf (look s) then some (p.kind, s.drop p.text.length) else none := by
    intro l
    induction l with
    | nil => rfl
    | cons p l ih =>
      rw [List.findSome?_cons, ← ih, quickIn?, List.find?_cons]
      cases p.text.isPrefixOf (look s) <;> rfl
  rw [hsearch, hsearch]
  refine findSome?_phrases s hps (fun _ hp => hp) fun p hp x hx => ?_
  split at hx
  · next hlook =>
    cases hx
    exact ⟨rfl, phrase?_of_look hp hlook⟩
  · cases hx

theorem recogniseIn?_perm (hps : ps.Perm all) (s : Bytes) :
    recogniseIn? ps s = recognise? s := by
  rw [← recogniseIn?_all, recogniseIn?, recogniseIn?, quickIn?_perm hps, slowIn?_perm hps]

theorem plain?_eq_some_iff {s : Bytes} :
    plain? s = some (k, r) ↔ ∃ p ∈ all, p.kind = k ∧ phrase? p.words s = some r := by
  refine search_eq_some_iff (fun x h => ?_) fun p hp r h => ?_
  · obtain ⟨p, hp, he⟩ := List.exists_of_findSome?_eq_some h
    obtain ⟨t, ht, rfl⟩ := Option.map_eq_some_iff.1 he
    exact ⟨p, hp, rfl, ht⟩
  · unfold plain?
    rw [List.isSome_findSome?]
    exact List.any_eq_true.2 ⟨p, hp, by simp [h]⟩

/-- The quick look may be left out. -/
theorem recognise?_eq_plain? (s : Bytes) : recognise? s = plain? s := by
  refine Option.ext fun x => ?_
  rw [recognise?_eq_some_iff (k := x.1) (r := x.2), plain?_eq_some_iff (k := x.1) (r := x.2)]

end Keyword.Phrase

open Keyword (phrase? stripComments)
open Keyword.Phrase (recognise? recogniseIn? plain? plainIn?)

/-- The kind and the table of a statement, from its phrase as it is found word by word. -/
theorem target_plain (s : Bytes) : (classify s).target =
    (plain? (Bytes.trim (stripComments s))).bind fun (k, r) =>
      (tableName? k (Bytes.trim (stripComments s)) r).map fun n => (k, n) := by
  cases h : plain? (Bytes.trim (stripComments s)) with
  | none =>
    rw [← Keyword.Phrase.recognise?_eq_plain?] at h
    unfold classify classifyStripped
    rw [h]
    split <;> rfl
  | some x =>
    obtain ⟨p, hp, hk, hr⟩ := Keyword.Phrase.plain?_eq_some_iff.1 h
    obtain ⟨y, hy, hs⟩ := (Keyword.Phrase.phrase?_words hp).1 hr
    rw [target_parted hp hy hs, ← hs, hk]
    rfl

/-- Whichever way a phrase is looked for, and whatever order the table has, what is found at the
start of a text is the one phrase that is written there; the kind and the table of a statement come
from it. -/
theorem classify_anyOrder {ps : List Keyword.Phrase} (hps : ps.Perm Keyword.Phrase.all) :
    (∀ s, recognise? s = plain? s ∧ recogniseIn? ps s = plain? s ∧ plainIn? ps s = plain? s) ∧
    (∀ s k r, plain? s = some (k, r) ↔
      ∃ p ∈ Keyword.Phrase.all, p.kind = k ∧ ∃ x, Parted p.words x ∧ s = x ++ r) ∧
    (∀ s, ∀ p ∈ Keyword.Phrase.all, ∀ q ∈ Keyword.Phrase.all, ∀ r r',
      phrase? p.words s = some r → phrase? q.words s = some r' → p = q ∧ r = r') ∧
    ∀ s, (classify s).target = (plain? (Bytes.trim (stripComments s))).bind fun (k, r) =>
      (tableName? k (Bytes.trim (stripComments s)) r).map fun n => (k, n) := by
  refine ⟨fun s => ?_, fun s k r => ?_, fun s p hp q hq r r' => ?_, target_plain⟩
  · have hplain := Keyword.Phrase.recognise?_eq_plain? s
    refine ⟨hplain, (Keyword.Phrase.recogniseIn?_perm hps s).trans hplain, ?_⟩
    rw [Keyword.Phrase.plainIn?_perm hps, Keyword.Phrase.plainIn?_all]
  · rw [Keyword.Phrase.plain?_eq_some_iff]
    constructor
    · rintro ⟨p, hp, hk, h⟩
      exact ⟨p, hp, hk, (Keyword.Phrase.phrase?_words hp).1 h⟩
    · rintro ⟨p, hp, hk, h⟩
      exact ⟨p, hp, hk, (Keyword.Phrase.phrase?_words hp).2 h⟩
  · exact Keyword.Phrase.phrase_unique hp hq

/-- Too much white space for the quick look, in a text that the look takes in whole. -/
def spacedIndex : Bytes := Text.encode "create\tUNIQUE\n index"

theorem classify_anyOrder_reversed :
    Keyword.Phrase.all.reverse.Perm Keyword.Phrase.all ∧
      recogniseIn? Keyword.Phrase.all.reverse spacedIndex = some (.createIndex, []) ∧
      recognise? spacedIndex = some (.createIndex, []) := by
  have hps : Keyword.Phrase.all.reverse.Perm Keyword.Phrase.all := List.reverse_perm _
  have hplain : plain? spacedIndex = some (.createIndex, []) := by decide +kernel
  obtain ⟨hquick, hreversed, -⟩ := (classify_anyOrder hps).1 spacedIndex
  exact ⟨hps, hreversed.trans hplain, hquick.trans hplain⟩

end DumpRouter
