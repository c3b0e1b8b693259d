import DumpRouter.Bytes
import DumpRouter.Text.Blank

/-!
# DumpRouter.Proofs.Statement.Positions.Walk

Reading a text by positions. A walk takes note of each index and each slice that it uses, of each
position that it hands on and of each round of its loops, and it stops at a use that is out of
bounds.

* `Use.Within`: a use is within the text, or a round of a loop gets ahead.
* `Walk.Safe`: a walk comes to its end with a result, and all its uses are within.
* `Safe.bind`: one walk after another.
* `Bytes.place`: the position in a text at which an end of it begins. A scan that is told by what is
  left of a text is told by positions through it.
-/

namespace DumpRouter

/-- What a walk does with a text of `length` bytes. -/
inductive Use where
  | index (i length : Nat)
  | slice (first last length : Nat)
  /-- One scan hands a position to the next. -/
  | handed (p length : Nat)
  /-- A round of a loop, with the number of bytes ahead of it before and after. -/
  | round (before after : Nat)
  deriving DecidableEq, Repr

def Use.Within : Use → Prop
  | .index i length => i < length
  | .slice first last length => first ≤ last ∧ last ≤ length
  | .handed p length => p ≤ length
  | .round before after => after < before

structure Walk (α : Type) where
  uses : List Use
  /-- There is none if the walk has been stopped. -/
  result : Option α

instance : Monad Walk where
  pure a := ⟨[], some a⟩
  bind w f :=
    match w.result with
    | some a => ⟨w.uses ++ (f a).uses, (f a).result⟩
    | none => ⟨w.uses, none⟩

namespace Walk

variable {α β : Type}

def index (s : Bytes) (i : Nat) : Walk UInt8 := ⟨[.index i s.length], s[i]?⟩

/-- The bytes from `first` up to `last`. -/
def slice (s : Bytes) (first last : Nat) : Walk Bytes :=
  ⟨[.slice first last s.length],
    if first ≤ last ∧ last ≤ s.length then some ((s.take last).drop first) else none⟩

def handed (s : Bytes) (p : Nat) : Walk Unit :=
  ⟨[.handed p s.length], if p ≤ s.length then some () else none⟩

/-- Goes on with the next round of a loop if there is less ahead of it. -/
def round (before after : Nat) (next : after < before → Walk α) : Walk α :=
  if h : after < before then ⟨.round before after :: (next h).uses, (next h).result⟩
  else ⟨[.round before after], none⟩

/-- The walk comes to its end with the result `a`, and stays within its texts. -/
structure Safe (w : Walk α) (a : α) : Prop where
  result : w.result = some a
  within : ∀ u ∈ w.uses, u.Within

variable {w : Walk α} {f : α → Walk β} {a : α} {b : β} {s : Bytes}

theorem Safe.pure (a : α) : (Pure.pure a : Walk α).Safe a := ⟨rfl, nofun⟩

theorem Safe.bind (hw : w.Safe a) (hf : (f a).Safe b) : (w >>= f).Safe b := by
  obtain ⟨uses, result⟩ := w
  obtain ⟨rfl, hwithin⟩ := hw
  refine ⟨hf.result, fun u hu => ?_⟩
  rcases List.mem_append.1 hu with hu | hu
  · exact hwithin u hu
  · exact hf.within u hu

theorem safe_index {i : Nat} {c : UInt8} (h : s[i]? = some c) : (index s i).Safe c := by
  refine ⟨h, fun u hu => ?_⟩
  obtain rfl := List.mem_singleton.1 hu
  exact (List.getElem?_eq_some_iff.1 h).1

theorem safe_slice {first last : Nat} (h : first ≤ last) (h' : last ≤ s.length) :
    (slice s first last).Safe ((s.take last).drop first) := by
  refine ⟨if_pos ⟨h, h'⟩, fun u hu => ?_⟩
  obtain rfl := List.mem_singleton.1 hu
  exact ⟨h, h'⟩

theorem safe_handed {p : Nat} (h : p ≤ s.length) : (handed s p).Safe () := by
  refine ⟨if_pos h, fun u hu => ?_⟩
  obtain rfl := List.mem_singleton.1 hu
  exact h

theorem safe_round {before after : Nat} {next : after < before → Walk α} (h : after < before)
    (hnext : (next h).Safe a) : (round before after next).Safe a := by
  rw [round, dif_pos h]
  refine ⟨hnext.result, fun u hu => ?_⟩
  rcases List.mem_cons.1 hu with rfl | hu
  · exact h
  · exact hnext.within u hu

end Walk

namespace Bytes

/-- The position in `s` at which the end `t` of it begins. -/
def place (s t : Bytes) : Nat := s.length - t.length

variable {s t u : Bytes} {n : Nat}

theorem place_le (s t : Bytes) : place s t ≤ s.length := Nat.sub_le _ _

theorem place_self (s : Bytes) : place s s = 0 := Nat.sub_self _

theorem drop_place (h : t <:+ s) : s.drop (place s t) = t := (List.suffix_iff_eq_drop.1 h).symm

theorem length_place (h : t <:+ s) : place s t + t.length = s.length := by
  have := h.length_le
  unfold place
  omega

theorem getElem?_place (h : t <:+ s) (n : Nat) : s[place s t + n]? = t[n]? := by
  rw [← List.getElem?_drop, drop_place h]

theorem place_drop (h : t <:+ s) (hn : n ≤ t.length) : place s (t.drop n) = place s t + n := by
  have := length_place h
  unfold place
  rw [List.length_drop]
  omega

theorem place_cons {b : UInt8} (h : b :: t <:+ s) : place s t = place s (b :: t) + 1 :=
  place_drop (n := 1) h (by simp)

theorem getElem?_place_cons {b : UInt8} (h : b :: t <:+ s) : s[place s (b :: t)]? = some b :=
  getElem?_place h 0

theorem slice_place (h : t <:+ s) (n : Nat) :
    (s.take (place s t + n)).drop (place s t) = t.take n := by
  rw [List.drop_take, drop_place h, Nat.add_sub_cancel_left]

theorem slice_to_end (h : t <:+ s) : (s.take s.length).drop (place s t) = t := by
  rw [List.take_length, drop_place h]

/-- Either a byte does not occur, or the text is cut at the first place where it does. -/
theorem findIdx?_cases (b : UInt8) (t : Bytes) :
    (b ∉ t ∧ t.findIdx? (· == b) = none ∧ t.dropWhile (· != b) = []) ∨
      ∃ c u, b ∉ c ∧ t = c ++ b :: u ∧ t.findIdx? (· == b) = some c.length ∧
        t.takeWhile (· != b) = c ∧ t.dropWhile (· != b) = b :: u := by
  have hpast : ∀ {c : Bytes}, b ∉ c → ∀ x ∈ c, (x != b) = true :=
    fun hc x hx => by simpa using fun h : x = b => hc (h ▸ hx)
  by_cases hb : b ∈ t
  · obtain ⟨c, u, rfl, hc⟩ := List.eq_append_cons_of_mem hb
    refine .inr ⟨c, u, hc, rfl, ?_, ?_, ?_⟩
    · have hnone : c.findIdx? (· == b) = none :=
        List.findIdx?_eq_none_iff.2 fun x hx => by simpa using hpast hc x hx
      simp [List.findIdx?_append, hnone, List.findIdx?_cons]
    · rw [List.takeWhile_append_of_pos (hpast hc)]
      simp
    · rw [List.dropWhile_append_of_pos (hpast hc)]
      simp
  · have hnone : t.findIdx? (· == b) = none :=
      List.findIdx?_eq_none_iff.2 fun x hx => by simpa using hpast hb x hx
    exact .inl ⟨hb, hnone, (Text.dropWhile_eq_nil_iff _ t).2 (hpast hb)⟩

end Bytes
end DumpRouter
