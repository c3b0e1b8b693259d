/-!
# DumpRouter.Writer.FileStem

File names for tables. Every character that some file system refuses or takes for a separator is
replaced by an underscore, and so is a dot in front; an empty name becomes an underscore.

* `ofTable_ne_nil`, `ofTable_safe`, `head?_ofTable`: the stem is not empty, all its characters are
  safe, and no dot is in front.
* `ofTable_eq_self`: a name like that is its own stem.
-/

namespace DumpRouter
namespace FileStem

/-- Control characters: code points up to U+001F and from U+007F to U+009F. -/
def isControl (c : Char) : Bool := c.toNat < 0x20 || (0x7F ≤ c.toNat && c.toNat ≤ 0x9F)

/-- The printable characters that are replaced. -/
def reserved : List Char := ['/', '\\', ':', '*', '?', '"', '<', '>', '|']

def isSafe (c : Char) : Bool := !(reserved.contains c || isControl c)

def safe (c : Char) : Char := if isSafe c then c else '_'

/-- Replaces a dot in front, and stands in for an empty name. -/
def guardFront : List Char → List Char
  | [] => ['_']
  | '.' :: s => '_' :: s
  | c :: s => c :: s

def ofTable (table : List Char) : List Char := guardFront (table.map safe)

theorem isSafe_safe (c : Char) : isSafe (safe c) = true := by
  unfold safe
  split
  · assumption
  · decide

theorem ofTable_ne_nil (table : List Char) : ofTable table ≠ [] := by
  unfold ofTable guardFront
  split <;> simp

theorem ofTable_safe {table : List Char} {c : Char} (h : c ∈ ofTable table) :
    isSafe c = true := by
  have hall : ∀ d ∈ table.map safe, isSafe d = true := by
    intro d hd
    obtain ⟨e, _, rfl⟩ := List.mem_map.1 hd
    exact isSafe_safe e
  unfold ofTable guardFront at h
  split at h
  · rw [List.mem_singleton.1 h]; decide
  · next hs =>
    rcases List.mem_cons.1 h with rfl | h
    · decide
    · exact hall c (hs ▸ List.mem_cons_of_mem _ h)
  · next hs => exact hall c (hs ▸ h)

theorem head?_ofTable (table : List Char) : (ofTable table).head? ≠ some '.' := by
  unfold ofTable guardFront
  split
  · simp
  · simp
  · next hdot _ =>
    intro hc
    exact hdot (Option.some.inj hc)

theorem ofTable_eq_self {table : List Char} (hne : table ≠ [])
    (hsafe : ∀ c ∈ table, isSafe c = true) (hdot : table.head? ≠ some '.') :
    ofTable table = table := by
  have hmap : table.map safe = table := by
    have hsame : table.map safe = table.map id := by
      apply List.map_congr_left
      intro c hc
      simp [safe, hsafe c hc]
    rw [hsame, List.map_id]
  unfold ofTable
  rw [hmap]
  unfold guardFront
  split
  · exact absurd rfl hne
  · exact absurd rfl hdot
  · rfl

theorem ofTable_ofTable (table : List Char) : ofTable (ofTable table) = ofTable table :=
  ofTable_eq_self (ofTable_ne_nil table) (fun _ => ofTable_safe) (head?_ofTable table)

end FileStem

def fileStem (table : String) : String := String.ofList (FileStem.ofTable table.toList)

end DumpRouter
