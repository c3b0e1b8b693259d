/-!
# DumpRouter.Disk.Location

Places on a disk. A place is known by the names on the way to it from the root. They are kept with
the last one in front, and beside them how many there are, so that places at different depths are
told apart at once.

`below_inj`: the same name in the same directory, and nothing else, gives the same place.
-/

namespace DumpRouter

structure Location where
  depth : Nat
  names : List String
  length_names : names.length = depth
  deriving DecidableEq, Repr

namespace Location

def root : Location := ⟨0, [], rfl⟩

def below (l : Location) (name : String) : Location :=
  ⟨l.depth + 1, name :: l.names, by simp [l.length_names]⟩

/-- The directory that a place lies in. The root lies in itself. -/
def parent (l : Location) : Location :=
  ⟨l.depth - 1, l.names.tail, by simp [l.length_names]⟩

/-- The place that names lead to from the root. -/
def ofNames (names : List String) : Location := names.foldl below root

def toNames (l : Location) : List String := l.names.reverse

/-- The names on the way from the directory at `d`, if the place lies below it. -/
def namesFrom (d l : Location) : Option (List String) :=
  if d.depth < l.depth && l.names.drop (l.depth - d.depth) == d.names then
    some (l.names.take (l.depth - d.depth)).reverse
  else none

theorem ext_names {l k : Location} (h : l.names = k.names) : l = k := by
  obtain ⟨m, ns, rfl⟩ := l
  obtain ⟨n, ms, rfl⟩ := k
  simp only at h
  subst h
  rfl

@[simp] theorem parent_below (l : Location) (name : String) : (l.below name).parent = l :=
  ext_names rfl

theorem below_inj {l k : Location} {m n : String} : l.below m = k.below n ↔ l = k ∧ m = n := by
  constructor
  · intro h
    obtain ⟨hn, hl⟩ := List.cons.inj (congrArg Location.names h)
    exact ⟨ext_names hl, hn⟩
  · rintro ⟨rfl, rfl⟩
    rfl

theorem below_ne_root (l : Location) (name : String) : l.below name ≠ root := by
  intro h
  cases congrArg Location.names h

end Location
end DumpRouter
