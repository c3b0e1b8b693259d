import Mathlib.Data.Nat.Find
import Mathlib.Order.Bounds.Basic
import DumpRouter.Proofs.Writer.SafePaths

/-!
# DumpRouter.Proofs.Writer.Numbering

Which file a table gets when it is first met: the one with its own name, if no other table has taken
it, and otherwise the one with the least number behind its name that is free. Case is left out of
account, and so is what the other tables are called: a name may end with a number of its own.

* `Pool.FirstFree`, `Pool.search?`: the number, and the search that is to find it.
* `exists_firstFree`: there is one, and it is not beyond the number of claims by more than two.
* `search?_eq`: the search finds it, through any numbers that are more than there are claims.
* `path_after`: no operation moves the file of a writer.
* `get_firstFree`: the rule, and that the files of tables are apart and stay where they are.
-/

namespace DumpRouter
namespace Pool

/-- The least number from two on that gives the table a path that nobody has claimed. -/
def FirstFree (p : Pool) (table : String) (n : Nat) : Prop :=
  IsLeast {k | 2 ≤ k ∧ p.isClaimed (p.numbered table k) = false} n

/-- A search for a path that nobody has claimed, through so many numbers from two on. -/
def search? (p : Pool) (table : String) (count : Nat) : Option Path :=
  ((List.range' 2 count).map (p.numbered table)).find? fun path => !p.isClaimed path

/-- The path is the table's own, or the first free one of those with numbers if that is claimed. -/
structure Follows (p : Pool) (table : String) (path : Path) : Prop where
  own : p.isClaimed (p.pathFor table) = false → path = p.pathFor table
  numbered : p.isClaimed (p.pathFor table) = true →
    ∃ n, p.FirstFree table n ∧ n ≤ p.claimed.length + 2 ∧ path = p.numbered table n

section Search

variable (p : Pool) (table : String)

theorem exists_firstFree : ∃ n, p.FirstFree table n ∧ n ≤ p.claimed.length + 2 := by
  obtain ⟨c, hc, hfree⟩ := p.exists_free_candidate table
  obtain ⟨i, hi, rfl⟩ := List.mem_map.1 hc
  have hsome : ∃ k, 2 ≤ k ∧ p.isClaimed (p.numbered table k) = false := ⟨i + 2, by omega, hfree⟩
  refine ⟨Nat.find hsome, ⟨Nat.find_spec hsome, fun k hk => Nat.find_min' hsome hk⟩, ?_⟩
  have hle : Nat.find hsome ≤ i + 2 := Nat.find_min' hsome ⟨by omega, hfree⟩
  have := List.mem_range.1 hi
  omega

variable {p table}

/-- A search that reaches the first free number ends there. -/
theorem search?_eq {n count : Nat} (h : p.FirstFree table n) (hn : n < count + 2) :
    p.search? table count = some (p.numbered table n) := by
  obtain ⟨⟨htwo, hfree⟩, hleast⟩ := h
  have hfind :
      (List.range' 2 count).find? (fun k => !p.isClaimed (p.numbered table k)) = some n := by
    rw [List.find?_range'_eq_some]
    refine ⟨by simp [hfree], List.mem_range'_1.2 ⟨htwo, by omega⟩, ?_⟩
    intro k hk hkn
    by_contra hclaimed
    have hle : n ≤ k := hleast ⟨hk, by simpa using hclaimed⟩
    omega
  rw [search?, List.find?_map]
  exact congrArg (Option.map (p.numbered table)) hfind

variable (p table)

theorem follows_freePath : p.Follows table (p.freePath table) := by
  obtain ⟨n, hn, hle⟩ := p.exists_firstFree table
  have hcandidates : p.candidates table =
      (List.range' 2 (p.claimed.length + 1)).map (p.numbered table) := by
    rw [candidates, List.range'_eq_map_range, List.map_map]
    refine List.map_congr_left fun i _ => ?_
    rw [Function.comp_apply, Nat.add_comm]
  constructor
  · intro hfree
    simp [freePath, hfree]
  · intro hclaimed
    have hsearch : p.search? table (p.claimed.length + 1) = some (p.numbered table n) :=
      search?_eq hn (by omega)
    rw [search?, ← hcandidates] at hsearch
    refine ⟨n, hn, hle, ?_⟩
    rw [freePath, if_pos hclaimed, hsearch, Option.getD_some]

end Search

/-! ## The files of tables -/

section InUse

variable {p : Pool} {dir : Path} {w : TableWriter} {table : String} {id : WriterId}

/-- What is done to a pool leaves the file of each writer where it is. -/
theorem path_after (hw : p.writer? id = some w) (s : Site) (o : Operation) :
    ∃ w', (p.after s o).writer? id = some w' ∧ w'.path = w.path := by
  refine after_keeps (P := fun q => ∃ w', q.writer? id = some w' ∧ w'.path = w.path)
    ?_ ?_ ?_ ⟨w, hw, rfl⟩ s
  · rintro q table path s ⟨w', hw', hp⟩ - - -
    unfold add
    split
    · exact ⟨w', hw', hp⟩
    · have hlt := (List.getElem?_eq_some_iff.1 hw').1
      exact ⟨w', (List.getElem?_append_left hlt).trans hw', hp⟩
  · rintro q j s f ⟨w', hw', hp⟩ hf
    rw [writer?_onWriter, hw']
    split
    · exact ⟨_, rfl, (hf w').path.trans hp⟩
    · exact ⟨w', rfl, hp⟩
  · rintro - q s ⟨w', hw', hp⟩
    have hc := closes_closeEach (q.sorted.map (·.2)) { q with writers := [], claimed := [] } none s
    rw [← closeAll_eq] at hc
    have hsame : Pool.writer? { q with writers := [], claimed := [] } id = some w' := hw'
    rw [hc.writer, hsame]
    split
    · exact ⟨w'.closed, rfl, hp⟩
    · exact ⟨w', rfl, hp⟩

theorem path_afterAll (hw : p.writer? id = some w) (os : List (Operation × Site)) :
    ∃ w', (p.afterAll os).writer? id = some w' ∧ w'.path = w.path := by
  induction os generalizing p w with
  | nil => exact ⟨w, hw, rfl⟩
  | cons o os ih =>
    obtain ⟨w₁, hw₁, hp₁⟩ := path_after hw o.2 o.1
    obtain ⟨w', hw', hp'⟩ := ih hw₁
    exact ⟨w', hw', hp'.trans hp₁⟩

theorem Consistent.current?_iff (h : p.Consistent) :
    p.current? table = some w ↔ ∃ id, (table, id) ∈ p.writers ∧ p.writer? id = some w := by
  rw [current?, Option.bind_eq_some_iff]
  constructor
  · rintro ⟨id, hl, hw⟩
    exact ⟨id, mem_of_lookup hl, hw⟩
  · rintro ⟨id, he, hw⟩
    exact ⟨id, h.lookup he, hw⟩

/-- A path is claimed where a table has it, whatever the case of its letters. -/
theorem Consistent.isClaimed_iff (h : p.Consistent) (path : Path) :
    p.isClaimed path = true ↔
      ∃ table w, p.current? table = some w ∧ w.path.key = path.key := by
  rw [isClaimed, List.contains_iff_mem, h.claimed]
  constructor
  · rintro ⟨⟨table, id⟩, he, w, hw, hk⟩
    exact ⟨table, w, h.current?_iff.2 ⟨id, he, hw⟩, hk⟩
  · rintro ⟨table, w, hc, hk⟩
    obtain ⟨id, he, hw⟩ := h.current?_iff.1 hc
    exact ⟨(table, id), he, w, hw, hk⟩

/-- However a pool has been used, a table that it does not know gets the file with its own name, or
the one with the least free number if the former is another table's. A search through the numbers of
64 bits finds that number, as long as there are fewer claims than numbers. No two tables have files
whose paths differ at most in case, and the file of a table is the same until all are closed. -/
theorem get_firstFree (h : p.Reachable dir) :
    (∀ path, p.isClaimed path = true ↔
        ∃ table w, p.current? table = some w ∧ w.path.key = path.key) ∧
      (∀ table, p.writers.lookup table = none →
        p.Follows table (p.freePath table) ∧
        (p.isClaimed (p.pathFor table) = true → p.claimed.length < UInt64.size - 2 →
          p.search? table (UInt64.size - 2) = some (p.freePath table)) ∧
        ∀ s, Makes table (p.freePath table) (p.get table s)) ∧
      (∀ table table' w w', p.current? table = some w → p.current? table' = some w' →
        w.path.key = w'.path.key → table = table') ∧
      ∀ table w, p.current? table = some w →
        ∀ os : List (Operation × Site), (∀ o ∈ os, o.1 ≠ .closeAll) →
          ∃ w', (p.afterAll os).current? table = some w' ∧ w'.path = w.path := by
  have hcons := h.orderly.consistent
  refine ⟨hcons.isClaimed_iff, ?_, ?_, ?_⟩
  · intro table hl
    have hfollows := p.follows_freePath table
    refine ⟨hfollows, ?_, makes_get hl⟩
    intro hclaimed hfew
    obtain ⟨n, hn, hle, hpath⟩ := hfollows.numbered hclaimed
    rw [hpath]
    exact search?_eq hn (by omega)
  · intro table table' w w' hc hc' hk
    obtain ⟨id, he, hw⟩ := hcons.current?_iff.1 hc
    obtain ⟨id', he', hw'⟩ := hcons.current?_iff.1 hc'
    exact congrArg Prod.fst (hcons.keys _ he _ he' w w' hw hw' hk)
  · intro table w hc os hos
    obtain ⟨id, he, hw⟩ := hcons.current?_iff.1 hc
    obtain ⟨w', hw', hp⟩ := path_afterAll hw os
    have hlater := (orderly_afterAll h.orderly os).consistent
    exact ⟨w', hlater.current?_iff.2 ⟨id, mem_writers_afterAll hos he, hw'⟩, hp⟩

end InUse

/-- A table whose own name ends with a number has the first path that another one would get. -/
def crowded : Pool := ((Pool.new ⟨"out"⟩).after outSite (.get "x_2")).after outSite (.get "x")

/-- Two more tables, one of which has the name that the file of the other has got. -/
def crowding : List (Operation × Site) :=
  [(.get "X", outSite), (.get "X_3", outSite), (.close 1, outSite)]

theorem get_firstFree_crowded :
    crowded.Reachable ⟨"out"⟩ ∧ crowded.claimed = ["out/x.sql", "out/x_2.sql"] ∧
      crowded.writers.lookup "X" = none ∧ crowded.freePath "X" = ⟨"out/X_3.sql"⟩ ∧
      (∃ n, crowded.FirstFree "X" n ∧ (⟨"out/X_3.sql"⟩ : Path) = crowded.numbered "X" n) ∧
      crowded.search? "X" (UInt64.size - 2) = some ⟨"out/X_3.sql"⟩ ∧
      Makes "X" ⟨"out/X_3.sql"⟩ (crowded.get "X" outSite) ∧
      (crowded.afterAll crowding).claimed =
        ["out/x_3_2.sql", "out/x_3.sql", "out/x.sql", "out/x_2.sql"] ∧
      ∃ w, (crowded.afterAll crowding).current? "x" = some w ∧ w.path = ⟨"out/x.sql"⟩ := by
  have hr : crowded.Reachable ⟨"out"⟩ := .after _ _ (.after _ _ .new)
  have hpool : crowded.claimed = ["out/x.sql", "out/x_2.sql"] ∧
      crowded.writers.lookup "X" = none ∧ crowded.freePath "X" = ⟨"out/X_3.sql"⟩ ∧
      crowded.isClaimed (crowded.pathFor "X") = true ∧
      (crowded.current? "x").map (·.path) = some ⟨"out/x.sql"⟩ := by
    decide +kernel
  obtain ⟨hclaimed, hnone, hfree, hown, hx⟩ := hpool
  obtain ⟨w, hw, hpath⟩ := Option.map_eq_some_iff.1 hx
  obtain ⟨-, hnew, -, hstays⟩ := get_firstFree hr
  obtain ⟨hfollows, hsearch, hmakes⟩ := hnew "X" hnone
  obtain ⟨n, hn, -, hpath'⟩ := hfollows.numbered hown
  have hfew : crowded.claimed.length < UInt64.size - 2 := by
    rw [hclaimed]
    decide
  obtain ⟨w', hw', hp⟩ := hstays "x" w hw crowding (by simp [crowding])
  rw [hfree] at hsearch hmakes hpath'
  have hlater : (crowded.afterAll crowding).claimed =
      ["out/x_3_2.sql", "out/x_3.sql", "out/x.sql", "out/x_2.sql"] := by
    decide +kernel
  exact ⟨hr, hclaimed, hnone, hfree, ⟨n, hn, hpath'⟩, hsearch hown hfew, hmakes outSite,
    hlater, w', hw', hp.trans hpath⟩

end Pool
end DumpRouter
