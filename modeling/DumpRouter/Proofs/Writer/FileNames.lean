import Mathlib.Data.List.Nodup
import Mathlib.Data.List.Perm.Subperm
import DumpRouter.Proofs.Disk.Tree
import DumpRouter.Writer.Pool

/-!
# DumpRouter.Proofs.Writer.FileNames

The names that a pool gives to the files of tables. Each is a plain name in the output directory,
and the path chosen for a new writer is one that no other writer of the pool has, also where letter
case does not count.

* `Stem`, `plain_sql`: a file name is plain whatever the table is called.
* `freePath_gives`: the chosen path is one of these.
* `key_numbered_inj`: two numbers behind one stem never give paths with the same key.
* `isClaimed_freePath`: the chosen path is not claimed.
-/

namespace DumpRouter

namespace Text.Lower

/-- A text of characters below U+0080 without capitals is in lower case. -/
theorem chars_eq_self {s : List Char} (h : ∀ c ∈ s, c.toNat < 128 ∧ c.toLower = c)
    (before : Bool) : chars before s = s := by
  induction s generalizing before with
  | nil => rfl
  | cons c s ih =>
    obtain ⟨hc, hl⟩ := h c (by simp)
    have hs : (c == 'Σ') = false := by
      cases hb : c == 'Σ' with
      | false => rfl
      | true => rw [eq_of_beq hb] at hc; exact absurd hc (by decide)
    have := ih (fun d hd => h d (List.mem_cons_of_mem c hd))
    simp [chars, hs, char, hc, hl, this]

theorem lower_digit {c : Char} (h : c.isDigit = true) : c.toNat < 128 ∧ c.toLower = c := by
  simp only [Char.isDigit, Bool.and_eq_true, decide_eq_true_eq, ge_iff_le,
    UInt32.le_iff_toNat_le] at h
  have h57 : c.toNat ≤ 57 := h.2
  refine ⟨by omega, ?_⟩
  unfold Char.toLower
  rw [dif_neg]
  rintro ⟨h65, -⟩
  have : 65 ≤ c.toNat := UInt32.le_iff_toNat_le.1 h65
  omega

end Text.Lower

/-- A stem that file names are made of: not empty, and all its characters are safe. -/
structure Stem (stem : String) : Prop where
  ne_nil : stem.toList ≠ []
  safe : ∀ c ∈ stem.toList, FileStem.isSafe c = true

theorem stem_fileStem (table : String) : Stem (fileStem table) := by
  refine ⟨?_, ?_⟩
  · simpa [fileStem] using FileStem.ofTable_ne_nil table.toList
  · intro c hc
    have hmem : c ∈ FileStem.ofTable table.toList := by simpa [fileStem] using hc
    exact FileStem.ofTable_safe hmem

theorem isSafe_digit {c : Char} (h : c.isDigit = true) : FileStem.isSafe c = true := by
  simp only [Char.isDigit, Bool.and_eq_true, decide_eq_true_eq, ge_iff_le,
    UInt32.le_iff_toNat_le] at h
  have h48 : 48 ≤ c.toNat := h.1
  have h57 : c.toNat ≤ 57 := h.2
  have hres : c ∉ FileStem.reserved := by
    intro hc
    have : ∀ d ∈ FileStem.reserved, ¬ (48 ≤ d.toNat ∧ d.toNat ≤ 57) := by
      simp [FileStem.reserved]
    exact this c hc ⟨h48, h57⟩
  have hctl : FileStem.isControl c = false := by
    simp [FileStem.isControl]
    omega
  simp [FileStem.isSafe, hres, hctl]

theorem stem_numbered (table : String) (n : Nat) : Stem (fileStem table ++ "_" ++ Nat.repr n) := by
  have h := stem_fileStem table
  refine ⟨by simp, ?_⟩
  intro c hc
  simp only [String.toList_append, List.mem_append, Nat.toList_repr] at hc
  rcases hc with (hc | hc) | hc
  · exact h.safe c hc
  · have : c = '_' := by simpa using hc
    subst this
    decide
  · exact isSafe_digit (Nat.isDigit_of_mem_toDigits (by decide) (by decide) hc)

theorem plain_sql {stem : String} (h : Stem stem) : Path.Plain (stem ++ ".sql") := by
  have hlen : 1 ≤ stem.toList.length := List.length_pos_of_ne_nil h.ne_nil
  have hsql : (".sql" : String).toList.length = 4 := by decide
  have hne : ∀ t : String, t.toList.length < 5 → stem ++ ".sql" ≠ t := by
    intro t ht he
    have := congrArg (·.toList.length) he
    simp only [String.toList_append, List.length_append] at this
    omega
  refine ⟨by simp, ?_, hne _ (by decide), hne _ (by decide)⟩
  intro hc
  simp only [String.toList_append, List.mem_append] at hc
  rcases hc with hc | hc
  · exact absurd (h.safe _ hc) (by decide)
  · exact absurd hc (by decide)

namespace Pool

variable (p : Pool) (table : String)

/-- The path is one that the pool gives to a file: a plain name in the output directory. -/
def Gives (path : Path) : Prop := ∃ stem, Stem stem ∧ path = p.pathOfStem stem

theorem gives_pathFor : p.Gives (p.pathFor table) := ⟨fileStem table, stem_fileStem table, rfl⟩

theorem gives_numbered (n : Nat) : p.Gives (p.numbered table n) :=
  ⟨_, stem_numbered table n, rfl⟩

theorem freePath_gives : p.Gives (p.freePath table) := by
  unfold freePath
  split
  · cases hf : (p.candidates table).find? fun c => !p.isClaimed c with
    | none =>
      rw [Option.getD_none]
      exact p.gives_pathFor table
    | some c =>
      obtain ⟨i, -, rfl⟩ := List.mem_map.1 (List.mem_of_find?_eq_some hf)
      rw [Option.getD_some]
      exact p.gives_numbered table (i + 2)
  · exact p.gives_pathFor table

/-- The key of a numbered path, cut at the underscore in front of the number. -/
theorem key_numbered (n : Nat) :
    (p.numbered table n).key.toList =
      Text.Lower.chars false (p.outputDir.front ++ (fileStem table).toList) ++
        '_' :: (Nat.toDigits 10 n ++ ".sql".toList) := by
  have htail : ∀ c ∈ '_' :: (Nat.toDigits 10 n ++ ".sql".toList), c.toNat < 128 ∧ c.toLower = c := by
    intro c hc
    rcases List.mem_cons.1 hc with rfl | hc
    · exact ⟨by decide, by decide⟩
    · rcases List.mem_append.1 hc with hc | hc
      · exact Text.Lower.lower_digit (Nat.isDigit_of_mem_toDigits (by decide) (by decide) hc)
      · have : ∀ d ∈ ".sql".toList, d.toNat < 128 ∧ d.toLower = d := by simp
        exact this c hc
  have htext : (p.numbered table n).text.toList =
      (p.outputDir.front ++ (fileStem table).toList) ++
        '_' :: (Nat.toDigits 10 n ++ ".sql".toList) := by
    have := Path.text_join (plain_sql (stem_numbered table n)) p.outputDir
    simpa [numbered, pathOfStem] using this
  rw [Path.key, Text.lower, String.toList_ofList, htext,
    Text.Lower.lower_append_break false _ (by decide) (by decide), Text.Lower.chars_eq_self htail]

theorem key_numbered_inj {m n : Nat}
    (h : (p.numbered table m).key = (p.numbered table n).key) : m = n := by
  have hl := congrArg String.toList h
  rw [key_numbered, key_numbered] at hl
  have hd := List.append_cancel_right (List.cons.inj (List.append_cancel_left hl)).2
  calc m = Nat.ofDigitChars 10 (Nat.toDigits 10 m) 0 := Nat.ofDigitChars_ten_toDigits.symm
    _ = Nat.ofDigitChars 10 (Nat.toDigits 10 n) 0 := by rw [hd]
    _ = n := Nat.ofDigitChars_ten_toDigits

/-- There are more candidates than claims, and their keys differ, so one of them is free. -/
theorem exists_free_candidate :
    ∃ c ∈ p.candidates table, p.isClaimed c = false := by
  by_cases h : ∃ c ∈ p.candidates table, p.isClaimed c = false
  · exact h
  · exfalso
    have hsub : (p.candidates table).map Path.key ⊆ p.claimed := by
      intro k hk
      obtain ⟨c, hc, rfl⟩ := List.mem_map.1 hk
      have hclaimed : p.isClaimed c = true := by
        cases hb : p.isClaimed c with
        | true => rfl
        | false => exact absurd ⟨c, hc, hb⟩ h
      simpa [isClaimed] using hclaimed
    have hnodup : ((p.candidates table).map Path.key).Nodup := by
      unfold candidates
      rw [List.map_map]
      refine List.Nodup.map (?_) List.nodup_range
      intro i j hij
      have := p.key_numbered_inj table hij
      omega
    have hle := (List.subperm_of_subset hnodup hsub).length_le
    simp only [candidates, List.length_map, List.length_range] at hle
    omega

theorem isClaimed_freePath : p.isClaimed (p.freePath table) = false := by
  unfold freePath
  split
  · obtain ⟨c, hc, hfree⟩ := p.exists_free_candidate table
    cases hf : (p.candidates table).find? fun c => !p.isClaimed c with
    | none =>
      have := List.find?_eq_none.1 hf c hc
      simp [hfree] at this
    | some c' =>
      have := List.find?_some hf
      simpa using this
  · next h => simpa using h

end Pool
end DumpRouter
