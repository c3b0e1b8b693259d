import DumpRouter.Proofs.Writer.SafePaths

/-!
# DumpRouter.Proofs.Writer.Spelling

Two spellings of one path. A pool tells paths apart by their texts, and so it takes `out/x.sql` and
`out//x.sql` for two files, which they are not.

* `Path.Spelled`, `Path.spelled_join`: the texts that are put together from their steps alone.
* `Pool.Apart`, `Pool.Refuses`: no two tables share a file, and a path that is taken is refused.
* `not_apart_of_steps`: where paths with the same steps are one file, tables do share files.
* `apart_afterAll`: they do not where paths with the same key are one file, and not either if the
  output directory and every path that a pool is given are plainly spelled.
-/

namespace DumpRouter
namespace Path

/-- The text is that of the steps: no slash is doubled or stands at the end, and no dot stands for
nothing. -/
def Spelled (p : Path) : Prop := ofComponents p.components = p

instance (p : Path) : Decidable p.Spelled := inferInstanceAs (Decidable (_ = _))

theorem Spelled.eq {p q : Path} (hp : p.Spelled) (hq : q.Spelled)
    (h : p.components = q.components) : p = q :=
  calc p = ofComponents p.components := hp.symm
    _ = ofComponents q.components := by rw [h]
    _ = q := hq

/-- A step that is written as a name between slashes. -/
structure Component.Between (c : Component) : Prop where
  ne_nil : c.text.toList ≠ []
  no_slash : '/' ∉ c.text.toList

theorem no_slash_of_mem_split {s q : List Char} (h : q ∈ split s) : '/' ∉ q := by
  induction s generalizing q with
  | nil =>
    rw [List.mem_singleton.1 h]
    exact List.not_mem_nil
  | cons c s ih =>
    rw [split] at h
    split at h
    · rcases List.mem_cons.1 h with rfl | h
      · exact List.not_mem_nil
      · exact ih h
    · next hc =>
      have hne : '/' ≠ c := by simpa using Ne.symm (by simpa using hc)
      split at h
      · rw [List.mem_singleton.1 h]
        simpa using hne
      · next p ps hs =>
        have hp : '/' ∉ p := ih (hs ▸ List.mem_cons_self)
        rcases List.mem_cons.1 h with rfl | h
        · simpa [hp] using hne
        · exact ih (hs ▸ List.mem_cons_of_mem p h)

theorem between_of_step? {p : Path} {q : String} (hq : q ∈ p.pieces) {c : Component}
    (h : step? q = some c) : c.Between := by
  obtain ⟨l, hl, rfl⟩ := List.mem_map.1 hq
  obtain ⟨hmem, hne⟩ := List.mem_filter.1 hl
  unfold step? at h
  split at h
  · cases h
  · split at h
    · cases h
      exact ⟨by decide, by decide⟩
    · cases h
      refine ⟨?_, ?_⟩
      · simpa [Component.text] using hne
      · simpa [Component.text] using no_slash_of_mem_split hmem

/-- A root may stand in front, and the other steps are names between slashes. -/
theorem components_cases (p : Path) :
    ∃ cs : List Component, (∀ c ∈ cs, c.Between) ∧
      (p.components = .root :: cs ∨ p.components = cs ∧ .root ∉ cs) := by
  have hsteps : ∀ c ∈ p.pieces.filterMap step?, c.Between := by
    intro c hc
    obtain ⟨q, hq, h⟩ := List.mem_filterMap.1 hc
    exact between_of_step? hq h
  have hroot : ∀ cs : List Component, (∀ c ∈ cs, c.Between) → .root ∉ cs := by
    intro cs h hmem
    exact (h _ hmem).no_slash (by decide)
  unfold components
  dsimp only
  split
  · exact ⟨_, hsteps, .inl rfl⟩
  · split
    · have hhere : ∀ c ∈ .here :: p.pieces.filterMap step?, c.Between := by
        intro c hc
        rcases List.mem_cons.1 hc with rfl | hc
        · exact ⟨by decide, by decide⟩
        · exact hsteps c hc
      exact ⟨_, hhere, .inr ⟨rfl, hroot _ hhere⟩⟩
    · exact ⟨_, hsteps, .inr ⟨rfl, hroot _ hsteps⟩⟩

/-- Steps with a slash between any two of them. -/
def joined (cs : List Component) : String := "/".intercalate (cs.map Component.text)

theorem ofComponents_relative {cs : List Component} (h : .root ∉ cs) :
    ofComponents cs = ⟨joined cs⟩ := by
  unfold ofComponents
  split
  · simp at h
  · rfl

theorem joined_concat {cs : List Component} (hne : cs ≠ []) (c : Component) :
    joined (cs ++ [c]) = joined cs ++ "/" ++ c.text := by
  apply String.toList_inj.1
  unfold joined
  rw [String.toList_append, String.toList_append, String.toList_intercalate,
    String.toList_intercalate, List.map_append, List.map_append]
  induction cs with
  | nil => exact absurd rfl hne
  | cons b cs ih =>
    cases cs with
    | nil => simp [List.intercalate]
    | cons b' cs => simpa [List.intercalate] using ih (by simp)

/-- The last of the steps ends the text, and not with a slash. -/
theorem joined_ends {cs : List Component} (hne : cs ≠ []) (h : ∀ c ∈ cs, c.Between) (s : String) :
    ∃ b, (s ++ joined cs).toList.getLast? = some b ∧ b ≠ '/' := by
  obtain ⟨cs, c, rfl⟩ := (List.eq_nil_or_concat' cs).resolve_left hne
  have hc := h c (by simp)
  have hlast := List.getLast?_eq_some_getLast hc.ne_nil
  refine ⟨c.text.toList.getLast hc.ne_nil, ?_, fun he => hc.no_slash (he ▸ List.getLast_mem _)⟩
  cases cs with
  | nil => simp [joined, hlast]
  | cons b cs =>
    rw [joined_concat (List.cons_ne_nil b cs), ← String.append_assoc, String.toList_append,
      List.getLast?_append, hlast]
    rfl

/-- A name is joined to a path that does not end with a slash. -/
theorem join_of_ends {dir : Path} {name : String} (h : Plain name) {b : Char}
    (he : dir.text.toList.getLast? = some b) (hb : b ≠ '/') :
    dir.join ⟨name⟩ = ⟨dir.text ++ "/" ++ name⟩ := by
  have hslash : dir.endsWithSlash = false := by
    simp [endsWithSlash, he, hb]
  have hempty : dir.text.isEmpty = false := by
    rw [Bool.eq_false_iff]
    intro h
    have hnil : dir.text.toList = [] := by simpa using h
    rw [hnil] at he
    cases he
  rw [join, not_isAbsolute_of_plain h, hempty, hslash]
  rfl

/-- A plain name in a plainly spelled directory is plainly spelled. -/
theorem spelled_join {dir : Path} {name : String} (hdir : dir.Spelled) (h : Plain name) :
    (dir.join ⟨name⟩).Spelled := by
  have hname : ∀ s : String, s ++ joined [.name name] = s ++ name := fun s => by
    simp [joined, Component.text]
  unfold Spelled at hdir ⊢
  rw [components_join h]
  obtain ⟨cs, hcs, hc | ⟨hc, hroot⟩⟩ := dir.components_cases
  · rw [hc] at hdir ⊢
    have htext : dir.text = "/" ++ joined cs := congrArg text hdir.symm
    change (⟨"/" ++ joined (cs ++ [.name name])⟩ : Path) = _
    by_cases hne : cs = []
    · subst hne
      rw [List.nil_append, hname, join, not_isAbsolute_of_plain h, htext]
      simp [endsWithSlash, htext, joined]
    · obtain ⟨b, hb, hb'⟩ := joined_ends hne hcs "/"
      rw [join_of_ends h (htext ▸ hb) hb', htext, joined_concat hne]
      simp [Component.text, String.append_assoc]
  · rw [hc] at hdir ⊢
    rw [ofComponents_relative hroot] at hdir
    have htext : dir.text = "" ++ joined cs := by rw [← hdir, String.empty_append]
    rw [ofComponents_relative (by simpa using hroot)]
    by_cases hne : cs = []
    · subst hne
      simp [joined, join, htext, Component.text]
    · obtain ⟨b, hb, hb'⟩ := joined_ends hne hcs ""
      rw [join_of_ends h (htext ▸ hb) hb', htext, joined_concat hne]
      simp [Component.text]

end Path

namespace Pool

/-- The path is plainly spelled, if the operation gives one. -/
def Operation.Spelled : Operation → Prop
  | .getAt _ path => path.Spelled
  | _ => True

/-- The output directory and the paths of all writers are plainly spelled. -/
structure Spelled (p : Pool) : Prop where
  outputDir : p.outputDir.Spelled
  path : ∀ w ∈ p.made, w.path.Spelled

theorem spelled_new {dir : Path} (h : dir.Spelled) : (Pool.new dir).Spelled := ⟨h, by simp [new]⟩

section Step

variable {p : Pool} (h : p.Spelled)
include h

theorem spelled_freePath (table : String) : (p.freePath table).Spelled := by
  obtain ⟨name, hname, hpath⟩ := p.freePath_safe table
  rw [hpath]
  exact Path.spelled_join h.outputDir hname.plain

theorem spelled_add {path : Path} (hpath : path.Spelled) (table : String) (s : Site) :
    (p.add table path s).2.1.Spelled := by
  unfold add
  split
  · exact h
  · next w _ hc =>
    refine ⟨h.outputDir, ?_⟩
    intro v hv
    rcases List.mem_append.1 hv with hv | hv
    · exact h.path v hv
    · rw [List.mem_singleton.1 hv, (TableWriter.create_carries hc).2.1]
      exact hpath

theorem spelled_onWriter (id : WriterId) (s : Site)
    {f : TableWriter → Site → Except Failure Unit × TableWriter × Site}
    (hf : ∀ w : TableWriter, w.Keeps (f w s).2.1) : (p.onWriter id s f).2.1.Spelled := by
  unfold onWriter
  split
  · exact h
  · next w hw =>
    refine ⟨h.outputDir, ?_⟩
    intro v hv
    rcases List.mem_or_eq_of_mem_set hv with hv | rfl
    · exact h.path v hv
    · rw [(hf w).path]
      exact h.path w (List.mem_of_getElem? hw)

theorem spelled_closeAll (s : Site) : (p.closeAll s).2.1.Spelled := by
  have hc := closes_closeEach (p.sorted.map (·.2)) { p with writers := [], claimed := [] } none s
  rw [← closeAll_eq] at hc
  refine ⟨hc.outputDir ▸ h.outputDir, ?_⟩
  intro v hv
  obtain ⟨id, hid⟩ := List.mem_iff_getElem?.1 hv
  have hw := (hc.writer id).symm.trans hid
  split at hw
  · obtain ⟨w, hmade, rfl⟩ := Option.map_eq_some_iff.1 hw
    exact h.path w (List.mem_of_getElem? hmade)
  · exact h.path v (List.mem_of_getElem? hw)

theorem spelled_after {o : Operation} (ho : o.Spelled) (s : Site) : (p.after s o).Spelled := by
  refine after_keeps ?_ ?_ ?_ h s
  · intro q table path s hq _ _ hpath
    rcases hpath with rfl | rfl
    · exact spelled_add hq (spelled_freePath hq table) table s
    · exact spelled_add hq ho table s
  · intro q id s f hq hf
    exact spelled_onWriter hq id s hf
  · intro _ q s hq
    exact spelled_closeAll hq s

theorem spelled_afterAll {os : List (Operation × Site)} (ho : ∀ o ∈ os, o.1.Spelled) :
    (p.afterAll os).Spelled := by
  induction os generalizing p with
  | nil => exact h
  | cons o os ih =>
    exact ih (spelled_after h (ho o (by simp)) o.2) fun o' h' => ho o' (List.mem_cons_of_mem _ h')

end Step

/-- If paths that are the `Same` denote one file, no two writers share a file. -/
def Apart (Same : Path → Path → Prop) (p : Pool) : Prop :=
  ∀ e ∈ p.writers, ∀ e' ∈ p.writers, ∀ w w', p.writer? e.2 = some w → p.writer? e'.2 = some w' →
    Same w.path w'.path → e = e'

/-- A table without a writer gets none at a path that is the `Same` as that of another's. -/
def Refuses (Same : Path → Path → Prop) (p : Pool) : Prop :=
  ∀ e ∈ p.writers, ∀ w, p.writer? e.2 = some w → ∀ table path s, p.writers.lookup table = none →
    Same w.path path → p.getAt table path s = (.error (.writerCreate table path .claimed), p, s)

def SameKey (a b : Path) : Prop := a.key = b.key

def SameSteps (a b : Path) : Prop := a.components = b.components

theorem refuses_of_consistent {p : Pool} (h : p.Consistent) : p.Refuses SameKey := by
  intro e he w hw table path s hl hk
  have hclaimed : p.isClaimed path = true := by
    unfold isClaimed
    rw [List.contains_iff_mem]
    exact (h.claimed _).2 ⟨e, he, w, hw, hk⟩
  rw [getAt, hl]
  exact if_pos hclaimed

/-- Two tables never have paths with the same key, and a path is refused whose key is taken. Paths
with the same steps may differ in their keys, unless all of them are plainly spelled. -/
theorem apart_afterAll (dir : Path) (os : List (Operation × Site)) :
    ((Pool.new dir).afterAll os).Apart SameKey ∧
      ((Pool.new dir).afterAll os).Refuses SameKey ∧
      (dir.Spelled → (∀ o ∈ os, o.1.Spelled) →
        ((Pool.new dir).afterAll os).Apart SameSteps ∧
          ((Pool.new dir).afterAll os).Refuses fun a b => b.Spelled ∧ SameSteps a b) := by
  have horderly : ((Pool.new dir).afterAll os).Orderly :=
    orderly_afterAll ⟨[], [], (idle_new dir).serves, by simp⟩ os
  have hcons := horderly.consistent
  have hrefuses := refuses_of_consistent hcons
  refine ⟨hcons.keys, hrefuses, ?_⟩
  intro hdir hos
  have hspelled := spelled_afterAll (spelled_new hdir) hos
  have hpath : ∀ {id w}, ((Pool.new dir).afterAll os).writer? id = some w → w.path.Spelled :=
    fun hw => hspelled.path _ (List.mem_of_getElem? hw)
  constructor
  · intro e he e' he' w w' hw hw' hsame
    exact hcons.keys e he e' he' w w' hw hw' (congrArg Path.key ((hpath hw).eq (hpath hw') hsame))
  · intro e he w hw table path s hl ⟨hp, hsame⟩
    exact hrefuses e he w hw table path s hl (congrArg Path.key ((hpath hw).eq hp hsame))

/-- The file of one table is asked for again, with a slash doubled, as that of another. -/
def slashDoubled : List (Operation × Site) :=
  [(.getAt "a" ⟨"out/x.sql"⟩, outSite),
    (.getAt "b" ⟨"out//x.sql"⟩, ((Pool.new ⟨"out"⟩).getAt "a" ⟨"out/x.sql"⟩ outSite).2.2)]

theorem not_apart_of_steps :
    ¬ ∀ dir os, ((Pool.new dir).afterAll os).Apart SameSteps ∧
      ((Pool.new dir).afterAll os).Refuses SameSteps := by
  intro h
  have hwriters : ((Pool.new ⟨"out"⟩).afterAll slashDoubled).writers = [("b", 1), ("a", 0)] := by
    decide +kernel
  have hpaths : (((Pool.new ⟨"out"⟩).afterAll slashDoubled).writer? 0).map (·.path) =
      some ⟨"out/x.sql"⟩ ∧ (((Pool.new ⟨"out"⟩).afterAll slashDoubled).writer? 1).map (·.path) =
      some ⟨"out//x.sql"⟩ := by
    decide +kernel
  have hsteps : (⟨"out/x.sql"⟩ : Path).components = (⟨"out//x.sql"⟩ : Path).components := by
    decide +kernel
  obtain ⟨w, hw, hp⟩ := Option.map_eq_some_iff.1 hpaths.1
  obtain ⟨w', hw', hp'⟩ := Option.map_eq_some_iff.1 hpaths.2
  have hsame : SameSteps w.path w'.path := by
    rw [hp, hp']
    exact hsteps
  have := (h ⟨"out"⟩ slashDoubled).1 ("a", 0) (by simp [hwriters]) ("b", 1) (by simp [hwriters])
    w w' hw hw' hsame
  exact absurd this (by decide)

/-- The second file is derived from the name of its table, which would give it the first one. -/
def givenAndDerived : List (Operation × Site) :=
  [(.getAt "a" ⟨"out/b.sql"⟩, outSite), (.get "b", outSite)]

theorem apart_afterAll_givenAndDerived :
    (⟨"out"⟩ : Path).Spelled ∧ (∀ o ∈ givenAndDerived, o.1.Spelled) ∧
      ((Pool.new ⟨"out"⟩).afterAll givenAndDerived).claimed = ["out/b_2.sql", "out/b.sql"] ∧
      ((Pool.new ⟨"out"⟩).afterAll givenAndDerived).Apart SameSteps ∧
      (((Pool.new ⟨"out"⟩).afterAll givenAndDerived).getAt "c" ⟨"out/b_2.sql"⟩ outSite).1 =
        .error (.writerCreate "c" ⟨"out/b_2.sql"⟩ .claimed) := by
  have hdir : (⟨"out"⟩ : Path).Spelled := by decide +kernel
  have hpaths : (⟨"out/b.sql"⟩ : Path).Spelled ∧ (⟨"out/b_2.sql"⟩ : Path).Spelled := by
    decide +kernel
  have hops : ∀ o ∈ givenAndDerived, o.1.Spelled := by
    simpa [givenAndDerived, Operation.Spelled] using hpaths.1
  have hpool : ((Pool.new ⟨"out"⟩).afterAll givenAndDerived).writers = [("b", 1), ("a", 0)] ∧
      (((Pool.new ⟨"out"⟩).afterAll givenAndDerived).writer? 1).map (·.path) =
        some ⟨"out/b_2.sql"⟩ := by
    decide +kernel
  obtain ⟨hwriters, hwriter⟩ := hpool
  obtain ⟨w, hw, hp⟩ := Option.map_eq_some_iff.1 hwriter
  obtain ⟨-, -, hplain⟩ := apart_afterAll ⟨"out"⟩ givenAndDerived
  obtain ⟨hapart, hrefuses⟩ := hplain hdir hops
  have hrefused := hrefuses ("b", 1) (by simp [hwriters]) w hw "c" ⟨"out/b_2.sql"⟩ outSite
    (by simp [hwriters]) ⟨hpaths.2, congrArg Path.components hp⟩
  exact ⟨hdir, hops, by decide +kernel, hapart, congrArg Prod.fst hrefused⟩

end Pool
end DumpRouter
