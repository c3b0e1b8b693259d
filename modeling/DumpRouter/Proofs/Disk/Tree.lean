import DumpRouter.Disk.Basic

/-!
# DumpRouter.Proofs.Disk.Tree

Where paths lead, and what leaves that as it is. A path is followed through directories, so it
leads to the same place as long as the directories of the disk are the same, whatever becomes of
the files.

* `Path.pieces_join`, `Path.components_join`: a plain name joined to a path adds one piece to it,
  and one step.
* `Disk.KeepsDirectories`: no directory is gone; `Leads.keeps` keeps the places of paths.
* `Disk.SameTree`: only regular files differ.
* `leads_join_inj`: two plain names in one directory are two places.
* `create_ok`: what it means that a file could be opened for writing.
* `Disk.AddsDirectories`, `mkdirAll_adds`: making directories changes nothing that is there.
-/

namespace DumpRouter
namespace Path

/-- A name of a file in a directory: not empty, without slash, and not one of the two dot names. -/
structure Plain (name : String) : Prop where
  ne_nil : name.toList ≠ []
  no_slash : '/' ∉ name.toList
  ne_dot : name ≠ "."
  ne_dots : name ≠ ".."

theorem split_ne_nil (s : List Char) : split s ≠ [] := by
  cases s with
  | nil => simp [split]
  | cons c s =>
    simp only [split]
    split
    · simp
    · split <;> simp

theorem split_append_slash (s t : List Char) : split (s ++ '/' :: t) = split s ++ split t := by
  induction s with
  | nil => simp [split]
  | cons c s ih =>
    by_cases hc : (c == '/') = true
    · simp [split, hc, ih]
    · rw [List.cons_append, split, split, ih]
      cases h : split s with
      | nil => exact absurd h (split_ne_nil s)
      | cons p ps => simp [hc]

theorem split_eq_singleton {t : List Char} (h : '/' ∉ t) : split t = [t] := by
  induction t with
  | nil => rfl
  | cons c t ih =>
    have hc : (c == '/') = false := by
      simpa using fun (hc : c = '/') => h (by simp [hc])
    simp [split, hc, ih (fun ht => h (List.mem_cons_of_mem c ht))]

/-- What stands in front of a name that is joined to the path. -/
def front (dir : Path) : List Char :=
  if dir.text.isEmpty then []
  else if dir.endsWithSlash then dir.text.toList
  else dir.text.toList ++ ['/']

/-- Nothing stands in front of the name, or a slash does, which the path may have had. -/
theorem front_cases (dir : Path) :
    (dir.front = [] ∧ dir.text.toList = []) ∨
      ∃ s, dir.front = s ++ ['/'] ∧ (dir.text.toList = s ++ ['/'] ∨ dir.text.toList = s) := by
  unfold front
  by_cases he : dir.text.isEmpty = true
  · rw [if_pos he]
    exact .inl ⟨rfl, by simpa using he⟩
  · rw [if_neg he]
    right
    by_cases hs : dir.endsWithSlash = true
    · rw [if_pos hs]
      obtain ⟨s, hs'⟩ := List.getLast?_eq_some_iff.1 (eq_of_beq hs)
      exact ⟨s, hs', .inl hs'⟩
    · rw [if_neg hs]
      exact ⟨dir.text.toList, rfl, .inr rfl⟩

section Join

variable {name : String} (h : Plain name) (dir : Path)
include h

theorem not_isAbsolute_of_plain : (⟨name⟩ : Path).isAbsolute = false := by
  cases hs : name.toList with
  | nil => exact absurd hs h.ne_nil
  | cons c s =>
    have : c ≠ '/' := fun hc => h.no_slash (by simp [hs, hc])
    simp [isAbsolute, hs, this]

theorem text_join : (dir.join ⟨name⟩).text.toList = dir.front ++ name.toList := by
  unfold join front
  rw [not_isAbsolute_of_plain h, Bool.false_or]
  split
  · rfl
  · split
    · simp
    · simp

theorem pieces_join : (dir.join ⟨name⟩).pieces = dir.pieces ++ [name] := by
  have hsplit := split_eq_singleton h.no_slash
  have hname : name.toList.isEmpty = false := by simpa using h.ne_nil
  unfold pieces
  rw [text_join h]
  rcases front_cases dir with ⟨hf, hd⟩ | ⟨s, hf, hd | hd⟩
  · rw [hf, List.nil_append, hsplit, hd]
    simp [split, hname]
  · rw [hf, hd, List.append_assoc, List.singleton_append, split_append_slash, split_append_slash,
      hsplit]
    simp [split, hname]
  · rw [hf, hd, List.append_assoc, List.singleton_append, split_append_slash, hsplit]
    simp [hname]

theorem isAbsolute_join : (dir.join ⟨name⟩).isAbsolute = dir.isAbsolute := by
  unfold join
  rw [not_isAbsolute_of_plain h, Bool.false_or]
  split
  · next he =>
    have hd : dir.text.toList = [] := by simpa using he
    rw [not_isAbsolute_of_plain h, isAbsolute, hd]
    rfl
  · next he =>
    obtain ⟨c, r, hd⟩ := List.exists_cons_of_ne_nil (l := dir.text.toList) (by simpa using he)
    split <;> simp [isAbsolute, hd]

theorem components_join : (dir.join ⟨name⟩).components = dir.components ++ [.name name] := by
  have hstep : step? name = some (.name name) := by
    simp [step?, h.ne_dot, h.ne_dots]
  -- a dot in front of the path is one in front of the directory
  have hhead : ((dir.pieces ++ [name]).head? == some ".") = (dir.pieces.head? == some ".") := by
    cases dir.pieces with
    | nil => simp [h.ne_dot]
    | cons p ps => simp
  unfold components
  rw [isAbsolute_join h, pieces_join h, hhead]
  simp only [List.filterMap_append, List.filterMap_cons, List.filterMap_nil, hstep]
  split
  · simp
  · split <;> simp

end Join
end Path

namespace Disk

/-- The directories and devices of `d'` are those of `d`. Only regular files may have come, gone or
changed. -/
structure SameTree (d d' : Disk) : Prop where
  here : d'.here = d.here
  directory : ∀ l, d'.node? l = some .directory ↔ d.node? l = some .directory
  device : ∀ l k, d'.node? l = some (.device k) ↔ d.node? l = some (.device k)

namespace SameTree

theorem refl (d : Disk) : SameTree d d := ⟨rfl, fun _ => .rfl, fun _ _ => .rfl⟩

theorem symm {d d' : Disk} (h : SameTree d d') : SameTree d' d :=
  ⟨h.here.symm, fun l => (h.directory l).symm, fun l k => (h.device l k).symm⟩

theorem trans {d d' d'' : Disk} (h : SameTree d d') (h' : SameTree d' d'') : SameTree d d'' :=
  ⟨h'.here.trans h.here, fun l => (h'.directory l).trans (h.directory l),
    fun l k => (h'.device l k).trans (h.device l k)⟩

theorem put_file {d : Disk} {l : Location} (hl : l ≠ .root)
    (hn : d.node? l = none ∨ ∃ c, d.node? l = some (.file c)) (c : ByteArray) :
    SameTree d (d.put l (.file c)) := by
  refine ⟨rfl, ?_, ?_⟩
  · intro k
    rw [node?_put hl]
    by_cases hk : k = l
    · subst hk
      rcases hn with hn | ⟨c', hn⟩ <;> simp [hn]
    · simp [hk]
  · intro k x
    rw [node?_put hl]
    by_cases hk : k = l
    · subst hk
      rcases hn with hn | ⟨c', hn⟩ <;> simp [hn]
    · simp [hk]

end SameTree

/-- The directories of `d` are directories of `d'` too. -/
structure KeepsDirectories (d d' : Disk) : Prop where
  here : d'.here = d.here
  directory : ∀ l, d.node? l = some .directory → d'.node? l = some .directory

theorem SameTree.keepsDirectories {d d' : Disk} (h : SameTree d d') : KeepsDirectories d d' :=
  ⟨h.here, fun l => (h.directory l).2⟩

section

variable {d d' : Disk} (h : KeepsDirectories d d')
include h

theorem find_directory {l : Location} {name : String}
    (hf : d.find l name = .ok (some .directory)) : d'.find l name = .ok (some .directory) := by
  unfold find at hf ⊢
  split at hf
  · cases hf
  · next hlen =>
    rw [if_neg hlen, h.directory _ (Except.ok.inj hf)]

theorem walk_keeps {slash : Bool} {l : Location} {ps : List String} {t : Target}
    (hw : d.walk slash l ps = .ok t) : d'.walk slash l ps = .ok t := by
  fun_induction walk d slash l ps with
  | case1 => exact hw
  | case2 l r ih => rw [walk]; exact ih hw
  | case3 l r ih => rw [walk]; exact ih hw
  | case4 l name h1 h2 =>
    rw [walk]
    · exact hw
    · exact h1
    · exact h2
  | case5 => cases hw
  | case6 => cases hw
  | case7 l name r h1 h2 h3 hf ih =>
    rw [walk, find_directory h hf]
    · exact ih hw
    · exact h1
    · exact h2
    · exact h3
  | case8 => cases hw

theorem resolve_keeps {p : Path} {t : Target} (hr : d.resolve p = .ok t) :
    d'.resolve p = .ok t := by
  unfold resolve at hr ⊢
  split at hr
  · cases hr
  · next h0 =>
    split at hr
    · cases hr
    · next h1 =>
      split at hr
      · cases hr
      · next h2 =>
        rw [if_neg h0, if_neg h1, if_neg h2, h.here]
        exact walk_keeps h hr

end

theorem walk_concat {d : Disk} {slash : Bool} {l : Location} {name : String} (hn : Path.Plain name)
    (ps : List String) {t : Target} (hw : d.walk slash l (ps ++ [name]) = .ok t) :
    ∃ k, t = .entry k name slash := by
  induction ps generalizing l with
  | nil =>
    rw [List.nil_append, walk] at hw
    · exact ⟨l, (Except.ok.inj hw).symm⟩
    · exact hn.ne_dot
    · exact hn.ne_dots
  | cons p ps ih =>
    rw [List.cons_append] at hw
    by_cases h1 : p = "."
    · subst h1; rw [walk] at hw; exact ih hw
    · by_cases h2 : p = ".."
      · subst h2; rw [walk] at hw; exact ih hw
      · rw [walk] at hw
        · split at hw
          · cases hw
          · cases hw
          · exact ih hw
          · cases hw
        · exact h1
        · exact h2
        · simp

/-- The path leads to the place `l`, where a file can be. -/
def Leads (d : Disk) (p : Path) (l : Location) : Prop :=
  ∃ k name, d.resolve p = .ok (.entry k name false) ∧ byteLength name ≤ longestName ∧
    l = k.below name

namespace Leads

variable {d d' : Disk} {p : Path} {l : Location}

theorem keeps (h : d.Leads p l) (hk : KeepsDirectories d d') : d'.Leads p l := by
  obtain ⟨k, name, hr, hlen, hl⟩ := h
  exact ⟨k, name, resolve_keeps hk hr, hlen, hl⟩

theorem sameTree (h : d.Leads p l) (ht : SameTree d d') : d'.Leads p l :=
  h.keeps ht.keepsDirectories

theorem ne_root (h : d.Leads p l) : l ≠ .root := by
  obtain ⟨k, name, -, -, rfl⟩ := h
  exact Location.below_ne_root k name

theorem stat (h : d.Leads p l) {n : Node} (hn : d.node? l = some n) : d.stat p = .ok (l, n) := by
  obtain ⟨k, name, hr, hlen, rfl⟩ := h
  simp [Disk.stat, hr, find, Nat.not_lt.2 hlen, hn]

end Leads

theorem leads_of_stat {d : Disk} {p : Path} {l : Location} {n : Node}
    (h : d.stat p = .ok (l, n)) (hn : n ≠ .directory) : d.Leads p l ∧ d.node? l = some n := by
  unfold stat at h
  split at h
  · cases h
  · cases h
    exact absurd rfl hn
  · next k name slash hr =>
    unfold find at h
    split at h
    · cases h
    · cases h
    · next m hfind =>
      split at hfind
      · cases hfind
      · next hlen =>
        split at h
        · cases h
        · next hslash =>
          cases h
          have hplain : slash = false := by simpa [hn] using hslash
          subst hplain
          exact ⟨⟨k, name, hr, Nat.not_lt.1 hlen, rfl⟩, Except.ok.inj hfind⟩

theorem leads_join {d : Disk} {dir : Path} {name : String} {l : Location} (hn : Path.Plain name)
    (h : d.Leads (dir.join ⟨name⟩) l) : ∃ k : Location, l = k.below name := by
  obtain ⟨k, q, hr, -, rfl⟩ := h
  unfold resolve at hr
  split at hr
  · cases hr
  · split at hr
    · cases hr
    · split at hr
      · cases hr
      · rw [Path.pieces_join hn] at hr
        obtain ⟨k', hk'⟩ := walk_concat hn _ hr
        injection hk' with _ hname
        exact ⟨k, by rw [hname]⟩

theorem leads_join_inj {d : Disk} {dir : Path} {m n : String} {l : Location} (hm : Path.Plain m)
    (hn : Path.Plain n) (h : d.Leads (dir.join ⟨m⟩) l) (h' : d.Leads (dir.join ⟨n⟩) l) : m = n := by
  obtain ⟨k, hk⟩ := leads_join hm h
  obtain ⟨k', hk'⟩ := leads_join hn h'
  exact (Location.below_inj.1 (hk.symm.trans hk')).2

/-- A file opened for writing is empty, and stands where a file or nothing was; a device is left
alone. -/
theorem create_ok {d d' : Disk} {p : Path} {fresh : Bool} {l : Location}
    (h : d.create p fresh = .ok (l, d')) :
    d.Leads p l ∧
      ((d.node? l = none ∨ ∃ c, d.node? l = some (.file c)) ∧ d' = d.put l (.file .empty) ∨
        (∃ k, d.node? l = some (.device k)) ∧ d' = d) := by
  unfold create at h
  split at h
  · cases h
  · cases h
  · next k name slash hr =>
    cases slash with
    | true => cases h
    | false =>
      simp only [Bool.false_eq_true, if_false, find] at h
      by_cases hlen : longestName < byteLength name
      · simp [hlen] at h
      · simp only [hlen, if_false] at h
        have hleads : d.Leads p (k.below name) := ⟨k, name, hr, Nat.not_lt.1 hlen, rfl⟩
        split at h
        · cases h
        · next hn =>
          cases h
          exact ⟨hleads, .inl ⟨.inl (Except.ok.inj hn), rfl⟩⟩
        · next n hn =>
          cases fresh with
          | true => cases h
          | false =>
            cases n with
            | directory => cases h
            | file c =>
              cases h
              exact ⟨hleads, .inl ⟨.inr ⟨c, Except.ok.inj hn⟩, rfl⟩⟩
            | device x =>
              cases h
              exact ⟨hleads, .inr ⟨⟨x, Except.ok.inj hn⟩, rfl⟩⟩

/-- Everything of `d` is as it was, and what is new are directories. -/
structure AddsDirectories (d d' : Disk) : Prop where
  here : d'.here = d.here
  node : ∀ l, d'.node? l = d.node? l ∨ d.node? l = none ∧ d'.node? l = some .directory

namespace AddsDirectories

theorem refl (d : Disk) : AddsDirectories d d := ⟨rfl, fun _ => .inl rfl⟩

theorem trans {d d' d'' : Disk} (h : AddsDirectories d d') (h' : AddsDirectories d' d'') :
    AddsDirectories d d'' := by
  refine ⟨h'.here.trans h.here, ?_⟩
  intro l
  rcases h.node l with h1 | ⟨h1, h2⟩
  · rcases h'.node l with h3 | ⟨h3, h4⟩
    · exact .inl (h3.trans h1)
    · exact .inr ⟨h1 ▸ h3, h4⟩
  · rcases h'.node l with h3 | ⟨h3, h4⟩
    · exact .inr ⟨h1, h3.trans h2⟩
    · exact .inr ⟨h1, h4⟩

end AddsDirectories

theorem mkdir_adds {d d' : Disk} {p : Path} (h : d.mkdir p = .ok d') : AddsDirectories d d' := by
  unfold mkdir at h
  split at h
  · cases h
  · cases h
  · next k name slash hr =>
    unfold find at h
    split at h
    · cases h
    · next hf =>
      cases h
      refine ⟨rfl, ?_⟩
      intro l
      rw [node?_put (Location.below_ne_root k name)]
      split at hf
      · cases hf
      · by_cases hl : l = k.below name
        · right
          rw [hl, if_pos rfl]
          exact ⟨Except.ok.inj hf, rfl⟩
        · left
          rw [if_neg hl]
    · cases h

theorem mkdirs_adds (d : Disk) (p : Path) (cs : List Path.Component) :
    AddsDirectories d (d.mkdirs p cs).2 := by
  fun_induction mkdirs d p cs with
  | case1 => exact .refl _
  | case2 => exact .refl _
  | case3 p c up hroot d' hd' => exact mkdir_adds hd'
  | case4 p c up hroot e d' hup he ih => rw [hup] at ih; exact ih
  | case5 p c up hroot d' hup d'' hd'' he ih => rw [hup] at ih; exact ih.trans (mkdir_adds hd'')
  | case6 p c up hroot d' hup e hmk hdir he ih => rw [hup] at ih; exact ih
  | case7 p c up hroot d' hup e hmk hdir he ih => rw [hup] at ih; exact ih
  | case8 => exact .refl _
  | case9 => exact .refl _

theorem mkdirAll_adds (d : Disk) (p : Path) : AddsDirectories d (d.mkdirAll p).2 :=
  mkdirs_adds d p p.components.reverse

end Disk
end DumpRouter
