import Mathlib.Data.List.Induction
import Mathlib.Data.List.Nodup
import Mathlib.Data.List.Perm.Subperm
import DumpRouter.Job.Log

/-!
# DumpRouter.Proofs.Source.Throttle

What a throttle lets pass. Steps are entered in ascending order, each at most once, and a report
passes just if it enters a step above those of all reports before it.

A report overflows just if a hundred times its bytes do not fit into a word, whatever was reported
before. It enters no step, so it does not show in what becomes of the reports behind it. The
percentages of the reports that pass are the true ones.

* `percent?_eq`: the percentage, where there is one.
* `feed_eq`: what one report does.
* `answers_concat`: what becomes of a report behind others. The results on whole sequences of
  reports are inductions on it.
* `log_isSome`: the sizes of input at which no run is brought down by its meter.
-/

namespace DumpRouter
namespace Throttle

/-- How many percent of `total` the bytes are, without words. More bytes than `total` count as all
of it. -/
def share (total bytes : UInt64) : Nat := 100 * min bytes.toNat total.toNat / total.toNat

/-- The product behind the percentage fits into a word. -/
def Fits (total bytes : UInt64) : Prop := 100 * min bytes.toNat total.toNat < UInt64.size

instance (total bytes : UInt64) : Decidable (Fits total bytes) := Nat.decLt _ _

theorem fits_of_total {total : UInt64} (h : 100 * total.toNat < UInt64.size) (bytes : UInt64) :
    Fits total bytes := by
  have hle : min bytes.toNat total.toNat ≤ total.toNat := Nat.min_le_right _ _
  unfold Fits
  omega

theorem fits_iff_of_le {total bytes : UInt64} (hle : total ≤ bytes) :
    Fits total bytes ↔ 100 * total.toNat < UInt64.size := by
  rw [Fits, Nat.min_eq_right (UInt64.le_iff_toNat_le.1 hle)]

theorem share_le (total bytes : UInt64) : share total bytes ≤ 100 := by
  have hmin : 100 * min bytes.toNat total.toNat ≤ total.toNat * 100 := by omega
  exact Nat.div_le_of_le_mul hmin

theorem share_of_le {total bytes : UInt64} (h : 0 < total) (hle : total ≤ bytes) :
    share total bytes = 100 := by
  have hpos : 0 < total.toNat := UInt64.lt_iff_toNat_lt.1 h
  rw [share, Nat.min_eq_right (UInt64.le_iff_toNat_le.1 hle)]
  exact Nat.mul_div_cancel 100 hpos

theorem toNat_share (total bytes : UInt64) :
    (share total bytes).toUInt64.toNat = share total bytes := by
  have hle := share_le total bytes
  exact UInt64.toNat_ofNat_of_lt' (Nat.lt_of_le_of_lt hle (by decide))

theorem toNat_min (a b : UInt64) : (min a b).toNat = min a.toNat b.toNat := by
  rw [UInt64.min_def]
  split
  · next h => exact (Nat.min_eq_left (UInt64.le_iff_toNat_le.1 h)).symm
  · next h =>
    rw [UInt64.le_iff_toNat_le] at h
    exact (Nat.min_eq_right (by omega)).symm

/-- The bound of a hundred never takes effect. -/
theorem percent?_eq (total bytes : UInt64) :
    percent? total bytes =
      if Fits total bytes then some (share total bytes).toUInt64 else none := by
  have hproduct : (min bytes total).toNat * (100 : UInt64).toNat =
      100 * min bytes.toNat total.toNat := by
    rw [toNat_min, Nat.mul_comm]
    rfl
  have hiff : (min bytes total).toNat * (100 : UInt64).toNat < UInt64.size ↔ Fits total bytes := by
    rw [hproduct, Fits]
  unfold percent? product?
  by_cases hfits : Fits total bytes
  · rw [if_pos (hiff.2 hfits), if_pos hfits, Option.map_some]
    refine congrArg some (UInt64.toNat_inj.1 ?_)
    rw [toNat_share, toNat_min, UInt64.toNat_div, UInt64.toNat_mul, hproduct,
      Nat.mod_eq_of_lt hfits]
    exact Nat.min_eq_left (share_le total bytes)
  · rw [if_neg (mt hiff.1 hfits), if_neg hfits, Option.map_none]

/-- A step of the width asked for, moved into the range from 1 to 100. -/
def width (step : UInt64) : Nat := max 1 (min 100 step.toNat)

theorem width_pos (step : UInt64) : 0 < width step := Nat.le_max_left 1 _

theorem width_le (step : UInt64) : width step ≤ 100 := by
  unfold width
  omega

theorem toNat_step_new (total step : UInt64) : (new total step).step.toNat = width step := by
  have h1 : (1 : UInt64).toNat = 1 := rfl
  have h100 : (100 : UInt64).toNat = 100 := rfl
  simp only [new, width, UInt64.lt_iff_toNat_lt, h1, h100]
  split
  · rw [h1]
    omega
  · split
    · rw [h100]
      omega
    · omega

/-- The number of the step that `bytes` of `total` are in, counted from zero. -/
def bucket (total step bytes : UInt64) : Nat := share total bytes / width step

theorem bucket_le (total step bytes : UInt64) : bucket total step bytes ≤ 100 / width step :=
  Nat.div_le_div_right (share_le total bytes)

/-- Of nothing all bytes are in step zero, which is never entered. -/
theorem bucket_zero (step bytes : UInt64) : bucket 0 step bytes = 0 := by
  have h : share 0 bytes = 0 := Nat.div_zero _
  rw [bucket, h, Nat.zero_div]

/-- The step that a report is in as far as the throttle can tell. -/
def known (total step bytes : UInt64) : Nat :=
  if Fits total bytes then bucket total step bytes else 0

/-- A throttle for a whole and a width that has entered `n` as its highest step. -/
structure Entered (total step : UInt64) (n : Nat) (t : Throttle) : Prop where
  total : t.total = total
  width : t.step.toNat = width step
  reached : t.reached.toNat = n

variable {total step : UInt64} {n : Nat} {t : Throttle}

theorem entered_new (total step : UInt64) : Entered total step 0 (new total step) :=
  ⟨rfl, toNat_step_new total step, rfl⟩

/-- A report passes if it is in a higher step than any before, which it then enters. -/
theorem feed_eq (h : Entered total step n t) (b : UInt64) :
    (t.feed b).1 =
        (if Fits total b then
          if n < bucket total step b then .passed b (share total b).toUInt64 else .held
        else .overflow) ∧
      Entered total step (max n (known total step b)) (t.feed b).2 := by
  obtain ⟨rfl, hwidth, rfl⟩ := h
  have hbucket : ((share t.total b).toUInt64 / t.step).toNat = bucket t.total step b := by
    rw [UInt64.toNat_div, hwidth, toNat_share, bucket]
  have hhigher : t.reached < (share t.total b).toUInt64 / t.step ↔
      t.reached.toNat < bucket t.total step b := by
    rw [UInt64.lt_iff_toNat_lt, hbucket]
  unfold feed known
  by_cases htotal : t.total = 0
  · have hzero : bucket t.total step b = 0 := by rw [htotal, bucket_zero]
    have hfits : Fits t.total b := fits_of_total (by rw [htotal]; decide) b
    rw [if_pos htotal, if_pos hfits, if_pos hfits, hzero, if_neg (Nat.not_lt_zero _),
      Nat.max_eq_left (Nat.zero_le _)]
    exact ⟨rfl, rfl, hwidth, rfl⟩
  · rw [if_neg htotal, percent?_eq]
    by_cases hfits : Fits t.total b
    · rw [if_pos hfits, if_pos hfits, if_pos hfits]
      dsimp only
      by_cases hlt : t.reached.toNat < bucket t.total step b
      · rw [if_pos hlt, if_pos (hhigher.2 hlt), Nat.max_eq_right (Nat.le_of_lt hlt)]
        exact ⟨rfl, rfl, hwidth, hbucket⟩
      · rw [if_neg hlt, if_neg (mt hhigher.1 hlt), Nat.max_eq_left (Nat.le_of_not_lt hlt)]
        exact ⟨rfl, rfl, hwidth, rfl⟩
    · rw [if_neg hfits, if_neg hfits, if_neg hfits, Nat.max_eq_left (Nat.zero_le _)]
      exact ⟨rfl, rfl, hwidth, rfl⟩

/-- The throttle behind reports. -/
def after (t : Throttle) (bs : List UInt64) : Throttle := bs.foldl (fun t b => (t.feed b).2) t

theorem answers_append (t : Throttle) (bs cs : List UInt64) :
    t.answers (bs ++ cs) = t.answers bs ++ (t.after bs).answers cs := by
  induction bs generalizing t with
  | nil => rfl
  | cons b bs ih =>
    rw [List.cons_append, answers, answers, ih, List.cons_append]
    rfl

/-- The highest step that any of the bytes are known to be in. -/
def highest (total step : UInt64) (bs : List UInt64) : Nat :=
  bs.foldl (fun n b => max n (known total step b)) 0

theorem known_lt_iff {m : Nat} (hm : 0 < m) (b : UInt64) :
    known total step b < m ↔ (Fits total b → bucket total step b < m) := by
  unfold known
  split
  · next hfits => simp [hfits]
  · next hfits => simp [hfits, hm]

theorem highest_lt_iff {bs : List UInt64} {m : Nat} (hm : 0 < m) :
    highest total step bs < m ↔ ∀ b ∈ bs, Fits total b → bucket total step b < m := by
  induction bs using List.reverseRecOn with
  | nil => simpa [highest] using hm
  | append_singleton bs b ih =>
    rw [highest, List.foldl_concat, ← highest, Nat.max_lt, ih, known_lt_iff hm]
    simp [or_imp, forall_and]

theorem entered_after (total step : UInt64) (bs : List UInt64) :
    Entered total step (highest total step bs) ((new total step).after bs) := by
  induction bs using List.reverseRecOn with
  | nil => exact entered_new total step
  | append_singleton bs b ih =>
    rw [after, highest, List.foldl_concat, List.foldl_concat]
    exact (feed_eq ih b).2

/-- The bytes are in a step, from the first on, that is above the steps of all bytes before but
those that overflowed. -/
def Enters (total step : UInt64) (before : List UInt64) (b : UInt64) : Prop :=
  1 ≤ bucket total step b ∧
    ∀ c ∈ before, Fits total c → bucket total step c < bucket total step b

theorem highest_lt_bucket_iff {bs : List UInt64} {b : UInt64} :
    highest total step bs < bucket total step b ↔ Enters total step bs b := by
  constructor
  · intro h
    exact ⟨by omega, (highest_lt_iff (by omega)).1 h⟩
  · rintro ⟨hpos, h⟩
    exact (highest_lt_iff hpos).2 h

instance (bs : List UInt64) (b : UInt64) : Decidable (Enters total step bs b) :=
  decidable_of_iff _ highest_lt_bucket_iff

/-- What becomes of a report behind others. -/
def answerBehind (total step : UInt64) (before : List UInt64) (b : UInt64) : Answer :=
  if Fits total b then
    if Enters total step before b then .passed b (share total b).toUInt64 else .held
  else .overflow

theorem answerBehind_eq_overflow_iff {bs : List UInt64} {b : UInt64} :
    answerBehind total step bs b = .overflow ↔ ¬ Fits total b := by
  unfold answerBehind
  split
  · next hfits => split <;> simp [hfits]
  · next hfits => simp [hfits]

theorem answerBehind_eq_passed {bs : List UInt64} {b : UInt64} {r : UInt64 × UInt64}
    (h : (answerBehind total step bs b).passed? = some r) :
    r.1 = b ∧ Fits total b ∧ Enters total step bs b ∧ r.2.toNat = share total b := by
  unfold answerBehind at h
  split at h
  · next hfits =>
    split at h
    · next henters =>
      cases h
      exact ⟨rfl, hfits, henters, toNat_share total b⟩
    · cases h
  · cases h

theorem answers_concat (total step : UInt64) (bs : List UInt64) (b : UInt64) :
    (new total step).answers (bs ++ [b]) =
      (new total step).answers bs ++ [answerBehind total step bs b] := by
  have hfeed := (feed_eq (entered_after total step bs) b).1
  rw [if_congr highest_lt_bucket_iff rfl rfl] at hfeed
  rw [answers_append, answers, answers, hfeed, answerBehind]

theorem passed_concat (total step : UInt64) (bs : List UInt64) (b : UInt64) :
    (new total step).passed (bs ++ [b]) =
      (new total step).passed bs ++ (answerBehind total step bs b).passed?.toList := by
  rw [passed, answers_concat, List.filterMap_append, ← passed]
  cases h : (answerBehind total step bs b).passed? <;> simp [h]

theorem of_mem_passed {bs : List UInt64} {r : UInt64 × UInt64}
    (h : r ∈ (new total step).passed bs) :
    r.1 ∈ bs ∧ Fits total r.1 ∧ r.2.toNat = share total r.1 ∧ 1 ≤ bucket total step r.1 := by
  induction bs using List.reverseRecOn with
  | nil => cases h
  | append_singleton bs b ih =>
    rw [passed_concat, List.mem_append, Option.mem_toList] at h
    rcases h with h | h
    · obtain ⟨hmem, hrest⟩ := ih h
      exact ⟨List.mem_append_left _ hmem, hrest⟩
    · obtain ⟨rfl, hfits, henters, hshare⟩ := answerBehind_eq_passed h
      exact ⟨by simp, hfits, hshare, henters.1⟩

/-- The steps that the reports of a sequence are in, by their own percentages. -/
def buckets (step : UInt64) (rs : List (UInt64 × UInt64)) : List Nat :=
  rs.map fun r => r.2.toNat / width step

theorem buckets_passed (total step : UInt64) (bs : List UInt64) :
    buckets step ((new total step).passed bs) =
      ((new total step).passed bs).map fun r => bucket total step r.1 := by
  refine List.map_congr_left fun r hr => ?_
  rw [(of_mem_passed hr).2.2.1, bucket]

theorem buckets_ascending (total step : UInt64) (bs : List UInt64) :
    (buckets step ((new total step).passed bs)).Pairwise (· < ·) := by
  rw [buckets_passed, List.pairwise_map]
  induction bs using List.reverseRecOn with
  | nil => exact .nil
  | append_singleton bs b ih =>
    rw [passed_concat]
    refine List.pairwise_append.2 ⟨ih, ?_, fun r hr s hs => ?_⟩
    · cases (answerBehind total step bs b).passed? with
      | none => exact .nil
      | some r => exact List.pairwise_singleton _ _
    · obtain ⟨rfl, -, henters, -⟩ := answerBehind_eq_passed (Option.mem_toList.1 hs)
      obtain ⟨hmem, hfits, -⟩ := of_mem_passed hr
      exact henters.2 r.1 hmem hfits

theorem mem_buckets {bs : List UInt64} {m : Nat}
    (h : m ∈ buckets step ((new total step).passed bs)) : 1 ≤ m ∧ m ≤ 100 / width step := by
  rw [buckets_passed] at h
  obtain ⟨r, hr, rfl⟩ := List.mem_map.1 h
  exact ⟨(of_mem_passed hr).2.2.2, bucket_le total step r.1⟩

/-- There is room for as many reports as there are steps behind step zero. -/
theorem length_passed_le (total step : UInt64) (bs : List UInt64) :
    ((new total step).passed bs).length ≤ 100 / width step := by
  have hnodup : (buckets step ((new total step).passed bs)).Nodup :=
    (buckets_ascending total step bs).imp Nat.ne_of_lt
  have hsub : buckets step ((new total step).passed bs) ⊆ List.range' 1 (100 / width step) := by
    intro m hm
    have := mem_buckets hm
    exact List.mem_range'_1.2 (by omega)
  have hlen := (List.subperm_of_subset hnodup hsub).length_le
  rwa [buckets, List.length_map, List.length_range'] at hlen

theorem answers_zero (step : UInt64) (bs : List UInt64) :
    (new 0 step).answers bs = List.replicate bs.length .held := by
  induction bs using List.reverseRecOn with
  | nil => rfl
  | append_singleton bs b ih =>
    have henters : ¬ Enters 0 step bs b := by
      intro h
      have := h.1
      rw [bucket_zero] at this
      omega
    have hheld : answerBehind 0 step bs b = .held := by
      rw [answerBehind, if_pos (fits_of_total (by decide) b), if_neg henters]
    rw [answers_concat, ih, hheld, List.length_append, List.length_singleton,
      List.replicate_succ']

/-- Whatever is reported, in whatever order: the steps of the reports that pass ascend from the
first on, so that there are no more of them than steps. A report whose product fits into a word
passes just if it enters a step, and one whose product does not fit overflows. Of nothing no report
passes. -/
theorem passed_once (total step : UInt64) (bs : List UInt64) :
    (buckets step ((new total step).passed bs)).Pairwise (· < ·) ∧
      (∀ m ∈ buckets step ((new total step).passed bs), 1 ≤ m) ∧
      ((new total step).passed bs).length ≤ 100 / width step ∧
      (∀ b, (new total step).answers (bs ++ [b]) =
        (new total step).answers bs ++ [answerBehind total step bs b]) ∧
      (new 0 step).answers bs = List.replicate bs.length .held :=
  ⟨buckets_ascending total step bs, fun _ hm => (mem_buckets hm).1, length_passed_le total step bs,
    answers_concat total step bs, answers_zero step bs⟩

/-- Reports that go back and beyond the whole, in steps that do not divide a hundred. -/
theorem passed_once_backAndBeyond :
    (new 200 33).passed [100, 20, 150, 120, 500] = [(100, 50), (150, 75), (500, 100)] ∧
      buckets 33 [(100, 50), (150, 75), (500, 100)] = [1, 2, 3] ∧
      [1, 2, 3].Pairwise (· < ·) ∧ 2 ∈ [1, 2, 3] ∧ 1 ≤ 2 ∧ 3 ≤ 100 / width 33 := by
  have hpassed : (new 200 33).passed [100, 20, 150, 120, 500] =
    [(100, 50), (150, 75), (500, 100)] := by decide
  have hbuckets : buckets 33 [(100, 50), (150, 75), (500, 100)] = [1, 2, 3] := by decide
  obtain ⟨hasc, hfirst, hlen, -⟩ := passed_once 200 33 [100, 20, 150, 120, 500]
  rw [hpassed] at hasc hfirst hlen
  rw [hbuckets] at hasc hfirst
  have hmem : 2 ∈ [1, 2, 3] := by decide
  exact ⟨hpassed, hbuckets, hasc, hmem, hfirst 2 hmem, hlen⟩

/-- All reports that pass have the true percentage. A report overflows, whatever was reported
before, just if the product does not fit into a word. So a first report of all bytes passes with a
hundred percent if a hundred times the whole fits, and overflows otherwise. -/
theorem passed_percent (total step : UInt64) :
    (∀ bs, ∀ r ∈ (new total step).passed bs, r.2.toNat = share total r.1) ∧
      (∀ bs b, (new total step).answers (bs ++ [b]) = (new total step).answers bs ++ [.overflow] ↔
        ¬ Fits total b) ∧
      ∀ b, 0 < total → total ≤ b →
        ((new total step).feed b).1 =
          if 100 * total.toNat < UInt64.size then .passed b 100 else .overflow := by
  refine ⟨fun bs r hr => (of_mem_passed hr).2.2.1, fun bs b => ?_, fun b hpos hb => ?_⟩
  · rw [answers_concat, List.append_cancel_left_eq, List.singleton_inj]
    exact answerBehind_eq_overflow_iff
  · have hall : share total b = 100 := share_of_le hpos hb
    have hbucket : 0 < bucket total step b := by
      rw [bucket, hall]
      exact Nat.div_pos (width_le step) (width_pos step)
    rw [(feed_eq (entered_new total step) b).1, if_pos hbucket, hall]
    exact if_congr (fits_iff_of_le hb) rfl rfl

/-- The largest whole that a hundred times fits into a word, and one byte more. -/
theorem passed_percent_border :
    (0 : UInt64) < 184467440737095516 ∧
      ((new 184467440737095516 5).feed 184467440737095516).1 = .passed 184467440737095516 100 ∧
      ((new 184467440737095517 5).feed 184467440737095517).1 = .overflow ∧
      (200, 100) ∈ (new 200 5).passed [200] ∧ share 200 200 = 100 := by
  have hpos : (0 : UInt64) < 184467440737095516 := by decide
  have hfits := (passed_percent 184467440737095516 5).2.2 184467440737095516 hpos (by decide)
  have hover := (passed_percent 184467440737095517 5).2.2 184467440737095517 (by decide) (by decide)
  have hmem : (200, 100) ∈ (new 200 5).passed [200] := by decide
  have hshare := (passed_percent 200 5).1 [200] (200, 100) hmem
  exact ⟨hpos, hfits.trans (if_pos (by decide)), hover.trans (if_neg (by decide)), hmem,
    hshare.symm⟩

def exbibyte : UInt64 := 1152921504606846976

def eighth : UInt64 := 144115188075855872

/-- A hundred times an exbibyte is more than a word holds. -/
theorem not_percent_of_exbibyte : ¬ ∀ total step : UInt64, 0 < total →
    (∀ bs, ∀ r ∈ (new total step).passed bs, r.2.toNat = share total r.1) ∧
      (∀ bs, Answer.overflow ∉ (new total step).answers bs) ∧
      ∀ b, total ≤ b → ((new total step).feed b).1 = .passed b 100 := by
  intro h
  obtain ⟨-, hnone, -⟩ := h exbibyte 1 (by decide)
  exact hnone [exbibyte] (by decide)

/-- Of an exbibyte an eighth is reported, and then all of it, which is in a higher step. -/
theorem not_passed_of_exbibyte : ¬ ∀ (total step : UInt64) (bs : List UInt64) (b : UInt64),
    0 < total →
      ((∃ p, (new total step).answers (bs ++ [b]) =
          (new total step).answers bs ++ [.passed b p]) ↔
        1 ≤ bucket total step b ∧ ∀ c ∈ bs, bucket total step c < bucket total step b) := by
  intro h
  have hhigher : 1 ≤ bucket exbibyte 1 exbibyte ∧
      ∀ c ∈ [eighth], bucket exbibyte 1 c < bucket exbibyte 1 exbibyte :=
    ⟨by decide, List.forall_mem_singleton.2 (by decide)⟩
  have hanswers : (new exbibyte 1).answers ([eighth] ++ [exbibyte]) =
      [.passed eighth 12, .overflow] := by decide
  have hfirst : (new exbibyte 1).answers [eighth] = [.passed eighth 12] := by decide
  obtain ⟨p, hp⟩ := (h exbibyte 1 [eighth] exbibyte (by decide)).2 hhigher
  rw [hanswers, hfirst] at hp
  cases hp

/-! ## The log of a run -/

theorem total_feed (t : Throttle) (b : UInt64) : (t.feed b).2.total = t.total := by
  unfold feed
  split
  · rfl
  · split
    · rfl
    · dsimp only
      split <;> rfl

theorem feed_ne_overflow {b : UInt64} (h : Fits t.total b) : (t.feed b).1 ≠ .overflow := by
  unfold feed
  split
  · nofun
  · rw [percent?_eq, if_pos h]
    dsimp only
    split <;> nofun

theorem logLines_isSome (h : ∀ b, Fits t.total b) (es : List Event) :
    (logLines t es).isSome = true := by
  fun_induction logLines t es with
  | case1 => rfl
  | case2 t n es b p t' hfeed ih =>
    have htotal := total_feed t n.toUInt64
    rw [hfeed] at htotal
    rw [Option.isSome_map]
    exact ih (htotal ▸ h)
  | case3 t n es t' hfeed ih =>
    have htotal := total_feed t n.toUInt64
    rw [hfeed] at htotal
    exact ih (htotal ▸ h)
  | case4 t n es t' hfeed =>
    have hne := feed_ne_overflow (h n.toUInt64)
    rw [hfeed] at hne
    exact absurd rfl hne
  | case5 t e es he ih =>
    rw [Option.isSome_map]
    exact ih h

/-- A run on an input of which a hundred times the size fits into a word has a log. -/
theorem log_isSome {inputSize : Nat} (h : 100 * inputSize < UInt64.size) (s : Site) :
    (s.log inputSize).isSome = true := by
  have hsize : inputSize.toUInt64.toNat = inputSize := UInt64.toNat_ofNat_of_lt' (by omega)
  refine logLines_isSome (fun b => fits_of_total ?_ b) _
  rw [new, hsize]
  exact h

end Throttle
end DumpRouter
