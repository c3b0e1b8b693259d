import DumpRouter.Disk.Basic
import DumpRouter.Source.Script

/-!
# DumpRouter.Source.Input

Where statements are read from: a scripted source, or a file as it is on the disk at the time of
each read. An input may be metered; then it reports after each read that succeeds how many bytes
have been delivered in all. That is a plain number: no input delivers 2^64 bytes, which a word could
not count.

`Source.remaining` bounds the reads to come: it drops with every byte delivered and with every
interruption, so that loops over a source end.
-/

namespace DumpRouter

/-- The system lets no file grow beyond this many bytes. -/
def longestFile : Nat := 0x7FFFFFFFFFFFFFFF

inductive Source where
  | script (s : Script)
  | file (location : Location) (offset : Nat)
  deriving DecidableEq, Repr

namespace Source

def read (d : Disk) (n : Nat) : Source → Delivery × Source
  | .script s =>
    match s.read n with
    | (x, s') => (x, .script s')
  | .file l offset =>
    match d.node? l with
    | some (.file c) =>
      let b := Bytes.unpack (c.extract offset (offset + min n (longestFile - offset)))
      (.bytes b, .file l (offset + b.length))
    | some (.device _) => (.bytes [], .file l offset)
    | _ => (.failed (.system .isDirectory), .file l offset)

def remaining : Source → Nat
  | .script s => s.size
  | .file _ offset => longestFile - offset

theorem remaining_read_bytes {d : Disk} {n : Nat} {s s' : Source} {b : Bytes}
    (h : s.read d n = (.bytes b, s')) : s'.remaining + b.length ≤ s.remaining := by
  cases s with
  | script s =>
    simp only [read, Prod.mk.injEq] at h
    obtain ⟨h1, rfl⟩ := h
    exact Script.size_read_bytes (Prod.ext h1 rfl)
  | file l offset =>
    simp only [read] at h
    split at h
    · obtain ⟨h1, rfl⟩ := Prod.mk.inj h
      obtain rfl := Delivery.bytes.inj h1
      simp only [remaining, Bytes.length_unpack, ByteArray.size_extract]
      omega
    · cases h; simp
    · cases h

theorem remaining_read_interrupted {d : Disk} {n : Nat} {s s' : Source}
    (h : s.read d n = (.interrupted, s')) : s'.remaining < s.remaining := by
  cases s with
  | script s =>
    simp only [read, Prod.mk.injEq] at h
    obtain ⟨h1, rfl⟩ := h
    exact Script.size_read_interrupted (Prod.ext h1 rfl)
  | file l offset =>
    simp only [read] at h
    split at h <;> cases h

theorem remaining_read_le (d : Disk) (n : Nat) (s : Source) :
    (s.read d n).2.remaining ≤ s.remaining := by
  cases s with
  | script s => exact Script.size_read_le n s
  | file l offset =>
    simp only [read]
    split <;> simp only [remaining] <;> omega

end Source

structure Input where
  source : Source
  /-- Whether reads are reported. -/
  metered : Bool
  delivered : Nat
  /-- The reports made, the latest in front. -/
  reports : List Nat
  deriving DecidableEq, Repr

namespace Input

def new (source : Source) (metered : Bool) : Input := ⟨source, metered, 0, []⟩

/-- Reads at most `n` bytes. A read that fails or is interrupted is not reported. -/
def read (d : Disk) (n : Nat) (i : Input) : Delivery × Input :=
  match i.source.read d n with
  | (.bytes b, s) =>
    let delivered := i.delivered + b.length
    (.bytes b, ⟨s, i.metered, delivered, if i.metered then delivered :: i.reports else i.reports⟩)
  | (x, s) => (x, { i with source := s })

/-- Reads once for each number, at most so many bytes. -/
def readEach (d : Disk) (i : Input) : List Nat → List Delivery × Input
  | [] => ([], i)
  | n :: ns =>
    let (x, i') := i.read d n
    let (xs, i'') := readEach d i' ns
    (x :: xs, i'')

/-- The bytes that have not been delivered. For a file they are those behind the place where it is
read. -/
def undelivered (d : Disk) (i : Input) : Nat :=
  match i.source with
  | .script s => s.undelivered
  | .file l offset =>
    match d.node? l with
    | some (.file c) => c.size - offset
    | _ => 0

theorem remaining_read_bytes {d : Disk} {n : Nat} {i i' : Input} {b : Bytes}
    (h : i.read d n = (.bytes b, i')) :
    i'.source.remaining + b.length ≤ i.source.remaining := by
  unfold read at h
  split at h
  · next c s hs =>
    obtain ⟨h1, rfl⟩ := Prod.mk.inj h
    obtain rfl := Delivery.bytes.inj h1
    exact Source.remaining_read_bytes hs
  · next x s hx hs =>
    obtain ⟨rfl, rfl⟩ := Prod.mk.inj h
    exact absurd rfl (hx b)

theorem remaining_read_interrupted {d : Disk} {n : Nat} {i i' : Input}
    (h : i.read d n = (.interrupted, i')) : i'.source.remaining < i.source.remaining := by
  unfold read at h
  split at h
  · cases h
  · next x s hx hs =>
    obtain ⟨rfl, rfl⟩ := Prod.mk.inj h
    exact Source.remaining_read_interrupted hs

theorem remaining_read_le (d : Disk) (n : Nat) (i : Input) :
    (i.read d n).2.source.remaining ≤ i.source.remaining := by
  have := Source.remaining_read_le d n i.source
  unfold read
  split <;> simp_all

end Input
end DumpRouter
