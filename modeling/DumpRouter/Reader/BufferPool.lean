import DumpRouter.Bytes

/-!
# DumpRouter.Reader.BufferPool

Buffers that statements are put together in. A buffer is taken from the pool and given back when
the statement has been copied out; what it held is gone by then.

`Clean` holds of a pool whose buffers are all empty and not more than it may keep; taking and
giving back preserve it.
-/

namespace DumpRouter

structure BufferPool where
  /-- The buffers at rest, the one given back last in front. -/
  free : List Bytes
  /-- How many buffers may rest in the pool. -/
  maxPooled : Nat

namespace BufferPool

def defaultMaxPooled : Nat := 8

def new (maxPooled : Nat) : BufferPool := ⟨[], maxPooled⟩

def available (p : BufferPool) : Nat := p.free.length

/-- Takes the buffer given back last, or a new one. -/
def checkout (p : BufferPool) : Bytes × BufferPool :=
  match p.free with
  | b :: rest => (b, { p with free := rest })
  | [] => ([], p)

/-- Empties a buffer and keeps it, if there is room for it. -/
def checkin (p : BufferPool) (_ : Bytes) : BufferPool :=
  if p.free.length < p.maxPooled then { p with free := [] :: p.free } else p

structure Clean (p : BufferPool) : Prop where
  empty : ∀ b ∈ p.free, b = []
  fits : p.free.length ≤ p.maxPooled

theorem clean_new (n : Nat) : (new n).Clean := ⟨by simp [new], by simp [new]⟩

theorem clean_checkout {p : BufferPool} (h : p.Clean) :
    p.checkout.1 = [] ∧ p.checkout.2.Clean := by
  obtain ⟨free, n⟩ := p
  cases free with
  | nil => exact ⟨rfl, h⟩
  | cons b rest =>
    refine ⟨h.empty b (by simp), fun c hc => h.empty c (by simp_all [checkout]), ?_⟩
    have := h.fits
    simp [checkout] at this ⊢
    omega

theorem clean_checkin {p : BufferPool} (h : p.Clean) (b : Bytes) : (p.checkin b).Clean := by
  unfold checkin
  split
  · next hlt =>
    refine ⟨fun c hc => ?_, Nat.succ_le_of_lt hlt⟩
    rcases List.mem_cons.1 hc with rfl | hc
    · rfl
    · exact h.empty c hc
  · exact h

end BufferPool
end DumpRouter
