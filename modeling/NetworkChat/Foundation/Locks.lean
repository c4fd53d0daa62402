import Mathlib.Logic.Function.Basic

/-!
# Locks and the threads that hold them

A lock is held by at most one thread (`holder`). What a thread holds can also be
read off its place in its program (`holds`), and the two agree in a program that
locks and unlocks in pairs (`Coherent`). Taking a free lock, giving one back and
every step that does neither keep them in agreement (`Coherent.move`).

Two threads wait for each other when each holds the lock that the other one asks
for (`WaitForEachOther`).
-/

set_option autoImplicit false

namespace NetworkChat.Foundation

variable {Thread Lock : Type*} {holder : Lock → Option Thread} {holds holds' : Thread → Lock → Bool}

/-- The holder of a lock is the thread whose place in its program says so. -/
def Coherent (holder : Lock → Option Thread) (holds : Thread → Lock → Bool) : Prop :=
  ∀ lock thread, holder lock = some thread ↔ holds thread lock = true

/-- Two threads, each holding the lock that the other one asks for. -/
def WaitForEachOther (holder : Lock → Option Thread) (wants : Thread → Option Lock)
    (first second : Lock) : Prop :=
  ∃ one other, holder first = some one ∧ wants one = some second ∧
    holder second = some other ∧ wants other = some first

theorem Coherent.keep (coherent : Coherent holder holds)
    (same : ∀ thread lock, holds' thread lock = holds thread lock) : Coherent holder holds' := by
  intro lock thread
  rw [same]
  exact coherent lock thread

variable [DecidableEq Lock]

/-- Taking a free lock. -/
theorem Coherent.acquire (coherent : Coherent holder holds) {lock : Lock} {thread : Thread}
    (free : holder lock = none) (taken : holds' thread lock = true)
    (same : ∀ other otherLock, (other ≠ thread ∨ otherLock ≠ lock) →
      holds' other otherLock = holds other otherLock) :
    Coherent (Function.update holder lock (some thread)) holds' := by
  intro otherLock other
  by_cases sameLock : otherLock = lock
  · subst sameLock
    rw [Function.update_self, Option.some.injEq]
    constructor
    · rintro rfl
      exact taken
    · intro holdsIt
      by_contra different
      rw [same other otherLock (.inl (Ne.symm different)), ← coherent, free] at holdsIt
      cases holdsIt
  · rw [Function.update_of_ne sameLock, same other otherLock (.inr sameLock)]
    exact coherent otherLock other

/-- Giving a lock back. -/
theorem Coherent.release (coherent : Coherent holder holds) {lock : Lock} {thread : Thread}
    (held : holds thread lock = true) (given : holds' thread lock = false)
    (same : ∀ other otherLock, (other ≠ thread ∨ otherLock ≠ lock) →
      holds' other otherLock = holds other otherLock) :
    Coherent (Function.update holder lock none) holds' := by
  intro otherLock other
  by_cases sameLock : otherLock = lock
  · subst sameLock
    rw [Function.update_self]
    refine iff_of_false nofun ?_
    intro holdsIt
    by_cases different : other = thread
    · subst different
      exact absurd (given.symm.trans holdsIt) (by decide)
    · rw [same other otherLock (.inl different), ← coherent, (coherent _ _).mpr held] at holdsIt
      exact different (Option.some.inj holdsIt).symm
  · rw [Function.update_of_ne sameLock, same other otherLock (.inr sameLock)]
    exact coherent otherLock other

/-- What a thread does to the locks in one step: it takes a free one, gives back one that it
holds, or does neither, and its place in its program follows. -/
inductive LockMove (thread : Thread) (holder : Lock → Option Thread) (held : Lock → Bool)
    (holder' : Lock → Option Thread) (held' : Lock → Bool) : Prop where
  | acquire (lock : Lock) (free : holder lock = none)
      (taken : holder' = Function.update holder lock (some thread))
      (follows : held' = Function.update held lock true)
  | release (lock : Lock) (has : held lock = true)
      (given : holder' = Function.update holder lock none)
      (follows : held' = Function.update held lock false)
  | keep (sameHolder : holder' = holder) (same : held' = held)

/-- **A step of one thread keeps the holders and the places in agreement.** -/
theorem Coherent.move (coherent : Coherent holder holds) {thread : Thread}
    {holder' : Lock → Option Thread}
    (move : LockMove thread holder (holds thread) holder' (holds' thread))
    (others : ∀ other ≠ thread, holds' other = holds other) : Coherent holder' holds' := by
  -- the thread itself knows of another lock what it knew before
  have elsewhere : ∀ {lock : Lock} {held : Bool},
      holds' thread = Function.update (holds thread) lock held → ∀ other otherLock,
        (other ≠ thread ∨ otherLock ≠ lock) → holds' other otherLock = holds other otherLock := by
    intro lock held follows other otherLock different
    by_cases same : other = thread
    · subst same
      rw [follows, Function.update_of_ne (different.resolve_left fun notSame => notSame rfl)]
    · rw [others other same]
  cases move with
  | acquire lock free taken follows =>
      subst taken
      exact coherent.acquire free (by rw [follows, Function.update_self]) (elsewhere follows)
  | release lock has given follows =>
      subst given
      exact coherent.release has (by rw [follows, Function.update_self]) (elsewhere follows)
  | keep sameHolder same =>
      subst sameHolder
      refine coherent.keep fun other lock => ?_
      by_cases isThread : other = thread
      · subst isThread
        rw [same]
      · rw [others other isThread]

end NetworkChat.Foundation
