import Mxfs.Defs
import Mxfs.Lib.Run

/-!
# Mxfs.Lifecycle

The singleton counter and its mutex over the calls that create and release
instances, in the builds with the mutex.  What a create sets the new instance
to is `mount`; here only the order of the steps matters: the lock is taken and
given back before the allocations and the driver's setup, and several error
paths return in between.
-/

namespace Mxfs

open Lib

/-! ## the calls -/

/-- What the environment answers a create: the allocations of the instance and
of each layer's buffer, and the driver's two setup functions. -/
structure Setup where
  inst : Bool
  buffer : Layer → Bool
  createGpio : Int
  createSpi : Int

/-- The allocations and the setup of `mxfs_create_instance`, after the lock. -/
def Setup.result (x : Setup) : Int :=
  if !x.inst then ERR
  else if Layer.all.any (fun n => !x.buffer n) then ERR
  else if x.createGpio ≠ OK then ERR
  else if x.createSpi ≠ OK then ERR
  else OK

/-- `singleton`, whether `singleton_lock` is held, the instances created and not
freed, and the number of instances ever created. -/
structure Lifecycle where
  singleton : Int
  singletonLock : Bool
  alive : List Nat
  created : Nat
  deriving DecidableEq

/-- How a call ends: it waits for the lock forever, it frees an instance that
was freed before, or it returns. -/
inductive Ending where
  | blocked
  | undefined
  | returned (ret : Int) (s : Lifecycle)
  deriving DecidableEq

namespace Lifecycle

/-- Nothing created, the lock free. -/
def start : Lifecycle := ⟨0, false, [], 0⟩

def mxfsCreateInstance (s : Lifecycle) (setup : Setup) : Ending :=
  if s.singletonLock then .blocked
  -- the lock is not given back
  else if s.singleton ≠ 0 then .returned ERR { s with singletonLock := true }
  else if setup.result ≠ OK then .returned setup.result { s with singleton := s.singleton + 1 }
  else .returned OK
    { s with
      singleton := s.singleton + 1
      alive := s.created :: s.alive
      created := s.created + 1 }

/-- `inst` is null or the number of an instance; the driver answers its two
release functions with `releaseGpio` and `releaseSpi`. -/
def mxfsReleaseInstance (s : Lifecycle) (inst : Option Nat) (releaseGpio releaseSpi : Int) :
    Ending :=
  match inst with
  | none => .returned ERR s
  | some i =>
    if s.singletonLock then .blocked
    -- the lock is not given back
    else if s.singleton = 0 then .returned ERR { s with singletonLock := true }
    else if i ∉ s.alive then .undefined
    else if releaseGpio ≠ OK then .returned ERR { s with singleton := s.singleton - 1 }
    else if releaseSpi ≠ OK then .returned ERR { s with singleton := s.singleton - 1 }
    else .returned OK { s with singleton := s.singleton - 1, alive := s.alive.erase i }

end Lifecycle

/-- A call with the answers it gets. -/
inductive LifeCall where
  | create (setup : Setup)
  | release (inst : Option Nat) (releaseGpio releaseSpi : Int)

namespace Lifecycle

def call (s : Lifecycle) : LifeCall → Ending
  | .create setup => s.mxfsCreateInstance setup
  | .release inst releaseGpio releaseSpi => s.mxfsReleaseInstance inst releaseGpio releaseSpi

/-- The state after a call; one that does not return leaves it. -/
def next (s : Lifecycle) (c : LifeCall) : Lifecycle :=
  match s.call c with
  | .blocked => s
  | .undefined => s
  | .returned _ t => t

end Lifecycle

/-! ## what a call should do -/

/-- The call returns, leaves the lock free and at most one instance alive, a
create that fails leaves the counter, and with no instance alive a create whose
allocations and setup succeed is served. -/
structure Lawful (s : Lifecycle) (c : LifeCall) : Prop where
  returns : ∃ ret, s.call c = .returned ret (s.next c)
  free : (s.next c).singletonLock = false
  one : (s.next c).alive.length ≤ 1
  kept : ∀ setup, c = .create setup → s.call c = .returned ERR (s.next c) →
    (s.next c).singleton = s.singleton
  again : (s.next c).alive = [] → ∀ setup : Setup, setup.result = OK →
    ∃ t, (s.next c).mxfsCreateInstance setup = .returned OK t

/-- A create is made with no instance alive and the counter at zero, and its
allocations and setup succeed; a release is given null, or an instance alive
that the counter counts. -/
def Guarded (s : Lifecycle) : LifeCall → Prop
  | .create setup => s.singleton = 0 ∧ s.alive = [] ∧ setup.result = OK
  | .release none _ _ => True
  | .release (some i) _ _ => s.singleton ≠ 0 ∧ i ∈ s.alive

/-- The lock is free, at most one instance is alive and the counter is one at
most and zero when none is alive. -/
structure Counted (s : Lifecycle) : Prop where
  free : s.singletonLock = false
  one : s.alive.length ≤ 1
  singleton : s.singleton = 0 ∨ s.singleton = 1
  none : s.alive = [] → s.singleton = 0

theorem Setup.result_cases (x : Setup) : x.result = OK ∨ x.result = ERR := by
  unfold Setup.result
  split <;> [simp; split <;> [simp; split <;> [simp; split <;> simp]]]

theorem counted_start : Counted Lifecycle.start := by
  constructor <;> simp [Lifecycle.start]

/-! ## creates -/

section create

variable {s : Lifecycle} {setup : Setup}

theorem create_refused (hfree : s.singletonLock = false) (h : s.singleton ≠ 0) :
    s.mxfsCreateInstance setup = .returned ERR { s with singletonLock := true } := by
  simp [Lifecycle.mxfsCreateInstance, hfree, h]

theorem create_failed (hfree : s.singletonLock = false) (h : s.singleton = 0)
    (hsetup : setup.result = ERR) :
    s.mxfsCreateInstance setup = .returned ERR { s with singleton := 1 } := by
  simp [Lifecycle.mxfsCreateInstance, hfree, h, hsetup]

theorem create_served (hfree : s.singletonLock = false) (h : s.singleton = 0)
    (hsetup : setup.result = OK) :
    s.mxfsCreateInstance setup = .returned OK
      { s with singleton := 1, alive := s.created :: s.alive, created := s.created + 1 } := by
  simp [Lifecycle.mxfsCreateInstance, hfree, h, hsetup]

theorem Counted.again (h : Counted s) (hnone : s.alive = []) (hsetup : setup.result = OK) :
    ∃ t, s.mxfsCreateInstance setup = .returned OK t :=
  ⟨_, create_served h.free (h.none hnone) hsetup⟩

theorem next_returned {c : LifeCall} {ret : Int} {t : Lifecycle}
    (h : s.call c = .returned ret t) : s.next c = t := by
  simp [Lifecycle.next, h]

/-- A call that returns to a counted state, no create among the failing ones, is lawful. -/
theorem Counted.lawful {c : LifeCall} {ret : Int} {t : Lifecycle} (h : Counted t)
    (hcall : s.call c = .returned ret t)
    (hret : ∀ setup, c = .create setup → ret ≠ ERR) : Lawful s c := by
  have hnext := next_returned hcall
  constructor
  · exact ⟨ret, by rw [hnext, hcall]⟩
  · rw [hnext]
    exact h.free
  · rw [hnext]
    exact h.one
  · intro setup hc herr
    rw [hcall] at herr
    exact absurd (Ending.returned.inj herr).1 (hret setup hc)
  · rw [hnext]
    exact fun hnone _ hsetup => h.again hnone hsetup

/-- A lawful create meets its condition. -/
theorem Counted.create_guarded (h : Counted s) (hl : Lawful s (.create setup)) :
    Guarded s (.create setup) := by
  rcases eq_or_ne s.singleton 0 with hzero | hne
  · rcases setup.result_cases with hok | herr
    · have hnext := next_returned (c := .create setup) (create_served h.free hzero hok)
      have hone := hl.one
      rw [hnext] at hone
      refine ⟨hzero, ?_, hok⟩
      simpa using hone
    · have hcall : s.call (.create setup) = _ := create_failed h.free hzero herr
      have hkept := hl.kept setup rfl (by rw [next_returned hcall, hcall])
      rw [next_returned hcall, hzero] at hkept
      simp at hkept
  · have hnext := next_returned (c := .create setup) (create_refused h.free hne)
    have hfree := hl.free
    rw [hnext] at hfree
    simp at hfree

end create

/-! ## releases -/

section release

variable {s : Lifecycle} {i : Nat} {gpio spi : Int}

theorem release_refused (hfree : s.singletonLock = false) (h : s.singleton = 0) :
    s.mxfsReleaseInstance (some i) gpio spi = .returned ERR { s with singletonLock := true } := by
  simp [Lifecycle.mxfsReleaseInstance, hfree, h]

theorem release_undefined (hfree : s.singletonLock = false) (h : s.singleton ≠ 0)
    (hi : i ∉ s.alive) : s.mxfsReleaseInstance (some i) gpio spi = .undefined := by
  simp [Lifecycle.mxfsReleaseInstance, hfree, h, hi]

/-- A counted release of the instance alive frees it, or keeps it when the
driver refuses. -/
theorem Counted.release (h : Counted s) (hne : s.singleton ≠ 0) (hi : i ∈ s.alive) :
    ∃ ret t, s.mxfsReleaseInstance (some i) gpio spi = .returned ret t ∧ Counted t := by
  obtain ⟨j, halive⟩ := List.length_eq_one_iff.1 
    (Nat.le_antisymm h.one (List.length_pos_of_mem hi))
  have hone : s.singleton = 1 := h.singleton.resolve_left hne
  obtain rfl : i = j := by simpa [halive] using hi
  have hkept : Counted { s with singleton := s.singleton - 1 } := by
    constructor <;> simp [h.free, halive, hone]
  have hfreed : Counted { s with singleton := s.singleton - 1, alive := s.alive.erase i } := by
    constructor <;> simp [h.free, halive, hone]
  by_cases hgpio : gpio = OK
  · by_cases hspi : spi = OK
    · exact ⟨OK, _, by simp [Lifecycle.mxfsReleaseInstance, h.free, hne, hi, hgpio, hspi], hfreed⟩
    · exact ⟨ERR, _, by simp [Lifecycle.mxfsReleaseInstance, h.free, hne, hi, hgpio, hspi], hkept⟩
  · exact ⟨ERR, _, by simp [Lifecycle.mxfsReleaseInstance, h.free, hne, hi, hgpio], hkept⟩

/-- A lawful release meets its condition. -/
theorem Counted.release_guarded (h : Counted s) (hl : Lawful s (.release (some i) gpio spi)) :
    Guarded s (.release (some i) gpio spi) := by
  rcases eq_or_ne s.singleton 0 with hzero | hne
  · have hnext := next_returned (c := .release (some i) gpio spi) (release_refused h.free hzero)
    have hfree := hl.free
    rw [hnext] at hfree
    simp at hfree
  · refine ⟨hne, ?_⟩
    by_contra hi
    obtain ⟨ret, hret⟩ := hl.returns
    have hcall : s.call (.release (some i) gpio spi) = .undefined := release_undefined h.free hne hi
    rw [hcall] at hret
    cases hret

end release

/-! ## runs -/

/-- A guarded call returns to a counted state, and only a release fails. -/
theorem Counted.guarded {s : Lifecycle} {c : LifeCall} (h : Counted s) (hg : Guarded s c) :
    ∃ ret t, s.call c = .returned ret t ∧ Counted t ∧ ∀ setup, c = .create setup → ret ≠ ERR := by
  cases c with
  | create setup =>
      obtain ⟨hzero, hnone, hok⟩ := hg
      refine ⟨OK, _, create_served h.free hzero hok, ?_, fun _ _ => ERR_ne_OK.symm⟩
      constructor <;> simp [h.free, hnone]
  | release inst gpio spi =>
      cases inst with
      | none => exact ⟨ERR, s, rfl, h, by simp⟩
      | some i =>
          obtain ⟨ret, t, hcall, ht⟩ : ∃ ret t,
              s.mxfsReleaseInstance (some i) gpio spi = .returned ret t ∧ Counted t :=
            h.release hg.1 hg.2
          exact ⟨ret, t, hcall, ht, by simp⟩

theorem Counted.next {s : Lifecycle} {c : LifeCall} (h : Counted s) (hg : Guarded s c) :
    Counted (s.next c) := by
  obtain ⟨ret, t, hcall, ht, -⟩ := h.guarded hg
  rw [next_returned hcall]
  exact ht

theorem Counted.lawful_iff {s : Lifecycle} {c : LifeCall} (h : Counted s) :
    Lawful s c ↔ Guarded s c := by
  constructor
  · intro hl
    cases c with
    | create setup => exact h.create_guarded hl
    | release inst gpio spi =>
        cases inst with
        | none => trivial
        | some i => exact h.release_guarded hl
  · intro hg
    obtain ⟨ret, t, hcall, ht, hret⟩ := h.guarded hg
    exact ht.lawful hcall hret

/-- **The lifecycle is lawful** exactly along the runs that create with no
instance alive, whose allocations and setup succeed, and that release only the
instance alive. -/
theorem lifecycle_lawful_iff (cs : List LifeCall) :
    Along Lifecycle.next Lawful Lifecycle.start cs ↔
      Along Lifecycle.next Guarded Lifecycle.start cs :=
  along_iff_along (fun _ _ h hg => Counted.next h hg) (fun _ _ h => Counted.lawful_iff h)
    counted_start

/-- Setup that succeeds. -/
def Setup.ok : Setup := ⟨true, fun _ => true, OK, OK⟩

/-- A second create keeps the lock, and the release after it waits forever; a
create whose gpio setup fails makes every later one refused. -/
theorem lifecycle_unlawful :
    ¬ Along Lifecycle.next Lawful Lifecycle.start [.create .ok, .create .ok] ∧
      (run Lifecycle.next Lifecycle.start [.create .ok, .create .ok]).mxfsReleaseInstance
        (some 0) OK OK = .blocked ∧
      ¬ Along Lifecycle.next Lawful Lifecycle.start [.create { Setup.ok with createGpio := ERR }] ∧
      (run Lifecycle.next Lifecycle.start
        [.create { Setup.ok with createGpio := ERR }]).alive = [] ∧
      ∃ t, (run Lifecycle.next Lifecycle.start
        [.create { Setup.ok with createGpio := ERR }]).mxfsCreateInstance .ok =
          .returned ERR t := by
  refine ⟨?_, by decide, ?_, by decide, ?_⟩
  · intro h
    have hfree := h.2.1.free
    revert hfree
    decide
  · intro h
    have hkept := h.1.kept _ rfl (by decide)
    revert hkept
    decide
  · exact ⟨_, rfl⟩

end Mxfs
