import Mathlib.Data.BitVec
import Mathlib.Tactic.Common
/-!
# `sleep` (src/mod.rs, src/timer.rs)

`sleep` inside a coroutine: the duration in milliseconds, a `Timer`, and its `read`.  An execution is the list of what
`Instant::now()` returns, one reading after the other; between two readings of `read` the coroutine may be blocked, and
be woken whenever mio or another source likes.  Instants are counted in nanoseconds.
-/
namespace Mioco
namespace Sleeping

def nanosPerMilli : Nat := 1000000

/-- `std::time::Duration`. -/
structure Duration where
  secs : Nat
  nanos : Nat
  secs_lt : secs < 2 ^ 64
  nanos_lt : nanos < 1000 * nanosPerMilli
deriving DecidableEq

namespace Duration

def toNanos (d : Duration) : Nat := d.secs * (1000 * nanosPerMilli) + d.nanos

/-- `dur_ms`; `none` where a build with overflow checks panics. -/
def durMs (overflowChecks : Bool) (d : Duration) : Option Nat :=
  if overflowChecks && !decide (d.secs * 1000 < 2 ^ 64 ∧ d.secs * 1000 + d.nanos / nanosPerMilli < 2 ^ 64) then none
  else some ((d.secs * 1000 % 2 ^ 64 + d.nanos / nanosPerMilli) % 2 ^ 64)

end Duration

namespace Timer

/-- `set_timeout` at instant `now`. -/
def setTimeout (now delayMs : Nat) : Nat := now + delayMs * nanosPerMilli

/-- What `TimerCore::register` asks of mio, in milliseconds; nothing if it returns true. -/
def register (timeout now : Nat) : Option Nat := if timeout ≤ now then none else some ((timeout - now) / nanosPerMilli)

/-- `read`: the instant it returns, if it does. -/
def read (timeout : Nat) : List Nat → Option Nat
  | now :: next :: rest =>
    -- `next` is the instant returned by `try_read`, or the one at which `register` looks at the clock
    if timeout ≤ now then some next else read timeout rest
  | _ => none

/-- The remaining time asked of mio is no longer than what the timer was set to, so its conversion fits as well. -/
theorem register_le {now later delayMs ms : Nat} (h : now ≤ later)
    (hreg : register (setTimeout now delayMs) later = some ms) : ms ≤ delayMs := by
  unfold register at hreg
  split at hreg
  · cases hreg
  · cases hreg
    refine Nat.div_le_of_le_mul ?_
    rw [setTimeout, Nat.mul_comm nanosPerMilli]
    omega

theorem read_ge {timeout ret : Nat} : ∀ {clock : List Nat}, clock.Pairwise (· ≤ ·) → read timeout clock = some ret →
    timeout ≤ ret
  | [], _, h => by cases h
  | [_], _, h => by cases h
  | now :: next :: rest, hmono, h => by
    rw [read] at h
    split at h
    · rename_i hdone
      cases h
      exact Nat.le_trans hdone (List.rel_of_pairwise_cons hmono List.mem_cons_self)
    · exact read_ge hmono.of_cons.of_cons h

end Timer

/-- `sleep` in a coroutine, its timer set at instant `now`. -/
def sleep (overflowChecks : Bool) (d : Duration) (now : Nat) (clock : List Nat) : Option Nat :=
  (d.durMs overflowChecks).bind (fun ms => Timer.read (Timer.setTimeout now ms) clock)

/-- Whenever it is called and whatever happens meanwhile, `sleep` does not return before the duration is over. -/
def NeverEarly (overflowChecks : Bool) (d : Duration) : Prop :=
  ∀ (start now : Nat) (clock : List Nat) (ret : Nat), (start :: now :: clock).Pairwise (· ≤ ·) →
    sleep overflowChecks d now clock = some ret → start + d.toNanos ≤ ret

namespace Duration

theorem durMs_of_lt {overflowChecks : Bool} {d : Duration} (h : d.secs * 1000 + d.nanos / nanosPerMilli < 2 ^ 64) :
    d.durMs overflowChecks = some (d.secs * 1000 + d.nanos / nanosPerMilli) := by
  have hsecs : d.secs * 1000 < 2 ^ 64 := Nat.lt_of_le_of_lt (Nat.le_add_right _ _) h
  have hand : d.secs * 1000 < 2 ^ 64 ∧ d.secs * 1000 + d.nanos / nanosPerMilli < 2 ^ 64 := ⟨hsecs, h⟩
  rw [durMs, decide_eq_true hand, Nat.mod_eq_of_lt hsecs, Nat.mod_eq_of_lt h]
  cases overflowChecks <;> rfl

theorem durMs_checked {d : Duration} :
    d.durMs true ≠ none ↔ d.secs * 1000 + d.nanos / nanosPerMilli < 2 ^ 64 := by
  constructor
  · intro h
    by_contra hge
    refine h ?_
    rw [durMs, decide_eq_false (fun hand => hge hand.2)]
    rfl
  · intro h hnone
    rw [durMs_of_lt h] at hnone
    cases hnone

/-- The milliseconds, and what they leave of the duration. -/
theorem toNanos_eq (d : Duration) :
    d.toNanos = (d.secs * 1000 + d.nanos / nanosPerMilli) * nanosPerMilli + d.nanos % nanosPerMilli := by
  have h := Nat.div_add_mod d.nanos nanosPerMilli
  simp only [toNanos, nanosPerMilli] at h ⊢
  omega

theorem fits_iff (d : Duration) :
    d.secs * 1000 + d.nanos / nanosPerMilli < 2 ^ 64 ↔ d.toNanos < 2 ^ 64 * nanosPerMilli := by
  have hmod : d.nanos % nanosPerMilli < nanosPerMilli := Nat.mod_lt _ (by decide)
  rw [toNanos_eq]
  simp only [nanosPerMilli] at hmod ⊢
  omega

end Duration

/-- **A `sleep` that is on time**: whole milliseconds do not end early, anything else can. -/
theorem neverEarly_of_fits {overflowChecks : Bool} {d : Duration}
    (h : d.secs * 1000 + d.nanos / nanosPerMilli < 2 ^ 64) :
    NeverEarly overflowChecks d ↔ d.nanos % nanosPerMilli = 0 := by
  have hms : d.durMs overflowChecks = some (d.secs * 1000 + d.nanos / nanosPerMilli) := Duration.durMs_of_lt h
  have hnanos := d.toNanos_eq
  generalize d.secs * 1000 + d.nanos / nanosPerMilli = ms at hms hnanos
  constructor
  · intro hnever
    -- every reading but the last is instant 0, and the deadline is the last
    have hsleep : sleep overflowChecks d 0 [ms * nanosPerMilli, ms * nanosPerMilli] = some (ms * nanosPerMilli) := by
      rw [sleep, hms, Option.bind_some, Timer.setTimeout, Nat.zero_add, Timer.read, if_pos (Nat.le_refl _)]
    have hret := hnever 0 0 [ms * nanosPerMilli, ms * nanosPerMilli] (ms * nanosPerMilli) (by simp) hsleep
    omega
  · intro hwhole start now clock ret hmono hsleep
    have hstart : start ≤ now := List.rel_of_pairwise_cons hmono List.mem_cons_self
    rw [sleep, hms, Option.bind_some] at hsleep
    have hread := Timer.read_ge hmono.of_cons.of_cons hsleep
    rw [Timer.setTimeout] at hread
    omega

/-- **`sleep` never returns early, and `dur_ms` never overflows**, exactly for whole milliseconds below `2 ^ 64` of
them. -/
theorem sleep_on_time_iff (overflowChecks : Bool) (d : Duration) :
    NeverEarly overflowChecks d ∧ d.durMs true ≠ none ↔
      d.toNanos % nanosPerMilli = 0 ∧ d.toNanos < 2 ^ 64 * nanosPerMilli := by
  have hmod : d.toNanos % nanosPerMilli = d.nanos % nanosPerMilli := by
    rw [Duration.toNanos_eq, Nat.mul_add_mod_self_right, Nat.mod_mod]
  rw [Duration.durMs_checked, ← d.fits_iff, hmod]
  constructor
  · rintro ⟨hnever, hfits⟩
    exact ⟨(neverEarly_of_fits hfits).1 hnever, hfits⟩
  · rintro ⟨hwhole, hfits⟩
    exact ⟨(neverEarly_of_fits hfits).2 hwhole, hfits⟩

/-- 999999 ns. -/
def almostMilli : Duration := ⟨0, 999999, by decide, by decide⟩

/-- As long as a `Duration` gets. -/
def longest : Duration := ⟨2 ^ 64 - 1, 0, by decide, by decide⟩

/-- **It returns at once**, and the longest duration overflows. -/
theorem sleep_returns_early : sleep false almostMilli 7 [7, 7] = some 7 ∧ 7 < 7 + almostMilli.toNanos ∧
    ¬ NeverEarly true almostMilli ∧ longest.durMs true = none := by
  have hsleep : sleep true almostMilli 7 [7, 7] = some 7 := by decide
  refine ⟨by decide, by decide, fun h => ?_, by decide⟩
  have hret := h 7 7 [7, 7] 7 (by simp) hsleep
  exact absurd hret (by decide)

end Sleeping
end Mioco
