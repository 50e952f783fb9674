import Mioco.Assertions
import Mioco.LedgerRun
/-!
# Runs without panics of the event loops (src/thread.rs, src/coroutine.rs, src/mod.rs)

`steady` is what it takes, beside the handles, for no event-loop thread to panic: sources that mio takes and has, events
of reading or writing, and open event loops to write to.  Such runs keep the ledger, whatever the scheduler.
-/
namespace Mioco

open Lib (System Slab)
open Pooling

namespace Thread
variable {S : Sched} {α : Type}

/-- mio takes the source. -/
def ioFree (th : Thread S α) : Src → Bool
  | .io n => (th.ios n).isNone
  | .recv _ | .timer _ => true

/-- mio has the source. -/
def ioHeld (th : Thread S α) : Src → Bool
  | .io n => (th.ios n).isSome
  | .recv _ | .timer _ => true

end Thread

/-- The thread a coroutine is migrated to. -/
def AfterDeregister.target : AfterDeregister → Option Nat
  | migrate _ threadId => some threadId
  | event | woken _ => none

namespace Pc
variable {α : Type}

/-- The source that is registered next. -/
def nextSrc : Pc α → Option Src
  | register _ (src :: _) _ _ => some src
  | _ => none

/-- The thread has panicked, and not over a handle. -/
@[simp] def isBroken : Pc α → Bool
  | panicked why => !why.isStray
  | _ => false

end Pc

namespace Instance
variable {S : Sched} {w : Nat} {α : Type} {n : Nat} {s s' : Instance S w α} {t c : Nat} {cfg : Config}

/-- What goes on at `pc` of thread `t` finds its source registered, and the event loops it writes to open. -/
def goesOn (n : Nat) (s : Instance S w α) (t : Nat) : Pc α → Bool
  | .deregister c next => (s.cos c).blockedOn.head?.all (s.threads t).ioHeld &&
      next.target.all fun l => decide (l < n) && (s.threads l).isOpen
  | .exec c _ (.exit res) => (s.exitLoop c res).all fun l => (s.threads l).isOpen
  | _ => true

/-- **A step finds its source as mio needs it, its event to be one of reading or writing, and the event loops it writes
to open.** -/
def steady (n : Nat) (s : Instance S w α) : Action α → Bool
  | .thread t .next => s.goesOn n t (s.threads t).pc
  | .thread t (.register _ _ _) => (s.threads t).pc.nextSrc.all (s.threads t).ioFree
  | .thread t .ready => (s.threads t).batch.head?.all fun e => !s.wakes t e.1 || e.2.rw.isSome
  | _ => true

/-- No thread has panicked, but over a handle. -/
def Unbroken (s : Instance S w α) : Prop := ∀ t, (s.threads t).pc.isBroken = false

/-- In a steady step a thread panics over a handle only. -/
theorem stray_of_raises {a : ThreadAct α} {why : Panic} (hw : Wired s)
    (hno : Message.propagatePanic ∉ (s.threads t).inbox)
    (hterm : ∀ c ret i res, (s.threads t).pc = .exec c ret (.terminate i res) → i < cfg.threadNum →
      (s.threads i).isOpen = true)
    (hok : s.steady cfg.threadNum (.thread t a) = true) (h : s.Raises cfg t a why) : why.isStray = true := by
  -- what `next` needs at `pc`
  have hnext : ∀ pc : Pc α, a = .next → (s.threads t).pc = pc → s.goesOn cfg.threadNum t pc = true := by
    rintro pc rfl rfl
    exact hok
  cases h with
  | slabRemove | strayHandle => rfl
  | noSuchThread c k l hpc hl =>
    have hgo := hnext _ rfl hpc
    simp [goesOn, AfterDeregister.target] at hgo
    omega
  | notAttached c k l hpc hclosed =>
    have hgo := hnext _ rfl hpc
    simp [goesOn, AfterDeregister.target, hclosed] at hgo
  | terminate c ret i res hpc hi hclosed =>
    rw [hterm c ret i res hpc hi] at hclosed
    cases hclosed
  | exit c ret res l hpc hl hclosed =>
    have hgo := hnext _ rfl hpc
    simp [goesOn, hl, hclosed] at hgo
  | noSender c ret res pc chan hpc hstep =>
    -- a token comes with a sender
    rcases (senderStep_move hstep).shared.2.2 with hn | hn
    · cases hn
    · obtain ⟨htok, hnone⟩ := maybeNotifyReceiver_unwrapNone hn.symm
      have hsome := hw _ htok
      rw [hnone] at hsome
      cases hsome
  | emptyEvent r e rest hb hwakes hrw =>
    simp [steady, hb, hwakes, hrw] at hok
  | register c n todo hit next due slot tick hpc hsome =>
    have hfree : (s.threads t).pc.nextSrc.all (s.threads t).ioFree = true := hok
    simp [hpc, Pc.nextSrc, Thread.ioFree, hsome] at hfree
  | deregister c n rest next hpc hb hnone =>
    have hgo := hnext _ rfl hpc
    simp [goesOn, hb, Thread.ioHeld, hnone] at hgo
  | propagated id rest hin =>
    rw [hin] at hno
    exact absurd List.mem_cons_self hno

/-! ## Steady runs -/

/-- A coroutine that is being killed does not switch out, and no thread panics but over a handle. -/
def unwindsSteadily (n : Nat) (s : Instance S w α) (a : Action α) : Prop := s.unwinds a ∧ s.steady n a = true

/-- Handles are not stale where that matters. -/
theorem orderly_of_steady {g : Nat → Nat} (hc : Custody s) (hs : Sound (s.pool g)) {a : Action α}
    (h : s.steady n a = true) (hst : s.step cfg a = some s') : s.orderly n a := by
  have hattached : ∀ (t i : Nat) (k : Callback) (x : Handle), (s.threads t).pc = .call k →
      (s.threads t).held[i]? = some x → s.Attached t x.co := by
    intro t i k x hpc hi
    obtain ⟨hready, -, hown⟩ := held_ready hs hpc hi
    refine ⟨hc.lt_of_handler hown, ?_, hown⟩
    rw [hready]
    simp
  unfold orderly
  split
  · rename_i t choice
    obtain ⟨k, hpc⟩ : ∃ k, (s.threads t).pc = .call k := by
      simp only [Instance.step, threadStep, sched] at hst
      split at hst
      · split at hst
        · rename_i k hpc
          exact ⟨k, hpc⟩
        · cases hst
      · cases hst
    cases (S.next choice (s.threads t).held (s.threads t).sched s.shared).1 with
    | ret => trivial
    | resume i | drop i => exact fun x hx => .inr (hattached t i k x hpc hx)
    | migrate i l => exact fun x hx => hattached t i k x hpc hx
  · rename_i t
    have hgo : s.goesOn n t (s.threads t).pc = true := h
    unfold nextOk
    split
    · rename_i hpc
      intro x hx
      by_cases hf : (s.cos x.co).state = .finished
      · exact .inl hf
      · have hmem := List.mem_of_mem_head? hx
        have hin : 0 < (s.pool g).waiting t x.co := by
          have hpos : 0 < ((s.pool g).desks t).queued x.co := by
            rw [Desk.queued]
            rcases List.mem_append.1 hmem with hmem | hmem
            · rcases List.mem_append.1 hmem with hmem | hmem
              · have hcount := List.count_pos_iff.2 (List.mem_map_of_mem (f := Handle.co) hmem)
                exact Nat.add_pos_left (Nat.add_pos_left hcount _) _
              · have hcount := List.count_pos_iff.2 (List.mem_map_of_mem (f := Handle.co) hmem)
                exact Nat.add_pos_left (Nat.add_pos_right _ hcount) _
            · have hcount := List.count_pos_iff.2 (List.mem_map_of_mem (f := Handle.co) hmem)
              exact Nat.add_pos_right _ hcount
          rw [Pool.waiting]
          omega
        have hown := own_of_waiting hs hin
        exact .inr ⟨hc.lt_of_handler hown, hf, hown⟩
    · rename_i c k l hpc
      rw [hpc, goesOn, Bool.and_eq_true] at hgo
      simpa [AfterDeregister.target] using hgo.2
    · rename_i c ret res hpc
      rw [hpc, goesOn] at hgo
      intro l hl
      rw [hl] at hgo
      exact hgo
    · trivial
  · trivial

/-- **What holds in a steady run**: the ledger, and no event-loop thread has panicked. -/
structure Steady (n : Nat) (s : Instance S w α) : Prop where
  ledger : Ledger n s
  wired : Wired s
  unbroken : Unbroken s

/-- The event loop that `Terminate` is sent to next is open. -/
theorem open_of_terminating {g : Nat → Nat} (hl : Ledger n s) (hu : Unbroken s) (hs : Sound (s.pool g)) {ret : Ret} {i : Nat}
    {res : ExitStatus α} (hpc : (s.threads t).pc = .exec c ret (.terminate i res)) (hi : i < n) :
    (s.threads i).isOpen = true := by
  by_contra hclosed
  have hended := hl.closed i (by simpa using hclosed)
  have hbroad := hl.broadcasting t i (by rw [hpc]; rfl)
  have htold := hl.terminated i
  rw [hbroad.2.2.1 i hi, if_neg (Nat.lt_irrefl i)] at htold
  cases hi : (s.threads i).pc with
  | panicked why =>
    have hbroken := hu i
    rw [hi, Pc.isBroken, not_stray hs hi] at hbroken
    cases hbroken
  | done =>
    -- a loop that is done was told
    rw [hl.stopping i (by rw [hi]; rfl), Bool.toNat_true] at htold
    omega
  | _ =>
    rw [hi] at hended
    cases hended

theorem Steady.step {g : Nat → Nat} (h : Steady cfg.threadNum s) (hcatch : cfg.catchPanics = true) (hc : Custody s)
    (hs : Sound (s.pool g)) {a : Action α} (hok : s.steady cfg.threadNum a = true) (hst : s.step cfg a = some s') :
    Steady cfg.threadNum s' := by
  obtain ⟨hl, hw, hu⟩ := h
  refine ⟨hl.step hw hcatch (orderly_of_steady hc hs hok hst) hst, hw.step hst, fun i => ?_⟩
  cases hpc : (s'.threads i).pc with
  | panicked why =>
    rcases step_raises hst hpc with hold | ⟨b, rfl, hr⟩
    · have hbroken := hu i
      rw [hold] at hbroken
      exact hbroken
    · have hstray : why.isStray = true := stray_of_raises hw (hl.caught i).1 (fun c ret l res hp hlt =>
        open_of_terminating hl hu hs hp hlt) hok hr
      rw [Pc.isBroken, hstray]
      rfl
  | _ => rfl

theorem steady_reach {bound : Nat → Option Nat} (hn : 0 < cfg.threadNum) (hcatch : cfg.catchPanics = true)
    (h : (mioco S w α cfg bound).Reach (fun s a => s.unwindsSteadily cfg.threadNum a) s) :
    Steady cfg.threadNum s := by
  have hunwinds : ∀ s, (mioco S w α cfg bound).Reach (fun s a => s.unwindsSteadily cfg.threadNum a) s →
      (mioco S w α cfg bound).Reach (fun s a => s.unwinds a) s := fun s hr => hr.mono (fun _ _ hok => hok.1)
  refine h.invariant_of (fun s => (mioco S w α cfg bound).Reach (fun s a => s.unwinds a) s) (Steady cfg.threadNum)
    hunwinds (fun s hs => ?_) (fun s a s' hr hi hok hst _ => ?_)
  · cases (show s = Instance.start S w bound from hs)
    refine ⟨.start hn bound, .start bound, fun t => ?_⟩
    simp only [Instance.start, Function.update_apply]
    split <;> rfl
  · obtain ⟨g, hs, -⟩ := sound_reach hr
    exact hi.step hcatch (Custody.reach hr) hs hok.2 hst

end Instance
end Mioco
