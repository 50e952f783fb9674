import Mathlib.Algebra.Order.BigOperators.Group.Finset
import Mioco.LedgerRun
/-!
# The live count is right, and `Terminate` is broadcast once

`LiveCount` says what `coroutines_num`, the slabs and `Terminate` owe to each other.  It holds as long as no stale
handle is put to use.  `keeper` is a scheduler that does: a coroutine that was spawned is killed by `Shutdown` while
`keeper` holds its handle, and another one, which waits again as it unwinds, lets it be called once more.
-/
namespace Mioco

open Lib (Slab System le_sum)

namespace Instance
variable {S : Sched} {w : Nat} {α : Type} {n : Nat} {s : Instance S w α}

/-- `Terminate`s that reached the event loop, handled or not. -/
def told (s : Instance S w α) (t : Nat) : Nat :=
  (s.threads t).inbox.countP Message.isTerminate + (s.threads t).terminated.toNat

/-- **`coroutines_num`, the slabs, the migrations in flight and `Terminate`** in an instance of `n` threads. -/
structure LiveCount (n : Nat) (s : Instance S w α) : Prop where
  count : s.coroutinesNum = ∑ t ∈ Finset.range n, (s.threads t).coroutines.count +
    ∑ t ∈ Finset.range n, (s.threads t).migrations
  /-- a live coroutine is stored once, under its id, or it is carried once -/
  place : ∀ c < s.coN, (s.cos c).state ≠ .finished →
    (∃ t < n, (s.cos c).handler = some t ∧
      (∀ t' id, (s.threads t').coroutines.get id = some c ↔ t' = t ∧ id = (s.cos c).id) ∧
      ∑ i ∈ Finset.range n, (s.threads i).carried c = 0) ∨
    ((s.cos c).handler = none ∧ (∀ t id, (s.threads t).coroutines.get id ≠ some c) ∧
      ∑ i ∈ Finset.range n, (s.threads i).carried c = 1)
  /-- nothing else is stored -/
  live : ∀ t id c, (s.threads t).coroutines.get id = some c → c < s.coN ∧ (s.cos c).state ≠ .finished
  unwrap : ∀ t, (s.threads t).pc ≠ .panicked .slabRemove
  once : s.broadcasts = if s.coroutinesNum = 0 then 1 else 0
  told_le : ∀ t < n, s.told t ≤ s.broadcasts
  everyone : s.broadcasts = 1 → (∀ t, (s.threads t).pc.terminating = none) → ∀ t < n, s.told t = 1
  last : s.broadcasts = 1 → (∀ c < s.coN, (s.cos c).state = .finished) ∧ ∀ t < n, (s.threads t).migrations = 0

theorem Ledger.place (h : Ledger n s) {c : Nat} (hc : c < s.coN) (hl : (s.cos c).state ≠ .finished) :
    (∃ t < n, (s.cos c).handler = some t ∧
      (∀ t' id, (s.threads t').coroutines.get id = some c ↔ t' = t ∧ id = (s.cos c).id) ∧
      ∑ i ∈ Finset.range n, (s.threads i).carried c = 0) ∨
    ((s.cos c).handler = none ∧ (∀ t id, (s.threads t).coroutines.get id ≠ some c) ∧
      ∑ i ∈ Finset.range n, (s.threads i).carried c = 1) := by
  have hf := h.flight c
  cases hh : (s.cos c).handler with
  | some t =>
    obtain ⟨ht, hget⟩ := h.placed t c ⟨hc, hl, hh⟩
    refine .inl ⟨t, ht, rfl, fun t' id => ⟨fun hg => ?_, ?_⟩, ?_⟩
    · obtain ⟨hat, hid⟩ := h.stored t' id c hg
      have := hat.2.2.symm.trans hh
      cases this
      exact ⟨rfl, hid.symm⟩
    · rintro ⟨rfl, rfl⟩
      exact hget
    · rw [hf, if_neg (fun htr => by have := htr.2.2.symm.trans hh; cases this)]
  | none =>
    refine .inr ⟨rfl, fun t id hg => ?_, ?_⟩
    · have := (h.stored t id c hg).1.2.2.symm.trans hh
      cases this
    · rw [hf, if_pos ⟨hc, hl, hh⟩]

/-- At zero, nobody is left. -/
theorem Ledger.all_finished (h : Ledger n s) (h0 : s.coroutinesNum = 0) :
    (∀ c < s.coN, (s.cos c).state = .finished) ∧ ∀ t < n, (s.threads t).migrations = 0 := by
  have hcount := h.count
  rw [h0] at hcount
  refine ⟨fun c hc => ?_, fun t ht => ?_⟩
  · by_contra hl
    rcases h.place hc hl with ⟨t, ht, hh, -⟩ | ⟨-, -, hcar⟩
    · have h1 := h.count_pos (t := t) (c := c) ⟨hc, hl, hh⟩
      have h2 := le_sum (fun i => (s.threads i).coroutines.count) ht
      omega
    · have hle : ∑ i ∈ Finset.range n, (s.threads i).carried c ≤ ∑ i ∈ Finset.range n, (s.threads i).migrations :=
        Finset.sum_le_sum (fun i _ => List.countP_mono_left (fun m _ hm => by cases m <;> simp_all))
      omega
  · have := le_sum (fun i => (s.threads i).migrations) ht
    omega

theorem Ledger.liveCount (h : Ledger n s) : LiveCount n s := by
  have hb := h.once
  have hnum : s.broadcasts = if s.coroutinesNum = 0 then 1 else 0 := by
    have h0 := h.quiet
    have h1 := h.empty
    split <;> omega
  have htold : ∀ t, s.told t = (s.threads t).terminates := fun t => (h.terminated t).symm
  refine ⟨h.count, fun c => h.place, fun t id c hg => ?_, fun t hp => (h.panicked t _ hp).1 rfl, hnum, fun t ht => ?_,
    fun h1 hall t ht => ?_, fun h1 => h.all_finished (h.empty h1)⟩
  · obtain ⟨⟨hc, hl, -⟩, -⟩ := h.stored t id c hg
    exact ⟨hc, hl⟩
  · rw [htold]
    by_cases h0 : s.broadcasts = 0
    · rw [(h.quiet h0).2 t]
      exact Nat.zero_le _
    · have := h.terminates_le ht
      omega
  · rw [htold]
    exact h.everywhere h1 hall t ht

/-- **The live count is right** in every run that uses no stale handle and no closed loop. -/
theorem live_count {cfg : Config} {bound : Nat → Option Nat} (hn : 0 < cfg.threadNum) (hcatch : cfg.catchPanics = true)
    {s : Instance S w α} (hs : (mioco S w α cfg bound).Reach (fun s a => s.orderly cfg.threadNum a) s) :
    LiveCount cfg.threadNum s := (ledger hn hcatch hs).1.liveCount

end Instance

/-! ## A stale handle -/

/-- A scheduler that resumes the first and the third handle it is given and keeps the others; with the fifth it sends
the second to thread 0. -/
def keeper : Sched where
  Shared := Unit
  Thread := Nat × Bool
  new := ()
  spawnThread _ := ((0, false), ())
  enter k _ th :=
    match k with
    | .tick => th
    | .spawned | .ready => (th.1 + 1, true)
  next _ _ th _ :=
    match th with
    | (1, true) => (.resume 0, (1, false), ())
    | (3, true) => (.resume 1, (3, false), ())
    | (5, true) => (.migrate 0 0, (5, false), ())
    | th => (.ret, th, ())

/-- Coroutine 0 spawns coroutines 1 and 2 and waits on a channel; coroutine 1 is kept by `keeper`, coroutine 2 calls
`mioco::shutdown`.  `Handler::shutdown` kills all three: coroutine 0 waits again while it unwinds, the other two end.
Then a message on the first channel brings coroutine 0 back. -/
def staleRun : List (Action Unit) :=
  [.thread 0 .start, .thread 0 (.sched 0), .thread 0 .next, .thread 0 (.sched 0), .thread 0 (.user (.spawn 2)),
   .thread 0 (.user (.spawn 3)), .thread 0 (.user (.select [(.recv (.user 0), RW.ofRead)])),
   .thread 0 (.register false 0 0), .thread 0 .next, .thread 0 .next, .thread 0 (.sched 0),
   .thread 0 .next, .thread 0 .next, .thread 0 (.sched 0), .thread 0 .next, .thread 0 .next, .thread 0 (.sched 0),
   .thread 0 (.user .shutdown), .thread 0 .next, .thread 0 .next, .thread 0 (.user .yieldNow),
   .thread 0 .next, .thread 0 .next, .thread 0 (.sched 0), .thread 0 .next, .thread 0 (.sched 0),
   .thread 0 .next, .thread 0 .next, .thread 0 (.notify 0), .thread 0 .next,
   .thread 0 (.user (.select [(.recv (.user 1), RW.ofRead)])), .thread 0 .next, .thread 0 (.user (.finish .err))] ++
  List.replicate 10 (.thread 0 .next) ++ [.thread 0 (.user (.finish .err))] ++ List.replicate 10 (.thread 0 .next) ++
  [.sender 0 0 (.send (.ok ()) false), .sender 0 0 .stdSend, .sender 0 0 .fetchAdd, .sender 0 0 .notify,
   .thread 0 (.notify 0), .thread 0 .next, .thread 0 .next, .thread 0 .next, .thread 0 (.sched 0), .thread 0 .next]

namespace Instance

/-- One thread, and everything up to the last callback of `keeper`. -/
theorem live_count_keeper : ∃ s : Instance keeper 64 Unit,
    (mioco keeper 64 Unit ⟨1, true⟩ (fun _ => none)).exec (staleRun.take 62) (.start keeper 64 (fun _ => none)) = some s ∧
      s.coroutinesNum = 1 ∧ LiveCount 1 s := by
  have hsome : ((mioco keeper 64 Unit ⟨1, true⟩ (fun _ => none)).exec (staleRun.take 62)
      (.start keeper 64 (fun _ => none))).any (fun s => s.coroutinesNum == 1) = true := by
    decide +kernel
  obtain ⟨s, hs, hnum⟩ := (Option.any_eq_true _ _).1 hsome
  have hr : (mioco keeper 64 Unit ⟨1, true⟩ (fun _ => none)).Reach (fun s a => s.orderly 1 a) s :=
    System.reach_exec _ _ s (.init rfl) (by decide +kernel) hs
  exact ⟨s, hs, by simpa using hnum, live_count (by decide) rfl hr⟩

/-- **`coroutines.remove(id).unwrap()` in `migrate` fails** on the handle of a coroutine that was killed. -/
theorem stale_handle_unwrap : ¬ ∀ (S : Sched) (cfg : Config) (bound : Nat → Option Nat) (s : Instance S 64 Unit),
    0 < cfg.threadNum → cfg.catchPanics = true → (mioco S 64 Unit cfg bound).Reach System.anyStep s →
      LiveCount cfg.threadNum s := by
  intro hall
  have hsome : ((mioco keeper 64 Unit ⟨1, true⟩ (fun _ => none)).exec staleRun (.start keeper 64 (fun _ => none))).any
      (fun s => decide ((s.threads 0).pc = .panicked .slabRemove)) = true := by
    decide +kernel
  obtain ⟨s, hs, hpc⟩ := (Option.any_eq_true _ _).1 hsome
  have hr : (mioco keeper 64 Unit ⟨1, true⟩ (fun _ => none)).Reach System.anyStep s :=
    System.reach_exec_of_forall _ _ s (.init rfl) (fun _ _ _ => trivial) hs
  exact (hall keeper ⟨1, true⟩ _ s (by decide) rfl hr).unwrap 0 (of_decide_eq_true hpc)

end Instance
end Mioco
