import Mioco.Frame
/-!
# `deliver_to_scheduler` with the default scheduler (src/thread.rs, src/mod.rs)

The loop takes a handle off `spawned` and one off `ready` in every round, and what it resumes may add to both.  A
behaviour says how each resume ends, whatever the coroutine does in between.
-/
namespace Mioco

/-- How a resumed coroutine comes back to `after_resume`, once its sources are registered. -/
inductive Switch
  | blocked
  /-- one of its sources was ready at registration -/
  | selfWoken
  | yielding
  | finished
deriving DecidableEq, Repr

structure Resume where
  /-- `children_to_start` -/
  children : List Nat
  ends : Switch
deriving DecidableEq, Repr

/-- It neither spawns nor wakes itself. -/
def Resume.Settles (r : Resume) : Prop := r.children = [] ∧ r.ends ≠ .selfWoken

/-- What one round may meet: `thread_num`, and the resume of the spawned and of the ready coroutine. -/
structure Round where
  threadNum : Nat
  spawned : Resume
  ready : Resume

/-- What the loop works on. -/
structure Deliver where
  spawned : List Handle
  ready : List Handle
  delayed : List Handle
  sched : FifoThread
deriving DecidableEq, Repr

namespace Deliver

/-- The handle `after_resume` adds to `ready`. -/
def requeued (c : Nat) : Switch → List Handle
  | .yielding => [⟨c, true⟩]
  | .selfWoken => [Handle.new c]
  | .blocked | .finished => []

def resume (d : Deliver) (h : Handle) (r : Resume) : Deliver :=
  { d with spawned := d.spawned ++ r.children.map Handle.new, ready := d.ready ++ requeued h.co r.ends }

/-- `FifoSchedulerThread::spawned`, and the resumes it makes. -/
def callSpawned (d : Deliver) (h : Handle) (b : Round) : Deliver × List Resume :=
  let d' := { d with sched := d.sched.threadNextI b.threadNum }
  if d.sched.threadI = d.sched.threadId then (d'.resume h b.spawned, [b.spawned]) else (d', [])

/-- `FifoSchedulerThread::ready`. -/
def callReady (d : Deliver) (h : Handle) (b : Round) : Deliver × List Resume :=
  if h.isYielding then ({ d with delayed := d.delayed ++ [h] }, []) else (d.resume h b.ready, [b.ready])

def popSpawned (d : Deliver) (b : Round) : Deliver × List Resume :=
  match d.spawned with
  | h :: rest => { d with spawned := rest }.callSpawned h b
  | [] => (d, [])

def popReady (d : Deliver) (b : Round) : Deliver × List Resume :=
  match d.ready with
  | h :: rest => { d with ready := rest }.callReady h b
  | [] => (d, [])

/-- One round, and the resumes made in it; `none` is its `break`. -/
def round (d : Deliver) (b : Round) : Option (Deliver × List Resume) :=
  let s := d.popSpawned b
  let r := s.1.popReady b
  if d.spawned = [] ∧ s.1.ready = [] then none else some (r.1, s.2 ++ r.2)

/-- After `n` rounds, if the loop has not ended in them. -/
def rounds (b : Nat → Round) (d : Deliver) : Nat → Option Deliver
  | 0 => some d
  | n + 1 => match rounds b d n with | some d' => (d'.round (b n)).map Prod.fst | none => none

/-- The resumes made in round `n`. -/
def resumes (b : Nat → Round) (d : Deliver) (n : Nat) : List Resume :=
  match rounds b d n with
  | some d' => match d'.round (b n) with | some r => r.2 | none => []
  | none => []

/-- What is left to do, counting a handle that is not yielding twice. -/
def weight (d : Deliver) : Nat :=
  2 * d.spawned.length + (d.ready.map (fun h => if h.isYielding then 1 else 2)).sum

section weight
variable {d : Deliver} {b : Round}

theorem resume_weight (h : Handle) {r : Resume} (hr : r.Settles) : (d.resume h r).weight ≤ d.weight + 1 := by
  obtain ⟨hc, he⟩ := hr
  have hq : ((requeued h.co r.ends).map (fun h => if h.isYielding then 1 else 2)).sum ≤ 1 := by
    cases hs : r.ends with
    | selfWoken => exact absurd hs he
    | blocked | yielding | finished => simp [requeued]
  simp only [weight, resume, hc, List.map_nil, List.append_nil, List.map_append, List.sum_append]
  omega

theorem popSpawned_weight (hr : ∀ r ∈ (d.popSpawned b).2, r.Settles) :
    (d.popSpawned b).1.weight + (if d.spawned = [] then 0 else 1) ≤ d.weight := by
  unfold popSpawned at *
  cases hs : d.spawned with
  | nil => simp
  | cons h rest =>
    simp only [hs, callSpawned] at hr
    have hpop : ∀ sched, weight { d with spawned := rest, sched := sched } + 2 = d.weight := by
      intro sched
      simp only [weight, hs, List.length_cons]
      omega
    simp only [callSpawned, reduceCtorEq, if_false]
    split
    · rename_i hown
      rw [if_pos hown] at hr
      have := resume_weight (d := { d with spawned := rest, sched := d.sched.threadNextI b.threadNum }) h
        (hr b.spawned List.mem_cons_self)
      have := hpop (d.sched.threadNextI b.threadNum)
      simp only at *
      omega
    · have := hpop (d.sched.threadNextI b.threadNum)
      simp only at *
      omega

theorem popReady_weight (hr : ∀ r ∈ (d.popReady b).2, r.Settles) :
    (d.popReady b).1.weight + (if d.ready = [] then 0 else 1) ≤ d.weight := by
  unfold popReady at *
  cases hs : d.ready with
  | nil => simp
  | cons h rest =>
    simp only [hs, callReady] at hr
    simp only [callReady, reduceCtorEq, if_false]
    split
    · rename_i hy
      simp only [weight, hs, List.map_cons, List.sum_cons, hy, if_true]
      omega
    · rename_i hy
      rw [if_neg hy] at hr
      have := resume_weight (d := { d with ready := rest }) h (hr b.ready List.mem_cons_self)
      have hpop : weight { d with ready := rest } + 2 = d.weight := by
        simp only [weight, hs, List.map_cons, List.sum_cons, if_neg hy]
        omega
      simp only at *
      omega

/-- **A round whose resumes all settle makes the work less.** -/
theorem round_weight {d' : Deliver} {l : List Resume} (h : d.round b = some (d', l)) (hr : ∀ r ∈ l, r.Settles) :
    d'.weight < d.weight := by
  unfold round at h
  simp only at h
  split at h
  · cases h
  · rename_i hne
    cases h
    have h1 := popSpawned_weight (d := d) (b := b) (fun r hm => hr r (List.mem_append_left _ hm))
    have h2 := popReady_weight (d := (d.popSpawned b).1) (b := b) (fun r hm => hr r (List.mem_append_right _ hm))
    by_cases hs : d.spawned = []
    · have hrdy : (d.popSpawned b).1.ready ≠ [] := fun h => hne ⟨hs, h⟩
      rw [if_neg hrdy] at h2
      omega
    · rw [if_neg hs] at h1
      omega

end weight

/-! ## When the loop ends -/

section ends
variable {b : Nat → Round} {d : Deliver}

theorem rounds_none {n : Nat} (h : rounds b d n = none) : ∀ m, n ≤ m → rounds b d m = none := by
  intro m hm
  induction m, hm using Nat.le_induction with
  | base => exact h
  | succ m _ ih => rw [rounds, ih]

/-- Once every resume settles, there are at most as many rounds as there is work. -/
theorem ends_of_weight {N : Nat} (hN : ∀ n, N ≤ n → ∀ r ∈ resumes b d n, r.Settles) :
    ∀ (k n : Nat) (d' : Deliver), N ≤ n → rounds b d n = some d' → d'.weight ≤ k → rounds b d (n + k + 1) = none
  | k, n, d', hn, hd, hk => by
    cases hround : d'.round (b n) with
    | none =>
      have h1 : rounds b d (n + 1) = none := by rw [rounds, hd]; simp [hround]
      exact rounds_none h1 _ (by omega)
    | some r =>
      obtain ⟨d'', l⟩ := r
      have h1 : rounds b d (n + 1) = some d'' := by rw [rounds, hd]; simp [hround]
      have hset : ∀ r ∈ l, r.Settles := by
        intro r hr
        refine hN n hn r ?_
        simp only [resumes, hd, hround]
        exact hr
      have hlt := round_weight hround hset
      cases k with
      | zero => omega
      | succ k =>
        have := ends_of_weight hN k (n + 1) d'' (by omega) h1 (by omega)
        rwa [show n + 1 + k + 1 = n + (k + 1) + 1 by omega] at this

/-- **The loop of `deliver_to_scheduler` ends exactly when the coroutines it resumes wake themselves only finitely
often**, if they spawn only finitely often. -/
theorem deliver_ends_iff (b : Nat → Round) (d : Deliver)
    (hspawn : ∃ M, ∀ n, M ≤ n → ∀ r ∈ resumes b d n, r.children = []) :
    (∃ n, rounds b d n = none) ↔ ∃ N, ∀ n, N ≤ n → ∀ r ∈ resumes b d n, r.ends ≠ .selfWoken := by
  constructor
  · rintro ⟨N, hN⟩
    refine ⟨N, fun n hn r hr => ?_⟩
    simp only [resumes, rounds_none hN n hn] at hr
    cases hr
  · rintro ⟨N, hN⟩
    obtain ⟨M, hM⟩ := hspawn
    cases hd : rounds b d (max M N) with
    | none => exact ⟨_, hd⟩
    | some d' =>
      refine ⟨max M N + d'.weight + 1, ends_of_weight (fun n hn r hr => ?_) _ _ d' (Nat.le_refl _) hd (Nat.le_refl _)⟩
      exact ⟨hM n (by omega) r hr, hN n (by omega) r hr⟩

theorem mem_resumes {n : Nat} {r : Resume} (h : r ∈ resumes b d n) : r = (b n).spawned ∨ r = (b n).ready := by
  have hs : ∀ d' : Deliver, r ∈ (d'.popSpawned (b n)).2 → r = (b n).spawned := by
    intro d' hr
    unfold popSpawned at hr
    split at hr
    · simp only [callSpawned] at hr
      split at hr
      · exact List.mem_singleton.1 hr
      · cases hr
    · cases hr
  have hy : ∀ d' : Deliver, r ∈ (d'.popReady (b n)).2 → r = (b n).ready := by
    intro d' hr
    unfold popReady at hr
    split at hr
    · simp only [callReady] at hr
      split at hr
      · cases hr
      · exact List.mem_singleton.1 hr
    · cases hr
  unfold resumes at h
  split at h
  · split at h
    · rename_i d' _ res hround
      simp only [round] at hround
      split at hround
      · cases hround
      · cases hround
        exact (List.mem_append.1 h).imp (hs _) (hy _)
    · cases h
  · cases h

end ends

/-- One coroutine, which blocks on a channel whose counter is never zero. -/
def spinning : Deliver := ⟨[], [Handle.new 0], [], ⟨0, 0, .done⟩⟩

def selfWaking (_ : Nat) : Round := ⟨1, ⟨[], .blocked⟩, ⟨[], .selfWoken⟩⟩

theorem selfWaking_spawns_nobody (n : Nat) : ∀ r ∈ resumes selfWaking spinning n, r.children = [] := by
  intro r hr
  rcases mem_resumes hr with rfl | rfl <;> rfl

theorem deliver_ends_iff_selfWaking :
    (∃ n, rounds selfWaking spinning n = none) ↔
      ∃ N, ∀ n, N ≤ n → ∀ r ∈ resumes selfWaking spinning n, r.ends ≠ .selfWoken :=
  deliver_ends_iff selfWaking spinning ⟨0, fun n _ => selfWaking_spawns_nobody n⟩

/-- It is resumed for ever. -/
theorem deliver_spins : (∀ n, ∀ r ∈ resumes selfWaking spinning n, r.children = []) ∧
    ∀ n, rounds selfWaking spinning n ≠ none := by
  refine ⟨selfWaking_spawns_nobody, fun n => ?_⟩
  have h : rounds selfWaking spinning n = some spinning := by
    induction n with
    | zero => rfl
    | succ n ih =>
      rw [rounds, ih]
      rfl
  rw [h]
  simp

/-! ## The steps of an instance -/

/-- What the loop of a thread works on. -/
def view {α : Type} (th : Thread fifo α) : Deliver := ⟨th.spawned, th.ready, th.held, th.sched⟩

/-- The state in which `after_resume` finds a coroutine. -/
def switch : CoState → Switch
  | .blocked => .blocked
  | .ready => .selfWoken
  | .yielding => .yielding
  | .finished => .finished

/-- **What `after_resume` does to the queues of its thread.** -/
theorem view_afterResume {w : Nat} {α : Type} (s : Instance fifo w α) (t c : Nat) (k : Callback) :
    view ((s.afterResume t c k).threads t) =
      (view (s.threads t)).resume (Handle.new c) ⟨(s.cos c).children, switch (s.cos c).state⟩ := by
  unfold Instance.afterResume
  cases hs : (s.cos c).state <;> simp [view, resume, requeued, switch, Handle.new, hs]

/-- **A callback with a spawned coroutine**: it is resumed, or it leaves the thread. -/
theorem fifo_spawned (th : FifoThread) (held : List Handle) (threadNum : Nat) :
    (th.enter .spawned held).next held threadNum =
      (if th.threadI = th.threadId then .resume (held.length - 1) else .migrate (held.length - 1) th.threadI,
        { th.threadNextI threadNum with todo := .done }) := rfl

/-- **A callback with a ready coroutine**: it is kept until the next tick if it yields, and resumed if not. -/
theorem fifo_ready (th : FifoThread) (held : List Handle) (h : Handle) (threadNum : Nat) :
    (th.enter .ready (held ++ [h])).next (held ++ [h]) threadNum =
      (if h.isYielding then .ret else .resume held.length, { th with todo := .done }) := by
  cases hy : h.isYielding <;> simp [FifoThread.enter, FifoThread.next, hy]

end Deliver
end Mioco
