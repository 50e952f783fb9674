import Mioco.Lib.RoundRobin
import Mioco.FifoStarts
/-!
# Round-robin spreading over the threads of a first `start` (src/mod.rs)

A `FifoSchedulerThread` numbers itself by the `fetch_add` of its `spawn_thread`; a migration is routed by the index its
thread has in `senders`.  Thread 0 calls `spawn_thread` before it spawns the others, which race.
-/
namespace Mioco

open Lib

/-- A first `start`: its scheduler threads, in the order of their `spawn_thread` calls, and the index in `senders` of
the thread that made each call. -/
structure FifoStart where
  life : FifoLife
  order : List Nat
deriving DecidableEq, Repr

inductive StartAct
  /-- thread `j` of `Mioco::run` calls `spawn_thread` -/
  | spawnThread (j : Nat)
  /-- a callback of the `i`-th scheduler thread begins -/
  | enter (i : Nat) (k : Callback) (held : List Handle)
  | next (i : Nat) (held : List Handle)
deriving DecidableEq, Repr

/-- The thread a command sends its coroutine to; `none` where it stays. -/
def Cmd.target : Cmd → Option Nat
  | .migrate _ t => some t
  | _ => none

namespace FifoStart

/-- `Mioco::run` before its first `spawn_thread`. -/
def new : FifoStart := ⟨⟨true, 0, []⟩, []⟩

def step (n : Nat) (s : FifoStart) : StartAct → Option FifoStart
  | .spawnThread j =>
    if j < n ∧ j ∉ s.order ∧ (j = 0 ∨ 0 ∈ s.order) then
      (s.life.step n .spawnThread).map fun life => ⟨life, s.order ++ [j]⟩
    else none
  | .enter i k held => (s.life.step n (.enter i k held)).map fun life => ⟨life, s.order⟩
  | .next i held => (s.life.step n (.next i held)).map fun life => ⟨life, s.order⟩

/-- What the `i`-th scheduler thread does in this step with a coroutine its `spawned` got. -/
def spawnedCmd (i : Nat) (s : FifoStart) : StartAct → Option Cmd
  | .next i' held =>
    if i' = i then
      s.life.threads[i]?.bind fun th =>
        if th.todo = .spawned then some (th.next held s.life.threadNum).1 else none
    else none
  | _ => none

end FifoStart

/-- The interleavings of the `n` threads of a first `start`. -/
def fifoStart (n : Nat) : System FifoStart StartAct where
  Init s := s = FifoStart.new
  step := FifoStart.step n

namespace FifoStart

/-- Its commands for the coroutines of its `spawned`, along a run. -/
def spawnedCmds (n i : Nat) : List StartAct → FifoStart → List Cmd
  | [], _ => []
  | a :: as, s =>
    (s.spawnedCmd i a).toList ++ match s.step n a with
      | none => []
      | some s' => spawnedCmds n i as s'

/-- `thread_id` is the index in `senders`, on each thread. -/
def Numbered (s : FifoStart) : Prop :=
  ∀ (i : Nat) (th : FifoThread) (j : Nat), s.life.threads[i]? = some th → s.order[i]? = some j → th.threadId = j

/-- From here on, any `m * n` consecutive coroutines handed to `spawned` on thread `j` end up attached to each thread
`m` times, and none is migrated to `j` itself. -/
def Spread (n : Nat) (s : FifoStart) : Prop :=
  ∀ (i j : Nat) (as : List StartAct) (s' : FifoStart) (m : Nat), s.order[i]? = some j →
    (fifoStart n).exec as s = some s' → (spawnedCmds n i as s).length = m * n →
    (∀ t < n, ((spawnedCmds n i as s).map fun cmd => cmd.target.getD j).count t = m) ∧
      some j ∉ (spawnedCmds n i as s).map Cmd.target

/-! ## Runs of a first start -/

/-- **What every interleaving keeps**: the `i`-th call of `spawn_thread` gets the number `i`. -/
structure Started (n : Nat) (s : FifoStart) : Prop where
  count : s.life.threadNum = s.life.threads.length
  length : s.order.length = s.life.threads.length
  ids : ∀ (i : Nat) (th : FifoThread), s.life.threads[i]? = some th → th.threadId = i
  nodup : s.order.Nodup
  lt : ∀ j ∈ s.order, j < n

variable {n : Nat} {s s' : FifoStart} {a : StartAct}

/-- A scheduler thread moves on. -/
theorem Started.set (h : Started n s) {i : Nat} {th th' : FifoThread} (hi : s.life.threads[i]? = some th)
    (hid : th'.threadId = th.threadId) :
    Started n ⟨{ s.life with threads := s.life.threads.set i th' }, s.order⟩ where
  count := by simpa using h.count
  length := by simpa using h.length
  ids k t hk := by
    rcases eq_or_ne i k with rfl | hne
    · rw [List.getElem?_set_self (List.getElem?_eq_some_iff.1 hi).1] at hk
      cases hk
      exact hid.trans (h.ids i th hi)
    · rw [List.getElem?_set_ne hne] at hk
      exact h.ids k t hk
  nodup := h.nodup
  lt := h.lt

theorem Started.spawnThread (h : Started n s) {j : Nat} (hj : j < n) (hnew : j ∉ s.order) :
    Started n ⟨{ s.life with
      threadNum := (FifoThread.spawnThread s.life.threadNum).2
      threads := s.life.threads ++ [(FifoThread.spawnThread s.life.threadNum).1] }, s.order ++ [j]⟩ where
  count := by rw [List.length_append, ← h.count]; rfl
  length := by rw [List.length_append, List.length_append, h.length]; rfl
  ids k t hk := by
    rcases Nat.lt_or_ge k s.life.threads.length with hlt | hge
    · rw [List.getElem?_append_left hlt] at hk
      exact h.ids k t hk
    · rw [List.getElem?_append_right hge, List.getElem?_singleton] at hk
      split at hk
      · rename_i h0
        cases hk
        exact h.count.trans (by omega)
      · cases hk
  nodup := List.nodup_append.2 ⟨h.nodup, List.nodup_singleton j, fun b hb c hc => by
    rw [List.mem_singleton.1 hc]
    exact fun hbj => hnew (hbj ▸ hb)⟩
  lt k hk := by
    rcases List.mem_append.1 hk with hm | hm
    · exact h.lt k hm
    · rw [List.mem_singleton.1 hm]
      exact hj

/-- What a step can do. -/
theorem step_cases (h : s.step n a = some s') :
    (∃ j, a = .spawnThread j ∧ j < n ∧ j ∉ s.order ∧ s.life.threads.length < n ∧
      s' = ⟨{ s.life with
        threadNum := (FifoThread.spawnThread s.life.threadNum).2
        threads := s.life.threads ++ [(FifoThread.spawnThread s.life.threadNum).1] }, s.order ++ [j]⟩) ∨
    (∃ i k held th, a = .enter i k held ∧ s.life.threads[i]? = some th ∧
      s' = ⟨{ s.life with threads := s.life.threads.set i (th.enter k held) }, s.order⟩) ∨
    (∃ i held th, a = .next i held ∧ s.life.threads[i]? = some th ∧
      s' = ⟨{ s.life with threads := s.life.threads.set i (th.next held s.life.threadNum).2 }, s.order⟩) := by
  cases a with
  | spawnThread j =>
    simp only [step, FifoLife.step] at h
    split at h
    · rename_i hj
      split at h
      · rename_i hlt
        cases h
        exact .inl ⟨j, rfl, hj.1, hj.2.1, hlt.2, rfl⟩
      · cases h
    · cases h
  | enter i k held =>
    simp only [step, FifoLife.step] at h
    split at h
    · rename_i th hi
      cases h
      exact .inr (.inl ⟨i, k, held, th, rfl, hi, rfl⟩)
    · cases h
  | next i held =>
    simp only [step, FifoLife.step] at h
    split at h
    · rename_i th hi
      cases h
      exact .inr (.inr ⟨i, held, th, rfl, hi, rfl⟩)
    · cases h

theorem Started.step (h : Started n s) (hst : s.step n a = some s') : Started n s' := by
  obtain ⟨j, -, hj, hnew, -, rfl⟩ | ⟨i, k, held, th, -, hi, rfl⟩ | ⟨i, held, th, -, hi, rfl⟩ := step_cases hst
  · exact h.spawnThread hj hnew
  · exact h.set hi (FifoThread.enter_threadId k held)
  · exact h.set hi (FifoThread.next_threadId held)

theorem started (hs : System.Reach (fifoStart n) System.anyStep s) : Started n s := by
  refine hs.invariant (Started n) ?_ (fun _ _ _ h _ hst => h.step hst)
  rintro s rfl
  exact ⟨rfl, rfl, fun _ _ h => (by cases h), List.nodup_nil, fun _ h => (by cases h)⟩

/-- A life goes on without a `start`. -/
theorem life_next {life life' : FifoLife} {b : FifoAct} (h : System.Reach (fifoLife n) (freshStart n) life)
    (hb : b ≠ .start) (hst : life.step n b = some life') : System.Reach (fifoLife n) (freshStart n) life' :=
  .next (M := fifoLife n) (a := b) h (fun hstart => absurd hstart hb) hst

/-- **A first start is the beginning of a life**, one that no `start` interrupts. -/
theorem life_reach (hs : System.Reach (fifoStart n) System.anyStep s) :
    System.Reach (fifoLife n) (freshStart n) s.life := by
  refine hs.invariant (fun s => System.Reach (fifoLife n) (freshStart n) s.life) ?_ ?_
  · rintro s rfl
    have hnew : System.Reach (fifoLife n) (freshStart n) FifoLife.new := .init rfl
    exact .next (M := fifoLife n) (a := .start) hnew (fun _ => .inl rfl) rfl
  · intro s a s' ih _ hst
    cases a with
    | spawnThread j =>
      simp only [fifoStart, FifoStart.step] at hst
      split at hst
      · obtain ⟨life, hlife, rfl⟩ := Option.map_eq_some_iff.1 hst
        exact life_next ih (by decide) hlife
      · cases hst
    | enter i k held =>
      obtain ⟨life, hlife, rfl⟩ := Option.map_eq_some_iff.1 hst
      exact life_next ih (fun h => (by cases h)) hlife
    | next i held =>
      obtain ⟨life, hlife, rfl⟩ := Option.map_eq_some_iff.1 hst
      exact life_next ih (fun h => (by cases h)) hlife

/-! ## The turns of one thread -/

/-- What `spawned` does at cursor `c`, on the thread with number `i`. -/
def turn (i c : Nat) : Option Nat := if c = i then none else some c

/-- `next` on a coroutine `spawned` got. -/
theorem next_spawned {th : FifoThread} (h : th.todo = .spawned) (held : List Handle) (m : Nat) :
    (th.next held m).1.target = turn th.threadId th.threadI ∧
      (th.next held m).2.threadI = RoundRobin.next m th.threadI := by
  simp only [FifoThread.next, h, turn]
  split
  · exact ⟨rfl, rfl⟩
  · exact ⟨rfl, rfl⟩

theorem next_threadI {th : FifoThread} (h : th.todo ≠ .spawned) (held : List Handle) (m : Nat) :
    (th.next held m).2.threadI = th.threadI := by
  unfold FifoThread.next
  split
  · rfl
  · exact absurd ‹_› h
  all_goals rfl

theorem enter_threadI (k : Callback) (held : List Handle) (th : FifoThread) :
    (th.enter k held).threadI = th.threadI := by
  cases k <;> rfl

/-- One step, seen by one of `n` scheduler threads: only a coroutine handed to `spawned` moves the cursor. -/
theorem step_turn {i : Nat} {th : FifoThread} (hst : s.step n a = some s') (hn : s.life.threadNum = n)
    (hi : s.life.threads[i]? = some th) :
    ∃ th', s'.life.threads[i]? = some th' ∧ th'.threadId = th.threadId ∧
      (s.spawnedCmd i a = none ∧ th'.threadI = th.threadI ∨
        ∃ cmd, s.spawnedCmd i a = some cmd ∧ cmd.target = turn th.threadId th.threadI ∧
          th'.threadI = RoundRobin.next n th.threadI) := by
  have hlt := (List.getElem?_eq_some_iff.1 hi).1
  obtain ⟨j, rfl, -, -, -, rfl⟩ | ⟨i', k, held, th', rfl, hi', rfl⟩ | ⟨i', held, th', rfl, hi', rfl⟩ := step_cases hst
  · exact ⟨th, by rw [List.getElem?_append_left hlt, hi], rfl, .inl ⟨rfl, rfl⟩⟩
  · rcases eq_or_ne i' i with rfl | hne
    · cases hi.symm.trans hi'
      exact ⟨_, List.getElem?_set_self hlt, FifoThread.enter_threadId k held, .inl ⟨rfl, enter_threadI k held th⟩⟩
    · exact ⟨th, by rw [List.getElem?_set_ne hne, hi], rfl, .inl ⟨rfl, rfl⟩⟩
  · rcases eq_or_ne i' i with rfl | hne
    · cases hi.symm.trans hi'
      refine ⟨_, List.getElem?_set_self hlt, FifoThread.next_threadId held, ?_⟩
      by_cases htodo : th.todo = .spawned
      · have hcmd : s.spawnedCmd i' (.next i' held) = some (th.next held s.life.threadNum).1 := by
          simp only [spawnedCmd, if_pos, hi, Option.bind_some, if_pos htodo]
        obtain ⟨htarget, hcursor⟩ := next_spawned htodo held s.life.threadNum
        exact .inr ⟨_, hcmd, htarget, by rw [hcursor, hn]⟩
      · have hcmd : s.spawnedCmd i' (.next i' held) = none := by
          simp only [spawnedCmd, if_pos, hi, Option.bind_some, if_neg htodo]
        exact .inl ⟨hcmd, next_threadI htodo held _⟩
    · exact ⟨th, by rw [List.getElem?_set_ne hne, hi], rfl, .inl ⟨if_neg hne, rfl⟩⟩

/-- Once all threads are created, they stay and `thread_num` is their number. -/
theorem step_full (h : Started n s) (hfull : s.order.length = n) (hst : s.step n a = some s') :
    s'.order = s.order ∧ s.life.threadNum = n := by
  have hlen := h.length
  have hnum : s.life.threadNum = n := by rw [h.count, ← hlen, hfull]
  obtain ⟨j, -, -, -, hlt, -⟩ | ⟨i, k, held, th, -, -, rfl⟩ | ⟨i, held, th, -, -, rfl⟩ := step_cases hst
  · omega
  · exact ⟨rfl, hnum⟩
  · exact ⟨rfl, hnum⟩

/-- **The targets of a thread's `spawned` are the turns of its cursor.** -/
theorem targets_eq {i : Nat} : ∀ (as : List StartAct) {s s' : FifoStart} {th : FifoThread}, Started n s →
    s.order.length = n → s.life.threads[i]? = some th → (fifoStart n).exec as s = some s' →
    (spawnedCmds n i as s).map Cmd.target =
      (RoundRobin.turns n th.threadI (spawnedCmds n i as s).length).map (turn th.threadId)
  | [], _, _, _, _, _, _, _ => rfl
  | a :: as, s, s', th, h, hfull, hi, hex => by
    simp only [System.exec] at hex
    cases hst : (fifoStart n).step s a with
    | none => rw [hst] at hex; cases hex
    | some s₁ =>
      rw [hst] at hex
      have hst₁ : s.step n a = some s₁ := hst
      obtain ⟨horder, hnum⟩ := step_full h hfull hst₁
      obtain ⟨th', hi', hid, hturn⟩ := step_turn hst₁ hnum hi
      have ih := targets_eq as (h.step hst₁) (by rw [horder, hfull]) hi' hex
      rw [hid] at ih
      simp only [spawnedCmds, hst₁]
      rcases hturn with ⟨hcmd, hcursor⟩ | ⟨cmd, hcmd, htarget, hcursor⟩
      · rw [hcmd, Option.toList_none, List.nil_append, ih, hcursor]
      · rw [hcmd, Option.toList_some, List.singleton_append, List.map_cons, ih, hcursor, htarget, List.length_cons,
          RoundRobin.turns, List.map_cons]

/-! ## When the two numberings agree -/

theorem Started.numbered_iff (h : Started n s) : s.Numbered ↔ s.order = List.range s.order.length := by
  constructor
  · intro hnum
    refine List.ext_getElem (by rw [List.length_range]) fun i hi _ => ?_
    rw [List.getElem_range]
    have hlt : i < s.life.threads.length := h.length ▸ hi
    have hth := List.getElem?_eq_getElem hlt
    rw [← hnum i _ _ hth (List.getElem?_eq_getElem hi)]
    exact h.ids i _ hth
  · intro horder i th j hth hj
    rw [horder] at hj
    rw [h.ids i th hth]
    exact (List.getElem_range _).symm.trans (List.getElem?_eq_some_iff.1 hj).2

/-- **Numbered threads spread**: a full round of the cursor reaches each thread once, and its own number means that the
coroutine stays. -/
theorem Started.spread (h : Started n s) (hcur : ∀ th ∈ s.life.threads, th.InRange s.life.threadNum)
    (hfull : s.order.length = n) (hnum : s.Numbered) : s.Spread n := by
  intro i j as s' m hj hex hlen
  have hi : i < s.life.threads.length := h.length ▸ (List.getElem?_eq_some_iff.1 hj).1
  have hth := List.getElem?_eq_getElem hi
  generalize s.life.threads[i] = th at hth
  have hid : th.threadId = j := hnum i th j hth hj
  have hcursor : th.threadI < n := by
    have hr := (hcur th (List.mem_of_getElem? hth)).2
    rwa [h.count, ← h.length, hfull] at hr
  have htargets := targets_eq as h hfull hth hex
  rw [hlen, hid] at htargets
  constructor
  · intro t ht
    have hdest : (fun cmd : Cmd => cmd.target.getD j) = (fun o : Option Nat => o.getD j) ∘ Cmd.target := rfl
    have hback : (fun o : Option Nat => o.getD j) ∘ turn j = id := by
      funext c
      simp only [Function.comp, turn]
      split
      · rename_i hc
        exact hc.symm
      · rfl
    rw [hdest, ← List.map_map, htargets, List.map_map, hback, List.map_id]
    exact RoundRobin.count_turns hcursor ht m
  · rw [htargets]
    intro hmem
    obtain ⟨c, -, hc⟩ := List.mem_map.1 hmem
    simp only [turn] at hc
    split at hc
    · cases hc
    · rename_i hne
      cases hc
      exact hne rfl

/-- Any number of coroutines can be handed to a thread's `spawned`. -/
theorem exists_deliveries {i : Nat} : ∀ (k : Nat) {s : FifoStart} {th : FifoThread},
    s.life.threads[i]? = some th →
    ∃ as s', (fifoStart n).exec as s = some s' ∧ (spawnedCmds n i as s).length = k
  | 0, s, _, _ => ⟨[], s, rfl, rfl⟩
  | k + 1, s, th, hi => by
    have hlt := (List.getElem?_eq_some_iff.1 hi).1
    let handed := th.enter .spawned [Handle.new 0]
    let s₁ : FifoStart := ⟨{ s.life with threads := s.life.threads.set i handed }, s.order⟩
    have hi₁ : s₁.life.threads[i]? = some handed := List.getElem?_set_self hlt
    let s₂ : FifoStart :=
      ⟨{ s₁.life with threads := s₁.life.threads.set i (handed.next [Handle.new 0] s.life.threadNum).2 }, s.order⟩
    have hi₂ : s₂.life.threads[i]? = some (handed.next [Handle.new 0] s.life.threadNum).2 :=
      List.getElem?_set_self (by rw [List.length_set]; exact hlt)
    obtain ⟨as, s', hex, hlen⟩ := exists_deliveries k hi₂
    have hst₁ : s.step n (.enter i .spawned [Handle.new 0]) = some s₁ := by
      simp only [step, FifoLife.step, hi, Option.map_some]
      rfl
    have hst₂ : s₁.step n (.next i [Handle.new 0]) = some s₂ := by
      simp only [step, FifoLife.step, hi₁, Option.map_some]
      rfl
    have hnone : s.spawnedCmd i (.enter i .spawned [Handle.new 0]) = none := rfl
    have hcmd : s₁.spawnedCmd i (.next i [Handle.new 0]) =
        some (handed.next [Handle.new 0] s₁.life.threadNum).1 := by
      simp only [spawnedCmd, if_pos, hi₁, Option.bind_some]
      exact if_pos rfl
    refine ⟨.enter i .spawned [Handle.new 0] :: .next i [Handle.new 0] :: as, s', ?_, ?_⟩
    · have hst₁' : (fifoStart n).step s (.enter i .spawned [Handle.new 0]) = some s₁ := hst₁
      have hst₂' : (fifoStart n).step s₁ (.next i [Handle.new 0]) = some s₂ := hst₂
      simp only [System.exec, hst₁', hst₂', hex]
    · simp only [spawnedCmds, hst₁, hst₂, hnone, hcmd, Option.toList_none, Option.toList_some, List.nil_append,
        List.singleton_append, List.length_cons, hlen]

/-- A thread whose number is not its index migrates coroutines to itself. -/
theorem Started.numbered_of_spread (h : Started n s) (hcur : ∀ th ∈ s.life.threads, th.InRange s.life.threadNum)
    (hfull : s.order.length = n) (hspread : s.Spread n) : s.Numbered := by
  intro i th j hth hj
  by_contra hne
  have hcursor : th.threadI < n := by
    have hr := (hcur th (List.mem_of_getElem? hth)).2
    rwa [h.count, ← h.length, hfull] at hr
  obtain ⟨as, s', hex, hlen⟩ := exists_deliveries n hth
  obtain ⟨-, hself⟩ := hspread i j as s' 1 hj hex (by rw [hlen, Nat.one_mul])
  apply hself
  rw [targets_eq as h hfull hth hex, hlen]
  have hmem := RoundRobin.mem_turns_round hcursor (h.lt j (List.mem_of_getElem? hj))
  exact List.mem_map.2 ⟨j, hmem, if_neg fun hid => hne hid.symm⟩

/-- **The round robin spreads evenly**, and `thread_id` is the index in `senders`, exactly when the threads happen to
call `spawn_thread` in the order of their indices. -/
theorem round_robin_iff (hs : System.Reach (fifoStart n) System.anyStep s) :
    s.Numbered ∧ (s.order.length = n → s.Spread n) ↔ s.order = List.range s.order.length := by
  have h := started hs
  have hcur := (freshLife (life_reach hs)).cursors
  constructor
  · intro hboth
    exact h.numbered_iff.1 hboth.1
  · intro horder
    have hnum := h.numbered_iff.2 horder
    exact ⟨hnum, fun hfull => h.spread hcur hfull hnum⟩

/-- The same for the spreading alone. -/
theorem spread_iff (hs : System.Reach (fifoStart n) System.anyStep s) (hfull : s.order.length = n) :
    s.Spread n ↔ s.order = List.range n := by
  have h := started hs
  have hcur := (freshLife (life_reach hs)).cursors
  rw [← hfull, ← h.numbered_iff, hfull]
  exact ⟨h.numbered_of_spread hcur hfull, h.spread hcur hfull⟩

/-- Two threads; the only other one comes second. -/
theorem round_robin_iff_two : ∃ s, System.Reach (fifoStart 2) System.anyStep s ∧
    (s.Numbered ∧ (s.order.length = 2 → s.Spread 2) ↔ s.order = List.range s.order.length) := by
  have h0 : System.Reach (fifoStart 2) System.anyStep FifoStart.new := .init rfl
  have hrun : System.Reach (fifoStart 2) System.anyStep ⟨⟨true, 2, [⟨0, 0, .done⟩, ⟨1, 1, .done⟩]⟩, [0, 1]⟩ :=
    System.reach_exec_of_forall [.spawnThread 0, .spawnThread 1] _ _ h0 (fun _ _ _ => trivial) (by decide)
  exact ⟨_, hrun, round_robin_iff hrun⟩

/-- Three threads: the last one is faster than the second. -/
def raced : FifoStart := ⟨⟨true, 3, [⟨0, 0, .done⟩, ⟨1, 1, .done⟩, ⟨2, 2, .done⟩]⟩, [0, 2, 1]⟩

/-- The coroutines thread 1 is to start: it takes number 2 for its own, and number 1 for another thread's. -/
def racedSpawns : List StartAct :=
  [.enter 2 .spawned [Handle.new 0], .next 2 [Handle.new 0], .enter 2 .spawned [Handle.new 1], .next 2 [Handle.new 1],
    .enter 2 .spawned [Handle.new 2], .next 2 [Handle.new 2]]

/-- It keeps two of three coroutines, one of them by a migration to itself, and thread 2 gets none. -/
theorem raced_unbalanced : System.Reach (fifoStart 3) System.anyStep raced ∧ ¬ raced.Numbered ∧ ¬ raced.Spread 3 ∧
    (spawnedCmds 3 2 racedSpawns raced).map Cmd.target = [none, some 0, some 1] := by
  have h0 : System.Reach (fifoStart 3) System.anyStep FifoStart.new := .init rfl
  refine ⟨?_, ?_, ?_, by decide⟩
  · exact System.reach_exec_of_forall [.spawnThread 0, .spawnThread 2, .spawnThread 1] _ _ h0 (fun _ _ _ => trivial)
      (by decide)
  · intro hnum
    have hid := hnum 1 ⟨1, 1, .done⟩ 2 rfl rfl
    cases hid
  · intro hspread
    obtain ⟨s', hex⟩ : ∃ s', (fifoStart 3).exec racedSpawns raced = some s' := ⟨_, rfl⟩
    obtain ⟨hcount, -⟩ := hspread 2 1 racedSpawns s' 1 rfl hex (by decide)
    have htwo := hcount 2 (by decide)
    revert htwo
    decide

end FifoStart
end Mioco
