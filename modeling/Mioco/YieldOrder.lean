import Mioco.QueueMoves
/-!
# Yields are served in order (src/mod.rs, src/thread.rs)

`Logged` is an instance with the default scheduler and a log of the yields of every thread.  A yield waits in `ready`,
then in `delayed`; `InLine` says that what waits there is what the log says has not been served, in its order.
-/
namespace Mioco

open Lib (System)

/-- The yields of one thread. -/
structure YieldLog where
  /-- the coroutines that came back from a yield, and when -/
  yields : List (Nat × Nat)
  /-- how many of them were resumed, or dropped with the `Handler` -/
  left : Nat
  /-- `delayed` when `scheduler.tick` was last called -/
  atTick : List Handle
  /-- what it has resumed since then -/
  ticked : List Handle
deriving DecidableEq, Repr

namespace YieldLog

def new : YieldLog := ⟨[], 0, [], []⟩

/-- A handle leaves the queues. -/
def serve (log : YieldLog) (h : Handle) : YieldLog :=
  { log with left := if h.isYielding then log.left + 1 else log.left }

/-- One step, with the queues before it. -/
def record (log : YieldLog) (d : Deliver) (now : Nat) : LineEvent → YieldLog
  | .quiet | .returns _ => log
  | .yields c => { log with yields := log.yields ++ [(c, now)] }
  | .resumes k h => { log.serve h with ticked := if k = .tick then log.ticked ++ [h] else log.ticked }
  | .drops h => log.serve h
  | .ticks => { log with atTick := d.delayed, ticked := [] }

/-- The yields not served yet. -/
def unserved (log : YieldLog) : List (Nat × Nat) := log.yields.drop log.left

end YieldLog

namespace Deliver

/-- Every handle is a yielding one. -/
def AllYielding (l : List Handle) : Prop := ∀ h ∈ l, h.isYielding = true

/-- In a callback of the scheduler: the handle it got is still to be handled, or it has been. -/
def InCall (d : Deliver) : Callback → Prop
  | .spawned => d.sched.todo = .done ∧ AllYielding d.delayed ∨
      ∃ l h, d.delayed = l ++ [h] ∧ AllYielding l ∧ h.isYielding = false ∧ d.sched.todo = .spawned
  | .ready => d.sched.todo = .done ∧ AllYielding d.delayed ∨
      ∃ l h, d.delayed = l ++ [h] ∧ AllYielding l ∧ d.sched.todo = .ready h.isYielding
  | .tick => d.sched.todo = .tick d.delayed.length ∧ AllYielding d.delayed

/-- What the queues look like in each phase. -/
def Shape (d : Deliver) : LinePhase → Prop
  | .starting => d.delayed = []
  | .outside => AllYielding d.delayed ∧ d.spawned = [] ∧ d.ready = []
  | .call k => d.InCall k
  | .deliverSpawned => AllYielding d.delayed
  | .deliverReady noSpawned => AllYielding d.delayed ∧ (noSpawned = true → d.spawned = [])
  | .stopping | .ended => True

end Deliver

/-- **What waits is what has not been served**, in the order of the yields. -/
structure InLine (l : Line) (log : YieldLog) (now : Nat) : Prop where
  times : log.yields.Pairwise (fun a b => a.2 < b.2)
  past : ∀ y ∈ log.yields, y.2 < now
  left_le : log.left ≤ log.yields.length
  waiting : l.queues.waiting.map Handle.co = log.unserved.map Prod.fst
  spawned : ∀ h ∈ l.queues.spawned, h.isYielding = false
  shape : l.queues.Shape l.phase
  tick : l.phase = .call .tick → log.atTick = log.ticked ++ l.queues.delayed

section next
variable {th : FifoThread} (held : List Handle) (m : Nat)

theorem next_of_done (h : th.todo = .done) : th.next held m = (.ret, th) := by
  simp only [FifoThread.next, h]

theorem next_of_spawned (h : th.todo = .spawned) : (th.next held m).1 = .resume (held.length - 1) ∨
    (th.next held m).1 = .migrate (held.length - 1) th.threadI := by
  simp only [FifoThread.next, h]
  split
  · exact .inl rfl
  · exact .inr rfl

theorem todo_of_spawned (h : th.todo = .spawned) : (th.next held m).2.todo = .done := by
  simp only [FifoThread.next, h]

theorem next_of_ready {b : Bool} (h : th.todo = .ready b) : th.next held m =
    (if b then .ret else .resume (held.length - 1), { th with todo := .done }) := by
  cases b <;> simp [FifoThread.next, h]

theorem next_of_tick {n : Nat} (h : th.todo = .tick (n + 1)) : th.next held m = (.resume 0, { th with todo := .tick n }) := by
  simp only [FifoThread.next, h]

theorem next_of_tick_zero (h : th.todo = .tick 0) : th.next held m = (.ret, { th with todo := .done }) := by
  simp only [FifoThread.next, h]

end next

namespace Deliver
variable {d : Deliver} {m i : Nat} {k : Callback}

/-- A handle leaves the scheduler. -/
def took (d : Deliver) (i m : Nat) : Deliver :=
  { d with delayed := d.delayed.eraseIdx i, sched := (d.sched.next d.delayed m).2 }

theorem allYielding_nil : AllYielding [] := fun _ h => by cases h

theorem eraseIdx_last (l : List Handle) (x : Handle) : (l ++ [x]).eraseIdx ((l ++ [x]).length - 1) = l := by
  rw [List.length_append, List.length_singleton, Nat.add_sub_cancel, List.eraseIdx_append_of_length_le (Nat.le_refl _),
    Nat.sub_self]
  exact List.append_nil l

theorem getElem?_last (l : List Handle) (x : Handle) : (l ++ [x])[(l ++ [x]).length - 1]? = some x := by
  rw [← List.getLast?_eq_getElem?, List.getLast?_concat]

/-- The handle a callback was called with is the last one, and is not yielding. -/
theorem takes_last {l : List Handle} {x : Handle} (hd : d.delayed = l ++ [x]) (hl : AllYielding l)
    (hx : x.isYielding = false) (hdone : (d.sched.next d.delayed m).2.todo = .done) (hi : i = d.delayed.length - 1) :
    d.delayed[i]? = some x ∧ (d.took i m).sched.todo = .done ∧ AllYielding (d.took i m).delayed ∧
      d.waiting = [x].filter Handle.isYielding ++ (d.took i m).waiting := by
  have herase : (d.took i m).delayed = l := by
    simp only [took, hi, hd]
    exact eraseIdx_last l x
  refine ⟨?_, hdone, herase.symm ▸ hl, ?_⟩
  · rw [hi, hd]
    exact getElem?_last l x
  · simp only [waiting, herase, hd, List.filter_append, List.filter_cons, hx, List.filter_nil, Bool.false_eq_true, if_false,
      List.append_nil, List.nil_append]
    rfl

/-- **A callback takes a handle it holds**: the one it was called with, or the first of a tick. -/
theorem InCall.takes (h : d.InCall k)
    (hc : (d.sched.next d.delayed m).1 = .resume i ∨ ∃ j, (d.sched.next d.delayed m).1 = .migrate i j) :
    ∃ x, d.delayed[i]? = some x ∧ (d.took i m).InCall k ∧
      d.waiting = [x].filter Handle.isYielding ++ (d.took i m).waiting ∧
      (k = .tick → d.delayed = x :: (d.took i m).delayed) ∧
      ((∃ j, (d.sched.next d.delayed m).1 = .migrate i j) → x.isYielding = false) := by
  cases k with
  | spawned =>
    rcases h with ⟨htodo, -⟩ | ⟨l, x, hd, hl, hx, htodo⟩
    · rw [next_of_done d.delayed m htodo] at hc
      rcases hc with hc | ⟨j, hc⟩ <;> cases hc
    · have hi : i = d.delayed.length - 1 := by
        rcases next_of_spawned d.delayed m htodo with hn | hn <;> rw [hn] at hc <;>
          rcases hc with hc | ⟨j, hc⟩ <;> cases hc <;> rfl
      obtain ⟨h1, h2, h3, h4⟩ := takes_last hd hl hx (todo_of_spawned _ _ htodo) hi
      exact ⟨x, h1, .inl ⟨h2, h3⟩, h4, fun hk => (by cases hk), fun _ => hx⟩
  | ready =>
    rcases h with ⟨htodo, -⟩ | ⟨l, x, hd, hl, htodo⟩
    · rw [next_of_done d.delayed m htodo] at hc
      rcases hc with hc | ⟨j, hc⟩ <;> cases hc
    · have hnext := next_of_ready d.delayed m htodo
      rw [hnext] at hc
      cases hx : x.isYielding with
      | true =>
        rw [hx] at hc
        rcases hc with hc | ⟨j, hc⟩ <;> cases hc
      | false =>
        rw [hx] at hc
        have hi : i = d.delayed.length - 1 := by rcases hc with hc | ⟨j, hc⟩ <;> cases hc; rfl
        obtain ⟨h1, h2, h3, h4⟩ := takes_last (m := m) hd hl hx (by rw [hnext]) hi
        exact ⟨x, h1, .inl ⟨h2, h3⟩, h4, fun hk => (by cases hk), fun _ => hx⟩
  | tick =>
    obtain ⟨htodo, hall⟩ := h
    cases hd : d.delayed with
    | nil =>
      rw [hd] at htodo
      rw [next_of_tick_zero _ m htodo] at hc
      rcases hc with hc | ⟨j, hc⟩ <;> cases hc
    | cons x rest =>
      have hnext := next_of_tick d.delayed m (n := rest.length) (by rw [htodo, hd]; rfl)
      rw [hd] at hnext
      have hnot : ∀ i j, (d.sched.next (x :: rest) m).1 ≠ .migrate i j := by
        rw [hnext]
        exact fun i j hm => by cases hm
      rw [hd] at hc
      obtain rfl : i = 0 := by
        rcases hc with hc | ⟨j, hc⟩
        · rw [hnext] at hc
          cases hc
          rfl
        · exact absurd hc (hnot i j)
      have herase : (d.took 0 m).delayed = rest := by simp only [took, hd, List.eraseIdx_cons_zero]
      have hx : x.isYielding = true := hall x (by rw [hd]; exact List.mem_cons_self)
      refine ⟨x, rfl, ⟨?_, fun y hy => hall y ?_⟩, ?_, fun _ => by rw [herase], fun hm => ?_⟩
      · rw [herase]
        simp only [took]
        rw [hd, hnext]
      · rw [herase] at hy
        rw [hd]
        exact List.mem_cons_of_mem x hy
      · simp only [waiting, herase, hd, List.filter_cons, hx, if_true, List.filter_nil]
        rfl
      · obtain ⟨j, hj⟩ := hm
        exact absurd hj (hnot 0 j)

/-- **A callback that returns has handled what it got.** -/
theorem InCall.returns (h : d.InCall k) (hc : (d.sched.next d.delayed m).1 = .ret) :
    AllYielding d.delayed ∧ (k = .tick → d.delayed = []) := by
  cases k with
  | spawned =>
    rcases h with ⟨-, hall⟩ | ⟨l, x, hd, hl, hx, htodo⟩
    · exact ⟨hall, fun hk => by cases hk⟩
    · rcases next_of_spawned d.delayed m htodo with hn | hn <;> rw [hn] at hc <;> cases hc
  | ready =>
    rcases h with ⟨-, hall⟩ | ⟨l, x, hd, hl, htodo⟩
    · exact ⟨hall, fun hk => by cases hk⟩
    · rw [next_of_ready _ _ htodo] at hc
      cases hx : x.isYielding with
      | false =>
        rw [hx] at hc
        cases hc
      | true =>
        refine ⟨fun y hy => ?_, fun hk => by cases hk⟩
        rw [hd] at hy
        rcases List.mem_append.1 hy with hy | hy
        · exact hl y hy
        · rw [List.mem_singleton.1 hy, hx]
  | tick =>
    obtain ⟨htodo, hall⟩ := h
    cases hd : d.delayed with
    | nil => exact ⟨allYielding_nil, fun _ => rfl⟩
    | cons x rest =>
      rw [next_of_tick _ _ (n := rest.length) (by rw [htodo, hd]; rfl)] at hc
      cases hc

end Deliver

/-! ## One step -/

namespace YieldLog
variable {log : YieldLog} {l l' : List Handle} {h : Handle}

/-- The first of those that wait is served. -/
theorem unserved_serve (hw : l.map Handle.co = log.unserved.map Prod.fst)
    (hl : l = [h].filter Handle.isYielding ++ l') : l'.map Handle.co = (log.serve h).unserved.map Prod.fst := by
  cases hy : h.isYielding with
  | false =>
    rw [List.filter_cons_of_neg (by rw [hy]; exact Bool.false_ne_true), List.filter_nil, List.nil_append] at hl
    rw [← hl, hw]
    simp only [serve, unserved, hy, Bool.false_eq_true, if_false]
  | true =>
    rw [List.filter_cons_of_pos hy, List.filter_nil, List.singleton_append] at hl
    rw [hl, List.map_cons] at hw
    have hdrop : (log.serve h).unserved = log.unserved.tail := by
      simp only [serve, unserved, hy, if_true, List.tail_drop]
    rw [hdrop, List.map_tail, ← hw, List.tail_cons]

theorem left_serve (hw : l.map Handle.co = log.unserved.map Prod.fst) (hl : l = [h].filter Handle.isYielding ++ l')
    (hle : log.left ≤ log.yields.length) : (log.serve h).left ≤ log.yields.length := by
  cases hy : h.isYielding with
  | false =>
    simp only [serve, hy, Bool.false_eq_true, if_false]
    exact hle
  | true =>
    have hlen := congrArg List.length hw
    rw [hl, List.filter_cons_of_pos hy, List.length_map, List.length_map, unserved, List.length_drop] at hlen
    simp only [List.filter_nil, List.singleton_append, List.length_cons] at hlen
    simp only [serve, hy, if_true]
    omega

end YieldLog

namespace InLine
variable {l : Line} {log : YieldLog} {now : Nat}

/-- Nothing happens to the yields. -/
theorem quiet (h : InLine l log now) (l' : Line) (hw : l'.queues.waiting = l.queues.waiting)
    (hs : ∀ x ∈ l'.queues.spawned, x.isYielding = false) (hshape : l'.queues.Shape l'.phase)
    (htick : l'.phase = .call .tick → log.atTick = log.ticked ++ l'.queues.delayed) : InLine l' log (now + 1) where
  times := h.times
  past y hy := Nat.lt_succ_of_lt (h.past y hy)
  left_le := h.left_le
  waiting := by rw [hw, h.waiting]
  spawned := hs
  shape := hshape
  tick := htick

/-- The first one waiting leaves, if it is a yielding one. -/
theorem serve {x : Handle} (h : InLine l log now) (l' : Line)
    (hw : l.queues.waiting = [x].filter Handle.isYielding ++ l'.queues.waiting)
    (hs : ∀ x ∈ l'.queues.spawned, x.isYielding = false) (hshape : l'.queues.Shape l'.phase) {ticked : List Handle}
    (htick : l'.phase = .call .tick → log.atTick = ticked ++ l'.queues.delayed) :
    InLine l' { log.serve x with ticked := ticked } (now + 1) where
  times := h.times
  past y hy := Nat.lt_succ_of_lt (h.past y hy)
  left_le := YieldLog.left_serve h.waiting hw h.left_le
  waiting := YieldLog.unserved_serve h.waiting hw
  spawned := hs
  shape := hshape
  tick := htick

/-- A handle is dropped with the `Handler`. -/
theorem dropped {d d' : Deliver} {p : LinePhase} {x : Handle} (h : InLine ⟨.stopping, d⟩ log now)
    (hp : p = .stopping ∨ p = .ended) (hw : d.waiting = [x].filter Handle.isYielding ++ d'.waiting)
    (hs : ∀ x ∈ d'.spawned, x.isYielding = false) : InLine ⟨p, d'⟩ (log.serve x) (now + 1) := by
  rcases hp with rfl | rfl
  · exact h.serve ⟨.stopping, d'⟩ hw hs trivial fun hk => by cases hk
  · exact h.serve ⟨.ended, d'⟩ hw hs trivial fun hk => by cases hk

/-- A yield is the last in line. -/
theorem yields {c : Nat} (h : InLine l log now) (l' : Line)
    (hw : l'.queues.waiting = l.queues.waiting ++ [⟨c, true⟩])
    (hs : ∀ x ∈ l'.queues.spawned, x.isYielding = false) (hshape : l'.queues.Shape l'.phase)
    (htick : l'.phase = .call .tick → log.atTick = log.ticked ++ l'.queues.delayed) :
    InLine l' { log with yields := log.yields ++ [(c, now)] } (now + 1) where
  times := by
    refine List.pairwise_append.2 ⟨h.times, List.pairwise_singleton _ _, fun a ha b hb => ?_⟩
    rw [List.mem_singleton.1 hb]
    exact h.past a ha
  past y hy := by
    rcases List.mem_append.1 hy with hy | hy
    · exact Nat.lt_succ_of_lt (h.past y hy)
    · rw [List.mem_singleton.1 hy]
      exact Nat.lt_succ_self now
  left_le := by
    rw [List.length_append]
    exact Nat.le_add_right_of_le h.left_le
  waiting := by
    rw [hw, YieldLog.unserved, List.drop_append_of_le_length h.left_le, List.map_append, List.map_append, h.waiting]
    rfl
  spawned := hs
  shape := hshape
  tick := htick

end InLine

namespace Deliver
variable {d : Deliver} {th : FifoThread} {x : Handle}

theorem waiting_enter (d : Deliver) (k : Callback) (l : List Handle) (th : FifoThread) :
    (d.enter k l th).waiting =
      d.delayed.filter Handle.isYielding ++ (l.filter Handle.isYielding ++ d.ready.filter Handle.isYielding) := by
  simp only [waiting, enter, List.filter_append, List.append_assoc]

/-- `spawned` is called. -/
theorem inCall_spawned (h : AllYielding d.delayed) (hx : x.isYielding = false) :
    (d.enter .spawned [x] th).InCall .spawned :=
  .inr ⟨d.delayed, x, rfl, h, hx, rfl⟩

/-- `ready` is called. -/
theorem inCall_ready (h : AllYielding d.delayed) : (d.enter .ready [x] th).InCall .ready := by
  refine .inr ⟨d.delayed, x, rfl, h, ?_⟩
  simp only [enter, FifoThread.enter, List.getLast?_concat, Option.any_some]

/-- `tick` is called. -/
theorem inCall_tick (h : AllYielding d.delayed) : (d.enter .tick [] th).InCall .tick := by
  have hd : (d.enter .tick [] th).delayed = d.delayed := List.append_nil d.delayed
  refine ⟨?_, hd.symm ▸ h⟩
  rw [hd]
  simp only [enter, FifoThread.enter, List.append_nil]

theorem shape_afterCall {k : Callback} (h : AllYielding d.delayed) : d.Shape (LinePhase.afterCall k) := by
  cases k with
  | spawned => exact ⟨h, fun hb => by cases hb⟩
  | ready => exact h
  | tick => exact h

/-- What a coroutine that comes back adds to those that wait. -/
theorem waiting_resume (c : Nat) (r : Resume) : (d.resume (Handle.new c) r).waiting =
    d.waiting ++ if r.ends = .yielding then [⟨c, true⟩] else [] := by
  cases hr : r.ends <;> simp [waiting, resume, requeued, Handle.new, hr]

theorem spawned_resume {c : Nat} {r : Resume} (h : ∀ x ∈ d.spawned, x.isYielding = false) :
    ∀ x ∈ (d.resume (Handle.new c) r).spawned, x.isYielding = false := by
  intro x hx
  rcases List.mem_append.1 hx with hx | hx
  · exact h x hx
  · obtain ⟨c', -, rfl⟩ := List.mem_map.1 hx
    rfl

/-- Only `delayed` and the scheduler matter in a callback. -/
theorem inCall_congr {d' : Deliver} {k : Callback} (h : d.InCall k) (hd : d'.delayed = d.delayed)
    (hs : d'.sched = d.sched) : d'.InCall k := by
  cases k <;> simp only [InCall, hd, hs] at * <;> exact h

end Deliver

/-- **Each move keeps the yields in line.** -/
theorem LineMove.keeps {l l' : Line} {e : LineEvent} {log : YieldLog} {now : Nat} (h : InLine l log now)
    (hm : LineMove l e l') : InLine l' (log.record l.queues now e) (now + 1) := by
  cases hm with
  | stays => exact h.quiet _ rfl h.spawned h.shape h.tick
  | panics p d => exact h.quiet _ rfl h.spawned trivial fun hk => by cases hk
  | ticks p d th hp =>
    have hall : Deliver.AllYielding d.delayed := by
      rcases hp with rfl | rfl
      · have hnil : d.delayed = [] := h.shape
        rw [hnil]
        exact Deliver.allYielding_nil
      · exact h.shape.1
    refine ⟨h.times, fun y hy => Nat.lt_succ_of_lt (h.past y hy), h.left_le, ?_, h.spawned, Deliver.inCall_tick hall, ?_⟩
    · rw [Deliver.waiting_enter]
      exact h.waiting
    · intro _
      exact (List.append_nil d.delayed).symm
  | arrives d c =>
    refine h.quiet _ ?_ h.spawned (Deliver.inCall_ready h.shape.1) fun hk => by cases hk
    rw [Deliver.waiting_enter]
    rfl
  | delivers d => exact h.quiet _ rfl h.spawned h.shape.1 fun hk => by cases hk
  | stops d => exact h.quiet _ rfl h.spawned trivial fun hk => by cases hk
  | returns k d m hret =>
    have hcall : d.InCall k := h.shape
    refine h.quiet _ rfl h.spawned (Deliver.shape_afterCall (hcall.returns hret).1) fun hk => ?_
    cases k <;> cases hk
  | resumes k d m i x p hcmd hx hp =>
    have hcall : d.InCall k := h.shape
    obtain ⟨y, hy, hin, hw, htick, -⟩ := hcall.takes (.inl hcmd)
    rw [hx] at hy
    cases hy
    refine h.serve ⟨_, _⟩ hw h.spawned ?_ fun hk => ?_
    · rcases hp with rfl | rfl
      · exact hin
      · trivial
    · rcases hp with rfl | rfl
      · cases hk
        rw [if_pos rfl, List.append_assoc, List.singleton_append]
        have hd := h.tick rfl
        rw [htick rfl] at hd
        exact hd
      · cases hk
  | migrates k d m i j x hcmd hx =>
    have hcall : d.InCall k := h.shape
    obtain ⟨y, hy, hin, hw, -, hnot⟩ := hcall.takes (.inr ⟨j, hcmd⟩)
    rw [hx] at hy
    cases hy
    have hfalse := hnot ⟨j, hcmd⟩
    rw [List.filter_cons_of_neg (by rw [hfalse]; exact Bool.false_ne_true), List.filter_nil, List.nil_append] at hw
    refine h.quiet _ hw.symm h.spawned hin fun hk => ?_
    -- a tick holds yielding handles only
    cases hk
    have htrue := hcall.2 x (List.mem_of_getElem? hx)
    rw [hfalse] at htrue
    cases htrue
  | strays k d m i l' hcmd hx =>
    have hcall : d.InCall k := h.shape
    obtain ⟨y, hy, -⟩ := hcall.takes hcmd
    rw [hx] at hy
    cases hy
  | comesBack k d c r e he =>
    have hcall : d.InCall k := h.shape
    have hw := Deliver.waiting_resume (d := d) c r
    by_cases hr : r.ends = .yielding
    · rw [if_pos hr] at hw
      rw [he, if_pos hr]
      exact h.yields _ hw (Deliver.spawned_resume h.spawned) (Deliver.inCall_congr hcall rfl rfl) h.tick
    · rw [if_neg hr, List.append_nil] at hw
      rw [he, if_neg hr]
      exact h.quiet _ hw (Deliver.spawned_resume h.spawned) (Deliver.inCall_congr hcall rfl rfl) h.tick
  | popSpawned d x rest hsp =>
    have hx : x.isYielding = false := h.spawned x (by rw [hsp]; exact List.mem_cons_self)
    refine h.quiet _ ?_ (fun y hy => h.spawned y ?_) (Deliver.inCall_spawned h.shape hx) fun hk => by cases hk
    · rw [Deliver.waiting_enter, List.filter_cons_of_neg (by rw [hx]; exact Bool.false_ne_true)]
      rfl
    · rw [hsp]
      exact List.mem_cons_of_mem x hy
  | noSpawned d hsp => exact h.quiet _ rfl h.spawned ⟨h.shape, fun _ => hsp⟩ fun hk => by cases hk
  | popReady d b x rest hr =>
    refine h.quiet _ ?_ h.spawned (Deliver.inCall_ready h.shape.1) fun hk => by cases hk
    rw [Deliver.waiting_enter, ← List.filter_append, List.singleton_append, ← hr]
    rfl
  | noReady d b hr =>
    cases b with
    | true => exact h.quiet _ rfl h.spawned ⟨h.shape.1, h.shape.2 rfl, hr⟩ fun hk => by cases hk
    | false => exact h.quiet _ rfl h.spawned h.shape.1 fun hk => by cases hk
  | dropsHeld d x rest p hd hp =>
    have hw : d.waiting = [x].filter Handle.isYielding ++ Deliver.waiting { d with delayed := rest } := by
      simp only [Deliver.waiting, hd]
      rw [← List.append_assoc, ← List.filter_append [x], List.singleton_append]
    exact h.dropped hp hw h.spawned
  | dropsSpawned d x rest p hd hsp hp =>
    have hx : x.isYielding = false := h.spawned x (by rw [hsp]; exact List.mem_cons_self)
    have hw : d.waiting = [x].filter Handle.isYielding ++ Deliver.waiting { d with spawned := rest } := by
      rw [List.filter_cons_of_neg (by rw [hx]; exact Bool.false_ne_true)]
      rfl
    have hs : ∀ y ∈ rest, y.isYielding = false := fun y hy => h.spawned y (by rw [hsp]; exact List.mem_cons_of_mem x hy)
    exact h.dropped hp hw hs
  | dropsReady d x rest p hd hsp hr hp =>
    have hw : d.waiting = [x].filter Handle.isYielding ++ Deliver.waiting { d with ready := rest } := by
      simp only [Deliver.waiting, hd, hr, List.filter_nil, List.nil_append]
      rw [← List.filter_append, List.singleton_append]
    exact h.dropped hp hw h.spawned

namespace InLine
variable {l l' : Line} {log : YieldLog} {now : Nat}

theorem starts_tick (h : InLine l log now) (hm : LineMove l .ticks l') : Deliver.AllYielding l.queues.delayed := by
  cases hm with
  | ticks p d th hp =>
    rcases hp with rfl | rfl
    · have hnil : d.delayed = [] := h.shape
      simp only [hnil]
      exact Deliver.allYielding_nil
    · exact h.shape.1
  | comesBack k d c r e he =>
    split at he <;> cases he

theorem ends_tick (h : InLine l log now) (hm : LineMove l (.returns .tick) l') : log.ticked = log.atTick := by
  cases hm with
  | returns k d m hret =>
    have hcall : d.InCall .tick := h.shape
    have hnil : d.delayed = [] := (hcall.returns hret).2 rfl
    have hat := h.tick rfl
    rw [hnil, List.append_nil] at hat
    exact hat.symm
  | comesBack k d c r e he => split at he <;> cases he

/-- **Whoever is resumed after a yield is the first in line.** -/
theorem first {k : Callback} {x : Handle} (h : InLine l log now) (hm : LineMove l (.resumes k x) l')
    (hx : x.isYielding = true) : ∃ y, log.unserved.head? = some y ∧ y.1 = x.co := by
  cases hm with
  | resumes k d m i y p hcmd hy hp =>
    have hcall : d.InCall k := h.shape
    obtain ⟨y, hy', -, hw, -⟩ := hcall.takes (.inl hcmd)
    rw [hy] at hy'
    cases hy'
    rw [List.filter_cons_of_pos hx, List.filter_nil, List.singleton_append] at hw
    have hwait := h.waiting
    simp only [hw, List.map_cons] at hwait
    cases hu : log.unserved with
    | nil =>
      rw [hu] at hwait
      cases hwait
    | cons z rest =>
      rw [hu, List.map_cons] at hwait
      exact ⟨z, rfl, (List.cons.inj hwait).1.symm⟩
  | comesBack k d c r e he => split at he <;> cases he

end InLine

/-! ## Runs -/

/-- An instance with the yields of its threads. -/
structure Logged (w : Nat) (α : Type) where
  inst : Instance fifo w α
  /-- how many steps there were -/
  now : Nat
  log : Nat → YieldLog

namespace Logged
variable {w : Nat} {α : Type} {cfg : Config} {bound : Nat → Option Nat}

def step (cfg : Config) (s : Logged w α) (a : Action α) : Option (Logged w α) :=
  match s.inst.step cfg a with
  | none => none
  | some inst =>
    some { inst := inst, now := s.now + 1, log t := (s.log t).record (s.inst.line t).queues s.now (s.inst.event t a) }

def start (w : Nat) {α : Type} (bound : Nat → Option Nat) : Logged w α := ⟨.start fifo w bound, 0, fun _ => .new⟩

end Logged

def logged (w : Nat) (α : Type) (cfg : Config) (bound : Nat → Option Nat) : System (Logged w α) (Action α) where
  Init s := s = Logged.start w bound
  step := Logged.step cfg

namespace Logged
variable {w : Nat} {α : Type} {cfg : Config} {bound : Nat → Option Nat}

/-- The log leaves the runs of the instance as they are. -/
theorem reach_logged {i : Instance fifo w α} (h : (mioco fifo w α cfg bound).Reach System.anyStep i) :
    ∃ s, (logged w α cfg bound).Reach System.anyStep s ∧ s.inst = i := by
  refine h.lift Logged.inst (fun i hi => ⟨Logged.start w bound, rfl, (show _ = _ from hi).symm⟩) (fun s a i' hst => ?_)
  have hinst : s.inst.step cfg a = some i' := hst
  refine ⟨a, ?_⟩
  simp only [logged, Logged.step, hinst]
  exact ⟨_, rfl, rfl⟩

theorem inLine_start (t : Nat) : InLine ((Instance.start fifo w (α := α) bound).line t) .new 0 := by
  have hrest : (Deliver.view ((Instance.start fifo w (α := α) bound).threads t)).delayed = [] ∧
      (Deliver.view ((Instance.start fifo w (α := α) bound).threads t)).ready = [] ∧
      (∀ h ∈ (Deliver.view ((Instance.start fifo w (α := α) bound).threads t)).spawned, h.isYielding = false) ∧
      ((Instance.start fifo w (α := α) bound).threads t).pc = .starting := by
    simp only [Instance.start, Function.update_apply]
    split
    · refine ⟨rfl, rfl, fun h hh => ?_, rfl⟩
      rw [List.mem_singleton.1 hh]
      rfl
    · exact ⟨rfl, rfl, fun h hh => (by cases hh), rfl⟩
  obtain ⟨hd, hr, hs, hpc⟩ := hrest
  refine ⟨List.Pairwise.nil, fun y hy => (by cases hy), Nat.le_refl 0, ?_, hs, ?_, fun hk => ?_⟩
  · simp only [Instance.line, Deliver.waiting, hd, hr]
    rfl
  · simp only [Instance.line, hpc]
    exact hd
  · simp only [Instance.line, hpc] at hk
    cases hk

theorem reach_inLine {s : Logged w α} (hs : (logged w α cfg bound).Reach System.anyStep s) (t : Nat) :
    InLine (s.inst.line t) (s.log t) s.now := by
  refine System.Reach.invariant (fun s => InLine (s.inst.line t) (s.log t) s.now) (fun s hi => ?_)
    (fun s a s' h _ hst => ?_) hs
  · cases (show s = _ from hi)
    exact inLine_start t
  · simp only [logged, Logged.step] at hst
    split at hst <;> cases hst
    rename_i inst hinst
    exact (Instance.line_step t hinst).keeps h

/-- What `tick` is called with. -/
theorem atTick_eq {s : Logged w α} {t : Nat} (h : InLine (s.inst.line t) (s.log t) s.now)
    (hall : Deliver.AllYielding (s.inst.threads t).held) :
    (s.inst.threads t).held.map Handle.co =
      ((s.log t).unserved.take (s.inst.threads t).held.length).map Prod.fst := by
  have hw := h.waiting
  have hd : (s.inst.line t).queues.delayed = (s.inst.threads t).held := rfl
  have hfilter : (s.inst.threads t).held.filter Handle.isYielding = (s.inst.threads t).held :=
    List.filter_eq_self.2 hall
  simp only [Deliver.waiting, hd, hfilter, List.map_append] at hw
  rw [List.map_take, ← hw, List.take_append_of_le_length (by rw [List.length_map]), List.take_of_length_le]
  rw [List.length_map]

/-- **Yields are served in order.**  What waits in `delayed` and in `ready` is what has not been served yet, by the time
of the yield; a tick starts with the first of these, resumes all of them, in this order, and nobody else; when
the thread is back in mio, nobody is left in the other queues; and whoever is resumed after a yield is the first in
line. -/
theorem yields_in_order {s : Logged w α} (hs : (logged w α cfg bound).Reach System.anyStep s) (t : Nat) :
    (s.log t).yields.Pairwise (fun a b => a.2 < b.2) ∧
    (Deliver.view (s.inst.threads t)).waiting.map Handle.co = (s.log t).unserved.map Prod.fst ∧
    ((s.inst.threads t).pc = .poll → (s.inst.threads t).spawned = [] ∧ (s.inst.threads t).ready = []) ∧
    ∀ a s', (logged w α cfg bound).step s a = some s' →
      (s.inst.event t a = .ticks → Deliver.AllYielding (s.inst.threads t).held ∧
        (s.inst.threads t).held.map Handle.co =
          ((s.log t).unserved.take (s.inst.threads t).held.length).map Prod.fst) ∧
      (s.inst.event t a = .returns .tick → (s.log t).ticked = (s.log t).atTick) ∧
      ∀ k h, s.inst.event t a = .resumes k h → h.isYielding = true →
        ∃ y, (s.log t).unserved.head? = some y ∧ y.1 = h.co := by
  have hl := reach_inLine hs t
  refine ⟨hl.times, hl.waiting, fun hpc => ?_, fun a s' hst => ?_⟩
  · have hshape := hl.shape
    simp only [Instance.line, hpc] at hshape
    exact hshape.2
  · simp only [logged, Logged.step] at hst
    split at hst
    · cases hst
    · rename_i inst hinst
      have hmove := Instance.line_step t hinst
      refine ⟨fun he => ?_, fun he => hl.ends_tick (he ▸ hmove), fun k h he hy => hl.first (he ▸ hmove) hy⟩
      have hall := hl.starts_tick (he ▸ hmove)
      exact ⟨hall, atTick_eq hl hall⟩

/-- Coroutine 0 spawns coroutine 1 and yields; coroutine 1 yields; the next tick begins. -/
def bothYield : List (Action Unit) :=
  [.thread 0 .start, .thread 0 (.sched 0), .thread 0 .next, .thread 0 (.sched 0), .thread 0 (.user (.spawn 2)),
   .thread 0 (.user .yieldNow), .thread 0 .next, .thread 0 .next, .thread 0 (.sched 0), .thread 0 .next,
   .thread 0 (.sched 0), .thread 0 .next, .thread 0 (.sched 0), .thread 0 (.user .yieldNow), .thread 0 .next,
   .thread 0 .next, .thread 0 (.sched 0), .thread 0 .next, .thread 0 (.sched 0), .thread 0 .next, .thread 0 .next,
   .thread 0 .tick]

theorem yields_in_order_two : ∃ s : Logged 64 Unit, (s.log 0).yields = [(0, 7), (1, 15)] ∧
    (Deliver.view (s.inst.threads 0)).waiting.map Handle.co = [0, 1] ∧
    (Deliver.view (s.inst.threads 0)).waiting.map Handle.co = (s.log 0).unserved.map Prod.fst := by
  have hsome : ((logged 64 Unit ⟨1, true⟩ (fun _ => none)).exec bothYield (Logged.start 64 (fun _ => none))).any
      (fun s => decide ((s.log 0).yields = [(0, 7), (1, 15)] ∧
        (Deliver.view (s.inst.threads 0)).waiting.map Handle.co = [0, 1])) = true := by
    decide +kernel
  obtain ⟨s, hs, hand⟩ := (Option.any_eq_true _ _).1 hsome
  obtain ⟨hlog, hwait⟩ := of_decide_eq_true hand
  have h0 : (logged 64 Unit ⟨1, true⟩ (fun _ => none)).Reach System.anyStep (Logged.start 64 (fun _ => none)) := .init rfl
  have hr := System.reach_exec_of_forall bothYield _ s h0 (fun _ _ _ => trivial) hs
  exact ⟨s, hlog, hwait, (yields_in_order hr 0).2.1⟩

end Logged

end Mioco
