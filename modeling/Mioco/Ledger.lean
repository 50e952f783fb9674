import Mioco.Frame
/-!
# Where every coroutine is (src/coroutine.rs, src/thread.rs, src/mod.rs)

A live coroutine is in the slab of the thread it is attached to, or in one `Migration` on its way; `coroutines_num`
counts both, and `Terminate` is broadcast when it comes down to zero (`Ledger`).  The steps that leave all of this
alone are told apart by `Thread.entry`.
-/
namespace Mioco

open Lib (Slab)

theorem of_none {β : Type} {P : β → Prop} (d : β) (h : none = some d) : P d := by cases h

theorem of_false {P : Prop} (h : false = true) : P := by cases h

/-! ## What the ledger reads of a thread -/

namespace Message

@[simp] def isMigration : Message → Bool
  | migration _ => true
  | _ => false

@[simp] def carries (c : Nat) : Message → Bool
  | migration c' => decide (c' = c)
  | _ => false

@[simp] def isTerminate : Message → Bool
  | terminate => true
  | _ => false

@[simp] def isPropagate : Message → Bool
  | propagatePanic => true
  | _ => false

/-- The messages the ledger reads. -/
@[simp] def isBooked (m : Message) : Bool := m.isMigration || m.isTerminate || m.isPropagate

end Message

namespace Pc
variable {α : Type}

theorem eq_poll {pc : Pc α} (h : pc.isPoll = true) : pc = poll := by
  cases pc <;> first | rfl | cases h

theorem eq_starting {pc : Pc α} (h : pc.isStarting = true) : pc = starting := by
  cases pc <;> first | rfl | cases h

/-- The coroutine that has to be attached to the thread. -/
@[simp] def attends : Pc α → Option Nat
  | exec c _ .user => some c
  | exec c _ (.shutdown _) => some c
  | register _ [] none (.resumed _) => none
  | register c _ _ _ => some c
  | deregister c _ => some c
  | _ => none

/-- The coroutine that has just completed. -/
@[simp] def ending : Pc α → Option Nat
  | exec c _ (.terminate _ _) => some c
  | exec c _ .propagate => some c
  | exec c _ (.exit _) => some c
  | _ => none

/-- How far `broadcast_terminate` has got. -/
@[simp] def terminating : Pc α → Option Nat
  | exec _ _ (.terminate i _) => some i
  | _ => none

@[simp] def isPropagate : Pc α → Bool
  | exec _ _ .propagate => true
  | _ => false

/-- The event loop is gone. -/
@[simp] def isEnded : Pc α → Bool
  | done => true
  | panicked _ => true
  | _ => false

/-- The thread only drops what it has left. -/
@[simp] def isStopping : Pc α → Bool
  | stopping => true
  | done => true
  | exec _ .stopping _ => true
  | _ => false

end Pc

namespace Thread
variable {S : Sched} {α : Type}

/-- What the ledger reads of a thread, the state of its code apart. -/
def entry (th : Thread S α) : Slab startingId Nat × List Message × Bool × Nat × Option Nat × Bool :=
  (th.coroutines, th.inbox.filter Message.isBooked, th.terminated, th.terminates, th.pc.terminating, th.pc.isPropagate)

def carried (th : Thread S α) (c : Nat) : Nat := th.inbox.countP (Message.carries c)

def migrations (th : Thread S α) : Nat := th.inbox.countP Message.isMigration

theorem carried_eq (th : Thread S α) (c : Nat) :
    th.carried c = (th.inbox.filter Message.isBooked).countP (Message.carries c) := by
  rw [List.countP_filter, carried]
  refine List.countP_congr (fun m _ => ?_)
  cases m <;> simp

theorem migrations_eq (th : Thread S α) :
    th.migrations = (th.inbox.filter Message.isBooked).countP Message.isMigration := by
  rw [List.countP_filter, migrations]
  refine List.countP_congr (fun m _ => ?_)
  cases m <;> simp

theorem terminates_eq (th : Thread S α) :
    th.inbox.countP Message.isTerminate = (th.inbox.filter Message.isBooked).countP Message.isTerminate := by
  rw [List.countP_filter]
  refine List.countP_congr (fun m _ => ?_)
  cases m <;> simp

theorem propagates_iff (th : Thread S α) :
    Message.propagatePanic ∈ th.inbox ↔ Message.propagatePanic ∈ th.inbox.filter Message.isBooked := by
  rw [List.mem_filter]
  exact (and_iff_left rfl).symm

end Thread

namespace Instance
variable {S : Sched} {w : Nat} {α : Type}

/-- A live coroutine of thread `t`. -/
def Attached (s : Instance S w α) (t c : Nat) : Prop :=
  c < s.coN ∧ (s.cos c).state ≠ .finished ∧ (s.cos c).handler = some t

/-- A live coroutine between two threads. -/
def Travelling (s : Instance S w α) (c : Nat) : Prop :=
  c < s.coN ∧ (s.cos c).state ≠ .finished ∧ (s.cos c).handler = none

instance (s : Instance S w α) (c : Nat) : Decidable (s.Travelling c) :=
  inferInstanceAs (Decidable (c < s.coN ∧ (s.cos c).state ≠ .finished ∧ (s.cos c).handler = none))

/-- A coroutine that is gone. -/
def Completed (s : Instance S w α) (c : Nat) : Prop := c < s.coN ∧ (s.cos c).state = .finished

/-- **Where the coroutines of an instance of `n` threads are**, and what the threads are doing with them. -/
structure Places (n : Nat) (s : Instance S w α) : Prop where
  stored : ∀ t id c, (s.threads t).coroutines.get id = some c → s.Attached t c ∧ (s.cos c).id = id
  placed : ∀ t c, s.Attached t c → t < n ∧ (s.threads t).coroutines.get (s.cos c).id = some c
  flight : ∀ c, ∑ t ∈ Finset.range n, (s.threads t).carried c = if s.Travelling c then 1 else 0
  count : s.coroutinesNum = ∑ t ∈ Finset.range n, (s.threads t).coroutines.count +
    ∑ t ∈ Finset.range n, (s.threads t).migrations
  cleared : ∀ c, (s.cos c).state = .finished → (s.cos c).blockedOn = []
  attends : ∀ t c, (s.threads t).pc.attends = some c → s.Attached t c
  ended : ∀ t c, (s.threads t).pc.ending = some c → s.Completed c
  panicked : ∀ t why, (s.threads t).pc = .panicked why → why ≠ .slabRemove ∧ 0 < (s.threads t).coroutines.count
  closed : ∀ t, (s.threads t).isOpen = false → (s.threads t).pc.isEnded = true
  stopping : ∀ t, (s.threads t).pc.isStopping = true → (s.threads t).terminated = true
  outside : ∀ t, n ≤ t → (s.threads t).pc.isStarting = true
  caught : ∀ t, Message.propagatePanic ∉ (s.threads t).inbox ∧ (s.threads t).pc.isPropagate = false

/-- **How far `Terminate` has been broadcast.** -/
structure Broadcast (n : Nat) (s : Instance S w α) : Prop where
  quiet : s.broadcasts = 0 → 0 < s.coroutinesNum ∧ ∀ t, (s.threads t).terminates = 0
  once : s.broadcasts ≤ 1
  empty : s.broadcasts = 1 → s.coroutinesNum = 0
  terminated : ∀ t, (s.threads t).terminates =
    (s.threads t).inbox.countP Message.isTerminate + (s.threads t).terminated.toNat
  broadcasting : ∀ t i, (s.threads t).pc.terminating = some i → s.broadcasts = 1 ∧ i ≤ n ∧
    (∀ t' < n, (s.threads t').terminates = if t' < i then 1 else 0) ∧
    ∀ t', t' ≠ t → (s.threads t').pc.terminating = none
  everywhere : s.broadcasts = 1 → (∀ t, (s.threads t).pc.terminating = none) → ∀ t < n, (s.threads t).terminates = 1

/-- **The ledger** of an instance of `n` threads. -/
structure Ledger (n : Nat) (s : Instance S w α) : Prop extends Places n s, Broadcast n s

variable {n : Nat}

theorem Broadcast.of_eq {s s' : Instance S w α} (h : Broadcast n s) (hb : s'.broadcasts = s.broadcasts)
    (hn : s'.coroutinesNum = 0 ↔ s.coroutinesNum = 0)
    (hter : ∀ t, (s'.threads t).terminates = (s.threads t).terminates)
    (hin : ∀ t, (s'.threads t).inbox.countP Message.isTerminate = (s.threads t).inbox.countP Message.isTerminate)
    (htd : ∀ t, (s'.threads t).terminated = (s.threads t).terminated)
    (htg : ∀ t, (s'.threads t).pc.terminating = (s.threads t).pc.terminating) : Broadcast n s' := by
  constructor
  · intro h0
    obtain ⟨h1, h2⟩ := h.quiet (hb ▸ h0)
    exact ⟨by omega, fun t => by rw [hter]; exact h2 t⟩
  · rw [hb]
    exact h.once
  · rw [hb, hn]
    exact h.empty
  · intro t
    rw [hter, htd, hin]
    exact h.terminated t
  · intro t i hi
    rw [htg] at hi
    obtain ⟨h1, h2, h3, h4⟩ := h.broadcasting t i hi
    refine ⟨hb ▸ h1, h2, fun t' ht => ?_, fun t' ht => ?_⟩
    · rw [hter]
      exact h3 t' ht
    · rw [htg]
      exact h4 t' ht
  · intro h1 hall t ht
    rw [hter]
    exact h.everywhere (hb ▸ h1) (fun t' => by rw [← htg]; exact hall t') t ht

/-! ## Edits that leave the ledger alone -/

/-- Thread `t` becomes `th`, with the same coroutines; the last seven hypotheses say that its code may be where it
is. -/
theorem Places.setThread {s : Instance S w α} (h : Places n s) {t : Nat} {th : Thread S α}
    (hslab : th.coroutines = (s.threads t).coroutines) (hcar : ∀ c, th.carried c = (s.threads t).carried c)
    (hmig : th.migrations = (s.threads t).migrations)
    (ha : ∀ c, th.pc.attends = some c → s.Attached t c)
    (hp : ∀ why, th.pc = .panicked why → why ≠ .slabRemove ∧ 0 < (s.threads t).coroutines.count)
    (hc : th.isOpen = false → th.pc.isEnded = true) (hs : th.pc.isStopping = true → th.terminated = true)
    (ho : n ≤ t → th.pc.isStarting = true) (hk : Message.propagatePanic ∉ th.inbox ∧ th.pc.isPropagate = false)
    (hend : ∀ c, th.pc.ending = some c → s.Completed c) : Places n (s.setThread t th) := by
  have hat : ∀ {β : Type} (f : Thread S α → β), f th = f (s.threads t) →
      ∀ t', f ((s.setThread t th).threads t') = f (s.threads t') := by
    intro β f hf t'
    by_cases ht : t' = t
    · subst ht
      rw [setThread_self, hf]
    · rw [setThread_ne _ _ ht]
  have hall : ∀ {P : Nat → Thread S α → Prop}, P t th → (∀ t', P t' (s.threads t')) →
      ∀ t', P t' ((s.setThread t th).threads t') := by
    intro P hP hall t'
    by_cases ht : t' = t
    · subst ht
      rwa [setThread_self]
    · rw [setThread_ne _ _ ht]
      exact hall t'
  have hco := hat Thread.coroutines hslab
  refine ⟨fun t' id c => ?_, fun t' c hac => ?_, fun c => ?_, ?_, h.cleared, ?_, ?_, fun t' why => ?_, ?_, ?_, ?_, ?_⟩
  · rw [hco]
    exact h.stored t' id c
  · rw [hco]
    exact h.placed t' c hac
  · rw [Finset.sum_congr rfl (fun t' _ => hat (fun th => th.carried c) (hcar c) t')]
    exact h.flight c
  · rw [Finset.sum_congr rfl (fun t' _ => by rw [hco]), Finset.sum_congr rfl (fun t' _ => hat Thread.migrations hmig t')]
    exact h.count
  · exact hall (P := fun t' th => ∀ c, th.pc.attends = some c → s.Attached t' c) ha h.attends
  · exact hall (P := fun _ th => ∀ c, th.pc.ending = some c → s.Completed c) hend h.ended
  · rw [hco]
    exact hall (P := fun t' th => ∀ why, th.pc = .panicked why → why ≠ .slabRemove ∧
      0 < (s.threads t').coroutines.count) hp h.panicked t' why
  · exact hall (P := fun _ th => th.isOpen = false → th.pc.isEnded = true) hc h.closed
  · exact hall (P := fun _ th => th.pc.isStopping = true → th.terminated = true) hs h.stopping
  · exact hall (P := fun t' th => n ≤ t' → th.pc.isStarting = true) ho h.outside
  · exact hall (P := fun _ th => Message.propagatePanic ∉ th.inbox ∧ th.pc.isPropagate = false) hk h.caught

/-- Thread `t` becomes one with the same entry. -/
theorem Ledger.setThread {s : Instance S w α} (h : Ledger n s) {t : Nat} {th : Thread S α}
    (he : th.entry = (s.threads t).entry)
    (ha : ∀ c, th.pc.attends = some c → s.Attached t c)
    (hp : ∀ why, th.pc = .panicked why → why ≠ .slabRemove ∧ 0 < (s.threads t).coroutines.count)
    (hc : th.isOpen = false → th.pc.isEnded = true)
    (hs : th.pc.isStopping = true → (s.threads t).terminated = true)
    (ho : n ≤ t → th.pc.isStarting = true)
    (hend : ∀ c, th.pc.ending = some c → s.Completed c) :
    Ledger n (s.setThread t th) := by
  simp only [Thread.entry, Prod.mk.injEq] at he
  obtain ⟨e1, e2, e3, e4, e5, e6⟩ := he
  have hat : ∀ {β : Type} (f : Thread S α → β), f th = f (s.threads t) →
      ∀ t', f ((s.setThread t th).threads t') = f (s.threads t') := by
    intro β f hf t'
    by_cases ht : t' = t
    · subst ht
      rw [setThread_self, hf]
    · rw [setThread_ne _ _ ht]
  refine ⟨h.toPlaces.setThread e1 (fun c => by simp only [Thread.carried_eq, e2]) (by simp only [Thread.migrations_eq, e2])
    ha hp hc (fun hst => by rw [e3]; exact hs hst) ho ?_ hend, h.toBroadcast.of_eq rfl Iff.rfl (hat Thread.terminates e4)
    (hat (fun th => th.inbox.countP Message.isTerminate) (by simp only [Thread.terminates_eq, e2]))
    (hat Thread.terminated e3) (hat (fun th => th.pc.terminating) e5)⟩
  rw [th.propagates_iff, e2, ← (s.threads t).propagates_iff, e6]
  exact h.caught t

/-- Thread `t` is about to act, and it is not the broadcast of `Terminate`. -/
structure Acting (n : Nat) (s : Instance S w α) (t : Nat) : Prop where
  lt : t < n
  ended : (s.threads t).pc.isEnded = false
  terminating : (s.threads t).pc.terminating = none

theorem Acting.setThread {s : Instance S w α} {t : Nat} (ha : Acting n s t) {th : Thread S α}
    (hpc : th.pc = (s.threads t).pc) : Acting n (s.setThread t th) t := by
  refine ⟨ha.lt, ?_, ?_⟩ <;> rw [setThread_self, hpc]
  · exact ha.ended
  · exact ha.terminating

namespace Ledger
variable {s : Instance S w α} {t c : Nat}

/-- Thread `t` goes on to another place of the code. -/
theorem move (h : Ledger n s) (ha : Acting n s t) {th : Thread S α}
    (he : th.entry = ({ s.threads t with pc := .poll } : Thread S α).entry)
    (hop : th.isOpen = (s.threads t).isOpen) (hat : ∀ c, th.pc.attends = some c → s.Attached t c)
    (hpc : th.pc.isEnded = false) (hs : th.pc.isStopping = true → (s.threads t).terminated = true)
    (hend : ∀ c, th.pc.ending = some c → s.Completed c) :
    Ledger n (s.setThread t th) := by
  refine h.setThread ?_ hat ?_ ?_ hs ?_ hend
  · rw [he, Thread.entry, Thread.entry, ha.terminating, (h.caught t).2]
    rfl
  · intro why hw
    rw [hw] at hpc
    cases hpc
  · intro ho
    have := h.closed t (hop ▸ ho)
    rw [ha.ended] at this
    cases this
  · intro hn
    exact absurd ha.lt (Nat.not_lt.2 hn)

theorem setPc (h : Ledger n s) (ha : Acting n s t) {pc : Pc α}
    (hat : ∀ c, pc.attends = some c → s.Attached t c) (hpc : pc.isEnded = false) (htg : pc.terminating = none)
    (hpr : pc.isPropagate = false) (hs : pc.isStopping = true → (s.threads t).terminated = true)
    (hend : ∀ c, pc.ending = some c → s.Completed c) : Ledger n (s.setPc t pc) :=
  h.move ha (by rw [Thread.entry, Thread.entry, htg, hpr]; rfl) rfl hat hpc hs hend

/-- Thread `t` panics, with a coroutine left in its slab. -/
theorem panic (h : Ledger n s) (ha : Acting n s t) {why : Panic} (hw : why ≠ .slabRemove)
    (hc : 0 < (s.threads t).coroutines.count) : Ledger n (s.panic t why) := by
  refine h.setThread ?_ of_none ?_ (fun _ => rfl) of_false (fun hn => absurd ha.lt (Nat.not_lt.2 hn)) of_none
  · rw [Thread.entry, Thread.entry, ha.terminating, (h.caught t).2]
    rfl
  · intro why' hw'
    cases hw'
    exact ⟨hw, hc⟩

/-- The data of thread `t` changes and nothing the ledger reads. -/
theorem keep (h : Ledger n s) {th : Thread S α} (he : th.entry = (s.threads t).entry)
    (hop : th.isOpen = (s.threads t).isOpen) (hpc : th.pc = (s.threads t).pc) : Ledger n (s.setThread t th) := by
  refine h.setThread he ?_ ?_ ?_ ?_ ?_ ?_ <;> rw [hpc]
  · exact h.attends t
  · exact h.panicked t
  · rw [hop]
    exact h.closed t
  · exact h.stopping t
  · exact h.outside t
  · exact h.ended t

/-- Coroutine `c` changes and stays where it is. -/
theorem setCo (h : Ledger n s) {co : Coroutine} (hs : co.state = .finished ↔ (s.cos c).state = .finished)
    (hh : co.handler = (s.cos c).handler) (hid : co.id = (s.cos c).id)
    (hb : co.state = .finished → co.blockedOn = []) : Ledger n (s.setCo c co) := by
  have hcos : ∀ {β : Type} (f : Coroutine → β), f co = f (s.cos c) → ∀ c', f ((s.setCo c co).cos c') = f (s.cos c') := by
    intro β f hf c'
    by_cases hc : c' = c
    · subst hc
      rw [setCo_self, hf]
    · rw [setCo_ne _ _ hc]
  have h1 := hcos (fun co => co.state = .finished) (propext hs)
  have h2 := hcos Coroutine.handler hh
  have h3 := hcos Coroutine.id hid
  have hat : ∀ t c', (s.setCo c co).Attached t c' ↔ s.Attached t c' := fun t c' => by
    rw [Attached, Attached, h2, ne_eq, ne_eq, h1 c']
    exact Iff.rfl
  have htr : ∀ c', (s.setCo c co).Travelling c' ↔ s.Travelling c' := fun c' => by
    rw [Travelling, Travelling, h2, ne_eq, ne_eq, h1 c']
    exact Iff.rfl
  refine ⟨⟨?_, ?_, ?_, h.count, ?_, ?_, ?_, h.panicked, h.closed, h.stopping, h.outside, h.caught⟩,
    h.toBroadcast.of_eq rfl Iff.rfl (fun _ => rfl) (fun _ => rfl) (fun _ => rfl) (fun _ => rfl)⟩
  · intro t id c' hg
    rw [hat, h3]
    exact h.stored t id c' hg
  · intro t c' hac
    rw [hat] at hac
    rw [h3]
    exact h.placed t c' hac
  · intro c'
    rw [if_congr (htr c') rfl rfl]
    exact h.flight c'
  · intro c' hf
    by_cases hc : c' = c
    · subst hc
      rw [setCo_self] at hf ⊢
      exact hb hf
    · rw [setCo_ne _ _ hc] at hf ⊢
      exact h.cleared c' hf
  · intro t c' hc'
    rw [hat]
    exact h.attends t c' hc'
  · intro t c' hc'
    rw [Completed, h1 c']
    exact h.ended t c' hc'

/-- What the ledger does not read at all. -/
theorem congr {s' : Instance S w α} (h : Ledger n s) (h1 : s'.threads = s.threads) (h2 : s'.cos = s.cos)
    (h3 : s'.coN = s.coN) (h4 : s'.coroutinesNum = s.coroutinesNum) (h5 : s'.broadcasts = s.broadcasts) :
    Ledger n s' := by
  obtain ⟨threads', cos', jumps', loops', coN', num', sh', chans', taken', srcs', timeouts', b', sd', rc'⟩ := s'
  simp only at h1 h2 h3 h4 h5
  subst h1 h2 h3 h4 h5
  exact ⟨⟨h.stored, h.placed, h.flight, h.count, h.cleared, h.attends, h.ended, h.panicked, h.closed, h.stopping, h.outside,
    h.caught⟩,
    ⟨h.quiet, h.once, h.empty, h.terminated, h.broadcasting, h.everywhere⟩⟩

end Ledger
end Instance
end Mioco
