import Mioco.ChannelCount
/-!
# A parked receiver is woken (src/sync/mpsc.rs)

While the receiver's coroutine is parked, either the counter is still the zero `register` read, or the sender that
moved it from zero has still to notify, or its `ChannelMsg` is in flight (`Park`).  With the count this gives
`no_lost_wakeup`, and that a channel of bound 1 or more never gets stuck (`sync_stuck_iff`).
-/
namespace Mioco

open Lib (System)
open Lib.System (Reach anyStep)

/-! ## Notifications owed -/

/-- Some `fetch_add` has returned zero and its `maybe_notify_receiver` has not run. -/
def Chan.NotifyOwed {w : Nat} {α τ κ : Type} (c : Chan w α τ κ) : Prop :=
  ∃ (j : Nat) (pc : SenderPc w α), c.senders[j]? = some pc ∧ pc.notifyNext = true

namespace SenderMove
variable {w : Nat} {α τ κ : Type} {c c' : Chan w α τ κ} {i : Nat} {n : Notify τ κ}

/-- The other clones are where they were. -/
theorem other (h : SenderMove c i c' n) {j : Nat} {pc : SenderPc w α} (hj : c.senders[j]? = some pc) (hji : j ≠ i) :
    c'.senders[j]? = some pc := by
  have hset : ∀ x, (c.senders.set i x)[j]? = some pc := fun x => by
    rw [List.getElem?_set_ne (Ne.symm hji)]
    exact hj
  cases h with
  | stay => exact hj
  | clone hi =>
    show (c.senders ++ [SenderPc.idle])[j]? = some pc
    rw [List.getElem?_append_left (List.getElem?_eq_some_iff.1 hj).1]
    exact hj
  | quiet | stdSend | fetchAdd | notify | drop | dropFetchAdd => exact hset _

/-- A clone that owes no notification moves: what the others owe stays. -/
theorem notifyOwed_other (h : SenderMove c i c' n) {pc : SenderPc w α} (hi : c.senders[i]? = some pc)
    (hpc : pc.notifyNext = false) (ho : c.NotifyOwed) : c'.NotifyOwed := by
  obtain ⟨j, pcj, hj, hn⟩ := ho
  refine ⟨j, pcj, h.other hj (fun he => ?_), hn⟩
  subst he
  rw [hi] at hj
  cases hj
  rw [hpc] at hn
  exact absurd hn Bool.false_ne_true

/-- **An owed notification** stays so until a notification is made. -/
theorem notifyOwed (h : SenderMove c i c' n) (ho : c.NotifyOwed) : c'.NotifyOwed ∨ n = c.maybeNotifyReceiver := by
  have hkeep : ∀ pc, c.senders[i]? = some pc → pc.notifyNext = false → c'.NotifyOwed :=
    fun _ hi hpc => h.notifyOwed_other hi hpc ho
  cases h with
  | stay => exact .inl ho
  | quiet pc pc' hi hq => exact .inl (hkeep pc hi hq.2.2.2.1)
  | clone hi => exact .inl (hkeep _ hi rfl)
  | stdSend t b hi => exact .inl (hkeep _ hi rfl)
  | drop hi => exact .inl (hkeep _ hi rfl)
  | notify => exact .inr rfl
  | fetchAdd hi => exact .inl (hkeep _ hi rfl)
  | dropFetchAdd hi => exact .inl (hkeep _ hi rfl)

/-- **A zero counter or an owed notification** stays so until the notification is made. -/
theorem owed (h : SenderMove c i c' n) (ho : c.counter = 0 ∨ c.NotifyOwed) :
    (c'.counter = 0 ∨ c'.NotifyOwed) ∨ n = c.maybeNotifyReceiver := by
  rcases ho with h0 | ho
  · have hcount : ∀ pc pc', c.senders[i]? = some pc → pc'.notifyNext = true → c'.senders = c.senders.set i pc' →
        c'.NotifyOwed := by
      intro pc pc' hi hn hset
      refine ⟨i, pc', ?_, hn⟩
      rw [hset, List.getElem?_set_self (List.getElem?_eq_some_iff.1 hi).1]
    cases h with
    | stay | quiet | clone | stdSend | drop => exact .inl (.inl h0)
    | notify => exact .inr rfl
    | fetchAdd hi => exact .inl (.inr (hcount _ _ hi (by simp [h0]) rfl))
    | dropFetchAdd hi => exact .inl (.inr (hcount _ _ hi (by simp [h0]) rfl))
  · exact (h.notifyOwed ho).imp .inr id

end SenderMove

namespace ChanRun
variable {w : Nat} {α : Type}

/-- **The other steps of the receiving end** leave the registration and the messages in flight alone. -/
theorem frame_step {s s' : ChanRun w α} {a : ChanAct α} (hst : s.step a = some s')
    (ha : match a with | .sender _ _ | .register _ _ | .deregister | .deliver _ => False | _ => True) :
    s'.recv ≠ .parked ∧ s'.chan.token = s.chan.token ∧ s'.chan.sender = s.chan.sender ∧
      s'.inflight = s.inflight ∧ s'.stamp = s.stamp := by
  cases a with
  | sender | register | deregister | deliver => exact ha.elim
  | tryRecv | fetchSub | block | otherWake | recv | recvReturn | dropReceiver =>
    simp only [step] at hst
    split at hst <;> cases hst <;> exact ⟨by simp, rfl, rfl, rfl, rfl⟩
  | tryRecvFrom i =>
    simp only [step] at hst
    split at hst
    · rename_i hh
      cases hst
      obtain ⟨-, -, rfl⟩ := Chan.handOver_some hh
      exact ⟨by simp, rfl, rfl, rfl, rfl⟩
    · cases hst
  | recvReturnFrom i =>
    simp only [step] at hst
    split at hst
    · rename_i hh
      cases hst
      obtain ⟨-, -, rfl⟩ := Chan.handOverWaiting_some hh
      exact ⟨by simp, rfl, rfl, rfl, rfl⟩
    · cases hst

/-- A message of the current registration is in flight. -/
def MessageInFlight (s : ChanRun w α) : Prop := ∃ m ∈ s.inflight, m.2.stamp = s.stamp

/-- **The parking invariant.** -/
structure Park (s : ChanRun w α) : Prop where
  tokenSender : s.chan.token.isSome = true → s.chan.sender.isSome = true
  tokenStamp : ∀ t, s.chan.token = some t → t.stamp ≤ s.stamp
  inflightStamp : ∀ m ∈ s.inflight, m.2.stamp ≤ s.stamp
  parked : s.recv = .parked → ∃ t l, s.chan.token = some t ∧ s.chan.sender = some l ∧ t.stamp = s.stamp ∧
    ∀ m ∈ s.inflight, m.2.stamp = s.stamp → m = (l, t)
  owed : s.recv = .parked → (s.chan.counter = 0 ∨ s.chan.NotifyOwed) ∨ s.MessageInFlight

theorem park_start (bound : Option Nat) : Park (ChanRun.start bound : ChanRun w α) := by
  constructor <;> simp [ChanRun.start, Chan.new]

/-- The messages in flight after a step of a sender. -/
theorem post_inflight {s : ChanRun w α} {c : Chan w α Stamped Nat} {n : Notify Stamped Nat}
    (hn : n = .nothing ∨ n = s.chan.maybeNotifyReceiver) {m : Nat × Stamped} (hm : m ∈ (s.post c n).inflight) :
    m ∈ s.inflight ∨ s.chan.sender = some m.1 ∧ s.chan.token = some m.2 := by
  rcases hn with rfl | rfl
  · exact .inl hm
  · unfold Chan.maybeNotifyReceiver at hm
    split at hm
    · exact .inl hm
    · rename_i t l ht hl
      simp only [post, List.mem_append, List.mem_singleton] at hm
      rcases hm with hm | rfl
      · exact .inl hm
      · exact .inr ⟨hl, ht⟩
    · exact .inl hm

theorem mem_post_inflight {s : ChanRun w α} {c : Chan w α Stamped Nat} {n : Notify Stamped Nat} {m : Nat × Stamped}
    (hm : m ∈ s.inflight) : m ∈ (s.post c n).inflight := by
  cases n <;> simp [post, hm]

theorem park_sender {s : ChanRun w α} {c : Chan w α Stamped Nat} {i : Nat} {n : Notify Stamped Nat} (h : Park s)
    (hmv : SenderMove s.chan i c n) : Park (s.post c n) := by
  obtain ⟨e1, -, e3, -⟩ := post_recv s c n
  obtain ⟨ht, hl, hnotify⟩ := hmv.shared
  have hin := @post_inflight _ _ s c n hnotify
  constructor
  · rw [post_chan, ht, hl]; exact h.tokenSender
  · rw [post_chan, ht, e3]; exact h.tokenStamp
  · intro m hm
    rw [e3]
    rcases hin hm with hm | ⟨-, hm⟩
    · exact h.inflightStamp m hm
    · exact h.tokenStamp _ hm
  · rw [e1, post_chan, ht, hl, e3]
    intro hp
    obtain ⟨t, l, h1, h2, h3, h4⟩ := h.parked hp
    refine ⟨t, l, h1, h2, h3, fun m hm hms => ?_⟩
    rcases hin hm with hm | ⟨hm1, hm2⟩
    · exact h4 m hm hms
    · rw [h1] at hm2
      rw [h2] at hm1
      cases hm1
      cases hm2
      rfl
  · rw [e1, post_chan]
    intro hp
    obtain ⟨t, l, h1, h2, h3, h4⟩ := h.parked hp
    rcases h.owed hp with ho | ⟨m, hm, hms⟩
    · rcases hmv.owed ho with ho | rfl
      · exact .inl ho
      · refine .inr ⟨(l, t), ?_, by rw [e3]; exact h3⟩
        simp [Chan.maybeNotifyReceiver, h1, h2, post]
    · exact .inr ⟨m, mem_post_inflight hm, by rw [e3]; exact hms⟩

theorem park_step {s s' : ChanRun w α} {a : ChanAct α} (h : Park s) (hst : s.step a = some s') : Park s' := by
  cases a with
  | sender i a =>
    simp only [step] at hst
    split at hst
    · rename_i c n hs
      cases hst
      exact park_sender h (senderStep_move hs)
    · cases hst
  | register t l =>
    simp only [step] at hst
    split at hst
    · cases hst
      have hlt : ∀ m ∈ s.inflight, m.2.stamp ≠ s.stamp + 1 := fun m hm => by
        have := h.inflightStamp m hm
        omega
      unfold Chan.register
      split
      · refine ⟨by simp, by simp, fun m hm => Nat.le_succ_of_le (h.inflightStamp m hm), by simp, by simp⟩
      · rename_i h0
        refine ⟨by simp, by simp, fun m hm => Nat.le_succ_of_le (h.inflightStamp m hm), fun _ => ?_, fun _ => ?_⟩
        · exact ⟨_, _, rfl, rfl, rfl, fun m hm hms => absurd hms (hlt m hm)⟩
        · exact .inl (.inl (by simpa using h0))
    · cases hst
  | deliver k =>
    simp only [step] at hst
    split at hst
    · rename_i l m hk
      cases hst
      have hmem : ∀ x ∈ s.inflight.eraseIdx k, x ∈ s.inflight := fun x hx => List.mem_of_mem_eraseIdx hx
      split
      · exact ⟨h.tokenSender, h.tokenStamp, fun x hx => h.inflightStamp x (hmem x hx), by simp, by simp⟩
      · rename_i hna
        refine ⟨h.tokenSender, h.tokenStamp, fun x hx => h.inflightStamp x (hmem x hx), fun hp => ?_, fun hp => ?_⟩
        · obtain ⟨t, l', h1, h2, h3, h4⟩ := h.parked hp
          exact ⟨t, l', h1, h2, h3, fun x hx => h4 x (hmem x hx)⟩
        · refine (h.owed hp).imp id (fun hmsg => ?_)
          obtain ⟨x, hx, hxs⟩ := hmsg
          obtain ⟨t, l', h1, h2, h3, h4⟩ := h.parked hp
          have hxe := h4 x hx hxs
          subst hxe
          -- the message processed is not the one of this registration: that one is addressed to the coroutine
          have hne : (l, m) ≠ (l', t) := fun he => hna ⟨hp, by cases he; simp [addressed, h1, h2]⟩
          refine ⟨(l', t), ?_, hxs⟩
          obtain ⟨j, hj⟩ := List.mem_iff_getElem?.1 hx
          refine List.mem_eraseIdx_iff_getElem?.2 ⟨j, fun hjk => ?_, hj⟩
          subst hjk
          rw [hk] at hj
          exact hne (Option.some.inj hj)
    · cases hst
  | deregister =>
    simp only [step] at hst
    split at hst
    · cases hst
      exact ⟨by simp [Chan.deregister], by simp [Chan.deregister], h.inflightStamp, by simp, by simp⟩
    · cases hst
  | tryRecv | tryRecvFrom | fetchSub | block | otherWake | recv | recvReturn | recvReturnFrom | dropReceiver =>
    obtain ⟨hp, ht, hl, hin, hstamp⟩ := frame_step hst trivial
    exact ⟨by rw [ht, hl]; exact h.tokenSender, by rw [ht, hstamp]; exact h.tokenStamp,
      by rw [hin, hstamp]; exact h.inflightStamp, fun h' => absurd h' hp, fun h' => absurd h' hp⟩

/-- A receiver that never enters the std `recv` has taken nothing there. -/
theorem inside_step {s s' : ChanRun w α} {a : ChanAct α} (ha : insideOnly s a) (hst : s.step a = some s')
    (h : s.recv ≠ .waiting ∧ s.outside = 0) : s'.recv ≠ .waiting ∧ s'.outside = 0 := by
  cases a with
  | sender i a =>
    simp only [step] at hst
    split at hst
    · rename_i c n _
      cases hst
      obtain ⟨e1, e2, -⟩ := post_recv s c n
      rw [e1, e2]
      exact h
    · cases hst
  | recv => cases ha
  | deliver k =>
    simp only [step] at hst
    split at hst
    · cases hst
      refine ⟨?_, h.2⟩
      split
      · simp
      · exact h.1
    · cases hst
  | register t l =>
    simp only [step] at hst
    split at hst
    · cases hst
      refine ⟨?_, h.2⟩
      show (if _ then RecvPc.leaving Wake.selfWake else RecvPc.parked) ≠ .waiting
      split <;> simp
    · cases hst
  | recvReturn | recvReturnFrom =>
    simp only [step] at hst
    split at hst <;> simp_all
  | tryRecv | tryRecvFrom | fetchSub | block | otherWake | deregister | dropReceiver =>
    simp only [step] at hst
    split at hst <;> cases hst <;> exact ⟨by simp, h.2⟩

/-! ## The runs -/

theorem reach_count (hw : 0 < w) {bound : Option Nat} {ok : ChanRun w α → ChanAct α → Prop} {s : ChanRun w α}
    (h : Reach (chanSystem w α bound) ok s) : Count s :=
  h.invariant Count (fun _ h0 => h0 ▸ count_start hw bound) (fun _ _ _ hi _ hst => count_step hi hst)

theorem reach_park {bound : Option Nat} {ok : ChanRun w α → ChanAct α → Prop} {s : ChanRun w α}
    (h : Reach (chanSystem w α bound) ok s) : Park s :=
  h.invariant Park (fun _ h0 => h0 ▸ park_start bound) (fun _ _ _ hi _ hst => park_step hi hst)

theorem reach_inside {bound : Option Nat} {s : ChanRun w α} (h : Reach (chanSystem w α bound) insideOnly s) :
    s.recv ≠ .waiting ∧ s.outside = 0 :=
  h.invariant (fun s => s.recv ≠ .waiting ∧ s.outside = 0) (fun _ h0 => h0 ▸ ⟨by simp [ChanRun.start], rfl⟩)
    (fun _ _ _ hi ha hst => inside_step ha hst hi)

theorem reach_bound {bound : Option Nat} {ok : ChanRun w α → ChanAct α → Prop} {s : ChanRun w α}
    (h : Reach (chanSystem w α bound) ok s) : s.chan.bound = bound := by
  refine h.invariant (fun s => s.chan.bound = bound) (fun _ h0 => h0 ▸ rfl) (fun s a s' hi _ hst => ?_)
  cases a with
  | sender i a =>
    simp only [chanSystem, step] at hst
    split at hst
    · rename_i c n hs
      cases hst
      rw [post_chan, (senderStep_move hs).bound]
      exact hi
    · cases hst
  | register t l =>
    simp only [chanSystem, step] at hst
    split at hst
    · cases hst
      simp only [Chan.register]
      split <;> exact hi
    · cases hst
  | tryRecvFrom i =>
    simp only [chanSystem, step] at hst
    split at hst
    · rename_i hh
      cases hst
      obtain ⟨-, -, rfl⟩ := Chan.handOver_some hh
      exact hi
    · cases hst
  | recvReturnFrom i =>
    simp only [chanSystem, step] at hst
    split at hst
    · rename_i hh
      cases hst
      obtain ⟨-, -, rfl⟩ := Chan.handOverWaiting_some hh
      exact hi
    · cases hst
  | tryRecv | fetchSub | block | otherWake | recv | recvReturn | dropReceiver | deregister | deliver =>
    simp only [chanSystem, step] at hst
    split at hst <;> cases hst <;> exact hi

/-- The `ChannelMsg` that wakes the parked receiver is in flight. -/
def Notified (s : ChanRun w α) : Prop :=
  ∃ t l, s.chan.token = some t ∧ s.chan.sender = some l ∧ (l, t) ∈ s.inflight

/-- A sender has still to run a `fetch_add`, and it will return zero. -/
def ZeroFetchAddDue (s : ChanRun w α) : Prop :=
  s.chan.counter = 0 ∧ ∃ (i : Nat) (pc : SenderPc w α), s.chan.senders[i]? = some pc ∧ pc.fetchAddNext = true

/-- With a zero counter, something to receive is something still to be counted. -/
theorem zeroFetchAddDue_of {s : ChanRun w α} (hc : Count s) (hin : s.outside = 0) (hp : s.recv = .parked)
    (h0 : s.chan.counter = 0) (hsome : s.chan.queue ≠ [] ∨ s.chan.arcs = 0) : ZeroFetchAddDue s := by
  refine ⟨h0, ?_⟩
  have hb := hc.counts (by simp [hp])
  simp only [tookN, hp, reduceCtorEq, if_false, hin, Chan.Counts, h0] at hb
  by_cases hsent : s.chan.sentN = 0
  · -- nothing is owed to the counter: the queue is empty, so the senders are gone and the last drop has not counted
    rw [hsent] at hb
    have hle := s.chan.endedN_le_one
    have hmem := hc.memory
    have hz := hb.total_eq_zero (by omega)
    have hq : s.chan.queue = [] := List.eq_nil_of_length_eq_zero (by omega)
    have ha : s.chan.arcs = 0 := hsome.resolve_left (fun h => h hq)
    have hrel : 0 < s.chan.releasedN := by
      by_contra hr
      have : s.chan.endedN = 1 := if_pos ⟨ha, by omega⟩
      omega
    obtain ⟨i, pc, hi, hpc⟩ := Lib.exists_of_countP_pos hrel
    exact ⟨i, pc, hi, by cases pc <;> simp_all⟩
  · obtain ⟨i, pc, hi, hpc⟩ := Lib.exists_of_countP_pos (Nat.pos_of_ne_zero hsent)
    exact ⟨i, pc, hi, by cases pc <;> simp_all⟩

/-- While the receiver is parked with something to receive, its wake-up is on the way. -/
theorem wakeup_due (hw : 0 < w) {bound : Option Nat} {s : ChanRun w α}
    (h : Reach (chanSystem w α bound) insideOnly s) (hp : s.recv = .parked) (hsome : s.chan.queue ≠ [] ∨ s.chan.arcs = 0) :
    s.Notified ∨ s.ZeroFetchAddDue ∨ s.chan.NotifyOwed := by
  have hpark := reach_park h
  rcases hpark.owed hp with (h0 | ho) | ⟨m, hm, hms⟩
  · exact .inr (.inl (zeroFetchAddDue_of (reach_count hw h) (reach_inside h).2 hp h0 hsome))
  · exact .inr (.inr ho)
  · obtain ⟨t, l, h1, h2, -, h4⟩ := hpark.parked hp
    exact .inl ⟨t, l, h1, h2, h4 m hm hms ▸ hm⟩

/-- **No lost wake-up.**  While the receiver's coroutine is parked and there is a message, or no sender any more, its
`ChannelMsg` is in flight, or a sender has still to run a `fetch_add` that returns zero, or has run it and has still
to notify.  A stored token always comes with an event-loop sender. -/
theorem no_lost_wakeup (hw : 0 < w) {bound : Option Nat} {s : ChanRun w α}
    (h : Reach (chanSystem w α bound) insideOnly s) :
    (s.recv = .parked → s.chan.queue ≠ [] ∨ s.chan.arcs = 0 →
      s.Notified ∨ s.ZeroFetchAddDue ∨ s.chan.NotifyOwed) ∧
    (s.chan.token.isSome = true → s.chan.sender.isSome = true) :=
  ⟨wakeup_due hw h, (reach_park h).tokenSender⟩

/-- A receiver that parks on an empty channel, and a send that std has taken and the counter has not. -/
def parkThenSend : List (ChanAct Nat) :=
  [.tryRecv, .block, .register 1024 0, .sender 0 (.send 7 true), .sender 0 .stdSend]

theorem no_lost_wakeup_parkThenSend : ∃ s : ChanRun 64 Nat,
    (chanSystem 64 Nat none).exec parkThenSend (ChanRun.start none) = some s ∧ s.recv = .parked ∧
      (s.Notified ∨ s.ZeroFetchAddDue ∨ s.chan.NotifyOwed) :=
  ⟨_, rfl, rfl, (no_lost_wakeup (by decide)
    (System.reach_exec parkThenSend (ChanRun.start none) _ (.init rfl) (by decide) rfl)).1 rfl (.inl (by decide))⟩

/-! ## Bounded channels -/

/-- **Stuck**: a sender is inside `send` with its message not delivered, the receiver is parked, its `ChannelMsg` is
not in flight, and every sender inside a call is blocked in its std send or gets `Full` from `try_send`. -/
def Stuck (s : ChanRun w α) : Prop :=
  s.recv = .parked ∧ ¬ s.Notified ∧
    (∃ (i : Nat) (t : α) (b : Bool), s.chan.senders[i]? = some (.sending t b)) ∧
    ∀ pc ∈ s.chan.senders, pc = .idle ∨ pc = .dropped ∨ ∃ t b, pc = .sending t b ∧ s.chan.room = false

/-- The receiver finds nothing and parks; then a sender in a coroutine calls `send`. -/
def parkThenOffer (t : α) : List (ChanAct α) :=
  [.tryRecv, .block, .register 1024 0, .sender 0 (.send t true)]

/-- Where `parkThenOffer` leads with bound 0: std takes the message only when a receiver waits in std. -/
def offered (t : α) : ChanRun w α where
  chan := { (Chan.new (some 0) : Chan w α Stamped Nat) with
    senders := [.sending t true], token := some ⟨1024, 1⟩, sender := some 0 }
  recv := .parked
  inflight := []
  stamp := 1
  overtaken := false
  outside := 0

theorem stuck_bound_zero (t : α) :
    Reach (chanSystem w α (some 0)) insideOnly (offered t) ∧ Stuck (offered t : ChanRun w α) := by
  constructor
  · refine System.reach_exec_of_forall (parkThenOffer t) (ChanRun.start (some 0)) _ (.init rfl) ?_ ?_
    · intro a ha s
      simp only [parkThenOffer, List.mem_cons, List.not_mem_nil, or_false] at ha
      rcases ha with rfl | rfl | rfl | rfl <;> rfl
    · simp [System.exec, parkThenOffer, chanSystem, step, ChanRun.start, Chan.new, Chan.tryRecv, Chan.disconnected,
        Chan.register, sendOvertaken, Chan.senderStep, Chan.setPc, post, offered]
  · refine ⟨rfl, ?_, ⟨0, t, true, rfl⟩, fun pc hpc => ?_⟩
    · rintro ⟨_, _, _, _, hm⟩
      cases hm
    · exact .inr (.inr ⟨t, true, List.mem_singleton.1 hpc, rfl⟩)

/-- **A bounded channel never gets stuck exactly when its bound is 1 or more.** -/
theorem sync_stuck_iff (hw : 0 < w) [Inhabited α] (b : Nat) :
    (∀ s : ChanRun w α, Reach (chanSystem w α (some b)) insideOnly s → ¬ Stuck s) ↔ 1 ≤ b := by
  constructor
  · intro h
    by_contra hb
    obtain rfl : b = 0 := by omega
    exact h _ (stuck_bound_zero default).1 (stuck_bound_zero default).2
  · rintro hb s hs ⟨hp, hnot, ⟨i, t, b', hi⟩, hall⟩
    -- the sender finds the queue full, so there is something to receive
    have hfull : s.chan.room = false := by
      rcases hall _ (List.mem_of_getElem? hi) with h | h | ⟨_, _, -, h⟩
      · cases h
      · cases h
      · exact h
    have hq : s.chan.queue ≠ [] := by
      intro hq
      simp only [Chan.room, reach_bound hs, hq, List.length_nil, decide_eq_false_iff_not] at hfull
      omega
    have hdone : ∀ pc ∈ s.chan.senders, pc.fetchAddNext = false ∧ pc.notifyNext = false := by
      intro pc hpc
      rcases hall pc hpc with rfl | rfl | ⟨_, _, rfl, -⟩ <;> exact ⟨rfl, rfl⟩
    rcases wakeup_due hw hs hp (.inl hq) with h | ⟨-, j, pc, hj, hpc⟩ | ⟨j, pc, hj, hpc⟩
    · exact hnot h
    · exact Bool.false_ne_true ((hdone pc (List.mem_of_getElem? hj)).1.symm.trans hpc)
    · exact Bool.false_ne_true ((hdone pc (List.mem_of_getElem? hj)).2.symm.trans hpc)

theorem sync_stuck_iff_rendezvous :
    (∀ s : ChanRun 64 Nat, Reach (chanSystem 64 Nat (some 0)) insideOnly s → ¬ Stuck s) ↔ 1 ≤ 0 :=
  sync_stuck_iff (by decide) 0

/-- A `sync_channel(0)` does get stuck. -/
theorem sync_channel_zero_stuck :
    ¬ ∀ (b : Nat) (s : ChanRun 64 Nat), Reach (chanSystem 64 Nat (some b)) insideOnly s → ¬ Stuck s := by
  intro h
  exact h 0 _ (stuck_bound_zero 0).1 (stuck_bound_zero 0).2

end ChanRun
end Mioco
