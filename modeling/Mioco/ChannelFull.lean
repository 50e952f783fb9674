import Mioco.ChannelWake
/-!
# When the queue of the event loop stays full (src/sync/mpsc.rs, src/mod.rs)

`sender_retry` gives up after 20000 attempts and panics, in `maybe_notify_receiver`: the message is in the std queue and
counted, and no `ChannelMsg` was sent.  Whether the receiver is still woken is decided by what else is on the way
(`harmless`).
-/
namespace Mioco

open Lib (System)
open Lib.System (Reach anyStep)

/-- Where the panic of `sender_retry` leaves a clone: out of `send`, or out of `SenderShared::drop` with the std sender
still to be dropped. -/
def SenderPc.unwound {w : Nat} {α : Type} : SenderPc w α → SenderPc w α
  | added _ => idle
  | dropAdded _ => closing
  | pc => pc

instance {w : Nat} {α τ κ : Type} (c : Chan w α τ κ) : Decidable c.NotifyOwed :=
  decidable_of_iff (c.senders.any SenderPc.notifyNext = true) (by
    simp only [Chan.NotifyOwed, List.any_eq_true, List.mem_iff_getElem?]
    exact ⟨fun h => (by obtain ⟨pc, ⟨j, hj⟩, hn⟩ := h; exact ⟨j, pc, hj, hn⟩),
      fun h => (by obtain ⟨j, pc, hj, hn⟩ := h; exact ⟨pc, ⟨j, hj⟩, hn⟩)⟩)

theorem SenderPc.unwound_notifyNext {w : Nat} {α : Type} {pc : SenderPc w α} (h : pc.notifyNext = true) :
    pc.unwound.notifyNext = false := by
  cases pc with
  | added | dropAdded => rfl
  | _ => cases h

/-- A message, or the end of the last sender, is counted. -/
def SenderAct.isFetchAdd {α : Type} : SenderAct α → Bool
  | .fetchAdd | .dropFetchAdd => true
  | _ => false

inductive FullAct (α : Type)
  | step (a : ChanAct α)
  /-- the notification of sender `i` fails -/
  | full (i : Nat)
deriving DecidableEq, Repr

namespace ChanRun
variable {w : Nat} {α : Type}

def notifyFull (s : ChanRun w α) (i : Nat) : Option (ChanRun w α) :=
  match s.chan.senders[i]?, s.chan.maybeNotifyReceiver with
  | some pc, .channelMsg _ _ =>
    if pc.notifyNext then some { s with chan := s.chan.setPc i pc.unwound } else none
  | _, _ => none

def fullStep (s : ChanRun w α) : FullAct α → Option (ChanRun w α)
  | .step a => s.step a
  | .full i => s.notifyFull i

/-- Sender `i` gives up, and the counter is zero, or another sender has still to notify, or a `ChannelMsg` for the
current registration is in flight. -/
def harmless (s : ChanRun w α) : FullAct α → Prop
  | .step _ => True
  | .full i => s.chan.counter = 0 ∨ (s.chan.senders.set i .idle).any SenderPc.notifyNext = true ∨
      s.inflight.any (fun m => decide (m.2.stamp = s.stamp)) = true

instance (s : ChanRun w α) (a : FullAct α) : Decidable (s.harmless a) := by
  cases a <;> unfold harmless <;> infer_instance

end ChanRun

/-- The runs of one channel in which event-loop queues may stay full. -/
def chanFullSystem (w : Nat) (α : Type) (bound : Option Nat) : System (ChanRun w α) (FullAct α) where
  Init s := s = ChanRun.start bound
  step := ChanRun.fullStep

namespace ChanRun
variable {w : Nat} {α : Type}

/-- A message in flight for the registration of a parked receiver is the one that wakes it. -/
theorem Park.notified {s : ChanRun w α} (h : Park s) (hp : s.recv = .parked) (hm : s.MessageInFlight) :
    s.Notified := by
  obtain ⟨m, hm, hms⟩ := hm
  obtain ⟨t, l, h1, h2, -, h4⟩ := h.parked hp
  exact ⟨t, l, h1, h2, h4 m hm hms ▸ hm⟩

theorem notifyFull_some {s s' : ChanRun w α} {i : Nat} (h : s.notifyFull i = some s') :
    ∃ pc, s.chan.senders[i]? = some pc ∧ pc.notifyNext = true ∧ s' = { s with chan := s.chan.setPc i pc.unwound } := by
  unfold notifyFull at h
  split at h
  · rename_i pc l t hi hn
    split at h
    · rename_i hpc
      cases h
      exact ⟨pc, hi, hpc, rfl⟩
    · cases h
  · cases h

/-- Another clone that owes its notification goes on owing it. -/
theorem notifyOwed_full {c : Chan w α Stamped Nat} {i : Nat} {pc : SenderPc w α}
    (h : (c.senders.set i .idle).any SenderPc.notifyNext = true) : (c.setPc i pc).NotifyOwed := by
  obtain ⟨x, hx, hn⟩ := List.any_eq_true.1 h
  obtain ⟨j, hj⟩ := List.mem_iff_getElem?.1 hx
  have hji : i ≠ j := by
    rintro rfl
    rw [List.getElem?_set] at hj
    split at hj
    · split at hj
      · cases hj
        exact Bool.false_ne_true hn
      · cases hj
    · exact absurd rfl ‹_›
  rw [List.getElem?_set_ne hji] at hj
  refine ⟨j, x, ?_, hn⟩
  show (c.senders.set i pc)[j]? = some x
  rw [List.getElem?_set_ne hji]
  exact hj

theorem park_full {s s' : ChanRun w α} {a : FullAct α} (h : Park s) (hok : s.harmless a)
    (hst : s.fullStep a = some s') : Park s' := by
  cases a with
  | step a => exact park_step h hst
  | full i =>
    obtain ⟨pc, hi, hpc, rfl⟩ := notifyFull_some hst
    refine ⟨h.tokenSender, h.tokenStamp, h.inflightStamp, h.parked, fun _ => ?_⟩
    rcases hok with h0 | ho | hm
    · exact .inl (.inl h0)
    · exact .inl (.inr (notifyOwed_full ho))
    · obtain ⟨m, hm, hms⟩ := List.any_eq_true.1 hm
      exact .inr ⟨m, hm, of_decide_eq_true hms⟩

/-- The failed clone is where a notification would have left it. -/
theorem full_move {c : Chan w α Stamped Nat} {i : Nat} {pc : SenderPc w α} (hi : c.senders[i]? = some pc)
    (hpc : pc.notifyNext = true) : SenderMove c i (c.setPc i pc.unwound) c.maybeNotifyReceiver := by
  refine .notify pc _ hi hpc ?_
  cases pc with
  | added prev =>
    rw [show prev = 0 by simpa using hpc]
    exact .inl ⟨rfl, rfl⟩
  | dropAdded prev =>
    rw [show prev = 0 by simpa using hpc]
    exact .inr ⟨rfl, rfl⟩
  | _ => cases hpc

theorem count_full {s s' : ChanRun w α} {a : FullAct α} (h : Count s) (hst : s.fullStep a = some s') : Count s' := by
  cases a with
  | step a => exact count_step h hst
  | full i =>
    obtain ⟨pc, hi, hpc, rfl⟩ := notifyFull_some hst
    have hmv := full_move hi hpc
    exact ⟨hmv.arcsOk h.arcsOk, hmv.queue_length h.memory, h.alive, fun hg => hmv.counts h.arcsOk (h.counts hg)⟩

theorem reach_count_full (hw : 0 < w) {bound : Option Nat} {ok : ChanRun w α → FullAct α → Prop} {s : ChanRun w α}
    (h : Reach (chanFullSystem w α bound) ok s) : Count s :=
  h.invariant Count (fun _ h0 => h0 ▸ count_start hw bound) (fun _ _ _ hi _ hst => count_full hi hst)

theorem reach_park_full {bound : Option Nat} {s : ChanRun w α}
    (h : Reach (chanFullSystem w α bound) harmless s) : Park s :=
  h.invariant Park (fun _ h0 => h0 ▸ park_start bound) (fun _ _ _ hi hok hst => park_full hi hok hst)

/-! ## What later sends do -/

/-- A `ChannelMsg` for the current registration is in flight or owed. -/
def WakeOwed (s : ChanRun w α) : Prop := s.chan.NotifyOwed ∨ s.MessageInFlight

section sender
variable {s s' : ChanRun w α} {i : Nat} {a : SenderAct α}

theorem sender_step (hst : s.step (.sender i a) = some s') :
    ∃ c n, s.chan.senderStep i a = some (c, n) ∧ s' = s.post c n := by
  simp only [step] at hst
  split at hst
  · rename_i c n hs
    cases hst
    exact ⟨c, n, hs, rfl⟩
  · cases hst

theorem sender_recv (hst : s.step (.sender i a) = some s') : s'.recv = s.recv := by
  obtain ⟨c, n, -, rfl⟩ := sender_step hst
  exact (post_recv s c n).1

theorem sender_wakeOwed (h : Park s) (hp : s.recv = .parked) (hst : s.step (.sender i a) = some s')
    (ho : s.WakeOwed) : s'.WakeOwed := by
  obtain ⟨c, n, hs, rfl⟩ := sender_step hst
  obtain ⟨-, -, e3, -⟩ := post_recv s c n
  rcases ho with ho | ⟨m, hm, hms⟩
  · rcases (senderStep_move hs).notifyOwed ho with ho | rfl
    · left
      rwa [post_chan]
    · obtain ⟨t, l, h1, h2, h3, -⟩ := h.parked hp
      refine .inr ⟨(l, t), ?_, by rw [e3]; exact h3⟩
      simp [Chan.maybeNotifyReceiver, h1, h2, post]
  · exact .inr ⟨m, mem_post_inflight hm, by rw [e3]; exact hms⟩

theorem senderStep_fetchAdd {c c' : Chan w α Stamped Nat} {n : Notify Stamped Nat} (ha : a.isFetchAdd = true)
    (h : c.senderStep i a = some (c', n)) (h0 : c.counter = 0) : c'.NotifyOwed := by
  have hset : ∀ {pc pc' : SenderPc w α}, c.senders[i]? = some pc → pc'.notifyNext = true →
      (c.fetchAdd.setPc i pc').NotifyOwed :=
    fun hi hn => ⟨i, _, List.getElem?_set_self (List.getElem?_eq_some_iff.1 hi).1, hn⟩
  unfold Chan.senderStep at h
  split at h
  case h_6 hi =>
    cases h
    exact hset hi (by simp [h0])
  case h_9 hi =>
    cases h
    exact hset hi (by simp [h0])
  case h_12 => cases h
  all_goals exact absurd ha (by simp [SenderAct.isFetchAdd])

/-- **The next `fetch_add`** owes a notification, if none was owed before. -/
theorem fetchAdd_wakeOwed (h : Park s) (hp : s.recv = .parked) (ha : a.isFetchAdd = true)
    (hst : s.step (.sender i a) = some s') : s'.WakeOwed := by
  rcases h.owed hp with (h0 | ho) | hm
  · obtain ⟨c, n, hs, rfl⟩ := sender_step hst
    left
    rw [post_chan]
    exact senderStep_fetchAdd ha hs h0
  · exact sender_wakeOwed h hp hst (.inl ho)
  · exact sender_wakeOwed h hp hst (.inr hm)

end sender

/-- What senders do while the receiver stays parked. -/
def senderRun (as : List (Nat × SenderAct α)) : List (ChanAct α) := as.map (fun p => .sender p.1 p.2)

theorem senderRun_park {bound : Option Nat} : ∀ (as : List (Nat × SenderAct α)) (s s' : ChanRun w α),
    Park s → s.recv = .parked → (chanSystem w α bound).exec (senderRun as) s = some s' →
      Park s' ∧ s'.recv = .parked ∧ ((∃ p ∈ as, p.2.isFetchAdd = true) ∨ s.WakeOwed → s'.WakeOwed)
  | [], s, s', h, hp, hex => by
    cases hex
    refine ⟨h, hp, fun ho => ho.resolve_left ?_⟩
    rintro ⟨_, hm, -⟩
    cases hm
  | (i, a) :: as, s, s', h, hp, hex => by
    simp only [senderRun, List.map_cons, System.exec] at hex
    cases hst : s.step (.sender i a) with
    | none => simp only [chanSystem, hst] at hex; cases hex
    | some s₁ =>
      rw [show (chanSystem w α bound).step s (.sender i a) = some s₁ from hst] at hex
      have hp₁ : s₁.recv = .parked := (sender_recv hst).trans hp
      obtain ⟨h', hp', ho'⟩ := senderRun_park as s₁ s' (park_step h hst) hp₁ hex
      refine ⟨h', hp', fun ho => ho' ?_⟩
      rcases ho with ⟨p, hmem, hfa⟩ | ho
      · rcases List.mem_cons.1 hmem with rfl | hmem
        · exact .inr (fetchAdd_wakeOwed h hp hfa hst)
        · exact .inl ⟨p, hmem, hfa⟩
      · exact .inr (sender_wakeOwed h hp hst ho)

/-- **A failed notification does not disable the channel** in a run whose failures are harmless.  While the receiver
is parked: once a further send, or the drop of the last sender, is through its `fetch_add` and no notification is due,
the `ChannelMsg` for it is in flight; and something to receive is on its way to it, as ever. -/
theorem full_still_woken (hw : 0 < w) {bound : Option Nat} {s : ChanRun w α}
    (h : Reach (chanFullSystem w α bound) harmless s) (hp : s.recv = .parked) :
    (∀ as s', (chanSystem w α bound).exec (senderRun as) s = some s' → (∃ p ∈ as, p.2.isFetchAdd = true) →
      ¬ s'.chan.NotifyOwed → s'.Notified) ∧
    (s.outside = 0 → s.chan.queue ≠ [] ∨ s.chan.arcs = 0 →
      s.Notified ∨ s.ZeroFetchAddDue ∨ s.chan.NotifyOwed) := by
  have hpark := reach_park_full h
  constructor
  · intro as s' hex hsend hdone
    obtain ⟨hpark', hp', howed⟩ := senderRun_park as s s' hpark hp hex
    exact hpark'.notified hp' ((howed (.inl hsend)).resolve_left hdone)
  · intro hout hsome
    rcases hpark.owed hp with (h0 | ho) | hm
    · exact .inr (.inl (zeroFetchAddDue_of (reach_count_full hw h) hout hp h0 hsome))
    · exact .inr (.inr ho)
    · exact .inl (hpark.notified hp hm)

/-- The notification fails after the message it is about was received: the counter is back to zero. -/
def lateFailure : List (FullAct Nat) :=
  [.step (.sender 0 (.send 7 true)), .step (.sender 0 .stdSend), .step (.sender 0 .fetchAdd), .step .tryRecv,
    .step .fetchSub, .step .block, .step (.register 1024 0), .full 0]

def nextSend : List (Nat × SenderAct Nat) := [(0, .send 8 true), (0, .stdSend), (0, .fetchAdd), (0, .notify)]

/-- Where `lateFailure` leads. -/
def lateState : ChanRun 64 Nat where
  chan := { (Chan.new none : Chan 64 Nat Stamped Nat) with token := some ⟨1024, 1⟩, sender := some 0 }
  recv := .parked
  inflight := []
  stamp := 1
  overtaken := true
  outside := 0

theorem full_still_woken_late :
    Reach (chanFullSystem 64 Nat none) harmless lateState ∧ ∃ s',
      (chanSystem 64 Nat none).exec (senderRun nextSend) lateState = some s' ∧ s'.Notified := by
  have h : Reach (chanFullSystem 64 Nat none) harmless lateState :=
    System.reach_exec lateFailure (ChanRun.start none) _ (.init rfl) (by decide) rfl
  exact ⟨h, _, rfl, (full_still_woken (by decide) h rfl).1 nextSend _ rfl (by decide) (by decide)⟩

/-! ## A failure that is not harmless -/

/-- A notification owed after clone `i` moved was owed before, or `i` owes it. -/
theorem notifyOwed_of_set {c c' : Chan w α Stamped Nat} {i : Nat} {pc' : SenderPc w α}
    (hs : c'.senders = c.senders.set i pc') (hpc : pc'.notifyNext = false) (ho : c'.NotifyOwed) : c.NotifyOwed := by
  obtain ⟨j, x, hj, hn⟩ := ho
  rw [hs] at hj
  by_cases hji : i = j
  · subst hji
    rw [List.getElem?_set] at hj
    split at hj
    · split at hj
      · cases hj
        rw [hpc] at hn
        cases hn
      · cases hj
    · exact absurd rfl ‹_›
  · rw [List.getElem?_set_ne hji] at hj
    exact ⟨j, x, hj, hn⟩

/-- With nothing owed, a sender owes a notification only by a `fetch_add` that returns zero, and makes none. -/
theorem senderStep_silent {c c' : Chan w α Stamped Nat} {i : Nat} {a : SenderAct α} {n : Notify Stamped Nat}
    (h : c.senderStep i a = some (c', n)) (h0 : a.isFetchAdd = true → c.counter ≠ 0) (ho : ¬ c.NotifyOwed) :
    ¬ c'.NotifyOwed ∧ n = .nothing := by
  have hquiet : ∀ pc' : SenderPc w α, c'.senders = c.senders.set i pc' → pc'.notifyNext = false → ¬ c'.NotifyOwed :=
    fun pc' hs hpc h' => ho (notifyOwed_of_set hs hpc h')
  have hpending : ∀ prev : BitVec w, (∃ pc, c.senders[i]? = some pc ∧ pc.notifyNext = (prev == 0)) →
      c.notifyIfZero prev = .nothing := by
    rintro prev ⟨pc, hi, hpc⟩
    refine if_neg (fun hz => ho ⟨i, pc, hi, ?_⟩)
    rw [hpc, hz]
    exact beq_self_eq_true _
  unfold Chan.senderStep at h
  split at h
  case h_1 hi =>
    cases h
    refine ⟨fun h' => ho ?_, rfl⟩
    obtain ⟨j, x, hj, hn⟩ := h'
    rcases List.mem_append.1 (List.mem_of_getElem? hj) with hm | hm
    · obtain ⟨k, hk⟩ := List.mem_iff_getElem?.1 hm
      exact ⟨k, x, hk, hn⟩
    · rw [List.mem_singleton.1 hm] at hn
      cases hn
  case h_2 => cases h; exact ⟨hquiet _ rfl rfl, rfl⟩
  case h_3 =>
    split at h
    · cases h
      exact ⟨hquiet _ rfl rfl, rfl⟩
    · split at h
      · cases h
        exact ⟨hquiet _ rfl rfl, rfl⟩
      · cases h
  case h_4 =>
    split at h
    · cases h
      exact ⟨ho, rfl⟩
    · cases h
  case h_5 => cases h; exact ⟨hquiet _ rfl rfl, rfl⟩
  case h_6 => cases h; exact ⟨hquiet _ rfl (by simpa using h0 rfl), rfl⟩
  case h_7 hi => cases h; exact ⟨hquiet _ rfl rfl, hpending _ ⟨_, hi, rfl⟩⟩
  case h_8 =>
    cases h
    refine ⟨hquiet _ rfl ?_, rfl⟩
    split <;> rfl
  case h_9 => cases h; exact ⟨hquiet _ rfl (by simpa using h0 rfl), rfl⟩
  case h_10 hi => cases h; exact ⟨hquiet _ rfl rfl, hpending _ ⟨_, hi, rfl⟩⟩
  case h_11 => cases h; exact ⟨hquiet _ rfl rfl, rfl⟩
  case h_12 => cases h

theorem senderStep_counter {c c' : Chan w α Stamped Nat} {i : Nat} {a : SenderAct α} {n : Notify Stamped Nat}
    (h : c.senderStep i a = some (c', n)) (ha : a.isFetchAdd = false) : c'.counter = c.counter := by
  unfold Chan.senderStep at h
  split at h
  case h_6 => cases ha
  case h_9 => cases ha
  case h_3 | h_4 =>
    repeat' split at h
    all_goals cases h
    all_goals rfl
  all_goals cases h
  all_goals rfl

/-- With nothing owed, a sender step owes nothing, unless it is a `fetch_add` that returns zero. -/
theorem sender_silent {s s' : ChanRun w α} {i : Nat} {a : SenderAct α} (hst : s.step (.sender i a) = some s')
    (h0 : a.isFetchAdd = true → s.chan.counter ≠ 0) (ho : ¬ s.WakeOwed) : ¬ s'.WakeOwed := by
  obtain ⟨c, n, hs, rfl⟩ := sender_step hst
  obtain ⟨hno, rfl⟩ := senderStep_silent hs h0 (fun h => ho (.inl h))
  exact fun h => h.elim hno (fun hm => ho (.inr hm))

theorem silent_run {bound : Option Nat} : ∀ (as : List (Nat × SenderAct α)) (s s' : ChanRun w α),
    (∀ p ∈ as, p.2.isFetchAdd = false) → (chanSystem w α bound).exec (senderRun as) s = some s' → ¬ s.WakeOwed →
      ¬ s'.WakeOwed ∧ s'.chan.counter = s.chan.counter
  | [], s, s', _, hex, ho => by
    cases hex
    exact ⟨ho, rfl⟩
  | (i, a) :: as, s, s', has, hex, ho => by
    simp only [senderRun, List.map_cons, System.exec] at hex
    cases hst : s.step (.sender i a) with
    | none => simp only [chanSystem, hst] at hex; cases hex
    | some s₁ =>
      rw [show (chanSystem w α bound).step s (.sender i a) = some s₁ from hst] at hex
      have ha : a.isFetchAdd = false := has (i, a) (by simp)
      have ho₁ : ¬ s₁.WakeOwed := sender_silent hst (fun h => by rw [ha] at h; cases h) ho
      obtain ⟨h1, h2⟩ := silent_run as s₁ s' (fun p hp => has p (List.mem_cons_of_mem _ hp)) hex ho₁
      refine ⟨h1, h2.trans ?_⟩
      obtain ⟨c, n, hs, rfl⟩ := sender_step hst
      rw [post_chan]
      exact senderStep_counter hs ha

/-- **Otherwise the receiver is forgotten**: the next send through its `fetch_add`, or the drop of the last sender,
notifies nobody. -/
theorem full_disables {bound : Option Nat} {s s₁ s₂ s₃ : ChanRun w α} {i k : Nat} {a : SenderAct α}
    (hst : s.fullStep (.full i) = some s₁) (hbad : ¬ s.harmless (.full i)) (as : List (Nat × SenderAct α))
    (has : ∀ p ∈ as, p.2.isFetchAdd = false) (hex : (chanSystem w α bound).exec (senderRun as) s₁ = some s₂)
    (hnext : s₂.step (.sender k a) = some s₃) : ¬ s₃.WakeOwed := by
  obtain ⟨pc, hi, hpc, rfl⟩ := notifyFull_some hst
  simp only [harmless, not_or] at hbad
  obtain ⟨h0, hother, hmsg⟩ := hbad
  have hsilent : ¬ WakeOwed { s with chan := s.chan.setPc i pc.unwound } := by
    rintro (⟨j, x, hj, hn⟩ | ⟨m, hm, hms⟩)
    · refine hother (List.any_eq_true.2 ⟨x, ?_, hn⟩)
      have hij : i ≠ j := by
        rintro rfl
        rw [show (s.chan.setPc i pc.unwound).senders[i]? = some pc.unwound from
          List.getElem?_set_self (List.getElem?_eq_some_iff.1 hi).1] at hj
        cases hj
        exact Bool.false_ne_true ((SenderPc.unwound_notifyNext hpc).symm.trans hn)
      refine List.mem_of_getElem? (i := j) ?_
      rw [List.getElem?_set_ne hij]
      rwa [show (s.chan.setPc i pc.unwound).senders[j]? = s.chan.senders[j]? from List.getElem?_set_ne hij] at hj
    · exact hmsg (List.any_eq_true.2 ⟨m, hm, decide_eq_true hms⟩)
  obtain ⟨h1, h2⟩ := silent_run as _ _ has hex hsilent
  exact sender_silent hnext (fun _ => by rw [h2]; exact h0) h1

/-- The receiver is parked, a send fails to notify it, and the next one does not try. -/
def lostNotification : List (FullAct Nat) :=
  [.step .tryRecv, .step .block, .step (.register 1024 0), .step (.sender 0 (.send 7 true)), .step (.sender 0 .stdSend),
    .step (.sender 0 .fetchAdd), .full 0]

/-- Where `lostNotification` leads. -/
def lostState : ChanRun 64 Nat where
  chan := { (Chan.new none : Chan 64 Nat Stamped Nat) with
    queue := [7], counter := 1, token := some ⟨1024, 1⟩, sender := some 0 }
  recv := .parked
  inflight := []
  stamp := 1
  overtaken := false
  outside := 0

theorem full_not_woken : Reach (chanFullSystem 64 Nat none) anyStep lostState ∧ ∃ s',
    (chanSystem 64 Nat none).exec (senderRun nextSend) lostState = some s' ∧ ¬ s'.chan.NotifyOwed ∧ ¬ s'.Notified := by
  refine ⟨System.reach_exec_of_forall lostNotification (ChanRun.start none) _ (.init rfl) (fun _ _ _ => trivial) rfl,
    _, rfl, by decide, ?_⟩
  rintro ⟨_, _, _, _, hm⟩
  cases hm

end ChanRun
end Mioco
