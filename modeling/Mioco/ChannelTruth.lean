import Mioco.ChannelWake
/-!
# What a wake-up promises (src/sync/mpsc.rs)

`ReceiverCore::register` and the notification decide from the counter, which follows the queue by separate steps.  A
wake-up with nothing to receive has one of two origins (`wake_truthful`): a send whose message was taken before it was
counted, or the drop of the last sender between its two halves.
-/
namespace Mioco

open Lib (System)
open Lib.System (Reach)

namespace Chan
variable {w : Nat} {α τ κ : Type}

/-- Some send has had its message taken by std and has not returned. -/
def Sending (c : Chan w α τ κ) : Prop := ∃ pc ∈ c.senders, pc.afterSend = true

/-- `SenderShared::drop` only runs once the last `Arc` is released. -/
def DropOk (c : Chan w α τ κ) : Prop := ∀ pc ∈ c.senders, pc.isDropAdded = true → c.arcs = 0

theorem DropOk.handOver {c : Chan w α τ κ} {i : Nat} (h : c.DropOk) : (c.setPc i .sent).DropOk := by
  intro pc hpc hda
  rcases List.mem_or_eq_of_mem_set hpc with hold | rfl
  · exact h pc hold hda
  · cases hda

end Chan

namespace SenderMove
variable {w : Nat} {α τ κ : Type} {c c' : Chan w α τ κ} {i : Nat} {n : Notify τ κ}

theorem arcs_zero (h : SenderMove c i c' n) (hc : c.ArcsOk) (h0 : c.arcs = 0) : c'.arcs = 0 := by
  cases h with
  | clone hi => exact absurd h0 (Nat.ne_of_gt (Chan.arcs_pos hc hi rfl))
  | drop hi => exact absurd h0 (Nat.ne_of_gt (Chan.arcs_pos hc hi rfl))
  | _ => exact h0

theorem queue_ne_nil (h : SenderMove c i c' n) (hq : c.queue ≠ []) : c'.queue ≠ [] := by
  cases h with
  | stdSend t b => simp [Chan.setPc]
  | _ => exact hq

theorem dropOk (h : SenderMove c i c' n) (hc : c.ArcsOk) (hd : c.DropOk) : c'.DropOk := by
  have hset : ∀ {pc' : SenderPc w α}, c'.senders = c.senders.set i pc' → (pc'.isDropAdded = true → c'.arcs = 0) →
      c'.DropOk := fun hs hnew pc hpc hda => by
    rw [hs] at hpc
    rcases List.mem_or_eq_of_mem_set hpc with hold | rfl
    · exact h.arcs_zero hc (hd pc hold hda)
    · exact hnew hda
  cases h with
  | stay => exact hd
  | quiet pc pc' hi hq => exact hset rfl (fun hda => hd pc (List.mem_of_getElem? hi) (hq.2.2.2.2.2.2 hda))
  | clone hi =>
    intro pc hpc hda
    rcases List.mem_append.1 hpc with hold | hnew
    · exact absurd (hd pc hold hda) (Nat.ne_of_gt (Chan.arcs_pos hc hi rfl))
    · rw [List.mem_singleton.1 hnew] at hda
      cases hda
  | stdSend t b hi => exact hset rfl (fun hda => by cases hda)
  | fetchAdd hi => exact hset rfl (fun hda => by cases hda)
  | notify pc pc' hi _ hto => rcases hto with ⟨-, rfl⟩ | ⟨-, rfl⟩ <;> exact hset rfl (fun hda => by cases hda)
  | drop hi => refine hset rfl (fun hda => ?_); split at hda <;> cases hda
  | dropFetchAdd hi =>
    exact hset rfl (fun _ => hc.released.2 (Nat.le_antisymm hc.released.1 (Lib.countP_pos_of_getElem? hi rfl)))

theorem sending (h : SenderMove c i c' n) (hs : c'.Sending) : c.Sending ∨ c'.queue ≠ [] := by
  obtain ⟨pc, hpc, hsend⟩ := hs
  have hset : ∀ {pc' : SenderPc w α}, c'.senders = c.senders.set i pc' → (pc'.afterSend = true → c.Sending) →
      c.Sending := fun he hnew => by
    rw [he] at hpc
    rcases List.mem_or_eq_of_mem_set hpc with hold | rfl
    · exact ⟨pc, hold, hsend⟩
    · exact hnew hsend
  cases h with
  | stay => exact .inl ⟨pc, hpc, hsend⟩
  | quiet pc pc' hi hq => exact .inl (hset rfl (fun h' => ⟨pc, List.mem_of_getElem? hi, hq.2.2.2.2.2.1 h'⟩))
  | clone hi =>
    rcases List.mem_append.1 hpc with hold | hnew
    · exact .inl ⟨pc, hold, hsend⟩
    · rw [List.mem_singleton.1 hnew] at hsend
      cases hsend
  | stdSend t b => exact .inr (by simp [Chan.setPc])
  | fetchAdd hi => exact .inl (hset rfl (fun _ => ⟨_, List.mem_of_getElem? hi, rfl⟩))
  | notify pc pc' hi _ hto =>
    rcases hto with ⟨-, rfl⟩ | ⟨-, rfl⟩ <;> exact .inl (hset rfl (fun h' => by cases h'))
  | drop hi => exact .inl (hset rfl (fun h' => by split at h' <;> cases h'))
  | dropFetchAdd hi => exact .inl (hset rfl (fun h' => by cases h'))

/-- **Who notifies**: a send that has enqueued, or the drop of the last sender. -/
theorem notifier (h : SenderMove c i c' n) (hd : c.DropOk) : n = .nothing ∨ c.Sending ∨ c.arcs = 0 := by
  cases h with
  | notify pc pc' hi _ hto =>
    have hmem := List.mem_of_getElem? hi
    rcases hto with ⟨rfl, -⟩ | ⟨rfl, -⟩
    · exact .inr (.inl ⟨_, hmem, rfl⟩)
    · exact .inr (.inr (hd _ hmem rfl))
  | _ => exact .inl rfl

end SenderMove

namespace ChanRun
variable {w : Nat} {α : Type}

/-- A message is queued, or the wake-up has one of the two origins that leave none. -/
def Promised (s : ChanRun w α) : Prop := s.chan.queue ≠ [] ∨ s.overtaken = true ∨ s.chan.arcs = 0

/-- Resumed by this channel, with nothing received since. -/
def Woken (s : ChanRun w α) : Prop :=
  ∃ cause, cause ≠ Wake.other ∧ (s.recv = .leaving cause ∨ s.recv = .running (some cause))

structure Truth (s : ChanRun w α) : Prop where
  dropOk : s.chan.DropOk
  woken : s.Woken → s.Promised
  sending : s.recv = .parked → s.chan.Sending → s.chan.queue ≠ [] ∨ s.overtaken = true
  message : s.recv = .parked → s.MessageInFlight → s.Promised

theorem truth_start (bound : Option Nat) : Truth (ChanRun.start bound : ChanRun w α) := by
  constructor <;> simp [ChanRun.start, Chan.new, Chan.DropOk, Woken]

theorem Promised.sender {s : ChanRun w α} {c : Chan w α Stamped Nat} {i : Nat} {n : Notify Stamped Nat}
    (hp : s.Promised) (hc : s.chan.ArcsOk) (hmv : SenderMove s.chan i c n) : (s.post c n).Promised := by
  obtain ⟨-, -, -, e4⟩ := post_recv s c n
  rw [Promised, post_chan, e4]
  exact hp.imp hmv.queue_ne_nil (Or.imp_right (hmv.arcs_zero hc))

theorem truth_sender {s : ChanRun w α} {c : Chan w α Stamped Nat} {i : Nat} {n : Notify Stamped Nat} (h : Truth s)
    (hc : s.chan.ArcsOk) (hmv : SenderMove s.chan i c n) : Truth (s.post c n) := by
  obtain ⟨e1, -, e3, e4⟩ := post_recv s c n
  refine ⟨?_, fun hw => ?_, fun hp hs => ?_, fun hp hm => ?_⟩
  · rw [post_chan]
    exact hmv.dropOk hc h.dropOk
  · rw [Woken, e1] at hw
    exact (h.woken hw).sender hc hmv
  · rw [e1] at hp
    rw [post_chan] at hs
    rw [post_chan, e4]
    rcases hmv.sending hs with hs | hq
    · exact (h.sending hp hs).imp_left hmv.queue_ne_nil
    · exact .inl hq
  · rw [e1] at hp
    refine Promised.sender ?_ hc hmv
    rcases hmv.notifier h.dropOk with rfl | hs | h0
    · exact h.message hp hm
    · exact (h.sending hp hs).imp_right .inl
    · exact .inr (.inr h0)

/-- **What `register` saw**: a counter that is not zero over an empty queue is a send overtaken, or the last drop. -/
theorem promised_of_counter {s : ChanRun w α} (hc : Count s) (hin : s.outside = 0) (hr : s.recv = .blocking)
    (h0 : s.chan.counter ≠ 0) : s.chan.queue ≠ [] ∨ sendOvertaken s.chan = true ∨ s.chan.arcs = 0 := by
  by_contra hno
  obtain ⟨hq, hover, harcs⟩ := not_or.1 hno |>.imp id not_or.1
  have hq : s.chan.queue = [] := not_not.1 hq
  have hb := hc.counts (by simp [hr])
  rw [tookN, if_neg (by simp [hr]), hin, Chan.Counts, hq, Chan.endedN_of_arcs (Nat.pos_of_ne_zero harcs)] at hb
  -- the counter alone is owed the sends not counted, and there is none
  have hsent : s.chan.sentN = 0 := by
    by_contra hs
    obtain ⟨i, pc, hi, hpc⟩ := Lib.exists_of_countP_pos (Nat.pos_of_ne_zero hs)
    refine hover ?_
    rw [sendOvertaken, hq, List.isEmpty_nil, Bool.true_and, List.any_eq_true]
    exact ⟨pc, List.mem_of_getElem? hi, by cases pc <;> simp_all⟩
  rw [hsent] at hb
  exact h0 (by simpa using hb.eq_ofNat)

theorem truth_step {s s' : ChanRun w α} {a : ChanAct α} (hc : Count s) (hpk : Park s) (hin : s.outside = 0)
    (h : Truth s) (hst : s.step a = some s') : Truth s' := by
  have hidle : ∀ {s' : ChanRun w α}, s'.chan.DropOk → ¬ s'.Woken → s'.recv ≠ .parked → Truth s' :=
    fun hd hw hp => ⟨hd, fun h' => absurd h' hw, fun h' => absurd h' hp, fun h' => absurd h' hp⟩
  cases a with
  | sender i a =>
    simp only [step] at hst
    split at hst
    · rename_i c n hs
      cases hst
      exact truth_sender h hc.arcsOk (senderStep_move hs)
    · cases hst
  | register t l =>
    simp only [step] at hst
    split at hst
    · rename_i hr
      cases hst
      have hd := h.dropOk
      unfold Chan.register
      split
      · rename_i h0
        exact ⟨hd, fun _ => promised_of_counter (s := s) hc hin hr h0, by simp, by simp⟩
      · refine ⟨hd, by simp [Woken], fun _ hsend => ?_, fun _ hmsg => ?_⟩
        · obtain ⟨pc, hpc, hs⟩ := hsend
          by_cases hq : s.chan.queue = []
          · refine .inr ?_
            simp only [sendOvertaken, hq, List.isEmpty_nil, Bool.true_and, List.any_eq_true]
            exact ⟨pc, hpc, hs⟩
          · exact .inl hq
        · obtain ⟨m, hm, hms⟩ := hmsg
          have := hpk.inflightStamp m hm
          simp only at hms
          omega
    · cases hst
  | deliver k =>
    simp only [step] at hst
    split at hst
    · rename_i l m hk
      cases hst
      split
      · rename_i hp
        refine ⟨h.dropOk, ?_, by simp, by simp⟩
        rintro ⟨cause, hne, hcause⟩
        -- only a message of the current registration counts as the channel's wake-up
        have hms : m.stamp = s.stamp := by
          by_contra hms
          simp only [if_neg hms, RecvPc.leaving.injEq, reduceCtorEq, or_false] at hcause
          exact hne hcause.symm
        exact h.message hp.1 ⟨(l, m), List.mem_of_getElem? hk, hms⟩
      · refine ⟨h.dropOk, h.woken, h.sending, fun hp hmsg => ?_⟩
        obtain ⟨x, hx, hxs⟩ := hmsg
        exact h.message hp ⟨x, List.mem_of_mem_eraseIdx hx, hxs⟩
    · cases hst
  | deregister =>
    simp only [step] at hst
    split at hst
    · rename_i cause hr
      cases hst
      refine ⟨h.dropOk, ?_, by simp, by simp⟩
      rintro ⟨cause', hne, hcause⟩
      simp only [reduceCtorEq, RecvPc.running.injEq, Option.some.injEq, false_or] at hcause
      subst hcause
      exact h.woken ⟨cause, hne, .inl hr⟩
    · cases hst
  | tryRecvFrom i =>
    simp only [step] at hst
    split at hst
    · rename_i hh
      cases hst
      obtain ⟨-, ⟨t, hi⟩, rfl⟩ := Chan.handOver_some hh
      exact hidle (Chan.DropOk.handOver h.dropOk) (by simp [Woken]) (by simp)
    · cases hst
  | recvReturnFrom i =>
    simp only [step] at hst
    split at hst
    · rename_i hh
      cases hst
      obtain ⟨-, ⟨t, b, hi⟩, rfl⟩ := Chan.handOverWaiting_some hh
      exact hidle (Chan.DropOk.handOver h.dropOk) (by simp [Woken]) (by simp)
    · cases hst
  | otherWake =>
    simp only [step] at hst
    split at hst <;> cases hst
    exact hidle h.dropOk (by simp [Woken]) (by simp)
  | tryRecv | fetchSub | block | recv | recvReturn | dropReceiver =>
    simp only [step] at hst
    split at hst <;> cases hst <;> exact hidle h.dropOk (by simp [Woken]) (by simp)

theorem reach_truth (hw : 0 < w) {bound : Option Nat} {s : ChanRun w α}
    (h : Reach (chanSystem w α bound) insideOnly s) : Truth s :=
  h.invariant_of (fun s => (Count s ∧ Park s) ∧ s.outside = 0) Truth
    (fun _ hr => ⟨⟨reach_count hw hr, reach_park hr⟩, (reach_inside hr).2⟩) (fun _ h0 => h0 ▸ truth_start bound)
    (fun _ _ _ hj hi _ hst _ => truth_step hj.1.1 hj.1.2 hj.2 hi hst)

/-- **What a wake-up promises.**  After a wake-up by this channel the next `try_recv` finds a message or
`Disconnected`, unless a send whose message was already received was still in progress when the receiver registered,
or the last `Arc<SenderShared>` is released and the last std sender not yet dropped. -/
theorem wake_truthful (hw : 0 < w) {bound : Option Nat} {s : ChanRun w α}
    (h : Reach (chanSystem w α bound) insideOnly s) {cause : Wake} (hr : s.recv = .running (some cause))
    (hcause : cause ≠ .other) :
    s.chan.tryRecv ≠ .empty ∨ s.overtaken = true ∨ s.chan.arcs = 0 ∧ s.chan.disconnected = false := by
  by_cases he : s.chan.tryRecv = .empty
  · obtain ⟨hq, hd⟩ := Chan.tryRecv_empty he
    rcases (reach_truth hw h).woken ⟨cause, hcause, .inr hr⟩ with hne | ho | h0
    · exact absurd hq hne
    · exact .inr (.inl ho)
    · exact .inr (.inr ⟨h0, hd⟩)
  · exact .inl he

/-- A message is received between its std send and its `fetch_add`; the receiver then waits for the next one. -/
def overtake : List (ChanAct Nat) :=
  [.sender 0 (.send 7 true), .sender 0 .stdSend, .tryRecv, .fetchSub, .block, .register 1024 0, .deregister]

/-- Where `overtake` leads. -/
def overtook : ChanRun 64 Nat where
  chan := { (Chan.new none : Chan 64 Nat Stamped Nat) with counter := -1, senders := [.sent] }
  recv := .running (some .selfWake)
  inflight := []
  stamp := 1
  overtaken := true
  outside := 0

theorem reach_overtook : Reach (chanSystem 64 Nat none) insideOnly overtook :=
  System.reach_exec overtake (ChanRun.start none) _ (.init rfl) (by decide) (by decide)

theorem wake_truthful_overtook : overtook.recv = .running (some .selfWake) ∧ Wake.selfWake ≠ .other ∧
    (overtook.chan.tryRecv ≠ .empty ∨ overtook.overtaken = true ∨
      overtook.chan.arcs = 0 ∧ overtook.chan.disconnected = false) :=
  ⟨rfl, by decide, wake_truthful (by decide) reach_overtook rfl (by decide)⟩

/-- A wake-up by the channel may find it empty. -/
theorem wake_finds_empty : ¬ ∀ (bound : Option Nat) (s : ChanRun 64 Nat) (cause : Wake), bound ≠ some 0 →
    Reach (chanSystem 64 Nat bound) insideOnly s → s.recv = .running (some cause) → cause ≠ .other →
      s.chan.tryRecv ≠ .empty := by
  intro h
  exact h none overtook .selfWake (by decide) reach_overtook rfl (by decide) rfl

/-- The only sender is dropped; the receiver registers after its `fetch_add`, before the std sender is gone. -/
def dropsLast : List (ChanAct Nat) := [.block, .sender 0 .drop, .sender 0 .dropFetchAdd, .register 1024 0, .deregister]

/-- With no message received early as well: the channel is not disconnected yet. -/
theorem wake_before_disconnect : ¬ ∀ (bound : Option Nat) (s : ChanRun 64 Nat) (cause : Wake), bound ≠ some 0 →
    Reach (chanSystem 64 Nat bound) insideOnly s → s.recv = .running (some cause) → cause ≠ .other →
      s.chan.tryRecv ≠ .empty ∨ s.overtaken = true := by
  intro h
  have hsome : ((chanSystem 64 Nat none).exec dropsLast (ChanRun.start none)).any (fun s =>
      decide (s.recv = .running (some .selfWake) ∧ s.chan.tryRecv = .empty ∧ s.overtaken = false)) = true := by
    decide
  obtain ⟨s, hs, hand⟩ := (Option.any_eq_true _ _).1 hsome
  obtain ⟨hrecv, hempty, hno⟩ := of_decide_eq_true hand
  have hr : Reach (chanSystem 64 Nat none) insideOnly s :=
    System.reach_exec dropsLast (ChanRun.start none) s (.init rfl) (by decide) hs
  rcases h none s .selfWake (by decide) hr hrecv (by decide) with hne | ho
  · exact hne hempty
  · rw [hno] at ho
    cases ho

end ChanRun
end Mioco
