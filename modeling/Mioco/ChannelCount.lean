import Mioco.ChannelRun
import Mioco.ChannelMove
/-!
# What the counter of a channel counts

The counter is the length of the std queue, less the sends not counted yet, plus the message taken and not yet
subtracted, plus one once `SenderShared::drop` has run its `fetch_add`, plus the messages `recv` took outside any
coroutine; all modulo `2 ^ w` (`ChanCount`).
-/
namespace Mioco

open Lib (System Balanced countP_set_add)

namespace Chan
variable {w : Nat} {α τ κ : Type}

/-- Sends enqueued and not counted. -/
def sentN (c : Chan w α τ κ) : Nat := c.senders.countP SenderPc.isSent
def releasedN (c : Chan w α τ κ) : Nat := c.senders.countP SenderPc.isReleased

/-- `SenderShared::drop` has run its `fetch_add`. -/
def endedN (c : Chan w α τ κ) : Nat := if c.arcs = 0 ∧ c.releasedN = 0 then 1 else 0

theorem endedN_of_arcs {c : Chan w α τ κ} (h : 0 < c.arcs) : c.endedN = 0 := if_neg (fun h' => by omega)

theorem endedN_of_released {c : Chan w α τ κ} (h : 0 < c.releasedN) : c.endedN = 0 := if_neg (fun h' => by omega)

theorem endedN_le_one (c : Chan w α τ κ) : c.endedN ≤ 1 := by
  unfold endedN; split <;> omega

/-- The strong count is right, and the last `Arc` was released at most once. -/
structure ArcsOk (c : Chan w α τ κ) : Prop where
  arcs : c.arcs = c.senders.countP SenderPc.holdsArc
  released : c.releasedN ≤ 1 ∧ (c.releasedN = 1 → c.arcs = 0)

/-- The counter, but for `rest` messages the receiver took. -/
def Counts (c : Chan w α τ κ) (rest : Nat) : Prop :=
  Balanced c.counter c.sentN (c.queue.length + c.endedN + rest)

theorem arcs_pos {c : Chan w α τ κ} (h : c.ArcsOk) {i : Nat} {pc : SenderPc w α} (hi : c.senders[i]? = some pc)
    (hpc : pc.holdsArc = true) : 0 < c.arcs := h.arcs ▸ Lib.countP_pos_of_getElem? hi hpc

/-- Clone `i` moves from `pc` to `pc'` and the strong count follows. -/
theorem ArcsOk.set {c c' : Chan w α τ κ} (hc : c.ArcsOk) {i : Nat} {pc pc' : SenderPc w α}
    (hi : c.senders[i]? = some pc) (hs : c'.senders = c.senders.set i pc')
    (harcs : c'.arcs + pc.holdsArc.toNat = c.arcs + pc'.holdsArc.toNat) (hle : c'.arcs ≤ c.arcs)
    (hrel : pc'.isReleased = true → pc.isReleased = true ∨ 0 < c.arcs ∧ c'.arcs = 0) : c'.ArcsOk := by
  obtain ⟨ha, hr, hr1⟩ := hc
  have e2 := countP_set_add SenderPc.holdsArc pc' hi
  have e3 := countP_set_add SenderPc.isReleased pc' hi
  rw [← hs] at e2 e3
  simp only [releasedN] at hr hr1
  refine ⟨by omega, ?_⟩
  simp only [releasedN]
  cases h' : pc'.isReleased with
  | false =>
    rw [h', Bool.toNat_false] at e3
    omega
  | true =>
    rw [h', Bool.toNat_true] at e3
    rcases hrel h' with hpc | ⟨hpos, h0⟩
    · rw [hpc, Bool.toNat_true] at e3
      omega
    · omega

theorem ArcsOk.of_eq {c c' : Chan w α τ κ} (h : c.ArcsOk) (hs : c'.senders = c.senders) (ha : c'.arcs = c.arcs) :
    c'.ArcsOk := by
  refine ⟨by rw [ha, hs]; exact h.arcs, ?_⟩
  rw [releasedN, hs, ha]
  exact h.released

/-- The count reads the counter, the senders and the length of the queue. -/
theorem Counts.of_eq {c c' : Chan w α τ κ} {rest rest' : Nat} (h : c.Counts rest) (hc : c'.counter = c.counter)
    (hs : c'.senders = c.senders) (ha : c'.arcs = c.arcs)
    (hq : c'.queue.length + rest' = c.queue.length + rest) : c'.Counts rest' := by
  have e1 : c'.endedN = c.endedN := by rw [endedN, endedN, releasedN, releasedN, hs, ha]
  have e2 : c'.sentN = c.sentN := by rw [sentN, sentN, hs]
  unfold Counts at *
  rw [hc, e1, e2]
  convert h using 1
  omega

/-- Taking a message off the queue leaves it to be subtracted. -/
theorem Counts.popQueue {c : Chan w α τ κ} {t : α} {rest : Nat} (h : c.Counts rest) (hq : c.queue = t :: c.queue.tail) :
    c.popQueue.Counts (rest + 1) := by
  refine h.of_eq rfl rfl rfl ?_
  have := congrArg List.length hq
  rw [List.length_cons] at this
  simp only [Chan.popQueue]
  omega

theorem Counts.fetchSub {c : Chan w α τ κ} {rest : Nat} (h : c.Counts (rest + 1)) : c.fetchSub.Counts rest := by
  unfold Counts at *
  exact h.sub

end Chan

namespace SenderMove
open Chan
variable {w : Nat} {α τ κ : Type}

theorem arcsOk {c c' : Chan w α τ κ} {i : Nat} {n : Notify τ κ} (h : SenderMove c i c' n)
    (hc : c.ArcsOk) : c'.ArcsOk := by
  cases h with
  | stay => exact hc
  | quiet pc pc' hi hq =>
    obtain ⟨-, hq2, hq3, -⟩ := hq
    exact hc.set hi rfl (by rw [hq2]; rfl) (Nat.le_refl _) (fun h' => .inl (hq3 ▸ h'))
  | clone hi =>
    have hpos := arcs_pos hc hi rfl
    have hr := hc.released
    refine ⟨by simp [hc.arcs, List.countP_append], ?_⟩
    simp only [releasedN, List.countP_append, List.countP_singleton, SenderPc.isReleased] at hr ⊢
    simp only [Bool.false_eq_true, if_false]
    omega
  | stdSend t b hi => exact hc.set hi rfl rfl (Nat.le_refl _) (fun h' => by cases h')
  | fetchAdd hi => exact hc.set hi rfl rfl (Nat.le_refl _) (fun h' => by cases h')
  | notify pc pc' hi _ hto =>
    rcases hto with ⟨rfl, rfl⟩ | ⟨rfl, rfl⟩ <;>
      exact hc.set hi rfl rfl (Nat.le_refl _) (fun h' => by cases h')
  | drop hi =>
    have hpos := arcs_pos hc hi rfl
    by_cases h1 : c.arcs = 1
    · rw [if_pos h1]
      exact hc.set hi rfl (by simp [setPc, h1]) (by simp [setPc]) (fun _ => .inr ⟨hpos, by simp [setPc, h1]⟩)
    · rw [if_neg h1]
      refine hc.set hi rfl ?_ (by simp [setPc]) (fun h' => by cases h')
      show c.arcs - 1 + 1 = c.arcs + 0
      omega
  | dropFetchAdd hi => exact hc.set hi rfl rfl (Nat.le_refl _) (fun h' => by cases h')

/-- A step of a sender keeps the count: a send owes its message to the counter until its `fetch_add`. -/
theorem counts {c c' : Chan w α τ κ} {i : Nat} {n : Notify τ κ} {rest : Nat} (h : SenderMove c i c' n)
    (hc : c.ArcsOk) (hb : c.Counts rest) : c'.Counts rest := by
  have hpos : ∀ {pc : SenderPc w α}, c.senders[i]? = some pc → pc.holdsArc = true → c.endedN = 0 :=
    fun hi hpc => endedN_of_arcs (arcs_pos hc hi hpc)
  cases h with
  | stay => exact hb
  | quiet pc pc' hi hq =>
    have e1 := countP_set_add SenderPc.isSent pc' hi
    have e3 := countP_set_add SenderPc.isReleased pc' hi
    rw [hq.1] at e1
    rw [hq.2.2.1] at e3
    simpa [Counts, sentN, endedN, releasedN, setPc, Nat.add_right_cancel e1, Nat.add_right_cancel e3] using hb
  | clone hi =>
    have h0 := hpos hi rfl
    have h1 : Chan.endedN { c with senders := c.senders ++ [.idle], arcs := c.arcs + 1 } = 0 :=
      endedN_of_arcs (Nat.succ_pos _)
    unfold Counts at hb ⊢
    rw [h0] at hb
    rw [h1]
    simpa [sentN, List.countP_append] using hb
  | stdSend t b hi =>
    have e1 := countP_set_add SenderPc.isSent .sent hi
    simp only [SenderPc.isSent, Bool.toNat_true, Bool.toNat_false, Nat.add_zero] at e1
    have h0 := hpos hi rfl
    have h2 : Chan.endedN ({ c with queue := c.queue ++ [t] }.setPc i .sent) = 0 :=
      endedN_of_arcs (show 0 < c.arcs from arcs_pos hc hi rfl)
    unfold Counts at *
    rw [h0] at hb
    rw [h2]
    have h := hb.owe
    simp only [sentN, setPc, List.length_append, List.length_singleton, e1] at *
    convert h using 1
    omega
  | fetchAdd hi =>
    have e1 := countP_set_add SenderPc.isSent (.added c.counter) hi
    have e3 := countP_set_add SenderPc.isReleased (.added c.counter) hi
    simp only [SenderPc.isSent, SenderPc.isReleased, Bool.toNat_true, Bool.toNat_false, Nat.add_zero] at e1 e3
    unfold Counts at *
    rw [sentN, ← e1] at hb
    simpa [sentN, endedN, releasedN, setPc, Chan.fetchAdd, e3] using hb.pay
  | notify pc pc' hi _ hto =>
    have e1 := countP_set_add SenderPc.isSent pc' hi
    have e3 := countP_set_add SenderPc.isReleased pc' hi
    rcases hto with ⟨rfl, rfl⟩ | ⟨rfl, rfl⟩ <;>
      simp only [SenderPc.isSent, SenderPc.isReleased, Bool.toNat_false, Nat.add_zero] at e1 e3 <;>
      simpa [Counts, sentN, endedN, releasedN, setPc, e1, e3] using hb
  | drop hi =>
    have h0 := hpos hi rfl
    have hrel := hc.released
    have harcs := arcs_pos hc hi rfl
    by_cases h1 : c.arcs = 1
    · rw [if_pos h1]
      have e1 := countP_set_add SenderPc.isSent .released hi
      have e3 := countP_set_add SenderPc.isReleased .released hi
      simp only [SenderPc.isSent, SenderPc.isReleased, Bool.toNat_true, Bool.toNat_false, Nat.add_zero] at e1 e3
      have h2 : Chan.endedN ({ c with arcs := c.arcs - 1 }.setPc i .released) = 0 :=
        endedN_of_released (by simp only [releasedN, setPc]; omega)
      unfold Counts at *
      rw [h0] at hb
      rw [h2]
      simpa [sentN, setPc, e1] using hb
    · rw [if_neg h1]
      have e1 := countP_set_add SenderPc.isSent .closing hi
      simp only [SenderPc.isSent, Bool.toNat_false, Nat.add_zero] at e1
      have h2 : Chan.endedN ({ c with arcs := c.arcs - 1 }.setPc i .closing) = 0 :=
        endedN_of_arcs (by simp only [setPc]; omega)
      unfold Counts at *
      rw [h0] at hb
      rw [h2]
      simpa [sentN, setPc, e1] using hb
  | dropFetchAdd hi =>
    have hrelpos : 0 < c.releasedN := Lib.countP_pos_of_getElem? hi rfl
    have hrel := hc.released
    have h0 := endedN_of_released hrelpos
    have e1 := countP_set_add SenderPc.isSent (.dropAdded c.counter) hi
    have e3 := countP_set_add SenderPc.isReleased (.dropAdded c.counter) hi
    simp only [SenderPc.isSent, SenderPc.isReleased, Bool.toNat_true, Bool.toNat_false, Nat.add_zero] at e1 e3
    have h2 : Chan.endedN (c.fetchAdd.setPc i (.dropAdded c.counter)) = 1 := by
      refine if_pos ⟨hrel.2 (by omega), ?_⟩
      simp only [releasedN, setPc, Chan.fetchAdd] at *
      omega
    unfold Counts at *
    rw [h0] at hb
    rw [h2]
    have h := hb.add
    simp only [sentN, setPc, Chan.fetchAdd, e1, Nat.add_zero] at *
    convert h using 1
    omega

theorem receiver {c c' : Chan w α τ κ} {i : Nat} {n : Notify τ κ} (h : SenderMove c i c' n) :
    c'.receiver = c.receiver := by
  cases h <;> rfl

theorem bound {c c' : Chan w α τ κ} {i : Nat} {n : Notify τ κ} (h : SenderMove c i c' n) :
    c'.bound = c.bound := by
  cases h <;> rfl

theorem queue_length {c c' : Chan w α τ κ} {i : Nat} {n : Notify τ κ} (h : SenderMove c i c' n)
    (hq : c.queue.length + 1 < 2 ^ w) : c'.queue.length + 1 < 2 ^ w := by
  cases h with
  | stdSend t b hi hr hroom hmem =>
    have := of_decide_eq_true hmem
    simp only [setPc, List.length_append, List.length_singleton]
    omega
  | _ => exact hq

end SenderMove

namespace Chan
variable {w : Nat} {α τ κ : Type}

/-- A value handed over by a blocked sender is counted later, as one taken from the queue is. -/
theorem handOver_counts {c : Chan w α τ κ} {i : Nat} {t : α} {b : Bool} {rest : Nat} (hc : c.ArcsOk)
    (hb : c.Counts rest) (hi : c.senders[i]? = some (.sending t b)) :
    (c.setPc i .sent).Counts (rest + 1) ∧ (c.setPc i .sent).ArcsOk := by
  have e1 := countP_set_add SenderPc.isSent .sent hi
  have e3 := countP_set_add SenderPc.isReleased .sent hi
  simp only [SenderPc.isSent, SenderPc.isReleased, Bool.toNat_true, Bool.toNat_false, Nat.add_zero] at e1 e3
  refine ⟨?_, hc.set hi rfl rfl (Nat.le_refl _) (fun h' => by cases h')⟩
  have h0 : (c.setPc i .sent).endedN = c.endedN := by
    rw [endedN, endedN, show (c.setPc i .sent).releasedN = c.releasedN from e3]
    rfl
  unfold Counts
  rw [h0, sentN]
  simp only [setPc, e1]
  exact hb.owe

theorem tryRecv_ok {c : Chan w α τ κ} {t : α} (h : c.tryRecv = .ok t) : c.queue = t :: c.queue.tail := by
  unfold tryRecv at h
  split at h
  · rename_i hq
    rw [hq]
    cases h
    rfl
  · split at h <;> cases h

theorem tryRecv_empty {c : Chan w α τ κ} (h : c.tryRecv = .empty) : c.queue = [] ∧ c.disconnected = false := by
  unfold tryRecv at h
  split at h
  · cases h
  · rename_i hq
    split at h
    · cases h
    · rename_i hd
      exact ⟨hq, by simpa using hd⟩

end Chan

namespace ChanRun
variable {w : Nat} {α : Type}

/-- Messages the receiver took and has not subtracted. -/
def tookN (s : ChanRun w α) : Nat := if s.recv = .took then 1 else 0

/-- **The accounting invariant.** -/
structure Count (s : ChanRun w α) : Prop where
  arcsOk : s.chan.ArcsOk
  memory : s.chan.queue.length + 1 < 2 ^ w
  alive : s.recv ≠ .gone → s.chan.receiver = true
  counts : s.recv ≠ .gone → s.chan.Counts (s.tookN + s.outside)

theorem count_start (hw : 0 < w) (bound : Option Nat) : Count (ChanRun.start bound : ChanRun w α) where
  arcsOk := ⟨rfl, by simp [Chan.releasedN, ChanRun.start, Chan.new]⟩
  memory := Nat.one_lt_two_pow (by omega)
  alive _ := rfl
  counts _ := Lib.Balanced.start

theorem post_chan (s : ChanRun w α) (c : Chan w α Stamped Nat) (n : Notify Stamped Nat) : (s.post c n).chan = c := by
  cases n <;> rfl

theorem post_recv (s : ChanRun w α) (c : Chan w α Stamped Nat) (n : Notify Stamped Nat) :
    (s.post c n).recv = s.recv ∧ (s.post c n).outside = s.outside ∧ (s.post c n).stamp = s.stamp ∧
      (s.post c n).overtaken = s.overtaken := by
  cases n <;> exact ⟨rfl, rfl, rfl, rfl⟩

/-- Of the registration, the counter sees nothing. -/
theorem counts_register (c : Chan w α Stamped Nat) (t : Stamped) (l rest : Nat) :
    ((c.register t l).1.Counts rest ↔ c.Counts rest) ∧ ((c.register t l).1.ArcsOk ↔ c.ArcsOk) ∧
      (c.register t l).1.queue = c.queue ∧ (c.register t l).1.receiver = c.receiver := by
  unfold Chan.register
  split <;> exact ⟨Iff.rfl, ⟨fun h => ⟨h.1, h.2⟩, fun h => ⟨h.1, h.2⟩⟩, rfl, rfl⟩

/-- The receiver goes on; the channel is as it was, and what was taken and not subtracted. -/
theorem Count.goes {s s' : ChanRun w α} (h : Count s) (hchan : s'.chan = s.chan)
    (hn : s'.tookN + s'.outside = s.tookN + s.outside) (hg : s'.recv ≠ .gone → s.recv ≠ .gone) : Count s' := by
  obtain ⟨ha, hm, hal, hc⟩ := h
  rw [← hchan] at ha hm hal hc
  rw [← hn] at hc
  exact ⟨ha, hm, fun h' => hal (hg h'), fun h' => hc (hg h')⟩

theorem count_step {s s' : ChanRun w α} {a : ChanAct α} (h : Count s) (hst : s.step a = some s') : Count s' := by
  have ⟨ha, hm, hal, hc⟩ := h
  cases a with
  | sender i a =>
    simp only [step] at hst
    split at hst
    · rename_i c n hs
      cases hst
      have hmv := senderStep_move hs
      obtain ⟨e1, e2, -⟩ := post_recv s c n
      refine ⟨?_, ?_, ?_, ?_⟩
      · rw [post_chan]; exact hmv.arcsOk ha
      · rw [post_chan]; exact hmv.queue_length hm
      · rw [post_chan, e1, hmv.receiver]; exact hal
      · rw [post_chan, tookN, e1, e2]; exact fun hg => hmv.counts ha (hc hg)
    · cases hst
  | tryRecv =>
    simp only [step] at hst
    split at hst
    · rename_i o t hr hq
      cases hst
      have h := (hc (by simp [hr])).popQueue (Chan.tryRecv_ok hq)
      refine ⟨ha.of_eq rfl rfl, ?_, fun _ => hal (by simp [hr]), fun _ => ?_⟩
      · simp only [Chan.popQueue, List.length_tail]; omega
      · simpa [tookN, hr, Nat.add_comm] using h
    · rename_i o hr hq
      cases hst
      exact h.goes rfl (by simp [tookN, hr]) (by simp [hr])
    · cases hst
  | tryRecvFrom i =>
    simp only [step] at hst
    split at hst
    · rename_i o c hr hh
      cases hst
      obtain ⟨-, ⟨t, hi⟩, rfl⟩ := Chan.handOver_some hh
      obtain ⟨h1, h2⟩ := Chan.handOver_counts ha (hc (by simp [hr])) hi
      refine ⟨h2, hm, fun _ => hal (by simp [hr]), fun _ => ?_⟩
      simpa [tookN, hr, Nat.add_comm] using h1
    · cases hst
  | fetchSub =>
    simp only [step] at hst
    split at hst
    · rename_i hr
      cases hst
      have h : s.chan.Counts (s.outside + 1) := by simpa [tookN, hr, Nat.add_comm] using hc (by simp [hr])
      exact ⟨ha.of_eq rfl rfl, hm, fun _ => hal (by simp [hr]), fun _ => by simpa [tookN] using h.fetchSub⟩
    · cases hst
  | block =>
    simp only [step] at hst
    split at hst
    · rename_i o hr
      cases hst
      exact h.goes rfl (by simp [tookN, hr]) (by simp [hr])
    · cases hst
  | register t l =>
    simp only [step] at hst
    split at hst
    · rename_i hr
      cases hst
      obtain ⟨e1, e2, e3, e4⟩ := counts_register s.chan ⟨t, s.stamp + 1⟩ l s.outside
      have hn : (if (s.chan.register ⟨t, s.stamp + 1⟩ l).2 then RecvPc.leaving Wake.selfWake else .parked) ≠ .took := by
        split <;> simp
      refine ⟨e2.2 ha, by rw [e3]; exact hm, fun _ => by rw [e4]; exact hal (by simp [hr]), fun _ => ?_⟩
      simp only [tookN, if_neg hn, Nat.zero_add]
      exact e1.2 (by simpa [tookN, hr] using hc (by simp [hr]))
    · cases hst
  | otherWake =>
    simp only [step] at hst
    split at hst
    · rename_i hr
      cases hst
      exact h.goes rfl (by simp [tookN, hr]) (by simp [hr])
    · cases hst
  | deregister =>
    simp only [step] at hst
    split at hst
    · rename_i o hr
      cases hst
      have h : s.chan.Counts s.outside := by simpa [tookN, hr] using hc (by simp [hr])
      have h' : s.chan.deregister.Counts s.outside := h.of_eq rfl rfl rfl rfl
      exact ⟨ha.of_eq rfl rfl, hm, fun _ => hal (by simp [hr]), fun _ => by simpa [tookN] using h'⟩
    · cases hst
  | deliver k =>
    simp only [step] at hst
    split at hst
    · rename_i l m hk
      cases hst
      split
      · rename_i hp
        exact h.goes rfl (by simp [tookN, hp.1]) (by simp [hp.1])
      · exact ⟨ha, hm, hal, hc⟩
    · cases hst
  | recv =>
    simp only [step] at hst
    split at hst
    · rename_i o hr
      cases hst
      exact h.goes rfl (by simp [tookN, hr]) (by simp [hr])
    · cases hst
  | recvReturn =>
    simp only [step] at hst
    split at hst
    · rename_i t hr hq
      cases hst
      have h := (hc (by simp [hr])).popQueue (Chan.tryRecv_ok hq)
      refine ⟨ha.of_eq rfl rfl, ?_, fun _ => hal (by simp [hr]), fun _ => ?_⟩
      · simp only [Chan.popQueue, List.length_tail]; omega
      · simpa [tookN, hr] using h
    · rename_i hr hq
      cases hst
      exact h.goes rfl (by simp [tookN, hr]) (by simp [hr])
    · cases hst
  | recvReturnFrom i =>
    simp only [step] at hst
    split at hst
    · rename_i c hr hh
      cases hst
      obtain ⟨-, ⟨t, b, hi⟩, rfl⟩ := Chan.handOverWaiting_some hh
      obtain ⟨h1, h2⟩ := Chan.handOver_counts ha (hc (by simp [hr])) hi
      refine ⟨h2, hm, fun _ => hal (by simp [hr]), fun _ => ?_⟩
      simpa [tookN, hr] using h1
    · cases hst
  | dropReceiver =>
    simp only [step] at hst
    split at hst
    · cases hst
      exact ⟨ha.of_eq rfl rfl, by simp only [Chan.dropReceiver, List.length_nil]; omega,
        fun h => absurd rfl h, fun h => absurd rfl h⟩
    · cases hst

end ChanRun
end Mioco
