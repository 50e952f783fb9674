import Mioco.ChannelWake
/-!
# The counter between operations (src/sync/mpsc.rs)

`try_recv` subtracts what it takes; `recv` outside any coroutine goes to std and does not.  With no operation in
progress the counter is the length of the queue, plus one once every sender is dropped, plus those messages
(`quiescent_counter`).
-/
namespace Mioco

open Lib (System)
open Lib.System (Reach anyStep)

namespace ChanRun
variable {w : Nat} {α : Type}

/-- No operation is in progress. -/
structure Quiescent (s : ChanRun w α) : Prop where
  senders : ∀ pc ∈ s.chan.senders, pc = .idle ∨ pc = .dropped
  recv : ∃ woken, s.recv = .running woken

/-- Messages queued, and one for the senders' end. -/
def expected (s : ChanRun w α) : Nat := s.chan.queue.length + if s.chan.disconnected = true then 1 else 0

/-- One turn of the loop of `Receiver::recv` in a coroutine ends with the coroutine parked. -/
def RecvParks (s : ChanRun w α) (bound : Option Nat) : Prop :=
  ∀ token l, ∃ s', (chanSystem w α bound).exec [.tryRecv, .block, .register token l] s = some s' ∧ s'.recv = .parked

/-- The counter is exact, and `recv` on an empty channel with a live sender parks. -/
def Accounted (s : ChanRun w α) (bound : Option Nat) : Prop :=
  s.chan.counter = BitVec.ofNat w s.expected ∧
    (s.chan.queue = [] → s.chan.disconnected = false → s.RecvParks bound)

theorem Quiescent.countP_eq_zero {s : ChanRun w α} (hq : s.Quiescent) {p : SenderPc w α → Bool}
    (hi : p .idle = false) (hd : p .dropped = false) : s.chan.senders.countP p = 0 := by
  refine List.countP_eq_zero.2 (fun pc hpc => ?_)
  rcases hq.senders pc hpc with rfl | rfl
  · simp [hi]
  · simp [hd]

/-- Between operations an `Arc` is held exactly while some clone is not dropped. -/
theorem Quiescent.disconnected_iff {s : ChanRun w α} (hq : s.Quiescent) (ha : s.chan.ArcsOk) :
    s.chan.disconnected = true ↔ s.chan.arcs = 0 := by
  rw [ha.arcs, List.countP_eq_zero, Chan.disconnected, List.all_eq_true]
  refine forall₂_congr (fun pc hpc => ?_)
  rcases hq.senders pc hpc with rfl | rfl <;> simp

theorem Quiescent.counter_eq {s : ChanRun w α} (hq : s.Quiescent) (hc : Count s) :
    s.chan.counter = BitVec.ofNat w (s.expected + s.outside) := by
  obtain ⟨o, hr⟩ := hq.recv
  have hb := hc.counts (by simp [hr])
  have hs : s.chan.sentN = 0 := hq.countP_eq_zero rfl rfl
  have hrel : s.chan.releasedN = 0 := hq.countP_eq_zero rfl rfl
  have he : s.chan.endedN = if s.chan.disconnected = true then 1 else 0 := by
    simp only [Chan.endedN, hrel, and_true, hq.disconnected_iff hc.arcsOk]
  have ht : s.tookN = 0 := if_neg (by simp [hr])
  rw [Chan.Counts, hs, he, ht, Nat.zero_add] at hb
  exact hb.eq_ofNat

theorem recvParks_of_counter {s : ChanRun w α} {bound : Option Nat} (hr : ∃ woken, s.recv = .running woken)
    (hq : s.chan.queue = []) (hd : s.chan.disconnected = false) (h0 : s.chan.counter = 0) : s.RecvParks bound := by
  intro token l
  obtain ⟨o, hr⟩ := hr
  simp [System.exec, chanSystem, step, hr, Chan.tryRecv, hq, hd, Chan.register, h0]

theorem ofNat_add_eq_iff {a b : Nat} : BitVec.ofNat w (a + b) = BitVec.ofNat w a ↔ b % 2 ^ w = 0 := by
  rw [BitVec.ofNat_add, add_eq_left, ← BitVec.toNat_inj, BitVec.toNat_ofNat]
  simp

/-- **The counter between operations** is exact exactly when the messages taken outside any coroutine are a multiple
of `2 ^ w`; so it is when there are none. -/
theorem quiescent_counter (hw : 0 < w) (bound : Option Nat) :
    (∀ s : ChanRun w α, Reach (chanSystem w α bound) anyStep s → s.Quiescent →
      (s.Accounted bound ↔ s.outside % 2 ^ w = 0)) ∧
    (∀ s : ChanRun w α, Reach (chanSystem w α bound) insideOnly s → s.Quiescent → s.Accounted bound) := by
  have hiff : ∀ s : ChanRun w α, Reach (chanSystem w α bound) anyStep s → s.Quiescent →
      (s.Accounted bound ↔ s.outside % 2 ^ w = 0) := by
    intro s h hq
    have hc := hq.counter_eq (reach_count hw h)
    rw [Accounted, hc, ofNat_add_eq_iff]
    refine ⟨And.left, fun hm => ⟨hm, fun hnil hd => recvParks_of_counter hq.recv hnil hd ?_⟩⟩
    rw [hc, ofNat_add_eq_iff.2 hm, expected, hnil, hd]
    simp
  refine ⟨hiff, fun s h hq => ?_⟩
  rw [hiff s (h.mono (fun _ _ _ => trivial)) hq, (reach_inside h).2, Nat.zero_mod]

theorem quiescent_counter_unbounded :
    (∀ s : ChanRun 64 Nat, Reach (chanSystem 64 Nat none) anyStep s → s.Quiescent →
      (s.Accounted none ↔ s.outside % 2 ^ 64 = 0)) ∧
    (∀ s : ChanRun 64 Nat, Reach (chanSystem 64 Nat none) insideOnly s → s.Quiescent → s.Accounted none) :=
  quiescent_counter (by decide) none

/-- One message sent, and received by `recv` outside any coroutine. -/
def recvOutside : List (ChanAct Nat) :=
  [.sender 0 (.send 7 false), .sender 0 .stdSend, .sender 0 .fetchAdd, .sender 0 .notify, .recv, .recvReturn]

/-- Where `recvOutside` leads: the counter is 1 over an empty queue. -/
def drifted : ChanRun 64 Nat where
  chan := { (Chan.new none : Chan 64 Nat Stamped Nat) with counter := 1 }
  recv := .running none
  inflight := []
  stamp := 0
  overtaken := false
  outside := 1

/-- After one message received outside any coroutine the counter is off for good. -/
theorem recv_outside_drifts : ¬ ∀ s : ChanRun 64 Nat, Reach (chanSystem 64 Nat none) anyStep s → s.Quiescent →
    s.Accounted none := by
  intro h
  have hr : Reach (chanSystem 64 Nat none) anyStep drifted :=
    System.reach_exec_of_forall recvOutside (ChanRun.start none) _ (.init rfl) (fun _ _ _ => trivial) (by decide)
  have hq : drifted.Quiescent := ⟨fun pc hpc => .inl (List.mem_singleton.1 hpc), none, rfl⟩
  exact absurd (h drifted hr hq).1 (by decide)

end ChanRun
end Mioco
