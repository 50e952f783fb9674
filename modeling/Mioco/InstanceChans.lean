import Mioco.Frame
import Mioco.ChannelMove
/-!
# What the steps of an instance do to its channels

Every step edits at most one channel, in one of the ways of `ChanEdit`.
-/
namespace Mioco

variable {w : Nat} {α τ κ : Type}

inductive ChanEdit (c : Chan w α τ κ) : Chan w α τ κ → Prop
  | same : ChanEdit c c
  | register (r : τ) (l : κ) : ChanEdit c (c.register r l).1
  | deregister : ChanEdit c c.deregister
  | sender {i : Nat} {c' : Chan w α τ κ} {n : Notify τ κ} : SenderMove c i c' n → ChanEdit c c'
  | receiver {c' : Chan w α τ κ} : c'.token = c.token → c'.sender = c.sender → ChanEdit c c'

/-- In a join channel the receiver's registration, the counter and the `Arc` apart. -/
structure SameExit {w : Nat} {α τ κ : Type} (ch ch' : Chan w α τ κ) : Prop where
  bound : ch'.bound = ch.bound
  queue : ch'.queue = ch.queue
  receiver : ch'.receiver = ch.receiver
  senders : ch'.senders = ch.senders

theorem SameExit.rfl' {w : Nat} {α τ κ : Type} (ch : Chan w α τ κ) : SameExit ch ch := ⟨rfl, rfl, rfl, rfl⟩

theorem SameExit.trans {w : Nat} {α τ κ : Type} {ch ch' ch'' : Chan w α τ κ} (h : SameExit ch ch')
    (h' : SameExit ch' ch'') : SameExit ch ch'' :=
  ⟨h'.bound.trans h.bound, h'.queue.trans h.queue, h'.receiver.trans h.receiver, h'.senders.trans h.senders⟩

namespace Instance
variable {S : Sched} {s s' : Instance S w α} {t c : Nat}

/-- A sender moves its channel, and sends what it notifies while the event loop is there. -/
theorem senderStep_some {n i : Nat} {a : SenderAct (ExitStatus α)} (h : s.senderStep n i a = some s') :
    ∃ chan out, (s.chans (.user n)).senderStep i a = some (chan, out) ∧ (s' = s.setChan (.user n) chan ∨
      ∃ l r, out = .channelMsg l r ∧ s' = (s.setChan (.user n) chan).send l (.channelMsg r)) := by
  unfold senderStep at h
  split at h
  · cases h
  · rename_i chan l r hst
    cases h
    refine ⟨chan, _, hst, ?_⟩
    split
    · exact .inr ⟨l, r, rfl, rfl⟩
    · exact .inl rfl
  · rename_i chan out _ hst
    cases h
    exact ⟨chan, out, hst, .inl rfl⟩

/-- What the receiving end of a join channel does. -/
inductive ExitRecv (ch : Chan w (ExitStatus α) Reg Nat) (n : Nat) : Chan w (ExitStatus α) Reg Nat → Nat → Prop
  | same {ch' : Chan w (ExitStatus α) Reg Nat} : SameExit ch ch' → ExitRecv ch n ch' n
  | took (res : ExitStatus α) : ch.tryRecv = .ok res → ExitRecv ch n ch.popQueue (n + 1)
  | handed {ch' : Chan w (ExitStatus α) Reg Nat} {n' : Nat} : ch.bound = some 0 → ExitRecv ch n ch' n'
  | dropped : ExitRecv ch n ch.dropReceiver n

/-- A receiver moves its channel, and what it takes is counted. -/
theorem receiverStep_some {ch : ChanId} {a : RecvAct} (h : s.receiverStep ch a = some s') : ∃ chan taken n,
    s' = { s with
      chans := Function.update s.chans ch chan, taken := taken, received := Function.update s.received ch n } ∧
    chan.token = (s.chans ch).token ∧ chan.sender = (s.chans ch).sender ∧
    ExitRecv (s.chans ch) (s.received ch) chan n := by
  have hsame : s.received = Function.update s.received ch (s.received ch) := (Function.update_eq_self _ _).symm
  unfold receiverStep at h
  simp only at h
  split at h
  · split at h
    · rename_i res htry
      cases h
      exact ⟨_, _, _, rfl, rfl, rfl, .took res htry⟩
    · cases h
  · split at h
    · rename_i i chan hhand
      cases h
      obtain ⟨hb, -, rfl⟩ := Chan.handOver_some hhand
      exact ⟨_, _, _, rfl, rfl, rfl, .handed hb⟩
    · cases h
  · split at h
    · cases h
      refine ⟨(s.chans ch).fetchSub, Function.update s.taken ch (s.taken ch - 1), s.received ch, ?_, rfl, rfl,
        .same ⟨rfl, rfl, rfl, rfl⟩⟩
      rw [← hsame]
      rfl
    · cases h
  · split at h
    · rename_i res htry
      cases h
      exact ⟨_, s.taken, _, rfl, rfl, rfl, .took res htry⟩
    · cases h
  · split at h
    · rename_i i chan hhand
      cases h
      obtain ⟨hb, -, rfl⟩ := Chan.handOverWaiting_some hhand
      exact ⟨_, s.taken, _, rfl, rfl, rfl, .handed hb⟩
    · cases h
  · cases h
    refine ⟨(s.chans ch).dropReceiver, s.taken, s.received ch, ?_, rfl, rfl, .dropped⟩
    rw [← hsame]
    rfl

/-- The channels of `s'` are those of `s`, one of them edited. -/
def ChansFrom (s s' : Instance S w α) : Prop := ∀ ch, ChanEdit (s.chans ch) (s'.chans ch)

namespace ChansFrom

theorem of_world (he : s'.world = s.world) : ChansFrom s s' := by
  have hc : s'.chans = s.chans := congrArg Prod.fst he
  intro ch
  rw [hc]
  exact .same

theorem setChan {ch : ChanId} {c : Chan w (ExitStatus α) Reg Nat} (hc : ChanEdit (s.chans ch) c) :
    ChansFrom s (s.setChan ch c) := by
  intro ch'
  simp only [Instance.setChan]
  by_cases hch : ch' = ch
  · subst hch
    rwa [Function.update_self]
  · rw [Function.update_of_ne hch]
    exact .same

theorem trans_world {m : Instance S w α} (h : ChansFrom s m) (he : s'.world = m.world) : ChansFrom s s' := by
  have hc : s'.chans = m.chans := congrArg Prod.fst he
  intro ch
  rw [hc]
  exact h ch

theorem register {due : Bool} {slot tick : Nat} (hst : s.register t due slot tick = some s') : ChansFrom s s' := by
  unfold Instance.register at hst
  simp only at hst
  split at hst
  · split at hst
    · cases hst
      exact trans_world (setChan (.register _ _)) (setPc_world _ _ _)
    · split at hst
      · cases hst
        exact of_world rfl
      · split at hst
        · cases hst
          exact fun _ => .same
        · cases hst
    · split at hst <;> cases hst <;> exact of_world rfl
  · cases hst

theorem deregister {cfg : Config} {next : AfterDeregister} : ChansFrom s (s.deregister cfg t c next) := by
  unfold Instance.deregister
  split
  · rename_i src rest hb
    cases src with
    | recv ch => exact setChan .deregister
    | timer k => exact of_world (clearTimeout_world (s.setCo c { s.cos c with blockedOn := rest }) t _)
    | io k =>
      simp only [Instance.deregisterSrc]
      split
      · exact of_world rfl
      · exact of_world rfl
  · exact of_world (afterDeregister_world _ _ _ _ _)

theorem exit {ret : Ret} {res : Option (ExitStatus α)} (hst : s.exit t c ret res = some s') : ChansFrom s s' := by
  unfold Instance.exit at hst
  split at hst
  · cases hst
  · cases hst
    exact of_world (leave_world _ _ _ _)
  · split at hst
    · cases hst
    · rename_i chan nt hsend
      cases hst
      refine trans_world (setChan (.sender (senderStep_move hsend))) ?_
      cases nt <;> simp only [notifyFrom] <;> first | rfl | (split <;> rfl)

theorem job {cfg : Config} {ret : Ret} {j : Job α} (hst : s.job cfg t c ret j = some s') : ChansFrom s s' := by
  cases j with
  | user => cases hst
  | shutdown i =>
    simp only [Instance.job] at hst
    split at hst <;> cases hst <;> exact of_world rfl
  | terminate i res =>
    simp only [Instance.job] at hst
    split at hst
    · split at hst <;> cases hst <;> exact of_world rfl
    · cases hst
      exact of_world rfl
  | propagate =>
    cases hst
    exact of_world rfl
  | exit res => exact exit hst

theorem user {cfg : Config} {u : UserAct α} (hst : s.user cfg t u = some s') : ChansFrom s s' := by
  unfold Instance.user at hst
  simp only at hst
  split at hst
  swap
  · cases hst
  rename_i c ret hpc
  cases u with
  | select l =>
    cases hst
    refine trans_world (m := { s with srcs := selectAdd s.srcs (s.cos c).blockedOn.length l }) (fun _ => .same) ?_
    exact (leave_world _ _ _ _).trans (setCo_world _ _ _)
  | yieldNow =>
    cases hst
    exact of_world ((leave_world _ _ _ _).trans (setCo_world _ _ _))
  | spawn id =>
    simp only at hst
    split at hst <;> cases hst
    exact fun _ => .same
  | shutdown =>
    cases hst
    exact fun _ => .same
  | finish res =>
    cases hst
    unfold Instance.finish
    simp only
    split <;> exact fun _ => .same

theorem threadStep {cfg : Config} {a : ThreadAct α} (hst : s.threadStep cfg t a = some s') : ChansFrom s s' := by
  cases a with
  | start | tick | stop =>
    simp only [Instance.threadStep] at hst
    split at hst <;> cases hst
    exact of_world rfl
  | notify id =>
    simp only [Instance.threadStep] at hst
    split at hst
    · exact of_world (notify_world _ _ hst)
    · cases hst
  | ready | timeout slot =>
    simp only [Instance.threadStep] at hst
    split at hst <;> cases hst
    exact of_world ((ready_world _ _ _ _).trans (setThread_world _ _ _))
  | sched choice =>
    simp only [Instance.threadStep, Instance.sched] at hst
    split at hst <;> cases hst
    exact trans_world (m := { s with shared := _ }) (fun _ => .same) (command_flow _ _ _ _).world
  | register due slot tick => exact register hst
  | user u => exact user hst
  | next =>
    simp only [Instance.threadStep] at hst
    split at hst
    · cases hst
      exact of_world (deliverSpawned_flow _ _).world
    · cases hst
      exact of_world (deliverReady_flow _ _ _).world
    · exact job hst
    · cases hst
      exact of_world (registered_world _ _ _ _ _)
    · cases hst
      exact deregister
    · cases hst
      exact of_world (afterResume_world _ _ _ _)
    · cases hst
      exact of_world (shutdownNext_flow _ _ ‹_›).world
    · cases hst
      exact of_world (stopNext_flow _ _ ‹_›).world
    · cases hst

theorem senderStep {k i : Nat} {a : SenderAct (ExitStatus α)} (hst : s.senderStep k i a = some s') :
    ChansFrom s s' := by
  obtain ⟨chan, out, hsend, hs⟩ := senderStep_some hst
  have h := setChan (s := s) (ChanEdit.sender (senderStep_move hsend))
  rcases hs with rfl | ⟨l, r, -, rfl⟩
  · exact h
  · exact h.trans_world (send_world _ _ _)

theorem receiverStep {ch : ChanId} {a : RecvAct} (hst : s.receiverStep ch a = some s') : ChansFrom s s' := by
  obtain ⟨chan, taken, n, rfl, htok, hsender, -⟩ := receiverStep_some hst
  exact setChan (.receiver htok hsender)

theorem step {cfg : Config} {a : Action α} (hst : s.step cfg a = some s') : ChansFrom s s' := by
  cases a with
  | thread t a =>
    obtain ⟨-, -, hst⟩ := step_thread hst
    exact threadStep hst
  | sender n i a => exact senderStep hst
  | receiver ch a => exact receiverStep hst
  | ioReady t n e =>
    obtain ⟨r, -, rfl⟩ := step_ioReady hst
    exact of_world rfl

end ChansFrom

/-- A token given to a channel comes with its event loop. -/
def Wired (s : Instance S w α) : Prop := ∀ ch, (s.chans ch).token.isSome = true → (s.chans ch).sender.isSome = true

theorem Wired.step {cfg : Config} {a : Action α} (h : Wired s) (hst : s.step cfg a = some s') : Wired s' := by
  intro ch htok
  have hch := h ch
  have hfrom := ChansFrom.step hst ch
  revert htok
  generalize s'.chans ch = c' at hfrom ⊢
  cases hfrom with
  | same => exact hch
  | register r l =>
    unfold Chan.register
    split
    · intro h
      cases h
    · exact fun _ => rfl
  | deregister =>
    intro h
    cases h
  | sender hm =>
    obtain ⟨h1, h2, -⟩ := hm.shared
    rw [h1, h2]
    exact hch
  | receiver h1 h2 =>
    rw [h1, h2]
    exact hch

end Instance
end Mioco
