import Mioco.Channel
import Mioco.Lib.Tally
/-!
# What one step of a sender does

`senderStep_move` sorts the steps of a sender clone by their effect on the channel; every invariant of the channel is
proved on the sorts.
-/
namespace Mioco

variable {w : Nat} {α τ κ : Type}

/-- Where the steps that touch nothing but the clone itself lead. -/
def SenderPc.quietTo (pc pc' : SenderPc w α) : Prop :=
  pc'.isSent = pc.isSent ∧ pc'.holdsArc = pc.holdsArc ∧ pc'.isReleased = pc.isReleased ∧
    pc.notifyNext = false ∧ pc'.notifyNext = false ∧ (pc'.afterSend = true → pc.afterSend = true) ∧
    (pc'.isDropAdded = true → pc.isDropAdded = true)

/-- **The effects of one step of sender clone `i`.** -/
inductive SenderMove (c : Chan w α τ κ) (i : Nat) : Chan w α τ κ → Notify τ κ → Prop
  | stay : SenderMove c i c .nothing
  | quiet (pc pc' : SenderPc w α) : c.senders[i]? = some pc → pc.quietTo pc' → SenderMove c i (c.setPc i pc') .nothing
  | clone : c.senders[i]? = some .idle →
      SenderMove c i { c with senders := c.senders ++ [.idle], arcs := c.arcs + 1 } .nothing
  | stdSend (t : α) (b : Bool) : c.senders[i]? = some (.sending t b) → c.receiver = true → c.room = true →
      c.inMemory = true → SenderMove c i ({ c with queue := c.queue ++ [t] }.setPc i .sent) .nothing
  | fetchAdd : c.senders[i]? = some .sent → SenderMove c i (c.fetchAdd.setPc i (.added c.counter)) .nothing
  | notify (pc pc' : SenderPc w α) : c.senders[i]? = some pc → pc.notifyNext = true →
      (pc = .added 0 ∧ pc' = .idle ∨ pc = .dropAdded 0 ∧ pc' = .closing) →
      SenderMove c i (c.setPc i pc') c.maybeNotifyReceiver
  | drop : c.senders[i]? = some .idle →
      SenderMove c i ({ c with arcs := c.arcs - 1 }.setPc i (if c.arcs = 1 then .released else .closing)) .nothing
  | dropFetchAdd : c.senders[i]? = some .released →
      SenderMove c i (c.fetchAdd.setPc i (.dropAdded c.counter)) .nothing

theorem notify_move {c : Chan w α τ κ} {i : Nat} {prev : BitVec w} {pc pc' : SenderPc w α}
    (hpc : c.senders[i]? = some pc)
    (hto : pc = .added prev ∧ pc' = .idle ∨ pc = .dropAdded prev ∧ pc' = .closing) :
    SenderMove c i (c.setPc i pc') (c.notifyIfZero prev) := by
  by_cases h0 : prev = 0
  · subst h0
    rw [Chan.notifyIfZero, if_pos rfl]
    refine .notify pc pc' hpc ?_ hto
    rcases hto with ⟨rfl, -⟩ | ⟨rfl, -⟩ <;> simp
  · rw [Chan.notifyIfZero, if_neg h0]
    refine .quiet pc pc' hpc ?_
    rcases hto with ⟨rfl, rfl⟩ | ⟨rfl, rfl⟩ <;> simpa [SenderPc.quietTo] using h0

theorem senderStep_move {c c' : Chan w α τ κ} {i : Nat} {a : SenderAct α} {n : Notify τ κ}
    (h : c.senderStep i a = some (c', n)) : SenderMove c i c' n := by
  unfold Chan.senderStep at h
  split at h
  case h_1 hpc =>
    cases h
    exact .clone hpc
  case h_2 hpc =>
    cases h
    exact .quiet _ _ hpc (by simp [SenderPc.quietTo])
  case h_3 t b hpc =>
    split at h
    · cases h
      exact .quiet _ _ hpc (by simp [SenderPc.quietTo])
    · rename_i hr
      split at h
      · rename_i hroom
        cases h
        rw [Bool.and_eq_true] at hroom
        exact .stdSend t b hpc (by simpa using hr) hroom.1 hroom.2
      · cases h
  case h_4 =>
    split at h
    · cases h
      exact .stay
    · cases h
  case h_5 hpc =>
    cases h
    exact .quiet _ _ hpc (by simp [SenderPc.quietTo])
  case h_6 hpc =>
    cases h
    exact .fetchAdd hpc
  case h_7 hpc =>
    cases h
    exact notify_move hpc (.inl ⟨rfl, rfl⟩)
  case h_8 hpc =>
    cases h
    exact .drop hpc
  case h_9 hpc =>
    cases h
    exact .dropFetchAdd hpc
  case h_10 hpc =>
    cases h
    exact notify_move hpc (.inr ⟨rfl, rfl⟩)
  case h_11 hpc =>
    cases h
    exact .quiet _ _ hpc (by simp [SenderPc.quietTo])
  case h_12 => cases h

/-- **A sender leaves token and event loop alone**, and sends its message, if any, to these. -/
theorem SenderMove.shared {c c' : Chan w α τ κ} {i : Nat} {n : Notify τ κ} (h : SenderMove c i c' n) :
    c'.token = c.token ∧ c'.sender = c.sender ∧ (n = .nothing ∨ n = c.maybeNotifyReceiver) := by
  cases h with
  | notify => exact ⟨rfl, rfl, .inr rfl⟩
  | _ => exact ⟨rfl, rfl, .inl rfl⟩

theorem maybeNotifyReceiver_channelMsg {c : Chan w α τ κ} {k : κ} {r : τ} (h : c.maybeNotifyReceiver = .channelMsg k r) :
    c.token = some r ∧ c.sender = some k := by
  unfold Chan.maybeNotifyReceiver at h
  split at h <;> cases h
  exact ⟨‹_›, ‹_›⟩

theorem maybeNotifyReceiver_unwrapNone {c : Chan w α τ κ} (h : c.maybeNotifyReceiver = .unwrapNone) :
    c.token.isSome = true ∧ c.sender = none := by
  unfold Chan.maybeNotifyReceiver at h
  split at h <;> cases h
  refine ⟨?_, ‹_›⟩
  rw [‹c.token = _›]
  rfl

theorem Chan.handOver_some {c c' : Chan w α τ κ} {i : Nat} (h : c.handOver i = some c') :
    c.bound = some 0 ∧ (∃ t, c.senders[i]? = some (.sending t false)) ∧ c' = c.setPc i .sent := by
  unfold handOver at h
  split at h
  · rename_i hb hi
    cases h
    exact ⟨hb, ⟨_, hi⟩, rfl⟩
  · cases h

theorem Chan.handOverWaiting_some {c c' : Chan w α τ κ} {i : Nat} (h : c.handOverWaiting i = some c') :
    c.bound = some 0 ∧ (∃ t b, c.senders[i]? = some (.sending t b)) ∧ c' = c.setPc i .sent := by
  unfold handOverWaiting at h
  split at h
  · rename_i hb hi
    cases h
    exact ⟨hb, ⟨_, _, hi⟩, rfl⟩
  · cases h

end Mioco
