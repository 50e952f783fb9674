import Mioco.ChannelCount
import Mioco.ChannelRun
/-!
# What goes into a channel and what comes out (src/sync/mpsc.rs)

`Transcript` writes down, beside a run of a channel, which messages std took from which clone, which calls of `send`
returned `Ok(())`, and what the receiving end got.  The channel is a queue: nothing is lost, doubled or reordered, and
`Disconnected` is the end.
-/
namespace Mioco

open Lib (System)
open Lib.System (Reach)

namespace Chan
variable {w : Nat} {α τ κ : Type}

/-- Clone `i` is in a call of `send` whose message std has taken. -/
def underway (c : Chan w α τ κ) (i : Nat) : Bool := (c.senders[i]?).any SenderPc.afterSend

/-- The message clone `i` has still to get into std. -/
def offer (c : Chan w α τ κ) (i : Nat) : Option α :=
  match c.senders[i]? with
  | some (.sending t _) => some t
  | _ => none

/-- **What a step of clone `i` is to the messages**: std takes one, the call returns `Ok(())`, or none of this. -/
inductive SendStage (c : Chan w α τ κ) (i : Nat) : SenderAct α → Chan w α τ κ → Prop
  | takes (t : α) : c.offer i = some t → c.underway i = false → c.receiver = true → c.room = true →
      SendStage c i .stdSend ({ c with queue := c.queue ++ [t] }.setPc i .sent)
  | returns (c' : Chan w α τ κ) : c'.queue = c.queue → c'.receiver = c.receiver → c'.bound = c.bound →
      c.underway i = true → c'.underway i = false → (∀ j, j ≠ i → c'.underway j = c.underway j) →
      SendStage c i .notify c'
  | other (a : SenderAct α) (c' : Chan w α τ κ) : a ≠ .notify → (a = .stdSend → c.receiver = false) →
      c'.queue = c.queue → c'.receiver = c.receiver → c'.bound = c.bound → (∀ j, c'.underway j = c.underway j) →
      SendStage c i a c'

theorem underway_of_get {c : Chan w α τ κ} {i : Nat} {pc : SenderPc w α} (h : c.senders[i]? = some pc) :
    c.underway i = pc.afterSend := by
  rw [underway, h, Option.any_some]

theorem underway_setPc {c : Chan w α τ κ} {i : Nat} {pc pc' : SenderPc w α} (h : c.senders[i]? = some pc) :
    (c.setPc i pc').underway i = pc'.afterSend := by
  have hlt : i < c.senders.length := List.getElem?_eq_some_iff.1 h |>.1
  apply underway_of_get
  rw [setPc, List.getElem?_set_self hlt]

theorem underway_setPc_ne {c : Chan w α τ κ} {i j : Nat} {pc : SenderPc w α} (h : j ≠ i) :
    (c.setPc i pc).underway j = c.underway j := by
  rw [underway, setPc, List.getElem?_set_ne (Ne.symm h), underway]

theorem SendStage.still {c c' : Chan w α τ κ} {i : Nat} {a : SenderAct α} {pc pc' : SenderPc w α}
    (hpc : c.senders[i]? = some pc) (hc : c'.senders = c.senders.set i pc') (hsame : pc'.afterSend = pc.afterSend)
    (ha : a ≠ .notify) (hr : a = .stdSend → c.receiver = false) (hq : c'.queue = c.queue)
    (hrec : c'.receiver = c.receiver) (hb : c'.bound = c.bound) : SendStage c i a c' := by
  refine .other a c' ha hr hq hrec hb (fun j => ?_)
  have hj : c'.underway j = (c.setPc i pc').underway j := by
    rw [underway, hc]
    constructor
  rw [hj]
  by_cases hji : j = i
  · rw [hji, underway_setPc hpc, underway_of_get hpc, hsame]
  · exact underway_setPc_ne hji

theorem senderStep_stage {c c' : Chan w α τ κ} {i : Nat} {a : SenderAct α} {n : Notify τ κ}
    (h : c.senderStep i a = some (c', n)) : SendStage c i a c' := by
  unfold Chan.senderStep at h
  split at h
  case h_1 hpc =>
    cases h
    refine .other _ _ (by simp) (fun ha => by cases ha) rfl rfl rfl (fun j => ?_)
    have hlt : i < c.senders.length := List.getElem?_eq_some_iff.1 hpc |>.1
    unfold underway
    by_cases hj : j < c.senders.length
    · rw [List.getElem?_append_left hj]
    · rw [List.getElem?_append_right (by omega), List.getElem?_eq_none (l := c.senders) (by omega)]
      cases j - c.senders.length with
      | zero => rfl
      | succ k => rfl
  case h_2 hpc =>
    cases h
    exact .still hpc rfl rfl (by simp) (fun ha => by cases ha) rfl rfl rfl
  case h_3 t b hpc =>
    split at h
    · rename_i hr
      cases h
      exact .still hpc rfl rfl (by simp) (fun _ => by simpa using hr) rfl rfl rfl
    · rename_i hr
      split at h
      · rename_i hroom
        cases h
        rw [Bool.and_eq_true] at hroom
        refine .takes t ?_ (underway_of_get hpc) (by simpa using hr) hroom.1
        rw [offer, hpc]
      · cases h
  case h_4 hpc =>
    split at h
    · cases h
      exact .other _ _ (by simp) (fun ha => by cases ha) rfl rfl rfl (fun _ => rfl)
    · cases h
  case h_7 prev hpc =>
    cases h
    exact .returns _ rfl rfl rfl (underway_of_get hpc) (underway_setPc hpc) (fun j hj => underway_setPc_ne hj)
  case h_8 hpc =>
    cases h
    refine .still hpc rfl ?_ (by simp) (fun ha => by cases ha) rfl rfl rfl
    split <;> rfl
  case h_12 => cases h
  all_goals
    rename_i hpc
    cases h
    exact .still hpc rfl rfl (by simp) (fun ha => by cases ha) rfl rfl rfl

/-- Once every std sender is dropped, no clone takes a step. -/
theorem senderStep_disconnected {c : Chan w α τ κ} {i : Nat} {a : SenderAct α} (h : c.disconnected = true) :
    c.senderStep i a = none := by
  cases hpc : c.senders[i]? with
  | none => cases a <;> simp [senderStep, hpc]
  | some pc =>
    have hdrop := List.all_eq_true.1 h pc (List.mem_of_getElem? hpc)
    cases pc <;> cases hdrop
    cases a <;> simp [senderStep, hpc]

theorem offer_disconnected {c : Chan w α τ κ} {i : Nat} (h : c.disconnected = true) : c.offer i = none := by
  unfold offer
  split
  · rename_i t b hpc
    have hdrop := List.all_eq_true.1 h _ (List.mem_of_getElem? hpc)
    cases hdrop
  · rfl

end Chan

/-- A run of a channel, and what went in and came out. -/
structure Transcript (w : Nat) (α : Type) where
  run : ChanRun w α
  /-- what std took, from which clone, in this order -/
  taken : List (Nat × α)
  /-- the last message std took from clone `i` -/
  last : Nat → Option α
  /-- the messages of the calls of clone `i` that returned `Ok(())` -/
  acked : Nat → List α
  /-- what `recv` and `try_recv` returned -/
  received : List α
  /-- `recv` or `try_recv` returned `Disconnected` -/
  hungUp : Bool

namespace Transcript
variable {w : Nat} {α : Type} {s s' : Transcript w α} {bound : Option Nat}

def start (bound : Option Nat) : Transcript w α where
  run := ChanRun.start bound
  taken := []
  last _ := none
  acked _ := []
  received := []
  hungUp := false

/-- std takes the message clone `i` offers. -/
def take (s : Transcript w α) (i : Nat) : Transcript w α :=
  match s.run.chan.offer i with
  | some t => { s with taken := s.taken ++ [(i, t)], last := Function.update s.last i (some t) }
  | none => s

/-- The receiving end gets what std has. -/
def get (s : Transcript w α) : Transcript w α :=
  match s.run.chan.tryRecv with
  | .ok t => { s with received := s.received ++ [t] }
  | .empty => s
  | .disconnected => { s with hungUp := true }

/-- The receiving end gets what clone `i` offers (bound 0). -/
def getFrom (s : Transcript w α) (i : Nat) : Transcript w α :=
  { s.take i with received := s.received ++ (s.run.chan.offer i).toList }

/-- What a step writes down. -/
def note (s : Transcript w α) : ChanAct α → Transcript w α
  | .sender i .stdSend => if s.run.chan.receiver then s.take i else s
  | .sender i .notify =>
    if s.run.chan.underway i then
      { s with acked := Function.update s.acked i (s.acked i ++ (s.last i).toList) }
    else s
  | .tryRecv | .recvReturn => s.get
  | .tryRecvFrom i | .recvReturnFrom i => s.getFrom i
  | _ => s

def step (s : Transcript w α) (a : ChanAct α) : Option (Transcript w α) :=
  (s.run.step a).map fun run => { s.note a with run := run }

end Transcript

/-- The runs of one channel, written down. -/
def transcribed (w : Nat) (α : Type) (bound : Option Nat) : System (Transcript w α) (ChanAct α) where
  Init s := s = Transcript.start bound
  step := Transcript.step

namespace Transcript
variable {w : Nat} {α : Type} {s s' : Transcript w α} {bound : Option Nat} {run : ChanRun w α} {i : Nat}

/-- What std took from clone `i`. -/
def takenFrom (s : Transcript w α) (i : Nat) : List α := (s.taken.filter (fun m => m.1 == i)).map Prod.snd

/-- The message std has taken from clone `i`, whose call of `send` has not returned. -/
def pending (s : Transcript w α) (i : Nat) : List α := if s.run.chan.underway i then (s.last i).toList else []

/-- **The channel is a queue.** -/
structure InOrder (s : Transcript w α) : Prop where
  /-- what was taken and not received is in the queue, as long as somebody can receive it -/
  queue : s.run.chan.receiver = true → s.taken.map Prod.snd = s.received ++ s.run.chan.queue
  received : s.received <+: s.taken.map Prod.snd
  /-- `Ok(())` is returned for what was taken, and for nothing else, in the order of the clone's calls -/
  own : ∀ i, s.takenFrom i = s.acked i ++ s.pending i
  bound : ∀ b, s.run.chan.bound = some b → s.run.chan.queue.length ≤ b
  /-- `Disconnected` is returned when everything was received and nothing can come -/
  hungUp : s.hungUp = true → s.run.chan.disconnected = true ∧ s.received = s.taken.map Prod.snd
  alive : s.run.recv ≠ .gone → s.run.chan.receiver = true

/-- A step that neither takes nor receives a message. -/
theorem InOrder.keep (h : InOrder s) (hq : run.chan.queue = s.run.chan.queue)
    (hr : run.chan.receiver = s.run.chan.receiver) (hb : run.chan.bound = s.run.chan.bound)
    (hu : ∀ j, run.chan.underway j = s.run.chan.underway j)
    (hd : s.run.chan.disconnected = true → run.chan.disconnected = true)
    (ha : run.recv ≠ .gone → s.run.recv ≠ .gone) : InOrder { s with run := run } where
  queue hrec := by
    rw [hr] at hrec
    rw [hq]
    exact h.queue hrec
  received := h.received
  own j := by
    unfold pending
    rw [hu j]
    exact h.own j
  bound b hbound := by
    rw [hb] at hbound
    rw [hq]
    exact h.bound b hbound
  hungUp hup := ⟨hd (h.hungUp hup).1, (h.hungUp hup).2⟩
  alive hrecv := by
    rw [hr]
    exact h.alive (ha hrecv)

/-- std takes the message of clone `i`. -/
theorem own_take {t : α} (h : ∀ j, s.takenFrom j = s.acked j ++ s.pending j) (ht : s.run.chan.offer i = some t)
    (hu : s.run.chan.underway i = false) (hu' : run.chan.underway i = true)
    (hother : ∀ j, j ≠ i → run.chan.underway j = s.run.chan.underway j) (hs : s'.taken = s.taken ++ [(i, t)])
    (hl : s'.last = Function.update s.last i (some t)) (hacked : s'.acked = s.acked) (hrun : s'.run = run) (j : Nat) :
    s'.takenFrom j = s'.acked j ++ s'.pending j := by
  have hj := h j
  unfold takenFrom pending at hj ⊢
  rw [hs, hl, hacked, hrun, List.filter_append, List.map_append]
  by_cases hji : j = i
  · subst hji
    rw [hu, if_neg (by decide), List.append_nil] at hj
    rw [hj, hu', if_pos (by decide), Function.update_self]
    simp
  · rw [hother j hji, Function.update_of_ne hji, hj]
    have hnil : [(i, t)].filter (fun m => m.1 == j) = [] := by
      simp only [List.filter_cons, List.filter_nil, beq_iff_eq, if_neg (Ne.symm hji)]
    rw [hnil, List.map_nil, List.append_nil]

theorem take_of_offer {t : α} (ht : s.run.chan.offer i = some t) :
    s.take i = { s with taken := s.taken ++ [(i, t)], last := Function.update s.last i (some t) } := by
  rw [take, ht]

theorem InOrder.sender {a : SenderAct α} {c : Chan w α Stamped Nat} {n : Notify Stamped Nat} (h : InOrder s)
    (hst : s.run.chan.senderStep i a = some (c, n)) (hchan : run.chan = c) (hrecv : run.recv = s.run.recv) :
    InOrder { s.note (.sender i a) with run := run } := by
  have hlive : s.run.chan.disconnected = false := by
    by_contra hd
    rw [Chan.senderStep_disconnected (Bool.eq_true_of_not_eq_false hd)] at hst
    cases hst
  cases Chan.senderStep_stage hst with
  | takes t ht hu hr hroom =>
    have hlt : i < s.run.chan.senders.length := by
      by_contra hge
      rw [Chan.offer, List.getElem?_eq_none (by omega)] at ht
      cases ht
    have hu' : run.chan.underway i = true := by
      rw [hchan]
      rw [Chan.underway, Chan.setPc, List.getElem?_set_self hlt, Option.any_some]
      rfl
    have hother : ∀ j, j ≠ i → run.chan.underway j = s.run.chan.underway j := by
      intro j hj
      rw [hchan]
      exact Chan.underway_setPc_ne hj
    simp only [note, if_pos hr, take_of_offer ht]
    refine ⟨fun _ => ?_, ?_, own_take h.own ht hu hu' hother rfl rfl rfl rfl, fun b hb => ?_, fun hup => ?_,
      fun hp => ?_⟩
    · simp only [hchan, Chan.setPc, List.map_append, List.map_cons, List.map_nil]
      rw [h.queue hr, List.append_assoc]
    · simp only [List.map_append]
      exact h.received.trans (List.prefix_append _ _)
    · simp only [hchan, Chan.setPc] at hb ⊢
      simp only [Chan.room, hb, decide_eq_true_eq] at hroom
      rw [List.length_append, List.length_singleton]
      exact hroom
    · rw [(h.hungUp hup).1] at hlive
      cases hlive
    · simp only [hchan, Chan.setPc]
      exact hr
  | «returns» c' hq hr hb hu hu' hother =>
    simp only [note, if_pos hu]
    refine ⟨fun hrec => ?_, h.received, fun j => ?_, fun b hbound => ?_, fun hup => ?_, fun hp => ?_⟩
    · simp only [hchan, hr, hq] at hrec ⊢
      exact h.queue hrec
    · have hj := h.own j
      unfold takenFrom pending at hj ⊢
      simp only [hchan]
      by_cases hji : j = i
      · subst hji
        rw [hu, if_pos (by decide)] at hj
        rw [hu', if_neg (by decide), List.append_nil, Function.update_self]
        exact hj
      · rw [hother j hji, Function.update_of_ne hji]
        exact hj
    · simp only [hchan, hb, hq] at hbound ⊢
      exact h.bound b hbound
    · rw [(h.hungUp hup).1] at hlive
      cases hlive
    · rw [hchan, hr]
      exact h.alive (hrecv ▸ hp)
  | other _ _ hnot hstd hq hr hb hu =>
    have hnote : s.note (.sender i a) = s := by
      cases a with
      | stdSend => rw [note, hstd rfl, if_neg (by decide)]
      | notify => exact absurd rfl hnot
      | _ => constructor
    rw [hnote]
    refine h.keep ?_ ?_ ?_ (fun j => ?_) (fun hd => ?_) (fun hp => hrecv ▸ hp)
    · rw [hchan, hq]
    · rw [hchan, hr]
    · rw [hchan, hb]
    · rw [hchan, hu]
    · rw [hd] at hlive
      cases hlive

/-- The receiving end gets the first message of the queue, or finds that there is none. -/
theorem InOrder.get (h : InOrder s) (hrecv : s.run.recv ≠ .gone) (hsend : run.chan.senders = s.run.chan.senders)
    (hb : run.chan.bound = s.run.chan.bound) (hrec : run.chan.receiver = s.run.chan.receiver)
    (hq : run.chan.queue = s.run.chan.queue.tail) : InOrder { s.get with run := run } := by
  have hqueue := h.queue (h.alive hrecv)
  have hdisc : run.chan.disconnected = s.run.chan.disconnected := by rw [Chan.disconnected, hsend, Chan.disconnected]
  have hown : ∀ j, s.takenFrom j = s.acked j ++ if run.chan.underway j then (s.last j).toList else [] := by
    intro j
    rw [Chan.underway, hsend]
    exact h.own j
  have hlen : ∀ b, run.chan.bound = some b → run.chan.queue.length ≤ b := by
    intro b hbound
    rw [hb] at hbound
    have hle := h.bound b hbound
    rw [hq, List.length_tail]
    omega
  unfold Transcript.get
  cases hqs : s.run.chan.queue with
  | cons t rest =>
    rw [hqs, List.tail_cons] at hq
    rw [hqs] at hqueue
    simp only [Chan.tryRecv, hqs]
    refine ⟨fun _ => ?_, ?_, hown, hlen, fun hup => ?_, fun _ => hrec ▸ h.alive hrecv⟩
    · rw [hq, List.append_assoc]
      exact hqueue
    · rw [hqueue]
      exact ⟨rest, by rw [List.append_assoc]; rfl⟩
    · have hall := (h.hungUp hup).2
      rw [← hall] at hqueue
      have hno := congrArg List.length hqueue
      rw [List.length_append, List.length_cons] at hno
      omega
  | nil =>
    rw [hqs, List.tail_nil] at hq
    rw [hqs, List.append_nil] at hqueue
    simp only [Chan.tryRecv, hqs]
    have halive : run.recv ≠ .gone → run.chan.receiver = true := fun _ => hrec ▸ h.alive hrecv
    have hall : ∀ _ : run.chan.receiver = true, s.taken.map Prod.snd = s.received ++ run.chan.queue := by
      intro _
      rw [hq, List.append_nil]
      exact hqueue
    by_cases hd : s.run.chan.disconnected = true
    · rw [if_pos hd]
      exact ⟨hall, h.received, hown, hlen, fun _ => ⟨hdisc.trans hd, hqueue.symm⟩, halive⟩
    · rw [if_neg hd]
      exact ⟨hall, h.received, hown, hlen, fun hup => absurd (h.hungUp hup).1 hd, halive⟩

/-- Bound 0: the receiving end gets what clone `i` offers. -/
theorem InOrder.getFrom {t : α} (h : InOrder s) (hrecv : s.run.recv ≠ .gone) (ht : s.run.chan.offer i = some t)
    (hzero : s.run.chan.bound = some 0) (hu : s.run.chan.underway i = false)
    (hchan : run.chan = s.run.chan.setPc i .sent) : InOrder { s.getFrom i with run := run } := by
  have hlt : i < s.run.chan.senders.length := by
    by_contra hge
    rw [Chan.offer, List.getElem?_eq_none (by omega)] at ht
    cases ht
  have hempty : s.run.chan.queue = [] := List.eq_nil_of_length_eq_zero (Nat.le_zero.1 (h.bound 0 hzero))
  have hqueue := h.queue (h.alive hrecv)
  rw [hempty, List.append_nil] at hqueue
  have hu' : run.chan.underway i = true := by
    rw [hchan]
    rw [Chan.underway, Chan.setPc, List.getElem?_set_self hlt, Option.any_some]
    rfl
  have hother : ∀ j, j ≠ i → run.chan.underway j = s.run.chan.underway j := by
    intro j hj
    rw [hchan]
    exact Chan.underway_setPc_ne hj
  have hall : (s.taken ++ [(i, t)]).map Prod.snd = s.received ++ [t] := by
    rw [List.map_append, hqueue]
    constructor
  simp only [Transcript.getFrom, take_of_offer ht, ht, Option.toList_some]
  refine ⟨fun _ => ?_, ?_, own_take h.own ht hu hu' hother rfl rfl rfl rfl, fun b hb => ?_, fun hup => ?_, fun _ => ?_⟩
  · simp only [hchan, Chan.setPc, hempty, List.append_nil]
    exact hall
  · simp only [hall]
    exact List.prefix_refl _
  · simp only [hchan, Chan.setPc, hempty]
    exact Nat.zero_le b
  · have hnone := Chan.offer_disconnected (i := i) (h.hungUp hup).1
    rw [ht] at hnone
    cases hnone
  · simp only [hchan, Chan.setPc]
    exact h.alive hrecv

/-- A step that leaves the std channel alone. -/
theorem InOrder.calm (h : InOrder s) (hs : run.chan.senders = s.run.chan.senders)
    (hq : run.chan.queue = s.run.chan.queue) (hr : run.chan.receiver = s.run.chan.receiver)
    (hb : run.chan.bound = s.run.chan.bound) (ha : run.recv ≠ .gone → s.run.recv ≠ .gone) :
    InOrder { s with run := run } := by
  refine h.keep hq hr hb (fun j => ?_) (fun hd => ?_) ha
  · rw [Chan.underway, hs, Chan.underway]
  · rw [Chan.disconnected, hs]
    exact hd

theorem InOrder.step {a : ChanAct α} (h : InOrder s) (hst : s.step a = some s') : InOrder s' := by
  obtain ⟨run, hrun, rfl⟩ := Option.map_eq_some_iff.1 hst
  cases a with
  | sender i a =>
    simp only [ChanRun.step] at hrun
    split at hrun
    · rename_i c n hs
      cases hrun
      refine h.sender hs ?_ ?_ <;> cases n <;> constructor
    · cases hrun
  | tryRecv =>
    simp only [ChanRun.step] at hrun
    split at hrun
    · rename_i hpc ht
      cases hrun
      exact h.get (by rw [hpc]; simp) rfl rfl rfl rfl
    · rename_i hpc hno
      cases hrun
      refine h.get (by rw [hpc]; simp) rfl rfl rfl ?_
      cases hq : s.run.chan.queue with
      | nil => constructor
      | cons t rest =>
        have ht : s.run.chan.tryRecv = .ok t := by rw [Chan.tryRecv, hq]
        exact (hno t ht).elim
    · cases hrun
  | recvReturn =>
    simp only [ChanRun.step] at hrun
    split at hrun
    · rename_i hpc ht
      cases hrun
      exact h.get (by rw [hpc]; simp) rfl rfl rfl rfl
    · rename_i hpc hdisc
      cases hrun
      refine h.get (by rw [hpc]; simp) rfl rfl rfl ?_
      cases hq : s.run.chan.queue with
      | nil => constructor
      | cons t rest =>
        rw [Chan.tryRecv, hq] at hdisc
        cases hdisc
    · cases hrun
  | tryRecvFrom i =>
    simp only [ChanRun.step] at hrun
    split at hrun
    · rename_i hpc hc
      cases hrun
      obtain ⟨hzero, ⟨t, hi⟩, hset⟩ := Chan.handOver_some hc
      exact h.getFrom (by rw [hpc]; simp) (by rw [Chan.offer, hi]) hzero (Chan.underway_of_get hi) hset
    · cases hrun
  | recvReturnFrom i =>
    simp only [ChanRun.step] at hrun
    split at hrun
    · rename_i hpc hc
      cases hrun
      obtain ⟨hzero, ⟨t, b, hi⟩, hset⟩ := Chan.handOverWaiting_some hc
      exact h.getFrom (by rw [hpc]; simp) (by rw [Chan.offer, hi]) hzero (Chan.underway_of_get hi) hset
    · cases hrun
  | dropReceiver =>
    simp only [ChanRun.step] at hrun
    split at hrun
    · rename_i hpc
      cases hrun
      refine ⟨fun hrec => (by cases hrec), h.received, h.own, fun b _ => Nat.zero_le b, fun hup => ?_, fun hp => ?_⟩
      · exact ⟨(h.hungUp hup).1, (h.hungUp hup).2⟩
      · exact absurd rfl hp
    · cases hrun
  | register token l =>
    simp only [ChanRun.step] at hrun
    split at hrun
    · rename_i hpc
      cases hrun
      have hreg := s.run.chan.register ⟨token, s.run.stamp + 1⟩ l
      refine h.calm ?_ ?_ ?_ ?_ (fun _ => by rw [hpc]; simp) <;> simp only [Chan.register] <;> split <;> constructor
    · cases hrun
  | deliver k =>
    simp only [ChanRun.step] at hrun
    split at hrun
    · cases hrun
      refine h.calm rfl rfl rfl rfl (fun hp hg => hp ?_)
      simp only [hg]
      simp
    · cases hrun
  | _ =>
    simp only [ChanRun.step] at hrun
    split at hrun
    · rename_i hpc
      cases hrun
      exact h.calm rfl rfl rfl rfl (fun _ => by rw [hpc]; simp)
    · cases hrun

/-- **Every message goes through a channel once and in order**, in any run: any number of clones, any bound, messages
received in coroutines or outside. -/
theorem fifo (h : (transcribed w α bound).Reach System.anyStep s) : InOrder s := by
  refine h.invariant InOrder (fun s hs => ?_) (fun _ _ _ hi _ hst => hi.step hst)
  cases (show s = start bound from hs)
  refine ⟨fun _ => rfl, List.prefix_refl _, fun i => ?_, fun b _ => Nat.zero_le b, fun hup => (by cases hup),
    fun _ => rfl⟩
  unfold pending
  split <;> constructor

/-- Every run of a channel can be written down. -/
theorem reach_transcribed {run : ChanRun w α} (h : (chanSystem w α bound).Reach System.anyStep run) :
    ∃ s : Transcript w α, (transcribed w α bound).Reach System.anyStep s ∧ s.run = run := by
  refine h.lift Transcript.run (fun run h0 => ⟨start bound, rfl, (show _ = _ from h0).symm⟩) (fun s a run' hst => ?_)
  exact ⟨a, { s.note a with run := run' }, Option.map_eq_some_iff.2 ⟨run', hst, rfl⟩, rfl⟩

/-- Two clones send through a channel of bound 1, the second finds it full, and the receiver takes what there is. -/
def sendsTwo : List (ChanAct Nat) :=
  [.sender 0 .clone, .sender 0 (.send 7 false), .sender 0 .stdSend, .sender 1 (.send 5 true), .sender 1 .stdSendFull,
    .tryRecv, .fetchSub, .sender 1 .stdSend, .sender 0 .fetchAdd, .sender 0 .notify, .sender 0 .drop,
    .sender 0 .dropStd, .sender 1 .fetchAdd, .sender 1 .notify, .sender 1 .drop, .sender 1 .dropFetchAdd,
    .sender 1 .dropNotify, .sender 1 .dropStd, .tryRecv, .fetchSub, .tryRecv]

theorem fifo_two : ∃ s : Transcript 64 Nat, s.received = [7, 5] ∧ s.hungUp = true ∧ InOrder s := by
  have hsome : ((transcribed 64 Nat (some 1)).exec sendsTwo (start (some 1))).any
      (fun s => decide (s.received = [7, 5] ∧ s.hungUp = true)) = true := by
    decide +kernel
  obtain ⟨s, hs, hand⟩ := (Option.any_eq_true _ _).1 hsome
  obtain ⟨hrec, hup⟩ := of_decide_eq_true hand
  have h0 : (transcribed 64 Nat (some 1)).Reach System.anyStep (start (some 1)) := .init rfl
  have hr := System.reach_exec_of_forall sendsTwo _ s h0 (fun _ _ _ => trivial) hs
  exact ⟨s, hrec, hup, fifo hr⟩

end Transcript
end Mioco
