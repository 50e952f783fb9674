import Mioco.AfterExit
import Mioco.Jumps
/-!
# A coroutine completes once, and `join` says how (src/coroutine.rs, src/mod.rs)

`Recorded` is an instance with a record of how the function of each coroutine ended, of what `exit_sender` sent and of
what was received.  `Reports` follows the exit status from the function to `JoinHandle::join`; that a killed coroutine is
run to its end is what the handles of the instance are for.
-/
namespace Mioco

open Lib (Slab System)
open Pooling

/-- How the function of a coroutine ended, and whether the coroutine was being killed. -/
structure Ending (α : Type) where
  res : ExitStatus α
  killed : Bool
deriving DecidableEq, Repr

/-- What the end of a coroutine has before it is the sending of `l`. -/
def Job.Tells {α : Type} (l : List (ExitStatus α)) : Job α → Prop
  | .terminate _ res | .exit (some res) => l = [res]
  | .propagate => False
  | .user | .shutdown _ | .exit none => True

/-- With `catch_panics` the exit status is sent, whatever it is. -/
theorem Config.report_caught {α : Type} {cfg : Config} (hcp : cfg.catchPanics = true) (res : ExitStatus α) :
    cfg.report res = .exit (some res) := by
  cases res with
  | ok v => rw [Config.report]
  | err => rw [Config.report, if_pos hcp]

namespace Instance
variable {S : Sched} {w : Nat} {α : Type}

/-- How the function of coroutine `c` ends in a step. -/
def endings (s : Instance S w α) : Action α → Nat → List (Ending α)
  | .thread t (.user (.finish res)), c =>
    match (s.threads t).pc with
    | .exec d _ .user => if c = d then [⟨res, (s.cos c).killed⟩] else []
    | _ => []
  | _, _ => []

/-- What `JoinHandle::join` of coroutine `c` receives in a step. -/
def joins (s : Instance S w α) : Action α → Nat → List (ExitStatus α)
  | .receiver (.join d) .tryRecv, c | .receiver (.join d) .recvOutside, c =>
    if c = d then (s.chans (.join c)).queue.head?.toList else []
  | _, _ => []

/-- Thread `t` runs a coroutine that was entered by `unwind_stack`. -/
def unwindsStack (s : Instance S w α) (t : Nat) : Bool :=
  match (s.threads t).pc with
  | .exec c _ .user => decide (s.lastJump c = some .unwindStack)
  | _ => false

/-- A function whose stack is unwound by `unwind_stack` does not return a value: it lets the panic through. -/
def uncaught (s : Instance S w α) : Action α → Prop
  | .thread t (.user (.finish (.ok _))) => s.unwindsStack t = false
  | _ => True

end Instance

/-- An instance, how the functions of its coroutines ended, and the statuses sent and received. -/
structure Recorded (S : Sched) (w : Nat) (α : Type) where
  inst : Instance S w α
  endings : Nat → List (Ending α)
  sent : Nat → List (ExitStatus α)
  joined : Nat → List (ExitStatus α)

namespace Recorded
variable {S : Sched} {w : Nat} {α : Type}

def start (S : Sched) (w : Nat) {α : Type} (bound : Nat → Option Nat) : Recorded S w α :=
  ⟨Instance.start S w bound, fun _ => [], fun _ => [], fun _ => []⟩

def step (cfg : Config) (s : Recorded S w α) (a : Action α) : Option (Recorded S w α) :=
  (s.inst.step cfg a).map (fun inst =>
    { inst := inst
      endings := fun c => s.endings c ++ s.inst.endings a c
      sent := fun c => s.sent c ++ (inst.chans (.join c)).queue.drop (s.inst.chans (.join c)).queue.length
      joined := fun c => s.joined c ++ s.inst.joins a c })

/-- The statuses that the function of coroutine `c` ended with. -/
def statuses (s : Recorded S w α) (c : Nat) : List (ExitStatus α) := (s.endings c).map Ending.res

/-- The status of coroutine `c` was sent, or nobody waits for it. -/
def Heard (s : Recorded S w α) (c : Nat) : Prop :=
  s.sent c = s.statuses c ∨ (s.inst.chans (.join c)).receiver = false

end Recorded

def recorded (S : Sched) (w : Nat) (α : Type) (cfg : Config) (bound : Nat → Option Nat) :
    System (Recorded S w α) (Action α) where
  Init s := s = Recorded.start S w bound
  step := Recorded.step cfg

/-- **The exit status of coroutine `c`**, from its function to `join`. -/
structure Reports {S : Sched} {w : Nat} {α : Type} (s : Recorded S w α) (c : Nat) : Prop where
  alive : (s.inst.cos c).state ≠ .finished → s.endings c = []
  ended : (s.inst.cos c).state = .finished → ∃ e, s.endings c = [e] ∧ (e.killed = true → e.res = .err)
  sent : s.sent c = [] ∨ s.sent c = s.statuses c
  job : ∀ t ret j, (s.inst.threads t).pc = .exec c ret j → j.live = false →
    j.Tells (s.statuses c) ∧ (j.reported = false → s.sent c = [])
  sending : ∀ v b, (s.inst.chans (.join c)).senders = [.sending v b] → s.statuses c = [v] ∧ s.sent c = []
  told : ∀ pc, (s.inst.chans (.join c)).senders = [pc] → pc ≠ .idle → (∀ v b, pc ≠ .sending v b) → s.Heard c
  exiting : ∀ t ret, (s.inst.threads t).pc = .exec c ret (.exit none) →
    (s.inst.chans (.join c)).senders = [.idle] → s.Heard c
  queue : (s.inst.chans (.join c)).receiver = true → s.sent c = s.joined c ++ (s.inst.chans (.join c)).queue
  joined : s.joined c <+: s.sent c
  closed : (s.inst.chans (.join c)).receiver = false → (s.inst.chans (.join c)).queue = []

namespace Reports
variable {S : Sched} {w : Nat} {α : Type} {s s' : Recorded S w α} {t c : Nat} {cfg : Config}

/-- The record does not change, nor does the channel. -/
theorem keep (h : Reports s c) (hend : s'.endings c = s.endings c) (hsent : s'.sent c = s.sent c)
    (hjoin : s'.joined c = s.joined c)
    (hf : (s'.inst.cos c).state = .finished ↔ (s.inst.cos c).state = .finished)
    (hch : SameExit (s.inst.chans (.join c)) (s'.inst.chans (.join c)))
    (hjob : ∀ t ret j, (s'.inst.threads t).pc = .exec c ret j → j.live = false →
      j.Tells (s.statuses c) ∧ (j.reported = false → s.sent c = []) ∧
        (j = .exit none → (s.inst.chans (.join c)).senders = [.idle] → s.Heard c)) : Reports s' c := by
  have hstat : s'.statuses c = s.statuses c := by rw [Recorded.statuses, Recorded.statuses, hend]
  have hheard : s.Heard c → s'.Heard c := by
    intro hh
    rwa [Recorded.Heard, hsent, hstat, hch.receiver]
  refine ⟨fun hl => ?_, fun hfin => ?_, ?_, fun t ret j hpc hj => ?_, fun v b hs => ?_,
    fun pc hs hi hn => ?_, fun t ret hpc hs => ?_, fun hr => ?_, ?_, fun hr => ?_⟩
  · rw [hend]
    exact h.alive (fun hfin => hl (hf.2 hfin))
  · rw [hend]
    exact h.ended (hf.1 hfin)
  · rw [hsent, hstat]
    exact h.sent
  · rw [hstat, hsent]
    exact ⟨(hjob t ret j hpc hj).1, (hjob t ret j hpc hj).2.1⟩
  · rw [hstat, hsent]
    exact h.sending v b (hch.senders ▸ hs)
  · exact hheard (h.told pc (hch.senders ▸ hs) hi hn)
  · exact hheard ((hjob t ret _ hpc rfl).2.2 rfl (hch.senders ▸ hs))
  · rw [hsent, hjoin, hch.queue]
    exact h.queue (hch.receiver ▸ hr)
  · rw [hsent, hjoin]
    exact h.joined
  · rw [hch.queue]
    exact h.closed (hch.receiver ▸ hr)

/-- What a thread says that is where it was. -/
theorem job_of_pc (h : Reports s c) {ret : Ret} {j : Job α} (hpc : (s.inst.threads t).pc = .exec c ret j)
    (hj : j.live = false) : j.Tells (s.statuses c) ∧ (j.reported = false → s.sent c = []) ∧
      (j = .exit none → (s.inst.chans (.join c)).senders = [.idle] → s.Heard c) := by
  refine ⟨(h.job t ret j hpc hj).1, (h.job t ret j hpc hj).2, fun hnone hs => ?_⟩
  rw [hnone] at hpc
  exact h.exiting t ret hpc hs

/-- What is not sent yet. -/
theorem unsent (h : Reports s c) (hl : (s.inst.cos c).state ≠ .finished) : s.statuses c = [] ∧ s.sent c = [] := by
  have hnone : s.statuses c = [] := by rw [Recorded.statuses, h.alive hl, List.map_nil]
  refine ⟨hnone, ?_⟩
  rcases h.sent with hs | hs
  · exact hs
  · rw [hs, hnone]

/-- **The function of coroutine `d` ends.** -/
theorem finish (h : Reports s c) (hc : Instance.Custody s.inst) (hcp : cfg.catchPanics = true) {d : Nat} {ret : Ret}
    {res : ExitStatus α} (hpc : (s.inst.threads t).pc = .exec d ret .user) (he : Instance.Ends t d s.inst s'.inst)
    (hpc' : (s'.inst.threads t).pc = .panicked .slabRemove ∨ (s'.inst.threads t).pc = .exec d ret (.terminate 0 res) ∨
      (s'.inst.threads t).pc = .exec d ret (cfg.report res))
    (hres : (s.inst.cos d).killed = true → res = .err)
    (hend : s'.endings c = s.endings c ++ if c = d then [⟨res, (s.inst.cos c).killed⟩] else [])
    (hsent : s'.sent c = s.sent c) (hjoin : s'.joined c = s.joined c) : Reports s' c := by
  have hin := hc.engaged t d (some .user) (by rw [hpc]; rfl)
  rw [Config.report_caught hcp res] at hpc'
  -- what another thread is at
  have hother : ∀ i ret' j, (s'.inst.threads i).pc = .exec c ret' j → i ≠ t → (s.inst.threads i).pc = .exec c ret' j := by
    intro i ret' j hp hi
    rwa [he.pc i hi] at hp
  by_cases hcd : c = d
  · subst hcd
    obtain ⟨hstat, hzero⟩ := h.unsent (hin.live rfl)
    have hun := (hc.unsent c (hin.live rfl)).1
    rw [if_pos rfl, h.alive (hin.live rfl), List.nil_append] at hend
    have hstat' : s'.statuses c = [res] := by rw [Recorded.statuses, hend]; rfl
    have hfin : (s'.inst.cos c).state = .finished := by rw [he.co, Function.update_self]
    have hat : ∀ i ret' j, (s'.inst.threads i).pc = .exec c ret' j → j = .terminate 0 res ∨ j = .exit (some res) := by
      intro i ret' j hp
      by_cases hi : i = t
      · subst hi
        rcases hpc' with hp' | hp' | hp' <;> rw [hp'] at hp <;> cases hp
        · exact .inl rfl
        · exact .inr rfl
      · have := (hc.engaged i c (some j) (by rw [hother i ret' j hp hi]; rfl)).attached
        rw [hin.attached] at this
        cases this
        exact (hi rfl).elim
    refine ⟨fun hl => (hl hfin).elim, fun _ => ⟨_, hend, hres⟩, .inl (hsent.trans hzero), fun i ret' j hp _ => ?_,
      fun v b hs => ?_, fun pc hs hi _ => ?_, fun i ret' hp _ => ?_, fun hr => ?_, ?_, fun hr => ?_⟩
    · rw [hsent, hstat', hzero]
      rcases hat i ret' j hp with rfl | rfl
      · exact ⟨rfl, fun _ => rfl⟩
      · exact ⟨rfl, fun _ => rfl⟩
    · rw [he.chans, hun.sender] at hs
      cases hs
    · rw [he.chans, hun.sender] at hs
      cases hs
      exact (hi rfl).elim
    · rcases hat i ret' _ hp with hj | hj <;> cases hj
    · rw [he.chans] at hr ⊢
      rw [hsent, hjoin]
      exact h.queue hr
    · rw [hsent, hjoin]
      exact h.joined
    · rw [he.chans] at hr ⊢
      exact h.closed hr
  · rw [if_neg hcd, List.append_nil] at hend
    refine h.keep hend hsent hjoin ?_ (by rw [he.chans]; exact .rfl' _) (fun i ret' j hp hj => ?_)
    · rw [he.co, Function.update_of_ne hcd]
    · by_cases hi : i = t
      · subst hi
        rcases hpc' with hp' | hp' | hp' <;> rw [hp'] at hp <;> cases hp <;> exact (hcd rfl).elim
      · exact h.job_of_pc (hother i ret' j hp hi) hj

/-- **A step of `exit_sender`** of coroutine `c`. -/
theorem exit (h : Reports s c) {ret : Ret} {res : Option (ExitStatus α)}
    (hpc : (s.inst.threads t).pc = .exec c ret (.exit res))
    (hm : ExitMove (s.inst.chans (.join c)) res (s'.inst.chans (.join c)))
    (hrec : (s'.inst.chans (.join c)).receiver = (s.inst.chans (.join c)).receiver)
    (hf : (s'.inst.cos c).state = .finished ↔ (s.inst.cos c).state = .finished)
    (hat : ∀ i ret' j, (s'.inst.threads i).pc = .exec c ret' j → j = .exit none)
    (hopen : (s'.inst.chans (.join c)).queue ≠ (s.inst.chans (.join c)).queue →
      (s.inst.chans (.join c)).receiver = true)
    (hend : s'.endings c = s.endings c) (hjoin : s'.joined c = s.joined c)
    (hsent : s'.sent c = s.sent c ++ (s'.inst.chans (.join c)).queue.drop (s.inst.chans (.join c)).queue.length) :
    Reports s' c := by
  have hjob := (h.job t ret _ hpc rfl)
  have hstat : s'.statuses c = s.statuses c := by rw [Recorded.statuses, Recorded.statuses, hend]
  -- the message goes into the queue, or nothing does
  have hpush : ∀ v, (s'.inst.chans (.join c)).queue = (s.inst.chans (.join c)).queue ++ [v] →
      s'.sent c = s.sent c ++ [v] := by
    intro v hq
    rw [hsent, hq, List.drop_left]
  have hsame : (s'.inst.chans (.join c)).queue = (s.inst.chans (.join c)).queue → s'.sent c = s.sent c := by
    intro hq
    rw [hsent, hq, List.drop_length, List.append_nil]
  have hkeep : ∀ pc', (s'.inst.chans (.join c)).queue = (s.inst.chans (.join c)).queue →
      (s'.inst.chans (.join c)).senders = [pc'] →
      (∀ v b, pc' = .sending v b → s.statuses c = [v] ∧ s.sent c = []) →
      ((∀ v b, pc' ≠ .sending v b) → s.Heard c) → Reports s' c := by
    intro pc' hq hs' hsending hheard
    have hsent' := hsame hq
    have hto : s.Heard c → s'.Heard c := by
      intro hh
      rwa [Recorded.Heard, hsent', hstat, hrec]
    refine ⟨fun hl => ?_, fun hfin => ?_, ?_, fun i ret' j hp _ => ?_, fun v b hs => ?_, fun pc hs hi hn => ?_,
      fun i ret' hp hs => ?_, fun hr => ?_, ?_, fun hr => ?_⟩
    · rw [hend]
      exact h.alive (fun hfin => hl (hf.2 hfin))
    · rw [hend]
      exact h.ended (hf.1 hfin)
    · rw [hsent', hstat]
      exact h.sent
    · rw [hat i ret' j hp]
      exact ⟨trivial, fun ho => by cases ho⟩
    · rw [hs'] at hs
      cases hs
      rw [hstat, hsent']
      exact hsending v b rfl
    · rw [hs'] at hs
      cases hs
      exact hto (hheard hn)
    · rw [hs'] at hs
      cases hs
      exact hto (hheard (by simp))
    · rw [hsent', hjoin, hq]
      exact h.queue (hrec ▸ hr)
    · rw [hsent', hjoin]
      exact h.joined
    · rw [hq]
      exact h.closed (hrec ▸ hr)
  cases hm with
  | send v hres hs hs' hq =>
    subst hres
    exact hkeep _ hq hs' (fun v' b he => by cases he; exact ⟨hjob.1, hjob.2 rfl⟩) (fun hn => (hn v false rfl).elim)
  | refused v b hs hr hs' hq => exact hkeep _ hq hs' (fun _ _ he => by cases he) (fun _ => .inr hr)
  | stdSend v b hs hs' hq =>
    obtain ⟨hv, hzero⟩ := h.sending v b hs
    have hsent' := hpush v hq
    have hall : s'.sent c = s'.statuses c := by rw [hsent', hzero, hstat, hv, List.nil_append]
    refine ⟨fun hl => ?_, fun hfin => ?_, .inr hall, fun i ret' j hp _ => ?_, fun v b hs => ?_, fun pc hs hi hn => .inl hall,
      fun i ret' hp hs => .inl hall, fun hr => ?_, ?_, fun hr => ?_⟩
    · rw [hend]
      exact h.alive (fun hfin => hl (hf.2 hfin))
    · rw [hend]
      exact h.ended (hf.1 hfin)
    · rw [hat i ret' j hp]
      exact ⟨trivial, fun ho => by cases ho⟩
    · rw [hs'] at hs
      cases hs
    · rw [hsent', hjoin, hq, h.queue (hrec ▸ hr), List.append_assoc]
    · rw [hsent', hjoin]
      exact h.joined.trans (List.prefix_append _ _)
    · rw [hrec, hopen (by rw [hq]; simp)] at hr
      cases hr
  | other pc pc' hs hns hi hs' hns' hi' hq =>
    refine hkeep pc' hq hs' (fun v b he => (hns' v b he).elim) (fun _ => ?_)
    by_cases hidle : pc = .idle
    · subst hidle
      rw [hi rfl] at hpc
      exact h.exiting t ret hpc hs
    · exact h.told pc hs hidle hns

/-- **A step of the receiving end.** -/
theorem receive (h : Reports s c) {n : Nat} (hcos : s'.inst.cos = s.inst.cos) (hth : s'.inst.threads = s.inst.threads)
    (hb : (s.inst.chans (.join c)).bound = none)
    (hr : Instance.ExitRecv (s.inst.chans (.join c)) (s.inst.received (.join c)) (s'.inst.chans (.join c)) n)
    (hend : s'.endings c = s.endings c) (hsent : s'.sent c = s.sent c)
    (hjoin : s'.joined c = s.joined c ++
      if n = s.inst.received (.join c) then [] else (s.inst.chans (.join c)).queue.head?.toList) : Reports s' c := by
  have hstat : s'.statuses c = s.statuses c := by rw [Recorded.statuses, Recorded.statuses, hend]
  have hedit : (s'.inst.chans (.join c)).senders = (s.inst.chans (.join c)).senders →
      ((s'.inst.chans (.join c)).receiver = true → (s.inst.chans (.join c)).receiver = true) →
      ((s'.inst.chans (.join c)).receiver = true → s'.sent c = s'.joined c ++ (s'.inst.chans (.join c)).queue) →
      s'.joined c <+: s'.sent c →
      ((s'.inst.chans (.join c)).receiver = false → (s'.inst.chans (.join c)).queue = []) → Reports s' c := by
    intro hs hrec hqueue hprefix hclosed
    have hto : s.Heard c → s'.Heard c := by
      rw [Recorded.Heard, Recorded.Heard, hsent, hstat]
      refine Or.imp_right (fun hfalse => ?_)
      by_contra htrue
      rw [hrec (by simpa using htrue)] at hfalse
      cases hfalse
    refine ⟨fun hl => ?_, fun hfin => ?_, ?_, fun i ret j hp hj => ?_, fun v b hs' => ?_, fun pc hs' hi hn => hto ?_,
      fun i ret hp hs' => hto ?_, hqueue, hprefix, hclosed⟩
    · rw [hcos] at hl
      rw [hend]
      exact h.alive hl
    · rw [hcos] at hfin
      rw [hend]
      exact h.ended hfin
    · rw [hsent, hstat]
      exact h.sent
    · rw [hth] at hp
      rw [hsent, hstat]
      exact h.job i ret j hp hj
    · rw [hsent, hstat]
      exact h.sending v b (hs ▸ hs')
    · exact h.told pc (hs ▸ hs') hi hn
    · rw [hth] at hp
      exact h.exiting i ret hp (hs ▸ hs')
  revert hjoin hedit
  generalize s'.inst.chans (.join c) = chan at hr ⊢
  intro hjoin hedit
  cases hr with
  | same hs =>
    rw [if_pos rfl, List.append_nil] at hjoin
    refine hedit hs.senders (fun hr => hs.receiver ▸ hr) (fun hr => ?_) ?_ (fun hr => ?_)
    · rw [hsent, hjoin, hs.queue]
      exact h.queue (hs.receiver ▸ hr)
    · rw [hsent, hjoin]
      exact h.joined
    · rw [hs.queue]
      exact h.closed (hs.receiver ▸ hr)
  | took res htry =>
    obtain ⟨rest, hq⟩ : ∃ rest, (s.inst.chans (.join c)).queue = res :: rest := by
      unfold Chan.tryRecv at htry
      split at htry
      · rename_i v rest hq
        cases htry
        exact ⟨rest, hq⟩
      · split at htry <;> cases htry
    have hopen : (s.inst.chans (.join c)).receiver = true := by
      by_contra hfalse
      rw [h.closed (by simpa using hfalse)] at hq
      cases hq
    have hall := h.queue hopen
    rw [if_neg (by omega), hq] at hjoin
    rw [hq] at hall
    refine hedit rfl (fun _ => hopen) (fun _ => ?_) ?_ (fun hr => ?_)
    · rw [hsent, hjoin, hall, Chan.popQueue, hq, List.append_assoc]
      rfl
    · rw [hsent, hjoin, hall]
      exact ⟨rest, by rw [List.append_assoc]; rfl⟩
    · rw [Chan.popQueue] at hr
      rw [hopen] at hr
      cases hr
  | handed hbound =>
    rw [hb] at hbound
    cases hbound
  | dropped =>
    rw [if_pos rfl, List.append_nil] at hjoin
    refine hedit rfl (fun hr => by cases hr) (fun hr => by cases hr) ?_ (fun _ => rfl)
    rw [hsent, hjoin]
    exact h.joined

/-- A message goes into the queue of a receiver that is there. -/
theorem open_of_push {τ κ : Type} {ch chan : Chan w (ExitStatus α) τ κ} {res : Option (ExitStatus α)}
    {pc : SenderPc w (ExitStatus α)} {n : Notify τ κ} (hs : ch.senders[0]? = some pc)
    (h : ch.senderStep 0 (exitAct res pc) = some (chan, n)) (hq : chan.queue ≠ ch.queue) : ch.receiver = true := by
  cases pc with
  | idle =>
    cases res <;> simp only [exitAct, Chan.senderStep, hs] at h <;> cases h <;> exact (hq rfl).elim
  | sending v b =>
    simp only [exitAct, Chan.senderStep, hs] at h
    split at h
    · cases h
      exact (hq rfl).elim
    · rename_i hr
      simpa using hr
  | dropped =>
    simp only [exitAct, Chan.senderStep, hs] at h
    cases h
  | _ =>
    simp only [exitAct, Chan.senderStep, hs] at h
    cases h
    exact (hq rfl).elim

/-- **A step in which no function ends and nothing is received.** -/
structure Carries (s s' : Recorded S w α) (c : Nat) : Prop where
  endings : s'.endings c = s.endings c
  joined : s'.joined c = s.joined c
  sent : s'.sent c = s.sent c ++ (s'.inst.chans (.join c)).queue.drop (s.inst.chans (.join c)).queue.length

theorem Carries.sent_same (h : Carries s s' c) (hs : SameExit (s.inst.chans (.join c)) (s'.inst.chans (.join c))) :
    s'.sent c = s.sent c := by
  rw [h.sent, hs.queue, List.drop_length, List.append_nil]

/-- Where the other threads are, a job of coroutine `c` is as before. -/
theorem carried (h : Reports s c) (hr : Carries s s' c)
    (hf : (s'.inst.cos c).state = .finished ↔ (s.inst.cos c).state = .finished)
    (hch : SameExit (s.inst.chans (.join c)) (s'.inst.chans (.join c)))
    (hpc : ∀ i ret j, (s'.inst.threads i).pc = .exec c ret j → j.live = false → i ≠ t →
      (s.inst.threads i).pc = .exec c ret j)
    (hjob : ∀ ret j, (s'.inst.threads t).pc = .exec c ret j → j.live = false →
      j.Tells (s.statuses c) ∧ (j.reported = false → s.sent c = []) ∧
        (j = .exit none → (s.inst.chans (.join c)).senders = [.idle] → s.Heard c)) : Reports s' c := by
  refine h.keep hr.endings (hr.sent_same hch) hr.joined hf hch (fun i ret j hp hj => ?_)
  by_cases hi : i = t
  · subst hi
    exact hjob ret j hp hj
  · exact h.job_of_pc (hpc i ret j hp hj hi) hj

/-- The thread lands where no end of a coroutine runs. -/
theorem lands (h : Reports s c) (hr : Carries s s' c) {m : Instance S w α}
    (hf : (m.cos c).state = .finished ↔ (s.inst.cos c).state = .finished)
    (hpc : ∀ i, (m.threads i).pc = (s.inst.threads i).pc) (hch : m.chans = s.inst.chans)
    (hl : Instance.Lands t m s'.inst) : Reports s' c := by
  refine h.carried (t := t) hr ((hl.finished c).trans hf) (hch ▸ hl.chans c) (fun i ret j hp _ hi => ?_)
    (fun ret j hp hj => ?_)
  · rwa [hl.pc i hi, hpc] at hp
  · rcases (hl.enters c (some j) (by rw [hp]; rfl)).2.2 with he | he <;> cases he
    cases hj

/-- The end of a coroutine goes on. -/
theorem goesOn (h : Reports s c) (hcp : cfg.catchPanics = true) (hr : Carries s s' c) {d : Nat} {ret : Ret}
    {j j' : Job α} (hpc : (s.inst.threads t).pc = .exec d ret j) (hjob : Instance.JobStep cfg j j')
    (hq : Instance.Quiet t s.inst s'.inst) (hpc' : (s'.inst.threads t).pc = .exec d ret j') : Reports s' c := by
  refine h.carried (t := t) hr (hq.finished c) (hq.chans c) (fun i ret' j₀ hp _ hi => ?_) (fun ret' j₀ hp hj₀ => ?_)
  · rwa [hq.pc i hi] at hp
  · rw [hpc'] at hp
    cases hp
    cases hjob with
    | shutdown | shutdownNext | shutdownEnd => cases hj₀
    | terminateNext k res =>
      obtain ⟨htells, hsent⟩ := h.job t ret _ hpc rfl
      exact ⟨htells, fun _ => hsent rfl, fun he => by cases he⟩
    | report k res =>
      obtain ⟨htells, hsent⟩ := h.job t ret _ hpc rfl
      rw [Config.report_caught hcp]
      exact ⟨htells, fun _ => hsent rfl, fun he => by cases he⟩
    | propagate => exact (h.job t ret _ hpc rfl).1.elim

/-- Whoever ends is alone on its thread, and on the others nothing ends of it. -/
theorem ends_alone (hc : Instance.Custody s.inst) {ret : Ret} {j : Job α} (hpc : (s.inst.threads t).pc = .exec c ret j)
    {i : Nat} {ret' : Ret} {j' : Job α} (hi : (s.inst.threads i).pc = .exec c ret' j') : i = t := by
  have hat := (hc.engaged i c (some j') (by rw [hi]; rfl)).attached
  rw [(hc.engaged t c (some j) (by rw [hpc]; rfl)).attached] at hat
  exact (Option.some.inj hat).symm

/-- **A step of some `exit_sender`.** -/
theorem exits (h : Reports s c) (hc : Instance.Custody s.inst) (hr : Carries s s' c) {d : Nat} {ret : Ret}
    {res : Option (ExitStatus α)} {pc : SenderPc w (ExitStatus α)} {chan : Chan w (ExitStatus α) Reg Nat}
    {n : Notify Reg Nat} (hpc : (s.inst.threads t).pc = .exec d ret (.exit res))
    (hs : (s.inst.chans (.join d)).senders[0]? = some pc) (hd : pc ≠ .dropped)
    (hstep : (s.inst.chans (.join d)).senderStep 0 (exitAct res pc) = some (chan, n))
    (hq : Instance.Quiet t (s.inst.setChan (.join d) chan) s'.inst)
    (hpc' : (s'.inst.threads t).pc = .exec d ret (.exit none) ∨ ∃ why, (s'.inst.threads t).pc = .panicked why) :
    Reports s' c := by
  have hex := hq.chans c
  by_cases hcd : c = d
  · subst hcd
    rw [Instance.chans_setChan, if_pos rfl] at hex
    have hsingle : (s.inst.chans (.join c)).senders = [pc] := by
      obtain ⟨pc', he, -⟩ := (hc.exits c).sender
      rw [he] at hs ⊢
      exact congrArg (fun x => [x]) (Option.some.inj hs)
    obtain ⟨hmove, -, hrecv⟩ := exit_move hsingle hd hstep
    refine h.exit hpc (hmove.same hex) (hex.receiver.trans hrecv) (hq.finished c) (fun i ret' j hp => ?_) (fun hne => ?_)
      hr.endings hr.joined hr.sent
    · by_cases hi : i = t
      · subst hi
        rcases hpc' with hp' | ⟨why, hp'⟩ <;> rw [hp'] at hp <;> cases hp
        rfl
      · rw [hq.pc i hi] at hp
        exact (hi (ends_alone hc hpc hp)).elim
    · exact open_of_push hs hstep (fun he => hne (hex.queue.trans he))
  · rw [Instance.chans_setChan, if_neg (fun he => hcd (by cases he; rfl))] at hex
    refine h.carried (t := t) hr (hq.finished c) hex (fun i ret' j hp _ hi => ?_) (fun ret' j hp hj => ?_)
    · rwa [hq.pc i hi] at hp
    · rcases hpc' with hp' | ⟨why, hp'⟩ <;> rw [hp'] at hp <;> cases hp
      exact (hcd rfl).elim

end Reports

namespace Recorded
variable {S : Sched} {w : Nat} {α : Type} {s s' : Recorded S w α} {t c : Nat} {cfg : Config} {a : Action α}

theorem endings_nil (hno : ∀ t res, a ≠ .thread t (.user (.finish res))) : s.inst.endings a c = [] := by
  unfold Instance.endings
  split
  · exact (hno _ _ rfl).elim
  · rfl

theorem joins_nil (hno : ∀ ch b, a ≠ .receiver ch b) : s.inst.joins a c = [] := by
  unfold Instance.joins
  split
  · exact (hno _ _ rfl).elim
  · exact (hno _ _ rfl).elim
  · rfl

/-- What the receiving end of a join channel takes is the first message. -/
theorem joins_receiver {d : Nat} {b : RecvAct} {inst : Instance S w α}
    (hb : (s.inst.chans (.join d)).bound = none) (hst : s.inst.receiverStep (.join d) b = some inst) :
    s.inst.joins (.receiver (.join d) b) d = if inst.received (.join d) = s.inst.received (.join d) then [] else
      (s.inst.chans (.join d)).queue.head?.toList := by
  cases b with
  | tryRecv | recvOutside =>
    simp only [Instance.receiverStep] at hst
    split at hst <;> cases hst
    simp only [Instance.joins, Function.update_self, if_true]
    rw [if_neg (by omega)]
  | tryRecvFrom i =>
    simp only [Instance.receiverStep, Chan.handOver, hb] at hst
    cases hst
  | recvOutsideFrom i =>
    simp only [Instance.receiverStep, Chan.handOverWaiting, hb] at hst
    cases hst
  | fetchSub =>
    simp only [Instance.receiverStep] at hst
    split at hst <;> cases hst
    exact (if_pos rfl).symm
  | dropReceiver =>
    cases hst
    exact (if_pos rfl).symm

/-- **A coroutine that is being killed ends with `Err`**: its stack is unwound, or it never ran and panics at once. -/
theorem killed_err {d : Nat} {ret : Ret} {res : ExitStatus α} (hpc : (s.inst.threads t).pc = .exec d ret .user)
    (hjump : Instance.Jumped s.inst) (hk : ret.kills = true) (hok : s.inst.uncaught (.thread t (.user (.finish res))))
    (hper : s.inst.permits t (.user (.finish res)) = true) : res = .err := by
  cases res with
  | err => rfl
  | ok v =>
    obtain ⟨jump, hlast, hres⟩ := hjump t d ret .user hpc rfl
    cases jump with
    | resume =>
      rw [hres.1 rfl] at hk
      cases hk
    | unwindStack =>
      have hno : s.inst.unwindsStack t = false := hok
      simp [Instance.unwindsStack, hpc, hlast] at hno
    | killedAtStart => simp [Instance.permits, hpc, hlast] at hper

/-- **The function of a coroutine ends.** -/
theorem reports_finish (hc : Instance.Custody s.inst) (hcp : cfg.catchPanics = true)
    (hkill : ∀ t d ret, (s.inst.threads t).pc = .exec d ret .user → (s.inst.cos d).killed = ret.kills)
    (hjump : Instance.Jumped s.inst) (h : Reports s c) {res : ExitStatus α}
    (hok : s.inst.uncaught (.thread t (.user (.finish res))))
    (hst : s.step cfg (.thread t (.user (.finish res))) = some s') : Reports s' c := by
  obtain ⟨inst, hinst, rfl⟩ := Option.map_eq_some_iff.1 hst
  obtain ⟨-, hper, hth⟩ := Instance.step_thread hinst
  simp only [Instance.threadStep, Instance.user] at hth
  split at hth
  · rename_i d ret hpc
    cases hth
    obtain ⟨he, hpc'⟩ : Instance.Ends t d s.inst (s.inst.finish cfg t d ret res) ∧ _ := Instance.finish_ends ret res
    refine h.finish hc hcp hpc he hpc' (fun hk => killed_err hpc hjump ?_ hok hper) ?_ ?_ ?_
    · rw [← hkill t d ret hpc]
      exact hk
    · simp only [Instance.endings, hpc]
    · simp only [he.chans, List.drop_length, List.append_nil]
    · simp only [Instance.joins, List.append_nil]
  · cases hth

/-- **The receiving end of some channel takes a step.** -/
theorem reports_receiver (hc : Instance.Custody s.inst) (h : Reports s c) {ch : ChanId} {b : RecvAct}
    (hst : s.step cfg (.receiver ch b) = some s') : Reports s' c := by
  obtain ⟨inst, hinst, rfl⟩ := Option.map_eq_some_iff.1 hst
  have hrec : s.endings c ++ s.inst.endings (.receiver ch b) c = s.endings c := by
    rw [endings_nil (fun t res he => by cases he), List.append_nil]
  obtain ⟨chan, taken, n, hs, -, -, hx⟩ := Instance.receiverStep_some hinst
  have hcos : inst.cos = s.inst.cos := by rw [hs]
  have hths : inst.threads = s.inst.threads := by rw [hs]
  by_cases hch : ch = .join c
  · subst hch
    have hb := (hc.exits c).bound
    have hn : inst.received (.join c) = n := by rw [hs]; exact Function.update_self _ _ _
    have hchan : inst.chans (.join c) = chan := by rw [hs]; exact Function.update_self _ _ _
    refine h.receive (n := n) hcos hths hb (by rw [hchan]; exact hx) hrec ?_ ?_
    · simp only [hchan]
      cases hx with
      | same hsame => rw [hsame.queue, List.drop_length, List.append_nil]
      | took res htry => rw [Chan.popQueue, List.drop_eq_nil_of_le (by rw [List.length_tail]; omega), List.append_nil]
      | handed hbound =>
        rw [hb] at hbound
        cases hbound
      | dropped => rw [Chan.dropReceiver, List.drop_nil, List.append_nil]
    · simp only [joins_receiver hb hinst, hn]
  · have hsame : inst.chans (.join c) = s.inst.chans (.join c) := by
      rw [hs]
      exact Function.update_of_ne (fun he => hch he.symm) _ _
    have hnone : s.inst.joins (.receiver ch b) c = [] := by
      unfold Instance.joins
      split
      · rename_i d c' he
        cases he
        exact if_neg (fun hcd => hch (by rw [hcd]))
      · rename_i d c' he
        cases he
        exact if_neg (fun hcd => hch (by rw [hcd]))
      · rfl
    refine h.keep hrec (by simp only [hsame, List.drop_length, List.append_nil]) ?_ (by rw [hcos])
      (by rw [hsame]; exact .rfl' _) (fun i ret j hp hj => ?_)
    · simp only [hnone, List.append_nil]
    · rw [hths] at hp
      exact h.job_of_pc hp hj

/-- **Every step keeps it**, whatever the scheduler does. -/
theorem reports_step (hc : Instance.Custody s.inst) (hcp : cfg.catchPanics = true)
    (hkill : ∀ t d ret, (s.inst.threads t).pc = .exec d ret .user → (s.inst.cos d).killed = ret.kills)
    (hjump : Instance.Jumped s.inst) (h : ∀ c, Reports s c) (hok : s.inst.uncaught a) (hst : s.step cfg a = some s')
    (c : Nat) : Reports s' c := by
  by_cases hfin : ∃ t res, a = .thread t (.user (.finish res))
  · obtain ⟨t, res, rfl⟩ := hfin
    exact reports_finish hc hcp hkill hjump (h c) hok hst
  by_cases hrecv : ∃ ch b, a = .receiver ch b
  · obtain ⟨ch, b, rfl⟩ := hrecv
    exact reports_receiver hc (h c) hst
  obtain ⟨inst, hinst, rfl⟩ := Option.map_eq_some_iff.1 hst
  have hr : Reports.Carries s
      { inst := inst
        endings := fun c => s.endings c ++ s.inst.endings a c
        sent := fun c => s.sent c ++ (inst.chans (.join c)).queue.drop (s.inst.chans (.join c)).queue.length
        joined := fun c => s.joined c ++ s.inst.joins a c } c := by
    refine ⟨?_, ?_, rfl⟩
    · simp only [endings_nil (fun t res he => hfin ⟨t, res, he⟩), List.append_nil]
    · simp only [joins_nil (fun ch b he => hrecv ⟨ch, b, he⟩), List.append_nil]
  cases Instance.step_kind hc.engagement hinst with
  | lands t b hl => exact (h c).lands hr Iff.rfl (fun _ => rfl) rfl hl
  | switches t d ret u hpc hu hl => exact (h c).lands hr Iff.rfl (fun _ => rfl) rfl hl
  | job t d ret j j' b hpc hjob hq hpc' => exact (h c).goesOn hcp hr hpc hjob hq hpc'
  | spawn t d ret id slab hpc =>
    have hfresh := (hc.fresh s.inst.coN (Nat.le_refl _)).2.1
    refine (h c).carried (t := t) hr ?_ (.rfl' _) (fun i ret' j hp _ hi => ?_) (fun ret' j hp hj => ?_)
    · rw [Instance.setThread_cos, Instance.cos_setCo]
      split
      · rename_i hcn
        subst hcn
        exact iff_of_false (fun hf => by cases hf) hfresh
      · refine Instance.setCo_finished ?_ c
        exact Iff.rfl
    · rwa [Instance.setThread_ne _ _ hi] at hp
    · rw [Instance.setThread_self] at hp
      cases hp
      cases hj
  | finish t d ret res => exact (hfin ⟨t, res, rfl⟩).elim
  | exits t d ret res pc chan n b hpc hs hd hstep hm hq hpc' =>
    subst hm
    exact (h c).exits hc hr hpc hs hd hstep hq hpc'
  | exited t d ret res b hpc hs hl => exact (h c).lands hr Iff.rfl (fun _ => rfl) rfl hl
  | lost t d why b hfree hh hm hl hwhy hpc' =>
    subst hm
    refine (h c).lands hr (Instance.setCo_finished ?_ c) (fun _ => rfl) rfl hl
    exact Iff.rfl
  | detach t d l k slab b hfree hh hm =>
    subst hm
    refine (h c).carried (t := t) hr (Instance.setCo_finished ?_ c) (.rfl' _) (fun i ret' j hp _ hi => ?_)
      (fun ret' j hp hj => ?_)
    · exact Iff.rfl
    · rwa [Instance.threads_send, Instance.setThread_ne _ _ hi] at hp
    · rw [Instance.threads_send, Instance.setThread_self] at hp
      cases hp
  | attach t d id slab rest b hin hpc =>
    refine (h c).carried (t := t) hr (Instance.setCo_finished ?_ c) (.rfl' _) (fun i ret' j hp _ hi => ?_)
      (fun ret' j hp hj => ?_)
    · exact Iff.rfl
    · rwa [Instance.setThread_ne _ _ hi] at hp
    · rw [Instance.setThread_self] at hp
      cases hp
  | outside hout hq hpc =>
    refine (h c).carried (t := 0) hr (hq.finished c) (hq.chans c) (fun i ret j hp _ hi => ?_) (fun ret j hp hj => ?_)
    · rwa [hq.pc i hi] at hp
    · rw [hpc] at hp
      exact (h c).job_of_pc hp hj
  | receiver d b => exact (hrecv ⟨_, _, rfl⟩).elim

/-- The step condition of this module: user code neither blocks nor yields while it is being unwound, nor does it catch
the kill. -/
def civil (s : Recorded S w α) (a : Action α) : Prop := s.inst.unwinds a ∧ s.inst.uncaught a

variable {bound : Nat → Option Nat}

theorem reach_inst {ok : Recorded S w α → Action α → Prop} {okInst : Instance S w α → Action α → Prop}
    (hok : ∀ s a, ok s a → okInst s.inst a) (h : (recorded S w α cfg bound).Reach ok s) :
    (mioco S w α cfg bound).Reach okInst s.inst := by
  refine h.map inst (fun s h0 => ?_) (fun s a s' _ ha hst => .inr ?_)
  · cases (show s = Recorded.start S w bound from h0)
    constructor
  · obtain ⟨inst, hinst, rfl⟩ := Option.map_eq_some_iff.1 hst
    exact ⟨a, hok s a ha, hinst⟩

theorem reach_unwinds (h : (recorded S w α cfg bound).Reach civil s) :
    (mioco S w α cfg bound).Reach (fun s a => s.unwinds a) s.inst :=
  reach_inst (fun _ _ hok => hok.1) h

theorem reports (hcp : cfg.catchPanics = true) (h : (recorded S w α cfg bound).Reach civil s) : ∀ c, Reports s c := by
  have hboth : (recorded S w α cfg bound).Reach civil s ∧ ∀ c, Reports s c := by
    induction h with
    | init h0 =>
      refine ⟨.init h0, fun c => ?_⟩
      cases (show _ = Recorded.start S w bound from h0)
      have hc : Instance.Custody (Instance.start S w bound : Instance S w α) := Instance.Custody.init S w α bound
      have hlive : ((Instance.start S w bound : Instance S w α).cos c).state ≠ .finished := by
        simp only [Instance.start, Function.update_apply]
        split <;> simp [Coroutine.new]
      have hidle : ∀ i, ((Instance.start S w bound : Instance S w α).threads i).pc = .starting := by
        intro i
        simp only [Instance.start, Function.update_apply]
        split <;> rfl
      refine ⟨fun _ => rfl, fun hfin => (hlive hfin).elim, .inl rfl, fun i ret j hp => ?_, fun v b hs => (by cases hs),
        fun pc hs hi => ?_, fun i ret hp => ?_, fun _ => rfl, List.prefix_rfl, fun _ => rfl⟩
      · rw [show (start S w bound : Recorded S w α).inst.threads i = (Instance.start S w bound).threads i from rfl,
          hidle] at hp
        cases hp
      · cases hs
        exact (hi rfl).elim
      · rw [show (start S w bound : Recorded S w α).inst.threads i = (Instance.start S w bound).threads i from rfl,
          hidle] at hp
        cases hp
    | next hr hok hst ih =>
      have hu := reach_unwinds ih.1
      obtain ⟨g, hs, -⟩ := Instance.sound_reach hu
      exact ⟨.next ih.1 hok hst, reports_step (Instance.Custody.reach hu) hcp
        (fun t d ret hpc => Instance.running_killed hs hpc rfl) (Instance.jumped hu) ih.2 hok.2 hst⟩
  exact hboth.2

end Recorded

namespace Instance
variable {S : Sched} {w : Nat} {α : Type} {s s' : Instance S w α} {t c : Nat} {cfg : Config} {a : Action α}

/-- No stale handle: the coroutine that ends is in the slab. -/
theorem finish_removes {g : Nat → Nat} (hs : Sound (s.pool g)) {ret : Ret} (hpc : (s.threads t).pc = .exec c ret .user) :
    ∃ slab, (s.threads t).coroutines.remove (s.cos c).id = some slab := by
  have hst : ((s.pool g).desks t).stage = .running c ret := stage_exec hpc
  have hfits := (hs.desk t).fits
  rw [hst] at hfits
  exact Slab.remove_isSome ((hs.desk t).stored.placed c ((hs.desk t).running_own hst) hfits.2)

/-- **`coroutines_num` counts the coroutines that have not completed.** -/
theorem counted_step {g : Nat → Nat} (hc : Custody s) (hs : Sound (s.pool g)) (h : s.coroutinesNum ≤ s.unfinished.card)
    (hst : s.step cfg a = some s') : s'.coroutinesNum ≤ s'.unfinished.card := by
  by_cases hspawn : ∃ t id, a = .thread t (.user (.spawn id))
  · obtain ⟨t, id, rfl⟩ := hspawn
    obtain ⟨-, -, hst⟩ := step_thread hst
    simp only [threadStep, user] at hst
    split at hst
    · rename_i c ret hpc
      split at hst
      · have hs' := Option.some.inj hst
        have hn : s'.coN = s.coN + 1 := by rw [← hs']; rfl
        have hnum : s'.coroutinesNum = s.coroutinesNum + 1 := by rw [← hs']; rfl
        have hco : ∀ x, (s'.cos x).state = if x = s.coN then .ready else (s.cos x).state := by
          intro x
          rw [← hs', setThread_cos, cos_setCo]
          split
          · rfl
          · show (Instance.cos (setCo { s with coN := _, coroutinesNum := _ } c _) x).state = _
            rw [cos_setCo]
            split
            · rename_i hx
              rw [hx]
            · rfl
        have hsub : insert s.coN s.unfinished ⊆ s'.unfinished := by
          intro x hx
          rw [mem_unfinished, hn, hco]
          rcases Finset.mem_insert.1 hx with rfl | hx
          · rw [if_pos rfl]
            exact ⟨Nat.lt_succ_self _, by simp⟩
          · obtain ⟨hlt, hlive⟩ := mem_unfinished.1 hx
            rw [if_neg (Nat.ne_of_lt hlt)]
            exact ⟨Nat.lt_succ_of_lt hlt, hlive⟩
        have hnew : s.coN ∉ s.unfinished := fun hmem => Nat.lt_irrefl _ (mem_unfinished.1 hmem).1
        have hcard := Finset.card_le_card hsub
        rw [Finset.card_insert_of_notMem hnew] at hcard
        omega
      · cases hst
    · cases hst
  · have hn : (∀ t res, a ≠ .thread t (.user (.finish res))) → s'.coroutinesNum ≤ s'.unfinished.card := by
      intro hfinish
      have hcounts : s'.counts = s.counts := by
        refine step_counts hst (fun t u hu => ⟨fun id hid => hspawn ⟨t, id, ?_⟩, fun res hres => hfinish t res ?_⟩)
        · rw [hu, hid]
        · rw [hu, hres]
      obtain ⟨hn, hnum, -⟩ : s'.coN = s.coN ∧ s'.coroutinesNum = s.coroutinesNum ∧ s'.broadcasts = s.broadcasts := by
        simpa only [counts, Prod.mk.injEq] using hcounts
      have hsub : s.unfinished ⊆ s'.unfinished := by
        intro x hx
        obtain ⟨hlt, hlive⟩ := mem_unfinished.1 hx
        refine mem_unfinished.2 ⟨hn ▸ hlt, fun hf => ?_⟩
        rcases (step_finished hc hst x).2 hf with hf | he
        · exact hlive hf
        · unfold ending at he
          split at he
          · exact hfinish _ _ rfl
          · cases he
      rw [hnum]
      exact h.trans (Finset.card_le_card hsub)
    by_cases hfinish : ∃ t res, a = .thread t (.user (.finish res))
    · obtain ⟨t, res, rfl⟩ := hfinish
      obtain ⟨-, -, hst⟩ := step_thread hst
      simp only [threadStep, user] at hst
      split at hst
      · rename_i c ret hpc
        have hrun := running_unfinished hc hpc
        obtain ⟨slab, hslab⟩ := finish_removes hs hpc
        have hs' := Option.some.inj hst
        have he : Ends t c s (s.finish cfg t c ret res) := (finish_ends ret res).1
        have hnum : s'.coroutinesNum = s.coroutinesNum - 1 := by
          rw [← hs']
          simp only [finish, hslab]
          rfl
        have hsub : s.unfinished.erase c ⊆ s'.unfinished := by
          intro x hx
          obtain ⟨hxc, hx⟩ := Finset.mem_erase.1 hx
          obtain ⟨hlt, hlive⟩ := mem_unfinished.1 hx
          rw [← hs', mem_unfinished, he.coN, he.co, Function.update_of_ne hxc]
          exact ⟨hlt, hlive⟩
        have hcard := Finset.card_le_card hsub
        rw [Finset.card_erase_of_mem hrun] at hcard
        omega
      · cases hst
    · exact hn (fun t res he => hfinish ⟨t, res, he⟩)

theorem counted {bound : Nat → Option Nat} (h : (mioco S w α cfg bound).Reach (fun s a => s.unwinds a) s) :
    s.unfinished.card = s.coroutinesNum := by
  refine Nat.le_antisymm (Numbered.reach h).count ?_
  have hboth : (mioco S w α cfg bound).Reach (fun s a => s.unwinds a) s ∧ s.coroutinesNum ≤ s.unfinished.card := by
    induction h with
    | init h0 =>
      refine ⟨.init h0, ?_⟩
      cases (show _ = Instance.start S w bound from h0)
      exact Finset.card_pos.2 ⟨0, mem_unfinished.2 ⟨Nat.one_pos, by simp [start, Coroutine.new]⟩⟩
    | next hr hok hst ih =>
      obtain ⟨g, hs, -⟩ := sound_reach ih.1
      exact ⟨.next ih.1 hok hst, counted_step (Custody.reach ih.1) hs ih.2 hst⟩
  exact hboth.2

/-- **A coroutine that was killed is run to its end**, and nothing else happens on its thread. -/
theorem killed_runs {g : Nat → Nat} (hs : Sound (s.pool g)) (hl : (s.pool g).Settled) (hjump : Jumped s)
    (hk : (s.cos c).killed = true) (hf : (s.cos c).state ≠ .finished) :
    ∃ t ret j, (s.threads t).pc = .exec c ret j ∧ j.live = true ∧ ret.kills = true ∧
      (s.lastJump c = some .unwindStack ∨ s.lastJump c = some .killedAtStart) := by
  cases hh : (s.cos c).handler with
  | none =>
    have hnot : (s.cos c).killed = false := (hl c hh).killed
    rw [hk] at hnot
    cases hnot
  | some t =>
    have hruns : (Stage.ofPc (s.threads t).pc).runs = some c := (hs.desk t).kin.dead c hh hk hf
    cases hpc : (s.threads t).pc with
    | exec d ret j =>
      rw [hpc, Stage.ofPc] at hruns
      split at hruns
      · rename_i hj
        cases hruns
        have hret := (hs.desk t).fits
        rw [stage_exec hpc, if_pos hj] at hret
        have hkills : ret.kills = true := hret.1.symm.trans hk
        refine ⟨t, ret, j, hpc, hj, hkills, ?_⟩
        obtain ⟨jump, hlast, hres⟩ := hjump t c ret j hpc hj
        cases jump with
        | resume =>
          rw [hres.1 rfl] at hkills
          cases hkills
        | unwindStack => exact .inl hlast
        | killedAtStart => exact .inr hlast
      · cases hruns
    | _ =>
      rw [hpc] at hruns
      cases hruns

/-- The completion of a coroutine. -/
theorem finish_completes {g : Nat → Nat} (hc : Custody s) (hs : Sound (s.pool g))
    (hn : s.unfinished.card = s.coroutinesNum) {ret : Ret} (hpc : (s.threads t).pc = .exec c ret .user)
    (res : ExitStatus α) : ((s.finish cfg t c ret res).cos c).state = .finished ∧
      ((s.finish cfg t c ret res).threads t).coroutines.get (s.cos c).id = none ∧
      (s.finish cfg t c ret res).coroutinesNum + 1 = s.coroutinesNum := by
  obtain ⟨slab, hslab⟩ := finish_removes hs hpc
  have hpos := Finset.card_pos.2 ⟨c, running_unfinished hc hpc⟩
  have hget := (Slab.remove_some hslab).2.1 (s.cos c).id
  rw [if_pos rfl] at hget
  simp only [finish, hslab]
  refine ⟨?_, ?_, ?_⟩
  · rw [setThread_cos]
    show ((s.setCo c _).cos c).state = _
    rw [setCo_self]
  · rw [setThread_self]
    exact hget
  · show s.coroutinesNum - 1 + 1 = s.coroutinesNum
    omega

/-- The kill of a coroutine that has ended. -/
theorem kill_finished (hf : (s.cos c).state = .finished) {ret : Ret} (hret : ret.kills = true) :
    ∃ pc, pc.engaged = none ∧ s.kill t c ret = (s.setCo c { s.cos c with killed := true }).setPc t pc := by
  have hjump : s.kill t c ret = (s.setCo c { s.cos c with killed := true }).leave t c ret := by
    rw [kill, jumpIn, if_pos (by rw [setCo_self]; exact hf)]
  rw [hjump]
  cases ret with
  | resumed k => cases hret
  | _ => exact ⟨_, rfl, rfl⟩

end Instance

/-- **Exactly one completion.** -/
structure CompletesOnce {S : Sched} {w : Nat} {α : Type} (s : Recorded S w α) : Prop where
  once : ∀ c, (s.endings c).length ≤ 1 ∧ ((s.inst.cos c).state = .finished ↔ s.endings c ≠ [])
  removed : ∀ t id c, (s.inst.threads t).coroutines.get id = some c → (s.inst.cos c).state ≠ .finished
  counted : s.inst.unfinished.card = s.inst.coroutinesNum
  /-- what the end of a function does -/
  completes : ∀ cfg t c ret res, (s.inst.threads t).pc = .exec c ret .user →
    ((s.inst.finish cfg t c ret res).cos c).state = .finished ∧
      ((s.inst.finish cfg t c ret res).threads t).coroutines.get (s.inst.cos c).id = none ∧
      (s.inst.finish cfg t c ret res).coroutinesNum + 1 = s.inst.coroutinesNum
  sent : ∀ c, s.sent c <+: s.statuses c
  /-- whoever was killed before its function ended is being run to the end, by `unwind_stack` if it had run before -/
  unwound : ∀ c, (s.inst.cos c).killed = true → (s.inst.cos c).state ≠ .finished →
    ∃ t ret j, (s.inst.threads t).pc = .exec c ret j ∧ j.live = true ∧ ret.kills = true ∧
      (s.inst.lastJump c = some .unwindStack ∨ s.inst.lastJump c = some .killedAtStart)
  /-- the other kills -/
  idle : ∀ t c ret, ret.kills = true → (s.inst.cos c).state = .finished →
    ∃ pc, pc.engaged = none ∧ s.inst.kill t c ret = (s.inst.setCo c { s.inst.cos c with killed := true }).setPc t pc
  killed : ∀ c, ∀ e ∈ s.endings c, e.killed = true → e.res = .err
  /-- what `join` receives -/
  joined : ∀ c, s.joined c <+: s.statuses c
  /-- the channel closes behind the status -/
  answered : ∀ c, (s.inst.chans (.join c)).receiver = true → (s.inst.chans (.join c)).tryRecv = .disconnected →
    s.joined c = s.statuses c ∧ (s.inst.cos c).state = .finished

namespace Recorded
variable {S : Sched} {w : Nat} {α : Type} {s : Recorded S w α} {cfg : Config} {bound : Nat → Option Nat}

/-- **Every coroutine completes at most once, a kill makes it complete, and `join` returns what its function did.** -/
theorem completes (hcp : cfg.catchPanics = true) (h : (recorded S w α cfg bound).Reach civil s) :
    CompletesOnce s := by
  have hu := reach_unwinds h
  have hc := Instance.Custody.reach hu
  obtain ⟨g, hs, hl⟩ := Instance.sound_reach hu
  have hr := reports hcp h
  have hends : ∀ c, (s.inst.cos c).state ≠ .finished ∧ s.endings c = [] ∨
      (s.inst.cos c).state = .finished ∧ ∃ e, s.endings c = [e] ∧ (e.killed = true → e.res = .err) := by
    intro c
    by_cases hf : (s.inst.cos c).state = .finished
    · exact .inr ⟨hf, (hr c).ended hf⟩
    · exact .inl ⟨hf, (hr c).alive hf⟩
  have hsent : ∀ c, s.sent c <+: s.statuses c := by
    intro c
    rcases (hr c).sent with he | he
    · rw [he]
      exact List.nil_prefix
    · rw [he]
  refine ⟨fun c => ?_, fun t id c hg => ((hs.desk t).stored.stored id c hg).2.2, Instance.counted hu,
    fun cfg t c ret res hpc => Instance.finish_completes hc hs (Instance.counted hu) hpc res, hsent,
    fun c hk hf => Instance.killed_runs hs hl (Instance.jumped hu) hk hf, fun t c ret hret hf => Instance.kill_finished hf hret,
    fun c e he hk => ?_, fun c => (hr c).joined.trans (hsent c), fun c hopen hdis => ?_⟩
  · rcases hends c with ⟨hf, he⟩ | ⟨hf, e, he, -⟩
    · rw [he]
      exact ⟨Nat.zero_le _, iff_of_false hf (by simp)⟩
    · rw [he]
      exact ⟨Nat.le_refl _, iff_of_true hf (by simp)⟩
  · rcases hends c with ⟨-, hnil⟩ | ⟨-, e', hone, hres⟩
    · rw [hnil] at he
      cases he
    · rw [hone, List.mem_singleton] at he
      subst he
      exact hres hk
  · obtain ⟨pc, hpc, -⟩ := (hc.exits c).sender
    have hq : (s.inst.chans (.join c)).queue = [] ∧ pc = .dropped := by
      unfold Chan.tryRecv at hdis
      split at hdis
      · cases hdis
      · rename_i hq
        split at hdis
        · rename_i hd
          rw [Chan.disconnected, hpc, List.all_cons, List.all_nil, Bool.and_true] at hd
          refine ⟨hq, ?_⟩
          cases pc <;> first | rfl | cases hd
        · cases hdis
    obtain ⟨hq, rfl⟩ := hq
    have hall := (hr c).queue hopen
    rw [hq, List.append_nil] at hall
    refine ⟨?_, ?_⟩
    · rcases (hr c).told _ hpc (by simp) (by simp) with he | he
      · rw [← hall, he]
      · rw [hopen] at he
        cases he
    · by_contra hf
      rw [(hc.unsent c hf).1.sender] at hpc
      cases hpc

instance (s : Instance S w α) : (a : Action α) → Decidable (s.uncaught a)
  | .thread t (.user (.finish (.ok _))) => inferInstanceAs (Decidable (s.unwindsStack t = false))
  | .thread _ (.user (.finish .err)) | .thread _ (.user (.select _)) | .thread _ (.user .yieldNow)
  | .thread _ (.user (.spawn _)) | .thread _ (.user .shutdown) | .thread _ .start
  | .thread _ .tick | .thread _ (.notify _) | .thread _ .ready | .thread _ (.timeout _) | .thread _ .stop
  | .thread _ (.sched _) | .thread _ (.register _ _ _) | .thread _ .next | .sender _ _ _ | .receiver _ _
  | .ioReady _ _ _ => isTrue trivial

instance (s : Recorded S w α) (a : Action α) : Decidable (civil s a) := inferInstanceAs (Decidable (_ ∧ _))

end Recorded
end Mioco
