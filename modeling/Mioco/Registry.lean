import Mioco.ChannelCount
import Mioco.Completion
import Mioco.Pool
/-!
# Who is registered where (src/coroutine.rs, src/timer.rs, src/sync/mpsc.rs, src/evented.rs)

Three tables hold registrations: the tokens of the channels, the timeouts and the mio sources of the event loops.
`Entry` sorts the steps by what they do to these, and to the `blocked_on` lists.
-/
namespace Mioco

open Lib (Slab)

/-- What a coroutine blocks on, and where and when it began to. -/
def Coroutine.ties (co : Coroutine) : List Src × Option Nat × Nat × Nat × List Src × List Reg :=
  (co.blockedOn, co.handler, co.id, co.sel, co.selected, co.inFlight)

/-- A coroutine runs, or its sources are being registered. -/
@[simp] def Pc.isBusy {α : Type} : Pc α → Bool
  | .exec _ _ _ | .register _ _ _ _ => true
  | _ => false

namespace Instance
variable {S : Sched} {w : Nat} {α : Type} {s m s' : Instance S w α} {t c : Nat} {cfg : Config}
  {P : Nat → Reg → Event → Prop}

/-- A notification or an event of registration `r` is sent to loop `l`. -/
def Calls (s : Instance S w α) (l : Nat) (r : Reg) : Prop :=
  (∃ ch, (s.chans ch).token = some r ∧ (s.chans ch).sender = some l) ∨ ∃ n, (s.threads l).ios n = some r

/-- Where control goes, as far as coroutines are concerned. -/
inductive Turn (cos : Nat → Coroutine) : Pc α → Pc α → Prop
  | stays (pc : Pc α) : Turn cos pc pc
  | goesOn (c : Nat) (ret : Ret) (j j' : Job α) : Turn cos (.exec c ret j) (.exec c ret j')
  | enters (pc : Pc α) (c : Nat) (ret : Ret) (j : Job α) : (ret.kills = true → (cos c).killed = true) →
      Turn cos pc (.exec c ret j)
  | registers (pc : Pc α) (c : Nat) (next : AfterRegister) : Turn cos pc (.register c (cos c).blockedOn none next)
  | elsewhere (pc pc' : Pc α) : pc'.isBusy = false → Turn cos pc pc'

/-- **No registration is made or removed**, and no coroutine blocks on anything else than before; `P` says what wakes
one. -/
structure Keeps (t : Nat) (P : Nat → Reg → Event → Prop) (s s' : Instance S w α) : Prop where
  token : ∀ ch, (s'.chans ch).token = (s.chans ch).token
  sender : ∀ ch, (s'.chans ch).sender = (s.chans ch).sender
  ios : ∀ i, (s'.threads i).ios = (s.threads i).ios
  wheel : ∀ i, (s'.threads i).wheel = (s.threads i).wheel
  timeouts : s'.timeouts = s.timeouts
  ties : ∀ c, (s'.cos c).ties = (s.cos c).ties
  blocked : ∀ c, (s'.cos c).state = .blocked → (s.cos c).state = .blocked
  killed : ∀ c, (s.cos c).killed = true → (s'.cos c).killed = true
  news : ∀ c, (s'.cos c).wokenBy = (s.cos c).wokenBy ∧ (s'.cos c).lastEvent = (s.cos c).lastEvent ∨
    ∃ r, (s'.cos c).wokenBy = some r ∧ P c r (s'.cos c).lastEvent
  flight : ∀ i r, r ∈ inFlightTo (s'.threads i) → r ∈ inFlightTo (s.threads i) ∨ s.Calls i r
  pc : ∀ i, i ≠ t → (s'.threads i).pc = (s.threads i).pc
  turn : Turn s'.cos (s.threads t).pc (s'.threads t).pc

namespace Turn

theorem mono {cos cos' : Nat → Coroutine} {pc pc' : Pc α} (h : Turn cos pc pc')
    (hb : ∀ c, (cos' c).blockedOn = (cos c).blockedOn)
    (hk : ∀ c, (cos c).killed = true → (cos' c).killed = true) : Turn cos' pc pc' := by
  cases h with
  | stays => exact .stays pc
  | goesOn c ret j j' => exact .goesOn c ret j j'
  | enters _ c ret j hkill => exact .enters pc c ret j (fun h => hk c (hkill h))
  | registers _ c next =>
    rw [← hb c]
    exact .registers pc c next
  | elsewhere _ _ h => exact .elsewhere pc pc' h

theorem trans {cos : Nat → Coroutine} {pc pc' pc'' : Pc α} (h : Turn cos pc pc') (h' : Turn cos pc' pc'') :
    Turn cos pc pc'' := by
  cases h' with
  | stays => exact h
  | goesOn c ret j j' =>
    cases h with
    | stays => exact .goesOn c ret j j'
    | goesOn _ _ j₀ _ => exact .goesOn c ret j₀ j'
    | enters _ _ _ _ hk => exact .enters pc c ret j' hk
    | elsewhere _ _ hb => cases hb
  | enters _ c ret j hk => exact .enters pc c ret j hk
  | registers _ c next => exact .registers pc c next
  | elsewhere _ _ hb => exact .elsewhere pc pc'' hb

end Turn

namespace Keeps

theorem refl (t : Nat) (s : Instance S w α) : Keeps t P s s :=
  ⟨fun _ => rfl, fun _ => rfl, fun _ => rfl, fun _ => rfl, rfl, fun _ => rfl, fun _ h => h, fun _ h => h,
    fun _ => .inl ⟨rfl, rfl⟩, fun _ _ h => .inl h, fun _ _ => rfl, .stays _⟩

theorem blockedOn (h : Keeps t P s s') (c : Nat) : (s'.cos c).blockedOn = (s.cos c).blockedOn :=
  congrArg Prod.fst (h.ties c)
theorem handler (h : Keeps t P s s') (c : Nat) : (s'.cos c).handler = (s.cos c).handler :=
  congrArg (fun x => x.2.1) (h.ties c)
theorem id (h : Keeps t P s s') (c : Nat) : (s'.cos c).id = (s.cos c).id := congrArg (fun x => x.2.2.1) (h.ties c)
theorem sel (h : Keeps t P s s') (c : Nat) : (s'.cos c).sel = (s.cos c).sel := congrArg (fun x => x.2.2.2.1) (h.ties c)
theorem selected (h : Keeps t P s s') (c : Nat) : (s'.cos c).selected = (s.cos c).selected :=
  congrArg (fun x => x.2.2.2.2.1) (h.ties c)
theorem inFlight (h : Keeps t P s s') (c : Nat) : (s'.cos c).inFlight = (s.cos c).inFlight :=
  congrArg (fun x => x.2.2.2.2.2) (h.ties c)

theorem trans (h : Keeps t P s m) (h' : Keeps t P m s') : Keeps t P s s' where
  token ch := (h'.token ch).trans (h.token ch)
  sender ch := (h'.sender ch).trans (h.sender ch)
  ios i := (h'.ios i).trans (h.ios i)
  wheel i := (h'.wheel i).trans (h.wheel i)
  timeouts := h'.timeouts.trans h.timeouts
  ties c := (h'.ties c).trans (h.ties c)
  blocked c hb := h.blocked c (h'.blocked c hb)
  killed c hk := h'.killed c (h.killed c hk)
  news c := by
    rcases h'.news c with ⟨hw, he⟩ | hnew
    · rw [hw, he]
      exact h.news c
    · exact .inr hnew
  flight i r hr := by
    rcases h'.flight i r hr with hm | ⟨ch, ht, hs⟩ | ⟨n, hn⟩
    · exact h.flight i r hm
    · rw [h.token] at ht
      rw [h.sender] at hs
      exact .inr (.inl ⟨ch, ht, hs⟩)
    · rw [h.ios] at hn
      exact .inr (.inr ⟨n, hn⟩)
  pc i hi := (h'.pc i hi).trans (h.pc i hi)
  turn := (h.turn.mono h'.blockedOn h'.killed).trans h'.turn

theorem after (h' : Keeps t P m s') (h : Keeps t P s m) : Keeps t P s s' := h.trans h'

end Keeps

/-! ## Edits -/

theorem keeps_setThread {th : Thread S α} (hio : th.ios = (s.threads t).ios) (hwh : th.wheel = (s.threads t).wheel)
    (hfl : ∀ r ∈ inFlightTo th, r ∈ inFlightTo (s.threads t)) (hpc : Turn s.cos (s.threads t).pc th.pc) :
    Keeps t P s (s.setThread t th) := by
  refine ⟨fun _ => rfl, fun _ => rfl, fun i => ?_, fun i => ?_, rfl, fun _ => rfl, fun _ h => h, fun _ h => h,
    fun _ => .inl ⟨rfl, rfl⟩, fun i r hr => ?_, fun i hi => ?_, ?_⟩
  · rw [threads_setThread]
    split
    · rename_i hi
      rw [hi, hio]
    · constructor
  · rw [threads_setThread]
    split
    · rename_i hi
      rw [hi, hwh]
    · constructor
  · rw [threads_setThread] at hr
    split at hr
    · rename_i hi
      exact .inl (hi ▸ hfl r hr)
    · exact .inl hr
  · rw [setThread_ne _ _ hi]
  · rw [setThread_self]
    exact hpc

/-- An edit of some thread that leaves its place in the code. -/
theorem keeps_setOther {l : Nat} {th : Thread S α} (hio : th.ios = (s.threads l).ios)
    (hwh : th.wheel = (s.threads l).wheel) (hfl : ∀ r ∈ inFlightTo th, r ∈ inFlightTo (s.threads l) ∨ s.Calls l r)
    (hpc : th.pc = (s.threads l).pc) : Keeps t P s (s.setThread l th) := by
  have hsame : ∀ i, ((s.setThread l th).threads i).pc = (s.threads i).pc := by
    intro i
    rw [threads_setThread]
    split
    · rename_i hi
      rw [hi, hpc]
    · constructor
  refine ⟨fun _ => rfl, fun _ => rfl, fun i => ?_, fun i => ?_, rfl, fun _ => rfl, fun _ h => h, fun _ h => h,
    fun _ => .inl ⟨rfl, rfl⟩, fun i r hr => ?_, fun i _ => hsame i, ?_⟩
  · rw [threads_setThread]
    split
    · rename_i hi
      rw [hi, hio]
    · constructor
  · rw [threads_setThread]
    split
    · rename_i hi
      rw [hi, hwh]
    · constructor
  · rw [threads_setThread] at hr
    split at hr
    · rename_i hi
      exact hi ▸ hfl r hr
    · exact .inl hr
  · rw [hsame]
    exact .stays _

theorem keeps_setPc {pc : Pc α} (hpc : Turn s.cos (s.threads t).pc pc) : Keeps t P s (s.setPc t pc) :=
  keeps_setThread rfl rfl (fun _ h => h) hpc

theorem keeps_panic (why : Panic) : Keeps t P s (s.panic t why) :=
  keeps_setThread rfl rfl (fun _ h => h) (.elsewhere _ _ rfl)

theorem keeps_setCo {co : Coroutine} (hties : co.ties = (s.cos c).ties)
    (hb : co.state = .blocked → (s.cos c).state = .blocked) (hk : (s.cos c).killed = true → co.killed = true)
    (hnews : co.wokenBy = (s.cos c).wokenBy ∧ co.lastEvent = (s.cos c).lastEvent ∨
      ∃ r, co.wokenBy = some r ∧ P c r co.lastEvent) : Keeps t P s (s.setCo c co) := by
  refine ⟨fun _ => rfl, fun _ => rfl, fun _ => rfl, fun _ => rfl, rfl, fun c' => ?_, fun c' => ?_, fun c' => ?_,
    fun c' => ?_, fun _ _ hr => .inl hr, fun _ _ => rfl, .stays _⟩
  all_goals
    by_cases hc : c' = c
    · subst hc
      rw [setCo_self]
      assumption
    · rw [setCo_ne _ _ hc]
      try first
        | exact fun h => h
        | exact .inl ⟨rfl, rfl⟩

theorem mem_inFlightTo {th : Thread S α} {r : Reg} :
    r ∈ inFlightTo th ↔ Message.channelMsg r ∈ th.inbox ∨ ∃ e, (r, e) ∈ th.batch := by
  unfold inFlightTo
  rw [List.mem_append, List.mem_filterMap]
  refine or_congr ⟨?_, fun h => ⟨_, h, rfl⟩⟩ ?_
  · rintro ⟨msg, hmem, hr⟩
    cases msg <;> cases hr
    exact hmem
  · simp

theorem keeps_send {l : Nat} {msg : Message} (h : ∀ r, msg = .channelMsg r → s.Calls l r) :
    Keeps t P s (s.send l msg) := by
  refine keeps_setOther rfl rfl (fun r hr => ?_) rfl
  rw [mem_inFlightTo] at hr ⊢
  rcases hr with hin | hb
  · rcases List.mem_append.1 hin with hold | hnew
    · exact .inl (.inl hold)
    · exact .inr (h r (List.mem_singleton.1 hnew).symm)
  · exact .inl (.inr hb)

theorem keeps_setChan {ch : ChanId} {chan : Chan w (ExitStatus α) Reg Nat} (ht : chan.token = (s.chans ch).token)
    (hs : chan.sender = (s.chans ch).sender) : Keeps t P s (s.setChan ch chan) := by
  refine ⟨fun ch' => ?_, fun ch' => ?_, fun _ => rfl, fun _ => rfl, rfl, fun _ => rfl, fun _ h => h, fun _ h => h,
    fun _ => .inl ⟨rfl, rfl⟩, fun _ _ hr => .inl hr, fun _ _ => rfl, .stays _⟩
  all_goals
    rw [chans_setChan]
    split
    · rename_i hc
      rw [hc]
      assumption
    · constructor

/-- What does not touch threads, coroutines, channels and timeouts. -/
theorem keeps_of_eq (hcos : s'.cos = s.cos) (hth : s'.threads = s.threads) (hch : s'.chans = s.chans)
    (hto : s'.timeouts = s.timeouts) : Keeps t P s s' := by
  refine ⟨fun _ => ?_, fun _ => ?_, fun _ => ?_, fun _ => ?_, hto, fun _ => ?_, fun c hb => ?_, fun c hk => ?_,
    fun _ => .inl ⟨?_, ?_⟩, fun i r hr => .inl ?_, fun _ _ => ?_, ?_⟩
  · rw [hch]
  · rw [hch]
  · rw [hth]
  · rw [hth]
  · rw [hcos]
  · rw [← hcos]
    exact hb
  · rw [hcos]
    exact hk
  · rw [hcos]
  · rw [hcos]
  · rw [← hth]
    exact hr
  · rw [hth]
  · rw [hth]
    exact .stays _

theorem keeps_edit {th : Thread S α} (hcos : m.cos = s.cos) (hth : m.threads = s.threads) (hch : m.chans = s.chans)
    (hto : m.timeouts = s.timeouts) (hio : th.ios = (s.threads t).ios) (hwh : th.wheel = (s.threads t).wheel)
    (hfl : ∀ r ∈ inFlightTo th, r ∈ inFlightTo (s.threads t)) (hpc : Turn s.cos (s.threads t).pc th.pc) :
    Keeps t P s (m.setThread t th) := by
  rw [← hth] at hio hwh hfl hpc
  rw [← hcos] at hpc
  exact (keeps_of_eq hcos hth hch hto).trans (keeps_setThread hio hwh hfl hpc)

/-! ## Into a coroutine and out of it -/

theorem keeps_leave (ret : Ret) : Keeps t P s (s.leave t c ret) := by
  cases ret with
  | resumed k => exact keeps_setPc (.registers _ _ _)
  | _ => exact keeps_setPc (.elsewhere _ _ rfl)

theorem keeps_jumpIn {ret : Ret} (hk : ret.kills = true → (s.cos c).killed = true) :
    Keeps t P s (s.jumpIn t c ret) := by
  unfold jumpIn
  split
  · exact keeps_leave ret
  · split
    · apply keeps_edit
      case hpc => exact .enters _ _ _ _ hk
      case hfl => exact fun _ h => h
      all_goals constructor
    · exact keeps_panic _

theorem keeps_kill (ret : Ret) : Keeps t P s (s.kill t c ret) := by
  unfold kill
  refine (keeps_jumpIn (fun _ => ?_)).after (keeps_setCo rfl (fun h => h) (fun _ => rfl) (.inl ⟨rfl, rfl⟩))
  rw [setCo_self]

theorem keeps_callback (k : Callback) (h : Option Handle) : Keeps t P s (s.callback t k h) :=
  keeps_setThread rfl rfl (fun _ h => h) (.elsewhere _ _ rfl)

theorem Flow.keeps (h : Flow t s s') : Keeps t P s s' := by
  induction h with
  | stays s _ => exact .refl t s
  | goes s held spawned ready sched pc hpc =>
    exact keeps_setThread rfl rfl (fun _ h => h) (.elsewhere _ _ (by cases pc <;> first | rfl | cases hpc))
  | jumps s c k => exact keeps_jumpIn (fun h => by cases h)
  | kills s c ret _ => exact keeps_kill ret
  | ends s _ => exact keeps_setThread rfl rfl (fun _ h => h) (.elsewhere _ _ rfl)
  | moves _ _ _ _ ih => exact ih.after (keeps_setThread rfl rfl (fun _ h => h) (.stays _))

theorem keeps_sched {choice : Nat} (hst : s.sched t choice = some s') : Keeps t P s s' := by
  simp only [sched] at hst
  split at hst
  · cases hst
    refine ((command_flow _ t _ _).keeps).after (Keeps.after (keeps_setThread rfl rfl (fun _ h => h) (.stays _)) ?_)
    exact keeps_of_eq rfl rfl rfl rfl
  · cases hst

/-! ## Registering -/

theorem keeps_registered {hit : Option (Event × Reg)} (next : AfterRegister) (hP : ∀ e r, hit = some (e, r) → P c r e) :
    Keeps t P s (s.registered t c hit next) := by
  cases hit with
  | none => exact (afterRegister_flow s t c next).keeps
  | some x =>
    obtain ⟨e, r⟩ := x
    refine (keeps_setPc (.elsewhere _ _ rfl)).after ?_
    exact keeps_setCo rfl (fun h => by cases h) (fun h => h) (.inr ⟨r, rfl, hP e r rfl⟩)

theorem keeps_afterResume (k : Callback) : Keeps t P s (s.afterResume t c k) := by
  have hdone : ∀ (co : Coroutine) (sp rd : List Handle), Keeps t P s (s.setCo c co) → Keeps t P s
      ((s.setCo c co).setThread t { s.threads t with spawned := sp, ready := rd, pc := .call k }) :=
    fun co sp rd h => h.trans (keeps_setThread rfl rfl (fun _ hr => hr) (.elsewhere _ _ rfl))
  simp only [afterResume]
  split
  · exact hdone _ _ _ (keeps_setCo rfl (fun h => by cases h) (fun h => h) (.inl ⟨rfl, rfl⟩))
  · exact hdone _ _ _ (keeps_setCo rfl (fun h => h) (fun h => h) (.inl ⟨rfl, rfl⟩))
  · exact hdone _ _ _ (keeps_setCo rfl (fun h => h) (fun h => h) (.inl ⟨rfl, rfl⟩))
  · exact hdone _ _ _ (keeps_setCo rfl (fun h => h) (fun h => h) (.inl ⟨rfl, rfl⟩))

/-! ## `mio::Handler` -/

/-- `Handler::ready` wakes a coroutine by registration `r`, or none. -/
theorem keeps_ready {r : Reg} {e : EventSet}
    (hP : ∀ c rw, (s.threads t).coroutines.get (tokenToIds r.token).1 = some c → (s.cos c).state = .blocked →
      P c r ⟨(tokenToIds r.token).2, rw⟩) : Keeps t P s (s.ready t r e) := by
  unfold ready
  split
  · exact keeps_setPc (.elsewhere _ _ rfl)
  · rename_i c hget
    split
    · rename_i hb
      split
      · exact keeps_panic _
      · rename_i rw hrw
        refine (keeps_setPc (.elsewhere _ _ rfl)).after ?_
        exact keeps_setCo rfl (fun h => by cases h) (fun h => h) (.inr ⟨r, rfl, hP c rw hget hb⟩)
    · exact keeps_setPc (.elsewhere _ _ rfl)

/-! ## The end of a coroutine -/

theorem keeps_notifyFrom {n : Notify Reg Nat} {pc : Pc α} (hpc : Turn s.cos (s.threads t).pc pc)
    (hn : ∀ l r, n = .channelMsg l r → s.Calls l r) : Keeps t P s (s.notifyFrom t pc n) := by
  cases n with
  | nothing => exact keeps_setPc hpc
  | channelMsg l r =>
    simp only [notifyFrom]
    split
    · refine (keeps_setPc hpc).trans (keeps_send (fun r' hr => ?_))
      cases hr
      rcases hn l r rfl with hch | ⟨k, hio⟩
      · exact .inl hch
      · refine .inr ⟨k, ?_⟩
        rw [setPc, threads_setThread]
        split
        · rename_i hl
          rw [← hl]
          exact hio
        · exact hio
    · exact keeps_panic _
  | unwrapNone => exact keeps_panic _

/-- A step of a sender notifies whoever is registered with the channel. -/
theorem keeps_setSender {ch : ChanId} {i : Nat} {a : SenderAct (ExitStatus α)} {chan : Chan w (ExitStatus α) Reg Nat}
    {n : Notify Reg Nat} (hst : (s.chans ch).senderStep i a = some (chan, n)) :
    Keeps t P s (s.setChan ch chan) ∧ ∀ l r, n = .channelMsg l r → (s.setChan ch chan).Calls l r := by
  obtain ⟨htok, hsend, hn⟩ := (senderStep_move hst).shared
  refine ⟨keeps_setChan htok hsend, fun l r he => ?_⟩
  rcases hn with hn | hn
  · rw [hn] at he
    cases he
  · rw [hn] at he
    obtain ⟨ht, hs⟩ := maybeNotifyReceiver_channelMsg he
    refine .inl ⟨ch, ?_, ?_⟩ <;> rw [chans_setChan, if_pos rfl]
    · rw [htok, ht]
    · rw [hsend, hs]

theorem keeps_exit {ret : Ret} {res : Option (ExitStatus α)} (hpc : (s.threads t).pc = .exec c ret (.exit res))
    (hst : s.exit t c ret res = some s') : Keeps t P s s' := by
  simp only [exit] at hst
  split at hst
  · cases hst
  · cases hst
    exact keeps_leave ret
  · split at hst
    · cases hst
    · rename_i chan n hstep
      cases hst
      obtain ⟨hkeep, hcalls⟩ := keeps_setSender (P := P) (t := t) hstep
      refine hkeep.trans (keeps_notifyFrom ?_ hcalls)
      rw [show ((s.setChan (.join c) chan).threads t).pc = .exec c ret (.exit res) from hpc]
      exact .goesOn c ret _ _

theorem keeps_job {ret : Ret} {j : Job α} (hpc : (s.threads t).pc = .exec c ret j)
    (hst : s.job cfg t c ret j = some s') : Keeps t P s s' := by
  have hgo : ∀ j', Turn s.cos (s.threads t).pc (.exec c ret j') := by
    intro j'
    rw [hpc]
    exact .goesOn c ret j j'
  have hsend : ∀ (m : Instance S w α) (l : Nat) (msg : Message), (∀ r, msg ≠ .channelMsg r) →
      Keeps t P m (m.send l msg) := fun m l msg hmsg => keeps_send (fun r hr => (hmsg r hr).elim)
  cases j with
  | user => cases hst
  | shutdown i =>
    simp only [job] at hst
    split at hst
    · cases hst
      exact (keeps_setPc (hgo _)).trans (hsend _ _ _ (by simp))
    · cases hst
      apply keeps_edit
      case hpc => exact hgo _
      case hfl => exact fun _ h => h
      all_goals constructor
  | terminate i res =>
    simp only [job] at hst
    split at hst
    · split at hst
      · cases hst
        have hsent := (hsend _ i .terminate (by simp)).after (keeps_setPc (hgo (.terminate (i + 1) res)))
        exact hsent.trans (keeps_setOther rfl rfl (fun _ h => .inl h) rfl)
      · cases hst
        exact keeps_panic _
    · cases hst
      exact keeps_setPc (hgo _)
  | propagate =>
    cases hst
    exact (keeps_setPc (hgo _)).trans (hsend _ _ _ (by simp))
  | exit res => exact keeps_exit hpc hst

/-! ## The sorts of steps -/

/-- The registration of source `src` for coroutine `c` with loop `t`. -/
def newReg (s : Instance S w α) (t c : Nat) (src : Src) : Reg where
  token := tokenFromIds (s.cos c).id (s.srcs src).id
  co := c
  sel := (s.cos c).sel
  src := src
  loop := t

/-- **What a step does to the tables and the `blocked_on` lists.** -/
inductive Entry (P : Nat → Reg → Event → Prop) (s : Instance S w α) : Action α → Instance S w α → Prop
  | keeps (t : Nat) {a : Action α} {s' : Instance S w α} : Keeps t P s s' → Entry P s a s'
  | fires (t slot tick : Nat) (r : Reg) {s' : Instance S w α} : (s.threads t).pc = .poll →
      (s.threads t).wheel slot = some (tick, r) →
      Keeps t P (s.setThread t { s.threads t with wheel := Function.update (s.threads t).wheel slot none }) s' →
      Entry P s (.thread t (.timeout slot)) s'
  | select (t c : Nat) (ret : Ret) (l : List (Src × RW)) : (s.threads t).pc = .exec c ret .user →
      Entry P s (.thread t (.user (.select l)))
        (({ s with srcs := selectAdd s.srcs (s.cos c).blockedOn.length l }.setCo c { s.cos c with
          state := .blocked, blockedOn := (s.cos c).blockedOn ++ l.map Prod.fst, sel := (s.cos c).sel + 1,
          selected := (s.cos c).blockedOn ++ l.map Prod.fst, inFlight := inFlightTo (s.threads t),
          wokenBy := none }).leave t c ret)
  | spawn (t c : Nat) (ret : Ret) (id : Nat) (children : List Nat) {s' : Instance S w α} :
      (s.threads t).pc = .exec c ret .user →
      Keeps t P ((s.setCo c { s.cos c with children := children }).setCo s.coN (Coroutine.new id (some t))) s' →
      Entry P s (.thread t (.user (.spawn id))) s'
  | finish (t c : Nat) (ret : Ret) (res : ExitStatus α) {s' : Instance S w α} : (s.threads t).pc = .exec c ret .user →
      Keeps t P (s.setCo c { s.cos c with blockedOn := [], state := .finished }) s' →
      Entry P s (.thread t (.user (.finish res))) s'
  | recv (t c : Nat) (ch : ChanId) (todo : List Src) (hit : Option (Event × Reg)) (next : AfterRegister)
      (due : Bool) (slot tick : Nat) : (s.threads t).pc = .register c (.recv ch :: todo) hit next →
      Entry P s (.thread t (.register due slot tick))
        ((s.setChan ch ((s.chans ch).register (s.newReg t c (.recv ch)) t).1).setPc t (.register c todo
          (if ((s.chans ch).register (s.newReg t c (.recv ch)) t).2 then
            some (⟨(s.srcs (.recv ch)).id, (s.srcs (.recv ch)).blockedOn⟩, s.newReg t c (.recv ch)) else hit) next))
  | due (t c n : Nat) (todo : List Src) (hit : Option (Event × Reg)) (next : AfterRegister)
      (slot tick : Nat) : (s.threads t).pc = .register c (.timer n :: todo) hit next →
      Entry P s (.thread t (.register true slot tick)) (s.setPc t (.register c todo
        (some (⟨(s.srcs (.timer n)).id, (s.srcs (.timer n)).blockedOn⟩, s.newReg t c (.timer n))) next))
  | timer (t c n : Nat) (todo : List Src) (hit : Option (Event × Reg)) (next : AfterRegister)
      (slot tick : Nat) : (s.threads t).pc = .register c (.timer n :: todo) hit next →
      (s.threads t).wheel slot = none →
      Entry P s (.thread t (.register false slot tick))
        ({ s with timeouts := Function.update s.timeouts n (some (slot, tick)) }.setThread t { s.threads t with
          wheel := Function.update (s.threads t).wheel slot (some (tick, s.newReg t c (.timer n)))
          pc := .register c todo hit next })
  | io (t c n : Nat) (todo : List Src) (hit : Option (Event × Reg)) (next : AfterRegister)
      (due : Bool) (slot tick : Nat) : (s.threads t).pc = .register c (.io n :: todo) hit next →
      (s.threads t).ios n = none →
      Entry P s (.thread t (.register due slot tick)) (s.setThread t { s.threads t with
        ios := Function.update (s.threads t).ios n (some (s.newReg t c (.io n))), pc := .register c todo hit next })
  | deregister (t c : Nat) (src : Src) (rest : List Src) (next : AfterDeregister) :
      (s.threads t).pc = .deregister c next → (s.cos c).blockedOn = src :: rest →
      Entry P s (.thread t .next) ((s.setCo c { s.cos c with blockedOn := rest }).deregisterSrc t src)
  | detach (t c l : Nat) (k : Callback) {s' : Instance S w α} : (s.threads t).pc = .deregister c (.migrate k l) →
      (s.cos c).blockedOn = [] → (s.cos c).handler = some t →
      Keeps t P (s.setCo c { s.cos c with handler := none }) s' → Entry P s (.thread t .next) s'
  | attach (t c id : Nat) (rest : List Message) {s' : Instance S w α} : (s.threads t).inbox = .migration c :: rest →
      (s.threads t).pc = .poll → Keeps t P (s.setCo c { s.cos c with id := id, handler := some t }) s' →
      Entry P s (.thread t (.notify id)) s'

theorem entry_detach {k : Callback} {l : Nat} (hpc : (s.threads t).pc = .deregister c (.migrate k l))
    (hb : (s.cos c).blockedOn = []) : Entry P s (.thread t .next) (s.detach cfg t c k l) := by
  simp only [detach]
  split
  · rename_i hh
    refine .detach t c l k hpc hb hh ?_
    have hcall : ∀ slab, Keeps t P (s.setCo c { s.cos c with handler := none })
        ((s.setCo c { s.cos c with handler := none }).setThread t
          { s.threads t with coroutines := slab, pc := .call k }) :=
      fun slab => keeps_setThread rfl rfl (fun _ h => h) (.elsewhere _ _ rfl)
    split
    · exact keeps_panic _
    · split
      · exact (keeps_panic _).after (hcall _)
      · split
        · exact (keeps_send (fun r hr => by cases hr)).after (hcall _)
        · exact (keeps_panic _).after (hcall _)
  · exact .keeps t (keeps_panic _)

theorem entry_register {due : Bool} {slot tick : Nat} (h : s.register t due slot tick = some s') :
    Entry P s (.thread t (.register due slot tick)) s' := by
  simp only [register] at h
  split at h
  · rename_i c src todo hit next hpc
    cases src with
    | recv ch =>
      cases h
      exact .recv t c ch todo hit next due slot tick hpc
    | timer n =>
      simp only at h
      split at h
      · rename_i hdue
        cases h
        subst hdue
        exact .due t c n todo hit next slot tick hpc
      · rename_i hdue
        split at h
        · rename_i hfree
          cases h
          cases due with
          | true => exact absurd rfl hdue
          | false => exact .timer t c n todo hit next slot tick hpc (Option.isNone_iff_eq_none.1 hfree)
        · cases h
    | io n =>
      simp only at h
      split at h
      · rename_i hfree
        cases h
        exact .io t c n todo hit next due slot tick hpc (Option.isNone_iff_eq_none.1 hfree)
      · cases h
        exact .keeps t (keeps_panic _)
  · cases h

theorem entry_user {u : UserAct α} (h : s.user cfg t u = some s') : Entry P s (.thread t (.user u)) s' := by
  simp only [user] at h
  split at h
  · rename_i c ret hpc
    cases u with
    | select l =>
      cases h
      exact .select t c ret l hpc
    | yieldNow =>
      cases h
      refine .keeps t ((keeps_leave ret).after ?_)
      exact keeps_setCo rfl (fun hb => by cases hb) (fun hk => hk) (.inl ⟨rfl, rfl⟩)
    | spawn id =>
      simp only at h
      split at h
      · cases h
        refine .spawn t c ret id ((s.cos c).children ++ [s.coN]) hpc ?_
        exact keeps_edit rfl rfl rfl rfl rfl rfl (fun _ hr => hr) (.stays _)
      · cases h
    | shutdown =>
      cases h
      refine .keeps t ((keeps_setPc ?_).after (keeps_of_eq rfl rfl rfl rfl))
      show Turn s.cos (s.threads t).pc _
      rw [hpc]
      exact .goesOn c ret _ _
    | finish res =>
      cases h
      refine .finish t c ret res hpc ?_
      simp only [finish]
      split
      · exact keeps_panic _
      · refine keeps_edit rfl rfl rfl rfl rfl rfl (fun _ hr => hr) ?_
        show Turn _ (s.threads t).pc _
        rw [hpc]
        exact .goesOn c ret _ _
  · cases h

/-- What an event or a message that comes in for registration `r` may wake a coroutine with. -/
def Wakes (P : Nat → Reg → Event → Prop) (s : Instance S w α) (t : Nat) (r : Reg) : Prop :=
  ∀ c rw, (s.threads t).coroutines.get (tokenToIds r.token).1 = some c → (s.cos c).state = .blocked →
    P c r ⟨(tokenToIds r.token).2, rw⟩

theorem entry_next (hhit : ∀ c e r next, (s.threads t).pc = .register c [] (some (e, r)) next → P c r e)
    (h : s.threadStep cfg t .next = some s') : Entry P s (.thread t .next) s' := by
  simp only [threadStep] at h
  split at h
  · cases h
    exact .keeps t (deliverSpawned_flow s t).keeps
  · cases h
    exact .keeps t (deliverReady_flow s t _).keeps
  · rename_i c ret j hpc
    exact .keeps t (keeps_job hpc h)
  · rename_i c hit next hpc
    cases h
    refine .keeps t (keeps_registered next (fun e r he => hhit c e r next ?_))
    rw [hpc, he]
  · rename_i c next hpc
    cases h
    unfold deregister
    split
    · rename_i src rest hb
      exact .deregister t c src rest next hpc hb
    · rename_i hb
      cases next with
      | event => exact .keeps t (keeps_callback _ _)
      | woken next => exact .keeps t (afterRegister_flow s t c next).keeps
      | migrate k l => exact entry_detach hpc hb
  · cases h
    exact .keeps t (keeps_afterResume _)
  · cases h
    exact .keeps t (shutdownNext_flow s t ‹_›).keeps
  · cases h
    exact .keeps t (stopNext_flow s t ‹_›).keeps
  · cases h

theorem entry_notify {id : Nat} (hin : ∀ r ∈ inFlightTo (s.threads t), s.Wakes P t r) (hpc : (s.threads t).pc = .poll)
    (h : s.notify t id = some s') : Entry P s (.thread t (.notify id)) s' := by
  simp only [notify] at h
  split at h
  · cases h
  · rename_i msg rest hmsg
    have hpop : ∀ th : Thread S α, th.inbox = rest → th.batch = (s.threads t).batch → ∀ r ∈ inFlightTo th,
        r ∈ inFlightTo (s.threads t) := by
      intro th hth hbatch r hr
      rw [mem_inFlightTo, hth, hbatch] at hr
      rw [mem_inFlightTo, hmsg]
      exact hr.imp (List.mem_cons_of_mem _) (fun hb => hb)
    have hrest : Keeps t P s (s.setThread t { s.threads t with inbox := rest }) :=
      keeps_setThread rfl rfl (hpop _ rfl rfl) (.stays _)
    cases msg with
    | channelMsg r =>
      cases h
      refine .keeps t ((keeps_ready (fun c rw hget hb => ?_)).after hrest)
      rw [setThread_self] at hget
      exact hin r (mem_inFlightTo.2 (.inl (by rw [hmsg]; exact List.mem_cons_self))) c rw hget hb
    | migration c =>
      simp only [attach] at h
      split at h
      · rename_i slab hslab
        cases h
        refine .attach t c id rest hmsg hpc ?_
        have hpop' : Keeps t P (s.setCo c { s.cos c with id := id, handler := some t })
            ((s.setCo c { s.cos c with id := id, handler := some t }).setThread t { s.threads t with inbox := rest }) :=
          keeps_setThread rfl rfl (hpop _ rfl rfl) (.stays _)
        refine hpop'.trans (keeps_setThread ?_ ?_ ?_ ?_)
        · rw [setThread_self, setThread_self]
        · rw [setThread_self, setThread_self]
        · rw [setThread_self, setThread_self]
          exact fun _ hr => hr
        · have hb : ((s.setCo c { s.cos c with id := id, handler := some t }).cos c).blockedOn =
              (s.cos c).blockedOn := by rw [setCo_self]
          rw [setThread_cos, setThread_cos, ← hb]
          exact .registers _ _ _
      · cases h
    | propagatePanic =>
      cases h
      exact .keeps t ((keeps_panic _).after hrest)
    | shutdown =>
      cases h
      refine .keeps t (Keeps.after (keeps_setThread ?_ ?_ ?_ (.elsewhere _ _ rfl)) hrest)
      all_goals rw [setThread_self]
      exact fun _ hr => hr
    | terminate =>
      cases h
      refine .keeps t (Keeps.after (keeps_setThread ?_ ?_ ?_ ?_) hrest)
      all_goals rw [setThread_self]
      · exact fun _ hr => hr
      · exact .stays _

theorem entry_thread {a : ThreadAct α}
    (hhit : ∀ c e r next, (s.threads t).pc = .register c [] (some (e, r)) next → P c r e)
    (hin : ∀ r ∈ inFlightTo (s.threads t), s.Wakes P t r)
    (hwheel : ∀ slot tick r, (s.threads t).wheel slot = some (tick, r) → s.Wakes P t r)
    (h : s.threadStep cfg t a = some s') : Entry P s (.thread t a) s' := by
  cases a with
  | start =>
    simp only [threadStep] at h
    split at h
    · cases h
      refine .keeps t ((keeps_callback _ _).after ?_)
      exact keeps_edit rfl rfl rfl rfl rfl rfl (fun _ hr => hr) (.stays _)
    · cases h
  | tick =>
    simp only [threadStep] at h
    split at h <;> cases h
    exact .keeps t (keeps_callback _ _)
  | notify id =>
    simp only [threadStep] at h
    split at h
    · rename_i hp
      exact entry_notify hin (Pc.eq_poll hp) h
    · cases h
  | ready =>
    simp only [threadStep] at h
    split at h
    · rename_i r e rest hp hbatch
      cases h
      refine .keeps t ((keeps_ready (fun c rw hget hb => ?_)).after
        (keeps_setThread rfl rfl (fun r hr => ?_) (.stays _)))
      · rw [setThread_self] at hget
        exact hin r (mem_inFlightTo.2 (.inr ⟨e, by rw [hbatch]; exact List.mem_cons_self⟩)) c rw hget hb
      · rw [mem_inFlightTo] at hr ⊢
        rw [hbatch]
        rcases hr with hi | ⟨e', he⟩
        · exact .inl hi
        · exact .inr ⟨e', List.mem_cons_of_mem _ he⟩
    · cases h
  | timeout slot =>
    simp only [threadStep] at h
    split at h
    · rename_i tick r hp hw
      cases h
      refine .fires t slot tick r hp hw (keeps_ready (fun c rw hget hb => ?_))
      rw [setThread_self] at hget
      exact hwheel slot tick r hw c rw hget hb
    · cases h
  | stop =>
    simp only [threadStep] at h
    split at h <;> cases h
    exact .keeps t (keeps_setPc (.elsewhere _ _ rfl))
  | sched choice => exact .keeps t (keeps_sched h)
  | register due slot tick => exact entry_register h
  | user u => exact entry_user h
  | next => exact entry_next hhit h

theorem keeps_senderStep {n i : Nat} {a : SenderAct (ExitStatus α)} (h : s.senderStep n i a = some s') :
    Keeps t P s s' := by
  obtain ⟨chan, out, hst, hs⟩ := senderStep_some h
  obtain ⟨hkeep, hcalls⟩ := keeps_setSender (P := P) (t := t) hst
  rcases hs with rfl | ⟨l, r, rfl, rfl⟩
  · exact hkeep
  · refine hkeep.trans (keeps_send (fun r' hr => ?_))
    cases hr
    exact hcalls l r rfl

theorem keeps_receiverStep {ch : ChanId} {a : RecvAct} (h : s.receiverStep ch a = some s') : Keeps t P s s' := by
  obtain ⟨chan, taken, n, rfl, htok, hsender, -⟩ := receiverStep_some h
  exact (keeps_setChan htok hsender).trans (keeps_of_eq rfl rfl rfl rfl)

/-- **The sorts of steps**; what wakes a coroutine is known of the registrations in flight. -/
theorem step_entry {a : Action α}
    (hhit : ∀ t c e r next, (s.threads t).pc = .register c [] (some (e, r)) next → P c r e)
    (hin : ∀ t, ∀ r ∈ inFlightTo (s.threads t), s.Wakes P t r)
    (hwheel : ∀ t slot tick r, (s.threads t).wheel slot = some (tick, r) → s.Wakes P t r)
    (h : s.step cfg a = some s') : Entry P s a s' := by
  cases a with
  | thread t a =>
    obtain ⟨-, -, h⟩ := step_thread h
    exact entry_thread (hhit t) (hin t) (hwheel t) h
  | sender n i a => exact .keeps 0 (keeps_senderStep h)
  | receiver ch a => exact .keeps 0 (keeps_receiverStep h)
  | ioReady t n e =>
    obtain ⟨r, hr, rfl⟩ := step_ioReady h
    refine .keeps t (keeps_setOther rfl rfl (fun r' hr' => ?_) rfl)
    rw [mem_inFlightTo] at hr' ⊢
    rcases hr' with hold | ⟨e', hmem⟩
    · exact .inl (.inl hold)
    · rcases List.mem_append.1 hmem with hold | hnew
      · exact .inl (.inr ⟨e', hold⟩)
      · cases List.mem_singleton.1 hnew
        exact .inr (.inr ⟨n, hr⟩)

end Instance
end Mioco
