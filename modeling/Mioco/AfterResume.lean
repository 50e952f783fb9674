import Mioco.EventDelivery
import Mioco.ChannelMove
/-!
# `after_resume` (src/mod.rs, src/coroutine.rs)

From the moment a coroutine has switched out Blocked to the return of `after_resume`: `register_all`, the
`deregister_all` of a self-wake, the ready queue.  Other threads take their steps in between.
-/
namespace Mioco

/-- A call of `register` (with what it returned) or of `deregister`. -/
inductive SrcCall
  | register (src : Src) (ready : Bool)
  | deregister (src : Src)
deriving DecidableEq, Repr

namespace Instance
variable {S : Sched} {w : Nat} {α : Type}

/-! ## One source -/

/-- What `register` returns for this source: the counter is not zero, the timer is due. -/
def registerReady (s : Instance S w α) (due : Bool) : Src → Bool
  | .recv ch => decide ((s.chans ch).counter ≠ 0)
  | .timer _ => due
  | .io _ => false

/-- The registration of the source at position `i` of a coroutine's list. -/
def regAt (s : Instance S w α) (t c i : Nat) (src : Src) : Reg where
  token := tokenFromIds (s.cos c).id i
  co := c
  sel := (s.cos c).sel
  src := src
  loop := t

/-- `r` is the registration of this source with event loop `t`. -/
def Registered (s : Instance S w α) (t : Nat) (r : Reg) : Src → Prop
  | .recv ch => (s.chans ch).token = some r ∧ (s.chans ch).sender = some t
  | .timer n => ∃ slot tick, s.timeouts n = some (slot, tick) ∧ (s.threads t).wheel slot = some (tick, r)
  | .io n => (s.threads t).ios n = some r

/-- Nothing was queued, and nothing taken. -/
structure SameQueues (th th' : Thread S α) : Prop where
  spawned : th'.spawned = th.spawned
  ready : th'.ready = th.ready

/-- What `register` did to a source that is registered, if it returned false, by `r`. -/
structure RegisterEffect (s : Instance S w α) (t : Nat) (src : Src) (r : Reg) (ready : Bool) (s' : Instance S w α) :
    Prop where
  cos : s'.cos = s.cos
  srcs : s'.srcs = s.srcs
  queues : SameQueues (s.threads t) (s'.threads t)
  registered : ready = false → s'.Registered t r src
  keeps : ∀ src' r', src' ≠ src → s.Registered t r' src' → s'.Registered t r' src'
  ios : ∀ n, Src.io n ≠ src → (s'.threads t).ios n = (s.threads t).ios n
  timeouts : ∀ n, Src.timer n ≠ src → s'.timeouts n = s.timeouts n
  wheel : ∀ slot, (s'.threads t).wheel slot = (s.threads t).wheel slot ∨ (s.threads t).wheel slot = none ∧
    ∃ n tick, src = .timer n ∧ s'.timeouts n = some (slot, tick) ∧ (s'.threads t).wheel slot = some (tick, r)

theorem chan_register (ch : Chan w (ExitStatus α) Reg Nat) (r : Reg) (t : Nat) :
    (ch.register r t).2 = decide (ch.counter ≠ 0) ∧ (ch.register r t).1.sender = some t ∧
      (ch.counter = 0 → (ch.register r t).1.token = some r) := by
  by_cases hc : ch.counter = 0
  · rw [Chan.register, if_neg (not_not.2 hc)]
    exact ⟨by simp [hc], rfl, fun _ => rfl⟩
  · rw [Chan.register, if_pos hc]
    exact ⟨by simpa using hc, rfl, fun h => (hc h).elim⟩

section effects
variable {s : Instance S w α} {t : Nat} {r : Reg} {pc : Pc α}

theorem registerEffect_recv (due : Bool) (ch : ChanId) :
    RegisterEffect s t (.recv ch) r (s.registerReady due (.recv ch))
      ((s.setChan ch ((s.chans ch).register r t).1).setPc t pc) := by
  obtain ⟨-, hsender, htoken⟩ := chan_register (s.chans ch) r t
  have hthread : ((s.setChan ch ((s.chans ch).register r t).1).setPc t pc).threads t = { s.threads t with pc := pc } :=
    setThread_self _ _ _
  refine ⟨rfl, rfl, ?_, ?_, ?_, ?_, fun _ _ => rfl, ?_⟩
  · rw [hthread]
    exact ⟨rfl, rfl⟩
  · intro hf
    have hc : (s.chans ch).counter = 0 := by simpa [registerReady] using hf
    simpa [Registered, setPc, setThread, setChan] using And.intro (htoken hc) hsender
  · intro src' r' hne hreg
    cases src' with
    | recv ch' =>
      have hch : ch' ≠ ch := fun he => hne (congrArg Src.recv he)
      simpa only [Registered, setPc, setThread, setChan, Function.update_of_ne hch] using hreg
    | timer n =>
      simp only [Registered, hthread]
      exact hreg
    | io n =>
      simp only [Registered, hthread]
      exact hreg
  · intro n _
    rw [hthread]
  · intro slot
    rw [hthread]
    exact .inl rfl

theorem registerEffect_due (n : Nat) : RegisterEffect s t (.timer n) r true (s.setPc t pc) := by
  have hthread : (s.setPc t pc).threads t = { s.threads t with pc := pc } := setThread_self _ _ _
  refine ⟨rfl, rfl, ?_, fun h => (Bool.false_ne_true h.symm).elim, ?_, ?_, fun _ _ => rfl, ?_⟩
  · rw [hthread]
    exact ⟨rfl, rfl⟩
  · intro src' r' _ hreg
    cases src' <;> simp only [Registered, hthread] <;> exact hreg
  · intro n _
    rw [hthread]
  · intro slot
    rw [hthread]
    exact .inl rfl

theorem registerEffect_timer {n slot tick : Nat} (hvacant : (s.threads t).wheel slot = none) :
    RegisterEffect s t (.timer n) r false
      ({ s with timeouts := Function.update s.timeouts n (some (slot, tick)) }.setThread t { s.threads t with
        wheel := Function.update (s.threads t).wheel slot (some (tick, r)), pc := pc }) := by
  refine ⟨rfl, rfl, ?_, ?_, ?_, ?_, ?_, ?_⟩
  · rw [setThread_self]
    exact ⟨rfl, rfl⟩
  · intro _
    refine ⟨slot, tick, Function.update_self _ _ _, ?_⟩
    rw [setThread_self]
    exact Function.update_self _ _ _
  · intro src' r' hne hreg
    cases src' with
    | recv ch => exact hreg
    | timer n' =>
      obtain ⟨slot', tick', hn, hw⟩ := hreg
      have hslot : slot' ≠ slot := by
        rintro rfl
        rw [hvacant] at hw
        cases hw
      refine ⟨slot', tick', ?_, ?_⟩
      · exact (Function.update_of_ne (fun he => hne (congrArg Src.timer he)) _ _).trans hn
      · rw [setThread_self]
        exact (Function.update_of_ne hslot _ _).trans hw
    | io n' =>
      rw [Registered, setThread_self]
      exact hreg
  · intro n' _
    rw [setThread_self]
  · intro n' hne
    exact Function.update_of_ne (fun he => hne (congrArg Src.timer he)) _ _
  · intro slot'
    rw [setThread_self]
    by_cases hs : slot' = slot
    · subst hs
      exact .inr ⟨hvacant, n, tick, rfl, Function.update_self _ _ _, Function.update_self _ _ _⟩
    · exact .inl (Function.update_of_ne hs _ _)

theorem registerEffect_io (n : Nat) : RegisterEffect s t (.io n) r false
    (s.setThread t { s.threads t with ios := Function.update (s.threads t).ios n (some r), pc := pc }) := by
  refine ⟨rfl, rfl, ?_, ?_, ?_, ?_, fun _ _ => rfl, ?_⟩
  · rw [setThread_self]
    exact ⟨rfl, rfl⟩
  · intro _
    rw [Registered, setThread_self]
    exact Function.update_self _ _ _
  · intro src' r' hne hreg
    cases src' with
    | recv ch => exact hreg
    | timer n' =>
      simp only [Registered, setThread_self]
      exact hreg
    | io n' =>
      rw [Registered, setThread_self]
      exact (Function.update_of_ne (fun he => hne (congrArg Src.io he)) _ _).trans hreg
  · intro n' hne
    rw [setThread_self]
    exact Function.update_of_ne (fun he => hne (congrArg Src.io he)) _ _
  · intro slot
    rw [setThread_self]
    exact .inl rfl

end effects

/-- **`register` of the next source.** -/
theorem register_effect {s s' : Instance S w α} {t c slot tick : Nat} {src : Src} {todo : List Src}
    {hit : Option (Event × Reg)} {next : AfterRegister} {due : Bool}
    (hpc : (s.threads t).pc = .register c (src :: todo) hit next) (h : s.register t due slot tick = some s') :
    (s'.threads t).pc = .panicked .mioFailed ∧ (∃ n, src = .io n ∧ ((s.threads t).ios n).isSome = true) ∨
      (s'.threads t).pc = .register c todo (if s.registerReady due src = true then
        some (⟨(s.srcs src).id, (s.srcs src).blockedOn⟩, s.regAt t c (s.srcs src).id src) else hit) next ∧
      RegisterEffect s t src (s.regAt t c (s.srcs src).id src) (s.registerReady due src) s' := by
  have hr : s.regAt t c (s.srcs src).id src =
    { token := tokenFromIds (s.cos c).id (s.srcs src).id, co := c, sel := (s.cos c).sel, src, loop := t } := rfl
  simp only [register, hpc, ← hr] at h
  generalize s.regAt t c (s.srcs src).id src = r at h ⊢
  cases src with
  | recv ch =>
    obtain ⟨hready, -, -⟩ := chan_register (s.chans ch) r t
    cases h
    refine .inr ⟨?_, registerEffect_recv due ch⟩
    rw [setPc, setThread_self, hready, registerReady]
  | timer n =>
    simp only at h
    split at h
    · rename_i hdue
      cases h
      rw [registerReady, hdue]
      exact .inr ⟨by rw [setPc, setThread_self, if_pos rfl], registerEffect_due n⟩
    · rename_i hdue
      split at h
      · rename_i hvacant
        cases h
        rw [registerReady, Bool.eq_false_iff.2 hdue]
        exact .inr ⟨by rw [setThread_self, if_neg Bool.false_ne_true],
          registerEffect_timer (Option.isNone_iff_eq_none.1 hvacant)⟩
      · cases h
  | io n =>
    simp only at h
    split at h
    · cases h
      exact .inr ⟨by rw [setThread_self, registerReady, if_neg Bool.false_ne_true], registerEffect_io n⟩
    · rename_i hio
      cases h
      refine .inl ⟨by rw [panic, setThread_self], n, rfl, ?_⟩
      cases hn : (s.threads t).ios n with
      | none => exact (hio (by rw [hn]; rfl)).elim
      | some r' => rfl

/-- What `deregister` of one source did. -/
structure DeregisterEffect (s : Instance S w α) (t : Nat) (src : Src) (s' : Instance S w α) : Prop where
  pc : (s'.threads t).pc = (s.threads t).pc
  cos : s'.cos = s.cos
  queues : SameQueues (s.threads t) (s'.threads t)
  unregistered : s'.Unregistered t src
  keeps : ∀ src', s.Unregistered t src' → s'.Unregistered t src'
  ios : ∀ n, Src.io n ≠ src → (s'.threads t).ios n = (s.threads t).ios n
  timeouts : s'.timeouts = s.timeouts
  wheel : ∀ slot, (s'.threads t).wheel slot = none ∨ (s'.threads t).wheel slot = (s.threads t).wheel slot

theorem filter_eq_none_or {β : Type} (o : Option β) (p : β → Bool) : o.filter p = none ∨ o.filter p = o := by
  cases o with
  | none => exact .inl rfl
  | some x =>
    by_cases h : p x = true
    · exact .inr (Option.filter_some_pos h)
    · exact .inl (Option.filter_some_neg (Bool.eq_false_iff.2 h))

/-- **`deregister` of the next source**, a mio source being registered. -/
theorem deregister_effect (s : Instance S w α) (t : Nat) (src : Src)
    (h : ∀ n, src = .io n → ((s.threads t).ios n).isSome = true) : DeregisterEffect s t src (s.deregisterSrc t src) := by
  cases src with
  | recv ch =>
    refine ⟨rfl, rfl, ⟨rfl, rfl⟩, ?_, ?_, fun _ _ => rfl, rfl, fun _ => .inr rfl⟩
    · simp [Unregistered, deregisterSrc, setChan, Chan.deregister]
    · intro src' hun
      cases src' with
      | recv ch' =>
        by_cases hch : ch' = ch
        · subst hch
          simp [Unregistered, deregisterSrc, setChan, Chan.deregister]
        · simpa only [Unregistered, deregisterSrc, setChan, Function.update_of_ne hch] using hun
      | timer n => exact hun
      | io n => exact hun
  | timer n =>
    have hwheel : ∀ slot, ((s.clearTimeout t (s.timeouts n)).threads t).wheel slot =
        ((s.threads t).wheel slot).filter (fun e => !decide (s.timeouts n = some (slot, e.1))) := by
      intro slot
      rw [clearTimeout_wheel, setThread_self]
    rw [deregisterSrc]
    refine ⟨?_, ?_, ?_, ?_, ?_, ?_, ?_, ?_⟩
    · rw [clearTimeout_wheel, setThread_self]
    · rw [clearTimeout_wheel]
      rfl
    · rw [clearTimeout_wheel, setThread_self]
      exact ⟨rfl, rfl⟩
    · intro slot tick r hn hw
      have htimeouts : s.timeouts n = some (slot, tick) := by
        rw [clearTimeout_wheel] at hn
        exact hn
      rw [hwheel] at hw
      simpa [htimeouts] using (Option.filter_eq_some_iff.1 hw).2
    · intro src' hun
      cases src' with
      | recv ch =>
        rw [clearTimeout_wheel]
        exact hun
      | timer n' =>
        intro slot tick r hn hw
        rw [hwheel] at hw
        rw [clearTimeout_wheel] at hn
        exact hun slot tick r hn (Option.filter_eq_some_iff.1 hw).1
      | io n' =>
        rw [Unregistered, clearTimeout_wheel, setThread_self]
        exact hun
    · intro n' _
      rw [clearTimeout_wheel, setThread_self]
    · rw [clearTimeout_wheel]
      rfl
    · intro slot
      rw [hwheel]
      exact filter_eq_none_or _ _
  | io n =>
    rw [deregisterSrc, if_pos (h n rfl)]
    refine ⟨?_, rfl, ?_, ?_, ?_, ?_, rfl, ?_⟩
    · rw [setThread_self]
    · rw [setThread_self]
      exact ⟨rfl, rfl⟩
    · rw [Unregistered, setThread_self]
      exact Function.update_self _ _ _
    · intro src' hun
      cases src' with
      | recv ch => exact hun
      | timer n' =>
        simp only [Unregistered, setThread_self]
        exact hun
      | io n' =>
        rw [Unregistered, setThread_self]
        by_cases hn : n' = n
        · subst hn
          exact Function.update_self _ _ _
        · exact (Function.update_of_ne hn _ _).trans hun
    · intro n' hne
      rw [setThread_self]
      exact Function.update_of_ne (fun he => hne (congrArg Src.io he)) _ _
    · intro slot
      rw [setThread_self]
      exact .inr rfl

/-! ## The run -/

/-- The next step of thread `t` is a call of one of its sources. -/
def srcCall (s : Instance S w α) (t : Nat) (a : ThreadAct α) : List SrcCall :=
  match (s.threads t).pc, a with
  | .register _ (src :: _) _ _, .register due _ _ => [.register src (s.registerReady due src)]
  | .deregister c _, _ => match (s.cos c).blockedOn with | src :: _ => [.deregister src] | [] => []
  | _, _ => []

/-- What the other threads leave alone: event-loop thread `t` but for its inbox, coroutine `c` attached to it, and
the sources that are its own. -/
structure Undisturbed (t c : Nat) (own : List Src) (s s' : Instance S w α) : Prop where
  pc : (s'.threads t).pc = (s.threads t).pc
  queues : SameQueues (s.threads t) (s'.threads t)
  ios : (s'.threads t).ios = (s.threads t).ios
  wheel : (s'.threads t).wheel = (s.threads t).wheel
  co : s'.cos c = s.cos c
  srcs : ∀ src ∈ own, s'.srcs src = s.srcs src
  chans : ∀ ch, Src.recv ch ∈ own → (s'.chans ch).token = (s.chans ch).token ∧ (s'.chans ch).sender = (s.chans ch).sender
  timeouts : ∀ n, Src.timer n ∈ own → s'.timeouts n = s.timeouts n

/-- **A run of `after_resume`** of coroutine `c` on thread `t`, up to its return into callback `k`, with the calls it
makes; others take their steps in between. -/
inductive AfterResume (cfg : Config) (t c : Nat) (k : Callback) (s₀ : Instance S w α) :
    List SrcCall → Instance S w α → Prop
  | start : AfterResume cfg t c k s₀ [] s₀
  | own {calls : List SrcCall} {s s' : Instance S w α} (a : ThreadAct α) : AfterResume cfg t c k s₀ calls s →
      (s.threads t).pc ≠ .call k → s.threadStep cfg t a = some s' →
      AfterResume cfg t c k s₀ (calls ++ s.srcCall t a) s'
  | other {calls : List SrcCall} {s s' : Instance S w α} : AfterResume cfg t c k s₀ calls s →
      Undisturbed t c (s₀.cos c).blockedOn s s' → AfterResume cfg t c k s₀ calls s'

/-- The coroutine has just switched out, Blocked on distinct sources numbered by their positions. -/
structure SwitchedOut (s : Instance S w α) (t c : Nat) (k : Callback) : Prop where
  pc : (s.threads t).pc = .register c (s.cos c).blockedOn none (.resumed k)
  blocked : (s.cos c).state = .blocked
  nodup : (s.cos c).blockedOn.Nodup
  ids : ∀ i src, (s.cos c).blockedOn[i]? = some src → (s.srcs src).id = i

/-! ## Its phases -/

/-- The calls of `register_all`. -/
def registrations (l : List Src) (results : List Bool) : List SrcCall := l.zipWith SrcCall.register results

/-- `e` is for a source of coroutine `c` whose `register` returned true. -/
def WokenBy (s₀ : Instance S w α) (c : Nat) (results : List Bool) (e : Event) : Prop :=
  ∃ src, (s₀.cos c).blockedOn[e.id]? = some src ∧ results[e.id]? = some true ∧ e.rw = (s₀.srcs src).blockedOn

/-- The wheel holds what it held before, and the timeouts of these sources at their handles. -/
def WheelWith (s₀ s : Instance S w α) (t : Nat) (l : List Src) : Prop :=
  ∀ slot, (s.threads t).wheel slot = (s₀.threads t).wheel slot ∨ (s₀.threads t).wheel slot = none ∧
    ∃ n tick r, Src.timer n ∈ l ∧ s.timeouts n = some (slot, tick) ∧ (s.threads t).wheel slot = some (tick, r)

/-- The first sources of the list, `done`, have been asked to register. -/
structure Registering (s₀ s : Instance S w α) (t c : Nat) (done : List Src) (results : List Bool) : Prop where
  co : s.cos c = s₀.cos c
  srcs : ∀ src ∈ (s₀.cos c).blockedOn, s.srcs src = s₀.srcs src
  queues : SameQueues (s₀.threads t) (s.threads t)
  length : results.length = done.length
  registered : ∀ i src, done[i]? = some src → results[i]? = some false → s.Registered t (s₀.regAt t c i src) src
  iosIn : ∀ n, Src.io n ∈ done → ((s.threads t).ios n).isSome = true
  iosOut : ∀ n, Src.io n ∉ done → (s.threads t).ios n = (s₀.threads t).ios n
  wheel : WheelWith s₀ s t done

/-- A source said it is ready; those not in `rest` have been deregistered. -/
structure Unblocking (s₀ s : Instance S w α) (t c : Nat) (rest : List Src) (results : List Bool) : Prop where
  co : ∃ e r, s.cos c = { s₀.cos c with state := .ready, lastEvent := e, wokenBy := some r, blockedOn := rest } ∧
    WokenBy s₀ c results e
  queues : SameQueues (s₀.threads t) (s.threads t)
  gone : ∀ src ∈ (s₀.cos c).blockedOn, src ∉ rest → s.Unregistered t src
  iosIn : ∀ n, Src.io n ∈ rest → ((s.threads t).ios n).isSome = true
  iosOut : ∀ n, Src.io n ∉ (s₀.cos c).blockedOn → (s.threads t).ios n = (s₀.threads t).ios n
  wheel : ∀ slot, (s.threads t).wheel slot = none ∨ (s.threads t).wheel slot = (s₀.threads t).wheel slot ∨
    ∃ n tick r, Src.timer n ∈ rest ∧ s.timeouts n = some (slot, tick) ∧ (s.threads t).wheel slot = some (tick, r)

/-- **The coroutine stays Blocked**: every source is registered, and nothing is queued. -/
structure Parked (s₀ s : Instance S w α) (t c : Nat) (calls : List SrcCall) : Prop where
  calls : ∃ results, results.length = (s₀.cos c).blockedOn.length ∧ true ∉ results ∧
    calls = registrations (s₀.cos c).blockedOn results
  state : (s.cos c).state = .blocked
  blockedOn : (s.cos c).blockedOn = (s₀.cos c).blockedOn
  registered : ∀ i src, (s₀.cos c).blockedOn[i]? = some src → s.Registered t (s₀.regAt t c i src) src
  wheel : WheelWith s₀ s t (s₀.cos c).blockedOn
  ready : (s.threads t).ready = (s₀.threads t).ready

/-- **The coroutine is Ready**: no source is registered, and its handle is queued once. -/
structure SelfWoken (s₀ s : Instance S w α) (t c : Nat) (calls : List SrcCall) : Prop where
  calls : ∃ results, results.length = (s₀.cos c).blockedOn.length ∧
    calls = registrations (s₀.cos c).blockedOn results ++ (s₀.cos c).blockedOn.map .deregister ∧
      WokenBy s₀ c results (s.cos c).lastEvent
  state : (s.cos c).state = .ready
  blockedOn : (s.cos c).blockedOn = []
  unregistered : ∀ src ∈ (s₀.cos c).blockedOn, s.Unregistered t src
  wheel : ∀ slot, (s.threads t).wheel slot = none ∨ (s.threads t).wheel slot = (s₀.threads t).wheel slot
  ready : (s.threads t).ready = (s₀.threads t).ready ++ [Handle.new c]

/-- `after_resume` has returned. -/
structure Settled (s₀ s : Instance S w α) (t c : Nat) (calls : List SrcCall) : Prop where
  children : (s.cos c).children = []
  spawned : (s.threads t).spawned = (s₀.threads t).spawned ++ (s₀.cos c).children.map Handle.new
  iosOut : ∀ n, Src.io n ∉ (s₀.cos c).blockedOn → (s.threads t).ios n = (s₀.threads t).ios n
  outcome : Parked s₀ s t c calls ∨ SelfWoken s₀ s t c calls

/-- Where a run of `after_resume` can be. -/
inductive Phase (s₀ : Instance S w α) (t c : Nat) (k : Callback) (calls : List SrcCall) (s : Instance S w α) : Prop
  | registering (done todo : List Src) (results : List Bool) (hit : Option (Event × Reg)) :
      (s.threads t).pc = .register c todo hit (.resumed k) → done ++ todo = (s₀.cos c).blockedOn →
      calls = registrations done results → Registering s₀ s t c done results →
      (hit = none → true ∉ results) → (∀ e r, hit = some (e, r) → WokenBy s₀ c results e) → Phase s₀ t c k calls s
  | unblocking (gone rest : List Src) (results : List Bool) :
      (s.threads t).pc = .deregister c (.woken (.resumed k)) → gone ++ rest = (s₀.cos c).blockedOn →
      calls = registrations (s₀.cos c).blockedOn results ++ gone.map .deregister →
      results.length = (s₀.cos c).blockedOn.length → Unblocking s₀ s t c rest results → Phase s₀ t c k calls s
  | parked (results : List Bool) : (s.threads t).pc = .resumed c k →
      calls = registrations (s₀.cos c).blockedOn results → true ∉ results →
      Registering s₀ s t c (s₀.cos c).blockedOn results → Phase s₀ t c k calls s
  | woken (results : List Bool) : (s.threads t).pc = .resumed c k →
      calls = registrations (s₀.cos c).blockedOn results ++ (s₀.cos c).blockedOn.map .deregister →
      results.length = (s₀.cos c).blockedOn.length → Unblocking s₀ s t c [] results → Phase s₀ t c k calls s
  | ended : (s.threads t).pc = .call k → Settled s₀ s t c calls → Phase s₀ t c k calls s
  | failed (n : Nat) : (s.threads t).pc = .panicked .mioFailed → Src.io n ∈ (s₀.cos c).blockedOn →
      ((s₀.threads t).ios n).isSome = true → Phase s₀ t c k calls s

section others
variable {s₀ s s' : Instance S w α} {t c : Nat} {own : List Src} {k : Callback} {calls : List SrcCall}

theorem SameQueues.trans {th th' th'' : Thread S α} (h : SameQueues th th') (h' : SameQueues th' th'') :
    SameQueues th th'' := ⟨h'.spawned.trans h.spawned, h'.ready.trans h.ready⟩

theorem Undisturbed.registered (h : Undisturbed t c own s s') {src : Src} {r : Reg} (hsrc : src ∈ own)
    (hr : s.Registered t r src) : s'.Registered t r src := by
  cases src with
  | recv ch =>
    obtain ⟨htoken, hsender⟩ := h.chans ch hsrc
    exact ⟨htoken.trans hr.1, hsender.trans hr.2⟩
  | timer n =>
    obtain ⟨slot, tick, hn, hw⟩ := hr
    exact ⟨slot, tick, (h.timeouts n hsrc).trans hn, (congrFun h.wheel slot).trans hw⟩
  | io n => exact (congrFun h.ios n).trans hr

theorem Undisturbed.unregistered (h : Undisturbed t c own s s') {src : Src} (hsrc : src ∈ own)
    (hr : s.Unregistered t src) : s'.Unregistered t src := by
  cases src with
  | recv ch =>
    obtain ⟨htoken, hsender⟩ := h.chans ch hsrc
    exact ⟨htoken.trans hr.1, hsender.trans hr.2⟩
  | timer n =>
    intro slot tick r hn hw
    rw [h.timeouts n hsrc] at hn
    rw [h.wheel] at hw
    exact hr slot tick r hn hw
  | io n => exact (congrFun h.ios n).trans hr

theorem Undisturbed.wheelWith (h : Undisturbed t c own s s') {l : List Src} (hl : ∀ src ∈ l, src ∈ own)
    (hw : WheelWith s₀ s t l) : WheelWith s₀ s' t l := by
  intro slot
  rw [h.wheel]
  rcases hw slot with hsame | ⟨hnone, n, tick, r, hn, htimeout, hslot⟩
  · exact .inl hsame
  · exact .inr ⟨hnone, n, tick, r, hn, (h.timeouts n (hl _ hn)).trans htimeout, hslot⟩

theorem Undisturbed.registering (h : Undisturbed t c (s₀.cos c).blockedOn s s') {done : List Src} {results : List Bool}
    (hl : ∀ src ∈ done, src ∈ (s₀.cos c).blockedOn) (hr : Registering s₀ s t c done results) :
    Registering s₀ s' t c done results where
  co := h.co.trans hr.co
  srcs src hsrc := (h.srcs src hsrc).trans (hr.srcs src hsrc)
  queues := hr.queues.trans h.queues
  length := hr.length
  registered i src hi hres := h.registered (hl src (List.mem_of_getElem? hi)) (hr.registered i src hi hres)
  iosIn n hn := by
    rw [h.ios]
    exact hr.iosIn n hn
  iosOut n hn := (congrFun h.ios n).trans (hr.iosOut n hn)
  wheel := h.wheelWith hl hr.wheel

theorem Undisturbed.unblocking (h : Undisturbed t c (s₀.cos c).blockedOn s s') {rest : List Src} {results : List Bool}
    (hl : ∀ src ∈ rest, src ∈ (s₀.cos c).blockedOn) (hr : Unblocking s₀ s t c rest results) :
    Unblocking s₀ s' t c rest results where
  co := by
    rw [h.co]
    exact hr.co
  queues := hr.queues.trans h.queues
  gone src hsrc hrest := h.unregistered hsrc (hr.gone src hsrc hrest)
  iosIn n hn := by
    rw [h.ios]
    exact hr.iosIn n hn
  iosOut n hn := (congrFun h.ios n).trans (hr.iosOut n hn)
  wheel slot := by
    rw [h.wheel]
    rcases hr.wheel slot with hnone | hsame | ⟨n, tick, r, hn, htimeout, hslot⟩
    · exact .inl hnone
    · exact .inr (.inl hsame)
    · exact .inr (.inr ⟨n, tick, r, hn, (h.timeouts n (hl _ hn)).trans htimeout, hslot⟩)

theorem Undisturbed.settled (h : Undisturbed t c (s₀.cos c).blockedOn s s') (hs : Settled s₀ s t c calls) :
    Settled s₀ s' t c calls := by
  refine ⟨?_, h.queues.spawned.trans hs.spawned, fun n hn => (congrFun h.ios n).trans (hs.iosOut n hn), ?_⟩
  · rw [h.co]
    exact hs.children
  rcases hs.outcome with hp | hw
  · refine .inl ⟨hp.calls, ?_, ?_, ?_, h.wheelWith (fun _ hsrc => hsrc) hp.wheel, h.queues.ready.trans hp.ready⟩
    · rw [h.co]
      exact hp.state
    · rw [h.co]
      exact hp.blockedOn
    · exact fun i src hi => h.registered (List.mem_of_getElem? hi) (hp.registered i src hi)
  · refine .inr ⟨?_, ?_, ?_, ?_, ?_, h.queues.ready.trans hw.ready⟩
    · rw [h.co]
      exact hw.calls
    · rw [h.co]
      exact hw.state
    · rw [h.co]
      exact hw.blockedOn
    · exact fun src hsrc => h.unregistered hsrc (hw.unregistered src hsrc)
    · rw [h.wheel]
      exact hw.wheel

/-- **A step of another thread** does not change the phase. -/
theorem Phase.other (h : Undisturbed t c (s₀.cos c).blockedOn s s') (hp : Phase s₀ t c k calls s) :
    Phase s₀ t c k calls s' := by
  cases hp with
  | registering done todo results hit hpc hl hcalls hr hnone hsome =>
    refine .registering done todo results hit (h.pc.trans hpc) hl hcalls (h.registering ?_ hr) hnone hsome
    exact fun src hsrc => hl ▸ List.mem_append_left _ hsrc
  | unblocking gone rest results hpc hl hcalls hlen hr =>
    refine .unblocking gone rest results (h.pc.trans hpc) hl hcalls hlen (h.unblocking ?_ hr)
    exact fun src hsrc => hl ▸ List.mem_append_right _ hsrc
  | parked results hpc hcalls hfalse hr =>
    exact .parked results (h.pc.trans hpc) hcalls hfalse (h.registering (fun _ hsrc => hsrc) hr)
  | woken results hpc hcalls hlen hr =>
    exact .woken results (h.pc.trans hpc) hcalls hlen (h.unblocking (fun _ hsrc => by cases hsrc) hr)
  | ended hpc hs => exact .ended (h.pc.trans hpc) (h.settled hs)
  | failed n hpc hn hio => exact .failed n (h.pc.trans hpc) hn hio

end others

section steps
variable {s₀ s s' : Instance S w α} {t c : Nat} {k : Callback}

theorem WheelWith.register {l : List Src} {src : Src} {r : Reg} {ready : Bool} (h : WheelWith s₀ s t l)
    (hsrc : src ∉ l) (he : RegisterEffect s t src r ready s') : WheelWith s₀ s' t (l ++ [src]) := by
  intro slot
  have hold : ∀ n, Src.timer n ∈ l → s'.timeouts n = s.timeouts n :=
    fun n hn => he.timeouts n (fun heq => hsrc (heq ▸ hn))
  rcases he.wheel slot with hsame | ⟨hvacant, n, tick, rfl, htimeout, hslot⟩
  · rcases h slot with h₀ | ⟨hnone, n, tick, r', hn, htimeout, hslot⟩
    · exact .inl (hsame.trans h₀)
    · exact .inr ⟨hnone, n, tick, r', List.mem_append_left _ hn, (hold n hn).trans htimeout, hsame.trans hslot⟩
  · rcases h slot with h₀ | ⟨-, n', tick', r', -, -, hslot'⟩
    · exact .inr ⟨h₀ ▸ hvacant, n, tick, r, List.mem_append_right _ List.mem_cons_self, htimeout, hslot⟩
    · rw [hvacant] at hslot'
      cases hslot'

/-- One more source was asked to register. -/
theorem Registering.next {done todo : List Src} {src : Src} {results : List Bool} {ready : Bool}
    (h : Registering s₀ s t c done results) (h₀ : SwitchedOut s₀ t c k) (hl : done ++ src :: todo = (s₀.cos c).blockedOn)
    (he : RegisterEffect s t src (s.regAt t c (s.srcs src).id src) ready s') (hio : ∀ n, src = .io n → ready = false) :
    Registering s₀ s' t c (done ++ [src]) (results ++ [ready]) := by
  have hat : (s₀.cos c).blockedOn[done.length]? = some src := by
    rw [← hl, List.getElem?_append_right (Nat.le_refl _), Nat.sub_self, List.getElem?_cons_zero]
  have hid : (s.srcs src).id = done.length := by
    rw [h.srcs src (List.mem_of_getElem? hat)]
    exact h₀.ids _ _ hat
  have hfresh : src ∉ done := by
    have hnodup := h₀.nodup
    rw [← hl] at hnodup
    exact fun hmem => (List.nodup_append.1 hnodup).2.2 src hmem src List.mem_cons_self rfl
  have hreg : s.regAt t c (s.srcs src).id src = s₀.regAt t c done.length src := by
    rw [regAt, regAt, h.co, hid]
  rw [hreg] at he
  refine ⟨by rw [he.cos, h.co], fun src' hsrc' => (congrFun he.srcs src').trans (h.srcs src' hsrc'),
    h.queues.trans he.queues, by rw [List.length_append, List.length_append, h.length]; rfl, ?_, ?_, ?_,
    h.wheel.register hfresh he⟩
  · intro i src' hi hres
    by_cases hlt : i < done.length
    · rw [List.getElem?_append_left hlt] at hi
      rw [List.getElem?_append_left (h.length ▸ hlt)] at hres
      exact he.keeps src' _ (fun heq => hfresh (heq ▸ List.mem_of_getElem? hi)) (h.registered i src' hi hres)
    · obtain ⟨hi0, rfl⟩ : i - done.length = 0 ∧ src = src' := by
        rw [List.getElem?_append_right (Nat.le_of_not_lt hlt)] at hi
        simpa [List.getElem?_singleton] using hi
      obtain rfl : i = done.length := by omega
      rw [List.getElem?_append_right (Nat.le_of_eq h.length), h.length, Nat.sub_self] at hres
      exact he.registered (Option.some.inj hres)
  · intro n hn
    by_cases hsrc : src = .io n
    · have := he.registered (hio n hsrc)
      rw [hsrc] at this
      exact Option.isSome_iff_exists.2 ⟨_, this⟩
    · have hn' : Src.io n ∈ done := by simpa [Ne.symm hsrc] using hn
      rw [he.ios n (Ne.symm hsrc)]
      exact h.iosIn n hn'
  · intro n hn
    rw [List.mem_append, List.mem_singleton, not_or] at hn
    exact (he.ios n hn.2).trans (h.iosOut n hn.1)

/-- One more source was deregistered. -/
theorem Unblocking.next {src : Src} {rest : List Src} {results : List Bool}
    (h : Unblocking s₀ s t c (src :: rest) results) (hnodup : (src :: rest).Nodup)
    (hl : ∀ src' ∈ src :: rest, src' ∈ (s₀.cos c).blockedOn) :
    Unblocking s₀ ((s.setCo c { s.cos c with blockedOn := rest }).deregisterSrc t src) t c rest results := by
  have hin : ∀ n, src = .io n → (((s.setCo c { s.cos c with blockedOn := rest }).threads t).ios n).isSome = true :=
    fun n hn => h.iosIn n (hn ▸ List.mem_cons_self)
  have he := deregister_effect (s.setCo c { s.cos c with blockedOn := rest }) t src hin
  obtain ⟨e, r, hco, hwoken⟩ := h.co
  refine ⟨⟨e, r, ?_, hwoken⟩, h.queues.trans he.queues, ?_, ?_, ?_, ?_⟩
  · rw [he.cos, setCo_self, hco]
  · intro src' hsrc' hrest
    by_cases hsrc : src' = src
    · subst hsrc
      exact he.unregistered
    · refine he.keeps src' (h.gone src' hsrc' (fun hmem => ?_))
      rcases List.mem_cons.1 hmem with heq | hmem
      · exact hsrc heq
      · exact hrest hmem
  · intro n hn
    rw [he.ios n (fun heq => (List.nodup_cons.1 hnodup).1 (heq ▸ hn))]
    exact h.iosIn n (List.mem_cons_of_mem _ hn)
  · intro n hn
    rw [he.ios n (fun heq => hn (heq ▸ hl src List.mem_cons_self))]
    exact h.iosOut n hn
  · intro slot
    rcases he.wheel slot with hnone | hsame
    · exact .inl hnone
    · rcases h.wheel slot with hnone | h₀ | ⟨n, tick, r, hn, htimeout, hslot⟩
      · exact .inl (hsame.trans hnone)
      · exact .inr (.inl (hsame.trans h₀))
      · have htimeout' : ((s.setCo c { s.cos c with blockedOn := rest }).deregisterSrc t src).timeouts n =
            some (slot, tick) := (congrFun he.timeouts n).trans htimeout
        rcases List.mem_cons.1 hn with heq | hn
        · subst heq
          exact (he.unregistered slot tick r htimeout' (hsame.trans hslot)).elim
        · exact .inr (.inr ⟨n, tick, r, hn, htimeout', hsame.trans hslot⟩)

/-- A thread that registers sources asks the next one, or is done with them. -/
theorem register_cases {cfg : Config} {a : ThreadAct α} {todo : List Src} {hit : Option (Event × Reg)}
    {next : AfterRegister} (hpc : (s.threads t).pc = .register c todo hit next) (h : s.threadStep cfg t a = some s') :
    (∃ src rest due slot tick, todo = src :: rest ∧ a = .register due slot tick ∧ s.register t due slot tick = some s') ∨
      todo = [] ∧ a = .next ∧ s' = s.registered t c hit next := by
  cases a with
  | register due slot tick =>
    cases todo with
    | nil => simp [threadStep, register, hpc] at h
    | cons src rest => exact .inl ⟨src, rest, due, slot, tick, rfl, rfl, h⟩
  | next =>
    cases todo with
    | nil =>
      simp only [threadStep, hpc, Option.some.injEq] at h
      exact .inr ⟨rfl, rfl, h.symm⟩
    | cons src rest => simp [threadStep, hpc] at h
  | start => simp [threadStep, hpc, Pc.isStarting] at h
  | tick => simp [threadStep, hpc, Pc.isPoll] at h
  | notify id => simp [threadStep, hpc, Pc.isPoll] at h
  | ready => simp [threadStep, hpc] at h
  | timeout slot => simp [threadStep, hpc] at h
  | stop => simp [threadStep, hpc, Pc.isPoll] at h
  | sched choice => simp [threadStep, sched, hpc] at h
  | user u => simp [threadStep, user, hpc] at h

/-- What is only left by `next` is left by nothing else. -/
theorem next_cases {cfg : Config} {a : ThreadAct α}
    (hpc : (∃ next, (s.threads t).pc = .deregister c next) ∨ (s.threads t).pc = .resumed c k)
    (h : s.threadStep cfg t a = some s') : a = .next := by
  rcases hpc with ⟨next, hpc⟩ | hpc <;> cases a with
  | next => rfl
  | start => simp [threadStep, hpc, Pc.isStarting] at h
  | tick => simp [threadStep, hpc, Pc.isPoll] at h
  | notify id => simp [threadStep, hpc, Pc.isPoll] at h
  | ready => simp [threadStep, hpc] at h
  | timeout slot => simp [threadStep, hpc] at h
  | stop => simp [threadStep, hpc, Pc.isPoll] at h
  | sched choice => simp [threadStep, sched, hpc] at h
  | register due slot tick => simp [threadStep, register, hpc] at h
  | user u => simp [threadStep, user, hpc] at h

theorem registrations_concat {done : List Src} {results : List Bool} (hlen : results.length = done.length) (src : Src)
    (ready : Bool) : registrations (done ++ [src]) (results ++ [ready]) =
      registrations done results ++ [.register src ready] := by
  rw [registrations, List.zipWith_append hlen.symm]
  rfl

theorem WokenBy.append {results : List Bool} {e : Event} (h : WokenBy s₀ c results e) (ready : Bool) :
    WokenBy s₀ c (results ++ [ready]) e := by
  obtain ⟨src, hsrc, hres, hrw⟩ := h
  refine ⟨src, hsrc, ?_, hrw⟩
  rw [List.getElem?_append_left (List.getElem?_eq_some_iff.1 hres).1]
  exact hres

theorem registered_setPc {pc : Pc α} {r : Reg} {src : Src} : (s.setPc t pc).Registered t r src ↔ s.Registered t r src := by
  cases src <;> simp only [Registered, setPc, setThread_self] <;> exact Iff.rfl

theorem unregistered_setPc {pc : Pc α} {src : Src} : (s.setPc t pc).Unregistered t src ↔ s.Unregistered t src := by
  cases src <;> simp only [Unregistered, setPc, setThread_self] <;> exact Iff.rfl

theorem Registering.setPc {done : List Src} {results : List Bool} (h : Registering s₀ s t c done results) (pc : Pc α) :
    Registering s₀ (s.setPc t pc) t c done results := by
  have hth : (s.setPc t pc).threads t = { s.threads t with pc := pc } := setThread_self _ _ _
  refine ⟨h.co, h.srcs, ?_, h.length, fun i src hi hres => registered_setPc.2 (h.registered i src hi hres), ?_, ?_, ?_⟩
  · rw [hth]
    exact ⟨h.queues.spawned, h.queues.ready⟩
  · rw [hth]
    exact h.iosIn
  · rw [hth]
    exact h.iosOut
  · intro slot
    rw [hth]
    exact h.wheel slot

theorem Unblocking.setPc {rest : List Src} {results : List Bool} (h : Unblocking s₀ s t c rest results) (pc : Pc α) :
    Unblocking s₀ (s.setPc t pc) t c rest results := by
  have hth : (s.setPc t pc).threads t = { s.threads t with pc := pc } := setThread_self _ _ _
  refine ⟨h.co, ?_, fun src hsrc hrest => unregistered_setPc.2 (h.gone src hsrc hrest), ?_, ?_, ?_⟩
  · rw [hth]
    exact ⟨h.queues.spawned, h.queues.ready⟩
  · rw [hth]
    exact h.iosIn
  · rw [hth]
    exact h.iosOut
  · intro slot
    rw [hth]
    exact h.wheel slot

/-- The last source that said it is ready unblocks the coroutine. -/
theorem Registering.unblock {results : List Bool} {e : Event} (h : Registering s₀ s t c (s₀.cos c).blockedOn results)
    (r : Reg) (hw : WokenBy s₀ c results e) :
    Unblocking s₀ (s.setCo c { s.cos c with state := .ready, lastEvent := e, wokenBy := some r }) t c
      (s₀.cos c).blockedOn results := by
  refine ⟨⟨e, r, ?_, hw⟩, h.queues, fun src hsrc hrest => (hrest hsrc).elim, h.iosIn, h.iosOut, ?_⟩
  · rw [setCo_self, h.co]
  · intro slot
    rcases h.wheel slot with hsame | ⟨-, hslot⟩
    · exact .inr (.inl hsame)
    · exact .inr (.inr hslot)

/-- **A step of `register_all`.** -/
theorem Phase.register {cfg : Config} {a : ThreadAct α} {done todo : List Src} {results : List Bool}
    {hit : Option (Event × Reg)} (h₀ : SwitchedOut s₀ t c k) (hpc : (s.threads t).pc = .register c todo hit (.resumed k))
    (hl : done ++ todo = (s₀.cos c).blockedOn) (hr : Registering s₀ s t c done results)
    (hnone : hit = none → true ∉ results) (hsome : ∀ e r, hit = some (e, r) → WokenBy s₀ c results e)
    (h : s.threadStep cfg t a = some s') : Phase s₀ t c k (registrations done results ++ s.srcCall t a) s' := by
  rcases register_cases hpc h with ⟨src, rest, due, slot, tick, rfl, rfl, hreg⟩ | ⟨rfl, rfl, rfl⟩
  · have hmem : src ∈ (s₀.cos c).blockedOn := hl ▸ List.mem_append_right _ List.mem_cons_self
    have hcall : s.srcCall t (.register due slot tick) = [.register src (s.registerReady due src)] := by
      simp only [srcCall, hpc]
    have hio : ∀ n, src = .io n → s.registerReady due src = false := by
      rintro n rfl
      rfl
    rcases register_effect hpc hreg with ⟨hpanic, n, rfl, hn⟩ | ⟨hpc', he⟩
    · have hfresh : Src.io n ∉ done := by
        have hnodup := h₀.nodup
        rw [← hl] at hnodup
        exact fun hmem => (List.nodup_append.1 hnodup).2.2 _ hmem _ List.mem_cons_self rfl
      exact .failed n hpanic hmem (by rwa [← hr.iosOut n hfresh])
    · have hat : (s₀.cos c).blockedOn[done.length]? = some src := by
        rw [← hl, List.getElem?_append_right (Nat.le_refl _), Nat.sub_self, List.getElem?_cons_zero]
      have hsrcs := hr.srcs src hmem
      refine .registering (done ++ [src]) rest (results ++ [s.registerReady due src]) _ hpc' ?_ ?_ ?_ ?_ ?_
      · rw [List.append_assoc]
        exact hl
      · rw [hcall, registrations_concat hr.length]
      · exact hr.next h₀ hl he hio
      · intro hhit
        split at hhit
        · cases hhit
        · rename_i hfalse
          rw [List.mem_append, List.mem_singleton]
          rintro (hmem | htrue)
          · exact hnone hhit hmem
          · exact hfalse htrue.symm
      · intro e r hhit
        split at hhit
        · rename_i htrue
          cases hhit
          rw [hsrcs, h₀.ids _ _ hat]
          refine ⟨src, hat, ?_, rfl⟩
          simp [← hr.length, htrue]
        · exact (hsome e r hhit).append _
  · rw [List.append_nil] at hl
    have hcall : s.srcCall t .next = [] := by simp only [srcCall, hpc]
    rw [hcall, List.append_nil, hl]
    rw [hl] at hr
    cases hit with
    | none => exact .parked results (by rw [registered, afterRegister, setPc, setThread_self]) rfl (hnone rfl) (hr.setPc _)
    | some hit =>
      obtain ⟨e, r⟩ := hit
      refine .unblocking [] (s₀.cos c).blockedOn results (by rw [registered, setPc, setThread_self]) rfl ?_ hr.length
        ((hr.unblock r (hsome e r rfl)).setPc _)
      rw [List.map_nil, List.append_nil]

/-- **A step of `deregister_all`.** -/
theorem Phase.deregister {cfg : Config} {a : ThreadAct α} {gone rest : List Src} {results : List Bool}
    (h₀ : SwitchedOut s₀ t c k) (hpc : (s.threads t).pc = .deregister c (.woken (.resumed k)))
    (hl : gone ++ rest = (s₀.cos c).blockedOn) (hlen : results.length = (s₀.cos c).blockedOn.length)
    (hr : Unblocking s₀ s t c rest results) (h : s.threadStep cfg t a = some s') :
    Phase s₀ t c k (registrations (s₀.cos c).blockedOn results ++ gone.map .deregister ++ s.srcCall t a) s' := by
  have hblocked : (s.cos c).blockedOn = rest := by
    obtain ⟨e, r, hco, -⟩ := hr.co
    rw [hco]
  have hnodup := h₀.nodup
  rw [← hl] at hnodup
  obtain rfl := next_cases (c := c) (k := k) (.inl ⟨_, hpc⟩) h
  simp only [threadStep, hpc, Option.some.injEq] at h
  subst h
  cases rest with
  | nil =>
    have hcall : s.srcCall t .next = [] := by simp only [srcCall, hpc, hblocked]
    rw [List.append_nil] at hl
    rw [hcall, List.append_nil, hl]
    simp only [Instance.deregister, hblocked, afterDeregister, afterRegister]
    exact .woken results (by rw [setPc, setThread_self]) rfl hlen (hr.setPc _)
  | cons src rest =>
    have hcall : s.srcCall t .next = [.deregister src] := by simp only [srcCall, hpc, hblocked]
    have hin : ∀ n, src = .io n → (((s.setCo c { s.cos c with blockedOn := rest }).threads t).ios n).isSome = true :=
      fun n hn => hr.iosIn n (hn ▸ List.mem_cons_self)
    rw [hcall, List.append_assoc]
    simp only [Instance.deregister, hblocked]
    refine .unblocking (gone ++ [src]) rest results ?_ ?_ ?_ hlen (hr.next (List.nodup_append.1 hnodup).2.1 ?_)
    · exact (deregister_effect _ t src hin).pc.trans hpc
    · rw [List.append_assoc]
      exact hl
    · rw [List.map_append]
      rfl
    · exact fun src' hsrc' => hl ▸ List.mem_append_right _ hsrc'

theorem afterResume_blocked (hb : (s.cos c).state = .blocked) : s.afterResume t c k =
    (s.setCo c { s.cos c with children := [] }).setThread t { s.threads t with
      spawned := (s.threads t).spawned ++ (s.cos c).children.map Handle.new, pc := .call k } := by
  simp only [afterResume, hb]

theorem afterResume_ready (hb : (s.cos c).state = .ready) : s.afterResume t c k =
    (s.setCo c { s.cos c with children := [] }).setThread t { s.threads t with
      spawned := (s.threads t).spawned ++ (s.cos c).children.map Handle.new
      ready := (s.threads t).ready ++ [Handle.new c], pc := .call k } := by
  simp only [afterResume, hb]

/-- **The end of `after_resume`** for a coroutine that stays Blocked. -/
theorem Registering.settled {calls : List SrcCall} {results : List Bool} (h₀ : SwitchedOut s₀ t c k)
    (hr : Registering s₀ s t c (s₀.cos c).blockedOn results) (hfalse : true ∉ results)
    (hcalls : calls = registrations (s₀.cos c).blockedOn results) : Settled s₀ (s.afterResume t c k) t c calls := by
  have hb : (s.cos c).state = .blocked := by rw [hr.co]; exact h₀.blocked
  rw [afterResume_blocked hb]
  refine ⟨?_, ?_, ?_, .inl ⟨⟨results, hr.length, hfalse, hcalls⟩, ?_, ?_, ?_, ?_, ?_⟩⟩
  · rw [setThread_cos, setCo_self]
  · rw [setThread_self, hr.co, hr.queues.spawned]
  · rw [setThread_self]
    exact hr.iosOut
  · rw [setThread_cos, setCo_self]
    exact hb
  · rw [setThread_cos, setCo_self, hr.co]
  · intro i src hi
    have hres : results[i]? = some false := by
      have hlt : i < results.length := by
        rw [hr.length]
        exact (List.getElem?_eq_some_iff.1 hi).1
      rw [List.getElem?_eq_getElem hlt, Option.some_inj]
      exact Bool.eq_false_iff.2 (fun ht => hfalse (ht ▸ List.getElem_mem hlt))
    have hreg := hr.registered i src hi hres
    cases src with
    | recv ch => exact hreg
    | timer n =>
      simp only [Registered, setThread_self]
      exact hreg
    | io n =>
      rw [Registered, setThread_self]
      exact hreg
  · intro slot
    rw [setThread_self]
    exact hr.wheel slot
  · rw [setThread_self]
    exact hr.queues.ready

/-- **The end of `after_resume`** for a coroutine that was unblocked. -/
theorem Unblocking.settled {calls : List SrcCall} {results : List Bool} (hr : Unblocking s₀ s t c [] results)
    (hlen : results.length = (s₀.cos c).blockedOn.length)
    (hcalls : calls = registrations (s₀.cos c).blockedOn results ++ (s₀.cos c).blockedOn.map .deregister) :
    Settled s₀ (s.afterResume t c k) t c calls := by
  obtain ⟨e, r, hco, hwoken⟩ := hr.co
  have hb : (s.cos c).state = .ready := by rw [hco]
  rw [afterResume_ready hb]
  refine ⟨?_, ?_, ?_, .inr ⟨⟨results, hlen, hcalls, ?_⟩, ?_, ?_, ?_, ?_, ?_⟩⟩
  · rw [setThread_cos, setCo_self]
  · rw [setThread_self, hco, hr.queues.spawned]
  · rw [setThread_self]
    exact hr.iosOut
  · rw [setThread_cos, setCo_self, hco]
    exact hwoken
  · rw [setThread_cos, setCo_self]
    exact hb
  · rw [setThread_cos, setCo_self, hco]
  · intro src hsrc
    have hun := hr.gone src hsrc List.not_mem_nil
    cases src with
    | recv ch => exact hun
    | timer n =>
      simp only [Unregistered, setThread_self]
      exact hun
    | io n =>
      rw [Unregistered, setThread_self]
      exact hun
  · intro slot
    rw [setThread_self]
    rcases hr.wheel slot with hnone | hsame | ⟨n, -, -, hn, -⟩
    · exact .inl hnone
    · exact .inr hsame
    · cases hn
  · rw [setThread_self]
    simp only [hr.queues.ready]

/-- **A step of thread `t`** leads from phase to phase. -/
theorem Phase.own {cfg : Config} {a : ThreadAct α} {calls : List SrcCall} (h₀ : SwitchedOut s₀ t c k)
    (hp : Phase s₀ t c k calls s) (hcall : (s.threads t).pc ≠ .call k) (h : s.threadStep cfg t a = some s') :
    Phase s₀ t c k (calls ++ s.srcCall t a) s' := by
  cases hp with
  | registering done todo results hit hpc hl hcalls hr hnone hsome =>
    rw [hcalls]
    exact Phase.register h₀ hpc hl hr hnone hsome h
  | unblocking gone rest results hpc hl hcalls hlen hr =>
    rw [hcalls]
    exact Phase.deregister h₀ hpc hl hlen hr h
  | parked results hpc hcalls hfalse hr =>
    obtain rfl := next_cases (.inr hpc) h
    have hno : s.srcCall t .next = [] := by simp only [srcCall, hpc]
    have hover := hr.settled h₀ hfalse hcalls
    simp only [threadStep, hpc, Option.some.injEq] at h
    subst h
    rw [hno, List.append_nil]
    refine .ended ?_ hover
    unfold afterResume
    simp only
    split <;> rw [setThread_self]
  | woken results hpc hcalls hlen hr =>
    obtain rfl := next_cases (.inr hpc) h
    have hno : s.srcCall t .next = [] := by simp only [srcCall, hpc]
    have hover := hr.settled (k := k) hlen hcalls
    simp only [threadStep, hpc, Option.some.injEq] at h
    subst h
    rw [hno, List.append_nil]
    refine .ended ?_ hover
    unfold afterResume
    simp only
    split <;> rw [setThread_self]
  | ended hpc _ => exact (hcall hpc).elim
  | failed n hpc _ _ => cases a <;> simp [threadStep, sched, Instance.register, user, hpc, Pc.isStarting, Pc.isPoll] at h

theorem registering_nil (s₀ : Instance S w α) (t c : Nat) : Registering s₀ s₀ t c [] [] where
  co := rfl
  srcs _ _ := rfl
  queues := ⟨rfl, rfl⟩
  length := rfl
  registered i src hi _ := by cases hi
  iosIn n hn := by cases hn
  iosOut _ _ := rfl
  wheel _ := .inl rfl

theorem afterResume_phase {cfg : Config} {calls : List SrcCall} (h₀ : SwitchedOut s₀ t c k)
    (h : AfterResume cfg t c k s₀ calls s) : Phase s₀ t c k calls s := by
  induction h with
  | start =>
    refine .registering [] (s₀.cos c).blockedOn [] none h₀.pc rfl rfl (registering_nil s₀ t c)
      (fun _ => List.not_mem_nil) ?_
    intro e r hhit
    cases hhit
  | own a _ hcall hst ih => exact ih.own h₀ hcall hst
  | other _ hu ih => exact ih.other hu

end steps

/-- The run panics on a mio source that was registered before, and on nothing else. -/
theorem after_resume_panics {cfg : Config} {s₀ s : Instance S w α} {t c : Nat} {k : Callback} {calls : List SrcCall}
    (h₀ : SwitchedOut s₀ t c k) (h : AfterResume cfg t c k s₀ calls s) (hpanic : (s.threads t).pc.isPanicked = true) :
    ∃ n, Src.io n ∈ (s₀.cos c).blockedOn ∧ ((s₀.threads t).ios n).isSome = true := by
  have hother : ∀ pc : Pc α, (s.threads t).pc = pc → pc.isPanicked = true := fun pc he => he ▸ hpanic
  cases afterResume_phase h₀ h with
  | failed n _ hn hio => exact ⟨n, hn, hio⟩
  | registering done todo results hit he => cases hother _ he
  | unblocking gone rest results he => cases hother _ he
  | parked results he => cases hother _ he
  | woken results he => cases hother _ he
  | ended he => cases hother _ he

/-! ## Before it, and beside it -/

theorem selectAdd_of_not_mem {src : Src} : ∀ (l : List (Src × RW)) (srcs : Src → SrcCommon) (n : Nat),
    src ∉ l.map Prod.fst → selectAdd srcs n l src = srcs src
  | [], _, _, _ => rfl
  | (src', rw) :: l, srcs, n, h => by
    rw [List.map_cons, List.mem_cons, not_or] at h
    rw [selectAdd, selectAdd_of_not_mem l _ _ h.2, Function.update_of_ne h.1]

/-- **`select_add` gives positions.** -/
theorem selectAdd_id {src : Src} : ∀ (l : List (Src × RW)) (srcs : Src → SrcCommon) (n i : Nat),
    (l.map Prod.fst).Nodup → (l.map Prod.fst)[i]? = some src → (selectAdd srcs n l src).id = n + i
  | [], _, _, _, _, hi => by cases hi
  | (src', rw) :: l, srcs, n, 0, hnodup, hi => by
    obtain rfl : src' = src := by simpa using hi
    rw [selectAdd, selectAdd_of_not_mem l _ _ (List.nodup_cons.1 hnodup).1, Function.update_self]
    rfl
  | (src', rw) :: l, srcs, n, i + 1, hnodup, hi => by
    rw [selectAdd, selectAdd_id l _ (n + 1) i (List.nodup_cons.1 hnodup).2 (by simpa using hi)]
    omega

/-- **A coroutine that selects over distinct sources switches out** as `after_resume` expects it. -/
theorem select_switchedOut {cfg : Config} {s s' : Instance S w α} {t c : Nat} {k : Callback} {l : List (Src × RW)}
    (hpc : (s.threads t).pc = .exec c (.resumed k) .user) (hempty : (s.cos c).blockedOn = [])
    (hnodup : (l.map Prod.fst).Nodup) (h : s.user cfg t (.select l) = some s') :
    SwitchedOut s' t c k ∧ (s'.cos c).blockedOn = l.map Prod.fst := by
  simp only [user, hpc, hempty, List.nil_append, List.length_nil, Option.some.injEq] at h
  subst h
  have hco : ∀ (m : Instance S w α) (pc : Pc α), (m.setPc t pc).cos = m.cos := fun _ _ => rfl
  refine ⟨⟨?_, ?_, ?_, ?_⟩, ?_⟩
  · rw [leave, hco, setPc, setThread_self]
  · rw [leave, hco, setCo_self]
  · rw [leave, hco, setCo_self]
    exact hnodup
  · intro i src hi
    rw [leave, hco, setCo_self] at hi
    exact (selectAdd_id l s.srcs 0 i hnodup hi).trans (Nat.zero_add i)
  · rw [leave, hco, setCo_self]

theorem undisturbed_setChan {s : Instance S w α} {ch : ChanId} {chan : Chan w (ExitStatus α) Reg Nat} (t c : Nat)
    (own : List Src) (h : chan.token = (s.chans ch).token ∧ chan.sender = (s.chans ch).sender) :
    Undisturbed t c own s (s.setChan ch chan) := by
  refine ⟨rfl, ⟨rfl, rfl⟩, rfl, rfl, rfl, fun _ _ => rfl, fun ch' _ => ?_, fun _ _ => rfl⟩
  by_cases hch : ch' = ch
  · subst hch
    simpa [setChan] using h
  · simp [setChan, hch]

/-- **Senders leave `after_resume` alone**, on whatever thread. -/
theorem undisturbed_sender {s s' : Instance S w α} {n i : Nat} {a : SenderAct (ExitStatus α)} (t c : Nat)
    (own : List Src) (h : s.senderStep n i a = some s') : Undisturbed t c own s s' := by
  unfold senderStep at h
  split at h
  · cases h
  · rename_i chan l r hstep
    obtain ⟨htoken, hsender, -⟩ := (senderStep_move hstep).shared
    have hu := undisturbed_setChan t c own (s := s) ⟨htoken, hsender⟩
    by_cases hopen : (s.threads l).isOpen = true
    · simp only [if_pos hopen, Option.some.injEq] at h
      subst h
      have hth : ∀ i, (((s.setChan (.user n) chan).send l (.channelMsg r)).threads i).pc = (s.threads i).pc := by
        intro i
        rw [threads_send]
        rfl
      refine ⟨hth t, ?_, ?_, ?_, rfl, hu.srcs, hu.chans, hu.timeouts⟩
      · rw [threads_send]
        exact ⟨rfl, rfl⟩
      · rw [threads_send]
        rfl
      · rw [threads_send]
        rfl
    · simp only [if_neg hopen, Option.some.injEq] at h
      subst h
      exact hu
  · rename_i chan m hstep
    obtain ⟨htoken, hsender, -⟩ := (senderStep_move hstep).shared
    cases h
    exact undisturbed_setChan t c own ⟨htoken, hsender⟩

/-! ## The result -/

/-- Thread `t` takes these steps of `after_resume`, with the calls it makes. -/
def runCalls [DecidableEq α] (cfg : Config) (t : Nat) (k : Callback) : List (ThreadAct α) → List SrcCall → Instance S w α →
    Option (List SrcCall × Instance S w α)
  | [], calls, s => some (calls, s)
  | a :: as, calls, s =>
    if (s.threads t).pc = .call k then none
    else match s.threadStep cfg t a with
      | some s' => runCalls cfg t k as (calls ++ s.srcCall t a) s'
      | none => none

theorem AfterResume.runCalls [DecidableEq α] {cfg : Config} {t c : Nat} {k : Callback} {s₀ : Instance S w α} :
    ∀ (as : List (ThreadAct α)) (calls : List SrcCall) (s : Instance S w α) (r : List SrcCall × Instance S w α),
      AfterResume cfg t c k s₀ calls s → Instance.runCalls cfg t k as calls s = some r →
        AfterResume cfg t c k s₀ r.1 r.2
  | [], calls, s, r, h, hr => by
    cases hr
    exact h
  | a :: as, calls, s, r, h, hr => by
    rw [Instance.runCalls] at hr
    split at hr
    · cases hr
    · rename_i hpc
      cases hst : s.threadStep cfg t a with
      | none => rw [hst] at hr; cases hr
      | some s' =>
        rw [hst] at hr
        exact AfterResume.runCalls as _ s' r (.own a h hpc hst) hr

/-- **A coroutine that blocks switches cleanly**, whatever its sources, and whichever of them are ready. -/
theorem after_resume_settled {cfg : Config} {s₀ s : Instance S w α} {t c : Nat} {k : Callback} {calls : List SrcCall}
    (h₀ : SwitchedOut s₀ t c k) (h : AfterResume cfg t c k s₀ calls s) (hpc : (s.threads t).pc = .call k) :
    Settled s₀ s t c calls := by
  have hother : ∀ pc : Pc α, (s.threads t).pc = pc → pc = .call k := fun pc he => he.symm.trans hpc
  cases afterResume_phase h₀ h with
  | ended _ hs => exact hs
  | registering done todo results hit he => cases hother _ he
  | unblocking gone rest results he => cases hother _ he
  | parked results he => cases hother _ he
  | woken results he => cases hother _ he
  | failed n he => cases hother _ he

/-- The calls for an empty channel, a timer that is due and a mio source. -/
def dueCalls : List SrcCall :=
  [.register (.recv (.user 0)) false, .register (.timer 0) true, .register (.io 0) false,
    .deregister (.recv (.user 0)), .deregister (.timer 0), .deregister (.io 0)]

/-- The first coroutine of an instance selects over these. -/
theorem after_resume_settled_due : ∃ s₀ s : Instance fifo 64 Unit,
    SwitchedOut s₀ 0 0 .spawned ∧ (s₀.cos 0).blockedOn = [.recv (.user 0), .timer 0, .io 0] ∧
      (s.threads 0).pc = .call .spawned ∧ Settled s₀ s 0 0 dueCalls := by
  let l : List (Src × RW) := [(.recv (.user 0), RW.ofRead), (.timer 0, RW.ofRead), (.io 0, RW.both)]
  let steps : List (ThreadAct Unit) := [.register false 0 0, .register true 0 0, .register false 0 0] ++
    List.replicate 6 .next
  have hex : (((mioco fifo 64 Unit ⟨1, true⟩ (fun _ => none)).exec
      [.thread 0 .start, .thread 0 (.sched 0), .thread 0 .next, .thread 0 (.sched 0)]
        (.start fifo 64 (fun _ => none))).any (fun s =>
      decide ((s.threads 0).pc = .exec 0 (.resumed .spawned) .user ∧ (s.cos 0).blockedOn = []) &&
        (s.user ⟨1, true⟩ 0 (.select l)).any (fun s₀ =>
          (runCalls ⟨1, true⟩ 0 .spawned steps [] s₀).any (fun r =>
            decide ((r.2.threads 0).pc = .call .spawned ∧ r.1 = dueCalls))))) = true := by
    decide +kernel
  obtain ⟨s, -, h⟩ := (Option.any_eq_true _ _).1 hex
  rw [Bool.and_eq_true, decide_eq_true_iff] at h
  obtain ⟨⟨hpc, hempty⟩, h⟩ := h
  obtain ⟨s₀, hs₀, h⟩ := (Option.any_eq_true _ _).1 h
  obtain ⟨⟨calls, s₁⟩, hrun, h⟩ := (Option.any_eq_true _ _).1 h
  obtain ⟨hend, hcalls⟩ := of_decide_eq_true h
  obtain ⟨hout, hblocked⟩ := select_switchedOut hpc hempty (by decide) hs₀
  have hafter := AfterResume.runCalls _ _ _ _ (.start (c := 0)) hrun
  rw [hcalls] at hafter
  exact ⟨s₀, s₁, hout, hblocked, hend, after_resume_settled hout hafter hend⟩

end Instance
end Mioco
