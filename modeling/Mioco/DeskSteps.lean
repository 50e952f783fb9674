import Mioco.Desk
/-!
# The steps of a thread, and its handles

One lemma per step of a pool: the thread that takes it keeps `DeskOk`, part by part.
-/
namespace Mioco.Pooling

open Lib (Slab)

variable {p p' : Pool} {t i c : Nat}

/-! ## A thread goes on -/

section goes
variable {d : Desk} {st : Stage}

/-- The thread stays with its coroutine, or it leaves one that has ended. -/
theorem Desk.Goes.hands (h : d.Goes st) :
    st.hand = d.stage.hand ∧ st.resuming = d.stage.resuming ∧ st.runs = d.stage.runs ∨
      st.hand = none ∧ st.resuming = none ∧ st.runs = none ∧ (st = .panicked false ∨
        ∃ c ret, d.stage = .ending c ret ∧ ret.kills = true) := by
  cases h with
  | left c ret hst =>
    rw [hst]
    cases ret with
    | resumed k => exact .inl ⟨rfl, rfl, rfl⟩
    | _ => exact .inr ⟨rfl, rfl, rfl, .inr ⟨c, _, rfl, rfl⟩⟩
  | panic => exact .inr ⟨rfl, rfl, rfl, .inl rfl⟩
  | _ => simp_all

theorem Desk.Goes.panics (h : d.Goes st) (hp : st = .panicked false) : d.stage.runs = none := by
  cases h with
  | panic hr => exact hr
  | left c ret => cases ret <;> cases hp
  | _ => cases hp

theorem Desk.Goes.awake (h : d.Goes st) (hp : st ≠ .panicked false) : d.stage ≠ .panicked false ∧ st ≠ .panicked true := by
  cases h with
  | panic => exact (hp rfl).elim
  | left c ret hst => cases ret <;> simp [hst]
  | _ => simp_all

theorem Desk.Goes.fits (h : d.Goes st) {fibers : Nat → Fiber} (hf : d.stage.Fits fibers) : st.Fits fibers := by
  cases h with
  | settled c k hst | freed c k hst =>
    rw [hst] at hf
    simp_all
  | left c ret hst =>
    rw [hst] at hf
    cases ret with
    | resumed k => exact .inl hf
    | _ => trivial
  | _ => trivial

end goes

theorem Desk.Goes.closing {st : Stage} (hg : (p.desks t).Goes st) (h : Closing p t) : Closing (p.setStage t st) t := by
  have hself : (p.setStage t st).desks t = { p.desks t with stage := st } := Pool.setDesk_self _ _ _
  have hkeep : (∀ b, (p.desks t).stage ≠ .panicked b) → (p.desks t).stage.runs = none →
      st.waving = (p.desks t).stage.waving → (st.idle = true → (p.desks t).spawned = [] ∧ (p.desks t).ready = []) →
      (st = .readyNext true → (p.desks t).spawned = []) → ((p.desks t).stage.shuts = true → st.shuts = true) →
      Closing (p.setStage t st) t := by
    intro hp hr hwav hidle hno hshuts
    refine h.keep (hp false) ?_ (fun id x hg' hb => ?_) ?_ ?_ ?_ (fun h1 h2 => ?_) <;> rw [hself] at *
    · exact ⟨hg', hb, fun hx => by rw [hr] at hx; cases hx⟩
    · exact hwav
    · exact hidle
    · exact hno
    · exact ⟨hshuts h1, h2⟩
  have hi := h.idle
  have hno' := h.noSpawned
  cases hg with
  | waved i last hst hnone =>
    obtain ⟨hidle, hno, hshuts, hwaving, hwave⟩ := h
    rw [hst] at hwaving hwave hidle
    obtain ⟨hs, hfirst⟩ := hwaving i last rfl
    refine ⟨fun _ => ?_, fun hn => ?_, fun _ => .inl ?_, fun j last' hw => ?_, fun _ _ id c hg hb => ?_⟩ <;>
      rw [hself] at *
    · exact hidle rfl
    · cases hn
    · exact ⟨rfl, hidle rfl⟩
    · cases hw
    · obtain hr | ⟨j, last', he, hij, hlt⟩ := hwave hs (by simp) id c hg hb
      · cases hr
      · cases he
        rw [Slab.nextFrom_none hfirst hnone id hij hlt] at hg
        cases hg
  | left c ret hst =>
    rw [hst] at hkeep hi
    cases ret with
    | resumed k | killed k => exact hkeep (by simp) rfl rfl (by simp) (by simp) (by simp)
    | stopping | attached | shutdown i last => exact hkeep (by simp) rfl rfl (fun _ => hi rfl) (by simp) (by simp)
  | panic => exact .panic (by rw [hself])
  | start hst | spawnedCalled hst | called _ hst | settled _ _ hst | freed _ _ hst =>
    rw [hst] at hkeep
    exact hkeep (by simp) rfl rfl (by simp) (by simp) (by simp)
  | tick hst hs =>
    refine .of_unshut ?_ ?_ (fun hi => ?_) (fun hn => ?_) <;> rw [hself] at *
    · exact hs
    · rfl
    · cases hi
    · cases hn
  | noSpawned hst hno =>
    rw [hst] at hkeep
    exact hkeep (by simp) rfl rfl (by simp) (fun _ => hno) (by simp)
  | noReady hst hno =>
    rw [hst] at hkeep
    exact hkeep (by simp) rfl rfl (by simp) (by simp) (by simp)
  | delivered hst hready =>
    rw [hst] at hkeep
    exact hkeep (by simp) rfl rfl (fun _ => ⟨hno' hst, hready⟩) (by simp) (by simp)
  | spurious _ _ hst | stop hst =>
    rw [hst] at hkeep hi
    exact hkeep (by simp) rfl rfl (fun _ => hi rfl) (by simp) (by simp)
  | stopped hst _ h1 h2 =>
    rw [hst] at hkeep
    exact hkeep (by simp) rfl rfl (fun _ => ⟨h1, h2⟩) (by simp) (by simp)

/-- **A thread goes on.** -/
theorem DeskOk.goes (h : DeskOk p t) {st : Stage} (hg : (p.desks t).Goes st) : DeskOk (p.setStage t st) t := by
  have hself : (p.setStage t st).desks t = { p.desks t with stage := st } := Pool.setDesk_self _ _ _
  have hhands := hg.hands
  have hkids : ∀ x, (st.kids p.fibers).count x ≤ ((p.desks t).stage.kids p.fibers).count x := by
    intro x
    rcases hhands with ⟨-, hr, -⟩ | ⟨-, hr, -⟩
    · rw [Stage.kids, Stage.kids, hr]
    · rw [Stage.kids_none hr]
      exact Nat.zero_le _
  have hwait : ∀ x, (p.setStage t st).waiting t x = (p.desks t).queued x + (st.kids p.fibers).count x :=
    fun x => Pool.waiting_setDesk _ x
  have hin : ∀ x, st.inHand x ≤ (p.desks t).stage.inHand x := by
    intro x
    rcases hhands with ⟨he, -⟩ | ⟨he, -⟩
    · rw [Stage.inHand, Stage.inHand, he]
    · rw [Stage.inHand_none he]
      exact Nat.zero_le _
  refine ⟨h.handled.keep (fun hs => ?_) (fun x => ?_) (fun _ _ => rfl) (fun hs x hx => ?_), ?_,
    h.stored.keep ?_ (fun _ => ⟨rfl, rfl, Iff.rfl⟩), hg.closing h.closing, ?_, ?_⟩
  · rwa [hself] at hs
  · rw [hwait, hself]
    exact Nat.add_le_add (Nat.add_le_add_left (hkids x) _) (hin x)
  · rw [hwait] at hx
    exact h.handled.fit hs x (Nat.lt_of_lt_of_le hx (Nat.add_le_add_left (hkids x) _))
  · rw [hself]
    exact hg.fits h.fits
  · rw [hself]
  · by_cases hp : st = .panicked false
    · refine .panic (by rw [hself]; exact hp) (fun x hx hk => ?_)
      by_contra hl
      have hr := h.kin.dead x hx hk hl
      rw [hg.panics hp] at hr
      cases hr
    refine h.kin.keep (hg.awake hp).1 (fun hs => ?_) (fun _ => ⟨rfl, rfl, rfl, fun hfin => hfin⟩) (fun q hq => ?_)
      (fun x hx _ _ => ?_) (fun _ x hx hl => ?_)
    · rwa [hself] at hs
    · rw [hself]
      rcases hhands with ⟨-, hr, -⟩ | ⟨-, -, -, hp' | ⟨c, ret, hst, hret⟩⟩
      · exact hr.trans hq
      · exact (hp hp').elim
      · rw [hst] at hq
        cases ret with
        | resumed k => cases hret
        | _ => cases hq
    · rw [hself]
      rcases hhands with ⟨-, -, hr⟩ | ⟨-, -, -, hp' | ⟨c, ret, hst, -⟩⟩
      · exact hr.trans hx
      · exact (hp hp').elim
      · rw [hst] at hx
        cases hx
    · refine Or.imp_right (fun hpos => ?_)
      rw [hwait, hself]
      rw [Pool.waiting] at hpos
      rcases hhands with ⟨hh, hr, -⟩ | ⟨-, -, -, hp' | ⟨c, ret, hst, hret⟩⟩
      · rwa [Stage.kids, Stage.inHand, hr, hh]
      · exact (hp hp').elim
      · have hfin := h.fits
        rw [hst] at hfin hpos
        have hne : x ≠ c := by
          rintro rfl
          exact hl hfin
        rw [Stage.inHand, if_neg (by simpa using Ne.symm hne), Stage.kids_none (by cases ret <;> first | rfl | cases hret),
          List.count_nil] at hpos
        omega
  · rw [hself]
    by_cases hp : st = .panicked false
    · rw [hp]
      simp
    · exact (hg.awake hp).2

/-! ## Handles move -/

/-- A handle moves on a thread that is not shutting down. -/
theorem DeskOk.shift (h : DeskOk p t) {d : Desk} (hs : (p.desks t).isShuttingDown = false)
    (hp : (p.desks t).stage ≠ .panicked false) (hres : (p.desks t).stage.resuming = none)
    (hruns : (p.desks t).stage.runs = none) (hsd : d.isShuttingDown = false)
    (hco : d.coroutines = (p.desks t).coroutines)
    (heq : ∀ x, d.queued x + (d.stage.kids p.fibers).count x + d.stage.inHand x =
      p.waiting t x + (p.desks t).stage.inHand x)
    (hfit : ∀ x, 0 < d.queued x + (d.stage.kids p.fibers).count x →
      (p.fibers x).state = .ready ∧ (p.fibers x).killed = false)
    (hfits : d.stage.Fits p.fibers) (hwav : d.stage.waving = none) (hidle : d.stage.idle = false)
    (hno : d.stage ≠ .readyNext true) (hstray : d.stage ≠ .panicked true) : DeskOk (p.setDesk t d) t := by
  have hself : (p.setDesk t d).desks t = d := Pool.setDesk_self _ _ _
  refine ⟨h.handled.keep (fun _ => hs) (fun x => ?_) (fun _ _ => rfl) (fun _ x hx => ?_), ?_,
    h.stored.keep ?_ (fun _ => ⟨rfl, rfl, Iff.rfl⟩), .of_unshut ?_ ?_ (fun hi => ?_) (fun hn => ?_),
    h.kin.keep hp (fun _ => hs) (fun _ => ⟨rfl, rfl, rfl, fun hfin => hfin⟩) (fun q hq => ?_)
      (fun x hx _ _ => ?_) (fun _ x _ _ => Or.imp_right (fun hpos => ?_)), ?_⟩
  · rw [Pool.waiting_setDesk, hself, heq]
  · rw [Pool.waiting_setDesk] at hx
    exact hfit x hx
  · rwa [hself]
  · rwa [hself]
  · rwa [hself]
  · rwa [hself]
  · rw [hself, hidle] at hi
    cases hi
  · rw [hself] at hn
    exact (hno hn).elim
  · rw [hres] at hq
    cases hq
  · rw [hruns] at hx
    cases hx
  · rwa [Pool.waiting_setDesk, hself, heq]
  · rwa [hself]

theorem Closing.unshut_of_ready (h : Closing p t) (hp : (p.desks t).stage ≠ .panicked false) {rest : List Nat}
    (hr : (p.desks t).ready = c :: rest ∨ (p.desks t).spawned = c :: rest) : (p.desks t).isShuttingDown = false := by
  by_contra hs
  rcases h.shuts (by simpa using hs) with ⟨-, h1, h2⟩ | hp'
  · rw [h1, h2] at hr
    rcases hr with hr | hr <;> cases hr
  · exact hp hp'

/-- The `ready` queue, to the scheduler. -/
theorem DeskOk.readies (h : DeskOk p t) {b : Bool} {rest : List Nat} (hst : (p.desks t).stage = .readyNext b)
    (hready : (p.desks t).ready = c :: rest) : DeskOk (p.setDesk t { p.desks t with
      ready := rest, held := (p.desks t).held ++ [c], stage := .call .ready }) t := by
  have hp : (p.desks t).stage ≠ .panicked false := by simp [hst]
  have hs := h.closing.unshut_of_ready hp (.inl hready)
  have hq : ∀ x, p.waiting t x = ({ p.desks t with
      ready := rest, held := (p.desks t).held ++ [c], stage := .call .ready } : Desk).queued x := by
    intro x
    rw [Pool.waiting, hst, Stage.kids_none rfl]
    simp only [Desk.queued, hready, List.count_append, count_head, List.count_nil]
    omega
  refine h.shift hs hp (by rw [hst]; rfl) (by rw [hst]; rfl) hs rfl (fun x => ?_) (fun x hx => ?_) trivial rfl rfl
    (by simp) (by simp)
  · rw [hq, hst]
    rfl
  · rw [Stage.kids_none rfl, List.count_nil, Nat.add_zero, ← hq] at hx
    exact h.handled.fit hs x hx

/-- The `spawned` queue, to the scheduler. -/
theorem DeskOk.delivers (h : DeskOk p t) {rest : List Nat} (hst : (p.desks t).stage = .spawnedNext)
    (hspawned : (p.desks t).spawned = c :: rest) : DeskOk (p.setDesk t { p.desks t with
      spawned := rest, held := (p.desks t).held ++ [c], stage := .call .spawned }) t := by
  have hp : (p.desks t).stage ≠ .panicked false := by simp [hst]
  have hs := h.closing.unshut_of_ready hp (.inr hspawned)
  have hq : ∀ x, p.waiting t x = ({ p.desks t with
      spawned := rest, held := (p.desks t).held ++ [c], stage := .call .spawned } : Desk).queued x := by
    intro x
    rw [Pool.waiting, hst, Stage.kids_none rfl]
    simp only [Desk.queued, hspawned, List.count_append, count_head, List.count_nil]
    omega
  refine h.shift hs hp (by rw [hst]; rfl) (by rw [hst]; rfl) hs rfl (fun x => ?_) (fun x hx => ?_) trivial rfl rfl
    (by simp) (by simp)
  · rw [hq, hst]
    rfl
  · rw [Stage.kids_none rfl, List.count_nil, Nat.add_zero, ← hq] at hx
    exact h.handled.fit hs x hx

/-- A new handle, for the scheduler. -/
theorem DeskOk.gives (h : DeskOk p t) (hst : (p.desks t).stage = .freeing c .event ∨
      (p.desks t).stage.attaching = some c ∧ (p.desks t).isShuttingDown = false) :
    DeskOk (p.setDesk t { p.desks t with held := (p.desks t).held ++ [c], stage := .call .ready }) t := by
  have hp : (p.desks t).stage ≠ .panicked false := by
    rintro hp
    rw [hp] at hst
    rcases hst with hst | ⟨hst, -⟩ <;> cases hst
  have hs : (p.desks t).isShuttingDown = false := by
    rcases hst with hst | ⟨-, hs⟩
    · exact h.closing.unshut (by rw [hst]; rfl) hp
    · exact hs
  have hshape : (p.desks t).stage.hand = some c ∧ (p.desks t).stage.resuming = none ∧ (p.desks t).stage.runs = none ∧
      (p.fibers c).state = .ready ∧ (p.fibers c).killed = false := by
    have hfits := h.fits
    rcases hst with hst | ⟨hst, -⟩
    · rw [hst] at hfits ⊢
      exact ⟨rfl, rfl, rfl, hfits⟩
    · rcases Stage.eq_of_attaching hst with hst | hst <;> rw [hst] at hfits ⊢ <;> exact ⟨rfl, rfl, rfl, hfits⟩
  obtain ⟨hhand, hres, hruns, hready⟩ := hshape
  have hq : ∀ x, ({ p.desks t with held := (p.desks t).held ++ [c], stage := .call .ready } : Desk).queued x =
      p.waiting t x + (p.desks t).stage.inHand x := by
    intro x
    rw [Pool.waiting, Stage.kids_none hres, Stage.inHand_some hhand]
    simp only [Desk.queued, List.count_append, count_head, List.count_nil]
    omega
  refine h.shift hs hp hres hruns hs rfl (fun x => ?_) (fun x hx => ?_) trivial rfl rfl (by simp) (by simp)
  · rw [hq]
    rfl
  · rw [Stage.kids_none rfl, List.count_nil, Nat.add_zero, hq, Stage.inHand, hhand] at hx
    split at hx
    · rename_i hxc
      cases hxc
      exact hready
    · exact h.handled.fit hs x hx

/-- The scheduler puts a handle to use. -/
theorem DeskOk.takes (h : DeskOk p t) {i : Nat} {k : Callback} {st : Stage} (hst : (p.desks t).stage = .call k)
    (hi : (p.desks t).held[i]? = some c) (hto : st = .entering c (.resumed k) ∨ ∃ l, st = .freeing c (.migrate k l)) :
    DeskOk (p.setDesk t { p.desks t with held := (p.desks t).held.eraseIdx i, stage := st }) t := by
  have hp : (p.desks t).stage ≠ .panicked false := by simp [hst]
  have hs := h.closing.unshut (by rw [hst]; rfl) hp
  have hcount := count_take hi
  have hwait : ∀ x, p.waiting t x = (p.desks t).queued x := by
    intro x
    rw [Pool.waiting, hst, Stage.kids_none rfl]
    rfl
  have hheld : 0 < p.waiting t c := by
    have := hcount c
    rw [if_pos rfl] at this
    rw [hwait, Desk.queued]
    omega
  obtain ⟨hready, hkilled⟩ := h.handled.fit hs c hheld
  have hkids := h.kin.childless hp (h.handled.own c (by omega)) hkilled (by rw [hst]; exact fun hr => by cases hr)
  have hst' : st.hand = some c ∧ st.kids p.fibers = [] ∧ st.Fits p.fibers ∧ st.waving = none ∧ st.idle = false ∧
      st ≠ .readyNext true ∧ st ≠ .panicked true := by
    rcases hto with rfl | ⟨l, rfl⟩
    · exact ⟨rfl, hkids, ⟨hkilled, fun _ => hready⟩, rfl, rfl, by simp, by simp⟩
    · exact ⟨rfl, rfl, ⟨hready, hkilled⟩, rfl, rfl, by simp, by simp⟩
  obtain ⟨hhand, hnokids, hfits, hwav, hidle, hno, hstray⟩ := hst'
  have hq : ∀ x, ({ p.desks t with held := (p.desks t).held.eraseIdx i, stage := st } : Desk).queued x +
      (if x = c then 1 else 0) = p.waiting t x := by
    intro x
    have := hcount x
    rw [hwait]
    simp only [Desk.queued]
    omega
  refine h.shift hs hp (by rw [hst]; rfl) (by rw [hst]; rfl) hs rfl (fun x => ?_) (fun x hx => ?_) hfits hwav hidle hno
    hstray
  · have hin : (Stage.call k).inHand x = 0 := rfl
    rw [hnokids, ← hq, hst, hin, Stage.inHand_some hhand, List.count_nil]
    omega
  · rw [hnokids, List.count_nil, Nat.add_zero] at hx
    exact h.handled.fit hs x (by have := hq x; omega)

/-- `Handler::shutdown` begins. -/
theorem DeskOk.shutdown (h : DeskOk p t) (hst : (p.desks t).stage = .poll) :
    DeskOk (p.setDesk t { p.desks t with
      isShuttingDown := true
      stage := .wave startingId (startingId + ((p.desks t).coroutines.count + (p.desks t).coroutines.remaining)) }) t := by
  have hidle := h.closing.idle (by rw [hst]; rfl)
  have hp : (p.desks t).stage ≠ .panicked false := by simp [hst]
  refine ⟨⟨fun x hx => h.handled.own x ?_, fun hs => ?_, fun hs => ?_⟩, ?_,
    h.stored.keep ?_ (fun _ => ⟨rfl, rfl, Iff.rfl⟩),
    ⟨fun _ => ?_, fun hn => ?_, fun _ => .inl ?_, fun i last hw => ?_, fun _ _ id x hg _ => .inr ?_⟩,
    ⟨fun q hq hk => ?_, fun x hx hk hl => ?_, fun hs => ?_⟩, ?_⟩
  all_goals first | rw [Pool.setDesk_self] | skip
  · rw [Pool.waiting_setDesk, Pool.setDesk_self] at hx
    rw [Pool.waiting, hst]
    exact hx
  · rw [Pool.setDesk_self] at hs
    cases hs
  · rw [Pool.setDesk_self] at hs
    cases hs
  · trivial
  · exact hidle
  · rw [Pool.setDesk_self] at hn
    cases hn
  · exact ⟨rfl, hidle⟩
  · rw [Pool.setDesk_self] at hw
    cases hw
    exact ⟨rfl, Nat.le_refl _⟩
  · rw [Pool.setDesk_self] at hg
    exact ⟨_, _, rfl, Slab.get_lt hg⟩
  · refine (h.kin.brood q hq hk).imp (fun hr => ?_) (Or.imp_right (fun hr => (hp hr).elim))
    rw [hst] at hr
    cases hr
  · have hr := h.kin.dead x hx hk hl
    rw [hst] at hr
    cases hr
  · rw [Pool.setDesk_self] at hs
    cases hs
  · simp

/-! ## A coroutine is killed -/

/-- **What a thread lets go to be killed**: a handle, or a place in the slab. -/
theorem Desk.Seizes.hand {d d' : Desk} (h : d.Seizes c d') : ∃ ret, d'.stage = .entering c ret ∧ ret.kills = true := by
  cases h <;> exact ⟨_, rfl, rfl⟩

theorem Desk.Seizes.calm {d d' : Desk} (h : d.Seizes c d') : d.stage.resuming = none ∧ d.stage.runs = none ∧
    d.stage ≠ .panicked false := by
  cases h with
  | arrives hst => rcases Stage.eq_of_attaching hst with hst | hst <;> rw [hst] <;> exact ⟨rfl, rfl, by simp⟩
  | drops _ _ hst | stops _ _ _ hst | wave _ _ _ hst =>
    rw [hst]
    exact ⟨rfl, rfl, by simp⟩

theorem Desk.Seizes.same {d d' : Desk} (h : d.Seizes c d') : d'.coroutines = d.coroutines ∧
    d'.isShuttingDown = d.isShuttingDown ∧ d'.moving = d.moving := by
  cases h <;> exact ⟨rfl, rfl, rfl⟩

/-- Where a handle goes, the thread has it in hand; `Handler::shutdown` takes what it finds. -/
theorem Desk.Seizes.counts {d d' : Desk} (h : d.Seizes c d') :
    (∀ x, d'.queued x + d'.stage.inHand x = d.queued x + d.stage.inHand x) ∨
      (∀ x, d'.queued x = d.queued x) ∧ d.stage.hand = none ∧ ∃ i last id, d.stage = .wave i last ∧
        d.coroutines.get id = some c := by
  cases h with
  | drops i k hst hi =>
    refine .inl (fun x => ?_)
    have := count_take hi x
    have h0 := Stage.inHand_none (show d.stage.hand = none by rw [hst]; rfl) x
    rw [h0, Stage.inHand_some rfl]
    simp only [Desk.queued]
    omega
  | stops held spawned ready hst hor =>
    refine .inl (fun x => ?_)
    have h0 := Stage.inHand_none (show d.stage.hand = none by rw [hst]; rfl) x
    rw [h0, Stage.inHand_some rfl]
    rcases hor with ⟨h1, h2, h3⟩ | ⟨h1, h2, h3⟩ | ⟨h1, h2, h3⟩
    all_goals
      simp only [Desk.queued, h1, h2, h3, count_head]
      omega
  | wave i last id hst _ hg => exact .inr ⟨fun _ => rfl, by rw [hst]; rfl, i, last, id, hst, hg⟩
  | arrives hst =>
    refine .inl (fun x => ?_)
    rcases Stage.eq_of_attaching hst with hst | hst <;> rw [hst] <;> rfl

theorem Desk.Seizes.other {d d' : Desk} (h : d.Seizes c d') {x : Nat} (hx : x ≠ c) : d.stage.inHand x = 0 := by
  cases h with
  | arrives hst =>
    have hhand : d.stage.hand = some c := by rcases Stage.eq_of_attaching hst with hst | hst <;> rw [hst] <;> rfl
    rw [Stage.inHand_some hhand, if_neg hx]
  | drops _ _ hst | stops _ _ _ hst | wave _ _ _ hst => exact Stage.inHand_none (by rw [hst]; rfl) x

theorem Pool.fibers_kill (p : Pool) (c x : Nat) : ((p.kill c).fibers x).handler = (p.fibers x).handler ∧
    ((p.kill c).fibers x).id = (p.fibers x).id ∧ ((p.kill c).fibers x).state = (p.fibers x).state ∧
      ((p.kill c).fibers x).children = (p.fibers x).children := by
  rw [Pool.kill, Pool.fibers_setFiber]
  split
  · rename_i hx
    subst hx
    exact ⟨rfl, rfl, rfl, rfl⟩
  · exact ⟨rfl, rfl, rfl, rfl⟩

theorem DeskOk.seized_own (h : DeskOk p t) {d : Desk} (hz : (p.desks t).Seizes c d) : (p.fibers c).handler = some t := by
  rcases hz.counts with heq | ⟨-, -, i, last, id, -, hg⟩
  · obtain ⟨ret, hst, -⟩ := hz.hand
    have h1 := heq c
    rw [hst, Stage.inHand_of_hand rfl] at h1
    exact h.handled.own c (by rw [Pool.waiting]; omega)
  · exact (h.stored.stored id c hg).1

theorem Desk.Seizes.closing {d : Desk} (hz : (p.desks t).Seizes c d) (h : Closing p t) :
    Closing ((p.kill c).setDesk t d) t := by
  have hself : ((p.kill c).setDesk t d).desks t = d := Pool.setDesk_self _ _ _
  have hp := hz.calm.2.2
  have hruns := hz.calm.2.1
  obtain ⟨hsc, hsd, -⟩ := hz.same
  -- a thread that is idle before
  have hkeep : d.stage.waving = (p.desks t).stage.waving → (p.desks t).stage.idle = true → d.stage.shuts = true →
      d.spawned = [] → d.ready = [] → d.stage ≠ .readyNext true → Closing ((p.kill c).setDesk t d) t := by
    intro hwav hidle hshuts h1 h2 hno
    refine h.keep hp ?_ (fun id x hg hb => ?_) ?_ (fun _ => ?_) (fun hn => ?_) (fun _ _ => ?_) <;> rw [hself] at *
    · exact hsd
    · rw [hsc] at hg
      refine ⟨hg, (Pool.fibers_kill p c x).2.2.1 ▸ hb, fun hr => ?_⟩
      rw [hruns] at hr
      cases hr
    · exact hwav
    · exact ⟨h1, h2⟩
    · exact (hno hn).elim
    · exact ⟨hshuts, h1, h2⟩
  have hi := h.idle
  cases hz with
  | drops i k hst hin =>
    have hs := h.unshut (by rw [hst]; rfl) hp
    refine .of_unshut ?_ ?_ (fun hi => ?_) (fun hn => ?_) <;> rw [hself] at *
    · exact hs
    · rfl
    · cases hi
    · cases hn
  | stops held spawned ready hst hor =>
    obtain ⟨h1, h2⟩ := hi (by rw [hst]; rfl)
    rw [h1, h2] at hor
    rcases hor with ⟨-, rfl, rfl⟩ | ⟨-, hbad, -⟩ | ⟨-, -, hbad⟩
    · exact hkeep (by rw [hst]; rfl) (by rw [hst]; rfl) rfl rfl rfl (by simp)
    · cases hbad
    · cases hbad
  | arrives hst =>
    rcases Stage.eq_of_attaching hst with hst | hst
    all_goals
      obtain ⟨h1, h2⟩ := hi (by rw [hst]; rfl)
      exact hkeep (by rw [hst]; rfl) (by rw [hst]; rfl) rfl h1 h2 (by simp)
  | wave i last id hst hnext hg =>
    obtain ⟨h1, h2⟩ := hi (by rw [hst]; rfl)
    obtain ⟨hs, hfirst⟩ := h.waving i last (by rw [hst]; rfl)
    obtain ⟨hle, -, -, hbefore⟩ := Slab.nextFrom_some hfirst hnext
    refine ⟨fun _ => ⟨?_, ?_⟩, fun hn => ?_, fun _ => .inl ⟨?_, ?_, ?_⟩, fun j last' hw => ?_, fun _ _ id' x hg' hb => ?_⟩
    all_goals rw [hself] at *
    · exact h1
    · exact h2
    · cases hn
    · rfl
    · exact h1
    · exact h2
    · cases hw
      exact ⟨hs, by omega⟩
    · rw [Pool.setDesk_fibers, (Pool.fibers_kill p c x).2.2.1] at hb
      rcases h.wave hs hp id' x hg' hb with hr | ⟨j, last', hw, hij, hlt⟩
      · rw [hst] at hr
        cases hr
      · rw [hst] at hw
        cases hw
        rcases Nat.lt_trichotomy id' id with hlt' | rfl | hgt
        · rw [hbefore id' hij hlt'] at hg'
          cases hg'
        · rw [hg] at hg'
          cases hg'
          exact .inl rfl
        · exact .inr ⟨id + 1, last, rfl, hgt, hlt⟩

namespace Desk.Seizes
variable {d : Desk}

theorem resuming (hz : (p.desks t).Seizes c d) : d.stage.resuming = none := by
  obtain ⟨ret, hst, hkills⟩ := hz.hand
  rw [hst]
  cases ret <;> first | rfl | cases hkills

theorem inHand (hz : (p.desks t).Seizes c d) (x : Nat) : d.stage.inHand x = if x = c then 1 else 0 := by
  obtain ⟨ret, hst, -⟩ := hz.hand
  rw [hst]
  exact Stage.inHand_some rfl x

theorem waiting (hz : (p.desks t).Seizes c d) (x : Nat) : ((p.kill c).setDesk t d).waiting t x = d.queued x := by
  rw [Pool.waiting_setDesk, Stage.kids_none hz.resuming]
  rfl

theorem waited (hz : (p.desks t).Seizes c d) (x : Nat) : p.waiting t x = (p.desks t).queued x := by
  rw [Pool.waiting, Stage.kids_none hz.calm.1]
  rfl

/-- A thread that is not shutting down has no second handle. -/
theorem counts_unshut (hz : (p.desks t).Seizes c d) (h : Closing p t) (hs : (p.desks t).isShuttingDown = false) (x : Nat) :
    d.queued x + d.stage.inHand x = (p.desks t).queued x + (p.desks t).stage.inHand x := by
  rcases hz.counts with heq | ⟨-, -, i, last, id, hw, -⟩
  · exact heq x
  · have hsd := (h.waving i last (by rw [hw]; rfl)).1
    rw [hs] at hsd
    cases hsd

theorem queued_le (hz : (p.desks t).Seizes c d) {x : Nat} (hx : x ≠ c) : d.queued x ≤ (p.desks t).queued x := by
  have h0 := hz.other hx
  rcases hz.counts with heq | ⟨heq, -⟩
  · have := heq x
    omega
  · exact Nat.le_of_eq (heq x)

theorem handled (hz : (p.desks t).Seizes c d) (h : DeskOk p t) : Handled ((p.kill c).setDesk t d) t where
  own x hx := by
    rw [Pool.setDesk_fibers, (Pool.fibers_kill p c x).1]
    by_cases hxc : x = c
    · exact hxc ▸ h.seized_own hz
    · rw [hz.waiting, Pool.setDesk_self, hz.inHand, if_neg hxc] at hx
      have := hz.queued_le hxc
      exact h.handled.own x (by rw [hz.waited]; omega)
  once hs x := by
    rw [Pool.setDesk_self, hz.same.2.1] at hs
    rw [hz.waiting, Pool.setDesk_self, hz.counts_unshut h.closing hs, ← hz.waited]
    exact h.handled.once hs x
  fit hs x hx := by
    rw [Pool.setDesk_self, hz.same.2.1] at hs
    rw [hz.waiting] at hx
    have hxc : x ≠ c := by
      rintro rfl
      have hone := h.handled.once hs x
      rw [hz.waited, ← hz.counts_unshut h.closing hs, hz.inHand, if_pos rfl] at hone
      omega
    have := hz.queued_le hxc
    rw [Pool.setDesk_fibers, Pool.kill, Pool.setFiber_ne _ _ hxc]
    exact h.handled.fit hs x (by rw [hz.waited]; omega)

theorem kin (hz : (p.desks t).Seizes c d) (h : DeskOk p t) : Kin ((p.kill c).setDesk t d) t := by
  obtain ⟨hres, hruns, hp⟩ := hz.calm
  obtain ⟨ret, hst, -⟩ := hz.hand
  refine h.kin.edit hp hz.same.2.1 (fun q _ => ?_) (fun x _ => ?_) (fun _ _ => .inr rfl) (fun _ _ _ => ?_)
    (fun hs x hxc hx => ?_) (fun hh _ x hx => .inr ⟨hh, rfl, hx⟩) (fun _ _ => .inr ?_)
  · rw [hres]
    exact fun hq => by cases hq
  · rw [hruns]
    exact fun hx => by cases hx
  · rw [hst]
    rfl
  · show 0 < ((p.kill c).setDesk t d).waiting t x + d.stage.inHand x
    rwa [hz.waiting, hz.counts_unshut h.closing hs, ← hz.waited]
  · rw [hz.inHand, if_pos rfl]
    omega

end Desk.Seizes

/-- **A coroutine is killed.** -/
theorem DeskOk.seizes (h : DeskOk p t) {d : Desk} (hz : (p.desks t).Seizes c d) : DeskOk ((p.kill c).setDesk t d) t := by
  have hfib := Pool.fibers_kill p c
  obtain ⟨ret, hst, hkills⟩ := hz.hand
  refine ⟨hz.handled h, ?_, h.stored.keep ?_ (fun x => ⟨(hfib x).1, (hfib x).2.1, ?_⟩), hz.closing h.closing, hz.kin h, ?_⟩
  · rw [Pool.setDesk_self, hst, Pool.setDesk_fibers, Pool.kill, Stage.Fits, Pool.setFiber_self, hkills]
    exact ⟨rfl, fun hret => by cases hret⟩
  · rw [Pool.setDesk_self, hz.same.1]
  · rw [Pool.setDesk_fibers, (hfib x).2.2.1]
  · rw [Pool.setDesk_self, hst]
    simp

/-! ## Into a coroutine and out of it -/

theorem Pool.fibers_setState (p : Pool) (c : Nat) (state : CoState) (x : Nat) :
    ((p.setState c state).fibers x).handler = (p.fibers x).handler ∧
    ((p.setState c state).fibers x).id = (p.fibers x).id ∧
    ((p.setState c state).fibers x).killed = (p.fibers x).killed ∧
    ((p.setState c state).fibers x).children = (p.fibers x).children ∧
    ((p.setState c state).fibers x).state = if x = c then state else (p.fibers x).state := by
  rw [Pool.setState, Pool.fibers_setFiber]
  split
  · rename_i hx
    subst hx
    exact ⟨rfl, rfl, rfl, rfl, rfl⟩
  · exact ⟨rfl, rfl, rfl, rfl, rfl⟩

theorem Pool.setState_eq (p : Pool) (c : Nat) : p.setState c (p.fibers c).state = p := by
  rw [Pool.setState, Pool.setFiber]
  exact congrArg (fun f => { p with fibers := f }) (Function.update_eq_self c p.fibers)

section turns
variable {st : Stage} {state : CoState} {slab : Slab startingId Nat}

theorem Pool.waiting_turns (hres : st.resuming = (p.desks t).stage.resuming) (x : Nat) :
    ((p.setState c state).setDesk t { p.desks t with coroutines := slab, stage := st }).waiting t x = p.waiting t x := by
  have hkids : st.kids (p.setState c state).fibers = (p.desks t).stage.kids p.fibers := by
    rw [Stage.kids, Stage.kids, hres]
    congr
    funext q
    exact (Pool.fibers_setState p c state q).2.2.2.1
  rw [Pool.waiting_setDesk, hkids, Pool.waiting]
  rfl

theorem Handled.turns (h : Handled p t) (hhand : (p.desks t).stage.hand = some c)
    (hres : st.resuming = (p.desks t).stage.resuming) (hst : st.hand = some c ∨ st.hand = none ∧ state = .finished) :
    Handled ((p.setState c state).setDesk t { p.desks t with coroutines := slab, stage := st }) t := by
  have hfib := Pool.fibers_setState p c state
  refine h.keep (fun hs => ?_) (fun x => ?_) (fun x _ => (hfib x).1) (fun hs x hx => ?_)
  · rwa [Pool.setDesk_self] at hs
  · rw [Pool.waiting_turns hres, Pool.setDesk_self]
    refine Nat.add_le_add_left ?_ _
    rcases hst with hh | ⟨hh, -⟩
    · rw [Stage.inHand_some hhand, Stage.inHand_some hh]
    · rw [Stage.inHand_none hh]
      exact Nat.zero_le _
  · rw [Pool.waiting_turns hres] at hx
    rw [Pool.setDesk_fibers, (hfib x).2.2.1, (hfib x).2.2.2.2, if_neg (h.ne_hand hs hhand hx)]
    exact h.fit hs x hx

theorem Kin.turns (h : Kin p t) (hhand : (p.desks t).stage.hand = some c)
    (hres : st.resuming = (p.desks t).stage.resuming) (hst : st.hand = some c ∨ st.hand = none ∧ state = .finished)
    (hlive : (p.fibers c).state = .finished → state = .finished)
    (hruns : (p.desks t).stage.runs = some c → (p.fibers c).killed = true → state ≠ .finished → st.runs = some c) :
    Kin ((p.setState c state).setDesk t { p.desks t with coroutines := slab, stage := st }) t := by
  have hfib := Pool.fibers_setState p c state
  have hp : (p.desks t).stage ≠ .panicked false := by
    intro hp
    rw [hp] at hhand
    cases hhand
  refine h.keep hp (fun hs => ?_) (fun x => ⟨(hfib x).1, (hfib x).2.2.1, (hfib x).2.2.2.1, fun hfin => ?_⟩)
    (fun q hq => ?_) (fun x hx hk hl => ?_) (fun hs x hx hl => ?_)
  · rwa [Pool.setDesk_self] at hs
  · rw [Pool.setDesk_fibers, (hfib x).2.2.2.2]
    split
    · rename_i hxc
      exact hlive (hxc ▸ hfin)
    · exact hfin
  · rw [Pool.setDesk_self]
    exact hres.trans hq
  · have hxc : x = c := by
      have hh : (p.desks t).stage.hand = some x := by
        cases hs : (p.desks t).stage <;> rw [hs] at hx <;> first | exact hx | cases hx
      rw [hhand] at hh
      exact (Option.some.inj hh).symm
    subst hxc
    rw [Pool.setDesk_fibers, (hfib x).2.2.2.2, if_pos rfl] at hl
    rw [Pool.setDesk_self]
    exact hruns hx hk hl
  · rw [Pool.setDesk_fibers, (hfib x).2.2.2.2] at hl ⊢
    rw [Pool.waiting_turns hres, Pool.setDesk_self, Stage.inHand_some hhand]
    by_cases hxc : x = c
    · subst hxc
      rw [if_pos rfl] at hl
      have hh : st.hand = some x := hst.resolve_right (fun hleft => hl hleft.2)
      rw [Stage.inHand_some hh, if_pos rfl]
      exact fun _ => .inr (by omega)
    · rw [if_neg hxc, if_neg hxc]
      exact Or.imp_right (fun hpos => by omega)

/-- The thread goes on with its coroutine, or leaves it when it has ended. -/
theorem DeskOk.turns (h : DeskOk p t) (hhand : (p.desks t).stage.hand = some c)
    (hres : st.resuming = (p.desks t).stage.resuming) (hst : st.hand = some c ∨ st.hand = none ∧ state = .finished)
    (hfits : st.Fits (p.setState c state).fibers)
    (hstored : Stored ((p.setState c state).setDesk t { p.desks t with coroutines := slab, stage := st }) t)
    (hclosing : Closing ((p.setState c state).setDesk t { p.desks t with coroutines := slab, stage := st }) t)
    (hlive : (p.fibers c).state = .finished → state = .finished)
    (hruns : (p.desks t).stage.runs = some c → (p.fibers c).killed = true → state ≠ .finished → st.runs = some c)
    (hstray : st ≠ .panicked true) :
    DeskOk ((p.setState c state).setDesk t { p.desks t with coroutines := slab, stage := st }) t := by
  refine ⟨h.handled.turns hhand hres hst, ?_, hstored, hclosing, h.kin.turns hhand hres hst hlive hruns, ?_⟩
  · rw [Pool.setDesk_self]
    exact hfits
  · rw [Pool.setDesk_self]
    exact hstray

end turns

/-- The thread goes on, or leaves its coroutine when it has ended; the coroutine is as it was. -/
theorem DeskOk.stays (h : DeskOk p t) {st : Stage} (hhand : (p.desks t).stage.hand = some c)
    (hres : st.resuming = (p.desks t).stage.resuming)
    (hst : st.hand = some c ∨ st.hand = none ∧ (p.fibers c).state = .finished) (hfits : st.Fits p.fibers)
    (hclosing : Closing (p.setStage t st) t)
    (hruns : (p.desks t).stage.runs = some c → (p.fibers c).killed = true → (p.fibers c).state ≠ .finished →
      st.runs = some c) (hstray : st ≠ .panicked true) : DeskOk (p.setStage t st) t := by
  have hstored : Stored (p.setStage t st) t :=
    h.stored.keep (by rw [Pool.setStage, Pool.setDesk_self]) (fun _ => ⟨rfl, rfl, Iff.rfl⟩)
  have hsame : (p.setState c (p.fibers c).state).setStage t st = p.setStage t st := by rw [Pool.setState_eq]
  rw [← hsame] at hclosing hstored ⊢
  exact h.turns hhand hres hst (by rwa [Pool.setState_eq]) hstored hclosing id hruns hstray

/-- **`jump_in`**, into a coroutine of this thread. -/
theorem DeskOk.enters (h : DeskOk p t) {ret : Ret} (hst : (p.desks t).stage = .entering c ret)
    (hl : (p.fibers c).state ≠ .finished) : DeskOk (p.setStage t (.running c ret)) t := by
  have hfits := h.fits
  have hi := h.closing.idle
  have hclosing : Closing (p.setStage t (.running c ret)) t := by
    refine h.closing.keep (by rw [hst]; simp) ?_ (fun id x hg hb => ?_) ?_ (fun hidle => ?_) (fun hn => ?_)
      (fun hshuts hq => ?_) <;> rw [Pool.setStage, Pool.setDesk_self] at *
    · exact ⟨hg, hb, fun hr => by rw [hst] at hr; exact hr⟩
    · rw [hst]
      cases ret <;> rfl
    · exact hi (by rw [hst]; exact hidle)
    · cases hn
    · rw [hst] at hshuts
      exact ⟨hshuts, hq⟩
  rw [hst] at hfits
  refine h.stays (by rw [hst]; rfl) ?_ (.inl rfl) ⟨hfits.1, hl⟩ hclosing (fun _ _ _ => rfl) (by simp)
  rw [hst]
  cases ret <;> rfl

/-- `jump_in` does nothing for a coroutine that has ended. -/
theorem DeskOk.passes (h : DeskOk p t) {ret : Ret} (hst : (p.desks t).stage = .entering c ret)
    (hf : (p.fibers c).state = .finished) : DeskOk (p.setStage t (.left c ret)) t := by
  have hfits := h.fits
  have hi := h.closing.idle
  rw [hst] at hfits hi
  have hkills : ret.kills = true := by
    by_contra hk
    have := hfits.2 (by simpa using hk)
    rw [hf] at this
    cases this
  have hshape : (Stage.left c ret).hand = none ∧ (Stage.left c ret).resuming = none ∧
      (Stage.entering c ret).resuming = none ∧ (Stage.left c ret).Fits p.fibers ∧
      (Stage.left c ret).waving = (Stage.entering c ret).waving ∧ (Stage.left c ret).idle = ret.outside ∧
      (Stage.left c ret) ≠ .readyNext true ∧ (Stage.left c ret) ≠ .panicked true ∧
      ((Stage.entering c ret).shuts = true → (Stage.left c ret).shuts = true) := by
    cases ret with
    | resumed k => cases hkills
    | _ => exact ⟨rfl, rfl, rfl, trivial, rfl, rfl, by simp, by simp, by simp⟩
  obtain ⟨h1, h2, h3, h4, h5, h6, h7, h8, h9⟩ := hshape
  have hclosing : Closing (p.setStage t (.left c ret)) t := by
    refine h.closing.keep (by rw [hst]; simp) ?_ (fun id x hg hb => ?_) ?_ (fun hidle => ?_) (fun hn => ?_)
      (fun hshuts hq => ?_) <;> rw [Pool.setStage, Pool.setDesk_self] at *
    · refine ⟨hg, hb, fun hr => ?_⟩
      rw [hst] at hr
      cases hr
      have hb' : (p.fibers c).state = .blocked := hb
      rw [hf] at hb'
      cases hb'
    · rw [hst]
      exact h5
    · exact hi (h6.symm.trans hidle)
    · exact (h7 hn).elim
    · rw [hst] at hshuts
      exact ⟨h9 hshuts, hq⟩
  exact h.stays (by rw [hst]; rfl) (by rw [hst, h2, h3]) (.inr ⟨h1, hf⟩) h4 hclosing (fun _ _ hl => (hl hf).elim) h8

/-- `unblock`, from `register_all`. -/
theorem DeskOk.wakes (h : DeskOk p t) {next : AfterRegister} (hst : (p.desks t).stage = .settling c next)
    (hl : (p.fibers c).state ≠ .finished) : DeskOk ((p.setState c .ready).setStage t (.freeing c (.woken next))) t := by
  have hfits := h.fits
  have hfib := Pool.fibers_setState p c .ready
  have hstored : Stored ((p.setState c .ready).setStage t (.freeing c (.woken next))) t := by
    refine h.stored.keep (by rw [Pool.setStage, Pool.setDesk_self]; rfl) (fun x => ⟨(hfib x).1, (hfib x).2.1, ?_⟩)
    rw [Pool.setStage, Pool.setDesk_fibers, (hfib x).2.2.2.2]
    split
    · rename_i hx
      rw [hx]
      exact ⟨fun hc => (by cases hc), fun hfin => (hl hfin).elim⟩
    · exact Iff.rfl
  have hclosing : Closing ((p.setState c .ready).setStage t (.freeing c (.woken next))) t := by
    have hi := h.closing.idle
    rw [hst] at hi
    refine h.closing.keep (by rw [hst]; simp) ?_ (fun id x hg hb => ?_) ?_ (fun hidle => ?_) (fun hn => ?_)
      (fun hshuts hq => ?_) <;> rw [Pool.setStage] at * <;> try rw [Pool.setDesk_self] at *
    · rfl
    · rw [Pool.setDesk_fibers, (hfib x).2.2.2.2] at hb
      refine ⟨hg, ?_, fun hr => ?_⟩
      · split at hb
        · cases hb
        · exact hb
      · rw [hst] at hr
        cases hr
    · rw [hst]
      rfl
    · cases next with
      | resumed k => cases hidle
      | attached => exact hi rfl
    · cases hn
    · rw [hst] at hshuts
      cases next with
      | resumed k => cases hshuts
      | attached => exact ⟨rfl, hq⟩
  rw [hst] at hfits
  refine h.turns (by rw [hst]; rfl) ?_ (.inl rfl) ?_ hstored hclosing (fun hfin => (hl hfin).elim) (fun hr => ?_) (by simp)
  · rw [hst]
    cases next <;> rfl
  · refine ⟨by rw [(hfib c).2.2.2.2, if_pos rfl], ?_⟩
    rw [(hfib c).2.2.1]
    cases next with
    | resumed k => exact hfits.resolve_left hl
    | attached => exact hfits.2
  · rw [hst] at hr
    cases hr

/-- A coroutine that is not being killed blocks or yields. -/
theorem DeskOk.switches (h : DeskOk p t) {ret : Ret} {state : CoState} (hst : (p.desks t).stage = .running c ret)
    (hret : ret.kills = false) (hstate : state = .blocked ∨ state = .yielding) :
    DeskOk ((p.setState c state).setStage t (.left c ret)) t := by
  cases ret with
  | resumed k =>
    have hfits := h.fits
    rw [hst] at hfits
    have hfib := Pool.fibers_setState p c state
    have hs := h.closing.unshut (by rw [hst]; rfl) (by rw [hst]; simp)
    refine h.turns (by rw [hst]; rfl) (by rw [hst]; rfl) (.inl rfl) (.inr ((hfib c).2.2.1.trans hfits.1)) ?_ ?_
      (fun hfin => (hfits.2 hfin).elim) (fun _ hk => ?_) (by simp)
    · refine h.stored.keep (by rw [Pool.setDesk_self]; rfl) (fun x => ⟨(hfib x).1, (hfib x).2.1, ?_⟩)
      rw [Pool.setDesk_fibers, (hfib x).2.2.2.2]
      split
      · rename_i hx
        rw [hx]
        refine ⟨fun hc => ?_, fun hfin => (hfits.2 hfin).elim⟩
        rcases hstate with rfl | rfl <;> cases hc
      · exact Iff.rfl
    · refine .of_unshut ?_ ?_ (fun hi => ?_) (fun hn => ?_) <;> rw [Pool.setDesk_self] at *
      · exact hs
      · rfl
      · cases hi
      · cases hn
    · rw [hfits.1] at hk
      cases hk
  | _ => cases hret

/-- **The function of a coroutine ends**: it is found in the slab. -/
theorem DeskOk.finish (h : DeskOk p t) {ret : Ret} {slab : Slab startingId Nat} (hst : (p.desks t).stage = .running c ret)
    (hrem : (p.desks t).coroutines.remove (p.fibers c).id = some slab) :
    DeskOk ((p.setState c .finished).setDesk t { p.desks t with coroutines := slab, stage := .ending c ret }) t := by
  have hfits := h.fits
  have hi := h.closing.idle
  have hown := h.handled.hand (c := c) (by rw [hst]; rfl)
  have hfib := Pool.fibers_setState p c .finished
  rw [hst] at hfits
  refine h.turns (by rw [hst]; rfl) ?_ (.inl rfl) ?_ ?_ ?_ (fun _ => rfl) (fun _ _ hl => (hl rfl).elim) (by simp)
  · rw [hst]
    cases ret <;> rfl
  · rw [Stage.Fits, (hfib c).2.2.2.2, if_pos rfl]
  · refine h.stored.removed hown hfits.2 (by rw [Pool.setDesk_self]; exact hrem) (fun x hx => ?_) (.inr ?_)
    · rw [Pool.setDesk_fibers, Pool.setState, Pool.setFiber_ne _ _ hx]
    · rw [Pool.setDesk_fibers, (hfib c).2.2.2.2, if_pos rfl]
  · refine h.closing.keep (by rw [hst]; simp) ?_ (fun id x hg hb => ?_) ?_ (fun hidle => ?_) (fun hn => ?_)
      (fun hshuts hq => ?_) <;> try rw [Pool.setDesk_self] at *
    · rw [(Slab.remove_some hrem).2.1] at hg
      rw [Pool.setDesk_fibers, (hfib x).2.2.2.2] at hb
      split at hg
      · cases hg
      · split at hb
        · cases hb
        · rename_i hx
          refine ⟨hg, hb, fun hr => ?_⟩
          rw [hst] at hr
          cases hr
          exact (hx rfl).elim
    · rw [hst]
      cases ret <;> rfl
    · exact hi (by rw [hst]; exact hidle)
    · cases hn
    · rw [hst] at hshuts
      exact ⟨hshuts, hq⟩

/-! ## From thread to thread -/

/-- **`migrate`**: the coroutine is found in the slab. -/
theorem DeskOk.detaches (h : DeskOk p t) {k : Callback} {l : Nat} {st : Stage} {slab : Slab startingId Nat}
    (hst : (p.desks t).stage = .freeing c (.migrate k l)) (hto : st = .call k ∨ st = .panicked false)
    (hrem : (p.desks t).coroutines.remove (p.fibers c).id = some slab) :
    DeskOk ((p.detach c).setDesk t { p.desks t with coroutines := slab, stage := st }) t := by
  have hfits := h.fits
  rw [hst] at hfits
  obtain ⟨hready, hkilled⟩ := hfits
  have hp : (p.desks t).stage ≠ .panicked false := by simp [hst]
  have hs := h.closing.unshut (by rw [hst]; rfl) hp
  have hhand : (p.desks t).stage.hand = some c := by rw [hst]; rfl
  have hother : ∀ x, x ≠ c → (p.detach c).fibers x = p.fibers x := fun x hx => Pool.setFiber_ne _ _ hx
  have hnone : st.resuming = none ∧ st.hand = none ∧ st.Fits (p.detach c).fibers ∧ st ≠ .panicked true := by
    rcases hto with rfl | rfl
    · exact ⟨rfl, rfl, trivial, by simp⟩
    · exact ⟨rfl, rfl, trivial, by simp⟩
  obtain ⟨hres, hnohand, hfits', hstray⟩ := hnone
  have hwait : ∀ x, ((p.detach c).setDesk t { p.desks t with coroutines := slab, stage := st }).waiting t x =
      p.waiting t x := Pool.waiting_calm rfl (by rw [hst]; rfl) hres
  refine ⟨h.handled.keep (fun _ => hs) (fun x => ?_) (fun x hx => ?_) (fun _ x hx => ?_), ?_,
    h.stored.removed (h.handled.hand hhand) (by rw [hready]; simp) (by rw [Pool.setDesk_self]; exact hrem) hother
      (.inl ?_), ?_, h.kin.edit hp rfl (fun q _ => ?_) (fun x _ => ?_) (fun hh => by cases hh) (fun hh => by cases hh)
        (fun _ x hxc hx => ?_) (fun _ hk => ?_) (fun hh => by cases hh), ?_⟩
  · rw [hwait, Pool.setDesk_self, Stage.inHand_none hnohand]
    omega
  · rw [hwait, Pool.setDesk_self, Stage.inHand_none hnohand] at hx
    rw [Pool.setDesk_fibers, hother x (h.handled.ne_hand hs hhand hx)]
  · rw [hwait] at hx
    rw [Pool.setDesk_fibers, hother x (h.handled.ne_hand hs hhand hx)]
    exact h.handled.fit hs x hx
  · rw [Pool.setDesk_self]
    exact hfits'
  · rw [Pool.setDesk_fibers, Pool.detach, Pool.setFiber_self]
    simp
  · rcases hto with rfl | rfl
    · refine .of_unshut ?_ ?_ (fun hi => ?_) (fun hn => ?_) <;> rw [Pool.setDesk_self] at *
      · exact hs
      · rfl
      · cases hi
      · cases hn
    · exact .panic (by rw [Pool.setDesk_self])
  · simp [hst]
  · simp [hst]
  · refine Nat.lt_of_lt_of_le ?_ (Nat.le_add_right _ _)
    rw [Stage.inHand_some hhand, if_neg hxc] at hx
    exact (hwait x).symm ▸ hx
  · rw [hkilled] at hk
    cases hk
  · rw [Pool.setDesk_self]
    exact hstray

/-- A thread comes by a coroutine of its slab for which no handle waits. -/
theorem Kin.picked (h : Kin p t) {d : Desk} {f : Fiber} (hp : (p.desks t).stage ≠ .panicked false)
    (hs : d.isShuttingDown = (p.desks t).isShuttingDown) (hq : d.queued = (p.desks t).queued)
    (hres : (p.desks t).stage.resuming = none) (hres' : d.stage.resuming = none)
    (hhand : (p.desks t).stage.hand = none) (hhand' : d.stage.hand = some c) (hruns : (p.desks t).stage.runs = none)
    (hkids : f.children = []) (hkilled : f.killed = false)
    (hkin : (p.fibers c).handler = some t → (p.fibers c).killed = false) :
    Kin ((p.setFiber c f).setDesk t d) t := by
  refine h.edit hp hs (fun q _ => ?_) (fun x _ => ?_) (fun _ hk => (hk hkids).elim) (fun _ hk => ?_)
    (fun _ x hxc hx => ?_) (fun hh hk => ?_) (fun _ _ => .inr ?_)
  · rw [hres]
    exact fun hq => by cases hq
  · rw [hruns]
    exact fun hx => by cases hx
  · rw [hkilled] at hk
    cases hk
  · rw [Stage.inHand_none hhand] at hx
    rw [Pool.waiting_calm hq hres hres']
    omega
  · rw [hkin hh] at hk
    cases hk
  · rw [Stage.inHand_of_hand hhand']
    omega

/-- **`reattach_to`**: a coroutine comes to the thread. -/
theorem DeskOk.attach (h : DeskOk p t) {id : Nat} {slab : Slab startingId Nat} {m : List Nat}
    (hst : (p.desks t).stage = .poll) (hc : (p.fibers c).Loose)
    (hins : (grown (p.desks t).coroutines).insertAt id c = some slab) :
    DeskOk ((p.setFiber c { p.fibers c with id := id, handler := some t }).setDesk t
      { p.desks t with moving := m, coroutines := slab, stage := .settling c .attached }) t := by
  obtain ⟨hnone, hready, hkilled, hkids⟩ := hc
  have hp : (p.desks t).stage ≠ .panicked false := by simp [hst]
  obtain ⟨hspawned, hrdy⟩ := h.closing.idle (by rw [hst]; rfl)
  have hres : (p.desks t).stage.resuming = none := by rw [hst]; rfl
  have hhand : (p.desks t).stage.hand = none := by rw [hst]; rfl
  have hruns : (p.desks t).stage.runs = none := by rw [hst]; rfl
  -- a coroutine that is attached to no thread has no handle
  have hzero : p.waiting t c = 0 := by
    by_contra h0
    have hown := h.handled.own c (by omega)
    rw [hnone] at hown
    cases hown
  have hclosing : Closing ((p.setFiber c { p.fibers c with id := id, handler := some t }).setDesk t
      { p.desks t with moving := m, coroutines := slab, stage := .settling c .attached }) t := by
    refine h.closing.keep hp ?_ (fun id' x hg hb => ?_) ?_ (fun _ => ?_) (fun hn => ?_) (fun _ _ => ?_) <;>
      rw [Pool.setDesk_self] at *
    · rw [(Slab.insertAt_some hins).2.1, get_grown] at hg
      have hxc : x ≠ c := by
        rintro rfl
        rw [Pool.setDesk_fibers, Pool.setFiber_self] at hb
        have hb' : (p.fibers x).state = .blocked := hb
        rw [hready] at hb'
        cases hb'
      rw [Pool.setDesk_fibers, Pool.setFiber_ne _ _ hxc] at hb
      split at hg
      · cases hg
        exact (hxc rfl).elim
      · exact ⟨hg, hb, fun hr => by rw [hruns] at hr; cases hr⟩
    · rw [hst]
      rfl
    · exact ⟨hspawned, hrdy⟩
    · cases hn
    · exact ⟨rfl, hspawned, hrdy⟩
  refine ⟨h.handled.picked rfl rfl hres rfl hhand rfl hzero rfl, ?_,
    h.stored.inserted hnone (by rw [Pool.setDesk_self]; exact hins) (fun x hx => ?_) ?_, hclosing,
    h.kin.picked hp rfl rfl hres rfl hhand rfl hruns hkids hkilled (fun hh => ?_), ?_⟩
  · rw [Pool.setDesk_self, Pool.setDesk_fibers, Stage.Fits, Pool.setFiber_self]
    exact ⟨hready, hkilled⟩
  · rw [Pool.setDesk_fibers, Pool.setFiber_ne _ _ hx]
    exact ⟨rfl, rfl, rfl⟩
  · rw [Pool.setDesk_fibers, Pool.setFiber_self]
    exact ⟨rfl, rfl, by rw [hready]; simp⟩
  · rw [hnone] at hh
    cases hh
  · rw [Pool.setDesk_self]
    simp

/-! ## Events and `after_resume` -/

/-- Who waits for an event was not killed, and there is no handle for it; its thread is not shutting down. -/
theorem DeskOk.blocked (h : DeskOk p t) {id : Nat} (hst : (p.desks t).stage = .poll)
    (hg : (p.desks t).coroutines.get id = some c) (hb : (p.fibers c).state = .blocked) :
    (p.desks t).isShuttingDown = false ∧ (p.fibers c).killed = false ∧ (p.fibers c).children = [] ∧ p.waiting t c = 0 := by
  have hp : (p.desks t).stage ≠ .panicked false := by simp [hst]
  obtain ⟨hown, -, hl⟩ := h.stored.stored id c hg
  have hs : (p.desks t).isShuttingDown = false := by
    by_contra hs
    rcases h.closing.wave (by simpa using hs) hp id c hg hb with hr | ⟨i, last, hw, -⟩
    · rw [hst] at hr
      cases hr
    · rw [hst] at hw
      cases hw
  have hkilled : (p.fibers c).killed = false := by
    by_contra hk
    have hr := h.kin.dead c hown (by simpa using hk) hl
    rw [hst] at hr
    cases hr
  refine ⟨hs, hkilled, h.kin.childless hp hown hkilled (by rw [hst]; exact fun hr => by cases hr), ?_⟩
  by_contra h0
  have hready := (h.handled.fit hs c (by omega)).1
  rw [hb] at hready
  cases hready

/-- **An event wakes a coroutine**, for which there is no handle. -/
theorem DeskOk.event (h : DeskOk p t) {id : Nat} (hst : (p.desks t).stage = .poll)
    (hg : (p.desks t).coroutines.get id = some c) (hb : (p.fibers c).state = .blocked) :
    DeskOk ((p.setState c .ready).setStage t (.freeing c .event)) t := by
  have hp : (p.desks t).stage ≠ .panicked false := by simp [hst]
  have hq := h.closing.idle (by rw [hst]; rfl)
  obtain ⟨hs, hkilled, hkids, hzero⟩ := h.blocked hst hg hb
  have hown := (h.stored.stored id c hg).1
  have hfib := Pool.fibers_setState p c .ready
  have hres : (p.desks t).stage.resuming = none := by rw [hst]; rfl
  have hhand : (p.desks t).stage.hand = none := by rw [hst]; rfl
  have hruns : (p.desks t).stage.runs = none := by rw [hst]; rfl
  have hself : ((p.setState c .ready).setStage t (.freeing c .event)).desks t =
      { p.desks t with stage := .freeing c .event } := Pool.setDesk_self _ _ _
  refine ⟨h.handled.picked rfl rfl hres rfl hhand rfl hzero hown, ?_,
    h.stored.keep (by rw [hself]) (fun x => ⟨(hfib x).1, (hfib x).2.1, ?_⟩),
    .of_unshut (by rw [hself]; exact hs) (by rw [hself]; rfl) (fun _ => by rw [hself]; exact hq)
      (fun hn => by rw [hself] at hn; cases hn),
    h.kin.picked hp rfl rfl hres rfl hhand rfl hruns hkids hkilled (fun _ => hkilled), ?_⟩
  · rw [hself, Pool.setStage, Pool.setDesk_fibers, Stage.Fits, (hfib c).2.2.1, (hfib c).2.2.2.2, if_pos rfl]
    exact ⟨rfl, hkilled⟩
  · rw [Pool.setStage, Pool.setDesk_fibers, (hfib x).2.2.2.2]
    split
    · rename_i hx
      rw [hx, hb]
      simp
    · exact Iff.rfl
  · rw [hself]
    simp

section resumed
variable {k : Callback} {state : CoState} {l : List Nat}

/-- What `after_resume` makes of the state of coroutine `c`, and what it adds to `ready`. -/
def Fiber.Resumes (f : Fiber) (c : Nat) (state : CoState) (l : List Nat) : Prop :=
  state = .ready ∧ l = [c] ∧ (f.state = .yielding ∨ f.state = .ready) ∨
    state = f.state ∧ l = [] ∧ (f.state = .blocked ∨ f.state = .finished)

theorem Fiber.Resumes.count_le {f : Fiber} (h : f.Resumes c state l) (x : Nat) : l.count x ≤ if x = c then 1 else 0 := by
  rcases h with ⟨-, rfl, -⟩ | ⟨-, rfl, -⟩
  · rw [count_head, List.count_nil]
    omega
  · exact Nat.zero_le _

theorem Fiber.Resumes.finished {f : Fiber} (h : f.Resumes c state l) : state = .finished ↔ f.state = .finished := by
  rcases h with ⟨rfl, -, hy | hy⟩ | ⟨rfl, -⟩
  · simp [hy]
  · simp [hy]
  · exact Iff.rfl

/-- The children go on from `children_to_start` to `spawned`. -/
theorem Pool.waiting_resumed (hst : (p.desks t).stage = .resumed c k) (x : Nat) :
    ((p.setFiber c { p.fibers c with state := state, children := [] }).setDesk t { p.desks t with
      spawned := (p.desks t).spawned ++ (p.fibers c).children
      ready := (p.desks t).ready ++ l
      stage := .call k }).waiting t x = p.waiting t x + l.count x := by
  rw [Pool.waiting_setDesk, Stage.kids_none rfl, Pool.waiting, hst, Stage.kids_some rfl]
  simp only [Desk.queued, List.count_append, List.count_nil]
  omega

theorem DeskOk.resumed_handled (h : DeskOk p t) (hst : (p.desks t).stage = .resumed c k)
    (hto : (p.fibers c).Resumes c state l) :
    Handled ((p.setFiber c { p.fibers c with state := state, children := [] }).setDesk t { p.desks t with
      spawned := (p.desks t).spawned ++ (p.fibers c).children
      ready := (p.desks t).ready ++ l
      stage := .call k }) t := by
  have hs := h.closing.unshut (by rw [hst]; rfl) (by simp [hst])
  have hhand : (p.desks t).stage.hand = some c := by rw [hst]; rfl
  have hzero : p.waiting t c = 0 := by
    have hone := h.handled.once hs c
    rw [Stage.inHand_of_hand hhand] at hone
    omega
  have hfits := h.fits
  rw [hst] at hfits
  refine h.handled.keep (fun _ => hs) (fun x => ?_) (fun x _ => ?_) (fun _ x hx => ?_)
  · rw [Pool.waiting_resumed hst, Pool.setDesk_self, Stage.inHand_none rfl, Stage.inHand_some hhand]
    have := hto.count_le x
    omega
  · rw [Pool.setDesk_fibers, Pool.fibers_setFiber]
    split
    · rename_i hxc
      rw [hxc]
    · rfl
  · rw [Pool.waiting_resumed hst] at hx
    have hle := hto.count_le x
    rw [Pool.setDesk_fibers, Pool.fibers_setFiber]
    split
    · rename_i hxc
      subst hxc
      rw [hzero] at hx
      rcases hto with ⟨rfl, -, hy⟩ | ⟨-, rfl, -⟩
      · refine ⟨rfl, hfits.resolve_left ?_⟩
        rcases hy with hy | hy <;> rw [hy] <;> simp
      · exact (Nat.lt_irrefl _ hx).elim
    · rename_i hxc
      rw [if_neg hxc] at hle
      exact h.handled.fit hs x (by omega)

theorem DeskOk.resumed_kin (h : DeskOk p t) (hst : (p.desks t).stage = .resumed c k)
    (hto : (p.fibers c).Resumes c state l) :
    Kin ((p.setFiber c { p.fibers c with state := state, children := [] }).setDesk t { p.desks t with
      spawned := (p.desks t).spawned ++ (p.fibers c).children
      ready := (p.desks t).ready ++ l
      stage := .call k }) t := by
  have hhand : (p.desks t).stage.hand = some c := by rw [hst]; rfl
  have hfits := h.fits
  rw [hst] at hfits
  refine h.kin.edit (by simp [hst]) rfl (fun q hqc => ?_) (fun x _ => ?_) (fun _ hk => (hk rfl).elim) (fun _ hk hl => ?_)
    (fun _ x hxc hx => ?_) (fun _ _ x hx => .inl ?_) (fun _ hl => ?_)
  · simp [hst, Ne.symm hqc]
  · simp [hst]
  · rcases hfits with hfin | hno
    · exact (hl (hto.finished.2 hfin)).elim
    · have hk' : (p.fibers c).killed = true := hk
      rw [hno] at hk'
      cases hk'
  · rw [Stage.inHand_some hhand, if_neg hxc] at hx
    rw [Pool.waiting_resumed hst]
    omega
  · have hkid : 0 < p.waiting t x := by
      rw [Pool.waiting, hst, Stage.kids_some rfl]
      have := List.count_pos_iff.2 hx
      omega
    rw [Pool.waiting_resumed hst]
    omega
  · rw [Pool.waiting_resumed hst]
    rcases hto with ⟨-, rfl, -⟩ | ⟨hstate, -, hb | hfin⟩
    · rw [count_head, if_pos rfl]
      exact .inr (by omega)
    · exact .inl (hstate.trans hb)
    · exact (hl (hstate.trans hfin)).elim

/-- **`after_resume`**: the children go to `spawned`, and coroutine `c` to `ready` unless it blocks or has ended. -/
theorem DeskOk.resumed (h : DeskOk p t) (hst : (p.desks t).stage = .resumed c k)
    (hto : (p.fibers c).Resumes c state l) :
    DeskOk ((p.setFiber c { p.fibers c with state := state, children := [] }).setDesk t { p.desks t with
      spawned := (p.desks t).spawned ++ (p.fibers c).children
      ready := (p.desks t).ready ++ l
      stage := .call k }) t := by
  have hs := h.closing.unshut (by rw [hst]; rfl) (by simp [hst])
  refine ⟨h.resumed_handled hst hto, ?_, h.stored.keep (by rw [Pool.setDesk_self]) (fun x => ?_),
    .of_unshut ?_ ?_ (fun hi => ?_) (fun hn => ?_), h.resumed_kin hst hto, ?_⟩
  · rw [Pool.setDesk_self]
    trivial
  · rw [Pool.setDesk_fibers, Pool.fibers_setFiber]
    split
    · rename_i hxc
      rw [hxc]
      exact ⟨rfl, rfl, hto.finished⟩
    · exact ⟨rfl, rfl, Iff.rfl⟩
  · rw [Pool.setDesk_self]
    exact hs
  · rw [Pool.setDesk_self]
    rfl
  · rw [Pool.setDesk_self] at hi
    cases hi
  · rw [Pool.setDesk_self] at hn
    cases hn
  · rw [Pool.setDesk_self]
    simp

end resumed

/-! ## A coroutine is spawned -/

theorem DeskOk.running_own (h : DeskOk p t) {ret : Ret} (hst : (p.desks t).stage = .running c ret) :
    (p.fibers c).handler = some t := h.handled.hand (by rw [hst]; rfl)

/-- The pool after `spawn_child` of coroutine `c` on thread `t`. -/
def Pool.spawnChild (p : Pool) (t c id : Nat) (slab : Slab startingId Nat) : Pool :=
  (({ p with coN := p.coN + 1 }.setFiber c
    { p.fibers c with children := (p.fibers c).children ++ [p.coN] }).setFiber p.coN
      (.new id (some t) (p.fibers p.coN).handed)).setDesk t { p.desks t with coroutines := slab }

section spawn
variable {ret : Ret} {id : Nat} {slab : Slab startingId Nat}

theorem Pool.spawnChild_desk (p : Pool) (t c id : Nat) (slab : Slab startingId Nat) :
    (p.spawnChild t c id slab).desks t = { p.desks t with coroutines := slab } := by
  rw [spawnChild, setDesk_self]

theorem Pool.spawnChild_child (p : Pool) (t c id : Nat) (slab : Slab startingId Nat) :
    (p.spawnChild t c id slab).fibers p.coN = .new id (some t) (p.fibers p.coN).handed := by
  rw [spawnChild, setDesk_fibers, setFiber_self]

theorem Pool.spawnChild_parent (hc : c ≠ p.coN) : (p.spawnChild t c id slab).fibers c =
    { p.fibers c with children := (p.fibers c).children ++ [p.coN] } := by
  rw [spawnChild, setDesk_fibers, setFiber_ne _ _ hc, setFiber_self]

theorem Pool.spawnChild_other {x : Nat} (hx : x ≠ p.coN) (hxc : x ≠ c) :
    (p.spawnChild t c id slab).fibers x = p.fibers x := by
  rw [spawnChild, setDesk_fibers, setFiber_ne _ _ hx, setFiber_ne _ _ hxc]

/-- Of the coroutines there were, only the parent changes, in its `children_to_start`. -/
theorem Pool.spawnChild_old {x : Nat} (hx : x ≠ p.coN) :
    ((p.spawnChild t c id slab).fibers x).handler = (p.fibers x).handler ∧
    ((p.spawnChild t c id slab).fibers x).id = (p.fibers x).id ∧
    ((p.spawnChild t c id slab).fibers x).state = (p.fibers x).state ∧
    ((p.spawnChild t c id slab).fibers x).killed = (p.fibers x).killed := by
  by_cases hxc : x = c
  · rw [hxc, spawnChild_parent (hxc ▸ hx)]
    exact ⟨rfl, rfl, rfl, rfl⟩
  · rw [spawnChild_other hx hxc]
    exact ⟨rfl, rfl, rfl, rfl⟩

/-- The child is the only one to be counted anew, if an `after_resume` is ahead. -/
theorem Pool.waiting_spawnChild (hst : (p.desks t).stage = .running c ret) (hc : c ≠ p.coN) (x : Nat) :
    (p.spawnChild t c id slab).waiting t x = p.waiting t x + if x = p.coN ∧ ret.kills = false then 1 else 0 := by
  have hkids : ((p.desks t).stage.kids (p.spawnChild t c id slab).fibers).count x =
      ((p.desks t).stage.kids p.fibers).count x + if x = p.coN ∧ ret.kills = false then 1 else 0 := by
    rw [hst]
    cases ret with
    | resumed k =>
      rw [Stage.kids_some rfl, Stage.kids_some rfl, spawnChild_parent hc]
      simp only [List.count_append, count_head, List.count_nil, Ret.kills, and_true]
      omega
    | _ => rw [Stage.kids_none rfl, Stage.kids_none rfl, if_neg (by simp), Nat.add_zero]
  rw [Pool.waiting, spawnChild_desk, hkids, Pool.waiting, ← Nat.add_assoc]
  rfl

theorem Handled.spawn (h : Handled p t) (hst : (p.desks t).stage = .running c ret) (hc : c ≠ p.coN)
    (hfresh : (p.fibers p.coN).Loose) : Handled (p.spawnChild t c id slab) t := by
  have hstage : ((p.spawnChild t c id slab).desks t).stage = (p.desks t).stage := by rw [Pool.spawnChild_desk]
  have hsd : ((p.spawnChild t c id slab).desks t).isShuttingDown = (p.desks t).isShuttingDown := by
    rw [Pool.spawnChild_desk]
  have hzero : p.waiting t p.coN + (p.desks t).stage.inHand p.coN = 0 := by
    by_contra h0
    have hown := h.own p.coN (by omega)
    rw [hfresh.handler] at hown
    cases hown
  refine ⟨fun x hx => ?_, fun hs x => ?_, fun hs x hx => ?_⟩
  · by_cases hxn : x = p.coN
    · rw [hxn, Pool.spawnChild_child]
      rfl
    · rw [Pool.waiting_spawnChild hst hc, hstage, if_neg (fun hand => hxn hand.1)] at hx
      rw [(Pool.spawnChild_old hxn).1]
      exact h.own x hx
  · rw [Pool.waiting_spawnChild hst hc, hstage]
    by_cases hxn : x = p.coN
    · subst hxn
      split <;> omega
    · rw [if_neg (fun hand => hxn hand.1)]
      exact h.once (hsd ▸ hs) x
  · by_cases hxn : x = p.coN
    · rw [hxn, Pool.spawnChild_child]
      exact ⟨rfl, rfl⟩
    · rw [Pool.waiting_spawnChild hst hc, if_neg (fun hand => hxn hand.1)] at hx
      rw [(Pool.spawnChild_old hxn).2.2.1, (Pool.spawnChild_old hxn).2.2.2]
      exact h.fit (hsd ▸ hs) x hx

theorem Closing.spawn (h : Closing p t) (hp : (p.desks t).stage ≠ .panicked false)
    (hins : (grown (p.desks t).coroutines).insertAt id p.coN = some slab) : Closing (p.spawnChild t c id slab) t := by
  refine h.keep hp ?_ (fun id' x hg hb => ?_) ?_ (fun hi => ?_) (fun hn => ?_) (fun hshuts hq => ?_) <;>
    rw [Pool.spawnChild_desk] at *
  · rw [(Slab.insertAt_some hins).2.1, get_grown] at hg
    have hxn : x ≠ p.coN := by
      rintro rfl
      rw [Pool.spawnChild_child] at hb
      cases hb
    rw [(Pool.spawnChild_old hxn).2.2.1] at hb
    split at hg
    · cases hg
      exact (hxn rfl).elim
    · exact ⟨hg, hb, fun hr => hr⟩
  · exact h.idle hi
  · exact h.noSpawned hn
  · exact ⟨hshuts, hq⟩

theorem Kin.spawn (h : Kin p t) (hst : (p.desks t).stage = .running c ret) (hc : c ≠ p.coN)
    (hown : (p.fibers c).handler = some t) (hkilled : (p.fibers c).killed = ret.kills) (hfresh : (p.fibers p.coN).Loose) :
    Kin (p.spawnChild t c id slab) t := by
  have hp : (p.desks t).stage ≠ .panicked false := by simp [hst]
  have hstage : ((p.spawnChild t c id slab).desks t).stage = (p.desks t).stage := by rw [Pool.spawnChild_desk]
  have hsd : ((p.spawnChild t c id slab).desks t).isShuttingDown = (p.desks t).isShuttingDown := by
    rw [Pool.spawnChild_desk]
  refine ⟨fun q hq hk => ?_, fun x hx hk hl => ?_, fun hs _ x hx hl => ?_⟩
  · rw [hstage]
    by_cases hqc : q = c
    · rw [hqc, (Pool.spawnChild_old hc).2.2.2, hst]
      cases ret with
      | resumed k => exact .inl rfl
      | _ => exact .inr (.inl hkilled)
    · have hqn : q ≠ p.coN := by
        rintro rfl
        rw [Pool.spawnChild_child] at hk
        exact hk rfl
      rw [Pool.spawnChild_other hqn hqc] at hq hk ⊢
      exact h.brood q hq hk
  · have hxn : x ≠ p.coN := by
      rintro rfl
      rw [Pool.spawnChild_child] at hk
      cases hk
    rw [(Pool.spawnChild_old hxn).1] at hx
    rw [(Pool.spawnChild_old hxn).2.2.2] at hk
    rw [(Pool.spawnChild_old hxn).2.2.1] at hl
    rw [hstage]
    exact h.dead x hx hk hl
  · rw [Pool.waiting_spawnChild hst hc, hstage]
    by_cases hxn : x = p.coN
    · subst hxn
      by_cases hret : ret.kills = false
      · rw [if_pos ⟨rfl, hret⟩]
        exact .inr (.inl (by omega))
      · refine .inr (.inr ⟨c, ?_⟩)
        rw [Pool.spawnChild_parent hc]
        exact ⟨hown, by rw [hkilled]; simpa using hret, List.mem_append_right _ (List.mem_singleton.2 rfl)⟩
    · rw [(Pool.spawnChild_old hxn).1] at hx
      rw [(Pool.spawnChild_old hxn).2.2.1] at hl ⊢
      refine (h.cover (hsd ▸ hs) hp x hx hl).imp_right (Or.imp (fun hpos => by omega) ?_)
      rintro ⟨q, hq, hk, hin⟩
      have hqn : q ≠ p.coN := by
        rintro rfl
        rw [hfresh.handler] at hq
        cases hq
      refine ⟨q, (Pool.spawnChild_old hqn).1.trans hq, (Pool.spawnChild_old hqn).2.2.2.trans hk, ?_⟩
      by_cases hqc : q = c
      · rw [hqc, Pool.spawnChild_parent hc]
        exact List.mem_append_left _ (hqc ▸ hin)
      · rw [Pool.spawnChild_other hqn hqc]
        exact hin

/-- **`spawn_child`**: the child is in the slab, and in `children_to_start` of coroutine `c`. -/
theorem DeskOk.spawn (h : DeskOk p t) (hst : (p.desks t).stage = .running c ret) (hfresh : (p.fibers p.coN).Loose)
    (hins : (grown (p.desks t).coroutines).insertAt id p.coN = some slab) : DeskOk (p.spawnChild t c id slab) t := by
  have hown := h.running_own hst
  have hfits := h.fits
  rw [hst] at hfits
  have hcn : c ≠ p.coN := by
    rintro rfl
    rw [hfresh.handler] at hown
    cases hown
  refine ⟨h.handled.spawn hst hcn hfresh, ?_,
    h.stored.inserted hfresh.handler (by rw [Pool.spawnChild_desk]; exact hins)
      (fun x hx => ⟨(Pool.spawnChild_old hx).1, (Pool.spawnChild_old hx).2.1, (Pool.spawnChild_old hx).2.2.1⟩) ?_,
    h.closing.spawn (by simp [hst]) hins, h.kin.spawn hst hcn hown hfits.1 hfresh, ?_⟩
  · rw [Pool.spawnChild_desk, hst, Stage.Fits, (Pool.spawnChild_old hcn).2.2.2, (Pool.spawnChild_old hcn).2.2.1]
    exact hfits
  · rw [Pool.spawnChild_child]
    exact ⟨rfl, rfl, by simp [Fiber.new]⟩
  · rw [Pool.spawnChild_desk]
    exact h.noStray

end spawn

end Mioco.Pooling
