import Mathlib.Data.List.Perm.Basic
import Mioco.Pool
/-!
# What a thread keeps of its handles

A handle, in a queue of a thread or in its hands, is of a coroutine attached to that thread; before `Shutdown` it is
the only one, and the coroutine is ready unless the thread is busy with it.  `DeskOk` says so of one thread of a pool,
in five parts; here is what an edit of the thread, or of one coroutine, must be like for each of them to hold on.
-/
namespace Mioco.Pooling

open Lib (Slab)

namespace Pool
variable (p : Pool) (t c : Nat) (d : Desk) (f : Fiber)

@[simp] theorem setDesk_self : (p.setDesk t d).desks t = d := Function.update_self _ _ _
@[simp] theorem setDesk_fibers : (p.setDesk t d).fibers = p.fibers := rfl
@[simp] theorem setDesk_coN : (p.setDesk t d).coN = p.coN := rfl
@[simp] theorem setFiber_self : (p.setFiber c f).fibers c = f := Function.update_self _ _ _
@[simp] theorem setFiber_desks : (p.setFiber c f).desks = p.desks := rfl
@[simp] theorem setFiber_coN : (p.setFiber c f).coN = p.coN := rfl

theorem setDesk_ne {t i : Nat} (h : i ≠ t) : (p.setDesk t d).desks i = p.desks i := Function.update_of_ne h _ _

theorem setFiber_ne {c i : Nat} (h : i ≠ c) : (p.setFiber c f).fibers i = p.fibers i := Function.update_of_ne h _ _

theorem fibers_setFiber (i : Nat) : (p.setFiber c f).fibers i = if i = c then f else p.fibers i :=
  Function.update_apply _ _ _ _

theorem desks_setDesk (i : Nat) : (p.setDesk t d).desks i = if i = t then d else p.desks i :=
  Function.update_apply _ _ _ _

theorem desks_post (l i : Nat) : (p.post l c).desks i =
    { p.desks i with moving := (p.desks i).moving ++ if i = l then [c] else [] } := by
  rw [post, desks_setDesk]
  split
  · subst i
    rfl
  · rw [List.append_nil]

end Pool

/-! ## Handles -/

/-- How many handles of `c` wait in the queues of a thread. -/
def Desk.queued (d : Desk) (c : Nat) : Nat := d.held.count c + d.spawned.count c + d.ready.count c

/-- The children that `after_resume` has before it. -/
def Stage.kids (st : Stage) (fibers : Nat → Fiber) : List Nat := st.resuming.elim [] (fun q => (fibers q).children)

def Stage.inHand (st : Stage) (c : Nat) : Nat := if st.hand = some c then 1 else 0

/-- The handles of `c` on thread `t`, and its places in `children_to_start`, but for the one it is busy with. -/
def Pool.waiting (p : Pool) (t c : Nat) : Nat := (p.desks t).queued c + ((p.desks t).stage.kids p.fibers).count c

/-- **Handles on thread `t`.** -/
structure Handled (p : Pool) (t : Nat) : Prop where
  own : ∀ c, 0 < p.waiting t c + (p.desks t).stage.inHand c → (p.fibers c).handler = some t
  once : (p.desks t).isShuttingDown = false → ∀ c, p.waiting t c + (p.desks t).stage.inHand c ≤ 1
  fit : (p.desks t).isShuttingDown = false → ∀ c, 0 < p.waiting t c →
    (p.fibers c).state = .ready ∧ (p.fibers c).killed = false

/-- **The coroutine a thread is busy with.** -/
@[simp] def Stage.Fits (fibers : Nat → Fiber) : Stage → Prop
  | entering c ret => (fibers c).killed = ret.kills ∧ (ret.kills = false → (fibers c).state = .ready)
  | running c ret => (fibers c).killed = ret.kills ∧ (fibers c).state ≠ .finished
  | ending c _ => (fibers c).state = .finished
  | settling c (.resumed _) | resumed c _ => (fibers c).state = .finished ∨ (fibers c).killed = false
  | settling c .attached | freeing c _ => (fibers c).state = .ready ∧ (fibers c).killed = false
  | _ => True

/-- **The slab of thread `t`** holds the live coroutines attached to it, under their ids. -/
structure Stored (p : Pool) (t : Nat) : Prop where
  stored : ∀ id c, (p.desks t).coroutines.get id = some c →
    (p.fibers c).handler = some t ∧ (p.fibers c).id = id ∧ (p.fibers c).state ≠ .finished
  placed : ∀ c, (p.fibers c).handler = some t → (p.fibers c).state ≠ .finished →
    (p.desks t).coroutines.get (p.fibers c).id = some c

/-- **Where a thread is**, idle or shutting down. -/
structure Closing (p : Pool) (t : Nat) : Prop where
  idle : (p.desks t).stage.idle = true → (p.desks t).spawned = [] ∧ (p.desks t).ready = []
  noSpawned : (p.desks t).stage = .readyNext true → (p.desks t).spawned = []
  shuts : (p.desks t).isShuttingDown = true → (p.desks t).stage.shuts = true ∧ (p.desks t).spawned = [] ∧
    (p.desks t).ready = [] ∨ (p.desks t).stage = .panicked false
  waving : ∀ i last, (p.desks t).stage.waving = some (i, last) → (p.desks t).isShuttingDown = true ∧ startingId ≤ i
  /-- the wave is still to come to those that wait for an event -/
  wave : (p.desks t).isShuttingDown = true → (p.desks t).stage ≠ .panicked false →
    ∀ id c, (p.desks t).coroutines.get id = some c → (p.fibers c).state = .blocked →
      (p.desks t).stage.runs = some c ∨ ∃ i last, (p.desks t).stage.waving = some (i, last) ∧ i ≤ id ∧ id < last

/-- **Children and the killed** of thread `t`. -/
structure Kin (p : Pool) (t : Nat) : Prop where
  brood : ∀ q, (p.fibers q).handler = some t → (p.fibers q).children ≠ [] →
    (p.desks t).stage.resuming = some q ∨ (p.fibers q).killed = true ∨ (p.desks t).stage = .panicked false
  dead : ∀ c, (p.fibers c).handler = some t → (p.fibers c).killed = true → (p.fibers c).state ≠ .finished →
    (p.desks t).stage.runs = some c
  /-- whoever is not waiting for an event will be resumed -/
  cover : (p.desks t).isShuttingDown = false → (p.desks t).stage ≠ .panicked false →
    ∀ c, (p.fibers c).handler = some t → (p.fibers c).state ≠ .finished →
      (p.fibers c).state = .blocked ∨ 0 < p.waiting t c + (p.desks t).stage.inHand c ∨
        ∃ q, (p.fibers q).handler = some t ∧ (p.fibers q).killed = true ∧ c ∈ (p.fibers q).children

structure DeskOk (p : Pool) (t : Nat) : Prop where
  handled : Handled p t
  fits : (p.desks t).stage.Fits p.fibers
  stored : Stored p t
  closing : Closing p t
  kin : Kin p t
  noStray : (p.desks t).stage ≠ .panicked true

/-- Attached to no thread. -/
structure Fiber.Loose (f : Fiber) : Prop where
  handler : f.handler = none
  state : f.state = .ready
  killed : f.killed = false
  children : f.children = []

/-! ## The thread's stage -/

variable {p p' : Pool} {t i c : Nat}

theorem Stage.hand_of_resuming {st : Stage} (h : st.resuming = some c) : st.hand = some c := by
  cases st with
  | entering c' ret | running c' ret | ending c' ret => cases ret <;> first | exact h | cases h
  | settling c' next => cases next <;> first | exact h | cases h
  | freeing c' next =>
    cases next with
    | woken next => cases next <;> first | exact h | cases h
    | _ => cases h
  | resumed c' k => exact h
  | _ => cases h

theorem Stage.inHand_some {st : Stage} (h : st.hand = some c) (x : Nat) : st.inHand x = if x = c then 1 else 0 := by
  rw [inHand, h]
  by_cases hx : x = c
  · rw [if_pos hx, if_pos (by rw [hx])]
  · rw [if_neg hx, if_neg (fun he => hx (Option.some.inj he).symm)]

theorem Stage.inHand_none {st : Stage} (h : st.hand = none) (x : Nat) : st.inHand x = 0 := by
  rw [inHand, h]
  exact if_neg (by simp)

theorem Stage.inHand_of_hand {st : Stage} (h : st.hand = some c) : st.inHand c = 1 := if_pos h

theorem Stage.eq_of_attaching {st : Stage} (h : st.attaching = some c) :
    st = .settling c .attached ∨ st = .freeing c (.woken .attached) := by
  unfold attaching at h
  split at h <;> cases h
  · exact .inl rfl
  · exact .inr rfl

theorem Handled.hand (h : Handled p t) (hc : (p.desks t).stage.hand = some c) : (p.fibers c).handler = some t :=
  h.own c (by rw [Stage.inHand_of_hand hc]; omega)

/-- A coroutine that is not being killed has children only while the thread resumes it. -/
theorem Kin.childless (h : Kin p t) (hp : (p.desks t).stage ≠ .panicked false) (hown : (p.fibers c).handler = some t)
    (hkilled : (p.fibers c).killed = false) (hres : (p.desks t).stage.resuming ≠ some c) :
    (p.fibers c).children = [] := by
  by_contra hk
  rcases h.brood c hown hk with hr | hr | hr
  · exact hres hr
  · rw [hkilled] at hr
    cases hr
  · exact hp hr

/-- A coroutine that `migrate` takes out of the slab. -/
theorem DeskOk.migrant (h : DeskOk p t) {k : Callback} {l : Nat} (hst : (p.desks t).stage = .freeing c (.migrate k l))
    (hown : (p.fibers c).handler = some t) : Fiber.Loose { p.fibers c with handler := none } := by
  have hfits := h.fits
  rw [hst] at hfits
  exact ⟨rfl, hfits.1, hfits.2, h.kin.childless (by simp [hst]) hown hfits.2 (by simp [hst])⟩

/-! ## The other threads -/

/-- Thread `i` is as before, but for the `Migration`s on their way to it, and so is what is attached to it, but for how
often it was handed over. -/
structure Pool.Apart (p p' : Pool) (i : Nat) : Prop where
  desk : ∃ m, p'.desks i = { p.desks i with moving := m }
  fibers : ∀ c, (p.fibers c).handler = some i ∨ (p'.fibers c).handler = some i →
    ∃ n, p'.fibers c = { p.fibers c with handed := n }

namespace Pool.Apart

theorem stage (ha : Pool.Apart p p' i) : (p'.desks i).stage = (p.desks i).stage := by
  obtain ⟨m, hd⟩ := ha.desk
  rw [hd]

theorem isShuttingDown (ha : Pool.Apart p p' i) : (p'.desks i).isShuttingDown = (p.desks i).isShuttingDown := by
  obtain ⟨m, hd⟩ := ha.desk
  rw [hd]

theorem coroutines (ha : Pool.Apart p p' i) : (p'.desks i).coroutines = (p.desks i).coroutines := by
  obtain ⟨m, hd⟩ := ha.desk
  rw [hd]

theorem queues (ha : Pool.Apart p p' i) :
    (p'.desks i).spawned = (p.desks i).spawned ∧ (p'.desks i).ready = (p.desks i).ready := by
  obtain ⟨m, hd⟩ := ha.desk
  rw [hd]
  exact ⟨rfl, rfl⟩

theorem hand (ha : Pool.Apart p p' i) (h : Handled p i) (hc : (p.desks i).stage.hand = some c) :
    ∃ n, p'.fibers c = { p.fibers c with handed := n } := ha.fibers c (.inl (h.hand hc))

theorem waiting (ha : Pool.Apart p p' i) (h : Handled p i) (x : Nat) : p'.waiting i x = p.waiting i x := by
  have hkids : (p.desks i).stage.kids p'.fibers = (p.desks i).stage.kids p.fibers := by
    unfold Stage.kids
    cases hr : (p.desks i).stage.resuming with
    | none => rfl
    | some q =>
      obtain ⟨n, hn⟩ := ha.hand h (Stage.hand_of_resuming hr)
      rw [Option.elim_some, Option.elim_some, hn]
  obtain ⟨m, hd⟩ := ha.desk
  rw [Pool.waiting, Pool.waiting, ha.stage, hkids, hd]
  rfl

theorem fits (ha : Pool.Apart p p' i) (h : Handled p i) (hfits : (p.desks i).stage.Fits p.fibers) :
    (p'.desks i).stage.Fits p'.fibers := by
  rw [ha.stage]
  cases hst : (p.desks i).stage with
  | entering c ret | running c ret | ending c ret | resumed c k | freeing c next =>
    rw [hst] at hfits
    obtain ⟨n, hn⟩ := ha.hand h (c := c) (by rw [hst]; rfl)
    simpa only [Stage.Fits, hn] using hfits
  | settling c next =>
    rw [hst] at hfits
    obtain ⟨n, hn⟩ := ha.hand h (c := c) (by rw [hst]; rfl)
    cases next <;> simpa only [Stage.Fits, hn] using hfits
  | _ => trivial

end Pool.Apart

theorem Handled.frame (h : Handled p i) (ha : Pool.Apart p p' i) : Handled p' i where
  own c hc := by
    rw [ha.waiting h, ha.stage] at hc
    have hown := h.own c hc
    obtain ⟨n, hn⟩ := ha.fibers c (.inl hown)
    rwa [hn]
  once hs c := by
    rw [ha.waiting h, ha.stage]
    exact h.once (ha.isShuttingDown ▸ hs) c
  fit hs c hc := by
    rw [ha.waiting h] at hc
    obtain ⟨n, hn⟩ := ha.fibers c (.inl (h.own c (by omega)))
    rw [hn]
    exact h.fit (ha.isShuttingDown ▸ hs) c hc

theorem Stored.frame (h : Stored p i) (ha : Pool.Apart p p' i) : Stored p' i where
  stored id c hg := by
    rw [ha.coroutines] at hg
    obtain ⟨hown, hid, hl⟩ := h.stored id c hg
    obtain ⟨n, hn⟩ := ha.fibers c (.inl hown)
    rw [hn]
    exact ⟨hown, hid, hl⟩
  placed c hc hl := by
    obtain ⟨n, hn⟩ := ha.fibers c (.inr hc)
    rw [hn] at hc hl ⊢
    rw [ha.coroutines]
    exact h.placed c hc hl

theorem Closing.frame (h : Closing p i) (hs : Stored p i) (ha : Pool.Apart p p' i) : Closing p' i where
  idle hi := by
    rw [ha.stage] at hi
    rw [ha.queues.1, ha.queues.2]
    exact h.idle hi
  noSpawned hn := by
    rw [ha.stage] at hn
    rw [ha.queues.1]
    exact h.noSpawned hn
  shuts hsd := by
    rw [ha.isShuttingDown] at hsd
    rw [ha.stage, ha.queues.1, ha.queues.2]
    exact h.shuts hsd
  waving j last hw := by
    rw [ha.stage] at hw
    rw [ha.isShuttingDown]
    exact h.waving j last hw
  wave hsd hp id c hg hb := by
    rw [ha.coroutines] at hg
    rw [ha.stage] at hp ⊢
    obtain ⟨n, hn⟩ := ha.fibers c (.inl (hs.stored id c hg).1)
    rw [hn] at hb
    exact h.wave (ha.isShuttingDown ▸ hsd) hp id c hg hb

theorem Kin.frame (h : Kin p i) (hh : Handled p i) (ha : Pool.Apart p p' i) : Kin p' i where
  brood q hq hk := by
    obtain ⟨n, hn⟩ := ha.fibers q (.inr hq)
    rw [hn] at hq hk ⊢
    rw [ha.stage]
    exact h.brood q hq hk
  dead c hc hk hl := by
    obtain ⟨n, hn⟩ := ha.fibers c (.inr hc)
    rw [hn] at hc hk hl
    rw [ha.stage]
    exact h.dead c hc hk hl
  cover hs hp c hc hl := by
    obtain ⟨n, hn⟩ := ha.fibers c (.inr hc)
    rw [hn] at hc hl ⊢
    rw [ha.stage] at hp
    rw [ha.stage, ha.waiting hh]
    refine (h.cover (ha.isShuttingDown ▸ hs) hp c hc hl).imp_right (Or.imp_right ?_)
    rintro ⟨q, hq, hk, hin⟩
    obtain ⟨n', hn'⟩ := ha.fibers q (.inl hq)
    exact ⟨q, by rw [hn']; exact ⟨hq, hk, hin⟩⟩

/-- **What is not attached to thread `i` does not matter to it.** -/
theorem DeskOk.frame (h : DeskOk p i) (ha : Pool.Apart p p' i) : DeskOk p' i where
  handled := h.handled.frame ha
  fits := ha.fits h.handled h.fits
  stored := h.stored.frame ha
  closing := h.closing.frame h.stored ha
  kin := h.kin.frame h.handled ha
  noStray := by
    rw [ha.stage]
    exact h.noStray

/-! ## What an edit keeps -/

@[simp] theorem Pool.waiting_setDesk (d : Desk) (x : Nat) :
    (p.setDesk t d).waiting t x = d.queued x + (d.stage.kids p.fibers).count x := by
  rw [Pool.waiting, Pool.setDesk_self, Pool.setDesk_fibers]

theorem Stage.kids_none {st : Stage} {fibers : Nat → Fiber} (h : st.resuming = none) : st.kids fibers = [] := by
  rw [kids, h, Option.elim_none]

theorem Stage.kids_some {st : Stage} {fibers : Nat → Fiber} (h : st.resuming = some c) :
    st.kids fibers = (fibers c).children := by
  rw [kids, h, Option.elim_some]

theorem count_head (a : Nat) (l : List Nat) (x : Nat) : (a :: l).count x = l.count x + if x = a then 1 else 0 := by
  rw [List.count_cons]
  by_cases hx : x = a
  · rw [if_pos hx, if_pos (beq_iff_eq.2 hx.symm)]
  · rw [if_neg hx, if_neg (fun hb => hx (beq_iff_eq.1 hb).symm)]

theorem count_take {l : List Nat} {i : Nat} (h : l[i]? = some c) (x : Nat) :
    (l.eraseIdx i).count x + (if x = c then 1 else 0) = l.count x := by
  obtain ⟨hi, rfl⟩ := List.getElem?_eq_some_iff.1 h
  rw [← (List.getElem_cons_eraseIdx_perm hi).count_eq x, count_head]

/-- No handle comes to the thread. -/
theorem Handled.keep (h : Handled p t) (hsd : (p'.desks t).isShuttingDown = false → (p.desks t).isShuttingDown = false)
    (hle : ∀ x, p'.waiting t x + (p'.desks t).stage.inHand x ≤ p.waiting t x + (p.desks t).stage.inHand x)
    (hh : ∀ x, 0 < p'.waiting t x + (p'.desks t).stage.inHand x → (p'.fibers x).handler = (p.fibers x).handler)
    (hw : (p.desks t).isShuttingDown = false → ∀ x, 0 < p'.waiting t x →
      (p'.fibers x).state = .ready ∧ (p'.fibers x).killed = false) : Handled p' t where
  own x hx := by
    have := hle x
    rw [hh x hx]
    exact h.own x (by omega)
  once hs x := Nat.le_trans (hle x) (h.once (hsd hs) x)
  fit hs x hx := hw (hsd hs) x hx

/-- What waits is not in hand. -/
theorem Handled.ne_hand (h : Handled p t) (hs : (p.desks t).isShuttingDown = false)
    (hc : (p.desks t).stage.hand = some c) {x : Nat} (hx : 0 < p.waiting t x) : x ≠ c := by
  rintro rfl
  have h1 := h.once hs x
  rw [Stage.inHand_of_hand hc] at h1
  omega

theorem Stored.keep (h : Stored p t) (hco : (p'.desks t).coroutines = (p.desks t).coroutines)
    (hf : ∀ x, (p'.fibers x).handler = (p.fibers x).handler ∧ (p'.fibers x).id = (p.fibers x).id ∧
      ((p'.fibers x).state = .finished ↔ (p.fibers x).state = .finished)) : Stored p' t where
  stored id x hg := by
    rw [hco] at hg
    obtain ⟨h1, h2, h3⟩ := h.stored id x hg
    obtain ⟨e1, e2, e3⟩ := hf x
    exact ⟨e1.trans h1, e2.trans h2, fun hx => h3 (e3.1 hx)⟩
  placed x hx hl := by
    obtain ⟨e1, e2, e3⟩ := hf x
    rw [hco, e2]
    exact h.placed x (e1.symm.trans hx) (fun hx' => hl (e3.2 hx'))

/-- Coroutine `c` leaves the slab. -/
theorem Stored.removed (h : Stored p t) (hh : (p.fibers c).handler = some t) (hl : (p.fibers c).state ≠ .finished)
    (hrem : (p.desks t).coroutines.remove (p.fibers c).id = some (p'.desks t).coroutines)
    (hf : ∀ x, x ≠ c → p'.fibers x = p.fibers x)
    (hc : (p'.fibers c).handler ≠ some t ∨ (p'.fibers c).state = .finished) : Stored p' t where
  stored id x hg := by
    rw [(Slab.remove_some hrem).2.1] at hg
    split at hg
    · cases hg
    · rename_i hid
      obtain ⟨h1, h2, h3⟩ := h.stored id x hg
      have hx : x ≠ c := by
        rintro rfl
        exact hid h2.symm
      rw [hf x hx]
      exact ⟨h1, h2, h3⟩
  placed x hx hlx := by
    have hxc : x ≠ c := by
      rintro rfl
      rcases hc with hc | hc
      · exact hc hx
      · exact hlx hc
    rw [hf x hxc] at hx hlx ⊢
    have hg := h.placed x hx hlx
    rw [(Slab.remove_some hrem).2.1, if_neg]
    · exact hg
    · intro hid
      have hg' := h.placed c hh hl
      rw [← hid, hg] at hg'
      cases hg'
      exact hxc rfl

theorem get_grown (slab : Slab startingId Nat) (id : Nat) : (grown slab).get id = slab.get id := by
  unfold grown
  split
  · rfl
  · exact Slab.get_grow slab _ _

/-- Coroutine `c` comes into the slab, at `id`. -/
theorem Stored.inserted (h : Stored p t) {id : Nat} (hh : (p.fibers c).handler = none)
    (hins : (grown (p.desks t).coroutines).insertAt id c = some (p'.desks t).coroutines)
    (hf : ∀ x, x ≠ c → (p'.fibers x).handler = (p.fibers x).handler ∧ (p'.fibers x).id = (p.fibers x).id ∧
      (p'.fibers x).state = (p.fibers x).state)
    (hc : (p'.fibers c).handler = some t ∧ (p'.fibers c).id = id ∧ (p'.fibers c).state ≠ .finished) :
    Stored p' t where
  stored id' x hg := by
    rw [(Slab.insertAt_some hins).2.1, get_grown] at hg
    split at hg
    · rename_i hid
      subst hid
      cases hg
      exact hc
    · obtain ⟨h1, h2, h3⟩ := h.stored id' x hg
      have hx : x ≠ c := by
        rintro rfl
        rw [hh] at h1
        cases h1
      obtain ⟨e1, e2, e3⟩ := hf x hx
      exact ⟨e1.trans h1, e2.trans h2, e3.symm ▸ h3⟩
  placed x hx hl := by
    obtain ⟨hnone, hget, -, -⟩ := Slab.insertAt_some hins
    rw [hget]
    by_cases hxc : x = c
    · subst hxc
      rw [if_pos hc.2.1]
    · obtain ⟨e1, e2, e3⟩ := hf x hxc
      rw [e1] at hx
      rw [e3] at hl
      have hg := h.placed x hx hl
      rw [e2, get_grown, if_neg]
      · exact hg
      · intro hid
        rw [get_grown, ← hid, hg] at hnone
        cases hnone

/-- A thread that is elsewhere is not shutting down. -/
theorem Closing.unshut (h : Closing p t) (hst : (p.desks t).stage.shuts = false)
    (hp : (p.desks t).stage ≠ .panicked false) : (p.desks t).isShuttingDown = false := by
  by_contra hs
  rcases h.shuts (by simpa using hs) with ⟨hs', -⟩ | hp'
  · rw [hst] at hs'
    cases hs'
  · exact hp hp'

theorem Closing.of_unshut (hs : (p'.desks t).isShuttingDown = false) (hwav : (p'.desks t).stage.waving = none)
    (hidle : (p'.desks t).stage.idle = true → (p'.desks t).spawned = [] ∧ (p'.desks t).ready = [])
    (hno : (p'.desks t).stage = .readyNext true → (p'.desks t).spawned = []) : Closing p' t where
  idle := hidle
  noSpawned := hno
  shuts hs' := by rw [hs] at hs'; cases hs'
  waving i last hw := by rw [hwav] at hw; cases hw
  wave hs' := by rw [hs] at hs'; cases hs'

theorem Closing.panic (hp : (p'.desks t).stage = .panicked false) : Closing p' t where
  idle hi := by rw [hp] at hi; cases hi
  noSpawned hn := by rw [hp] at hn; cases hn
  shuts _ := .inr hp
  waving i last hw := by rw [hp] at hw; cases hw
  wave _ hp' := (hp' hp).elim

/-- Nobody new waits for an event, and the wave is where it was. -/
theorem Closing.keep (h : Closing p t) (hp : (p.desks t).stage ≠ .panicked false)
    (hs : (p'.desks t).isShuttingDown = (p.desks t).isShuttingDown)
    (hco : ∀ id x, (p'.desks t).coroutines.get id = some x → (p'.fibers x).state = .blocked →
      (p.desks t).coroutines.get id = some x ∧ (p.fibers x).state = .blocked ∧
        ((p.desks t).stage.runs = some x → (p'.desks t).stage.runs = some x))
    (hwav : (p'.desks t).stage.waving = (p.desks t).stage.waving)
    (hidle : (p'.desks t).stage.idle = true → (p'.desks t).spawned = [] ∧ (p'.desks t).ready = [])
    (hno : (p'.desks t).stage = .readyNext true → (p'.desks t).spawned = [])
    (hshuts : (p.desks t).stage.shuts = true → (p.desks t).spawned = [] ∧ (p.desks t).ready = [] →
      (p'.desks t).stage.shuts = true ∧ (p'.desks t).spawned = [] ∧ (p'.desks t).ready = []) : Closing p' t where
  idle := hidle
  noSpawned := hno
  shuts hs' := by
    rcases h.shuts (hs ▸ hs') with ⟨h1, h2⟩ | hp'
    · exact .inl (hshuts h1 h2)
    · exact (hp hp').elim
  waving i last hw := by
    rw [hs]
    exact h.waving i last (hwav ▸ hw)
  wave hs' _ id x hg hb := by
    obtain ⟨hg', hb', hr⟩ := hco id x hg hb
    rw [hwav]
    exact (h.wave (hs ▸ hs') hp id x hg' hb').imp_left hr

/-- Coroutines keep their threads and their children. -/
theorem Kin.keep (h : Kin p t) (hp : (p.desks t).stage ≠ .panicked false)
    (hs : (p'.desks t).isShuttingDown = false → (p.desks t).isShuttingDown = false)
    (hf : ∀ x, (p'.fibers x).handler = (p.fibers x).handler ∧ (p'.fibers x).killed = (p.fibers x).killed ∧
      (p'.fibers x).children = (p.fibers x).children ∧
        ((p.fibers x).state = .finished → (p'.fibers x).state = .finished))
    (hres : ∀ q, (p.desks t).stage.resuming = some q → (p'.desks t).stage.resuming = some q)
    (hruns : ∀ x, (p.desks t).stage.runs = some x → (p.fibers x).killed = true → (p'.fibers x).state ≠ .finished →
      (p'.desks t).stage.runs = some x)
    (hcov : (p.desks t).isShuttingDown = false → ∀ x, (p.fibers x).handler = some t → (p'.fibers x).state ≠ .finished →
      (p.fibers x).state = .blocked ∨ 0 < p.waiting t x + (p.desks t).stage.inHand x →
        (p'.fibers x).state = .blocked ∨ 0 < p'.waiting t x + (p'.desks t).stage.inHand x) : Kin p' t where
  brood q hq hk := by
    obtain ⟨e1, e2, e3, -⟩ := hf q
    rw [e1] at hq
    rw [e3] at hk
    rw [e2]
    rcases h.brood q hq hk with hr | hr | hr
    · exact .inl (hres q hr)
    · exact .inr (.inl hr)
    · exact (hp hr).elim
  dead x hx hk hl := by
    obtain ⟨e1, e2, -, e4⟩ := hf x
    rw [e1] at hx
    rw [e2] at hk
    exact hruns x (h.dead x hx hk (fun hfin => hl (e4 hfin))) hk hl
  cover hs' _ x hx hl := by
    obtain ⟨e1, -, -, e4⟩ := hf x
    rw [e1] at hx
    have hcov' := hcov (hs hs') x hx hl
    rcases h.cover (hs hs') hp x hx (fun hfin => hl (e4 hfin)) with hb | hw | ⟨q, hq, hk, hin⟩
    · exact (hcov' (.inl hb)).imp_right Or.inl
    · exact (hcov' (.inr hw)).imp_right Or.inl
    · obtain ⟨e1', e2', e3', -⟩ := hf q
      exact .inr (.inr ⟨q, e1'.trans hq, e2'.trans hk, e3' ▸ hin⟩)

theorem Kin.panic (hp : (p'.desks t).stage = .panicked false)
    (hd : ∀ c, (p'.fibers c).handler = some t → (p'.fibers c).killed = true → (p'.fibers c).state = .finished) :
    Kin p' t where
  brood _ _ _ := .inr (.inr hp)
  dead c hc hk hl := (hl (hd c hc hk)).elim
  cover _ hp' := (hp' hp).elim

/-! ## One coroutine and its thread -/

section edit
variable {d : Desk} {f : Fiber}

/-- Between stages in which no `after_resume` is ahead. -/
theorem Pool.waiting_calm (hq : d.queued = (p.desks t).queued) (hres : (p.desks t).stage.resuming = none)
    (hres' : d.stage.resuming = none) (x : Nat) : ((p.setFiber c f).setDesk t d).waiting t x = p.waiting t x := by
  rw [Pool.waiting_setDesk, Stage.kids_none hres', Pool.waiting, Stage.kids_none hres, hq]

/-- A coroutine for which there was no handle comes into the hands of the thread. -/
theorem Handled.picked (h : Handled p t) (hs : d.isShuttingDown = (p.desks t).isShuttingDown)
    (hq : d.queued = (p.desks t).queued) (hres : (p.desks t).stage.resuming = none) (hres' : d.stage.resuming = none)
    (hhand : (p.desks t).stage.hand = none) (hhand' : d.stage.hand = some c) (hzero : p.waiting t c = 0)
    (hf : f.handler = some t) : Handled ((p.setFiber c f).setDesk t d) t where
  own x hx := by
    rw [Pool.setDesk_fibers, Pool.fibers_setFiber]
    split
    · exact hf
    · rename_i hxc
      rw [Pool.waiting_calm hq hres hres', Pool.setDesk_self, Stage.inHand_some hhand', if_neg hxc] at hx
      exact h.own x (by omega)
  once hsd x := by
    rw [Pool.setDesk_self, hs] at hsd
    have hone := h.once hsd x
    rw [Pool.waiting_calm hq hres hres', Pool.setDesk_self, Stage.inHand_some hhand']
    split
    · rename_i hxc
      rw [hxc, hzero]
    · rw [Stage.inHand_none hhand] at hone
      exact hone
  fit hsd x hx := by
    rw [Pool.setDesk_self, hs] at hsd
    rw [Pool.waiting_calm hq hres hres'] at hx
    have hxc : x ≠ c := by
      rintro rfl
      omega
    rw [Pool.setDesk_fibers, Pool.setFiber_ne _ _ hxc]
    exact h.fit hsd x hx

/-- Only coroutine `c` changes, and the thread had nothing to do with another. -/
theorem Kin.edit (h : Kin p t) (hp : (p.desks t).stage ≠ .panicked false)
    (hs : d.isShuttingDown = (p.desks t).isShuttingDown)
    (hres : ∀ q, q ≠ c → (p.desks t).stage.resuming ≠ some q) (hruns : ∀ x, x ≠ c → (p.desks t).stage.runs ≠ some x)
    (hbrood : f.handler = some t → f.children ≠ [] → d.stage.resuming = some c ∨ f.killed = true)
    (hdead : f.handler = some t → f.killed = true → f.state ≠ .finished → d.stage.runs = some c)
    (hpos : (p.desks t).isShuttingDown = false → ∀ x, x ≠ c → 0 < p.waiting t x + (p.desks t).stage.inHand x →
      0 < ((p.setFiber c f).setDesk t d).waiting t x + d.stage.inHand x)
    (hkids : (p.fibers c).handler = some t → (p.fibers c).killed = true → ∀ x ∈ (p.fibers c).children,
      0 < ((p.setFiber c f).setDesk t d).waiting t x + d.stage.inHand x ∨
        f.handler = some t ∧ f.killed = true ∧ x ∈ f.children)
    (hcover : f.handler = some t → f.state ≠ .finished →
      f.state = .blocked ∨ 0 < ((p.setFiber c f).setDesk t d).waiting t c + d.stage.inHand c) :
    Kin ((p.setFiber c f).setDesk t d) t where
  brood q hq hk := by
    rw [Pool.setDesk_self]
    rw [Pool.setDesk_fibers, Pool.fibers_setFiber] at hq hk ⊢
    split at hq
    · rename_i hqc
      subst hqc
      rw [if_pos rfl] at hk ⊢
      exact (hbrood hq hk).imp_right Or.inl
    · rename_i hqc
      rw [if_neg hqc] at hk ⊢
      rcases h.brood q hq hk with hr | hr | hr
      · exact (hres q hqc hr).elim
      · exact .inr (.inl hr)
      · exact (hp hr).elim
  dead x hx hk hl := by
    rw [Pool.setDesk_self]
    rw [Pool.setDesk_fibers, Pool.fibers_setFiber] at hx hk hl
    split at hx
    · rename_i hxc
      subst hxc
      rw [if_pos rfl] at hk hl
      exact hdead hx hk hl
    · rename_i hxc
      rw [if_neg hxc] at hk hl
      exact (hruns x hxc (h.dead x hx hk hl)).elim
  cover hsd _ x hx hl := by
    rw [Pool.setDesk_self] at hsd ⊢
    rw [Pool.setDesk_fibers, Pool.fibers_setFiber] at hx hl ⊢
    by_cases hxc : x = c
    · subst hxc
      rw [if_pos rfl] at hx hl ⊢
      exact (hcover hx hl).imp_right Or.inl
    · rw [if_neg hxc] at hx hl ⊢
      rcases h.cover (hs ▸ hsd) hp x hx hl with hb | hw | ⟨q, hq, hk, hin⟩
      · exact .inl hb
      · exact .inr (.inl (hpos (hs ▸ hsd) x hxc hw))
      · by_cases hqc : q = c
        · subst hqc
          refine .inr ((hkids hq hk x hin).imp_right (fun hf => ⟨q, ?_⟩))
          rw [Pool.setFiber_self]
          exact hf
        · exact .inr (.inr ⟨q, by rw [Pool.setFiber_ne _ _ hqc]; exact ⟨hq, hk, hin⟩⟩)

end edit

end Mioco.Pooling
