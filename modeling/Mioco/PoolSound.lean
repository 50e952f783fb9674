import Mioco.DeskSteps
/-!
# No handle is lost, none is out of date

`Sound` is what the steps of a pool keep: every thread its handles, and the `Migration`s on their way.  So `jump_in` and
`migrate` never meet a coroutine of another thread, and `coroutines.remove(id)` finds what it looks for.
-/
namespace Mioco.Pooling

open Lib (Slab)

variable {p p' : Pool} {t i c : Nat} {may : Ret → Nat → Prop}

/-- **What every step keeps.** -/
structure Sound (p : Pool) : Prop where
  desk : ∀ t, DeskOk p t
  fresh : ∀ c, p.coN ≤ c → (p.fibers c).Loose ∧ (p.fibers c).handed = 0
  moving : ∀ t, ∀ c ∈ (p.desks t).moving, (p.fibers c).Loose ∧ c < p.coN
  nodup : ∀ t, (p.desks t).moving.Nodup
  apart : ∀ t t' c, c ∈ (p.desks t).moving → c ∈ (p.desks t').moving → t = t'

/-! ## Every step -/

/-- A step that only touches coroutines of its own thread. -/
structure Pool.Local (p : Pool) (t : Nat) (p' : Pool) : Prop where
  desks : ∀ i, i ≠ t → p'.desks i = p.desks i
  moving : (p'.desks t).moving = (p.desks t).moving
  coN : p'.coN = p.coN
  fibers : ∀ x, p'.fibers x = p.fibers x ∨
    (p.fibers x).handler = some t ∧ ((p'.fibers x).handler = some t ∨ (p'.fibers x).handler = none)

theorem Pool.local_setDesk {d : Desk} (hm : d.moving = (p.desks t).moving) : Pool.Local p t (p.setDesk t d) where
  desks i hi := Pool.setDesk_ne p d hi
  moving := by rw [Pool.setDesk_self, hm]
  coN := rfl
  fibers _ := .inl rfl

theorem Pool.local_edit {d : Desk} {f : Fiber} (hm : d.moving = (p.desks t).moving) (hc : (p.fibers c).handler = some t)
    (hf : f.handler = some t ∨ f.handler = none) : Pool.Local p t ((p.setFiber c f).setDesk t d) where
  desks i hi := Pool.setDesk_ne _ d hi
  moving := by rw [Pool.setDesk_self, hm]
  coN := rfl
  fibers x := by
    rw [Pool.setDesk_fibers, Pool.fibers_setFiber]
    split
    · rename_i hx
      exact .inr ⟨hx ▸ hc, hf⟩
    · exact .inl rfl

namespace Sound

theorem of_local (h : Sound p) (hl : Pool.Local p t p') (ht : DeskOk p' t) : Sound p' := by
  have hmov : ∀ i, (p'.desks i).moving = (p.desks i).moving := by
    intro i
    by_cases hi : i = t
    · rw [hi, hl.moving]
    · rw [hl.desks i hi]
  have hloose : ∀ x, (p.fibers x).handler = none → p'.fibers x = p.fibers x := by
    intro x hx
    refine (hl.fibers x).resolve_right (fun hr => ?_)
    rw [hx] at hr
    cases hr.1
  refine ⟨fun i => ?_, fun x hx => ?_, fun i x hx => ?_, fun i => ?_, fun i j x hi hj => ?_⟩
  · by_cases hi : i = t
    · exact hi ▸ ht
    · refine (h.desk i).frame ⟨⟨(p.desks i).moving, hl.desks i hi⟩, fun x hx => ⟨(p.fibers x).handed, ?_⟩⟩
      rcases hl.fibers x with he | ⟨h1, h2⟩
      · exact he
      · rw [h1] at hx
        rcases hx with hx | hx
        · exact (hi (Option.some.inj hx).symm).elim
        · rcases h2 with h2 | h2 <;> rw [h2] at hx <;> cases hx
          exact (hi rfl).elim
  · have hf := h.fresh x (hl.coN ▸ hx)
    rwa [hloose x hf.1.handler]
  · rw [hmov] at hx
    obtain ⟨h1, h2⟩ := h.moving i x hx
    rw [hloose x h1.handler, hl.coN]
    exact ⟨h1, h2⟩
  · rw [hmov]
    exact h.nodup i
  · rw [hmov] at hi hj
    exact h.apart i j x hi hj

/-- A coroutine of a thread has a number. -/
theorem lt_coN (h : Sound p) (hc : (p.fibers c).handler = some t) : c < p.coN := by
  by_contra hge
  have := (h.fresh c (Nat.le_of_not_lt hge)).1.handler
  rw [hc] at this
  cases this

/-- A `Migration` is sent. -/
theorem post (h : Sound p) {l : Nat} (hc : (p.fibers c).Loose) (hn : c < p.coN)
    (hnot : ∀ i, c ∉ (p.desks i).moving) : Sound (p.post l c) := by
  have hmov : ∀ i x, x ∈ ((p.post l c).desks i).moving ↔ x ∈ (p.desks i).moving ∨ i = l ∧ x = c := by
    intro i x
    rw [Pool.desks_post, List.mem_append]
    split
    · simp [*]
    · simp [*]
  refine ⟨fun i => ?_, h.fresh, fun i x hx => ?_, fun i => ?_, fun i j x hi hj => ?_⟩
  · exact (h.desk i).frame ⟨⟨_, Pool.desks_post p c l i⟩, fun x _ => ⟨_, rfl⟩⟩
  · rcases (hmov i x).1 hx with hx | ⟨-, rfl⟩
    · exact h.moving i x hx
    · exact ⟨hc, hn⟩
  · rw [Pool.desks_post]
    split
    · refine List.nodup_append.2 ⟨h.nodup i, by simp, fun x hx y hy => ?_⟩
      rw [List.mem_singleton] at hy
      rw [hy]
      exact fun hxc => hnot i (hxc ▸ hx)
    · rw [List.append_nil]
      exact h.nodup i
  · rcases (hmov i x).1 hi with hi' | ⟨hil, hxc⟩
    · rcases (hmov j x).1 hj with hj' | ⟨-, hxc⟩
      · exact h.apart i j x hi' hj'
      · exact (hnot i (hxc ▸ hi')).elim
    · rcases (hmov j x).1 hj with hj' | ⟨hjl, -⟩
      · exact (hnot j (hxc ▸ hj')).elim
      · rw [hil, hjl]

theorem moves (h : Sound p) {d : Desk} (hm : (p.desks t).Moves d) : Sound (p.setDesk t d) := by
  have ht := h.desk t
  cases hm with
  | goes st hg => exact h.of_local (Pool.local_setDesk rfl) (ht.goes hg)
  | readies c b rest hst hready => exact h.of_local (Pool.local_setDesk rfl) (ht.readies hst hready)
  | gives c hst => exact h.of_local (Pool.local_setDesk rfl) (ht.gives hst)
  | takes c i k st hst hi hto => exact h.of_local (Pool.local_setDesk rfl) (ht.takes hst hi hto)
  | shutdown hst => exact h.of_local (Pool.local_setDesk rfl) (ht.shutdown hst)

theorem attach (h : Sound p) {id : Nat} {slab : Slab startingId Nat} {rest : List Nat}
    (hst : (p.desks t).stage = .poll) (hm : (p.desks t).moving = c :: rest)
    (hins : (grown (p.desks t).coroutines).insertAt id c = some slab) :
    Sound ((p.setFiber c { p.fibers c with id := id, handler := some t }).setDesk t
      { p.desks t with moving := rest, coroutines := slab, stage := .settling c .attached }) := by
  obtain ⟨hc, hn⟩ := h.moving t c (by rw [hm]; exact List.mem_cons_self)
  have hnd := h.nodup t
  rw [hm, List.nodup_cons] at hnd
  have hmov : ∀ i x, x ∈ (((p.setFiber c { p.fibers c with id := id, handler := some t }).setDesk t
      { p.desks t with moving := rest, coroutines := slab, stage := .settling c .attached }).desks i).moving →
      x ∈ (p.desks i).moving ∧ x ≠ c := by
    intro i x hx
    by_cases hi : i = t
    · subst hi
      rw [Pool.setDesk_self] at hx
      rw [hm]
      exact ⟨List.mem_cons_of_mem _ hx, fun hxc => hnd.1 (hxc ▸ hx)⟩
    · rw [Pool.setDesk_ne _ _ hi] at hx
      refine ⟨hx, fun hxc => hi ?_⟩
      exact h.apart i t c (hxc ▸ hx) (by rw [hm]; exact List.mem_cons_self)
  refine ⟨fun i => ?_, fun x hx => ?_, fun i x hx => ?_, fun i => ?_, fun i j x hi hj => ?_⟩
  · by_cases hi : i = t
    · subst hi
      exact (h.desk i).attach hst hc hins
    · refine (h.desk i).frame ⟨⟨(p.desks i).moving, Pool.setDesk_ne _ _ hi⟩, fun x hx => ?_⟩
      rw [Pool.setDesk_fibers, Pool.fibers_setFiber] at hx ⊢
      split
      · rename_i hxc
        subst hxc
        rw [if_pos rfl, hc.handler] at hx
        rcases hx with hx | hx <;> cases hx
        exact (hi rfl).elim
      · exact ⟨_, rfl⟩
  · rw [Pool.setDesk_fibers, Pool.setFiber_ne]
    · exact h.fresh x hx
    · rintro rfl
      exact Nat.lt_irrefl _ (Nat.lt_of_lt_of_le hn hx)
  · obtain ⟨hx', hxc⟩ := hmov i x hx
    rw [Pool.setDesk_fibers, Pool.setFiber_ne _ _ hxc]
    exact h.moving i x hx'
  · by_cases hi : i = t
    · subst hi
      rw [Pool.setDesk_self]
      exact hnd.2
    · rw [Pool.setDesk_ne _ _ hi]
      exact h.nodup i
  · exact h.apart i j x (hmov i x hi).1 (hmov j x hj).1

theorem spawn (h : Sound p) {ret : Ret} {id : Nat} {slab : Slab startingId Nat}
    (hst : (p.desks t).stage = .running c ret) (hins : (grown (p.desks t).coroutines).insertAt id p.coN = some slab) :
    Sound (p.spawnChild t c id slab) := by
  have hfresh := (h.fresh p.coN (Nat.le_refl _)).1
  have hown := (h.desk t).running_own hst
  have hlt := h.lt_coN hown
  have ht := (h.desk t).spawn hst hfresh hins
  have hdesk : ∀ i, i ≠ t → (p.spawnChild t c id slab).desks i = p.desks i := fun i hi => by
    rw [Pool.spawnChild, Pool.setDesk_ne _ _ hi]
    rfl
  have hmov : ∀ i, ((p.spawnChild t c id slab).desks i).moving = (p.desks i).moving := by
    intro i
    by_cases hi : i = t
    · rw [hi, Pool.spawnChild_desk]
    · rw [hdesk i hi]
  have hcoN : (p.spawnChild t c id slab).coN = p.coN + 1 := by rw [Pool.spawnChild]; rfl
  refine ⟨fun i => ?_, fun x hx => ?_, fun i x hx => ?_, fun i => ?_, fun i j x hi hj => ?_⟩
  · by_cases hi : i = t
    · exact hi ▸ ht
    · refine (h.desk i).frame ⟨⟨(p.desks i).moving, hdesk i hi⟩, fun x hx => ⟨(p.fibers x).handed, ?_⟩⟩
      refine Pool.spawnChild_other ?_ ?_ <;> rintro rfl
      · rw [hfresh.handler, Pool.spawnChild_child] at hx
        rcases hx with hx | hx <;> cases hx
        exact hi rfl
      · rw [(Pool.spawnChild_old (Nat.ne_of_lt hlt)).1, hown] at hx
        rcases hx with hx | hx <;> cases hx <;> exact hi rfl
  · rw [hcoN] at hx
    rw [Pool.spawnChild_other (by omega) (by omega)]
    exact h.fresh x (by omega)
  · rw [hmov] at hx
    obtain ⟨h1, h2⟩ := h.moving i x hx
    rw [Pool.spawnChild_other (Nat.ne_of_lt h2), hcoN]
    · exact ⟨h1, by omega⟩
    · rintro rfl
      rw [h1.handler] at hown
      cases hown
  · rw [hmov]
    exact h.nodup i
  · rw [hmov] at hi hj
    exact h.apart i j x hi hj

/-- **Every step keeps it.** -/
theorem step (h : Sound p) (hst : p.Step may t p') : Sound p' := by
  have ht := h.desk t
  cases hst with
  | moves d hm => exact h.moves hm
  | seizes c d hz => exact h.of_local (Pool.local_edit hz.same.2.2 (ht.seized_own hz) (.inl (ht.seized_own hz))) (ht.seizes hz)
  | delivers c rest hst hsp =>
    have hown := ht.handled.own c (by
      rw [Pool.waiting, Desk.queued, hsp, List.count_cons_self]
      omega)
    have hframe : DeskOk (p.setFiber c { p.fibers c with handed := (p.fibers c).handed + 1 }) t := by
      refine ht.frame ⟨⟨(p.desks t).moving, rfl⟩, fun x _ => ?_⟩
      rw [Pool.fibers_setFiber]
      split
      · rename_i hx
        exact ⟨_, by rw [hx]⟩
      · exact ⟨_, rfl⟩
    exact h.of_local (Pool.local_edit rfl hown (.inl hown)) (hframe.delivers hst hsp)
  | enters c ret hst hl hh => exact h.of_local (Pool.local_setDesk rfl) (ht.enters hst hl)
  | passes c ret hst hf => exact h.of_local (Pool.local_setDesk rfl) (ht.passes hst hf)
  | strays c ret hst hl hh => exact (hh (ht.handled.hand (by rw [hst]; rfl))).elim
  | sends c l l' k slab hst hh hrem =>
    have hself : (p.detach c).fibers c = { p.fibers c with handler := none } := Pool.setFiber_self _ _ _
    have hd := ht.detaches hst (.inl rfl) hrem
    have hl : Pool.Local p t ((p.detach c).setDesk t { p.desks t with coroutines := slab, stage := .call k }) :=
      Pool.local_edit rfl hh (.inr rfl)
    refine Sound.post (h.of_local hl hd) ?_ (h.lt_coN hh) (fun i hi => ?_)
    · rw [Pool.setDesk_fibers, hself]
      exact ht.migrant hst hh
    · have hi' : c ∈ (p.desks i).moving := by
        by_cases hit : i = t
        · subst hit
          rwa [Pool.setDesk_self] at hi
        · rwa [Pool.setDesk_ne _ _ hit] at hi
      have := (h.moving i c hi').1.handler
      rw [hh] at this
      cases this
  | loses c l k slab hst hh hrem =>
    exact h.of_local (Pool.local_edit rfl hh (.inr rfl)) (ht.detaches hst (.inr rfl) hrem)
  | misplaced c l k hst hh hrem =>
    have hfits := ht.fits
    rw [hst] at hfits
    have := ht.stored.placed c hh (by rw [hfits.1]; simp)
    rw [Slab.remove_none hrem] at this
    cases this
  | elsewhere c l k hst hh => exact (hh (ht.handled.hand (by rw [hst]; rfl))).elim
  | attach c id slab rest hst hm hins => exact h.attach hst hm hins
  | wakes c next hst hl =>
    have hown := ht.handled.hand (c := c) (by rw [hst]; rfl)
    exact h.of_local (Pool.local_edit rfl hown (.inl hown)) (ht.wakes hst hl)
  | event c id hst hg hb =>
    have hown := (ht.stored.stored id c hg).1
    exact h.of_local (Pool.local_edit rfl hown (.inl hown)) (ht.event hst hg hb)
  | requeues c k hst hy =>
    have hown := ht.handled.hand (c := c) (by rw [hst]; rfl)
    exact h.of_local (Pool.local_edit rfl hown (.inl hown)) (ht.resumed hst (.inl ⟨rfl, rfl, hy⟩))
  | parks c k hst hb =>
    have hown := ht.handled.hand (c := c) (by rw [hst]; rfl)
    have hres := ht.resumed hst (.inr ⟨rfl, rfl, hb⟩)
    rw [List.append_nil] at hres
    exact h.of_local (Pool.local_edit rfl hown (.inl hown)) hres
  | switches c ret state hst hret hstate =>
    have hown := ht.running_own hst
    exact h.of_local (Pool.local_edit rfl hown (.inl hown)) (ht.switches hst hret hstate)
  | spawn c id ret slab hst _ hins => exact h.spawn hst hins
  | finish c ret slab hst hrem =>
    have hown := ht.running_own hst
    exact h.of_local (Pool.local_edit rfl hown (.inl hown)) (ht.finish hst hrem)
  | misses c ret hst hrem =>
    have hfits := ht.fits
    rw [hst] at hfits
    have := ht.stored.placed c (ht.running_own hst) hfits.2
    rw [Slab.remove_none hrem] at this
    cases this

end Sound

/-! ## Coroutines without a thread -/

/-- Whatever is attached to no thread is ready, and it has no children. -/
def Pool.Settled (p : Pool) : Prop := ∀ q, (p.fibers q).handler = none → (p.fibers q).Loose

theorem Sound.settled (hs : Sound p) (hb : p.Settled) (hst : p.Step may t p') : p'.Settled := by
  intro q hq
  have hd := hs.desk t
  have hedit : ∀ (c : Nat) (f : Fiber), (f.handler = none → f.Loose) →
      ((p.setFiber c f).fibers q).handler = none → ((p.setFiber c f).fibers q).Loose := by
    intro c f hf hq
    rw [Pool.fibers_setFiber] at hq ⊢
    split at hq
    · rename_i hqc
      rw [if_pos hqc]
      exact hf hq
    · rename_i hqc
      rw [if_neg hqc]
      exact hb q hq
  have hown : ∀ {c : Nat} {f : Fiber}, (p.fibers c).handler = some t → f.handler = (p.fibers c).handler →
      f.handler = none → f.Loose := by
    intro c f hc hf hnone
    rw [hf, hc] at hnone
    cases hnone
  cases hst with
  | moves d | enters | passes | strays | elsewhere => exact hb q hq
  | seizes c d hz => exact hedit c _ (hown (hd.seized_own hz) rfl) hq
  | delivers c rest hst hsp =>
    refine hedit c _ (fun hc => ?_) hq
    obtain ⟨h1, h2, h3, h4⟩ := hb c hc
    exact ⟨h1, h2, h3, h4⟩
  | sends c l l' k slab hst hh | loses c l k slab hst hh | misplaced c l k hst hh =>
    exact hedit c _ (fun _ => hd.migrant hst hh) hq
  | attach c id slab rest hst hm => exact hedit c _ (fun hnone => by cases hnone) hq
  | event c id hst hg => exact hedit c _ (hown (hd.stored.stored id c hg).1 rfl) hq
  | wakes c _ hst | requeues c _ hst | parks c _ hst | switches c _ _ hst | finish c _ _ hst | misses c _ hst =>
    exact hedit c _ (hown (hd.handled.hand (by rw [hst]; rfl)) rfl) hq
  | spawn c id ret slab hst =>
    have hc := hd.running_own hst
    rw [Pool.setDesk_fibers, Pool.fibers_setFiber] at hq ⊢
    split at hq
    · cases hq
    · rename_i hqn
      rw [if_neg hqn]
      exact hedit c _ (hown hc rfl) hq

end Mioco.Pooling
