import Mathlib.Logic.Basic
/-!
# Systems of partial steps

A system is a set of initial states and a partial step function: `step s a` is `none` where the action `a` is not
enabled at `s`.  A run is restricted by a condition on its steps (`ok`), read at the state before the step; the
unrestricted runs are those of `anyStep`.  Nothing here names a program.
-/
namespace Lib

/-- States and labelled partial steps. -/
structure System (σ α : Type) where
  Init : σ → Prop
  step : σ → α → Option σ

namespace System

variable {σ α : Type} {M : System σ α} {ok ok' : σ → α → Prop}

/-- Every step is allowed. -/
def anyStep : σ → α → Prop := fun _ _ => True

/-- **The states reached by runs whose steps all satisfy `ok`.** -/
inductive Reach (M : System σ α) (ok : σ → α → Prop) : σ → Prop
  | init {s : σ} : M.Init s → Reach M ok s
  | next {s s' : σ} {a : α} : Reach M ok s → ok s a → M.step s a = some s' → Reach M ok s'

theorem Reach.mono (h : ∀ s a, ok s a → ok' s a) {s : σ} (hs : Reach M ok s) : Reach M ok' s := by
  induction hs with
  | init h0 => exact .init h0
  | next _ ha hst ih => exact .next ih (h _ _ ha) hst

/-- **The invariant rule**: what holds initially and is preserved by every allowed step holds of every state reached. -/
theorem Reach.invariant (I : σ → Prop) (h0 : ∀ s, M.Init s → I s)
    (hst : ∀ s a s', I s → ok s a → M.step s a = some s' → I s') {s : σ} (hs : Reach M ok s) : I s := by
  induction hs with
  | init hi => exact h0 _ hi
  | next _ ha hs ih => exact hst _ _ _ ih ha hs

/-- The invariant rule over an invariant already proved. -/
theorem Reach.invariant_of (J I : σ → Prop) (hJ : ∀ s, Reach M ok s → J s) (h0 : ∀ s, M.Init s → I s)
    (hst : ∀ s a s', J s → I s → ok s a → M.step s a = some s' → J s' → I s') {s : σ} (hs : Reach M ok s) : I s := by
  induction hs with
  | init hi => exact h0 _ hi
  | next hr ha hs ih => exact hst _ _ _ (hJ _ hr) ih ha hs (hJ _ (.next hr ha hs))

/-- **The projection rule**: every step is one of the other system, seen through `f`, or changes nothing there. -/
theorem Reach.map {τ β : Type} {N : System τ β} {okN : τ → β → Prop} (f : σ → τ) (h0 : ∀ s, M.Init s → N.Init (f s))
    (hst : ∀ s a s', Reach M ok s → ok s a → M.step s a = some s' →
      f s' = f s ∨ ∃ b, okN (f s) b ∧ N.step (f s) b = some (f s')) {s : σ} (hs : Reach M ok s) :
    Reach N okN (f s) := by
  induction hs with
  | init hi => exact .init (h0 _ hi)
  | next hr ha hs ih =>
    rcases hst _ _ _ hr ha hs with he | ⟨b, hb, hstep⟩
    · rw [he]
      exact ih
    · exact .next ih hb hstep

/-- **The lifting rule**: what adds to the states of another system without a say in its steps has all its runs. -/
theorem Reach.lift {τ β : Type} {N : System τ β} (f : σ → τ) (h0 : ∀ t, N.Init t → ∃ s, M.Init s ∧ f s = t)
    (hst : ∀ s b t', N.step (f s) b = some t' → ∃ a s', M.step s a = some s' ∧ f s' = t') {t : τ}
    (ht : Reach N anyStep t) : ∃ s, Reach M anyStep s ∧ f s = t := by
  induction ht with
  | init hi =>
    obtain ⟨s, hs, rfl⟩ := h0 _ hi
    exact ⟨s, .init hs, rfl⟩
  | next _ _ hstep ih =>
    obtain ⟨s, hs, rfl⟩ := ih
    obtain ⟨a, s', hs', rfl⟩ := hst _ _ _ hstep
    exact ⟨s', .next hs trivial hs', rfl⟩

/-- The system as it goes on from state `s`. -/
def startingAt (M : System σ α) (s : σ) : System σ α := { M with Init := fun s' => s' = s }

/-- **Induction on what happens after `s`.** -/
theorem Reach.invariant_after (I : σ → Prop) {s s' : σ} (h : Reach (M.startingAt s) ok s') (h0 : I s)
    (hst : ∀ m a m', I m → ok m a → M.step m a = some m' → I m') : I s' := by
  refine Reach.invariant (M := M.startingAt s) I (fun m hm => ?_) hst h
  cases (show m = s from hm)
  exact h0

/-- A run and what happens after it. -/
theorem Reach.after {s s' : σ} (hs : Reach M ok s) (h : Reach (M.startingAt s) ok s') : Reach M ok s' :=
  h.invariant_after (Reach M ok) hs (fun _ _ _ hm ha hst => .next hm ha hst)

/-! ## Executing a list of actions -/

/-- The state a list of actions leads to, where every one of them is enabled. -/
def exec (M : System σ α) : List α → σ → Option σ
  | [], s => some s
  | a :: as, s => match M.step s a with | none => none | some s' => exec M as s'

/-- Every action of the list satisfies the step condition, at the state it is taken in. -/
def okAlong (M : System σ α) (ok : σ → α → Prop) [∀ s a, Decidable (ok s a)] : List α → σ → Bool
  | [], _ => true
  | a :: as, s => decide (ok s a) && match M.step s a with | none => true | some s' => okAlong M ok as s'

/-- **An executed list of allowed actions is a run.** -/
theorem reach_exec [∀ s a, Decidable (ok s a)] : ∀ (as : List α) (s s' : σ), Reach M ok s →
    okAlong M ok as s = true → exec M as s = some s' → Reach M ok s'
  | [], s, s', hs, _, h => by
    cases h
    exact hs
  | a :: as, s, s', hs, hok, h => by
    rw [okAlong, Bool.and_eq_true] at hok
    obtain ⟨ha, hrest⟩ := hok
    simp only [exec] at h
    cases hst : M.step s a with
    | none => rw [hst] at h; cases h
    | some s₁ =>
      rw [hst] at h hrest
      exact reach_exec as s₁ s' (.next hs (of_decide_eq_true ha) hst) hrest h

/-- An executed list of actions, each allowed in every state, is a run. -/
theorem reach_exec_of_forall : ∀ (as : List α) (s s' : σ), Reach M ok s → (∀ a ∈ as, ∀ s, ok s a) →
    exec M as s = some s' → Reach M ok s'
  | [], s, s', hs, _, h => by
    cases h
    exact hs
  | a :: as, s, s', hs, hok, h => by
    simp only [exec] at h
    cases hst : M.step s a with
    | none => rw [hst] at h; cases h
    | some s₁ =>
      rw [hst] at h
      exact reach_exec_of_forall as s₁ s' (.next hs (hok a (by simp) s) hst)
        (fun b hb => hok b (List.mem_cons_of_mem _ hb)) h

end System
end Lib
