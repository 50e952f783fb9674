import Mathlib.Data.BitVec
import Mathlib.Algebra.BigOperators.Group.Finset.Basic
import Mathlib.Tactic.LinearCombination
import Mathlib.Tactic.Ring
/-!
# Tallies

Counting over a list with one place changed, over a finite family with one member changed, and a counter of fixed
width kept in step with a count.  Nothing here names a program.
-/
namespace Lib

/-! ## One place of a list -/

/-- **Replacing `x` by `y` in a list** moves a count by what the two contribute. -/
theorem countP_set_add {β : Type} (p : β → Bool) {l : List β} {i : Nat} {x : β} (y : β) (h : l[i]? = some x) :
    (l.set i y).countP p + (p x).toNat = l.countP p + (p y).toNat := by
  obtain ⟨hi, rfl⟩ := List.getElem?_eq_some_iff.1 h
  have hle : p l[i] = true → 0 < l.countP p := fun hp =>
    List.countP_pos_iff.2 ⟨l[i], List.getElem_mem hi, hp⟩
  rw [List.countP_set hi]
  cases hx : p l[i] <;> cases hy : p y <;> simp only [hx, true_implies] at hle <;> simp <;> omega

theorem exists_of_countP_pos {β : Type} {p : β → Bool} {l : List β} (h : 0 < l.countP p) :
    ∃ (i : Nat) (x : β), l[i]? = some x ∧ p x = true := by
  obtain ⟨x, hx, hp⟩ := List.countP_pos_iff.1 h
  obtain ⟨i, hi⟩ := List.mem_iff_getElem?.1 hx
  exact ⟨i, x, hi, hp⟩

theorem countP_pos_of_getElem? {β : Type} {p : β → Bool} {l : List β} {i : Nat} {x : β} (h : l[i]? = some x)
    (hp : p x = true) : 0 < l.countP p :=
  List.countP_pos_iff.2 ⟨x, List.mem_of_getElem? h, hp⟩

/-! ## A counter of fixed width -/

/-- `c`, the `late` additions still to come, and the `total` they lead to, modulo `2 ^ w`. -/
def Balanced {w : Nat} (c : BitVec w) (late total : Nat) : Prop :=
  c + BitVec.ofNat w late = BitVec.ofNat w total

namespace Balanced
variable {w : Nat} {c : BitVec w} {late total : Nat}

theorem start : Balanced (0 : BitVec w) 0 0 := by simp [Balanced]

theorem owe (h : Balanced c late total) : Balanced c (late + 1) (total + 1) := by
  unfold Balanced at *
  rw [BitVec.ofNat_add, BitVec.ofNat_add, ← h]
  ring

theorem pay (h : Balanced c (late + 1) total) : Balanced (c + 1) late total := by
  unfold Balanced at *
  rw [BitVec.ofNat_add] at h
  rw [← h, show BitVec.ofNat w 1 = (1 : BitVec w) from rfl]
  ring

theorem add (h : Balanced c late total) : Balanced (c + 1) late (total + 1) := pay (owe h)

theorem sub (h : Balanced c late (total + 1)) : Balanced (c - 1) late total := by
  unfold Balanced at *
  rw [BitVec.ofNat_add, show BitVec.ofNat w 1 = (1 : BitVec w) from rfl] at h
  linear_combination h

theorem eq_ofNat (h : Balanced c 0 total) : c = BitVec.ofNat w total := by
  simpa [Balanced] using h

/-- **A zero counter with nothing owed counts nothing**, below the width. -/
theorem total_eq_zero (h : Balanced (0 : BitVec w) 0 total) (hlt : total < 2 ^ w) : total = 0 := by
  have h0 : BitVec.ofNat w total = 0 := by simpa [Balanced] using h.symm
  have : (BitVec.ofNat w total).toNat = 0 := by rw [h0]; simp
  rwa [BitVec.toNat_ofNat, Nat.mod_eq_of_lt hlt] at this

end Balanced

/-! ## One member of a finite family -/

/-- **Changing one member of a family** moves its sum by the change of that member. -/
theorem sum_change {n : Nat} {f g : Nat → Nat} {t : Nat} (ht : t < n) (h : ∀ i, i ≠ t → g i = f i) :
    ∑ i ∈ Finset.range n, g i + f t = ∑ i ∈ Finset.range n, f i + g t := by
  have hmem : t ∈ Finset.range n := Finset.mem_range.2 ht
  have hrest : ∑ i ∈ (Finset.range n).erase t, g i = ∑ i ∈ (Finset.range n).erase t, f i :=
    Finset.sum_congr rfl (fun i hi => h i (Finset.ne_of_mem_erase hi))
  have hf := Finset.add_sum_erase _ f hmem
  have hg := Finset.add_sum_erase _ g hmem
  omega

theorem le_sum {n : Nat} (f : Nat → Nat) {t : Nat} (ht : t < n) : f t ≤ ∑ i ∈ Finset.range n, f i := by
  have := Finset.add_sum_erase _ f (Finset.mem_range.2 ht)
  omega

end Lib
