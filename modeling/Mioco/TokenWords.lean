import Mathlib.Data.BitVec
import Mioco.Instance
/-!
# Tokens are words (src/mod.rs, src/evented.rs, src/coroutine.rs)

`tokenFromIds` and `tokenToIds` as the source has them, on a `usize` of `w` bits: the shift drops what it pushes out,
and the field of the position is guarded in debug builds only.  Positions are handed out by `block_on` and `select_add`
as the length of the `blocked_on` list, without a bound.
-/
namespace Mioco
namespace Usize

variable {w : Nat} {σ : Type}

def eventSourceTokenMask (w : Nat) : BitVec w := (1#w <<< eventSourceTokenShift) - 1#w

/-- `none` where the assertion of a debug build fails. -/
def tokenFromIds (debugAssertions : Bool) (coId ioId : BitVec w) : Option (BitVec w) :=
  if debugAssertions && !decide (ioId ≤ eventSourceTokenMask w) then none
  else some ((coId <<< eventSourceTokenShift) ||| ioId)

def tokenToIds (token : BitVec w) : BitVec w × BitVec w :=
  (token >>> eventSourceTokenShift, token &&& eventSourceTokenMask w)

/-- The token of `SPECIAL_ID` and `SPECIAL_ID_SCHED_TIMEOUT`. -/
def schedTimeoutToken (w : Nat) : BitVec w := (0#w <<< eventSourceTokenShift) ||| 0#w

/-- `block_on`, and `select_add_prv`: the source gets the length of the list as its id. -/
def blockOn (blockedOn : List (σ × Nat)) (src : σ) : List (σ × Nat) := blockedOn ++ [(src, blockedOn.length)]

/-- The `blocked_on` list that these sources make. -/
def accumulate (srcs : List σ) : List (σ × Nat) := srcs.foldl blockOn []

/-- The coroutines in the slab of a thread, by their ids, each with the sources it blocks on. -/
abbrev Blocked (σ : Type) := Nat → Option (List σ)

/-- Coroutine `c` has registered a source at position `i`. -/
def Registered (live : Blocked σ) (c i : Nat) : Prop :=
  ∃ srcs, live c = some srcs ∧ ∃ src, (src, i) ∈ accumulate srcs

/-- `Handler::timeout`, and `Handler::ready` up to the coroutine: who gets the event, and for which position. -/
def addressee (live : Blocked σ) (token : BitVec w) : Option (Nat × Nat) :=
  if token = schedTimeoutToken w then none
  else match live (tokenToIds token).1.toNat with
    | some _ => some ((tokenToIds token).1.toNat, (tokenToIds token).2.toNat)
    | none => none

/-- **Tokens identify their source.** -/
structure Identify (debugAssertions : Bool) (w : Nat) (live : Blocked σ) : Prop where
  roundTrip : ∀ c i, Registered live c i → ∃ token : BitVec w,
    tokenFromIds debugAssertions (.ofNat w c) (.ofNat w i) = some token ∧ tokenToIds token = (.ofNat w c, .ofNat w i)
  distinct : ∀ c i c' i' (token : BitVec w), Registered live c i → Registered live c' i' →
    tokenFromIds debugAssertions (.ofNat w c) (.ofNat w i) = some token →
    tokenFromIds debugAssertions (.ofNat w c') (.ofNat w i') = some token → c = c' ∧ i = i'
  special : ∀ c i, Registered live c i →
    tokenFromIds debugAssertions (.ofNat w c) (.ofNat w i) ≠ some (schedTimeoutToken w)
  reaches : ∀ c i (token : BitVec w), Registered live c i →
    tokenFromIds debugAssertions (.ofNat w c) (.ofNat w i) = some token → addressee live token = some (c, i)

/-! ## Positions -/

theorem accumulate_append (srcs : List σ) (src : σ) : accumulate (srcs ++ [src]) = blockOn (accumulate srcs) src := by
  rw [accumulate, List.foldl_append]
  rfl

theorem accumulate_positions (srcs : List σ) : (accumulate srcs).map Prod.snd = List.range srcs.length := by
  induction srcs using List.reverseRecOn with
  | nil => rfl
  | append_singleton srcs src ih =>
    have hlen : (accumulate srcs).length = srcs.length := by
      rw [← List.length_map (f := Prod.snd), ih, List.length_range]
    rw [accumulate_append, blockOn, List.map_append, ih, hlen, List.length_append, List.length_singleton,
      List.range_succ]
    rfl

theorem registered_iff {live : Blocked σ} {c i : Nat} :
    Registered live c i ↔ ∃ srcs, live c = some srcs ∧ i < srcs.length := by
  constructor
  · rintro ⟨srcs, hsrcs, src, hmem⟩
    refine ⟨srcs, hsrcs, ?_⟩
    have hi : i ∈ (accumulate srcs).map Prod.snd := List.mem_map.2 ⟨_, hmem, rfl⟩
    rw [accumulate_positions] at hi
    exact List.mem_range.1 hi
  · rintro ⟨srcs, hsrcs, hlt⟩
    have hi : i ∈ (accumulate srcs).map Prod.snd := by
      rw [accumulate_positions]
      exact List.mem_range.2 hlt
    obtain ⟨⟨src, j⟩, hmem, rfl⟩ := List.mem_map.1 hi
    exact ⟨srcs, hsrcs, src, hmem⟩

/-! ## One token -/

theorem toNat_mask (hw : 10 < w) : (eventSourceTokenMask w).toNat = 1023 := by
  have hpow : 2 ^ 11 ≤ 2 ^ w := Nat.pow_le_pow_right (by decide) hw
  have hone : 1 % 2 ^ w = 1 := Nat.mod_eq_of_lt (by omega)
  have hshift : (1#w <<< eventSourceTokenShift).toNat = 1024 := by
    rw [BitVec.toNat_shiftLeft, BitVec.toNat_ofNat, hone]
    exact Nat.mod_eq_of_lt (by rw [Nat.shiftLeft_eq]; simp only [eventSourceTokenShift]; omega)
  rw [eventSourceTokenMask, BitVec.toNat_sub, hshift, BitVec.toNat_ofNat, hone,
    show 2 ^ w - 1 + 1024 = 1023 + 2 ^ w by omega, Nat.add_mod_right]
  exact Nat.mod_eq_of_lt (by omega)

theorem mask_le (hw : 10 < w) (x : BitVec w) : (x &&& eventSourceTokenMask w).toNat ≤ 1023 := by
  rw [BitVec.toNat_and, toNat_mask hw]
  exact Nat.and_le_right

section pairs
variable {c i : Nat} {debugAssertions : Bool} {token : BitVec w}

/-- **Below the bound of the field** nothing is lost. -/
theorem toNat_token (hc : c < 2 ^ (w - 10)) (hw : 10 < w) (hi : i ≤ 1023) :
    (((BitVec.ofNat w c) <<< eventSourceTokenShift) ||| (BitVec.ofNat w i)).toNat = c * 1024 + i := by
  have hfield : i < 2 ^ 10 := Nat.lt_succ_of_le hi
  have hpow : 2 ^ (w - 10) * 2 ^ 10 = 2 ^ w := by
    rw [← Nat.pow_add]
    congr 1
    omega
  have hbound : c * 2 ^ 10 + 1023 < 2 ^ w := by omega
  have hmc : c % 2 ^ w = c := Nat.mod_eq_of_lt (by omega)
  have hmi : i % 2 ^ w = i := Nat.mod_eq_of_lt (by omega)
  have hshift : (c <<< 10) % 2 ^ w = c <<< 10 := by
    rw [Nat.shiftLeft_eq]
    exact Nat.mod_eq_of_lt (Nat.lt_of_le_of_lt (Nat.le_add_right _ 1023) hbound)
  have hor : c <<< 10 ||| i = c * 1024 + i := by
    rw [← Nat.shiftLeft_add_eq_or_of_lt hfield c, Nat.shiftLeft_eq]
  rw [BitVec.toNat_or, BitVec.toNat_shiftLeft, BitVec.toNat_ofNat, BitVec.toNat_ofNat, hmc, hmi]
  exact (congrArg (· ||| i) hshift).trans hor

theorem tokenFromIds_eq (hw : 10 < w) (hi : i ≤ 1023) (hlt : i < 2 ^ w) :
    tokenFromIds debugAssertions (.ofNat w c) (.ofNat w i) =
      some (((BitVec.ofNat w c) <<< eventSourceTokenShift) ||| (BitVec.ofNat w i)) := by
  have hle : BitVec.ofNat w i ≤ eventSourceTokenMask w := by
    rw [BitVec.le_def, toNat_mask hw, BitVec.toNat_ofNat, Nat.mod_eq_of_lt hlt]
    exact hi
  rw [tokenFromIds, decide_eq_true hle]
  cases debugAssertions <;> rfl

theorem tokenToIds_toNat (hw : 10 < w) (hi : i ≤ 1023) (h : token.toNat = c * 1024 + i) :
    (tokenToIds token).1.toNat = c ∧ (tokenToIds token).2.toNat = i := by
  constructor
  · rw [tokenToIds, BitVec.toNat_ushiftRight, h, eventSourceTokenShift, Nat.shiftRight_eq_div_pow]
    omega
  · rw [tokenToIds, BitVec.toNat_and, toNat_mask hw, h, show 1023 = 2 ^ 10 - 1 by decide,
      Nat.and_two_pow_sub_one_eq_mod]
    omega

end pairs

theorem lt_of_le_mask {i : Nat} (hw : 10 < w) (hi : i ≤ 1023) : i < 2 ^ w := by
  have hpow : 2 ^ 11 ≤ 2 ^ w := Nat.pow_le_pow_right (by decide) hw
  omega

/-- **Tokens identify their source** exactly when no coroutine blocks on more sources than the field has room for. -/
theorem identify_iff {live : Blocked σ} (debugAssertions : Bool) (hw : 10 < w)
    (hids : ∀ c srcs, live c = some srcs → startingId ≤ c ∧ c < 2 ^ (w - 10))
    (hlen : ∀ c srcs, live c = some srcs → srcs.length ≤ 2 ^ w) :
    Identify debugAssertions w live ↔ ∀ c srcs, live c = some srcs → srcs.length ≤ 1024 := by
  constructor
  · intro h c srcs hsrcs
    by_contra hgt
    -- position 1024 does not fit
    have hlt : 1024 < srcs.length := Nat.lt_of_not_le hgt
    obtain ⟨token, -, hids⟩ := h.roundTrip c 1024 (registered_iff.2 ⟨srcs, hsrcs, hlt⟩)
    have hle := mask_le hw token
    have hsnd : token &&& eventSourceTokenMask w = BitVec.ofNat w 1024 := congrArg Prod.snd hids
    have hlen := hlen c srcs hsrcs
    rw [hsnd, BitVec.toNat_ofNat, Nat.mod_eq_of_lt (by omega)] at hle
    omega
  · intro h
    have hfits : ∀ c i, Registered live c i → startingId ≤ c ∧ c < 2 ^ (w - 10) ∧ i ≤ 1023 := by
      intro c i hreg
      obtain ⟨srcs, hsrcs, hi⟩ := registered_iff.1 hreg
      have hle := h c srcs hsrcs
      exact ⟨(hids c srcs hsrcs).1, (hids c srcs hsrcs).2, by omega⟩
    have htoken : ∀ c i token, Registered live c i →
        tokenFromIds debugAssertions (.ofNat w c) (.ofNat w i) = some token → token.toNat = c * 1024 + i := by
      intro c i token hreg htok
      obtain ⟨-, hc, hi⟩ := hfits c i hreg
      rw [tokenFromIds_eq hw hi (lt_of_le_mask hw hi)] at htok
      cases htok
      exact toNat_token hc hw hi
    refine ⟨fun c i hreg => ?_, fun c i c' i' token hreg hreg' htok htok' => ?_, fun c i hreg htok => ?_,
      fun c i token hreg htok => ?_⟩
    · obtain ⟨-, hc, hi⟩ := hfits c i hreg
      obtain ⟨h1, h2⟩ := tokenToIds_toNat hw hi (toNat_token hc hw hi)
      refine ⟨_, tokenFromIds_eq hw hi (lt_of_le_mask hw hi), Prod.ext ?_ ?_⟩
      · refine BitVec.eq_of_toNat_eq (h1.trans ?_)
        rw [BitVec.toNat_ofNat, Nat.mod_eq_of_lt (Nat.lt_of_lt_of_le hc (Nat.pow_le_pow_right (by decide) (by omega)))]
      · refine BitVec.eq_of_toNat_eq (h2.trans ?_)
        rw [BitVec.toNat_ofNat, Nat.mod_eq_of_lt (lt_of_le_mask hw hi)]
    · have h1 := htoken c i token hreg htok
      have h2 := htoken c' i' token hreg' htok'
      have hi := (hfits c i hreg).2.2
      have hi' := (hfits c' i' hreg').2.2
      omega
    · have h1 := htoken c i _ hreg htok
      have hc := (hfits c i hreg).1
      have h0 : (schedTimeoutToken w).toNat = 0 := by simp [schedTimeoutToken]
      rw [h0] at h1
      simp only [startingId] at hc
      omega
    · have h1 := htoken c i token hreg htok
      obtain ⟨hc, -, hi⟩ := hfits c i hreg
      obtain ⟨hco, hio⟩ := tokenToIds_toNat hw hi h1
      obtain ⟨srcs, hsrcs, -⟩ := registered_iff.1 hreg
      have hne : token ≠ schedTimeoutToken w := by
        rintro rfl
        have h0 : (schedTimeoutToken w).toNat = 0 := by simp [schedTimeoutToken]
        rw [h0] at h1
        simp only [startingId] at hc
        omega
      rw [addressee, if_neg hne, hco, hsrcs, hio]

/-- Coroutine 1 selects over two sources. -/
def twoSources : Blocked Unit := fun c => if c = 1 then some [(), ()] else none

theorem twoSources_some {c : Nat} {srcs : List Unit} (h : twoSources c = some srcs) : c = 1 ∧ srcs = [(), ()] := by
  unfold twoSources at h
  split at h <;> cases h
  exact ⟨‹c = 1›, rfl⟩

theorem identify_twoSources : Identify true 64 twoSources := by
  refine (identify_iff true (by decide) (fun c srcs h => ?_) (fun c srcs h => ?_)).2 (fun c srcs h => ?_)
  · obtain ⟨rfl, -⟩ := twoSources_some h
    exact ⟨Nat.le_refl _, by decide⟩
  · obtain ⟨-, rfl⟩ := twoSources_some h
    exact (show 2 ≤ 2 ^ 64 by decide)
  · obtain ⟨-, rfl⟩ := twoSources_some h
    exact (show 2 ≤ 1024 by decide)

/-- Coroutine 2 selects over 1025 sources. -/
def longList : Blocked Unit := fun c => if c = 2 then some (List.replicate 1025 ()) else none

/-- **The last of them is registered as the first source of coroutine 3**; a debug build panics. -/
theorem long_list_redirects : Registered longList 2 1024 ∧
    (∃ token : BitVec 64, tokenFromIds false 2#64 1024#64 = some token ∧ tokenToIds token = (3#64, 0#64)) ∧
      tokenFromIds true 2#64 1024#64 = none ∧ ∀ debugAssertions, ¬ Identify debugAssertions 64 longList := by
  have hreg : Registered longList 2 1024 := registered_iff.2 ⟨_, rfl, by rw [List.length_replicate]; decide⟩
  have hrelease : tokenFromIds false 2#64 1024#64 = some 3072#64 := by decide
  have hdebug : tokenFromIds true 2#64 1024#64 = none := by decide
  refine ⟨hreg, ⟨_, hrelease, by decide⟩, hdebug, fun debugAssertions h => ?_⟩
  obtain ⟨token, htok, hids⟩ := h.roundTrip 2 1024 hreg
  cases debugAssertions with
  | false =>
    cases hrelease.symm.trans htok
    exact absurd hids (by decide)
  | true => cases hdebug.symm.trans htok

end Usize
end Mioco
