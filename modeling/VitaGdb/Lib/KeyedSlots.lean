/-
  Slots that are claimed by storing a key: ownership, key and free marker in one cell.

  A slot is free while its cell holds the marker `free`; a client claims a free slot by exchanging
  the marker for its key and gives it back by storing the marker.  Nothing else is remembered: who
  owns a slot is known to the client only, and a slot is looked up by its key.

  `Step` is the protocol over any slots `I`, keys `K` and clients `C`.  A claim is `Fresh` when
  its key is not the marker and no slot holds it yet; neither is checked by an exchange.
  `Exclusive` is what the protocol is for, and fresh claims keep it (`Exclusive.step`):
    * `Exclusive.slot_inj`    — a slot has one owner at most,
    * `Exclusive.key_inj`     — a key has one owner at most,
    * `Exclusive.only_holder` — the slot an owner claimed is the only one that holds its key.
-/
import Mathlib.Logic.Function.Basic

namespace KeyedSlots

variable {I K C : Type}

/-- The cells, and what each client owns: a slot and the key it was claimed for. -/
structure State (I K C : Type) where
  keys : I → K
  owner : C → Option (I × K)

/-! ## Exclusive ownership -/

/-- The key is not the marker, and no slot holds it. -/
def Fresh (free : K) (s : State I K C) (k : K) : Prop := k ≠ free ∧ ∀ j, s.keys j ≠ k

/-- Owned slots hold their owner's key, one owner a slot, one slot a key. -/
structure Exclusive (free : K) (s : State I K C) : Prop where
  keyed : ∀ c i k, s.owner c = some (i, k) → s.keys i = k ∧ k ≠ free
  slots : ∀ c c' i k k', s.owner c = some (i, k) → s.owner c' = some (i, k') → c = c'
  distinct : ∀ i j, s.keys i = s.keys j → s.keys i ≠ free → i = j

variable {free : K} {s t : State I K C}

theorem Exclusive.slot_inj (h : Exclusive free s) {c c' : C} {i : I} {k k' : K}
    (hc : s.owner c = some (i, k)) (hc' : s.owner c' = some (i, k')) : c = c' :=
  h.slots c c' i k k' hc hc'

theorem Exclusive.only_holder (h : Exclusive free s) {c : C} {i : I} {k : K}
    (hc : s.owner c = some (i, k)) {j : I} (hj : s.keys j = k) : j = i := by
  obtain ⟨hi, hk⟩ := h.keyed c i k hc
  exact h.distinct j i (hj.trans hi.symm) (by rw [hj]; exact hk)

theorem Exclusive.key_inj (h : Exclusive free s) {c c' : C} {i i' : I} {k : K}
    (hc : s.owner c = some (i, k)) (hc' : s.owner c' = some (i', k)) : c = c' := by
  have hi : i' = i := h.only_holder hc (h.keyed c' i' k hc').1
  subst hi
  exact h.slots c c' i' k k hc hc'

/-- With every slot free and no owner. -/
theorem Exclusive.start (free : K) :
    Exclusive free (⟨fun _ => free, fun _ => none⟩ : State I K C) where
  keyed := fun _ _ _ h => absurd h (by simp)
  slots := fun _ _ _ _ _ h => absurd h (by simp)
  distinct := fun _ _ _ h => absurd rfl h

/-! ## The protocol -/

variable [DecidableEq I] [DecidableEq C]

/-- One step of the protocol. -/
inductive Step (free : K) (s : State I K C) : State I K C → Prop where
  | stay : Step free s s
  | claim (c : C) (i : I) (k : K) (hslot : s.keys i = free) (hidle : s.owner c = none) :
      Step free s
        { keys := Function.update s.keys i k, owner := Function.update s.owner c (some (i, k)) }
  | release (c : C) (i : I) (k : K) (hown : s.owner c = some (i, k)) :
      Step free s { keys := Function.update s.keys i free, owner := Function.update s.owner c none }

/-- **A fresh claim** keeps ownership exclusive. -/
theorem Exclusive.claim (h : Exclusive free s) {c : C} {i : I} {k : K} (hslot : s.keys i = free)
    (hfresh : Fresh free s k) :
    Exclusive free
      { keys := Function.update s.keys i k, owner := Function.update s.owner c (some (i, k)) } := by
  have hother : ∀ c' i' k', c' ≠ c → Function.update s.owner c (some (i, k)) c' = some (i', k') →
      s.owner c' = some (i', k') ∧ i' ≠ i := by
    intro c' i' k' hne hown
    rw [Function.update_of_ne hne] at hown
    refine ⟨hown, ?_⟩
    -- an owned slot is not free
    rintro rfl
    obtain ⟨hkey, hk'⟩ := h.keyed c' i' k' hown
    exact hk' (hkey.symm.trans hslot)
  have hself : ∀ i' k', Function.update s.owner c (some (i, k)) c = some (i', k') →
      i' = i ∧ k' = k := by
    intro i' k' hown
    rw [Function.update_self, Option.some.injEq, Prod.mk.injEq] at hown
    exact ⟨hown.1.symm, hown.2.symm⟩
  refine ⟨?_, ?_, ?_⟩
  · intro c' i' k' hown
    by_cases hc : c' = c
    · subst hc
      obtain ⟨rfl, rfl⟩ := hself i' k' hown
      exact ⟨Function.update_self i' k' s.keys, hfresh.1⟩
    · obtain ⟨hown', hne⟩ := hother c' i' k' hc hown
      obtain ⟨hkey, hk'⟩ := h.keyed c' i' k' hown'
      exact ⟨(Function.update_of_ne hne k s.keys).trans hkey, hk'⟩
  · intro c₁ c₂ j k₁ k₂ h₁ h₂
    by_cases hc₁ : c₁ = c
    · by_cases hc₂ : c₂ = c
      · rw [hc₁, hc₂]
      · subst hc₁
        exact absurd (hself j k₁ h₁).1 (hother c₂ j k₂ hc₂ h₂).2
    · by_cases hc₂ : c₂ = c
      · subst hc₂
        exact absurd (hself j k₂ h₂).1 (hother c₁ j k₁ hc₁ h₁).2
      · exact h.slots c₁ c₂ j k₁ k₂ (hother c₁ j k₁ hc₁ h₁).1 (hother c₂ j k₂ hc₂ h₂).1
  · intro j j' hsame hne
    by_cases hj : j = i
    · by_cases hj' : j' = i
      · rw [hj, hj']
      · subst hj
        simp only [Function.update_self, Function.update_of_ne hj'] at hsame
        exact absurd hsame.symm (hfresh.2 j')
    · by_cases hj' : j' = i
      · subst hj'
        simp only [Function.update_self, Function.update_of_ne hj] at hsame
        exact absurd hsame (hfresh.2 j)
      · simp only [Function.update_of_ne hj, Function.update_of_ne hj'] at hsame hne
        exact h.distinct j j' hsame hne

/-- **A release** keeps it, whatever is claimed. -/
theorem Exclusive.release (h : Exclusive free s) {c : C} {i : I} {k : K}
    (hown : s.owner c = some (i, k)) :
    Exclusive free
      { keys := Function.update s.keys i free, owner := Function.update s.owner c none } := by
  have hother : ∀ c' i' k', Function.update s.owner c none c' = some (i', k') →
      s.owner c' = some (i', k') ∧ i' ≠ i := by
    intro c' i' k' hown'
    by_cases hc : c' = c
    · rw [hc, Function.update_self] at hown'
      exact absurd hown' (by simp)
    · rw [Function.update_of_ne hc] at hown'
      refine ⟨hown', ?_⟩
      rintro rfl
      exact hc (h.slots c' c i' k' k hown' hown)
  refine ⟨?_, ?_, ?_⟩
  · intro c' i' k' hown'
    obtain ⟨hold, hne⟩ := hother c' i' k' hown'
    obtain ⟨hkey, hk'⟩ := h.keyed c' i' k' hold
    exact ⟨(Function.update_of_ne hne free s.keys).trans hkey, hk'⟩
  · intro c₁ c₂ j k₁ k₂ h₁ h₂
    exact h.slots c₁ c₂ j k₁ k₂ (hother c₁ j k₁ h₁).1 (hother c₂ j k₂ h₂).1
  · intro j j' hsame hne
    have hj : j ≠ i := by
      rintro rfl
      exact hne (Function.update_self j free s.keys)
    have hj' : j' ≠ i := by
      rintro rfl
      rw [hsame] at hne
      exact hne (Function.update_self j' free s.keys)
    simp only [Function.update_of_ne hj, Function.update_of_ne hj'] at hsame hne
    exact h.distinct j j' hsame hne

/-- **One step**, if a claim is fresh. -/
theorem Exclusive.step (h : Exclusive free s) (hstep : Step free s t)
    (hfresh : ∀ c i k, s.owner c = none → t.owner c = some (i, k) → Fresh free s k) :
    Exclusive free t := by
  cases hstep with
  | stay => exact h
  | claim c i k hslot hidle =>
    exact h.claim hslot (hfresh c i k hidle (Function.update_self c _ s.owner))
  | release c i k hown => exact h.release hown

end KeyedSlots
