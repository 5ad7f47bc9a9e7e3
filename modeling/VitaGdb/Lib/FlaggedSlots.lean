/-
  Slots that are claimed by setting a flag: the flag says that a slot is taken, and not by whom.

  A client owns at most one slot, and gives it back by clearing the flag.  As a flag does not name
  its owner, a claim that ends without one can not be undone by anybody: the slot is `Leaked`, and
  stays so (`Leaked.step`, `Leaked.leaks`).  Without a leak the flags are `Exact` (`Exact.step`):
  the claimed slots are the owned ones, one owner each, so a client finds a free slot as long as
  there are fewer owners than slots (`Exact.free`).
-/
import Mathlib.Logic.Function.Basic
import Mathlib.Data.Set.Card

namespace FlaggedSlots

variable {I C : Type}

/-- The flags, and the slot each client owns. -/
structure State (I C : Type) where
  claimed : I → Bool
  owner : C → Option I

/-- The claimed slots are the owned ones, and each has one owner. -/
structure Exact (s : State I C) : Prop where
  owned : ∀ i, s.claimed i = true ↔ ∃ c, s.owner c = some i
  single : ∀ c c' i, s.owner c = some i → s.owner c' = some i → c = c'

/-- A claimed slot that nobody owns. -/
def Leaked (s : State I C) (i : I) : Prop := s.claimed i = true ∧ ∀ c, s.owner c ≠ some i

variable {s t : State I C}

theorem Exact.start : Exact (⟨fun _ => false, fun _ => none⟩ : State I C) where
  owned := fun _ => ⟨fun h => absurd h (by simp), fun ⟨_, h⟩ => absurd h (by simp)⟩
  single := fun _ _ _ h => absurd h (by simp)

theorem Exact.not_leaked (h : Exact s) (i : I) : ¬ Leaked s i := by
  rintro ⟨hclaimed, hnobody⟩
  obtain ⟨c, hown⟩ := (h.owned i).mp hclaimed
  exact hnobody c hown

/-- **Fewer owners than slots** leave a slot free. -/
theorem Exact.free (h : Exact s) (hfew : {c | (s.owner c).isSome}.encard < ENat.card I) :
    ∃ i, s.claimed i = false := by
  by_contra hall
  have hclaimed : ∀ i, ∃ c, s.owner c = some i := fun i =>
    (h.owned i).mp (Bool.not_eq_false _ ▸ fun hfree => hall ⟨i, hfree⟩)
  choose f hf using hclaimed
  have hinj : Function.Injective f := fun i j hij => Option.some.inj ((hf i).symm.trans (hij ▸ hf j))
  have hle := Set.encard_le_encard
    (show Set.range f ⊆ {c | (s.owner c).isSome} by rintro _ ⟨i, rfl⟩; simp [hf])
  rw [← Set.image_univ, hinj.encard_image, Set.encard_univ] at hle
  exact absurd hfew (not_lt.mpr hle)

/-! ## The protocol -/

variable [DecidableEq I]

/-- A claim that ends without an owner. -/
def Leaks (s t : State I C) : Prop :=
  ∃ i, s.claimed i = false ∧ t = ⟨Function.update s.claimed i true, s.owner⟩

theorem Exact.leaks (h : Exact s) (hleaks : Leaks s t) : ∃ i, Leaked t i := by
  obtain ⟨i, hfree, rfl⟩ := hleaks
  refine ⟨i, ?_⟩
  refine ⟨Function.update_self .., fun c hown => ?_⟩
  -- a free slot is not owned
  exact absurd (hfree.symm.trans ((h.owned i).mpr ⟨c, hown⟩)) (by simp)

theorem Leaked.leaks {i : I} (h : Leaked s i) (hleaks : Leaks s t) : Leaked t i := by
  obtain ⟨j, hfree, rfl⟩ := hleaks
  have hij : i ≠ j := fun hij => absurd (h.1.symm.trans (hij ▸ hfree)) (by simp)
  exact ⟨(Function.update_of_ne hij _ _).trans h.1, h.2⟩

variable [DecidableEq C]

/-- One step of the protocol. -/
inductive Step (s : State I C) : State I C → Prop where
  | stay : Step s s
  | claim (c : C) (i : I) (hfree : s.claimed i = false) (hidle : s.owner c = none) :
      Step s ⟨Function.update s.claimed i true, Function.update s.owner c (some i)⟩
  | release (c : C) (i : I) (hown : s.owner c = some i) :
      Step s ⟨Function.update s.claimed i false, Function.update s.owner c none⟩

/-- **A claim** keeps the flags exact. -/
theorem Exact.claim (h : Exact s) {c : C} {i : I} (hfree : s.claimed i = false)
    (hidle : s.owner c = none) :
    Exact ⟨Function.update s.claimed i true, Function.update s.owner c (some i)⟩ := by
  have hunowned : ∀ c', s.owner c' ≠ some i := fun c' hown =>
    absurd (hfree.symm.trans ((h.owned i).mpr ⟨c', hown⟩)) (by simp)
  refine ⟨fun j => ?_, fun c₁ c₂ j h₁ h₂ => ?_⟩
  · by_cases hj : j = i
    · subst hj
      simp only [Function.update_self, true_iff]
      exact ⟨c, Function.update_self ..⟩
    · simp only [Function.update_of_ne hj, h.owned j]
      constructor
      · rintro ⟨c', hown⟩
        have hc' : c' ≠ c := fun hc => absurd (hidle.symm.trans (hc ▸ hown)) (by simp)
        exact ⟨c', (Function.update_of_ne hc' _ _).trans hown⟩
      · rintro ⟨c', hown⟩
        by_cases hc' : c' = c
        · rw [hc', Function.update_self, Option.some.injEq] at hown
          exact absurd hown.symm hj
        · exact ⟨c', (Function.update_of_ne hc' _ _).symm.trans hown⟩
  · have hother : ∀ c', c' ≠ c → Function.update s.owner c (some i) c' = some j →
        s.owner c' = some j := fun c' hc' hown => (Function.update_of_ne hc' _ _).symm.trans hown
    have hself : Function.update s.owner c (some i) c = some j → j = i := fun hown => by
      rw [Function.update_self, Option.some.injEq] at hown
      exact hown.symm
    by_cases hc₁ : c₁ = c
    · by_cases hc₂ : c₂ = c
      · rw [hc₁, hc₂]
      · subst hc₁
        exact absurd (hself h₁ ▸ hother c₂ hc₂ h₂) (hunowned c₂)
    · by_cases hc₂ : c₂ = c
      · subst hc₂
        exact absurd (hself h₂ ▸ hother c₁ hc₁ h₁) (hunowned c₁)
      · exact h.single c₁ c₂ j (hother c₁ hc₁ h₁) (hother c₂ hc₂ h₂)

/-- **A release** keeps the flags exact. -/
theorem Exact.release (h : Exact s) {c : C} {i : I} (hown : s.owner c = some i) :
    Exact ⟨Function.update s.claimed i false, Function.update s.owner c none⟩ := by
  have hother : ∀ c' j, Function.update s.owner c none c' = some j → s.owner c' = some j ∧ c' ≠ c := by
    intro c' j hown'
    by_cases hc' : c' = c
    · rw [hc', Function.update_self] at hown'
      exact absurd hown' (by simp)
    · exact ⟨(Function.update_of_ne hc' _ _).symm.trans hown', hc'⟩
  refine ⟨fun j => ?_, fun c₁ c₂ j h₁ h₂ => ?_⟩
  · by_cases hj : j = i
    · subst hj
      simp only [Function.update_self, Bool.false_eq_true, false_iff]
      rintro ⟨c', hown'⟩
      obtain ⟨hown', hc'⟩ := hother c' j hown'
      exact hc' (h.single c' c j hown' hown)
    · simp only [Function.update_of_ne hj, h.owned j]
      constructor
      · rintro ⟨c', hown'⟩
        have hc' : c' ≠ c := fun hc => hj (Option.some.inj (hown'.symm.trans (hc ▸ hown)))
        exact ⟨c', (Function.update_of_ne hc' _ _).trans hown'⟩
      · rintro ⟨c', hown'⟩
        exact ⟨c', (hother c' j hown').1⟩
  · exact h.single c₁ c₂ j (hother c₁ j h₁).1 (hother c₂ j h₂).1

/-- **One step** keeps the flags exact. -/
theorem Exact.step (h : Exact s) (hstep : Step s t) : Exact t := by
  cases hstep with
  | stay => exact h
  | claim c i hfree hidle => exact h.claim hfree hidle
  | release c i hown => exact h.release hown

/-- **A leak is for ever**: no owner can give it back. -/
theorem Leaked.step {i : I} (h : Leaked s i) (hstep : Step s t) : Leaked t i := by
  obtain ⟨hclaimed, hnobody⟩ := h
  cases hstep with
  | stay => exact ⟨hclaimed, hnobody⟩
  | claim c j hfree hidle =>
    have hij : i ≠ j := fun hij => absurd (hclaimed.symm.trans (hij ▸ hfree)) (by simp)
    refine ⟨(Function.update_of_ne hij _ _).trans hclaimed, fun c' hown => ?_⟩
    by_cases hc' : c' = c
    · rw [hc'] at hown
      exact hij (Option.some.inj ((Function.update_self c _ _).symm.trans hown)).symm
    · exact hnobody c' ((Function.update_of_ne hc' _ _).symm.trans hown)
  | release c j hown =>
    have hij : i ≠ j := fun hij => hnobody c (hij ▸ hown)
    refine ⟨(Function.update_of_ne hij _ _).trans hclaimed, fun c' hown' => ?_⟩
    by_cases hc' : c' = c
    · rw [hc'] at hown'
      exact absurd ((Function.update_self c _ _).symm.trans hown') (by simp)
    · exact hnobody c' ((Function.update_of_ne hc' _ _).symm.trans hown')

end FlaggedSlots
