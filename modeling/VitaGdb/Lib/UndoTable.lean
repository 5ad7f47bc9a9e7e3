/-
  Patches over a base text, each with the content it replaced: the undo-table discipline.

  A component that patches a shared text in place keeps, for every patch, the bytes it found there,
  and undoes a patch by writing them back.  Whether that gives the original text back is a question
  about the whole table: the bytes found are the ORIGINAL ones only where no other patch had been
  written before.

  The library is stated over an arbitrary address type `A`, content type `B` and patch type `P`
  (where it lies: `area`, what it writes: `put`, what it found: `saved`).  `Patched base m t` is the
  discipline itself: active patches lie on disjoint areas, each is still visible in the text, each
  saved the base text, and the text is the base text everywhere else.  From it:
    * `Patched.plant`   — a patch on an area disjoint from the active ones keeps the discipline;
    * `Patched.remove`  — writing a patch's saved content back and dropping it keeps it;
    * `Patched.edit`    — a change of text and base text alike, outside the active patches, keeps
      it;
    * `Patched.eq_base` — with no patch left the text IS the base text.
  `visible` is the abstract reading: the text a set of patches shows over the base, with no memory
  of how it came about; `Patched.eq_visible` says the disciplined text is exactly that.
-/
import Mathlib

namespace UndoTable

open Classical in
/-- The text a family of patches shows over a base text: inside a patch its content, elsewhere
    the base.  (Abstract: the patches are a set, not a history.) -/
noncomputable def visible {A B P ι : Type} (area : P → Set A) (put : P → A → B) (base : A → B)
    (t : ι → Option P) : A → B := fun a =>
  if h : ∃ i p, t i = some p ∧ a ∈ area p then put h.choose_spec.choose a else base a

variable {A B P ι : Type} {area : P → Set A} {put saved : P → A → B}

/-- The undo-table discipline between a base text, the patched text and the active patches. -/
structure Patched (area : P → Set A) (put saved : P → A → B) (base m : A → B)
    (t : ι → Option P) : Prop where
  /-- Active patches lie on disjoint areas. -/
  disjoint : ∀ i j p q, t i = some p → t j = some q → i ≠ j → Disjoint (area p) (area q)
  /-- Every active patch is visible in the text. -/
  shown : ∀ i p a, t i = some p → a ∈ area p → m a = put p a
  /-- Every active patch saved the base text of its area. -/
  saved_base : ∀ i p a, t i = some p → a ∈ area p → saved p a = base a
  /-- Outside the active patches the text is the base text. -/
  untouched : ∀ a, (∀ i p, t i = some p → a ∉ area p) → m a = base a

/-- Without a patch the text is its own base. -/
theorem Patched.start (base : A → B) : Patched area put saved base base (fun _ : ι => none) where
  disjoint := fun _ _ _ _ h => absurd h (by simp)
  shown := fun _ _ _ h => absurd h (by simp)
  saved_base := fun _ _ _ h => absurd h (by simp)
  untouched := fun _ _ => rfl

/-- With no active patch left, the text is the base text. -/
theorem Patched.eq_base {base m : A → B} {t : ι → Option P}
    (h : Patched area put saved base m t) (hnone : ∀ i, t i = none) : m = base := by
  funext a
  exact h.untouched a fun i p hp => absurd hp (by rw [hnone i]; simp)

/-- **The disciplined text is the visible text** of its active patches. -/
theorem Patched.eq_visible {base m : A → B} {t : ι → Option P}
    (h : Patched area put saved base m t) : m = visible area put base t := by
  funext a
  rw [visible]
  split
  · rename_i hex
    obtain ⟨hp, ha⟩ := hex.choose_spec.choose_spec
    exact h.shown _ _ a hp ha
  · rename_i hno
    exact h.untouched a fun i p hp ha => hno ⟨i, p, hp, ha⟩

/-- **Planting.**  A patch on an area disjoint from the active ones, which saves what it finds
    there, keeps the discipline: what it finds IS the base text. -/
theorem Patched.plant [DecidableEq ι] {base m m' : A → B} {t : ι → Option P} {i : ι} {p : P}
    (h : Patched area put saved base m t) (hfree : t i = none)
    (hdisj : ∀ j q, t j = some q → Disjoint (area p) (area q))
    (hsaved : ∀ a, a ∈ area p → saved p a = m a)
    (hin : ∀ a, a ∈ area p → m' a = put p a) (hout : ∀ a, a ∉ area p → m' a = m a) :
    Patched area put saved base m' (Function.update t i (some p)) := by
  have hother : ∀ j q, j ≠ i → Function.update t i (some p) j = some q → t j = some q :=
    fun j q hj hq => by rwa [Function.update_of_ne hj] at hq
  have hnew : ∀ q, Function.update t i (some p) i = some q → p = q :=
    fun q hq => by rwa [Function.update_self, Option.some.injEq] at hq
  have hsep : ∀ j q a, t j = some q → a ∈ area q → a ∉ area p :=
    fun j q a hq ha hp => Set.disjoint_left.mp (hdisj j q hq) hp ha
  refine ⟨?_, ?_, ?_, ?_⟩
  · intro j k q r hq hr hjk
    by_cases hj : j = i
    · subst hj
      obtain rfl := hnew q hq
      exact hdisj k r (hother k r (Ne.symm hjk) hr)
    · by_cases hk : k = i
      · subst hk
        obtain rfl := hnew r hr
        exact (hdisj j q (hother j q hj hq)).symm
      · exact h.disjoint j k q r (hother j q hj hq) (hother k r hk hr) hjk
  · intro j q a hq ha
    by_cases hj : j = i
    · subst hj
      obtain rfl := hnew q hq
      exact hin a ha
    · have hq' := hother j q hj hq
      rw [hout a (hsep j q a hq' ha)]
      exact h.shown j q a hq' ha
  · intro j q a hq ha
    by_cases hj : j = i
    · subst hj
      obtain rfl := hnew q hq
      rw [hsaved a ha]
      exact h.untouched a fun k r hr har => hsep k r a hr har ha
    · exact h.saved_base j q a (hother j q hj hq) ha
  · intro a ha
    have hp : a ∉ area p := ha i p (Function.update_self i (some p) t)
    rw [hout a hp]
    refine h.untouched a fun k r hr => ha k r ?_
    have hk : k ≠ i := by
      rintro rfl
      rw [hfree] at hr
      exact absurd hr (by simp)
    rwa [Function.update_of_ne hk]

/-- **Undoing.**  Writing a patch's saved content back and dropping the patch keeps the discipline
    for the others. -/
theorem Patched.remove [DecidableEq ι] {base m m' : A → B} {t : ι → Option P} {i : ι} {p : P}
    (h : Patched area put saved base m t) (hp : t i = some p)
    (hin : ∀ a, a ∈ area p → m' a = saved p a) (hout : ∀ a, a ∉ area p → m' a = m a) :
    Patched area put saved base m' (Function.update t i none) := by
  have hother : ∀ j q, Function.update t i none j = some q → j ≠ i ∧ t j = some q := by
    intro j q hq
    by_cases hj : j = i
    · rw [hj, Function.update_self] at hq
      exact absurd hq (by simp)
    · exact ⟨hj, by rwa [Function.update_of_ne hj] at hq⟩
  refine ⟨?_, ?_, ?_, ?_⟩
  · intro j k q r hq hr hjk
    exact h.disjoint j k q r (hother j q hq).2 (hother k r hr).2 hjk
  · intro j q a hq ha
    obtain ⟨hj, hq'⟩ := hother j q hq
    have hnot : a ∉ area p :=
      fun hap => Set.disjoint_left.mp (h.disjoint j i q p hq' hp hj) ha hap
    rw [hout a hnot]
    exact h.shown j q a hq' ha
  · intro j q a hq ha
    exact h.saved_base j q a (hother j q hq).2 ha
  · intro a ha
    by_cases hap : a ∈ area p
    · rw [hin a hap]
      exact h.saved_base i p a hp hap
    · rw [hout a hap]
      refine h.untouched a fun k r hr har => ?_
      by_cases hk : k = i
      · subst hk
        rw [hp, Option.some.injEq] at hr
        exact hap (hr ▸ har)
      · exact ha k r (by rwa [Function.update_of_ne hk]) har

/-- **Editing.**  Text and base text that change together, where no patch is active, stay
    disciplined. -/
theorem Patched.edit {base base' m m' : A → B} {t : ι → Option P}
    (h : Patched area put saved base m t)
    (hin : ∀ i p a, t i = some p → a ∈ area p → m' a = m a ∧ base' a = base a)
    (hout : ∀ a, (∀ i p, t i = some p → a ∉ area p) → m' a = base' a) :
    Patched area put saved base' m' t where
  disjoint := h.disjoint
  shown := by
    intro i p a hp ha
    rw [(hin i p a hp ha).1]
    exact h.shown i p a hp ha
  saved_base := by
    intro i p a hp ha
    rw [(hin i p a hp ha).2]
    exact h.saved_base i p a hp ha
  untouched := hout

end UndoTable
