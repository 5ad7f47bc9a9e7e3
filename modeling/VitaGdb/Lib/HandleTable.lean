/-
  Handles that a kernel gives out and takes back.

  A handle is given out only while it is not in use; taking back one that is not in use is a
  mistake of the caller, which the table counts.  The holders of handles are an instance of
  `FlaggedSlots`: the flag of a handle says that it is in use, and a holder holds at most one.

  Spec: `Held` says that no mistake was made, and that the handles in use are the held ones, one
  holder each.  Giving a handle to a holder without one, taking a holder's handle back, and passing
  a handle on all keep it (`Held.give`, `Held.take`, `Held.pass`).

  A handle that its holder drops without giving it back is lost: it stays in use.  `Ledger` keeps
  the lost ones too, and says of every handle in use whether it is held or lost
  (`Ledger.used_iff`).
-/
import VitaGdb.Lib.FlaggedSlots

namespace HandleTable

variable {I O : Type} [DecidableEq I]

/-- The handles in use, and the number of handles taken back that were not. -/
structure Handles (I : Type) where
  used : I → Bool
  mistakes : Nat

namespace Handles

/-- Nothing is in use. -/
def none : Handles I := ⟨fun _ => false, 0⟩

/-- Give the handle out. -/
def give (t : Handles I) (h : I) : Handles I := { t with used := Function.update t.used h true }

/-- Take the handle back. -/
def take (t : Handles I) (h : I) : Handles I :=
  if t.used h then { t with used := Function.update t.used h false }
  else { t with mistakes := t.mistakes + 1 }

/-- Try to take the handle back: where that fails, it stays in use. -/
def tryTake (t : Handles I) (h : I) (goes : Bool) : Handles I :=
  if goes then t.take h
  else if t.used h then t
  else { t with mistakes := t.mistakes + 1 }

/-- A handle that is given out and taken back at once. -/
theorem give_take {t : Handles I} {h : I} (hfresh : t.used h = false) : (t.give h).take h = t := by
  have hused : (t.give h).used h = true := Function.update_self ..
  rw [take, if_pos hused]
  show { t with used := Function.update (Function.update t.used h true) h false } = t
  rw [Function.update_idem, ← hfresh, Function.update_eq_self]

end Handles

/-- The handles in use are the held ones, one holder each, and no mistake was made. -/
structure Held (t : Handles I) (holds : O → Option I) : Prop where
  mistakes : t.mistakes = 0
  exact : FlaggedSlots.Exact (⟨t.used, holds⟩ : FlaggedSlots.State I O)

variable {t : Handles I} {holds : O → Option I} {o o' : O} {h : I}

omit [DecidableEq I] in
theorem Held.none : Held (Handles.none : Handles I) (fun _ : O => Option.none) :=
  ⟨rfl, FlaggedSlots.Exact.start⟩

omit [DecidableEq I] in
/-- What is held is in use. -/
theorem Held.used (hheld : Held t holds) (hown : holds o = some h) : t.used h = true :=
  (hheld.exact.owned h).mpr ⟨o, hown⟩

variable [DecidableEq O]

/-- A handle for a holder that has none. -/
theorem Held.give (hheld : Held t holds) (hfresh : t.used h = false)
    (hidle : holds o = Option.none) :
    Held (t.give h) (Function.update holds o (some h)) :=
  ⟨hheld.mistakes, hheld.exact.claim hfresh hidle⟩

/-- **Taking back what is held** is no mistake. -/
theorem Held.take (hheld : Held t holds) (hown : holds o = some h) :
    Held (t.take h) (Function.update holds o Option.none) := by
  have hexact := hheld.exact.release hown
  rw [Handles.take, if_pos (hheld.used hown)]
  exact ⟨hheld.mistakes, hexact⟩

/-- **Passing a handle on** to a holder that has none. -/
theorem Held.pass (hheld : Held t holds) (hown : holds o = some h) (hidle : holds o' = Option.none) :
    Held t (Function.update (Function.update holds o Option.none) o' (some h)) := by
  have hne : o' ≠ o := fun heq => absurd (hidle.symm.trans (heq ▸ hown)) (by simp)
  have hfree : Function.update holds o Option.none o' = Option.none := by
    rw [Function.update_of_ne hne, hidle]
  have hexact := (hheld.exact.release hown).claim (Function.update_self ..) hfree
  rw [Function.update_idem, ← hheld.used hown, Function.update_eq_self] at hexact
  exact ⟨hheld.mistakes, hexact⟩

/-! ## Lost handles -/

/-- The holders, and nobody, once for every lost handle. -/
def withLost (holds : O → Option I) (lost : List I) : O ⊕ I → Option I
  | .inl o => holds o
  | .inr h => if h ∈ lost then some h else Option.none

omit [DecidableEq O] in
theorem withLost_lost (holds : O → Option I) {lost : List I} {g : I} :
    withLost holds lost (.inr g) = some h ↔ g = h ∧ h ∈ lost := by
  rw [withLost]
  split
  · next hmem =>
    rw [Option.some.injEq]
    constructor
    · rintro rfl
      exact ⟨rfl, hmem⟩
    · exact And.left
  · next hmem =>
    constructor
    · exact fun heq => absurd heq (by simp)
    · rintro ⟨rfl, hlost⟩
      exact absurd hlost hmem

theorem withLost_update (holds : O → Option I) (lost : List I) (o : O) (v : Option I) :
    withLost (Function.update holds o v) lost =
      Function.update (withLost holds lost) (.inl o) v := by
  funext x
  cases x with
  | inl o' =>
    by_cases ho : o' = o
    · subst ho
      simp [withLost]
    · simp [withLost, ho]
  | inr g => simp [withLost]

theorem withLost_append (holds : O → Option I) (lost : List I) (h : I) :
    withLost holds (lost ++ [h]) = Function.update (withLost holds lost) (.inr h) (some h) := by
  funext x
  cases x with
  | inl o => rfl
  | inr g =>
    by_cases hg : g = h
    · subst hg
      simp [withLost]
    · simp [withLost, hg]

/-- **The ledger**: the handles in use are held or lost, and no mistake was made. -/
def Ledger (t : Handles I) (holds : O → Option I) (lost : List I) : Prop :=
  Held t (withLost holds lost)

namespace Ledger

variable {lost : List I}

omit [DecidableEq O] in
theorem start : Ledger (Handles.none : Handles I) (fun _ : O => Option.none) [] := by
  have hnone : withLost (fun _ : O => Option.none) ([] : List I) = fun _ => Option.none := by
    funext x
    cases x <;> simp [withLost]
  rw [Ledger, hnone]
  exact Held.none

omit [DecidableEq O] in
/-- What is neither held nor lost is not in use. -/
theorem used_iff (hled : Ledger t holds lost) (h : I) :
    t.used h = true ↔ (∃ o, holds o = some h) ∨ h ∈ lost := by
  refine (Held.exact hled).owned h |>.trans ?_
  constructor
  · rintro ⟨x, hx⟩
    cases x with
    | inl o => exact .inl ⟨o, hx⟩
    | inr g => exact .inr ((withLost_lost holds).mp hx).2
  · rintro (⟨o, ho⟩ | hlost)
    · exact ⟨.inl o, ho⟩
    · exact ⟨.inr h, (withLost_lost holds).mpr ⟨rfl, hlost⟩⟩

omit [DecidableEq O] in
/-- No two holders share a handle. -/
theorem single (hled : Ledger t holds lost) (ho : holds o = some h) (ho' : holds o' = some h) :
    o = o' :=
  Sum.inl.inj ((Held.exact hled).single (.inl o) (.inl o') h ho ho')

omit [DecidableEq O] in
/-- No lost handle is held. -/
theorem apart (hled : Ledger t holds lost) (ho : holds o = some h) : h ∉ lost := by
  intro hlost
  have hnobody := (withLost_lost holds).mpr ⟨rfl, hlost⟩
  exact absurd ((Held.exact hled).single (.inl o) (.inr h) h ho hnobody) (by simp)

omit [DecidableEq O] in
/-- A handle that is not in use has not been lost. -/
theorem not_lost (hled : Ledger t holds lost) (hfresh : t.used h = false) : h ∉ lost := fun hlost =>
  absurd ((hled.used_iff h).mpr (.inr hlost)) (by rw [hfresh]; simp)

omit [DecidableEq O] in
theorem nobody_idle (hlost : h ∉ lost) : withLost holds lost (.inr h) = Option.none := if_neg hlost

/-- A handle for a holder that has none. -/
theorem give (hled : Ledger t holds lost) (hfresh : t.used h = false) (hidle : holds o = Option.none) :
    Ledger (t.give h) (Function.update holds o (some h)) lost := by
  rw [Ledger, withLost_update]
  exact Held.give hled hfresh hidle

/-- A holder gives its handle back. -/
theorem take (hled : Ledger t holds lost) (hown : holds o = some h) :
    Ledger (t.take h) (Function.update holds o Option.none) lost := by
  rw [Ledger, withLost_update]
  exact Held.take hled hown

/-- A handle is lost as soon as it is given out. -/
theorem lose (hled : Ledger t holds lost) (hfresh : t.used h = false) :
    Ledger (t.give h) holds (lost ++ [h]) := by
  rw [Ledger, withLost_append]
  exact Held.give hled hfresh (nobody_idle (hled.not_lost hfresh))

/-- A holder loses its handle. -/
theorem abandon (hled : Ledger t holds lost) (hown : holds o = some h) :
    Ledger t (Function.update holds o Option.none) (lost ++ [h]) := by
  rw [Ledger, withLost_append, withLost_update]
  exact Held.pass hled hown (nobody_idle (hled.apart hown))

/-- A holder tries to give its handle back, and has it no more: the handle is taken, or lost. -/
theorem tryTake (hled : Ledger t holds lost) (hown : holds o = some h) (goes : Bool) :
    Ledger (t.tryTake h goes) (Function.update holds o Option.none)
      (lost ++ if goes then [] else [h]) := by
  cases goes with
  | true =>
    rw [Handles.tryTake, if_pos rfl, if_pos rfl, List.append_nil]
    exact hled.take hown
  | false =>
    rw [Handles.tryTake, if_neg Bool.false_ne_true, if_neg Bool.false_ne_true,
      if_pos ((hled.used_iff h).mpr (.inl ⟨o, hown⟩))]
    exact hled.abandon hown

end Ledger

end HandleTable
