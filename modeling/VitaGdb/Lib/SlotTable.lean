/-
  Fixed-size tables of optional entries, searched from the first slot on.

  A table of `n` slots is a function `Fin n → Option α`; claiming and releasing a slot are
  `Function.update`.  The two searches every such table is used with are the ones a loop with an
  early exit performs:
    * `findSlot p t` — the first OCCUPIED slot whose entry satisfies `p`;
    * `freeSlot t`   — the first free slot.
  `drain` is the loop that releases every occupied slot in turn (`drain_invariant`), and `occupied`
  counts how often it acts.
  Their specs (`findSlot_some`, `findSlot_none_iff`, `freeSlot_some`) are all a caller needs: no
  proof unfolds the search.

  `KeyedBy key t` says that no two occupied slots share a key; it is what makes "the slot of this
  key" well defined, and it is preserved by claiming a slot for a fresh key (`KeyedBy.claim`) and by
  releasing any slot (`KeyedBy.release`).  `Claimed` adds an owner that comes back to its slot by
  index, while others release slots.
-/
import Mathlib.Logic.Function.Basic
import Mathlib.Data.List.FinRange

namespace SlotTable

variable {n : Nat} {α κ ρ : Type}

/-- A table of `n` slots. -/
abbrev Table (n : Nat) (α : Type) := Fin n → Option α

/-- The table without entries. -/
def empty : Table n α := fun _ => none

@[simp] theorem empty_apply (i : Fin n) : (empty : Table n α) i = none := rfl

/-- The first slot whose entry satisfies `p`, with its entry. -/
def findSlot (p : α → Bool) (t : Table n α) : Option (Fin n × α) :=
  (List.finRange n).findSome? fun i => ((t i).filter p).map (i, ·)

/-- The first slot without an entry. -/
def freeSlot (t : Table n α) : Option (Fin n) := (List.finRange n).find? fun i => (t i).isNone

/-- Visit the listed slots in order, release every occupied one and act on its entry. -/
def drainFrom {σ : Type} (act : σ → Fin n → α → σ) : List (Fin n) → Table n α → σ → Table n α × σ
  | [], t, x => (t, x)
  | i :: l, t, x =>
    match t i with
    | none => drainFrom act l t x
    | some a => drainFrom act l (Function.update t i none) (act x i a)

/-- The loop over all slots. -/
def drain {σ : Type} (act : σ → Fin n → α → σ) (t : Table n α) (x : σ) : Table n α × σ :=
  drainFrom act (List.finRange n) t x

/-! ## What the two searches find -/

theorem findSlot_some {p : α → Bool} {t : Table n α} {i : Fin n} {a : α}
    (h : findSlot p t = some (i, a)) : t i = some a ∧ p a = true := by
  obtain ⟨j, -, hj⟩ := List.exists_of_findSome?_eq_some h
  obtain ⟨b, hb, hpair⟩ := Option.map_eq_some_iff.mp hj
  obtain ⟨hji, hba⟩ := Prod.mk.inj hpair
  subst hji hba
  exact Option.filter_eq_some_iff.mp hb

theorem findSlot_none_iff {p : α → Bool} {t : Table n α} :
    findSlot p t = none ↔ ∀ i a, t i = some a → p a = false := by
  rw [findSlot, List.findSome?_eq_none_iff]
  constructor
  · intro h i a ha
    have hi := Option.map_eq_none_iff.mp (h i (List.mem_finRange i))
    rw [ha, Option.filter_eq_none_iff] at hi
    exact Bool.eq_false_iff.mpr (hi a rfl)
  · intro h i _
    refine Option.map_eq_none_iff.mpr (Option.filter_eq_none_iff.mpr fun a ha => ?_)
    exact Bool.eq_false_iff.mp (h i a ha)

theorem freeSlot_some {t : Table n α} {i : Fin n} (h : freeSlot t = some i) : t i = none := by
  have hnone := List.find?_some (p := fun i => (t i).isNone) h
  exact Option.isNone_iff_eq_none.mp hnone

/-- A search among the entries of a table with one entry. -/
theorem findSlot_single {p : α → Bool} {t : Table n α} {i : Fin n} {a : α} (hi : t i = some a)
    (honly : ∀ j b, t j = some b → j = i) (hp : p a = true) : findSlot p t = some (i, a) := by
  rcases hfind : findSlot p t with _ | ⟨j, b⟩
  · exact absurd (findSlot_none_iff.mp hfind i a hi) (by rw [hp]; simp)
  · obtain ⟨hb, -⟩ := findSlot_some hfind
    obtain rfl := honly j b hb
    rw [hi, Option.some.injEq] at hb
    rw [hb]

/-- Releasing a slot whose entry was not searched for does not change what is found. -/
theorem findSlot_release {p : α → Bool} {t : Table n α} {i : Fin n}
    (h : ∀ a, t i = some a → p a = false) : findSlot p (Function.update t i none) = findSlot p t := by
  have hfilter : ∀ j, (Function.update t i none j).filter p = (t j).filter p := by
    intro j
    by_cases hj : j = i
    · rw [hj, Function.update_self, Option.filter_none]
      refine (Option.filter_eq_none_iff.mpr fun a ha => ?_).symm
      rw [h a ha]
      simp
    · rw [Function.update_of_ne hj]
  simp only [findSlot, hfilter]

/-- A search in a table without entries. -/
theorem findSlot_empty (p : α → Bool) : findSlot p (empty : Table n α) = none :=
  findSlot_none_iff.mpr fun _ _ h => absurd h (by simp)

/-! ## Tables with unique keys -/

/-- No two occupied slots hold entries of the same key. -/
def KeyedBy (key : α → κ) (t : Table n α) : Prop :=
  ∀ i j a b, t i = some a → t j = some b → key a = key b → i = j

theorem KeyedBy.empty (key : α → κ) : KeyedBy key (empty : Table n α) := by
  intro i _ a _ ha
  exact absurd ha (by simp)

/-- Claiming a slot for a key no entry has keeps the keys unique. -/
theorem KeyedBy.claim {key : α → κ} {t : Table n α} (h : KeyedBy key t) (i : Fin n) (a : α)
    (hfresh : ∀ j b, t j = some b → key b ≠ key a) :
    KeyedBy key (Function.update t i (some a)) := by
  intro j k b c hb hc hkey
  by_cases hj : j = i
  · by_cases hk : k = i
    · rw [hj, hk]
    · rw [hj, Function.update_self, Option.some.injEq] at hb
      rw [Function.update_of_ne hk] at hc
      exact absurd (by rw [← hkey, hb]) (hfresh k c hc)
  · rw [Function.update_of_ne hj] at hb
    by_cases hk : k = i
    · rw [hk, Function.update_self, Option.some.injEq] at hc
      exact absurd (by rw [hkey, hc]) (hfresh j b hb)
    · rw [Function.update_of_ne hk] at hc
      exact h j k b c hb hc hkey

theorem KeyedBy.release {key : α → κ} {t : Table n α} (h : KeyedBy key t) (i : Fin n) :
    KeyedBy key (Function.update t i none) := by
  intro j k b c hb hc hkey
  by_cases hj : j = i
  · rw [hj, Function.update_self] at hb
    exact absurd hb (by simp)
  · by_cases hk : k = i
    · rw [hk, Function.update_self] at hc
      exact absurd hc (by simp)
    · rw [Function.update_of_ne hj] at hb
      rw [Function.update_of_ne hk] at hc
      exact h j k b c hb hc hkey

/-- A slot that changes between entries of one key changes nothing of another key. -/
theorem update_others {key : α → κ} {t : Table n α} {i : Fin n} {v : Option α} {k : κ}
    (hold : ∀ a, t i = some a → key a = k) (hnew : ∀ a, v = some a → key a = k) {j : Fin n} {b : α}
    (hne : key b ≠ k) : Function.update t i v j = some b ↔ t j = some b := by
  by_cases hj : j = i
  · rw [hj, Function.update_self]
    exact ⟨fun hb => absurd (hnew b hb) hne, fun hb => absurd (hold b hb) hne⟩
  · rw [Function.update_of_ne hj]

/-- An entry that is gone was in the slot that changed. -/
theorem update_gone {t : Table n α} {i j : Fin n} {v : Option α} {b : α} (hb : t j = some b)
    (hgone : Function.update t i v j ≠ some b) : j = i := by
  by_contra hj
  rw [Function.update_of_ne hj] at hgone
  exact hgone hb

/-! ## A slot its owner comes back to -/

/-- Keys are unique, and the slot that `held` names has the owner's entry in it or none: what one
    owner, the only one to claim slots, can count on while others release them. -/
structure Claimed (key : α → κ) (t : Table n α) (held : Option (Fin n × α)) : Prop where
  keyed : KeyedBy key t
  own : ∀ i a, held = some (i, a) → t i = none ∨ t i = some a

section Claimed

variable {key : α → κ} {t : Table n α} {held : Option (Fin n × α)}

/-- An owner that holds nothing. -/
theorem Claimed.start (h : KeyedBy key t) : Claimed key t none where
  keyed := h
  own := fun i a he => absurd he (by simp)

/-- The owner claims a slot for a key no entry has. -/
theorem Claimed.claim (h : Claimed key t held) (i : Fin n) (a : α)
    (hfresh : ∀ j b, t j = some b → key b ≠ key a) :
    Claimed key (Function.update t i (some a)) (some (i, a)) where
  keyed := h.keyed.claim i a hfresh
  own := by
    intro j b he
    obtain ⟨rfl, rfl⟩ := Prod.mk.inj (Option.some.inj he)
    exact .inr (Function.update_self i (some a) t)

/-- Whoever releases a slot, the owner's is still its own. -/
theorem Claimed.release (h : Claimed key t held) (i : Fin n) :
    Claimed key (Function.update t i none) held where
  keyed := h.keyed.release i
  own := by
    intro j b he
    by_cases hj : j = i
    · left
      rw [hj, Function.update_self]
    · rw [Function.update_of_ne hj]
      exact h.own j b he

/-- The owner is done with its slot. -/
theorem Claimed.settle (h : Claimed key t held) : Claimed key t none := Claimed.start h.keyed

end Claimed

/-! ## Tables mirrored in registers -/

/-- A register holds what encodes an entry exactly while its slot holds the entry. -/
def Mirrors (enc : α → ρ) (regs : Fin n → ρ) (t : Table n α) : Prop :=
  ∀ i a, regs i = enc a ↔ t i = some a

variable {enc : α → ρ} {regs : Fin n → ρ} {t : Table n α}

theorem Mirrors.claim (h : Mirrors enc regs t) (hinj : Function.Injective enc) (i : Fin n) (a : α) :
    Mirrors enc (Function.update regs i (enc a)) (Function.update t i (some a)) := by
  intro j b
  by_cases hj : j = i
  · subst hj
    rw [Function.update_self, Function.update_self, Option.some.injEq]
    exact hinj.eq_iff
  · rw [Function.update_of_ne hj, Function.update_of_ne hj]
    exact h j b

theorem Mirrors.release (h : Mirrors enc regs t) {off : ρ} (hoff : ∀ a, enc a ≠ off) (i : Fin n) :
    Mirrors enc (Function.update regs i off) (Function.update t i none) := by
  intro j b
  by_cases hj : j = i
  · subst hj
    rw [Function.update_self, Function.update_self]
    exact ⟨fun he => absurd he.symm (hoff b), fun he => absurd he (by simp)⟩
  · rw [Function.update_of_ne hj, Function.update_of_ne hj]
    exact h j b

/-! ## Draining a table -/

/-- What releasing one occupied slot with its action preserves, a loop over slots preserves; and
    when the slots it does not visit are free, it ends with the empty table.  Induction on the slots
    still to visit. -/
theorem drainFrom_invariant {σ : Type} {act : σ → Fin n → α → σ} (I : Table n α → σ → Prop)
    (hstep : ∀ t x i a, I t x → t i = some a → I (Function.update t i none) (act x i a)) :
    ∀ (l : List (Fin n)) (t : Table n α) (x : σ), I t x → (∀ i, i ∉ l → t i = none) →
      I empty (drainFrom act l t x).2 ∧ (drainFrom act l t x).1 = empty := by
  intro l
  induction l with
  | nil =>
    intro t x hI hfree
    have ht : t = empty := funext fun i => hfree i (by simp)
    exact ⟨ht ▸ hI, ht⟩
  | cons j l ih =>
    intro t x hI hfree
    rw [drainFrom]
    cases hj : t j with
    | none =>
      refine ih t x hI fun i hi => ?_
      by_cases hij : i = j
      · rw [hij, hj]
      · exact hfree i (by simp [hij, hi])
    | some a =>
      refine ih _ _ (hstep t x j a hI hj) fun i hi => ?_
      by_cases hij : i = j
      · rw [hij, Function.update_self]
      · rw [Function.update_of_ne hij]
        exact hfree i (by simp [hij, hi])

/-- Draining: the table ends empty, and what one release preserves is preserved. -/
theorem drain_invariant {σ : Type} {act : σ → Fin n → α → σ} (I : Table n α → σ → Prop)
    (hstep : ∀ t x i a, I t x → t i = some a → I (Function.update t i none) (act x i a))
    {t : Table n α} {x : σ} (h : I t x) : I empty (drain act t x).2 ∧ (drain act t x).1 = empty :=
  drainFrom_invariant I hstep _ t x h fun i hi => absurd (List.mem_finRange i) hi

/-- What no action changes, draining does not. -/
theorem drain_proj {σ β : Type} {act : σ → Fin n → α → σ} (f : σ → β)
    (hact : ∀ x i a, f (act x i a) = f x) (t : Table n α) (x : σ) : f (drain act t x).2 = f x :=
  (drain_invariant (fun _ y => f y = f x) (fun _ y i a h _ => (hact y i a).trans h) rfl).1

/-- A table without entries has nothing to release. -/
theorem drain_empty {σ : Type} (act : σ → Fin n → α → σ) (x : σ) :
    drain act (empty : Table n α) x = (empty, x) := by
  obtain ⟨⟨-, hx⟩, ht⟩ : ((empty : Table n α) = empty ∧ (drain act empty x).2 = x) ∧
      (drain act empty x).1 = empty :=
    drain_invariant (fun t y => t = empty ∧ y = x)
      (fun t y i a ht hi => absurd hi (by rw [ht.1]; simp)) ⟨rfl, rfl⟩
  exact Prod.ext ht hx

/-- A table with one entry releases that one. -/
theorem drain_single {σ : Type} (act : σ → Fin n → α → σ) {t : Table n α} {i : Fin n} {a : α}
    (hi : t i = some a) (honly : ∀ j b, t j = some b → j = i) (x : σ) :
    drain act t x = (empty, act x i a) := by
  have hempty : Function.update t i none = empty := by
    funext j
    by_cases hj : j = i
    · rw [hj, Function.update_self, empty_apply]
    · rw [Function.update_of_ne hj]
      by_contra hb
      obtain ⟨b, hb⟩ := Option.ne_none_iff_exists'.mp hb
      exact hj (honly j b hb)
  -- the loop is before that slot, or past it
  have hstep : ∀ (t' : Table n α) y j b, (t' = t ∧ y = x ∨ t' = empty ∧ y = act x i a) →
      t' j = some b → (Function.update t' j none = t ∧ act y j b = x ∨
        Function.update t' j none = empty ∧ act y j b = act x i a) := by
    rintro t' y j b (⟨rfl, rfl⟩ | ⟨rfl, -⟩) hj
    · obtain rfl := honly j b hj
      obtain rfl : b = a := Option.some.inj (hj.symm.trans hi)
      exact .inr ⟨hempty, rfl⟩
    · exact absurd hj (by simp)
  obtain ⟨⟨ht, -⟩ | ⟨-, hx⟩, hdrained⟩ := drain_invariant
    (fun t' y => t' = t ∧ y = x ∨ t' = empty ∧ y = act x i a) hstep (.inl ⟨rfl, rfl⟩)
  · rw [← ht] at hi
    exact absurd hi (by simp)
  · exact Prod.ext hdrained hx

/-! ## Draining as a fold -/

/-- The occupied slots in order, with their entries. -/
def entries (t : Table n α) : List (Fin n × α) :=
  (List.finRange n).filterMap fun i => (t i).map (i, ·)

/-- A loop over slots none of which it visits twice acts on the entries they had at the start. -/
theorem drainFrom_eq_foldl {σ : Type} (act : σ → Fin n → α → σ) :
    ∀ (l : List (Fin n)) (t : Table n α) (x : σ), l.Nodup →
      (drainFrom act l t x).2 =
        (l.filterMap fun i => (t i).map (i, ·)).foldl (fun x e => act x e.1 e.2) x := by
  intro l
  induction l with
  | nil => exact fun _ _ _ => rfl
  | cons j l ih =>
    intro t x hnodup
    obtain ⟨hj, hl⟩ := List.nodup_cons.mp hnodup
    rw [drainFrom]
    cases htj : t j with
    | none =>
      rw [List.filterMap_cons_none (by rw [htj]; rfl)]
      exact ih t x hl
    | some a =>
      -- the released slot is not visited again
      have hrest : (l.filterMap fun i => (Function.update t j none i).map (i, ·)) =
          l.filterMap fun i => (t i).map (i, ·) := by
        refine List.filterMap_congr fun i hi => ?_
        have hij : i ≠ j := fun h => hj (h ▸ hi)
        rw [Function.update_of_ne hij]
      rw [List.filterMap_cons_some (by rw [htj]; rfl), List.foldl_cons]
      exact (ih _ _ hl).trans (by rw [hrest])

/-- Draining acts on the entries one after the other. -/
theorem drain_eq_foldl {σ : Type} (act : σ → Fin n → α → σ) (t : Table n α) (x : σ) :
    (drain act t x).2 = (entries t).foldl (fun x e => act x e.1 e.2) x :=
  drainFrom_eq_foldl act _ t x (List.nodup_finRange n)

/-! ## Counting entries -/

/-- The number of occupied slots. -/
def occupied (t : Table n α) : Nat := (List.finRange n).countP fun i => (t i).isSome

/-- Releasing an occupied slot leaves one less. -/
theorem occupied_release {t : Table n α} {i : Fin n} {a : α} (h : t i = some a) :
    occupied (Function.update t i none) + 1 = occupied t := by
  have hmem := List.mem_finRange i
  have hnodup := List.nodup_finRange n
  rw [occupied, occupied]
  generalize List.finRange n = l at hmem hnodup
  induction l with
  | nil => exact absurd hmem (by simp)
  | cons j l ih =>
    rw [List.nodup_cons] at hnodup
    rw [List.countP_cons, List.countP_cons]
    by_cases hj : j = i
    · subst hj
      have hrest : l.countP (fun k => (Function.update t j none k).isSome) =
          l.countP fun k => (t k).isSome := by
        refine List.countP_congr fun k hk => ?_
        have hkj : k ≠ j := fun h => hnodup.1 (h ▸ hk)
        rw [Function.update_of_ne hkj]
      simp [hrest, h]
    · have := ih ((List.mem_cons.mp hmem).resolve_left (Ne.symm hj)) hnodup.2
      rw [Function.update_of_ne hj]
      omega

/-- What every action adds one to counts the entries. -/
theorem drain_count {σ : Type} {act : σ → Fin n → α → σ} (f : σ → Nat)
    (hact : ∀ x i a, f (act x i a) = f x + 1) (t : Table n α) (x : σ) :
    f (drain act t x).2 = f x + occupied t := by
  have hstep : ∀ (t' : Table n α) y i a, f y + occupied t' = f x + occupied t → t' i = some a →
      f (act y i a) + occupied (Function.update t' i none) = f x + occupied t := by
    intro t' y i a hI hi
    have hless := occupied_release hi
    rw [hact]
    omega
  have hcount := (drain_invariant (fun t' y => f y + occupied t' = f x + occupied t) hstep rfl).1
  have hnone : occupied (empty : Table n α) = 0 := by simp [occupied]
  rwa [hnone, Nat.add_zero] at hcount

end SlotTable
