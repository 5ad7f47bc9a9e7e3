/-
  Runs of a partial, deterministic labelled transition system.

  `step s e` is the state after event `e`, or `none` where `e` is not enabled in `s`.  Any
  nondeterminism (which thread moves, what the environment answers) sits in the event, so a run is
  just a list of events and can be evaluated.

  Two notions carry every result about runs:
    * `exec step s es`          — the state the whole list of events leads to;
    * `Along step cond s es`    — every event of the list is taken in a state that satisfies
                                  `cond` with it ("a run whose steps all meet the condition").

  `exec_invariant` is the one induction over runs: what a single step that meets the condition
  preserves, a whole run that meets it preserves.  Because `es` is arbitrary and every prefix of a
  run that meets the condition meets it too (`Along.prefix`), the conclusion is about every state
  the run passes through, not only its last one.
-/

namespace LTS

variable {S E : Type}

/-! ## Executing a list of events -/

/-- Run the events from left to right; `none` as soon as one of them is not enabled. -/
def exec (step : S → E → Option S) : S → List E → Option S
  | s, [] => some s
  | s, e :: es => (step s e).bind fun s' => exec step s' es

@[simp] theorem exec_nil (step : S → E → Option S) (s : S) : exec step s [] = some s := rfl

theorem exec_cons (step : S → E → Option S) (s : S) (e : E) (es : List E) :
    exec step s (e :: es) = (step s e).bind fun s' => exec step s' es := rfl

/-- One event after a run: split the first event off an execution that went through. -/
theorem exec_cons_some {step : S → E → Option S} {s t : S} {e : E} {es : List E}
    (h : exec step s (e :: es) = some t) :
    ∃ s', step s e = some s' ∧ exec step s' es = some t := by
  rw [exec_cons] at h
  exact Option.bind_eq_some_iff.mp h

/-- Two runs, one behind the other. -/
theorem exec_append (step : S → E → Option S) (s : S) (es fs : List E) :
    exec step s (es ++ fs) = (exec step s es).bind fun t => exec step t fs := by
  induction es generalizing s with
  | nil => rfl
  | cons e es ih =>
    rw [List.cons_append, exec_cons, exec_cons, Option.bind_assoc]
    exact congrArg _ (funext ih)

/-! ## Runs whose steps all meet a condition -/

/-- Every event of the run is taken in a state that satisfies `cond` with it. -/
def Along (step : S → E → Option S) (cond : S → E → Prop) : S → List E → Prop
  | _, [] => True
  | s, e :: es => cond s e ∧ ∀ s', step s e = some s' → Along step cond s' es

/-- A first event that meets the condition, and a rest that does. -/
theorem Along.cons {step : S → E → Option S} {cond : S → E → Prop} {s s' : S} {e : E} {es : List E}
    (hs : step s e = some s') (he : cond s e) (hes : Along step cond s' es) :
    Along step cond s (e :: es) := by
  refine ⟨he, fun t ht => ?_⟩
  obtain rfl : s' = t := Option.some.inj (hs.symm.trans ht)
  exact hes

/-- Whether a run meets the condition can be computed where the condition can. -/
instance Along.decidable {step : S → E → Option S} {cond : S → E → Prop}
    [∀ s e, Decidable (cond s e)] : ∀ (s : S) (es : List E), Decidable (Along step cond s es)
  | _, [] => isTrue trivial
  | s, e :: es =>
    match hs : step s e with
    | none => decidable_of_iff (cond s e) ⟨fun he => ⟨he, by simp [hs]⟩, And.left⟩
    | some s' =>
      have : Decidable (Along step cond s' es) := Along.decidable s' es
      decidable_of_iff (cond s e ∧ Along step cond s' es)
        ⟨fun h => Along.cons hs h.1 h.2, fun h => ⟨h.1, h.2 s' hs⟩⟩

/-- A run that meets the condition meets it up to any point. -/
theorem Along.prefix {step : S → E → Option S} {cond : S → E → Prop} :
    ∀ {s : S} (es fs : List E), Along step cond s (es ++ fs) → Along step cond s es
  | _, [], _, _ => trivial
  | _, _ :: es, fs, h => ⟨h.1, fun s' hs => Along.prefix es fs (h.2 s' hs)⟩

/-- A condition that always holds is met along every run. -/
theorem Along.of_forall {step : S → E → Option S} {cond : S → E → Prop} (h : ∀ s e, cond s e) :
    ∀ {s : S} (es : List E), Along step cond s es
  | _, [] => trivial
  | s, e :: es => ⟨h s e, fun _ _ => Along.of_forall h es⟩

/-- What holds of every event of a run, whatever the state, is met along it. -/
theorem Along.of_mem {step : S → E → Option S} {cond : S → E → Prop} :
    ∀ {s : S} (es : List E), (∀ e ∈ es, ∀ s, cond s e) → Along step cond s es
  | _, [], _ => trivial
  | s, e :: es, h =>
    ⟨h e List.mem_cons_self s, fun _ _ => Along.of_mem es fun f hf => h f (List.mem_cons_of_mem e hf)⟩

/-- Two conditions are met along a run one by one. -/
theorem Along.and {step : S → E → Option S} {c d : S → E → Prop} :
    ∀ {s : S} (es : List E), Along step c s es → Along step d s es →
      Along step (fun s e => c s e ∧ d s e) s es
  | _, [], _, _ => trivial
  | _, _ :: es, hc, hd =>
    ⟨⟨hc.1, hd.1⟩, fun s' hs => Along.and es (hc.2 s' hs) (hd.2 s' hs)⟩

/-- A weaker condition is met along more runs. -/
theorem Along.mono {step : S → E → Option S} {c d : S → E → Prop} (hcd : ∀ s e, c s e → d s e) :
    ∀ {s : S} (es : List E), Along step c s es → Along step d s es
  | _, [], _ => trivial
  | s, e :: es, h => ⟨hcd s e h.1, fun s' hs => Along.mono hcd es (h.2 s' hs)⟩

/-- **Invariance over runs.**  `I` holds at the start and every step that meets `cond` preserves
    it, so it holds wherever a run that meets `cond` leads. -/
theorem exec_invariant {step : S → E → Option S} {cond : S → E → Prop} {I : S → Prop}
    (hstep : ∀ s e s', I s → cond s e → step s e = some s' → I s') :
    ∀ (es : List E) {s t : S}, I s → Along step cond s es → exec step s es = some t → I t := by
  intro es
  induction es with
  | nil =>
    intro s t hI _ ht
    rw [exec_nil, Option.some.injEq] at ht
    exact ht ▸ hI
  | cons e es ih =>
    intro s t hI hcond ht
    obtain ⟨s', hs, hrest⟩ := exec_cons_some ht
    exact ih (hstep s e s' hI hcond.1 hs) (hcond.2 s' hs) hrest

/-- What every step keeps holds wherever a run leads. -/
theorem exec_keeps {step : S → E → Option S} {I : S → Prop}
    (hstep : ∀ s e s', I s → step s e = some s' → I s') (es : List E) {s t : S} (hs : I s)
    (ht : exec step s es = some t) : I t :=
  exec_invariant (fun s e s' hI (_ : True) => hstep s e s' hI) es hs
    (Along.of_forall (fun _ _ => trivial) es) ht

/-- **What an event brings about and every step keeps** holds wherever a run through it leads. -/
theorem exec_since {step : S → E → Option S} {I P : S → Prop} {e : E}
    (hstep : ∀ s f s', I s → step s f = some s' → I s')
    (hmakes : ∀ s s', I s → step s e = some s' → P s')
    (hkeeps : ∀ s f s', I s → P s → step s f = some s' → P s') :
    ∀ (es : List E) {s t : S}, I s → e ∈ es → exec step s es = some t → P t := by
  intro es
  induction es with
  | nil => exact fun _ he => absurd he List.not_mem_nil
  | cons f es ih =>
    intro s t hI he ht
    obtain ⟨s', hs, hrest⟩ := exec_cons_some ht
    rcases List.mem_cons.mp he with rfl | he
    · have hboth : ∀ u g u', I u ∧ P u → step u g = some u' → I u' ∧ P u' :=
        fun u g u' hu hg => ⟨hstep u g u' hu.1 hg, hkeeps u g u' hu.1 hu.2 hg⟩
      exact (exec_keeps hboth es ⟨hstep s e s' hI hs, hmakes s s' hI hs⟩ hrest).2
    · exact ih (hstep s f s' hI hs) he hrest

/-- Two conditions that agree wherever the invariant of one holds are met along the same runs. -/
theorem Along.iff_of_invariant {step : S → E → Option S} {c d : S → E → Prop} {I : S → Prop}
    (hiff : ∀ s e, I s → (c s e ↔ d s e))
    (hstep : ∀ s e s', I s → c s e → step s e = some s' → I s') :
    ∀ (es : List E) {s : S}, I s → (Along step c s es ↔ Along step d s es) := by
  intro es
  induction es with
  | nil => exact fun _ => Iff.rfl
  | cons e es ih =>
    intro s hI
    constructor
    · intro h
      exact ⟨(hiff s e hI).mp h.1, fun s' hs => (ih (hstep s e s' hI h.1 hs)).mp (h.2 s' hs)⟩
    · intro h
      have hc := (hiff s e hI).mpr h.1
      exact ⟨hc, fun s' hs => (ih (hstep s e s' hI hc hs)).mpr (h.2 s' hs)⟩

/-! ## Labels and simulation -/

variable {A L : Type}

/-- What a run shows, where `label s e` is what a single step shows (`none`: it is silent). -/
def trace (step : S → E → Option S) (label : S → E → Option L) : S → List E → List L
  | _, [] => []
  | s, e :: es =>
    (label s e).toList ++ match step s e with
      | none => []
      | some s' => trace step label s' es

/-- **Invariance with a history.**  Every step keeps `I` with what the step shows added to the
    history, so a run keeps it with all that it shows. -/
theorem exec_traced {step : S → E → Option S} {label : S → E → Option L} {I : S → List L → Prop}
    (hstep : ∀ s e s' ls, I s ls → step s e = some s' → I s' (ls ++ (label s e).toList)) :
    ∀ (es : List E) {s t : S} {ls : List L}, I s ls → exec step s es = some t →
      I t (ls ++ trace step label s es) := by
  intro es
  induction es with
  | nil =>
    intro s t ls hI ht
    rw [exec_nil, Option.some.injEq] at ht
    rw [trace, List.append_nil]
    exact ht ▸ hI
  | cons e es ih =>
    intro s t ls hI ht
    obtain ⟨s', hs, hrest⟩ := exec_cons_some ht
    rw [trace, hs, ← List.append_assoc]
    exact ih (hstep s e s' ls hI hs) hrest

/-- An abstract transition system follows a list of labels from one state to another. -/
def Follows (astep : A → L → A → Prop) : A → List L → A → Prop
  | a, [], b => a = b
  | a, l :: ls, b => ∃ a', astep a l a' ∧ Follows astep a' ls b

/-- A step that shows `l?` is matched: by the abstract step of that label, or by none. -/
def Matched (astep : A → L → A → Prop) (R : A → Prop) (a : A) : Option L → Prop
  | none => R a
  | some l => ∃ a', astep a l a' ∧ R a'

/-- **Simulation over runs.**  `R` relates the start to an abstract state and every step that meets
    `cond` is matched, so what a run that meets `cond` shows is followed by the abstract system. -/
theorem exec_simulation {step : S → E → Option S} {label : S → E → Option L} {cond : S → E → Prop}
    {astep : A → L → A → Prop} {R : S → A → Prop}
    (hstep : ∀ s e s' a, R s a → cond s e → step s e = some s' →
      Matched astep (R s') a (label s e)) :
    ∀ (es : List E) {s t : S} {a : A}, R s a → Along step cond s es → exec step s es = some t →
      ∃ b, Follows astep a (trace step label s es) b ∧ R t b := by
  intro es
  induction es with
  | nil =>
    intro s t a hR _ ht
    rw [exec_nil, Option.some.injEq] at ht
    exact ⟨a, rfl, ht ▸ hR⟩
  | cons e es ih =>
    intro s t a hR hcond ht
    obtain ⟨s', hs, hrest⟩ := exec_cons_some ht
    have hmatched := hstep s e s' a hR hcond.1 hs
    rw [trace, hs]
    cases hl : label s e with
    | none =>
      rw [hl] at hmatched
      exact ih hmatched (hcond.2 s' hs) hrest
    | some l =>
      rw [hl] at hmatched
      obtain ⟨a', hla, hR'⟩ := hmatched
      obtain ⟨b, hfollows, hRb⟩ := ih hR' (hcond.2 s' hs) hrest
      exact ⟨b, ⟨a', hla, hfollows⟩, hRb⟩

end LTS
