/-
Labelled transition systems with a computable step.

A `System` has an initial state and a partial step function: `step s a` is the
state after the atomic action `a`, or `none` where `a` is not enabled.  Runs are
taken relative to a side condition `ok` on their steps, so that "every run" and
"every run whose steps all avoid a given branch" are one notion:

* `System.Reaches ok s s'` — `s'` is reached from `s` by steps that meet `ok`;
* `System.Reachable ok s` — the same, from the initial state;
* `System.Reachable.invariant` — what holds initially and survives one step holds
  in every reachable state (`invariant_of` when an earlier invariant helps);
* `System.Final` — a call after which nothing happens, and `final_of`, the rule for it;
* `System.run` — the executable run over a list of actions, with
  `reachable_of_run` turning a computed run into a reachability proof;
* `Simulation` — a state map under which each concrete step is matched by
  abstract steps, so that abstract invariants transfer.
-/
import Mathlib.Logic.Relation

/-- A labelled transition system whose step can be computed. -/
structure System (σ : Type*) (α : Type*) where
  init : σ
  step : σ → α → Option σ

namespace System

variable {σ α : Type*}

/-- The side condition that every step meets. -/
def always : σ → α → Prop := fun _ _ => True

instance (s : σ) (a : α) : Decidable (always s a) := inferInstanceAs (Decidable True)

variable (M : System σ α)

/-- One step, by an action that meets `ok` in the state it is taken from. -/
def Step (ok : σ → α → Prop) (s s' : σ) : Prop := ∃ a, ok s a ∧ M.step s a = some s'

/-- `s'` is reached from `s` by steps that all meet `ok`. -/
def Reaches (ok : σ → α → Prop) : σ → σ → Prop := Relation.ReflTransGen (M.Step ok)

/-- `s` is reached from the initial state by steps that all meet `ok`. -/
def Reachable (ok : σ → α → Prop) (s : σ) : Prop := M.Reaches ok M.init s

variable {M} {ok ok' : σ → α → Prop} {s s' : σ}

theorem Reaches.step {s₀ : σ} {a : α} (h : M.Reaches ok s₀ s) (ha : ok s a)
    (hs : M.step s a = some s') : M.Reaches ok s₀ s' :=
  Relation.ReflTransGen.tail h ⟨a, ha, hs⟩

theorem Reaches.mono (himp : ∀ s a, ok s a → ok' s a) (h : M.Reaches ok s s') :
    M.Reaches ok' s s' := by
  refine Relation.ReflTransGen.mono ?_ _ _ h
  rintro t t' ⟨a, ha, hs⟩
  exact ⟨a, himp t a ha, hs⟩

/-- A predicate kept by every step that meets `ok` is kept along `Reaches`. -/
theorem Reaches.preserves {P : σ → Prop}
    (hstep : ∀ t a t', P t → ok t a → M.step t a = some t' → P t')
    (h : M.Reaches ok s s') (hs : P s) : P s' := by
  induction h with
  | refl => exact hs
  | tail _ hst ih =>
    obtain ⟨a, ha, hstep'⟩ := hst
    exact hstep _ a _ ih ha hstep'

theorem Reachable.init : M.Reachable ok M.init := Relation.ReflTransGen.refl

theorem Reachable.step {a : α} (h : M.Reachable ok s) (ha : ok s a)
    (hs : M.step s a = some s') : M.Reachable ok s' :=
  Reaches.step h ha hs

theorem Reachable.trans (h : M.Reachable ok s) (h' : M.Reaches ok s s') :
    M.Reachable ok s' :=
  Relation.ReflTransGen.trans h h'

theorem Reachable.mono (himp : ∀ s a, ok s a → ok' s a) (h : M.Reachable ok s) :
    M.Reachable ok' s :=
  Reaches.mono himp h

theorem Reachable.always (h : M.Reachable ok s) : M.Reachable always s :=
  h.mono fun _ _ _ => trivial

/-- **Invariant rule.**  What holds initially and survives every step that meets
`ok` holds in every state reached by such steps. -/
theorem Reachable.invariant {P : σ → Prop} (h0 : P M.init)
    (hstep : ∀ t a t', P t → ok t a → M.step t a = some t' → P t')
    (h : M.Reachable ok s) : P s :=
  Reaches.preserves hstep h h0

/-- The invariant rule above an invariant `I` that is already known. -/
theorem Reachable.invariant_of {I P : σ → Prop} (hI : ∀ t, M.Reachable ok t → I t)
    (h0 : P M.init)
    (hstep : ∀ t a t', I t → P t → ok t a → M.step t a = some t' → P t')
    (h : M.Reachable ok s) : P s := by
  induction h with
  | refl => exact h0
  | @tail t t' hr hst ih =>
    obtain ⟨a, ha, hstep'⟩ := hst
    exact hstep t a t' (hI t hr) ih ha hstep'

/-- From a reachable state on, what the known invariant `I` lets every step keep
is kept for ever. -/
theorem Reachable.preserves_of {I P : σ → Prop} (hI : ∀ t, M.Reachable ok t → I t)
    (hstep : ∀ t a t', I t → P t → ok t a → M.step t a = some t' → P t')
    (h : M.Reachable ok s) (h' : M.Reaches ok s s') (hs : P s) : P s' := by
  induction h' with
  | refl => exact hs
  | @tail t t' hr hst ih =>
    obtain ⟨a, ha, hstep'⟩ := hst
    exact hstep t a t' (hI t (h.trans hr)) ih ha hstep'

/-! ### Calls that are final -/

variable (M) in
/-- Once a call has returned, by a step that `returns` picks, `Silent` relates the state in which
it did to every later one, until the application asks again. -/
def Final (ok returns asks : σ → α → Prop) (Silent : σ → σ → Prop) : Prop :=
  ∀ {s a s₁ s₂}, M.Reachable ok s → ok s a → returns s a → M.step s a = some s₁ →
    M.Reaches (fun t b => ok t b ∧ ¬ asks t b) s₁ s₂ → Silent s₁ s₂

/-- **Rule for final calls.**  `I` holds of every reachable state, and lets the call return with
`Silent`; every step that asks for nothing keeps that. -/
theorem final_of {I : σ → Prop} {returns asks : σ → α → Prop} {Silent : σ → σ → Prop}
    (hI : ∀ t, M.Reachable ok t → I t)
    (hreturn : ∀ t a t', I t → ok t a → returns t a → M.step t a = some t' → Silent t' t')
    (hstep : ∀ t₀ t a t', Silent t₀ t → ok t a → ¬ asks t a → M.step t a = some t' →
      Silent t₀ t') : M.Final ok returns asks Silent := by
  intro s a s₁ s₂ hs hok hret hst hreach
  have hkeeps : ∀ t b t', Silent s₁ t → (ok t b ∧ ¬ asks t b) → M.step t b = some t' →
      Silent s₁ t' :=
    fun t b t' ht hb hst' => hstep s₁ t b t' ht hb.1 hb.2 hst'
  exact hreach.preserves hkeeps (hreturn s a s₁ (hI s hs) hok hret hst)

theorem Final.mono {returns asks : σ → α → Prop} {T Silent : σ → σ → Prop}
    (h : M.Final ok returns asks T) (himp : ∀ s t, T s t → Silent s t) :
    M.Final ok returns asks Silent :=
  fun hs hok hret hst hreach => himp _ _ (h hs hok hret hst hreach)

/-! ### Executable runs -/

variable (M) in
/-- Run a list of actions, stopping with `none` at one that is not enabled. -/
def run (s : σ) : List α → Option σ
  | [] => some s
  | a :: as => (M.step s a).bind fun s' => run s' as

variable (M) in
/-- Run a list of actions, each of which must meet `ok` where it is taken. -/
def runIf (ok : σ → α → Prop) [∀ s a, Decidable (ok s a)] (s : σ) : List α → Option σ
  | [] => some s
  | a :: as => if ok s a then (M.step s a).bind fun s' => runIf ok s' as else none

theorem reaches_of_runIf [∀ s a, Decidable (ok s a)] {as : List α} :
    ∀ {s : σ}, M.runIf ok s as = some s' → M.Reaches ok s s' := by
  induction as with
  | nil =>
    intro s h
    rw [runIf, Option.some_inj] at h
    exact h ▸ Relation.ReflTransGen.refl
  | cons a as ih =>
    intro s h
    rw [runIf] at h
    split at h
    · rename_i ha
      obtain ⟨t, ht, hrun⟩ := Option.bind_eq_some_iff.mp h
      exact Relation.ReflTransGen.head ⟨a, ha, ht⟩ (ih hrun)
    · cases h

theorem reachable_of_runIf [∀ s a, Decidable (ok s a)] {as : List α}
    (h : M.runIf ok M.init as = some s) : M.Reachable ok s :=
  reaches_of_runIf h

theorem reaches_of_run {as : List α} : ∀ {s : σ}, M.run s as = some s' →
    M.Reaches System.always s s' := by
  induction as with
  | nil =>
    intro s h
    rw [run, Option.some_inj] at h
    exact h ▸ Relation.ReflTransGen.refl
  | cons a as ih =>
    intro s h
    rw [run] at h
    obtain ⟨t, ht, hrun⟩ := Option.bind_eq_some_iff.mp h
    exact Relation.ReflTransGen.head ⟨a, trivial, ht⟩ (ih hrun)

theorem reachable_of_run {as : List α} (h : M.run M.init as = some s) :
    M.Reachable System.always s :=
  reaches_of_run h

/-- A computed run that ends in `p` reaches a state of `p`. -/
theorem exists_of_run {as : List α} {p : σ → Bool} (h : (M.run M.init as).any p = true) :
    ∃ s, M.Reachable System.always s ∧ p s = true := by
  obtain ⟨s, hs, hp⟩ := (Option.any_eq_true _ _).mp h
  exact ⟨s, reachable_of_run hs, hp⟩

theorem exists_of_runIf [∀ s a, Decidable (ok s a)] {as : List α} {p : σ → Bool}
    (h : (M.runIf ok M.init as).any p = true) : ∃ s, M.Reachable ok s ∧ p s = true := by
  obtain ⟨s, hs, hp⟩ := (Option.any_eq_true _ _).mp h
  exact ⟨s, reachable_of_runIf hs, hp⟩

/-- A run to a call that is final, its return, and the run that follows. -/
theorem Final.exists_silent {returns asks : σ → α → Prop} {Silent : σ → σ → Prop}
    (h : M.Final ok returns asks Silent) [∀ s a, Decidable (ok s a)]
    [∀ s a, Decidable (returns s a)] [∀ s a, Decidable (asks s a)] (as : List α) (a : α)
    (bs : List α) (p : σ → σ → Bool)
    (hrun : ((M.runIf ok M.init as).any fun s => decide (ok s a ∧ returns s a) &&
      (M.step s a).any fun s₁ =>
        (M.runIf (fun t b => ok t b ∧ ¬ asks t b) s₁ bs).any (p s₁)) = true) :
    ∃ s₁ s₂, p s₁ s₂ = true ∧ Silent s₁ s₂ := by
  obtain ⟨s, hs, hp⟩ := exists_of_runIf hrun
  obtain ⟨hreturn, hp⟩ := Bool.and_eq_true_iff.mp hp
  obtain ⟨hok, hret⟩ := of_decide_eq_true hreturn
  obtain ⟨s₁, hstep, hp⟩ := (Option.any_eq_true _ _).mp hp
  obtain ⟨s₂, hreach, hp⟩ := (Option.any_eq_true _ _).mp hp
  exact ⟨s₁, s₂, hp, h hs hok hret hstep (reaches_of_runIf hreach)⟩

end System

/-! ### Simulation -/

/-- A map from the states of `M` to those of an abstract relation `R` under which
each step of `M` that meets `ok`, from a state with the invariant `I`, is matched
by finitely many abstract steps. -/
structure Simulation {σ α τ : Type*} (M : System σ α) (ok : σ → α → Prop) (R : τ → τ → Prop)
    (I : σ → Prop) where
  abs : σ → τ
  matched : ∀ s a s', I s → ok s a → M.step s a = some s' →
    Relation.ReflTransGen R (abs s) (abs s')

namespace Simulation

variable {σ α τ : Type*} {M : System σ α} {ok : σ → α → Prop} {R : τ → τ → Prop} {I : σ → Prop}

/-- A concrete run maps to an abstract one. -/
theorem reaches (f : Simulation M ok R I) (hI : ∀ s, M.Reachable ok s → I s) {s s' : σ}
    (h : M.Reachable ok s) (h' : M.Reaches ok s s') :
    Relation.ReflTransGen R (f.abs s) (f.abs s') := by
  induction h' with
  | refl => exact Relation.ReflTransGen.refl
  | @tail t t' hr hst ih =>
    obtain ⟨a, ha, hstep⟩ := hst
    exact ih.trans (f.matched t a t' (hI t (h.trans hr)) ha hstep)

/-- An abstract property that abstract steps keep is kept by concrete runs. -/
theorem preserves (f : Simulation M ok R I) (hI : ∀ s, M.Reachable ok s → I s) {P : τ → Prop}
    (hP : ∀ t t', P t → R t t' → P t') {s s' : σ} (h : M.Reachable ok s)
    (h' : M.Reaches ok s s') (hs : P (f.abs s)) : P (f.abs s') := by
  have hrun := f.reaches hI h h'
  generalize f.abs s' = t' at hrun
  induction hrun with
  | refl => exact hs
  | tail _ hst ih => exact hP _ _ ih hst

end Simulation
