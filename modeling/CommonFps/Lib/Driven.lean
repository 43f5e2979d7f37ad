import Mathlib

/-!
# Driven systems

A deterministic system driven from outside (`Driven`): from a state, an input
gives the next state and an output. Whatever the environment decides — answers
of a kernel, readings of a clock, failures — is part of the input, so that a
property of *every* stream of inputs is a property of every behaviour of the
environment.

* `Driven.state` and `Driven.output`: the run of a system under a stream of
  inputs, step by step;
* `Driven.invariant`: the induction rule, an invariant of the step number and
  the state, and `Driven.invariant_from`: of a part of a run;
* `Driven.exists_raised`: the step in which something came to hold;
* `Driven.output_of_restart`: a step that acts as it would from the initial
  state starts the run afresh, whatever came before;
* `Driven.told`: what the outputs of a run tell, in their order;
* `Driven.state_of_part`: a part of a system runs as it would on its own;
* `Driven.outputs_agree`: two systems in simulation for a number of steps give
  the same outputs in them;
* `LastAre`: the last observations of a stream are all the same, the meaning of
  a counter of consecutive observations;
* `HeldSince`: an observation is held while later ones are skipped, the meaning of
  a baseline.
-/

/-- A system with states `S`, driven by inputs `I`, with outputs `O`. -/
structure Driven (S I O : Type*) where
  /-- The initial state. -/
  init : S
  /-- The next state and the output, given the state and an input. -/
  step : S → I → S × O

namespace Driven

variable {S I O : Type*} (d : Driven S I O) (ι : ℕ → I)

/-- The state before the step `n`. -/
def state : ℕ → S
  | 0 => d.init
  | n + 1 => (d.step (state n) (ι n)).1

/-- The output of the step `n`. -/
def output (n : ℕ) : O := (d.step (d.state ι n) (ι n)).2

@[simp] theorem state_zero : d.state ι 0 = d.init := rfl

theorem state_succ (n : ℕ) : d.state ι (n + 1) = (d.step (d.state ι n) (ι n)).1 := rfl

variable {d ι}

/-- Induction along a run: what holds initially, and is preserved by the step
    `n` from the state the run is in, holds before every step. -/
theorem invariant {P : ℕ → S → Prop} (h₀ : P 0 d.init)
    (hs : ∀ n, P n (d.state ι n) → P (n + 1) (d.step (d.state ι n) (ι n)).1) :
    ∀ n, P n (d.state ι n)
  | 0 => h₀
  | n + 1 => hs n (invariant h₀ hs n)

/-- Induction along a part of a run. -/
theorem invariant_from {P : ℕ → S → Prop} {m n : ℕ} (hmn : m ≤ n) (hm : P m (d.state ι m))
    (hs : ∀ k, m ≤ k → k < n → P k (d.state ι k) → P (k + 1) (d.step (d.state ι k) (ι k)).1) :
    P n (d.state ι n) := by
  induction n, hmn using Nat.le_induction with
  | base => exact hm
  | succ n hmn ih =>
    exact hs n hmn n.lt_succ_self (ih fun k hk hkn => hs k hk (hkn.trans n.lt_succ_self))

/-- What does not hold initially came to hold in some step. -/
theorem exists_raised {P : S → Prop} {n : ℕ} (h₀ : ¬P d.init) (h : P (d.state ι n)) :
    ∃ m < n, ¬P (d.state ι m) ∧ P (d.state ι (m + 1)) := by
  induction n with
  | zero => exact absurd h h₀
  | succ n ih =>
    by_cases hn : P (d.state ι n)
    · obtain ⟨m, hm, hraised⟩ := ih hn
      exact ⟨m, Nat.lt_succ_of_lt hm, hraised⟩
    · exact ⟨n, n.lt_succ_self, hn, h⟩

/-- After a step acting as from the initial state, the run is in the state of
    the run started at this step. -/
theorem state_of_restart {n : ℕ} (h : d.step (d.state ι n) (ι n) = d.step d.init (ι n)) (k : ℕ) :
    d.state ι (n + (k + 1)) = d.state (fun i => ι (n + i)) (k + 1) := by
  induction k with
  | zero => exact congrArg Prod.fst h
  | succ k ih => rw [← Nat.add_assoc, state_succ, ih]; rfl

/-- From a step acting as from the initial state on, the outputs are those of
    the run started at this step. -/
theorem output_of_restart {n : ℕ} (h : d.step (d.state ι n) (ι n) = d.step d.init (ι n)) (k : ℕ) :
    d.output ι (n + k) = d.output (fun i => ι (n + i)) k := by
  cases k with
  | zero => exact congrArg Prod.snd h
  | succ k => rw [output, output, state_of_restart h]

/-- A part `f` of a system that steps as another one does, with the inputs `g`, runs as that one. -/
theorem state_of_part {S' I' O' : Type*} (d' : Driven S' I' O') (f : S → S') (g : S → I → I')
    (h₀ : f d.init = d'.init) (hs : ∀ s i, f (d.step s i).1 = (d'.step (f s) (g s i)).1) (n : ℕ) :
    f (d.state ι n) = d'.state (fun k => g (d.state ι k) (ι k)) n := by
  induction n with
  | zero => exact h₀
  | succ n ih => rw [state_succ, state_succ, hs, ih]

section Told

variable {α : Type*} (d ι) (f : O → Option α)

/-- What the outputs of the first `n` steps tell, in their order. -/
def told (n : ℕ) : List α := (List.range n).filterMap fun k => f (d.output ι k)

variable {d ι f}

theorem told_succ (n : ℕ) : d.told ι f (n + 1) = d.told ι f n ++ (f (d.output ι n)).toList := by
  rw [told, List.range_succ, List.filterMap_append, told]
  cases h : f (d.output ι n) <;> simp [h]

/-- What was told last was told in some step, and nothing after it. -/
theorem exists_last_told {n : ℕ} {a : α} (h : (d.told ι f n).getLast? = some a) :
    ∃ r < n, f (d.output ι r) = some a ∧ ∀ i, r < i → i < n → f (d.output ι i) = none := by
  induction n with
  | zero => cases h
  | succ n ih =>
    rw [told_succ] at h
    cases hf : f (d.output ι n) with
    | none =>
      rw [hf, Option.toList_none, List.append_nil] at h
      obtain ⟨r, hr, ha, hlast⟩ := ih h
      refine ⟨r, hr.trans n.lt_succ_self, ha, fun i hri hi => ?_⟩
      rcases Nat.lt_succ_iff_lt_or_eq.1 hi with hi | rfl
      · exact hlast i hri hi
      · exact hf
    | some b =>
      rw [hf, Option.toList_some, List.getLast?_concat] at h
      refine ⟨n, n.lt_succ_self, hf.trans h, fun i hni hi => ?_⟩
      exact absurd hi (not_lt.2 hni)

end Told

variable {S' I' : Type*} {d' : Driven S' I' O} {ι' : ℕ → I'}

/-- Two systems related by `R` before each of the first `N` steps, initially and
    from each step to the next, give the same outputs in these steps. -/
theorem outputs_agree {R : ℕ → S → S' → Prop} {N : ℕ} (h₀ : R 0 d.init d'.init)
    (hs : ∀ n < N, R n (d.state ι n) (d'.state ι' n) →
      R (n + 1) (d.step (d.state ι n) (ι n)).1 (d'.step (d'.state ι' n) (ι' n)).1 ∧
        (d.step (d.state ι n) (ι n)).2 = (d'.step (d'.state ι' n) (ι' n)).2) :
    ∀ n < N, d.output ι n = d'.output ι' n := by
  have hR : ∀ n ≤ N, R n (d.state ι n) (d'.state ι' n) := fun n => by
    induction n with
    | zero => exact fun _ => h₀
    | succ n ih => exact fun hn => (hs n hn (ih (Nat.le_of_succ_le hn))).1
  exact fun n hn => (hs n hn (hR n hn.le)).2

end Driven

/-! ## Consecutive observations -/

/-- The last `c` observations before the step `n` are all `a`. -/
def LastAre {α : Type*} (o : ℕ → α) (n c : ℕ) (a : α) : Prop :=
  c ≤ n ∧ ∀ i, n - c ≤ i → i < n → o i = a

namespace LastAre

variable {α : Type*} {o : ℕ → α} {n c : ℕ} {a : α}

theorem zero (o : ℕ → α) (n : ℕ) (a : α) : LastAre o n 0 a :=
  ⟨Nat.zero_le n, fun i h₁ h₂ => absurd h₂ (by omega)⟩

/-- One more observation of the same. -/
theorem succ (h : LastAre o n c a) (ha : o n = a) : LastAre o (n + 1) (c + 1) a := by
  refine ⟨by have := h.1; omega, fun i h₁ h₂ => ?_⟩
  rcases Nat.lt_succ_iff_lt_or_eq.1 h₂ with hi | rfl
  · exact h.2 i (by omega) hi
  · exact ha

/-- A first observation. -/
theorem one (ha : o n = a) : LastAre o (n + 1) 1 a := (zero o n a).succ ha

theorem mono {c' : ℕ} (h : LastAre o n c a) (hc : c' ≤ c) : LastAre o n c' a :=
  ⟨hc.trans h.1, fun i h₁ h₂ => h.2 i (by omega) h₂⟩

/-- Without its last one, the observations are one fewer. -/
theorem pred (h : LastAre o (n + 1) (c + 1) a) : LastAre o n c a ∧ o n = a := by
  refine ⟨⟨Nat.le_of_succ_le_succ h.1, fun i h₁ h₂ => ?_⟩, h.2 n (by omega) n.lt_succ_self⟩
  exact h.2 i (by omega) (Nat.lt_succ_of_lt h₂)

instance [DecidableEq α] (o : ℕ → α) (n c : ℕ) (a : α) : Decidable (LastAre o n c a) :=
  decidable_of_iff (c ≤ n ∧ ∀ i < n, n - c ≤ i → o i = a)
    (and_congr_right fun _ => forall_congr' fun _ => forall_comm)

end LastAre

/-! ## Held observations -/

/-- What is held before the step `n`: the observation `a` of the step `m`, while all
    observations since were skipped. -/
structure HeldSince {α : Type*} (o : ℕ → Option α) (skips : α → α → Prop) (m n : ℕ) (a : α) :
    Prop where
  lt : m < n
  observed : o m = some a
  skipped : ∀ i, m < i → i < n → ∀ b, o i = some b → skips a b

namespace HeldSince

variable {α : Type*} {o : ℕ → Option α} {skips : α → α → Prop} {m n : ℕ} {a : α}

/-- An observation can be held from the step in which it is made. -/
theorem of_observed (h : o n = some a) : HeldSince o skips n (n + 1) a :=
  ⟨n.lt_succ_self, h, fun i hni hi => absurd hi (by omega)⟩

/-- It stays held while what is observed is skipped. -/
theorem succ (h : HeldSince o skips m n a) (hn : ∀ b, o n = some b → skips a b) :
    HeldSince o skips m (n + 1) a := by
  refine ⟨Nat.lt_succ_of_lt h.lt, h.observed, fun i hmi hi => ?_⟩
  rcases Nat.lt_succ_iff_lt_or_eq.1 hi with hi | rfl
  · exact h.skipped i hmi hi
  · exact hn

end HeldSince
