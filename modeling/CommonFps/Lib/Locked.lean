import CommonFps.Lib.Driven

/-!
# A resource behind a lock

Any number of parties, each with a local state of its own, act on one resource,
one action at a time, in any order (`Locked`). A party holds the lock in some of
its local states; an action that would take a lock held by another party waits.

* `Locked.system`: the parties together, a driven system whose input says who
  acts and what its environment answers;
* `Locked.exclusive`: the lock is held by at most one party, the one whose local
  state says so;
* `Locked.guarded_from`: the rule of the lock. A condition on the local state of
  the holder and the resource, which every action of the holder keeps and which
  outside of a session says nothing of the local state, holds through every
  interleaving, as if the sessions took place one after the other.
-/

/-- Parties with local states `L` that act on a resource `S`, given inputs `I`
    and with outputs `O`. -/
structure Locked (L S I O : Type*) where
  /-- The local state of a party outside of any session. -/
  idle : L
  /-- The local states in which a party holds the lock. -/
  holds : L → Bool
  holds_idle : holds idle = false
  /-- An action of a party, when the lock lets it. -/
  act : L → S → I → L × S × O

namespace Locked

/-- The parties, the holder of the lock and the resource. -/
structure State (W L S : Type*) where
  phase : W → L
  lock : Option W
  resource : S

variable {L S I O W : Type*} (p : Locked L S I O) [DecidableEq W]

/-- The action of a party `w` would take a lock that another party holds. -/
abbrev Waits (s : State W L S) (w : W) (i : I) : Prop :=
  p.holds (p.act (s.phase w) s.resource i).1 = true ∧ s.lock ≠ none ∧ s.lock ≠ some w

/-- The party `w` in the local state `l` after an action that left the resource
    in `r`. -/
def moved (s : State W L S) (w : W) (l : L) (r : S) : State W L S where
  phase := Function.update s.phase w l
  lock := if p.holds l then some w else if s.lock = some w then none else s.lock
  resource := r

/-- A party acts, or waits for the lock. -/
def step (s : State W L S) (x : W × I) : State W L S × Option O :=
  let after := p.act (s.phase x.1) s.resource x.2
  if p.Waits s x.1 x.2 then (s, none)
  else (p.moved s x.1 after.1 after.2.1, some after.2.2)

/-- The parties, all idle, with a resource that is initially `r`. -/
def system (W : Type*) [DecidableEq W] (r : S) : Driven (State W L S) (W × I) (Option O) where
  init := { phase := fun _ => p.idle, lock := none, resource := r }
  step := p.step

variable {p} {s : State W L S} {w w' : W} {l : L} {r : S}

@[simp] theorem moved_phase_self : (p.moved s w l r).phase w = l := Function.update_self ..

theorem moved_phase_of_ne (hne : w' ≠ w) : (p.moved s w l r).phase w' = s.phase w' :=
  Function.update_of_ne hne ..

theorem moved_lock_of_holds (h : p.holds l = true) : (p.moved s w l r).lock = some w := if_pos h

theorem moved_lock_of_released (h : p.holds l = false) (hl : s.lock = some w) :
    (p.moved s w l r).lock = none := by
  simp [moved, h, hl]

theorem moved_lock_of_outside (h : p.holds l = false) (hl : s.lock ≠ some w) :
    (p.moved s w l r).lock = s.lock := by
  simp [moved, h, hl]

variable (s) in

/-- A step waits, or is the action of its party. -/
theorem step_cases (x : W × I) :
    p.step s x = (s, none) ∨ ¬p.Waits s x.1 x.2 ∧
      p.step s x = (p.moved s x.1 (p.act (s.phase x.1) s.resource x.2).1
        (p.act (s.phase x.1) s.resource x.2).2.1,
        some (p.act (s.phase x.1) s.resource x.2).2.2) := by
  by_cases hw : p.Waits s x.1 x.2
  · exact .inl (if_pos hw)
  · exact .inr ⟨hw, if_neg hw⟩

/-! ## Mutual exclusion -/

variable (p) in

/-- The lock is held by the party whose local state says so, and by no other. -/
def Exclusive (s : State W L S) : Prop := ∀ w, p.holds (s.phase w) = true ↔ s.lock = some w

theorem Exclusive.step (h : p.Exclusive s) (x : W × I) :
    p.Exclusive (p.step s x).1 := by
  rcases step_cases (p := p) s x with hstep | ⟨hgo, hstep⟩
  · rwa [hstep]
  rw [hstep]
  intro w
  cases hholds : p.holds (p.act (s.phase x.1) s.resource x.2).1 <;>
    rcases eq_or_ne w x.1 with rfl | hne
  · by_cases howner : s.lock = some x.1
    · simp [hholds, moved_lock_of_released hholds howner]
    · simp [hholds, moved_lock_of_outside hholds howner, howner]
  · -- Another party held the lock before if and only if it does now.
    rw [moved_phase_of_ne hne, h w]
    by_cases howner : s.lock = some x.1
    · simp [moved_lock_of_released hholds howner, howner, hne.symm]
    · rw [moved_lock_of_outside hholds howner]
  · simp [hholds, moved_lock_of_holds hholds]
  · -- No other party held it, or the action would have waited.
    rw [moved_phase_of_ne hne, h w, moved_lock_of_holds hholds]
    refine ⟨fun hw => absurd ⟨hholds, by simp [hw], by simpa [hw] using hne⟩ hgo, fun hw => ?_⟩
    exact absurd (Option.some.inj hw).symm hne

/-- In every run, the lock is held by the party whose local state says so. -/
theorem exclusive (r : S) (ι : ℕ → W × I) (n : ℕ) : p.Exclusive ((p.system W r).state ι n) :=
  Driven.invariant (P := fun _ s => p.Exclusive s)
    (fun w => by simp [system, p.holds_idle]) (fun k h => h.step (ι k)) n

/-! ## The rule of the lock -/

variable (p) in

/-- Outside of a session, `J` says of the resource what it says for an idle party. -/
def Local (J : L → S → Prop) : Prop := ∀ l r, p.holds l = false → (J l r ↔ J p.idle r)

variable (p) in

/-- `J` holds of the resource and the local state of the holder of the lock, or of
    an idle party while the lock is free. -/
def Guarded (J : L → S → Prop) (s : State W L S) : Prop :=
  (s.lock = none → J p.idle s.resource) ∧ ∀ w, s.lock = some w → J (s.phase w) s.resource

variable (p) in

/-- An action turns `J` into `J'`, for the party that acts and, if it is outside of
    a session, for the holder. -/
structure Turns (J J' : L → S → Prop) (l : L) (r : S) (i : I) : Prop where
  own : J l r → J' (p.act l r i).1 (p.act l r i).2.1
  frame : p.holds l = false → p.holds (p.act l r i).1 = false →
    ∀ l', J l' r → J' l' (p.act l r i).2.1

variable {J J' : L → S → Prop}

omit [DecidableEq W] in
theorem Guarded.resource (h : p.Guarded J s) {P : S → Prop} (hP : ∀ l r, J l r → P r) :
    P s.resource := by
  cases hl : s.lock with
  | none => exact hP _ _ (h.1 hl)
  | some w => exact hP _ _ (h.2 w hl)

theorem guarded_init (h : J p.idle r) : p.Guarded J (p.system W r).init :=
  ⟨fun _ => h, fun _ hl => by simp [system] at hl⟩

/-- After an action of its holder. -/
theorem guarded_moved (hl : p.holds l = true) (h : J l r) : p.Guarded J (p.moved s w l r) := by
  refine ⟨fun hfree => by simp [moved_lock_of_holds hl] at hfree, fun w' hl' => ?_⟩
  obtain rfl : w = w' := by simpa [moved_lock_of_holds hl] using hl'
  rwa [moved_phase_self]

/-- One step of any party: to wait changes nothing, and an action is outside of
    the session of the holder, or the holder's own. -/
theorem Guarded.step (h : p.Guarded J s) (hx : p.Exclusive s) (hJ : p.Local J) (hJ' : p.Local J')
    {x : W × I} (hwait : (p.step s x).2 = none → ∀ l r, J l r → J' l r)
    (hact : ∀ l r i, (p.step s x).2 = some (p.act l r i).2.2 → p.Turns J J' l r i) :
    p.Guarded J' (p.step s x).1 := by
  rcases step_cases (p := p) s x with hstep | ⟨hgo, hstep⟩
  · have hkeep := hwait (by rw [hstep])
    rw [hstep]
    exact ⟨fun hl => hkeep _ _ (h.1 hl), fun w hl => hkeep _ _ (h.2 w hl)⟩
  have hturns := hact (s.phase x.1) s.resource x.2 (by rw [hstep])
  have hown := hx x.1
  rw [hstep]
  cases hbefore : p.holds (s.phase x.1) <;>
    cases hafter : p.holds (p.act (s.phase x.1) s.resource x.2).1
  · -- Outside of the session of the holder, if there is one.
    have hnot : s.lock ≠ some x.1 := fun hl => by simp [hown.2 hl] at hbefore
    refine ⟨fun hl => ?_, fun w hl => ?_⟩ <;> rw [moved_lock_of_outside hafter hnot] at hl
    · exact hturns.frame hbefore hafter _ (h.1 hl)
    · have hne : w ≠ x.1 := fun hw => hnot (hw ▸ hl)
      rw [moved_phase_of_ne hne]
      exact hturns.frame hbefore hafter _ (h.2 w hl)
  · -- The lock was free, or the action would have waited.
    have hfree : s.lock = none := by
      by_contra hsome
      exact hgo ⟨hafter, hsome, fun hl => by simp [hown.2 hl] at hbefore⟩
    exact guarded_moved hafter (hturns.own ((hJ _ _ hbefore).2 (h.1 hfree)))
  · have howner := hown.1 hbefore
    refine ⟨fun _ => (hJ' _ _ hafter).1 (hturns.own (h.2 _ howner)), fun w hl => ?_⟩
    simp [moved_lock_of_released hafter howner] at hl
  · exact guarded_moved hafter (hturns.own (h.2 _ (hown.1 hbefore)))

/-- The rule of the lock along a part of a run: what every step of it turns into
    the next holds at its end. -/
theorem guarded_from (J : ℕ → L → S → Prop) (r₀ : S) (ι : ℕ → W × I) {m n : ℕ} (hmn : m ≤ n)
    (hJ : ∀ k, p.Local (J k)) (hm : p.Guarded (J m) ((p.system W r₀).state ι m))
    (hwait : ∀ k, m ≤ k → k < n → (p.system W r₀).output ι k = none →
      ∀ l r, J k l r → J (k + 1) l r)
    (hact : ∀ k, m ≤ k → k < n → ∀ l r i,
      (p.system W r₀).output ι k = some (p.act l r i).2.2 → p.Turns (J k) (J (k + 1)) l r i) :
    p.Guarded (J n) ((p.system W r₀).state ι n) :=
  Driven.invariant_from (P := fun k s => p.Guarded (J k) s) hmn hm fun k hk hkn h =>
    h.step (exclusive r₀ ι k) (hJ k) (hJ (k + 1)) (hwait k hk hkn) (hact k hk hkn)

end Locked
