import Mathlib

/-!
# Handles

A table of handles that are given out and taken back one by one, each with what it
refers to. Zero is no handle. A use or release of a number that is no handle at the
time is remembered.

* `Owns`: the handles of a table are those of a list, none of them twice, and
  nothing was misused;
* `Owns.new`, `Owns.lookup`, `Owns.use`, `Owns.free`: what giving out, following and
  taking back a handle does to the list;
* `slot`: the handle in a variable, which may be empty;
* `Wp`: what holds after a program with a state, with the rules for its parts.
-/

/-! ## Programs -/

section Wp

variable {σ α β : Type}

/-- After the program, run from a state, this holds of its result and of its state. -/
def Wp (x : StateM σ α) (s : σ) (Q : α → σ → Prop) : Prop := Q (x s).1 (x s).2

variable {x : StateM σ α} {f : α → StateM σ β} {s : σ}

theorem Wp.pure {a : α} {Q : α → σ → Prop} (h : Q a s) : Wp (Pure.pure a : StateM σ α) s Q := h

theorem Wp.bind {Q : β → σ → Prop} (h : Wp x s fun a s' => Wp (f a) s' Q) : Wp (x >>= f) s Q := h

theorem Wp.get {Q : σ → σ → Prop} (h : Q s s) : Wp (MonadState.get : StateM σ σ) s Q := h

theorem Wp.modify {g : σ → σ} {Q : PUnit → σ → Prop} (h : Q ⟨⟩ (g s)) :
    Wp (modify g : StateM σ PUnit) s Q := h

theorem Wp.conseq {P Q : α → σ → Prop} (h : Wp x s P) (hPQ : ∀ a s', P a s' → Q a s') : Wp x s Q :=
  hPQ _ _ h

theorem Wp.and {P Q : α → σ → Prop} (hP : Wp x s P) (hQ : Wp x s Q) :
    Wp x s fun a s' => P a s' ∧ Q a s' :=
  ⟨hP, hQ⟩

theorem Wp.ite {c : Prop} [Decidable c] {y : StateM σ α} {Q : α → σ → Prop} (hx : c → Wp x s Q)
    (hy : ¬c → Wp y s Q) : Wp (if c then x else y) s Q := by
  split_ifs with hc
  · exact hx hc
  · exact hy hc

/-- A program after one whose effect is known. -/
theorem Wp.seq {P : α → σ → Prop} {Q : β → σ → Prop} (h : Wp x s P)
    (hf : ∀ a s', P a s' → Wp (f a) s' Q) : Wp (x >>= f) s Q := hf _ _ h

end Wp

/-! ## Tables -/

variable {O : Type*}

/-- The handles that are live, each with its object, and whether one was misused. -/
structure Handles (O : Type*) where
  live : List (ℕ × O) := []
  misused : Bool := false

namespace Handles

/-- The number of the next handle: the one proposed, if it is free. -/
def number (t : Handles O) (proposed : ℕ) : ℕ :=
  if proposed ≠ 0 ∧ proposed ∉ t.live.map Prod.fst then proposed
  else (t.live.map Prod.fst).foldr max 0 + 1

/-- A new handle for an object. -/
def new (t : Handles O) (proposed : ℕ) (o : O) : Handles O :=
  { t with live := (t.number proposed, o) :: t.live }

/-- The object of a handle. -/
def lookup (t : Handles O) (h : ℕ) : Option O := t.live.lookup h

/-- A use of a handle, which is a misuse if it is not live. -/
def use (t : Handles O) (h : ℕ) : Handles O :=
  { t with misused := t.misused || h ∉ t.live.map Prod.fst }

/-- A handle is freed, which is a misuse if it is not live. -/
def free (t : Handles O) (h : ℕ) : Handles O :=
  { live := t.live.eraseP (·.1 = h), misused := t.misused || h ∉ t.live.map Prod.fst }

/-- The handles of the table are these. -/
structure Owns (t : Handles O) (l : List (ℕ × O)) : Prop where
  live : t.live.Perm l
  nodup : (l.map Prod.fst).Nodup
  ne_zero : ∀ e ∈ l, e.1 ≠ 0
  misused : t.misused = false

/-- The handle in a variable; none if the variable is zero. -/
def slot (h : ℕ) (o : O) : List (ℕ × O) := if h = 0 then [] else [(h, o)]

@[simp] theorem slot_zero (o : O) : slot 0 o = [] := rfl

theorem slot_of_ne {h : ℕ} (hne : h ≠ 0) (o : O) : slot h o = [(h, o)] := if_neg hne

variable {t : Handles O} {l l' : List (ℕ × O)} {h : ℕ} {o : O}

theorem owns_empty : Owns (O := O) {} [] :=
  ⟨.refl _, List.nodup_nil, List.forall_mem_nil _, rfl⟩

theorem Owns.perm (hown : Owns t l) (hl : l.Perm l') : Owns t l' where
  live := hown.live.trans hl
  nodup := ((hl.map Prod.fst).nodup_iff).1 hown.nodup
  ne_zero := fun e he => hown.ne_zero e (hl.mem_iff.2 he)
  misused := hown.misused

theorem number_ne_zero (t : Handles O) (proposed : ℕ) : t.number proposed ≠ 0 := by
  rw [number]
  split_ifs with hp
  · exact hp.1
  · exact Nat.succ_ne_zero _

theorem number_not_mem (t : Handles O) (proposed : ℕ) : t.number proposed ∉ t.live.map Prod.fst := by
  have hmax : ∀ ks : List ℕ, ∀ k ∈ ks, k ≤ ks.foldr max 0 := by
    intro ks
    induction ks with
    | nil => exact List.forall_mem_nil _
    | cons k ks ih =>
      refine List.forall_mem_cons.2 ⟨le_max_left _ _, fun k' hk' => ?_⟩
      exact (ih k' hk').trans (le_max_right _ _)
  rw [number]
  split_ifs with hp
  · exact hp.2
  · exact fun hmem => absurd (hmax _ _ hmem) (Nat.not_succ_le_self _)

theorem Owns.new (hown : Owns t l) (proposed : ℕ) (o : O) :
    Owns (t.new proposed o) ((t.number proposed, o) :: l) where
  live := hown.live.cons _
  nodup := by
    rw [List.map_cons, List.nodup_cons, ← (hown.live.map Prod.fst).mem_iff]
    exact ⟨number_not_mem t proposed, hown.nodup⟩
  ne_zero := List.forall_mem_cons.2 ⟨number_ne_zero t proposed, hown.ne_zero⟩
  misused := hown.misused

theorem Owns.mem_keys (hown : Owns t l) (hmem : (h, o) ∈ l) : h ∈ t.live.map Prod.fst :=
  (hown.live.map Prod.fst).mem_iff.2 (List.mem_map_of_mem hmem)

theorem Owns.nodup_live (hown : Owns t l) : (t.live.map Prod.fst).Nodup :=
  ((hown.live.map Prod.fst).nodup_iff).2 hown.nodup

/-- A handle leads to what it was given out for. -/
theorem Owns.lookup (hown : Owns t l) (hmem : (h, o) ∈ l) : t.lookup h = some o := by
  obtain ⟨before, after, hlive⟩ := List.append_of_mem (hown.live.mem_iff.2 hmem)
  have hnodup := hown.nodup_live
  rw [hlive, List.map_append, List.map_cons] at hnodup
  rw [Handles.lookup, List.lookup_eq_some_iff]
  refine ⟨before, after, hlive, fun e he => bne_iff_ne.2 fun heq => ?_⟩
  have hkey : h ∈ before.map Prod.fst := heq ▸ List.mem_map_of_mem he
  exact List.disjoint_of_nodup_append hnodup hkey List.mem_cons_self

/-- Using a handle leaves no trace. -/
theorem Owns.use (hown : Owns t l) (hmem : (h, o) ∈ l) : t.use h = t := by
  have hkeys := hown.mem_keys hmem
  rw [Handles.use]
  simp only [hkeys, not_true_eq_false, decide_false, Bool.or_false]

theorem Owns.free (hown : Owns t ((h, o) :: l)) : Owns (t.free h) l where
  live := by
    have hone : t.live.Pairwise fun a b => decide (a.1 = h) → decide (b.1 = h) → False := by
      refine (List.pairwise_map.1 hown.nodup_live).imp fun hne ha hb => hne ?_
      exact (of_decide_eq_true ha).trans (of_decide_eq_true hb).symm
    have hfirst : ((h, o) :: l).eraseP (fun e => decide (e.1 = h)) = l :=
      List.eraseP_cons_of_pos (decide_eq_true rfl)
    rw [← hfirst]
    exact hown.live.eraseP _ hone
  nodup := (List.nodup_cons.1 hown.nodup).2
  ne_zero := (List.forall_mem_cons.1 hown.ne_zero).2
  misused := by
    have hkeys := hown.mem_keys List.mem_cons_self
    simp only [Handles.free, hown.misused, hkeys, not_true_eq_false, decide_false, Bool.or_false]

end Handles
