import Mathlib

/-!
# Scans

Three things that a scan does: it collects what it finds without duplicates, as
long as there is room (`addNew`); it may look at its range through windows that
overlap; and it chooses what costs least (`leastStep`).

* `map_foldl_addNew`: what is collected is the beginning of what is found, less
  the duplicates;
* `foldl_addNew_again`: to find the same again adds nothing;
* `foldl_windows`: where to visit a place again changes nothing, windows that
  overlap in one place visit what a plain scan visits;
* `foldl_leastStep`: a scan that keeps what costs less than all before chooses the
  first of those that cost least.
-/

section Collect

variable {α κ : Type*} [DecidableEq κ] (key : α → κ) (room : ℕ)

/-- One more element, unless one with the same key is there, or there is no room. -/
def addNew (found : List α) (a : α) : List α :=
  if key a ∈ found.map key ∨ found.length = room then found else found ++ [a]

variable {key room} {found l : List α} {a b : α}

/-- An element that cannot be added any more. -/
theorem addNew_eq_self_iff :
    addNew key room found a = found ↔ key a ∈ found.map key ∨ found.length = room := by
  rw [addNew]
  split_ifs with h
  · exact iff_of_true rfl h
  · exact iff_of_false (by simp) h

theorem addNew_addNew : addNew key room (addNew key room found a) a = addNew key room found a := by
  rw [addNew_eq_self_iff, addNew]
  split_ifs with h
  · exact h
  · exact .inl (by simp)

theorem addNew_mono (h : addNew key room found a = found) :
    addNew key room (addNew key room found b) a = addNew key room found b := by
  rw [addNew_eq_self_iff] at h ⊢
  rw [addNew]
  split_ifs with hb
  · exact h
  · rw [not_or] at hb
    exact .inl (by simpa using .inl (by simpa using h.resolve_right hb.2))

/-- After all of `l` was added, nothing of it can be. -/
theorem addNew_foldl (ha : a ∈ l ∨ addNew key room found a = found) :
    addNew key room (l.foldl (addNew key room) found) a = l.foldl (addNew key room) found := by
  induction l generalizing found with
  | nil => exact ha.resolve_left List.not_mem_nil
  | cons b l ih =>
    rw [List.foldl_cons]
    refine ih ?_
    rcases ha with ha | ha
    · rcases List.mem_cons.1 ha with rfl | ha
      · exact .inr addNew_addNew
      · exact .inl ha
    · exact .inr (addNew_mono ha)

theorem foldl_addNew_of_forall (h : ∀ a ∈ l, addNew key room found a = found) :
    l.foldl (addNew key room) found = found := by
  induction l with
  | nil => rfl
  | cons a l ih =>
    rw [List.foldl_cons, h a List.mem_cons_self]
    exact ih fun b hb => h b (List.mem_cons_of_mem _ hb)

theorem foldl_addNew_again (l found : List α) :
    l.foldl (addNew key room) (l.foldl (addNew key room) found) =
      l.foldl (addNew key room) found :=
  foldl_addNew_of_forall fun _ ha => addNew_foldl (.inl ha)

theorem eraseDups_concat (ks : List κ) (k : κ) :
    (ks ++ [k]).eraseDups = if k ∈ ks then ks.eraseDups else ks.eraseDups ++ [k] := by
  rw [List.eraseDups_append]
  split_ifs with h <;> simp [List.removeAll, h, List.eraseDups_cons]

/-- The keys that are collected, in the order in which they are first found. -/
theorem map_foldl_addNew (l : List α) :
    (l.foldl (addNew key room) []).map key = ((l.map key).eraseDups).take room := by
  induction l using List.reverseRecOn with
  | nil => simp
  | append_singleton l a ih =>
    have hlen : (l.foldl (addNew key room) []).length = min room (l.map key).eraseDups.length := by
      rw [← List.length_map (f := key), ih, List.length_take]
    rw [List.foldl_append, List.foldl_cons, List.foldl_nil, List.map_append, List.map_singleton,
      eraseDups_concat, addNew, ih, hlen]
    by_cases hmem : key a ∈ l.map key
    · rw [if_pos hmem, if_pos, ih]
      -- A key that was found is collected, or was found when there was no room.
      by_contra hno
      rw [not_or] at hno
      refine hno.1 ?_
      rw [List.take_of_length_le (by omega)]
      exact List.mem_eraseDups.2 hmem
    · rw [if_neg hmem]
      have hnot : key a ∉ (l.map key).eraseDups.take room :=
        fun h => hmem (List.mem_eraseDups.1 (List.mem_of_mem_take h))
      split_ifs with hfull
      · have hroom := hfull.resolve_left hnot
        rw [ih, List.take_append_of_le_length (by omega)]
      · rw [not_or] at hfull
        rw [List.map_append, ih, List.map_singleton, List.take_of_length_le (by omega),
          List.take_of_length_le (by rw [List.length_append, List.length_singleton]; omega)]

end Collect

section Windows

variable {S : Type*} {visit : S → ℕ → S} {k : ℕ}

/-- A window begins in the last place of what was visited before. -/
theorem foldl_window (hvisit : ∀ s i, visit (visit s i) i = visit s i) (n : ℕ) (s : S) :
    (List.range (k + 1)).foldl (fun s i => visit s (n + i)) ((List.range (n + 1)).foldl visit s) =
      (List.range (n + 1 + k)).foldl visit s := by
  have hagain : visit ((List.range (n + 1)).foldl visit s) n = (List.range (n + 1)).foldl visit s := by
    rw [List.range_succ, List.foldl_append, List.foldl_cons, List.foldl_nil, hvisit]
  have hrest : (List.range (n + 1 + k)).foldl visit s =
      (List.range k).foldl (fun s i => visit s (n + 1 + i)) ((List.range (n + 1)).foldl visit s) := by
    rw [List.range_add, List.foldl_append, List.foldl_map]
  rw [hrest]
  generalize (List.range (n + 1)).foldl visit s = t at hagain ⊢
  rw [List.range_succ_eq_map, List.foldl_cons, List.foldl_map, Nat.add_zero, hagain]
  refine congrArg (fun f => (List.range k).foldl f _) ?_
  funext s i
  exact congrArg _ (by omega)

/-- Windows of `k + 1` places, each of which begins in the last place of the one
    before. -/
theorem foldl_windows (hvisit : ∀ s i, visit (visit s i) i = visit s i) (m : ℕ) (s : S) :
    (List.range (m + 1)).foldl
      (fun s w => (List.range (k + 1)).foldl (fun s i => visit s (k * w + i)) s) s =
        (List.range (k * (m + 1) + 1)).foldl visit s := by
  induction m with
  | zero => simp
  | succ m ih =>
    have hrange : k * (m + 1 + 1) + 1 = k * (m + 1) + 1 + k := by ring
    rw [List.range_succ (n := m + 1), List.foldl_append, ih, List.foldl_cons, List.foldl_nil, hrange,
      foldl_window hvisit]

end Windows

section Least

variable {cost : ℕ → Option ℕ} {n start limit : ℕ}

/-- Keeps the place and its cost, if it costs less than the best so far. -/
def leastStep (cost : ℕ → Option ℕ) (best : ℕ × ℕ) (i : ℕ) : ℕ × ℕ :=
  match cost i with
  | none => best
  | some c => if c < best.2 then (i, c) else best

/-- Of the first `n` places, `i` is the first of those that cost least. -/
def FirstLeast (cost : ℕ → Option ℕ) (n i c : ℕ) : Prop :=
  i < n ∧ cost i = some c ∧ ∀ j < n, ∀ c', cost j = some c' → c ≤ c' ∧ (j < i → c < c')

variable (start) in

theorem foldl_leastStep (hlimit : ∀ i c, cost i = some c → c < limit) (n : ℕ) :
    ((List.range n).foldl (leastStep cost) (start, limit) = (start, limit) ∧
      ∀ i < n, cost i = none) ∨
    FirstLeast cost n ((List.range n).foldl (leastStep cost) (start, limit)).1
      ((List.range n).foldl (leastStep cost) (start, limit)).2 := by
  induction n with
  | zero => exact .inl ⟨rfl, fun i hi => absurd hi i.not_lt_zero⟩
  | succ n ih =>
    rw [List.range_succ, List.foldl_append, List.foldl_cons, List.foldl_nil]
    generalize (List.range n).foldl (leastStep cost) (start, limit) = best at ih ⊢
    rw [leastStep]
    cases hcost : cost n with
    | none =>
      -- Nothing new to choose from.
      rcases ih with ⟨hbest, hnone⟩ | ⟨hlt, hc, hleast⟩
      · refine .inl ⟨hbest, fun i hi => ?_⟩
        rcases Nat.lt_succ_iff_lt_or_eq.1 hi with hi | rfl
        · exact hnone i hi
        · exact hcost
      · refine .inr ⟨hlt.trans n.lt_succ_self, hc, fun j hj c' hc' => ?_⟩
        rcases Nat.lt_succ_iff_lt_or_eq.1 hj with hj | rfl
        · exact hleast j hj c' hc'
        · rw [hcost] at hc'
          cases hc'
    | some c =>
      dsimp only
      split_ifs with hless
      · refine .inr ⟨n.lt_succ_self, hcost, fun j hj c' hc' => ?_⟩
        rcases Nat.lt_succ_iff_lt_or_eq.1 hj with hj | rfl
        · rcases ih with ⟨-, hnone⟩ | ⟨-, -, hleast⟩
          · simp [hnone j hj] at hc'
          · have hbest := (hleast j hj c' hc').1
            exact ⟨(hless.trans_le hbest).le, fun _ => hless.trans_le hbest⟩
        · rw [hcost] at hc'
          cases hc'
          exact ⟨le_rfl, fun h => absurd h (lt_irrefl _)⟩
      · rcases ih with ⟨hbest, -⟩ | ⟨hlt, hc, hleast⟩
        · exact absurd (hbest ▸ hlimit n c hcost) hless
        · refine .inr ⟨hlt.trans n.lt_succ_self, hc, fun j hj c' hc' => ?_⟩
          rcases Nat.lt_succ_iff_lt_or_eq.1 hj with hj | rfl
          · exact hleast j hj c' hc'
          · rw [hcost] at hc'
            cases hc'
            exact ⟨Nat.le_of_not_lt hless, fun h => absurd h hlt.not_gt⟩

end Least
