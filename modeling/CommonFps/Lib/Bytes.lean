import Mathlib

/-!
# Byte strings

The operations of C++ on strings, on lists of bytes: searching (`find`,
`rfind`), cutting (`substr`), the classes of characters of the C locale and
what is built on them.

* `find_eq_some_iff`: `find` gives the first place of a pattern;
* `find_byte_append`, `exists_of_find_byte`: the first place of a byte cuts the
  string in two, the first part being without it;
* `find_crlf_append`: the first line end after a line without one.
-/

/-- A byte string. -/
abbrev Bytes := List UInt8

/-- The bytes of a text of ASCII characters. -/
def ascii (s : String) : Bytes := s.toList.map fun c => c.toNat.toUInt8

/-- The end of a line. -/
def crlf : Bytes := [13, 10]

/-! ## Searching and cutting -/

/-- The first place of a pattern. -/
def find (pat : Bytes) : Bytes → Option ℕ
  | [] => if pat = [] then some 0 else none
  | c :: s => if pat <+: c :: s then some 0 else (find pat s).map (· + 1)

/-- The first place of a pattern from `pos` on. -/
def findFrom (pat s : Bytes) (pos : ℕ) : Option ℕ := (find pat (s.drop pos)).map (pos + ·)

/-- The last place of a byte. -/
def rfind (c : UInt8) : Bytes → Option ℕ
  | [] => none
  | b :: s => match rfind c s with
    | some n => some (n + 1)
    | none => if b = c then some 0 else none

/-- At most `n` bytes from `pos` on, unless `pos` is out of range. -/
def substr (s : Bytes) (pos : ℕ) (n : ℕ := s.length) : Option Bytes :=
  if pos ≤ s.length then some ((s.drop pos).take n) else none

theorem find_eq_some_iff {pat s : Bytes} {n : ℕ} :
    find pat s = some n ↔ pat <+: s.drop n ∧ ∀ m < n, ¬pat <+: s.drop m := by
  induction s generalizing n with
  | nil =>
    rw [find]
    by_cases hp : pat = []
    · subst hp
      cases n with
      | zero => simp
      | succ n => simpa using ⟨0, n.zero_le⟩
    · simp [hp]
  | cons c s ih =>
    rw [find]
    split_ifs with hp
    · cases n with
      | zero => simp [hp]
      | succ n => simpa using fun _ => ⟨0, n.zero_le, hp⟩
    · cases n with
      | zero => simpa using hp
      | succ n =>
        rw [Option.map_eq_some_iff, List.drop_succ_cons]
        constructor
        · rintro ⟨k, hk, hkn⟩
          obtain rfl : k = n := Nat.succ.inj hkn
          refine ⟨(ih.1 hk).1, fun m hm => ?_⟩
          cases m with
          | zero => exact hp
          | succ m => exact (ih.1 hk).2 m (Nat.lt_of_succ_lt_succ hm)
        · rintro ⟨h₁, h₂⟩
          exact ⟨n, ih.2 ⟨h₁, fun m hm => h₂ (m + 1) (Nat.succ_lt_succ hm)⟩, rfl⟩

theorem find_eq_none_iff {pat s : Bytes} : find pat s = none ↔ ∀ n, ¬pat <+: s.drop n := by
  constructor
  · intro h n hn
    classical
    have hex : ∃ n, pat <+: s.drop n := ⟨n, hn⟩
    have := find_eq_some_iff.2 ⟨Nat.find_spec hex, fun m hm => Nat.find_min hex hm⟩
    rw [h] at this
    cases this
  · intro h
    cases hf : find pat s with
    | none => rfl
    | some n => exact absurd (find_eq_some_iff.1 hf).1 (h n)

/-- A pattern found is in the string. -/
theorem length_le_of_find {pat s : Bytes} {n : ℕ} (h : find pat s = some n) :
    n + pat.length ≤ s.length := by
  obtain ⟨h₁, h₂⟩ := find_eq_some_iff.1 h
  have hlen := h₁.length_le
  rw [List.length_drop] at hlen
  rcases le_or_gt n s.length with hn | hn
  · omega
  · -- Past the end only the empty pattern is found, but it is found at `0` first.
    have hp : pat = [] := List.length_eq_zero_iff.1 (by omega)
    exact absurd (hp ▸ List.nil_prefix) (h₂ 0 (by omega))

/-- What the place of a pattern cuts the string into. -/
theorem append_of_find {pat s : Bytes} {n : ℕ} (h : find pat s = some n) :
    s = s.take n ++ pat ++ s.drop (n + pat.length) := by
  obtain ⟨r, hr⟩ := (find_eq_some_iff.1 h).1
  have : s.drop (n + pat.length) = r := by
    rw [← List.drop_drop, ← hr, List.drop_left]
  rw [this, List.append_assoc, hr, List.take_append_drop]

/-- A pattern found in the beginning of a string is found there in the string. -/
theorem find_of_prefix {pat s t : Bytes} (hs : s <+: t) {n : ℕ} (h : find pat s = some n) :
    find pat t = some n := by
  obtain ⟨r, rfl⟩ := hs
  have hlen := length_le_of_find h
  obtain ⟨hn, hmin⟩ := find_eq_some_iff.1 h
  refine find_eq_some_iff.2 ⟨?_, fun m hm hp => hmin m hm ?_⟩
  · rw [List.drop_append_of_le_length (by omega)]
    exact hn.trans (List.prefix_append _ _)
  · rw [List.drop_append_of_le_length (by omega)] at hp
    exact List.prefix_of_prefix_length_le hp (List.prefix_append _ _) (by
      rw [List.length_drop]
      omega)

/-! ### A byte -/

theorem find_byte_append {c : UInt8} {l : Bytes} (h : c ∉ l) (r : Bytes) :
    find [c] (l ++ c :: r) = some l.length := by
  rw [find_eq_some_iff, List.drop_left]
  refine ⟨⟨r, rfl⟩, fun m hm hp => h ?_⟩
  rw [List.drop_append_of_le_length hm.le, List.drop_eq_getElem_cons hm] at hp
  rw [(List.cons_prefix_cons.1 hp).1]
  exact List.getElem_mem hm

theorem find_byte_eq_none_iff {c : UInt8} {s : Bytes} : find [c] s = none ↔ c ∉ s := by
  rw [find_eq_none_iff]
  constructor
  · intro h hc
    obtain ⟨l, r, rfl⟩ := List.append_of_mem hc
    exact h l.length (by rw [List.drop_left]; exact ⟨r, rfl⟩)
  · rintro h n ⟨r, hr⟩
    have hc : c ∈ s.drop n := by rw [← hr]; exact List.mem_cons_self
    exact h (List.mem_of_mem_drop hc)

theorem exists_of_find_byte {c : UInt8} {s : Bytes} {n : ℕ} (h : find [c] s = some n) :
    ∃ l r, s = l ++ c :: r ∧ l.length = n ∧ c ∉ l := by
  have hlen := length_le_of_find h
  rw [List.length_singleton] at hlen
  refine ⟨s.take n, s.drop (n + 1), ?_, List.length_take_of_le (by omega), fun hc => ?_⟩
  · simpa using append_of_find h
  · obtain ⟨m, hm, hcm⟩ := List.getElem_of_mem hc
    rw [List.length_take] at hm
    refine (find_eq_some_iff.1 h).2 m (by omega) ?_
    rw [List.drop_eq_getElem_cons (by omega)]
    rw [List.getElem_take] at hcm
    exact ⟨_, by rw [hcm]; rfl⟩

theorem rfind_eq_none_iff {c : UInt8} {s : Bytes} : rfind c s = none ↔ c ∉ s := by
  induction s with
  | nil => simp [rfind]
  | cons b s ih =>
    rw [rfind]
    cases h : rfind c s with
    | none => simp [ih.1 h, eq_comm]
    | some n => simpa [h] using fun _ => ih.not.1 (by simp [h])

theorem rfind_append {c : UInt8} {r : Bytes} (h : c ∉ r) (l : Bytes) :
    rfind c (l ++ c :: r) = some l.length := by
  induction l with
  | nil => simp [rfind, rfind_eq_none_iff.2 h]
  | cons b l ih => rw [List.cons_append, rfind, ih, List.length_cons]

theorem exists_of_rfind {c : UInt8} {s : Bytes} {n : ℕ} (h : rfind c s = some n) :
    ∃ l r, s = l ++ c :: r ∧ l.length = n ∧ c ∉ r := by
  induction s generalizing n with
  | nil => cases h
  | cons b s ih =>
    rw [rfind] at h
    cases hs : rfind c s with
    | some m =>
      obtain ⟨l, r, rfl, rfl, hr⟩ := ih hs
      rw [hs] at h
      exact ⟨b :: l, r, rfl, Option.some.inj h, hr⟩
    | none =>
      rw [hs] at h
      by_cases hb : b = c
      · rw [if_pos hb] at h
        exact ⟨[], s, by rw [hb]; rfl, Option.some.inj h, rfind_eq_none_iff.1 hs⟩
      · rw [if_neg hb] at h
        cases h

/-! ### A line end -/

/-- In a line without line ends, followed by one, no line end starts before it. -/
theorem not_crlf_prefix_drop {l : Bytes} (h : ¬crlf <:+: l) (r : Bytes) {m : ℕ}
    (hm : m < l.length) : ¬crlf <+: (l ++ crlf ++ r).drop m := by
  intro hp
  rw [List.append_assoc, List.drop_append_of_le_length hm.le] at hp
  obtain ⟨a, t, ht⟩ : ∃ a t, l.drop m = a :: t := ⟨_, _, List.drop_eq_getElem_cons hm⟩
  rw [ht] at hp
  cases t with
  | nil =>
    -- The last byte of the line, followed by a carriage return.
    obtain ⟨-, hp⟩ := List.cons_prefix_cons.1 hp
    exact absurd (List.cons_prefix_cons.1 hp).1 (by decide)
  | cons b t =>
    obtain ⟨ha, hp⟩ := List.cons_prefix_cons.1 hp
    have hb := (List.cons_prefix_cons.1 hp).1
    have hl : crlf <+: l.drop m := ⟨t, by rw [ht, ← ha, ← hb]; rfl⟩
    exact h (hl.isInfix.trans (List.drop_suffix m l).isInfix)

theorem find_crlf_append {l : Bytes} (h : ¬crlf <:+: l) (r : Bytes) :
    find crlf (l ++ crlf ++ r) = some l.length := by
  refine find_eq_some_iff.2 ⟨?_, fun m hm => not_crlf_prefix_drop h r hm⟩
  rw [List.append_assoc, List.drop_left]
  exact ⟨r, rfl⟩

theorem exists_of_find_crlf {s : Bytes} {n : ℕ} (h : find crlf s = some n) :
    ∃ l r, s = l ++ crlf ++ r ∧ l.length = n ∧ ¬crlf <:+: l := by
  have hlen := length_le_of_find h
  refine ⟨_, _, append_of_find h, List.length_take_of_le (by omega), ?_⟩
  rintro ⟨a, b, hab⟩
  have hl := congrArg List.length hab
  rw [List.length_append, List.length_append, List.length_take] at hl
  have hpos : crlf.length = 2 := rfl
  refine (find_eq_some_iff.1 h).2 a.length (by omega) ⟨b ++ s.drop n, ?_⟩
  calc crlf ++ (b ++ s.drop n) = (a ++ crlf ++ b ++ s.drop n).drop a.length := by
        simp only [List.append_assoc, List.drop_left]
    _ = s.drop a.length := by rw [hab, List.take_append_drop]

section Line

variable {line pat s : Bytes} (h : ¬crlf <:+: line)
include h

/-- A line end followed by a pattern, in a text starting with a line, is in the
    rest of the text, unless it is at the end of the line. -/
theorem crlf_prefix_drop (hs : ¬pat <+: s) {n : ℕ}
    (hn : crlf ++ pat <+: (line ++ crlf ++ s).drop n) :
    ∃ k, n = line.length + 2 + k ∧ crlf ++ pat <+: s.drop k := by
  have hge : line.length ≤ n := by
    by_contra hlt
    exact not_crlf_prefix_drop h s (not_le.1 hlt) ((List.prefix_append _ _).trans hn)
  obtain ⟨k, rfl⟩ := Nat.exists_eq_add_of_le hge
  rw [List.append_assoc, ← List.drop_drop, List.drop_left] at hn
  match k, hn with
  | 0, hn => exact absurd ((List.prefix_append_right_inj crlf).1 hn) hs
  | 1, hn => exact absurd (List.cons_prefix_cons.1 hn).1 (by decide)
  | k + 2, hn => exact ⟨k, by omega, hn⟩

theorem find_line_append (hs : ¬pat <+: s) :
    find (crlf ++ pat) (line ++ crlf ++ s) = (find (crlf ++ pat) s).map (line.length + 2 + ·) := by
  cases hf : find (crlf ++ pat) s with
  | none =>
    refine find_eq_none_iff.2 fun n hn => ?_
    obtain ⟨k, -, hk⟩ := crlf_prefix_drop h hs hn
    exact find_eq_none_iff.1 hf k hk
  | some k =>
    obtain ⟨hk, hmin⟩ := find_eq_some_iff.1 hf
    refine find_eq_some_iff.2 ⟨?_, fun m hm hp => ?_⟩
    · rwa [← List.drop_drop, List.drop_left' (by rw [List.length_append]; rfl)]
    · obtain ⟨k', rfl, hk'⟩ := crlf_prefix_drop h hs hp
      exact hmin k' (Nat.lt_of_add_lt_add_left hm) hk'

theorem find_line_append_of_prefix (hs : pat <+: s) :
    find (crlf ++ pat) (line ++ crlf ++ s) = some line.length := by
  refine find_eq_some_iff.2 ⟨?_, fun m hm hp => ?_⟩
  · rw [List.append_assoc, List.drop_left]
    exact (List.prefix_append_right_inj crlf).2 hs
  · exact not_crlf_prefix_drop h _ hm ((List.prefix_append _ _).trans hp)

end Line
