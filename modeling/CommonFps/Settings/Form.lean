import CommonFps.Settings.Text

/-!
# The form of the settings

The form that the settings page posts (`parse_settings_form` in
`settings.cpp`): seven fields, each once, in percent encoding, and in range. An
outer `none` stands for an access out of range, or for a loop that does not end;
there is none of them (`parseSettingsForm_isSome`).

* `unescape`, `formFields`: the decoding of the fields;
* `formConfig`: their meaning;
* `whole_of_parseSettingsForm`: what a form holds is in range, with whole
  margins;
* `formFields_last`, `formFields_append`: how a form is read field by field.
-/

namespace CommonFps

/-- A map from strings to strings. -/
abbrev Entries := List (Bytes × Bytes)

/-- Insertion, unless there is an entry. -/
def emplace (entries : Entries) (key value : Bytes) : Option Entries :=
  if (entries.lookup key).isSome then none else some ((key, value) :: entries)

/-- The entry of a key, inserted if missing, and the map afterwards. -/
def entryAt (entries : Entries) (key : Bytes) : Bytes × Entries :=
  match entries.lookup key with
  | some value => (value, entries)
  | none => ([], (key, []) :: entries)

/-- A decoded byte before a decoded text, if it is printable. -/
def printable (c : UInt8) (text : Option Bytes) : Option Bytes :=
  if 32 ≤ c ∧ c ≤ 126 then text.map (c :: ·) else none

/-- The bytes that an encoded value stands for. -/
def unescape : Bytes → Option Bytes
  | [] => some []
  | c :: text =>
    if c = 37 then
      match text with
      | h :: l :: text => match hexValue h, hexValue l with
        | some h, some l => printable (h * 16 + l).toUInt8 (unescape text)
        | _, _ => none
      | _ => none
    else printable (if c = 43 then 32 else c) (unescape text)

/-- A number of one to three digits within bounds. -/
def integer (s : Bytes) (min max : ℕ) : Option ℕ :=
  if s = [] ∨ 3 < s.length ∨ ¬s.all isDigit then none
  else if readNumeral 10 s < min ∨ max < readNumeral 10 s then none
  else some (readNumeral 10 s)

/-- The fields with the one that `part` is, `key=value`. -/
def formField (part : Bytes) (fields : Entries) : Option (Option Entries) := do
  let some eq := find [61] part | return none
  let some key := unescape (← substr part 0 eq) | return none
  let some value := unescape (← substr part (eq + 1)) | return none
  return emplace fields key value

/-- The loop over the fields: those of `body`, after those read so far. -/
def formFields : ℕ → Bytes → Entries → Option (Option Entries)
  | 0, _, _ => none
  | fuel + 1, body, fields => do
    if body = [] then return fields
    let amp := find [38] body
    let part ← substr body 0 (amp.getD body.length)
    let some fields ← formField part fields | return none
    let some amp := amp | return fields
    let rest ← substr body (amp + 1)
    if rest = [] then return none
    formFields fuel rest fields

/-- The corner of a posted value. -/
def formCorner (corner : Bytes) : Option Corner :=
  if corner = ascii "top_left" then some .topLeft
  else if corner = ascii "top_right" then some .topRight
  else if corner = ascii "bottom_left" then some .bottomLeft
  else if corner = ascii "bottom_right" then some .bottomRight
  else none

/-- The colour of a posted value. -/
def formColor (color : Bytes) : Option UInt32 :=
  if color.length ≠ 7 ∨ color.head? ≠ some 35 ∨ ¬color.tail.all isHexDigit then none
  else some (readNumeral 16 color.tail).toUInt32

/-- The fields of a form, all of which are needed. -/
def formKeys : List Bytes :=
  [ascii "corner", ascii "font_size", ascii "margin_x", ascii "margin_y", ascii "show_label",
    ascii "label_color", ascii "value_color"]

/-- The configuration that the fields of a form mean. -/
def formConfig (fields : Entries) : Option OverlayConfig := do
  if fields.length ≠ 7 ∨ ¬formKeys.all fun key => (fields.lookup key).isSome then none
  let field key := (fields.lookup key).getD []
  let corner ← formCorner (field (ascii "corner"))
  let fontSize ← integer (field (ascii "font_size")) kMinFontSize.toNat kMaxFontSize.toNat
  let marginX ← integer (field (ascii "margin_x")) 0 240
  let marginY ← integer (field (ascii "margin_y")) 0 240
  let label ← integer (field (ascii "show_label")) 0 1
  let labelColor ← formColor (field (ascii "label_color"))
  let valueColor ← formColor (field (ascii "value_color"))
  return { corner, fontSize, marginX := .finite marginX, marginY := .finite marginY,
           showLabel := label ≠ 0, labelColor, valueColor }

/-- The settings of a form, unless the form is refused. -/
def parseSettingsForm (body : Bytes) : Option (Option OverlayConfig) := do
  if body = [] ∨ 512 < body.length then return none
  let some fields ← formFields body.length body [] | return none
  return formConfig fields

/-! ## Strings and maps -/

theorem substr_eq_some {s : Bytes} {pos n : ℕ} (h : pos ≤ s.length) :
    substr s pos n = some ((s.drop pos).take n) := if_pos h

/-- What follows a byte that was found. -/
theorem substr_append {l : Bytes} {c : UInt8} {r : Bytes} :
    substr (l ++ c :: r) (l.length + 1) = some r := by
  rw [substr_eq_some (by rw [List.length_append, List.length_cons]; omega), ← List.drop_drop,
    List.drop_left, List.drop_one, List.tail_cons, List.take_of_length_le]
  rw [List.length_append, List.length_cons]
  omega

/-- What precedes a byte that was found. -/
theorem substr_append_left {l r : Bytes} : substr (l ++ r) 0 l.length = some l := by
  rw [substr_eq_some (Nat.zero_le _), List.drop_zero, List.take_left]

/-- A key read as a value that is not empty has it. -/
theorem lookup_of_entryAt {entries : Entries} {key value : Bytes}
    (h : (entryAt entries key).1 = value) (hne : value ≠ []) :
    entries.lookup key = some value ∧ (entryAt entries key).2 = entries := by
  rw [entryAt] at h ⊢
  cases hk : entries.lookup key with
  | some value' =>
    rw [hk] at h
    exact ⟨congrArg some h, rfl⟩
  | none =>
    rw [hk] at h
    exact absurd h.symm hne

theorem lookup_eq_some_iff {entries : Entries} (h : (entries.map Prod.fst).Nodup) {key value : Bytes} :
    entries.lookup key = some value ↔ (key, value) ∈ entries := by
  induction entries with
  | nil => simp
  | cons entry entries ih =>
    obtain ⟨k, v⟩ := entry
    rw [List.map_cons, List.nodup_cons] at h
    rw [List.lookup_cons, List.mem_cons, Prod.mk.injEq]
    by_cases hk : key = k
    · rw [hk, beq_self_eq_true]
      have hno : (k, value) ∉ entries := fun hmem => h.1 (List.mem_map.2 ⟨_, hmem, rfl⟩)
      simp [hno, eq_comm]
    · rw [beq_eq_false_iff_ne.2 hk]
      simpa [hk] using ih h.2

theorem lookup_eq_none_iff {entries : Entries} {key : Bytes} :
    entries.lookup key = none ↔ key ∉ entries.map Prod.fst := by
  induction entries with
  | nil => simp
  | cons entry entries ih =>
    obtain ⟨k, v⟩ := entry
    rw [List.lookup_cons, List.map_cons, List.mem_cons, not_or]
    by_cases hk : key = k
    · simp [hk]
    · rw [beq_eq_false_iff_ne.2 hk]
      simpa [hk] using ih

theorem emplace_eq_some {entries entries' : Entries} {key value : Bytes} :
    emplace entries key value = some entries' ↔
      key ∉ entries.map Prod.fst ∧ (key, value) :: entries = entries' := by
  rw [emplace, ← lookup_eq_none_iff]
  cases entries.lookup key <;> simp

theorem unescape_cons {c : UInt8} (hc : c ≠ 37) (text : Bytes) :
    unescape (c :: text) = printable (if c = 43 then 32 else c) (unescape text) := by
  rw [unescape.eq_def]
  simp only [if_neg hc]

theorem unescape_percent {h l : UInt8} {high low : ℕ} (hh : hexValue h = some high)
    (hl : hexValue l = some low) (text : Bytes) :
    unescape (37 :: h :: l :: text) = printable (high * 16 + low).toUInt8 (unescape text) := by
  rw [unescape.eq_def]
  simp only [if_pos, hh, hl]

/-! ## Reading field by field -/

theorem formField_eq {k v key value : Bytes} (hk : 61 ∉ k) (hkey : unescape k = some key)
    (hvalue : unescape v = some value) (fields : Entries) :
    formField (k ++ 61 :: v) fields = some (emplace fields key value) := by
  rw [formField, find_byte_append hk]
  simp only [substr_append_left, substr_append, Option.bind_eq_bind, Option.bind_some, hkey, hvalue]
  rfl

theorem formField_isSome (part : Bytes) (fields : Entries) : (formField part fields).isSome := by
  rw [formField]
  cases heq : find [61] part with
  | none => rfl
  | some eq =>
    obtain ⟨k, v, rfl, rfl, hk⟩ := exists_of_find_byte heq
    simp only [substr_append_left, substr_append, Option.bind_eq_bind, Option.bind_some]
    cases unescape k with
    | none => rfl
    | some key => cases unescape v <;> rfl

/-- The last round of the loop. -/
theorem formFields_last {part : Bytes} (hpart : 38 ∉ part) (hne : part ≠ []) (fields : Entries)
    (fuel : ℕ) : formFields (fuel + 1) part fields = formField part fields := by
  have hsub : substr part 0 part.length = some part := by
    rw [substr_eq_some (Nat.zero_le _), List.drop_zero, List.take_length]
  rw [formFields, if_neg hne, find_byte_eq_none_iff.2 hpart]
  simp only [Option.getD_none, hsub, Option.bind_eq_bind, Option.bind_some]
  rcases formField part fields with _ | _ | fields' <;> rfl

/-- A round of the loop with items left. -/
theorem formFields_append {part rest : Bytes} (hpart : 38 ∉ part) {fields fields' : Entries}
    {fuel : ℕ} : formFields (fuel + 1) (part ++ 38 :: rest) fields = some (some fields') ↔
      ∃ fields'', formField part fields = some (some fields'') ∧ rest ≠ [] ∧
        formFields fuel rest fields'' = some (some fields') := by
  rw [formFields, if_neg (by simp), find_byte_append hpart]
  simp only [Option.getD_some, substr_append_left, substr_append, Option.bind_eq_bind,
    Option.bind_some]
  rcases formField part fields with _ | _ | fields''
  · simp
  · simp
  · by_cases hrest : rest = [] <;> simp [hrest]

/-- Each round of the loop takes a field off the body. -/
theorem formFields_isSome {fuel : ℕ} {body : Bytes} (hlen : body.length ≤ fuel) (hne : body ≠ [])
    (fields : Entries) : (formFields fuel body fields).isSome := by
  induction fuel generalizing body fields with
  | zero => exact absurd (List.length_eq_zero_iff.1 (Nat.le_zero.1 hlen)) hne
  | succ fuel ih =>
    cases hamp : find [38] body with
    | none =>
      rw [formFields_last (find_byte_eq_none_iff.1 hamp) hne]
      exact formField_isSome body fields
    | some amp =>
      obtain ⟨part, rest, rfl, rfl, -⟩ := exists_of_find_byte hamp
      obtain ⟨fields', hf⟩ := Option.isSome_iff_exists.1 (formField_isSome part fields)
      rw [formFields, if_neg hne, hamp]
      simp only [Option.getD_some, substr_append_left, substr_append, Option.bind_eq_bind,
        Option.bind_some, hf]
      cases fields' with
      | none => rfl
      | some fields' =>
        by_cases hrest : rest = []
        · simp only [if_pos hrest]
          rfl
        · simp only [if_neg hrest]
          rw [List.length_append, List.length_cons] at hlen
          exact ih (by omega) hrest fields'

/-- Every access is in range, and the loop ends. -/
theorem parseSettingsForm_isSome (body : Bytes) : (parseSettingsForm body).isSome := by
  rw [parseSettingsForm]
  split_ifs with h
  · rfl
  · obtain ⟨fields, hf⟩ := Option.isSome_iff_exists.1
      (formFields_isSome le_rfl (fun hb : body = [] => h (.inl hb)) [])
    rw [hf]
    cases fields <;> rfl

/-! ## What a form holds -/

theorem integer_eq_some_iff {s : Bytes} {min max n : ℕ} :
    integer s min max = some n ↔ (1 ≤ s.length ∧ s.length ≤ 3 ∧ (∀ c ∈ s, isDigit c) ∧
      readNumeral 10 s = n) ∧ min ≤ n ∧ n ≤ max := by
  have hpos : 1 ≤ s.length ↔ s ≠ [] := List.length_pos_iff
  rw [hpos, ← List.all_eq_true, integer]
  split_ifs with hform hrange
  · grind
  · grind
  · grind

theorem integer_eq_some {s : Bytes} {min max n : ℕ} (h : integer s min max = some n) :
    min ≤ n ∧ n ≤ max := (integer_eq_some_iff.1 h).2

theorem integer_numeral {n min max : ℕ} (h₁ : min ≤ n) (h₂ : n ≤ max) (h : n < 10 ^ 3) :
    integer (numeral 10 n) min max = some n := by
  have hlen : (numeral 10 n).length ≤ 3 := length_numeral_le (by norm_num) h (by norm_num)
  have hall : (numeral 10 n).all isDigit := List.all_eq_true.2 fun _ => isDigit_of_mem_numeral
  rw [integer, readNumeral_numeral (by norm_num) (by norm_num), if_neg, if_neg (by omega)]
  rintro (hnil | hlong | hdigit)
  · exact numeral_ne_nil 10 n hnil
  · omega
  · exact hdigit hall

theorem formCorner_eq_some {s : Bytes} {corner : Corner} (h : formCorner s = some corner) :
    sanitizeCorner corner = corner := by
  rw [formCorner] at h
  split_ifs at h <;> cases h <;> rfl

theorem formColor_eq_some {s : Bytes} {color : UInt32} (h : formColor s = some color) :
    color &&& 0xFFFFFF = color := by
  rw [formColor] at h
  split_ifs at h with hc
  cases h
  push Not at hc
  have hlt : readNumeral 16 s.tail < 2 ^ 24 := by
    have := readNumeral_lt (b := 16) le_rfl s.tail
    rwa [List.length_tail, hc.1] at this
  rw [← UInt32.toNat_inj, UInt32.toNat_and, Nat.toUInt32,
    UInt32.toNat_ofNat_of_lt' (hlt.trans (by decide))]
  exact (Nat.and_two_pow_sub_one_eq_mod _ 24).trans (Nat.mod_eq_of_lt hlt)

theorem sanitizeMargin_of_le {n : ℕ} (h : n ≤ 240) (q : ℚ) :
    sanitizeMargin (.finite n) q = .finite n := by
  rw [sanitizeMargin_finite, clamp_of_mem n.cast_nonneg (by exact_mod_cast h)]

theorem whole_of_formConfig {fields : Entries} {cfg : OverlayConfig}
    (h : formConfig fields = some cfg) : Whole cfg := by
  rw [formConfig] at h
  split_ifs at h
  · cases h
  simp only [Option.bind_eq_bind, Option.bind_eq_some_iff, Option.pure_def] at h
  obtain ⟨corner, hcorner, fontSize, hfont, x, hx, y, hy, label, hlabel, labelColor, hl,
    valueColor, hv, h⟩ := h
  cases h
  refine ⟨?_, ⟨x, rfl⟩, ⟨y, rfl⟩⟩
  obtain ⟨hmin, hmax⟩ := integer_eq_some hfont
  have hmin : kMinFontSize ≤ fontSize := Int.ofNat_le.2 hmin
  have hmax : (fontSize : ℤ) ≤ kMaxFontSize := Int.ofNat_le.2 hmax
  rw [sanitizeConfig]
  simp only [formCorner_eq_some hcorner, formColor_eq_some hl, formColor_eq_some hv,
    sanitizeMargin_of_le (integer_eq_some hx).2, sanitizeMargin_of_le (integer_eq_some hy).2]
  rw [clamp_of_mem hmin hmax]

/-- What a form holds is in range, with whole margins. -/
theorem whole_of_parseSettingsForm {body : Bytes} {cfg : OverlayConfig}
    (h : parseSettingsForm body = some (some cfg)) : Whole cfg := by
  rw [parseSettingsForm] at h
  split_ifs at h
  · cases h
  simp only [Option.bind_eq_bind, Option.bind_eq_some_iff] at h
  obtain ⟨fields, -, h⟩ := h
  cases fields with
  | none => cases h
  | some fields => exact whole_of_formConfig (Option.some.inj h)

theorem length_of_parseSettingsForm {body : Bytes} {cfg : OverlayConfig}
    (h : parseSettingsForm body = some (some cfg)) : body ≠ [] ∧ body.length ≤ 512 := by
  rw [parseSettingsForm] at h
  split_ifs at h with hbody
  · cases h
  · exact ⟨fun hnil => hbody (.inl hnil), not_lt.1 fun hlen => hbody (.inr hlen)⟩

end CommonFps
