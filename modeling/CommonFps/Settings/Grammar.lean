import CommonFps.Settings.Form

/-!
# The grammar of the form

Which bodies the parser of the settings form accepts, and what they mean: seven
items separated by `&`, each an encoded key and an encoded value, in any order.

* `Decodes`, `Denotes`: the encodings of a text, and the notations of a number;
* `FormValues.Mean`: the configuration that values denote;
* `IsForm`: the bodies that mean a configuration;
* `parseSettingsForm_eq_some_iff`: they are those that the parser accepts.
-/

namespace CommonFps

/-! ## Texts and numbers -/

/-- The text is printable, and encoded as this: each byte as itself, or in
    hexadecimal after a `%`, a space also as `+`. -/
inductive Decodes : Bytes → Bytes → Prop
  | nil : Decodes [] []
  | plain {c : UInt8} {s t : Bytes} (hc : c ≠ 37 ∧ c ≠ 43) (hp : 32 ≤ c ∧ c ≤ 126)
      (h : Decodes s t) : Decodes (c :: s) (c :: t)
  | plus {s t : Bytes} (h : Decodes s t) : Decodes (43 :: s) (32 :: t)
  | percent {c hi lo : UInt8} {high low : ℕ} {s t : Bytes} (hhi : hexValue hi = some high)
      (hlo : hexValue lo = some low) (hc : c.toNat = high * 16 + low) (hp : 32 ≤ c ∧ c ≤ 126)
      (h : Decodes s t) : Decodes (37 :: hi :: lo :: s) (c :: t)

/-- The number in base `b` that digits denote. -/
inductive Denotes (b : ℕ) : Bytes → ℕ → Prop
  | nil : Denotes b [] 0
  | snoc {s : Bytes} {n : ℕ} {c : UInt8} {d : ℕ} (h : Denotes b s n) (hc : hexValue c = some d)
      (hd : d < b) : Denotes b (s ++ [c]) (n * b + d)

theorem printable_eq_some {c : UInt8} {text : Option Bytes} {t : Bytes} :
    printable c text = some t ↔ (32 ≤ c ∧ c ≤ 126) ∧ ∃ t', text = some t' ∧ c :: t' = t := by
  rw [printable]
  split_ifs with h
  · simp only [h, Option.map_eq_some_iff, true_and, and_self]
  · simp only [h, false_and]

theorem hexValue_lt {c : UInt8} {d : ℕ} (h : hexValue c = some d) : d < 16 := by
  have := hexValue_getD_lt c
  rwa [h, Option.getD_some] at this

theorem unescape_of_decodes {s t : Bytes} (h : Decodes s t) : unescape s = some t := by
  induction h with
  | nil => rfl
  | plain hc hp _ ih =>
    rw [unescape_cons hc.1, if_neg hc.2, printable_eq_some]
    exact ⟨hp, _, ih, rfl⟩
  | plus _ ih =>
    rw [unescape_cons (by decide), if_pos rfl, printable_eq_some]
    exact ⟨by decide, _, ih, rfl⟩
  | percent hhi hlo hc hp _ ih =>
    rw [unescape_percent hhi hlo, ← hc, Nat.toUInt8, UInt8.ofNat_toNat, printable_eq_some]
    exact ⟨hp, _, ih, rfl⟩

theorem decodes_of_unescape {s t : Bytes} (h : unescape s = some t) : Decodes s t := by
  fun_induction unescape s generalizing t with
  | case1 => cases h; exact .nil
  | case2 hi lo s high low hlo hhi ih =>
    obtain ⟨hp, t, ht, rfl⟩ := printable_eq_some.1 h
    have hhi' := hexValue_lt hhi
    have hlo' := hexValue_lt hlo
    refine .percent hhi hlo (UInt8.toNat_ofNat_of_lt' ?_) hp (ih ht)
    exact (by omega : high * 16 + low < 256)
  | case3 => cases h
  | case4 => cases h
  | case5 c s hc ih =>
    obtain ⟨hp, t, ht, rfl⟩ := printable_eq_some.1 h
    split_ifs at hp ⊢ with hplus
    · rw [hplus]
      exact .plus (ih ht)
    · exact .plain ⟨hc, hplus⟩ hp (ih ht)

theorem readNumeral_append (b : ℕ) (s : Bytes) (c : UInt8) :
    readNumeral b (s ++ [c]) = readNumeral b s * b + (hexValue c).getD 0 := by
  rw [readNumeral, List.foldl_append]
  rfl

theorem denotes_iff {b : ℕ} {s : Bytes} {n : ℕ} :
    Denotes b s n ↔ (∀ c ∈ s, ∃ d, hexValue c = some d ∧ d < b) ∧ readNumeral b s = n := by
  constructor
  · intro h
    induction h with
    | nil => exact ⟨by simp, rfl⟩
    | snoc _ hc hd ih =>
      refine ⟨fun c hmem => ?_, ?_⟩
      · rcases List.mem_append.1 hmem with hmem | hmem
        · exact ih.1 c hmem
        · rw [List.mem_singleton.1 hmem]
          exact ⟨_, hc, hd⟩
      · rw [readNumeral_append, ih.2, hc, Option.getD_some]
  · rintro ⟨hs, rfl⟩
    induction s using List.reverseRecOn with
    | nil => exact .nil
    | append_singleton s c ih =>
      obtain ⟨d, hc, hd⟩ := hs c (List.mem_append_right _ (List.mem_singleton_self c))
      rw [readNumeral_append, hc]
      exact .snoc (ih fun c hmem => hs c (List.mem_append_left _ hmem)) hc hd

theorem isDigit_iff {c : UInt8} : isDigit c ↔ ∃ d, hexValue c = some d ∧ d < 10 := by
  have hex : isDigit c = (hexValue c).any (· < 10) := by
    revert c
    decide +kernel
  rw [hex, Option.any_eq_true]
  simp only [decide_eq_true_eq]

theorem isHexDigit_iff {c : UInt8} : isHexDigit c ↔ ∃ d, hexValue c = some d ∧ d < 16 := by
  rw [isHexDigit, Option.isSome_iff_exists]
  constructor
  · rintro ⟨d, hd⟩
    exact ⟨d, hd, hexValue_lt hd⟩
  · rintro ⟨d, hd, -⟩
    exact ⟨d, hd⟩

/-! ## Values -/

/-- The names of the corners. -/
inductive NamesCorner : Bytes → Corner → Prop
  | topLeft : NamesCorner (ascii "top_left") .topLeft
  | topRight : NamesCorner (ascii "top_right") .topRight
  | bottomLeft : NamesCorner (ascii "bottom_left") .bottomLeft
  | bottomRight : NamesCorner (ascii "bottom_right") .bottomRight

/-- The decimal notations, of one to three digits, of a number within bounds. -/
def IsDecimal (min max : ℕ) (s : Bytes) (n : ℕ) : Prop :=
  1 ≤ s.length ∧ s.length ≤ 3 ∧ Denotes 10 s n ∧ min ≤ n ∧ n ≤ max

/-- The notation of a colour: `#` and six hexadecimal digits. -/
def IsColor (s : Bytes) (color : UInt32) : Prop :=
  ∃ digits, s = 35 :: digits ∧ digits.length = 6 ∧ Denotes 16 digits color.toNat

/-- The values of the seven fields. -/
structure FormValues where
  corner : Bytes
  fontSize : Bytes
  marginX : Bytes
  marginY : Bytes
  showLabel : Bytes
  labelColor : Bytes
  valueColor : Bytes

/-- The values with their keys. -/
def FormValues.fields (values : FormValues) : Entries :=
  [(ascii "corner", values.corner), (ascii "font_size", values.fontSize),
    (ascii "margin_x", values.marginX), (ascii "margin_y", values.marginY),
    (ascii "show_label", values.showLabel), (ascii "label_color", values.labelColor),
    (ascii "value_color", values.valueColor)]

/-- The values denote the configuration. -/
structure FormValues.Mean (values : FormValues) (cfg : OverlayConfig) : Prop where
  corner : NamesCorner values.corner cfg.corner
  fontSize : ∃ n : ℕ, IsDecimal 14 64 values.fontSize n ∧ cfg.fontSize = n
  marginX : ∃ n : ℕ, IsDecimal 0 240 values.marginX n ∧ cfg.marginX = .finite n
  marginY : ∃ n : ℕ, IsDecimal 0 240 values.marginY n ∧ cfg.marginY = .finite n
  showLabel : ∃ n : ℕ, IsDecimal 0 1 values.showLabel n ∧ (cfg.showLabel ↔ n = 1)
  labelColor : IsColor values.labelColor cfg.labelColor
  valueColor : IsColor values.valueColor cfg.valueColor

theorem formCorner_eq_some_iff {s : Bytes} {corner : Corner} :
    formCorner s = some corner ↔ NamesCorner s corner := by
  constructor
  · intro h
    rw [formCorner] at h
    split_ifs at h with h₁ h₂ h₃ h₄ <;> cases h <;> subst s
    · exact .topLeft
    · exact .topRight
    · exact .bottomLeft
    · exact .bottomRight
  · intro h
    cases h <;> decide +kernel

theorem integer_eq_some_iff_isDecimal {s : Bytes} {min max n : ℕ} :
    integer s min max = some n ↔ IsDecimal min max s n := by
  have hdigits : (∀ c ∈ s, isDigit c) ↔ ∀ c ∈ s, ∃ d, hexValue c = some d ∧ d < 10 := by
    simp only [isDigit_iff]
  rw [integer_eq_some_iff, IsDecimal, denotes_iff, hdigits]
  tauto

theorem formColor_eq_some_iff {s : Bytes} {color : UInt32} :
    formColor s = some color ↔ IsColor s color := by
  have hdigits {s : Bytes} : s.all isHexDigit ↔ ∀ c ∈ s, ∃ d, hexValue c = some d ∧ d < 16 := by
    simp only [List.all_eq_true, isHexDigit_iff]
  have hcolor {s : Bytes} (hlen : s.length = 6) :
      (readNumeral 16 s).toUInt32 = color ↔ readNumeral 16 s = color.toNat := by
    have hlt : readNumeral 16 s < 2 ^ 32 := by
      have := readNumeral_lt (b := 16) le_rfl s
      rw [hlen] at this
      omega
    rw [← UInt32.toNat_inj, Nat.toUInt32, UInt32.toNat_ofNat_of_lt' hlt]
  rw [formColor, IsColor]
  constructor
  · intro h
    split_ifs at h with hs
    push Not at hs
    obtain ⟨hlen, hhead, hall⟩ := hs
    obtain ⟨digits, rfl⟩ : ∃ digits, s = 35 :: digits := ⟨_, List.eq_cons_of_mem_head? hhead⟩
    have hlen : digits.length = 6 := Nat.succ.inj hlen
    exact ⟨digits, rfl, hlen,
      denotes_iff.2 ⟨hdigits.1 hall, (hcolor hlen).1 (Option.some.inj h)⟩⟩
  · rintro ⟨digits, rfl, hlen, hdenotes⟩
    obtain ⟨hall, hread⟩ := denotes_iff.1 hdenotes
    rw [if_neg, List.tail_cons, (hcolor hlen).2 hread]
    rintro (hlong | hhead | hdigit)
    · exact hlong (congrArg (· + 1) hlen)
    · exact hhead rfl
    · exact hdigit (hdigits.2 hall)

theorem FormValues.nodup_fields (values : FormValues) : (values.fields.map Prod.fst).Nodup := by
  have hkeys : values.fields.map Prod.fst = formKeys := rfl
  rw [hkeys]
  decide +kernel

/-- The fields of a form, each once, are those of values exactly if there are
    seven and none is missing. -/
theorem exists_values_iff {fields : Entries} (h : (fields.map Prod.fst).Nodup) :
    (∃ values : FormValues, fields.Perm values.fields) ↔
      fields.length = 7 ∧ formKeys.all fun key => (fields.lookup key).isSome := by
  constructor
  · rintro ⟨values, hperm⟩
    refine ⟨hperm.length_eq, List.all_eq_true.2 fun key hkey => ?_⟩
    have hmem : key ∈ fields.map Prod.fst := (hperm.map Prod.fst).mem_iff.2 hkey
    obtain ⟨⟨_, value⟩, hentry, rfl⟩ := List.mem_map.1 hmem
    rw [(lookup_eq_some_iff h).2 hentry]
    rfl
  · rintro ⟨hlen, hall⟩
    have hfield : ∀ key ∈ formKeys, (key, (fields.lookup key).getD []) ∈ fields := by
      intro key hkey
      obtain ⟨value, hvalue⟩ := Option.isSome_iff_exists.1 (List.all_eq_true.1 hall key hkey)
      rw [hvalue]
      exact (lookup_eq_some_iff h).1 hvalue
    let field key := (fields.lookup key).getD []
    let values : FormValues := ⟨field (ascii "corner"), field (ascii "font_size"),
      field (ascii "margin_x"), field (ascii "margin_y"), field (ascii "show_label"),
      field (ascii "label_color"), field (ascii "value_color")⟩
    have hsub : values.fields ⊆ fields := List.forall_mem_map.2 hfield
    have hsubperm := (values.nodup_fields.of_map _).subperm hsub
    exact ⟨values, (hsubperm.perm_of_length_le hlen.le).symm⟩

/-- What the fields of values mean. -/
theorem formConfig_eq_some_iff_mean {fields : Entries} (h : (fields.map Prod.fst).Nodup)
    {values : FormValues} (hperm : fields.Perm values.fields) {cfg : OverlayConfig} :
    formConfig fields = some cfg ↔ values.Mean cfg := by
  have hlookup : ∀ entry ∈ values.fields, fields.lookup entry.1 = some entry.2 :=
    fun entry hentry => (lookup_eq_some_iff h).2 (hperm.mem_iff.2 hentry)
  have hall := (exists_values_iff h).1 ⟨values, hperm⟩
  simp only [FormValues.fields, List.forall_mem_cons] at hlookup
  obtain ⟨hcorner, hfont, hx, hy, hlabel, hlabelColor, hvalueColor, -⟩ := hlookup
  rw [formConfig, if_neg (by simp only [hall]; decide)]
  simp only [hcorner, hfont, hx, hy, hlabel, hlabelColor, hvalueColor, Option.getD_some,
    Option.bind_eq_bind, Option.bind_eq_some_iff, formCorner_eq_some_iff, integer_eq_some_iff_isDecimal,
    formColor_eq_some_iff]
  constructor
  · rintro ⟨corner, hc, n, hn, x, hx, y, hy, l, hl, color, hlc, color', hvc, h⟩
    cases h
    refine ⟨hc, ⟨n, hn, rfl⟩, ⟨x, hx, rfl⟩, ⟨y, hy, rfl⟩, ⟨l, hl, ?_⟩, hlc, hvc⟩
    obtain ⟨-, -, -, -, hle⟩ := hl
    rw [decide_eq_true_iff]
    omega
  · rintro ⟨hc, ⟨n, hn, hfont⟩, ⟨x, hx, hmx⟩, ⟨y, hy, hmy⟩, ⟨l, hl, hshow⟩, hlc, hvc⟩
    refine ⟨_, hc, n, hn, x, hx, y, hy, l, hl, _, hlc, _, hvc, ?_⟩
    have hshow : decide (l ≠ 0) = cfg.showLabel := by
      obtain ⟨-, -, -, -, hle⟩ := hl
      rw [Bool.eq_iff_iff, decide_eq_true_iff, hshow]
      omega
    rw [← hfont, ← hmx, ← hmy, hshow]
    rfl

theorem formConfig_eq_some_iff {fields : Entries} (h : (fields.map Prod.fst).Nodup)
    {cfg : OverlayConfig} : formConfig fields = some cfg ↔
      ∃ values : FormValues, fields.Perm values.fields ∧ values.Mean cfg := by
  by_cases hvalues : ∃ values : FormValues, fields.Perm values.fields
  · obtain ⟨values, hperm⟩ := hvalues
    refine ⟨fun hc => ⟨values, hperm, (formConfig_eq_some_iff_mean h hperm).1 hc⟩, ?_⟩
    rintro ⟨values', hperm', hmean⟩
    exact (formConfig_eq_some_iff_mean h hperm').2 hmean
  · refine iff_of_false ?_ ?_
    · rw [exists_values_iff h] at hvalues
      rw [formConfig, if_pos (by tauto)]
      exact (Option.some_ne_none cfg).symm
    · rintro ⟨values, hperm, -⟩
      exact hvalues ⟨values, hperm⟩

/-! ## Items and bodies -/

/-- An item of a form: an encoded key and, after the first `=`, an encoded value. -/
def IsItem (item : Bytes) (entry : Bytes × Bytes) : Prop :=
  ∃ k v, item = k ++ 61 :: v ∧ 61 ∉ k ∧ Decodes k entry.1 ∧ Decodes v entry.2

/-- The body is a list of items that mean these fields, separated by `&`. -/
def IsBody (body : Bytes) (fields : Entries) : Prop :=
  ∃ items : List Bytes, body = [38].intercalate items ∧ (∀ item ∈ items, 38 ∉ item) ∧
    List.Forall₂ IsItem items fields

/-- The body is a form that means the configuration. -/
def IsForm (body : Bytes) (cfg : OverlayConfig) : Prop :=
  (1 ≤ body.length ∧ body.length ≤ 512) ∧ ∃ (fields : Entries) (values : FormValues),
    IsBody body fields ∧ fields.Perm values.fields ∧ values.Mean cfg

theorem formField_eq_some_iff {part : Bytes} {fields fields' : Entries} :
    formField part fields = some (some fields') ↔ ∃ entry, IsItem part entry ∧
      entry.1 ∉ fields.map Prod.fst ∧ entry :: fields = fields' := by
  constructor
  · intro h
    rw [formField] at h
    cases heq : find [61] part with
    | none =>
      rw [heq] at h
      cases h
    | some eq =>
      -- The part is split at its first `=`.
      obtain ⟨k, v, rfl, rfl, hk⟩ := exists_of_find_byte heq
      rw [heq] at h
      simp only [substr_append_left, substr_append, Option.bind_eq_bind, Option.bind_some] at h
      cases hkey : unescape k with
      | none =>
        rw [hkey] at h
        cases h
      | some key =>
        cases hvalue : unescape v with
        | none =>
          rw [hkey, hvalue] at h
          cases h
        | some value =>
          rw [hkey, hvalue] at h
          obtain ⟨hnew, hfields⟩ := emplace_eq_some.1 (Option.some.inj h)
          exact ⟨(key, value), ⟨k, v, rfl, hk, decodes_of_unescape hkey,
            decodes_of_unescape hvalue⟩, hnew, hfields⟩
  · rintro ⟨⟨key, value⟩, ⟨k, v, rfl, hk, hkey, hvalue⟩, hnew, hfields⟩
    rw [formField_eq hk (unescape_of_decodes hkey) (unescape_of_decodes hvalue),
      emplace_eq_some.2 ⟨hnew, hfields⟩]

theorem not_mem_of_mem_splitOn {c : UInt8} {s item : Bytes} (h : item ∈ s.splitOn c) :
    c ∉ item := by
  induction s generalizing item with
  | nil =>
    rw [List.splitOn_nil, List.mem_singleton] at h
    rw [h]
    exact List.not_mem_nil
  | cons b s ih =>
    rw [List.splitOn_cons_eq_if_modifyHead] at h
    split_ifs at h with hb
    · rcases List.mem_cons.1 h with rfl | h
      · exact List.not_mem_nil
      · exact ih h
    · obtain ⟨item', items, hitems⟩ := List.exists_cons_of_ne_nil (List.splitOn_ne_nil c s)
      rw [hitems] at h ih
      rcases List.mem_cons.1 h with rfl | h
      · refine fun hmem => (List.mem_cons.1 hmem).elim (fun hc => hb ?_) (ih List.mem_cons_self)
        exact beq_iff_eq.2 hc.symm
      · exact ih (List.mem_cons_of_mem _ h)

/-- A body that is not empty has one list of items. -/
theorem isBody_iff {body : Bytes} (hne : body ≠ []) {fields : Entries} :
    IsBody body fields ↔ List.Forall₂ IsItem (body.splitOn 38) fields := by
  constructor
  · rintro ⟨items, rfl, hitems, h⟩
    have hnil : items ≠ [] := fun hnil => hne (by rw [hnil]; rfl)
    rwa [List.splitOn_intercalate _ hitems hnil]
  · intro h
    exact ⟨_, (List.intercalate_splitOn _).symm, fun _ => not_mem_of_mem_splitOn, h⟩

theorem IsItem.ne_nil {item : Bytes} {entry : Bytes × Bytes} (h : IsItem item entry) :
    item ≠ [] := by
  obtain ⟨k, v, rfl, -⟩ := h
  exact List.append_ne_nil_of_right_ne_nil _ (List.cons_ne_nil _ _)

/-- The loop reads the items of a body, whose keys have to be new and to differ:
    by induction on the rounds, each of which takes an item off. -/
theorem formFields_eq_some_iff {fuel : ℕ} {body : Bytes} (hlen : body.length ≤ fuel)
    (hne : body ≠ []) {fields fields' : Entries} (hnodup : (fields.map Prod.fst).Nodup) :
    formFields fuel body fields = some (some fields') ↔ ∃ entries,
      List.Forall₂ IsItem (body.splitOn 38) entries ∧ entries.reverse ++ fields = fields' ∧
        (fields'.map Prod.fst).Nodup := by
  induction fuel generalizing body fields fields' with
  | zero => exact absurd (List.length_eq_zero_iff.1 (Nat.le_zero.1 hlen)) hne
  | succ fuel ih =>
    cases hamp : find [38] body with
    | none =>
      have hbody := find_byte_eq_none_iff.1 hamp
      rw [formFields_last hbody hne, formField_eq_some_iff, List.splitOn_eq_singleton hbody]
      constructor
      · rintro ⟨entry, hitem, hnew, rfl⟩
        exact ⟨[entry], .cons hitem .nil, rfl, List.nodup_cons.2 ⟨hnew, hnodup⟩⟩
      · rintro ⟨entries, hitems, rfl, hnodup'⟩
        obtain ⟨entry, _, hitem, hnil, rfl⟩ := List.forall₂_cons_left_iff.1 hitems
        rw [List.forall₂_nil_left_iff.1 hnil] at hnodup' ⊢
        exact ⟨entry, hitem, (List.nodup_cons.1 hnodup').1, rfl⟩
    | some amp =>
      obtain ⟨part, rest, rfl, rfl, hpart⟩ := exists_of_find_byte hamp
      have hrestLen : rest.length ≤ fuel := by
        rw [List.length_append, List.length_cons] at hlen
        omega
      have hsnoc (entry : Bytes × Bytes) (entries : Entries) :
          (entry :: entries).reverse ++ fields = entries.reverse ++ entry :: fields := by
        rw [List.reverse_cons, List.append_assoc, List.singleton_append]
      rw [formFields_append hpart, List.splitOn_append_cons_self_of_not_mem hpart]
      constructor
      · rintro ⟨fields'', hfield, hrest, hrounds⟩
        obtain ⟨entry, hitem, hnew, rfl⟩ := formField_eq_some_iff.1 hfield
        have hfields : ((entry :: fields).map Prod.fst).Nodup := List.nodup_cons.2 ⟨hnew, hnodup⟩
        obtain ⟨entries, hitems, hall, hnodup'⟩ := (ih hrestLen hrest hfields).1 hrounds
        exact ⟨entry :: entries, .cons hitem hitems, (hsnoc entry entries).trans hall, hnodup'⟩
      · rintro ⟨_, hall, rfl, hnodup'⟩
        obtain ⟨entry, entries, hitem, hitems, rfl⟩ := List.forall₂_cons_left_iff.1 hall
        rw [hsnoc] at hnodup' ⊢
        have hfields : ((entry :: fields).map Prod.fst).Nodup := by
          rw [List.map_append] at hnodup'
          exact hnodup'.of_append_right
        -- An empty rest would be an item without `=`.
        have hrest : rest ≠ [] := by
          rintro rfl
          rw [List.splitOn_nil] at hitems
          obtain ⟨_, _, hempty, -⟩ := List.forall₂_cons_left_iff.1 hitems
          exact hempty.ne_nil rfl
        refine ⟨entry :: fields, formField_eq_some_iff.2 ⟨entry, hitem, ?_, rfl⟩, hrest, ?_⟩
        · exact (List.nodup_cons.1 hfields).1
        · exact (ih hrestLen hrest hfields).2 ⟨entries, hitems, rfl, hnodup'⟩

/-- The parser accepts the forms, as what they mean. -/
theorem parseSettingsForm_eq_some_iff {body : Bytes} {cfg : OverlayConfig} :
    parseSettingsForm body = some (some cfg) ↔ IsForm body cfg := by
  rw [parseSettingsForm, IsForm]
  split_ifs with hbody
  · refine iff_of_false (fun h => (Option.some_ne_none cfg).symm (Option.some.inj h)) ?_
    rintro ⟨⟨hpos, hlen⟩, -⟩
    rcases hbody with rfl | hlong
    · exact absurd hpos (by decide)
    · omega
  push Not at hbody
  obtain ⟨hne, hlen⟩ := hbody
  have hempty : (([] : Entries).map Prod.fst).Nodup := List.nodup_nil
  have hlength : 1 ≤ body.length ∧ body.length ≤ 512 := ⟨List.length_pos_iff.2 hne, hlen⟩
  simp only [isBody_iff hne]
  constructor
  · refine fun h => ⟨hlength, ?_⟩
    rcases hf : formFields body.length body [] with _ | _ | fields
    · rw [hf] at h
      cases h
    · rw [hf] at h
      cases h
    · rw [hf] at h
      obtain ⟨entries, hitems, rfl, hnodup⟩ := (formFields_eq_some_iff le_rfl hne hempty).1 hf
      rw [List.append_nil] at h hnodup
      obtain ⟨values, hperm, hmean⟩ := (formConfig_eq_some_iff hnodup).1 (Option.some.inj h)
      exact ⟨entries, values, hitems, entries.reverse_perm.symm.trans hperm, hmean⟩
  · rintro ⟨-, fields, values, hitems, hperm, hmean⟩
    have hrev : fields.reverse.Perm values.fields := fields.reverse_perm.trans hperm
    have hnodup' : ((fields.reverse ++ []).map Prod.fst).Nodup := by
      rw [List.append_nil]
      exact ((hrev.map Prod.fst).nodup_iff).2 values.nodup_fields
    rw [(formFields_eq_some_iff le_rfl hne hempty).2 ⟨fields, hitems, rfl, hnodup'⟩]
    rw [List.append_nil] at hnodup' ⊢
    exact congrArg some ((formConfig_eq_some_iff hnodup').2 ⟨values, hrev, hmean⟩)

end CommonFps
