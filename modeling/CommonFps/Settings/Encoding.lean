import CommonFps.Settings.Page

/-!
# The encodings of a configuration

A configuration has many forms: its fields stand in any order, and any of their
bytes may stand in hexadecimal. The parser reads them all, and nothing but the
forms of the grammar.

* `escapedForm`: the form of fields, with some bytes in hexadecimal;
* `settings_form_accepts`: what the parser accepts, and that it accepts each of
  these.
-/

namespace CommonFps

/-- The bytes that may stand for themselves. -/
def IsPlain (c : UInt8) : Prop :=
  (32 ≤ c ∧ c ≤ 126) ∧ c ≠ 37 ∧ c ≠ 43 ∧ c ≠ 38 ∧ c ≠ 61

instance : DecidablePred IsPlain := fun c =>
  inferInstanceAs (Decidable ((32 ≤ c ∧ c ≤ 126) ∧ c ≠ 37 ∧ c ≠ 43 ∧ c ≠ 38 ∧ c ≠ 61))

/-- A text with the bytes at the chosen places in hexadecimal. -/
def escape : (ℕ → Bool) → Bytes → Bytes
  | _, [] => []
  | chosen, c :: text =>
    (if chosen 0 then [37, digitChar (c.toNat / 16), digitChar (c.toNat % 16)] else [c]) ++
      escape (fun n => chosen (n + 1)) text

/-- The form of fields, with the bytes in hexadecimal that are chosen of the key
    and of the value of each. -/
def escapedForm (chosen : Bytes → (ℕ → Bool) × (ℕ → Bool)) (items : List (Bytes × Bytes)) : Bytes :=
  [38].intercalate (items.map fun item =>
    escape (chosen item.1).1 item.1 ++ 61 :: escape (chosen item.1).2 item.2)

theorem decodes_escape {text : Bytes} (h : ∀ c ∈ text, IsPlain c) (chosen : ℕ → Bool) :
    Decodes (escape chosen text) text := by
  induction text generalizing chosen with
  | nil => exact .nil
  | cons c text ih =>
    obtain ⟨⟨hp, hpercent, hplus, -⟩, h⟩ := List.forall_mem_cons.1 h
    have ih := ih h fun n => chosen (n + 1)
    have hlt := c.toNat_lt
    rw [escape]
    split_ifs
    · exact .percent (hexValue_digitChar (by omega)) (hexValue_digitChar (by omega))
        (Nat.div_add_mod' _ _).symm hp ih
    · exact .plain ⟨hpercent, hplus⟩ hp ih

/-- An encoding holds no separator. -/
theorem not_mem_escape {text : Bytes} (h : ∀ c ∈ text, IsPlain c) (chosen : ℕ → Bool) :
    38 ∉ escape chosen text ∧ 61 ∉ escape chosen text := by
  induction text generalizing chosen with
  | nil => exact ⟨List.not_mem_nil, List.not_mem_nil⟩
  | cons c text ih =>
    obtain ⟨⟨-, -, -, hamp, heq⟩, h⟩ := List.forall_mem_cons.1 h
    obtain ⟨ihamp, iheq⟩ := ih h fun n => chosen (n + 1)
    have hlt := c.toNat_lt
    obtain ⟨hhi, hhi'⟩ := digitChar_ne (d := c.toNat / 16) (by omega)
    obtain ⟨hlo, hlo'⟩ := digitChar_ne (d := c.toNat % 16) (by omega)
    rw [escape]
    split_ifs
    · simp [ihamp, iheq, hhi.symm, hhi'.symm, hlo.symm, hlo'.symm]
    · simp [ihamp, iheq, hamp.symm, heq.symm]

/-! ## Values -/

theorem isPlain_of_isHexDigit {c : UInt8} (h : isHexDigit c) : IsPlain c := by
  revert c
  decide +kernel

theorem IsDecimal.isPlain {min max : ℕ} {s : Bytes} {n : ℕ} (h : IsDecimal min max s n) :
    ∀ c ∈ s, IsPlain c := by
  intro c hc
  obtain ⟨d, hd, -⟩ := (denotes_iff.1 h.2.2.1).1 c hc
  exact isPlain_of_isHexDigit (Option.isSome_of_mem hd)

theorem IsColor.isPlain {s : Bytes} {color : UInt32} (h : IsColor s color) :
    ∀ c ∈ s, IsPlain c := by
  obtain ⟨digits, rfl, -, hdigits⟩ := h
  refine List.forall_mem_cons.2 ⟨by decide, fun c hc => ?_⟩
  obtain ⟨d, hd, -⟩ := (denotes_iff.1 hdigits).1 c hc
  exact isPlain_of_isHexDigit (Option.isSome_of_mem hd)

theorem NamesCorner.isPlain {s : Bytes} {corner : Corner} (h : NamesCorner s corner) :
    ∀ c ∈ s, IsPlain c := by
  cases h <;> decide +kernel

/-- Values that denote a configuration hold no byte that has to be encoded, and
    neither do the keys. -/
theorem FormValues.Mean.isPlain {values : FormValues} {cfg : OverlayConfig}
    (h : values.Mean cfg) :
    ∀ item ∈ values.fields, (∀ c ∈ item.1, IsPlain c) ∧ ∀ c ∈ item.2, IsPlain c := by
  have hkeys : ∀ key ∈ formKeys, ∀ c ∈ key, IsPlain c := by decide +kernel
  have hvalues : ∀ item ∈ values.fields, ∀ c ∈ item.2, IsPlain c := by
    obtain ⟨n, hn, -⟩ := h.fontSize
    obtain ⟨x, hx, -⟩ := h.marginX
    obtain ⟨y, hy, -⟩ := h.marginY
    obtain ⟨l, hl, -⟩ := h.showLabel
    simp only [FormValues.fields, List.forall_mem_cons]
    exact ⟨h.corner.isPlain, hn.isPlain, hx.isPlain, hy.isPlain, hl.isPlain,
      h.labelColor.isPlain, h.valueColor.isPlain, List.forall_mem_nil _⟩
  exact fun item hitem => ⟨hkeys item.1 (List.mem_map_of_mem hitem), hvalues item hitem⟩

/-! ## Forms -/

/-- An encoding of fields is a body that means them. -/
theorem isBody_escapedForm {items : List (Bytes × Bytes)}
    (h : ∀ item ∈ items, (∀ c ∈ item.1, IsPlain c) ∧ ∀ c ∈ item.2, IsPlain c)
    (chosen : Bytes → (ℕ → Bool) × (ℕ → Bool)) : IsBody (escapedForm chosen items) items := by
  refine ⟨_, rfl, List.forall_mem_map.2 fun item hitem => ?_, ?_⟩
  · rw [List.mem_append, List.mem_cons, not_or, not_or]
    exact ⟨(not_mem_escape (h item hitem).1 _).1, by decide, (not_mem_escape (h item hitem).2 _).1⟩
  · rw [List.forall₂_map_left_iff, List.forall₂_same]
    exact fun item hitem => ⟨_, _, rfl, (not_mem_escape (h item hitem).1 _).2,
      decodes_escape (h item hitem).1 _, decodes_escape (h item hitem).2 _⟩

theorem IsBody.length_pos {body : Bytes} {fields : Entries} (h : IsBody body fields)
    (hne : fields ≠ []) : 1 ≤ body.length := by
  obtain ⟨items, rfl, -, hitems⟩ := h
  obtain ⟨field, fields, rfl⟩ := List.exists_cons_of_ne_nil hne
  obtain ⟨item, items, hitem, -, rfl⟩ := List.forall₂_cons_right_iff.1 hitems
  have hpos := List.length_pos_iff.2 hitem.ne_nil
  cases items with
  | nil => rwa [List.intercalate_singleton]
  | cons item' items =>
    rw [List.intercalate_cons_cons, List.length_append, List.length_append]
    omega

/-- The values of a configuration, in any order and with any bytes in hexadecimal,
    are one of its forms. -/
theorem FormValues.Mean.isForm {values : FormValues} {cfg : OverlayConfig} (h : values.Mean cfg)
    {items : List (Bytes × Bytes)} (hperm : items.Perm values.fields)
    {chosen : Bytes → (ℕ → Bool) × (ℕ → Bool)} (hlen : (escapedForm chosen items).length ≤ 512) :
    IsForm (escapedForm chosen items) cfg := by
  have hbody : IsBody (escapedForm chosen items) items :=
    isBody_escapedForm (fun item hitem => h.isPlain item (hperm.mem_iff.1 hitem)) chosen
  have hne : items ≠ [] := by
    rintro rfl
    exact absurd hperm.length_eq nofun
  exact ⟨⟨hbody.length_pos hne, hlen⟩, items, values, hbody, hperm, h⟩

/-- The parser accepts the forms, as what they mean, and refuses every other body.
    In particular it reads a configuration from its fields in any order, with any
    bytes in hexadecimal. -/
theorem settings_form_accepts :
    (∀ (body : Bytes) (cfg : OverlayConfig),
      parseSettingsForm body = some (some cfg) ↔ IsForm body cfg) ∧
    (∀ body : Bytes, parseSettingsForm body = some none ↔ ¬∃ cfg, IsForm body cfg) ∧
    ∀ cfg : OverlayConfig, Whole cfg → ∀ items : List (Bytes × Bytes),
      items.Perm (formItems cfg) → ∀ chosen : Bytes → (ℕ → Bool) × (ℕ → Bool),
        (escapedForm chosen items).length ≤ 512 →
          parseSettingsForm (escapedForm chosen items) = some (some cfg) := by
  refine ⟨fun body cfg => parseSettingsForm_eq_some_iff, fun body => ?_, ?_⟩
  · simp only [← parseSettingsForm_eq_some_iff]
    obtain ⟨answer, hanswer⟩ := Option.isSome_iff_exists.1 (parseSettingsForm_isSome body)
    rw [hanswer]
    cases answer <;> simp
  · intro cfg hcfg items hperm chosen hlen
    exact parseSettingsForm_eq_some_iff.2 ((mean_formValues hcfg).isForm hperm hlen)

/-- The default configuration, from its fields in reverse order with their values in
    hexadecimal. -/
theorem settings_form_accepts_default :
    parseSettingsForm (escapedForm (fun _ => (fun _ => false, fun _ => true))
      (formItems {}).reverse) = some (some {}) := by
  have hwhole : Whole {} := ⟨by decide +kernel, ⟨10, by decide +kernel⟩, ⟨4, by decide +kernel⟩⟩
  exact settings_form_accepts.2.2 {} hwhole (formItems {}).reverse (List.reverse_perm _)
    (fun _ => (fun _ => false, fun _ => true)) (by decide +kernel)

end CommonFps
