import CommonFps.Settings.Grammar
import CommonFps.Settings.Store

/-!
# The settings page

What the settings page makes of the text of the settings (`index.html`): it
decodes them into the fields of an object, and posts these fields as a form.

* `decode`, `formBody`: the fields of a text, and the form of fields;
* `RoundTrips`: what the page posts unmodified is the configuration it loaded;
* `page_saves_iff`: in every state that a store can be in, this is so exactly if
  both margins are whole numbers. The file and the text of the settings also
  hold others, which the form refuses.
-/

namespace CommonFps

/-! ## Numbers and components of the page -/

/-- A value of the page: a number (`none` for `NaN`) or a string. Numbers have at
    most six digits here and are read as rationals: they keep their digits
    through the conversions from and to a string. -/
inductive PageValue
  | number (n : Option ℚ)
  | text (s : Bytes)

/-- `Number`, of a decimal text. -/
def toNumber (text : Bytes) : Option ℚ :=
  let (neg, s) := readSign (trim text)
  if s = [] then (if trim text = [] then some 0 else none)
  else (readFloating 10 isDigit 10 101 s).map fun q => if neg then -q else q

/-- The number of decimals of a number, at most `fuel`. -/
def decimalPlaces : ℕ → ℚ → ℕ
  | 0, _ => 0
  | fuel + 1, q => if q.den = 1 then 0 else decimalPlaces fuel (q * 10) + 1

/-- `String`, of a number with at most 400 decimals. -/
def numberText : Option ℚ → Bytes
  | none => ascii "NaN"
  | some q =>
    let sign : Bytes := if q < 0 then [45] else []
    let places := decimalPlaces 400 |q|
    let digits := numeral 10 (|q| * 10 ^ places).num.toNat
    -- The place of the decimal point in the digits.
    let point : ℤ := digits.length - places
    if places = 0 ∧ point ≤ 21 then sign ++ digits
    else if 0 < point ∧ point ≤ 21 then
      sign ++ digits.take point.toNat ++ 46 :: digits.drop point.toNat
    else if -6 < point ∧ point ≤ 0 then
      sign ++ ascii "0." ++ List.replicate point.natAbs 48 ++ digits
    else
      let digits := digits.rdropWhile (· = 48)
      sign ++ digits.take 1 ++ (if digits.length = 1 then [] else 46 :: digits.drop 1) ++
        101 :: (if point < 1 then 45 else 43) :: numeral 10 (point - 1).natAbs

/-- A value as the page puts it into the form. -/
def PageValue.toText : PageValue → Bytes
  | .number n => numberText n
  | .text s => s

/-- The characters that stand for themselves in a component. -/
def isUnreserved (c : UInt8) : Bool :=
  isDigit c || (97 ≤ toLower c && toLower c ≤ 122) || c ∈ ascii "-_.!~*'()"

/-- The encoding of a value in a form. -/
def encodeURIComponent (s : Bytes) : Bytes :=
  s.flatMap fun c =>
    if isUnreserved c then [c] else [37, digitChar (c.toNat / 16), digitChar (c.toNat % 16)]

/-! ## Decoding and posting -/

/-- An object of the page: its fields, in their order. -/
abbrev PageObject := List (Bytes × PageValue)

/-- What the page shows before it has read the settings. -/
def defaults : PageObject :=
  [(ascii "corner", .text (ascii "bottom_left")), (ascii "font_size", .number (some 22)),
    (ascii "margin_x", .number (some 10)), (ascii "margin_y", .number (some 4)),
    (ascii "show_label", .number (some 1)), (ascii "label_color", .text (ascii "#B366FF")),
    (ascii "value_color", .text (ascii "#FFFFFF"))]

/-- The fields with a new value in the one of `key`, of its kind in `defaults`. -/
def setValue (out : PageObject) (key value : Bytes) : PageObject :=
  match defaults.lookup key with
  | none => out
  | some (.number _) =>
    out.map fun field => if field.1 = key then (key, .number (toNumber value)) else field
  | some (.text _) => out.map fun field => if field.1 = key then (key, .text value) else field

/-- The page reads a line of the settings. -/
def decodeLine (out : PageObject) (line : Bytes) : PageObject :=
  match find [61] line with
  | none => out
  | some i => setValue out (line.take i) (trim (line.drop (i + 1)))

/-- The page reads the settings. -/
def decode (text : Bytes) : PageObject := (text.splitOn 10).foldl decodeLine defaults

/-- A field of a form. -/
def formItem (item : Bytes × Bytes) : Bytes :=
  encodeURIComponent item.1 ++ 61 :: encodeURIComponent item.2

/-- The form of fields. -/
def formBody : List (Bytes × Bytes) → Bytes
  | [] => []
  | [item] => formItem item
  | item :: items => formItem item ++ 38 :: formBody items

/-- What the page posts of the text it loaded. -/
def postedForm (text : Bytes) : Bytes :=
  formBody ((decode text).map fun field => (field.1, field.2.toText))

/-- What the page posts of the text of a configuration is this configuration. -/
def RoundTrips (cfg : OverlayConfig) : Prop :=
  ∃ posted, parseSettingsForm (postedForm (serializeConfig cfg)) = some (some posted) ∧
    sameConfig posted cfg

/-! ## Components -/

theorem isUnreserved_range {c : UInt8} (h : isUnreserved c) :
    32 ≤ c ∧ c ≤ 126 ∧ c ≠ 37 ∧ c ≠ 43 ∧ c ≠ 38 ∧ c ≠ 61 := by
  revert c
  decide +kernel

theorem digitChar_ne {d : ℕ} (h : d < 16) : digitChar d ≠ 38 ∧ digitChar d ≠ 61 := by
  have : ∀ d < 16, digitChar d ≠ 38 ∧ digitChar d ≠ 61 := by decide
  exact this d h

theorem unescape_encodeURIComponent {s : Bytes} (hs : ∀ c ∈ s, 32 ≤ c ∧ c ≤ 126) :
    unescape (encodeURIComponent s) = some s := by
  induction s with
  | nil => rfl
  | cons c s ih =>
    obtain ⟨hc, hs⟩ := List.forall_mem_cons.1 hs
    have hlt := c.toNat_lt
    rw [encodeURIComponent, List.flatMap_cons, ← encodeURIComponent]
    split_ifs with hu
    · have hr := isUnreserved_range hu
      rw [List.singleton_append, unescape_cons hr.2.2.1, if_neg hr.2.2.2.1, ih hs, printable,
        if_pos hc, Option.map_some]
    · have hval : (c.toNat / 16 * 16 + c.toNat % 16).toUInt8 = c := by
        rw [Nat.div_add_mod']
        exact UInt8.ofNat_toNat
      rw [List.cons_append, List.cons_append, List.singleton_append,
        unescape_percent (hexValue_digitChar (by omega)) (hexValue_digitChar (by omega)), hval, ih hs,
        printable, if_pos hc, Option.map_some]

theorem not_mem_encodeURIComponent (s : Bytes) :
    38 ∉ encodeURIComponent s ∧ 61 ∉ encodeURIComponent s := by
  have hmem : ∀ b ∈ encodeURIComponent s, b ≠ 38 ∧ b ≠ 61 := by
    intro b hb
    obtain ⟨c, -, hb⟩ := List.mem_flatMap.1 hb
    have hlt := c.toNat_lt
    split_ifs at hb with hu
    · rw [List.mem_singleton.1 hb]
      exact (isUnreserved_range hu).2.2.2.2
    · simp only [List.mem_cons, List.not_mem_nil, or_false] at hb
      rcases hb with rfl | rfl | rfl
      · decide
      · exact digitChar_ne (by omega)
      · exact digitChar_ne (by omega)
  exact ⟨fun h => (hmem 38 h).1 rfl, fun h => (hmem 61 h).2 rfl⟩

theorem length_encodeURIComponent_le (s : Bytes) : (encodeURIComponent s).length ≤ 3 * s.length := by
  induction s with
  | nil => exact Nat.zero_le _
  | cons c s ih =>
    rw [encodeURIComponent, List.flatMap_cons, ← encodeURIComponent, List.length_append,
      List.length_cons]
    split_ifs <;> simp <;> omega

/-! ## The form of fields -/

/-- The bytes of a field are printable. -/
def Printable (item : Bytes × Bytes) : Prop := ∀ c ∈ item.1 ++ item.2, 32 ≤ c ∧ c ≤ 126

theorem isItem_formItem {item : Bytes × Bytes} (h : Printable item) :
    IsItem (formItem item) item := by
  refine ⟨_, _, rfl, (not_mem_encodeURIComponent item.1).2, ?_, ?_⟩
  · exact decodes_of_unescape (unescape_encodeURIComponent fun c hc => h c (List.mem_append_left _ hc))
  · exact decodes_of_unescape (unescape_encodeURIComponent fun c hc => h c (List.mem_append_right _ hc))

theorem not_mem_formItem (item : Bytes × Bytes) : 38 ∉ formItem item := by
  rw [formItem, List.mem_append, List.mem_cons, not_or, not_or]
  exact ⟨(not_mem_encodeURIComponent item.1).1, by decide, (not_mem_encodeURIComponent item.2).1⟩

theorem formBody_eq_intercalate (items : List (Bytes × Bytes)) :
    formBody items = [38].intercalate (items.map formItem) := by
  match items with
  | [] => rfl
  | [item] => rw [formBody, List.map_singleton, List.intercalate_singleton]
  | item :: item' :: items =>
    rw [formBody, formBody_eq_intercalate (item' :: items)]
    · simp only [List.map_cons, List.intercalate_cons_cons, List.append_assoc,
        List.singleton_append]
    · exact List.cons_ne_nil _ _

/-- The form of fields is a body that means them. -/
theorem isBody_formBody {items : List (Bytes × Bytes)} (h : ∀ item ∈ items, Printable item) :
    IsBody (formBody items) items := by
  refine ⟨items.map formItem, formBody_eq_intercalate items, ?_, ?_⟩
  · exact List.forall_mem_map.2 fun item _ => not_mem_formItem item
  · rw [List.forall₂_map_left_iff, List.forall₂_same]
    exact fun item hitem => isItem_formItem (h item hitem)

/-! ## The page on the text of a configuration -/

/-- The object of the page, with these values. -/
def pageObject (corner : Bytes) (fontSize marginX marginY showLabel : Option ℚ)
    (labelColor valueColor : Bytes) : PageObject :=
  [(ascii "corner", .text corner), (ascii "font_size", .number fontSize),
    (ascii "margin_x", .number marginX), (ascii "margin_y", .number marginY),
    (ascii "show_label", .number showLabel), (ascii "label_color", .text labelColor),
    (ascii "value_color", .text valueColor)]

/-- Setting all values. -/
theorem setValue_all (corner fontSize marginX marginY showLabel labelColor valueColor : Bytes) :
    setValue (setValue (setValue (setValue (setValue (setValue (setValue defaults
      (ascii "corner") corner) (ascii "font_size") fontSize) (ascii "margin_x") marginX)
      (ascii "margin_y") marginY) (ascii "show_label") showLabel)
      (ascii "label_color") labelColor) (ascii "value_color") valueColor =
    pageObject corner (toNumber fontSize) (toNumber marginX) (toNumber marginY)
      (toNumber showLabel) labelColor valueColor := rfl

theorem foldl_decode_settingLine {key value : Bytes} (hkey : key.all isKeyByte ∧ key ≠ [])
    (hvalue : ∀ c ∈ value, ¬isSpace c) (out : PageObject) (text : Bytes) :
    ((settingLine key value ++ text).splitOn 10).foldl decodeLine out =
      (text.splitOn 10).foldl decodeLine (setValue out key value) := by
  have h61 : 61 ∉ key := fun h => absurd (List.all_eq_true.1 hkey.1 61 h) (by decide)
  obtain ⟨happend, hline⟩ := settingLine_append hkey hvalue text
  rw [happend, List.splitOn_append_cons_self_of_not_mem hline, List.foldl_cons, decodeLine,
    find_byte_append h61]
  simp only [List.take_left, ← List.drop_drop, List.drop_left, List.drop_one, List.tail_cons,
    trim_of_no_space hvalue]

/-- The page reads the values that were written. -/
theorem decode_serializeConfig {cfg : OverlayConfig} (h : Whole cfg) :
    decode (serializeConfig cfg) = pageObject (cornerName cfg.corner)
      (toNumber (writeInt cfg.fontSize)) (toNumber (writeFloat cfg.marginX))
      (toNumber (writeFloat cfg.marginY)) (toNumber (if cfg.showLabel then [49] else [48]))
      (writeColor cfg.labelColor) (writeColor cfg.valueColor) := by
  obtain ⟨n, hn, -⟩ := h.exists_fontSize
  have hfont : ∀ c ∈ writeInt cfg.fontSize, ¬isSpace c := by
    rw [hn, writeInt_natCast]
    exact not_isSpace_numeral n
  rw [decode, serializeConfig_eq, List.splitOn_append_cons_self_of_not_mem (by decide),
    List.foldl_cons]
  rw [foldl_decode_settingLine (by decide) (not_isSpace_cornerName h.corner_ne),
    foldl_decode_settingLine (by decide) hfont,
    foldl_decode_settingLine (by decide) h.wholeMarginX.not_isSpace,
    foldl_decode_settingLine (by decide) h.wholeMarginY.not_isSpace,
    foldl_decode_settingLine (by decide) (not_isSpace_showLabel _),
    foldl_decode_settingLine (by decide) (not_isSpace_writeColor _),
    foldl_decode_settingLine (by decide) (not_isSpace_writeColor _)]
  exact setValue_all _ _ _ _ _ _ _

/-- A natural number is shown by the digits it was read from. -/
theorem numberText_toNumber {n : ℕ} (h : n < 10 ^ 3) :
    numberText (toNumber (numeral 10 n)) = numeral 10 n := by
  have hread : toNumber (numeral 10 n) = some (n : ℚ) := by
    obtain ⟨c, t, ht⟩ := List.exists_cons_of_ne_nil (numeral_ne_nil 10 n)
    have hdigit : ∀ c ∈ numeral 10 n, isDigit c := fun _ => isDigit_of_mem_numeral
    have hsign : readSign (numeral 10 n) = (false, numeral 10 n) := by
      rw [ht]
      exact readSign_of_digit (hdigit c (ht ▸ List.mem_cons_self)) t
    rw [toNumber, trim_of_no_space (not_isSpace_numeral n), hsign]
    simp only [if_neg (numeral_ne_nil 10 n), readFloating_of_digits hdigit (numeral_ne_nil 10 n),
      readNumeral_numeral (b := 10) (by norm_num) (by norm_num)]
    rfl
  have hlen : (numeral 10 n).length ≤ 3 := length_numeral_le (by norm_num) h (by norm_num)
  have hplaces : decimalPlaces 400 (n : ℚ) = 0 := by
    rw [decimalPlaces, if_pos (Rat.den_natCast n)]
  rw [hread, numberText]
  simp only [Nat.abs_cast, hplaces, pow_zero, mul_one, Rat.num_natCast, Int.toNat_natCast,
    if_neg (not_lt.2 (n.cast_nonneg : (0 : ℚ) ≤ n))]
  rw [if_pos ⟨trivial, by omega⟩, List.nil_append]

/-- The fields that the page posts. -/
def formItems (cfg : OverlayConfig) : List (Bytes × Bytes) :=
  [(ascii "corner", cornerName cfg.corner), (ascii "font_size", writeInt cfg.fontSize),
    (ascii "margin_x", writeFloat cfg.marginX), (ascii "margin_y", writeFloat cfg.marginY),
    (ascii "show_label", if cfg.showLabel then [49] else [48]),
    (ascii "label_color", writeColor cfg.labelColor),
    (ascii "value_color", writeColor cfg.valueColor)]

/-- The numbers of a configuration are written with up to three digits. -/
theorem exists_numeral {cfg : OverlayConfig} (h : Whole cfg) :
    ∀ text ∈ [writeInt cfg.fontSize, writeFloat cfg.marginX, writeFloat cfg.marginY,
      if cfg.showLabel then [49] else [48]], ∃ n < 10 ^ 3, text = numeral 10 n := by
  have hmargin {x : Single} (hx : IsWholeMargin x) : ∃ n < 10 ^ 3, writeFloat x = numeral 10 n := by
    obtain ⟨n, hn, rfl⟩ := hx
    exact ⟨n, by omega, by rw [writeFloat, general_natCast (by omega)]⟩
  simp only [List.forall_mem_cons]
  refine ⟨?_, hmargin h.wholeMarginX, hmargin h.wholeMarginY, ?_, List.forall_mem_nil _⟩
  · obtain ⟨n, hn, -, hn₂⟩ := h.exists_fontSize
    rw [hn] at hn₂ ⊢
    exact ⟨n, lt_of_le_of_lt (Int.ofNat_le.1 hn₂) (by decide), writeInt_natCast n⟩
  · cases cfg.showLabel
    · exact ⟨0, by norm_num, rfl⟩
    · exact ⟨1, by norm_num, rfl⟩

theorem postedForm_serializeConfig {cfg : OverlayConfig} (h : Whole cfg) :
    postedForm (serializeConfig cfg) = formBody (formItems cfg) := by
  have hnumbers : ∀ text ∈ [writeInt cfg.fontSize, writeFloat cfg.marginX, writeFloat cfg.marginY,
      if cfg.showLabel then [49] else [48]], numberText (toNumber text) = text := by
    intro text htext
    obtain ⟨n, hn, rfl⟩ := exists_numeral h text htext
    exact numberText_toNumber hn
  simp only [List.forall_mem_cons] at hnumbers
  obtain ⟨hfont, hx, hy, hlabel, -⟩ := hnumbers
  rw [postedForm, decode_serializeConfig h, formItems, pageObject]
  simp only [List.map_cons, List.map_nil, PageValue.toText]
  rw [hfont, hlabel, hx, hy]

theorem formCorner_cornerName {corner : Corner} (h : ∀ n, corner ≠ .invalid n) :
    formCorner (cornerName corner) = some corner := by
  cases corner with
  | invalid n => exact absurd rfl (h n)
  | _ => decide +kernel

theorem formColor_writeColor {color : UInt32} (h : color &&& 0xFFFFFF = color) :
    formColor (writeColor color) = some color := by
  have hlen : (setw 6 (numeral 16 (color &&& 0xFFFFFF).toNat)).length = 6 :=
    length_setw_numeral (by norm_num) (toNat_color_lt color) (by norm_num)
  have hall : (setw 6 (numeral 16 (color &&& 0xFFFFFF).toNat)).all isHexDigit :=
    List.all_eq_true.2 fun c hc => isHexDigit_of_mem_setw_numeral (by norm_num) le_rfl hc
  rw [formColor, writeColor, if_neg]
  · rw [List.tail_cons, readNumeral_setw_numeral (by norm_num) le_rfl, h]
    exact congrArg some UInt32.ofNat_toNat
  · rintro (hlong | hhead | hdigit)
    · exact hlong (by rw [List.length_cons, hlen])
    · exact hhead rfl
    · exact hdigit hall

theorem map_fst_formItems (cfg : OverlayConfig) : (formItems cfg).map Prod.fst = formKeys := rfl

/-- The values that the page posts. -/
def formValues (cfg : OverlayConfig) : FormValues where
  corner := cornerName cfg.corner
  fontSize := writeInt cfg.fontSize
  marginX := writeFloat cfg.marginX
  marginY := writeFloat cfg.marginY
  showLabel := if cfg.showLabel then [49] else [48]
  labelColor := writeColor cfg.labelColor
  valueColor := writeColor cfg.valueColor

theorem isDecimal_margin {x : Single} {n : ℕ} (hn : n ≤ 240) (hx : x = .finite n) :
    ∃ n : ℕ, IsDecimal 0 240 (writeFloat x) n ∧ x = .finite n := by
  refine ⟨n, integer_eq_some_iff_isDecimal.1 ?_, hx⟩
  rw [hx, writeFloat, general_natCast (by omega)]
  exact integer_numeral (Nat.zero_le n) hn (by omega)

/-- The values that the page posts denote the configuration. -/
theorem mean_formValues {cfg : OverlayConfig} (h : Whole cfg) : (formValues cfg).Mean cfg where
  corner := formCorner_eq_some_iff.1 (formCorner_cornerName h.corner_ne)
  fontSize := by
    obtain ⟨n, hn, hn₁, hn₂⟩ := h.exists_fontSize
    refine ⟨n, integer_eq_some_iff_isDecimal.1 ?_, hn⟩
    rw [hn] at hn₁ hn₂
    rw [formValues, hn, writeInt_natCast]
    exact integer_numeral (Int.ofNat_le.1 hn₁) (Int.ofNat_le.1 hn₂)
      (lt_of_le_of_lt (Int.ofNat_le.1 hn₂) (by decide))
  marginX := by
    obtain ⟨n, hn, hx⟩ := h.wholeMarginX
    exact isDecimal_margin hn hx
  marginY := by
    obtain ⟨n, hn, hy⟩ := h.wholeMarginY
    exact isDecimal_margin hn hy
  showLabel := by
    have hread (label : Bool) : integer (if label then [49] else [48]) 0 1 =
        some (if label then 1 else 0) := by
      cases label <;> decide
    refine ⟨_, integer_eq_some_iff_isDecimal.1 (hread cfg.showLabel), ?_⟩
    cases cfg.showLabel <;> decide
  labelColor := formColor_eq_some_iff.1 (formColor_writeColor h.labelColor_mask)
  valueColor := formColor_eq_some_iff.1 (formColor_writeColor h.valueColor_mask)

/-- At most `k` printable bytes. -/
def IsShort (k : ℕ) (s : Bytes) : Prop := s.length ≤ k ∧ ∀ c ∈ s, 32 ≤ c ∧ c ≤ 126

theorem printable_of_isHexDigit {c : UInt8} (h : isHexDigit c) : 32 ≤ c ∧ c ≤ 126 := by
  revert c
  decide +kernel

theorem isShort_numeral {n : ℕ} (h : n < 10 ^ 3) : IsShort 12 (numeral 10 n) :=
  ⟨(length_numeral_le (by norm_num) h (by norm_num)).trans (by norm_num),
    fun _ hc => printable_of_isHexDigit (isHexDigit_of_mem_numeral (by norm_num) (by norm_num) hc)⟩

theorem isShort_of_all {k : ℕ} {s : Bytes}
    (h : (s.length ≤ k && s.all fun c => 32 ≤ c && c ≤ 126) = true) : IsShort k s := by
  simpa [IsShort] using h

theorem isShort_cornerName {corner : Corner} (h : ∀ n, corner ≠ .invalid n) :
    IsShort 12 (cornerName corner) := by
  cases corner with
  | invalid n => exact absurd rfl (h n)
  | _ => exact isShort_of_all (by decide +kernel)

theorem isShort_writeColor (color : UInt32) : IsShort 12 (writeColor color) := by
  have hlen : (setw 6 (numeral 16 (color &&& 0xFFFFFF).toNat)).length = 6 :=
    length_setw_numeral (by norm_num) (toNat_color_lt color) (by norm_num)
  refine ⟨by rw [writeColor, List.length_cons, hlen]; norm_num, fun c hc => ?_⟩
  rcases List.mem_cons.1 hc with rfl | hc
  · decide
  · exact printable_of_isHexDigit (isHexDigit_of_mem_setw_numeral (by norm_num) le_rfl hc)

/-- The fields that the page posts are short. -/
theorem formItems_spec {cfg : OverlayConfig} (h : Whole cfg) :
    ∀ item ∈ formItems cfg, IsShort 11 item.1 ∧ IsShort 12 item.2 := by
  have hnumbers : ∀ text ∈ [writeInt cfg.fontSize, writeFloat cfg.marginX, writeFloat cfg.marginY,
      if cfg.showLabel then [49] else [48]], IsShort 12 text := by
    intro text htext
    obtain ⟨n, hn, rfl⟩ := exists_numeral h text htext
    exact isShort_numeral hn
  simp only [List.forall_mem_cons] at hnumbers
  obtain ⟨hfont, hx, hy, hlabel, -⟩ := hnumbers
  have hall : ∀ key ∈ formKeys,
      (key.length ≤ 11 && key.all fun c => 32 ≤ c && c ≤ 126) = true := by decide +kernel
  have hkeys (key : Bytes) (hkey : key ∈ formKeys) : IsShort 11 key :=
    isShort_of_all (hall key hkey)
  have hvalues : ∀ item ∈ formItems cfg, IsShort 12 item.2 := by
    simp only [formItems, List.forall_mem_cons]
    exact ⟨isShort_cornerName h.corner_ne, hfont, hx, hy, hlabel, isShort_writeColor _,
      isShort_writeColor _, List.forall_mem_nil _⟩
  refine fun item hitem => ⟨hkeys item.1 ?_, hvalues item hitem⟩
  rw [← map_fst_formItems cfg]
  exact List.mem_map_of_mem hitem

/-- The length of a form of short fields. -/
theorem length_formBody {items : List (Bytes × Bytes)}
    (h : ∀ item ∈ items, IsShort 11 item.1 ∧ IsShort 12 item.2) :
    items.length ≤ (formBody items).length ∧ (formBody items).length ≤ 71 * items.length := by
  induction items with
  | nil => exact ⟨le_rfl, le_rfl⟩
  | cons item items ih =>
    obtain ⟨hshort, h⟩ := List.forall_mem_cons.1 h
    have ih := ih h
    have hitem : 0 < (formItem item).length ∧ (formItem item).length ≤ 70 := by
      have h₁ := length_encodeURIComponent_le item.1
      have h₂ := length_encodeURIComponent_le item.2
      have := hshort.1.1
      have := hshort.2.1
      rw [formItem, List.length_append, List.length_cons]
      omega
    match items with
    | [] => exact ⟨hitem.1, hitem.2.trans (by norm_num)⟩
    | item' :: items =>
      rw [List.length_cons] at ih ⊢
      rw [formBody, List.length_append, List.length_cons, List.length_cons]
      · omega
      · exact List.cons_ne_nil _ _

theorem parseSettingsForm_formItems {cfg : OverlayConfig} (h : Whole cfg) :
    parseSettingsForm (formBody (formItems cfg)) = some (some cfg) := by
  obtain ⟨hfuel, hlen⟩ := length_formBody (formItems_spec h)
  have hcount : (formItems cfg).length = 7 := rfl
  have hprint : ∀ item ∈ formItems cfg, Printable item := by
    intro item hitem c hc
    rcases List.mem_append.1 hc with hc | hc
    · exact (formItems_spec h item hitem).1.2 c hc
    · exact (formItems_spec h item hitem).2.2 c hc
  refine parseSettingsForm_eq_some_iff.2 ⟨⟨by omega, by omega⟩, ?_⟩
  exact ⟨formItems cfg, formValues cfg, isBody_formBody hprint, .refl _, mean_formValues h⟩

/-! ## Stores -/

theorem sanitizeConfig_loadSettings (final : Option Bytes) :
    sanitizeConfig (loadSettings final) = loadSettings final := by
  have hdefault : sanitizeConfig {} = {} := by decide +kernel
  cases final with
  | none => exact hdefault
  | some data =>
    rw [loadSettings.eq_def]
    dsimp only
    split_ifs
    · exact sanitizeConfig_idem _
    · exact hdefault

/-- The configuration of a store is in range, whatever was saved. -/
theorem sanitizeConfig_state (files : SettingsFiles) (ι : ℕ → StoreEvent) (n : ℕ) :
    sanitizeConfig ((SettingsStore.driven files).state ι n).config =
      ((SettingsStore.driven files).state ι n).config := by
  induction n with
  | zero => exact sanitizeConfig_loadSettings files.final
  | succ n ih =>
    cases hn : ι n with
    | reopen =>
      rw [(state_of_reopen files hn).2]
      exact sanitizeConfig_loadSettings _
    | save config answers =>
      rw [(state_of_save files hn).2, SettingsStore.save]
      dsimp only
      split_ifs
      · exact sanitizeConfig_idem config
      · exact ih

theorem IsWhole.of_beq {x y : Single} (hx : IsWhole x) (h : x.beq y) : IsWhole y := by
  obtain ⟨n, rfl⟩ := hx
  exact ⟨n, (of_decide_eq_true h).symm⟩

/-- What the page loads it can save back exactly if both margins are whole numbers,
    in every state of a store. -/
theorem page_saves_iff (files : SettingsFiles) (ι : ℕ → StoreEvent) (n : ℕ) :
    RoundTrips ((SettingsStore.driven files).state ι n).config ↔
      IsWhole ((SettingsStore.driven files).state ι n).config.marginX ∧
        IsWhole ((SettingsStore.driven files).state ι n).config.marginY := by
  have hsanitized := sanitizeConfig_state files ι n
  generalize ((SettingsStore.driven files).state ι n).config = cfg at hsanitized ⊢
  constructor
  · rintro ⟨posted, hposted, hsame⟩
    have hwhole := whole_of_parseSettingsForm hposted
    simp only [sameConfig, Bool.and_eq_true] at hsame
    exact ⟨hwhole.marginX.of_beq hsame.1.1.1.1.2, hwhole.marginY.of_beq hsame.1.1.1.2⟩
  · rintro ⟨hx, hy⟩
    have h : Whole cfg := ⟨hsanitized, hx, hy⟩
    refine ⟨cfg, ?_, sameConfig_self h⟩
    rw [postedForm_serializeConfig h, parseSettingsForm_formItems h]

/-- A file with a margin of ten pixels and a half is loaded, and shown by the page,
    which then cannot save it. -/
theorem page_refused_half :
    let cfg := ((SettingsStore.driven ⟨some (ascii "margin_x=10.5\n"), none⟩).state
      (fun _ => .reopen) 0).config
    cfg.marginX = .finite 10.5 ∧ parseSettingsForm (postedForm (serializeConfig cfg)) = some none ∧
      ¬RoundTrips cfg := by
  have hrefused : parseSettingsForm (postedForm (serializeConfig
      (loadSettings (some (ascii "margin_x=10.5\n"))))) = some none := by decide +kernel
  refine ⟨by decide +kernel, hrefused, ?_⟩
  rintro ⟨posted, hposted, -⟩
  cases hrefused.symm.trans hposted

end CommonFps
