import CommonFps.Lib.Numeral
import CommonFps.Overlay.Config

/-!
# The text of the settings

How the settings are written to their file and read from it (`config.cpp`). The
reader is permissive: it skips what it does not understand, takes any number for
a margin, and brings the result into range at the end.

* `serializeConfig`, `parseConfigText`: the writer and the reader;
* `Whole`: the configurations that are in range and have margins of a whole
  number of pixels, those that a settings form can hold;
* `parseConfigText_serializeConfig`: such a configuration is read back as it was
  written.
-/

namespace CommonFps

/-! ## Writing -/

/-- The name of a corner in the file. -/
def cornerName : Corner → Bytes
  | .topLeft => ascii "top_left"
  | .topRight => ascii "top_right"
  | .bottomRight => ascii "bottom_right"
  | .bottomLeft | .invalid _ => ascii "bottom_left"

/-- An integer, as a stream writes it. -/
def writeInt (n : ℤ) : Bytes := (if n < 0 then [45] else []) ++ numeral 10 n.natAbs

/-- A floating-point number, as a stream writes it. -/
def writeFloat : Single → Bytes
  | .finite q => general 6 q
  | .posInf => ascii "inf"
  | .negInf => ascii "-inf"
  | .nan => ascii "nan"

/-- A colour as six hexadecimal digits. -/
def writeColor (color : UInt32) : Bytes :=
  35 :: setw 6 (numeral 16 (color &&& 0xFFFFFF).toNat)

/-- A line of the settings. -/
def settingLine (key value : Bytes) : Bytes := key ++ 61 :: value ++ [10]

/-- The text of a configuration: a line for each field. -/
def serializeConfig (cfg : OverlayConfig) : Bytes :=
  ascii "[overlay]\n" ++
    settingLine (ascii "corner") (cornerName cfg.corner) ++
    settingLine (ascii "font_size") (writeInt cfg.fontSize) ++
    settingLine (ascii "margin_x") (writeFloat cfg.marginX) ++
    settingLine (ascii "margin_y") (writeFloat cfg.marginY) ++
    settingLine (ascii "show_label") (if cfg.showLabel then [49] else [48]) ++
    settingLine (ascii "label_color") (writeColor cfg.labelColor) ++
    settingLine (ascii "value_color") (writeColor cfg.valueColor)

/-! ## Reading -/

/-- A value without the white space around it. -/
def trim (value : Bytes) : Bytes := (value.dropWhile isSpace).rdropWhile isSpace

/-- The corner of a name; one that is unknown means the bottom left. -/
def parseCorner (value : Bytes) : Corner :=
  if value = ascii "top_left" then .topLeft
  else if value = ascii "top_right" then .topRight
  else if value = ascii "bottom_right" then .bottomRight
  else .bottomLeft

/-- The finite number that a text, up to a NUL, reads as. -/
def number (text : Bytes) : Option Single :=
  match strtof (text.takeWhile (· ≠ 0)) with
  | some value => if value.IsFinite then some value else none
  | none => none

/-- The colour of six hexadecimal digits. -/
def parseColor (text : Bytes) : Option UInt32 :=
  let text := if text.head? = some 35 then text.tail else text
  if text.length = 6 ∧ text.all isHexDigit then some (readNumeral 16 text).toUInt32 else none

/-- The lines of a text, as `getline` gives them. -/
def getlines : Bytes → List Bytes
  | [] => []
  | c :: text =>
    if c = 10 then [] :: getlines text
    else match getlines text with
      | [] => [[c]]
      | line :: lines => (c :: line) :: lines

/-- The setting that a key names, given a value; unchanged if it makes no sense. -/
def setField (cfg : OverlayConfig) (key value : Bytes) : OverlayConfig :=
  if key = ascii "corner" then { cfg with corner := parseCorner value }
  else if key = ascii "font_size" then
    match number value with
    | some v => { cfg with fontSize := ⌊clamp v.value kMinFontSize kMaxFontSize⌋ }
    | none => cfg
  else if key = ascii "margin_x" then
    { cfg with marginX := (number value).getD cfg.marginX }
  else if key = ascii "margin_y" then
    { cfg with marginY := (number value).getD cfg.marginY }
  else if key = ascii "show_label" then
    if value = ascii "0" ∨ value = ascii "false" then { cfg with showLabel := false }
    else if value = ascii "1" ∨ value = ascii "true" then { cfg with showLabel := true }
    else cfg
  else if key = ascii "label_color" then
    { cfg with labelColor := (parseColor value).getD cfg.labelColor }
  else if key = ascii "value_color" then
    { cfg with valueColor := (parseColor value).getD cfg.valueColor }
  else cfg

/-- A line sets a field, or is passed over. -/
def parseLine (cfg : OverlayConfig) (line : Bytes) : OverlayConfig :=
  let line := trim line
  if line = [] ∨ line.head? = some 35 ∨ line.head? = some 59 ∨ line.head? = some 91 then cfg
  else
    match find [61] line with
    | none => cfg
    | some pos => setField cfg (trim (line.take pos)) (trim (line.drop (pos + 1)))

/-- The configuration of a text: the lines, one after the other, over the defaults. -/
def parseConfigText (text : Bytes) : OverlayConfig :=
  sanitizeConfig ((getlines text).foldl parseLine {})

/-! ## What is written is read back -/

/-- The number is a whole one, and not negative. -/
def IsWhole (x : Single) : Prop := ∃ n : ℕ, x = .finite n

/-- The configuration is in range, and its margins are whole. -/
structure Whole (cfg : OverlayConfig) : Prop where
  sanitized : sanitizeConfig cfg = cfg
  marginX : IsWhole cfg.marginX
  marginY : IsWhole cfg.marginY

section Trim

variable {s : Bytes} (hs : ∀ c ∈ s, ¬isSpace c)
include hs

/-- Nothing is trimmed where there is no space. -/
theorem trim_of_no_space : trim s = s := by
  have h₁ : s.dropWhile isSpace = s := by
    cases s with
    | nil => rfl
    | cons c s => exact List.dropWhile_cons_of_neg (hs c List.mem_cons_self)
  rw [trim, h₁, List.rdropWhile_eq_self_iff]
  exact fun hne => hs _ (List.getLast_mem hne)

end Trim

/-- A line ends at its line feed. -/
theorem getlines_append {line : Bytes} (h : 10 ∉ line) (text : Bytes) :
    getlines (line ++ 10 :: text) = line :: getlines text := by
  induction line with
  | nil => rw [List.nil_append, getlines, if_pos rfl]
  | cons c line ih =>
    have hc : c ≠ 10 := fun hc => h (hc ▸ List.mem_cons_self)
    rw [List.cons_append, getlines, if_neg hc, ih fun hl => h (List.mem_cons_of_mem _ hl)]

/-- The bytes a key is made of. -/
def isKeyByte (c : UInt8) : Bool := !isSpace c && c ≠ 61 && c ≠ 35 && c ≠ 59 && c ≠ 91

section Line

variable {key value : Bytes} (hkey : key.all isKeyByte ∧ key ≠ [])
  (hvalue : ∀ c ∈ value, ¬isSpace c)
include hkey hvalue

/-- A line with a key and a value is parsed as one. -/
theorem parseLine_keyValue (cfg : OverlayConfig) :
    parseLine cfg (key ++ 61 :: value) = setField cfg key value := by
  have hk {c : UInt8} (hc : c ∈ key) :
      ¬isSpace c ∧ c ≠ 61 ∧ c ≠ 35 ∧ c ≠ 59 ∧ c ≠ 91 := by
    simpa [isKeyByte, and_assoc] using List.all_eq_true.1 hkey.1 c hc
  have hline : trim (key ++ 61 :: value) = key ++ 61 :: value :=
    trim_of_no_space fun c hc => by
      rcases List.mem_append.1 hc with hc | hc
      · exact (hk hc).1
      · rcases List.mem_cons.1 hc with rfl | hc
        · decide
        · exact hvalue c hc
  obtain ⟨a, key', rfl⟩ := List.exists_cons_of_ne_nil hkey.2
  have ha := (hk (c := a) List.mem_cons_self).2.2
  have hskip : ¬(a :: key' ++ 61 :: value = [] ∨ (a :: key' ++ 61 :: value).head? = some 35 ∨
      (a :: key' ++ 61 :: value).head? = some 59 ∨
        (a :: key' ++ 61 :: value).head? = some 91) := by
    simpa using ha
  rw [parseLine, hline]
  simp only [if_neg hskip, find_byte_append (fun h => (hk h).2.1 rfl) value]
  rw [List.take_left, ← List.drop_drop, List.drop_left, List.drop_one, List.tail_cons,
    trim_of_no_space fun c hc => (hk hc).1, trim_of_no_space hvalue]

/-- A setting is one line, before whatever follows it. -/
theorem settingLine_append (text : Bytes) :
    settingLine key value ++ text = (key ++ 61 :: value) ++ 10 :: text ∧
      10 ∉ key ++ 61 :: value := by
  constructor
  · rw [settingLine, List.append_assoc (key ++ 61 :: value), List.singleton_append]
  · intro h
    rcases List.mem_append.1 h with h | h
    · exact absurd (List.all_eq_true.1 hkey.1 10 h) (by decide)
    · rcases List.mem_cons.1 h with h | h
      · exact absurd h (by decide)
      · exact hvalue 10 h rfl

/-- The setting of the first line is read first. -/
theorem foldl_settingLine (cfg : OverlayConfig) (text : Bytes) :
    (getlines (settingLine key value ++ text)).foldl parseLine cfg =
      (getlines text).foldl parseLine (setField cfg key value) := by
  obtain ⟨happend, hline⟩ := settingLine_append hkey hvalue text
  rw [happend, getlines_append hline, List.foldl_cons, parseLine_keyValue hkey hvalue]

end Line

/-! ### The values -/

/-- A digit of a colour is no space. -/
theorem not_isSpace_of_isHexDigit {c : UInt8} (h : isHexDigit c) : ¬isSpace c := by
  revert c
  decide +kernel

theorem not_isSpace_of_isDigit {c : UInt8} (h : isDigit c) : ¬isSpace c :=
  not_isSpace_of_isHexDigit (by rw [isHexDigit, hexValue, if_pos h, Option.isSome_some])

/-- The name of a corner has no spaces. -/
theorem not_isSpace_cornerName {corner : Corner} (h : ∀ n, corner ≠ .invalid n) :
    ∀ c ∈ cornerName corner, ¬isSpace c := by
  cases corner with
  | invalid n => exact absurd rfl (h n)
  | topLeft | topRight | bottomLeft | bottomRight => decide +kernel

/-- A colour is written without white space. -/
theorem not_isSpace_writeColor (color : UInt32) : ∀ c ∈ writeColor color, ¬isSpace c := by
  intro c hc
  rcases List.mem_cons.1 hc with rfl | hc
  · decide
  · exact not_isSpace_of_isHexDigit (isHexDigit_of_mem_setw_numeral (by norm_num) le_rfl hc)

/-- So is a number. -/
theorem not_isSpace_numeral (n : ℕ) : ∀ c ∈ numeral 10 n, ¬isSpace c :=
  fun _ hc => not_isSpace_of_isDigit (isDigit_of_mem_numeral hc)

theorem writeInt_natCast (n : ℕ) : writeInt n = numeral 10 n := by
  rw [writeInt, if_neg (by omega), List.nil_append, Int.natAbs_natCast]

/-- A numeral is read back as its number. -/
theorem number_numeral {n : ℕ} (h : n < 2 ^ 24) : number (numeral 10 n) = some (.finite n) := by
  have htake : (numeral 10 n).takeWhile (fun c => decide (c ≠ 0)) = numeral 10 n := by
    rw [List.takeWhile_eq_self_iff]
    intro c hc
    have := isDigit_of_mem_numeral hc
    exact decide_eq_true fun h => absurd (h ▸ this) (by decide)
  rw [number, htake, strtof_numeral h]
  rfl

/-- A colour has six hexadecimal digits. -/
theorem toNat_color_lt (color : UInt32) : (color &&& 0xFFFFFF).toNat < 16 ^ 6 := by
  rw [UInt32.toNat_and]
  exact (Nat.and_le_right).trans_lt (by decide)

/-- A colour that is written is read back. -/
theorem parseColor_writeColor (color : UInt32) :
    parseColor (writeColor color) = some (color &&& 0xFFFFFF) := by
  have hlen := length_setw_numeral (by norm_num) (toNat_color_lt color) (by norm_num)
  have hall : (setw 6 (numeral 16 (color &&& 0xFFFFFF).toNat)).all isHexDigit :=
    List.all_eq_true.2 fun c hc => isHexDigit_of_mem_setw_numeral (by norm_num) le_rfl hc
  rw [parseColor, writeColor]
  simp only [List.head?_cons, if_pos, List.tail_cons]
  rw [if_pos ⟨hlen, hall⟩, readNumeral_setw_numeral (by norm_num) le_rfl]
  exact congrArg some UInt32.ofNat_toNat

/-! ### The round trip -/

/-- A margin of a whole number of pixels, in range. -/
def IsWholeMargin (m : Single) : Prop := ∃ n : ℕ, n ≤ 240 ∧ m = .finite n

/-- A whole number that is left as it is by the bounds is a whole margin. -/
theorem IsWhole.margin {m : Single} (h : IsWhole m) {q : ℚ} (hm : sanitizeMargin m q = m) :
    IsWholeMargin m := by
  obtain ⟨n, rfl⟩ := h
  rw [sanitizeMargin_finite, Single.finite.injEq] at hm
  have : (n : ℚ) ≤ 240 := hm ▸ clamp_le (by norm_num)
  exact ⟨n, by exact_mod_cast this, rfl⟩

namespace IsWholeMargin

variable {m : Single}

/-- A whole margin that is written is read back. -/
theorem number_writeFloat (h : IsWholeMargin m) : number (writeFloat m) = some m := by
  obtain ⟨n, hn, rfl⟩ := h
  rw [writeFloat, general_natCast (by omega), number_numeral (by omega)]

theorem not_isSpace (h : IsWholeMargin m) : ∀ c ∈ writeFloat m, ¬isSpace c := by
  obtain ⟨n, hn, rfl⟩ := h
  rw [writeFloat, general_natCast (by omega)]
  exact not_isSpace_numeral n

/-- A margin is written with three digits at most. -/
theorem length_writeFloat_le (h : IsWholeMargin m) : (writeFloat m).length ≤ 3 := by
  obtain ⟨n, hn, rfl⟩ := h
  rw [writeFloat, general_natCast (by omega)]
  exact length_numeral_le (by norm_num) (by omega) (by norm_num)

end IsWholeMargin

namespace Whole

variable {cfg : OverlayConfig} (h : Whole cfg)
include h

/-- The corner is one of the four. -/
theorem corner_ne (n : ℤ) : cfg.corner ≠ .invalid n := by
  intro hc
  have := congrArg OverlayConfig.corner h.sanitized
  rw [hc] at this
  simp [sanitizeConfig, sanitizeCorner, hc] at this

/-- The font size is a natural number between its bounds. -/
theorem exists_fontSize :
    ∃ n : ℕ, cfg.fontSize = n ∧ kMinFontSize ≤ cfg.fontSize ∧ cfg.fontSize ≤ kMaxFontSize := by
  have hclamp : clamp cfg.fontSize kMinFontSize kMaxFontSize = cfg.fontSize :=
    congrArg OverlayConfig.fontSize h.sanitized
  have hmin : kMinFontSize ≤ cfg.fontSize := hclamp ▸ le_clamp (by decide)
  obtain ⟨n, hn⟩ := Int.eq_ofNat_of_zero_le ((by decide : 0 ≤ kMinFontSize).trans hmin)
  exact ⟨n, hn, hmin, hclamp ▸ clamp_le (by decide)⟩

/-- The margins are whole. -/
theorem wholeMarginX : IsWholeMargin cfg.marginX :=
  h.marginX.margin (congrArg OverlayConfig.marginX h.sanitized)

theorem wholeMarginY : IsWholeMargin cfg.marginY :=
  h.marginY.margin (congrArg OverlayConfig.marginY h.sanitized)

/-- The colours have no other bits. -/
theorem labelColor_mask : cfg.labelColor &&& 0xFFFFFF = cfg.labelColor :=
  congrArg OverlayConfig.labelColor h.sanitized

theorem valueColor_mask : cfg.valueColor &&& 0xFFFFFF = cfg.valueColor :=
  congrArg OverlayConfig.valueColor h.sanitized

end Whole

section Fields

variable (cfg : OverlayConfig)

/-- A line that was written sets its field to what was written: the corner. -/
theorem setField_corner {corner : Corner} (h : ∀ n, corner ≠ .invalid n) :
    setField cfg (ascii "corner") (cornerName corner) = { cfg with corner } := by
  cases corner with
  | invalid n => exact absurd rfl (h n)
  | topLeft | topRight | bottomLeft | bottomRight => rfl

/-- The font size. -/
theorem setField_fontSize {n : ℕ} (h₁ : kMinFontSize ≤ n) (h₂ : (n : ℤ) ≤ kMaxFontSize) :
    setField cfg (ascii "font_size") (numeral 10 n) = { cfg with fontSize := n } := by
  have hn : n ≤ 64 := by exact_mod_cast (show (n : ℤ) ≤ (64 : ℕ) from h₂)
  have hclamp : ⌊clamp (n : ℚ) kMinFontSize kMaxFontSize⌋ = n := by
    rw [clamp_of_mem (by exact_mod_cast h₁) (by exact_mod_cast h₂), Int.floor_natCast]
  rw [setField, if_neg (by decide), if_pos rfl, number_numeral (by omega)]
  simp only [Single.value_finite, hclamp]

/-- The margins. -/
theorem setField_marginX {m : Single} (h : IsWholeMargin m) :
    setField cfg (ascii "margin_x") (writeFloat m) = { cfg with marginX := m } := by
  rw [setField, if_neg (by decide), if_neg (by decide), if_pos rfl, h.number_writeFloat,
    Option.getD_some]

theorem setField_marginY {m : Single} (h : IsWholeMargin m) :
    setField cfg (ascii "margin_y") (writeFloat m) = { cfg with marginY := m } := by
  rw [setField, if_neg (by decide), if_neg (by decide), if_neg (by decide), if_pos rfl,
    h.number_writeFloat, Option.getD_some]

/-- Whether the label is shown. -/
theorem setField_showLabel (showLabel : Bool) :
    setField cfg (ascii "show_label") (if showLabel then [49] else [48]) =
      { cfg with showLabel } := by
  cases showLabel <;> rfl

/-- The colours. -/
theorem setField_labelColor (color : UInt32) :
    setField cfg (ascii "label_color") (writeColor color) =
      { cfg with labelColor := color &&& 0xFFFFFF } := by
  rw [setField, parseColor_writeColor]
  rfl

theorem setField_valueColor (color : UInt32) :
    setField cfg (ascii "value_color") (writeColor color) =
      { cfg with valueColor := color &&& 0xFFFFFF } := by
  rw [setField, parseColor_writeColor]
  rfl

end Fields

/-- The lines of the text. -/
theorem serializeConfig_eq (cfg : OverlayConfig) :
    serializeConfig cfg = ascii "[overlay]" ++ 10 ::
      (settingLine (ascii "corner") (cornerName cfg.corner) ++
        (settingLine (ascii "font_size") (writeInt cfg.fontSize) ++
          (settingLine (ascii "margin_x") (writeFloat cfg.marginX) ++
            (settingLine (ascii "margin_y") (writeFloat cfg.marginY) ++
              (settingLine (ascii "show_label") (if cfg.showLabel then [49] else [48]) ++
                (settingLine (ascii "label_color") (writeColor cfg.labelColor) ++
                  (settingLine (ascii "value_color") (writeColor cfg.valueColor) ++ []))))))) := by
  have hhead : ascii "[overlay]\n" = ascii "[overlay]" ++ [10] := by decide +kernel
  rw [serializeConfig, List.append_nil]
  simp only [hhead, List.append_assoc, List.cons_append, List.nil_append]

theorem not_isSpace_showLabel (b : Bool) : ∀ c ∈ (if b then [49] else [48] : Bytes), ¬isSpace c := by
  cases b <;> decide +kernel

/-- A configuration that a form can hold is read back as it was written. -/
theorem parseConfigText_serializeConfig {cfg : OverlayConfig} (h : Whole cfg) :
    parseConfigText (serializeConfig cfg) = cfg := by
  obtain ⟨n, hn, hn₁, hn₂⟩ := h.exists_fontSize
  have hread : (getlines (serializeConfig cfg)).foldl parseLine {} = cfg := by
    rw [serializeConfig_eq, hn, writeInt_natCast, getlines_append (by decide), List.foldl_cons]
    rw [foldl_settingLine (by decide) (not_isSpace_cornerName h.corner_ne),
      foldl_settingLine (by decide) (not_isSpace_numeral n),
      foldl_settingLine (by decide) h.wholeMarginX.not_isSpace,
      foldl_settingLine (by decide) h.wholeMarginY.not_isSpace,
      foldl_settingLine (by decide) (not_isSpace_showLabel _),
      foldl_settingLine (by decide) (not_isSpace_writeColor _),
      foldl_settingLine (by decide) (not_isSpace_writeColor _)]
    rw [setField_corner _ h.corner_ne, setField_fontSize _ (hn ▸ hn₁) (hn ▸ hn₂),
      setField_marginX _ h.wholeMarginX, setField_marginY _ h.wholeMarginY, setField_showLabel,
      setField_labelColor, setField_valueColor, h.labelColor_mask, h.valueColor_mask, ← hn]
    rfl
  rw [parseConfigText, hread, h.sanitized]

/-- A whole configuration is short when written. -/
theorem length_serializeConfig_le {cfg : OverlayConfig} (h : Whole cfg) :
    (serializeConfig cfg).length ≤ 4096 := by
  obtain ⟨n, hn, -, hn₂⟩ := h.exists_fontSize
  have hcorner : (cornerName cfg.corner).length ≤ 12 := by
    cases hc : cfg.corner with
    | invalid n => exact absurd hc (h.corner_ne n)
    | topLeft | topRight | bottomLeft | bottomRight => decide
  have hfont : (writeInt cfg.fontSize).length ≤ 2 := by
    rw [hn, writeInt_natCast]
    have : n ≤ 64 := by exact_mod_cast (show (n : ℤ) ≤ (64 : ℕ) from hn ▸ hn₂)
    exact length_numeral_le (by norm_num) (by omega) (by norm_num)
  have hx := h.wholeMarginX.length_writeFloat_le
  have hy := h.wholeMarginY.length_writeFloat_le
  have hshow : (if cfg.showLabel then [49] else [48] : Bytes).length = 1 := by
    cases cfg.showLabel <;> rfl
  have hcolor (c : UInt32) : (writeColor c).length = 7 :=
    congrArg (· + 1) (length_setw_numeral (by norm_num) (toNat_color_lt c) (by norm_num))
  have hline (key value : Bytes) : (settingLine key value).length = key.length + value.length + 2 := by
    rw [settingLine, List.length_append, List.length_append, List.length_cons]
    rfl
  rw [serializeConfig]
  simp only [List.length_append, hline, hshow, hcolor]
  have hkeys : (ascii "[overlay]\n").length + (ascii "corner").length + (ascii "font_size").length +
      (ascii "margin_x").length + (ascii "margin_y").length + (ascii "show_label").length +
        (ascii "label_color").length + (ascii "value_color").length = 73 := by decide +kernel
  omega

end CommonFps
