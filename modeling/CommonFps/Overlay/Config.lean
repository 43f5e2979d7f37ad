import CommonFps.Lib.Single
import CommonFps.Fps.Rate

/-!
# The configuration of the overlay and its layout

The settings of the overlay (`types.hpp`), how they are brought into range
(`overlay_config.cpp`) and where they put the overlay (`layout.cpp`). The layout
sanitises its settings first.

* `sanitizeConfig`: a configuration in range, a fixed point being one that was;
* `computeLayout`, `computeAnchor`: the overlay in the coordinates of a scene.
-/

namespace CommonFps

/-- The scene that the settings are made for. -/
def kLogicalWidth : ℚ := 1920

/-- Its height. -/
def kLogicalHeight : ℚ := 1080

/-- The size of the font, unless it is set. -/
def kDefaultFontSize : ℤ := 22

/-- The distance from the side of the scene, unless it is set. -/
def kDefaultMarginX : ℚ := 10

/-- The distance from its top or bottom, unless it is set. -/
def kDefaultMarginY : ℚ := 4

/-- The smallest font. -/
def kMinFontSize : ℤ := 14

/-- The largest font. -/
def kMaxFontSize : ℤ := 64

/-- A corner of the screen. The underlying integer may also be one that names
    none. -/
inductive Corner
  | topLeft
  | topRight
  | bottomLeft
  | bottomRight
  | invalid (value : ℤ)
  deriving DecidableEq

/-- A point of a scene. -/
structure Vec2 where
  x : ℚ := 0
  y : ℚ := 0
  deriving DecidableEq

/-- The settings of the overlay. -/
structure OverlayConfig where
  corner : Corner := .bottomLeft
  fontSize : ℤ := kDefaultFontSize
  marginX : Single := .finite kDefaultMarginX
  marginY : Single := .finite kDefaultMarginY
  showLabel : Bool := true
  labelColor : UInt32 := 0xB366FF
  valueColor : UInt32 := 0xFFFFFF
  deriving DecidableEq

/-- What the overlay shows, and how. -/
structure OverlayFrame where
  visible : Bool := false
  loading : Bool := true
  fps : ℤ := 0
  config : OverlayConfig := {}
  anchor : Vec2 := {}
  deriving DecidableEq

/-! ## Sanitising -/

/-- A corner that there is. -/
def sanitizeCorner : Corner → Corner
  | .invalid _ => .bottomLeft
  | corner => corner

/-- A margin in range, or the default if it is no number. -/
def sanitizeMargin (margin : Single) (byDefault : ℚ) : Single :=
  if margin.IsFinite then .finite (clamp margin.value 0 240) else .finite byDefault

/-- The settings, brought into range. -/
def sanitizeConfig (cfg : OverlayConfig) : OverlayConfig :=
  { cfg with
    corner := sanitizeCorner cfg.corner
    fontSize := clamp cfg.fontSize kMinFontSize kMaxFontSize
    marginX := sanitizeMargin cfg.marginX kDefaultMarginX
    marginY := sanitizeMargin cfg.marginY kDefaultMarginY
    labelColor := cfg.labelColor &&& 0xFFFFFF
    valueColor := cfg.valueColor &&& 0xFFFFFF }

/-- The settings are equal, as the floating-point numbers in them are compared. -/
def sameConfig (a b : OverlayConfig) : Bool :=
  a.corner = b.corner && a.fontSize = b.fontSize && a.marginX.beq b.marginX &&
    a.marginY.beq b.marginY && a.showLabel = b.showLabel && a.labelColor = b.labelColor &&
    a.valueColor = b.valueColor

theorem sanitizeCorner_idem (c : Corner) : sanitizeCorner (sanitizeCorner c) = sanitizeCorner c := by
  cases c <;> rfl

theorem sanitizeMargin_finite (q byDefault : ℚ) :
    sanitizeMargin (.finite q) byDefault = .finite (clamp q 0 240) := by
  rw [sanitizeMargin, if_pos (Single.isFinite_finite q), Single.value_finite]

theorem sanitizeMargin_isFinite (m : Single) (q : ℚ) : (sanitizeMargin m q).IsFinite := by
  rw [sanitizeMargin]
  split_ifs <;> trivial

theorem sanitizeMargin_value_mem (m : Single) {q : ℚ} (h₀ : 0 ≤ q) (h₁ : q ≤ 240) :
    0 ≤ (sanitizeMargin m q).value ∧ (sanitizeMargin m q).value ≤ 240 := by
  rw [sanitizeMargin]
  split_ifs
  · exact ⟨le_clamp (by norm_num), clamp_le (by norm_num)⟩
  · exact ⟨h₀, h₁⟩

theorem sanitizeMargin_idem (m : Single) {q : ℚ} (h₀ : 0 ≤ q) (h₁ : q ≤ 240) :
    sanitizeMargin (sanitizeMargin m q) q = sanitizeMargin m q := by
  have hm := (sanitizeMargin_isFinite m q).eq
  have := sanitizeMargin_value_mem m h₀ h₁
  rw [hm, sanitizeMargin_finite, clamp_of_mem this.1 this.2]

theorem mask_mask (c : UInt32) : c &&& 0xFFFFFF &&& 0xFFFFFF = c &&& 0xFFFFFF := by
  rw [UInt32.and_assoc, UInt32.and_self]

/-- A sanitised configuration is in range. -/
theorem sanitizeConfig_idem (cfg : OverlayConfig) :
    sanitizeConfig (sanitizeConfig cfg) = sanitizeConfig cfg := by
  simp only [sanitizeConfig, sanitizeCorner_idem, mask_mask]
  rw [clamp_clamp (by decide), sanitizeMargin_idem cfg.marginX (by decide) (by decide),
    sanitizeMargin_idem cfg.marginY (by decide) (by decide)]

/-! ## Layout -/

/-- Where the overlay is, and how large. -/
structure OverlayLayout where
  anchor : Vec2 := {}
  fontSize : ℤ := kDefaultFontSize
  labelAdvance : ℚ := 0
  width : ℚ := 0
  height : ℚ := 0
  deriving DecidableEq

/-- A dimension of a scene, or the logical one where it makes no sense. -/
def sceneDimension (d : Single) (lo hi logical : ℚ) : ℚ :=
  if ¬d.IsFinite ∨ d.value < lo ∨ d.value > hi then logical else d.value

/-- The layout in a scene, for the settings brought into range. The overlay keeps its margins as far as it
    fits. -/
def computeLayout (input : OverlayConfig) (sceneWidth sceneHeight : Single) (loading : Bool) :
    OverlayLayout :=
  let cfg := sanitizeConfig input
  let sceneWidth := sceneDimension sceneWidth 640 7680 kLogicalWidth
  let sceneHeight := sceneDimension sceneHeight 360 4320 kLogicalHeight
  let scale := min (sceneWidth / kLogicalWidth) (sceneHeight / kLogicalHeight)
  let fontSize := max 1 (lround (cfg.fontSize * scale))
  let labelAdvance : ℚ := if cfg.showLabel then fontSize * 2.7 else 0
  let width : ℚ := labelAdvance + fontSize * (if loading then 4.5 else 2.5)
  let height : ℚ := fontSize * 1.45
  let left := min (cfg.marginX.value * scale) (sceneWidth - width)
  let top := min (cfg.marginY.value * scale) (sceneHeight - height)
  let right := max 0 (sceneWidth - width - left)
  let bottom := max 0 (sceneHeight - height - top)
  let anchor : Vec2 := match cfg.corner with
    | .topLeft => ⟨left, top⟩
    | .topRight => ⟨right, top⟩
    | .bottomRight => ⟨right, bottom⟩
    | .bottomLeft | .invalid _ => ⟨left, bottom⟩
  { anchor, fontSize, labelAdvance, width, height }

/-- Where the overlay is in the logical scene, while it shows a rate. -/
def computeAnchor (cfg : OverlayConfig) : Vec2 :=
  (computeLayout cfg (.finite kLogicalWidth) (.finite kLogicalHeight) false).anchor

end CommonFps
