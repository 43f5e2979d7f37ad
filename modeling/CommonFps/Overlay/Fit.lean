import CommonFps.Overlay.Config

/-!
# The overlay fits the scene

A font is scaled by the smaller ratio of the scene to the logical one, so that
the overlay, whose size is a multiple of the font, is never larger than the
scene, whatever the ratios are; and its margins, scaled the same way, never
exceed the space left.

* `fontSize_le`: the font, before and after rounding;
* `width_le_scene`, `height_le_scene`: the overlay is no larger than the scene;
* `computeLayout_fits`: it lies in the scene, and mirrored corners mirror it.
-/

namespace CommonFps

/-- The dimensions of a scene that the layout uses. -/
def effectiveWidth (sceneWidth : Single) : ℚ := sceneDimension sceneWidth 640 7680 kLogicalWidth

/-- The height of the scene that is used. -/
def effectiveHeight (sceneHeight : Single) : ℚ := sceneDimension sceneHeight 360 4320 kLogicalHeight

/-- The scale of the overlay. -/
def sceneScale (sceneWidth sceneHeight : Single) : ℚ :=
  min (effectiveWidth sceneWidth / kLogicalWidth) (effectiveHeight sceneHeight / kLogicalHeight)

/-- A dimension is in its range, whatever is given. -/
theorem sceneDimension_mem (d : Single) {lo hi logical : ℚ} (h₁ : lo ≤ logical) (h₂ : logical ≤ hi) :
    lo ≤ sceneDimension d lo hi logical ∧ sceneDimension d lo hi logical ≤ hi := by
  rw [sceneDimension]
  split_ifs with h
  · exact ⟨h₁, h₂⟩
  · push Not at h
    exact h.2

theorem effectiveWidth_mem (w : Single) : 640 ≤ effectiveWidth w ∧ effectiveWidth w ≤ 7680 :=
  sceneDimension_mem w (by norm_num [kLogicalWidth]) (by norm_num [kLogicalWidth])

theorem effectiveHeight_mem (h : Single) : 360 ≤ effectiveHeight h ∧ effectiveHeight h ≤ 4320 :=
  sceneDimension_mem h (by norm_num [kLogicalHeight]) (by norm_num [kLogicalHeight])

section Scene

variable (cfg : OverlayConfig) (w h : Single) (loading : Bool)

/-! ## The font -/

/-- The overlay is scaled, but not to nothing. -/
theorem sceneScale_pos : 0 < sceneScale w h := by
  have hw := (effectiveWidth_mem w).1
  have hh := (effectiveHeight_mem h).1
  exact lt_min (div_pos (by linarith) (by decide)) (div_pos (by linarith) (by decide))

theorem sceneScale_le_width : sceneScale w h * 1920 ≤ effectiveWidth w := by
  rw [← le_div_iff₀ (by norm_num)]
  exact min_le_left _ _

theorem sceneScale_le_height : sceneScale w h * 1080 ≤ effectiveHeight h := by
  rw [← le_div_iff₀ (by norm_num)]
  exact min_le_right _ _

/-- The font is not smaller than 1. -/
theorem one_le_fontSize : 1 ≤ (computeLayout cfg w h loading).fontSize := le_max_left _ _

/-- A font is at most the largest one, scaled and rounded up. -/
theorem fontSize_le : ((computeLayout cfg w h loading).fontSize : ℚ) ≤
    max 1 (kMaxFontSize * sceneScale w h + 1 / 2) := by
  have hfont : ((sanitizeConfig cfg).fontSize : ℚ) ≤ kMaxFontSize :=
    Int.cast_le.2 (clamp_le (by decide))
  have hround := lround_le ((sanitizeConfig cfg).fontSize * sceneScale w h)
  have hscaled := mul_le_mul_of_nonneg_right hfont (sceneScale_pos w h).le
  have heq : (computeLayout cfg w h loading).fontSize =
    max 1 (lround ((sanitizeConfig cfg).fontSize * sceneScale w h)) := rfl
  rw [heq, Int.cast_max, Int.cast_one]
  exact max_le_max le_rfl (by linarith)

/-! ## The size of the overlay -/

/-- The width is at most that of a label and of the loading text. -/
theorem width_le : (computeLayout cfg w h loading).width ≤
    (computeLayout cfg w h loading).fontSize * 7.2 := by
  have hfont : (1 : ℚ) ≤ (computeLayout cfg w h loading).fontSize := by
    exact_mod_cast one_le_fontSize cfg w h loading
  have heq : (computeLayout cfg w h loading).width =
    (if (sanitizeConfig cfg).showLabel then ((computeLayout cfg w h loading).fontSize : ℚ) * 2.7 else 0) +
      ((computeLayout cfg w h loading).fontSize : ℚ) * (if loading then 4.5 else 2.5) := rfl
  rw [heq]
  split_ifs <;> linarith

theorem height_eq : (computeLayout cfg w h loading).height =
    (computeLayout cfg w h loading).fontSize * 1.45 := rfl

/-- The overlay is not wider than the scene. -/
theorem width_le_scene : (computeLayout cfg w h loading).width ≤ effectiveWidth w := by
  have hscale := sceneScale_le_width w h
  have hmin := (effectiveWidth_mem w).1
  have hwidth := width_le cfg w h loading
  rcases le_max_iff.1 (fontSize_le cfg w h loading) with hfont | hfont
  · linarith
  · rw [kMaxFontSize] at hfont
    push_cast at hfont
    linarith

/-- It is not higher than the scene either. -/
theorem height_le_scene : (computeLayout cfg w h loading).height ≤ effectiveHeight h := by
  have hscale := sceneScale_le_height w h
  have hmin := (effectiveHeight_mem h).1
  rw [height_eq]
  rcases le_max_iff.1 (fontSize_le cfg w h loading) with hfont | hfont
  · linarith
  · rw [kMaxFontSize] at hfont
    push_cast at hfont
    linarith

/-! ## The anchor -/

/-- A margin, scaled, or the space left. -/
def overlayLeft : ℚ := min ((sanitizeConfig cfg).marginX.value * sceneScale w h)
  (effectiveWidth w - (computeLayout cfg w h loading).width)

/-- The y coordinate of the upper edge of the overlay. -/
def overlayTop : ℚ := min ((sanitizeConfig cfg).marginY.value * sceneScale w h)
  (effectiveHeight h - (computeLayout cfg w h loading).height)

/-- The left side of the overlay is in the scene, and so is its right side. -/
theorem overlayLeft_mem : 0 ≤ overlayLeft cfg w h loading ∧
    overlayLeft cfg w h loading ≤ effectiveWidth w - (computeLayout cfg w h loading).width := by
  have hmargin : 0 ≤ (sanitizeConfig cfg).marginX.value :=
    (sanitizeMargin_value_mem cfg.marginX (by decide) (by decide)).1
  exact ⟨le_min (mul_nonneg hmargin (sceneScale_pos w h).le)
    (sub_nonneg.2 (width_le_scene cfg w h loading)), min_le_right _ _⟩

/-- Its top is in the scene, and so is its bottom. -/
theorem overlayTop_mem : 0 ≤ overlayTop cfg w h loading ∧
    overlayTop cfg w h loading ≤ effectiveHeight h - (computeLayout cfg w h loading).height := by
  have hmargin : 0 ≤ (sanitizeConfig cfg).marginY.value :=
    (sanitizeMargin_value_mem cfg.marginY (by decide) (by decide)).1
  exact ⟨le_min (mul_nonneg hmargin (sceneScale_pos w h).le)
    (sub_nonneg.2 (height_le_scene cfg w h loading)), min_le_right _ _⟩

/-- Where a corner puts the overlay: the right and the bottom mirror the left and
    the top. -/
def cornerAnchor (corner : Corner) : Vec2 :=
  let left := overlayLeft cfg w h loading
  let top := overlayTop cfg w h loading
  let right := effectiveWidth w - (computeLayout cfg w h loading).width - left
  let bottom := effectiveHeight h - (computeLayout cfg w h loading).height - top
  match corner with
  | .topLeft => ⟨left, top⟩
  | .topRight => ⟨right, top⟩
  | .bottomRight => ⟨right, bottom⟩
  | .bottomLeft | .invalid _ => ⟨left, bottom⟩

/-- The anchor is that of the corner. -/
theorem anchor_eq : (computeLayout cfg w h loading).anchor = cornerAnchor cfg w h loading cfg.corner := by
  have hleft := sub_nonneg.2 (overlayLeft_mem cfg w h loading).2
  have htop := sub_nonneg.2 (overlayTop_mem cfg w h loading).2
  have heq : (computeLayout cfg w h loading).anchor = match sanitizeCorner cfg.corner with
    | .topLeft => ⟨overlayLeft cfg w h loading, overlayTop cfg w h loading⟩
    | .topRight => ⟨max 0 (effectiveWidth w - (computeLayout cfg w h loading).width -
        overlayLeft cfg w h loading), overlayTop cfg w h loading⟩
    | .bottomRight => ⟨max 0 (effectiveWidth w - (computeLayout cfg w h loading).width -
        overlayLeft cfg w h loading), max 0 (effectiveHeight h -
        (computeLayout cfg w h loading).height - overlayTop cfg w h loading)⟩
    | .bottomLeft | .invalid _ => ⟨overlayLeft cfg w h loading, max 0 (effectiveHeight h -
        (computeLayout cfg w h loading).height - overlayTop cfg w h loading)⟩ := rfl
  rw [heq, max_eq_right hleft, max_eq_right htop]
  cases cfg.corner <;> rfl

/-- A corner changes nothing but the anchor. -/
theorem anchor_at (corner : Corner) : (computeLayout { cfg with corner } w h loading).anchor =
    cornerAnchor cfg w h loading corner := anchor_eq { cfg with corner } w h loading

/-- The overlay fits into the scene in each corner. -/
theorem cornerAnchor_fits (corner : Corner) :
    let anchor := cornerAnchor cfg w h loading corner
    (0 ≤ anchor.x ∧ anchor.x + (computeLayout cfg w h loading).width ≤ effectiveWidth w) ∧
      0 ≤ anchor.y ∧ anchor.y + (computeLayout cfg w h loading).height ≤ effectiveHeight h := by
  obtain ⟨hx₀, hx⟩ := overlayLeft_mem cfg w h loading
  obtain ⟨hy₀, hy⟩ := overlayTop_mem cfg w h loading
  cases corner <;> exact ⟨⟨by simp only [cornerAnchor]; linarith, by simp only [cornerAnchor]; linarith⟩,
    by simp only [cornerAnchor]; linarith, by simp only [cornerAnchor]; linarith⟩

/-- For any settings, any scene and both loading states, the overlay lies in the
    scene, with a font; the right corners mirror the left ones, and the bottom
    ones the top ones. -/
theorem computeLayout_fits : 1 ≤ (computeLayout cfg w h loading).fontSize ∧
    let layout := computeLayout cfg w h loading
    let anchorAt (corner : Corner) := (computeLayout { cfg with corner } w h loading).anchor
    (0 ≤ layout.anchor.x ∧ layout.anchor.x + layout.width ≤ effectiveWidth w) ∧
      (0 ≤ layout.anchor.y ∧ layout.anchor.y + layout.height ≤ effectiveHeight h) ∧
      ((anchorAt .topRight).x = effectiveWidth w - layout.width - (anchorAt .topLeft).x ∧
        (anchorAt .topRight).y = (anchorAt .topLeft).y) ∧
      ((anchorAt .bottomRight).x = effectiveWidth w - layout.width - (anchorAt .bottomLeft).x ∧
        (anchorAt .bottomRight).y = (anchorAt .bottomLeft).y) ∧
      ((anchorAt .bottomLeft).y = effectiveHeight h - layout.height - (anchorAt .topLeft).y ∧
        (anchorAt .bottomLeft).x = (anchorAt .topLeft).x) ∧
      ((anchorAt .bottomRight).y = effectiveHeight h - layout.height - (anchorAt .topRight).y ∧
        (anchorAt .bottomRight).x = (anchorAt .topRight).x) := by
  refine ⟨one_le_fontSize cfg w h loading, ?_⟩
  intro layout anchorAt
  have hat : anchorAt = cornerAnchor cfg w h loading := by
    funext corner
    exact anchor_at cfg w h loading corner
  obtain ⟨hx, hy⟩ := cornerAnchor_fits cfg w h loading cfg.corner
  rw [← anchor_eq] at hx hy
  rw [hat]
  exact ⟨hx, hy, ⟨rfl, rfl⟩, ⟨rfl, rfl⟩, ⟨rfl, rfl⟩, ⟨rfl, rfl⟩⟩

end Scene

end CommonFps
