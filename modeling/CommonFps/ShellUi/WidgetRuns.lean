import CommonFps.ShellUi.WidgetPresent

/-!
# Calls and runs of the renderer

What a call leaves behind (`apply_packet_on_render`), and from it what holds after any
number of calls, whatever fails.

* `applyFrame_spec`, `applyPacketOnRender_spec`: a call;
* `Ui.runs`: the calls one after the other.
-/

namespace CommonFps

open Handles

/-- The layout that a call computes. -/
def frameLayout (frame : OverlayFrame) : OverlayLayout :=
  computeLayout frame.config (.finite kLogicalWidth) (.finite kLogicalHeight) frame.loading

variable {s : Ui} {t : Targets} {l : List (ℕ × Option Obj)}

/-! ## Selective updates -/

/-- Every property that a frame prescribes is set. -/
def Part.redraw (p : Part) (frame : OverlayFrame) (layout : OverlayLayout) (w : Widget) : Widget :=
  { w with
    font := layout.fontSize, textColor := rgbColor (p.rgb frame.config), x := p.x layout,
    y := layout.anchor.y, text := p.text frame }

theorem Widget.Shows.redraw {w : Widget} {p : Part} {frame : OverlayFrame} {layout : OverlayLayout}
    (h : w.Shows p frame layout) : p.redraw frame layout w = w := by
  rw [Part.redraw, ← h.font, ← h.textColor, ← h.x, ← h.y, ← h.content]

/-- The effect of restyling the label. -/
def labelUpdates (c : Changes) (frame : OverlayFrame) (layout : OverlayLayout) (w : Widget) : Widget :=
  { w with
    font := if c.font then layout.fontSize else w.font
    textColor := if c.color .label then rgbColor frame.config.labelColor else w.textColor
    text := if c.labelText then labelText frame.config else w.text
    x := if c.layout then layout.anchor.x else w.x
    y := if c.layout then layout.anchor.y else w.y }

/-- The effect of restyling the value. -/
def valueUpdates (c : Changes) (frame : OverlayFrame) (layout : OverlayLayout) (w : Widget) : Widget :=
  { w with
    font := if c.font then layout.fontSize else w.font
    textColor := if c.color .value then rgbColor frame.config.valueColor else w.textColor
    text := valueText frame
    x := if c.layout then layout.anchor.x + layout.labelAdvance else w.x
    y := if c.layout then layout.anchor.y else w.y }

section Restyle

variable {object : Option Obj} {font : PinnedObject ℤ} {frame : OverlayFrame}
  {layout : OverlayLayout}

theorem restyleLabel_spec (h : s.Owned t l) (hfont : font.own ⊆ l)
    (hfont' : font.Holds layout.fontSize) (c : Changes) (answers : PartAnswers) :
    Wp (restyleLabel object frame layout c font answers) s
      (s.SetTo t l Widget.name object (labelUpdates c frame layout)) := by
  refine (ifChanged_spec (φ := Widget.name) h
    (setFont_spec h (fun _ _ => rfl) hfont hfont' answers.font) c.font).seq fun ok₁ s₁ h₁ => ?_
  refine h₁.seq (ifChanged_spec h₁.owned (applyRgb_spec h₁.owned (fun _ _ => rfl) _ answers.rgb) _)
    fun ok₂ s₂ h₂ => ?_
  refine h₂.seq (ifChanged_spec h₂.owned (setLabelText_spec h₂.owned (fun _ _ => rfl) _ answers.text)
    _) fun ok₃ s₃ h₃ => ?_
  refine h₃.seq (ifChanged_spec h₃.owned (setPropertyDirect_spec putX h₃.owned (fun _ _ => rfl) _
    answers.x) _) fun ok₄ s₄ h₄ => ?_
  refine h₄.seq (ifChanged_spec h₄.owned (setPropertyDirect_spec putY h₄.owned (fun _ _ => rfl) _
    answers.y) _) fun ok₅ s₅ h₅ => ?_
  refine .pure ⟨h₅.owned, h₅.same, h₅.others, h₅.kept, fun hok n hn => (h₅.set hok n hn).trans ?_⟩
  simp only [Function.comp_apply, labelUpdates]
  split_ifs <;> rfl

theorem restyleValue_spec (h : s.Owned t l) (hfont : font.own ⊆ l)
    (hfont' : font.Holds layout.fontSize) (c : Changes) (answers : PartAnswers) :
    Wp (restyleValue object frame layout c font answers) s
      (s.SetTo t l Widget.name object (valueUpdates c frame layout)) := by
  refine (ifChanged_spec (φ := Widget.name) h
    (setFont_spec h (fun _ _ => rfl) hfont hfont' answers.font) c.font).seq fun ok₁ s₁ h₁ => ?_
  refine h₁.seq (ifChanged_spec h₁.owned (applyRgb_spec h₁.owned (fun _ _ => rfl) _ answers.rgb) _)
    fun ok₂ s₂ h₂ => ?_
  refine h₂.seq (ifChanged_spec h₂.owned (setPropertyDirect_spec putX h₂.owned (fun _ _ => rfl) _
    answers.x) _) fun ok₃ s₃ h₃ => ?_
  refine h₃.seq (ifChanged_spec h₃.owned (setPropertyDirect_spec putY h₃.owned (fun _ _ => rfl) _
    answers.y) _) fun ok₄ s₄ h₄ => ?_
  refine h₄.seq (setLabelText_spec h₄.owned (fun _ _ => rfl) _ answers.text) fun ok₅ s₅ h₅ => ?_
  refine .pure ⟨h₅.owned, h₅.same, h₅.others, h₅.kept, fun hok n hn => (h₅.set hok n hn).trans ?_⟩
  simp only [Function.comp_apply, valueUpdates]
  split_ifs <;> rfl

/-- What is not set again is as it should be. -/
theorem ite_changed {α : Type} {changed : Bool} {v w : α} (h : changed = false → w = v) :
    (if changed then v else w) = v := by
  cases changed with
  | false => exact h rfl
  | true => rfl

section Updates

variable {config : OverlayConfig}

theorem unchanged_font (h : (changes s config layout).font = false) :
    s.styleApplied = true ∧ s.appliedLayout.fontSize = layout.fontSize := by
  have hfont : s.styleApplied = true ∧ layout.fontSize = s.appliedLayout.fontSize := by
    simpa [changes] using h
  exact hfont.imp_right Eq.symm

theorem unchanged_color {p : Part} (h : (changes s config layout).color p = false) :
    s.styleApplied = true ∧ p.rgb s.appliedConfig = p.rgb config := by
  have hcolor : s.styleApplied = true ∧ p.rgb config = p.rgb s.appliedConfig := by
    simpa [changes] using h
  exact hcolor.imp_right Eq.symm

theorem unchanged_labelText (h : (changes s config layout).labelText = false) :
    s.styleApplied = true ∧ labelText s.appliedConfig = labelText config := by
  have hshow : s.styleApplied = true ∧ config.showLabel = s.appliedConfig.showLabel := by
    simpa [changes] using h
  exact ⟨hshow.1, by rw [labelText, labelText, hshow.2]⟩

theorem unchanged_layout (h : (changes s config layout).layout = false) :
    s.styleApplied = true ∧ s.appliedLayout.anchor.y = layout.anchor.y ∧
      ∀ p : Part, p.x s.appliedLayout = p.x layout := by
  have hall : ((s.styleApplied = true ∧ layout.anchor.x = s.appliedLayout.anchor.x) ∧
      layout.anchor.y = s.appliedLayout.anchor.y) ∧
        layout.labelAdvance = s.appliedLayout.labelAdvance := by simpa [changes] using h
  obtain ⟨⟨⟨happlied, hx⟩, hy⟩, hadvance⟩ := hall
  refine ⟨happlied, hy.symm, fun p => ?_⟩
  cases p with
  | label => exact hx.symm
  | value => rw [Part.x.eq_def, Part.x.eq_def, hx, hadvance]

end Updates

/-- Properties that are set if they have changed are as prescribed, if the widget had the
    style that was applied. -/
theorem Widget.Styled.updated {p : Part} {w w' : Widget} {c : Changes}
    (hw : s.styleApplied = true → w.Styled p s.appliedConfig s.appliedLayout)
    (hc : c = changes s frame.config layout)
    (hfont : w'.font = if c.font then layout.fontSize else w.font)
    (hcolor : w'.textColor = if c.color p then rgbColor (p.rgb frame.config) else w.textColor)
    (hx : w'.x = if c.layout then p.x layout else w.x)
    (hy : w'.y = if c.layout then layout.anchor.y else w.y)
    (htext : p = .label → w'.text = labelText frame.config) :
    w'.Styled p frame.config layout where
  font := hfont.trans <| ite_changed fun hf => by
    obtain ⟨happlied, hsize⟩ := unchanged_font (hc ▸ hf)
    exact (hw happlied).font.trans hsize
  textColor := hcolor.trans <| ite_changed fun hf => by
    obtain ⟨happlied, hrgb⟩ := unchanged_color (hc ▸ hf)
    exact (hw happlied).textColor.trans (congrArg rgbColor hrgb)
  x := hx.trans <| ite_changed fun hf => by
    obtain ⟨happlied, -, hsame⟩ := unchanged_layout (hc ▸ hf)
    exact (hw happlied).x.trans (hsame p)
  y := hy.trans <| ite_changed fun hf => by
    obtain ⟨happlied, hsame, -⟩ := unchanged_layout (hc ▸ hf)
    exact (hw happlied).y.trans hsame
  text := htext

/-- Selective updates of a label that had the style that was applied. -/
theorem labelUpdates_shows {w : Widget}
    (hw : s.styleApplied = true → w.Styled .label s.appliedConfig s.appliedLayout) :
    (labelUpdates (changes s frame.config layout) frame layout w).Shows .label frame layout := by
  have htext : (labelUpdates (changes s frame.config layout) frame layout w).text =
      labelText frame.config := by
    refine ite_changed fun hf => ?_
    obtain ⟨happlied, hsame⟩ := unchanged_labelText hf
    exact ((hw happlied).text rfl).trans hsame
  exact ⟨.updated hw rfl rfl rfl rfl rfl fun _ => htext, htext⟩

/-- Selective updates of a value that had the style that was applied. -/
theorem valueUpdates_shows {w : Widget}
    (hw : s.styleApplied = true → w.Styled .value s.appliedConfig s.appliedLayout) :
    (valueUpdates (changes s frame.config layout) frame layout w).Shows .value frame layout :=
  ⟨.updated hw rfl rfl rfl rfl rfl nofun, rfl⟩

end Restyle

/-! ## A call -/

namespace Ui

/-- Both widgets are held and show the frame, and its style is the one that is applied. -/
structure Drawn (s : Ui) (t : Targets) (frame : OverlayFrame) : Prop where
  applied : s.styleApplied = true
  config : s.appliedConfig = frame.config
  layout : s.appliedLayout = frameLayout frame
  handle : ∀ p, s.partHandle p ≠ 0
  shows : ∀ p, ∃ n, t.part p = some (.widget n) ∧ (s.widget n).Shows p frame (frameLayout frame)

/-- What a call leaves behind. Its widgets are unique if they were, under a condition. -/
structure After (frame : OverlayFrame) (u : Prop) (ok : Bool) (s : Ui) (t : Targets) : Prop where
  sound : s.Sound t
  drawn : ok = true → s.Drawn t frame
  unique : u → s.Unique

theorem After.handles {frame : OverlayFrame} {u : Prop} {ok : Bool} (h : After frame u ok s t)
    (hs : GcHandles) : After frame u ok { s with handles := hs } t where
  sound := h.sound.handles hs
  drawn hok := ⟨(h.drawn hok).applied, (h.drawn hok).config, (h.drawn hok).layout,
    (h.drawn hok).handle, (h.drawn hok).shows⟩
  unique := h.unique

/-- A style that was drawn is sound. -/
theorem Drawn.sound {frame : OverlayFrame} (h : s.Drawn t frame) (hs : s.Linked t) : s.Sound t where
  toLinked := hs
  held _ := h.handle
  styled _ p w hw := by
    obtain ⟨n, htarget, hshows⟩ := h.shows p
    obtain rfl : w = n := by injection hw.symm.trans htarget with heq; injection heq
    rw [h.config, h.layout]
    exact hshows.toStyled

variable {s' : Ui} {object : Option Obj} {f : Widget → Widget} {ok : Bool}

/-- Restyling keeps the widgets linked. -/
theorem SetTo.linked (h : s.SetTo t l Widget.name object f ok s') (hs : s.Linked t) :
    s'.Linked t := by
  rw [h.same]
  refine ⟨hs.child, fun p hp => ?_⟩
  obtain ⟨w, hw, htarget, hname⟩ := hs.part p hp
  exact ⟨w, hw, htarget, (h.kept w).trans hname⟩

/-- Restyling keeps the widgets unique. -/
theorem SetTo.unique (h : s.SetTo t l Widget.name object f ok s') (hu : s.Unique) : s'.Unique := by
  intro root p
  have hchildren : s'.children = s.children := by rw [h.same]
  simp only [hchildren, h.kept]
  exact hu root p

end Ui

/-- A widget that was restyled, if it was there before, shows the frame. -/
theorem Ui.Ready.updated {p : Part} {current : Option Obj} {frame : OverlayFrame}
    {layout : OverlayLayout} {n : ℕ} {f : Widget → Widget}
    (h : s.Ready t p current.isNone frame layout (.widget n)) (hs : s.Sound t)
    (hf : ∀ w : Widget, (s.styleApplied = true → w.Styled p s.appliedConfig s.appliedLayout) →
      (f w).Shows p frame layout) :
    ((if current.isSome then f else id) (s.widget n)).Shows p frame layout := by
  cases current with
  | none => exact h.shows rfl n rfl
  | some _ => exact hf _ fun happlied => hs.styled happlied p n h.target

/-- The last part of a call: the widgets that were there are restyled. -/
theorem restyle_spec {frame : OverlayFrame} {layout : OverlayLayout} {label value : Option Obj}
    {labelObject valueObject : Obj} {font : PinnedObject ℤ} {c : Changes} (h : s.Owned t l)
    (hs : s.Sound t) (hlabel : s.Ready t .label label.isNone frame layout labelObject)
    (hvalue : s.Ready t .value value.isNone frame layout valueObject) (hfont : font.own ⊆ l)
    (hfont' : font.Holds layout.fontSize) (hlayout : layout = frameLayout frame)
    (hc : c = changes s frame.config layout) (answers : Part → PartAnswers) :
    Wp (do
      let okLabel ← ifChanged label.isSome
        (restyleLabel (some labelObject) frame layout c font (answers .label))
      let okValue ← ifChanged value.isSome
        (restyleValue (some valueObject) frame layout c font (answers .value))
      if ¬(okLabel && okValue) then
        modify fun s => { s with styleApplied := false }
        return false
      modify fun s => { s with
        appliedConfig := frame.config, appliedLayout := layout, styleApplied := true }
      return true) s fun ok s' => s'.Owned t l ∧ Ui.After frame s.Unique ok s' t := by
  subst hc
  refine (ifChanged_spec h (restyleLabel_spec h hfont hfont' _ _) _).seq fun okLabel s₁ h₁ => ?_
  refine (ifChanged_spec h₁.owned (restyleValue_spec h₁.owned hfont hfont' _ _) _).seq
    fun okValue s₂ h₂ => ?_
  have hlinked := h₂.linked (h₁.linked hs.toLinked)
  have hunique (hu : s.Unique) := h₂.unique (h₁.unique hu)
  split_ifs with hok
  · obtain ⟨hokLabel, hokValue⟩ := Bool.and_eq_true_iff.1 hok
    obtain ⟨lw, hlw, hltarget, hlname⟩ := hs.part .label hlabel.handle
    obtain ⟨vw, hvw, hvtarget, hvname⟩ := hs.part .value hvalue.handle
    obtain rfl : labelObject = .widget lw := by
      injection hlabel.target.symm.trans hltarget
    obtain rfl : valueObject = .widget vw := by
      injection hvalue.target.symm.trans hvtarget
    -- The parts have different names, so that styling one leaves the other as it is.
    have hne : lw ≠ vw := by
      rintro rfl
      exact Part.id_injective.ne (show Part.label ≠ .value from nofun) (hlname.symm.trans hvname)
    have hlabel' : (s₂.widget lw).Shows .label frame layout := by
      rw [h₂.others lw (by simpa using hne.symm), h₁.set hokLabel lw rfl]
      exact hlabel.updated hs fun _ => labelUpdates_shows
    have hvalue' : (s₂.widget vw).Shows .value frame layout := by
      rw [h₂.set hokValue vw rfl, h₁.others vw (by simpa using hne)]
      exact hvalue.updated hs fun _ => valueUpdates_shows
    subst hlayout
    have hdrawn : ({ s₂ with
        appliedConfig := frame.config, appliedLayout := frameLayout frame, styleApplied := true } :
          Ui).Drawn t frame := by
      refine ⟨rfl, rfl, rfl, fun p => ?_, fun p => ?_⟩
      · have hsame : s₂.partHandle = s.partHandle := by rw [h₂.same, h₁.same]
        rw [hsame]
        cases p with
        | label => exact hlabel.handle
        | value => exact hvalue.handle
      · cases p with
        | label => exact ⟨lw, hltarget, hlabel'⟩
        | value => exact ⟨vw, hvtarget, hvalue'⟩
    -- Both show the frame, whose configuration and layout are remembered as applied.
    have hsound := hdrawn.sound ⟨hlinked.child, hlinked.part⟩
    exact .bind (.modify (.pure ⟨h₂.owned, hsound, fun _ => hdrawn, hunique⟩))
  · refine .bind (.modify (.pure ⟨h₂.owned, ?_, nofun, hunique⟩))
    exact ⟨⟨hlinked.child, hlinked.part⟩, nofun, nofun⟩

/-- The condition under which no second child of the name is appended: the widget is
    held, or it can be looked up, or there is none, or nothing can be appended. -/
def Ui.Settled (s : Ui) (p : Part) (root : Obj) (answers : PartAnswers) : Prop :=
  s.partHandle p ≠ 0 ∨ (answers.find.thunk = true ∧ answers.find.name.Succeeds) ∨
    answers.append = false ∨ ∀ w ∈ s.children root, (s.widget w).name ≠ p.id

/-- A widget is only appended if there is none of its name. -/
theorem Ui.Settled.absent {p : Part} {root : Obj} {answers : PartAnswers} {current : Option Obj}
    (h : s.Settled p root answers) (hcur : s.Current t p root answers.find current)
    (hnone : current = none) (happend : answers.append = true) :
    ∀ w ∈ s.children root, (s.widget w).name ≠ p.id := by
  rcases h with hheld | ⟨hthunk, hname⟩ | hrefused | habsent
  · have hsome := (hcur.held hheld).1
    rw [hnone] at hsome
    exact absurd hsome Bool.false_ne_true
  · exact hcur.absent hnone hthunk hname
  · exact absurd (hrefused.symm.trans happend) Bool.false_ne_true
  · exact habsent

theorem Ui.Presented.changes_eq {p : Part} {root : Obj} {current r : Option Obj} {w : Widget}
    {append : Bool} {s' : Ui} {t' : Targets} (h : s.Presented t p root current w append r s' t') :
    changes s' = changes s := by
  rw [h.same]
  rfl

/-- The part of a call after the two widgets were looked up. -/
theorem presentParts_spec {frame : OverlayFrame} {layout : OverlayLayout} {root : Obj}
    {label value : Option Obj} {font : PinnedObject ℤ} {c : Changes} {answers : ApplyAnswers}
    (h : s.Owned t l) (hs : s.Sound t)
    (hlabel : s.Current t .label root (answers.part .label).find label)
    (hvalue : s.Current t .value root (answers.part .value).find value) (hfont : font.own ⊆ l)
    (hfont' : font.Holds layout.fontSize) (hlayout : layout = frameLayout frame)
    (hc : c = changes s frame.config layout) :
    Wp (do
      match ← presentPart .label root label frame layout font (answers.part .label) with
      | none => return false
      | some labelObject =>
        match ← presentPart .value root value frame layout font (answers.part .value) with
        | none => return false
        | some valueObject =>
          if ¬answers.klass then return false
          let okLabel ← ifChanged label.isSome
            (restyleLabel (some labelObject) frame layout c font (answers.part .label))
          let okValue ← ifChanged value.isSome
            (restyleValue (some valueObject) frame layout c font (answers.part .value))
          if ¬(okLabel && okValue) then
            modify fun s => { s with styleApplied := false }
            return false
          modify fun s => { s with
            appliedConfig := frame.config, appliedLayout := layout, styleApplied := true }
          return true) s fun ok s' => ∃ t', s'.Owned t' l ∧
            Ui.After frame (s.Unique ∧ ∀ p, s.Settled p root (answers.part p)) ok s' t' := by
  refine (presentPart_spec h .label root label frame layout hfont hfont' _).seq ?_
  rintro labelObject s₁ ⟨t₁, h₁, hp₁⟩
  have hs₁ := hp₁.sound hs hlabel
  -- To present the label leaves the value as it was found.
  have hvalue₁ := hp₁.current_other hs.toLinked (show Part.value ≠ .label from nofun) hvalue
  have hu₁ (hu : s.Unique ∧ ∀ p, s.Settled p root (answers.part p)) : s₁.Unique :=
    hp₁.unique hs.toLinked hu.1 ((hu.2 .label).absent hlabel)
  cases labelObject with
  | none => exact .pure ⟨t₁, h₁, hs₁, nofun, hu₁⟩
  | some labelObject =>
    refine (presentPart_spec h₁ .value root value frame layout hfont hfont' _).seq ?_
    rintro valueObject s₂ ⟨t₂, h₂, hp₂⟩
    have hs₂ := hp₂.sound hs₁ hvalue₁
    have hu₂ (hu : s.Unique ∧ ∀ p, s.Settled p root (answers.part p)) : s₂.Unique := by
      refine hp₂.unique hs₁.toLinked (hu₁ hu) fun hnone happend => ?_
      exact hp₁.absent_other hs.toLinked nofun ((hu.2 .value).absent hvalue hnone happend)
    cases valueObject with
    | none => exact .pure ⟨t₂, h₂, hs₂, nofun, hu₂⟩
    | some valueObject =>
      split_ifs
      · have hready₁ := hp₂.ready_other hs₁.toLinked (show Part.label ≠ .value from nofun)
          (hp₁.ready rfl)
        have hc₂ : c = changes s₂ frame.config layout := by
          rw [hc, hp₂.changes_eq, hp₁.changes_eq]
        refine (restyle_spec h₂ hs₂ hready₁ (hp₂.ready rfl) hfont hfont' hlayout hc₂ _).conseq ?_
        rintro ok s₃ ⟨h₃, hafter⟩
        exact ⟨t₂, h₃, hafter.sound, hafter.drawn, fun hu => hafter.unique (hu₂ hu)⟩
      · exact .pure ⟨t₂, h₂, hs₂, nofun, hu₂⟩

theorem applyFrame_spec (h : s.Owned t l) (hs : s.Sound t) (frame : OverlayFrame) (root : Obj)
    (answers : ApplyAnswers) :
    Wp (applyFrame frame root answers) s fun ok s' => ∃ t', s'.Owned t' l ∧
      Ui.After frame (s.Unique ∧ ∀ p, s.Settled p root (answers.part p)) ok s' t' := by
  rw [applyFrame]
  refine (currentPart_spec h hs.toLinked .label root _).seq ?_
  rintro label s₁ ⟨h₁, hs₁, hlabel⟩
  obtain ⟨handles₁, rfl⟩ : ∃ hs, s₁ = { s with handles := hs } := ⟨_, hs₁⟩
  refine (currentPart_spec h₁ (hs.toLinked.handles _) .value root _).seq ?_
  rintro value s₂ ⟨h₂, hs₂, hvalue⟩
  obtain ⟨handles₂, rfl⟩ : ∃ hs, s₂ = { s with handles := hs } := ⟨_, hs₂⟩
  refine .bind (.get ?_)
  have hcreate (needsFont : Bool) : Wp (if needsFont then createBox (frameLayout frame).fontSize
      answers.font else return {}) handles₂ fun p hs => hs.Owns (p.own ++ (l ++ s.held t)) ∧
        p.Holds (frameLayout frame).fontSize := by
    split_ifs
    · exact createBox_spec h₂ _ _
    · exact .pure ⟨h₂, PinnedObject.holds_empty _⟩
  refine Wp.withPinned (hcreate _) ?_ fun _ _ _ hs' hafter => hafter.handles hs'
  intro font handles₃ hfont h₃
  have hown := List.subset_append_left font.own l
  refine Wp.isPinned h₃ hown hfont fun pinned _ => ?_
  refine .ite (fun _ => .pure ⟨t, h₃, hs.handles _, nofun, And.left⟩) fun _ => ?_
  exact presentParts_spec h₃ (hs.handles _) (hlabel.handles _) (hvalue.handles _) hown hfont rfl rfl

/-! ## Scene and root of a call -/

/-- What the handle in a variable leads to. -/
def Ui.target (s : Ui) (handle : ℕ) : Option Obj := (managedTarget handle s.handles).1

/-- The condition on a call under which it appends no second child of the name: its packet
    is refused, or no scene is found; or the widget is held and its scene and root are the
    same as before, or it can be looked up, or nothing can be appended, or there is no
    root that has such a child. -/
def Ui.SettledFor (s : Ui) (packet : WirePacket) (answers : ApplyAnswers) (p : Part) : Prop :=
  decodeWirePacket packet = none ∨ ¬answers.scene.Found ∨
    (s.partHandle p ≠ 0 ∧ s.target s.gameSceneHandle = answers.scene.scene.map .found ∧
      s.target s.rootHandle = answers.root.map .found) ∨
    ((answers.part p).find.thunk = true ∧ (answers.part p).find.name.Succeeds) ∨
      (answers.part p).append = false ∨
        ∀ root, answers.root.map Obj.found = some root →
          ∀ w ∈ s.children root, (s.widget w).name ≠ p.id

section Refresh

variable {s' : Ui} {t' : Targets} {ok : Bool} {answers : ApplyAnswers} {scene : Option ℕ} {root : Obj}

theorem Ui.Sound.dropped (hs : s.Sound t) (hs' : GcHandles) (scene root : ℕ) (t' : Targets) :
    (s.dropped hs' scene root).Sound t' :=
  ⟨⟨hs.child, fun _ hp => absurd rfl hp⟩, nofun, nofun⟩

theorem SceneRefreshed.sound (h : SceneRefreshed s t scene ok s' t') (hs : s.Sound t) :
    s'.Sound t' := by
  cases h with
  | kept hs' => exact hs.handles hs'
  | dropped hs' handle => exact hs.dropped hs' handle 0 _

theorem RootRefreshed.sound (h : RootRefreshed s t root ok s' t') (hs : s.Sound t) : s'.Sound t' := by
  cases h with
  | kept hs' => exact hs.handles hs'
  | dropped hs' handle => exact hs.dropped hs' _ handle _

/-- The widgets and the children stay as they are. -/
theorem SceneRefreshed.same (h : SceneRefreshed s t scene ok s' t') :
    s'.children = s.children ∧ s'.widget = s.widget := by
  cases h <;> exact ⟨rfl, rfl⟩

theorem RootRefreshed.same (h : RootRefreshed s t root ok s' t') :
    s'.children = s.children ∧ s'.widget = s.widget := by
  cases h <;> exact ⟨rfl, rfl⟩

theorem Ui.Unique.congr (hu : s.Unique) (hsame : s'.children = s.children ∧ s'.widget = s.widget) :
    s'.Unique := by
  rw [Ui.Unique, hsame.1, hsame.2]
  exact hu

/-- What is held or can be looked up when the scene and the root were refreshed. -/
theorem Ui.SettledFor.settled {p : Part} {packet : WirePacket} {s₁ s₂ : Ui} {t₁ t₂ : Targets}
    (hsettled : s.SettledFor packet answers p) (hpacket : decodeWirePacket packet ≠ none)
    (hfound : answers.scene.Found) (h : s.Owned t l)
    (hscene : SceneRefreshed s t answers.scene.scene true s₁ t₁)
    (hroot : RootRefreshed s₁ t₁ root true s₂ t₂) (hanswer : answers.root.map .found = some root) :
    s₂.Settled p root (answers.part p) := by
  rcases hsettled with hnone | hmissing | ⟨hheld, hsame, hsame'⟩ | hlookup | hrefused | habsent
  · exact absurd hnone hpacket
  · exact absurd hfound hmissing
  · have hscene₀ : (if s.gameSceneHandle = 0 then none else t.scene) = answers.scene.scene.map .found :=
      (managedTarget_spec h (scene_subset s t l)).1.symm.trans hsame
    have hroot₀ : (if s.rootHandle = 0 then none else t.root) = some root :=
      (managedTarget_spec h (root_subset s t l)).1.symm.trans (hsame'.trans hanswer)
    rcases hscene with ⟨hs₁, -⟩ | ⟨hs₁, handle, n, hn, hother⟩
    · rcases hroot with ⟨hs₂, -⟩ | ⟨hs₂, handle, hother⟩
      · exact .inl hheld
      · split_ifs at hroot₀ with hzero
        exact absurd hroot₀ (hother.resolve_left hzero)
    · rw [hn, Option.map_some] at hscene₀
      split_ifs at hscene₀ with hzero
      exact absurd hscene₀ (hother.resolve_left hzero)
  · exact .inr (.inl hlookup)
  · exact .inr (.inr (.inl hrefused))
  · refine .inr (.inr (.inr ?_))
    rw [hroot.same.1, hroot.same.2, hscene.same.1, hscene.same.2]
    exact habsent root hanswer

end Refresh

/-- What a call leaves behind. -/
structure Ui.Called (s : Ui) (packet : WirePacket) (answers : ApplyAnswers) (ok : Bool) (s' : Ui)
    (t' : Targets) : Prop where
  sound : s'.Sound t'
  drawn : ok = true → ∃ frame, decodeWirePacket packet = some frame ∧ s'.Drawn t' frame
  unique : s.Unique → (∀ p, s.SettledFor packet answers p) → s'.Unique

theorem applyPacketOnRender_spec (h : s.Owned t l) (hs : s.Sound t) (packet : WirePacket)
    (answers : ApplyAnswers) :
    Wp (applyPacketOnRender packet answers) s fun ok s' => ∃ t', s'.Owned t' l ∧
      s.Called packet answers ok s' t' := by
  rw [applyPacketOnRender]
  cases hdecode : decodeWirePacket packet with
  | none => exact .pure ⟨t, h, hs, nofun, fun hu _ => hu⟩
  | some frame =>
    refine ((refreshGameScene_found s answers.scene).and (refreshGameScene_spec h answers.scene)).seq ?_
    rintro ok s₁ ⟨hfound, t₁, h₁, hscene⟩
    have hs₁ := hscene.sound hs
    have hu₁ (hu : s.Unique) := hu.congr hscene.same
    cases ok with
    | false => exact .pure ⟨t₁, h₁, hs₁, nofun, fun hu _ => hu₁ hu⟩
    | true =>
      refine (getRootWidget_spec h₁ answers.root).seq ?_
      rintro root _ ⟨rfl, hanswer⟩
      cases root with
      | none => exact .pure ⟨t₁, h₁, hs₁, nofun, fun hu _ => hu₁ hu⟩
      | some root =>
        refine (refreshRoot_spec h₁ root answers.rootPin).seq ?_
        rintro ok s₂ ⟨t₂, h₂, hroot⟩
        have hs₂ := hroot.sound hs₁
        have hu₂ (hu : s.Unique) := (hu₁ hu).congr hroot.same
        cases ok with
        | false => exact .pure ⟨t₂, h₂, hs₂, nofun, fun hu _ => hu₂ hu⟩
        | true =>
          refine (applyFrame_spec h₂ hs₂ frame root answers).conseq ?_
          rintro ok s₃ ⟨t₃, h₃, hafter⟩
          refine ⟨t₃, h₃, hafter.sound, fun hok => ⟨frame, hdecode, hafter.drawn hok⟩, ?_⟩
          intro hu hsettled
          -- A part that was settled before the call is so in the scene and root that the call found.
          exact hafter.unique ⟨hu₂ hu, fun p =>
            (hsettled p).settled (by rw [hdecode]; nofun) (hfound rfl) h hscene hroot
              (hanswer root rfl).2⟩

/-! ## Runs -/

namespace Ui

/-- Nothing is held or applied yet. The children of a root are widgets that there are. -/
structure Initial (s : Ui) : Prop where
  handles : s.handles = {}
  scene : s.gameSceneHandle = 0
  root : s.rootHandle = 0
  part : ∀ p, s.partHandle p = 0
  style : s.styleApplied = false
  child : ∀ root, ∀ w ∈ s.children root, w < s.made

/-- The state after these calls. -/
def runs (s : Ui) (calls : List (WirePacket × ApplyAnswers)) : Ui :=
  calls.foldl (fun s call => (applyPacketOnRender call.1 call.2 s).2) s

theorem runs_append (s : Ui) (calls : List (WirePacket × ApplyAnswers))
    (call : WirePacket × ApplyAnswers) :
    s.runs (calls ++ [call]) = (applyPacketOnRender call.1 call.2 (s.runs calls)).2 :=
  List.foldl_append

theorem Initial.owned (h : s.Initial) : s.Owned {} [] := by
  have hheld : s.held {} = [] := by
    simp only [held, h.scene, h.root, h.part, slot_zero, List.append_nil]
  rw [Owned, hheld, h.handles]
  exact owns_empty

theorem Initial.sound (h : s.Initial) : s.Sound {} where
  child := h.child
  part p hp := absurd (h.part p) hp
  held happlied := absurd (h.style.symm.trans happlied) Bool.false_ne_true
  styled happlied := absurd (h.style.symm.trans happlied) Bool.false_ne_true

/-- After any calls, the handles are those in the variables, and they lead to the widgets. -/
theorem Initial.runs (h : s.Initial) (calls : List (WirePacket × ApplyAnswers)) :
    ∃ t, (s.runs calls).Owned t [] ∧ (s.runs calls).Sound t := by
  induction calls using List.reverseRecOn with
  | nil => exact ⟨{}, h.owned, h.sound⟩
  | append_singleton calls call ih =>
    obtain ⟨t, howned, hsound⟩ := ih
    obtain ⟨t', howned', hcalled⟩ := applyPacketOnRender_spec howned hsound call.1 call.2
    rw [runs_append]
    exact ⟨t', howned', hcalled.sound⟩

/-- The variables that hold handles. -/
def gcHandles (s : Ui) : List ℕ :=
  [s.gameSceneHandle, s.rootHandle, s.partHandle .label, s.partHandle .value]

theorem map_slot (handle : ℕ) (o : Option Obj) :
    (slot handle o).map Prod.fst = [handle].filter (· ≠ 0) := by
  by_cases hzero : handle = 0
  · simp [hzero]
  · simp [slot_of_ne hzero, hzero]

/-- The handles in the variables are the values that are not zero. -/
theorem map_held (s : Ui) (t : Targets) :
    (s.held t).map Prod.fst = s.gcHandles.filter (· ≠ 0) := by
  rw [held]
  simp only [List.map_append, map_slot, ← List.filter_append]
  rfl

end Ui

/-! ## Examples of answers -/

/-- Everything succeeds. -/
def answered : ApplyAnswers :=
  let string : StringAnswers := { object := some 1, pin := .pinned 0 }
  let box : BoxAnswers := { klass := true, object := some 2, pin := .pinned 0, constructor := true }
  { scene := { ready := true, path := string, scene := some 7, pin := .pinned 0 }
    root := some 8
    rootPin := .pinned 0
    font := box
    klass := true
    part := fun _ =>
      { find := { thunk := true, name := string }
        create :=
          { klass := true, object := true, pin := .pinned 0, nameString := string
            textString := string, color := box, name := true, x := true, y := true, text := true
            font := .done, horizontalAlignment := true, verticalAlignment := true
            textColor := .done, fitWidthToText := true, fitHeightToText := true }
        append := true
        pin := .pinned 0
        font := .done
        rgb := { color := box, textColor := .done }
        text := { string, text := true }
        x := true
        y := true } }

/-- The widgets cannot be pinned. -/
def unpinned : ApplyAnswers :=
  { answered with part := fun p => { answered.part p with pin := .refused } }

/-- There is no string with the name of a widget. -/
def unnamed : ApplyAnswers :=
  { answered with part := fun p =>
      { answered.part p with find := { thunk := true, name := { object := none, pin := .refused } } } }

theorem initial_empty : ({} : Ui).Initial :=
  ⟨rfl, rfl, rfl, fun _ => rfl, rfl, fun _ _ hw => absurd hw List.not_mem_nil⟩

/-! ## Handles -/

/-- Whatever fails: after any calls, the handles that there are are the values that are
    not zero among the four variables, which differ; none was freed twice or used after
    it was freed; and a handle that could not be replaced stays in place and valid. -/
theorem gc_handles_balanced (h : s.Initial) (calls : List (WirePacket × ApplyAnswers)) :
    (((s.runs calls).handles.live.map Prod.fst).Perm ((s.runs calls).gcHandles.filter (· ≠ 0)) ∧
      ((s.runs calls).gcHandles.filter (· ≠ 0)).Nodup ∧ (s.runs calls).handles.misused = false) ∧
    ∀ (hs : GcHandles) (handle : ℕ) (object : Option Obj) (answer : HandleAnswer),
      (replaceManagedHandle handle object answer hs).1.1 = true ∨
        ((replaceManagedHandle handle object answer hs).1.2 = handle ∧
          (replaceManagedHandle handle object answer hs).2.live = hs.live) := by
  obtain ⟨t, howned, -⟩ := h.runs calls
  have hlive := howned.live.map Prod.fst
  have hnodup := howned.nodup
  rw [List.nil_append, Ui.map_held] at hlive hnodup
  refine ⟨⟨hlive, hnodup, howned.misused⟩, fun hs handle object answer => ?_⟩
  exact replaceManagedHandle_kept hs handle object answer

theorem gc_handles_balanced_answered :
    ((({} : Ui).runs [({}, answered)]).handles.live.map Prod.fst).Perm
        ((({} : Ui).runs [({}, answered)]).gcHandles.filter (· ≠ 0)) ∧
      ((({} : Ui).runs [({}, answered)]).gcHandles.filter (· ≠ 0)).Nodup ∧
      (({} : Ui).runs [({}, answered)]).handles.misused = false :=
  (gc_handles_balanced initial_empty [({}, answered)]).1

/-! ## Style -/

/-- The widget that is held for a part. -/
def Ui.Pins (s : Ui) (p : Part) (n : ℕ) : Prop :=
  s.partHandle p ≠ 0 ∧ s.target (s.partHandle p) = some (.widget n)

theorem Ui.Owned.pins (h : s.Owned t l) {p : Part} {n : ℕ} (hne : s.partHandle p ≠ 0)
    (htarget : t.part p = some (.widget n)) : s.Pins p n :=
  ⟨hne, (managedTarget_spec h (part_subset s t p l)).1.trans ((if_neg hne).trans htarget)⟩

/-- Whatever fails: after a call that returns true, the widgets that are held show its
    frame, as if every property had been set; and while a style is applied, both are
    held and have it. -/
theorem updates_redraw (h : s.Initial) (calls : List (WirePacket × ApplyAnswers))
    (packet : WirePacket) (answers : ApplyAnswers) :
    ((applyPacketOnRender packet answers (s.runs calls)).1 = true →
      ∃ frame, decodeWirePacket packet = some frame ∧ ∀ p, ∃ n,
        (applyPacketOnRender packet answers (s.runs calls)).2.Pins p n ∧
        ((applyPacketOnRender packet answers (s.runs calls)).2.widget n).Shows p frame
          (frameLayout frame) ∧
        p.redraw frame (frameLayout frame)
            ((applyPacketOnRender packet answers (s.runs calls)).2.widget n) =
          (applyPacketOnRender packet answers (s.runs calls)).2.widget n) ∧
    ((s.runs calls).styleApplied = true → ∀ p, ∃ n, (s.runs calls).Pins p n ∧
      ((s.runs calls).widget n).Styled p (s.runs calls).appliedConfig
        (s.runs calls).appliedLayout) := by
  obtain ⟨t, howned, hsound⟩ := h.runs calls
  obtain ⟨t', howned', hcalled⟩ := applyPacketOnRender_spec howned hsound packet answers
  refine ⟨fun hok => ?_, fun happlied p => ?_⟩
  · obtain ⟨frame, hdecode, hdrawn⟩ := hcalled.drawn hok
    refine ⟨frame, hdecode, fun p => ?_⟩
    obtain ⟨n, htarget, hshows⟩ := hdrawn.shows p
    exact ⟨n, howned'.pins (hdrawn.handle p) htarget, hshows, hshows.redraw⟩
  · have hheld := hsound.held happlied p
    obtain ⟨n, -, htarget, -⟩ := hsound.part p hheld
    exact ⟨n, howned.pins hheld htarget, hsound.styled happlied p n htarget⟩

theorem updates_redraw_answered :
    (∃ frame, decodeWirePacket {} = some frame ∧ ∀ p, ∃ n,
      (applyPacketOnRender {} answered (({} : Ui).runs [({}, answered)])).2.Pins p n ∧
      ((applyPacketOnRender {} answered (({} : Ui).runs [({}, answered)])).2.widget n).Shows p frame
        (frameLayout frame)) ∧
    ∀ p, ∃ n, (({} : Ui).runs [({}, answered)]).Pins p n := by
  have htwice := updates_redraw initial_empty [({}, answered)] {} answered
  obtain ⟨frame, hdecode, hshows⟩ := htwice.1 (by decide +kernel)
  refine ⟨⟨frame, hdecode, fun p => ?_⟩, fun p => ?_⟩
  · obtain ⟨n, hpins, hshows, -⟩ := hshows p
    exact ⟨n, hpins, hshows⟩
  · obtain ⟨n, hpins, -⟩ := htwice.2 (by decide +kernel) p
    exact ⟨n, hpins⟩

/-! ## One widget of a name -/

/-- No child is named like one of the widgets. -/
def Ui.Unlabelled (s : Ui) : Prop :=
  ∀ root, ∀ w ∈ s.children root, ∀ p : Part, (s.widget w).name ≠ p.id

theorem Ui.Unlabelled.unique (h : s.Unlabelled) : s.Unique := by
  intro root p
  rw [List.countP_eq_zero.2 fun w hw => by simpa using h root w hw p]
  exact Nat.zero_le 1

/-- If in each call that finds its scene every widget is held, can be looked up, cannot be
    appended or is not there, no root ever has two children of the same name. -/
theorem widgets_stay_unique (h : s.Initial) (hnone : s.Unlabelled)
    (calls : List (WirePacket × ApplyAnswers))
    (hcalls : ∀ past call rest, calls = past ++ call :: rest →
      ∀ p, (s.runs past).SettledFor call.1 call.2 p) :
    (s.runs calls).Unique := by
  induction calls using List.reverseRecOn with
  | nil => exact hnone.unique
  | append_singleton calls call ih =>
    obtain ⟨t, howned, hsound⟩ := h.runs calls
    obtain ⟨t', -, hcalled⟩ := applyPacketOnRender_spec howned hsound call.1 call.2
    have hpast := ih fun past earlier rest heq =>
      hcalls past earlier (rest ++ [call]) (by rw [heq, List.append_assoc, List.cons_append])
    rw [Ui.runs_append]
    exact hcalled.unique hpast (hcalls calls call [] rfl)

theorem widgets_stay_unique_answered : (({} : Ui).runs [({}, answered), ({}, answered)]).Unique := by
  refine widgets_stay_unique initial_empty (fun _ _ hw => absurd hw List.not_mem_nil) _ ?_
  intro past call rest heq p
  have hmem : call ∈ [(({} : WirePacket), answered), ({}, answered)] := by
    rw [heq]
    exact List.mem_append_right _ List.mem_cons_self
  have hcall : call = ({}, answered) := by simpa using hmem
  rw [hcall]
  exact .inr (.inr (.inr (.inl ⟨rfl, 1, rfl, trivial⟩)))

/-- A label that was appended but not pinned, and whose name cannot be made in the next
    call, is appended again. -/
theorem label_appended_twice :
    ({} : Ui).Initial ∧ ({} : Ui).Unlabelled ∧
      ¬(({} : Ui).runs [({}, unpinned), ({}, unnamed)]).Unique := by
  refine ⟨initial_empty, fun _ _ hw => absurd hw List.not_mem_nil, fun hunique => ?_⟩
  exact absurd (hunique (.found 8) .label) (by decide +kernel)

end CommonFps
