import CommonFps.ShellUi.WidgetSpecs

/-!
# The two widgets during a call

What holds of the label and of the value before and after they were made, found or
kept.

* `Ui.Linked`, `Ui.Sound`: the handles lead to the widgets, which have the style that
  was applied;
* `Ui.Unique`: no root has two children of the same name;
* `currentPart_spec`, `presentPart_spec`: a widget is held, found or made, and held
  afterwards.
-/

namespace CommonFps

open Handles

/-! ## Invariants -/

/-- A widget has the style of a part. -/
structure Widget.Styled (w : Widget) (p : Part) (config : OverlayConfig) (layout : OverlayLayout) :
    Prop where
  font : w.font = layout.fontSize
  textColor : w.textColor = rgbColor (p.rgb config)
  x : w.x = p.x layout
  y : w.y = layout.anchor.y
  text : p = .label → w.text = labelText config

/-- A widget shows a frame. -/
structure Widget.Shows (w : Widget) (p : Part) (frame : OverlayFrame) (layout : OverlayLayout) : Prop
    extends w.Styled p frame.config layout where
  content : w.text = p.text frame

namespace Ui

/-- The handles of the widgets lead to widgets of their names. -/
structure Linked (s : Ui) (t : Targets) : Prop where
  child : ∀ root, ∀ w ∈ s.children root, w < s.made
  part : ∀ p, s.partHandle p ≠ 0 → ∃ w < s.made, t.part p = some (.widget w) ∧
    (s.widget w).name = p.id

/-- While a style is applied, both widgets are held and have it. -/
structure Sound (s : Ui) (t : Targets) : Prop extends s.Linked t where
  held : s.styleApplied = true → ∀ p, s.partHandle p ≠ 0
  styled : s.styleApplied = true → ∀ p w, t.part p = some (.widget w) →
    (s.widget w).Styled p s.appliedConfig s.appliedLayout

/-- No root has two children that are named like one of the widgets. -/
def Unique (s : Ui) : Prop :=
  ∀ root (p : Part), (s.children root).countP (fun w => (s.widget w).name = p.id) ≤ 1

end Ui

theorem Part.id_injective : Function.Injective Part.id := by
  intro p q h
  cases p <;> cases q <;> first | rfl | exact absurd h (by decide)

variable {s : Ui} {t : Targets} {l : List (ℕ × Option Obj)}

theorem Ui.Linked.handles (h : s.Linked t) (hs : GcHandles) :
    ({ s with handles := hs } : Ui).Linked t := ⟨h.child, h.part⟩

theorem Ui.Sound.handles (h : s.Sound t) (hs : GcHandles) :
    ({ s with handles := hs } : Ui).Sound t := ⟨h.toLinked.handles hs, h.held, h.styled⟩

/-! ## The widget that there is -/

/-- The widget that a call starts from: the one that is held, or the one that is found.
    If there is none, none is held. -/
structure Ui.Current (s : Ui) (t : Targets) (p : Part) (root : Obj) (answers : FindAnswers)
    (o : Option Obj) : Prop where
  widget : ∀ x, o = some x → ∃ w < s.made, x = .widget w ∧ (s.widget w).name = p.id
  held : s.partHandle p ≠ 0 → o.isSome ∧ t.part p = o
  absent : o = none → answers.thunk = true → answers.name.Succeeds →
    ∀ w ∈ s.children root, (s.widget w).name ≠ p.id

theorem currentPart_spec (h : s.Owned t l) (hs : s.Linked t) (p : Part) (root : Obj)
    (answers : PartAnswers) :
    Wp (currentPart p root answers) s fun o s' => s'.Owned t l ∧
      s' = { s with handles := s'.handles } ∧ s.Current t p root answers.find o := by
  refine .bind (.get (Wp.onHandles (managedTarget_spec h (part_subset s t p l)) ?_))
  rintro held hs' ⟨hheld, rfl⟩
  by_cases hzero : s.partHandle p = 0
  · obtain rfl : held = none := hheld.trans (if_pos hzero)
    refine (findWidget_spec h root p.id answers.find).conseq fun o s' ⟨h', hsame, hfinds⟩ => ?_
    refine ⟨h', hsame, fun x hx => ?_, fun hne => absurd hzero hne, hfinds.absent⟩
    obtain ⟨w, hw, hxw, hname⟩ := hfinds.child x hx
    exact ⟨w, hs.child root w hw, hxw, hname⟩
  · obtain ⟨w, hw, htarget, hname⟩ := hs.part p hzero
    obtain rfl : held = some (.widget w) := hheld.trans ((if_neg hzero).trans htarget)
    refine .pure ⟨h, rfl, ?_, fun _ => ⟨rfl, htarget⟩, nofun⟩
    rintro _ ⟨⟩
    exact ⟨w, hw, rfl, hname⟩

/-! ## The widget that is held -/

/-- What presenting a widget may do: a new one is appended, if there was none; its handle
    is replaced; nothing else changes. -/
structure Ui.Presented (s : Ui) (t : Targets) (p : Part) (root : Obj) (current : Option Obj)
    (w : Widget) (append : Bool) (r : Option Obj) (s' : Ui) (t' : Targets) : Prop where
  same : s' = { s with
    handles := s'.handles, made := s'.made, widget := s'.widget, children := s'.children,
    partHandle := Function.update s.partHandle p (s'.partHandle p) }
  part : ∀ q ≠ p, t'.part q = t.part q
  made : s.made ≤ s'.made
  others : ∀ n < s.made, s'.widget n = s.widget n
  children : s'.children = s.children ∨
    (current = none ∧ append = true ∧ s.made < s'.made ∧ s'.widget s.made = w ∧
      s'.children = Function.update s.children root (s.children root ++ [s.made]))
  failed : r = none → s'.partHandle p = s.partHandle p ∧ t'.part p = t.part p
  done : ∀ o, r = some o → s'.partHandle p ≠ 0 ∧ t'.part p = some o ∧
    (current = some o ∨
      (current = none ∧ o = .widget s.made ∧ s.made < s'.made ∧ s'.widget s.made = w))

theorem Ui.Presented.handles {p : Part} {root : Obj} {current : Option Obj} {w : Widget}
    {append : Bool} {r : Option Obj} {s' : Ui} {t' : Targets}
    (h : s.Presented t p root current w append r s' t') (hs : GcHandles) :
    s.Presented t p root current w append r { s' with handles := hs } t' := by
  refine ⟨?_, h.part, h.made, h.others, h.children, h.failed, h.done⟩
  exact congrArg (fun x : Ui => { x with handles := hs }) h.same

/-- The label that is made for a part. -/
def Part.made (p : Part) (frame : OverlayFrame) (layout : OverlayLayout) : Widget :=
  ({} : Widget).labelled p.id (p.x layout) layout.anchor.y (p.text frame) layout.fontSize
    p.horizontalAlignment (rgbColor (p.rgb frame.config))

section Present

variable {p : Part} {root : Obj} {current : Option Obj} {w : Widget} {append : Bool} {s' : Ui}

/-- The handle is left as it is. -/
theorem Ui.Presented.left (hsame : s' = { s with
      handles := s'.handles, made := s'.made, widget := s'.widget, children := s'.children })
    (hmade : s.made ≤ s'.made) (hothers : ∀ n < s.made, s'.widget n = s.widget n)
    (hchildren : s'.children = s.children ∨
      (current = none ∧ append = true ∧ s.made < s'.made ∧ s'.widget s.made = w ∧
        s'.children = Function.update s.children root (s.children root ++ [s.made]))) :
    s.Presented t p root current w append none s' t := by
  have hpart : s'.partHandle = s.partHandle := by rw [hsame]
  refine ⟨hsame.trans ?_, fun _ _ => rfl, hmade, hothers, hchildren, ?_, nofun⟩
  · rw [hpart, Function.update_eq_self]
  · exact fun _ => ⟨congrFun hpart p, rfl⟩

/-- A widget that was there is held, or its handle is left as it is. -/
theorem presentPart_some (h : s.Owned t l) (object : Obj) (frame : OverlayFrame)
    (layout : OverlayLayout) (font : PinnedObject ℤ) (answers : PartAnswers) :
    Wp (presentPart p root (some object) frame layout font answers) s fun r s' =>
      ∃ t', s'.Owned t' l ∧ s.Presented t p root (some object) w append r s' t' := by
  refine (replacePart_spec h p (some object) answers.pin).seq ?_
  rintro ok s' ⟨t', h', hpart, hsame, hcase⟩
  have hmade : s'.made = s.made := by rw [hsame]
  have hwidget : s'.widget = s.widget := by rw [hsame]
  have hchildren : s'.children = s.children := by rw [hsame]
  have hsame' : s' = { s with
      handles := s'.handles, made := s'.made, widget := s'.widget, children := s'.children,
      partHandle := Function.update s.partHandle p (s'.partHandle p) } := by
    rw [hmade, hwidget, hchildren]
    exact hsame
  have hothers (n : ℕ) (_ : n < s.made) : s'.widget n = s.widget n := congrFun hwidget n
  rcases hcase with ⟨rfl, hne, -, htarget⟩ | ⟨rfl, hkept, htarget⟩
  · refine .pure ⟨t', h', hsame', hpart, hmade.ge, hothers, .inl hchildren, nofun, ?_⟩
    rintro _ ⟨⟩
    exact ⟨hne, htarget, .inl rfl⟩
  · exact .pure ⟨t', h', hsame', hpart, hmade.ge, hothers, .inl hchildren,
      fun _ => ⟨hkept, htarget⟩, nofun⟩

section Created

variable {created : PinnedObject Unit} {s₁ : Ui} (h₁ : s.Created t l w created s₁)

include h₁

theorem Ui.Created.same_children (hs : GcHandles) (children : Obj → List ℕ) :
    ({ s₁ with handles := hs, children } : Ui) =
      { s with handles := hs, made := s₁.made, widget := s₁.widget, children } :=
  congrArg (fun x : Ui => { x with handles := hs, children }) h₁.same

/-- A label that is not appended changes nothing. -/
theorem Ui.Created.left (hs : GcHandles) :
    s.Presented t p root none w append none { s₁ with handles := hs } t := by
  have hchildren : s₁.children = s.children := by rw [h₁.same]
  exact .left (h₁.same_children hs s₁.children) h₁.made h₁.others (.inl hchildren)

/-- A new label is appended, and then held. -/
theorem appendCreated_spec {hs : GcHandles} (hne : created.handle ≠ 0)
    (h₂ : ({ s₁ with handles := hs } : Ui).Owned t (created.own ++ l)) (answers : PartAnswers) :
    Wp (do
      let child ← onHandles created.object
      if ¬(← appendChild root child answers.append) then return none
      let object ← onHandles created.object
      if ¬(← replacePart p object answers.pin) then return none
      let s ← get
      onHandles (managedTarget (s.partHandle p))) { s₁ with handles := hs } fun r s' =>
        ∃ t', s'.Owned t' (created.own ++ l) ∧
          s.Presented t p root none w answers.append r s' t' := by
  have hown := List.subset_append_left created.own l
  have hchildren : s₁.children = s.children := by rw [h₁.same]
  have hpart : s₁.partHandle = s.partHandle := by rw [h₁.same]
  obtain ⟨hboxed, hmade, hwidget⟩ := h₁.new hne
  have hobject : (if created.handle = 0 then none else created.boxed.map Prod.fst) =
      some (.widget s.made) := by
    rw [if_neg hne, hboxed]
    rfl
  refine Wp.object h₂ hown ?_
  rw [hobject]
  refine (appendChild_spec h₂ root _ answers.append).seq ?_
  rintro ok s₃ ⟨h₃, ⟨rfl, rfl⟩ | ⟨rfl, happend, _, ⟨⟩, rfl⟩⟩
  · exact .pure ⟨t, h₃, h₁.left hs⟩
  · refine Wp.object h₃ hown ?_
    rw [hobject]
    refine (replacePart_spec h₃ p _ answers.pin).seq ?_
    rintro ok s₄ ⟨t', h₄, hpart', hsame, hcase⟩
    -- what was made and appended is as it was before the handle was replaced
    have hmade₄ : s₄.made = s₁.made := by rw [hsame]
    have hwidget₄ : s₄.widget = s₁.widget := by rw [hsame]
    have hchildren₄ : s₄.children =
        Function.update s.children root (s.children root ++ [s.made]) := by
      rw [hsame, ← hchildren]
    have hsame₄ : s₄ = { s with
        handles := s₄.handles, made := s₄.made, widget := s₄.widget, children := s₄.children,
        partHandle := Function.update s.partHandle p (s₄.partHandle p) } := by
      rw [hmade₄, hwidget₄, hchildren₄, ← hpart, ← hchildren]
      exact hsame.trans (congrArg (fun x : Ui => { x with
        handles := s₄.handles
        children := Function.update s₁.children root (s₁.children root ++ [s.made])
        partHandle := Function.update s₁.partHandle p (s₄.partHandle p) }) h₁.same)
    have hlt : s.made < s₄.made := by
      rw [hmade₄, hmade]
      exact Nat.lt_succ_self _
    have hnew : s₄.widget s.made = w := (congrFun hwidget₄ _).trans hwidget
    have hothers (n : ℕ) (hn : n < s.made) : s₄.widget n = s.widget n :=
      (congrFun hwidget₄ n).trans (h₁.others n hn)
    rcases hcase with ⟨rfl, hheld, -, htarget⟩ | ⟨rfl, hkept, htarget⟩
    · refine .bind (.get (Wp.onHandles_last ?_))
      refine (managedTarget_spec h₄ (part_subset s₄ t' p _)).conseq ?_
      rintro o _ ⟨rfl, rfl⟩
      rw [if_neg hheld, htarget]
      refine ⟨t', h₄, hsame₄, hpart', hlt.le, hothers,
        .inr ⟨rfl, happend, hlt, hnew, hchildren₄⟩, nofun, ?_⟩
      rintro _ ⟨⟩
      exact ⟨hheld, htarget, .inr ⟨rfl, rfl, hlt, hnew⟩⟩
    · refine .pure ⟨t', h₄, hsame₄, hpart', hlt.le, hothers,
        .inr ⟨rfl, happend, hlt, hnew, hchildren₄⟩, ?_, nofun⟩
      exact fun _ => ⟨hkept.trans (congrFun hpart p), htarget⟩

end Created

end Present

theorem presentPart_spec (h : s.Owned t l) (p : Part) (root : Obj) (current : Option Obj)
    (frame : OverlayFrame) (layout : OverlayLayout) {font : PinnedObject ℤ} (hfont : font.own ⊆ l)
    (hfont' : font.Holds layout.fontSize) (answers : PartAnswers) :
    Wp (presentPart p root current frame layout font answers) s fun r s' => ∃ t', s'.Owned t' l ∧
      s.Presented t p root current (p.made frame layout) answers.append r s' t' := by
  cases current with
  | some object => exact presentPart_some h object frame layout font answers
  | none =>
    refine (createLabel_spec h hfont hfont' answers.create).seq ?_
    intro created s₁ h₁
    have hcreated : created.Holds () := fun hne => ⟨_, (h₁.new hne).1⟩
    refine Wp.withPinned (t := t) (P := (· = created)) (.pure ⟨?_, rfl⟩) ?_ ?_
    · rw [← List.append_assoc]
      exact h₁.owned
    · rintro created hs rfl h₂
      refine Wp.isPinned h₂ (List.subset_append_left _ _) hcreated fun pinned hpinned => ?_
      refine .ite (fun _ => .pure ⟨t, h₂, h₁.left hs⟩) fun hp => ?_
      exact appendCreated_spec h₁ (hpinned.1 (not_not.1 hp)) h₂ answers
    · rintro r s' t' hs hpresented
      exact hpresented.handles hs

/-! ## What stays -/

theorem Part.made_shows (p : Part) (frame : OverlayFrame) (layout : OverlayLayout) :
    (p.made frame layout).Shows p frame layout where
  font := rfl
  textColor := rfl
  x := rfl
  y := rfl
  text := by
    rintro rfl
    rfl
  content := rfl

/-- A widget is held, and shows the frame if it was made for it. -/
structure Ui.Ready (s : Ui) (t : Targets) (p : Part) (fresh : Bool) (frame : OverlayFrame)
    (layout : OverlayLayout) (o : Obj) : Prop where
  handle : s.partHandle p ≠ 0
  target : t.part p = some o
  shows : fresh = true → ∀ n, o = .widget n → (s.widget n).Shows p frame layout

section Stays

variable {p q : Part} {root : Obj} {current : Option Obj} {append : Bool} {r : Option Obj} {s' : Ui}
  {t' : Targets} {frame : OverlayFrame} {layout : OverlayLayout} {answers : FindAnswers}

theorem Ui.Current.handles (h : s.Current t p root answers current) (hs : GcHandles) :
    ({ s with handles := hs } : Ui).Current t p root answers current :=
  ⟨h.widget, h.held, h.absent⟩

variable (h : s.Presented t p root current (p.made frame layout) append r s' t')

include h

theorem Ui.Presented.partHandle (hq : q ≠ p) : s'.partHandle q = s.partHandle q := by
  rw [h.same]
  exact Function.update_of_ne hq _ _

/-- A child is one of before, or the new widget, which has the name. -/
theorem Ui.Presented.of_mem {root' : Obj} {n : ℕ} (hn : n ∈ s'.children root') :
    n ∈ s.children root' ∨ (n = s.made ∧ s.made < s'.made ∧ (s'.widget n).name = p.id) := by
  rcases h.children with heq | ⟨-, -, hlt, hw, heq⟩
  · exact .inl (heq ▸ hn)
  · rw [heq] at hn
    by_cases hroot : root' = root
    · rw [hroot, Function.update_self, List.mem_append, List.mem_singleton] at hn
      refine hn.imp (fun hold => hroot ▸ hold) ?_
      rintro rfl
      exact ⟨rfl, hlt, congrArg Widget.name hw⟩
    · exact .inl (by rwa [Function.update_of_ne hroot] at hn)

theorem Ui.Presented.linked (hs : s.Linked t) (hcur : s.Current t p root answers current) :
    s'.Linked t' where
  child root' n hn := by
    rcases h.of_mem hn with hold | ⟨rfl, hlt, -⟩
    · exact (hs.child root' n hold).trans_le h.made
    · exact hlt
  part q hq := by
    have hkept (hq' : s.partHandle q ≠ 0) (htarget : t'.part q = t.part q) :
        ∃ w < s'.made, t'.part q = some (.widget w) ∧ (s'.widget w).name = q.id := by
      obtain ⟨w, hw, hpart, hname⟩ := hs.part q hq'
      exact ⟨w, hw.trans_le h.made, htarget.trans hpart, by rwa [h.others w hw]⟩
    by_cases hqp : q = p
    · subst hqp
      cases r with
      | none =>
        obtain ⟨hhandle, htarget⟩ := h.failed rfl
        exact hkept (hhandle ▸ hq) htarget
      | some o =>
        obtain ⟨-, htarget, hcurrent | ⟨-, rfl, hlt, hw⟩⟩ := h.done o rfl
        · obtain ⟨w, hw, rfl, hname⟩ := hcur.widget o hcurrent
          exact ⟨w, hw.trans_le h.made, htarget, by rwa [h.others w hw]⟩
        · exact ⟨s.made, hlt, htarget, congrArg Widget.name hw⟩
    · exact hkept (h.partHandle hqp ▸ hq) (h.part q hqp)

theorem Ui.Presented.sound (hs : s.Sound t) (hcur : s.Current t p root answers current) :
    s'.Sound t' where
  toLinked := h.linked hs.toLinked hcur
  held happlied q := by
    have happlied' : s.styleApplied = true := by rwa [h.same] at happlied
    by_cases hqp : q = p
    · subst hqp
      cases r with
      | none => exact (h.failed rfl).1 ▸ hs.held happlied' q
      | some o => exact (h.done o rfl).1
    · rw [h.partHandle hqp]
      exact hs.held happlied' q
  styled happlied q n hn := by
    have happlied' : s.styleApplied = true := by rwa [h.same] at happlied
    have htarget : t.part q = some (.widget n) := by
      by_cases hqp : q = p
      · subst hqp
        obtain ⟨hsome, hheld⟩ := hcur.held (hs.held happlied' q)
        cases r with
        | none => exact (h.failed rfl).2 ▸ hn
        | some o =>
          obtain ⟨-, htarget, hcurrent | ⟨hnone, -⟩⟩ := h.done o rfl
          · exact hheld.trans (hcurrent.trans (htarget.symm.trans hn))
          · rw [hnone] at hsome
            exact absurd hsome (by decide)
      · exact h.part q hqp ▸ hn
    obtain ⟨w, hw, hpart, -⟩ := hs.part q (hs.held happlied' q)
    obtain rfl : n = w := by injection htarget.symm.trans hpart with heq; injection heq
    have hold := hs.styled happlied' q n htarget
    rw [h.others n hw]
    rw [h.same]
    exact hold

/-- There is no more child of the name of the other widget. -/
theorem Ui.Presented.absent_other {root' : Obj} (hs : s.Linked t) (hqp : q ≠ p)
    (habsent : ∀ w ∈ s.children root', (s.widget w).name ≠ q.id) :
    ∀ w ∈ s'.children root', (s'.widget w).name ≠ q.id := by
  intro w hw
  rcases h.of_mem hw with hold | ⟨-, -, hnew⟩
  · rw [h.others w (hs.child root' w hold)]
    exact habsent w hold
  · rw [hnew]
    exact Part.id_injective.ne hqp.symm

/-- What the other widget starts from. -/
theorem Ui.Presented.current_other {root' : Obj} {answers' : FindAnswers} {current' : Option Obj}
    (hs : s.Linked t) (hqp : q ≠ p) (hcur : s.Current t q root' answers' current') :
    s'.Current t' q root' answers' current' where
  widget x hx := by
    obtain ⟨w, hw, hxw, hname⟩ := hcur.widget x hx
    exact ⟨w, hw.trans_le h.made, hxw, by rwa [h.others w hw]⟩
  held hq := by
    rw [h.part q hqp]
    exact hcur.held (h.partHandle hqp ▸ hq)
  absent hnone hthunk hname := h.absent_other hs hqp (hcur.absent hnone hthunk hname)

/-- The widget is ready. -/
theorem Ui.Presented.ready {o : Obj} (hr : r = some o) :
    s'.Ready t' p current.isNone frame layout o where
  handle := (h.done o hr).1
  target := (h.done o hr).2.1
  shows hfresh n hn := by
    rcases (h.done o hr).2.2 with hcurrent | ⟨-, rfl, -, hw⟩
    · rw [hcurrent] at hfresh
      exact absurd hfresh Bool.false_ne_true
    · injection hn with hn
      rw [← hn, hw]
      exact p.made_shows frame layout

/-- The other widget stays ready. -/
theorem Ui.Presented.ready_other {fresh : Bool} {o : Obj} (hs : s.Linked t) (hqp : q ≠ p)
    (hready : s.Ready t q fresh frame layout o) : s'.Ready t' q fresh frame layout o where
  handle := by
    rw [h.partHandle hqp]
    exact hready.handle
  target := (h.part q hqp).trans hready.target
  shows hfresh n hn := by
    obtain ⟨w, hw, htarget, -⟩ := hs.part q hready.handle
    obtain rfl : n = w := by
      rw [hready.target, hn] at htarget
      injection htarget with heq
      injection heq
    rw [h.others n hw]
    exact hready.shows hfresh n hn

/-- A new child is the only one of its name, if there was none. -/
theorem Ui.Presented.unique (hs : s.Linked t) (hu : s.Unique)
    (habsent : current = none → append = true → ∀ w ∈ s.children root, (s.widget w).name ≠ p.id) :
    s'.Unique := by
  intro root' q
  have hold : (s.children root').countP (fun w => (s'.widget w).name = q.id) =
      (s.children root').countP (fun w => (s.widget w).name = q.id) :=
    List.countP_congr fun w hw => by rw [h.others w (hs.child root' w hw)]
  rcases h.children with heq | ⟨hnone, happend, -, hw, heq⟩
  · rw [heq, hold]
    exact hu root' q
  · rw [heq]
    by_cases hroot : root' = root
    · subst hroot
      rw [Function.update_self, List.countP_append, hold, List.countP_singleton, hw]
      by_cases hqp : q = p
      · subst hqp
        have hzero : (s.children root').countP (fun w => (s.widget w).name = q.id) = 0 :=
          List.countP_eq_zero.2 fun w hw => by
            simpa using habsent hnone happend w hw
        rw [hzero]
        split_ifs <;> decide
      · have hne : ¬(p.made frame layout).name = q.id := (Part.id_injective.ne hqp).symm
        simpa [hne] using hu root' q
    · rw [Function.update_of_ne hroot, hold]
      exact hu root' q

end Stays

end CommonFps
