import CommonFps.Overlay.Wire
import CommonFps.Settings.Text
import CommonFps.ShellUi.Mono

/-!
# The widgets of the overlay

How the renderer shows a packet (`apply_packet_on_render`): it follows the scene of
the game and its root widget, finds or makes a label and a value in it, and sets
the properties that have changed. Any operation of the runtime may fail.

* `refreshGameScene`, `refreshRoot`: the handles follow the scene and its root;
* `createLabel`, `findWidget`, `presentPart`: the two widgets;
* `restyleLabel`, `restyleValue`: selective updates;
* `applyPacketOnRender`: a call.
-/

namespace CommonFps

/-! ## State -/

/-- A colour (`UIColor`). -/
structure Color where
  r : ℚ := 0
  g : ℚ := 0
  b : ℚ := 0
  a : ℚ := 0
  deriving DecidableEq

/-- The properties of a label. -/
structure Widget where
  name : Bytes := []
  x : ℚ := 0
  y : ℚ := 0
  text : Bytes := []
  font : ℤ := 0
  horizontalAlignment : ℤ := 0
  verticalAlignment : ℤ := 0
  textColor : Color := {}
  fitWidthToText : Bool := false
  fitHeightToText : Bool := false

/-- The widgets of the overlay. -/
inductive Part
  | label
  | value
  deriving DecidableEq

/-- The name of the label. -/
def kLabelId : Bytes := ascii "id_commonfps_label"

/-- The name of the value. -/
def kValueId : Bytes := ascii "id_commonfps_value"

/-- The name of a widget. -/
def Part.id : Part → Bytes
  | label => kLabelId
  | value => kValueId

/-- The interface: the widgets made so far with their properties, the children of the
    root widgets, and the variables of the renderer. -/
structure Ui where
  handles : GcHandles := {}
  made : ℕ := 0
  widget : ℕ → Widget := fun _ => {}
  children : Obj → List ℕ := fun _ => []
  gameSceneHandle : ℕ := 0
  rootHandle : ℕ := 0
  /-- The handles of the label and of the value. -/
  partHandle : Part → ℕ := fun _ => 0
  styleApplied : Bool := false
  appliedConfig : OverlayConfig := {}
  appliedLayout : OverlayLayout := {}

/-- A program on the handles. -/
def onHandles {α : Type} (x : StateM GcHandles α) : StateM Ui α :=
  fun s => ((x s.handles).1, { s with handles := (x s.handles).2 })

/-- A scope with a pinned object, which is released at its end. -/
def withPinned {α β : Type} (acquire : StateM GcHandles (PinnedObject β))
    (body : PinnedObject β → StateM Ui α) : StateM Ui α := do
  let p ← onHandles acquire
  let r ← body p
  onHandles p.release
  return r

/-- A widget is let go. -/
def releasePart (p : Part) : StateM Ui Unit := do
  let s ← get
  onHandles (releaseManagedHandle (s.partHandle p))
  modify fun s => { s with partHandle := Function.update s.partHandle p 0 }

/-- Another widget is held, if it can be pinned. -/
def replacePart (p : Part) (object : Option Obj) (answer : HandleAnswer) : StateM Ui Bool := do
  let s ← get
  let (ok, handle) ← onHandles (replaceManagedHandle (s.partHandle p) object answer)
  modify fun s => { s with partHandle := Function.update s.partHandle p handle }
  return ok

/-! ## Scene and root -/

/-- What the runtime answers when the scene is looked up: the method, the string with
    its name, the scene, and its handle. -/
structure SceneAnswers where
  ready : Bool
  path : StringAnswers
  scene : Option ℕ
  pin : HandleAnswer

/-- The handle of the scene follows the scene of the game; the widgets of another scene are let
    go. -/
def refreshGameScene (answers : SceneAnswers) : StateM Ui Bool := do
  if ¬answers.ready then return false
  withPinned (newString (ascii "Game") answers.path) fun gamePath => do
    if ¬(← onHandles gamePath.isPinned) then return false
    match answers.scene with
    | none => return false
    | some scene =>
      let s ← get
      let held ← onHandles (managedTarget s.gameSceneHandle)
      if held = some (.found scene) then return true
      releasePart .label
      releasePart .value
      onHandles (releaseManagedHandle s.rootHandle)
      modify fun s => { s with rootHandle := 0, styleApplied := false }
      let (ok, handle) ← onHandles
        (replaceManagedHandle s.gameSceneHandle (some (.found scene)) answers.pin)
      modify fun s => { s with gameSceneHandle := handle }
      return ok

/-- The root widget of the scene, given the answer of its getter. -/
def getRootWidget (answer : Option ℕ) : StateM Ui (Option Obj) := do
  let s ← get
  let scene ← onHandles (managedTarget s.gameSceneHandle)
  if scene.isNone then return none
  return answer.map .found

/-- The handle of the root follows it; children of another root are dropped. -/
def refreshRoot (root : Obj) (answer : HandleAnswer) : StateM Ui Bool := do
  let s ← get
  let held ← onHandles (managedTarget s.rootHandle)
  if held = some root then return true
  let (ok, handle) ← onHandles (replaceManagedHandle s.rootHandle (some root) answer)
  modify fun s => { s with rootHandle := handle }
  if ¬ok then return false
  releasePart .label
  releasePart .value
  modify fun s => { s with styleApplied := false }
  return true

/-! ## Properties -/

/-- The effect of setting a property of an object. -/
def editWidget (object : Option Obj) (edit : Widget → Widget) : StateM Ui Unit :=
  match object with
  | some (.widget n) =>
    modify fun s => { s with widget := Function.update s.widget n (edit (s.widget n)) }
  | _ => return ()

/-- A setter that is called directly, unless it is not found. -/
def setPropertyDirect {α : Type} (put : α → Widget → Widget) (object : Option Obj) (value : α)
    (found : Bool) : StateM Ui Bool := do
  if ¬found then return false
  editWidget object (put value)
  return true

/-- What a setter that is invoked answers: it took effect, or it failed and may have
    left another value. -/
inductive PutAnswer (α : Type)
  | done
  | failed (left : Option α)

/-- A setter that is invoked with an object. -/
def setPropertyObject {α : Type} (put : α → Widget → Widget) (object : Option Obj)
    (value : Option α) (answer : PutAnswer α) : StateM Ui Bool := do
  match answer, value with
  | .done, some value =>
    editWidget object (put value)
    return true
  | .failed (some left), _ =>
    editWidget object (put left)
    return false
  | _, _ => return false

/-! The properties, one by one. -/

/-- The name is set. -/
def putName (v : Bytes) (w : Widget) : Widget := { w with name := v }

/-- The horizontal position is set. -/
def putX (v : ℚ) (w : Widget) : Widget := { w with x := v }

/-- The vertical position is set. -/
def putY (v : ℚ) (w : Widget) : Widget := { w with y := v }

/-- The text is set. -/
def putText (v : Bytes) (w : Widget) : Widget := { w with text := v }

/-- The font is set. -/
def putFont (v : ℤ) (w : Widget) : Widget := { w with font := v }

/-- The horizontal alignment is set. -/
def putHorizontalAlignment (v : ℤ) (w : Widget) : Widget := { w with horizontalAlignment := v }

/-- The vertical alignment is set. -/
def putVerticalAlignment (v : ℤ) (w : Widget) : Widget := { w with verticalAlignment := v }

/-- The colour of the text is set. -/
def putTextColor (v : Color) (w : Widget) : Widget := { w with textColor := v }

/-- The width does or does not follow the text. -/
def putFitWidthToText (v : Bool) (w : Widget) : Widget := { w with fitWidthToText := v }

/-- The height does or does not follow the text. -/
def putFitHeightToText (v : Bool) (w : Widget) : Widget := { w with fitHeightToText := v }

/-- The font is set to a boxed size. -/
def setFont (object : Option Obj) (font : PinnedObject ℤ) (answer : PutAnswer ℤ) : StateM Ui Bool := do
  let size ← onHandles font.value
  setPropertyObject putFont object size answer

/-! ## Making and finding widgets -/

/-- What the runtime answers when a label is made: the class, the object, its handle,
    the two strings, the colour, and the setters. -/
structure LabelAnswers where
  klass : Bool
  object : Bool
  pin : HandleAnswer
  nameString : StringAnswers
  textString : StringAnswers
  color : BoxAnswers
  name : Bool
  x : Bool
  y : Bool
  text : Bool
  font : PutAnswer ℤ
  horizontalAlignment : Bool
  verticalAlignment : Bool
  textColor : PutAnswer Color
  fitWidthToText : Bool
  fitHeightToText : Bool

/-- A new widget, unless there is no memory for it. -/
def newWidget (allocated : Bool) : StateM Ui (Option Obj) := do
  if ¬allocated then return none
  let s ← get
  set { s with made := s.made + 1, widget := Function.update s.widget s.made {} }
  return some (.widget s.made)

/-- The properties of a new label. -/
def setLabelProperties (object : Option Obj) (x y : ℚ) (name text : PinnedObject Bytes)
    (font : PinnedObject ℤ) (horizontalAlignment : ℤ) (color : PinnedObject Color)
    (answers : LabelAnswers) : StateM Ui Bool := do
  let nameValue ← onHandles name.value
  let ok₁ ← setPropertyDirect putName object (nameValue.getD []) answers.name
  let ok₂ ← setPropertyDirect putX object x answers.x
  let ok₃ ← setPropertyDirect putY object y answers.y
  let textValue ← onHandles text.value
  let ok₄ ← setPropertyDirect putText object (textValue.getD []) answers.text
  let ok₅ ← setFont object font answers.font
  let ok₆ ← setPropertyDirect putHorizontalAlignment object horizontalAlignment
    answers.horizontalAlignment
  let ok₇ ← setPropertyDirect putVerticalAlignment object 0 answers.verticalAlignment
  let colorValue ← onHandles color.value
  let ok₈ ← setPropertyObject putTextColor object colorValue answers.textColor
  let ok₉ ← setPropertyDirect putFitWidthToText object true answers.fitWidthToText
  let ok₁₀ ← setPropertyDirect putFitHeightToText object true answers.fitHeightToText
  return ok₁ && ok₂ && ok₃ && ok₄ && ok₅ && ok₆ && ok₇ && ok₈ && ok₉ && ok₁₀

/-- A new label, pinned; it is let go again if one of its properties cannot be set. -/
def createLabel (name : Bytes) (x y : ℚ) (text : Bytes) (font : PinnedObject ℤ)
    (horizontalAlignment : ℤ) (color : Color) (answers : LabelAnswers) :
    StateM Ui (PinnedObject Unit) := do
  if ¬answers.klass then return {}
  let object ← newWidget answers.object
  let label ← onHandles (PinnedObject.pin object () answers.pin)
  if ¬(← onHandles label.isPinned) then
    onHandles label.release
    return {}
  let ok ← withPinned (newString name answers.nameString) fun monoName =>
    withPinned (newString text answers.textString) fun monoText =>
      withPinned (createBox color answers.color) fun boxed => do
        let namePinned ← onHandles monoName.isPinned
        let textPinned ← onHandles monoText.isPinned
        let colorPinned ← onHandles boxed.isPinned
        let fontPinned ← onHandles font.isPinned
        if ¬(namePinned && textPinned && colorPinned && fontPinned) then return false
        let object ← onHandles label.object
        setLabelProperties object x y monoName monoText font horizontalAlignment boxed answers
  if ¬ok then
    onHandles label.release
    return {}
  return label

/-- What the runtime answers when a widget is looked up: the method, and the string
    with its name. -/
structure FindAnswers where
  thunk : Bool
  name : StringAnswers

/-- The first child of this name, as far as it can be looked up. -/
def findWidget (root : Obj) (id : Bytes) (answers : FindAnswers) : StateM Ui (Option Obj) := do
  if ¬answers.thunk then return none
  withPinned (newString id answers.name) fun name => do
    match ← onHandles name.value with
    | none => return none
    | some id =>
      let s ← get
      return ((s.children root).find? fun w => (s.widget w).name = id).map .widget

/-- A child is appended, unless the call fails. -/
def appendChild (root : Obj) (child : Option Obj) (done : Bool) : StateM Ui Bool := do
  match child with
  | some (.widget w) =>
    if ¬done then return false
    modify fun s => { s with children := Function.update s.children root (s.children root ++ [w]) }
    return true
  | _ => return false

/-- What the runtime answers when a text is set. -/
structure TextAnswers where
  string : StringAnswers
  text : Bool

/-- The text is set to a new string. -/
def setLabelText (object : Option Obj) (text : Bytes) (answers : TextAnswers) : StateM Ui Bool := do
  if object.isNone then return false
  withPinned (newString text answers.string) fun monoText => do
    if ¬(← onHandles monoText.isPinned) then return false
    let value ← onHandles monoText.value
    setPropertyDirect putText object (value.getD []) answers.text

/-- What the runtime answers when a colour is set. -/
structure RgbAnswers where
  color : BoxAnswers
  textColor : PutAnswer Color

/-- The colour of a number. -/
def rgbColor (rgb : UInt32) : Color where
  r := ((rgb >>> 16) &&& 255).toNat / 255
  g := ((rgb >>> 8) &&& 255).toNat / 255
  b := (rgb &&& 255).toNat / 255
  a := 1

/-- The colour is set to a boxed one. -/
def applyRgb (object : Option Obj) (rgb : UInt32) (answers : RgbAnswers) : StateM Ui Bool :=
  withPinned (createBox (rgbColor rgb) answers.color) fun color => do
    if ¬(← onHandles color.isPinned) then return false
    let value ← onHandles color.value
    setPropertyObject putTextColor object value answers.textColor

/-! ## Applying a packet -/

/-- What the runtime answers about one of the widgets. -/
structure PartAnswers where
  find : FindAnswers
  create : LabelAnswers
  append : Bool
  pin : HandleAnswer
  font : PutAnswer ℤ
  rgb : RgbAnswers
  text : TextAnswers
  x : Bool
  y : Bool

/-- What the runtime answers during a call. -/
structure ApplyAnswers where
  scene : SceneAnswers
  root : Option ℕ
  rootPin : HandleAnswer
  font : BoxAnswers
  part : Part → PartAnswers
  klass : Bool

/-- The text of the label. -/
def labelText (config : OverlayConfig) : Bytes := if config.showLabel then ascii "FPS:" else []

/-- The text of the value. -/
def valueText (frame : OverlayFrame) : Bytes :=
  if frame.loading then ascii "Loading" else writeInt frame.fps

namespace Part

/-- The text of a widget. -/
def text (frame : OverlayFrame) : Part → Bytes
  | label => labelText frame.config
  | value => valueText frame

/-- The colour of a widget. -/
def rgb (config : OverlayConfig) : Part → UInt32
  | label => config.labelColor
  | value => config.valueColor

/-- The horizontal position of a widget. -/
def x (layout : OverlayLayout) : Part → ℚ
  | label => layout.anchor.x
  | value => layout.anchor.x + layout.labelAdvance

/-- The horizontal alignment of a widget. -/
def horizontalAlignment : Part → ℤ
  | label => 1
  | value => 0

end Part

/-- What has changed since the style was applied. -/
structure Changes where
  font : Bool
  color : Part → Bool
  labelText : Bool
  layout : Bool

/-- What has changed, or everything if no style was applied. -/
def changes (s : Ui) (config : OverlayConfig) (layout : OverlayLayout) : Changes where
  font := !s.styleApplied || layout.fontSize ≠ s.appliedLayout.fontSize
  color p := !s.styleApplied || p.rgb config ≠ p.rgb s.appliedConfig
  labelText := !s.styleApplied || config.showLabel ≠ s.appliedConfig.showLabel
  layout := !s.styleApplied || layout.anchor.x ≠ s.appliedLayout.anchor.x ||
    layout.anchor.y ≠ s.appliedLayout.anchor.y ||
    layout.labelAdvance ≠ s.appliedLayout.labelAdvance

/-- The widget that is held, or else found. -/
def currentPart (p : Part) (root : Obj) (answers : PartAnswers) : StateM Ui (Option Obj) := do
  let s ← get
  match ← onHandles (managedTarget (s.partHandle p)) with
  | some object => return some object
  | none => findWidget root p.id answers.find

/-- A widget that is held afterwards: made and appended, if there is none; `none` if
    this fails. -/
def presentPart (p : Part) (root : Obj) (current : Option Obj) (frame : OverlayFrame)
    (layout : OverlayLayout) (font : PinnedObject ℤ) (answers : PartAnswers) :
    StateM Ui (Option Obj) := do
  match current with
  | none =>
    let created ← createLabel p.id (p.x layout) layout.anchor.y (p.text frame) font
      p.horizontalAlignment (rgbColor (p.rgb frame.config)) answers.create
    withPinned (pure created) fun created => do
      if ¬(← onHandles created.isPinned) then return none
      let child ← onHandles created.object
      if ¬(← appendChild root child answers.append) then return none
      let object ← onHandles created.object
      if ¬(← replacePart p object answers.pin) then return none
      let s ← get
      onHandles (managedTarget (s.partHandle p))
  | some object =>
    if ¬(← replacePart p (some object) answers.pin) then return none
    return some object

/-- A setter that is called if something has changed. -/
def ifChanged (changed : Bool) (x : StateM Ui Bool) : StateM Ui Bool :=
  if changed then x else return true

/-- The properties of the label that have changed are set. -/
def restyleLabel (object : Option Obj) (frame : OverlayFrame) (layout : OverlayLayout) (c : Changes)
    (font : PinnedObject ℤ) (answers : PartAnswers) : StateM Ui Bool := do
  let ok₁ ← ifChanged c.font (setFont object font answers.font)
  let ok₂ ← ifChanged (c.color .label) (applyRgb object frame.config.labelColor answers.rgb)
  let ok₃ ← ifChanged c.labelText (setLabelText object (labelText frame.config) answers.text)
  let ok₄ ← ifChanged c.layout (setPropertyDirect putX object layout.anchor.x answers.x)
  let ok₅ ← ifChanged c.layout (setPropertyDirect putY object layout.anchor.y answers.y)
  return ok₁ && ok₂ && ok₃ && ok₄ && ok₅

/-- Those of the value, and its text in any case. -/
def restyleValue (object : Option Obj) (frame : OverlayFrame) (layout : OverlayLayout) (c : Changes)
    (font : PinnedObject ℤ) (answers : PartAnswers) : StateM Ui Bool := do
  let ok₁ ← ifChanged c.font (setFont object font answers.font)
  let ok₂ ← ifChanged (c.color .value) (applyRgb object frame.config.valueColor answers.rgb)
  let ok₃ ← ifChanged c.layout
    (setPropertyDirect putX object (layout.anchor.x + layout.labelAdvance) answers.x)
  let ok₄ ← ifChanged c.layout (setPropertyDirect putY object layout.anchor.y answers.y)
  let ok₅ ← setLabelText object (valueText frame) answers.text
  return ok₁ && ok₂ && ok₃ && ok₄ && ok₅

/-- The part of a call after the root widget was found. -/
def applyFrame (frame : OverlayFrame) (root : Obj) (answers : ApplyAnswers) : StateM Ui Bool := do
  let layout := computeLayout frame.config (.finite kLogicalWidth) (.finite kLogicalHeight)
    frame.loading
  let label ← currentPart .label root (answers.part .label)
  let value ← currentPart .value root (answers.part .value)
  let s ← get
  let c := changes s frame.config layout
  let needsFont := label.isNone || value.isNone || c.font
  withPinned (if needsFont then createBox layout.fontSize answers.font else return {}) fun font => do
    if needsFont ∧ ¬(← onHandles font.isPinned) then return false
    match ← presentPart .label root label frame layout font (answers.part .label) with
    | none => return false
    | some labelObject =>
      match ← presentPart .value root value frame layout font (answers.part .value) with
      | none => return false
      | some valueObject =>
        if ¬answers.klass then return false
        let okLabel ← ifChanged label.isSome
          (restyleLabel (some labelObject) frame layout c font (answers.part .label))
        let okValue ← ifChanged value.isSome
          (restyleValue (some valueObject) frame layout c font (answers.part .value))
        if ¬(okLabel && okValue) then
          modify fun s => { s with styleApplied := false }
          return false
        modify fun s => { s with
          appliedConfig := frame.config, appliedLayout := layout, styleApplied := true }
        return true

/-- A call: the widgets show what a packet says, in the scene of the game. -/
def applyPacketOnRender (packet : WirePacket) (answers : ApplyAnswers) : StateM Ui Bool := do
  match decodeWirePacket packet with
  | none => return false
  | some frame =>
    if ¬(← refreshGameScene answers.scene) then return false
    match ← getRootWidget answers.root with
    | none => return false
    | some root =>
      if ¬(← refreshRoot root answers.rootPin) then return false
      applyFrame frame root answers

end CommonFps
