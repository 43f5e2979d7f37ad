import CommonFps.Overlay.Config

/-!
# The wire format

The packet that carries a frame of the overlay to the renderer (`wire.cpp`). Both
ends bring what they handle into range: the sender the rate, the font size and
the colours, the receiver everything.

* `makeWirePacket`, `decodeWirePacket`: the two ends;
* `decode_makeWirePacket`: what arrives is the frame, in range;
* `wire_normalises`: so that decoding is a normal form for packets and frames.
-/

namespace CommonFps

/-- The first word of a packet with a frame. -/
def kWireMagic : UInt32 := 0x53465043

/-- The first word of a packet that ends the renderer. -/
def kWireShutdownMagic : UInt32 := 0x58465043

/-- The version of the packets. -/
def kWireVersion : UInt16 := 2

/-- `sizeof(WirePacket)`. -/
def kWirePacketSize : UInt16 := 44

/-- A packet, field by field. -/
structure WirePacket where
  magic : UInt32 := kWireMagic
  version : UInt16 := kWireVersion
  size : UInt16 := kWirePacketSize
  sequence : UInt64 := 0
  fps : Int32 := 0
  loading : UInt8 := 1
  corner : UInt8 := 2
  fontSize : UInt16 := 22
  marginX : Single := .finite kDefaultMarginX
  marginY : Single := .finite kDefaultMarginY
  showLabel : UInt8 := 1
  labelColor : UInt32 := 0xB366FF
  valueColor : UInt32 := 0xFFFFFF
  deriving DecidableEq

/-- The number of a corner in a packet. -/
def encodeCorner : Corner → UInt8
  | .topLeft => 0
  | .topRight => 1
  | .bottomLeft => 2
  | .bottomRight => 3
  | .invalid _ => 2

/-- The corner of a number; one that is unknown means the bottom left. -/
def decodeCorner (corner : UInt8) : Corner :=
  if corner = 0 then .topLeft
  else if corner = 1 then .topRight
  else if corner = 3 then .bottomRight
  else .bottomLeft

/-- A rate that can be shown. -/
def ValidDisplayRate (fps : ℤ) : Prop := 0 ≤ fps ∧ fps ≤ kMaxDisplayFps

instance (fps : ℤ) : Decidable (ValidDisplayRate fps) := inferInstanceAs (Decidable (_ ∧ _))

/-- A rate as either end handles it. -/
def wireFps (fps : ℤ) : ℤ := if ValidDisplayRate fps then fps else 0

/-- A truth value on the wire. -/
def flag (p : Prop) [Decidable p] : UInt8 := if p then 1 else 0

@[simp] theorem flag_ne_zero (p : Prop) [Decidable p] : flag p ≠ 0 ↔ p := by
  rw [flag]
  split_ifs with h <;> simp [h]

/-- The packet of a frame. -/
def makeWirePacket (frame : OverlayFrame) (sequence : UInt64) : WirePacket where
  sequence := sequence
  fps := .ofInt (wireFps frame.fps)
  loading := flag (frame.loading ∨ ¬ValidDisplayRate frame.fps)
  corner := encodeCorner frame.config.corner
  fontSize := .ofNat (clamp frame.config.fontSize kMinFontSize kMaxFontSize).toNat
  marginX := frame.config.marginX
  marginY := frame.config.marginY
  showLabel := flag frame.config.showLabel
  labelColor := frame.config.labelColor &&& 0xFFFFFF
  valueColor := frame.config.valueColor &&& 0xFFFFFF

/-- The packet that ends the renderer. -/
def makeShutdownWirePacket (sequence : UInt64) : WirePacket where
  magic := kWireShutdownMagic
  sequence := sequence
  loading := 1

/-- The packet ends the renderer. -/
def isShutdownWirePacket (packet : WirePacket) : Bool :=
  packet.magic = kWireShutdownMagic && packet.version = kWireVersion &&
    packet.size = kWirePacketSize

/-- The configuration in a packet, brought into range. -/
def decodeConfig (packet : WirePacket) : OverlayConfig :=
  sanitizeConfig {
    corner := decodeCorner packet.corner
    fontSize := clamp (packet.fontSize.toNat : ℤ) kMinFontSize kMaxFontSize
    marginX := (Single.finite 0).max packet.marginX
    marginY := (Single.finite 0).max packet.marginY
    showLabel := packet.showLabel ≠ 0
    labelColor := packet.labelColor
    valueColor := packet.valueColor }

/-- The frame of a packet, unless the packet is refused. -/
def decodeWirePacket (packet : WirePacket) : Option OverlayFrame :=
  if packet.magic ≠ kWireMagic ∨ packet.version ≠ kWireVersion ∨
      packet.size ≠ kWirePacketSize then none
  else
    some {
      visible := true
      loading := packet.loading ≠ 0 || !decide (ValidDisplayRate packet.fps.toInt)
      fps := wireFps packet.fps.toInt
      config := decodeConfig packet
      anchor := computeAnchor (decodeConfig packet) }

/-! ## The frame that arrives -/

theorem validDisplayRate_wireFps (fps : ℤ) : ValidDisplayRate (wireFps fps) := by
  rw [wireFps]
  split_ifs with h
  exacts [h, by decide]

theorem wireFps_of_validDisplayRate {fps : ℤ} (h : ValidDisplayRate fps) : wireFps fps = fps := if_pos h

theorem loading_iff (fps : ℤ) : (!decide (ValidDisplayRate fps)) = true ↔ fps < 0 ∨ 120 < fps := by
  rw [Bool.not_eq_true', decide_eq_false_iff_not, ValidDisplayRate, kMaxDisplayFps]
  omega

/-- The frame that arrives where `frame` was sent: always visible, in range, and
    placed by its configuration. -/
def received (frame : OverlayFrame) : OverlayFrame where
  visible := true
  loading := frame.loading || !decide (ValidDisplayRate frame.fps)
  fps := wireFps frame.fps
  config := sanitizeConfig frame.config
  anchor := computeAnchor (sanitizeConfig frame.config)

theorem decodeCorner_encodeCorner (c : Corner) : decodeCorner (encodeCorner c) = sanitizeCorner c := by
  cases c <;> rfl

theorem toInt_makeWirePacket_fps (frame : OverlayFrame) (s : UInt64) :
    (makeWirePacket frame s).fps.toInt = wireFps frame.fps := by
  have h₁ := (validDisplayRate_wireFps frame.fps).1
  have h₂ : wireFps frame.fps ≤ 120 := (validDisplayRate_wireFps frame.fps).2
  exact Int32.toInt_ofInt_of_le (by omega) (by omega)

theorem toNat_makeWirePacket_fontSize (frame : OverlayFrame) (s : UInt64) :
    ((makeWirePacket frame s).fontSize.toNat : ℤ) =
      clamp frame.config.fontSize kMinFontSize kMaxFontSize := by
  have h₁ : (14 : ℤ) ≤ clamp frame.config.fontSize kMinFontSize kMaxFontSize :=
    le_clamp (by decide)
  have h₂ : clamp frame.config.fontSize kMinFontSize kMaxFontSize ≤ (64 : ℤ) :=
    clamp_le (by decide)
  rw [makeWirePacket, UInt16.toNat_ofNat_of_lt' (by simp; omega)]
  omega

theorem sanitizeMargin_max_zero {m : Single} (hm : m.IsFinite) (q : ℚ) :
    sanitizeMargin ((Single.finite 0).max m) q = sanitizeMargin m q := by
  rw [hm.eq, Single.max_finite, sanitizeMargin_finite, sanitizeMargin_finite,
    clamp_max_left (by norm_num)]

/-- The configuration arrives in range. -/
theorem decodeConfig_makeWirePacket {frame : OverlayFrame} (hx : frame.config.marginX.IsFinite)
    (hy : frame.config.marginY.IsFinite) (s : UInt64) :
    decodeConfig (makeWirePacket frame s) = sanitizeConfig frame.config := by
  have hl : (makeWirePacket frame s).showLabel ≠ 0 ↔ frame.config.showLabel := flag_ne_zero _
  simp only [decodeConfig, sanitizeConfig, toNat_makeWirePacket_fontSize, hl]
  simp only [makeWirePacket, decodeCorner_encodeCorner, sanitizeCorner_idem, mask_mask,
    sanitizeMargin_max_zero hx, sanitizeMargin_max_zero hy, Bool.decide_eq_true]
  rw [clamp_clamp (by decide), clamp_clamp (by decide)]

theorem decode_makeWirePacket {frame : OverlayFrame} (hx : frame.config.marginX.IsFinite)
    (hy : frame.config.marginY.IsFinite) (s : UInt64) :
    decodeWirePacket (makeWirePacket frame s) = some (received frame) := by
  have hl : (makeWirePacket frame s).loading ≠ 0 ↔ frame.loading ∨ ¬ValidDisplayRate frame.fps :=
    flag_ne_zero _
  rw [decodeWirePacket, if_neg (by simp [makeWirePacket]), toInt_makeWirePacket_fps,
    wireFps_of_validDisplayRate (validDisplayRate_wireFps _), decodeConfig_makeWirePacket hx hy]
  simp [received, hl, validDisplayRate_wireFps]

/-- A decoded configuration is in range. -/
theorem sanitizeConfig_decodeConfig (packet : WirePacket) :
    sanitizeConfig (decodeConfig packet) = decodeConfig packet :=
  sanitizeConfig_idem _

/-- What decoding a packet that it accepts gives. -/
theorem eq_of_decode {packet : WirePacket} {frame : OverlayFrame}
    (h : decodeWirePacket packet = some frame) :
    frame = {
      visible := true
      loading := packet.loading ≠ 0 || !decide (ValidDisplayRate packet.fps.toInt)
      fps := wireFps packet.fps.toInt
      config := decodeConfig packet
      anchor := computeAnchor (decodeConfig packet) } := by
  rw [decodeWirePacket] at h
  split_ifs at h with hp
  exact (Option.some_injective _ h).symm

/-- What is decoded arrives as it is. -/
theorem received_of_decode {packet : WirePacket} {frame : OverlayFrame}
    (h : decodeWirePacket packet = some frame) : received frame = frame := by
  obtain rfl := eq_of_decode h
  have hr := validDisplayRate_wireFps packet.fps.toInt
  simp only [received, wireFps_of_validDisplayRate hr, hr, sanitizeConfig_decodeConfig,
    decide_true, Bool.not_true, Bool.or_false]

/-- The margins of a decoded frame are finite, whatever the packet. -/
theorem margins_of_decode {packet : WirePacket} {frame : OverlayFrame}
    (h : decodeWirePacket packet = some frame) :
    frame.config.marginX.IsFinite ∧ frame.config.marginY.IsFinite := by
  rw [← received_of_decode h]
  exact ⟨sanitizeMargin_isFinite _ _, sanitizeMargin_isFinite _ _⟩

/-- The wire format is a normalising codec: a frame with finite margins arrives
    in range; what is decoded from any packet is in range, and arrives as it is. -/
theorem wire_normalises :
    (∀ (f : OverlayFrame) (s : UInt64),
      f.config.marginX.IsFinite → f.config.marginY.IsFinite →
      ∃ g, decodeWirePacket (makeWirePacket f s) = some g ∧
        g.config = sanitizeConfig f.config ∧
        g.anchor = computeAnchor (sanitizeConfig f.config) ∧
        (g.loading = true ↔ f.loading = true ∨ f.fps < 0 ∨ 120 < f.fps) ∧
        g.fps = if 0 ≤ f.fps ∧ f.fps ≤ 120 then f.fps else 0) ∧
    ∀ (p : WirePacket) (g : OverlayFrame),
      p.marginX.IsFinite → p.marginY.IsFinite → decodeWirePacket p = some g →
      sanitizeConfig g.config = g.config ∧ 0 ≤ g.fps ∧ g.fps ≤ 120 ∧
        (p.fps.toInt < 0 ∨ 120 < p.fps.toInt → g.loading = true) ∧
        ∀ s, decodeWirePacket (makeWirePacket g s) = some g := by
  refine ⟨fun f s hx hy => ⟨received f, decode_makeWirePacket hx hy s, rfl, rfl, ?_, rfl⟩,
    fun p g _ _ hg => ?_⟩
  · simp only [received, Bool.or_eq_true, loading_iff]
  · have hn := received_of_decode hg
    have hm := margins_of_decode hg
    have hf : ValidDisplayRate g.fps := hn ▸ validDisplayRate_wireFps g.fps
    refine ⟨congrArg OverlayFrame.config hn, hf.1, hf.2, fun hp => ?_, fun s => ?_⟩
    · rw [eq_of_decode hg, Bool.or_eq_true, loading_iff]
      exact .inr hp
    · rw [decode_makeWirePacket hm.1 hm.2, hn]

/-- An old sender: every field out of range. -/
def outOfRangePacket : WirePacket where
  fps := 1000
  loading := 0
  corner := 9
  fontSize := 500
  marginX := .finite (-3)
  marginY := .finite 1000
  labelColor := 0xFF000001

theorem wire_normalises_outOfRange :
    (∃ g, decodeWirePacket outOfRangePacket = some g ∧ sanitizeConfig g.config = g.config ∧
      g.loading = true ∧ decodeWirePacket (makeWirePacket g 7) = some g) ∧
    ∃ g, decodeWirePacket (makeWirePacket { fps := -1, config := { fontSize := 3 } } 1) = some g ∧
      g.config.fontSize = 14 := by
  have hg := (rfl : decodeWirePacket outOfRangePacket = some _)
  obtain ⟨g, hf, hc, -⟩ :=
    wire_normalises.1 { fps := -1, config := { fontSize := 3 } } 1 trivial trivial
  obtain ⟨hs, -, -, hl, hr⟩ := wire_normalises.2 outOfRangePacket _ trivial trivial hg
  exact ⟨⟨_, hg, hs, hl (by decide), hr 7⟩, g, hf, by rw [hc]; rfl⟩

end CommonFps
