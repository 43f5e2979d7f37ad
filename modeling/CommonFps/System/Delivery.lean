import CommonFps.Worker.Shown
import CommonFps.ShellUi.Numbers
import CommonFps.ShellUi.WidgetRuns

/-!
# From the worker to the widgets

The whole way of a rate: the worker sends a packet in an iteration of its loop
(`run_tracked_worker`), the loopback interface delivers its bytes, or not, the
renderer stores them (`run_receiver_loop`), and a tick hands them to the update
of the widgets (`apply_latest_state_on_render`, `apply_packet_on_render`).

The worker runs on its own; a step of the renderer says how many iterations the
worker has done by then, which of their packets arrives, and what the managed
runtime answers. Whether an update succeeds is no longer an input.

* `overlay`: the renderer and the interface, fed by the worker;
* `overlay_shows_current`: what the widgets show after an update was current when
  it was sent, and they show it until the next update;
* `overlay_in_order`: if packets arrive in order, the overlay never goes back to
  an earlier iteration;
* `overlay_shows_latest`: the packet stored last is the one shown after the next
  tick that can update the widgets; nothing is assumed of its number.
-/

namespace CommonFps

/-- The settings, the rate and the source that the worker has in the iteration `k` belong to
    a rate `f` that is current: produced for the game that runs, in a stretch of at least 5 s
    in which one source gave every value. -/
def worker.Current (κ : ℕ → WorkerInput) (k : ℕ) (f : ℤ) : Prop :=
  ∃ g source j, 0 < g ∧ j ≤ k ∧
    (∀ i, j ≤ i → i ≤ k → (κ i).gamePid = some g ∧
      (worker.output κ i).filterCall.source = source ∧
      ∃ f', (worker.output κ i).filterCall.measured = some f' ∧
        (worker.output κ i).Produced g f' source) ∧
    (∃ i, j ≤ i ∧ i ≤ k ∧ (worker.output κ i).Produced g f source) ∧
    (κ j).filterNowUs + 5000000 ≤ (κ k).filterNowUs

namespace worker

variable {κ : ℕ → WorkerInput} {j k : ℕ} {packet : WirePacket}

/-- A rate that the filter shows is current. -/
theorem current_of_displayed {v : ℤ} (h : (worker.output κ k).displayFps = some v) :
    worker.Current κ k v := by
  obtain ⟨j, hjk, hstretch, ⟨m, hjm, hmk, hm⟩, htime⟩ := worker.displayed κ h
  have hproduced (i : ℕ) (h₁ : j ≤ i) (h₂ : i ≤ k) :=
    Worker.produced_of_valid (worker.attached_to_game κ i) (hstretch i h₁ h₂).1
  have hpid (i : ℕ) (h₁ : j ≤ i) (h₂ : i ≤ k) := (hstretch i h₁ h₂).2.1
  have hsource (i : ℕ) (h₁ : j ≤ i) (h₂ : i ≤ k) := (hstretch i h₁ h₂).2.2
  refine ⟨(worker.call κ j).pid, (worker.call κ j).source, j, (hstretch j le_rfl hjk).1.pid, hjk,
    fun i h₁ h₂ => ?_, ⟨m, hjm, hmk, ?_⟩, htime⟩
  · obtain ⟨hg, hp⟩ := hproduced i h₁ h₂
    rw [← hpid i h₁ h₂, ← hsource i h₁ h₂]
    exact ⟨hg, rfl, _, (hstretch i h₁ h₂).1.measured, hp⟩
  · rw [← hpid m hjm hmk, ← hsource m hjm hmk, ← hm]
    exact (hproduced m hjm hmk).2

/-- An iteration counts the packet it sends, if it sends one. -/
theorem sent_spec (κ : ℕ → WorkerInput) (k : ℕ) :
    ((worker.output κ k).sent = none ∧
      (worker.state κ (k + 1)).sequence = (worker.state κ k).sequence) ∨
    ((worker.output κ k).sent = some (makeWirePacket
        (Worker.overlayFrame (worker.output κ k).displayFps (κ k).config)
        (worker.state κ k).sequence) ∧
      (worker.state κ (k + 1)).sequence = (worker.state κ k).sequence + 1) := by
  have hsequence : (Worker.ensured (worker.state κ k) (κ k)).1.sequence =
      (worker.state κ k).sequence := by
    rw [Worker.ensured_frame, Worker.chosen_frame, Worker.observed, Worker.observeGame_frame,
      Worker.observeShellui_frame]
  rw [Driven.state_succ, ← hsequence]
  change (Prod.snd (Worker.send _ _ _) = _ ∧ (Prod.fst (Worker.send _ _ _)).sequence = _) ∨
    (Prod.snd (Worker.send _ _ _) = _ ∧ (Prod.fst (Worker.send _ _ _)).sequence = _)
  rw [Worker.send]
  split_ifs
  · exact .inr ⟨rfl, rfl⟩
  · exact .inl ⟨rfl, rfl⟩

/-- The packet sent in an iteration is that of its frame. -/
theorem eq_of_sent (h : (worker.output κ k).sent = some packet) :
    packet = makeWirePacket (Worker.overlayFrame (worker.output κ k).displayFps (κ k).config)
      (worker.state κ k).sequence ∧
    (worker.state κ (k + 1)).sequence = (worker.state κ k).sequence + 1 := by
  rcases sent_spec κ k with ⟨hnone, -⟩ | ⟨hsome, hnext⟩
  · cases hnone.symm.trans h
  · exact ⟨Option.some_injective _ (h.symm.trans hsome), hnext⟩

/-- A packet with a rate carries a current one. -/
theorem current_of_sent (h : (worker.output κ k).sent = some packet) {frame : OverlayFrame}
    (hdecode : decodeWirePacket packet = some frame) (hl : frame.loading = false) :
    ValidDisplayRate frame.fps ∧ worker.Current κ k frame.fps := by
  obtain rfl := eq_of_decode hdecode
  obtain ⟨hloading, hvalid⟩ : packet.loading = 0 ∧ ValidDisplayRate packet.fps.toInt := by
    simpa using hl
  obtain ⟨v, hv, hr, hf⟩ := Worker.fps_of_sent h hloading
  have hfps : wireFps packet.fps.toInt = v := (wireFps_of_validDisplayRate hvalid).trans hf
  exact ⟨hfps.symm ▸ hr, hfps.symm ▸ current_of_displayed hv⟩

/-- Every packet passes the checks of the receiver. -/
theorem acceptDatagram_of_sent {bytes : PacketBytes}
    (h : (worker.output κ k).sent = some bytes.packet) :
    acceptDatagram (List.ofFn bytes) = some bytes := by
  have hpacket := (eq_of_sent h).1
  have hrecv : recvPacket (List.ofFn bytes) = some bytes := by
    rw [recvPacket, dif_pos List.length_ofFn.ge]
    exact congrArg some (funext fun i => List.get_ofFn bytes _)
  have hshutdown : isShutdownWirePacket bytes.packet = false := by
    rw [hpacket]
    rfl
  have hpasses : bytes.Passes := by
    rw [PacketBytes.Passes, hpacket]
    exact ⟨rfl, rfl, rfl⟩
  rw [acceptDatagram, hrecv]
  dsimp only
  rw [if_neg (ne_true_of_eq_false hshutdown), if_pos hpasses]

/-- The number of a packet: at least `1`, and no smaller than before. -/
theorem sequence_spec (κ : ℕ → WorkerInput) {k : ℕ} (hk : k < 2 ^ 64 - 1) :
    1 ≤ (worker.state κ k).sequence.toNat ∧ (worker.state κ k).sequence.toNat ≤ k + 1 ∧
      ∀ j ≤ k, (worker.state κ j).sequence.toNat ≤ (worker.state κ k).sequence.toNat := by
  induction k with
  | zero => exact ⟨le_rfl, le_rfl, fun j hj => by rw [Nat.le_zero.1 hj]⟩
  | succ k ih =>
    obtain ⟨hone, hle, hmono⟩ := ih (by omega)
    have hnext : (worker.state κ (k + 1)).sequence.toNat = (worker.state κ k).sequence.toNat ∨
        (worker.state κ (k + 1)).sequence.toNat = (worker.state κ k).sequence.toNat + 1 := by
      rcases sent_spec κ k with ⟨-, h⟩ | ⟨-, h⟩
      · exact .inl (congrArg UInt64.toNat h)
      · refine .inr ?_
        rw [h, UInt64.toNat_add, Nat.mod_eq_of_lt]
        · rfl
        · change _ + 1 < 2 ^ 64
          omega
    refine ⟨by omega, by omega, fun j hj => ?_⟩
    rcases Nat.le_succ_iff.1 hj with hj | rfl
    · have := hmono j hj
      omega
    · exact le_rfl

/-- Packets of different iterations have different numbers, none of which is `0`. -/
theorem sequence_lt {packet' : WirePacket} (hjk : j < k) (hk : k < 2 ^ 64 - 1)
    (hj : (worker.output κ j).sent = some packet) (hk' : (worker.output κ k).sent = some packet') :
    packet.sequence.toNat < packet'.sequence.toNat := by
  obtain ⟨hone, hle, -⟩ := sequence_spec κ (hjk.trans hk)
  have hnext : (worker.state κ (j + 1)).sequence.toNat = (worker.state κ j).sequence.toNat + 1 := by
    rw [(eq_of_sent hj).2, UInt64.toNat_add, Nat.mod_eq_of_lt]
    · rfl
    · change _ + 1 < 2 ^ 64
      omega
  have hmono := (sequence_spec κ hk).2.2 (j + 1) hjk
  rw [(eq_of_sent hj).1, (eq_of_sent hk').1]
  change (worker.state κ j).sequence.toNat < (worker.state κ k).sequence.toNat
  omega

end worker

/-! ## The renderer, fed by the worker -/

/-- What happens in a step of the renderer. -/
structure OverlayTurn where
  thread : Holder
  /-- The iterations that the worker has done so far. -/
  iterations : ℕ
  /-- What arrives, if `recv` is called: the packet of an iteration, as its bytes; or an
      error, as after a timeout. -/
  arrives : Option (ℕ × PacketBytes) := none
  answers : ApplyAnswers

/-- The renderer, and the interface that it draws in. -/
structure Overlay where
  render : RenderState := {}
  ui : Ui := {}

/-- What is told of a step: what it does, and whose packet it receives. -/
structure OverlayReport where
  act : Option RenderAct
  arrived : Option (ℕ × PacketBytes)

section Overlay

variable (background : Bool) (κ : ℕ → WorkerInput) (ui : Ui)

namespace OverlayTurn

/-- The packet that can arrive: one that the worker has sent. -/
def sent (turn : OverlayTurn) : Option (ℕ × PacketBytes) :=
  turn.arrives.filter fun a =>
    a.1 < turn.iterations ∧ (worker.output κ a.1).sent = some a.2.packet

/-- The step of the renderer, given how an update of the widgets ends. -/
def turn (turn : OverlayTurn) (ok : Bool) : Turn where
  thread := turn.thread
  datagram := (turn.sent κ).map fun a => List.ofFn a.2
  ok := ok

end OverlayTurn

namespace Overlay

/-- The update of the widgets that the tick has come to, if it has come to one. -/
def update (s : Overlay) (answers : ApplyAnswers) : Bool × Ui :=
  match s.render.tick with
  | .updating packet => applyPacketOnRender packet.packet answers s.ui
  | _ => (true, s.ui)

/-- The interface after a step, given what an update of it makes of it. -/
def drawn (before after : Ui) : Option RenderAct → Ui
  | some (.updated _ _) => after
  | _ => before

/-- Whose packet is received in a step, given the one that can arrive. -/
def arrived (sent : Option (ℕ × PacketBytes)) : Option RenderAct → Option (ℕ × PacketBytes)
  | some (.received _) => sent
  | _ => none

/-- A turn: the worker and the network, and a step of the receiver or of the renderer. -/
def step (s : Overlay) (turn : OverlayTurn) : Overlay × OverlayReport :=
  let updated := s.update turn.answers
  let (render, act) := s.render.step background (turn.turn κ updated.1)
  ({ render, ui := drawn s.ui updated.2 act }, { act, arrived := arrived (turn.sent κ) act })

/-- What is told of a step of the renderer: nothing, an update that a tick has come to, or
    what `recv` returns. -/
theorem act_cases (s : RenderState) (turn : Turn) :
    (s.step background turn).2 = none ∨
      (∃ packet, s.tick = .updating packet ∧
        (s.step background turn).2 = some (.updated packet turn.ok)) ∨
      (s.step background turn).2 = some (.received turn.datagram) := by
  rcases renderStep_cases background s turn with ⟨receiver, -, hstep⟩ | hstep | ⟨-, -, hstep⟩
  · rcases s.tick.step_act turn.ok s.shared with hact | ⟨packet, htick, hact⟩
    · exact .inl (by rw [hstep]; exact hact)
    · exact .inr (.inl ⟨packet, htick, by rw [hstep]; exact hact⟩)
  · exact .inl (by rw [hstep])
  · rcases s.receiver.step_act background turn.datagram s.shared with hact | ⟨-, hact⟩
    · exact .inl (by rw [hstep]; exact hact)
    · exact .inr (.inr (by rw [hstep]; exact hact))

/-- A step updates the widgets to the packet that the tick has, and says how this ended; or
    it leaves the interface alone. -/
theorem step_cases (s : Overlay) (turn : OverlayTurn) :
    (∃ packet, s.render.tick = .updating packet ∧
      (s.step background κ turn).2.act =
        some (.updated packet (applyPacketOnRender packet.packet turn.answers s.ui).1) ∧
      (s.step background κ turn).1.ui =
        (applyPacketOnRender packet.packet turn.answers s.ui).2) ∨
    (∀ q ok, (s.step background κ turn).2.act ≠ some (.updated q ok)) ∧
      (s.step background κ turn).1.ui = s.ui := by
  have hact : (s.step background κ turn).2.act =
      (s.render.step background (turn.turn κ (s.update turn.answers).1)).2 := rfl
  have hui : (s.step background κ turn).1.ui =
      drawn s.ui (s.update turn.answers).2 (s.step background κ turn).2.act := rfl
  rcases act_cases background s.render (turn.turn κ (s.update turn.answers).1) with
    h | ⟨packet, htick, h⟩ | h
  · rw [hui, hact, h]
    exact .inr ⟨nofun, rfl⟩
  · have hupdate : s.update turn.answers = applyPacketOnRender packet.packet turn.answers s.ui := by
      rw [update, htick]
    rw [hui, hact, h]
    exact .inl ⟨packet, htick, by rw [← hupdate]; rfl, by rw [← hupdate]; rfl⟩
  · rw [hui, hact, h]
    exact .inr ⟨nofun, rfl⟩

/-- What arrives is what `recv` returns. -/
theorem arrived_spec (s : Overlay) (turn : OverlayTurn) :
    (datagramOf (s.step background κ turn).2.act).bind acceptDatagram =
      (s.step background κ turn).2.arrived.map Prod.snd ∧
    ∀ a, (s.step background κ turn).2.arrived = some a →
      a.1 < turn.iterations ∧ (worker.output κ a.1).sent = some a.2.packet := by
  have hact : (s.step background κ turn).2.act =
      (s.render.step background (turn.turn κ (s.update turn.answers).1)).2 := rfl
  have harrived : (s.step background κ turn).2.arrived =
      arrived (turn.sent κ) (s.step background κ turn).2.act := rfl
  rcases act_cases background s.render (turn.turn κ (s.update turn.answers).1) with
    h | ⟨packet, -, h⟩ | h
  · rw [harrived, hact, h]
    exact ⟨rfl, nofun⟩
  · rw [harrived, hact, h]
    exact ⟨rfl, nofun⟩
  · rw [harrived, hact, h]
    change ((turn.sent κ).map fun a => List.ofFn a.2).bind acceptDatagram =
      (turn.sent κ).map Prod.snd ∧ ∀ a, turn.sent κ = some a → _
    cases hs : turn.sent κ with
    | none => exact ⟨rfl, nofun⟩
    | some a =>
      have ha := of_decide_eq_true (Option.filter_eq_some_iff.1 hs).2
      exact ⟨worker.acceptDatagram_of_sent ha.2, fun _ h => Option.some.inj h ▸ ha⟩

end Overlay

/-- The renderer in an interface, fed by the worker. -/
def overlay : Driven Overlay OverlayTurn OverlayReport := ⟨{ ui }, Overlay.step background κ⟩

/-! ## Runs -/

variable (ι : ℕ → OverlayTurn) (n : ℕ)

/-- The packets that arrive before a step, with the iterations that sent them. -/
def arrivals : List (ℕ × PacketBytes) :=
  (overlay background κ ui).told ι OverlayReport.arrived n

/-- The packets that the widgets are updated to before a step. -/
def shown : List PacketBytes :=
  (overlay background κ ui).told ι (fun report => shownOf report.act) n

/-- The packets arrive in the order in which they are sent, each once at most. -/
def InOrder : Prop := ((arrivals background κ ui ι n).map Prod.fst).Pairwise (· < ·)

/-- The steps of the renderer, for which the widgets say how an update ends. -/
def renderTurn : Turn :=
  (ι n).turn κ (((overlay background κ ui).state ι n).update (ι n).answers).1

theorem render_state : ((overlay background κ ui).state ι n).render =
    (RenderState.driven background).state (renderTurn background κ ui ι) n :=
  Driven.state_of_part (RenderState.driven background) Overlay.render
    (fun s turn => OverlayTurn.turn κ turn (s.update turn.answers).1) rfl (fun _ _ => rfl) n

theorem act_output : ((overlay background κ ui).output ι n).act =
    (RenderState.driven background).output (renderTurn background κ ui ι) n := by
  rw [Driven.output, Driven.output, ← render_state]
  rfl

/-- The renderer acts as if it ran on its own. -/
theorem shown_eq : shown background κ ui ι n =
    shownPackets background (renderTurn background κ ui ι) n := by
  simp only [shown, shownPackets, Driven.told, act_output]

/-- The interface has been through some calls. -/
theorem exists_calls :
    ∃ calls, ((overlay background κ ui).state ι n).ui = ui.runs calls := by
  induction n with
  | zero => exact ⟨[], rfl⟩
  | succ n ih =>
    obtain ⟨calls, hcalls⟩ := ih
    rw [Driven.state_succ]
    rcases Overlay.step_cases background κ ((overlay background κ ui).state ι n) (ι n) with
      ⟨packet, -, -, h⟩ | ⟨-, h⟩
    · refine ⟨calls ++ [(packet.packet, (ι n).answers)], h.trans ?_⟩
      rw [Ui.runs_append, hcalls]
    · exact ⟨calls, h.trans hcalls⟩

/-- The packets that the receiver accepts are those that arrive. -/
theorem acceptedPackets_eq : acceptedPackets background (renderTurn background κ ui ι) n =
    (arrivals background κ ui ι n).map Prod.snd := by
  induction n with
  | zero => rfl
  | succ n ih =>
    have harrived := (Overlay.arrived_spec background κ
      ((overlay background κ ui).state ι n) (ι n)).1
    rw [acceptedPackets_succ, arrivals, Driven.told_succ, List.map_append, ih, ← act_output]
    refine congrArg (_ ++ ·) ((congrArg Option.toList harrived).trans ?_)
    cases h : ((overlay background κ ui).output ι n).arrived with
    | none => exact congrArg Option.toList (congrArg (Option.map Prod.snd) h)
    | some a => exact congrArg Option.toList (congrArg (Option.map Prod.snd) h)

variable {background κ ui ι n}

/-- What arrives was sent by the worker before. -/
theorem mem_arrivals {a : ℕ × PacketBytes} (h : a ∈ arrivals background κ ui ι n) :
    (∃ r < n, a.1 < (ι r).iterations) ∧ (worker.output κ a.1).sent = some a.2.packet := by
  obtain ⟨r, hr, ha⟩ := List.mem_filterMap.1 h
  obtain ⟨hlt, hsent⟩ := (Overlay.arrived_spec background κ
    ((overlay background κ ui).state ι r) (ι r)).2 a ha
  exact ⟨⟨r, List.mem_range.1 hr, hlt⟩, hsent⟩

/-- A packet that the widgets are updated to has arrived. -/
theorem exists_arrival {packet : PacketBytes} {ok : Bool}
    (h : ((overlay background κ ui).output ι n).act = some (.updated packet ok)) :
    ∃ k, (k, packet) ∈ arrivals background κ ui ι n := by
  rw [act_output] at h
  have hmem := mem_of_output h
  rw [acceptedPackets_eq] at hmem
  obtain ⟨⟨k, bytes⟩, ha, rfl⟩ := List.mem_map.1 hmem
  exact ⟨k, ha⟩

/-- The interface is as the last update has left it. -/
theorem ui_of_not_updated {m : ℕ} (hnm : n ≤ m)
    (hlast : ∀ i, n ≤ i → i < m → ∀ q ok,
      ((overlay background κ ui).output ι i).act ≠ some (.updated q ok)) :
    ((overlay background κ ui).state ι m).ui = ((overlay background κ ui).state ι n).ui := by
  refine Driven.invariant_from (d := overlay background κ ui)
    (P := fun _ s => s.ui = ((overlay background κ ui).state ι n).ui) hnm rfl fun i hi him ih => ?_
  rcases Overlay.step_cases background κ ((overlay background κ ui).state ι i) (ι i) with
    ⟨packet, -, hact, -⟩ | ⟨-, hui⟩
  · exact absurd hact (hlast i hi him _ _)
  · exact hui.trans ih

end Overlay

/-- The widgets that are held show the frame. -/
def Ui.Displays (s : Ui) (frame : OverlayFrame) : Prop :=
  ∀ p, ∃ w, s.Pins p w ∧ (s.widget w).Shows p frame (frameLayout frame)

section Displays

variable {background : Bool} {κ : ℕ → WorkerInput} {ui : Ui} (hui : ui.Initial)
  {ι : ℕ → OverlayTurn} {n m : ℕ} {packet : PacketBytes}
include hui

/-- An update that succeeds draws the frame of its packet, which stays until the next one. -/
theorem displays_of_updated
    (hupdated : ((overlay background κ ui).output ι n).act = some (.updated packet true))
    (hnm : n < m) (hlast : ∀ i, n < i → i < m → ∀ q ok,
      ((overlay background κ ui).output ι i).act ≠ some (.updated q ok)) :
    ∃ frame, decodeWirePacket packet.packet = some frame ∧
      ((overlay background κ ui).state ι m).ui.Displays frame := by
  obtain ⟨calls, hcalls⟩ := exists_calls background κ ui ι n
  obtain ⟨t, howned, hsound⟩ := hui.runs calls
  rcases Overlay.step_cases background κ ((overlay background κ ui).state ι n) (ι n) with
    ⟨packet', -, hact, hstep⟩ | ⟨hnot, -⟩
  · have heq := hact.symm.trans hupdated
    simp only [Option.some.injEq, RenderAct.updated.injEq] at heq
    obtain ⟨rfl, hok⟩ := heq
    rw [hcalls] at hok hstep
    obtain ⟨t', howned', hcalled⟩ :=
      applyPacketOnRender_spec howned hsound packet'.packet (ι n).answers
    obtain ⟨frame, hdecode, hdrawn⟩ := hcalled.drawn hok
    refine ⟨frame, hdecode, ?_⟩
    rw [ui_of_not_updated hnm fun i hi => hlast i hi, Driven.state_succ]
    change Ui.Displays (Overlay.step background κ _ _).1.ui frame
    rw [hstep]
    intro p
    obtain ⟨w, htarget, hshows⟩ := hdrawn.shows p
    exact ⟨w, howned'.pins (hdrawn.handle p) htarget, hshows⟩
  · exact absurd hupdated (hnot _ _)

/-- If no update fails, the widgets show the packet that they were updated to last. -/
theorem displays_of_shown (hshown : (shown background κ ui ι n).getLast? = some packet)
    (hok : ∀ i < n, ∀ q, ((overlay background κ ui).output ι i).act ≠ some (.updated q false)) :
    ∃ frame, decodeWirePacket packet.packet = some frame ∧
      ((overlay background κ ui).state ι n).ui.Displays frame := by
  obtain ⟨r, hr, hupdated, hlast⟩ := Driven.exists_last_told hshown
  refine displays_of_updated hui (updated_of_shownOf hupdated) hr fun i hri hin q ok hact => ?_
  cases ok with
  | false => exact hok i hin q hact
  | true =>
    have hnone := hlast i hri hin
    rw [hact] at hnone
    cases hnone

end Displays

/-- After an update that succeeds, the widgets show the frame of a packet that the worker has
    sent before, with the settings of that iteration; a rate is current in it. They show it
    until they are updated again. -/
theorem overlay_shows_current {background : Bool} {κ : ℕ → WorkerInput} {ui : Ui} (hui : ui.Initial)
    {ι : ℕ → OverlayTurn} {n m : ℕ} {packet : PacketBytes}
    (hupdated : ((overlay background κ ui).output ι n).act = some (.updated packet true))
    (hnm : n < m) (hlast : ∀ i, n < i → i < m → ∀ q ok,
      ((overlay background κ ui).output ι i).act ≠ some (.updated q ok)) :
    ∃ k frame, (∃ r < n, k < (ι r).iterations) ∧
      (worker.output κ k).sent = some packet.packet ∧
      decodeWirePacket packet.packet = some frame ∧
      ((overlay background κ ui).state ι m).ui.Displays frame ∧
      ((κ k).config.marginX.IsFinite → (κ k).config.marginY.IsFinite →
        frame.config = sanitizeConfig (κ k).config) ∧
      (frame.loading = false → 0 ≤ frame.fps ∧ frame.fps ≤ 120 ∧ worker.Current κ k frame.fps) := by
  obtain ⟨k, hk⟩ := exists_arrival hupdated
  obtain ⟨hbefore, hsent⟩ := mem_arrivals hk
  obtain ⟨frame, hdecode, hdisplays⟩ := displays_of_updated hui hupdated hnm hlast
  refine ⟨k, frame, hbefore, hsent, hdecode, hdisplays, fun hx hy => ?_, fun hl => ?_⟩
  · rw [(worker.eq_of_sent hsent).1, decode_makeWirePacket hx hy] at hdecode
    rw [← Option.some.inj hdecode]
    rfl
  · obtain ⟨hvalid, hcurrent⟩ := worker.current_of_sent hsent hdecode hl
    exact ⟨hvalid.1, hvalid.2, hcurrent⟩

/-- The packet with the rate that `sharedRateInput` leads to. -/
def ratePacket : PacketBytes := fun i => if i.val = 20 then 0 else numbered 1 60 i

/-- It arrives while the receiver waits for the first time; then there are ticks. -/
def delivery (n : ℕ) : OverlayTurn where
  thread := if n < 50 then .receiver else .tick
  iterations := 10
  arrives := if n = 1 then some (9, ratePacket) else none
  answers := answered

/-- An update has failed. -/
def RenderAct.fails : RenderAct → Bool
  | .updated _ ok => !ok
  | .received _ => false

theorem overlay_shows_current_delivery : ∃ k frame,
    decodeWirePacket ratePacket.packet = some frame ∧
    ((overlay false sharedRateInput {}).state delivery 103).ui.Displays frame ∧
    worker.Current sharedRateInput k frame.fps := by
  have hupdated : ((overlay false sharedRateInput {}).output delivery 101).act =
      some (.updated ratePacket true) := updated_of_shownOf (by decide +kernel)
  have hnone : ((overlay false sharedRateInput {}).output delivery 102).act.isNone := by
    decide +kernel
  obtain ⟨k, frame, -, -, hdecode, hdisplays, -, hcurrent⟩ :=
    overlay_shows_current initial_empty hupdated (m := 103) (by decide) fun i hi him q ok hact => by
      obtain rfl : i = 102 := by omega
      rw [hact] at hnone
      cases hnone
  have hloading : (decodeWirePacket ratePacket.packet).map OverlayFrame.loading = some false := by
    decide +kernel
  rw [hdecode] at hloading
  exact ⟨k, frame, hdecode, hdisplays, (hcurrent (Option.some.inj hloading)).2.2⟩

/-- If the packets arrive in order, the widgets are updated to them in the order of the
    iterations that sent them, never twice to the packet of one. -/
theorem overlay_in_order {background : Bool} {κ : ℕ → WorkerInput} {ui : Ui} {ι : ℕ → OverlayTurn}
    {n : ℕ} (horder : InOrder background κ ui ι n) :
    ∃ turns : List (ℕ × PacketBytes), (turns.map Prod.fst).Pairwise (· < ·) ∧
      turns.map Prod.snd = shown background κ ui ι n ∧
      ∀ a ∈ turns, (∃ r < n, a.1 < (ι r).iterations) ∧
        (worker.output κ a.1).sent = some a.2.packet := by
  obtain ⟨past, next, haccepted, hshown, -, -⟩ :=
    renderInv_state background (renderTurn background κ ui ι) n
  have hsublist : (shown background κ ui ι n).Sublist
      ((arrivals background κ ui ι n).map Prod.snd) := by
    rw [shown_eq, ← acceptedPackets_eq, haccepted, List.append_assoc]
    exact hshown.trans (List.sublist_append_left _ _)
  obtain ⟨turns, hturns, heq⟩ := List.sublist_map_iff.1 hsublist
  refine ⟨turns, horder.sublist (hturns.map _), heq.symm, fun a ha => ?_⟩
  exact mem_arrivals (hturns.subset ha)

theorem overlay_in_order_delivery : ∃ turns : List (ℕ × PacketBytes),
    (turns.map Prod.fst).Pairwise (· < ·) ∧
      turns.map Prod.snd = shown false sharedRateInput {} delivery 110 := by
  have horder : InOrder false sharedRateInput {} delivery 110 := by
    rw [InOrder]
    decide +kernel
  obtain ⟨turns, hturns, hshown, -⟩ := overlay_in_order horder
  exact ⟨turns, hturns, hshown⟩

/-- The numbers of the packets that arrive in order differ, and none is `0`. -/
theorem nodup_of_inOrder {background : Bool} {κ : ℕ → WorkerInput} {ui : Ui} {ι : ℕ → OverlayTurn}
    {n : ℕ} (horder : InOrder background κ ui ι n) (hfew : ∀ r < n, (ι r).iterations < 2 ^ 64) :
    ((acceptedPackets background (renderTurn background κ ui ι) n).map
        PacketBytes.sequence).Nodup ∧
      ∀ p ∈ acceptedPackets background (renderTurn background κ ui ι) n, p.sequence ≠ 0 := by
  have hlt {a : ℕ × PacketBytes} (ha : a ∈ arrivals background κ ui ι n) : a.1 < 2 ^ 64 - 1 := by
    obtain ⟨⟨r, hr, har⟩, -⟩ := mem_arrivals ha
    have := hfew r hr
    omega
  rw [acceptedPackets_eq, List.map_map]
  refine ⟨List.pairwise_map.2 ((List.pairwise_map.1 horder).imp_of_mem fun {a b} ha hb hab => ?_), ?_⟩
  · have hnumbers := worker.sequence_lt hab (hlt hb) (mem_arrivals ha).2 (mem_arrivals hb).2
    exact fun heq => hnumbers.ne (congrArg UInt64.toNat heq)
  · intro p hp
    obtain ⟨a, ha, rfl⟩ := List.mem_map.1 hp
    have hone := (worker.sequence_spec κ (hlt ha)).1
    have hsequence : a.2.sequence = (worker.state κ a.1).sequence :=
      congrArg WirePacket.sequence (worker.eq_of_sent (mem_arrivals ha).2).1
    rw [hsequence]
    intro hzero
    rw [hzero] at hone
    exact absurd hone (by decide)

/-- If the packets arrive in order, the packet stored last is the one that the widgets are
    updated to by the end of the next tick, unless that update fails. If none fails, they show
    its frame then. -/
theorem overlay_shows_latest {background : Bool} {κ : ℕ → WorkerInput} {ui : Ui} (hui : ui.Initial)
    {ι : ℕ → OverlayTurn} {m n : ℕ} {p : PacketBytes} (horder : InOrder background κ ui ι (m + 1))
    (hfew : ∀ r ≤ m, (ι r).iterations < 2 ^ 64)
    (hfinishes : ((overlay background κ ui).state ι m).render.receiver = .flagging p ∧
      (ι m).thread = .receiver)
    (hquiet : ∀ k, m < k → k < n → ∀ datagram,
      ((overlay background κ ui).output ι k).act ≠ some (.received datagram))
    {b j : ℕ} (hb : m < b) (hbj : b < j) (hjn : j ≤ n)
    (hidle : ((overlay background κ ui).state ι b).render.tick = .idle)
    (hbegun : ((overlay background κ ui).state ι (b + 1)).render.tick ≠ .idle)
    (hend : ((overlay background κ ui).state ι j).render.tick = .idle) :
    ((∃ k, b < k ∧ k < j ∧
        ((overlay background κ ui).output ι k).act = some (.updated p false)) ∨
      (shown background κ ui ι j).getLast? = some p) ∧
    ((∀ i < j, ∀ q, ((overlay background κ ui).output ι i).act ≠ some (.updated q false)) →
      ∃ frame, decodeWirePacket p.packet = some frame ∧
        ((overlay background κ ui).state ι j).ui.Displays frame) := by
  have hlast : (∃ k, b < k ∧ k < j ∧
        ((overlay background κ ui).output ι k).act = some (.updated p false)) ∨
      (shown background κ ui ι j).getLast? = some p := by
    obtain ⟨hnodup, hne⟩ := nodup_of_inOrder horder fun r hr => hfew r (Nat.lt_succ_iff.1 hr)
    simp only [render_state, act_output] at hfinishes hquiet hidle hbegun hend
    have hfinishes : Finishes background (renderTurn background κ ui ι) m p := hfinishes
    simp only [act_output, shown_eq]
    exact hfinishes.shown_of_nodup hnodup (hne p hfinishes.mem_accepted) hquiet hb hbj hjn
      hidle hbegun hend
  refine ⟨hlast, fun hok => displays_of_shown hui (hlast.resolve_left ?_) hok⟩
  rintro ⟨k, -, hkj, hact⟩
  exact hok k hkj p hact

theorem overlay_shows_latest_delivery :
    (shown false sharedRateInput {} delivery 103).getLast? = some ratePacket ∧
    ∃ frame, decodeWirePacket ratePacket.packet = some frame ∧
      ((overlay false sharedRateInput {}).state delivery 103).ui.Displays frame := by
  have horder : InOrder false sharedRateInput {} delivery 50 := by
    rw [InOrder]
    decide +kernel
  have hfinishes : ((overlay false sharedRateInput {}).state delivery 49).render.receiver =
      .flagging ratePacket := flagging_of_flagged (by decide +kernel)
  have hok : ∀ i < 103, ((overlay false sharedRateInput {}).output delivery i).act.any
      RenderAct.fails = false := by decide +kernel
  have hok (i : ℕ) (hi : i < 103) (q : PacketBytes) :
      ((overlay false sharedRateInput {}).output delivery i).act ≠ some (.updated q false) := by
    intro hact
    have := hok i hi
    rw [hact] at this
    cases this
  have hquiet (k : ℕ) (hk : 49 < k) (datagram : Option Bytes) :
      ((overlay false sharedRateInput {}).output delivery k).act ≠ some (.received datagram) := by
    rw [act_output]
    refine not_received_of_tick ?_ datagram
    exact if_neg (show ¬k < 50 by omega)
  obtain ⟨hlast, hdisplays⟩ := overlay_shows_latest initial_empty (n := 103) horder
    (fun r _ => show 10 < 2 ^ 64 by decide) ⟨hfinishes, rfl⟩ (fun k hk _ => hquiet k hk) (b :=
      50) (j := 103)
    (by decide) (by decide) le_rfl (by decide +kernel) (by decide +kernel) (by decide +kernel)
  refine ⟨hlast.resolve_left ?_, hdisplays hok⟩
  rintro ⟨k, -, hk, hact⟩
  exact hok k hk _ hact

end CommonFps
