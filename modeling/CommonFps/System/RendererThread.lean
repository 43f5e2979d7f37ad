import CommonFps.ShellUi.Injection

/-!
# One renderer thread

The injector (`ensure_shellui_renderer`), whose injections are sessions of the
debugger with ShellUI (`inject_shellui_stable`): what it is told of them is no
longer an input, and what they do to ShellUI is known.

* `EnsureTurn.answers`: what the injector is told;
* `rendererThreads`: the threads that a call has started in ShellUI, also those
  started after the debugger let go of it;
* `one_renderer_thread`: a ShellUI process gets one renderer thread at most, and
  a call that says it is online after an injection has started it, with the
  credentials given back.
-/

namespace CommonFps

/-- What the environment decides in a call of the injector. -/
structure EnsureTurn where
  lookup : ℤ
  marker : Option ℤ
  wait : ℕ → WaitAnswers
  /-- The credentials of the controller, and the registers of the thread that a session borrows. -/
  authId : UInt64
  regs : Regs
  session : InjectionAnswers
  /-- What the thread does after the session. -/
  steps : ℕ
  leftRegs : Regs

namespace EnsureTurn

variable (image : Image) (turn : EnsureTurn)

/-- The session, if there is one. -/
def inject : Session × InjectionReport :=
  injectShelluiStable turn.lookup (some image) .startRendererThread turn.session
    { authId := turn.authId, target := { regs := turn.regs } }

/-- What a call of the injector is answered, with the outcome of its session. -/
def answers : EnsureAnswers where
  lookup := turn.lookup
  marker := turn.marker
  injected := ⟨(turn.inject image).2.elfLoaded, (turn.inject image).2.pthreadCreateOk,
    (turn.inject image).2.authRestored⟩
  wait := turn.wait

/-- ShellUI, after the session. -/
def left : Target :=
  (turn.inject image).1.target.run turn.session.call.createRc turn.steps turn.leftRegs

/-- The thread of the renderer. -/
def thread : RendererThread :=
  ⟨entryAddress turn.session.load.ptMmap image.elf, turn.session.payloadArgs⟩

/-- A session starts no other thread, and one that it started is there if its report says so. -/
theorem left_threads : ((turn.left image).threads = [] ∨
      (turn.inject image).2.elfLoaded = true ∧ (turn.left image).threads = [turn.thread image]) ∧
    ((turn.inject image).2.pthreadCreateOk = true →
      (turn.left image).threads = [turn.thread image]) := by
  obtain ⟨hthreads, hok⟩ := injection_thread turn.lookup (some image) .startRendererThread turn.session
    { authId := turn.authId, target := { regs := turn.regs } } rfl turn.steps turn.leftRegs
  constructor
  · rcases hthreads with hnone | ⟨_, himage, -, hloaded, -, -, -, hsome⟩
    · exact .inl hnone
    · cases himage
      exact .inr ⟨hloaded, hsome⟩
  · intro h
    obtain ⟨_, himage, -, hsome⟩ := hok h
    cases himage
    exact hsome

end EnsureTurn

/-- The report that the injector records is the one that it is told. -/
theorem injected_of_mem {s : Injector} {a : EnsureAnswers} {p : ℤ} {r : StableInjectionResult}
    (h : (p, r) ∈ (s.ensureShelluiRenderer a).2.injections) :
    p = a.lookup ∧ r = a.injected ∧ ((s.ensureShelluiRenderer a).2.result = true →
      a.injected.pthreadCreateOk = true ∧ a.injected.authRestored = true) := by
  rw [Injector.ensureShelluiRenderer] at h ⊢
  by_cases hq : s.rendererQuarantined
  · rw [if_pos hq] at h
    cases h
  by_cases hp : a.lookup ≤ 0
  · rw [if_neg hq, if_pos hp] at h
    cases h
  by_cases hm : a.marker = some a.lookup
  · rw [if_neg hq, if_neg hp, if_pos hm] at h
    cases h
  rw [if_neg hq, if_neg hp, if_neg hm] at h ⊢
  rcases hs : s.attempt a.lookup with ⟨s', _ | result⟩
  · simp only [hs, Injector.inject] at h ⊢
    by_cases hfailed : (!a.injected.pthreadCreateOk || !a.injected.authRestored) = true
    · rw [if_pos hfailed] at h ⊢
      rw [Injector.injections_began, List.mem_singleton, Prod.mk.injEq] at h
      exact ⟨h.1, h.2, fun hresult => absurd hresult Bool.false_ne_true⟩
    · rw [if_neg hfailed] at h ⊢
      have hi : (p, r) = (a.lookup, a.injected) := by
        split_ifs at h <;> exact List.mem_singleton.1 (Injector.injections_waited _ _ _ _ _ ▸ h)
      cases hi
      exact ⟨rfl, rfl, fun _ => by simpa using hfailed⟩
  · simp [hs, EnsureReport.injections, InjectorEvent.injection?] at h

section Runs

variable (image : Image) (κ : ℕ → EnsureTurn)

/-- What the injector is told. -/
def ensureAnswers (n : ℕ) : EnsureAnswers := (κ n).answers image

/-- The threads that a call has started, with their processes. -/
def rendererThreads (n : ℕ) : List (ℤ × RendererThread) :=
  (injector.output (ensureAnswers image κ) n).injections.flatMap fun i =>
    ((κ n).left image).threads.map fun thread => (i.1, thread)

variable {image κ} {n : ℕ}

/-- A call that started a thread is one of an injection that loaded the image. -/
theorem mem_rendererThreads {p : ℤ} {thread : RendererThread}
    (h : (p, thread) ∈ rendererThreads image κ n) :
    ∃ r, (p, r) ∈ (injector.output (ensureAnswers image κ) n).injections ∧ r.elfLoaded = true ∧
      thread = (κ n).thread image := by
  obtain ⟨⟨q, r⟩, hinjection, hmem⟩ := List.mem_flatMap.1 h
  obtain ⟨thread', hthread, heq⟩ := List.mem_map.1 hmem
  cases heq
  refine ⟨r, hinjection, ?_⟩
  rcases ((κ n).left_threads image).1 with hnone | ⟨hloaded, hsome⟩
  · rw [hnone] at hthread
    cases hthread
  · rw [hsome] at hthread
    obtain ⟨-, hreport, -⟩ := injected_of_mem hinjection
    exact ⟨hreport ▸ hloaded, List.mem_singleton.1 hthread⟩

end Runs

/-- A ShellUI process gets one renderer thread at most, unless another process was ShellUI in between;
    none is started after a quarantine. A call that says that the renderer is online after an
    injection has started its thread, and has given the credentials back. -/
theorem one_renderer_thread (image : Image) (κ : ℕ → EnsureTurn) :
    (∀ n, (rendererThreads image κ n).length ≤ 1 ∧ ∀ i ∈ rendererThreads image κ n,
      i = ((κ n).lookup, (κ n).thread image)) ∧
    (∀ m n p thread thread', m < n → (p, thread) ∈ rendererThreads image κ m →
      (p, thread') ∈ rendererThreads image κ n → ∃ i, m < i ∧ i < n ∧ ∃ q, 0 < q ∧ q ≠ p ∧
        .lookup q ∈ (injector.output (ensureAnswers image κ) i).events) ∧
    (∀ m n, m < n → .quarantine ∈ (injector.output (ensureAnswers image κ) m).events →
      rendererThreads image κ n = []) ∧
    ∀ n, (injector.output (ensureAnswers image κ) n).result = true →
      (injector.output (ensureAnswers image κ) n).injections ≠ [] →
        rendererThreads image κ n = [((κ n).lookup, (κ n).thread image)] ∧
          ((κ n).inject image).1.authId = (κ n).authId := by
  have hone {n : ℕ} {p : ℤ} {r : StableInjectionResult}
      (h : (p, r) ∈ (injector.output (ensureAnswers image κ) n).injections) :
      rendererThreads image κ n = ((κ n).left image).threads.map fun thread => (p, thread) := by
    rw [rendererThreads, ((injector.call (ensureAnswers image κ) n).injected h).1]
    exact List.append_nil _
  refine ⟨fun n => ?_, fun m n p thread thread' hmn hm hn => ?_, fun m n hmn hm => ?_,
    fun n hresult hne => ?_⟩
  · cases hinjections : (injector.output (ensureAnswers image κ) n).injections with
    | nil =>
      rw [rendererThreads, hinjections]
      exact ⟨Nat.zero_le 1, nofun⟩
    | cons i l =>
      have hi : (i.1, i.2) ∈ (injector.output (ensureAnswers image κ) n).injections :=
        hinjections ▸ List.mem_cons_self
      have hp : i.1 = (κ n).lookup := (injected_of_mem hi).1
      rw [hone hi]
      rcases ((κ n).left_threads image).1 with hnone | ⟨-, hsome⟩
      · rw [hnone]
        exact ⟨Nat.zero_le 1, nofun⟩
      · rw [hsome, ← hp]
        exact ⟨le_rfl, fun j hj => List.mem_singleton.1 hj⟩
  · obtain ⟨r, hinjection, hloaded, -⟩ := mem_rendererThreads hm
    obtain ⟨r', hinjection', -⟩ := mem_rendererThreads hn
    obtain ⟨-, -, -, hq, hready, -⟩ :=
      (injector.call (ensureAnswers image κ) n).injected hinjection'
    by_contra hne
    -- A process with an image stays closed until another one is found.
    refine (injector.closed hinjection hloaded hmn fun i h₁ h₂ q hq => ?_).not_ready hq hready
    by_contra hother
    rw [not_or, not_le] at hother
    exact hne ⟨i, h₁, h₂, q, hother.1, hother.2, hq⟩
  · refine List.eq_nil_iff_forall_not_mem.2 fun i hi => ?_
    obtain ⟨r, hinjection, -⟩ := mem_rendererThreads hi
    obtain ⟨-, -, -, hq, -⟩ := (injector.call (ensureAnswers image κ) n).injected hinjection
    rw [injector.quarantine hm hmn] at hq
    cases hq
  · obtain ⟨⟨p, r⟩, hinjection⟩ := List.exists_mem_of_ne_nil _ hne
    obtain ⟨rfl, -, hdone⟩ := injected_of_mem hinjection
    obtain ⟨hok, hauth⟩ := hdone hresult
    rw [hone hinjection, ((κ n).left_threads image).2 hok]
    exact ⟨rfl, (injection_auth (κ n).lookup (some image) .startRendererThread (κ n).session _) hauth⟩

/-- The call number `n` finds `pid n`; everything succeeds, and then the marker is `marker n`. -/
def smoothTurn (pid marker : ℕ → ℤ) (n : ℕ) : EnsureTurn where
  lookup := pid n
  marker := none
  wait := fun _ => ⟨some (marker n), 51⟩
  authId := 1
  regs := {}
  session := smoothSession
  steps := 0
  leftRegs := {}

/-- Another process is ShellUI for one call. -/
def alternating (n : ℕ) : ℤ := if n = 1 then 51 else 50

theorem one_renderer_thread_runs :
    rendererThreads plainImage (smoothTurn alternating alternating) 0 =
      [(50, ⟨0x200000000, 0x300000000⟩)] ∧
    (∃ i, 0 < i ∧ i < 2 ∧ ∃ q, 0 < q ∧ q ≠ 50 ∧ .lookup q ∈
      (injector.output (ensureAnswers plainImage (smoothTurn alternating alternating)) i).events) ∧
    rendererThreads plainImage (smoothTurn (fun _ => 50) fun _ => 0) 1 = [] := by
  obtain ⟨-, hbetween, -, honline⟩ :=
    one_renderer_thread plainImage (smoothTurn alternating alternating)
  have hthread (n : ℕ) : (smoothTurn alternating alternating n).thread plainImage =
      ⟨0x200000000, 0x300000000⟩ := by
    have hentry : entryAddress smoothSession.load.ptMmap plainImage.elf = 0x200000000 := by
      decide +kernel
    exact congrArg (RendererThread.mk · 0x300000000) hentry
  have h₀ := (honline 0 (by decide +kernel) (by decide +kernel)).1
  have h₂ := (honline 2 (by decide +kernel) (by decide +kernel)).1
  rw [hthread] at h₀ h₂
  refine ⟨h₀, hbetween 0 2 50 _ _ (by decide) (h₀ ▸ List.mem_singleton_self _)
    (h₂ ▸ List.mem_singleton_self _), ?_⟩
  exact (one_renderer_thread plainImage _).2.2.1 0 1 (by decide) (by decide +kernel)

end CommonFps
