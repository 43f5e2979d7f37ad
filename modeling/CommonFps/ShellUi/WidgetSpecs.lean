import CommonFps.ShellUi.Widgets

/-!
# What the operations on widgets do

For each operation of the renderer on its widgets: which handles there are after it,
and what else it has changed.
-/

namespace CommonFps

open Handles

/-! ## Handles of the interface -/

/-- What the handles in the variables pin. -/
structure Targets where
  scene : Option Obj := none
  root : Option Obj := none
  part : Part → Option Obj := fun _ => none

namespace Ui

/-- The handles in the variables. -/
def held (s : Ui) (t : Targets) : List (ℕ × Option Obj) :=
  slot s.gameSceneHandle t.scene ++ (slot s.rootHandle t.root ++
    (slot (s.partHandle .label) (t.part .label) ++ slot (s.partHandle .value) (t.part .value)))

/-- There are the handles in the variables and these. -/
def Owned (s : Ui) (t : Targets) (l : List (ℕ × Option Obj)) : Prop :=
  s.handles.Owns (l ++ s.held t)

end Ui

/-- The other part. -/
def Part.other : Part → Part
  | label => value
  | value => label

/-- The handles in the variables, except that of a widget. -/
def Ui.others (s : Ui) (t : Targets) (p : Part) : List (ℕ × Option Obj) :=
  slot s.gameSceneHandle t.scene ++ (slot s.rootHandle t.root ++
    slot (s.partHandle p.other) (t.part p.other))

theorem held_perm_part (s : Ui) (t : Targets) (p : Part) :
    (s.held t).Perm (slot (s.partHandle p) (t.part p) ++ s.others t p) := by
  have hrotate (a b c d : List (ℕ × Option Obj)) : (a ++ (b ++ (c ++ d))).Perm (c ++ (a ++ (b ++ d))) :=
    ((List.perm_append_comm_assoc b c d).append_left a).trans (List.perm_append_comm_assoc a c _)
  cases p with
  | label => exact hrotate _ _ _ _
  | value =>
    refine .trans ?_ (hrotate _ _ _ _)
    exact (List.perm_append_comm.append_left _).append_left _

theorem held_perm_root (s : Ui) (t : Targets) :
    (s.held t).Perm (slot s.rootHandle t.root ++ (slot s.gameSceneHandle t.scene ++
      (slot (s.partHandle .label) (t.part .label) ++ slot (s.partHandle .value) (t.part .value)))) :=
  List.perm_append_comm_assoc _ _ _

variable {s : Ui} {t : Targets} {l : List (ℕ × Option Obj)}

theorem Ui.Owned.part (h : s.Owned t l) (p : Part) :
    s.handles.Owns (slot (s.partHandle p) (t.part p) ++ (l ++ s.others t p)) :=
  h.perm (((held_perm_part s t p).append_left l).trans (List.perm_append_comm_assoc _ _ _))

theorem Ui.Owned.of_part {p : Part} (h : s.handles.Owns
    (slot (s.partHandle p) (t.part p) ++ (l ++ s.others t p))) : s.Owned t l :=
  h.perm ((List.perm_append_comm_assoc _ _ _).trans ((held_perm_part s t p).symm.append_left l))

theorem scene_subset (s : Ui) (t : Targets) (l : List (ℕ × Option Obj)) :
    slot s.gameSceneHandle t.scene ⊆ l ++ s.held t :=
  List.subset_append_of_subset_right _ (List.subset_append_left _ _)

theorem root_subset (s : Ui) (t : Targets) (l : List (ℕ × Option Obj)) :
    slot s.rootHandle t.root ⊆ l ++ s.held t :=
  List.subset_append_of_subset_right _
    (List.Subset.trans (List.subset_append_left _ _) (held_perm_root s t).symm.subset)

theorem part_subset (s : Ui) (t : Targets) (p : Part) (l : List (ℕ × Option Obj)) :
    slot (s.partHandle p) (t.part p) ⊆ l ++ s.held t :=
  List.subset_append_of_subset_right _
    (List.Subset.trans (List.subset_append_left _ _) (held_perm_part s t p).symm.subset)

/-! ## Programs on the handles, and scopes -/

theorem Wp.onHandles {α β : Type} {x : StateM GcHandles α} {f : α → StateM Ui β}
    {P : α → GcHandles → Prop} {Q : β → Ui → Prop} (h : Wp x s.handles P)
    (hf : ∀ a t', P a t' → Wp (f a) { s with handles := t' } Q) :
    Wp (CommonFps.onHandles x >>= f) s Q := hf _ _ h

theorem Wp.onHandles_last {α : Type} {x : StateM GcHandles α} {Q : α → Ui → Prop}
    (h : Wp x s.handles fun a t' => Q a { s with handles := t' }) : Wp (CommonFps.onHandles x) s Q :=
  h

section Pinned

variable {α β : Type} {p : PinnedObject α} {content : α} {Q : β → Ui → Prop}

theorem Wp.isPinned {f : Bool → StateM Ui β} (h : s.Owned t l) (hown : p.own ⊆ l)
    (hp : p.Holds content) (hf : ∀ b, (b = true ↔ p.handle ≠ 0) → Wp (f b) s Q) :
    Wp (CommonFps.onHandles p.isPinned >>= f) s Q := by
  have hmem := List.subset_append_of_subset_left (s.held t) hown
  refine Wp.onHandles (PinnedObject.isPinned_spec h hmem hp) ?_
  rintro b _ ⟨hb, rfl⟩
  exact hf b hb

theorem Wp.value {f : Option α → StateM Ui β} (h : s.Owned t l) (hown : p.own ⊆ l)
    (hp : p.Holds content) (hf : Wp (f (if p.handle = 0 then none else some content)) s Q) :
    Wp (CommonFps.onHandles p.value >>= f) s Q := by
  have hmem := List.subset_append_of_subset_left (s.held t) hown
  refine Wp.onHandles (PinnedObject.value_spec h hmem hp) ?_
  rintro _ _ ⟨rfl, rfl⟩
  exact hf

theorem Wp.object {f : Option Obj → StateM Ui β} (h : s.Owned t l) (hown : p.own ⊆ l)
    (hf : Wp (f (if p.handle = 0 then none else p.boxed.map Prod.fst)) s Q) :
    Wp (CommonFps.onHandles p.object >>= f) s Q := by
  have hmem := List.subset_append_of_subset_left (s.held t) hown
  refine Wp.onHandles (PinnedObject.object_spec h hmem) ?_
  rintro _ _ ⟨rfl, rfl⟩
  exact hf

end Pinned

theorem Ui.Owned.release {α : Type} {p : PinnedObject α} (h : s.Owned t (p.own ++ l)) :
    Wp p.release s.handles fun _ hs => ({ s with handles := hs } : Ui).Owned t l := by
  refine PinnedObject.release_spec ?_
  rwa [← List.append_assoc]

/-- A scope: its body may use the pinned object, which is released afterwards. What it
    has done otherwise does not depend on the handles. -/
theorem Wp.withPinned {α β : Type} {acquire : StateM GcHandles (PinnedObject β)}
    {body : PinnedObject β → StateM Ui α} {P : PinnedObject β → Prop}
    {R : α → Ui → Targets → Prop}
    (ha : Wp acquire s.handles fun p hs => hs.Owns (p.own ++ (l ++ s.held t)) ∧ P p)
    (hbody : ∀ p hs, P p → ({ s with handles := hs } : Ui).Owned t (p.own ++ l) →
      Wp (body p) { s with handles := hs } fun r s' => ∃ t', s'.Owned t' (p.own ++ l) ∧ R r s' t')
    (hR : ∀ r s' t' hs, R r s' t' → R r { s' with handles := hs } t') :
    Wp (CommonFps.withPinned acquire body) s fun r s' => ∃ t', s'.Owned t' l ∧ R r s' t' := by
  refine Wp.onHandles ha ?_
  rintro p hs ⟨hp, hP⟩
  rw [← List.append_assoc] at hp
  refine (hbody p hs hP hp).seq ?_
  rintro r s' ⟨t', hs', hr⟩
  refine Wp.onHandles hs'.release ?_
  intro _ hs'' hh
  exact .pure ⟨t', hh, hR r s' t' hs'' hr⟩

/-- A scope after which the variables hold what they held. -/
theorem Wp.withPinned_same {α β : Type} {acquire : StateM GcHandles (PinnedObject β)}
    {body : PinnedObject β → StateM Ui α} {P : PinnedObject β → Prop} {R : α → Ui → Prop}
    (ha : Wp acquire s.handles fun p hs => hs.Owns (p.own ++ (l ++ s.held t)) ∧ P p)
    (hbody : ∀ p hs, P p → ({ s with handles := hs } : Ui).Owned t (p.own ++ l) →
      Wp (body p) { s with handles := hs } fun r s' => s'.Owned t (p.own ++ l) ∧ R r s')
    (hR : ∀ r s' hs, R r s' → R r { s' with handles := hs }) :
    Wp (CommonFps.withPinned acquire body) s fun r s' => s'.Owned t l ∧ R r s' := by
  refine Wp.conseq (Wp.withPinned (R := fun r s' t' => t' = t ∧ R r s') ha ?_ ?_) ?_
  · intro p hs hp h
    exact (hbody p hs hp h).conseq fun r s' hr => ⟨t, hr.1, rfl, hr.2⟩
  · rintro r s' t' hs ⟨ht, hr⟩
    exact ⟨ht, hR r s' hs hr⟩
  · rintro r s' ⟨t, h, rfl, hr⟩
    exact ⟨h, hr⟩

/-! ## The handles of the widgets -/

theorem Part.other_ne (p : Part) : p.other ≠ p := by
  cases p <;> decide

/-- The handle in the variable of a widget is another one. -/
theorem Ui.Owned.set_part {hs : GcHandles} {p : Part} (handle : ℕ) (o : Option Obj)
    (h : hs.Owns (slot handle o ++ (l ++ s.others t p))) :
    ({ s with handles := hs, partHandle := Function.update s.partHandle p handle } : Ui).Owned
      { t with part := Function.update t.part p o } l := by
  refine Ui.Owned.of_part (p := p) ?_
  simp only [Ui.others, Function.update_self, Function.update_of_ne p.other_ne]
  exact h

theorem releasePart_spec (h : s.Owned t l) (p : Part) :
    Wp (releasePart p) s fun _ s' => s'.Owned t l ∧
      s' = { s with handles := s'.handles, partHandle := Function.update s.partHandle p 0 } := by
  refine Wp.bind (.get (Wp.onHandles (releaseManagedHandle_spec (h.part p)) ?_))
  intro _ hs hhs
  have h' := Ui.Owned.set_part 0 (t.part p) hhs
  rw [Function.update_eq_self] at h'
  exact .modify ⟨h', rfl⟩

/-- The handle of a widget is replaced, or left as it is. -/
theorem replacePart_spec (h : s.Owned t l) (p : Part) (object : Option Obj) (answer : HandleAnswer) :
    Wp (replacePart p object answer) s fun ok s' => ∃ t', s'.Owned t' l ∧
      (∀ q ≠ p, t'.part q = t.part q) ∧
      s' = { s with
        handles := s'.handles, partHandle := Function.update s.partHandle p (s'.partHandle p) } ∧
      ((ok = true ∧ s'.partHandle p ≠ 0 ∧ object.isSome ∧ t'.part p = object) ∨
        (ok = false ∧ s'.partHandle p = s.partHandle p ∧ t'.part p = t.part p)) := by
  have hset (handle : ℕ) : Function.update s.partHandle p handle =
      Function.update s.partHandle p (Function.update s.partHandle p handle p) := by
    rw [Function.update_self]
  refine Wp.bind (.get (Wp.onHandles (replaceManagedHandle_spec (h.part p) object answer) ?_))
  rintro ⟨ok, handle⟩ hs (⟨hok, hobject, hne, hhs⟩ | ⟨hok, hsame, hhs, -⟩)
  · refine Wp.bind (.modify
      (.pure ⟨_, Ui.Owned.set_part _ _ hhs, ?_, ?_, .inl ⟨hok, ?_, hobject, ?_⟩⟩))
    · exact fun q hq => Function.update_of_ne hq _ _
    · exact congrArg (fun f => { s with handles := hs, partHandle := f }) (hset handle)
    · exact (Function.update_self _ _ _).trans_ne hne
    · exact Function.update_self _ _ _
  · obtain rfl : handle = s.partHandle p := hsame
    refine Wp.bind (.modify (.pure ⟨_, Ui.Owned.set_part _ _ hhs, ?_, ?_, .inr ⟨hok, ?_, ?_⟩⟩))
    · exact fun q hq => Function.update_of_ne hq _ _
    · exact congrArg (fun f => { s with handles := hs, partHandle := f }) (hset _)
    · exact Function.update_self _ _ _
    · exact Function.update_self _ _ _

/-! ## Scene and root -/

/-- The variables after the scene was replaced, or its root. -/
def Ui.dropped (s : Ui) (hs : GcHandles) (scene root : ℕ) : Ui :=
  { s with
    handles := hs, gameSceneHandle := scene, rootHandle := root, partHandle := fun _ => 0,
    styleApplied := false }

theorem update_parts (f : Part → ℕ) :
    Function.update (Function.update f .label 0) .value 0 = fun _ => 0 := by
  funext p
  cases p <;> rfl

/-- The handles of the widgets are released, and then the program goes on. -/
theorem releaseParts_spec (h : s.Owned t l) {α : Type} {f : StateM Ui α} {Q : α → Ui → Prop}
    (hf : ∀ hs, ({ s with handles := hs, partHandle := fun _ => 0 } : Ui).Owned t l →
      Wp f { s with handles := hs, partHandle := fun _ => 0 } Q) :
    Wp (do releasePart .label; releasePart .value; f) s Q := by
  refine (releasePart_spec h .label).seq ?_
  rintro _ s₁ ⟨h₁, hs₁⟩
  refine (releasePart_spec h₁ .value).seq ?_
  rintro _ s₂ ⟨h₂, hs₂⟩
  rw [hs₁] at hs₂
  simp only [update_parts] at hs₂
  rw [hs₂] at h₂ ⊢
  exact hf s₂.handles h₂

/-- What refreshing the scene may do. -/
inductive SceneRefreshed (s : Ui) (t : Targets) (scene : Option ℕ) : Bool → Ui → Targets → Prop
  | kept {ok : Bool} (hs : GcHandles)
      (h : ok = true → s.gameSceneHandle ≠ 0 ∧ t.scene = scene.map .found) :
      SceneRefreshed s t scene ok { s with handles := hs } t
  | dropped {ok : Bool} {t' : Targets} (hs : GcHandles) (handle n : ℕ) (hn : scene = some n)
      (h : s.gameSceneHandle = 0 ∨ t.scene ≠ some (.found n)) :
      SceneRefreshed s t scene ok (s.dropped hs handle 0) t'

theorem refreshGameScene_spec (h : s.Owned t l) (answers : SceneAnswers) :
    Wp (refreshGameScene answers) s fun ok s' =>
      ∃ t', s'.Owned t' l ∧ SceneRefreshed s t answers.scene ok s' t' := by
  rw [refreshGameScene]
  split_ifs with hready
  · refine Wp.withPinned (newString_spec h _ _) ?_ ?_
    · rintro path hs ⟨hpath, -⟩ h₁
      refine Wp.isPinned h₁ (List.subset_append_left _ _) hpath fun pinned _ => ?_
      split_ifs
      · cases answers.scene with
        | none => exact .pure ⟨t, h₁, .kept hs nofun⟩
        | some scene =>
          refine Wp.bind (.get ?_)
          refine Wp.onHandles (managedTarget_spec h₁ (scene_subset s t _)) ?_
          rintro held hs ⟨hheld, rfl⟩
          -- The scene is either the one that is held, or another one, whose handles are released.
          split_ifs with hsame
          · rw [hsame] at hheld
            split_ifs at hheld with hzero
            exact .pure ⟨t, h₁, .kept hs fun _ => ⟨hzero, hheld.symm⟩⟩
          · refine releaseParts_spec h₁ ?_
            intro hs₁ h₂
            have hroot : hs₁.Owns (slot s.rootHandle t.root ++ _) :=
              h₂.perm (((held_perm_root _ t).append_left _).trans (List.perm_append_comm_assoc _ _ _))
            refine Wp.onHandles (releaseManagedHandle_spec hroot) ?_
            intro _ hs₂ h₃
            refine Wp.bind (.modify ?_)
            have hscene' : hs₂.Owns (slot s.gameSceneHandle t.scene ++ _) :=
              h₃.perm (List.perm_append_comm_assoc _ _ _)
            -- A held scene is not this one, or it would have been kept.
            have hheld : s.gameSceneHandle = 0 ∨ t.scene ≠ some (.found scene) := by
              by_contra hboth
              rw [not_or, not_not] at hboth
              rw [if_neg hboth.1] at hheld
              exact hsame (hheld.trans hboth.2)
            refine Wp.onHandles (replaceManagedHandle_spec hscene' _ answers.pin) ?_
            rintro ⟨ok, handle⟩ hs₃ (⟨-, -, -, h₄⟩ | ⟨-, heq, h₄, -⟩)
            · refine Wp.bind (.modify (.pure ⟨{ t with scene := some (.found scene) }, ?_, ?_⟩))
              · exact h₄.perm (List.perm_append_comm_assoc _ _ _)
              · exact .dropped hs₃ handle scene rfl hheld
            · obtain rfl : handle = s.gameSceneHandle := heq
              refine Wp.bind (.modify (.pure ⟨t, ?_, ?_⟩))
              · exact h₄.perm (List.perm_append_comm_assoc _ _ _)
              · exact .dropped hs₃ _ scene rfl hheld
      · exact .pure ⟨t, h₁, .kept hs nofun⟩
    · rintro ok s' t' hs (⟨-, hok⟩ | ⟨-, handle, n, hn, hheld⟩)
      · exact .kept hs hok
      · exact .dropped hs handle n hn hheld
  · exact .pure ⟨t, h, .kept s.handles nofun⟩

/-- There is a scene of the game to be found. -/
def SceneAnswers.Found (answers : SceneAnswers) : Prop :=
  answers.ready = true ∧ answers.scene ≠ none

theorem refreshGameScene_of_not_found {answers : SceneAnswers} (h : ¬answers.Found) (s : Ui) :
    (refreshGameScene answers s).1 = false := by
  rw [SceneAnswers.Found, not_and_or, not_not] at h
  unfold refreshGameScene
  rcases h with hready | hscene
  · rw [if_pos hready]
    rfl
  · rw [hscene]
    split_ifs
    · simp only [ite_self]
      rfl
    · rfl

theorem refreshGameScene_found (s : Ui) (answers : SceneAnswers) :
    Wp (refreshGameScene answers) s fun ok _ => ok = true → answers.Found := by
  intro hok
  by_contra hmissing
  rw [refreshGameScene_of_not_found hmissing s] at hok
  exact Bool.false_ne_true hok

/-- The root widget is that of the scene that is held. -/
theorem getRootWidget_spec (h : s.Owned t l) (answer : Option ℕ) :
    Wp (getRootWidget answer) s fun root s' => s' = s ∧
      ∀ o, root = some o → s.gameSceneHandle ≠ 0 ∧ answer.map .found = some o := by
  refine Wp.bind (.get ?_)
  refine Wp.onHandles (managedTarget_spec h (scene_subset s t l)) ?_
  rintro scene hs ⟨hscene, rfl⟩
  split_ifs with hnone
  · exact .pure ⟨rfl, nofun⟩
  · refine .pure ⟨rfl, fun o ho => ⟨fun hzero => hnone ?_, ho⟩⟩
    rw [hscene, if_pos hzero]
    rfl

/-- What refreshing the root may do. -/
inductive RootRefreshed (s : Ui) (t : Targets) (root : Obj) : Bool → Ui → Targets → Prop
  | kept {ok : Bool} (hs : GcHandles) (h : ok = true → s.rootHandle ≠ 0 ∧ t.root = some root) :
      RootRefreshed s t root ok { s with handles := hs } t
  | dropped {t' : Targets} (hs : GcHandles) (handle : ℕ)
      (h : s.rootHandle = 0 ∨ t.root ≠ some root) :
      RootRefreshed s t root true (s.dropped hs s.gameSceneHandle handle) t'

theorem refreshRoot_spec (h : s.Owned t l) (root : Obj) (answer : HandleAnswer) :
    Wp (refreshRoot root answer) s fun ok s' =>
      ∃ t', s'.Owned t' l ∧ RootRefreshed s t root ok s' t' := by
  refine Wp.bind (.get ?_)
  refine Wp.onHandles (managedTarget_spec h (root_subset s t l)) ?_
  rintro held hs ⟨hheld, rfl⟩
  split_ifs with hsame
  · rw [hsame] at hheld
    split_ifs at hheld with hzero
    exact .pure ⟨t, h, .kept s.handles fun _ => ⟨hzero, hheld.symm⟩⟩
  · have hother : s.rootHandle = 0 ∨ t.root ≠ some root := by
      by_contra hboth
      rw [not_or, not_not] at hboth
      rw [if_neg hboth.1] at hheld
      exact hsame (hheld.trans hboth.2)
    have hfront : s.handles.Owns (slot s.rootHandle t.root ++ _) :=
      h.perm (((held_perm_root s t).append_left l).trans (List.perm_append_comm_assoc _ _ _))
    refine Wp.onHandles (replaceManagedHandle_spec hfront _ answer) ?_
    rintro ⟨ok, handle⟩ hs₁ (⟨hok, -, -, h₁⟩ | ⟨hok, heq, h₁, -⟩)
    · -- The parts are dropped with the root that they were in.
      obtain rfl : ok = true := hok
      refine Wp.bind (.modify ?_)
      have h₂ : ({ s with handles := hs₁, rootHandle := handle } : Ui).Owned
          { t with root := some root } l :=
        h₁.perm ((List.perm_append_comm_assoc _ _ _).trans
          ((List.perm_append_comm_assoc _ _ _).append_left l))
      exact releaseParts_spec h₂ fun hs₂ h₃ =>
        .bind (.modify (.pure ⟨_, h₃, .dropped hs₂ handle hother⟩))
    · obtain rfl : handle = s.rootHandle := heq
      obtain rfl : ok = false := hok
      have h₂ : ({ s with handles := hs₁ } : Ui).Owned t l :=
        h₁.perm ((List.perm_append_comm_assoc _ _ _).trans
          ((List.perm_append_comm_assoc _ _ _).append_left l))
      exact .bind (.modify (.pure ⟨t, h₂, .kept hs₁ nofun⟩))

/-! ## Setting properties -/

section SetTo

variable {α β : Type}

/-- What setting a property of an object may do: the widget is changed as by `f`, if
    it succeeds, and nothing else is. What `φ` sees of a widget stays. -/
structure Ui.SetTo (s : Ui) (t : Targets) (l : List (ℕ × Option Obj)) (φ : Widget → β)
    (object : Option Obj) (f : Widget → Widget) (ok : Bool) (s' : Ui) : Prop where
  owned : s'.Owned t l
  same : s' = { s with handles := s'.handles, widget := s'.widget }
  others : ∀ n, object ≠ some (.widget n) → s'.widget n = s.widget n
  kept : ∀ n, φ (s'.widget n) = φ (s.widget n)
  set : ok = true → ∀ n, object = some (.widget n) → s'.widget n = f (s.widget n)

variable {φ : Widget → β} {object : Option Obj} {f g : Widget → Widget} {ok : Bool}

theorem Ui.SetTo.fail (h : s.Owned t l) : s.SetTo t l φ object f false s :=
  ⟨h, rfl, fun _ _ => rfl, fun _ => rfl, nofun⟩

theorem Ui.SetTo.skip (h : s.Owned t l) : s.SetTo t l φ object id true s :=
  ⟨h, rfl, fun _ _ => rfl, fun _ => rfl, fun _ _ _ => rfl⟩

/-- A setter after others. -/
theorem Ui.SetTo.seq {s₁ : Ui} {x : StateM Ui Bool} {k : Bool → StateM Ui α} {Q : α → Ui → Prop}
    (h : s.SetTo t l φ object f ok s₁) (hx : Wp x s₁ (s₁.SetTo t l φ object g))
    (hk : ∀ ok' s', s.SetTo t l φ object (g ∘ f) (ok && ok') s' → Wp (k ok') s' Q) :
    Wp (x >>= k) s₁ Q := by
  refine Wp.seq hx fun ok' s' h' => hk ok' s' ⟨h'.owned, ?_, ?_, ?_, ?_⟩
  · rw [h'.same, h.same]
  · exact fun n hn => (h'.others n hn).trans (h.others n hn)
  · exact fun n => (h'.kept n).trans (h.kept n)
  · intro hok n hn
    obtain ⟨hok₁, hok₂⟩ := Bool.and_eq_true_iff.1 hok
    rw [h'.set hok₂ n hn, h.set hok₁ n hn]
    rfl

theorem editWidget_spec (h : s.Owned t l) (hg : ∀ w, φ (g w) = φ w) (hok : ok = true → g = f) :
    Wp (editWidget object g) s fun _ s' => s.SetTo t l φ object f ok s' := by
  have hstay (hne : ∀ n, object ≠ some (.widget n)) : s.SetTo t l φ object f ok s :=
    ⟨h, rfl, fun _ _ => rfl, fun _ => rfl, fun _ n hn => absurd hn (hne n)⟩
  rcases object with _ | (_ | _ | w)
  · exact hstay nofun
  · exact hstay nofun
  · exact hstay nofun
  · have hself : Function.update s.widget w (g (s.widget w)) w = g (s.widget w) :=
      Function.update_self _ _ _
    have hother (n : ℕ) (hn : n ≠ w) :
        Function.update s.widget w (g (s.widget w)) n = s.widget n := Function.update_of_ne hn _ _
    refine .modify ⟨h, rfl, fun n hn => hother n ?_, fun n => ?_, ?_⟩
    · exact fun heq => hn (congrArg (some ∘ Obj.widget) heq.symm)
    · rcases eq_or_ne n w with rfl | hn
      · exact (congrArg φ hself).trans (hg _)
      · exact congrArg φ (hother n hn)
    · rintro htrue _ ⟨⟩
      exact hself.trans (congrFun (hok htrue) _)

theorem setPropertyDirect_spec (put : α → Widget → Widget) (h : s.Owned t l)
    (hput : ∀ v w, φ (put v w) = φ w) (value : α) (found : Bool) :
    Wp (setPropertyDirect put object value found) s (s.SetTo t l φ object (put value)) := by
  rw [setPropertyDirect]
  split_ifs
  · exact (editWidget_spec h (hput value) fun _ => rfl).seq fun _ _ h' => .pure h'
  · exact .pure (.fail h)

theorem setPropertyObject_spec (put : α → Widget → Widget) (h : s.Owned t l)
    (hput : ∀ v w, φ (put v w) = φ w) {value : Option α} {content : α}
    (hvalue : ∀ v, value = some v → v = content) (answer : PutAnswer α) :
    Wp (setPropertyObject put object value answer) s (s.SetTo t l φ object (put content)) := by
  rcases answer with _ | (_ | left)
  · cases value with
    | none => exact .pure (.fail h)
    | some v =>
      obtain rfl := hvalue v rfl
      exact (editWidget_spec h (hput v) fun _ => rfl).seq fun _ _ h' => .pure h'
  · exact .pure (.fail h)
  · have hfailed : Wp (editWidget object (put left)) s fun _ s' =>
        s.SetTo t l φ object (put content) false s' := editWidget_spec h (hput left) nofun
    exact hfailed.seq fun _ _ h' => .pure h'

/-- The value of a pinned object is its content. -/
theorem content_of_value {handle : ℕ} {content v : α}
    (hv : (if handle = 0 then none else some content) = some v) : v = content := by
  split_ifs at hv
  exact (Option.some.inj hv).symm

theorem setFont_spec (h : s.Owned t l) (hput : ∀ v w, φ (putFont v w) = φ w) {size : ℤ}
    {font : PinnedObject ℤ} (hown : font.own ⊆ l) (hfont : font.Holds size) (answer : PutAnswer ℤ) :
    Wp (setFont object font answer) s (s.SetTo t l φ object (putFont size)) :=
  Wp.value h hown hfont (setPropertyObject_spec putFont h hput (fun _ => content_of_value) answer)

/-- A scope in which a property is set. -/
theorem Wp.withPinned_setTo {acquire : StateM GcHandles (PinnedObject α)}
    {body : PinnedObject α → StateM Ui Bool} {P : PinnedObject α → Prop}
    (ha : Wp acquire s.handles fun p hs => hs.Owns (p.own ++ (l ++ s.held t)) ∧ P p)
    (hbody : ∀ p s', P p → s'.Owned t (p.own ++ l) →
      Wp (body p) s' (s'.SetTo t (p.own ++ l) φ object f)) :
    Wp (CommonFps.withPinned acquire body) s (s.SetTo t l φ object f) := by
  refine Wp.conseq (Wp.withPinned_same (R := fun ok s' =>
    s' = { s with handles := s'.handles, widget := s'.widget } ∧
      (∀ n, object ≠ some (.widget n) → s'.widget n = s.widget n) ∧
      (∀ n, φ (s'.widget n) = φ (s.widget n)) ∧
      (ok = true → ∀ n, object = some (.widget n) → s'.widget n = f (s.widget n))) ha ?_ ?_) ?_
  · intro p hs hp h
    exact (hbody p _ hp h).conseq fun ok s' h' => ⟨h'.owned, h'.same, h'.others, h'.kept, h'.set⟩
  · rintro ok s' hs ⟨hsame, hrest⟩
    refine ⟨?_, hrest⟩
    rw [hsame]
  · rintro ok s' ⟨howned, hsame, hothers, hkept, hset⟩
    exact ⟨howned, hsame, hothers, hkept, hset⟩

theorem setLabelText_spec (h : s.Owned t l) (hput : ∀ v w, φ (putText v w) = φ w) (text : Bytes)
    (answers : TextAnswers) :
    Wp (setLabelText object text answers) s (s.SetTo t l φ object (putText text)) := by
  rw [setLabelText]
  split_ifs
  · exact .pure (.fail h)
  · refine Wp.withPinned_setTo (newString_spec h text _) ?_
    rintro p s' ⟨hp, -⟩ h'
    refine Wp.isPinned h' (List.subset_append_left _ _) hp fun b hb => ?_
    split_ifs with hpinned
    · refine Wp.value h' (List.subset_append_left _ _) hp ?_
      rw [if_neg (hb.1 hpinned)]
      exact setPropertyDirect_spec putText h' hput text _
    · exact .pure (.fail h')

theorem applyRgb_spec (h : s.Owned t l) (hput : ∀ v w, φ (putTextColor v w) = φ w) (rgb : UInt32)
    (answers : RgbAnswers) :
    Wp (applyRgb object rgb answers) s (s.SetTo t l φ object (putTextColor (rgbColor rgb))) := by
  refine Wp.withPinned_setTo (createBox_spec h (rgbColor rgb) _) ?_
  intro p s' hp h'
  refine Wp.isPinned h' (List.subset_append_left _ _) hp fun b _ => ?_
  split_ifs
  · refine Wp.value h' (List.subset_append_left _ _) hp ?_
    exact setPropertyObject_spec putTextColor h' hput (fun _ => content_of_value) _
  · exact .pure (.fail h')

theorem ifChanged_spec {x : StateM Ui Bool} (h : s.Owned t l)
    (hx : Wp x s (s.SetTo t l φ object f)) (changed : Bool) :
    Wp (ifChanged changed x) s (s.SetTo t l φ object (if changed then f else id)) := by
  cases changed with
  | false => exact .pure (.skip h)
  | true => exact hx

end SetTo

/-! ## Making and finding widgets -/

/-- A widget with the properties of a label. -/
def Widget.labelled (w : Widget) (name : Bytes) (x y : ℚ) (text : Bytes) (size : ℤ)
    (horizontalAlignment : ℤ) (color : Color) : Widget :=
  { w with
    name, x, y, text, font := size, horizontalAlignment, verticalAlignment := 0,
    textColor := color, fitWidthToText := true, fitHeightToText := true }

section Make

variable {name text : Bytes} {x y : ℚ} {size horizontalAlignment : ℤ} {color : Color}

theorem setLabelProperties_spec (h : s.Owned t l) {nameString textString : PinnedObject Bytes}
    {font : PinnedObject ℤ} {boxed : PinnedObject Color} (hname : nameString.own ⊆ l)
    (hname' : nameString.Holds name) (hname₀ : nameString.handle ≠ 0) (htext : textString.own ⊆ l)
    (htext' : textString.Holds text) (htext₀ : textString.handle ≠ 0) (hfont : font.own ⊆ l)
    (hfont' : font.Holds size) (hcolor : boxed.own ⊆ l) (hcolor' : boxed.Holds color)
    (object : Option Obj) (answers : LabelAnswers) :
    Wp (setLabelProperties object x y nameString textString font horizontalAlignment boxed answers) s
      (s.SetTo t l (fun _ => ()) object fun w =>
        w.labelled name x y text size horizontalAlignment color) := by
  have direct {α : Type} (put : α → Widget → Widget) {s : Ui} (h : s.Owned t l) (v : α)
      (found : Bool) : Wp (setPropertyDirect put object v found) s
        (s.SetTo t l (fun _ => ()) object (put v)) :=
    setPropertyDirect_spec put h (fun _ _ => rfl) v found
  refine Wp.value h hname hname' ?_
  rw [if_neg hname₀]
  refine (direct putName h name _).seq fun ok₁ s₁ h₁ => ?_
  refine h₁.seq (direct putX h₁.owned x _) fun ok₂ s₂ h₂ => ?_
  refine h₂.seq (direct putY h₂.owned y _) fun ok₃ s₃ h₃ => ?_
  refine Wp.value h₃.owned htext htext' ?_
  rw [if_neg htext₀]
  refine h₃.seq (direct putText h₃.owned text _) fun ok₄ s₄ h₄ => ?_
  refine h₄.seq (setFont_spec h₄.owned (fun _ _ => rfl) hfont hfont' answers.font) fun ok₅ s₅ h₅ => ?_
  refine h₅.seq (direct putHorizontalAlignment h₅.owned _ _) fun ok₆ s₆ h₆ => ?_
  refine h₆.seq (direct putVerticalAlignment h₆.owned 0 _) fun ok₇ s₇ h₇ => ?_
  refine Wp.value h₇.owned hcolor hcolor' ?_
  refine h₇.seq (setPropertyObject_spec putTextColor h₇.owned (fun _ _ => rfl)
    (fun _ => content_of_value) _) fun ok₈ s₈ h₈ => ?_
  refine h₈.seq (direct putFitWidthToText h₈.owned true _) fun ok₉ s₉ h₉ => ?_
  refine h₉.seq (direct putFitHeightToText h₉.owned true _) fun ok₁₀ s₁₀ h₁₀ => ?_
  exact .pure h₁₀

/-- A new widget is none of those that were made before. -/
structure Ui.Allocated (s : Ui) (t : Targets) (l : List (ℕ × Option Obj)) (object : Option Obj)
    (s' : Ui) : Prop where
  owned : s'.Owned t l
  same : s' = { s with made := s'.made, widget := s'.widget }
  made : s.made ≤ s'.made
  others : ∀ n < s.made, s'.widget n = s.widget n
  new : ∀ o, object = some o → o = .widget s.made ∧ s'.made = s.made + 1 ∧ s'.widget s.made = {}

theorem newWidget_spec (h : s.Owned t l) (allocated : Bool) :
    Wp (newWidget allocated) s (s.Allocated t l) := by
  rw [newWidget]
  split_ifs
  · refine ⟨h, rfl, Nat.le_succ _, fun n hn => ?_, ?_⟩
    · exact Function.update_of_ne hn.ne _ _
    · rintro _ ⟨⟩
      exact ⟨rfl, rfl, Function.update_self _ _ _⟩
  · exact .pure ⟨h, rfl, le_rfl, fun _ _ => rfl, nofun⟩

/-- What making a label may do: there may be a new widget, and if there is a label, it
    is that one. -/
structure Ui.Created (s : Ui) (t : Targets) (l : List (ℕ × Option Obj)) (w : Widget)
    (label : PinnedObject Unit) (s' : Ui) : Prop where
  owned : s'.Owned t (label.own ++ l)
  same : s' = { s with handles := s'.handles, made := s'.made, widget := s'.widget }
  made : s.made ≤ s'.made
  others : ∀ n < s.made, s'.widget n = s.widget n
  new : label.handle ≠ 0 → label.boxed = some (.widget s.made, ()) ∧ s'.made = s.made + 1 ∧
    s'.widget s.made = w

variable {label : PinnedObject Unit} {font : PinnedObject ℤ}

/-- The scope in which the properties of a label are set. -/
theorem setLabelScope_spec (h : s.Owned t (label.own ++ l)) {object : Obj}
    (hlabel : label.handle ≠ 0) (hboxed : label.boxed = some (object, ())) (hfont : font.own ⊆ l)
    (hfont' : font.Holds size) (answers : LabelAnswers) :
    Wp (withPinned (newString name answers.nameString) fun monoName =>
      withPinned (newString text answers.textString) fun monoText =>
        withPinned (createBox color answers.color) fun boxed => do
          let namePinned ← onHandles monoName.isPinned
          let textPinned ← onHandles monoText.isPinned
          let colorPinned ← onHandles boxed.isPinned
          let fontPinned ← onHandles font.isPinned
          if ¬(namePinned && textPinned && colorPinned && fontPinned) then return false
          let object ← onHandles label.object
          setLabelProperties object x y monoName monoText font horizontalAlignment boxed answers) s
      (s.SetTo t (label.own ++ l) (fun _ => ()) (some object) fun w =>
        w.labelled name x y text size horizontalAlignment color) := by
  refine Wp.withPinned_setTo (newString_spec h name answers.nameString) ?_
  rintro nameString s₁ ⟨hname, -⟩ h₁
  refine Wp.withPinned_setTo (newString_spec h₁ text answers.textString) ?_
  rintro textString s₂ ⟨htext, -⟩ h₂
  refine Wp.withPinned_setTo (createBox_spec h₂ color answers.color) ?_
  intro boxed s₃ hcolor h₃
  -- the handles are nested in the order in which they were made
  have hboxed' : boxed.own ⊆ boxed.own ++ (textString.own ++ (nameString.own ++
    (label.own ++ l))) := List.subset_append_left _ _
  have htext' : textString.own ⊆ boxed.own ++ (textString.own ++ (nameString.own ++
    (label.own ++ l))) := List.subset_append_of_subset_right _ (List.subset_append_left _ _)
  have hname' : nameString.own ⊆ boxed.own ++ (textString.own ++ (nameString.own ++
    (label.own ++ l))) := List.subset_append_of_subset_right _
      (List.subset_append_of_subset_right _ (List.subset_append_left _ _))
  have hrest : label.own ++ l ⊆ boxed.own ++ (textString.own ++ (nameString.own ++
    (label.own ++ l))) := List.subset_append_of_subset_right _
      (List.subset_append_of_subset_right _ (List.subset_append_right _ _))
  have hlabel' := List.Subset.trans (List.subset_append_left label.own l) hrest
  have hfont₃ := List.Subset.trans (List.subset_append_of_subset_right label.own hfont) hrest
  refine Wp.isPinned h₃ hname' hname fun namePinned hn => ?_
  refine Wp.isPinned h₃ htext' htext fun textPinned ht => ?_
  refine Wp.isPinned h₃ hboxed' hcolor fun colorPinned _ => ?_
  refine Wp.isPinned h₃ hfont₃ hfont' fun fontPinned _ => ?_
  split_ifs with hall
  · refine Wp.object h₃ hlabel' ?_
    rw [if_neg hlabel, hboxed]
    simp only [Bool.and_eq_true] at hall
    exact setLabelProperties_spec h₃ hname' hname (hn.1 hall.1.1.1) htext' htext (ht.1 hall.1.1.2)
      hfont₃ hfont' hboxed' hcolor _ answers
  · exact .pure (.fail h₃)

/-- A label that is given up leaves a widget behind at most. -/
theorem release_created {s₁ s₂ : Ui} (h : s₂.Owned t (label.own ++ l))
    (hsame : s₂ = { s with handles := s₂.handles, made := s₁.made, widget := s₂.widget })
    (hmade : s.made ≤ s₁.made) (hothers : ∀ n < s.made, s₂.widget n = s.widget n) (w : Widget) :
    Wp (do onHandles label.release; return {}) s₂ (s.Created t l w) := by
  refine Wp.onHandles h.release fun _ hs hfreed => .pure ⟨hfreed, ?_, ?_, hothers, ?_⟩
  · rw [hsame]
  · rw [hsame]
    exact hmade
  · exact fun hne => absurd rfl hne

theorem createLabel_spec (h : s.Owned t l) (hfont : font.own ⊆ l) (hfont' : font.Holds size)
    (answers : LabelAnswers) :
    Wp (createLabel name x y text font horizontalAlignment color answers) s
      (s.Created t l (({} : Widget).labelled name x y text size horizontalAlignment color)) := by
  rw [createLabel]
  split_ifs
  · refine (newWidget_spec h answers.object).seq fun object s₁ h₁ => ?_
    refine Wp.onHandles (PinnedObject.pin_spec h₁.owned object () answers.pin) ?_
    rintro label hs ⟨hown, hpinned, -⟩
    rw [← List.append_assoc] at hown
    have h₂ : ({ s₁ with handles := hs } : Ui).Owned t (label.own ++ l) := hown
    have hsame : ({ s₁ with handles := hs } : Ui) =
        { s with handles := hs, made := s₁.made, widget := s₁.widget } :=
      congrArg (fun x : Ui => { x with handles := hs }) h₁.same
    have hlabel : label.Holds () := fun hne => (hpinned hne).imp fun _ howner => howner.2
    refine Wp.isPinned h₂ (List.subset_append_left _ _) hlabel fun pinned hpin => ?_
    split_ifs with hp
    · obtain ⟨owner, hobject, hboxed⟩ := hpinned (hpin.1 hp)
      obtain ⟨rfl, hnext, hblank⟩ := h₁.new owner hobject
      -- The properties are set on the widget just made, and on no other one.
      refine (setLabelScope_spec h₂ (hpin.1 hp) hboxed hfont hfont' answers).seq fun ok s₃ h₃ => ?_
      have hsame₃ : s₃ = { s with handles := s₃.handles, made := s₁.made, widget := s₃.widget } :=
        h₃.same.trans (congrArg (fun x : Ui => { x with
          handles := s₃.handles, widget := s₃.widget }) hsame)
      have hothers (n : ℕ) (hn : n < s.made) : s₃.widget n = s.widget n := by
        refine (h₃.others n ?_).trans (h₁.others n hn)
        rintro ⟨⟩
        exact hn.false
      split_ifs with hok
      · have hmade : s₃.made = s₁.made := by rw [hsame₃]
        refine .pure ⟨h₃.owned, ?_, ?_, hothers, fun _ => ⟨hboxed, hmade.trans hnext, ?_⟩⟩
        · rw [hmade]
          exact hsame₃
        · exact hmade ▸ h₁.made
        · rw [h₃.set hok _ rfl]
          exact congrArg (fun w : Widget => w.labelled name x y text size _ color) hblank
      · exact release_created h₃.owned hsame₃ h₁.made hothers _
    · exact release_created h₂ hsame h₁.made h₁.others _
  · exact .pure ⟨h, rfl, le_rfl, fun _ _ => rfl, fun hne => absurd rfl hne⟩

end Make

/-! ## Finding and appending -/

/-- What looking a widget up finds: a child of the name. If it succeeds and finds none,
    there is none. -/
structure Ui.Finds (s : Ui) (root : Obj) (id : Bytes) (answers : FindAnswers) (o : Option Obj) :
    Prop where
  child : ∀ x, o = some x → ∃ w ∈ s.children root, x = .widget w ∧ (s.widget w).name = id
  absent : o = none → answers.thunk = true → answers.name.Succeeds →
    ∀ w ∈ s.children root, (s.widget w).name ≠ id

theorem findWidget_spec (h : s.Owned t l) (root : Obj) (id : Bytes) (answers : FindAnswers) :
    Wp (findWidget root id answers) s fun o s' => s'.Owned t l ∧
      s' = { s with handles := s'.handles } ∧ s.Finds root id answers o := by
  rw [findWidget]
  split_ifs with hthunk
  · refine Wp.withPinned_same (R := fun o s' => s' = { s with handles := s'.handles } ∧
      s.Finds root id answers o) (newString_spec h id _) ?_ ?_
    · rintro name hs ⟨hname, hsucceeds⟩ h₁
      refine Wp.value h₁ (List.subset_append_left _ _) hname ?_
      split_ifs with hzero
      · exact .pure ⟨h₁, rfl, nofun, fun _ _ hname => absurd hzero (hsucceeds hname)⟩
      · refine .bind (.get (.pure ⟨h₁, rfl, ?_, ?_⟩))
        · intro x hx
          obtain ⟨w, hw, rfl⟩ := Option.map_eq_some_iff.1 hx
          have hid := List.find?_some hw
          exact ⟨w, List.mem_of_find?_eq_some hw, rfl, of_decide_eq_true hid⟩
        · intro hnone _ _ w hw hid
          have hall := List.find?_eq_none.1 (Option.map_eq_none_iff.1 hnone) w hw
          exact hall (decide_eq_true hid)
    · rintro o s' hs ⟨hsame, hfinds⟩
      exact ⟨by rw [hsame], hfinds⟩
  · exact .pure ⟨h, rfl, nofun, fun _ hfound => absurd hfound hthunk⟩

theorem appendChild_spec (h : s.Owned t l) (root : Obj) (child : Option Obj) (done : Bool) :
    Wp (appendChild root child done) s fun ok s' => s'.Owned t l ∧
      ((ok = false ∧ s' = s) ∨ (ok = true ∧ done = true ∧ ∃ w, child = some (.widget w) ∧
        s' = { s with children := Function.update s.children root (s.children root ++ [w]) })) := by
  rcases child with _ | (_ | _ | w)
  · exact .pure ⟨h, .inl ⟨rfl, rfl⟩⟩
  · exact .pure ⟨h, .inl ⟨rfl, rfl⟩⟩
  · exact .pure ⟨h, .inl ⟨rfl, rfl⟩⟩
  · rw [appendChild]
    split_ifs with hdone
    · exact .bind (.modify (.pure ⟨h, .inr ⟨rfl, hdone, w, rfl, rfl⟩⟩))
    · exact .pure ⟨h, .inl ⟨rfl, rfl⟩⟩

end CommonFps
