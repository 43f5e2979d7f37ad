import CommonFps.Lib.Handles
import CommonFps.Lib.Bytes

/-!
# Pinned objects

What the renderer keeps of the managed runtime (`commonfps_shellui.cpp`): handles
that pin an object, in variables and in values that live for a scope. Every
operation may fail.

* `replaceManagedHandle`, `PinnedObject`: a handle in a variable, and in a value;
* `createBox`, `newString`: the objects that calls into the runtime take;
* `replaceManagedHandle_spec`, `createBox_spec`: which handles there are
  afterwards.
-/

namespace CommonFps

/-- An object of the runtime: one that it gives, an argument that was made for a
    call, or a widget that was made. -/
inductive Obj
  | found (n : ℕ)
  | argument (n : ℕ)
  | widget (n : ℕ)
  deriving DecidableEq

/-- The handles of the collector, each of an object that it pins. -/
abbrev GcHandles := Handles (Option Obj)

/-- What `mono_gchandle_new` answers: no handle, one of the object, or one of
    something else. The number is replaced if it is zero or in use. -/
inductive HandleAnswer
  | refused
  | pinned (proposed : ℕ)
  | elsewhere (proposed : ℕ) (target : Option Obj)

/-! ## Handles -/

/-- A handle for an object, unless it is refused. -/
def gchandleNew (object : Obj) : HandleAnswer → StateM GcHandles ℕ
  | .refused => fun t => (0, t)
  | .pinned proposed => fun t => (t.number proposed, t.new proposed (some object))
  | .elsewhere proposed target => fun t => (t.number proposed, t.new proposed target)

/-- The object of a handle. -/
def gchandleGetTarget (handle : ℕ) : StateM GcHandles (Option Obj) :=
  fun t => ((t.lookup handle).join, t.use handle)

/-- A handle is freed. -/
def gchandleFree (handle : ℕ) : StateM GcHandles Unit := fun t => ((), t.free handle)

/-- The object of a handle; the handle 0 has none. -/
def managedTarget (handle : ℕ) : StateM GcHandles (Option Obj) :=
  if handle ≠ 0 then gchandleGetTarget handle else return none

/-- The handle is released; the variable that held it is empty afterwards. -/
def releaseManagedHandle (handle : ℕ) : StateM GcHandles Unit :=
  if handle ≠ 0 then gchandleFree handle else return ()

/-- Whether the handle of a variable could be replaced, and the handle that the
    variable holds afterwards. -/
def replaceManagedHandle (handle : ℕ) (object : Option Obj) (answer : HandleAnswer) :
    StateM GcHandles (Bool × ℕ) := do
  match object with
  | none => return (false, handle)
  | some object =>
    let target ← managedTarget handle
    if handle ≠ 0 ∧ target = some object then return (true, handle)
    let next ← gchandleNew object answer
    let target ← managedTarget next
    if next = 0 ∨ target ≠ some object then
      releaseManagedHandle next
      return (false, handle)
    releaseManagedHandle handle
    return (true, next)

/-! ## Pinned objects -/

/-- A handle that lives for a scope, and what it was made to pin. The object moves,
    so that its contents are reached through the handle. -/
structure PinnedObject (α : Type) where
  handle : ℕ := 0
  boxed : Option (Obj × α) := none

namespace PinnedObject

variable {α : Type}

/-- An object with this content is pinned. -/
def pin (object : Option Obj) (content : α) (answer : HandleAnswer) :
    StateM GcHandles (PinnedObject α) := do
  match object with
  | none => return {}
  | some owner =>
    let (_, handle) ← replaceManagedHandle 0 (some owner) answer
    return { handle, boxed := some (owner, content) }

/-- The object that is pinned. -/
def object (p : PinnedObject α) : StateM GcHandles (Option Obj) := managedTarget p.handle

/-- The content of the object, if it is pinned. -/
def value (p : PinnedObject α) : StateM GcHandles (Option α) := do
  let owner ← p.object
  match owner with
  | none => return none
  | some _ => return p.boxed.map Prod.snd

/-- There is an object, and it is pinned. -/
def isPinned (p : PinnedObject α) : StateM GcHandles Bool := do
  let owner ← p.object
  return owner.isSome

/-- The object is let go. -/
def release (p : PinnedObject α) : StateM GcHandles Unit := releaseManagedHandle p.handle

end PinnedObject

/-! ## Arguments -/

/-- What the runtime answers when an argument is made: the class, the new object, its
    handle, and the constructor. -/
structure BoxAnswers where
  klass : Bool
  object : Option ℕ
  pin : HandleAnswer
  constructor : Bool

/-- A boxed value, `create_font` and `create_color`. -/
def createBox {α : Type} (content : α) (answers : BoxAnswers) : StateM GcHandles (PinnedObject α) := do
  if ¬answers.klass then return {}
  let boxed ← PinnedObject.pin (answers.object.map .argument) content answers.pin
  if ¬(← boxed.isPinned) then
    boxed.release
    return {}
  let real ← boxed.value
  if real.isNone ∨ ¬answers.constructor then
    boxed.release
    return {}
  return boxed

/-- What the runtime answers when a string is made: the new object and its handle. -/
structure StringAnswers where
  object : Option ℕ
  pin : HandleAnswer

/-- A string with this text, pinned. -/
def newString (text : Bytes) (answers : StringAnswers) : StateM GcHandles (PinnedObject Bytes) :=
  PinnedObject.pin (answers.object.map .argument) text answers.pin

/-! ## What is owned -/

open Handles

/-- The handle would pin the object. -/
def HandleAnswer.Pins (object : Obj) : HandleAnswer → Prop
  | refused => False
  | pinned _ => True
  | elsewhere _ target => target = some object

/-- The string is made and pinned. -/
def StringAnswers.Succeeds (answers : StringAnswers) : Prop :=
  ∃ n, answers.object = some n ∧ answers.pin.Pins (.argument n)

variable {t : GcHandles} {l : List (ℕ × Option Obj)} {handle : ℕ} {target : Option Obj}

theorem gchandleNew_spec (h : Owns t l) (object : Obj) (answer : HandleAnswer) :
    Wp (gchandleNew object answer) t fun handle t' =>
      ∃ target, Owns t' (slot handle target ++ l) ∧
        (answer.Pins object → handle ≠ 0 ∧ target = some object) := by
  have hnew (proposed : ℕ) (target : Option Obj) :
      Owns (t.new proposed target) (slot (t.number proposed) target ++ l) := by
    rw [slot_of_ne (number_ne_zero t proposed)]
    exact h.new proposed target
  cases answer with
  | refused => exact ⟨none, h, False.elim⟩
  | pinned proposed => exact ⟨some object, hnew proposed _, fun _ => ⟨number_ne_zero t _, rfl⟩⟩
  | elsewhere proposed target =>
    exact ⟨target, hnew proposed _, fun hpins => ⟨number_ne_zero t _, hpins⟩⟩

/-- A variable that is not empty leads to its target. -/
theorem managedTarget_spec (h : Owns t l) (hmem : slot handle target ⊆ l) :
    Wp (managedTarget handle) t fun o t' => o = (if handle = 0 then none else target) ∧ t' = t := by
  by_cases hzero : handle = 0
  · rw [managedTarget, if_neg (not_not.2 hzero), if_pos hzero]
    exact ⟨rfl, rfl⟩
  · rw [managedTarget, if_pos hzero, if_neg hzero]
    rw [slot_of_ne hzero] at hmem
    have hheld : (handle, target) ∈ l := hmem List.mem_cons_self
    refine ⟨?_, h.use hheld⟩
    exact congrArg Option.join (h.lookup hheld)

theorem releaseManagedHandle_spec (h : Owns t (slot handle target ++ l)) :
    Wp (releaseManagedHandle handle) t fun _ t' => Owns t' l := by
  by_cases hzero : handle = 0
  · rw [releaseManagedHandle, if_neg (not_not.2 hzero)]
    rw [hzero] at h
    exact h
  · rw [releaseManagedHandle, if_pos hzero]
    rw [slot_of_ne hzero] at h
    exact h.free

/-- A handle is replaced, or left as it is. -/
theorem replaceManagedHandle_spec (h : Owns t (slot handle target ++ l)) (object : Option Obj)
    (answer : HandleAnswer) :
    Wp (replaceManagedHandle handle object answer) t fun r t' =>
      (r.1 = true ∧ object.isSome ∧ r.2 ≠ 0 ∧ Owns t' (slot r.2 object ++ l)) ∨
        (r.1 = false ∧ r.2 = handle ∧ Owns t' (slot handle target ++ l) ∧
          ∀ o, object = some o → ¬answer.Pins o) := by
  rw [replaceManagedHandle.eq_def]
  cases object with
  | none => exact .pure (.inr ⟨rfl, rfl, h, nofun⟩)
  | some object =>
    refine (managedTarget_spec h (List.subset_append_left _ _)).seq ?_
    rintro held _ ⟨hheld, rfl⟩
    split_ifs with hsame
    · obtain ⟨hne, rfl⟩ := hsame
      rw [if_neg hne] at hheld
      exact .pure (.inl ⟨rfl, rfl, hne, hheld ▸ h⟩)
    · refine (gchandleNew_spec h object answer).seq ?_
      rintro next t₁ ⟨got, h₁, hpins⟩
      refine (managedTarget_spec h₁ (List.subset_append_left _ _)).seq ?_
      rintro led t₂ ⟨hled, rfl⟩
      split_ifs with hbad
      · refine (releaseManagedHandle_spec h₁).seq ?_
        intro _ t₃ h₃
        refine .pure (.inr ⟨rfl, rfl, h₃, ?_⟩)
        rintro _ ⟨⟩ hgood
        obtain ⟨hnext, rfl⟩ := hpins hgood
        rw [if_neg hnext] at hled
        exact hbad.elim hnext fun hne => hne hled
      · obtain ⟨hnext, hgot⟩ := not_or.1 hbad
        rw [if_neg hnext] at hled
        obtain rfl : got = some object := hled.symm.trans (not_not.1 hgot)
        have hswap : Owns t₂ (slot handle target ++ (slot next (some object) ++ l)) :=
          h₁.perm (List.perm_append_comm_assoc _ _ _)
        refine (releaseManagedHandle_spec hswap).seq ?_
        intro _ t₃ h₃
        exact .pure (.inl ⟨rfl, rfl, hnext, h₃⟩)

theorem managedTarget_live (t : GcHandles) (handle : ℕ) :
    Wp (managedTarget handle) t fun _ t' => t'.live = t.live := by
  rw [managedTarget]
  exact .ite (fun _ => rfl) fun _ => rfl

/-- A new handle that is given back leaves no trace. -/
theorem gchandleNew_live (t : GcHandles) (object : Obj) (answer : HandleAnswer) :
    Wp (gchandleNew object answer) t fun handle t' => ∀ t₁ : GcHandles, t₁.live = t'.live →
      Wp (releaseManagedHandle handle) t₁ fun _ t₂ => t₂.live = t.live := by
  have hnew (proposed : ℕ) (target : Option Obj) (t₁ : GcHandles)
      (hlive : t₁.live = (t.number proposed, target) :: t.live) :
      Wp (releaseManagedHandle (t.number proposed)) t₁ fun _ t₂ => t₂.live = t.live := by
    rw [releaseManagedHandle, if_pos (number_ne_zero t proposed)]
    have herase : t₁.live.eraseP (fun e => decide (e.1 = t.number proposed)) = t.live := by
      rw [hlive]
      exact List.eraseP_cons_of_pos (decide_eq_true rfl)
    exact herase
  cases answer with
  | refused => exact fun t₁ hlive => hlive
  | pinned proposed => exact hnew proposed _
  | elsewhere proposed target => exact hnew proposed target

/-- A handle that could not be replaced is as it was, in any table. -/
theorem replaceManagedHandle_kept (t : GcHandles) (handle : ℕ) (object : Option Obj)
    (answer : HandleAnswer) :
    Wp (replaceManagedHandle handle object answer) t fun r t' =>
      r.1 = true ∨ (r.2 = handle ∧ t'.live = t.live) := by
  rw [replaceManagedHandle.eq_def]
  cases object with
  | none => exact .pure (.inr ⟨rfl, rfl⟩)
  | some object =>
    refine (managedTarget_live t handle).seq fun held t₁ h₁ => ?_
    refine .ite (fun _ => .pure (.inl rfl)) fun _ => ?_
    refine (gchandleNew_live t₁ object answer).seq fun next t₂ h₂ => ?_
    refine (managedTarget_live t₂ next).seq fun led t₃ h₃ => ?_
    refine .ite (fun _ => ?_) fun _ => ?_
    · exact (h₂ t₃ h₃).seq fun _ t₄ h₄ => .pure (.inr ⟨rfl, h₄.trans h₁⟩)
    · exact Wp.seq (P := fun _ _ => True) trivial fun _ _ _ => .pure (.inl rfl)

namespace PinnedObject

variable {α : Type}

/-- The handle of a pinned object, if it has one. -/
def own (p : PinnedObject α) : List (ℕ × Option Obj) := slot p.handle (p.boxed.map Prod.fst)

/-- It is pinned with these contents, if it has a handle. -/
def Holds (p : PinnedObject α) (content : α) : Prop :=
  p.handle ≠ 0 → ∃ owner, p.boxed = some (owner, content)

theorem holds_empty (content : α) : Holds {} content := fun h => absurd rfl h

variable {p : PinnedObject α} {content : α}

theorem pin_spec (h : Owns t l) (object : Option Obj) (content : α) (answer : HandleAnswer) :
    Wp (pin object content answer) t fun p t' =>
      Owns t' (p.own ++ l) ∧
        (p.handle ≠ 0 → ∃ owner, object = some owner ∧ p.boxed = some (owner, content)) ∧
          (∀ owner, object = some owner → answer.Pins owner → p.handle ≠ 0) := by
  cases object with
  | none => exact .pure ⟨h, fun hne => absurd rfl hne, nofun⟩
  | some owner =>
    have h₀ : Owns t (slot 0 none ++ l) := h
    refine (replaceManagedHandle_spec h₀ (some owner) answer).seq ?_
    rintro ⟨ok, handle⟩ t' (⟨-, -, hne, h'⟩ | ⟨-, hzero, h', hrefused⟩)
    · exact .pure ⟨h', fun _ => ⟨owner, rfl, rfl⟩, fun _ _ _ => hne⟩
    · obtain rfl : handle = 0 := hzero
      exact .pure ⟨h', fun hne => absurd rfl hne, fun o ho hpins => absurd hpins (hrefused o ho)⟩

theorem object_spec (h : Owns t l) (hown : p.own ⊆ l) :
    Wp p.object t fun o t' => o = (if p.handle = 0 then none else p.boxed.map Prod.fst) ∧ t' = t :=
  managedTarget_spec h hown

/-- It is pinned exactly if it has a handle. -/
theorem isPinned_spec (h : Owns t l) (hown : p.own ⊆ l) (hp : p.Holds content) :
    Wp p.isPinned t fun b t' => (b = true ↔ p.handle ≠ 0) ∧ t' = t := by
  refine (object_spec h hown).seq ?_
  rintro _ _ ⟨rfl, rfl⟩
  refine .pure ⟨?_, rfl⟩
  split_ifs with hzero
  · simp [hzero]
  · obtain ⟨owner, hboxed⟩ := hp hzero
    simp [hzero, hboxed]

theorem value_spec (h : Owns t l) (hown : p.own ⊆ l) (hp : p.Holds content) :
    Wp p.value t fun o t' => o = (if p.handle = 0 then none else some content) ∧ t' = t := by
  refine (object_spec h hown).seq ?_
  rintro _ _ ⟨rfl, rfl⟩
  split_ifs with hzero
  · exact .pure ⟨rfl, rfl⟩
  · obtain ⟨owner, hboxed⟩ := hp hzero
    rw [hboxed]
    exact .pure ⟨rfl, rfl⟩

theorem release_spec (h : Owns t (p.own ++ l)) : Wp p.release t fun _ t' => Owns t' l :=
  releaseManagedHandle_spec h

end PinnedObject

theorem createBox_spec {α : Type} (h : Owns t l) (content : α) (answers : BoxAnswers) :
    Wp (createBox content answers) t fun p t' => Owns t' (p.own ++ l) ∧ p.Holds content := by
  have hempty {t' : GcHandles} (h' : Owns t' l) :
      Owns t' (({} : PinnedObject α).own ++ l) ∧ PinnedObject.Holds {} content :=
    ⟨h', PinnedObject.holds_empty content⟩
  rw [createBox]
  split_ifs with hklass
  · refine (PinnedObject.pin_spec h _ content answers.pin).seq ?_
    rintro boxed t₁ ⟨h₁, hpinned, -⟩
    have hown : boxed.own ⊆ boxed.own ++ l := List.subset_append_left _ _
    have hboxed : boxed.Holds content := fun hne =>
      (hpinned hne).imp fun _ howner => howner.2
    refine (PinnedObject.isPinned_spec h₁ hown hboxed).seq ?_
    rintro b t₂ ⟨-, rfl⟩
    split_ifs
    · refine (PinnedObject.value_spec h₁ hown hboxed).seq ?_
      rintro real t₃ ⟨-, rfl⟩
      split_ifs
      · exact (PinnedObject.release_spec h₁).seq fun _ _ h' => .pure (hempty h')
      · exact .pure ⟨h₁, hboxed⟩
    · exact (PinnedObject.release_spec h₁).seq fun _ _ h' => .pure (hempty h')
  · exact .pure (hempty h)

theorem newString_spec (h : Owns t l) (text : Bytes) (answers : StringAnswers) :
    Wp (newString text answers) t fun p t' => Owns t' (p.own ++ l) ∧ p.Holds text ∧
      (answers.Succeeds → p.handle ≠ 0) := by
  refine (PinnedObject.pin_spec h _ text answers.pin).conseq ?_
  rintro p t' ⟨h', hpinned, hne⟩
  refine ⟨h', fun hp => (hpinned hp).imp fun _ howner => howner.2, ?_⟩
  rintro ⟨n, hobject, hpins⟩
  exact hne _ (congrArg (Option.map Obj.argument) hobject) hpins

end CommonFps
