import I3cHost.Proofs.Engine.Execution

/-!
# Properties that operations preserve

An operation preserves a property of states if the property holds afterwards whenever it held
before, whether the operation succeeded or not. What is put together from operations that
preserve a property preserves it too.
-/

namespace I3cHost

variable {τ α β : Type} {P : Engine τ → Prop}

namespace EngineM

/-- A property that holds before an operation holds after it. -/
def Preserves (P : Engine τ → Prop) (action : EngineM τ α) : Prop :=
  ∀ engine, P engine → P (action.exec engine).2

namespace Preserves

/-- Returning a value changes nothing. -/
theorem pure (value : α) : Preserves P (pure value) :=
  fun _ h ↦ h

/-- One action after another, whatever the first one returns. -/
theorem bind {action : EngineM τ α} {next : α → EngineM τ β} (h : Preserves P action)
    (hnext : ∀ value, Preserves P (next value)) : Preserves P (action >>= next) :=
  fun engine hengine ↦ hnext _ _ (h engine hengine)

/-- Looking at the state changes nothing. -/
theorem get : Preserves P (MonadState.get : EngineM τ (Engine τ)) :=
  fun _ h ↦ h

/-- A change of the state that respects the property. -/
theorem modify {change : Engine τ → Engine τ} (h : ∀ engine, P engine → P (change engine)) :
    Preserves P (modify change) :=
  h

/-- A change of the state that respects the property and returns something. -/
theorem modifyGet {change : Engine τ → α × Engine τ}
    (h : ∀ engine, P engine → P (change engine).2) : Preserves P (modifyGet change) :=
  h

/-- The same for each item of a list, one after the other. -/
theorem forM {items : List α} {action : α → EngineM τ Unit}
    (h : ∀ item ∈ items, Preserves P (action item)) : Preserves P (items.forM action) := by
  induction items with
  | nil => exact .pure ()
  | cons item items ih =>
      exact .bind (h item List.mem_cons_self)
        fun _ ↦ ih fun other hother ↦ h other (List.mem_cons_of_mem item hother)

/-- The same for each item of a list, with the results collected. -/
theorem mapM {items : List α} {action : α → EngineM τ β}
    (h : ∀ item ∈ items, Preserves P (action item)) : Preserves P (items.mapM action) := by
  induction items with
  | nil => exact .pure []
  | cons item items ih =>
      rw [List.mapM_cons]
      refine .bind (h item List.mem_cons_self) fun _ ↦ .bind ?_ fun _ ↦ .pure _
      exact ih fun other hother ↦ h other (List.mem_cons_of_mem item hother)

end Preserves

end EngineM

namespace EngineOp

/-- A property that holds before an operation holds after it, even if the operation fails. -/
def Preserves (P : Engine τ → Prop) (operation : EngineOp τ α) : Prop :=
  EngineM.Preserves P operation.run

namespace Preserves

/-- What an operation preserves holds where it leads. -/
theorem after {operation : EngineOp τ α} (h : Preserves P operation) {engine after : Engine τ}
    (hengine : P engine) {result : HostResult α} (hexec : exec operation engine = (result, after)) :
    P after := by
  have hafter : P (exec operation engine).2 := h engine hengine
  rwa [hexec] at hafter

/-- A value is a success that changes nothing. -/
theorem pure (value : α) : Preserves P (pure value) :=
  fun _ h ↦ h

/-- Failing changes nothing. -/
theorem throw (error : HostError) : Preserves P (throw error : EngineOp τ α) :=
  fun _ h ↦ h

/-- A result that is known already changes nothing, whether it is a success or an error. -/
theorem ofResult (result : HostResult α) : Preserves P (Engine.ofResult result) :=
  fun _ h ↦ h

/-- What follows an operation is only reached if it succeeds; if it fails, its state is the last. -/
theorem bind {operation : EngineOp τ α} {next : α → EngineOp τ β} (h : Preserves P operation)
    (hnext : ∀ value, Preserves P (next value)) : Preserves P (operation >>= next) := by
  intro engine hengine
  have hafter : P (exec operation engine).2 := h engine hengine
  show P (exec (operation >>= next) engine).2
  rw [exec_bind]
  revert hafter
  rcases exec operation engine with ⟨error | value, after⟩
  · exact id
  · exact hnext value after

/-- What follows a result has to go well only for the value that the result has. -/
theorem ofResult_bind {result : HostResult α} {next : α → EngineOp τ β}
    (hnext : ∀ value, result = .ok value → Preserves P (next value)) :
    Preserves P (Engine.ofResult result >>= next) := by
  cases result with
  | ok value => exact hnext value rfl
  | error error => exact fun _ h ↦ h

/-- An operation may look at the state. -/
theorem get : Preserves P (MonadState.get : EngineOp τ (Engine τ)) :=
  fun _ h ↦ h

/-- An operation may make a change that respects the property. -/
theorem modify {change : Engine τ → Engine τ} (h : ∀ engine, P engine → P (change engine)) :
    Preserves P (modify change : EngineOp τ Unit) :=
  h

/-- An operation may make a change that respects the property and returns something. -/
theorem modifyGet {change : Engine τ → α × Engine τ}
    (h : ∀ engine, P engine → P (change engine).2) :
    Preserves P (modifyGet change : EngineOp τ α) :=
  h

/-- An action that cannot fail, as an operation. -/
theorem liftM {action : EngineM τ α} (h : action.Preserves P) :
    Preserves P (liftM action : EngineOp τ α) :=
  h

/-- The same for each item of a list until one fails. -/
theorem forM {items : List α} {operation : α → EngineOp τ Unit}
    (h : ∀ item ∈ items, Preserves P (operation item)) : Preserves P (items.forM operation) := by
  induction items with
  | nil => exact .pure ()
  | cons item items ih =>
      exact .bind (h item List.mem_cons_self)
        fun _ ↦ ih fun other hother ↦ h other (List.mem_cons_of_mem item hother)

end Preserves

end EngineOp

/-- Two operations do the same in every state that has a property. -/
def EngineOp.Alike (P : Engine τ → Prop) (first second : EngineOp τ α) : Prop :=
  ∀ engine, P engine → first.exec engine = second.exec engine

namespace EngineOp.Alike

variable {first second : EngineOp τ α}

/-- An operation does the same as itself. -/
theorem refl (operation : EngineOp τ α) : Alike P operation operation :=
  fun _ _ ↦ rfl

/-- What follows two operations that do the same starts in the same state, so only there it has to
do the same. -/
theorem bind {next other : α → EngineOp τ β} (h : Alike P first second) (hkept : second.Preserves P)
    (hnext : ∀ value, Alike P (next value) (other value)) :
    Alike P (first >>= next) (second >>= other) := by
  intro engine hengine
  have hafter : P (second.exec engine).2 := hkept engine hengine
  rw [exec_bind, exec_bind, h engine hengine]
  revert hafter
  rcases second.exec engine with ⟨error | value, after⟩
  · exact fun _ ↦ rfl
  · exact hnext value after

/-- Actions that do the same, as operations. -/
theorem liftM {action other : EngineM τ α}
    (h : ∀ engine, P engine → action.exec engine = other.exec engine) :
    Alike P (liftM action : EngineOp τ α) (liftM other : EngineOp τ α) := by
  intro engine hengine
  rw [exec_liftM, exec_liftM, h engine hengine]

end EngineOp.Alike

end I3cHost
