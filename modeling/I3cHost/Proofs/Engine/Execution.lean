import I3cHost.Engine.Traffic

/-!
# Running operations

`EngineM.exec` and `EngineOp.exec` run an operation from a state and give its result together with
the state it leaves behind. The equations say how they act on the parts that operations are made
of, so that later proofs never look inside the monads.
-/

namespace I3cHost

variable {τ α β : Type}

/-- A success of the transport is a success of the host. -/
@[simp] theorem mapError_transport_ok (value : α) :
    Except.mapError HostError.transport (.ok value) = .ok value :=
  rfl

/-- An error of the transport is reported as it is. -/
@[simp] theorem mapError_transport_error (error : TransportError) :
    Except.mapError HostError.transport (.error error : TransportResult α) =
      .error (.transport error) :=
  rfl

namespace EngineM

/-- The result of an operation that cannot fail, and the state it leaves behind. -/
def exec (action : EngineM τ α) (engine : Engine τ) : α × Engine τ :=
  (action.run engine).run

variable {engine : Engine τ}

/-- Returning a value leaves the state alone. -/
@[simp] theorem exec_pure (value : α) : exec (pure value) engine = (value, engine) :=
  rfl

/-- The second action begins with the value and in the state that the first has left. -/
@[simp] theorem exec_bind (action : EngineM τ α) (next : α → EngineM τ β) :
    exec (action >>= next) engine = exec (next (exec action engine).1) (exec action engine).2 :=
  rfl

/-- Looking at the state returns all of it. -/
@[simp] theorem exec_get : exec get engine = (engine, engine) :=
  rfl

/-- A change of the state is made at once. -/
@[simp] theorem exec_modify (change : Engine τ → Engine τ) :
    exec (modify change) engine = ((), change engine) :=
  rfl

/-- A change that returns something is made at once. -/
@[simp] theorem exec_modifyGet (change : Engine τ → α × Engine τ) :
    exec (modifyGet change) engine = change engine :=
  rfl

end EngineM

namespace EngineOp

/-- The result of an operation that can fail, and the state it leaves behind. -/
def exec (operation : EngineOp τ α) (engine : Engine τ) : HostResult α × Engine τ :=
  EngineM.exec operation.run engine

variable {engine : Engine τ}

/-- A success with a value leaves the state alone. -/
@[simp] theorem exec_pure (value : α) : exec (pure value) engine = (.ok value, engine) :=
  rfl

/-- The second operation is only reached if the first succeeds. An error keeps the state it occurred
in. -/
@[simp] theorem exec_bind (operation : EngineOp τ α) (next : α → EngineOp τ β) :
    exec (operation >>= next) engine =
      match exec operation engine with
      | (.ok value, after) => exec (next value) after
      | (.error error, after) => (.error error, after) := by
  simp only [exec, EngineM.exec, bind, ExceptT.bind, ExceptT.run, ExceptT.mk, StateT.bind,
    StateT.run, Id.run]
  rcases operation engine with ⟨value | error, after⟩ <;> rfl

/-- An operation succeeds only if all that it is made of does. -/
theorem exec_bind_eq_ok {operation : EngineOp τ α} {next : α → EngineOp τ β} {value : β}
    {after : Engine τ} (h : exec (operation >>= next) engine = (.ok value, after)) :
    ∃ first between, exec operation engine = (.ok first, between) ∧
      exec (next first) between = (.ok value, after) := by
  rw [exec_bind] at h
  rcases hexec : exec operation engine with ⟨error | first, between⟩
  · rw [hexec] at h
    cases h
  · rw [hexec] at h
    exact ⟨first, between, rfl, h⟩

/-- An operation fails with the first part of it that does. -/
theorem exec_bind_eq_error {operation : EngineOp τ α} {next : α → EngineOp τ β} {error : HostError}
    {after : Engine τ} (h : exec (operation >>= next) engine = (.error error, after)) :
    exec operation engine = (.error error, after) ∨
      ∃ first between, exec operation engine = (.ok first, between) ∧
        exec (next first) between = (.error error, after) := by
  rw [exec_bind] at h
  rcases hexec : exec operation engine with ⟨failure | first, between⟩
  · rw [hexec] at h
    cases h
    exact .inl rfl
  · rw [hexec] at h
    exact .inr ⟨first, between, rfl, h⟩

/-- An error leaves the state alone, and so takes nothing back. -/
@[simp] theorem exec_throw (error : HostError) :
    exec (throw error : EngineOp τ α) engine = (.error error, engine) :=
  rfl

/-- An error is handled in the state in which it occurred. -/
@[simp] theorem exec_tryCatch (operation : EngineOp τ α) (handler : HostError → EngineOp τ α) :
    exec (tryCatch operation handler) engine =
      match exec operation engine with
      | (.ok value, after) => (.ok value, after)
      | (.error error, after) => exec (handler error) after := by
  simp only [exec, EngineM.exec, tryCatch, tryCatchThe, MonadExceptOf.tryCatch, ExceptT.tryCatch,
    ExceptT.run, ExceptT.mk, bind, StateT.bind, StateT.run, Id.run]
  rcases operation engine with ⟨value | error, after⟩ <;> rfl

/-- Looking at the state succeeds. -/
@[simp] theorem exec_get : exec (get : EngineOp τ (Engine τ)) engine = (.ok engine, engine) :=
  rfl

/-- A change of the state succeeds. -/
@[simp] theorem exec_modify (change : Engine τ → Engine τ) :
    exec (modify change : EngineOp τ Unit) engine = (.ok (), change engine) :=
  rfl

/-- A change that returns something succeeds. -/
@[simp] theorem exec_modifyGet (change : Engine τ → α × Engine τ) :
    exec (modifyGet change : EngineOp τ α) engine =
      (.ok (change engine).1, (change engine).2) :=
  rfl

/-- An action that cannot fail succeeds as an operation. -/
@[simp] theorem exec_liftM (action : EngineM τ α) :
    exec (liftM action : EngineOp τ α) engine =
      (.ok (EngineM.exec action engine).1, (EngineM.exec action engine).2) :=
  rfl

/-- A result that is known already is the result, and the state stays. -/
@[simp] theorem exec_ofResult (result : HostResult α) :
    exec (Engine.ofResult result) engine = (result, engine) :=
  rfl

/-- A result of the transport is reported, and the state stays. -/
@[simp] theorem exec_ofTransfer (result : TransportResult α) :
    exec (Engine.ofTransfer result) engine = (result.mapError .transport, engine) :=
  rfl

variable [Transport τ] {turn : Turn τ}

/-- A request for data is made, then what happens meanwhile happens, then its result counts. -/
theorem exec_controlIn {moment : Moment} {request : ClassRequest} {value : UInt16}
    {maxLength : Nat} :
    exec (Engine.controlIn turn moment request value maxLength) engine =
      let (result, called) := engine.call (.controlIn request value maxLength)
        (Transport.controlIn request value maxLength)
      (result.mapError .transport, (EngineM.exec (turn moment) called).2) :=
  rfl

/-- A request that carries data is made, then what happens meanwhile happens, then its result
counts. -/
theorem exec_controlOut {moment : Moment} {request : ClassRequest} {value : UInt16}
    {data : Bytes} :
    exec (Engine.controlOut turn moment request value data) engine =
      let (result, called) := engine.call (.controlOut request value data)
        (Transport.controlOut request value data)
      (result.mapError .transport, (EngineM.exec (turn moment) called).2) :=
  rfl

/-- Only after a request has been accepted does anything happen meanwhile. -/
theorem exec_submitControlIn {request : ClassRequest} {continuation : Continuation} :
    exec (Engine.submitControlIn turn request continuation) engine =
      match engine.call (.submitControlIn request 0 maxControlInLength)
        (Transport.submitControlIn request 0 maxControlInLength continuation) with
      | (.ok (), called) => (.ok (), (EngineM.exec (turn .initRequest) called).2)
      | (.error error, called) => (.error (.transport error), called) := by
  unfold Engine.submitControlIn
  rw [exec_bind, exec_modifyGet]
  dsimp only
  rcases engine.call _ _ with ⟨error | ⟨⟩, called⟩ <;> rfl

/-- A transfer is made, then what happens meanwhile happens, then its result counts. -/
theorem exec_bulkOut {data : Bytes} :
    exec (Engine.bulkOut turn data) engine =
      let (result, called) := engine.call (.bulkOut data) (Transport.bulkOut data)
      (result.mapError .transport, (EngineM.exec (turn .bulkOut) called).2) :=
  rfl

end EngineOp

end I3cHost
