/-!
# Computations that leave a trace and may throw

A run is what the computation has done to the outside, in order, and how it ended. An exception
keeps the trace of what was done before it.
-/

@[simp]
theorem Except.ok_bind {ε α β : Type} (value : α) (next : α → Except ε β) :
    (Except.ok value >>= next) = next value := rfl

@[simp]
theorem Except.error_bind {ε α β : Type} (thrown : ε) (next : α → Except ε β) :
    (Except.error thrown >>= next) = .error thrown := rfl

structure Traced (Event Thrown Value : Type) where
  trace : List Event
  result : Except Thrown Value

namespace Traced

variable {Event Thrown Value Next : Type}

def bind (run : Traced Event Thrown Value) (next : Value → Traced Event Thrown Next) :
    Traced Event Thrown Next :=
  match run.result with
  | .ok value => ⟨run.trace ++ (next value).trace, (next value).result⟩
  | .error thrown => ⟨run.trace, .error thrown⟩

instance : Monad (Traced Event Thrown) where
  pure value := ⟨[], .ok value⟩
  bind := bind

def tell (event : Event) : Traced Event Thrown Unit := ⟨[event], .ok ()⟩

/-- A computation that nobody outside sees. -/
def silent (result : Except Thrown Value) : Traced Event Thrown Value := ⟨[], result⟩

/-- `try … catch`. -/
def attempt (run : Traced Event Thrown Value) (recover : Thrown → Traced Event Thrown Value) :
    Traced Event Thrown Value :=
  match run.result with
  | .ok _ => run
  | .error thrown => ⟨run.trace ++ (recover thrown).trace, (recover thrown).result⟩

@[simp]
theorem trace_pure (value : Value) : (pure value : Traced Event Thrown Value).trace = [] := rfl

@[simp]
theorem result_pure (value : Value) : (pure value : Traced Event Thrown Value).result =
    .ok value := rfl

@[simp]
theorem trace_silent (result : Except Thrown Value) :
    (silent result : Traced Event Thrown Value).trace = [] := rfl

@[simp]
theorem result_silent (result : Except Thrown Value) :
    (silent result : Traced Event Thrown Value).result = result := rfl

@[simp]
theorem trace_tell (event : Event) : (tell event : Traced Event Thrown Unit).trace = [event] := rfl

@[simp]
theorem result_tell (event : Event) : (tell event : Traced Event Thrown Unit).result = .ok () := rfl

theorem trace_bind (run : Traced Event Thrown Value) (next : Value → Traced Event Thrown Next) :
    (run >>= next).trace =
      run.trace ++ (match run.result with
        | .ok value => (next value).trace
        | .error _ => []) := by
  change (bind run next).trace = _
  unfold bind
  cases hresult : run.result <;> simp

theorem result_bind (run : Traced Event Thrown Value) (next : Value → Traced Event Thrown Next) :
    (run >>= next).result = (run.result >>= fun value => (next value).result) := by
  change (bind run next).result = _
  unfold bind
  cases hresult : run.result <;> simp

theorem trace_attempt (run : Traced Event Thrown Value)
    (recover : Thrown → Traced Event Thrown Value) :
    (run.attempt recover).trace =
      run.trace ++ (match run.result with
        | .ok _ => []
        | .error thrown => (recover thrown).trace) := by
  unfold attempt
  cases hresult : run.result <;> simp

end Traced
