import Chip8.Error
import Chip8.Notice

/-!
# Actions

An action changes a state, answers or fails, and gives notices on the way. A failing action keeps
what it had changed and the notices it had given. `Action.run` takes an action apart.
-/

namespace Chip8

structure Outcome (σ α : Type) where
  state : σ
  result : Except Error α
  notices : List Notice

@[ext] structure Action (σ α : Type) where
  run : σ → Outcome σ α

namespace Action

variable {σ τ α β : Type}

def pure (x : α) : Action σ α := ⟨fun s => ⟨s, .ok x, []⟩⟩

def bind (a : Action σ α) (f : α → Action σ β) : Action σ β :=
  ⟨fun s =>
    match a.run s with
    | ⟨t, .ok x, early⟩ =>
      let ⟨u, result, late⟩ := (f x).run t
      ⟨u, result, early ++ late⟩
    | ⟨t, .error e, early⟩ => ⟨t, .error e, early⟩⟩

instance : Monad (Action σ) where
  pure := pure
  bind := bind

def get : Action σ σ := ⟨fun s => ⟨s, .ok s, []⟩⟩

def gets (f : σ → α) : Action σ α := ⟨fun s => ⟨s, .ok (f s), []⟩⟩

def modify (f : σ → σ) : Action σ Unit := ⟨fun s => ⟨f s, .ok (), []⟩⟩

def fail (e : Error) : Action σ α := ⟨fun s => ⟨s, .error e, []⟩⟩

def report (n : Notice) : Action σ Unit := ⟨fun s => ⟨s, .ok (), [n]⟩⟩

/-- Answer or fail, without touching the state. -/
def lift (r : Except Error α) : Action σ α := ⟨fun s => ⟨s, r, []⟩⟩

/-- An action on a part of the state. -/
def onPart (part : σ → τ) (put : σ → τ → σ) (a : Action τ α) : Action σ α :=
  ⟨fun s =>
    let ⟨t, result, notices⟩ := a.run (part s)
    ⟨put s t, result, notices⟩⟩

/-- Change the state at the end, however the action ends. -/
def atEnd (a : Action σ α) (f : σ → σ) : Action σ α :=
  ⟨fun s =>
    let ⟨t, result, notices⟩ := a.run s
    ⟨f t, result, notices⟩⟩

/-- When the action fails by a fault, change the state and give a notice of it. -/
def onFault (a : Action σ α) (f : σ → σ) (n : Fault → Notice) : Action σ α :=
  ⟨fun s =>
    match a.run s with
    | ⟨t, .error (.fault e), notices⟩ => ⟨f t, .error (.fault e), notices ++ [n e]⟩
    | o => o⟩

@[simp] theorem run_pure (x : α) (s : σ) :
    (Pure.pure x : Action σ α).run s = ⟨s, .ok x, []⟩ := rfl

@[simp] theorem run_get (s : σ) : (get : Action σ σ).run s = ⟨s, .ok s, []⟩ := rfl

@[simp] theorem run_gets (f : σ → α) (s : σ) : (gets f).run s = ⟨s, .ok (f s), []⟩ := rfl

@[simp] theorem run_modify (f : σ → σ) (s : σ) : (modify f).run s = ⟨f s, .ok (), []⟩ := rfl

@[simp] theorem run_fail (e : Error) (s : σ) : (fail e : Action σ α).run s = ⟨s, .error e, []⟩ :=
  rfl

@[simp] theorem run_report (n : Notice) (s : σ) : (report n).run s = ⟨s, .ok (), [n]⟩ := rfl

@[simp] theorem run_lift (r : Except Error α) (s : σ) : (lift r : Action σ α).run s = ⟨s, r, []⟩ :=
  rfl

theorem run_bind (a : Action σ α) (f : α → Action σ β) (s : σ) :
    (a >>= f).run s =
      match (a.run s).result with
      | .ok x =>
        ⟨((f x).run (a.run s).state).state, ((f x).run (a.run s).state).result,
          (a.run s).notices ++ ((f x).run (a.run s).state).notices⟩
      | .error e => ⟨(a.run s).state, .error e, (a.run s).notices⟩ := by
  show (bind a f).run s = _
  unfold bind
  rcases h : a.run s with ⟨t, _ | x, early⟩ <;> simp only [h]

theorem run_bind_ok {a : Action σ α} {s t : σ} {x : α} {early : List Notice}
    (h : a.run s = ⟨t, .ok x, early⟩) (f : α → Action σ β) :
    (a >>= f).run s =
      ⟨((f x).run t).state, ((f x).run t).result, early ++ ((f x).run t).notices⟩ := by
  rw [run_bind, h]

theorem run_bind_error {a : Action σ α} {s t : σ} {e : Error} {early : List Notice}
    (h : a.run s = ⟨t, .error e, early⟩) (f : α → Action σ β) :
    (a >>= f).run s = ⟨t, .error e, early⟩ := by
  rw [run_bind, h]

theorem id_map (a : Action σ α) : id <$> a = a := by
  ext s
  show (a >>= fun x => Pure.pure (id x)).run s = a.run s
  rcases h : a.run s with ⟨t, _ | x, early⟩
  · rw [run_bind_error h]
  · rw [run_bind_ok h]; simp

theorem pure_bind (x : α) (f : α → Action σ β) : (Pure.pure x >>= f) = f x := by
  ext s
  rw [run_bind_ok (run_pure x s)]
  rfl

theorem bind_assoc {γ : Type} (a : Action σ α) (f : α → Action σ β) (g : β → Action σ γ) :
    a >>= f >>= g = a >>= fun x => f x >>= g := by
  ext s
  rcases h : a.run s with ⟨t, e | x, early⟩
  · rw [run_bind_error (run_bind_error h f), run_bind_error h]
  · rw [run_bind_ok h]
    rcases h' : (f x).run t with ⟨u, e | y, middle⟩
    · rw [run_bind_error ((run_bind_ok h f).trans (by rw [h'])), run_bind_error h']
    · rw [run_bind_ok ((run_bind_ok h f).trans (by rw [h'])), run_bind_ok h']
      simp

instance : LawfulMonad (Action σ) := LawfulMonad.mk' _ id_map pure_bind bind_assoc

end Action

end Chip8
