import Chip8.Action

/-!
# How actions end

`a.wp ok bad s`: from the state `s` the action ends as wanted, that is by an answer and in a state
that satisfy `ok`, or by an error and in a state that satisfy `bad`. A sequence of actions is
followed part by part (`wp_bind`). Notices are left out of account.
-/

namespace Chip8.Action

variable {σ τ α β : Type} {ok ok' : α → σ → Prop} {bad bad' : Error → σ → Prop} {s : σ}

def wp (a : Action σ α) (ok : α → σ → Prop) (bad : Error → σ → Prop) (s : σ) : Prop :=
  match (a.run s).result with
  | .ok x => ok x (a.run s).state
  | .error e => bad e (a.run s).state

theorem wp_of_run_ok {a : Action σ α} {t : σ} {x : α} {l : List Notice}
    (h : a.run s = ⟨t, .ok x, l⟩) : a.wp ok bad s ↔ ok x t := by
  unfold wp
  rw [h]

theorem wp_of_run_error {a : Action σ α} {t : σ} {e : Error} {l : List Notice}
    (h : a.run s = ⟨t, .error e, l⟩) : a.wp ok bad s ↔ bad e t := by
  unfold wp
  rw [h]

theorem wp_mono {a : Action σ α} (h : a.wp ok bad s) (hok : ∀ x t, ok x t → ok' x t)
    (hbad : ∀ e t, bad e t → bad' e t) : a.wp ok' bad' s := by
  rcases hr : a.run s with ⟨t, e | x, l⟩
  · rw [wp_of_run_error hr] at h ⊢
    exact hbad e t h
  · rw [wp_of_run_ok hr] at h ⊢
    exact hok x t h

theorem wp_of_forall {a : Action σ α} (hok : ∀ x t, ok x t) (hbad : ∀ e t, bad e t) :
    a.wp ok bad s := by
  rcases hr : a.run s with ⟨t, e | x, l⟩
  · exact (wp_of_run_error hr).2 (hbad e t)
  · exact (wp_of_run_ok hr).2 (hok x t)

/-- The state at the end is the one that the action leads to. -/
theorem wp_state {a : Action σ α} (h : a.wp ok bad s) :
    a.wp (fun x t => ok x t ∧ (a.run s).state = t) (fun e t => bad e t ∧ (a.run s).state = t) s := by
  rcases hr : a.run s with ⟨t, e | x, l⟩
  · exact (wp_of_run_error hr).2 ⟨(wp_of_run_error hr).1 h, rfl⟩
  · exact (wp_of_run_ok hr).2 ⟨(wp_of_run_ok hr).1 h, rfl⟩

@[simp] theorem wp_pure (x : α) : (Pure.pure x : Action σ α).wp ok bad s ↔ ok x s := Iff.rfl

@[simp] theorem wp_get {ok : σ → σ → Prop} : (get : Action σ σ).wp ok bad s ↔ ok s s := Iff.rfl

@[simp] theorem wp_gets (f : σ → α) : (gets f).wp ok bad s ↔ ok (f s) s := Iff.rfl

@[simp] theorem wp_modify (f : σ → σ) {ok : Unit → σ → Prop} :
    (modify f).wp ok bad s ↔ ok () (f s) := Iff.rfl

@[simp] theorem wp_fail (e : Error) : (fail e : Action σ α).wp ok bad s ↔ bad e s := Iff.rfl

@[simp] theorem wp_report (n : Notice) {ok : Unit → σ → Prop} :
    (report n).wp ok bad s ↔ ok () s := Iff.rfl

@[simp] theorem wp_bind (a : Action σ β) (f : β → Action σ α) :
    (a >>= f).wp ok bad s ↔ a.wp (fun x t => (f x).wp ok bad t) bad s := by
  rcases h : a.run s with ⟨t, e | x, l⟩
  · rw [wp_of_run_error h, wp_of_run_error (run_bind_error h f)]
  · rw [wp_of_run_ok h]
    unfold wp
    rw [run_bind_ok h]

theorem wp_onPart {part : σ → τ} {put : σ → τ → σ} {a : Action τ α} :
    (a.onPart part put).wp ok bad s ↔
      a.wp (fun x t => ok x (put s t)) (fun e t => bad e (put s t)) (part s) := by
  rcases h : a.run (part s) with ⟨t, e | x, l⟩ <;> simp only [wp, onPart, h]

theorem run_map (f : α → β) (a : Action σ α) (s : σ) :
    (f <$> a).run s = ⟨(a.run s).state, (a.run s).result.map f, (a.run s).notices⟩ := by
  rw [← bind_pure_comp]
  rcases h : a.run s with ⟨t, e | x, l⟩
  · rw [run_bind_error h]
    rfl
  · rw [run_bind_ok h]
    simp [Except.map]

theorem run_bind_of_ok {a : Action σ β} {t : σ} {x : β} (h : a.run s = ⟨t, .ok x, []⟩)
    (f : β → Action σ α) : (a >>= f).run s = (f x).run t := by
  rw [run_bind_ok h]
  rfl

theorem run_bind_congr {a b : Action σ β} (h : a.run s = b.run s) (f : β → Action σ α) :
    (a >>= f).run s = (b >>= f).run s := by
  rw [run_bind, run_bind, h]

theorem run_atEnd {a : Action σ α} {t : σ} {r : Except Error α} {l : List Notice}
    (h : a.run s = ⟨t, r, l⟩) (f : σ → σ) : (a.atEnd f).run s = ⟨f t, r, l⟩ := by
  simp only [atEnd, h]

theorem run_atEnd_congr {a b : Action σ α} (h : a.run s = b.run s) (f : σ → σ) :
    (a.atEnd f).run s = (b.atEnd f).run s := by
  simp only [atEnd, h]

theorem run_onFault_ok {a : Action σ α} {t : σ} {x : α} {l : List Notice}
    (h : a.run s = ⟨t, .ok x, l⟩) (f : σ → σ) (n : Fault → Notice) :
    (a.onFault f n).run s = ⟨t, .ok x, l⟩ := by
  simp only [onFault, h]

theorem exists_run_onFault_error {a : Action σ α} {t : σ} {e : Error} {l : List Notice}
    (h : a.run s = ⟨t, .error e, l⟩) (n : Fault → Notice) :
    ∃ l', (a.onFault id n).run s = ⟨t, .error e, l'⟩ := by
  cases e with
  | fault f => exact ⟨l ++ [n f], by simp only [onFault, h, id]⟩
  | _ => exact ⟨l, by simp only [onFault, h]⟩

/-- A sequence answers if each of its parts does. -/
theorem run_bind_eq_ok {a : Action σ β} {f : β → Action σ α} {u : σ} {y : α} {l : List Notice} :
    (a >>= f).run s = ⟨u, .ok y, l⟩ ↔
      ∃ t x early late, a.run s = ⟨t, .ok x, early⟩ ∧ (f x).run t = ⟨u, .ok y, late⟩ ∧
        l = early ++ late := by
  constructor
  · intro h
    rcases ha : a.run s with ⟨t, e | x, early⟩
    · rw [run_bind_error ha] at h
      cases h
    · rw [run_bind_ok ha] at h
      rcases hf : (f x).run t with ⟨u', r, late⟩
      rw [hf] at h
      cases h
      exact ⟨t, x, early, late, rfl, hf, rfl⟩
  · rintro ⟨t, x, early, late, ha, hf, rfl⟩
    rw [run_bind_ok ha, hf]

/-- What holds of every end holds of the state at the end. -/
theorem state_of_wp {a : Action σ α} {P : σ → Prop} (h : a.wp (fun _ => P) (fun _ => P) s) :
    P (a.run s).state := by
  rcases hr : a.run s with ⟨t, e | x, l⟩
  · exact (wp_of_run_error hr).1 h
  · exact (wp_of_run_ok hr).1 h

end Chip8.Action
