import Chip8.Proofs.Machine.Step

/-!
# What lasts through instructions

An instruction is made of few kinds of change: to the registers and the memory, to the screen by
clearing it or by a sprite, and to the random numbers. A relation that bears each of these, one after
the other, holds between any machine, whatever its memory and its screen are like, and what an
instruction makes of it, also where the instruction fails (`leaves_execute`). The same goes for a
whole step, but that one that succeeds is counted (`wp_step_lasting`).
-/

namespace Chip8.Machine

/-- The relation lasts through every change that instructions are made of, and such errors may come
of them. -/
structure Lasting (R : Machine → Machine → Prop) (E : Error → Prop) : Prop where
  refl (m : Machine) : R m m
  trans {m t u : Machine} (h : R m t) (h' : R t u) : R m u
  withState (m : Machine) (s : State) : R m { m with state := s }
  withBus (m : Machine) (b : Bus) : R m { m with bus := b }
  withEntropy (m : Machine) (e : Entropy) : R m { m with entropy := e }
  clear (m : Machine) : R m { m with screen := m.screen.clear }
  drawn {m : Machine} {s : Screen} {x y : Int} {rows : List Int} {wrap hit : Bool}
    (h : m.screen.draw x y rows wrap = .ok (s, hit)) : R m { m with screen := s }
  bus (e : Bus.Error) : E (.bus e)
  screen (e : Screen.Error) : E (.screen e)

/-- However the action ends, the machine left behind is in the relation, and it fails by no other
errors. -/
def Leaves {α : Type} (R : Machine → Machine → Prop) (E : Error → Prop) (a : Action Machine α)
    (m : Machine) : Prop :=
  a.wp (fun _ t => R m t) (fun e t => R m t ∧ E e) m

variable {α β : Type} {R : Machine → Machine → Prop} {E : Error → Prop} {m t : Machine}

theorem Leaves.bind (h : Lasting R E) {a : Action Machine α} {f : α → Action Machine β}
    (ha : Leaves R E a m) (hf : ∀ x t, R m t → Leaves R E (f x) t) : Leaves R E (a >>= f) m := by
  unfold Leaves
  rw [Action.wp_bind]
  refine Action.wp_mono ha (fun x t ht => ?_) fun _ _ he => he
  refine Action.wp_mono (hf x t ht) (fun y u hu => ?_) fun e u hu => ?_
  · exact h.trans ht hu
  · exact ⟨h.trans ht hu.1, hu.2⟩

theorem Leaves.state {a : Action Machine α} (h : Leaves R E a m) : R m (a.run m).state :=
  Action.state_of_wp (Action.wp_mono h (fun _ _ ht => ht) fun _ _ ht => ht.1)

namespace Lasting

theorem pure (h : Lasting R E) (x : α) : Leaves R E (pure x : Action Machine α) m := h.refl m

theorem fail (h : Lasting R E) {e : Error} (he : E e) : Leaves R E (.fail e : Action Machine α) m :=
  ⟨h.refl m, he⟩

theorem modifyState (h : Lasting R E) (f : State → State) : Leaves R E (modifyState f) m :=
  h.withState m (f m.state)

theorem read (h : Lasting R E) (a : Int) :
    Leaves R E (HasCore.read a : Action Machine UInt8) m := by
  cases hr : m.bus.read a with
  | ok r =>
    exact (Action.wp_of_run_ok (run_read_of_ok hr)).2 (h.withBus m _)
  | error e =>
    have hrun : (HasCore.read a : Action Machine UInt8).run m = ⟨m, .error (.bus e), []⟩ := by
      unfold HasCore.read
      dsimp only
      rw [show (HasCore.bus m).read a = _ from hr]
    exact (Action.wp_of_run_error hrun).2 ⟨h.refl m, h.bus e⟩

theorem write (h : Lasting R E) (a n : Int) :
    Leaves R E (HasCore.write a n : Action Machine Unit) m := by
  cases hw : m.bus.write a n with
  | ok b =>
    exact (Action.wp_of_run_ok (run_write_of_ok hw)).2 (h.withBus m _)
  | error e =>
    have hrun : (HasCore.write a n : Action Machine Unit).run m = ⟨m, .error (.bus e), []⟩ := by
      unfold HasCore.write
      dsimp only
      rw [show (HasCore.bus m).write a n = _ from hw]
    exact (Action.wp_of_run_error hrun).2 ⟨h.refl m, h.bus e⟩

theorem drawSprite (h : Lasting R E) (x y : Int) (rows : List Int) (wrap : Bool) :
    Leaves R E (drawSprite x y rows wrap) m := by
  cases hd : m.screen.draw x y rows wrap with
  | ok r =>
    exact (Action.wp_of_run_ok (run_drawSprite_of_ok hd)).2 (h.drawn hd)
  | error e =>
    have hrun : (Machine.drawSprite x y rows wrap).run m = ⟨m, .error (.screen e), []⟩ := by
      simp only [Machine.drawSprite, hd]
    exact (Action.wp_of_run_error hrun).2 ⟨h.refl m, h.screen e⟩

theorem writeBlock (h : Lasting R E) (s : State) (k : Nat) (l : List Int) :
    Leaves R E (writeBlock s k l) m := by
  induction l generalizing k m with
  | nil => exact h.pure ()
  | cons n l ih => exact (h.write (s.indexed k) n).bind h fun _ _ _ => ih (k + 1)

theorem loadBlock (h : Lasting R E) (s : State) (l : List (Fin 16)) :
    Leaves R E (loadBlock s l) m := by
  induction l generalizing m with
  | nil => exact h.pure ()
  | cons x l ih =>
    refine (h.read (s.indexed x)).bind h fun n t _ => ?_
    exact (h.modifyState (·.setReg x n.toNat)).bind h fun _ _ _ => ih

theorem readSprite (h : Lasting R E) (s : State) (k n : Nat) :
    Leaves R E (readSprite s k n) m := by
  induction n generalizing k m with
  | zero => exact h.pure []
  | succ n ih =>
    refine (h.read (s.indexed k)).bind h fun v t _ => ?_
    exact (ih (k + 1)).bind h fun rest _ _ => h.pure _

theorem endBlock (h : Lasting R E) (x : Fin 16) : Leaves R E (endBlock x) m := by
  unfold Leaves Machine.endBlock
  rw [Action.wp_modify]
  split
  · exact h.withState m _
  · exact h.refl m

theorem random (h : Lasting R E) (x : Fin 16) (mask : Nat) : Leaves R E (random x mask) m :=
  h.trans (h.withEntropy m (m.entropy.draw 256).2) (h.withState _ _)

theorem draw (h : Lasting R E) (x y : Fin 16) (n : Nat) :
    Leaves R E (Machine.draw x y n) m := by
  unfold Leaves Machine.draw
  rw [Action.wp_bind, Action.wp_get]
  refine (h.readSprite m.state 0 n).bind h fun rows t _ => ?_
  refine (h.modifyState (·.setFlag 0)).bind h fun _ u _ => ?_
  refine (h.drawSprite _ _ rows _).bind h fun hit v _ => ?_
  split
  · exact h.modifyState (·.setFlag 1)
  · exact h.pure ()

theorem waitKey (h : Lasting R E) (x : Fin 16) : Leaves R E (waitKey x) m := by
  unfold Leaves Machine.waitKey
  rw [Action.wp_bind, Action.wp_gets]
  cases m.keypad.first? with
  | none => exact h.modifyState fun s => { s with waitingForKey := true, pc := s.lastPc }
  | some k => exact h.modifyState fun s => { s with waitingForKey := false }.setReg x k

end Lasting

/-- The faults of an instruction come on top of the errors of memory and screen. -/
theorem leaves_execute (h : Lasting R E) {i : Instruction}
    (hf : ∀ f, m.Balks i f → E (.fault f)) : Leaves R E (execute i) m := by
  obtain ⟨o, w⟩ := i
  unfold Leaves execute
  rw [Action.wp_bind, Action.wp_get]
  cases o with
  | sys =>
    dsimp only
    split
    · exact h.fail (hf _ (.sys rfl ‹_›))
    · exact h.pure ()
  | cls => exact h.clear m
  | ret =>
    dsimp only
    unfold ret
    rw [Action.wp_bind, Action.wp_gets]
    cases hs : m.state.stack with
    | nil => exact h.fail (hf _ (.ret rfl hs))
    | cons a rest => exact h.modifyState fun s => { s with stack := rest, pc := a }
  | call =>
    dsimp only
    unfold call
    rw [Action.wp_bind, Action.wp_get]
    dsimp only
    split
    · exact h.fail (hf _ (.call rfl ‹_›))
    · exact h.modifyState fun s => { s with stack := s.pc :: s.stack, pc := _ }
  | random => exact h.random _ _
  | draw => exact h.draw _ _ _
  | waitKey => exact h.waitKey _
  | decimal => exact h.writeBlock _ _ _
  | store => exact (h.writeBlock _ _ _).bind h fun _ _ _ => h.endBlock _
  | load => exact (h.loadBlock _ _).bind h fun _ _ _ => h.endBlock _
  | _ => exact h.modifyState _

/-- No instruction of any machine fails by a fault but those that are listed. -/
theorem balks_of_fault {i : Instruction} {f : Fault} {l : List Notice}
    (hx : (execute i).run m = ⟨t, .error (.fault f), l⟩) : m.Balks i f := by
  have h : Lasting (fun _ _ => True) fun e => ∀ f, e = .fault f → m.Balks i f :=
    { refl := fun _ => trivial
      trans := fun _ _ => trivial
      withState := fun _ _ => trivial
      withBus := fun _ _ => trivial
      withEntropy := fun _ _ => trivial
      clear := fun _ => trivial
      drawn := fun _ => trivial
      bus := fun _ _ => nofun
      screen := fun _ _ => nofun }
  have he := leaves_execute h fun f hf g hg => Error.fault.inj hg ▸ hf
  exact ((Action.wp_of_run_error hx).1 he).2 f rfl

/-! ### Steps -/

theorem leaves_perform (h : Lasting R fun _ => True) (m : Machine) :
    Leaves R (fun _ => True) (Processor.perform : Action Machine Instruction) m := by
  have hfetch : Leaves R (fun _ => True) (Processor.fetch : Action Machine Word) m := by
    unfold Leaves Processor.fetch
    rw [Action.wp_bind, Action.wp_get]
    dsimp only
    split
    · exact (h.read _).bind h fun high _ _ => (h.read _).bind h fun low _ _ => h.pure _
    · exact h.fail trivial
  refine hfetch.bind h fun w t _ => ?_
  unfold Leaves
  rw [Action.wp_bind, Action.wp_get, Action.wp_bind]
  cases hd : (Processor.decode t w : Except Fault Instruction) with
  | error f => exact h.fail (α := Instruction) trivial
  | ok i =>
    have hpass : Leaves R (fun _ => True)
        (HasCore.modifyState (·.advance 2) : Action Machine Unit) t := h.modifyState (·.advance 2)
    exact hpass.bind h fun _ u _ =>
      (leaves_execute h fun _ _ => trivial).bind h fun _ _ _ => h.pure i

/-- A step of any machine is a change that lasts through instructions, with the count of it if it
succeeds. -/
theorem wp_step_lasting (h : Lasting R fun _ => True) (m : Machine) :
    step.wp (fun _ t => ∃ u, R m u ∧ t = u.counted) (fun _ t => R m t) m := by
  have hquiet : R m m.quiet := h.withBus m _
  cases hr : m.refusal? with
  | some f => exact (Action.wp_of_run_error (run_step_refused hr)).2 hquiet
  | none =>
    have hperform := leaves_perform h m.quiet
    rcases hp : (Processor.perform : Action Machine Instruction).run m.quiet with ⟨t, e | i, l⟩
    · have ht := h.trans hquiet ((Action.wp_of_run_error hp).1 hperform).1
      rcases run_step_error hr hp with ⟨f, -, ho⟩ | ⟨-, ho⟩
      · exact (Action.wp_of_run_error ho).2 (h.trans ht (h.withState t _))
      · exact (Action.wp_of_run_error ho).2 ht
    · have ht := h.trans hquiet ((Action.wp_of_run_ok hp).1 hperform)
      exact (Action.wp_of_run_ok (run_step_executed hr hp)).2 ⟨t, ht, rfl⟩

theorem lasting_cycles : Lasting (fun m t => t.cycles = m.cycles) fun _ => True where
  refl _ := rfl
  trans h h' := h'.trans h
  withState _ _ := rfl
  withBus _ _ := rfl
  withEntropy _ _ := rfl
  clear _ := rfl
  drawn _ := rfl
  bus _ := trivial
  screen _ := trivial

/-- On any machine the steps that succeed are counted, and no others. -/
theorem wp_step_cycles (m : Machine) :
    step.wp (fun _ t => t.cycles = m.cycles + 1) (fun _ t => t.cycles = m.cycles) m := by
  refine Action.wp_mono (wp_step_lasting lasting_cycles m) (fun _ t h => ?_) fun _ _ h => h
  obtain ⟨u, hu, rfl⟩ := h
  exact congrArg (· + 1) hu

end Chip8.Machine
