import Chip8.Proofs.Bus.Alike
import Chip8.Proofs.Machine.Step

/-!
# Two machines side by side

An action `Agrees` on two machines, up to a relation `R`, if it gives the same answer or the same
error and the same notices on both, and leaves them related again. A relation is a `Coupling` if the
two machines hold the same registers, the timers aside, and if what instructions do is done to both
alike; it is a `Pairing` if they also are of one dialect. An instruction that looks at the timers,
draws, asks for a random number, or depends on the dialect needs more of the two machines
(`SuitsAt`); each of the others agrees on any couple (`Coupling.agrees_execute`). So does the whole
step if its instruction does (`Coupling.sameStep`). In a pairing it is enough that the relation bears
the instruction on whatever machines (`Suits`, `sameStep`).
-/

namespace Chip8

namespace State

/-- The registers with the timers of others. -/
def timed (s r : State) : State := { s with delay := r.delay, sound := r.sound }

/-- The function neither looks at the timers nor changes them. -/
def Timeless (f : State → State) : Prop := ∀ s r, f (s.timed r) = (f s).timed r

theorem timeless_endLogic (d : Dialect) {f : State → State} (hf : Timeless f) :
    Timeless fun s => endLogic d (f s) := by
  intro s r
  show endLogic d (f (s.timed r)) = _
  rw [hf]
  unfold endLogic
  split <;> rfl

theorem endLogic_congr {d d' : Dialect} (h : d'.logicResetsVf = d.logicResetsVf) :
    endLogic d' = endLogic d := by
  funext s
  unfold endLogic
  rw [h]

end State

/-- The instructions that look at a timer or set one. -/
def Instruction.Timed (i : Instruction) : Prop :=
  i.opcode = .readDelay ∨ i.opcode = .setDelay ∨ i.opcode = .setSound

instance (i : Instruction) : Decidable i.Timed := inferInstanceAs (Decidable (_ ∨ _ ∨ _))

def Instruction.Logical (i : Instruction) : Prop :=
  i.opcode = .or ∨ i.opcode = .and ∨ i.opcode = .xor

instance (i : Instruction) : Decidable i.Logical := inferInstanceAs (Decidable (_ ∨ _ ∨ _))

def Instruction.Shifts (i : Instruction) : Prop :=
  i.opcode = .shiftRight ∨ i.opcode = .shiftLeft

instance (i : Instruction) : Decidable i.Shifts := inferInstanceAs (Decidable (_ ∨ _))

/-- The block transfers. -/
def Instruction.Transfers (i : Instruction) : Prop := i.opcode = .store ∨ i.opcode = .load

instance (i : Instruction) : Decidable i.Transfers := inferInstanceAs (Decidable (_ ∨ _))

namespace Machine

variable {α β : Type} {R : Machine → Machine → Prop} {m t : Machine}

structure Agrees (R : Machine → Machine → Prop) (a b : Action Machine α) (m t : Machine) :
    Prop where
  state : R (a.run m).state (b.run t).state
  result : (b.run t).result = (a.run m).result
  notices : (b.run t).notices = (a.run m).notices

/-- What follows may depend on where the first action leads to. -/
theorem Agrees.bind_of_run {a b : Action Machine α} {f g : α → Action Machine β}
    (h : Agrees R a b m t)
    (hf : ∀ x u v l, a.run m = ⟨u, .ok x, l⟩ → R u v → Agrees R (f x) (g x) u v) :
    Agrees R (a >>= f) (b >>= g) m t := by
  rcases ha : a.run m with ⟨u, e | x, l⟩
  · rcases hb : b.run t with ⟨v, r, l'⟩
    obtain ⟨hs, hr, hn⟩ := h
    rw [ha, hb] at hs hr hn
    cases hr
    cases hn
    refine ⟨?_, ?_, ?_⟩ <;> rw [Action.run_bind_error ha, Action.run_bind_error hb]
    exact hs
  · rcases hb : b.run t with ⟨v, r, l'⟩
    obtain ⟨hs, hr, hn⟩ := h
    rw [ha, hb] at hs hr hn
    cases hr
    cases hn
    obtain ⟨hs', hr', hn'⟩ := hf x u v l ha hs
    refine ⟨?_, ?_, ?_⟩ <;> rw [Action.run_bind_ok ha, Action.run_bind_ok hb]
    · exact hs'
    · exact hr'
    · show l ++ _ = l ++ _
      rw [hn']

theorem Agrees.bind {a b : Action Machine α} {f g : α → Action Machine β} (h : Agrees R a b m t)
    (hf : ∀ x u v, (a.run m).result = .ok x → R u v → Agrees R (f x) (g x) u v) :
    Agrees R (a >>= f) (b >>= g) m t :=
  h.bind_of_run fun x u v _ ha => hf x u v (by rw [ha])

theorem agrees_pure (h : R m t) (x : α) : Agrees R (pure x) (pure x) m t := ⟨h, rfl, rfl⟩

theorem agrees_fail (h : R m t) (e : Error) :
    Agrees R (.fail e : Action Machine α) (.fail e) m t :=
  ⟨h, rfl, rfl⟩

theorem agrees_modify {f g : Machine → Machine} (h : R (f m) (g t)) :
    Agrees R (.modify f) (.modify g) m t :=
  ⟨h, rfl, rfl⟩

theorem agrees_get_bind {f g : Machine → Action Machine β} (h : Agrees R (f m) (g t) m t) :
    Agrees R (.get >>= f) (.get >>= g) m t := by
  obtain ⟨hs, hr, hn⟩ := h
  refine ⟨?_, ?_, ?_⟩ <;>
    rw [Action.run_bind_of_ok (Action.run_get m), Action.run_bind_of_ok (Action.run_get t)]
  · exact hs
  · exact hr
  · exact hn

theorem agrees_gets_bind {f : Machine → α} {g : α → Action Machine β}
    (h : Agrees R (g (f m)) (g (f t)) m t) : Agrees R (.gets f >>= g) (.gets f >>= g) m t := by
  obtain ⟨hs, hr, hn⟩ := h
  refine ⟨?_, ?_, ?_⟩ <;>
    rw [Action.run_bind_of_ok (Action.run_gets f m), Action.run_bind_of_ok (Action.run_gets f t)]
  · exact hs
  · exact hr
  · exact hn

/-! ### Memory -/

/-- A read agrees on machines with the same memory, byte for byte. -/
theorem agrees_read (h : R m t) (ha : m.bus.Alike t.bus)
    (hb : ∀ l, R { m with bus := { m.bus with accesses := m.bus.accesses ++ l } }
      { t with bus := { t.bus with accesses := t.bus.accesses ++ l } }) (a : Int) :
    Agrees R (HasCore.read a : Action Machine UInt8) (HasCore.read a) m t := by
  unfold HasCore.read
  rcases ha.read a with ⟨n, hm, ht⟩ | ⟨e, hm, ht⟩
  · refine ⟨?_, ?_, ?_⟩ <;> dsimp only <;>
      rw [show (HasCore.bus m).read a = _ from hm, show (HasCore.bus t).read a = _ from ht]
    exact hb [.read a n]
  · refine ⟨?_, ?_, ?_⟩ <;> dsimp only <;>
      rw [show (HasCore.bus m).read a = _ from hm, show (HasCore.bus t).read a = _ from ht]
    exact h

theorem agrees_write (h : R m t) (ha : m.bus.Alike t.bus)
    (hb : ∀ b c l, b.Alike c → b.accesses = m.bus.accesses ++ l → c.accesses = t.bus.accesses ++ l →
      R { m with bus := b } { t with bus := c }) (a v : Int) :
    Agrees R (HasCore.write a v : Action Machine Unit) (HasCore.write a v) m t := by
  unfold HasCore.write
  rcases ha.write a v with ⟨n, b, c, hm, ht, hbc, hbl, hcl⟩ | ⟨e, hm, ht⟩
  · refine ⟨?_, ?_, ?_⟩ <;> dsimp only <;>
      rw [show (HasCore.bus m).write a v = _ from hm, show (HasCore.bus t).write a v = _ from ht]
    · exact hb b c [.write a v n] hbc hbl hcl
    · show List.map _ (t.bus.lostWrite? a).toList = List.map _ (m.bus.lostWrite? a).toList
      rw [Bus.lostWrite?_congr ha.layout_eq]
  · refine ⟨?_, ?_, ?_⟩ <;> dsimp only <;>
      rw [show (HasCore.bus m).write a v = _ from hm, show (HasCore.bus t).write a v = _ from ht]
    exact h

/-- Machines that have one bus in common. -/
theorem agrees_read_of_bus_eq (h : R m t) (hb : t.bus = m.bus)
    (hr : ∀ b, R { m with bus := b } { t with bus := b }) (a : Int) :
    Agrees R (HasCore.read a : Action Machine UInt8) (HasCore.read a) m t := by
  have hbus : HasCore.bus t = HasCore.bus m := hb
  unfold HasCore.read
  rcases hm : (HasCore.bus m).read a with e | ⟨n, b⟩
  · refine ⟨?_, ?_, ?_⟩ <;> dsimp only <;> rw [hbus, hm]
    exact h
  · refine ⟨?_, ?_, ?_⟩ <;> dsimp only <;> rw [hbus, hm]
    exact hr b

theorem agrees_write_of_bus_eq (h : R m t) (hb : t.bus = m.bus)
    (hr : ∀ b, R { m with bus := b } { t with bus := b }) (a v : Int) :
    Agrees R (HasCore.write a v : Action Machine Unit) (HasCore.write a v) m t := by
  have hbus : HasCore.bus t = HasCore.bus m := hb
  unfold HasCore.write
  rcases hm : (HasCore.bus m).write a v with e | b
  · refine ⟨?_, ?_, ?_⟩ <;> dsimp only <;> rw [hbus, hm]
    exact h
  · refine ⟨?_, ?_, ?_⟩ <;> dsimp only <;> rw [hbus, hm]
    exact hr b

theorem agrees_onBus_of_bus_eq (h : ∀ b, R { m with bus := b } { t with bus := b })
    (hb : t.bus = m.bus) (a : Action Bus α) : Agrees R (onBus a) (onBus a) m t := by
  refine ⟨?_, ?_, ?_⟩ <;> simp only [onBus, Action.onPart, hb]
  exact h _

/-! ### Keys -/

theorem agrees_onKeypad (h : R m t) (hk : t.keypad = m.keypad)
    (hp : ∀ p, R { m with keypad := p } { t with keypad := p })
    (f : Keypad → Except Keypad.Error Keypad) : Agrees R (onKeypad f) (onKeypad f) m t := by
  rcases hm : f m.keypad with e | p
  · refine ⟨?_, ?_, ?_⟩ <;> simp only [onKeypad, hk, hm]
    exact h
  · refine ⟨?_, ?_, ?_⟩ <;> simp only [onKeypad, hk, hm]
    exact hp p

/-! ### Screens -/

/-- A sprite agrees if the two screens take it alike and may be replaced by one screen. -/
theorem agrees_drawSprite {x y : Int} {rows : List Int} {wrap wrap' : Bool} (h : R m t)
    (hd : t.screen.draw x y rows wrap' = m.screen.draw x y rows wrap)
    (hs : ∀ s, R { m with screen := s } { t with screen := s }) :
    Agrees R (drawSprite x y rows wrap) (drawSprite x y rows wrap') m t := by
  unfold drawSprite
  rcases hm : m.screen.draw x y rows wrap with e | ⟨s, hit⟩
  · rw [hm] at hd
    refine ⟨?_, ?_, ?_⟩ <;> simp only [hm, hd]
    exact h
  · rw [hm] at hd
    refine ⟨?_, ?_, ?_⟩ <;> simp only [hm, hd]
    exact hs s

/-! ### Relations that instructions keep -/

/-- The machines hold the same but for the timers, as far as instructions look, and a change of the
registers, of the memory or of the screen that is made to both leaves them related. -/
structure Coupling (R : Machine → Machine → Prop) : Prop where
  state_eq {m t : Machine} (h : R m t) : t.state = m.state.timed t.state
  put {m t : Machine} (h : R m t) (s : State) :
    R { m with state := s.timed m.state } { t with state := s.timed t.state }
  read {m t : Machine} (h : R m t) (a : Int) :
    Agrees R (HasCore.read a : Action Machine UInt8) (HasCore.read a) m t
  write {m t : Machine} (h : R m t) (a v : Int) :
    Agrees R (HasCore.write a v : Action Machine Unit) (HasCore.write a v) m t
  clear {m t : Machine} (h : R m t) :
    R { m with screen := m.screen.clear } { t with screen := t.screen.clear }
  counted {m t : Machine} (h : R m t) : R m.counted t.counted
  size_eq {m t : Machine} (h : R m t) : t.bus.size = m.bus.size
  accesses_eq {m t : Machine} (h : R m t) : t.bus.accesses = m.bus.accesses
  keypad_eq {m t : Machine} (h : R m t) : t.keypad = m.keypad
  loaded_eq {m t : Machine} (h : R m t) : t.loaded = m.loaded

structure Pairing (R : Machine → Machine → Prop) : Prop extends Coupling R where
  dialect_eq {m t : Machine} (h : R m t) : t.dialect = m.dialect

/-- These two machines bear what this instruction does beyond what any may do, and their dialects make
the same of it. -/
structure SuitsAt (R : Machine → Machine → Prop) (i : Instruction) (m t : Machine) : Prop where
  fatal (hi : i.opcode = .sys) : t.dialect.sysIsFatal = m.dialect.sysIsFatal
  calls (hi : i.opcode = .call) :
    t.dialect.stackDepth = m.dialect.stackDepth ∨
      ¬ m.dialect.stackDepth ≤ m.state.depth ∧ ¬ t.dialect.stackDepth ≤ m.state.depth
  flags (hi : i.Logical) : t.dialect.logicResetsVf = m.dialect.logicResetsVf
  shifts (hi : i.Shifts) :
    State.shiftSource t.dialect i.x i.y = State.shiftSource m.dialect i.x i.y
  jumps (hi : i.opcode = .jumpOffset) :
    (if t.dialect.jumpUsesVx then i.x else Word.v0) =
      if m.dialect.jumpUsesVx then i.x else Word.v0
  ends (hi : i.Transfers) {u v : Machine} (h : R u v) : Agrees R (endBlock i.x) (endBlock i.x) u v
  draws (hi : i.opcode = .draw) {u v : Machine} {rows : List Int} (h : R u v)
    (hs : u.screen = m.screen) (hr : rows.length = i.nibble) :
    Agrees R (drawSprite (m.state.reg i.x) (m.state.reg i.y) rows m.dialect.spriteWrap)
      (drawSprite (m.state.reg i.x) (m.state.reg i.y) rows t.dialect.spriteWrap) u v
  rolls (hi : i.opcode = .random) : Agrees R (random i.x i.byte) (random i.x i.byte) m t
  times (hi : i.Timed) :
    t.state = m.state ∧ ∀ s, R { m with state := s } { t with state := s }

/-- The relation bears what this instruction does beyond what any may do. -/
structure Suits (R : Machine → Machine → Prop) (i : Instruction) : Prop where
  draws {m t : Machine} (hi : i.opcode = .draw) (h : R m t) (x y : Int) (rows : List Int)
    (wrap : Bool) : Agrees R (drawSprite x y rows wrap) (drawSprite x y rows wrap) m t
  rolls {m t : Machine} (hi : i.opcode = .random) (h : R m t) (x : Fin 16) (mask : Nat) :
    Agrees R (random x mask) (random x mask) m t
  times {m t : Machine} (hi : i.Timed) (h : R m t) :
    t.state = m.state ∧ ∀ s, R { m with state := s } { t with state := s }

/-- Reading a sprite gives as many rows as are asked for and leaves the screen alone. -/
theorem readSprite_spec (s : State) (k n : Nat) (m : Machine) :
    (Machine.readSprite s k n).wp (fun rows u => rows.length = n ∧ u.screen = m.screen)
      (fun _ _ => True) m := by
  induction n generalizing k m with
  | zero => exact ⟨rfl, rfl⟩
  | succ n ih =>
    unfold Machine.readSprite
    rw [Action.wp_bind]
    have hread : (HasCore.read (s.indexed k) : Action Machine UInt8).wp
        (fun _ u => u.screen = m.screen) (fun _ _ => True) m := by
      unfold HasCore.read
      cases hr : (HasCore.bus m).read (s.indexed k) <;> simp only [Action.wp, hr]
      rfl
    refine Action.wp_mono hread (fun v u hu => ?_) fun _ _ he => he
    rw [Action.wp_bind]
    refine Action.wp_mono (ih (k + 1) u) (fun rows w hw => ?_) fun _ _ he => he
    exact ⟨congrArg (· + 1) hw.1, hw.2.trans hu⟩

namespace Coupling

variable {f : State → State}

theorem reg (hR : Coupling R) (h : R m t) (x : Fin 16) : t.state.reg x = m.state.reg x := by
  rw [hR.state_eq h]
  rfl

theorem indexed (hR : Coupling R) (h : R m t) : t.state.indexed = m.state.indexed := by
  rw [hR.state_eq h]
  rfl

theorem pc (hR : Coupling R) (h : R m t) : t.state.pc = m.state.pc := by
  rw [hR.state_eq h]
  rfl

theorem lastPc (hR : Coupling R) (h : R m t) : t.state.lastPc = m.state.lastPc := by
  rw [hR.state_eq h]
  rfl

theorem stack (hR : Coupling R) (h : R m t) : t.state.stack = m.state.stack := by
  rw [hR.state_eq h]
  rfl

theorem refusal? (hR : Coupling R) (h : R m t) : t.refusal? = m.refusal? := by
  refine refusal?_congr (hR.loaded_eq h) ?_
  rw [hR.state_eq h]
  rfl

theorem update (hR : Coupling R) (h : R m t) (hf : State.Timeless f) :
    R { m with state := f m.state } { t with state := f t.state } := by
  have hm : f m.state = (f m.state).timed m.state := hf m.state m.state
  have ht := hf m.state t.state
  rw [← hR.state_eq h] at ht
  rw [hm, ht]
  exact hR.put h (f m.state)

theorem modifyState (hR : Coupling R) (h : R m t) (hf : State.Timeless f) :
    Agrees R (modifyState f) (modifyState f) m t :=
  agrees_modify (hR.update h hf)

theorem skipIf (hR : Coupling R) (h : R m t) (b : Bool) : Agrees R (skipIf b) (skipIf b) m t := by
  cases b with
  | true => exact hR.modifyState h fun _ _ => rfl
  | false => exact hR.modifyState h fun _ _ => rfl

theorem writeBlock (hR : Coupling R) (h : R m t) {s r : State} (hs : r.indexed = s.indexed)
    (k : Nat) (l : List Int) : Agrees R (writeBlock s k l) (writeBlock r k l) m t := by
  induction l generalizing k m t with
  | nil => exact agrees_pure h ()
  | cons n l ih =>
    unfold Machine.writeBlock
    rw [hs]
    exact (hR.write h (s.indexed k) n).bind fun _ u v _ huv => ih huv (k + 1)

theorem loadBlock (hR : Coupling R) (h : R m t) {s r : State} (hs : r.indexed = s.indexed)
    (l : List (Fin 16)) : Agrees R (loadBlock s l) (loadBlock r l) m t := by
  induction l generalizing m t with
  | nil => exact agrees_pure h ()
  | cons x l ih =>
    unfold Machine.loadBlock
    rw [hs]
    refine (hR.read h (s.indexed x)).bind fun n u v _ huv => ?_
    exact (hR.modifyState huv fun _ _ => rfl).bind fun _ _ _ _ huv => ih huv

theorem readSprite (hR : Coupling R) (h : R m t) {s r : State} (hs : r.indexed = s.indexed)
    (k n : Nat) : Agrees R (readSprite s k n) (readSprite r k n) m t := by
  induction n generalizing k m t with
  | zero => exact agrees_pure h []
  | succ n ih =>
    unfold Machine.readSprite
    rw [hs]
    refine (hR.read h (s.indexed k)).bind fun n u v _ huv => ?_
    exact (ih huv (k + 1)).bind fun rest _ _ _ huv => agrees_pure huv _

theorem ret (hR : Coupling R) (h : R m t) : Agrees R ret ret m t := by
  refine agrees_gets_bind ?_
  rw [hR.stack h, hR.lastPc h]
  cases m.state.stack with
  | nil => exact agrees_fail h _
  | cons a rest => exact hR.modifyState h fun _ _ => rfl

theorem waitKey (hR : Coupling R) (h : R m t) (x : Fin 16) :
    Agrees R (waitKey x) (waitKey x) m t := by
  refine agrees_gets_bind ?_
  rw [hR.keypad_eq h]
  cases m.keypad.first? with
  | none => exact hR.modifyState h fun _ _ => rfl
  | some k => exact hR.modifyState h fun _ _ => rfl

theorem endBlock (hR : Coupling R) (h : R m t) (x : Fin 16)
    (hd : t.dialect.loadStoreIncrementsI = m.dialect.loadStoreIncrementsI) :
    Agrees R (endBlock x) (endBlock x) m t := by
  refine agrees_modify ?_
  by_cases hi : m.dialect.loadStoreIncrementsI = true
  · rw [if_pos hi, if_pos (hd.trans hi)]
    exact hR.update (f := fun s => { s with index := s.indexed (x + 1) }) h fun _ _ => rfl
  · rw [if_neg hi, if_neg (hd ▸ hi)]
    exact h

theorem call (hR : Coupling R) (h : R m t) (n : Nat)
    (hd : t.dialect.stackDepth = m.dialect.stackDepth ∨
      ¬ m.dialect.stackDepth ≤ m.state.depth ∧ ¬ t.dialect.stackDepth ≤ m.state.depth) :
    Agrees R (call n) (call n) m t := by
  have hdepth : t.state.depth = m.state.depth := by
    unfold State.depth
    rw [hR.stack h]
  have hpush : Agrees R (Machine.modifyState fun s => { s with stack := s.pc :: s.stack, pc := n })
      (Machine.modifyState fun s => { s with stack := s.pc :: s.stack, pc := n }) m t :=
    hR.modifyState h fun _ _ => rfl
  refine agrees_get_bind ?_
  dsimp only
  rw [hdepth]
  rcases hd with hd | ⟨hm, ht⟩
  · rw [hd]
    split
    · exact agrees_fail h _
    · exact hpush
  · rw [if_neg hm, if_neg ht]
    exact hpush

theorem draw (hR : Coupling R) (h : R m t) (x y : Fin 16) (n : Nat)
    (hd : ∀ u v rows, R u v → u.screen = m.screen → rows.length = n →
      Agrees R (drawSprite (m.state.reg x) (m.state.reg y) rows m.dialect.spriteWrap)
        (drawSprite (m.state.reg x) (m.state.reg y) rows t.dialect.spriteWrap) u v) :
    Agrees R (draw x y n) (draw x y n) m t := by
  refine agrees_get_bind ?_
  dsimp only
  rw [hR.reg h, hR.reg h]
  refine (hR.readSprite h (hR.indexed h) 0 n).bind_of_run fun rows u v _ hrun huv => ?_
  obtain ⟨hrows, hscreen⟩ := (Action.wp_of_run_ok hrun).1 (readSprite_spec m.state 0 n m)
  refine (hR.modifyState huv fun _ _ => rfl).bind_of_run fun _ u' v' _ hset huv => ?_
  have hscreen' : u'.screen = m.screen := by
    cases hset
    exact hscreen
  refine (hd u' v' rows huv hscreen' hrows).bind fun hit u v _ huv => ?_
  cases hit with
  | true => exact hR.modifyState (f := (·.setFlag 1)) huv fun _ _ => rfl
  | false => exact agrees_pure huv ()

/-- An instruction that suits them does the same on both machines. -/
theorem agrees_execute {i : Instruction} (hR : Coupling R) (hs : SuitsAt R i m t) (h : R m t) :
    Agrees R (execute i) (execute i) m t := by
  obtain ⟨o, w⟩ := i
  have hk := hR.keypad_eq h
  have hreg := hR.reg h
  have hidx := hR.indexed h
  unfold execute
  refine agrees_get_bind ?_
  cases o with
  | sys =>
    dsimp only
    rw [hs.fatal rfl, hR.lastPc h]
    split
    · exact agrees_fail h _
    · exact agrees_pure h ()
  | cls => exact agrees_modify (hR.clear h)
  | ret => exact hR.ret h
  | call => exact hR.call h _ (hs.calls rfl)
  | skipEqualByte | skipUnequalByte =>
    dsimp only
    rw [hreg]
    exact hR.skipIf h _
  | skipEqual | skipUnequal =>
    dsimp only
    rw [hreg, hreg]
    exact hR.skipIf h _
  | skipPressed | skipReleased =>
    dsimp only
    rw [hreg, hk]
    exact hR.skipIf h _
  | or | and | xor =>
    dsimp only
    simp only [State.or, State.and, State.xor,
      State.endLogic_congr (hs.flags (by simp [Instruction.Logical]))]
    exact hR.modifyState h (State.timeless_endLogic _ fun _ _ => rfl)
  | shiftRight | shiftLeft =>
    have hsource := hs.shifts (by simp [Instruction.Shifts])
    simp only [State.shiftRight, State.shiftLeft, hsource]
    exact hR.modifyState h fun _ _ => rfl
  | jumpOffset =>
    dsimp only
    rw [hs.jumps rfl, hreg]
    exact hR.modifyState h fun _ _ => rfl
  | random => exact hs.rolls rfl
  | draw => exact hR.draw h _ _ _ fun _ _ _ huv => hs.draws rfl huv
  | readDelay =>
    obtain ⟨he, hset⟩ := hs.times (.inl rfl)
    refine agrees_modify ?_
    rw [he]
    exact hset _
  | setDelay =>
    obtain ⟨he, hset⟩ := hs.times (.inr (.inl rfl))
    refine agrees_modify ?_
    rw [he]
    exact hset _
  | setSound =>
    obtain ⟨he, hset⟩ := hs.times (.inr (.inr rfl))
    refine agrees_modify ?_
    rw [he]
    exact hset _
  | waitKey => exact hR.waitKey h _
  | decimal =>
    dsimp only
    rw [hreg]
    exact hR.writeBlock h hidx 0 _
  | store =>
    dsimp only
    rw [show t.state.reg = m.state.reg from funext hreg]
    exact (hR.writeBlock h hidx 0 _).bind fun _ _ _ _ huv => hs.ends (.inl rfl) huv
  | load =>
    exact (hR.loadBlock h hidx _).bind fun _ _ _ _ huv => hs.ends (.inr rfl) huv
  | jump | loadByte | addByte | copy | add | sub | subFrom | loadIndex | addIndex | glyph =>
    exact hR.modifyState h fun _ _ => rfl

end Coupling

/-! ### Steps -/

theorem ofWord?_of_decode {w : Word} {i : Instruction}
    (h : (Processor.decode m w).mapError Error.fault = .ok i) : Instruction.ofWord? w = some i := by
  have hd : (m.decode w).mapError Error.fault = .ok i := h
  unfold decode at hd
  cases hi : Instruction.ofWord? w with
  | none =>
    rw [hi] at hd
    cases hd
  | some j =>
    rw [hi] at hd
    cases hd
    rfl

/-- The next word of the machine is no instruction, or one that suits it and any partner. -/
def SuitsNextAt (R : Machine → Machine → Prop) (m : Machine) : Prop :=
  ∀ high low i v, m.Fetches high low → Instruction.ofWord? (.ofBytes high low) = some i →
    R (m.passed high low) v → SuitsAt R i (m.passed high low) v

/-- The next word of the machine is no instruction, or one that the relation suits. -/
def SuitsNext (R : Machine → Machine → Prop) (m : Machine) : Prop :=
  ∀ w i, (Processor.fetch.run m).result = .ok w → Instruction.ofWord? w = some i → Suits R i

/-- A machine whose step succeeds was about to execute the instruction in the snapshot. -/
theorem suitsNext_of_step {x : Snapshot State} (h : (step.run m).result = .ok x)
    (hs : Suits R x.instruction) : SuitsNext R m.quiet := by
  intro w i hw hi
  obtain ⟨-, u, l, hp⟩ := performed_of_step h
  obtain ⟨v, w', _, _, hfetch, hrest, -⟩ := Action.run_bind_eq_ok.1 hp
  rw [hfetch] at hw
  cases hw
  rw [Action.run_bind_of_ok (Action.run_get v)] at hrest
  obtain ⟨_, j, _, _, hdecode, hrest, -⟩ := Action.run_bind_eq_ok.1 hrest
  obtain ⟨_, _, _, _, -, hrest, -⟩ := Action.run_bind_eq_ok.1 hrest
  obtain ⟨_, _, _, _, -, hpure, -⟩ := Action.run_bind_eq_ok.1 hrest
  have hj : j = x.instruction := Except.ok.inj (congrArg Outcome.result hpure)
  have hi' := ofWord?_of_decode (congrArg Outcome.result hdecode)
  rw [hi] at hi'
  obtain rfl := Option.some.inj hi'
  exact hj ▸ hs

/-- Steps of two machines end related and turn out the same. The snapshots may differ in the count
and in the registers, which each takes from its own machine. -/
structure SameStep (R : Machine → Machine → Prop) (o o' : Outcome Machine (Snapshot State)) :
    Prop where
  state : R o.state o'.state
  result : o'.result =
    o.result.map fun s => { s with cycle := o'.state.cycles, state := o'.state.state }
  notices : o'.notices = o.notices

/-- Where the machines at the end count the same and hold the same registers, so do the snapshots. -/
theorem SameStep.result_eq {o : Outcome Machine (Snapshot State)} (h : SameStep R (step.run m) o)
    (hc : o.state.cycles = (step.run m).state.cycles)
    (hs : o.state.state = (step.run m).state.state) : o.result = (step.run m).result := by
  rw [h.result, hs, hc]
  cases hx : (step.run m).result with
  | error e => rfl
  | ok x =>
    obtain ⟨hcycle, hstate⟩ := snapshot_of_step hx
    simp only [Except.map, ← hcycle, ← hstate]

namespace Coupling

theorem agrees_fetch (hR : Coupling R) (h : R m t) :
    Agrees R (Processor.fetch : Action Machine Word) Processor.fetch m t := by
  unfold Processor.fetch
  refine agrees_get_bind ?_
  have hpc : Processor.pcOf t = Processor.pcOf m := hR.pc h
  have hf : Processor.canFetch t = Processor.canFetch m := by
    show t.canFetch = m.canFetch
    unfold canFetch
    rw [hR.pc h, hR.size_eq h]
  dsimp only
  rw [hpc, hf]
  split
  · refine (hR.read h _).bind fun high _ _ _ huv => ?_
    exact (hR.read huv _).bind fun low _ _ _ huv => agrees_pure huv _
  · exact agrees_fail h _

theorem agrees_decode (hR : Coupling R) (h : R m t) (w : Word) :
    (Processor.decode t w : Except Fault Instruction) = Processor.decode m w := by
  show t.decode w = m.decode w
  unfold decode
  rw [hR.pc h]

theorem agrees_perform (hR : Coupling R) (h : R m.quiet t.quiet) (hr : m.refusal? = none)
    (hs : SuitsNextAt R m) :
    Agrees R (Processor.perform : Action Machine Instruction) Processor.perform m.quiet t.quiet := by
  unfold Processor.perform
  refine (hR.agrees_fetch h).bind_of_run fun w u v _ hrun huv => ?_
  obtain ⟨high, low, hf, rfl, rfl⟩ := exists_fetches_of_run hr hrun
  refine agrees_get_bind ?_
  rw [hR.agrees_decode huv]
  have hd : Agrees R
      (.lift ((Processor.decode (m.fetched high low) (.ofBytes high low)).mapError .fault) :
        Action Machine Instruction)
      (.lift ((Processor.decode (m.fetched high low) (.ofBytes high low)).mapError .fault))
      (m.fetched high low) v := ⟨huv, rfl, rfl⟩
  refine hd.bind_of_run fun i u v _ hdecode huv => ?_
  have hi : Instruction.ofWord? (.ofBytes high low) = some i :=
    ofWord?_of_decode (congrArg Outcome.result hdecode)
  have hadvance := hR.modifyState (f := (·.advance 2)) huv fun _ _ => rfl
  obtain rfl : m.fetched high low = u := congrArg Outcome.state hdecode
  refine Agrees.bind_of_run hadvance fun _ u v _ hpass huv => ?_
  obtain rfl : m.passed high low = u := congrArg Outcome.state hpass
  exact (hR.agrees_execute (hs high low i v hf hi huv) huv).bind fun _ _ _ _ huv =>
    agrees_pure huv i

theorem sameStep (hR : Coupling R) (h : R m.quiet t.quiet) (hs : SuitsNextAt R m) :
    SameStep R (step.run m) (step.run t) := by
  have hpc : t.state.pc = m.state.pc := hR.pc (m := m.quiet) (t := t.quiet) h
  have hrefusal : t.refusal? = m.refusal? := hR.refusal? (m := m.quiet) (t := t.quiet) h
  cases hr : m.refusal? with
  | some f =>
    rw [run_step_refused hr, run_step_refused (hrefusal.trans hr)]
    exact ⟨h, rfl, rfl⟩
  | none =>
    have hr' : t.refusal? = none := hrefusal.trans hr
    obtain ⟨huv, hresult, hnotices⟩ := hR.agrees_perform h hr hs
    rcases hm : (Processor.perform : Action Machine Instruction).run m.quiet with ⟨u, r, l⟩
    rcases ht : (Processor.perform : Action Machine Instruction).run t.quiet with ⟨v, r', l'⟩
    rw [hm, ht] at huv hresult hnotices
    cases hresult
    cases hnotices
    cases r with
    | ok i =>
      have haccesses : v.bus.accesses = u.bus.accesses := hR.accesses_eq huv
      rw [run_step_executed hr hm, run_step_executed hr' ht]
      refine ⟨hR.counted huv, ?_, ?_⟩
      · simp only [Except.map, hpc, haccesses]
        rfl
      · simp only [hpc]
    | error e =>
      by_cases he : ∃ f, e = .fault f
      · obtain ⟨f, rfl⟩ := he
        rw [run_step_faulted hr hm, run_step_faulted hr' ht]
        refine ⟨hR.update (f := fun s => { s with halted := true }) huv fun _ _ => rfl, rfl, ?_⟩
        simp only [hpc]
      · have he : ∀ f, e ≠ .fault f := fun f hf => he ⟨f, hf⟩
        rw [run_step_broke hr hm he, run_step_broke hr' ht he]
        exact ⟨huv, rfl, rfl⟩

end Coupling

/-! ### Pairings -/

theorem Pairing.suitsAt {i : Instruction} (hR : Pairing R) (hs : Suits R i) (h : R m t) :
    SuitsAt R i m t where
  fatal _ := by rw [hR.dialect_eq h]
  calls _ := .inl (by rw [hR.dialect_eq h])
  flags _ := by rw [hR.dialect_eq h]
  shifts _ := by rw [hR.dialect_eq h]
  jumps _ := by rw [hR.dialect_eq h]
  ends _ u v huv := hR.endBlock huv _ (by rw [hR.dialect_eq huv])
  draws hi u v rows huv _ _ := by
    rw [hR.dialect_eq h]
    exact hs.draws hi huv _ _ rows _
  rolls hi := hs.rolls hi h _ _
  times hi := hs.times hi h

theorem sameStep (hR : Pairing R) (h : R m.quiet t.quiet)
    (hs : m.refusal? = none → SuitsNext R m.quiet) : SameStep R (step.run m) (step.run t) := by
  refine hR.toCoupling.sameStep h fun high low i v hf hi hv => ?_
  have hw : (Processor.fetch.run m.quiet).result = .ok (.ofBytes high low) := by
    rw [run_fetch hf.inside hf.high_eq hf.low_eq]
  exact hR.suitsAt (hs hf.ready _ i hw hi) hv

end Machine

end Chip8
