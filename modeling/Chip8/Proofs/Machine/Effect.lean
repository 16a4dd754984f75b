import Chip8.Proofs.Bus.Record
import Chip8.Proofs.Machine.Execute

/-!
# What instructions change

`Instruction.Changes` lists the parts of a machine that an instruction may change, and
`Instruction.requests` what it asks of the memory. An instruction that is carried out does nothing
beyond that (`causes_execute`): all other parts stay the same, its traffic is what it asks for, in
this order, and it gives no notices but those of lost writes.
-/

namespace Chip8

namespace Machine

/-- What a machine consists of, the count of its instructions aside. -/
inductive Part where
  | register (x : Fin 16)
  | index
  | pc
  | stack
  | delay
  | sound
  | halted
  | waiting
  | memory
  | screen
  | keypad
  | dialect
  | entropy
  | loaded
deriving DecidableEq, Repr

def Part.Same (m t : Machine) : Part → Prop
  | .register x => t.state.reg x = m.state.reg x
  | .index => t.state.index = m.state.index
  | .pc => t.state.pc = m.state.pc
  | .stack => t.state.stack = m.state.stack
  | .delay => t.state.delay = m.state.delay
  | .sound => t.state.sound = m.state.sound
  | .halted => t.state.halted = m.state.halted
  | .waiting => t.state.waitingForKey = m.state.waitingForKey
  | .memory => ∀ a, t.bus.byte? a = m.bus.byte? a
  | .screen => t.screen = m.screen
  | .keypad => t.keypad = m.keypad
  | .dialect => t.dialect = m.dialect
  | .entropy => t.entropy = m.entropy
  | .loaded => t.loaded = m.loaded

end Machine

namespace Instruction

-- the one proof that all numerals for registers below take
local instance neZero_sixteen : @NeZero Nat Zero.ofOfNat0 16 := ⟨Nat.succ_ne_zero 15⟩

/-- The parts that an instruction may change. Under `pc` stand those that may lead elsewhere than
behind themselves. -/
def Changes (d : Dialect) (i : Instruction) : Machine.Part → Prop
  | .register r =>
    match i.opcode with
    | .loadByte | .addByte | .copy | .random | .readDelay | .waitKey => r = i.x
    | .or | .and | .xor => r = i.x ∨ d.logicResetsVf = true ∧ r = 15
    | .add | .sub | .shiftRight | .subFrom | .shiftLeft => r = i.x ∨ r = 15
    | .draw => r = 15
    | .load => r ≤ i.x
    | _ => False
  | .index =>
    match i.opcode with
    | .loadIndex | .addIndex | .glyph => True
    | .store | .load => d.loadStoreIncrementsI = true
    | _ => False
  | .pc =>
    match i.opcode with
    | .ret | .jump | .call | .jumpOffset | .waitKey => True
    | .skipEqualByte | .skipUnequalByte | .skipEqual | .skipUnequal => True
    | .skipPressed | .skipReleased => True
    | _ => False
  | .stack => i.opcode = .call ∨ i.opcode = .ret
  | .delay => i.opcode = .setDelay
  | .sound => i.opcode = .setSound
  | .waiting => i.opcode = .waitKey
  | .memory => i.opcode = .decimal ∨ i.opcode = .store
  | .screen => i.opcode = .cls ∨ i.opcode = .draw
  | .entropy => i.opcode = .random
  | .halted | .keypad | .dialect | .loaded => False

/-- What an instruction asks of the memory, given the registers that it finds. -/
def requests (s : State) (i : Instruction) : List Request :=
  match i.opcode with
  | .draw => (List.range i.nibble).map fun k => .read (s.indexed k)
  | .decimal =>
    [.write (s.indexed 0) (s.reg i.x / 100), .write (s.indexed 1) (s.reg i.x / 10 % 10),
      .write (s.indexed 2) (s.reg i.x % 10)]
  | .store => (List.range (i.x + 1)).map fun k => .write (s.indexed k) (s.reg (Fin.ofNat 16 k))
  | .load => (List.range (i.x + 1)).map fun k => .read (s.indexed k)
  | _ => []

end Instruction

namespace Machine

variable {α β : Type} {P : Part → Prop} {rs qs : List Request} {m t u : Machine} {s : State}
  {x : Fin 16}

namespace Part.Same

theorem refl (p : Part) (m : Machine) : p.Same m m := by
  cases p with
  | memory => exact fun _ => rfl
  | _ => rfl

theorem trans {p : Part} (h : p.Same m t) (h' : p.Same t u) : p.Same m u := by
  cases p with
  | memory => exact fun a => (h' a).trans (h a)
  | _ => exact Eq.trans h' h

end Part.Same

/-- The machines differ at most in parts from a set. -/
def ChangesOnly (P : Part → Prop) (m t : Machine) : Prop := ∀ p, ¬ P p → p.Same m t

namespace ChangesOnly

theorem refl (m : Machine) : ChangesOnly P m m := fun p _ => .refl p m

theorem trans (h : ChangesOnly P m t) (h' : ChangesOnly P t u) : ChangesOnly P m u :=
  fun p hp => (h p hp).trans (h' p hp)

theorem setReg (h : ChangesOnly P m { m with state := s }) (hx : P (.register x))
    (n : Int) : ChangesOnly P m { m with state := s.setReg x n } := by
  intro p hp
  cases p with
  | register y =>
    have hne : x ≠ y := fun e => hp (e ▸ hx)
    show (s.setReg x n).reg y = m.state.reg y
    rw [State.reg_setReg, if_neg hne]
    exact h _ hp
  | _ => exact h _ hp

theorem setFlag (h : ChangesOnly P m { m with state := s }) (hx : P (.register 15))
    (n : Int) : ChangesOnly P m { m with state := s.setFlag n } :=
  h.setReg hx _

theorem endLogic {d : Dialect} (h : ChangesOnly P m { m with state := s })
    (hx : d.logicResetsVf = true → P (.register 15)) :
    ChangesOnly P m { m with state := State.endLogic d s } := by
  unfold State.endLogic
  split
  · exact h.setFlag (hx ‹_›) 0
  · exact h

theorem withIndex (h : ChangesOnly P m { m with state := s }) (hp : P .index) (n : Int) :
    ChangesOnly P m { m with state := { s with index := n } } := by
  intro p hn
  cases p with
  | index => exact absurd hp hn
  | _ => exact h _ hn

theorem withPc (h : ChangesOnly P m { m with state := s }) (hp : P .pc) (n : Int) :
    ChangesOnly P m { m with state := { s with pc := n } } := by
  intro p hn
  cases p with
  | pc => exact absurd hp hn
  | _ => exact h _ hn

theorem withStack (h : ChangesOnly P m { m with state := s }) (hp : P .stack) (l : List Int) :
    ChangesOnly P m { m with state := { s with stack := l } } := by
  intro p hn
  cases p with
  | stack => exact absurd hp hn
  | _ => exact h _ hn

theorem withDelay (h : ChangesOnly P m { m with state := s }) (hp : P .delay) (n : Int) :
    ChangesOnly P m { m with state := { s with delay := n } } := by
  intro p hn
  cases p with
  | delay => exact absurd hp hn
  | _ => exact h _ hn

theorem withSound (h : ChangesOnly P m { m with state := s }) (hp : P .sound) (n : Int) :
    ChangesOnly P m { m with state := { s with sound := n } } := by
  intro p hn
  cases p with
  | sound => exact absurd hp hn
  | _ => exact h _ hn

theorem withWaiting (h : ChangesOnly P m { m with state := s }) (hp : P .waiting) (b : Bool) :
    ChangesOnly P m { m with state := { s with waitingForKey := b } } := by
  intro p hn
  cases p with
  | waiting => exact absurd hp hn
  | _ => exact h _ hn

theorem withScreen {d : Screen} (h : P .screen) : ChangesOnly P m { m with screen := d } := by
  intro p hn
  cases p with
  | screen => exact absurd h hn
  | _ => exact refl m _ hn

theorem withEntropy {e : Entropy} (h : P .entropy) : ChangesOnly P m { m with entropy := e } := by
  intro p hn
  cases p with
  | entropy => exact absurd h hn
  | _ => exact refl m _ hn

theorem withBus {b : Bus} (h : ¬ P .memory → ∀ a, b.byte? a = m.bus.byte? a) :
    ChangesOnly P m { m with bus := b } := by
  intro p hn
  cases p with
  | memory => exact h hn
  | _ => exact refl m _ hn

end ChangesOnly

/-- Only parts from a set change, what is asked of the memory are the requests, and the notices are
those of lost writes. -/
structure Effect (P : Part → Prop) (rs : List Request) (m t : Machine) (l : List Notice) : Prop where
  changes : ChangesOnly P m t
  traffic : ∃ as, m.bus.Trafficked as t.bus ∧ as.map Access.request = rs ∧ l = m.bus.losses as

/-- If the action answers, this is the effect it has had. -/
def Causes (P : Part → Prop) (rs : List Request) (a : Action Machine α) (m : Machine) : Prop :=
  ∀ ⦃x t l⦄, a.run m = ⟨t, .ok x, l⟩ → Effect P rs m t l

theorem Effect.of_changes (h : ChangesOnly P m t) (hb : t.bus = m.bus) : Effect P [] m t [] :=
  ⟨h, [], hb ▸ .refl _, rfl, rfl⟩

theorem Effect.trans {early late : List Notice} (h : Effect P rs m t early)
    (h' : Effect P qs t u late) : Effect P (rs ++ qs) m u (early ++ late) := by
  obtain ⟨as, ht, rfl, rfl⟩ := h.traffic
  obtain ⟨bs, hu, rfl, rfl⟩ := h'.traffic
  refine ⟨h.changes.trans h'.changes, as ++ bs, ht.trans hu, List.map_append, ?_⟩
  rw [Bus.losses_append, Bus.losses_congr ht.layout_eq]

theorem Causes.bind {a : Action Machine α} {f : α → Action Machine β} (ha : Causes P rs a m)
    (hf : ∀ x t, ChangesOnly P m t → Causes P qs (f x) t) : Causes P (rs ++ qs) (a >>= f) m := by
  intro y u l h
  obtain ⟨t, x, early, late, hr, hr', rfl⟩ := Action.run_bind_eq_ok.1 h
  have ht := ha hr
  exact ht.trans (hf x t ht.changes hr')

theorem causes_get_bind {f : Machine → Action Machine β} (h : Causes P rs (f m) m) :
    Causes P rs (.get >>= f) m := by
  intro x t l hr
  rw [Action.run_bind_of_ok (Action.run_get m)] at hr
  exact h hr

theorem causes_gets_bind {g : Machine → α} {f : α → Action Machine β} (h : Causes P rs (f (g m)) m) :
    Causes P rs (.gets g >>= f) m := by
  intro x t l hr
  rw [Action.run_bind_of_ok (Action.run_gets g m)] at hr
  exact h hr

theorem causes_pure (x : α) : Causes P [] (pure x : Action Machine α) m := by
  intro y t l h
  cases h
  exact .of_changes (.refl m) rfl

theorem causes_fail (e : Error) : Causes P rs (.fail e : Action Machine α) m := by
  intro x t l h
  cases h

theorem causes_modify {f : Machine → Machine} (h : ChangesOnly P m (f m))
    (hb : (f m).bus = m.bus) : Causes P [] (.modify f) m := by
  intro x t l hr
  cases hr
  exact .of_changes h hb

theorem causes_modifyState {f : State → State} (h : ChangesOnly P m { m with state := f m.state }) :
    Causes P [] (modifyState f) m :=
  causes_modify h rfl

/-! ### Memory -/

theorem causes_read (a : Int) : Causes P [.read a] (HasCore.read a : Action Machine UInt8) m := by
  intro x t l h
  cases hr : m.bus.read a with
  | error e =>
    unfold HasCore.read at h
    dsimp only at h
    rw [show (HasCore.bus m).read a = _ from hr] at h
    cases h
  | ok r =>
    obtain ⟨n, b⟩ := r
    unfold HasCore.read at h
    dsimp only at h
    rw [show (HasCore.bus m).read a = _ from hr] at h
    cases h
    exact ⟨.withBus fun _ => Bus.byte?_read hr, [.read a x], .read hr (.refl _), rfl, rfl⟩

theorem causes_write (a n : Int) (hp : P .memory) :
    Causes P [.write a n] (HasCore.write a n : Action Machine Unit) m := by
  intro x t l h
  cases hw : m.bus.write a n with
  | error e =>
    unfold HasCore.write at h
    dsimp only at h
    rw [show (HasCore.bus m).write a n = _ from hw] at h
    cases h
  | ok b =>
    unfold HasCore.write at h
    dsimp only at h
    rw [show (HasCore.bus m).write a n = _ from hw] at h
    cases h
    obtain ⟨p, -, hb, -⟩ := Bus.write_eq_ok_iff.1 hw
    exact ⟨.withBus fun hn => absurd hp hn, [.write a n p], .write hw hb (.refl _), rfl,
      (Bus.losses_write m.bus a n p).symm⟩

theorem causes_writeBlock (s : State) (k : Nat) (l : List Int) (hp : P .memory) :
    Causes P ((l.zipIdx k).map fun nj => .write (s.indexed nj.2) nj.1) (writeBlock s k l) m := by
  induction l generalizing k m with
  | nil => exact causes_pure ()
  | cons n l ih => exact (causes_write (s.indexed k) n hp).bind fun _ _ _ => ih (k + 1)

theorem causes_loadBlock (s : State) (l : List (Fin 16)) (hl : ∀ x ∈ l, P (.register x)) :
    Causes P (l.map fun x : Fin 16 => .read (s.indexed x)) (loadBlock s l) m := by
  induction l generalizing m with
  | nil => exact causes_pure ()
  | cons x l ih =>
    obtain ⟨hx, hl⟩ := List.forall_mem_cons.1 hl
    refine (causes_read (s.indexed x)).bind fun n t _ => ?_
    exact (causes_modifyState (.setReg (.refl t) hx _)).bind fun _ _ _ => ih hl

theorem causes_readSprite (s : State) (k n : Nat) :
    Causes P ((List.range' k n).map fun j => .read (s.indexed j)) (readSprite s k n) m := by
  induction n generalizing k m with
  | zero => exact causes_pure []
  | succ n ih =>
    have hrest (v : UInt8) (t : Machine) :
        Causes P ((List.range' (k + 1) n).map fun j => .read (s.indexed j))
          (readSprite s (k + 1) n >>= fun rest => pure ((v.toNat : Int) :: rest)) t := by
      have h := (ih (k + 1) (m := t)).bind fun rest _ _ => causes_pure ((v.toNat : Int) :: rest)
      rwa [List.append_nil] at h
    exact (causes_read (s.indexed k)).bind fun v t _ => hrest v t

theorem causes_endBlock (x : Fin 16) (hp : m.dialect.loadStoreIncrementsI = true → P .index) :
    Causes P [] (endBlock x) m := by
  refine causes_modify ?_ ?_
  · split
    · exact .withIndex (.refl m) (hp ‹_›) _
    · exact .refl m
  · split <;> rfl

/-! ### Instructions -/

theorem causes_setReg {f : State → Int} (hx : P (.register x)) :
    Causes P [] (modifyState fun s => s.setReg x (f s)) m :=
  causes_modifyState (.setReg (.refl m) hx _)

theorem causes_skipIf (b : Bool) (hp : P .pc) : Causes P [] (skipIf b) m := by
  cases b with
  | true => exact causes_modifyState (.withPc (.refl m) hp _)
  | false => exact causes_modifyState (.refl m)

theorem causes_drawSprite (x y : Int) (rows : List Int) (wrap : Bool) (hp : P .screen) :
    Causes P [] (drawSprite x y rows wrap) m := by
  intro hit t l h
  unfold drawSprite at h
  dsimp only at h
  split at h
  · cases h
    exact .of_changes (.withScreen hp) rfl
  · cases h

theorem causes_draw (x y : Fin 16) (n : Nat) (hf : P (.register 15)) (hp : P .screen) :
    Causes P ((List.range n).map fun k => .read (m.state.indexed k)) (draw x y n) m := by
  rw [List.range_eq_range', ← List.append_nil (List.map ..)]
  refine causes_get_bind ((causes_readSprite m.state 0 n).bind fun rows t _ => ?_)
  refine (causes_modifyState (.setFlag (.refl t) hf 0)).bind fun _ u _ => ?_
  refine (causes_drawSprite _ _ rows _ hp).bind fun hit v _ => ?_
  cases hit with
  | true => exact causes_modifyState (f := (·.setFlag 1)) (.setFlag (.refl v) hf 1)
  | false => exact causes_pure ()

theorem causes_waitKey (x : Fin 16) (hx : P (.register x)) (hw : P .waiting) (hp : P .pc) :
    Causes P [] (waitKey x) m := by
  refine causes_gets_bind ?_
  cases m.keypad.first? with
  | none =>
    exact causes_modifyState (.withPc (.withWaiting (.refl m) hw true) hp m.state.lastPc)
  | some k => exact causes_modifyState (.setReg (.withWaiting (.refl m) hw false) hx k)

theorem causes_random (x : Fin 16) (mask : Nat) (hx : P (.register x)) (he : P .entropy) :
    Causes P [] (random x mask) m :=
  have h : ChangesOnly P m { m with entropy := (m.entropy.draw 256).2 } := .withEntropy he
  causes_modify (h.trans (.setReg (.refl _) hx _)) rfl

theorem causes_call (n : Nat) (hs : P .stack) (hp : P .pc) : Causes P [] (call n) m := by
  refine causes_get_bind ?_
  dsimp only
  split
  · exact causes_fail _
  · have h := (ChangesOnly.refl m).withStack hs (m.state.pc :: m.state.stack)
    exact causes_modifyState (h.withPc hp n)

theorem causes_ret (hs : P .stack) (hp : P .pc) : Causes P [] ret m := by
  refine causes_gets_bind ?_
  cases m.state.stack with
  | nil => exact causes_fail _
  | cons a rest => exact causes_modifyState (.withPc (.withStack (.refl m) hs rest) hp a)

theorem upTo_eq (x : Fin 16) : upTo x = (List.range (x + 1)).map (Fin.ofNat 16) := by
  revert x
  decide

theorem le_of_mem_upTo {x y : Fin 16} (h : y ∈ upTo x) : y ≤ x := by
  simpa [upTo] using h

theorem requests_store (s : State) (x : Fin 16) :
    (((upTo x).map s.reg).zipIdx.map fun nj => Request.write (s.indexed nj.2) nj.1) =
      (List.range (x + 1)).map fun k => .write (s.indexed k) (s.reg (Fin.ofNat 16 k)) := by
  rw [upTo_eq]
  exact List.ext_getElem (by simp) fun k _ _ => by simp

theorem requests_load (s : State) (x : Fin 16) :
    ((upTo x).map fun y : Fin 16 => Request.read (s.indexed y)) =
      (List.range (x + 1)).map fun k => .read (s.indexed k) := by
  rw [upTo_eq, List.map_map]
  refine List.map_congr_left fun k hk => ?_
  have hlt : k < 16 := by
    have := List.mem_range.1 hk
    omega
  show Request.read (s.indexed (k % 16)) = _
  rw [Nat.mod_eq_of_lt hlt]

/-- An instruction that is carried out has no effect but what it is listed with. -/
theorem causes_execute (m : Machine) (i : Instruction) :
    Causes (i.Changes m.dialect) (i.requests m.state) (execute i) m := by
  -- Once the kind is a constructor, both lists compute, and being in them holds by definition.
  obtain ⟨o, w⟩ := i
  unfold execute
  refine causes_get_bind ?_
  cases o with
  | sys =>
    dsimp only
    split
    · exact causes_fail _
    · exact causes_pure ()
  | cls => exact causes_modify (.withScreen (.inl rfl)) rfl
  | ret => exact causes_ret (.inr rfl) trivial
  | jump | jumpOffset => exact causes_modifyState (.withPc (.refl m) trivial _)
  | call => exact causes_call _ (.inl rfl) trivial
  | skipEqualByte | skipUnequalByte | skipEqual | skipUnequal | skipPressed | skipReleased =>
    exact causes_skipIf _ trivial
  | loadByte | copy | readDelay => exact causes_setReg rfl
  | addByte => exact causes_setReg (f := fun s => (s.reg w.x + w.byte) % 256) rfl
  | or | and | xor =>
    exact causes_modifyState
      (.endLogic (.setReg (.refl m) (.inl rfl) _) fun hd => .inr ⟨hd, rfl⟩)
  | add | sub | shiftRight | subFrom | shiftLeft =>
    exact causes_modifyState (.setFlag (.setReg (.refl m) (.inl rfl) _) (.inr rfl) _)
  | loadIndex | addIndex | glyph => exact causes_modifyState (.withIndex (.refl m) trivial _)
  | random => exact causes_random _ _ rfl rfl
  | draw => exact causes_draw _ _ _ rfl (.inr rfl)
  | waitKey => exact causes_waitKey _ rfl rfl trivial
  | setDelay =>
    have h : Instruction.Changes m.dialect ⟨.setDelay, w⟩ .delay := rfl
    exact causes_modifyState (.withDelay (.refl m) h _)
  | setSound =>
    have h : Instruction.Changes m.dialect ⟨.setSound, w⟩ .sound := rfl
    exact causes_modifyState (.withSound (.refl m) h _)
  | decimal => exact causes_writeBlock _ 0 (State.decimalDigits _) (.inl rfl)
  | store =>
    rw [show Instruction.requests m.state ⟨.store, w⟩ = _ from (requests_store m.state w.x).symm,
      ← List.append_nil (List.map ..)]
    refine (causes_writeBlock m.state 0 _ (.inr rfl)).bind fun _ t h => causes_endBlock _ fun hd => ?_
    rwa [show t.dialect = m.dialect from h .dialect id] at hd
  | load =>
    rw [show Instruction.requests m.state ⟨.load, w⟩ = _ from (requests_load m.state w.x).symm,
      ← List.append_nil (List.map ..)]
    refine (causes_loadBlock m.state (upTo w.x) fun _ => le_of_mem_upTo).bind fun _ t h =>
      causes_endBlock _ fun hd => ?_
    rwa [show t.dialect = m.dialect from h .dialect id] at hd

end Machine

end Chip8
