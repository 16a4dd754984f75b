import Chip8.Proofs.Action
import Chip8.Proofs.Machine.Standard
import Chip8.Proofs.Screen
import Chip8.Proofs.State.Ranged

/-!
# What instructions keep

A machine is `WellFormed` if its memory has the standard layout, its screen the usual sides, and its
registers are within their ranges. An instruction leads from a well-formed machine to a well-formed
one and touches the memory by traffic alone (`Kept`). Only three kinds can fail (`Balks`): each of
them fails by a fault, and before it has changed anything (`execute_spec`).
-/

namespace Chip8

namespace Machine

/-- How many return addresses there can be at most, also where the dialect has a depth below zero. -/
def stackLimit (m : Machine) : Int := max 0 m.dialect.stackDepth

theorem stackLimit_nonneg (m : Machine) : 0 ≤ m.stackLimit := Int.le_max_left ..

theorem stackLimit_congr {m t : Machine} (h : t.dialect = m.dialect) :
    t.stackLimit = m.stackLimit := by
  unfold stackLimit
  rw [h]

structure WellFormed (m : Machine) : Prop where
  standard : m.bus.Standard
  screen : m.screen.Usual
  ranged : m.state.Ranged m.stackLimit

/-- What no instruction changes, and how it changes the memory. -/
structure Kept (m t : Machine) : Prop where
  traffic : ∃ as, m.bus.Trafficked as t.bus
  cycles : t.cycles = m.cycles
  keypad : t.keypad = m.keypad
  dialect : t.dialect = m.dialect
  loaded : t.loaded = m.loaded
  halted : t.state.halted = m.state.halted

variable {α β : Type} {m t u : Machine}

namespace Kept

theorem refl (m : Machine) : m.Kept m := ⟨⟨[], .refl _⟩, rfl, rfl, rfl, rfl, rfl⟩

theorem trans (h : m.Kept t) (h' : t.Kept u) : m.Kept u := by
  obtain ⟨as, ht⟩ := h.traffic
  obtain ⟨bs, hu⟩ := h'.traffic
  exact ⟨⟨as ++ bs, ht.trans hu⟩, h'.cycles.trans h.cycles, h'.keypad.trans h.keypad,
    h'.dialect.trans h.dialect, h'.loaded.trans h.loaded, h'.halted.trans h.halted⟩

theorem withState {s : State} (hs : s.halted = m.state.halted) : m.Kept { m with state := s } :=
  ⟨⟨[], .refl _⟩, rfl, rfl, rfl, rfl, hs⟩

theorem withBus {b : Bus} {as : List Access} (hb : m.bus.Trafficked as b) :
    m.Kept { m with bus := b } :=
  ⟨⟨as, hb⟩, rfl, rfl, rfl, rfl, rfl⟩

end Kept

namespace WellFormed

theorem withState {s : State} (h : m.WellFormed) (hs : s.Ranged m.stackLimit) :
    WellFormed { m with state := s } :=
  ⟨h.standard, h.screen, hs⟩

theorem withBus {b : Bus} (h : m.WellFormed) (hb : b.layout = m.bus.layout) :
    WellFormed { m with bus := b } :=
  ⟨h.standard.congr hb, h.screen, h.ranged⟩

theorem mapped {a : Int} (h : m.WellFormed) (ha : 0 ≤ a ∧ a < 0x1000) : m.bus.Mapped a :=
  h.standard.mapped_iff.2 ha

end WellFormed

/-- The action answers, and keeps what instructions keep. -/
def Completes (a : Action Machine α) (m : Machine) : Prop :=
  a.wp (fun _ t => t.WellFormed ∧ m.Kept t) (fun _ _ => False) m

theorem Completes.bind {a : Action Machine α} {f : α → Action Machine β} (ha : Completes a m)
    (hf : ∀ x t, t.WellFormed → m.Kept t → Completes (f x) t) : Completes (a >>= f) m := by
  unfold Completes
  rw [Action.wp_bind]
  refine Action.wp_mono ha (fun x t h => ?_) fun _ _ h => h
  exact Action.wp_mono (hf x t h.1 h.2) (fun _ u hu => ⟨hu.1, h.2.trans hu.2⟩) fun _ _ h => h

theorem completes_pure (hm : m.WellFormed) (x : α) : Completes (pure x : Action Machine α) m :=
  ⟨hm, .refl m⟩

theorem completes_modifyState {f : State → State} (hm : m.WellFormed)
    (hf : (f m.state).Ranged m.stackLimit) (hh : (f m.state).halted = m.state.halted) :
    Completes (modifyState f) m :=
  ⟨hm.withState hf, .withState hh⟩

/-! ### Memory -/

theorem run_read_of_ok {a : Int} {n : UInt8} {b : Bus} (h : m.bus.read a = .ok (n, b)) :
    (HasCore.read a : Action Machine UInt8).run m = ⟨{ m with bus := b }, .ok n, []⟩ := by
  unfold HasCore.read
  dsimp only
  rw [show (HasCore.bus m).read a = _ from h]
  rfl

theorem run_write_of_ok {a n : Int} {b : Bus} (h : m.bus.write a n = .ok b) :
    (HasCore.write a n : Action Machine Unit).run m =
      ⟨{ m with bus := b }, .ok (), (m.bus.lostWrite? a).toList.map (.ignoredWrite n ·)⟩ := by
  unfold HasCore.write
  dsimp only
  rw [show (HasCore.bus m).write a n = _ from h]
  rfl

theorem completes_read {a : Int} (hm : m.WellFormed) (ha : 0 ≤ a ∧ a < 0x1000) :
    Completes (HasCore.read a : Action Machine UInt8) m := by
  obtain ⟨n, b, hr, -⟩ := Bus.exists_read (hm.mapped ha)
  exact (Action.wp_of_run_ok (run_read_of_ok hr)).2
    ⟨hm.withBus (Bus.layout_read hr), .withBus (.read hr (.refl _))⟩

theorem completes_write {a n : Int} (hm : m.WellFormed) (ha : 0 ≤ a ∧ a < 0x1000)
    (hn : 0 ≤ n ∧ n ≤ 0xFF) : Completes (HasCore.write a n : Action Machine Unit) m := by
  obtain ⟨p, hp⟩ := Bus.exists_byte? (hm.mapped ha)
  obtain ⟨b, hb⟩ := Bus.exists_write (hm.mapped ha) fun _ => hn
  exact (Action.wp_of_run_ok (run_write_of_ok hb)).2
    ⟨hm.withBus (Bus.layout_write hb), .withBus (.write hb hp (.refl _))⟩

theorem completes_writeBlock (s : State) (k : Nat) {l : List Int} (hm : m.WellFormed)
    (hl : ∀ n ∈ l, 0 ≤ n ∧ n ≤ 0xFF) : Completes (writeBlock s k l) m := by
  induction l generalizing k m with
  | nil => exact completes_pure hm ()
  | cons n l ih =>
    have hn := hl n (List.mem_cons_self ..)
    exact (completes_write hm (s.indexed_range k) hn).bind fun _ t ht _ =>
      ih (k + 1) ht fun n hn => hl n (List.mem_cons_of_mem _ hn)

theorem completes_loadBlock (s : State) (l : List (Fin 16)) (hm : m.WellFormed) :
    Completes (loadBlock s l) m := by
  induction l generalizing m with
  | nil => exact completes_pure hm ()
  | cons x l ih =>
    refine (completes_read hm (s.indexed_range x)).bind fun n t ht _ => ?_
    have hn := n.toNat_lt
    exact (completes_modifyState ht (ht.ranged.setReg (by omega)) rfl).bind fun _ u hu _ => ih hu

theorem completes_readSprite (s : State) (k n : Nat) (hm : m.WellFormed) :
    Completes (readSprite s k n) m := by
  induction n generalizing k m with
  | zero => exact completes_pure hm []
  | succ n ih =>
    refine (completes_read hm (s.indexed_range k)).bind fun v t ht _ => ?_
    exact (ih (k + 1) ht).bind fun rest u hu _ => completes_pure hu _

theorem completes_endBlock (x : Fin 16) (hm : m.WellFormed) : Completes (endBlock x) m := by
  unfold Completes endBlock
  rw [Action.wp_modify]
  split
  · have := m.state.indexed_range (x + 1)
    exact ⟨hm.withState (hm.ranged.withIndex (by omega)), .withState rfl⟩
  · exact ⟨hm, .refl m⟩

/-! ### Instructions -/

theorem completes_skipIf (b : Bool) (hm : m.WellFormed) (hp : m.state.pc ≤ 0x1000) :
    Completes (skipIf b) m := by
  cases b with
  | true => exact completes_modifyState hm (hm.ranged.advance hp) rfl
  | false => exact completes_modifyState hm hm.ranged rfl

theorem completes_clear (hm : m.WellFormed) :
    Completes (.modify fun m => { m with screen := m.screen.clear }) m :=
  ⟨⟨hm.standard, hm.screen.clear, hm.ranged⟩, ⟨⟨[], .refl _⟩, rfl, rfl, rfl, rfl, rfl⟩⟩

theorem run_drawSprite_of_ok {x y : Int} {rows : List Int} {wrap hit : Bool} {s : Screen}
    (h : m.screen.draw x y rows wrap = .ok (s, hit)) :
    (drawSprite x y rows wrap).run m = ⟨{ m with screen := s }, .ok hit, []⟩ := by
  simp only [drawSprite, h]

theorem completes_drawSprite (x y : Int) (rows : List Int) (wrap : Bool) (hm : m.WellFormed) :
    Completes (drawSprite x y rows wrap) m := by
  obtain ⟨s, hit, hd, hs⟩ := hm.screen.exists_draw x y rows wrap
  exact (Action.wp_of_run_ok (run_drawSprite_of_ok hd)).2
    ⟨⟨hm.standard, hs, hm.ranged⟩, ⟨⟨[], .refl _⟩, rfl, rfl, rfl, rfl, rfl⟩⟩

theorem completes_draw (x y : Fin 16) (n : Nat) (hm : m.WellFormed) :
    Completes (draw x y n) m := by
  unfold draw Completes
  rw [Action.wp_bind, Action.wp_get]
  refine (completes_readSprite _ _ _ hm).bind fun rows t ht _ => ?_
  refine (completes_modifyState ht (ht.ranged.setFlag 0) rfl).bind fun _ u hu _ => ?_
  refine (completes_drawSprite _ _ _ _ hu).bind fun hit v hv _ => ?_
  cases hit with
  | true =>
    show Completes (modifyState (·.setFlag 1)) v
    exact completes_modifyState hv (hv.ranged.setFlag 1) rfl
  | false => exact completes_pure hv ()

theorem completes_waitKey (x : Fin 16) (hm : m.WellFormed)
    (hp : 2 ≤ m.state.pc ∧ m.state.pc ≤ 0x1000) : Completes (waitKey x) m := by
  unfold waitKey Completes
  rw [Action.wp_bind, Action.wp_gets]
  cases m.keypad.first? with
  | none =>
    have hl : 0 ≤ m.state.lastPc ∧ m.state.lastPc ≤ 0x10FE := by
      unfold State.lastPc
      omega
    exact completes_modifyState hm ((hm.ranged.withWaiting true).withPc hl) rfl
  | some k => exact completes_modifyState hm ((hm.ranged.withWaiting false).setReg (by omega)) rfl

theorem completes_random (x : Fin 16) (mask : Nat) (hm : m.WellFormed) (hb : mask < 256) :
    Completes (random x mask) m := by
  have hd : 0 ≤ (m.entropy.draw 256).1 := by
    unfold Entropy.draw
    omega
  have hr := State.and_range hd (b := (mask : Int)) (by omega)
  exact ⟨⟨hm.standard, hm.screen, hm.ranged.setReg hr⟩,
    ⟨⟨[], .refl _⟩, rfl, rfl, rfl, rfl, rfl⟩⟩

theorem completes_call {n : Nat} (hm : m.WellFormed)
    (hp : 2 ≤ m.state.pc ∧ m.state.pc ≤ 0x1000) (hn : n < 0x1000)
    (hd : (m.state.depth : Int) < m.dialect.stackDepth) : Completes (call n) m := by
  unfold call Completes
  rw [Action.wp_bind, Action.wp_get, if_neg (by omega)]
  have hl : (m.state.depth : Int) < m.stackLimit := by
    unfold stackLimit
    omega
  exact completes_modifyState hm (hm.ranged.push hl hp (by omega)) rfl

theorem completes_ret (hm : m.WellFormed) (hs : m.state.stack ≠ []) : Completes ret m := by
  unfold ret Completes
  rw [Action.wp_bind, Action.wp_gets]
  cases ha : m.state.stack with
  | nil => exact absurd ha hs
  | cons a rest => exact completes_modifyState hm (hm.ranged.pop ha) rfl

theorem halted_endLogic (d : Dialect) (s : State) : (State.endLogic d s).halted = s.halted := by
  unfold State.endLogic
  split <;> rfl

theorem byte_lt (i : Instruction) : i.byte < 256 := Nat.mod_lt _ (by decide)

theorem address_lt (i : Instruction) : i.address < 0x1000 := Nat.mod_lt _ (by decide)

/-- The instructions that cannot be carried out, each with the fault that it fails by. -/
inductive Balks (m : Machine) (i : Instruction) : Fault → Prop
  | sys (h : i.opcode = .sys) (hd : m.dialect.sysIsFatal = true) :
    Balks m i (.unknownInstruction i.word (some m.state.lastPc))
  | ret (h : i.opcode = .ret) (hs : m.state.stack = []) :
    Balks m i (.stackUnderflow m.state.lastPc)
  | call (h : i.opcode = .call) (hd : m.dialect.stackDepth ≤ m.state.depth) :
    Balks m i (.stackOverflow i.address m.dialect.stackDepth)

theorem run_execute_of_balks {i : Instruction} {f : Fault} (h : m.Balks i f) :
    (execute i).run m = ⟨m, .error (.fault f), []⟩ := by
  unfold execute
  rw [Action.run_bind_of_ok (Action.run_get m)]
  cases h with
  | sys h hd =>
    simp only [h, if_pos hd]
    rfl
  | ret h hs =>
    simp only [h]
    unfold ret
    rw [Action.run_bind_of_ok (Action.run_gets ..), hs]
    rfl
  | call h hd =>
    simp only [h]
    unfold call
    rw [Action.run_bind_of_ok (Action.run_get m), if_pos hd]
    rfl

theorem completes_execute (hm : m.WellFormed) (hp : 2 ≤ m.state.pc ∧ m.state.pc ≤ 0x1000)
    {i : Instruction} (hi : ∀ f, ¬ m.Balks i f) : Completes (execute i) m := by
  have hb := byte_lt i
  have ha := address_lt i
  have hr := hm.ranged
  unfold execute Completes
  rw [Action.wp_bind, Action.wp_get]
  dsimp only
  cases ho : i.opcode with
  | sys =>
    dsimp only
    rw [if_neg fun hd => hi _ (.sys ho hd)]
    exact completes_pure hm ()
  | cls => exact completes_clear hm
  | ret => exact completes_ret hm fun hs => hi _ (.ret ho hs)
  | jump => exact completes_modifyState hm (hr.withPc (by omega)) rfl
  | call => exact completes_call hm hp ha (Int.not_le.1 fun hd => hi _ (.call ho hd))
  | skipEqualByte => exact completes_skipIf _ hm hp.2
  | skipUnequalByte => exact completes_skipIf _ hm hp.2
  | skipEqual => exact completes_skipIf _ hm hp.2
  | loadByte => exact completes_modifyState hm (hr.setReg (by omega)) rfl
  | addByte => exact completes_modifyState hm (hr.addByte _) rfl
  | copy => exact completes_modifyState hm (hr.setReg (hr.reg _)) rfl
  | or =>
    exact completes_modifyState (f := (State.or m.dialect · i.x i.y)) hm (hr.or _)
      (halted_endLogic ..)
  | and =>
    exact completes_modifyState (f := (State.and m.dialect · i.x i.y)) hm (hr.and _)
      (halted_endLogic ..)
  | xor =>
    exact completes_modifyState (f := (State.xor m.dialect · i.x i.y)) hm (hr.xor _)
      (halted_endLogic ..)
  | add => exact completes_modifyState hm hr.add rfl
  | sub => exact completes_modifyState hm hr.sub rfl
  | shiftRight => exact completes_modifyState hm (hr.shiftRight _) rfl
  | subFrom => exact completes_modifyState hm hr.subFrom rfl
  | shiftLeft => exact completes_modifyState hm (hr.shiftLeft _) rfl
  | skipUnequal => exact completes_skipIf _ hm hp.2
  | loadIndex => exact completes_modifyState hm (hr.withIndex (by omega)) rfl
  | jumpOffset =>
    have hpc (k : Fin 16) : 0 ≤ (i.address + m.state.reg k) % 0x10000 ∧
        (i.address + m.state.reg k) % 0x10000 ≤ 0x10FE := by
      have hk := hr.reg k
      omega
    exact completes_modifyState hm (hr.withPc (hpc _)) rfl
  | random => exact completes_random _ _ hm hb
  | draw => exact completes_draw _ _ _ hm
  | skipPressed => exact completes_skipIf _ hm hp.2
  | skipReleased => exact completes_skipIf _ hm hp.2
  | readDelay => exact completes_modifyState hm (hr.setReg hr.delay) rfl
  | waitKey => exact completes_waitKey _ hm hp
  | setDelay => exact completes_modifyState hm (hr.withDelay (hr.reg _)) rfl
  | setSound => exact completes_modifyState hm (hr.withSound (hr.reg _)) rfl
  | addIndex => exact completes_modifyState hm (hr.withIndex (by omega)) rfl
  | glyph => exact completes_modifyState hm (hr.withIndex (State.glyph_range _)) rfl
  | decimal =>
    exact completes_writeBlock _ _ hm (State.decimalDigits_range (hr.reg _))
  | store =>
    refine (completes_writeBlock _ _ hm fun n hn => ?_).bind fun _ t ht _ => completes_endBlock _ ht
    obtain ⟨y, -, rfl⟩ := List.mem_map.1 hn
    exact hr.reg y
  | load =>
    exact (completes_loadBlock _ _ hm).bind fun _ t ht _ => completes_endBlock _ ht

/-- There is no other way for an instruction to fail. -/
theorem balks_of_run_execute (hm : m.WellFormed) (hp : 2 ≤ m.state.pc ∧ m.state.pc ≤ 0x1000)
    {i : Instruction} {e : Error} {l : List Notice} (h : (execute i).run m = ⟨t, .error e, l⟩) :
    ∃ f, m.Balks i f ∧ t = m ∧ e = .fault f ∧ l = [] := by
  by_cases hb : ∃ f, m.Balks i f
  · obtain ⟨f, hf⟩ := hb
    rw [run_execute_of_balks hf] at h
    cases h
    exact ⟨f, hf, rfl, rfl, rfl⟩
  · have hc := completes_execute hm hp fun f hf => hb ⟨f, hf⟩
    exact ((Action.wp_of_run_error h).1 hc).elim

/-- The action keeps what instructions keep, or fails by a fault that leaves all as it was. -/
def CompletesOrFaults (a : Action Machine α) (m : Machine) : Prop :=
  a.wp (fun _ t => t.WellFormed ∧ m.Kept t) (fun e t => t = m ∧ ∃ f, e = .fault f) m

theorem execute_spec (hm : m.WellFormed) (hp : 2 ≤ m.state.pc ∧ m.state.pc ≤ 0x1000)
    (i : Instruction) : CompletesOrFaults (execute i) m := by
  by_cases h : ∃ f, m.Balks i f
  · obtain ⟨f, hf⟩ := h
    exact (Action.wp_of_run_error (run_execute_of_balks hf)).2 ⟨rfl, f, rfl⟩
  · have hi := completes_execute hm hp fun f hf => h ⟨f, hf⟩
    exact Action.wp_mono hi (fun _ _ h => h) fun _ _ h => h.elim

end Machine

end Chip8
