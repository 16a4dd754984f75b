import Chip8.Proofs.Machine.Frame

/-!
# Subroutines

A call puts the address behind itself on the stack and a return takes the latest address off it; no
other instruction touches the stack (`Moves`). `m.Above n t`: a run leads from `m` to `t` while more
than `n` return addresses are there. Such a run keeps the lower part of the stack as it is
(`Above.suffix`), so that the return which ends it leads behind the call that began it, whatever has
been called in between and whatever the program has done to its own code (`ret_of_call`).
-/

namespace Chip8.Machine

variable {m t u v : Machine} {s r : Snapshot State} {l l' : List Notice}

/-- What an instruction of a kind does to the stack, on the way from `m` to `t`. -/
inductive Moves (m t : Machine) : Opcode → Prop
  | pushed (h : t.state.stack = (m.state.pc + 2) :: m.state.stack) : Moves m t .call
  | popped (h : m.state.stack = t.state.pc :: t.state.stack) : Moves m t .ret
  | kept {o : Opcode} (hc : o ≠ .call) (hr : o ≠ .ret) (h : t.state.stack = m.state.stack) :
    Moves m t o

theorem wp_call_stack (n : Nat) :
    (call n).wp (fun _ t => t.state.stack = m.state.pc :: m.state.stack) (fun _ _ => True) m := by
  unfold call
  rw [Action.wp_bind, Action.wp_get]
  dsimp only
  split
  · trivial
  · rfl

theorem wp_ret_stack :
    ret.wp (fun _ t => m.state.stack = t.state.pc :: t.state.stack) (fun _ _ => True) m := by
  unfold ret
  rw [Action.wp_bind, Action.wp_gets]
  cases hs : m.state.stack with
  | nil => trivial
  | cons a rest => rfl

theorem layout_step (hm : m.bus.Standard) (h : step.run m = ⟨t, .ok s, l⟩) :
    t.bus.layout = m.bus.layout := by
  have hs := stepped hm
  rw [h] at hs
  cases hs with
  | executed hf hi hx =>
    obtain ⟨as, ht, -⟩ := (causes_execute _ _ hx).traffic
    exact ht.layout_eq

theorem address_step (hm : m.bus.Standard) (h : step.run m = ⟨t, .ok s, l⟩) :
    s.address = m.state.pc := by
  have hs := stepped hm
  rw [h] at hs
  cases hs with
  | executed hf hi hx => rfl

theorem moves_step (hm : m.bus.Standard) (h : step.run m = ⟨t, .ok s, l⟩) :
    m.Moves t s.instruction.opcode := by
  have hs := stepped hm
  rw [h] at hs
  cases hs with
  | @executed high low i t l hf hi hx =>
    have hpc := passed_pc hm hf
    obtain ⟨o, w⟩ := i
    have hc := (causes_execute _ _ hx).changes .stack
    unfold execute at hx
    rw [Action.run_bind_of_ok (Action.run_get _)] at hx
    cases o with
    | call =>
      have ht := (Action.wp_of_run_ok hx).1 (wp_call_stack _)
      rw [hpc] at ht
      exact .pushed ht
    | ret => exact .popped ((Action.wp_of_run_ok hx).1 wp_ret_stack)
    | _ => exact .kept (by simp) (by simp) (hc (by simp [Instruction.Changes]))

/-- The machines that a run comes to while more than `n` return addresses are there. The host may do
anything in between but reset the machine and switch it off. -/
inductive Above (n : Nat) (m : Machine) : Machine → Prop
  | refl : Above n m m
  | step {t u : Machine} {s : Snapshot State} {l : List Notice} (h : Above n m t)
    (hs : step.run t = ⟨u, .ok s, l⟩) (hn : n < u.state.depth) : Above n m u
  | deed {t : Machine} {c : Deed} (h : Above n m t)
    (hc : c ≠ .step ∧ c ≠ .reset ∧ c ≠ .powerCycle) : Above n m (c.run t)

variable {base : List Int} {n : Nat} {o : Opcode}

theorem Moves.suffix (h : t.Moves u o) (hb : base <:+ t.state.stack)
    (hn : base.length ≤ u.state.depth) : base <:+ u.state.stack := by
  cases h with
  | pushed hu =>
    rw [hu]
    exact hb.trans (List.suffix_cons ..)
  | popped ht =>
    rw [ht] at hb
    rcases List.suffix_cons_iff.1 hb with he | hb
    · rw [he, List.length_cons] at hn
      unfold State.depth at hn
      omega
    · exact hb
  | kept _ _ hu =>
    rw [hu]
    exact hb

theorem stack_deed {c : Deed} (hm : m.bus.Standard)
    (hc : c ≠ .step ∧ c ≠ .reset ∧ c ≠ .powerCycle) :
    (c.run m).bus.Standard ∧ (c.run m).state.stack = m.state.stack := by
  have hd := done hm c
  generalize c.run m = t at hd
  cases hd with
  | @loaded data => exact ⟨hm.congr (Bus.layout_loadAll m.bus programStart data), rfl⟩
  | refused | tickTimers | press | release | clearKeys => exact ⟨hm, rfl⟩
  | step | reset | powerCycle => simp at hc

/-- A run does not touch the part of the stack that it stays above. -/
theorem Above.suffix (h : m.Above n t) (hm : m.bus.Standard) (hb : base <:+ m.state.stack)
    (hn : base.length = n + 1) : t.bus.Standard ∧ base <:+ t.state.stack := by
  induction h with
  | refl => exact ⟨hm, hb⟩
  | step _ hs hd ih =>
    obtain ⟨ht, hb⟩ := ih
    refine ⟨ht.congr (layout_step ht hs), (moves_step ht hs).suffix hb ?_⟩
    omega
  | deed _ hc ih =>
    obtain ⟨ht, hb⟩ := ih
    obtain ⟨hu, hstack⟩ := stack_deed ht hc
    rw [hstack]
    exact ⟨hu, hb⟩

/-- Where the stack gets shorter than a lower part of it was, that part began with the address that
the program returned to. -/
theorem Moves.popped_of_suffix (h : u.Moves v o) (hb : base <:+ u.state.stack)
    (hn : v.state.depth < base.length) : o = .ret ∧ base = v.state.pc :: v.state.stack := by
  have hlen := hb.length_le
  unfold State.depth at hn
  cases h with
  | pushed hv =>
    rw [hv, List.length_cons] at hn
    omega
  | popped hu =>
    rw [hu] at hb
    rcases List.suffix_cons_iff.1 hb with he | hb
    · exact ⟨rfl, he⟩
    · have := hb.length_le
      omega
  | kept _ _ hv =>
    rw [hv] at hn
    omega

/-- Let a call lead from `m` to `t`, and a run that stays above the stack of `m` from there to `u`.
If a step of `u` brings the stack back to the depth of `m`, it returns behind the call, and the stack
is that of `m` again. -/
theorem ret_of_call (hm : m.bus.Standard) (hcall : step.run m = ⟨t, .ok s, l⟩)
    (ho : s.instruction.opcode = .call) (h : t.Above m.state.depth u)
    (hret : step.run u = ⟨v, .ok r, l'⟩) (hv : v.state.depth = m.state.depth) :
    r.instruction.opcode = .ret ∧ v.state.pc = s.address + 2 ∧
      v.state.stack = m.state.stack := by
  have hcalled := moves_step hm hcall
  rw [ho] at hcalled
  cases hcalled with
  | kept hc => exact absurd rfl hc
  | pushed hpushed =>
    have ht : t.bus.Standard := hm.congr (layout_step hm hcall)
    have hb : (m.state.pc + 2) :: m.state.stack <:+ t.state.stack := ⟨[], hpushed.symm⟩
    obtain ⟨hu, hb⟩ := h.suffix ht hb rfl
    have hlow : v.state.depth < ((m.state.pc + 2) :: m.state.stack).length := by
      rw [hv]
      exact Nat.lt_succ_self _
    obtain ⟨hr, he⟩ := (moves_step hu hret).popped_of_suffix hb hlow
    obtain ⟨hpc, hstack⟩ := List.cons.inj he
    rw [address_step hm hcall]
    exact ⟨hr, hpc.symm, hstack.symm⟩

/-- A machine with a program that calls a routine at `0x206` which calls another one at `0x20A`. -/
def calling : Machine :=
  (Deed.loadRom [0x22, 0x06, 0, 0, 0, 0, 0x22, 0x0A, 0x00, 0xEE, 0x00, 0xEE]).run (booted {} {})

namespace calling

/-- Before the outer call, with an address on the stack. -/
def outside : Machine := { calling with state := { stack := [0x300] } }

def inside : Machine := (step.run outside).state

/-- Behind the inner call, before which the timers ticked. -/
def deeper : Machine := (step.run (Deed.tickTimers.run inside)).state

/-- Behind the inner return, before which a key was pressed. -/
def returned : Machine := (step.run ((Deed.press 5).run deeper)).state

end calling

open calling in
theorem ret_of_call_nested :
    ∃ v s r, outside.bus.Standard ∧ (∃ l, step.run outside = ⟨inside, .ok s, l⟩) ∧
      s.instruction.opcode = .call ∧ inside.Above outside.state.depth returned ∧
      (∃ l, step.run returned = ⟨v, .ok r, l⟩) ∧ v.state.depth = outside.state.depth ∧
      r.instruction.opcode = .ret ∧ v.state.pc = s.address + 2 ∧ v.state.stack = [0x300] := by
  obtain ⟨ho₁, ho₂, ho₃, ho₄, hd₂, hd₃, hd₄⟩ :
      outside.executed? = some .call ∧ (Deed.tickTimers.run inside).executed? = some .call ∧
        ((Deed.press 5).run deeper).executed? = some .ret ∧ returned.executed? = some .ret ∧
        outside.state.depth < deeper.state.depth ∧ outside.state.depth < returned.state.depth ∧
        (step.run returned).state.state.depth = outside.state.depth := by decide +kernel
  obtain ⟨s, hcall, ho⟩ := exists_run_step ho₁
  obtain ⟨_, hinner, -⟩ := exists_run_step ho₂
  obtain ⟨_, hback, -⟩ := exists_run_step ho₃
  obtain ⟨r, hret, -⟩ := exists_run_step ho₄
  have hr : Reached {} {} calling := .act (.boot (boot_standard {} {})) _
  have hstandard : outside.bus.Standard := by
    dsimp only [outside]
    exact hr.fit.wellFormed.standard
  have hdeeper : inside.Above outside.state.depth deeper :=
    .step (.deed .refl (c := .tickTimers) (by simp)) hinner hd₂
  have habove : inside.Above outside.state.depth returned :=
    .step (.deed hdeeper (c := .press 5) (by simp)) hback hd₃
  obtain ⟨hopcode, hpc, hstack⟩ := ret_of_call hstandard hcall ho habove hret hd₄
  exact ⟨_, s, r, hstandard, ⟨_, hcall⟩, ho, habove, ⟨_, hret⟩, hd₄, hopcode, hpc, hstack⟩

end Chip8.Machine
