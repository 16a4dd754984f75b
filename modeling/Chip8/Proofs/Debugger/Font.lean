import Chip8.Proofs.Debugger.Run
import Chip8.Proofs.Machine.Reached

/-!
# The font under debuggers

What a program writes into read-only memory is lost, but taking an instruction back puts bytes there
by the way of the host. These are the bytes that the lost writes found, and so those of the font
(`Harmless`). A `Bench` is a machine with debuggers at it; whatever is done at the bench, the font
stays as it is.
-/

namespace Chip8

/-- Accesses that found no other bytes in the place of the font than its own. -/
def FoundFont (as : List Access) : Prop :=
  ∀ k < 80, ∀ v n, .write (k : Nat) v n ∈ as → Font.glyphs[k]? = some n

namespace FoundFont

variable {as : List Access} {a : Access}

theorem tail (h : FoundFont (a :: as)) : FoundFont as := fun k hk v n hn =>
  h k hk v n (List.mem_cons_of_mem a hn)

theorem of_trafficked {b c : Bus} (hf : b.FontIntact) (hs : b.Standard)
    (ht : b.Trafficked as c) : FoundFont as := by
  intro k hk v n hn
  have hrom : b.kind? (k : Nat) = some .rom := by rw [hs.kind?, if_pos (by omega)]
  rw [← hf k hk, ht.found_of_rom hn hrom]

end FoundFont

/-- A debugger that takes nothing back but to registers in their ranges and the bytes of the font. -/
structure Debugger.Harmless (depth : Int) (d : Debugger State) : Prop where
  base : d.base.Ranged depth
  kept : ∀ s ∈ d.history, s.state.Ranged depth ∧ FoundFont s.accesses

namespace Debugger.Harmless

variable {depth : Int} {d d' : Debugger State} {s : Snapshot State}

theorem congr (h : d.Harmless depth) (hd : d.SameHistory d') : d'.Harmless depth := by
  obtain ⟨hb, hk⟩ := h
  rw [← hd.base] at hb
  rw [← hd.history] at hk
  exact ⟨hb, hk⟩

theorem keep (h : d.Harmless depth) (hr : s.state.Ranged depth) (hf : FoundFont s.accesses) :
    (d.keep s).Harmless depth := by
  have hk : ∀ x ∈ s :: d.history, x.state.Ranged depth ∧ FoundFont x.accesses :=
    List.forall_mem_cons.2 ⟨⟨hr, hf⟩, h.kept⟩
  refine ⟨?_, fun x hx => hk x (List.mem_of_mem_take hx)⟩
  show ((((s :: d.history)[d.limit.toNat]?).map (·.state)).getD d.base).Ranged depth
  cases ho : (s :: d.history)[d.limit.toNat]? with
  | none => exact h.base
  | some x => exact (hk x (List.mem_of_getElem? ho)).1

end Debugger.Harmless

namespace Session

open Machine

variable {d : Dialect} {m : Machine} {s t : Session Machine State}

theorem wp_undoWrites {as : List Access} (h : m.Fit d) (ha : FoundFont as) :
    (undoWrites as).wp (fun _ => Fit d) (fun _ => Fit d) m := by
  induction as with
  | nil => exact h
  | cons a as ih =>
    unfold undoWrites
    rw [Action.wp_bind]
    refine Action.wp_mono (ih ha.tail) (fun _ t ht => ?_) fun _ _ ht => ht
    cases a with
    | read => exact ht
    | write a v n =>
      -- whether `a` still is an address does not matter: a load that fails changes nothing
      show (HasCore.load a n.toNat : Action Machine Unit).wp _ _ t
      cases hl : t.bus.load a n.toNat with
      | ok b =>
        refine (Action.wp_of_run_ok (run_load hl)).2 ?_
        have hn : UInt8.ofNat (n.toNat : Int).toNat = n := by simp
        have hf := ht.font.load ht.wellFormed.standard hl fun k hk hak => by
          rw [hn, ha k hk v n (hak ▸ List.mem_cons_self)]
        exact ⟨ht.wellFormed.withBus (Bus.layout_load hl), hf, ht.dialect⟩
      | error e =>
        have hrun : (HasCore.load a n.toNat : Action Machine Unit).run t = ⟨t, .error (.bus e), []⟩ := by
          unfold HasCore.load
          dsimp only
          rw [show (HasCore.bus t).load a n.toNat = _ from hl]
        exact (Action.wp_of_run_error hrun).2 ht

/-- A machine that is fit, under a debugger that takes back no other font. -/
structure Safe (d : Dialect) (s : Session Machine State) : Prop where
  fit : s.machine.Fit d
  harmless : s.debugger.Harmless (max 0 d.stackDepth)

namespace Safe

theorem executes {snapshot : Snapshot State} (h : s.Safe d) (hx : s.Executes snapshot t) :
    t.Safe d := by
  have ht := h.fit.succeeds hx.machine
  obtain ⟨b, c, hb, htr, -⟩ := hx.machine.traffic
  have hf : FoundFont snapshot.accesses := .of_trafficked (h.fit.font.congr hb)
    (h.fit.wellFormed.standard.congr hb.layout_eq.symm) htr
  have hr := ht.ranged
  rw [← hx.machine.state_eq] at hr
  refine ⟨ht, ?_⟩
  rw [hx.debugger]
  exact Debugger.Harmless.keep ⟨h.harmless.base, h.harmless.kept⟩ hr hf

theorem fails (h : s.Safe d) (hf : s.Fails t) : t.Safe d :=
  ⟨h.fit.stops hf.machine, hf.debugger ▸ ⟨h.harmless.base, h.harmless.kept⟩⟩

theorem wp_step (h : s.Safe d) :
    Session.step.wp (fun _ => Safe d) (fun _ => Safe d) s :=
  wp_step_of h.fit.wellFormed (fun _ _ hx => h.executes hx) fun _ hf => h.fails hf

theorem stepBack (h : s.Safe d) : (Session.stepBack.run s).state.Safe d := by
  refine Action.state_of_wp ?_
  unfold Session.stepBack modifyDebugger onMachine
  rw [Action.wp_bind, Action.wp_gets]
  cases hh : s.debugger.history with
  | nil => exact h
  | cons undone rest =>
    have hk := h.harmless.kept
    rw [hh, List.forall_mem_cons] at hk
    have hd : Debugger.Harmless (max 0 d.stackDepth) { s.debugger with history := rest } :=
      ⟨h.harmless.base, hk.2⟩
    rw [Action.wp_bind, Action.wp_modify, Action.wp_bind, Action.wp_onPart]
    refine Action.wp_mono (wp_undoWrites h.fit hk.1.2) (fun _ m hm => ?_) fun _ m hm => ⟨hm, hd⟩
    refine ⟨hm.withState ?_, hd.base, hd.kept⟩
    cases rest with
    | nil => exact h.harmless.base
    | cons x rest => exact (hk.2 x List.mem_cons_self).1

theorem perform (h : s.Safe d) (c : Command) : (c.perform s).Safe d :=
  Command.keeps (fun _ => wp_step) (fun _ _ hd hs => ⟨hs.fit, hs.harmless.congr hd⟩)
    (fun _ => h.stepBack) h

end Safe

end Session

/-! ### Benches -/

/-- A machine and the debuggers that were made for it. -/
structure Bench where
  machine : Machine
  debuggers : List (Debugger State) := []

namespace Bench

inductive Act where
  | host (c : Machine.Deed)
  | attach (limit : Int)
  | debug (k : Nat) (c : Session.Command)

def perform (b : Bench) : Act → Bench
  | .host c => { b with machine := c.run b.machine }
  | .attach limit => { b with debuggers := b.debuggers ++ [.start b.machine.state limit] }
  | .debug k c =>
    match b.debuggers[k]? with
    | none => b
    | some d =>
      let s := c.perform ⟨b.machine, d⟩
      ⟨s.machine, b.debuggers.set k s.debugger⟩

def performAll (b : Bench) (as : List Act) : Bench := as.foldl perform b

structure Safe (d : Dialect) (b : Bench) : Prop where
  fit : b.machine.Fit d
  harmless : ∀ x ∈ b.debuggers, x.Harmless (max 0 d.stackDepth)

variable {d : Dialect} {b : Bench} {k : Nat} {c : Session.Command}

theorem perform_debug_of_none (hk : b.debuggers[k]? = none) : b.perform (.debug k c) = b := by
  simp only [perform, hk]

theorem perform_debug_of_some {x : Debugger State} (hk : b.debuggers[k]? = some x) :
    b.perform (.debug k c) =
      ⟨(c.perform ⟨b.machine, x⟩).machine,
        b.debuggers.set k (c.perform ⟨b.machine, x⟩).debugger⟩ := by
  simp only [perform, hk]

namespace Safe

theorem perform (h : b.Safe d) (a : Act) : (b.perform a).Safe d := by
  cases a with
  | host c => exact ⟨h.fit.run c, h.harmless⟩
  | attach limit =>
    refine ⟨h.fit, fun x hx => ?_⟩
    rcases List.mem_append.1 hx with hx | hx
    · exact h.harmless x hx
    · rw [List.mem_singleton.1 hx]
      exact ⟨h.fit.ranged, fun _ hs => nomatch hs⟩
  | debug k c =>
    cases hk : b.debuggers[k]? with
    | none =>
      rw [perform_debug_of_none hk]
      exact h
    | some x =>
      have hs : Session.Safe d ⟨b.machine, x⟩ := ⟨h.fit, h.harmless x (List.mem_of_getElem? hk)⟩
      have hp := hs.perform c
      rw [perform_debug_of_some hk]
      refine ⟨hp.fit, fun y hy => ?_⟩
      rcases List.mem_or_eq_of_mem_set hy with hy | rfl
      · exact h.harmless y hy
      · exact hp.harmless

theorem performAll (h : b.Safe d) (as : List Act) : (b.performAll as).Safe d := by
  induction as generalizing b with
  | nil => exact h
  | cons a as ih => exact ih (h.perform a)

end Safe

end Bench

/-- Nothing that a program, the host and any debuggers do changes the font. -/
theorem font_immutable (d : Dialect) (e : Entropy) :
    ∃ m, Machine.boot Machine.standardBus {} d e = .ok m ∧
      ∀ as : List Bench.Act, (Bench.performAll ⟨m, []⟩ as).machine.bus.dump 0 80 = .ok Font.glyphs := by
  have hm := Machine.boot_standard d e
  refine ⟨_, hm, fun as => ?_⟩
  have hb : Bench.Safe d ⟨Machine.booted d e, []⟩ := ⟨.boot hm, fun _ hx => nomatch hx⟩
  exact (hb.performAll as).fit.font.dump

end Chip8
