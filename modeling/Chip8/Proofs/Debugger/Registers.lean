import Chip8.Debugger
import Chip8.Machine.Cycle

/-!
# Breakpoints on registers

Which names are those of registers does not hang on what the registers hold (`State.NamesRegister`,
`exists_register?_iff`). A breakpoint on a register is meant to stop a run behind an instruction where the
register of its name is there and has the wanted value, or another one than before (`Breakpoint.Hits`).
It does so, and otherwise stops runs only where it asks a name without a register for no value: that is
what it finds behind every instruction (`Breakpoint.AwaitsNothing`, `register_breakpoint_stops_iff`).
-/

namespace Chip8

namespace State

/-- The names under which registers are kept. -/
def fullNames : List String := ["pc", "i", "sp", "delay_timer", "sound_timer"]

/-- The names of registers, in letters of either case. A line break may follow that of a general register. -/
inductive NamesRegister : Text → Prop
  | general {name : Text} {v d : Char} {x : Fin 16} (hv : v = 'V' ∨ v = 'v')
    (hd : Text.Hex.capital x = d.toUpper)
    (h : name.readable = [v, d] ∨ name.readable = [v, d, '\n']) : NamesRegister name
  | timer {name : Text} (h : name.upper = "DT" ∨ name.upper = "ST") : NamesRegister name
  | full {s : String} (h : s.map Char.toLower ∈ fullNames) : NamesRegister s

variable {s : State} {name : Text} {d : Char} {x : Fin 16} {cs : List Char}

theorem digit?_eq_some_iff : register?.digit? d = some x ↔ Text.Hex.capital x = d.toUpper := by
  have hinj : ∀ y z : Fin 16, Text.Hex.capital y = Text.Hex.capital z → y = z := by decide
  unfold register?.digit?
  constructor
  · intro h
    simpa using List.find?_some h
  · intro hx
    cases hf : (List.finRange 16).find? fun k : Fin 16 => Text.Hex.capital k = d.toUpper with
    | none => exact absurd hx (by simpa using List.find?_eq_none.1 hf x (List.mem_finRange x))
    | some y =>
      have hy : Text.Hex.capital y = d.toUpper := by simpa using List.find?_some hf
      rw [hinj y x (hy.trans hx.symm)]

theorem general?_eq_some_iff : register?.general? cs = some x ↔
    ∃ v d, (v = 'V' ∨ v = 'v') ∧ Text.Hex.capital x = d.toUpper ∧
      (cs = [v, d] ∨ cs = [v, d, '\n']) := by
  constructor
  · intro h
    unfold register?.general? at h
    split at h
    · split at h
      · exact ⟨_, _, ‹_›, digit?_eq_some_iff.1 h, .inl rfl⟩
      · cases h
    · split at h
      · exact ⟨_, _, ‹_›, digit?_eq_some_iff.1 h, .inr rfl⟩
      · cases h
    · cases h
  · rintro ⟨v, d, hv, hd, rfl | rfl⟩
    · simpa [register?.general?, hv] using digit?_eq_some_iff.2 hd
    · simpa [register?.general?, hv] using digit?_eq_some_iff.2 hd

/-- Whether there is a register of a name hangs on the name alone. -/
theorem exists_register?_iff : (∃ n, s.register? name = some n) ↔ NamesRegister name := by
  constructor
  · rintro ⟨n, h⟩
    unfold register? at h
    split at h
    · obtain ⟨v, d, hv, hd, hname⟩ := general?_eq_some_iff.1 ‹_›
      exact .general hv hd hname
    · split at h
      · exact .timer (.inl (Text.string?_eq_some_iff.1 ‹_›))
      · exact .timer (.inr (Text.string?_eq_some_iff.1 ‹_›))
      · obtain ⟨t, ht, hname⟩ : ∃ t ∈ fullNames, name.string?.map (·.map Char.toLower) = some t := by
          split at h
          case h_6 => cases h
          all_goals
            rename_i hname
            exact ⟨_, by simp [fullNames], hname⟩
        obtain ⟨u, hu, rfl⟩ := Option.map_eq_some_iff.1 hname
        rw [Text.string?_eq_some_iff.1 hu]
        exact .full ht
  · intro h
    unfold register?
    cases hx : register?.general? name.readable with
    | some x => exact ⟨_, rfl⟩
    | none =>
      cases h with
      | general hv hd hname =>
        rw [general?_eq_some_iff.2 ⟨_, _, hv, hd, hname⟩] at hx
        cases hx
      | timer h =>
        rcases h with h | h <;> rw [Text.string?_eq_some_iff.2 h] <;> exact ⟨_, rfl⟩
      | full h =>
        dsimp only
        split
        · exact ⟨_, rfl⟩
        · exact ⟨_, rfl⟩
        · rw [Text.string?_ofString, Option.map_some]
          simp only [fullNames, List.mem_cons, List.not_mem_nil, or_false] at h
          rcases h with h | h | h | h | h <;> rw [h] <;> exact ⟨_, rfl⟩

theorem register?_eq_none_iff : s.register? name = none ↔ ¬ NamesRegister name := by
  rw [← exists_register?_iff (s := s), ← Option.isSome_iff_exists, Option.not_isSome_iff_eq_none]

theorem isEmpty_of_namesRegister (h : NamesRegister name) : name.isEmpty = false := by
  obtain ⟨_ | ⟨l, ls⟩⟩ := name
  · have hnone : ({} : State).register? ⟨[]⟩ = none := by cbv
    exact absurd h (register?_eq_none_iff.1 hnone)
  · rfl

end State

namespace Breakpoint

/-- An enabled breakpoint on a register, which is there behind an instruction and has the wanted value, or
another one than before the instruction. -/
def Hits (b : Breakpoint) (before after : State) : Prop :=
  b.enabled = true ∧ ∃ name n, b.register = some name ∧ after.register? name = some n ∧
    match b.kind with
    | .registerValue => b.value = some n
    | .registerChange => ∃ n', before.register? name = some n' ∧ n' ≠ n
    | _ => False

/-- An enabled breakpoint on the value of a register that there is not, and on no value of it. -/
def AwaitsNothing (b : Breakpoint) : Prop :=
  b.enabled = true ∧ b.kind = .registerValue ∧ b.value = none ∧
    ∃ name, b.register = some name ∧ name.isEmpty = false ∧ ¬ State.NamesRegister name

variable {b : Breakpoint} {s : Snapshot State} {before after : State} {name : Text}

theorem any_named?_iff {p : Text → Bool} : b.named?.any p = true ↔
    ∃ name, b.register = some name ∧ name.isEmpty = false ∧ p name = true := by
  simp [named?, Option.any_eq_true]

theorem stopsAfter_registerValue (hk : b.kind = .registerValue) :
    b.stopsAfter (M := Machine) s before = true ↔ b.enabled = true ∧
      ∃ name, b.register = some name ∧ name.isEmpty = false ∧ s.state.register? name = b.value := by
  unfold stopsAfter
  rw [hk, Bool.and_eq_true]
  simp only [any_named?_iff, decide_eq_true_eq]
  rfl

theorem stopsAfter_registerChange (hk : b.kind = .registerChange) :
    b.stopsAfter (M := Machine) s before = true ↔ b.enabled = true ∧
      ∃ name, b.register = some name ∧ name.isEmpty = false ∧
        before.register? name ≠ s.state.register? name := by
  unfold stopsAfter
  rw [hk, Bool.and_eq_true]
  simp only [any_named?_iff, decide_eq_true_eq]
  rfl

theorem stops_registerValue_iff (hk : b.kind = .registerValue) :
    b.stopsAfter (M := Machine) s before = true ↔ b.Hits before s.state ∨ b.AwaitsNothing := by
  rw [stopsAfter_registerValue hk, Hits, AwaitsNothing, hk]
  constructor
  · rintro ⟨he, name, hb, hne, hv⟩
    cases hr : s.state.register? name with
    | some n => exact .inl ⟨he, name, n, hb, hr, hv.symm.trans hr⟩
    | none =>
      exact .inr ⟨he, rfl, hv.symm.trans hr, name, hb, hne, State.register?_eq_none_iff.1 hr⟩
  · rintro (⟨he, name, n, hb, hr, hv⟩ | ⟨he, -, hv, name, hb, hne, hn⟩)
    · have hname := State.exists_register?_iff.1 ⟨n, hr⟩
      exact ⟨he, name, hb, State.isEmpty_of_namesRegister hname, hr.trans hv.symm⟩
    · exact ⟨he, name, hb, hne, (State.register?_eq_none_iff.2 hn).trans hv.symm⟩

theorem stops_registerChange_iff (hk : b.kind = .registerChange) :
    b.stopsAfter (M := Machine) s before = true ↔ b.Hits before s.state := by
  rw [stopsAfter_registerChange hk, Hits, hk]
  constructor
  · rintro ⟨he, name, hb, -, hne⟩
    by_cases hn : State.NamesRegister name
    · obtain ⟨n, hr⟩ := State.exists_register?_iff (s := s.state).2 hn
      obtain ⟨n', hr'⟩ := State.exists_register?_iff (s := before).2 hn
      exact ⟨he, name, n, hb, hr, n', hr', fun h => hne (by rw [hr, hr', h])⟩
    · -- a name that is there neither before nor after is no change
      rw [State.register?_eq_none_iff.2 hn, State.register?_eq_none_iff.2 hn] at hne
      exact absurd rfl hne
  · rintro ⟨he, name, n, hb, hr, n', hr', hne⟩
    have hname := State.exists_register?_iff.1 ⟨n, hr⟩
    refine ⟨he, name, hb, State.isEmpty_of_namesRegister hname, ?_⟩
    rw [hr, hr']
    simpa using hne

theorem AwaitsNothing.not_hits (h : b.AwaitsNothing) : ¬ b.Hits before after := by
  rintro ⟨-, name, n, hb, hr, -⟩
  obtain ⟨-, -, -, name', hb', -, hn⟩ := h
  obtain rfl : name = name' := Option.some.inj (hb.symm.trans hb')
  exact hn (State.exists_register?_iff.1 ⟨n, hr⟩)

/-- A breakpoint on a register stops a run behind an instruction where it hits, and apart from that if it
awaits nothing, which never is a hit. -/
theorem register_breakpoint_stops_iff (hk : b.kind = .registerValue ∨ b.kind = .registerChange)
    (s : Snapshot State) (before : State) :
    (b.stopsAfter (M := Machine) s before = true ↔ b.Hits before s.state ∨ b.AwaitsNothing) ∧
      ¬ (b.Hits before s.state ∧ b.AwaitsNothing) := by
  refine ⟨?_, fun ⟨hh, ha⟩ => ha.not_hits hh⟩
  rcases hk with hk | hk
  · exact stops_registerValue_iff hk
  · rw [stops_registerChange_iff hk]
    refine ⟨.inl, fun h => h.resolve_right fun ha => ?_⟩
    rw [ha.2.1] at hk
    cases hk

/-- On `V0` by a small letter, behind `LD V0, #$05`. -/
theorem register_breakpoint_stops_on_change :
    let b : Breakpoint := { kind := .registerChange, register := some "v0" }
    let s : Snapshot State := { address := 0x200, instruction := ⟨.loadByte, 0x6005⟩, cycle := 1,
                                drew := false, state := { ({} : State).setReg 0 5 with pc := 0x202 },
                                accesses := [.read 0x200 0x60, .read 0x201 0x05] }
    (b.kind = .registerValue ∨ b.kind = .registerChange) ∧
      b.stopsAfter (M := Machine) s {} = true ∧ b.Hits {} s.state ∧ ¬ b.AwaitsNothing := by
  intro b s
  have hk : b.kind = .registerValue ∨ b.kind = .registerChange := .inr rfl
  obtain ⟨hstops, -⟩ := register_breakpoint_stops_iff hk s {}
  have hno : ¬ b.AwaitsNothing := fun h => nomatch h.2.1
  have hs : b.stopsAfter (M := Machine) s {} = true := by decide
  exact ⟨hk, hs, (hstops.1 hs).resolve_right hno, hno⟩

/-- No value, of a register that there is not. -/
example : AwaitsNothing { kind := .registerValue, register := some "XYZ" } := by
  have hnone : ({} : State).register? "XYZ" = none := by cbv
  exact ⟨rfl, rfl, rfl, _, rfl, rfl, State.register?_eq_none_iff.1 hnone⟩

end Breakpoint

end Chip8
