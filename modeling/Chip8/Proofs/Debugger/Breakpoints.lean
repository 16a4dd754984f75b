import Chip8.Proofs.Debugger.Course
import Chip8.Proofs.Machine.Reached

/-!
# The list of breakpoints

A breakpoint is added only where it is missing, and only the first of its kind is removed, so that
the list is to hold no breakpoint twice. Updates do not look at what is there: one that puts a
breakpoint into the place of another while it stands elsewhere doubles it (`nodup_edit_iff`). As
long as no update does so (`ProperAll`), the breakpoints stay distinct, and one that was removed is
gone for all runs (`breakpoints_distinct`).
-/

namespace Chip8.Debugger

variable {S : Type} {d : Debugger S} {old new b : Breakpoint} {l : List Breakpoint}

/-- What is done to the list of breakpoints. -/
inductive Edit where
  | add (b : Breakpoint)
  | update (old new : Breakpoint)
  | remove (b : Breakpoint)

def edit (d : Debugger S) : Edit → Debugger S
  | .add b => d.addBreakpoint b
  | .update old new => d.updateBreakpoint old new
  | .remove b => d.removeBreakpoint b

def editAll (d : Debugger S) (es : List Edit) : Debugger S := es.foldl edit d

/-- The edit of a list does not double a breakpoint. -/
def Edit.Proper (l : List Breakpoint) : Edit → Prop
  | .update old new => new = old ∨ old ∉ l ∨ new ∉ l
  | .add _ | .remove _ => True

/-- Each edit is proper when its turn comes. -/
def ProperAll (d : Debugger S) : List Edit → Prop
  | [] => True
  | e :: es => e.Proper d.breakpoints ∧ (d.edit e).ProperAll es

instance (l : List Breakpoint) : DecidablePred (Edit.Proper l)
  | .update old new => inferInstanceAs (Decidable (new = old ∨ old ∉ l ∨ new ∉ l))
  | .add _ | .remove _ => .isTrue trivial

instance decidableProperAll : (d : Debugger S) → (es : List Edit) → Decidable (d.ProperAll es)
  | _, [] => .isTrue trivial
  | d, e :: es =>
    have := decidableProperAll (d.edit e) es
    inferInstanceAs (Decidable (_ ∧ _))

theorem nodup_replace_iff (h : l.Nodup) :
    (l.replace old new).Nodup ↔ new = old ∨ old ∉ l ∨ new ∉ l := by
  by_cases ho : old ∈ l
  · -- The replacement goes where `old` first stands, and all else is `l₁ ++ l₂`.
    obtain ⟨l₁, l₂, rfl, ho₁⟩ := List.eq_append_cons_of_mem ho
    have nodup_iff (a : Breakpoint) :
        (l₁ ++ a :: l₂).Nodup ↔ a ∉ l₁ ++ l₂ ∧ (l₁ ++ l₂).Nodup :=
      List.perm_middle.nodup_iff.trans List.nodup_cons
    have mem_iff : new ∈ l₁ ++ old :: l₂ ↔ new = old ∨ new ∈ l₁ ++ l₂ :=
      List.perm_middle.mem_iff.trans List.mem_cons
    obtain ⟨hold, hl⟩ := (nodup_iff old).1 h
    rw [List.replace_append_right ho₁, List.replace_cons_self, nodup_iff, and_iff_left hl]
    constructor
    · intro hnew
      by_cases he : new = old
      · exact .inl he
      · exact .inr (.inr fun hm => (mem_iff.1 hm).elim he hnew)
    · rintro (rfl | hn | hn)
      · exact hold
      · exact absurd ho hn
      · exact fun hm => hn (mem_iff.2 (.inr hm))
  · rw [List.replace_of_not_mem ho]
    exact iff_of_true h (.inr (.inl ho))

theorem nodup_edit_iff (h : d.breakpoints.Nodup) (e : Edit) :
    (d.edit e).breakpoints.Nodup ↔ e.Proper d.breakpoints := by
  cases e with
  | add b =>
    refine iff_of_true ?_ trivial
    show (d.addBreakpoint b).breakpoints.Nodup
    unfold addBreakpoint
    split
    · exact h
    · exact (List.perm_append_singleton b d.breakpoints).nodup_iff.2 (List.nodup_cons.2 ⟨‹_›, h⟩)
  | update old new => exact nodup_replace_iff h
  | remove b => exact iff_of_true (h.erase b) trivial

theorem nodup_editAll {es : List Edit} (h : d.breakpoints.Nodup) (he : d.ProperAll es) :
    (d.editAll es).breakpoints.Nodup := by
  induction es generalizing d with
  | nil => exact h
  | cons e es ih => exact ih ((nodup_edit_iff h e).2 he.1) he.2

/-- As long as no update doubles a breakpoint, no breakpoint is twice in the list; one that is then
removed is not in the list any more, and no run that follows ends at it. -/
theorem breakpoints_distinct {M : Type} [Processor M S] (s : S) (limit : Int) (es : List Edit)
    (h : (start s limit).ProperAll es) :
    ((start s limit).editAll es).breakpoints.Nodup ∧
      ∀ b, let d := ((start s limit).editAll es).removeBreakpoint b
        b ∉ d.breakpoints ∧
          ∀ (m : M) (budget : Option Int), let o := (Session.run budget).run ⟨m, d⟩
            (∃ xs r, Session.Ran budget ⟨m, d⟩ xs r o) ∧
              ∀ xs r, Session.Ran budget ⟨m, d⟩ xs r o → r.breakpoint? ≠ some b := by
  have hd := nodup_editAll (d := start s limit) .nil h
  refine ⟨hd, fun b => ?_⟩
  have hb : b ∉ (((start s limit).editAll es).removeBreakpoint b).breakpoints := hd.not_mem_erase
  exact ⟨hb, fun m budget => ⟨Session.exists_ran budget _,
    fun xs r hr he => hb (hr.mem_breakpoints he)⟩⟩

/-- A breakpoint on the instruction at an address. -/
def onPc (a : Int) : Breakpoint := { kind := .pc, value := some a }

/-- A machine that goes round in one place. -/
def looping : Machine := (Machine.Deed.loadRom [0x12, 0x00]).run (Machine.booted {} {})

/-- Two updates: one of a breakpoint that is there, and one of a breakpoint that is not. -/
def moved : List Edit :=
  [.add (onPc 0x200), .add (onPc 0x202), .update (onPc 0x202) (onPc 0x204),
    .update (onPc 0x206) (onPc 0x200)]

theorem breakpoints_distinct_moved :
    (start ({} : State) 8).ProperAll moved ∧
      let d := ((start ({} : State) 8).editAll moved).removeBreakpoint (onPc 0x200)
      d.breakpoints = [onPc 0x204] ∧ onPc 0x200 ∉ d.breakpoints ∧
        ∃ xs r, Session.Ran (some 2) ⟨looping, d⟩ xs r ((Session.run (some 2)).run ⟨looping, d⟩) ∧
          r.breakpoint? ≠ some (onPc 0x200) := by
  have hp : (start ({} : State) 8).ProperAll moved := by decide
  obtain ⟨-, hgone⟩ := breakpoints_distinct (M := Machine) ({} : State) 8 moved hp
  obtain ⟨hb, hruns⟩ := hgone (onPc 0x200)
  obtain ⟨⟨xs, r, hr⟩, hends⟩ := hruns looping (some 2)
  exact ⟨hp, by decide, hb, xs, r, hr, hends xs r hr⟩

/-- An update doubles a breakpoint, so that it is still there when it was removed, and stops a run. -/
theorem removed_breakpoint_stops :
    let d := ((start ({} : State) 8).editAll [.add (onPc 0x200), .add (onPc 0x202),
      .update (onPc 0x202) (onPc 0x200)]).removeBreakpoint (onPc 0x200)
    onPc 0x200 ∈ d.breakpoints ∧
      .stoppedAt 0x200 ∈ ((Session.run (some 2)).run ⟨looping, d⟩).notices := by
  decide +kernel

end Chip8.Debugger
