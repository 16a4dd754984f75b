/-!
# Dialects

Interpreters of the language disagree on what some instructions do. A dialect holds one choice for
each point of disagreement.
-/

namespace Chip8

structure Dialect where
  /-- Sprites continue at the opposite edge of the screen and are not cut off. -/
  spriteWrap : Bool := false
  /-- How many return addresses the call stack holds. -/
  stackDepth : Int := 16
  /-- The shifts take their source from the second register. -/
  shiftUsesVy : Bool := false
  /-- Block transfers leave the index behind the block. -/
  loadStoreIncrementsI : Bool := false
  /-- The jump with an offset takes it from the register that the word names. -/
  jumpUsesVx : Bool := false
  /-- The logical operations clear the flag register. -/
  logicResetsVf : Bool := false
  /-- A call of machine code is a fault and is not skipped. -/
  sysIsFatal : Bool := true
deriving DecidableEq, Repr, Inhabited

namespace Dialect

private def flagText (b : Bool) : String := if b then "True" else "False"

/-- The choices in one line, as records of a run show them. -/
def text (d : Dialect) : String :=
  "Quirks(sprite_wrap=" ++ flagText d.spriteWrap ++
    ", stack_depth=" ++ toString d.stackDepth ++
    ", shift_uses_vy=" ++ flagText d.shiftUsesVy ++
    ", load_store_increments_i=" ++ flagText d.loadStoreIncrementsI ++
    ", jump_uses_vx=" ++ flagText d.jumpUsesVx ++
    ", logic_resets_vf=" ++ flagText d.logicResetsVf ++
    ", sys_is_fatal=" ++ flagText d.sysIsFatal ++ ")"

end Dialect

end Chip8
