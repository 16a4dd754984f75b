import Chip8.Proofs.Bus.Call
import Chip8.Proofs.Machine.Reached

/-!
# Loads that fail

A load looks at the size of a program and then copies it byte by byte, whether there is memory for all of
it or not. `FailedLoad` says what a failing load leaves: everything but the memory is as it was, and
so is the memory, unless the copy came to an address that is not mapped (`failing_load`). What stood
in memory is not put back then (`load_breaks_off`).
-/

namespace Chip8.Machine

/-- A program to be loaded: its bytes, or where the file with its bytes is. -/
inductive Program where
  | bytes (data : List UInt8)
  | file (files : Files) (path : Path)

namespace Program

def load : Program → Action Machine Nat
  | bytes data => loadRom data
  | file files path => loadRomFile files path

/-- The part of the load that is about the memory. -/
def copy : Program → Action Bus Nat
  | bytes data => ({} : Loader).load data
  | file files path => ({} : Loader).loadFile files path

/-- The bytes of the program, where there are any. -/
def read : Program → Except Error (List UInt8)
  | bytes data => .ok data
  | file files path => (files.read path).mapError .file

theorem load_bytes (data : List UInt8) : (bytes data).load = loadRom data := rfl

theorem load_eq (p : Program) :
    p.load = onBus p.copy >>= fun n =>
      Action.modify (fun m => { m with loaded := true }) >>= fun _ => pure n := by
  cases p <;> rfl

end Program

variable {m t : Machine} {p : Program} {x : Error} {l : List Notice}

/-- What is left of `m` where the load of a program failed. -/
structure FailedLoad (m : Machine) (p : Program) (x : Error) (t : Machine) : Prop where
  /-- Registers, screen, keys and random numbers, and whether a program is loaded. -/
  rest : t = { m with bus := t.bus }
  layout_eq : t.bus.layout = m.bus.layout
  accesses_eq : t.bus.accesses = m.bus.accesses
  /-- The file and the size are looked at before anything is copied. -/
  unchanged (h : ∀ e, x ≠ .bus e) : t = m
  /-- There is no memory for the byte of number `k`, the first such byte, and those before it were copied.
  They stand there as they are, unless one device stands in several places and two of them share a cell. -/
  broke_off {e : Bus.Error} (h : x = .bus e) :
    ∃ data k, p.read = .ok data ∧ data.length ≤ 0xE00 ∧ k < data.length ∧ e = .unmapped (0x200 + k) ∧
      (∀ j < k, m.bus.Mapped (0x200 + j)) ∧ ¬ m.bus.Mapped (0x200 + k) ∧
      m.bus.Copied 0x200 (data.take k) t.bus ∧
      (m.bus.OwnCells 0x200 k → m.bus.Verbatim 0x200 (data.take k) t.bus)
  /-- Where there is memory for every program, a failing load does nothing. -/
  unchanged_of_mapped (h : ∀ a, 0x200 ≤ a → a < 0x1000 → m.bus.Mapped a) : t = m

namespace FailedLoad

theorem refused (hx : ∀ e, x ≠ .bus e) : m.FailedLoad p x m where
  rest := rfl
  layout_eq := rfl
  accesses_eq := rfl
  unchanged _ := rfl
  broke_off h := absurd h (hx _)
  unchanged_of_mapped _ := rfl

theorem of_loading {data : List UInt8} {c : Bus} (hp : p.read = .ok data)
    (h : Loader.Loading {} data m.bus ⟨c, .error x, l⟩) :
    m.FailedLoad p x { m with bus := c } := by
  cases h with
  | refused h =>
    refine refused ?_
    rcases Loader.check_eq_error_iff.1 h with ⟨rfl, -⟩ | ⟨rfl, -⟩ <;> nofun
  | @brokeOff k c h hk hbefore hm hc =>
    have hlen := length_of_check h
    have hk' : (data.take k).length = k := List.length_take_of_le (Nat.le_of_lt hk)
    have hv (hs : m.bus.OwnCells 0x200 k) : m.bus.Verbatim 0x200 (data.take k) c :=
      hc.verbatim (by rwa [hk']) (by rwa [hk'])
    exact {
      rest := rfl
      layout_eq := hc.layout_eq
      accesses_eq := hc.accesses_eq
      unchanged := fun h => absurd rfl (h _)
      broke_off := fun h => ⟨data, k, hp, hlen, hk, (Error.bus.inj h).symm, hbefore, hm, hc, hv⟩
      unchanged_of_mapped := fun h => absurd (h (0x200 + k) (by omega) (by omega)) hm }

end FailedLoad

/-- A load that fails does so while it is about the memory. -/
theorem exists_copy_of_load (h : p.load.run m = ⟨t, .error x, l⟩) :
    ∃ c, p.copy.run m.bus = ⟨c, .error x, l⟩ ∧ t = { m with bus := c } := by
  rw [p.load_eq] at h
  rcases hc : p.copy.run m.bus with ⟨c, y | n, l'⟩
  · rw [Action.run_bind_error (run_onBus hc)] at h
    cases h
    exact ⟨c, rfl, rfl⟩
  · rw [Action.run_bind_ok (run_onBus hc)] at h
    cases h

theorem failing_load (h : p.load.run m = ⟨t, .error x, l⟩) : m.FailedLoad p x t := by
  obtain ⟨c, hc, rfl⟩ := exists_copy_of_load h
  cases p with
  | bytes data =>
    have hl := Loader.loading {} data m.bus
    rw [show (({} : Loader).load data).run m.bus = _ from hc] at hl
    exact .of_loading rfl hl
  | file files path =>
    have hc : (({} : Loader).loadFile files path).run m.bus = ⟨c, .error x, l⟩ := hc
    cases hr : files.read path with
    | error e =>
      rw [Loader.run_loadFile_of_error hr] at hc
      cases hc
      exact .refused nofun
    | ok data =>
      have hl := Loader.loading {} data m.bus
      rw [Loader.run_loadFile_of_ok hr] at hc
      generalize (({} : Loader).load data).run m.bus = o at hc hl
      obtain ⟨c', r, l'⟩ := o
      cases hc
      exact .of_loading (by rw [Program.read, hr]; rfl) hl

/-- The font, and four bytes of memory for programs. -/
def cramped : Bus :=
  ({} : Bus).calls [.register 0 79 (some (.blank .rom 80)), .register 0x200 0x203 (some (.blank .ram 4))]

/-- A machine whose little memory is full of a program. -/
def crampedMachine : Machine :=
  ((loadRom [0x12, 0x02, 0x12, 0x00]).run { bus := (Font.loadInto cramped).1, state := {} }).state

theorem result_loadRom_cramped :
    ((loadRom [0x60, 0x01, 0x60, 0x02, 0x60]).run crampedMachine).result =
      .error (.bus (.unmapped 0x204)) := by
  decide +kernel

/-- A program that is too large for the memory of its machine takes the place of the one before it. -/
theorem load_breaks_off :
    ∃ m, boot cramped {} {} {} = .ok m ∧
      crampedMachine = ((loadRom [0x12, 0x02, 0x12, 0x00]).run m).state ∧
      let o := (loadRom [0x60, 0x01, 0x60, 0x02, 0x60]).run crampedMachine
      o.result = .error (.bus (.unmapped 0x204)) ∧ crampedMachine.bus.byte? 0x200 = some 0x12 ∧
        o.state.bus.byte? 0x200 = some 0x60 := by
  have hfont : (Font.loadInto cramped).2 = .ok () := by decide +kernel
  exact ⟨_, boot_of_loadInto hfont, rfl, result_loadRom_cramped, by decide +kernel, by decide +kernel⟩

theorem failing_load_of_cramped :
    ∃ t l, (Program.bytes [0x60, 0x01, 0x60, 0x02, 0x60]).load.run crampedMachine =
        ⟨t, .error (.bus (.unmapped 0x204)), l⟩ ∧
      t = { crampedMachine with bus := t.bus } ∧
      crampedMachine.bus.Verbatim 0x200 [0x60, 0x01, 0x60, 0x02] t.bus := by
  have hresult := result_loadRom_cramped
  rw [← Program.load_bytes] at hresult
  rcases hr : (Program.bytes [0x60, 0x01, 0x60, 0x02, 0x60]).load.run crampedMachine with ⟨t, r, l⟩
  rw [hr] at hresult
  obtain rfl : r = .error (.bus (.unmapped 0x204)) := hresult
  have h := failing_load hr
  obtain ⟨data, k, hd, -, -, he, -, -, -, hv⟩ := h.broke_off rfl
  cases hd
  have he : (0x204 : Int) = 0x200 + k := Bus.Error.unmapped.inj he
  obtain rfl : k = 4 := by omega
  have hu : crampedMachine.bus.Unshared := by decide +kernel
  exact ⟨t, l, rfl, h.rest, hv (hu.ownCells _ _)⟩

end Chip8.Machine
