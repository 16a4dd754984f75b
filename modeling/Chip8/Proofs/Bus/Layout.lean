import Mathlib.Data.List.Nodup
import Chip8.Bus
import Chip8.Proofs.Device

/-!
# The layout of a bus

The layout is all of a bus but its bytes: which device stands where, and of what kind and size it is. It
decides which addresses are mapped, and to which cell of which device each of them leads. Addresses that
lead to one cell show one byte (`SameCell`). There are none such on a bus where each device stands in
one place only (`SameCell.eq`).
-/

namespace Chip8

/-- A device in its place, but for its bytes. -/
structure Slot where
  start : Nat
  device : Nat
  kind : Device.Kind
  size : Nat
deriving DecidableEq

def Slot.Contains (s : Slot) (a : Int) : Prop := s.start ≤ a ∧ a < (s.start + s.size : Nat)

instance (s : Slot) (a : Int) : Decidable (s.Contains a) :=
  inferInstanceAs (Decidable (_ ∧ _))

theorem Region.contains_iff (r : Region) (a : Int) :
    r.Contains a ↔ 0 ≤ a - r.start ∧ a - r.start < r.device.size := by
  unfold Contains stop
  omega

namespace Bus

def slot (b : Bus) (p : Placement) : Slot :=
  ⟨p.start, p.device, (b.device p.device).kind, (b.device p.device).size⟩

def layout (b : Bus) : List Slot := b.placements.map b.slot

/-- What answers for an address. -/
def slot? (b : Bus) (a : Int) : Option Slot := b.layout.find? fun s => s.Contains a

/-- The kind of the device that answers for an address. -/
def kind? (b : Bus) (a : Int) : Option Device.Kind := (b.slot? a).map (·.kind)

/-- Both addresses lead to one cell of one device. -/
def SameCell (b : Bus) (a x : Int) : Prop := b.Mapped a ∧ b.resolve a = b.resolve x

/-- Each device stands in one place only. -/
def Unshared (b : Bus) : Prop := (b.placements.map (·.device)).Nodup

instance (b : Bus) : Decidable b.Unshared := inferInstanceAs (Decidable (List.Nodup _))

variable {b c : Bus} {a x : Int} {k : Nat} {o : Int}

/-! ### The row of placements -/

section insertPlacement

variable {p q : Placement} {ps : List Placement}

theorem perm_insertPlacement (p : Placement) (ps : List Placement) :
    (insertPlacement p ps).Perm (p :: ps) := by
  induction ps with
  | nil => exact .refl _
  | cons q ps ih =>
    rw [insertPlacement]
    split
    · exact .refl _
    · exact (ih.cons q).trans (.swap p q ps)

theorem mem_insertPlacement : q ∈ insertPlacement p ps ↔ q = p ∨ q ∈ ps := by
  rw [(perm_insertPlacement p ps).mem_iff, List.mem_cons]

theorem sorted_insertPlacement (h : ps.Pairwise (·.start ≤ ·.start)) (p : Placement) :
    (insertPlacement p ps).Pairwise (·.start ≤ ·.start) := by
  induction ps with
  | nil => simp [insertPlacement]
  | cons q ps ih =>
    obtain ⟨hq, hps⟩ := List.pairwise_cons.1 h
    rw [insertPlacement]
    split
    · rename_i hlt
      refine List.pairwise_cons.2 ⟨fun r hr => ?_, h⟩
      rcases List.mem_cons.1 hr with rfl | hr
      · exact Nat.le_of_lt hlt
      · exact Nat.le_trans (Nat.le_of_lt hlt) (hq r hr)
    · refine List.pairwise_cons.2 ⟨fun r hr => ?_, ih hps⟩
      rcases mem_insertPlacement.1 hr with rfl | hr
      · omega
      · exact hq r hr

end insertPlacement

/-! ### What answers for an address -/

theorem slot?_eq (b : Bus) (a : Int) : b.slot? a = (b.placement? a).map b.slot := by
  unfold slot? layout placement?
  rw [List.find?_map]
  rfl

theorem mapped_iff_isSome : b.Mapped a ↔ (b.placement? a).isSome := by
  simp [Mapped, regions, placement?]

theorem mapped_iff_isSome_kind? : b.Mapped a ↔ (b.kind? a).isSome := by
  unfold kind?
  rw [mapped_iff_isSome, slot?_eq, Option.isSome_map, Option.isSome_map]

theorem resolve_eq (b : Bus) (a : Int) :
    b.resolve a = match b.slot? a with
      | some s => .ok (s.device, a - s.start)
      | none => .error (.unmapped a) := by
  rw [slot?_eq]
  unfold resolve
  cases b.placement? a <;> rfl

theorem resolve_eq_ok_iff :
    b.resolve a = .ok (k, o) ↔ ∃ p, b.placement? a = some p ∧ k = p.device ∧ o = a - p.start := by
  unfold resolve
  cases b.placement? a with
  | none => simp
  | some p => simp [eq_comm]

theorem resolve_eq_error_iff {e : Error} :
    b.resolve a = .error e ↔ ¬ b.Mapped a ∧ e = .unmapped a := by
  rw [mapped_iff_isSome]
  unfold resolve
  cases b.placement? a with
  | none => simp [eq_comm]
  | some p => simp

theorem exists_resolve (h : b.Mapped a) : ∃ k o, b.resolve a = .ok (k, o) := by
  obtain ⟨p, hp⟩ := Option.isSome_iff_exists.1 (mapped_iff_isSome.1 h)
  exact ⟨_, _, resolve_eq_ok_iff.2 ⟨p, hp, rfl, rfl⟩⟩

theorem mapped_of_resolve (h : b.resolve a = .ok (k, o)) : b.Mapped a := by
  obtain ⟨p, hp, -⟩ := resolve_eq_ok_iff.1 h
  exact mapped_iff_isSome.2 (by rw [hp]; rfl)

/-- An address leads into its device. -/
theorem lt_of_resolve (h : b.resolve a = .ok (k, o)) : 0 ≤ o ∧ o < (b.device k).size := by
  obtain ⟨p, hp, rfl, rfl⟩ := resolve_eq_ok_iff.1 h
  have hc : (b.region p).Contains a := by simpa using List.find?_some hp
  exact (Region.contains_iff (b.region p) a).1 hc

theorem kind?_of_resolve (h : b.resolve a = .ok (k, o)) : b.kind? a = some (b.device k).kind := by
  obtain ⟨p, hp, rfl, rfl⟩ := resolve_eq_ok_iff.1 h
  unfold kind?
  rw [slot?_eq, hp]
  rfl

theorem mapped_of_kind? {q : Device.Kind} (h : b.kind? a = some q) : b.Mapped a :=
  mapped_iff_isSome_kind?.2 (by rw [h]; rfl)

theorem kind?_of_mapped (h : b.Mapped a) : b.kind? a = some .ram ∨ b.kind? a = some .rom := by
  obtain ⟨k, o, h⟩ := exists_resolve h
  rw [kind?_of_resolve h]
  cases (b.device k).kind <;> simp

/-- There are no bytes behind the last number. -/
theorem lt_length_of_size_pos (h : 0 < (b.device k).size) : k < b.devices.length := by
  refine Classical.byContradiction fun hk => ?_
  unfold device at h
  rw [List.getD_eq_getElem?_getD, List.getElem?_eq_none (Nat.le_of_not_lt hk)] at h
  exact Nat.lt_irrefl 0 h

theorem number_lt_of_resolve (h : b.resolve a = .ok (k, o)) : k < b.devices.length := by
  have := lt_of_resolve h
  exact lt_length_of_size_pos (by omega)

theorem number_mem_of_resolve (h : b.resolve a = .ok (k, o)) : k ∈ b.placements.map (·.device) := by
  obtain ⟨p, hp, rfl, -⟩ := resolve_eq_ok_iff.1 h
  exact List.mem_map_of_mem (List.mem_of_find?_eq_some hp)

theorem size_eq (b : Bus) : b.size = b.layout.foldl (fun n s => max n (s.start + s.size)) 0 := by
  unfold size layout regions
  rw [List.foldl_map, List.foldl_map]
  rfl

theorem lostWrite?_eq (b : Bus) (a : Int) :
    b.lostWrite? a = (b.slot? a).bind fun s => if s.kind = .rom then some (a - s.start) else none := by
  unfold lostWrite? resolve
  rw [slot?_eq]
  cases b.placement? a <;> rfl

theorem lostWrite?_isSome_iff : (b.lostWrite? a).isSome ↔ b.kind? a = some .rom := by
  rw [lostWrite?_eq, kind?]
  cases b.slot? a with
  | none => simp
  | some s => by_cases h : s.kind = .rom <;> simp [h]

/-! ### Buses of one layout -/

section congr

variable (h : b.layout = c.layout)
include h

theorem slot?_congr (a : Int) : b.slot? a = c.slot? a := by
  unfold slot?
  rw [h]

theorem resolve_congr (a : Int) : b.resolve a = c.resolve a := by
  rw [resolve_eq, resolve_eq, slot?_congr h]

theorem kind?_congr (a : Int) : b.kind? a = c.kind? a := by
  unfold kind?
  rw [slot?_congr h]

theorem mapped_congr (a : Int) : b.Mapped a ↔ c.Mapped a := by
  rw [mapped_iff_isSome_kind?, mapped_iff_isSome_kind?, kind?_congr h]

theorem sameCell_congr (a x : Int) : b.SameCell a x ↔ c.SameCell a x := by
  unfold SameCell
  rw [mapped_congr h, resolve_congr h, resolve_congr h]

theorem size_congr : b.size = c.size := by
  rw [size_eq, size_eq, h]

theorem lostWrite?_congr (a : Int) : b.lostWrite? a = c.lostWrite? a := by
  rw [lostWrite?_eq, lostWrite?_eq, slot?_congr h]

theorem unshared_congr : b.Unshared ↔ c.Unshared := by
  have hnumbers := congrArg (List.map Slot.device) h
  unfold layout at hnumbers
  rw [List.map_map, List.map_map] at hnumbers
  exact iff_of_eq (congrArg List.Nodup hnumbers)

end congr

/-! ### Addresses that share a cell -/

namespace SameCell

theorem refl (h : b.Mapped a) : b.SameCell a a := ⟨h, rfl⟩

theorem mapped (h : b.SameCell a x) : b.Mapped x := by
  obtain ⟨k, o, hr⟩ := exists_resolve h.1
  exact mapped_of_resolve (h.2 ▸ hr)

theorem kind?_eq (h : b.SameCell a x) : b.kind? a = b.kind? x := by
  obtain ⟨k, o, hr⟩ := exists_resolve h.1
  rw [kind?_of_resolve hr, kind?_of_resolve (h.2 ▸ hr)]

/-- In one place a device has one address for each of its cells. -/
theorem eq (h : b.SameCell a x) (hb : b.Unshared) : a = x := by
  obtain ⟨k, o, hr⟩ := exists_resolve h.1
  obtain ⟨p, hp, rfl, rfl⟩ := resolve_eq_ok_iff.1 hr
  obtain ⟨q, hq, hk, ho⟩ := resolve_eq_ok_iff.1 (h.2 ▸ hr)
  have hpq : p = q := List.inj_on_of_nodup_map hb (List.mem_of_find?_eq_some hp)
    (List.mem_of_find?_eq_some hq) hk
  subst hpq
  omega

end SameCell

instance (b : Bus) (a x : Int) : Decidable (b.SameCell a x) :=
  decidable_of_iff (b.Mapped a ∧ (b.resolve a).toOption = (b.resolve x).toOption) <| by
    refine and_congr_right fun hm => ⟨fun h => ?_, fun h => by rw [h]⟩
    obtain ⟨k, o, hr⟩ := exists_resolve hm
    rw [hr] at h ⊢
    cases hx : b.resolve x with
    | ok c =>
      rw [hx] at h
      exact congrArg Except.ok (Option.some.inj h)
    | error e =>
      rw [hx] at h
      cases h

theorem sameCell_iff_of_unshared (hb : b.Unshared) : b.SameCell a x ↔ b.Mapped a ∧ a = x := by
  constructor
  · intro h
    exact ⟨h.1, h.eq hb⟩
  · rintro ⟨hm, rfl⟩
    exact .refl hm

end Bus

end Chip8
