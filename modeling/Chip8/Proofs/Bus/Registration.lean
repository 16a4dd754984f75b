import Mathlib.Data.List.Pairwise
import Mathlib.Logic.ExistsUnique
import Chip8.Proofs.Bus.Extent

/-!
# The order of registrations

Regions that share no address can be registered in any order, and with rejected registrations among
them: the bus always comes to hold the same row of regions (`registration_order_irrelevant`). The devices
are those of the bus from the start on, and a registration names one of them: it either puts a placement
into the row or leaves the bus alone (`call_registration`). The row is kept in the order of the first
addresses, and disjoint regions can stand in that order in one way only (`Arranged.unique`).
-/

namespace Chip8

namespace Region

variable {r s : Region} {a : Int}

def Disjoint (r s : Region) : Prop := ∀ a, ¬ (r.Contains a ∧ s.Contains a)

theorem Disjoint.symm (h : r.Disjoint s) : s.Disjoint r := fun a ha => h a ha.symm

theorem disjoint_of_stop_le (h : r.stop ≤ s.start) : r.Disjoint s := by
  intro a ⟨hr, hs⟩
  have := hr.2
  have := hs.1
  omega

theorem contains_start (h : 0 < r.device.size) : r.Contains r.start := by
  rw [contains_iff]
  omega

/-- A region with an address starts where no disjoint one starts. -/
theorem Disjoint.start_ne (h : r.Disjoint s) (hr : 0 < r.device.size) (hs : 0 < s.device.size) :
    r.start ≠ s.start := by
  intro he
  refine h r.start ⟨contains_start hr, ?_⟩
  rw [he]
  exact contains_start hs

end Region

namespace Bus

/-- What `Bus.place` is called with. The number of no device stands for what is no device. -/
structure Registration where
  first : Int
  last : Int
  device : Nat

/-- The placement that a registration puts on a bus with the devices `ds`, if its range is one and the
device fits into it. -/
def Registration.placement? (ds : List Device) (g : Registration) : Option Placement :=
  ds[g.device]?.bind fun d =>
    if 0 ≤ g.first ∧ g.first ≤ g.last ∧ g.last - g.first + 1 = d.size then
      some ⟨g.first.toNat, g.device⟩
    else none

def Registration.call (g : Registration) : Call := .place g.first g.last g.device

/-- The bus after registrations one after the other, rejected ones included. -/
def registerAll (b : Bus) (gs : List Registration) : Bus := b.calls (gs.map Registration.call)

/-- The registrations that are not rejected bring these placements, each of them once. -/
def Bring (ds : List Device) (gs : List Registration) (ps : List Placement) : Prop :=
  (gs.filterMap (Registration.placement? ds)).Perm ps

instance (ds : List Device) (gs : List Registration) (ps : List Placement) : Decidable (Bring ds gs ps) :=
  inferInstanceAs (Decidable (List.Perm _ _))

/-- The placements share no address. -/
def Apart (b : Bus) (p q : Placement) : Prop := (b.region p).Disjoint (b.region q)

instance (b : Bus) : Std.Symm b.Apart := ⟨fun _ _ => Region.Disjoint.symm⟩

variable {b c : Bus} {ds : List Device} {g : Registration} {gs hs : List Registration} {p q : Placement}
  {ps : List Placement} {a : Int}

/-! ### One registration -/

theorem placement?_eq_some_iff :
    g.placement? b.devices = some p ↔ b.Accepts g.call ∧ p = ⟨g.first.toNat, g.device⟩ := by
  unfold Registration.placement? Registration.call Accepts
  rw [Option.bind_eq_some_iff]
  constructor
  · rintro ⟨d, hd, hp⟩
    split at hp
    · rename_i hrange
      cases hp
      exact ⟨⟨hrange.1, hrange.2.1, d, hd, hrange.2.2⟩, rfl⟩
    · cases hp
  · rintro ⟨⟨h₀, hle, d, hd, hs⟩, rfl⟩
    exact ⟨d, hd, if_pos ⟨h₀, hle, hs⟩⟩

theorem size_pos_of_placement? (h : g.placement? b.devices = some p) : 0 < (b.region p).device.size := by
  obtain ⟨⟨h₀, hle, d, hd, hs⟩, rfl⟩ := placement?_eq_some_iff.1 h
  have hdevice : (b.region ⟨g.first.toNat, g.device⟩).device = d := by
    show b.devices.getD g.device _ = d
    rw [List.getD_eq_getElem?_getD, hd]
    rfl
  rw [hdevice]
  omega

/-- A registration puts its placement into the row, or it is rejected and changes nothing. -/
theorem call_registration (b : Bus) (g : Registration) :
    (∃ p, g.placement? b.devices = some p ∧
      b.call g.call = ⟨{ b with placements := insertPlacement p b.placements }, .ok .done, []⟩) ∨
    (g.placement? b.devices = none ∧ ∃ e, b.call g.call = ⟨b, .error e, []⟩) := by
  rw [Registration.call, call_place]
  rcases b.place_cases g.first g.last g.device with ⟨ha, h⟩ | ⟨ha, e, h, -⟩
  · rw [h]
    exact .inl ⟨_, placement?_eq_some_iff.2 ⟨ha, rfl⟩, rfl⟩
  · rw [h]
    refine .inr ⟨Option.eq_none_iff_forall_ne_some.2 fun p hp => ?_, .bus e, rfl⟩
    exact ha (placement?_eq_some_iff.1 hp).1

/-! ### Many registrations -/

theorem registerAll_eq (b : Bus) (gs : List Registration) :
    b.registerAll gs = { b with
      placements := (gs.filterMap (Registration.placement? b.devices)).foldl
        (fun ps p => insertPlacement p ps) b.placements } := by
  induction gs generalizing b with
  | nil => rfl
  | cons g gs ih =>
    have hcons : b.registerAll (g :: gs) = (b.call g.call).state.registerAll gs := rfl
    rw [hcons, ih]
    rcases call_registration b g with ⟨p, hg, hc⟩ | ⟨hg, e, hc⟩
    · rw [hc, List.filterMap_cons_some hg, List.foldl_cons]
    · rw [hc, List.filterMap_cons_none hg]

theorem perm_foldl_insertPlacement (qs ps : List Placement) :
    (qs.foldl (fun ps p => insertPlacement p ps) ps).Perm (qs ++ ps) := by
  induction qs generalizing ps with
  | nil => exact .refl _
  | cons q qs ih =>
    refine (ih (insertPlacement q ps)).trans ?_
    exact ((perm_insertPlacement q ps).append_left qs).trans List.perm_middle

theorem sorted_foldl_insertPlacement (qs : List Placement) (h : ps.Pairwise (·.start ≤ ·.start)) :
    (qs.foldl (fun ps p => insertPlacement p ps) ps).Pairwise (·.start ≤ ·.start) := by
  induction qs generalizing ps with
  | nil => exact h
  | cons q qs ih => exact ih (sorted_insertPlacement h q)

/-- The bus holds these placements in the order of their first addresses, which all differ. -/
structure Arranged (ds : List Device) (ps : List Placement) (b : Bus) : Prop where
  devices_eq : b.devices = ds
  perm : b.placements.Perm ps
  increasing : b.placements.Pairwise (·.start < ·.start)

theorem arranged_registerAll (hps : ps.Pairwise (Apart { devices := ds })) (hg : Bring ds gs ps) :
    Arranged ds ps (({ devices := ds } : Bus).registerAll gs) := by
  have hperm : (({ devices := ds } : Bus).registerAll gs).placements.Perm ps := by
    rw [registerAll_eq]
    refine (perm_foldl_insertPlacement _ _).trans ?_
    rw [List.append_nil]
    exact hg
  have hsorted : (({ devices := ds } : Bus).registerAll gs).placements.Pairwise (·.start ≤ ·.start) := by
    rw [registerAll_eq]
    exact sorted_foldl_insertPlacement _ .nil
  refine ⟨by rw [registerAll_eq], hperm, ?_⟩
  have hdisjoint := hps.perm hperm.symm Region.Disjoint.symm
  refine (hsorted.and hdisjoint).imp_of_mem fun {p q} hp hq h => ?_
  have hsize : ∀ r ∈ ps, 0 < (({ devices := ds } : Bus).region r).device.size := by
    intro r hr
    obtain ⟨g, -, hg⟩ := List.mem_filterMap.1 (hg.mem_iff.2 hr)
    exact size_pos_of_placement? hg
  have hne := h.2.start_ne (hsize p (hperm.mem_iff.1 hp)) (hsize q (hperm.mem_iff.1 hq))
  exact Nat.lt_of_le_of_ne h.1 hne

namespace Arranged

/-- There is one way only to stand in the order of different first addresses. -/
theorem unique (hb : Arranged ds ps b) (hc : Arranged ds ps c) : b.placements = c.placements := by
  refine List.Perm.eq_of_pairwise (fun r s _ _ h h' => ?_) hb.increasing hc.increasing
    (hb.perm.trans hc.perm.symm)
  omega

theorem region_eq (hb : Arranged ds ps b) (p : Placement) :
    b.region p = ({ devices := ds } : Bus).region p := by
  unfold region device
  rw [hb.devices_eq]

theorem mapped_iff (hb : Arranged ds ps b) : b.Mapped a ↔ ∃ p ∈ ps, (b.region p).Contains a := by
  simp [Mapped, regions, hb.perm.mem_iff]

theorem mapped_iff_existsUnique (hb : Arranged ds ps b) (hps : ps.Pairwise b.Apart) :
    b.Mapped a ↔ ∃! p, p ∈ ps ∧ (b.region p).Contains a := by
  rw [hb.mapped_iff]
  constructor
  · rintro ⟨p, hp, ha⟩
    refine ⟨p, ⟨hp, ha⟩, ?_⟩
    rintro q ⟨hq, hqa⟩
    exact Classical.byContradiction fun hne => hps.forall hq hp hne a ⟨hqa, ha⟩
  · rintro ⟨p, hp, -⟩
    exact ⟨p, hp⟩

/-- The first region found is the only one that there is. -/
theorem placement?_eq_some_iff (hb : Arranged ds ps b) (hps : ps.Pairwise b.Apart) :
    b.placement? a = some p ↔ p ∈ ps ∧ (b.region p).Contains a := by
  have hfound {q : Placement} (h : b.placement? a = some q) : q ∈ ps ∧ (b.region q).Contains a :=
    ⟨hb.perm.mem_iff.1 (List.mem_of_find?_eq_some h), by simpa using List.find?_some h⟩
  refine ⟨hfound, fun h => ?_⟩
  have hm : b.Mapped a := hb.mapped_iff.2 ⟨p, h⟩
  obtain ⟨q, hq⟩ := Option.isSome_iff_exists.1 (mapped_iff_isSome.1 hm)
  rw [hq, ((hb.mapped_iff_existsUnique hps).1 hm).unique (hfound hq) h]

end Arranged

/-! ### The device that answers -/

/-- Both buses hold these placements in one order, and answer for every address alike. -/
structure ArrangedAlike (ds : List Device) (ps : List Placement) (b c : Bus) : Prop
    extends Arranged ds ps b where
  other : Arranged ds ps c
  placements_eq : b.placements = c.placements
  regions_eq : b.regions = c.regions
  size_eq : b.size = c.size
  resolve_eq (a : Int) : b.resolve a = c.resolve a
  resolve_ok_iff (a : Int) (k : Nat) (o : Int) :
    b.resolve a = .ok (k, o) ↔
      ∃ p ∈ ps, (b.region p).Contains a ∧ k = p.device ∧ o = a - p.start
  resolve_error_iff (a : Int) (e : Error) :
    b.resolve a = .error e ↔ (∀ p ∈ ps, ¬ (b.region p).Contains a) ∧ e = .unmapped a
  mapped_iff_existsUnique (a : Int) : b.Mapped a ↔ ∃! p, p ∈ ps ∧ (b.region p).Contains a

theorem Arranged.alike (hps : ps.Pairwise (Apart { devices := ds })) (hb : Arranged ds ps b)
    (hc : Arranged ds ps c) : ArrangedAlike ds ps b c := by
  have hplacements := hb.unique hc
  have hregion : b.region = c.region := funext fun p => (hb.region_eq p).trans (hc.region_eq p).symm
  have hregions : b.regions = c.regions := by
    unfold regions
    rw [hregion, hplacements]
  have hps : ps.Pairwise b.Apart := by
    unfold Apart
    simp only [hb.region_eq]
    exact hps
  refine ⟨hb, hc, hplacements, hregions, ?_, fun a => ?_, fun a k o => ?_, fun a e => ?_,
    fun a => hb.mapped_iff_existsUnique hps⟩
  · unfold size
    rw [hregions]
  · unfold resolve placement?
    rw [hregion, hplacements]
  · simp only [resolve_eq_ok_iff, hb.placement?_eq_some_iff hps, and_assoc]
  · simp [resolve_eq_error_iff, hb.mapped_iff]

/-- Whatever the order of the registrations, and whichever others are rejected between them, the bus
comes to the same. Those that are rejected are those that bring no placement, and change nothing. -/
theorem registration_order_irrelevant (hps : ps.Pairwise (Apart { devices := ds })) (hg : Bring ds gs ps)
    (hh : Bring ds hs ps) :
    ArrangedAlike ds ps (({ devices := ds } : Bus).registerAll gs)
        (({ devices := ds } : Bus).registerAll hs) ∧
      ∀ (b : Bus) (g : Registration),
        g.placement? b.devices = none ↔ ∃ e, b.call g.call = ⟨b, .error e, []⟩ := by
  refine ⟨(arranged_registerAll hps hg).alike hps (arranged_registerAll hps hh), fun b g => ?_⟩
  rcases call_registration b g with ⟨p, hg, hc⟩ | ⟨hg, e, hc⟩
  · simp [hg, hc]
  · simp [hg, hc]

/-- Three regions of two devices, one of which stands in two places, and with them a range that ends
before it starts and a device that there is not: once from the front and once from behind. -/
theorem registration_order_irrelevant_of_three :
    let ds : List Device := [.blank .rom 2, .blank .ram 2]
    let ps : List Placement := [⟨0, 0⟩, ⟨4, 1⟩, ⟨6, 1⟩]
    let gs : List Registration := [⟨0, 1, 0⟩, ⟨9, 8, 0⟩, ⟨4, 5, 1⟩, ⟨2, 3, 7⟩, ⟨6, 7, 1⟩]
    let hs : List Registration := [⟨6, 7, 1⟩, ⟨4, 5, 1⟩, ⟨0, 1, 0⟩]
    (ps.Pairwise (Apart { devices := ds }) ∧ Bring ds gs ps ∧ Bring ds hs ps) ∧
      ArrangedAlike ds ps (({ devices := ds } : Bus).registerAll gs)
        (({ devices := ds } : Bus).registerAll hs) := by
  intro ds ps gs hs
  have hrow : ps.Pairwise fun p q =>
      (({ devices := ds } : Bus).region p).stop ≤ (({ devices := ds } : Bus).region q).start := by decide
  have hps : ps.Pairwise (Apart { devices := ds }) := hrow.imp Region.disjoint_of_stop_le
  have hg : Bring ds gs ps := by decide
  have hh : Bring ds hs ps := by decide
  exact ⟨⟨hps, hg, hh⟩, (registration_order_irrelevant hps hg hh).1⟩

end Bus

end Chip8
