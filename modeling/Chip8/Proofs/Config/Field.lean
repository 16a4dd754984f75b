import Chip8.Proofs.Config.Faults

/-!
# Fields and entries

Each field of a configuration is what the entry of its name says, and what goes without saying when
there is none (`Config.Field`). For a field that is looked up by its name this is read off from the lookup
(`readIntOr_eq_ok_iff`, `readColor_eq_ok_iff`). A dialect comes of its entries one after the other, as each
of them makes one choice and leaves the others alone (`readChoices_eq_ok_iff`).
-/

namespace Chip8

namespace Config

open Document (Value lookup?)

variable {v : Value} {entries es fs : List (Value × Value)} {name : String} {t : Text}
  {holds : Value → Prop} {otherwise : Prop}

section results

variable {α β : Type} {a : α}

theorem bind_eq_ok_iff {x : Except Error β} {f : β → Except Error α} :
    (x >>= f) = .ok a ↔ ∃ b, x = .ok b ∧ f b = .ok a := by
  cases x with
  | error e => exact ⟨nofun, fun ⟨_, h, _⟩ => nomatch h⟩
  | ok b => exact ⟨fun h => ⟨b, rfl, h⟩, fun ⟨_, hb, h⟩ => by cases hb; exact h⟩

/-- A check in front of an answer. -/
theorem check_eq_ok_iff {p : Prop} [Decidable p] {e : Error} {f : PUnit → Except Error α}
    {x : Except Error α} :
    (if p then throw e >>= f else x) = .ok a ↔ ¬ p ∧ x = .ok a := by
  by_cases hp : p
  · rw [if_pos hp]
    exact ⟨nofun, fun h => absurd hp h.1⟩
  · rw [if_neg hp]
    exact ⟨fun h => ⟨hp, h⟩, fun h => h.2⟩

end results

/-- The texts among the names of entries. -/
def names (entries : List (Value × Value)) : List Text := entries.filterMap fun e => asText? e.1

/-- No text is the name of two entries. -/
def EachOnce (entries : List (Value × Value)) : Prop := (names entries).Nodup

instance (entries : List (Value × Value)) : Decidable (EachOnce entries) :=
  inferInstanceAs (Decidable (List.Nodup _))

@[simp] theorem names_nil : names [] = [] := rfl

@[simp] theorem names_cons_text (t : Text) (v : Value) (entries : List (Value × Value)) :
    names ((.text t, v) :: entries) = t :: names entries := rfl

theorem asText?_eq_some_iff : asText? v = some t ↔ v = .text t := by
  cases v <;> simp [asText?]

theorem mem_names_iff : t ∈ names entries ↔ ∃ v, (.text t, v) ∈ entries := by
  simp [names, asText?_eq_some_iff]

theorem names_append (es fs : List (Value × Value)) : names (es ++ fs) = names es ++ names fs :=
  List.filterMap_append

theorem names_perm (hp : es.Perm fs) : (names es).Perm (names fs) := hp.filterMap _

theorem EachOnce.unique (h : EachOnce entries) {w : Value} (hv : (.text t, v) ∈ entries)
    (hw : (.text t, w) ∈ entries) : v = w := by
  induction entries with
  | nil => cases hv
  | cons e entries ih =>
    have ho : EachOnce entries := h.sublist ((List.sublist_cons_self e entries).filterMap _)
    rcases List.mem_cons.1 hv with rfl | hv'
    · rcases List.mem_cons.1 hw with hw' | hw'
      · cases hw'
        rfl
      · exact absurd (mem_names_iff.2 ⟨w, hw'⟩) (List.nodup_cons.1 h).1
    · rcases List.mem_cons.1 hw with rfl | hw'
      · exact absurd (mem_names_iff.2 ⟨v, hv'⟩) (List.nodup_cons.1 h).1
      · exact ih ho hv' hw'

theorem EachOnce.perm (h : EachOnce es) (hp : es.Perm fs) : EachOnce fs :=
  (names_perm hp).nodup_iff.1 h

/-- A field that has a name: it is as its entry says, or as it is otherwise. -/
structure Field (entries : List (Value × Value)) (name : String) (holds : Value → Prop)
    (otherwise : Prop) : Prop where
  named : ∀ v, (.text name, v) ∈ entries → holds v
  unnamed : (∀ v, (.text name, v) ∉ entries) → otherwise

/-! ### Fields that are looked up -/

theorem lookup?_eq_none_iff : lookup? name entries = none ↔ ∀ v, (.text name, v) ∉ entries := by
  simp only [lookup?, Option.map_eq_none_iff, List.find?_eq_none, Value.sameKey_text_iff]
  constructor
  · exact fun h v hv => h _ hv rfl
  · rintro h ⟨k, v⟩ hv rfl
    exact h v hv

theorem mem_of_lookup? (h : lookup? name entries = some v) : (.text name, v) ∈ entries := by
  obtain ⟨e, hf, rfl⟩ := Option.map_eq_some_iff.1 h
  have hk := List.find?_some hf
  rw [← Value.sameKey_text_iff.1 hk]
  exact List.mem_of_find?_eq_some hf

theorem lookup?_eq_some_iff (h : EachOnce entries) :
    lookup? name entries = some v ↔ (.text name, v) ∈ entries := by
  refine ⟨mem_of_lookup?, fun hv => ?_⟩
  cases hl : lookup? name entries with
  | none => exact absurd hv (lookup?_eq_none_iff.1 hl v)
  | some w => rw [h.unique (mem_of_lookup? hl) hv]

/-- The field of a name is decided by a lookup of the name. -/
theorem field_iff (h : EachOnce entries) : Field entries name holds otherwise ↔
    match lookup? name entries with
    | some v => holds v
    | none => otherwise := by
  cases hl : lookup? name entries with
  | none =>
    have hn := lookup?_eq_none_iff.1 hl
    exact ⟨fun hf => hf.unnamed hn, fun ho => ⟨fun v hv => absurd hv (hn v), fun _ => ho⟩⟩
  | some v =>
    have hv := (lookup?_eq_some_iff h).1 hl
    refine ⟨fun hf => hf.named v hv, fun hs => ⟨fun w hw => ?_, fun hn => absurd hv (hn v)⟩⟩
    have hw := (lookup?_eq_some_iff h).2 hw
    rw [hl] at hw
    cases hw
    exact hs

theorem field_valueOf (h : EachOnce entries) :
    Field entries name (valueOf entries name = ·) (valueOf entries name = .null) := by
  rw [field_iff h]
  unfold valueOf
  cases lookup? name entries <;> rfl

theorem Field.elim {p : Prop} (h : Field entries name holds otherwise) (hn : ∀ v, holds v → p)
    (hu : otherwise → p) : p := by
  by_cases hv : ∃ v, (.text name, v) ∈ entries
  · obtain ⟨v, hv⟩ := hv
    exact hn v (h.named v hv)
  · exact hu (h.unnamed fun v hm => hv ⟨v, hm⟩)

theorem Field.imp {holds' : Value → Prop} (h : Field entries name holds otherwise)
    (hi : ∀ v, holds v → holds' v) : Field entries name holds' otherwise :=
  ⟨fun v hv => hi v (h.named v hv), h.unnamed⟩

/-- Only the entries of the name matter. -/
theorem Field.congr (h : Field es name holds otherwise)
    (hm : ∀ v, (.text name, v) ∈ es ↔ (.text name, v) ∈ fs) : Field fs name holds otherwise where
  named v hv := h.named v ((hm v).2 hv)
  unnamed hn := h.unnamed fun v hv => hn v ((hm v).1 hv)

theorem Field.perm (h : Field es name holds otherwise) (hp : es.Perm fs) :
    Field fs name holds otherwise := h.congr fun _ => hp.mem_iff

theorem lookup?_perm (h : EachOnce es) (hp : es.Perm fs) : lookup? name es = lookup? name fs := by
  apply Option.ext
  intro v
  rw [lookup?_eq_some_iff h, lookup?_eq_some_iff (h.perm hp), hp.mem_iff]

theorem readIntOr_eq_ok_iff (h : EachOnce entries) {m n : Int} :
    readIntOr entries name n = .ok m ↔ Field entries name (readInt · = .ok m) (m = n) := by
  rw [field_iff h, readIntOr]
  cases lookup? name entries with
  | none => simp [eq_comm]
  | some v => rfl

theorem readColor_eq_ok_iff (h : EachOnce entries) {s : Text} :
    readColor entries name t = .ok s ↔
      Field entries name (fun v => v.plain? = some s ∧ (Color.parse? s).isSome) (s = t) := by
  rw [field_iff h, readColor]
  cases lookup? name entries with
  | none => simp [eq_comm]
  | some v =>
    dsimp only
    cases hv : v.plain? with
    | none => simp
    | some u =>
      dsimp only
      by_cases hc : (Color.parse? u).isSome = true
      · rw [if_pos hc, Except.ok.injEq, Option.some.injEq]
        exact ⟨fun hu => ⟨hu, hu ▸ hc⟩, fun hu => hu.1⟩
      · rw [if_neg hc, Option.some.injEq]
        exact ⟨nofun, fun ⟨hu, hs⟩ => absurd (hu ▸ hs) hc⟩

/-! ### The dialect -/

section dialect

variable {base c c₁ : Dialect} {b b' : Bool} {n : String}

/-- The names of the choices between yes and no. -/
def flagNames : List String := (flags {}).map (·.1)

theorem map_fst_flags (c : Dialect) : (flags c).map (·.1) = flagNames := rfl

theorem mem_choiceNames_iff :
    t ∈ choiceNames ↔ t = "stack_depth" ∨ ∃ n ∈ flagNames, t = Text.ofString n := by
  have h : choiceNames.Perm ("stack_depth" :: flagNames.map Text.ofString) := by decide
  rw [h.mem_iff]
  simp [eq_comm]

theorem mem_flags_setFlag_iff : (n, b') ∈ flags (setFlag c name b) ↔
    ∃ x, (n, x) ∈ flags c ∧ b' = if n = name then b else x := by
  rw [flags_setFlag, List.mem_map]
  constructor
  · rintro ⟨⟨m, x⟩, hx, hm⟩
    cases hm
    exact ⟨x, hx, rfl⟩
  · rintro ⟨x, hx, rfl⟩
    exact ⟨(n, x), hx, rfl⟩

theorem mem_flags_setFlag_self (hn : n ∈ flagNames) : (n, b) ∈ flags (setFlag c n b) := by
  rw [← map_fst_flags c] at hn
  obtain ⟨⟨m, x⟩, hx, rfl⟩ := List.mem_map.1 hn
  exact mem_flags_setFlag_iff.2 ⟨x, hx, (if_pos rfl).symm⟩

theorem eq_of_mem_flags_setFlag (h : (n, b') ∈ flags (setFlag c n b)) : b' = b := by
  obtain ⟨x, -, hx⟩ := mem_flags_setFlag_iff.1 h
  rwa [if_pos rfl] at hx

theorem mem_flags_setFlag_of_ne (hn : n ≠ name) :
    (n, b') ∈ flags (setFlag c name b) ↔ (n, b') ∈ flags c := by
  simp [mem_flags_setFlag_iff, hn]

@[simp] theorem setFlag_stackDepth : (setFlag c n b).stackDepth = c.stackDepth := by
  unfold setFlag
  split <;> rfl

/-- Flags and depth are all there is to a dialect. -/
theorem eq_of_flags (hf : ∀ e ∈ flags c, e ∈ flags base) (hs : c.stackDepth = base.stackDepth) :
    c = base := by
  cases c
  cases base
  simp_all [flags]

theorem Field.of_holds (hn : Text.ofString name ∉ names entries) (h : holds v) :
    Field ((.text name, v) :: entries) name holds otherwise where
  named w hw := by
    rcases List.mem_cons.1 hw with hw | hw
    · cases hw
      exact h
    · exact absurd (mem_names_iff.2 ⟨w, hw⟩) hn
  unnamed hu := absurd List.mem_cons_self (hu v)

theorem field_cons_of_ne (ht : t ≠ Text.ofString name) :
    Field ((.text t, v) :: entries) name holds otherwise ↔ Field entries name holds otherwise := by
  have hm : ∀ w, (Value.text name, w) ∈ (.text t, v) :: entries ↔ (Value.text name, w) ∈ entries := by
    simp [Ne.symm ht]
  exact ⟨fun h => h.congr hm, fun h => h.congr fun w => (hm w).symm⟩

theorem field_of_not_mem (hn : Text.ofString name ∉ names entries) :
    Field entries name holds otherwise ↔ otherwise := by
  have hu : ∀ v, (Value.text name, v) ∉ entries := fun v hv => hn (mem_names_iff.2 ⟨v, hv⟩)
  exact ⟨fun h => h.unnamed hu, fun h => ⟨fun v hv => absurd hv (hu v), fun _ => h⟩⟩

/-- A dialect holds what the entries say, and for the rest the choices of another one. -/
structure Chooses (base : Dialect) (entries : List (Value × Value)) (c : Dialect) : Prop where
  flags : ∀ e ∈ flags c, Field entries e.1 (· = .bool e.2) (e ∈ flags base)
  stackDepth : Field entries "stack_depth" (fun v => readInt v = .ok c.stackDepth ∧ 0 < c.stackDepth)
    (c.stackDepth = base.stackDepth)

theorem readChoice_depth_eq_ok_iff : readChoice base "stack_depth" v = .ok c ↔
    ∃ n, readInt v = .ok n ∧ 0 < n ∧ c = { base with stackDepth := n } := by
  unfold readChoice
  simp only [if_true, bind_eq_ok_iff, check_eq_ok_iff, Int.not_le]
  exact exists_congr fun n => and_congr_right fun _ => and_congr_right fun _ =>
    ⟨fun h => (Except.ok.inj h).symm, fun h => congrArg _ h.symm⟩

theorem ofString_ne_depth (hn : n ∈ flagNames) : Text.ofString n ≠ "stack_depth" := by
  intro h
  rw [Text.ofString_inj.1 h] at hn
  exact absurd hn (by decide)

theorem readChoice_flag_eq_ok_iff (hn : n ∈ flagNames) : readChoice base n v = .ok c ↔
    ∃ b, v = .bool b ∧ c = setFlag base n b := by
  unfold readChoice
  rw [if_neg (ofString_ne_depth hn)]
  cases v <;> simp [Text.string?_ofString, eq_comm]

theorem chooses_nil_iff : Chooses base [] c ↔ c = base := by
  constructor
  · intro h
    exact eq_of_flags (fun e he => (h.flags e he).unnamed (by simp)) (h.stackDepth.unnamed (by simp))
  · rintro rfl
    exact ⟨fun e he => ⟨by simp, fun _ => he⟩, ⟨by simp, fun _ => rfl⟩⟩

theorem chooses_cons_depth (hn : Text.ofString "stack_depth" ∉ names entries) :
    Chooses base ((.text "stack_depth", v) :: entries) c ↔
      ∃ c₁, readChoice base "stack_depth" v = .ok c₁ ∧ Chooses c₁ entries c := by
  have hne : ∀ e ∈ flags c, Text.ofString "stack_depth" ≠ Text.ofString e.1 := fun e he =>
    (ofString_ne_depth (map_fst_flags c ▸ List.mem_map_of_mem he)).symm
  constructor
  · rintro ⟨hf, hs⟩
    obtain ⟨hv, hpos⟩ := hs.named v List.mem_cons_self
    exact ⟨_, readChoice_depth_eq_ok_iff.2 ⟨_, hv, hpos, rfl⟩,
      fun e he => (field_cons_of_ne (hne e he)).1 (hf e he), (field_of_not_mem hn).2 rfl⟩
  · rintro ⟨c₁, h₁, hf, hs⟩
    obtain ⟨n, hv, hpos, rfl⟩ := readChoice_depth_eq_ok_iff.1 h₁
    obtain rfl : c.stackDepth = n := (field_of_not_mem hn).1 hs
    exact ⟨fun e he => (field_cons_of_ne (hne e he)).2 (hf e he), .of_holds hn ⟨hv, hpos⟩⟩

theorem chooses_cons_flag (ht : n ∈ flagNames) (hn : Text.ofString n ∉ names entries) :
    Chooses base ((.text n, v) :: entries) c ↔
      ∃ c₁, readChoice base n v = .ok c₁ ∧ Chooses c₁ entries c := by
  have hd := ofString_ne_depth ht
  constructor
  · rintro ⟨hf, hs⟩
    obtain ⟨⟨m, b⟩, hb, rfl⟩ := List.mem_map.1 (map_fst_flags c ▸ ht)
    have hv : v = .bool b := (hf (m, b) hb).named v List.mem_cons_self
    rw [field_cons_of_ne hd] at hs
    refine ⟨_, (readChoice_flag_eq_ok_iff ht).2 ⟨b, hv, rfl⟩, ?_, by rwa [setFlag_stackDepth]⟩
    rintro ⟨m', b'⟩ hb'
    by_cases hm : m' = m
    · subst hm
      have hv' : v = .bool b' := (hf (m', b') hb').named v List.mem_cons_self
      cases hv.symm.trans hv'
      exact (field_of_not_mem hn).2 (mem_flags_setFlag_self ht)
    · have := (field_cons_of_ne (mt Text.ofString_inj.1 (Ne.symm hm))).1 (hf _ hb')
      simpa only [mem_flags_setFlag_of_ne hm] using this
  · rintro ⟨c₁, h₁, hf, hs⟩
    obtain ⟨b, rfl, rfl⟩ := (readChoice_flag_eq_ok_iff ht).1 h₁
    rw [setFlag_stackDepth] at hs
    refine ⟨?_, (field_cons_of_ne hd).2 hs⟩
    rintro ⟨m, b'⟩ hb'
    by_cases hm : m = n
    · subst hm
      have hb : b' = b := eq_of_mem_flags_setFlag ((field_of_not_mem hn).1 (hf _ hb'))
      exact .of_holds hn (by rw [hb])
    · have := hf _ hb'
      rw [mem_flags_setFlag_of_ne hm] at this
      exact (field_cons_of_ne (mt Text.ofString_inj.1 (Ne.symm hm))).2 this

theorem Chooses.perm (h : Chooses base es c) (hp : es.Perm fs) : Chooses base fs c :=
  ⟨fun e he => (h.flags e he).perm hp, h.stackDepth.perm hp⟩

/-- The choices are made one after the other, and the dialect that comes out holds what the entries say. -/
theorem readChoices_eq_ok_iff (ht : ∀ e ∈ entries, e.1.IsText)
    (hk : ∀ t ∈ names entries, t ∈ choiceNames) (ho : EachOnce entries) :
    readChoices base entries = .ok c ↔ Chooses base entries c := by
  induction entries generalizing base with
  | nil =>
    rw [chooses_nil_iff, readChoices, Except.ok.injEq, eq_comm]
  | cons e entries ih =>
    obtain ⟨k, v⟩ := e
    obtain ⟨⟨t, rfl⟩, hts⟩ := List.forall_mem_cons.1 ht
    obtain ⟨hn, ho⟩ := List.nodup_cons.1 ho
    have hrest {c₁ : Dialect} : readChoices c₁ entries = .ok c ↔ Chooses c₁ entries c :=
      ih hts (fun s hs => hk s (List.mem_cons_of_mem _ hs)) ho
    simp only [readChoices, bind_eq_ok_iff, hrest]
    rcases mem_choiceNames_iff.1 (hk t List.mem_cons_self) with rfl | ⟨n, hf, rfl⟩
    · exact (chooses_cons_depth hn).symm
    · exact (chooses_cons_flag hf hn).symm

end dialect

end Config

end Chip8
