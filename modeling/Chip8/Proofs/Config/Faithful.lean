import Chip8.Proofs.Config.Keys

/-!
# What an accepted configuration says

A document whose sections are mappings of names is accepted with a configuration that is in order
(`Config.Valid`) and holds what the entries say, and the default where there is none (`Config.Says`). In
another order, the entries lead to the same (`Config.Agree`), unless names of keys become one in
capitals: there the last entry decides.
-/

namespace Chip8

namespace Document

variable {d d' : Document} {v : Value} {es fs : List (Value × Value)} {t : Text} {n : Nat}

/-- The entries of a mapping may stand in another order. -/
inductive Part.Reordered : Part → Part → Prop
  | same (p : Part) : Reordered p p
  | map {es fs : List (Value × Value)} (h : es.Perm fs) : Reordered (.map es) (.map fs)

structure Reordered (d d' : Document) : Prop where
  root : d.root = d'.root
  parts (n : Nat) : Option.Rel Part.Reordered d.parts[n]? d'.parts[n]?

theorem entries?_eq_some_iff :
    d.entries? v = some es ↔ ∃ n, v = .part n ∧ d.parts[n]? = some (.map es) := by
  cases v with
  | part n =>
    simp only [entries?, part?, Value.part.injEq, exists_eq_left']
    cases d.parts[n]? with
    | none => simp
    | some p => cases p <;> simp
  | _ => simp [entries?, part?]

theorem Part.Reordered.symm {p q : Part} (h : p.Reordered q) : q.Reordered p := by
  cases h with
  | same => exact .same p
  | map hp => exact .map hp.symm

theorem Reordered.symm (h : d.Reordered d') : d'.Reordered d where
  root := h.root.symm
  parts n := by
    have hn := h.parts n
    generalize d.parts[n]? = p, d'.parts[n]? = q at hn ⊢
    cases hn with
    | some hp => exact .some hp.symm
    | none => exact .none

theorem Reordered.entries? (h : d.Reordered d') (he : d.entries? v = some es) :
    ∃ fs, d'.entries? v = some fs ∧ es.Perm fs := by
  obtain ⟨n, rfl, hn⟩ := entries?_eq_some_iff.1 he
  have hr := h.parts n
  rw [hn] at hr
  generalize hq : d'.parts[n]? = q at hr
  cases hr with
  | some hp =>
    cases hp with
    | same => exact ⟨es, entries?_eq_some_iff.2 ⟨n, rfl, hq⟩, .refl es⟩
    | map hp => exact ⟨_, entries?_eq_some_iff.2 ⟨n, rfl, hq⟩, hp⟩

/-- A value that is no part is shown by itself. -/
theorem plain?_of_value (h : v.plain? = some t) : d.plain? v = some t := by
  cases v with
  | part n => cases h
  | _ => exact h

end Document

namespace Config

open Document (Value)

variable {d d' : Document} {v : Value} {entries es fs : List (Value × Value)} {α : Type}

/-! ### Sections -/

/-- No value, or a mapping of names. -/
def Named (d : Document) (v : Value) : Prop :=
  v = .null ∨ ∃ es, d.entries? v = some es ∧ EachOnce es ∧ ∀ e ∈ es, e.1.IsText

/-- A section that is no mapping has no entries. -/
def sectionEntries (d : Document) (v : Value) : List (Value × Value) := (d.entries? v).getD []

theorem Named.once (h : Named d v) : EachOnce (sectionEntries d v) := by
  rcases h with rfl | ⟨es, he, ho, -⟩
  · exact List.nodup_nil
  · rwa [sectionEntries, he]

theorem Named.isText (h : Named d v) : ∀ e ∈ sectionEntries d v, e.1.IsText := by
  rcases h with rfl | ⟨es, he, -, ht⟩
  · exact nofun
  · rwa [sectionEntries, he]

/-- A section is read by its entries, of which there are none where it is missing. -/
theorem Named.readSection_eq (h : Named d v) {missing : α} {read : Document → Value → Except Error α}
    {f : List (Value × Value) → Except Error α} (hf : f [] = .ok missing)
    (hread : ∀ es, d.entries? v = some es → read d v = f es) :
    readSection d v missing read = f (sectionEntries d v) := by
  rcases h with rfl | ⟨es, he, -⟩
  · exact hf.symm
  · rw [sectionEntries, he, Option.getD_some]
    obtain ⟨n, rfl, hn⟩ := Document.entries?_eq_some_iff.1 he
    have hempty : d.isEmpty (.part n) = es.isEmpty := by
      simp [Document.isEmpty, hn, Document.Part.isEmpty]
    rw [readSection, hempty]
    cases es with
    | nil => exact hf.symm
    | cons e es => exact hread _ he

theorem section_of_entries (h : d.entries? v = some es) : Section.of d v = .map es := by
  obtain ⟨n, rfl, hn⟩ := Document.entries?_eq_some_iff.1 h
  simp [Section.of, Document.part?, hn]

theorem checkNames_eq_ok_iff (h : ∀ e ∈ es, e.1.IsText) :
    checkNames (es.map (·.1)) = .ok () ↔ ∀ t ∈ names es, t ∈ choiceNames := by
  have hk : ∀ k ∈ es.map (·.1), k.IsText := by simpa using h
  obtain ⟨ts, hts⟩ := exists_eq_map_text hk
  have hn : names es = ts := by
    have hn : names es = (es.map (·.1)).filterMap asText? := by
      rw [List.filterMap_map]
      rfl
    rw [hn, hts, List.filterMap_map]
    exact List.filterMap_some
  rw [hts, checkNames_map_text, hn]
  by_cases hu : ts.filter (· ∉ choiceNames) = []
  · rw [if_neg (· hu)]
    simpa using hu
  · rw [if_pos hu]
    refine ⟨nofun, fun hk => absurd ?_ hu⟩
    simpa using hk

/-- The dialect of a section's entries. -/
def dialectOf (es : List (Value × Value)) : Except Error Dialect := do
  checkNames (es.map (·.1))
  readChoices {} es

theorem dialectOf_eq_ok_iff (ht : ∀ e ∈ es, e.1.IsText) (ho : EachOnce es) {c : Dialect} :
    dialectOf es = .ok c ↔ (∀ t ∈ names es, t ∈ choiceNames) ∧ Chooses {} es c := by
  rw [dialectOf, bind_eq_ok_iff]
  constructor
  · rintro ⟨_, hn, hc⟩
    have hn := (checkNames_eq_ok_iff ht).1 hn
    exact ⟨hn, (readChoices_eq_ok_iff ht hn ho).1 hc⟩
  · rintro ⟨hn, hc⟩
    exact ⟨(), (checkNames_eq_ok_iff ht).2 hn, (readChoices_eq_ok_iff ht hn ho).2 hc⟩

/-- The display of a section's entries. -/
def displayOf (es : List (Value × Value)) : Except Error Display := do
  let onColor ← readColor es "on_color" ({} : Display).onColor
  let offColor ← readColor es "off_color" ({} : Display).offColor
  let scale ← readIntOr es "scale" ({} : Display).scale
  if scale ≤ 0 then throw .scaleNotPositive
  return { onColor, offColor, scale }

/-- A display holds what the entries say, colors as they are written. -/
structure Shows (es : List (Value × Value)) (x : Display) : Prop where
  onColor : Field es "on_color" (fun v => v.plain? = some x.onColor ∧ (Color.parse? x.onColor).isSome)
    (x.onColor = ({} : Display).onColor)
  offColor : Field es "off_color" (fun v => v.plain? = some x.offColor ∧ (Color.parse? x.offColor).isSome)
    (x.offColor = ({} : Display).offColor)
  scale : Field es "scale" (readInt · = .ok x.scale) (x.scale = ({} : Display).scale)
  positive : 0 < x.scale

theorem displayOf_eq_ok_iff (ho : EachOnce es) {x : Display} : displayOf es = .ok x ↔ Shows es x := by
  simp only [displayOf, bind_eq_ok_iff, check_eq_ok_iff, readColor_eq_ok_iff ho,
    readIntOr_eq_ok_iff ho, Int.not_le]
  constructor
  · rintro ⟨onColor, hon, offColor, hoff, scale, hscale, hpos, hx⟩
    cases hx
    exact ⟨hon, hoff, hscale, hpos⟩
  · intro h
    exact ⟨_, h.onColor, _, h.offColor, _, h.scale, h.positive, rfl⟩

theorem Named.readDialect_eq (h : Named d v) :
    readSection d v {} readDialect = dialectOf (sectionEntries d v) :=
  h.readSection_eq rfl fun es he => by rw [Config.readDialect_eq, section_of_entries he, dialectOf]

theorem Named.readDisplay_eq (h : Named d v) :
    readSection d v {} readDisplay = displayOf (sectionEntries d v) :=
  h.readSection_eq rfl fun es he => by rw [Config.readDisplay_eq, section_of_entries he, displayOf]

/-! ### The whole configuration -/

/-- The numbers are positive, the colors are some, and the keys are those of the keypad. The other choices
of a dialect are booleans by their type. -/
structure Valid (c : Config) : Prop where
  cpuHz : 0 < c.cpuHz
  timerHz : 0 < c.timerHz
  stackDepth : 0 < c.dialect.stackDepth
  scale : 0 < c.display.scale
  onColor : (Color.parse? c.display.onColor).isSome
  offColor : (Color.parse? c.display.offColor).isSome
  keys : ∀ e ∈ c.keys, 0 ≤ e.2 ∧ e.2 ≤ 0xF

theorem ofEntries_eq_ok_iff {c : Config} : ofEntries d entries = .ok c ↔
    readIntOr entries "cpu_hz" 700 = .ok c.cpuHz ∧ readIntOr entries "timer_hz" 60 = .ok c.timerHz ∧
    (0 < c.cpuHz ∧ 0 < c.timerHz) ∧
    readSection d (valueOf entries "quirks") {} readDialect = .ok c.dialect ∧
    readSection d (valueOf entries "display") {} readDisplay = .ok c.display ∧
    readKeyMap d (valueOf entries "key_map") = .ok c.keys ∧
    c.rom = { d with root := valueOf entries "rom_path" } := by
  simp only [ofEntries, bind_eq_ok_iff, check_eq_ok_iff, not_or, Int.not_le]
  constructor
  · rintro ⟨cpuHz, hc, timerHz, ht, hpos, dialect, hq, display, hd, keys, hk, h⟩
    cases h
    exact ⟨hc, ht, hpos, hq, hd, hk, rfl⟩
  · rintro ⟨hc, ht, hpos, hq, hd, hk, hr⟩
    exact ⟨_, hc, _, ht, hpos, _, hq, _, hd, _, hk, by rw [← hr]; rfl⟩

/-- A mapping in which the sections are mappings of names, or missing. -/
structure Proper (d : Document) (entries : List (Value × Value)) : Prop where
  root : d.entries? d.root = some entries
  once : EachOnce entries
  quirks : Named d (valueOf entries "quirks")
  display : Named d (valueOf entries "display")
  keyMap : Named d (valueOf entries "key_map")

/-- A configuration holds what the entries of a document say, and the defaults for the rest. -/
structure Says (d : Document) (entries : List (Value × Value)) (c : Config) : Prop where
  cpuHz : Field entries "cpu_hz" (readInt · = .ok c.cpuHz) (c.cpuHz = 700)
  timerHz : Field entries "timer_hz" (readInt · = .ok c.timerHz) (c.timerHz = 60)
  choices : ∀ t ∈ names (sectionEntries d (valueOf entries "quirks")), t ∈ choiceNames
  flags : ∀ e ∈ flags c.dialect, Field (sectionEntries d (valueOf entries "quirks")) e.1
    (· = .bool e.2) (e ∈ flags {})
  stackDepth : Field (sectionEntries d (valueOf entries "quirks")) "stack_depth"
    (readInt · = .ok c.dialect.stackDepth) (c.dialect.stackDepth = 16)
  onColor : Field (sectionEntries d (valueOf entries "display")) "on_color"
    (d.plain? · = some c.display.onColor) (c.display.onColor = "#E0E0E0")
  offColor : Field (sectionEntries d (valueOf entries "display")) "off_color"
    (d.plain? · = some c.display.offColor) (c.display.offColor = "#101010")
  scale : Field (sectionEntries d (valueOf entries "display")) "scale"
    (readInt · = .ok c.display.scale) (c.display.scale = 10)
  keys_of_null : valueOf entries "key_map" = .null → c.keys = defaultKeys
  keys {es : List (Value × Value)} :
    d.entries? (valueOf entries "key_map") = some es → FollowsKeys es c.keys
  rom : Field entries "rom_path" (c.rom.root = ·) (c.rom.root = .null)
  romParts : c.rom.parts = d.parts

theorem ofMapping_eq (h : Proper d entries) : ofMapping d = ofEntries d entries := by
  rw [ofMapping, h.root]

theorem readKeyMap_of_entries (h : d.entries? v = some es) : readKeyMap d v = readKeys [] es := by
  obtain ⟨n, rfl, -⟩ := Document.entries?_eq_some_iff.1 h
  simp [readKeyMap, h]

theorem bounds_of_readKeyMap (h : Named d v) {keys : List (Text × Int)}
    (hk : readKeyMap d v = .ok keys) : ∀ e ∈ keys, 0 ≤ e.2 ∧ e.2 ≤ 0xF := by
  rcases h with rfl | ⟨es, he, -, ht⟩
  · cases hk
    decide
  · rw [readKeyMap_of_entries he] at hk
    exact bounds_of_readKeys ht hk

theorem Chooses.depth_pos {c : Dialect} (h : Chooses {} es c) : 0 < c.stackDepth :=
  h.stackDepth.elim (fun _ hv => hv.2) fun hu => by rw [hu]; decide

theorem Shows.colors {x : Display} (h : Shows es x) :
    (Color.parse? x.onColor).isSome ∧ (Color.parse? x.offColor).isSome :=
  ⟨h.onColor.elim (fun _ hv => hv.2) fun hu => by rw [hu]; decide,
    h.offColor.elim (fun _ hv => hv.2) fun hu => by rw [hu]; decide⟩

theorem valid_and_says_of_ofMapping {c : Config} (hp : Proper d entries) (h : ofMapping d = .ok c) :
    c.Valid ∧ Says d entries c := by
  rw [ofMapping_eq hp, ofEntries_eq_ok_iff, readIntOr_eq_ok_iff hp.once, readIntOr_eq_ok_iff hp.once,
    hp.quirks.readDialect_eq, dialectOf_eq_ok_iff hp.quirks.isText hp.quirks.once,
    hp.display.readDisplay_eq, displayOf_eq_ok_iff hp.display.once] at h
  obtain ⟨hcpu, htimer, hpos, ⟨hn, hc⟩, hx, hk, hr⟩ := h
  refine ⟨⟨hpos.1, hpos.2, hc.depth_pos, hx.positive, hx.colors.1, hx.colors.2,
    bounds_of_readKeyMap hp.keyMap hk⟩, ?_⟩
  exact {
    cpuHz := hcpu
    timerHz := htimer
    choices := hn
    flags := hc.flags
    stackDepth := hc.stackDepth.imp fun _ hv => hv.1
    onColor := hx.onColor.imp fun _ hv => Document.plain?_of_value hv.1
    offColor := hx.offColor.imp fun _ hv => Document.plain?_of_value hv.1
    scale := hx.scale
    keys_of_null := fun hn => by
      rw [hn] at hk
      exact (Except.ok.inj hk).symm
    keys := fun {es} he => by
      have ht := hp.keyMap.isText
      rw [sectionEntries, he, Option.getD_some] at ht
      rw [readKeyMap_of_entries he] at hk
      exact followsKeys_of_readKeys ht hk
    rom := by rw [hr]; exact field_valueOf hp.once
    romParts := by rw [hr] }

/-! ### Other orders -/

/-- Two configurations that differ at most in the order of entries. -/
structure Same (c c' : Config) : Prop where
  cpuHz : c.cpuHz = c'.cpuHz
  timerHz : c.timerHz = c'.timerHz
  dialect : c.dialect = c'.dialect
  display : c.display = c'.display
  keys : c.keys.Perm c'.keys
  rom : c.rom.Reordered c'.rom

/-- Both documents are refused, or both are accepted and say the same. -/
inductive Agree : Except Error Config → Except Error Config → Prop
  | accepted {c c' : Config} (h : Same c c') : Agree (.ok c) (.ok c')
  | refused (e e' : Error) : Agree (.error e) (.error e')

/-- The entries of a mapping of keys are as they were, or no two of their names become one. -/
def KeysApart (d d' : Document) (v : Value) : Prop :=
  d.entries? v = d'.entries? v ∨ ((names (sectionEntries d v)).map Text.upper).Nodup

theorem sectionEntries_perm (hr : d.Reordered d') (v : Value) :
    (sectionEntries d v).Perm (sectionEntries d' v) := by
  unfold sectionEntries
  cases he : d.entries? v with
  | some es =>
    obtain ⟨fs, hf, hp⟩ := hr.entries? he
    rwa [hf]
  | none =>
    cases hf : d'.entries? v with
    | none => exact .refl []
    | some fs =>
      obtain ⟨es, he', -⟩ := hr.symm.entries? hf
      rw [he] at he'
      cases he'

theorem Named.reordered (h : Named d v) (hr : d.Reordered d') : Named d' v := by
  refine h.imp_right ?_
  rintro ⟨es, he, ho, ht⟩
  obtain ⟨fs, hf, hp⟩ := hr.entries? he
  exact ⟨fs, hf, ho.perm hp, fun e hm => ht e (hp.mem_iff.2 hm)⟩

theorem readIntOr_perm {name : String} {n : Int} (ho : EachOnce es) (hp : es.Perm fs) :
    readIntOr es name n = readIntOr fs name n := by
  rw [readIntOr, readIntOr, lookup?_perm ho hp]

theorem valueOf_perm {name : String} (ho : EachOnce es) (hp : es.Perm fs) :
    valueOf es name = valueOf fs name := by
  rw [valueOf, valueOf, lookup?_perm ho hp]

theorem displayOf_perm (ho : EachOnce es) (hp : es.Perm fs) : displayOf es = displayOf fs := by
  simp only [displayOf, readColor, readIntOr, lookup?_perm ho hp]

theorem dialectOf_perm {c : Dialect} (ht : ∀ e ∈ es, e.1.IsText) (ho : EachOnce es) (hp : es.Perm fs)
    (h : dialectOf es = .ok c) : dialectOf fs = .ok c := by
  have ht' : ∀ e ∈ fs, e.1.IsText := fun e he => ht e (hp.mem_iff.2 he)
  rw [dialectOf_eq_ok_iff ht ho] at h
  rw [dialectOf_eq_ok_iff ht' (ho.perm hp)]
  exact ⟨fun t hm => h.1 t ((names_perm hp).mem_iff.2 hm), h.2.perm hp⟩

theorem readKeyMap_perm (hn : Named d v) (hr : d.Reordered d') (ha : KeysApart d d' v)
    {keys : List (Text × Int)} (h : readKeyMap d v = .ok keys) :
    ∃ keys', readKeyMap d' v = .ok keys' ∧ keys.Perm keys' := by
  rcases hn with rfl | ⟨es, he, -, ht⟩
  · exact ⟨keys, h, .refl keys⟩
  · obtain ⟨fs, hf, hp⟩ := hr.entries? he
    rw [readKeyMap_of_entries he] at h
    rw [readKeyMap_of_entries hf]
    rcases ha with ha | ha
    · rw [he, hf, Option.some.injEq] at ha
      exact ⟨keys, ha ▸ h, .refl keys⟩
    · have ht' : ∀ e ∈ fs, e.1.IsText := fun e hm => ht e (hp.mem_iff.2 hm)
      obtain ⟨keys', h'⟩ := (exists_readKeys_iff ht').2 fun e hm =>
        (exists_readKeys_iff ht).1 ⟨keys, h⟩ e (hp.mem_iff.2 hm)
      rw [sectionEntries, he, Option.getD_some] at ha
      exact ⟨keys', h', (followsKeys_of_readKeys ht h).perm hp ha (followsKeys_of_readKeys ht' h')⟩

theorem Proper.reordered (h : Proper d entries) (hr : d.Reordered d') :
    ∃ entries', Proper d' entries' ∧ entries.Perm entries' := by
  obtain ⟨entries', he, hp⟩ := hr.entries? (hr.root ▸ h.root)
  have hv {name : String} : valueOf entries name = valueOf entries' name := valueOf_perm h.once hp
  exact ⟨entries', ⟨he, h.once.perm hp, hv ▸ h.quirks.reordered hr, hv ▸ h.display.reordered hr,
    hv ▸ h.keyMap.reordered hr⟩, hp⟩

theorem exists_same_of_reordered (h : Proper d entries) (hr : d.Reordered d')
    (ha : KeysApart d d' (valueOf entries "key_map")) {c : Config} (hc : ofMapping d = .ok c) :
    ∃ c', ofMapping d' = .ok c' ∧ Same c c' := by
  obtain ⟨entries', h', hp⟩ := h.reordered hr
  have hv {name : String} : valueOf entries' name = valueOf entries name :=
    (valueOf_perm h.once hp).symm
  rw [ofMapping_eq h, ofEntries_eq_ok_iff, readIntOr_perm h.once hp, readIntOr_perm h.once hp,
    h.quirks.readDialect_eq, h.display.readDisplay_eq] at hc
  obtain ⟨hcpu, htimer, hpos, hq, hx, hk, hrom⟩ := hc
  obtain ⟨keys', hk', hkeys⟩ := readKeyMap_perm h.keyMap hr ha hk
  refine ⟨{ c with keys := keys', rom := { d' with root := valueOf entries "rom_path" } }, ?_, ?_⟩
  · rw [ofMapping_eq h', ofEntries_eq_ok_iff, h'.quirks.readDialect_eq, h'.display.readDisplay_eq,
      hv, hv, hv, hv]
    have hquirks := sectionEntries_perm hr (valueOf entries "quirks")
    have hdisplay := sectionEntries_perm hr (valueOf entries "display")
    refine ⟨hcpu, htimer, hpos, dialectOf_perm h.quirks.isText h.quirks.once hquirks hq, ?_, hk', rfl⟩
    rw [← displayOf_perm h.display.once hdisplay, hx]
  · exact ⟨rfl, rfl, rfl, rfl, hkeys, by rw [hrom]; exact ⟨rfl, hr.parts⟩⟩

theorem KeysApart.symm (hr : d.Reordered d') (h : KeysApart d d' v) : KeysApart d' d v :=
  h.imp Eq.symm ((names_perm (sectionEntries_perm hr v)).map _).nodup_iff.1

theorem agree_of_reordered (h : Proper d entries) (hr : d.Reordered d')
    (ha : KeysApart d d' (valueOf entries "key_map")) : Agree (ofMapping d) (ofMapping d') := by
  cases hc : ofMapping d with
  | ok c =>
    obtain ⟨c', hc', hs⟩ := exists_same_of_reordered h hr ha hc
    rw [hc']
    exact .accepted hs
  | error e =>
    cases hc' : ofMapping d' with
    | error e' => exact .refused e e'
    | ok c' =>
      -- what is accepted in the other order would be accepted in this one
      obtain ⟨entries', h', hp⟩ := h.reordered hr
      have ha' := ha.symm hr
      rw [valueOf_perm h.once hp] at ha'
      obtain ⟨c, hc₁, -⟩ := exists_same_of_reordered h' hr.symm ha' hc'
      rw [hc] at hc₁
      cases hc₁

/-- An accepted configuration is in order and says what the document says, and it says the same for each
order of the entries. -/
theorem accepted_faithful (h : Proper d entries) :
    (∀ c, ofMapping d = .ok c → c.Valid ∧ Says d entries c) ∧
      ∀ d', d.Reordered d' → KeysApart d d' (valueOf entries "key_map") →
        Agree (ofMapping d) (ofMapping d') :=
  ⟨fun _ hc => valid_and_says_of_ofMapping h hc, fun _ hr ha => agree_of_reordered h hr ha⟩

/-- Three sections, in which much is left to the defaults. -/
def partialEntries : List (Value × Value) :=
  [(.text "cpu_hz", .int 1000), (.text "timer_hz", .text "0x3C"), (.text "quirks", .part 1),
    (.text "display", .part 2), (.text "key_map", .part 3)]

def partialSections : List (List (Value × Value)) :=
  [[(.text "sprite_wrap", .bool true), (.text "stack_depth", .int 12), (.text "shift_uses_vy", .bool true)],
    [(.text "on_color", .text "#33FF66"), (.text "scale", .int 8)],
    [(.text "x", .int 0), (.text "1", .int 1)]]

def ofSections (sections : List (List (Value × Value))) : Document :=
  { root := .part 0, parts := ((partialEntries :: sections).map .map).toArray }

theorem accepted_faithful_of_partial :
    let d := ofSections partialSections
    let d' := ofSections (partialSections.map List.reverse)
    Proper d partialEntries ∧ (∃ c, ofMapping d = .ok c ∧ c.Valid ∧ Says d partialEntries c) ∧
      d.Reordered d' ∧ Agree (ofMapping d) (ofMapping d') := by
  intro d d'
  have hq : Named d (.part 1) := .inr ⟨_, rfl, by decide, by simp [Value.IsText]⟩
  have hd : Named d (.part 2) := .inr ⟨_, rfl, by decide, by simp [Value.IsText]⟩
  have hk : Named d (.part 3) := .inr ⟨_, rfl, by decide, by simp [Value.IsText]⟩
  have hp : Proper d partialEntries := ⟨rfl, by decide, hq, hd, hk⟩
  have hr : d.Reordered d' := by
    refine ⟨rfl, fun n => ?_⟩
    rcases n with _ | _ | _ | _ | n
    · exact .some (.same _)
    · exact .some (.map (List.reverse_perm _).symm)
    · exact .some (.map (List.reverse_perm _).symm)
    · exact .some (.map (List.reverse_perm _).symm)
    · exact .none
  have ha : KeysApart d d' (.part 3) := .inr (by decide)
  obtain ⟨hs, hagree⟩ := accepted_faithful hp
  exact ⟨hp, ⟨_, rfl, hs _ rfl⟩, hr, hagree d' hr ha⟩

end Config

end Chip8
