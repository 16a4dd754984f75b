import Chip8.Config.Read

/-!
# How reading a configuration fails

Most faults of a document are reported as such (`Error.Reported`). Where a reader takes a section for
a mapping without a look at it, it stumbles: over what has no parts, or over what has no entries.
`Config.Stumbles` says of which documents that is so, by what stands in their sections, and
`reads_or_reports_iff` that the reader gives a configuration or reports a fault for all the others.
-/

namespace Chip8

namespace Document

variable {v : Value} {t : Text}

def Value.IsText (v : Value) : Prop := ∃ t, v = .text t

theorem Value.sameKey_text_iff : v.sameKey (.text t) = true ↔ v = .text t := by
  cases v <;> simp [Value.sameKey, Value.asInt?]

end Document

namespace Config

open Document (Value)

variable {α β : Type} {d : Document} {v : Value} {entries : List (Value × Value)}

def Error.Reported : Error → Prop
  | noParts | noEntries => False
  | _ => True

/-- There is an answer or a reported fault. -/
def Clean (r : Except Error α) : Prop :=
  (∃ x, r = .ok x) ∨ ∃ e, r = .error e ∧ e.Reported

section clean

@[simp] theorem clean_ok (x : α) : Clean (.ok x : Except Error α) := .inl ⟨x, rfl⟩

@[simp] theorem clean_pure (x : α) : Clean (pure x : Except Error α) := clean_ok x

@[simp] theorem clean_error_iff {e : Error} : Clean (.error e : Except Error α) ↔ e.Reported :=
  ⟨fun h => h.elim nofun fun ⟨_, h, hr⟩ => by cases h; exact hr, fun h => .inr ⟨e, rfl, h⟩⟩

@[simp] theorem clean_throw_iff {e : Error} :
    Clean (throw e : Except Error α) ↔ e.Reported := clean_error_iff

/-- A sequence is clean when each part that is reached is. -/
theorem clean_bind_iff {x : Except Error β} {f : β → Except Error α} :
    Clean (x >>= f) ↔ Clean x ∧ ∀ y, x = .ok y → Clean (f y) := by
  cases x with
  | ok y => exact ⟨fun h => ⟨clean_ok y, fun _ hy => by cases hy; exact h⟩, fun h => h.2 y rfl⟩
  | error e => exact ⟨fun h => ⟨clean_error_iff.2 (clean_error_iff.1 h), nofun⟩,
      fun h => clean_error_iff.2 (clean_error_iff.1 h.1)⟩

theorem clean_mapError {ε : Type} {x : Except ε α} {f : ε → Error} (h : ∀ e, (f e).Reported) :
    Clean (x.mapError f) := by
  cases x with
  | ok y => exact clean_ok y
  | error e => exact clean_error_iff.2 (h e)

end clean

/-! ### Single values -/

theorem clean_readInt (v : Value) : Clean (readInt v) := by
  unfold readInt
  split
  · exact clean_ok _
  · exact clean_mapError fun _ => trivial
  · exact clean_error_iff.2 trivial

theorem clean_readIntOr (entries : List (Value × Value)) (name : String) (n : Int) :
    Clean (readIntOr entries name n) := by
  unfold readIntOr
  split
  · exact clean_ok n
  · exact clean_readInt _

theorem clean_readColor (entries : List (Value × Value)) (name : String) (t : Text) :
    Clean (readColor entries name t) := by
  unfold readColor
  split
  · exact clean_ok t
  · split
    · split
      · exact clean_ok _
      · exact clean_error_iff.2 trivial
    · exact clean_error_iff.2 trivial

/-! ### Keys -/

theorem clean_readKeys (keys : List (Text × Int)) (entries : List (Value × Value)) :
    Clean (readKeys keys entries) := by
  induction entries generalizing keys with
  | nil => exact clean_ok keys
  | cons e entries ih =>
    obtain ⟨k, v⟩ := e
    rw [readKeys, clean_bind_iff]
    refine ⟨clean_readInt v, fun key _ => ?_⟩
    by_cases hkey : key < 0 ∨ 0xF < key
    · rw [if_pos hkey]
      exact clean_error_iff.2 trivial
    · rw [if_neg hkey]
      cases k.plain? with
      | some name => exact ih _
      | none => exact clean_error_iff.2 trivial

theorem clean_readKeyMap (d : Document) (v : Value) : Clean (readKeyMap d v) := by
  unfold readKeyMap
  split
  · exact clean_ok _
  · exact clean_readKeys [] _
  · exact clean_error_iff.2 trivial

/-! ### The dialect -/

theorem clean_readChoice (c : Dialect) (name : Text) (v : Value) : Clean (readChoice c name v) := by
  unfold readChoice
  split
  · rw [clean_bind_iff]
    refine ⟨clean_readInt v, fun n _ => ?_⟩
    split
    · exact clean_error_iff.2 trivial
    · exact clean_pure _
  · split
    · exact clean_ok _
    · exact clean_error_iff.2 trivial

theorem clean_readChoices (c : Dialect) (entries : List (Value × Value)) :
    Clean (readChoices c entries) := by
  induction entries generalizing c with
  | nil => exact clean_ok c
  | cons e entries ih =>
    obtain ⟨k, v⟩ := e
    unfold readChoices
    rw [clean_bind_iff]
    exact ⟨clean_readChoice c _ v, fun c' _ => ih c'⟩

/-- The values that are no names of choices. -/
def unknownNames (names : List Value) : List Value :=
  names.filter fun
    | .text t => t ∉ choiceNames
    | _ => true

def asText? : Value → Option Text
  | .text t => some t
  | _ => none

theorem checkNames_eq (names : List Value) :
    checkNames names =
      if names.any (!·.canBeKey) then .error .noParts
      else if ((unknownNames names).filterMap asText?).length ≠ (unknownNames names).length then
        .error .noParts
      else if (unknownNames names).filterMap asText? ≠ [] then
        .error (.unknownChoices (sorted ((unknownNames names).filterMap asText?)))
      else .ok () := by
  by_cases hk : names.any (!·.canBeKey)
  · unfold checkNames
    rw [if_pos hk, if_pos hk]
    rfl
  · by_cases hl : ((unknownNames names).filterMap asText?).length ≠ (unknownNames names).length
    · rw [if_neg hk, if_pos hl]
      unfold checkNames
      rw [if_neg hk]
      exact if_pos hl
    · rw [if_neg hk, if_neg hl]
      unfold checkNames
      rw [if_neg hk]
      exact if_neg hl

theorem exists_eq_map_text {names : List Value} (h : ∀ k ∈ names, k.IsText) :
    ∃ ts : List Text, names = ts.map .text := by
  induction names with
  | nil => exact ⟨[], rfl⟩
  | cons k names ih =>
    obtain ⟨t, rfl⟩ := h k (by simp)
    obtain ⟨ts, rfl⟩ := ih fun k hk => h k (by simp [hk])
    exact ⟨t :: ts, rfl⟩

theorem checkNames_map_text (ts : List Text) :
    checkNames (ts.map .text) =
      if ts.filter (· ∉ choiceNames) ≠ [] then
        .error (.unknownChoices (sorted (ts.filter (· ∉ choiceNames))))
      else .ok () := by
  have hk : (ts.map Value.text).any (!·.canBeKey) = false := by simp [Value.canBeKey]
  have hu : unknownNames (ts.map .text) = (ts.filter (· ∉ choiceNames)).map .text := List.filter_map
  have ht : (unknownNames (ts.map .text)).filterMap asText? = ts.filter (· ∉ choiceNames) := by
    rw [hu, List.filterMap_map]
    exact List.filterMap_some
  rw [checkNames_eq, ht, hu, List.length_map, hk, if_neg nofun, if_neg (· rfl)]

theorem checkNames_of_not_isText {names : List Value} (h : ∃ k ∈ names, ¬ k.IsText) :
    checkNames names = .error .noParts := by
  obtain ⟨k, hk, ht⟩ := h
  -- what is no text is not known, and it is missing when the texts are counted
  have hu : k ∈ unknownNames names := by
    refine List.mem_filter.2 ⟨hk, ?_⟩
    cases k with
    | text t => exact absurd ⟨t, rfl⟩ ht
    | _ => rfl
  have hn : ((unknownNames names).filterMap asText?).length ≠ (unknownNames names).length := by
    intro hl
    have hs := List.filterMap_length_eq_length.1 hl k hu
    cases k with
    | text t => exact ht ⟨t, rfl⟩
    | _ => cases hs
  rw [checkNames_eq, if_pos hn, ite_self]

theorem clean_checkNames_bind_iff {names : List Value} {f : Unit → Except Error α} :
    Clean (checkNames names >>= f) ↔
      (∀ k ∈ names, k.IsText) ∧ ((∀ t, .text t ∈ names → t ∈ choiceNames) → Clean (f ())) := by
  by_cases ht : ∀ k ∈ names, k.IsText
  · obtain ⟨ts, rfl⟩ := exists_eq_map_text ht
    have hn : (∀ t, Value.text t ∈ ts.map .text → t ∈ choiceNames) ↔
        ts.filter (· ∉ choiceNames) = [] := by simp
    rw [hn, checkNames_map_text]
    by_cases hu : ts.filter (· ∉ choiceNames) = []
    · rw [if_neg (· hu)]
      exact ⟨fun h => ⟨ht, fun _ => h⟩, fun h => h.2 hu⟩
    · rw [if_pos hu]
      exact ⟨fun _ => ⟨ht, fun h => absurd h hu⟩, fun _ => clean_error_iff.2 trivial⟩
  · have hk : ∃ k ∈ names, ¬ k.IsText := by simpa using ht
    rw [checkNames_of_not_isText hk]
    exact ⟨fun h => (clean_error_iff.1 h).elim, fun h => absurd h.1 ht⟩

/-- What a section comes as. -/
inductive Section where
  | map (entries : List (Value × Value))
  /-- A list or a set. -/
  | items (l : List Value)
  | text (t : Text)
  | other

def Section.of (d : Document) (v : Value) : Section :=
  match v, d.part? v with
  | _, some (.map entries) => .map entries
  | _, some (.list l) | _, some (.set l) => .items l
  | .text t, _ => .text t
  | _, _ => .other

/-- What comes as a mapping may have entries without a name. Items and letters are taken for names until
all of them turn out to be known. -/
def Section.TripsDialect : Section → Prop
  | map entries => ∃ e ∈ entries, ¬ e.1.IsText
  | items l => (∃ k ∈ l, ¬ k.IsText) ∨ ∀ t, .text t ∈ l → t ∈ choiceNames
  | text t => t.letters = []
  | other => True

theorem readDialect_eq (d : Document) (v : Value) :
    readDialect d v = match Section.of d v with
      | .map entries => do
        checkNames (entries.map (·.1))
        readChoices {} entries
      | .items l => do
        checkNames l
        throw .noEntries
      | .text t => do
        checkNames (t.letters.map fun l => .text ⟨[l]⟩)
        throw .noEntries
      | .other => throw .noParts := by
  unfold readDialect Section.of
  cases v with
  | part n =>
    cases d.part? (.part n) with
    | none => rfl
    | some p => cases p <;> rfl
  | _ => rfl

theorem letter_not_mem_choiceNames (l : Letter) : (⟨[l]⟩ : Text) ∉ choiceNames := by
  have h : ∀ t ∈ choiceNames, t.letters.length ≠ 1 := by decide
  exact fun hl => h _ hl rfl

theorem clean_readDialect_iff : Clean (readDialect d v) ↔ ¬ (Section.of d v).TripsDialect := by
  rw [readDialect_eq]
  cases Section.of d v with
  | map entries =>
    simp only [clean_checkNames_bind_iff, Section.TripsDialect]
    simp [clean_readChoices]
  | items l =>
    simp only [clean_checkNames_bind_iff, Section.TripsDialect]
    simp [Error.Reported]
  | text t =>
    simp only [clean_checkNames_bind_iff, Section.TripsDialect]
    cases t.letters with
    | nil => simp [Error.Reported]
    | cons l ls =>
      -- the first letter is an unknown name, which is reported before entries are asked for
      have := letter_not_mem_choiceNames l
      simp [Value.IsText, this]
  | other => simp [Section.TripsDialect, Error.Reported]

/-! ### The display -/

/-- Items and texts pass for mappings until one of them speaks of the display. -/
def Section.TripsDisplay : Section → Prop
  | map _ => False
  | items l => ∃ name ∈ displayNames, Value.text name ∈ l
  | text t => ∃ name ∈ displayNames, (Text.ofString name).letters <:+: t.letters
  | other => True

theorem readDisplay_eq (d : Document) (v : Value) :
    readDisplay d v = match Section.of d v with
      | .map entries => do
        let onColor ← readColor entries "on_color" ({} : Display).onColor
        let offColor ← readColor entries "off_color" ({} : Display).offColor
        let scale ← readIntOr entries "scale" ({} : Display).scale
        if scale ≤ 0 then throw .scaleNotPositive
        return { onColor, offColor, scale }
      | .items l => if displayNames.any (hasItem · l) then throw .noParts else return {}
      | .text t =>
        if displayNames.any fun name => isInfix (Text.ofString name).letters t.letters then
          throw .noParts
        else return {}
      | .other => throw .noParts := by
  unfold readDisplay Section.of
  cases v with
  | part n =>
    cases d.part? (.part n) with
    | none => rfl
    | some p => cases p <;> rfl
  | _ => rfl

theorem hasItem_iff {name : String} {l : List Value} :
    hasItem name l = true ↔ Value.text name ∈ l := by
  simp [hasItem, Value.sameKey_text_iff]

theorem isInfix_iff {needle l : List Letter} : isInfix needle l = true ↔ needle <:+: l := by
  induction l with
  | nil => simp [isInfix]
  | cons x l ih => simp [isInfix, ih, List.infix_cons_iff]

theorem clean_readDisplay_iff : Clean (readDisplay d v) ↔ ¬ (Section.of d v).TripsDisplay := by
  rw [readDisplay_eq]
  cases Section.of d v with
  | map entries =>
    simp only [clean_bind_iff, Section.TripsDisplay, not_false_iff, iff_true]
    refine ⟨clean_readColor entries _ _, fun _ _ => ⟨clean_readColor entries _ _, fun _ _ =>
      ⟨clean_readIntOr entries _ _, fun scale _ => ?_⟩⟩⟩
    by_cases hs : scale ≤ 0
    · rw [if_pos hs]
      exact clean_error_iff.2 trivial
    · rw [if_neg hs]
      exact clean_pure _
  | items l =>
    simp only [Section.TripsDisplay]
    split <;> simp_all [Error.Reported, hasItem_iff]
  | text t =>
    simp only [Section.TripsDisplay]
    split <;> simp_all [Error.Reported, isInfix_iff]
  | other => simp [Section.TripsDisplay, Error.Reported]

/-! ### The whole configuration -/

/-- A section that says nothing is passed over. -/
def TripsAt (trips : Section → Prop) (d : Document) (v : Value) : Prop :=
  d.isEmpty v = false ∧ trips (Section.of d v)

/-- The rates are in order, and so the sections are read. -/
def RatesRead (entries : List (Value × Value)) : Prop :=
  ∃ cpuHz timerHz, readIntOr entries "cpu_hz" 700 = .ok cpuHz ∧
    readIntOr entries "timer_hz" 60 = .ok timerHz ∧ 0 < cpuHz ∧ 0 < timerHz

/-- Of the sections read, one trips the reader. -/
def SectionsTrip (d : Document) (entries : List (Value × Value)) : Prop :=
  TripsAt Section.TripsDialect d (valueOf entries "quirks") ∨
    (∃ c, readSection d (valueOf entries "quirks") {} readDialect = .ok c) ∧
      TripsAt Section.TripsDisplay d (valueOf entries "display")

def Stumbles (d : Document) : Prop :=
  ∃ entries, d.entries? d.root = some entries ∧ RatesRead entries ∧ SectionsTrip d entries

theorem clean_readSection_iff {missing : α} {read : Document → Value → Except Error α}
    {trips : Section → Prop} (h : Clean (read d v) ↔ ¬ trips (Section.of d v)) :
    Clean (readSection d v missing read) ↔ ¬ TripsAt trips d v := by
  unfold readSection TripsAt
  cases he : d.isEmpty v with
  | true => simp
  | false => simpa using h

theorem clean_sections_iff (f : Dialect → Display → List (Text × Int) → Config) :
    Clean (do
      let dialect ← readSection d (valueOf entries "quirks") {} readDialect
      let display ← readSection d (valueOf entries "display") {} readDisplay
      let keys ← readKeyMap d (valueOf entries "key_map")
      return f dialect display keys) ↔ ¬ SectionsTrip d entries := by
  simp only [clean_bind_iff, clean_readSection_iff clean_readDialect_iff,
    clean_readSection_iff clean_readDisplay_iff, SectionsTrip]
  simp [clean_readKeyMap]

theorem clean_ofEntries_iff :
    Clean (ofEntries d entries) ↔ ¬ (RatesRead entries ∧ SectionsTrip d entries) := by
  unfold ofEntries
  rw [clean_bind_iff]
  constructor
  · rintro ⟨-, h⟩ ⟨⟨cpuHz, timerHz, hc, ht, hpos⟩, htrip⟩
    have hs := (clean_bind_iff.1 (h cpuHz hc)).2 timerHz ht
    rw [if_neg (by omega)] at hs
    exact (clean_sections_iff _).1 hs htrip
  · intro h
    refine ⟨clean_readIntOr entries _ _, fun cpuHz hc =>
      clean_bind_iff.2 ⟨clean_readIntOr entries _ _, fun timerHz ht => ?_⟩⟩
    by_cases hz : cpuHz ≤ 0 ∨ timerHz ≤ 0
    · rw [if_pos hz]
      exact clean_error_iff.2 trivial
    · rw [if_neg hz]
      exact (clean_sections_iff _).2 fun htrip =>
        h ⟨⟨cpuHz, timerHz, hc, ht, by omega⟩, htrip⟩

/-- Whatever a document says, there is a configuration or a reported fault, unless the reader stumbles
over a section. -/
theorem reads_or_reports_iff (d : Document) :
    ((∃ c, ofMapping d = .ok c) ∨ ∃ e, ofMapping d = .error e ∧ e.Reported) ↔ ¬ Stumbles d := by
  show Clean (ofMapping d) ↔ _
  unfold ofMapping Stumbles
  cases h : d.entries? d.root with
  | none => simp [Error.Reported]
  | some entries =>
    rw [clean_ofEntries_iff]
    simp

/-- The dialect as a number. -/
example : ofMapping { root := .part 0, parts := #[.map [(.text "quirks", .int 5)]] } =
    .error .noParts := rfl

end Config

end Chip8
