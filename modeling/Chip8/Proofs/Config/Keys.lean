import Mathlib.Data.List.Nodup
import Chip8.Proofs.Config.Field

/-!
# The keys of a configuration

The names of keys are put in capitals, where several may become one. An entry overrides the key that an
earlier one gave to its name and leaves the others (`FollowsKeys.snoc`), so that in the end each name has
the key of the last of its entries (`followsKeys_of_readKeys`). Where no two names become one, the order of
the entries does not matter (`FollowsKeys.perm`).
-/

namespace Chip8

namespace Config

open Document (Value)

variable {v : Value} {es fs : List (Value × Value)} {t n : Text} {key : Int}
  {ks keys : List (Text × Int)}

theorem map_fst_setKey (n : Text) (key : Int) (ks : List (Text × Int)) :
    (setKey n key ks).map (·.1) =
      if n ∈ ks.map (·.1) then ks.map (·.1) else ks.map (·.1) ++ [n] := by
  induction ks with
  | nil => rfl
  | cons e ks ih =>
    obtain ⟨m, k⟩ := e
    by_cases hm : m = n
    · simp [setKey, hm]
    · simp only [setKey, if_neg hm, List.map_cons, ih, List.mem_cons, Ne.symm hm, false_or]
      split <;> rfl

theorem mem_map_fst_setKey {m : Text} :
    m ∈ (setKey n key ks).map (·.1) ↔ m ∈ ks.map (·.1) ∨ m = n := by
  rw [map_fst_setKey]
  split
  · exact ⟨.inl, fun h => h.elim id fun hm => by rwa [hm]⟩
  · rw [List.mem_append, List.mem_singleton]

theorem nodup_setKey (h : (ks.map (·.1)).Nodup) : ((setKey n key ks).map (·.1)).Nodup := by
  rw [map_fst_setKey]
  split
  · exact h
  · rename_i hn
    refine List.nodup_append.2 ⟨h, by simp, ?_⟩
    rintro m hm _ hmem rfl
    exact hn (List.mem_singleton.1 hmem ▸ hm)

/-- A name has no second place in which an earlier key of it could be left. -/
theorem mem_setKey (h : (ks.map (·.1)).Nodup) {m : Text} {k : Int} (hm : (m, k) ∈ setKey n key ks) :
    (m = n ∧ k = key) ∨ (m ≠ n ∧ (m, k) ∈ ks) := by
  induction ks with
  | nil =>
    cases List.mem_singleton.1 hm
    exact .inl ⟨rfl, rfl⟩
  | cons e ks ih =>
    obtain ⟨m', k'⟩ := e
    obtain ⟨hm', h⟩ := List.nodup_cons.1 h
    rw [setKey] at hm
    split at hm
    · rename_i heq
      subst heq
      rcases List.mem_cons.1 hm with hm | hm
      · cases hm
        exact .inl ⟨rfl, rfl⟩
      · have hne : m ≠ m' := fun hmm => hm' (List.mem_map.2 ⟨(m, k), hm, hmm⟩)
        exact .inr ⟨hne, List.mem_cons_of_mem _ hm⟩
    · rename_i hne
      rcases List.mem_cons.1 hm with hm | hm
      · cases hm
        exact .inr ⟨hne, List.mem_cons_self⟩
      · exact (ih h hm).imp_right fun ⟨hmn, hm⟩ => ⟨hmn, List.mem_cons_of_mem _ hm⟩

/-- The value of the last entry whose name is this one in capitals. -/
def IsLast (es : List (Value × Value)) (n : Text) (v : Value) : Prop :=
  ∃ before t after, es = before ++ (.text t, v) :: after ∧ t.upper = n ∧
    ∀ s ∈ names after, s.upper ≠ n

/-- The keys have the names of the entries in capitals, each with the value of the last such entry. -/
structure FollowsKeys (es : List (Value × Value)) (keys : List (Text × Int)) : Prop where
  once : (keys.map (·.1)).Nodup
  name_iff (n : Text) : n ∈ keys.map (·.1) ↔ ∃ t ∈ names es, t.upper = n
  last {n : Text} {key : Int} (h : (n, key) ∈ keys) : ∃ v, IsLast es n v ∧ readInt v = .ok key

theorem FollowsKeys.nil : FollowsKeys [] [] := ⟨List.nodup_nil, by simp, by simp⟩

theorem IsLast.snoc (h : IsLast es n v) (w : Value) (ht : t.upper ≠ n) :
    IsLast (es ++ [(.text t, w)]) n v := by
  obtain ⟨before, s, after, rfl, hs, ha⟩ := h
  refine ⟨before, s, after ++ [(.text t, w)], by simp, hs, ?_⟩
  intro u hu
  rw [names_append, List.mem_append] at hu
  rcases hu with hu | hu
  · exact ha u hu
  · rwa [List.mem_singleton.1 hu]

/-- One more entry overrides the key of its name and leaves the others. -/
theorem FollowsKeys.snoc (h : FollowsKeys es ks) (t : Text) (hv : readInt v = .ok key) :
    FollowsKeys (es ++ [(.text t, v)]) (setKey t.upper key ks) where
  once := nodup_setKey h.once
  name_iff m := by
    rw [mem_map_fst_setKey, h.name_iff, names_append]
    simp [or_and_right, exists_or, eq_comm]
  last {m k} hm := by
    rcases mem_setKey h.once hm with ⟨rfl, rfl⟩ | ⟨hne, hm⟩
    · exact ⟨v, ⟨es, t, [], rfl, rfl, by simp⟩, hv⟩
    · obtain ⟨w, hw, hk⟩ := h.last hm
      exact ⟨w, hw.snoc v (Ne.symm hne), hk⟩

theorem readKeys_cons_eq_ok_iff : readKeys ks ((.text t, v) :: es) = .ok keys ↔
    ∃ key, readInt v = .ok key ∧ (0 ≤ key ∧ key ≤ 0xF) ∧
      readKeys (setKey t.upper key ks) es = .ok keys := by
  simp only [readKeys, bind_eq_ok_iff, check_eq_ok_iff, not_or, Int.not_lt]
  rfl

/-- The keys are read when each of them is one of the keypad. -/
theorem exists_readKeys_iff (ht : ∀ e ∈ es, e.1.IsText) : (∃ keys, readKeys ks es = .ok keys) ↔
    ∀ e ∈ es, ∃ key, readInt e.2 = .ok key ∧ 0 ≤ key ∧ key ≤ 0xF := by
  induction es generalizing ks with
  | nil => simp [readKeys]
  | cons e es ih =>
    obtain ⟨k, v⟩ := e
    obtain ⟨⟨t, rfl⟩, hts⟩ := List.forall_mem_cons.1 ht
    simp only [readKeys_cons_eq_ok_iff, List.forall_mem_cons]
    constructor
    · rintro ⟨keys, key, hv, hr, h⟩
      exact ⟨⟨key, hv, hr⟩, (ih hts).1 ⟨keys, h⟩⟩
    · rintro ⟨⟨key, hv, hr⟩, h⟩
      obtain ⟨keys, h⟩ := (ih hts).2 h
      exact ⟨keys, key, hv, hr, h⟩

theorem FollowsKeys.append_of_readKeys {done : List (Value × Value)} (hd : FollowsKeys done ks)
    (ht : ∀ e ∈ es, e.1.IsText) (h : readKeys ks es = .ok keys) : FollowsKeys (done ++ es) keys := by
  induction es generalizing done ks with
  | nil =>
    cases h
    rwa [List.append_nil]
  | cons e es ih =>
    obtain ⟨k, v⟩ := e
    obtain ⟨⟨t, rfl⟩, hts⟩ := List.forall_mem_cons.1 ht
    obtain ⟨key, hv, -, h⟩ := readKeys_cons_eq_ok_iff.1 h
    have := ih (hd.snoc t hv) hts h
    rwa [List.append_assoc, List.singleton_append] at this

theorem followsKeys_of_readKeys (ht : ∀ e ∈ es, e.1.IsText) (h : readKeys [] es = .ok keys) :
    FollowsKeys es keys := FollowsKeys.nil.append_of_readKeys ht h

/-- Two names that are one in capitals: the last one decides. -/
example : readKeys [] [(.text "x", .int 1), (.text "X", .int 2)] = .ok [("X", 2)] := rfl

theorem IsLast.mem (h : IsLast es n v) : ∃ t, (.text t, v) ∈ es ∧ t.upper = n := by
  obtain ⟨before, t, after, rfl, ht, -⟩ := h
  exact ⟨t, by simp, ht⟩

/-- Every key that was read is one of the keypad. -/
theorem bounds_of_readKeys (ht : ∀ e ∈ es, e.1.IsText) (h : readKeys [] es = .ok keys) :
    ∀ e ∈ keys, 0 ≤ e.2 ∧ e.2 ≤ 0xF := by
  rintro ⟨n, key⟩ hk
  obtain ⟨v, hl, hv⟩ := (followsKeys_of_readKeys ht h).last hk
  obtain ⟨t, hm, -⟩ := hl.mem
  obtain ⟨key', hv', hr⟩ := (exists_readKeys_iff ht).1 ⟨keys, h⟩ _ hm
  cases hv.symm.trans hv'
  exact hr

theorem FollowsKeys.mem_of_mem (hp : es.Perm fs) (ha : ((names es).map Text.upper).Nodup)
    (h : FollowsKeys es ks) (h' : FollowsKeys fs keys) {e : Text × Int} (he : e ∈ ks) : e ∈ keys := by
  obtain ⟨n, key⟩ := e
  obtain ⟨v, hl, hv⟩ := h.last he
  obtain ⟨t, hm, ht⟩ := hl.mem
  -- the name has a key on the other side too, and that comes of the same entry
  have hn : n ∈ keys.map (·.1) :=
    (h'.name_iff n).2 ⟨t, mem_names_iff.2 ⟨v, hp.mem_iff.1 hm⟩, ht⟩
  obtain ⟨⟨n, key'⟩, hk, rfl⟩ := List.mem_map.1 hn
  obtain ⟨v', hl', hv'⟩ := h'.last hk
  obtain ⟨t', hm', ht'⟩ := hl'.mem
  have hm' := hp.mem_iff.2 hm'
  obtain rfl : t = t' := List.inj_on_of_nodup_map ha (mem_names_iff.2 ⟨v, hm⟩)
    (mem_names_iff.2 ⟨v', hm'⟩) (ht.trans ht'.symm)
  obtain rfl : v = v' := EachOnce.unique ha.of_map hm hm'
  cases hv.symm.trans hv'
  exact hk

/-- Where no two names become one, the order of the entries leaves only the order of the keys to choose. -/
theorem FollowsKeys.perm (hp : es.Perm fs) (ha : ((names es).map Text.upper).Nodup)
    (h : FollowsKeys es ks) (h' : FollowsKeys fs keys) : ks.Perm keys := by
  have ha' : ((names fs).map Text.upper).Nodup := ((names_perm hp).map _).nodup_iff.1 ha
  refine (List.perm_ext_iff_of_nodup h.once.of_map h'.once.of_map).2 fun e => ?_
  exact ⟨h.mem_of_mem hp ha h', h'.mem_of_mem hp.symm ha' h⟩

end Config

end Chip8
