import Mathlib.Data.Finset.Card
import Mathlib.Data.List.Nodup

/-!
# Insertion-ordered dictionaries

A `Dict` is a list of key-value entries whose keys are pairwise distinct. An update of a present key
keeps the entry's position and an update of an absent key appends, so `items` lists the entries in
insertion order. Reads are characterised by `get?_eq_some_iff`; the remaining lemmas say how `set` and
`erase` change a read, the set of keys, and a count over the values.
-/

namespace AgentBox

open List

/-- A finite map that remembers insertion order. -/
structure Dict (κ ν : Type*) where
  items : List (κ × ν)
  nodup : (items.map Prod.fst).Nodup

namespace Dict

variable {κ ν : Type*} {d : Dict κ ν} {k j : κ} {v : ν} {e : Dict κ ν} {w : ν}

instance [DecidableEq κ] [DecidableEq ν] : DecidableEq (Dict κ ν) := fun d e =>
  decidable_of_iff (d.items = e.items) ⟨fun h => by cases d; cases e; congr, fun h => h ▸ rfl⟩

@[ext] theorem ext (h : d.items = e.items) : d = e := by
  cases d; cases e; congr

/-- The dictionary without entries. -/
def empty : Dict κ ν := ⟨[], nodup_nil⟩

instance : Inhabited (Dict κ ν) := ⟨empty⟩

/-- The keys in insertion order. -/
def keys (d : Dict κ ν) : List κ := d.items.map Prod.fst

/-- The values in insertion order. -/
def values (d : Dict κ ν) : List ν := d.items.map Prod.snd

/-- The number of entries. -/
def length (d : Dict κ ν) : ℕ := d.items.length

theorem keys_nodup (d : Dict κ ν) : d.keys.Nodup := d.nodup

@[simp] theorem items_empty : (empty : Dict κ ν).items = [] := rfl

theorem mem_keys_iff : k ∈ d.keys ↔ ∃ v, (k, v) ∈ d.items := by
  simp [keys]

/-- Two entries with one key are one entry. -/
theorem value_unique (hv : (k, v) ∈ d.items) (hw : (k, w) ∈ d.items) : v = w := by
  have h := inj_on_of_nodup_map d.nodup hv hw rfl
  exact (Prod.mk.inj h).2

variable [DecidableEq κ]

/-- The value stored under a key, if any. -/
def get? (d : Dict κ ν) (k : κ) : Option ν :=
  (d.items.find? fun e => e.1 = k).map Prod.snd

instance : Membership κ (Dict κ ν) := ⟨fun d k => (d.get? k).isSome⟩

instance (d : Dict κ ν) (k : κ) : Decidable (k ∈ d) :=
  inferInstanceAs (Decidable ((d.get? k).isSome = true))

/-- `d == e`: the same entries, in whatever order. -/
def same [DecidableEq ν] (d e : Dict κ ν) : Bool :=
  (d.keys.all fun k => d.get? k == e.get? k) && e.keys.all fun k => decide (k ∈ d)

/-- Reading a key finds exactly the stored entry. -/
theorem get?_eq_some_iff : d.get? k = some v ↔ (k, v) ∈ d.items := by
  constructor
  · intro h
    obtain ⟨e, he, rfl⟩ := Option.map_eq_some_iff.mp h
    have hk : e.1 = k := by simpa using List.find?_some he
    exact hk ▸ mem_of_find?_eq_some he
  · intro h
    cases hf : d.items.find? fun e => e.1 = k with
    | none =>
      have := List.find?_eq_none.mp hf _ h
      simp at this
    | some e =>
      have hk : e.1 = k := by simpa using List.find?_some hf
      have he : (k, e.2) ∈ d.items := hk ▸ mem_of_find?_eq_some hf
      simp [get?, hf, value_unique he h]

theorem mem_def : k ∈ d ↔ (d.get? k).isSome := Iff.rfl

theorem mem_iff_exists : k ∈ d ↔ ∃ v, d.get? k = some v := by
  rw [mem_def, Option.isSome_iff_exists]

theorem mem_iff_mem_keys : k ∈ d ↔ k ∈ d.keys := by
  simp only [mem_iff_exists, mem_keys_iff, get?_eq_some_iff]

theorem not_mem_iff : k ∉ d ↔ d.get? k = none := by
  rw [mem_def, Bool.not_eq_true, Option.isSome_eq_false_iff, Option.isNone_iff_eq_none]

theorem mem_of_get? (h : d.get? k = some v) : k ∈ d :=
  mem_iff_exists.mpr ⟨v, h⟩

/-- Two dictionaries are the same when they read the same. -/
theorem same_iff [DecidableEq ν] : d.same e = true ↔ ∀ k, d.get? k = e.get? k := by
  simp only [same, Bool.and_eq_true, all_eq_true, ← mem_iff_mem_keys, beq_iff_eq, decide_eq_true_eq]
  constructor
  · rintro ⟨heq, hsub⟩ k
    by_cases hd : k ∈ d
    · exact heq k hd
    · rw [not_mem_iff.mp hd, not_mem_iff.mp fun he => hd (hsub k he)]
  · intro h
    exact ⟨fun k _ => h k, fun k hk => by rwa [mem_def, h k]⟩

@[simp] theorem get?_empty (k : κ) : (empty : Dict κ ν).get? k = none := rfl

@[simp] theorem not_mem_empty (k : κ) : k ∉ (empty : Dict κ ν) := by simp [not_mem_iff]

/-- A dictionary without keys is empty. -/
theorem eq_empty_of_forall_not_mem (h : ∀ k, k ∉ d) : d = empty := by
  apply ext
  rw [items_empty, eq_nil_iff_forall_not_mem]
  intro e he
  exact h e.1 (mem_iff_exists.mpr ⟨e.2, get?_eq_some_iff.mpr he⟩)

/-! ## Update -/

/-- The entry list after `d[k] = v`. -/
def setItems (items : List (κ × ν)) (k : κ) (v : ν) : List (κ × ν) :=
  if k ∈ items.map Prod.fst then items.map fun e => if e.1 = k then (k, v) else e
  else items ++ [(k, v)]

theorem setItems_keys (items : List (κ × ν)) (k : κ) (v : ν) : (setItems items k v).map Prod.fst =
      if k ∈ items.map Prod.fst then items.map Prod.fst else items.map Prod.fst ++ [k] := by
  unfold setItems
  split
  · rw [map_map]
    apply map_congr_left
    intro e _
    by_cases h : e.1 = k <;> simp [h]
  · simp

/-- `d[k] = v`: overwrite in place, or append. -/
def set (d : Dict κ ν) (k : κ) (v : ν) : Dict κ ν where
  items := setItems d.items k v
  nodup := by
    rw [setItems_keys]
    split
    · exact d.nodup
    · next h => exact nodup_append.mpr ⟨d.nodup, by simp, by
        intro a ha b hb hab
        simp only [mem_singleton] at hb
        exact h (hb ▸ hab ▸ ha)⟩

theorem mem_items_set : (j, w) ∈ (d.set k v).items ↔ (j = k ∧ w = v) ∨ (j ≠ k ∧ (j, w) ∈ d.items) := by
  change (j, w) ∈ setItems d.items k v ↔ _
  unfold setItems
  split
  · next hk =>
    constructor
    · intro h
      obtain ⟨e, he, heq⟩ := mem_map.mp h
      by_cases hek : e.1 = k
      · rw [if_pos hek] at heq
        exact .inl ⟨(Prod.mk.inj heq).1.symm, (Prod.mk.inj heq).2.symm⟩
      · rw [if_neg hek] at heq
        subst heq
        exact .inr ⟨hek, he⟩
    · rintro (⟨rfl, rfl⟩ | ⟨hne, hmem⟩)
      · obtain ⟨e, he, hej⟩ := mem_map.mp hk
        exact mem_map.mpr ⟨e, he, by rw [if_pos hej]⟩
      · exact mem_map.mpr ⟨(j, w), hmem, if_neg hne⟩
  · next hk =>
    have hout : (j, w) ∈ d.items → j ≠ k := by
      rintro hmem rfl
      exact hk (mem_map.mpr ⟨_, hmem, rfl⟩)
    rw [mem_append, mem_singleton, Prod.mk.injEq]
    constructor
    · rintro (h | h)
      · exact .inr ⟨hout h, h⟩
      · exact .inl h
    · rintro (h | h)
      · exact .inr h
      · exact .inl h.2

@[simp] theorem get?_set_self (d : Dict κ ν) (k : κ) (v : ν) : (d.set k v).get? k = some v := by
  simp [get?_eq_some_iff, mem_items_set]

theorem get?_set_of_ne (d : Dict κ ν) (h : j ≠ k) (v : ν) : (d.set k v).get? j = d.get? j := by
  ext w
  simp [get?_eq_some_iff, mem_items_set, h]

theorem get?_set (d : Dict κ ν) (k j : κ) (v : ν) :
    (d.set k v).get? j = if j = k then some v else d.get? j := by
  by_cases h : j = k
  · subst h; simp
  · rw [get?_set_of_ne d h, if_neg h]

@[simp] theorem mem_set : j ∈ d.set k v ↔ j = k ∨ j ∈ d := by
  by_cases h : j = k
  · subst h; simp [mem_def]
  · simp [mem_def, get?_set_of_ne d h, h]

/-! ## Removal -/

/-- `del d[k]`, without effect when the key is absent. -/
def erase (d : Dict κ ν) (k : κ) : Dict κ ν where
  items := d.items.filter fun e => e.1 ≠ k
  nodup := d.nodup.sublist (List.Sublist.map _ filter_sublist)

theorem mem_items_erase : (j, w) ∈ (d.erase k).items ↔ j ≠ k ∧ (j, w) ∈ d.items := by
  simp [erase, and_comm]

@[simp] theorem get?_erase_self (d : Dict κ ν) (k : κ) : (d.erase k).get? k = none := by
  rw [Option.eq_none_iff_forall_ne_some]
  intro v h
  exact (mem_items_erase.mp (get?_eq_some_iff.mp h)).1 rfl

theorem get?_erase_of_ne (d : Dict κ ν) (h : j ≠ k) : (d.erase k).get? j = d.get? j := by
  ext w
  simp [get?_eq_some_iff, mem_items_erase, h]

theorem get?_erase (d : Dict κ ν) (k j : κ) : (d.erase k).get? j = if j = k then none else d.get? j := by
  by_cases h : j = k
  · subst h; simp
  · rw [get?_erase_of_ne d h, if_neg h]

/-! ## Counting -/

/-- A fresh key is appended. -/
theorem items_set_of_not_mem (h : k ∉ d) (v : ν) : (d.set k v).items = d.items ++ [(k, v)] :=
  if_neg fun hk => h (mem_iff_mem_keys.mpr hk)

/-- A dictionary is its entry for `k` and the rest, up to order. -/
theorem items_perm_of_get? (h : d.get? k = some v) : d.items.Perm ((k, v) :: (d.erase k).items) := by
  classical
  have hmem := get?_eq_some_iff.mp h
  have hrest : (d.erase k).items = d.items.erase (k, v) := by
    rw [d.nodup.of_map.erase_eq_filter]
    refine filter_congr fun e he => ?_
    rw [Bool.eq_iff_iff, decide_eq_true_eq, bne_iff_ne]
    refine ⟨fun hne heq => hne (heq ▸ rfl), fun hne heq => hne ?_⟩
    exact inj_on_of_nodup_map d.nodup he hmem heq
  rw [hrest]
  exact perm_cons_erase hmem

end Dict

end AgentBox
