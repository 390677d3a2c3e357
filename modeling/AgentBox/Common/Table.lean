import AgentBox.Common.Dict

/-!
# Dictionaries as database tables

A table is a dictionary from primary keys to rows. `first`, `updateWhere` and `deleteWhere` are the
statements that go over all rows, each with the lemma that says what a read finds afterwards.
`column` is one column of an update that carries only what a caller changed: the row may have moved on
since the caller read it, and the columns the caller left alone keep what is stored.
-/

namespace AgentBox

/-- A column of an update: written where the caller changed what it had read, as stored elsewhere. -/
def column {α : Type*} [DecidableEq α] (read new stored : α) : α := if new = read then stored else new

section
variable {α : Type*} [DecidableEq α]

theorem column_of_eq {read new : α} (h : new = read) (stored : α) : column read new stored = stored :=
  if_pos h

@[simp] theorem column_unchanged (read stored : α) : column read read stored = stored := if_pos rfl

/-- On the row the caller has read, the update leaves what the caller made of it. -/
@[simp] theorem column_fresh (read new : α) : column read new read = new := by
  unfold column
  split
  · next h => exact h.symm
  · rfl

/-- A changed column takes its new value, whatever is stored. -/
theorem column_changed {read new : α} (h : new ≠ read) (stored : α) : column read new stored = new :=
  if_neg h

end

namespace Dict

variable {κ ν : Type*} [DecidableEq κ]
variable {d : Dict κ ν} {v : ν} {k : κ}
variable {p : ν → Bool}

theorem mem_values_iff : v ∈ d.values ↔ ∃ k, d.get? k = some v := by
  simp [values, get?_eq_some_iff]

/-! ## Select -/

/-- The first row of a select. -/
def first (d : Dict κ ν) (p : ν → Bool) : Option ν := d.values.find? p

theorem of_first (h : d.first p = some v) : (∃ k, d.get? k = some v) ∧ p v = true :=
  ⟨mem_values_iff.mp (List.mem_of_find?_eq_some h), List.find?_some h⟩

theorem first_eq_none_iff : d.first p = none ↔ ∀ k v, d.get? k = some v → p v = false := by
  simp only [first, List.find?_eq_none, mem_values_iff, Bool.not_eq_true]
  constructor
  · intro h k v hv
    exact h v ⟨k, hv⟩
  · rintro h v ⟨k, hv⟩
    exact h k v hv

/-- The first row of a select that also looks at the keys, with its key. -/
def firstEntry (d : Dict κ ν) (p : κ → ν → Bool) : Option (κ × ν) := d.items.find? fun e => p e.1 e.2

theorem of_firstEntry {p : κ → ν → Bool} (h : d.firstEntry p = some (k, v)) :
    d.get? k = some v ∧ p k v = true :=
  ⟨get?_eq_some_iff.mpr (List.mem_of_find?_eq_some h),
    List.find?_some (p := fun e : κ × ν => p e.1 e.2) h⟩

theorem firstEntry_eq_none_iff {p : κ → ν → Bool} :
    d.firstEntry p = none ↔ ∀ k v, d.get? k = some v → p k v = false := by
  simp [firstEntry, get?_eq_some_iff]

/-- Where only one key qualifies, its row is selected. -/
theorem firstEntry_eq_of_unique {p : κ → ν → Bool} (hk : d.get? k = some v) (hp : p k v = true)
    (hunique : ∀ j w, d.get? j = some w → p j w = true → j = k) : d.firstEntry p = some (k, v) := by
  cases hf : d.firstEntry p with
  | none => rw [firstEntry_eq_none_iff.mp hf k v hk] at hp; contradiction
  | some e =>
    obtain ⟨hj, hw⟩ := of_firstEntry hf
    obtain rfl := hunique e.1 e.2 hj hw
    rw [hk] at hj
    rw [Option.some.inj hj]

/-! ## Update and delete -/

/-- What a read finds after one row was written. -/
theorem of_get?_set {m : κ} {w : ν} (h : (d.set k v).get? m = some w) :
    (m = k ∧ w = v) ∨ (m ≠ k ∧ d.get? m = some w) := by
  rw [get?_set] at h
  split at h
  · next hm => exact .inl ⟨hm, (Option.some.inj h).symm⟩
  · next hm => exact .inr ⟨hm, h⟩

/-- Rewrite every row that satisfies `p`. -/
def updateWhere (d : Dict κ ν) (p : ν → Bool) (f : ν → ν) : Dict κ ν where
  items := d.items.map fun e => (e.1, if p e.2 then f e.2 else e.2)
  nodup := by simpa [Function.comp_def] using d.nodup

theorem get?_updateWhere (d : Dict κ ν) (p : ν → Bool) (f : ν → ν) (k : κ) :
    (d.updateWhere p f).get? k = (d.get? k).map fun v => if p v then f v else v := by
  simp only [get?, updateWhere, List.find?_map, Option.map_map]
  rfl

/-- Rewrite the rows under the given keys. -/
def updateKeys (d : Dict κ ν) (ks : List κ) (f : ν → ν) : Dict κ ν where
  items := d.items.map fun e => (e.1, if e.1 ∈ ks then f e.2 else e.2)
  nodup := by simpa [Function.comp_def] using d.nodup

theorem get?_updateKeys (d : Dict κ ν) (ks : List κ) (f : ν → ν) (k : κ) :
    (d.updateKeys ks f).get? k = (d.get? k).map fun v => if k ∈ ks then f v else v := by
  ext w
  simp only [get?_eq_some_iff, updateKeys, List.mem_map, Prod.mk.injEq, Option.map_eq_some_iff]
  constructor
  · rintro ⟨⟨j, v⟩, hv, rfl, rfl⟩
    exact ⟨v, hv, rfl⟩
  · rintro ⟨v, hv, rfl⟩
    exact ⟨(k, v), hv, rfl, rfl⟩

/-- Remove every row that satisfies `p`. -/
def deleteWhere (d : Dict κ ν) (p : ν → Bool) : Dict κ ν where
  items := d.items.filter fun e => !p e.2
  nodup := d.nodup.sublist (List.Sublist.map _ List.filter_sublist)

theorem get?_deleteWhere_eq_some_iff :
    (d.deleteWhere p).get? k = some v ↔ d.get? k = some v ∧ p v = false := by
  simp [get?_eq_some_iff, deleteWhere]

end Dict

end AgentBox
