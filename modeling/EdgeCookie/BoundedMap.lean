-- A map with a fixed number of places, as a kernel hash map is: a new key is
-- refused when all places are taken, and a key that is there can always be
-- written. No value of the type holds more keys than places.
import Mathlib.Data.List.AList
import Mathlib.Tactic.Common

/-- A map from `α` to `β` with at most `cap` keys. -/
structure BoundedMap (α β : Type) [DecidableEq α] (cap : Nat) where
  entries : AList (fun _ : α => β)
  fits : entries.entries.length ≤ cap

namespace BoundedMap

variable {α β : Type} [DecidableEq α] {cap : Nat}

def empty : BoundedMap α β cap := ⟨∅, by simp⟩

def lookup (m : BoundedMap α β cap) (k : α) : Option β := m.entries.lookup k

/-- The key is in the map, or a place is free. -/
def HasRoom (m : BoundedMap α β cap) (k : α) : Prop :=
  k ∈ m.entries ∨ m.entries.entries.length < cap

instance (m : BoundedMap α β cap) (k : α) : Decidable (m.HasRoom k) :=
  inferInstanceAs (Decidable (_ ∨ _))

theorem length_insert_le (s : AList (fun _ : α => β)) (k : α) (v : β)
    (h : k ∈ s ∨ s.entries.length < cap) (hs : s.entries.length ≤ cap) :
    (s.insert k v).entries.length ≤ cap := by
  have hlen : ∀ t : AList (fun _ : α => β), t.entries.length = t.keys.length := by
    intro t
    simp [AList.keys, List.keys]
  rw [hlen] at hs h ⊢
  rw [AList.keys_insert, List.length_cons]
  by_cases hk : k ∈ s.keys
  · rw [List.length_erase_of_mem hk]
    have := List.length_pos_of_mem hk
    omega
  · rw [List.erase_of_not_mem hk]
    have hmem : k ∉ s := hk
    rcases h with h | h
    · exact absurd h hmem
    · omega

/-- The write of a value that makes the key when it is not there: `BPF_ANY`. -/
def putAny (m : BoundedMap α β cap) (k : α) (v : β) : BoundedMap α β cap :=
  if h : m.HasRoom k then ⟨m.entries.insert k v, length_insert_le _ _ _ h m.fits⟩ else m

/-- The write of a value only when the key is there: `BPF_EXIST`. -/
def putExist (m : BoundedMap α β cap) (k : α) (v : β) : BoundedMap α β cap :=
  if h : k ∈ m.entries then ⟨m.entries.insert k v, length_insert_le _ _ _ (.inl h) m.fits⟩ else m

theorem mem_iff_lookup (m : BoundedMap α β cap) (k : α) :
    k ∈ m.entries ↔ ∃ v, m.lookup k = some v := by
  rw [← AList.lookup_isSome, Option.isSome_iff_exists]
  rfl

theorem hasRoom_of_lookup {m : BoundedMap α β cap} {k : α} {v : β} (h : m.lookup k = some v) :
    m.HasRoom k := Or.inl ((mem_iff_lookup m k).mpr ⟨v, h⟩)

theorem lookup_putAny (m : BoundedMap α β cap) (k k' : α) (v : β) :
    (m.putAny k v).lookup k' = if k' = k ∧ m.HasRoom k then some v else m.lookup k' := by
  unfold putAny lookup
  split
  · rename_i h
    by_cases hk : k' = k
    · subst hk
      simp [h]
    · simp [hk, AList.lookup_insert_ne hk]
  · rename_i h
    simp [h]

theorem lookup_putExist (m : BoundedMap α β cap) (k k' : α) (v : β) :
    (m.putExist k v).lookup k' =
      if k' = k ∧ (m.lookup k).isSome then some v else m.lookup k' := by
  unfold putExist lookup
  split
  · rename_i h
    by_cases hk : k' = k
    · subst hk
      simp [AList.lookup_isSome.mpr h]
    · simp [hk, AList.lookup_insert_ne hk]
  · rename_i h
    have hn : ¬ (AList.lookup k m.entries).isSome := fun hs => h (AList.lookup_isSome.mp hs)
    simp [hn]

theorem lookup_putExist_ne {m : BoundedMap α β cap} {k k' : α} {v : β} (h : k' ≠ k) :
    (m.putExist k v).lookup k' = m.lookup k' := by
  rw [lookup_putExist, if_neg (fun hk => h hk.1)]

theorem lookup_putExist_same {m : BoundedMap α β cap} {k : α} {v w : β}
    (h : m.lookup k = some w) : (m.putExist k v).lookup k = some v := by
  rw [lookup_putExist, h, if_pos ⟨rfl, rfl⟩]

theorem putAny_of_full {m : BoundedMap α β cap} {k : α} (v : β) (h : ¬ m.HasRoom k) :
    m.putAny k v = m := dif_neg h

theorem lookup_of_full {m : BoundedMap α β cap} {k : α} (h : ¬ m.HasRoom k) :
    m.lookup k = none := by
  cases hl : m.lookup k with
  | none => rfl
  | some v => exact absurd (hasRoom_of_lookup hl) h

/-- A map with some of the keys of another one has room where that one has. -/
theorem HasRoom.of_keys {m n : BoundedMap α β cap} {k : α} (h : m.HasRoom k)
    (hkeys : ∀ k', (n.lookup k').isSome → (m.lookup k').isSome)
    (hk : (m.lookup k).isSome → (n.lookup k).isSome) : n.HasRoom k := by
  have hlen : ∀ l : BoundedMap α β cap, l.entries.entries.length = l.entries.keys.length := by
    intro l
    simp [AList.keys, List.keys]
  rcases h with hmem | hlt
  · exact .inl (AList.lookup_isSome.mp (hk (AList.lookup_isSome.mpr hmem)))
  · refine .inr (Nat.lt_of_le_of_lt ?_ hlt)
    rw [hlen, hlen]
    refine (List.subperm_of_subset n.entries.nodupKeys ?_).length_le
    intro k' hk'
    exact AList.lookup_isSome.mp (hkeys k' (AList.lookup_isSome.mpr hk'))

/-- A map with all its places taken, by the keys that `f` names. -/
def fill (f : Fin cap → α) (hf : Function.Injective f) (v : β) : BoundedMap α β cap where
  entries := ⟨(List.finRange cap).map fun i => ⟨f i, v⟩, by
    rw [List.NodupKeys, List.keys, List.map_map]
    exact (List.nodup_finRange cap).map hf⟩
  fits := by simp

theorem not_hasRoom_fill {f : Fin cap → α} (hf : Function.Injective f) (v : β) {k : α}
    (h : ∀ i, f i ≠ k) : ¬ (fill f hf v).HasRoom k := by
  have hkey : k ∉ (fill f hf v).entries := by
    intro hk
    obtain ⟨s, hs, rfl⟩ := List.mem_map.mp hk
    obtain ⟨i, -, rfl⟩ := List.mem_map.mp hs
    exact h i rfl
  rintro (hk | hlt)
  · exact hkey hk
  · simp [fill] at hlt

end BoundedMap
