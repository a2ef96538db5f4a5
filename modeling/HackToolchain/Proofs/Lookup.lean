import Mathlib.Data.List.Nodup

/-!
Tables as lists of keys and values, of which the first entry with a key counts.
-/

namespace HackToolchain

variable {α β : Type} [BEq α] [LawfulBEq α] {entries : List (α × β)} {key : α} {value : β}

theorem lookup_isSome : (entries.lookup key).isSome = true ↔ key ∈ entries.map Prod.fst := by
  rw [List.lookup_isSome_iff, List.mem_map]
  simp only [beq_iff_eq, @eq_comm _ key]

theorem mem_of_lookup (found : entries.lookup key = some value) : (key, value) ∈ entries := by
  obtain ⟨front, back, rfl, -⟩ := List.lookup_eq_some_iff.mp found
  simp

theorem lookup_of_mem (distinct : (entries.map Prod.fst).Nodup) (member : (key, value) ∈ entries) :
    entries.lookup key = some value := by
  have found := lookup_isSome.mpr (List.mem_map_of_mem (f := Prod.fst) member)
  obtain ⟨other, bound⟩ := Option.isSome_iff_exists.mp found
  have same := List.inj_on_of_nodup_map distinct member (mem_of_lookup bound) rfl
  rw [bound, (Prod.mk.inj same).2]

end HackToolchain
