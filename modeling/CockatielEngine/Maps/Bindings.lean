import Mathlib.Data.List.Basic
import Mathlib.Data.List.Nodup
import Mathlib.Data.List.Perm.Basic
import Mathlib.Tactic

/-!
# Maps: the bindings of a hash map

A hash map as the list of its bindings, in the order in which an iteration finds
them.  As long as no key is bound twice, what a key is bound to does not depend on
that order.
-/

namespace CockatielEngine

universe u v

namespace Bindings

variable {κ : Type u} {β : Type v} [DecidableEq κ]

def lookup (l : List (κ × β)) (k : κ) : Option β :=
  (l.find? fun b => b.1 = k).map (·.2)

/-- Bind the key, and no longer to what it was bound to before. -/
def insert (l : List (κ × β)) (k : κ) (v : β) : List (κ × β) :=
  l.filter (fun b => b.1 ≠ k) ++ [(k, v)]

/-- Unbind the key. -/
def erase (l : List (κ × β)) (k : κ) : List (κ × β) :=
  l.filter fun b => b.1 ≠ k

section Lemmas

variable {l l' : List (κ × β)} {k k' : κ} {v : β} {b : κ × β}

theorem mem_of_lookup
    (h : lookup l k = some v) :
    (k, v) ∈ l := by
  obtain ⟨b, hb, rfl⟩ := Option.map_eq_some_iff.mp h
  have hkey : b.1 = k := by simpa using List.find?_some hb
  rw [← hkey]
  exact List.mem_of_find?_eq_some hb

/-- A key that is bound once is bound to what its binding says. -/
theorem lookup_eq_some_iff
    (hkeys : (l.map Prod.fst).Nodup) :
    lookup l k = some v ↔ (k, v) ∈ l := by
  refine ⟨mem_of_lookup, fun hmem => ?_⟩
  obtain ⟨b, hb⟩ := Option.isSome_iff_exists.mp
    (List.find?_isSome.mpr ⟨(k, v), hmem, by simp⟩ :
      (l.find? fun b => b.1 = k).isSome)
  have hkey : b.1 = k := by simpa using List.find?_some hb
  have hsame : b = (k, v) :=
    List.inj_on_of_nodup_map hkeys (List.mem_of_find?_eq_some hb) hmem hkey
  rw [lookup, hb, hsame]
  rfl

theorem lookup_eq_none_iff :
    lookup l k = none ↔ ∀ b ∈ l, b.1 ≠ k := by
  simp [lookup]

/-- The order of the bindings does not matter. -/
theorem lookup_perm
    (hkeys : (l.map Prod.fst).Nodup)
    (h : l'.Perm l) :
    lookup l' k = lookup l k := by
  have hkeys' : (l'.map Prod.fst).Nodup := (h.map Prod.fst).nodup_iff.mpr hkeys
  ext v
  rw [lookup_eq_some_iff hkeys, lookup_eq_some_iff hkeys', h.mem_iff]

/-- What is left of a key's binding when bindings go by what they bind to. -/
theorem lookup_filter_value
    (p : β → Bool)
    (hkeys : (l.map Prod.fst).Nodup) :
    lookup (l.filter fun b => p b.2) k = (lookup l k).filter p := by
  have hkeys' : ((l.filter fun b => p b.2).map Prod.fst).Nodup :=
    hkeys.sublist (List.filter_sublist.map Prod.fst)
  ext v
  rw [lookup_eq_some_iff hkeys', List.mem_filter, Option.filter_eq_some_iff,
    lookup_eq_some_iff hkeys]

theorem mem_insert_iff :
    b ∈ insert l k v ↔ b = (k, v) ∨ b ∈ l ∧ b.1 ≠ k := by
  simp [insert, or_comm]

omit [DecidableEq κ] in
theorem nodup_filter
    (p : κ × β → Bool)
    (hkeys : (l.map Prod.fst).Nodup) :
    ((l.filter p).map Prod.fst).Nodup :=
  hkeys.sublist (List.filter_sublist.map Prod.fst)

theorem nodup_insert
    (hkeys : (l.map Prod.fst).Nodup) :
    ((insert l k v).map Prod.fst).Nodup := by
  rw [insert, List.map_append, List.nodup_append]
  refine ⟨nodup_filter _ hkeys, by simp, ?_⟩
  rintro a ha c hc rfl
  obtain ⟨b, hb, rfl⟩ := List.mem_map.mp ha
  have hne : b.1 ≠ k := by simpa using (List.mem_filter.mp hb).2
  exact hne (by simpa using hc)

@[simp] theorem lookup_insert :
    lookup (insert l k v) k' = if k' = k then some v else lookup l k' := by
  rw [lookup, insert, List.find?_append]
  by_cases hk : k' = k
  · subst hk
    have hnone : (l.filter fun b => decide (b.1 ≠ k')).find? (fun b => b.1 = k') =
        none := by
      rw [List.find?_eq_none]
      intro b hb
      simpa using (List.mem_filter.mp hb).2
    rw [hnone]
    simp
  · have hother : (l.filter fun b => decide (b.1 ≠ k)).find? (fun b => b.1 = k') =
        l.find? fun b => b.1 = k' := by
      rw [List.find?_filter]
      congr 1
      funext b
      by_cases hb : b.1 = k' <;> simp [hb, hk]
    rw [hother]
    simp [hk, Ne.symm hk, lookup]

@[simp] theorem lookup_erase :
    lookup (erase l k) k' = if k' = k then none else lookup l k' := by
  by_cases hk : k' = k
  · subst hk
    simp [lookup, erase]
  · have hother : (erase l k).find? (fun b => b.1 = k') =
        l.find? fun b => b.1 = k' := by
      rw [erase, List.find?_filter]
      congr 1
      funext b
      by_cases hb : b.1 = k' <;> simp [hb, hk]
    rw [if_neg hk, lookup, hother]
    rfl

end Lemmas

end Bindings

end CockatielEngine
