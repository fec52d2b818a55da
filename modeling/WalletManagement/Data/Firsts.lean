import Mathlib.Data.List.Induction
import Mathlib.Data.List.Nodup

/-!
# First occurrences

The elements of a list that are the first ones with their key, in order. This is what a
deduplicating consumer keeps of a stream.
-/

namespace Data

variable {V K : Type} [DecidableEq K] (key : V → K)

/-- Add an element unless its key is there already. -/
def addFirst (kept : List V) (element : V) : List V :=
  if key element ∈ kept.map key then kept else kept ++ [element]

/-- The first elements with each key. -/
def firsts (l : List V) : List V := l.foldl (addFirst key) []

@[simp] theorem firsts_nil : firsts key [] = [] := rfl

theorem firsts_concat (l : List V) (element : V) :
    firsts key (l ++ [element]) = addFirst key (firsts key l) element := by
  rw [firsts, List.foldl_append]
  rfl

variable {key} {l : List V}

/-- An element that is kept was there. -/
theorem mem_of_mem_firsts {element : V} (member : element ∈ firsts key l) : element ∈ l := by
  induction l using List.reverseRecOn with
  | nil => exact member
  | append_singleton l last ih =>
    rw [firsts_concat, addFirst] at member
    split at member
    · exact List.mem_append_left _ (ih member)
    · rcases List.mem_append.mp member with early | here
      · exact List.mem_append_left _ (ih early)
      · exact List.mem_append_right _ here

/-- The keys that are kept are all the keys. -/
theorem mem_map_firsts {k : K} : k ∈ (firsts key l).map key ↔ k ∈ l.map key := by
  induction l using List.reverseRecOn with
  | nil => rfl
  | append_singleton l last ih =>
    rw [firsts_concat, addFirst]
    split
    · rename_i known
      rw [List.map_append, List.mem_append, ih]
      constructor
      · exact .inl
      · rintro (early | here)
        · exact early
        · have same : k = key last := by simpa using here
          rwa [← ih, same]
    · rw [List.map_append, List.map_append, List.mem_append, List.mem_append, ih]

/-- No key is kept twice. -/
theorem nodup_map_firsts : ((firsts key l).map key).Nodup := by
  induction l using List.reverseRecOn with
  | nil => exact List.nodup_nil
  | append_singleton l last ih =>
    rw [firsts_concat, addFirst]
    split
    · exact ih
    · rename_i unknown
      rw [List.map_append, List.nodup_append]
      refine ⟨ih, List.nodup_singleton _, fun k member k' single same => ?_⟩
      rw [List.map_singleton, List.mem_singleton] at single
      rw [← single, ← same] at unknown
      exact unknown member

/-- The first elements of a list that goes on are related if those of its beginning are, and every
later one is related to the elements before it that have another key. -/
theorem pairwise_firsts_append {r : V → V → Prop} {l' : List V}
    (early : (firsts key l).Pairwise r)
    (between : ∀ x ∈ l, ∀ y ∈ l', key y ∉ l.map key → r x y)
    (late : l'.Pairwise fun x y => key x ≠ key y → r x y) :
    (firsts key (l ++ l')).Pairwise r := by
  induction l' using List.reverseRecOn with
  | nil => rwa [List.append_nil]
  | append_singleton l' last ih =>
    obtain ⟨late, -, behind⟩ := List.pairwise_append.mp late
    have kept := ih (fun x member y there => between x member y (List.mem_append_left _ there)) late
    rw [← List.append_assoc, firsts_concat, addFirst]
    split
    · exact kept
    · rename_i unknown
      rw [mem_map_firsts, List.map_append, List.mem_append, not_or] at unknown
      refine List.pairwise_append.mpr ⟨kept, List.pairwise_singleton _ _, fun x member y only => ?_⟩
      rw [List.mem_singleton.mp only]
      rcases List.mem_append.mp (mem_of_mem_firsts member) with first | second
      · exact between x first last (List.mem_append_right _ List.mem_cons_self) unknown.1
      · refine behind x second last List.mem_cons_self fun same => unknown.2 ?_
        rw [← same]
        exact List.mem_map_of_mem second

/-- If elements with the same key are equal, every element is kept. -/
theorem mem_firsts_iff (same : ∀ x ∈ l, ∀ y ∈ l, key x = key y → x = y) {element : V} :
    element ∈ firsts key l ↔ element ∈ l := by
  refine ⟨mem_of_mem_firsts, fun member => ?_⟩
  have kept : key element ∈ (firsts key l).map key :=
    mem_map_firsts.mpr (List.mem_map_of_mem member)
  obtain ⟨first, there, keys⟩ := List.mem_map.mp kept
  rwa [← same first (mem_of_mem_firsts there) element member keys]

/-- The first elements with other keys do not depend on the elements with one key. -/
theorem filter_ne_firsts (k : K) :
    (firsts key l).filter (fun x => key x ≠ k) = firsts key (l.filter fun x => key x ≠ k) := by
  induction l using List.reverseRecOn with
  | nil => rfl
  | append_singleton l last ih =>
    rw [firsts_concat, addFirst, List.filter_append]
    by_cases own : key last = k
    · rw [List.filter_cons_of_neg (by simpa using own), List.filter_nil, List.append_nil, ← ih]
      split
      · rfl
      · rw [List.filter_append, List.filter_cons_of_neg (by simpa using own), List.filter_nil,
          List.append_nil]
    · rw [List.filter_cons_of_pos (by simpa using own), List.filter_nil, firsts_concat, addFirst,
        ← ih]
      have known : key last ∈ ((firsts key l).filter fun x => key x ≠ k).map key ↔
          key last ∈ (firsts key l).map key := by
        simp only [List.mem_map, List.mem_filter]
        constructor
        · rintro ⟨x, ⟨member, -⟩, same⟩
          exact ⟨x, member, same⟩
        · rintro ⟨x, member, same⟩
          exact ⟨x, ⟨member, by simpa [same] using own⟩, same⟩
      by_cases there : key last ∈ (firsts key l).map key
      · rw [if_pos there, if_pos (known.mpr there)]
      · rw [if_neg there, if_neg fun h => there (known.mp h), List.filter_append,
          List.filter_cons_of_pos (by simpa using own), List.filter_nil]

/-- The element kept for a key is the first one with that key. -/
theorem filter_eq_firsts (k : K) :
    (firsts key l).filter (fun x => key x = k) = (l.filter fun x => key x = k).take 1 := by
  induction l using List.reverseRecOn with
  | nil => rfl
  | append_singleton l last ih =>
    rw [firsts_concat, addFirst, List.filter_append]
    by_cases own : key last = k
    · rw [List.filter_cons_of_pos (by simpa using own), List.filter_nil]
      by_cases there : key last ∈ (firsts key l).map key
      · rw [if_pos there, ih]
        obtain ⟨x, member, same⟩ := List.mem_map.mp (mem_map_firsts.mp there)
        have some : x ∈ l.filter fun x => key x = k :=
          List.mem_filter.mpr ⟨member, by simpa [same] using own⟩
        rw [List.take_append_of_le_length (List.length_pos_of_mem some)]
      · have none : (l.filter fun x => key x = k) = [] := by
          refine List.filter_eq_nil_iff.mpr fun x member same => there (mem_map_firsts.mpr ?_)
          exact List.mem_map.mpr ⟨x, member, by rw [own]; simpa using same⟩
        rw [if_neg there, List.filter_append, ih, none,
          List.filter_cons_of_pos (by simpa using own)]
        rfl
    · rw [List.filter_cons_of_neg (by simpa using own), List.filter_nil, List.append_nil, ← ih]
      split
      · rfl
      · rw [List.filter_append, List.filter_cons_of_neg (by simpa using own), List.filter_nil,
          List.append_nil]

end Data
