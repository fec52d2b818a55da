import Mathlib.Data.Finset.Basic
import Mathlib.Data.List.Perm.Basic
import Mathlib.Data.List.Nodup

/-!
# Numbers handed out by a counter

A counter hands its value out and moves on. A client that holds a number commits it or gives it
back; the counter takes back only the number it handed out last, and any other number given back
leaves a gap. `Handouts.Partition` says what this keeps: the numbers below the counter are the held
ones, the committed ones and the gaps, each exactly once.
-/

namespace Data

variable {C : Type}

/-- What became of the numbers handed out. -/
structure Handouts (C : Type) where
  /-- The numbers that clients hold. -/
  held : List (C × Int) := []
  /-- The committed numbers. -/
  committed : List Int := []
  /-- The numbers whose last return found the counter further on. -/
  gaps : Finset Int := ∅

namespace Handouts

/-- The numbers held by any client. -/
def heldNumbers (h : Handouts C) : List Int := h.held.map Prod.snd

/-- A client gets a number. -/
def reserve (h : Handouts C) (client : C) (n : Int) : Handouts C :=
  { h with held := (client, n) :: h.held }

/-- A client commits a number. -/
def commit [DecidableEq C] (h : Handouts C) (client : C) (n : Int) : Handouts C :=
  { h with held := h.held.erase (client, n), committed := n :: h.committed }

/-- A client gives a number back, with the counter further on or not. -/
def giveBack [DecidableEq C] (h : Handouts C) (client : C) (n : Int) (further : Bool) :
    Handouts C :=
  { h with
    held := h.held.erase (client, n)
    gaps := if further then insert n h.gaps else h.gaps.erase n }

/-- The number after the largest committed one. -/
def AfterLargest (committed : List Int) (mark : Int) : Prop :=
  (committed = [] ∧ mark = 0) ∨
    ∃ largest ∈ committed, (∀ n ∈ committed, n ≤ largest) ∧ mark = largest + 1

/-- The numbers below a counter, and the mark above the committed ones. -/
structure Partition (h : Handouts C) (counter mark : Int) : Prop where
  /-- The held and the committed numbers are pairwise distinct. -/
  distinct : (h.heldNumbers ++ h.committed).Nodup
  /-- No gap is held or committed. -/
  disjoint : ∀ n ∈ h.gaps, n ∉ h.heldNumbers ∧ n ∉ h.committed
  /-- They are the numbers below the counter. -/
  covers : ∀ n, (0 ≤ n ∧ n < counter) ↔ n ∈ h.heldNumbers ∨ n ∈ h.committed ∨ n ∈ h.gaps
  /-- The mark is the number after the largest committed one. -/
  marked : AfterLargest h.committed mark
  /-- The mark is not beyond the counter. -/
  bounded : mark ≤ counter

/-- A held number is one number of the held ones, and the others stay when it is taken out. -/
theorem heldNumbers_perm [DecidableEq C] {h : Handouts C} {client : C} {n : Int}
    (holds : (client, n) ∈ h.held) :
    h.heldNumbers.Perm (n :: (h.held.erase (client, n)).map Prod.snd) :=
  (List.perm_cons_erase holds).map Prod.snd

namespace Partition

variable {h : Handouts C} {client : C} {counter mark n : Int}

/-- Nothing is handed out at first. -/
theorem empty : ({} : Handouts C).Partition 0 0 := by
  refine ⟨List.nodup_nil, by simp, fun n => ?_, .inl ⟨rfl, rfl⟩, le_refl 0⟩
  constructor
  · intro inside
    omega
  · simp [heldNumbers]

/-- A held number is below the counter. -/
theorem of_held (parts : h.Partition counter mark) (holds : (client, n) ∈ h.held) :
    0 ≤ n ∧ n < counter :=
  (parts.covers n).mpr (.inl (List.mem_map_of_mem holds))

/-- The mark is not negative. -/
theorem mark_nonneg (parts : h.Partition counter mark) : 0 ≤ mark := by
  rcases parts.marked with ⟨-, rfl⟩ | ⟨largest, member, -, rfl⟩
  · exact le_refl 0
  · have inside := (parts.covers largest).mpr (.inr (.inl member))
    omega

/-- The counter hands its value out. -/
theorem reserve (parts : h.Partition counter mark) (client : C) :
    (h.reserve client counter).Partition (counter + 1) mark := by
  have natural := parts.mark_nonneg
  have bounded := parts.bounded
  -- the counter itself is in none of the three parts
  have fresh : ¬(counter ∈ h.heldNumbers ∨ counter ∈ h.committed ∨ counter ∈ h.gaps) := by
    rw [← parts.covers]
    omega
  refine ⟨?_, fun n gap => ?_, fun n => ?_, parts.marked, by omega⟩
  · refine List.nodup_cons.mpr ⟨fun member => fresh ?_, parts.distinct⟩
    rcases List.mem_append.mp member with held | committed
    · exact .inl held
    · exact .inr (.inl committed)
  · obtain ⟨free, uncommitted⟩ := parts.disjoint n gap
    refine ⟨fun held => ?_, uncommitted⟩
    rcases List.mem_cons.mp held with rfl | held
    · exact fresh (.inr (.inr gap))
    · exact free held
  · have before := parts.covers n
    have held : n ∈ (h.reserve client counter).heldNumbers ↔ n = counter ∨ n ∈ h.heldNumbers :=
      List.mem_cons
    rw [held, or_assoc, show n ∈ (h.reserve client counter).committed ↔
      n ∈ h.committed from Iff.rfl,
      show n ∈ (h.reserve client counter).gaps ↔ n ∈ h.gaps from Iff.rfl, ← before]
    omega

variable [DecidableEq C]

/-- A client commits a number it holds. -/
theorem commit (parts : h.Partition counter mark) (holds : (client, n) ∈ h.held) :
    (h.commit client n).Partition counter (max mark (n + 1)) := by
  have inside := parts.of_held holds
  have perm := heldNumbers_perm holds
  have held (m : Int) : m ∈ h.heldNumbers ↔ m = n ∨ m ∈ (h.commit client n).heldNumbers := by
    rw [perm.mem_iff, List.mem_cons]
    rfl
  have committed (m : Int) : m ∈ (h.commit client n).committed ↔ m = n ∨ m ∈ h.committed :=
    List.mem_cons
  refine ⟨?_, fun m gap => ?_, fun m => ?_, ?_, max_le parts.bounded (by omega)⟩
  · have moved : (h.heldNumbers ++ h.committed).Perm
        ((h.commit client n).heldNumbers ++ (h.commit client n).committed) :=
      (perm.append_right _).trans List.perm_middle.symm
    exact moved.nodup_iff.mp parts.distinct
  · obtain ⟨free, uncommitted⟩ := parts.disjoint m gap
    rw [held, not_or] at free
    refine ⟨free.2, ?_⟩
    rw [committed, not_or]
    exact ⟨free.1, uncommitted⟩
  · rw [parts.covers, held, committed]
    tauto
  · right
    rcases parts.marked with ⟨none, rfl⟩ | ⟨largest, member, above, rfl⟩
    · refine ⟨n, List.mem_cons_self, fun m later => ?_, by omega⟩
      rw [committed, none] at later
      exact (later.resolve_right List.not_mem_nil).le
    · by_cases higher : n ≤ largest
      · refine ⟨largest, List.mem_cons_of_mem _ member, fun m later => ?_, by omega⟩
        rcases (committed m).mp later with rfl | earlier
        · exact higher
        · exact above m earlier
      · refine ⟨n, List.mem_cons_self, fun m later => ?_, by omega⟩
        rcases (committed m).mp later with rfl | earlier
        · exact le_refl m
        · have := above m earlier
          omega

/-- The counter takes back the number it handed out last. -/
theorem giveBack_last (parts : h.Partition counter mark) (holds : (client, n) ∈ h.held)
    (last : counter = n + 1) : (h.giveBack client n false).Partition n mark := by
  have perm := heldNumbers_perm holds
  have inside := parts.of_held holds
  have distinct : (n :: ((h.giveBack client n false).heldNumbers ++ h.committed)).Nodup :=
    (perm.append_right h.committed).nodup_iff.mp parts.distinct
  obtain ⟨out, distinct⟩ := List.nodup_cons.mp distinct
  rw [List.mem_append, not_or] at out
  have held (m : Int) :
      m ∈ h.heldNumbers ↔ m = n ∨ m ∈ (h.giveBack client n false).heldNumbers := by
    rw [perm.mem_iff, List.mem_cons]
    rfl
  have nogap : n ∉ h.gaps := fun gap => (parts.disjoint n gap).1 ((held n).mpr (.inl rfl))
  have gaps : (h.giveBack client n false).gaps = h.gaps := Finset.erase_eq_of_notMem nogap
  refine ⟨distinct, fun m gap => ?_, fun m => ?_, parts.marked, ?_⟩
  · rw [gaps] at gap
    obtain ⟨free, uncommitted⟩ := parts.disjoint m gap
    rw [held, not_or] at free
    exact ⟨free.2, uncommitted⟩
  · have before := parts.covers m
    rw [held] at before
    rw [gaps]
    by_cases same : m = n
    · subst same
      refine iff_of_false (by omega) ?_
      rintro (member | member | member)
      · exact out.1 member
      · exact out.2 member
      · exact nogap member
    · rw [or_assoc, or_iff_right same] at before
      rw [show (h.giveBack client n false).committed = h.committed from rfl, ← before]
      omega
  · rcases parts.marked with ⟨-, rfl⟩ | ⟨largest, member, -, rfl⟩
    · exact inside.1
    · have below := (parts.covers largest).mpr (.inr (.inl member))
      have other : largest ≠ n := fun same => out.2 (same ▸ member)
      omega

/-- A number given back with the counter further on is a gap. -/
theorem giveBack_gap (parts : h.Partition counter mark) (holds : (client, n) ∈ h.held) :
    (h.giveBack client n true).Partition counter mark := by
  have perm := heldNumbers_perm holds
  have distinct : (n :: ((h.giveBack client n true).heldNumbers ++ h.committed)).Nodup :=
    (perm.append_right h.committed).nodup_iff.mp parts.distinct
  obtain ⟨out, distinct⟩ := List.nodup_cons.mp distinct
  rw [List.mem_append, not_or] at out
  have held (m : Int) :
      m ∈ h.heldNumbers ↔ m = n ∨ m ∈ (h.giveBack client n true).heldNumbers := by
    rw [perm.mem_iff, List.mem_cons]
    rfl
  have gaps (m : Int) : m ∈ (h.giveBack client n true).gaps ↔ m = n ∨ m ∈ h.gaps :=
    Finset.mem_insert
  refine ⟨distinct, fun m gap => ?_, fun m => ?_, parts.marked, parts.bounded⟩
  · rcases (gaps m).mp gap with rfl | gap
    · exact out
    · obtain ⟨free, uncommitted⟩ := parts.disjoint m gap
      rw [held, not_or] at free
      exact ⟨free.2, uncommitted⟩
  · rw [parts.covers, held, gaps, show (h.giveBack client n true).committed = h.committed from rfl]
    tauto

end Partition

end Handouts

end Data
