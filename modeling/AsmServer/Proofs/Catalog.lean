import AsmServer.Catalog
import Mathlib.Data.List.Basic
import Mathlib.Order.Defs.LinearOrder

/-!
# Looking up in a catalog

A catalog stays in the order of its keys under every change. A change of one key shows under
that key alone, so adding the entries of a list leaves under each key the value of the first
entry with that key.
-/

namespace AsmServer

namespace Catalog

variable {κ α : Type} [Ord κ] {catalog : Catalog κ α} {key k : κ} {change : Option α → α}
  {value : α}

/-- The keys increase. -/
def Sorted (catalog : Catalog κ α) : Prop := catalog.Pairwise fun a b => compare a.1 b.1 = .lt

@[simp] theorem find?_nil : find? k ([] : Catalog κ α) = none := rfl

theorem ofList_eq_foldl (entries : List (κ × α)) :
    ofList entries = entries.foldl (fun catalog entry => insertNew entry.1 entry.2 catalog) [] :=
  rfl

theorem find?_cons (entry : κ × α) :
    find? k (entry :: catalog) =
      if compare k entry.1 = .eq then some entry.2 else find? k catalog := by
  by_cases here : compare k entry.1 = .eq <;> simp [find?, here]

variable [Std.LawfulEqOrd κ]

/-- A key is listed if and only if it has a value. -/
theorem find?_isSome_iff_mem_keys : (find? k catalog).isSome ↔ k ∈ catalog.keys := by
  have same (entry : κ × α) : compare k entry.1 = .eq ↔ entry.1 = k :=
    Std.compare_eq_iff_eq.trans eq_comm
  simp [find?, keys, same]

theorem mem_alter {entry : κ × α} (h : entry ∈ alter key change catalog) :
    entry.1 = key ∨ entry ∈ catalog := by
  induction catalog with
  | nil => exact .inl (congrArg Prod.fst (List.mem_singleton.mp h))
  | cons first rest ih =>
    unfold alter at h
    split at h
    · rcases List.mem_cons.mp h with rfl | old
      · exact .inl rfl
      · exact .inr old
    · next same =>
      rcases List.mem_cons.mp h with rfl | old
      · exact .inl (Std.LawfulEqOrd.eq_of_compare same).symm
      · exact .inr (List.mem_cons_of_mem _ old)
    · rcases List.mem_cons.mp h with rfl | old
      · exact .inr List.mem_cons_self
      · exact (ih old).imp_right (List.mem_cons_of_mem _)

theorem mem_of_find? (h : find? k catalog = some value) : (k, value) ∈ catalog := by
  obtain ⟨⟨key, _⟩, found, rfl⟩ := Option.map_eq_some_iff.mp h
  obtain rfl : k = key := Std.LawfulEqOrd.eq_of_compare (by simpa using List.find?_some found)
  exact List.mem_of_find?_eq_some found

variable [Std.TransOrd κ]

/-- Every entry of a catalog is found. -/
theorem Sorted.find?_eq_some_iff (sorted : catalog.Sorted) :
    find? k catalog = some value ↔ (k, value) ∈ catalog := by
  refine ⟨mem_of_find?, fun member => ?_⟩
  induction catalog with
  | nil => cases member
  | cons first rest ih =>
    obtain ⟨above, later⟩ := List.pairwise_cons.mp sorted
    rw [find?_cons]
    rcases List.mem_cons.mp member with rfl | behind
    · simp
    · have greater : compare k first.1 = .gt := Std.OrientedCmp.gt_of_lt (above _ behind)
      simp [greater, ih later behind]

theorem Sorted.alter (sorted : catalog.Sorted) : (alter key change catalog).Sorted := by
  induction catalog with
  | nil => exact List.pairwise_singleton _ _
  | cons first rest ih =>
    obtain ⟨above, later⟩ := List.pairwise_cons.mp sorted
    unfold Catalog.alter
    split
    · next before =>
      refine List.pairwise_cons.mpr ⟨fun entry member => ?_, sorted⟩
      rcases List.mem_cons.mp member with rfl | member
      · exact before
      · exact Std.TransCmp.lt_trans before (above entry member)
    · exact List.pairwise_cons.mpr ⟨above, later⟩
    · next behind =>
      refine List.pairwise_cons.mpr ⟨fun entry member => ?_, ih later⟩
      rcases mem_alter member with same | old
      · rw [same]
        exact Std.OrientedCmp.lt_of_gt behind
      · exact above entry old

/-- No entry behind a greater key has the key. -/
theorem find?_eq_none_of_lt {first : κ × α} (sorted : Sorted (first :: catalog))
    (before : compare key first.1 = .lt) : find? key (first :: catalog) = none := by
  have none : ∀ entry ∈ first :: catalog, compare key entry.1 ≠ .eq := by
    intro entry member
    have : compare key entry.1 = .lt := by
      rcases List.mem_cons.mp member with rfl | member
      · exact before
      · exact Std.TransCmp.lt_trans before ((List.pairwise_cons.mp sorted).1 entry member)
    simp [this]
  simpa [find?] using none

theorem Sorted.insertNew (sorted : catalog.Sorted) : (insertNew key value catalog).Sorted :=
  sorted.alter

theorem sorted_ofList (entries : List (κ × α)) : (ofList entries).Sorted := by
  suffices ∀ catalog : Catalog κ α, catalog.Sorted →
      (entries.foldl (fun catalog entry => insertNew entry.1 entry.2 catalog) catalog).Sorted from
    this [] .nil
  induction entries with
  | nil => exact fun _ sorted => sorted
  | cons entry rest ih => exact fun _ sorted => ih _ sorted.insertNew

variable [DecidableEq κ]

/-- A change shows under its key alone. -/
theorem find?_alter (sorted : catalog.Sorted) :
    find? k (alter key change catalog) =
      if k = key then some (change (find? key catalog)) else find? k catalog := by
  induction catalog with
  | nil => simp [alter, find?_cons, find?_nil]
  | cons first rest ih =>
    have later := (List.pairwise_cons.mp sorted).2
    unfold alter
    split
    · next before => simp [find?_cons, find?_eq_none_of_lt sorted before]
    · next same =>
      obtain rfl : key = first.1 := Std.LawfulEqOrd.eq_of_compare same
      by_cases here : k = first.1 <;> simp [find?_cons, here]
    · next behind =>
      rw [find?_cons, ih later, find?_cons, find?_cons]
      by_cases here : k = key
      · subst here
        simp [behind]
      · simp [here]

theorem find?_insertNew (sorted : catalog.Sorted) :
    find? k (insertNew key value catalog) =
      if k = key then some ((find? key catalog).getD value) else find? k catalog :=
  find?_alter sorted

/-- Of the entries with one key the first counts. -/
theorem find?_ofList (entries : List (κ × α)) :
    find? k (ofList entries) = (entries.find? (·.1 = k)).map (·.2) := by
  suffices ∀ catalog : Catalog κ α, catalog.Sorted →
      find? k (entries.foldl (fun catalog entry => insertNew entry.1 entry.2 catalog) catalog) =
        (find? k catalog).or ((entries.find? (·.1 = k)).map (·.2)) by
    simpa [ofList_eq_foldl] using this [] .nil
  induction entries with
  | nil => simp
  | cons entry rest ih =>
    intro catalog sorted
    rw [List.foldl_cons, ih _ sorted.insertNew, find?_insertNew sorted, List.find?_cons]
    by_cases here : k = entry.1
    · subst here
      cases find? entry.1 catalog <;> simp
    · simp [here, Ne.symm here]

end Catalog

end AsmServer
