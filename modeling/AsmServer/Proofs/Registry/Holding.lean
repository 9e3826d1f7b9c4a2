import AsmServer.Workspace.Registry

/-!
# What a debouncer holds

A push neither loses nor invents an item: what the debouncer lets go and what it holds
afterwards are the pushed item and what it held before, unless the pushed item replaces
one under its own key. The debouncer of a registry keeps each update under the file of the
update, and keeps none when there is no delay.
-/

namespace AsmServer

namespace Debouncer

variable {κ α : Type} {d : Debouncer κ α} {key : κ} {item : α}

/-- The held item, if there is one. -/
def items (d : Debouncer κ α) : List α := (d.held?.map (·.2)).toList

@[simp] theorem takePending_delay : d.takePending.1.delay = d.delay := rfl

@[simp] theorem takePending_held? : d.takePending.1.held? = none := rfl

@[simp] theorem takeDue_delay (generation : Nat) : (d.takeDue generation).1.delay = d.delay := by
  unfold takeDue
  split <;> rfl

/-- An item that is taken is the held one, and nothing is held after it. -/
theorem takeDue_some {generation : Nat} (h : (d.takeDue generation).2 = some item) :
    d.takeDue generation = d.takePending := by
  unfold takeDue at h ⊢
  split at h <;> simp_all

section push

variable [DecidableEq κ]

@[simp] theorem push_delay : (d.push key item).1.delay = d.delay := by
  unfold push
  split <;> rfl

theorem push_of_delay_zero (key : κ) (item : α) (h : d.delay = 0) :
    (d.push key item).1.held? = none ∧ (d.push key item).2 = d.displaced key ++ [item] := by
  simp [push, h]

theorem push_of_delay_pos (key : κ) (item : α) (h : d.delay ≠ 0) :
    (d.push key item).1.held? = some (key, item) ∧ (d.push key item).2 = d.displaced key := by
  simp [push, h]

theorem displaced_of_held?_none (h : d.held? = none) : d.displaced key = [] := by
  simp [displaced, h]

/-- A push under a key that holds nothing keeps every item. -/
theorem push_perm (other : d.displaced key = d.items) :
    ((d.push key item).2 ++ (d.push key item).1.items).Perm (item :: d.items) := by
  by_cases h : d.delay = 0
  · obtain ⟨held, ready⟩ := push_of_delay_zero key item h
    have none : (d.push key item).1.items = [] := by simp [items, held]
    rw [ready, other, none, List.append_nil]
    exact List.perm_append_singleton item d.items
  · obtain ⟨held, ready⟩ := push_of_delay_pos key item h
    have one : (d.push key item).1.items = [item] := by simp [items, held]
    rw [ready, other, one]
    exact List.perm_append_singleton item d.items

/-- The pushed item becomes ready or is held. -/
theorem mem_push_self : item ∈ (d.push key item).2 ++ (d.push key item).1.items := by
  by_cases zero : d.delay = 0
  · simp [(push_of_delay_zero key item zero).2]
  · simp [items, (push_of_delay_pos key item zero).1]

theorem mem_items_of_displaced {a : α} (h : a ∈ d.displaced key) : a ∈ d.items := by
  unfold displaced at h
  split at h
  · next held =>
    split at h
    · simp at h
    · simpa [items, held] using h
  · simp at h

/-- What becomes ready or is held after a push is the pushed item or was displaced. -/
theorem mem_of_push {a : α} (h : a ∈ (d.push key item).2 ++ (d.push key item).1.items) :
    a = item ∨ a ∈ d.displaced key := by
  by_cases zero : d.delay = 0
  · obtain ⟨held, ready⟩ := push_of_delay_zero key item zero
    simpa [ready, items, held, or_comm] using h
  · obtain ⟨held, ready⟩ := push_of_delay_pos key item zero
    simpa [ready, items, held, or_comm] using h

end push

/-- Each update is held under the file of the update, and only if there is a delay. -/
def Regular (d : Debouncer Uri Update) : Prop :=
  ∀ key update, d.held? = some (key, update) → key = update.uri ∧ d.delay ≠ 0

section Regular

variable {d d' : Debouncer Uri Update} {update : Update}

theorem regular_of_held?_none (h : d.held? = none) : d.Regular := by simp [Regular, h]

theorem regular_push : (d.push update.uri update).1.Regular := by
  by_cases zero : d.delay = 0
  · exact regular_of_held?_none (push_of_delay_zero _ _ zero).1
  · intro key held h
    rw [(push_of_delay_pos _ _ zero).1] at h
    cases h
    exact ⟨rfl, by simpa using zero⟩

theorem Regular.takeDue (h : d.Regular) (generation : Nat) : (d.takeDue generation).1.Regular := by
  unfold Debouncer.takeDue
  split
  · exact regular_of_held?_none rfl
  · exact h

/-- Without a delay nothing is held. -/
theorem Regular.held?_none (h : d.Regular) (zero : d.delay = 0) : d.held? = none := by
  cases held : d.held? with
  | none => rfl
  | some pair => exact absurd zero (h pair.1 pair.2 held).2

/-- An update of another file lets every held update go. -/
theorem Regular.displaced_eq_items (h : d.Regular) {u : Uri} (other : ∀ up ∈ d.items, up.uri ≠ u) :
    d.displaced u = d.items := by
  unfold displaced items
  cases held : d.held? with
  | none => rfl
  | some pair =>
    obtain ⟨key, up⟩ := pair
    have same := (h key up held).1
    have ne := other up (by simp [items, held])
    simp [same, ne]

/-- An update of another file outlasts a push. -/
theorem Regular.mem_push (h : d.Regular) {u : Uri} {up : Update} (held : up ∈ d.items)
    (other : up.uri ≠ u) : up ∈ (d.push u update).2 ++ (d.push u update).1.items := by
  have alone : ∀ other ∈ d.items, other = up := by
    cases single : d.held? with
    | none => simp [items, single]
    | some pair => simp_all [items]
  have displaced := h.displaced_eq_items (u := u) fun up' member => by
    rwa [alone up' member]
  exact (push_perm displaced).mem_iff.mpr (List.mem_cons_of_mem _ held)

/-- An update that another one displaces belongs to another file. -/
theorem Regular.uri_ne_of_mem_displaced (h : d.Regular) {u : Uri}
    (member : update ∈ d.displaced u) :
    update.uri ≠ u := by
  unfold displaced at member
  split at member
  · next key held same =>
    split at member
    · simp at member
    · next other =>
      rw [List.mem_singleton.mp member, ← (h key held same).1]
      exact other
  · simp at member

/-- At most one update becomes ready. -/
theorem Regular.push_ready_tail (h : d.Regular) {u : Uri} : (d.push u update).2.tail = [] := by
  by_cases zero : d.delay = 0
  · simp [(push_of_delay_zero u update zero).2,
      displaced_of_held?_none (h.held?_none zero)]
  · rw [(push_of_delay_pos u update zero).2]
    unfold displaced
    split
    · split <;> rfl
    · rfl

end Regular

end Debouncer

end AsmServer
