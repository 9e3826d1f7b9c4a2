import AsmServer.Proofs.Registry.Generations
import Mathlib.Data.List.Perm.Basic

/-!
# What becomes of pushed items

Whatever is asked of a debouncer, every item that was pushed is returned once, is held at
the end, or was discarded: by a later push under its own key, or by a clearing. Items are
returned in the order in which they were pushed. Two pushes may push equal items, so each
push is told apart by its place among the operations.

A timer takes the item that was held when it was set, unless something was pushed, cleared
or taken since then; in that case it takes nothing and changes nothing.
-/

namespace AsmServer

namespace Debouncer

/-! ## Runs -/

/-- What can be asked of a debouncer. -/
inductive Operation (κ α : Type) where
  | push (key : κ) (item : α)
  /-- A timer fires. -/
  | takeDue (generation : Nat)
  | takePending
  | clear

variable {κ α β : Type}

namespace Operation

/-- The item that is pushed, if any is. -/
def item? : Operation κ α → Option α
  | push _ item => some item
  | _ => none

/-- The same operation on other items. -/
def map (f : α → β) : Operation κ α → Operation κ β
  | push key item => push key (f item)
  | takeDue generation => takeDue generation
  | takePending => takePending
  | clear => clear

variable [DecidableEq κ]

/-- The debouncer after an operation, and the items that the operation returns. -/
def apply (operation : Operation κ α) (d : Debouncer κ α) : Debouncer κ α × List α :=
  match operation with
  | push key item => d.push key item
  | takeDue generation => (d.takeDue generation).map id Option.toList
  | takePending => d.takePending.map id Option.toList
  | clear => (d.clear, [])

@[simp] theorem apply_push (key : κ) (item : α) (d : Debouncer κ α) :
    (push key item).apply d = d.push key item := rfl

@[simp] theorem apply_takePending (d : Debouncer κ α) :
    takePending.apply d = (d.takePending.1, d.takePending.2.toList) := rfl

@[simp] theorem apply_clear (d : Debouncer κ α) : clear.apply d = (d.clear, []) := rfl

theorem apply_takeDue_of_eq {generation : Nat} {d : Debouncer κ α} (h : generation = d.generation) :
    (takeDue generation).apply d = takePending.apply d := by
  simp [apply, Debouncer.takeDue, h]

theorem apply_takeDue_of_ne {generation : Nat} {d : Debouncer κ α} (h : generation ≠ d.generation) :
    (takeDue generation).apply d = (d, []) := by
  simp [apply, Debouncer.takeDue, h]

/-- The held item that an operation discards, if there is one. -/
def discarded (operation : Operation κ α) (d : Debouncer κ α) : List α :=
  match operation, d.held? with
  | push key _, some (heldKey, item) => if heldKey = key then [item] else []
  | clear, some (_, item) => [item]
  | _, _ => []

/-- The operation pushes, clears or takes an item. -/
def Intervenes (operation : Operation κ α) (d : Debouncer κ α) : Prop :=
  match operation with
  | push _ _ => True
  | takeDue generation => (d.takeDue generation).2.isSome
  | takePending => d.takePending.2.isSome
  | clear => True

end Operation

/-- The items that are pushed, in order. -/
def pushed (operations : List (Operation κ α)) : List α := operations.filterMap Operation.item?

/-- The operations, each pushed item with the place of its push among them. -/
def placed (operations : List (Operation κ α)) : List (Operation κ (Nat × α)) :=
  operations.mapIdx fun place operation => operation.map (place, ·)

theorem pushed_cons (operation : Operation κ α) (rest : List (Operation κ α)) :
    pushed (operation :: rest) = operation.item?.toList ++ pushed rest := by
  cases given : operation.item? <;> simp [pushed, given]

section places

variable {operations : List (Operation κ α)}

theorem placed_getElem? (place : Nat) : (placed operations)[place]? =
    operations[place]?.map fun operation => operation.map (place, ·) := by
  simp [placed]

theorem take_placed (count : Nat) :
    (placed operations).take count = placed (operations.take count) := by
  refine List.ext_getElem? fun place => ?_
  simp only [List.getElem?_take, placed_getElem?]
  split <;> rfl

/-- Without the places the operations are what they were. -/
theorem map_placed : (placed operations).map (Operation.map Prod.snd) = operations := by
  refine List.ext_getElem? fun place => ?_
  rw [List.getElem?_map, placed_getElem?]
  cases operations[place]? with
  | none => rfl
  | some operation => cases operation <;> rfl

theorem push_mem_placed {key : κ} {place : Nat} {item : α} :
    .push key (place, item) ∈ placed operations ↔ operations[place]? = some (.push key item) := by
  rw [List.mem_iff_getElem?]
  constructor
  · rintro ⟨other, given⟩
    rw [placed_getElem?, Option.map_eq_some_iff] at given
    obtain ⟨operation, here, same⟩ := given
    cases operation <;> cases same
    exact here
  · intro given
    exact ⟨place, by rw [placed_getElem?, given]; rfl⟩

theorem mem_pushed_placed {place : Nat} {item : α} : (place, item) ∈ pushed (placed operations) ↔
    ∃ key, operations[place]? = some (.push key item) := by
  simp only [← push_mem_placed, pushed, List.mem_filterMap]
  constructor
  · rintro ⟨operation, member, given⟩
    cases operation <;> cases given
    exact ⟨_, member⟩
  · rintro ⟨key, member⟩
    exact ⟨_, member, rfl⟩

/-- The places of the pushes increase. -/
theorem pairwise_pushed_placed : (pushed (placed operations)).Pairwise fun a b => a.1 < b.1 := by
  rw [pushed, List.pairwise_filterMap, List.pairwise_iff_getElem]
  intro i j small large before a first b second
  have place {k : Nat} (inside : k < (placed operations).length) {x : Nat × α}
      (given : (placed operations)[k].item? = some x) : x.1 = k := by
    simp only [placed, List.getElem_mapIdx] at given
    have known : k < operations.length := by simpa [placed] using inside
    generalize operations[k] = operation at given
    cases operation <;> cases given
    rfl
  rw [place small first, place large second]
  exact before

end places

/-- The debouncer before anything was asked of it. -/
def fresh (delay : Nat) : Debouncer κ α := { delay }

section run

variable [DecidableEq κ]

/-- The debouncer after a sequence of operations, and all items that they return. -/
def run (d : Debouncer κ α) : List (Operation κ α) → Debouncer κ α × List α
  | [] => (d, [])
  | operation :: rest =>
    let (next, items) := operation.apply d
    let (last, later) := next.run rest
    (last, items ++ later)

/-- The debouncer after a sequence of operations. -/
def after (d : Debouncer κ α) (operations : List (Operation κ α)) : Debouncer κ α :=
  (d.run operations).1

/-- The items that a sequence of operations returns. -/
def returned (d : Debouncer κ α) (operations : List (Operation κ α)) : List α :=
  (d.run operations).2

/-- The items that a sequence of operations discards. -/
def discards (d : Debouncer κ α) : List (Operation κ α) → List α
  | [] => []
  | operation :: rest => operation.discarded d ++ (operation.apply d).1.discards rest

variable {d : Debouncer κ α} {operation : Operation κ α} {operations rest : List (Operation κ α)}

@[simp] theorem after_nil : d.after [] = d := rfl

@[simp] theorem after_cons : d.after (operation :: rest) = (operation.apply d).1.after rest := rfl

@[simp] theorem returned_nil : d.returned [] = [] := rfl

@[simp] theorem returned_cons : d.returned (operation :: rest) =
    (operation.apply d).2 ++ (operation.apply d).1.returned rest := rfl

theorem after_append : d.after (operations ++ rest) = (d.after operations).after rest := by
  induction operations generalizing d with
  | nil => rfl
  | cons first later ih => exact ih

/-! ## Conservation -/

/-- A push displaces the held item or discards it. -/
theorem displaced_append_discarded (key : κ) (item : α) :
    d.displaced key ++ (Operation.push key item).discarded d = d.items := by
  unfold Operation.discarded displaced items
  cases d.held? with
  | none => rfl
  | some pair => by_cases same : pair.1 = key <;> simp [same]

namespace Operation

/-- Items are returned and held in the order in which they were held and pushed. -/
theorem sublist (operation : Operation κ α) (d : Debouncer κ α) :
    ((operation.apply d).2 ++ (operation.apply d).1.items).Sublist
      (d.items ++ operation.item?.toList) := by
  cases operation with
  | push key item =>
    have kept : (d.displaced key).Sublist d.items := by
      rw [← displaced_append_discarded key item]
      exact List.sublist_append_left _ _
    by_cases zero : d.delay = 0
    · obtain ⟨held, ready⟩ := push_of_delay_zero key item zero
      simpa [item?, items, held, ready] using kept
    · obtain ⟨held, ready⟩ := push_of_delay_pos key item zero
      simpa [item?, items, held, ready] using kept
  | takeDue generation =>
    by_cases current : generation = d.generation
    · simp [apply_takeDue_of_eq current, Debouncer.takePending, items, item?]
    · simp [apply_takeDue_of_ne current, item?]
  | takePending => simp [Debouncer.takePending, items, item?]
  | clear => simp [Debouncer.clear, items]

/-- Each item that was held or is pushed is returned, held or discarded. -/
theorem perm (operation : Operation κ α) (d : Debouncer κ α) :
    ((operation.apply d).2 ++ (operation.apply d).1.items ++ operation.discarded d).Perm
      (d.items ++ operation.item?.toList) := by
  cases operation with
  | push key item =>
    have moved : (d.displaced key ++ [item] ++ (push key item).discarded d).Perm
        (d.items ++ [item]) := by
      rw [← displaced_append_discarded key item, List.append_assoc, List.append_assoc]
      exact List.perm_append_comm.append_left _
    by_cases zero : d.delay = 0
    · obtain ⟨held, ready⟩ := push_of_delay_zero key item zero
      simpa [item?, items, held, ready] using moved
    · obtain ⟨held, ready⟩ := push_of_delay_pos key item zero
      simpa [item?, items, held, ready] using moved
  | takeDue generation =>
    by_cases current : generation = d.generation
    · simp [apply_takeDue_of_eq current, Debouncer.takePending, items, item?, discarded]
    · simp [apply_takeDue_of_ne current, item?, discarded]
  | takePending => simp [Debouncer.takePending, items, item?, discarded]
  | clear => cases held : d.held? <;> simp [Debouncer.clear, items, item?, discarded, held]

end Operation

theorem run_sublist (d : Debouncer κ α) (operations : List (Operation κ α)) :
    (d.returned operations ++ (d.after operations).items).Sublist
      (d.items ++ pushed operations) := by
  induction operations generalizing d with
  | nil => simp [pushed]
  | cons operation rest ih =>
    have here := (operation.sublist d).append_right (pushed rest)
    have later := (ih (operation.apply d).1).append_left (operation.apply d).2
    rw [pushed_cons]
    simpa using later.trans (by simpa using here)

open scoped List in
/-- Nothing that is held or pushed gets lost, and nothing is doubled. -/
theorem run_perm (d : Debouncer κ α) (operations : List (Operation κ α)) :
    (d.returned operations ++ (d.after operations).items ++ d.discards operations).Perm
      (d.items ++ pushed operations) := by
  induction operations generalizing d with
  | nil => simp [pushed, discards]
  | cons operation rest ih =>
    obtain ⟨next, items, step⟩ : ∃ next items, operation.apply d = (next, items) := ⟨_, _, rfl⟩
    have here : (items ++ next.items ++ operation.discarded d).Perm
        (d.items ++ operation.item?.toList) := by
      simpa [step] using operation.perm d
    simp only [returned_cons, after_cons, discards, step, pushed_cons]
    calc items ++ next.returned rest ++ (next.after rest).items ++
          (operation.discarded d ++ next.discards rest)
      _ ~ items ++ (next.returned rest ++ (next.after rest).items ++ next.discards rest) ++
          operation.discarded d := by
        simp only [List.append_assoc]
        exact ((List.perm_append_comm.append_left _).append_left _).append_left _
      _ ~ items ++ (next.items ++ pushed rest) ++ operation.discarded d :=
        ((ih next).append_left _).append_right _
      _ ~ items ++ next.items ++ operation.discarded d ++ pushed rest := by
        simp only [List.append_assoc]
        exact (List.perm_append_comm.append_left _).append_left _
      _ ~ d.items ++ (operation.item?.toList ++ pushed rest) := by
        rw [← List.append_assoc]
        exact here.append_right _

theorem mem_discarded {x : α} : x ∈ operation.discarded d ↔
    ∃ key, d.held? = some (key, x) ∧
      (operation = .clear ∨ ∃ newer, operation = .push key newer) := by
  unfold Operation.discarded
  split
  · next key newer heldKey item held =>
    by_cases same : heldKey = key
    · simp [same, held, eq_comm]
    · simp [same, held]
  · next heldKey item held => simp [held, eq_comm]
  · next other lone =>
    simp only [List.not_mem_nil, false_iff]
    rintro ⟨key, held, rfl | ⟨newer, rfl⟩⟩
    · exact lone key x rfl held
    · exact other key newer key x rfl held

/-- What is discarded was held when it was discarded. -/
theorem mem_discards {x : α} : x ∈ d.discards operations ↔
    ∃ (place : Nat) (operation : Operation κ α), operations[place]? = some operation ∧
      x ∈ operation.discarded (d.after (operations.take place)) := by
  induction operations generalizing d with
  | nil => simp [discards]
  | cons first rest ih =>
    rw [discards, List.mem_append, ih]
    constructor
    · rintro (now | ⟨place, operation, given, later⟩)
      · exact ⟨0, first, rfl, now⟩
      · exact ⟨place + 1, operation, given, later⟩
    · rintro ⟨_ | place, operation, given, lost⟩
      · cases given
        exact .inl lost
      · exact .inr ⟨place, operation, given, lost⟩

/-- What is held was held before or was just pushed. -/
theorem Operation.held?_apply {key : κ} {x : α}
    (h : (operation.apply d).1.held? = some (key, x)) :
    d.held? = some (key, x) ∨ operation = .push key x := by
  cases operation with
  | push newKey item =>
    by_cases zero : d.delay = 0
    · rw [apply_push, (push_of_delay_zero newKey item zero).1] at h
      cases h
    · rw [apply_push, (push_of_delay_pos newKey item zero).1] at h
      cases h
      exact .inr rfl
  | takeDue generation =>
    by_cases current : generation = d.generation
    · rw [apply_takeDue_of_eq current] at h
      cases h
    · rw [apply_takeDue_of_ne current] at h
      exact .inl h
  | takePending => cases h
  | clear => cases h

theorem held?_after {key : κ} {x : α} (h : (d.after operations).held? = some (key, x)) :
    d.held? = some (key, x) ∨ .push key x ∈ operations := by
  induction operations generalizing d with
  | nil => exact .inl h
  | cons operation rest ih =>
    rcases ih (d := (operation.apply d).1) h with before | later
    · rcases Operation.held?_apply before with earlier | rfl
      · exact .inl earlier
      · exact .inr List.mem_cons_self
    · exact .inr (List.mem_cons_of_mem _ later)

/-! ## Timers -/

theorem Operation.later_apply (operation : Operation κ α) (d : Debouncer κ α) :
    d.Later (operation.apply d).1 := by
  cases operation with
  | push key item => exact later_push
  | takeDue generation => exact later_takeDue generation
  | takePending => exact later_takePending
  | clear => exact later_clear

theorem later_after (d : Debouncer κ α) (operations : List (Operation κ α)) :
    d.Later (d.after operations) := by
  induction operations generalizing d with
  | nil => exact .refl d
  | cons operation rest ih => exact (operation.later_apply d).trans (ih _)

/-- An operation that does not intervene has no effect. -/
theorem Operation.apply_of_not_intervenes (h : ¬ operation.Intervenes d) :
    operation.apply d = (d, []) := by
  have idle (none : d.held? = none) : takePending.apply d = (d, []) := by
    obtain ⟨delay, held?, generation⟩ := d
    cases none
    rfl
  cases operation with
  | push key item => exact absurd trivial h
  | takeDue generation =>
    by_cases current : generation = d.generation
    · rw [apply_takeDue_of_eq current]
      exact idle (by simpa [Intervenes, Debouncer.takeDue, Debouncer.takePending, current] using h)
    · exact apply_takeDue_of_ne current
  | takePending => exact idle (by simpa [Intervenes, Debouncer.takePending] using h)
  | clear => exact absurd trivial h

/-- After an operation that intervenes nothing is held in the old generation. -/
theorem Operation.pending?_of_intervenes {g : Nat} (held : d.pending? = some g)
    (h : operation.Intervenes d) : (operation.apply d).1.pending? ≠ some g := by
  have taken : d.takePending.1.pending? ≠ some g := by
    simp [pending?_of_held?_none takePending_held?]
  cases operation with
  | push key item =>
    have raised : (d.push key item).1.generation = d.generation + 1 := by
      unfold Debouncer.push
      split <;> rfl
    intro again
    have current := generation_of_pending? held
    have next := generation_of_pending? again
    rw [apply_push, raised] at next
    omega
  | takeDue generation =>
    have due : generation = d.generation := by
      by_contra other
      simp [Intervenes, Debouncer.takeDue, other] at h
    rw [apply_takeDue_of_eq due]
    exact taken
  | takePending => exact taken
  | clear => simp [pending?_of_held?_none, Debouncer.clear]

/-- Nothing happens to what is held. -/
def Undisturbed (d : Debouncer κ α) (operations : List (Operation κ α)) : Prop :=
  ∀ (place : Nat) (operation : Operation κ α), operations[place]? = some operation →
    ¬ operation.Intervenes (d.after (operations.take place))

theorem undisturbed_cons : d.Undisturbed (operation :: rest) ↔
    ¬ operation.Intervenes d ∧ (operation.apply d).1.Undisturbed rest := by
  constructor
  · intro h
    exact ⟨h 0 operation rfl, fun place later given => h (place + 1) later given⟩
  · rintro ⟨now, calm⟩ (_ | place) later given
    · cases given
      exact now
    · exact calm place later given

theorem after_of_undisturbed (h : d.Undisturbed operations) : d.after operations = d := by
  induction operations with
  | nil => rfl
  | cons operation rest ih =>
    obtain ⟨now, later⟩ := undisturbed_cons.mp h
    rw [after_cons, Operation.apply_of_not_intervenes now] at *
    exact ih later

theorem pending?_of_disturbed {g : Nat} (held : d.pending? = some g)
    (h : ¬ d.Undisturbed operations) : (d.after operations).pending? ≠ some g := by
  induction operations with
  | nil => exact absurd (fun _ _ given => by simp at given) h
  | cons operation rest ih =>
    by_cases intervenes : operation.Intervenes d
    · have gone := Operation.pending?_of_intervenes held intervenes
      intro again
      rcases (later_after (operation.apply d).1 rest).pending? g again with before | new
      · exact gone before
      · have raised := (operation.later_apply d).generation
        have current := generation_of_pending? held
        omega
    · rw [undisturbed_cons, Operation.apply_of_not_intervenes intervenes] at h
      rw [after_cons, Operation.apply_of_not_intervenes intervenes]
      exact ih fun calm => h ⟨intervenes, calm⟩

omit [DecidableEq κ] in
/-- A timer whose generation is over takes nothing. -/
theorem takeDue_of_pending?_ne {g : Nat} (h : d.pending? ≠ some g) : d.takeDue g = (d, none) := by
  unfold takeDue
  split
  · next current =>
    obtain ⟨delay, _ | held, generation⟩ := d
    · rfl
    · exact absurd (congrArg some current.symm) h
  · rfl

/-! ## Items of another type -/

/-- The same debouncer with another item. -/
def map (f : α → β) (d : Debouncer κ α) : Debouncer κ β :=
  ⟨d.delay, d.held?.map (Prod.map id f), d.generation⟩

theorem displaced_map (f : α → β) (d : Debouncer κ α) (key : κ) :
    (d.map f).displaced key = (d.displaced key).map f := by
  unfold displaced map
  cases d.held? with
  | none => rfl
  | some pair => by_cases same : pair.1 = key <;> simp [same]

theorem push_map (f : α → β) (d : Debouncer κ α) (key : κ) (item : α) :
    (d.map f).push key (f item) = ((d.push key item).1.map f, (d.push key item).2.map f) := by
  have delay : (d.map f).delay = d.delay := rfl
  unfold push
  rw [displaced_map, delay]
  by_cases zero : d.delay = 0 <;> simp [zero, map]

/-- What an operation does does not depend on the items. -/
theorem Operation.apply_map (f : α → β) (operation : Operation κ α) (d : Debouncer κ α) :
    (operation.map f).apply (d.map f) =
      ((operation.apply d).1.map f, (operation.apply d).2.map f) := by
  have taking : takePending.apply (d.map f) =
      ((takePending.apply d).1.map f, (takePending.apply d).2.map f) := by
    obtain ⟨delay, _ | pair, generation⟩ := d <;> rfl
  cases operation with
  | push key item => exact push_map f d key item
  | takeDue generation =>
    have current : (d.map f).generation = d.generation := rfl
    by_cases due : generation = d.generation
    · rw [apply_takeDue_of_eq due, map, apply_takeDue_of_eq (due.trans current.symm)]
      exact taking
    · rw [apply_takeDue_of_ne due, map, apply_takeDue_of_ne (current ▸ due)]
      rfl
  | takePending => exact taking
  | clear => rfl

theorem returned_map (f : α → β) (d : Debouncer κ α) (operations : List (Operation κ α)) :
    (d.map f).returned (operations.map (Operation.map f)) = (d.returned operations).map f := by
  induction operations generalizing d with
  | nil => rfl
  | cons operation rest ih => simp [Operation.apply_map, ih]

/-- The push at a place is held after the operations. -/
def Holds (delay : Nat) (operations : List (Operation κ α)) (place : Nat) (key : κ) (item : α) :
    Prop :=
  ((fresh delay).after (placed operations)).held? = some (key, place, item)

section fate

variable {delay place : Nat} {key : κ} {item : α}

/-- What is held is held under the key of its push. -/
theorem Holds.pushed (h : Holds delay operations place key item) :
    operations[place]? = some (.push key item) := by
  rcases held?_after h with before | given
  · cases before
  · exact push_mem_placed.mp given

/-- A push is discarded while it is held, by a clearing or a push under its key. -/
theorem mem_discards_placed (given : operations[place]? = some (.push key item)) :
    (place, item) ∈ (fresh delay).discards (placed operations) ↔
      ∃ later, place < later ∧ Holds delay (operations.take later) place key item ∧
        (operations[later]? = some .clear ∨
          ∃ newer, operations[later]? = some (.push key newer)) := by
  simp only [mem_discards, mem_discarded, placed_getElem?, take_placed]
  constructor
  · rintro ⟨later, _, there, heldKey, held, lost⟩
    obtain ⟨operation, asked, rfl⟩ := Option.map_eq_some_iff.mp there
    have own := Holds.pushed held
    have earlier : place < later := by
      have := (List.getElem?_eq_some_iff.mp own).1
      simp only [List.length_take] at this
      omega
    rw [List.getElem?_take_of_lt earlier, given] at own
    cases own
    refine ⟨later, earlier, held, ?_⟩
    rw [asked]
    cases operation <;> simp_all [Operation.map]
  · rintro ⟨later, -, held, cleared | ⟨newer, replaced⟩⟩
    · exact ⟨later, .clear, by rw [cleared]; rfl, key, held, .inl rfl⟩
    · exact ⟨later, .push key (later, newer), by rw [replaced]; rfl, key, held, .inr ⟨_, rfl⟩⟩

/-- A push that is not returned is held at the end or was discarded, and only such a push. -/
theorem not_mem_returned_placed (given : operations[place]? = some (.push key item)) :
    (place, item) ∉ (fresh delay).returned (placed operations) ↔
      Holds delay operations place key item ∨
        (place, item) ∈ (fresh delay).discards (placed operations) := by
  have all : ((fresh delay).returned (placed operations) ++
      ((fresh delay).after (placed operations)).items ++
      (fresh delay).discards (placed operations)).Perm (pushed (placed operations)) :=
    run_perm (fresh delay) (placed operations)
  have once : (pushed (placed operations)).Nodup :=
    pairwise_pushed_placed.imp fun small same => by simp [same] at small
  have holds : Holds delay operations place key item ↔
      (place, item) ∈ ((fresh delay).after (placed operations)).items := by
    constructor
    · intro held
      simp [items, show _ = some (key, place, item) from held]
    · intro listed
      obtain ⟨⟨heldKey, _⟩, held, rfl⟩ : ∃ pair, ((fresh delay).after (placed operations)).held? =
          some pair ∧ pair.2 = (place, item) := by
        simpa [items] using listed
      have own := Holds.pushed held
      rw [given] at own
      cases own
      exact held
  have somewhere := all.mem_iff.mpr (mem_pushed_placed.mpr ⟨key, given⟩)
  have apart := all.nodup_iff.mpr once
  rw [List.append_assoc, List.mem_append, List.mem_append] at somewhere
  rw [List.append_assoc, List.nodup_append] at apart
  rw [holds]
  constructor
  · exact somewhere.resolve_left
  · intro elsewhere listed
    exact apart.2.2 _ listed _ (List.mem_append.mpr elsewhere) rfl

end fate

/-- A timer that was set when an item was held takes this item if nothing happened since then,
and otherwise takes nothing. -/
theorem takeDue_after {g : Nat} {key : κ} {item : α} (held : d.held? = some (key, item))
    (armed : d.pending? = some g) :
    (((d.after operations).takeDue g).2 = some item ↔ d.Undisturbed operations) ∧
      (¬ d.Undisturbed operations →
        (d.after operations).takeDue g = (d.after operations, none)) := by
  have late (disturbed : ¬ d.Undisturbed operations) :
      (d.after operations).takeDue g = (d.after operations, none) :=
    takeDue_of_pending?_ne (pending?_of_disturbed armed disturbed)
  refine ⟨⟨fun taken => ?_, fun calm => ?_⟩, late⟩
  · by_contra disturbed
    rw [late disturbed] at taken
    cases taken
  · rw [after_of_undisturbed calm, takeDue, if_pos (generation_of_pending? armed).symm]
    simp [takePending, held]

/-- The items that a fresh debouncer returns are items that were pushed, in the order of their
pushes and each push at most once. A push is never returned exactly if it is held at the end,
or if there was a later clearing or a later push under its key while it was held. A timer that
was set when an item was held takes this item exactly if the debouncer was undisturbed since
then, and otherwise takes nothing and changes nothing. -/
theorem pushes_are_accounted_for (delay : Nat) (operations : List (Operation κ α)) :
    ((fresh delay).returned operations).Sublist (pushed operations) ∧
      (fresh delay).returned operations =
        ((fresh delay).returned (placed operations)).map (·.2) ∧
      (∀ place item, (place, item) ∈ (fresh delay).returned (placed operations) →
        ∃ key, operations[place]? = some (.push key item)) ∧
      ((fresh delay).returned (placed operations)).Pairwise (fun a b => a.1 < b.1) ∧
      (∀ place key item, operations[place]? = some (.push key item) →
        ((place, item) ∉ (fresh delay).returned (placed operations) ↔
          Holds delay operations place key item ∨
          ∃ later, place < later ∧ Holds delay (operations.take later) place key item ∧
            (operations[later]? = some .clear ∨
              ∃ newer, operations[later]? = some (.push key newer)))) ∧
      ∀ before between, operations = before ++ between → ∀ key item g,
        ((fresh delay).after before).held? = some (key, item) →
        ((fresh delay).after before).pending? = some g →
          ((((fresh delay).after operations).takeDue g).2 = some item ↔
            ((fresh delay).after before).Undisturbed between) ∧
          (¬ ((fresh delay).after before).Undisturbed between →
            ((fresh delay).after operations).takeDue g =
              ((fresh delay).after operations, none)) := by
  have sublist : ((fresh delay).returned (placed operations)).Sublist
      (pushed (placed operations)) :=
    (List.sublist_append_left _ _).trans (run_sublist (fresh delay) (placed operations))
  refine ⟨(List.sublist_append_left _ _).trans (run_sublist (fresh delay) operations), ?_,
    fun place item listed => mem_pushed_placed.mp (sublist.subset listed),
    pairwise_pushed_placed.sublist sublist, fun place key item given => ?_, ?_⟩
  · rw [← returned_map, map_placed]
    rfl
  · rw [not_mem_returned_placed given, mem_discards_placed given]
  · rintro before between rfl key item g held armed
    rw [after_append]
    exact takeDue_after held armed

end run

/-- A push that is replaced under its key is never returned, and its timer finds nothing. -/
theorem replaced_push_is_lost :
    let operations : List (Operation Char Nat) := [.push 'a' 1, .push 'a' 2, .push 'b' 3]
    (0, 1) ∉ (fresh defaultDelay).returned (placed operations) ∧
      ((fresh defaultDelay).after operations).takeDue 1 =
        ((fresh defaultDelay).after operations, none) := by
  intro operations
  obtain ⟨-, -, -, -, fate, timers⟩ := pushes_are_accounted_for defaultDelay operations
  constructor
  · exact (fate 0 'a' 1 rfl).mpr (.inr ⟨1, by decide, rfl, .inr ⟨2, rfl⟩⟩)
  · exact (timers [.push 'a' 1] [.push 'a' 2, .push 'b' 3] rfl 'a' 1 1 rfl rfl).2
      fun calm => calm 0 _ rfl trivial

end Debouncer

end AsmServer
