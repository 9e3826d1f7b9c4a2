import AsmServer.Proofs.Registry.Operations

/-!
# Generations

The generation of a debouncer never falls, and every push starts a new one. So an update that
is held back was held back before in the same generation, or its generation is higher than any
before. A timer set for a generation therefore concerns one update at most, and once it fired
nothing is held back in that generation again.
-/

namespace AsmServer

namespace Debouncer

variable {κ α : Type} {d d' d'' : Debouncer κ α} {key : κ} {item : α} {g : Nat}

/-- What becomes of a debouncer: its generation does not fall, and what is held was held before
in the same generation or has a new one. -/
structure Later (d d' : Debouncer κ α) : Prop where
  generation : d.generation ≤ d'.generation
  pending? : ∀ g, d'.pending? = some g → d.pending? = some g ∨ d.generation < g

theorem pending?_of_held?_none (idle : d.held? = none) : d.pending? = none := by
  simp [Debouncer.pending?, idle]

theorem generation_of_pending? (h : d.pending? = some g) : d.generation = g := by
  obtain ⟨_, -, same⟩ := Option.map_eq_some_iff.mp h
  exact same

theorem Later.refl (d : Debouncer κ α) : d.Later d := ⟨Nat.le_refl _, fun _ => .inl⟩

theorem Later.trans (first : d.Later d') (second : d'.Later d'') : d.Later d'' where
  generation := Nat.le_trans first.generation second.generation
  pending? g held := (second.pending? g held).elim (first.pending? g)
    fun new => .inr (Nat.lt_of_le_of_lt first.generation new)

/-- Nothing held is always later. -/
theorem later_of_held?_none (generation : d.generation ≤ d'.generation) (idle : d'.held? = none) :
    d.Later d' :=
  ⟨generation, fun g held => by simp [pending?_of_held?_none idle] at held⟩

theorem later_push [DecidableEq κ] : d.Later (d.push key item).1 := by
  have next : (d.push key item).1.generation = d.generation + 1 := by
    unfold push
    split <;> rfl
  refine ⟨by omega, fun g held => .inr ?_⟩
  have := generation_of_pending? held
  omega

theorem later_takePending : d.Later d.takePending.1 := later_of_held?_none (Nat.le_refl _) rfl

theorem later_takeDue (g : Nat) : d.Later (d.takeDue g).1 := by
  unfold takeDue
  split
  · exact later_takePending
  · exact .refl d

theorem later_clear : d.Later d.clear := later_of_held?_none (Nat.le_succ _) rfl

/-- Nothing is held in the generation that was due. -/
theorem takeDue_pending? (g : Nat) : (d.takeDue g).1.pending? ≠ some g := by
  unfold takeDue
  split
  · simp [pending?_of_held?_none (takePending_held? (d := d))]
  · next other => exact fun held => other (generation_of_pending? held).symm

/-- What is not held in the current generation is not held in it later. -/
theorem Later.pending?_ne (h : d.Later d') (idle : d.held? = none) :
    d'.pending? ≠ some d.generation := by
  intro held
  rcases h.pending? _ held with before | new
  · simp [pending?_of_held?_none idle] at before
  · exact absurd new (Nat.lt_irrefl _)

end Debouncer

namespace Registry

variable {sources : Sources} {r r' : Registry} {update : Update} {document : Document} {uri : Uri}

/-- What becomes of the debouncer of a registry. -/
abbrev Later (r r' : Registry) : Prop := r.debouncer.Later r'.debouncer

theorem Handling.later_step (s : Handling) : s.registry.Later (s.step sources).registry := by
  obtain ⟨r, _ | ⟨task, rest⟩⟩ := s
  · exact .refl _
  cases task with
  | handle update =>
    by_cases tracked : update.uri ∈ r.uris
    · rw [step_handle tracked]
      exact .refl _
    · rw [step_handle_of_not_mem tracked]
      exact .refl _
  | discover uri =>
    by_cases tracked : uri ∈ r.uris
    · rw [step_discover_of_mem tracked]
      exact .refl _
    · rw [step_discover tracked]
      simp only [Later, push_debouncer, add_debouncer]
      exact Debouncer.later_push
  | finish uri => exact .refl _

/-- Handling an update may hold further ones back, in new generations. -/
theorem process_later (h : r.process sources update = some r') : r.Later r' :=
  process_preserves (P := fun s => r.Later s.registry)
    (fun s later => later.trans (Handling.later_step s)) h (.refl _)

theorem queue_later (h : r.queue sources update = some r') : r.Later r' := by
  rw [queue.eq_def] at h
  refine foldlM_preserves (P := r.Later) (fun _ _ _ done later => later.trans (process_later done))
    h ?_
  simp only [Later, push_debouncer]
  exact Debouncer.later_push

theorem updateFromEditor_later (h : r.updateFromEditor sources document = some r') :
    r.Later r' := by
  unfold updateFromEditor at h
  split at h
  · cases h
    exact .refl _
  · split at h
    · cases h
      exact .refl _
    · exact queue_later h

theorem updateFromDisk_later (h : r.updateFromDisk sources uri = some r') : r.Later r' := by
  unfold updateFromDisk at h
  split at h
  · exact queue_later h
  · cases h
    exact .refl _

theorem flush_later {taken : Debouncer Uri Update × Option Update} {flushed : Bool}
    (later : r.debouncer.Later taken.1) (h : r.flush sources taken = some (r', flushed)) :
    r.Later r' := by
  unfold flush at h
  split at h
  · cases h
    exact later
  · obtain ⟨after, done, same⟩ := Option.map_eq_some_iff.mp h
    cases same
    exact later.trans (process_later done)

theorem settleDocument_later (h : r.settleDocument sources document = some r') : r.Later r' := by
  unfold settleDocument at h
  split at h
  · obtain ⟨edited, editing, rest⟩ := Option.bind_eq_some_iff.mp h
    obtain ⟨⟨flushed, _⟩, flushing, done⟩ := Option.bind_eq_some_iff.mp rest
    cases done
    exact (updateFromEditor_later editing).trans (flush_later Debouncer.later_takePending flushing)
  · cases h
    exact .refl _

/-- Every operation makes the debouncer later. -/
theorem Operation.later {operation : Operation} (h : operation.apply sources r = some r') :
    r.Later r' := by
  cases operation with
  | edit document => exact updateFromEditor_later h
  | reload uri => exact updateFromDisk_later h
  | save document =>
    obtain ⟨settled, settling, done⟩ := Option.bind_eq_some_iff.mp h
    cases done
    have later : r.Later settled := settleDocument_later settling
    exact later
  | close document =>
    obtain ⟨settled, settling, done⟩ := Option.bind_eq_some_iff.mp h
    cases done
    have later : r.Later settled := settleDocument_later settling
    exact later
  | due generation =>
    obtain ⟨⟨after, flushed⟩, done, rfl⟩ := Option.map_eq_some_iff.mp h
    exact flush_later (Debouncer.later_takeDue generation) done
  | flush =>
    obtain ⟨⟨after, flushed⟩, done, rfl⟩ := Option.map_eq_some_iff.mp h
    exact flush_later Debouncer.later_takePending done
  | dispose =>
    cases h
    exact Debouncer.later_clear

/-- After the timer of a generation nothing is held back in it. -/
theorem flushDue_pending? {generation : Nat} {flushed : Bool}
    (h : r.flushDue sources generation = some (r', flushed)) : r'.pending? ≠ some generation := by
  unfold flushDue flush at h
  split at h
  · cases h
    exact Debouncer.takeDue_pending? generation
  · next update taken =>
    obtain ⟨after, done, same⟩ := Option.map_eq_some_iff.mp h
    cases same
    have now : generation = r.debouncer.generation := by
      by_contra other
      simp [Debouncer.takeDue, other] at taken
    rw [Debouncer.takeDue_some taken] at done
    rw [now]
    exact (process_later done).pending?_ne Debouncer.takePending_held?

/-- A timer whose generation is not pending leaves everything as it is. -/
theorem flushDue_of_pending?_ne {generation : Nat} (stale : r.pending? ≠ some generation) :
    r.flushDue sources generation = some (r, false) := by
  have taken : r.debouncer.takeDue generation = (r.debouncer, none) := by
    unfold Debouncer.takeDue
    split
    · next now =>
      have none : r.debouncer.held? = none := by
        cases held : r.debouncer.held? with
        | none => rfl
        | some pair => exact absurd (by simp [pending?, Debouncer.pending?, held, now]) stale
      obtain ⟨files, entry?, ⟨delay, held?, _⟩, events⟩ := r
      cases none
      rfl
    · rfl
  rw [flushDue, taken]
  rfl

/-- The timer of the update held back has it handled. -/
theorem flushDue_of_held {key : Uri} (held : r.debouncer.held? = some (key, update)) :
    r.flushDue sources r.debouncer.generation =
      (r.released.process sources update).map fun r => (r, true) := by
  rw [← flushPending_of_held held, flushDue, Debouncer.takeDue, if_pos rfl, flushPending]

end Registry

end AsmServer
