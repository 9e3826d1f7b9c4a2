import AsmServer.Assembly.Console
import AsmServer.Assembly.SymbolTable
import Mathlib.Data.List.Forall2
import Mathlib.Data.List.Induction
import Mathlib.Logic.Function.Basic

/-!
# Errors on the lines they name

Errors are attached one by one, and each is looked for among the lines that the earlier ones have
left, those made for them included. All errors together come to one thing: the listing is
continued by an empty line for each place that is missing from it, and then the first line of each
place is handed all the messages for that place. `attachAll_eq` says so.

No message changes the label of a line or what else a definition is read off, and a line made for
an error has no label. So it does not matter whether symbols are located before or after.
-/

namespace AsmServer

theorem Text.join_concat (separator : Text) {parts : List Text} (more : parts ≠ []) (last : Text) :
    join separator (parts ++ [last]) = join separator parts ++ separator ++ last := by
  induction parts with
  | nil => exact absurd rfl more
  | cons part rest ih =>
    cases rest with
    | nil => simp [join]
    | cons next rest =>
      have later := ih (List.cons_ne_nil _ _)
      simp only [join, List.cons_append] at later ⊢
      rw [List.intercalate_cons_cons, List.intercalate_cons_cons, later]
      simp only [List.append_assoc]

/-- The place of a line: its file and its number. -/
def ListingLine.place (line : ListingLine) : Option Text × Nat := (line.file?, line.number)

/-- The line with further messages behind those it has. -/
def ListingLine.withMessages (line : ListingLine) (messages : List Text) : ListingLine :=
  if messages = [] then line
  else { line with error? := some (Text.join "; ".toList (line.error?.toList ++ messages)) }

namespace ListingLine

variable {line : ListingLine} {messages : List Text}

@[simp] theorem withMessages_nil (line : ListingLine) : line.withMessages [] = line := if_pos rfl

theorem withMessages_error? (told : messages ≠ []) : (line.withMessages messages).error? =
    some (Text.join "; ".toList (line.error?.toList ++ messages)) := by
  simp [withMessages, told]

/-- Messages concern nothing else of a line. -/
theorem withMessages_eq (line : ListingLine) (messages : List Text) :
    line.withMessages messages = { line with error? := (line.withMessages messages).error? } := by
  unfold withMessages
  split <;> rfl

@[simp] theorem withMessages_place : (line.withMessages messages).place = line.place := by
  rw [withMessages_eq]
  rfl

/-- The same line, apart from its error. -/
def SameButError (line line' : ListingLine) : Prop := line' = { line with error? := line'.error? }

theorem SameButError.place {line' : ListingLine} (h : line.SameButError line') :
    line'.place = line.place := by
  rw [h]
  rfl

end ListingLine

/-- The place that an error names. -/
def ConsoleError.place (error : ConsoleError) : Option Text × Nat := (error.file?, error.line)

namespace ConsoleError

open ListingLine

variable {error : ConsoleError} {errors : List ConsoleError} {line : ListingLine}
  {listing before after : List ListingLine} {spot : Option Text × Nat}
  {messages : Option Text × Nat → List Text}

/-- The messages for a place, in order. -/
def messagesAt (errors : List ConsoleError) (spot : Option Text × Nat) : List Text :=
  (errors.filter (·.place = spot)).map (·.message)

/-- A listed line of this place without anything on it. -/
def blankLine (spot : Option Text × Nat) : ListingLine := { number := spot.2, file? := spot.1 }

/-- The places that are named and not listed, in the order in which they are named first. -/
def missing (errors : List ConsoleError) (listing : List ListingLine) : List (Option Text × Nat) :=
  ((errors.map place).filter (· ∉ listing.map ListingLine.place)).eraseDups

/-- Hand the messages for each place to the first line of this place. -/
def deliver (messages : Option Text × Nat → List Text) : List ListingLine → List ListingLine
  | [] => []
  | line :: rest =>
    line.withMessages (messages line.place) :: deliver (Function.update messages line.place []) rest

@[simp] theorem blankLine_place (spot : Option Text × Nat) : (blankLine spot).place = spot := rfl

@[simp] theorem deliver_length (messages : Option Text × Nat → List Text)
    (listing : List ListingLine) : (deliver messages listing).length = listing.length := by
  induction listing generalizing messages with
  | nil => rfl
  | cons line rest ih => rw [deliver, List.length_cons, ih, List.length_cons]

theorem names_iff : error.names line = true ↔ line.place = error.place := by
  simp [names, ListingLine.place, ConsoleError.place, and_comm]

theorem messagesAt_eq_nil_iff : messagesAt errors spot = [] ↔ spot ∉ errors.map place := by
  simp [messagesAt]

/-! ## Delivering -/

/-- The lines of earlier places leave nothing for later lines of these places. -/
theorem deliver_append (messages : Option Text × Nat → List Text)
    (before after : List ListingLine) : deliver messages (before ++ after) =
      deliver messages before ++
        deliver (fun p => if p ∈ before.map ListingLine.place then [] else messages p) after := by
  induction before generalizing messages with
  | nil => simp [deliver]
  | cons line rest ih =>
    have left : (fun p => if p ∈ rest.map ListingLine.place then []
        else Function.update messages line.place [] p) =
        fun p => if p ∈ (line :: rest).map ListingLine.place then [] else messages p := by
      funext p
      by_cases here : p = line.place <;> simp [here]
    rw [List.cons_append, deliver, ih, left]
    rfl

/-- Only the messages for listed places matter. -/
theorem deliver_congr {messages' : Option Text × Nat → List Text}
    (same : ∀ p ∈ listing.map ListingLine.place, messages p = messages' p) :
    deliver messages listing = deliver messages' listing := by
  induction listing generalizing messages messages' with
  | nil => rfl
  | cons line rest ih =>
    have later : ∀ p ∈ rest.map ListingLine.place,
        Function.update messages line.place [] p = Function.update messages' line.place [] p := by
      intro p member
      by_cases here : p = line.place
      · simp [here]
      · simpa [here] using same p (List.mem_cons_of_mem _ member)
    rw [deliver, deliver, same line.place List.mem_cons_self, ih later]

theorem deliver_nothing (listing : List ListingLine) : deliver (fun _ => []) listing = listing := by
  induction listing with
  | nil => rfl
  | cons line rest ih => rw [deliver, withMessages_nil, Function.update_eq_self_iff.mpr rfl, ih]

/-- Messages stay on their lines and change nothing else. -/
theorem forall₂_deliver (messages : Option Text × Nat → List Text) (listing : List ListingLine) :
    List.Forall₂ SameButError listing (deliver messages listing) := by
  induction listing generalizing messages with
  | nil => exact .nil
  | cons line rest ih => exact .cons (withMessages_eq _ _) (ih _)

theorem map_place_of_forall₂ {listing' : List ListingLine}
    (same : List.Forall₂ SameButError listing listing') :
    listing'.map ListingLine.place = listing.map ListingLine.place := by
  induction same with
  | nil => rfl
  | cons same _ ih => rw [List.map_cons, List.map_cons, same.place, ih]

/-- What the lines of a relation have on the right. -/
theorem forall_of_forall₂ {α β : Type} {R : α → β → Prop} {Q : β → Prop} {l : List α} {l' : List β}
    (each : ∀ a b, R a b → Q b) (related : List.Forall₂ R l l') : ∀ b ∈ l', Q b := by
  induction related with
  | nil => exact fun _ member => nomatch member
  | cons here _ ih => exact List.forall_mem_cons.mpr ⟨each _ _ here, ih⟩

/-- The first line of a place has all its messages. -/
theorem find?_deliver (messages : Option Text × Nat → List Text) (listing : List ListingLine)
    (spot : Option Text × Nat) : (deliver messages listing).find? (·.place = spot) =
      (listing.find? (·.place = spot)).map (·.withMessages (messages spot)) := by
  induction listing generalizing messages with
  | nil => rfl
  | cons line rest ih =>
    by_cases here : line.place = spot
    · simp [deliver, here]
    · rw [deliver, List.find?_cons_of_neg (by simpa using here), ih,
        List.find?_cons_of_neg (by simpa using here), Function.update_of_ne (Ne.symm here)]

theorem find?_blankLine {spots : List (Option Text × Nat)} (member : spot ∈ spots) :
    (spots.map blankLine).find? (·.place = spot) = some (blankLine spot) := by
  induction spots with
  | nil => cases member
  | cons first rest ih =>
    by_cases here : first = spot
    · simp [here]
    · have later := ih ((List.mem_cons.mp member).resolve_left (Ne.symm here))
      simpa [here] using later

/-- A line that is not the first of its place, or whose place has no messages, stays. -/
theorem getElem?_deliver (split : listing = before ++ line :: after)
    (other : line.place ∈ before.map ListingLine.place ∨ messages line.place = []) :
    (deliver messages listing)[before.length]? = some line := by
  have none : (if line.place ∈ before.map ListingLine.place then [] else messages line.place)
      = ([] : List Text) := by
    rcases other with earlier | none
    · exact if_pos earlier
    · rw [none, ite_self]
  rw [split, deliver_append, List.getElem?_append_right (by simp), deliver]
  simp only [deliver_length, Nat.sub_self, List.getElem?_cons_zero, none, withMessages_nil]

/-! ## Attaching -/

/-- One more message for a line. -/
theorem addTo_withMessages (messages : List Text) : error.addTo (line.withMessages messages) =
    line.withMessages (messages ++ [error.message]) := by
  by_cases none : messages = []
  · subst none
    cases previous : line.error? <;> simp [addTo, withMessages, previous, Text.join]
  · have told : line.error?.toList ++ messages ≠ [] := by simp [none]
    have joined := Text.join_concat "; ".toList told error.message
    rw [List.append_assoc] at joined
    simp only [addTo, withMessages, if_neg none, joined]
    simp

theorem attach_append (absent : error.place ∉ before.map ListingLine.place) :
    error.attach (before ++ after) = before ++ error.attach after := by
  induction before with
  | nil => rfl
  | cons line rest ih =>
    obtain ⟨other, absent⟩ := not_or.mp (List.mem_cons.not.mp absent)
    have unnamed : ¬error.names line = true := fun named => other (names_iff.mp named).symm
    rw [List.cons_append, attach, if_neg unnamed, ih absent, List.cons_append]

/-- An error of a listed place is one more message for this place. -/
theorem attach_deliver (listed : error.place ∈ listing.map ListingLine.place) :
    error.attach (deliver messages listing) =
      deliver (Function.update messages error.place (messages error.place ++ [error.message]))
        listing := by
  induction listing generalizing messages with
  | nil => cases listed
  | cons line rest ih =>
    by_cases here : line.place = error.place
    · have named : error.names (line.withMessages (messages line.place)) = true :=
        names_iff.mpr (by rw [withMessages_place, here])
      rw [deliver, attach, if_pos named, addTo_withMessages, deliver, here,
        Function.update_self, Function.update_idem]
    · have unnamed : ¬error.names (line.withMessages (messages line.place)) = true := by
        rwa [names_iff, withMessages_place]
      have later : error.place ∈ rest.map ListingLine.place :=
        (List.mem_cons.mp listed).resolve_left (Ne.symm here)
      rw [deliver, attach, if_neg unnamed, ih later, deliver, Function.update_of_ne here,
        Function.update_of_ne (Ne.symm here), Function.update_comm here]

/-- An error of another place gets a line behind all others. -/
theorem attach_deliver_of_not_mem (absent : error.place ∉ listing.map ListingLine.place)
    (none : messages error.place = []) : error.attach (deliver messages listing) =
      deliver (Function.update messages error.place (messages error.place ++ [error.message]))
        (listing ++ [blankLine error.place]) := by
  have places := map_place_of_forall₂ (forall₂_deliver messages listing)
  have behind : error.attach (deliver messages listing ++ []) =
      deliver messages listing ++ [error.toLine] := attach_append (places ▸ absent)
  have kept : deliver (Function.update messages error.place
      (messages error.place ++ [error.message])) listing = deliver messages listing :=
    deliver_congr fun p member =>
      Function.update_of_ne (fun same : p = error.place => absent (same ▸ member)) _ _
  rw [List.append_nil] at behind
  rw [behind, deliver_append, kept, deliver, blankLine_place, if_neg absent, none,
    Function.update_self]
  simp [deliver, withMessages, toLine, blankLine, Text.join, ConsoleError.place]

/-! ## All errors -/

theorem messagesAt_append (errors : List ConsoleError) (error : ConsoleError) :
    messagesAt (errors ++ [error]) = Function.update (messagesAt errors) error.place
      (messagesAt errors error.place ++ [error.message]) := by
  funext p
  by_cases here : p = error.place
  · subst here
    simp [messagesAt]
  · simp [messagesAt, here, Ne.symm here]

theorem mem_missing : spot ∈ missing errors listing ↔
    spot ∈ errors.map place ∧ spot ∉ listing.map ListingLine.place := by
  rw [missing, List.mem_eraseDups, List.mem_filter, decide_eq_true_iff]

theorem missing_append (errors : List ConsoleError) (error : ConsoleError)
    (listing : List ListingLine) : missing (errors ++ [error]) listing =
      missing errors listing ++ if error.place ∈ listing.map ListingLine.place ∨
        error.place ∈ errors.map place then [] else [error.place] := by
  rw [missing, missing, List.map_append, List.filter_append, List.eraseDups_append,
    List.map_singleton]
  congr 1
  by_cases listed : error.place ∈ listing.map ListingLine.place
  · rw [List.filter_cons_of_neg (by simpa using listed), if_pos (.inl listed)]
    rfl
  · rw [List.filter_cons_of_pos (by simpa using listed), List.filter_nil, List.removeAll]
    by_cases named : error.place ∈ errors.map place
    · rw [List.filter_cons_of_neg (by simp_all), if_pos (.inr named)]
      rfl
    · rw [List.filter_cons_of_pos (by simp_all), if_neg (by tauto)]
      rfl

/-- All errors are attached as if every place was listed beforehand. -/
theorem attachAll_eq (errors : List ConsoleError) (listing : List ListingLine) :
    attachAll errors listing =
      deliver (messagesAt errors) (listing ++ (missing errors listing).map blankLine) := by
  induction errors using List.reverseRecOn with
  | nil =>
    have silent : messagesAt [] = fun _ => [] := rfl
    rw [silent, deliver_nothing]
    simp [attachAll, missing]
  | append_singleton errors error ih =>
    have step : attachAll (errors ++ [error]) listing
        = error.attach (attachAll errors listing) := by
      simp [attachAll]
    have places : (listing ++ (missing errors listing).map blankLine).map ListingLine.place =
        listing.map ListingLine.place ++ missing errors listing := by
      simp [Function.comp_def]
    rw [step, ih, messagesAt_append, missing_append]
    by_cases known : error.place ∈ listing.map ListingLine.place ∨ error.place ∈ errors.map place
    · have met : error.place ∈ listing.map ListingLine.place ++ missing errors listing := by
        rw [List.mem_append, mem_missing]
        tauto
      rw [if_pos known, List.append_nil]
      exact attach_deliver (places ▸ met)
    · obtain ⟨unlisted, unnamed⟩ := not_or.mp known
      have unmet : error.place ∉ listing.map ListingLine.place ++ missing errors listing := by
        rw [List.mem_append, mem_missing]
        tauto
      rw [if_neg known, List.map_append, ← List.append_assoc]
      exact attach_deliver_of_not_mem (places ▸ unmet) (messagesAt_eq_nil_iff.mpr unnamed)

end ConsoleError

namespace SymbolTable

open ConsoleError ListingLine

/-- Errors are of no concern for definitions. -/
theorem locate_of_forall₂ {listing listing' : List ListingLine}
    (same : List.Forall₂ SameButError listing listing') (symbol : Symbol) :
    locate listing' symbol = locate listing symbol := by
  have found : Option.Rel SameButError
      (listing.find? fun line => Listing.label? line == some symbol.name)
      (listing'.find? fun line => Listing.label? line == some symbol.name) := by
    induction same with
    | nil => exact .none
    | @cons line line' rest rest' same _ ih =>
      have label : Listing.label? line' = Listing.label? line := by
        rw [same]
        rfl
      rw [List.find?_cons, List.find?_cons, label]
      split
      · exact .some same
      · exact ih
  unfold locate
  generalize listing.find? _ = first, listing'.find? _ = first' at found
  cases found with
  | none => rfl
  | some same =>
    rw [same]

/-- Lines without a label define nothing. -/
theorem locate_append_blank (listing : List ListingLine) (spots : List (Option Text × Nat))
    (symbol : Symbol) : locate (listing ++ spots.map blankLine) symbol = locate listing symbol := by
  have none : ((spots.map blankLine).find? fun line => Listing.label? line == some symbol.name)
      = none := by
    rw [List.find?_eq_none]
    intro line member
    obtain ⟨spot, -, rfl⟩ := List.mem_map.mp member
    have unlabelled : Listing.label? (blankLine spot) = none := rfl
    simp [unlabelled]
  unfold locate
  rw [List.find?_append, none, Option.or_none]

end SymbolTable

namespace ConsoleError

open ListingLine

/-- Every listed line stays where it is and changes in nothing but its error. For each place that
is named, the first line of this place carries the message it had and then all messages for the
place in order, and every other line stays as it is. Each place that is named and not listed gets
one line at the end, in the order in which these places are named first, with nothing else on it.
Symbols are located the same before and after. -/
theorem attached_errors_are_conserved (errors : List ConsoleError) (listing : List ListingLine) :
    ∃ kept added, attachAll errors listing = kept ++ added ∧
      List.Forall₂ (fun line line' : ListingLine => line' = { line with error? := line'.error? })
        listing kept ∧
      (∀ before line after, listing = before ++ line :: after →
        line.place ∈ before.map ListingLine.place ∨ line.place ∉ errors.map place →
        kept[before.length]? = some line) ∧
      (∀ error ∈ errors, ∃ line, (kept ++ added).find? error.names = some line ∧
        line.error? = some (Text.join "; ".toList
          (((listing.find? error.names).bind (·.error?)).toList ++
            (errors.filter (·.place = error.place)).map (·.message)))) ∧
      added.map ListingLine.place =
        ((errors.map place).filter (· ∉ listing.map ListingLine.place)).eraseDups ∧
      (∀ line ∈ added,
        line = { number := line.number, file? := line.file?, error? := line.error? }) ∧
      ∀ symbols, SymbolTable.locateAll (kept ++ added) symbols =
        SymbolTable.locateAll listing symbols := by
  have all := attachAll_eq errors listing
  have parts := all.trans (deliver_append _ _ _)
  have made := forall₂_deliver (fun p => if p ∈ listing.map ListingLine.place then []
    else messagesAt errors p) ((missing errors listing).map blankLine)
  refine ⟨_, _, parts, forall₂_deliver _ _, fun before line after split other => ?_,
    fun error member => ?_, ?_, fun line member => ?_, fun symbols => ?_⟩
  · exact getElem?_deliver split (other.imp_right messagesAt_eq_nil_iff.mpr)
  · have named : error.names = fun line => decide (line.place = error.place) := by
      funext line
      rw [Bool.eq_iff_iff, names_iff, decide_eq_true_iff]
    have told : messagesAt errors error.place ≠ [] := fun silent =>
      messagesAt_eq_nil_iff.mp silent (List.mem_map_of_mem member)
    rw [← parts, all, named, find?_deliver, List.find?_append]
    cases first : listing.find? fun line => decide (line.place = error.place) with
    | some line => exact ⟨_, rfl, withMessages_error? told⟩
    | none =>
      have unlisted : error.place ∉ listing.map ListingLine.place := by
        intro listed
        obtain ⟨line, listed, same⟩ := List.mem_map.mp listed
        simpa [same] using List.find?_eq_none.mp first line listed
      have blank := find?_blankLine (mem_missing.mpr ⟨List.mem_map_of_mem member, unlisted⟩)
      rw [Option.none_or, blank]
      exact ⟨_, rfl, withMessages_error? told⟩
  · rw [map_place_of_forall₂ made, List.map_map]
    exact List.map_id _
  · rw [List.forall₂_map_left_iff] at made
    have bare (spot : Option Text × Nat) (line : ListingLine)
        (same : (blankLine spot).SameButError line) :
        line = { number := line.number, file? := line.file?, error? := line.error? } := by
      rw [same]
      rfl
    exact forall_of_forall₂ bare made line member
  · rw [← parts, all]
    refine List.map_congr_left fun symbol _ => ?_
    rw [SymbolTable.locate_of_forall₂ (forall₂_deliver _ _), SymbolTable.locate_append_blank]

/-- Two errors of one line that is not listed share the line that is made for them, and of two
lines of one place only the first gets a message. -/
theorem repeated_errors_are_conserved :
    let errors : List ConsoleError := [⟨none, 3, "x".toList⟩, ⟨some "a".toList, 7, "y".toList⟩,
      ⟨none, 3, "z".toList⟩, ⟨some "a".toList, 7, "v".toList⟩]
    let listing : List ListingLine := [{ number := 3, raw := "l nop".toList, error? := some [] },
      { number := 3 }]
    attachAll errors listing =
      [{ number := 3, raw := "l nop".toList, error? := some "; x; z".toList },
      { number := 3 }, { number := 7, file? := some "a".toList, error? := some "y; v".toList }] ∧
    ∃ kept added, attachAll errors listing = kept ++ added ∧
      added.map ListingLine.place = [(some "a".toList, 7)] ∧
      ∀ symbols, SymbolTable.locateAll (kept ++ added) symbols =
        SymbolTable.locateAll listing symbols := by
  intro errors listing
  obtain ⟨kept, added, parts, -, -, -, places, -, located⟩ :=
    attached_errors_are_conserved errors listing
  refine ⟨by decide +kernel, kept, added, parts, ?_, located⟩
  rw [places]
  decide +kernel

end ConsoleError

end AsmServer
