import AsmServer.Language.Lookup
import Mathlib.Data.List.Chain
import Mathlib.Data.List.Nodup
import Mathlib.Data.List.Pairwise

/-!
# Words of the language and their tables

The names in a table are upper-case and different, so that a word is found under each of its names
and leads to no other entry. Lookups see the upper-case form alone, which lower-casing keeps.
-/

namespace AsmServer

namespace Text

theorem upperChar_lowerChar (c : Char) : upperChar (lowerChar c) = upperChar c := by
  have letters : ∀ n < 91, 65 ≤ n → upperChar (Char.ofNat (n + 32)) = Char.ofNat n := by decide
  by_cases capital : 'A' ≤ c ∧ c ≤ 'Z'
  · have least : 65 ≤ c.toNat := capital.1
    have most : c.toNat < 91 := Nat.lt_succ_of_le capital.2
    have lower : lowerChar c = Char.ofNat (c.toNat + 32) := if_pos capital
    have stays : upperChar c = c := if_neg fun ⟨small, _⟩ => by
      have : 97 ≤ c.toNat := small
      omega
    rw [lower, letters c.toNat most least, stays, Char.ofNat_toNat]
  · have same : lowerChar c = c := if_neg capital
    rw [same]

theorem upperChar_upperChar (c : Char) : upperChar (upperChar c) = upperChar c := by
  have letters : ∀ n < 123, 97 ≤ n → upperChar (Char.ofNat (n - 32)) = Char.ofNat (n - 32) := by
    decide
  by_cases small : 'a' ≤ c ∧ c ≤ 'z'
  · have shifted : upperChar c = Char.ofNat (c.toNat - 32) := if_pos small
    rw [shifted, letters c.toNat (Nat.lt_succ_of_le small.2) small.1]
  · have same : upperChar c = c := if_neg small
    rw [same, same]

end Text

namespace Language

variable {name other : Text}

/-- A search finds the only element that is meant. -/
theorem find?_of_unique {α : Type} {l : List α} {meant : α → Bool} {a : α} (listed : a ∈ l)
    (holds : meant a = true) (alone : ∀ b ∈ l, meant b = true → b = a) :
    l.find? meant = some a := by
  obtain ⟨b, found⟩ := Option.isSome_iff_exists.mp (List.find?_isSome.mpr ⟨a, listed, holds⟩)
  rw [found, alone b (List.mem_of_find?_eq_some found) (List.find?_some found)]

/-! The names in a table are upper-case and different. -/

section tables

set_option maxRecDepth 4000

theorem sorted_instructions : (instructions.map (·.name)).IsChain (· < ·) := by decide

theorem nodup_instructions : (instructions.map (·.name)).Nodup := by
  refine sorted_instructions.pairwise.imp ?_
  rintro name _ before rfl
  exact List.lt_irrefl name before

theorem upper_instruction : ∀ i ∈ instructions, Text.upper i.name = i.name := by decide

theorem nodup_pseudoOps : (pseudoOps.flatMap (·.names)).Nodup := by decide

theorem upper_pseudoOp : ∀ op ∈ pseudoOps, ∀ name ∈ op.names, Text.upper name = name := by decide

theorem nodup_registers : (registers.map (·.name)).Nodup := by decide

theorem upper_register : ∀ register ∈ registers, Text.upper register.name = register.name := by
  decide

end tables

theorem instruction?_of_mem {i : Instruction} (listed : i ∈ instructions) :
    instruction? i.name = some i := by
  rw [instruction?, upper_instruction i listed]
  exact find?_of_unique listed (beq_self_eq_true i.name) fun _ member same =>
    List.inj_on_of_nodup_map nodup_instructions member listed (eq_of_beq same)

/-- A pseudo-op is found under each of its names. -/
theorem pseudoOp?_of_mem {op : PseudoOp} (listed : op ∈ pseudoOps) (known : name ∈ op.names) :
    pseudoOp? name = some op := by
  have apart := (List.nodup_flatMap.mp nodup_pseudoOps).2
  have : Std.Symm (Function.onFun List.Disjoint PseudoOp.names) :=
    ⟨fun _ _ disjoint _ shared known => disjoint known shared⟩
  have found : pseudoOpNamed? name = some op := by
    refine find?_of_unique listed (decide_eq_true known) fun other member shared => ?_
    by_contra different
    exact apart.forall member listed different (of_decide_eq_true shared) known
  rw [pseudoOp?, upper_pseudoOp op listed name known]
  simp only [found, Option.some_or]

theorem register?_of_mem {register : Register} (listed : register ∈ registers) :
    register? register.name = some register := by
  rw [register?, upper_register register listed]
  exact find?_of_unique listed (beq_self_eq_true register.name) fun _ member same =>
    List.inj_on_of_nodup_map nodup_registers member listed (eq_of_beq same)

theorem instruction?_congr (same : Text.upper name = Text.upper other) :
    instruction? name = instruction? other := by
  rw [instruction?, same, instruction?]

theorem pseudoOp?_congr (same : Text.upper name = Text.upper other) :
    pseudoOp? name = pseudoOp? other := by
  rw [pseudoOp?, same, pseudoOp?]

theorem register?_congr (same : Text.upper name = Text.upper other) :
    register? name = register? other := by
  rw [register?, same, register?]

end Language

end AsmServer
