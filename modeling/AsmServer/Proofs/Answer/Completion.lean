import AsmServer.Answer.Completion
import AsmServer.Proofs.Language
import AsmServer.Proofs.Text.Numeral
import AsmServer.Proofs.Text.Search

/-!
# Completion items and their explanations

The payload of an item is read back as the target that it was written for, whatever the name and
for every value of 64 bits. The words of the language are found again in their tables, under any of
their names and in either case. So every item that is offered is explained, as the word that its
label shows. An item that comes from anywhere else is explained or left alone; nothing but its
detail and its documentation ever changes, and explaining it again changes nothing.
-/

namespace AsmServer

/-! ## Payloads -/

namespace CompletionTarget

variable {target : CompletionTarget}

/-- The value of a target, if it has one, is a signed number of 64 bits. -/
def Fits : CompletionTarget → Prop
  | symbol _ value | label _ value => isValue value = true
  | _ => True

theorem value?_int {value : Int} (fits : isValue value = true) :
    value? (.int value) = some value := by
  simp [value?, Json.int?, fits]

/-- A payload stands for the target that it was written for. -/
theorem ofJson?_toJson (fits : target.Fits) : ofJson? target.toJson = some target := by
  cases target with
  | instruction name => rfl
  | pseudoOp name => rfl
  | register name => rfl
  | symbol name value =>
    have read : ofJson? (symbol name value).toJson
        = (value? (.int value)).bind (ofName? "symbol".toList name) := rfl
    rw [read, value?_int fits]
    rfl
  | label name value =>
    have read : ofJson? (label name value).toJson
        = (value? (.int value)).bind (ofName? "label".toList name) := rfl
    rw [read, value?_int fits]
    rfl

/-- The same target under another name. -/
def called (name : Text) : CompletionTarget → CompletionTarget
  | instruction _ => .instruction name
  | pseudoOp _ => .pseudoOp name
  | register _ => .register name
  | symbol _ value => .symbol name value
  | label _ value => .label name value

end CompletionTarget

/-! ## Resolving -/

namespace CompletionItem

variable {item : CompletionItem} {target : CompletionTarget} {detail text : Text}

theorem resolve_eq (target : CompletionTarget) (data : item.data? = some target.toJson)
    (fits : target.Fits) (known : target.describe? = some (detail, text)) :
    item.resolve =
      { item with detail? := some detail, documentation? := some (.markdown text) } := by
  simp only [resolve, data, Option.bind_some, CompletionTarget.ofJson?_toJson fits, known]

/-- Resolving leaves an item alone or explains it. -/
theorem resolve_cases (item : CompletionItem) : item.resolve = item ∨ ∃ detail text,
    (item.data?.bind CompletionTarget.ofJson?).bind CompletionTarget.describe?
      = some (detail, text) ∧
    item.resolve =
      { item with detail? := some detail, documentation? := some (.markdown text) } := by
  unfold resolve
  split
  · exact .inl rfl
  · next detail text known => exact .inr ⟨detail, text, known, rfl⟩

/-- An explanation depends on the payload alone, which stays. -/
theorem resolve_resolve (item : CompletionItem) : item.resolve.resolve = item.resolve := by
  obtain alone | ⟨detail, text, known, explained⟩ := resolve_cases item
  · rw [alone, alone]
  · rw [explained]
    simp only [resolve, known]

/-- Everything else of an item stays. -/
theorem resolve_else (item : CompletionItem) :
    { item.resolve with
      detail? := item.detail?
      documentation? := item.documentation? } = item := by
  obtain alone | ⟨detail, text, -, explained⟩ := resolve_cases item
  · rw [alone]
  · rw [explained]

/-! ## Items that are offered -/

/-- An item is explained as what its label shows. -/
def Explained (item : CompletionItem) : Prop :=
  ∃ (target : CompletionTarget) (detail text : Text), item.data? = some target.toJson ∧
    (target.called item.label).describe? = some (detail, text) ∧
    item.resolve =
      { item with detail? := some detail, documentation? := some (.markdown text) }

theorem upper_cased (uppercase : Bool) (name : Text) :
    Text.upper (cased uppercase name) = Text.upper name := by
  cases uppercase with
  | true =>
    simp only [cased, if_true, Text.upper, List.map_map]
    exact List.map_congr_left fun c _ => Text.upperChar_upperChar c
  | false =>
    simp only [cased, Bool.false_eq_true, if_false, Text.upper, Text.lower, List.map_map]
    exact List.map_congr_left fun c _ => Text.upperChar_lowerChar c

theorem explained_of {label : Text} {kind : Int} (fits : target.Fits)
    (known : target.describe? = some (detail, text))
    (same : (target.called label).describe? = target.describe?) :
    (of label kind target).Explained :=
  ⟨target, detail, text, rfl, same.trans known, resolve_eq target rfl fits known⟩

theorem explained_instruction {i : Instruction} (listed : i ∈ Language.instructions)
    (uppercase : Bool) (kind : Int) :
    (of (cased uppercase i.name) kind (.instruction i.name)).Explained := by
  refine explained_of trivial
    (by rw [CompletionTarget.describe?, Language.instruction?_of_mem listed]; rfl) ?_
  simp only [CompletionTarget.called, CompletionTarget.describe?,
    Language.instruction?_congr (upper_cased uppercase i.name)]

theorem explained_pseudoOp {op : PseudoOp} (listed : op ∈ Language.pseudoOps) {name : Text}
    (known : name ∈ op.names) (uppercase : Bool) (kind : Int) :
    (of (cased uppercase name) kind (.pseudoOp op.name)).Explained := by
  have main : Language.pseudoOp? op.name = some op :=
    Language.pseudoOp?_of_mem listed List.mem_cons_self
  refine explained_of trivial (by rw [CompletionTarget.describe?, main]; rfl) ?_
  simp only [CompletionTarget.called, CompletionTarget.describe?, main,
    Language.pseudoOp?_congr (upper_cased uppercase name),
    Language.pseudoOp?_of_mem listed known]

theorem explained_register {register : Register} (listed : register ∈ Language.registers)
    (uppercase : Bool) (kind : Int) :
    (of (cased uppercase register.name) kind (.register register.name)).Explained := by
  refine explained_of trivial
    (by rw [CompletionTarget.describe?, Language.register?_of_mem listed]; rfl) ?_
  simp only [CompletionTarget.called, CompletionTarget.describe?,
    Language.register?_congr (upper_cased uppercase register.name)]

theorem explained_ofSymbol {symbol : Symbol} (fits : CompletionTarget.isValue symbol.value = true) :
    (ofSymbol symbol).Explained := by
  unfold ofSymbol
  split
  · exact explained_of fits rfl rfl
  · exact explained_of fits rfl rfl

theorem explained_of_mem_all {result? : Option AssemblyResult} {prefer : CasePreference}
    (fits : ∀ result ∈ result?, ∀ symbol ∈ result.symbols,
      CompletionTarget.isValue symbol.value = true)
    (offered : item ∈ all result? prefer) : item.Explained := by
  simp only [all, List.mem_append, List.mem_map, List.mem_flatMap] at offered
  obtain ((⟨i, listed, rfl⟩ | ⟨op, listed, name, known, rfl⟩) | ⟨register, listed, rfl⟩) |
    ⟨symbol, listed, rfl⟩ := offered
  · exact explained_instruction listed _ _
  · exact explained_pseudoOp listed known _ _
  · exact explained_register listed _ _
  · cases result? with
    | none => cases listed
    | some result => exact explained_ofSymbol (fits result rfl symbol listed)

/-! ## Symbols -/

/-- The detail of a symbol. -/
def symbolDetail (symbol : Symbol) : Text :=
  if symbol.isLabel then
    "Label ".toList ++ symbol.name ++ " at address ".toList ++ Text.ofInt symbol.value
  else "Symbol ".toList ++ symbol.name ++ " with value ".toList ++ Text.ofInt symbol.value

theorem detail?_ofSymbol {symbol : Symbol} (fits : CompletionTarget.isValue symbol.value = true) :
    (ofSymbol symbol).resolve.detail? = some (symbolDetail symbol) := by
  unfold ofSymbol symbolDetail
  split
  · rw [resolve_eq (.label symbol.name symbol.value) rfl fits rfl]
  · rw [resolve_eq (.symbol symbol.name symbol.value) rfl fits rfl]

/-- A value is read back from its digits. -/
theorem readInt?_value {value : Int} (fits : CompletionTarget.isValue value = true) :
    Text.readInt? 10 Text.bound63 (Text.ofInt value) = some value := by
  obtain ⟨least, below⟩ : -(Text.bound63 : Int) ≤ value ∧ value < Text.bound63 := by
    simpa [CompletionTarget.isValue] using fits
  exact Text.readInt?_ofInt least below

/-- A name and a value can be told from a text between them, which ends in a blank. -/
theorem named_value_inj (between : Text) {name name' : Text} {value value' : Int}
    (fits : CompletionTarget.isValue value = true) (fits' : CompletionTarget.isValue value' = true)
    (same : name ++ (between ++ ' ' :: Text.ofInt value) =
      name' ++ (between ++ ' ' :: Text.ofInt value')) : name = name' ∧ value = value' := by
  have solid (n : Int) : ' ' ∉ Text.ofInt n := Text.not_mem_ofInt (by decide) (by decide) n
  simp only [← List.append_assoc] at same
  obtain ⟨names, values⟩ := Text.append_cons_inj_of_not_mem (solid value) (solid value') same
  refine ⟨List.append_cancel_right names, Option.some_injective _ ?_⟩
  rw [← readInt?_value fits, values, readInt?_value fits']

/-- No two symbols of different names, kinds or values have the same detail. -/
theorem symbolDetail_inj {s s' : Symbol} (fits : CompletionTarget.isValue s.value = true)
    (fits' : CompletionTarget.isValue s'.value = true) (same : symbolDetail s = symbolDetail s') :
    s.isLabel = s'.isLabel ∧ s.name = s'.name ∧ s.value = s'.value := by
  cases label : s.isLabel <;> cases label' : s'.isLabel <;>
    simp only [symbolDetail, label, label', if_true, Bool.false_eq_true, if_false,
      List.append_assoc] at same
  case false.false =>
    exact ⟨rfl, named_value_inj " with value".toList fits fits'
      (List.append_cancel_left same)⟩
  case true.true =>
    exact ⟨rfl, named_value_inj " at address".toList fits fits'
      (List.append_cancel_left same)⟩
  case false.true => cases same
  case true.false => cases same

theorem mem_all_of_symbol {result : AssemblyResult} {symbol : Symbol}
    (listed : symbol ∈ result.symbols) (prefer : CasePreference) :
    ofSymbol symbol ∈ all (some result) prefer :=
  List.mem_append_right _ (List.mem_map_of_mem listed)

/-- Every item that is offered is explained, a symbol by its name and its value and by nothing that
another could be meant by; explaining changes no more of an item, and explaining again nothing. -/
theorem resolve_explains_once (result? : Option AssemblyResult) (prefer : CasePreference)
    (fits : ∀ result ∈ result?, ∀ symbol ∈ result.symbols,
      CompletionTarget.isValue symbol.value = true) :
    (∀ item ∈ all result? prefer, item.Explained) ∧
    (∀ result ∈ result?, ∀ symbol ∈ result.symbols,
      ofSymbol symbol ∈ all result? prefer ∧
      (ofSymbol symbol).resolve.detail? = some (symbolDetail symbol) ∧
      Text.readInt? 10 Text.bound63 (Text.ofInt symbol.value) = some symbol.value ∧
      ∀ other : Symbol, CompletionTarget.isValue other.value = true →
        symbolDetail other = symbolDetail symbol →
        other.isLabel = symbol.isLabel ∧ other.name = symbol.name ∧ other.value = symbol.value) ∧
    ∀ item : CompletionItem,
      { item.resolve with detail? := item.detail?, documentation? := item.documentation? } = item ∧
      item.resolve.resolve = item.resolve := by
  refine ⟨fun item offered => explained_of_mem_all fits offered, ?_,
    fun item => ⟨resolve_else item, resolve_resolve item⟩⟩
  rintro result rfl symbol listed
  have value := fits result rfl symbol listed
  exact ⟨mem_all_of_symbol listed prefer, detail?_ofSymbol value, readInt?_value value,
    fun _ other same => symbolDetail_inj other value same⟩

/-- A result with a symbol of the least value and a label. -/
def leastValue : AssemblyResult :=
  { symbols? := some
      [{ name := "ΟΣ\"".toList, value := -Text.bound63 },
        { name := "start".toList, isLabel := true, value := 0xf000 }] }

/-- A name that JSON must escape and the least value come back. -/
theorem least_value_is_explained :
    (∀ item ∈ all (some leastValue) ⟨true, false, true⟩, item.Explained) ∧
    (leastValue.symbols.map fun symbol => (ofSymbol symbol).resolve.detail?) =
      [some "Symbol ΟΣ\" with value -9223372036854775808".toList,
        some "Label start at address 61440".toList] := by
  obtain ⟨explained, symbols, -⟩ := resolve_explains_once (some leastValue)
    ⟨true, false, true⟩ (by simp only [Option.mem_some_iff, forall_eq']; decide)
  refine ⟨explained, ?_⟩
  have details : (leastValue.symbols.map fun symbol => (ofSymbol symbol).resolve.detail?) =
      leastValue.symbols.map fun symbol => some (symbolDetail symbol) :=
    List.map_congr_left fun symbol listed => (symbols leastValue rfl symbol listed).2.1
  rw [details]
  decide

end CompletionItem

end AsmServer
