import AsmServer.Proofs.Answer.Attribution

/-!
# Searching a workspace for symbols

A search compares lower-case forms. The form of a text is put together from the forms of its
parts, and of all characters only a capital sigma is written by what stands around it. So a part of
a name is found by a query that is spelled alike, unless a sigma ends a word in one of the two and
not in the other.
-/

namespace AsmServer

/-! ## Lower case of a part -/

namespace Text

variable {front back query : Text}

/-- The lower-case form of a text that stands between two others, the one before it in reverse
order. -/
def lowercaseBetween (seen ahead : Text) : Text → Text
  | [] => []
  | c :: rest =>
    let here :=
      if c = 'Σ' then [if meetsCased seen && !meetsCased (rest ++ ahead) then 'ς' else 'σ']
      else lowercaseChar c
    here ++ lowercaseBetween (c :: seen) ahead rest

theorem lowercaseAfter_append (seen s t : Text) :
    lowercaseAfter seen (s ++ t) =
      lowercaseBetween seen t s ++ lowercaseAfter (s.reverse ++ seen) t := by
  induction s generalizing seen with
  | nil => rfl
  | cons c rest ih => simp [lowercaseAfter, lowercaseBetween, ih]

theorem lowercase_eq_lowercaseBetween (t : Text) : lowercase t = lowercaseBetween [] [] t := by
  have alone := lowercaseAfter_append [] t []
  rwa [List.append_nil, lowercaseAfter, List.append_nil] at alone

/-- Whether a capital sigma between two texts ends a word. -/
def endsWord (before after : Text) : Bool := meetsCased before.reverse && !meetsCased after

/-- Whether every capital sigma of a query ends a word in the query if and only if it does with
other texts before and behind the query. -/
def KeepsSigmas (front query back : Text) : Prop :=
  ∀ before after, query = before ++ 'Σ' :: after →
    endsWord (front ++ before) (after ++ back) = endsWord before after

theorem keepsSigmas_of_not_mem (absent : 'Σ' ∉ query) : KeepsSigmas front query back := by
  rintro before after rfl
  simp at absent

/-- A text has one lower-case form in two places if its sigmas end words in both or in neither. -/
theorem lowercaseBetween_congr {seen seen' ahead ahead' t : Text}
    (alike : ∀ before after, t = before ++ 'Σ' :: after →
      (meetsCased (before.reverse ++ seen) && !meetsCased (after ++ ahead)) =
        (meetsCased (before.reverse ++ seen') && !meetsCased (after ++ ahead'))) :
    lowercaseBetween seen ahead t = lowercaseBetween seen' ahead' t := by
  induction t generalizing seen seen' with
  | nil => rfl
  | cons c rest ih =>
    have later : lowercaseBetween (c :: seen) ahead rest =
        lowercaseBetween (c :: seen') ahead' rest := by
      refine ih fun before after here => ?_
      simpa using alike (c :: before) after (by rw [here, List.cons_append])
    by_cases sigma : c = 'Σ'
    · have here := alike [] rest (by rw [sigma, List.nil_append])
      simp only [List.reverse_nil, List.nil_append] at here
      simp only [lowercaseBetween, here, later]
    · simp only [lowercaseBetween, if_neg sigma, later]

/-- The lower-case form of a query stands in that of a text around it. -/
theorem lowercase_infix (keeps : KeepsSigmas front query back) :
    lowercase query <:+: lowercase (front ++ query ++ back) := by
  have same : lowercaseBetween (front.reverse ++ []) back query = lowercaseBetween [] [] query := by
    refine lowercaseBetween_congr fun before after here => ?_
    simpa [endsWord] using keeps before after here
  rw [lowercase_eq_lowercaseBetween query, ← same]
  refine ⟨lowercaseBetween [] (query ++ back) front,
    lowercaseAfter (query.reverse ++ (front.reverse ++ [])) back, ?_⟩
  simp only [lowercase, lowercaseAfter_append, List.append_assoc]

end Text

/-! ## What is found -/

theorem mem_workspaceSymbols {projects : List Project} {query : Text} {entry : SymbolEntry} :
    entry ∈ workspaceSymbols projects query ↔
      ∃ p ∈ projects, ∃ result, p.result? = some result ∧ ∃ symbol ∈ result.symbols,
        Text.lowercase query <:+: Text.lowercase symbol.name ∧
        ∃ location, symbol.definition? p.registry = some location ∧
          entry = ⟨symbol.name, symbol.isLabel, location⟩ := by
  rw [workspaceSymbols, List.mem_flatMap]
  refine exists_congr fun p => and_congr_right fun _ => ?_
  cases assembled : p.result? with
  | none => simp [Project.symbolsContaining, assembled]
  | some result =>
    simp only [Project.symbolsContaining, assembled, List.mem_filterMap, List.mem_filter,
      Text.contains_iff, Option.map_eq_some_iff, Option.some.injEq, exists_eq_left', and_assoc,
      eq_comm (a := entry)]

section Match

variable {projects : List Project} {p : Project} {result : AssemblyResult} {symbol : Symbol}
variable {file : TrackedFile} {front query back : Text}

/-- How a symbol is listed that a file with a URI of the file system defines. -/
def Symbol.entryIn (symbol : Symbol) (file : TrackedFile) : SymbolEntry :=
  ⟨symbol.name, symbol.isLabel,
    ⟨file.uri.text, .onLine (symbol.line - 1) symbol.firstColumn symbol.lastColumn⟩⟩

/-- A symbol is found by every part of its name, as long as no capital sigma of the part ends a word
in only one of the two. -/
theorem literal_match_is_found (member : p ∈ projects) (assembled : p.result? = some result)
    (listed : symbol ∈ result.symbols) (name : symbol.name = front ++ query ++ back)
    (keeps : 'Σ' ∈ query → Text.KeepsSigmas front query back)
    (line : symbol.hasDefinition = true)
    (defining : symbol.definingFile? p.registry = some file) (files : file.uri.isFile = true) :
    symbol.entryIn file ∈ workspaceSymbols projects query := by
  have place : symbol.definition? p.registry =
      some ⟨file.uri.text, .onLine (symbol.line - 1) symbol.firstColumn symbol.lastColumn⟩ := by
    simp [Symbol.definition?, Symbol.definitionRange?, line, defining, Uri.url?_of_isFile files]
  have part : Text.lowercase query <:+: Text.lowercase symbol.name := by
    rw [name]
    by_cases sigma : 'Σ' ∈ query
    · exact Text.lowercase_infix (keeps sigma)
    · exact Text.lowercase_infix (Text.keepsSigmas_of_not_mem sigma)
  exact mem_workspaceSymbols.mpr ⟨p, member, result, assembled, symbol, listed, part, _, place, rfl⟩

end Match

section sigma

/-- The entry file of the project below. -/
def sigmaFile : TrackedFile := { uri := .ofPath "/m".toList }

/-- A name with a sigma inside. -/
def innerSigma : Symbol := { name := "İΑΣΟ".toList, isLabel := true, line := 1, lastColumn := 4 }

/-- A name with a sigma at its end. -/
def finalSigma : Symbol := { name := "ΟΣ".toList, isLabel := true, line := 2, lastColumn := 2 }

/-- A project with both names. -/
def sigmaProject : Project :=
  { id := ⟨1⟩, registry := { files := [sigmaFile], entry? := some sigmaFile.uri },
    result? := some { symbols? := some [innerSigma, finalSigma] } }

/-- A sigma that ends no word is found. -/
theorem inner_sigma_is_found :
    Text.KeepsSigmas "İΑ".toList "ΣΟ".toList [] ∧
    innerSigma.entryIn sigmaFile ∈ workspaceSymbols [sigmaProject] "ΣΟ".toList := by
  have keeps : Text.KeepsSigmas "İΑ".toList "ΣΟ".toList [] := by
    rintro (_ | ⟨c, _ | ⟨d, before⟩⟩) after whole
    · obtain rfl : after = ['Ο'] := by simpa using whole.symm
      decide +kernel
    · simp at whole
    · simp at whole
  exact ⟨keeps, literal_match_is_found List.mem_cons_self rfl List.mem_cons_self (by decide)
    (fun _ => keeps) (by decide) (by decide) (by decide)⟩

/-- A sigma on its own is not found where it ends a word. -/
theorem final_sigma_is_missed : finalSigma.name = "Ο".toList ++ "Σ".toList ∧
    sigmaProject.result?.any (finalSigma ∈ ·.symbols) = true ∧ finalSigma.hasDefinition = true ∧
    finalSigma.definingFile? sigmaProject.registry = some sigmaFile ∧
    sigmaFile.uri.isFile = true ∧
    finalSigma.entryIn sigmaFile ∉ workspaceSymbols [sigmaProject] "Σ".toList := by
  decide +kernel

end sigma

end AsmServer
