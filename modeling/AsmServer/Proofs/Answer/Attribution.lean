import AsmServer.Answer.Navigation
import AsmServer.Answer.SymbolSearch
import AsmServer.Proofs.Registry.Naming

/-!
# Where a symbol is defined

The name of the defining file is used for two questions. Which file is it? The file that a
directive of this name leads to, or else the first whose path ends with the name. And does a
given file define the symbol? It does if its own path ends with the name. Search and
navigation ask the first question, and the symbols of a document and the declaration among
the occurrences depend on the second.

The answers agree exactly if the path of the defining file ends with the name and no other
path does. It ends with the name of every include that is spelled without a detour, in
whatever directory of the search path the file was found; but the name of an include that
climbs with `..` is at the end of no path, and two files of one name in different directories
both define what the assembler places in either.
-/

namespace AsmServer

/-! ## Names without a detour -/

namespace Path

variable {names : List Text}

/-- Names with slashes between them, from the root or behind any number of `./`, and without
a drive letter in front. -/
def IsStraight (name : Text) : Prop :=
  ∃ names, names ≠ [] ∧ (∀ part ∈ names, IsName part) ∧ Uri.hasDrive (rooted names) = false ∧
    (Text.slashed name = rooted names ∨ dropHere (Text.slashed name) = Text.join ['/'] names)

/-- A leading `./` leads nowhere. -/
theorem foldl_enter_dropHere (text : Text) :
    ((dropHere text).splitOn '/').foldl enter names = (text.splitOn '/').foldl enter names := by
  fun_induction dropHere text with
  | case1 rest ih =>
    have pieces : ('.' :: '/' :: rest).splitOn '/' = ['.'] :: rest.splitOn '/' :=
      List.splitOn_append_cons_self ['.'] rest
    rw [ih, pieces]
    rfl
  | case2 => rfl

end Path

namespace Uri

open AsmServer.Path

variable {uri : Uri} {names : List Text} {name other base dir : Text}

/-- Only the name without a leading `./` counts. -/
theorem endsWithPath_congr (h : dropHere (Text.slashed name) = dropHere (Text.slashed other)) :
    uri.endsWithPath name = uri.endsWithPath other := by
  unfold endsWithPath
  rw [h]

/-- A path ends with itself. -/
theorem endsWithPath_self (read : uri.decodedPath = .ok (rooted names))
    (spelled : Text.slashed name = rooted names) : uri.endsWithPath name = true := by
  have whole : dropHere (rooted names) = rooted names := by
    rw [rooted_eq_cons_join]
    rfl
  have nonempty : rooted names ≠ [] := by
    rw [rooted_eq_cons_join]
    exact List.cons_ne_nil _ _
  have cut : Text.beforeTail? (rooted names) (rooted names) = some [] :=
    Text.beforeTail?_append [] (rooted names)
  unfold endsWithPath
  simp [spelled, whole, nonempty, read, cut]

/-- What an include without a detour may mean has a path that ends with its name. -/
theorem endsWithPath_of_candidate {searchPath : List Text} (straight : IsStraight name)
    (h : uri ∈ Registry.candidates base searchPath name) : uri.endsWithPath name = true := by
  obtain ⟨names, some, proper, undriven, spelled⟩ := straight
  have lowered : names.modifyHead lowerName = names := modifyHead_lowerName proper undriven
  rcases spelled with absolute | relative
  · have rootedName : isAbsolute (Text.slashed name) = true := by
      rw [absolute, rooted_eq_cons_join]
      rfl
    rw [Registry.candidates, if_pos rootedName, List.mem_singleton] at h
    refine endsWithPath_self ?_ absolute
    rw [h, decodedPath_ofPath, canonicalPath_eq_rooted, ownPlace, absolute, slashed_rooted proper,
      place_rooted proper, lowered]
  · have parts (part : Text) (member : part ∈ names) : IsPart part := (proper part member).isPart
    have level : isAbsolute (Text.slashed name) = false := by
      cases absolute : isAbsolute (Text.slashed name) with
      | false => rfl
      | true =>
        obtain ⟨rest, leads⟩ := List.head?_eq_some_iff.mp (of_decide_eq_true absolute)
        have joined := isAbsolute_parts parts
        rw [← relative, leads] at joined
        cases joined
    rw [Registry.candidates, if_neg (by simp [level])] at h
    obtain ⟨dir, -, made⟩ := List.mem_map.mp h
    have straight : Text.slashed (Text.slashed name) = Text.slashed name :=
      slashed_of_not_mem backslash_not_mem_slashed
    -- The names of the include are the last on the way to its file.
    have ends : place (Text.slashed (append (append base dir) (Text.slashed name)))
        = place (Text.slashed (append base dir)) ++ names := by
      rw [place_slashed_append level, straight, ← foldl_enter_dropHere, relative,
        splitOn_join proper some, foldl_enter_names proper]
    have suffix : names <:+ ownPlace (append (append base dir) (Text.slashed name)) := by
      rw [ownPlace, ends]
      cases place (Text.slashed (append base dir)) with
      | nil => rw [List.nil_append, lowered]
      | cons first rest => exact List.suffix_append (lowerName first :: rest) names
    have same : uri.endsWithPath name = uri.endsWithPath (Text.join ['/'] names) := by
      refine endsWithPath_congr ?_
      rw [relative, slashed_join proper, dropHere_join proper]
    rw [same]
    refine endsWithPath_of_suffix ?_ proper some suffix
    rw [← made, decodedPath_ofPath, canonicalPath_eq_rooted]

end Uri

/-! ## The defining file -/

section defining

variable {r : Registry} {entry : Uri} {f g : TrackedFile} {symbol : Symbol} {name : Text}

/-- The path of the defining file ends with its name, and that of no other tracked file
does. -/
def Symbol.Unambiguous (symbol : Symbol) (r : Registry) : Prop :=
  ∀ name, symbol.file? = some name → ∀ f, symbol.definingFile? r = some f →
    f.uri.endsWithPath name = true ∧ ∀ g ∈ r.files, g.uri.endsWithPath name = true → g = f

theorem Registry.mem_of_named? {name? : Option Text} (h : r.named? name? = some f) :
    f ∈ r.files := by
  cases name? with
  | none =>
    obtain ⟨entry, -, found⟩ := Option.bind_eq_some_iff.mp h
    exact mem_of_find? found
  | some name =>
    rcases Option.or_eq_some_iff.mp h with included | ⟨-, ended⟩
    · obtain ⟨file, -, along⟩ := List.exists_of_findSome?_eq_some included
      obtain ⟨edge, -, found⟩ := Option.bind_eq_some_iff.mp along
      exact mem_of_find? found
    · exact List.mem_of_find?_eq_some ended

/-- A file that is found by its name, and by no include that climbs, has a path that ends with
the name. -/
theorem Registry.endsWithPath_of_named? (sound : r.Sound entry) (h : r.named? (some name) = some f)
    (spelled : r.includesNamed name = [] ∨ Path.IsStraight name) :
    f.uri.endsWithPath name = true := by
  rcases (named?_eq_some_iff sound (mem_of_named? h)).mp h with ⟨edge, first, leads⟩ | ⟨-, ended⟩
  · rcases spelled with none | straight
    · simp [none] at first
    · have listed : edge ∈ r.includesNamed name := List.mem_of_head? first
      obtain ⟨file, member, known⟩ := List.mem_flatMap.mp listed
      obtain ⟨own, same⟩ := List.mem_filter.mp known
      have candidate := ((sound.files file member).sourced edge own).2
      rw [beq_iff_eq.mp same, leads] at candidate
      exact Uri.endsWithPath_of_candidate straight candidate
  · simpa using List.find?_some ended

namespace Symbol

theorem definingFile?_of_none (sound : r.Sound entry) (unnamed : symbol.file? = none) :
    symbol.definingFile? r = r.find? entry := by
  rw [definingFile?, unnamed, Registry.named?, Registry.entryFile?, sound.entry?, Option.bind_some]

theorem isDefinedIn_of_none (sound : r.Sound entry) (unnamed : symbol.file? = none) (uri : Uri) :
    symbol.isDefinedIn r uri = true ↔ entry = uri := by
  simp [isDefinedIn, unnamed, Registry.isEntry, sound.entry?]

theorem isDefinedIn_of_some (named : symbol.file? = some name) (uri : Uri) :
    symbol.isDefinedIn r uri = uri.endsWithPath name := by
  simp [isDefinedIn, named]

/-- The two answers agree on all tracked files exactly for an unambiguous symbol. -/
theorem unambiguous_iff (sound : r.Sound entry) (h : symbol.definingFile? r = some f) :
    symbol.Unambiguous r ↔ ∀ g ∈ r.files, symbol.isDefinedIn r g.uri = true ↔ g = f := by
  have member : f ∈ r.files := Registry.mem_of_named? h
  cases named : symbol.file? with
  | none =>
    have here : r.find? entry = some f := (definingFile?_of_none sound named).symm.trans h
    constructor
    · intro _ g among
      rw [isDefinedIn_of_none sound named, ← Registry.uri_of_find? here]
      constructor
      · intro same
        exact List.inj_on_of_nodup_map sound.once among member same.symm
      · intro same
        rw [same]
    · intro _ name given
      cases named.symm.trans given
  | some name =>
    constructor
    · intro only g among
      obtain ⟨ends, alone⟩ := only name named f h
      rw [isDefinedIn_of_some named]
      constructor
      · intro ending
        exact alone g among ending
      · intro same
        rwa [same]
    · intro agree name' given f' found
      obtain rfl : name = name' := Option.some.inj (named.symm.trans given)
      obtain rfl : f = f' := Option.some.inj (h.symm.trans found)
      constructor
      · rw [← isDefinedIn_of_some named (r := r)]
        exact (agree f member).mpr rfl
      · intro g among ending
        rw [← isDefinedIn_of_some named (r := r)] at ending
        exact (agree g among).mp ending

/-- An unambiguous symbol is defined in its defining file alone, and in none if it has
none. -/
theorem isDefinedIn_iff (sound : r.Sound entry) (only : symbol.Unambiguous r)
    (among : g ∈ r.files) :
    symbol.isDefinedIn r g.uri = true ↔ symbol.definingFile? r = some g := by
  cases found : symbol.definingFile? r with
  | some f => rw [(unambiguous_iff sound found).mp only g among, Option.some.injEq, eq_comm]
  | none =>
    cases named : symbol.file? with
    | none =>
      obtain ⟨f, first⟩ := Registry.exists_find? sound.tracked
      simp [definingFile?_of_none sound named, first] at found
    | some name =>
      rw [definingFile?, named, Registry.named?, Option.or_eq_none_iff] at found
      simpa [isDefinedIn_of_some named] using List.find?_eq_none.mp found.2 g among

end Symbol

/-! ## What the answers list -/

theorem Uri.url?_of_isFile {uri : Uri} (h : uri.isFile = true) : uri.url? = some uri.text := by
  simp [url?, toUrl, h, Except.toOption]

theorem Text.contains_nil (text : Text) : Text.contains text [] = true := by
  cases text <;> rfl

/-- The occurrences of an unambiguous symbol have its declaration in its defining file
alone. -/
theorem Project.occurrencesIn_eq {p : Project} (sound : p.registry.Sound entry)
    (only : symbol.Unambiguous p.registry)
    (among : g ∈ p.registry.files) :
    p.occurrencesIn symbol g =
      Code.occurrences symbol (decide (symbol.definingFile? p.registry = some g)) g.lines := by
  have same : symbol.isDefinedIn p.registry g.uri =
      decide (symbol.definingFile? p.registry = some g) := by
    rw [Bool.eq_iff_iff, Symbol.isDefinedIn_iff sound only among, decide_eq_true_iff]
  rw [occurrencesIn, same]

section project

variable {p : Project} {result : AssemblyResult} (sound : p.registry.Sound entry)
  (files : ∀ g ∈ p.registry.files, g.uri.isFile = true)

include files

/-- The definition of a symbol is in its defining file. -/
theorem Symbol.definition?_eq : symbol.definition? p.registry =
    (symbol.definitionRange?).bind fun range => (symbol.definingFile? p.registry).map
      fun f => ⟨f.uri.text, range⟩ := by
  unfold definition?
  cases symbol.definitionRange? with
  | none => rfl
  | some range =>
    cases found : symbol.definingFile? p.registry with
    | none => rfl
    | some f =>
      simp [Uri.url?_of_isFile (files f (Registry.mem_of_named? found))]

include sound

/-- The definition of an unambiguous symbol is in the file that it is defined in. -/
theorem Symbol.definition?_eq_some_iff {range : Range} (only : symbol.Unambiguous p.registry)
    (known : symbol.definitionRange? = some range) (among : g ∈ p.registry.files) :
    symbol.definition? p.registry = some ⟨g.uri.text, range⟩ ↔
      symbol.isDefinedIn p.registry g.uri = true := by
  rw [isDefinedIn_iff sound only among, definition?_eq files, known, Option.bind_some,
    Option.map_eq_some_iff]
  constructor
  · rintro ⟨f, found, same⟩
    have text : f.uri = g.uri := congrArg Uri.mk (Location.mk.inj same).1
    rw [found, List.inj_on_of_nodup_map sound.once (Registry.mem_of_named? found) among text]
  · intro found
    exact ⟨g, found, rfl⟩

/-- The symbols of a document are those that the search finds there. -/
theorem Project.documentSymbols_eq (latest : p.result? = some result)
    (only : ∀ symbol ∈ result.symbols, symbol.Unambiguous p.registry)
    (among : g ∈ p.registry.files) :
    p.documentSymbols g.uri =
      (workspaceSymbols [p] []).filter (·.location.url = g.uri.text) := by
  have searched : workspaceSymbols [p] [] = result.symbols.filterMap fun symbol =>
      (symbol.definition? p.registry).map fun location =>
        ⟨symbol.name, symbol.isLabel, location⟩ := by
    have all : result.symbols.filter (fun symbol =>
        Text.contains (Text.lowercase symbol.name) (Text.lowercase [])) = result.symbols :=
      List.filter_eq_self.mpr fun _ _ => Text.contains_nil _
    simp [workspaceSymbols, symbolsContaining, latest, all]
  rw [searched, documentSymbols, latest, Uri.url?_of_isFile (files g among), List.filter_filterMap]
  simp only [List.filterMap_filter]
  refine List.filterMap_congr fun symbol member => ?_
  cases known : symbol.definitionRange? with
  | none => simp [Symbol.definition?_eq files, known]
  | some range =>
    have here := Symbol.isDefinedIn_iff sound (only symbol member) among
    rw [Symbol.definition?_eq files, known]
    cases found : symbol.definingFile? p.registry with
    | none =>
      rw [found] at here
      simp [Bool.eq_false_iff.mpr (here.not.mpr (by simp))]
    | some f =>
      rw [found, Option.some.injEq] at here
      by_cases same : f = g
      · simp [here.mpr same, same, Option.filter_some]
      · have other : f.uri.text ≠ g.uri.text := by
          intro text
          refine same (List.inj_on_of_nodup_map sound.once (Registry.mem_of_named? found) among ?_)
          exact congrArg Uri.mk text
        simp [Bool.eq_false_iff.mpr (here.not.mpr same), Option.filter_some, other]

end project

section climbing

/-- A header above the directory of the entry file, and two of one name below it. -/
def climbing : Sources where
  disk := [Registry.stored "/h" "", Registry.stored "/p/b" "", Registry.stored "/p/d/b" ""]

def climbingText : Document :=
  ⟨.ofPath "/p/m".toList, 1, " include ../h\n include b\n include d/b".toList⟩

/-- Everything is loaded. -/
def climbingFiles : Registry :=
  Registry.queued climbing 11 ((Registry.blank 0).add climbingText.uri) (.editor climbingText)

/-- A symbol that is defined on the first line of a file with this name. -/
def symbolIn (name : String) : Symbol where
  name := "k".toList
  file? := some name.toList
  line := 1
  lastColumn := 1

/-- A project of these files whose only symbol is defined in a file with this name. -/
def climbingProject (name : String) : Project :=
  ⟨⟨1⟩, climbingFiles, some { symbols? := some [symbolIn name] }⟩

theorem track_climbing : Registry.track 0 [(climbing, climbingText)] = some climbingFiles := by
  have added : (Registry.blank 0).addDocument climbing climbingText = some climbingFiles := by
    rw [Registry.addDocument_blank_eq_queue]
    exact Registry.queue_eq_queued (by decide +kernel)
  simp [Registry.track, added]

end climbing

/-- What the answers say of a tracked file and of the symbols of a result. -/
structure Project.Places (p : Project) (result : AssemblyResult) (g : TrackedFile) : Prop where
  /-- The symbols of the document are those that the search finds there. -/
  listed : p.documentSymbols g.uri =
    (workspaceSymbols [p] []).filter (·.location.url = g.uri.text)
  /-- A definition is in the file if the symbol is defined in it. -/
  placed : ∀ symbol ∈ result.symbols, ∀ range, symbol.definitionRange? = some range →
    (symbol.definition? p.registry = some ⟨g.uri.text, range⟩ ↔
      symbol.isDefinedIn p.registry g.uri = true)
  /-- A declaration is among the occurrences if this is the defining file. -/
  declared : ∀ symbol ∈ result.symbols, p.occurrencesIn symbol g =
    Code.occurrences symbol (decide (symbol.definingFile? p.registry = some g)) g.lines

/-- After any history the tracked files that a symbol is defined in are its defining file alone
if and only if its file name is at the end of the path of this file and of no other. It is at
the end of this path if there is no such name, if no include directive has it, or if it is
spelled without a detour. Where this holds of all symbols of a result, the answers agree on
where each is defined. -/
theorem defined_in_defining_file {delay : Nat} {documents : List (Sources × Document)}
    {operations : List (Sources × Registry.Operation)} {tracked : Registry}
    (tracking : Registry.track delay documents = some tracked)
    (history : tracked.perform operations = some r) :
    (∀ (symbol : Symbol) (f : TrackedFile), symbol.definingFile? r = some f →
      (symbol.Unambiguous r ↔ ∀ g ∈ r.files, symbol.isDefinedIn r g.uri = true ↔ g = f) ∧
        (symbol.file? = none → symbol.Unambiguous r) ∧
        ∀ name, symbol.file? = some name → r.includesNamed name = [] ∨ Path.IsStraight name →
          symbol.isDefinedIn r f.uri = true) ∧
      ∀ p : Project, p.registry = r → (∀ g ∈ r.files, g.uri.isFile = true) →
        ∀ result, p.result? = some result → (∀ symbol ∈ result.symbols, symbol.Unambiguous r) →
          ∀ g ∈ r.files, p.Places result g := by
  have started := ((Registry.lasting_track tracking).perform history).started
  constructor
  · intro symbol f found
    obtain ⟨entry, sound⟩ :=
      started.exists_sound (Registry.uri_mem_uris (Registry.mem_of_named? found))
    refine ⟨Symbol.unambiguous_iff sound found, fun unnamed name given => ?_,
      fun name named spelled => ?_⟩
    · cases unnamed.symm.trans given
    · rw [Symbol.isDefinedIn_of_some named]
      rw [Symbol.definingFile?, named] at found
      exact Registry.endsWithPath_of_named? sound found spelled
  · rintro p rfl files result latest only g among
    obtain ⟨entry, sound⟩ := started.exists_sound (Registry.uri_mem_uris among)
    refine ⟨Project.documentSymbols_eq sound files latest only among, ?_, ?_⟩
    · intro symbol member range known
      exact Symbol.definition?_eq_some_iff sound files (only symbol member) known among
    · intro symbol member
      exact Project.occurrencesIn_eq sound (only symbol member) among

/-- The symbol of a file in a directory is listed there, as the search finds it. -/
theorem climbing_symbol_placed : ∃ g ∈ climbingFiles.files, g.uri = .ofPath "/p/d/b".toList ∧
    (climbingProject "d/b").Places { symbols? := some [symbolIn "d/b"] } g := by
  have still : climbingFiles.perform [] = some climbingFiles := rfl
  obtain ⟨exact, places⟩ := defined_in_defining_file track_climbing still
  obtain ⟨f, found⟩ : ∃ f, (symbolIn "d/b").definingFile? climbingFiles = some f :=
    Option.isSome_iff_exists.mp (by decide +kernel)
  have only : (symbolIn "d/b").Unambiguous climbingFiles := by
    have agree : ∀ g ∈ climbingFiles.files,
        (symbolIn "d/b").isDefinedIn climbingFiles g.uri = true ↔
        (symbolIn "d/b").definingFile? climbingFiles = some g := by
      decide +kernel
    rw [(exact _ f found).1]
    intro g among
    rw [agree g among, found, Option.some.injEq, eq_comm]
  have here : ((symbolIn "d/b").definingFile? climbingFiles).map (·.uri) =
      some (.ofPath "/p/d/b".toList) := by
    decide +kernel
  have member : f ∈ climbingFiles.files := Registry.mem_of_named? found
  refine ⟨f, member, by simpa [found] using here, ?_⟩
  refine places (climbingProject "d/b") rfl (by decide +kernel) _ rfl ?_ f member
  simpa [AssemblyResult.symbols] using only

/-- A header that is included with `..` does not define its own symbols, so they are found by a
search but are not among the symbols of the header; and what one of two files of one name
defines, the other defines too. -/
theorem climbing_symbol_misplaced :
    Registry.track 0 [(climbing, climbingText)] = some climbingFiles ∧
      ((symbolIn "../h").definingFile? climbingFiles).map (·.uri) = some (.ofPath "/h".toList) ∧
      (symbolIn "../h").isDefinedIn climbingFiles (.ofPath "/h".toList) = false ∧
      (workspaceSymbols [climbingProject "../h"] []).map (·.location.url) =
        [(Uri.ofPath "/h".toList).text] ∧
      (climbingProject "../h").documentSymbols (.ofPath "/h".toList) = [] ∧
      ((symbolIn "b").definingFile? climbingFiles).map (·.uri) = some (.ofPath "/p/b".toList) ∧
      .ofPath "/p/d/b".toList ∈ climbingFiles.uris ∧
      (symbolIn "b").isDefinedIn climbingFiles (.ofPath "/p/d/b".toList) = true := by
  refine ⟨track_climbing, ?_, ?_, ?_, ?_, ?_, ?_, ?_⟩ <;> decide +kernel

end defining

end AsmServer
