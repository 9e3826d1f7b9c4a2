import AsmServer.Proofs.Answer.Attribution
import AsmServer.Proofs.Answer.Edits
import AsmServer.Proofs.Code.Cursor
import AsmServer.Proofs.Workspace.Lone
import AsmServer.Proofs.Workspace.Results

/-!
# Renaming a symbol

A rename edits every file that has the name in its code, each in one document edit. Its edits
rename in every line and leave everything else as it is. If the new name was in no code before,
the rename back restores the texts.
-/

namespace AsmServer

open Code TextEdit

/-- The edits of a file among those of all documents. -/
def editsOf (documents : List DocumentEdit) (f : TrackedFile) : List TextEdit :=
  (documents.filter (f.uri.url? = some ·.url)).flatMap (·.edits)

/-- The text of a file after these edits. -/
def TrackedFile.textAfter? (f : TrackedFile) (documents : List DocumentEdit) : Option Text :=
  f.contents?.map (textAfter (editsOf documents f))

/-- The edits that rename in a file, if there are any. -/
def fileEdit? (name newName : Text) (f : TrackedFile) : Option DocumentEdit :=
  if editsFrom name newName 0 f.lines = [] then none
  else some ⟨f.uri.text, f.documentVersion?, editsFrom name newName 0 f.lines⟩

namespace Project

variable {p : Project} {symbol : Symbol} {newName : Text} {uri : Uri} {position : Position}
  {f : TrackedFile}

/-- The symbol under a cursor has the name that is there. -/
theorem isName_of_symbolAt? (found : p.symbolAt? uri position = some symbol) :
    IsName symbol.name := by
  obtain ⟨_, _, word, -, -, here, same⟩ := exists_word_of_symbolAt? found
  exact same ▸ isName_of_identifierAt? here

theorem renameIn?_eq (file : f.uri.isFile = true) (proper : IsName symbol.name) :
    renameIn? newName f (p.occurrencesIn symbol f) = fileEdit? symbol.name newName f := by
  have edits := map_filter_occurrencesFrom proper (symbol.isDefinedIn p.registry f.uri) newName 0
    f.lines
  unfold renameIn? fileEdit?
  rw [occurrencesIn, Code.occurrences, edits, Uri.url?_of_isFile file]
  by_cases unused : editsFrom symbol.name newName 0 f.lines = [] <;> simp [unused]

theorem eq_of_fileEdit? {name : Text} {document : DocumentEdit}
    (made : fileEdit? name newName f = some document) :
    document = ⟨f.uri.text, f.documentVersion?, editsFrom name newName 0 f.lines⟩ := by
  unfold fileEdit? at made
  split at made
  · cases made
  · exact (Option.some.inj made).symm

/-- A rename edits each file at most once. -/
theorem rename?_eq (files : ∀ f ∈ p.registry.files, f.uri.isFile = true)
    (found : p.symbolAt? uri position = some symbol) :
    p.rename? uri position newName =
      some (p.registry.files.filterMap (fileEdit? symbol.name newName)) := by
  have each : ∀ f ∈ p.registry.files,
      (if f.contents?.isSome then renameIn? newName f (p.occurrencesIn symbol f) else none) =
        fileEdit? symbol.name newName f := by
    intro f member
    split
    · exact renameIn?_eq (files f member) (isName_of_symbolAt? found)
    · next unloaded =>
      have empty : f.lines = [] := by
        simp [TrackedFile.lines, Option.not_isSome_iff_eq_none.mp unloaded]
      simp [fileEdit?, empty, editsFrom]
  rw [rename?, found, Option.map_some, occurrences, List.filterMap_map, List.filterMap_filter]
  exact congrArg some (List.filterMap_congr each)

/-- The project is in a workspace after some history, and its files have file URIs. -/
structure Arises (p : Project) : Prop where
  history : ∃ assembler delay operations w,
    (Workspace.start assembler delay).perform operations = some w ∧ p ∈ w.projects
  files : ∀ f ∈ p.registry.files, f.uri.isFile = true

theorem Arises.once (h : p.Arises) : p.registry.uris.Nodup := by
  obtain ⟨_, _, _, _, history, member⟩ := h.history
  obtain ⟨_, sound⟩ := ((Workspace.lawful_perform history).1 p member).sound
  exact sound.once

/-- The edits put `newName` for `name` in the code of the project, and change nothing else. -/
structure Renames (p : Project) (name newName : Text) (documents : List DocumentEdit) : Prop where
  /-- No document is edited twice. -/
  once : (documents.map (·.url)).Nodup
  /-- Each document is a tracked file. Its edits are in order and apart, and each replaces the
  name on one of its lines. -/
  placed : ∀ document ∈ documents, ∃ f ∈ p.registry.files, document.url = f.uri.text ∧
    document.version? = f.documentVersion? ∧ document.edits.Pairwise Before ∧
    ∀ edit ∈ document.edits, edit.Replaces name newName f.lines
  /-- The edits rename in every line of every file. -/
  lines : ∀ f ∈ p.registry.files,
    applyAll (editsOf documents f) f.lines = f.lines.map (renamed name newName)
  /-- They leave the ends of the lines. -/
  text : ∀ f ∈ p.registry.files,
    f.textAfter? documents = f.contents?.map (renamedText name newName)

variable {name : Text} {files : List TrackedFile}

theorem editsOf_of_ne (file : f.uri.isFile = true) (others : ∀ g ∈ files, g.uri ≠ f.uri) :
    editsOf (files.filterMap (fileEdit? name newName)) f = [] := by
  have none : (files.filterMap (fileEdit? name newName)).filter (f.uri.url? = some ·.url) = [] := by
    refine List.filter_eq_nil_iff.mpr fun document listed => ?_
    obtain ⟨g, member, made⟩ := List.mem_filterMap.mp listed
    have differs : f.uri.text ≠ g.uri.text :=
      fun same => others g member (congrArg Uri.mk same.symm)
    simp [Uri.url?_of_isFile file, eq_of_fileEdit? made, differs]
  rw [editsOf, none, List.flatMap_nil]

theorem editsOf_append (first second : List DocumentEdit) :
    editsOf (first ++ second) f = editsOf first f ++ editsOf second f := by
  simp [editsOf]

/-- The edits of a file are those that are made for it. -/
theorem editsOf_of_mem (file : f.uri.isFile = true) (once : (files.map (·.uri)).Nodup)
    (member : f ∈ files) :
    editsOf (files.filterMap (fileEdit? name newName)) f = editsFrom name newName 0 f.lines := by
  obtain ⟨before, behind, rfl⟩ := List.append_of_mem member
  have apart : ∀ g ∈ before ++ behind, g.uri ≠ f.uri := by
    rw [List.map_append, List.map_cons] at once
    have absent : f.uri ∉ before.map (·.uri) ++ behind.map (·.uri) :=
      (List.nodup_cons.mp (List.nodup_middle.mp once)).1
    rintro g listed same
    refine absent ?_
    rw [← List.map_append, ← same]
    exact List.mem_map_of_mem listed
  have own : editsOf ([f].filterMap (fileEdit? name newName)) f =
      editsFrom name newName 0 f.lines := by
    by_cases unused : editsFrom name newName 0 f.lines = []
    · simp [fileEdit?, unused, editsOf]
    · simp [fileEdit?, unused, editsOf, Uri.url?_of_isFile file]
  rw [List.filterMap_append, ← List.singleton_append, List.filterMap_append, editsOf_append,
    editsOf_append, own,
    editsOf_of_ne file fun g listed => apart g (List.mem_append_left _ listed),
    editsOf_of_ne file fun g listed => apart g (List.mem_append_right _ listed),
    List.nil_append, List.append_nil]

/-- The edits of all files rename. -/
theorem Arises.renames (h : p.Arises) (proper : IsName name) (newName : Text) :
    p.Renames name newName (p.registry.files.filterMap (fileEdit? name newName)) := by
  have own (f : TrackedFile) (member : f ∈ p.registry.files) :
      editsOf (p.registry.files.filterMap (fileEdit? name newName)) f =
        editsFrom name newName 0 f.lines :=
    editsOf_of_mem (h.files f member) h.once member
  refine ⟨?_, fun document listed => ?_, fun f member => ?_, fun f member => ?_⟩
  · refine List.pairwise_map.mpr (List.pairwise_filterMap.mpr ?_)
    refine (List.pairwise_map.mp h.once).imp fun apart document made document' made' same => ?_
    rw [eq_of_fileEdit? made, eq_of_fileEdit? made'] at same
    exact apart (congrArg Uri.mk same)
  · obtain ⟨f, member, made⟩ := List.mem_filterMap.mp listed
    obtain rfl := eq_of_fileEdit? made
    exact ⟨f, member, rfl, rfl, pairwise_editsFrom name newName [] f.lines,
      fun edit here => (replaces_of_mem_editsFrom [] here).1⟩
  · rw [own f member]
    exact applyAll_editsFrom name newName [] f.lines
  · rw [TrackedFile.textAfter?, own f member]
    cases loaded : f.contents? with
    | none => rfl
    | some text =>
      have lines : f.lines = Text.lines text := by simp [TrackedFile.lines, loaded]
      rw [lines, Option.map_some, Option.map_some, textAfter_editsFrom proper]

/-- A rename at any cursor on a symbol puts the new name for every token of code that is the old
name, and changes nothing else. Its edits are in order and apart, each on one line, and there is
one document edit for each file that needs any. If the new name was no token of code, the edits
of the rename back, made for the texts renamed, restore every text. -/
theorem rename_exact_and_reversible (arises : p.Arises)
    (found : p.symbolAt? uri position = some symbol) (proper : IsName newName) :
    ∃ documents, p.rename? uri position newName = some documents ∧
      p.Renames symbol.name newName documents ∧
      ∀ (p' : Project) (uri' : Uri) (position' : Position) (symbol' : Symbol), p'.Arises →
        p'.symbolAt? uri' position' = some symbol' → symbol'.name = newName →
        ∃ back, p'.rename? uri' position' symbol.name = some back ∧
          ∀ f ∈ p.registry.files, ∀ f' ∈ p'.registry.files,
            f'.contents? = f.textAfter? documents →
            (∀ line ∈ f.lines, newName ∉ tokens (code line)) →
            f'.textAfter? back = f.contents? := by
  have old : IsName symbol.name := isName_of_symbolAt? found
  have renames := arises.renames old newName
  refine ⟨_, rename?_eq arises.files found, renames, ?_⟩
  rintro p' uri' position' symbol' arises' found' rfl
  refine ⟨_, rename?_eq arises'.files found', fun f member f' member' edited fresh => ?_⟩
  rw [(arises'.renames proper symbol.name).text f' member', edited, renames.text f member]
  cases loaded : f.contents? with
  | none => rfl
  | some text =>
    have lines : f.lines = Text.lines text := by simp [TrackedFile.lines, loaded]
    rw [lines] at fresh
    rw [Option.map_some, Option.map_some, renamedText_renamedText old proper fresh]

section twoSymbols

/-- Two symbols are known. -/
def twoSymbols : AssemblyResult := { symbols? := some [{ name := ['k'] }, { name := ['j'] }] }

/-- They are known whatever the text is. -/
def knowing : Assembler := .ofFunction fun _ => twoSymbols

/-- A document with this text. -/
def single (text : String) : Document := ⟨.ofPath "/m".toList, 1, text.toList⟩

/-- The registry of this document alone. -/
def singleFile (text : String) : Registry :=
  Registry.queued {} 3 ((Registry.blank 0).add (single text).uri) (.editor (single text))

theorem exists_arises {text : String}
    (added : (Registry.blank 0).addDocument {} (single text) = some (singleFile text))
    (asked : (singleFile text).drained.request.toOption.isSome = true)
    (files : ∀ f ∈ (singleFile text).drained.files, f.uri.isFile = true) :
    ∃ p : Project, p.Arises ∧ p.registry = (singleFile text).drained ∧
      p.result? = some twoSymbols := by
  obtain ⟨w, opened, p, projects, registry, -⟩ :
      ∃ w, (Workspace.Operation.change (single text)).apply {} (Workspace.start knowing 0)
        = some w ∧
        w.Lone (singleFile text).drained :=
    Workspace.lone_change added
  have history : (Workspace.start knowing 0).perform [({}, .change (single text))] = some w := by
    simp [Workspace.perform, opened]
  have member : p ∈ w.projects := by simp [projects]
  have pure : knowing.Pure := fun _ _ => rfl
  have fresh := (Workspace.fresh_start pure 0).perform (by simp [Workspace.Operation.Pure]) history
  have fileUris : ∀ f ∈ p.registry.files, f.uri.isFile = true := by
    rwa [registry]
  refine ⟨p, ⟨⟨_, _, _, _, history, member⟩, fileUris⟩, registry, ?_⟩
  cases request : p.request with
  | ok q => exact fresh.current p member q request
  | error error =>
    rw [← registry, ← request_eq, request] at asked
    cases asked

/-- A rename from `k` to `j` spares the comment and what is glued to further characters, and the
rename back restores the text. -/
theorem rename_of_two_symbols : ∃ (p p' : Project) (documents back : List DocumentEdit)
    (f f' : TrackedFile), p.Arises ∧ p'.Arises ∧ f ∈ p.registry.files ∧ f' ∈ p'.registry.files ∧
      p.rename? (single "").uri ⟨0, 0⟩ ['j'] = some documents ∧
      p'.rename? (single "").uri ⟨0, 0⟩ ['k'] = some back ∧
      f.textAfter? documents = some "j kk j ; k\r\n j".toList ∧
      f'.contents? = f.textAfter? documents ∧
      f'.textAfter? back = some "k kk k ; k\r\n k".toList := by
  obtain ⟨p, arises, registry, result⟩ : ∃ p : Project, p.Arises ∧
      p.registry = (singleFile "k kk k ; k\r\n k").drained ∧ p.result? = some twoSymbols :=
    exists_arises (Registry.updateFromEditor_queued (by decide +kernel) (by decide +kernel))
      (by decide +kernel) (by decide +kernel)
  obtain ⟨p', arises', registry', result'⟩ : ∃ p' : Project, p'.Arises ∧
      p'.registry = (singleFile "j kk j ; k\r\n j").drained ∧ p'.result? = some twoSymbols :=
    exists_arises (Registry.updateFromEditor_queued (by decide +kernel) (by decide +kernel))
      (by decide +kernel) (by decide +kernel)
  have found : p.symbolAt? (single "").uri ⟨0, 0⟩ = some { name := ['k'] } := by
    simp only [symbolAt?, registry, result]
    decide +kernel
  have found' : p'.symbolAt? (single "").uri ⟨0, 0⟩ = some { name := ['j'] } := by
    simp only [symbolAt?, registry', result']
    decide +kernel
  obtain ⟨f, member, loaded⟩ : ∃ f ∈ p.registry.files,
      f.contents? = some "k kk k ; k\r\n k".toList := by
    rw [registry]
    decide +kernel
  obtain ⟨f', member', loaded'⟩ : ∃ f' ∈ p'.registry.files,
      f'.contents? = some "j kk j ; k\r\n j".toList := by
    rw [registry']
    decide +kernel
  obtain ⟨documents, renamed, renames, reversible⟩ :=
    rename_exact_and_reversible arises found (show IsName ['j'] by decide)
  obtain ⟨back, renamed', restores⟩ := reversible p' _ _ _ arises' found' rfl
  have edited : f.textAfter? documents = some "j kk j ; k\r\n j".toList := by
    rw [renames.text f member, loaded]
    decide +kernel
  have absent : ∀ line ∈ f.lines, ['j'] ∉ tokens (code line) := by
    have lines : f.lines = Text.lines "k kk k ; k\r\n k".toList := by
      simp only [TrackedFile.lines, loaded, Option.map_some, Option.getD_some]
    rw [lines]
    decide +kernel
  have same : f'.contents? = f.textAfter? documents := loaded'.trans edited.symm
  exact ⟨p, p', documents, back, f, f', arises, arises', member, member', renamed, renamed', edited,
    same, (restores f member f' member' same absent).trans loaded⟩

end twoSymbols

end Project

end AsmServer
