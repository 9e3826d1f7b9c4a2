import AsmServer.Assembly.SymbolTable
import AsmServer.Proofs.Offsets.Names
import AsmServer.Uri.Basic

/-!
# Reports and URIs by byte offsets

Listings, symbol dumps and file URIs as a program reads them that works on byte offsets: fields of
a listed line are cut at the ends of runs of characters, the scope of a local label up to its dot,
and a drive letter is looked for among the first three bytes of a path.

Together with what is read from source lines these are all the places where the server cuts a text
at an offset. None of them fails.
-/

namespace AsmServer

namespace Offsets

variable {path name scope : Text} {letter : Char}

/-! ## Listings -/

/-- A listed line, where `afterAddress` is what stands behind the address. -/
def listed (file? : Option Text) (number address : Nat) (afterAddress : Text) : ListingLine :=
  let codeText := (Text.takeBytes? (Listing.codeField - 1) afterAddress).getD afterAddress
  let bytes := (Text.words codeText).filterMap (Text.readNat? 16 Text.bound8)
  let source := (Text.dropBytes? Listing.codeField afterAddress).getD []
  let (code, comment) := Listing.splitComment source
  { number, file?, address
    bytes? := if bytes = [] then none else some bytes
    raw := Text.trimEnd source
    comment? := Listing.nonempty? (Listing.commentOf comment)
    command? := Listing.nonempty? (Listing.commandOf (Text.trimEnd code)) }

/-- Read one listed line of the file `file?`. -/
def lineOf? (file? : Option Text) (line : Text) : Option (Option ListingLine) := do
  let trimmed := Text.trimStart line
  let digits := Text.byteSize (trimmed.takeWhile Char.isDigit)
  if digits = 0 then return none
  else
    match Text.readNat? 10 Text.bound32 (← Text.takeBytes? digits trimmed) with
    | none => return none
    | some number =>
      let rest := (Text.dropBytes? (digits + 2) trimmed).getD []
      let stop := Text.byteSize (rest.takeWhile (!Text.isBlank ·))
      let address := (Text.readNat? 16 Text.bound32 (← Text.takeBytes? stop rest)).getD 0
      return some (listed file? number address ((Text.dropBytes? (stop + 1) rest).getD []))

/-- Read listed lines, the first of which belong to the file `file?`. -/
def linesFrom? (entry : Text) (file? : Option Text) : List Text → Option (List ListingLine)
  | [] => some []
  | line :: rest =>
    match Text.afterLead? Listing.headerLead line with
    | some header => linesFrom? entry (Listing.headerFile? entry header) rest
    | none => do return (← lineOf? file? line).toList ++ (← linesFrom? entry file? rest)

/-- Read a listing, where `entry` is the name of the entry file. -/
def listing? (entry text : Text) : Option (List ListingLine) :=
  linesFrom? entry none (Text.streamLines text)

/-- Up to the end of a run the text is cut, and what follows is found behind it. -/
theorem takeBytes?_takeWhile (p : Char → Bool) (t : Text) :
    Text.takeBytes? (Text.byteSize (t.takeWhile p)) t = some (t.takeWhile p) :=
  Text.takeBytes?_of_prefix (List.takeWhile_prefix p)

theorem dropBytes?_takeWhile (p : Char → Bool) (t : Text) (n : Nat) :
    Text.dropBytes? (Text.byteSize (t.takeWhile p) + n) t = Text.dropBytes? n (t.dropWhile p) := by
  have parts := Text.dropBytes?_byteSize_add (t.takeWhile p) (t.dropWhile p) n
  rwa [List.takeWhile_append_dropWhile] at parts

@[simp] theorem lineOf?_eq (file? : Option Text) (line : Text) :
    lineOf? file? line = some (Listing.lineOf? file? line) := by
  simp only [lineOf?, Listing.lineOf?, takeBytes?_takeWhile, dropBytes?_takeWhile,
    Text.byteSize_eq_zero_iff, Option.bind_eq_bind, Option.bind_some]
  by_cases bare : (Text.trimStart line).takeWhile Char.isDigit = []
  · rw [if_pos bare, bare]
    rfl
  · rw [if_neg bare]
    cases Text.readNat? 10 Text.bound32 ((Text.trimStart line).takeWhile Char.isDigit) <;> rfl

theorem linesFrom?_eq (entry : Text) (file? : Option Text) (lines : List Text) :
    linesFrom? entry file? lines = some (Listing.linesFrom entry file? lines) := by
  induction lines generalizing file? with
  | nil => rfl
  | cons line rest ih =>
    rw [linesFrom?, Listing.linesFrom]
    cases Text.afterLead? Listing.headerLead line with
    | some header => exact ih _
    | none =>
      dsimp only
      rw [lineOf?_eq, ih]
      rfl

theorem listing?_eq (entry text : Text) : listing? entry text = some (Listing.parse entry text) :=
  linesFrom?_eq entry none (Text.streamLines text)

/-! ## Symbol dumps -/

/-- The name as the source writes it: without a scope before its first dot. -/
def sourceName? (name : Text) : Option Text :=
  match Text.offsetOf? ['.'] name with
  | none => some name
  | some dot =>
    if 0 < dot then do
      let scope ← Text.takeBytes? dot name
      if (Utf8.encode scope).all (Char.isDigit <| Utf8.ofByte ·) then Text.dropBytes? dot name
      else some name
    else some name

/-- Read one line of a dump; rulers and empty lines are none. -/
def symbolOfLine? (line : Text) : Option (Option Symbol) :=
  if (Text.afterLead? "---".toList line).isSome then some none
  else
    match Text.words line with
    | [] => some none
    | name :: fields => do
      return some {
        name := ← sourceName? name
        value := (Text.readInt? 16 Text.bound63 (fields.head?.getD [])).getD 0
        wasReferenced := fields.tail.any ('R' ∈ ·) }

/-- Read a dump. -/
def symbols? (text : Text) : Option (List Symbol) := do
  return (← (Text.streamLines text).mapM symbolOfLine?).filterMap id

theorem sourceName_of_scope (some : scope ≠ []) (digits : ∀ c ∈ scope, c.isDigit = true)
    (rest : Text) : SymbolTable.sourceName (scope ++ '.' :: rest) = '.' :: rest := by
  have front : (scope ++ '.' :: rest).takeWhile Char.isDigit = scope := by
    rw [List.takeWhile_append_of_pos digits]
    simp
  have behind : (scope ++ '.' :: rest).dropWhile Char.isDigit = '.' :: rest := by
    rw [List.dropWhile_append_of_pos digits]
    simp
  rw [SymbolTable.sourceName, front, behind]
  cases scope with
  | nil => exact absurd rfl some
  | cons c scope => rfl

/-- A name without a scope stays. -/
theorem sourceName_of_no_scope (free : ∀ scope rest, name = scope ++ '.' :: rest → scope ≠ [] →
    ¬∀ c ∈ scope, c.isDigit = true) : SymbolTable.sourceName name = name := by
  have parts := List.takeWhile_append_dropWhile (p := Char.isDigit) (l := name)
  rw [SymbolTable.sourceName]
  split
  · next digit digits rest front behind =>
    rw [front, behind] at parts
    refine absurd (fun c member => ?_) (free _ rest parts.symm (List.cons_ne_nil _ _))
    rw [← front] at member
    exact List.mem_takeWhile_imp member
  · rfl

theorem isDigit_ascii {c : Char} (digit : c.isDigit = true) : c.toNat < 0x80 :=
  Utf8.isAlphanum_ascii (Bool.or_eq_true_iff.mpr (.inr digit))

/-- The bytes of a text are digits if its characters are. -/
theorem all_encode_iff (t : Text) :
    (Utf8.encode t).all (Char.isDigit <| Utf8.ofByte ·) = true ↔ ∀ c ∈ t, c.isDigit = true := by
  have bytewise : Utf8.Bytewise Char.isDigit := Utf8.bytewise_of_ascii fun _ => isDigit_ascii
  rw [List.all_eq_true]
  constructor
  · intro all c member
    obtain ⟨b, more, bytes⟩ := Utf8.exists_encodeChar c
    have first : b ∈ String.utf8EncodeChar c := by simp [bytes]
    rw [← bytewise c b first]
    exact all b (List.mem_flatMap.mpr ⟨c, member, first⟩)
  · intro all b member
    obtain ⟨c, inText, first⟩ := List.mem_flatMap.mp member
    exact (bytewise c b first).trans (all c inText)

@[simp] theorem sourceName?_eq (name : Text) :
    sourceName? name = some (SymbolTable.sourceName name) := by
  rw [sourceName?, Text.offsetOf?]
  cases found : Text.cutAt? ['.'] name with
  | none =>
    have dotless := Text.cutAt?_eq_none_iff.mp found
    refine congrArg some (sourceName_of_no_scope fun scope rest whole _ _ => dotless ?_).symm
    exact ⟨scope, rest, by simp [whole]⟩
  | some parts =>
    obtain ⟨before, after⟩ := parts
    obtain ⟨whole, early⟩ := Text.cutAt?_singleton_eq_some_iff.mp found
    -- A scope of digits has no dot, so it is all that stands before the first one.
    have inFront : ∀ scope rest, name = scope ++ '.' :: rest → (∀ c ∈ scope, c.isDigit = true) →
        scope = before := by
      intro scope rest split digits
      refine (Text.append_cons_inj_of_count (split.symm.trans whole) ?_).1
      rw [List.count_eq_zero.mpr early,
        List.count_eq_zero.mpr fun member => absurd (digits _ member) (by decide)]
    have upTo := Text.takeBytes?_byteSize_append before ('.' :: after)
    have behind := Text.dropBytes?_byteSize_append before ('.' :: after)
    rw [← whole] at upTo behind
    simp only [Option.map_some, upTo, behind, Option.bind_eq_bind, Option.bind_some]
    by_cases scope : 0 < Text.byteSize before ∧
        (Utf8.encode before).all (Char.isDigit <| Utf8.ofByte ·) = true
    · obtain ⟨dot, digits⟩ := scope
      have some : before ≠ [] := fun empty => by simp [empty] at dot
      rw [if_pos dot, if_pos digits, whole,
        sourceName_of_scope some ((all_encode_iff before).mp digits)]
    · have stays : SymbolTable.sourceName name = name := by
        refine sourceName_of_no_scope fun scope' rest split some digits => scope ?_
        obtain rfl := inFront scope' rest split digits
        exact ⟨Nat.pos_of_ne_zero (Text.byteSize_eq_zero_iff.not.mpr some),
          (all_encode_iff _).mpr digits⟩
      rw [stays]
      split_ifs with dot digits
      · exact absurd ⟨dot, digits⟩ scope
      · rfl
      · rfl

@[simp] theorem symbolOfLine?_eq (line : Text) :
    symbolOfLine? line = some (SymbolTable.symbolOfLine? line) := by
  rw [symbolOfLine?, SymbolTable.symbolOfLine?]
  split
  · rfl
  · cases Text.words line with
    | nil => rfl
    | cons name fields =>
      dsimp only
      rw [sourceName?_eq]
      rfl

theorem symbols?_eq (text : Text) : symbols? text = some (SymbolTable.parse text) := by
  rw [symbols?, mapM_eq_some fun line _ => symbolOfLine?_eq line, Option.bind_eq_bind,
    Option.bind_some, List.filterMap_map]
  rfl

/-! ## URIs -/

/-- Whether a rooted path starts with a drive letter and a colon, of three bytes in all. -/
def hasDrive? (path : Text) : Option Bool := do
  let bytes := Utf8.encode path
  if bytes.length < 3 then return false
  else if ← Utf8.at? (· = '/') bytes 0 then
    if ← Utf8.at? Char.isAlpha bytes 1 then Utf8.at? (· = ':') bytes 2
    else return false
  else return false

/-- Lower-case the drive letter of a rooted path. -/
def lowerDrive? (path : Text) : Option Text := do
  if ← hasDrive? path then
    return (← Text.takeBytes? 1 path) ++ Text.lower (← Text.slice? 1 2 path) ++
      (← Text.dropBytes? 2 path)
  else return path

/-- The canonical URI of a path. -/
def uriOfPath? (path : Text) : Option Uri := do
  return ⟨Uri.fileScheme ++ Percent.encode (← lowerDrive? (Uri.collapse (Text.slashed path)))⟩

/-- The canonical URI of any spelling. -/
def uriOfText? (raw : Text) : Option Uri :=
  let decoded := Percent.decode raw
  match Uri.filePath? decoded with
  | some path => uriOfPath? path
  | none => some ⟨Percent.encode decoded⟩

/-- The path to open the file by: no slash stands before a drive letter. -/
def platformPath? (uri : Uri) : Option (Except UriError Text) :=
  match uri.decodedPath with
  | .error problem => some (.error problem)
  | .ok path => do
    if ← hasDrive? path then return .ok (← Text.dropBytes? 1 path)
    else return .ok path

theorem hasDrive_iff : Uri.hasDrive path = true ↔
    ∃ letter rest, letter.isAlpha = true ∧ path = '/' :: letter :: ':' :: rest := by
  unfold Uri.hasDrive
  split
  · simp
  · next other => simpa using fun letter alpha rest => other letter rest

theorem isAlpha_ascii {c : Char} (alpha : c.isAlpha = true) : c.toNat < 0x80 :=
  Utf8.isAlphanum_ascii (Bool.or_eq_true_iff.mpr (.inl alpha))

theorem bytewise_isAlpha : Utf8.Bytewise Char.isAlpha :=
  Utf8.bytewise_of_ascii fun _ => isAlpha_ascii

theorem byteSize_drive (alpha : letter.isAlpha = true) (rest : Text) :
    Text.byteSize ('/' :: letter :: rest) = Text.byteSize rest + 2 := by
  have slash : ('/' : Char).utf8Size = 1 := rfl
  rw [Text.byteSize_cons, Text.byteSize_cons, slash, Text.utf8Size_of_ascii (isAlpha_ascii alpha)]
  omega

theorem hasDrive_eq_false
    (other : ∀ letter rest, letter.isAlpha = true → path ≠ '/' :: letter :: ':' :: rest) :
    Uri.hasDrive path = false := by
  rw [Bool.eq_false_iff]
  intro drive
  obtain ⟨letter, rest, alpha, same⟩ := hasDrive_iff.mp drive
  exact other letter rest alpha same

theorem hasDrive_cons_cons (alpha : letter.isAlpha = true) (c : Char) (rest : Text) :
    Uri.hasDrive ('/' :: letter :: c :: rest) = decide (c = ':') := by
  by_cases colon : c = ':'
  · simp [colon, Uri.hasDrive, alpha]
  · have none : Uri.hasDrive ('/' :: letter :: c :: rest) = false :=
      hasDrive_eq_false fun _ _ _ same => colon (by simp_all)
    rw [none, decide_eq_false colon]

/-- The second byte is a character if the first is a slash, and the third is one if the second is a
letter. -/
@[simp] theorem hasDrive?_eq (path : Text) : hasDrive? path = some (Uri.hasDrive path) := by
  rw [hasDrive?, Option.bind_eq_bind, Utf8.length_encode]
  by_cases short : Text.byteSize path < 3
  · have none : Uri.hasDrive path = false := by
      refine hasDrive_eq_false ?_
      rintro letter rest alpha rfl
      have colon : (':' : Char).utf8Size = 1 := rfl
      rw [byteSize_drive alpha, Text.byteSize_cons, colon] at short
      omega
    rw [if_pos short, none]
    rfl
  rw [if_neg short]
  cases path with
  | nil => exact absurd (by decide) short
  | cons c rest =>
    have first : Utf8.at? (· = '/') (Utf8.encode (c :: rest)) 0 = some (decide (c = '/')) :=
      (bytewise_eq (by decide)).at?_byteSize [] (c :: rest)
    rw [first, Option.bind_some]
    by_cases root : c = '/'
    · subst root
      rw [if_pos (decide_eq_true rfl)]
      cases rest with
      | nil => exact absurd (by decide) short
      | cons letter rest =>
        have second : Utf8.at? Char.isAlpha (Utf8.encode ('/' :: letter :: rest)) 1 =
            some letter.isAlpha := bytewise_isAlpha.at?_byteSize ['/'] (letter :: rest)
        rw [second, Option.bind_some]
        by_cases alpha : letter.isAlpha = true
        · rw [if_pos alpha]
          cases rest with
          | nil => exact absurd (by rw [byteSize_drive alpha]; decide) short
          | cons d rest =>
            have third :=
              (bytewise_eq (c := ':') (by decide)).at?_byteSize ['/', letter] (d :: rest)
            rw [byteSize_drive alpha] at third
            exact third.trans (congrArg some (hasDrive_cons_cons alpha d rest).symm)
        · have none : Uri.hasDrive ('/' :: letter :: rest) = false := by
            refine hasDrive_eq_false ?_
            rintro letter' rest' alpha' same
            obtain ⟨rfl, -⟩ := by simpa using same
            exact alpha alpha'
          rw [if_neg alpha, none]
          rfl
    · have none : Uri.hasDrive (c :: rest) = false :=
        hasDrive_eq_false fun _ _ _ same => root (List.cons.inj same).1
      rw [if_neg (by simpa using root), none]
      rfl

theorem lowerDrive_of_no_drive (none : ¬Uri.hasDrive path = true) : Uri.lowerDrive path = path := by
  unfold Uri.lowerDrive
  split
  · next letter rest =>
    rw [hasDrive_iff] at none
    rw [if_neg fun alpha => none ⟨letter, rest, alpha, rfl⟩]
  · rfl

@[simp] theorem lowerDrive?_eq (path : Text) : lowerDrive? path = some (Uri.lowerDrive path) := by
  rw [lowerDrive?, hasDrive?_eq, Option.bind_eq_bind, Option.bind_some]
  by_cases drive : Uri.hasDrive path = true
  · rw [if_pos drive]
    obtain ⟨letter, rest, alpha, rfl⟩ := hasDrive_iff.mp drive
    have two : Text.byteSize ['/', letter] = 2 := byteSize_drive alpha []
    have slash : Text.takeBytes? 1 ('/' :: letter :: ':' :: rest) = some ['/'] :=
      Text.takeBytes?_byteSize_append ['/'] _
    have between := Text.slice?_byteSize ['/'] [letter] (':' :: rest)
    have behind := Text.dropBytes?_byteSize_append ['/', letter] (':' :: rest)
    have cut : Text.slice? 1 2 ('/' :: letter :: ':' :: rest) = some [letter] := two ▸ between
    rw [two] at behind
    rw [slash, cut]
    simp only [List.cons_append, List.nil_append] at behind
    simp [behind, Uri.lowerDrive, alpha, Text.lower]
  · rw [if_neg drive, lowerDrive_of_no_drive drive]
    rfl

theorem uriOfPath?_eq (path : Text) : uriOfPath? path = some (Uri.ofPath path) := by
  rw [uriOfPath?, lowerDrive?_eq]
  rfl

theorem uriOfText?_eq (raw : Text) : uriOfText? raw = some (Uri.ofText raw) := by
  rw [uriOfText?, Uri.ofText]
  cases Uri.filePath? (Percent.decode raw) with
  | none => rfl
  | some path => exact uriOfPath?_eq path

theorem platformPath?_eq (uri : Uri) : platformPath? uri = some uri.platformPath := by
  rw [platformPath?, Uri.platformPath]
  cases uri.decodedPath with
  | error problem => rfl
  | ok path =>
    dsimp only
    rw [hasDrive?_eq, Option.bind_eq_bind, Option.bind_some]
    by_cases drive : Uri.hasDrive path = true
    · obtain ⟨letter, rest, -, same⟩ := hasDrive_iff.mp drive
      have tail : Text.dropBytes? 1 path = some path.tail := by
        rw [same]
        exact Text.dropBytes?_byteSize_append ['/'] _
      rw [if_pos drive, tail]
      exact congrArg (fun answer : Text => some (Except.ok answer)) (if_pos drive).symm
    · rw [if_neg drive]
      exact congrArg (fun answer : Text => some (Except.ok answer)) (if_neg drive).symm

/-! ## All cuts -/

/-- Whatever lines, columns, symbols, messages, reports and URIs there are: no offset at which the
server cuts a text is out of order, past the end or inside a character, and no byte that it looks
at is missing. Each reading by offsets ends and gives what the reading in terms of texts gives. -/
theorem cuts_are_in_range :
    (∀ lines : List Text, includes? lines = some (Code.includes lines)) ∧
    (∀ lines : List Text, includeDirs? lines = some (Code.includeDirs lines)) ∧
    (∀ (line : Text) (column : Nat), identifierAt? line column =
      some ((Code.identifierAt? line column).map fun word =>
        (word.text, word.first, word.last))) ∧
    (∀ (symbol : Symbol) (definedHere : Bool) (lines : List Text),
      occurrences? symbol definedHere lines = some (Code.occurrences symbol definedHere lines)) ∧
    (∀ line message : Text, errorSpan? line message = some (Diagnostic.span line message)) ∧
    (∀ entry text : Text, listing? entry text = some (Listing.parse entry text)) ∧
    (∀ text : Text, symbols? text = some (SymbolTable.parse text)) ∧
    (∀ raw : Text, uriOfText? raw = some (Uri.ofText raw)) ∧
    ∀ uri : Uri, platformPath? uri = some uri.platformPath :=
  ⟨includes?_eq, includeDirs?_eq, identifierAt?_eq, occurrences?_eq, errorSpan?_eq, listing?_eq,
    symbols?_eq, uriOfText?_eq, platformPath?_eq⟩

end Offsets

end AsmServer
