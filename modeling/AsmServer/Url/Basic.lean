import AsmServer.Url.Host

/-!
# URLs

A URL has a scheme, may have a host with a user in front and a socket number behind,
and has a path. Reading settles the spelling: blanks around the text are dropped, tabs
and line breaks in it are passed over, the scheme and the domain are in lower case, the
usual socket of a scheme is left out, the segments `.` and `..` of a path are followed,
and characters that may not show are escaped.

Three kinds of schemes differ. Web schemes always have a domain, however many slashes
are in front of it. The file scheme has a host that is mostly empty. Both also take a
backslash for a slash. All others have a host only after two slashes, and without any
slash their path is text without segments. Two dots never lead out of a drive. A file on
a drive has no host, if the drive is the first segment of its path.
-/

namespace AsmServer

/-- The path of a URL. -/
inductive UrlPath where
  /-- Text without segments. -/
  | rootless (text : Text)
  /-- Segments, each after a slash. -/
  | rooted (segments : List Text)
  deriving DecidableEq, Repr

/-- A URL. -/
structure Url where
  /-- The scheme in lower case. -/
  scheme : Text
  user : Text := []
  password : Text := []
  host? : Option Url.Host := none
  /-- The number of a socket other than the usual one. -/
  socket? : Option Nat := none
  path : UrlPath
  query? : Option Text := none
  fragment? : Option Text := none
  deriving DecidableEq, Repr

namespace Url

/-! ## Gaps -/

/-- Whether the character is dropped around a URL. -/
def isMargin (c : Char) : Bool := c ≤ ' '

/-- The text without its margins. -/
def trimMargins (t : Text) : Text := Text.dropEndWhile isMargin (t.dropWhile isMargin)

/-- Whether the character is passed over in a URL. -/
def isGap (c : Char) : Bool := c ∈ ['\t', '\n', '\r']

/-- The text without its gaps. -/
def closeGaps (t : Text) : Text := t.filter (!isGap ·)

/-! ## Schemes -/

/-- Web schemes and their usual sockets. -/
def webSchemes : List (Text × Nat) :=
  [("http".toList, 80), ("https".toList, 443), ("ws".toList, 80), ("wss".toList, 443),
   ("ftp".toList, 21)]

/-- Whether URLs of the scheme always have a domain. -/
def isWeb (scheme : Text) : Bool := (webSchemes.lookup scheme).isSome

/-- Whether URLs of the scheme name files. -/
def isLocal (scheme : Text) : Bool := scheme = "file".toList

/-- Cut off the scheme: a letter, then letters, digits, `+`, `-` and `.`, then a
colon. -/
def splitScheme? (t : Text) : Option (Text × Text) := do
  let (before, rest) ← Text.cutAt? [':'] t
  let scheme := closeGaps before
  let first ← scheme.head?
  if first.isAlpha && scheme.all (fun c => c.isAlphanum || c ∈ ['+', '-', '.']) then
    some (scheme.lower, rest)
  else none

/-! ## Characters that show -/

/-- ASCII characters that print. -/
def isPrinting (c : Char) : Bool := ' ' ≤ c && c ≤ '~'

/-- Characters of a query. -/
def isQueryChar (isWebOrLocal : Bool) (c : Char) : Bool :=
  isPrinting c && c ∉ [' ', '\x22', '#', '<', '>'] && !(isWebOrLocal && c = '\'')

/-- Characters of a fragment. -/
def isFragmentChar (c : Char) : Bool := isPrinting c && c ∉ [' ', '\x22', '<', '>', '\x60']

/-- Characters of a segment. -/
def isSegmentChar (c : Char) : Bool :=
  isPrinting c && c ∉ [' ', '\x22', '#', '<', '>', '?', '\x60', '\x7b', '\x7d']

/-- Characters of a user or password. -/
def isUserChar (c : Char) : Bool :=
  isSegmentChar c && c ∉ ['/', ':', ';', '=', '@', '[', '\\', ']', '^', '|']

/-! ## Paths -/

/-- Whether the segment is a dot, which may be escaped. -/
def isDot (segment : Text) : Bool := ([".", "%2e"].map String.toList).contains segment.lower

/-- Whether the segment is two dots, which may be escaped. -/
def isTwoDots (segment : Text) : Bool :=
  (["..", ".%2e", "%2e.", "%2e%2e"].map String.toList).contains segment.lower

/-- Whether the segment is a drive: a letter and a colon, or a bar in its place. -/
def isDrive : Text → Bool
  | [letter, mark] => letter.isAlpha && mark ∈ [':', '|']
  | _ => false

/-- A drive with a colon and the name behind it, when only gaps part the two. -/
def partedDrive? (segment : Text) : Option (Text × Text) := do
  let (letter, after) ← Text.cutAt? [':'] segment
  let drive := closeGaps letter ++ [':']
  let name := closeGaps after
  if isDrive drive && after.head?.any isGap && name ≠ [] then some (drive, name) else none

/-- Climb from a place, given by the names down to it, the innermost first. A drive is
never left. -/
def climb (names : List Text) : List Text :=
  if names.head?.any isDrive then names else names.tail

/-- Spelling of a name in a path. -/
def nameText (name : Text) : Text := Percent.escapeUnless isSegmentChar name

/-- A walk down a path. -/
structure Walk where
  /-- The names down to the place that is reached, the innermost first. -/
  names : List Text := []
  /-- Whether the path of a file starts with a drive. -/
  isOnDrive : Bool := false
  deriving DecidableEq, Repr

namespace Walk

/-- Enter the first name of the path of a file. A drive is written with a colon. -/
def enterFile (walk : Walk) (segment : Text) : Walk :=
  let name := closeGaps segment
  if isDrive name then { names := [name.take 1 ++ [':']], isOnDrive := true }
  else
    match partedDrive? segment with
    | some (drive, name) => { walk with names := [nameText name, drive] }
    | none => { walk with names := [nameText name] }

/-- Follow one segment. -/
def step (isFile : Bool) (walk : Walk) (segment : Text) : Walk :=
  let name := closeGaps segment
  if isDot name then walk
  else if isTwoDots name then { walk with names := climb walk.names }
  else if isFile && walk.names.isEmpty then walk.enterFile segment
  else { walk with names := nameText name :: walk.names }

/-- Follow all segments. When the last is made of dots, the place reached is a
directory, which ends in an empty name. -/
def follow (isFile : Bool) (segments : List Text) : Walk :=
  let walk := segments.foldl (step isFile) {}
  if (segments.getLast?.map closeGaps).any fun name => isDot name || isTwoDots name then
    { walk with names := [] :: walk.names }
  else walk

/-- The segments of the path. -/
def segments (walk : Walk) : List Text := walk.names.reverse

/-- The segments of the path of a file, in front of which slashes do not repeat. -/
def fileSegments (walk : Walk) : List Text :=
  match walk.segments.dropWhile (· = []) with
  | [] => [[]]
  | segments => segments

end Walk

/-- The segments of a path with or without its slash in front. -/
def readSegments (t : Text) : List Text :=
  (Walk.follow false (((Text.afterLead? ['/'] t).getD t).splitOn '/')).segments

/-! ## Reading -/

/-- Cut off what follows a host: a colon and the number of a socket. -/
def splitSocket (t : Text) : Text × Option Text :=
  let (inside, outside) : Text × Text :=
    match t, Text.cutAt? [']'] t with
    | '[' :: _, some (inside, outside) => (inside ++ [']'], outside)
    | _, _ => ([], t)
  match Text.cutAt? [':'] outside with
  | some (before, socket) => (inside ++ before, some socket)
  | none => (t, none)

/-- Read the number of a socket, of 16 bits, unless it is absent or the usual one. A
backslash ends it, and starts what else is left. -/
def readSocket? (scheme t : Text) : Option (Option Nat × Text) := do
  let (digits, rest) := t.span Char.isDigit
  if rest.head?.any (· ≠ '\\') then none
  else if digits = [] then some (none, rest)
  else
    let n ← (Text.readDigits? 10 digits).filter (· < 0x10000)
    some (if webSchemes.lookup scheme = some n then none else some n, rest)

/-- Read what follows the slashes in front of a host. Only the host of a scheme that is not of
the web may be empty, and then there are neither a user nor a socket. A lone `@` without a
host may only end the URL. -/
def readAuthority? (scheme t : Text) (isEnd : Bool) : Option Url := do
  let (authority, path) := t.span (· ≠ '/')
  let (login, address) := (Text.cutAtLast? ['@'] authority).getD ([], authority)
  let (user, password) := (Text.cutAt? [':'] login).getD (login, [])
  let (name, socketText?) := splitSocket address
  if name = [] ∧ (isWeb scheme ∨ socketText?.isSome ∨ user ≠ [] ∨ password ≠ []) then none
  if authority = ['@'] ∧ !(isEnd && path.isEmpty) then none
  let host ← Host.read? (isWeb scheme) name
  let (socket?, rest) ← readSocket? scheme (socketText?.getD [])
  let path := rest ++ path
  some {
    scheme
    user := Percent.escapeUnless isUserChar user
    password := Percent.escapeUnless isUserChar password
    host? := some host
    socket?
    path := .rooted (if path = [] ∧ !isWeb scheme then [] else readSegments path) }

/-- The host of a file. This machine has no name. -/
def readFileHost? (t : Text) : Option Host :=
  if t = [] then some (.name [])
  else (Host.read? true t).map fun host =>
    if host = .name "localhost".toList then .name [] else host

/-- The host of a file and the segments of its path. After two slashes a drive is no host, and
without the name of a host the slash in front of the path counts as a segment. -/
def splitFile? (segments : List Text) : Option (Host × List Text) :=
  match segments.map closeGaps with
  | [] :: [] :: name :: _ =>
    if isDrive name then some (.name [], segments.drop 2)
    else (readFileHost? name).map fun host =>
      (host, if host = .name [] then [] :: segments.drop 3 else segments.drop 3)
  | [] :: _ => some (.name [], segments.drop 1)
  | _ => some (.name [], segments)

/-- Read what follows the file scheme. -/
def readFile? (scheme t : Text) : Option Url := do
  let (host, segments) ← splitFile? (t.splitOn '/')
  let walk := Walk.follow true segments
  some {
    scheme
    host? := some (if walk.isOnDrive then .name [] else host)
    path := .rooted walk.fileSegments }

/-- Read what follows the scheme, up to a query. It may be the end of the URL. -/
def readBody? (scheme t : Text) (isEnd : Bool) : Option Url :=
  if isLocal scheme then readFile? scheme (Text.slashed t)
  else
    let body := closeGaps t
    if isWeb scheme then
      readAuthority? scheme ((Text.slashed body).dropWhile (· = '/')) isEnd
    else
      match Text.afterLead? ['/', '/'] body with
      | some authority => readAuthority? scheme authority isEnd
      | none =>
        some {
          scheme
          path :=
            if body.head? = some '/' then .rooted (readSegments body)
            else .rootless (Percent.escapeUnless isPrinting body) }

/-- Cut at the first `mark`, if there is one. -/
def splitAtMark (mark : Char) (t : Text) : Text × Option Text :=
  match Text.cutAt? [mark] t with
  | some (before, after) => (before, some after)
  | none => (t, none)

/-- Read a URL. -/
def read? (t : Text) : Option Url := do
  let (scheme, rest) ← splitScheme? (trimMargins t)
  let (rest, fragment?) := splitAtMark '#' rest
  let (rest, query?) := splitAtMark '?' rest
  let url ← readBody? scheme rest (query?.isNone && fragment?.isNone)
  let isQuery := isQueryChar (isWeb scheme || isLocal scheme)
  some { url with
    query? := query?.map fun query => Percent.escapeUnless isQuery (closeGaps query)
    fragment? := fragment?.map fun fragment =>
      Percent.escapeUnless isFragmentChar (closeGaps fragment) }

/-! ## Spelling -/

/-- Spelling of the user and the password, if there are any. -/
def loginText (url : Url) : Text :=
  if url.user = [] ∧ url.password = [] then []
  else url.user ++ (if url.password = [] then [] else ':' :: url.password) ++ ['@']

/-- Spelling of the host and what stands around it. -/
def hostText (url : Url) : Text :=
  match url.host? with
  | none => []
  | some host =>
    "//".toList ++ url.loginText ++ host.text ++
      ((url.socket?.map fun n => ':' :: Text.ofNat 10 n).getD [])

/-- Spelling of the path. Without a host an empty first segment must not look like one. -/
def pathText (url : Url) : Text :=
  match url.path with
  | .rootless text => text
  | .rooted segments =>
    let text := segments.flatMap ('/' :: ·)
    if url.host? = none ∧ (Text.afterLead? ['/', '/'] text).isSome then '/' :: '.' :: text else text

/-- Spelling of a URL. -/
def text (url : Url) : Text :=
  url.scheme ++ ':' :: url.hostText ++ url.pathText ++
    ((url.query?.map ('?' :: ·)).getD []) ++ ((url.fragment?.map ('#' :: ·)).getD [])

end Url

end AsmServer
