/-
Daybook.Uri — documents as an editor names them.

An editor names a document by a URI. Of a URI matters whether it is one at
all, and which file it names: a URI without a host, or with this machine's,
names the file at its path. The scheme does not matter for that, but it
matters for reading: in the schemes of the web a backslash is a slash, and a
`file` URI may lack its slashes.

§1 schemes, §2 paths, §3 authorities, §4 URIs.
-/
import Daybook.Text.Blank
import Daybook.Uri.Host

namespace Daybook

/-- What is kept of a URI. -/
structure Uri where
  /-- The host; an empty one counts as none. -/
  host : Option Uri.Host
  /-- The segments of the path, if it starts with a slash. -/
  segments : Option (List (List Char))
deriving DecidableEq, Repr

namespace Uri

/-! ## §1 Schemes -/

/-- The kinds of schemes, which are read differently. -/
inductive Scheme where
  | file
  /-- Another scheme of the web, which has to have a host. -/
  | web
  | other
deriving DecidableEq, Repr

/-- Whether a backslash is a slash. -/
def Scheme.isSpecial : Scheme → Bool
  | file | web => true
  | other => false

/-- The kind of the scheme with this name, in lower case. -/
def Scheme.ofName (name : String) : Scheme :=
  if name = "file" then file
  else if name ∈ ["http", "https", "ws", "wss", "ftp"] then web
  else other

def isSchemeChar (c : Char) : Bool := c.isAlphanum || c = '+' || c = '-' || c = '.'

def scheme? (cs : List Char) : Option (Scheme × List Char) :=
  match cs.dropWhile isSchemeChar with
  | ':' :: rest =>
    if cs.head?.any Char.isAlpha then
      some (.ofName (String.ofList ((cs.takeWhile isSchemeChar).map Char.toLower)), rest)
    else none
  | _ => none

def isSlash (s : Scheme) (c : Char) : Bool := c = '/' || (s.isSpecial && c = '\\')

/-! ## §2 Paths -/

def isDrive : List Char → Bool
  | [letter, mark] => letter.isAlpha && (mark = ':' || mark = '|')
  | _ => false

def isHere (segment : List Char) : Bool :=
  String.ofList (segment.map Char.toLower) ∈ [".", "%2e"]

def isUp (segment : List Char) : Bool :=
  String.ofList (segment.map Char.toLower) ∈ ["..", ".%2e", "%2e.", "%2e%2e"]

/-- The segments, last one first, one level up; a drive is never left. -/
def goUp : List (List Char) → List (List Char)
  | [] => []
  | segment :: above => if isDrive segment then segment :: above else above

/-- Adds a segment to those before it, last one first. The path of a file has
no empty segments at its start, and a drive there is followed by a colon. -/
def addSegment (s : Scheme) (isLast : Bool) (segment : List Char) (before : List (List Char)) :
    List (List Char) :=
  if s = .file ∧ before = [] ∧ segment = [] ∧ !isLast then []
  else if s = .file ∧ before = [] ∧ isDrive segment then [segment.take 1 ++ [':']]
  else segment :: before

def follow (s : Scheme) (before : List (List Char)) : List (List Char) → List (List Char)
  | [] => before
  | segment :: rest =>
    let isLast := rest.isEmpty
    let walked := if isUp segment then goUp before else before
    let next :=
      if !isUp segment ∧ !isHere segment then addSegment s isLast segment before
      else if isLast then [] :: walked
      else walked
    follow s next rest

def pathSegments (s : Scheme) (path : List Char) : List (List Char) :=
  let path := path.map fun c => if isSlash s c then '/' else c
  (follow s [] (Text.pieces '/' path)).reverse

def beforeQuery (cs : List Char) : List Char := cs.takeWhile fun c => c ≠ '?' ∧ c ≠ '#'

def pathBehind (s : Scheme) (cs : List Char) : Option (List (List Char)) :=
  match beforeQuery cs with
  | [] => if s.isSpecial then some (pathSegments s []) else none
  | c :: rest => some (pathSegments s (if isSlash s c then rest else c :: rest))

/-! ## §3 Authorities -/

def atLast? (c : Char) (cs : List Char) : Option (List Char × List Char) :=
  let behind := (cs.reverse.takeWhile (· ≠ c)).reverse
  if behind.length < cs.length then some (cs.take (cs.length - behind.length - 1), behind) else none

/-- The host at the start of an authority: it ends at a colon that is not
between brackets. -/
def hostPart (inside : Bool) : List Char → List Char
  | [] => []
  | c :: cs =>
    if c = ':' ∧ !inside then []
    else c :: hostPart (c = '[' || (inside && c ≠ ']')) cs

/-- What follows a port, which is at most 65535. -/
def behindPort? (cs : List Char) : Option (List Char) :=
  let rest := cs.dropWhile Char.isDigit
  if Text.decimalValue (cs.takeWhile Char.isDigit) ≤ 65535 ∧ (rest = [] ∨ rest.head? = some '\\')
  then some rest
  else none

def ofAuthority? (s : Scheme) (cs : List Char) : Option Uri := do
  let isInside := fun c => !(isSlash s c || c = '?' || c = '#')
  let authority := cs.takeWhile isInside
  let rest := cs.dropWhile isInside
  let (user, server) := match atLast? '@' authority with
    | some (user, server) => (some user, server)
    | none => (none, authority)
  let hostText := hostPart false server
  let behind := server.drop hostText.length
  if hostText = [] then
    let hasUser := user.any fun u => u ≠ [] ∧ u ≠ [':']
    let isBare := user = some [] ∧ rest ≠ []
    if s = .web ∨ behind ≠ [] ∨ hasUser ∨ isBare then none
  let host ← if s = .web then Host.ofWeb? hostText else Host.ofName? hostText
  let rest ← match behind with
    | ':' :: port => (behindPort? port).map (· ++ rest)
    | _ => some rest
  some
    { host := if hostText = [] then none else some host
      segments := pathBehind s rest }

/-! ## §4 URIs -/

/-- A file URI; a path that starts with a drive belongs to no host. -/
def ofFile (host : Option Host) (segments : List (List Char)) : Uri where
  host := if segments.head?.any isDrive then none else host
  segments := some segments

def ofFile? (cs : List Char) : Option Uri :=
  match cs with
  | a :: b :: rest =>
    if isSlash .file a ∧ isSlash .file b then
      let isInside := fun c => !(isSlash .file c || c = '?' || c = '#')
      let name := rest.takeWhile isInside
      if name = [] ∨ isDrive name then ofPath rest
      else (Host.ofWeb? name).map fun host =>
        let path := (rest.dropWhile isInside)
        ofFile (if host.isLocal then none else some host) (pathSegments .file (beforeQuery path).tail)
    else ofPath cs
  | _ => ofPath cs
where
  /-- Reads the path of a file URI that has no host. -/
  ofPath (cs : List Char) : Option Uri :=
    some (ofFile none (pathSegments .file (beforeQuery cs)))

/-- Reads what follows the scheme of a URI that is not of the web. -/
def ofOther? (cs : List Char) : Option Uri :=
  match cs with
  | '/' :: '/' :: rest => ofAuthority? .other rest
  | '/' :: rest => some { host := none, segments := some (pathSegments .other (beforeQuery rest)) }
  | _ => some { host := none, segments := none }

/-- Whether white space of this kind is dropped at the ends of a URI. -/
def isPadding (c : Char) : Bool := c.toNat ≤ 0x20

def significant (cs : List Char) : List Char :=
  (Text.dropEndWhile isPadding (cs.dropWhile isPadding)).filter
    fun c => c ≠ '\t' ∧ c ≠ '\n' ∧ c ≠ '\r'

/-- Reads a URI. Hosts beyond ASCII are taken as they stand, see `Host.ofWeb?`. -/
def parse? (text : String) : Option Uri := do
  let (scheme, rest) ← scheme? (significant text.toList)
  match scheme with
  | .file => ofFile? rest
  | .web => ofAuthority? .web (rest.dropWhile (isSlash .web))
  | .other => ofOther? rest

end Uri

end Daybook
