import CardForm.Text.Hexadecimal
import CardForm.Text.Quoted

/-!
# Addresses

An address names a resource of a service: perhaps by a scheme and an authority, and always by a
path; what stands behind a `?` or a `#` does not count here. `path` is the path that an address
stands for. It begins with a slash, its components `.` and `..` have been followed as they were
written, and only then are its octets in hexadecimal digits put in, once by who sends the address
and once by who receives it.
-/
namespace CardForm.Address

/-- Why a text is no address. -/
inductive Fault where
  /-- It is too long. -/
  | tooLong
  /-- It has a control character of ASCII. -/
  | control (c : CodePoint) (place : Nat)
  /-- It has no authority, and its path begins with two slashes. -/
  | doubleSlash
  /-- It has no authority, and its path begins with a colon. -/
  | colon
deriving DecidableEq

/-- The text of a fault. -/
def Fault.text : Fault → Text
  | tooLong => "URL too long"
  | control c place =>
    "Invalid non-printable ASCII character in URL, " ++ Text.quoted [c] ++ " at position " ++
      Text.ofNat place ++ "."
  | doubleSlash => "Relative URLs cannot have a path starting with '//'"
  | colon => "Relative URLs cannot have a path starting with ':'"

/-- How many code points an address may have. -/
def lengthLimit : Nat := 65536

/-- Whether a code point is a control character of ASCII. -/
def isControl (c : CodePoint) : Bool := c.number < 0x20 || c.number == 0x7F

/-! ## Parts -/

/-- The parts of an address that count. -/
structure Parts where
  /-- The scheme, empty where there is none. -/
  scheme : Text
  /-- The authority, empty where there is none. -/
  authority : Text
  /-- The path as it is written. -/
  path : Text
deriving DecidableEq

/-- Whether a code point is a letter of ASCII. -/
def isLetter (c : CodePoint) : Bool := 0x61 ≤ c.toLower.number && c.toLower.number ≤ 0x7A

/-- Whether a code point may stand in a scheme. -/
def isSchemePoint (c : CodePoint) : Bool :=
  isLetter c || c.isDigit || c == '+' || c == '-' || c == '.'

/-- The scheme at the front of an address, which begins with a letter if it is not empty, and the
text after its colon. -/
def splitScheme (text : Text) : Text × Text :=
  let (scheme, rest) := text.span isSchemePoint
  if rest.head? = some (':' : CodePoint) ∧ scheme.head?.all isLetter then (scheme, rest.tail)
  else ([], text)

/-- The authority behind two slashes at the front of an address, and the text after it. -/
def splitAuthority (text : Text) : Text × Text :=
  if List.isPrefixOf ("//" : Text) text then
    (text.drop 2).span fun c => c != '/' && c != '?' && c != '#'
  else ([], text)

/-- The parts of an address. -/
def parts (text : Text) : Parts :=
  let (scheme, rest) := splitScheme text
  let (authority, rest) := splitAuthority rest
  ⟨scheme, authority, rest.takeWhile fun c => c != '?' && c != '#'⟩

/-- Whether an address has no part before its path. -/
def Parts.isBare (parts : Parts) : Bool := parts.scheme.isEmpty && parts.authority.isEmpty

/-- The fault of an address that depends on its parts. -/
def Parts.fault? (parts : Parts) : Option Fault :=
  if !parts.isBare then none
  else if List.isPrefixOf ("//" : Text) parts.path then some .doubleSlash
  else if parts.path.head? = some (':' : CodePoint) then some .colon
  else none

/-! ## Paths -/

/-- The components of a path, which slashes separate. -/
def components : Text → List Text
  | [] => [[]]
  | c :: rest =>
    if c = '/' then [] :: components rest
    else
      match components rest with
      | [] => [[c]]
      | first :: others => (c :: first) :: others

/-- The components that are left when `.` and `..` are followed, after some components, which are in
reverse. The slash at the front of a path, which stands behind an empty component, is not left. -/
def followed (before : List Text) : List Text → List Text
  | [] => before.reverse
  | component :: rest =>
    if component = "." then followed before rest
    else if component = ".." then
      followed (if before = [[]] then before else before.tail) rest
    else followed (component :: before) rest

/-- A path without the components `.` and `..`. -/
def withoutDots (path : Text) : Text := Text.joined "/" (followed [] (components path))

/-- The text with what two hexadecimal digits behind each `%` stand for. Such an octet is taken for
the code point of its number, which is right for those of ASCII; no other can stand in the path of a
resource. -/
def decoded : Text → Text
  | [] => []
  | c :: a :: b :: rest =>
    match Text.hexValue? a, Text.hexValue? b with
    | some high, some low =>
      if c = '%' then .ofNat (high * 16 + low) :: decoded rest else c :: decoded (a :: b :: rest)
    | _, _ => c :: decoded (a :: b :: rest)
  | c :: rest => c :: decoded rest

/-- The path of an address with a slash at its front. The path of an address with both a scheme and
an authority is taken as it is, the path of any other with one slash only; behind one of the two its
components are followed before. -/
def Parts.rooted (parts : Parts) : Text :=
  let path := if parts.isBare then parts.path else withoutDots parts.path
  if !parts.scheme.isEmpty && !parts.authority.isEmpty && !path.isEmpty then path
  else '/' :: path.dropWhile (· == '/')

/-- A path that is not empty: a slash in place of an empty one. -/
def orSlash (path : Text) : Text := if path.isEmpty then "/" else path

/-- The path that an address stands for. -/
def path (text : Text) : Except Fault Text :=
  if lengthLimit < text.length then .error .tooLong
  else
    match text.findIdx? isControl with
    | some place => .error (.control (text[place]?.getD .replacement) place)
    | none =>
      match (parts text).fault? with
      | some fault => .error fault
      | none => .ok (decoded (decoded (orSlash (withoutDots (parts text).rooted))))

example : (path "api/./a%2Fb/../c?d=/e").toOption = some "/api/c" := by decide +kernel
example : (path "/api/a%2Fb").toOption = some "/api/a/b" := by decide +kernel
example : (path "http://host/a/../..").toOption = some "/" := by decide +kernel
example : (path "?x").toOption = some "/" := by decide +kernel
example : (path "/%2525").toOption = some "/%" := by decide +kernel

end CardForm.Address
