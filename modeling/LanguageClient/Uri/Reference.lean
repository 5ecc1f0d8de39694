import LanguageClient.Text.Split
import LanguageClient.Text.Numeral

/-!
# `LanguageClient.Uri.Reference`: URI references

A reference is cut into its five parts at fixed characters: the fragment follows
the first `#`, the query the first `?` before it, the scheme ends at a colon
before any slash, and the authority stands between two slashes and the next one.
It is valid if every part has only the characters that RFC 3986 gives it. All of
them are ASCII; any other one is written as `%` and two hexadecimal digits.

- `Parts`, `split`: the five parts.
- `isReference`: the valid references.
- `Uri`: a text that is a valid reference.
-/

set_option autoImplicit false

namespace LanguageClient

namespace Uri

/-! ### Characters -/

/-- An ASCII letter. -/
def isLetter (c : Char) : Bool := c.isAlpha

/-- A hexadecimal digit, in either case. -/
def isHex (c : Char) : Bool :=
  c.isDigit || ('a' ≤ c && c ≤ 'f') || ('A' ≤ c && c ≤ 'F')

/-- A character without a meaning of its own. -/
def isUnreserved (c : Char) : Bool :=
  c.isAlphanum || c == '-' || c == '.' || c == '_' || c == '~'

/-- A character that may separate parts of a component. -/
def isSubDelimiter (c : Char) : Bool :=
  ['!', '$', '&', '\x27', '(', ')', '*', '+', ',', ';', '='].contains c

/-- A character of a path segment. -/
def isSegmentChar (c : Char) : Bool :=
  isUnreserved c || isSubDelimiter c || c == ':' || c == '@'

/-- A character of a path. -/
def isPathChar (c : Char) : Bool := isSegmentChar c || c == '/'

/-- A character of a query or a fragment. -/
def isQueryChar (c : Char) : Bool := isPathChar c || c == '?'

/-- A character of a host name. -/
def isHostChar (c : Char) : Bool := isUnreserved c || isSubDelimiter c

/-- A character of the part of an authority that names a user. -/
def isUserChar (c : Char) : Bool := isHostChar c || c == ':'

/-- Whether a text has only characters of a class and encoded bytes. -/
def isEncoded (allowed : Char → Bool) : List Char → Bool
  | [] => true
  | '%' :: a :: b :: s => isHex a && isHex b && isEncoded allowed s
  | c :: s => c != '%' && allowed c && isEncoded allowed s

/-! ### The parts -/

/-- The five parts of a reference. -/
structure Parts where
  scheme : Option (List Char)
  authority : Option (List Char)
  path : List Char
  query : Option (List Char)
  fragment : Option (List Char)
  deriving DecidableEq, Repr

/-- Cut off what follows a separator. -/
def cutAt (sep : Char) (s : List Char) : List Char × Option (List Char) :=
  match Text.splitFirst? sep s with
  | some (before, after) => (before, some after)
  | none => (s, none)

/-- The scheme in front of a text: what stands before a colon that no slash
precedes. -/
def cutScheme (s : List Char) : Option (List Char) × List Char :=
  let first := s.takeWhile (· != '/')
  match Text.splitFirst? ':' first with
  | some (scheme, _) => (some scheme, s.drop (scheme.length + 1))
  | none => (none, s)

/-- The authority in front of a text, between two slashes and the next one. -/
def cutAuthority : List Char → Option (List Char) × List Char
  | '/' :: '/' :: s => (some (s.takeWhile (· != '/')), s.dropWhile (· != '/'))
  | s => (none, s)

/-- The parts of a reference. -/
def split (s : List Char) : Parts :=
  let (s, fragment) := cutAt '#' s
  let (s, query) := cutAt '?' s
  let (scheme, s) := cutScheme s
  let (authority, path) := cutAuthority s
  { scheme, authority, path, query, fragment }

/-! ### Validity -/

/-- A scheme: a letter, then letters, digits and `+`, `-`, `.`. -/
def isScheme : List Char → Bool
  | [] => false
  | c :: s => isLetter c && s.all fun c => c.isAlphanum || c == '+' || c == '-' || c == '.'

/-- A part of an IPv4 address: a number up to 255 without leading zeros. -/
def isOctet (s : List Char) : Bool :=
  s != [] && s.length ≤ 3 && s.all Char.isDigit && Text.decimalValue s ≤ 255
    && (s.length == 1 || s.head? != some '0')

/-- An IPv4 address. -/
def isIPv4 (s : List Char) : Bool :=
  let octets := Text.splitOn '.' s
  octets.length == 4 && octets.all isOctet

/-- A group of an IPv6 address: up to four hexadecimal digits. -/
def isGroup (s : List Char) : Bool := s != [] && s.length ≤ 4 && s.all isHex

/-- How many groups a run of groups has; an IPv4 address at its end counts as
two, where it is allowed. -/
def groupCount? (allowIPv4 : Bool) (s : List Char) : Option Nat :=
  if s == [] then some 0
  else
    let groups := Text.splitOn ':' s
    if groups.all isGroup then some groups.length
    else
      match groups.getLast? with
      | some last =>
        if allowIPv4 && isIPv4 last && groups.dropLast.all isGroup then some (groups.length + 1)
        else none
      | none => none

/-- The parts around the first double colon. -/
def splitEllipsis? : List Char → Option (List Char × List Char)
  | ':' :: ':' :: s => some ([], s)
  | c :: s => (splitEllipsis? s).map fun (before, after) => (c :: before, after)
  | [] => none

/-- An IPv6 address: eight groups, or fewer around a double colon. -/
def isIPv6 (s : List Char) : Bool :=
  match splitEllipsis? s with
  | some (before, after) =>
    match groupCount? false before, groupCount? true after with
    | some m, some n => m + n ≤ 7
    | _, _ => false
  | none => groupCount? true s == some 8

/-- A host: an IPv6 address in brackets, or a name. -/
def isHost (s : List Char) : Bool :=
  match s with
  | '[' :: inner => inner.getLast? == some ']' && isIPv6 inner.dropLast
  | name => isEncoded isHostChar name

/-- A host and the colon and port after it, which may be empty. -/
def isHostPort (s : List Char) : Bool :=
  let bracketed := s.head? == some '['
  let host := if bracketed then s.takeWhile (· != ']') ++ (s.dropWhile (· != ']')).take 1
    else s.takeWhile (· != ':')
  let rest := s.drop host.length
  isHost host && (rest == [] || (rest.head? == some ':' && rest.tail.all Char.isDigit))

/-- An authority: a user, if it has an `@`, and a host with its port. -/
def isAuthority (s : List Char) : Bool :=
  match Text.splitFirst? '@' s with
  | some (user, host) => isEncoded isUserChar user && isHostPort host
  | none => isHostPort s

/-- Whether every part has only the characters it may have. -/
def Parts.valid (p : Parts) : Bool :=
  p.scheme.all isScheme && p.authority.all isAuthority && isEncoded isPathChar p.path
    && p.query.all (isEncoded isQueryChar) && p.fragment.all (isEncoded isQueryChar)

/-- Whether a text is a URI reference. -/
def isReference (s : List Char) : Bool := (split s).valid

end Uri

/-- A text that is a URI reference. -/
structure Uri where
  text : String
  valid : Uri.isReference text.toList = true
  deriving DecidableEq

namespace Uri

/-- The reference that a text is. -/
def parse? (text : String) : Option Uri :=
  if h : isReference text.toList then some ⟨text, h⟩ else none

end Uri

end LanguageClient
