import EviAssist.Path
import EviAssist.Text.Numeral
import EviAssist.Text.Utf8

/-!
# File URIs

Editors name files by URIs, evi by paths. A URI is a reference in the sense of RFC 3986: a scheme,
an authority, a path, a query and a fragment, of ASCII characters and percent escapes only.

* `Uri.parse?`: the texts that are references.
* `Uri.ofPath?`: the `file:` URI of a path; all but unreserved characters and `/` is escaped.
* `Uri.toPath?`: what follows `file://`, without `localhost`, with the escapes resolved.
-/

namespace EviAssist

/-- A URI reference, as written. -/
structure Uri where
  text : String
  deriving DecidableEq, Inhabited, Repr

namespace Uri

/-! ## Characters -/

/-- The characters that no part of a reference gives a meaning. -/
def isUnreserved (c : Char) : Bool :=
  c.isAlphanum || c == '-' || c == '.' || c == '_' || c == '~'

/-- The delimiters that may stand inside a part. -/
def isSubDelimiter (c : Char) : Bool :=
  "!$&'()*+,;=".toList.contains c

/-- The characters of a path segment. -/
def isSegmentChar (c : Char) : Bool :=
  isUnreserved c || isSubDelimiter c || c == ':' || c == '@'

/-- Whether the characters are all allowed, a percent sign standing before two hexadecimal
digits. -/
def isEncoded (allowed : Char → Bool) : List Char → Bool
  | [] => true
  | '%' :: a :: b :: rest =>
    (Text.hexValue? a).isSome && (Text.hexValue? b).isSome && isEncoded allowed rest
  | c :: rest => c != '%' && allowed c && isEncoded allowed rest

/-! ## Authorities -/

/-- Sixteen bits of an address: one to four hexadecimal digits. -/
def isHexGroup (cs : List Char) : Bool :=
  1 ≤ cs.length && cs.length ≤ 4 && cs.all fun c => (Text.hexValue? c).isSome

/-- An octet of an address: a decimal number up to 255 without a leading zero. -/
def isOctet (cs : List Char) : Bool :=
  match Text.readNat? cs with
  | some n => n ≤ 255 && cs.length ≤ 3 && (cs.length == 1 || cs.head? != some '0')
  | none => false

/-- Four octets between dots. -/
def isIPv4 (cs : List Char) : Bool :=
  let octets := Text.splitAt '.' cs
  octets.length == 4 && octets.all isOctet

/-- The number of sixteen-bit groups that a row of groups fills, if each is one; only the last
may be written as four octets, where the row is the end of the address. -/
def groupCount? (mayEndInOctets : Bool) (cs : List Char) : Option Nat :=
  if cs.isEmpty then some 0
  else
    let groups := Text.splitAt ':' cs
    if groups.all isHexGroup then some groups.length
    else if mayEndInOctets && groups.dropLast.all isHexGroup &&
        isIPv4 (groups.getLast?.getD []) then
      some (groups.length + 1)
    else none

/-- Cuts at the first double colon. -/
def cutAtGap? : List Char → Option (List Char × List Char)
  | [] => none
  | ':' :: ':' :: rest => some ([], rest)
  | c :: rest => (cutAtGap? rest).map fun (before, after) => (c :: before, after)

/-- Eight groups, or fewer around one double colon. -/
def isIPv6 (cs : List Char) : Bool :=
  match cutAtGap? cs with
  | none => groupCount? true cs == some 8
  | some (before, after) =>
    match groupCount? false before, groupCount? true after with
    | some n, some m => n + m ≤ 7
    | _, _ => false

/-- An address of a version still to come. -/
def isIPvFuture : List Char → Bool
  | v :: rest =>
    (v == 'v' || v == 'V') &&
      (let version := rest.takeWhile fun c => (Text.hexValue? c).isSome
       match rest.dropWhile (fun c => (Text.hexValue? c).isSome) with
       | '.' :: address =>
         !version.isEmpty && !address.isEmpty &&
           address.all fun c => isUnreserved c || isSubDelimiter c || c == ':'
       | _ => false)
  | [] => false

/-- What follows a host: nothing, or a colon and digits. -/
def isPort : List Char → Bool
  | [] => true
  | ':' :: digits => digits.all Char.isDigit
  | _ => false

/-- A host, alone or with a port. -/
def isHostPort (cs : List Char) : Bool :=
  match cs with
  | '[' :: rest =>
    let address := rest.takeWhile (· != ']')
    match rest.dropWhile (· != ']') with
    | ']' :: after => (isIPv6 address || isIPvFuture address) && isPort after
    | _ => false
  | _ =>
    isEncoded (fun c => isUnreserved c || isSubDelimiter c) (cs.takeWhile (· != ':')) &&
      isPort (cs.dropWhile (· != ':'))

/-- An optional user, and a host. -/
def isAuthority (cs : List Char) : Bool :=
  match cs.dropWhile (· != '@') with
  | '@' :: rest =>
    isEncoded (fun c => isUnreserved c || isSubDelimiter c || c == ':') (cs.takeWhile (· != '@')) &&
      isHostPort rest
  | _ => isHostPort cs

/-! ## References -/

/-- The parts of a reference. -/
structure Parts where
  scheme : Option (List Char)
  authority : Option (List Char)
  path : List Char
  query : Option (List Char)
  fragment : Option (List Char)
  deriving DecidableEq, Repr

/-- Cuts before and after the first character that satisfies `p`. -/
def cutAt (p : Char → Bool) (cs : List Char) : List Char × Option (List Char) :=
  match cs.dropWhile (fun c => !p c) with
  | [] => (cs, none)
  | _ :: rest => (cs.takeWhile fun c => !p c, some rest)

/-- The parts of a text: the fragment follows the first `#`, the query the first `?` before it,
the scheme ends at a colon before any `/`, and the authority follows a double slash. -/
def Parts.ofText (cs : List Char) : Parts :=
  let (beforeFragment, fragment) := cutAt (· == '#') cs
  let (beforeQuery, query) := cutAt (· == '?') beforeFragment
  let (scheme, rest) :=
    match cutAt (fun c => c == ':' || c == '/') beforeQuery with
    | (start, some after) =>
      if (beforeQuery.drop start.length).head? == some ':' then (some start, after)
      else (none, beforeQuery)
    | (_, none) => (none, beforeQuery)
  let (authority, path) :=
    match rest with
    | '/' :: '/' :: after => (some (after.takeWhile (· != '/')), after.dropWhile (· != '/'))
    | _ => (none, rest)
  { scheme, authority, path, query, fragment }

/-- A letter, then letters, digits, plus signs, hyphens and dots. -/
def isScheme : List Char → Bool
  | [] => false
  | c :: cs => c.isAlpha && cs.all fun d => d.isAlphanum || d == '+' || d == '-' || d == '.'

/-- Whether the parts are those of a reference. -/
def Parts.isValid (parts : Parts) : Bool :=
  parts.scheme.all isScheme && parts.authority.all isAuthority &&
    isEncoded (fun c => isSegmentChar c || c == '/') parts.path &&
    parts.query.all (isEncoded fun c => isSegmentChar c || c == '/' || c == '?') &&
    parts.fragment.all (isEncoded fun c => isSegmentChar c || c == '/' || c == '?')

/-- The reference written by a text. -/
def parse? (text : String) : Option Uri :=
  if (Parts.ofText text.toList).isValid then some ⟨text⟩ else none

/-! ## Paths -/

/-- One byte of a path: itself, or a percent sign and two upper-case digits. -/
def encodeByte (b : UInt8) : List Char :=
  let c := Char.ofNat b.toNat
  if isUnreserved c || c == '/' then [c]
  else ['%', Text.hexDigit (b.toNat / 16), Text.hexDigit (b.toNat % 16)]

/-- The bytes of a text, escaped. -/
def percentEncode (cs : List Char) : List Char :=
  (Utf8.encode cs).flatMap encodeByte

/-- The bytes of an escaped text; every escape must have two digits. -/
def percentBytes? : List Char → Option (List UInt8)
  | [] => some []
  | '%' :: a :: b :: rest => do
    let high ← Text.hexValue? a
    let low ← Text.hexValue? b
    return UInt8.ofNat (high * 16 + low) :: (← percentBytes? rest)
  | c :: rest =>
    if c = '%' then none else (percentBytes? rest).map (String.utf8EncodeChar c ++ ·)

/-- The text of an escaped text, when its bytes are one. -/
def percentDecode? (cs : List Char) : Option (List Char) :=
  (percentBytes? cs).bind Utf8.decode?

/-- The URI of a file. A relative path is seen from `directory`, and has none where that is not
known. -/
def ofPath? (directory : Option Path) (path : Path) : Option Uri := do
  let whole ← path.seenFrom? directory
  parse? ("file://" ++ String.ofList (percentEncode whole.text.toList))

/-- The path in a `file:` URI: all that follows `file://` and at most one `localhost`. -/
def toPath? (uri : Uri) : Option Path := do
  let rest ← Text.afterStart? "file://".toList uri.text.toList
  let rest := (Text.afterStart? "localhost".toList rest).getD rest
  return ⟨String.ofList (← percentDecode? rest)⟩

end Uri

end EviAssist
