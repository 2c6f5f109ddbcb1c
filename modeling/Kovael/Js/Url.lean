import Kovael.Js.Utf8

/-!
# `URL`

`new URL(input, base)` with the `hostname`, `pathname`, `search` and
`searchParams` of what it returns, after the parser of the URL Standard.

Mirroring notes:
- The parser reads a region of the input at a time (the scheme, the authority,
  the path, the query) where the Standard moves a pointer through states.
- User information, port and fragment are read, since they can make the parser
  fail or end a region, but not kept.
- `toAscii` is what the Unicode tables decide: the ASCII form of a domain that
  has a character outside ASCII or a label `xn--…`, `none` if it has none.
-/

namespace Js

open Base64 (Bytes)

namespace Url

/-! ## Percent-encoding -/

/-- A hexadecimal digit, upper case. -/
def upperHex (n : Nat) : Char := if n < 10 then Char.ofNat (48 + n) else Char.ofNat (55 + n)

/-- A byte, percent-encoded. -/
def percentByte (b : UInt8) : List Char := ['%', upperHex (b.toNat / 16), upperHex (b.toNat % 16)]

/-- The characters of `set` are percent-encoded. -/
def percentEncode (set : Char → Bool) (cs : List Char) : List Char :=
  cs.flatMap fun c => if set c then (String.utf8EncodeChar c).flatMap percentByte else [c]

/-- Percent-encoded bytes are decoded; a `%` that encodes none stays. -/
def percentDecode : Bytes → Bytes
  | b :: x :: y :: rest =>
    if b = 37 then
      match hexVal (Char.ofNat x.toNat), hexVal (Char.ofNat y.toNat) with
      | some h, some l => UInt8.ofNat (16 * h + l) :: percentDecode rest
      | _, _ => b :: percentDecode (x :: y :: rest)
    else b :: percentDecode (x :: y :: rest)
  | bytes => bytes

/-- The text of percent-encoded UTF-8. -/
def percentDecoded (cs : List Char) : String :=
  Utf8.decode (percentDecode (Utf8.encode (String.ofList cs)))

/-- The C0 control percent-encode set. -/
def isC0Control (c : Char) : Bool := c.toNat < 0x20 || 0x7E < c.toNat

/-- The query percent-encode set. -/
def inQuerySet (c : Char) : Bool := isC0Control c || " \"#<>".toList.contains c

/-- The special-query percent-encode set. -/
def inSpecialQuerySet (c : Char) : Bool := inQuerySet c || c = '\''

/-- The path percent-encode set. -/
def inPathSet (c : Char) : Bool := inQuerySet c || "?\x60\x7b\x7d".toList.contains c

/-- The application/x-www-form-urlencoded percent-encode set. -/
def inFormSet (c : Char) : Bool := !(c.isAlphanum || "*-._".toList.contains c)

/-! ## Hosts -/

/-- A forbidden host code point. -/
def isForbiddenHost (c : Char) : Bool :=
  "\x00\t\n\r #/:<>?@[\\]^|".toList.contains c

/-- A forbidden domain code point. -/
def isForbiddenDomain (c : Char) : Bool :=
  isForbiddenHost c || c.toNat ≤ 0x1F || c = '%' || c.toNat = 0x7F

/-- A number in a radix; no digits at all are zero. -/
def radixNumber (radix : Nat) (cs : List Char) : Option Nat :=
  if cs.all fun c => (hexVal c).any (· < radix) then
    some (cs.foldl (fun n c => radix * n + (hexVal c).getD 0) 0)
  else none

/-- The IPv4 number parser. -/
def ipv4Number : List Char → Option Nat
  | [] => none
  | ['0'] => some 0
  | '0' :: x :: cs => if x = 'x' ∨ x = 'X' then radixNumber 16 cs else radixNumber 8 (x :: cs)
  | cs => radixNumber 10 cs

/-- The labels of a domain, without an empty last one. -/
def labels (cs : List Char) : List (List Char) :=
  match (cs.splitOn '.').reverse with
  | [] :: x :: xs => (x :: xs).reverse
  | xs => xs.reverse

/-- The ends-in-a-number checker. -/
def endsInNumber (cs : List Char) : Bool :=
  match (labels cs).getLast? with
  | none => false
  | some last => (!last.isEmpty && last.all Char.isDigit) || (ipv4Number last).isSome

/-- The address of up to four numbers, the last of which fills the bytes that are left. -/
def ipv4Address : List Nat → Option Nat
  | [] => none
  | ns =>
    let last := ns.getLast?.getD 0
    if ns.length ≤ 4 ∧ (ns.dropLast.all (· ≤ 255)) ∧ last < 256 ^ (5 - ns.length) then
      some (last + (ns.dropLast.zipIdx.map fun n => n.1 * 256 ^ (3 - n.2)).sum)
    else none

/-- The IPv4 serializer. -/
def ipv4Text (address : Nat) : String :=
  ".".intercalate ([3, 2, 1, 0].map fun i => toString (address / 256 ^ i % 256))

/-- The IPv4 parser. -/
def ipv4 (cs : List Char) : Option String :=
  ((labels cs).mapM ipv4Number).bind fun ns => (ipv4Address ns).map ipv4Text

/-- A decimal byte, without leading zeros. -/
def decimalByte (cs : List Char) : Option Nat :=
  if cs.isEmpty || !cs.all Char.isDigit || (cs.head? = some '0' && 1 < cs.length) then none
  else
    let n := Nat.ofDigitChars 10 cs 0
    if n ≤ 255 then some n else none

/-- The last two pieces of an IPv6 address, written as an IPv4 address. -/
def ipv4Pieces (cs : List Char) : Option (List Nat) :=
  match (cs.splitOn '.').mapM decimalByte with
  | some [a, b, c, d] => some [256 * a + b, 256 * c + d]
  | _ => none

/-- The pieces of an IPv6 address, and where the zeros that `::` stands for go. The zero that
it stands for at least is a piece. -/
def ipv6Pieces : Nat → List Nat → Option Nat → List Char → Option (List Nat × Option Nat)
  | 0, _, _, _ => none
  | _ + 1, pieces, compress, [] => some (pieces, compress)
  | fuel + 1, pieces, compress, c :: cs =>
    if pieces.length = 8 then none
    else if c = ':' then
      if compress.isSome then none
      else ipv6Pieces fuel (pieces ++ [0]) (some (pieces.length + 1)) cs
    else
      let digits := ((c :: cs).takeWhile fun c => (hexVal c).isSome).take 4
      let piece := digits.foldl (fun n c => 16 * n + (hexVal c).getD 0) 0
      match (c :: cs).drop digits.length with
      | '.' :: _ =>
        if digits = [] ∨ 6 < pieces.length then none
        else (ipv4Pieces (c :: cs)).map fun last => (pieces ++ last, compress)
      | ':' :: rest =>
        if rest = [] then none else ipv6Pieces fuel (pieces ++ [piece]) compress rest
      | [] => ipv6Pieces fuel (pieces ++ [piece]) compress []
      | _ => none

/-- How many zeros in a row there are at a piece. -/
def zerosAt (pieces : List Nat) (i : Nat) : Nat := ((pieces.drop i).takeWhile (· = 0)).length

/-- The first longest run of zeros that is worth abbreviating. -/
def compressAt (pieces : List Nat) : Option Nat :=
  let longest := (List.range pieces.length).foldl (fun n i => max n (zerosAt pieces i)) 0
  if longest < 2 then none else (List.range pieces.length).find? fun i => zerosAt pieces i = longest

/-- The IPv6 serializer. -/
def ipv6Text (pieces : List Nat) : String :=
  let join (ps : List Nat) := ":".intercalate (ps.map fun p => String.ofList (Nat.toDigits 16 p))
  match compressAt pieces with
  | none => join pieces
  | some i => join (pieces.take i) ++ "::" ++ join (pieces.drop (i + zerosAt pieces i))

/-- The IPv6 parser. -/
def ipv6 (cs : List Char) : Option String :=
  let read :=
    match cs with
    | ':' :: ':' :: rest => ipv6Pieces (cs.length + 1) [0] (some 1) rest
    | ':' :: _ => none
    | _ => ipv6Pieces (cs.length + 1) [] none cs
  read.bind fun r =>
    match r.2 with
    | some k => some (ipv6Text (r.1.take k ++ List.replicate (8 - r.1.length) 0 ++ r.1.drop k))
    | none => if r.1.length = 8 then some (ipv6Text r.1) else none

section

variable (toAscii : String → Option String)

/-- A label that is Punycode, or pretends to be. -/
def isPunycode (label : List Char) : Bool := (label.take 4).map Char.toLower = "xn--".toList

/-- The domain-to-ASCII operation. -/
def domainToAscii (domain : String) : Option String :=
  if domain.toList.all (fun c => c.toNat < 0x80) && !(domain.toList.splitOn '.').any isPunycode then
    some (String.ofList (domain.toList.map Char.toLower))
  else toAscii domain

/-- The host of a special URL. -/
def domainHost (cs : List Char) : Option String :=
  (domainToAscii toAscii (percentDecoded cs)).bind fun domain =>
    if domain = "" ∨ domain.toList.any isForbiddenDomain then none
    else if endsInNumber domain.toList then ipv4 domain.toList
    else some domain

/-- The host parser. -/
def parseHost (special : Bool) (cs : List Char) : Option String :=
  match cs with
  | '[' :: rest =>
    if rest.getLast? = some ']' then (ipv6 rest.dropLast).map fun text => "[" ++ text ++ "]"
    else none
  | cs =>
    if special then domainHost toAscii cs
    else if cs.any isForbiddenHost then none
    else some (String.ofList (percentEncode isC0Control cs))

end

/-! ## Records -/

/-- A path: the segments, or a text that has none. -/
inductive Path where
  | rootless (text : String)
  | segments (segments : List String)
  deriving DecidableEq, Repr

end Url

/-- What `new URL` returns. -/
structure Url where
  scheme : String
  host : Option String
  path : Url.Path
  query : Option String
  deriving DecidableEq, Repr

namespace Url

/-- A special scheme. -/
def isSpecial (scheme : String) : Bool :=
  ["ftp", "file", "http", "https", "ws", "wss"].contains scheme

/-- `/`, and `\` where the scheme is special. -/
def isSlash (special : Bool) (c : Char) : Bool := c = '/' || (special && c = '\\')

/-- What ends a path. -/
def endsPath (c : Char) : Bool := c = '?' || c = '#'

/-- What ends an authority. -/
def endsAuthority (special : Bool) (c : Char) : Bool := isSlash special c || endsPath c

/-- The query that follows a path, or a fragment, or nothing. -/
def queryOf (special : Bool) : List Char → Option String
  | '?' :: cs =>
    some (String.ofList (percentEncode (if special then inSpecialQuerySet else inQuerySet)
      (cs.takeWhile (· ≠ '#'))))
  | _ => none

/-! ## Paths -/

/-- A Windows drive letter. -/
def isDriveLetter : List Char → Bool
  | [c, d] => c.isAlpha && (d = ':' || d = '|')
  | _ => false

/-- A normalized Windows drive letter. -/
def isNormalDriveLetter : List Char → Bool
  | [c, d] => c.isAlpha && d = ':'
  | _ => false

/-- The text begins with a Windows drive letter. -/
def startsWithDriveLetter (cs : List Char) : Bool :=
  isDriveLetter (cs.take 2) && (cs.drop 2).head?.all fun c => isSlash true c || endsPath c

/-- A single-dot segment. -/
def isSingleDot (segment : List Char) : Bool :=
  segment = ['.'] || segment.map Char.toLower = "%2e".toList

/-- A double-dot segment. -/
def isDoubleDot (segment : List Char) : Bool :=
  [['.', '.'], ".%2e".toList, "%2e.".toList, "%2e%2e".toList].contains (segment.map Char.toLower)

/-- Shorten a path. -/
def shorten (scheme : String) (path : List String) : List String :=
  match path with
  | [drive] => if scheme = "file" ∧ isNormalDriveLetter drive.toList then path else []
  | path => path.dropLast

/-- One more segment, which a slash follows or not. -/
def addSegment (scheme : String) (path : List String) (segment : List Char) (slash : Bool) :
    List String :=
  let text := percentEncode inPathSet segment
  if isDoubleDot text then
    if slash then shorten scheme path else shorten scheme path ++ [""]
  else if isSingleDot text then
    if slash then path else path ++ [""]
  else if scheme = "file" ∧ path = [] ∧ isDriveLetter text then
    path ++ [String.ofList (text.take 1 ++ [':'])]
  else path ++ [String.ofList text]

/-- The segments of a path, each but the last followed by a slash. -/
def addSegments (scheme : String) : List String → List (List Char) → List String
  | path, [] => path
  | path, [segment] => addSegment scheme path segment false
  | path, segment :: next :: rest =>
    addSegments scheme (addSegment scheme path segment true) (next :: rest)

/-- The path state: a path after `path`, and the query. -/
def withPath (scheme : String) (host : Option String) (path : List String) (cs : List Char) : Url where
  scheme := scheme
  host := host
  path := .segments (addSegments scheme path
    ((cs.takeWhile fun c => !endsPath c).splitOnP (isSlash (isSpecial scheme))))
  query := queryOf (isSpecial scheme) (cs.dropWhile fun c => !endsPath c)

/-- The path start state. -/
def pathStart (scheme host : String) (cs : List Char) : Url :=
  match cs with
  | [] =>
    if isSpecial scheme then withPath scheme (some host) [] []
    else { scheme, host := some host, path := .segments [], query := none }
  | c :: rest =>
    if isSlash (isSpecial scheme) c then withPath scheme (some host) [] rest
    else if !isSpecial scheme && endsPath c then
      { scheme, host := some host, path := .segments [], query := queryOf false cs }
    else withPath scheme (some host) [] cs

/-- The segments of a URL. -/
def pathSegments (url : Url) : List String :=
  match url.path with
  | .rootless _ => []
  | .segments segments => segments

/-! ## The parser -/

/-- What is left of the input: no control characters or spaces around it, and no tabs or
line breaks in it. -/
def clean (cs : List Char) : List Char :=
  let isOuter (c : Char) : Bool := c.toNat ≤ 0x20
  (((cs.dropWhile isOuter).reverse.dropWhile isOuter).reverse).filter fun c =>
    c ≠ '\t' && c ≠ '\n' && c ≠ '\r'

/-- The scheme and what follows its colon. -/
def scheme? (cs : List Char) : Option (String × List Char) :=
  let isSchemeChar (c : Char) : Bool := c.isAlphanum || c = '+' || c = '-' || c = '.'
  match cs with
  | [] => none
  | c :: _ =>
    if c.isAlpha then
      match cs.dropWhile isSchemeChar with
      | ':' :: rest => some (String.ofList ((cs.takeWhile isSchemeChar).map Char.toLower), rest)
      | _ => none
    else none

/-- A host and its port, apart at the first colon outside brackets. -/
def splitPort (inBrackets : Bool) : List Char → List Char × Option (List Char)
  | [] => ([], none)
  | c :: cs =>
    if c = ':' ∧ inBrackets = false then ([], some cs)
    else
      let rest := splitPort (if c = '[' then true else if c = ']' then false else inBrackets) cs
      (c :: rest.1, rest.2)

/-- A port, or none. -/
def isPort (cs : List Char) : Bool := cs.all Char.isDigit && Nat.ofDigitChars 10 cs 0 ≤ 65535

/-- The special authority ignore slashes state. -/
def skipSlashes (cs : List Char) : List Char := cs.dropWhile (isSlash true)

section

variable (toAscii : String → Option String)

/-- The host of an authority. -/
def authorityHost (special : Bool) (cs : List Char) : Option String :=
  let hostPort := (cs.reverse.takeWhile (· ≠ '@')).reverse
  if '@' ∈ cs ∧ hostPort = [] then none
  else
    match splitPort false hostPort with
    | (host, some port) => if host = [] ∨ !isPort port then none else parseHost toAscii special host
    | (host, none) => if special ∧ host = [] then none else parseHost toAscii special host

/-- The authority state. -/
def authority (scheme : String) (cs : List Char) : Option Url :=
  (authorityHost toAscii (isSpecial scheme)
    (cs.takeWhile fun c => !endsAuthority (isSpecial scheme) c)).map fun host =>
      pathStart scheme host (cs.dropWhile fun c => !endsAuthority (isSpecial scheme) c)

/-- The relative slash state. -/
def relativeSlash (scheme : String) (base : Url) (cs : List Char) : Option Url :=
  match cs with
  | [] => some (withPath scheme base.host [] [])
  | c :: rest =>
    if isSpecial scheme ∧ isSlash true c then authority toAscii scheme (skipSlashes rest)
    else if c = '/' then authority toAscii scheme rest
    else some (withPath scheme base.host [] cs)

/-- The relative state. -/
def relative (scheme : String) (base : Url) (cs : List Char) : Option Url :=
  match cs with
  | [] => some { base with scheme }
  | c :: rest =>
    if isSlash (isSpecial scheme) c then relativeSlash toAscii scheme base rest
    else if c = '?' then some { base with scheme, query := queryOf (isSpecial scheme) cs }
    else if c = '#' then some { base with scheme }
    else some (withPath scheme base.host (shorten scheme base.pathSegments) cs)

/-- The file host state. -/
def fileHost (cs : List Char) : Option Url :=
  let region := cs.takeWhile fun c => !endsAuthority true c
  let rest := cs.dropWhile fun c => !endsAuthority true c
  if isDriveLetter region then some (withPath "file" (some "") [] cs)
  else if region = [] then some (pathStart "file" "" rest)
  else (parseHost toAscii true region).map fun host =>
    pathStart "file" (if host = "localhost" then "" else host) rest

/-- The file slash state; `base` is a file. -/
def fileSlash (base : Option Url) (cs : List Char) : Option Url :=
  if (cs.head?.any fun c => isSlash true c) then fileHost toAscii cs.tail
  else
    let drive :=
      match base.map pathSegments with
      | some (first :: _) =>
        if !startsWithDriveLetter cs && isNormalDriveLetter first.toList then [first] else []
      | _ => []
    some (withPath "file" (some ((base.bind host).getD "")) drive cs)

/-- The file state; `base` is a file. -/
def file (base : Option Url) (cs : List Char) : Option Url :=
  if (cs.head?.any fun c => isSlash true c) then fileSlash toAscii base cs.tail
  else
    match base with
    | none => some (withPath "file" (some "") [] cs)
    | some base =>
      match cs with
      | [] => some base
      | c :: _ =>
        if c = '?' then some { base with query := queryOf true cs }
        else if c = '#' then some base
        else some (withPath "file" base.host
          (if startsWithDriveLetter cs then [] else shorten "file" base.pathSegments) cs)

/-- The scheme state, where there is one. -/
def withScheme (scheme : String) (base : Option Url) (cs : List Char) : Option Url :=
  if scheme = "file" then file toAscii (base.filter fun b => b.scheme = "file") cs
  else if isSpecial scheme then
    match base.filter fun b => b.scheme = scheme with
    | some base =>
      match cs with
      | '/' :: '/' :: rest => authority toAscii scheme (skipSlashes rest)
      | cs => relative toAscii scheme base cs
    | none => authority toAscii scheme (skipSlashes cs)
  else
    match cs with
    | '/' :: '/' :: rest => authority toAscii scheme rest
    | '/' :: rest => some (withPath scheme none [] rest)
    | cs => some {
        scheme
        host := none
        path := .rootless (String.ofList (percentEncode isC0Control
          (cs.takeWhile fun c => !endsPath c)))
        query := queryOf false (cs.dropWhile fun c => !endsPath c) }

/-- The no scheme state. -/
def withoutScheme (base : Option Url) (cs : List Char) : Option Url :=
  base.bind fun base =>
    match base.path with
    | .rootless _ => if cs.head? = some '#' then some base else none
    | .segments _ =>
      if base.scheme = "file" then file toAscii (some base) cs
      else relative toAscii base.scheme base cs

/-- The basic URL parser; `none` is failure. -/
def parseWith (base : Option Url) (input : String) : Option Url :=
  match scheme? (clean input.toList) with
  | some (scheme, rest) => withScheme toAscii scheme base rest
  | none => withoutScheme toAscii base (clean input.toList)

/-- `new URL(input)`; `none` if it throws. -/
def parse (input : String) : Option Url := parseWith toAscii none input

/-- `new URL(input, base)`; `none` if it throws. -/
def parseOn (input base : String) : Option Url :=
  (parse toAscii base).bind fun base => parseWith toAscii (some base) input

end

/-! ## What is read -/

/-- `url.hostname`. -/
def hostname (url : Url) : String := url.host.getD ""

/-- `url.pathname`. -/
def pathname (url : Url) : String :=
  match url.path with
  | .rootless text => text
  | .segments segments => String.join (segments.map fun s => "/" ++ s)

/-- `url.search`. -/
def search (url : Url) : String :=
  match url.query with
  | none => ""
  | some query => if query = "" then "" else "?" ++ query

/-- The application/x-www-form-urlencoded parser. -/
def parseForm (query : String) : List (String × String) :=
  ((query.toList.splitOn '&').filter fun part => !part.isEmpty).map fun part =>
    let decoded (cs : List Char) := percentDecoded (cs.map fun c => if c = '+' then ' ' else c)
    (decoded (part.takeWhile (· ≠ '=')), decoded ((part.dropWhile (· ≠ '=')).drop 1))

/-- The application/x-www-form-urlencoded serializer. -/
def formText (params : List (String × String)) : String :=
  let encoded (s : String) : List Char :=
    (percentEncode (fun c => inFormSet c && c ≠ ' ') s.toList).map fun c => if c = ' ' then '+' else c
  "&".intercalate (params.map fun p => String.ofList (encoded p.1 ++ '=' :: encoded p.2))

/-- `url.searchParams`. -/
def searchParams (url : Url) : List (String × String) := parseForm (url.query.getD "")

/-- `url.searchParams.get(name)`. -/
def getParam (url : Url) (name : String) : Option String :=
  (url.searchParams.find? fun p => p.1 = name).map Prod.snd

/-- `url` after `url.searchParams.delete(name)`. -/
def deleteParam (url : Url) (name : String) : Url :=
  let text := formText (url.searchParams.filter fun p => p.1 ≠ name)
  { url with query := if text = "" then none else some text }

/-! ## A rooted path on a base -/

section

variable {toAscii : String → Option String}

/-- What begins without control characters and spaces keeps its beginning. -/
theorem clean_append (xs : List Char) (hne : xs ≠ []) (hxs : ∀ c ∈ xs, 0x20 < c.toNat)
    (cs : List Char) : ∃ rest, clean (xs ++ cs) = xs ++ rest := by
  have hdrop : ∀ (ys zs : List Char), ys ≠ [] → (∀ c ∈ ys, 0x20 < c.toNat) →
      (ys ++ zs).dropWhile (fun c => decide (c.toNat ≤ 0x20)) = ys ++ zs := by
    intro ys zs hys hall
    obtain ⟨y, ys, rfl⟩ := List.exists_cons_of_ne_nil hys
    have hy := hall y List.mem_cons_self
    rw [List.cons_append, List.dropWhile_cons_of_neg (by simpa using hy)]
  have hkept : xs.filter (fun c => c ≠ '\t' && c ≠ '\n' && c ≠ '\r') = xs := by
    refine List.filter_eq_self.mpr fun c hc => ?_
    have hlt := hxs c hc
    have h : ∀ d : Char, d.toNat ≤ 0x20 → c ≠ d := by
      intro d hd heq
      obtain rfl := heq
      omega
    simp [h '\t' (by decide), h '\n' (by decide), h '\r' (by decide)]
  unfold clean
  dsimp only
  rw [hdrop xs cs hne hxs, List.reverse_append, List.dropWhile_append]
  split
  · refine ⟨[], ?_⟩
    have hrev := hdrop xs.reverse [] (by simpa using hne) (by simpa using hxs)
    rw [List.append_nil] at hrev
    rw [hrev, List.reverse_reverse, hkept, List.append_nil]
  · rw [List.reverse_append, List.reverse_reverse, List.filter_append, hkept]
    exact ⟨_, rfl⟩

theorem pathStart_scheme (scheme host : String) (cs : List Char) :
    (pathStart scheme host cs).scheme = scheme := by
  unfold pathStart
  split
  · split <;> rfl
  · split
    · rfl
    · split <;> rfl

theorem pathStart_segments (scheme host : String) (cs : List Char) :
    ∃ segments, (pathStart scheme host cs).path = .segments segments := by
  unfold pathStart
  split
  · split <;> exact ⟨_, rfl⟩
  · split
    · exact ⟨_, rfl⟩
    · split <;> exact ⟨_, rfl⟩

/-- What `http://…` parses to. -/
theorem parse_http {host : String} {url : Url} (h : parse toAscii ("http://" ++ host) = some url) :
    url.scheme = "http" ∧ ∃ segments, url.path = .segments segments := by
  obtain ⟨rest, hclean⟩ := clean_append "http://".toList (by decide) (by simp) host.toList
  have hscheme : scheme? ("http://".toList ++ rest) = some ("http", '/' :: '/' :: rest) := rfl
  rw [parse, parseWith, String.toList_append, hclean, hscheme] at h
  obtain ⟨text, -, rfl⟩ := Option.map_eq_some_iff.mp
    (show authority toAscii "http" (skipSlashes ('/' :: '/' :: rest)) = some url from h)
  exact ⟨pathStart_scheme _ _ _, pathStart_segments _ _ _⟩

/-- A path from the root parses on every base `http://…` that parses. -/
theorem parseOn_rooted {c : Char} (hc : 0x20 < c.toNat) (hslash : isSlash true c = false)
    (cs : List Char) (host : String) :
    (parseOn toAscii (String.ofList ('/' :: c :: cs)) ("http://" ++ host)).isSome =
      (parse toAscii ("http://" ++ host)).isSome := by
  unfold parseOn
  cases hbase : parse toAscii ("http://" ++ host) with
  | none => rfl
  | some base =>
    obtain ⟨hscheme, segments, hpath⟩ := parse_http hbase
    obtain ⟨rest, hclean⟩ := clean_append ['/', c] (by simp) (by simpa using hc) cs
    have hnone : scheme? ('/' :: c :: rest) = none := rfl
    rw [Option.bind_some, parseWith, String.toList_ofList,
      show clean ('/' :: c :: cs) = '/' :: c :: rest from hclean, hnone]
    dsimp only
    rw [withoutScheme, Option.bind_some, hpath]
    dsimp only
    rw [hscheme, if_neg (by decide)]
    unfold relative
    dsimp only
    rw [if_pos (by decide)]
    unfold relativeSlash
    dsimp only
    rw [if_neg (by simp [hslash]), if_neg]
    · rfl
    · intro heq
      obtain rfl := heq
      exact absurd hslash (by decide)

end

end Url

end Js
