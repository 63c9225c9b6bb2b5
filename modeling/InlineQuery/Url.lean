import InlineQuery.Path
import InlineQuery.Text.Quoted
import InlineQuery.Text.Utf8

/-!
Addresses of servers and documents: taking them apart, putting them together, and the escapes of
their paths.
-/

namespace InlineQuery

/-- The parts of an address. The host has its user and port with it. -/
structure Url where
  scheme : List Char
  host : List Char
  path : List Char
  query : List Char
  fragment : List Char
  deriving DecidableEq, Repr, Inhabited

namespace Url

inductive Fault where
  | unbalancedBrackets
  | futureAddress
  | noAddress (host : String)
  | fourInBrackets
  | deceptiveHost (host : String)
  deriving DecidableEq, Repr, Inhabited

def Fault.message : Fault → String
  | unbalancedBrackets => "Invalid IPv6 URL"
  | futureAddress => "IPvFuture address is invalid"
  | noAddress host => Text.quoted host ++ " does not appear to be an IPv4 or IPv6 address"
  | fourInBrackets => "An IPv4 address cannot be in brackets"
  | deceptiveHost host =>
    "netloc '" ++ host ++ "' contains invalid characters under NFKC normalization"

def isSchemePart (c : Char) : Bool := c.isAlphanum || c == '+' || c == '-' || c == '.'

/-- Splits a text before the first character that satisfies a test. -/
def splitBefore (p : Char → Bool) (cs : List Char) : List Char × List Char :=
  (cs.takeWhile fun c => !p c, cs.dropWhile fun c => !p c)

/-- The scheme in lower case, if the text starts with one, and the text after it. -/
def splitScheme (cs : List Char) : List Char × List Char :=
  match splitBefore (· == ':') cs with
  | (c :: more, ':' :: rest) =>
    if c.isAlpha && more.all isSchemePart then ((c :: more).map Char.toLower, rest) else ([], cs)
  | _ => ([], cs)

/-- Whether a text is a number up to 255 without superfluous zeros. -/
def isOctet (cs : List Char) : Bool :=
  let n := cs.foldl (fun n c => n * 10 + (c.toNat - 48)) 0
  !cs.isEmpty && cs.all Char.isDigit && cs.length ≤ 3 && (cs.length = 1 || cs.head? ≠ some '0')
    && n ≤ 255

def isAddress4 (cs : List Char) : Bool :=
  let parts := Text.cut '.' cs
  parts.length = 4 && parts.all isOctet

def isHex (c : Char) : Bool :=
  c.isDigit || ('a' ≤ c && c ≤ 'f') || ('A' ≤ c && c ≤ 'F')

def isGroup (cs : List Char) : Bool := !cs.isEmpty && cs.length ≤ 4 && cs.all isHex

/-- Whether the groups between colons make an address: eight of them, or fewer with one gap. -/
def areGroups (parts : List (List Char)) : Bool :=
  let inner := (parts.drop 1).dropLast
  let gaps := inner.countP List.isEmpty
  let first := parts.head?.getD []
  let last := parts.getLast?.getD []
  if parts.length < 3 ∨ 9 < parts.length ∨ 1 < gaps then false
  else if gaps = 0 then parts.length = 8 && parts.all isGroup
  else
    let before := (inner.takeWhile fun p => !p.isEmpty)
    let after := (inner.dropWhile fun p => !p.isEmpty).drop 1
    let high := if first.isEmpty then before.length = 0 else (first :: before).all isGroup
    let low := if last.isEmpty then after.length = 0 else (after ++ [last]).all isGroup
    let count := (if first.isEmpty then 0 else 1) + before.length + after.length
      + (if last.isEmpty then 0 else 1)
    high && low && count < 8

def isAddress6 (cs : List Char) : Bool :=
  let (address, zone) := splitBefore (· == '%') cs
  let zoneOk := match zone with
    | [] => true
    | _ :: name => !name.isEmpty && !name.contains '%'
  let parts := Text.cut ':' address
  let last := parts.getLast?.getD []
  zoneOk && !cs.contains '/' &&
    if parts.length < 3 then false
    else if last.contains '.' then
      isAddress4 last && areGroups (parts.dropLast ++ [['0'], ['0']])
    else areGroups parts

/-- Checks what stands between brackets. -/
def checkBracketed (host : List Char) : Except Fault Unit :=
  match host with
  | 'v' :: rest =>
    let digits := rest.takeWhile isHex
    match rest.drop digits.length with
    | '.' :: _ :: _ => if digits.isEmpty then .error .futureAddress else .ok ()
    | _ => .error .futureAddress
  | _ =>
    if isAddress4 host then .error .fourInBrackets
    else if isAddress6 host then .ok ()
    else .error (.noAddress (String.ofList host))

/-- The part after the last occurrence of a character, or everything. -/
def afterLast (c : Char) (cs : List Char) : List Char :=
  (cs.reverse.takeWhile (· ≠ c)).reverse

/-- Nothing may stand before a bracket, and only a port after one. This is the rule of the platform's
release 3.11.12 and of those behind it. Up to 3.11.11 only what stands between the brackets was
looked at, so that a host such as `a[::1]b` passed. -/
def checkBrackets (host : List Char) : Except Fault Unit :=
  if host.contains '[' ≠ host.contains ']' then .error .unbalancedBrackets
  else if !host.contains '[' then .ok ()
  else
    let main := afterLast '@' host
    match splitBefore (· == '[') main with
    | ([], _ :: bracketed) =>
      let (inside, rest) := splitBefore (· == ']') bracketed
      match rest.drop 1 with
      | [] | ':' :: _ => checkBracketed inside
      | _ => .error .unbalancedBrackets
    | (_, _ :: _) => .error .unbalancedBrackets
    | (before, []) => checkBracketed (splitBefore (· == ':') before).1

/-- Characters whose compatibility form holds a delimiter of addresses. -/
def deceptive : List Nat :=
  [0x2047, 0x2048, 0x2049, 0x2100, 0x2101, 0x2105, 0x2106, 0x2A74, 0xFE13, 0xFE16, 0xFE55, 0xFE56,
    0xFE5F, 0xFE6B, 0xFF03, 0xFF0F, 0xFF1A, 0xFF1F, 0xFF20]

def isDelimiter (c : Char) : Bool := c == '/' || c == '?' || c == '#'

/-- Removes what an address cannot hold: controls and blanks before it, tabs and line ends in it. -/
def clean (cs : List Char) : List Char :=
  (cs.dropWhile fun c => c.toNat ≤ 0x20).filter fun c => c != '\t' && c != '\r' && c != '\n'

/-- Takes an address apart. -/
def parse (text : List Char) : Except Fault Url := do
  let (scheme, rest) := splitScheme (clean text)
  let (host, rest) := match rest with
    | '/' :: '/' :: r => splitBefore isDelimiter r
    | _ => ([], rest)
  checkBrackets host
  let (rest, fragment) := splitBefore (· == '#') rest
  let (path, query) := splitBefore (· == '?') rest
  if host.any fun c => deceptive.contains c.toNat then
    throw (.deceptiveHost (String.ofList host))
  return ⟨scheme, host, path, query.drop 1, fragment.drop 1⟩

/-- The schemes whose addresses have a host even when it is empty. -/
def hostSchemes : List (List Char) :=
  ["ftp", "http", "gopher", "nntp", "telnet", "imap", "wais", "file", "mms", "https", "shttp",
    "snews", "prospero", "rtsp", "rtsps", "rtspu", "rsync", "svn", "svn+ssh", "sftp", "nfs", "git",
    "git+ssh", "ws", "wss"].map String.toList

/-- Puts an address together. An empty query or fragment leaves no mark. -/
def text (url : Url) : List Char :=
  let hasHost := url.host ≠ [] ∨ (hostSchemes.contains url.scheme ∧ url.path.take 2 ≠ ['/', '/'])
  let path :=
    if hasHost then
      let rooted := if url.path ≠ [] ∧ url.path.head? ≠ some '/' then '/' :: url.path else url.path
      ['/', '/'] ++ url.host ++ rooted
    else url.path
  (if url.scheme = [] then [] else url.scheme ++ [':']) ++ path
    ++ (if url.query = [] then [] else '?' :: url.query)
    ++ (if url.fragment = [] then [] else '#' :: url.fragment)

/-- The schemes whose last path component may carry parameters after a semicolon. -/
def parameterSchemes : List (List Char) :=
  ["", "ftp", "hdl", "prospero", "http", "imap", "https", "shttp", "rtsp", "rtsps", "rtspu", "sip",
    "sips", "mms", "sftp", "tel"].map String.toList

/-- The path without the parameters of its last component. -/
def plainPath (url : Url) : List Char :=
  if parameterSchemes.contains url.scheme then
    let last := afterLast '/' url.path
    url.path.take (url.path.length - last.length) ++ last.takeWhile (· ≠ ';')
  else url.path

/-- The scheme of websockets that belongs to a scheme of requests. -/
def socketScheme (scheme : List Char) : List Char :=
  if scheme = "http".toList then "ws".toList
  else if scheme = "https".toList then "wss".toList
  else scheme

/-- The websocket address that belongs to a request address. -/
def socketUrl (address : String) : Except Fault String := do
  let url ← parse address.toList
  return String.ofList { url with scheme := socketScheme url.scheme }.text

/-! Escapes in paths. -/

def isUnreserved (n : Nat) : Bool :=
  let c := Char.ofNat n
  n < 128 && (c.isAlphanum || c == '_' || c == '.' || c == '-' || c == '~' || c == '/')

def hexDigit (n : Nat) : Char := (Nat.digitChar n).toUpper

def escapeByte (b : UInt8) : List Char :=
  let n := b.toNat
  if isUnreserved n then [Char.ofNat n] else ['%', hexDigit (n / 16), hexDigit (n % 16)]

/-- Escapes every byte but slashes and the unreserved characters. -/
def escapePath (path : String) : List Char := (Text.encodeUtf8 path).flatMap escapeByte

def hexValue (c : Char) : Nat :=
  if c.isDigit then c.toNat - 48 else c.toLower.toNat - 87

/-- The bytes of an ASCII text with escapes; a percent sign without two digits stands for itself. -/
def unescapeBytes : List Char → List UInt8
  | '%' :: a :: b :: r =>
    if isHex a && isHex b then (hexValue a * 16 + hexValue b).toUInt8 :: unescapeBytes r
    else 37 :: unescapeBytes (a :: b :: r)
  | c :: r => c.toNat.toUInt8 :: unescapeBytes r
  | [] => []

/-- Replaces the escapes of a text. Escapes that follow each other are read together as UTF-8; a
character beyond ASCII stands for itself. `run` is the ASCII text read so far, in reverse. -/
def unescapeFrom (run : List Char) : List Char → List Char
  | [] => Text.replaceUtf8 (unescapeBytes run.reverse)
  | c :: r =>
    if c.toNat < 128 then unescapeFrom (c :: run) r
    else Text.replaceUtf8 (unescapeBytes run.reverse) ++ c :: unescapeFrom [] r

def unescape (cs : List Char) : String := String.ofList (unescapeFrom [] cs)

end Url

namespace Path

/-- The address of an absolute path. -/
def fileUri (path : Path) : String := String.ofList ("file://".toList ++ Url.escapePath path.toString)

/-- The path behind the address of a file; other addresses have none. -/
def ofUri? (uri : String) : Except Url.Fault (Option Path) := do
  let url ← Url.parse uri.toList
  return if url.scheme = "file".toList then some (Path.ofString (Url.unescape url.path)) else none

end Path
end InlineQuery
