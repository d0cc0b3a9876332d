import ApiModel.Url.Host

namespace ApiModel.Url

open Text (isAsciiDigit isAsciiLetter asciiLower afterStart?)

inductive SchemeKind where
  | domain
  | file
  | other
  deriving DecidableEq, Repr

def SchemeKind.of (scheme : List Char) : SchemeKind :=
  let scheme := String.ofList (scheme.map asciiLower)
  if ["http", "https", "ws", "wss", "ftp"].contains scheme then .domain
  else if scheme = "file" then .file
  else .other

def cleaned (s : List Char) : List Char :=
  let isOuter (c : Char) := decide (c.toNat ≤ 0x20)
  let s := ((s.dropWhile isOuter).reverse.dropWhile isOuter).reverse
  s.filter fun c => c != '\t' && c != '\n' && c != '\r'

def isSchemeChar (c : Char) : Bool :=
  isAsciiLetter c || isAsciiDigit c || c == '+' || c == '-' || c == '.'

def splitScheme? (s : List Char) : Option (List Char × List Char) :=
  let scheme := s.takeWhile isSchemeChar
  match s.drop scheme.length with
  | ':' :: rest => if scheme.head?.any isAsciiLetter then some (scheme, rest) else none
  | _ => none

def endsAuthority (kind : SchemeKind) (c : Char) : Bool :=
  c == '/' || c == '?' || c == '#' || (kind != .other && c == '\x5c')

def splitUser (authority : List Char) : Option (List Char) × List Char :=
  let reversed := authority.reverse
  let host := (reversed.takeWhile (· != '@')).reverse
  if host.length = authority.length then (none, authority)
  else (some (authority.take (authority.length - host.length - 1)), host)

def splitHost : Bool → List Char → List Char × List Char
  | _, [] => ([], [])
  | inside, c :: rest =>
      if c == ':' && !inside then ([], c :: rest)
      else
        let inside := if c == '[' then true else if c == ']' then false else inside
        let (host, port) := splitHost inside rest
        (c :: host, port)

def isPort (s : List Char) : Bool :=
  let digits := s.takeWhile (· != '\x5c')
  digits.all isAsciiDigit && numberIn 10 digits ≤ 65535

def isAuthority (kind : SchemeKind) (authority : List Char) : Bool :=
  let (user, rest) := splitUser authority
  let (host, port) := splitHost false rest
  let hostFine := if kind = .other then isOpaqueHost host else isDomainHost host
  let mayBeEmpty := kind == .other && port.isEmpty && user.all fun u => u.isEmpty || u = [':']
  hostFine && (!host.isEmpty || mayBeEmpty) && isPort (port.drop 1)

def isFileHost (host : List Char) : Bool :=
  match host with
  | [] => true
  | [drive, mark] => (isAsciiLetter drive && (mark == ':' || mark == '|')) || isDomainHost host
  | _ => isDomainHost host

def isSlash (c : Char) : Bool := c == '/' || c == '\x5c'

/-- For a scheme without domains a lone `@` names no host at the end of the text only. -/
def isAbsolute (s : List Char) : Bool :=
  match splitScheme? (cleaned s) with
  | none => false
  | some (scheme, rest) =>
      match SchemeKind.of scheme with
      | .domain =>
          isAuthority .domain ((rest.dropWhile isSlash).takeWhile (!endsAuthority .domain ·))
      | .file =>
          match rest with
          | a :: b :: rest =>
              if isSlash a && isSlash b then
                isFileHost (rest.takeWhile (!endsAuthority .file ·))
              else true
          | _ => true
      | .other =>
          match afterStart? ['/', '/'] rest with
          | some rest =>
              let authority := rest.takeWhile (!endsAuthority .other ·)
              isAuthority .other authority && (authority != ['@'] || rest == ['@'])
          | none => true

end ApiModel.Url
