import Tenancy.Files
import Tenancy.Settings.Basic

/-! # Certificates and keys

A server that speaks with encryption needs a certificate and exactly one private key. Both stand in
files of sections: lines of base-64 digits between a line that names what begins and one that names
what ends. Other lines do not matter.
-/

namespace Tenancy.Http

structure Section where
  label : String
  /-- The digits, without the breaks between them. -/
  digits : List Char
  deriving DecidableEq, Repr

namespace Section

def trimEnd (line : List Char) : List Char :=
  (line.reverse.dropWhile fun c => c == ' ' || c == '\t' || c == '\r').reverse

def dashes : List Char := List.replicate 5 '-'

/-- What a line names between a word and dashes. -/
def named? (word : String) (line : List Char) : Option String :=
  let front := dashes ++ word.toList ++ [' ']
  let line := trimEnd line
  let inner := line.length - front.length - dashes.length
  if front.isPrefixOf line ∧ line.length = front.length + inner + dashes.length
      ∧ dashes.isSuffixOf line then
    some (String.ofList ((line.drop front.length).take inner))
  else none

/-- The sections among lines, where `opened` is the section that has begun, lines last first. A
section that does not end is none. -/
def among (opened : Option (String × List (List Char))) : List (List Char) → List Section
  | [] => []
  | line :: rest =>
    match opened with
    | none => among ((named? "BEGIN" line).map (·, [])) rest
    | some (label, lines) =>
      if named? "END" line = some label then
        ⟨label, lines.reverse.flatten⟩ :: among none rest
      else among (some (label, trimEnd line :: lines)) rest

def ofText (text : String) : List Section := among none (text.toList.splitOn '\n')

def isKey (s : Section) : Bool :=
  s.label ∈ ["PRIVATE KEY", "RSA PRIVATE KEY", "EC PRIVATE KEY"]

def isCertificate (s : Section) : Bool := s.label = "CERTIFICATE"

/-- The value of a base-64 digit. -/
def sextet? (c : Char) : Option Nat :=
  if 'A' ≤ c ∧ c ≤ 'Z' then some (c.toNat - 'A'.toNat)
  else if 'a' ≤ c ∧ c ≤ 'z' then some (c.toNat - 'a'.toNat + 26)
  else if '0' ≤ c ∧ c ≤ '9' then some (c.toNat - '0'.toNat + 52)
  else if c = '+' then some 62
  else if c = '/' then some 63
  else none

/-- The bytes that base-64 digits stand for. -/
def decode64 (digits : List Char) : List Nat :=
  match digits with
  | a :: b :: c :: d :: rest =>
    let v (c : Char) : Nat := (sextet? c).getD 0
    let n := v a * 0x40000 + v b * 0x1000 + v c * 0x40 + v d
    let three := [n / 0x10000, n / 0x100 % 0x100, n % 0x100]
    three.take (if d ≠ '=' then 3 else if c ≠ '=' then 2 else 1) ++ decode64 rest
  | _ => []

/-- Whether bytes are one sequence: a tag, the length of the rest, and the rest. -/
def isSequence : List Nat → Bool
  | 0x30 :: n :: rest =>
    if n < 0x80 then rest.length == n
    else
      let size := n - 0x80
      (rest.drop size).length == (rest.take size).foldl (fun v b => v * 256 + b) 0
  | _ => false

def isWellFormed (s : Section) : Bool := isSequence (decode64 s.digits)

end Section

/-- Why certificate and key cannot be used. -/
inductive TlsFault where
  | unreadable (path : String) (why : FileError)
  /-- There is not exactly one key. -/
  | keyCount
  | brokenKey
  | noCertificate
  | brokenCertificate
  deriving DecidableEq, Repr

def TlsFault.message : TlsFault → String
  | .unreadable path why => "failed to read from file " ++ Text.ticked path ++ ": " ++ why.message
  | .keyCount => "private key format not supported"
  | .brokenKey => "unknown private key format"
  | .noCertificate => "peer sent no certificates"
  | .brokenCertificate => "invalid peer certificate: BadEncoding"

/-- Reads a file that is needed for encryption. -/
def readPart (files : Files) (path : String) : Except TlsFault String :=
  (files.read path).mapError (.unreadable path)

/-- Checks certificate and key. The files are read first, then the key is looked at, then the
certificate. -/
def checkTls (files : Files) (tls : TlsFiles) : Except TlsFault Unit := do
  let certificates := (Section.ofText (← readPart files tls.certificate)).filter (·.isCertificate)
  let keys := (Section.ofText (← readPart files tls.key)).filter (·.isKey)
  match keys, certificates with
  | [key], certificates =>
    if !key.isWellFormed then .error .brokenKey
    else
      match certificates with
      | [] => .error .noCertificate
      | c :: _ => if c.isWellFormed then .ok () else .error .brokenCertificate
  | _, _ => .error .keyCount

end Tenancy.Http
