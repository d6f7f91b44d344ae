import Mathlib.Algebra.Group.Nat.Defs
import Mathlib.Data.List.Basic

/-!
# IP addresses

The addresses and networks of Python's `ipaddress`: how `ip_address` reads a text,
which addresses are in a network, and how an IPv6 address is written.
-/

namespace HybridInference.Library

inductive Address where
  | v4 (bits : BitVec 32)
  | v6 (bits : BitVec 128) (scope : Option (List Char))
  deriving DecidableEq

inductive Network where
  | v4 (bits : BitVec 32) (length : ℕ)
  | v6 (bits : BitVec 128) (length : ℕ)
  deriving DecidableEq

namespace Network

/-- `address in network`: same version and the same leading bits. -/
def contains : Network → Address → Bool
  | .v4 bits length, .v4 address => bits >>> (32 - length) = address >>> (32 - length)
  | .v6 bits length, .v6 address _ => bits >>> (128 - length) = address >>> (128 - length)
  | _, _ => false

/-- `prefixlen == max_prefixlen`. -/
def isSingle : Network → Bool
  | .v4 _ length => length = 32
  | .v6 _ length => length = 128

end Network

namespace Address

/-- `int` of digits that were checked before, in a base. -/
def numberOf (base : ℕ) (digit : Char → ℕ) (text : List Char) : ℕ :=
  text.foldl (fun number c => number * base + digit c) 0

def decimalDigit (c : Char) : ℕ := c.toNat - '0'.toNat

def parseOctet (text : List Char) : Option ℕ :=
  if text = [] ∨ text.all Char.isDigit = false ∨ 3 < text.length ∨
      (text ≠ ['0'] ∧ text.head? = some '0') then none
  else
    let number := numberOf 10 decimalDigit text
    if 255 < number then none else some number

def parseV4 (text : List Char) : Option (BitVec 32) :=
  match (text.splitOn '.').mapM parseOctet with
  | some [first, second, third, fourth] =>
    some (BitVec.ofNat 32 (((first * 256 + second) * 256 + third) * 256 + fourth))
  | _ => none

def isHexDigit (c : Char) : Bool :=
  c.isDigit || ('a' ≤ c && c ≤ 'f') || ('A' ≤ c && c ≤ 'F')

def hexDigit (c : Char) : ℕ :=
  if c.isDigit then c.toNat - '0'.toNat
  else if 'a' ≤ c && c ≤ 'f' then c.toNat - 'a'.toNat + 10
  else c.toNat - 'A'.toNat + 10

def parseHextet (text : List Char) : Option ℕ :=
  if text = [] ∨ text.all isHexDigit = false ∨ 4 < text.length then none
  else some (numberOf 16 hexDigit text)

def withoutV4Suffix (parts : List (List Char)) : Option (List (List Char)) :=
  match parts.getLast? with
  | some last =>
    if '.' ∈ last then
      (parseV4 last).map fun bits =>
        parts.dropLast ++
          [Nat.toDigits 16 (bits.toNat / 65536), Nat.toDigits 16 (bits.toNat % 65536)]
    else some parts
  | none => some parts

def skips (parts : List (List Char)) : List ℕ :=
  (List.range parts.length).filter fun place =>
    0 < place ∧ place + 1 < parts.length ∧ parts[place]? = some []

def layout (parts : List (List Char)) : Option (ℕ × ℕ × ℕ) :=
  match skips parts with
  | [] =>
    if parts.length = 8 ∧ parts.head? ≠ some [] ∧ parts.getLast? ≠ some [] then some (8, 0, 0)
    else none
  | [skip] =>
    let leading := parts.head? = some []
    let trailing := parts.getLast? = some []
    let before := if leading then skip - 1 else skip
    let after := if trailing then parts.length - skip - 2 else parts.length - skip - 1
    if (leading ∧ before ≠ 0) ∨ (trailing ∧ after ≠ 0) ∨ 8 ≤ before + after then none
    else some (before, after, 8 - (before + after))
  | _ => none

/-- `_ip_int_from_string`. -/
def parseHextets (text : List Char) : Option (BitVec 128) := do
  let parts := text.splitOn ':'
  if parts.length < 3 then none
  else
    let parts ← withoutV4Suffix parts
    if 9 < parts.length then none
    else
      let (before, after, skipped) ← layout parts
      let first ← (parts.take before).mapM parseHextet
      let last ← (parts.drop (parts.length - after)).mapM parseHextet
      let hextets := first ++ List.replicate skipped 0 ++ last
      some (BitVec.ofNat 128 (hextets.foldl (fun number hextet => number * 65536 + hextet) 0))

def splitScope (text : List Char) : Option (List Char × Option (List Char)) :=
  match text.span (· ≠ '%') with
  | (address, []) => some (address, none)
  | (address, _ :: scope) => if scope = [] ∨ '%' ∈ scope then none else some (address, some scope)

def parseV6 (text : List Char) : Option (BitVec 128 × Option (List Char)) := do
  if '/' ∈ text then none
  else
    let (address, scope) ← splitScope text
    let bits ← parseHextets address
    some (bits, scope)

/-- `ip_address`; `none` where it raises `ValueError`. -/
def parse (text : List Char) : Option Address :=
  match parseV4 text with
  | some bits => some (.v4 bits)
  | none => (parseV6 text).map fun parsed => .v6 parsed.1 parsed.2

def v4Mapped (bits : BitVec 128) : Option (BitVec 32) :=
  if bits >>> 32 = 65535#128 then some (bits.truncate 32) else none

/-- `is_loopback`, `is_link_local`, `is_multicast` or `is_unspecified`. -/
def isLocal (address : Address) : Bool :=
  [Network.v4 0x7f000000#32 8, Network.v4 0xa9fe0000#32 16, Network.v4 0xe0000000#32 4,
    Network.v4 0#32 32, Network.v6 1#128 128,
    Network.v6 0xfe800000000000000000000000000000#128 10,
    Network.v6 0xff000000000000000000000000000000#128 8, Network.v6 0#128 128].any
      fun network => network.contains address

def hextets (bits : BitVec 128) : List ℕ :=
  (List.range 8).map fun place => bits.toNat / 65536 ^ (7 - place) % 65536

def zeroRuns : List ℕ → List ℕ
  | [] => []
  | hextet :: rest =>
    let runs := zeroRuns rest
    (if hextet = 0 then runs.headD 0 + 1 else 0) :: runs

/-- The hextets between colons, of which `_compress_hextets` leaves out the first longest
run of zeros. -/
def writeV6 (bits : BitVec 128) : List Char :=
  let values := hextets bits
  let longest := (zeroRuns values).foldl max 0
  let written (part : List ℕ) : List Char :=
    [':'].intercalate (part.map fun hextet => Nat.toDigits 16 hextet)
  if longest ≤ 1 then written values
  else
    let start := (zeroRuns values).idxOf longest
    written (values.take start) ++ [':', ':'] ++ written (values.drop (start + longest))

/-- `str` of an address; an IPv4 address is never written here. -/
def writeScoped (bits : BitVec 128) (scope : Option (List Char)) : List Char :=
  writeV6 bits ++ (scope.map fun name => '%' :: name).getD []

end Address

end HybridInference.Library
