import Mathlib.Tactic

/-!
# IP addresses and their texts

Addresses of both versions, the texts they are read from, the networks they lie in and what an
address is set aside for.

Main results:

- `parse_dotted`: the dotted text of an address is read back.
-/

namespace IpAddress

/-- An address. -/
inductive Ip where
  | v4 (value : BitVec 32)
  | v6 (value : BitVec 128) (scope : Option (List Char))
deriving DecidableEq

/-! ## Texts -/

/-- The value of the octets, from the highest. -/
def ofOctets (a b c d : Nat) : BitVec 32 :=
  BitVec.ofNat 32 (((a * 256 + b) * 256 + c) * 256 + d)

/-- An octet has no leading zeros. -/
def parseOctet (text : List Char) : Option Nat :=
  if text = [] ∨ ¬ text.all Char.isDigit ∨ 3 < text.length ∨
      (text ≠ ['0'] ∧ text.head? = some '0') then none
  else if 255 < Nat.ofDigitChars 10 text 0 then none
  else some (Nat.ofDigitChars 10 text 0)

def parseV4 (text : List Char) : Option (BitVec 32) :=
  match text.splitOn '.' with
  | [a, b, c, d] => do
      return ofOctets (← parseOctet a) (← parseOctet b) (← parseOctet c) (← parseOctet d)
  | _ => none

def hexDigit? (c : Char) : Option Nat :=
  if '0' ≤ c ∧ c ≤ '9' then some (c.toNat - '0'.toNat)
  else if 'a' ≤ c ∧ c ≤ 'f' then some (c.toNat - 'a'.toNat + 10)
  else if 'A' ≤ c ∧ c ≤ 'F' then some (c.toNat - 'A'.toNat + 10)
  else none

def parseHextet (text : List Char) : Option Nat :=
  if text = [] ∨ 4 < text.length then none
  else text.foldlM (fun n c => (hexDigit? c).map (16 * n + ·)) 0

/-- The value of up to eight hextets, from the highest. -/
def ofHextets (hextets : List Nat) : BitVec 128 :=
  BitVec.ofNat 128 ((hextets.foldl (fun n h => n * 65536 + h) 0) * 65536 ^ (8 - hextets.length))

/-- An address may end in the dotted text of its lowest two hextets. -/
def expandDotted (parts : List (List Char)) : Option (List (List Char)) :=
  match parts.getLast? with
  | none => none
  | some last =>
    if '.' ∈ last then
      (parseV4 last).map fun v =>
        parts.dropLast ++
          [Nat.toDigits 16 (v.toNat / 65536), Nat.toDigits 16 (v.toNat % 65536)]
    else some parts

/-- The parts on one side of `::`, whose outer end is empty only where it is all there is. -/
def sideParts (outer : Option (List Char)) (parts : List (List Char)) :
    Option (List (List Char)) :=
  if outer = some [] then if parts.length = 1 then some [] else none else some parts

/-- The positions of the empty parts between the first and the last. -/
def gaps (parts : List (List Char)) : List Nat :=
  (List.range (parts.length - 1)).filter fun i => i ≠ 0 ∧ parts[i]? = some []

def parseHextets (parts : List (List Char)) : Option (BitVec 128) :=
  match gaps parts with
  | [] =>
    if parts.length = 8 then (parts.mapM parseHextet).map ofHextets else none
  | [i] => do
      let high ← sideParts parts.head? (parts.take i)
      let low ← sideParts parts.getLast? (parts.drop (i + 1))
      if high.length + low.length < 8 then
        let hextets ← high.mapM parseHextet
        let rest ← low.mapM parseHextet
        return ofHextets
          (hextets ++ List.replicate (8 - (high.length + low.length)) 0 ++ rest)
      else none
  | _ => none

/-- The address and its scope, if one follows. -/
def splitScope (text : List Char) : Option (List Char × Option (List Char)) :=
  match text.splitOn '%' with
  | [address] => some (address, none)
  | [address, scope] => if scope = [] then none else some (address, some scope)
  | _ => none

def parseV6 (text : List Char) : Option Ip := do
  let (address, scope) ← splitScope text
  let parts := address.splitOn ':'
  if parts.length < 3 then none
  else
    let parts ← expandDotted parts
    if 9 < parts.length then none
    else return .v6 (← parseHextets parts) scope

/-- The address that a text stands for. -/
def parse (text : List Char) : Option Ip :=
  if '/' ∈ text then none
  else
    match parseV4 text with
    | some value => some (.v4 value)
    | none => parseV6 text

/-- The text of an IPv4 address. -/
def dotted (value : BitVec 32) : List Char :=
  let n := value.toNat
  ['.'].intercalate
    ([n / 16777216, n / 65536 % 256, n / 256 % 256, n % 256].map (Nat.toDigits 10))

theorem parseOctet_toDigits : ∀ n < 256, parseOctet (Nat.toDigits 10 n) = some n := by
  decide +kernel

/-- A written number has digits only. -/
theorem not_mem_toDigits {c : Char} (hc : c.isDigit = false) (n : Nat) : c ∉ Nat.toDigits 10 n := by
  intro hmem
  have hdigit := Nat.isDigit_of_mem_toDigits (by decide) (by decide) hmem
  rw [hc] at hdigit
  contradiction

/-- An address is made of its four octets. -/
theorem ofOctets_toNat (value : BitVec 32) :
    ofOctets (value.toNat / 16777216) (value.toNat / 65536 % 256) (value.toNat / 256 % 256)
      (value.toNat % 256) = value := by
  apply BitVec.eq_of_toNat_eq
  have hlt := value.isLt
  simp only [ofOctets, BitVec.toNat_ofNat]
  omega

theorem parseV4_dotted (value : BitVec 32) : parseV4 (dotted value) = some value := by
  have hlt := value.isLt
  have hsplit : (dotted value).splitOn '.' =
      [value.toNat / 16777216, value.toNat / 65536 % 256, value.toNat / 256 % 256,
        value.toNat % 256].map (Nat.toDigits 10) := by
    apply List.splitOn_intercalate
    · intro part hpart
      obtain ⟨n, _, rfl⟩ := List.mem_map.mp hpart
      exact not_mem_toDigits (by decide) n
    · simp
  have hoctet : ∀ n : Nat, parseOctet (Nat.toDigits 10 (n % 256)) = some (n % 256) :=
    fun n => parseOctet_toDigits _ (Nat.mod_lt n (by decide))
  have htop : parseOctet (Nat.toDigits 10 (value.toNat / 16777216)) =
      some (value.toNat / 16777216) :=
    parseOctet_toDigits _ (by omega)
  simp only [parseV4, hsplit, List.map_cons, List.map_nil, htop, hoctet]
  exact congrArg some (ofOctets_toNat value)

/-- The dotted text of an address is read back. -/
theorem parse_dotted (value : BitVec 32) : parse (dotted value) = some (.v4 value) := by
  have hslash : '/' ∉ dotted value := by
    have hdigits := not_mem_toDigits (c := '/') (by decide)
    simp [dotted, List.intercalate, hdigits]
  rw [parse, if_neg hslash, parseV4_dotted]

/-! ## Networks -/

/-- A network: its address, and how many leading bits belong to it. -/
structure Network where
  address : Ip
  prefixLength : Nat

def net4 (a b c d length : Nat) : Network :=
  ⟨.v4 (ofOctets a b c d), length⟩

/-- Written by its leading hextets. -/
def net6 (hextets : List Nat) (length : Nat) : Network :=
  ⟨.v6 (ofHextets hextets) none, length⟩

/-- The address lies in the network, which is of the same version. -/
def Network.contains (net : Network) : Ip → Bool
  | .v4 n =>
    match net.address with
    | .v4 m => n >>> (32 - net.prefixLength) = m >>> (32 - net.prefixLength)
    | .v6 _ _ => false
  | .v6 n _ =>
    match net.address with
    | .v4 _ => false
    | .v6 m _ => n >>> (128 - net.prefixLength) = m >>> (128 - net.prefixLength)

def inAny (nets : List Network) (ip : Ip) : Bool :=
  nets.any fun net => net.contains ip

/-- `_private_networks` of both versions. -/
def privateNetworks : List Network :=
  [net4 0 0 0 0 8, net4 10 0 0 0 8, net4 127 0 0 0 8, net4 169 254 0 0 16, net4 172 16 0 0 12,
    net4 192 0 0 0 24, net4 192 0 0 170 31, net4 192 0 2 0 24, net4 192 168 0 0 16,
    net4 198 18 0 0 15, net4 198 51 100 0 24, net4 203 0 113 0 24, net4 240 0 0 0 4,
    net4 255 255 255 255 32,
    net6 [0, 0, 0, 0, 0, 0, 0, 1] 128, net6 [0] 128, net6 [0, 0, 0, 0, 0, 0xffff] 96,
    net6 [0x64, 0xff9b, 1] 48, net6 [0x100] 64, net6 [0x2001] 23, net6 [0x2001, 0xdb8] 32,
    net6 [0x2002] 16, net6 [0x3fff] 20, net6 [0xfc00] 7, net6 [0xfe80] 10]

/-- `_private_networks_exceptions`. -/
def privateExceptions : List Network :=
  [net4 192 0 0 9 32, net4 192 0 0 10 32,
    net6 [0x2001, 1, 0, 0, 0, 0, 0, 1] 128, net6 [0x2001, 1, 0, 0, 0, 0, 0, 2] 128,
    net6 [0x2001, 3] 32, net6 [0x2001, 4, 0x112] 48, net6 [0x2001, 0x20] 28,
    net6 [0x2001, 0x30] 28]

def reservedNetworks : List Network :=
  [net4 240 0 0 0 4,
    net6 [0] 8, net6 [0x100] 8, net6 [0x200] 7, net6 [0x400] 6, net6 [0x800] 5,
    net6 [0x1000] 4, net6 [0x4000] 3, net6 [0x6000] 3, net6 [0x8000] 3, net6 [0xa000] 3,
    net6 [0xc000] 3, net6 [0xe000] 4, net6 [0xf000] 5, net6 [0xf800] 6, net6 [0xfe00] 9]

def isPrivate (ip : Ip) : Bool :=
  inAny privateNetworks ip && !inAny privateExceptions ip

def isLoopback (ip : Ip) : Bool :=
  inAny [net4 127 0 0 0 8, net6 [0, 0, 0, 0, 0, 0, 0, 1] 128] ip

def isLinkLocal (ip : Ip) : Bool :=
  inAny [net4 169 254 0 0 16, net6 [0xfe80] 10] ip

def isMulticast (ip : Ip) : Bool :=
  inAny [net4 224 0 0 0 4, net6 [0xff00] 8] ip

def isReserved (ip : Ip) : Bool :=
  inAny reservedNetworks ip

def isUnspecified (ip : Ip) : Bool :=
  inAny [net4 0 0 0 0 32, net6 [0] 128] ip

/-- The IPv4 address that an IPv6 address maps, in its place. -/
def unmapped : Ip → Ip
  | .v6 n scope =>
    if n >>> 32 = 0xffff then .v4 (n.setWidth 32) else .v6 n scope
  | ip => ip

end IpAddress
