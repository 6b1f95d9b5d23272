import Mathlib.Data.List.Basic

/-!
# Parsed packets

`packet.Packet(data)` followed by `get_protocol`, for the five headers the firewall asks for. The
parser walks from the Ethernet header inwards and stops at the first header it cannot unpack, or
when nothing but zero bytes is left; a header it did not reach is absent. Header fields nothing
reads are left out, and so are the option lists and the application layer behind TCP and UDP.
-/

namespace SdnFirewall

/-- Byte strings. -/
abbrev Bytes := List UInt8

def ETH_TYPE_IP : ℕ := 0x0800
def ETH_TYPE_ARP : ℕ := 0x0806
def IPPROTO_ICMP : ℕ := 1
def IPPROTO_TCP : ℕ := 6
def IPPROTO_UDP : ℕ := 17

/-! ## Unpacking -/

/-- The byte at offset `i`. -/
def u8 (buf : Bytes) (i : ℕ) : ℕ := (buf.getD i 0).toNat

/-- The big-endian 16-bit field at offset `i`. -/
def u16 (buf : Bytes) (i : ℕ) : ℕ := u8 buf i * 256 + u8 buf (i + 1)

/-- The big-endian 32-bit field at offset `i`. -/
def u32 (buf : Bytes) (i : ℕ) : ℕ := u16 buf i * 65536 + u16 buf (i + 2)

/-- Two lower-case hexadecimal digits. -/
def hex2 (b : UInt8) : String :=
  String.ofList (List.leftpad 2 '0' (Nat.toDigits 16 b.toNat))

/-- `addrconv.mac.bin_to_text` on the six bytes at offset `i`. -/
def macText (buf : Bytes) (i : ℕ) : String :=
  ":".intercalate (((buf.drop i).take 6).map hex2)

/-- `addrconv.ipv4.bin_to_text` on the four bytes at offset `i`. -/
def ipv4Text (buf : Bytes) (i : ℕ) : String :=
  ".".intercalate (((buf.drop i).take 4).map fun b => toString b.toNat)

/-! ## Headers -/

structure Ethernet where
  dst : String
  src : String
  ethertype : ℕ
deriving DecidableEq

structure IPv4 where
  headerLength : ℕ
  totalLength : ℕ
  proto : ℕ
  src : String
  dst : String
deriving DecidableEq

structure Tcp where
  srcPort : ℕ
  dstPort : ℕ
  seq : ℕ
  offset : ℕ
  bits : ℕ
deriving DecidableEq

structure Udp where
  srcPort : ℕ
  dstPort : ℕ
deriving DecidableEq

structure Arp where
  opcode : ℕ
  srcMac : String
  srcIp : String
  dstMac : String
  dstIp : String
deriving DecidableEq

/-- `ethernet.parser`: the header and what follows it. -/
def Ethernet.parser (buf : Bytes) : Option (Ethernet × Bytes) :=
  if buf.length < 14 then none
  else some (⟨macText buf 0, macText buf 6, u16 buf 12⟩, buf.drop 14)

/-- `ipv4.parser`: the header and the rest of the datagram, cut at its total length. -/
def IPv4.parser (buf : Bytes) : Option (IPv4 × Bytes) :=
  if buf.length < 20 then none
  else
    let headerLength := u8 buf 0 % 16
    let totalLength := u16 buf 2
    some (⟨headerLength, totalLength, u8 buf 9, ipv4Text buf 12, ipv4Text buf 16⟩,
      (buf.take totalLength).drop (headerLength * 4))

/-- `tcp.parser`; only the six classic flag bits are kept. -/
def Tcp.parser (buf : Bytes) : Option Tcp :=
  if buf.length < 20 then none
  else some ⟨u16 buf 0, u16 buf 2, u32 buf 4, u8 buf 12 / 16, u8 buf 13 % 64⟩

/-- `udp.parser`. -/
def Udp.parser (buf : Bytes) : Option Udp :=
  if buf.length < 8 then none else some ⟨u16 buf 0, u16 buf 2⟩

/-- `arp.parser`. -/
def Arp.parser (buf : Bytes) : Option Arp :=
  if buf.length < 28 then none
  else some ⟨u16 buf 6, macText buf 8, ipv4Text buf 14, macText buf 18, ipv4Text buf 24⟩

/-! ## The packet -/

/-- What `get_protocol` returns for each header class. -/
structure Packet where
  ethernet : Option Ethernet := none
  ipv4 : Option IPv4 := none
  tcp : Option Tcp := none
  udp : Option Udp := none
  arp : Option Arp := none
deriving DecidableEq

/-- Nothing but zero bytes: the parser ignores such a rest. -/
def isBlank (buf : Bytes) : Bool := buf.all (· == 0)

namespace Packet

/-- The headers from the IPv4 header on. A header object has a length, and one of length zero
counts as false: the parser does not record it, but still parses what follows. -/
def parseIpv4 (eth : Ethernet) (rest : Bytes) : Packet :=
  if isBlank rest then { ethernet := some eth }
  else match IPv4.parser rest with
    | none => { ethernet := some eth }
    | some (ip, rest) =>
      let ipv4 := if ip.headerLength * 4 = 0 then none else some ip
      if isBlank rest then { ethernet := some eth, ipv4 := ipv4 }
      else if ip.proto = IPPROTO_TCP then
        { ethernet := some eth, ipv4 := ipv4,
          tcp := (Tcp.parser rest).filter fun tcp => tcp.offset * 4 ≠ 0 }
      else if ip.proto = IPPROTO_UDP then
        { ethernet := some eth, ipv4 := ipv4, udp := Udp.parser rest }
      else { ethernet := some eth, ipv4 := ipv4 }

/-- The ARP header behind an Ethernet header. -/
def parseArp (eth : Ethernet) (rest : Bytes) : Packet :=
  if isBlank rest then { ethernet := some eth }
  else { ethernet := some eth, arp := Arp.parser rest }

/-- `packet.Packet(data)`, as far as the firewall asks for headers; behind other ethertypes it asks
for none. The library goes on to the TCP options and to whatever the protocol and the ports
announce. It is assumed that those parsers return, and that none finds a second header of a kind
that is asked for, as happens in a tunnel behind an IPv4 header of length zero. A `Dissector` may
raise there, or find what it likes. -/
def parse (data : Bytes) : Packet :=
  if isBlank data then {}
  else match Ethernet.parser data with
    | none => {}
    | some (eth, rest) =>
      if eth.ethertype = ETH_TYPE_IP then parseIpv4 eth rest
      else if eth.ethertype = ETH_TYPE_ARP then parseArp eth rest
      else { ethernet := some eth }

/-- What is parsed as IPv4 keeps the Ethernet header and has no ARP header. -/
theorem parseIpv4_fields (eth : Ethernet) (rest : Bytes) :
    (parseIpv4 eth rest).ethernet = some eth ∧ (parseIpv4 eth rest).arp = none := by
  unfold parseIpv4
  split
  · exact ⟨rfl, rfl⟩
  · split
    · exact ⟨rfl, rfl⟩
    · dsimp only
      split_ifs <;> exact ⟨rfl, rfl⟩

/-- What is parsed as ARP keeps the Ethernet header and has no IPv4 header. -/
theorem parseArp_fields (eth : Ethernet) (rest : Bytes) :
    (parseArp eth rest).ethernet = some eth ∧ (parseArp eth rest).ipv4 = none := by
  unfold parseArp
  split <;> exact ⟨rfl, rfl⟩

/-- Behind an Ethernet header stand only headers of the kind it announces. -/
theorem parse_fields (data : Bytes) :
    ((parse data).ipv4 = none ∧ (parse data).arp = none) ∨
      ∃ eth, (parse data).ethernet = some eth ∧
        (eth.ethertype = ETH_TYPE_IP ∧ (parse data).arp = none ∨
          eth.ethertype = ETH_TYPE_ARP ∧ (parse data).ipv4 = none) := by
  unfold parse
  split
  · exact Or.inl ⟨rfl, rfl⟩
  cases Ethernet.parser data with
  | none => exact Or.inl ⟨rfl, rfl⟩
  | some er =>
      obtain ⟨eth, rest⟩ := er
      dsimp only
      split
      · rename_i hip
        exact Or.inr ⟨eth, (parseIpv4_fields eth rest).1,
          Or.inl ⟨hip, (parseIpv4_fields eth rest).2⟩⟩
      · split
        · rename_i harp
          exact Or.inr ⟨eth, (parseArp_fields eth rest).1,
            Or.inr ⟨harp, (parseArp_fields eth rest).2⟩⟩
        · exact Or.inl ⟨rfl, rfl⟩

/-- An IPv4 header stands behind an Ethernet header that announces it. -/
theorem ethernet_of_ipv4 {data : Bytes} {ip : IPv4} (h : (parse data).ipv4 = some ip) :
    ∃ eth, (parse data).ethernet = some eth ∧ eth.ethertype = ETH_TYPE_IP := by
  rcases parse_fields data with ⟨hnone, -⟩ | ⟨eth, heth, ⟨hip, -⟩ | ⟨-, hnone⟩⟩
  · rw [hnone] at h; exact absurd h (by simp)
  · exact ⟨eth, heth, hip⟩
  · rw [hnone] at h; exact absurd h (by simp)

end Packet

end SdnFirewall
