import Mathlib.Algebra.Group.Nat.Defs
import SdnFirewall.Common.Numerals
import SdnFirewall.Common.Python
import SdnFirewall.Packet.Headers

/-!
# Addresses

An IPv4 address is its four octets. `ipaddress.IPv4Address` reads the dotted quad of a request, and
`addrconv.ipv4.bin_to_text` writes that of a packet; what the one reads is exactly what the other
writes, so comparing texts is comparing addresses. The same is true of the six octets of a station.
-/

namespace SdnFirewall

open Common Python

/-- An IPv4 address: its four octets. -/
structure IPv4Address where
  octets : Bytes
  length_eq : octets.length = 4
deriving DecidableEq

/-! ## Octets -/

/-- The octet that some digits stand for. -/
def octetOfDigits (cs : List Char) : UInt8 := UInt8.ofNat (Nat.ofDigitChars 10 cs 0)

@[simp] theorem octetOfDigits_toDigits (b : UInt8) :
    octetOfDigits (Nat.toDigits 10 b.toNat) = b := by
  rw [octetOfDigits, Nat.ofDigitChars_ten_toDigits, UInt8.ofNat_toNat]

/-- An octet is a numeral of at most three digits and at most 255. -/
theorem octetOk_iff {cs : List Char} :
    octetOk cs = true ↔ Numeral cs ∧ cs.length ≤ 3 ∧ Nat.ofDigitChars 10 cs 0 ≤ 255 := by
  have hvalue : cs.foldl (fun n c => n * 10 + (c.toNat - '0'.toNat)) 0 =
      Nat.ofDigitChars 10 cs 0 := by
    rw [Nat.ofDigitChars_eq_foldl]
    simp only [Nat.mul_comm]
  simp only [octetOk, hvalue, decide_eq_true_eq, List.all_eq_true]
  constructor
  · rintro ⟨hne, hdigits, hlen, hzero, hle⟩
    exact ⟨⟨hne, hdigits, hzero⟩, hlen, hle⟩
  · rintro ⟨⟨hne, hdigits, hzero⟩, hlen, hle⟩
    exact ⟨hne, hdigits, hlen, hzero, hle⟩

/-- The octets that are accepted are the numerals of the bytes. -/
theorem octetOk_iff_exists {cs : List Char} :
    octetOk cs = true ↔ ∃ b : UInt8, Nat.toDigits 10 b.toNat = cs := by
  rw [octetOk_iff]
  constructor
  · rintro ⟨hcs, -, hle⟩
    refine ⟨octetOfDigits cs, ?_⟩
    rw [octetOfDigits, UInt8.toNat_ofNat_of_lt' (by simpa using Nat.lt_succ_of_le hle),
      hcs.toDigits_ofDigitChars]
  · rintro ⟨b, rfl⟩
    refine ⟨numeral_toDigits _, ?_, ?_⟩
    · exact (Nat.length_toDigits_le_iff (by decide) (by decide)).mpr (by have := b.toNat_lt; omega)
    · rw [Nat.ofDigitChars_ten_toDigits]
      exact Nat.le_of_lt_succ b.toNat_lt

/-! ## Dotted quads -/

namespace IPv4Address

/-- `str(address)`. -/
def text (a : IPv4Address) : String :=
  ".".intercalate (a.octets.map fun b => toString b.toNat)

/-- The octets of an accepted text. -/
theorem length_splitOn {s : String} (h : ipv4AddressOk s = true) :
    ((s.toList.splitOn '.').map octetOfDigits).length = 4 := by
  simp only [ipv4AddressOk, decide_eq_true_eq] at h
  rw [List.length_map]
  exact h.1

/-- `ipaddress.IPv4Address(s)`; `none` is an `AddressValueError`. -/
def ofText? (s : String) : Option IPv4Address :=
  if h : ipv4AddressOk s = true then
    some ⟨(s.toList.splitOn '.').map octetOfDigits, length_splitOn h⟩
  else none

/-- The text of an address is that of its octets. -/
theorem ipv4Text_octets (a : IPv4Address) : ipv4Text a.octets 0 = a.text := by
  rw [ipv4Text, List.drop_zero, List.take_of_length_le a.length_eq.le, text]

/-- The digits of the octets stand between the dots. -/
theorem toList_text (a : IPv4Address) :
    a.text.toList = ['.'].intercalate (a.octets.map fun b => Nat.toDigits 10 b.toNat) := by
  rw [text, String.toList_intercalate, List.map_map]
  refine congrArg _ (List.map_congr_left fun b _ => ?_)
  simp

/-- The parts between the dots are the octets in decimal. -/
theorem splitOn_text (a : IPv4Address) :
    a.text.toList.splitOn '.' = a.octets.map fun b => Nat.toDigits 10 b.toNat := by
  have hne : (a.octets.map fun b => Nat.toDigits 10 b.toNat) ≠ [] := by
    intro h
    have hlen := congrArg List.length h
    simp [a.length_eq] at hlen
  rw [toList_text, List.splitOn_intercalate _ _ hne]
  intro cs hcs
  obtain ⟨b, -, rfl⟩ := List.mem_map.mp hcs
  exact fun hdot => absurd ((numeral_toDigits _).digits '.' hdot) (by decide)

/-- The text of an address is accepted. -/
theorem ipv4AddressOk_text (a : IPv4Address) : ipv4AddressOk a.text = true := by
  simp only [ipv4AddressOk, decide_eq_true_eq, splitOn_text, List.length_map, a.length_eq,
    List.all_eq_true, List.mem_map, true_and]
  rintro cs ⟨b, -, rfl⟩
  exact octetOk_iff_exists.mpr ⟨b, rfl⟩

/-- Reading what was written gives the address back. -/
@[simp] theorem ofText?_text (a : IPv4Address) : ofText? a.text = some a := by
  rw [ofText?, dif_pos a.ipv4AddressOk_text]
  congr
  rw [splitOn_text, List.map_map]
  conv_rhs => rw [← List.map_id a.octets]
  exact List.map_congr_left fun b _ => octetOfDigits_toDigits b

/-- An accepted text is the one of the address it is read as. -/
theorem text_of_ofText? {s : String} {a : IPv4Address} (h : ofText? s = some a) : a.text = s := by
  unfold ofText? at h
  split at h
  swap
  · exact absurd h (by simp)
  rename_i hok
  obtain rfl := Option.some.inj h
  simp only [ipv4AddressOk, decide_eq_true_eq, List.all_eq_true] at hok
  rw [← String.toList_inj, toList_text]
  refine Eq.trans ?_ (List.intercalate_splitOn '.')
  refine congrArg _ ?_
  rw [List.map_map]
  conv_rhs => rw [← List.map_id (s.toList.splitOn '.')]
  refine List.map_congr_left fun cs hcs => ?_
  obtain ⟨b, rfl⟩ := octetOk_iff_exists.mp (hok.2 cs hcs)
  simp

/-- Reading and writing an address are inverse to each other. -/
theorem ofText?_eq_some {s : String} {a : IPv4Address} : ofText? s = some a ↔ a.text = s := by
  constructor
  · exact text_of_ofText?
  · rintro rfl
    exact ofText?_text a

/-- What is accepted is what can be read. -/
theorem isSome_ofText? (s : String) : (ofText? s).isSome = ipv4AddressOk s := by
  unfold ofText?
  split <;> simp_all

/-! ## In packets -/

/-- The address at offset `i`. -/
def at? (buf : Bytes) (i : ℕ) : Option IPv4Address :=
  if h : i + 4 ≤ buf.length then
    some ⟨(buf.drop i).take 4, by rw [List.length_take, List.length_drop]; omega⟩
  else none

/-- A parsed address is the text of the one at its place. -/
theorem ipv4Text_of_at? {buf : Bytes} {i : ℕ} {a : IPv4Address} (h : at? buf i = some a) :
    ipv4Text buf i = a.text := by
  unfold at? at h
  split at h
  · obtain rfl := Option.some.inj h
    rfl
  · exact absurd h (by simp)

/-- Four bytes are an address. -/
theorem exists_at? {buf : Bytes} {i : ℕ} (h : i + 4 ≤ buf.length) : ∃ a, at? buf i = some a :=
  ⟨_, dif_pos h⟩

end IPv4Address

/-! ## Stations -/

/-- A MAC address: its six octets. -/
structure MacAddress where
  octets : Bytes
  length_eq : octets.length = 6
deriving DecidableEq

def hexDigits : List Char :=
  ['0', '1', '2', '3', '4', '5', '6', '7', '8', '9', 'a', 'b', 'c', 'd', 'e', 'f']

/-- The octet that two hexadecimal digits stand for. -/
def octetOfHex? : List Char → Option UInt8
  | [hi, lo] =>
    if hi ∈ hexDigits ∧ lo ∈ hexDigits then
      some (UInt8.ofNat (16 * hexDigits.idxOf hi + hexDigits.idxOf lo))
    else none
  | _ => none

/-- Two hexadecimal digits are the numeral of the octet they stand for. -/
theorem hex2_of_digits : ∀ hi ∈ hexDigits, ∀ lo ∈ hexDigits,
    List.leftpad 2 '0' (Nat.toDigits 16
      (UInt8.ofNat (16 * hexDigits.idxOf hi + hexDigits.idxOf lo)).toNat) = [hi, lo] := by
  -- over the list of digits, not over every character
  have hall : (hexDigits.all fun hi => hexDigits.all fun lo =>
      List.leftpad 2 '0' (Nat.toDigits 16
        (UInt8.ofNat (16 * hexDigits.idxOf hi + hexDigits.idxOf lo)).toNat) == [hi, lo]) =
      true := by
    decide +kernel
  simpa only [List.all_eq_true, beq_iff_eq] using hall

/-- The numeral of an octet is read as that octet and has no colon in it. -/
theorem digits_of_hex2 : ∀ n < 256,
    octetOfHex? (List.leftpad 2 '0' (Nat.toDigits 16 n)) = some (UInt8.ofNat n) ∧
      ':' ∉ List.leftpad 2 '0' (Nat.toDigits 16 n) := by
  decide +kernel

/-- An octet is read from its numeral and from no other text. -/
theorem octetOfHex?_eq_some {cs : List Char} {b : UInt8} :
    octetOfHex? cs = some b ↔ (hex2 b).toList = cs := by
  rw [hex2, String.toList_ofList]
  constructor
  · intro h
    unfold octetOfHex? at h
    split at h
    swap
    · exact absurd h (by simp)
    split at h
    swap
    · exact absurd h (by simp)
    rename_i hdigits
    obtain rfl := Option.some.inj h
    exact hex2_of_digits _ hdigits.1 _ hdigits.2
  · rintro rfl
    rw [(digits_of_hex2 b.toNat b.toNat_lt).1, UInt8.ofNat_toNat]

/-- Reading one by one what was written one by one. -/
theorem mapM_eq_some_iff {α β : Type} {read : α → Option β} {write : β → α}
    (h : ∀ a b, read a = some b ↔ write b = a) {as : List α} {bs : List β} :
    as.mapM read = some bs ↔ bs.map write = as := by
  induction as generalizing bs with
  | nil => simp [eq_comm]
  | cons a as ih =>
      cases bs with
      | nil => simp [Option.bind_eq_some_iff]
      | cons b bs => simp [Option.bind_eq_some_iff, h, ih]

namespace MacAddress

/-- `addrconv.mac.bin_to_text`. -/
def text (a : MacAddress) : String := ":".intercalate (a.octets.map hex2)

/-- `addrconv.mac.text_to_bin`, for the spelling that `bin_to_text` has. -/
def ofText? (s : String) : Option MacAddress :=
  ((s.toList.splitOn ':').mapM octetOfHex?).bind fun octets =>
    if h : octets.length = 6 then some ⟨octets, h⟩ else none

/-- The text of a station is that of its octets. -/
theorem macText_octets (a : MacAddress) : macText a.octets 0 = a.text := by
  rw [macText, List.drop_zero, List.take_of_length_le a.length_eq.le, text]

/-- Its characters are those of the numerals, with colons between them. -/
theorem toList_text (a : MacAddress) :
    a.text.toList = [':'].intercalate (a.octets.map fun b => (hex2 b).toList) := by
  rw [text, String.toList_intercalate, List.map_map]
  rfl

/-- The parts between the colons are the octets in hexadecimal. -/
theorem splitOn_text (a : MacAddress) :
    a.text.toList.splitOn ':' = a.octets.map fun b => (hex2 b).toList := by
  have hne : (a.octets.map fun b => (hex2 b).toList) ≠ [] := by
    intro h
    have hlen := congrArg List.length h
    simp [a.length_eq] at hlen
  rw [toList_text, List.splitOn_intercalate _ _ hne]
  intro cs hcs
  obtain ⟨b, -, rfl⟩ := List.mem_map.mp hcs
  rw [hex2, String.toList_ofList]
  exact (digits_of_hex2 b.toNat b.toNat_lt).2

/-- Reading and writing a station are inverse to each other. -/
theorem ofText?_eq_some {s : String} {a : MacAddress} : ofText? s = some a ↔ a.text = s := by
  have hread (bs : Bytes) : (s.toList.splitOn ':').mapM octetOfHex? = some bs ↔
      (bs.map fun b => (hex2 b).toList) = s.toList.splitOn ':' :=
    mapM_eq_some_iff fun _ _ => octetOfHex?_eq_some
  constructor
  · intro h
    obtain ⟨bs, hbs, hlen⟩ := Option.bind_eq_some_iff.mp h
    split at hlen
    swap
    · exact absurd hlen (by simp)
    obtain rfl := Option.some.inj hlen
    rw [← String.toList_inj, toList_text, (hread bs).mp hbs, List.intercalate_splitOn]
  · rintro rfl
    rw [ofText?, (hread a.octets).mpr a.splitOn_text.symm, Option.bind_some, dif_pos a.length_eq]

/-- The station at offset `i`. -/
def at? (buf : Bytes) (i : ℕ) : Option MacAddress :=
  if h : i + 6 ≤ buf.length then
    some ⟨(buf.drop i).take 6, by rw [List.length_take, List.length_drop]; omega⟩
  else none

/-- A parsed station is the text of the one at its place. -/
theorem macText_of_at? {buf : Bytes} {i : ℕ} {a : MacAddress} (h : at? buf i = some a) :
    macText buf i = a.text := by
  unfold at? at h
  split at h
  · obtain rfl := Option.some.inj h
    rfl
  · exact absurd h (by simp)

end MacAddress

namespace Packet

/-! ### The values of parsed headers -/

/-- Four bytes of a buffer are an address. -/
theorem exists_ipv4Text {buf : Bytes} {i : ℕ} (h : i + 4 ≤ buf.length) :
    ∃ a : IPv4Address, ipv4Text buf i = a.text := by
  obtain ⟨a, ha⟩ := IPv4Address.exists_at? h
  exact ⟨a, IPv4Address.ipv4Text_of_at? ha⟩

/-- Six bytes are a station. -/
theorem exists_macText {buf : Bytes} {i : ℕ} (h : i + 6 ≤ buf.length) :
    ∃ a : MacAddress, macText buf i = a.text :=
  ⟨_, MacAddress.macText_of_at? (dif_pos h)⟩

/-- A byte has eight bits. -/
theorem u8_lt (buf : Bytes) (i : ℕ) : u8 buf i < 2 ^ 8 := UInt8.toNat_lt _

/-- Two bytes have sixteen. -/
theorem u16_lt (buf : Bytes) (i : ℕ) : u16 buf i < 2 ^ 16 := by
  have hhi := u8_lt buf i
  have hlo := u8_lt buf (i + 1)
  unfold u16
  omega

/-- Four bytes have thirty-two. -/
theorem u32_lt (buf : Bytes) (i : ℕ) : u32 buf i < 2 ^ 32 := by
  have hhi := u16_lt buf i
  have hlo := u16_lt buf (i + 2)
  unfold u32
  omega

/-- The addresses of the headers are addresses, and their numbers are of the right sizes. -/
structure Ranged (pkt : Packet) : Prop where
  ethernet : ∀ eth ∈ pkt.ethernet, (∃ a : MacAddress, eth.dst = a.text) ∧
    ∃ a : MacAddress, eth.src = a.text
  ipv4 : ∀ ip ∈ pkt.ipv4, ip.proto < 2 ^ 8 ∧ (∃ a : IPv4Address, ip.src = a.text) ∧
    ∃ a : IPv4Address, ip.dst = a.text
  tcp : ∀ tcp ∈ pkt.tcp, tcp.srcPort < 2 ^ 16 ∧ tcp.dstPort < 2 ^ 16
  udp : ∀ udp ∈ pkt.udp, udp.srcPort < 2 ^ 16 ∧ udp.dstPort < 2 ^ 16
  arp : ∀ arp ∈ pkt.arp, ∃ a : IPv4Address, arp.srcIp = a.text

/-- The ports of a TCP header have sixteen bits. -/
theorem ranged_tcp {buf : Bytes} {tcp : Tcp} (h : Tcp.parser buf = some tcp) :
    tcp.srcPort < 2 ^ 16 ∧ tcp.dstPort < 2 ^ 16 := by
  unfold Tcp.parser at h
  split at h
  · cases h
  · obtain rfl := Option.some.inj h
    exact ⟨u16_lt _ _, u16_lt _ _⟩

/-- So have those of a UDP header. -/
theorem ranged_udp {buf : Bytes} {udp : Udp} (h : Udp.parser buf = some udp) :
    udp.srcPort < 2 ^ 16 ∧ udp.dstPort < 2 ^ 16 := by
  unfold Udp.parser at h
  split at h
  · cases h
  · obtain rfl := Option.some.inj h
    exact ⟨u16_lt _ _, u16_lt _ _⟩

/-- The protocol of an IPv4 header has eight bits, and its addresses are written as addresses. -/
theorem ranged_ipv4 {buf rest : Bytes} {ip : IPv4} (h : IPv4.parser buf = some (ip, rest)) :
    ip.proto < 2 ^ 8 ∧ (∃ a : IPv4Address, ip.src = a.text) ∧
      ∃ a : IPv4Address, ip.dst = a.text := by
  unfold IPv4.parser at h
  split at h
  · cases h
  · obtain rfl := (Prod.mk.inj (Option.some.inj h)).1
    exact ⟨u8_lt _ _, exists_ipv4Text (by omega), exists_ipv4Text (by omega)⟩

/-- The sender of an ARP header is written as an address. -/
theorem ranged_arp {buf : Bytes} {arp : Arp} (h : Arp.parser buf = some arp) :
    ∃ a : IPv4Address, arp.srcIp = a.text := by
  unfold Arp.parser at h
  split at h
  · cases h
  · obtain rfl := Option.some.inj h
    exact exists_ipv4Text (by omega)

/-- The stations of an Ethernet header are written as stations. -/
theorem ranged_ethernet {buf rest : Bytes} {eth : Ethernet}
    (h : Ethernet.parser buf = some (eth, rest)) :
    (∃ a : MacAddress, eth.dst = a.text) ∧ ∃ a : MacAddress, eth.src = a.text := by
  unfold Ethernet.parser at h
  split at h
  · cases h
  · obtain rfl := (Prod.mk.inj (Option.some.inj h)).1
    exact ⟨exists_macText (by omega), exists_macText (by omega)⟩

/-- Whatever is recorded was parsed. -/
theorem ranged_parse (data : Bytes) : (parse data).Ranged := by
  unfold parse
  split
  · constructor <;> simp
  split
  · constructor <;> simp
  rename_i eth rest heth
  have hethernet : ∀ eth' ∈ some eth, (∃ a : MacAddress, eth'.dst = a.text) ∧
      ∃ a : MacAddress, eth'.src = a.text := by
    rintro eth' ⟨⟩
    exact ranged_ethernet heth
  split
  · unfold parseIpv4
    split
    · exact ⟨hethernet, by simp, by simp, by simp, by simp⟩
    split
    · exact ⟨hethernet, by simp, by simp, by simp, by simp⟩
    -- a header of length zero is parsed on, but not kept
    rename_i ip rest' hip
    have hipv4 : ∀ ip' ∈ (if ip.headerLength * 4 = 0 then none else some ip), ip'.proto < 2 ^ 8 ∧
        (∃ a : IPv4Address, ip'.src = a.text) ∧ ∃ a : IPv4Address, ip'.dst = a.text := by
      intro ip' hip'
      split at hip'
      · cases hip'
      · obtain rfl := Option.some.inj hip'
        exact ranged_ipv4 hip
    dsimp only
    generalize (if ip.headerLength * 4 = 0 then none else some ip) = ipv4 at hipv4 ⊢
    split_ifs
    · exact ⟨hethernet, hipv4, by simp, by simp, by simp⟩
    -- TCP, whose header may be dropped again
    · refine ⟨hethernet, hipv4, fun tcp htcp => ?_, by simp, by simp⟩
      exact ranged_tcp (Option.filter_eq_some_iff.mp htcp).1
    · exact ⟨hethernet, hipv4, by simp, fun udp hudp => ranged_udp hudp, by simp⟩
    · exact ⟨hethernet, hipv4, by simp, by simp, by simp⟩
  · split
    · unfold parseArp
      split
      · exact ⟨hethernet, by simp, by simp, by simp, by simp⟩
      · exact ⟨hethernet, by simp, by simp, by simp, fun arp harp => ranged_arp harp⟩
    · exact ⟨hethernet, by simp, by simp, by simp, by simp⟩

end Packet

end SdnFirewall
