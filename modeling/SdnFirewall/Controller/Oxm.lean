import SdnFirewall.Common.Struct
import SdnFirewall.Controller.Receive
import SdnFirewall.Packet.Addresses

/-!
# Matches on the wire

A match is written as its fields one behind the other, each with a header that tells its number, its
length and whether it is masked, and padded to a multiple of eight bytes. The fields are those a
firewall match can have.
-/

namespace OpenFlow

open SdnFirewall Struct

def OFPMT_OXM : ℕ := 1
def OFPXMC_OPENFLOW_BASIC : ℕ := 0x8000
def OFPXXC_EXPERIMENTER : ℕ := 0xffff

/-! ## Fields -/

/-- A field with the bytes of its value and of its mask. -/
structure Oxm where
  num : ℕ
  value : Bytes
  mask : Option Bytes := none
deriving DecidableEq

namespace Oxm

/-- The header of a field: its number, the mask bit and the length of what follows. -/
def header (num hasmask length : ℕ) : ℕ := num <<< 9 ||| hasmask <<< 8 ||| length

/-- `_serialize`; an empty mask counts as none. -/
def serialize (f : Oxm) : Option Bytes :=
  let mask := f.mask.getD []
  if mask = [] then
    (pack [.uint 4] [header f.num 0 f.value.length]).map fun hdr => hdr ++ f.value
  else if f.value.length = mask.length then
    (pack [.uint 4] [header f.num 1 (f.value.length * 2)]).map fun hdr => hdr ++ (f.value ++ mask)
  else none

/-- `_parse`: the field and its length. The fields of experimenters, whose headers are longer, are
not read. -/
def parse (bs : Bytes) : Option (Oxm × ℕ) :=
  match unpackFrom [.uint 4] bs with
  | some [header] =>
    let oxxLength := header &&& 0xff
    let hasmask := (header >>> 8) &&& 1
    let valueLen := if hasmask = 1 then oxxLength / 2 else oxxLength
    if header >>> 9 >>> 7 = OFPXXC_EXPERIMENTER ∨ valueLen = 0 then none
    else if bs.length < 4 + valueLen + (if hasmask = 1 then valueLen else 0) then none
    else some
      ({ num := header >>> 9
         value := (bs.drop 4).take valueLen
         mask := if hasmask = 1 then some ((bs.drop (4 + valueLen)).take valueLen) else none },
        4 + oxxLength)
  | _ => none

/-- A field that its header can describe. -/
structure WellFormed (f : Oxm) : Prop where
  num_lt : f.num < 2 ^ 23
  basic : f.num >>> 7 ≠ OFPXXC_EXPERIMENTER
  value_ne : f.value ≠ []
  mask_length : ∀ mask, f.mask = some mask → f.value.length = mask.length
  length_lt : f.value.length + (f.mask.getD []).length < 256

/-- The shifts of the header put its fields side by side. -/
theorem header_eq {num hasmask length : ℕ} (hmask : hasmask < 2) (hlen : length < 256) :
    header num hasmask length = (num * 2 + hasmask) * 256 + length := by
  have hhigh : num <<< 9 ||| hasmask <<< 8 = (num * 2 + hasmask) <<< 8 := by
    rw [← Nat.shiftLeft_add_eq_or_of_lt (by rw [Nat.shiftLeft_eq]; omega), Nat.shiftLeft_eq,
      Nat.shiftLeft_eq, Nat.shiftLeft_eq]
    omega
  rw [header, hhigh, ← Nat.shiftLeft_add_eq_or_of_lt (by omega), Nat.shiftLeft_eq]

/-- What the reader makes of a header. -/
theorem fields_header {num hasmask length : ℕ} (hmask : hasmask < 2) (hlen : length < 256) :
    header num hasmask length >>> 9 = num ∧ (header num hasmask length >>> 8) &&& 1 = hasmask ∧
      header num hasmask length &&& 0xff = length := by
  rw [show 0xff = 2 ^ 8 - 1 from rfl, Nat.and_two_pow_sub_one_eq_mod, Nat.and_one_is_mod,
    header_eq hmask hlen, Nat.shiftRight_eq_div_pow, Nat.shiftRight_eq_div_pow]
  omega

/-- A field is read from its header and what follows. -/
theorem parse_of_pack {num hasmask length valueLen : ℕ} {hdr payload : Bytes}
    (hpack : pack [.uint 4] [header num hasmask length] = some hdr) (hmask : hasmask < 2)
    (hlen : length < 256) (hbasic : num >>> 7 ≠ OFPXXC_EXPERIMENTER) (hpos : 0 < valueLen)
    (hvalue : length = if hasmask = 1 then valueLen * 2 else valueLen)
    (hpayload : length ≤ payload.length) :
    parse (hdr ++ payload) = some
      ({ num := num
         value := payload.take valueLen
         mask := if hasmask = 1 then some ((payload.drop valueLen).take valueLen) else none },
        4 + length) := by
  obtain ⟨hnum, hbit, hlength⟩ : header num hasmask length >>> 9 = num ∧
      (header num hasmask length >>> 8) &&& 1 = hasmask ∧
      header num hasmask length &&& 0xff = length := fields_header hmask hlen
  have hhdr : hdr.length = 4 := length_of_pack hpack
  -- with a mask the header tells the length of value and mask together
  have hvalueLen : (if hasmask = 1 then length / 2 else length) = valueLen := by
    rw [hvalue]
    split <;> omega
  have henough : ¬ (hdr ++ payload).length <
      4 + valueLen + (if hasmask = 1 then valueLen else 0) := by
    rw [List.length_append, hhdr]
    split at hvalue <;> split <;> omega
  have hdrop (n : ℕ) : (hdr ++ payload).drop (4 + n) = payload.drop n := by
    rw [← hhdr, List.drop_append]
    simp
  rw [parse, unpackFrom_of_pack hpack]
  simp only [hnum, hbit, hlength, hvalueLen]
  rw [if_neg (not_or.mpr ⟨hbasic, by omega⟩), if_neg henough, hdrop, ← Nat.add_zero 4, hdrop,
    List.drop_zero]

/-- A field is read back from what is written of it. -/
theorem readsBack {f : Oxm} (h : f.WellFormed) : ReadsBack serialize parse f := by
  intro bs hbs
  have hpos := List.length_pos_iff.mpr h.value_ne
  have hlen := h.length_lt
  obtain ⟨num, value, mask⟩ := f
  cases mask with
  | none =>
      obtain ⟨hdr, hpack, rfl⟩ := Option.map_eq_some_iff.mp hbs
      have hhdr : hdr.length = 4 := length_of_pack hpack
      refine ⟨List.ne_nil_of_length_pos (by rw [List.length_append]; omega), fun rest => ?_⟩
      rw [List.append_assoc, parse_of_pack hpack Nat.zero_lt_two (by simpa using hlen) h.basic hpos
        rfl (by simp), List.length_append, hhdr, List.take_left]
      rfl
  | some mask =>
      -- the mask is written behind the value, and the length counts both
      have hsame : value.length = mask.length := h.mask_length mask rfl
      have hne : mask ≠ [] := List.ne_nil_of_length_pos (hsame ▸ hpos)
      simp only [serialize, Option.getD_some, hne, hsame, if_false, if_true] at hbs
      obtain ⟨hdr, hpack, rfl⟩ := Option.map_eq_some_iff.mp hbs
      have hhdr : hdr.length = 4 := length_of_pack hpack
      simp only [Option.getD_some] at hlen
      refine ⟨List.ne_nil_of_length_pos (by rw [List.length_append]; omega), fun rest => ?_⟩
      have hpayload : mask.length * 2 ≤ (value ++ (mask ++ rest)).length := by
        simp only [List.length_append]
        omega
      rw [List.append_assoc, List.append_assoc, parse_of_pack hpack Nat.one_lt_two (by omega)
        h.basic (hsame ▸ hpos) rfl hpayload, ← hsame, List.take_left, List.drop_left, hsame,
        List.take_left, List.length_append, List.length_append, hhdr, hsame]
      simp [Nat.mul_two]

/-- A field of the twelve is written, with a header of four bytes. -/
theorem exists_serialize {num : ℕ} {value : Bytes} (hnum : num < 2 ^ 23)
    (hlen : value.length < 256) :
    ∃ bs, serialize { num := num, value := value } = some bs ∧ bs.length = 4 + value.length := by
  have hfits : Fits [.uint 4] [header num 0 value.length] := by
    refine ⟨?_, rfl⟩
    rw [header_eq Nat.zero_lt_two hlen]
    omega
  obtain ⟨hdr, hpack⟩ := exists_pack hfits
  refine ⟨hdr ++ value, ?_, ?_⟩
  · simp [serialize, hpack]
  · rw [List.length_append, length_of_pack hpack]
    rfl

end Oxm

/-! ## Values -/

/-- The types of the fields. -/
inductive TypeDescr where
  | int (size : ℕ)
  | macAddr
  | ipv4Addr

/-- The values a user gives and gets. -/
inductive UserValue where
  | num (n : ℕ)
  | text (s : String)
deriving DecidableEq

namespace TypeDescr

def size : TypeDescr → ℕ
  | .int size => size
  | .macAddr => 6
  | .ipv4Addr => 4

/-- `from_user`. An integer is cut to its size; the text of an address has one spelling. -/
def fromUser : TypeDescr → UserValue → Option Bytes
  | .int size, .num n => some (uintBytes size n)
  | .macAddr, .text s => (MacAddress.ofText? s).map MacAddress.octets
  | .ipv4Addr, .text s => (IPv4Address.ofText? s).map IPv4Address.octets
  | _, _ => none

/-- `to_user`. -/
def toUser : TypeDescr → Bytes → UserValue
  | .int _, bs => .num (uintOf bs)
  | .macAddr, bs => .text (macText bs 0)
  | .ipv4Addr, bs => .text (ipv4Text bs 0)

/-- A value that its type can carry. -/
inductive Carries : TypeDescr → UserValue → Prop
  | int {size n : ℕ} (h : n < 256 ^ size) : Carries (.int size) (.num n)
  | macAddr (a : MacAddress) : Carries .macAddr (.text a.text)
  | ipv4Addr (a : IPv4Address) : Carries .ipv4Addr (.text a.text)

/-- A value that its type can carry is written in as many bytes as the type has, and read back. -/
theorem Carries.exists_fromUser {t : TypeDescr} {v : UserValue} (h : t.Carries v) :
    ∃ bs, t.fromUser v = some bs ∧ bs.length = t.size ∧ t.toUser bs = v := by
  cases h with
  | int h => exact ⟨_, rfl, length_uintBytes _ _, by rw [toUser, uintOf_uintBytes h]⟩
  | macAddr a =>
      refine ⟨a.octets, ?_, a.length_eq, ?_⟩
      · rw [fromUser, MacAddress.ofText?_eq_some.mpr rfl, Option.map_some]
      · rw [toUser, MacAddress.macText_octets]
  | ipv4Addr a =>
      refine ⟨a.octets, ?_, a.length_eq, ?_⟩
      · rw [fromUser, IPv4Address.ofText?_text, Option.map_some]
      · rw [toUser, IPv4Address.ipv4Text_octets]

/-- Whatever is read of as many bytes as a type has, the type can carry. -/
theorem carries_toUser {t : TypeDescr} {bs : Bytes} (h : bs.length = t.size) :
    t.Carries (t.toUser bs) := by
  cases t with
  | int size =>
      change bs.length = size at h
      have hlt := uintOf_lt bs
      rw [h] at hlt
      exact .int hlt
  | macAddr =>
      change bs.length = 6 at h
      have htext : macText bs 0 = (⟨bs, h⟩ : MacAddress).text := MacAddress.macText_octets ⟨bs, h⟩
      rw [toUser, htext]
      exact .macAddr _
  | ipv4Addr =>
      change bs.length = 4 at h
      have htext : ipv4Text bs 0 = (⟨bs, h⟩ : IPv4Address).text :=
        IPv4Address.ipv4Text_octets ⟨bs, h⟩
      rw [toUser, htext]
      exact .ipv4Addr _

end TypeDescr

/-- The fields a firewall match can have. -/
inductive OxmField where
  | inPort
  | ethDst
  | ethSrc
  | ethType
  | ipProto
  | ipv4Src
  | ipv4Dst
  | tcpSrc
  | tcpDst
  | udpSrc
  | udpDst
  | arpSpa
deriving DecidableEq

namespace OxmField

/-- The fields, by their numbers. -/
def all : List OxmField :=
  [.inPort, .ethDst, .ethSrc, .ethType, .ipProto, .ipv4Src, .ipv4Dst, .tcpSrc, .tcpDst, .udpSrc,
    .udpDst, .arpSpa]

/-- The number of a field in its class. -/
def index : OxmField → ℕ
  | .inPort => 0
  | .ethDst => 3
  | .ethSrc => 4
  | .ethType => 5
  | .ipProto => 10
  | .ipv4Src => 11
  | .ipv4Dst => 12
  | .tcpSrc => 13
  | .tcpDst => 14
  | .udpSrc => 15
  | .udpDst => 16
  | .arpSpa => 22

/-- The number of a field, that of its class included. -/
def num (k : OxmField) : ℕ := k.index ||| OFPXMC_OPENFLOW_BASIC <<< 7

def type : OxmField → TypeDescr
  | .inPort => .int 4
  | .ethDst | .ethSrc => .macAddr
  | .ethType => .int 2
  | .ipProto => .int 1
  | .ipv4Src | .ipv4Dst | .arpSpa => .ipv4Addr
  | .tcpSrc | .tcpDst | .udpSrc | .udpDst => .int 2

/-- The field of a number. -/
def ofNum? (n : ℕ) : Option OxmField := all.find? fun k => k.num = n

/-- The list of fields is complete. -/
theorem mem_all (k : OxmField) : k ∈ all := by cases k <;> decide

@[simp] theorem ofNum?_num (k : OxmField) : ofNum? k.num = some k := by cases k <;> rfl

/-- The number of a field fits its place in the header and is none of an experimenter. -/
theorem num_bounds (k : OxmField) : k.num < 2 ^ 23 ∧ k.num >>> 7 ≠ OFPXXC_EXPERIMENTER := by
  cases k <;> decide

/-- A value has between one and six bytes. -/
theorem type_size_bounds (k : OxmField) : 0 < k.type.size ∧ k.type.size ≤ 6 := by
  cases k <;> decide

/-- `oxm_from_user` and `oxm_serialize`. -/
def serialize (item : OxmField × UserValue) : Option Bytes :=
  (item.1.type.fromUser item.2).bind fun value =>
    Oxm.serialize { num := item.1.num, value := value }

/-- `oxm_to_user`: other fields, masked values and values of another size are not read. -/
def ofOxm? (f : Oxm) : Option (OxmField × UserValue) :=
  (ofNum? f.num).bind fun k =>
    if f.value.length = k.type.size ∧ f.mask = none then some (k, k.type.toUser f.value) else none

/-- `oxm_parse` and `oxm_to_user`. -/
def parse (bs : Bytes) : Option ((OxmField × UserValue) × ℕ) :=
  (Oxm.parse bs).bind fun r => (ofOxm? r.1).map fun item => (item, r.2)

/-- A field whose value its type can carry is written, in ten bytes at most, and read back. -/
theorem exists_serialize {item : OxmField × UserValue} (h : item.1.type.Carries item.2) :
    ∃ bs, serialize item = some bs ∧ bs.length ≤ 10 := by
  obtain ⟨value, hvalue, hlen, -⟩ := h.exists_fromUser
  have hsize := type_size_bounds item.1
  obtain ⟨bs, hbs, hlength⟩ := Oxm.exists_serialize (num_bounds item.1).1
    (show value.length < 256 by omega)
  exact ⟨bs, by rw [serialize, hvalue, Option.bind_some, hbs], by omega⟩

/-- A field whose value its type carries is read back. -/
theorem readsBack {item : OxmField × UserValue} (h : item.1.type.Carries item.2) :
    ReadsBack serialize parse item := by
  obtain ⟨value, hvalue, hlen, huser⟩ := h.exists_fromUser
  have hsize := type_size_bounds item.1
  have hnum := num_bounds item.1
  intro bs hbs
  rw [serialize, hvalue, Option.bind_some] at hbs
  have hwf : Oxm.WellFormed { num := item.1.num, value := value } :=
    { num_lt := hnum.1
      basic := hnum.2
      value_ne := List.ne_nil_of_length_pos (show 0 < value.length by omega)
      mask_length := fun mask hmask => by cases hmask
      length_lt := by simp only [Option.getD_none, List.length_nil]; omega }
  obtain ⟨hne, hread⟩ := Oxm.readsBack hwf bs hbs
  refine ⟨hne, fun rest => ?_⟩
  have hitem : ofOxm? { num := item.1.num, value := value } = some item := by
    rw [ofOxm?, ofNum?_num, Option.bind_some, if_pos ⟨hlen, rfl⟩, huser]
  rw [parse, hread, Option.bind_some, hitem, Option.map_some]

/-- What is parsed is a value of its field's type. -/
theorem carries_of_parse {bs : Bytes} {item : OxmField × UserValue} {n : ℕ}
    (h : parse bs = some (item, n)) : item.1.type.Carries item.2 := by
  obtain ⟨r, -, hr⟩ := Option.bind_eq_some_iff.mp h
  obtain ⟨item', hitem, heq⟩ := Option.map_eq_some_iff.mp hr
  obtain ⟨rfl, -⟩ := Prod.mk.inj heq
  obtain ⟨k, -, hk⟩ := Option.bind_eq_some_iff.mp hitem
  split at hk
  swap
  · cases hk
  rename_i hfield
  obtain rfl := Option.some.inj hk
  exact TypeDescr.carries_toUser hfield.1

end OxmField

/-! ## Matches -/

def UserValue.num? : UserValue → Option ℕ
  | .num n => some n
  | .text _ => none

def UserValue.text? : UserValue → Option String
  | .num _ => none
  | .text s => some s

namespace OFPMatch

/-- The value of a field. -/
def value? (m : OFPMatch) : OxmField → Option UserValue
  | .inPort => m.inPort.map .num
  | .ethDst => m.ethDst.map .text
  | .ethSrc => m.ethSrc.map .text
  | .ethType => m.ethType.map .num
  | .ipProto => m.ipProto.map .num
  | .ipv4Src => m.ipv4Src.map .text
  | .ipv4Dst => m.ipv4Dst.map .text
  | .tcpSrc => m.tcpSrc.map .num
  | .tcpDst => m.tcpDst.map .num
  | .udpSrc => m.udpSrc.map .num
  | .udpDst => m.udpDst.map .num
  | .arpSpa => m.arpSpa.map .text

/-- The match with these values. -/
def ofValues (g : OxmField → Option UserValue) : OFPMatch where
  inPort := (g .inPort).bind UserValue.num?
  ethDst := (g .ethDst).bind UserValue.text?
  ethSrc := (g .ethSrc).bind UserValue.text?
  ethType := (g .ethType).bind UserValue.num?
  ipProto := (g .ipProto).bind UserValue.num?
  ipv4Src := (g .ipv4Src).bind UserValue.text?
  ipv4Dst := (g .ipv4Dst).bind UserValue.text?
  tcpSrc := (g .tcpSrc).bind UserValue.num?
  tcpDst := (g .tcpDst).bind UserValue.num?
  udpSrc := (g .udpSrc).bind UserValue.num?
  udpDst := (g .udpDst).bind UserValue.num?
  arpSpa := (g .arpSpa).bind UserValue.text?

/-- A number is recovered from its value. -/
theorem bind_num? (v : Option ℕ) : (v.map UserValue.num).bind UserValue.num? = v := by
  cases v <;> rfl

/-- A text is recovered from its value. -/
theorem bind_text? (v : Option String) : (v.map UserValue.text).bind UserValue.text? = v := by
  cases v <;> rfl

@[simp] theorem ofValues_value? (m : OFPMatch) : ofValues m.value? = m := by
  ext1 <;> simp only [ofValues, value?, bind_num?, bind_text?]

/-- `_fields2`: the fields a match names, sorted by their numbers. -/
def fields2 (m : OFPMatch) : List (OxmField × UserValue) :=
  OxmField.all.filterMap fun k => (m.value? k).map fun v => (k, v)

/-- `dict(items).get(k)`. -/
def lookup (k : OxmField) : List (OxmField × UserValue) → Option UserValue
  | [] => none
  | item :: items => (lookup k items).or (if item.1 = k then some item.2 else none)

/-- The match with these fields. -/
def ofFields2 (items : List (OxmField × UserValue)) : OFPMatch := ofValues fun k => lookup k items

/-- A field that is listed once is found with its value. -/
theorem lookup_filterMap (g : OxmField → Option UserValue) {ks : List OxmField} (hks : ks.Nodup)
    (k : OxmField) :
    lookup k (ks.filterMap fun k => (g k).map fun v => (k, v)) = if k ∈ ks then g k else none := by
  induction ks with
  | nil => rfl
  | cons k' ks ih =>
      rw [List.nodup_cons] at hks
      cases hv : g k' with
      | none =>
          rw [List.filterMap_cons_none (by rw [hv, Option.map_none]), ih hks.2]
          by_cases hk : k = k'
          · rw [hk, if_neg hks.1, if_pos List.mem_cons_self, hv]
          · simp [hk]
      | some v =>
          rw [List.filterMap_cons_some (by rw [hv, Option.map_some]), lookup, ih hks.2]
          by_cases hk : k = k'
          · rw [hk, if_neg hks.1, if_pos rfl, if_pos List.mem_cons_self, hv, Option.none_or]
          · rw [if_neg (show ¬ (k', v).1 = k from fun h => hk h.symm), Option.or_none]
            simp [hk]

/-- The list of a match's fields determines the match. -/
theorem ofFields2_fields2 (m : OFPMatch) : ofFields2 m.fields2 = m := by
  have hlookup : (fun k => lookup k m.fields2) = m.value? := by
    funext k
    rw [fields2, lookup_filterMap m.value? (by decide), if_pos k.mem_all]
  rw [ofFields2, hlookup, ofValues_value?]

/-- `OFPMatch.serialize`. -/
def serialize (m : OFPMatch) : Option Bytes :=
  (packAll OxmField.serialize m.fields2).bind fun fields =>
    let length := 4 + fields.length
    (pack [.uint 2, .uint 2] [OFPMT_OXM, length]).map fun hdr =>
      hdr ++ (fields ++ List.replicate (roundUp length 8 - length) 0)

/-- `OFPMatch.parser`: the match and its length, padding not included. -/
def parser (bs : Bytes) : Option (OFPMatch × ℕ) :=
  match unpackFrom [.uint 2, .uint 2] bs with
  | some [_, length] =>
    (unpackAll OxmField.parse length (length - 4) (bs.drop 4)).map fun items =>
      (ofFields2 items, length)
  | _ => none

/-- The fields of a match have values that their types can carry. -/
def WellFormed (m : OFPMatch) : Prop := ∀ k v, m.value? k = some v → k.type.Carries v

/-- In a well-formed match every listed value is one of its field's type. -/
theorem WellFormed.carries {m : OFPMatch} (h : m.WellFormed) {item : OxmField × UserValue}
    (hitem : item ∈ m.fields2) : item.1.type.Carries item.2 := by
  obtain ⟨k, -, hk⟩ := List.mem_filterMap.mp hitem
  obtain ⟨v, hv, rfl⟩ := Option.map_eq_some_iff.mp hk
  exact h k v hv

/-- What is found is listed. -/
theorem mem_of_lookup {k : OxmField} {v : UserValue} {items : List (OxmField × UserValue)}
    (h : lookup k items = some v) : (k, v) ∈ items := by
  induction items with
  | nil => cases h
  | cons item items ih =>
      rw [lookup, Option.or_eq_some_iff] at h
      rcases h with h | ⟨-, h⟩
      · exact List.mem_cons_of_mem _ (ih h)
      · split at h
        swap
        · cases h
        rename_i hk
        obtain rfl := Option.some.inj h
        exact hk ▸ List.mem_cons_self

/-- The values of a match are among those it was made from. -/
theorem lookup_of_value? {items : List (OxmField × UserValue)} {k : OxmField} {v : UserValue}
    (h : (ofFields2 items).value? k = some v) : lookup k items = some v := by
  have hnum (o : Option UserValue) : (o.bind UserValue.num?).map UserValue.num = some v →
      o = some v := by
    rcases o with _ | ⟨n | s⟩ <;> simp [UserValue.num?]
  have htext (o : Option UserValue) : (o.bind UserValue.text?).map UserValue.text = some v →
      o = some v := by
    rcases o with _ | ⟨n | s⟩ <;> simp [UserValue.text?]
  cases k with
  | inPort | ethType | ipProto | tcpSrc | tcpDst | udpSrc | udpDst => exact hnum _ h
  | ethDst | ethSrc | ipv4Src | ipv4Dst | arpSpa => exact htext _ h

/-- Whatever is read as a match has values that its fields can carry. -/
theorem wellFormed_parser_match {bs : Bytes} {m : OFPMatch} {length : ℕ}
    (h : parser bs = some (m, length)) : m.WellFormed := by
  unfold parser at h
  split at h
  swap
  · cases h
  obtain ⟨items, hitems, heq⟩ := Option.map_eq_some_iff.mp h
  obtain ⟨rfl, -⟩ := Prod.mk.inj heq
  intro k v hv
  -- a field that occurs twice has its last value, which was read like any other
  obtain ⟨bs', n, hread⟩ := exists_read_of_unpackAll hitems (mem_of_lookup (lookup_of_value? hv))
  exact OxmField.carries_of_parse hread

/-- A match sets at most twelve fields. -/
theorem length_fields2_le (m : OFPMatch) : m.fields2.length ≤ 12 := List.length_filterMap_le _ _

/-- Rounding up to eight adds at most seven. -/
theorem roundUp_bounds (n : ℕ) : n ≤ roundUp n 8 ∧ roundUp n 8 < n + 8 := by
  unfold roundUp
  omega

/-- A match whose values its fields can carry is written, in 136 bytes at most. -/
theorem exists_serialize {m : OFPMatch} (h : m.WellFormed) :
    ∃ bs, m.serialize = some bs ∧ bs.length ≤ 136 := by
  have hwrite (item) (hitem : item ∈ m.fields2) := OxmField.exists_serialize (h.carries hitem)
  obtain ⟨fields, hfields⟩ := exists_packAll fun item hitem =>
    (hwrite item hitem).imp fun _ hbs => hbs.1
  have hlen : fields.length ≤ m.fields2.length * 10 :=
    length_packAll_le hfields fun item hitem bs hbs => by
      obtain ⟨bs', hbs', hle⟩ := hwrite item hitem
      rwa [Option.some.inj (hbs.symm.trans hbs')]
  have hcount := m.length_fields2_le
  obtain ⟨hdr, hhdr⟩ := exists_pack (show Fits [.uint 2, .uint 2] [OFPMT_OXM, 4 + fields.length]
    from ⟨by decide, by omega, rfl⟩)
  have hround := roundUp_bounds (4 + fields.length)
  have hhdrLen : hdr.length = 4 := length_of_pack hhdr
  refine ⟨hdr ++ (fields ++ List.replicate (roundUp (4 + fields.length) 8 - (4 + fields.length)) 0),
    ?_, ?_⟩
  · simp only [serialize, hfields, Option.bind_some, hhdr, Option.map_some]
  · simp only [List.length_append, List.length_replicate, hhdrLen]
    omega

/-- A match is read back from what is written of it, and its length with it. -/
theorem parser_of_serialize {m : OFPMatch} (h : m.WellFormed) {bs : Bytes}
    (hbs : m.serialize = some bs) (rest : Bytes) :
    ∃ length, parser (bs ++ rest) = some (m, length) ∧ roundUp length 8 = bs.length := by
  obtain ⟨fields, hfields, hmap⟩ := Option.bind_eq_some_iff.mp hbs
  obtain ⟨hdr, hhdr, rfl⟩ := Option.map_eq_some_iff.mp hmap
  have hhdrLen : hdr.length = 4 := length_of_pack hhdr
  have hround := roundUp_bounds (4 + fields.length)
  refine ⟨4 + fields.length, ?_, ?_⟩
  · rw [parser, List.append_assoc, unpackFrom_of_pack hhdr]
    simp only
    rw [← hhdrLen, List.drop_left, Nat.add_sub_cancel_left, List.append_assoc,
      unpackAll_of_packAll (fun item hitem => OxmField.readsBack (h.carries hitem)) hfields
        (Nat.le_add_left _ _), Option.map_some, ofFields2_fields2]
  · simp only [List.length_append, List.length_replicate, hhdrLen]
    omega

end OFPMatch

end OpenFlow
