import Clia.Base
import Clia.Library.ListStore
import Clia.Library.Numeral

/-!
# Internet addresses

`net/inet_address.cc`. The union of `sockaddr_in` and `sockaddr_in6` is its 28 bytes; both have the
family and the port at the same place and the address at different ones. `inet_pton` and `inet_ntop`
are parameters, with what is documented of them in `InetTexts.Documented`.

## Main results

`InetAddress.rebuilt`: for both families the host and the port of `get_addr` give the address again.
`InetAddress.renderings_agree_iff`: `get_ipaddr` runs from the case of `AF_INET6` into the default, so
the two renderings agree exactly for IPv4.
-/

namespace Clia.Net

open CString ListStore

/-! ### The layout of the two structures -/

inductive Family where
  | inet
  | inet6
  deriving DecidableEq, Repr

namespace Family

/-- `AF_INET`, `AF_INET6`. -/
def code : Family → UInt16
  | .inet => 2
  | .inet6 => 10

/-- The sizes of `sin_addr` and `sin6_addr`. -/
def addrSize : Family → Nat
  | .inet => 4
  | .inet6 => 16

/-- `sizeof` of the two structures. -/
def structSize : Family → Nat
  | .inet => 16
  | .inet6 => 28

/-- Where the addresses are. -/
def addrOffset : Family → Nat
  | .inet => 4
  | .inet6 => 8

/-- `INET_ADDRSTRLEN`, `INET6_ADDRSTRLEN`: the sizes of the texts with their terminator. -/
def addrStrlen : Family → Nat
  | .inet => 16
  | .inet6 => 46

end Family

/-- The bytes of an address. -/
abbrev AddrBytes (f : Family) : Type := { bytes : List UInt8 // bytes.length = f.addrSize }

/-- The functions of `<arpa/inet.h>`. `ntop` is the text that `inet_ntop` makes. -/
structure InetTexts where
  pton : (f : Family) → List UInt8 → Option (AddrBytes f)
  ntop : (f : Family) → AddrBytes f → List UInt8

namespace InetTexts

/-- What is documented of them for one family: the text of an address leads back to it, has a colon
exactly for IPv6 and no bracket, and fits in the size that the header gives. -/
structure Documented (lib : InetTexts) (f : Family) : Prop where
  inverse : ∀ a, lib.pton f (lib.ntop f a) = some a
  colon : ∀ a, 58 ∈ lib.ntop f a ↔ f = .inet6
  bracket : ∀ a, 91 ∉ lib.ntop f a
  short : ∀ a, (lib.ntop f a).length < f.addrStrlen

/-- `::inet_ntop` with a buffer of `size` bytes. -/
def inetNtop (lib : InetTexts) (f : Family) (a : AddrBytes f) (size : Nat) : Option (List UInt8) :=
  if (lib.ntop f a).length < size then some (lib.ntop f a) else none

end InetTexts

/-- A 16-bit number as the host stores it. -/
def hostOrder (n : UInt16) : List UInt8 := [(n.toNat % 256).toUInt8, (n.toNat / 256).toUInt8]

/-- And as the network has it: what `htobe16` leaves in memory. -/
def netOrder (n : UInt16) : List UInt8 := [(n.toNat / 256).toUInt8, (n.toNat % 256).toUInt8]

def ofHostOrder (bytes : List UInt8) : UInt16 :=
  UInt16.ofNat ((bytes.getD 0 0).toNat + 256 * (bytes.getD 1 0).toNat)

/-- `be16toh` of what is in memory. -/
def ofNetOrder (bytes : List UInt8) : UInt16 :=
  UInt16.ofNat (256 * (bytes.getD 0 0).toNat + (bytes.getD 1 0).toNat)

theorem ofHostOrder_hostOrder (n : UInt16) : ofHostOrder (hostOrder n) = n := by
  have bound := n.toNat_lt
  apply UInt16.toNat_inj.mp
  simp [ofHostOrder, hostOrder, UInt8.toNat_ofNat']
  omega

theorem ofNetOrder_netOrder (n : UInt16) : ofNetOrder (netOrder n) = n := by
  have bound := n.toNat_lt
  apply UInt16.toNat_inj.mp
  simp [ofNetOrder, netOrder, UInt8.toNat_ofNat']
  omega

/-- The union. -/
structure InetAddress where
  bytes : List UInt8
  size : bytes.length = 28

namespace InetAddress

/-- A store inside the union. -/
def write (a : InetAddress) (pos : Nat) (values : List UInt8) (inside : pos + values.length ≤ 28) :
    InetAddress where
  bytes := splice a.bytes pos values
  size := by rw [splice_length _ _ _ (by rw [a.size]; exact inside), a.size]

/-- The first part of both branches of the constructor: zeros, the family and the port. `memory` is
what the storage held before. -/
def header (memory : InetAddress) (f : Family) (port : UInt16) : InetAddress :=
  let a := memory.write 0 (List.replicate f.structSize 0) (by cases f <;> decide)
  let a := a.write 0 (hostOrder f.code) (by simp [hostOrder])
  a.write 2 (netOrder port) (by simp [netOrder])

/-- A branch of the constructor from a text. -/
def filled (lib : InetTexts) (memory : InetAddress) (f : Family) (ip : List UInt8) (port : UInt16) :
    InetAddress :=
  match lib.pton f ip with
  | some addr =>
    (header memory f port).write f.addrOffset addr.val (by rw [addr.property]; cases f <;> decide)
  -- The failure is only logged.
  | none => header memory f port

/-- The family that the constructor chooses. -/
def chosen (ip : List UInt8) (isIpv6 : Bool) : Family :=
  if isIpv6 || ip.contains 58 then .inet6 else .inet

/-- The constructor from a text and a port. -/
def new (lib : InetTexts) (memory : InetAddress) (ip : List UInt8) (port : UInt16) (isIpv6 : Bool) :
    InetAddress :=
  filled lib memory (chosen ip isIpv6) ip port

/-- `sin_family`, which is `sin6_family` as well. -/
def family (a : InetAddress) : UInt16 := ofHostOrder (slice a.bytes 0 2)

/-- `sin_port` and `sin6_port` in host order. -/
def port (a : InetAddress) : UInt16 := ofNetOrder (slice a.bytes 2 4)

/-- `sin_addr` or `sin6_addr`. -/
def addr (a : InetAddress) (f : Family) : AddrBytes f where
  val := slice a.bytes f.addrOffset (f.addrOffset + f.addrSize)
  property := by
    rw [slice_length _ _ _ (by rw [a.size]; cases f <;> decide)]
    omega

/-- `get_ipaddr` with a buffer of `sz` bytes: what it returns, and the text in the buffer. A
`socklen_t` has 32 bits. -/
def getIpaddr (lib : InetTexts) (a : InetAddress) (sz : Nat) :
    Except Fault (Int × Option (List UInt8)) :=
  if a.family = Family.inet.code then do
    cassert (sz > Family.inet.addrStrlen) .addressFits
    let p := lib.inetNtop .inet (a.addr .inet) (sz % 2 ^ 32)
    return (if p.isSome then 0 else -1, p)
  else if a.family = Family.inet6.code then do
    cassert (sz > Family.inet6.addrStrlen) .addressFits
    let p := lib.inetNtop .inet6 (a.addr .inet6) (sz % 2 ^ 32)
    -- There is no `break`: the `default` comes next.
    return (-1, p)
  else return (-1, none)

/-- `get_addr`. Its buffer has 64 bytes and is empty if `inet_ntop` fails. -/
def getAddr (lib : InetTexts) (a : InetAddress) : List UInt8 :=
  if a.family = Family.inet6.code then
    [91] ++ (lib.inetNtop .inet6 (a.addr .inet6) 64).getD [] ++ [93] ++ [58] ++ decimal a.port.toNat
  else
    (lib.inetNtop .inet (a.addr .inet) 64).getD [] ++ [58] ++ decimal a.port.toNat

/-! ### The parts of a rendered address -/

/-- What is before the last colon, without brackets. -/
def hostPart (text : List UInt8) : List UInt8 :=
  let host := (text.reverse.dropWhile (· != 58)).tail.reverse
  if host.head? = some 91 then host.tail.dropLast else host

/-- The number behind the last colon. -/
def portPart (text : List UInt8) : UInt16 :=
  UInt16.ofNat (digitsValue 0 (text.reverse.takeWhile (· != 58)).reverse)

/-- The same family, address and port. -/
def Same (a b : InetAddress) : Prop :=
  a.family = b.family ∧ a.port = b.port ∧ ∀ f : Family, b.family = f.code → a.addr f = b.addr f

/-- The two renderings of a constructed address: `get_ipaddr` returns 0 and yields the host text that
`get_addr` embeds, and the parts of `get_addr` give the address again, whatever the storage held. -/
def RenderingsAgree (lib : InetTexts) (memory : InetAddress) (ip : List UInt8) (port : UInt16)
    (isIpv6 : Bool) (sz : Nat) : Prop :=
  let a := new lib memory ip port isIpv6
  (∃ host, a.getIpaddr lib sz = .ok (0, some host) ∧
    a.getAddr lib =
      (if a.family = Family.inet6.code then [91] ++ host ++ [93] else host) ++ [58] ++
        decimal port.toNat) ∧
  ∀ memory', Same (new lib memory' (hostPart (a.getAddr lib)) (portPart (a.getAddr lib)) false) a

/-! ### The fields of a constructed address -/

theorem slice_write_same (a : InetAddress) (pos : Nat) (values : List UInt8)
    (inside : pos + values.length ≤ 28) :
    slice (a.write pos values inside).bytes pos (pos + values.length) = values :=
  slice_splice_same _ _ _ (by rw [a.size]; exact inside)

theorem slice_write_before (a : InetAddress) (pos : Nat) (values : List UInt8)
    (inside : pos + values.length ≤ 28) {first last : Nat} (before : last ≤ pos) :
    slice (a.write pos values inside).bytes first last = slice a.bytes first last :=
  slice_splice_before _ _ _ _ _ (by rw [a.size]; exact inside) before

section

variable {lib : InetTexts} {memory : InetAddress} {f : Family} {ip : List UInt8} {port : UInt16}

/-- Below the address nothing changes when it is stored. -/
theorem slice_filled {first last : Nat} (before : last ≤ 4) :
    slice (filled lib memory f ip port).bytes first last =
      slice (header memory f port).bytes first last := by
  unfold filled
  split
  next addr found =>
    apply slice_write_before
    cases f with
    | inet => exact before
    | inet6 => exact Nat.le_trans before (by decide)
  next => rfl

theorem filled_family : (filled lib memory f ip port).family = f.code := by
  rw [family, slice_filled (by decide), header, slice_write_before _ _ _ _ (by decide)]
  exact (congrArg ofHostOrder (slice_write_same _ 0 (hostOrder f.code) (by simp [hostOrder]))).trans
    (ofHostOrder_hostOrder _)

theorem filled_port : (filled lib memory f ip port).port = port := by
  rw [InetAddress.port, slice_filled (by decide), header]
  exact (congrArg ofNetOrder (slice_write_same _ 2 (netOrder port) (by simp [netOrder]))).trans
    (ofNetOrder_netOrder _)

theorem filled_addr {addr : AddrBytes f} (valid : lib.pton f ip = some addr) :
    (filled lib memory f ip port).addr f = addr := by
  apply Subtype.ext
  simp only [InetAddress.addr, filled, valid]
  have field := slice_write_same (header memory f port) f.addrOffset addr.val
    (by rw [addr.property]; cases f <;> decide)
  simpa only [addr.property] using field

end

/-! ### Rendering and splitting -/

theorem digits_no_colon (n : Nat) : 58 ∉ decimal n := not_mem_decimal (by decide)

private theorem reverse_colon (front digits : List UInt8) :
    (front ++ [58] ++ digits).reverse = digits.reverse ++ 58 :: front.reverse := by
  simp

private theorem reverse_digits {digits : List UInt8} (no_colon : 58 ∉ digits) :
    ∀ b ∈ digits.reverse, (b != 58) = true := by
  intro b member
  rw [List.mem_reverse] at member
  simp only [bne_iff_ne, ne_eq]
  rintro rfl
  exact no_colon member

theorem portPart_render (front : List UInt8) (port : UInt16) :
    portPart (front ++ [58] ++ decimal port.toNat) = port := by
  rw [portPart, reverse_colon,
    List.takeWhile_append_of_pos (reverse_digits (digits_no_colon port.toNat))]
  simp [digitsValue_decimal]

/-- The part before the last colon, as `get_addr` writes it. -/
theorem hostPart_render (front : List UInt8) (n : Nat) :
    hostPart (front ++ [58] ++ decimal n) =
      if front.head? = some 91 then front.tail.dropLast else front := by
  rw [hostPart, reverse_colon, List.dropWhile_append_of_pos (reverse_digits (digits_no_colon n))]
  simp

variable {lib : InetTexts} {f : Family}

theorem inetNtop_documented (documented : lib.Documented f) (a : AddrBytes f) {size : Nat}
    (large : f.addrStrlen ≤ size) : lib.inetNtop f a size = some (lib.ntop f a) :=
  if_pos (Nat.lt_of_lt_of_le (documented.short a) large)

/-- What `get_addr` writes around the text of the address. -/
def embedded (f : Family) (host : List UInt8) : List UInt8 :=
  match f with
  | .inet => host
  | .inet6 => [91] ++ host ++ [93]

theorem getAddr_documented (documented : lib.Documented f) {a : InetAddress}
    (family : a.family = f.code) :
    a.getAddr lib = embedded f (lib.ntop f (a.addr f)) ++ [58] ++ decimal a.port.toNat := by
  have text := inetNtop_documented documented (a.addr f) (by cases f <;> decide : f.addrStrlen ≤ 64)
  cases f with
  | inet =>
    rw [getAddr, if_neg (by rw [family]; decide), text]
    rfl
  | inet6 =>
    rw [getAddr, if_pos family, text]
    rfl

theorem hostPart_embedded (documented : lib.Documented f) (a : AddrBytes f) (n : Nat) :
    hostPart (embedded f (lib.ntop f a) ++ [58] ++ decimal n) = lib.ntop f a := by
  rw [hostPart_render]
  cases f with
  | inet =>
    apply if_neg
    intro bracket
    exact documented.bracket a (List.mem_of_mem_head? bracket)
  | inet6 =>
    rw [embedded, List.append_assoc, List.singleton_append, if_pos List.head?_cons, List.tail_cons,
      List.dropLast_concat]

/-- The constructor finds the family in the text. -/
theorem chosen_ntop (documented : lib.Documented f) (a : AddrBytes f) :
    chosen (lib.ntop f a) false = f := by
  unfold chosen
  have colon := documented.colon a
  cases f with
  | inet =>
    rw [if_neg]
    simpa using colon
  | inet6 =>
    rw [if_pos]
    simpa using colon

/-- **Round trip**: for either family, the host and the port of `get_addr` give an address with the
same family, bytes and port. -/
theorem rebuilt (documented : lib.Documented f) {a : InetAddress} (family : a.family = f.code)
    (memory : InetAddress) :
    Same (new lib memory (hostPart (a.getAddr lib)) (portPart (a.getAddr lib)) false) a := by
  rw [getAddr_documented documented family, hostPart_embedded documented, portPart_render, new,
    chosen_ntop documented]
  refine ⟨filled_family.trans family.symm, filled_port, ?_⟩
  intro g same
  -- The family says which of the two fields is meant.
  have unique : g = f := by
    rw [family] at same
    cases f <;> cases g <;> first | rfl | exact absurd same (by decide)
  subst unique
  exact filled_addr (documented.inverse (a.addr g))

/-! ### The two renderings -/

theorem getIpaddr_inet (documented : lib.Documented .inet) {a : InetAddress}
    (family : a.family = Family.inet.code) {sz : Nat} (large : Family.inet.addrStrlen < sz)
    (received : Family.inet.addrStrlen ≤ sz % 2 ^ 32) :
    a.getIpaddr lib sz = .ok (0, some (lib.ntop .inet (a.addr .inet))) := by
  rw [getIpaddr, if_pos family, cassert_pos _ large, Checked.ok_bind,
    inetNtop_documented documented _ received]
  rfl

/-- Whatever the text is, an IPv6 address gets an error. -/
theorem getIpaddr_inet6 {a : InetAddress} (family : a.family = Family.inet6.code) {sz : Nat}
    {result : Int × Option (List UInt8)} (ok : a.getIpaddr lib sz = .ok result) : result.1 = -1 := by
  rw [getIpaddr, if_neg (by rw [family]; decide), if_pos family] at ok
  obtain ⟨_, _, ok⟩ := Checked.bind_ok_iff.mp ok
  cases ok
  rfl

theorem chosen_inet_iff (ip : List UInt8) (isIpv6 : Bool) :
    chosen ip isIpv6 = .inet ↔ isIpv6 = false ∧ 58 ∉ ip := by
  unfold chosen
  cases isIpv6 <;> simp

/-- So its renderings never agree. -/
theorem not_renderingsAgree_inet6 {memory : InetAddress} {ip : List UInt8} {port : UInt16}
    {isIpv6 : Bool} {sz : Nat} (kind : chosen ip isIpv6 = .inet6) :
    ¬RenderingsAgree lib memory ip port isIpv6 sz := by
  rintro ⟨⟨host, ok, _⟩, _⟩
  have family : (new lib memory ip port isIpv6).family = Family.inet6.code := by
    rw [← kind]
    exact filled_family
  have code : (0 : Int) = -1 := getIpaddr_inet6 family ok
  exact absurd code (by decide)

/-- **The renderings**: with a buffer as large as the assertions and `inet_ntop` ask for, `get_ipaddr`
and `get_addr` agree, and the parts of `get_addr` give the address again, exactly for the addresses
that the constructor takes for IPv4. -/
theorem renderings_agree_iff (lib : InetTexts) (documented : lib.Documented .inet)
    (memory : InetAddress) (ip : List UInt8) (port : UInt16) (isIpv6 : Bool) (sz : Nat)
    (large : (chosen ip isIpv6).addrStrlen < sz)
    (received : (chosen ip isIpv6).addrStrlen ≤ sz % 2 ^ 32) :
    RenderingsAgree lib memory ip port isIpv6 sz ↔ isIpv6 = false ∧ 58 ∉ ip := by
  rw [← chosen_inet_iff]
  cases kind : chosen ip isIpv6 with
  | inet6 => exact iff_of_false (not_renderingsAgree_inet6 kind) (by decide)
  | inet =>
    have family : (new lib memory ip port isIpv6).family = Family.inet.code := by
      rw [← kind]
      exact filled_family
    rw [kind] at large received
    refine iff_of_true ⟨⟨_, getIpaddr_inet documented family large received, ?_⟩, ?_⟩ rfl
    · rw [getAddr_documented documented family, if_neg (by rw [family]; decide), embedded]
      congr 2
      exact congrArg UInt16.toNat filled_port
    · exact rebuilt documented family

end InetAddress

/-! ### Sample texts -/

/-- The dotted text of an IPv4 address. -/
def dottedQuad (bytes : List UInt8) : List UInt8 :=
  [46].intercalate (bytes.map fun b => decimal b.toNat)

/-- The numbers between the dots. -/
def ofDottedQuad (text : List UInt8) : List UInt8 :=
  (text.splitOn 46).map fun part => (digitsValue 0 part).toUInt8

theorem ofDottedQuad_dottedQuad {bytes : List UInt8} (some_bytes : bytes ≠ []) :
    ofDottedQuad (dottedQuad bytes) = bytes := by
  have parts : (dottedQuad bytes).splitOn 46 = bytes.map fun b => decimal b.toNat := by
    apply List.splitOn_intercalate
    · intro part member dot
      obtain ⟨b, _, rfl⟩ := List.mem_map.mp member
      exact not_mem_decimal (by decide) dot
    · simpa using some_bytes
  rw [ofDottedQuad, parts, List.map_map]
  conv_rhs => rw [← List.map_id bytes]
  apply List.map_congr_left
  intro b _
  simp [digitsValue_decimal]

theorem dottedQuad_four (a b c d : UInt8) :
    dottedQuad [a, b, c, d] = decimal a.toNat ++ [46] ++ decimal b.toNat ++ [46] ++
      decimal c.toNat ++ [46] ++ decimal d.toNat := by
  simp [dottedQuad, List.intercalate, List.intersperse]

/-- The text has only digits and dots. -/
theorem not_mem_dottedQuad (quad : AddrBytes .inet) {b : UInt8} (no_digit : isDigit b = false)
    (no_dot : b ≠ 46) : b ∉ dottedQuad quad.val := by
  obtain ⟨bytes, size⟩ := quad
  obtain ⟨w, x, y, z, rfl⟩ := List.length_eq_four.mp size
  have outside : ∀ n, b ∉ decimal n := fun _ => not_mem_decimal no_digit
  rw [dottedQuad_four]
  simp only [List.mem_append, List.mem_singleton, outside, no_dot, or_self, not_false_eq_true]

theorem dottedQuad_short (quad : AddrBytes .inet) : (dottedQuad quad.val).length < 16 := by
  obtain ⟨bytes, size⟩ := quad
  obtain ⟨w, x, y, z, rfl⟩ := List.length_eq_four.mp size
  have three : ∀ b : UInt8, (decimal b.toNat).length ≤ 3 := by
    intro b
    have bound := b.toNat_lt
    exact (decimal_length_le_iff (by decide)).mpr (by omega)
  have first := three w
  have second := three x
  have third := three y
  have fourth := three z
  simp only [dottedQuad_four, List.length_append, List.length_singleton]
  omega

/-- `%x`. -/
def hexadecimal (n : Nat) : List UInt8 := (Nat.toDigits 16 n).map fun c => c.toNat.toUInt8

def hexValue (text : List UInt8) : Nat :=
  text.foldl (fun value b => 16 * value + if b ≤ 57 then b.toNat - 48 else b.toNat - 87) 0

def groups : List UInt8 → List (List UInt8)
  | high :: low :: rest => hexadecimal (256 * high.toNat + low.toNat) :: groups rest
  | _ => []

/-- The text of an IPv6 address in which no zeros are left out. -/
def colonGroups (bytes : List UInt8) : List UInt8 := [58].intercalate (groups bytes)

def ofColonGroups (text : List UInt8) : List UInt8 :=
  (text.splitOn 58).flatMap fun group =>
    [(hexValue group / 256).toUInt8, (hexValue group % 256).toUInt8]

def sampleText : Family → List UInt8 → List UInt8
  | .inet => dottedQuad
  | .inet6 => colonGroups

def sampleBytes : Family → List UInt8 → List UInt8
  | .inet => ofDottedQuad
  | .inet6 => ofColonGroups

/-- The texts without abbreviations: a text is accepted if it is the one of its bytes. -/
def sampleTexts : InetTexts where
  ntop := fun f a => sampleText f a.val
  pton := fun f text =>
    if canonical : (sampleBytes f text).length = f.addrSize ∧
        sampleText f (sampleBytes f text) = text then
      some ⟨sampleBytes f text, canonical.1⟩
    else none

theorem sampleTexts_documented : sampleTexts.Documented .inet := by
  constructor
  · rintro ⟨bytes, size⟩
    have some_bytes : bytes ≠ [] := by
      rintro rfl
      cases size
    have back : sampleBytes .inet (sampleText .inet bytes) = bytes :=
      ofDottedQuad_dottedQuad some_bytes
    simp only [sampleTexts, back, size, and_self, dif_pos]
  · intro a
    exact iff_of_false (not_mem_dottedQuad a (by decide) (by decide)) (by decide)
  · intro a
    exact not_mem_dottedQuad a (by decide) (by decide)
  · exact dottedQuad_short

namespace InetAddress

def zeroed : InetAddress := ⟨List.replicate 28 0, by decide⟩

/-- The loopback address with the port of a web server. -/
theorem loopback_renderings_agree :
    RenderingsAgree sampleTexts zeroed (ascii "127.0.0.1") 80 false 64 :=
  (renderings_agree_iff sampleTexts sampleTexts_documented zeroed (ascii "127.0.0.1") 80 false 64
    (by decide) (by decide)).mpr (by decide)

/-- An IPv6 text that is its own canonical one, and still `get_ipaddr` reports a failure. -/
theorem inet6_renderings_differ :
    (sampleTexts.pton .inet6 (ascii "2001:db8:1:2:3:4:5:6")).map (sampleTexts.ntop .inet6) =
        some (ascii "2001:db8:1:2:3:4:5:6") ∧
      ¬RenderingsAgree sampleTexts zeroed (ascii "2001:db8:1:2:3:4:5:6") 80 false 64 := by
  constructor
  · decide +kernel
  · exact not_renderingsAgree_inet6 (by decide)

end InetAddress

end Clia.Net
