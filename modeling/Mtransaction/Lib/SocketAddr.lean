import Mtransaction.Lib.Decimal
import Mathlib.Data.UInt

/-!
# Socket addresses and how they print

`std::net`: the `Display` of IP and socket addresses, as of Rust 1.70.
-/

namespace Net

structure Ipv4Addr where
  a : UInt8
  b : UInt8
  c : UInt8
  d : UInt8
  deriving DecidableEq, Repr

structure Ipv6Addr where
  segments : Vector UInt16 8
  deriving DecidableEq, Repr

inductive IpAddr
  | v4 (ip : Ipv4Addr)
  | v6 (ip : Ipv6Addr)
  deriving DecidableEq, Repr

structure SocketAddrV4 where
  ip : Ipv4Addr
  port : UInt16
  deriving DecidableEq, Repr

structure SocketAddrV6 where
  ip : Ipv6Addr
  port : UInt16
  flowinfo : UInt32
  scopeId : UInt32
  deriving DecidableEq, Repr

inductive SocketAddr
  | v4 (addr : SocketAddrV4)
  | v6 (addr : SocketAddrV6)
  deriving DecidableEq, Repr

def SocketAddr.ip : SocketAddr → IpAddr
  | .v4 addr => .v4 addr.ip
  | .v6 addr => .v6 addr.ip

/-! ## Display -/

def Ipv4Addr.display (ip : Ipv4Addr) : String :=
  toString ip.a.toNat ++ "." ++ toString ip.b.toNat ++ "." ++ toString ip.c.toNat ++ "." ++
    toString ip.d.toNat

/-- A run of segments that are 0. -/
structure Span where
  start : ℕ
  len : ℕ
  deriving DecidableEq, Repr

namespace Ipv6Addr

/-- The first of the longest runs of zeroes: the loop carries the longest and the current one. -/
def zeroes (segments : List UInt16) : Span :=
  (segments.zipIdx.foldl (fun (spans : Span × Span) segment =>
    if segment.1 = 0 then
      let current : Span :=
        ⟨if spans.2.len = 0 then segment.2 else spans.2.start, spans.2.len + 1⟩
      (if spans.1.len < current.len then current else spans.1, current)
    else (spans.1, ⟨0, 0⟩)) (⟨0, 0⟩, ⟨0, 0⟩)).1

/-- `{:x}` -/
def hex (segment : UInt16) : String := String.ofList (Nat.toDigits 16 segment.toNat)

def fmtSubslice (chunk : List UInt16) : String := ":".intercalate (chunk.map hex)

def octets (segment : UInt16) : UInt8 × UInt8 := ((segment >>> 8).toUInt8, segment.toUInt8)

/-- An address that is IPv4-compatible or IPv4-mapped, with the segment that tells which. -/
def toIpv4 (ip : Ipv6Addr) : Option (UInt16 × Ipv4Addr) :=
  match ip.segments.toList with
  | [0, 0, 0, 0, 0, kind, ab, cd] =>
    if kind = 0 ∨ kind = 0xffff then
      some (kind, ⟨(octets ab).1, (octets ab).2, (octets cd).1, (octets cd).2⟩)
    else none
  | _ => none

def display (ip : Ipv6Addr) : String :=
  let segments := ip.segments.toList
  if segments = [0, 0, 0, 0, 0, 0, 0, 0] then "::"
  else if segments = [0, 0, 0, 0, 0, 0, 0, 1] then "::1"
  else
    match ip.toIpv4 with
    | some (kind, ipv4) => (if kind = 0 then "::" else "::ffff:") ++ ipv4.display
    | none =>
      let span := zeroes segments
      if 1 < span.len then
        fmtSubslice (segments.take span.start) ++ "::" ++
          fmtSubslice (segments.drop (span.start + span.len))
      else fmtSubslice segments

end Ipv6Addr

def IpAddr.display : IpAddr → String
  | .v4 ip => ip.display
  | .v6 ip => ip.display

def SocketAddrV4.display (addr : SocketAddrV4) : String :=
  addr.ip.display ++ ":" ++ toString addr.port.toNat

def SocketAddrV6.display (addr : SocketAddrV6) : String :=
  if addr.scopeId = 0 then "[" ++ addr.ip.display ++ "]:" ++ toString addr.port.toNat
  else "[" ++ addr.ip.display ++ "%" ++ toString addr.scopeId.toNat ++ "]:" ++
    toString addr.port.toNat

def SocketAddr.display : SocketAddr → String
  | .v4 addr => addr.display
  | .v6 addr => addr.display

/-! ## IPv4 -/

namespace Ipv4Addr

variable {ip : Ipv4Addr} {c : Char}

theorem toList_display (ip : Ipv4Addr) :
    ip.display.toList = (toString ip.a.toNat).toList ++ '.' :: ((toString ip.b.toNat).toList ++
      '.' :: ((toString ip.c.toNat).toList ++ '.' :: (toString ip.d.toNat).toList)) := by
  simp only [display, String.toList_append, List.append_assoc]
  rfl

theorem notMem_display (hdigit : c.isDigit = false) (hdot : c ≠ '.') : c ∉ ip.display.toList := by
  rw [toList_display]
  simp only [List.mem_append, List.mem_cons, hdot, Decimal.notMem_toString hdigit, or_self,
    not_false_eq_true]

-- the octets are read back one by one, up to the next dot
theorem display_injective : Function.Injective display := by
  intro ip ip' h
  have hlist := congrArg String.toList h
  have hdot (n : ℕ) : '.' ∉ (toString n).toList := Decimal.notMem_toString (by decide) n
  have hoctet {x y : UInt8} (hxy : (toString x.toNat).toList = (toString y.toNat).toList) :
      x = y := UInt8.toNat_inj.mp (Decimal.toString_injective (String.toList_injective hxy))
  rw [toList_display, toList_display] at hlist
  obtain ⟨ha, hlist⟩ := Separator.append_cons_inj (hdot _) (hdot _) hlist
  obtain ⟨hb, hlist⟩ := Separator.append_cons_inj (hdot _) (hdot _) hlist
  obtain ⟨hc, hd⟩ := Separator.append_cons_inj (hdot _) (hdot _) hlist
  cases ip
  cases ip'
  exact congr (congr (congr (congrArg Ipv4Addr.mk (hoctet ha)) (hoctet hb)) (hoctet hc)) (hoctet hd)

end Ipv4Addr

/-- Of an IPv4 socket address, the text before the first colon is the IP. -/
theorem SocketAddrV4.takeWhile_display (addr : SocketAddrV4) :
    addr.display.toList.takeWhile (· ≠ ':') = addr.ip.display.toList := by
  have hlist : addr.display.toList =
      addr.ip.display.toList ++ ':' :: (toString addr.port.toNat).toList := by
    simp only [display, String.toList_append, List.append_assoc]
    rfl
  rw [hlist]
  exact Separator.takeWhile_append_cons (Ipv4Addr.notMem_display (by decide) (by decide))

/-! ## IPv6 -/

namespace Ipv6Addr

theorem bracket_notMem_hex (segment : UInt16) : '[' ∉ (hex segment).toList := by
  rw [hex, String.toList_ofList]
  intro h
  obtain ⟨d, hd, heq⟩ := Decimal.mem_toDigits_sixteen h
  have hne : ∀ d < 16, '[' ≠ Nat.digitChar d := by decide
  exact hne d hd heq

theorem bracket_notMem_fmtSubslice (chunk : List UInt16) : '[' ∉ (fmtSubslice chunk).toList := by
  induction chunk with
  | nil => simp [fmtSubslice]
  | cons first rest ih =>
    cases rest with
    | nil => simpa [fmtSubslice] using bracket_notMem_hex first
    | cons second rest =>
      simp only [fmtSubslice, List.map_cons, String.intercalate_cons_cons, String.toList_append,
        List.mem_append, not_or] at ih ⊢
      exact ⟨⟨bracket_notMem_hex first, by decide⟩, ih⟩

theorem bracket_notMem_display (ip : Ipv6Addr) : '[' ∉ ip.display.toList := by
  unfold display
  dsimp only
  split
  · decide
  split
  · decide
  split
  next kind ipv4 _ =>
    have hipv4 : '[' ∉ ipv4.display.toList := Ipv4Addr.notMem_display (by decide) (by decide)
    rw [String.toList_append, List.mem_append, not_or]
    refine ⟨?_, hipv4⟩
    split <;> decide
  next =>
    split
    · simp only [String.toList_append, List.mem_append, not_or]
      exact ⟨⟨bracket_notMem_fmtSubslice _, by decide⟩, bracket_notMem_fmtSubslice _⟩
    · exact bracket_notMem_fmtSubslice _

example : (Ipv6Addr.mk ⟨#[0x2001, 0xdb8, 0, 0, 0, 0, 0, 1], rfl⟩).display = "2001:db8::1" := by
  decide

end Ipv6Addr

theorem IpAddr.bracket_notMem_display (ip : IpAddr) : '[' ∉ ip.display.toList := by
  cases ip with
  | v4 ip => exact Ipv4Addr.notMem_display (by decide) (by decide)
  | v6 ip => exact ip.bracket_notMem_display

theorem SocketAddrV6.exists_display (addr : SocketAddrV6) :
    ∃ rest, addr.display.toList = '[' :: rest := by
  unfold display
  split
  · simp only [String.toList_append, List.append_assoc]
    exact ⟨_, rfl⟩
  · simp only [String.toList_append, List.append_assoc]
    exact ⟨_, rfl⟩

/-- An IPv4 socket address is told from an IPv6 one by its text. -/
theorem SocketAddr.display_v4_ne_v6 (addr : SocketAddrV4) (addr' : SocketAddrV6) :
    addr.display ≠ addr'.display := by
  intro h
  obtain ⟨rest, hrest⟩ := addr'.exists_display
  have hip := addr.takeWhile_display
  rw [h, hrest] at hip
  -- the bracket would be the first character of the IP
  have hmem : '[' ∈ addr.ip.display.toList := by
    rw [← hip]
    simp
  exact Ipv4Addr.notMem_display (by decide) (by decide) hmem

end Net
