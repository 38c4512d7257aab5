import ReverseProxy.HttpHead

namespace Net
open HttpHead
set_option autoImplicit true

def digits (base n : Nat) : Bytes := (Nat.toDigits base n).map Char.toUInt8

structure Ipv4Addr where
  a : UInt8
  b : UInt8
  c : UInt8
  d : UInt8
deriving DecidableEq, Repr

def Ipv4Addr.display (ip : Ipv4Addr) : Bytes :=
  digits 10 ip.a.toNat ++ ascii "." ++ digits 10 ip.b.toNat ++ ascii "." ++
    digits 10 ip.c.toNat ++ ascii "." ++ digits 10 ip.d.toNat

structure Ipv6Addr where
  segments : List UInt16
  length_eq : segments.length = 8
deriving DecidableEq, Repr

structure Span where
  start : Nat
  len : Nat

/-- The first longest run of zeros, given the run that is being read and the longest before it. -/
def longestZeros : List UInt16 → Nat → Span → Span → Span
  | [], _, _, longest => longest
  | s :: ss, i, current, longest =>
    if s = 0 then
      let current : Span := ⟨if current.len = 0 then i else current.start, current.len + 1⟩
      longestZeros ss (i + 1) current (if longest.len < current.len then current else longest)
    else longestZeros ss (i + 1) ⟨0, 0⟩ longest

def fmtSubslice : List UInt16 → Bytes
  | [] => []
  | s :: ss => digits 16 s.toNat ++ ss.flatMap (fun s => ascii ":" ++ digits 16 s.toNat)

def Ipv6Addr.toIpv4Mapped (ip : Ipv6Addr) : Option Ipv4Addr :=
  if ip.segments.take 6 = [0, 0, 0, 0, 0, 0xffff] then
    match ip.segments.drop 6 with
    | [ab, cd] => some ⟨(ab >>> 8).toUInt8, ab.toUInt8, (cd >>> 8).toUInt8, cd.toUInt8⟩
    | _ => none
  else none

/-- The `Display` of the standard library: an embedded IPv4 address is written as one, and
otherwise the first longest run of two zeros or more is left out. -/
def Ipv6Addr.display (ip : Ipv6Addr) : Bytes :=
  match ip.toIpv4Mapped with
  | some v4 => ascii "::ffff:" ++ v4.display
  | none =>
    let zeroes := longestZeros ip.segments 0 ⟨0, 0⟩ ⟨0, 0⟩
    if 1 < zeroes.len then
      fmtSubslice (ip.segments.take zeroes.start) ++ ascii "::" ++
        fmtSubslice (ip.segments.drop (zeroes.start + zeroes.len))
    else fmtSubslice ip.segments

inductive SocketAddr
  | v4 (ip : Ipv4Addr) (port : UInt16)
  | v6 (ip : Ipv6Addr) (port : UInt16) (scopeId : UInt32)
deriving DecidableEq, Repr

def SocketAddr.display : SocketAddr → Bytes
  | .v4 ip port => ip.display ++ ascii ":" ++ digits 10 port.toNat
  | .v6 ip port scopeId =>
    let scope := if scopeId = 0 then [] else ascii "%" ++ digits 10 scopeId.toNat
    ascii "[" ++ ip.display ++ scope ++ ascii "]:" ++ digits 10 port.toNat

def isVisible (b : UInt8) : Bool := 32 ≤ b && b < 127

def Visible (bs : Bytes) : Prop := ∀ b ∈ bs, isVisible b = true

instance (bs : Bytes) : Decidable (Visible bs) :=
  decidable_of_iff (bs.all isVisible = true) List.all_eq_true

theorem visible_append : Visible (xs ++ ys) ↔ Visible xs ∧ Visible ys := List.forall_mem_append

theorem visible_nil : Visible [] := nofun

theorem visible_flatMap {l : List α} {f : α → Bytes} (h : ∀ a ∈ l, Visible (f a)) :
    Visible (l.flatMap f) := by
  intro b hb
  obtain ⟨a, ha, hb⟩ := List.mem_flatMap.1 hb
  exact h a ha b hb

theorem mem_toDigitsCore (h : c ∈ Nat.toDigitsCore base fuel n cs) :
    c ∈ cs ∨ ∃ d, c = Nat.digitChar d := by
  induction fuel generalizing n cs with
  | zero => exact .inl h
  | succ fuel ih =>
    have hcons (h : c ∈ Nat.digitChar (n % base) :: cs) : c ∈ cs ∨ ∃ d, c = Nat.digitChar d := by
      rcases List.mem_cons.1 h with rfl | h
      · exact .inr ⟨_, rfl⟩
      · exact .inl h
    rw [Nat.toDigitsCore] at h
    split at h
    · exact hcons h
    · rcases ih h with h | h
      · exact hcons h
      · exact .inr h

theorem digitChar_visible (d : Nat) : isVisible (Nat.digitChar d).toUInt8 = true := by
  match d with
  | 0 | 1 | 2 | 3 | 4 | 5 | 6 | 7 | 8 | 9 | 10 | 11 | 12 | 13 | 14 | 15 => rfl
  | d + 16 => simp [Nat.digitChar]; rfl

theorem digits_visible (base n : Nat) : Visible (digits base n) := by
  intro b hb
  obtain ⟨c, hc, rfl⟩ := List.mem_map.1 hb
  rcases mem_toDigitsCore hc with hc | ⟨d, rfl⟩
  · cases hc
  · exact digitChar_visible d

theorem Ipv4Addr.display_visible (ip : Ipv4Addr) : Visible ip.display := by
  have hdot : Visible (ascii ".") := by decide
  simp only [display, visible_append, digits_visible, hdot, and_self]

theorem fmtSubslice_visible (ss : List UInt16) : Visible (fmtSubslice ss) := by
  have hcolon : Visible (ascii ":") := by decide
  cases ss with
  | nil => exact visible_nil
  | cons s ss =>
    apply visible_append.2 ⟨digits_visible _ _, visible_flatMap _⟩
    intro s _
    exact visible_append.2 ⟨hcolon, digits_visible _ _⟩

theorem Ipv6Addr.display_visible (ip : Ipv6Addr) : Visible ip.display := by
  have hmapped : Visible (ascii "::ffff:") := by decide
  have hgap : Visible (ascii "::") := by decide
  unfold display
  split
  · exact visible_append.2 ⟨hmapped, Ipv4Addr.display_visible _⟩
  · simp only
    split
    · exact visible_append.2 ⟨visible_append.2 ⟨fmtSubslice_visible _, hgap⟩,
        fmtSubslice_visible _⟩
    · exact fmtSubslice_visible _

theorem SocketAddr.display_visible (addr : SocketAddr) : Visible addr.display := by
  have hcolon : Visible (ascii ":") := by decide
  have hopen : Visible (ascii "[") := by decide
  have hclose : Visible (ascii "]:") := by decide
  have hscope : Visible (ascii "%") := by decide
  cases addr with
  | v4 ip port =>
    simp only [display, visible_append, Ipv4Addr.display_visible, digits_visible, hcolon, and_self]
  | v6 ip port scopeId =>
    simp only [display, visible_append, Ipv6Addr.display_visible, digits_visible, hopen, hclose,
      and_true, true_and]
    split
    · exact visible_nil
    · exact visible_append.2 ⟨hscope, digits_visible _ _⟩

example : (SocketAddr.v6 ⟨[0x2001, 0xdb8, 0, 0, 1, 0, 0, 1], rfl⟩ 443 0).display =
    ascii "[2001:db8::1:0:0:1]:443" := by decide

end Net
