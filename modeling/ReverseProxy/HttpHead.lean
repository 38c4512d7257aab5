import Mathlib.Data.List.DropRight

namespace HttpHead
set_option autoImplicit true

abbrev Bytes := List UInt8

def ascii (s : String) : Bytes := s.toUTF8.data.toList

def cr : UInt8 := 13
def lf : UInt8 := 10
def sp : UInt8 := 32
def colon : UInt8 := 58
def crlf : Bytes := [cr, lf]

def isTchar (b : UInt8) : Bool :=
  (48 ≤ b && b ≤ 57) || (65 ≤ b && b ≤ 90) || (97 ≤ b && b ≤ 122) ||
    [33, 35, 36, 37, 38, 39, 42, 43, 45, 46, 94, 95, 96, 124, 126].contains b

def isTargetByte (b : UInt8) : Bool := 32 < b && b != 127

/-- A field value also holds blanks, and the bytes above ASCII. -/
def isValueByte (b : UInt8) : Bool := b == 9 || (32 ≤ b && b != 127)

def isBlank (b : UInt8) : Bool := b == 32 || b == 9

def isContinuation (b : UInt8) : Bool := 0x80 ≤ b && b ≤ 0xBF

/-- Well-formed UTF-8: no overlong form, no surrogate, nothing above U+10FFFF. -/
def isUtf8 : Bytes → Bool
  | [] => true
  | a :: bs =>
    if a < 0x80 then isUtf8 bs else
    match bs with
    | [] => false
    | b :: bs =>
      if 0xC2 ≤ a && a ≤ 0xDF then isContinuation b && isUtf8 bs else
      match bs with
      | [] => false
      | c :: bs =>
        if 0xE0 ≤ a && a ≤ 0xEF then
          isContinuation b && (a != 0xE0 || 0xA0 ≤ b) && (a != 0xED || b ≤ 0x9F) &&
            isContinuation c && isUtf8 bs
        else match bs with
          | [] => false
          | d :: bs =>
            0xF0 ≤ a && a ≤ 0xF4 && isContinuation b && (a != 0xF0 || 0x90 ≤ b) &&
              (a != 0xF4 || b ≤ 0x8F) && isContinuation c && isContinuation d && isUtf8 bs

def toAsciiLower (b : UInt8) : UInt8 := if 65 ≤ b && b ≤ 90 then b + 32 else b

/-- Field names are compared without regard to the case of ASCII letters. -/
def eqIgnoreAsciiCase (a b : Bytes) : Bool := a.map toAsciiLower == b.map toAsciiLower

structure Header where
  name : Bytes
  value : Bytes
deriving DecidableEq, Repr

structure Request where
  method : Bytes
  target : Bytes
  version : Nat
  headers : List Header
deriving DecidableEq, Repr

def rawLines : Bytes → List Bytes
  | [] => []
  | b :: bs =>
    if b = lf then [b] :: rawLines bs
    else match rawLines bs with
      | [] => []
      | l :: ls => (b :: l) :: ls

/-- A line without its line end, which is CRLF or a bare LF. -/
def content (l : Bytes) : Bytes :=
  if l.dropLast.getLast? = some cr then l.dropLast.dropLast else l.dropLast

def word (p : UInt8 → Bool) (stop : UInt8) (bs : Bytes) : Option (Bytes × Bytes) :=
  match bs.dropWhile p with
  | [] => none
  | b :: rest => if b = stop ∧ bs.takeWhile p ≠ [] then some (bs.takeWhile p, rest) else none

def trim (v : Bytes) : Bytes := (v.dropWhile isBlank).rdropWhile isBlank

def parseVersion (v : Bytes) : Option Nat :=
  if v = ascii "HTTP/1.1" then some 1 else if v = ascii "HTTP/1.0" then some 0 else none

def parseRequestLine (l : Bytes) : Option (Bytes × Bytes × Nat) := do
  let (m, l) ← word isTchar sp l
  let (t, l) ← word isTargetByte sp l
  guard (isUtf8 t)
  let v ← parseVersion l
  return (m, t, v)

def parseFieldLine (l : Bytes) : Option Header := do
  let (n, v) ← word isTchar colon l
  guard (v.all isValueByte)
  return ⟨n, trim v⟩

def parseFields : List Bytes → Option (List Header × Nat)
  | [] => none
  | l :: ls =>
    if content l = [] then some ([], l.length)
    else do
      let h ← parseFieldLine (content l)
      let (hs, n) ← parseFields ls
      return (h :: hs, l.length + n)

/-- A request head; empty lines before the request line are skipped. -/
def parseLines : List Bytes → Option (Request × Nat)
  | [] => none
  | l :: ls =>
    if content l = [] then do
      let (r, n) ← parseLines ls
      return (r, l.length + n)
    else do
      let (m, t, v) ← parseRequestLine (content l)
      let (hs, n) ← parseFields ls
      return (⟨m, t, v, hs⟩, l.length + n)

def parse (bs : Bytes) : Option (Request × Nat) := parseLines (rawLines bs)

def Header.line (h : Header) : Bytes := h.name ++ colon :: sp :: h.value

def Request.line (r : Request) : Bytes := r.method ++ sp :: (r.target ++ sp :: ascii "HTTP/1.1")

def Request.print (r : Request) : Bytes :=
  r.line ++ crlf ++ r.headers.flatMap (fun h => h.line ++ crlf) ++ crlf

def IsToken (w : Bytes) : Prop := w ≠ [] ∧ ∀ b ∈ w, isTchar b = true

/-- A field value as a parser reports it: no controls, no surrounding blanks. -/
def IsFieldValue (v : Bytes) : Prop := (∀ b ∈ v, isValueByte b = true) ∧ trim v = v

theorem IsFieldValue.of_all (h : v.all isValueByte = true) (ht : trim v = v) : IsFieldValue v :=
  ⟨List.all_eq_true.1 h, ht⟩

def IsTarget (t : Bytes) : Prop := t ≠ [] ∧ (∀ b ∈ t, isTargetByte b = true) ∧ isUtf8 t = true

structure Header.Wf (h : Header) : Prop where
  name : IsToken h.name
  value : IsFieldValue h.value

structure Request.Wf (r : Request) : Prop where
  method : IsToken r.method
  target : IsTarget r.target
  headers : ∀ h ∈ r.headers, h.Wf

end HttpHead
