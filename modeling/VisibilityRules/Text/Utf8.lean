set_option autoImplicit false

/-!
Text as bytes. `encode` writes UTF-8, `decode?` reads it, `decodeLossy` reads any bytes and puts
one replacement character for each broken piece: the longest start of a character that the bytes
hold, or else a single byte.
-/
namespace VisibilityRules.Text.Utf8

def encode (cs : List Char) : List UInt8 := cs.flatMap String.utf8EncodeChar

def size : List Char → Nat
  | [] => 0
  | c :: cs => c.utf8Size + size cs

/-- What a leading byte announces: its own bits, the bounds of the second byte and the number of
bytes that follow. -/
structure Lead where
  bits : Nat
  low : UInt8
  high : UInt8
  more : Nat

def lead? (b : UInt8) : Option Lead :=
  let n := b.toNat
  if n < 0x80 then some ⟨n, 0x80, 0xBF, 0⟩
  else if n < 0xC2 then none
  else if n < 0xE0 then some ⟨n - 0xC0, 0x80, 0xBF, 1⟩
  else if n = 0xE0 then some ⟨0, 0xA0, 0xBF, 2⟩
  else if n = 0xED then some ⟨0xD, 0x80, 0x9F, 2⟩
  else if n < 0xF0 then some ⟨n - 0xE0, 0x80, 0xBF, 2⟩
  else if n = 0xF0 then some ⟨0, 0x90, 0xBF, 3⟩
  else if n < 0xF4 then some ⟨n - 0xF0, 0x80, 0xBF, 3⟩
  else if n = 0xF4 then some ⟨4, 0x80, 0x8F, 3⟩
  else none

/-- Takes `more` continuation bytes onto `bits`: the code point, if they are all there, and the
number of bytes taken. -/
def continuation (low high : UInt8) : Nat → Nat → List UInt8 → Option Nat × Nat
  | 0, bits, _ => (some bits, 0)
  | _ + 1, _, [] => (none, 0)
  | more + 1, bits, b :: rest =>
    if low ≤ b && b ≤ high then
      let (code, taken) := continuation 0x80 0xBF more (bits * 64 + (b.toNat - 0x80)) rest
      (code, taken + 1)
    else (none, 0)

/-- The character that starts with byte `b`, or `none` for a broken piece, and how many of the
bytes after `b` belong to it. -/
def front (b : UInt8) (rest : List UInt8) : Option Char × Nat :=
  match lead? b with
  | none => (none, 0)
  | some lead =>
    let (code, taken) := continuation lead.low lead.high lead.more lead.bits rest
    (code.map Char.ofNat, taken)

def pieces : List UInt8 → List (Option Char)
  | [] => []
  | b :: rest =>
    let (c, taken) := front b rest
    c :: pieces (rest.drop taken)
termination_by bytes => bytes.length
decreasing_by simp only [List.length_drop, List.length_cons]; omega

def decode? (bytes : List UInt8) : Option (List Char) := (pieces bytes).mapM id

def decodeLossy (bytes : List UInt8) : List Char := (pieces bytes).map (·.getD '\uFFFD')

def ofString (s : String) : List UInt8 := encode s.toList

def toString? (bytes : List UInt8) : Option String := (decode? bytes).map String.ofList

end VisibilityRules.Text.Utf8
