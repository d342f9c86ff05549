import StoredProc.Text.Basic

/-!
Text as bytes. Encoding is UTF-8. Decoding cuts the bytes from the left
into pieces: a well-formed sequence is the character it encodes, and
anything else is the longest beginning of a well-formed sequence, or a
single byte where there is none. Strict decoding refuses the second kind
of piece and lenient decoding puts the replacement character in its
place.
-/

namespace StoredProc.Text.Utf8

def continuation (n : Nat) : UInt8 := UInt8.ofNat (0x80 + n % 0x40)

def encodeChar (c : Char) : List UInt8 :=
  let n := c.toNat
  if n < 0x80 then [UInt8.ofNat n]
  else if n < 0x800 then [UInt8.ofNat (0xc0 + n / 0x40), continuation n]
  else if n < 0x10000 then
    [UInt8.ofNat (0xe0 + n / 0x1000), continuation (n / 0x40), continuation n]
  else
    [UInt8.ofNat (0xf0 + n / 0x40000), continuation (n / 0x1000), continuation (n / 0x40),
      continuation n]

def encode (text : Text) : List UInt8 := text.flatMap encodeChar

def size (text : Text) : Nat := (encode text).length

/-! ### Reading a sequence -/

def isContinuation (b : UInt8) : Bool := 0x80 ≤ b.toNat && b.toNat ≤ 0xbf

/-- Whether `second` may follow `first` in a sequence of three or four
bytes. The narrower ranges leave out the longer spellings of shorter
sequences, the surrogates and what lies above the last code point. -/
def mayFollow (first second : UInt8) : Bool :=
  if first = 0xe0 then 0xa0 ≤ second.toNat && second.toNat ≤ 0xbf
  else if first = 0xed then 0x80 ≤ second.toNat && second.toNat ≤ 0x9f
  else if first = 0xf0 then 0x90 ≤ second.toNat && second.toNat ≤ 0xbf
  else if first = 0xf4 then 0x80 ≤ second.toNat && second.toNat ≤ 0x8f
  else isContinuation second

def payload (b : UInt8) : Nat := b.toNat % 0x40

def cutTwo (a : UInt8) : List UInt8 → Option Char × List UInt8
  | b :: rest =>
      if isContinuation b then
        (some (Char.ofNat (a.toNat % 0x20 * 0x40 + payload b)), rest)
      else (none, b :: rest)
  | [] => (none, [])

def cutThree (a : UInt8) : List UInt8 → Option Char × List UInt8
  | b :: rest =>
      if mayFollow a b then
        match rest with
        | c :: rest =>
            if isContinuation c then
              (some (Char.ofNat (a.toNat % 0x10 * 0x1000 + payload b * 0x40 + payload c)), rest)
            else (none, c :: rest)
        | [] => (none, [])
      else (none, b :: rest)
  | [] => (none, [])

def cutFour (a : UInt8) : List UInt8 → Option Char × List UInt8
  | b :: rest =>
      if mayFollow a b then
        match rest with
        | c :: rest =>
            if isContinuation c then
              match rest with
              | d :: rest =>
                  if isContinuation d then
                    (some (Char.ofNat (a.toNat % 0x08 * 0x40000 + payload b * 0x1000 +
                      payload c * 0x40 + payload d)), rest)
                  else (none, d :: rest)
              | [] => (none, [])
            else (none, c :: rest)
        | [] => (none, [])
      else (none, b :: rest)
  | [] => (none, [])

/-- The first piece of bytes that begin with `a`, and the bytes after it.
The piece is `none` where it is not a character. -/
def cut (a : UInt8) (rest : List UInt8) : Option Char × List UInt8 :=
  if a.toNat < 0x80 then (some (Char.ofNat a.toNat), rest)
  else if 0xc2 ≤ a.toNat && a.toNat ≤ 0xdf then cutTwo a rest
  else if 0xe0 ≤ a.toNat && a.toNat ≤ 0xef then cutThree a rest
  else if 0xf0 ≤ a.toNat && a.toNat ≤ 0xf4 then cutFour a rest
  else (none, rest)

theorem length_cutTwo_le (a : UInt8) (rest : List UInt8) :
    (cutTwo a rest).2.length ≤ rest.length := by
  unfold cutTwo; grind

theorem length_cutThree_le (a : UInt8) (rest : List UInt8) :
    (cutThree a rest).2.length ≤ rest.length := by
  unfold cutThree; grind

theorem length_cutFour_le (a : UInt8) (rest : List UInt8) :
    (cutFour a rest).2.length ≤ rest.length := by
  unfold cutFour; grind

/-- A piece takes at least the byte it begins with. -/
theorem length_cut_le (a : UInt8) (rest : List UInt8) :
    (cut a rest).2.length ≤ rest.length := by
  unfold cut
  split
  · exact Nat.le_refl _
  split
  · exact length_cutTwo_le a rest
  split
  · exact length_cutThree_le a rest
  split
  · exact length_cutFour_le a rest
  · exact Nat.le_refl _

/-! ### Decoding -/

def pieces : List UInt8 → List (Option Char)
  | [] => []
  | a :: rest => (cut a rest).1 :: pieces (cut a rest).2
termination_by bytes => bytes.length
decreasing_by
  have := length_cut_le a rest
  simp only [List.length_cons]
  omega

def decode? (bytes : List UInt8) : Option Text := (pieces bytes).mapM id

/-- The text of any bytes, with U+FFFD for each piece that is no
character. -/
def decodeLossy (bytes : List UInt8) : Text := (pieces bytes).map (·.getD '\ufffd')

end StoredProc.Text.Utf8
