/-
MarkerBlock.Encoding.Detection — guessing a file's encoding from its octets.

The rules, in order; the first that applies decides.

1. Fewer than four octets are ASCII.
2. A signature at the start is definitive (`ofSignature?`).
3. In the first `sampleSize` octets, zeros that fall almost only on one parity
   mean UTF-16 without a byte order mark (`ofNulls?`).
4. The file is counted as ASCII, one character per octet, and as UTF-8 with
   malformed input replaced; UTF-8 has to be strictly shorter, or else the file
   is in the legacy code page (`ofLengths`).

`detect` works on octets in memory, `detectFile` on what could be read of a
file: its size, its sample and then all of it.
-/
import MarkerBlock.Encoding.Basic

namespace MarkerBlock.Encoding

/-! ## §1 Candidate lengths -/

/-- Number of characters of a candidate reading; `unbounded` when there is no
such reading, which is longer than every number. -/
inductive Length where
  | finite (n : Nat)
  | unbounded
deriving Repr, DecidableEq

/-- Order of lengths. -/
def Length.cmp : Length → Length → Ordering
  | .finite m, .finite n => compare m n
  | .finite _, .unbounded => .lt
  | .unbounded, .finite _ => .gt
  | .unbounded, .unbounded => .eq

/-- Length of `octets` read in `e`.  ASCII and the legacy page count octets,
UTF-8 counts a replacing reading, the other encodings are read strictly. -/
def length (page : CodePage) (e : Encoding) (octets : List UInt8) : Length :=
  match e with
  | .ascii | .legacy => .finite octets.length
  | .utf8 _ => .finite (Utf8.count (e.dropBom octets))
  | _ =>
    match e.decode page octets with
    | .ok text => .finite text.length
    | .error _ => .unbounded

/-- UTF-8 if it is strictly shorter than ASCII, else the legacy page. -/
def ofLengths (ascii utf8 : Length) : Encoding :=
  if utf8.cmp ascii = .lt then .utf8 false else .legacy

/-! ## §2 Signatures and zeros -/

/-- The encoding whose signature the octets begin with.  The UTF-7 signature
and the UTF-8, UTF-16 and UTF-32 byte order marks are tried in this order. -/
def ofSignature? (octets : List UInt8) : Option Encoding :=
  if utf7Signature.isPrefixOf octets then some .utf7
  else
    [.utf8 true, .utf16 .little true, .utf16 .big true, .utf32].find? fun e =>
      e.bom.isPrefixOf octets

/-- Number of zero octets at even and at odd offsets. -/
structure Nulls where
  evens : Nat := 0
  odds : Nat := 0
deriving Repr, DecidableEq

/-- Count one octet; `even` says whether its offset is even. -/
def Nulls.add (nulls : Nulls) (even : Bool) (b : UInt8) : Nulls :=
  if b = 0 then
    if even then { nulls with evens := nulls.evens + 1 } else { nulls with odds := nulls.odds + 1 }
  else nulls

/-- Count the zeros of `octets` onto `nulls`. -/
def Nulls.count (nulls : Nulls) (even : Bool) : List UInt8 → Nulls
  | [] => nulls
  | b :: rest => Nulls.count (nulls.add even b) (!even) rest

/-- More than two fifths of `size` zeros here and fewer than a tenth there. -/
def isLopsided (here there size : Nat) : Bool := 2 * size < 5 * here && 10 * there < size

/-- UTF-16 without a byte order mark, guessed from where zeros fall. -/
def ofNulls? (sample : List UInt8) : Option Encoding :=
  let nulls := Nulls.count {} true sample
  if isLopsided nulls.evens nulls.odds sample.length then some (.utf16 .little false)
  else if isLopsided nulls.odds nulls.evens sample.length then some (.utf16 .big false)
  else none

/-! ## §3 Detection -/

/-- Number of leading octets in which zeros are counted. -/
def sampleSize : Nat := 32768

/-- A file needs this many octets before its signature is looked at. -/
def signatureSize : Nat := 4

/-- The encoding decided by size, signature or zeros, if one of them decides. -/
def ofSample? (size : Nat) (start sample : List UInt8) : Option Encoding :=
  if size < signatureSize then some .ascii
  else (ofSignature? start).or (ofNulls? sample)

/-- The encoding decided by comparing lengths over the whole file. -/
def ofWhole (page : CodePage) (octets : List UInt8) : Encoding :=
  ofLengths (length page .ascii octets) (length page (.utf8 false) octets)

/-- Best guess for octets in memory. -/
def detect (page : CodePage) (octets : List UInt8) : Encoding :=
  match ofSample? octets.length octets (octets.take sampleSize) with
  | some e => e
  | none => ofWhole page octets

/-- Best guess for a file, given its contents if it can be read.  Only the
sample is looked at before the lengths are compared; a file that cannot be read
has unbounded lengths. -/
def detectFile (page : CodePage) : Option (List UInt8) → Encoding
  | none => ofLengths .unbounded .unbounded
  | some octets =>
    let sample := octets.take sampleSize
    match ofSample? octets.length sample sample with
    | some e => e
    | none => ofWhole page octets

end MarkerBlock.Encoding
