/-
Reading JSON text. Every reader takes the bytes that are left and gives back a result with the
bytes after it, or halts. A halt tells its place by the bytes that are left there. At most 127
lists and objects stand inside each other. `read` gives the value as it is written, `readValue` its
canonical form.
-/
import ClusterConsole.Json.Fault
import ClusterConsole.Text.Utf8

namespace ClusterConsole.Json

/-! ## Halting -/

/-- Why reading stops. A mismatch inside a list or object has its place only once the reader has
tried to close the list or object; one that is found after reading has none. -/
inductive Halt
  | placed (cause : Cause) (left : Nat)
  | open (mismatch : Mismatch) (rest : Bytes)
  | unplaced (mismatch : Mismatch)
deriving DecidableEq, Repr

/-- A reader: its result and the bytes after it, or a halt. -/
abbrev Read (α : Type) := Bytes → Except Halt (α × Bytes)

/-- Halts before the bytes that are left. -/
def halt {α : Type} (f : SyntaxFault) (rest : Bytes) : Except Halt α :=
  .error (.placed (.malformed f) rest.length)

/-- Halts after the next byte, if there is one. -/
def haltAfter {α : Type} (f : SyntaxFault) (rest : Bytes) : Except Halt α :=
  .error (.placed (.malformed f) (rest.length - 1))

/-- Halts because of a mismatch, before the bytes that are left. -/
def haltMismatch {α : Type} (m : Mismatch) (rest : Bytes) : Except Halt α :=
  .error (.placed (.mismatch m) rest.length)

/-- The place after `n` bytes of a document. -/
def positionAt (document : Bytes) (n : Nat) : Position :=
  let before := document.take n
  ⟨before.count 0x0A + 1, (before.reverse.takeWhile (· != 0x0A)).length⟩

/-- The error that a halt in a document amounts to. -/
def Halt.error (document : Bytes) : Halt → Error
  | .placed cause left => ⟨cause, some (positionAt document (document.length - left))⟩
  | .open m rest => ⟨.mismatch m, some (positionAt document (document.length - rest.length))⟩
  | .unplaced m => ⟨.mismatch m, none⟩

/-! ## Blanks and words -/

/-- Whether a byte is a space, tab, newline or carriage return. -/
def isGap (b : UInt8) : Bool := b == 0x20 || b == 0x0A || b == 0x09 || b == 0x0D

/-- The bytes from the first one that is no gap on. -/
def skipGaps (bs : Bytes) : Bytes := bs.dropWhile isGap

/-- Reads the rest of a word such as `null`, of which the first letter is read. -/
def readWord : Bytes → Bytes → Except Halt Bytes
  | [], rest => .ok rest
  | _ :: _, [] => halt .endInValue []
  | w :: ws, b :: rest => if b = w then readWord ws rest else halt .expectedIdent rest

/-! ## Numbers -/

/-- Whether a byte is an ASCII digit. -/
def isDigit (b : UInt8) : Bool := 0x30 ≤ b && b ≤ 0x39

/-- The value of an ASCII digit. -/
def digitValue (b : UInt8) : Nat := b.toNat - 0x30

/-- The digits at the front, and the bytes after them. -/
def readDigits (bs : Bytes) : Bytes × Bytes := (bs.takeWhile isDigit, bs.dropWhile isDigit)

/-- Appends digits to a significand below 2 ^ 64 as long as it stays below; also says how many
digits were appended and how many were not. -/
def significand : Nat → Bytes → Nat × Nat × Nat
  | s, [] => (s, 0, 0)
  | s, d :: ds =>
    if s * 10 + digitValue d < UInt64.size then
      let (s, used, left) := significand (s * 10 + digitValue d) ds
      (s, used + 1, left)
    else (s, 0, ds.length + 1)

/-- The floating-point number nearest to a natural number. -/
def floatOfNat (n : Nat) : Binary64 := (Binary64.ofQuotient false n 1).getD (Binary64.zero false)

/-- Divides by 10 ^ 308 until the exponent is at least -308, or zero is left. -/
def scaleDown : Nat → Binary64 → Int → Binary64 × Int
  | 0, x, e => (x, e)
  | fuel + 1, x, e =>
    if -308 ≤ e ∨ x.isZero then (x, e)
    else scaleDown fuel ((x.div (floatOfNat (Nat.pow 10 308))).getD x) (e + 308)

/-- The floating-point number for a significand and a decimal exponent: the rounded significand,
multiplied or divided once by the rounded power of ten. -/
def floatOfParts (negative : Bool) (s : Nat) (e : Int) : Option Binary64 :=
  let (x, e) := scaleDown 4 (floatOfNat s) e
  let value :=
    if x.isZero then some x
    else if 308 < e then none
    else if 0 ≤ e then x.mul (floatOfNat (Nat.pow 10 e.toNat))
    else x.div (floatOfNat (Nat.pow 10 (-e).toNat))
  value.map fun x => { x with negative := negative }

/-- The number for a significand and a decimal exponent, read up to `rest`. -/
def finishFloat (negative : Bool) (s : Nat) (e : Int) (rest : Bytes) :
    Except Halt (Number × Bytes) :=
  match floatOfParts negative s e with
  | some x => .ok (.float x, rest)
  | none => halt .numberOutOfRange rest

/-- The value of exponent digits, or the bytes after the digit with which it exceeds 32 bits. -/
def exponentValue : Nat → Bytes → Nat ⊕ Bytes
  | e, [] => .inl e
  | e, d :: ds =>
    if e * 10 + digitValue d < 0x80000000 then exponentValue (e * 10 + digitValue d) ds else .inr ds

/-- Reads the exponent after `e` or `E`. -/
def readExponent (negative : Bool) (s : Nat) (start : Int) (bs : Bytes) :
    Except Halt (Number × Bytes) :=
  let (down, bs) := match bs with
    | 0x2B :: rest => (false, rest)
    | 0x2D :: rest => (true, rest)
    | _ => (false, bs)
  match bs with
  | [] => halt .endInValue []
  | b :: rest =>
    if !isDigit b then halt .invalidNumber rest
    else
      let (digits, after) := readDigits bs
      match exponentValue 0 digits with
      | .inl e => finishFloat negative s (if down then start - e else start + e) after
      | .inr more =>
        if s ≠ 0 ∧ !down then halt .numberOutOfRange (more ++ after)
        else .ok (.float (Binary64.zero negative), after)

/-- Reads what may follow the digits of a floating-point number. -/
def readFloatTail (negative : Bool) (s : Nat) (e : Int) (bs : Bytes) :
    Except Halt (Number × Bytes) :=
  match bs with
  | 0x65 :: rest => readExponent negative s e rest
  | 0x45 :: rest => readExponent negative s e rest
  | _ => finishFloat negative s e bs

/-- Reads the fraction after the point. -/
def readFraction (negative : Bool) (s : Nat) (e : Int) (bs : Bytes) :
    Except Halt (Number × Bytes) :=
  let (digits, after) := readDigits bs
  match digits, after with
  | [], [] => halt .endInValue []
  | [], _ => haltAfter .invalidNumber after
  | _, _ =>
    let (s, used, _) := significand s digits
    readFloatTail negative s (e - used) after

/-- The integer with the given sign; minus zero and what exceeds 64 bits are floating-point. -/
def integer (negative : Bool) (s : Nat) : Number :=
  if !negative then .natural (UInt64.ofNat s)
  else if h : 0 < s ∧ s ≤ 0x8000000000000000 then .negSucc ⟨s - 1, by omega⟩
  else .float (floatOfNat s).neg

/-- Reads a number after its sign. -/
def readNumber (negative : Bool) (bs : Bytes) : Except Halt (Number × Bytes) :=
  match bs with
  | [] => halt .endInValue []
  | b :: rest =>
    if !isDigit b then halt .invalidNumber rest
    else
      let (digits, after) := readDigits bs
      if b = 0x30 ∧ 1 < digits.length then haltAfter .invalidNumber rest
      else
        let (s, _, left) := significand 0 digits
        match after with
        | 0x2E :: more => readFraction negative s left more
        | _ =>
          if left = 0 then
            match after with
            | 0x65 :: more => readExponent negative s 0 more
            | 0x45 :: more => readExponent negative s 0 more
            | _ => .ok (integer negative s, after)
          else readFloatTail negative s left after

/-! ## Texts -/

/-- The value of a hexadecimal digit of either case. -/
def hexValue? (b : UInt8) : Option Nat :=
  if isDigit b then some (digitValue b)
  else if 0x61 ≤ b ∧ b ≤ 0x66 then some (b.toNat - 0x57)
  else if 0x41 ≤ b ∧ b ≤ 0x46 then some (b.toNat - 0x37)
  else none

/-- Reads a code of four hexadecimal digits. -/
def readHex : Read Nat
  | a :: b :: c :: d :: rest =>
    match hexValue? a, hexValue? b, hexValue? c, hexValue? d with
    | some a, some b, some c, some d => .ok (((a * 16 + b) * 16 + c) * 16 + d, rest)
    | _, _, _, _ => halt .invalidEscape rest
  | _ => halt .endInString []

/-- The bytes of the character with a code point. -/
def codeBytes (n : Nat) : Bytes := String.utf8EncodeChar (Char.ofNat n)

/-- Reads the second half of a character that is given by two codes. -/
def readSecondHalf (high : Nat) : Read Bytes
  | [] => halt .endInString []
  | 0x5C :: [] => halt .endInString []
  | 0x5C :: 0x75 :: rest => do
    let (low, rest) ← readHex rest
    if low < 0xDC00 ∨ 0xDFFF < low then halt .loneSurrogate rest
    else return (codeBytes ((high - 0xD800) * 0x400 + (low - 0xDC00) + 0x10000), rest)
  | 0x5C :: _ :: rest => halt .endOfHexEscape rest
  | _ :: rest => halt .endOfHexEscape rest

/-- Reads an escape after its backslash. -/
def readEscape : Read Bytes
  | [] => halt .endInString []
  | 0x22 :: rest => .ok ([0x22], rest)
  | 0x5C :: rest => .ok ([0x5C], rest)
  | 0x2F :: rest => .ok ([0x2F], rest)
  | 0x62 :: rest => .ok ([0x08], rest)
  | 0x66 :: rest => .ok ([0x0C], rest)
  | 0x6E :: rest => .ok ([0x0A], rest)
  | 0x72 :: rest => .ok ([0x0D], rest)
  | 0x74 :: rest => .ok ([0x09], rest)
  | 0x75 :: rest => do
    let (n, rest) ← readHex rest
    if 0xDC00 ≤ n ∧ n ≤ 0xDFFF then halt .loneSurrogate rest
    else if n < 0xD800 ∨ 0xDBFF < n then return (codeBytes n, rest)
    else readSecondHalf n rest
  | _ :: rest => halt .invalidEscape rest

/-- Reads the bytes of a text up to its closing quote. -/
def readTextBytes : Nat → Read Bytes
  | 0, rest => halt .endInString rest
  | _ + 1, [] => halt .endInString []
  | fuel + 1, b :: rest =>
    if b = 0x22 then .ok ([], rest)
    else if b = 0x5C then do
      let (bytes, rest) ← readEscape rest
      let (more, rest) ← readTextBytes fuel rest
      return (bytes ++ more, rest)
    else if b < 0x20 then halt .controlCharacter rest
    else do
      let (more, rest) ← readTextBytes fuel rest
      return (b :: more, rest)

/-- How many bytes are left after the first byte that is not UTF-8, of those before `rest`. -/
def leftAfterBroken (bs rest : Bytes) : Nat :=
  match Utf8.decode (bs.take (bs.length - rest.length)) with
  | .ok _ => rest.length
  | .error f => bs.length - (f.valid + 1)

/-- Reads a text after its opening quote. -/
def readText : Read Text := fun bs => do
  let (bytes, rest) ← readTextBytes (bs.length + 1) bs
  match Utf8.decode bytes with
  | .ok t => return (t, rest)
  | .error _ => .error (.placed (.malformed .invalidCodePoint) (leftAfterBroken bs rest))

/-! ## Lists and objects -/

/-- What follows an item of a list. -/
inductive Next
  | item
  | close
deriving DecidableEq, Repr

/-- Looks for the next item of a list: `first` says that none is read yet. -/
def nextItem (first : Bool) (bs : Bytes) : Except Halt (Next × Bytes) :=
  match skipGaps bs with
  | [] => halt .endInList []
  | 0x5D :: rest => .ok (.close, 0x5D :: rest)
  | b :: rest =>
    if first then .ok (.item, b :: rest)
    else if b = 0x2C then
      match skipGaps rest with
      | [] => halt .endInValue []
      | 0x5D :: rest => haltAfter .trailingComma (0x5D :: rest)
      | rest => .ok (.item, rest)
    else haltAfter .expectedListCommaOrEnd (b :: rest)

/-- Looks for the next key of an object: `first` says that none is read yet. -/
def nextKey (first : Bool) (bs : Bytes) : Except Halt (Next × Bytes) :=
  match skipGaps bs with
  | [] => halt .endInObject []
  | 0x7D :: rest => .ok (.close, 0x7D :: rest)
  | b :: rest =>
    if first then
      if b = 0x22 then .ok (.item, rest) else haltAfter .keyMustBeString (b :: rest)
    else if b = 0x2C then
      match skipGaps rest with
      | [] => halt .endInValue []
      | 0x22 :: rest => .ok (.item, rest)
      | 0x7D :: rest => haltAfter .trailingComma (0x7D :: rest)
      | rest => haltAfter .keyMustBeString rest
    else haltAfter .expectedObjectCommaOrEnd (b :: rest)

/-- Reads the colon after a key. -/
def readColon (bs : Bytes) : Except Halt Bytes :=
  match skipGaps bs with
  | [] => halt .endInObject []
  | 0x3A :: rest => .ok rest
  | rest => haltAfter .expectedColon rest

/-- Reads the bracket that closes a list. -/
def closeList (bs : Bytes) : Except Halt Bytes :=
  match skipGaps bs with
  | [] => halt .endInList []
  | 0x5D :: rest => .ok rest
  | 0x2C :: rest =>
    match skipGaps rest with
    | 0x5D :: rest => haltAfter .trailingComma (0x5D :: rest)
    | rest => haltAfter .trailingCharacters rest
  | rest => haltAfter .trailingCharacters rest

/-- Reads the brace that closes an object. -/
def closeObject (bs : Bytes) : Except Halt Bytes :=
  match skipGaps bs with
  | [] => halt .endInObject []
  | 0x7D :: rest => .ok rest
  | 0x2C :: rest => haltAfter .trailingComma (0x2C :: rest)
  | rest => haltAfter .trailingCharacters rest

/-- How many bytes are left after trying to close a list. -/
def leftAfterList (bs : Bytes) : Nat :=
  match skipGaps bs with
  | 0x5D :: rest => rest.length
  | 0x2C :: rest => (skipGaps rest).length
  | rest => rest.length

/-- How many bytes are left after trying to close an object. -/
def leftAfterObject (bs : Bytes) : Nat :=
  match skipGaps bs with
  | 0x7D :: rest => rest.length
  | rest => rest.length

/-- A mismatch that a list leaves open gets its place after the list. -/
def placeInList {α : Type} : Except Halt α → Except Halt α
  | .error (.open m rest) => .error (.placed (.mismatch m) (leftAfterList rest))
  | r => r

/-- A mismatch that an object leaves open gets its place after the object. -/
def placeInObject {α : Type} : Except Halt α → Except Halt α
  | .error (.open m rest) => .error (.placed (.mismatch m) (leftAfterObject rest))
  | r => r

/-- Reads the items of a list up to its closing bracket. -/
def readItems {α : Type} (item : Read α) : Nat → Bool → Read (List α)
  | 0, _, bs => halt .endInList bs
  | fuel + 1, first, bs => do
    match ← nextItem first bs with
    | (.close, rest) => return ([], rest)
    | (.item, rest) =>
      let (v, rest) ← item rest
      let (vs, rest) ← readItems item fuel false rest
      return (v :: vs, rest)

/-- Reads the fields of an object up to its closing brace, carrying a state from one to the next:
`field` is given the state and the key, before the colon. -/
def readFields {σ : Type} (field : σ → Text → Read σ) : Nat → Bool → σ → Read σ
  | 0, _, _, bs => halt .endInObject bs
  | fuel + 1, first, state, bs => do
    match ← nextKey first bs with
    | (.close, rest) => return (state, rest)
    | (.item, rest) =>
      let (key, rest) ← readText rest
      let (state, rest) ← field state key rest
      readFields field fuel false state rest

/-! ## Values -/

/-- Reads a value whose lists and objects stand at most `depth - 1` deep. -/
def readAt : Nat → Read Json
  | 0, bs => haltAfter .recursionLimit bs
  | depth + 1, bs =>
    match skipGaps bs with
    | [] => halt .endInValue []
    | b :: rest =>
      if b = 0x6E then (readWord [0x75, 0x6C, 0x6C] rest).map (Json.null, ·)
      else if b = 0x74 then (readWord [0x72, 0x75, 0x65] rest).map (Json.bool true, ·)
      else if b = 0x66 then (readWord [0x61, 0x6C, 0x73, 0x65] rest).map (Json.bool false, ·)
      else if b = 0x2D then (readNumber true rest).map fun r => (Json.number r.1, r.2)
      else if isDigit b then (readNumber false (b :: rest)).map fun r => (Json.number r.1, r.2)
      else if b = 0x22 then (readText rest).map fun r => (Json.text r.1, r.2)
      else if b = 0x5B then
        if depth = 0 then haltAfter .recursionLimit (b :: rest)
        else do
          let (items, rest) ← readItems (readAt depth) (rest.length + 1) true rest
          return (.array items, ← closeList rest)
      else if b = 0x7B then
        if depth = 0 then haltAfter .recursionLimit (b :: rest)
        else do
          let field := fun (fields : List (Text × Json)) key bs => do
            let rest ← readColon bs
            let (v, rest) ← readAt depth rest
            return ((key, v) :: fields, rest)
          let (fields, rest) ← readFields field (rest.length + 1) true [] rest
          return (.object fields.reverse, ← closeObject rest)
      else haltAfter .expectedValue (b :: rest)

/-- How deep lists and objects are read, with one to spare. -/
def depthLimit : Nat := 128

/-- Reads a whole document with a reader; only gaps may follow what it reads. -/
def readDocument {α : Type} (reader : Read α) (document : Bytes) : Except Error α :=
  let result := do
    let (v, rest) ← reader document
    match skipGaps rest with
    | [] => return v
    | rest => haltAfter .trailingCharacters rest
  result.mapError (Halt.error document)

/-- The value of a document, its fields as they are written. -/
def read (document : Bytes) : Except Error Json := readDocument (readAt depthLimit) document

/-- The value of a document in canonical form. -/
def readValue (document : Bytes) : Except Error Json := (read document).map canonical

end ClusterConsole.Json
