/-
Reading a value and judging its form at the same time, so that the earliest fault of either kind is
reported, with its place: messages that carry the name of their variant in a field, and objects of
a few known fields among others that are skipped.
-/
import ClusterConsole.Json.Form
import ClusterConsole.Json.Reader

namespace ClusterConsole.Json

/-! ## Refusals -/

/-- Reads a value only to refuse it; a list or an object is refused unread. -/
def refuseNext {α : Type} (expected : Text) (bs : Bytes) : Except Halt α :=
  match skipGaps bs with
  | [] => halt .endInValue []
  | b :: rest =>
    if b = 0x5B then haltMismatch (.wrongType .list expected) (b :: rest)
    else if b = 0x7B then haltMismatch (.wrongType .map expected) (b :: rest)
    else do
      let (v, rest) ← readAt 1 (b :: rest)
      haltMismatch (.wrongType (found v) expected) rest

/-! ## Simple values -/

/-- Reads a text. -/
def readTextValue (expected : Text) : Read Text := fun bs =>
  match skipGaps bs with
  | 0x22 :: rest => readText rest
  | rest => refuseNext expected rest

/-- Reads one of several names. -/
def readName (known : List Text) : Read Text := fun bs => do
  let (t, rest) ← readTextValue "variant identifier" bs
  if known.contains t then return (t, rest) else haltMismatch (.unknownVariant t known) rest

/-- Reads a list of items. -/
def readList {α : Type} (item : Read α) : Read (List α) := fun bs =>
  match skipGaps bs with
  | 0x5B :: rest => do
    let (items, rest) ← placeInList (readItems item (rest.length + 1) true rest)
    return (items, ← closeList rest)
  | rest => refuseNext "a sequence" rest

/-! ## Messages with a tag -/

/-- Reads one field of a message: its tag, or a field to be kept. -/
def taggedField (tag : Text) (known : List Text) (state : Option Text × List (Text × Json))
    (key : Text) : Read (Option Text × List (Text × Json)) := fun bs =>
  if key = tag then
    match state.1 with
    | some _ => .error (.open (.duplicateField tag) bs)
    | none => do
      let (name, rest) ← readName known (← readColon bs)
      return ((some name, state.2), rest)
  else do
    let (v, rest) ← readAt (depthLimit - 1) (← readColon bs)
    return ((state.1, (key, v) :: state.2), rest)

/-- Reads the fields of a message with its tag among them. -/
def taggedObject (tag : Text) (known : List Text) : Read (Text × Json) := fun bs => do
  let ((name, fields), rest) ←
    readFields (taggedField tag known) (bs.length + 1) true (none, []) bs
  match name with
  | some name => return ((name, .object fields.reverse), rest)
  | none => .error (.open (.missingField tag) rest)

/-- Reads the items of a message of which the first is the tag. -/
def taggedList (tag : Text) (known : List Text) : Read (Text × Json) := fun bs => do
  match ← nextItem true bs with
  | (.close, rest) => .error (.open (.missingField tag) rest)
  | (.item, rest) =>
    let (name, rest) ← readName known rest
    let (items, rest) ← readItems (readAt (depthLimit - 1)) (rest.length + 1) false rest
    return ((name, .array items), rest)

/-- Reads a message: the name of its variant, and the fields or items that remain. -/
def readTagged (what tag : Text) (known : List Text) : Read (Text × Json) := fun bs =>
  match skipGaps bs with
  | 0x7B :: rest => do
    let (message, rest) ← placeInObject (taggedObject tag known rest)
    return (message, ← closeObject rest)
  | 0x5B :: rest => do
    let (message, rest) ← placeInList (taggedList tag known rest)
    return (message, ← closeList rest)
  | rest => refuseNext what rest

/-! ## Skipping a value -/

/-- Skips an escape after its backslash. -/
def skipEscape : Bytes → Except Halt Bytes
  | [] => halt .endInString []
  | b :: rest =>
    if b = 0x75 then (readHex rest).map Prod.snd
    else if [0x22, 0x5C, 0x2F, 0x62, 0x66, 0x6E, 0x72, 0x74].contains b then .ok rest
    else halt .invalidEscape rest

/-- Skips a text after its opening quote; its bytes need not be UTF-8. -/
def skipText : Nat → Bytes → Except Halt Bytes
  | 0, rest => halt .endInString rest
  | _ + 1, [] => halt .endInString []
  | fuel + 1, b :: rest =>
    if b = 0x22 then .ok rest
    else if b = 0x5C then do skipText fuel (← skipEscape rest)
    else if b < 0x20 then halt .controlCharacter (b :: rest)
    else skipText fuel rest

/-- Skips an exponent after its letter. -/
def skipExponent (bs : Bytes) : Except Halt Bytes :=
  let bs := match bs with
    | 0x2B :: rest => rest
    | 0x2D :: rest => rest
    | _ => bs
  match bs with
  | [] => halt .invalidNumber []
  | b :: rest => if isDigit b then .ok (rest.dropWhile isDigit) else halt .invalidNumber rest

/-- Skips what follows the digits of a number. -/
def skipNumberTail (bs : Bytes) : Except Halt Bytes :=
  match bs with
  | 0x65 :: rest => skipExponent rest
  | 0x45 :: rest => skipExponent rest
  | _ => .ok bs

/-- Skips a number after its sign. -/
def skipNumber (bs : Bytes) : Except Halt Bytes :=
  match bs with
  | [] => halt .invalidNumber []
  | b :: rest =>
    if !isDigit b then halt .invalidNumber rest
    else if b = 0x30 ∧ rest.head?.any isDigit then haltAfter .invalidNumber rest
    else
      match rest.dropWhile isDigit with
      | 0x2E :: more =>
        let (digits, after) := readDigits more
        if digits = [] then haltAfter .invalidNumber after else skipNumberTail after
      | after => skipNumberTail after

/-- A list or an object that is being skipped. -/
inductive Frame
  | list
  | object
deriving DecidableEq, Repr

/-- Where skipping stands. -/
inductive Skipping
  /-- A value comes next. -/
  | value
  /-- A list or an object, the innermost of those given, has just begun, or a value in it ended. -/
  | inside (fresh : Bool)

/-- Skips the key and the colon of a field. -/
def skipKey (bs : Bytes) : Except Halt Bytes :=
  match skipGaps bs with
  | [] => halt .endInObject []
  | 0x22 :: rest => do readColon (← skipText (rest.length + 1) rest)
  | rest => haltAfter .keyMustBeString rest

/-- Goes on to the next value of a list or an object. -/
def skipToValue (frame : Frame) (bs : Bytes) : Except Halt Bytes :=
  match frame with
  | .list => .ok bs
  | .object => skipKey bs

/-- Skips a value that is not made of others, or the bracket that begins one that is. -/
def skipHead (bs : Bytes) : Except Halt (Option Frame × Bytes) :=
  match skipGaps bs with
  | [] => halt .endInValue []
  | b :: rest =>
    if b = 0x6E then (readWord [0x75, 0x6C, 0x6C] rest).map (none, ·)
    else if b = 0x74 then (readWord [0x72, 0x75, 0x65] rest).map (none, ·)
    else if b = 0x66 then (readWord [0x61, 0x6C, 0x73, 0x65] rest).map (none, ·)
    else if b = 0x2D then (skipNumber rest).map (none, ·)
    else if isDigit b then (skipNumber (b :: rest)).map (none, ·)
    else if b = 0x22 then (skipText (rest.length + 1) rest).map (none, ·)
    else if b = 0x5B then .ok (some .list, rest)
    else if b = 0x7B then .ok (some .object, rest)
    else haltAfter .expectedValue (b :: rest)

/-- Skips a value inside the given lists and objects, the innermost first, with all that encloses
it; lists and objects may be nested to any depth. -/
def skipFrom : Nat → List Frame → Skipping → Bytes → Except Halt Bytes
  | 0, _, _, bs => halt .endInValue bs
  | fuel + 1, frames, .value, bs => do
    let (frame, rest) ← skipHead bs
    match frame with
    | some frame => skipFrom fuel (frame :: frames) (.inside true) rest
    | none => skipFrom fuel frames (.inside false) rest
  | _ + 1, [], .inside _, bs => .ok bs
  | fuel + 1, frame :: frames, .inside fresh, bs =>
    match frame, skipGaps bs with
    | .list, [] => halt .endInList []
    | .object, [] => halt .endInObject []
    | .list, 0x5D :: rest => skipFrom fuel frames (.inside false) rest
    | .object, 0x7D :: rest => skipFrom fuel frames (.inside false) rest
    | frame, b :: rest =>
      if fresh then do
        skipFrom fuel (frame :: frames) .value (← skipToValue frame (b :: rest))
      else if b = 0x2C then do
        skipFrom fuel (frame :: frames) .value (← skipToValue frame rest)
      else
        match frame with
        | .list => haltAfter .expectedListCommaOrEnd (b :: rest)
        | .object => haltAfter .expectedObjectCommaOrEnd (b :: rest)

/-- Skips a value. -/
def skipValue (bs : Bytes) : Except Halt Bytes := skipFrom (2 * bs.length + 2) [] .value bs

end ClusterConsole.Json
