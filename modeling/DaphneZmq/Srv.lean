import DaphneZmq.DevMemObject
import DaphneZmq.Protobuf

/-! # The register server (srv.cpp)

`main` receives a message into a buffer of 256 bytes, puts a terminator behind it and interprets as many bytes as the
library reports. The buffer is the beginning of a memory: an index can lie behind it. Exceptions carry the bytes of
`what()`. -/

namespace DaphneZmq
open Lib.Wire (Bytes utf8)

namespace Srv

def kAxiBaseAddr : UInt64 := 0x40000000
def kAxiWindowSize : UInt64 := 0x1000
def kMaxRequestSize : Nat := 256

/-- The object of `main`, once the window is mapped. -/
def window (host : Host) : DevMemObject := DevMemObject.after host kAxiBaseAddr [.mapMemory none kAxiWindowSize]

/-! ### Tokens -/

/-- `std::isspace`. -/
def isSpace (b : UInt8) : Bool := b == 0x20 || (0x09 ≤ b && b ≤ 0x0D)

/-- `line >> token`, with what is left of the line. -/
def nextToken (line : Bytes) : Option (Bytes × Bytes) :=
  match line.dropWhile isSpace with
  | [] => none
  | rest => some (rest.takeWhile (!isSpace ·), rest.dropWhile (!isSpace ·))

/-- `std::tolower`. -/
def toLower (b : UInt8) : UInt8 := if 0x41 ≤ b && b ≤ 0x5A then b + 0x20 else b

def digitValue (b : UInt8) : Option Nat :=
  if 0x30 ≤ b && b ≤ 0x39 then some (b.toNat - 0x30)
  else if 0x61 ≤ toLower b && toLower b ≤ 0x7A then some ((toLower b).toNat - 0x57)
  else none

def isDigit (base : Nat) (b : UInt8) : Bool := (digitValue b).any (· < base)

/-- The number that the digits are, and how many bytes they have. -/
def readDigits (base : Nat) (bytes : Bytes) : Nat × Nat :=
  let digits := bytes.takeWhile (isDigit base)
  (digits.foldl (fun n b => n * base + (digitValue b).getD 0) 0, digits.length)

/-- The base that the prefix asks for, and the bytes of the prefix. -/
def basePrefix : Bytes → Nat × Nat
  | 0x30 :: x :: d :: _ => if toLower x == 0x78 && isDigit 16 d then (16, 2) else (8, 0)
  | 0x30 :: _ => (8, 0)
  | _ => (10, 0)

/-- `std::stoul(token, &consumed, 0)` of a token without white space, with `consumed`. -/
def stoul (token : Bytes) : Except Bytes (Nat × Nat) :=
  let sign := if token.head? = some 0x2B ∨ token.head? = some 0x2D then 1 else 0
  let (base, skipped) := basePrefix (token.drop sign)
  let (value, digits) := readDigits base (token.drop (sign + skipped))
  if digits = 0 then .error (utf8 "stoul")
  else if value ≥ 2 ^ 64 then .error (utf8 "stoul")
  else .ok (if token.head? = some 0x2D then (2 ^ 64 - value) % 2 ^ 64 else value, sign + skipped + digits)

def parseU32Token (token : Bytes) : Except Bytes UInt32 := do
  if token = [] then throw (utf8 "missing value")
  let (raw, consumed) ← stoul token
  if consumed ≠ token.length then throw (utf8 "trailing characters in value '" ++ token ++ utf8 "'")
  if raw ≥ 2 ^ 32 then throw (utf8 "value '" ++ token ++ utf8 "' exceeds uint32_t range")
  return .ofNat raw

/-! ### Commands -/

/-- `std::hex`. -/
def toHex (value : UInt32) : Bytes := utf8 (String.ofList (Nat.toDigits 16 value.toNat))

/-- `std::hex`, `std::uppercase` and a width of 8 filled with zeros. -/
def toHex8 (value : UInt32) : Bytes :=
  let digits := (toHex value).map fun b => if 0x61 ≤ b && b ≤ 0x7A then b - 0x20 else b
  List.replicate (8 - digits.length) 0x30 ++ digits

/-- A `DevMem` access, with the bytes of what it throws. -/
def bytesOf {α : Type} (access : EStateM String (List Touch) α) : EStateM Bytes (List Touch) α := EStateM.adaptExcept utf8 access

variable (host : Host) (devmem : DevMemObject)

def handleRequest (request : Bytes) : EStateM Bytes (List Touch) Bytes := do
  if request = [] then return utf8 "ERROR: expected <command> <offset> [value]"
  match nextToken request with
  | none => return utf8 "ERROR: expected <command> <offset> [value]"
  | some (command, line) =>
  match nextToken line with
  | none => return utf8 "ERROR: expected <command> <offset> [value]"
  | some (offsetToken, line) =>
  let command := command.map toLower
  let offset ← liftExcept (parseU32Token offsetToken)
  if command = utf8 "write" then
    match nextToken line with
    | none => return utf8 "ERROR: missing value for write command"
    | some (valueToken, _) =>
    let value ← liftExcept (parseU32Token valueToken)
    bytesOf (devmem.writeU32 offset.toUInt64 value)
    let readBack ← bytesOf (devmem.readU32 host offset.toUInt64)
    if readBack = value then return utf8 "OK"
    return utf8 "ERROR: verify failed (expected 0x" ++ toHex value ++ utf8 " read 0x" ++ toHex readBack ++ utf8 ")"
  else if command = utf8 "read" then
    let data ← bytesOf (devmem.readU32 host offset.toUInt64)
    return toHex8 data
  else return utf8 "ERROR: unsupported command '" ++ command ++ utf8 "'"
where
  liftExcept {α : Type} : Except Bytes α → EStateM Bytes (List Touch) α
    | .ok a => pure a
    | .error e => throw e

/-! ### The receive loop -/

/-- The memory from the start of the buffer on. -/
abbrev Memory := Nat → UInt8

/-- `zmq_recv` with a message that is delivered, for a length, as its manual describes it: it gives the size of the
    message, also if that is more than the length, and copies what fits. -/
structure ZmqRecv where
  recv : Bytes → Nat → Memory → Nat × Memory
  size : ∀ message len memory, (recv message len memory).1 = message.length
  copied : ∀ message len memory i b, i < len → message[i]? = some b → (recv message len memory).2 i = b
  kept : ∀ message len memory i, min len message.length ≤ i → (recv message len memory).2 i = memory i

/-- What is done with one message: the indices that are used in the buffer, the text that is interpreted and the reply. -/
structure Round where
  message : Bytes
  indices : List Nat
  text : Bytes
  reply : Bytes

/-- The reply to a command, or to the exception that it throws. -/
def replyOf (text : Bytes) : EStateM Bytes (List Touch) Bytes :=
  tryCatch (handleRequest host devmem text) fun what => return utf8 "ERROR: " ++ what.takeWhile (· ≠ 0)

/-- The message in the buffer: its indices are those of the terminator and of the text. -/
def receive (z : ZmqRecv) (memory : Memory) (message : Bytes) : List Nat × Bytes × Memory :=
  let (bytesReceived, memory) := z.recv message (kMaxRequestSize - 1) memory
  let memory := fun i => if i = bytesReceived then 0 else memory i
  (bytesReceived :: List.range bytesReceived, (List.range bytesReceived).map memory, memory)

inductive Received
  | message (message : Bytes)
  | interrupted
  | failed (error : String)

/-- The loop, with what `zmq_recv` does in each round. It ends when receiving fails. -/
def serve (z : ZmqRecv) : Memory → List Touch → List Received → List Round
  | _, _, [] | _, _, .failed _ :: _ => []
  | memory, past, .interrupted :: events => serve z memory past events
  | memory, past, .message message :: events =>
    let (indices, text, memory) := receive z memory message
    match replyOf host devmem text past with
    | .ok reply past => ⟨message, indices, text, reply⟩ :: serve z memory past events
    | .error _ _ => []

/-! ### What a token says -/

/-- What `>>` takes out of a line. -/
abbrev Token := { bytes : Bytes // ∀ b ∈ bytes, isSpace b = false }

/-- The number that all of the bytes are in a base, if they are its digits. -/
def numeral (base : Nat) (bytes : Bytes) : Option Nat :=
  if bytes ≠ [] ∧ bytes.all (isDigit base) then some (readDigits base bytes).1 else none

/-- The token begins with `0x` or `0X`. -/
def hasHexPrefix : Bytes → Bool
  | 0x30 :: x :: _ => toLower x == 0x78
  | _ => false

/-- The value of an ASCII hexadecimal numeral, with or without the prefix. -/
def hexNumeral (token : Bytes) : Option Nat := numeral 16 (if hasHexPrefix token then token.drop 2 else token)

/-- What the register protocol has a token mean. -/
def meaning (token : Bytes) : Option UInt32 := ((hexNumeral token).filter (· < 2 ^ 32)).map UInt32.ofNat

/-- The value of an unsigned integer literal of C, whose base goes by how it begins. -/
def literal (bytes : Bytes) : Option Nat := numeral (basePrefix bytes).1 (bytes.drop (basePrefix bytes).2)

/-- With a prefix every token is read as it is meant. A signed one is not if the literal behind the sign fits after all. A
    bare numeral is only if nothing but zeros stands before a last digit that both bases have, or if it is too large both ways. -/
def ReadAsMeant : Bytes → Prop
  | 0x2B :: rest => ∀ n, literal rest = some n → 2 ^ 32 ≤ n
  | 0x2D :: rest => ∀ n, literal rest = some n → 0 < n ∧ n ≤ 2 ^ 64 - 2 ^ 32 ∨ 2 ^ 64 ≤ n
  | token => hasHexPrefix token ∨ ∀ n, numeral 16 token = some n →
      n < 8 ∨ token.length = 1 ∧ n < 10 ∨ 2 ^ 32 ≤ n ∧ ∀ m, literal token = some m → 2 ^ 32 ≤ m

/-! ### Requests -/

def readRequest (offset : Bytes) : Bytes := utf8 "read" ++ 0x20 :: offset

def writeRequest (offset value : Bytes) : Bytes := utf8 "write" ++ 0x20 :: (offset ++ 0x20 :: value)

/-- The words that have been touched when a request is over. -/
def touched {α : Type} : EStateM.Result Bytes (List Touch) α → List Touch
  | .ok _ past | .error _ past => past

end Srv
end DaphneZmq
