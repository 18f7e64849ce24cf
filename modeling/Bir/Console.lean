import Bir.Failure

/-!
# Console — bytes in and out of a program

The native block `bir` gives programs a console of bytes: its first verb is the code of an
operation. This file defines:

* `Source` — where lines come from: lines prepared beforehand, or a stream of bytes;
* `Channel` — a source and all that was written;
* `Console` — a channel, the bytes of the current line, and the bytes not yet written;
* `Console.call` — one call of the native block.

`push` keeps a byte back and `flush` writes what was kept; `input` takes a line and `pull` hands
out its bytes one by one.
-/

namespace Bir

/-! ## Sources -/

/-- Where lines come from. -/
inductive Source where
  /-- Lines prepared beforehand, each with its line feed. -/
  | prepared (lines : List (List UInt8))
  /-- A stream that is cut into lines as they are asked for. -/
  | stream (bytes : List UInt8)
  deriving DecidableEq, Repr, Inhabited

namespace Source

/-- The byte that ends a line. -/
def lineFeed : UInt8 := 10

/-- The byte that may stand before the end of a line. -/
def carriageReturn : UInt8 := 13

/-- The most bytes of a stream that one line takes. -/
def longestLine : Nat := 1024

/-- A source of prepared lines; each gets a line feed. -/
def ofLines (lines : List String) : Source :=
  .prepared (lines.map fun line => line.toUTF8.toList ++ [lineFeed])

/-- The first line of a stream: up to and with its line feed, but no longer than `room`. -/
def cutLine : Nat → List UInt8 → List UInt8 × List UInt8
  | 0, bytes => ([], bytes)
  | _, [] => ([], [])
  | room + 1, byte :: bytes =>
    if byte = lineFeed then ([byte], bytes)
    else
      let (line, rest) := cutLine room bytes
      (byte :: line, rest)

/-- The next line with its line feed; nothing once the source has run out. -/
def readLine : Source → List UInt8 × Source
  | .prepared [] => ([], .prepared [])
  | .prepared (line :: lines) => (line, .prepared lines)
  | .stream bytes =>
    let (line, rest) := cutLine longestLine bytes
    (line, .stream rest)

end Source

/-! ## Channels -/

/-- A source and all that was written. -/
structure Channel where
  source : Source := .prepared []
  written : Array UInt8 := #[]
  deriving DecidableEq, Repr, Inhabited

namespace Channel

/-- Read a line. -/
def readLine (channel : Channel) : List UInt8 × Channel :=
  let (line, source) := channel.source.readLine
  (line, { channel with source })

/-- Write bytes. -/
def write (channel : Channel) (bytes : Array UInt8) : Channel :=
  { channel with written := channel.written ++ bytes }

end Channel

/-! ## The native block -/

/-- A channel, what is left of the current line, and the bytes kept back. -/
structure Console where
  channel : Channel := {}
  line : List UInt8 := []
  pending : Array UInt8 := #[]
  deriving DecidableEq, Repr, Inhabited

namespace Console

/-- The name of the native block. -/
def blockName : String := "bir"

/-- The code that keeps a byte back. -/
def pushCode : Int64 := 4206901

/-- The code that takes a line. -/
def inputCode : Int64 := 4206908

/-- The code that writes the bytes kept back. -/
def outputCode : Int64 := 4206909

/-- What `pull` yields once the line is used up. -/
def done : Int64 := 4206910

/-- The code that hands out a byte. -/
def pullCode : Int64 := 4206913

/-- A line without the line feeds and carriage returns at its end. -/
def trimLine (line : List UInt8) : List UInt8 :=
  (line.reverse.dropWhile fun byte =>
    byte = Source.lineFeed || byte = Source.carriageReturn).reverse

/-- The lowest byte of a value. -/
def lowByte (value : Int64) : UInt8 := value.toUInt64.toUInt8

/-- A byte as a value. -/
def ofByte (byte : UInt8) : Int64 := Int64.ofNat byte.toNat

/-- Keep the lowest byte of a value back. -/
def push (console : Console) (value : Int64) : Console :=
  { console with pending := console.pending.push (lowByte value) }

/-- Hand out the next byte of the line. -/
def pull (console : Console) : Int64 × Console :=
  match console.line with
  | [] => (done, console)
  | byte :: rest => (ofByte byte, { console with line := rest })

/-- Take a line; what was left of the one before is lost. -/
def input (console : Console) : Console :=
  let (line, channel) := console.channel.readLine
  { console with channel, line := trimLine line }

/-- Write the bytes kept back. -/
def flush (console : Console) : Console :=
  { console with channel := console.channel.write console.pending, pending := #[] }

/-- One call of the native block. A code that names no operation yields `0`. -/
def call (console : Console) (verbs arguments : List Int64) :
    Except Failure Int64 × Console :=
  match verbs with
  | [] => (.ok 0, console)
  | code :: _ =>
    if code = pushCode then
      match arguments with
      | [] =>
        (.error (.ofCause (.argumentCount blockName ["push expects 1 argument, found 0"])), console)
      | value :: _ => (.ok value, console.push value)
    else if code = pullCode then
      let (value, console) := console.pull
      (.ok value, console)
    else if code = inputCode then (.ok 0, console.input)
    else if code = outputCode then (.ok (arguments.headD 0), console.flush)
    else (.ok 0, console)

end Console

end Bir
